import Bidding.Properties.RoundTrip
import Bidding.Semantics.Fetching

/-!
# Fetching an Item While It Is Stored

`setBidItem` first adds the id of an item to `BIDITEMS`, which is what `getBidItem` asks for
existence, and then writes the fields one by one. A fetch in between sees an item of which
some fields are still missing, and so does every fetch after a writer that did not come to its
end. An item that is found without its end time counts as one whose time is over.

## Architecture

- **`storing`**: one writer and one reader of the same id. The connection of the writer can
  fail at every command, and a writer that crashes gets no turn any more.
- **`Written`**: the reader asks for an essential field only once the field is there.

## Key Results

- **`grows_setBidItem`**: the writer only adds fields, with the texts of its item.
- **`wholeOrNull_of_written`**: a fetch that finds every essential field has the essentials of
  the item that was given.
-/

namespace Bidding.Model

open Bidding.Effects Bidding.Effects.Action Bidding.KeyValue
open RedisCacheService

/-! ## Writer and reader -/

/-- The two threads. -/
inductive Party where
  | writer
  | reader
  deriving DecidableEq

/-- What the threads return. -/
def Party.Result : Party → Type
  | .writer => Except Exn Unit
  | .reader => Except Exn (Option BidItem)

/-- An item is stored and fetched at the same time. -/
def storing (w : World) (id : ℤ) (item : BidItem) : Pool Cmd Answer World Party.Result where
  threads
    | .writer => setBidItem id item
    | .reader => getBidItem id
  shared := ⟨w, []⟩

/-- The commands of the writer can fail. -/
def writerFaults : Party → (c : Cmd) → Option (Answer c)
  | .writer, c => redisFault c
  | .reader, _ => none

/-- The fetch answered `null`, or an item with the essentials of the one that was given. -/
def WholeOrNull (item : BidItem) (result : Except Exn (Option BidItem)) : Prop :=
  result = .ok none ∨ ∃ found, result = .ok (some found) ∧ found.essentials = item.essentials

/-- The reader asks for an essential field of the item only when it is there. -/
def Written (id : ℤ) : Party → Shared Party Cmd World → Cmd → Prop
  | .reader, g, .redis (.hget k attr) =>
    k = .bidItem id → attr ∈ essentialAttrs → g.state.redis.hashes (.bidItem id) attr ≠ none
  | _, _, _ => True

/-- The essentials have a text from which they are read back: dates are stored by the second,
    and the cache does not tell a missing extension from `0` or a missing status from the empty
    text. -/
structure Storable (item : BidItem) : Prop where
  bidEndTime : WholeSecond item.bidEndTime
  lastUpDateTime : WholeSecond item.lastUpDateTime
  timeExtAfterBid : item.timeExtAfterBid ≠ none
  statusCode : item.statusCode ≠ none

/-! ## What the writer does -/

/-- Fields of the item are added, with the texts of the item that is stored. -/
def Grows (id : ℤ) (item : BidItem) (r r' : Redis) : Prop :=
  ∀ attr, r'.hashes (.bidItem id) attr = r.hashes (.bidItem id) attr ∨
    r'.hashes (.bidItem id) attr = cellText item attr

/-- Every field of the item is missing or has the text of the item that is stored. -/
def Partly (id : ℤ) (item : BidItem) (r : Redis) : Prop :=
  ∀ attr, r.hashes (.bidItem id) attr = none ∨ r.hashes (.bidItem id) attr = cellText item attr

section Writer

variable {id : ℤ} {item : BidItem} {r r' r'' : Redis}

theorem Grows.refl (id : ℤ) (item : BidItem) (r : Redis) : Grows id item r r :=
  fun _ => .inl rfl

/-- Adding fields twice adds fields. -/
theorem Grows.trans (h : Grows id item r r') (h' : Grows id item r' r'') :
    Grows id item r r'' := by
  intro attr
  cases h' attr with
  | inr hcell => exact .inr hcell
  | inl hsame =>
    rw [hsame]
    exact h attr

/-- An item that is partly there stays so while fields are added. -/
theorem Partly.grows (hpartly : Partly id item r) (h : Grows id item r r') :
    Partly id item r' := by
  intro attr
  cases h attr with
  | inr hcell => exact .inr hcell
  | inl hsame =>
    rw [hsame]
    exact hpartly attr

/-- Every field that is there can be read. -/
theorem Partly.fits (h : Partly id item r) (attr : Attr) :
    Fits attr (r.hashes (.bidItem id) attr) := by
  cases h attr with
  | inl hnone =>
    rw [hnone]
    exact fits_none attr
  | inr hcell =>
    rw [hcell]
    exact fits_cellText item attr

/-- A command that only adds fields of the item. -/
def Adds (env : Env) (id : ℤ) (item : BidItem) (c : Cmd) : Prop :=
  ∀ w : World, Grows id item w.redis (handle env c w).2.redis

variable {env : Env}

/-- Commands on other keys. -/
theorem adds_of_allows {fp : Footprint} (hkey : ¬ fp.keys (.bidItem id)) {c : Cmd}
    (hc : fp.Allows c) : Adds env id item c := by
  intro w attr
  rw [(hc.sameAt env w hkey).hashes]
  exact .inl rfl

/-- Writing a cell adds a field with the text of the item. -/
theorem grows_writeCell {cell : Attr × Except Exn Text} (hcell : cell ∈ bidItemCells item) :
    Issues (Adds env id item) (writeCell id cell) := by
  obtain ⟨attr, value⟩ := cell
  cases value with
  | error e => trivial
  | ok text =>
    show Issues _ (hsetnx (.bidItem id) attr text)
    apply issues_perform
    intro w attr'
    have hhash : (w.redis.hsetnx (.bidItem id) attr text).hashes (.bidItem id) attr' = _ :=
      Store.hashes_hsetnx ..
    show (w.redis.hsetnx (.bidItem id) attr text).hashes (.bidItem id) attr' = _ ∨
      (w.redis.hsetnx (.bidItem id) attr text).hashes (.bidItem id) attr' = _
    rw [hhash]
    -- the first write of a field wins
    cases w.redis.hashes (.bidItem id) attr' with
    | some s => exact .inl rfl
    | none =>
      rw [Option.none_or]
      split
      · next heq =>
        rw [heq, cellText_of_mem hcell]
        exact .inr rfl
      · exact .inl rfl

/-- The writer only adds fields, with the texts of its item. -/
theorem grows_setBidItem : Issues (Adds env id item) (setBidItem id item) := by
  have hapart : ¬ (cacheOnly (· ≠ .bidItem id)).keys (.bidItem id) := fun h => h rfl
  have hother : ∀ {α : Type} {p : Act α}, Within (cacheOnly (· ≠ .bidItem id)) p →
      Issues (Adds env id item) p := fun hp => hp.mono fun c hc => adds_of_allows hapart hc
  have hallowed : ∀ c, (cacheOnly (· ≠ .bidItem id)).Allows c → Adds env id item c :=
    fun c hc => adds_of_allows hapart hc
  apply (compositional_issues (hallowed _ trivial) (fun _ => hallowed _ trivial)
    (hallowed _ trivial)).of_setBidItem
  · exact hother (within_sadd _ (by simp [cacheOnly]))
  · exact fun cell hcell => grows_writeCell hcell
  · -- the bidders and the category are other keys
    exact fun bidder => hother
      (within_setBidder bidder (by simp [cacheOnly]) (by simp [cacheOnly]))
  · exact fun c => hother (within_setCategory c (by simp [cacheOnly]))

end Writer

/-! ## What the reader finds -/

/-- The reader relies on the writer only adding fields. -/
def storingDiscipline (env : Env) (id : ℤ) (item : BidItem) :
    Discipline Cmd Answer World Party where
  handler := handle env
  faults := writerFaults
  cond := Written id
  tol := Always
  rely
    | .writer, _, _ => True
    | .reader, g, g' => Grows id item g.state.redis g'.state.redis
  rely_refl
    | .writer, _ => trivial
    | .reader, g => Grows.refl id item g.state.redis
  rely_trans {i} := match i with
    | .writer => fun _ _ => trivial
    | .reader => Grows.trans

theorem handler_storing (env : Env) (id : ℤ) (item : BidItem) :
    (storingDiscipline env id item).handler = handle env := rfl

/-- What the reader does disturbs nobody. -/
theorem guar_reader (env : Env) (id : ℤ) (item : BidItem) (g g' : Shared Party Cmd World) :
    (storingDiscipline env id item).guar .reader g g' := by
  intro j hj
  cases j with
  | writer => trivial
  | reader => exact absurd rfl hj

/-- The writer owes the reader that it only adds fields. -/
theorem guar_writer {env : Env} {id : ℤ} {item : BidItem} {g g' : Shared Party Cmd World}
    (h : Grows id item g.state.redis g'.state.redis) :
    (storingDiscipline env id item).guar .writer g g' := by
  intro j hj
  cases j with
  | writer => exact absurd rfl hj
  | reader => exact h

/-- The essential fields that were read so far had the texts of the item that is stored. -/
def Finding (id : ℤ) (item : BidItem) (texts : Attr → Option Text) (rest : List Attr)
    (g : Shared Party Cmd World) : Prop :=
  Partly id item g.state.redis ∧
    ∀ attr ∈ essentialAttrs, attr ∈ rest ∨ texts attr = cellText item attr

section Reader

variable {env : Env} {id : ℤ} {item : BidItem}

/-- The reader finds in each field the text of the item. -/
theorem fetches_finding :
    Fetches (storingDiscipline env id item) .reader id (Finding id item) where
  stable texts rest g g' h hrely := ⟨h.1.grows hrely, h.2⟩
  -- a quiet command changes no field
  quiet texts rest c hc g h _ := by
    refine ⟨guar_reader _ _ _ _ _, ?_, h.2⟩
    show Partly id item (handle env c g.state).2.redis
    rw [hc.1.redis_eq]
    exact h.1
  field texts attr rest g h hcond := by
    refine ⟨guar_reader _ _ _ _ _, h.1.fits attr, h.1, ?_⟩
    intro attr' hattr'
    by_cases heq : attr' = attr
    · subst heq
      -- the field is there, so it has the text of the item
      rw [Function.update_self]
      exact .inr ((h.1 attr').resolve_left (hcond rfl hattr'))
    · rw [Function.update_of_ne heq]
      exact (h.2 attr' hattr').imp_left (List.mem_of_ne_of_mem heq)

/-- The essentials are read back from their texts. -/
theorem essentialsOf_cellText (h : Storable item) :
    essentialsOf (cellText item) = item.essentials := by
  obtain ⟨ext, hext⟩ := Option.ne_none_iff_exists'.mp h.timeExtAfterBid
  obtain ⟨status, hstatus⟩ := Option.ne_none_iff_exists'.mp h.statusCode
  have hdate : ∀ d : Option Date, WholeSecond d →
      valueOr none (parseDateOrNull (some (dateOrEmpty d))) = d := by
    intro d hd
    cases d with
    | none => rfl
    | some d => exact congrArg some (hd d rfl)
  have hend := hdate _ h.bidEndTime
  have hlast := hdate _ h.lastUpDateTime
  unfold essentialsOf BidItem.essentials
  congr 1
  · show some (valueOr 0 (parseLongOrZero (some (longOr (.long 0) item.timeExtAfterBid)))) = _
    rw [hext]
    rfl
  · show some (orEmpty item.statusCode).render = _
    rw [hstatus]
    rfl

/-- The reader finds the item or none. -/
theorem delivers_getBidItem (hitem : Storable item) {g : Shared Party Cmd World}
    (hg : Partly id item g.state.redis) :
    (storingDiscipline env id item).Delivers .reader
      (fun found _ => WholeOrNull item (.ok found)) (getBidItem id) g := by
  let D := storingDiscipline env id item
  have hpartly : D.Stable .reader (fun g => Partly id item g.state.redis) :=
    fun g g' h hrely => h.grows hrely
  have hquiet : ∀ c, Quiet id c → D.Keeps .reader (fun g => Partly id item g.state.redis) c := by
    intro c hc g h _
    refine ⟨guar_reader _ _ _ _ _, ?_⟩
    show Partly id item (handle env c g.state).2.redis
    rw [hc.1.redis_eq]
    exact h
  apply delivers_guarded (handler_storing env id item) (fun _ => rfl) hpartly
    (fun _ => Discipline.Stable.const _) (hquiet _ ⟨trivial, by simp⟩)
    (fun _ _ h _ => ⟨guar_reader _ _ _ _ _, h⟩) _ hg
  intro g hg
  apply Discipline.delivers_bind (B := fun _ g => Partly id item g.state.redis)
  · apply delivers_unclosed (handler_storing env id item) (fun _ => rfl) hpartly
      (fun _ => hpartly) (hquiet _ ⟨trivial, by simp⟩) (hquiet _ ⟨trivial, by simp⟩) _ hg
    intro g hg
    apply Discipline.delivers_perform hpartly (fun _ => hpartly)
      (Discipline.safe_of_faults rfl) _ hg
    intro g hg _
    exact ⟨guar_reader _ _ _ _ _, _, rfl, hg⟩
  · intro found g hg
    cases found with
    -- the writer has not added the item yet
    | false => exact Discipline.delivers_pure (Discipline.Stable.const _) (.inl rfl)
    | true =>
      -- no field was read yet, so any texts do to begin with
      have hstart : Finding id item (cellText item) readOrder g := ⟨hg, fun _ _ => .inr rfl⟩
      apply Discipline.delivers_bind
        (fetches_finding.delivers_fill (handler_storing env id item) (fun _ => rfl) hstart)
      intro found g hfound
      obtain ⟨texts, hfinding, hessentials⟩ := hfound
      apply Discipline.delivers_pure (Discipline.Stable.const _)
      refine .inr ⟨found, rfl, hessentials.trans ?_⟩
      rw [← essentialsOf_cellText hitem]
      apply essentialsOf_congr
      intro attr hattr
      exact (hfinding.2 attr hattr).resolve_left List.not_mem_nil

end Reader

/-! ## Every schedule -/

/-- What the two threads end with. -/
def StoringEnds (item : BidItem) : (i : Party) → i.Result → Shared Party Cmd World → Prop
  | .writer, _, _ => True
  | .reader, result, _ => WholeOrNull item result

/-- A fetch that finds every essential field has the essentials of the item that was given. -/
theorem wholeOrNull_of_written (env : Env) (w : World) {id : ℤ} {item : BidItem}
    (habsent : Absent w.redis id) (hitem : Storable item) {moves : List (Move Party)}
    (hmoves : Along (Pool.step (handle env) writerFaults) (Meets (Written id) Always)
      (storing w id item) moves) :
    ∀ result, ((storing w id item).play (handle env) writerFaults moves).result .reader =
      some result → WholeOrNull item result := by
  intro result hresult
  let D := storingDiscipline env id item
  have hsecures : ∀ i, D.Secures i (StoringEnds item i) ((storing w id item).threads i)
      (storing w id item).shared := by
    intro i
    cases i with
    -- the writer needs no precondition
    | writer =>
      have hgrows : Issues (Adds env id item) (setBidItem id item) := grows_setBidItem
      apply Discipline.secures_of_issues (I := fun _ => True) (fun _ _ _ _ => trivial) _
        hgrows trivial
      exact fun c hc g _ _ => ⟨guar_writer (hc g.state), trivial⟩
    | reader =>
      have hfetch : D.Delivers .reader (fun found _ => WholeOrNull item (.ok found))
          (getBidItem id) ⟨w, []⟩ :=
        delivers_getBidItem hitem fun attr => .inl (habsent.hash attr)
      apply Discipline.Secures.mono hfetch
      intro r g hr
      obtain ⟨found, rfl, hfound⟩ := hr
      exact hfound
  exact D.secures_finished hsecures hmoves hresult

/-- An item whose sale ends a minute after the start. -/
def minuteItem : BidItem :=
  { BidItem.new with
    bidItemId := some 11
    bidStartTime := some 0
    bidEndTime := some 60000
    lastUpDateTime := some 0
    timeExtAfterBid := some 20
    statusCode := some "ACTIVE"
    bidSpan := 60 }

theorem storable_minuteItem : Storable minuteItem where
  bidEndTime := by
    intro d hd
    cases hd
    rfl
  lastUpDateTime := by
    intro d hd
    cases hd
    rfl
  timeExtAfterBid := Option.some_ne_none _
  statusCode := Option.some_ne_none _

/-- A pool in which the item is stored into an empty cache. -/
def storingMinute : Pool Cmd Answer World Party.Result :=
  storing (World.initial .empty) 11 minuteItem

instance Written.decidable (id : ℤ) (i : Party) (g : Shared Party Cmd World) (c : Cmd) :
    Decidable (Written id i g c) := by
  unfold Written
  split <;> infer_instance

/-- The schedule in which the writer comes to its end before the reader starts. -/
def writerFirst : List (Move Party) :=
  List.replicate 40 (.turn .writer) ++ List.replicate 80 (.turn .reader)

/-- After the writer has ended the item is found as it was given. -/
theorem wholeOrNull_writerFirst :
    ∃ result, (storingMinute.play (handle (Env.still 0)) writerFaults writerFirst).result .reader =
      some result ∧ WholeOrNull minuteItem result := by
  have hmoves : Along (Pool.step (handle (Env.still 0)) writerFaults) (Meets (Written 11) Always)
      storingMinute writerFirst := by decide +kernel
  have hended : ((storingMinute.play (handle (Env.still 0)) writerFaults writerFirst).result
      .reader).isSome = true := by decide +kernel
  obtain ⟨result, hresult⟩ := Option.isSome_iff_exists.mp hended
  exact ⟨result, hresult, wholeOrNull_of_written (Env.still 0) (World.initial .empty)
    ⟨fun _ => rfl, rfl, fun _ _ => rfl⟩ storable_minuteItem hmoves result hresult⟩

/-- The schedule in which the writer crashes after it has connected and added the id. -/
def writerCrashes : List (Move Party) :=
  List.replicate 2 (.turn .writer) ++ List.replicate 80 (.turn .reader)

/-- The reader then finds an item without an end time. -/
theorem minuteItem_halfWritten : ∃ result,
    (storingMinute.play (handle (Env.still 0)) writerFaults writerCrashes).result .reader =
      some result ∧ ¬ WholeOrNull minuteItem result := by
  have hended : ((storingMinute.play (handle (Env.still 0)) writerFaults writerCrashes).result
      .reader).map (fun result : Except Exn (Option BidItem) =>
        result.map (Option.map BidItem.bidEndTime)) = some (.ok (some none)) := by decide +kernel
  obtain ⟨result, hresult, hfound⟩ := Option.map_eq_some_iff.mp hended
  refine ⟨result, hresult, ?_⟩
  intro h
  cases h with
  | inl hnull =>
    rw [hnull] at hfound
    cases hfound
  | inr hitem =>
    obtain ⟨found, rfl, hessentials⟩ := hitem
    have hend : found.bidEndTime = some 60000 := congrArg Essentials.bidEndTime hessentials
    -- the reader was faster than the writer
    have hnone : found.bidEndTime = none := Option.some.inj (Except.ok.inj hfound)
    rw [hend] at hnone
    cases hnone

end Bidding.Model
