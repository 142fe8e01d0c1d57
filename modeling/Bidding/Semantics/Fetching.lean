import Bidding.Effects.Interleaving
import Bidding.Semantics.Failures

/-!
# Fetching an Item While Others Write

`getBidItem` reads the fields of an item one by one. When other threads write in between, the
texts that it finds need not be those of one state of the cache.

## Architecture

- **`Essentials`**: the attributes of an item on which the sale depends; they are computed from
  the texts that were found (`essentialsOf`).
- **`Fetches D i id J`**: the assertion `J texts rest` holds while a thread fetches the item
  `id`, with the `texts` found so far and the fields in `rest` still to be read.

## Key Results

- **`Fetches.delivers_fill`**: the item that is filled has the essentials of the texts that were
  found, and the assertion holds at the end.
-/

namespace Bidding.Model

open Bidding.Effects Bidding.Effects.Action Bidding.KeyValue
open RedisCacheService

/-! ## Essentials -/

/-- The attributes on which the sale of an item depends. -/
structure Essentials where
  bidEndTime : Option Date
  lastUpDateTime : Option Date
  timeExtAfterBid : Option ℤ
  statusCode : Option String
  bidSpan : ℤ

def BidItem.essentials (item : BidItem) : Essentials where
  bidEndTime := item.bidEndTime
  lastUpDateTime := item.lastUpDateTime
  timeExtAfterBid := item.timeExtAfterBid
  statusCode := item.statusCode
  bidSpan := item.bidSpan

/-- What reading a field does to the essentials. -/
def readEssential (attr : Attr) (s : Option Text) (e : Essentials) : Essentials :=
  match attr with
  | .bidEndTime => { e with bidEndTime := valueOr none (parseDateOrNull s) }
  | .lastUpDateTime => { e with lastUpDateTime := valueOr none (parseDateOrNull s) }
  | .timeExtAfterBid => { e with timeExtAfterBid := some (valueOr 0 (parseLongOrZero s)) }
  | .statusCode => { e with statusCode := s.map Text.render }
  | .bidSpan => { e with bidSpan := valueOr 0 (parseLongOrZero s) }
  | _ => e

/-- The essentials of an item of which these texts were found. -/
def essentialsOf (texts : Attr → Option Text) : Essentials where
  bidEndTime := valueOr none (parseDateOrNull (texts .bidEndTime))
  lastUpDateTime := valueOr none (parseDateOrNull (texts .lastUpDateTime))
  timeExtAfterBid := some (valueOr 0 (parseLongOrZero (texts .timeExtAfterBid)))
  statusCode := (texts .statusCode).map Text.render
  bidSpan := valueOr 0 (parseLongOrZero (texts .bidSpan))

/-- The fields that hold the essentials. -/
def essentialAttrs : List Attr :=
  [.bidEndTime, .lastUpDateTime, .timeExtAfterBid, .statusCode, .bidSpan]

/-- The essentials depend on five texts. -/
theorem essentialsOf_congr {texts texts' : Attr → Option Text}
    (h : ∀ attr ∈ essentialAttrs, texts attr = texts' attr) :
    essentialsOf texts = essentialsOf texts' := by
  unfold essentialAttrs at h
  simp only [List.forall_mem_cons, List.not_mem_nil, false_imp_iff, implies_true, and_true] at h
  obtain ⟨hend, hlast, hext, hstatus, hspan⟩ := h
  unfold essentialsOf
  rw [hend, hlast, hext, hstatus, hspan]

/-- The fields in the order in which they are read. -/
def readOrder : List Attr := bidItemReaders.map Reader.attr

theorem nodup_readOrder : readOrder.Nodup := by decide

/-- Reading all fields gives the essentials. -/
theorem foldl_readEssential (texts : Attr → Option Text) :
    readOrder.foldl (fun e attr => readEssential attr (texts attr) e) BidItem.new.essentials =
      essentialsOf texts := rfl

/-! ## Quiet commands -/

/-- A command that only reads, and not a field of the item. -/
def Quiet (id : ℤ) (c : Cmd) : Prop :=
  readOnly.Allows c ∧ ∀ attr, c ≠ .redis (.hget (.bidItem id) attr)

section Quiet

variable {id : ℤ} {α : Type}

theorem compositional_quiet : Compositional (fun _ p => Issues (Quiet id) p) :=
  compositional_issues ⟨trivial, by simp⟩ (fun _ => ⟨trivial, by simp⟩) ⟨trivial, by simp⟩

theorem quiet_hget {k : Key} (hk : k ≠ .bidItem id) (attr : Attr) :
    Issues (Quiet id) (hget k attr) :=
  issues_perform ⟨fun _ hw => hw, by simp [hk]⟩

theorem quiet_getCategory (s : Text) : Issues (Quiet id) (getCategory s) :=
  compositional_quiet.of_getCategory (quiet_hget (by simp))

theorem quiet_getBidders (bidItemId : ℤ) (item : BidItem) :
    Issues (Quiet id) (getBidders bidItemId item) :=
  compositional_quiet.of_getBidders (issues_perform ⟨fun _ hw => hw, by simp⟩)
    (fun _ => quiet_hget (by simp)) item

/-- The bidders do not matter for the essentials. -/
theorem returns_getBidders (bidItemId : ℤ) (item : BidItem) :
    Returns (fun item' => item'.essentials = item.essentials) (getBidders bidItemId item) := by
  apply returns_guarded (P := fun item' : BidItem => item'.essentials = item.essentials) rfl
  apply yields_bind (yields_true _)
  intro names _
  induction names generalizing item with
  | nil =>
    have hpure : Returns (fun item' => item'.essentials = item.essentials)
        (pure item : Act BidItem) := returns_pure rfl
    exact hpure.yields
  | cons name names ih =>
    apply yields_bind (yields_true _)
    intro bidder _
    cases bidder with
    -- a bidder that could not be fetched is left out
    | none => exact ih item
    | some bidder => exact ih (item.addBidder bidder)

end Quiet

/-! ## Connections -/

/-- A command that only reads leaves the cache as it is. -/
theorem Footprint.Allows.redis_eq {c : Cmd} (hc : readOnly.Allows c) (env : Env) (w : World) :
    (handle env c w).2.redis = w.redis :=
  Store.ext_sameAt fun _ => hc.sameAt env w fun hk => hk

section Connections

variable {ι α : Type} {D : Discipline Cmd Answer World ι} {i : ι} {env : Env}
  {A : Shared ι Cmd World → Prop} {B : α → Shared ι Cmd World → Prop}
  {g : Shared ι Cmd World} {onFailure : α} {body : Act α}
  (hhandler : D.handler = handle env)

include hhandler in
/-- A connection is made. -/
theorem delivers_connect (hA : D.Stable i A) (hconnect : D.Keeps i A .connect)
    (hsafe : D.Safe i A .connect) (hg : A g) :
    D.Delivers i (fun r g => r = .ok 0 ∧ A g) (attempt connect) g := by
  have hdone : D.Delivers i (fun jedis g => jedis = 0 ∧ A g) connect g := by
    apply Discipline.delivers_perform hA (fun _ => (Discipline.Stable.const _).and hA) hsafe _ hg
    intro g hg hcond
    obtain ⟨hguar, hA'⟩ := hconnect g hg hcond
    refine ⟨hguar, 0, ?_, rfl, hA'⟩
    rw [hhandler]
    rfl
  apply (Discipline.delivers_attempt hdone).mono
  intro r g hr
  obtain ⟨_, rfl, rfl, hA'⟩ := hr
  exact ⟨rfl, hA'⟩

/-- The connection is closed, and the result is handed out. -/
theorem delivers_close {a : α} (hfault : D.faults i (.close (some 0)) = none)
    (hB : D.Stable i (B a)) (hclose : D.Keeps i (B a) (.close (some 0))) (hg : B a g) :
    D.Delivers i B (do close (some 0); pure a : Act α) g := by
  apply Discipline.delivers_bind (B := fun _ => B a)
  · apply Discipline.delivers_perform hB (fun _ => hB) (Discipline.safe_of_faults hfault) _ hg
    intro g hg hcond
    obtain ⟨hguar, hB'⟩ := hclose g hg hcond
    exact ⟨hguar, (), rfl, hB'⟩
  · exact fun _ g hg => Discipline.delivers_pure hB hg

include hhandler in
/-- A guarded method that gets its connection answers its default for an exception. -/
theorem delivers_guarded_of_secures (hfault : D.faults i (.close (some 0)) = none)
    (hA : D.Stable i A) (hB : ∀ a, D.Stable i (B a)) (hconnect : D.Keeps i A .connect)
    (hsafe : D.Safe i A .connect) (hclose : ∀ a, D.Keeps i (B a) (.close (some 0)))
    (hbody : ∀ g, A g → D.Secures i (fun r => B (orDefault onFailure r)) body g) (hg : A g) :
    D.Delivers i B (guarded onFailure body) g := by
  apply Discipline.delivers_bind (delivers_connect hhandler hA hconnect hsafe hg)
  intro r g hr
  obtain ⟨rfl, hA'⟩ := hr
  apply Discipline.delivers_bind (Discipline.delivers_attempt_of_secures (hbody g hA'))
  intro r g hr
  -- in both cases the connection is closed
  cases r with
  | error e => exact delivers_close hfault (hB onFailure) (hclose onFailure) hr
  | ok a => exact delivers_close hfault (hB a) (hclose a) hr

include hhandler in
/-- Such a method that leaves its connection open. -/
theorem delivers_unclosed_of_secures (hfault : D.faults i (.close (some 0)) = none)
    (hA : D.Stable i A) (hB : ∀ a, D.Stable i (B a)) (hconnect : D.Keeps i A .connect)
    (hsafe : D.Safe i A .connect) (hclose : D.Keeps i (B onFailure) (.close (some 0)))
    (hbody : ∀ g, A g → D.Secures i (fun r => B (orDefault onFailure r)) body g) (hg : A g) :
    D.Delivers i B (unclosed onFailure body) g := by
  apply Discipline.delivers_bind (delivers_connect hhandler hA hconnect hsafe hg)
  intro r g hr
  obtain ⟨rfl, hA'⟩ := hr
  apply Discipline.delivers_bind (Discipline.delivers_attempt_of_secures (hbody g hA'))
  intro r g hr
  -- only after an exception is the connection closed
  cases r with
  | error e => exact delivers_close hfault (hB onFailure) hclose hr
  | ok a => exact Discipline.delivers_pure (hB a) hr

variable (hfaults : ∀ c, D.faults i c = none)

include hhandler hfaults

/-- A guarded method whose body does not throw. -/
theorem delivers_guarded (hA : D.Stable i A) (hB : ∀ a, D.Stable i (B a))
    (hconnect : D.Keeps i A .connect) (hclose : ∀ a, D.Keeps i (B a) (.close (some 0)))
    (hbody : ∀ g, A g → D.Delivers i B body g) (hg : A g) :
    D.Delivers i B (guarded onFailure body) g := by
  apply delivers_guarded_of_secures hhandler (hfaults _) hA hB hconnect
    (Discipline.safe_of_faults (hfaults _)) hclose _ hg
  intro g hg
  apply Discipline.Secures.mono (hbody g hg)
  intro r g hr
  obtain ⟨a, rfl, hBa⟩ := hr
  exact hBa

/-- Such a method whose body does not throw. -/
theorem delivers_unclosed (hA : D.Stable i A) (hB : ∀ a, D.Stable i (B a))
    (hconnect : D.Keeps i A .connect) (hclose : D.Keeps i (B onFailure) (.close (some 0)))
    (hbody : ∀ g, A g → D.Delivers i B body g) (hg : A g) :
    D.Delivers i B (unclosed onFailure body) g := by
  apply delivers_unclosed_of_secures hhandler (hfaults _) hA hB hconnect
    (Discipline.safe_of_faults (hfaults _)) hclose _ hg
  intro g hg
  apply Discipline.Secures.mono (hbody g hg)
  intro r g hr
  obtain ⟨a, rfl, hBa⟩ := hr
  exact hBa

end Connections

/-! ## Readers -/

/-- A reader that takes a text of its field without an exception, and stores what the field
    means for the essentials. -/
structure Proper (id : ℤ) (r : Reader) (s : Option Text) : Prop where
  quiet : Issues (Quiet id) (r.read s)
  returns : Returns (fun store => ∀ item : BidItem,
    (store item).essentials = readEssential r.attr s item.essentials) (r.read s)

section Proper

variable {id : ℤ} {s : Option Text}

/-- A field that can be parsed is read properly. -/
theorem proper_parsed {α : Type} {attr : Attr} {parse : Option Text → Except Exn α}
    {store : α → BidItem → BidItem} {a : α} (hparse : parse s = .ok a)
    (hstore : ∀ item, (store a item).essentials = readEssential attr s item.essentials) :
    Proper id (parsed attr parse store) s := by
  refine ⟨issues_ofExcept _, ?_⟩
  refine ⟨store a, ?_, hstore⟩
  rw [hparse]
  rfl

/-- The category is read properly, and is no essential. -/
theorem proper_categoryReader : Proper id categoryReader s := by
  cases s with
  | none => exact ⟨issues_pure _, returns_pure fun _ => rfl⟩
  | some s =>
    constructor
    · exact issues_bind (quiet_getCategory s) fun _ => issues_pure _
    · apply returns_bind (P := fun _ => True)
      · exact returns_guarded trivial (yields_true _)
      · exact fun _ _ => returns_pure fun _ => rfl

/-- Every field of an item is read properly. -/
theorem proper_bidItemReaders : ∀ r ∈ bidItemReaders, ∀ s, Fits r.attr s → Proper id r s := by
  have hstring : ∀ s, asString s = .ok (s.map Text.render) := fun _ => rfl
  unfold bidItemReaders
  simp only [List.forall_mem_cons, List.not_mem_nil, false_imp_iff, implies_true, and_true]
  refine ⟨?_, ?_, ?_, ?_, ?_, ?_, ?_, ?_, ?_, ?_, ?_, ?_, ?_, ?_, ?_, ?_, ?_, ?_, ?_, ?_,
    fun _ _ => proper_categoryReader, ?_, ?_, ?_, ?_, ?_⟩
  all_goals intro s hfits
  all_goals first
    | exact proper_parsed (hstring s) fun _ => rfl
    | exact proper_parsed (eq_ok_valueOr 0 hfits) fun _ => rfl
    | exact proper_parsed (eq_ok_valueOr none hfits) fun _ => rfl
    | exact proper_parsed rfl fun _ => rfl

end Proper

/-! ## The fetch -/

/-- An assertion for a thread that fetches an item: `texts` were found so far, and the fields in
    `rest` are still to be read. -/
structure Fetches {ι : Type} (D : Discipline Cmd Answer World ι) (i : ι) (id : ℤ)
    (J : (Attr → Option Text) → List Attr → Shared ι Cmd World → Prop) : Prop where
  stable : ∀ texts rest, D.Stable i (J texts rest)
  quiet : ∀ texts rest c, Quiet id c → D.Keeps i (J texts rest) c
  field : ∀ texts attr rest g, J texts (attr :: rest) g →
    D.cond i g (.redis (.hget (.bidItem id) attr)) →
    D.guar i g (g.issue D.handler i (.redis (.hget (.bidItem id) attr))) ∧
      Fits attr (g.state.redis.hashes (.bidItem id) attr) ∧
      J (Function.update texts attr (g.state.redis.hashes (.bidItem id) attr)) rest
        (g.issue D.handler i (.redis (.hget (.bidItem id) attr)))

section Fetch

variable {ι : Type} {D : Discipline Cmd Answer World ι} {i : ι} {id : ℤ}
  {J : (Attr → Option Text) → List Attr → Shared ι Cmd World → Prop} {g : Shared ι Cmd World}
  {texts : Attr → Option Text}

/-- A part of the fetch that reads no field of the item. -/
theorem Fetches.delivers_quiet (h : Fetches D i id J) {α : Type} {P : α → Prop} {rest : List Attr}
    {p : Act α} (hquiet : Issues (Quiet id) p) (hreturns : Returns P p) (hg : J texts rest g) :
    D.Delivers i (fun a g => P a ∧ J texts rest g) p g :=
  Discipline.delivers_of_issues (h.stable texts rest) (fun c hc => h.quiet texts rest c hc) hquiet
    hreturns hg

variable {env : Env} (hhandler : D.handler = handle env) (hfaults : ∀ c, D.faults i c = none)

include hhandler hfaults

/-- Reading one field. -/
theorem Fetches.delivers_field (h : Fetches D i id J) {r : Reader} {rest : List Attr}
    (hr : ∀ s, Fits r.attr s → Proper id r s) (hg : J texts (r.attr :: rest) g) :
    D.Delivers i (fun store g => ∃ s,
      (∀ item : BidItem, (store item).essentials = readEssential r.attr s item.essentials) ∧
      J (Function.update texts r.attr s) rest g) (readField id r) g := by
  apply Discipline.delivers_bind
    (B := fun s g => Fits r.attr s ∧ J (Function.update texts r.attr s) rest g)
  · apply Discipline.delivers_perform (h.stable texts (r.attr :: rest)) _
      (Discipline.safe_of_faults (hfaults _)) _ hg
    · exact fun s => (Discipline.Stable.const _).and (h.stable _ _)
    · intro g hg hcond
      obtain ⟨hguar, hfits, hJ⟩ := h.field texts r.attr rest g hg hcond
      refine ⟨hguar, g.state.redis.hashes (.bidItem id) r.attr, ?_, hfits, hJ⟩
      rw [hhandler]
      rfl
  · -- the text is parsed, which may fetch the category
    intro s g hs
    have hproper := hr s hs.1
    apply (h.delivers_quiet hproper.quiet hproper.returns hs.2).mono
    intro store g hstore
    exact ⟨s, hstore⟩

/-- The texts that are found give the essentials of the item. -/
theorem Fetches.delivers_readers (h : Fetches D i id J) {rs : List Reader}
    (hrs : ∀ r ∈ rs, ∀ s, Fits r.attr s → Proper id r s) (hnodup : (rs.map Reader.attr).Nodup)
    (item : BidItem) (hg : J texts (rs.map Reader.attr) g) :
    D.Delivers i (fun item' g => ∃ found, J found [] g ∧
      (∀ attr ∉ rs.map Reader.attr, found attr = texts attr) ∧ item'.essentials =
        (rs.map Reader.attr).foldl (fun e attr => readEssential attr (found attr) e)
          item.essentials) (fillBidItem id rs item) g := by
  induction rs generalizing item texts g with
  -- after the fields come the bidders
  | nil =>
    apply (h.delivers_quiet (quiet_getBidders _ item) (returns_getBidders _ item) hg).mono
    intro item' g hitem'
    exact ⟨texts, hitem'.2, fun _ _ => rfl, hitem'.1⟩
  | cons r rs ih =>
    rw [List.map_cons, List.nodup_cons] at hnodup
    have hread := h.delivers_field hhandler hfaults (hrs r List.mem_cons_self) hg
    apply Discipline.delivers_bind (Discipline.delivers_attempt hread)
    intro result g hresult
    obtain ⟨store, rfl, s, hstore, hJ⟩ := hresult
    apply (ih (fun r' hr' => hrs r' (List.mem_cons_of_mem r hr')) hnodup.2 (store item) hJ).mono
    intro item' g hitem'
    obtain ⟨found, hJ', hold, hessentials⟩ := hitem'
    -- the field is not read again
    have hfound : found r.attr = s := by
      rw [hold r.attr hnodup.1, Function.update_self]
    refine ⟨found, hJ', fun attr hattr => ?_, ?_⟩
    · rw [List.map_cons, List.mem_cons, not_or] at hattr
      rw [hold attr hattr.2, Function.update_of_ne hattr.1]
    · rw [hessentials, hstore, List.map_cons, List.foldl_cons, hfound]

/-- The item that is filled has the essentials of the texts that were found. -/
theorem Fetches.delivers_fill (h : Fetches D i id J) (hg : J texts readOrder g) :
    D.Delivers i (fun item g => ∃ found, J found [] g ∧ item.essentials = essentialsOf found)
      (fillBidItem id bidItemReaders BidItem.new) g := by
  apply (h.delivers_readers hhandler hfaults proper_bidItemReaders nodup_readOrder
    BidItem.new hg).mono
  intro item g hitem
  obtain ⟨found, hJ, -, hessentials⟩ := hitem
  exact ⟨found, hJ, hessentials.trans (foldl_readEssential found)⟩

end Fetch

end Bidding.Model
