import Bidding.Sale.ExtensionRace

/-!
# The Tick in the Race with an Extension

The tick looks at the sequence, fetches the item on sale, computes its time left and, if there
is none, pops the queue and closes the item. It may do so only if the end time that it has found
is still the one of the cache.

## Architecture

The phases of a tick, each with the commands that keep it and those that lead to the next one:
**`Looking`** until the end time is read, **`Deciding`** and **`Decided`** until the time left is
known, **`Due`** if there is none, **`Handing`** from the pop of the queue on, and **`Closing`**
once the item is among the expired ones.

## Key Results

- **`Due.free`**: a tick that has found the time of the item over has passed every acknowledged
  end time, unless the end time was written since.
- **`secures_tick`**: a tick that heeds the request keeps the invariant.
-/

namespace Bidding.Model

open Bidding.Effects Bidding.Effects.Action Bidding.KeyValue
open RedisCacheService BidItemsCacheService

section Race

variable {env : Env} {id X : ℤ} {g : Shared Actor Cmd World} {c : Cmd}

/-! ## Commands of the tick -/

theorem guar_tick (h : Fair env id X g → Fair env id X (g.issue (handle env) .tick c)) :
    (race env id X).guar .tick g (g.issue (handle env) .tick c) := by
  intro j hj
  cases j with
  | request => exact ⟨h, did_request_tick, did_request_tick, fun _ => acknowledged_tick.mp⟩
  | tick => exact absurd rfl hj

/-- What the tick has done stays done. -/
theorem did_mono {P : Cmd → Prop} {i : Actor} (h : g.Did P i) :
    (g.issue (handle env) i c).Did P i := Shared.did_issue.mpr (.inl h)

theorem Free.issue (h : Free env id g) : Free env id (g.issue (handle env) .tick c) :=
  fun E hE => (h E (acknowledged_tick.mp hE)).trans (env.latest_mono (reads_le_issue .tick c g))

/-- A command of the tick keeps the invariant if it keeps the item, does not touch its dates
    before the item is expired, and leaves it on sale or is part of a hand-over. -/
theorem Fair.issue (h : Fair env id X g) (hitem : KeepsItem env id X c)
    (hhash : ¬ Expired id (g.issue (handle env) .tick c) →
      (g.issue (handle env) .tick c).state.redis.hashes (.bidItem id) =
        g.state.redis.hashes (.bidItem id))
    (hhonoured : OnSale id (g.issue (handle env) .tick c).state.redis ∨
      Popped (g.issue (handle env) .tick c) ∧ Free env id g) :
    Fair env id X (g.issue (handle env) .tick c) where
  extensible := hitem g.state h.extensible
  shown E hE hexpired := by
    have hupdate : UpdateWritten id (g.issue (handle env) .tick c) ↔ UpdateWritten id g :=
      did_request_tick
    rw [hhash hexpired, hupdate]
    exact h.shown E (acknowledged_tick.mp hE) fun he => hexpired (did_mono he)
  honoured := hhonoured.imp_right fun hfree => ⟨hfree.1, hfree.2.issue⟩

/-- A read of the tick keeps the invariant. -/
theorem Fair.issue_readOnly (h : Fair env id X g) (hc : readOnly.Allows c) :
    Fair env id X (g.issue (handle env) .tick c) := by
  have hredis : (g.issue (handle env) .tick c).state.redis = g.state.redis :=
    hc.redis_eq env g.state
  apply h.issue (keepsItem_of_allows (fun h => h) (fun h => h) hc)
  · intro _
    rw [hredis]
  · rw [hredis]
    exact h.honoured.imp_right fun hfree => ⟨did_mono hfree.1, hfree.2⟩

/-! ## Phases -/

/-- The tick has not read the end time yet. -/
structure Looking (env : Env) (id X : ℤ) (g : Shared Actor Cmd World) : Prop where
  fair : Fair env id X g
  onSale : OnSale id g.state.redis
  startFlag : g.state.startFlag = false
  notPopped : ¬ Popped g
  notExpired : ¬ Expired id g
  notRead : ¬ TickRead id g
  notStale : ¬ Stale id g

/-- The tick has read the end time. -/
structure Deciding (env : Env) (id X : ℤ) (g : Shared Actor Cmd World) : Prop where
  fair : Fair env id X g
  onSale : OnSale id g.state.redis
  notPopped : ¬ Popped g
  notExpired : ¬ Expired id g
  hasRead : TickRead id g
  done : ¬ Stale id g → EndWritten id g → UpdateWritten id g

/-- The tick has fetched the times `E` and `U`. -/
structure Decided (env : Env) (id X E U : ℤ) (g : Shared Actor Cmd World) : Prop where
  deciding : Deciding env id X g
  times : ¬ Stale id g → CachedTimes g.state.redis id E U X

/-- The tick hands the item over. -/
structure Handing (env : Env) (id X : ℤ) (g : Shared Actor Cmd World) : Prop where
  fair : Fair env id X g
  popped : Popped g
  free : Free env id g

/-- The tick has added the item to the expired ones. -/
structure Closing (env : Env) (id X : ℤ) (g : Shared Actor Cmd World) : Prop where
  handing : Handing env id X g
  expired : Expired id g

theorem stable_looking : (race env id X).Stable .tick (Looking env id X) :=
  fun _ _ h hrely => ⟨hrely.fair h.fair, hrely.onSale h.onSale, hrely.startFlag.trans h.startFlag,
    fun hp => h.notPopped (hrely.popped.mp hp), fun he => h.notExpired (hrely.expired.mp he),
    fun hr => h.notRead (hrely.tickRead.mp hr),
    fun hs => (hrely.fresh hs).elim h.notStale h.notRead⟩

theorem stable_deciding : (race env id X).Stable .tick (Deciding env id X) := by
  intro g g' h hrely
  refine ⟨hrely.fair h.fair, hrely.onSale h.onSale, fun hp => h.notPopped (hrely.popped.mp hp),
    fun he => h.notExpired (hrely.expired.mp he), hrely.tickRead.mpr h.hasRead, fun hstale => ?_⟩
  -- a fresh state is one in which no request has written since
  exact (hrely.frozen h.hasRead (h.done fun hs => hstale (hrely.stale hs)) hstale).2

/-- Without a stale state the fields have not changed since the tick read the end time. -/
theorem Deciding.unseen {g' : Shared Actor Cmd World} (h : Deciding env id X g)
    (hrely : TickRely env id X g g') (hstale : ¬ Stale id g') :
    ¬ Stale id g ∧
      g'.state.redis.hashes (.bidItem id) = g.state.redis.hashes (.bidItem id) := by
  have hstale' : ¬ Stale id g := fun hs => hstale (hrely.stale hs)
  exact ⟨hstale', (hrely.frozen h.hasRead (h.done hstale') hstale).1⟩

theorem stable_decided {E U : ℤ} : (race env id X).Stable .tick (Decided env id X E U) := by
  intro g g' h hrely
  refine ⟨stable_deciding g g' h.deciding hrely, fun hstale => ?_⟩
  obtain ⟨hstale', hhash⟩ := h.deciding.unseen hrely hstale
  exact (h.times hstale').of_hash hhash

theorem stable_handing : (race env id X).Stable .tick (Handing env id X) :=
  fun _ _ h hrely => ⟨hrely.fair h.fair, hrely.popped.mpr h.popped, fun E hE =>
    (h.free E (hrely.acknowledged h.popped E hE)).trans (env.latest_mono hrely.reads)⟩

theorem stable_closing : (race env id X).Stable .tick (Closing env id X) :=
  fun g g' h hrely => ⟨stable_handing g g' h.handing hrely, hrely.expired.mpr h.expired⟩

section Silent

variable (hc : Silent id c)

include hc

/-- A silent command before the end is read. -/
theorem keeps_looking : (race env id X).Keeps .tick (Looking env id X) c := by
  intro g h _
  have hredis : (g.issue (handle env) .tick c).state.redis = g.state.redis :=
    hc.reads.redis_eq env g.state
  obtain ⟨r, n, hworld⟩ := hc.reads.cacheOnly env g.state
  refine ⟨guar_tick fun hfair => hfair.issue_readOnly hc.reads, h.fair.issue_readOnly hc.reads,
    ?_, ?_, ?_, ?_, ?_, ?_⟩
  · exact hredis ▸ h.onSale
  · show (handle env c g.state).2.startFlag = false
    rw [hworld]
    exact h.startFlag
  · exact fun hp => h.notPopped
      ((Shared.did_issue_of_not (not_pops_of_readOnly hc.reads)).mp hp)
  · exact fun he => h.notExpired
      ((Shared.did_issue_of_not (not_expires_of_readOnly hc.reads)).mp he)
  · exact fun hr => h.notRead ((Shared.did_issue_of_not hc.notEnd).mp hr)
  · exact fun hs => h.notStale (stale_tick.mp hs)

omit hc in
/-- Reading leaves the decision open. -/
theorem Deciding.issue_readOnly (h : Deciding env id X g) (hc : readOnly.Allows c) :
    Deciding env id X (g.issue (handle env) .tick c) := by
  have hredis : (g.issue (handle env) .tick c).state.redis = g.state.redis :=
    hc.redis_eq env g.state
  refine ⟨h.fair.issue_readOnly hc, ?_, ?_, ?_, did_mono h.hasRead, ?_⟩
  · rw [hredis]
    exact h.onSale
  · exact fun hp => h.notPopped ((Shared.did_issue_of_not (not_pops_of_readOnly hc)).mp hp)
  · exact fun he => h.notExpired ((Shared.did_issue_of_not (not_expires_of_readOnly hc)).mp he)
  · intro hstale hend
    exact did_request_tick.mpr
      (h.done (fun hs => hstale (stale_tick.mpr hs)) (did_request_tick.mp hend))

theorem keeps_deciding : (race env id X).Keeps .tick (Deciding env id X) c :=
  fun _ h _ => ⟨guar_tick fun hfair => hfair.issue_readOnly hc.reads, h.issue_readOnly hc.reads⟩

theorem keeps_decided {E U : ℤ} : (race env id X).Keeps .tick (Decided env id X E U) c := by
  intro g h _
  refine ⟨guar_tick fun hfair => hfair.issue_readOnly hc.reads,
    h.deciding.issue_readOnly hc.reads, fun hstale => ?_⟩
  apply (h.times fun hs => hstale (stale_tick.mpr hs)).of_hash
  exact congrFun (congrArg Store.hashes (hc.reads.redis_eq env g.state)) _

theorem keeps_handing : (race env id X).Keeps .tick (Handing env id X) c :=
  fun _ h _ => ⟨guar_tick fun hfair => hfair.issue_readOnly hc.reads,
    h.fair.issue_readOnly hc.reads, did_mono h.popped, h.free.issue⟩

end Silent

/-- Once the item is expired, the tick has only to keep it in the cache. -/
theorem keeps_closing (hc : KeepsItem env id X c) :
    (race env id X).Keeps .tick (Closing env id X) c := by
  intro g h _
  have hexpired : Expired id (g.issue (handle env) .tick c) := did_mono h.expired
  have hfair : Fair env id X g → Fair env id X (g.issue (handle env) .tick c) := fun hfair =>
    hfair.issue hc (fun he => absurd hexpired he) (.inr ⟨did_mono h.handing.popped, h.handing.free⟩)
  exact ⟨guar_tick hfair, ⟨hfair h.handing.fair, did_mono h.handing.popped, h.handing.free.issue⟩,
    hexpired⟩

/-- The tick reads the item, and what it has found holds unless the state is stale. -/
theorem watches_tick : Watches (race env id X) .tick id X (Looking env id X)
    (Deciding env id X) (Stale id) where
  extensible _ h := h.elim (fun h => h.fair.extensible) (fun h => h.fair.extensible)
  before := stable_looking
  after := stable_deciding
  unseen _ _ h hrely hstale := h.unseen hrely hstale
  silent_before _ hc := keeps_looking hc
  silent_after _ hc := keeps_deciding hc
  stale _ _ h := stale_tick.mpr h
  read g h hcond := by
    have hc : readOnly.Allows (readEnd id) := fun _ hw => hw
    refine ⟨guar_tick fun hfair => hfair.issue_readOnly hc, h.fair.issue_readOnly hc, h.onSale,
      ?_, ?_, ?_, ?_⟩
    · exact fun hp => h.notPopped ((Shared.did_issue_of_not (not_pops_of_readOnly hc)).mp hp)
    · exact fun he => h.notExpired
        ((Shared.did_issue_of_not (not_expires_of_readOnly hc)).mp he)
    · exact Shared.did_issue.mpr (.inr ⟨rfl, rfl, rfl⟩)
    · -- the tick reads the end only when a request that has begun to write is done
      intro _ hend
      exact did_request_tick.mpr
        (hcond.1 ⟨rfl, rfl⟩ h.notExpired (did_request_tick.mp hend))

/-! ## The hand-over -/

/-- The tick has found that the time of the item is over, at the second `t`. -/
structure Due (env : Env) (id X E U t : ℤ) (g : Shared Actor Cmd World) : Prop where
  decided : Decided env id X E U g
  timeUp : countdown E U X t ≤ 0
  past : t ≤ env.latest g.state

theorem stable_due {E U t : ℤ} : (race env id X).Stable .tick (Due env id X E U t) :=
  fun g g' h hrely => ⟨stable_decided g g' h.decided hrely, h.timeUp,
    h.past.trans (env.latest_mono hrely.reads)⟩

theorem keeps_due {E U t : ℤ} (hc : Silent id c) :
    (race env id X).Keeps .tick (Due env id X E U t) c := by
  intro g h hcond
  obtain ⟨hguar, hdecided⟩ := keeps_decided hc g h.decided hcond
  exact ⟨hguar, hdecided, h.timeUp, h.past.trans (env.latest_mono (reads_le_issue .tick c g))⟩

/-- Unless the state is stale, every acknowledged end time is the one that was found, and it is
    over. -/
theorem Due.free {E U t : ℤ} (h : Due env id X E U t g) (hstale : ¬ Stale id g) :
    Free env id g := by
  intro E' hE'
  have htimes := h.decided.times hstale
  have hdone := h.decided.deciding.done hstale (endWritten_of_acknowledged hE')
  obtain ⟨hend, hupdate⟩ := h.decided.deciding.fair.shown E' hE' h.decided.deciding.notExpired
  obtain ⟨U', hroom, hU'⟩ := hupdate hdone
  obtain rfl : E = E' := by simpa [htimes.bidEndTime] using hend
  obtain rfl : U = U' := by simpa [htimes.lastUpDateTime] using hU'
  -- with room for the extension the time left is what remains until the end time
  have hup := h.timeUp
  unfold countdown at hup
  rw [if_neg (by omega)] at hup
  have hover : E ≤ t := by
    split at hup <;> omega
  exact hover.trans h.past

/-- The queue is popped. -/
theorem pop_due {E U t : ℤ} (h : Due env id X E U t g) (hstale : ¬ Stale id g) :
    (race env id X).guar .tick g
        (g.issue (handle env) .tick (.redis (.rpop .bidItemSequenceIds))) ∧
      Handing env id X (g.issue (handle env) .tick (.redis (.rpop .bidItemSequenceIds))) := by
  -- this is the one place where the freshness of the tick is used
  have hfree := h.free hstale
  have hpopped : Popped (g.issue (handle env) .tick (.redis (.rpop .bidItemSequenceIds))) :=
    Shared.did_issue.mpr (.inr ⟨rfl, rfl⟩)
  have hfair : Fair env id X g →
      Fair env id X (g.issue (handle env) .tick (.redis (.rpop .bidItemSequenceIds))) :=
    fun hfair => hfair.issue (keepsItem_beside (by simp [besideItem, Footprint.Allows,
      Command.Writes])) (fun _ => rfl) (.inr ⟨hpopped, hfree⟩)
  exact ⟨guar_tick hfair, hfair h.decided.deciding.fair, hpopped, hfree.issue⟩

/-- The next item is made the active one. -/
theorem keeps_setActive (t : Text) :
    (race env id X).Keeps .tick (Handing env id X) (.redis (.set .activeBidItemId t)) := by
  intro g h _
  have hfair : Fair env id X g →
      Fair env id X (g.issue (handle env) .tick (.redis (.set .activeBidItemId t))) :=
    fun hfair => hfair.issue (keepsItem_beside (by simp [besideItem, Footprint.Allows,
      Command.Writes])) (fun _ => rfl) (.inr ⟨did_mono h.popped, h.free⟩)
  exact ⟨guar_tick hfair, hfair h.fair, did_mono h.popped, h.free.issue⟩

/-- The item is added to the expired ones. -/
theorem expire_handing (h : Handing env id X g) :
    (race env id X).guar .tick g
        (g.issue (handle env) .tick (.redis (.sadd .expiredBidItems (.long id)))) ∧
      Closing env id X
        (g.issue (handle env) .tick (.redis (.sadd .expiredBidItems (.long id)))) := by
  have hexpired : Expired id
      (g.issue (handle env) .tick (.redis (.sadd .expiredBidItems (.long id)))) :=
    Shared.did_issue.mpr (.inr ⟨rfl, rfl, rfl⟩)
  -- with the mark the invariant says nothing about the dates any more
  have hfair : Fair env id X g → Fair env id X
      (g.issue (handle env) .tick (.redis (.sadd .expiredBidItems (.long id)))) :=
    fun hfair => hfair.issue (keepsItem_sadd (by simp) _) (fun he => absurd hexpired he)
      (.inr ⟨did_mono h.popped, h.free⟩)
  exact ⟨guar_tick hfair, ⟨hfair h.fair, did_mono h.popped, h.free.issue⟩, hexpired⟩

section Programs

variable {E U t : ℤ}

/-- The next item becomes active; this is where the tick must not be stale. -/
theorem delivers_setActive (hg : Due env id X E U t g) :
    (race env id X).Delivers .tick (fun _ => Handing env id X) setActiveBidItemId g := by
  have hfaults : ∀ c, (race env id X).faults .tick c = none := fun _ => rfl
  apply delivers_guarded (handler_race env id X) hfaults stable_due (fun _ => stable_handing)
    (keeps_due (silent_connect id)) (fun _ => keeps_handing (silent_close id (some 0))) _ hg
  intro g hg
  apply Discipline.delivers_bind (B := fun _ => Handing env id X)
  · apply Discipline.delivers_perform stable_due (fun _ => stable_handing)
      (Discipline.safe_of_faults (hfaults _)) _ hg
    intro g hg hcond
    -- the condition on a pop says that the state is not stale
    obtain ⟨hguar, hhanding⟩ := pop_due hg (hcond.2 rfl)
    exact ⟨hguar, _, rfl, hhanding⟩
  · intro next g hhanding
    apply Discipline.delivers_perform stable_handing (fun _ => stable_handing)
      (Discipline.safe_of_faults (hfaults _)) _ hhanding
    intro g hg hcond
    obtain ⟨hguar, hhanding⟩ := keeps_setActive _ g hg hcond
    exact ⟨hguar, (), rfl, hhanding⟩

/-- One command that keeps the item, after it was expired. -/
theorem delivers_closing {α : Type} {c : Cmd} {answer : Answer c → Except Exn α}
    (hc : KeepsItem env id X c) (hanswer : ∀ w, ∃ a, answer (handle env c w).1 = .ok a)
    (hg : Closing env id X g) :
    (race env id X).Delivers .tick (fun _ => Closing env id X) (perform c answer) g := by
  apply Discipline.delivers_perform stable_closing (fun _ => stable_closing)
    (Discipline.safe_of_faults rfl) _ hg
  intro g hg hcond
  obtain ⟨hguar, hclosing⟩ := keeps_closing hc g hg hcond
  obtain ⟨a, ha⟩ := hanswer g.state
  exact ⟨hguar, a, ha, hclosing⟩

/-- The item is marked as expired. -/
theorem delivers_setExpired (hg : Handing env id X g) :
    (race env id X).Delivers .tick (fun _ => Closing env id X) (setExpiredBidItem id) g := by
  have hfaults : ∀ c, (race env id X).faults .tick c = none := fun _ => rfl
  apply delivers_guarded (handler_race env id X) hfaults stable_handing (fun _ => stable_closing)
    (keeps_handing (silent_connect id)) (fun _ => keeps_closing (keepsItem_beside trivial)) _ hg
  intro g hg
  apply Discipline.delivers_bind (B := fun _ => Closing env id X)
  · apply Discipline.delivers_perform stable_handing (fun _ => stable_closing)
      (Discipline.safe_of_faults (hfaults _)) _ hg
    intro g hg _
    obtain ⟨hguar, hclosing⟩ := expire_handing hg
    exact ⟨hguar, (), rfl, hclosing⟩
  intro _ g hg
  apply Discipline.delivers_bind (delivers_closing (keepsItem_status _) (fun _ => ⟨(), rfl⟩) hg)
  intro _ g hg
  apply Discipline.delivers_bind
    (delivers_closing (c := .now) (keepsItem_beside trivial) (fun w => ⟨env.clock w.reads, rfl⟩)
      hg)
  intro d g hg
  exact delivers_closing (fun w h => h.hset_date (.inl rfl) d) (fun _ => ⟨(), rfl⟩) hg

/-- The whole hand-over. -/
theorem secures_handOver (hg : Due env id X E U t g) :
    (race env id X).Secures .tick (fun _ => Closing env id X) (handOver id) g := by
  -- after the mark every command that keeps the item will do
  have hclosing : ∀ {α : Type} {p : Act α} {g : Shared Actor Cmd World},
      Issues (KeepsItem env id X) p → Closing env id X g →
      (race env id X).Secures .tick (fun _ => Closing env id X) p g :=
    fun hp hg => Discipline.secures_of_issues stable_closing (fun c hc => keeps_closing hc) hp hg
  apply (delivers_setActive hg).bind
  intro _ g hg
  apply Discipline.secures_bind stable_closing
  · apply (delivers_setExpired hg).bind
    intro _ g hg
    apply hclosing _ hg
    exact issues_bind (issues_beside (within_getBidItem id)) fun _ =>
      issues_beside (within_daoUpdateBidItem trivial)
  · intro _ g hg
    apply hclosing _ hg
    apply issues_bind (issues_beside within_getActiveBidItemId)
    intro next
    apply issues_bind (keepsItem_getBidItem next)
    intro found
    cases found <;> exact issues_pure _

end Programs

/-! ## The whole tick -/

/-- Looking at a field of the service or a string of the cache. -/
theorem delivers_looking {α : Type} {c : Cmd} {answer : Answer c → Except Exn α} {a : α}
    (hc : Silent id c) (hanswer : ∀ g, Looking env id X g →
      answer (handle env c g.state).1 = .ok a) (hg : Looking env id X g) :
    (race env id X).Delivers .tick (fun b g => b = a ∧ Looking env id X g) (perform c answer)
      g := by
  apply Discipline.delivers_perform stable_looking
    (fun _ => (Discipline.Stable.const _).and stable_looking)
    (Discipline.safe_of_faults rfl) _ hg
  intro g hg hcond
  obtain ⟨hguar, hlooking⟩ := keeps_looking hc g hg hcond
  exact ⟨hguar, a, hanswer g hg, rfl, hlooking⟩

theorem delivers_getActive (hg : Looking env id X g) :
    (race env id X).Delivers .tick (fun a g => a = some (.long id) ∧ Looking env id X g)
      (get .activeBidItemId) g :=
  delivers_looking (silent_get id _) (fun _ h => congrArg Except.ok h.onSale.active) hg

/-- The item on sale is not the end. -/
theorem delivers_isEndSequence (hid : id ≠ 0) (hg : Looking env id X g) :
    (race env id X).Delivers .tick (fun r g => r = .isFalse ∧ Looking env id X g)
      isEndSequence g := by
  have hfaults : ∀ c, (race env id X).faults .tick c = none := fun _ => rfl
  apply Discipline.delivers_bind (delivers_connect (handler_race env id X) stable_looking
    (keeps_looking (silent_connect id)) (Discipline.safe_of_faults rfl) hg)
  intro r g hr
  obtain ⟨rfl, hg⟩ := hr
  apply Discipline.delivers_bind (Discipline.delivers_attempt (delivers_getActive hg))
  intro r g hr
  obtain ⟨_, rfl, rfl, hg⟩ := hr
  -- the id `0` would be the end
  have hne : Text.long id ≠ .long 0 := fun h => hid (Text.long.inj h)
  simp only [if_neg hne]
  apply delivers_close rfl ((Discipline.Stable.const _).and stable_looking) _ ⟨rfl, hg⟩
  intro g hg hcond
  obtain ⟨hguar, hlooking⟩ := keeps_looking (silent_close id (some 0)) g hg.2 hcond
  exact ⟨hguar, rfl, hlooking⟩

/-- The active item is the one on sale. -/
theorem delivers_getActiveBidItemId (hg : Looking env id X g) :
    (race env id X).Delivers .tick (fun a g => a = id ∧ Looking env id X g)
      getActiveBidItemId g := by
  have hstable : ∀ a, (race env id X).Stable .tick (fun g => a = id ∧ Looking env id X g) :=
    fun _ => (Discipline.Stable.const _).and stable_looking
  apply delivers_guarded (handler_race env id X) (fun _ => rfl) stable_looking hstable
    (keeps_looking (silent_connect id)) _ _ hg
  · intro a g hg hcond
    obtain ⟨hguar, hlooking⟩ := keeps_looking (silent_close id (some 0)) g hg.2 hcond
    exact ⟨hguar, hg.1, hlooking⟩
  · intro g hg
    apply Discipline.delivers_bind (delivers_getActive hg)
    intro a g ha
    obtain ⟨rfl, hg⟩ := ha
    exact Discipline.delivers_pure (hstable id) ⟨rfl, hg⟩

/-- A tick that heeds the request keeps the invariant. -/
theorem secures_tick (hid : id ≠ 0) (hg : Looking env id X g) :
    (race env id X).Secures .tick (fun _ => Fair env id X) setNextBidItem g := by
  have hfaults : ∀ c, (race env id X).faults .tick c = none := fun _ => rfl
  -- until the end time is read the tick only looks at the sale
  apply (delivers_isEndSequence hid hg).bind
  intro r g hr
  obtain ⟨rfl, hg⟩ := hr
  rw [if_neg (fun h => EndSequence.noConfusion h)]
  -- the item is already on sale, so this is not the first tick
  have hflag : (race env id X).Delivers .tick (fun b g => b = false ∧ Looking env id X g)
      Field.getStartFlag g := by
    apply delivers_looking (c := .field .getStartFlag) ⟨trivial, fun h => h⟩ _ hg
    exact fun g hg => congrArg Except.ok hg.startFlag
  apply hflag.bind
  intro b g hb
  obtain ⟨rfl, hg⟩ := hb
  apply (delivers_getActiveBidItemId hg).bind
  intro active g hactive
  obtain ⟨rfl, hg⟩ := hactive
  apply (watches_tick.delivers_getBidItem rfl hfaults hg).bind
  intro found g hfound
  obtain ⟨item, E, U, rfl, hdeciding, htimes, hcached⟩ := hfound
  have hdecided : Decided env active X E U g := ⟨hdeciding, hcached⟩
  -- the decision rests on the times that were fetched and on this reading of the clock
  have hleft : (race env active X).Delivers .tick (fun timeLeft g => ∃ t,
      timeLeft = countdown E U X t ∧ Decided env active X E U g ∧ t ≤ env.latest g.state)
      (getTimeLeft item) g := by
    apply delivers_getTimeLeft (handler_race env active X) rfl htimes stable_decided _ _ hdecided
    · intro timeLeft g g' h hrely
      obtain ⟨t, rfl, hdecided, hpast⟩ := h
      exact ⟨t, rfl, stable_decided g g' hdecided hrely,
        hpast.trans (env.latest_mono hrely.reads)⟩
    · intro g hg hcond
      obtain ⟨hguar, hdecided⟩ := keeps_decided (silent_now active) g hg hcond
      exact ⟨hguar, _, rfl, hdecided, le_rfl⟩
  apply hleft.bind
  intro timeLeft g ht
  obtain ⟨t, rfl, hdecided, hpast⟩ := ht
  have hstay : ∀ g, Deciding env active X g → (race env active X).Delivers .tick
      (fun _ => Deciding env active X) (getTimeLeft item) g := fun g hg =>
    delivers_getTimeLeft (handler_race env active X) rfl htimes stable_deciding
      (fun _ => stable_deciding) (keeps_deciding (silent_now active)) hg
  split
  · -- time is left, and the tick writes nothing
    apply Discipline.Secures.mono
      (Discipline.delivers_bind (hstay g hdecided.deciding) fun _ => hstay)
    intro r g hr
    obtain ⟨_, -, hdeciding⟩ := hr
    exact hdeciding.fair
  · -- the time is up by the times that were read
    next hover =>
    apply Discipline.Secures.mono (secures_handOver ⟨hdecided, not_lt.mp hover, hpast⟩)
    exact fun _ _ h => h.handing.fair

end Race

end Bidding.Model
