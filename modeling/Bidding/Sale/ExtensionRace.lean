import Bidding.Sale.Snapshots

/-!
# An Extension and a Tick at the Same Time

The observer extends the item on sale while the scheduler looks whether its time is over. Each
of the two reads the times of the item, decides, and then writes; nothing keeps the other one
from writing in between.

## Architecture

- **`Actor`**: the request and the tick.
- **`Acknowledged`**: the request has written a new end time, and the item was not closed before.
- **`Stale`**: the end time was written after the tick had read it.
- **`Heeds`**: the condition on the schedule.
- **`Fair`**: the invariant; the item is on sale, or the tick has begun to hand it over at a time
  at which no acknowledged end time lies ahead.

## Key Results

- **`delivers_request`**: a request keeps the invariant.
-/

namespace Bidding.Model

open Bidding.Effects Bidding.Effects.Action Bidding.KeyValue
open RedisCacheService BidItemsCacheService ObserverController

/-! ## The log -/

/-- The two threads. -/
inductive Actor where
  | request
  | tick
  deriving DecidableEq

/-- The queue is popped. -/
def Pops : Cmd → Prop
  | .redis (.rpop k) => k = .bidItemSequenceIds
  | _ => False

/-- The item is added to the expired items. -/
def Expires (id : ℤ) : Cmd → Prop
  | .redis (.sadd k t) => k = .expiredBidItems ∧ t = .long id
  | _ => False

/-- The end time of the item is set to a second. -/
def SetsEnd (id E : ℤ) : Cmd → Prop
  | .redis (.hset k attr t) => k = .bidItem id ∧ attr = .bidEndTime ∧ t = .date E
  | _ => False

instance Pops.decidable : DecidablePred Pops := by
  intro c
  unfold Pops
  split <;> infer_instance

instance Expires.decidable (id : ℤ) : DecidablePred (Expires id) := by
  intro c
  unfold Expires
  split <;> infer_instance

instance SetsEnd.decidable (id E : ℤ) : DecidablePred (SetsEnd id E)
  | .redis (.hset k attr t) =>
    inferInstanceAs (Decidable (k = .bidItem id ∧ attr = .bidEndTime ∧ t = .date E))
  | .redis .flushAll | .redis (.get _) | .redis (.set _ _) | .redis (.sadd _ _)
  | .redis (.sismember _ _) | .redis (.smembers _) | .redis (.hget _ _) | .redis (.hgetAll _)
  | .redis (.hsetnx _ _ _) | .redis (.lpush _ _) | .redis (.rpop _) | .redis (.zadd _ _ _)
  | .redis (.zcard _) | .redis (.zrangeByScore _ _ _) | .connect | .close _ | .now | .dao _
  | .field _ | .startTimer _ | .stopAuction | .restart | .engineBid _ => isFalse fun h => h

section Log

variable (id : ℤ) (g : Shared Actor Cmd World)

/-- The tick has read the end time. -/
abbrev TickRead : Prop := g.Did (ReadsEnd id) .tick

/-- The tick has begun to hand over. -/
abbrev Popped : Prop := g.Did Pops .tick

/-- The tick has added the item to the expired ones. -/
abbrev Expired : Prop := g.Did (Expires id) .tick

/-- The request has written the end time. -/
abbrev EndWritten : Prop := g.Did (Overwrites id .bidEndTime) .request

/-- The request has written the last update. -/
abbrev UpdateWritten : Prop := g.Did (Overwrites id .lastUpDateTime) .request

/-- The request has written the end time after the tick had read it. -/
def Stale : Prop :=
  g.Had fun before event => event.1 = .request ∧ Overwrites id .bidEndTime event.2 ∧
    Happened (fun _ e => e.1 = .tick ∧ ReadsEnd id e.2) [] before

/-- The request has written the end time `E` before the tick added the item to the expired
    ones. -/
def Acknowledged (E : ℤ) : Prop :=
  g.Had fun before event => event.1 = .request ∧ SetsEnd id E event.2 ∧
    ¬ Happened (fun _ e => e.1 = .tick ∧ Expires id e.2) [] before

/-- The condition on the schedule. The tick reads the end time only when the request is not
    between its two writes, and begins to hand over only if the end time was not written since;
    the request does not write the end time while the item is handed over. -/
def Heeds (id : ℤ) : Actor → Shared Actor Cmd World → Cmd → Prop
  | .tick, g, c => (ReadsEnd id c → ¬ Expired id g → EndWritten id g → UpdateWritten id g) ∧
    (Pops c → ¬ Stale id g)
  | .request, g, c => Overwrites id .bidEndTime c → Popped g → Expired id g

end Log

instance Stale.decidable (id : ℤ) (g : Shared Actor Cmd World) : Decidable (Stale id g) := by
  unfold Stale
  infer_instance

instance Acknowledged.decidable (id : ℤ) (g : Shared Actor Cmd World) (E : ℤ) :
    Decidable (Acknowledged id g E) := by
  unfold Acknowledged
  infer_instance

instance Heeds.decidable (id : ℤ) (i : Actor) (g : Shared Actor Cmd World) (c : Cmd) :
    Decidable (Heeds id i g c) := by
  unfold Heeds
  split <;> infer_instance

section Issue

variable {id E : ℤ} {g : Shared Actor Cmd World} {h : Handler Cmd Answer World} {c : Cmd}

theorem overwrites_of_setsEnd (hc : SetsEnd id E c) : Overwrites id .bidEndTime c := by
  unfold SetsEnd at hc
  split at hc
  · exact ⟨hc.1, hc.2.1⟩
  · exact hc.elim

theorem stale_request :
    Stale id (g.issue h .request c) ↔
      Stale id g ∨ Overwrites id .bidEndTime c ∧ TickRead id g := by
  unfold Stale
  rw [Shared.had_issue]
  exact or_congr_right (and_iff_right rfl)

theorem stale_tick : Stale id (g.issue h .tick c) ↔ Stale id g := by
  unfold Stale
  rw [Shared.had_issue, or_iff_left]
  exact fun hc => Actor.noConfusion hc.1

theorem acknowledged_request :
    Acknowledged id (g.issue h .request c) E ↔
      Acknowledged id g E ∨ SetsEnd id E c ∧ ¬ Expired id g := by
  unfold Acknowledged
  rw [Shared.had_issue]
  exact or_congr_right (and_iff_right rfl)

theorem acknowledged_tick : Acknowledged id (g.issue h .tick c) E ↔ Acknowledged id g E := by
  unfold Acknowledged
  rw [Shared.had_issue, or_iff_left]
  exact fun hc => Actor.noConfusion hc.1

/-- What the other thread has done is not changed by a command. -/
theorem did_request_tick {P : Cmd → Prop} :
    (g.issue h .tick c).Did P .request ↔ g.Did P .request :=
  Shared.did_issue_of_ne (fun h => Actor.noConfusion h)

theorem did_tick_request {P : Cmd → Prop} :
    (g.issue h .request c).Did P .tick ↔ g.Did P .tick :=
  Shared.did_issue_of_ne (fun h => Actor.noConfusion h)

theorem not_pops_of_readOnly (hc : readOnly.Allows c) : ¬ Pops c := by
  intro hp
  unfold Pops at hp
  split at hp
  · exact hc .bidItemSequenceIds hp
  · exact hp

theorem not_expires_of_readOnly (hc : readOnly.Allows c) : ¬ Expires id c := by
  intro he
  unfold Expires at he
  split at he
  · exact hc .expiredBidItems he.1
  · exact he

end Issue

/-! ## The invariant -/

/-- The item is the active one, with the status of an item on sale. -/
structure OnSale (id : ℤ) (r : Redis) : Prop where
  notExpired : .long id ∉ r.sets .expiredBidItems
  active : r.strings .activeBidItemId = some (.long id)
  statusCode : r.hashes (.bidItem id) .statusCode = some (.str "ACTIVE")

/-- The second of the latest clock reading. -/
def Env.latest (env : Env) (w : World) : ℤ := env.second (w.reads - 1)

theorem Env.latest_mono (env : Env) {w w' : World} (h : w.reads ≤ w'.reads) :
    env.latest w ≤ env.latest w' :=
  toSeconds_mono (env.clock_mono (Nat.sub_le_sub_right h 1))

/-- Every acknowledged end time is over. -/
def Free (env : Env) (id : ℤ) (g : Shared Actor Cmd World) : Prop :=
  ∀ E, Acknowledged id g E → E ≤ env.latest g.state

/-- What holds between any two commands. -/
structure Fair (env : Env) (id X : ℤ) (g : Shared Actor Cmd World) : Prop where
  extensible : Extensible g.state.redis id X
  shown : ∀ E, Acknowledged id g E → ¬ Expired id g →
    g.state.redis.hashes (.bidItem id) .bidEndTime = some (.date E) ∧
    (UpdateWritten id g → ∃ U, U + X ≤ E ∧
      g.state.redis.hashes (.bidItem id) .lastUpDateTime = some (.date U))
  honoured : OnSale id g.state.redis ∨ Popped g ∧ Free env id g

/-- What the tick relies on. -/
structure TickRely (env : Env) (id X : ℤ) (g g' : Shared Actor Cmd World) : Prop where
  fair : Fair env id X g → Fair env id X g'
  tickRead : TickRead id g' ↔ TickRead id g
  popped : Popped g' ↔ Popped g
  expired : Expired id g' ↔ Expired id g
  onSale : OnSale id g.state.redis → OnSale id g'.state.redis
  startFlag : g'.state.startFlag = g.state.startFlag
  reads : g.state.reads ≤ g'.state.reads
  stale : Stale id g → Stale id g'
  fresh : Stale id g' → Stale id g ∨ TickRead id g
  frozen : TickRead id g → (EndWritten id g → UpdateWritten id g) → ¬ Stale id g' →
    g'.state.redis.hashes (.bidItem id) = g.state.redis.hashes (.bidItem id) ∧
      (EndWritten id g' → UpdateWritten id g')
  acknowledged : Popped g → ∀ E, Acknowledged id g' E → Acknowledged id g E

/-- What the request relies on. -/
structure RequestRely (env : Env) (id X : ℤ) (g g' : Shared Actor Cmd World) : Prop where
  fair : Fair env id X g → Fair env id X g'
  endWritten : EndWritten id g' ↔ EndWritten id g
  updateWritten : UpdateWritten id g' ↔ UpdateWritten id g
  acknowledged : ∀ E, Acknowledged id g' E → Acknowledged id g E

theorem TickRely.refl (env : Env) (id X : ℤ) (g : Shared Actor Cmd World) :
    TickRely env id X g g :=
  ⟨fun h => h, Iff.rfl, Iff.rfl, Iff.rfl, fun h => h, rfl, le_rfl, fun h => h, .inl,
    fun _ h _ => ⟨rfl, h⟩, fun _ _ h => h⟩

/-- What the tick relies on is transitive. -/
theorem TickRely.trans {env : Env} {id X : ℤ} {g g' g'' : Shared Actor Cmd World}
    (h : TickRely env id X g g') (h' : TickRely env id X g' g'') : TickRely env id X g g'' where
  fair hg := h'.fair (h.fair hg)
  tickRead := h'.tickRead.trans h.tickRead
  popped := h'.popped.trans h.popped
  expired := h'.expired.trans h.expired
  onSale hg := h'.onSale (h.onSale hg)
  startFlag := h'.startFlag.trans h.startFlag
  reads := h.reads.trans h'.reads
  stale hg := h'.stale (h.stale hg)
  fresh hg := by
    cases h'.fresh hg with
    | inl hstale => exact h.fresh hstale
    | inr hread => exact .inr (h.tickRead.mp hread)
  -- nothing between can be stale, since staleness would last until the end
  frozen hread hdone hstale := by
    obtain ⟨hhash, hdone'⟩ := h.frozen hread hdone fun hg => hstale (h'.stale hg)
    obtain ⟨hhash', hdone''⟩ := h'.frozen (h.tickRead.mpr hread) hdone' hstale
    exact ⟨hhash'.trans hhash, hdone''⟩
  acknowledged hpopped E hack :=
    h.acknowledged hpopped E (h'.acknowledged (h.popped.mpr hpopped) E hack)

theorem RequestRely.refl (env : Env) (id X : ℤ) (g : Shared Actor Cmd World) :
    RequestRely env id X g g := ⟨fun h => h, Iff.rfl, Iff.rfl, fun _ h => h⟩

theorem RequestRely.trans {env : Env} {id X : ℤ} {g g' g'' : Shared Actor Cmd World}
    (h : RequestRely env id X g g') (h' : RequestRely env id X g' g'') :
    RequestRely env id X g g'' where
  fair hg := h'.fair (h.fair hg)
  endWritten := h'.endWritten.trans h.endWritten
  updateWritten := h'.updateWritten.trans h.updateWritten
  acknowledged E hack := h.acknowledged E (h'.acknowledged E hack)

/-- The race of a request and a tick. -/
def race (env : Env) (id X : ℤ) : Discipline Cmd Answer World Actor where
  handler := handle env
  faults _ _ := none
  cond := Heeds id
  tol := Always
  rely
    | .request => RequestRely env id X
    | .tick => TickRely env id X
  rely_refl
    | .request => RequestRely.refl env id X
    | .tick => TickRely.refl env id X
  rely_trans {i} := match i with
    | .request => RequestRely.trans
    | .tick => TickRely.trans

theorem handler_race (env : Env) (id X : ℤ) : (race env id X).handler = handle env := rfl

section Race

variable {env : Env} {id X : ℤ} {g : Shared Actor Cmd World} {c : Cmd}

theorem guar_request {g' : Shared Actor Cmd World} (h : TickRely env id X g g') :
    (race env id X).guar .request g g' := by
  intro j hj
  cases j with
  | request => exact absurd rfl hj
  | tick => exact h

/-- No command turns the clock back. -/
theorem reads_le_issue (i : Actor) (c : Cmd) (g : Shared Actor Cmd World) :
    g.state.reads ≤ (g.issue (handle env) i c).state.reads :=
  reads_le_run env g.state (perform c (fun _ => .ok ()))

/-! ## The request -/

/-- The request has written nothing yet. -/
structure Asking (env : Env) (id X : ℤ) (g : Shared Actor Cmd World) : Prop where
  fair : Fair env id X g
  notEnd : ¬ EndWritten id g
  notUpdate : ¬ UpdateWritten id g

/-- The request has written the end time, and not the last update. -/
structure Halfway (env : Env) (id X : ℤ) (d : Date) (g : Shared Actor Cmd World) : Prop where
  fair : Fair env id X g
  hasEnd : EndWritten id g
  notUpdate : ¬ UpdateWritten id g
  acknowledged : ∀ E, Acknowledged id g E → E = secondOf d

theorem stable_asking : (race env id X).Stable .request (Asking env id X) :=
  fun _ _ h hrely => ⟨hrely.fair h.fair, fun he => h.notEnd (hrely.endWritten.mp he),
    fun hu => h.notUpdate (hrely.updateWritten.mp hu)⟩

theorem stable_halfway {d : Date} : (race env id X).Stable .request (Halfway env id X d) :=
  fun _ _ h hrely => ⟨hrely.fair h.fair, hrely.endWritten.mpr h.hasEnd,
    fun hu => h.notUpdate (hrely.updateWritten.mp hu),
    fun E hack => h.acknowledged E (hrely.acknowledged E hack)⟩

theorem stable_fair : (race env id X).Stable .request (Fair env id X) :=
  fun _ _ h hrely => hrely.fair h

/-- Where the request reads. -/
theorem tickRely_of_readOnly (env : Env) (id X : ℤ) (g : Shared Actor Cmd World)
    (hc : readOnly.Allows c) : TickRely env id X g (g.issue (handle env) .request c) := by
  let g' := g.issue (handle env) .request c
  have hredis : g'.state.redis = g.state.redis := hc.redis_eq env g.state
  have hreads : g.state.reads ≤ g'.state.reads := reads_le_issue .request c g
  -- a command that writes nothing adds nothing to what the requests have done
  have hack : ∀ E, Acknowledged id g' E ↔ Acknowledged id g E := by
    intro E
    rw [acknowledged_request, or_iff_left]
    exact fun hs => not_overwrites_of_readOnly hc _ (overwrites_of_setsEnd hs.1)
  have hstale : Stale id g' ↔ Stale id g := by
    rw [stale_request, or_iff_left]
    exact fun hs => not_overwrites_of_readOnly hc _ hs.1
  have hupdate : UpdateWritten id g' ↔ UpdateWritten id g :=
    Shared.did_issue_of_not (not_overwrites_of_readOnly hc _)
  have hend : EndWritten id g' ↔ EndWritten id g :=
    Shared.did_issue_of_not (not_overwrites_of_readOnly hc _)
  obtain ⟨r, n, hworld⟩ := hc.cacheOnly env g.state
  -- the rest is what the tick has done, which a request cannot change
  refine ⟨?_, did_tick_request, did_tick_request, did_tick_request, ?_, ?_, hreads, hstale.mpr,
    fun hs => .inl (hstale.mp hs), ?_, fun _ E hE => (hack E).mp hE⟩
  · intro h
    refine ⟨by rw [hredis]; exact h.extensible, ?_, ?_⟩
    · intro E hE hexpired
      rw [hredis, hupdate]
      exact h.shown E ((hack E).mp hE) fun he => hexpired (did_tick_request.mpr he)
    · rw [hredis]
      refine h.honoured.imp_right fun hfree => ⟨did_tick_request.mpr hfree.1, fun E hE => ?_⟩
      exact (hfree.2 E ((hack E).mp hE)).trans (env.latest_mono hreads)
  · intro h
    rwa [hredis]
  · show (handle env c g.state).2.startFlag = _
    rw [hworld]
  · intro _ hdone _
    rw [hredis, hend, hupdate]
    exact ⟨rfl, hdone⟩

/-- A read of the request, before it has written. -/
theorem keeps_asking (hc : readOnly.Allows c) :
    (race env id X).Keeps .request (Asking env id X) c := by
  intro g h _
  have hrely := tickRely_of_readOnly env id X g hc
  refine ⟨guar_request hrely, hrely.fair h.fair, ?_, ?_⟩
  · exact fun he => h.notEnd ((Shared.did_issue_of_not (not_overwrites_of_readOnly hc _)).mp he)
  · exact fun hu => h.notUpdate ((Shared.did_issue_of_not (not_overwrites_of_readOnly hc _)).mp hu)

/-- A read of the request between its two writes. -/
theorem keeps_halfway {d : Date} (hc : readOnly.Allows c) :
    (race env id X).Keeps .request (Halfway env id X d) c := by
  intro g h _
  have hrely := tickRely_of_readOnly env id X g hc
  refine ⟨guar_request hrely, hrely.fair h.fair, ?_, ?_, ?_⟩
  · exact (Shared.did_issue_of_not (not_overwrites_of_readOnly hc _)).mpr h.hasEnd
  · exact fun hu => h.notUpdate ((Shared.did_issue_of_not (not_overwrites_of_readOnly hc _)).mp hu)
  · intro E hE
    apply h.acknowledged E
    cases acknowledged_request.mp hE with
    | inl hold => exact hold
    | inr hnew =>
      exact absurd (overwrites_of_setsEnd hnew.1) (not_overwrites_of_readOnly hc _)

theorem keeps_fair (hc : readOnly.Allows c) :
    (race env id X).Keeps .request (Fair env id X) c := by
  intro g h _
  have hrely := tickRely_of_readOnly env id X g hc
  exact ⟨guar_request hrely, hrely.fair h⟩

/-- An acknowledged end time was written. -/
theorem endWritten_of_acknowledged {E : ℤ} (h : Acknowledged id g E) : EndWritten id g :=
  Happened.mono (fun _ _ he => ⟨he.1, overwrites_of_setsEnd he.2.1⟩) h

/-- Writing a date leaves the item on sale. -/
theorem OnSale.hset {r : Redis} {attr : Attr} (h : OnSale id r) (hattr : attr ≠ .statusCode)
    (t : Text) : OnSale id (r.hset (.bidItem id) attr t) where
  notExpired := h.notExpired
  active := h.active
  statusCode := by
    rw [Store.hashes_hset, if_neg hattr.symm]
    exact h.statusCode

/-- The end time is written, and not while the item is handed over. -/
theorem write_newEnd (h : Asking env id X g) (hcond : Popped g → Expired id g) (d : Date) :
    (race env id X).guar .request g
        (g.issue (handle env) .request (setsDate id .bidEndTime d)) ∧
      Halfway env id X d (g.issue (handle env) .request (setsDate id .bidEndTime d)) := by
  let c := setsDate id .bidEndTime d
  let g' := g.issue (handle env) .request c
  have hwrites : Overwrites id .bidEndTime c := ⟨rfl, rfl⟩
  have hsets : ∀ E, SetsEnd id E c → E = secondOf d := fun E hE => (Text.date.inj hE.2.2).symm
  -- nothing was acknowledged before
  have hack : ∀ E, Acknowledged id g' E → E = secondOf d ∧ ¬ Expired id g := by
    intro E hE
    cases acknowledged_request.mp hE with
    | inl hold => exact absurd (endWritten_of_acknowledged hold) h.notEnd
    | inr hnew => exact ⟨hsets E hnew.1, hnew.2⟩
  have hupdate : UpdateWritten id g' ↔ UpdateWritten id g :=
    Shared.did_issue_of_not fun hc => Attr.noConfusion hc.2
  have hend : EndWritten id g' := Shared.did_issue.mpr (.inr ⟨rfl, rfl, rfl⟩)
  -- the invariant holds between the two writes, as long as the last update is the old one
  have hfair : Fair env id X g' := by
    refine ⟨h.fair.extensible.hset_date (.inl rfl) d, ?_, ?_⟩
    · intro E hE _
      obtain ⟨rfl, -⟩ := hack E hE
      refine ⟨?_, fun hu => absurd (hupdate.mp hu) h.notUpdate⟩
      exact (Store.hashes_hset ..).trans (if_pos rfl)
    · cases h.fair.honoured with
      | inl hsale => exact .inl (hsale.hset (fun h => Attr.noConfusion h) _)
      | inr hfree =>
        refine .inr ⟨did_tick_request.mpr hfree.1, fun E hE => ?_⟩
        exact absurd (hcond hfree.1) (hack E hE).2
  have hrely : TickRely env id X g g' := by
    refine ⟨fun _ => hfair, did_tick_request, did_tick_request, did_tick_request,
      fun hsale => hsale.hset (fun h => Attr.noConfusion h) _, rfl, reads_le_issue .request c g,
      fun hs => stale_request.mpr (.inl hs), ?_, ?_, ?_⟩
    · exact fun hs => (stale_request.mp hs).imp_right And.right
    · -- a tick that has read the old end makes the write stale, which the lemma excludes
      exact fun hread _ hs => absurd (stale_request.mpr (.inr ⟨hwrites, hread⟩)) hs
    · exact fun hpopped E hE => absurd (hcond hpopped) (hack E hE).2
  exact ⟨guar_request hrely, hfair, hend, fun hu => h.notUpdate (hupdate.mp hu),
    fun E hE => (hack E hE).1⟩

/-- The last update is written. -/
theorem write_newUpdate {d u : Date} (h : Halfway env id X d g)
    (hroom : secondOf u + X ≤ secondOf d) :
    (race env id X).guar .request g
        (g.issue (handle env) .request (setsDate id .lastUpDateTime u)) ∧
      Fair env id X (g.issue (handle env) .request (setsDate id .lastUpDateTime u)) := by
  let c := setsDate id .lastUpDateTime u
  let g' := g.issue (handle env) .request c
  have hnot : ¬ Overwrites id .bidEndTime c := fun hc => Attr.noConfusion hc.2
  have hack : ∀ E, Acknowledged id g' E ↔ Acknowledged id g E := by
    intro E
    rw [acknowledged_request, or_iff_left]
    exact fun hs => hnot (overwrites_of_setsEnd hs.1)
  have hstale : Stale id g' ↔ Stale id g := by
    rw [stale_request, or_iff_left]
    exact fun hs => hnot hs.1
  have hreads : g.state.reads ≤ g'.state.reads := reads_le_issue .request c g
  -- with the last update in place the room for an extension is there
  have hfair : Fair env id X g' := by
    refine ⟨h.fair.extensible.hset_date (.inr rfl) u, ?_, ?_⟩
    · intro E hE hexpired
      obtain ⟨hend, -⟩ := h.fair.shown E ((hack E).mp hE)
        fun he => hexpired (did_tick_request.mpr he)
      obtain rfl := h.acknowledged E ((hack E).mp hE)
      refine ⟨?_, fun _ => ⟨secondOf u, hroom, ?_⟩⟩
      · exact (Store.hashes_hset ..).trans hend
      · exact (Store.hashes_hset ..).trans (if_pos rfl)
    · cases h.fair.honoured with
      | inl hsale => exact .inl (hsale.hset (fun h => Attr.noConfusion h) _)
      | inr hfree =>
        refine .inr ⟨did_tick_request.mpr hfree.1, fun E hE => ?_⟩
        exact (hfree.2 E ((hack E).mp hE)).trans (env.latest_mono hreads)
  refine ⟨guar_request ⟨fun _ => hfair, did_tick_request, did_tick_request, did_tick_request,
    fun hsale => hsale.hset (fun h => Attr.noConfusion h) _, rfl, hreads, hstale.mpr,
    fun hs => .inl (hstale.mp hs), ?_, fun _ E hE => (hack E).mp hE⟩, hfair⟩
  -- the request is between its two writes
  exact fun _ hdone => absurd (hdone h.hasEnd) h.notUpdate

/-- The request reads the item; it does not rely on what it has read. -/
theorem watches_request : Watches (race env id X) .request id X (Asking env id X)
    (Asking env id X) (fun _ => True) where
  extensible _ h := h.elim (fun h => h.fair.extensible) (fun h => h.fair.extensible)
  before := stable_asking
  after := stable_asking
  unseen _ _ _ _ hstale := absurd trivial hstale
  silent_before _ hc := keeps_asking hc.reads
  silent_after _ hc := keeps_asking hc.reads
  stale _ _ h := h
  read g h hcond := keeps_asking (c := readEnd id) (fun _ hw => hw) g h hcond

/-- A request keeps the invariant. -/
theorem delivers_request (hX : FitsInt X) (extendTime : ℤ) (hg : Asking env id X g) :
    (race env id X).Delivers .request (fun _ => Fair env id X)
      (doExtendBidding id extendTime) g := by
  have hfaults : ∀ c, (race env id X).faults .request c = none := fun _ => rfl
  apply Discipline.delivers_bind (watches_request.delivers_getBidItem rfl hfaults hg)
  intro found g hfound
  obtain ⟨item, E, U, rfl, hasking, htimes, -⟩ := hfound
  apply Discipline.delivers_bind (B := fun _ => Asking env id X)
  · exact delivers_now rfl rfl stable_asking (fun _ => stable_asking)
      (keeps_asking (silent_now id).reads) hasking
  intro cal g hasking
  apply Discipline.delivers_bind (B := fun _ => Asking env id X)
  · exact delivers_getTimeLeft rfl rfl htimes stable_asking (fun _ => stable_asking)
      (keeps_asking (silent_now id).reads) hasking
  intro timeLeft g hasking
  simp only [htimes.timeExtAfterBid]
  -- the first write starts the window in which the tick must not hand over
  let bidEndTime := addSeconds cal (toInt32 (toInt32 timeLeft + extendTime))
  apply Discipline.delivers_bind (B := fun _ => Halfway env id X bidEndTime)
  · apply delivers_setDate rfl hfaults stable_asking stable_halfway
      (fun g hg => hg.fair.extensible.cached.member) (fun c hc => keeps_asking hc.reads)
      (keeps_halfway (silent_close id (some 0)).reads) _ hasking
    intro g hg hcond
    exact write_newEnd hg (hcond ⟨rfl, rfl⟩) bidEndTime
  intro _ g hhalfway
  apply Discipline.delivers_bind (B := fun _ => Fair env id X)
  · -- the second write ends it
    apply delivers_setDate rfl hfaults stable_halfway stable_fair
      (fun g hg => hg.fair.extensible.cached.member) (fun c hc => keeps_halfway hc.reads)
      (keeps_fair (silent_close id (some 0)).reads) _ hhalfway
    intro g hg _
    exact write_newUpdate hg (room_of_fits hX bidEndTime)
  · exact fun _ g hg => Discipline.delivers_pure stable_fair hg

end Race

end Bidding.Model
