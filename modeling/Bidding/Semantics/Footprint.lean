import Bidding.Semantics.Calls

/-!
# Footprints

Which keys of the cache, which calls of the data-access object and which fields a method
can touch at all. A footprint is read off the text of a method once; from it follows what a
run of the method leaves as it was, whatever it answers and wherever it throws.

## Key Results

- **`Within.sameAt`**: a key outside the footprint holds the same after the run.
- **`Within.run_cacheOnly`**, **`Within.run_readOnly`**: what is left of the world after a
  method that touches only the cache, or only reads.
- **`reads_le_run`**: no method turns the clock back.
-/

namespace Bidding.Model

open Bidding.Effects Bidding.Effects.Action Bidding.KeyValue

/-- What a method may touch. -/
structure Footprint where
  keys : Key → Prop
  dao : DaoCall → Prop
  fields : FieldCall → Prop

namespace Footprint

/-- Calls that stay inside a footprint. Connections and the clock are free. -/
def Allows (fp : Footprint) : Cmd → Prop
  | .redis c => ∀ k, c.Writes k → fp.keys k
  | .connect | .close _ | .now => True
  | .dao c => fp.dao c
  | .field c => fp.fields c
  | .startTimer _ | .stopAuction | .restart | .engineBid _ => False

end Footprint

/-- A method stays inside a footprint. -/
abbrev Within {α : Type} (fp : Footprint) (p : Act α) : Prop := Issues fp.Allows p

/-- The queries of the data-access object. -/
def DaoCall.IsQuery : DaoCall → Prop
  | .getActualAuctionStartTime _ | .isValidAuction _ | .getCurrentBidSequence _
  | .queryCategories | .getCategoryList _ _ | .getMaxBidId | .getMaxAutoBidId | .begin => True
  | _ => False

/-- The reads of the service's fields. -/
def FieldCall.IsRead : FieldCall → Prop
  | .getStartFlag | .getAuctionId | .getAuctionStartTime => True
  | _ => False

/-- The footprint of a method that changes the cache only. -/
def cacheOnly (keys : Key → Prop) : Footprint where
  keys := keys
  dao := DaoCall.IsQuery
  fields := FieldCall.IsRead

/-- The footprint of a method that only reads. -/
abbrev readOnly : Footprint := cacheOnly (fun _ => False)

/-! ## Rules -/

section Rules

variable {α β : Type} {fp : Footprint}

theorem within_now : Within fp now := issues_perform trivial

theorem within_dao {c : DaoCall} (hc : fp.dao c) : Within fp (dao c) := issues_perform hc

theorem within_daoGetBidItem {id : ℤ} (hc : fp.dao (.getBidItem id)) :
    Within fp (Dao.getBidItem id) := issues_perform hc

theorem within_daoUpdateBidItem {item : Option BidItem} (hc : fp.dao (.updateBidItem item)) :
    Within fp (Dao.updateBidItem item) := issues_perform hc

/-- The end of a guarded method. -/
theorem issues_close {P : Cmd → Prop} (hclose : ∀ jedis, P (.close jedis))
    (jedis : Option Connection) (a : α) : Issues P (do close jedis; pure a : Act α) :=
  issues_bind (issues_perform (hclose jedis)) (fun _ => issues_pure a)

/-- A guarded method issues the commands of its body, and those of a connection. -/
theorem issues_guarded {P : Cmd → Prop} {onFailure : α} {body : Act α} (hconnect : P .connect)
    (hclose : ∀ jedis, P (.close jedis)) (h : Issues P body) :
    Issues P (guarded onFailure body) := by
  apply issues_bind (issues_attempt (issues_perform hconnect))
  intro r
  cases r with
  -- without a connection the method only closes
  | error e => exact issues_close hclose _ _
  | ok _ =>
    apply issues_bind (issues_attempt h)
    intro r
    cases r with
    | error e => exact issues_close hclose _ _
    | ok a => exact issues_close hclose _ _

/-- So does a method that leaves its connection open. -/
theorem issues_unclosed {P : Cmd → Prop} {onFailure : α} {body : Act α} (hconnect : P .connect)
    (hclose : ∀ jedis, P (.close jedis)) (h : Issues P body) :
    Issues P (unclosed onFailure body) := by
  apply issues_bind (issues_attempt (issues_perform hconnect))
  intro r
  cases r with
  | error e => exact issues_close hclose _ _
  | ok _ =>
    apply issues_bind (issues_attempt h)
    intro r
    cases r with
    | error e => exact issues_close hclose _ _
    | ok a => exact issues_pure _

theorem within_guarded {onFailure : α} {body : Act α} (h : Within fp body) :
    Within fp (guarded onFailure body) := issues_guarded trivial (fun _ => trivial) h

theorem within_unclosed {onFailure : α} {body : Act α} (h : Within fp body) :
    Within fp (unclosed onFailure body) := issues_unclosed trivial (fun _ => trivial) h

/-- A cache command that writes no key, or one key of the footprint. -/
theorem within_redis {c : RedisCmd} (hc : ∀ k, c.Writes k → fp.keys k) : Within fp (redis c) :=
  issues_perform hc

end Rules

/-! ## What a run leaves as it was -/

section Frame

variable {α : Type} {fp : Footprint} {p : Act α} (env : Env) (w : World)

/-- A call to the data-access object does not touch the cache. -/
theorem redis_handleDao (c : DaoCall) : (handle env (.dao c) w).2.redis = w.redis := by
  cases c with
  | getBidItem id =>
    simp only [handle, handleDao]
    split <;> rfl
  | updateBidItem item =>
    simp only [handle, handleDao]
    split <;> rfl
  | flush item =>
    simp only [handle, handleDao]
    split <;> rfl
  | _ => rfl

/-- One call leaves a key outside its footprint as it was. -/
theorem Footprint.Allows.sameAt {c : Cmd} (hc : fp.Allows c) {k : Key} (hk : ¬ fp.keys k) :
    Store.SameAt k (handle env c w).2.redis w.redis := by
  cases c with
  | redis c => exact exec_sameAt env.order (fun hw => hk (hc k hw)) w.redis
  | connect | close _ | now => exact Store.SameAt.refl _ _
  | dao c =>
    have hredis := redis_handleDao env w c
    exact hredis ▸ Store.SameAt.refl _ _
  | field c => cases c <;> exact Store.SameAt.refl _ _
  | startTimer _ | stopAuction | restart | engineBid _ => exact absurd hc id

/-- One call of a method that changes the cache only. -/
theorem Footprint.Allows.cacheOnly {keys : Key → Prop} {c : Cmd}
    (hc : (cacheOnly keys).Allows c) :
    ∃ r n, (handle env c w).2 = { w with redis := r, reads := w.reads + n } := by
  cases c with
  | connect | close _ => exact ⟨w.redis, 0, rfl⟩
  | redis c => exact ⟨_, 0, rfl⟩
  | now => exact ⟨w.redis, 1, rfl⟩
  | dao c =>
    cases c with
    | getActualAuctionStartTime _ | isValidAuction _ | getCurrentBidSequence _
    | queryCategories | getCategoryList _ _ | getMaxBidId | getMaxAutoBidId | begin =>
      exact ⟨w.redis, 0, rfl⟩
    | _ => exact absurd hc id
  | field c =>
    cases c with
    | getStartFlag | getAuctionId | getAuctionStartTime => exact ⟨w.redis, 0, rfl⟩
    | _ => exact absurd hc id
  | startTimer _ | stopAuction | restart | engineBid _ => exact absurd hc id

/-- A key outside the footprint holds the same after the run. -/
theorem Within.sameAt (hp : Within fp p) {k : Key} (hk : ¬ fp.keys k) :
    Store.SameAt k (run (handle env) p w).2.redis w.redis :=
  hp.run_inv (I := fun t : World => Store.SameAt k t.redis w.redis)
    (fun _ hc t ht => (hc.sameAt env t hk).trans ht) (Store.SameAt.refl _ _)

/-- A world that differs from `w` in some keys of the cache and in the clock readings. -/
def CacheChange (keys : Key → Prop) (w w' : World) : Prop :=
  ∃ r n, w' = { w with redis := r, reads := w.reads + n } ∧
    ∀ k, ¬ keys k → Store.SameAt k r w.redis

theorem CacheChange.refl (keys : Key → Prop) (w : World) : CacheChange keys w w :=
  ⟨w.redis, 0, rfl, fun _ _ => Store.SameAt.refl _ _⟩

/-- One more command of such a method. -/
theorem CacheChange.step {keys : Key → Prop} {c : Cmd} (hc : (cacheOnly keys).Allows c)
    {w t : World} (h : CacheChange keys w t) : CacheChange keys w (handle env c t).2 := by
  obtain ⟨r, n, rfl, hsame⟩ := h
  obtain ⟨r', m, hstep⟩ := hc.cacheOnly env { w with redis := r, reads := w.reads + n }
  refine ⟨r', n + m, by rw [hstep, Nat.add_assoc], fun k hk => ?_⟩
  have hkeep := hc.sameAt env { w with redis := r, reads := w.reads + n } (k := k) hk
  rw [hstep] at hkeep
  exact hkeep.trans (hsame k hk)

/-- A method that changes the cache only changes some of its keys and reads the clock. -/
theorem Within.run_cacheOnly {keys : Key → Prop} (hp : Within (cacheOnly keys) p) :
    CacheChange keys w (run (handle env) p w).2 :=
  hp.run_inv (fun _ hc _ ht => ht.step env hc) (CacheChange.refl keys w)

/-- Without any key nothing changes but the number of clock readings. -/
theorem CacheChange.readOnly {w w' : World} (h : CacheChange (fun _ => False) w w') :
    ∃ n, w' = { w with reads := w.reads + n } := by
  obtain ⟨r, n, rfl, hsame⟩ := h
  have hr : r = w.redis := Store.ext_sameAt (fun k => hsame k id)
  exact ⟨n, by rw [hr]⟩

/-- A read-only method changes nothing but the number of clock readings. -/
theorem Within.run_readOnly (hp : Within readOnly p) :
    ∃ n, (run (handle env) p w).2 = { w with reads := w.reads + n } :=
  (hp.run_cacheOnly env w).readOnly

/-- No method turns the clock back. -/
theorem reads_le_run (p : Act α) : w.reads ≤ (run (handle env) p w).2.reads := by
  refine Action.run_inv (I := fun t : World => w.reads ≤ t.reads) ?_ p le_rfl
  intro c t ht
  refine ht.trans ?_
  cases c with
  -- each reading of the clock counts up
  | now | engineBid _ => exact Nat.le_succ _
  | dao c =>
    cases c with
    | getBidItem id =>
      simp only [handle, handleDao]
      split
      · exact Nat.le_add_right _ _
      · exact le_rfl
    | updateBidItem item =>
      simp only [handle, handleDao]
      split <;> exact le_rfl
    | flush item =>
      simp only [handle, handleDao]
      split <;> exact le_rfl
    | setActualAuctionStartTime _ _ | setAuctionEndTime _ _ | closeAuction _ =>
      exact Nat.le_add_right _ _
    | _ => exact le_rfl
  | field c => cases c <;> exact le_rfl
  | _ => exact le_rfl

end Frame

end Bidding.Model
