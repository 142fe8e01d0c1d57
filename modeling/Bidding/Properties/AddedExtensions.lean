import Mathlib.Algebra.BigOperators.Fin
import Mathlib.Algebra.Order.BigOperators.Group.Finset
import Bidding.Properties.Countdown
import Bidding.Sale.Snapshots

/-!
# Do Concurrent Extensions Add Up?

An extension reads the times of an item, computes a new end time and writes it, and then writes
the last update that goes with it. Two extensions that both read before either of them writes
compute their end times from the same time left, and one of them is lost. Extensions that do not
overlap from the reading of the end time to the last write add up.

## Architecture

- **`Busy`**: an extension between its reading of the end time and its last write.
- **`Serial`**: the condition on the schedule, no extension reads the end time while another one
  is busy.
- **`Ledger`**: the invariant; when nobody is busy, the time left is the original one and the
  extensions that were written.

## Key Results

- **`delivers_doExtendBidding`**: an extension enters itself in the ledger.
- **`timeLeft_of_serial`**: after all extensions the time left is the original one and their sum.
-/

namespace Bidding.Model

open Bidding.Effects Bidding.Effects.Action Bidding.KeyValue
open RedisCacheService BidItemsCacheService ObserverController

/-! ## Extensions at the same time -/

/-- Extensions of one item at the same time. -/
def extending {k : ℕ} (w : World) (id : ℤ) (extendTime : Fin k → ℤ) :
    Pool Cmd Answer World (fun _ : Fin k => Except Exn Unit) where
  threads i := doExtendBidding id (extendTime i)
  shared := ⟨w, []⟩

/-- No command fails. -/
def noFaults {ι : Type} : ι → (c : Cmd) → Option (Answer c) := fun _ _ => none

section Ledger

variable {k : ℕ}

/-- The extension has read the end time. -/
abbrev HasRead (id : ℤ) (g : Shared (Fin k) Cmd World) (i : Fin k) : Prop :=
  g.Did (ReadsEnd id) i

/-- The extension has made its last write. -/
abbrev HasWritten (id : ℤ) (g : Shared (Fin k) Cmd World) (i : Fin k) : Prop :=
  g.Did (Overwrites id .lastUpDateTime) i

/-- The extension is between its reading of the end time and its last write. -/
def Busy (id : ℤ) (g : Shared (Fin k) Cmd World) (i : Fin k) : Prop :=
  HasRead id g i ∧ ¬ HasWritten id g i

/-- No extension reads the end time while another one is busy. -/
def Serial (id : ℤ) (i : Fin k) (g : Shared (Fin k) Cmd World) (c : Cmd) : Prop :=
  ReadsEnd id c → ∀ j, j ≠ i → ¬ Busy id g j

/-- The sum of the extensions that were written. -/
def written (id : ℤ) (extendTime : Fin k → ℤ) (g : Shared (Fin k) Cmd World) : ℤ :=
  ∑ j, if HasWritten id g j then extendTime j else 0

/-- What holds between any two commands: `t` is the second of the clock, and `L` the time that
    was left at the start. -/
structure Ledger (id X t L : ℤ) (extendTime : Fin k → ℤ) (g : Shared (Fin k) Cmd World) :
    Prop where
  extensible : Extensible g.state.redis id X
  alone : ∀ i j, Busy id g i → Busy id g j → i = j
  settled : (∀ j, ¬ Busy id g j) → ∃ E U, CachedTimes g.state.redis id E U X ∧
    countdown E U X t = L + written id extendTime g

/-- What an extension relies on: the others keep the ledger, and do not write while it is
    busy. -/
structure Undisturbed (id X t L : ℤ) (extendTime : Fin k → ℤ) (i : Fin k)
    (g g' : Shared (Fin k) Cmd World) : Prop where
  ledger : Ledger id X t L extendTime g → Ledger id X t L extendTime g'
  hasRead : HasRead id g' i ↔ HasRead id g i
  hasWritten : HasWritten id g' i ↔ HasWritten id g i
  busy : Ledger id X t L extendTime g → Busy id g i →
    g'.state.redis.hashes (.bidItem id) = g.state.redis.hashes (.bidItem id) ∧
      ∀ j, HasWritten id g' j ↔ HasWritten id g j

section Frame

variable {id X t L : ℤ} {extendTime : Fin k → ℤ} {i : Fin k} {g g' g'' : Shared (Fin k) Cmd World}

theorem busy_congr {j : Fin k} (hread : HasRead id g' j ↔ HasRead id g j)
    (hwritten : HasWritten id g' j ↔ HasWritten id g j) : Busy id g' j ↔ Busy id g j := by
  unfold Busy
  rw [hread, hwritten]

theorem written_congr (h : ∀ j, HasWritten id g' j ↔ HasWritten id g j) :
    written id extendTime g' = written id extendTime g := by
  unfold written
  simp only [h]

theorem Undisturbed.refl (i : Fin k) (g : Shared (Fin k) Cmd World) :
    Undisturbed id X t L extendTime i g g :=
  ⟨fun h => h, Iff.rfl, Iff.rfl, fun _ _ => ⟨rfl, fun _ => Iff.rfl⟩⟩

/-- Requests that are left undisturbed twice are left undisturbed. -/
theorem Undisturbed.trans (h : Undisturbed id X t L extendTime i g g')
    (h' : Undisturbed id X t L extendTime i g' g'') :
    Undisturbed id X t L extendTime i g g'' where
  ledger hg := h'.ledger (h.ledger hg)
  hasRead := h'.hasRead.trans h.hasRead
  hasWritten := h'.hasWritten.trans h.hasWritten
  busy hg hbusy := by
    obtain ⟨hhash, hwritten⟩ := h.busy hg hbusy
    -- a busy request is busy in between, too
    have hbusy' := (busy_congr h.hasRead h.hasWritten).mpr hbusy
    obtain ⟨hhash', hwritten'⟩ := h'.busy (h.ledger hg) hbusy'
    exact ⟨hhash'.trans hhash, fun j => (hwritten' j).trans (hwritten j)⟩

end Frame

/-- The extensions of one item, at a time `t` that does not pass. -/
def extensions (env : Env) (id X t L : ℤ) (extendTime : Fin k → ℤ) :
    Discipline Cmd Answer World (Fin k) where
  handler := handle env
  faults := noFaults
  cond := Serial id
  tol := Always
  rely := Undisturbed id X t L extendTime
  rely_refl := Undisturbed.refl
  rely_trans := Undisturbed.trans

/-! ## The phases of an extension -/

variable {env : Env} {id X t L : ℤ} {extendTime : Fin k → ℤ} {i : Fin k}
  {g : Shared (Fin k) Cmd World}

/-- The extension has not read the end time yet. -/
structure Before (id X t L : ℤ) (extendTime : Fin k → ℤ) (i : Fin k)
    (g : Shared (Fin k) Cmd World) : Prop where
  ledger : Ledger id X t L extendTime g
  notRead : ¬ HasRead id g i
  notWritten : ¬ HasWritten id g i

/-- The extension has read the end time, and the times are still such that they satisfy `P`,
    given the extensions that were written. -/
structure Meanwhile (id X t L : ℤ) (extendTime : Fin k → ℤ) (i : Fin k) (P : ℤ → ℤ → ℤ → Prop)
    (g : Shared (Fin k) Cmd World) : Prop where
  ledger : Ledger id X t L extendTime g
  busy : Busy id g i
  times : ∃ E U, CachedTimes g.state.redis id E U X ∧ P E U (L + written id extendTime g)

/-- The extension is written. -/
structure Entered (id X t L : ℤ) (extendTime : Fin k → ℤ) (i : Fin k)
    (g : Shared (Fin k) Cmd World) : Prop where
  ledger : Ledger id X t L extendTime g
  hasWritten : HasWritten id g i

theorem stable_before :
    (extensions env id X t L extendTime).Stable i (Before id X t L extendTime i) :=
  fun _ _ h hrely => ⟨hrely.ledger h.ledger, fun hr => h.notRead (hrely.hasRead.mp hr),
    fun hw => h.notWritten (hrely.hasWritten.mp hw)⟩

/-- What a busy request has found stays as it is until it writes. -/
theorem stable_meanwhile {P : ℤ → ℤ → ℤ → Prop} :
    (extensions env id X t L extendTime).Stable i (Meanwhile id X t L extendTime i P) := by
  intro g g' h hrely
  obtain ⟨hhash, hwritten⟩ := hrely.busy h.ledger h.busy
  obtain ⟨E, U, htimes, hP⟩ := h.times
  refine ⟨hrely.ledger h.ledger, (busy_congr hrely.hasRead hrely.hasWritten).mpr h.busy, E, U,
    htimes.of_hash hhash, ?_⟩
  rwa [written_congr hwritten]

theorem stable_entered :
    (extensions env id X t L extendTime).Stable i (Entered id X t L extendTime i) :=
  fun _ _ h hrely => ⟨hrely.ledger h.ledger, hrely.hasWritten.mpr h.hasWritten⟩

/-! ### Commands without a trace -/

section Silent

variable {c : Cmd} (hc : Silent id c)

include hc

theorem hasRead_silent (h : Handler Cmd Answer World) (j : Fin k) :
    HasRead id (g.issue h i c) j ↔ HasRead id g j := Shared.did_issue_of_not hc.notEnd

theorem hasWritten_silent (h : Handler Cmd Answer World) (j : Fin k) :
    HasWritten id (g.issue h i c) j ↔ HasWritten id g j :=
  Shared.did_issue_of_not (not_overwrites_of_readOnly hc.reads _)

theorem redis_silent : (g.issue (handle env) i c).state.redis = g.state.redis :=
  hc.reads.redis_eq env g.state

/-- A command without a trace keeps the ledger. -/
theorem ledger_silent (h : Ledger id X t L extendTime g) :
    Ledger id X t L extendTime (g.issue (handle env) i c) := by
  have hbusy : ∀ j, Busy id (g.issue (handle env) i c) j ↔ Busy id g j :=
    fun j => busy_congr (hasRead_silent hc _ j) (hasWritten_silent hc _ j)
  refine ⟨?_, ?_, ?_⟩
  · rw [redis_silent hc]
    exact h.extensible
  · intro j j' hj hj'
    exact h.alone j j' ((hbusy j).mp hj) ((hbusy j').mp hj')
  · intro hnone
    rw [redis_silent hc, written_congr (hasWritten_silent hc _)]
    exact h.settled fun j hj => hnone j ((hbusy j).mpr hj)

theorem guar_silent :
    (extensions env id X t L extendTime).guar i g (g.issue (handle env) i c) := by
  intro j _
  refine ⟨ledger_silent hc, hasRead_silent hc _ j, hasWritten_silent hc _ j, fun _ _ => ?_⟩
  rw [redis_silent hc]
  exact ⟨rfl, hasWritten_silent hc _⟩

theorem keeps_before :
    (extensions env id X t L extendTime).Keeps i (Before id X t L extendTime i) c := by
  intro g h _
  refine ⟨guar_silent hc, ledger_silent hc h.ledger, ?_, ?_⟩
  · exact fun hr => h.notRead ((hasRead_silent hc _ i).mp hr)
  · exact fun hw => h.notWritten ((hasWritten_silent hc _ i).mp hw)

/-- A silent command of a busy request. -/
theorem keeps_meanwhile {P : ℤ → ℤ → ℤ → Prop} :
    (extensions env id X t L extendTime).Keeps i (Meanwhile id X t L extendTime i P) c := by
  intro g h _
  obtain ⟨E, U, htimes, hP⟩ := h.times
  refine ⟨guar_silent hc, ledger_silent hc h.ledger, ?_, E, U, ?_, ?_⟩
  · exact (busy_congr (hasRead_silent hc _ i) (hasWritten_silent hc _ i)).mpr h.busy
  · exact htimes.of_hash (by rw [show (extensions env id X t L extendTime).handler = handle env
      from rfl, redis_silent hc])
  · rwa [written_congr (hasWritten_silent hc _)]

theorem keeps_entered :
    (extensions env id X t L extendTime).Keeps i (Entered id X t L extendTime i) c := by
  intro g h _
  exact ⟨guar_silent hc, ledger_silent hc h.ledger, (hasWritten_silent hc _ i).mpr h.hasWritten⟩

end Silent

/-! ### The three commands that count -/

/-- The time left of the cached times is the one of the ledger. -/
def Current (X t : ℤ) : ℤ → ℤ → ℤ → Prop := fun E U total => countdown E U X t = total

/-- The end time is read when nobody else is busy. -/
theorem read_before (h : Before id X t L extendTime i g) (hcond : Serial id i g (readEnd id)) :
    (extensions env id X t L extendTime).guar i g (g.issue (handle env) i (readEnd id)) ∧
      Meanwhile id X t L extendTime i (Current X t) (g.issue (handle env) i (readEnd id)) := by
  let g' := g.issue (handle env) i (readEnd id)
  have hothers : ∀ j, j ≠ i → ¬ Busy id g j := hcond ⟨rfl, rfl⟩
  have hwritten : ∀ j, HasWritten id g' j ↔ HasWritten id g j :=
    fun j => Shared.did_issue_of_not fun h => h
  have hread : ∀ j, j ≠ i → (HasRead id g' j ↔ HasRead id g j) :=
    fun j hj => Shared.did_issue_of_ne hj
  have hbusy : Busy id g' i :=
    ⟨Shared.did_issue.mpr (.inr ⟨rfl, rfl, rfl⟩), fun hw => h.notWritten ((hwritten i).mp hw)⟩
  -- from now on this request is the only busy one
  have halone : ∀ j, Busy id g' j → j = i := by
    intro j hj
    by_contra hne
    exact hothers j hne ((busy_congr (hread j hne) (hwritten j)).mp hj)
  have hledger : Ledger id X t L extendTime g' :=
    ⟨h.ledger.extensible, fun j j' hj hj' => (halone j hj).trans (halone j' hj').symm,
      fun hnone => absurd hbusy (hnone i)⟩
  -- before the read nobody was busy, so the ledger was settled
  obtain ⟨E, U, htimes, hleft⟩ : ∃ E U, CachedTimes g.state.redis id E U X ∧
      countdown E U X t = L + written id extendTime g := by
    apply h.ledger.settled
    intro j hj
    by_cases hji : j = i
    · exact h.notRead (hji ▸ hj.1)
    · exact hothers j hji hj
  refine ⟨?_, hledger, hbusy, E, U, htimes, ?_⟩
  · intro j hj
    exact ⟨fun _ => hledger, hread j hj, hwritten j, fun _ hbusy' => absurd hbusy' (hothers j hj)⟩
  · rw [written_congr hwritten]
    exact hleft

/-- The new end time is `d`, later by the extension. -/
def Extended (d : Date) (t e : ℤ) : ℤ → ℤ → ℤ → Prop :=
  fun E _ total => E = secondOf d ∧ E = t + total + e

/-- The new end time is written. -/
theorem write_end {P : ℤ → ℤ → ℤ → Prop} (h : Meanwhile id X t L extendTime i P g) {d : Date}
    {e : ℤ} (hd : secondOf d = t + (L + written id extendTime g) + e) :
    (extensions env id X t L extendTime).guar i g
        (g.issue (handle env) i (setsDate id .bidEndTime d)) ∧
      Meanwhile id X t L extendTime i (Extended d t e)
        (g.issue (handle env) i (setsDate id .bidEndTime d)) := by
  let g' := g.issue (handle env) i (setsDate id .bidEndTime d)
  have hread : ∀ j, HasRead id g' j ↔ HasRead id g j :=
    fun j => Shared.did_issue_of_not fun h => h
  have hwritten : ∀ j, HasWritten id g' j ↔ HasWritten id g j :=
    fun j => Shared.did_issue_of_not fun h => Attr.noConfusion h.2
  have hbusy : ∀ j, Busy id g' j ↔ Busy id g j := fun j => busy_congr (hread j) (hwritten j)
  -- the ledger need not balance while the request is busy
  have hledger : Ledger id X t L extendTime g' := by
    refine ⟨h.ledger.extensible.hset_date (.inl rfl) d, ?_, ?_⟩
    · intro j j' hj hj'
      exact h.ledger.alone j j' ((hbusy j).mp hj) ((hbusy j').mp hj')
    · exact fun hnone => absurd ((hbusy i).mpr h.busy) (hnone i)
  obtain ⟨E, U, htimes, -⟩ := h.times
  refine ⟨?_, hledger, (hbusy i).mpr h.busy, secondOf d, U, htimes.hset_end d, rfl, ?_⟩
  · intro j hj
    exact ⟨fun _ => hledger, hread j, hwritten j,
      fun hg hbusy' => absurd (hg.alone j i hbusy' h.busy) hj⟩
  · rw [written_congr hwritten]
    exact hd

/-- With the last write the extension is entered. -/
theorem written_issue {d : Date} (h : ¬ HasWritten id g i) :
    written id extendTime (g.issue (handle env) i (setsDate id .lastUpDateTime d)) =
      written id extendTime g + extendTime i := by
  let g' := g.issue (handle env) i (setsDate id .lastUpDateTime d)
  have hself : HasWritten id g' i := Shared.did_issue.mpr (.inr ⟨rfl, rfl, rfl⟩)
  have hothers : ∀ j, j ≠ i → (HasWritten id g' j ↔ HasWritten id g j) :=
    fun j hj => Shared.did_issue_of_ne hj
  unfold written
  -- take the own extension out of both sums
  rw [← Finset.add_sum_erase _ _ (Finset.mem_univ i),
    ← Finset.add_sum_erase Finset.univ (fun j => if HasWritten id g j then extendTime j else 0)
      (Finset.mem_univ i), if_pos hself, if_neg h, zero_add, add_comm]
  congr 1
  apply Finset.sum_congr rfl
  intro j hj
  exact if_congr (hothers j (Finset.ne_of_mem_erase hj)) rfl rfl

/-- The last update is written, with room for the extension after a bid. -/
theorem write_update {d u : Date}
    (h : Meanwhile id X t L extendTime i (Extended d t (extendTime i)) g)
    (hroom : secondOf u + X ≤ secondOf d) (hpos : 0 < L + written id extendTime g + extendTime i) :
    (extensions env id X t L extendTime).guar i g
        (g.issue (handle env) i (setsDate id .lastUpDateTime u)) ∧
      Entered id X t L extendTime i
        (g.issue (handle env) i (setsDate id .lastUpDateTime u)) := by
  let g' := g.issue (handle env) i (setsDate id .lastUpDateTime u)
  have hread : ∀ j, HasRead id g' j ↔ HasRead id g j :=
    fun j => Shared.did_issue_of_not fun h => h
  have hself : HasWritten id g' i := Shared.did_issue.mpr (.inr ⟨rfl, rfl, rfl⟩)
  have hothers : ∀ j, j ≠ i → (HasWritten id g' j ↔ HasWritten id g j) :=
    fun j hj => Shared.did_issue_of_ne hj
  -- with this write nobody is busy, so the ledger has to balance again
  have hnone : ∀ j, ¬ Busy id g' j := by
    intro j hj
    by_cases hji : j = i
    · exact hj.2 (hji ▸ hself)
    · exact hji (h.ledger.alone j i ((busy_congr (hread j) (hothers j hji)).mp hj) h.busy)
  obtain ⟨E, U, htimes, hE, hE'⟩ := h.times
  have hledger : Ledger id X t L extendTime g' := by
    refine ⟨h.ledger.extensible.hset_date (.inr rfl) u, fun j _ hj => absurd hj (hnone j), ?_⟩
    intro _
    refine ⟨E, secondOf u, htimes.hset_update u, ?_⟩
    rw [written_issue h.busy.2]
    unfold countdown
    rw [if_neg (by omega), if_pos (by omega)]
    omega
  refine ⟨?_, hledger, hself⟩
  intro j hj
  exact ⟨fun _ => hledger, hread j, hothers j hj,
    fun hg hbusy => absurd (hg.alone j i hbusy h.busy) hj⟩

/-! ## One extension -/

/-- What was written so far and one extension more is not above the sum of all. -/
theorem written_bounds (hpos : ∀ j, 0 < extendTime j) (h : ¬ HasWritten id g i) :
    0 ≤ written id extendTime g ∧ written id extendTime g + extendTime i ≤ ∑ j, extendTime j := by
  have hle : ∀ j, 0 ≤ (if HasWritten id g j then extendTime j else 0) ∧
      (if HasWritten id g j then extendTime j else 0) ≤ extendTime j := by
    intro j
    have hj := hpos j
    split <;> omega
  refine ⟨Finset.sum_nonneg fun j _ => (hle j).1, ?_⟩
  unfold written
  rw [← Finset.add_sum_erase _ _ (Finset.mem_univ i), if_neg h, zero_add, add_comm,
    ← Finset.add_sum_erase _ extendTime (Finset.mem_univ i)]
  exact add_le_add_right (Finset.sum_le_sum fun j _ => (hle j).2) _

/-- The request has its watch on the item while it is the only busy one. -/
theorem watches_extension : Watches (extensions env id X t L extendTime) i id X
    (Before id X t L extendTime i) (Meanwhile id X t L extendTime i (Current X t))
    (fun _ => False) where
  extensible _ h := h.elim (fun h => h.ledger.extensible) (fun h => h.ledger.extensible)
  before := stable_before
  after := stable_meanwhile
  unseen _ _ h hrely _ := ⟨fun hstale => hstale, (hrely.busy h.ledger h.busy).1⟩
  silent_before _ hc := keeps_before hc
  silent_after _ hc := keeps_meanwhile hc
  stale _ _ h := h
  read _ h hcond := read_before h hcond

/-- What the extensions must be like: a clock that stands still, some time left, and no number
    that does not fit into an `int`. -/
structure Moderate (env : Env) (X t L : ℤ) (extendTime : Fin k → ℤ) : Prop where
  second : ∀ n, secondOf (env.clock n) = t
  afterEpoch : 0 ≤ t
  timeLeft : 0 < L
  extendTime_pos : ∀ i, 0 < extendTime i
  total_fits : L + ∑ i, extendTime i < 2 ^ 31
  extension_fits : FitsInt X

/-- The new end time is later than the time left says, by the extension. -/
theorem secondOf_newEnd (hmod : Moderate env X t L extendTime) (hnot : ¬ HasWritten id g i)
    {cal : Date} (hcal : secondOf cal = t) :
    secondOf (addSeconds cal (toInt32 (toInt32 (L + written id extendTime g) + extendTime i))) =
      t + (L + written id extendTime g) + extendTime i := by
  obtain ⟨hnonneg, hsum⟩ := written_bounds hmod.extendTime_pos hnot
  have hL := hmod.timeLeft
  have hi := hmod.extendTime_pos i
  have hfits := hmod.total_fits
  -- neither the time left nor its sum with the extension leaves the range of an `int`
  rw [secondOf_addSeconds, hcal, toInt32_of_fits (n := L + written id extendTime g) (by omega)
    (by omega), toInt32_of_fits (by omega) (by omega)]
  omega

/-- An extension that has the watch on the item is entered in the ledger. -/
theorem delivers_doExtendBidding (hmod : Moderate env X t L extendTime)
    (hg : Before id X t L extendTime i g) :
    (extensions env id X t L extendTime).Delivers i (fun _ => Entered id X t L extendTime i)
      (doExtendBidding id (extendTime i)) g := by
  let D := extensions env id X t L extendTime
  have hfaults : ∀ c, D.faults i c = none := fun _ => rfl
  have hsecond : ∀ n, env.second n = t :=
    fun n => toSeconds_of_secondOf hmod.afterEpoch (hmod.second n)
  apply Discipline.delivers_bind (watches_extension.delivers_getBidItem rfl hfaults hg)
  intro found g hfound
  obtain ⟨item, E, U, rfl, hmeanwhile, htimes, hcached⟩ := hfound
  -- the item was fetched without a change in between, so the time left computed from it is the
  -- one of the ledger, and stays it until this extension writes
  let P : ℤ → ℤ → ℤ → Prop := fun _ _ total => countdown E U X t = total
  have hP : Meanwhile id X t L extendTime i P g := by
    obtain ⟨E', U', htimes', hcurrent⟩ := hmeanwhile.times
    obtain ⟨rfl, rfl, -⟩ := htimes'.unique (hcached fun hstale => hstale)
    exact ⟨hmeanwhile.ledger, hmeanwhile.busy, E', U', htimes', hcurrent⟩
  have hstable : D.Stable i (Meanwhile id X t L extendTime i P) := stable_meanwhile
  -- the clock is read twice, for `cal` and inside `getTimeLeft`
  apply Discipline.delivers_bind
    (B := fun cal g => secondOf cal = t ∧ Meanwhile id X t L extendTime i P g)
  · apply delivers_now rfl rfl hstable (fun _ => (Discipline.Stable.const _).and hstable) _ hP
    intro g hg hcond
    obtain ⟨hguar, hP'⟩ := keeps_meanwhile (silent_now id) g hg hcond
    exact ⟨hguar, hmod.second _, hP'⟩
  intro cal g hcal
  obtain ⟨hcal, hP⟩ := hcal
  apply Discipline.delivers_bind
    (B := fun timeLeft g => timeLeft = countdown E U X t ∧ Meanwhile id X t L extendTime i P g)
  · apply delivers_getTimeLeft rfl rfl htimes hstable
      (fun _ => (Discipline.Stable.const _).and hstable) _ hP
    intro g hg hcond
    obtain ⟨hguar, hP'⟩ := keeps_meanwhile (silent_now id) g hg hcond
    exact ⟨hguar, congrArg _ (hsecond _), hP'⟩
  intro timeLeft g hleft
  obtain ⟨rfl, hP⟩ := hleft
  simp only [htimes.timeExtAfterBid]
  let bidEndTime := addSeconds cal (toInt32 (toInt32 (countdown E U X t) + extendTime i))
  let lastUpDateTime := addSeconds bidEndTime (toInt32 (-(X + 10)))
  have hroom : secondOf lastUpDateTime + X ≤ secondOf bidEndTime :=
    room_of_fits hmod.extension_fits bidEndTime
  -- after the first write the end time and the last update do not belong together
  apply Discipline.delivers_bind
    (B := fun _ => Meanwhile id X t L extendTime i (Extended bidEndTime t (extendTime i)))
  · apply delivers_setDate rfl hfaults hstable stable_meanwhile
      (fun g hg => hg.ledger.extensible.cached.member) (fun c hc => keeps_meanwhile hc)
      (keeps_meanwhile (silent_close id (some 0))) _ hP
    intro g hg _
    obtain ⟨_, _, -, hleft⟩ := hg.times
    have hleft' : countdown E U X t = L + written id extendTime g := hleft
    apply write_end hg
    show secondOf (addSeconds cal (toInt32 (toInt32 (countdown E U X t) + extendTime i))) = _
    rw [hleft']
    exact secondOf_newEnd hmod hg.busy.2 hcal
  intro _ g hextended
  -- with the second write they do, and nobody is busy any more
  apply Discipline.delivers_bind (B := fun _ => Entered id X t L extendTime i)
  · apply delivers_setDate rfl hfaults stable_meanwhile stable_entered
      (fun g hg => hg.ledger.extensible.cached.member) (fun c hc => keeps_meanwhile hc)
      (keeps_entered (silent_close id (some 0))) _ hextended
    intro g hg _
    have hnonneg := (written_bounds hmod.extendTime_pos hg.busy.2).1
    have hL := hmod.timeLeft
    have hi := hmod.extendTime_pos i
    exact write_update hg hroom (by omega)
  · exact fun _ g hg => Discipline.delivers_pure stable_entered hg

end Ledger

/-! ## All extensions -/

/-- Nothing has happened yet. -/
theorem before_extending {k : ℕ} {w : World} {id X t E U : ℤ} {extendTime : Fin k → ℤ}
    (hcached : Cached w.redis id) (htimes : CachedTimes w.redis id E U X) (i : Fin k) :
    Before id X t (countdown E U X t) extendTime i (extending w id extendTime).shared := by
  have hnone : ∀ j : Fin k, ¬ HasWritten id (extending w id extendTime).shared j := fun _ h => h
  refine ⟨⟨⟨hcached, htimes.timeExtAfterBid⟩, fun _ _ h => absurd h.1 fun h => h, fun _ => ?_⟩,
    fun h => h, hnone i⟩
  refine ⟨E, U, htimes, ?_⟩
  unfold written
  rw [Finset.sum_eq_zero fun j _ => if_neg (hnone j), add_zero]

/-- **Extensions that do not overlap add up.** -/
theorem timeLeft_of_serial {k : ℕ} (hk : 2 ≤ k) {env : Env} {w : World} {id E U X t : ℤ}
    {extendTime : Fin k → ℤ} (hcached : Cached w.redis id)
    (htimes : CachedTimes w.redis id E U X)
    (hmod : Moderate env X t (countdown E U X t) extendTime) {moves : List (Move (Fin k))}
    (hmoves : Along (Pool.step (handle env) noFaults) (Meets (Serial id) Always)
      (extending w id extendTime) moves)
    (hended : ∀ i, ((extending w id extendTime).play (handle env) noFaults moves).result i ≠
      none) :
    (run (handle env) (cachedTimeLeft id) w).1 = .ok (countdown E U X t) ∧
      (run (handle env) (cachedTimeLeft id)
        ((extending w id extendTime).play (handle env) noFaults moves).shared.state).1 =
        .ok (countdown E U X t + ∑ i, extendTime i) := by
  have hsecond : ∀ n, env.second n = t :=
    fun n => toSeconds_of_secondOf hmod.afterEpoch (hmod.second n)
  let D := extensions env id X t (countdown E U X t) extendTime
  let g := ((extending w id extendTime).play (handle env) noFaults moves).shared
  have hentered : ∀ i, Entered id X t (countdown E U X t) extendTime i g := by
    intro i
    obtain ⟨result, hresult⟩ := Option.ne_none_iff_exists'.mp (hended i)
    have hsecures : ∀ j, D.Secures j
        (fun (r : Except Exn Unit) g => ∃ a, r = .ok a ∧
          Entered id X t (countdown E U X t) extendTime j g)
        ((extending w id extendTime).threads j) (extending w id extendTime).shared :=
      fun j => delivers_doExtendBidding hmod (before_extending hcached htimes j)
    obtain ⟨_, -, hi⟩ := D.secures_finished hsecures hmoves hresult
    exact hi
  -- any of the requests gives the ledger; all of them have written, so it is settled
  have hledger := (hentered ⟨0, by omega⟩).ledger
  obtain ⟨E', U', htimes', hleft⟩ := hledger.settled fun j hj => hj.2 (hentered j).hasWritten
  constructor
  · rw [hcached.run_cachedTimeLeft htimes, hsecond]
  · have hall : written id extendTime g = ∑ i, extendTime i :=
      Finset.sum_congr rfl fun j _ => if_pos (hentered j).hasWritten
    rw [hledger.extensible.cached.run_cachedTimeLeft htimes', hsecond, hleft, hall]

/-- A sale of two lots whose first lot has just been opened, for a minute. -/
def openedWorld : World := firstTick (Env.still 1000) (plainWorld twoLots 20)

theorem cached_openedWorld : Cached openedWorld.redis 11 := by
  have hsale : Saleable (plainWorld twoLots 20).db twoLots :=
    saleable_plainDb (by decide) (by decide) (by decide) (by decide)
  have hrefines := (refines_initCache (Env.still 1000) (plainWorld twoLots 20) hsale).first_tick
    (Env.still 1000) hsale.wellFormed rfl
  exact hrefines.opened ⟨1, 11, 1, 60⟩ (Sale.mem_opened_of_current (by decide))

theorem cachedTimes_openedWorld : CachedTimes openedWorld.redis 11 61 1 20 := by
  constructor <;> decide +kernel

/-- Two extensions of the lot. -/
def twoExtensions : Fin 2 → ℤ := ![30, 40]

theorem moderate_twoExtensions : Moderate (Env.still 1000) 20 1 (countdown 61 1 20 1)
    twoExtensions where
  second _ := rfl
  afterEpoch := by decide
  timeLeft := by decide
  extendTime_pos := by decide
  total_fits := by decide
  extension_fits := by decide

instance Serial.decidable {k : ℕ} (id : ℤ) (i : Fin k) (g : Shared (Fin k) Cmd World) (c : Cmd) :
    Decidable (Serial id i g c) := by
  unfold Serial Busy
  infer_instance

/-- The schedule in which the first extension ends before the second one starts. -/
def oneAfterTheOther : List (Move (Fin 2)) :=
  List.replicate 80 (.turn 0) ++ List.replicate 80 (.turn 1)

/-- One after the other they add up. -/
theorem timeLeft_oneAfterTheOther :
    (run (handle (Env.still 1000)) (cachedTimeLeft 11) openedWorld).1 = .ok 60 ∧
    (run (handle (Env.still 1000)) (cachedTimeLeft 11)
      ((extending openedWorld 11 twoExtensions).play (handle (Env.still 1000)) noFaults
        oneAfterTheOther).shared.state).1 = .ok 130 := by
  have hmoves : Along (Pool.step (handle (Env.still 1000)) noFaults) (Meets (Serial 11) Always)
      (extending openedWorld 11 twoExtensions) oneAfterTheOther := by decide +kernel
  have hended : ∀ i, ((extending openedWorld 11 twoExtensions).play (handle (Env.still 1000))
      noFaults oneAfterTheOther).result i ≠ none := by decide +kernel
  exact timeLeft_of_serial le_rfl cached_openedWorld cachedTimes_openedWorld
    moderate_twoExtensions hmoves hended

/-- The schedule in which the second extension comes between the readings and the writes of the
    first one. -/
def oneInTheOther : List (Move (Fin 2)) :=
  List.replicate 40 (.turn 0) ++ List.replicate 80 (.turn 1) ++ List.replicate 40 (.turn 0)

/-- Both end, and the extension by `40` seconds is lost. -/
theorem twoExtensions_lost :
    let p := (extending openedWorld 11 twoExtensions).play (handle (Env.still 1000)) noFaults
      oneInTheOther
    (∀ i, p.result i ≠ none) ∧
      (run (handle (Env.still 1000)) (cachedTimeLeft 11) openedWorld).1 = .ok 60 ∧
      (run (handle (Env.still 1000)) (cachedTimeLeft 11) p.shared.state).1 = .ok 90 ∧
      60 + ∑ i, twoExtensions i ≠ 90 := by
  decide +kernel

end Bidding.Model
