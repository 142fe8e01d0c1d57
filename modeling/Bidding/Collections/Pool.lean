import Mathlib.Data.Finset.Basic
import Mathlib.Data.Finset.Card
import Mathlib.Data.Finset.Range
import Mathlib.Order.Defs.Unbundled

/-!
# Pools

A pool hands out leases, which are numbered, and takes them back. It is a record of what
happened and refuses nothing: a lease may stay out, and it may be handed in twice.

## Architecture

- **`Pool`**: the number of leases so far, and the leases that were handed in.
- **`Sound`**: no lease was handed in twice, and none that was never made.
- **`Extends`**: a later record, in which nothing that was out before has come back.
- **`Restores`**: such a record with the same leases out.

## Key Results

- **`Extends.frame`**: a lease, a block and the return of the lease extend the record.
- **`Extends.frame_outstanding`**: such a bracket restores what was out if and only if the
  block does.
- **`Extends.open_outstanding`**: a bracket that is left open never does.
-/

namespace Bidding.Collections

/-- A record of leases. -/
structure Pool where
  /-- the number of leases so far, which is the number of the next one -/
  leased : ℕ
  /-- the leases that were handed in, latest first -/
  returned : List ℕ
  deriving DecidableEq, Repr

namespace Pool

/-- The pool that was never used. -/
def fresh : Pool := ⟨0, []⟩

/-- The next lease is made. -/
def lease (p : Pool) : Pool := { p with leased := p.leased + 1 }

/-- A lease is handed in. -/
def giveBack (p : Pool) (n : ℕ) : Pool := { p with returned := n :: p.returned }

/-- The leases that are out. -/
def outstanding (p : Pool) : Finset ℕ := {n ∈ Finset.range p.leased | n ∉ p.returned}

/-- No lease was handed in twice, and none that was never made. -/
structure Sound (p : Pool) : Prop where
  once : p.returned.Nodup
  known : ∀ n ∈ p.returned, n < p.leased

/-- A later record: still sound, and what was out is still out. -/
structure Extends (p q : Pool) : Prop where
  sound : p.Sound → q.Sound
  leased : p.leased ≤ q.leased
  outstanding : p.outstanding ⊆ q.outstanding

/-- A later record in which the same leases are out. -/
structure Restores (p q : Pool) : Prop where
  kept : p.Extends q
  outstanding : p.Sound → q.outstanding = p.outstanding

variable {p q : Pool} {n : ℕ}

@[simp] theorem mem_outstanding : n ∈ p.outstanding ↔ n < p.leased ∧ n ∉ p.returned := by
  simp [Pool.outstanding]

theorem sound_fresh : fresh.Sound := ⟨List.nodup_nil, fun _ h => nomatch h⟩

theorem leased_not_mem_outstanding (p : Pool) : p.leased ∉ p.outstanding := by
  simp

/-! ## The order of records -/

theorem Extends.refl (p : Pool) : p.Extends p := ⟨id, Nat.le_refl _, Finset.Subset.refl _⟩

theorem Extends.trans {r : Pool} (hpq : p.Extends q) (hqr : q.Extends r) : p.Extends r where
  sound hp := hqr.sound (hpq.sound hp)
  leased := hpq.leased.trans hqr.leased
  outstanding := hpq.outstanding.trans hqr.outstanding

theorem Restores.refl (p : Pool) : p.Restores p := ⟨Extends.refl p, fun _ => rfl⟩

theorem Restores.trans {r : Pool} (hpq : p.Restores q) (hqr : q.Restores r) : p.Restores r where
  kept := hpq.kept.trans hqr.kept
  outstanding hp :=
    (hqr.outstanding (hpq.kept.sound hp)).trans (hpq.outstanding hp)

/-- Two stages together restore what was out if and only if each of them does. -/
theorem Extends.outstanding_trans_iff {r : Pool} (hpq : p.Extends q) (hqr : q.Extends r) :
    r.outstanding = p.outstanding ↔
      q.outstanding = p.outstanding ∧ r.outstanding = q.outstanding := by
  constructor
  · intro heq
    -- what is out only grows, so nothing was added on the way
    have hmid : q.outstanding = p.outstanding := by
      apply Finset.Subset.antisymm _ hpq.outstanding
      rw [← heq]
      exact hqr.outstanding
    exact ⟨hmid, heq.trans hmid.symm⟩
  · rintro ⟨hfirst, hsecond⟩
    exact hsecond.trans hfirst

/-- As many leases out as before are the same leases. -/
theorem Extends.card_outstanding_eq_iff (h : p.Extends q) :
    q.outstanding.card = p.outstanding.card ↔ q.outstanding = p.outstanding := by
  constructor
  · intro hcard
    exact (Finset.eq_of_subset_of_card_le h.outstanding (Nat.le_of_eq hcard)).symm
  · intro heq
    rw [heq]

/-! ## Brackets -/

theorem Sound.lease (h : p.Sound) : p.lease.Sound where
  once := h.once
  known n hn := Nat.lt_succ_of_lt (h.known n hn)

/-- A new lease is out, beside those that were. -/
theorem Sound.outstanding_lease (h : p.Sound) :
    p.lease.outstanding = insert p.leased p.outstanding := by
  ext n
  -- the new number was never handed in, since it is not below itself
  have hnew : p.leased ∉ p.returned := fun hmem => Nat.lt_irrefl _ (h.known _ hmem)
  simp only [mem_outstanding, Finset.mem_insert, Pool.lease]
  grind

theorem outstanding_giveBack (p : Pool) (n : ℕ) :
    (p.giveBack n).outstanding = p.outstanding.erase n := by
  ext m
  simp only [mem_outstanding, Finset.mem_erase, Pool.giveBack, List.mem_cons]
  grind

theorem outstanding_subset_lease (p : Pool) : p.outstanding ⊆ p.lease.outstanding := by
  intro n hn
  rw [mem_outstanding] at hn ⊢
  exact ⟨Nat.lt_succ_of_lt hn.1, hn.2⟩

theorem Extends.lease (p : Pool) : p.Extends p.lease :=
  ⟨Sound.lease, Nat.le_succ _, outstanding_subset_lease p⟩

/-- The lease of a bracket is still out when its block is over. -/
theorem Extends.leased_mem (h : p.lease.Extends q) (hp : p.Sound) :
    p.leased ∈ q.outstanding := by
  apply h.outstanding
  rw [hp.outstanding_lease]
  exact Finset.mem_insert_self ..

/-- A bracket that is closed. -/
theorem Extends.frame (h : p.lease.Extends q) : p.Extends (q.giveBack p.leased) where
  sound hp := by
    have hsound : q.Sound := h.sound hp.lease
    obtain ⟨hlt, hnot⟩ := mem_outstanding.mp (h.leased_mem hp)
    exact ⟨List.nodup_cons.mpr ⟨hnot, hsound.once⟩,
      List.forall_mem_cons.mpr ⟨hlt, hsound.known⟩⟩
  leased := (Nat.le_succ _).trans h.leased
  outstanding := by
    rw [outstanding_giveBack]
    intro n hn
    apply Finset.mem_erase.mpr
    refine ⟨?_, h.outstanding (outstanding_subset_lease p hn)⟩
    -- the lease of the bracket was not out before
    rintro rfl
    exact leased_not_mem_outstanding p hn

/-- A closed bracket restores what was out if and only if its block does. -/
theorem Extends.frame_outstanding (h : p.lease.Extends q) (hp : p.Sound) :
    (q.giveBack p.leased).outstanding = p.outstanding ↔
      q.outstanding = p.lease.outstanding := by
  rw [outstanding_giveBack, hp.outstanding_lease]
  exact Finset.erase_eq_iff_eq_insert (h.leased_mem hp) (leased_not_mem_outstanding p)

/-- A bracket that is left open does not restore what was out. -/
theorem Extends.open_outstanding (h : p.lease.Extends q) (hp : p.Sound) :
    q.outstanding ≠ p.outstanding := by
  intro heq
  apply leased_not_mem_outstanding p
  rw [← heq]
  exact h.leased_mem hp

end Pool

end Bidding.Collections
