import Bidding.Effects.Program

/-!
# One Failing Command

The semantics of a program in which exactly one command, the `k`-th of those that can
fail, is answered by a failure and has no effect; all others are answered as usual.

A run with a fault is followed call by call: the fault falls into the first action of a
sequence, and what comes after it runs as usual, or it falls behind that action, which then
runs as usual itself. Which of the two it is depends on how many commands of the first action
can fail (`fallible`).

## Key Results

- **`run_faulty_none`**: after the failure the run goes on as if nothing could fail.
- **`withFault_bind_of_lt`**, **`withFault_bind_of_le`**: the two ways through a sequence.
- **`Issues.withFault_inv`**: what every command keeps, a run with a fault keeps.
-/

namespace Bidding.Effects

variable {C : Type} {R : C → Type} {S E α β : Type}

/-- Answer the command on which the countdown `some 0` falls by its failure. Commands with
    `fails c = none` cannot fail and do not count. -/
def faulty (fails : (c : C) → Option (R c)) (h : Handler C R S) :
    Handler C R (S × Option ℕ) :=
  fun c st =>
    match fails c, st.2 with
    | some r, some 0 => (r, (st.1, none))
    | some _, some (k + 1) => ((h c st.1).1, ((h c st.1).2, some k))
    | _, n => ((h c st.1).1, ((h c st.1).2, n))

/-- A command leaves its effect, or none because it fails. -/
theorem faulty_snd (fails : (c : C) → Option (R c)) (h : Handler C R S) (c : C)
    (st : S × Option ℕ) :
    (faulty fails h c st).2.1 = (h c st.1).2 ∨ (faulty fails h c st).2.1 = st.1 := by
  obtain ⟨s, n⟩ := st
  unfold faulty
  cases fails c with
  | none => exact .inl rfl
  | some r =>
    -- only a countdown that is at zero swallows the effect
    rcases n with _ | _ | k
    · exact .inl rfl
    · exact .inr rfl
    · exact .inl rfl

namespace Program

variable (fails : (c : C) → Option (R c)) (h : Handler C R S)

/-- Once the fault is spent, the run goes on as if nothing could fail. -/
theorem run_faulty_none (p : Program C R α) (s : S) :
    p.run (faulty fails h) (s, none) = ((p.run h s).1, ((p.run h s).2, none)) := by
  induction p generalizing s with
  | pure a => rfl
  | call c next ih =>
    simp only [run, faulty]
    cases fails c <;> exact ih _ _

/-- How many of the commands of a run can fail. -/
def fallible : Program C R α → S → ℕ
  | .pure _, _ => 0
  | .call c next, s =>
    (if (fails c).isSome then 1 else 0) + (next (h c s).1).fallible (h c s).2

theorem fallible_bind (p : Program C R α) (f : α → Program C R β) (s : S) :
    (p.bind f).fallible fails h s =
      p.fallible fails h s + (f (p.run h s).1).fallible fails h (p.run h s).2 := by
  induction p generalizing s with
  | pure a => exact (Nat.zero_add _).symm
  | call c next ih => exact (congrArg (_ + ·) (ih _ _)).trans (Nat.add_assoc _ _ _).symm

variable {fails h} {p : Program C R α} {k : ℕ} {s : S}

/-- A fault behind a program leaves its run as it is. -/
theorem run_faulty_of_le (hk : p.fallible fails h s ≤ k) :
    p.run (faulty fails h) (s, some k) =
      ((p.run h s).1, ((p.run h s).2, some (k - p.fallible fails h s))) := by
  induction p generalizing s k with
  | pure a => rfl
  | call c next ih =>
    simp only [fallible] at hk ⊢
    cases hc : fails c with
    -- the command cannot fail, and the countdown stays
    | none =>
      simp only [hc, Option.isSome_none, Bool.false_eq_true, if_false, Nat.zero_add] at hk ⊢
      simp only [run, faulty, hc]
      exact ih _ hk
    | some r =>
      simp only [hc, Option.isSome_some, if_true] at hk ⊢
      -- the countdown goes down by one, and is not at zero yet
      obtain ⟨j, rfl⟩ : ∃ j, k = j + 1 := Nat.exists_eq_add_one.mpr (by omega)
      simp only [run, faulty, hc]
      rw [ih _ (by omega)]
      congr 3
      omega

/-- A fault within a program is spent at its end. -/
theorem run_faulty_of_lt (hk : k < p.fallible fails h s) :
    (p.run (faulty fails h) (s, some k)).2.2 = none := by
  induction p generalizing s k with
  | pure a => exact absurd hk (Nat.not_lt_zero k)
  | call c next ih =>
    simp only [fallible] at hk
    cases hc : fails c with
    | none =>
      simp only [hc, Option.isSome_none, Bool.false_eq_true, if_false, Nat.zero_add] at hk
      simp only [run, faulty, hc]
      exact ih _ hk
    | some r =>
      simp only [hc, Option.isSome_some, if_true] at hk
      simp only [run, faulty, hc]
      cases k with
      -- this command is the one that fails
      | zero => exact congrArg (fun out => out.2.2) (run_faulty_none fails h (next r) s)
      | succ k =>
        have hk' : k < (next (h c s).1).fallible fails h (h c s).2 := by omega
        exact ih _ hk'

end Program

namespace Action

variable (fails : (c : C) → Option (R c)) (h : Handler C R S)

/-- Run an action in which the `k`-th command that can fail does so. -/
def withFault (p : Action C R E α) (k : ℕ) (s : S) : Except E α × S :=
  let out := run (faulty fails h) p (s, some k)
  (out.1, out.2.1)

/-- How many of the commands of a run can fail. -/
def fallible (p : Action C R E α) (s : S) : ℕ := Program.fallible fails h p s

section Faults

variable {fails h} {p : Action C R E α} {f : α → Action C R E β} {k : ℕ} {s t : S} {a : α}

theorem fallible_bind_ok (hp : run h p s = (.ok a, t)) :
    fallible fails h (p >>= f) s = fallible fails h p s + fallible fails h (f a) t := by
  refine (Program.fallible_bind fails h p _ s).trans ?_
  have hp' : Program.run h p s = (.ok a, t) := hp
  rw [hp']
  rfl

theorem fallible_attempt : fallible fails h (attempt p) s = fallible fails h p s :=
  Program.fallible_bind fails h p _ s

/-- A fault behind the whole action leaves the run as it is. -/
theorem withFault_of_le (hk : fallible fails h p s ≤ k) : withFault fails h p k s = run h p s := by
  unfold withFault run
  rw [Program.run_faulty_of_le hk]

/-- The fault falls behind the first action, which runs as usual. -/
theorem withFault_bind_of_le (hp : run h p s = (.ok a, t)) (hk : fallible fails h p s ≤ k) :
    withFault fails h (p >>= f) k s = withFault fails h (f a) (k - fallible fails h p s) t := by
  have hp' : run (faulty fails h) p (s, some k) =
      (.ok a, (t, some (k - fallible fails h p s))) := by
    refine (Program.run_faulty_of_le hk).trans ?_
    have hrun : Program.run h p s = (.ok a, t) := hp
    rw [hrun]
    rfl
  unfold withFault
  rw [run_bind_ok hp']

/-- The fault falls into the first action: the rest runs as usual, if there is one. -/
theorem withFault_bind_of_lt (hk : k < fallible fails h p s) :
    withFault fails h (p >>= f) k s = match withFault fails h p k s with
      | (.ok a, t) => run h (f a) t
      | (.error e, t) => (.error e, t) := by
  have hspent : (run (faulty fails h) p (s, some k)).2.2 = none := Program.run_faulty_of_lt hk
  unfold withFault
  rw [run_bind]
  rcases hp : run (faulty fails h) p (s, some k) with ⟨e | a, t, n⟩
  · rfl
  · rw [hp] at hspent
    -- the fault is spent, so the rest is a usual run
    obtain rfl : n = none := hspent
    have hrest : run (faulty fails h) (f a) (t, none) = _ := Program.run_faulty_none fails h (f a) t
    simp only [hrest]
    rfl

theorem withFault_bind_ok (hk : k < fallible fails h p s)
    (hp : withFault fails h p k s = (.ok a, t)) :
    withFault fails h (p >>= f) k s = run h (f a) t := by
  rw [withFault_bind_of_lt hk, hp]

theorem withFault_bind_error {e : E} (hk : k < fallible fails h p s)
    (hp : withFault fails h p k s = (.error e, t)) :
    withFault fails h (p >>= f) k s = (.error e, t) := by
  rw [withFault_bind_of_lt hk, hp]

/-- A `try` block around the failing action catches its exception. -/
theorem withFault_attempt :
    withFault fails h (attempt p) k s =
      (.ok (withFault fails h p k s).1, (withFault fails h p k s).2) := by
  unfold withFault
  rw [run_attempt]

/-- Nothing is issued after the first action. -/
theorem withFault_ofExcept (g : α → Except E β) :
    withFault fails h (p >>= fun a => ofExcept (g a)) k s =
      ((withFault fails h p k s).1.bind g, (withFault fails h p k s).2) := by
  unfold withFault
  rw [run_bind]
  rcases run (faulty fails h) p (s, some k) with ⟨e | a, t⟩ <;> rfl

/-- What every command keeps, a run with a fault keeps. -/
theorem Issues.withFault_inv {P : C → Prop} {I : S → Prop}
    (hstep : ∀ c, P c → ∀ s, I s → I (h c s).2) (hp : Issues P p) (hs : I s) :
    I (withFault fails h p k s).2 := by
  refine Program.Issues.run_inv (I := fun st : S × Option ℕ => I st.1) ?_ hp hs
  intro c hc st hst
  rcases faulty_snd fails h c st with heq | heq
  · rw [heq]
    exact hstep c hc _ hst
  · rw [heq]
    exact hst

theorem withFault_inv {I : S → Prop} (hstep : ∀ c s, I s → I (h c s).2)
    (p : Action C R E α) (k : ℕ) (hs : I s) : I (withFault fails h p k s).2 := by
  refine run_inv (I := fun st : S × Option ℕ => I st.1) ?_ p hs
  intro c st hst
  -- a command that fails leaves the state
  rcases faulty_snd fails h c st with heq | heq
  · rw [heq]
    exact hstep c _ hst
  · rw [heq]
    exact hst

theorem Returns.withFault {P : α → Prop} (hp : Returns P p) :
    ∃ a t, withFault fails h p k s = (.ok a, t) ∧ P a := by
  obtain ⟨a, st, hrun, ha⟩ := hp.run (faulty fails h) (s, some k)
  refine ⟨a, st.1, ?_, ha⟩
  unfold Action.withFault
  rw [hrun]

end Faults

end Action

/-! ## Places in a sequence of parts -/

/-- The part of a sequence into which the number `k` falls, and its place there. The last part
    has no end. -/
def locate {τ : Type} (last : τ) : List (τ × ℕ) → ℕ → τ × ℕ
  | [], k => (last, k)
  | (part, size) :: parts, k => if k < size then (part, k) else locate last parts (k - size)

/-- The number falls into the first part, or behind it. -/
theorem locate_cons_rule {τ : Type} {last part : τ} {size : ℕ} {parts : List (τ × ℕ)}
    {P : ℕ → τ × ℕ → Prop} (hfirst : ∀ k, k < size → P k (part, k))
    (hrest : ∀ k, P (k + size) (locate last parts k)) (k : ℕ) :
    P k (locate last ((part, size) :: parts) k) := by
  unfold locate
  split
  · next hk => exact hfirst k hk
  · next hk =>
    have hplace := hrest (k - size)
    rwa [Nat.sub_add_cancel (Nat.le_of_not_lt hk)] at hplace

end Bidding.Effects
