import Mathlib.Data.List.Basic

/-!
# Runs of Events

A run of a deterministic system is a list of events, folded over a start state. A condition
on steps holds along a run when every event meets it in the state in which it happens.

## Key Results

- **`Along.inv`**: the invariant rule for runs whose steps all meet a condition.
- **`run_inv`**, **`along_of_inv`**: the invariant rules for all runs.
- **`run_simulates`**: the rule for two systems that step together.
- **`Along.exhausts`**: the rule for runs that come to an end, from a budget of events.
- **`Along.imp`**, **`Along.congr`**: a condition on steps that gives another one, or agrees
  with it, where an invariant holds; **`Along.congr_of`** also where a third condition does.
-/

namespace Bidding.Effects

variable {S Ev : Type} {step : S → Ev → S}

/-- Every event of the run meets `P` in the state in which it happens. -/
def Along (step : S → Ev → S) (P : S → Ev → Prop) : S → List Ev → Prop
  | _, [] => True
  | s, e :: es => P s e ∧ Along step P (step s e) es

instance Along.decidable {P : S → Ev → Prop} [∀ s e, Decidable (P s e)] :
    (s : S) → (es : List Ev) → Decidable (Along step P s es)
  | _, [] => inferInstanceAs (Decidable True)
  | s, e :: es =>
    @instDecidableAnd (P s e) (Along step P (step s e) es) _ (Along.decidable (step s e) es)

/-- What each step keeps under its condition, the run keeps. -/
theorem Along.inv {P : S → Ev → Prop} {I : S → Prop}
    (hstep : ∀ s e, I s → P s e → I (step s e)) {s : S} {es : List Ev}
    (hrun : Along step P s es) (hs : I s) : I (es.foldl step s) := by
  induction es generalizing s with
  | nil => exact hs
  | cons e es ih => exact ih hrun.2 (hstep s e hs hrun.1)

/-- The invariant rule for runs without a condition on steps. -/
theorem run_inv {I : S → Prop} (hstep : ∀ s e, I s → I (step s e)) {s : S} (hs : I s)
    (es : List Ev) : I (es.foldl step s) := by
  induction es generalizing s with
  | nil => exact hs
  | cons e es ih => exact ih (hstep s e hs)

/-- What relates the steps of two systems on the same events relates their runs. -/
theorem run_simulates {T Ev' : Type} {step' : T → Ev' → T} {f : Ev → Ev'} {R : S → T → Prop}
    (hstep : ∀ s t e, R s t → R (step s e) (step' t (f e))) {s : S} {t : T} (hs : R s t)
    (es : List Ev) : R (es.foldl step s) ((es.map f).foldl step' t) := by
  induction es generalizing s t with
  | nil => exact hs
  | cons e es ih => exact ih (hstep s t e hs)

/-- A condition that every step meets from a state in which the invariant holds, holds along
    every run from such a state. -/
theorem along_of_inv {Q : S → Ev → Prop} {I : S → Prop}
    (hstep : ∀ s e, I s → Q s e ∧ I (step s e)) {s : S} (hs : I s) (es : List Ev) :
    Along step Q s es := by
  induction es generalizing s with
  | nil => trivial
  | cons e es ih => exact ⟨(hstep s e hs).1, ih (hstep s e hs).2⟩

/-- A condition on steps gives another one along a run if it does so for every step from a
    state in which the invariant holds, and keeps the invariant. -/
theorem Along.imp {P Q : S → Ev → Prop} {I : S → Prop} {es : List Ev}
    (hstep : ∀ s, ∀ e ∈ es, I s → P s e → Q s e ∧ I (step s e)) {s : S}
    (hrun : Along step P s es) (hs : I s) : Along step Q s es := by
  induction es generalizing s with
  | nil => trivial
  | cons e es ih =>
    obtain ⟨hq, hnext⟩ := hstep s e List.mem_cons_self hs hrun.1
    exact ⟨hq, ih (fun s e' he' => hstep s e' (List.mem_cons_of_mem e he')) hrun.2 hnext⟩

/-- Two conditions are the same along a run that meets a third one if they are the same for every
    step that meets it, from a state in which the invariant holds, and keep the invariant. -/
theorem Along.congr_of {P Q R : S → Ev → Prop} {I : S → Prop}
    (hiff : ∀ s e, I s → R s e → (P s e ↔ Q s e))
    (hstep : ∀ s e, I s → R s e → P s e → I (step s e)) {s : S} {es : List Ev}
    (hrun : Along step R s es) (hs : I s) : Along step P s es ↔ Along step Q s es := by
  induction es generalizing s with
  | nil => exact Iff.rfl
  | cons e es ih =>
    show P s e ∧ _ ↔ Q s e ∧ _
    rw [← hiff s e hs hrun.1]
    exact and_congr_right (fun hp => ih hrun.2 (hstep s e hs hrun.1 hp))

/-- Two conditions are the same along a run if they are the same for every step from a state
    in which the invariant holds, and keep the invariant. -/
theorem Along.congr {P Q : S → Ev → Prop} {I : S → Prop} {es : List Ev}
    (hiff : ∀ s e, I s → (P s e ↔ Q s e)) (hstep : ∀ s e, I s → P s e → I (step s e)) {s : S}
    (hs : I s) : Along step P s es ↔ Along step Q s es := by
  have hrun : Along step (fun _ _ => True) s es :=
    along_of_inv (I := fun _ => True) (fun _ _ _ => ⟨trivial, trivial⟩) trivial es
  exact hrun.congr_of (fun s e hI _ => hiff s e hI) (fun s e hI _ => hstep s e hI) hs

/-- A run that comes to an end. `B k s` says that `k` more working events are enough from `s`; a
    working event needs one less, any other event needs at most one more, and nothing that is at
    its end goes on. -/
theorem Along.exhausts {P : S → Ev → Prop} {B : ℕ → S → Prop} {work : Ev → Bool}
    (hdone : ∀ s e, B 0 s → P s e → B 0 (step s e))
    (hwork : ∀ k s e, B (k + 1) s → P s e → work e = true → B k (step s e))
    (hrest : ∀ k s e, B k s → P s e → work e = false → B (k + 1) (step s e)) {k : ℕ} {s : S}
    {es : List Ev} (hrun : Along step P s es) (hs : B k s)
    (hlong : k + es.countP (fun e => !work e) ≤ es.countP work) : B 0 (es.foldl step s) := by
  induction es generalizing k s with
  | nil =>
    obtain rfl : k = 0 := by simpa using hlong
    exact hs
  | cons e es ih =>
    cases k with
    -- the end is reached, and nothing leads away from it
    | zero => exact hrun.2.inv (fun t e' ht he' => hdone t e' ht he') (hdone s e hs hrun.1)
    | succ k =>
      cases he : work e with
      -- one working event less is needed, and one less is left
      | true =>
        apply ih hrun.2 (hwork k s e hs hrun.1 he)
        simp only [List.countP_cons, he, Bool.not_true, Bool.false_eq_true, if_false, if_true]
          at hlong
        omega
      -- one more is needed, which the length of the run allows for
      | false =>
        apply ih hrun.2 (hrest (k + 1) s e hs hrun.1 he)
        simp only [List.countP_cons, he, Bool.not_false, Bool.false_eq_true, if_false, if_true]
          at hlong
        omega

end Bidding.Effects
