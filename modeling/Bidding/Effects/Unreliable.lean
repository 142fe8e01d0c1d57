import Bidding.Effects.Moves

/-!
# Commands That Fail

The semantics of a program in which any of the commands that can fail does so, according to a
plan: a failing command is answered by its failure and has no effect.

## Key Results

- **`unreliable_state`**: a command that is carried out or fails moves the state as the handler
  does, or not at all.
- **`Issues.moves_unreliable`**: what the commands of an action keep to, the action keeps to,
  whichever of them fail.
- **`MovesUnreliably.moves`**: in particular when nothing fails.
-/

namespace Bidding.Effects

variable {C : Type} {R : C → Type} {S E α : Type}

/-- Each command that can fail takes the next entry of the plan, and fails if that says so. When
    the plan is used up, nothing fails any more. -/
def unreliable (fails : (c : C) → Option (R c)) (h : Handler C R S) :
    Handler C R (S × List Bool) :=
  fun c st =>
    match fails c, st.2 with
    | some r, true :: plan => (r, (st.1, plan))
    | some _, false :: plan => ((h c st.1).1, ((h c st.1).2, plan))
    | _, plan => ((h c st.1).1, ((h c st.1).2, plan))

variable {fails : (c : C) → Option (R c)} {h : Handler C R S}

/-- A command leaves its effect, or none because it fails. -/
theorem unreliable_state (fails : (c : C) → Option (R c)) (h : Handler C R S) (c : C)
    (st : S × List Bool) :
    (unreliable fails h c st).2.1 = (h c st.1).2 ∨ (unreliable fails h c st).2.1 = st.1 := by
  unfold unreliable
  split
  · exact .inr rfl
  · exact .inl rfl
  · exact .inl rfl

namespace Action

variable {T : S → S → Prop}

/-- Whichever commands fail, the state after the action is related to the one before. -/
abbrev MovesUnreliably (fails : (c : C) → Option (R c)) (h : Handler C R S) (T : S → S → Prop)
    (p : Action C R E α) : Prop :=
  Moves (unreliable fails h) (fun x y => T x.1 y.1) p

instance [IsPreorder S T] : IsPreorder (S × List Bool) (fun x y => T x.1 y.1) where
  refl x := refl_of T x.1
  trans _ _ _ := trans_of T

/-- What each command keeps to, a run with failures keeps to. -/
theorem Issues.moves_unreliable [IsPreorder S T] {P : C → Prop}
    (hstep : ∀ c, P c → ∀ s, T s (h c s).2) {p : Action C R E α} (hp : Issues P p) :
    MovesUnreliably fails h T p := by
  apply Issues.moves (T := fun x y : S × List Bool => T x.1 y.1) _ hp
  intro c hc st
  show T st.1 (unreliable fails h c st).2.1
  rcases unreliable_state fails h c st with heq | heq
  · rw [heq]
    exact hstep c hc st.1
  · -- a command that fails leaves the state
    rw [heq]
    exact refl_of T st.1

/-- With an empty plan nothing fails. -/
theorem run_unreliable_nil (p : Action C R E α) (s : S) :
    run (unreliable fails h) p (s, []) = ((run h p s).1, ((run h p s).2, [])) := by
  unfold Action at p
  induction p generalizing s with
  | pure r => rfl
  | call c next ih =>
    -- no failure is planned for this command, and none for the later ones
    have hstep : unreliable fails h c (s, []) = ((h c s).1, ((h c s).2, [])) := by
      unfold unreliable
      split <;> simp_all
    show Program.run (unreliable fails h) (next (unreliable fails h c (s, [])).1)
      (unreliable fails h c (s, [])).2 = _
    rw [hstep]
    exact ih _ _

/-- What an action keeps to whatever fails, it keeps to when nothing fails. -/
theorem MovesUnreliably.moves {p : Action C R E α} (hp : MovesUnreliably fails h T p) :
    Moves h T p := by
  intro s
  have hmoved := hp (s, [])
  rw [run_unreliable_nil] at hmoved
  exact hmoved

end Action

end Bidding.Effects
