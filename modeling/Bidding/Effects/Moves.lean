import Bidding.Effects.Program
import Mathlib.Order.Defs.Unbundled

/-!
# Moves of a Run

How the state after a run is related to the state before it. A preorder that single commands
and blocks keep to is kept to by everything that is composed of them.

## Key Results

- **`Moves.seq`**, **`Moves.bind`**, **`Moves.attempt`**, **`Moves.forEach`**: the rules of
  composition.
- **`Issues.moves`**: the rule for actions that are known by their commands.
-/

namespace Bidding.Effects.Action

variable {C : Type} {R : C → Type} {S E α β : Type} {h : Handler C R S} {T : S → S → Prop}

/-- From every state, the state after `p` is related to the one before. -/
def Moves (h : Handler C R S) (T : S → S → Prop) (p : Action C R E α) : Prop :=
  ∀ s, T s (run h p s).2

theorem Moves.mono {T' : S → S → Prop} (hT : ∀ s t, T s t → T' s t) {p : Action C R E α}
    (hp : Moves h T p) : Moves h T' p :=
  fun s => hT s _ (hp s)

theorem Moves.attempt {p : Action C R E α} (hp : Moves h T p) :
    Moves h T (Action.attempt p) := by
  intro s
  rw [run_attempt]
  exact hp s

/-- Two blocks that keep to relations of their own. The second one may not be reached. -/
theorem Moves.seq {T₁ T₂ : S → S → Prop} {p : Action C R E α} {f : α → Action C R E β}
    (hp : Moves h T₁ p) (hf : ∀ a, Moves h T₂ (f a)) (hfirst : ∀ s t, T₁ s t → T s t)
    (hboth : ∀ s t u, T₁ s t → T₂ t u → T s u) : Moves h T (p >>= f) := by
  intro s
  have hstart : T₁ s (run h p s).2 := hp s
  rcases hrun : run h p s with ⟨e | a, t⟩
  · -- an exception of the first block ends the sequence
    rw [hrun] at hstart
    rw [run_bind_error hrun]
    exact hfirst s t hstart
  · rw [hrun] at hstart
    rw [run_bind_ok hrun]
    exact hboth s t _ hstart (hf a t)

variable [IsPreorder S T]

theorem moves_pure (a : α) : Moves h T (pure a : Action C R E α) := fun s => refl_of T s

theorem moves_throw (e : E) : Moves h T (Action.throw e : Action C R E α) :=
  fun s => refl_of T s

theorem moves_ofExcept (r : Except E α) : Moves h T (ofExcept r : Action C R E α) :=
  fun s => refl_of T s

theorem Moves.bind {p : Action C R E α} {f : α → Action C R E β} (hp : Moves h T p)
    (hf : ∀ a, Moves h T (f a)) : Moves h T (p >>= f) :=
  hp.seq hf (fun _ _ => id) fun _ _ _ => trans_of T

theorem Moves.forEach {body : α → Action C R E Unit} (hbody : ∀ a, Moves h T (body a))
    (l : List α) : Moves h T (Action.forEach l body) := by
  induction l with
  | nil => exact moves_pure ()
  | cons a as ih => exact (hbody a).bind fun _ => ih

/-- An action whose commands all move the state along `T`. -/
theorem Issues.moves {P : C → Prop} (hstep : ∀ c, P c → ∀ s, T s (h c s).2)
    {p : Action C R E α} (hp : Issues P p) : Moves h T p := by
  intro s
  exact hp.run_inv (I := T s) (fun c hc t ht => trans_of T ht (hstep c hc t)) (refl_of T s)

end Bidding.Effects.Action
