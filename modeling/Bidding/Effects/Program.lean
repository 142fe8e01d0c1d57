import Mathlib.Data.Nat.Notation
import Mathlib.Logic.Function.Basic

/-!
# Programs over Commands

A program that reaches the outside world only through commands, together with the
semantics obtained by answering every command from a state.

## Architecture

- **`Program C R α`**: a finite interaction, built from commands `c : C`; `R c` is the
  type of what may be answered to `c`.
- **`Handler C R S`**: answers commands from a state `S` and updates it.
- **`Action C R E α`**: a program whose result may be an exception of type `E`.
- **`Issues`**: which commands a program can issue at all, whatever is answered. An
  invariant that every such command keeps is kept by the whole run (`Issues.run_inv`).
- **`trace`**: the commands that a run does issue.

The exception layer is the one of a language with `try`/`catch`: `attempt` turns the
exception of a program into a value, so a `catch` block is a case split on that value.
-/

namespace Bidding.Effects

variable {C : Type} {R : C → Type} {S E α β : Type}

/-! ## Programs -/

/-- A finite interaction: either a value, or a command and what to do with its answer. -/
inductive Program (C : Type) (R : C → Type) (α : Type) : Type where
  /-- The interaction is over. -/
  | pure (value : α)
  /-- Issue `command` and continue with the answer. -/
  | call (command : C) (next : R command → Program C R α)

/-- Answers every command from a state. -/
def Handler (C : Type) (R : C → Type) (S : Type) : Type :=
  (c : C) → S → R c × S

namespace Program

/-- Sequential composition. -/
def bind (p : Program C R α) (f : α → Program C R β) : Program C R β :=
  match p with
  | .pure a => f a
  | .call c next => .call c (fun r => (next r).bind f)

/-- Run a program against a handler. -/
def run (h : Handler C R S) : Program C R α → S → α × S
  | .pure a, s => (a, s)
  | .call c next, s => (next (h c s).1).run h (h c s).2

theorem run_bind (h : Handler C R S) (p : Program C R α) (f : α → Program C R β) (s : S) :
    (p.bind f).run h s = (f (p.run h s).1).run h (p.run h s).2 := by
  induction p generalizing s with
  | pure a => rfl
  | call c next ih => exact ih _ _

/-- The commands that a run issues, in order. -/
def trace (h : Handler C R S) : Program C R α → S → List C
  | .pure _, _ => []
  | .call c next, s => c :: (next (h c s).1).trace h (h c s).2

theorem trace_bind (h : Handler C R S) (p : Program C R α) (f : α → Program C R β) (s : S) :
    (p.bind f).trace h s = p.trace h s ++ (f (p.run h s).1).trace h (p.run h s).2 := by
  induction p generalizing s with
  | pure a => rfl
  | call c next ih => exact congrArg (c :: ·) (ih _ _)

/-- `p.Issues P`: whatever is answered, `p` issues only commands that satisfy `P`. -/
def Issues (P : C → Prop) : Program C R α → Prop
  | .pure _ => True
  | .call c next => P c ∧ ∀ r, (next r).Issues P

theorem Issues.bind {P : C → Prop} {p : Program C R α} {f : α → Program C R β}
    (hp : p.Issues P) (hf : ∀ a, (f a).Issues P) : (p.bind f).Issues P := by
  induction p with
  | pure a => exact hf a
  | call c next ih => exact ⟨hp.1, fun r => ih r (hp.2 r)⟩

/-- The invariant rule: what every issued command keeps, the run keeps. -/
theorem Issues.run_inv {P : C → Prop} {h : Handler C R S} {I : S → Prop}
    (hstep : ∀ c, P c → ∀ s, I s → I (h c s).2) {p : Program C R α} (hp : p.Issues P)
    {s : S} (hs : I s) : I (p.run h s).2 := by
  induction p generalizing s with
  | pure a => exact hs
  | call c next ih => exact ih _ (hp.2 _) (hstep c hp.1 s hs)

theorem Issues.trace {P : C → Prop} {p : Program C R α} (hp : p.Issues P) (h : Handler C R S)
    (s : S) : ∀ c ∈ p.trace h s, P c := by
  induction p generalizing s with
  | pure a => exact fun c hc => nomatch hc
  | call c next ih => exact List.forall_mem_cons.mpr ⟨hp.1, ih _ (hp.2 _) _⟩

/-- Whatever is answered, the result satisfies `Q`. -/
def Ensures (Q : α → Prop) : Program C R α → Prop
  | .pure a => Q a
  | .call _ next => ∀ r, (next r).Ensures Q

theorem Ensures.bind {P : α → Prop} {Q : β → Prop} {p : Program C R α}
    {f : α → Program C R β} (hp : p.Ensures P) (hf : ∀ a, P a → (f a).Ensures Q) :
    (p.bind f).Ensures Q := by
  induction p with
  | pure a => exact hf a hp
  | call c next ih => exact fun r => ih r (hp r)

theorem Ensures.run {Q : α → Prop} {p : Program C R α} (hp : p.Ensures Q)
    (h : Handler C R S) (s : S) : Q (p.run h s).1 := by
  induction p generalizing s with
  | pure a => exact hp
  | call c next ih => exact ih _ (hp _) _

end Program

/-! ## Programs that may throw -/

/-- A program whose result may be an exception. -/
def Action (C : Type) (R : C → Type) (E : Type) (α : Type) : Type :=
  Program C R (Except E α)

namespace Action

/-- Run an action against a handler: a value or an exception, and the state left behind. -/
def run (h : Handler C R S) (p : Action C R E α) (s : S) : Except E α × S :=
  Program.run h p s

/-- Throw an exception. -/
protected def throw (e : E) : Action C R E α :=
  Program.pure (.error e)

/-- The action of an already computed result. -/
def ofExcept (r : Except E α) : Action C R E α :=
  Program.pure r

/-- Issue one command whose answer may be an exception. -/
def perform (c : C) (answer : R c → Except E α) : Action C R E α :=
  Program.call c (fun r => Program.pure (answer r))

/-- Run `p` and hand its exception, if any, to the caller as a value. -/
def attempt (p : Action C R E α) : Action C R E (Except E α) :=
  Program.bind p (fun r => Program.pure (.ok r))

instance : Monad (Action C R E) where
  pure a := Program.pure (.ok a)
  bind p f := Program.bind p (fun r => match r with
    | .ok a => f a
    | .error e => Program.pure (.error e))

/-- `for (a : l) body(a);` -/
def forEach (l : List α) (body : α → Action C R E Unit) : Action C R E Unit :=
  match l with
  | [] => pure ()
  | a :: as => do
    body a
    forEach as body

section Run

variable (h : Handler C R S)

@[simp] theorem run_pure (a : α) (s : S) :
    run h (pure a : Action C R E α) s = (.ok a, s) := rfl

@[simp] theorem run_throw (e : E) (s : S) :
    run h (Action.throw e : Action C R E α) s = (.error e, s) := rfl

@[simp] theorem run_ofExcept (r : Except E α) (s : S) :
    run h (ofExcept r : Action C R E α) s = (r, s) := rfl

@[simp] theorem run_perform (c : C) (answer : R c → Except E α) (s : S) :
    run h (perform c answer) s = (answer (h c s).1, (h c s).2) := rfl

/-- An exception of the first action is the one of the sequence. -/
theorem run_bind (p : Action C R E α) (f : α → Action C R E β) (s : S) :
    run h (p >>= f) s = match run h p s with
      | (.ok a, t) => run h (f a) t
      | (.error e, t) => (.error e, t) := by
  refine (Program.run_bind h p _ s).trans ?_
  unfold Action.run
  rcases Program.run h p s with ⟨a | a, t⟩ <;> rfl

/-- `attempt` hands the exception on as a value. -/
theorem run_attempt (p : Action C R E α) (s : S) :
    run h (attempt p) s = (.ok (run h p s).1, (run h p s).2) :=
  Program.run_bind h p _ s

variable {h}

/-- The rule for sequencing after a normal return. -/
theorem run_bind_ok {p : Action C R E α} {f : α → Action C R E β} {s t : S} {a : α}
    (hp : run h p s = (.ok a, t)) : run h (p >>= f) s = run h (f a) t := by
  rw [run_bind, hp]

/-- The rule for sequencing after an exception. -/
theorem run_bind_error {p : Action C R E α} {f : α → Action C R E β} {s t : S} {e : E}
    (hp : run h p s = (.error e, t)) : run h (p >>= f) s = (.error e, t) := by
  rw [run_bind, hp]

/-- The rule for sequencing, whatever the first action does. -/
theorem run_bind_rule {Q : Except E β × S → Prop} {p : Action C R E α} {f : α → Action C R E β}
    {s : S} (herror : ∀ e t, run h p s = (.error e, t) → Q (.error e, t))
    (hok : ∀ a t, run h p s = (.ok a, t) → Q (run h (f a) t)) : Q (run h (p >>= f) s) := by
  rcases hp : run h p s with ⟨e | a, t⟩
  · rw [run_bind_error hp]
    exact herror e t hp
  · rw [run_bind_ok hp]
    exact hok a t hp

/-- The rule for a `try` block: its outcome becomes a value. -/
theorem run_attempt_of {p : Action C R E α} {s t : S} {r : Except E α}
    (hp : run h p s = (r, t)) : run h (attempt p) s = (.ok r, t) := by
  rw [run_attempt, hp]

/-- The rule for a loop whose body returns normally and moves the state by `f`. -/
theorem run_forEach {body : α → Action C R E Unit} {f : S → α → S} {l : List α}
    (hbody : ∀ a ∈ l, ∀ s, run h (body a) s = (.ok (), f s a)) (s : S) :
    run h (forEach l body) s = (.ok (), l.foldl f s) := by
  induction l generalizing s with
  | nil => rfl
  | cons a as ih =>
    refine (run_bind_ok (hbody a (List.mem_cons_self ..) s)).trans ?_
    exact ih (fun b hb => hbody b (List.mem_cons_of_mem a hb)) (f s a)

/-- A loop returns normally if its body always does. -/
theorem run_forEach_ok {body : α → Action C R E Unit}
    (hbody : ∀ a s, (run h (body a) s).1 = .ok ()) (l : List α) (s : S) :
    (run h (forEach l body) s).1 = .ok () := by
  induction l generalizing s with
  | nil => rfl
  | cons a as ih =>
    have hrun : run h (body a) s = (.ok (), (run h (body a) s).2) :=
      Prod.ext (hbody a s) rfl
    exact (congrArg Prod.fst (run_bind_ok hrun)).trans (ih _)

end Run

/-! ## Commands an action can issue -/

/-- `p.Issues P`: whatever is answered, `p` issues only commands that satisfy `P`. -/
def Issues (P : C → Prop) (p : Action C R E α) : Prop :=
  Program.Issues P p

section Issues

variable {P Q : C → Prop}

@[simp] theorem issues_pure (a : α) : Issues P (pure a : Action C R E α) := trivial

@[simp] theorem issues_throw (e : E) : Issues P (Action.throw e : Action C R E α) := trivial

@[simp] theorem issues_ofExcept (r : Except E α) :
    Issues P (ofExcept r : Action C R E α) := trivial

theorem issues_perform {c : C} {answer : R c → Except E α} (hc : P c) :
    Issues P (perform c answer) :=
  ⟨hc, fun _ => trivial⟩

theorem issues_bind {p : Action C R E α} {f : α → Action C R E β}
    (hp : Issues P p) (hf : ∀ a, Issues P (f a)) : Issues P (p >>= f) := by
  refine Program.Issues.bind hp ?_
  rintro (e | a)
  · trivial
  · exact hf a

theorem issues_attempt {p : Action C R E α} (hp : Issues P p) : Issues P (attempt p) :=
  Program.Issues.bind hp (fun _ => trivial)

/-- A loop issues what its body can issue for one of the elements. -/
theorem issues_forEach {l : List α} {body : α → Action C R E Unit}
    (hbody : ∀ a ∈ l, Issues P (body a)) : Issues P (forEach l body) := by
  induction l with
  | nil => trivial
  | cons a as ih =>
    exact issues_bind (hbody a List.mem_cons_self)
      (fun _ => ih fun b hb => hbody b (List.mem_cons_of_mem a hb))

theorem Issues.mono (hPQ : ∀ c, P c → Q c) {p : Action C R E α} (hp : Issues P p) :
    Issues Q p := by
  unfold Action at p
  induction p with
  | pure r => trivial
  | call c next ih => exact ⟨hPQ c hp.1, fun r => ih r (hp.2 r)⟩

/-- The invariant rule for actions, with exceptions on the way or not. -/
theorem Issues.run_inv {h : Handler C R S} {I : S → Prop}
    (hstep : ∀ c, P c → ∀ s, I s → I (h c s).2) {p : Action C R E α} (hp : Issues P p)
    {s : S} (hs : I s) : I (run h p s).2 :=
  Program.Issues.run_inv hstep hp hs

/-- The invariant rule for an invariant that every command keeps. -/
theorem run_inv {h : Handler C R S} {I : S → Prop} (hstep : ∀ c s, I s → I (h c s).2)
    (p : Action C R E α) {s : S} (hs : I s) : I (run h p s).2 := by
  unfold Action at p
  induction p generalizing s with
  | pure r => exact hs
  | call c next ih => exact ih _ (hstep c s hs)

end Issues

/-! ## Commands a run issues -/

/-- The commands that a run issues, in order. -/
def trace (h : Handler C R S) (p : Action C R E α) (s : S) : List C :=
  Program.trace h p s

section Trace

variable {h : Handler C R S} {c : C}

theorem mem_trace_perform {c' : C} {answer : R c' → Except E α} {s : S} :
    c ∈ trace h (perform c' answer) s ↔ c = c' :=
  List.mem_singleton

/-- A sequence issues what its first action issues and, if that returns normally, what the
    second one does. -/
theorem mem_trace_bind {p : Action C R E α} {f : α → Action C R E β} {s : S} :
    c ∈ trace h (p >>= f) s ↔ c ∈ trace h p s ∨
      ∃ a t, run h p s = (.ok a, t) ∧ c ∈ trace h (f a) t := by
  have htrace : trace h (p >>= f) s = trace h p s ++ _ := Program.trace_bind h p _ s
  rw [htrace, List.mem_append]
  apply or_congr_right
  unfold Action.run
  rcases Program.run h p s with ⟨e | a, t⟩
  · -- after an exception the second action is not reached
    constructor
    · intro hc
      cases hc
    · intro hc
      rcases hc with ⟨_, _, hrun, -⟩
      cases hrun
  · constructor
    · intro hc
      exact ⟨a, t, rfl, hc⟩
    · intro hc
      rcases hc with ⟨_, _, hrun, hc⟩
      cases hrun
      exact hc

/-- `attempt` issues no command of its own. -/
theorem mem_trace_attempt {p : Action C R E α} {s : S} :
    c ∈ trace h (attempt p) s ↔ c ∈ trace h p s := by
  have htrace : trace h (attempt p) s = trace h p s ++ [] := Program.trace_bind h p _ s
  rw [htrace, List.append_nil]

theorem Issues.not_mem_trace {P : C → Prop} {p : Action C R E α} (hp : Issues P p)
    (hc : ¬ P c) (s : S) : c ∉ trace h p s :=
  fun hmem => hc (Program.Issues.trace hp h s c hmem)

end Trace

/-! ## What an action returns -/

/-- `p.Yields P`: whatever is answered, the value of `p` satisfies `P`, if it has one. -/
def Yields (P : α → Prop) (p : Action C R E α) : Prop :=
  Program.Ensures (fun r : Except E α => ∀ a, r = .ok a → P a) p

/-- `p.Returns P`: whatever is answered, `p` returns a value that satisfies `P`. -/
def Returns (P : α → Prop) (p : Action C R E α) : Prop :=
  Program.Ensures (fun r : Except E α => ∃ a, r = .ok a ∧ P a) p

section Returns

variable {P : α → Prop} {Q : β → Prop}

theorem yields_true (p : Action C R E α) : Yields (fun _ => True) p := by
  unfold Action at p
  induction p with
  | pure r => exact fun _ _ => trivial
  | call c next ih => exact fun r => ih r

theorem yields_bind {p : Action C R E α} {f : α → Action C R E β} (hp : Yields P p)
    (hf : ∀ a, P a → Yields Q (f a)) : Yields Q (p >>= f) := by
  refine Program.Ensures.bind hp ?_
  rintro (e | a) h
  · exact fun _ hb => nomatch hb
  · exact hf a (h a rfl)

/-- An action that returns such a value yields it. -/
theorem Returns.yields {p : Action C R E α} (hp : Returns P p) : Yields P p := by
  unfold Action at p
  induction p with
  | pure r =>
    obtain ⟨a, rfl, ha⟩ := hp
    exact fun _ hb => Except.ok.inj hb ▸ ha
  | call c next ih => exact fun r => ih r (hp r)

theorem returns_pure {a : α} (h : P a) : Returns P (pure a : Action C R E α) := ⟨a, rfl, h⟩

theorem returns_perform {c : C} {answer : R c → Except E α}
    (h : ∀ r, ∃ a, answer r = .ok a ∧ P a) : Returns P (perform c answer) := h

theorem returns_bind {p : Action C R E α} {f : α → Action C R E β} (hp : Returns P p)
    (hf : ∀ a, P a → Returns Q (f a)) : Returns Q (p >>= f) := by
  refine Program.Ensures.bind hp ?_
  rintro _ ⟨a, rfl, ha⟩
  exact hf a ha

/-- An exception that is caught is a value. -/
theorem returns_attempt {p : Action C R E α} (hp : Yields P p) :
    Returns (fun r : Except E α => ∀ a, r = .ok a → P a) (attempt p) :=
  Program.Ensures.bind hp (fun r hr => ⟨r, rfl, hr⟩)

theorem Returns.run {p : Action C R E α} (hp : Returns P p) (h : Handler C R S) (s : S) :
    ∃ a t, run h p s = (.ok a, t) ∧ P a := by
  obtain ⟨a, ha, hP⟩ := Program.Ensures.run hp h s
  exact ⟨a, _, Prod.ext ha rfl, hP⟩

end Returns

end Action

end Bidding.Effects
