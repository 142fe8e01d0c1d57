import Bidding.Effects.Program
import Bidding.Effects.Runs

/-!
# Interleaved Programs

Programs that run at the same time on one shared state. A scheduler picks a program, which
then has its next command carried out; commands are atomic. A command can also fail, if its
thread is one whose commands may fail.

## Architecture

- **`Pool`**: what is left of each thread, the shared state, and the log of the commands that
  were carried out.
- **`Pool.step`**: one move of the scheduler. A thread that crashes is one that gets no turn
  any more.
- **`Shared.Did`**: what the log says that a thread has done.
- **`Discipline`**: a rely/guarantee discipline. What a thread does meets the `rely` of every
  other thread (`guar`). The conditions `cond` and `tol` are on the scheduler: which command of
  which thread is carried out in which state, and which one can fail there.
- **`Secures D i Q p g`**: from `g` the program `p`, run by the thread `i` under the
  discipline, ends with `Q`; **`Delivers`** is the same for an action that does not throw.

## Key Results

- **`secures_run`**: threads that secure their results at the start do so after every
  schedule that meets the condition.
-/

namespace Bidding.Effects

/-! ## Pools of threads -/

/-- The shared state, and the commands that were carried out, with the thread of each. -/
structure Shared (ι C S : Type) where
  state : S
  log : List (ι × C)

/-- What the scheduler does: give a thread a turn, or let its next command fail. -/
inductive Move (ι : Type) where
  | turn (i : ι)
  | fail (i : ι)

section Pool

variable {C : Type} {R : C → Type} {S ι : Type} {α : ι → Type}

/-- A command of a thread is carried out. -/
def Shared.issue (h : Handler C R S) (i : ι) (c : C) (g : Shared ι C S) : Shared ι C S where
  state := (h c g.state).2
  log := g.log ++ [(i, c)]

/-- Threads and what they share. -/
structure Pool (C : Type) (R : C → Type) (S : Type) {ι : Type} (α : ι → Type) where
  threads : (i : ι) → Program C R (α i)
  shared : Shared ι C S

namespace Pool

/-- The next command of a thread. -/
def next (p : Pool C R S α) (i : ι) : Option C :=
  match p.threads i with
  | .pure _ => none
  | .call c _ => some c

/-- The result of a thread that has ended. -/
def result (p : Pool C R S α) (i : ι) : Option (α i) :=
  match p.threads i with
  | .pure a => some a
  | .call _ _ => none

/-- A thread with a result is at its end. -/
theorem threads_of_result {p : Pool C R S α} {i : ι} {a : α i} (h : p.result i = some a) :
    p.threads i = .pure a := by
  unfold result at h
  cases hthread : p.threads i with
  | pure b =>
    rw [hthread] at h
    rw [Option.some.inj h]
  | call c next =>
    rw [hthread] at h
    cases h

theorem next_of_call {p : Pool C R S α} {i : ι} {c : C} {next : R c → Program C R (α i)}
    (hp : p.threads i = .call c next) : p.next i = some c := by
  simp only [Pool.next, hp]

variable [DecidableEq ι] (h : Handler C R S) (faults : ι → (c : C) → Option (R c))

/-- A thread goes on with the rest of its program. -/
def resume (p : Pool C R S α) (i : ι) (rest : Program C R (α i)) (g : Shared ι C S) :
    Pool C R S α where
  threads := Function.update p.threads i rest
  shared := g

/-- The next command of a thread is carried out. -/
def turn (p : Pool C R S α) (i : ι) : Pool C R S α :=
  match p.threads i with
  | .pure _ => p
  | .call c next => p.resume i (next (h c p.shared.state).1) (p.shared.issue h i c)

/-- The next command of a thread fails, without an effect. -/
def fail (p : Pool C R S α) (i : ι) : Pool C R S α :=
  match p.threads i with
  | .pure _ => p
  | .call c next =>
    match faults i c with
    | some r => p.resume i (next r) p.shared
    | none => p

/-- One move of the scheduler. -/
def step (p : Pool C R S α) : Move ι → Pool C R S α
  | .turn i => p.turn h i
  | .fail i => p.fail faults i

/-- The pool after a schedule. -/
def play (p : Pool C R S α) (moves : List (Move ι)) : Pool C R S α :=
  moves.foldl (step h faults) p

section Equations

variable {h faults} {p : Pool C R S α} {i : ι}

@[simp] theorem shared_resume (p : Pool C R S α) (rest : Program C R (α i)) (g : Shared ι C S) :
    (p.resume i rest g).shared = g := rfl

@[simp] theorem threads_resume_self (p : Pool C R S α) (rest : Program C R (α i))
    (g : Shared ι C S) : (p.resume i rest g).threads i = rest := Function.update_self ..

theorem threads_resume_of_ne (p : Pool C R S α) {j : ι} (hij : j ≠ i)
    (rest : Program C R (α i)) (g : Shared ι C S) :
    (p.resume i rest g).threads j = p.threads j := Function.update_of_ne hij ..

theorem step_turn_pure {a : α i} (hp : p.threads i = .pure a) :
    p.step h faults (.turn i) = p := by
  simp only [step, turn, hp]

theorem step_turn_call {c : C} {next : R c → Program C R (α i)}
    (hp : p.threads i = .call c next) :
    p.step h faults (.turn i) =
      p.resume i (next (h c p.shared.state).1) (p.shared.issue h i c) := by
  simp only [step, turn, hp]

theorem step_fail_pure {a : α i} (hp : p.threads i = .pure a) :
    p.step h faults (.fail i) = p := by
  simp only [step, fail, hp]

theorem step_fail_none {c : C} {next : R c → Program C R (α i)}
    (hp : p.threads i = .call c next) (hfault : faults i c = none) :
    p.step h faults (.fail i) = p := by
  simp only [step, fail, hp, hfault]

theorem step_fail_some {c : C} {next : R c → Program C R (α i)} {r : R c}
    (hp : p.threads i = .call c next) (hfault : faults i c = some r) :
    p.step h faults (.fail i) = p.resume i (next r) p.shared := by
  simp only [step, fail, hp, hfault]

/-- What a move can do: nothing, carry out a command of a thread, or let one fail. -/
theorem step_cases (h : Handler C R S) (faults : ι → (c : C) → Option (R c)) (p : Pool C R S α)
    (m : Move ι) :
    p.step h faults m = p ∨
      (∃ i c next, p.threads i = .call c next ∧ p.step h faults m =
        p.resume i (next (h c p.shared.state).1) (p.shared.issue h i c)) ∨
      ∃ i c next r, p.threads i = .call c next ∧ faults i c = some r ∧
        p.step h faults m = p.resume i (next r) p.shared := by
  cases m with
  | turn i =>
    cases hthread : p.threads i with
    | pure a => exact .inl (step_turn_pure hthread)
    | call c next => exact .inr (.inl ⟨i, c, next, hthread, step_turn_call hthread⟩)
  -- only commands that can fail are answered by a failure
  | fail i =>
    cases hthread : p.threads i with
    | pure a => exact .inl (step_fail_pure hthread)
    | call c next =>
      cases hfault : faults i c with
      | none => exact .inl (step_fail_none hthread hfault)
      | some r =>
        exact .inr (.inr ⟨i, c, next, r, hthread, hfault, step_fail_some hthread hfault⟩)

/-- What every command keeps holds after every schedule. -/
theorem play_inv {I : Shared ι C S → Prop} (hissue : ∀ g i c, I g → I (g.issue h i c))
    (hp : I p.shared) (moves : List (Move ι)) : I (p.play h faults moves).shared := by
  apply run_inv (I := fun q : Pool C R S α => I q.shared) _ hp moves
  intro q m hq
  rcases step_cases h faults q m with heq | ⟨i, c, next, -, heq⟩ | ⟨i, c, next, r, -, -, heq⟩
  · rw [heq]
    exact hq
  · rw [heq]
    exact hissue _ i c hq
  · rw [heq]
    exact hq

end Equations

end Pool

/-- The next command of the thread meets a condition on the state in which it is carried out, or
    in which it fails. -/
def Meets (cond tol : ι → Shared ι C S → C → Prop) (p : Pool C R S α) : Move ι → Prop
  | .turn i => ∀ c, p.next i = some c → cond i p.shared c
  | .fail i => ∀ c, p.next i = some c → tol i p.shared c

/-- No condition. -/
def Always (_ : ι) (_ : Shared ι C S) (_ : C) : Prop := True

instance Always.decidable (i : ι) (g : Shared ι C S) (c : C) : Decidable (Always i g c) :=
  isTrue trivial

instance decidableNext {P : C → Prop} [DecidablePred P] :
    (next : Option C) → Decidable (∀ c, next = some c → P c)
  | none => isTrue fun _ hc => nomatch hc
  | some c => decidable_of_iff (P c) ⟨fun h _ hc => Option.some.inj hc ▸ h, fun h => h c rfl⟩

instance Meets.decidable {cond tol : ι → Shared ι C S → C → Prop}
    [∀ i g c, Decidable (cond i g c)] [∀ i g c, Decidable (tol i g c)] (p : Pool C R S α) :
    (m : Move ι) → Decidable (Meets cond tol p m)
  | .turn i => decidableNext (p.next i)
  | .fail i => decidableNext (p.next i)

end Pool

/-! ## What the log says -/

section History

variable {C : Type} {R : C → Type} {S ι : Type}

/-- An event with `P` in a log that continues `before`; `P` may ask what was there before the
    event. -/
def Happened (P : List (ι × C) → ι × C → Prop) (before : List (ι × C)) : List (ι × C) → Prop
  | [] => False
  | event :: log => P before event ∨ Happened P (before ++ [event]) log

/-- A longer log has what the shorter one had, or its last event. -/
theorem happened_append_singleton {P : List (ι × C) → ι × C → Prop}
    {before log : List (ι × C)} {event : ι × C} :
    Happened P before (log ++ [event]) ↔ Happened P before log ∨ P (before ++ log) event := by
  induction log generalizing before with
  | nil => simp [Happened]
  -- the first event is behind more events, and the last one has one more before it
  | cons first log ih =>
    simp only [List.cons_append, Happened, ih, or_assoc, List.append_assoc, List.nil_append]

theorem Happened.mono {P Q : List (ι × C) → ι × C → Prop}
    (hPQ : ∀ before event, P before event → Q before event) {before log : List (ι × C)}
    (h : Happened P before log) : Happened Q before log := by
  induction log generalizing before with
  | nil => exact h
  | cons event log ih => exact h.imp (hPQ before event) ih

instance Happened.decidable {P : List (ι × C) → ι × C → Prop}
    [∀ before event, Decidable (P before event)] (before : List (ι × C)) :
    (log : List (ι × C)) → Decidable (Happened P before log)
  | [] => isFalse id
  | event :: log =>
    @instDecidableOr (P before event) (Happened P (before ++ [event]) log) _
      (Happened.decidable (before ++ [event]) log)

/-- An event of the log. -/
def Shared.Had (P : List (ι × C) → ι × C → Prop) (g : Shared ι C S) : Prop :=
  Happened P [] g.log

/-- The thread has issued a command with `P`. -/
def Shared.Did (P : C → Prop) (i : ι) (g : Shared ι C S) : Prop :=
  g.Had fun _ event => event.1 = i ∧ P event.2

instance Shared.decidableHad {P : List (ι × C) → ι × C → Prop}
    [∀ before event, Decidable (P before event)] (g : Shared ι C S) : Decidable (g.Had P) :=
  Happened.decidable [] g.log

instance Shared.decidableDid [DecidableEq ι] {P : C → Prop} [DecidablePred P] (i : ι)
    (g : Shared ι C S) : Decidable (g.Did P i) :=
  Shared.decidableHad g

variable {h : Handler C R S} {i : ι} {c : C} {g : Shared ι C S}

theorem Shared.had_issue {P : List (ι × C) → ι × C → Prop} :
    (g.issue h i c).Had P ↔ g.Had P ∨ P g.log (i, c) :=
  happened_append_singleton

theorem Shared.did_issue {P : C → Prop} {j : ι} :
    (g.issue h i c).Did P j ↔ g.Did P j ∨ i = j ∧ P c :=
  Shared.had_issue

theorem Shared.did_issue_of_ne {P : C → Prop} {j : ι} (hij : j ≠ i) :
    (g.issue h i c).Did P j ↔ g.Did P j := by
  rw [Shared.did_issue, or_iff_left]
  exact fun hi => hij hi.1.symm

theorem Shared.did_issue_of_not {P : C → Prop} {j : ι} (hc : ¬ P c) :
    (g.issue h i c).Did P j ↔ g.Did P j := by
  rw [Shared.did_issue, or_iff_left]
  exact fun hi => hc hi.2

end History

/-! ## Disciplines -/

/-- What each thread relies on, and the conditions on the scheduler. -/
structure Discipline (C : Type) (R : C → Type) (S ι : Type) where
  handler : Handler C R S
  faults : ι → (c : C) → Option (R c)
  cond : ι → Shared ι C S → C → Prop
  tol : ι → Shared ι C S → C → Prop
  rely : ι → Shared ι C S → Shared ι C S → Prop
  rely_refl : ∀ i g, rely i g g
  rely_trans : ∀ {i g g' g''}, rely i g g' → rely i g' g'' → rely i g g''

namespace Discipline

variable {C : Type} {R : C → Type} {S ι E : Type} (D : Discipline C R S ι) (i : ι)

/-- What a thread does is what every other thread relies on. -/
def guar (g g' : Shared ι C S) : Prop := ∀ j, j ≠ i → D.rely j g g'

/-- What the other threads do does not change that `A` holds. -/
def Stable (A : Shared ι C S → Prop) : Prop := ∀ g g', A g → D.rely i g g' → A g'

/-- A command of the thread that meets its guarantee and does not change that `A` holds. -/
def Keeps (A : Shared ι C S → Prop) (c : C) : Prop :=
  ∀ g, A g → D.cond i g c → D.guar i g (g.issue D.handler i c) ∧ A (g.issue D.handler i c)

/-- A command of the thread that does not fail where `A` holds. -/
def Safe (A : Shared ι C S → Prop) (c : C) : Prop :=
  ∀ g r, A g → D.faults i c = some r → ¬ D.tol i g c

/-- The thread `i` runs the program from `g`, with the others between its commands: each of its
    commands meets the guarantee, and the result satisfies `Q`. -/
def Secures {α : Type} (Q : α → Shared ι C S → Prop) :
    Program C R α → Shared ι C S → Prop
  | .pure a, g => ∀ g', D.rely i g g' → Q a g'
  | .call c next, g => ∀ g', D.rely i g g' →
    (D.cond i g' c → D.guar i g' (g'.issue D.handler i c) ∧
      Secures Q (next (D.handler c g'.state).1) (g'.issue D.handler i c)) ∧
    ∀ r, D.faults i c = some r → D.tol i g' c → Secures Q (next r) g'

section Rules

variable {D i} {α β : Type} {Q : α → Shared ι C S → Prop} {g : Shared ι C S}

/-- The others may act before the program starts. -/
theorem Secures.interfere {p : Program C R α} (h : D.Secures i Q p g) {g' : Shared ι C S}
    (hrely : D.rely i g g') : D.Secures i Q p g' := by
  cases p with
  | pure a => exact fun g'' hg'' => h g'' (D.rely_trans hrely hg'')
  | call c next => exact fun g'' hg'' => h g'' (D.rely_trans hrely hg'')

/-- What is secured may be weakened. -/
theorem Secures.mono {Q' : α → Shared ι C S → Prop} {p : Program C R α}
    (h : D.Secures i Q p g) (hQ : ∀ a g, Q a g → Q' a g) : D.Secures i Q' p g := by
  induction p generalizing g with
  | pure a => exact fun g' hg' => hQ a g' (h g' hg')
  -- the same commands, with weaker results at the leaves
  | call c next ih =>
    intro g' hg'
    obtain ⟨hturn, hfail⟩ := h g' hg'
    exact ⟨fun hcond => (hturn hcond).imp_right (ih _), fun r hr htol => ih r (hfail r hr htol)⟩

/-- What holds of the result whatever is answered can be added. -/
theorem Secures.and_ensures {P : α → Prop} {p : Program C R α} (h : D.Secures i Q p g)
    (hp : p.Ensures P) : D.Secures i (fun a g => Q a g ∧ P a) p g := by
  induction p generalizing g with
  | pure a => exact fun g' hg' => ⟨h g' hg', hp⟩
  | call c next ih =>
    intro g' hg'
    obtain ⟨hturn, hfail⟩ := h g' hg'
    exact ⟨fun hcond => (hturn hcond).imp_right fun hnext => ih _ hnext (hp _),
      fun r hr htol => ih r (hfail r hr htol) (hp r)⟩

/-- The rule for a sequence: the second program starts with what the first one secures. -/
theorem Secures.bind {Q' : β → Shared ι C S → Prop} {p : Program C R α} {f : α → Program C R β}
    (h : D.Secures i Q p g) (hf : ∀ a g, Q a g → D.Secures i Q' (f a) g) :
    D.Secures i Q' (p.bind f) g := by
  induction p generalizing g with
  -- the second program starts where the first one ends
  | pure a => exact hf a g (h g (D.rely_refl i g))
  | call c next ih =>
    intro g' hg'
    obtain ⟨hturn, hfail⟩ := h g' hg'
    exact ⟨fun hcond => (hturn hcond).imp_right (ih _), fun r hr htol => ih r (hfail r hr htol)⟩

/-- The invariant rule: an assertion that the others do not disturb and that every command of
    the program keeps. -/
theorem secures_of_issues {P : C → Prop} {I : Shared ι C S → Prop} (hI : D.Stable i I)
    (hstep : ∀ c, P c → D.Keeps i I c) {p : Program C R α} (hp : p.Issues P)
    (hg : I g) : D.Secures i (fun _ => I) p g := by
  induction p generalizing g with
  | pure a => exact fun g' hg' => hI g g' hg hg'
  | call c next ih =>
    intro g' hg'
    have hI' := hI g g' hg hg'
    exact ⟨fun hcond => (hstep c hp.1 g' hI' hcond).imp_right (ih _ (hp.2 _)),
      fun r _ _ => ih r (hp.2 r) hI'⟩

end Rules

/-! ### Actions that return -/

/-- The thread runs an action from `g`, which returns a value with `B`. -/
def Delivers {α : Type} (B : α → Shared ι C S → Prop) (p : Action C R E α) (g : Shared ι C S) :
    Prop :=
  D.Secures i (fun (r : Except E α) g => ∃ a, r = .ok a ∧ B a g) p g

section Actions

open Bidding.Effects.Action

variable {D i} {α β : Type} {A : Shared ι C S → Prop} {B : α → Shared ι C S → Prop}
  {B' : β → Shared ι C S → Prop} {g : Shared ι C S}

theorem Stable.returns {B : α → Shared ι C S → Prop} (hB : ∀ a, D.Stable i (B a))
    (r : Except E α) : D.Stable i (fun g => ∃ a, r = .ok a ∧ B a g) := by
  intro g g' hr hrely
  obtain ⟨a, rfl, hBa⟩ := hr
  exact ⟨a, rfl, hB a g g' hBa hrely⟩

theorem Stable.and {A A' : Shared ι C S → Prop} (hA : D.Stable i A) (hA' : D.Stable i A') :
    D.Stable i (fun g => A g ∧ A' g) :=
  fun g g' h hrely => ⟨hA g g' h.1 hrely, hA' g g' h.2 hrely⟩

theorem Stable.const (P : Prop) : D.Stable i (fun _ => P) := fun _ _ h _ => h

theorem Delivers.mono {B'' : α → Shared ι C S → Prop} {p : Action C R E α}
    (h : D.Delivers i B p g) (hB : ∀ a g, B a g → B'' a g) : D.Delivers i B'' p g := by
  apply Secures.mono h
  intro r g hr
  obtain ⟨a, rfl, ha⟩ := hr
  exact ⟨a, rfl, hB a g ha⟩

theorem delivers_pure {a : α} (hB : D.Stable i (B a)) (h : B a g) :
    D.Delivers i B (pure a : Action C R E α) g :=
  fun g' hg' => ⟨a, rfl, hB g g' h hg'⟩

theorem safe_of_faults {c : C} (h : D.faults i c = none) : D.Safe i A c := by
  intro g r _ hr
  rw [h] at hr
  cases hr

/-- One command that does not fail, issued from an assertion that the others do not disturb. -/
theorem delivers_perform {c : C} {answer : R c → Except E α} (hA : D.Stable i A)
    (hB : ∀ a, D.Stable i (B a)) (hsafe : D.Safe i A c)
    (hstep : ∀ g, A g → D.cond i g c → D.guar i g (g.issue D.handler i c) ∧
      ∃ a, answer (D.handler c g.state).1 = .ok a ∧ B a (g.issue D.handler i c))
    (hg : A g) : D.Delivers i B (perform c answer) g := by
  intro g' hg'
  refine ⟨fun hcond => ?_, fun r hr htol => ?_⟩
  · obtain ⟨hguar, hpost⟩ := hstep g' (hA g g' hg hg') hcond
    exact ⟨hguar, fun g'' hg'' => Stable.returns hB _ _ _ hpost hg''⟩
  · exact absurd htol (hsafe g' r (hA g g' hg hg') hr)

/-- The rule for a sequence whose first action returns. -/
theorem Delivers.bind {Q : Except E β → Shared ι C S → Prop} {p : Action C R E α}
    {f : α → Action C R E β} (h : D.Delivers i B p g)
    (hf : ∀ a g, B a g → D.Secures i Q (f a) g) :
    D.Secures i Q (p >>= f : Action C R E β) g := by
  apply Secures.bind h
  intro r g hr
  obtain ⟨a, rfl, ha⟩ := hr
  exact hf a g ha

theorem delivers_bind {p : Action C R E α} {f : α → Action C R E β} (h : D.Delivers i B p g)
    (hf : ∀ a g, B a g → D.Delivers i B' (f a) g) : D.Delivers i B' (p >>= f) g :=
  h.bind hf

/-- A sequence of two actions, of which the first one may throw. -/
theorem secures_bind {p : Action C R E α} {f : α → Action C R E β} (hA : D.Stable i A)
    (h : D.Secures i (fun _ => A) p g) (hf : ∀ a g, A g → D.Secures i (fun _ => A) (f a) g) :
    D.Secures i (fun _ => A) (p >>= f : Action C R E β) g := by
  apply Secures.bind h
  intro r g hr
  cases r with
  | error e => exact fun g' hg' => hA g g' hr hg'
  | ok a => exact hf a g hr

/-- A `try` block returns, whatever the action in it does. -/
theorem delivers_attempt_of_secures {Q : Except E α → Shared ι C S → Prop}
    {p : Action C R E α} (h : D.Secures i Q p g) : D.Delivers i Q (attempt p) g := by
  unfold attempt
  induction p generalizing g with
  | pure r => exact fun g' hg' => ⟨r, rfl, h g' hg'⟩
  | call c next ih =>
    intro g' hg'
    obtain ⟨hturn, hfail⟩ := h g' hg'
    exact ⟨fun hcond => (hturn hcond).imp_right (ih _), fun r hr htol => ih r (hfail r hr htol)⟩

/-- A `try` block around an action that returns. -/
theorem delivers_attempt {p : Action C R E α} (h : D.Delivers i B p g) :
    D.Delivers i (fun r g => ∃ a, r = .ok a ∧ B a g) (attempt p) g :=
  delivers_attempt_of_secures h

/-- An action of which is known what it returns, whatever is answered. -/
theorem delivers_of_issues {P : C → Prop} {Q : α → Prop} (hA : D.Stable i A)
    (hstep : ∀ c, P c → D.Keeps i A c) {p : Action C R E α} (hissues : Issues P p)
    (hreturns : Returns Q p) (hg : A g) : D.Delivers i (fun a g => Q a ∧ A g) p g := by
  have hinv := secures_of_issues hA hstep hissues hg
  apply (hinv.and_ensures hreturns).mono
  intro r g hr
  obtain ⟨hA', a, rfl, ha⟩ := hr
  exact ⟨a, rfl, ha, hA'⟩

end Actions

/-! ### Soundness -/

section Soundness

variable [DecidableEq ι] {α : ι → Type} {Q : (i : ι) → α i → Shared ι C S → Prop}
  {p : Pool C R S α}

/-- The step: a move keeps what the threads secure. -/
theorem secures_step (h : ∀ j, D.Secures j (Q j) (p.threads j) p.shared) {m : Move ι}
    (hm : Meets D.cond D.tol p m) (j : ι) :
    D.Secures j (Q j) ((p.step D.handler D.faults m).threads j)
      (p.step D.handler D.faults m).shared := by
  cases m with
  | turn i =>
    have hi := h i
    cases hthread : p.threads i with
    | pure a =>
      rw [Pool.step_turn_pure hthread]
      exact h j
    | call c next =>
      rw [hthread] at hi
      have hcond : D.cond i p.shared c := hm c (Pool.next_of_call hthread)
      -- the thread is entitled to its command, and promises the others what it does
      obtain ⟨hguar, hnext⟩ := (hi p.shared (D.rely_refl i _)).1 hcond
      rw [Pool.step_turn_call hthread]
      by_cases hij : j = i
      · subst hij
        rwa [Pool.threads_resume_self, Pool.shared_resume]
      · -- the other threads rely on what this one guarantees
        rw [Pool.threads_resume_of_ne _ hij, Pool.shared_resume]
        exact (h j).interfere (hguar j hij)
  | fail i =>
    have hi := h i
    cases hthread : p.threads i with
    | pure a =>
      rw [Pool.step_fail_pure hthread]
      exact h j
    | call c next =>
      rw [hthread] at hi
      cases hfault : D.faults i c with
      | none =>
        rw [Pool.step_fail_none hthread hfault]
        exact h j
      | some r =>
        rw [Pool.step_fail_some hthread hfault]
        by_cases hij : j = i
        · subst hij
          rw [Pool.threads_resume_self, Pool.shared_resume]
          exact (hi p.shared (D.rely_refl j _)).2 r hfault (hm c (Pool.next_of_call hthread))
        · -- a failed command changes nothing that is shared
          rw [Pool.threads_resume_of_ne _ hij, Pool.shared_resume]
          exact h j

/-- The run: after every schedule that meets the condition. -/
theorem secures_run (h : ∀ j, D.Secures j (Q j) (p.threads j) p.shared) {moves : List (Move ι)}
    (hmoves : Along (Pool.step D.handler D.faults) (Meets D.cond D.tol) p moves) (j : ι) :
    D.Secures j (Q j) ((p.play D.handler D.faults moves).threads j)
      (p.play D.handler D.faults moves).shared := by
  have hinv : ∀ j, D.Secures j (Q j) ((p.play D.handler D.faults moves).threads j)
      (p.play D.handler D.faults moves).shared :=
    hmoves.inv (I := fun p : Pool C R S α => ∀ j, D.Secures j (Q j) (p.threads j) p.shared)
      (fun q m hq hm => D.secures_step hq hm) h
  exact hinv j

/-- A thread that has ended has its result. -/
theorem secures_finished (h : ∀ j, D.Secures j (Q j) (p.threads j) p.shared)
    {moves : List (Move ι)}
    (hmoves : Along (Pool.step D.handler D.faults) (Meets D.cond D.tol) p moves) {j : ι} {a : α j}
    (hresult : (p.play D.handler D.faults moves).result j = some a) :
    Q j a (p.play D.handler D.faults moves).shared := by
  have hj := D.secures_run h hmoves j
  rw [Pool.threads_of_result hresult] at hj
  exact hj _ (D.rely_refl j _)

/-- A move leaves the shared state, or is a command that its thread guarantees. -/
theorem shared_step (h : ∀ j, D.Secures j (Q j) (p.threads j) p.shared) {m : Move ι}
    (hm : Meets D.cond D.tol p m) :
    (p.step D.handler D.faults m).shared = p.shared ∨
      ∃ i, D.guar i p.shared (p.step D.handler D.faults m).shared := by
  cases m with
  | turn i =>
    have hi := h i
    cases hthread : p.threads i with
    | pure a =>
      rw [Pool.step_turn_pure hthread]
      exact .inl rfl
    | call c next =>
      rw [hthread] at hi
      have hcond : D.cond i p.shared c := hm c (Pool.next_of_call hthread)
      rw [Pool.step_turn_call hthread]
      exact .inr ⟨i, ((hi p.shared (D.rely_refl i _)).1 hcond).1⟩
  | fail i =>
    -- a command that fails does nothing
    left
    cases hthread : p.threads i with
    | pure a => rw [Pool.step_fail_pure hthread]
    | call c next =>
      cases hfault : D.faults i c with
      | none => rw [Pool.step_fail_none hthread hfault]
      | some r => rw [Pool.step_fail_some hthread hfault, Pool.shared_resume]

/-- What every guarantee keeps holds after every schedule. -/
theorem inv_run {I : Shared ι C S → Prop} (hI : ∀ i g g', D.guar i g g' → I g → I g')
    (h : ∀ j, D.Secures j (Q j) (p.threads j) p.shared) (hp : I p.shared)
    {moves : List (Move ι)}
    (hmoves : Along (Pool.step D.handler D.faults) (Meets D.cond D.tol) p moves) :
    I (p.play D.handler D.faults moves).shared := by
  -- the invariant is carried together with what the threads still secure
  have hinv : (∀ j, D.Secures j (Q j) ((p.play D.handler D.faults moves).threads j)
      (p.play D.handler D.faults moves).shared) ∧ I (p.play D.handler D.faults moves).shared := by
    apply hmoves.inv (I := fun p : Pool C R S α =>
      (∀ j, D.Secures j (Q j) (p.threads j) p.shared) ∧ I p.shared) _ ⟨h, hp⟩
    intro q m hq hm
    refine ⟨D.secures_step hq.1 hm, ?_⟩
    rcases D.shared_step hq.1 hm with hsame | ⟨i, hguar⟩
    · rw [hsame]
      exact hq.2
    · exact hI i _ _ hguar hq.2
  exact hinv.2

end Soundness

end Discipline

end Bidding.Effects
