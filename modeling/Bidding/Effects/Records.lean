import Bidding.Effects.Moves

/-!
# Records of a Run

Some commands leave an entry in a record. A run is related then not only to the state before and
after it, but also to what it has recorded; so is a sequence of runs.

## Key Results

- **`MovesRecording.seq`**, **`MovesRecording.attempt`**: the rules of composition.
- **`Issues.record_eq_nil`**: an action none of whose commands leaves an entry.
- **`emitted_rule`**: from single events to runs of events.
-/

namespace Bidding.Effects

variable {C : Type} {R : C → Type} {S E τ α β : Type}

namespace Action

/-- The entries that the commands of a run leave, in order. -/
def record (note : C → Option τ) (h : Handler C R S) (p : Action C R E α) (s : S) : List τ :=
  (trace h p s).filterMap note

variable {note : C → Option τ} {h : Handler C R S}

/-- The notes of a sequence are those of its parts. -/
theorem record_bind_ok {p : Action C R E α} {f : α → Action C R E β} {s t : S} {a : α}
    (hp : run h p s = (.ok a, t)) :
    record note h (p >>= f) s = record note h p s ++ record note h (f a) t := by
  have htrace : trace h (p >>= f) s = trace h p s ++ _ := Program.trace_bind h p _ s
  unfold Action.run at hp
  unfold record
  rw [htrace, hp, List.filterMap_append]
  rfl

/-- After an exception nothing is noted any more. -/
theorem record_bind_error {p : Action C R E α} {f : α → Action C R E β} {s t : S} {e : E}
    (hp : run h p s = (.error e, t)) : record note h (p >>= f) s = record note h p s := by
  have htrace : trace h (p >>= f) s = trace h p s ++ _ := Program.trace_bind h p _ s
  unfold Action.run at hp
  unfold record
  rw [htrace, hp, List.filterMap_append]
  exact List.append_nil _

theorem record_attempt (p : Action C R E α) (s : S) :
    record note h (attempt p) s = record note h p s := by
  have htrace : trace h (attempt p) s = trace h p s ++ [] := Program.trace_bind h p _ s
  unfold record
  rw [htrace, List.append_nil]

/-- Nothing is recorded by an action none of whose commands leaves an entry. -/
theorem Issues.record_eq_nil {p : Action C R E α} (hp : Issues (fun c => note c = none) p)
    (s : S) : record note h p s = [] :=
  List.filterMap_eq_nil_iff.mpr (Program.Issues.trace hp h s)

/-- From every state, the state before, the record and the state after `p` are related. -/
def MovesRecording (note : C → Option τ) (h : Handler C R S) (T : S → List τ → S → Prop)
    (p : Action C R E α) : Prop :=
  ∀ s, T s (record note h p s) (run h p s).2

variable {T : S → List τ → S → Prop}

theorem MovesRecording.mono {T' : S → List τ → S → Prop} (hT : ∀ s l t, T s l t → T' s l t)
    {p : Action C R E α} (hp : MovesRecording note h T p) : MovesRecording note h T' p :=
  fun s => hT s _ _ (hp s)

theorem MovesRecording.attempt {p : Action C R E α} (hp : MovesRecording note h T p) :
    MovesRecording note h T (Action.attempt p) := by
  intro s
  rw [run_attempt, record_attempt]
  exact hp s

/-- Two blocks that keep to relations of their own. The second one may not be reached. -/
theorem MovesRecording.seq {T₁ T₂ : S → List τ → S → Prop} {p : Action C R E α}
    {f : α → Action C R E β} (hp : MovesRecording note h T₁ p)
    (hf : ∀ a, MovesRecording note h T₂ (f a)) (hfirst : ∀ s l t, T₁ s l t → T s l t)
    (hboth : ∀ s l t l' u, T₁ s l t → T₂ t l' u → T s (l ++ l') u) :
    MovesRecording note h T (p >>= f) := by
  intro s
  have hstart : T₁ s (record note h p s) (run h p s).2 := hp s
  rcases hrun : run h p s with ⟨e | a, t⟩
  · -- an exception of the first block ends the sequence, and its notes are all
    rw [hrun] at hstart
    rw [run_bind_error hrun, record_bind_error hrun]
    exact hfirst s _ t hstart
  · rw [hrun] at hstart
    rw [run_bind_ok hrun, record_bind_ok hrun]
    exact hboth s _ t _ _ hstart (hf a t)

/-- An action that leaves no entry. -/
theorem Moves.recording {T : S → S → Prop} {p : Action C R E α} (hp : Moves h T p)
    (hissues : Issues (fun c => note c = none) p) :
    MovesRecording note h (fun s l t => l = [] ∧ T s t) p :=
  fun s => ⟨hissues.record_eq_nil s, hp s⟩

end Action

/-! ## Runs of events -/

variable {Ev : Type} {step : S → Ev → S} {out : S → Ev → List τ}

/-- What the events of a run emit, in order. -/
def emitted (step : S → Ev → S) (out : S → Ev → List τ) : S → List Ev → List τ
  | _, [] => []
  | s, e :: es => out s e ++ emitted step out (step s e) es

/-- A relation that each event keeps to, and that can be chained, is kept to by every run. -/
theorem emitted_rule {T : S → List τ → List Ev → S → Prop} (hrefl : ∀ s, T s [] [] s)
    (hstep : ∀ s e, T s (out s e) [e] (step s e))
    (htrans : ∀ s l es t l' es' u, T s l es t → T t l' es' u → T s (l ++ l') (es ++ es') u)
    (s : S) (es : List Ev) : T s (emitted step out s es) es (es.foldl step s) := by
  induction es generalizing s with
  | nil => exact hrefl s
  | cons e es ih => exact htrans s _ [e] _ _ es _ (hstep s e) (ih (step s e))

end Bidding.Effects
