import Bidding.Effects.Interleaving
import Mathlib.Data.List.Nodup
import Mathlib.Data.List.Perm.Subperm

/-!
# Tickets

Threads that draw tickets from a common stock and spend them. If every thread spends only the
ticket that it drew last, and a command that hands out a ticket takes it out of the stock in
the same step, then no ticket is spent twice: however the threads are interleaved, and whichever
of their commands fail.

## Architecture

- **`TicketLedger`**: where the tickets are: in the stock, in the hand of a thread, or spent.
- **`Ticketing`**: which answers hand out a ticket and which commands use one up.
- **`Thrifty held p`**: a program that starts with the ticket `held` spends only a ticket that it
  has in its hand, whatever is answered.

## Key Results

- **`TicketLedger.Sound.use`**, **`.take`**: the moves of a ledger keep every ticket in one place.
- **`Ticketing.accounted_step`**: a move of the scheduler is a move of the ledger.
- **`Ticketing.spent_nodup`**: no ticket is spent twice in any run.
-/

namespace Bidding.Effects

/-! ## Ledgers -/

/-- Where the tickets are. -/
structure TicketLedger (ι τ : Type) where
  stock : List τ
  held : ι → Option τ
  spent : List τ

namespace TicketLedger

variable {ι τ : Type}

/-- Every ticket is in one place, and there is no ticket that is not among `tickets`. -/
structure Sound (tickets : List τ) (l : TicketLedger ι τ) : Prop where
  stock_nodup : l.stock.Nodup
  spent_nodup : l.spent.Nodup
  spent_not_stock : ∀ t ∈ l.spent, t ∉ l.stock
  held_not_stock : ∀ i t, l.held i = some t → t ∉ l.stock
  held_not_spent : ∀ i t, l.held i = some t → t ∉ l.spent
  held_unique : ∀ i j t, l.held i = some t → l.held j = some t → i = j
  stock_subset : l.stock ⊆ tickets
  spent_subset : l.spent ⊆ tickets
  held_mem : ∀ i t, l.held i = some t → t ∈ tickets

variable [DecidableEq ι]

/-- A thread puts the ticket in its hand among the spent ones. -/
def use (l : TicketLedger ι τ) (i : ι) (t : τ) : TicketLedger ι τ where
  stock := l.stock
  held := Function.update l.held i none
  spent := l.spent ++ [t]

/-- A thread takes what it is handed, if that is something; the stock is then `rest`. -/
def take (l : TicketLedger ι τ) (i : ι) (drawn : Option τ) (rest : List τ) :
    TicketLedger ι τ where
  stock := rest
  held := Function.update l.held i (drawn.or (l.held i))
  spent := l.spent

variable {tickets : List τ} {l : TicketLedger ι τ} {i : ι}

theorem held_use_self {t : τ} : (l.use i t).held i = none := Function.update_self ..

theorem held_take_self {drawn : Option τ} {rest : List τ} :
    (l.take i drawn rest).held i = drawn.or (l.held i) := Function.update_self ..

theorem held_take_of_ne {drawn : Option τ} {rest : List τ} {j : ι} (hij : j ≠ i) :
    (l.take i drawn rest).held j = l.held j := Function.update_of_ne hij ..

/-- Only the thread itself has less in its hand after it used a ticket. -/
theorem of_held_use {t u : τ} {j : ι} (h : (l.use i t).held j = some u) :
    j ≠ i ∧ l.held j = some u := by
  by_cases hij : j = i
  · subst hij
    rw [held_use_self] at h
    cases h
  · exact ⟨hij, (Function.update_of_ne hij ..).symm.trans h⟩

/-- A ticket that is spent leaves the hand. -/
theorem Sound.use (h : Sound tickets l) {t : τ} (ht : l.held i = some t) :
    Sound tickets (l.use i t) where
  stock_nodup := h.stock_nodup
  spent_nodup := List.nodup_append.mpr ⟨h.spent_nodup, List.nodup_singleton t, by
    intro u hu v hv heq
    rw [List.mem_singleton.mp hv] at heq
    exact h.held_not_spent i t ht (heq ▸ hu)⟩
  spent_not_stock := by
    intro u hu
    rcases List.mem_append.mp hu with hu | hu
    · exact h.spent_not_stock u hu
    · rw [List.mem_singleton.mp hu]
      exact h.held_not_stock i t ht
  held_not_stock := fun j u hu => h.held_not_stock j u (of_held_use hu).2
  held_not_spent := by
    intro j u hu hmem
    obtain ⟨hij, hj⟩ := of_held_use hu
    rcases List.mem_append.mp hmem with hmem | hmem
    · exact h.held_not_spent j u hj hmem
    · -- the ticket that was just spent is in no other hand
      rw [List.mem_singleton.mp hmem] at hj
      exact hij (h.held_unique j i t hj ht)
  held_unique := fun j k u hj hk => h.held_unique j k u (of_held_use hj).2 (of_held_use hk).2
  stock_subset := h.stock_subset
  spent_subset := by
    intro u hu
    rcases List.mem_append.mp hu with hu | hu
    · exact h.spent_subset hu
    · rw [List.mem_singleton.mp hu]
      exact h.held_mem i t ht
  held_mem := fun j u hu => h.held_mem j u (of_held_use hu).2

/-- What is in a hand after a draw was there before, or was just drawn. -/
theorem of_held_take {drawn : Option τ} {rest : List τ} {j : ι} {u : τ}
    (h : (l.take i drawn rest).held j = some u) :
    l.held j = some u ∨ (j = i ∧ drawn = some u) := by
  by_cases hij : j = i
  · subst hij
    rw [held_take_self] at h
    cases drawn with
    | none => exact .inl h
    | some t => exact .inr ⟨rfl, h⟩
  · exact .inl ((held_take_of_ne hij).symm.trans h)

/-- Drawing a ticket takes it out of the stock. Without a ticket the stock can only shrink. -/
theorem Sound.take (h : Sound tickets l) {drawn : Option τ} {rest : List τ}
    (hrest : (drawn.toList ++ rest).Subperm l.stock) : Sound tickets (l.take i drawn rest) := by
  have hnodup : (drawn.toList ++ rest).Nodup := by
    obtain ⟨part, hperm, hsublist⟩ := hrest
    exact hperm.nodup_iff.mp (h.stock_nodup.sublist hsublist)
  have hstock : ∀ u ∈ rest, u ∈ l.stock := fun u hu => hrest.subset (List.mem_append_right _ hu)
  have hdrawn : ∀ u, drawn = some u → u ∈ l.stock := by
    rintro u rfl
    exact hrest.subset List.mem_cons_self
  -- the drawn ticket is not left in the stock as well
  have hout : ∀ u, drawn = some u → u ∉ rest := by
    rintro u rfl
    exact (List.nodup_cons.mp hnodup).1
  refine ⟨(List.nodup_append.mp hnodup).2.1, h.spent_nodup, ?_, ?_, ?_, ?_, ?_, h.spent_subset, ?_⟩
  · exact fun u hu hmem => h.spent_not_stock u hu (hstock u hmem)
  · intro j u hu hmem
    rcases of_held_take hu with hj | ⟨-, hnew⟩
    · exact h.held_not_stock j u hj (hstock u hmem)
    · exact hout u hnew hmem
  · intro j u hu hmem
    rcases of_held_take hu with hj | ⟨-, hnew⟩
    · exact h.held_not_spent j u hj hmem
    · exact h.spent_not_stock u hmem (hdrawn u hnew)
  · intro j k u hj hk
    -- a ticket that was just drawn comes from the stock, so that no other hand has it
    rcases of_held_take hj with hj | ⟨hji, hnew⟩
    · rcases of_held_take hk with hk | ⟨-, hnew⟩
      · exact h.held_unique j k u hj hk
      · exact absurd (hdrawn u hnew) (h.held_not_stock j u hj)
    · rcases of_held_take hk with hk | ⟨hki, -⟩
      · exact absurd (hdrawn u hnew) (h.held_not_stock k u hk)
      · exact hji.trans hki.symm
  · exact fun u hu => h.stock_subset (hstock u hu)
  · intro j u hu
    rcases of_held_take hu with hj | ⟨-, hnew⟩
    · exact h.held_mem j u hj
    · exact h.stock_subset (hdrawn u hnew)

omit [DecidableEq ι] in
/-- A ticket may be lost from a hand. -/
theorem Sound.lose (h : Sound tickets l) {held : ι → Option τ}
    (hheld : ∀ j u, held j = some u → l.held j = some u) : Sound tickets { l with held } where
  stock_nodup := h.stock_nodup
  spent_nodup := h.spent_nodup
  spent_not_stock := h.spent_not_stock
  held_not_stock j u hu := h.held_not_stock j u (hheld j u hu)
  held_not_spent j u hu := h.held_not_spent j u (hheld j u hu)
  held_unique j k u hj hk := h.held_unique j k u (hheld j u hj) (hheld k u hk)
  stock_subset := h.stock_subset
  spent_subset := h.spent_subset
  held_mem j u hu := h.held_mem j u (hheld j u hu)

omit [DecidableEq ι] in
/-- At the start all tickets are in the stock. -/
theorem sound_start (h : tickets.Nodup) :
    Sound tickets (⟨tickets, fun _ => none, []⟩ : TicketLedger ι τ) where
  stock_nodup := h
  spent_nodup := List.nodup_nil
  spent_not_stock _ hu := absurd hu List.not_mem_nil
  held_not_stock _ _ hu := nomatch hu
  held_not_spent _ _ hu := nomatch hu
  held_unique _ _ _ hu := nomatch hu
  stock_subset := List.Subset.refl _
  spent_subset := List.nil_subset _
  held_mem _ _ hu := nomatch hu

end TicketLedger

/-! ## Programs that draw and spend -/

/-- Where the tickets of a system come from, and the commands that draw and spend them. -/
structure Ticketing (C : Type) (R : C → Type) (S τ : Type) where
  /-- the tickets that can still be drawn -/
  stock : S → List τ
  /-- the ticket that an answer hands out -/
  drawn : (c : C) → R c → Option τ
  /-- the ticket that a command uses up -/
  spent : C → Option τ
  /-- the commands under consideration -/
  allowed : C → Prop

namespace Ticketing

variable {C : Type} {R : C → Type} {S τ ι E α β : Type} (T : Ticketing C R S τ)

/-- What is in the hand after a command: the ticket that it handed out, or else what was there
    before and was not spent. -/
def after (held : Option τ) (c : C) (r : R c) : Option τ :=
  (T.drawn c r).or (if (T.spent c).isSome then none else held)

/-- The program issues allowed commands, and spends only a ticket that it has in its hand. -/
def Thrifty : Option τ → Program C R α → Prop
  | _, .pure _ => True
  | held, .call c next => T.allowed c ∧ (∀ t, T.spent c = some t → held = some t) ∧
    ∀ r, Thrifty (T.after held c r) (next r)

/-- The spent tickets of a log, in order. -/
def spentIn (log : List (ι × C)) : List τ := log.filterMap fun event => T.spent event.2

/-- A command takes the ticket that it hands out from the stock, and adds none. -/
def Conserves (h : Handler C R S) : Prop :=
  ∀ c, T.allowed c → ∀ s, ((T.drawn c (h c s).1).toList ++ T.stock (h c s).2).Subperm (T.stock s)

/-- A command that fails hands out nothing. -/
def FailsDry (faults : ι → (c : C) → Option (R c)) : Prop :=
  ∀ i c r, faults i c = some r → T.drawn c r = none

/-! ### Rules -/

section Rules

variable {T} {held : Option τ}

/-- A ticket in the hand does no harm. -/
theorem Thrifty.of_none {p : Program C R α} (h : T.Thrifty none p) : T.Thrifty held p := by
  induction p generalizing held with
  | pure a => trivial
  | call c next ih =>
    obtain ⟨hallowed, hspends, hnext⟩ := h
    -- a program without a ticket spends none
    have hnone : T.spent c = none := by
      cases hc : T.spent c with
      | none => rfl
      | some t => cases hspends t hc
    refine ⟨hallowed, fun t ht => ?_, fun r => ?_⟩
    · rw [hnone] at ht
      cases ht
    · have hr := hnext r
      unfold after at hr ⊢
      rw [hnone] at hr ⊢
      -- a ticket that is drawn replaces the one in the hand
      cases hdrawn : T.drawn c r with
      | none =>
        rw [hdrawn] at hr
        exact ih r hr
      | some t =>
        rw [hdrawn] at hr
        exact hr

theorem Thrifty.bind {p : Program C R α} {f : α → Program C R β} (hp : T.Thrifty held p)
    (hf : ∀ a, T.Thrifty none (f a)) : T.Thrifty held (p.bind f) := by
  induction p generalizing held with
  | pure a => exact (hf a).of_none
  | call c next ih => exact ⟨hp.1, hp.2.1, fun r => ih r (hp.2.2 r)⟩

/-- Commands that spend nothing, whatever they hand out. -/
theorem thrifty_of_issues {p : Program C R α}
    (hp : p.Issues fun c => T.allowed c ∧ T.spent c = none) : T.Thrifty held p := by
  induction p generalizing held with
  | pure a => trivial
  | call c next ih =>
    refine ⟨hp.1.1, fun t ht => ?_, fun r => ih r (hp.2 r)⟩
    rw [hp.1.2] at ht
    cases ht

end Rules

/-! ### Runs -/

section Runs

variable {T} {αs : ι → Type} {tickets : List τ}

/-- The ledger of a pool whose threads have some tickets in their hands. -/
def ledger (T : Ticketing C R S τ) (held : ι → Option τ) (p : Pool C R S αs) :
    TicketLedger ι τ where
  stock := T.stock p.shared.state
  held := held
  spent := T.spentIn p.shared.log

/-- There is a sound ledger, and the threads are thrifty with what they hold. -/
def Accounted (T : Ticketing C R S τ) (tickets : List τ) (p : Pool C R S αs) : Prop :=
  ∃ held : ι → Option τ, (∀ i, T.Thrifty (held i) (p.threads i)) ∧
    (T.ledger held p).Sound tickets

variable [DecidableEq ι] {h : Handler C R S} {faults : ι → (c : C) → Option (R c)}
  {p : Pool C R S αs} {i : ι}

omit [DecidableEq ι] in
theorem spentIn_issue (g : Shared ι C S) (c : C) :
    T.spentIn (g.issue h i c).log = T.spentIn g.log ++ (T.spent c).toList := by
  unfold spentIn Shared.issue
  rw [List.filterMap_append]
  cases hc : T.spent c <;> simp [hc]

/-- Thrift after a thread went on with a ticket in its hand. -/
theorem thrifty_resume {held : ι → Option τ} (hthrifty : ∀ j, T.Thrifty (held j) (p.threads j))
    {rest : Program C R (αs i)} {g : Shared ι C S} {hand : Option τ} (hrest : T.Thrifty hand rest)
    (j : ι) : T.Thrifty (Function.update held i hand j) ((p.resume i rest g).threads j) := by
  by_cases hij : j = i
  · subst hij
    rwa [Function.update_self, Pool.threads_resume_self]
  · rw [Function.update_of_ne hij, Pool.threads_resume_of_ne _ hij]
    exact hthrifty j

/-- A command that is carried out uses the ticket that it spends, and then takes the one that is
    handed out. -/
theorem accounted_turn (hconserves : T.Conserves h) {c : C} {next : R c → Program C R (αs i)}
    (hthread : p.threads i = .call c next) (hp : T.Accounted tickets p) :
    T.Accounted tickets (p.resume i (next (h c p.shared.state).1) (p.shared.issue h i c)) := by
  obtain ⟨held, hthrifty, hsound⟩ := hp
  have hi := hthrifty i
  rw [hthread] at hi
  obtain ⟨hallowed, hspends, hnext⟩ := hi
  have hstock := hconserves c hallowed p.shared.state
  refine ⟨_, thrifty_resume hthrifty (hnext _), ?_⟩
  have hspent := spentIn_issue (T := T) (h := h) (i := i) p.shared c
  cases hc : T.spent c with
  -- nothing is spent; what is handed out comes from the stock
  | none =>
    have hledger := hsound.take (i := i) hstock
    simp only [ledger, after, hc, Option.isSome_none, Bool.false_eq_true, if_false]
    rw [Pool.shared_resume, hspent, hc, Option.toList_none, List.append_nil]
    exact hledger
  | some t =>
    -- first the ticket is spent, then the drawn one is taken
    have hledger := (hsound.use (hspends t hc)).take (i := i) hstock
    simp only [ledger, after, hc, Option.isSome_some, if_true]
    rw [Pool.shared_resume, hspent, hc, Option.toList_some]
    convert hledger using 1
    simp only [TicketLedger.take, TicketLedger.use, ledger, Function.update_self,
      Function.update_idem]
    rfl

/-- A command that fails hands out nothing; what its thread would have spent is lost. -/
theorem accounted_fail (hdry : T.FailsDry faults) {c : C} {next : R c → Program C R (αs i)}
    {r : R c} (hthread : p.threads i = .call c next) (hfault : faults i c = some r)
    (hp : T.Accounted tickets p) : T.Accounted tickets (p.resume i (next r) p.shared) := by
  obtain ⟨held, hthrifty, hsound⟩ := hp
  have hi := hthrifty i
  rw [hthread] at hi
  have hr := hi.2.2 r
  rw [after, hdry i c r hfault, Option.none_or] at hr
  refine ⟨_, thrifty_resume hthrifty hr, hsound.lose fun j u hu => ?_⟩
  -- the hands of the other threads are as they were
  by_cases hij : j = i
  · subst hij
    rw [Function.update_self] at hu
    split at hu
    · cases hu
    · exact hu
  · rwa [Function.update_of_ne hij] at hu

/-- The step: every move of the scheduler keeps the accounts. -/
theorem accounted_step (hconserves : T.Conserves h) (hdry : T.FailsDry faults)
    (hp : T.Accounted tickets p) (m : Move ι) : T.Accounted tickets (p.step h faults m) := by
  rcases Pool.step_cases h faults p m with heq | ⟨i, c, next, hthread, heq⟩ |
    ⟨i, c, next, r, hthread, hfault, heq⟩
  · rw [heq]
    exact hp
  · rw [heq]
    exact accounted_turn hconserves hthread hp
  · rw [heq]
    exact accounted_fail hdry hthread hfault hp

/-- The run: no ticket is spent twice, and only tickets of the first stock are spent. -/
theorem spent_nodup (hconserves : T.Conserves h) (hdry : T.FailsDry faults)
    (hthrifty : ∀ i, T.Thrifty none (p.threads i)) (hlog : p.shared.log = [])
    (hstock : (T.stock p.shared.state).Nodup) (moves : List (Move ι)) :
    (T.spentIn (p.play h faults moves).shared.log).Nodup ∧
      T.spentIn (p.play h faults moves).shared.log ⊆ T.stock p.shared.state := by
  -- at the start nothing is spent and no hand has a ticket
  have hstart : T.Accounted (T.stock p.shared.state) p := by
    refine ⟨fun _ => none, hthrifty, ?_⟩
    unfold ledger
    rw [hlog]
    exact TicketLedger.sound_start hstock
  obtain ⟨held, -, hsound⟩ :=
    run_inv (I := T.Accounted (T.stock p.shared.state))
      (fun q m hq => accounted_step hconserves hdry hq m) hstart moves
  exact ⟨hsound.spent_nodup, hsound.spent_subset⟩

end Runs

end Ticketing

end Bidding.Effects
