import Mathlib.Data.List.Basic

/-!
# A Sale of Lots, One After the Other

What the scheduler is for, in its own terms: the lots of a sale wait in a line, at most one
of them is on offer, and those whose time is over are sold. The sale advances by one step
at a time, which closes the lot on offer, if any, and puts the next one on offer.

The fields of `Sale` exclude the states that no sale can be in: nothing is on offer or sold
before the start, and a sale that has started offers a lot until the line is empty.
-/

namespace Bidding

/-- The state of a sale. `waiting` and `sold` are in the order of the sale. -/
structure Sale (α : Type) where
  started : Bool
  waiting : List α
  current : Option α
  sold : List α
  fresh : started = false → current = none ∧ sold = []
  exhausted : started = true → current = none → waiting = []

namespace Sale

variable {α : Type}

/-- A sale that has not started. -/
def start (lots : List α) : Sale α where
  started := false
  waiting := lots
  current := none
  sold := []
  fresh _ := ⟨rfl, rfl⟩
  exhausted h := Bool.noConfusion h

/-- Close the lot on offer and offer the next one. -/
def advance (s : Sale α) : Sale α where
  started := true
  waiting := s.waiting.tail
  current := s.waiting.head?
  sold := s.sold ++ s.current.toList
  fresh h := Bool.noConfusion h
  exhausted _ h := by rw [List.head?_eq_none_iff.mp h, List.tail_nil]

/-- The lots that have been on offer, in the order of the sale. -/
def opened (s : Sale α) : List α := s.sold ++ s.current.toList

/-- All lots, in the order of the sale. -/
def lots (s : Sale α) : List α := s.opened ++ s.waiting

/-- The sale is over. -/
def Over (s : Sale α) : Prop := s.started = true ∧ s.current = none

@[simp] theorem start_lots (lots : List α) : (start lots).lots = lots := rfl

theorem opened_advance (s : Sale α) :
    s.advance.opened = s.opened ++ s.waiting.head?.toList := rfl

/-- No step loses, repeats or reorders a lot. -/
@[simp] theorem advance_lots (s : Sale α) : s.advance.lots = s.lots := by
  unfold lots
  rw [opened_advance, List.append_assoc]
  congr 1
  cases h : s.waiting with
  | nil => simp [advance, h]
  | cons x xs => simp [advance, h]

theorem mem_lots_of_sold {s : Sale α} {x : α} (h : x ∈ s.sold) : x ∈ s.lots :=
  List.mem_append_left _ (List.mem_append_left _ h)

theorem mem_lots_of_opened {s : Sale α} {x : α} (h : x ∈ s.opened) : x ∈ s.lots :=
  List.mem_append_left _ h

theorem mem_lots_of_waiting {s : Sale α} {x : α} (h : x ∈ s.waiting) : x ∈ s.lots :=
  List.mem_append_right _ h

theorem mem_opened_of_current {s : Sale α} {x : α} (h : s.current = some x) : x ∈ s.opened := by
  simp [opened, h]

/-- A lot is on offer only in a sale that has started. -/
theorem started_of_current {s : Sale α} {x : α} (h : s.current = some x) : s.started = true := by
  by_contra hfalse
  have hfresh := (s.fresh (Bool.eq_false_iff.mpr hfalse)).1
  simp [h] at hfresh

/-- In a sale without repeated lots, what has been on offer is not waiting any more. -/
theorem opened_not_waiting {β : Type} {f : α → β} {s : Sale α} (hnodup : (s.lots.map f).Nodup)
    {x y : α} (hx : x ∈ s.opened) (hy : y ∈ s.waiting) : f x ≠ f y := by
  rw [lots, List.map_append, List.nodup_append] at hnodup
  exact hnodup.2.2 _ (List.mem_map_of_mem hx) _ (List.mem_map_of_mem hy)

/-- The lot on offer is not yet sold. -/
theorem current_not_sold {β : Type} {f : α → β} {s : Sale α} (hnodup : (s.lots.map f).Nodup)
    {x y : α} (hx : s.current = some x) (hy : y ∈ s.sold) : f y ≠ f x := by
  rw [lots, opened, hx, Option.toList_some, List.map_append, List.map_append,
    List.nodup_append, List.nodup_append] at hnodup
  exact hnodup.1.2.2 _ (List.mem_map_of_mem hy) _ (List.mem_map_of_mem (List.mem_singleton_self x))

end Sale

end Bidding
