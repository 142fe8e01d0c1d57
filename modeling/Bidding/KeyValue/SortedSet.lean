import Mathlib.Data.List.Pairwise
import Bidding.KeyValue.Store

/-!
# Sorted Sets with Distinct Scores

What a sorted set holds after it was filled with distinct members, and what a range query
on it answers when the scores are distinct too: the members of the range by ascending
score, whatever the order of texts.
-/

namespace Bidding.KeyValue

variable {V : Type} [DecidableEq V]

/-- Filling a sorted set with new members appends them. -/
theorem foldl_zinsert (l z : List (V × ℤ)) (hnodup : ((z ++ l).map Prod.fst).Nodup) :
    l.foldl (fun z p => zinsert z p.2 p.1) z = z ++ l := by
  induction l generalizing z with
  | nil => simp
  | cons p ps ih =>
    -- the next member is not in the set yet, so it is put at the end
    have hnew : p.1 ∉ z.map Prod.fst := by
      rw [List.map_append, List.nodup_append] at hnodup
      intro hmem
      exact hnodup.2.2 _ hmem p.1 (by simp) rfl
    have hstep : zinsert z p.2 p.1 = z ++ [p] := by simp only [zinsert, if_neg hnew]
    rw [List.foldl_cons, hstep, ih]
    · simp
    · simpa using hnodup

/-- Inserting brings in the new member only. -/
theorem mem_zinsert {z : List (V × ℤ)} {score : ℤ} {member m : V}
    (h : m ∈ (zinsert z score member).map Prod.fst) : m ∈ z.map Prod.fst ∨ m = member := by
  unfold zinsert at h
  split at h
  · rw [List.map_map] at h
    obtain ⟨p, hp, rfl⟩ := List.mem_map.mp h
    simp only [Function.comp]
    split
    · exact .inr rfl
    · exact .inl (List.mem_map_of_mem hp)
  · simpa using h

/-- Filling a sorted set adds no other members. -/
theorem mem_foldl_zinsert {l z : List (V × ℤ)} {m : V}
    (h : m ∈ (l.foldl (fun z p => zinsert z p.2 p.1) z).map Prod.fst) :
    m ∈ z.map Prod.fst ∨ m ∈ l.map Prod.fst := by
  induction l generalizing z with
  | nil => exact .inl h
  | cons p ps ih =>
    rcases ih h with hz | hps
    · exact (mem_zinsert hz).imp_right fun hm => by simp [hm]
    · exact .inr (List.mem_cons_of_mem _ hps)

/-- Inserting keeps the members distinct. -/
theorem nodup_zinsert {z : List (V × ℤ)} (h : (z.map Prod.fst).Nodup) (score : ℤ) (member : V) :
    ((zinsert z score member).map Prod.fst).Nodup := by
  unfold zinsert
  split
  · -- a member that is there keeps its place
    rw [List.map_map]
    have hfst : Prod.fst ∘ (fun p : V × ℤ => if p.1 = member then (member, score) else p) =
        Prod.fst := by
      funext p
      by_cases hp : p.1 = member <;> simp [hp]
    rwa [hfst]
  · -- a new member is put at the end, and is not there before
    rename_i hnew
    rw [List.map_append, List.nodup_append]
    refine ⟨h, by simp, fun a ha b hb heq => hnew ?_⟩
    have hmember : b = member := by simpa using hb
    rwa [← hmember, ← heq]

/-- No member is in a sorted set twice. -/
theorem nodup_foldl_zinsert (l : List (V × ℤ)) {z : List (V × ℤ)} (h : (z.map Prod.fst).Nodup) :
    ((l.foldl (fun z p => zinsert z p.2 p.1) z).map Prod.fst).Nodup := by
  induction l generalizing z with
  | nil => exact h
  | cons p ps ih => exact ih (nodup_zinsert h p.2 p.1)

omit [DecidableEq V] in
theorem nodup_zrange (lex : V → V → Bool) {z : List (V × ℤ)} (h : (z.map Prod.fst).Nodup)
    (lo hi : ℤ) : (zrange lex z lo hi).Nodup := by
  have hperm := List.perm_insertionSort (zle lex)
    (z.filter (fun p => decide (lo ≤ p.2 ∧ p.2 ≤ hi)))
  exact (hperm.map Prod.fst).nodup_iff.mpr (h.sublist (List.filter_sublist.map _))

omit [DecidableEq V] in
theorem mem_of_mem_zrange {lex : V → V → Bool} {z : List (V × ℤ)} {lo hi : ℤ} {m : V}
    (h : m ∈ zrange lex z lo hi) : m ∈ z.map Prod.fst := by
  obtain ⟨p, hp, rfl⟩ := List.mem_map.mp h
  rw [List.mem_insertionSort] at hp
  exact List.mem_map_of_mem (List.mem_of_mem_filter hp)

omit [DecidableEq V] in
/-- A range query answers the members of the range by ascending score. -/
theorem zrange_eq (o : ServerOrder V) {z l : List (V × ℤ)} {lo hi : ℤ}
    (hperm : l.Perm (z.filter (fun p => decide (lo ≤ p.2 ∧ p.2 ≤ hi))))
    (hasc : l.Pairwise (fun p q => p.2 < q.2)) : zrange o.lex z lo hi = l.map Prod.fst := by
  -- the server's order is total and transitive
  have htotal : Std.Total (zle o.lex) := by
    constructor
    intro p q
    rcases lt_trichotomy p.2 q.2 with h | h | h
    · exact .inl (.inl h)
    · rcases o.lex_total p.1 q.1 with hl | hl
      · exact .inl (.inr ⟨h, hl⟩)
      · exact .inr (.inr ⟨h.symm, hl⟩)
    · exact .inr (.inl h)
  have htrans : IsTrans (V × ℤ) (zle o.lex) := by
    constructor
    rintro p q r (hpq | ⟨hpq, hl⟩) (hqr | ⟨hqr, hl'⟩)
    · exact .inl (hpq.trans hqr)
    · exact .inl (hqr ▸ hpq)
    · exact .inl (hpq ▸ hqr)
    · exact .inr ⟨hpq.trans hqr, o.lex_trans _ _ _ hl hl'⟩
  have hsorted := List.pairwise_insertionSort (zle o.lex)
    (z.filter (fun p => decide (lo ≤ p.2 ∧ p.2 ≤ hi)))
  have hperm' := List.perm_insertionSort (zle o.lex)
    (z.filter (fun p => decide (lo ≤ p.2 ∧ p.2 ≤ hi)))
  -- two elements of the ascending list with one score are the same element
  have hanti : ∀ p ∈ l, ∀ q ∈ l, zle o.lex p q → zle o.lex q p → p = q := by
    intro p hp q hq hpq hqp
    have hscore : p.2 = q.2 := by
      rcases hpq with h | h <;> rcases hqp with h' | h'
      · exact absurd (h.trans h') (lt_irrefl _)
      · exact h'.1.symm
      · exact h.1
      · exact h.1
    by_contra hne
    have hdistinct : l.Pairwise (fun p q => p.2 ≠ q.2) := hasc.imp (fun h => ne_of_lt h)
    have hsymm : Std.Symm (fun p q : V × ℤ => p.2 ≠ q.2) := ⟨fun _ _ h => h.symm⟩
    exact hdistinct.forall hp hq hne hscore
  have heq : (z.filter (fun p => decide (lo ≤ p.2 ∧ p.2 ≤ hi))).insertionSort (zle o.lex) = l := by
    refine List.Perm.eq_of_pairwise ?_ hsorted (hasc.imp fun h => .inl h)
      (hperm'.trans hperm.symm)
    intro p q hp hq
    exact hanti p ((hperm'.trans hperm.symm).mem_iff.mp hp) q hq
  rw [zrange, heq]

end Bidding.KeyValue
