import Mathlib.Data.List.Basic
import Mathlib.Logic.Function.Basic

/-!
# Loops with a Control Break

A loop runs over rows that come group by group. It keeps the group it is in, and when a row of
another group comes, or the rows end, it emits the group. The module says what such a loop
computes: a fold over the groups of the rows, one group for each key, in the order of first
appearance.

## Key Results

- **`groups_append`**: the groups of rows whose first group is known.
- **`ControlBreak.foldl_rows`**: the rule for the loop. It needs one fact about a row of the
  group that is open, and one about a row of another group.
- **`foldl_counted`**: a loop that finishes at the turn whose number is a given size.
- **`foldl_put`**: groups that each update the value of their own key.
-/

namespace Bidding.Collections

variable {α κ S T : Type} [DecidableEq κ]

/-! ## Groups -/

/-- The rows of each key are side by side: the key of a row is that of the next row, or it does
    not come again. -/
def Contiguous (key : α → κ) : List α → Prop
  | [] => True
  | [_] => True
  | a :: b :: l => (key a = key b ∨ key a ∉ (b :: l).map key) ∧ Contiguous key (b :: l)

instance decidableContiguous (key : α → κ) : (l : List α) → Decidable (Contiguous key l)
  | [] => isTrue trivial
  | [_] => isTrue trivial
  | a :: b :: l =>
    @instDecidableAnd (key a = key b ∨ key a ∉ (b :: l).map key) (Contiguous key (b :: l))
      inferInstance (decidableContiguous key (b :: l))

/-- The rows of each key, the keys in the order of first appearance. -/
def groups (key : α → κ) (l : List α) : List (List α) :=
  (l.map key).eraseDups.map (fun k => l.filter (fun a => key a = k))

variable {key : α → κ} {l : List α}

@[simp] theorem groups_nil : groups key [] = [] := rfl

/-- No group is empty. -/
theorem exists_cons_of_mem_groups {g : List α} (hg : g ∈ groups key l) :
    ∃ b g', g = b :: g' ∧ b ∈ l := by
  obtain ⟨k, hk, rfl⟩ := List.mem_map.mp hg
  obtain ⟨a, ha, rfl⟩ := List.mem_map.mp (List.mem_eraseDups.mp hk)
  have hmem : a ∈ l.filter fun b => key b = key a :=
    List.mem_filter.mpr ⟨ha, decide_eq_true rfl⟩
  obtain ⟨b, g', hcons⟩ := List.exists_cons_of_ne_nil (List.ne_nil_of_mem hmem)
  exact ⟨b, g', hcons, List.mem_of_mem_filter (hcons ▸ List.mem_cons_self)⟩

omit [DecidableEq κ] in
theorem Contiguous.tail {a : α} (h : Contiguous key (a :: l)) : Contiguous key l := by
  cases l with
  | nil => trivial
  | cons b l => exact h.2

omit [DecidableEq κ] in
theorem Contiguous.of_append {l' : List α} (h : Contiguous key (l' ++ l)) : Contiguous key l := by
  induction l' with
  | nil => exact h
  | cons a l' ih => exact ih h.tail

omit [DecidableEq κ] in
/-- Once a row of another key has come, the key of the open group does not come again. -/
theorem Contiguous.not_mem {a b : α} {g : List α} (h : Contiguous key (b :: g ++ a :: l))
    (hg : ∀ c ∈ g, key c = key b) (hne : key a ≠ key b) : key b ∉ (a :: l).map key := by
  induction g generalizing b with
  | nil => exact h.1.resolve_left (fun heq => hne heq.symm)
  | cons c g ih =>
    -- the next row of the group has the same key
    have hc : key c = key b := hg c List.mem_cons_self
    rw [← hc]
    apply ih h.tail
    · intro d hd
      rw [hg d (List.mem_cons_of_mem c hd), hc]
    · rw [hc]
      exact hne

omit [DecidableEq κ] in
/-- Another key that is the same for the same elements of the list. -/
theorem Contiguous.congr {κ' : Type} {key' : α → κ'}
    (hkey : ∀ a ∈ l, ∀ b ∈ l, key' a = key' b ↔ key a = key b) (h : Contiguous key l) :
    Contiguous key' l := by
  induction l with
  | nil => trivial
  | cons a l ih =>
    have hrest := ih (fun b hb c hc =>
      hkey b (List.mem_cons_of_mem a hb) c (List.mem_cons_of_mem a hc)) h.tail
    cases l with
    | nil => trivial
    | cons b l =>
      -- either the next row has the same key under both, or the key comes back under neither
      refine ⟨h.1.imp (hkey a List.mem_cons_self b (by simp)).mpr fun hnot hmem => ?_, hrest⟩
      obtain ⟨c, hc, heq⟩ := List.mem_map.mp hmem
      exact hnot (List.mem_map.mpr ⟨c, hc,
        (hkey c (List.mem_cons_of_mem a hc) a List.mem_cons_self).mp heq⟩)

omit [DecidableEq κ] in
/-- A key of the images is a key of the rows themselves. -/
theorem contiguous_map {β : Type} {f : β → α} {l : List β} :
    Contiguous key (l.map f) ↔ Contiguous (fun b => key (f b)) l := by
  induction l with
  | nil => rfl
  | cons a l ih =>
    cases l with
    | nil => rfl
    | cons b l =>
      have hkeys : ((b :: l).map f).map key = (b :: l).map (fun b => key (f b)) := by simp
      show (key (f a) = key (f b) ∨ key (f a) ∉ ((b :: l).map f).map key) ∧ _ ↔ _
      rw [hkeys]
      exact and_congr_right (fun _ => ih)

omit [DecidableEq κ] in
/-- Leaving out all rows of some keys keeps those of the other keys side by side. -/
theorem Contiguous.filter_key (p : κ → Bool) (h : Contiguous key l) :
    Contiguous key (l.filter (fun a => p (key a))) := by
  induction l with
  | nil => trivial
  | cons a l ih =>
    rw [List.filter_cons]
    split
    · rename_i ha
      cases l with
      | nil => trivial
      | cons b l =>
        cases hrest : (b :: l).filter (fun a => p (key a)) with
        | nil => trivial
        | cons c rest =>
          rw [← hrest]
          have hkeys : ∀ k ∈ ((b :: l).filter (fun a => p (key a))).map key,
              k ∈ (b :: l).map key := by
            intro k hk
            obtain ⟨d, hd, rfl⟩ := List.mem_map.mp hk
            exact List.mem_map_of_mem (List.mem_of_mem_filter hd)
          rcases h.1 with hab | hnot
          · -- the next row is kept as well, since it has the same key
            rw [hab] at ha
            rw [List.filter_cons, if_pos ha]
            have hrow := ih h.tail
            rw [List.filter_cons, if_pos ha] at hrow
            exact ⟨Or.inl hab, hrow⟩
          · -- a key that does not come again does not come again among fewer rows
            have hrow := ih h.tail
            rw [hrest] at hrow hkeys ⊢
            exact ⟨Or.inr (fun hmem => hnot (hkeys _ hmem)), hrow⟩
    · exact ih h.tail

/-- The groups of images are the images of the groups. -/
theorem groups_map {β : Type} {f : β → α} {l : List β} :
    groups key (l.map f) = (groups (fun b => key (f b)) l).map (List.map f) := by
  unfold groups
  rw [List.map_map, List.map_map]
  apply List.map_congr_left
  intro k _
  exact List.filter_map

/-- The first group of rows whose first group is known. -/
theorem groups_append {b : α} {g : List α} (hg : ∀ c ∈ g, key c = key b)
    (hnot : key b ∉ l.map key) : groups key (b :: g ++ l) = (b :: g) :: groups key l := by
  -- the key of the block comes first and does not come back
  have hhead : ((b :: g ++ l).map key).eraseDups = key b :: (l.map key).eraseDups := by
    rw [List.cons_append, List.map_cons, List.eraseDups_cons, List.map_append, List.filter_append]
    have hnone : (g.map key).filter (fun k => !k == key b) = [] := by
      apply List.filter_eq_nil_iff.mpr
      intro k hk
      obtain ⟨c, hc, rfl⟩ := List.mem_map.mp hk
      simp [hg c hc]
    have hall : (l.map key).filter (fun k => !k == key b) = l.map key := by
      apply List.filter_eq_self.mpr
      intro k hk
      have hk' : k ≠ key b := fun h => hnot (h ▸ hk)
      simp [hk']
    rw [hnone, hall, List.nil_append]
  unfold groups
  rw [hhead, List.map_cons]
  congr 1
  · -- its rows are exactly the block
    rw [List.filter_append]
    have hown : (b :: g).filter (fun a => key a = key b) = b :: g := by
      apply List.filter_eq_self.mpr
      intro c hc
      rcases List.mem_cons.mp hc with rfl | hc
      · simp
      · simp [hg c hc]
    have hother : l.filter (fun a => key a = key b) = [] := by
      apply List.filter_eq_nil_iff.mpr
      intro c hc heq
      exact hnot (List.mem_map.mpr ⟨c, hc, of_decide_eq_true heq⟩)
    rw [hown, hother, List.append_nil]
  · -- the rows of another key are all behind the block
    apply List.map_congr_left
    intro k hk
    have hk' : k ≠ key b := fun h => hnot (h ▸ List.mem_eraseDups.mp hk)
    rw [List.filter_append]
    have hnone : (b :: g).filter (fun a => key a = k) = [] := by
      apply List.filter_eq_nil_iff.mpr
      intro c hc heq
      have hkey : key c = key b := by
        rcases List.mem_cons.mp hc with rfl | hc
        · rfl
        · exact hg c hc
      exact hk' ((of_decide_eq_true heq).symm.trans hkey)
    rw [hnone, List.nil_append]

/-! ## The loop -/

/-- The rule of a control break. `R t b g s` says of the state `s` of the loop that the groups
    before have been emitted into `t`, and that the open group is `b :: g`. A row with the key
    of the open group joins it; a row with another key emits it and opens a group. -/
structure ControlBreak (key : α → κ) (emit : T → List α → T) (turn : S → α → S)
    (R : T → α → List α → S → Prop) : Prop where
  same : ∀ {t b g s a}, R t b g s → key a = key b → R t b (g ++ [a]) (turn s a)
  next : ∀ {t b g s a}, R t b g s → key a ≠ key b → R (emit t (b :: g)) a [] (turn s a)

namespace ControlBreak

variable {emit : T → List α → T} {turn : S → α → S} {R : T → α → List α → S → Prop}

/-- From a state with an open group: the last group of the rows is open at the end, and the
    groups before it have been emitted. -/
theorem foldl_open (h : ControlBreak key emit turn R) {t : T} {b : α} {g : List α} {s : S}
    (hR : R t b g s) (hg : ∀ c ∈ g, key c = key b) (hrows : Contiguous key (b :: g ++ l)) :
    ∃ gs b' g', groups key (b :: g ++ l) = gs ++ [b' :: g'] ∧
      R (gs.foldl emit t) b' g' (l.foldl turn s) := by
  induction l generalizing t b g s with
  | nil =>
    use [], b, g
    constructor
    · rw [groups_append hg (by simp)]
      simp
    · exact hR
  | cons a l ih =>
    by_cases hkey : key a = key b
    · -- the row joins the open group
      have hjoin : b :: g ++ a :: l = b :: (g ++ [a]) ++ l := by simp
      rw [hjoin] at hrows ⊢
      apply ih (h.same hR hkey) _ hrows
      intro c hc
      rcases List.mem_append.mp hc with hc | hc
      · exact hg c hc
      · rw [List.mem_singleton.mp hc, hkey]
    · -- the open group ends here
      obtain ⟨gs, b', g', hgroups, hend⟩ := ih (h.next hR hkey) (by simp) hrows.of_append
      use (b :: g) :: gs, b', g'
      constructor
      · rw [groups_append hg (hrows.not_mem hg hkey)]
        have hsingle : a :: [] ++ l = a :: l := rfl
        rw [hsingle] at hgroups
        rw [hgroups, List.cons_append]
      · exact hend

/-- The whole loop, with the state after the first row. -/
theorem foldl_rows (h : ControlBreak key emit turn R) {t : T} {a : α} {s : S}
    (hfirst : R t a [] (turn s a)) (hrows : Contiguous key (a :: l)) :
    ∃ gs b g, groups key (a :: l) = gs ++ [b :: g] ∧
      R (gs.foldl emit t) b g ((a :: l).foldl turn s) :=
  h.foldl_open hfirst (by simp) hrows

end ControlBreak

/-- A loop that counts its turns and finishes at the turn whose number is `size`. -/
theorem foldl_counted {turn : S → α → S} {count : S → ℕ} {finish : S → S} {size : ℕ} {s : S}
    (hcount : ∀ s a, count (turn s a) = count s + 1) (hs : count s + l.length ≤ size) :
    l.foldl (fun s a => if count (turn s a) = size then finish (turn s a) else turn s a) s =
      if l ≠ [] ∧ count s + l.length = size then finish (l.foldl turn s) else l.foldl turn s := by
  induction l generalizing s with
  | nil => simp
  | cons a l ih =>
    rw [List.length_cons] at hs
    rw [List.foldl_cons, List.foldl_cons]
    cases l with
    -- the last turn is the one that finishes
    | nil => simp [hcount]
    | cons b l =>
      rw [List.length_cons] at hs
      -- this is not the last turn
      have hnot : count (turn s a) ≠ size := by
        rw [hcount]
        omega
      have hlen : count (turn s a) + (b :: l).length = count s + (a :: b :: l).length := by
        rw [hcount]
        simp only [List.length_cons]
        omega
      have hbound : count (turn s a) + (b :: l).length ≤ size := by
        rw [hcount, List.length_cons]
        omega
      rw [if_neg hnot, ih hbound, hlen]
      simp

/-! ## Emitting into a map -/

/-- Every key is listed once. -/
theorem nodup_eraseDups (ks : List κ) : ks.eraseDups.Nodup := by
  induction hlen : ks.length using Nat.strongRecOn generalizing ks with
  | ind n ih =>
    cases ks with
    | nil => simp
    | cons k ks =>
      rw [List.eraseDups_cons]
      apply List.nodup_cons.mpr
      constructor
      · simp
      · -- the list is shorter without the copies of its first key
        apply ih _ _ _ rfl
        have hle := List.length_filter_le (fun c => !c == k) ks
        rw [List.length_cons] at hlen
        omega

/-- A group updates the value of its key. -/
def put {V : Type} (key : α → κ) (update : Option V → List α → Option V) (t : κ → Option V)
    (g : List α) : κ → Option V :=
  match g with
  | [] => t
  | a :: _ => Function.update t (key a) (update (t (key a)) g)

variable {V : Type} {update : Option V → List α → Option V}

theorem put_of_forall {k : κ} {t : κ → Option V} {g : List α} (hne : g ≠ [])
    (hg : ∀ a ∈ g, key a = k) : put key update t g = Function.update t k (update (t k) g) := by
  cases g with
  | nil => exact absurd rfl hne
  | cons a g => rw [put, hg a List.mem_cons_self]

/-- The value of a key after all groups: it depends on the rows of that key only. -/
theorem foldl_put (hnil : ∀ v, update v [] = v) (t : κ → Option V) (k : κ) :
    (groups key l).foldl (put key update) t k =
      update (t k) (l.filter (fun a => key a = k)) := by
  -- over any keys that differ from each other, and that all have rows
  have hkeys : ∀ ks : List κ, ks.Nodup → (∀ c ∈ ks, c ∈ l.map key) → ∀ t : κ → Option V,
      (ks.map (fun c => l.filter (fun a => key a = c))).foldl (put key update) t k =
        if k ∈ ks then update (t k) (l.filter (fun a => key a = k)) else t k := by
    intro ks hnodup hmem
    induction ks with
    | nil => simp
    | cons c ks ih =>
      intro t
      obtain ⟨hc, hnodup'⟩ := List.nodup_cons.mp hnodup
      have hrows : l.filter (fun a => key a = c) ≠ [] := by
        obtain ⟨a, ha, hkey⟩ := List.mem_map.mp (hmem c List.mem_cons_self)
        apply List.ne_nil_of_mem (a := a)
        exact List.mem_filter.mpr ⟨ha, decide_eq_true hkey⟩
      have hown : ∀ a ∈ l.filter (fun a => key a = c), key a = c := by
        intro a ha
        exact of_decide_eq_true (List.mem_filter.mp ha).2
      rw [List.map_cons, List.foldl_cons, put_of_forall hrows hown,
        ih hnodup' (fun d hd => hmem d (List.mem_cons_of_mem c hd))]
      -- the value of `k` is updated once, when its own group comes
      by_cases hk : k = c
      · subst hk
        rw [if_neg hc, if_pos List.mem_cons_self, Function.update_self]
      · rw [Function.update_of_ne hk]
        simp only [List.mem_cons, hk, false_or]
  unfold groups
  rw [hkeys _ (nodup_eraseDups _) (fun c hc => List.mem_eraseDups.mp hc) t]
  split
  · rfl
  · rename_i hnot
    -- a key without rows keeps its value
    have hnone : l.filter (fun a => key a = k) = [] := by
      apply List.filter_eq_nil_iff.mpr
      intro a ha heq
      apply hnot
      exact List.mem_eraseDups.mpr (List.mem_map.mpr ⟨a, ha, of_decide_eq_true heq⟩)
    rw [hnone, hnil]

end Bidding.Collections
