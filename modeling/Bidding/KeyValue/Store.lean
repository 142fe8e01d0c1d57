import Mathlib.Data.List.Sort
import Bidding.Effects.Program

/-!
# A Key-Value Store with Typed Values

The data model of a Redis-like server, over arbitrary keys `K`, hash fields `F` and
texts `V`: strings, sets, hashes, lists and sorted sets, and the commands that act on
them. Every command is atomic.

## Modelling choices

- Each key holds one value per data type. The server has one value per key and answers
  a type error otherwise; a client that uses every key with one type cannot tell.
- A list grows at its head (`LPUSH`) and is popped at its other end (`RPOP`).
- `SMEMBERS` answers in an order of the server's own choosing, the parameter `order`.
- `ZRANGEBYSCORE` answers by ascending score; members of one score come in the order
  `lex` of their texts.
-/

namespace Bidding.KeyValue

/-- What the server holds. -/
structure Store (K F V : Type) where
  strings : K → Option V
  sets : K → List V
  hashes : K → F → Option V
  lists : K → List V
  zsets : K → List (V × ℤ)

namespace Store

variable {K F V : Type}

/-- The store after `FLUSHALL`. -/
def empty : Store K F V where
  strings _ := none
  sets _ := []
  hashes _ _ := none
  lists _ := []
  zsets _ := []

variable [DecidableEq K] [DecidableEq F] [DecidableEq V]

/-- `SET` -/
def set (s : Store K F V) (k : K) (v : V) : Store K F V :=
  { s with strings := Function.update s.strings k (some v) }

/-- `SADD` -/
def sadd (s : Store K F V) (k : K) (v : V) : Store K F V :=
  { s with sets := Function.update s.sets k ((s.sets k).insert v) }

/-- `HSET` -/
def hset (s : Store K F V) (k : K) (f : F) (v : V) : Store K F V :=
  { s with hashes := Function.update s.hashes k (Function.update (s.hashes k) f (some v)) }

/-- `HSETNX`: the first write of a field wins. -/
def hsetnx (s : Store K F V) (k : K) (f : F) (v : V) : Store K F V :=
  match s.hashes k f with
  | some _ => s
  | none => s.hset k f v

/-- `LPUSH` -/
def lpush (s : Store K F V) (k : K) (v : V) : Store K F V :=
  { s with lists := Function.update s.lists k (v :: s.lists k) }

/-- `RPOP`: the element answered is `(s.lists k).getLast?`. -/
def rpop (s : Store K F V) (k : K) : Store K F V :=
  { s with lists := Function.update s.lists k (s.lists k).dropLast }

end Store

/-! ## Sorted sets -/

section SortedSet

variable {V : Type} [DecidableEq V]

/-- `ZADD` on one sorted set: a known member gets the new score, a new one is added. -/
def zinsert (z : List (V × ℤ)) (score : ℤ) (member : V) : List (V × ℤ) :=
  if member ∈ z.map Prod.fst then
    z.map (fun p => if p.1 = member then (member, score) else p)
  else
    z ++ [(member, score)]

/-- Order of a sorted set: by score, then by text. -/
def zle (lex : V → V → Bool) (p q : V × ℤ) : Prop :=
  p.2 < q.2 ∨ (p.2 = q.2 ∧ lex p.1 q.1 = true)

instance (lex : V → V → Bool) : DecidableRel (zle lex) :=
  fun p q => inferInstanceAs (Decidable (p.2 < q.2 ∨ (p.2 = q.2 ∧ lex p.1 q.1 = true)))

/-- `ZRANGEBYSCORE` on one sorted set. -/
def zrange (lex : V → V → Bool) (z : List (V × ℤ)) (lo hi : ℤ) : List V :=
  ((z.filter (fun p => decide (lo ≤ p.2 ∧ p.2 ≤ hi))).insertionSort (zle lex)).map Prod.fst

end SortedSet

namespace Store

variable {K F V : Type} [DecidableEq K] [DecidableEq V]

/-- `ZADD` -/
def zadd (s : Store K F V) (k : K) (score : ℤ) (member : V) : Store K F V :=
  { s with zsets := Function.update s.zsets k (zinsert (s.zsets k) score member) }

end Store

/-! ## Commands -/

/-- The commands of the server. -/
inductive Command (K F V : Type) where
  | flushAll
  | get (k : K)
  | set (k : K) (v : V)
  | sadd (k : K) (v : V)
  | sismember (k : K) (v : V)
  | smembers (k : K)
  | hget (k : K) (f : F)
  | hgetAll (k : K)
  | hset (k : K) (f : F) (v : V)
  | hsetnx (k : K) (f : F) (v : V)
  | lpush (k : K) (v : V)
  | rpop (k : K)
  | zadd (k : K) (score : ℤ) (member : V)
  | zcard (k : K)
  | zrangeByScore (k : K) (lo hi : ℤ)

variable {K F V : Type}

/-- What the server answers to a command. -/
def Reply : Command K F V → Type
  | .get _ | .hget _ _ | .rpop _ => Option V
  | .sismember _ _ => Bool
  | .smembers _ | .zrangeByScore _ _ _ => List V
  | .hgetAll _ => F → Option V
  | .zcard _ => ℕ
  | .flushAll | .set _ _ | .sadd _ _ | .hset _ _ _ | .hsetnx _ _ _ | .lpush _ _
  | .zadd _ _ _ => Unit

/-- The choices a server is free to make. -/
structure ServerOrder (V : Type) where
  /-- order in which `SMEMBERS` answers -/
  members : List V → List V
  members_perm : ∀ l, (members l).Perm l
  /-- order of texts, used between members of one score -/
  lex : V → V → Bool
  lex_total : ∀ a b, lex a b = true ∨ lex b a = true
  lex_trans : ∀ a b c, lex a b = true → lex b c = true → lex a c = true

/-- A server that answers sets as it stores them and knows no order of texts. -/
def ServerOrder.plain : ServerOrder V where
  members l := l
  members_perm l := List.Perm.refl l
  lex _ _ := true
  lex_total _ _ := .inl rfl
  lex_trans _ _ _ _ _ := rfl

variable [DecidableEq K] [DecidableEq F] [DecidableEq V]

/-- A server that answers one set in a given order. -/
def ServerOrder.answering (o : ServerOrder V) {l answer : List V} (h : answer.Perm l) :
    ServerOrder V where
  members l' := if l' = l then answer else o.members l'
  members_perm l' := by
    split
    · rename_i heq
      rw [heq]
      exact h
    · exact o.members_perm l'
  lex := o.lex
  lex_total := o.lex_total
  lex_trans := o.lex_trans

omit [DecidableEq K] [DecidableEq F] in
@[simp] theorem ServerOrder.members_answering (o : ServerOrder V) {l answer : List V}
    (h : answer.Perm l) : (o.answering h).members l = answer :=
  if_pos rfl

/-- Answer a command and update the store. -/
def exec (o : ServerOrder V) : Effects.Handler (Command K F V) Reply (Store K F V)
  | .flushAll, _ => ((), Store.empty)
  | .get k, s => (s.strings k, s)
  | .set k v, s => ((), s.set k v)
  | .sadd k v, s => ((), s.sadd k v)
  | .sismember k v, s => (decide (v ∈ s.sets k), s)
  | .smembers k, s => (o.members (s.sets k), s)
  | .hget k f, s => (s.hashes k f, s)
  | .hgetAll k, s => (s.hashes k, s)
  | .hset k f v, s => ((), s.hset k f v)
  | .hsetnx k f v, s => ((), s.hsetnx k f v)
  | .lpush k v, s => ((), s.lpush k v)
  | .rpop k, s => ((s.lists k).getLast?, s.rpop k)
  | .zadd k score m, s => ((), s.zadd k score m)
  | .zcard k, s => ((s.zsets k).length, s)
  | .zrangeByScore k lo hi, s => (zrange o.lex (s.zsets k) lo hi, s)

/-! ## What a write leaves under its key -/

namespace Store

omit [DecidableEq F] [DecidableEq V] in
@[simp] theorem strings_set (s : Store K F V) (k : K) (v : V) :
    (s.set k v).strings k = some v :=
  Function.update_self ..

omit [DecidableEq F] in
@[simp] theorem sets_sadd (s : Store K F V) (k : K) (v : V) :
    (s.sadd k v).sets k = (s.sets k).insert v :=
  Function.update_self ..

omit [DecidableEq F] [DecidableEq V] in
@[simp] theorem lists_lpush (s : Store K F V) (k : K) (v : V) :
    (s.lpush k v).lists k = v :: s.lists k :=
  Function.update_self ..

omit [DecidableEq F] [DecidableEq V] in
@[simp] theorem lists_rpop (s : Store K F V) (k : K) :
    (s.rpop k).lists k = (s.lists k).dropLast :=
  Function.update_self ..

omit [DecidableEq V] in
@[simp] theorem hashes_hset (s : Store K F V) (k : K) (f f' : F) (v : V) :
    (s.hset k f v).hashes k f' = if f' = f then some v else s.hashes k f' := by
  simp only [hset, Function.update_self, Function.update_apply]

omit [DecidableEq V] in
@[simp] theorem lists_hsetnx (s : Store K F V) (k : K) (f : F) (v : V) :
    (s.hsetnx k f v).lists = s.lists := by
  unfold hsetnx
  split <;> rfl

omit [DecidableEq V] in
@[simp] theorem strings_hsetnx (s : Store K F V) (k : K) (f : F) (v : V) :
    (s.hsetnx k f v).strings = s.strings := by
  unfold hsetnx
  split <;> rfl

omit [DecidableEq V] in
/-- A field that has a value keeps it. -/
theorem hashes_hsetnx (s : Store K F V) (k : K) (f f' : F) (v : V) :
    (s.hsetnx k f v).hashes k f' =
      (s.hashes k f').or (if f' = f then some v else none) := by
  unfold hsetnx
  by_cases hf : f' = f
  · -- the field itself: it is written only if it has no value
    subst hf
    cases h : s.hashes k f' with
    | none => simp
    | some v' => simp [h]
  · cases h : s.hashes k f with
    | none => simp [hf]
    | some v' => simp [hf]

omit [DecidableEq F] in
/-- A set keeps its members. -/
theorem sadd_of_mem {s : Store K F V} {k : K} {v : V} (h : v ∈ s.sets k) : s.sadd k v = s := by
  unfold sadd
  rw [List.insert_of_mem h, Function.update_eq_self]

omit [DecidableEq V] in
/-- A field that is there is not written. -/
theorem hsetnx_of_ne_none {s : Store K F V} {k : K} {f : F} (h : s.hashes k f ≠ none) (v : V) :
    s.hsetnx k f v = s := by
  obtain ⟨v', hv'⟩ := Option.ne_none_iff_exists'.mp h
  unfold hsetnx
  rw [hv']

omit [DecidableEq V] in
@[simp] theorem sets_hsetnx (s : Store K F V) (k : K) (f : F) (v : V) :
    (s.hsetnx k f v).sets = s.sets := by
  unfold hsetnx
  split <;> rfl

omit [DecidableEq V] in
/-- Writing fields unless they are there: what was there stays, and of several writes to one
    field the first counts. -/
theorem hashes_foldl_hsetnx (k : K) (cells : List (F × V)) (s : Store K F V) (f : F) :
    (cells.foldl (fun s c => s.hsetnx k c.1 c.2) s).hashes k f =
      (s.hashes k f).or ((cells.find? (fun c => c.1 = f)).map Prod.snd) := by
  induction cells generalizing s with
  | nil => simp
  | cons c cs ih =>
    rw [List.foldl_cons, ih, hashes_hsetnx, Option.or_assoc]
    congr 1
    by_cases hf : f = c.1
    · simp [hf]
    · simp [hf, Ne.symm hf]

end Store

/-! ## Which keys a command writes -/

/-- `c.Writes k`: the command may change what is stored under `k`. -/
def Command.Writes : Command K F V → K → Prop
  | .flushAll, _ => True
  | .set k _, k' | .sadd k _, k' | .hset k _ _, k' | .hsetnx k _ _, k' | .lpush k _, k'
  | .rpop k, k' | .zadd k _ _, k' => k = k'
  | .get _, _ | .sismember _ _, _ | .smembers _, _ | .hget _ _, _ | .hgetAll _, _
  | .zcard _, _ | .zrangeByScore _ _ _, _ => False

namespace Store

/-- Two stores hold the same under a key. -/
structure SameAt (k : K) (s t : Store K F V) : Prop where
  strings : s.strings k = t.strings k
  sets : s.sets k = t.sets k
  hashes : s.hashes k = t.hashes k
  lists : s.lists k = t.lists k
  zsets : s.zsets k = t.zsets k

variable {k : K} {s t u : Store K F V}

omit [DecidableEq K] [DecidableEq F] [DecidableEq V]

@[refl] theorem SameAt.refl (k : K) (s : Store K F V) : SameAt k s s :=
  ⟨rfl, rfl, rfl, rfl, rfl⟩

theorem SameAt.symm (h : SameAt k s t) : SameAt k t s :=
  ⟨h.strings.symm, h.sets.symm, h.hashes.symm, h.lists.symm, h.zsets.symm⟩

theorem SameAt.trans (h : SameAt k s t) (h' : SameAt k t u) : SameAt k s u :=
  ⟨h.strings.trans h'.strings, h.sets.trans h'.sets, h.hashes.trans h'.hashes,
    h.lists.trans h'.lists, h.zsets.trans h'.zsets⟩

/-- Stores that agree under every key are the same. -/
theorem ext_sameAt (h : ∀ k, SameAt k s t) : s = t := by
  have hstrings : s.strings = t.strings := funext fun k => (h k).strings
  have hsets : s.sets = t.sets := funext fun k => (h k).sets
  have hhashes : s.hashes = t.hashes := funext fun k => (h k).hashes
  have hlists : s.lists = t.lists := funext fun k => (h k).lists
  have hzsets : s.zsets = t.zsets := funext fun k => (h k).zsets
  cases s
  cases t
  simp only at hstrings hsets hhashes hlists hzsets
  subst hstrings hsets hhashes hlists hzsets
  rfl

end Store

namespace Store

variable {k k' : K} (s : Store K F V)

omit [DecidableEq F] [DecidableEq V] in
theorem sameAt_set (h : k ≠ k') (v : V) : SameAt k (s.set k' v) s :=
  ⟨Function.update_of_ne h .., rfl, rfl, rfl, rfl⟩

omit [DecidableEq F] in
theorem sameAt_sadd (h : k ≠ k') (v : V) : SameAt k (s.sadd k' v) s :=
  ⟨rfl, Function.update_of_ne h .., rfl, rfl, rfl⟩

omit [DecidableEq V] in
theorem sameAt_hset (h : k ≠ k') (f : F) (v : V) : SameAt k (s.hset k' f v) s :=
  ⟨rfl, rfl, Function.update_of_ne h .., rfl, rfl⟩

omit [DecidableEq V] in
theorem sameAt_hsetnx (h : k ≠ k') (f : F) (v : V) : SameAt k (s.hsetnx k' f v) s := by
  unfold hsetnx
  split
  · exact SameAt.refl k s
  · exact sameAt_hset s h f v

omit [DecidableEq V] in
theorem sameAt_foldl_hsetnx (h : k ≠ k') (cells : List (F × V)) :
    SameAt k (cells.foldl (fun s c => s.hsetnx k' c.1 c.2) s) s := by
  induction cells generalizing s with
  | nil => exact SameAt.refl k s
  | cons c cs ih => exact (ih _).trans (sameAt_hsetnx s h c.1 c.2)

omit [DecidableEq F] [DecidableEq V] in
theorem sameAt_lpush (h : k ≠ k') (v : V) : SameAt k (s.lpush k' v) s :=
  ⟨rfl, rfl, rfl, Function.update_of_ne h .., rfl⟩

omit [DecidableEq F] [DecidableEq V] in
theorem sameAt_rpop (h : k ≠ k') : SameAt k (s.rpop k') s :=
  ⟨rfl, rfl, rfl, Function.update_of_ne h .., rfl⟩

omit [DecidableEq F] in
theorem sameAt_zadd (h : k ≠ k') (score : ℤ) (m : V) : SameAt k (s.zadd k' score m) s :=
  ⟨rfl, rfl, rfl, rfl, Function.update_of_ne h ..⟩

end Store

/-- A command leaves alone what is stored under the keys it does not write. -/
theorem exec_sameAt (o : ServerOrder V) {c : Command K F V} {k : K} (hk : ¬ c.Writes k)
    (s : Store K F V) : Store.SameAt k (exec o c s).2 s := by
  cases c with
  | flushAll => exact absurd trivial hk
  | set k' v => exact s.sameAt_set (fun h => hk h.symm) v
  | sadd k' v => exact s.sameAt_sadd (fun h => hk h.symm) v
  | hset k' f v => exact s.sameAt_hset (fun h => hk h.symm) f v
  | hsetnx k' f v => exact s.sameAt_hsetnx (fun h => hk h.symm) f v
  | lpush k' v => exact s.sameAt_lpush (fun h => hk h.symm) v
  | rpop k' => exact s.sameAt_rpop (fun h => hk h.symm)
  | zadd k' score m => exact s.sameAt_zadd (fun h => hk h.symm) score m
  | get _ | sismember _ _ | smembers _ | hget _ _ | hgetAll _ | zcard _
  | zrangeByScore _ _ _ => exact Store.SameAt.refl k s

end Bidding.KeyValue
