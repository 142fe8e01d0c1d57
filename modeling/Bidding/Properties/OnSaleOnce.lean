import Bidding.Effects.Tickets
import Bidding.Sale.Activities

/-!
# Is a Lot Put on Sale Twice?

The queue of lots is popped and the popped lot is made the active one in two commands. Several
timers can tick at the same time, requests run beside them, and the connection to the cache can
fail at any point. A lot can get lost on the way; but no lot is put on sale twice, since each pop
hands a lot to one tick only.

## Key Results

- **`saleTickets`**: the lots of the queue as tickets, drawn by a pop and spent when a lot is
  made the active one.
- **`thrifty_serve`**: every activity spends only what it drew.
- **`offers_nodup`**: in every interleaving, with any failures, no lot is put on sale twice.
-/

namespace Bidding.Model

open Bidding.Effects Bidding.Effects.Action Bidding.KeyValue
open RedisCacheService BidItemsCacheService

/-! ## What runs -/

/-- What can run until the cache is loaded again. -/
inductive Job where
  | activity (a : Activity)
  | closeAuction (auctionId : ℤ)

/-- The method that runs. -/
def Job.serve : Job → Act Unit
  | .activity a => a.serve
  | .closeAuction auctionId => AdminController.closeAuction auctionId

/-- Any number of jobs, side by side. -/
def running {ι : Type} (jobs : ι → Job) (w : World) :
    Pool Cmd Answer World (fun _ : ι => Except Exn Unit) where
  threads i := (jobs i).serve
  shared := ⟨w, []⟩

/-! ## What is put on sale -/

/-- The text that a command writes as the active item. -/
def setting : Cmd → Option Text
  | .redis (.set k v) => if k = .activeBidItemId then some v else none
  | _ => none

/-- The texts that were written as the active item, in order. -/
def settings {ι : Type} (log : List (ι × Cmd)) : List Text := log.filterMap (setting ·.2)

/-- The lots that were put on sale, in order; the text `0` marks the end of the sequence. -/
def offers {ι : Type} (log : List (ι × Cmd)) : List Text :=
  (settings log).filter (· ≠ .long 0)

/-- The lot that is popped from the queue. -/
def popped : (c : Cmd) → Answer c → Option Text
  | .redis (.rpop k), (r : Except Exn (Option Text)) =>
    if k = .bidItemSequenceIds then r.toOption.join else none
  | _, _ => none

/-- A lot that is popped from the queue can be put on sale once. -/
def saleTickets : Ticketing Cmd Answer World Text where
  stock w := w.redis.lists .bidItemSequenceIds
  drawn := popped
  spent c := (setting c).filter (· ≠ .long 0)
  allowed
    | .redis (.lpush k _) => k ≠ .bidItemSequenceIds
    | _ => True

theorem spentIn_saleTickets {ι : Type} (log : List (ι × Cmd)) :
    saleTickets.spentIn log = offers log := by
  unfold offers settings Ticketing.spentIn saleTickets
  rw [List.filter_filterMap]

/-! ## The queue -/

/-- A pop takes the popped lot out of the queue. -/
theorem getLast?_append_dropLast (l : List Text) :
    (l.getLast?.toList ++ l.dropLast).Subperm l := by
  cases hlast : l.getLast? with
  | none => exact (List.dropLast_sublist l).subperm
  | some t =>
    have hl : l.dropLast ++ [t] = l := List.dropLast_append_getLast? t hlast
    have hperm : (t :: l.dropLast).Perm (l.dropLast ++ [t]) :=
      (List.perm_append_singleton t l.dropLast).symm
    rw [hl] at hperm
    exact hperm.subperm

/-- Every call but a push keeps the lots of the queue, or hands one out. -/
theorem conserves_handle {env : Env} (hengine : EngineKeeps env) :
    saleTickets.Conserves (handle env) := by
  intro c hc w
  cases c with
  | redis c =>
    cases c with
    -- a flush only loses lots
    | flushAll => exact List.nil_subperm
    | rpop k =>
      by_cases hk : k = .bidItemSequenceIds
      · -- the lot that is handed out is the one that leaves the queue
        subst hk
        show ((w.redis.lists .bidItemSequenceIds).getLast?.toList ++
          (w.redis.rpop .bidItemSequenceIds).lists .bidItemSequenceIds).Subperm _
        rw [Store.lists_rpop]
        exact getLast?_append_dropLast _
      · have hdrawn : saleTickets.drawn (.redis (.rpop k)) (handle env (.redis (.rpop k)) w).1 =
            none := if_neg hk
        have hsame := (Store.sameAt_rpop w.redis (Ne.symm hk)).lists
        rw [hdrawn]
        exact (List.Perm.of_eq hsame).subperm
    | lpush k v =>
      -- only the load of an auction pushes lots
      have hsame := (Store.sameAt_lpush w.redis (Ne.symm hc) v).lists
      exact (List.Perm.of_eq hsame).subperm
    | hsetnx k f v =>
      have hlists := Store.lists_hsetnx w.redis k f v
      exact (List.Perm.of_eq (congrFun hlists _)).subperm
    | _ => exact List.Subperm.refl _
  | dao c =>
    have hlists := congrArg (Store.lists · .bidItemSequenceIds) (redis_handleDao env w c)
    exact (List.Perm.of_eq hlists).subperm
  | field c => cases c <;> exact List.Subperm.refl _
  | engineBid bid =>
    have hlists := (hengine w.auctioneer bid (env.times w 0) w.redis .bidItemSequenceIds id).lists
    exact (List.Perm.of_eq hlists).subperm
  | _ => exact List.Subperm.refl _

/-- A connection or a command that fails hands out no lot. -/
theorem failsDry_redisFault {ι : Type} : saleTickets.FailsDry (fun _ : ι => redisFault) := by
  intro _ c r hr
  cases c with
  | redis c =>
    obtain rfl := Option.some.inj hr
    cases c with
    | rpop k => exact ite_self none
    | _ => rfl
  | _ => rfl

/-! ## Thrift -/

/-- The routine commands neither fill the queue nor put a lot on sale. -/
theorem plain_of_routine {c : Cmd} (hc : Routine c) :
    saleTickets.allowed c ∧ saleTickets.spent c = none := by
  cases c with
  | redis c =>
    cases c with
    | set k v => exact absurd hc id
    | lpush k v => exact absurd hc id
    | _ => exact ⟨trivial, rfl⟩
  | _ => exact ⟨trivial, rfl⟩

/-- Thrift is kept by the ways in which actions are put together. -/
theorem composed_thrifty : Composed (fun α (p : Act α) => saleTickets.Thrifty none p) where
  of_pure _ := trivial
  of_ofExcept _ := trivial
  of_bind hp hf := by
    apply Ticketing.Thrifty.bind hp
    rintro (e | a)
    · trivial
    · exact hf a
  of_attempt hp := Ticketing.Thrifty.bind hp fun _ => trivial

/-- Every action that neither pops nor puts on sale is thrifty. -/
theorem routinely_thrifty : Routinely (fun α (p : Act α) => saleTickets.Thrifty none p) where
  toComposed := composed_thrifty
  of_routine _ _ hc := Ticketing.thrifty_of_issues (issues_perform (plain_of_routine hc))
  of_transactional hbody := by
    apply composed_thrifty.of_transactional _ _ hbody
    · exact Ticketing.thrifty_of_issues (issues_perform ⟨trivial, rfl⟩)
    · exact fun saved => Ticketing.thrifty_of_issues (issues_perform ⟨trivial, rfl⟩)

/-- The one method that puts a lot on sale does so with the lot that it popped. -/
theorem thrifty_setActiveBidItemId : saleTickets.Thrifty none setActiveBidItemId := by
  apply routinely_thrifty.plainly.of_guarded
  refine ⟨trivial, (fun t ht => nomatch ht), fun r => ?_⟩
  cases r with
  | error e => trivial
  | ok v =>
    refine ⟨trivial, fun t ht => ?_, fun _ => trivial⟩
    -- without a lot the end of the sequence is marked, which is no offer
    cases v with
    | none => cases ht
    | some v =>
      have hfilter : (some v).filter (· ≠ .long 0) = some t := ht
      exact (Option.filter_eq_some_iff.mp hfilter).1

/-- Whatever runs, a lot is put on sale only after it was popped. -/
theorem thrifty_serve (job : Job) : saleTickets.Thrifty none job.serve := by
  cases job with
  | activity a => exact routinely_thrifty.of_serve thrifty_setActiveBidItemId a
  | closeAuction auctionId =>
    -- closing an auction flushes the cache, and puts nothing on sale
    apply Ticketing.thrifty_of_issues
    apply issues_bind (issues_perform ⟨trivial, rfl⟩)
    intro _
    apply issues_bind (issues_perform ⟨trivial, rfl⟩)
    intro _
    exact issues_guarded ⟨trivial, rfl⟩ (fun _ => ⟨trivial, rfl⟩) (issues_perform ⟨trivial, rfl⟩)

/-! ## The active item -/

section Active

variable {env : Env} {ι : Type} [DecidableEq ι]

/-- What the cache has as the active item was written last, unless the cache was flushed. -/
def ActiveIsLast (g : Shared ι Cmd World) : Prop :=
  g.state.redis.strings .activeBidItemId = none ∨
    g.state.redis.strings .activeBidItemId = (settings g.log).getLast?

omit [DecidableEq ι] in
/-- A command writes the active item, flushes the cache, or leaves the active item alone. -/
theorem activeIsLast_issue (hengine : EngineKeeps env) {g : Shared ι Cmd World}
    (hg : ActiveIsLast g) (i : ι) (c : Cmd) : ActiveIsLast (g.issue (handle env) i c) := by
  have hsettings : settings (g.issue (handle env) i c).log =
      settings g.log ++ (setting c).toList := by
    unfold settings Shared.issue
    rw [List.filterMap_append]
    cases hc : setting c <;> simp [hc]
  -- a command that writes no active item and leaves the key keeps the invariant
  have hkeep (hc : setting c = none)
      (hsame : (handle env c g.state).2.redis.strings .activeBidItemId =
        g.state.redis.strings .activeBidItemId) :
      ActiveIsLast (g.issue (handle env) i c) := by
    unfold ActiveIsLast
    rw [hsettings, hc, Option.toList_none, List.append_nil]
    show (handle env c g.state).2.redis.strings .activeBidItemId = none ∨
      (handle env c g.state).2.redis.strings .activeBidItemId = _
    rw [hsame]
    exact hg
  cases c with
  | redis c =>
    cases c with
    | flushAll => exact .inl rfl
    | set k v =>
      by_cases hk : k = .activeBidItemId
      · subst hk
        -- the command is the last one of the log, and its value is what the key has now
        right
        rw [hsettings]
        show (g.state.redis.set .activeBidItemId v).strings .activeBidItemId = _
        rw [Store.strings_set]
        exact List.getLast?_concat.symm
      · exact hkeep (if_neg hk) (Store.sameAt_set g.state.redis (Ne.symm hk) v).strings
    | hsetnx k f v =>
      exact hkeep rfl (congrFun (Store.strings_hsetnx g.state.redis k f v) _)
    | _ => exact hkeep rfl rfl
  | dao c =>
    exact hkeep rfl (congrArg (Store.strings · .activeBidItemId) (redis_handleDao env g.state c))
  | field c => cases c <;> exact hkeep rfl rfl
  | engineBid bid =>
    exact hkeep rfl (hengine _ bid _ _ .activeBidItemId id).strings
  | _ => exact hkeep rfl rfl

end Active

/-! ## The sale -/

theorem nodup_queue_loaded (env : Env) (w : World) :
    ((w.loaded env).redis.lists .bidItemSequenceIds).Nodup :=
  (sound_loaded env w 1).tidy.queue

theorem active_loaded (env : Env) (w : World) :
    (w.loaded env).redis.strings .activeBidItemId = none := by
  obtain ⟨r, n, hrun, hload⟩ := run_initCache env w
  have hredis : (w.loaded env).redis = r := congrArg (fun out => out.2.redis) hrun
  rw [hredis]
  exact (sameAt_loaded hload .activeBidItemId fun hk => hk).strings

/-- What a schedule of jobs leaves behind after the cache was loaded. Any command on the cache
    can fail. -/
def interleaved {ι : Type} [DecidableEq ι] (env : Env) (w : World) (jobs : ι → Job)
    (moves : List (Move ι)) : Shared ι Cmd World :=
  ((running jobs (w.loaded env)).play (handle env) (fun _ => redisFault) moves).shared

/-- **No lot is put on sale twice**, however ticks, requests and page views are interleaved and
    whichever of their commands on the cache fail; only lots of the loaded queue are put on sale,
    and the active item is the one that was written last. -/
theorem offers_nodup {ι : Type} [DecidableEq ι] (env : Env) (w : World) (jobs : ι → Job)
    (moves : List (Move ι)) (hengine : EngineKeeps env) :
    (offers (interleaved env w jobs moves).log).Nodup ∧
      offers (interleaved env w jobs moves).log ⊆
        (w.loaded env).redis.lists .bidItemSequenceIds ∧
      ActiveIsLast (interleaved env w jobs moves) := by
  obtain ⟨hnodup, hsubset⟩ := Ticketing.spent_nodup (p := running jobs (w.loaded env))
    (conserves_handle hengine) failsDry_redisFault (fun i => thrifty_serve (jobs i)) rfl
    (nodup_queue_loaded env w) moves
  rw [spentIn_saleTickets] at hnodup hsubset
  refine ⟨hnodup, hsubset, ?_⟩
  -- the third part does not follow from the tickets: it is an invariant of its own
  have hstart : ActiveIsLast (running jobs (w.loaded env)).shared := .inl (active_loaded env w)
  exact Pool.play_inv (I := ActiveIsLast) (fun g i c hg => activeIsLast_issue hengine hg i c)
    hstart moves

/-- Two timers tick at the same time, command by command: each of them takes another lot. -/
def twoTimers : Shared Bool Cmd World :=
  interleaved (Env.steady 1000) (plainWorld twoLots 20) (fun _ => .activity .tick)
    ((List.range 24).map fun n => .turn (n % 2 == 1))

theorem offers_nodup_twoTimers :
    offers twoTimers.log = [.long 11, .long 12] ∧ (offers twoTimers.log).Nodup :=
  ⟨by decide +kernel, (offers_nodup (Env.steady 1000) (plainWorld twoLots 20) _ _
    (fun _ _ _ _ _ _ => Store.SameAt.refl _ _)).1⟩

end Bidding.Model
