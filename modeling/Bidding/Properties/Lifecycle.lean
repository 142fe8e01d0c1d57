import Bidding.Effects.Records
import Bidding.Sale.Activities
import Bidding.Semantics.Admin

/-!
# Is an Auction Started Twice?

An auction waits until the administrator starts it, and it is closed by hand or ends with its
last lot. Whatever the administrator, the timers, the bidders and the observers do one after the
other, and whichever commands on the cache fail on the way, an auction never goes back, no
auction is started twice, and there are no more new timers than starts. A start is the write of
the start time into the row of an auction, so that the starts of a run can be read off the calls
that it makes. A timer does not say for which auction it runs.

Nothing is said about requests that run at the same time: two of them can both find that an
auction waits for its start. The form that edits an auction is left out here too; with it there
are still no more starts than approvals (`Bidding.Properties.Approvals`).

## Key Results

- **`Lifecycle`**: what can become of the auctions and of the timers, and what can be started.
- **`lifecycle_initcache`**: a request to start an auction, with any of its commands failing.
- **`lifecycle_of_duties`**: every run keeps to the life cycle.
-/

namespace Bidding.Model

open Bidding.Effects Bidding.Effects.Action Bidding.KeyValue
open RedisCacheService BidItemsCacheService AdminController

/-! ## Rows -/

/-- How far an auction has come. -/
def AuctionStatus.rank : AuctionStatus → ℕ
  | .start => 0
  | .running => 1
  | .ended | .closed | .terminated => 2

/-- The row of an auction, and a later one. -/
structure Older (auction auction' : Auction) : Prop where
  approval : auction'.isApproved = auction.isApproved
  rank : auction.status.rank ≤ auction'.status.rank

/-- The auctions, and what they are later. None of them is gone, and there is no new one. -/
def Matured (db db' : Db) : Prop := ∀ id, Option.Rel Older (db.auctions id) (db'.auctions id)

theorem Older.refl (auction : Auction) : Older auction auction := ⟨rfl, le_rfl⟩

theorem Older.trans {a b c : Auction} (h : Older a b) (h' : Older b c) : Older a c :=
  ⟨h'.approval.trans h.approval, h.rank.trans h'.rank⟩

theorem matured_of_auctions {db db' : Db} (h : db'.auctions = db.auctions) : Matured db db' := by
  intro id
  rw [h]
  cases db.auctions id with
  | none => exact .none
  | some auction => exact .some (Older.refl auction)

/-- Rows that mature twice mature. -/
theorem Matured.trans {db₁ db₂ db₃ : Db} (h : Matured db₁ db₂) (h' : Matured db₂ db₃) :
    Matured db₁ db₃ := by
  intro id
  have hfirst := h id
  have hsecond := h' id
  generalize db₁.auctions id = a, db₂.auctions id = b, db₃.auctions id = c at hfirst hsecond ⊢
  cases hfirst with
  | none => exact hsecond
  | some hab =>
    cases hsecond with
    | some hbc => exact .some (hab.trans hbc)

/-- A row that is updated comes further. -/
theorem matured_updateAuction (db : Db) (id : ℤ) {f : Auction → Auction}
    (hf : ∀ auction, db.auctions id = some auction → Older auction (f auction)) :
    Matured db (CommonDao.updateAuction db id f) := by
  intro a
  by_cases ha : a = id
  · subst ha
    simp only [CommonDao.updateAuction, Function.update_self]
    cases hrow : db.auctions a with
    | none => exact .none
    | some auction => exact .some (hf auction hrow)
  · simp only [CommonDao.updateAuction, Function.update_of_ne ha]
    cases db.auctions a with
    | none => exact .none
    | some auction => exact .some (Older.refl auction)

theorem startable_iff {db : Db} {id : ℤ} :
    Startable db id ↔ ∃ auction, db.auctions id = some auction ∧ auction.status = .start ∧
      auction.isApproved = "1" := by
  unfold Startable CommonDao.isValidAuction
  cases db.auctions id <;> simp

theorem rank_eq_zero {status : AuctionStatus} : status.rank = 0 ↔ status = .start := by
  cases status <;> simp [AuctionStatus.rank]

/-- An auction that can be started could be started all the time before. -/
theorem Matured.startable {db db' : Db} (h : Matured db db') {id : ℤ}
    (hstart : Startable db' id) : Startable db id := by
  obtain ⟨auction', hrow', hstatus, happroved⟩ := startable_iff.mp hstart
  have hrel := h id
  rw [hrow'] at hrel
  generalize hrow : db.auctions id = row at hrel
  cases hrel with
  | @some auction _ hold =>
    have hrank := hold.rank
    rw [hstatus, AuctionStatus.rank, Nat.le_zero] at hrank
    exact startable_iff.mpr ⟨auction, hrow, rank_eq_zero.mp hrank,
      hold.approval.symm.trans happroved⟩

/-! ## The life cycle -/

/-- The auction that a call starts. -/
def startedBy : Cmd → Option ℤ
  | .dao (.setActualAuctionStartTime id _) => some id
  | _ => none

/-- What becomes of the auctions and of the timers when some auctions are started. The auctions come
    further; each one is started at most once, it could be started before and cannot be started
    any more; and there are no more new timers than starts. -/
structure Lifecycle (w : World) (starts : List ℤ) (w' : World) : Prop where
  rows : Matured w.db w'.db
  nodup : starts.Nodup
  started : ∀ id ∈ starts, Startable w.db id ∧ ¬ Startable w'.db id
  timers : ∃ new, w'.timers = w.timers ++ new ∧ new.length ≤ starts.length

/-- No timer is started. -/
structure Ageing (w w' : World) : Prop where
  rows : Matured w.db w'.db
  timers : w'.timers = w.timers

/-- Neither the auctions nor the timers are touched. -/
structure LeavesAuctions (w w' : World) : Prop where
  rows : w'.db.auctions = w.db.auctions
  timers : w'.timers = w.timers

/-- The auctions are not touched, and at most one timer is started. -/
structure OneTimer (w w' : World) : Prop where
  rows : w'.db.auctions = w.db.auctions
  timers : ∃ new, w'.timers = w.timers ++ new ∧ new.length ≤ 1

theorem LeavesAuctions.ageing {w w' : World} (h : LeavesAuctions w w') : Ageing w w' :=
  ⟨matured_of_auctions h.rows, h.timers⟩

theorem LeavesAuctions.oneTimer {w w' : World} (h : LeavesAuctions w w') : OneTimer w w' :=
  ⟨h.rows, [], by rw [h.timers, List.append_nil], Nat.zero_le 1⟩

theorem Ageing.lifecycle {w w' : World} (h : Ageing w w') : Lifecycle w [] w' :=
  ⟨h.rows, List.nodup_nil, fun _ hid => absurd hid List.not_mem_nil, [],
    by rw [h.timers, List.append_nil], le_rfl⟩

theorem LeavesAuctions.startable_iff {w w' : World} (h : LeavesAuctions w w') {id : ℤ} :
    Startable w'.db id ↔ Startable w.db id := by
  unfold Startable CommonDao.isValidAuction
  rw [h.rows]

instance : IsPreorder World LeavesAuctions where
  refl _ := ⟨rfl, rfl⟩
  trans _ _ _ h h' := ⟨h'.rows.trans h.rows, h'.timers.trans h.timers⟩

instance : IsPreorder World Ageing where
  refl _ := ⟨matured_of_auctions rfl, rfl⟩
  trans _ _ _ h h' := ⟨h.rows.trans h'.rows, h'.timers.trans h.timers⟩

theorem LeavesAuctions.trans_oneTimer {w₁ w₂ w₃ : World} (h : LeavesAuctions w₁ w₂)
    (h' : OneTimer w₂ w₃) : OneTimer w₁ w₃ := by
  obtain ⟨new, htimers, hlength⟩ := h'.timers
  exact ⟨h'.rows.trans h.rows, new, by rw [htimers, h.timers], hlength⟩

/-- The auctions that are started later are others than those that were started before. -/
theorem Lifecycle.trans {w₁ w₂ w₃ : World} {starts starts' : List ℤ} (h : Lifecycle w₁ starts w₂)
    (h' : Lifecycle w₂ starts' w₃) : Lifecycle w₁ (starts ++ starts') w₃ := by
  obtain ⟨new, htimers, hlength⟩ := h.timers
  obtain ⟨new', htimers', hlength'⟩ := h'.timers
  refine ⟨h.rows.trans h'.rows, ?_, ?_, new ++ new', ?_, ?_⟩
  · -- an auction that was started before cannot be started any more
    refine List.nodup_append.mpr ⟨h.nodup, h'.nodup, ?_⟩
    rintro id hid _ hid' rfl
    exact (h.started id hid).2 (h'.started id hid').1
  · intro id hid
    rcases List.mem_append.mp hid with hid | hid
    · exact ⟨(h.started id hid).1, fun hlater => (h.started id hid).2 (h'.rows.startable hlater)⟩
    · exact ⟨h.rows.startable (h'.started id hid).1, (h'.started id hid).2⟩
  · rw [htimers', htimers, List.append_assoc]
  · rw [List.length_append, List.length_append]
    exact Nat.add_le_add hlength hlength'

/-! ## Calls -/

variable {env : Env}

/-- The calls that neither update an auction nor start a timer. -/
def CallsQuietly : Cmd → Prop
  | .startTimer _ => False
  | .dao (.setActualAuctionStartTime _ _) | .dao (.setAuctionEndTime _ _)
  | .dao (.closeAuction _) | .dao (.rollback _) => False
  | _ => True

/-- A quiet call leaves the auctions and the timers alone. -/
theorem CallsQuietly.quiet {c : Cmd} (hc : CallsQuietly c) (w : World) :
    LeavesAuctions w (handle env c w).2 := by
  cases c with
  | dao c =>
    cases c with
    -- the load writes the row of the item, not of its auction
    | getBidItem id =>
      simp only [handle, handleDao]
      split
      · rename_i hload
        obtain ⟨row, hloaded⟩ := CommonDao.getBidItem_loaded hload
        exact ⟨hloaded.auctions, rfl⟩
      · exact refl_of LeavesAuctions w
    | updateBidItem item =>
      simp only [handle, handleDao]
      split
      · rename_i hupdate
        obtain ⟨id, row, rfl⟩ := CommonDao.updateBidItem_eq hupdate
        exact ⟨rfl, rfl⟩
      · exact refl_of LeavesAuctions w
    | flush item =>
      simp only [handle, handleDao]
      split
      · exact ⟨rfl, rfl⟩
      · exact ⟨rfl, rfl⟩
    | setActualAuctionStartTime _ _ | setAuctionEndTime _ _ | closeAuction _ | rollback _ =>
      exact absurd hc id
    | _ => exact ⟨rfl, rfl⟩
  | field c => cases c <;> exact ⟨rfl, rfl⟩
  | startTimer d => exact absurd hc id
  | _ => exact ⟨rfl, rfl⟩

/-- An auction that ends or is closed comes further. -/
theorem older_of_rank {auction auction' : Auction}
    (happroval : auction'.isApproved = auction.isApproved) (hrank : auction'.status.rank = 2) :
    Older auction auction' :=
  ⟨happroval, by rw [hrank]; cases auction.status <;> decide⟩

theorem ageing_setAuctionEndTime (id : ℤ) (d : Date) (w : World) :
    Ageing w (handle env (.dao (.setAuctionEndTime id d)) w).2 :=
  ⟨matured_updateAuction _ _ fun _ _ => older_of_rank rfl rfl, rfl⟩

theorem ageing_closeAuction (id : ℤ) (w : World) :
    Ageing w (handle env (.dao (.closeAuction id)) w).2 :=
  ⟨matured_updateAuction _ _ fun _ _ => older_of_rank rfl rfl, rfl⟩

/-- A routine call starts nothing. -/
theorem ageing_routine {c : Cmd} (hc : Routine c) (w : World) : Ageing w (handle env c w).2 := by
  -- only the end of an auction is recorded by a routine call
  have hcases : CallsQuietly c ∨ ∃ id d, c = .dao (.setAuctionEndTime id d) := by
    cases c with
    | dao c =>
      cases c with
      | setAuctionEndTime id d => exact .inr ⟨id, d, rfl⟩
      | getBidItem _ | updateBidItem _ | flush _ => exact .inl trivial
      | _ => exact absurd hc id
    | startTimer _ => exact absurd hc id
    | _ => exact .inl trivial
  rcases hcases with hquiet | ⟨id, d, rfl⟩
  · exact (hquiet.quiet w).ageing
  · exact ageing_setAuctionEndTime id d w

/-- A rollback takes nothing back but what the transaction did. -/
theorem routinely_ageing :
    Routinely (fun _ p => Moves (failing env) (fun x y => Ageing x.1 y.1) p) :=
  routinely_moves (fun _ => ageing_routine) fun _ _ h => ⟨matured_of_auctions rfl, h.timers⟩

/-- A run with failing commands, related to the auctions that it starts. -/
abbrev RunsAs (env : Env) {α : Type} (T : World → List ℤ → World → Prop) (p : Act α) : Prop :=
  MovesRecording startedBy (failing env) (fun x l y => T x.1 l y.1) p

/-- The calls that start no auction. -/
def StartsNothing (c : Cmd) : Prop := startedBy c = none

/-- A quiet call starts no auction. -/
theorem CallsQuietly.startsNothing {c : Cmd} (hc : CallsQuietly c) : StartsNothing c := by
  cases c with
  | dao c =>
    cases c with
    | setActualAuctionStartTime _ _ => exact absurd hc id
    | _ => rfl
  | _ => rfl

/-- What is known by its calls. -/
theorem runsAs_quiet {α : Type} {p : Act α} (hp : Issues CallsQuietly p) :
    RunsAs env (fun w l w' => l = [] ∧ LeavesAuctions w w') p := by
  have hmoves : Moves (failing env) (fun x y => LeavesAuctions x.1 y.1) p :=
    Issues.moves_unreliable (fun _ => CallsQuietly.quiet) hp
  exact hmoves.recording (hp.mono fun _ hc => hc.startsNothing)

theorem compositional_callsQuietly : Compositional (fun _ p => Issues CallsQuietly p) :=
  compositional_issues trivial (fun _ => trivial) trivial

theorem issues_guarded_quiet {α : Type} {onFailure : α} {body : Act α}
    (hbody : Issues CallsQuietly body) : Issues CallsQuietly (guarded onFailure body) :=
  compositional_callsQuietly.of_guarded hbody

theorem issues_redis_quiet (c : RedisCmd) : Issues CallsQuietly (redis c) :=
  issues_perform trivial

theorem issues_setActiveBidItemId : Issues CallsQuietly setActiveBidItemId :=
  issues_guarded_quiet (issues_bind (issues_redis_quiet _) fun _ => issues_redis_quiet _)

/-- Routine calls start no auction, and neither does a rollback. -/
theorem routinely_startsNothing : Routinely (fun _ p => Issues StartsNothing p) := by
  have hcomposed : Composed (fun _ p => Issues StartsNothing p) :=
    ⟨issues_pure, issues_ofExcept, issues_bind, issues_attempt⟩
  refine { hcomposed with of_routine := ?_, of_transactional := ?_ }
  · intro α c answer hc
    apply issues_perform
    cases c with
    | dao c =>
      cases c with
      | setActualAuctionStartTime _ _ => exact absurd hc id
      | _ => rfl
    | _ => rfl
  · intro α body hbody
    exact hcomposed.of_transactional (issues_perform rfl) (fun _ => issues_perform rfl) hbody

/-- An activity starts no auction. -/
theorem lifecycle_serve (a : Activity) : RunsAs env Lifecycle a.serve := by
  have hageing : Moves (failing env) (fun x y => Ageing x.1 y.1) a.serve := by
    apply routinely_ageing.of_serve
    exact (Issues.moves_unreliable (fun _ => CallsQuietly.quiet)
      issues_setActiveBidItemId).mono fun _ _ => LeavesAuctions.ageing
  have hissues : Issues StartsNothing a.serve :=
    routinely_startsNothing.of_serve
      (issues_setActiveBidItemId.mono fun _ hc => hc.startsNothing) a
  refine (hageing.recording hissues).mono ?_
  rintro s l t ⟨rfl, h⟩
  exact h.lifecycle

/-! ## Loading an auction -/

theorem issues_flushDB : Issues CallsQuietly flushDB := issues_guarded_quiet (issues_redis_quiet _)

/-- Storing the sequence is quiet. -/
theorem issues_setBidSequenceList (rows : List BidSequence) :
    Issues CallsQuietly (setBidSequenceList rows) := by
  apply issues_guarded_quiet
  have hrow (s : BidSequence) : Issues CallsQuietly (setBidSequence s) :=
    issues_bind (issues_redis_quiet _) fun _ => issues_bind (issues_redis_quiet _) fun _ =>
      issues_bind (issues_redis_quiet _) fun _ => issues_bind (issues_redis_quiet _) fun _ =>
        issues_bind (issues_redis_quiet _) fun _ => issues_redis_quiet _
  exact issues_bind (issues_forEach fun s _ => hrow s) fun _ =>
    issues_bind (issues_redis_quiet _) fun _ => issues_bind (issues_redis_quiet _) fun _ =>
      issues_forEach fun _ _ => issues_redis_quiet _

/-- Loading the details is quiet. -/
theorem issues_loadDetails : Issues CallsQuietly loadDetails := by
  have hcategories (l : List Category) : Issues CallsQuietly (setCategories l) :=
    compositional_callsQuietly.of_setCategories (fun _ => issues_redis_quiet _)
      (fun _ _ _ => issues_redis_quiet _) l
  have hlist : Issues CallsQuietly BidItemsCacheService.getCategoryList :=
    issues_bind (issues_perform trivial) fun _ => issues_bind (hcategories _) fun _ =>
      issues_pure _
  exact issues_bind hlist fun _ => issues_bind (hcategories _) fun _ =>
    issues_bind (issues_perform trivial) fun _ =>
      issues_bind (issues_guarded_quiet (issues_redis_quiet _)) fun _ =>
        issues_bind (issues_perform trivial) fun _ => issues_guarded_quiet (issues_redis_quiet _)

/-- Calls that start no auction and at most one timer. -/
abbrev StartsTimer (w : World) (starts : List ℤ) (w' : World) : Prop :=
  starts = [] ∧ OneTimer w w'

/-- Quiet calls before a timer. -/
theorem runsAs_oneTimer {α β : Type} {p : Act α} {f : α → Act β} (hp : Issues CallsQuietly p)
    (hf : ∀ a, RunsAs env StartsTimer (f a)) : RunsAs env StartsTimer (p >>= f) := by
  refine (runsAs_quiet hp).seq hf ?_ ?_
  · rintro s l t ⟨rfl, h⟩
    exact ⟨rfl, h.oneTimer⟩
  · rintro s l t l' u ⟨rfl, h⟩ ⟨rfl, h'⟩
    exact ⟨rfl, h.trans_oneTimer h'⟩

theorem startsTimer_refl (w : World) : StartsTimer w [] w :=
  ⟨rfl, (refl_of LeavesAuctions w).oneTimer⟩

/-- Loading starts at most one timer, as its last step. -/
theorem oneTimer_loadSequence (startTime : Option Date) (rows : List BidSequence) :
    RunsAs env StartsTimer (loadSequence startTime rows) := by
  apply runsAs_oneTimer issues_flushDB
  intro _
  apply runsAs_oneTimer (issues_setBidSequenceList rows)
  intro _
  cases rows with
  -- without rows the block ends before the timer
  | nil => exact fun st => startsTimer_refl st.1
  | cons s ss =>
    apply runsAs_oneTimer issues_loadDetails
    intro _
    cases startTime with
    | none => exact fun st => startsTimer_refl st.1
    | some d => exact fun st => ⟨rfl, rfl, [d], rfl, le_rfl⟩

/-- `initCache` starts at most one timer. -/
theorem oneTimer_initCache : RunsAs env StartsTimer initCache := by
  have hstart (auctionId : ℤ) : Issues CallsQuietly (chooseStartTime auctionId) := by
    apply issues_bind (issues_perform trivial)
    rintro (_ | d)
    · exact issues_perform trivial
    · exact issues_pure _
  have hpure (_ : Except Exn Unit) : MovesRecording startedBy (failing env)
      (fun x l y => l = [] ∧ x = y) (pure () : Act Unit) := fun _ => ⟨rfl, rfl⟩
  refine runsAs_oneTimer (issues_perform trivial) fun _ => ?_
  refine runsAs_oneTimer (issues_perform trivial) fun _ => ?_
  refine runsAs_oneTimer (issues_perform trivial) fun auctionId => ?_
  refine runsAs_oneTimer (hstart auctionId) fun startTime => ?_
  refine runsAs_oneTimer (issues_perform trivial) fun rows => ?_
  -- the block is in a `try`; what it did before an exception stays
  refine (oneTimer_loadSequence startTime rows).attempt.seq hpure (fun _ _ _ => id) ?_
  rintro s l t l' u h ⟨rfl, rfl⟩
  rw [List.append_nil]
  exact h

/-! ## Requests -/

/-- An auction that waits for its start is put to running, and at most one timer is started. -/
theorem lifecycle_of_started {w w₁ w₂ : World} {id : ℤ} {d now : Date} (h : OneTimer w₁ w₂)
    (hstart : Startable w.db id)
    (hdb : w₁.db = CommonDao.setActualAuctionStartTime w.db id d now)
    (htimers : w₁.timers = w.timers) : Lifecycle w [id] w₂ := by
  obtain ⟨auction, hrow, hstatus, -⟩ := startable_iff.mp hstart
  have hrow₂ : w₂.db.auctions id = some { auction with
      status := .running
      auctionStartTime := some d
      lastUpdateTime := now } := by
    rw [h.rows, hdb]
    simp [CommonDao.setActualAuctionStartTime, CommonDao.updateAuction, hrow]
  have hrows : Matured w.db w₁.db := by
    rw [hdb]
    apply matured_updateAuction
    intro auction' hrow'
    obtain rfl : auction = auction' := Option.some.inj (hrow.symm.trans hrow')
    refine ⟨rfl, ?_⟩
    rw [hstatus]
    exact Nat.zero_le _
  -- loading the cache does not touch the auctions, so that the status is still the new one
  have hlater : ¬ Startable w₂.db id := by
    intro hagain
    obtain ⟨auction', hrow', hstatus', -⟩ := startable_iff.mp hagain
    obtain rfl := Option.some.inj (hrow₂.symm.trans hrow')
    cases hstatus'
  obtain ⟨new, hnew, hlength⟩ := h.timers
  refine ⟨hrows.trans (matured_of_auctions h.rows), List.nodup_singleton id, ?_, new, ?_,
    hlength⟩
  · intro id' hid'
    obtain rfl := List.mem_singleton.mp hid'
    exact ⟨hstart, hlater⟩
  · rw [hnew, htimers]

/-- The part of a request that runs for an auction that waits for its start. -/
theorem lifecycle_startAuction (id : ℤ) (auctionStart : Arg Date) (auctionTimeExt : Arg ℤ) :
    RunsAs env (fun w l w' => Startable w.db id → Lifecycle w l w')
      (startAuction id auctionStart auctionTimeExt) := by
  -- up to the write of the start time nothing touches the auctions, so that the request may
  -- stop anywhere
  have hthen {α β : Type} {p : Act α} {f : α → Act β} (hp : Issues CallsQuietly p)
      (hf : ∀ a, RunsAs env (fun w l w' => Startable w.db id → Lifecycle w l w') (f a)) :
      RunsAs env (fun w l w' => Startable w.db id → Lifecycle w l w') (p >>= f) := by
    refine (runsAs_quiet hp).seq hf ?_ ?_
    · rintro s l t ⟨rfl, hquiet⟩ _
      exact hquiet.ageing.lifecycle
    · rintro s l t l' u ⟨rfl, hquiet⟩ hrest hstart
      exact hquiet.ageing.lifecycle.trans (hrest (hquiet.startable_iff.mpr hstart))
  have htime : Issues CallsQuietly (AdminController.startTimeOf auctionStart auctionTimeExt) := by
    match auctionStart, auctionTimeExt with
    | .value _, _ => exact issues_pure _
    | .malformed, _ => exact issues_ofExcept _
    | .blank, .value _ => exact issues_bind (issues_perform trivial) fun _ => issues_pure _
    | .blank, .malformed => exact issues_bind (issues_perform trivial) fun _ => issues_ofExcept _
    | .blank, .blank => exact issues_bind (issues_perform trivial) fun _ => issues_pure _
  refine hthen (issues_perform trivial) fun _ => ?_
  refine hthen issues_flushDB fun _ => ?_
  refine hthen (issues_guarded_quiet (issues_bind (issues_redis_quiet _) fun _ =>
    issues_bind (issues_redis_quiet _) fun _ => issues_pure _)) fun _ => ?_
  refine hthen (issues_perform trivial) fun _ => ?_
  refine hthen (issues_perform trivial) fun _ => ?_
  refine hthen htime fun startTime => ?_
  refine hthen (issues_perform trivial) fun _ => ?_
  intro st hstart
  have hset : run (failing env) (Dao.setActualAuctionStartTime id startTime) st =
      (.ok (), ({ st.1 with
        db := CommonDao.setActualAuctionStartTime st.1.db id startTime (env.times st.1 0)
        reads := st.1.reads + 1 }, st.2)) := rfl
  obtain ⟨hnone, htimer⟩ := @oneTimer_initCache env ({ st.1 with
    db := CommonDao.setActualAuctionStartTime st.1.db id startTime (env.times st.1 0)
    reads := st.1.reads + 1 }, st.2)
  rw [run_bind_ok hset, record_bind_ok hset, hnone]
  exact lifecycle_of_started htimer hstart rfl rfl

/-- A request to start an auction, with any of its commands on the cache failing. -/
theorem lifecycle_initcache (auctionStart : Arg Date) (auctionIdStr auctionTimeExt : Arg ℤ) :
    RunsAs env Lifecycle (initcache auctionStart auctionIdStr auctionTimeExt) := by
  intro st
  have hidle : Lifecycle st.1 [] st.1 := (refl_of Ageing st.1).lifecycle
  cases auctionIdStr with
  | blank => exact hidle
  | malformed => exact hidle
  | value id =>
    have hvalid : run (failing env) (Dao.isValidAuction id) st =
        (CommonDao.isValidAuction st.1.db id, st) := rfl
    have hserve : initcache auctionStart (.value id) auctionTimeExt = (do
        let valid ← Dao.isValidAuction id
        if valid then startAuction id auctionStart auctionTimeExt else pure () : Act Unit) := rfl
    have hnone : record startedBy (failing env) (Dao.isValidAuction id) st = [] := rfl
    rw [hserve]
    match hres : CommonDao.isValidAuction st.1.db id with
    | .error e =>
      rw [hres] at hvalid
      rw [run_bind_error hvalid, record_bind_error hvalid, hnone]
      exact hidle
    -- an auction that does not wait for its start is left alone
    | .ok false =>
      rw [hres] at hvalid
      rw [run_bind_ok hvalid, record_bind_ok hvalid, hnone]
      exact hidle
    | .ok true =>
      rw [hres] at hvalid
      rw [run_bind_ok hvalid, record_bind_ok hvalid, hnone, if_pos rfl]
      exact lifecycle_startAuction id auctionStart auctionTimeExt st hres

/-- A request to close an auction. -/
theorem lifecycle_closing (id : ℤ) : RunsAs env Lifecycle (AdminController.closeAuction id) := by
  have hclose : RunsAs env (fun w l w' => l = [] ∧ Ageing w w') (Dao.closeAuction id) :=
    fun st => ⟨rfl, ageing_closeAuction id st.1⟩
  have hrest : Issues CallsQuietly (do perform .stopAuction .ok; flushDB : Act Unit) :=
    issues_bind (issues_perform trivial) fun _ => issues_flushDB
  refine hclose.seq (fun _ => runsAs_quiet hrest) ?_ ?_
  · rintro s l t ⟨rfl, h⟩
    exact h.lifecycle
  · rintro s l t l' u ⟨rfl, h⟩ ⟨rfl, h'⟩
    exact (trans_of Ageing h h'.ageing).lifecycle

/-! ## Runs -/

/-- What the application does: an activity, or a request of the administrator. -/
inductive Duty where
  | activity (a : Activity)
  | request (r : Request)

/-- The method that runs. -/
def Duty.serve : Duty → Act Unit
  | .activity a => a.serve
  | .request r => r.serve

/-- The world after it, when the commands on the cache fail as planned. -/
def World.afterDuty (env : Env) (w : World) (d : Duty × List Bool) : World :=
  (run (failing env) d.1.serve (w, d.2)).2.1

/-- The auctions that it starts. -/
def World.startsOf (env : Env) (w : World) (d : Duty × List Bool) : List ℤ :=
  record startedBy (failing env) d.1.serve (w, d.2)

/-- Every duty follows the life cycle. -/
theorem lifecycle_afterDuty (w : World) (d : Duty × List Bool) :
    Lifecycle w (w.startsOf env d) (w.afterDuty env d) := by
  obtain ⟨d, plan⟩ := d
  cases d with
  | activity a => exact lifecycle_serve a (w, plan)
  | request request =>
    cases request with
    | initcache auctionStart auctionIdStr auctionTimeExt =>
      exact lifecycle_initcache auctionStart auctionIdStr auctionTimeExt (w, plan)
    | closeAuction id => exact lifecycle_closing id (w, plan)

/-- **No auction is started twice, and none goes back**: along every run of requests, ticks, bids
    and page views, whichever commands on the cache fail, the auctions only come further, the
    starts are of different auctions that waited for their start and cannot be started any more,
    and there are no more new timers than starts. -/
theorem lifecycle_of_duties (env : Env) (w : World) (duties : List (Duty × List Bool)) :
    Lifecycle w (emitted (World.afterDuty env) (World.startsOf env) w duties)
      (duties.foldl (World.afterDuty env) w) := by
  refine emitted_rule (T := fun w starts _ w' => Lifecycle w starts w')
    (fun w => (refl_of Ageing w).lifecycle) (fun w d => lifecycle_afterDuty w d) ?_ w duties
  exact fun _ _ _ _ _ _ _ h h' => h.trans h'

end Bidding.Model
