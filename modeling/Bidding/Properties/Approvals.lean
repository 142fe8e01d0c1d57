import Bidding.Properties.Lifecycle

/-!
# How Often Is an Auction Started?

The life cycle of an auction only goes forward while nobody edits the table: the form of the
administrator writes the status and the approval of an auction at will, so that an auction that
has ended can be started once more. Auctions also come from uploads, which leave the approval to
the form.

With the form and the uploads, an approval works like a credit. An auction can be started if it
has one, the start uses it up, and only the form gives a new one.

## Key Results

- **`Accounted`**: the starts of a run are paid for.
- **`Lifecycle.accounted`**: what requests, ticks, bids and page views start is paid for by the
  approvals that were there before.
- **`starts_of_operations`**: every auction is started at most once for each of its approvals.
-/

namespace Bidding.Model

open Bidding.Effects AdminController

/-! ## Operations -/

/-- What can happen to the auctions: what the application does otherwise, a form and an upload.
    The new ids are those that the database gives. -/
inductive Operation where
  | duty (d : Duty) (plan : List Bool)
  /-- `/admin/createAuction` -/
  | createAuction (newId auctionId : ℤ) (status : AuctionStatus) (isApproved : String)
  /-- `/admin/uploadFile`, for a sheet that is read to the end: an auction for each row -/
  | uploadFile (newIds : List ℤ)

/-- The auction whose row a form writes. -/
def savedId (newId auctionId : ℤ) : ℤ := if auctionId ≠ 0 then auctionId else newId

/-- The auction that an operation approves for a start. -/
def Operation.approved : Operation → Option ℤ
  | .duty _ _ | .uploadFile _ => none
  | .createAuction newId auctionId status isApproved =>
    if status = .start ∧ isApproved = "1" then some (savedId newId auctionId) else none

/-- The row of an auction that an upload creates. -/
def uploaded (defaults : Auction) (db : Db) (newId : ℤ) : Db :=
  CreateAuctionDao.save db newId defaults 0 .start "0"

/-- The world after an operation. -/
def World.afterOperation (env : Env) (defaults : Auction) (w : World) : Operation → World
  | .duty d plan => w.afterDuty env (d, plan)
  | .createAuction newId auctionId status isApproved =>
    { w with db := CreateAuctionDao.save w.db newId defaults auctionId status isApproved }
  | .uploadFile newIds => { w with db := newIds.foldl (uploaded defaults) w.db }

/-- The auctions that an operation starts. Neither a form nor an upload starts one. -/
def World.startsOfOperation (env : Env) (w : World) : Operation → List ℤ
  | .duty d plan => w.startsOf env (d, plan)
  | .createAuction _ _ _ _ | .uploadFile _ => []

/-! ## Credits -/

instance (db : Db) (id : ℤ) : Decidable (Startable db id) := decidable_of_iff' _ startable_iff

/-- An auction that can be started has one credit. -/
def credit (db : Db) (id : ℤ) : ℕ := if Startable db id then 1 else 0

theorem credit_le_one (db : Db) (id : ℤ) : credit db id ≤ 1 := by
  unfold credit
  split <;> omega

/-- The credit does not grow if nothing new can be started. -/
theorem credit_mono {db db' : Db} {id : ℤ} (h : Startable db' id → Startable db id) :
    credit db' id ≤ credit db id := by
  unfold credit
  split_ifs with hafter hbefore
  · exact le_rfl
  · exact absurd (h hafter) hbefore
  · exact Nat.zero_le 1
  · exact le_rfl

/-- The starts of a run are paid for: those of an auction by the credit that it had and by the
    approvals that it got, and what is left over is its credit afterwards. There are no more new
    timers than starts. -/
structure Accounted (w : World) (starts approvals : List ℤ) (w' : World) : Prop where
  paid : ∀ id, starts.count id + credit w'.db id ≤ credit w.db id + approvals.count id
  timers : ∃ new, w'.timers = w.timers ++ new ∧ new.length ≤ starts.length

theorem Accounted.refl (w : World) : Accounted w [] [] w :=
  ⟨fun id => by simp, [], (List.append_nil _).symm, le_rfl⟩

/-- The accounts of two runs add up. -/
theorem Accounted.trans {w₁ w₂ w₃ : World} {starts starts' approvals approvals' : List ℤ}
    (h : Accounted w₁ starts approvals w₂) (h' : Accounted w₂ starts' approvals' w₃) :
    Accounted w₁ (starts ++ starts') (approvals ++ approvals') w₃ := by
  obtain ⟨new, htimers, hlength⟩ := h.timers
  obtain ⟨new', htimers', hlength'⟩ := h'.timers
  refine ⟨fun id => ?_, new ++ new', ?_, ?_⟩
  · have hfirst := h.paid id
    have hsecond := h'.paid id
    rw [List.count_append, List.count_append]
    omega
  · rw [htimers', htimers, List.append_assoc]
  · rw [List.length_append, List.length_append]
    omega

/-- Without a start and a new timer, it is enough that new credits are approved. -/
theorem accounted_of_timers {w w' : World} {approvals : List ℤ} (htimers : w'.timers = w.timers)
    (h : ∀ id, credit w'.db id ≤ credit w.db id + approvals.count id) :
    Accounted w [] approvals w' :=
  ⟨fun id => by simpa using h id, [], by rw [htimers, List.append_nil], le_rfl⟩

/-! ## One operation -/

section Steps

variable (env : Env) {defaults : Auction}

/-- An auction that is started had a credit and has none afterwards. -/
theorem Lifecycle.accounted {w w' : World} {starts : List ℤ} (h : Lifecycle w starts w') :
    Accounted w starts [] w' := by
  refine ⟨fun id => ?_, h.timers⟩
  rw [List.count_nil, add_zero]
  by_cases hid : id ∈ starts
  · obtain ⟨hbefore, hafter⟩ := h.started id hid
    have hused : credit w'.db id = 0 := if_neg hafter
    have hhad : credit w.db id = 1 := if_pos hbefore
    rw [List.count_eq_one_of_mem h.nodup hid, hused, hhad]
  · rw [List.count_eq_zero_of_not_mem hid, zero_add]
    exact credit_mono h.rows.startable

/-- The row that a form or an upload writes has the status and the approval that are saved. -/
theorem auctions_save_self {db : Db} {newId auctionId : ℤ} {status : AuctionStatus}
    {isApproved : String} {auction : Auction}
    (h : (CreateAuctionDao.save db newId defaults auctionId status isApproved).auctions
      (savedId newId auctionId) = some auction) :
    auction.status = status ∧ auction.isApproved = isApproved := by
  unfold CreateAuctionDao.save savedId at h
  split_ifs at h with hnew
  · -- an auction that is edited
    simp only [CommonDao.updateAuction, Function.update_self, Option.map_eq_some_iff] at h
    obtain ⟨old, -, rfl⟩ := h
    exact ⟨rfl, rfl⟩
  · simp only [Function.update_self, Option.some.injEq] at h
    subst h
    exact ⟨rfl, rfl⟩

/-- The other rows are as before. -/
theorem auctions_save_of_ne {newId auctionId id : ℤ} (hid : id ≠ savedId newId auctionId)
    (db : Db) (status : AuctionStatus) (isApproved : String) :
    (CreateAuctionDao.save db newId defaults auctionId status isApproved).auctions id =
      db.auctions id := by
  unfold CreateAuctionDao.save
  unfold savedId at hid
  split_ifs at hid ⊢ with hnew
  · exact Function.update_of_ne hid _ _
  · exact Function.update_of_ne hid _ _

/-- What can be started after a form could be started before, or it is approved by the form. -/
theorem startable_save {db : Db} {newId auctionId id : ℤ} {status : AuctionStatus}
    {isApproved : String}
    (h : Startable (CreateAuctionDao.save db newId defaults auctionId status isApproved) id) :
    Startable db id ∨ (status = .start ∧ isApproved = "1") ∧ id = savedId newId auctionId := by
  obtain ⟨auction, hrow, hstatus, happroved⟩ := startable_iff.mp h
  -- the form writes one row, and the others can be started as before
  by_cases hid : id = savedId newId auctionId
  · right
    subst hid
    obtain ⟨rfl, rfl⟩ := auctions_save_self hrow
    exact ⟨⟨hstatus, happroved⟩, rfl⟩
  · left
    rw [auctions_save_of_ne hid] at hrow
    exact startable_iff.mpr ⟨auction, hrow, hstatus, happroved⟩

/-- An upload gives no credit, since its auction is not approved. -/
theorem credit_uploaded_le (db : Db) (newId id : ℤ) :
    credit (uploaded defaults db newId) id ≤ credit db id := by
  apply credit_mono
  intro h
  obtain hbefore | ⟨⟨-, happroved⟩, -⟩ := startable_save h
  · exact hbefore
  · exact absurd happroved (by decide)

theorem credit_foldl_uploaded_le (newIds : List ℤ) (db : Db) (id : ℤ) :
    credit (newIds.foldl (uploaded defaults) db) id ≤ credit db id := by
  induction newIds generalizing db with
  | nil => exact le_rfl
  -- each row of the file is one upload
  | cons newId newIds ih => exact (ih _).trans (credit_uploaded_le db newId id)

/-- Every operation is accounted for. -/
theorem accounted_afterOperation (defaults : Auction) (w : World) (op : Operation) :
    Accounted w (w.startsOfOperation env op) op.approved.toList
      (w.afterOperation env defaults op) := by
  cases op with
  | duty d plan => exact (lifecycle_afterDuty w (d, plan)).accounted
  | uploadFile newIds =>
    exact accounted_of_timers rfl fun id => credit_foldl_uploaded_le newIds w.db id
  | createAuction newId auctionId status isApproved =>
    refine accounted_of_timers rfl fun id => ?_
    by_cases hgiven : (status = .start ∧ isApproved = "1") ∧ id = savedId newId auctionId
    · -- the credit that the form gives
      obtain ⟨happroved, rfl⟩ := hgiven
      rw [Operation.approved, if_pos happroved, Option.toList_some, List.count_singleton_self]
      exact (credit_le_one _ _).trans (Nat.le_add_left _ _)
    · have hmono : credit (CreateAuctionDao.save w.db newId defaults auctionId status isApproved)
          id ≤ credit w.db id :=
        credit_mono fun h => (startable_save h).resolve_right hgiven
      exact hmono.trans (Nat.le_add_right _ _)

end Steps

/-! ## Runs -/

/-- **Every auction is started at most once for each of its approvals**: along every run of
    requests, ticks, bids, page views, forms and uploads, whichever commands on the cache fail,
    the starts of an auction are no more than the approvals that the form gave it, and one if it
    could be started at first. -/
theorem starts_of_operations (env : Env) (defaults : Auction) (w : World)
    (operations : List Operation) :
    Accounted w
      (emitted (World.afterOperation env defaults) (World.startsOfOperation env) w operations)
      (operations.filterMap Operation.approved)
      (operations.foldl (World.afterOperation env defaults) w) := by
  refine emitted_rule
    (T := fun w starts ops w' => Accounted w starts (ops.filterMap Operation.approved) w')
    Accounted.refl (fun w op => ?_) ?_ w operations
  · -- one operation gives at most one approval
    have happrovals : [op].filterMap Operation.approved = op.approved.toList := by
      cases happroved : op.approved <;> simp [happroved]
    rw [happrovals]
    exact accounted_afterOperation env defaults w op
  · intro w₁ starts ops w₂ starts' ops' w₃ h h'
    rw [List.filterMap_append]
    exact h.trans h'

end Bidding.Model
