import Bidding.Effects.Runs
import Bidding.Model.Accounts

/-!
# The First-Login Gate

A new user has to change the password before `/home` leads anywhere else. `ChangePassword`
sets the flag that opens the gate before it compares the old password, and a wrong one is
answered with `"error"` and not with an exception, so the flag is committed. `/home` itself
fails instead of redirecting when the session has an activity already.

## Key Results

- **`active_step`**: no other request changes the flag of a user.
- **`gated_iff`**: along a run of requests the gate holds exactly if no inactive user gives a
  wrong old password or asks for `/home` twice in a session.
- **`inactive_until_replaced`**: along a run with the gate, a user stays inactive until a
  request of theirs replaces the password.
-/

namespace Bidding.Model

open Bidding.Effects CommonDao LoginController AccountRequest

variable {encodePassword : String → String} {accounts : Accounts} {request : AccountRequest}

/-- The call of `ChangePassword` that a request makes: the name, the old and the new
    password. -/
def AccountRequest.change? : AccountRequest → Option (String × String × String)
  | .firstTimeChangPasswrd loggerName oldpass newpass => some (loggerName, oldpass, newpass)
  | .changPasswrd loggerName oldpass newpass => some (loggerName, oldpass, newpass)
  | _ => none

/-- A request of `name` that replaces the stored password. -/
def Replaces (encodePassword : String → String) (name : String) (accounts : Accounts)
    (request : AccountRequest) : Prop :=
  ∃ oldpass newpass user user', request.change? = some (name, oldpass, newpass) ∧
    accounts.users name = some user ∧ user.password = encodePassword oldpass ∧
    (step encodePassword accounts request).users name = some user' ∧
    user'.password = encodePassword newpass

/-- What the gate asks of a request. -/
structure Gated (encodePassword : String → String) (accounts : Accounts)
    (request : AccountRequest) : Prop where
  /-- the flag of an inactive user changes only together with the password -/
  activated : ∀ name user user', accounts.users name = some user → user.active = 0 →
    (step encodePassword accounts request).users name = some user' → user'.active ≠ 0 →
    Replaces encodePassword name accounts request
  /-- a change that is answered with `"error"` leaves the row as it was -/
  kept : ∀ name oldpass newpass after, request.change? = some (name, oldpass, newpass) →
    changePassword encodePassword accounts name oldpass newpass = .ok (.error, after) →
    (step encodePassword accounts request).users name = accounts.users name
  /-- `/home` of an inactive user redirects to the change of the password -/
  redirected : ∀ name sessionId now authority authorities user,
    request = .home name sessionId now authority authorities →
    accounts.users name = some user → user.active = 0 →
    (serve encodePassword accounts request).1 = .ok "redirect:/firsttimechangepass"

/-- The old password of a change is right unless the user is active already, and an inactive
    user asks for `/home` once in a session. -/
def Careful (encodePassword : String → String) (accounts : Accounts) : AccountRequest → Prop
  | .firstTimeChangPasswrd name oldpass _ | .changPasswrd name oldpass _ =>
    ∀ user, accounts.users name = some user →
      user.active = 1 ∨ user.password = encodePassword oldpass
  | .home name sessionId _ _ _ =>
    ∀ user, accounts.users name = some user → user.active = 0 →
      accounts.userActivity sessionId = none
  | _ => True

/-! ## What a request changes in a row -/

section Rows

variable {name : String} {user : Users}

/-- Recording an activity changes no user. -/
theorem users_saveUserActivity {sessionId : String} {activity : UserActivity} {after : Accounts}
    (h : saveUserActivity accounts sessionId activity = .ok after) :
    after.users = accounts.users := by
  unfold saveUserActivity at h
  split at h
  · cases h
  · cases h
    rfl

/-- `/home` changes no user. -/
theorem users_homeLoop (sessionId : String) (now : Date) (authorities : List Role)
    (page : Option String) (accounts : Accounts) :
    (homeLoop name sessionId now authorities page accounts).2.users = accounts.users := by
  induction authorities generalizing page accounts with
  | nil => rfl
  -- one activity is written for each authority, until one fails
  | cons authority rest ih =>
    unfold homeLoop
    split
    · rfl
    · split
      · split
        · rfl
        · rename_i hsave
          exact users_saveUserActivity hsave
      · split
        · rfl
        · rename_i hsave
          rw [ih]
          exact users_saveUserActivity hsave

/-- A new password leaves the flag of every user. -/
theorem active_updateUserPassword (h : accounts.users name = some user)
    (loggerName newpass : String) :
    ∃ user', (updateUserPassword encodePassword accounts loggerName newpass).users name =
      some user' ∧ user'.active = user.active := by
  unfold updateUserPassword
  by_cases hname : name = loggerName
  · subst hname
    exact ⟨{ user with password := encodePassword newpass }, by simp [h], rfl⟩
  · exact ⟨user, by simp [Function.update_of_ne hname, h], rfl⟩

theorem users_saveUsers_of_ne {loggerName : String} (hname : name ≠ loggerName) (user : Users) :
    (saveUsers accounts loggerName user).users name = accounts.users name :=
  Function.update_of_ne hname ..

/-- A change of the password concerns the row of its user only. -/
theorem users_changePassword_of_ne {loggerName oldpass newpass : String} {status : ChangeStatus}
    {after : Accounts} (hname : name ≠ loggerName)
    (h : changePassword encodePassword accounts loggerName oldpass newpass = .ok (status, after)) :
    after.users name = accounts.users name := by
  unfold changePassword at h
  split at h
  · cases h
  · split at h
    · cases h
      exact (Function.update_of_ne hname ..).trans (users_saveUsers_of_ne hname _)
    · cases h
      exact users_saveUsers_of_ne hname _

/-- The tables after a request that changes a password. -/
theorem step_change {loggerName oldpass newpass : String}
    (h : request.change? = some (loggerName, oldpass, newpass)) :
    step encodePassword accounts request =
      match changePassword encodePassword accounts loggerName oldpass newpass with
      | .ok (_, after) => after
      | .error _ => accounts := by
  cases request with
  | firstTimeChangPasswrd | changPasswrd =>
    cases h
    simp only [step, serve]
    cases changePassword encodePassword accounts loggerName oldpass newpass <;> rfl
  | registerUser | home | resetPasswordForUser | forgotPasswordSendEmail => cases h

/-- A registration writes the row of a new name only. -/
theorem users_registerUser (h : accounts.users name = some user) (username password : String)
    (email : Option String) (mail : Mail) :
    (step encodePassword accounts (.registerUser username password email mail)).users name =
      some user := by
  show (committed _ _ _).2.users name = _
  unfold saveUser committed
  cases hold : accounts.users username with
  | some _ => exact h
  | none =>
    -- the name is taken, so it is not the new one
    have hne : name ≠ username := by
      rintro rfl
      rw [h] at hold
      cases hold
    cases mail with
    | failed => exact h
    | sent | notSent => exact (users_saveUsers_of_ne hne _).trans h

/-- A forgotten password is replaced when the mail could be sent, and the flag stays. -/
theorem active_checkUserExistsAndSendPasswordMail (h : accounts.users name = some user)
    {userId secretAnswer newPassword : String} {mail : Mail} {sent : Bool} {after : Accounts}
    (hsend : checkUserExistsAndSendPasswordMail encodePassword accounts userId secretAnswer
      newPassword mail = .ok (sent, after)) :
    ∃ user', after.users name = some user' ∧ user'.active = user.active := by
  unfold checkUserExistsAndSendPasswordMail at hsend
  split at hsend
  · cases hsend
    exact ⟨user, h, rfl⟩
  · -- a wrong answer changes nothing, and neither does a mail that is not sent
    split at hsend
    · split at hsend
      · cases hsend
      · cases hsend
        exact ⟨user, h, rfl⟩
      · cases hsend
        exact active_updateUserPassword h userId newPassword
    · cases hsend
      exact ⟨user, h, rfl⟩

/-- Only a change of the password by the user changes the flag of a user. -/
theorem active_step (encodePassword : String → String) (request : AccountRequest)
    (h : accounts.users name = some user)
    (hno : ∀ oldpass newpass, request.change? ≠ some (name, oldpass, newpass)) :
    ∃ user', (step encodePassword accounts request).users name = some user' ∧
      user'.active = user.active := by
  cases request with
  | registerUser username password email mail =>
    exact ⟨user, users_registerUser h username password email mail, rfl⟩
  | home name' sessionId now authority authorities =>
    exact ⟨user, (congrFun (users_homeLoop sessionId now _ none accounts) name).trans h, rfl⟩
  | firstTimeChangPasswrd loggerName oldpass newpass | changPasswrd loggerName oldpass newpass =>
    have hne : name ≠ loggerName := by
      rintro rfl
      exact hno oldpass newpass rfl
    refine ⟨user, ?_, rfl⟩
    rw [step_change rfl]
    split
    · rename_i hchange
      exact (users_changePassword_of_ne hne hchange).trans h
    · exact h
  | resetPasswordForUser password userName =>
    simp only [step, serve]
    split
    · exact active_updateUserPassword h userName password
    · exact ⟨user, h, rfl⟩
  | forgotPasswordSendEmail userId secretAnswer newPassword mail =>
    simp only [step, serve]
    split
    · rename_i hsend
      exact active_checkUserExistsAndSendPasswordMail h hsend
    · rename_i hsend
      exact active_checkUserExistsAndSendPasswordMail h hsend
    · exact ⟨user, h, rfl⟩

/-- Nobody else opens the gate for an inactive user. -/
theorem inactive_step (h : accounts.users name = some user) (hactive : user.active = 0)
    (hno : ∀ oldpass newpass, request.change? ≠ some (name, oldpass, newpass)) {user' : Users}
    (h' : (step encodePassword accounts request).users name = some user') : user'.active = 0 := by
  obtain ⟨user'', huser'', hsame⟩ := active_step encodePassword request h hno
  rw [huser''] at h'
  cases h'
  exact hsame.trans hactive

end Rows

/-! ## One request -/

section Step

variable {name oldpass newpass : String} {user : Users}

/-- The right old password: the flag is set and the password replaced. -/
theorem changePassword_right (newpass : String) (h : accounts.users name = some user)
    (hright : user.password = encodePassword oldpass) :
    ∃ after, changePassword encodePassword accounts name oldpass newpass = .ok (.sucess, after) ∧
      after.users name = some { user with
        active := 1
        password := encodePassword newpass } := by
  unfold changePassword
  rw [h]
  refine ⟨_, if_pos hright, ?_⟩
  simp [updateUserPassword, saveUsers]

/-- A wrong old password: the flag is set. -/
theorem changePassword_wrong (newpass : String) (h : accounts.users name = some user)
    (hwrong : user.password ≠ encodePassword oldpass) :
    ∃ after, changePassword encodePassword accounts name oldpass newpass = .ok (.error, after) ∧
      after.users name = some { user with active := 1 } := by
  unfold changePassword
  rw [h]
  refine ⟨_, if_neg hwrong, ?_⟩
  simp [saveUsers]

/-- A change is answered with `"error"` exactly when there is such a user and the old password
    is wrong, and then the flag is all that changes. -/
theorem changePassword_error {after : Accounts}
    (h : changePassword encodePassword accounts name oldpass newpass = .ok (.error, after)) :
    ∃ user, accounts.users name = some user ∧ user.password ≠ encodePassword oldpass ∧
      after.users name = some { user with active := 1 } := by
  cases huser : accounts.users name with
  | none => simp [changePassword, huser] at h
  | some user =>
    by_cases hright : user.password = encodePassword oldpass
    · obtain ⟨_, hok, -⟩ := changePassword_right newpass huser hright
      rw [hok] at h
      cases h
    · obtain ⟨_, hwrong, hrow⟩ := changePassword_wrong newpass huser hright
      rw [hwrong] at h
      cases h
      exact ⟨user, rfl, hright, hrow⟩

/-- With the right old password the flag goes up together with the new password. -/
theorem replaces_of_right (hchange : request.change? = some (name, oldpass, newpass))
    (huser : accounts.users name = some user) (hright : user.password = encodePassword oldpass) :
    Replaces encodePassword name accounts request := by
  obtain ⟨after, hok, hrow⟩ := changePassword_right newpass huser hright
  refine ⟨oldpass, newpass, user, { user with active := 1, password := encodePassword newpass },
    hchange, huser, hright, ?_, rfl⟩
  rw [step_change hchange, hok]
  exact hrow

/-- A request that changes a password meets the gate if and only if the old password is right
    or the user is active. -/
theorem gated_change_iff (hchange : request.change? = some (name, oldpass, newpass)) :
    Gated encodePassword accounts request ↔ ∀ user, accounts.users name = some user →
      user.active = 1 ∨ user.password = encodePassword oldpass := by
  constructor
  · intro hgate user huser
    by_cases hright : user.password = encodePassword oldpass
    · exact .inr hright
    · -- the flag is set and the answer is `"error"`, so it must have been set before
      obtain ⟨after, hwrong, hrow⟩ := changePassword_wrong newpass huser hright
      have hkept := hgate.kept name oldpass newpass after hchange hwrong
      rw [step_change hchange, hwrong] at hkept
      have hsame : ({ user with active := 1 } : Users) = user :=
        Option.some.inj (hrow.symm.trans (hkept.trans huser))
      exact .inl (congrArg Users.active hsame).symm
  · intro hcareful
    constructor
    · intro name' user user' huser hactive huser' hactive'
      by_cases hname : name' = name
      · subst hname
        -- a flag that was set before is not set now
        rcases hcareful user huser with hone | hright
        · omega
        · exact replaces_of_right hchange huser hright
      · -- the row of another user keeps its flag
        refine absurd (inactive_step huser hactive ?_ huser') hactive'
        intro old new hother
        rw [hchange] at hother
        cases hother
        exact hname rfl
    · intro name' oldpass' newpass' after hchange' herror
      rw [hchange] at hchange'
      cases hchange'
      obtain ⟨user, huser, hwrong, hrow⟩ := changePassword_error herror
      have hone : user.active = 1 := (hcareful user huser).resolve_right hwrong
      rw [step_change hchange, herror, huser, hrow, ← hone]
    · rintro name' sessionId now authority authorities user rfl
      cases hchange

/-- Requests that change no password keep the flags and answer no change. -/
theorem gated_iff_redirected (hchange : request.change? = none) :
    Gated encodePassword accounts request ↔ ∀ name sessionId now authority authorities user,
      request = .home name sessionId now authority authorities →
      accounts.users name = some user → user.active = 0 →
      (serve encodePassword accounts request).1 = .ok "redirect:/firsttimechangepass" := by
  constructor
  · exact fun h => h.redirected
  · intro h
    refine ⟨?_, ?_, h⟩
    · intro name user user' huser hactive huser' hactive'
      exact absurd (inactive_step huser hactive (by simp [hchange]) huser') hactive'
    · intro name oldpass newpass after hsome
      rw [hchange] at hsome
      cases hsome

/-- `/home` of an inactive user redirects if and only if the session has no activity. -/
theorem home_redirected_iff (huser : accounts.users name = some user) (hactive : user.active = 0)
    (sessionId : String) (now : Date) (authority : Role) (authorities : List Role) :
    (homePageForUser accounts name sessionId now authority authorities).1 =
        .ok "redirect:/firsttimechangepass" ↔ accounts.userActivity sessionId = none := by
  unfold homePageForUser homeLoop
  simp only [huser, hactive, if_true, saveUserActivity]
  cases accounts.userActivity sessionId <;> simp

/-- A request meets the gate exactly if it is careful. -/
theorem gated_iff_careful :
    Gated encodePassword accounts request ↔ Careful encodePassword accounts request := by
  cases request with
  | firstTimeChangPasswrd name oldpass newpass | changPasswrd name oldpass newpass =>
    exact gated_change_iff rfl
  | home name sessionId now authority authorities =>
    rw [gated_iff_redirected rfl]
    constructor
    · intro h user huser hactive
      exact (home_redirected_iff huser hactive sessionId now authority authorities).mp
        (h name sessionId now authority authorities user rfl huser hactive)
    · rintro h name' sessionId' now' authority' authorities' user heq huser hactive
      cases heq
      exact (home_redirected_iff huser hactive sessionId now authority authorities).mpr
        (h user huser hactive)
  | registerUser | resetPasswordForUser | forgotPasswordSendEmail =>
    rw [gated_iff_redirected rfl]
    exact iff_of_true (fun _ _ _ _ _ _ heq => by cases heq) trivial

end Step

/-! ## Runs -/

/-- Along a run with the gate an inactive user stays inactive until a request of theirs
    replaces the password. -/
theorem inactive_until_replaced {requests : List AccountRequest} {name : String} {user : Users}
    (hgate : Along (step encodePassword) (Gated encodePassword) accounts requests)
    (huser : accounts.users name = some user) (hactive : user.active = 0)
    (hnone : Along (step encodePassword)
      (fun accounts request => ¬ Replaces encodePassword name accounts request)
      accounts requests) :
    ∃ user', (requests.foldl (step encodePassword) accounts).users name = some user' ∧
      user'.active = 0 := by
  induction requests generalizing accounts user with
  | nil => exact ⟨user, huser, hactive⟩
  | cons request requests ih =>
    -- the row is still there, and its flag would need a replaced password
    have hrow : ∃ user', (step encodePassword accounts request).users name = some user' := by
      by_cases hchange : ∃ oldpass newpass, request.change? = some (name, oldpass, newpass)
      · obtain ⟨oldpass, newpass, hchange⟩ := hchange
        rw [step_change hchange]
        by_cases hright : user.password = encodePassword oldpass
        · obtain ⟨after, hok, hrow⟩ := changePassword_right newpass huser hright
          rw [hok]
          exact ⟨_, hrow⟩
        · obtain ⟨after, hwrong, hrow⟩ := changePassword_wrong newpass huser hright
          rw [hwrong]
          exact ⟨_, hrow⟩
      · push Not at hchange
        obtain ⟨user', huser', -⟩ := active_step encodePassword request huser hchange
        exact ⟨user', huser'⟩
    obtain ⟨user', huser'⟩ := hrow
    apply ih hgate.2 huser' _ hnone.2
    by_contra hactive'
    exact hnone.1 (hgate.1.activated name user user' huser hactive huser' hactive')

/-- **The gate holds along a run of requests exactly if, in every request, the old password of
    a change is right unless the user is active already, and an inactive user's `/home` comes
    in a session without an activity.** -/
theorem gated_iff (encodePassword : String → String) (accounts : Accounts)
    (requests : List AccountRequest) :
    Along (step encodePassword) (Gated encodePassword) accounts requests ↔
      Along (step encodePassword) (Careful encodePassword) accounts requests := by
  apply Along.congr (I := fun _ => True)
  · intro accounts request _
    exact gated_iff_careful
  · intro _ _ _ _
    trivial
  · trivial

/-- `bidder1` has been registered and has not logged in yet. -/
def newAccount : Accounts where
  users name := if name = "bidder1" then
    some ⟨1, "secret", none, "Favourite Movie", "Titanic", true, 0⟩ else none
  userActivity _ := none
  maxUserId := 1

/-- A wrong old password is answered with `"error"` and opens the gate: the password is the
    first one, and `/home` leads to the bidder's page. -/
theorem newAccount_wrong_password :
    let wrong := AccountRequest.firstTimeChangPasswrd "bidder1" "guess" "other"
    let after := step id newAccount wrong
    (serve id newAccount wrong).1 = .ok
        "redirect:/firsttimechangepass?ChangePassMessage=Your old password did not match." ∧
      after.users "bidder1" =
        some ⟨1, "secret", none, "Favourite Movie", "Titanic", true, 1⟩ ∧
      (serve id after (.home "bidder1" "session" 0 .bidder [])).1 = .ok "redirect:/bidder/home" ∧
      ¬ Gated id newAccount wrong := by
  refine ⟨by decide +kernel, by decide +kernel, by decide +kernel, ?_⟩
  rw [gated_iff_careful]
  intro h
  exact absurd (h _ rfl) (by decide)

end Bidding.Model
