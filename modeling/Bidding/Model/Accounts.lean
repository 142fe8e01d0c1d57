import Mathlib.Logic.Function.Basic
import Bidding.Model.Types

/-!
# Accounts

The users of the application: registration by the administrator, the page `/home` behind the
login, the two requests that change a password, the administrator's reset and the mail for a
forgotten password.

## Modelling choices

- The users are a table by name; `saveUser` refuses a name that exists.
- The activities are a table by session, its primary key. A second activity for a session is
  the exception of the insert.
- A loaded user is a managed object: a change to it is in the row when the transaction
  commits, also if the method returns `"error"`. The bulk update of the password runs after
  the pending changes have been written.
- `passwordEncoder` is a function, the random password and what becomes of a mail are
  part of a request. The texts of the mail and the details of the user are left out.
- A logged-in user has an authority at least; Spring Security refuses other logins.
-/

namespace Bidding.Model

/-- A row of `users`; the key of the table is the name. -/
structure Users where
  userId : ℤ
  password : String
  email : Option String
  passwordQuestion : String
  passwordAnswer : String
  enabled : Bool
  active : ℤ
  deriving DecidableEq

/-- The authorities that `/home` knows (`BiddingConstants.ROLE_*`), and any other. -/
inductive Role where
  | admin
  | observer
  | bidder
  | superAdmin
  | other
  deriving DecidableEq

/-- A row of `useractivity`; the key of the table is the session. -/
structure UserActivity where
  userId : ℤ
  loginTime : Date
  message : String
  role : Option Role
  deriving DecidableEq

/-- The tables of the accounts. -/
structure Accounts where
  users : String → Option Users
  userActivity : String → Option UserActivity
  maxUserId : ℤ

/-- What becomes of a mail: sent, not sent, or an exception. -/
inductive Mail where
  | sent
  | notSent
  | failed
  deriving DecidableEq

namespace CommonDao

/-- Write a user to the row of that name. -/
def saveUsers (accounts : Accounts) (username : String) (user : Users) : Accounts :=
  { accounts with users := Function.update accounts.users username (some user) }

/-- `updateUserPassword`. A name without a row is not updated. -/
def updateUserPassword (encodePassword : String → String) (accounts : Accounts)
    (loggerName newpass : String) : Accounts :=
  { accounts with
    users := Function.update accounts.users loggerName ((accounts.users loggerName).map
      (fun user => { user with password := encodePassword newpass })) }

/-- What `ChangePassword` returns. -/
inductive ChangeStatus where
  | sucess
  | error
  deriving DecidableEq

/-- `ChangePassword`. The flag is set before the password is compared. -/
def changePassword (encodePassword : String → String) (accounts : Accounts)
    (loggerName oldpass newpass : String) : Except Exn (ChangeStatus × Accounts) :=
  match accounts.users loggerName with
  | none => .error .nullPointer
  | some user =>
    let flushed := saveUsers accounts loggerName { user with active := 1 }
    if user.password = encodePassword oldpass then
      .ok (.sucess, updateUserPassword encodePassword flushed loggerName newpass)
    else
      -- the user is managed, so the flag is written although nothing else is
      .ok (.error, flushed)

/-- `checkUserExistsAndSendPasswordMail`; the answer is whether the mail was sent. -/
def checkUserExistsAndSendPasswordMail (encodePassword : String → String) (accounts : Accounts)
    (userName secretAnswer newPassword : String) (mail : Mail) : Except Exn (Bool × Accounts) :=
  match accounts.users userName with
  | none => .ok (false, accounts)
  | some user =>
    if user.passwordAnswer = secretAnswer then
      -- the password is only written after its mail has been sent
      match mail with
      | .failed => .error .runtime
      | .notSent => .ok (false, accounts)
      | .sent => .ok (true, updateUserPassword encodePassword accounts userName newPassword)
    else
      .ok (false, accounts)

/-- `saveUser` of a new user; the answer is whether the user was saved. The mail with the
    password may fail, and the transaction with it. -/
def saveUser (encodePassword : String → String) (accounts : Accounts) (username password : String)
    (email : Option String) (mail : Mail) : Except Exn (Bool × Accounts) :=
  match accounts.users username with
  | some _ => .ok (false, accounts)
  | none =>
    match mail with
    | .failed => .error .runtime
    | _ =>
      let saved := saveUsers accounts username {
        userId := accounts.maxUserId + 1
        password := encodePassword password
        email := email
        -- every user begins with the same secret question
        passwordQuestion := "Favourite Movie"
        passwordAnswer := "Titanic"
        enabled := true
        active := 0 }
      .ok (true, { saved with maxUserId := accounts.maxUserId + 1 })

/-- `saveUserActivity`, with the exception of a second row for a session. -/
def saveUserActivity (accounts : Accounts) (sessionId : String) (userActivity : UserActivity) :
    Except Exn Accounts :=
  match accounts.userActivity sessionId with
  | some _ => .error .runtime
  | none =>
    .ok { accounts with
      userActivity := Function.update accounts.userActivity sessionId (some userActivity) }

end CommonDao

namespace LoginController

/-- `pageToForward` of an authority. -/
def pageToForward : Role → Option String
  | .admin => some "admin/home"
  | .observer => some "observer/home"
  | .bidder => some "bidder/home"
  | .superAdmin => some "admin/superAdmin"
  | .other => none

/-- The role of an activity; an authority that is not known sets none. -/
def activityRole : Role → Option Role
  | .other => none
  | role => some role

/-- The loop of `homePageForUser` over the authorities. Every activity is saved in a
    transaction of its own. -/
def homeLoop (name sessionId : String) (now : Date) :
    List Role → Option String → Accounts → Except Exn String × Accounts
  | [], page, accounts => (.ok ("redirect:/" ++ page.getD "null"), accounts)
  | authority :: rest, page, accounts =>
    match accounts.users name with
    -- the user is loaded anew for every authority
    | none => (.error .nullPointer, accounts)
    | some user =>
      -- a user who has not changed the password leaves the loop at once
      if user.active = 0 then
        match CommonDao.saveUserActivity accounts sessionId
            ⟨user.userId, now, "First Time Change password login.", none⟩ with
        | .error e => (.error e, accounts)
        | .ok accounts => (.ok "redirect:/firsttimechangepass", accounts)
      else
        match CommonDao.saveUserActivity accounts sessionId
            ⟨user.userId, now, "Login Successful.", activityRole authority⟩ with
        | .error e => (.error e, accounts)
        | .ok accounts =>
          -- the last authority that is known decides on the page
          homeLoop name sessionId now rest ((pageToForward authority).or page) accounts

/-- `homePageForUser`, for a user with at least one authority. -/
def homePageForUser (accounts : Accounts) (name sessionId : String) (now : Date)
    (authority : Role) (authorities : List Role) : Except Exn String × Accounts :=
  homeLoop name sessionId now (authority :: authorities) none accounts

/-- The redirects of the two requests that change a password. -/
def changeRedirect (page confirmation : String) : CommonDao.ChangeStatus → String
  | .error => "redirect:/" ++ page ++ "?ChangePassMessage=Your old password did not match."
  | .sucess => "redirect:/" ++ confirmation

end LoginController

/-- A request that concerns an account. The requests that change a password are those of the
    user who is logged in. -/
inductive AccountRequest where
  /-- `/admin/registration` -/
  | registerUser (username password : String) (email : Option String) (mail : Mail)
  /-- `/home` -/
  | home (name sessionId : String) (now : Date) (authority : Role) (authorities : List Role)
  /-- `/firsttimechangepassword` -/
  | firstTimeChangPasswrd (loggerName oldpass newpass : String)
  /-- `/changepassword` -/
  | changPasswrd (loggerName oldpass newpass : String)
  /-- `/admin/resetPassword` -/
  | resetPasswordForUser (password userName : String)
  /-- `/users/forgotPasswordSendMail` -/
  | forgotPasswordSendEmail (userId secretAnswer newPassword : String) (mail : Mail)
  deriving DecidableEq

namespace AccountRequest

open CommonDao LoginController

/-- The answer of a transaction and the tables after it: an exception undoes its changes. -/
def committed {α : Type} (accounts : Accounts) (view : α → String) :
    Except Exn (α × Accounts) → Except Exn String × Accounts
  | .ok (a, after) => (.ok (view a), after)
  | .error e => (.error e, accounts)

/-- Serve a request: the view, redirect or message it answers with, and the tables. -/
def serve (encodePassword : String → String) (accounts : Accounts) :
    AccountRequest → Except Exn String × Accounts
  | .registerUser username password email mail =>
    committed accounts
      (fun saved => "redirect:/admin/registrationPage?registrationMessage=" ++
        if saved then "User Registered successfully."
        else "User Registration failed. Please try again later.")
      (saveUser encodePassword accounts username password email mail)
  | .home name sessionId now authority authorities =>
    homePageForUser accounts name sessionId now authority authorities
  | .firstTimeChangPasswrd loggerName oldpass newpass =>
    committed accounts
      (changeRedirect "firsttimechangepass" ("firsttimechangepassconf?ChangePassMessage=" ++
        "Your password change was successful. Please logout and login again with new password."))
      (changePassword encodePassword accounts loggerName oldpass newpass)
  | .changPasswrd loggerName oldpass newpass =>
    committed accounts
      (changeRedirect "changepass"
        "changepass?ChangePassMessage=Your password change was successful.")
      (changePassword encodePassword accounts loggerName oldpass newpass)
  | .resetPasswordForUser password userName =>
    match accounts.users userName with
    | some _ =>
      (.ok "Password Reset successful.",
        updateUserPassword encodePassword accounts userName password)
    | none => (.ok "Please enter a valid User Id.", accounts)
  | .forgotPasswordSendEmail userId secretAnswer newPassword mail =>
    -- the handler catches what the service throws
    match checkUserExistsAndSendPasswordMail encodePassword accounts userId secretAnswer
        newPassword mail with
    | .ok (true, after) =>
      (.ok "Email sent Successfully. Please try logging with new Password.", after)
    | .ok (false, after) =>
      (.ok "Problem in resetting password, Please try again Later.", after)
    | .error _ => (.ok "Problem in resetting password, Please try again Later.", accounts)

/-- The tables after a request. -/
def step (encodePassword : String → String) (accounts : Accounts) (request : AccountRequest) :
    Accounts :=
  (serve encodePassword accounts request).2

end AccountRequest

end Bidding.Model
