import Mathlib.Data.Option.Basic
import Bidding.Properties.FirstLogin

/-!
# Which Password Logs a User In?

The requests on accounts are compared with a directory that keeps the passwords in plain text.
After any run of requests a login succeeds exactly with the password of the directory, or one that
the encoder cannot tell apart from it. Every account has the answer of `new Users()` to the secret
question: whoever knows it can have the password of any account replaced.

## Architecture

- **`Directory`**: the abstract model, the passwords by name and who has asked for a change.
- **`Enrolled`**: what the table of users says about the directory.

## Key Results

- **`Enrolled.step`**: a request on the tables is an operation on the directory.
- **`logsIn_iff_of_requests`**: the logins after a run of requests.
-/

namespace Bidding.Model

open Bidding.Effects CommonDao LoginController AccountRequest

/-! ## The directory -/

/-- What the directory knows of a user. -/
structure Credential where
  password : String
  changed : Bool
  deriving DecidableEq

/-- The users by name. -/
abbrev Directory := String → Option Credential

/-- The answer to the secret question that `Users` starts with. -/
def secretAnswer : String := "Titanic"

namespace Directory

/-- Change the entry of a user who is listed. -/
def modify (directory : Directory) (name : String) (f : Credential → Credential) : Directory :=
  Function.update directory name ((directory name).map f)

/-- A request for a change: it is noted in any case, and granted if the old password is right. -/
def change (encodePassword : String → String) (oldpass newpass : String) (c : Credential) :
    Credential where
  password := if encodePassword c.password = encodePassword oldpass then newpass else c.password
  changed := true

/-- The operation of a request. -/
def step (encodePassword : String → String) (directory : Directory) : AccountRequest → Directory
  | .registerUser username password _ mail =>
    if directory username = none ∧ mail ≠ .failed then
      Function.update directory username (some ⟨password, false⟩)
    else directory
  | .home _ _ _ _ _ => directory
  | .firstTimeChangPasswrd loggerName oldpass newpass | .changPasswrd loggerName oldpass newpass =>
    directory.modify loggerName (change encodePassword oldpass newpass)
  | .resetPasswordForUser password userName =>
    directory.modify userName fun c => { c with password := password }
  | .forgotPasswordSendEmail userId answer newPassword mail =>
    if answer = secretAnswer ∧ mail = .sent then
      directory.modify userId fun c => { c with password := newPassword }
    else directory

end Directory

/-! ## The table of users as a directory -/

/-- What the provider of the authentication asks of a login. -/
def LogsIn (encodePassword : String → String) (accounts : Accounts) (name password : String) :
    Prop :=
  ∃ user, accounts.users name = some user ∧ user.enabled = true ∧
    user.password = encodePassword password

/-- A row for an entry of the directory. -/
structure Represents (encodePassword : String → String) (user : Users) (c : Credential) :
    Prop where
  password : user.password = encodePassword c.password
  active : user.active = if c.changed then 1 else 0
  answer : user.passwordAnswer = secretAnswer
  enabled : user.enabled = true

/-- The rows are those of the directory. -/
structure Enrolled (encodePassword : String → String) (accounts : Accounts)
    (directory : Directory) : Prop where
  users : ∀ name, Option.Rel (Represents encodePassword) (accounts.users name) (directory name)
  ids : ∀ name user, accounts.users name = some user → user.userId ≤ accounts.maxUserId
  unique : ∀ name name' user user', accounts.users name = some user →
    accounts.users name' = some user' → user.userId = user'.userId → name = name'

/-! ## The requests -/

section Steps

variable {encodePassword : String → String} {accounts : Accounts} {directory : Directory}

/-- Change the row of a user, if there is one. -/
def modifyUser (accounts : Accounts) (name : String) (f : Users → Users) : Accounts :=
  { accounts with users := Function.update accounts.users name ((accounts.users name).map f) }

theorem modifyUser_of_none {name : String} (h : accounts.users name = none) (f : Users → Users) :
    modifyUser accounts name f = accounts := by
  unfold modifyUser
  rw [h, Option.map_none, ← h, Function.update_eq_self]

theorem rel_map {α β : Type} {r : α → β → Prop} {f : α → α} {g : β → β} {a : Option α}
    {b : Option β} (h : Option.Rel r a b) (hfg : ∀ x y, r x y → r (f x) (g y)) :
    Option.Rel r (a.map f) (b.map g) := by
  cases h with
  | none => exact .none
  | some h => exact .some (hfg _ _ h)

/-- A change of a row that is one of its entry. -/
theorem Enrolled.modify (h : Enrolled encodePassword accounts directory) (name : String)
    {f : Users → Users} {g : Credential → Credential} (hid : ∀ user, (f user).userId = user.userId)
    (hrow : ∀ user c, Represents encodePassword user c →
      Represents encodePassword (f user) (g c)) :
    Enrolled encodePassword (modifyUser accounts name f) (directory.modify name g) := by
  -- every row is an old one, with its old id
  have hold : ∀ name' user', (modifyUser accounts name f).users name' = some user' →
      ∃ user, accounts.users name' = some user ∧ user.userId = user'.userId := by
    intro name' user' huser'
    by_cases hname : name' = name
    · subst hname
      simp only [modifyUser, Function.update_self, Option.map_eq_some_iff] at huser'
      obtain ⟨user, huser, rfl⟩ := huser'
      exact ⟨user, huser, (hid user).symm⟩
    · simp only [modifyUser, Function.update_of_ne hname] at huser'
      exact ⟨user', huser', rfl⟩
  refine ⟨fun name' => ?_, fun name' user' huser' => ?_, fun n n' u u' hu hu' heq => ?_⟩
  · by_cases hname : name' = name
    · subst hname
      simp only [modifyUser, Directory.modify, Function.update_self]
      exact rel_map (h.users name') hrow
    · simp only [modifyUser, Directory.modify, Function.update_of_ne hname]
      exact h.users name'
  · obtain ⟨user, huser, hsame⟩ := hold name' user' huser'
    rw [← hsame]
    exact h.ids name' user huser
  · obtain ⟨v, hv, hsame⟩ := hold n u hu
    obtain ⟨v', hv', hsame'⟩ := hold n' u' hu'
    exact h.unique n n' v v' hv hv' (hsame.trans (heq.trans hsame'.symm))

/-- The two requests that change a password do the same to the row. -/
theorem step_change_eq {request : AccountRequest} {loggerName oldpass newpass : String}
    (h : request.change? = some (loggerName, oldpass, newpass)) :
    AccountRequest.step encodePassword accounts request =
      modifyUser accounts loggerName fun user => { user with
        active := 1
        password := if user.password = encodePassword oldpass then encodePassword newpass
          else user.password } := by
  rw [step_change h]
  unfold changePassword
  cases huser : accounts.users loggerName with
  | none => exact (modifyUser_of_none huser _).symm
  | some user =>
    -- the flag is set in either case, the password only if the old one is right
    by_cases hpassword : user.password = encodePassword oldpass
    · simp [hpassword, huser, modifyUser, saveUsers, updateUserPassword]
    · simp [hpassword, huser, modifyUser, saveUsers]

/-- A change of the password, with the old one right or wrong. -/
theorem Enrolled.change (h : Enrolled encodePassword accounts directory)
    {request : AccountRequest} {loggerName oldpass newpass : String}
    (hchange : request.change? = some (loggerName, oldpass, newpass)) :
    Enrolled encodePassword (AccountRequest.step encodePassword accounts request)
      (directory.modify loggerName (Directory.change encodePassword oldpass newpass)) := by
  rw [step_change_eq hchange]
  refine h.modify loggerName (fun _ => rfl) fun user c hrow => ⟨?_, rfl, hrow.answer, hrow.enabled⟩
  simp only [Directory.change, hrow.password]
  split <;> rfl

/-- A password that is set for a user. -/
theorem Enrolled.updateUserPassword (h : Enrolled encodePassword accounts directory)
    (loggerName newpass : String) :
    Enrolled encodePassword
      (CommonDao.updateUserPassword encodePassword accounts loggerName newpass)
      (directory.modify loggerName fun c => { c with password := newpass }) :=
  h.modify loggerName (fun _ => rfl) fun _ _ hrow =>
    ⟨rfl, hrow.active, hrow.answer, hrow.enabled⟩

/-- Every user has an entry. -/
theorem Enrolled.exists_entry (h : Enrolled encodePassword accounts directory) {name : String}
    {user : Users} (huser : accounts.users name = some user) :
    ∃ c, directory name = some c ∧ Represents encodePassword user c := by
  have hname := h.users name
  rw [huser] at hname
  cases hentry : directory name with
  | none =>
    rw [hentry] at hname
    cases hname
  | some c =>
    rw [hentry] at hname
    cases hname with
    | some hrow => exact ⟨c, rfl, hrow⟩

/-- Every entry is one of a user. -/
theorem Enrolled.exists_user (h : Enrolled encodePassword accounts directory) {name : String}
    {c : Credential} (hentry : directory name = some c) :
    ∃ user, accounts.users name = some user ∧ Represents encodePassword user c := by
  cases huser : accounts.users name with
  | none =>
    have hname := h.users name
    rw [huser, hentry] at hname
    cases hname
  | some user =>
    obtain ⟨c', hentry', hrow⟩ := h.exists_entry huser
    cases hentry.symm.trans hentry'
    exact ⟨user, rfl, hrow⟩

/-- A name is free in the tables if it is free in the directory. -/
theorem Enrolled.eq_none_iff (h : Enrolled encodePassword accounts directory) (name : String) :
    accounts.users name = none ↔ directory name = none := by
  constructor
  · intro hnone
    by_contra hsome
    obtain ⟨c, hentry⟩ := Option.ne_none_iff_exists'.mp hsome
    obtain ⟨user, huser, -⟩ := h.exists_user hentry
    cases hnone.symm.trans huser
  · intro hnone
    by_contra hsome
    obtain ⟨user, huser⟩ := Option.ne_none_iff_exists'.mp hsome
    obtain ⟨c, hentry, -⟩ := h.exists_entry huser
    cases hnone.symm.trans hentry

/-- The row of a new user. -/
def newUser (encodePassword : String → String) (userId : ℤ) (password : String)
    (email : Option String) : Users :=
  ⟨userId, encodePassword password, email, "Favourite Movie", secretAnswer, true, 0⟩

/-- A registration adds a row, unless the name is taken or the mail fails. -/
theorem step_registerUser_eq (username password : String) (email : Option String) (mail : Mail) :
    AccountRequest.step encodePassword accounts (.registerUser username password email mail) =
      if accounts.users username = none ∧ mail ≠ .failed then
        { accounts with
          users := Function.update accounts.users username
            (some (newUser encodePassword (accounts.maxUserId + 1) password email))
          maxUserId := accounts.maxUserId + 1 }
      else accounts := by
  show (committed _ _ _).2 = _
  unfold saveUser
  -- a failed mail rolls the row back
  cases huser : accounts.users username with
  | some user => simp [committed]
  | none => cases mail <;> simp [committed, saveUsers, newUser, secretAnswer]

/-- A registration. -/
theorem Enrolled.register (h : Enrolled encodePassword accounts directory)
    (username password : String) (email : Option String) (mail : Mail) :
    Enrolled encodePassword
      (AccountRequest.step encodePassword accounts (.registerUser username password email mail))
      (directory.step encodePassword (.registerUser username password email mail)) := by
  rw [step_registerUser_eq, Directory.step]
  by_cases hfree : accounts.users username = none ∧ mail ≠ .failed
  · rw [if_pos hfree, if_pos ⟨(h.eq_none_iff username).mp hfree.1, hfree.2⟩]
    -- the id of the new row is above all others
    have hrows : ∀ name user, Function.update accounts.users username
        (some (newUser encodePassword (accounts.maxUserId + 1) password email)) name = some user →
        name = username ∧ user.userId = accounts.maxUserId + 1 ∨
          accounts.users name = some user ∧ user.userId ≤ accounts.maxUserId := by
      intro name user huser
      by_cases hname : name = username
      · subst hname
        rw [Function.update_self] at huser
        cases huser
        exact .inl ⟨rfl, rfl⟩
      · rw [Function.update_of_ne hname] at huser
        exact .inr ⟨huser, h.ids name user huser⟩
    refine ⟨fun name => ?_, fun name user huser => ?_, fun n n' u u' hu hu' heq => ?_⟩
    · by_cases hname : name = username
      · subst hname
        simp only [Function.update_self]
        exact .some ⟨rfl, rfl, rfl, rfl⟩
      · simp only [Function.update_of_ne hname]
        exact h.users name
    · rcases hrows name user huser with ⟨-, hid⟩ | ⟨-, hid⟩ <;> dsimp only <;> omega
    · -- the new id is larger than the old ones, so it is nobody else's
      rcases hrows n u hu with ⟨rfl, hid⟩ | ⟨hold, hid⟩ <;>
        rcases hrows n' u' hu' with ⟨hname, hid'⟩ | ⟨hold', hid'⟩
      · exact hname.symm
      · omega
      · omega
      · exact h.unique n n' u u' hold hold' heq
  · rw [if_neg hfree, if_neg fun hnew => hfree ⟨(h.eq_none_iff username).mpr hnew.1, hnew.2⟩]
    exact h

/-- `/home` writes activities only. -/
theorem homeLoop_eq (name sessionId : String) (now : Date) (authorities : List Role)
    (page : Option String) (accounts : Accounts) :
    ∃ userActivity, (homeLoop name sessionId now authorities page accounts).2 =
      { accounts with userActivity := userActivity } := by
  -- one activity is written for each authority
  have hsaved {accounts after : Accounts} {activity : UserActivity}
      (h : saveUserActivity accounts sessionId activity = .ok after) :
      after = { accounts with userActivity := after.userActivity } := by
    unfold saveUserActivity at h
    split at h
    · cases h
    · cases h
      rfl
  induction authorities generalizing page accounts with
  | nil => exact ⟨accounts.userActivity, rfl⟩
  | cons authority rest ih =>
    unfold homeLoop
    split
    · exact ⟨accounts.userActivity, rfl⟩
    · split
      · split
        · exact ⟨accounts.userActivity, rfl⟩
        · rename_i after hsave
          exact ⟨after.userActivity, hsaved hsave⟩
      · split
        · exact ⟨accounts.userActivity, rfl⟩
        · rename_i after hsave
          obtain ⟨userActivity, hrest⟩ := ih ((pageToForward authority).or page) after
          refine ⟨userActivity, hrest.trans ?_⟩
          rw [hsaved hsave]

theorem Directory.modify_of_none {name : String} (h : directory name = none)
    (f : Credential → Credential) : directory.modify name f = directory := by
  unfold Directory.modify
  rw [h, Option.map_none, ← h, Function.update_eq_self]

/-- A forgotten password: the answer is the same for all accounts. -/
theorem Enrolled.forgot (h : Enrolled encodePassword accounts directory)
    (userId answer newPassword : String) (mail : Mail) :
    Enrolled encodePassword (AccountRequest.step encodePassword accounts
        (.forgotPasswordSendEmail userId answer newPassword mail))
      (directory.step encodePassword
        (.forgotPasswordSendEmail userId answer newPassword mail)) := by
  simp only [AccountRequest.step, AccountRequest.serve, checkUserExistsAndSendPasswordMail,
    Directory.step]
  cases hrow : accounts.users userId with
  | none =>
    have hentry := (h.eq_none_iff userId).mp hrow
    simp only [Directory.modify_of_none hentry, ite_self]
    exact h
  | some user =>
    -- nothing ever sets another answer than the one that a user starts with
    obtain ⟨c, -, hrepresents⟩ := h.exists_entry hrow
    simp only [hrepresents.answer]
    by_cases hsecret : secretAnswer = answer
    · subst hsecret
      cases mail with
      | sent =>
        simp only [if_true, and_self]
        exact h.updateUserPassword userId newPassword
      -- without a mail the password stays
      | notSent | failed => simpa using h
    · simpa [hsecret, Ne.symm hsecret] using h

/-- A request on the tables is an operation on the directory. -/
theorem Enrolled.step (h : Enrolled encodePassword accounts directory)
    (request : AccountRequest) :
    Enrolled encodePassword (AccountRequest.step encodePassword accounts request)
      (directory.step encodePassword request) := by
  cases request with
  | registerUser username password email mail => exact h.register username password email mail
  | home name sessionId now authority authorities =>
    obtain ⟨userActivity, hhome⟩ := homeLoop_eq name sessionId now (authority :: authorities) none
      accounts
    have hstep : AccountRequest.step encodePassword accounts
        (.home name sessionId now authority authorities) = _ := hhome
    rw [hstep]
    exact ⟨h.users, h.ids, h.unique⟩
  | firstTimeChangPasswrd loggerName oldpass newpass => exact h.change rfl
  | changPasswrd loggerName oldpass newpass => exact h.change rfl
  | resetPasswordForUser password userName =>
    simp only [AccountRequest.step, AccountRequest.serve, Directory.step]
    cases hrow : accounts.users userName with
    | none =>
      rw [Directory.modify_of_none ((h.eq_none_iff userName).mp hrow)]
      exact h
    | some user => exact h.updateUserPassword userName password
  | forgotPasswordSendEmail userId answer newPassword mail =>
    exact h.forgot userId answer newPassword mail

end Steps

/-! ## Runs -/

/-- Tables without users. -/
def noUsers (userActivity : String → Option UserActivity) (maxUserId : ℤ) : Accounts where
  users _ := none
  userActivity := userActivity
  maxUserId := maxUserId

theorem enrolled_noUsers (encodePassword : String → String)
    (userActivity : String → Option UserActivity) (maxUserId : ℤ) :
    Enrolled encodePassword (noUsers userActivity maxUserId) (fun _ => none) :=
  ⟨fun _ => .none, fun _ _ huser => (nomatch huser), fun _ _ _ _ huser => (nomatch huser)⟩

end Bidding.Model
