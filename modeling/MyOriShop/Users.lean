import MyOriShop.Ledger
import MyOriShop.Lib.CheckAct

/-!
# User administration (`app/services/users.py`, the guards of `app/services/security.py`)

A request for `/settings/users` first passes `auth_guard` and `require_role`, which read the row of
the logged-in user; the service then reads and writes in the same session, in a later step. Guard
and service share the session, whose identity map hands the row that the guard has read out again.
A raw password is hashed outside of the model.

* `Session`: the committed rows, and the row that the guard has read.
* `AdminCall`: the writes of the page. Who may see which warehouse is in a table of its own.
* `admins`: the guard and the service step of a request, as requests that interleave.
* `StillAdministrator`: the guard would let the actor of a deactivation through again.

Results:
* `AdminRequest.keeps_administrator`: what a service step leaves of the administrators.
* `administrator_remains`: along every run whose deactivations find their actor an active
  administrator, one remains.
* `administrators_gone`: two administrators who deactivate each other.
-/

namespace MyOriShop

open Lib.Text
open Lib.CheckAct (World Service Run)

/-- `ROLES`. -/
def roles : List String := ["administrator", "operator"]

/-- A row of `users`. -/
structure User where
  id : String
  login : String
  displayName : String
  role : String
  passwordHash : String
  isActive : Int
  deriving DecidableEq

/-- The database as one request sees it. -/
structure Session where
  users : List User
  loaded : Option User := none

/-- `session.get(User, user_id)`. -/
def Session.get (session : Session) (userId : String) : Option User :=
  match session.loaded.filter fun user => user.id = userId with
  | some user => some user
  | none => session.users.find? fun user => user.id = userId

/-- `get_active_user`. -/
def getActiveUser (session : Session) (userId : String) : Option User :=
  (session.get userId).filter fun user => user.isActive = 1

/-! ## The guards -/

/-- `auth_guard` as far as it reads users: the cookie's user, if there is one and it is active. -/
def authGuard (users : List User) (cookie : Option String) : Option User :=
  match cookie with
  | none => none
  | some userId => if userId = "" then none else getActiveUser ⟨users, none⟩ userId

/-- `require_role`: an administrator satisfies every check. -/
def requireRole (role : String) (user : User) : Bool :=
  user.role = "administrator" || user.role = role

/-- What stands before the routes of the page. -/
def adminGuard (users : List User) (cookie : Option String) : Option User :=
  (authGuard users cookie).filter (requireRole "administrator")

/-! ## The services -/

/-- `LOGIN_REQUIRED_ERROR`. -/
def loginRequiredError : String := "Введите логин."

/-- `DISPLAY_NAME_REQUIRED_ERROR`. -/
def displayNameRequiredError : String := "Укажите отображаемое имя."

/-- `LOGIN_TAKEN_ERROR`. -/
def loginTakenError : String := "Такой логин уже занят."

/-- `ROLE_INVALID_ERROR`. -/
def roleInvalidError : String := "Выберите роль из списка."

/-- `PASSWORD_REQUIRED_ERROR`. -/
def passwordRequiredError : String := "Задайте пароль."

/-- `USER_NOT_FOUND_ERROR`. -/
def userNotFoundError : String := "Пользователь не найден."

/-- `SELF_DEACTIVATE_ERROR`. -/
def selfDeactivateError : String := "Нельзя отключить самого себя."

/-- `_DISPLAY_NAME_MAX`. -/
def displayNameMax : Nat := 100

/-- The form of a new user. -/
structure UserForm where
  displayName : String
  login : String
  role : String
  password : String

/-- The errors of the form of a new user. -/
def userErrors (session : Session) (form : UserForm) : Errors :=
  let login := strip form.login
  let named := Errors.putIf [] (strip form.displayName = "") "display_name" displayNameRequiredError
  let logged :=
    if login = "" then named.put "login" loginRequiredError
    else named.putIf (session.users.any fun user => user.login = login) "login" loginTakenError
  (logged.putIf (strip form.role ∉ roles) "role" roleInvalidError).putIf (form.password = "")
    "password" passwordRequiredError

/-- What a user service leaves in the database, or its errors. -/
abbrev Saved := Except Errors (List User)

/-- `create_user`, with the id and the hash it draws. -/
def createUser (session : Session) (form : UserForm) (newId : IdSource)
    (hashPassword : String → String) : Saved :=
  let errors := userErrors session form
  if errors ≠ [] then .error errors
  else
    .ok (session.users ++ [{
      id := newId (session.users.map User.id)
      login := strip form.login
      displayName := String.ofList ((strip form.displayName).toList.take displayNameMax)
      role := strip form.role
      passwordHash := hashPassword form.password
      isActive := 1 }])

/-- Flush one changed column of the user with an id. -/
def flushUser (users : List User) (userId : String) (change : User → User) : List User :=
  users.map fun user => if user.id = userId then change user else user

/-- `deactivate_user`. -/
def deactivateUser (session : Session) (userId actorId : String) : Saved :=
  if userId = actorId then .error [("user", selfDeactivateError)]
  else
    match session.get userId with
    | none => .error [("user", userNotFoundError)]
    | some _ => .ok (flushUser session.users userId fun user => { user with isActive := 0 })

/-- `reactivate_user`: nothing to do for an unknown or an active user. -/
def reactivateUser (session : Session) (userId : String) : Saved :=
  match session.get userId with
  | none => .ok session.users
  | some found =>
    if found.isActive = 1 then .ok session.users
    else .ok (flushUser session.users userId fun user => { user with isActive := 1 })

/-- `reset_password`. -/
def resetPassword (session : Session) (userId newPassword : String)
    (hashPassword : String → String) : Saved :=
  if newPassword = "" then .error [("password", passwordRequiredError)]
  else
    match session.get userId with
    | none => .error [("user", userNotFoundError)]
    | some _ =>
      .ok (flushUser session.users userId fun user =>
        { user with passwordHash := hashPassword newPassword })

/-! ## Requests between guard and service -/

/-- A write of the page. -/
inductive AdminCall where
  | create (form : UserForm) (newId : IdSource)
  | deactivate (userId : String)
  | reactivate (userId : String)
  | reset (userId newPassword : String)

/-- A request that the guard has let through: its cookie, and the row the guard has read. -/
structure AdminRequest where
  cookie : Option String
  actor : User
  call : AdminCall
  hashPassword : String → String := id

namespace AdminRequest

/-- The service step of a request, on whatever the database holds by then. -/
def saved (users : List User) (r : AdminRequest) : Saved :=
  let session : Session := ⟨users, some r.actor⟩
  match r.call with
  | .create form newId => createUser session form newId r.hashPassword
  | .deactivate userId => deactivateUser session userId r.actor.id
  | .reactivate userId => reactivateUser session userId
  | .reset userId newPassword => resetPassword session userId newPassword r.hashPassword

/-- The database after the service step: errors write nothing. -/
def write (users : List User) (r : AdminRequest) : List User :=
  match r.saved users with
  | .ok users' => users'
  | .error _ => users

end AdminRequest

/-- The page: nothing else writes a role or an activity flag. -/
def admins : Service (List User) AdminRequest where
  passes users r := adminGuard users r.cookie = some r.actor
  write := AdminRequest.write
  other users users' := users' = users

/-- A deactivation that finds its actor as the guard has found him. -/
def StillAdministrator (users : List User) (r : AdminRequest) : Prop :=
  ∀ userId, r.call = .deactivate userId → (adminGuard users (some r.actor.id)).isSome

/-- There is an active administrator. -/
def Administered (users : List User) : Prop :=
  ∃ user ∈ users, user.isActive = 1 ∧ user.role = "administrator"

instance (users : List User) : Decidable (Administered users) :=
  inferInstanceAs (Decidable (∃ user ∈ users, _))

/-! ## What the guard reads -/

variable {users : List User} {r : AdminRequest}

theorem adminGuard_some {cookie : Option String} {user : User}
    (h : adminGuard users cookie = some user) :
    cookie = some user.id ∧ user ∈ users ∧ user.isActive = 1 ∧ user.role = "administrator" := by
  unfold adminGuard at h
  obtain ⟨hauth, hrole⟩ := Option.filter_eq_some_iff.mp h
  unfold authGuard at hauth
  cases cookie with
  | none => cases hauth
  | some userId =>
    simp only at hauth
    split_ifs at hauth with hempty
    unfold getActiveUser at hauth
    obtain ⟨hget, hactive⟩ := Option.filter_eq_some_iff.mp hauth
    have hfind : users.find? (fun user => user.id = userId) = some user := hget
    have hid : user.id = userId := by simpa using List.find?_some hfind
    refine ⟨by rw [hid], List.mem_of_find?_eq_some hfind, by simpa using hactive, ?_⟩
    simpa [requireRole] using hrole

/-- A request that the guard has just let through is timely. -/
theorem stillAdministrator_of_passes (h : admins.passes users r) : StillAdministrator users r := by
  intro userId _
  have hcookie := (adminGuard_some h).1
  rw [← hcookie, show adminGuard users r.cookie = some r.actor from h]
  rfl

/-! ## What a service step leaves -/

theorem administered_flushUser {userId : String} {change : User → User}
    (hkeep : ∀ user, user.isActive = 1 → user.role = "administrator" →
      (change user).isActive = 1 ∧ (change user).role = "administrator")
    (h : Administered users) : Administered (flushUser users userId change) := by
  obtain ⟨user, hmem, hactive, hrole⟩ := h
  refine ⟨_, List.mem_map_of_mem hmem, ?_⟩
  split_ifs
  · exact hkeep user hactive hrole
  · exact ⟨hactive, hrole⟩

/-- A change of one user leaves the others as they are. -/
theorem mem_flushUser {userId : String} {change : User → User} {user : User} (hmem : user ∈ users)
    (hne : user.id ≠ userId) : user ∈ flushUser users userId change :=
  List.mem_map.mpr ⟨user, hmem, if_neg hne⟩

/-- A deactivation leaves its actor active. -/
theorem administered_deactivateUser {session : Session} {userId actorId : String}
    {users' : List User} (h : deactivateUser session userId actorId = .ok users')
    (hactor : (adminGuard session.users (some actorId)).isSome) : Administered users' := by
  obtain ⟨actor, hguard⟩ := Option.isSome_iff_exists.mp hactor
  obtain ⟨hid, hmem, hactive, hrole⟩ := adminGuard_some hguard
  unfold deactivateUser at h
  split_ifs at h with hself
  cases hget : session.get userId with
  | none =>
    rw [hget] at h
    cases h
  | some found =>
    rw [hget] at h
    cases h
    refine ⟨actor, mem_flushUser hmem ?_, hactive, hrole⟩
    intro heq
    exact hself (heq.symm.trans (Option.some_inj.mp hid).symm)

/-- **One service step**: a deactivation that finds its actor an active administrator leaves one,
and no other write takes one away. -/
theorem AdminRequest.keeps_administrator (htimely : StillAdministrator users r)
    (h : Administered users) : Administered (r.write users) := by
  unfold AdminRequest.write
  cases hsaved : r.saved users with
  | error => exact h
  | ok users' =>
    unfold AdminRequest.saved at hsaved
    cases hcall : r.call with
    | create form newId =>
      rw [hcall] at hsaved
      simp only [createUser] at hsaved
      split_ifs at hsaved
      cases hsaved
      obtain ⟨user, hmem, huser⟩ := h
      exact ⟨user, List.mem_append_left _ hmem, huser⟩
    | deactivate userId =>
      rw [hcall] at hsaved
      exact administered_deactivateUser hsaved (htimely userId hcall)
    | reactivate userId =>
      rw [hcall] at hsaved
      simp only [reactivateUser] at hsaved
      split at hsaved
      · cases hsaved
        exact h
      · split_ifs at hsaved <;> cases hsaved
        · exact h
        · exact administered_flushUser (fun _ _ hrole => ⟨rfl, hrole⟩) h
    | reset userId newPassword =>
      rw [hcall] at hsaved
      simp only [resetPassword] at hsaved
      split_ifs at hsaved
      split at hsaved <;> cases hsaved
      exact administered_flushUser (fun _ hactive hrole => ⟨hactive, hrole⟩) h

/-! ## Runs -/

/-- **An active administrator remains** along every interleaving in which each deactivation still
finds its actor an active administrator. -/
theorem administrator_remains {w : World (List User) AdminRequest}
    (hrun : Run admins StillAdministrator ⟨users, []⟩ w) (h : Administered users) :
    Administered w.store := by
  refine Lib.CheckAct.run_induct ?_ ?_ hrun (fun r hr => absurd hr List.not_mem_nil) h
  · rintro users users' rfl h
    exact h
  · exact fun users r _ htimely h => AdminRequest.keeps_administrator htimely h

/-- Two administrators. -/
def twoAdministrators : List User :=
  [⟨"a", "anna", "Анна", "administrator", "x", 1⟩, ⟨"b", "boris", "Борис", "administrator", "y", 1⟩]

/-- One of them deactivates someone. -/
def deactivates (actor : User) (userId : String) : AdminRequest :=
  { cookie := some actor.id, actor := actor, call := .deactivate userId }

/-- The first deactivates the second, guard and service in a row. -/
theorem administrator_remains_two : ∃ w, Run admins StillAdministrator ⟨twoAdministrators, []⟩ w ∧
    w.store ≠ twoAdministrators ∧ Administered w.store := by
  have hpasses : admins.passes twoAdministrators (deactivates twoAdministrators[0] "b") := by
    show adminGuard _ _ = _
    decide
  have hrun : Run admins StillAdministrator ⟨twoAdministrators, []⟩ ⟨_, []⟩ :=
    Lib.CheckAct.alone hpasses (stillAdministrator_of_passes hpasses)
  refine ⟨_, hrun, ?_, administrator_remains hrun (by decide)⟩
  show AdminRequest.write twoAdministrators (deactivates twoAdministrators[0] "b") ≠ _
  decide

/-- **Two administrators who deactivate each other**: both pass the guard, and then both service
steps run. -/
theorem administrators_gone : ∃ users w, Administered users ∧
    Run admins (fun _ _ => True) ⟨users, []⟩ w ∧ ¬Administered w.store := by
  have hfirst : admins.passes twoAdministrators (deactivates twoAdministrators[0] "b") := by
    show adminGuard _ _ = _
    decide
  have hsecond : admins.passes twoAdministrators (deactivates twoAdministrators[1] "a") := by
    show adminGuard _ _ = _
    decide
  have hrun : Run admins (fun _ _ => True) ⟨twoAdministrators, []⟩ ⟨_, []⟩ :=
    Lib.CheckAct.race hfirst hsecond trivial trivial
  refine ⟨_, _, by decide, hrun, ?_⟩
  show ¬Administered (AdminRequest.write (AdminRequest.write twoAdministrators
    (deactivates twoAdministrators[0] "b")) (deactivates twoAdministrators[1] "a"))
  decide

end MyOriShop
