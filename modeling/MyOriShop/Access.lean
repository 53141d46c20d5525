import Mathlib.Data.List.Nodup
import Mathlib.Data.Option.Basic
import Mathlib.Logic.Function.Basic
import MyOriShop.Users

/-!
# Access: who can log in (`app/routes/auth.py`, `services/auth.py`, `services/users.py`)

The login, the setup of a new installation and the page of the administrators, one request after
another. The hasher is a parameter: a hash verifies the password it was made of and no other, and may
ask to be made again, which a login then does. The cookie is signed; a request has the user id that
an answer has put in it.

* `loginSubmit`, `setupSubmit` are the routes of these names; `AccessCall.exec` is one request.
* `Accounts` is what the table is for: a login stands for an id, a role, a password, and whether it is
  enabled. `Accounts.after` is what a request does to them.
* `Represents`: the table is an image of the accounts.

Results:
* `represents_exec`: a request does to the table what it does to the accounts.
* `login_refines`: after every run a login is answered by the accounts, and the guard asks them.
-/

namespace MyOriShop

open Lib.Text

/-! ## The hasher -/

/-- `PasswordHasher`. -/
structure Hasher where
  /-- `verify`, true where it does not raise. -/
  verify : (stored raw : String) → Bool
  /-- `check_needs_rehash`. -/
  needsRehash : String → Bool

/-- A call of `hash`, with the salt it draws: its hash verifies the password, and no other. -/
def Hasher.Hashes (ph : Hasher) (hash : String → String) : Prop :=
  ∀ raw raw', ph.verify (hash raw) raw' = decide (raw' = raw)

variable (ph : Hasher)

/-- `verify_password`: whether it is the password, and the rows after a rehash. -/
def verifyPassword (hash : String → String) (users : List User) (user : User) (raw : String) :
    Bool × List User :=
  if ph.verify user.passwordHash raw then
    if ph.needsRehash user.passwordHash then
      (true, flushUser users user.id fun u => { u with passwordHash := hash raw })
    else (true, users)
  else (false, users)

@[simp] theorem verifyPassword_fst (hash : String → String) (users : List User) (user : User)
    (raw : String) : (verifyPassword ph hash users user raw).1 = ph.verify user.passwordHash raw := by
  unfold verifyPassword
  split_ifs with h
  · exact h.symm
  · exact h.symm
  · exact (Bool.eq_false_iff.mpr h).symm

/-! ## The routes -/

/-- What `login_submit` answers: the id in the cookie, or one of the two errors. -/
inductive LoginAnswer where
  | inside (userId : String)
  /-- `DEACTIVATED_ERROR`. -/
  | deactivated
  /-- `BAD_CREDENTIALS_ERROR`. -/
  | badCredentials
  deriving DecidableEq

/-- `login_submit`. -/
def loginSubmit (hash : String → String) (users : List User) (login password : String) :
    LoginAnswer × List User :=
  match users.find? fun user => user.login = strip login with
  | none => (.badCredentials, users)
  | some user =>
    let verified := verifyPassword ph hash users user password
    if verified.1 then (if user.isActive = 1 then .inside user.id else .deactivated, verified.2)
    else (.badCredentials, verified.2)

/-- `setup_submit`: the first user is an administrator. A later one is sent to the login. -/
def setupSubmit (hash : String → String) (users : List User) (form : UserForm) (newId : IdSource) :
    Saved :=
  if users = [] then createUser ⟨users, none⟩ { form with role := "administrator" } newId hash
  else .ok users

/-- A request, with the hash it would draw. -/
inductive AccessCall where
  | setup (form : UserForm) (newId : IdSource) (hash : String → String)
  | login (login password : String) (hash : String → String)
  | admin (cookie : Option String) (call : AdminCall) (hash : String → String)

/-- The hash a request would draw. -/
def AccessCall.hash : AccessCall → String → String
  | .setup _ _ hash | .login _ _ hash | .admin _ _ hash => hash

/-- The rows after a request: errors write nothing, and the guard comes first. -/
def AccessCall.exec (users : List User) : AccessCall → List User
  | .setup form newId hash => (setupSubmit hash users form newId).toOption.getD users
  | .login typed password hash => (loginSubmit ph hash users typed password).2
  | .admin cookie call hash =>
    match adminGuard users cookie with
    | some actor => AdminRequest.write users ⟨cookie, actor, call, hash⟩
    | none => users

/-! ## Accounts -/

/-- What a login stands for. -/
structure Account where
  id : String
  role : String
  password : String
  enabled : Bool

/-- The accounts, by login. -/
abbrev Accounts := String → Option Account

namespace Accounts

variable (accounts : Accounts)

/-- No account has the id. -/
def Unused (id : String) : Prop := id ≠ "" ∧ ∀ login a, accounts login = some a → a.id ≠ id

/-- An enabled administrator. -/
def Administers (id : String) : Prop :=
  id ≠ "" ∧ ∃ login a, accounts login = some a ∧ a.id = id ∧ a.enabled = true ∧
    a.role = "administrator"

/-- The password decides, and only then whether the account is enabled. -/
def enter (login password : String) : LoginAnswer :=
  match accounts login with
  | none => .badCredentials
  | some a =>
    if password = a.password then if a.enabled then .inside a.id else .deactivated
    else .badCredentials

/-- A form that is complete opens an account under a login that is free. -/
def opened (form : UserForm) (id : String) : Accounts :=
  if strip form.displayName ≠ "" ∧ strip form.login ≠ "" ∧ accounts (strip form.login) = none ∧
      strip form.role ∈ roles ∧ form.password ≠ "" then
    Function.update accounts (strip form.login)
      (some ⟨id, strip form.role, form.password, true⟩)
  else accounts

/-- The account with an id, changed. -/
def changed (id : String) (change : Account → Account) : Accounts := fun login =>
  (accounts login).map fun a => if a.id = id then change a else a

/-- What an administrator does. -/
def managed (actor : String) (id : String) : AdminCall → Accounts
  | .create form _ => accounts.opened form id
  | .deactivate userId =>
    if userId = actor then accounts else accounts.changed userId fun a => { a with enabled := false }
  | .reactivate userId => accounts.changed userId fun a => { a with enabled := true }
  | .reset userId newPassword =>
    if newPassword = "" then accounts
    else accounts.changed userId fun a => { a with password := newPassword }

open Classical in
/-- What a request does; `id` is the one it would draw. -/
noncomputable def after (id : String) : AccessCall → Accounts
  | .setup form _ _ =>
    if ∀ login, accounts login = none then
      accounts.opened { form with role := "administrator" } id
    else accounts
  | .login _ _ _ => accounts
  | .admin none _ _ => accounts
  | .admin (some actor) call _ =>
    if accounts.Administers actor then accounts.managed actor id call else accounts

/-- What comes of requests one after another, each with an id that was unused. -/
inductive Reaches : Accounts → List AccessCall → Accounts → Prop where
  | done (accounts : Accounts) : Reaches accounts [] accounts
  | step {accounts accounts' : Accounts} {calls : List AccessCall} (call : AccessCall) (id : String)
      (hid : accounts.Unused id) (h : Reaches (accounts.after id call) calls accounts') :
      Reaches accounts (call :: calls) accounts'

end Accounts

/-! ## The table is an image of the accounts -/

/-- A row is that of an account. -/
structure Stands (user : User) (a : Account) : Prop where
  id : a.id = user.id
  role : a.role = user.role
  enabled : a.enabled = decide (user.isActive = 1)
  password : ∀ raw, ph.verify user.passwordHash raw = decide (raw = a.password)

/-- The row of a login is that of its account, and there are no others. -/
structure Represents (users : List User) (accounts : Accounts) : Prop where
  logins : (users.map User.login).Nodup
  ids : (users.map User.id).Nodup
  named : ∀ user ∈ users, user.id ≠ ""
  rows : ∀ login, Option.Rel (Stands ph) (users.find? fun user => user.login = login) (accounts login)

variable {ph} {users : List User} {accounts : Accounts}

theorem find_of_nodup {α : Type} {key : α → String} {rows : List α} (h : (rows.map key).Nodup) {r : α}
    (hr : r ∈ rows) : rows.find? (fun s => key s = key r) = some r := by
  cases hfind : rows.find? fun s => key s = key r with
  | none =>
    have hno := List.find?_eq_none.mp hfind r hr
    simp at hno
  | some s =>
    have hs : key s = key r := by simpa using List.find?_some hfind
    rw [List.inj_on_of_nodup_map h (List.mem_of_find?_eq_some hfind) hr hs]

/-- A row has its account. -/
theorem Represents.account (h : Represents ph users accounts) {user : User} (hu : user ∈ users) :
    ∃ a, accounts user.login = some a ∧ Stands ph user a := by
  have hrel := h.rows user.login
  rw [find_of_nodup h.logins hu] at hrel
  generalize accounts user.login = o at hrel
  cases hrel with
  | some hstands => exact ⟨_, rfl, hstands⟩

/-- An account has its row. -/
theorem Represents.row (h : Represents ph users accounts) {login : String} {a : Account}
    (ha : accounts login = some a) : ∃ user ∈ users, user.login = login ∧ Stands ph user a := by
  have hrel := h.rows login
  rw [ha] at hrel
  generalize hfind : users.find? (fun user => user.login = login) = o at hrel
  cases hrel with
  | some hstands =>
    exact ⟨_, List.mem_of_find?_eq_some hfind, by simpa using List.find?_some hfind, hstands⟩

theorem Represents.free_iff (h : Represents ph users accounts) (login : String) :
    accounts login = none ↔ ∀ user ∈ users, user.login ≠ login := by
  constructor
  · rintro hnone user hu rfl
    obtain ⟨a, ha, -⟩ := h.account hu
    exact Option.some_ne_none a (ha.symm.trans hnone)
  · intro hall
    by_contra hsome
    obtain ⟨a, ha⟩ := Option.ne_none_iff_exists'.mp hsome
    obtain ⟨user, hu, hlogin, -⟩ := h.row ha
    exact hall user hu hlogin

/-- The guard lets an enabled administrator through, and nobody else. -/
theorem Represents.guard_iff (h : Represents ph users accounts) (id : String) :
    (adminGuard users (some id)).isSome ↔ accounts.Administers id := by
  constructor
  · intro hsome
    obtain ⟨user, hguard⟩ := Option.isSome_iff_exists.mp hsome
    obtain ⟨hid, hu, hactive, hrole⟩ := adminGuard_some hguard
    obtain rfl : id = user.id := Option.some.inj hid
    obtain ⟨a, ha, hstands⟩ := h.account hu
    refine ⟨h.named user hu, user.login, a, ha, hstands.id, ?_, hstands.role.trans hrole⟩
    rw [hstands.enabled, decide_eq_true hactive]
  · rintro ⟨hid, login, a, ha, rfl, henabled, hrole⟩
    obtain ⟨user, hu, -, hstands⟩ := h.row ha
    have hfind : users.find? (fun u => u.id = a.id) = some user := by
      rw [hstands.id]
      exact find_of_nodup h.ids hu
    have hactive : user.isActive = 1 := by
      rw [hstands.enabled] at henabled
      exact of_decide_eq_true henabled
    have hget : Session.get ⟨users, none⟩ a.id = some user := hfind
    simp [adminGuard, authGuard, hid, getActiveUser, hget, hactive, requireRole,
      ← hstands.role, hrole]

/-- **A login** is answered by the accounts. -/
theorem Represents.login (h : Represents ph users accounts) (hash : String → String)
    (login password : String) :
    (loginSubmit ph hash users login password).1 = accounts.enter (strip login) password := by
  have hrel := h.rows (strip login)
  unfold loginSubmit Accounts.enter
  generalize (users.find? fun user => user.login = strip login) = row at hrel ⊢
  generalize accounts (strip login) = o at hrel ⊢
  cases hrel with
  | none => rfl
  | some hstands =>
    rename_i user a
    simp only [verifyPassword_fst, hstands.password, hstands.enabled, hstands.id, decide_eq_true_eq]
    split_ifs <;> rfl

/-! ## A request -/

theorem represents_nil : Represents ph [] fun _ => none where
  logins := List.nodup_nil
  ids := List.nodup_nil
  named _ h := absurd h List.not_mem_nil
  rows _ := .none

/-- A new row. -/
theorem Represents.append (h : Represents ph users accounts) {user : User} {a : Account}
    (hfree : accounts user.login = none) (hid : user.id ≠ "" ∧ user.id ∉ users.map User.id)
    (hstands : Stands ph user a) :
    Represents ph (users ++ [user]) (Function.update accounts user.login (some a)) where
  logins := by
    rw [List.map_append, List.map_singleton]
    refine List.nodup_append'.mpr ⟨h.logins, List.nodup_singleton _, ?_⟩
    rw [List.disjoint_singleton]
    intro hmem
    obtain ⟨u, hu, hlogin⟩ := List.mem_map.mp hmem
    exact (h.free_iff _).mp hfree u hu hlogin
  ids := by
    rw [List.map_append, List.map_singleton]
    exact List.nodup_append'.mpr ⟨h.ids, List.nodup_singleton _, List.disjoint_singleton.mpr hid.2⟩
  named := List.forall_mem_append.mpr ⟨h.named, List.forall_mem_singleton.mpr hid.1⟩
  rows login := by
    rw [List.find?_append]
    by_cases hlogin : login = user.login
    · subst hlogin
      have hnone : users.find? (fun u => u.login = user.login) = none := by
        refine List.find?_eq_none.mpr fun u hu => ?_
        simpa using (h.free_iff _).mp hfree u hu
      rw [hnone, Function.update_self, Option.none_or, List.find?_cons_of_pos (by simp)]
      exact .some hstands
    · rw [Function.update_of_ne hlogin, List.find?_cons_of_neg (by simpa using Ne.symm hlogin),
        List.find?_nil, Option.or_none]
      exact h.rows login

/-- The row with an id, changed. -/
theorem Represents.flush (h : Represents ph users accounts) (id : String) {change : User → User}
    {change' : Account → Account} (hid : ∀ u, (change u).id = u.id)
    (hlogin : ∀ u, (change u).login = u.login)
    (hstands : ∀ u ∈ users, u.id = id → ∀ a, Stands ph u a → Stands ph (change u) (change' a)) :
    Represents ph (flushUser users id change) (accounts.changed id change') where
  logins := by
    have hsame : (flushUser users id change).map User.login = users.map User.login := by
      rw [flushUser, List.map_map]
      refine List.map_congr_left fun u _ => ?_
      rw [Function.comp_apply]
      split_ifs
      · exact hlogin u
      · rfl
    rw [hsame]
    exact h.logins
  ids := by
    have hsame : (flushUser users id change).map User.id = users.map User.id := by
      rw [flushUser, List.map_map]
      refine List.map_congr_left fun u _ => ?_
      rw [Function.comp_apply]
      split_ifs
      · exact hid u
      · rfl
    rw [hsame]
    exact h.ids
  named := by
    refine List.forall_mem_map.mpr fun u hu => ?_
    split_ifs
    · rw [hid]
      exact h.named u hu
    · exact h.named u hu
  rows login := by
    have hsame : ((fun u => decide (u.login = login)) ∘ fun u => if u.id = id then change u else u) =
        fun u => decide (u.login = login) := by
      funext u
      rw [Function.comp_apply]
      split_ifs <;> simp [hlogin]
    have hrel := h.rows login
    rw [flushUser, List.find?_map, hsame, Accounts.changed]
    generalize hfind : (users.find? fun u => u.login = login) = row at hrel ⊢
    generalize accounts login = o at hrel ⊢
    cases hrel with
    | none => exact .none
    | some hrow =>
      rename_i u a
      refine .some ?_
      dsimp only
      rw [hrow.id]
      split_ifs with heq
      · exact hstands u (List.mem_of_find?_eq_some hfind) heq a hrow
      · exact hrow

/-- The account with an id, changed into itself. -/
theorem Accounts.changed_id (accounts : Accounts) (id : String) : accounts.changed id (fun a => a) = accounts := by
  funext login
  simp [Accounts.changed]

/-- **A form** opens an account, under the id that is drawn. -/
theorem Represents.create (h : Represents ph users accounts) (form : UserForm) (newId : IdSource)
    {hash : String → String} (hhash : ph.Hashes hash) (loaded : Option User) :
    Represents ph ((createUser ⟨users, loaded⟩ form newId hash).toOption.getD users)
      (accounts.opened form (newId (users.map User.id))) := by
  have hfree := h.free_iff (strip form.login)
  have hcomplete : userErrors ⟨users, loaded⟩ form = [] ↔ strip form.displayName ≠ "" ∧
      strip form.login ≠ "" ∧ accounts (strip form.login) = none ∧ strip form.role ∈ roles ∧
        form.password ≠ "" := by
    unfold userErrors
    by_cases hlogin : strip form.login = ""
    · simp [hlogin, Errors.put_ne_nil]
    · rw [hfree]
      simp only [hlogin, if_false, Errors.putIf_eq_nil, decide_eq_false_iff_not, not_not,
        List.any_eq_false, decide_eq_true_eq, true_and, not_false_eq_true, ne_eq, and_true]
      constructor
      · rintro ⟨hpassword, hrole, hfree, hname⟩
        exact ⟨hname, hfree, hrole, hpassword⟩
      · rintro ⟨hname, hfree, hrole, hpassword⟩
        exact ⟨hpassword, hrole, hfree, hname⟩
  unfold createUser Accounts.opened
  by_cases hform : userErrors ⟨users, loaded⟩ form = []
  · obtain ⟨-, -, hfree, -, -⟩ := hcomplete.mp hform
    simp only [hform, ne_eq, not_true_eq_false, if_false]
    rw [if_pos (hcomplete.mp hform)]
    exact h.append hfree (newId (users.map User.id)).2 ⟨rfl, rfl, by simp, fun raw => hhash _ raw⟩
  · simp only [ne_eq, hform, not_false_eq_true, if_true]
    rw [if_neg fun hok => hform (hcomplete.mpr hok)]
    exact h

/-- An id that is drawn is nobody's. -/
theorem Represents.unused (h : Represents ph users accounts) (newId : IdSource) :
    accounts.Unused (newId (users.map User.id)) := by
  refine ⟨(newId (users.map User.id)).2.1, fun login a ha hid => ?_⟩
  obtain ⟨u, hu, -, hstands⟩ := h.row ha
  refine (newId (users.map User.id)).2.2 ?_
  rw [← hid, hstands.id]
  exact List.mem_map_of_mem hu

/-- What an administrator does, with the row of his own that the guard has read. -/
theorem Represents.manage (h : Represents ph users accounts) {actor : User} (hactor : actor ∈ users)
    (call : AdminCall) {hash : String → String} (hhash : ph.Hashes hash) (cookie : Option String) :
    ∃ id, accounts.Unused id ∧ Represents ph (AdminRequest.write users ⟨cookie, actor, call, hash⟩)
      (accounts.managed actor.id id call) := by
  have hget : ∀ id, Session.get ⟨users, some actor⟩ id = users.find? fun u => u.id = id := by
    intro id
    by_cases hid : actor.id = id
    · subst hid
      rw [find_of_nodup h.ids hactor, Session.get, Option.filter_some_pos (by simp)]
    · rw [Session.get, Option.filter_some_neg (by simpa using hid)]
  have hunknown : ∀ {id} (change : Account → Account), users.find? (fun u => u.id = id) = none →
      accounts.changed id change = accounts := by
    intro id change hnone
    funext login
    rw [Accounts.changed]
    cases ha : accounts login with
    | none => rfl
    | some a =>
      obtain ⟨u, hu, -, hstands⟩ := h.row ha
      have hne : a.id ≠ id := by
        rw [hstands.id]
        simpa using List.find?_eq_none.mp hnone u hu
      rw [Option.map_some, if_neg hne]
  cases call with
  | create form newId =>
    refine ⟨newId (users.map User.id), h.unused newId, ?_⟩
    have hcreate := h.create form newId hhash (some actor)
    unfold AdminRequest.write AdminRequest.saved
    dsimp only
    generalize createUser ⟨users, some actor⟩ form newId hash = saved at hcreate ⊢
    cases saved <;> exact hcreate
  | deactivate userId =>
    refine ⟨freshId (users.map User.id), h.unused freshId, ?_⟩
    simp only [AdminRequest.write, AdminRequest.saved, deactivateUser, hget, Accounts.managed]
    split_ifs with hself
    · exact h
    · cases hfind : users.find? fun u => u.id = userId with
      | none => rwa [hunknown _ hfind]
      | some u =>
        exact h.flush userId (fun _ => rfl) (fun _ => rfl) fun u _ _ a hstands =>
          ⟨hstands.id, hstands.role, by simp, hstands.password⟩
  | reactivate userId =>
    refine ⟨freshId (users.map User.id), h.unused freshId, ?_⟩
    simp only [AdminRequest.write, AdminRequest.saved, reactivateUser, hget, Accounts.managed]
    cases hfind : users.find? fun u => u.id = userId with
    | none => rwa [hunknown _ hfind]
    | some found =>
      have hid : found.id = userId := by simpa using List.find?_some hfind
      by_cases hactive : found.isActive = 1
      · -- the row stays as it is, and the account was enabled before
        have hsame : Represents ph (flushUser users userId fun u => u)
            (accounts.changed userId fun a => { a with enabled := true }) := by
          refine h.flush userId (fun _ => rfl) (fun _ => rfl) fun u hu hu' a hstands => ?_
          have heq : some u = some found := by
            rw [← find_of_nodup h.ids hu, hu', hfind]
          cases heq
          exact ⟨hstands.id, hstands.role, by simp [hactive], hstands.password⟩
        simpa [flushUser, hactive] using hsame
      · simp only [hactive, if_false]
        exact h.flush userId (fun _ => rfl) (fun _ => rfl) fun u _ _ a hstands =>
          ⟨hstands.id, hstands.role, by simp, hstands.password⟩
  | reset userId newPassword =>
    refine ⟨freshId (users.map User.id), h.unused freshId, ?_⟩
    simp only [AdminRequest.write, AdminRequest.saved, resetPassword, hget, Accounts.managed]
    split_ifs with hempty
    · exact h
    · cases hfind : users.find? fun u => u.id = userId with
      | none => rwa [hunknown _ hfind]
      | some u =>
        exact h.flush userId (fun _ => rfl) (fun _ => rfl) fun u _ _ a hstands =>
          ⟨hstands.id, hstands.role, hstands.enabled, fun raw => hhash _ raw⟩

/-- A login may make the hash again, of the password it has just verified. -/
theorem Represents.afterLogin (h : Represents ph users accounts) {hash : String → String}
    (hhash : ph.Hashes hash) (login password : String) :
    Represents ph (loginSubmit ph hash users login password).2 accounts := by
  unfold loginSubmit
  cases hfind : users.find? fun user => user.login = strip login with
  | none => exact h
  | some user =>
    have hverified : Represents ph (verifyPassword ph hash users user password).2 accounts := by
      unfold verifyPassword
      split_ifs with hsame hold
      · -- the hash that is stored from now on is of the same password
        have hflush : Represents ph
            (flushUser users user.id fun u => { u with passwordHash := hash password })
            (accounts.changed user.id fun a => a) := by
          refine h.flush user.id (fun _ => rfl) (fun _ => rfl) fun u hu hid a hstands => ?_
          have heq : some u = some user := by
            rw [← find_of_nodup h.ids hu, hid, find_of_nodup h.ids (List.mem_of_find?_eq_some hfind)]
          cases heq
          have hpassword : password = a.password := by
            rw [hstands.password] at hsame
            exact of_decide_eq_true hsame
          exact ⟨hstands.id, hstands.role, hstands.enabled, fun raw => hpassword ▸ hhash _ raw⟩
        rwa [Accounts.changed_id] at hflush
      · exact h
      · exact h
    dsimp only
    split_ifs <;> exact hverified

/-- **A request** does to the table what it does to the accounts. -/
theorem represents_exec (h : Represents ph users accounts) (call : AccessCall)
    (hhash : ph.Hashes call.hash) :
    ∃ id, accounts.Unused id ∧ Represents ph (call.exec ph users) (accounts.after id call) := by
  cases call with
  | setup form newId hash =>
    refine ⟨newId (users.map User.id), h.unused newId, ?_⟩
    have hempty : (∀ login, accounts login = none) ↔ users = [] := by
      constructor
      · intro hnone
        refine List.eq_nil_iff_forall_not_mem.mpr fun user hu => ?_
        exact (h.free_iff user.login).mp (hnone user.login) user hu rfl
      · rintro rfl login
        exact (h.free_iff login).mpr fun user hu => absurd hu List.not_mem_nil
    simp only [AccessCall.exec, Accounts.after, hempty, setupSubmit]
    split_ifs with hnil
    · exact h.create { form with role := "administrator" } newId hhash none
    · exact h
  | login login password hash =>
    exact ⟨freshId (users.map User.id), h.unused freshId, h.afterLogin hhash login password⟩
  | admin cookie call hash =>
    cases cookie with
    | none => exact ⟨freshId (users.map User.id), h.unused freshId, h⟩
    | some actor =>
      simp only [AccessCall.exec, Accounts.after, ← h.guard_iff]
      cases hguard : adminGuard users (some actor) with
      | none => exact ⟨freshId (users.map User.id), h.unused freshId, by simpa using h⟩
      | some user =>
        obtain ⟨hid, hu, -, -⟩ := adminGuard_some hguard
        obtain rfl : actor = user.id := Option.some.inj hid
        obtain ⟨id, hunused, hmanage⟩ : ∃ id, accounts.Unused id ∧
            Represents ph (AdminRequest.write users ⟨some user.id, user, call, hash⟩)
              (accounts.managed user.id id call) := h.manage hu call hhash (some user.id)
        exact ⟨id, hunused, by simpa using hmanage⟩

/-! ## Runs -/

/-- Requests one after another. -/
def accessAll (ph : Hasher) (users : List User) (calls : List AccessCall) : List User :=
  calls.foldl (AccessCall.exec ph) users

theorem represents_all {calls : List AccessCall} (h : Represents ph users accounts)
    (hhash : ∀ call ∈ calls, ph.Hashes call.hash) : ∃ accounts', accounts.Reaches calls accounts' ∧
      Represents ph (accessAll ph users calls) accounts' := by
  induction calls generalizing users accounts with
  | nil => exact ⟨accounts, .done accounts, h⟩
  | cons call calls ih =>
    obtain ⟨hcall, hcalls⟩ := List.forall_mem_cons.mp hhash
    obtain ⟨id, hid, hexec⟩ := represents_exec h call hcall
    obtain ⟨accounts', hreaches, hrun⟩ := ih hexec hcalls
    exact ⟨accounts', .step call id hid hreaches, hrun⟩

/-- Once there is a user, there is an administrator who is let in. -/
theorem administered_exec (hsome : users = [] ∨ Administered users) (call : AccessCall) :
    call.exec ph users = [] ∨ Administered (call.exec ph users) := by
  cases call with
  | setup form newId hash =>
    simp only [AccessCall.exec, setupSubmit]
    rcases hsome with rfl | hsome
    · rw [if_pos rfl]
      unfold createUser
      dsimp only
      split_ifs
      · exact .inl rfl
      · refine .inr ⟨_, List.mem_append_right _ (List.mem_singleton_self _), rfl, ?_⟩
        exact (by decide : strip "administrator" = "administrator")
    · obtain ⟨user, hu, huser⟩ := hsome
      rw [if_neg (List.ne_nil_of_mem hu)]
      exact .inr ⟨user, hu, huser⟩
  | login login password hash =>
    show (loginSubmit ph hash users login password).2 = [] ∨
      Administered (loginSubmit ph hash users login password).2
    unfold loginSubmit
    cases users.find? fun user => user.login = strip login with
    | none => exact hsome
    | some user =>
      have hverified : (verifyPassword ph hash users user password).2 = [] ∨
          Administered (verifyPassword ph hash users user password).2 := by
        unfold verifyPassword
        split_ifs
        · exact hsome.imp (fun hnil => by rw [hnil]; rfl)
            (administered_flushUser fun _ hactive hrole => ⟨hactive, hrole⟩)
        · exact hsome
        · exact hsome
      dsimp only
      split_ifs <;> exact hverified
  | admin cookie call hash =>
    simp only [AccessCall.exec]
    cases hguard : adminGuard users cookie with
    | none => exact hsome
    | some actor =>
      obtain ⟨-, hu, hactive, hrole⟩ := adminGuard_some hguard
      exact .inr (AdminRequest.keeps_administrator (stillAdministrator_of_passes hguard)
        ⟨actor, hu, hactive, hrole⟩)

theorem administered_all (calls : List AccessCall) (hsome : users = [] ∨ Administered users) :
    accessAll ph users calls = [] ∨ Administered (accessAll ph users calls) := by
  induction calls generalizing users with
  | nil => exact hsome
  | cons call calls ih => exact ih (administered_exec hsome call)

/-- **Who can log in**: after any requests to a new installation a login is answered by the accounts
that these requests make of none, the guard lets their enabled administrators through, no two users
have one login, and once there is a user there is such an administrator. -/
theorem login_refines (ph : Hasher) (calls : List AccessCall)
    (hhash : ∀ call ∈ calls, ph.Hashes call.hash) :
    ∃ accounts, Accounts.Reaches (fun _ => none) calls accounts ∧
      (∀ hash login password, (loginSubmit ph hash (accessAll ph [] calls) login password).1 =
        accounts.enter (strip login) password) ∧
      (∀ id, (adminGuard (accessAll ph [] calls) (some id)).isSome ↔ accounts.Administers id) ∧
      ((accessAll ph [] calls).map User.login).Nodup ∧
      (accessAll ph [] calls ≠ [] → ∃ id, accounts.Administers id) := by
  obtain ⟨accounts, hreaches, hrun⟩ := represents_all represents_nil hhash
  refine ⟨accounts, hreaches, hrun.login, hrun.guard_iff, hrun.logins, fun hne => ?_⟩
  obtain ⟨user, hu, hactive, hrole⟩ := (administered_all calls (.inl rfl)).resolve_left hne
  obtain ⟨a, ha, hstands⟩ := hrun.account hu
  refine ⟨user.id, hrun.named user hu, user.login, a, ha, hstands.id, ?_, hstands.role.trans hrole⟩
  rw [hstands.enabled, decide_eq_true hactive]

/-- A hasher that keeps the password as it is. -/
def plainHasher : Hasher where
  verify stored raw := stored = raw
  needsRehash _ := false

/-- The first user, and a login. -/
def firstLogin : List AccessCall :=
  [.setup ⟨"Анна", "anna", "", "secret"⟩ freshId id, .login "anna" "secret" id]

theorem login_refines_first : ∃ accounts, Accounts.Reaches (fun _ => none) firstLogin accounts ∧
    accounts.enter "anna" "secret" = .inside "x" ∧ accounts.enter "anna" "other" = .badCredentials := by
  have hhash : ∀ call ∈ firstLogin, plainHasher.Hashes call.hash := by
    refine List.forall_mem_cons.mpr ⟨fun raw raw' => ?_, List.forall_mem_singleton.mpr fun raw raw' => ?_⟩ <;>
      exact decide_eq_decide.mpr eq_comm
  obtain ⟨accounts, hreaches, hlogin, -⟩ := login_refines plainHasher firstLogin hhash
  refine ⟨accounts, hreaches, ?_, ?_⟩
  · exact (hlogin id "anna" "secret").symm.trans (by decide)
  · exact (hlogin id "anna" "other").symm.trans (by decide)

end MyOriShop
