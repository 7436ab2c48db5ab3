import Mathlib.Data.List.Sort
import MpvmApp.Lib.Table
import MpvmApp.Sql.Text

/-!
# Users, roles and administrators

The rows of users, of roles and of the roles that users have, with the changes that a request to
update a user makes, and the deletion of a user.  The rows of sessions and of access tokens are
there because both operations reach them.  An active administrator is an active user with the role
`admin`.

Main definitions:

- Definition `removesAdmin`: whether an update takes the rights of an administrator away.
- Definition `applyUpdate`: what the statements of an accepted update write.
- Definition `removeUser`: the deletion of a user, with what depends on it.

Main results:

- Theorem `exists_other_of_one_lt_adminCount`: when more than one administrator is counted,
  there is another one.
- Theorem `Updated.hasAdminRole_of_ne`: an update leaves the roles of all others as they were.
- Theorem `Updated.isActiveAdmin`: an update that does not take the rights away leaves an
  active administrator one.
-/

namespace MpvmApp
namespace Auth

/-- A point in time in microseconds. -/
abbrev Instant := Int

/-! ## Rows -/

/-- A row of `app_roles`. -/
structure RoleRow where
  id : Int
  roleKey : Option String
  name : String
deriving DecidableEq

/-- The table `app_roles`: its ids and its keys are unique, and a key may be null. -/
structure Roles where
  rows : List RoleRow
  idNodup : (rows.map RoleRow.id).Nodup
  keyNodup : (rows.filterMap RoleRow.roleKey).Nodup

/-- The role under an id. -/
def Roles.find? (roles : Roles) (id : Int) : Option RoleRow :=
  roles.rows.find? fun row => decide (row.id = id)

/-- `SELECT id FROM app_roles WHERE role_key=…`. -/
def Roles.byKey (roles : Roles) (key : String) : Option Int :=
  (roles.rows.find? fun row => decide (row.roleKey = some key)).map RoleRow.id

/-- The key of the role of administrators. -/
def adminKey : String :=
  "admin"

/-- The role under an id is the one of administrators. -/
def Roles.isAdminRole (roles : Roles) (id : Int) : Bool :=
  (roles.find? id).any fun row => decide (row.roleKey = some adminKey)

/-- A row of `app_users`. -/
structure UserRow where
  id : Int
  username : String
  displayName : String
  passwordHash : String
  isActive : Bool
  createdAt : Instant
  updatedAt : Instant
  lastLoginAt : Option Instant
deriving DecidableEq

/-- The table `app_user_roles`: its primary key is the pair of the user and the role. -/
structure UserRoles where
  rows : List (Int × Int)
  nodup : rows.Nodup

/-- A row of `app_auth_sessions`. -/
structure SessionRow where
  id : String
  userId : Int
  tokenHash : String
  createdAt : Instant
  expiresAt : Instant
  lastSeenAt : Instant
  revokedAt : Option Instant
  mcpTokenId : Option Int
  permissionCap : Option (List String)
deriving DecidableEq

/-- A row of `app_mcp_tokens`. -/
structure TokenRow where
  id : Int
  publicId : String
  ownerUserId : Int
  secretHash : String
  scopes : List String
  ipAllowlist : List String
  expiresAt : Instant
  revokedAt : Option Instant
  revokedByUsername : Option String
deriving DecidableEq

/-- The rows that these operations read and write. -/
structure Database where
  users : Table UserRow UserRow.id UserRow.username
  roles : Roles
  userRoles : UserRoles
  sessions : Table SessionRow SessionRow.id SessionRow.tokenHash
  tokens : Table TokenRow TokenRow.id TokenRow.publicId

/-- `_roles_for_user`: the roles that the user has. -/
def rolesForUser (db : Database) (userId : Int) : List RoleRow :=
  db.userRoles.rows.filterMap fun grant =>
    if grant.1 = userId then db.roles.find? grant.2 else none

/-- The user has the role of administrators. -/
def hasAdminRole (db : Database) (userId : Int) : Bool :=
  (rolesForUser db userId).any fun row => decide (row.roleKey = some adminKey)

/-- The user is stored and active. -/
def isActiveUser (db : Database) (userId : Int) : Bool :=
  (db.users.find? userId).any UserRow.isActive

/-- The user is an active administrator. -/
def isActiveAdmin (db : Database) (userId : Int) : Bool :=
  isActiveUser db userId && hasAdminRole db userId

/-- The rows of the join that the administrators are counted in. -/
def adminGrants (db : Database) : List (Int × Int) :=
  db.userRoles.rows.filter fun grant =>
    isActiveUser db grant.1 && db.roles.isAdminRole grant.2

/-- `COUNT(DISTINCT ur.user_id)` over the active users with the role of administrators. -/
def adminCount (db : Database) : Nat :=
  (fromKeys ((adminGrants db).map Prod.fst)).length

/-- The ids of the active administrators in the order of `ORDER BY u.id`. -/
def adminIds (db : Database) : List Int :=
  ((adminGrants db).map Prod.fst).insertionSort (· ≤ ·)

theorem hasAdminRole_iff {db : Database} {userId : Int} :
    hasAdminRole db userId = true ↔
      ∃ grant ∈ db.userRoles.rows, grant.1 = userId ∧ db.roles.isAdminRole grant.2 = true := by
  unfold hasAdminRole rolesForUser Roles.isAdminRole
  rw [List.any_eq_true]
  constructor
  · rintro ⟨row, hrow, hkey⟩
    obtain ⟨grant, hgrant, hrole⟩ := List.mem_filterMap.1 hrow
    split_ifs at hrole with huser
    exact ⟨grant, hgrant, huser, by rw [hrole]; exact hkey⟩
  · rintro ⟨grant, hgrant, huser, hadmin⟩
    cases hrole : db.roles.find? grant.2 with
    | none =>
        rw [hrole] at hadmin
        cases hadmin
    | some row =>
        rw [hrole] at hadmin
        exact ⟨row, List.mem_filterMap.2 ⟨grant, hgrant, by rw [if_pos huser, hrole]⟩, hadmin⟩

theorem mem_map_adminGrants {db : Database} {userId : Int} :
    userId ∈ (adminGrants db).map Prod.fst ↔ isActiveAdmin db userId = true := by
  rw [isActiveAdmin, Bool.and_eq_true, hasAdminRole_iff, List.mem_map]
  constructor
  · rintro ⟨grant, hgrant, rfl⟩
    obtain ⟨hmem, hrow⟩ := List.mem_filter.1 hgrant
    rw [Bool.and_eq_true] at hrow
    exact ⟨hrow.1, grant, hmem, rfl, hrow.2⟩
  · rintro ⟨hactive, grant, hmem, rfl, hadmin⟩
    exact ⟨grant, List.mem_filter.2 ⟨hmem, by rw [hactive, hadmin]; rfl⟩, rfl⟩

@[simp]
theorem mem_adminIds {db : Database} {userId : Int} :
    userId ∈ adminIds db ↔ isActiveAdmin db userId = true := by
  rw [adminIds, List.mem_insertionSort, mem_map_adminGrants]

theorem exists_ne_of_one_lt_length {α : Type*} [DecidableEq α] {l : List α} (h : l.Nodup)
    (hlen : 1 < l.length) (a : α) :
    ∃ b ∈ l, b ≠ a := by
  by_contra hall
  push Not at hall
  have hsub : l ⊆ [a] := fun b hb => List.mem_singleton.2 (hall b hb)
  have hle := (List.subperm_of_subset h hsub).length_le
  rw [List.length_singleton] at hle
  omega

/-- When more than one administrator is counted, there is another one. -/
theorem exists_other_of_one_lt_adminCount {db : Database} (h : 1 < adminCount db)
    (userId : Int) :
    ∃ other, other ≠ userId ∧ isActiveAdmin db other = true := by
  obtain ⟨other, hmem, hne⟩ := exists_ne_of_one_lt_length (nodup_fromKeys _) h userId
  exact ⟨other, hne, mem_map_adminGrants.1 (mem_fromKeys.1 hmem)⟩

/-- Rows with one key are one row when the keys are distinct. -/
theorem eq_of_nodup_filterMap {α β : Type*} {f : α → Option β} {l : List α}
    (h : (l.filterMap f).Nodup) {a b : α} (ha : a ∈ l) (hb : b ∈ l) {key : β}
    (hfa : f a = some key) (hfb : f b = some key) :
    a = b := by
  induction l with
  | nil => cases ha
  | cons c l ih =>
      cases hc : f c with
      | none =>
          rw [List.filterMap_cons_none hc] at h
          have ha' : a ∈ l := (List.mem_cons.1 ha).resolve_left fun he => by
            rw [he, hc] at hfa
            cases hfa
          have hb' : b ∈ l := (List.mem_cons.1 hb).resolve_left fun he => by
            rw [he, hc] at hfb
            cases hfb
          exact ih h ha' hb'
      | some key' =>
          rw [List.filterMap_cons_some hc, List.nodup_cons] at h
          have hfree : ∀ d ∈ l, f d ≠ some key' := fun d hd hfd =>
            h.1 (List.mem_filterMap.2 ⟨d, hd, hfd⟩)
          rcases List.mem_cons.1 ha with rfl | ha'
          · rcases List.mem_cons.1 hb with rfl | hb'
            · rfl
            · exact absurd (hfb.trans (hfa.symm.trans hc)) (hfree b hb')
          · rcases List.mem_cons.1 hb with rfl | hb'
            · exact absurd (hfa.trans (hfb.symm.trans hc)) (hfree a ha')
            · exact ih h.2 ha' hb'

theorem Roles.mem_of_find? {roles : Roles} {id : Int} {row : RoleRow}
    (h : roles.find? id = some row) :
    row ∈ roles.rows ∧ row.id = id :=
  ⟨List.mem_of_find?_eq_some h, by simpa [Roles.find?] using List.find?_some h⟩

theorem Roles.find?_of_mem {roles : Roles} {row : RoleRow} (h : row ∈ roles.rows) :
    roles.find? row.id = some row := by
  cases hfind : roles.find? row.id with
  | none =>
      have hnone := List.find?_eq_none.1 hfind row h
      simp at hnone
  | some row' =>
      obtain ⟨hmem, hid⟩ := Roles.mem_of_find? hfind
      rw [List.inj_on_of_nodup_map roles.idNodup hmem h hid]

theorem Roles.eq_of_isAdminRole {roles : Roles} {a b : Int} (ha : roles.isAdminRole a = true)
    (hb : roles.isAdminRole b = true) :
    a = b := by
  obtain ⟨row, hrow, hkey⟩ := (Option.any_eq_true _ _).1 ha
  obtain ⟨row', hrow', hkey'⟩ := (Option.any_eq_true _ _).1 hb
  have hsame : row = row' := eq_of_nodup_filterMap roles.keyNodup
    (Roles.mem_of_find? hrow).1 (Roles.mem_of_find? hrow').1
    (of_decide_eq_true hkey) (of_decide_eq_true hkey')
  rw [← (Roles.mem_of_find? hrow).2, ← (Roles.mem_of_find? hrow').2, hsame]

theorem nodup_adminIds (db : Database) :
    (adminIds db).Nodup := by
  have hnodup : ((adminGrants db).map Prod.fst).Nodup := by
    refine List.Nodup.map_on ?_ (db.userRoles.nodup.filter _)
    rintro ⟨u, a⟩ ha ⟨u', b⟩ hb hu
    obtain ⟨_, ha'⟩ := List.mem_filter.1 ha
    obtain ⟨_, hb'⟩ := List.mem_filter.1 hb
    rw [Bool.and_eq_true] at ha' hb'
    exact Prod.ext hu (Roles.eq_of_isAdminRole ha'.2 hb'.2)
  exact (List.perm_insertionSort _ _).nodup_iff.2 hnodup

/-! ## Requests -/

/-- What the two operations answer instead of a user. -/
inductive UserError where
  | selfDisable
  | selfDemote
  | selfDelete
  | userNotFound
  | invalidRoles
  | lastAdmin
  | unhandled
deriving DecidableEq, Repr

/-- The status of the response. -/
def UserError.status : UserError → Nat
  | .userNotFound => 404
  | .invalidRoles => 422
  | .unhandled => 500
  | _ => 409

/-- The code and the message in the response; an exception that is not handled has none. -/
def UserError.detail : UserError → Option (String × String)
  | .selfDisable => some ("SELF_DISABLE", "Нельзя отключить себя.")
  | .selfDemote => some ("SELF_DEMOTE", "Нельзя снять с себя роль администратора.")
  | .selfDelete => some ("SELF_DELETE", "Нельзя удалить свою учётную запись.")
  | .userNotFound => some ("USER_NOT_FOUND", "Пользователь не найден.")
  | .invalidRoles => some ("INVALID_ROLES", "Одна или несколько ролей не найдены.")
  | .lastAdmin => some ("LAST_ADMIN", "Должен остаться активный администратор.")
  | .unhandled => none

/--
`UserUpdateRequest`.  A field that is not set is `none`, and one that is null
`some none`; the two fields of roles are read alike in both cases.
-/
structure UserUpdateRequest where
  displayName : Option (Option String)
  password : Option (Option String)
  roleIds : Option (List Int)
  role : Option String
  isActive : Option (Option Bool)
deriving DecidableEq

namespace UserUpdateRequest

/-- `changes.get("is_active") is False`. -/
def deactivates (p : UserUpdateRequest) : Bool :=
  decide (p.isActive = some (some false))

/-- Nothing is left in `changes` once the roles are taken out of it. -/
def unchanged (p : UserUpdateRequest) : Bool :=
  p.displayName.isNone && p.password.isNone && p.isActive.isNone

/-- A field is null: the hash of the password and the columns of the row are not nullable. -/
def hasNull (p : UserUpdateRequest) : Bool :=
  decide (p.displayName = some none) || decide (p.password = some none) ||
    decide (p.isActive = some none)

/-- The existing sessions of the user end. -/
def revokesSessions (p : UserUpdateRequest) : Bool :=
  p.deactivates || p.password.isSome

end UserUpdateRequest

/-- `_resolve_role_ids`. -/
def resolveRoleIds (roles : Roles) (roleIds : List Int) (legacyRole : Option String) :
    Except UserError (List Int) :=
  let roleIds := match Sql.orNone legacyRole with
    | some key => (roles.byKey key).toList
    | none => roleIds
  let ids := roleIds.dedup.insertionSort (· ≤ ·)
  let found := roles.rows.filter fun row => decide (row.id ∈ ids)
  if found.length ≠ ids.length then .error .invalidRoles else .ok ids

/-- The roles that an update asks for; `none` when it leaves them alone. -/
def requestedRoles (roles : Roles) (p : UserUpdateRequest) :
    Except UserError (Option (List Int)) :=
  if p.roleIds.isSome || (Sql.orNone p.role).isSome then
    (resolveRoleIds roles (p.roleIds.getD []) p.role).map some
  else
    .ok none

/-- The requested roles have the one of administrators. -/
def grantsAdmin (roles : Roles) (ids : List Int) : Bool :=
  roles.rows.any fun row => decide (row.id ∈ ids) && decide (row.roleKey = some adminKey)

/-- The update keeps the role of administrators for a user who has it. -/
def keepsAdminRole (roles : Roles) (requested : Option (List Int)) : Bool :=
  requested.all (grantsAdmin roles)

/-- `removes_admin`. -/
def removesAdmin (db : Database) (userId : Int) (p : UserUpdateRequest)
    (requested : Option (List Int)) : Bool :=
  hasAdminRole db userId && (p.deactivates || !keepsAdminRole db.roles requested)

/-! ## Writes -/

/-- `_replace_user_roles`; `none` is a role that is given twice. -/
def UserRoles.replace (grants : UserRoles) (userId : Int) (ids : List Int) : Option UserRoles :=
  if h : ids.Nodup then
    some {
      rows := (grants.rows.filter fun grant => decide (grant.1 ≠ userId)) ++
        ids.map fun id => (userId, id)
      nodup := by
        refine (grants.nodup.filter _).append (h.map (Prod.mk_right_injective userId)) ?_
        intro grant hold hnew
        obtain ⟨id, _, rfl⟩ := List.mem_map.1 hnew
        exact absurd rfl (of_decide_eq_true (List.mem_filter.1 hold).2) }
  else
    none

/-- The row of the user after `UPDATE app_users`. -/
def changedUser (hash : String → String) (now : Instant) (p : UserUpdateRequest) (row : UserRow) :
    UserRow :=
  { row with
    displayName := p.displayName.join.getD row.displayName
    passwordHash := (p.password.join.map hash).getD row.passwordHash
    isActive := p.isActive.join.getD row.isActive
    updatedAt := now }

/-- The sessions after `revoked_at` is set in those of the user that have none. -/
def revokeSessions (db : Database) (userId : Int) (now : Instant) :
    Table SessionRow SessionRow.id SessionRow.tokenHash :=
  db.sessions.mapRows
    (fun row => if row.userId = userId ∧ row.revokedAt = none then
      { row with revokedAt := some now } else row)
    (fun row => by split_ifs <;> rfl) (fun row => by split_ifs <;> rfl)

/-- The rows of users after an update: without changes there is no statement. -/
def updateUsers (hash : String → String) (now : Instant) (db : Database) (userId : Int)
    (p : UserUpdateRequest) : Table UserRow UserRow.id UserRow.username :=
  if p.unchanged then db.users
  else db.users.mapRows
    (fun row => if row.id = userId then changedUser hash now p row else row)
    (fun row => by split_ifs <;> rfl) (fun row => by split_ifs <;> rfl)

/-- The roles of users after an update. -/
def updateUserRoles (db : Database) (userId : Int) : Option (List Int) → Option UserRoles
  | none => some db.userRoles
  | some ids => db.userRoles.replace userId ids

/--
The statements of `update_user` after its checks; `none` is an exception, after which
nothing is stored.
-/
def applyUpdate (hash : String → String) (now : Instant) (db : Database) (userId : Int)
    (p : UserUpdateRequest) (requested : Option (List Int)) : Option Database :=
  if p.hasNull then none
  else (updateUserRoles db userId requested).map fun userRoles =>
    { db with
      users := updateUsers hash now db userId p
      userRoles
      sessions := if p.revokesSessions then revokeSessions db userId now else db.sessions }

/-- `DELETE FROM app_users`, with the rows that refer to the user. -/
def removeUser (db : Database) (userId : Int) : Database :=
  let tokens := db.tokens.filterRows fun row => decide (row.ownerUserId ≠ userId)
  { db with
    users := db.users.filterRows fun row => decide (row.id ≠ userId)
    userRoles := {
      rows := db.userRoles.rows.filter fun grant => decide (grant.1 ≠ userId)
      nodup := db.userRoles.nodup.filter _ }
    sessions := db.sessions.filterRows fun row => decide (row.userId ≠ userId) &&
      row.mcpTokenId.all fun tokenId => (tokens.find? tokenId).isSome
    tokens }

/-! ## What the writes do to administrators -/

theorem UserUpdateRequest.isActive_changedUser {hash : String → String} {now : Instant}
    (p : UserUpdateRequest) (hnull : p.hasNull = false) (hkeeps : p.deactivates = false)
    {row : UserRow} (hactive : row.isActive = true) :
    (changedUser hash now p row).isActive = true := by
  unfold changedUser
  simp only [hasNull, deactivates, Bool.or_eq_false_iff, decide_eq_false_iff_not] at hnull hkeeps
  rcases h : p.isActive with _ | _ | _ | _
  · exact hactive
  · exact absurd h hnull.2
  · exact absurd h hkeeps
  · rfl

theorem isActiveUser_of_find? {db : Database} {userId : Int} (h : isActiveUser db userId = true) :
    ∃ row, db.users.find? userId = some row ∧ row.isActive = true :=
  (Option.any_eq_true _ _).1 h

theorem isActiveUser_of_isActiveAdmin {db : Database} {userId : Int}
    (h : isActiveAdmin db userId = true) :
    isActiveUser db userId = true :=
  (Bool.and_eq_true _ _ ▸ h).1

theorem hasAdminRole_of_isActiveAdmin {db : Database} {userId : Int}
    (h : isActiveAdmin db userId = true) :
    hasAdminRole db userId = true :=
  (Bool.and_eq_true _ _ ▸ h).2

theorem hasAdminRole_congr {db db' : Database} {userId : Int} (hroles : db'.roles = db.roles)
    (hgrants : ∀ grant, grant.1 = userId →
      (grant ∈ db'.userRoles.rows ↔ grant ∈ db.userRoles.rows)) :
    hasAdminRole db' userId = hasAdminRole db userId := by
  rw [Bool.eq_iff_iff, hasAdminRole_iff, hasAdminRole_iff, hroles]
  constructor
  · rintro ⟨grant, hgrant, huser, hadmin⟩
    exact ⟨grant, (hgrants grant huser).1 hgrant, huser, hadmin⟩
  · rintro ⟨grant, hgrant, huser, hadmin⟩
    exact ⟨grant, (hgrants grant huser).2 hgrant, huser, hadmin⟩

section Update

variable {hash : String → String} {now : Instant} {db db' : Database} {userId : Int}
  {p : UserUpdateRequest} {requested : Option (List Int)}

/-- What an accepted update leaves in the tables of users and of their roles. -/
structure Updated (hash : String → String) (now : Instant) (db : Database) (userId : Int)
    (p : UserUpdateRequest) (requested : Option (List Int)) (db' : Database) : Prop where
  noNull : p.hasNull = false
  roles : db'.roles = db.roles
  tokens : db'.tokens = db.tokens
  sessions : db'.sessions = if p.revokesSessions then revokeSessions db userId now else db.sessions
  users : ∀ u, db'.users.find? u = (db.users.find? u).map fun row =>
    if row.id = userId ∧ p.unchanged = false then changedUser hash now p row else row
  grants : ∀ grant, grant ∈ db'.userRoles.rows ↔
    match requested with
    | none => grant ∈ db.userRoles.rows
    | some ids => grant ∈ db.userRoles.rows ∧ grant.1 ≠ userId ∨
        grant.1 = userId ∧ grant.2 ∈ ids

theorem mem_replace {grants grants' : UserRoles} {ids : List Int}
    (h : grants.replace userId ids = some grants') (grant : Int × Int) :
    grant ∈ grants'.rows ↔
      grant ∈ grants.rows ∧ grant.1 ≠ userId ∨ grant.1 = userId ∧ grant.2 ∈ ids := by
  unfold UserRoles.replace at h
  split_ifs at h
  cases h
  simp only [List.mem_append, List.mem_filter, List.mem_map, decide_eq_true_eq]
  refine or_congr_right ⟨?_, ?_⟩
  · rintro ⟨id, hid, rfl⟩
    exact ⟨rfl, hid⟩
  · rintro ⟨rfl, hid⟩
    exact ⟨grant.2, hid, rfl⟩

theorem find?_updateUsers (u : Int) :
    (updateUsers hash now db userId p).find? u = (db.users.find? u).map fun row =>
      if row.id = userId ∧ p.unchanged = false then changedUser hash now p row else row := by
  unfold updateUsers
  split_ifs with hsame
  · simp [hsame]
  · simp [hsame]

theorem updated_of_applyUpdate (h : applyUpdate hash now db userId p requested = some db') :
    Updated hash now db userId p requested db' := by
  unfold applyUpdate at h
  by_cases hnull : p.hasNull = true
  · rw [if_pos hnull] at h
    cases h
  rw [if_neg hnull] at h
  obtain ⟨userRoles, hgrants, rfl⟩ := Option.map_eq_some_iff.1 h
  refine
    { noNull := by simpa using hnull
      roles := rfl
      tokens := rfl
      sessions := rfl
      users := find?_updateUsers
      grants := fun grant => ?_ }
  cases requested with
  | none =>
      cases hgrants
      exact Iff.rfl
  | some ids => exact mem_replace hgrants grant

theorem Updated.find? (h : Updated hash now db userId p requested db') {u : Int}
    (hu : u ≠ userId) :
    db'.users.find? u = db.users.find? u := by
  rw [h.users]
  cases hrow : db.users.find? u with
  | none => rfl
  | some row =>
      have hne : row.id ≠ userId := by rwa [Table.pk_of_find? hrow]
      simp [hne]

theorem Updated.find?_isSome (h : Updated hash now db userId p requested db') (u : Int) :
    (db'.users.find? u).isSome = (db.users.find? u).isSome := by
  rw [h.users, Option.isSome_map]

/-- An update leaves the roles of all others. -/
theorem Updated.hasAdminRole_of_ne (h : Updated hash now db userId p requested db') {u : Int}
    (hu : u ≠ userId) :
    hasAdminRole db' u = hasAdminRole db u := by
  refine hasAdminRole_congr h.roles ?_
  rintro grant rfl
  rw [h.grants]
  cases requested with
  | none => exact Iff.rfl
  | some ids => simp [hu]

theorem Updated.hasAdminRole (h : Updated hash now db userId p requested db')
    (hkeeps : keepsAdminRole db.roles requested = true)
    (hadmin : Auth.hasAdminRole db userId = true) :
    Auth.hasAdminRole db' userId = true := by
  cases requested with
  | none =>
      rw [hasAdminRole_congr h.roles fun grant _ => h.grants grant]
      exact hadmin
  | some ids =>
      obtain ⟨row, hrow, hkey⟩ := List.any_eq_true.1 hkeeps
      rw [Bool.and_eq_true, decide_eq_true_eq] at hkey
      refine hasAdminRole_iff.2 ⟨(userId, row.id), (h.grants _).2 (.inr ⟨rfl, hkey.1⟩), rfl, ?_⟩
      rw [h.roles]
      exact (Option.any_eq_true _ _).2 ⟨row, Roles.find?_of_mem hrow, hkey.2⟩

/-- An update that does not take the rights away leaves an active administrator one. -/
theorem Updated.isActiveAdmin (h : Updated hash now db userId p requested db')
    (hkeeps : removesAdmin db userId p requested = false)
    (hadmin : Auth.isActiveAdmin db userId = true) :
    Auth.isActiveAdmin db' userId = true := by
  have hrole := hasAdminRole_of_isActiveAdmin hadmin
  obtain ⟨row, hrow, hactive⟩ := isActiveUser_of_find? (isActiveUser_of_isActiveAdmin hadmin)
  rw [removesAdmin, hrole, Bool.true_and, Bool.or_eq_false_iff, Bool.not_eq_false'] at hkeeps
  have hstill : isActiveUser db' userId = true := by
    rw [isActiveUser, h.users, hrow, Option.map_some, Option.any_some]
    split_ifs
    · exact p.isActive_changedUser h.noNull hkeeps.1 hactive
    · exact hactive
  rw [Auth.isActiveAdmin, hstill, h.hasAdminRole hkeeps.2 hrole]
  rfl

end Update

/-! ## Deletion -/

section Removal

variable {db : Database} {userId u : Int}

theorem find?_removeUser (u : Int) :
    (removeUser db userId).users.find? u = if u = userId then none else db.users.find? u := by
  ext row
  rw [Table.find?_eq_some_iff]
  simp only [removeUser, Table.mem_filterRows, decide_eq_true_eq]
  split_ifs with hu
  · constructor
    · rintro ⟨⟨_, hne⟩, hrow⟩
      exact absurd (hrow.trans hu) hne
    · rintro ⟨⟩
  · rw [Table.find?_eq_some_iff]
    constructor
    · rintro ⟨⟨hmem, _⟩, hrow⟩
      exact ⟨hmem, hrow⟩
    · rintro ⟨hmem, rfl⟩
      exact ⟨⟨hmem, hu⟩, rfl⟩

theorem hasAdminRole_removeUser (hu : u ≠ userId) :
    hasAdminRole (removeUser db userId) u = hasAdminRole db u := by
  refine hasAdminRole_congr rfl fun grant hgrant => ?_
  subst hgrant
  simp [removeUser, hu]

end Removal

end Auth
end MpvmApp
