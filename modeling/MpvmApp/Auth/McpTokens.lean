import MpvmApp.Auth.Credentials

/-!
# Access tokens

A user has access tokens, each with the scopes that it was created for, a time at which it expires
and perhaps one at which it was revoked.  A token is issued in a transaction that has the row of
its owner locked; one that replaces a token has the row of that token locked as well.  A request
comes with a session: the session, its user and its token are read, and then the permissions of
the user, of which a session of a token has only those that it was capped to.

Every statement of a transaction that issues a token, and every statement of a request, is one
step; the writes of a transaction become visible with its last step.

Main definitions:

- Definition `Issue.advance`: the next statement of `create_token` or
  `rotate_token`.
- Definition `Request.advance`: the next statement of `get_session_user`.
- Definition `step`: one step of the system.
-/

namespace MpvmApp
namespace Auth
namespace McpTokens

/-! ## Errors and checks -/

/-- What the operations on tokens answer instead of a token. -/
inductive TokenError where
  | invalidScopes (unknown : List String)
  | invalidIpAllowlist (value : String)
  | userNotFound
  | ownerInactive
  | tokenLimit
  | tokenNotFound
  | tokenRevoked
  | tokenNotActive
  | unhandled
deriving DecidableEq, Repr

/-- The status of the response. -/
def TokenError.status : TokenError → Nat
  | .invalidScopes _ | .invalidIpAllowlist _ => 422
  | .userNotFound | .tokenNotFound => 404
  | .unhandled => 500
  | _ => 409

/-- `MAX_ACTIVE_TOKENS_PER_OWNER`. -/
def maxActiveTokensPerOwner : Nat :=
  20

/-- The code and the message in the response; an exception that is not handled has none. -/
def TokenError.detail : TokenError → Option (String × String)
  | .invalidScopes unknown =>
      some ("INVALID_SCOPES", "Неизвестные области доступа: " ++ ", ".intercalate unknown ++ ".")
  | .invalidIpAllowlist value =>
      some ("INVALID_IP_ALLOWLIST", "Некорректный адрес или сеть: " ++ value ++ ".")
  | .userNotFound => some ("USER_NOT_FOUND", "Пользователь не найден.")
  | .ownerInactive => some ("OWNER_INACTIVE", "Владелец токена отключён.")
  | .tokenLimit =>
      some ("TOKEN_LIMIT",
        s!"У владельца уже {maxActiveTokensPerOwner} действующих токенов: отзовите ненужные.")
  | .tokenNotFound => some ("TOKEN_NOT_FOUND", "Токен не найден.")
  | .tokenRevoked => some ("TOKEN_REVOKED", "Токен уже отозван.")
  | .tokenNotActive => some ("TOKEN_NOT_ACTIVE", "Заменить можно только действующий токен.")
  | .unhandled => none

/-- `sorted(set(…))`. -/
def sortedSet (values : List String) : List String :=
  values.dedup.insertionSort (· ≤ ·)

/-- `validate_scopes`. -/
def validateScopes (scopes : List String) : Except TokenError (List String) :=
  let unknown := sortedSet (scopes.filter fun scope => decide (scope ∉ mcpScopes.map Prod.fst))
  if unknown = [] then .ok (sortedSet scopes) else .error (.invalidScopes unknown)

/-- `validate_ip_allowlist`; `ipNetwork` is the network that a text is read as. -/
def validateIpAllowlist (ipNetwork : String → Option String) (values : List String) :
    Except TokenError (List String) :=
  match values.find? fun value => (ipNetwork (Sql.strip value)).isNone with
  | some value => .error (.invalidIpAllowlist value)
  | none => .ok (sortedSet (values.filterMap fun value => ipNetwork (Sql.strip value)))

/-- `_status`. -/
inductive TokenStatus where
  | revoked
  | expired
  | active
deriving DecidableEq, Repr

/-- `_status` of a token at a time. -/
def statusAt (token : TokenRow) (now : Instant) : TokenStatus :=
  if token.revokedAt.isSome then .revoked
  else if token.expiresAt ≤ now then .expired
  else .active

/-! ## Rows -/

/-- One day. -/
def day : Instant :=
  24 * (60 * minute)

/-- A token is counted as active by `count_active`. -/
def isActive (ownerUserId : Int) (now : Instant) (token : TokenRow) : Bool :=
  decide (token.ownerUserId = ownerUserId) && token.revokedAt.isNone &&
    decide (now < token.expiresAt)

/-- `count_active`. -/
def countActive (db : Database) (ownerUserId : Int) (now : Instant) : Nat :=
  db.tokens.rows.countP (isActive ownerUserId now)

/-- `revoke`: the token, if it has not been revoked, and the sessions that it has opened. -/
def revoke (db : Database) (tokenId : Int) (byUsername : Option String) (now : Instant) :
    Database :=
  { db with
    tokens := db.tokens.mapRows
      (fun token => if token.id = tokenId ∧ token.revokedAt = none then
        { token with revokedAt := some now, revokedByUsername := byUsername } else token)
      (fun token => by split_ifs <;> rfl) (fun token => by split_ifs <;> rfl)
    sessions := db.sessions.mapRows
      (fun row => if row.mcpTokenId = some tokenId ∧ row.revokedAt = none then
        { row with revokedAt := some now } else row)
      (fun row => by split_ifs <;> rfl) (fun row => by split_ifs <;> rfl) }

/-- `limit_expiry`: an expiry is moved earlier, and with it those of the sessions. -/
def limitExpiry (db : Database) (tokenId : Int) (expiresAt : Instant) : Database :=
  { db with
    tokens := db.tokens.mapRows
      (fun token => if token.id = tokenId then
        { token with expiresAt := min token.expiresAt expiresAt } else token)
      (fun token => by split_ifs <;> rfl) (fun token => by split_ifs <;> rfl)
    sessions := db.sessions.mapRows
      (fun row => if row.mcpTokenId = some tokenId then
        { row with expiresAt := min row.expiresAt expiresAt } else row)
      (fun row => by split_ifs <;> rfl) (fun row => by split_ifs <;> rfl) }

/-- `revoke_token`. -/
def revokeToken (db : Database) (now : Instant) (tokenId : Int) (byUsername : Option String) :
    Except TokenError Database :=
  match db.tokens.find? tokenId with
  | none => .error .tokenNotFound
  | some token =>
      if token.revokedAt.isNone then .ok (revoke db tokenId byUsername now)
      else .error .tokenRevoked

/-! ## Issuing a token -/

/-- What `_issue` is asked for. -/
structure IssueRequest where
  ownerUserId : Int
  scopes : List String
  ipAllowlist : List String
  expiresInDays : Int
deriving DecidableEq

/-- The token that is replaced, the time at which this was asked for, and the grace. -/
structure Rotation where
  tokenId : Int
  byUsername : Option String
  now : Instant
  graceHours : Int
deriving DecidableEq

/--
How far a transaction that issues a token is: the replaced token is locked, then the owner, then
the active tokens are counted.
-/
inductive Issue where
  | rotating (rotation : Rotation) (expiresInDays : Int)
  | issuing (request : IssueRequest) (rotation : Option Rotation)
  | locked (request : IssueRequest) (rotation : Option Rotation)
  | counted (request : IssueRequest) (rotation : Option Rotation)
  | ended (result : Except TokenError Int)

namespace Issue

/-- The rows of tokens that the transaction has locked. -/
def tokenLocks : Issue → List Int
  | .issuing _ (some rotation) | .locked _ (some rotation) | .counted _ (some rotation) =>
      [rotation.tokenId]
  | _ => []

/-- The rows of users that the transaction has locked. -/
def ownerLocks : Issue → List Int
  | .locked request _ | .counted request _ => [request.ownerUserId]
  | _ => []

end Issue

/-- `create_token` up to its transaction. -/
def createToken (ipNetwork : String → Option String) (ownerUserId : Int)
    (scopes ipAllowlist : List String) (expiresInDays : Int) : Issue :=
  match validateScopes scopes with
  | .error e => .ended (.error e)
  | .ok scopes =>
      match validateIpAllowlist ipNetwork ipAllowlist with
      | .error e => .ended (.error e)
      | .ok ipAllowlist => .issuing { ownerUserId, scopes, ipAllowlist, expiresInDays } none

/-- The row that `_issue` inserts. -/
def newToken (env : Environment) (now : Instant) (request : IssueRequest) (id : Int)
    (publicId secret : String) : TokenRow where
  id := id
  publicId := publicId
  ownerUserId := request.ownerUserId
  secretHash := env.sha256 secret
  scopes := request.scopes
  ipAllowlist := request.ipAllowlist
  expiresAt := now + request.expiresInDays * day
  revokedAt := none
  revokedByUsername := none

/-- The old token after it has been replaced: it is revoked, or works for the grace. -/
def retire (db : Database) : Option Rotation → Database
  | none => db
  | some rotation =>
      if rotation.graceHours ≤ 0 then revoke db rotation.tokenId rotation.byUsername rotation.now
      else limitExpiry db rotation.tokenId (rotation.now + rotation.graceHours * (60 * minute))

/--
The next statement of a transaction that issues a token; a row that another one has locked is
waited for.  `newId` is the next id of the table, and the public id and the secret are drawn.
-/
def Issue.advance (env : Environment) (now : Instant) (tokenHeld ownerHeld : Int → Bool)
    (newId : Int) (publicId secret : String) (db : Database) : Issue → Issue × Database
  | .rotating rotation expiresInDays =>
      match db.tokens.find? rotation.tokenId with
      | none => (.ended (.error .tokenNotFound), db)
      | some old =>
          if tokenHeld rotation.tokenId then (.rotating rotation expiresInDays, db)
          else if statusAt old rotation.now ≠ .active then (.ended (.error .tokenNotActive), db)
          else
            let request : IssueRequest := {
              ownerUserId := old.ownerUserId
              scopes := old.scopes
              ipAllowlist := old.ipAllowlist
              expiresInDays := expiresInDays }
            (.issuing request (some rotation), db)
  | .issuing request rotation =>
      match db.users.find? request.ownerUserId with
      | none => (.ended (.error .userNotFound), db)
      | some owner =>
          if ownerHeld request.ownerUserId then (.issuing request rotation, db)
          else if owner.isActive then (.locked request rotation, db)
          else (.ended (.error .ownerInactive), db)
  | .locked request rotation =>
      if maxActiveTokensPerOwner ≤ countActive db request.ownerUserId now then
        (.ended (.error .tokenLimit), db)
      else
        (.counted request rotation, db)
  | .counted request rotation =>
      match db.tokens.insert? (newToken env now request newId publicId secret) with
      | none => (.ended (.error .unhandled), db)
      | some tokens => (.ended (.ok newId), retire { db with tokens } rotation)
  | .ended result => (.ended result, db)

/-- How many ids of tokens the next statement takes from the sequence. -/
def Issue.draws : Issue → Int
  | .counted _ _ => 1
  | _ => 0

/-- The connection is lost: nothing of the transaction remains. -/
def Issue.abort : Issue → Issue
  | .ended result => .ended result
  | _ => .ended (.error .unhandled)

/-! ## Requests with a session -/

/-- How far a request is with `get_session_user`. -/
inductive Request where
  | arrived (cookie : String)
  | timed (cookie : String) (current : Instant)
  | begun (cookie : String) (current begunAt : Instant)
  | found (session : SessionRow)
  | authorised (session : SessionRow) (permissions : List String)
  | refused
deriving DecidableEq

/--
The condition of `get_session_user` on a session: the session is compared with the clock of
the application, and the token with the time at which the transaction has begun.
-/
def accepts (db : Database) (current begunAt : Instant) (row : SessionRow) : Bool :=
  row.revokedAt.isNone && decide (current < row.expiresAt) && isActiveUser db row.userId &&
    row.mcpTokenId.all fun tokenId => (db.tokens.find? tokenId).any fun token =>
      token.revokedAt.isNone && decide (begunAt < token.expiresAt)

/-- `_permissions_for_user`. -/
def permissionsForUser (db : Database) (rolePermissions : List (Int × String)) (userId : Int) :
    List String :=
  sortedSet ((db.userRoles.rows.filter fun grant => decide (grant.1 = userId)).flatMap fun grant =>
    (rolePermissions.filter fun row => decide (row.1 = grant.2)).map Prod.snd)

/-- `key.endswith(".read")`. -/
def isRead (permission : String) : Bool :=
  ".read".toList.isSuffixOf permission.toList

/-- The permissions of a session, out of those of its user. -/
def sessionPermissions (session : SessionRow) (permissions : List String) : List String :=
  if session.mcpTokenId.isSome then
    let allowed := (session.permissionCap.getD []).filter isRead
    permissions.filter fun key => decide (key ∈ allowed)
  else
    permissions

theorem id_noted (env : Environment) (current : Instant) (cookie : String) (row : SessionRow) :
    (if row.tokenHash = env.sha256 cookie ∧ row.lastSeenAt < current - 5 * minute then
      { row with lastSeenAt := current } else row).id = row.id := by
  split_ifs <;> rfl

theorem tokenHash_noted (env : Environment) (current : Instant) (cookie : String)
    (row : SessionRow) :
    (if row.tokenHash = env.sha256 cookie ∧ row.lastSeenAt < current - 5 * minute then
      { row with lastSeenAt := current } else row).tokenHash = row.tokenHash := by
  split_ifs <;> rfl

/-- The sessions after the last use of one is noted. -/
def noteUse (env : Environment) (db : Database) (current : Instant) (cookie : String) : Database :=
  { db with
    sessions := db.sessions.mapRows
      (fun row => if row.tokenHash = env.sha256 cookie ∧ row.lastSeenAt < current - 5 * minute then
        { row with lastSeenAt := current } else row)
      (id_noted env current cookie) (tokenHash_noted env current cookie) }

/-- The next statement of `get_session_user`. -/
def Request.advance (env : Environment) (now : Instant) (rolePermissions : List (Int × String))
    (db : Database) : Request → Request × Database
  | .arrived cookie => (if cookie = "" then .refused else .timed cookie now, db)
  | .timed cookie current => (.begun cookie current now, db)
  | .begun cookie current begunAt =>
      match db.sessions.rows.find? fun row =>
        decide (row.tokenHash = env.sha256 cookie) && accepts db current begunAt row with
      | none => (.refused, db)
      | some session => (.found session, noteUse env db current cookie)
  | .found session =>
      (.authorised session
        (sessionPermissions session (permissionsForUser db rolePermissions session.userId)), db)
  | .authorised session permissions => (.authorised session permissions, db)
  | .refused => (.refused, db)

/-! ## The system -/

/-- The tables, the clock, and the transactions and requests that have been started. -/
structure System where
  db : Database
  rolePermissions : List (Int × String)
  nextTokenId : Int
  now : Instant
  issues : List Issue
  openings : List Phase
  requests : List Request

/-- No token has been created and no session opened. -/
def System.initial (users : Table UserRow UserRow.id UserRow.username) (roles : Roles)
    (userRoles : UserRoles) (rolePermissions : List (Int × String)) (now : Instant) : System where
  db := { users, roles, userRoles, sessions := .empty, tokens := .empty }
  rolePermissions := rolePermissions
  nextTokenId := 1
  now := now
  issues := []
  openings := []
  requests := []

/-- What can happen next. -/
inductive Event where
  | tick (d : Nat)
  | create (ownerUserId : Int) (scopes ipAllowlist : List String) (expiresInDays : Int)
  | rotate (tokenId : Int) (byUsername : Option String) (graceHours expiresInDays : Int)
  | issue (i : Nat) (publicId secret : String)
  | abort (i : Nat)
  | revoke (tokenId : Int) (byUsername : Option String)
  | login (username password : String) (authType : AuthType)
  | present (ip publicId secret : String)
  | advanceOpening (i : Nat) (answer : Answer)
  | request (cookie : String)
  | authorise (i : Nat)
  | logout (cookie : String)
  | updateUser (userId : Int) (payload : UserUpdateRequest) (actorId : Int) (salt : String)
  | updateRole (roleId : Int) (permissionKeys : List String)

/-- The rows of tokens that transactions other than the one at a position have locked. -/
def System.tokenHeld (s : System) (i : Nat) (tokenId : Int) : Bool :=
  (s.issues.eraseIdx i).any fun x => decide (tokenId ∈ x.tokenLocks)

/-- The rows of users that transactions other than the one at a position have locked. -/
def System.ownerHeld (s : System) (i : Nat) (userId : Int) : Bool :=
  (s.issues.eraseIdx i).any fun x => decide (userId ∈ x.ownerLocks)

/-- The insertion of a session waits for a transaction that has a row locked that it refers to. -/
def System.awaits (s : System) : Phase → Bool
  | .checked _ request => s.issues.any fun x => decide (request.userId ∈ x.ownerLocks) ||
      request.mcpTokenId.any fun tokenId => decide (tokenId ∈ x.tokenLocks)
  | _ => false

/-- One step of the system. -/
def step (env : Environment) (ipNetwork : String → Option String) (s : System) : Event → System
  | .tick d => { s with now := s.now + d }
  | .create ownerUserId scopes ipAllowlist expiresInDays =>
      { s with
        issues := s.issues ++ [createToken ipNetwork ownerUserId scopes ipAllowlist expiresInDays] }
  | .rotate tokenId byUsername graceHours expiresInDays =>
      let rotation : Rotation := { tokenId, byUsername, now := s.now, graceHours }
      { s with issues := s.issues ++ [.rotating rotation expiresInDays] }
  | .issue i publicId secret =>
      match s.issues[i]? with
      | none => s
      | some x =>
          let next := x.advance env s.now (s.tokenHeld i) (s.ownerHeld i) s.nextTokenId publicId
            secret s.db
          { s with
            db := next.2
            issues := s.issues.set i next.1
            nextTokenId := s.nextTokenId + x.draws }
  | .abort i =>
      match s.issues[i]? with
      | none => s
      | some x => { s with issues := s.issues.set i x.abort }
  | .revoke tokenId byUsername =>
      if s.issues.any fun x => decide (tokenId ∈ x.tokenLocks) then s
      else
        match revokeToken s.db s.now tokenId byUsername with
        | .error _ => s
        | .ok db => { s with db }
  | .login username password authType =>
      { s with openings := s.openings ++ [.login username password authType] }
  | .present ip publicId secret =>
      { s with openings := s.openings ++ [.present ip publicId secret] }
  | .advanceOpening i answer =>
      match s.openings[i]? with
      | none => s
      | some phase =>
          if s.awaits phase then s
          else
            let next := advanceOpening env s.now answer s.db phase
            { s with db := next.2, openings := s.openings.set i next.1 }
  | .request cookie => { s with requests := s.requests ++ [.arrived cookie] }
  | .authorise i =>
      match s.requests[i]? with
      | none => s
      | some request =>
          let next := request.advance env s.now s.rolePermissions s.db
          { s with db := next.2, requests := s.requests.set i next.1 }
  | .logout cookie => { s with db := Credentials.revokeSession env s.db s.now cookie }
  | .updateUser userId payload actorId salt =>
      if s.issues.any fun x => decide (userId ∈ x.ownerLocks) then s
      else
        match updateUser (env.hashPassword salt) s.now s.db userId payload actorId with
        | .error _ => s
        | .ok db => { s with db }
  | .updateRole roleId permissionKeys =>
      if (s.db.roles.find? roleId).isSome then
        { s with
          rolePermissions := (s.rolePermissions.filter fun row => decide (row.1 ≠ roleId)) ++
            permissionKeys.map fun key => (roleId, key) }
      else
        s

end McpTokens
end Auth
end MpvmApp
