import MpvmApp.Auth.UserTransactions

/-!
# Sessions

A session is opened for a local password, for an identity that the directory has confirmed, or for
an access token.  The credentials are checked in one transaction, or in several, and the session is
inserted in a later one.  Afterwards `get_session_user` looks at the session, at its user and
at its token, and no longer at the credentials.

The insertion of a session refers to its user and to its token: it waits for a transaction that has
one of these rows locked, and such a transaction waits for the insertion.  A transaction that
updates a user or revokes a token is therefore one step beside the insertions.

Main definitions:

- Definition `getSessionUser`: the user whose session a token opens.
- Definition `createSession`: the insertion of a session.
- Definition `advanceOpening`: the next transaction of the opening of a session.
- Definition `credentialValid`: the stored rows accept the credentials.
-/

namespace MpvmApp
namespace Auth

/-- What is taken from the libraries and from the settings. -/
structure Environment where
  lower : String → String
  hashPassword : String → String → String
  verifyPassword : String → String → Bool
  sha256 : String → String
  sessionHours : Int
  ipAllowed : String → List String → Bool

/-- One minute. -/
def minute : Instant :=
  60000000

/-! ## Accepted sessions -/

/-- The condition of `get_session_user` on a session and on the rows that it refers to. -/
def acceptsSession (db : Database) (now : Instant) (row : SessionRow) : Bool :=
  row.revokedAt.isNone && decide (now < row.expiresAt) && isActiveUser db row.userId &&
    row.mcpTokenId.all fun tokenId => (db.tokens.find? tokenId).any fun token =>
      token.revokedAt.isNone && decide (now < token.expiresAt)

/-- `get_session_user`: the id of the user, if the session is accepted. -/
def getSessionUser (env : Environment) (db : Database) (now : Instant) (token : Option String) :
    Option Int :=
  match Sql.orNone token with
  | none => none
  | some token =>
      (db.sessions.rows.find? fun row =>
        decide (row.tokenHash = env.sha256 token) && acceptsSession db now row).map
          SessionRow.userId

/-! ## Checks of credentials -/

/-- The user under a username. -/
def userByName (db : Database) (username : String) : Option UserRow :=
  db.users.rows.find? fun row => decide (row.username = username)

/-- `username.strip().lower()`. -/
def normalized (env : Environment) (username : String) : String :=
  env.lower (Sql.strip username)

/-- `authenticate`: the user with this name and password. -/
def authenticate (env : Environment) (db : Database) (username password : String) : Option Int :=
  ((userByName db (normalized env username)).filter fun row =>
    row.isActive && env.verifyPassword password row.passwordHash).map UserRow.id

/-- `_local_user_record`: the active user with this name. -/
def localUserRecord (env : Environment) (db : Database) (username : String) : Option Int :=
  if normalized env username = "" then none
  else ((userByName db (normalized env username)).filter UserRow.isActive).map UserRow.id

/-- What the directory tells about a user whose password it has confirmed. -/
structure Identity where
  username : String
  displayName : String
  role : Option String
deriving DecidableEq

/-- `_ldap_default_role_row`: the configured role by its key or its name, else viewers. -/
def ldapDefaultRole (roles : Roles) (configuredRole : Option String) : Option Int :=
  let roleValue := (Sql.cleanText configuredRole).getD ""
  let configured := if roleValue = "" then none else
    ((roles.rows.find? fun row => decide (row.roleKey = some roleValue)).or
      (roles.rows.find? fun row => decide (row.name = roleValue))).map RoleRow.id
  configured.or (roles.byKey "viewer")

/-- The row that `_provision_ldap_user` inserts. -/
def provisionedRow (env : Environment) (now : Instant) (identity : Identity) (newId : Int)
    (salt secret : String) : UserRow where
  id := newId
  username := normalized env identity.username
  displayName := if Sql.strip identity.displayName = "" then normalized env identity.username
    else Sql.strip identity.displayName
  passwordHash := env.hashPassword salt secret
  isActive := true
  createdAt := now
  updatedAt := now
  lastLoginAt := none

/-- The insertions of `_provision_ldap_user`; `none` is a username that is taken. -/
def provisionLdapUser (env : Environment) (now : Instant) (db : Database) (identity : Identity)
    (role newId : Int) (salt secret : String) : Option Database := do
  let users ← db.users.insert? (provisionedRow env now identity newId salt secret)
  let userRoles ← db.userRoles.replace newId [role]
  return { db with users, userRoles }

/-- The checks of a token that `authenticate` makes; the secret and the id are given. -/
def authenticateToken (env : Environment) (db : Database) (now : Instant) (ip : String)
    (publicId secret : String) : Option TokenRow :=
  (db.tokens.rows.find? fun token => decide (token.publicId = publicId)).filter fun token =>
    decide (env.sha256 secret = token.secretHash) && token.revokedAt.isNone &&
      decide (now < token.expiresAt) && isActiveUser db token.ownerUserId &&
      (token.ipAllowlist.isEmpty || env.ipAllowed ip token.ipAllowlist)

/-! ## The insertion of a session -/

/-- The arguments of `create_session`. -/
structure SessionRequest where
  userId : Int
  lifetime : Instant
  mcpTokenId : Option Int
  permissionCap : Option (List String)
deriving DecidableEq

/-- The row that `create_session` inserts. -/
def sessionRow (env : Environment) (now : Instant) (request : SessionRequest)
    (sessionId token : String) : SessionRow where
  id := sessionId
  userId := request.userId
  tokenHash := env.sha256 token
  createdAt := now
  expiresAt := now + request.lifetime
  lastSeenAt := now
  revokedAt := none
  mcpTokenId := request.mcpTokenId
  permissionCap := request.permissionCap

/-- The rows that a session refers to are there. -/
def refersTo (db : Database) (request : SessionRequest) : Bool :=
  (db.users.find? request.userId).isSome &&
    request.mcpTokenId.all fun tokenId => (db.tokens.find? tokenId).isSome

/-- The users after a login: the last one is noted. -/
def noteLogin (db : Database) (now : Instant) (request : SessionRequest) :
    Table UserRow UserRow.id UserRow.username :=
  if request.mcpTokenId.isSome then db.users
  else db.users.mapRows
    (fun row => if row.id = request.userId then
      { row with lastLoginAt := some now, updatedAt := now } else row)
    (fun row => by split_ifs <;> rfl) (fun row => by split_ifs <;> rfl)

/-- `create_session`; `none` is a violated constraint. -/
def createSession (env : Environment) (now : Instant) (db : Database) (request : SessionRequest)
    (sessionId token : String) : Option Database :=
  if refersTo db request then
    ((db.sessions.filterRows fun row => decide (now < row.expiresAt) && row.revokedAt.isNone).insert?
      (sessionRow env now request sessionId token)).map fun sessions =>
        { db with sessions, users := noteLogin db now request }
  else
    none

/-- The permissions of the scopes of a token. -/
def mcpScopes : List (String × List String) :=
  [("vulnerabilities:read", ["assets.read", "asset_cards.read", "passports.read"]),
    ("remediation:read", ["remediation.read"]),
    ("operations:read", ["tasks.read", "operations.read"]),
    ("risk:read", ["risk.read"])]

/-- `scope_permissions`; the scopes of a stored token are all in the table. -/
def scopePermissions (scopes : List String) : List String :=
  (scopes.flatMap fun scope => ((mcpScopes.find? fun x => x.1 = scope).map Prod.snd).getD []).dedup
    |>.insertionSort (· ≤ ·)

/-- The session of a login. -/
def loginSession (env : Environment) (userId : Int) : SessionRequest where
  userId := userId
  lifetime := env.sessionHours * (60 * minute)
  mcpTokenId := none
  permissionCap := none

/-- The session of a token: it ends no later than the token. -/
def tokenSession (now : Instant) (ownerId : Int) (token : TokenRow) : SessionRequest where
  userId := ownerId
  lifetime := min (60 * minute) (token.expiresAt - now)
  mcpTokenId := some token.id
  permissionCap := some (scopePermissions token.scopes)

/-- The check of `open_session`, and the session that it goes on to open. -/
def openSession (db : Database) (now : Instant) (tokenId ownerId : Int) : Option SessionRequest :=
  ((db.tokens.find? tokenId).filter fun token =>
    token.revokedAt.isNone && decide (now < token.expiresAt) &&
      isActiveUser db token.ownerUserId).map (tokenSession now ownerId)

/-! ## Openings -/

/-- `auth_type` of a login. -/
inductive AuthType where
  | auto
  | onlyLocal
  | onlyLdap
deriving DecidableEq, Repr

/-- What a session is opened on the strength of. -/
inductive Credential where
  | password (userId : Int) (text : String)
  | directory (userId : Int)
  | token (tokenId ownerId : Int)
deriving DecidableEq

/-- The user whose session is opened. -/
def Credential.userId : Credential → Int
  | .password userId _ => userId
  | .directory userId => userId
  | .token _ ownerId => ownerId

/-- The stored rows accept the credentials. -/
def credentialValid (env : Environment) (db : Database) : Credential → Bool
  | .password userId text => (db.users.find? userId).any fun row =>
      row.isActive && env.verifyPassword text row.passwordHash
  | .directory userId => isActiveUser db userId
  | .token tokenId ownerId => isActiveUser db ownerId &&
      (db.tokens.find? tokenId).any fun token => token.revokedAt.isNone

/-- How far the opening of a session is: each step is a transaction or an answer. -/
inductive Phase where
  | login (username password : String) (authType : AuthType)
  | askDirectory
  | localRecord (identity : Identity)
  | disabledRecord (identity : Identity)
  | provision (identity : Identity)
  | adopt (identity : Identity)
  | present (ip publicId secret : String)
  | principal (tokenId ownerId : Int)
  | checked (credential : Credential) (request : SessionRequest)
  | opened (credential : Credential) (token : String)
  | rejected
deriving DecidableEq

/-- What a step of an opening gets from outside: an answer of the directory and random values. -/
structure Answer where
  identity : Option Identity
  newUserId : Int
  salt : String
  secret : String
  sessionId : String
  token : String

/-- The user has been found, or the directory is asked, or the login is rejected. -/
def afterAuthenticate (env : Environment) (password : String) (authType : AuthType) :
    Option Int → Phase
  | some userId => .checked (.password userId password) (loginSession env userId)
  | none => if authType = .auto then .askDirectory else .rejected

/-- The user of an identity has been found, or the login goes on in another way. -/
def afterRecord (env : Environment) (otherwise : Phase) : Option Int → Phase
  | some userId => .checked (.directory userId) (loginSession env userId)
  | none => otherwise

/-- The next step of an opening. -/
def advanceOpening (env : Environment) (now : Instant) (a : Answer) (db : Database) :
    Phase → Phase × Database
  | .login username password authType =>
      (if authType = .onlyLdap then .askDirectory
        else afterAuthenticate env password authType (authenticate env db username password), db)
  | .askDirectory => (a.identity.elim .rejected .localRecord, db)
  | .localRecord identity =>
      (afterRecord env (.disabledRecord identity) (localUserRecord env db identity.username), db)
  | .disabledRecord identity =>
      (if (userByName db (normalized env identity.username)).all UserRow.isActive then
        .provision identity else .rejected, db)
  | .provision identity =>
      match ldapDefaultRole db.roles identity.role with
      | none => (.rejected, db)
      | some role =>
          match provisionLdapUser env now db identity role a.newUserId a.salt a.secret with
          | none => (.adopt identity, db)
          | some db' => (.checked (.directory a.newUserId) (loginSession env a.newUserId), db')
  | .adopt identity =>
      (afterRecord env .rejected (localUserRecord env db identity.username), db)
  | .present ip publicId secret =>
      ((authenticateToken env db now ip publicId secret).elim .rejected fun token =>
        .principal token.id token.ownerUserId, db)
  | .principal tokenId ownerId =>
      ((openSession db now tokenId ownerId).elim .rejected (.checked (.token tokenId ownerId)), db)
  | .checked credential request =>
      match createSession env now db request a.sessionId a.token with
      | none => (.rejected, db)
      | some db' => (.opened credential a.token, db')
  | .opened credential token => (.opened credential token, db)
  | .rejected => (.rejected, db)

end Auth
end MpvmApp
