import MpvmApp.Auth.Sessions

/-!
# Sessions opened on revoked credentials

The system of openings of sessions, of updates of users and of revocations of tokens, one
transaction at a time.  A session is opened on the strength of credentials that were revoked when
they were not valid in some committed state between their check and the insertion of the session.

An update that deactivates a user or replaces the password ends the sessions that are stored, but
not one whose credentials are checked already and which is inserted later.  While the user is not
active it is not accepted; after the user is activated again it is.  A session of a revoked token
is never accepted, since the token is looked at each time.

Main definitions:

- Definition `Orderly`: no session of an active user is inserted after a change that has
  overtaken its opening, and no user is activated who has a session that would be accepted again.

Main results:

- Theorem `Settled.checked`: credentials that have become invalid were revoked by a change
  that is on record, or their token is.
- Theorem `Inv.step`: a session of revoked credentials is not accepted.
-/

namespace MpvmApp
namespace Auth
namespace Credentials

open Runs

/-! ## The system -/

/-- A committed update of a user, as far as it bears on credentials. -/
structure Change where
  userId : Int
  deactivates : Bool
  passwordHash : Option String
deriving DecidableEq

/--
The opening of a session.  `checkedAt` is the number of changes at the last check, and
`unbroken` tells whether the credentials have been valid in every committed state since then.
-/
structure Opening where
  phase : Phase
  checkedAt : Nat
  unbroken : Bool

/-- The tables, the clock, the changes so far and the openings. -/
structure System where
  db : Database
  now : Instant
  changes : List Change
  openings : List Opening

/-- Nothing has been opened or changed. -/
def System.initial (db : Database) (now : Instant) : System where
  db := db
  now := now
  changes := []
  openings := []

/-- What can happen next. -/
inductive Event where
  | tick (d : Nat)
  | login (username password : String) (authType : AuthType)
  | present (ip publicId secret : String)
  | advance (i : Nat) (answer : Answer)
  | update (userId : Int) (payload : UserUpdateRequest) (actorId : Int) (salt : String)
  | revokeToken (tokenId : Int) (byUsername : Option String)
  | logout (token : String)
  | useSession (token : String)

/-- An opening that has not begun to check its credentials. -/
def Opening.start (phase : Phase) : Opening where
  phase := phase
  checkedAt := 0
  unbroken := true

/-- A new state is committed while an opening is under way. -/
def Opening.witness (env : Environment) (db : Database) (o : Opening) : Opening :=
  match o.phase with
  | .checked credential _ => { o with unbroken := o.unbroken && credentialValid env db credential }
  | _ => o

/-- An opening whose next step has led to a phase; with a check of its own it starts again. -/
def Opening.moved (env : Environment) (changes : List Change) (db : Database) (o : Opening) :
    Phase → Opening
  | .checked credential request =>
      { phase := .checked credential request
        checkedAt := changes.length
        unbroken := credentialValid env db credential }
  | phase => { o with phase }

/-- The token of a session that an opening has opened. -/
def Opening.token : Opening → Option String
  | ⟨.opened _ token, _, _⟩ => some token
  | _ => none

/-- A state is committed in which the openings are these. -/
def System.commit (env : Environment) (s : System) (db : Database) (openings : List Opening) :
    System :=
  { s with db, openings := openings.map (Opening.witness env db) }

/-- A token that has been drawn before is not drawn again. -/
def System.drawn (env : Environment) (s : System) (token : String) : Bool :=
  s.openings.any fun o => o.token.any fun token' => decide (env.sha256 token' = env.sha256 token)

/-- `revoke_token`; `none` is a token that is missing or revoked already. -/
def revokeToken (db : Database) (now : Instant) (tokenId : Int) (byUsername : Option String) :
    Option Database :=
  if (db.tokens.find? tokenId).any fun token => token.revokedAt.isNone then
    some { db with
      tokens := db.tokens.mapRows
        (fun token => if token.id = tokenId ∧ token.revokedAt = none then
          { token with revokedAt := some now, revokedByUsername := byUsername } else token)
        (fun token => by split_ifs <;> rfl) (fun token => by split_ifs <;> rfl)
      sessions := db.sessions.mapRows
        (fun row => if row.mcpTokenId = some tokenId ∧ row.revokedAt = none then
          { row with revokedAt := some now } else row)
        (fun row => by split_ifs <;> rfl) (fun row => by split_ifs <;> rfl) }
  else
    none

/-- `revoke_session`. -/
def revokeSession (env : Environment) (db : Database) (now : Instant) (token : String) : Database :=
  { db with
    sessions := db.sessions.mapRows
      (fun row => if row.tokenHash = env.sha256 token then
        { row with revokedAt := row.revokedAt.or (some now) } else row)
      (fun row => by split_ifs <;> rfl) (fun row => by split_ifs <;> rfl) }

/-- What `get_session_user` writes for a session that it accepts. -/
def noteUse (env : Environment) (db : Database) (now : Instant) (token : String) : Database :=
  if (getSessionUser env db now (some token)).isSome then
    { db with
      sessions := db.sessions.mapRows
        (fun row => if row.tokenHash = env.sha256 token ∧ row.lastSeenAt < now - 5 * minute then
          { row with lastSeenAt := now } else row)
        (fun row => by split_ifs <;> rfl) (fun row => by split_ifs <;> rfl) }
  else
    db

/-- What a committed update is recorded as. -/
def changeOf (env : Environment) (userId : Int) (p : UserUpdateRequest) (salt : String) : Change where
  userId := userId
  deactivates := p.deactivates
  passwordHash := p.password.join.map (env.hashPassword salt)

/-- One step of the system. -/
def step (env : Environment) (s : System) : Event → System
  | .tick d => { s with now := s.now + d }
  | .login username password authType =>
      { s with openings := s.openings ++ [.start (.login username password authType)] }
  | .present ip publicId secret =>
      { s with openings := s.openings ++ [.start (.present ip publicId secret)] }
  | .advance i answer =>
      match s.openings[i]? with
      | none => s
      | some o =>
          if s.drawn env answer.token then s
          else
            let next := advanceOpening env s.now answer s.db o.phase
            s.commit env next.2 (s.openings.set i (o.moved env s.changes next.2 next.1))
  | .update userId payload actorId salt =>
      match updateUser (env.hashPassword salt) s.now s.db userId payload actorId with
      | .error _ => s
      | .ok db' =>
          { s.commit env db' s.openings with
            changes := s.changes ++ [changeOf env userId payload salt] }
  | .revokeToken tokenId byUsername =>
      match revokeToken s.db s.now tokenId byUsername with
      | none => s
      | some db' => s.commit env db' s.openings
  | .logout token => s.commit env (revokeSession env s.db s.now token) s.openings
  | .useSession token => s.commit env (noteUse env s.db s.now token) s.openings

/-! ## What is asked for -/

/-- A session is accepted only if its credentials were valid from their check to its insertion. -/
def Opening.Honoured (env : Environment) (db : Database) (now : Instant) (o : Opening) : Prop :=
  ∀ token ∈ o.token, (getSessionUser env db now (some token)).isSome = true → o.unbroken = true

instance (env : Environment) (db : Database) (now : Instant) (o : Opening) :
    Decidable (o.Honoured env db now) :=
  inferInstanceAs (Decidable (∀ token ∈ o.token,
    (getSessionUser env db now (some token)).isSome = true → o.unbroken = true))

/-- No session is accepted that was opened on the strength of revoked credentials. -/
def RevocationHonoured (env : Environment) (s : System) : Prop :=
  ∀ o ∈ s.openings, o.Honoured env s.db s.now

instance (env : Environment) (s : System) : Decidable (RevocationHonoured env s) :=
  inferInstanceAs (Decidable (∀ o ∈ s.openings, o.Honoured env s.db s.now))

/-- A committed update revokes the password or the access of the user. -/
def Change.revokes (env : Environment) (c : Change) : Credential → Bool
  | .password userId text => decide (c.userId = userId) &&
      (c.deactivates || c.passwordHash.any fun encoded => !env.verifyPassword text encoded)
  | .directory userId => decide (c.userId = userId) && c.deactivates
  | .token _ ownerId => decide (c.userId = ownerId) && c.deactivates

/-- A session is ended or has run out. -/
def SessionRow.Over (now : Instant) (row : SessionRow) : Prop :=
  row.revokedAt.isSome = true ∨ row.expiresAt ≤ now

instance (now : Instant) (row : SessionRow) : Decidable (SessionRow.Over now row) :=
  inferInstanceAs (Decidable (row.revokedAt.isSome = true ∨ row.expiresAt ≤ now))

/-- No change since the check of an opening has revoked the credentials of an active user. -/
def Opening.InTime (env : Environment) (s : System) (o : Opening) : Prop :=
  match o.phase with
  | .checked credential _ => isActiveUser s.db credential.userId = true →
      ∀ c ∈ s.changes.drop o.checkedAt, c.revokes env credential = false
  | _ => True

instance (env : Environment) (s : System) (o : Opening) : Decidable (o.InTime env s) := by
  unfold Opening.InTime
  split <;> infer_instance

/--
A session of an active user is inserted only if no change since the check of its credentials has
revoked them, and a user who is not active is activated only without sessions that are not over,
or with a new password.
-/
def Orderly (env : Environment) (s : System) : Event → Prop
  | .advance i _ => ∀ o ∈ s.openings[i]?, o.InTime env s
  | .update userId p _ _ => p.isActive = some (some true) → isActiveUser s.db userId = false →
      p.password.isSome = true ∨
        ∀ row ∈ s.db.sessions.rows, row.userId = userId → SessionRow.Over s.now row
  | _ => True

instance (env : Environment) (s : System) (e : Event) : Decidable (Orderly env s e) := by
  unfold Orderly
  split <;> infer_instance

/-! ## Sessions that are not accepted -/

/-- A token is stored and revoked. -/
def TokenRevoked (db : Database) (tokenId : Int) : Prop :=
  ∃ token, db.tokens.find? tokenId = some token ∧ token.revokedAt.isSome = true

/-- A session is over, or its user is not active, or its token is revoked. -/
def Dead (db : Database) (now : Instant) (row : SessionRow) : Prop :=
  SessionRow.Over now row ∨
    (∃ user, db.users.find? row.userId = some user ∧ user.isActive = false) ∨
    ∃ tokenId, row.mcpTokenId = some tokenId ∧ TokenRevoked db tokenId

theorem Dead.not_accepted {db : Database} {now : Instant} {row : SessionRow}
    (h : Dead db now row) :
    acceptsSession db now row = false := by
  rw [Bool.eq_false_iff]
  intro haccepts
  simp only [acceptsSession, Bool.and_eq_true, decide_eq_true_eq] at haccepts
  obtain ⟨⟨⟨hrevoked, hexpires⟩, hactive⟩, htoken⟩ := haccepts
  rcases h with (hover | hover) | ⟨user, huser, hinactive⟩ | ⟨tokenId, hid, token, hfind, hover⟩
  · rw [Option.isNone_iff_eq_none.1 hrevoked] at hover
    cases hover
  · exact absurd hexpires (not_lt.2 hover)
  · rw [isActiveUser, huser, Option.any_some, hinactive] at hactive
    cases hactive
  · rw [hid, Option.all_some, hfind, Option.any_some, Bool.and_eq_true] at htoken
    rw [Option.isNone_iff_eq_none.1 htoken.1] at hover
    cases hover

theorem getSessionUser_eq_none {env : Environment} {db : Database} {now : Instant} {token : String}
    (h : ∀ row ∈ db.sessions.rows, row.tokenHash = env.sha256 token → Dead db now row) :
    getSessionUser env db now (some token) = none := by
  unfold getSessionUser
  split
  · rfl
  · rename_i text htext
    have hsame : text = token := by
      unfold Sql.orNone Sql.nullIfEmpty at htext
      simp only [Option.filter_eq_some_iff] at htext
      exact (Option.some.inj htext.1).symm
    subst hsame
    rw [Option.map_eq_none_iff, List.find?_eq_none]
    intro row hrow haccepts
    rw [Bool.and_eq_true, decide_eq_true_eq] at haccepts
    rw [(h row hrow haccepts.1).not_accepted] at haccepts
    exact absurd haccepts.2 Bool.false_ne_true

/-! ## What the steps keep -/

/-- Tokens stay, with their owners, and they stay revoked. -/
def TokensKept (db db' : Database) : Prop :=
  ∀ tokenId token, db.tokens.find? tokenId = some token →
    ∃ token', db'.tokens.find? tokenId = some token' ∧ token'.ownerUserId = token.ownerUserId ∧
      (token.revokedAt.isSome = true → token'.revokedAt.isSome = true)

/-- Users stay as active as they are, with their passwords. -/
def UsersKept (db db' : Database) : Prop :=
  ∀ userId user, db.users.find? userId = some user →
    ∃ user', db'.users.find? userId = some user' ∧ user'.isActive = user.isActive ∧
      user'.passwordHash = user.passwordHash

/-- A session goes on: it may end, and it does not change otherwise. -/
structure SessionKept (row row' : SessionRow) : Prop where
  tokenHash : row'.tokenHash = row.tokenHash
  userId : row'.userId = row.userId
  mcpTokenId : row'.mcpTokenId = row.mcpTokenId
  expiresAt : row'.expiresAt = row.expiresAt
  revokedAt : row.revokedAt.isSome = true → row'.revokedAt.isSome = true

theorem SessionKept.refl (row : SessionRow) :
    SessionKept row row :=
  ⟨rfl, rfl, rfl, rfl, id⟩

theorem TokensKept.of_eq {db db' : Database} (h : db'.tokens = db.tokens) :
    TokensKept db db' := fun _ token htoken => ⟨token, by rw [h]; exact htoken, rfl, id⟩

theorem UsersKept.of_eq {db db' : Database} (h : db'.users = db.users) :
    UsersKept db db' := fun _ user huser => ⟨user, by rw [h]; exact huser, rfl, rfl⟩

theorem TokensKept.tokenRevoked {db db' : Database} (h : TokensKept db db') {tokenId : Int}
    (hrevoked : TokenRevoked db tokenId) :
    TokenRevoked db' tokenId := by
  obtain ⟨token, htoken, hsome⟩ := hrevoked
  obtain ⟨token', htoken', _, hkeeps⟩ := h tokenId token htoken
  exact ⟨token', htoken', hkeeps hsome⟩

theorem SessionKept.over {row row' : SessionRow} (h : SessionKept row row') {now now' : Instant}
    (hnow : now ≤ now') (hover : SessionRow.Over now row) :
    SessionRow.Over now' row' := by
  rcases hover with hrevoked | hexpired
  · exact .inl (h.revokedAt hrevoked)
  · exact .inr (by rw [h.expiresAt]; exact le_trans hexpired hnow)

theorem SessionKept.dead {row row' : SessionRow} (h : SessionKept row row') {db db' : Database}
    {now now' : Instant} (hnow : now ≤ now') (htokens : TokensKept db db')
    (husers : ∀ user, db.users.find? row.userId = some user → user.isActive = false →
      SessionRow.Over now' row' ∨
        ∃ user', db'.users.find? row.userId = some user' ∧ user'.isActive = false)
    (hdead : Dead db now row) :
    Dead db' now' row' := by
  rcases hdead with hover | ⟨user, huser, hinactive⟩ | ⟨tokenId, hid, hrevoked⟩
  · exact .inl (h.over hnow hover)
  · rcases husers user huser hinactive with hover | ⟨user', huser', hinactive'⟩
    · exact .inl hover
    · exact .inr (.inl ⟨user', by rw [h.userId]; exact huser', hinactive'⟩)
  · exact .inr (.inr ⟨tokenId, h.mcpTokenId.trans hid, htokens.tokenRevoked hrevoked⟩)

theorem UsersKept.inactive {db db' : Database} (h : UsersKept db db') {userId : Int}
    {user : UserRow} (huser : db.users.find? userId = some user) (hinactive : user.isActive = false) :
    ∃ user', db'.users.find? userId = some user' ∧ user'.isActive = false := by
  obtain ⟨user', huser', hactive, _⟩ := h userId user huser
  exact ⟨user', huser', hactive.trans hinactive⟩

theorem UsersKept.isActiveUser {db db' : Database} (h : UsersKept db db') {userId : Int}
    (hactive : isActiveUser db userId = true) :
    isActiveUser db' userId = true := by
  obtain ⟨user, huser, htrue⟩ := isActiveUser_of_find? hactive
  obtain ⟨user', huser', hsame, _⟩ := h userId user huser
  rw [Auth.isActiveUser, huser', Option.any_some, hsame, htrue]

/-! ## What is known of an opening -/

/-- The owner of a stored token. -/
def Owns (db : Database) (tokenId ownerId : Int) : Prop :=
  ∃ token, db.tokens.find? tokenId = some token ∧ token.ownerUserId = ownerId

theorem TokensKept.owns {db db' : Database} (h : TokensKept db db') {tokenId ownerId : Int}
    (howns : Owns db tokenId ownerId) :
    Owns db' tokenId ownerId := by
  obtain ⟨token, htoken, howner⟩ := howns
  obtain ⟨token', htoken', hsame, _⟩ := h tokenId token htoken
  exact ⟨token', htoken', hsame.trans howner⟩

/-- The session that is going to be opened is one of the credentials. -/
def Fits (db : Database) (request : SessionRequest) : Credential → Prop
  | .password userId _ => request.userId = userId
  | .directory userId => request.userId = userId
  | .token tokenId ownerId => request.userId = ownerId ∧ request.mcpTokenId = some tokenId ∧
      Owns db tokenId ownerId

theorem Fits.userId {db : Database} {request : SessionRequest} {credential : Credential}
    (h : Fits db request credential) :
    request.userId = credential.userId := by
  cases credential with
  | password userId text => exact h
  | directory userId => exact h
  | token tokenId ownerId => exact h.1

theorem Fits.kept {db db' : Database} {request : SessionRequest} {credential : Credential}
    (h : Fits db request credential) (htokens : TokensKept db db') :
    Fits db' request credential := by
  cases credential with
  | password userId text => exact h
  | directory userId => exact h
  | token tokenId ownerId => exact ⟨h.1, h.2.1, htokens.owns h.2.2⟩

/-- The credentials of an opening have been revoked since their check. -/
def Overtaken (env : Environment) (db : Database) (changes : List Change) (checkedAt : Nat)
    (credential : Credential) : Prop :=
  (∃ c ∈ changes.drop checkedAt, c.revokes env credential = true) ∨
    ∃ tokenId ownerId, credential = .token tokenId ownerId ∧ TokenRevoked db tokenId

/-- What is known of checked credentials. -/
structure Checked (env : Environment) (db : Database) (changes : List Change) (o : Opening)
    (credential : Credential) (request : SessionRequest) : Prop where
  fits : Fits db request credential
  since : o.checkedAt ≤ changes.length
  valid : o.unbroken = true → credentialValid env db credential = true
  overtaken : o.unbroken = false → Overtaken env db changes o.checkedAt credential

/-- What is known of an opening. -/
def Settled (env : Environment) (db : Database) (now : Instant) (changes : List Change)
    (o : Opening) : Prop :=
  match o.phase with
  | .principal tokenId ownerId => Owns db tokenId ownerId
  | .checked credential request => Checked env db changes o credential request
  | .opened _ token => o.unbroken = false →
      ∀ row ∈ db.sessions.rows, row.tokenHash = env.sha256 token → Dead db now row
  | _ => True

/-- What a step does to the tables, as far as it bears on an opening. -/
structure Moves (env : Environment) (db db' : Database) (now now' : Instant)
    (new : List Change) : Prop where
  tokens : TokensKept db db'
  valid : ∀ credential, credentialValid env db credential = true →
    credentialValid env db' credential = true ∨
      (∃ c ∈ new, c.revokes env credential = true) ∨
        ∃ tokenId ownerId, credential = .token tokenId ownerId ∧ TokenRevoked db' tokenId

/-- The sessions of a token are as dead after a step as before. -/
def StaysDead (env : Environment) (db db' : Database) (now now' : Instant) (token : String) :
    Prop :=
  ∀ row' ∈ db'.sessions.rows, row'.tokenHash = env.sha256 token →
    ∃ row ∈ db.sessions.rows, row.tokenHash = env.sha256 token ∧
      (Dead db now row → Dead db' now' row')

section Step

variable {env : Environment} {db db' : Database} {now now' : Instant} {changes new : List Change}

/-- Credentials that have become invalid were revoked by a change on record, or their token is. -/
theorem Settled.checked {o : Opening} {credential : Credential} {request : SessionRequest}
    (h : Checked env db changes o credential request) (hmoves : Moves env db db' now now' new) :
    Checked env db' (changes ++ new)
      { o with unbroken := o.unbroken && credentialValid env db' credential }
      credential request where
  fits := h.fits.kept hmoves.tokens
  since := le_trans h.since (by simp)
  valid hunbroken := (Bool.and_eq_true_iff.1 hunbroken).2
  overtaken hbroken := by
    have hdrop : (changes ++ new).drop o.checkedAt = changes.drop o.checkedAt ++ new :=
      List.drop_append_of_le_length h.since
    simp only [Overtaken, hdrop, List.mem_append]
    cases hold : o.unbroken with
    | false =>
        rcases h.overtaken hold with ⟨c, hc, hrevokes⟩ | ⟨tokenId, ownerId, rfl, hrevoked⟩
        · exact .inl ⟨c, .inl hc, hrevokes⟩
        · exact .inr ⟨tokenId, ownerId, rfl, hmoves.tokens.tokenRevoked hrevoked⟩
    | true =>
        rcases hmoves.valid credential (h.valid hold) with hvalid | ⟨c, hc, hrevokes⟩ | hrevoked
        · simp [hold, hvalid] at hbroken
        · exact .inl ⟨c, .inr hc, hrevokes⟩
        · exact .inr hrevoked

theorem Settled.kept {o : Opening} (h : Settled env db now changes o)
    (hmoves : Moves env db db' now now' new)
    (hdead : ∀ token ∈ o.token, StaysDead env db db' now now' token) :
    Settled env db' now' (changes ++ new) (o.witness env db') := by
  obtain ⟨phase, checkedAt, unbroken⟩ := o
  cases phase with
  | principal tokenId ownerId => exact hmoves.tokens.owns h
  | checked credential request => exact Settled.checked h hmoves
  | opened credential token =>
      intro hbroken row' hrow' hhash
      obtain ⟨row, hrow, hhash', hstays⟩ := hdead token rfl row' hrow' hhash
      exact hstays (h hbroken row hrow hhash')
  | _ => exact trivial

theorem staysDead_of_kept (hnow : now ≤ now') (htokens : TokensKept db db')
    (husers : UsersKept db db')
    (hsessions : ∀ row' ∈ db'.sessions.rows, ∃ row ∈ db.sessions.rows, SessionKept row row')
    (token : String) :
    StaysDead env db db' now now' token := by
  intro row' hrow' hhash
  obtain ⟨row, hrow, hkept⟩ := hsessions row' hrow'
  refine ⟨row, hrow, hkept.tokenHash.symm.trans hhash, fun hdead => ?_⟩
  exact hkept.dead hnow htokens (fun _ huser hinactive => .inr (husers.inactive huser hinactive)) hdead

/-- Users and tokens that are kept keep credentials valid, unless the token is revoked. -/
theorem moves_of_kept (htokens : TokensKept db db') (husers : UsersKept db db') :
    Moves env db db' now now' [] where
  tokens := htokens
  valid credential hvalid := by
    cases credential with
    | password userId text =>
        obtain ⟨user, huser, hrow⟩ := (Option.any_eq_true _ _).1 hvalid
        obtain ⟨user', huser', hactive, hhash⟩ := husers userId user huser
        refine .inl ((Option.any_eq_true _ _).2 ⟨user', huser', ?_⟩)
        rw [hactive, hhash]
        exact hrow
    | directory userId => exact .inl (husers.isActiveUser hvalid)
    | token tokenId ownerId =>
        obtain ⟨hactive, htoken⟩ := Bool.and_eq_true_iff.1 hvalid
        obtain ⟨token, hfind, _⟩ := (Option.any_eq_true _ _).1 htoken
        obtain ⟨token', hfind', _, _⟩ := htokens tokenId token hfind
        cases hrevoked : token'.revokedAt.isSome with
        | true => exact .inr (.inr ⟨tokenId, ownerId, rfl, token', hfind', hrevoked⟩)
        | false =>
            refine .inl (Bool.and_eq_true_iff.2 ⟨husers.isActiveUser hactive, ?_⟩)
            rw [hfind', Option.any_some, Option.isNone_iff_eq_none]
            simpa using hrevoked

theorem Settled.witness_eq {o : Opening} (h : Settled env db now changes o) :
    o.witness env db = o := by
  obtain ⟨phase, checkedAt, unbroken⟩ := o
  cases phase with
  | checked credential request =>
      have hvalid := Checked.valid h
      cases unbroken with
      | false => rfl
      | true => simp [Opening.witness, hvalid rfl]
  | _ => rfl

end Step

/-! ## Writes -/

section Writes

variable {env : Environment} {db db' : Database} {now : Instant}

theorem sessionKept_revokeSession (token : String) {row' : SessionRow}
    (h : row' ∈ (revokeSession env db now token).sessions.rows) :
    ∃ row ∈ db.sessions.rows, SessionKept row row' := by
  obtain ⟨row, hrow, rfl⟩ := List.mem_map.1 h
  refine ⟨row, hrow, ?_⟩
  split_ifs
  · exact ⟨rfl, rfl, rfl, rfl, fun _ => by simp⟩
  · exact .refl row

theorem noteUse_eq (env : Environment) (db : Database) (now : Instant) (token : String) :
    (noteUse env db now token).users = db.users ∧ (noteUse env db now token).tokens = db.tokens := by
  unfold noteUse
  split <;> exact ⟨rfl, rfl⟩

theorem sessionKept_noteUse (token : String) {row' : SessionRow}
    (h : row' ∈ (noteUse env db now token).sessions.rows) :
    ∃ row ∈ db.sessions.rows, SessionKept row row' := by
  unfold noteUse at h
  split at h
  · obtain ⟨row, hrow, rfl⟩ := List.mem_map.1 h
    refine ⟨row, hrow, ?_⟩
    split_ifs
    · exact ⟨rfl, rfl, rfl, rfl, id⟩
    · exact .refl row
  · exact ⟨row', h, .refl row'⟩

theorem tokensKept_revokeToken {tokenId : Int} {byUsername : Option String}
    (h : revokeToken db now tokenId byUsername = some db') :
    TokensKept db db' ∧ db'.users = db.users := by
  unfold revokeToken at h
  by_cases hlive : ((db.tokens.find? tokenId).any fun token => token.revokedAt.isNone) = true
  · rw [if_pos hlive] at h
    cases h
    refine ⟨fun id token htoken => ?_, rfl⟩
    refine ⟨_, by rw [Table.find?_mapRows, htoken]; rfl, ?_⟩
    dsimp only
    split_ifs
    · exact ⟨rfl, fun _ => rfl⟩
    · exact ⟨rfl, fun hsome => hsome⟩
  · rw [if_neg hlive] at h
    cases h

theorem sessionKept_revokeToken {tokenId : Int} {byUsername : Option String}
    (h : revokeToken db now tokenId byUsername = some db') {row' : SessionRow}
    (hrow' : row' ∈ db'.sessions.rows) :
    ∃ row ∈ db.sessions.rows, SessionKept row row' := by
  unfold revokeToken at h
  by_cases hlive : ((db.tokens.find? tokenId).any fun token => token.revokedAt.isNone) = true
  · rw [if_pos hlive] at h
    cases h
    obtain ⟨row, hrow, rfl⟩ := List.mem_map.1 hrow'
    refine ⟨row, hrow, ?_⟩
    split_ifs
    · exact ⟨rfl, rfl, rfl, rfl, fun _ => rfl⟩
    · exact .refl row
  · rw [if_neg hlive] at h
    cases h

/-- An inserted session is the only one of its token. -/
structure Inserted (env : Environment) (db : Database) (now : Instant) (request : SessionRequest)
    (sessionId token : String) (db' : Database) : Prop where
  refers : refersTo db request = true
  tokens : db'.tokens = db.tokens
  users : UsersKept db db'
  rows : ∀ row' ∈ db'.sessions.rows, row' ∈ db.sessions.rows ∨
    row' = sessionRow env now request sessionId token
  fresh : ∀ row' ∈ db'.sessions.rows, row'.tokenHash = env.sha256 token →
    row' = sessionRow env now request sessionId token

theorem usersKept_noteLogin (db : Database) (now : Instant) (request : SessionRequest)
    {db' : Database} (h : db'.users = noteLogin db now request) :
    UsersKept db db' := by
  intro userId user huser
  rw [h]
  unfold noteLogin
  split_ifs
  · exact ⟨user, huser, rfl, rfl⟩
  · refine ⟨_, by rw [Table.find?_mapRows, huser]; rfl, ?_⟩
    dsimp only
    split_ifs <;> exact ⟨rfl, rfl⟩

theorem inserted_of_createSession {request : SessionRequest} {sessionId token : String}
    (h : createSession env now db request sessionId token = some db') :
    Inserted env db now request sessionId token db' := by
  unfold createSession at h
  by_cases hrefers : refersTo db request = true
  · rw [if_pos hrefers] at h
    obtain ⟨sessions, hinsert, rfl⟩ := Option.map_eq_some_iff.1 h
    have hrows : ∀ row' ∈ sessions.rows, row' ∈ db.sessions.rows ∨
        row' = sessionRow env now request sessionId token := by
      intro row' hrow'
      rcases (Table.mem_insert? hinsert).1 hrow' with hold | hnew
      · exact .inl (Table.mem_filterRows.1 hold).1
      · exact .inr hnew
    refine ⟨hrefers, rfl, usersKept_noteLogin db now request rfl, hrows, ?_⟩
    intro row' hrow' hhash
    have hnew : sessionRow env now request sessionId token ∈ sessions.rows :=
      (Table.mem_insert? hinsert).2 (.inr rfl)
    exact List.inj_on_of_nodup_map sessions.ukNodup hrow' hnew hhash
  · rw [if_neg hrefers] at h
    cases h

/-- A provisioned user is active, and no other one has changed. -/
theorem provisioned {identity : Identity} {role newId : Int} {salt secret : String}
    (h : provisionLdapUser env now db identity role newId salt secret = some db') :
    (UsersKept db db' ∧ isActiveUser db' newId = true) ∧
      db'.tokens = db.tokens ∧ db'.sessions = db.sessions := by
  unfold provisionLdapUser at h
  obtain ⟨users, husers, h⟩ := Option.bind_eq_some_iff.1 h
  obtain ⟨userRoles, _, h⟩ := Option.bind_eq_some_iff.1 h
  cases h
  refine ⟨⟨fun userId user huser => ⟨user, ?_, rfl, rfl⟩, ?_⟩, rfl, rfl⟩
  · rw [Table.find?_insert? husers]
    split_ifs with hid
    · have hfree := Table.find?_eq_none_of_insert? husers
      rw [hid, huser] at hfree
      cases hfree
    · exact huser
  · have hfind : users.find? newId = some (provisionedRow env now identity newId salt secret) :=
      (Table.find?_insert? husers newId).trans (if_pos rfl)
    rw [isActiveUser, hfind]
    rfl

end Writes

/-! ## Updates of users -/

section UserUpdate

variable {env : Environment} {db db' : Database} {now : Instant} {userId : Int}
  {p : UserUpdateRequest} {requested : Option (List Int)} {salt : String}

theorem row_of_updated (h : Updated (env.hashPassword salt) now db userId p requested db') {u : Int}
    {user : UserRow} (huser : db.users.find? u = some user) :
    ∃ user', db'.users.find? u = some user' ∧
      (user' = user ∨ u = userId ∧ user' = changedUser (env.hashPassword salt) now p user) := by
  have hrow := h.users u
  rw [huser, Option.map_some] at hrow
  refine ⟨_, hrow, ?_⟩
  split_ifs with hid
  · exact .inr ⟨(Table.pk_of_find? huser).symm.trans hid.1, rfl⟩
  · exact .inl rfl

theorem isActiveUser_of_updated
    (h : Updated (env.hashPassword salt) now db userId p requested db') {u : Int}
    (hkeeps : u = userId → p.deactivates = false) (hactive : isActiveUser db u = true) :
    isActiveUser db' u = true := by
  obtain ⟨user, huser, htrue⟩ := isActiveUser_of_find? hactive
  obtain ⟨user', huser', hsame | ⟨hu, hchanged⟩⟩ := row_of_updated h huser
  · rw [isActiveUser, huser', Option.any_some, hsame, htrue]
  · rw [isActiveUser, huser', Option.any_some, hchanged]
    exact p.isActive_changedUser h.noNull (hkeeps hu) htrue

theorem verify_changedUser {text : String} {user : UserRow}
    (hkeeps : ((p.password.join.map (env.hashPassword salt)).any fun encoded =>
      !env.verifyPassword text encoded) = false)
    (hverify : env.verifyPassword text user.passwordHash = true) :
    env.verifyPassword text (changedUser (env.hashPassword salt) now p user).passwordHash = true := by
  unfold changedUser
  dsimp only
  cases hnew : p.password.join.map (env.hashPassword salt) with
  | none => exact hverify
  | some encoded =>
      rw [hnew] at hkeeps
      simpa using hkeeps

/-- Credentials that an update makes invalid are revoked by it. -/
theorem moves_of_updated (h : Updated (env.hashPassword salt) now db userId p requested db') :
    Moves env db db' now now [changeOf env userId p salt] where
  tokens := .of_eq h.tokens
  valid credential hvalid := by
    cases hrevokes : (changeOf env userId p salt).revokes env credential with
    | true => exact .inr (.inl ⟨_, List.mem_singleton_self _, hrevokes⟩)
    | false =>
        refine .inl ?_
        cases credential with
        | password u text =>
            obtain ⟨user, huser, hrow⟩ := (Option.any_eq_true _ _).1 hvalid
            obtain ⟨hactive, hverify⟩ := Bool.and_eq_true_iff.1 hrow
            obtain ⟨user', huser', hsame | ⟨hu, hchanged⟩⟩ := row_of_updated h huser
            · exact (Option.any_eq_true _ _).2 ⟨user', huser', by rw [hsame]; exact hrow⟩
            · subst hu
              simp only [Change.revokes, changeOf, decide_true, Bool.true_and,
                Bool.or_eq_false_iff] at hrevokes
              refine (Option.any_eq_true _ _).2 ⟨user', huser', ?_⟩
              rw [hchanged]
              exact Bool.and_eq_true_iff.2 ⟨p.isActive_changedUser h.noNull hrevokes.1 hactive,
                verify_changedUser hrevokes.2 hverify⟩
        | directory u =>
            refine isActiveUser_of_updated h (fun hu => ?_) hvalid
            simpa [Change.revokes, changeOf, hu] using hrevokes
        | token tokenId ownerId =>
            obtain ⟨hactive, htoken⟩ := Bool.and_eq_true_iff.1 hvalid
            refine Bool.and_eq_true_iff.2 ⟨isActiveUser_of_updated h (fun hu => ?_) hactive, ?_⟩
            · simpa [Change.revokes, changeOf, hu] using hrevokes
            · rw [h.tokens]
              exact htoken

theorem sessionKept_of_updated (h : Updated (env.hashPassword salt) now db userId p requested db')
    {row' : SessionRow} (hrow' : row' ∈ db'.sessions.rows) :
    ∃ row ∈ db.sessions.rows, SessionKept row row' ∧
      (p.revokesSessions = true → row.userId = userId → row'.revokedAt.isSome = true) := by
  rw [h.sessions] at hrow'
  by_cases hrevokes : p.revokesSessions = true
  · rw [if_pos hrevokes] at hrow'
    obtain ⟨row, hrow, rfl⟩ := List.mem_map.1 hrow'
    refine ⟨row, hrow, ?_⟩
    split_ifs with hlive
    · exact ⟨⟨rfl, rfl, rfl, rfl, fun _ => rfl⟩, fun _ _ => rfl⟩
    · refine ⟨.refl row, fun _ huser => ?_⟩
      exact Option.isSome_iff_ne_none.2 fun hnone => hlive ⟨huser, hnone⟩
  · rw [if_neg hrevokes] at hrow'
    exact ⟨row', hrow', .refl row', fun hyes => absurd hyes hrevokes⟩

theorem activates_of_changedUser {user : UserRow} (hinactive : user.isActive = false)
    (hactive : (changedUser (env.hashPassword salt) now p user).isActive = true) :
    p.isActive = some (some true) := by
  unfold changedUser at hactive
  dsimp only at hactive
  rcases hp : p.isActive with _ | _ | _ | _
  · rw [hp] at hactive
    exact absurd hactive (by simp [hinactive])
  · rw [hp] at hactive
    exact absurd hactive (by simp [hinactive])
  · rw [hp] at hactive
    cases hactive
  · rfl

/-- An orderly update brings no dead session back. -/
theorem staysDead_of_updated (h : Updated (env.hashPassword salt) now db userId p requested db')
    (hok : p.isActive = some (some true) → isActiveUser db userId = false →
      p.password.isSome = true ∨
        ∀ row ∈ db.sessions.rows, row.userId = userId → SessionRow.Over now row)
    (token : String) :
    StaysDead env db db' now now token := by
  intro row' hrow' hhash
  obtain ⟨row, hrow, hkept, hends⟩ := sessionKept_of_updated h hrow'
  refine ⟨row, hrow, hkept.tokenHash.symm.trans hhash, fun hdead => ?_⟩
  refine hkept.dead le_rfl (.of_eq h.tokens) (fun user huser hinactive => ?_) hdead
  obtain ⟨user', huser', hcase⟩ := row_of_updated h huser
  cases hactive : user'.isActive with
  | false => exact .inr ⟨user', huser', hactive⟩
  | true =>
      rcases hcase with rfl | ⟨hu, rfl⟩
      · rw [hinactive] at hactive
        cases hactive
      · have hold : isActiveUser db userId = false := by
          rw [isActiveUser, ← hu, huser, Option.any_some, hinactive]
        rcases hok (activates_of_changedUser hinactive hactive) hold with hpassword | hover
        · exact .inl (.inl (hends (by simp [UserUpdateRequest.revokesSessions, hpassword]) hu))
        · exact .inl (hkept.over le_rfl (hover row hrow hu))

end UserUpdate

/-! ## Steps of an opening -/

section Advance

variable {env : Environment} {db : Database} {now : Instant} {a : Answer} {changes : List Change}
  {o : Opening}

theorem find?_of_userByName {username : String} {f : UserRow → Bool} {userId : Int}
    (h : ((userByName db username).filter f).map UserRow.id = some userId) :
    ∃ user, db.users.find? userId = some user ∧ f user = true := by
  obtain ⟨user, hfilter, rfl⟩ := Option.map_eq_some_iff.1 h
  obtain ⟨hname, hf⟩ := Option.filter_eq_some_iff.1 hfilter
  exact ⟨user, Table.find?_of_mem (List.mem_of_find?_eq_some hname), hf⟩

theorem localUserRecord_active {username : String} {userId : Int}
    (h : localUserRecord env db username = some userId) :
    isActiveUser db userId = true := by
  unfold localUserRecord at h
  split_ifs at h
  obtain ⟨user, huser, hactive⟩ := find?_of_userByName h
  rw [isActiveUser, huser, Option.any_some, hactive]

theorem owns_of_authenticateToken {ip publicId secret : String} {token : TokenRow}
    (h : authenticateToken env db now ip publicId secret = some token) :
    Owns db token.id token.ownerUserId :=
  ⟨token, Table.find?_of_mem
    (List.mem_of_find?_eq_some (Option.filter_eq_some_iff.1 h).1), rfl⟩

theorem openSession_valid {tokenId ownerId : Int} {request : SessionRequest}
    (howns : Owns db tokenId ownerId) (h : openSession db now tokenId ownerId = some request) :
    credentialValid env db (.token tokenId ownerId) = true ∧
      Fits db request (.token tokenId ownerId) := by
  obtain ⟨token, hfilter, rfl⟩ := Option.map_eq_some_iff.1 h
  obtain ⟨hfind, hchecks⟩ := Option.filter_eq_some_iff.1 hfilter
  simp only [Bool.and_eq_true] at hchecks
  obtain ⟨token', hfind', howner⟩ := howns
  cases hfind.symm.trans hfind'
  refine ⟨Bool.and_eq_true_iff.2 ⟨howner ▸ hchecks.2, ?_⟩, rfl, ?_, token, hfind, howner⟩
  · rw [hfind, Option.any_some]
    exact hchecks.1.1
  · exact congrArg some (Table.pk_of_find? hfind)

/-- Neither are credentials checked, nor is a session opened. -/
def Phase.plain : Phase → Bool
  | .principal _ _ => false
  | .checked _ _ => false
  | .opened _ _ => false
  | _ => true

/-- Where a check of credentials leads: those that pass it are accepted by the rows. -/
inductive Leads (env : Environment) (db : Database) : Phase → Prop where
  | checked {credential : Credential} {request : SessionRequest}
      (hvalid : credentialValid env db credential = true) (hfits : Fits db request credential) :
      Leads env db (.checked credential request)
  | principal {tokenId ownerId : Int} (howns : Owns db tokenId ownerId) :
      Leads env db (.principal tokenId ownerId)
  | plain {phase : Phase} (h : Phase.plain phase = true) : Leads env db phase

theorem leads_afterRecord {otherwise : Phase} (hplain : Phase.plain otherwise = true)
    (username : String) :
    Leads env db (afterRecord env otherwise (localUserRecord env db username)) := by
  cases hfound : localUserRecord env db username with
  | none => exact .plain hplain
  | some userId => exact .checked (localUserRecord_active hfound) rfl

/-- Credentials that pass a check are accepted by the rows that it has read. -/
theorem advanceOpening_leads (h : Settled env db now changes o)
    (hfirst : ∀ c r, o.phase ≠ .checked c r) (hopen : ∀ c t, o.phase ≠ .opened c t) :
    Leads env (advanceOpening env now a db o.phase).2 (advanceOpening env now a db o.phase).1 := by
  obtain ⟨phase, checkedAt, unbroken⟩ := o
  cases phase with
  | login username password authType =>
      dsimp only [advanceOpening]
      split_ifs
      · exact .plain rfl
      · cases hfound : authenticate env db username password with
        | none =>
            unfold afterAuthenticate
            dsimp only
            split_ifs <;> exact .plain rfl
        | some userId =>
            obtain ⟨user, huser, hchecks⟩ := find?_of_userByName hfound
            exact .checked ((Option.any_eq_true _ _).2 ⟨user, huser, hchecks⟩) rfl
  | askDirectory =>
      dsimp only [advanceOpening]
      cases a.identity <;> exact .plain rfl
  | localRecord identity => exact leads_afterRecord rfl _
  | disabledRecord identity =>
      dsimp only [advanceOpening]
      split_ifs <;> exact .plain rfl
  | provision identity =>
      unfold advanceOpening
      dsimp only
      split
      · exact .plain rfl
      · split
        · exact .plain rfl
        · rename_i db' hprovisioned
          exact .checked (provisioned hprovisioned).1.2 rfl
  | adopt identity => exact leads_afterRecord rfl _
  | present ip publicId secret =>
      dsimp only [advanceOpening]
      cases hfound : authenticateToken env db now ip publicId secret with
      | none => exact .plain rfl
      | some token => exact .principal (owns_of_authenticateToken hfound)
  | principal tokenId ownerId =>
      dsimp only [advanceOpening]
      cases hfound : openSession db now tokenId ownerId with
      | none => exact .plain rfl
      | some request =>
          obtain ⟨hvalid, hfits⟩ := openSession_valid h hfound
          exact .checked hvalid hfits
  | checked c r => exact absurd rfl (hfirst c r)
  | opened c token => exact absurd rfl (hopen c token)
  | rejected => exact .plain rfl

theorem Leads.settled {phase : Phase} (h : Leads env db phase) :
    Settled env db now changes (o.moved env changes db phase) := by
  cases h with
  | checked hvalid hfits =>
      refine ⟨hfits, le_rfl, fun _ => hvalid, fun hbroken => ?_⟩
      rw [Opening.moved, hvalid] at hbroken
      cases hbroken
  | principal howns => exact howns
  | plain hplain => cases phase <;> first | exact trivial | cases hplain

/-- What a step of an opening does to the tables. -/
theorem advanceOpening_kept (env : Environment) (db : Database) (now : Instant) (a : Answer)
    (phase : Phase) :
    TokensKept db (advanceOpening env now a db phase).2 ∧
      UsersKept db (advanceOpening env now a db phase).2 ∧
      ∀ row' ∈ (advanceOpening env now a db phase).2.sessions.rows,
        row' ∈ db.sessions.rows ∨ row'.tokenHash = env.sha256 a.token := by
  cases phase with
  | provision identity =>
      unfold advanceOpening
      dsimp only
      split
      · exact ⟨.of_eq rfl, .of_eq rfl, fun _ h => .inl h⟩
      · split
        · exact ⟨.of_eq rfl, .of_eq rfl, fun _ h => .inl h⟩
        · rename_i db' hprovisioned
          obtain ⟨⟨husers, _⟩, htokens, hsessions⟩ := provisioned hprovisioned
          exact ⟨.of_eq htokens, husers, fun row' h => .inl (hsessions ▸ h)⟩
  | checked credential request =>
      unfold advanceOpening
      dsimp only
      split
      · exact ⟨.of_eq rfl, .of_eq rfl, fun _ h => .inl h⟩
      · rename_i db' hcreated
        have hinserted := inserted_of_createSession hcreated
        refine ⟨.of_eq hinserted.tokens, hinserted.users, fun row' h => ?_⟩
        rcases hinserted.rows row' h with hold | hnew
        · exact .inl hold
        · exact .inr (by rw [hnew]; rfl)
  | _ => exact ⟨.of_eq rfl, .of_eq rfl, fun _ h => .inl h⟩

/-- A session is inserted in time, or its user is not active, or its token is revoked. -/
theorem dead_of_inserted {credential : Credential} {request : SessionRequest} {db' : Database}
    (h : Checked env db changes o credential request) (hbroken : o.unbroken = false)
    (htime : isActiveUser db credential.userId = true →
      ∀ c ∈ changes.drop o.checkedAt, c.revokes env credential = false)
    (hinserted : Inserted env db now request a.sessionId a.token db') :
    Dead db' now (sessionRow env now request a.sessionId a.token) := by
  rcases h.overtaken hbroken with ⟨c, hc, hrevokes⟩ | ⟨tokenId, ownerId, rfl, hrevoked⟩
  · have hinactive : isActiveUser db credential.userId = false := by
      cases hactive : isActiveUser db credential.userId with
      | false => rfl
      | true =>
          rw [htime hactive c hc] at hrevokes
          cases hrevokes
    obtain ⟨user, huser⟩ := Option.isSome_iff_exists.1
      (Bool.and_eq_true_iff.1 hinserted.refers).1
    rw [isActiveUser, ← h.fits.userId, huser, Option.any_some] at hinactive
    exact .inr (.inl (hinserted.users.inactive huser hinactive))
  · have htokens : TokensKept db db' := .of_eq hinserted.tokens
    exact .inr (.inr ⟨tokenId, h.fits.2.1, htokens.tokenRevoked hrevoked⟩)

/-- What is known of an opening after its own step. -/
theorem Settled.moved {s : System} (h : Settled env s.db s.now s.changes o)
    (hok : o.InTime env s) :
    Settled env (advanceOpening env s.now a s.db o.phase).2 s.now s.changes
      (o.moved env s.changes (advanceOpening env s.now a s.db o.phase).2
        (advanceOpening env s.now a s.db o.phase).1) := by
  by_cases hopen : ∃ c t, o.phase = .opened c t
  · obtain ⟨credential, token, hphase⟩ := hopen
    rw [hphase]
    obtain ⟨phase, checkedAt, unbroken⟩ := o
    cases hphase
    exact h
  by_cases hfirst : ∃ c r, o.phase = .checked c r
  · obtain ⟨credential, request, hphase⟩ := hfirst
    rw [hphase]
    unfold Settled at h
    unfold Opening.InTime at hok
    rw [hphase] at h hok
    dsimp only [advanceOpening]
    cases hcreated : createSession env s.now s.db request a.sessionId a.token with
    | none => exact trivial
    | some db' =>
        have hinserted := inserted_of_createSession hcreated
        intro hbroken row hrow hhash
        rw [hinserted.fresh row hrow hhash]
        exact dead_of_inserted h hbroken hok hinserted
  · push Not at hopen hfirst
    exact (advanceOpening_leads h hfirst hopen).settled

end Advance

/-! ## Runs -/

/-- What is known of every opening is so. -/
def Inv (env : Environment) (s : System) : Prop :=
  ∀ o ∈ s.openings, Settled env s.db s.now s.changes o

section Invariant

variable {env : Environment} {s : System}

theorem inv_initial (env : Environment) (db : Database) (now : Instant) :
    Inv env (.initial db now) := by
  intro o ho
  cases ho

theorem Inv.honoured (h : Inv env s) :
    RevocationHonoured env s := by
  rintro ⟨phase, checkedAt, unbroken⟩ ho token htoken haccepted
  cases phase with
  | opened credential token' =>
      cases htoken
      cases unbroken with
      | true => rfl
      | false =>
          rw [getSessionUser_eq_none (h _ ho rfl)] at haccepted
          cases haccepted
  | _ => cases htoken

theorem Inv.commit (h : Inv env s) {db' : Database} (htokens : TokensKept s.db db')
    (husers : UsersKept s.db db')
    (hsessions : ∀ row' ∈ db'.sessions.rows, ∃ row ∈ s.db.sessions.rows, SessionKept row row') :
    Inv env (s.commit env db' s.openings) := by
  intro o' ho'
  obtain ⟨o, ho, rfl⟩ := List.mem_map.1 ho'
  have hkept : Settled env db' s.now (s.changes ++ []) (o.witness env db') :=
    (h o ho).kept (moves_of_kept htokens husers) fun token _ =>
      staysDead_of_kept (le_refl s.now) htokens husers hsessions token
  rwa [List.append_nil] at hkept

/-- A step of an opening keeps what is known. -/
theorem Inv.advance (h : Inv env s) {i : Nat} {a : Answer} {o : Opening}
    (ho : s.openings[i]? = some o) (hok : o.InTime env s) (hdrawn : s.drawn env a.token = false) :
    Inv env (s.commit env (advanceOpening env s.now a s.db o.phase).2
      (s.openings.set i (o.moved env s.changes (advanceOpening env s.now a s.db o.phase).2
        (advanceOpening env s.now a s.db o.phase).1))) := by
  intro o' ho'
  obtain ⟨o₂, ho₂, rfl⟩ := List.mem_map.1 ho'
  rcases List.mem_or_eq_of_mem_set ho₂ with hold | rfl
  · obtain ⟨htokens, husers, hsessions⟩ :=
      advanceOpening_kept env s.db s.now a o.phase
    have hkept : Settled env _ s.now (s.changes ++ []) _ :=
      (h o₂ hold).kept (moves_of_kept htokens husers) fun token htoken row' hrow' hhash => by
        rcases hsessions row' hrow' with hrow | hnew
        · refine ⟨row', hrow, hhash, fun hdead => ?_⟩
          exact (SessionKept.refl row').dead le_rfl htokens
            (fun _ huser hinactive => .inr (husers.inactive huser hinactive)) hdead
        · have hused : s.drawn env a.token = true :=
            List.any_eq_true.2 ⟨o₂, hold, (Option.any_eq_true _ _).2
              ⟨token, htoken, decide_eq_true (hhash.symm.trans hnew)⟩⟩
          rw [hdrawn] at hused
          cases hused
    rwa [List.append_nil] at hkept
  · have hmoved := (h o (List.mem_of_getElem? ho)).moved (a := a) hok
    rw [hmoved.witness_eq]
    exact hmoved

/-- An orderly step keeps what is known of the openings. -/
theorem Inv.step (h : Inv env s) {e : Event} (hok : Orderly env s e) :
    Inv env (step env s e) := by
  cases e with
  | tick d =>
      intro o ho
      have hkept : Settled env s.db (s.now + d) (s.changes ++ []) (o.witness env s.db) :=
        (h o ho).kept (moves_of_kept (.of_eq rfl) (.of_eq rfl)) fun token _ =>
          staysDead_of_kept (Int.le_add_of_nonneg_right (Int.natCast_nonneg d)) (.of_eq rfl)
            (.of_eq rfl) (fun row hrow => ⟨row, hrow, .refl row⟩) token
      rwa [List.append_nil, (h o ho).witness_eq] at hkept
  | login username password authType =>
      intro o ho
      rcases List.mem_append.1 ho with hold | hnew
      · exact h o hold
      · rw [List.mem_singleton.1 hnew]
        exact trivial
  | present ip publicId secret =>
      intro o ho
      rcases List.mem_append.1 ho with hold | hnew
      · exact h o hold
      · rw [List.mem_singleton.1 hnew]
        exact trivial
  | advance i a =>
      unfold Credentials.step
      dsimp only
      cases ho : s.openings[i]? with
      | none => exact h
      | some o =>
          dsimp only
          split_ifs with hdrawn
          · exact h
          · exact h.advance ho (hok o ho) (by simpa using hdrawn)
  | update userId p actorId salt =>
      unfold Credentials.step
      dsimp only
      cases hresult : updateUser (env.hashPassword salt) s.now s.db userId p actorId with
      | error e => exact h
      | ok db' =>
          obtain ⟨requested, hupdated⟩ := updated_of_updateUser hresult
          intro o' ho'
          obtain ⟨o, ho, rfl⟩ := List.mem_map.1 ho'
          exact (h o ho).kept (moves_of_updated hupdated) fun token _ =>
            staysDead_of_updated hupdated hok token
  | revokeToken tokenId byUsername =>
      unfold Credentials.step
      dsimp only
      cases hresult : revokeToken s.db s.now tokenId byUsername with
      | none => exact h
      | some db' =>
          obtain ⟨htokens, husers⟩ := tokensKept_revokeToken hresult
          exact h.commit htokens (.of_eq husers) fun row' hrow' =>
            sessionKept_revokeToken hresult hrow'
  | logout token =>
      exact h.commit (.of_eq rfl) (.of_eq rfl) fun row' hrow' =>
        sessionKept_revokeSession token hrow'
  | useSession token =>
      obtain ⟨husers, htokens⟩ := noteUse_eq env s.db s.now token
      exact h.commit (.of_eq htokens) (.of_eq husers) fun row' hrow' =>
        sessionKept_noteUse token hrow'

end Invariant

/--
In a run whose steps are all orderly no session is ever accepted that was opened on the strength of
credentials that were revoked between their check and its insertion.
-/
theorem revocation_honoured (env : Environment) (db : Database) (now : Instant) (es : List Event)
    (h : Along (step env) (Orderly env) (.initial db now) es) :
    Along (step env) (fun s e => RevocationHonoured env (Credentials.step env s e))
      (.initial db now) es :=
  h.ensures (fun _ _ hinv hok => hinv.step hok) (fun _ _ hinv hok => (hinv.step hok).honoured)
    (inv_initial env db now)

/-- Texts stand for their hashes, and a session lasts eight hours. -/
def plainEnvironment : Environment where
  lower := id
  hashPassword salt password := salt ++ password
  verifyPassword password encoded := decide (encoded = "s" ++ password)
  sha256 := id
  sessionHours := 8
  ipAllowed _ _ := false

/-- One active user. -/
def oneUser : Database where
  users := ⟨[⟨1, "user", "User", "sold password", true, 0, 0, none⟩], by decide, by decide⟩
  roles := ⟨[], by decide, by decide⟩
  userRoles := ⟨[], by decide⟩
  sessions := .empty
  tokens := .empty

/-- A request that sets fields of a user. -/
def userChange (password : Option String) (isActive : Option Bool) : UserUpdateRequest where
  displayName := none
  password := password.map some
  roleIds := none
  role := none
  isActive := isActive.map some

/-- The session with this id and token. -/
def drawnSession (text : String) : Answer where
  identity := none
  newUserId := 0
  salt := ""
  secret := ""
  sessionId := text
  token := text

/-- The password is replaced after it has been checked and before the session is inserted. -/
def overtakenLogin : List Event :=
  [.login "user" "old password" .auto, .advance 0 (drawnSession "a"),
    .update 1 (userChange (some "new password") none) 2 "s", .advance 0 (drawnSession "a")]

/-- The same, but the session is inserted before the user is deactivated and activated again. -/
def timelyLogin : List Event :=
  [.login "user" "old password" .auto, .advance 0 (drawnSession "a"), .advance 0 (drawnSession "a"),
    .update 1 (userChange none (some false)) 2 "s", .update 1 (userChange none (some true)) 2 "s"]

theorem timelyLogin_honoured :
    Along (step plainEnvironment)
      (fun s e => RevocationHonoured plainEnvironment (step plainEnvironment s e))
      (.initial oneUser 0) timelyLogin :=
  revocation_honoured plainEnvironment oneUser 0 timelyLogin (by decide +kernel)

/-- A session that is opened with a password that has been replaced is accepted. -/
theorem overtakenLogin_accepted :
    ¬ RevocationHonoured plainEnvironment
      (run (step plainEnvironment) (.initial oneUser 0) overtakenLogin) := by
  decide +kernel

/-- So is one that is inserted after its user has been deactivated, once the user is active. -/
example :
    ¬ RevocationHonoured plainEnvironment (run (step plainEnvironment) (.initial oneUser 0)
      [.login "user" "old password" .auto, .advance 0 (drawnSession "a"),
        .update 1 (userChange none (some false)) 2 "s", .advance 0 (drawnSession "a"),
        .update 1 (userChange none (some true)) 2 "s"]) := by
  decide +kernel

end Credentials
end Auth
end MpvmApp
