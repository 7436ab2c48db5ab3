import MpvmApp.Auth.McpTokens
import MpvmApp.Lib.Tally

/-!
# Sessions of access tokens are confined

A session of a token carries the permissions of the scopes of the token, and it is looked up
together with the token.  Tokens keep their owners and scopes, stay revoked and expire no later,
whatever is done with them, so that a session can be judged by the token as it is now.

An owner has at most as many active tokens as are allowed: the one transaction that has the owner
locked is the only one that can add a token of this owner, and it has counted them.

Main definitions:

- Definition `NoLonger`: no token lives longer than before.
- Definition `Confined`: what a step may grant to a session of a token.
- Definition `Refuses`: a token that has ended opens no request.

Main results:

- Theorem `Inv.step`: the cap of every session is that of its token, and every owner has room
  for the tokens that are being issued.
- Theorem `tokens_confined`: confinement in every run.
-/

namespace MpvmApp
namespace Auth
namespace McpTokens

open Runs

/-! ## What is asked for -/

/-- A token keeps its owner and its scopes, stays revoked, and expires no later. -/
structure TokenOnward (token token' : TokenRow) : Prop where
  ownerUserId : token'.ownerUserId = token.ownerUserId
  scopes : token'.scopes = token.scopes
  revokedAt : token.revokedAt.isSome = true → token'.revokedAt.isSome = true
  expiresAt : token'.expiresAt ≤ token.expiresAt

/-- No token lives longer than before. -/
def NoLonger (db db' : Database) : Prop :=
  ∀ tokenId token, db.tokens.find? tokenId = some token →
    ∃ token', db'.tokens.find? tokenId = some token' ∧ TokenOnward token token'

/-- A token is stored, and it is revoked or has expired at a time. -/
def Ended (db : Database) (tokenId : Int) (now : Instant) : Prop :=
  ∃ token, db.tokens.find? tokenId = some token ∧
    (token.revokedAt.isSome = true ∨ token.expiresAt ≤ now)

section Requirements

variable (env : Environment) (ipNetwork : String → Option String)

/-- What a step may grant to a session of a token. -/
structure Confined (s : System) (e : Event) : Prop where
  /-- A request is accepted with a token that is valid, for an active owner. -/
  accepted : ∀ (i : Nat) (cookie : String) (current begunAt : Instant) (session : SessionRow),
    s.requests[i]? = some (.begun cookie current begunAt) →
    (step env ipNetwork s e).requests[i]? = some (.found session) →
    ∀ tokenId ∈ session.mcpTokenId, isActiveUser s.db session.userId = true ∧
      ∃ token, s.db.tokens.find? tokenId = some token ∧ token.ownerUserId = session.userId ∧
        token.revokedAt = none ∧ begunAt < token.expiresAt
  /-- The permissions are read permissions, of the scopes of the token and of its owner. -/
  authorised : ∀ (i : Nat) (session : SessionRow) (permissions : List String),
    s.requests[i]? = some (.found session) →
    (step env ipNetwork s e).requests[i]? = some (.authorised session permissions) →
    ∀ tokenId ∈ session.mcpTokenId,
      ∃ token, s.db.tokens.find? tokenId = some token ∧ token.ownerUserId = session.userId ∧
        ∀ permission ∈ permissions, isRead permission = true ∧
          permission ∈ scopePermissions token.scopes ∧
          permission ∈ permissionsForUser s.db s.rolePermissions token.ownerUserId
  /-- No token lives longer, be it replaced or not. -/
  noLonger : NoLonger s.db (step env ipNetwork s e).db

/-- A token that had ended in an earlier state of the tables opens no request. -/
def Refuses (earlier : Database) (s : System) (e : Event) : Prop :=
  ∀ (i : Nat) (cookie : String) (current begunAt : Instant) (session : SessionRow) (tokenId : Int),
    s.requests[i]? = some (.begun cookie current begunAt) →
    (step env ipNetwork s e).requests[i]? = some (.found session) →
    session.mcpTokenId = some tokenId → ¬ Ended earlier tokenId begunAt

end Requirements

/-! ## What the writes keep -/

theorem TokenOnward.refl (token : TokenRow) :
    TokenOnward token token :=
  ⟨rfl, rfl, id, le_refl _⟩

theorem TokenOnward.trans {a b c : TokenRow} (h : TokenOnward a b) (h' : TokenOnward b c) :
    TokenOnward a c :=
  ⟨h'.ownerUserId.trans h.ownerUserId, h'.scopes.trans h.scopes,
    fun hsome => h'.revokedAt (h.revokedAt hsome), le_trans h'.expiresAt h.expiresAt⟩

theorem NoLonger.of_eq {db db' : Database} (h : db'.tokens = db.tokens) :
    NoLonger db db' := fun _ token htoken => ⟨token, by rw [h]; exact htoken, .refl token⟩

theorem NoLonger.trans {a b c : Database} (h : NoLonger a b) (h' : NoLonger b c) :
    NoLonger a c := by
  intro tokenId token htoken
  obtain ⟨token', htoken', honward⟩ := h tokenId token htoken
  obtain ⟨token'', htoken'', honward'⟩ := h' tokenId token' htoken'
  exact ⟨token'', htoken'', honward.trans honward'⟩

theorem NoLonger.ended {db db' : Database} (h : NoLonger db db') {tokenId : Int} {now : Instant}
    (hended : Ended db tokenId now) :
    Ended db' tokenId now := by
  obtain ⟨token, htoken, hover⟩ := hended
  obtain ⟨token', htoken', honward⟩ := h tokenId token htoken
  refine ⟨token', htoken', ?_⟩
  rcases hover with hrevoked | hexpired
  · exact .inl (honward.revokedAt hrevoked)
  · exact .inr (le_trans honward.expiresAt hexpired)

theorem isActive_of_onward {token token' : TokenRow} (h : TokenOnward token token')
    {ownerUserId : Int} {now now' : Instant} (hnow : now ≤ now')
    (hactive : isActive ownerUserId now' token' = true) :
    isActive ownerUserId now token = true := by
  simp only [isActive, Bool.and_eq_true, decide_eq_true_eq] at hactive ⊢
  obtain ⟨⟨howner, hlive⟩, hexpires⟩ := hactive
  refine ⟨⟨h.ownerUserId ▸ howner, ?_⟩, ?_⟩
  · by_contra hrevoked
    rw [← Option.not_isSome, Bool.not_eq_true', Bool.not_eq_false] at hrevoked
    have hrevoked' := h.revokedAt hrevoked
    rw [Option.isNone_iff_eq_none.1 hlive] at hrevoked'
    cases hrevoked'
  · exact lt_of_le_of_lt hnow (lt_of_lt_of_le hexpires h.expiresAt)

/-- What a write does that adds no token: none lives longer, and sessions keep what they are. -/
structure Keeps (db db' : Database) : Prop where
  tokens : NoLonger db db'
  count : ∀ ownerUserId now, countActive db' ownerUserId now ≤ countActive db ownerUserId now
  sessions : ∀ row' ∈ db'.sessions.rows, ∃ row ∈ db.sessions.rows,
    row'.mcpTokenId = row.mcpTokenId ∧ row'.userId = row.userId ∧
      row'.permissionCap = row.permissionCap

theorem Keeps.refl (db : Database) :
    Keeps db db :=
  ⟨.of_eq rfl, fun _ _ => Nat.le_refl _, fun row hrow => ⟨row, hrow, rfl, rfl, rfl⟩⟩

theorem keeps_of_tokens_eq {db db' : Database} (htokens : db'.tokens = db.tokens)
    (hsessions : ∀ row' ∈ db'.sessions.rows, ∃ row ∈ db.sessions.rows,
      row'.mcpTokenId = row.mcpTokenId ∧ row'.userId = row.userId ∧
        row'.permissionCap = row.permissionCap) :
    Keeps db db' :=
  ⟨.of_eq htokens, fun _ _ => by rw [countActive, htokens]; exact Nat.le_refl _, hsessions⟩

/-- A write to each token and to each session that lets none live longer. -/
theorem keeps_mapRows {db db' : Database} {f : TokenRow → TokenRow} {g : SessionRow → SessionRow}
    (hid : ∀ token, (f token).id = token.id)
    (htokens : db'.tokens.rows = db.tokens.rows.map f)
    (honward : ∀ token, TokenOnward token (f token))
    (hsessions : db'.sessions.rows = db.sessions.rows.map g)
    (hsame : ∀ row, (g row).mcpTokenId = row.mcpTokenId ∧ (g row).userId = row.userId ∧
      (g row).permissionCap = row.permissionCap) :
    Keeps db db' where
  tokens tokenId token htoken := by
    have hmem : f token ∈ db'.tokens := by
      rw [Table.mem_def, htokens]
      exact List.mem_map_of_mem (Table.mem_of_find? htoken)
    refine ⟨f token, ?_, honward token⟩
    rw [← Table.pk_of_find? htoken, ← hid token]
    exact Table.find?_of_mem hmem
  count ownerUserId now := by
    rw [countActive, countActive, htokens, List.countP_map]
    exact List.countP_mono_left fun token _ hactive =>
      isActive_of_onward (honward token) (le_refl now) hactive
  sessions row' hrow' := by
    rw [hsessions] at hrow'
    obtain ⟨row, hrow, rfl⟩ := List.mem_map.1 hrow'
    exact ⟨row, hrow, hsame row⟩

theorem keeps_revoke (db : Database) (tokenId : Int) (byUsername : Option String) (now : Instant) :
    Keeps db (revoke db tokenId byUsername now) := by
  refine keeps_mapRows (fun token => ?_) rfl (fun token => ?_) rfl fun row => ?_
  · split_ifs <;> rfl
  · split_ifs
    · exact ⟨rfl, rfl, fun _ => rfl, le_refl _⟩
    · exact .refl token
  · split_ifs <;> exact ⟨rfl, rfl, rfl⟩

theorem keeps_limitExpiry (db : Database) (tokenId : Int) (expiresAt : Instant) :
    Keeps db (limitExpiry db tokenId expiresAt) := by
  refine keeps_mapRows (fun token => ?_) rfl (fun token => ?_) rfl fun row => ?_
  · split_ifs <;> rfl
  · split_ifs
    · exact ⟨rfl, rfl, id, min_le_left _ _⟩
    · exact .refl token
  · split_ifs <;> exact ⟨rfl, rfl, rfl⟩

theorem keeps_retire (db : Database) (rotation : Option Rotation) :
    Keeps db (retire db rotation) := by
  cases rotation with
  | none => exact .refl db
  | some rotation =>
      unfold retire
      dsimp only
      split_ifs
      · exact keeps_revoke _ _ _ _
      · exact keeps_limitExpiry _ _ _

theorem keeps_noteUse (env : Environment) (db : Database) (current : Instant) (cookie : String) :
    Keeps db (noteUse env db current cookie) := by
  refine keeps_of_tokens_eq rfl fun row' hrow' => ?_
  obtain ⟨row, hrow, rfl⟩ := List.mem_map.1 hrow'
  refine ⟨row, hrow, ?_⟩
  split_ifs <;> exact ⟨rfl, rfl, rfl⟩

theorem keeps_revokeSession (env : Environment) (db : Database) (now : Instant) (cookie : String) :
    Keeps db (Credentials.revokeSession env db now cookie) := by
  refine keeps_of_tokens_eq rfl fun row' hrow' => ?_
  obtain ⟨row, hrow, rfl⟩ := List.mem_map.1 hrow'
  refine ⟨row, hrow, ?_⟩
  split_ifs <;> exact ⟨rfl, rfl, rfl⟩

theorem keeps_revokeToken {db db' : Database} {now : Instant} {tokenId : Int}
    {byUsername : Option String} (h : revokeToken db now tokenId byUsername = .ok db') :
    Keeps db db' := by
  unfold revokeToken at h
  split at h
  · cases h
  · split_ifs at h
    cases h
    exact keeps_revoke _ _ _ _

theorem keeps_of_updateUser {hash : String → String} {db db' : Database} {now : Instant}
    {userId : Int} {p : UserUpdateRequest} {actorId : Int}
    (h : updateUser hash now db userId p actorId = .ok db') :
    Keeps db db' := by
  obtain ⟨requested, hupdated⟩ := updated_of_updateUser h
  refine keeps_of_tokens_eq hupdated.tokens fun row' hrow' => ?_
  rw [hupdated.sessions] at hrow'
  split_ifs at hrow'
  · obtain ⟨row, hrow, rfl⟩ := List.mem_map.1 hrow'
    refine ⟨row, hrow, ?_⟩
    split_ifs <;> exact ⟨rfl, rfl, rfl⟩
  · exact ⟨row', hrow', rfl, rfl, rfl⟩

/-! ## The caps of sessions -/

/-- What is stored of a session of a token is what the token gives. -/
def CapBound (db : Database) (mcpTokenId : Option Int) (userId : Int)
    (permissionCap : Option (List String)) : Prop :=
  ∀ tokenId ∈ mcpTokenId, ∃ token, db.tokens.find? tokenId = some token ∧
    token.ownerUserId = userId ∧ permissionCap = some (scopePermissions token.scopes)

theorem capBound_none (db : Database) (userId : Int) (permissionCap : Option (List String)) :
    CapBound db none userId permissionCap :=
  nofun

theorem CapBound.kept {db db' : Database} {mcpTokenId : Option Int} {userId : Int}
    {permissionCap : Option (List String)} (h : CapBound db mcpTokenId userId permissionCap)
    (htokens : NoLonger db db') :
    CapBound db' mcpTokenId userId permissionCap := by
  intro tokenId hid
  obtain ⟨token, htoken, howner, hcap⟩ := h tokenId hid
  obtain ⟨token', htoken', honward⟩ := htokens tokenId token htoken
  exact ⟨token', htoken', honward.ownerUserId.trans howner, by rw [honward.scopes]; exact hcap⟩

/-- What is known of an opening. -/
def PhaseBound (db : Database) : Phase → Prop
  | .principal tokenId ownerId => Credentials.Owns db tokenId ownerId
  | .checked _ request => CapBound db request.mcpTokenId request.userId request.permissionCap
  | _ => True

theorem PhaseBound.kept {db db' : Database} {phase : Phase} (h : PhaseBound db phase)
    (htokens : NoLonger db db') :
    PhaseBound db' phase := by
  cases phase with
  | principal tokenId ownerId =>
      obtain ⟨token, htoken, howner⟩ := h
      obtain ⟨token', htoken', honward⟩ := htokens tokenId token htoken
      exact ⟨token', htoken', honward.ownerUserId.trans howner⟩
  | checked credential request => exact CapBound.kept h htokens
  | _ => trivial

/-- What is known of a request. -/
def RequestBound (db : Database) : Request → Prop
  | .found session => CapBound db session.mcpTokenId session.userId session.permissionCap
  | _ => True

theorem RequestBound.kept {db db' : Database} {request : Request} (h : RequestBound db request)
    (htokens : NoLonger db db') :
    RequestBound db' request := by
  cases request with
  | found session => exact CapBound.kept h htokens
  | _ => trivial

theorem capBound_of_openSession {db : Database} {now : Instant} {tokenId ownerId : Int}
    {request : SessionRequest} (howns : Credentials.Owns db tokenId ownerId)
    (h : openSession db now tokenId ownerId = some request) :
    CapBound db request.mcpTokenId request.userId request.permissionCap := by
  obtain ⟨token, hfilter, rfl⟩ := Option.map_eq_some_iff.1 h
  obtain ⟨hfind, -⟩ := Option.filter_eq_some_iff.1 hfilter
  obtain ⟨token', hfind', howner⟩ := howns
  cases hfind.symm.trans hfind'
  intro id hid
  cases hid
  refine ⟨token, ?_, howner, rfl⟩
  rw [Table.pk_of_find? hfind]
  exact hfind

theorem phaseBound_afterRecord (env : Environment) (db : Database) {otherwise : Phase}
    (h : PhaseBound db otherwise) (found : Option Int) :
    PhaseBound db (afterRecord env otherwise found) := by
  cases found with
  | none => exact h
  | some userId => exact capBound_none _ _ _

/-- A step of an opening asks for sessions, and inserts them, with the caps of their tokens. -/
theorem advanceOpening_bound (env : Environment) {db : Database} (now : Instant) (a : Answer)
    {phase : Phase} (h : PhaseBound db phase) :
    (advanceOpening env now a db phase).2.tokens = db.tokens ∧
      PhaseBound db (advanceOpening env now a db phase).1 ∧
      ∀ row' ∈ (advanceOpening env now a db phase).2.sessions.rows, row' ∈ db.sessions.rows ∨
        CapBound db row'.mcpTokenId row'.userId row'.permissionCap := by
  cases phase with
  | login username password authType =>
      refine ⟨rfl, ?_, fun _ hrow => .inl hrow⟩
      dsimp only [advanceOpening]
      split_ifs
      · exact trivial
      · cases authenticate env db username password with
        | none =>
            unfold afterAuthenticate
            dsimp only
            split_ifs <;> exact trivial
        | some userId => exact capBound_none _ _ _
  | askDirectory =>
      refine ⟨rfl, ?_, fun _ hrow => .inl hrow⟩
      dsimp only [advanceOpening]
      cases a.identity <;> exact trivial
  | localRecord identity =>
      refine ⟨rfl, phaseBound_afterRecord env db ?_ _, fun _ hrow => .inl hrow⟩
      exact trivial
  | disabledRecord identity =>
      refine ⟨rfl, ?_, fun _ hrow => .inl hrow⟩
      dsimp only [advanceOpening]
      split_ifs <;> exact trivial
  | provision identity =>
      unfold advanceOpening
      dsimp only
      split
      · exact ⟨rfl, trivial, fun _ hrow => .inl hrow⟩
      · split
        · exact ⟨rfl, trivial, fun _ hrow => .inl hrow⟩
        · rename_i db' hprovisioned
          obtain ⟨-, htokens, hsessions⟩ := Credentials.provisioned hprovisioned
          exact ⟨htokens, capBound_none _ _ _, fun _ hrow => .inl (hsessions ▸ hrow)⟩
  | adopt identity =>
      refine ⟨rfl, phaseBound_afterRecord env db ?_ _, fun _ hrow => .inl hrow⟩
      exact trivial
  | present ip publicId secret =>
      refine ⟨rfl, ?_, fun _ hrow => .inl hrow⟩
      dsimp only [advanceOpening]
      cases hfound : authenticateToken env db now ip publicId secret with
      | none => exact trivial
      | some token => exact Credentials.owns_of_authenticateToken hfound
  | principal tokenId ownerId =>
      refine ⟨rfl, ?_, fun _ hrow => .inl hrow⟩
      dsimp only [advanceOpening]
      cases hfound : openSession db now tokenId ownerId with
      | none => exact trivial
      | some request => exact capBound_of_openSession h hfound
  | checked credential request =>
      unfold advanceOpening
      dsimp only
      split
      · exact ⟨rfl, trivial, fun _ hrow => .inl hrow⟩
      · rename_i db' hcreated
        have hinserted := Credentials.inserted_of_createSession hcreated
        refine ⟨hinserted.tokens, trivial, fun row' hrow' => ?_⟩
        rcases hinserted.rows row' hrow' with hold | rfl
        · exact .inl hold
        · exact .inr h
  | opened credential token => exact ⟨rfl, trivial, fun _ hrow => .inl hrow⟩
  | rejected => exact ⟨rfl, trivial, fun _ hrow => .inl hrow⟩

/-! ## The transactions that issue tokens -/

/-- How often a transaction has the row of an owner locked. -/
def ownerLock (ownerUserId : Int) (x : Issue) : Nat :=
  x.ownerLocks.count ownerUserId

/-- A transaction is going to insert a token of an owner whose tokens it has counted. -/
def admitted (ownerUserId : Int) : Issue → Nat
  | .counted request _ => if request.ownerUserId = ownerUserId then 1 else 0
  | _ => 0

theorem admitted_le (ownerUserId : Int) (x : Issue) :
    admitted ownerUserId x ≤ ownerLock ownerUserId x := by
  cases x with
  | counted request rotation =>
      simp only [admitted, ownerLock, Issue.ownerLocks, List.count_singleton, beq_iff_eq]
      exact Nat.le_refl _
  | _ => exact Nat.zero_le _

@[simp]
theorem ownerLock_abort (ownerUserId : Int) (x : Issue) :
    ownerLock ownerUserId x.abort = 0 := by
  cases x <;> rfl

theorem idle_createToken (ipNetwork : String → Option String) (ownerUserId owner : Int)
    (scopes ipAllowlist : List String) (expiresInDays : Int) :
    ownerLock owner (createToken ipNetwork ownerUserId scopes ipAllowlist expiresInDays) = 0 ∧
      admitted owner (createToken ipNetwork ownerUserId scopes ipAllowlist expiresInDays) = 0 := by
  unfold createToken
  cases validateScopes scopes with
  | error e => exact ⟨rfl, rfl⟩
  | ok scopes =>
      dsimp only
      cases validateIpAllowlist ipNetwork ipAllowlist with
      | error e => exact ⟨rfl, rfl⟩
      | ok ipAllowlist => exact ⟨rfl, rfl⟩

/-- An inserted token is one more of its owner, and the others are as they were. -/
theorem insertToken {db : Database} {token : TokenRow}
    {tokens : Table TokenRow TokenRow.id TokenRow.publicId}
    (h : db.tokens.insert? token = some tokens) :
    NoLonger db { db with tokens } ∧ ∀ ownerUserId now,
      countActive { db with tokens } ownerUserId now ≤
        countActive db ownerUserId now + (if token.ownerUserId = ownerUserId then 1 else 0) := by
  refine ⟨fun tokenId old hold => ⟨old, ?_, .refl old⟩, fun ownerUserId now => ?_⟩
  · rw [Table.find?_insert? h]
    split_ifs with hid
    · have hfree := Table.find?_eq_none_of_insert? h
      rw [hid, hold] at hfree
      cases hfree
    · exact hold
  · rw [countActive, countActive, Table.rows_of_insert? h, List.countP_append,
      List.countP_singleton]
    by_cases howner : token.ownerUserId = ownerUserId
    · rw [if_pos howner]
      split_ifs <;> omega
    · have hother : isActive ownerUserId now token = false := by simp [isActive, howner]
      rw [if_neg howner, hother]
      exact Nat.le_refl _

/-- What the next statement of a transaction does, with the owner that it locks or counts for. -/
inductive Issues (db : Database) (now : Instant) (ownerHeld : Int → Bool) :
    Issue → Issue → Database → Prop where
  /-- Nothing is written, and no owner is locked. -/
  | idle {x x' : Issue} (hlock : ∀ o, ownerLock o x' = 0) : Issues db now ownerHeld x x' db
  /-- The transaction waits. -/
  | waits {x : Issue} : Issues db now ownerHeld x x db
  /-- The owner is locked, which no other transaction has locked. -/
  | locks {request : IssueRequest} {rotation : Option Rotation}
      (hfree : ownerHeld request.ownerUserId = false) :
      Issues db now ownerHeld (.issuing request rotation) (.locked request rotation) db
  /-- The active tokens of the owner are fewer than allowed. -/
  | counts {request : IssueRequest} {rotation : Option Rotation}
      (hroom : countActive db request.ownerUserId now < maxActiveTokensPerOwner) :
      Issues db now ownerHeld (.locked request rotation) (.counted request rotation) db
  /-- The token is inserted, and the one that it replaces is retired. -/
  | inserts {request : IssueRequest} {rotation : Option Rotation} {x' : Issue} {db₁ db' : Database}
      (hidle : ∀ o, ownerLock o x' = 0) (htokens : NoLonger db db₁)
      (hsessions : db₁.sessions = db.sessions)
      (hcount : ∀ o t, countActive db₁ o t ≤
        countActive db o t + (if request.ownerUserId = o then 1 else 0))
      (hretires : Keeps db₁ db') :
      Issues db now ownerHeld (.counted request rotation) x' db'

/-- What a statement of a transaction can do. -/
theorem issues_advance (env : Environment) (now : Instant) (tokenHeld ownerHeld : Int → Bool)
    (newId : Int) (publicId secret : String) (db : Database) (x : Issue) :
    Issues db now ownerHeld x
      (x.advance env now tokenHeld ownerHeld newId publicId secret db).1
      (x.advance env now tokenHeld ownerHeld newId publicId secret db).2 := by
  cases x with
  | rotating rotation expiresInDays =>
      unfold Issue.advance
      dsimp only
      cases db.tokens.find? rotation.tokenId with
      | none => exact .idle fun _ => rfl
      | some old =>
          dsimp only
          split_ifs
          · exact .waits
          · exact .idle fun _ => rfl
          · exact .idle fun _ => rfl
  | issuing request rotation =>
      unfold Issue.advance
      dsimp only
      cases db.users.find? request.ownerUserId with
      | none => exact .idle fun _ => rfl
      | some owner =>
          dsimp only
          split_ifs with hheld hactive
          · exact .waits
          · exact .locks (Bool.eq_false_iff.2 hheld)
          · exact .idle fun _ => rfl
  | locked request rotation =>
      unfold Issue.advance
      dsimp only
      split_ifs with hfull
      · exact .idle fun _ => rfl
      · exact .counts (by omega)
  | counted request rotation =>
      unfold Issue.advance
      dsimp only
      cases hinsert : db.tokens.insert? (newToken env now request newId publicId secret) with
      | none => exact .idle fun _ => rfl
      | some tokens =>
          obtain ⟨htokens, hcount⟩ := insertToken hinsert
          exact .inserts (fun _ => rfl) htokens rfl hcount (keeps_retire _ _)
  | ended result => exact .waits

/-! ## The invariant -/

/-- What every step keeps. -/
structure Inv (s : System) : Prop where
  sessions : ∀ row ∈ s.db.sessions.rows, CapBound s.db row.mcpTokenId row.userId row.permissionCap
  openings : ∀ phase ∈ s.openings, PhaseBound s.db phase
  requests : ∀ request ∈ s.requests, RequestBound s.db request
  /-- One transaction at a time has an owner locked. -/
  locks : ∀ ownerUserId, (s.issues.map (ownerLock ownerUserId)).sum ≤ 1
  /-- There is room for the tokens that are going to be inserted. -/
  room : ∀ ownerUserId, countActive s.db ownerUserId s.now +
    (s.issues.map (admitted ownerUserId)).sum ≤ maxActiveTokensPerOwner

theorem inv_initial (users : Table UserRow UserRow.id UserRow.username) (roles : Roles)
    (userRoles : UserRoles) (rolePermissions : List (Int × String)) (now : Instant) :
    Inv (System.initial users roles userRoles rolePermissions now) where
  sessions := nofun
  openings := nofun
  requests := nofun
  locks _ := Nat.zero_le _
  room _ := Nat.zero_le _

theorem countActive_mono (db : Database) (ownerUserId : Int) {now now' : Instant}
    (h : now ≤ now') :
    countActive db ownerUserId now' ≤ countActive db ownerUserId now :=
  List.countP_mono_left fun token _ hactive => isActive_of_onward (.refl token) h hactive

theorem Keeps.capBound {db db' : Database} (h : Keeps db db')
    (hsessions : ∀ row ∈ db.sessions.rows,
      CapBound db row.mcpTokenId row.userId row.permissionCap) :
    ∀ row' ∈ db'.sessions.rows, CapBound db' row'.mcpTokenId row'.userId row'.permissionCap := by
  intro row' hrow'
  obtain ⟨row, hrow, htoken, huser, hcap⟩ := h.sessions row' hrow'
  rw [htoken, huser, hcap]
  exact (hsessions row hrow).kept h.tokens

section Invariant

variable {env : Environment} {ipNetwork : String → Option String} {s s' : System} {i : Nat}

/-- A step that issues nothing and adds no session. -/
theorem Inv.keeps (h : Inv s) (hdb : Keeps s.db s'.db) (hnow : s.now ≤ s'.now)
    (hlocks : ∀ o, (s'.issues.map (ownerLock o)).sum ≤ (s.issues.map (ownerLock o)).sum)
    (hroom : ∀ o, (s'.issues.map (admitted o)).sum ≤ (s.issues.map (admitted o)).sum)
    (hopenings : ∀ phase ∈ s'.openings, phase ∈ s.openings ∨ PhaseBound s'.db phase)
    (hrequests : ∀ request ∈ s'.requests, request ∈ s.requests ∨ RequestBound s'.db request) :
    Inv s' where
  sessions := hdb.capBound h.sessions
  openings phase hphase := by
    rcases hopenings phase hphase with hold | hnew
    · exact (h.openings phase hold).kept hdb.tokens
    · exact hnew
  requests request hrequest := by
    rcases hrequests request hrequest with hold | hnew
    · exact (h.requests request hold).kept hdb.tokens
    · exact hnew
  locks o := (hlocks o).trans (h.locks o)
  room o := by
    have hcount := hdb.count o s'.now
    have hmono := countActive_mono s.db o hnow
    have hle := hroom o
    have hold := h.room o
    omega

theorem Inv.write (h : Inv s) {db : Database} (hdb : Keeps s.db db) :
    Inv { s with db } :=
  h.keeps hdb (le_refl _) (fun _ => Nat.le_refl _) (fun _ => Nat.le_refl _)
    (fun _ hphase => .inl hphase) fun _ hrequest => .inl hrequest

theorem Inv.idle (h : Inv s) {x x' : Issue} (hi : s.issues[i]? = some x)
    (hlock : ∀ o, ownerLock o x' = 0) :
    Inv { s with issues := s.issues.set i x' } := by
  refine h.keeps (.refl s.db) (le_refl _) (fun o => ?_) (fun o => ?_)
    (fun _ hphase => .inl hphase) fun _ hrequest => .inl hrequest
  · have hsum := sum_map_set (b := x') (ownerLock o) hi
    have hzero := hlock o
    dsimp only
    omega
  · have hsum := sum_map_set (b := x') (admitted o) hi
    have hzero := hlock o
    have hle := admitted_le o x'
    dsimp only
    omega

theorem Inv.begin (h : Inv s) {x : Issue}
    (hidle : ∀ o, ownerLock o x = 0 ∧ admitted o x = 0) :
    Inv { s with issues := s.issues ++ [x] } := by
  refine h.keeps (.refl s.db) (le_refl _) (fun o => ?_) (fun o => ?_)
    (fun _ hphase => .inl hphase) fun _ hrequest => .inl hrequest
  · dsimp only
    rw [sum_map_concat, (hidle o).1]
    exact Nat.le_refl _
  · dsimp only
    rw [sum_map_concat, (hidle o).2]
    exact Nat.le_refl _

theorem sum_ownerLock_eq_zero {x : Issue} (hi : s.issues[i]? = some x) {ownerUserId : Int}
    (hfree : s.ownerHeld i ownerUserId = false) (hx : ownerLock ownerUserId x = 0) :
    (s.issues.map (ownerLock ownerUserId)).sum = 0 := by
  have hsum := sum_map_eraseIdx (ownerLock ownerUserId) hi
  have hothers : ((s.issues.eraseIdx i).map (ownerLock ownerUserId)).sum = 0 := by
    refine sum_map_eq_zero fun y hy => ?_
    have hnot := List.any_eq_false.1 hfree y hy
    exact List.count_eq_zero.2 fun hmem => hnot (decide_eq_true hmem)
  omega

/-- Every statement of a transaction that issues a token keeps the invariant. -/
theorem Inv.issues (h : Inv s) {x x' : Issue} {db' : Database} (hi : s.issues[i]? = some x)
    (hissues : Issues s.db s.now (s.ownerHeld i) x x' db') :
    Inv { s with db := db', issues := s.issues.set i x' } := by
  have hlocks : ∀ o, ((s.issues.set i x').map (ownerLock o)).sum + ownerLock o x =
      (s.issues.map (ownerLock o)).sum + ownerLock o x' := fun o => sum_map_set (ownerLock o) hi
  have hadmits : ∀ o, ((s.issues.set i x').map (admitted o)).sum + admitted o x =
      (s.issues.map (admitted o)).sum + admitted o x' := fun o => sum_map_set (admitted o) hi
  cases hissues with
  | idle hlock => exact h.idle hi hlock
  | waits =>
      refine h.keeps (.refl s.db) (le_refl _) (fun o => ?_) (fun o => ?_)
        (fun _ hphase => .inl hphase) fun _ hrequest => .inl hrequest
      · have hsum := hlocks o
        dsimp only
        omega
      · have hsum := hadmits o
        dsimp only
        omega
  | @locks request rotation hfree =>
      refine ⟨h.sessions, h.openings, h.requests, fun o => ?_, fun o => ?_⟩
      · have hsum := hlocks o
        have hold := h.locks o
        have hnone : ownerLock o (.issuing request rotation) = 0 := rfl
        have hone : ownerLock o (.locked request rotation) =
            if request.ownerUserId = o then 1 else 0 := by
          simp [ownerLock, Issue.ownerLocks, List.count_singleton]
        dsimp only
        split_ifs at hone with howner
        · subst howner
          have hzero := sum_ownerLock_eq_zero hi hfree hnone
          omega
        · omega
      · have hsum := hadmits o
        have hold := h.room o
        have hnone : admitted o (.issuing request rotation) = 0 := rfl
        have hnone' : admitted o (.locked request rotation) = 0 := rfl
        dsimp only
        omega
  | @counts request rotation hroom =>
      refine ⟨h.sessions, h.openings, h.requests, fun o => ?_, fun o => ?_⟩
      · have hsum := hlocks o
        have hold := h.locks o
        have hsame : ownerLock o (.counted request rotation) =
            ownerLock o (.locked request rotation) := rfl
        dsimp only
        omega
      · have hsum := hadmits o
        have hold := h.room o
        have hnone : admitted o (.locked request rotation) = 0 := rfl
        dsimp only
        by_cases howner : request.ownerUserId = o
        · -- the transaction has the owner locked, so that no other one is going to insert
          subst howner
          have hholds : ownerLock request.ownerUserId (.locked request rotation) = 1 := by
            simp [ownerLock, Issue.ownerLocks]
          have hzero := sum_map_eq_zero_of_holder (admitted_le request.ownerUserId)
            (h.locks request.ownerUserId) hi hholds hnone
          have hone : admitted request.ownerUserId (.counted request rotation) = 1 := if_pos rfl
          omega
        · have hother : admitted o (.counted request rotation) = 0 := if_neg howner
          omega
  | @inserts request rotation x' db₁ db' hidle htokens hsessions hcount hretires =>
      have hcaps : ∀ row ∈ db₁.sessions.rows,
          CapBound db₁ row.mcpTokenId row.userId row.permissionCap := fun row hrow =>
        (h.sessions row (hsessions ▸ hrow)).kept htokens
      have honward := htokens.trans hretires.tokens
      refine ⟨hretires.capBound hcaps, fun phase hphase => (h.openings phase hphase).kept honward,
        fun request hrequest => (h.requests request hrequest).kept honward, fun o => ?_,
        fun o => ?_⟩
      · have hsum := hlocks o
        have hold := h.locks o
        have hzero := hidle o
        dsimp only
        omega
      · have hsum := hadmits o
        have hold := h.room o
        have hzero := hidle o
        have hle := admitted_le o x'
        have hinserted := hcount o s.now
        have hretired := hretires.count o s.now
        have hadmitted : admitted o (.counted request rotation) =
            if request.ownerUserId = o then 1 else 0 := rfl
        dsimp only
        omega

/-- Every statement of the opening of a session keeps the invariant. -/
theorem Inv.advanceOpening (h : Inv s) {phase : Phase} (hi : s.openings[i]? = some phase)
    (a : Answer) :
    Inv { s with
      db := (advanceOpening env s.now a s.db phase).2
      openings := s.openings.set i (advanceOpening env s.now a s.db phase).1 } := by
  have hphase := h.openings phase (List.mem_of_getElem? hi)
  obtain ⟨htokens, hbound, hsessions⟩ := advanceOpening_bound env s.now a hphase
  have honward : NoLonger s.db (Auth.advanceOpening env s.now a s.db phase).2 := .of_eq htokens
  refine ⟨fun row' hrow' => ?_, fun phase' hphase' => ?_,
    fun request hrequest => (h.requests request hrequest).kept honward, h.locks, fun o => ?_⟩
  · rcases hsessions row' hrow' with hold | hnew
    · exact (h.sessions row' hold).kept honward
    · exact hnew.kept honward
  · rcases List.mem_or_eq_of_mem_set hphase' with hold | rfl
    · exact (h.openings phase' hold).kept honward
    · exact hbound.kept honward
  · have hroom := h.room o
    dsimp only
    rw [countActive, htokens]
    exact hroom

/-- A request finds a session whose cap is that of its token. -/
theorem requestBound_advance (hsessions : ∀ row ∈ s.db.sessions.rows,
      CapBound s.db row.mcpTokenId row.userId row.permissionCap)
    (rolePermissions : List (Int × String)) (request : Request)
    (hrequest : RequestBound s.db request) :
    Keeps s.db (request.advance env s.now rolePermissions s.db).2 ∧
      RequestBound s.db (request.advance env s.now rolePermissions s.db).1 := by
  cases request with
  | arrived cookie =>
      unfold Request.advance
      dsimp only
      split_ifs <;> exact ⟨.refl _, trivial⟩
  | begun cookie current begunAt =>
      unfold Request.advance
      dsimp only
      split
      · exact ⟨.refl _, trivial⟩
      · rename_i session hfound
        exact ⟨keeps_noteUse _ _ _ _, hsessions session (List.mem_of_find?_eq_some hfound)⟩
  | timed | found | authorised | refused => exact ⟨.refl _, trivial⟩

theorem Inv.authorise (h : Inv s) {request : Request} (hi : s.requests[i]? = some request) :
    Inv { s with
      db := (request.advance env s.now s.rolePermissions s.db).2
      requests := s.requests.set i (request.advance env s.now s.rolePermissions s.db).1 } := by
  obtain ⟨hkeeps, hbound⟩ := requestBound_advance h.sessions s.rolePermissions request
    (h.requests request (List.mem_of_getElem? hi))
  refine h.keeps hkeeps (le_refl _) (fun _ => Nat.le_refl _) (fun _ => Nat.le_refl _)
    (fun _ hphase => .inl hphase) fun request' hrequest' => ?_
  rcases List.mem_or_eq_of_mem_set hrequest' with hold | rfl
  · exact .inl hold
  · exact .inr (hbound.kept hkeeps.tokens)

/-- Every step keeps the invariant. -/
theorem Inv.step (h : Inv s) (e : Event) :
    Inv (step env ipNetwork s e) := by
  cases e with
  | tick d =>
      refine h.keeps (.refl s.db) ?_ (fun _ => Nat.le_refl _) (fun _ => Nat.le_refl _)
        (fun _ hphase => .inl hphase) fun _ hrequest => .inl hrequest
      exact Int.le_add_of_nonneg_right (Int.natCast_nonneg d)
  | create ownerUserId scopes ipAllowlist expiresInDays =>
      exact h.begin fun o => idle_createToken _ _ _ _ _ _
  | rotate tokenId byUsername graceHours expiresInDays => exact h.begin fun o => ⟨rfl, rfl⟩
  | issue j publicId secret =>
      cases hj : s.issues[j]? with
      | none => simpa only [McpTokens.step, hj] using h
      | some x =>
          simp only [McpTokens.step, hj]
          have hnext := h.issues hj (issues_advance env s.now (s.tokenHeld j) (s.ownerHeld j)
            s.nextTokenId publicId secret s.db x)
          exact ⟨hnext.sessions, hnext.openings, hnext.requests, hnext.locks, hnext.room⟩
  | abort j =>
      cases hj : s.issues[j]? with
      | none => simpa only [McpTokens.step, hj] using h
      | some x =>
          simp only [McpTokens.step, hj]
          exact h.idle hj fun o => ownerLock_abort o x
  | revoke tokenId byUsername =>
      unfold McpTokens.step
      dsimp only
      split_ifs
      · exact h
      · cases hrevoked : revokeToken s.db s.now tokenId byUsername with
        | error e => exact h
        | ok db => exact h.write (keeps_revokeToken hrevoked)
  | login username password authType | present ip publicId secret =>
      refine h.keeps (.refl s.db) (le_refl _) (fun _ => Nat.le_refl _) (fun _ => Nat.le_refl _)
        (fun phase hphase => ?_) fun _ hrequest => .inl hrequest
      rcases List.mem_append.1 hphase with hold | hnew
      · exact .inl hold
      · rw [List.mem_singleton.1 hnew]
        exact .inr trivial
  | advanceOpening j answer =>
      cases hj : s.openings[j]? with
      | none => simpa only [McpTokens.step, hj] using h
      | some phase =>
          simp only [McpTokens.step, hj]
          split_ifs
          · exact h
          · exact h.advanceOpening hj answer
  | request cookie =>
      refine h.keeps (.refl s.db) (le_refl _) (fun _ => Nat.le_refl _) (fun _ => Nat.le_refl _)
        (fun _ hphase => .inl hphase) fun request hrequest => ?_
      rcases List.mem_append.1 hrequest with hold | hnew
      · exact .inl hold
      · rw [List.mem_singleton.1 hnew]
        exact .inr trivial
  | authorise j =>
      cases hj : s.requests[j]? with
      | none => simpa only [McpTokens.step, hj] using h
      | some request =>
          simp only [McpTokens.step, hj]
          exact h.authorise hj
  | logout cookie => exact h.write (keeps_revokeSession _ _ _ _)
  | updateUser userId payload actorId salt =>
      unfold McpTokens.step
      dsimp only
      split_ifs
      · exact h
      · cases hupdated : Auth.updateUser (env.hashPassword salt) s.now s.db userId payload actorId with
        | error e => exact h
        | ok db => exact h.write (keeps_of_updateUser hupdated)
  | updateRole roleId permissionKeys =>
      unfold McpTokens.step
      dsimp only
      split_ifs
      · exact ⟨h.sessions, h.openings, h.requests, h.locks, h.room⟩
      · exact h

/-! ## Confinement of a step -/

theorem Issues.noLonger {db db' : Database} {now : Instant} {ownerHeld : Int → Bool}
    {x x' : Issue} (h : Issues db now ownerHeld x x' db') :
    NoLonger db db' := by
  cases h with
  | inserts hidle htokens hsessions hcount hretires => exact htokens.trans hretires.tokens
  | _ => exact .of_eq rfl

/-- No step lets a token live longer. -/
theorem Inv.noLonger (h : Inv s) (e : Event) :
    NoLonger s.db (McpTokens.step env ipNetwork s e).db := by
  cases e with
  | issue j publicId secret =>
      cases hj : s.issues[j]? with
      | none => exact .of_eq (by simp only [McpTokens.step, hj])
      | some x =>
          simp only [McpTokens.step, hj]
          exact (issues_advance env s.now (s.tokenHeld j) (s.ownerHeld j) s.nextTokenId publicId
            secret s.db x).noLonger
  | abort j =>
      refine .of_eq ?_
      cases hj : s.issues[j]? with
      | none | some => simp only [McpTokens.step, hj]
  | revoke tokenId byUsername =>
      unfold McpTokens.step
      dsimp only
      split_ifs
      · exact .of_eq rfl
      · cases hrevoked : revokeToken s.db s.now tokenId byUsername with
        | error e => exact .of_eq rfl
        | ok db => exact (keeps_revokeToken hrevoked).tokens
  | advanceOpening j answer =>
      cases hj : s.openings[j]? with
      | none => exact .of_eq (by simp only [McpTokens.step, hj])
      | some phase =>
          simp only [McpTokens.step, hj]
          split_ifs
          · exact .of_eq rfl
          · exact .of_eq (advanceOpening_bound env s.now answer
              (h.openings phase (List.mem_of_getElem? hj))).1
  | authorise j =>
      cases hj : s.requests[j]? with
      | none => exact .of_eq (by simp only [McpTokens.step, hj])
      | some request =>
          simp only [McpTokens.step, hj]
          exact (requestBound_advance h.sessions s.rolePermissions request
            (h.requests request (List.mem_of_getElem? hj))).1.tokens
  | updateUser userId payload actorId salt =>
      unfold McpTokens.step
      dsimp only
      split_ifs
      · exact .of_eq rfl
      · cases hupdated : Auth.updateUser (env.hashPassword salt) s.now s.db userId payload actorId with
        | error e => exact .of_eq rfl
        | ok db => exact (keeps_of_updateUser hupdated).tokens
  | updateRole roleId permissionKeys =>
      unfold McpTokens.step
      dsimp only
      split_ifs <;> exact .of_eq rfl
  | tick | create | rotate | login | present | request | logout => exact .of_eq rfl

/-- A request stays where it is, or goes on by one statement. -/
theorem request_moved {e : Event} {r r' : Request} (hi : s.requests[i]? = some r)
    (hi' : (McpTokens.step env ipNetwork s e).requests[i]? = some r') :
    r' = r ∨ r' = (r.advance env s.now s.rolePermissions s.db).1 := by
  have hstays : (McpTokens.step env ipNetwork s e).requests = s.requests → r' = r := by
    intro hsame
    rw [hsame, hi] at hi'
    exact (Option.some.inj hi').symm
  cases e with
  | request cookie =>
      have hlt : i < s.requests.length := (List.getElem?_eq_some_iff.1 hi).1
      have hi' : (s.requests ++ [.arrived cookie])[i]? = some r' := hi'
      rw [List.getElem?_append_left hlt, hi] at hi'
      exact .inl (Option.some.inj hi').symm
  | authorise j =>
      cases hj : s.requests[j]? with
      | none => exact .inl (hstays (by simp only [McpTokens.step, hj]))
      | some request =>
          simp only [McpTokens.step, hj, List.getElem?_set] at hi'
          split_ifs at hi' with hij
          · subst hij
            cases hj.symm.trans hi
            exact .inr (Option.some.inj hi').symm
          · exact .inl (Option.some.inj (hi'.symm.trans hi))
  | issue j publicId secret =>
      refine .inl (hstays ?_)
      cases hj : s.issues[j]? with
      | none | some => simp only [McpTokens.step, hj]
  | abort j =>
      refine .inl (hstays ?_)
      cases hj : s.issues[j]? with
      | none | some => simp only [McpTokens.step, hj]
  | revoke tokenId byUsername =>
      refine .inl (hstays ?_)
      unfold McpTokens.step
      dsimp only
      split_ifs
      · rfl
      · cases revokeToken s.db s.now tokenId byUsername <;> rfl
  | advanceOpening j answer =>
      refine .inl (hstays ?_)
      cases hj : s.openings[j]? with
      | none => simp only [McpTokens.step, hj]
      | some phase =>
          simp only [McpTokens.step, hj]
          split_ifs <;> rfl
  | updateUser userId payload actorId salt =>
      refine .inl (hstays ?_)
      unfold McpTokens.step
      dsimp only
      split_ifs
      · rfl
      · cases Auth.updateUser (env.hashPassword salt) s.now s.db userId payload actorId <;> rfl
  | updateRole roleId permissionKeys =>
      refine .inl (hstays ?_)
      unfold McpTokens.step
      dsimp only
      split_ifs <;> rfl
  | tick | create | rotate | login | present | logout => exact .inl (hstays rfl)

/-- A session that is found is accepted by the rows that are read with it. -/
theorem accepts_of_found {request : Request} {session : SessionRow}
    {rolePermissions : List (Int × String)} {db : Database} {now : Instant}
    (h : (request.advance env now rolePermissions db).1 = .found session) :
    ∃ cookie current begunAt, request = .begun cookie current begunAt ∧
      session ∈ db.sessions.rows ∧ accepts db current begunAt session = true := by
  cases request with
  | begun cookie current begunAt =>
      unfold Request.advance at h
      dsimp only at h
      split at h
      · cases h
      · rename_i session' hfound
        cases h
        have hmatches := List.find?_some hfound
        rw [Bool.and_eq_true] at hmatches
        exact ⟨cookie, current, begunAt, rfl, List.mem_of_find?_eq_some hfound, hmatches.2⟩
  | arrived cookie =>
      unfold Request.advance at h
      dsimp only at h
      split_ifs at h
  | timed | found | authorised | refused => cases h

/-- Every step grants to a session of a token only what it may. -/
theorem Inv.confined (h : Inv s) (e : Event) :
    Confined env ipNetwork s e where
  accepted i cookie current begunAt session hi hi' tokenId hid := by
    have hmoved : Request.found session =
        (Request.advance env s.now s.rolePermissions s.db (.begun cookie current begunAt)).1 := by
      rcases request_moved hi hi' with hsame | hmoved
      · cases hsame
      · exact hmoved
    obtain ⟨cookie', current', begunAt', heq, hmem, haccepts⟩ := accepts_of_found hmoved.symm
    cases heq
    simp only [accepts, Bool.and_eq_true] at haccepts
    obtain ⟨⟨-, hactive⟩, hall⟩ := haccepts
    obtain ⟨token, htoken, howner, -⟩ := h.sessions session hmem tokenId hid
    rw [hid, Option.all_some, htoken, Option.any_some, Bool.and_eq_true,
      decide_eq_true_eq] at hall
    exact ⟨hactive, token, htoken, howner, Option.isNone_iff_eq_none.1 hall.1, hall.2⟩
  authorised i session permissions hi hi' tokenId hid := by
    have hmoved : Request.authorised session permissions =
        (Request.advance env s.now s.rolePermissions s.db (.found session)).1 := by
      rcases request_moved hi hi' with hsame | hmoved
      · cases hsame
      · exact hmoved
    cases hmoved
    obtain ⟨token, htoken, howner, hcap⟩ :=
      h.requests _ (List.mem_of_getElem? hi) tokenId hid
    refine ⟨token, htoken, howner, fun permission hpermission => ?_⟩
    rw [sessionPermissions, hid, Option.isSome_some, if_pos rfl, hcap, Option.getD_some,
      List.mem_filter, decide_eq_true_eq, List.mem_filter] at hpermission
    obtain ⟨hheld, hscope, hread⟩ := hpermission
    exact ⟨hread, hscope, howner ▸ hheld⟩
  noLonger := h.noLonger e

theorem Inv.refuses (h : Inv s) {earlier : Database} (honward : NoLonger earlier s.db)
    (e : Event) :
    Refuses env ipNetwork earlier s e := by
  intro i cookie current begunAt session tokenId hi hi' hid hended
  obtain ⟨token, htoken, hover⟩ := honward.ended hended
  have hconfined : Confined env ipNetwork s e := h.confined e
  obtain ⟨-, token', htoken', -, hlive, hexpires⟩ :=
    hconfined.accepted i cookie current begunAt session hi hi' tokenId hid
  cases htoken.symm.trans htoken'
  rcases hover with hrevoked | hexpired
  · rw [hlive] at hrevoked
    cases hrevoked
  · exact absurd hexpires (not_lt.2 hexpired)

end Invariant

/-! ## Runs -/

/--
Every request with a session of a token is accepted while the token is valid, and has read
permissions of its scopes that the owner holds at that moment; no token lives longer for having
been replaced, and one that has ended opens no request afterwards; and no owner has more active
tokens than are allowed.
-/
theorem tokens_confined (env : Environment) (ipNetwork : String → Option String)
    (users : Table UserRow UserRow.id UserRow.username) (roles : Roles) (userRoles : UserRoles)
    (rolePermissions : List (Int × String)) (now : Instant) (es fs : List Event) :
    let start := System.initial users roles userRoles rolePermissions now
    let reached := run (step env ipNetwork) start es
    Along (step env ipNetwork) (Confined env ipNetwork) start es ∧
      Along (step env ipNetwork) (Refuses env ipNetwork reached.db) reached fs ∧
      ∀ ownerUserId, countActive reached.db ownerUserId reached.now ≤ maxActiveTokensPerOwner := by
  intro start reached
  have hinitial : Inv start := inv_initial users roles userRoles rolePermissions now
  have hany : ∀ s gs, Along (step env ipNetwork) (fun _ _ => True) s gs := fun s gs =>
    along_of_forall (fun _ _ => trivial) s gs
  have hreached : Inv reached :=
    (hany start es).invariant (fun _ e hs _ => hs.step e) hinitial
  refine ⟨(hany start es).ensures (fun _ e hs _ => hs.step e) (fun _ e hs _ => hs.confined e)
    hinitial, ?_, fun ownerUserId => ?_⟩
  · have hstep : ∀ s e, Inv s ∧ NoLonger reached.db s.db → True →
        Inv (step env ipNetwork s e) ∧ NoLonger reached.db (step env ipNetwork s e).db :=
      fun s e hs _ => ⟨hs.1.step e, hs.2.trans (hs.1.noLonger e)⟩
    exact (hany reached fs).ensures hstep (fun s e hs _ => hs.1.refuses hs.2 e)
      ⟨hreached, .of_eq rfl⟩
  · have hroom := hreached.room ownerUserId
    omega

end McpTokens
end Auth
end MpvmApp
