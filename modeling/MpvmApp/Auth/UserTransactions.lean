import MpvmApp.Auth.Users
import MpvmApp.Lib.Runs

/-!
# Transactions that update and delete users

Each transaction of `update_user` and `delete_user` runs its statements one by one, and a
statement reads what is committed when it starts.  `SELECT … FOR UPDATE` waits until no other
transaction has the row and then has it to the end of its own transaction.

An update locks the row of its user and counts the administrators in a later statement.  A deletion
reads the administrators, locks their rows one after the other, and keeps those that are still
active; the roles are not read again.  The writes of a transaction take effect at its end, since no
other one sees them before that, and the row of the user is locked meanwhile.

Main results:

- Theorem `Transaction.advance_eq`: a statement before the last leaves the tables alone.
- Theorem `update_alone`: an update that meets no other transaction is one function of the tables.
- Theorem `Exclusive.step`: no two transactions have one row of a user.
-/

namespace MpvmApp
namespace Auth

/-! ## Transactions -/

/-- How far a transaction of `update_user` is. -/
inductive UpdateStage where
  | begun
  | locked
  | resolved (requested : Option (List Int)) (removes : Bool)
  | counted (requested : Option (List Int)) (removes : Bool)
  | ended (result : Except UserError Unit)

/--
How far a transaction of `delete_user` is.  The rows that the first statement has read are
`visited` or still `pending`; `admins` are the visited ones that it returns.
-/
inductive DeleteStage where
  | begun
  | locking (visited pending admins : List Int)
  | targeted (visited admins : List Int)
  | ended (result : Except UserError Unit)

/-- A transaction, the user that it is about, and the one who has asked for it. -/
inductive Transaction where
  | update (userId : Int) (payload : UserUpdateRequest) (actorId : Int) (stage : UpdateStage)
  | delete (userId : Int) (actorId : Int) (stage : DeleteStage)

/-- `update_user` up to its first statement. -/
def beginUpdate (userId : Int) (payload : UserUpdateRequest) (actorId : Int) : Transaction :=
  .update userId payload actorId
    (if userId = actorId ∧ payload.deactivates = true then .ended (.error .selfDisable)
      else .begun)

/-- `delete_user` up to its first statement. -/
def beginDelete (userId : Int) (actorId : Int) : Transaction :=
  .delete userId actorId (if userId = actorId then .ended (.error .selfDelete) else .begun)

namespace Transaction

/-- The rows of users that the transaction has locked. -/
def locks : Transaction → List Int
  | .update userId _ _ .locked => [userId]
  | .update userId _ _ (.resolved _ _) => [userId]
  | .update userId _ _ (.counted _ _) => [userId]
  | .delete _ _ (.locking visited _ _) => visited
  | .delete userId _ (.targeted visited _) => userId :: visited
  | _ => []

/-- The connection is lost: nothing of the transaction remains. -/
def abort : Transaction → Transaction
  | .update userId payload actorId _ => .update userId payload actorId (.ended (.error .unhandled))
  | .delete userId actorId _ => .delete userId actorId (.ended (.error .unhandled))

end Transaction

/-- The roles of the request, and whether the update takes the rights of an administrator away. -/
def resolveUpdate (db : Database) (userId : Int) (p : UserUpdateRequest) (actorId : Int) :
    UpdateStage :=
  match requestedRoles db.roles p with
  | .error e => .ended (.error e)
  | .ok requested =>
      let removes := removesAdmin db userId p requested
      if userId = actorId ∧ requested.isSome = true ∧ removes = true then
        .ended (.error .selfDemote)
      else
        .resolved requested removes

/-- The next statement of `update_user`; `held` are the rows that others have. -/
def advanceUpdate (hash : String → String) (now : Instant) (held : Int → Bool) (db : Database)
    (userId : Int) (p : UserUpdateRequest) (actorId : Int) :
    UpdateStage → UpdateStage × Database
  | .begun =>
      match db.users.find? userId with
      | none => (.ended (.error .userNotFound), db)
      | some _ => (if held userId then .begun else .locked, db)
  | .locked => (resolveUpdate db userId p actorId, db)
  | .resolved requested removes =>
      (if removes = true ∧ adminCount db ≤ 1 then .ended (.error .lastAdmin)
        else .counted requested removes, db)
  | .counted requested _ =>
      match applyUpdate hash now db userId p requested with
      | none => (.ended (.error .unhandled), db)
      | some db' => (.ended (.ok ()), db')
  | .ended result => (.ended result, db)

/-- The next statement of `delete_user`; `held` are the rows that others have. -/
def advanceDelete (held : Int → Bool) (db : Database) (userId : Int) :
    DeleteStage → DeleteStage × Database
  | .begun => (.locking [] (adminIds db) [], db)
  | .locking visited (u :: pending) admins =>
      match db.users.find? u with
      | none => (.locking (u :: visited) pending admins, db)
      | some row =>
          (if held u then .locking visited (u :: pending) admins
            else .locking (u :: visited) pending (if row.isActive then u :: admins else admins), db)
  | .locking visited [] admins =>
      match db.users.find? userId with
      | none => (.ended (.error .userNotFound), db)
      | some _ => (if held userId then .locking visited [] admins else .targeted visited admins, db)
  | .targeted _ admins =>
      if userId ∈ admins ∧ admins.length ≤ 1 then (.ended (.error .lastAdmin), db)
      else (.ended (.ok ()), removeUser db userId)
  | .ended result => (.ended result, db)

/-- The next statement of a transaction. -/
def Transaction.advance (hash : String → String) (now : Instant) (held : Int → Bool)
    (db : Database) : Transaction → Transaction × Database
  | .update userId p actorId stage =>
      let next := advanceUpdate hash now held db userId p actorId stage
      (.update userId p actorId next.1, next.2)
  | .delete userId actorId stage =>
      let next := advanceDelete held db userId stage
      (.delete userId actorId next.1, next.2)

/-! ## The system -/

/-- The committed tables and the transactions that have been started. -/
structure UserSystem where
  db : Database
  transactions : List Transaction

/-- No transaction has been started. -/
def UserSystem.initial (db : Database) : UserSystem where
  db := db
  transactions := []

/-- The rows of users that transactions other than the one at a position have locked. -/
def UserSystem.held (s : UserSystem) (i : Nat) (u : Int) : Bool :=
  (s.transactions.eraseIdx i).any fun tx => decide (u ∈ tx.locks)

/-- What can happen next.  The salt is the one that a password is hashed with. -/
inductive UserEvent where
  | update (userId : Int) (payload : UserUpdateRequest) (actorId : Int)
  | delete (userId : Int) (actorId : Int)
  | advance (i : Nat) (now : Instant) (salt : String)
  | abort (i : Nat)

/-- One step of the system. -/
def step (hashPassword : String → String → String) (s : UserSystem) : UserEvent → UserSystem
  | .update userId payload actorId =>
      { s with transactions := s.transactions ++ [beginUpdate userId payload actorId] }
  | .delete userId actorId =>
      { s with transactions := s.transactions ++ [beginDelete userId actorId] }
  | .advance i now salt =>
      match s.transactions[i]? with
      | none => s
      | some tx =>
          let next := tx.advance (hashPassword salt) now (s.held i) s.db
          { db := next.2, transactions := s.transactions.set i next.1 }
  | .abort i =>
      match s.transactions[i]? with
      | none => s
      | some tx => { s with transactions := s.transactions.set i tx.abort }

theorem step_advance {hashPassword : String → String → String} {s : UserSystem} {i : Nat}
    {tx : Transaction} (h : s.transactions[i]? = some tx) (now : Instant) (salt : String) :
    step hashPassword s (.advance i now salt) =
      { db := (tx.advance (hashPassword salt) now (s.held i) s.db).2
        transactions :=
          s.transactions.set i (tx.advance (hashPassword salt) now (s.held i) s.db).1 } := by
  unfold step
  dsimp only
  rw [h]

theorem step_abort {hashPassword : String → String → String} {s : UserSystem} {i : Nat}
    {tx : Transaction} (h : s.transactions[i]? = some tx) :
    step hashPassword s (.abort i) =
      { s with transactions := s.transactions.set i tx.abort } := by
  unfold step
  dsimp only
  rw [h]

theorem step_none {hashPassword : String → String → String} {s : UserSystem} {i : Nat}
    (h : s.transactions[i]? = none) (now : Instant) (salt : String) :
    step hashPassword s (.advance i now salt) = s ∧ step hashPassword s (.abort i) = s := by
  unfold step
  dsimp only
  rw [h]
  exact ⟨rfl, rfl⟩

/-! ## One statement -/

/-- One user at most differs between two states of the tables. -/
structure OnlyUser (db db' : Database) (x : Int) : Prop where
  roles : db'.roles = db.roles
  find? : ∀ u, u ≠ x → db'.users.find? u = db.users.find? u
  hasAdminRole : ∀ u, u ≠ x → hasAdminRole db' u = hasAdminRole db u
  gone : db.users.find? x = none → db'.users.find? x = none

namespace OnlyUser

variable {db db' : Database} {x u : Int}

theorem find?_eq_none (h : OnlyUser db db' x) (hu : db.users.find? u = none) :
    db'.users.find? u = none := by
  by_cases hx : u = x
  · subst hx
    exact h.gone hu
  · rw [h.find? u hx, hu]

theorem isActiveUser (h : OnlyUser db db' x) (hu : u ≠ x) :
    isActiveUser db' u = isActiveUser db u := by
  rw [Auth.isActiveUser, Auth.isActiveUser, h.find? u hu]

theorem isActiveAdmin (h : OnlyUser db db' x) (hu : u ≠ x) :
    isActiveAdmin db' u = isActiveAdmin db u := by
  rw [Auth.isActiveAdmin, Auth.isActiveAdmin, h.isActiveUser hu, h.hasAdminRole u hu]

end OnlyUser

theorem Updated.onlyUser {hash : String → String} {now : Instant} {db db' : Database}
    {userId : Int} {p : UserUpdateRequest} {requested : Option (List Int)}
    (h : Updated hash now db userId p requested db') :
    OnlyUser db db' userId where
  roles := h.roles
  find? _ hu := h.find? hu
  hasAdminRole _ hu := h.hasAdminRole_of_ne hu
  gone hnone := by
    have hsome := h.find?_isSome userId
    rw [hnone] at hsome
    exact Option.isNone_iff_eq_none.1 (by simpa using hsome)

theorem onlyUser_removeUser (db : Database) (userId : Int) :
    OnlyUser db (removeUser db userId) userId where
  roles := rfl
  find? u hu := by rw [find?_removeUser, if_neg hu]
  hasAdminRole _ hu := hasAdminRole_removeUser hu
  gone _ := by rw [find?_removeUser, if_pos rfl]

/-- A transaction stores its writes. -/
inductive Commits (hash : String → String) (now : Instant) (db : Database) :
    Transaction → Database → Prop where
  | update {userId : Int} {p : UserUpdateRequest} {actorId : Int}
      {requested : Option (List Int)} {removes : Bool} {db' : Database}
      (h : applyUpdate hash now db userId p requested = some db') :
      Commits hash now db (.update userId p actorId (.counted requested removes)) db'
  | delete {userId : Int} {actorId : Int} {visited admins : List Int}
      (h : ¬(userId ∈ admins ∧ admins.length ≤ 1)) :
      Commits hash now db (.delete userId actorId (.targeted visited admins))
        (removeUser db userId)

/-- The user that a transaction is about. -/
def Transaction.userId : Transaction → Int
  | .update userId _ _ _ => userId
  | .delete userId _ _ => userId

theorem Commits.onlyUser {hash : String → String} {now : Instant} {db db' : Database}
    {tx : Transaction} (h : Commits hash now db tx db') :
    OnlyUser db db' tx.userId := by
  cases h with
  | update h => exact (updated_of_applyUpdate h).onlyUser
  | delete _ => exact onlyUser_removeUser db _

theorem Commits.locked {hash : String → String} {now : Instant} {db db' : Database}
    {tx : Transaction} (h : Commits hash now db tx db') :
    tx.userId ∈ tx.locks := by
  cases h with
  | update _ => exact List.mem_singleton_self _
  | delete _ => exact List.mem_cons_self

/-- A statement before the last leaves the tables alone. -/
theorem Transaction.advance_eq (hash : String → String) (now : Instant) (held : Int → Bool)
    (db : Database) (tx : Transaction) :
    (tx.advance hash now held db).2 = db ∨
      Commits hash now db tx (tx.advance hash now held db).2 := by
  rcases tx with ⟨userId, p, actorId, stage⟩ | ⟨userId, actorId, stage⟩
  · cases stage with
    | begun =>
        unfold advance advanceUpdate
        dsimp only
        split <;> exact .inl rfl
    | counted requested removes =>
        unfold advance advanceUpdate
        dsimp only
        cases h : applyUpdate hash now db userId p requested with
        | none => exact .inl rfl
        | some db' => exact .inr (.update h)
    | _ => exact .inl rfl
  · cases stage with
    | locking visited pending admins =>
        cases pending with
        | nil =>
            unfold advance advanceDelete
            dsimp only
            split <;> exact .inl rfl
        | cons u pending =>
            unfold advance advanceDelete
            dsimp only
            split <;> exact .inl rfl
    | targeted visited admins =>
        unfold advance advanceDelete
        dsimp only
        split_ifs with h
        · exact .inl rfl
        · exact .inr (.delete h)
    | _ => exact .inl rfl

theorem Transaction.onlyUser_advance (hash : String → String) (now : Instant) (held : Int → Bool)
    (db : Database) (tx : Transaction) :
    OnlyUser db (tx.advance hash now held db).2 tx.userId := by
  rcases tx.advance_eq hash now held db with h | h
  · rw [h]
    exact ⟨rfl, fun _ _ => rfl, fun _ _ => rfl, id⟩
  · exact h.onlyUser

/-- A statement locks rows that no other transaction has, or that are no longer there. -/
theorem Transaction.mem_locks_advance {hash : String → String} {now : Instant}
    {held : Int → Bool} {db : Database} {tx : Transaction} {u : Int}
    (h : u ∈ (tx.advance hash now held db).1.locks) :
    u ∈ tx.locks ∨ held u = false ∨ db.users.find? u = none := by
  rcases tx with ⟨userId, p, actorId, stage⟩ | ⟨userId, actorId, stage⟩
  · cases stage with
    | begun =>
        unfold advance advanceUpdate at h
        dsimp only at h
        split at h
        · cases h
        · dsimp only at h
          split_ifs at h with hheld
          · cases h
          · rw [List.mem_singleton.1 h]
            exact .inr (.inl (by simpa using hheld))
    | locked =>
        unfold advance advanceUpdate resolveUpdate at h
        dsimp only at h
        split at h
        · cases h
        · split_ifs at h
          · cases h
          · exact .inl h
    | resolved requested removes =>
        unfold advance advanceUpdate at h
        dsimp only at h
        split_ifs at h
        · cases h
        · exact .inl h
    | counted requested removes =>
        unfold advance advanceUpdate at h
        dsimp only at h
        split at h <;> cases h
    | ended result => cases h
  · cases stage with
    | begun => cases h
    | locking visited pending admins =>
        cases pending with
        | nil =>
            unfold advance advanceDelete at h
            dsimp only at h
            split at h
            · cases h
            · dsimp only at h
              split_ifs at h with hheld
              · exact .inl h
              · rcases List.mem_cons.1 h with rfl | h
                · exact .inr (.inl (by simpa using hheld))
                · exact .inl h
        | cons v pending =>
            unfold advance advanceDelete at h
            dsimp only at h
            split at h
            · rename_i hnone
              rcases List.mem_cons.1 h with rfl | h
              · exact .inr (.inr hnone)
              · exact .inl h
            · dsimp only at h
              split at h
              · exact .inl h
              · rename_i hheld
                rcases List.mem_cons.1 h with rfl | h
                · exact .inr (.inl (by simpa using hheld))
                · exact .inl h
    | targeted visited admins =>
        unfold advance advanceDelete at h
        dsimp only at h
        split_ifs at h <;> cases h
    | ended result => cases h

/-! ## An update without others -/

/-- `update_user` from its first statement to the last when nothing happens in between. -/
def updateUser (hash : String → String) (now : Instant) (db : Database) (userId : Int)
    (p : UserUpdateRequest) (actorId : Int) : Except UserError Database :=
  if userId = actorId ∧ p.deactivates = true then .error .selfDisable
  else
    match db.users.find? userId with
    | none => .error .userNotFound
    | some _ =>
        match resolveUpdate db userId p actorId with
        | .resolved requested removes =>
            if removes = true ∧ adminCount db ≤ 1 then .error .lastAdmin
            else (applyUpdate hash now db userId p requested).elim (.error .unhandled) .ok
        | .ended (.error e) => .error e
        | _ => .error .unhandled

/-- The next statement of a transaction that meets no other one. -/
def advanceAlone (hash : String → String) (now : Instant) (userId : Int) (p : UserUpdateRequest)
    (actorId : Int) (x : UpdateStage × Database) : UpdateStage × Database :=
  advanceUpdate hash now (fun _ => false) x.2 userId p actorId x.1

section Alone

variable {hash : String → String} {now : Instant} {db : Database} {userId : Int}
  {p : UserUpdateRequest} {actorId : Int}

theorem advanceAlone_ended (n : Nat) (result : Except UserError Unit) :
    (advanceAlone hash now userId p actorId)^[n] (.ended result, db) = (.ended result, db) := by
  induction n with
  | zero => rfl
  | succ n ih => rw [Function.iterate_succ_apply', ih]; rfl

theorem advanceAlone_resolved (requested : Option (List Int)) (removes : Bool) :
    (advanceAlone hash now userId p actorId)^[2] (.resolved requested removes, db) =
      if removes = true ∧ adminCount db ≤ 1 then (.ended (.error .lastAdmin), db)
      else (applyUpdate hash now db userId p requested).elim (.ended (.error .unhandled), db)
        fun db' => (.ended (.ok ()), db') := by
  have hnext : advanceAlone hash now userId p actorId (.resolved requested removes, db) =
      (if removes = true ∧ adminCount db ≤ 1 then .ended (.error .lastAdmin)
        else .counted requested removes, db) := rfl
  rw [Function.iterate_succ_apply, hnext]
  split_ifs
  · exact advanceAlone_ended 1 _
  · rw [Function.iterate_one]
    unfold advanceAlone advanceUpdate
    dsimp only
    cases applyUpdate hash now db userId p requested <;> rfl

/-- A transaction that meets no other one does what `updateUser` says. -/
theorem advanceAlone_begun (hself : ¬(userId = actorId ∧ p.deactivates = true)) :
    (advanceAlone hash now userId p actorId)^[4] (.begun, db) =
      match updateUser hash now db userId p actorId with
      | .ok db' => (.ended (.ok ()), db')
      | .error e => (.ended (.error e), db) := by
  unfold updateUser
  rw [if_neg hself, Function.iterate_succ_apply]
  cases hrow : db.users.find? userId with
  | none =>
      have hnext : advanceAlone hash now userId p actorId (.begun, db) =
          (.ended (.error .userNotFound), db) := by
        unfold advanceAlone advanceUpdate
        dsimp only
        rw [hrow]
      rw [hnext, advanceAlone_ended]
  | some row =>
      have hnext : advanceAlone hash now userId p actorId (.begun, db) = (.locked, db) := by
        unfold advanceAlone advanceUpdate
        dsimp only
        rw [hrow]
        rfl
      have hlocked : advanceAlone hash now userId p actorId (.locked, db) =
          (resolveUpdate db userId p actorId, db) := rfl
      rw [hnext, Function.iterate_succ_apply, hlocked]
      unfold resolveUpdate
      cases requestedRoles db.roles p with
      | error e => exact advanceAlone_ended 2 _
      | ok requested =>
          dsimp only
          split_ifs with hdemote
          · exact advanceAlone_ended 2 _
          · rw [advanceAlone_resolved]
            dsimp only
            split_ifs with hlast
            · rfl
            · cases applyUpdate hash now db userId p requested <;> rfl

end Alone

theorem run_advance_alone (hashPassword : String → String → String) (now : Instant)
    (salt : String) (userId : Int) (p : UserUpdateRequest) (actorId : Int) (n : Nat)
    (x : UpdateStage × Database) :
    Runs.run (step hashPassword) ⟨x.2, [.update userId p actorId x.1]⟩
        (List.replicate n (.advance 0 now salt)) =
      ⟨((advanceAlone (hashPassword salt) now userId p actorId)^[n] x).2,
        [.update userId p actorId
          ((advanceAlone (hashPassword salt) now userId p actorId)^[n] x).1]⟩ := by
  induction n generalizing x with
  | zero => rfl
  | succ n ih =>
      have hheld : UserSystem.held ⟨x.2, [.update userId p actorId x.1]⟩ 0 = fun _ => false := rfl
      rw [List.replicate_succ, Runs.run_cons, step_advance (List.getElem?_cons_zero), hheld,
        Function.iterate_succ_apply]
      exact ih _

/--
An update that meets no other transaction is served in four statements, with the result and the
tables that `updateUser` gives; when it is refused the tables are as they were.
-/
theorem update_alone (hashPassword : String → String → String) (db : Database) (now : Instant)
    (salt : String) (userId : Int) (p : UserUpdateRequest) (actorId : Int) :
    Runs.run (step hashPassword) (.initial db)
        (.update userId p actorId :: List.replicate 4 (.advance 0 now salt)) =
      ⟨(updateUser (hashPassword salt) now db userId p actorId).toOption.getD db,
        [.update userId p actorId
          (.ended ((updateUser (hashPassword salt) now db userId p actorId).map fun _ => ()))]⟩ := by
  have hrun := run_advance_alone hashPassword now salt userId p actorId 4
  by_cases hself : userId = actorId ∧ p.deactivates = true
  · have hended := hrun (.ended (.error .selfDisable), db)
    rw [advanceAlone_ended] at hended
    simpa [step, beginUpdate, updateUser, hself, UserSystem.initial, Except.map,
      Except.toOption] using hended
  · have hbegun := hrun (.begun, db)
    rw [advanceAlone_begun hself] at hbegun
    rw [Runs.run_cons]
    have hstep : step hashPassword (.initial db) (.update userId p actorId) =
        ⟨db, [.update userId p actorId .begun]⟩ := by
      simp [step, beginUpdate, hself, UserSystem.initial]
    rw [hstep, hbegun]
    cases updateUser (hashPassword salt) now db userId p actorId <;> rfl

/-- An accepted update stores the writes of its request. -/
theorem updated_of_updateUser {hash : String → String} {now : Instant} {db db' : Database}
    {userId : Int} {p : UserUpdateRequest} {actorId : Int}
    (h : updateUser hash now db userId p actorId = .ok db') :
    ∃ requested, Updated hash now db userId p requested db' := by
  unfold updateUser at h
  split_ifs at h
  split at h
  · cases h
  split at h
  · rename_i requested removes _
    split_ifs at h
    cases happly : applyUpdate hash now db userId p requested with
    | none =>
        rw [happly] at h
        cases h
    | some db'' =>
        rw [happly] at h
        cases h
        exact ⟨requested, updated_of_applyUpdate happly⟩
  · cases h
  · cases h

/-! ## Locks -/

/-- No two transactions have one row of a user. -/
def Exclusive (s : UserSystem) : Prop :=
  ∀ (i j : Nat) (tx tx' : Transaction), i ≠ j → s.transactions[i]? = some tx → s.transactions[j]? = some tx' →
    ∀ u ∈ tx.locks, u ∈ tx'.locks → s.db.users.find? u = none

theorem exclusive_initial (db : Database) :
    Exclusive (.initial db) := by
  intro i j tx tx' _ htx
  simp [UserSystem.initial] at htx

theorem UserSystem.held_of_mem {s : UserSystem} {i j : Nat} {tx : Transaction} {u : Int}
    (hne : j ≠ i) (htx : s.transactions[j]? = some tx) (hu : u ∈ tx.locks) :
    s.held i u = true :=
  List.any_eq_true.2 ⟨tx, List.mem_eraseIdx_iff_getElem?.2 ⟨j, hne, htx⟩, decide_eq_true hu⟩

/-- A transaction becomes another one; what it has locked then is free or was locked by it. -/
theorem Exclusive.set {s : UserSystem} (h : Exclusive s) {i : Nat} {tx tx' : Transaction}
    {db' : Database} (htx : s.transactions[i]? = some tx)
    (hlocks : ∀ u ∈ tx'.locks, u ∈ tx.locks ∨ s.held i u = false ∨ s.db.users.find? u = none)
    (hgone : ∀ u, s.db.users.find? u = none → db'.users.find? u = none) :
    Exclusive { db := db', transactions := s.transactions.set i tx' } := by
  have hother : ∀ (j : Nat) (tx₂ : Transaction), j ≠ i →
      s.transactions[j]? = some tx₂ → ∀ u ∈ tx'.locks, u ∈ tx₂.locks → db'.users.find? u = none := by
    intro j tx₂ hne htx₂ u hu hu₂
    rcases hlocks u hu with hold | hfree | hnone
    · exact hgone u (h i j tx tx₂ hne.symm htx htx₂ u hold hu₂)
    · rw [UserSystem.held_of_mem hne htx₂ hu₂] at hfree
      cases hfree
    · exact hgone u hnone
  intro j k tx₁ tx₂ hne htx₁ htx₂ u hu₁ hu₂
  have hlt : i < s.transactions.length := (List.getElem?_eq_some_iff.1 htx).1
  by_cases hj : j = i
  · subst hj
    rw [List.getElem?_set_self hlt] at htx₁
    cases htx₁
    rw [List.getElem?_set_ne hne] at htx₂
    exact hother k tx₂ hne.symm htx₂ u hu₁ hu₂
  · rw [List.getElem?_set_ne (Ne.symm hj)] at htx₁
    by_cases hk : k = i
    · subst hk
      rw [List.getElem?_set_self hlt] at htx₂
      cases htx₂
      exact hother j tx₁ hj htx₁ u hu₂ hu₁
    · rw [List.getElem?_set_ne (Ne.symm hk)] at htx₂
      exact hgone u (h j k tx₁ tx₂ hne htx₁ htx₂ u hu₁ hu₂)

theorem Exclusive.begin {s : UserSystem} (h : Exclusive s) {tx : Transaction}
    (hlocks : tx.locks = []) :
    Exclusive { s with transactions := s.transactions ++ [tx] } := by
  have hold : ∀ (j : Nat) (tx₁ : Transaction) (u : Int), (s.transactions ++ [tx])[j]? = some tx₁ →
      u ∈ tx₁.locks → s.transactions[j]? = some tx₁ := by
    intro j tx₁ u htx₁ hu
    by_cases hj : j < s.transactions.length
    · rwa [List.getElem?_append_left hj] at htx₁
    · rw [List.getElem?_append_right (by omega)] at htx₁
      have hmem := List.mem_of_getElem? htx₁
      rw [List.mem_singleton.1 hmem, hlocks] at hu
      cases hu
  intro i j tx₁ tx₂ hne htx₁ htx₂ u hu₁ hu₂
  exact h i j tx₁ tx₂ hne (hold i tx₁ u htx₁ hu₁) (hold j tx₂ u htx₂ hu₂) u hu₁ hu₂

theorem locks_beginUpdate (userId : Int) (p : UserUpdateRequest) (actorId : Int) :
    (beginUpdate userId p actorId).locks = [] := by
  unfold beginUpdate
  split_ifs <;> rfl

theorem locks_beginDelete (userId actorId : Int) :
    (beginDelete userId actorId).locks = [] := by
  unfold beginDelete
  split_ifs <;> rfl

theorem Transaction.locks_abort (tx : Transaction) :
    tx.abort.locks = [] := by
  cases tx <;> rfl

/-- No two transactions have one row of a user, whatever happens next. -/
theorem Exclusive.step {hashPassword : String → String → String} {s : UserSystem}
    (h : Exclusive s) (e : UserEvent) :
    Exclusive (step hashPassword s e) := by
  cases e with
  | update userId p actorId => exact h.begin (locks_beginUpdate userId p actorId)
  | delete userId actorId => exact h.begin (locks_beginDelete userId actorId)
  | advance i now salt =>
      cases htx : s.transactions[i]? with
      | none =>
          rw [(step_none htx now salt).1]
          exact h
      | some tx =>
          rw [step_advance htx]
          refine h.set htx (fun u hu => Transaction.mem_locks_advance hu) fun u hu => ?_
          exact (tx.onlyUser_advance _ _ _ _).find?_eq_none hu
  | abort i =>
      cases htx : s.transactions[i]? with
      | none =>
          rw [(step_none htx 0 "").2]
          exact h
      | some tx =>
          rw [step_abort htx]
          refine h.set htx (fun u hu => ?_) fun _ hu => hu
          rw [tx.locks_abort] at hu
          cases hu

end Auth
end MpvmApp
