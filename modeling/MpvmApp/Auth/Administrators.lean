import MpvmApp.Auth.UserTransactions

/-!
# The last administrator

A transaction that takes the rights of an administrator away looks for another active
administrator first, but between this and its own writes others may store theirs.  An update has
locked its own user only; a deletion notices that a user whose row it locks is no longer active,
but not that the role is gone.

Main definitions:

- Definition `Orderly`: a transaction that takes rights away stores its writes while no other
  one that has looked for administrators needs the user for its own check.

Main results:

- Theorem `Sound.other`: what a transaction has found out survives the writes of others.
- Theorem `SystemInv.step`: an orderly step leaves an active administrator.
-/

namespace MpvmApp
namespace Auth

open Runs

/-- There is an active administrator. -/
def AdminExists (db : Database) : Prop :=
  ∃ u ∈ adminIds db, isActiveAdmin db u = true

instance (db : Database) : Decidable (AdminExists db) :=
  inferInstanceAs (Decidable (∃ u ∈ adminIds db, isActiveAdmin db u = true))

/-- There is an active administrator other than the given user. -/
def OtherAdmin (db : Database) (userId : Int) : Prop :=
  ∃ u, u ≠ userId ∧ isActiveAdmin db u = true

theorem adminExists_iff {db : Database} :
    AdminExists db ↔ ∃ u, isActiveAdmin db u = true :=
  ⟨fun ⟨u, _, h⟩ => ⟨u, h⟩, fun ⟨u, h⟩ => ⟨u, mem_adminIds.2 h, h⟩⟩

/-! ## Orderly steps -/

namespace Transaction

/-- The user whose rights the next statement of the transaction takes away, if it does. -/
def takes (db : Database) : Transaction → Option Int
  | .update userId p _ (.counted _ true) => if p.hasNull then none else some userId
  | .delete userId _ (.targeted _ admins) =>
      if (userId ∈ admins ∧ admins.length ≤ 1) ∨ isActiveAdmin db userId = false then none
      else some userId
  | _ => none

/-- The transaction leaves the role of administrators to its user, or deletes the user. -/
def keepsRole (roles : Roles) : Transaction → Bool
  | .update _ _ _ (.counted requested _) => keepsAdminRole roles requested
  | _ => true

/-- The user whose rights a transaction that has looked for administrators may take away. -/
def target : Transaction → Option Int
  | .update userId _ _ (.counted _ true) => some userId
  | .delete userId _ (.locking _ _ _) => some userId
  | .delete userId _ (.targeted _ _) => some userId
  | _ => none

/-- The administrators that the first statement of a deletion has read. -/
def snapshot : Transaction → List Int
  | .delete _ _ (.locking visited pending _) => visited ++ pending
  | .delete _ _ (.targeted visited _) => visited
  | _ => []

end Transaction

/-- A user of the list who is still stored still has the role of administrators. -/
def RolesKept (db : Database) (snapshot : List Int) (userId : Int) : Prop :=
  ∀ u ∈ snapshot, u ≠ userId → db.users.find? u = none ∨ hasAdminRole db u = true

instance (db : Database) (snapshot : List Int) (userId : Int) :
    Decidable (RolesKept db snapshot userId) :=
  inferInstanceAs (Decidable (∀ u ∈ snapshot, u ≠ userId →
    db.users.find? u = none ∨ hasAdminRole db u = true))

/--
Taking the rights of a user away is safe for another transaction that has looked for
administrators: a third one is there, or the other transaction is a deletion that has its own user
on its list, and no user of the list has lost or loses the role.
-/
def SafeFor (db : Database) (tx : Transaction) (userId : Int) (other : Transaction) : Prop :=
  ∀ target ∈ other.target, target ≠ userId →
    (∃ u ∈ adminIds db, u ≠ userId ∧ u ≠ target) ∨
      target ∈ other.snapshot ∧ tx.keepsRole db.roles = true ∧ RolesKept db other.snapshot target

instance (db : Database) (tx : Transaction) (userId : Int) (other : Transaction) :
    Decidable (SafeFor db tx userId other) :=
  inferInstanceAs (Decidable (∀ target ∈ other.target, target ≠ userId →
    (∃ u ∈ adminIds db, u ≠ userId ∧ u ≠ target) ∨
      target ∈ other.snapshot ∧ tx.keepsRole db.roles = true ∧ RolesKept db other.snapshot target))

/--
A transaction that takes the rights of an administrator away stores its writes only while this is
safe for the others that have looked for administrators.
-/
def Orderly (s : UserSystem) : UserEvent → Prop
  | .advance i _ _ => ∀ tx ∈ s.transactions[i]?, ∀ userId ∈ tx.takes s.db,
      ∀ other ∈ s.transactions.eraseIdx i, SafeFor s.db tx userId other
  | _ => True

instance (s : UserSystem) (e : UserEvent) : Decidable (Orderly s e) := by
  unfold Orderly
  split <;> infer_instance

/-! ## What a transaction has found out -/

/--
A deletion still has another administrator, or it will notice when there is none: its own user is
on its list, and the others of the list are gone or have their role.
-/
def Backed (db : Database) (snapshot : List Int) (userId : Int) : Prop :=
  OtherAdmin db userId ∨ userId ∈ snapshot ∧ RolesKept db snapshot userId

/-- The rows that a deletion has locked, and those of them that it returns. -/
structure Selected (db : Database) (visited pending admins : List Int) : Prop where
  nodup : (visited ++ pending).Nodup
  adminsNodup : admins.Nodup
  sub : ∀ u ∈ admins, u ∈ visited
  active : ∀ u ∈ admins, isActiveUser db u = true
  skipped : ∀ u ∈ visited, u ∉ admins → isActiveUser db u = false

/-- What a transaction has found out is still so. -/
def Sound (db : Database) : Transaction → Prop
  | .update userId _ _ .locked => (db.users.find? userId).isSome = true
  | .update userId p _ (.resolved requested removes) =>
      (db.users.find? userId).isSome = true ∧ removes = removesAdmin db userId p requested
  | .update userId p _ (.counted requested removes) =>
      ((db.users.find? userId).isSome = true ∧ removes = removesAdmin db userId p requested) ∧
        (removes = true → OtherAdmin db userId)
  | .delete userId _ (.locking visited pending admins) =>
      Backed db (visited ++ pending) userId ∧ Selected db visited pending admins
  | .delete userId _ (.targeted visited admins) =>
      (db.users.find? userId).isSome = true ∧ Backed db visited userId ∧
        Selected db visited [] admins
  | _ => True

/-- A deletion that passes its check leaves another active administrator, or deletes none. -/
theorem otherAdmin_of_targeted {db : Database} {userId : Int} {visited admins : List Int}
    (hbacked : Backed db visited userId) (hselected : Selected db visited [] admins)
    (hcheck : ¬(userId ∈ admins ∧ admins.length ≤ 1))
    (hadmin : isActiveAdmin db userId = true) :
    OtherAdmin db userId := by
  rcases hbacked with hother | ⟨hmem, hroles⟩
  · exact hother
  · have hactive := isActiveUser_of_isActiveAdmin hadmin
    have hin : userId ∈ admins := by
      by_contra hout
      rw [hselected.skipped userId hmem hout] at hactive
      cases hactive
    have hlen : 1 < admins.length := by
      by_contra hle
      exact hcheck ⟨hin, by omega⟩
    obtain ⟨u, hu, hne⟩ := exists_ne_of_one_lt_length hselected.adminsNodup hlen userId
    have hactive' := hselected.active u hu
    obtain ⟨row, hrow, _⟩ := isActiveUser_of_find? hactive'
    rcases hroles u (hselected.sub u hu) hne with hnone | hrole
    · rw [hrow] at hnone
      cases hnone
    · exact ⟨u, hne, by rw [isActiveAdmin, hactive', hrole]; rfl⟩

/-! ## Own statements -/

theorem Backed.congr {db : Database} {snapshot snapshot' : List Int} {userId : Int}
    (h : Backed db snapshot userId) (hmem : ∀ u, u ∈ snapshot' ↔ u ∈ snapshot) :
    Backed db snapshot' userId := by
  rcases h with hother | ⟨hin, hroles⟩
  · exact .inl hother
  · exact .inr ⟨(hmem _).2 hin, fun u hu hne => hroles u ((hmem u).1 hu) hne⟩

theorem backed_adminIds {db : Database} (h : AdminExists db) (userId : Int) :
    Backed db (adminIds db) userId := by
  obtain ⟨u, hmem, hadmin⟩ := h
  by_cases hu : u = userId
  · subst hu
    exact .inr ⟨hmem, fun v hv _ => .inr (hasAdminRole_of_isActiveAdmin (mem_adminIds.1 hv))⟩
  · exact .inl ⟨u, hu, hadmin⟩

theorem selected_adminIds (db : Database) :
    Selected db [] (adminIds db) [] where
  nodup := nodup_adminIds db
  adminsNodup := List.nodup_nil
  sub _ hu := by cases hu
  active _ hu := by cases hu
  skipped _ hu := by cases hu

namespace Selected

variable {db : Database} {u : Int} {visited pending admins : List Int}

theorem mem_visit (v : Int) :
    v ∈ (u :: visited) ++ pending ↔ v ∈ visited ++ u :: pending :=
  List.perm_middle.symm.mem_iff

theorem notMem (h : Selected db visited (u :: pending) admins) :
    u ∉ visited := fun hu =>
  List.disjoint_of_nodup_append h.nodup hu List.mem_cons_self

theorem skip (h : Selected db visited (u :: pending) admins) (hu : isActiveUser db u = false) :
    Selected db (u :: visited) pending admins where
  nodup := (List.perm_middle.symm.nodup_iff).2 h.nodup
  adminsNodup := h.adminsNodup
  sub v hv := List.mem_cons_of_mem u (h.sub v hv)
  active := h.active
  skipped v hv hout := by
    rcases List.mem_cons.1 hv with rfl | hv
    · exact hu
    · exact h.skipped v hv hout

theorem keep (h : Selected db visited (u :: pending) admins) (hu : isActiveUser db u = true) :
    Selected db (u :: visited) pending (u :: admins) where
  nodup := (List.perm_middle.symm.nodup_iff).2 h.nodup
  adminsNodup := List.nodup_cons.2 ⟨fun hin => h.notMem (h.sub u hin), h.adminsNodup⟩
  sub v hv := by
    rcases List.mem_cons.1 hv with rfl | hv
    · exact List.mem_cons_self
    · exact List.mem_cons_of_mem u (h.sub v hv)
  active v hv := by
    rcases List.mem_cons.1 hv with rfl | hv
    · exact hu
    · exact h.active v hv
  skipped v hv hout := by
    rcases List.mem_cons.1 hv with rfl | hv
    · exact absurd List.mem_cons_self hout
    · exact h.skipped v hv fun hin => hout (List.mem_cons_of_mem u hin)

end Selected

/-- What a transaction finds out with its next statement is so. -/
theorem Sound.advance {db : Database} {tx : Transaction} (h : Sound db tx) (hadmin : AdminExists db)
    (hash : String → String) (now : Instant) (held : Int → Bool) :
    Sound db (tx.advance hash now held db).1 := by
  rcases tx with ⟨userId, p, actorId, stage⟩ | ⟨userId, actorId, stage⟩
  · cases stage with
    | begun =>
        unfold Transaction.advance advanceUpdate
        dsimp only
        split
        · exact trivial
        · rename_i row hrow
          dsimp only
          split_ifs
          · exact trivial
          · exact Option.isSome_of_eq_some hrow
    | locked =>
        unfold Transaction.advance advanceUpdate resolveUpdate
        dsimp only
        split
        · exact trivial
        · split_ifs
          · exact trivial
          · exact ⟨h, rfl⟩
    | resolved requested removes =>
        unfold Transaction.advance advanceUpdate
        dsimp only
        split_ifs with hlast
        · exact trivial
        · refine ⟨h, fun hremoves => ?_⟩
          exact exists_other_of_one_lt_adminCount
            (not_le.1 fun hle => hlast ⟨hremoves, hle⟩) userId
    | counted requested removes =>
        unfold Transaction.advance advanceUpdate
        dsimp only
        split <;> exact trivial
    | ended result => exact trivial
  · cases stage with
    | begun => exact ⟨backed_adminIds hadmin userId, selected_adminIds db⟩
    | locking visited pending admins =>
        obtain ⟨hbacked, hselected⟩ := h
        cases pending with
        | nil =>
            rw [List.append_nil] at hbacked
            unfold Transaction.advance advanceDelete
            dsimp only
            split
            · exact trivial
            · rename_i row hrow
              dsimp only
              split_ifs
              · exact ⟨by rwa [List.append_nil], hselected⟩
              · exact ⟨Option.isSome_of_eq_some hrow, hbacked, hselected⟩
        | cons u pending =>
            have hbacked' := hbacked.congr (Selected.mem_visit (u := u))
            unfold Transaction.advance advanceDelete
            dsimp only
            split
            · rename_i hnone
              exact ⟨hbacked', hselected.skip (by rw [isActiveUser, hnone]; rfl)⟩
            · rename_i row hrow
              have hactive : isActiveUser db u = row.isActive := by
                rw [isActiveUser, hrow]
                rfl
              dsimp only
              split
              · exact ⟨hbacked, hselected⟩
              · refine ⟨hbacked', ?_⟩
                split
                · rename_i hrowActive
                  exact hselected.keep (hactive.trans hrowActive)
                · rename_i hrowActive
                  exact hselected.skip (hactive.trans (by simpa using hrowActive))
    | targeted visited admins =>
        unfold Transaction.advance advanceDelete
        dsimp only
        split <;> exact trivial
    | ended result => exact trivial

/-! ## The writes of a transaction -/

section Commit

variable {hash : String → String} {now : Instant} {held : Int → Bool} {db db' : Database}
  {tx : Transaction}

theorem Commits.sound (h : Commits hash now db tx db') (db'' : Database) :
    Sound db'' (tx.advance hash now held db).1 := by
  cases h with
  | update h =>
      unfold Transaction.advance advanceUpdate
      dsimp only
      split <;> exact trivial
  | delete h =>
      unfold Transaction.advance advanceDelete
      dsimp only
      split <;> exact trivial

/-- A transaction that does not take rights away leaves every active administrator one. -/
theorem Commits.isActiveAdmin (h : Commits hash now db tx db') (hsound : Sound db tx)
    (htakes : tx.takes db = none) {u : Int} (hu : Auth.isActiveAdmin db u = true) :
    Auth.isActiveAdmin db' u = true := by
  by_cases hne : u = tx.userId
  · subst hne
    cases h with
    | @update userId p actorId requested removes _ h =>
        have hupdated := updated_of_applyUpdate h
        refine hupdated.isActiveAdmin ?_ hu
        rw [← hsound.1.2]
        cases removes with
        | false => rfl
        | true =>
            rw [Transaction.takes, hupdated.noNull] at htakes
            cases htakes
    | delete hcheck =>
        dsimp only [Transaction.takes] at htakes
        split_ifs at htakes with hcase
        rcases hcase with hlast | hnot
        · exact absurd hlast hcheck
        · rw [Transaction.userId, hnot] at hu
          cases hu
  · rw [h.onlyUser.isActiveAdmin hne]
    exact hu

theorem Commits.otherAdmin (h : Commits hash now db tx db') {u userId : Int} (hne : u ≠ tx.userId)
    (hother : u ≠ userId) (hu : Auth.isActiveAdmin db u = true) :
    OtherAdmin db' userId :=
  ⟨u, hother, by rw [h.onlyUser.isActiveAdmin hne]; exact hu⟩

theorem takes_eq_userId {userId : Int} (h : tx.takes db = some userId) :
    userId = tx.userId := by
  unfold Transaction.takes at h
  split at h
  · split_ifs at h
    exact (Option.some.inj h).symm
  · split_ifs at h
    exact (Option.some.inj h).symm
  · cases h

/-- Without taking the role away a transaction keeps the roles of a list. -/
theorem Commits.rolesKept (h : Commits hash now db tx db') (hsound : Sound db tx)
    (hkeeps : tx.takes db = none ∨ tx.keepsRole db.roles = true) {snapshot : List Int}
    {userId : Int} (hroles : RolesKept db snapshot userId) :
    RolesKept db' snapshot userId := by
  intro u hu hne
  by_cases hx : u = tx.userId
  · subst hx
    cases h with
    | @update userId' p actorId requested removes _ h =>
        have hupdated := updated_of_applyUpdate h
        have hrole : hasAdminRole db userId' = true := by
          rcases hroles userId' hu hne with hnone | hrole
          · have hsome := hsound.1.1
            rw [hnone] at hsome
            cases hsome
          · exact hrole
        refine .inr (hupdated.hasAdminRole ?_ hrole)
        rcases hkeeps with htakes | hkeeps
        · have hremoves : removes = false := by
            cases removes with
            | false => rfl
            | true =>
                rw [Transaction.takes, hupdated.noNull] at htakes
                cases htakes
          have hfalse := hsound.1.2.symm.trans hremoves
          rw [removesAdmin, hrole, Bool.true_and, Bool.or_eq_false_iff, Bool.not_eq_false'] at hfalse
          exact hfalse.2
        · exact hkeeps
    | delete _ => exact .inl (by rw [find?_removeUser]; exact if_pos rfl)
  · rw [h.onlyUser.find? u hx, h.onlyUser.hasAdminRole u hx]
    exact hroles u hu hne

/-- A deletion that is under way stays backed. -/
theorem Commits.backed (h : Commits hash now db tx db') (hsound : Sound db tx)
    {other : Transaction} {userId : Int} (htarget : other.target = some userId)
    (hsafe : ∀ x ∈ tx.takes db, SafeFor db tx x other)
    (hbacked : Backed db other.snapshot userId) :
    Backed db' other.snapshot userId := by
  cases htakes : tx.takes db with
  | none =>
      rcases hbacked with ⟨u, hne, hu⟩ | ⟨hmem, hroles⟩
      · exact .inl ⟨u, hne, h.isActiveAdmin hsound htakes hu⟩
      · exact .inr ⟨hmem, h.rolesKept hsound (.inl htakes) hroles⟩
  | some x =>
      have hx := takes_eq_userId htakes
      by_cases hsame : userId = x
      · rcases hbacked with ⟨u, hne, hu⟩ | ⟨hmem, hroles⟩
        · exact .inl (h.otherAdmin (by rwa [← hx, ← hsame]) hne hu)
        · refine .inr ⟨hmem, fun u hu hne => ?_⟩
          have hne' : u ≠ tx.userId := by rwa [← hx, ← hsame]
          rw [h.onlyUser.find? u hne', h.onlyUser.hasAdminRole u hne']
          exact hroles u hu hne
      · rcases hsafe x htakes userId htarget hsame with ⟨u, hu, hne, hne'⟩ | ⟨hmem, hkeeps, hroles⟩
        · exact .inl (h.otherAdmin (by rwa [← hx]) hne' (mem_adminIds.1 hu))
        · exact .inr ⟨hmem, h.rolesKept hsound (.inr hkeeps) hroles⟩

theorem Commits.counted (h : Commits hash now db tx db') (hsound : Sound db tx)
    {other : Transaction} {userId : Int} (htarget : other.target = some userId)
    (hlist : other.snapshot = [])
    (hsafe : ∀ x ∈ tx.takes db, SafeFor db tx x other) (hadmin : OtherAdmin db userId) :
    OtherAdmin db' userId := by
  have hbacked : Backed db other.snapshot userId := .inl hadmin
  rcases h.backed hsound htarget hsafe hbacked with hother | ⟨hmem, _⟩
  · exact hother
  · rw [hlist] at hmem
    cases hmem

theorem Selected.other {visited pending admins : List Int} (hselected : Selected db visited pending admins)
    (h : OnlyUser db db' tx.userId) (hfree : tx.userId ∉ visited) :
    Selected db' visited pending admins where
  nodup := hselected.nodup
  adminsNodup := hselected.adminsNodup
  sub := hselected.sub
  active u hu := by
    have hne : u ≠ tx.userId := fun he => hfree (he ▸ hselected.sub u hu)
    rw [h.isActiveUser hne]
    exact hselected.active u hu
  skipped u hu hout := by
    have hne : u ≠ tx.userId := fun he => hfree (he ▸ hu)
    rw [h.isActiveUser hne]
    exact hselected.skipped u hu hout

/-- What a transaction has found out survives the writes of others. -/
theorem Sound.other {other : Transaction} (hother : Sound db other)
    (h : Commits hash now db tx db') (hsound : Sound db tx) (hfree : tx.userId ∉ other.locks)
    (hsafe : ∀ x ∈ tx.takes db, SafeFor db tx x other) :
    Sound db' other := by
  rcases other with ⟨userId, p, actorId, stage⟩ | ⟨userId, actorId, stage⟩
  · have hstored (hne : tx.userId ∉ [userId]) (hsome : (db.users.find? userId).isSome = true) :
        (db'.users.find? userId).isSome = true := by
      rw [h.onlyUser.find? userId fun he => hne (List.mem_singleton.2 he.symm)]
      exact hsome
    have hremoves (requested : Option (List Int)) (hne : tx.userId ∉ [userId]) :
        removesAdmin db' userId p requested = removesAdmin db userId p requested := by
      have hne' : userId ≠ tx.userId := fun he => hne (List.mem_singleton.2 he.symm)
      rw [removesAdmin, removesAdmin, h.onlyUser.roles, h.onlyUser.hasAdminRole userId hne']
    cases stage with
    | locked => exact hstored hfree hother
    | resolved requested removes =>
        exact ⟨hstored hfree hother.1, hother.2.trans (hremoves requested hfree).symm⟩
    | counted requested removes =>
        obtain ⟨⟨hsome, hvalue⟩, hadmin⟩ := hother
        refine ⟨⟨hstored hfree hsome, hvalue.trans (hremoves requested hfree).symm⟩, ?_⟩
        rintro rfl
        exact h.counted hsound rfl rfl hsafe (hadmin rfl)
    | _ => exact trivial
  · cases stage with
    | locking visited pending admins =>
        exact ⟨h.backed hsound rfl hsafe hother.1, hother.2.other h.onlyUser hfree⟩
    | targeted visited admins =>
        obtain ⟨hsome, hbacked, hselected⟩ := hother
        have hfree' : tx.userId ≠ userId ∧ tx.userId ∉ visited := not_or.1 fun hin =>
          hfree (List.mem_cons.2 hin)
        refine ⟨?_, h.backed hsound rfl hsafe hbacked, hselected.other h.onlyUser hfree'.2⟩
        rw [h.onlyUser.find? userId hfree'.1.symm]
        exact hsome
    | _ => exact trivial

/-- A transaction that stores its writes leaves an active administrator. -/
theorem Commits.adminExists (h : Commits hash now db tx db') (hsound : Sound db tx)
    (hadmin : AdminExists db) :
    AdminExists db' := by
  rw [adminExists_iff] at hadmin ⊢
  cases htakes : tx.takes db with
  | none =>
      obtain ⟨u, hu⟩ := hadmin
      exact ⟨u, h.isActiveAdmin hsound htakes hu⟩
  | some x =>
      have hother : OtherAdmin db tx.userId := by
        cases h with
        | @update userId p actorId requested removes _ h =>
            cases removes with
            | true => exact hsound.2 rfl
            | false => cases htakes
        | delete hcheck =>
            dsimp only [Transaction.takes] at htakes
            split_ifs at htakes with hcase
            have hyes := (not_or.1 hcase).2
            rw [Bool.not_eq_false] at hyes
            exact otherAdmin_of_targeted hsound.2.1 hsound.2.2 hcheck hyes
      obtain ⟨u, hne, hu⟩ := hother
      exact ⟨u, by rw [h.onlyUser.isActiveAdmin hne]; exact hu⟩

end Commit

/-! ## Runs -/

/-- There is an administrator, the locks are exclusive, and the transactions know what they do. -/
structure SystemInv (s : UserSystem) : Prop where
  admin : AdminExists s.db
  exclusive : Exclusive s
  sound : ∀ tx ∈ s.transactions, Sound s.db tx

theorem systemInv_initial {db : Database} (h : AdminExists db) :
    SystemInv (.initial db) where
  admin := h
  exclusive := exclusive_initial db
  sound _ htx := by cases htx

theorem sound_beginUpdate (db : Database) (userId : Int) (p : UserUpdateRequest) (actorId : Int) :
    Sound db (beginUpdate userId p actorId) := by
  unfold beginUpdate
  split_ifs <;> exact trivial

theorem sound_beginDelete (db : Database) (userId actorId : Int) :
    Sound db (beginDelete userId actorId) := by
  unfold beginDelete
  split_ifs <;> exact trivial

theorem sound_abort (db : Database) (tx : Transaction) :
    Sound db tx.abort := by
  cases tx <;> exact trivial

theorem SystemInv.begin {s : UserSystem} (h : SystemInv s) {tx : Transaction}
    (hsound : Sound s.db tx) :
    ∀ other ∈ s.transactions ++ [tx], Sound s.db other := by
  intro other hother
  rcases List.mem_append.1 hother with hother | hother
  · exact h.sound other hother
  · rw [List.mem_singleton.1 hother]
    exact hsound

theorem SystemInv.free {s : UserSystem} (h : SystemInv s) {i j : Nat} {tx other : Transaction}
    {hash : String → String} {now : Instant} {db' : Database} (hne : i ≠ j)
    (htx : s.transactions[i]? = some tx) (hother : s.transactions[j]? = some other)
    (hcommits : Commits hash now s.db tx db') :
    tx.userId ∉ other.locks := by
  intro hin
  have hnone := h.exclusive i j tx other hne htx hother tx.userId hcommits.locked hin
  have hsound := h.sound tx (List.mem_of_getElem? htx)
  have hsome : (s.db.users.find? tx.userId).isSome = true := by
    cases hcommits with
    | update _ => exact hsound.1.1
    | delete _ => exact hsound.1
  rw [hnone] at hsome
  cases hsome

/-- A statement of a transaction keeps the invariant when it is orderly. -/
theorem SystemInv.advance {s : UserSystem} (h : SystemInv s)
    {hashPassword : String → String → String} {i : Nat} {now : Instant} {salt : String}
    (hok : Orderly s (.advance i now salt)) {tx : Transaction}
    (htx : s.transactions[i]? = some tx) :
    SystemInv (step hashPassword s (.advance i now salt)) := by
  have hsound := h.sound tx (List.mem_of_getElem? htx)
  have hexclusive : Exclusive (Auth.step hashPassword s (.advance i now salt)) :=
    h.exclusive.step _
  rw [step_advance htx] at hexclusive ⊢
  rcases tx.advance_eq (hashPassword salt) now (s.held i) s.db with hsame | hcommits
  · rw [hsame] at hexclusive ⊢
    refine ⟨h.admin, hexclusive, fun other hother => ?_⟩
    rcases List.mem_or_eq_of_mem_set hother with hother | rfl
    · exact h.sound other hother
    · exact hsound.advance h.admin _ _ _
  · refine ⟨hcommits.adminExists hsound h.admin, hexclusive, fun other hother => ?_⟩
    obtain ⟨j, hj⟩ := List.mem_iff_getElem?.1 hother
    by_cases hne : i = j
    · subst hne
      have hlt : i < s.transactions.length := (List.getElem?_eq_some_iff.1 htx).1
      rw [List.getElem?_set_self hlt] at hj
      cases hj
      exact hcommits.sound _
    · rw [List.getElem?_set_ne hne] at hj
      refine (h.sound other (List.mem_of_getElem? hj)).other hcommits hsound
        (h.free hne htx hj hcommits) fun x hx => ?_
      exact hok tx htx x hx other (List.mem_eraseIdx_iff_getElem?.2 ⟨j, Ne.symm hne, hj⟩)

/-- An orderly step leaves an active administrator. -/
theorem SystemInv.step {s : UserSystem} (h : SystemInv s)
    {hashPassword : String → String → String} {e : UserEvent} (hok : Orderly s e) :
    SystemInv (step hashPassword s e) := by
  cases e with
  | update userId p actorId =>
      exact ⟨h.admin, h.exclusive.step _, h.begin (sound_beginUpdate s.db userId p actorId)⟩
  | delete userId actorId =>
      exact ⟨h.admin, h.exclusive.step _, h.begin (sound_beginDelete s.db userId actorId)⟩
  | advance i now salt =>
      cases htx : s.transactions[i]? with
      | none =>
          rw [(step_none htx now salt).1]
          exact h
      | some tx => exact h.advance hok htx
  | abort i =>
      cases htx : s.transactions[i]? with
      | none =>
          rw [(step_none htx 0 "").2]
          exact h
      | some tx =>
          have hexclusive : Exclusive (Auth.step hashPassword s (.abort i)) :=
            h.exclusive.step _
          rw [step_abort htx] at hexclusive ⊢
          refine ⟨h.admin, hexclusive, fun other hother => ?_⟩
          rcases List.mem_or_eq_of_mem_set hother with hother | rfl
          · exact h.sound other hother
          · exact sound_abort s.db tx

/--
From a state with an active administrator, in a run whose steps are all orderly, there is one in
every committed state.
-/
theorem administrator_remains (hashPassword : String → String → String) (db : Database)
    (hadmin : AdminExists db) (es : List UserEvent)
    (h : Along (step hashPassword) Orderly (.initial db) es) :
    Along (step hashPassword) (fun s e => AdminExists (Auth.step hashPassword s e).db)
      (.initial db) es :=
  h.ensures (fun _ _ hinv hok => hinv.step hok) (fun _ _ hinv hok => (hinv.step hok).admin)
    (systemInv_initial hadmin)

/-- A user row. -/
def userRow (id : Int) (username : String) : UserRow where
  id := id
  username := username
  displayName := username
  passwordHash := ""
  isActive := true
  createdAt := 0
  updatedAt := 0
  lastLoginAt := none

/-- Two active administrators and a role of viewers. -/
def twoAdministrators : Database where
  users := ⟨[userRow 1 "first", userRow 2 "second"], by decide, by decide⟩
  roles := ⟨[⟨1, some "admin", "Администратор"⟩, ⟨2, some "viewer", "Наблюдатель"⟩], by decide, by decide⟩
  userRoles := ⟨[(1, 1), (2, 1)], by decide⟩
  sessions := .empty
  tokens := .empty

/-- A request that deactivates a user. -/
def deactivation : UserUpdateRequest where
  displayName := none
  password := none
  roleIds := none
  role := none
  isActive := some (some false)

/-- Statements of one transaction after the other. -/
def statements (order : List Nat) : List UserEvent :=
  order.map fun i => .advance i 0 ""

/-- Each administrator is deactivated by the other; both count two of them first. -/
def mutualDeactivation : List UserEvent :=
  [.update 1 deactivation 2, .update 2 deactivation 1] ++ statements [0, 0, 0, 1, 1, 1, 0, 1]

/-- An administrator is deactivated, and the deletion of the other finds this out. -/
def deactivationAndDeletion : List UserEvent :=
  [.update 1 deactivation 2, .delete 2 1] ++ statements [0, 0, 0, 1, 1, 0, 1, 1, 1, 1]

theorem deactivationAndDeletion_keeps_administrator :
    Along (step fun _ password => password)
      (fun s e => AdminExists (step (fun _ password => password) s e).db)
      (.initial twoAdministrators) deactivationAndDeletion :=
  administrator_remains (fun _ password => password) twoAdministrators (by decide +kernel)
    deactivationAndDeletion (by decide +kernel)

/-- Two updates leave no active administrator when each counts before the other has stored. -/
theorem no_administrator_remains :
    AdminExists twoAdministrators ∧
      ¬ AdminExists (run (step fun _ password => password) (.initial twoAdministrators)
        mutualDeactivation).db := by
  decide +kernel

/-- A request that replaces the roles of a user by the one of viewers. -/
def demotion : UserUpdateRequest where
  displayName := none
  password := none
  roleIds := some [2]
  role := none
  isActive := none

/-- A deletion takes an administrator for one whose role has been replaced since it has read. -/
example :
    ¬ AdminExists (run (step fun _ password => password) (.initial twoAdministrators)
      ([.update 1 demotion 2, .delete 2 1] ++ statements [0, 0, 0, 1, 1, 0, 1, 1, 1, 1])).db := by
  decide +kernel

end Auth
end MpvmApp
