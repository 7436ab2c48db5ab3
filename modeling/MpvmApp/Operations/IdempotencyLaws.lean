import MpvmApp.Operations.Idempotency

/-!
# The laws of idempotency keys

While requests use their keys carefully, a key has one remote effect at most, a replay answers with
a record of the same request, and one request with the key is accepted at most.  A deletion and a
creation own the operation that they have registered with the key; a retry owns its job, which gets
the key later, and until then no other request with the key may be at work.

Main definitions:

- Definition `Fits`: what the operations say of a request.
- Definition `Inv`: what holds in every state of a careful run.

Main results:

- Theorem `Inv.step`: a careful step keeps the invariant.
- Theorem `keys_respected`: every careful run keeps the three laws.
-/

namespace MpvmApp
namespace Operations
namespace Idempotency

open Sql Runs Scanner

variable {normalizeScanTargets : List String → Except String (List String)}

/-! ## Rows -/

/-- What is kept of an operation by the requests and workers that it does not belong to. -/
structure Keeps (row row' : Row) : Prop where
  operationId : row'.operationId = row.operationId
  kind : row'.kind = row.kind
  subjectId : row'.subjectId = row.subjectId
  request : row'.request = row.request
  retryOf : row'.retryOf = row.retryOf
  key : row'.key = row.key
  completed : row.kind = .taskDelete ∨ row.kind = .teamTaskCreate → row.status = "completed" →
    row'.status = "completed"

theorem Keeps.refl (row : Row) :
    Keeps row row :=
  ⟨rfl, rfl, rfl, rfl, rfl, rfl, fun _ => id⟩

theorem Keeps.describes {row row' : Row} {request : Request} (h : Keeps row row')
    (hrow : Describes normalizeScanTargets row request) :
    Describes normalizeScanTargets row' request := by
  cases request with
  | delete taskId mode =>
      obtain ⟨hkind, hsubject, hrequest⟩ := hrow
      exact ⟨h.kind.trans hkind, h.subjectId.trans hsubject, h.request.trans hrequest⟩
  | retry operationId => exact h.retryOf.trans hrow
  | create presetId assetGroupIds targets roleIds =>
      obtain ⟨hkind, hsubject, selected, hselected, hrequest⟩ := hrow
      exact ⟨h.kind.trans hkind, h.subjectId.trans hsubject, selected, hselected,
        h.request.trans hrequest⟩

theorem kind_of_describes {row : Row} {request : Request}
    (h : Describes normalizeScanTargets row request) (hretry : request.isRetry = false) :
    row.kind = .taskDelete ∨ row.kind = .teamTaskCreate := by
  cases request with
  | delete taskId mode => exact .inl h.1
  | retry operationId => cases hretry
  | create presetId assetGroupIds targets roleIds => exact .inr h.1

theorem Keeps.records {row row' : Row} {request : Request} (h : Keeps row row')
    (hrow : Records normalizeScanTargets row request) :
    Records normalizeScanTargets row' request := by
  refine ⟨h.describes hrow.1, ?_⟩
  by_cases hretry : request.isRetry = true
  · exact .inl hretry
  · have hkind := kind_of_describes hrow.1 (Bool.eq_false_iff.2 hretry)
    exact .inr (h.completed hkind (hrow.2.resolve_left hretry))

/-- The operation of a request is kept. -/
def Kept (s s' : System) (i : Nat) : Prop :=
  ∀ row ∈ s.rows, row.operationId = .ofAttempt i → ∃ row' ∈ s'.rows, Keeps row row'

theorem kept_append {s s' : System} {rows : List Row} (h : s'.rows = s.rows ++ rows) (i : Nat) :
    Kept s s' i := by
  intro row hrow _
  refine ⟨row, ?_, .refl row⟩
  rw [h]
  exact List.mem_append_left _ hrow

theorem kept_same {s s' : System} (h : s'.rows = s.rows) (i : Nat) :
    Kept s s' i :=
  kept_append (h.trans (List.append_nil s.rows).symm) i

theorem kept_map {s s' : System} {f : Row → Row} (h : s'.rows = s.rows.map f) {i : Nat}
    (hf : ∀ row ∈ s.rows, row.operationId = .ofAttempt i → Keeps row (f row)) :
    Kept s s' i := by
  intro row hrow hid
  refine ⟨f row, ?_, hf row hrow hid⟩
  rw [h]
  exact List.mem_map_of_mem hrow

/-! ## The invariant -/

/-- The deletion or creation has registered its operation and is not answered yet. -/
def Phase.hasOwn : Phase → Bool
  | .acting | .recording _ | .finishing _ _ _ => true
  | _ => false

/-- The job of a retry. -/
def Phase.job : Phase → Option OperationId
  | .syncing jobId | .storing jobId => some jobId
  | _ => none

/-- The operation that a request has made has the key. -/
def HasRow (s : System) (i : Nat) (key : String) (p : Row → Prop) : Prop :=
  ∃ row ∈ s.rows, row.operationId = .ofAttempt i ∧ row.key = some key ∧ p row

/--
What the operations say of a request with a number: it stands at a statement of its own kind; its
operation is there with its key, and records it once it is accepted; its job is its own, or one of
a request without a key; and a replay has answered it right.
-/
structure Fits (normalizeScanTargets : List String → Except String (List String)) (s : System)
    (i : Nat) (a : Attempt) : Prop where
  suits : Suits normalizeScanTargets i a a.phase
  own : ∀ key, a.cleanKey = some key → a.phase.hasOwn = true →
    HasRow s i key fun row => Describes normalizeScanTargets row a.request
  job : ∀ jobId, a.phase.job = some jobId → ∃ (j : Nat) (b : Attempt),
    jobId = .ofAttempt j ∧ s.attempts[j]? = some b ∧ b.cleanKey = a.cleanKey
  keyedJob : ∀ key, a.cleanKey = some key → ∀ jobId, a.phase.job = some jobId →
    jobId = .ofAttempt i ∧ ∃ row ∈ s.rows, row.operationId = .ofAttempt i
  accepted : ∀ key, a.cleanKey = some key → a.accepted = true →
    HasRow s i key fun row => Records normalizeScanTargets row a.request
  replayed : ∀ row, a.phase = .ended (.replayed row) → Records normalizeScanTargets row a.request

/-- What holds in every state of a careful run. -/
structure Inv (normalizeScanTargets : List String → Except String (List String)) (s : System) :
    Prop where
  ids : ∀ row ∈ s.rows, ∀ row' ∈ s.rows, row.operationId = row'.operationId → row = row'
  keys : ∀ row ∈ s.rows, ∀ row' ∈ s.rows, ∀ key, row.key = some key → row'.key = some key →
    row = row'
  born : ∀ row ∈ s.rows, ∀ (i : Nat), row.operationId = .ofAttempt i → ∃ a : Attempt,
    s.attempts[i]? = some a ∧ a.phase.isBorn = true ∧
      ∀ key, row.key = some key → a.cleanKey = some key
  runs : ∀ run ∈ s.runs, run.triggerType = "retry" → ∀ key, run.key = some key →
    ∃ (i : Nat) (a : Attempt), run.runId = .ofAttempt i ∧ s.attempts[i]? = some a ∧
      a.key = some key ∧ a.request.isRetry = true ∧
        ∀ k, a.cleanKey = some k → (i, k) ∈ s.effects
  effects : ∀ effect ∈ s.effects, ∃ a : Attempt, s.attempts[effect.1]? = some a ∧
    a.cleanKey = some effect.2 ∧ a.phase.isActed = true ∧
      (a.request.isRetry = false →
        HasRow s effect.1 effect.2 fun row => Describes normalizeScanTargets row a.request)
  once : AtMostOnce s
  fits : ∀ (i : Nat) (a : Attempt), s.attempts[i]? = some a → Fits normalizeScanTargets s i a
  apart : ∀ (i j : Nat) (a b : Attempt) (key : String), i ≠ j → s.attempts[i]? = some a →
    s.attempts[j]? = some b → a.cleanKey = some key → b.cleanKey = some key →
      s.engaged i a = true → s.engaged j b = true →
        a.request.isRetry = false ∧ b.request.isRetry = false

/-! ## The other requests -/

/-- A request later: it is the same request, and has gone on. -/
structure Later (a b : Attempt) : Prop where
  request : b.request = a.request
  key : b.key = a.key
  acted : a.phase.isActed = true → b.phase.isActed = true
  born : a.phase.isBorn = true → b.phase.isBorn = true

theorem Later.refl (a : Attempt) :
    Later a a :=
  ⟨rfl, rfl, id, id⟩

theorem Later.cleanKey {a b : Attempt} (h : Later a b) :
    b.cleanKey = a.cleanKey :=
  congrArg cleanText h.key

theorem Phase.isBorn_of_isActed {phase : Phase} (h : phase.isActed = true) :
    phase.isBorn = true := by
  unfold Phase.isBorn
  rw [h, Bool.true_or]

/-- A statement takes nothing back. -/
theorem Moves.later {s s' : System} {i : Nat} {a : Attempt} {phase : Phase}
    (h : Moves normalizeScanTargets s i a s' phase) :
    Later a { a with phase } := by
  have hacted : phase.isActed = true → Later a { a with phase } := fun hdone =>
    ⟨rfl, rfl, fun _ => hdone, fun _ => Phase.isBorn_of_isActed hdone⟩
  cases h with
  | refuses | stays | replays | syncs | starts | shares | stores | finishes => exact hacted rfl
  | acts _ _ hdone | fails _ _ _ hdone => exact hacted hdone
  | creates _ _ _ _ _ _ hended =>
      rcases hended with rfl | rfl
      · exact hacted rfl
      · exact hacted rfl
  | opens _ hphase =>
      refine ⟨rfl, rfl, fun hdone => ?_, fun hdone => ?_⟩
      · rw [hphase] at hdone
        cases hdone
      · rw [hphase] at hdone
        cases hdone
  | goes _ _ hfresh =>
      refine ⟨rfl, rfl, fun hdone => ?_, fun hdone => ?_⟩
      · rw [Phase.isBorn_of_isActed hdone] at hfresh
        cases hfresh
      · rw [hdone] at hfresh
        cases hfresh
  | registers row hphase =>
      refine ⟨rfl, rfl, fun hdone => ?_, fun _ => rfl⟩
      rw [hphase] at hdone
      cases hdone

theorem Moves.attempts {s s' : System} {i : Nat} {a : Attempt} {phase : Phase}
    (h : Moves normalizeScanTargets s i a s' phase) :
    s'.attempts = s.attempts := by
  cases h <;> rfl

theorem mem_act {s : System} {i : Nat} {a : Attempt} {effect : Nat × String} :
    effect ∈ (s.act i a).effects ↔
      effect ∈ s.effects ∨ effect.1 = i ∧ a.cleanKey = some effect.2 := by
  obtain ⟨j, key⟩ := effect
  cases hkey : a.cleanKey with
  | none => simp [System.act, hkey]
  | some k =>
      simp only [System.act, hkey, Option.map_some, Option.toList_some, List.mem_append,
        List.mem_singleton, Prod.mk.injEq, Option.some.injEq]
      exact or_congr_right ⟨fun h => ⟨h.1, h.2.symm⟩, fun h => ⟨h.1, h.2.symm⟩⟩

/-- The request has its effect with this statement. -/
def Acts (a : Attempt) : Prop :=
  a.phase = .acting ∨ ∃ source, a.phase = .creating source

theorem Acts.not_isActed {a : Attempt} (h : Acts a) :
    a.phase.isActed = false := by
  rcases h with hphase | ⟨source, hphase⟩
  · rw [hphase]
    rfl
  · rw [hphase]
    rfl

theorem Moves.effects {s s' : System} {i : Nat} {a : Attempt} {phase : Phase}
    (h : Moves normalizeScanTargets s i a s' phase) :
    s'.effects = s.effects ∨
      s'.effects = (s.act i a).effects ∧ Acts a ∧ phase.isActed = true := by
  cases h with
  | refuses | stays | replays | opens | goes | syncs | registers | fails | shares | stores
  | finishes => exact .inl rfl
  | acts _ hphase hacted => exact .inr ⟨rfl, .inl hphase, hacted⟩
  | creates source _ _ _ hphase _ hended =>
      refine .inr ⟨rfl, .inr ⟨source, hphase⟩, ?_⟩
      rcases hended with rfl | rfl
      · rfl
      · rfl
  | starts source _ hphase => exact .inr ⟨rfl, .inr ⟨source, hphase⟩, rfl⟩

theorem getElem?_moveTo {s : System} {i j : Nat} {a b : Attempt}
    (h : (s.moveTo i a).attempts[j]? = some b) :
    j = i ∧ b = a ∨ j ≠ i ∧ s.attempts[j]? = some b := by
  change (s.attempts.set i a)[j]? = some b at h
  by_cases hij : i = j
  · subst hij
    rw [List.getElem?_set_self'] at h
    obtain ⟨_, _, rfl⟩ := Option.map_eq_some_iff.1 h
    exact .inl ⟨rfl, rfl⟩
  · rw [List.getElem?_set_ne hij] at h
    exact .inr ⟨Ne.symm hij, h⟩

theorem Moves.mem_moveTo {s s' : System} {i j : Nat} {a b : Attempt} {phase : Phase}
    (h : Moves normalizeScanTargets s i a s' phase) (ha : s.attempts[i]? = some a)
    (hb : s.attempts[j]? = some b) :
    ∃ b' : Attempt, (s'.moveTo i { a with phase }).attempts[j]? = some b' ∧ Later b b' := by
  change ∃ b' : Attempt, (s'.attempts.set i { a with phase })[j]? = some b' ∧ Later b b'
  rw [h.attempts]
  by_cases hij : i = j
  · subst hij
    rw [ha, Option.some.injEq] at hb
    subst hb
    refine ⟨{ a with phase }, ?_, h.later⟩
    rw [List.getElem?_set_self']
    exact congrArg (Option.map _) ha
  · refine ⟨b, ?_, .refl b⟩
    rw [List.getElem?_set_ne hij, hb]

/-- A statement keeps the operations of the other requests that have a key. -/
theorem Moves.kept {s s' : System} {i j : Nat} {a b : Attempt} {phase : Phase} {key : String}
    (h : Moves normalizeScanTargets s i a s' phase) (hfits : Fits normalizeScanTargets s i a)
    (hb : s.attempts[j]? = some b) (hkey : b.cleanKey = some key) (hj : j ≠ i) :
    Kept s s' j := by
  cases h with
  | refuses | stays | replays | opens | goes | syncs | acts | fails | starts | shares =>
      exact kept_same rfl j
  | registers | creates => exact kept_append rfl j
  | stores operationId jobId hphase hrequest hfree =>
      have hjob : a.phase.job = some jobId := by rw [hphase]; rfl
      refine kept_map rfl fun row hrow hid => ?_
      have hne : row.operationId ≠ jobId := by
        intro heq
        obtain ⟨j', b', hj', hb', hkeys⟩ := hfits.job jobId hjob
        have hsame : j = j' := OperationId.ofAttempt.inj (hid.symm.trans (heq.trans hj'))
        subst hsame
        rw [hb, Option.some.injEq] at hb'
        subst hb'
        obtain ⟨hmine, -⟩ := hfits.keyedJob key (hkeys.symm.trans hkey) jobId hjob
        exact hj (OperationId.ofAttempt.inj (hj'.symm.trans hmine))
      rw [setOperationRetry, if_neg hne]
      exact .refl row
  | finishes status result refusal outcome hphase houtcome =>
      refine kept_map rfl fun row hrow hid => ?_
      have hne : row.operationId ≠ .ofAttempt i := by
        intro heq
        exact hj (OperationId.ofAttempt.inj (hid.symm.trans heq))
      rw [finishOperation, if_neg hne]
      exact .refl row

/-- What the operations say of a request stays true while its operation is kept. -/
theorem Fits.kept {s s' : System} {i : Nat} {a : Attempt} (h : Fits normalizeScanTargets s i a)
    (hkept : ∀ key, a.cleanKey = some key → Kept s s' i)
    (hlater : ∀ (j : Nat) (b : Attempt), s.attempts[j]? = some b →
      ∃ b' : Attempt, s'.attempts[j]? = some b' ∧ Later b b') :
    Fits normalizeScanTargets s' i a where
  suits := h.suits
  own key hkey hown := by
    obtain ⟨row, hrow, hid, hrowKey, hdescribes⟩ := h.own key hkey hown
    obtain ⟨row', hrow', hkeeps⟩ := hkept key hkey row hrow hid
    exact ⟨row', hrow', hkeeps.operationId.trans hid, hkeeps.key.trans hrowKey,
      hkeeps.describes hdescribes⟩
  job jobId hjob := by
    obtain ⟨j, b, hj, hb, hkeys⟩ := h.job jobId hjob
    obtain ⟨b', hb', hlate⟩ := hlater j b hb
    exact ⟨j, b', hj, hb', hlate.cleanKey.trans hkeys⟩
  keyedJob key hkey jobId hjob := by
    obtain ⟨hmine, row, hrow, hid⟩ := h.keyedJob key hkey jobId hjob
    obtain ⟨row', hrow', hkeeps⟩ := hkept key hkey row hrow hid
    exact ⟨hmine, row', hrow', hkeeps.operationId.trans hid⟩
  accepted key hkey haccepted := by
    obtain ⟨row, hrow, hid, hrowKey, hrecords⟩ := h.accepted key hkey haccepted
    obtain ⟨row', hrow', hkeeps⟩ := hkept key hkey row hrow hid
    exact ⟨row', hrow', hkeeps.operationId.trans hid, hkeeps.key.trans hrowKey,
      hkeeps.records hrecords⟩
  replayed := h.replayed

/-! ## The request that goes on -/

theorem suits_with {i : Nat} {a : Attempt} {phase other : Phase} :
    Suits normalizeScanTargets i { a with phase := other } phase ↔
      Suits normalizeScanTargets i a phase := by
  cases phase <;> exact Iff.rfl

theorem isRetry_of_job {i : Nat} {a : Attempt} {phase : Phase} {jobId : OperationId}
    (h : Suits normalizeScanTargets i a phase) (hjob : phase.job = some jobId) :
    a.request.isRetry = true := by
  cases phase with
  | syncing id => exact h
  | storing id => exact h
  | looking | reading | creating | preparing | registering | acting | recording | finishing
  | ended => cases hjob

theorem not_isRetry_of_hasOwn {i : Nat} {a : Attempt} {phase : Phase}
    (h : Suits normalizeScanTargets i a phase) (hown : phase.hasOwn = true) :
    a.request.isRetry = false := by
  cases phase with
  | acting => exact h
  | recording mpTaskId => exact h
  | finishing status result refusal => exact h.1
  | looking | reading | creating | preparing | registering | syncing | storing | ended => cases hown

theorem fits_of_quiet {s : System} {i : Nat} {a : Attempt}
    (hsuits : Suits normalizeScanTargets i a a.phase) (hown : a.phase.hasOwn = false)
    (hjob : a.phase.job = none) (haccepted : a.accepted = false)
    (hreplayed : ∀ row, a.phase ≠ .ended (.replayed row)) :
    Fits normalizeScanTargets s i a where
  suits := hsuits
  own key _ h := absurd h (by rw [hown]; exact Bool.false_ne_true)
  job jobId h := absurd h (by rw [hjob]; exact nofun)
  keyedJob key _ jobId h := absurd h (by rw [hjob]; exact nofun)
  accepted key _ h := absurd h (by rw [haccepted]; exact Bool.false_ne_true)
  replayed row h := absurd h (hreplayed row)

theorem fits_of_not_isBorn {s : System} {i : Nat} {a : Attempt} {phase : Phase}
    (hsuits : Suits normalizeScanTargets i a phase) (hborn : phase.isBorn = false) :
    Fits normalizeScanTargets s i { a with phase } := by
  cases phase with
  | acting | recording | finishing | syncing | storing | ended => cases hborn
  | looking | reading | creating | preparing | registering =>
      exact fits_of_quiet (suits_with.2 hsuits) rfl rfl rfl fun _ h => (nomatch h)

theorem fits_of_refused (s : System) (i : Nat) (a : Attempt) (refusal : Refusal) :
    Fits normalizeScanTargets s i { a with phase := .ended (.refused refusal) } :=
  fits_of_quiet trivial rfl rfl rfl fun _ h => (nomatch h)

/-- A deletion or a creation at work has its operation. -/
theorem fits_of_own {s : System} {i : Nat} {a : Attempt} {phase : Phase}
    (hsuits : Suits normalizeScanTargets i a phase) (hopen : phase.isOpen = true)
    (hretry : a.request.isRetry = false)
    (hown : ∀ key, a.cleanKey = some key →
      HasRow s i key fun row => Describes normalizeScanTargets row a.request) :
    Fits normalizeScanTargets s i { a with phase } where
  suits := suits_with.2 hsuits
  own key hkey _ := hown key hkey
  job jobId hjob := by
    rw [isRetry_of_job hsuits hjob] at hretry
    cases hretry
  keyedJob key hkey jobId hjob := by
    rw [isRetry_of_job hsuits hjob] at hretry
    cases hretry
  accepted key hkey haccepted := by
    cases phase with
    | ended outcome => cases hopen
    | looking | reading | creating | preparing | registering | syncing | storing | acting
    | recording | finishing => cases haccepted
  replayed row hrow := by
    change phase = .ended (.replayed row) at hrow
    rw [hrow] at hopen
    cases hopen

theorem fits_of_job {s : System} {i : Nat} {a : Attempt} {phase : Phase} {jobId : OperationId}
    (hphase : phase = .syncing jobId ∨ phase = .storing jobId) (hretry : a.request.isRetry = true)
    (hjob : ∃ (j : Nat) (b : Attempt),
      jobId = .ofAttempt j ∧ s.attempts[j]? = some b ∧ b.cleanKey = a.cleanKey)
    (hkeyed : ∀ key, a.cleanKey = some key →
      jobId = .ofAttempt i ∧ ∃ row ∈ s.rows, row.operationId = .ofAttempt i) :
    Fits normalizeScanTargets s i { a with phase } := by
  rcases hphase with rfl | rfl
  · exact ⟨hretry, fun _ _ h => absurd h Bool.false_ne_true, fun _ h => Option.some.inj h ▸ hjob,
      fun key hkey _ h => Option.some.inj h ▸ hkeyed key hkey,
      fun _ _ h => absurd h Bool.false_ne_true, fun _ h => (nomatch h)⟩
  · exact ⟨hretry, fun _ _ h => absurd h Bool.false_ne_true, fun _ h => Option.some.inj h ▸ hjob,
      fun key hkey _ h => Option.some.inj h ▸ hkeyed key hkey,
      fun _ _ h => absurd h Bool.false_ne_true, fun _ h => (nomatch h)⟩

theorem describes_finishOperation {row : Row} {request : Request}
    (h : Describes normalizeScanTargets row request) (operationId : OperationId) (status : String)
    (result : Option String) :
    Describes normalizeScanTargets (finishOperation operationId status result row) request := by
  unfold finishOperation
  split_ifs
  · cases request <;> exact h
  · exact h

/-- A deletion or a creation keeps its own operation. -/
theorem Moves.hasRow {s s' : System} {i : Nat} {a : Attempt} {phase : Phase} {key : String}
    (h : Moves normalizeScanTargets s i a s' phase)
    (hsuits : Suits normalizeScanTargets i a a.phase)
    (hretry : a.request.isRetry = false)
    (hrow : HasRow s i key fun row => Describes normalizeScanTargets row a.request) :
    HasRow s' i key fun row => Describes normalizeScanTargets row a.request := by
  obtain ⟨row, hmem, hid, hkey, hdescribes⟩ := hrow
  cases h with
  | refuses | stays | replays | opens | goes | syncs | acts | fails | starts | shares =>
      exact ⟨row, hmem, hid, hkey, hdescribes⟩
  | registers | creates => exact ⟨row, List.mem_append_left _ hmem, hid, hkey, hdescribes⟩
  | stores operationId jobId hphase =>
      rw [hphase] at hsuits
      rw [isRetry_of_job hsuits rfl] at hretry
      cases hretry
  | finishes status result refusal outcome =>
      refine ⟨_, List.mem_map_of_mem hmem, ?_, ?_, describes_finishOperation hdescribes _ _ _⟩
      · rw [finishOperation, if_pos hid]
        exact hid
      · rw [finishOperation, if_pos hid]
        exact hkey

/-- A retry that has been stored has its job with the key. -/
theorem fits_of_stored {s : System} {i : Nat} {a : Attempt} {operationId jobId : OperationId}
    (hfits : Fits normalizeScanTargets s i a) (hphase : a.phase = .storing jobId)
    (hrequest : a.request = .retry operationId) (s' : System)
    (hrows : s'.rows = s.rows.map (setOperationRetry operationId jobId a.cleanKey)) :
    Fits normalizeScanTargets s' i { a with phase := .ended (.accepted jobId) } := by
  refine ⟨trivial, fun _ _ h => absurd h Bool.false_ne_true, fun _ h => (nomatch h),
    fun _ _ _ h => (nomatch h), fun key hkey _ => ?_, fun _ h => (nomatch h)⟩
  obtain ⟨hmine, row, hrow, hid⟩ := hfits.keyedJob key hkey jobId (by rw [hphase]; rfl)
  have hjob : row.operationId = jobId := hid.trans hmine.symm
  have hkey' : a.cleanKey = some key := hkey
  refine ⟨setOperationRetry operationId jobId a.cleanKey row, ?_, ?_, ?_, ?_⟩
  · rw [hrows]
    exact List.mem_map_of_mem hrow
  · rw [setOperationRetry, if_pos hjob]
    exact hid
  · rw [setOperationRetry, if_pos hjob, hkey']
    rfl
  · change Records normalizeScanTargets _ a.request
    rw [hrequest, setOperationRetry, if_pos hjob]
    exact ⟨rfl, .inl rfl⟩

/-- A deletion or a creation that has been finished records what it has done. -/
theorem fits_of_finished {s : System} {i : Nat} {a : Attempt} {status : String}
    {result : Option String} {refusal : Option Refusal}
    (hfits : Fits normalizeScanTargets s i a) (hphase : a.phase = .finishing status result refusal)
    (hrefusal : refusal = none) (s' : System)
    (hrows : s'.rows = s.rows.map (finishOperation (.ofAttempt i) status result)) :
    Fits normalizeScanTargets s' i { a with phase := .ended (.accepted (.ofAttempt i)) } := by
  refine ⟨trivial, fun _ _ h => absurd h Bool.false_ne_true, fun _ h => (nomatch h),
    fun _ _ _ h => (nomatch h), fun key hkey _ => ?_, fun _ h => (nomatch h)⟩
  obtain ⟨row, hrow, hid, hrowKey, hdescribes⟩ := hfits.own key hkey (by rw [hphase]; rfl)
  have hsuits := hfits.suits
  rw [hphase] at hsuits
  refine ⟨finishOperation (.ofAttempt i) status result row, ?_, ?_, ?_, ?_⟩
  · rw [hrows]
    exact List.mem_map_of_mem hrow
  · rw [finishOperation, if_pos hid]
    exact hid
  · rw [finishOperation, if_pos hid]
    exact hrowKey
  · refine ⟨describes_finishOperation hdescribes _ _ _, .inr ?_⟩
    rw [finishOperation, if_pos hid]
    exact hsuits.2 hrefusal

/-! ## A statement keeps the invariant -/

theorem Inv.row_eq {s : System} (h : Inv normalizeScanTargets s) {row row' : Row} {key : String}
    (hrow : row ∈ s.rows) (hrow' : row' ∈ s.rows) (hkey : row.key = some key)
    (hkey' : row'.key = some key) :
    row = row' :=
  h.keys row hrow row' hrow' key hkey hkey'

theorem mem_of_byKey {s : System} {key : Option String} {row : Row} (h : s.byKey key = some row) :
    row ∈ s.rows ∧ ∃ k, key = some k ∧ row.key = some k := by
  obtain ⟨k, hk, hfind⟩ := Option.bind_eq_some_iff.1 h
  have hkey := List.find?_some hfind
  exact ⟨List.mem_of_find?_eq_some hfind, k, hk, of_decide_eq_true hkey⟩

/-- A record of a request is a record of a request that is the same. -/
theorem Records.same {row : Row} {request request' : Request}
    (h : Records normalizeScanTargets row request)
    (hsame : Same normalizeScanTargets request request') :
    Records normalizeScanTargets row request' := by
  obtain ⟨hdescribes, hstatus⟩ := h
  cases request with
  | delete taskId mode =>
      cases request' with
      | delete taskId' mode' =>
          obtain ⟨rfl, rfl⟩ := hsame
          exact ⟨hdescribes, hstatus⟩
      | retry | create => exact hsame.elim
  | retry operationId =>
      cases request' with
      | retry operationId' =>
          obtain rfl : operationId = operationId' := hsame
          exact ⟨hdescribes, hstatus⟩
      | delete | create => exact hsame.elim
  | create presetId assetGroupIds targets roleIds =>
      cases request' with
      | create presetId' assetGroupIds' targets' roleIds' =>
          obtain ⟨rfl, hselection⟩ := hsame
          obtain ⟨hkind, hsubject, selected, hselected, hrequest⟩ := hdescribes
          exact ⟨⟨hkind, hsubject, selected, hselection.symm.trans hselected, hrequest⟩, hstatus⟩
      | delete | retry => exact hsame.elim

theorem Inv.records_of_found {s : System} (h : Inv normalizeScanTargets s) {request : Request}
    {key : Option String} {row : Row} (hrow : s.byKey key = some row)
    (hcheck : checkReplay row request = none)
    (hcareful : ∀ k ∈ key, Reusable normalizeScanTargets s request k) :
    Records normalizeScanTargets row request := by
  obtain ⟨hmem, k, rfl, hkey⟩ := mem_of_byKey hrow
  rcases (hcareful k rfl).1 row hrow with hrejected | ⟨b, hb, hbKey, haccepted, hsame⟩
  · rw [hcheck] at hrejected
    cases hrejected
  · obtain ⟨j, hj⟩ := List.mem_iff_getElem?.1 hb
    obtain ⟨row', hrow', -, hkey', hrecords⟩ := (h.fits j b hj).accepted k hbKey haccepted
    rw [h.row_eq hmem hrow' hkey hkey']
    exact hrecords.same hsame

theorem engaged_of_mem {s : System} {i : Nat} {a : Attempt} {key : String}
    (h : (i, key) ∈ s.effects) :
    s.engaged i a = true := by
  unfold System.engaged
  rw [List.any_eq_true.2 ⟨(i, key), h, decide_eq_true rfl⟩, Bool.or_true]

theorem engaged_of_isOpen {s : System} {i : Nat} {a : Attempt} (h : a.phase.isOpen = true) :
    s.engaged i a = true := by
  unfold System.engaged
  rw [h, Bool.true_or, Bool.true_or]

/-- A run with a key is not shared by another request that has the key. -/
theorem Inv.not_shared {s : System} (h : Inv normalizeScanTargets s) {i : Nat} {a : Attempt}
    {source : Row} {run : AutomationRun} {key : String} (ha : s.attempts[i]? = some a)
    (hphase : a.phase = .creating source) (hrun : run ∈ s.runs)
    (hretry : run.triggerType = "retry") (hkey : a.key = some key) (hsame : run.key = some key) :
    a.cleanKey = none ∧ ∃ (j : Nat) (b : Attempt),
      run.runId = .ofAttempt j ∧ s.attempts[j]? = some b ∧ b.cleanKey = a.cleanKey := by
  obtain ⟨j, b, hid, hb, hbKey, hbRetry, heffects⟩ := h.runs run hrun hretry key hsame
  have hclean : b.cleanKey = a.cleanKey := congrArg cleanText (hbKey.trans hkey.symm)
  refine ⟨?_, j, b, hid, hb, hclean⟩
  cases hcleanKey : a.cleanKey with
  | none => rfl
  | some k =>
      have heffect := heffects k (hclean.trans hcleanKey)
      have hne : i ≠ j := by
        rintro rfl
        obtain ⟨c, hc, -, hacted, -⟩ := h.effects _ heffect
        rw [ha, Option.some.injEq] at hc
        subst hc
        rw [hphase] at hacted
        cases hacted
      have hopen : a.phase.isOpen = true := by rw [hphase]; rfl
      have hapart := h.apart i j a b k hne ha hb hcleanKey (hclean.trans hcleanKey)
        (engaged_of_isOpen hopen) (engaged_of_mem heffect)
      rw [hapart.2] at hbRetry
      cases hbRetry

/-- The request that goes on fits where it stands then. -/
theorem Inv.fits_moved {s s' : System} {i : Nat} {a : Attempt} {phase : Phase}
    (h : Inv normalizeScanTargets s) (ha : s.attempts[i]? = some a)
    (hmoves : Moves normalizeScanTargets s i a s' phase)
    (hcareful : a.phase = .looking → ∀ key ∈ a.cleanKey,
      Reusable normalizeScanTargets s a.request key) :
    Fits normalizeScanTargets (s'.moveTo i { a with phase }) i { a with phase } := by
  have hfits := h.fits i a ha
  have hsuits := hfits.suits
  have hall := fun (j : Nat) (b : Attempt) (hb : s.attempts[j]? = some b) =>
    hmoves.mem_moveTo ha hb
  cases hmoves with
  | refuses refusal => exact fits_of_refused _ i a refusal
  | stays outcome hphase =>
      have hsame : ({ a with phase := .ended outcome } : Attempt) = a := by rw [← hphase]
      rw [hsame] at hall ⊢
      exact hfits.kept (fun _ _ => kept_same rfl i) hall
  | replays row hphase hrow hcheck =>
      refine ⟨trivial, fun _ _ h => absurd h Bool.false_ne_true, fun _ h => (nomatch h),
        fun _ _ _ h => (nomatch h), fun _ _ h => absurd h Bool.false_ne_true, fun row' hrow' => ?_⟩
      obtain rfl : row = row' := by
        injection hrow' with houtcome
        injection houtcome
      exact h.records_of_found hrow hcheck (hcareful hphase)
  | opens phase hphase hnone hborn hnew => exact fits_of_not_isBorn hnew hborn
  | goes phase hopen hfresh hborn hnew => exact fits_of_not_isBorn hnew hborn
  | syncs jobId hphase =>
      have hjob : a.phase.job = some jobId := by rw [hphase]; rfl
      obtain ⟨j, b, hj, hb, hclean⟩ := hfits.job jobId hjob
      obtain ⟨b', hb', hlater⟩ := hall j b hb
      exact fits_of_job (.inr rfl) (isRetry_of_job hsuits hjob)
        ⟨j, b', hj, hb', hlater.cleanKey.trans hclean⟩ fun key hkey =>
          hfits.keyedJob key hkey jobId hjob
  | registers row hphase hfree =>
      rw [hphase] at hsuits
      obtain ⟨hretry, hid, hkey, hdescribes⟩ := hsuits
      exact fits_of_own hretry rfl hretry fun key hclean =>
        ⟨row, List.mem_append_right _ (List.mem_singleton_self row), hid, hkey.trans hclean,
          hdescribes⟩
  | acts phase hphase hacted hopen hnew =>
      have hown : a.phase.hasOwn = true := by rw [hphase]; rfl
      exact fits_of_own hnew hopen (not_isRetry_of_hasOwn hsuits hown) fun key hclean =>
        hfits.own key hclean hown
  | fails phase hphase hopen hacted hnew =>
      have hown : a.phase.hasOwn = true := by
        rcases hphase with hphase | ⟨mpTaskId, hphase⟩
        · rw [hphase]
          rfl
        · rw [hphase]
          rfl
      exact fits_of_own hnew hopen (not_isRetry_of_hasOwn hsuits hown) fun key hclean =>
        hfits.own key hclean hown
  | creates source row runs phase hphase hrow hended hruns =>
      rw [hphase] at hsuits
      rcases hended with rfl | rfl
      · obtain ⟨a', ha', hlater⟩ := hall i a ha
        refine fits_of_job (.inl rfl) hsuits ⟨i, a', rfl, ha', hlater.cleanKey⟩ fun _ _ => ?_
        exact ⟨rfl, row, List.mem_append_right _ (List.mem_singleton_self row), hrow.1⟩
      · exact fits_of_refused _ i a .raised
  | starts source run hphase hrun => exact fits_of_refused _ i a .raised
  | shares source run key hphase hrun hretry hkey hsame =>
      rw [hphase] at hsuits
      obtain ⟨hnone, j, b, hid, hb, hclean⟩ := h.not_shared ha hphase hrun hretry hkey hsame
      obtain ⟨b', hb', hlater⟩ := hall j b hb
      refine fits_of_job (.inl rfl) hsuits ⟨j, b', hid, hb', hlater.cleanKey.trans hclean⟩ ?_
      intro k hk
      rw [hnone] at hk
      cases hk
  | stores operationId jobId hphase hrequest hfree =>
      exact fits_of_stored hfits hphase hrequest _ rfl
  | finishes status result refusal outcome hphase houtcome =>
      rcases houtcome with ⟨rfl, hnone⟩ | ⟨refusal', rfl⟩
      · exact fits_of_finished hfits hphase hnone _ rfl
      · exact fits_of_refused _ i a refusal'

theorem Inv.fits_all {s s' : System} {i : Nat} {a : Attempt} {phase : Phase}
    (h : Inv normalizeScanTargets s) (ha : s.attempts[i]? = some a)
    (hmoves : Moves normalizeScanTargets s i a s' phase)
    (hcareful : a.phase = .looking → ∀ key ∈ a.cleanKey,
      Reusable normalizeScanTargets s a.request key) :
    ∀ (j : Nat) (b : Attempt), (s'.moveTo i { a with phase }).attempts[j]? = some b →
      Fits normalizeScanTargets (s'.moveTo i { a with phase }) j b := by
  intro j b hb
  rcases getElem?_moveTo hb with ⟨rfl, rfl⟩ | ⟨hj, hold⟩
  · exact h.fits_moved ha hmoves hcareful
  · rw [hmoves.attempts] at hold
    refine (h.fits j b hold).kept (fun key hkey => ?_) fun k c hc => hmoves.mem_moveTo ha hc
    exact hmoves.kept (h.fits i a ha) hold hkey hj

/-- The requests that have had an effect after a statement. -/
theorem Inv.effects_moved {s s' : System} {i : Nat} {a : Attempt} {phase : Phase}
    (h : Inv normalizeScanTargets s) (ha : s.attempts[i]? = some a)
    (hmoves : Moves normalizeScanTargets s i a s' phase) :
    ∀ effect ∈ (s'.moveTo i { a with phase }).effects, ∃ b : Attempt,
      (s'.moveTo i { a with phase }).attempts[effect.1]? = some b ∧ b.cleanKey = some effect.2 ∧
        b.phase.isActed = true ∧ (b.request.isRetry = false →
          HasRow (s'.moveTo i { a with phase }) effect.1 effect.2 fun row =>
            Describes normalizeScanTargets row b.request) := by
  have hsuits := (h.fits i a ha).suits
  have hold : ∀ effect ∈ s.effects, ∃ b : Attempt,
      (s'.moveTo i { a with phase }).attempts[effect.1]? = some b ∧ b.cleanKey = some effect.2 ∧
        b.phase.isActed = true ∧ (b.request.isRetry = false →
          HasRow (s'.moveTo i { a with phase }) effect.1 effect.2 fun row =>
            Describes normalizeScanTargets row b.request) := by
    intro effect heffect
    obtain ⟨b, hb, hkey, hacted, hrow⟩ := h.effects effect heffect
    obtain ⟨b', hb', hlater⟩ := hmoves.mem_moveTo ha hb
    refine ⟨b', hb', hlater.cleanKey.trans hkey, hlater.acted hacted, fun hretry => ?_⟩
    rw [hlater.request] at hretry ⊢
    by_cases hi : effect.1 = i
    · rw [hi, ha, Option.some.injEq] at hb
      subst hb
      rw [hi]
      exact hmoves.hasRow hsuits hretry (hi ▸ hrow hretry)
    · obtain ⟨row, hmem, hid, hrowKey, hdescribes⟩ := hrow hretry
      obtain ⟨row', hmem', hkeeps⟩ := hmoves.kept (h.fits i a ha) hb hkey hi row hmem hid
      exact ⟨row', hmem', hkeeps.operationId.trans hid, hkeeps.key.trans hrowKey,
        hkeeps.describes hdescribes⟩
  intro effect heffect
  change effect ∈ s'.effects at heffect
  rcases hmoves.effects with hsame | ⟨hnew, hacts, hacted⟩
  · rw [hsame] at heffect
    exact hold effect heffect
  · rw [hnew, mem_act] at heffect
    rcases heffect with hbefore | ⟨hi, hkey⟩
    · exact hold effect hbefore
    · obtain ⟨a', ha', hlater⟩ := hmoves.mem_moveTo ha ha
      have hmoved := (getElem?_moveTo ha').resolve_right fun hne => hne.1 rfl
      obtain ⟨-, rfl⟩ := hmoved
      rw [hi]
      refine ⟨_, ha', hkey, hacted, fun hretry => ?_⟩
      rcases hacts with hphase | ⟨source, hphase⟩
      · exact hmoves.hasRow hsuits hretry
          ((h.fits i a ha).own effect.2 hkey (by rw [hphase]; rfl))
      · rw [hphase] at hsuits
        have hyes : a.request.isRetry = true := hsuits
        change a.request.isRetry = false at hretry
        rw [hyes] at hretry
        cases hretry

/-- The key of a request that acts has had no effect. -/
theorem Inv.not_mem_effects {s : System} {i : Nat} {a : Attempt} {key : String}
    (h : Inv normalizeScanTargets s) (ha : s.attempts[i]? = some a) (hacts : Acts a)
    (hkey : a.cleanKey = some key) (j : Nat) :
    (j, key) ∉ s.effects := by
  intro heffect
  obtain ⟨b, hb, hbKey, hacted, hrow⟩ := h.effects (j, key) heffect
  have hne : i ≠ j := by
    rintro rfl
    rw [ha, Option.some.injEq] at hb
    subst hb
    rw [hacts.not_isActed] at hacted
    cases hacted
  have hopen : a.phase.isOpen = true := by
    rcases hacts with hphase | ⟨source, hphase⟩
    · rw [hphase]
      rfl
    · rw [hphase]
      rfl
  obtain ⟨haRetry, hbRetry⟩ := h.apart i j a b key hne ha hb hkey hbKey
    (engaged_of_isOpen hopen) (engaged_of_mem heffect)
  rcases hacts with hphase | ⟨source, hphase⟩
  · -- both have registered an operation with the key, which is unique
    obtain ⟨row, hmem, hid, hrowKey, -⟩ := (h.fits i a ha).own key hkey (by rw [hphase]; rfl)
    obtain ⟨row', hmem', hid', hrowKey', -⟩ := hrow hbRetry
    have hsame := h.row_eq hmem hmem' hrowKey hrowKey'
    subst hsame
    exact hne (OperationId.ofAttempt.inj (hid.symm.trans hid'))
  · have hsuits := (h.fits i a ha).suits
    rw [hphase] at hsuits
    have hyes : a.request.isRetry = true := hsuits
    rw [hyes] at haRetry
    cases haRetry

/-- No key has a second effect. -/
theorem Inv.once_moved {s s' : System} {i : Nat} {a : Attempt} {phase : Phase}
    (h : Inv normalizeScanTargets s) (ha : s.attempts[i]? = some a)
    (hmoves : Moves normalizeScanTargets s i a s' phase) :
    AtMostOnce s' := by
  have honce : (s.effects.map Prod.snd).Nodup := h.once
  unfold AtMostOnce
  rcases hmoves.effects with hsame | ⟨hnew, hacts, -⟩
  · rw [hsame]
    exact honce
  · rw [hnew]
    cases hkey : a.cleanKey with
    | none => simpa [System.act, hkey] using honce
    | some key =>
        simp only [System.act, hkey, Option.map_some, Option.toList_some, List.map_append,
          List.map_cons, List.map_nil]
        refine List.nodup_append.2 ⟨honce, List.nodup_singleton key, fun k hk k' hk' heq => ?_⟩
        obtain ⟨⟨j, _⟩, heffect, rfl⟩ := List.mem_map.1 hk
        obtain rfl := heq.trans (List.mem_singleton.1 hk')
        exact h.not_mem_effects ha hacts hkey j heffect

/-- A request that is engaged after a statement was before, or has set to work with it. -/
theorem Moves.engaged {s s' : System} {i j : Nat} {a b : Attempt} {phase : Phase}
    (hmoves : Moves normalizeScanTargets s i a s' phase) (ha : s.attempts[i]? = some a)
    (hb : (s'.moveTo i { a with phase }).attempts[j]? = some b)
    (hengaged : (s'.moveTo i { a with phase }).engaged j b = true) :
    (∃ c : Attempt, s.attempts[j]? = some c ∧ c.cleanKey = b.cleanKey ∧ c.request = b.request ∧
      s.engaged j c = true) ∨
      j = i ∧ a.phase = .looking ∧ s.byKey a.cleanKey = none ∧ b = { a with phase } := by
  rcases getElem?_moveTo hb with ⟨rfl, rfl⟩ | ⟨hj, hold⟩
  · have hopen : a.phase.isOpen = true → ∃ c : Attempt, s.attempts[j]? = some c ∧
        c.cleanKey = a.cleanKey ∧ c.request = a.request ∧ s.engaged j c = true := fun h =>
      ⟨a, ha, rfl, rfl, engaged_of_isOpen h⟩
    have hdone : (s.effects.any fun effect => decide (effect.1 = j)) = true →
        ∃ c : Attempt, s.attempts[j]? = some c ∧ c.cleanKey = a.cleanKey ∧
          c.request = a.request ∧ s.engaged j c = true := by
      intro h
      refine ⟨a, ha, rfl, rfl, ?_⟩
      unfold System.engaged
      rw [h, Bool.or_true]
    cases hmoves with
    | refuses refusal hended => exact .inl (hdone hengaged)
    | replays row hphase hrow hcheck => exact .inl (hdone hengaged)
    | stays outcome hphase =>
        have hsame : ({ a with phase := .ended outcome } : Attempt) = a := by rw [← hphase]
        rw [hsame] at hengaged
        exact .inl ⟨a, ha, rfl, rfl, hengaged⟩
    | opens phase hphase hnone => exact .inr ⟨rfl, hphase, hnone, rfl⟩
    | goes phase hyes => exact .inl (hopen hyes)
    | syncs jobId hphase => exact .inl (hopen (by rw [hphase]; rfl))
    | registers row hphase => exact .inl (hopen (by rw [hphase]; rfl))
    | acts phase hphase => exact .inl (hopen (by rw [hphase]; rfl))
    | fails phase hphase =>
        rcases hphase with hphase | ⟨mpTaskId, hphase⟩
        · exact .inl (hopen (by rw [hphase]; rfl))
        · exact .inl (hopen (by rw [hphase]; rfl))
    | creates source row runs phase hphase => exact .inl (hopen (by rw [hphase]; rfl))
    | starts source run hphase => exact .inl (hopen (by rw [hphase]; rfl))
    | shares source run key hphase => exact .inl (hopen (by rw [hphase]; rfl))
    | stores operationId jobId hphase => exact .inl (hopen (by rw [hphase]; rfl))
    | finishes status result refusal outcome hphase => exact .inl (hopen (by rw [hphase]; rfl))
  · rw [hmoves.attempts] at hold
    refine .inl ⟨b, hold, rfl, rfl, ?_⟩
    unfold System.engaged at hengaged ⊢
    rw [Bool.or_eq_true] at hengaged ⊢
    refine hengaged.imp_right fun hany => ?_
    obtain ⟨effect, heffect, hid⟩ := List.any_eq_true.1 hany
    refine List.any_eq_true.2 ⟨effect, ?_, hid⟩
    change effect ∈ s'.effects at heffect
    rcases hmoves.effects with hsame | ⟨hnew, -, -⟩
    · rw [hsame] at heffect
      exact heffect
    · rw [hnew, mem_act] at heffect
      exact heffect.resolve_right fun h => hj ((of_decide_eq_true hid).symm.trans h.1)

/-- The runs that have been started to retry with a key belong to a request with the key. -/
theorem Inv.runs_moved {s s' : System} {i : Nat} {a : Attempt} {phase : Phase}
    (h : Inv normalizeScanTargets s) (ha : s.attempts[i]? = some a)
    (hmoves : Moves normalizeScanTargets s i a s' phase) :
    ∀ run ∈ s'.runs, run.triggerType = "retry" → ∀ key, run.key = some key →
      ∃ (j : Nat) (b : Attempt), run.runId = .ofAttempt j ∧
        (s'.moveTo i { a with phase }).attempts[j]? = some b ∧ b.key = some key ∧
          b.request.isRetry = true ∧ ∀ k, b.cleanKey = some k → (j, k) ∈ s'.effects := by
  have hsuits := (h.fits i a ha).suits
  obtain ⟨a', ha', hlater⟩ := hmoves.mem_moveTo ha ha
  have hmono : ∀ effect ∈ s.effects, effect ∈ s'.effects := by
    intro effect heffect
    rcases hmoves.effects with hsame | ⟨hnew, -, -⟩
    · rw [hsame]
      exact heffect
    · rw [hnew, mem_act]
      exact .inl heffect
  have hold : ∀ run ∈ s.runs, run.triggerType = "retry" → ∀ key, run.key = some key →
      ∃ (j : Nat) (b : Attempt), run.runId = .ofAttempt j ∧
        (s'.moveTo i { a with phase }).attempts[j]? = some b ∧ b.key = some key ∧
          b.request.isRetry = true ∧ ∀ k, b.cleanKey = some k → (j, k) ∈ s'.effects := by
    intro run hrun hretry key hkey
    obtain ⟨j, b, hid, hb, hbKey, hbRetry, heffects⟩ := h.runs run hrun hretry key hkey
    obtain ⟨b', hb', hlate⟩ := hmoves.mem_moveTo ha hb
    exact ⟨j, b', hid, hb', hlate.key.trans hbKey, by rw [hlate.request]; exact hbRetry,
      fun k hk => hmono _ (heffects k (hlate.cleanKey.symm.trans hk))⟩
  have hmine : ∀ run : AutomationRun, run.runId = .ofAttempt i → run.key = a.key →
      a.request.isRetry = true → (∀ k, a.cleanKey = some k → (i, k) ∈ s'.effects) →
        ∀ key, run.key = some key → ∃ (j : Nat) (b : Attempt), run.runId = .ofAttempt j ∧
          (s'.moveTo i { a with phase }).attempts[j]? = some b ∧ b.key = some key ∧
            b.request.isRetry = true ∧ ∀ k, b.cleanKey = some k → (j, k) ∈ s'.effects := by
    intro run hid hrunKey hretry heffects key hkey
    exact ⟨i, a', hid, ha', hlater.key.trans (hrunKey.symm.trans hkey),
      by rw [hlater.request]; exact hretry,
      fun k hk => heffects k (hlater.cleanKey.symm.trans hk)⟩
  have hact : ∀ k, a.cleanKey = some k → (i, k) ∈ (s.act i a).effects := fun k hk =>
    mem_act.2 (.inr ⟨rfl, hk⟩)
  cases hmoves with
  | refuses | stays | replays | opens | goes | syncs | registers | acts | fails | shares | stores
  | finishes => exact hold
  | creates source row runs phase hphase hrow hended hruns =>
      rw [hphase] at hsuits
      intro run hrun hretry
      rcases List.mem_append.1 hrun with hbefore | hnew
      · exact hold run hbefore hretry
      · exact hmine run (hruns run hnew).1 (hruns run hnew).2 hsuits hact
  | starts source new hphase hnew =>
      rw [hphase] at hsuits
      intro run hrun hretry
      rcases List.mem_append.1 hrun with hbefore | hmem
      · exact hold run hbefore hretry
      · rw [List.mem_singleton.1 hmem]
        exact hmine new hnew.1 hnew.2 hsuits hact

/-- A retry stays apart from the other requests with its key. -/
theorem Inv.apart_moved {s s' : System} {i : Nat} {a : Attempt} {phase : Phase}
    (h : Inv normalizeScanTargets s) (ha : s.attempts[i]? = some a)
    (hmoves : Moves normalizeScanTargets s i a s' phase)
    (hcareful : a.phase = .looking → ∀ key ∈ a.cleanKey,
      Reusable normalizeScanTargets s a.request key) :
    ∀ (j k : Nat) (b c : Attempt) (key : String), j ≠ k →
      (s'.moveTo i { a with phase }).attempts[j]? = some b →
      (s'.moveTo i { a with phase }).attempts[k]? = some c → b.cleanKey = some key →
      c.cleanKey = some key → (s'.moveTo i { a with phase }).engaged j b = true →
      (s'.moveTo i { a with phase }).engaged k c = true →
        b.request.isRetry = false ∧ c.request.isRetry = false := by
  -- the request that sets to work has looked the others up
  have hnew : ∀ (k : Nat) (c : Attempt) (key : String), a.phase = .looking →
      s.byKey a.cleanKey = none → s.attempts[k]? = some c → a.cleanKey = some key →
      c.cleanKey = some key → s.engaged k c = true →
        a.request.isRetry = false ∧ c.request.isRetry = false := by
    intro k c key hphase hnone hc hkey hcKey hengaged
    rw [hkey] at hnone
    have hlt : k < s.attempts.length := (List.getElem?_eq_some_iff.1 hc).1
    exact ((hcareful hphase key hkey).2 hnone k hlt c hc hcKey hengaged).symm
  intro j k b c key hne hb hc hbKey hcKey hbEngaged hcEngaged
  rcases hmoves.engaged ha hb hbEngaged with
    ⟨b', hb', hbClean, hbRequest, hbOld⟩ | ⟨rfl, hphase, hnone, rfl⟩
  · rw [← hbClean] at hbKey
    rw [← hbRequest]
    rcases hmoves.engaged ha hc hcEngaged with
      ⟨c', hc', hcClean, hcRequest, hcOld⟩ | ⟨rfl, hphase, hnone, rfl⟩
    · rw [← hcClean] at hcKey
      rw [← hcRequest]
      exact h.apart j k b' c' key hne hb' hc' hbKey hcKey hbOld hcOld
    · exact (hnew j b' key hphase hnone hb' hcKey hbKey hbOld).symm
  · rcases hmoves.engaged ha hc hcEngaged with
      ⟨c', hc', hcClean, hcRequest, hcOld⟩ | ⟨rfl, -, -, -⟩
    · rw [← hcClean] at hcKey
      rw [← hcRequest]
      exact hnew k c' key hphase hnone hc' hbKey hcKey hcOld
    · exact absurd rfl hne

/-- The operation that a statement adds: it is the request's own, and its key is free. -/
structure Added (s : System) (i : Nat) (a : Attempt) (row : Row) : Prop where
  operationId : row.operationId = .ofAttempt i
  fresh : a.phase.isBorn = false
  key : ∀ key, row.key = some key → a.cleanKey = some key
  free : ∀ row' ∈ s.rows, ∀ key, row.key = some key → row'.key ≠ some key

/-- The write of a statement: the operations keep their ids, and a key goes where it is free. -/
structure Writes (s : System) (a : Attempt) (f : Row → Row) : Prop where
  operationId : ∀ row, (f row).operationId = row.operationId
  key : ∀ row ∈ s.rows, ∀ key, (f row).key = some key → row.key = some key ∨
    a.cleanKey = some key ∧ a.phase.job = some row.operationId ∧
      ∀ row' ∈ s.rows, row'.key = some key → row'.operationId = row.operationId

theorem ne_of_not_keyTaken {s : System} {operationId : OperationId} {key : String}
    (h : s.keyTaken operationId (some key) = false) {row : Row} (hrow : row ∈ s.rows)
    (hkey : row.key = some key) :
    row.operationId = operationId := by
  by_contra hne
  have htaken : s.keyTaken operationId (some key) = true := by
    refine List.any_eq_true.2 ⟨row, hrow, ?_⟩
    rw [decide_eq_true hne, decide_eq_true hkey]
    rfl
  rw [h] at htaken
  cases htaken

/-- What a statement does to the operations: nothing, or it adds one, or writes one. -/
theorem Inv.rows_moved {s s' : System} {i : Nat} {a : Attempt} {phase : Phase}
    (h : Inv normalizeScanTargets s) (ha : s.attempts[i]? = some a)
    (hmoves : Moves normalizeScanTargets s i a s' phase) :
    s'.rows = s.rows ∨
      (∃ row, s'.rows = s.rows ++ [row] ∧ Added s i a row ∧ phase.isBorn = true) ∨
        ∃ f, s'.rows = s.rows.map f ∧ Writes s a f := by
  have hsuits := (h.fits i a ha).suits
  cases hmoves with
  | refuses | stays | replays | opens | goes | syncs | acts | fails | starts | shares =>
      exact .inl rfl
  | registers row hphase hfree =>
      rw [hphase] at hsuits
      obtain ⟨hretry, hid, hkey, hdescribes⟩ := hsuits
      refine .inr (.inl ⟨row, rfl, ⟨hid, by rw [hphase]; rfl, ?_, ?_⟩, rfl⟩)
      · intro key hrowKey
        exact hkey.symm.trans hrowKey
      · intro row' hrow' key hrowKey hkey'
        rw [hrowKey] at hfree
        obtain ⟨b, hb, hborn, -⟩ := h.born row' hrow' i
          ((ne_of_not_keyTaken hfree hrow' hkey').trans hid)
        rw [ha, Option.some.injEq] at hb
        subst hb
        rw [hphase] at hborn
        cases hborn
  | creates source row runs phase hphase hrow hended hruns =>
      refine .inr (.inl ⟨row, rfl, ⟨hrow.1, by rw [hphase]; rfl, ?_, ?_⟩, ?_⟩)
      · intro key hkey
        rw [hrow.2.1] at hkey
        cases hkey
      · intro row' hrow' key hkey
        rw [hrow.2.1] at hkey
        cases hkey
      · rcases hended with rfl | rfl
        · rfl
        · rfl
  | stores operationId jobId hphase hrequest hfree =>
      refine .inr (.inr ⟨_, rfl, fun row => ?_, fun row hrow key hkey => ?_⟩)
      · unfold setOperationRetry
        split_ifs
        · rfl
        · rfl
      · unfold setOperationRetry at hkey
        split_ifs at hkey with hid
        · cases hclean : a.cleanKey with
          | none =>
              rw [hclean] at hkey
              exact .inl hkey
          | some k =>
              rw [hclean] at hkey
              refine .inr ⟨hkey, by rw [hphase, hid]; rfl, fun row' hrow' hkey' => ?_⟩
              have htaken := hfree ⟨row, hrow, hid⟩
              rw [hclean] at htaken
              rw [hid]
              exact ne_of_not_keyTaken htaken hrow' (hkey'.trans hkey.symm)
        · exact .inl hkey
  | finishes status result refusal outcome hphase houtcome =>
      refine .inr (.inr ⟨_, rfl, fun row => ?_, fun row hrow key hkey => .inl ?_⟩)
      · unfold finishOperation
        split_ifs
        · rfl
        · rfl
      · unfold finishOperation at hkey
        split_ifs at hkey
        · exact hkey
        · exact hkey

/-- The ids of the operations after a statement. -/
theorem Inv.born_moved {s s' : System} {i : Nat} {a : Attempt} {phase : Phase}
    (h : Inv normalizeScanTargets s) (ha : s.attempts[i]? = some a)
    (hmoves : Moves normalizeScanTargets s i a s' phase) :
    ∀ row ∈ s'.rows, ∀ (j : Nat), row.operationId = .ofAttempt j → ∃ b : Attempt,
      (s'.moveTo i { a with phase }).attempts[j]? = some b ∧ b.phase.isBorn = true ∧
        ∀ key, row.key = some key → b.cleanKey = some key := by
  have hold : ∀ row ∈ s.rows, ∀ (j : Nat), row.operationId = .ofAttempt j → ∃ b : Attempt,
      (s'.moveTo i { a with phase }).attempts[j]? = some b ∧ b.phase.isBorn = true ∧
        ∀ key, row.key = some key → b.cleanKey = some key := by
    intro row hrow j hid
    obtain ⟨b, hb, hborn, hkey⟩ := h.born row hrow j hid
    obtain ⟨b', hb', hlater⟩ := hmoves.mem_moveTo ha hb
    exact ⟨b', hb', hlater.born hborn, fun key hk => hlater.cleanKey.trans (hkey key hk)⟩
  intro row hrow j hid
  rcases h.rows_moved ha hmoves with hsame | ⟨new, hrows, hadded, hborn⟩ | ⟨f, hrows, hwrites⟩
  · rw [hsame] at hrow
    exact hold row hrow j hid
  · rw [hrows] at hrow
    rcases List.mem_append.1 hrow with hbefore | hnew
    · exact hold row hbefore j hid
    · rw [List.mem_singleton.1 hnew] at hid ⊢
      obtain rfl : i = j := OperationId.ofAttempt.inj (hadded.operationId.symm.trans hid)
      obtain ⟨a', ha', hlater⟩ := hmoves.mem_moveTo ha ha
      obtain ⟨-, rfl⟩ := (getElem?_moveTo ha').resolve_right fun hne => hne.1 rfl
      exact ⟨_, ha', hborn, hadded.key⟩
  · rw [hrows] at hrow
    obtain ⟨old, hmem, rfl⟩ := List.mem_map.1 hrow
    rw [hwrites.operationId] at hid
    obtain ⟨b', hb', hborn, hkeys⟩ := hold old hmem j hid
    refine ⟨b', hb', hborn, fun key hkey => ?_⟩
    rcases hwrites.key old hmem key hkey with hbefore | ⟨hclean, hjob, -⟩
    · exact hkeys key hbefore
    · -- the job of the request is one of a request with the same key
      obtain ⟨j', c, hj', hc, hcKey⟩ := (h.fits i a ha).job _ hjob
      obtain rfl : j = j' := OperationId.ofAttempt.inj (hid.symm.trans hj')
      obtain ⟨c', hc', hlater⟩ := hmoves.mem_moveTo ha hc
      rw [hb', Option.some.injEq] at hc'
      subst hc'
      exact hlater.cleanKey.trans (hcKey.trans hclean)

/-- The ids of the operations stay unique. -/
theorem Inv.ids_moved {s s' : System} {i : Nat} {a : Attempt} {phase : Phase}
    (h : Inv normalizeScanTargets s) (ha : s.attempts[i]? = some a)
    (hmoves : Moves normalizeScanTargets s i a s' phase) :
    ∀ row ∈ s'.rows, ∀ row' ∈ s'.rows, row.operationId = row'.operationId → row = row' := by
  intro row hrow row' hrow' hid
  rcases h.rows_moved ha hmoves with hsame | ⟨new, hrows, hadded, -⟩ | ⟨f, hrows, hwrites⟩
  · rw [hsame] at hrow hrow'
    exact h.ids row hrow row' hrow' hid
  · have hnew : ∀ old ∈ s.rows, old.operationId ≠ new.operationId := by
      intro old hold heq
      obtain ⟨b, hb, hborn, -⟩ := h.born old hold i (heq.trans hadded.operationId)
      rw [ha, Option.some.injEq] at hb
      subst hb
      rw [hadded.fresh] at hborn
      cases hborn
    rw [hrows] at hrow hrow'
    rcases List.mem_append.1 hrow with hold | hmem
    · rcases List.mem_append.1 hrow' with hold' | hmem'
      · exact h.ids row hold row' hold' hid
      · rw [List.mem_singleton.1 hmem'] at hid
        exact absurd hid (hnew row hold)
    · rcases List.mem_append.1 hrow' with hold' | hmem'
      · rw [List.mem_singleton.1 hmem] at hid
        exact absurd hid.symm (hnew row' hold')
      · rw [List.mem_singleton.1 hmem, List.mem_singleton.1 hmem']
  · rw [hrows] at hrow hrow'
    obtain ⟨old, hold, rfl⟩ := List.mem_map.1 hrow
    obtain ⟨old', hold', rfl⟩ := List.mem_map.1 hrow'
    rw [hwrites.operationId, hwrites.operationId] at hid
    rw [h.ids old hold old' hold' hid]

/-- The keys of the operations stay unique. -/
theorem Inv.keys_moved {s s' : System} {i : Nat} {a : Attempt} {phase : Phase}
    (h : Inv normalizeScanTargets s) (ha : s.attempts[i]? = some a)
    (hmoves : Moves normalizeScanTargets s i a s' phase) :
    ∀ row ∈ s'.rows, ∀ row' ∈ s'.rows, ∀ key, row.key = some key → row'.key = some key →
      row = row' := by
  intro row hrow row' hrow' key hkey hkey'
  rcases h.rows_moved ha hmoves with hsame | ⟨new, hrows, hadded, -⟩ | ⟨f, hrows, hwrites⟩
  · rw [hsame] at hrow hrow'
    exact h.keys row hrow row' hrow' key hkey hkey'
  · rw [hrows] at hrow hrow'
    rcases List.mem_append.1 hrow with hold | hmem
    · rcases List.mem_append.1 hrow' with hold' | hmem'
      · exact h.keys row hold row' hold' key hkey hkey'
      · rw [List.mem_singleton.1 hmem'] at hkey'
        exact absurd hkey (hadded.free row hold key hkey')
    · rcases List.mem_append.1 hrow' with hold' | hmem'
      · rw [List.mem_singleton.1 hmem] at hkey
        exact absurd hkey' (hadded.free row' hold' key hkey)
      · rw [List.mem_singleton.1 hmem, List.mem_singleton.1 hmem']
  · rw [hrows] at hrow hrow'
    obtain ⟨old, hold, rfl⟩ := List.mem_map.1 hrow
    obtain ⟨old', hold', rfl⟩ := List.mem_map.1 hrow'
    have hsame : old = old' := by
      rcases hwrites.key old hold key hkey with hb | ⟨-, hjob, hfree⟩
      · rcases hwrites.key old' hold' key hkey' with hb' | ⟨-, -, hfree'⟩
        · exact h.keys old hold old' hold' key hb hb'
        · exact h.ids old hold old' hold' (hfree' old hold hb)
      · rcases hwrites.key old' hold' key hkey' with hb' | ⟨-, hjob', -⟩
        · exact h.ids old hold old' hold' (hfree old' hold' hb').symm
        · exact h.ids old hold old' hold' (Option.some.inj (hjob.symm.trans hjob'))
    rw [hsame]

theorem Inv.moveTo {s s' : System} {i : Nat} {a : Attempt} {phase : Phase}
    (h : Inv normalizeScanTargets s) (ha : s.attempts[i]? = some a)
    (hmoves : Moves normalizeScanTargets s i a s' phase)
    (hcareful : a.phase = .looking → ∀ key ∈ a.cleanKey,
      Reusable normalizeScanTargets s a.request key) :
    Inv normalizeScanTargets (s'.moveTo i { a with phase }) := by
  have hids := h.ids_moved ha hmoves
  have hkeys := h.keys_moved ha hmoves
  have honce := h.once_moved ha hmoves
  exact ⟨hids, hkeys, h.born_moved ha hmoves, h.runs_moved ha hmoves, h.effects_moved ha hmoves,
    honce, h.fits_all ha hmoves hcareful, h.apart_moved ha hmoves hcareful⟩

/-! ## The writes of others -/

/-- The requests and the effects stay, and every operation is kept. -/
theorem Inv.others {s s' : System} (h : Inv normalizeScanTargets s)
    (hattempts : s'.attempts = s.attempts) (heffects : s'.effects = s.effects)
    (hkept : ∀ i, Kept s s' i)
    (hids : ∀ row ∈ s'.rows, ∀ row' ∈ s'.rows, row.operationId = row'.operationId → row = row')
    (hkeys : ∀ row ∈ s'.rows, ∀ row' ∈ s'.rows, ∀ key, row.key = some key →
      row'.key = some key → row = row')
    (hborn : ∀ row ∈ s'.rows, ∀ (i : Nat), row.operationId = .ofAttempt i →
      ∃ old ∈ s.rows, Keeps old row)
    (hruns : ∀ run ∈ s'.runs, run.triggerType = "retry" → ∀ key, run.key = some key →
      run ∈ s.runs) :
    Inv normalizeScanTargets s' where
  ids := hids
  keys := hkeys
  born row hrow i hid := by
    obtain ⟨old, hold, hkeeps⟩ := hborn row hrow i hid
    obtain ⟨b, hb, hbBorn, hkey⟩ := h.born old hold i (hkeeps.operationId.symm.trans hid)
    rw [hattempts]
    exact ⟨b, hb, hbBorn, fun key hk => hkey key (hkeeps.key.symm.trans hk)⟩
  runs run hrun hretry key hkey := by
    rw [hattempts, heffects]
    exact h.runs run (hruns run hrun hretry key hkey) hretry key hkey
  effects effect heffect := by
    rw [heffects] at heffect
    obtain ⟨b, hb, hkey, hacted, hown⟩ := h.effects effect heffect
    rw [hattempts]
    refine ⟨b, hb, hkey, hacted, fun hretry => ?_⟩
    obtain ⟨row, hrow, hid, hrowKey, hdescribes⟩ := hown hretry
    obtain ⟨row', hrow', hkeeps⟩ := hkept effect.1 row hrow hid
    exact ⟨row', hrow', hkeeps.operationId.trans hid, hkeeps.key.trans hrowKey,
      hkeeps.describes hdescribes⟩
  once := by
    have honce : (s.effects.map Prod.snd).Nodup := h.once
    rw [← heffects] at honce
    exact honce
  fits i a ha := by
    rw [hattempts] at ha
    refine (h.fits i a ha).kept (fun _ _ => hkept i) fun j b hb => ⟨b, ?_, .refl b⟩
    rw [hattempts]
    exact hb
  apart i j a b key hne ha hb hkey hkey' hengaged hengaged' := by
    rw [hattempts] at ha hb
    unfold System.engaged at hengaged hengaged'
    rw [heffects] at hengaged hengaged'
    exact h.apart i j a b key hne ha hb hkey hkey' hengaged hengaged'

/-- A write that keeps every operation keeps the invariant. -/
theorem Inv.mapRows {s : System} (h : Inv normalizeScanTargets s) {f : Row → Row}
    (hf : ∀ row ∈ s.rows, Keeps row (f row)) :
    Inv normalizeScanTargets { s with rows := s.rows.map f } := by
  refine h.others rfl rfl (fun i => kept_map rfl fun row hrow _ => hf row hrow) ?_ ?_ ?_ ?_
  · intro row hrow row' hrow' hid
    obtain ⟨old, hold, rfl⟩ := List.mem_map.1 hrow
    obtain ⟨old', hold', rfl⟩ := List.mem_map.1 hrow'
    rw [(hf old hold).operationId, (hf old' hold').operationId] at hid
    rw [h.ids old hold old' hold' hid]
  · intro row hrow row' hrow' key hkey hkey'
    obtain ⟨old, hold, rfl⟩ := List.mem_map.1 hrow
    obtain ⟨old', hold', rfl⟩ := List.mem_map.1 hrow'
    rw [(hf old hold).key] at hkey
    rw [(hf old' hold').key] at hkey'
    rw [h.keys old hold old' hold' key hkey hkey']
  · intro row hrow i hid
    obtain ⟨old, hold, rfl⟩ := List.mem_map.1 hrow
    exact ⟨old, hold, hf old hold⟩
  · exact fun run hrun _ _ _ => hrun

/-- The operation of another endpoint keeps the invariant, when its id and its key are free. -/
theorem Inv.addRow {s : System} (h : Inv normalizeScanTargets s) {row : Row} {id : String}
    (hid : row.operationId = .given id) (hfree : ∀ old ∈ s.rows, old.operationId ≠ .given id)
    (hkey : s.keyTaken row.operationId row.key = false) :
    Inv normalizeScanTargets { s with rows := s.rows ++ [row] } := by
  have hnew : ∀ old ∈ s.rows, ∀ key, row.key = some key → old.key ≠ some key := by
    intro old hold key hrowKey holdKey
    rw [hrowKey] at hkey
    exact hfree old hold ((ne_of_not_keyTaken hkey hold holdKey).trans hid)
  refine h.others rfl rfl (fun i => kept_append rfl i) ?_ ?_ ?_ ?_
  · intro row₁ hrow₁ row₂ hrow₂ heq
    rcases List.mem_append.1 hrow₁ with hold₁ | hmem₁
    · rcases List.mem_append.1 hrow₂ with hold₂ | hmem₂
      · exact h.ids row₁ hold₁ row₂ hold₂ heq
      · rw [List.mem_singleton.1 hmem₂] at heq
        exact absurd (heq.trans hid) (hfree row₁ hold₁)
    · rcases List.mem_append.1 hrow₂ with hold₂ | hmem₂
      · rw [List.mem_singleton.1 hmem₁] at heq
        exact absurd (heq.symm.trans hid) (hfree row₂ hold₂)
      · rw [List.mem_singleton.1 hmem₁, List.mem_singleton.1 hmem₂]
  · intro row₁ hrow₁ row₂ hrow₂ key hkey₁ hkey₂
    rcases List.mem_append.1 hrow₁ with hold₁ | hmem₁
    · rcases List.mem_append.1 hrow₂ with hold₂ | hmem₂
      · exact h.keys row₁ hold₁ row₂ hold₂ key hkey₁ hkey₂
      · rw [List.mem_singleton.1 hmem₂] at hkey₂
        exact absurd hkey₁ (hnew row₁ hold₁ key hkey₂)
    · rcases List.mem_append.1 hrow₂ with hold₂ | hmem₂
      · rw [List.mem_singleton.1 hmem₁] at hkey₁
        exact absurd hkey₂ (hnew row₂ hold₂ key hkey₁)
      · rw [List.mem_singleton.1 hmem₁, List.mem_singleton.1 hmem₂]
  · intro row' hrow' i hrowId
    rcases List.mem_append.1 hrow' with hold | hmem
    · exact ⟨row', hold, .refl row'⟩
    · rw [List.mem_singleton.1 hmem, hid] at hrowId
      cases hrowId
  · exact fun run hrun _ _ _ => hrun

theorem Inv.setRuns {s : System} (h : Inv normalizeScanTargets s) {runs : List AutomationRun}
    (hruns : ∀ run ∈ runs, run.triggerType = "retry" → ∀ key, run.key = some key →
      run ∈ s.runs) :
    Inv normalizeScanTargets { s with runs } :=
  h.others rfl rfl (fun i => kept_same rfl i) h.ids h.keys
    (fun row hrow _ _ => ⟨row, hrow, .refl row⟩) hruns

/-- A request that begins keeps the invariant. -/
theorem Inv.begin {s : System} (h : Inv normalizeScanTargets s) {new : Attempt}
    (hphase : new.phase = .looking) :
    Inv normalizeScanTargets { s with attempts := s.attempts ++ [new] } := by
  have hmem : ∀ (j : Nat) (b : Attempt), s.attempts[j]? = some b →
      (s.attempts ++ [new])[j]? = some b := by
    intro j b hb
    rw [List.getElem?_append_left (List.getElem?_eq_some_iff.1 hb).1]
    exact hb
  have hold : ∀ (j : Nat) (b : Attempt), (s.attempts ++ [new])[j]? = some b →
      s.attempts[j]? = some b ∨ s.attempts[j]? = none ∧ b = new := by
    intro j b hb
    rw [List.getElem?_append] at hb
    split_ifs at hb with hlt
    · exact .inl hb
    · exact .inr ⟨List.getElem?_eq_none (not_lt.1 hlt),
        List.mem_singleton.1 (List.mem_of_getElem? hb)⟩
  have hidle : ∀ j, s.attempts[j]? = none → s.engaged j new = false := by
    intro j hj
    unfold System.engaged Attempt.accepted
    rw [hphase]
    change (s.effects.any fun effect => decide (effect.1 = j)) = false
    rw [List.any_eq_false]
    intro effect heffect hid
    obtain ⟨b, hb, -⟩ := h.effects effect heffect
    rw [of_decide_eq_true hid, hj] at hb
    cases hb
  refine ⟨h.ids, h.keys, fun row hrow i hid => ?_, fun run hrun hretry k hk => ?_,
    fun effect heffect => ?_, h.once, fun i a ha => ?_, ?_⟩
  · obtain ⟨b, hb, hborn⟩ := h.born row hrow i hid
    exact ⟨b, hmem i b hb, hborn⟩
  · obtain ⟨i, b, hid, hb, hrest⟩ := h.runs run hrun hretry k hk
    exact ⟨i, b, hid, hmem i b hb, hrest⟩
  · obtain ⟨b, hb, hrest⟩ := h.effects effect heffect
    exact ⟨b, hmem _ b hb, hrest⟩
  · rcases hold i a ha with hbefore | ⟨-, rfl⟩
    · exact (h.fits i a hbefore).kept (fun _ _ => kept_same rfl i) fun j b hb =>
        ⟨b, hmem j b hb, .refl b⟩
    · exact fits_of_quiet (by rw [hphase]; trivial) (by rw [hphase]; rfl) (by rw [hphase]; rfl)
        (by unfold Attempt.accepted; rw [hphase]) fun row => by rw [hphase]; nofun
  · intro i j a b k hne ha hb hkey hkey' hengaged hengaged'
    have hreal : ∀ (i : Nat) (a : Attempt), (s.attempts ++ [new])[i]? = some a →
        s.engaged i a = true → s.attempts[i]? = some a := by
      intro i a ha hyes
      rcases hold i a ha with hbefore | ⟨hnone, rfl⟩
      · exact hbefore
      · rw [hidle i hnone] at hyes
        cases hyes
    exact h.apart i j a b k hne (hreal i a ha hengaged) (hreal j b hb hengaged') hkey hkey'
      hengaged hengaged'

/-! ## Runs of the system -/

theorem inv_initial :
    Inv normalizeScanTargets {} :=
  ⟨fun _ h => (nomatch h), fun _ h => (nomatch h), fun _ h => (nomatch h), fun _ h => (nomatch h),
    fun _ h => (nomatch h), List.nodup_nil, fun _ _ h => (nomatch h),
    fun _ _ _ _ _ _ h => (nomatch h)⟩

/-- A careful step keeps the invariant. -/
theorem Inv.step {s : System} (h : Inv normalizeScanTargets s) {e : Event}
    (hcareful : Careful normalizeScanTargets s e) :
    Inv normalizeScanTargets (Idempotency.step normalizeScanTargets s e) := by
  cases e with
  | begin request key => exact h.begin rfl
  | advance i answer =>
      cases ha : s.attempts[i]? with
      | none => simpa only [Idempotency.step, ha] using h
      | some a =>
          simp only [Idempotency.step, ha]
          exact h.moveTo ha (next_moves (h.fits i a ha).suits answer) (hcareful a ha)
  | register id kind status request key =>
      simp only [Idempotency.step]
      split_ifs with hguard
      · exact h
      · push Not at hguard
        obtain ⟨-, -, hid, hkey⟩ := hguard
        refine h.addRow rfl (fun old hold heq => ?_) (Bool.eq_false_iff.2 hkey)
        exact hid (List.any_eq_true.2 ⟨old, hold, decide_eq_true heq⟩)
  | startRun id run =>
      simp only [Idempotency.step]
      split_ifs with hguard
      · exact h
      · push Not at hguard
        refine h.setRuns fun new hnew hretry key hkey => ?_
        rcases List.mem_append.1 hnew with hold | hmem
        · exact hold
        · rw [List.mem_singleton.1 hmem] at hretry hkey
          have hsome : run.key.isSome = true := by
            change run.key = some key at hkey
            rw [hkey]
            rfl
          exact absurd hsome (hguard.1 hretry)
  | deleteRunbook runbookId =>
      exact h.setRuns fun run hrun _ _ _ => List.mem_of_mem_filter hrun
  | setStatus operationId status =>
      refine h.mapRows fun row _ => ?_
      split_ifs with hrow
      · refine ⟨rfl, rfl, rfl, rfl, rfl, rfl, fun hkind _ => ?_⟩
        rcases hkind with hkind | hkind
        · exact absurd hkind hrow.2.1
        · exact absurd hkind hrow.2.2
      · exact .refl row
  | interrupt operationId =>
      refine h.mapRows fun row _ => ?_
      split_ifs with hrow
      · refine ⟨rfl, rfl, rfl, rfl, rfl, rfl, fun _ hstatus => ?_⟩
        have hactive := hrow.2
        rw [hstatus] at hactive
        exact absurd hactive (by decide)
      · exact .refl row
  | savePreset preset =>
      exact h.others rfl rfl (fun i => kept_same rfl i) h.ids h.keys
        (fun row hrow _ _ => ⟨row, hrow, .refl row⟩) fun run hrun _ _ _ => hrun

theorem Inv.honest {s : System} (h : Inv normalizeScanTargets s) :
    Honest normalizeScanTargets s := by
  intro a ha row hrow
  obtain ⟨i, hi⟩ := List.mem_iff_getElem?.1 ha
  exact (h.fits i a hi).replayed row hrow

theorem Inv.exclusive {s : System} (h : Inv normalizeScanTargets s) :
    Exclusive s := by
  intro i j a b key ha hb hkey hkey' haccepted haccepted'
  obtain ⟨row, hrow, hid, hrowKey, -⟩ := (h.fits i a ha).accepted key hkey haccepted
  obtain ⟨row', hrow', hid', hrowKey', -⟩ := (h.fits j b hb).accepted key hkey' haccepted'
  obtain rfl := h.row_eq hrow hrow' hrowKey hrowKey'
  exact OperationId.ofAttempt.inj (hid.symm.trans hid')

/--
In every careful run, no key has had two remote effects, every replay has answered with a record of
the same request that has succeeded, and no two requests with one key have been accepted.
-/
theorem keys_respected {es : List Event}
    (h : Along (step normalizeScanTargets) (Careful normalizeScanTargets) {} es) :
    AtMostOnce (run (step normalizeScanTargets) {} es) ∧
      Honest normalizeScanTargets (run (step normalizeScanTargets) {} es) ∧
        Exclusive (run (step normalizeScanTargets) {} es) := by
  have hinv : Inv normalizeScanTargets (run (step normalizeScanTargets) {} es) :=
    h.invariant (fun s e hs hok => hs.step hok) inv_initial
  exact ⟨hinv.once, hinv.honest, hinv.exclusive⟩

/-- A deletion and a retry, each of which is repeated with its key after it has been accepted. -/
def repeatedRequests : List Event :=
  [.begin (.delete "task-1" .auto) (some "k"), .advance 0 (.proceeds ""), .advance 0 (.proceeds ""),
    .advance 0 (.proceeds "deleted"), .advance 0 (.proceeds ""),
    .begin (.delete "task-1" .auto) (some "k"), .advance 1 (.proceeds ""),
    .register "op-1" .assetCardBuild "failed" .other none,
    .begin (.retry (.given "op-1")) (some "r"), .advance 2 (.proceeds ""),
    .advance 2 (.proceeds ""), .advance 2 (.proceeds ""), .advance 2 (.proceeds ""),
    .advance 2 (.proceeds ""),
    .begin (.retry (.given "op-1")) (some "r"), .advance 3 (.proceeds "")]

theorem keys_respected_repeated :
    (run (step .ok) {} repeatedRequests).effects = [(0, "k"), (2, "r")] ∧
      AtMostOnce (run (step .ok) {} repeatedRequests) ∧
        Honest .ok (run (step .ok) {} repeatedRequests) ∧
          Exclusive (run (step .ok) {} repeatedRequests) :=
  ⟨by decide +kernel, keys_respected (by decide +kernel)⟩

/-- A deletion that fails, and the same request again. -/
def failedDeletion : List Event :=
  [.begin (.delete "task-1" .auto) (some "k"), .advance 0 (.proceeds ""), .advance 0 (.proceeds ""),
    .advance 0 .raises, .advance 0 (.proceeds ""),
    .begin (.delete "task-1" .auto) (some "k"), .advance 1 (.proceeds "")]

/-- A retry that raises after its job has been created, and the same request again. -/
def interruptedRetry : List Event :=
  [.register "op-1" .assetCardBuild "failed" .other none,
    .begin (.retry (.given "op-1")) (some "r"), .advance 0 (.proceeds ""),
    .advance 0 (.proceeds ""), .advance 0 (.proceeds ""), .advance 0 .raises,
    .setStatus (.ofAttempt 0) "completed",
    .begin (.retry (.given "op-1")) (some "r"), .advance 1 (.proceeds ""),
    .advance 1 (.proceeds ""), .advance 1 (.proceeds ""), .advance 1 (.proceeds ""),
    .advance 1 (.proceeds "")]

theorem keys_not_respected :
    (¬ ∀ es : List Event, Honest .ok (run (step .ok) {} es)) ∧
      ¬ ∀ es : List Event, AtMostOnce (run (step .ok) {} es) := by
  refine ⟨fun h => ?_, fun h => ?_⟩
  · let row : Row :=
      { newOperation 0 (some "k") .taskDelete "task-1" (.deletion .auto) with status := "failed" }
    have ha : { request := .delete "task-1" .auto, key := some "k",
                phase := .ended (.replayed row) } ∈
        (run (step .ok) {} failedDeletion).attempts := by decide +kernel
    rcases (h failedDeletion _ ha row rfl).2 with hretry | hstatus
    · cases hretry
    · exact absurd hstatus (by decide)
  · exact absurd (h interruptedRetry) (by unfold AtMostOnce; decide +kernel)

end Idempotency
end Operations
end MpvmApp
