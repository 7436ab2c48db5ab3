import MpvmApp.Workflow.Requests
import MpvmApp.Workflow.Threads

/-!
# Verifications of one campaign

A verification request looks for an active workflow of its campaign before it creates
one, and a retry does not look.  A workflow that has ended stays ended, so that a
second active workflow of a campaign comes from an insertion.

Main results:

- Theorem `advance_revives_none`: the steps of a thread revive no workflow.
- Theorem `outcomes_last`: no workflow is lost, and no outcome is replaced.
- Theorem `one_active_iff`: when a campaign has at most one active verification.
-/

namespace MpvmApp
namespace Workflow

open Sql Remediation Runs

/-! ## Steps of a thread -/

/-- Once its outcome is stored, the thread of a workflow runs no more. -/
def Entry.Ended (e : Entry) : Prop :=
  e.row.status.isTerminal = true → e.phase.isEnd = true

/-- What the steps of a thread keep: the request of the workflow, and that it has ended. -/
structure Keeps (e e' : Entry) : Prop where
  kind : e'.row.kind = e.row.kind
  request : e'.row.request = e.row.request
  active : e'.row.status.isActive = true → e.row.status.isActive = true
  settled : e.row.status.isTerminal = true → e'.row.status = e.row.status
  ended : e'.Ended

theorem RunStatus.isActive_iff {status : RunStatus} :
    status.isActive = true ↔ status.isTerminal = false := by
  cases status <;> decide

section Steps

variable {w : String} {db db' : Database} {e e' : Entry}

theorem Entry.Ended.active (h : e.Ended) (hphase : e.phase.isEnd = false) :
    e.row.status.isActive = true := by
  rw [RunStatus.isActive_iff]
  by_contra hterminal
  rw [Bool.not_eq_false] at hterminal
  rw [h hterminal] at hphase
  cases hphase

theorem Keeps.of_running {row : WorkflowRow} {phase : Phase} (h : e.Ended)
    (hphase : e.phase.isEnd = false) (hkind : row.kind = e.row.kind)
    (hrequest : row.request = e.row.request)
    (hend : phase.isEnd = true ∨ row.status = e.row.status ∨ row.status = .running) :
    Keeps e { e with row := row, phase := phase } := by
  have hactive := RunStatus.isActive_iff.1 (h.active hphase)
  refine ⟨hkind, hrequest, fun _ => h.active hphase, fun hterminal => ?_, fun hterminal => ?_⟩
  · rw [hactive] at hterminal
    cases hterminal
  rcases hend with hend | hsame | hrunning
  · exact hend
  · rw [show row.status.isTerminal = e.row.status.isTerminal by rw [hsame], hactive] at hterminal
    cases hterminal
  · rw [show row.status.isTerminal = RunStatus.running.isTerminal by rw [hrunning]] at hterminal
    cases hterminal

theorem Keeps.of_done : Keeps e { e with phase := .done } :=
  ⟨rfl, rfl, id, fun _ => rfl, fun _ => rfl⟩

theorem link_keeps (h : e.Ended) (hstep : link e = some e') : Keeps e e' := by
  unfold link at hstep
  split at hstep
  · rename_i campaignId hphase _
    cases hstep
    exact .of_running h (by rw [hphase]; rfl) rfl rfl (.inr (.inl rfl))
  · cases hstep

theorem completeEmpty_keeps (h : e.Ended) (hstep : completeEmpty e = some e') : Keeps e e' := by
  unfold completeEmpty at hstep
  dsimp only at hstep
  split at hstep
  · rename_i hphase
    split at hstep
    · cases hstep
      exact .of_running h (by rw [hphase]; rfl) rfl rfl (.inl rfl)
    · cases hstep
  · rename_i hphase
    split at hstep
    · cases hstep
      exact .of_running h (by rw [hphase]; rfl) rfl rfl (.inl rfl)
    · cases hstep
  · cases hstep

theorem announce_keeps (h : e.Ended) (hstep : announce w db e = some (db', e')) : Keeps e e' := by
  unfold announce at hstep
  split at hstep
  · rename_i campaignId hphase _
    split at hstep
    · cases hstep
    · cases hstep
      exact .of_running h (by rw [hphase]; rfl) rfl rfl (.inr (.inl rfl))
  · cases hstep

theorem isEnd_of_readyToRun (hready : e.readyToRun = true) :
    e.phase.isEnd = false := by
  unfold Entry.readyToRun at hready
  split at hready
  · rename_i hphase
    rw [hphase]
    rfl
  · rename_i hphase
    rw [hphase]
    rfl
  · cases hready

theorem schedule_keeps (h : e.Ended) (hstep : schedule e = some e') : Keeps e e' := by
  unfold schedule at hstep
  split at hstep
  · rename_i hready
    rw [Bool.and_eq_true] at hready
    cases hstep
    exact .of_running h (isEnd_of_readyToRun hready.1) rfl rfl (.inr (.inl rfl))
  · cases hstep

theorem track_keeps {operationId : String} (h : e.Ended)
    (hstep : track operationId e = some e') : Keeps e e' := by
  unfold track at hstep
  split at hstep
  · rename_i hphase _ _
    cases hstep
    exact .of_running h (by rw [hphase]; rfl) rfl rfl (.inr (.inr rfl))
  · cases hstep

theorem resumeReconciliation_keeps (h : e.Ended) (hstep : resumeReconciliation e = some e') :
    Keeps e e' := by
  unfold resumeReconciliation at hstep
  split at hstep
  · cases hstep
  · split at hstep
    · rename_i hready
      rw [Bool.and_eq_true] at hready
      cases hstep
      exact .of_running h (isEnd_of_readyToRun hready.1) rfl rfl (.inr (.inr rfl))
    · cases hstep

theorem begin_keeps {sawCancel : Bool} (h : e.Ended) (hstep : begin sawCancel e = some e') :
    Keeps e e' := by
  unfold begin at hstep
  split at hstep
  · rename_i monitorOnly hphase
    split at hstep
    · cases hstep
      exact .of_done
    · split at hstep
      · split at hstep
        · cases hstep
          exact .of_running h (by rw [hphase]; rfl) rfl rfl (.inr (.inl rfl))
        · cases hstep
      · cases hstep
        exact .of_running h (by rw [hphase]; rfl) rfl rfl (.inr (.inr rfl))
  · cases hstep

theorem launch_keeps (h : e.Ended) (hstep : launch w db e = some (db', e')) : Keeps e e' := by
  unfold launch at hstep
  split at hstep
  · rename_i monitorOnly hphase
    have hrun : e.phase.isEnd = false := by rw [hphase]; rfl
    split at hstep
    · split at hstep <;> cases hstep <;> exact .of_running h hrun rfl rfl (.inr (.inl rfl))
    · cases hstep
      exact .of_running h hrun rfl rfl (.inr (.inl rfl))
  · cases hstep

theorem started_keeps {operationIds : List String} {errors : List AssetError} (h : e.Ended)
    (hstep : started operationIds errors e = some e') : Keeps e e' := by
  unfold started at hstep
  split at hstep
  · rename_i hphase
    have hrun : e.phase.isEnd = false := by rw [hphase]; rfl
    dsimp only at hstep
    cases hstep
    exact .of_running h hrun (by split <;> rfl) (by split <;> rfl) (.inr (.inl (by split <;> rfl)))
  · cases hstep

theorem observeCancel_keeps (h : e.Ended) (hstep : observeCancel e = some e') : Keeps e e' := by
  unfold observeCancel at hstep
  split at hstep
  · rename_i hphase
    split at hstep
    · cases hstep
      exact .of_running h (by rw [hphase]; rfl) rfl rfl (.inr (.inl rfl))
    · cases hstep
  · cases hstep

theorem childrenDone_keeps {operations : List ChildOperation} (h : e.Ended)
    (hstep : childrenDone operations e = some e') : Keeps e e' := by
  unfold childrenDone at hstep
  split at hstep
  · rename_i hphase
    split at hstep
    · cases hstep
      exact .of_running h (by rw [hphase]; rfl) rfl rfl (.inr (.inl rfl))
    · cases hstep
  · cases hstep

theorem reconciled_keeps {phase : List ChildOperation → FinalPhase} {repository : Reconciler}
    (h : e.Ended) (hstep : reconciled phase repository e = some e') : Keeps e e' := by
  unfold reconciled at hstep
  split at hstep
  · rename_i operations hphase
    cases hstep
    exact .of_running h (by rw [hphase]; rfl) rfl rfl (.inr (.inl rfl))
  · cases hstep

theorem finalize_keeps (h : e.Ended) (hstep : finalize w db e = some (db', e')) :
    Keeps e e' := by
  unfold finalize at hstep
  split at hstep
  · rename_i finished failed hphase
    have hrun : e.phase.isEnd = false := by rw [hphase]; rfl
    split at hstep <;> cases hstep <;> exact .of_running h hrun rfl rfl (.inr (.inl rfl))
  · cases hstep

theorem finish_keeps (h : e.Ended) (hstep : finish e = some e') : Keeps e e' := by
  unfold finish at hstep
  split at hstep
  · rename_i finished hphase
    cases hstep
    exact .of_running h (by rw [hphase]; rfl) rfl rfl (.inl rfl)
  · cases hstep

theorem raise_keeps {message : String} (hstep : raise message e = some e') :
    Keeps e e' := by
  unfold raise at hstep
  split at hstep
  · cases hstep
    refine ⟨rfl, rfl, id, fun _ => rfl, fun hterminal => ?_⟩
    change (if e.row.status.isTerminal then Phase.done else Phase.failing message).isEnd = true
    rw [if_pos hterminal]
    rfl
  · cases hstep

theorem die_keeps (hstep : die e = some e') : Keeps e e' := by
  unfold die at hstep
  split at hstep <;> cases hstep <;> exact .of_done

theorem storeFailed_keeps (h : e.Ended) (hstep : storeFailed e = some e') : Keeps e e' := by
  unfold storeFailed at hstep
  split at hstep
  · rename_i message hphase
    cases hstep
    refine .of_running h (by rw [hphase]; rfl) rfl rfl (.inl ?_)
    split <;> rfl
  · cases hstep

theorem tellFailed_keeps (hstep : tellFailed w db e = some (db', e')) : Keeps e e' := by
  unfold tellFailed at hstep
  split at hstep
  · cases hstep
    exact .of_done
  · cases hstep

theorem storeCancelled_keeps (h : e.Ended) (hstep : storeCancelled e = some e') :
    Keeps e e' := by
  unfold storeCancelled at hstep
  split at hstep
  · rename_i hphase
    cases hstep
    refine .of_running h (by rw [hphase]; rfl) rfl rfl (.inl ?_)
    split <;> rfl
  · cases hstep

theorem tellCancelled_keeps (hstep : tellCancelled w db e = some (db', e')) : Keeps e e' := by
  unfold tellCancelled at hstep
  split at hstep
  · cases hstep
    exact .of_done
  · cases hstep

theorem requestCancel_keeps (hstep : requestCancel e = some e') : Keeps e e' := by
  unfold requestCancel at hstep
  split at hstep
  · rename_i hactive
    cases hstep
    refine ⟨rfl, rfl, fun _ => hactive, fun hterminal => ?_, fun hterminal => by cases hterminal⟩
    rw [RunStatus.isActive_iff.1 hactive] at hterminal
    cases hterminal
  · cases hstep

/-- The steps of a thread revive no workflow and keep its request. -/
theorem advance_revives_none {action : Action} (h : e.Ended)
    (hstep : advance w action db e = some (db', e')) : Keeps e e' := by
  have hown : ∀ {next : Option Entry}, (next.map fun e' => (db, e')) = some (db', e') →
      next = some e' := by
    intro next hnext
    obtain ⟨e'', hsome, heq⟩ := Option.map_eq_some_iff.1 hnext
    cases heq
    exact hsome
  cases action with
  | link => exact link_keeps h (hown hstep)
  | completeEmpty => exact completeEmpty_keeps h (hown hstep)
  | announce => exact announce_keeps h hstep
  | schedule => exact schedule_keeps h (hown hstep)
  | track operationId => exact track_keeps h (hown hstep)
  | resumeReconciliation => exact resumeReconciliation_keeps h (hown hstep)
  | begin sawCancel => exact begin_keeps h (hown hstep)
  | launch => exact launch_keeps h hstep
  | started operationIds errors => exact started_keeps h (hown hstep)
  | observeCancel => exact observeCancel_keeps h (hown hstep)
  | childrenDone operations => exact childrenDone_keeps h (hown hstep)
  | reconciled repository catalog configuredWorkers pick => exact reconciled_keeps h (hown hstep)
  | finalize => exact finalize_keeps h hstep
  | finish => exact finish_keeps h (hown hstep)
  | raise message => exact raise_keeps (hown hstep)
  | die => exact die_keeps (hown hstep)
  | storeFailed => exact storeFailed_keeps h (hown hstep)
  | tellFailed => exact tellFailed_keeps hstep
  | storeCancelled => exact storeCancelled_keeps h (hown hstep)
  | tellCancelled => exact tellCancelled_keeps hstep
  | requestCancel => exact requestCancel_keeps (hown hstep)

end Steps

/-! ## Steps of the requests -/

variable {ω : Type} [DecidableEq ω]

/-- The handler, the draft and the id of the row that a step inserts. -/
def insertion? (s : Requests ω) : RequestEvent ω → Option (Handler ω × Draft ω × String)
  | .handle i _ workflowId =>
      match s.handlers[i]? with
      | none => none
      | some h =>
          match h.stage with
          | .inserting draft =>
              if (s.keyed? h.key).isNone && (s.base.workflows workflowId).isNone then
                some (h, draft, workflowId)
              else none
          | _ => none
  | _ => none

/-- Every workflow that has ended stays ended. -/
def AllEnded (s : Requests ω) : Prop :=
  ∀ w e, s.base.workflows w = some e → e.Ended

/-- The entry of a workflow that is inserted. -/
def newEntry (reconcile : ω → Option Json) (draft : Draft ω) (workflowId : String) : Entry where
  row := newWorkflow workflowId draft.kind (draft.body.toRequest reconcile)
    (draft.source.map WorkflowRow.workflowId)
  source := draft.source

omit [DecidableEq ω] in
theorem insertion?_eq_some {s : Requests ω} {ev : RequestEvent ω} {h : Handler ω}
    {draft : Draft ω} {w : String} (hins : insertion? s ev = some (h, draft, w)) :
    ∃ i ready, ev = .handle i ready w ∧ s.handlers[i]? = some h ∧ h.stage = .inserting draft ∧
      s.keyed? h.key = none ∧ s.base.workflows w = none := by
  unfold insertion? at hins
  split at hins
  · rename_i i ready workflowId
    split at hins
    · cases hins
    · rename_i h' hhandler
      split at hins
      · rename_i draft' hstage
        split at hins
        · rename_i hfree
          cases hins
          simp only [Bool.and_eq_true, Option.isNone_iff_eq_none] at hfree
          exact ⟨i, ready, rfl, hhandler, hstage, hfree.1, hfree.2⟩
        · cases hins
      · cases hins
  · cases hins

theorem requestStep_of_insertion (cfg : RequestSettings ω) {s : Requests ω}
    {ev : RequestEvent ω} {h : Handler ω} {draft : Draft ω} {w : String}
    (hins : insertion? s ev = some (h, draft, w)) :
    (requestStep cfg s ev).base = s.base.put w s.base.db (newEntry cfg.reconcile draft w) ∧
      (requestStep cfg s ev).stored = newRow h draft w :: s.stored := by
  obtain ⟨i, ready, rfl, hhandler, hstage, hkey, hfree⟩ := insertion?_eq_some hins
  simp only [requestStep, hhandler, hstage, insert, hkey, hfree, Option.isSome_none,
    State.create]
  exact ⟨rfl, rfl⟩

/-- A handler that inserts no row writes to no table. -/
theorem requestStep_handle_of_no_insertion (cfg : RequestSettings ω) {s : Requests ω} {i : Nat}
    {ready : Bool} {w : String} (hins : insertion? s (.handle i ready w) = none) :
    (requestStep cfg s (.handle i ready w)).stored = s.stored ∧
      (requestStep cfg s (.handle i ready w)).base = s.base := by
  simp only [requestStep]
  cases hhandler : s.handlers[i]? with
  | none => exact ⟨rfl, rfl⟩
  | some h =>
      dsimp only
      split
      · rename_i draft hstage
        unfold insert
        split
        · exact ⟨rfl, rfl⟩
        · rename_i hkey
          split
          · exact ⟨rfl, rfl⟩
          · rename_i hfree
            simp only [insertion?, hhandler, hstage] at hins
            simp [Option.not_isSome_iff_eq_none.1 hkey,
              Option.not_isSome_iff_eq_none.1 hfree] at hins
      · split <;> exact ⟨rfl, rfl⟩

/-- A step without an insertion adds no row, and the threads revive no workflow. -/
theorem requestStep_of_no_insertion (cfg : RequestSettings ω) {s : Requests ω}
    {ev : RequestEvent ω} (hins : insertion? s ev = none) (hended : AllEnded s) :
    (requestStep cfg s ev).stored = s.stored ∧
      ∀ w, (s.base.workflows w = none ∧ (requestStep cfg s ev).base.workflows w = none) ∨
        ∃ e e', s.base.workflows w = some e ∧
          (requestStep cfg s ev).base.workflows w = some e' ∧ Keeps e e' := by
  have hsame : ∀ s' : Requests ω, s'.base.workflows = s.base.workflows →
      ∀ w, (s.base.workflows w = none ∧ s'.base.workflows w = none) ∨
        ∃ e e', s.base.workflows w = some e ∧ s'.base.workflows w = some e' ∧ Keeps e e' := by
    intro s' hworkflows w
    rw [hworkflows]
    cases hw : s.base.workflows w with
    | none => exact .inl ⟨rfl, rfl⟩
    | some e => exact .inr ⟨e, e, rfl, rfl, rfl, rfl, id, fun _ => rfl, hended w e hw⟩
  cases ev with
  | arrive ask key => exact ⟨rfl, hsame _ rfl⟩
  | remediation op =>
      refine ⟨rfl, hsame _ ?_⟩
      simp only [requestStep, step]
      split <;> rfl
  | act v action =>
      refine ⟨rfl, fun w => ?_⟩
      simp only [requestStep, step]
      cases hv : s.base.workflows v with
      | none => exact hsame s rfl w
      | some e =>
          dsimp only
          cases hadvance : advance v action s.base.db e with
          | none => exact hsame s rfl w
          | some next =>
              obtain ⟨db, e'⟩ := next
              by_cases hw : w = v
              · subst hw
                exact .inr ⟨e, e', hv, by simp [State.put],
                  advance_revives_none (hended w e hv) hadvance⟩
              · rcases hsame s rfl w with ⟨hnone, _⟩ | ⟨a, b, ha, hb, hkeeps⟩
                · exact .inl ⟨hnone, by simp [State.put, hw, hnone]⟩
                · exact .inr ⟨a, b, ha, by simp [State.put, hw, hb], hkeeps⟩
  | handle i ready w =>
      have hstep := requestStep_handle_of_no_insertion cfg hins
      exact ⟨hstep.1, hsame _ (by rw [hstep.2])⟩

/-- No step revives a workflow that has ended. -/
theorem allEnded_requestStep (cfg : RequestSettings ω) {s : Requests ω} (hended : AllEnded s)
    (ev : RequestEvent ω) :
    AllEnded (requestStep cfg s ev) := by
  intro w e' he'
  cases hins : insertion? s ev with
  | none =>
      rcases (requestStep_of_no_insertion cfg hins hended).2 w with
        ⟨_, hnone⟩ | ⟨e, e'', _, hsome, hkeeps⟩
      · rw [hnone] at he'
        cases he'
      · rw [hsome] at he'
        cases he'
        exact hkeeps.ended
  | some inserted =>
      obtain ⟨h, draft, v⟩ := inserted
      rw [(requestStep_of_insertion cfg hins).1] at he'
      by_cases hw : w = v
      · subst hw
        simp only [State.put, if_true] at he'
        cases he'
        intro hterminal
        cases hterminal
      · simp only [State.put, if_neg hw] at he'
        exact hended w e' he'

/-! ## Outcomes of workflows -/

/-- Every workflow is still stored for the same request, with the outcome that it had. -/
def OutcomesLast (s s' : Requests ω) : Prop :=
  ∀ w e, s.base.workflows w = some e → ∃ e', s'.base.workflows w = some e' ∧
    e'.row.kind = e.row.kind ∧ e'.row.request = e.row.request ∧
      (e.row.status.isTerminal = true → e'.row.status = e.row.status)

theorem outcomesLast_requestStep (cfg : RequestSettings ω) {s : Requests ω}
    (hended : AllEnded s) (ev : RequestEvent ω) :
    OutcomesLast s (requestStep cfg s ev) := by
  intro w e he
  cases hins : insertion? s ev with
  | none =>
      rcases (requestStep_of_no_insertion cfg hins hended).2 w with
        ⟨hnone, _⟩ | ⟨a, b, ha, hb, hkeeps⟩
      · rw [hnone] at he
        cases he
      · rw [ha] at he
        cases he
        exact ⟨b, hb, hkeeps.kind, hkeeps.request, hkeeps.settled⟩
  | some inserted =>
      obtain ⟨h, draft, v⟩ := inserted
      have hne : w ≠ v := by
        rintro rfl
        obtain ⟨_, _, _, _, _, _, hfree⟩ := insertion?_eq_some hins
        rw [he] at hfree
        cases hfree
      refine ⟨e, ?_, rfl, rfl, fun _ => rfl⟩
      rw [(requestStep_of_insertion cfg hins).1]
      simp [State.put, hne, he]

/-- A verification of the campaign that has not ended. -/
def Entry.verifies (campaignId : String) (e : Entry) : Bool :=
  decide (e.row.kind = .verification) && decide (e.row.request.campaignId = some campaignId) &&
    e.row.status.isActive

/-- Every campaign has at most one verification that has not ended. -/
def OneActive (s : Requests ω) : Prop :=
  ∀ campaignId w w' e e', s.base.workflows w = some e → s.base.workflows w' = some e' →
    e.verifies campaignId = true → e'.verifies campaignId = true → w = w'

/--
When the step inserts a verification of a campaign, no verification of the campaign
is active at that moment.
-/
def InsertsAlone (s : Requests ω) (ev : RequestEvent ω) : Prop :=
  ∀ h draft w campaignId, insertion? s ev = some (h, draft, w) → draft.kind = .verification →
    draft.body.campaignId = some campaignId →
      ∀ v e, s.base.workflows v = some e → e.verifies campaignId = false

theorem Keeps.verifies {e e' : Entry} (h : Keeps e e') {campaignId : String}
    (hverifies : e'.verifies campaignId = true) :
    e.verifies campaignId = true := by
  simp only [Entry.verifies, Bool.and_eq_true, h.kind, h.request] at hverifies ⊢
  exact ⟨hverifies.1, h.active hverifies.2⟩

omit [DecidableEq ω] in
theorem OneActive.of_kept {s s' : Requests ω} (h : OneActive s)
    (hback : ∀ w e', s'.base.workflows w = some e' →
      ∃ e, s.base.workflows w = some e ∧ Keeps e e') :
    OneActive s' := by
  intro campaignId w w' e e' he he' hverifies hverifies'
  obtain ⟨a, ha, hka⟩ := hback w e he
  obtain ⟨b, hb, hkb⟩ := hback w' e' he'
  exact h campaignId w w' a b ha hb (hka.verifies hverifies) (hkb.verifies hverifies')

omit [DecidableEq ω] in
/-- A new workflow keeps the campaigns apart when no other one verifies its campaign. -/
theorem oneActive_put_iff {s s' : Requests ω} {v : String} {db : Database} {new : Entry}
    (hbase : s'.base = s.base.put v db new) (hfree : s.base.workflows v = none)
    (hone : OneActive s) :
    OneActive s' ↔ ∀ campaignId, new.verifies campaignId = true →
      ∀ u e, s.base.workflows u = some e → e.verifies campaignId = false := by
  have hown : s'.base.workflows v = some new := by
    rw [hbase]
    simp [State.put]
  have hothers : ∀ u, u ≠ v → s'.base.workflows u = s.base.workflows u := by
    intro u hu
    rw [hbase]
    simp [State.put, hu]
  constructor
  · intro hafter campaignId hnew u e he
    by_contra hverifies
    rw [Bool.not_eq_false] at hverifies
    have hne : u ≠ v := by
      rintro rfl
      rw [hfree] at he
      cases he
    exact hne (hafter campaignId u v e new ((hothers u hne).trans he) hown hverifies hnew)
  · intro halone campaignId w w' e e' he he' hverifies hverifies'
    have hclash : ∀ u f g, u ≠ v → s'.base.workflows u = some f → s'.base.workflows v = some g →
        f.verifies campaignId = true → g.verifies campaignId = true → False := by
      intro u f g hu hf hg hvf hvg
      rw [hown] at hg
      cases hg
      rw [halone campaignId hvg u f ((hothers u hu).symm.trans hf)] at hvf
      cases hvf
    by_cases hw : w = v
    · by_cases hw' : w' = v
      · rw [hw, hw']
      · subst hw
        exact (hclash w' e' e hw' he' he hverifies' hverifies).elim
    · by_cases hw' : w' = v
      · subst hw'
        exact (hclash w e e' hw he he' hverifies hverifies').elim
      · exact hone campaignId w w' e e' ((hothers w hw).symm.trans he)
          ((hothers w' hw').symm.trans he') hverifies hverifies'

omit [DecidableEq ω] in
theorem verifies_newEntry_iff {reconcile : ω → Option Json} {draft : Draft ω}
    {w campaignId : String} :
    (newEntry reconcile draft w).verifies campaignId = true ↔
      draft.kind = .verification ∧ draft.body.campaignId = some campaignId := by
  rw [Entry.verifies, Bool.and_eq_true, Bool.and_eq_true, decide_eq_true_eq, decide_eq_true_eq]
  exact ⟨fun hboth => hboth.1, fun hboth => ⟨hboth, rfl⟩⟩

/-- A step keeps the campaigns apart exactly when it inserts alone. -/
theorem oneActive_requestStep_iff (cfg : RequestSettings ω) {s : Requests ω}
    {ev : RequestEvent ω} (hended : AllEnded s) (hone : OneActive s) :
    OneActive (requestStep cfg s ev) ↔ InsertsAlone s ev := by
  cases hins : insertion? s ev with
  | none =>
      refine ⟨fun _ h draft w campaignId hsome => (by rw [hins] at hsome; cases hsome), fun _ => ?_⟩
      have hkeeps := (requestStep_of_no_insertion cfg hins hended).2
      apply hone.of_kept
      intro w e' he'
      rcases hkeeps w with ⟨_, hnone⟩ | ⟨e, e'', he, he'', hkeep⟩
      · rw [hnone] at he'
        cases he'
      · rw [he''] at he'
        cases he'
        exact ⟨e, he, hkeep⟩
  | some inserted =>
      obtain ⟨h, draft, v⟩ := inserted
      obtain ⟨hbase, _⟩ := requestStep_of_insertion cfg hins
      obtain ⟨_, _, _, _, _, _, hfree⟩ := insertion?_eq_some hins
      rw [oneActive_put_iff hbase hfree hone]
      constructor
      · intro halone h' draft' w' campaignId hsome hkind hcampaign
        rw [hins] at hsome
        cases hsome
        exact halone campaignId (verifies_newEntry_iff.2 ⟨hkind, hcampaign⟩)
      · intro halone campaignId hverifies
        obtain ⟨hkind, hcampaign⟩ := verifies_newEntry_iff.1 hverifies
        exact halone h draft v campaignId hins hkind hcampaign

/--
In a run of requests, threads and remediation operations every campaign has at most
one active verification throughout exactly when every verification is inserted while
none of its campaign is active.
-/
theorem one_active_iff (cfg : RequestSettings ω) (db : Database)
    (es : List (RequestEvent ω)) :
    Along (requestStep cfg) (fun s ev => OneActive (requestStep cfg s ev)) (noRequests db) es ↔
      Along (requestStep cfg) InsertsAlone (noRequests db) es := by
  apply along_congr
  · intro s ev (h : AllEnded s ∧ OneActive s) hone
    exact ⟨allEnded_requestStep cfg h.1 ev, hone⟩
  · rintro s ev ⟨hended, hone⟩
    exact oneActive_requestStep_iff cfg hended hone
  · refine ⟨?_, ?_⟩
    · intro w e he
      cases he
    · intro campaignId w w' e e' he
      cases he

/-! ## Two requests at once -/

/-- Settings without options. -/
def plainRequestSettings : RequestSettings Unit where
  toSettings := plainSettings
  reconcile := fun _ => none

/-- A campaign with one open case. -/
def oneCampaign : List (RequestEvent Unit) :=
  [.remediation (.saveAssets (oneAsset [oneFinding])), .remediation (.reconcile "host" 10),
    .remediation (.campaign "c1" { caseIds := [oneCaseId], assignee := none, dueAt := none })]

/-- Two requests look for an active verification before either of them creates one. -/
def requestedTwice : List (RequestEvent Unit) :=
  oneCampaign ++
    [.arrive (.verification "c1" ()) none, .arrive (.verification "c1" ()) none,
      .handle 0 true "", .handle 1 true "", .handle 0 true "", .handle 1 true "",
      .handle 0 true "", .handle 1 true "", .handle 0 true "w1", .handle 1 true "w2"]

/-- Both requests create a verification, and both verifications are active. -/
theorem two_active_verifications :
    ¬ ∀ (cfg : RequestSettings Unit) (db : Database) (es : List (RequestEvent Unit)),
      OneActive (run (requestStep cfg) (noRequests db) es) := by
  intro h
  have hone := h plainRequestSettings (emptyDatabase defaultPolicy) requestedTwice
  have hfirst : ((run (requestStep plainRequestSettings)
      (noRequests (emptyDatabase defaultPolicy)) requestedTwice).base.workflows "w1").any
      (Entry.verifies "c1") = true := by
    decide +kernel
  have hsecond : ((run (requestStep plainRequestSettings)
      (noRequests (emptyDatabase defaultPolicy)) requestedTwice).base.workflows "w2").any
      (Entry.verifies "c1") = true := by
    decide +kernel
  obtain ⟨e, he, hverifies⟩ := (Option.any_eq_true _ _).1 hfirst
  obtain ⟨e', he', hverifies'⟩ := (Option.any_eq_true _ _).1 hsecond
  exact absurd (hone "c1" "w1" "w2" e e' he he' hverifies hverifies') (by decide)

end Workflow
end MpvmApp
