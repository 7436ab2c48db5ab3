import MpvmApp.Automations.Deployment

/-!
# The confirmation of runbooks that delete assets

A step is executed long after its version was published: through several calls, with drafts
edited, published and deleted in between, and again after a restart.  A step whose handler
is called to delete assets comes from a version whose publication was confirmed with the
name of the runbook, and its run executes the steps of that version.

Main definitions:

- `handlerCall?`: the call of a step handler outside of a dry run.
- `HandlerCall.Confirmed`: the version behind the call was confirmed.

Main results:

- Theorem `DeploymentInv.step`: every run executes the definition of its version.
- Theorem `published_versions_stand`: no version is replaced, and what is published is the draft.
- Theorem `removals_confirmed`: the versions that delete assets were confirmed.
-/

namespace MpvmApp
namespace Automations
namespace Publication

open Runs

/-! ## Versions and runs -/

/-- The version that a call has read is the published one of its runbook. -/
def Call.Fits (log : List Published) : Call → Prop
  | .creating request version | .checking request version | .recording request version =>
      Logged log version ∧ version.runbookId = request.runbookId
  | _ => True

/-- The version that a tick has read is the published one of its runbook. -/
def TickPhase.Fits (log : List Published) : TickPhase → Prop
  | .calling _ _ _ call => call.Fits log
  | _ => True

/-- The version that was read to start a run is the published one of its runbook. -/
def Party.Fits (log : List Published) : Party → Prop
  | .client call => call.Fits log
  | .tick current => current.phase.Fits log

/-- The publication from which a run was created. -/
def RunEntry.CreatedFrom (entry : RunEntry) (p : Published) : Prop :=
  p.runbookId = entry.runbookId ∧ p.version = entry.version ∧
    p.definition = entry.state.run.definition

/-- A run executes the definition of its published version. -/
structure RunEntry.Fits (log : List Published) (entry : RunEntry) : Prop where
  version : ∃ p ∈ log, entry.CreatedFrom p
  workers : FitsWorkers entry.state

/-- What holds of the deployment at any time. -/
structure DeploymentInv (t : CharTables) (s : Deployment) : Prop where
  registry : RegistryInv t s.registry
  runs : ∀ entry ∈ s.runs, entry.Fits s.registry.log
  parties : ∀ party ∈ s.parties, party.Fits s.registry.log

section Log

variable {log log' : List Published}

theorem Call.Fits.mono {call : Call} (h : call.Fits log) (hsub : log ⊆ log') :
    call.Fits log' := by
  cases call with
  | creating request version | checking request version | recording request version =>
      exact ⟨h.1.mono hsub, h.2⟩
  | _ => trivial

theorem Party.Fits.mono {party : Party} (h : party.Fits log) (hsub : log ⊆ log') :
    party.Fits log' := by
  cases party with
  | client call => exact Call.Fits.mono h hsub
  | tick tick =>
      obtain ⟨env, pending, phase⟩ := tick
      cases phase with
      | calling x nextAt status call =>
          have hcall : call.Fits log := h
          exact hcall.mono hsub
      | next | advancing | ended => trivial

theorem RunEntry.Fits.mono {entry : RunEntry} (h : entry.Fits log) (hsub : log ⊆ log') :
    entry.Fits log' := by
  obtain ⟨p, hp, hfrom⟩ := h.version
  exact ⟨⟨p, hsub hp, hfrom⟩, h.workers⟩

/-- Publications are never taken out of the history. -/
theorem log_subset_registryStep (t : CharTables) (r : Registry) (ev : RegistryEvent) :
    r.log ⊆ (registryStep t r ev).log := by
  cases ev with
  | create runbookId name draft =>
      simp only [registryStep, Registry.create]
      split
      · exact fun p hp => hp
      · split
        · exact fun p hp => hp
        · split <;> exact fun p hp => hp
  | edit runbookId name draft =>
      simp only [registryStep, Registry.edit]
      split <;> exact fun p hp => hp
  | delete runbookId => exact fun p hp => hp
  | publish runbookId confirmName =>
      simp only [registryStep, Registry.publish]
      split
      · exact fun p hp => hp
      · split
        · exact fun p hp => hp
        · split <;> exact fun p hp => hp
  | store j =>
      simp only [registryStep, Registry.publishRunbook]
      split
      · exact fun p hp => hp
      · split
        · exact fun p hp => hp
        · split
          · exact fun p hp => hp
          · exact List.subset_cons_self _ _
  | crash => exact fun p hp => hp

end Log

/-! ## Starting runs -/

section Calls

variable {t : CharTables} {s : Deployment}

theorem DeploymentInv.latest (h : DeploymentInv t s) {runbookId : String} {row : VersionRow}
    (hrow : s.registry.latest? runbookId = some row) :
    Logged s.registry.log row ∧ row.runbookId = runbookId := by
  obtain ⟨hmem, hid⟩ := Registry.mem_of_latest? hrow
  exact ⟨h.registry.logged row hmem, hid⟩

theorem fits_entryOf {log : List Published} {request : RunRequest} {version : VersionRow}
    (hlogged : Logged log version) (hid : version.runbookId = request.runbookId)
    (status : RunStatus) :
    (Deployment.entryOf request version status).Fits log := by
  obtain ⟨p, hp, rfl⟩ := hlogged
  exact ⟨⟨p, hp, hid, rfl, rfl⟩, fun w hw => absurd hw List.not_mem_nil⟩

theorem runs_of_createRun? {s' : Deployment} {request : RunRequest} {version : VersionRow}
    {status : RunStatus} (h : s.createRun? request version status = some s') :
    s' = { s with runs := s.runs ++ [Deployment.entryOf request version status] } := by
  unfold Deployment.createRun? at h
  split_ifs at h
  exact (Option.some.inj h).symm

theorem DeploymentInv.createRun? (h : DeploymentInv t s) {s' : Deployment} {request : RunRequest}
    {version : VersionRow} {status : RunStatus} (hlogged : Logged s.registry.log version)
    (hid : version.runbookId = request.runbookId)
    (hcreated : s.createRun? request version status = some s') :
    DeploymentInv t s' := by
  rw [runs_of_createRun? hcreated]
  refine { h with runs := fun entry hentry => ?_ }
  rcases List.mem_append.1 hentry with hold | hnew
  · exact h.runs entry hold
  · obtain rfl := List.mem_singleton.1 hnew
    exact fits_entryOf hlogged hid status

theorem DeploymentInv.modify (h : DeploymentInv t s) (i : Nat) {f : RunEntry → RunEntry}
    (hf : ∀ entry : RunEntry, entry.Fits s.registry.log → (f entry).Fits s.registry.log) :
    DeploymentInv t { s with runs := s.runs.modify i f } := by
  refine { h with runs := fun entry hentry => ?_ }
  obtain ⟨j, hj⟩ := List.mem_iff_getElem?.1 hentry
  rw [List.getElem?_modify, Option.map_eq_map, Option.map_eq_some_iff] at hj
  obtain ⟨old, hold, rfl⟩ := hj
  have hfits := h.runs old (List.mem_of_getElem? hold)
  split
  · exact hf old hfits
  · exact hfits

theorem RunEntry.Fits.withState {log : List Published} {entry : RunEntry} (h : entry.Fits log)
    {state : State} (hdefinition : state.run.definition = entry.state.run.definition)
    (hworkers : FitsWorkers state) :
    RunEntry.Fits log { entry with state := state } := by
  obtain ⟨p, hp, hid, hversion, hsame⟩ := h.version
  exact ⟨⟨p, hp, hid, hversion, hsame.trans hdefinition.symm⟩, hworkers⟩

theorem RunEntry.Fits.automationsStep {log : List Published} {entry : RunEntry}
    (h : entry.Fits log) (ev : Event) :
    RunEntry.Fits log { entry with state := Automations.step entry.state ev } :=
  h.withState (definition_step entry.state ev) (h.workers.step ev)

/-- An action of a call keeps the runs on their versions and reads only published ones. -/
theorem DeploymentInv.callWork (h : DeploymentInv t s) {call : Call}
    (hcall : call.Fits s.registry.log) :
    DeploymentInv t (s.callWork call).1 ∧ (s.callWork call).2.Fits s.registry.log := by
  cases call with
  | looking request =>
      simp only [Deployment.callWork]
      split
      · refine ⟨h, ?_⟩
        dsimp only
        split <;> trivial
      · exact ⟨h, trivial⟩
  | choosing request =>
      simp only [Deployment.callWork]
      split
      · exact ⟨h, trivial⟩
      · rename_i version hversion
        split
        · exact ⟨h, trivial⟩
        · exact ⟨h, h.latest hversion⟩
  | creating request version =>
      simp only [Deployment.callWork]
      split
      · exact ⟨h, trivial⟩
      · rename_i s' hcreated
        exact ⟨h.createRun? hcall.1 hcall.2 hcreated, trivial⟩
  | labelling i =>
      refine ⟨h, ?_⟩
      simp only [Deployment.callWork]
      split <;> trivial
  | submitting i => exact ⟨h.modify i fun entry hentry => hentry.automationsStep .submit, trivial⟩
  | skipping request =>
      simp only [Deployment.callWork]
      split
      · exact ⟨h, trivial⟩
      · rename_i version hversion
        exact ⟨h, h.latest hversion⟩
  | checking request version =>
      simp only [Deployment.callWork]
      split
      · exact ⟨h, trivial⟩
      · exact ⟨h, hcall⟩
  | recording request version =>
      simp only [Deployment.callWork]
      split
      · exact ⟨h, trivial⟩
      · rename_i s' hcreated
        exact ⟨h.createRun? hcall.1 hcall.2 hcreated, trivial⟩
  | returned => exact ⟨h, trivial⟩
  | raised => exact ⟨h, trivial⟩

@[simp]
theorem registry_callWork (s : Deployment) (call : Call) :
    (s.callWork call).1.registry = s.registry := by
  cases call with
  | looking request =>
      simp only [Deployment.callWork]
      split <;> rfl
  | choosing request =>
      simp only [Deployment.callWork]
      split
      · rfl
      · split <;> rfl
  | creating request version | recording request version =>
      simp only [Deployment.callWork]
      split
      · rfl
      · rename_i s' hcreated
        rw [runs_of_createRun? hcreated]
  | skipping request =>
      simp only [Deployment.callWork]
      split <;> rfl
  | checking request version =>
      simp only [Deployment.callWork]
      split <;> rfl
  | labelling | submitting | returned | raised => rfl

theorem fits_afterCall {log : List Published} {call : Call} (h : call.Fits log) (x : Schedule)
    (nextAt : Instant) (status : String) :
    (Deployment.afterCall x nextAt status call).Fits log := by
  cases call with
  | returned | raised => trivial
  | _ => exact h

theorem DeploymentInv.withSchedules (h : DeploymentInv t s)
    (schedules : Table Schedule Schedule.scheduleId Schedule.scheduleId) :
    DeploymentInv t { s with schedules := schedules } :=
  { h with }

/-- An action of a tick keeps the runs on their versions and reads only published ones. -/
theorem DeploymentInv.tickWork (h : DeploymentInv t s) (cfg : SchedulerSettings) {tick : Tick}
    (htick : tick.phase.Fits s.registry.log) :
    DeploymentInv t (s.tickWork cfg tick).1 ∧
      (s.tickWork cfg tick).2.phase.Fits s.registry.log := by
  obtain ⟨env, pending, phase⟩ := tick
  cases phase with
  | next =>
      simp only [Deployment.tickWork]
      split
      · exact ⟨h, trivial⟩
      · split
        · exact ⟨h, trivial⟩
        · split <;> exact ⟨h, trivial⟩
  | calling x nextAt status call =>
      have hcall : call.Fits s.registry.log := htick
      obtain ⟨hinv, hfits⟩ := h.callWork hcall
      exact ⟨hinv, fits_afterCall hfits x nextAt status⟩
  | advancing x nextAt status => exact ⟨h.withSchedules _, trivial⟩
  | ended => exact ⟨h, trivial⟩

@[simp]
theorem registry_tickWork (cfg : SchedulerSettings) (s : Deployment) (tick : Tick) :
    (s.tickWork cfg tick).1.registry = s.registry := by
  obtain ⟨env, pending, phase⟩ := tick
  cases phase with
  | next =>
      simp only [Deployment.tickWork]
      split
      · rfl
      · split
        · rfl
        · split <;> rfl
  | calling x nextAt status call => exact registry_callWork s call
  | advancing | ended => rfl

/-- An action of one who starts runs keeps them on published versions. -/
theorem DeploymentInv.partyWork (h : DeploymentInv t s) (cfg : SchedulerSettings) (fails : Bool)
    {party : Party} (hparty : party.Fits s.registry.log) :
    DeploymentInv t (s.partyWork cfg fails party).1 ∧
      (s.partyWork cfg fails party).1.registry = s.registry ∧
      (s.partyWork cfg fails party).2.Fits s.registry.log := by
  cases party with
  | client call =>
      simp only [Deployment.partyWork]
      split
      · exact ⟨h, rfl, trivial⟩
      · have hcall : call.Fits s.registry.log := hparty
        obtain ⟨hinv, hfits⟩ := h.callWork hcall
        exact ⟨hinv, registry_callWork s call, hfits⟩
  | tick tick =>
      simp only [Deployment.partyWork]
      split
      · exact ⟨h, rfl, trivial⟩
      · obtain ⟨hinv, hfits⟩ := h.tickWork cfg hparty
        exact ⟨hinv, registry_tickWork cfg s tick, hfits⟩

end Calls

/-! ## The deployment -/

section Deployment

variable {t : CharTables} {s : Deployment}

theorem RunEntry.Fits.step {log : List Published} {entry : RunEntry} (h : entry.Fits log)
    (ev : Event) :
    (entry.step ev).Fits log := by
  have hmoved : RunEntry.Fits log
      { entry with
        state := if entry.removed then removedStep entry.state ev
          else Automations.step entry.state ev } := by
    split
    · refine h.withState ?_ (h.workers.removedStep ev)
      rw [run_removedStep]
    · exact h.automationsStep ev
  cases ev with
  | submit | crash => exact h
  | work | cancel | select | read | recover => exact hmoved

theorem DeploymentInv.registryStep (h : DeploymentInv t s) (ev : RegistryEvent) :
    DeploymentInv t { s with registry := Publication.registryStep t s.registry ev } where
  registry := h.registry.step ev
  runs := fun entry hentry =>
    (h.runs entry hentry).mono (log_subset_registryStep t s.registry ev)
  parties := fun party hparty =>
    (h.parties party hparty).mono (log_subset_registryStep t s.registry ev)

theorem DeploymentInv.map (h : DeploymentInv t s) {f : RunEntry → RunEntry}
    (hf : ∀ entry : RunEntry, entry.Fits s.registry.log → (f entry).Fits s.registry.log) :
    DeploymentInv t { s with runs := s.runs.map f } := by
  refine { h with runs := fun entry hentry => ?_ }
  obtain ⟨old, hold, rfl⟩ := List.mem_map.1 hentry
  exact hf old (h.runs old hold)

theorem DeploymentInv.addParty (h : DeploymentInv t s) {party : Party}
    (hparty : party.Fits s.registry.log) :
    DeploymentInv t { s with parties := s.parties ++ [party] } := by
  refine { h with parties := fun other hother => ?_ }
  rcases List.mem_append.1 hother with hold | hnew
  · exact h.parties other hold
  · obtain rfl := List.mem_singleton.1 hnew
    exact hparty

/-- One step of the deployment keeps every run on the definition of its version. -/
theorem DeploymentInv.step (h : DeploymentInv t s) (cfg : SchedulerSettings)
    (ev : DeploymentEvent) :
    DeploymentInv t (deploymentStep t cfg s ev) := by
  cases ev with
  | registry ev =>
      cases ev with
      | delete runbookId =>
          have hremoved := (h.registryStep (.delete runbookId)).map
            (f := fun entry =>
              { entry with removed := entry.removed || decide (entry.runbookId = runbookId) })
            fun entry hentry => ⟨hentry.version, hentry.workers⟩
          exact hremoved.withSchedules _
      | create runbookId name draft => exact h.registryStep (.create runbookId name draft)
      | edit runbookId name draft => exact h.registryStep (.edit runbookId name draft)
      | publish runbookId confirmName => exact h.registryStep (.publish runbookId confirmName)
      | store j => exact h.registryStep (.store j)
      | crash => exact h.registryStep .crash
  | createSchedule scheduleId runbookId cron timezone enabled now => exact h.withSchedules _
  | editSchedule scheduleId cron timezone enabled now => exact h.withSchedules _
  | deleteSchedule scheduleId =>
      have hcleared := h.map
        (f := fun entry =>
          { entry with scheduleId := entry.scheduleId.filter fun id => decide (id ≠ scheduleId) })
        fun entry hentry => ⟨hentry.version, hentry.workers⟩
      exact hcleared.withSchedules _
  | start runbookId dryRun trigger key => exact h.addParty trivial
  | tick env => exact h.addParty trivial
  | party j fails =>
      simp only [deploymentStep]
      split
      · exact h
      · rename_i party hparty
        obtain ⟨hinv, hregistry, hfits⟩ :=
          h.partyWork cfg fails (h.parties party (List.mem_of_getElem? hparty))
        refine { hinv with parties := fun other hother => ?_ }
        rw [hregistry]
        rcases List.mem_or_eq_of_mem_set hother with hold | rfl
        · exact h.parties other hold
        · exact hfits
  | run i ev => exact h.modify i fun entry hentry => hentry.step ev
  | crash =>
      have hdead := (h.registryStep .crash).map
        (f := fun entry => { entry with state := Automations.step entry.state .crash })
        fun entry hentry => hentry.automationsStep .crash
      exact { hdead with parties := fun party hparty => absurd hparty List.not_mem_nil }

theorem deploymentInv_emptyDeployment (t : CharTables) :
    DeploymentInv t emptyDeployment where
  registry := registryInv_empty t
  runs := fun _ hentry => absurd hentry List.not_mem_nil
  parties := fun _ hparty => absurd hparty List.not_mem_nil

end Deployment

/-! ## Handlers -/

/-- A call of the step handler with the normalised configuration. -/
structure HandlerCall where
  entry : RunEntry
  index : Nat
  step : StepDefinition
  config : Output

/--
The handler that a step of the deployment calls: a worker carries out a step that is no
notification, and the run is no dry run.
-/
def handlerCall? (t : CharTables) (s : Deployment) : DeploymentEvent → Option HandlerCall
  | .run i (.work k _) =>
      match s.runs[i]? with
      | none => none
      | some entry =>
          match (entry.state.workers[k]?).map Worker.phase with
          | some (.ready index step _) =>
              if entry.state.run.dryRun || decide (step.type = .notification) then none
              else
                match normalizeStepConfig t step.type step.config with
                | .ok config =>
                    some { entry := entry, index := index, step := step, config := config }
                | .error _ => none
          | _ => none
  | _ => none

/-- The handler is asked for an export that deletes the assets in MP VM. -/
def HandlerCall.RequestsRemoval (boolField : Value → Option Bool) (call : HandlerCall) : Prop :=
  call.step.type = .pdqlExport ∧ deletesAssets boolField call.config = true

instance (boolField : Value → Option Bool) (call : HandlerCall) :
    Decidable (call.RequestsRemoval boolField) :=
  inferInstanceAs (Decidable (_ ∧ _))

/-- The primary key of the version to which the run of a call belongs. -/
def HandlerCall.version (call : HandlerCall) : String × Nat :=
  (call.entry.runbookId, call.entry.version)

/-- The version behind a call was confirmed, and its steps are the ones that are executed. -/
structure HandlerCall.Confirmed (r : Registry) (call : HandlerCall) : Prop where
  published : ∃ p ∈ r.log, p.key = call.version
  confirmed : ∀ p ∈ r.log, p.key = call.version →
    p.confirmName = some p.name ∧ p.definition = call.entry.state.run.definition
  stored : ∀ row ∈ r.versions, row.key = call.version →
    row.definition = call.entry.state.run.definition
  executed : call.entry.state.run.definition.steps[call.index]? = some call.step ∧
    call.config = call.step.config

/-- A call is made for a step of its run. -/
theorem handlerCall?_eq {t : CharTables} {s : Deployment} {ev : DeploymentEvent}
    {call : HandlerCall} (h : handlerCall? t s ev = some call) :
    call.entry ∈ s.runs ∧
      (∃ w ∈ call.entry.state.workers, ∃ attempt, w.phase = .ready call.index call.step attempt) ∧
      normalizeStepConfig t call.step.type call.step.config = .ok call.config := by
  unfold handlerCall? at h
  split at h
  · split at h
    · cases h
    · rename_i entry hentry
      split at h
      · rename_i index step attempt hphase
        obtain ⟨w, hw, hready⟩ := Option.map_eq_some_iff.1 hphase
        split at h
        · cases h
        · split at h
          · rename_i config hconfig
            obtain rfl := Option.some.inj h
            exact ⟨List.mem_of_getElem? hentry, ⟨w, List.mem_of_getElem? hw, attempt, hready⟩,
              hconfig⟩
          · cases h
      · cases h
  · cases h

section Theorem

variable {t : CharTables} {s : Deployment} {boolField : Value → Option Bool}

theorem RegistryInv.eq_of_key {r : Registry} (h : RegistryInv t r) {p q : Published}
    (hp : p ∈ r.log) (hq : q ∈ r.log) (hkey : p.key = q.key) :
    p = q :=
  List.inj_on_of_nodup_map (f := fun p : Published => p.key) (List.pairwise_map.2 h.distinct)
    hp hq hkey

/-- A handler that is called to delete assets is called for a confirmed version. -/
theorem DeploymentInv.confirmed (h : DeploymentInv t s)
    (hbool : ∀ value, boolField value = some true → value.truthy = true)
    {ev : DeploymentEvent} {call : HandlerCall} (hcall : handlerCall? t s ev = some call)
    (hremoval : call.RequestsRemoval boolField) :
    call.Confirmed s.registry := by
  obtain ⟨hentry, ⟨w, hw, attempt, hready⟩, hconfig⟩ := handlerCall?_eq hcall
  obtain ⟨⟨p, hp, hid, hversion, hdefinition⟩, hworkers⟩ := h.runs call.entry hentry
  have hstep : call.entry.state.run.definition.steps[call.index]? = some call.step := by
    have hfits := hworkers w hw
    rw [hready] at hfits
    exact hfits
  have hvalid := h.registry.valid p hp
  rw [← hdefinition] at hstep
  have hmem := List.mem_of_getElem? hstep
  have hsame : call.config = call.step.config :=
    (Except.ok.inj ((hvalid.steps call.step hmem).normal.symm.trans hconfig)).symm
  have hdestructive : isDestructive p.definition = true :=
    isDestructive_of_deletesAssets hbool hvalid hmem hremoval.1 (hsame ▸ hremoval.2)
  have hkey : p.key = call.version := Prod.ext hid hversion
  refine ⟨⟨p, hp, hkey⟩, fun q hq hq' => ?_, fun row hrow hrow' => ?_, hdefinition ▸ hstep, hsame⟩
  · obtain rfl := h.registry.eq_of_key hp hq (hkey.trans hq'.symm)
    exact ⟨h.registry.confirmed p hp hdestructive, hdefinition⟩
  · obtain ⟨q, hq, rfl⟩ := h.registry.logged row hrow
    obtain rfl := h.registry.eq_of_key hp hq (hkey.trans hrow'.symm)
    exact hdefinition

/--
In every run of the deployment, a handler that is called to delete assets outside of a dry
run is called for a version that was published with the exact name of its runbook, and the
steps that are executed are those of this version.
-/
theorem removals_confirmed (t : CharTables) (cfg : SchedulerSettings)
    {boolField : Value → Option Bool}
    (hbool : ∀ value, boolField value = some true → value.truthy = true)
    (es : List DeploymentEvent) :
    Along (deploymentStep t cfg)
      (fun s ev => ∀ call, handlerCall? t s ev = some call → call.RequestsRemoval boolField →
        call.Confirmed s.registry) emptyDeployment es := by
  have hall : Along (deploymentStep t cfg) (fun _ _ => True) emptyDeployment es :=
    along_of_forall (fun _ _ => trivial) emptyDeployment es
  refine hall.ensures (fun s ev (h : DeploymentInv t s) _ => h.step cfg ev) ?_
    (deploymentInv_emptyDeployment t)
  intro s ev h _ call hcall hremoval
  exact h.confirmed hbool hcall hremoval

end Theorem

/-! ## Every run of the registry -/

/-- Every stored draft can be published, and then what is published is the draft. -/
def PublishesDrafts (t : CharTables) (r : Registry) : Prop :=
  ∀ runbookId runbook confirmName, r.runbooks.find? runbookId = some runbook →
    ∃ definition : Definition, runbook.draft = definition.requests ∧
      (r.publish t runbookId confirmName).publishing =
        if isDestructive definition = true ∧ confirmName ≠ some runbook.name then r.publishing
        else r.publishing ++
          [{ runbookId := runbookId
             name := runbook.name
             confirmName := confirmName
             definition := definition }]

/-- What is stored later under the number of a version is this version. -/
def VersionsStand (r r' : Registry) : Prop :=
  ∀ row ∈ r.versions, ∀ row' ∈ r'.versions, row'.key = row.key → row' = row

/--
In every run a version of a runbook is never replaced by another one, also when the runbook is
edited, published again, or deleted; and what is published is the draft as it is stored.
-/
theorem published_versions_stand (t : CharTables) (es fs : List RegistryEvent) :
    VersionsStand (run (registryStep t) {} es) (run (registryStep t) {} (es ++ fs)) ∧
      PublishesDrafts t (run (registryStep t) {} es) := by
  have hinv : ∀ es, RegistryInv t (run (registryStep t) {} es) := by
    intro es
    have hall : Along (registryStep t) (fun _ _ => True) {} es :=
      along_of_forall (fun _ _ => trivial) _ es
    exact hall.invariant (fun r ev (h : RegistryInv t r) _ => h.step ev) (registryInv_empty t)
  refine ⟨?_, fun runbookId runbook confirmName hfind => publish_draft (hinv es) hfind confirmName⟩
  intro row hrow row' hrow' hkey
  have hsub : ∀ r : Registry, r.log ⊆ (run (registryStep t) r fs).log := by
    clear hrow'
    induction fs with
    | nil => exact fun r p hp => hp
    | cons ev fs ih => exact fun r p hp => ih _ (log_subset_registryStep t r ev hp)
  obtain ⟨p, hp, rfl⟩ := (hinv es).logged row hrow
  obtain ⟨q, hq, rfl⟩ := (hinv (es ++ fs)).logged row' hrow'
  rw [(hinv (es ++ fs)).eq_of_key hq (by rw [run_append]; exact hsub _ hp) hkey]

/-- The character tables of ASCII. -/
def asciiTables : CharTables where
  lower := fun s => s.map Char.toLower
  decimal := fun c => if c.isDigit then some (c.toNat - '0'.toNat) else none

/-- How the schema reads a truth field. -/
def plainBool : Value → Option Bool
  | .bool b => some b
  | .number q => if q = 0 then some false else if q = 1 then some true else none
  | .text s =>
      if s.map Char.toLower ∈ ["1", "on", "t", "true", "y", "yes"] then some true
      else if s.map Char.toLower ∈ ["0", "off", "f", "false", "n", "no"] then some false
      else none
  | _ => none

theorem truthy_of_plainBool (value : Value) (h : plainBool value = some true) :
    value.truthy = true := by
  cases value with
  | bool b => simpa [plainBool, Value.truthy] using h
  | number q =>
      by_cases hzero : q = 0
      · simp [plainBool, hzero] at h
      · simpa [Value.truthy] using hzero
  | text s =>
      by_cases hempty : s = ""
      · subst hempty
        revert h
        decide +kernel
      · simpa [Value.truthy] using hempty
  | none | list | dict => simp [plainBool] at h

/-- A schedule that is due every hour. -/
def everyHour : SchedulerSettings where
  pollSeconds := 30
  next := fun _ _ now => some (now + 3600)

/-- A runbook that deletes assets is published, started and executed up to its handler. -/
def cleanupRun : List DeploymentEvent :=
  [.registry (.create "cleanup" "Cleanup"
      [{ stepId := "export"
         type := .pdqlExport
         config := [("delete_assets_after_export", .bool true)] }]),
    .registry (.publish "cleanup" (some "Cleanup")), .registry (.store 0),
    .start "cleanup" false .manual none, .party 0 false, .party 0 false, .party 0 false,
    .party 0 false, .party 0 false, .run 0 (.work 0 .cancelled), .run 0 (.work 0 .cancelled),
    .run 0 (.work 0 .cancelled), .run 0 (.work 0 .cancelled), .run 0 (.work 0 .cancelled)]

/-- The handler of the cleanup is called to delete assets, and its version was confirmed. -/
theorem cleanup_confirmed :
    (handlerCall? asciiTables (run (deploymentStep asciiTables everyHour) emptyDeployment cleanupRun)
        (.run 0 (.work 0 .cancelled))).any
        (fun call => decide (call.RequestsRemoval plainBool)) = true ∧
      Along (deploymentStep asciiTables everyHour)
        (fun s ev => ∀ call, handlerCall? asciiTables s ev = some call →
          call.RequestsRemoval plainBool → call.Confirmed s.registry)
        emptyDeployment (cleanupRun ++ [.run 0 (.work 0 .cancelled)]) :=
  ⟨by decide +kernel,
    removals_confirmed asciiTables everyHour truthy_of_plainBool
      (cleanupRun ++ [.run 0 (.work 0 .cancelled)])⟩

end Publication
end Automations
end MpvmApp
