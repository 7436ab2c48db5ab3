import MpvmApp.Workflow.Campaigns

/-!
# Idempotency keys of workflow requests

The unique key admits one row for each idempotency key.  A request that reuses a key
gets the row of the key when it asks for the same thing, and is refused otherwise,
unless its entry point answers before it looks at the key or compares more than the
request.

Main definitions:

- `Ask.asksFor`: the request asks for what a row was created for.
- `AnswersRight`: the answer that the key of a request calls for.
- `KeyFirst`: the steps whose answer is not the one of the key.

Main results:

- Theorem `wellKept_requestStep`: what the handlers know of the stored rows stays true.
- Theorem `answers_right_iff`: when all requests of a run are answered by their keys.
-/

namespace MpvmApp
namespace Workflow

open Sql Remediation Runs

variable {ω : Type} [DecidableEq ω]

/-! ## Rows and the requests that they were created for -/

/-- The request asks for what the row was created for. -/
def Ask.asksFor (ask : Ask ω) (row : Stored ω) : Bool :=
  match ask with
  | .scan taskId options =>
      decide (row.kind = .scan) && row.retryOf.isNone &&
        decide (row.body.taskId = some taskId) && decide (row.body.options = options)
  | .verification campaignId options =>
      decide (row.kind = .verification) && row.retryOf.isNone &&
        decide (row.body.campaignId = some campaignId) && decide (row.body.options = options)
  | .retry sourceId => decide (row.retryOf = some sourceId)

/-- The campaign that a request names. -/
def Ask.campaign? : Ask ω → Option String
  | .verification campaignId _ => some campaignId
  | _ => none

/-- The workflow can be retried. -/
def Requests.Retryable (s : Requests ω) (workflowId : String) : Prop :=
  ∃ e, s.base.workflows workflowId = some e ∧ e.row.status.canRetry = true

/-- The arguments of `create` stand for a request. -/
def Origin (s : Requests ω) (ask : Ask ω) (kind : Kind) (body : Body ω)
    (retryOf : Option String) : Prop :=
  match ask with
  | .scan taskId options =>
      kind = .scan ∧ body = (scanDraft taskId options).body ∧ retryOf = none
  | .verification campaignId options =>
      kind = .verification ∧ retryOf = none ∧ campaignId ∈ s.campaigns ∧
        ∃ targets, body = (verificationDraft campaignId targets options).body
  | .retry sourceId =>
      retryOf = some sourceId ∧ s.Retryable sourceId ∧
        ∃ source ∈ s.stored, source.workflowId = sourceId ∧ kind = source.kind ∧
          body = source.body

theorem asksFor_iff {s : Requests ω} {ask made : Ask ω} {row : Stored ω}
    (horigin : Origin s made row.kind row.body row.retryOf) :
    ask.asksFor row = true ↔ made = ask := by
  cases made with
  | scan taskId options =>
      obtain ⟨hkind, hbody, hretry⟩ := horigin
      cases ask <;> simp [Ask.asksFor, hkind, hbody, hretry, scanDraft]
  | verification campaignId options =>
      obtain ⟨hkind, hretry, _, targets, hbody⟩ := horigin
      cases ask <;> simp [Ask.asksFor, hkind, hbody, hretry, verificationDraft]
  | retry sourceId =>
      obtain ⟨hretry, _⟩ := horigin
      cases ask <;> simp [Ask.asksFor, hretry]

/-- The answer that the row of the key calls for. -/
def Right (row : Stored ω) (ask : Ask ω) (answer : Answer) : Prop :=
  if ask.asksFor row = true then ∃ replay, answer = .returned row.workflowId replay
  else answer.refuses = true

/-- The replay of a scan compares what the request says. -/
theorem right_replayScan {s : Requests ω} {made : Ask ω} {row : Stored ω} {taskId : String}
    {options : ω} (horigin : Origin s made row.kind row.body row.retryOf) :
    Right row (.scan taskId options) (replayScan row taskId options) := by
  unfold Right
  split
  · rename_i hasks
    rw [asksFor_iff horigin] at hasks
    subst hasks
    obtain ⟨hkind, hbody, hretry⟩ := horigin
    exact ⟨true, by simp [replayScan, hkind, hbody, hretry, scanDraft]⟩
  · rename_i hasks
    unfold replayScan
    split
    · rfl
    · rename_i hkind
      split
      · rfl
      · rename_i hretry
        split
        · rfl
        · rename_i hsame
          exfalso
          apply hasks
          rw [asksFor_iff horigin]
          rw [not_not] at hkind hretry
          simp only [not_or, not_not] at hsame
          cases made with
          | scan taskId' options' =>
              obtain ⟨_, hbody, _⟩ := horigin
              rw [hbody] at hsame
              simp only [scanDraft, Option.getD_some] at hsame
              rw [hsame.1, hsame.2]
          | verification campaignId options' =>
              rw [horigin.1] at hkind
              cases hkind
          | retry sourceId =>
              rw [horigin.1] at hretry
              cases hretry

omit [DecidableEq ω] in
/-- Two drafts of one request differ at most in the assets of a verification. -/
theorem Origin.same {s : Requests ω} {ask : Ask ω} {kind kind' : Kind} {body body' : Body ω}
    {retryOf retryOf' : Option String} (hids : (s.stored.map Stored.workflowId).Nodup)
    (h : Origin s ask kind body retryOf) (h' : Origin s ask kind' body' retryOf') :
    kind = kind' ∧ retryOf = retryOf' ∧ (body = body' ↔ body.assetIds = body'.assetIds) := by
  cases ask with
  | scan taskId options =>
      obtain ⟨rfl, rfl, rfl⟩ := h
      obtain ⟨rfl, rfl, rfl⟩ := h'
      exact ⟨rfl, rfl, by simp⟩
  | verification campaignId options =>
      obtain ⟨rfl, rfl, _, targets, rfl⟩ := h
      obtain ⟨rfl, rfl, _, targets', rfl⟩ := h'
      exact ⟨rfl, rfl, by simp [verificationDraft]⟩
  | retry sourceId =>
      obtain ⟨rfl, _, source, hsource, hid, rfl, rfl⟩ := h
      obtain ⟨rfl, _, source', hsource', hid', rfl, rfl⟩ := h'
      have heq := List.inj_on_of_nodup_map hids hsource hsource' (hid.trans hid'.symm)
      rw [heq]
      exact ⟨rfl, rfl, by simp⟩

omit [DecidableEq ω] in
/-- Equal arguments of `create` stand for the same request. -/
theorem Origin.eq {s : Requests ω} {ask ask' : Ask ω} {kind : Kind} {body : Body ω}
    {retryOf : Option String} (h : Origin s ask kind body retryOf)
    (h' : Origin s ask' kind body retryOf) :
    ask = ask' := by
  cases ask with
  | scan taskId options =>
      obtain ⟨rfl, rfl, rfl⟩ := h
      cases ask' with
      | scan taskId' options' => simpa [Origin, scanDraft] using h'
      | verification campaignId options' => cases h'.1
      | retry sourceId => cases h'.1
  | verification campaignId options =>
      obtain ⟨rfl, rfl, _, targets, rfl⟩ := h
      cases ask' with
      | scan taskId options' => cases h'.1
      | verification campaignId' options' =>
          obtain ⟨_, _, _, targets', hbody⟩ := h'
          simp only [verificationDraft, Body.mk.injEq, Option.some.injEq, true_and] at hbody
          rw [hbody.1, hbody.2.2]
      | retry sourceId => cases h'.1
  | retry sourceId =>
      obtain ⟨rfl, _⟩ := h
      cases ask' with
      | scan taskId options' => cases h'.2.2
      | verification campaignId options' => cases h'.2.1
      | retry sourceId' => rw [Option.some.inj h'.1]

/-- The replay of a draft compares the assets of a verification, too. -/
theorem right_replayDraft_iff {s : Requests ω} {made ask : Ask ω} {row : Stored ω}
    {draft : Draft ω} (hids : (s.stored.map Stored.workflowId).Nodup)
    (horigin : Origin s made row.kind row.body row.retryOf)
    (hdraft : Origin s ask draft.kind draft.body draft.retryOf) :
    Right row ask (replayDraft row draft) ↔
      (ask.asksFor row = true → row.body.assetIds = draft.body.assetIds) := by
  unfold Right
  by_cases hasks : ask.asksFor row = true
  · rw [if_pos hasks]
    simp only [hasks, true_implies]
    rw [asksFor_iff horigin] at hasks
    subst hasks
    obtain ⟨hkind, hretry, hbody⟩ := horigin.same hids hdraft
    unfold replayDraft
    rw [if_neg (not_not.2 hkind), if_neg (not_not.2 hretry), ← hbody]
    by_cases hequal : row.body = draft.body
    · simp [hequal]
    · simp [hequal]
  · rw [if_neg hasks]
    refine iff_of_true ?_ fun h => absurd h hasks
    unfold replayDraft
    split
    · rfl
    · rename_i hkind
      split
      · rfl
      · rename_i hretry
        split
        · rfl
        · rename_i hbody
          exfalso
          apply hasks
          rw [not_not] at hkind hretry hbody
          rw [← hkind, ← hbody, ← hretry] at hdraft
          exact (asksFor_iff horigin).2 (horigin.eq hdraft)

/-! ## What the handlers know -/

/-- The tables only grow, and a workflow that can be retried stays so. -/
structure Extends (s s' : Requests ω) : Prop where
  rows : ∀ row ∈ s.stored, row ∈ s'.stored
  campaigns : ∀ campaignId ∈ s.campaigns, campaignId ∈ s'.campaigns
  retryable : ∀ w, s.Retryable w → s'.Retryable w

omit [DecidableEq ω] in
theorem Origin.mono {s s' : Requests ω} (hext : Extends s s') {ask : Ask ω} {kind : Kind}
    {body : Body ω} {retryOf : Option String} (h : Origin s ask kind body retryOf) :
    Origin s' ask kind body retryOf := by
  cases ask with
  | scan taskId options => exact h
  | verification campaignId options =>
      obtain ⟨hkind, hretry, hcampaign, hbody⟩ := h
      exact ⟨hkind, hretry, hext.campaigns _ hcampaign, hbody⟩
  | retry sourceId =>
      obtain ⟨hretry, hretryable, source, hsource, hrest⟩ := h
      exact ⟨hretry, hext.retryable _ hretryable, source, hext.rows _ hsource, hrest⟩

omit [DecidableEq ω] in
theorem keyed?_isSome_iff {s : Requests ω} {key : Option String} :
    (s.keyed? key).isSome ↔ ∃ k, key = some k ∧ ∃ row ∈ s.stored, row.idempotencyKey = some k := by
  cases key with
  | none => simp [Requests.keyed?]
  | some k =>
      simp only [Requests.keyed?, Option.bind_some, Requests.byKey?, List.find?_isSome,
        decide_eq_true_eq, Option.some.injEq]
      constructor
      · rintro ⟨row, hrow, hkey⟩
        exact ⟨k, rfl, row, hrow, hkey⟩
      · rintro ⟨k', rfl, row, hrow, hkey⟩
        exact ⟨row, hrow, hkey⟩

omit [DecidableEq ω] in
theorem keyed?_eq_some {s : Requests ω} {key : Option String} {row : Stored ω}
    (h : s.keyed? key = some row) :
    row ∈ s.stored ∧ row.idempotencyKey = key ∧ key ≠ none := by
  cases key with
  | none => cases h
  | some k =>
      have hkey := List.find?_some h
      exact ⟨List.mem_of_find?_eq_some h, of_decide_eq_true hkey, by simp⟩

theorem orNone_eq_some {key : Option String} {k : String} (h : orNone key = some k) :
    key = some k := by
  unfold orNone nullIfEmpty at h
  exact (Option.filter_eq_some_iff.1 h).1

/-- What the stage of a handler says about its request and the tables. -/
def StageOf (s : Requests ω) (h : Handler ω) : Prop :=
  match h.stage with
  | .preflighting => ∃ taskId options, h.ask = .scan taskId options
  | .targeted _ => ∃ campaignId options, h.ask = .verification campaignId options ∧
      campaignId ∈ s.campaigns
  | .creating draft | .inserting draft => Origin s h.ask draft.kind draft.body draft.retryOf
  | .rereading draft => Origin s h.ask draft.kind draft.body draft.retryOf ∧
      (orNone h.key).isSome ∧ (s.keyed? h.key).isSome
  | .arrived | .answered _ => True

omit [DecidableEq ω] in
theorem StageOf.mono {s s' : Requests ω} (hext : Extends s s') {h : Handler ω}
    (hstage : StageOf s h) :
    StageOf s' h := by
  unfold StageOf at hstage ⊢
  split
  · rename_i hs
    rw [hs] at hstage
    exact hstage
  · rename_i targets hs
    rw [hs] at hstage
    obtain ⟨campaignId, options, hask, hcampaign⟩ := hstage
    exact ⟨campaignId, options, hask, hext.campaigns _ hcampaign⟩
  · rename_i draft hs
    rw [hs] at hstage
    exact hstage.mono hext
  · rename_i draft hs
    rw [hs] at hstage
    exact hstage.mono hext
  · rename_i draft hs
    rw [hs] at hstage
    obtain ⟨horigin, hkey, hsome⟩ := hstage
    refine ⟨horigin.mono hext, hkey, ?_⟩
    rw [keyed?_isSome_iff] at hsome ⊢
    obtain ⟨k, hk, row, hrow, hrowKey⟩ := hsome
    exact ⟨k, hk, row, hext.rows _ hrow, hrowKey⟩
  · trivial
  · trivial

/-- The stored rows have their ids, keys and requests, and the handlers know them. -/
structure WellKept (s : Requests ω) : Prop where
  ended : AllEnded s
  ids : (s.stored.map Stored.workflowId).Nodup
  entries : ∀ row ∈ s.stored, (s.base.workflows row.workflowId).isSome
  keys : ∀ row ∈ s.stored, ∀ row' ∈ s.stored, ∀ k, row.idempotencyKey = some k →
    row'.idempotencyKey = some k → row = row'
  origins : ∀ row ∈ s.stored, ∃ ask, Origin s ask row.kind row.body row.retryOf
  stages : ∀ h ∈ s.handlers, StageOf s h

theorem RunStatus.isTerminal_of_canRetry {status : RunStatus} (h : status.canRetry = true) :
    status.isTerminal = true := by
  cases status <;> first | rfl | cases h

/-- Every step extends the tables. -/
theorem extends_requestStep (cfg : RequestSettings ω) {s : Requests ω} (hended : AllEnded s)
    (ev : RequestEvent ω) :
    Extends s (requestStep cfg s ev) := by
  have hcampaigns : ∀ c ∈ s.campaigns, c ∈ (requestStep cfg s ev).campaigns := by
    intro c hc
    cases ev with
    | arrive ask key => exact hc
    | act w action => exact hc
    | remediation op =>
        simp only [requestStep, campaignsAfter]
        split
        · exact List.mem_cons_of_mem _ hc
        · exact hc
    | handle i ready w =>
        simp only [requestStep]
        split
        · exact hc
        · split
          · unfold insert
            split
            · exact hc
            · split <;> exact hc
          · split <;> exact hc
  cases hins : insertion? s ev with
  | none =>
      obtain ⟨hstored, hkeeps⟩ := requestStep_of_no_insertion cfg hins hended
      refine ⟨fun row hrow => hstored ▸ hrow, hcampaigns, ?_⟩
      rintro w ⟨e, he, hretry⟩
      rcases hkeeps w with ⟨hnone, _⟩ | ⟨a, b, ha, hb, hkeep⟩
      · rw [hnone] at he
        cases he
      · rw [ha] at he
        cases he
        refine ⟨b, hb, ?_⟩
        rw [hkeep.settled (RunStatus.isTerminal_of_canRetry hretry)]
        exact hretry
  | some inserted =>
      obtain ⟨h, draft, v⟩ := inserted
      obtain ⟨hbase, hstored⟩ := requestStep_of_insertion cfg hins
      obtain ⟨_, _, _, _, _, _, hfree⟩ := insertion?_eq_some hins
      refine ⟨fun row hrow => hstored ▸ List.mem_cons_of_mem _ hrow, hcampaigns, ?_⟩
      rintro w ⟨e, he, hretry⟩
      have hne : w ≠ v := by
        rintro rfl
        rw [hfree] at he
        cases he
      refine ⟨e, ?_, hretry⟩
      rw [hbase]
      simpa [State.put, hne] using he

/-- A decision of a handler fits its request. -/
theorem stageOf_nextStage {loc : Sql.Locale} {ready : Bool} {s : Requests ω} {h : Handler ω}
    {stage : Stage ω} (hstage : StageOf s h) (hnext : nextStage loc ready s h = some stage) :
    StageOf s { h with stage := stage } := by
  unfold nextStage at hnext
  split at hnext
  · cases hnext
    unfold receive
    split
    · rename_i taskId options hask
      split
      · trivial
      · exact ⟨taskId, options, hask⟩
    · rename_i campaignId options hask
      split
      · rename_i hcampaign
        exact ⟨campaignId, options, hask, hcampaign⟩
      · trivial
    · rename_i sourceId hask
      split
      · rename_i source stored hsource hrow
        split
        · rename_i hretry
          have hid := List.find?_some hrow
          change Origin s h.ask stored.kind stored.body (some sourceId)
          rw [hask]
          exact ⟨rfl, ⟨source, hsource, hretry⟩, stored, List.mem_of_find?_eq_some hrow,
            of_decide_eq_true hid, rfl, rfl⟩
        · trivial
      · trivial
  · split at hnext
    · rename_i taskId options hask
      cases hnext
      split
      · change Origin s h.ask _ _ _
        rw [hask]
        exact ⟨rfl, rfl, rfl⟩
      · trivial
    · cases hnext
  · rename_i targets hs
    split at hnext
    · rename_i campaignId options hask
      have hcampaign : campaignId ∈ s.campaigns := by
        unfold StageOf at hstage
        rw [hs] at hstage
        obtain ⟨campaignId', options', hask', hmem⟩ := hstage
        rw [hask] at hask'
        cases hask'
        exact hmem
      split at hnext
      · cases hnext
        trivial
      · cases hnext
        change Origin s h.ask _ _ _
        rw [hask]
        exact ⟨rfl, rfl, hcampaign, targets, rfl⟩
    · cases hnext
  · rename_i draft hs
    cases hnext
    unfold replayOr
    split
    · trivial
    · unfold StageOf at hstage
      rw [hs] at hstage
      exact hstage
  · cases hnext
    unfold replayOr
    split <;> trivial
  · cases hnext
  · cases hnext

/-- The handlers after a step: the old ones, a new one, or the one that took the step. -/
theorem mem_handlers_requestStep (cfg : RequestSettings ω) {s : Requests ω}
    {ev : RequestEvent ω} {h' : Handler ω} (hkept : WellKept s)
    (hmem : h' ∈ (requestStep cfg s ev).handlers) :
    StageOf (requestStep cfg s ev) h' := by
  have hext := extends_requestStep cfg hkept.ended ev
  have hold : ∀ h ∈ s.handlers, StageOf (requestStep cfg s ev) h :=
    fun h hh => (hkept.stages h hh).mono hext
  cases ev with
  | arrive ask key =>
      rcases List.mem_append.1 hmem with hmem | hmem
      · exact hold h' hmem
      · rw [List.mem_singleton.1 hmem]
        trivial
  | act w action => exact hold h' hmem
  | remediation op => exact hold h' hmem
  | handle i ready w =>
      have hset : ∀ (h : Handler ω) (stage : Stage ω), h ∈ s.handlers →
          h' ∈ s.handlers.set i { h with stage := stage } →
          StageOf s { h with stage := stage } →
          StageOf (requestStep cfg s (.handle i ready w)) h' := by
        intro h stage hh hh' hstage
        rcases List.mem_or_eq_of_mem_set hh' with hmem | rfl
        · exact hold h' hmem
        · exact hstage.mono hext
      cases hhandler : s.handlers[i]? with
      | none =>
          simp only [requestStep, hhandler] at hmem
          exact hold h' hmem
      | some h =>
          have hh := List.mem_of_getElem? hhandler
          have hstage := hkept.stages h hh
          cases hs : h.stage with
          | inserting draft =>
              unfold StageOf at hstage
              rw [hs] at hstage
              simp only [requestStep, hhandler, hs, insert] at hmem
              split at hmem
              · rename_i hconflict
                split at hmem
                · rename_i hkey
                  exact hset h _ hh hmem ⟨hstage, hkey, hconflict⟩
                · exact hset h _ hh hmem trivial
              · split at hmem
                · exact hold h' hmem
                · exact hset h _ hh hmem trivial
          | arrived | preflighting | targeted _ | creating _ | rereading _ | answered _ =>
              simp only [requestStep, hhandler, hs] at hmem
              split at hmem
              · rename_i stage hnext
                exact hset h stage hh hmem (stageOf_nextStage hstage hnext)
              · exact hold h' hmem

/-- Every step keeps what the handlers know. -/
theorem wellKept_requestStep (cfg : RequestSettings ω) {s : Requests ω} (hkept : WellKept s)
    (ev : RequestEvent ω) :
    WellKept (requestStep cfg s ev) := by
  have hext := extends_requestStep cfg hkept.ended ev
  have hended := allEnded_requestStep cfg hkept.ended ev
  have hstages : ∀ h' ∈ (requestStep cfg s ev).handlers, StageOf (requestStep cfg s ev) h' :=
    fun _ hmem => mem_handlers_requestStep cfg hkept hmem
  cases hins : insertion? s ev with
  | none =>
      obtain ⟨hstored, hrows⟩ := requestStep_of_no_insertion cfg hins hkept.ended
      refine ⟨hended, hstored ▸ hkept.ids, ?_, hstored ▸ hkept.keys, ?_, hstages⟩
      · intro row hrow
        rw [hstored] at hrow
        rcases hrows row.workflowId with ⟨hnone, _⟩ | ⟨_, _, _, hsome, _⟩
        · have hentry := hkept.entries row hrow
          rw [hnone] at hentry
          cases hentry
        · rw [hsome]
          rfl
      · intro row hrow
        rw [hstored] at hrow
        obtain ⟨ask, horigin⟩ := hkept.origins row hrow
        exact ⟨ask, horigin.mono hext⟩
  | some inserted =>
      obtain ⟨h, draft, v⟩ := inserted
      obtain ⟨hbase, hstored⟩ := requestStep_of_insertion cfg hins
      obtain ⟨i, ready, rfl, hhandler, hs, hkey, hfree⟩ := insertion?_eq_some hins
      have hnewKey : ∀ k, h.key = some k → ∀ row ∈ s.stored, row.idempotencyKey ≠ some k := by
        intro k hk row hrow hrowKey
        have hsome : (s.keyed? h.key).isSome := keyed?_isSome_iff.2 ⟨k, hk, row, hrow, hrowKey⟩
        rw [hkey] at hsome
        cases hsome
      refine ⟨hended, ?_, ?_, ?_, ?_, hstages⟩
      · rw [hstored, List.map_cons, List.nodup_cons]
        refine ⟨?_, hkept.ids⟩
        intro hmem
        obtain ⟨row, hrow, hid⟩ := List.mem_map.1 hmem
        have hentry := hkept.entries row hrow
        rw [hid, show (newRow h draft v).workflowId = v from rfl, hfree] at hentry
        cases hentry
      · intro row hrow
        rw [hstored] at hrow
        rw [hbase]
        by_cases hid : row.workflowId = v
        · simp [State.put, hid]
        · rcases List.mem_cons.1 hrow with rfl | hrow
          · exact absurd rfl hid
          · simpa [State.put, hid] using hkept.entries row hrow
      · intro row hrow row' hrow' k hk hk'
        rw [hstored] at hrow hrow'
        rcases List.mem_cons.1 hrow with rfl | hrow
        · rcases List.mem_cons.1 hrow' with rfl | hrow'
          · rfl
          · exact absurd hk' (hnewKey k hk row' hrow')
        · rcases List.mem_cons.1 hrow' with rfl | hrow'
          · exact absurd hk (hnewKey k hk' row hrow)
          · exact hkept.keys row hrow row' hrow' k hk hk'
      · intro row hrow
        rw [hstored] at hrow
        rcases List.mem_cons.1 hrow with rfl | hrow
        · have hstage := hkept.stages h (List.mem_of_getElem? hhandler)
          unfold StageOf at hstage
          rw [hs] at hstage
          exact ⟨h.ask, hstage.mono hext⟩
        · obtain ⟨ask, horigin⟩ := hkept.origins row hrow
          exact ⟨ask, horigin.mono hext⟩

omit [DecidableEq ω] in
theorem wellKept_noRequests (db : Database) :
    WellKept (noRequests db : Requests ω) where
  ended := fun w e he => by cases he
  ids := .nil
  entries := fun row hrow => by cases hrow
  keys := fun row hrow => by cases hrow
  origins := fun row hrow => by cases hrow
  stages := fun h hh => by cases hh

/-! ## Answers -/

/-- The request that a step answers, with the answer. -/
def answered? (cfg : RequestSettings ω) (s : Requests ω) (ev : RequestEvent ω) :
    Option (Handler ω × Answer) :=
  match ev with
  | .handle i _ _ =>
      match s.handlers[i]?, (requestStep cfg s ev).handlers[i]? with
      | some h, some h' =>
          match h.stage, h'.stage with
          | .answered _, _ => none
          | _, .answered answer => some (h, answer)
          | _, _ => none
      | _, _ => none
  | _ => none

/-- The keys are unique, and a request that reuses a key is answered by its row. -/
structure AnswersRight (cfg : RequestSettings ω) (s : Requests ω) (ev : RequestEvent ω) : Prop where
  unique : ∀ row ∈ (requestStep cfg s ev).stored, ∀ row' ∈ (requestStep cfg s ev).stored, ∀ k,
    row.idempotencyKey = some k → row'.idempotencyKey = some k → row = row'
  right : ∀ h answer row, answered? cfg s ev = some (h, answer) →
    (requestStep cfg s ev).keyed? h.key = some row → Right row h.ask answer
  unchanged : ∀ h answer, answered? cfg s ev = some (h, answer) → answer.refuses = true →
    (requestStep cfg s ev).base = s.base ∧ (requestStep cfg s ev).stored = s.stored

/-- The handler does not answer before the row of its key decides. -/
def KeyDecides (ready : Bool) (s : Requests ω) (h : Handler ω) (row : Stored ω) : Prop :=
  match h.stage with
  | .preflighting => ready = false → h.ask.asksFor row = false
  | .targeted _ => ∀ active, h.ask.campaign?.bind s.activeForCampaign = some active →
      h.ask.asksFor row = true ∧ active = row.workflowId
  | .creating draft => (orNone h.key).isSome → h.ask.asksFor row = true →
      row.body.assetIds = draft.body.assetIds
  | .rereading draft => h.ask.asksFor row = true → row.body.assetIds = draft.body.assetIds
  | .inserting _ => orNone h.key = none → h.ask.asksFor row = false
  | .arrived | .answered _ => True

/--
The step does not answer before the key decides: no preflight blocks a request whose
row exists, no active workflow stands in for the row of the key, the campaign has the
targets of the row, and the key is not the empty text.
-/
def KeyFirst (s : Requests ω) (ev : RequestEvent ω) : Prop :=
  ∀ i ready w h row, ev = .handle i ready w → s.handlers[i]? = some h →
    s.keyed? h.key = some row → KeyDecides ready s h row

/-- The answer of a step that moves a handler to a stage. -/
theorem answered?_of_stage {cfg : RequestSettings ω} {s : Requests ω} {i : Nat} {ready : Bool}
    {w : String} {h : Handler ω} {stage : Stage ω} (hhandler : s.handlers[i]? = some h)
    (hopen : ∀ answer, h.stage ≠ .answered answer)
    (hstep : (requestStep cfg s (.handle i ready w)).handlers =
      s.handlers.set i { h with stage := stage }) :
    answered? cfg s (.handle i ready w) =
      match stage with
      | .answered answer => some (h, answer)
      | _ => none := by
  have hlength : i < s.handlers.length := by
    by_contra hge
    rw [List.getElem?_eq_none (Nat.not_lt.1 hge)] at hhandler
    cases hhandler
  unfold answered?
  simp only [hhandler, hstep, List.getElem?_set_self hlength]
  cases hs : h.stage with
  | answered answer => exact absurd hs (hopen answer)
  | arrived | preflighting | targeted _ | creating _ | inserting _ | rereading _ =>
      cases stage <;> rfl

theorem asksFor_eq_false_iff {s : Requests ω} {ask made : Ask ω} {row : Stored ω}
    (horigin : Origin s made row.kind row.body row.retryOf) :
    ask.asksFor row = false ↔ made ≠ ask := by
  rw [← Bool.not_eq_true, asksFor_iff horigin]

theorem right_refusal_iff {row : Stored ω} {ask : Ask ω} {answer : Answer}
    (hrefuses : answer.refuses = true) :
    Right row ask answer ↔ ask.asksFor row = false := by
  unfold Right
  split
  · rename_i hasks
    refine iff_of_false ?_ (by simp [hasks])
    rintro ⟨replay, rfl⟩
    cases hrefuses
  · rename_i hasks
    exact iff_of_true hrefuses (by simpa using hasks)

theorem right_returned_iff {row : Stored ω} {ask : Ask ω} {workflowId : String} {replay : Bool} :
    Right row ask (.returned workflowId replay) ↔
      ask.asksFor row = true ∧ workflowId = row.workflowId := by
  unfold Right
  split
  · rename_i hasks
    simp [hasks]
  · rename_i hasks
    simp [hasks, Answer.refuses]

/-- The first read of a handler never answers wrongly. -/
theorem right_receive {loc : Sql.Locale} {s : Requests ω} {h : Handler ω} {row : Stored ω}
    {answer : Answer} (hkept : WellKept s) (hkey : s.keyed? h.key = some row)
    (hreceive : receive loc s h = .answered answer) :
    Right row h.ask answer := by
  obtain ⟨hrow, _, _⟩ := keyed?_eq_some hkey
  obtain ⟨made, horigin⟩ := hkept.origins row hrow
  unfold receive at hreceive
  split at hreceive
  · rename_i taskId options hask
    split at hreceive
    · rename_i existing hexisting
      cases hreceive
      have hsame : existing = row := by
        cases horNone : orNone h.key with
        | none =>
            rw [horNone] at hexisting
            cases hexisting
        | some k =>
            rw [horNone, ← orNone_eq_some horNone, hkey] at hexisting
            exact (Option.some.inj hexisting).symm
      rw [hask, hsame]
      exact right_replayScan horigin
    · cases hreceive
  · rename_i campaignId options hask
    split at hreceive
    · cases hreceive
    · rename_i hcampaign
      cases hreceive
      rw [right_refusal_iff rfl, asksFor_eq_false_iff horigin, hask]
      rintro rfl
      exact hcampaign horigin.2.2.1
  · rename_i sourceId hask
    have hother : ∀ hmade : made = .retry sourceId, False := by
      rintro rfl
      obtain ⟨_, ⟨e, he, hretry⟩, source, hsource, hid, _⟩ := horigin
      have hfound : (s.row? sourceId).isSome :=
        List.find?_isSome.2 ⟨source, hsource, decide_eq_true hid⟩
      obtain ⟨stored, hstored⟩ := Option.isSome_iff_exists.1 hfound
      rw [he, hstored] at hreceive
      simp [hretry] at hreceive
    split at hreceive
    · split at hreceive
      · cases hreceive
      · cases hreceive
        rw [right_refusal_iff rfl, asksFor_eq_false_iff horigin, hask]
        exact hother
    · cases hreceive
      rw [right_refusal_iff rfl, asksFor_eq_false_iff horigin, hask]
      exact hother

/-- A handler that reads and decides answers by its key, unless the key does not decide. -/
theorem right_nextStage_iff {loc : Sql.Locale} {ready : Bool} {s : Requests ω} {h : Handler ω}
    {row : Stored ω} (hkept : WellKept s) (hstage : StageOf s h)
    (hkey : s.keyed? h.key = some row) (hreads : ∀ draft, h.stage ≠ .inserting draft) :
    (∀ answer, nextStage loc ready s h = some (.answered answer) → Right row h.ask answer) ↔
      KeyDecides ready s h row := by
  obtain ⟨hrow, _, _⟩ := keyed?_eq_some hkey
  obtain ⟨made, horigin⟩ := hkept.origins row hrow
  have hkeyed : (orNone h.key).isSome → s.keyed? (orNone h.key) = some row := by
    intro hsome
    obtain ⟨k, hk⟩ := Option.isSome_iff_exists.1 hsome
    rw [hk, ← orNone_eq_some hk, hkey]
  unfold KeyDecides nextStage
  cases hs : h.stage with
  | arrived =>
      refine iff_of_true ?_ trivial
      intro answer hanswer
      exact right_receive hkept hkey (Option.some.inj hanswer)
  | preflighting =>
      simp only [StageOf, hs] at hstage
      obtain ⟨taskId, options, hask⟩ := hstage
      dsimp only
      rw [hask]
      cases ready
      · simpa using right_refusal_iff rfl
      · simp
  | targeted targets =>
      simp only [StageOf, hs] at hstage
      obtain ⟨campaignId, options, hask, _⟩ := hstage
      dsimp only
      rw [hask]
      simp only [Ask.campaign?, Option.bind_some]
      cases hactive : s.activeForCampaign campaignId with
      | none => simp
      | some active => simpa using right_returned_iff
  | creating draft =>
      simp only [StageOf, hs] at hstage
      simp only [replayOr]
      cases hsome : (orNone h.key).isSome with
      | false =>
          have hnone : orNone h.key = none := by simpa using hsome
          simp [hnone, Requests.keyed?]
      | true => simpa [hkeyed hsome] using right_replayDraft_iff hkept.ids horigin hstage
  | rereading draft =>
      simp only [StageOf, hs] at hstage
      obtain ⟨hstage, hsome, _⟩ := hstage
      simpa [replayOr, hkeyed hsome] using right_replayDraft_iff hkept.ids horigin hstage
  | inserting draft => exact absurd hs (hreads draft)
  | answered answer => simp

/-- A step of a handler that only reads answers with its next stage. -/
theorem answered?_of_reading {cfg : RequestSettings ω} {s : Requests ω} {i : Nat} {ready : Bool}
    {w : String} {h : Handler ω} (hhandler : s.handlers[i]? = some h)
    (hreads : ∀ draft, h.stage ≠ .inserting draft) {h' : Handler ω} {answer : Answer} :
    answered? cfg s (.handle i ready w) = some (h', answer) ↔
      h' = h ∧ nextStage cfg.locale ready s h = some (.answered answer) := by
  cases hnext : nextStage cfg.locale ready s h with
  | none =>
      have hstep : requestStep cfg s (.handle i ready w) = s := by
        simp only [requestStep, hhandler]
        cases hs : h.stage with
        | inserting draft => exact absurd hs (hreads draft)
        | arrived | preflighting | targeted _ | creating _ | rereading _ | answered _ =>
            simp only [hnext]
      unfold answered?
      simp only [hstep, hhandler]
      cases h.stage <;> simp
  | some stage =>
      have hopen : ∀ answer, h.stage ≠ .answered answer := by
        intro answer hs
        simp [nextStage, hs] at hnext
      have hstep : (requestStep cfg s (.handle i ready w)).handlers =
          s.handlers.set i { h with stage := stage } := by
        simp only [requestStep, hhandler]
        cases hs : h.stage with
        | inserting draft => exact absurd hs (hreads draft)
        | arrived | preflighting | targeted _ | creating _ | rereading _ | answered _ =>
            simp only [hnext]
            rfl
      rw [answered?_of_stage hhandler hopen hstep]
      cases stage <;> simp [eq_comm]

section Inserting

variable {cfg : RequestSettings ω} {s : Requests ω} {i : Nat} {ready : Bool} {w : String}
variable {h : Handler ω} {draft : Draft ω}

omit [DecidableEq ω] in
theorem not_answered_of_inserting (hs : h.stage = .inserting draft) (answer : Answer) :
    h.stage ≠ .answered answer := by
  rw [hs]
  intro hne
  cases hne

theorem requestStep_inserting (cfg : RequestSettings ω) (ready : Bool) (w : String)
    (hhandler : s.handlers[i]? = some h) (hs : h.stage = .inserting draft) :
    requestStep cfg s (.handle i ready w) = insert cfg.reconcile s i h draft w := by
  simp only [requestStep, hhandler, hs]

theorem answered?_insert_used (hhandler : s.handlers[i]? = some h)
    (hs : h.stage = .inserting draft) (hused : (s.keyed? h.key).isSome = true)
    (hkey : (orNone h.key).isSome = true) :
    answered? cfg s (.handle i ready w) = none := by
  obtain ⟨old, hkeyed⟩ := Option.isSome_iff_exists.1 hused
  have hafter : (requestStep cfg s (.handle i ready w)).handlers =
      s.handlers.set i { h with stage := .rereading draft } := by
    simp [requestStep_inserting cfg ready w hhandler hs, insert, hkeyed, hkey, Requests.setStage]
  rw [answered?_of_stage hhandler (not_answered_of_inserting hs) hafter]

/-- The error of a used key that is the empty text is raised again. -/
theorem right_insert_raised_iff {old : Stored ω} (hhandler : s.handlers[i]? = some h)
    (hs : h.stage = .inserting draft) (hkeyed : s.keyed? h.key = some old)
    (hkey : orNone h.key = none) :
    (∀ h' answer row, answered? cfg s (.handle i ready w) = some (h', answer) →
        (requestStep cfg s (.handle i ready w)).keyed? h'.key = some row →
        Right row h'.ask answer) ↔
      h.ask.asksFor old = false := by
  have hafter : requestStep cfg s (.handle i ready w) = s.setStage i h (.answered .raised) := by
    simp [requestStep_inserting cfg ready w hhandler hs, insert, hkeyed, hkey]
  have hhandlers : (requestStep cfg s (.handle i ready w)).handlers =
      s.handlers.set i { h with stage := .answered .raised } := by
    rw [hafter]
    rfl
  have hsame : ∀ key, (requestStep cfg s (.handle i ready w)).keyed? key = s.keyed? key := by
    intro key
    rw [hafter]
    rfl
  rw [answered?_of_stage hhandler (not_answered_of_inserting hs) hhandlers]
  simp only [hsame, Option.some.injEq, Prod.mk.injEq, and_imp]
  constructor
  · intro hright
    exact (right_refusal_iff rfl).1 (hright h .raised old rfl rfl hkeyed)
  · rintro hfalse h' answer row rfl rfl hrow
    rw [hkeyed] at hrow
    cases hrow
    exact (right_refusal_iff rfl).2 hfalse

/-- Under a key that is not used the answer is the row that is inserted. -/
theorem right_insert_new (hkept : WellKept s) (hhandler : s.handlers[i]? = some h)
    (hs : h.stage = .inserting draft) (hkeyed : s.keyed? h.key = none) {h' : Handler ω}
    {answer : Answer} {row : Stored ω}
    (hanswered : answered? cfg s (.handle i ready w) = some (h', answer))
    (hrow : (requestStep cfg s (.handle i ready w)).keyed? h'.key = some row) :
    Right row h'.ask answer := by
  have horigin : Origin s h.ask draft.kind draft.body draft.retryOf := by
    have hstage := hkept.stages h (List.mem_of_getElem? hhandler)
    simpa only [StageOf, hs] using hstage
  have hstep := requestStep_inserting cfg ready w hhandler hs
  cases hfree : s.base.workflows w with
  | some e =>
      have hafter : requestStep cfg s (.handle i ready w) = s := by
        simp [hstep, insert, hkeyed, hfree]
      simp only [answered?, hafter, hhandler, hs] at hanswered
      cases hanswered
  | none =>
      have hafter : (requestStep cfg s (.handle i ready w)).handlers =
          s.handlers.set i { h with stage := .answered (.returned w false) } := by
        simp [hstep, insert, hkeyed, hfree, Requests.setStage]
      rw [answered?_of_stage hhandler (not_answered_of_inserting hs) hafter] at hanswered
      cases hanswered
      have hins : insertion? s (.handle i ready w) = some (h, draft, w) := by
        simp [insertion?, hhandler, hs, hkeyed, hfree]
      obtain ⟨_, hstored⟩ := requestStep_of_insertion cfg hins
      have hnew : row = newRow h draft w := by
        obtain ⟨hmem, hrowKey, hsome⟩ := keyed?_eq_some hrow
        rw [hstored] at hmem
        rcases List.mem_cons.1 hmem with hnew | hold
        · exact hnew
        · obtain ⟨k, hk⟩ := Option.ne_none_iff_exists'.1 hsome
          have hused := keyed?_isSome_iff.2 ⟨k, hk, row, hold, hrowKey.trans hk⟩
          rw [hkeyed] at hused
          cases hused
      subst hnew
      rw [right_returned_iff]
      exact ⟨(asksFor_iff horigin).2 rfl, rfl⟩

end Inserting

/-- A step of a handler that inserts answers with its row, or not at all when the key is used. -/
theorem right_insert_iff (cfg : RequestSettings ω) {s : Requests ω} {i : Nat} {ready : Bool}
    {w : String} {h : Handler ω} {draft : Draft ω} (hkept : WellKept s)
    (hhandler : s.handlers[i]? = some h) (hs : h.stage = .inserting draft) :
    (∀ h' answer row, answered? cfg s (.handle i ready w) = some (h', answer) →
        (requestStep cfg s (.handle i ready w)).keyed? h'.key = some row →
        Right row h'.ask answer) ↔
      (∀ row, s.keyed? h.key = some row → orNone h.key = none → h.ask.asksFor row = false) := by
  cases hkeyed : s.keyed? h.key with
  | none =>
      refine iff_of_true ?_ (by simp)
      intro h' answer row hanswered hrow
      exact right_insert_new hkept hhandler hs hkeyed hanswered hrow
  | some old =>
      cases hkey : orNone h.key with
      | some key =>
          rw [answered?_insert_used hhandler hs (by rw [hkeyed]; rfl) (by rw [hkey]; rfl)]
          refine iff_of_true (by simp) ?_
          intro row _ hnone
          cases hnone
      | none =>
          rw [right_insert_raised_iff hhandler hs hkeyed hkey]
          simp

theorem not_refuses_of_insertion (cfg : RequestSettings ω) {s : Requests ω} {i : Nat}
    {ready : Bool} {w v : String} {h h' : Handler ω} {draft : Draft ω} {answer : Answer}
    (hins : insertion? s (.handle i ready w) = some (h, draft, v))
    (hanswered : answered? cfg s (.handle i ready w) = some (h', answer)) :
    answer.refuses = false := by
  obtain ⟨i', ready', hev, hhandler, hs, hkeyed, hfree⟩ := insertion?_eq_some hins
  cases hev
  have hopen : ∀ answer, h.stage ≠ .answered answer := by
    intro answer
    rw [hs]
    intro hne
    cases hne
  have hafter : (requestStep cfg s (.handle i ready w)).handlers =
      s.handlers.set i { h with stage := .answered (.returned w false) } := by
    simp [requestStep, hhandler, hs, insert, hkeyed, hfree, Requests.setStage]
  rw [answered?_of_stage hhandler hopen hafter] at hanswered
  cases hanswered
  rfl

/-- A step answers a request as its key calls for exactly when the key decides. -/
theorem answersRight_requestStep_iff (cfg : RequestSettings ω) {s : Requests ω}
    {ev : RequestEvent ω} (hkept : WellKept s) :
    AnswersRight cfg s ev ↔ KeyFirst s ev := by
  have hright : AnswersRight cfg s ev ↔ ∀ h answer row, answered? cfg s ev = some (h, answer) →
      (requestStep cfg s ev).keyed? h.key = some row → Right row h.ask answer := by
    refine ⟨AnswersRight.right, fun hright => ⟨?_, hright, ?_⟩⟩
    · exact (wellKept_requestStep cfg hkept ev).keys
    · intro h answer hanswered hrefuses
      cases ev with
      | arrive ask key => cases hanswered
      | act v action => cases hanswered
      | remediation op => cases hanswered
      | handle i ready w =>
          cases hins : insertion? s (.handle i ready w) with
          | none =>
              obtain ⟨hstored, hbase⟩ := requestStep_handle_of_no_insertion cfg hins
              exact ⟨hbase, hstored⟩
          | some inserted =>
              obtain ⟨h₀, draft, v⟩ := inserted
              rw [not_refuses_of_insertion cfg hins hanswered] at hrefuses
              cases hrefuses
  rw [hright]
  cases ev with
  | arrive ask key => exact iff_of_true (fun _ _ _ h => by cases h) (fun _ _ _ _ _ h => by cases h)
  | act v action => exact iff_of_true (fun _ _ _ h => by cases h) (fun _ _ _ _ _ h => by cases h)
  | remediation op =>
      exact iff_of_true (fun _ _ _ h => by cases h) (fun _ _ _ _ _ h => by cases h)
  | handle i ready w =>
      cases hhandler : s.handlers[i]? with
      | none =>
          refine iff_of_true ?_ ?_
          · intro h answer row hanswered
            simp [answered?, hhandler] at hanswered
          · rintro i' ready' w' h row hev hsome
            cases hev
            rw [hhandler] at hsome
            cases hsome
      | some h =>
          have hkeyFirst : KeyFirst s (.handle i ready w) ↔
              ∀ row, s.keyed? h.key = some row → KeyDecides ready s h row := by
            constructor
            · intro hfirst row hrow
              exact hfirst i ready w h row rfl hhandler hrow
            · rintro hdecides i' ready' w' h' row hev hsome hrow
              cases hev
              rw [hhandler] at hsome
              cases hsome
              exact hdecides row hrow
          rw [hkeyFirst]
          by_cases hreads : ∀ draft, h.stage ≠ .inserting draft
          · have hins : insertion? s (.handle i ready w) = none := by
              simp only [insertion?, hhandler]
            obtain ⟨hstored, _⟩ := requestStep_handle_of_no_insertion cfg hins
            have hsame : ∀ key, (requestStep cfg s (.handle i ready w)).keyed? key =
                s.keyed? key := by
              intro key
              unfold Requests.keyed? Requests.byKey?
              rw [hstored]
            have hstage := hkept.stages h (List.mem_of_getElem? hhandler)
            simp only [answered?_of_reading hhandler hreads, hsame]
            constructor
            · intro hright row hrow
              rw [← right_nextStage_iff hkept hstage hrow hreads]
              exact fun answer hanswer => hright h answer row ⟨rfl, hanswer⟩ hrow
            · rintro hdecides h' answer row ⟨rfl, hanswer⟩ hrow
              exact (right_nextStage_iff hkept hstage hrow hreads).2 (hdecides row hrow)
                answer hanswer
          · push Not at hreads
            obtain ⟨draft, hs⟩ := hreads
            rw [right_insert_iff cfg hkept hhandler hs]
            simp only [KeyDecides, hs]

/--
In a run of requests, threads and remediation operations the keys stay unique and every
request is answered by the row of its key exactly when no step answers before the key
decides.
-/
theorem answers_right_iff (cfg : RequestSettings ω) (db : Database)
    (es : List (RequestEvent ω)) :
    Along (requestStep cfg) (AnswersRight cfg) (noRequests db) es ↔
      Along (requestStep cfg) KeyFirst (noRequests db) es := by
  apply along_congr
  · intro s ev (hkept : WellKept s) _
    exact wellKept_requestStep cfg hkept ev
  · intro s ev hkept
    exact answersRight_requestStep_iff cfg hkept
  · exact wellKept_noRequests db

/-! ## A key that is not looked at -/

/--
A scan uses a key, a verification of a campaign without a key is linked to it, and
another verification reuses the key of the scan.
-/
def reusedKey : List (RequestEvent Unit) :=
  oneCampaign ++
    [.arrive (.scan "t1" ()) (some "k"), .handle 0 true "", .handle 0 true "",
      .handle 0 true "", .handle 0 true "w1",
      .arrive (.verification "c1" ()) none, .handle 1 true "", .handle 1 true "",
      .handle 1 true "", .handle 1 true "w2", .act "w2" .link,
      .arrive (.verification "c1" ()) (some "k"), .handle 2 true ""]

/-- The verification that reuses the key of a scan gets the active verification. -/
theorem reused_key_not_refused :
    ¬ ∀ (cfg : RequestSettings Unit) (db : Database) (es : List (RequestEvent Unit)),
      Along (requestStep cfg) (AnswersRight cfg) (noRequests db) es := by
  intro h
  have halong := h plainRequestSettings (emptyDatabase defaultPolicy)
    (reusedKey ++ [.handle 2 true ""])
  rw [along_append] at halong
  obtain ⟨_, hlast, _⟩ := halong
  have hanswer : (answered? plainRequestSettings (run (requestStep plainRequestSettings)
      (noRequests (emptyDatabase defaultPolicy)) reusedKey) (.handle 2 true "")).map
        (fun p => (p.1.ask, p.1.key, p.2)) =
      some (.verification "c1" (), some "k", .returned "w2" true) := by
    decide +kernel
  have hrow : (requestStep plainRequestSettings (run (requestStep plainRequestSettings)
      (noRequests (emptyDatabase defaultPolicy)) reusedKey) (.handle 2 true "")).keyed?
        (some "k") = some
      { workflowId := "w1"
        kind := .scan
        body := { taskId := some "t1", options := () }
        idempotencyKey := some "k" } := by
    decide +kernel
  obtain ⟨⟨handler, answer⟩, hanswered, hparts⟩ := Option.map_eq_some_iff.1 hanswer
  simp only [Prod.mk.injEq] at hparts
  obtain ⟨hask, hkey, hreturned⟩ := hparts
  have hright := hlast.right handler answer _ hanswered (by rw [hkey]; exact hrow)
  rw [hask, hreturned, right_returned_iff] at hright
  exact absurd hright.2 (by decide)

end Workflow
end MpvmApp
