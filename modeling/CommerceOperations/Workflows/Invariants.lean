/-
  What the workflow engine keeps.

  The engine itself writes runs, audit entries and events.  An invariant `I` of the other tables
  that every registered step keeps is therefore kept by the engine, whatever becomes of an
  attempt: a step that raises is undone.

  The same comes in three forms, one for each way the services are reasoned about:

  1. an invariant among other sessions (`…_ensures`), for the books of the warehouse;
  2. the effect of a call on its own (`…_effect`), with the one step it may have run;
  3. a relation between the states before and after (`…_keeps`), for what no call changes.
-/
import CommerceOperations.Workflows.Engine

namespace CommerceOperations

open Relational Prog

namespace WorkflowEngine

section Keeps

variable {I : Db → Prop} (hI : ∀ D D', (∀ i, i ∉ tables → D'.table i = D.table i) → I D → I D')
variable {bad : Error → Prop} (hbad : ∀ e, bad e → e.isOrderValidation)
variable {held : List DbLock} {seen view : Db}

include hI hbad

/-- What the engine writes by itself leaves `I` alone, since `I` is about other tables. -/
theorem ensures_of_tables {α : Type} {p : Tx α} (hp : p.confined tables)
    {Q : α → Point Db DbLock → Prop} (hview : I view)
    (hQ : ∀ a held seen view, I view → Q a ⟨held, seen, view⟩) :
    p.ensures bad ⟨held, seen, view⟩ Q := by
  have hp' := writes_mono hp (fun w (hw : w.table ∈ tables) => hw) hbad
  refine ensures_mono (ensures_of_confined hp' _) fun a pt' hpt' => ?_
  exact hQ a _ _ _ (hI _ _ hpt' hview)

/-- One attempt: the step keeps `I` when it returns, and is undone when it raises. -/
theorem execute_ensures {definition : WorkflowDefinition}
    (hstep : ∀ event run (held : List DbLock) seen view, I view →
      (definition.step event run).ensures (fun _ => False) ⟨held, seen, view⟩
        fun _ pt' => I pt'.view)
    (hview : I view) (workflow : WorkflowRun) (event : EventEnvelope) (now : Instant) :
    (execute workflow definition event now).ensures bad ⟨held, seen, view⟩
      fun _ pt' => I pt'.view := by
  unfold execute
  split
  · exact ensures_of_tables hI hbad terminalFailure_confined hview fun _ _ _ _ h => h
  · refine ensures_bind.mpr (ensures_of_tables hI hbad flush_confined hview ?_)
    intro run held seen view hview
    refine ensures_bind.mpr (ensures_of_tables hI hbad audit_confined hview ?_)
    intro _ held seen view hview
    -- whatever the step has returned, the run is read again and finished
    have hrest : ∀ {finish : WorkflowRun → Tx WorkflowRun},
        (∀ run, (finish run).confined tables) →
        ∀ held seen view, I view →
          (do
            let found ← Tx.select fun D => D.workflowRuns.get run.id
            let run ← Tx.orThrow found .lookupError run.id.text
            finish run
            : Tx WorkflowRun).ensures bad ⟨held, seen, view⟩ fun _ pt' => I pt'.view := by
      intro finish hfinish held seen view hview
      refine ensures_of_tables hI hbad ?_ hview fun _ _ _ _ h => h
      refine writes_bind (writes_query _) fun found => ?_
      exact writes_bind (Tx.confined_orThrow (by decide)) fun run => hfinish run
    refine ensures_bind.mpr (ensures_savepoint ?_ ?_)
    · refine ensures_mono (hstep event run held seen view hview) ?_
      intro outcome pt' hpt' held seen _
      exact hrest (fun _ => stepReturned_confined) _ _ _ hpt'
    · intro e held seen _
      exact hrest (fun _ => stepFailed_confined) _ _ _ hview

variable {engine : WorkflowEngine}
variable (hsteps : ∀ name definition, engine.definitions name = some definition →
  ∀ event run (held : List DbLock) seen view, I view →
    (definition.step event run).ensures (fun _ => False) ⟨held, seen, view⟩
      fun _ pt' => I pt'.view)

omit hI in
/-- A workflow that is not registered raises; one that is goes on with its definition. -/
theorem definition_ensures {name : String}
    {Q : WorkflowDefinition → Point Db DbLock → Prop}
    (hQ : ∀ definition, engine.definitions name = some definition →
      Q definition ⟨held, seen, view⟩) :
    (engine.definition name).ensures bad ⟨held, seen, view⟩ Q := by
  unfold WorkflowEngine.definition Tx.orThrow
  cases hd : engine.definitions name with
  | none => exact fun _ he => Tx.not_isOrderValidation (by decide) (hbad _ he)
  | some definition => exact hQ definition hd

include hsteps

/-- **A delivery keeps `I`**, because the attempt it may make does, and its other writes are the
    engine's own. -/
theorem handleEvent_ensures [Digests] (hview : I view) (name : String) (event : EventEnvelope)
    (now : Instant) :
    (engine.handleEvent name event now).ensures bad ⟨held, seen, view⟩
      fun _ pt' => I pt'.view := by
  refine ensures_bind.mpr (definition_ensures hbad fun definition hd => ?_)
  refine ensures_bind.mpr
    (ensures_of_tables hI hbad (writes_selectForUpdate _ _) hview ?_)
  intro found held seen view hview
  extract_lets proceed
  have hproceed : ∀ workflow held seen view, I view →
      (proceed workflow).ensures bad ⟨held, seen, view⟩ fun _ pt' => I pt'.view := by
    intro workflow held seen view hview
    simp only [proceed]
    split
    · exact hview
    · exact execute_ensures hI hbad (hsteps name definition hd) hview workflow event now
  cases found with
  | some workflow => exact hproceed _ _ _ _ hview
  | none =>
    refine ensures_bind.mpr (ensures_of_tables hI hbad create_confined hview ?_)
    exact fun workflow held seen view hview => hproceed _ _ _ _ hview

/-- **A resumption keeps `I`.**  It may end before an attempt, and then it has only written tables
    of the engine. -/
theorem resume_ensures (hview : I view) (workflowId : Uuid) (now : Instant) :
    (engine.resume workflowId now).ensures bad ⟨held, seen, view⟩ fun _ pt' => I pt'.view := by
  refine ensures_bind.mpr
    (ensures_of_tables hI hbad (writes_selectForUpdate _ _) hview ?_)
  intro found held seen view hview
  refine ensures_bind.mpr
    (ensures_of_tables hI hbad (Tx.confined_orThrow (by decide)) hview ?_)
  intro workflow held seen view hview
  refine ensures_bind.mpr (definition_ensures hbad fun definition hd => ?_)
  split
  · exact ensures_of_tables hI hbad terminalFailure_confined hview fun _ _ _ _ h => h
  · refine ensures_bind.mpr (ensures_of_tables hI hbad
      (Tx.confined_mono clearApproval_confined (by decide)) hview ?_)
    intro workflow held seen view hview
    split
    · exact hview
    · refine ensures_bind.mpr
        (ensures_of_tables hI hbad (writes_query _) hview ?_)
      intro eventRecord held seen view hview
      cases eventRecord with
      | none => exact ensures_of_tables hI hbad terminalFailure_confined hview fun _ _ _ _ h => h
      | some record =>
        exact execute_ensures hI hbad (hsteps _ definition hd) hview workflow _ now

/-- **Some resumptions keep `I`**, by induction on the runs. -/
theorem resumeAll_ensures (now : Instant) (workflows : List WorkflowRun) {held : List DbLock}
    {seen view : Db} (hview : I view) :
    (engine.resumeAll now workflows).ensures bad ⟨held, seen, view⟩ fun _ pt' => I pt'.view := by
  induction workflows generalizing held seen view with
  | nil => exact hview
  | cons workflow rest ih =>
    refine ensures_bind.mpr
      (ensures_mono (resume_ensures hI hbad hsteps hview workflow.id now) ?_)
    intro run pt' hpt'
    refine ensures_bind.mpr (ensures_mono (ih hpt') ?_)
    exact fun runs pt'' hpt'' => hpt''

/-- **A retry pass keeps `I`**: the runs are selected first, and then resumed one after the other.
    -/
theorem retryDue_ensures (hview : I view) (now : Instant) (limit : Nat) :
    (engine.retryDue now limit).ensures bad ⟨held, seen, view⟩ fun _ pt' => I pt'.view := by
  refine ensures_bind.mpr fun V _ _ => ?_
  exact resumeAll_ensures hI hbad hsteps now _ hview

end Keeps

/-! ## One attempt on its own -/

/-- What is not a table of the engine is the same. -/
abbrev SameElsewhere (D D' : Db) : Prop := Database.SameOff (· ∈ tables) D D'

/-- What stays within the engine's tables leaves all others the same. -/
theorem SameElsewhere.of_runs {α : Type} {p : Tx α} {a : α} {D D' : Db} (hp : p.confined tables)
    (hrun : p.runs D (.ok (a, D'))) : SameElsewhere D D' := sameOff_of_runs hp hrun

/-- What an attempt at `step` may have done when it commits: nothing outside the engine's own
    tables, or what the step did; if the step asked for no approval, the run has then succeeded. -/
def Effect (step : WorkflowStep) (event : EventEnvelope) (D D' : Db) (run : WorkflowRun) : Prop :=
  SameElsewhere D D' ∨
    ∃ run₁ D₁ outcome D₂, SameElsewhere D D₁ ∧
      (step event run₁).runs D₁ (.ok (outcome, D₂)) ∧ SameElsewhere D₂ D' ∧
      ((outcome.getD (.completed "completed" (.object []))).approvalId = none →
        run.status = .succeeded)

/-- Own writes may come before an attempt. -/
theorem Effect.after {step : WorkflowStep} {event : EventEnvelope} {D₀ D D' : Db}
    {run : WorkflowRun} (h : Effect step event D D' run) (hD : SameElsewhere D₀ D) :
    Effect step event D₀ D' run := by
  rcases h with h | ⟨run₁, D₁, outcome, D₂, h₁, hstep, h₂, hstatus⟩
  · exact Or.inl (hD.trans h)
  · exact Or.inr ⟨run₁, D₁, outcome, D₂, hD.trans h₁, hstep, h₂, hstatus⟩

/-- **One attempt** has run the step once at most, and if it returned without asking for an approval
    the run has succeeded. -/
theorem execute_effect {workflow run : WorkflowRun} {definition : WorkflowDefinition}
    {event : EventEnvelope} {now : Instant} {D D' : Db}
    (h : (execute workflow definition event now).runs D (.ok (run, D'))) :
    Effect definition.step event D D' run := by
  unfold execute at h
  split at h
  · exact Or.inl (SameElsewhere.of_runs terminalFailure_confined h)
  · obtain ⟨run₁, D₁, hflush, h₁⟩ := runs_bind_ok.mp h
    obtain ⟨_, D₂, haudit, h₂⟩ := runs_bind_ok.mp h₁
    obtain ⟨outcome, D₃, hstep, h₃⟩ := runs_bind_ok.mp h₂
    obtain ⟨found, D₄, hquery, h₄⟩ := runs_bind_ok.mp h₃
    obtain ⟨run₂, D₅, hfound, h₅⟩ := runs_bind_ok.mp h₄
    have hbefore := (SameElsewhere.of_runs flush_confined hflush).trans
      (SameElsewhere.of_runs audit_confined haudit)
    have hread := (SameElsewhere.of_runs (writes_query _) hquery).trans
      (SameElsewhere.of_runs (Tx.confined_orThrow (by decide)) hfound)
    rcases runs_savepoint.mp hstep with ⟨outcome', D', hstep, heq⟩ | ⟨e, hstep, heq⟩
    · -- the step returned
      simp only [Except.ok.injEq, Prod.mk.injEq] at heq
      obtain ⟨rfl, rfl⟩ := heq
      refine Or.inr ⟨run₁, D₂, outcome', _, hbefore, hstep,
        hread.trans (SameElsewhere.of_runs stepReturned_confined h₅), fun hnone => ?_⟩
      obtain ⟨run₃, D₆, hwrite, h₆⟩ := runs_bind_ok.mp h₅
      have hfinished : ∀ outcome : WorkflowOutcome, outcome.approvalId = none →
          (flush .workflowRuns run₂ (finished run₂ outcome now)).post D₅
            (fun run _ => run.status = .succeeded) fun _ => True := by
        intro outcome hnone
        have hstatus : (finished run₂ outcome now).status = .succeeded := by
          simp [finished, hnone]
        refine post_flush (fun heq => ?_) (fun _ r _ _ _ => hstatus) fun _ => trivial
        rw [← heq]
        exact hstatus
      have hstatus := of_post (hfinished _ hnone) hwrite
      rw [hnone] at h₆
      obtain ⟨_, D₇, _, h₇⟩ := runs_bind_ok.mp h₆
      cases h₇
      exact hstatus
    · simp only [Except.ok.injEq, Prod.mk.injEq] at heq
      obtain ⟨rfl, rfl⟩ := heq
      exact Or.inl ((hbefore.trans hread).trans (SameElsewhere.of_runs stepFailed_confined h₅))

/-- **A delivery** that commits has made one attempt at most, at the step of a registered workflow.
    -/
theorem handleEvent_effect [Digests] {engine : WorkflowEngine} {name : String}
    {event : EventEnvelope} {now : Instant} {run : WorkflowRun} {D D' : Db}
    (h : (engine.handleEvent name event now).runs D (.ok (run, D'))) :
    SameElsewhere D D' ∨
      ∃ definition, engine.definitions name = some definition ∧
        Effect definition.step event D D' run := by
  obtain ⟨definition, D₁, hdefinition, h₁⟩ := runs_bind_ok.mp h
  obtain ⟨hd, rfl⟩ := Tx.runs_orThrow.mp hdefinition
  obtain ⟨found, D₂, hselect, h₂⟩ := runs_bind_ok.mp h₁
  have hread := SameElsewhere.of_runs (writes_selectForUpdate _ _) hselect
  have hproceed : ∀ {workflow : WorkflowRun} {D₃}, SameElsewhere D D₃ →
      (if workflow.status.isTerminal = true then pure workflow
        else execute workflow definition event now : Tx WorkflowRun).runs D₃ (.ok (run, D')) →
      SameElsewhere D D' ∨
        ∃ definition, engine.definitions name = some definition ∧
          Effect definition.step event D D' run := by
    intro workflow D₃ hD₃ hrun
    split at hrun
    · cases hrun
      exact Or.inl hD₃
    · exact Or.inr ⟨definition, hd, (execute_effect hrun).after hD₃⟩
  cases found with
  | some workflow => exact hproceed hread h₂
  | none =>
    obtain ⟨workflow, D₃, hcreate, h₃⟩ := runs_bind_ok.mp h₂
    exact hproceed (hread.trans (SameElsewhere.of_runs create_confined hcreate)) h₃

/-- **A resumption** that commits has made one attempt at most, with the event the run was created
    for. -/
theorem resume_effect {engine : WorkflowEngine} {workflowId : Uuid} {now : Instant}
    {run : WorkflowRun} {D D' : Db}
    (h : (engine.resume workflowId now).runs D (.ok (run, D'))) :
    SameElsewhere D D' ∨
      ∃ workflow sourceEventId record definition,
        D.workflowRuns.get workflowId = some workflow ∧
        workflow.sourceEventId = some sourceEventId ∧
        D.domainEvents.get sourceEventId = some record ∧
        engine.definitions (removePrefix workflow.workflowName) = some definition ∧
        Effect definition.step (DatabaseEventStore.toEnvelope record) D D' run := by
  obtain ⟨found, D₁, hselect, h₁⟩ := runs_bind_ok.mp h
  obtain ⟨rfl, rfl⟩ := runs_selectForUpdate.mp hselect
  obtain ⟨workflow, D₂, hfound, h₂⟩ := runs_bind_ok.mp h₁
  obtain ⟨hw, rfl⟩ := Tx.runs_orThrow.mp hfound
  obtain ⟨definition, D₃, hdefinition, h₃⟩ := runs_bind_ok.mp h₂
  obtain ⟨hd, rfl⟩ := Tx.runs_orThrow.mp hdefinition
  cases hsource : workflow.sourceEventId with
  | none =>
    rw [hsource] at h₃
    exact Or.inl (SameElsewhere.of_runs terminalFailure_confined h₃)
  | some sourceEventId =>
    rw [hsource] at h₃
    obtain ⟨workflow', D₄, hclear, h₄⟩ := runs_bind_ok.mp h₃
    have hD₄ := SameElsewhere.of_runs (Tx.confined_mono clearApproval_confined (by decide)) hclear
    have hevents : D₄.table .domainEvents = D.table .domainEvents :=
      sameOff_of_runs clearApproval_confined hclear _ (by decide)
    split at h₄
    · cases h₄
      exact Or.inl hD₄
    · obtain ⟨eventRecord, D₅, hquery, h₅⟩ := runs_bind_ok.mp h₄
      obtain ⟨rfl, rfl⟩ := Tx.runs_select.mp hquery
      cases hrecord : (D.table .domainEvents).get sourceEventId with
      | none =>
        have hnone : Db.domainEvents D₄ = D.table .domainEvents := hevents
        rw [hnone, hrecord] at h₅
        exact Or.inl (hD₄.trans (SameElsewhere.of_runs terminalFailure_confined h₅))
      | some record =>
        have hsome : Db.domainEvents D₄ = D.table .domainEvents := hevents
        rw [hsome, hrecord] at h₅
        exact Or.inr ⟨workflow, sourceEventId, record, definition, hw, hsource, hrecord, hd,
          (execute_effect h₅).after hD₄⟩

/-! ## Relations the steps keep -/

section Related

variable {Rel : Db → Db → Prop} [Std.Refl Rel] [IsTrans Db Rel]
variable (helsewhere : ∀ D D', SameElsewhere D D' → Rel D D')

include helsewhere

omit [Std.Refl Rel] in
/-- An attempt keeps what the step keeps and the engine's own writes keep. -/
theorem Effect.related {step : WorkflowStep} (hstep : ∀ event run, (step event run).keeps Rel)
    {event : EventEnvelope} {D D' : Db} {run : WorkflowRun} (h : Effect step event D D' run) :
    Rel D D' := by
  rcases h with hD | ⟨run₁, D₁, outcome, D₂, h₁, hrun, h₂, -⟩
  · exact helsewhere D D' hD
  · have hdone := hstep event run₁ D₁ outcome D₂ hrun
    exact IsTrans.trans _ _ _ (helsewhere D D₁ h₁)
      (IsTrans.trans _ _ _ hdone (helsewhere D₂ D' h₂))

variable {engine : WorkflowEngine}
variable (hsteps : ∀ name definition, engine.definitions name = some definition →
  ∀ event run, (definition.step event run).keeps Rel)

include hsteps

omit [Std.Refl Rel] in
/-- A delivery keeps what the steps keep and the engine's own writes keep. -/
theorem handleEvent_keeps [Digests] (name : String) (event : EventEnvelope) (now : Instant) :
    (engine.handleEvent name event now).keeps Rel := by
  intro D run D' h
  rcases handleEvent_effect h with hD | ⟨definition, hd, hD⟩
  · exact helsewhere D D' hD
  · exact hD.related helsewhere (hsteps name definition hd)

omit [Std.Refl Rel] in
/-- A resumption keeps it. -/
theorem resume_keeps (workflowId : Uuid) (now : Instant) :
    (engine.resume workflowId now).keeps Rel := by
  intro D run D' h
  rcases resume_effect h with hD | ⟨_, _, record, definition, -, -, -, hd, hD⟩
  · exact helsewhere D D' hD
  · exact hD.related helsewhere (hsteps _ definition hd)

/-- Some resumptions keep it, by induction on the runs. -/
theorem resumeAll_keeps (now : Instant) :
    ∀ workflows, (engine.resumeAll now workflows).keeps Rel
  | [] => keeps_done []
  | workflow :: rest => by
    refine keeps_bind (resume_keeps helsewhere hsteps workflow.id now) fun run => ?_
    exact keeps_bind (resumeAll_keeps now rest) fun runs => keeps_done _

/-- A retry pass keeps it. -/
theorem retryDue_keeps (now : Instant) (limit : Nat) : (engine.retryDue now limit).keeps Rel := by
  refine keeps_bind ?_ fun workflows => resumeAll_keeps helsewhere hsteps now workflows
  intro D a D' h
  obtain ⟨-, rfl⟩ := runs_selectAllForUpdate.mp h
  exact Std.Refl.refl D

end Related

end WorkflowEngine

end CommerceOperations
