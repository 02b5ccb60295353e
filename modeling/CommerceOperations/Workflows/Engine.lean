/-
  The workflow engine: runs of event-driven workflows with retries, deadlines and approvals.

  A `WorkflowStep` is any transaction body; it runs in a nested transaction, so that a failed
  attempt leaves nothing behind.  What the engine does around it is written out statement by
  statement as in the source: the run is marked as started, the step runs under a savepoint, the
  run is loaded again, and then the outcome or the error is recorded in it.

  Three entry points lead to `execute`:

  1. `handleEvent` finds the run of an event by its key, or creates it, and stops if it is over;
  2. `resume` takes a run by its id, and does not ask whether it is over;
  3. `retryDue` selects runs that wait for a retry, and resumes them one after the other.

  The last part says which tables the engine itself writes.
-/
import CommerceOperations.Approvals.Engine
import Mathlib.Data.List.Sort

namespace CommerceOperations

open Relational

/-- `WorkflowOutcome`: what a step says of itself when it returns. -/
structure WorkflowOutcome where
  currentStep : String
  checkpoints : Json
  approvalId : Option Uuid

namespace WorkflowOutcome

/-- `WorkflowOutcome.completed`. -/
def completed (currentStep : String) (checkpoints : Json) : WorkflowOutcome :=
  ⟨currentStep, checkpoints, none⟩

end WorkflowOutcome

/-- `WorkflowExecutionPolicy`: how often a run is tried, and for how long. -/
structure WorkflowExecutionPolicy where
  maxAttempts : Int
  timeoutSeconds : Int
  retryDelaySeconds : Int

/-- `WorkflowStep`: the outcome, or nothing for a plain completion. -/
abbrev WorkflowStep : Type := EventEnvelope → WorkflowRun → Tx (Option WorkflowOutcome)

/-- `WorkflowDefinition`: a named step with its policy. -/
structure WorkflowDefinition where
  name : String
  version : Int
  step : WorkflowStep
  policy : WorkflowExecutionPolicy

/-- `WorkflowEngine`: the registered definitions. -/
structure WorkflowEngine where
  definitions : String → Option WorkflowDefinition

namespace WorkflowEngine

/-- An engine without definitions. -/
def empty : WorkflowEngine := ⟨fun _ => none⟩

/-- `register`: a name is taken once, and the policy must allow an attempt. -/
def register (engine : WorkflowEngine) (definition : WorkflowDefinition) :
    Except Error WorkflowEngine :=
  if (engine.definitions definition.name).isSome then
    .error (.raised .valueError
      s!"Workflow definition already registered: {definition.name}")
  else if definition.policy.maxAttempts < 1 ∨ definition.policy.timeoutSeconds < 1 then
    .error (.raised .valueError "Workflow retry and timeout policy must be positive")
  else
    .ok
      { definitions := fun name =>
          if name = definition.name then some definition else engine.definitions name }

/-- Register some definitions, one after the other. -/
def registerAll (definitions : List WorkflowDefinition) : Except Error WorkflowEngine :=
  definitions.foldlM register empty

end WorkflowEngine

/-- The run will not be executed again. -/
def RunStatus.isTerminal : RunStatus → Bool
  | succeeded | failed | cancelled => true
  | _ => false

namespace WorkflowEngine

/-- `WorkflowEngine.prefix`, which the names of the engine's runs begin with. -/
def namePrefix : String := "orchestrator:"

/-- `workflow_name.startswith(prefix)`. -/
def isOrchestrated (workflowName : String) : Bool :=
  namePrefix.toList.isPrefixOf workflowName.toList

/-- `workflow_name.removeprefix(prefix)`. -/
def removePrefix (workflowName : String) : String :=
  if isOrchestrated workflowName then
    String.ofList (workflowName.toList.drop namePrefix.toList.length)
  else workflowName

/-- `_definition`: the definition of that name, which must be registered. -/
def definition (engine : WorkflowEngine) (name : String) : Tx WorkflowDefinition :=
  Tx.orThrow (engine.definitions name) .lookupError
    s!"Workflow definition is not registered: {name}"

/-- `_audit`: the entry of a change of status. -/
def audit (workflow : WorkflowRun) (before : Option RunStatus) (after : RunStatus)
    (reason : String) : Tx Unit :=
  addAudit "system" "workflow-engine" "workflow.state_changed" "workflow_run" workflow.id
    (before.map fun s => .object [("status", .text s.value)])
    (some (.object
      [("status", .text after.value), ("step", (workflow.currentStep.map Json.text).getD .null),
        ("attempts", .int workflow.attempts)]))
    (some reason) workflow.correlationId

/-- The run as `_terminal_failure` leaves it. -/
def failed (workflow : WorkflowRun) (reason : String) (retryable : Bool) (now : Instant) :
    WorkflowRun :=
  { workflow with
    status := .failed
    currentStep := some "failed"
    completedAt := some now
    error := some (.object
      [("type", .text "workflow_failure"), ("message", .text reason),
        ("retryable", .bool retryable)])
    nextRetryAt := none }

/-- `_terminal_failure`.  The event names the version before the failure is written. -/
def terminalFailure (workflow : WorkflowRun) (reason : String) (retryable : Bool) :
    Tx WorkflowRun := do
  let now ← Tx.now
  let run ← flush .workflowRuns workflow (failed workflow reason retryable now)
  audit run (some workflow.status) .failed reason
  let _ ← DatabaseEventStore.emit
    (.workflowFailed workflow.id workflow.workflowName reason retryable)
    { aggregateType := "workflow_run"
      aggregateId := workflow.id
      aggregateVersion := workflow.version
      correlationId := workflow.correlationId
      workflowId := some workflow.id
      causationId := none }
    s!"workflow-failed:{workflow.id}"
  pure run

/-- The run once an attempt has started. -/
def started (workflow : WorkflowRun) : WorkflowRun :=
  { workflow with
    status := .running
    currentStep := some "executing"
    attempts := workflow.attempts + 1
    nextRetryAt := none }

/-- The run after a failed attempt that will be repeated. -/
def retrying (workflow : WorkflowRun) (e : Error) (nextRetryAt : Instant) : WorkflowRun :=
  { workflow with
    status := .retrying
    currentStep := some "retry_scheduled"
    nextRetryAt := some nextRetryAt
    error := some (.object
      [("type", .text e.typeName), ("message", .text e.message), ("retryable", .bool true)]) }

/-- The run after its step returned. -/
def finished (workflow : WorkflowRun) (outcome : WorkflowOutcome) (now : Instant) :
    WorkflowRun :=
  let run :=
    { workflow with
      checkpoints := workflow.checkpoints.merge outcome.checkpoints
      currentStep := some outcome.currentStep
      error := none }
  match outcome.approvalId with
  | some approvalId => { run with status := .pending, waitingApprovalId := some approvalId }
  | none => { run with status := .succeeded, completedAt := some now }

/-- `_execute`, once the step has failed with `e`. -/
def stepFailed (workflow : WorkflowRun) (policy : WorkflowExecutionPolicy) (e : Error)
    (now : Instant) : Tx WorkflowRun :=
  match e with
  | .raised .nonRetryableWorkflowError message => terminalFailure workflow message false
  | e =>
    if workflow.maxAttempts ≤ workflow.attempts then
      terminalFailure workflow s!"{e.typeName}: {e.message}" false
    else do
      let run ← flush .workflowRuns workflow
        (retrying workflow e (now + seconds (policy.retryDelaySeconds * workflow.attempts)))
      audit run (some workflow.status) .retrying e.message
      pure run

/-- `_execute`, once the step has returned. -/
def stepReturned (workflow : WorkflowRun) (outcome : WorkflowOutcome) (now : Instant) :
    Tx WorkflowRun := do
  let run ← flush .workflowRuns workflow (finished workflow outcome now)
  match outcome.approvalId with
  | some _ => audit run (some workflow.status) .pending "Waiting for human approval"
  | none => audit run (some workflow.status) .succeeded "Workflow completed"
  pure run

/-- `deadline_at is not None and now >= deadline_at`. -/
def timedOut (workflow : WorkflowRun) (now : Instant) : Bool :=
  workflow.deadlineAt.any fun deadline => deadline ≤ now

/-- `_execute`, one attempt: the step runs under a savepoint, and the run is loaded again before the
    outcome is recorded in it. -/
def execute (workflow : WorkflowRun) (definition : WorkflowDefinition) (event : EventEnvelope)
    (now : Instant) : Tx WorkflowRun := do
  if timedOut workflow now then terminalFailure workflow "Workflow timed out" false
  else do
    let run ← flush .workflowRuns workflow (started workflow)
    audit run (some workflow.status) .running "Workflow attempt started"
    let outcome ← (definition.step event run).savepoint
    let found ← Tx.select fun D => D.workflowRuns.get run.id
    let run ← Tx.orThrow found .lookupError run.id.text
    match outcome with
    | .error e => stepFailed run definition.policy e now
    | .ok outcome =>
      stepReturned run (outcome.getD (.completed "completed" (.object []))) now

/-- `f"workflow:{definition.name}:{event.event_id}"`. -/
def runKey (name : String) (eventId : Uuid) : String := s!"workflow:{name}:{eventId}"

/-- A new run of a definition, for an event. -/
def create [Digests] (definition : WorkflowDefinition) (event : EventEnvelope) (now : Instant) :
    Tx WorkflowRun := do
  let id ← Tx.uuid4
  let createdAt ← Tx.now
  let key := runKey definition.name event.eventId
  let workflow ← add .workflowRuns
    { id
      version := 1
      createdAt
      workflowName := namePrefix ++ definition.name
      workflowVersion := definition.version
      correlationId := Digests.uuid5 key
      sourceEventId := some event.eventId
      idempotencyKey := some key
      status := .pending
      currentStep := some "queued"
      attempts := 0
      nextRetryAt := none
      error := none
      checkpoints := .object []
      maxAttempts := definition.policy.maxAttempts
      timeoutSeconds := definition.policy.timeoutSeconds
      startedAt := some now
      deadlineAt := some (now + seconds definition.policy.timeoutSeconds)
      completedAt := none
      waitingApprovalId := none
      costAmount := 0
      costCurrency := none }
  audit workflow none .pending "Workflow created"
  pure workflow

/-- `handle_event`: the run of an event is found or created, and attempted unless it is over. -/
def handleEvent [Digests] (engine : WorkflowEngine) (definitionName : String)
    (event : EventEnvelope) (now : Instant) : Tx WorkflowRun := do
  let definition ← engine.definition definitionName
  let key := runKey definition.name event.eventId
  let found ← selectForUpdate .workflowRuns fun w => w.idempotencyKey = some key
  let workflow ← match found with
    | some workflow => pure workflow
    | none => create definition event now
  if workflow.status.isTerminal then pure workflow
  else execute workflow definition event now

/-- The approval a run waits for is granted; the run no longer waits. -/
def clearApproval (workflow : WorkflowRun) : Tx WorkflowRun :=
  match workflow.waitingApprovalId with
  | none => pure workflow
  | some approvalId => do
    let approval ← Tx.select fun D => D.approvals.get approvalId
    Tx.require (approval.any fun a => a.status = .approved) .nonRetryableWorkflowError
      "Workflow approval has not been granted"
    flush .workflowRuns workflow { workflow with waitingApprovalId := none }

/-- `resume`: a run is attempted once more, with the event it was created for.  It does not ask
    whether the run is over. -/
def resume (engine : WorkflowEngine) (workflowId : Uuid) (now : Instant) : Tx WorkflowRun := do
  let found ← selectForUpdate .workflowRuns fun w => w.id = workflowId
  let workflow ← Tx.orThrow found .lookupError workflowId.text
  let definition ← engine.definition (removePrefix workflow.workflowName)
  match workflow.sourceEventId with
  | none => terminalFailure workflow "Workflow source event is missing" false
  | some sourceEventId => do
    let workflow ← clearApproval workflow
    if workflow.nextRetryAt.any fun nextRetry => now < nextRetry then pure workflow
    else do
      let eventRecord ← Tx.select fun D => D.domainEvents.get sourceEventId
      match eventRecord with
      | none => terminalFailure workflow "Workflow source event was not found" false
      | some record => execute workflow definition (DatabaseEventStore.toEnvelope record) now

/-- The runs `retry_due` selects, in its order. -/
def due (now : Instant) (limit : Nat) (workflows : List WorkflowRun) : List WorkflowRun :=
  ((workflows.filter fun w =>
      isOrchestrated w.workflowName ∧ w.status = .retrying ∧
        w.nextRetryAt.any fun nextRetry => nextRetry ≤ now).insertionSort fun w v =>
    w.nextRetryAt.getD 0 < v.nextRetryAt.getD 0 ∨
      (w.nextRetryAt.getD 0 = v.nextRetryAt.getD 0 ∧ w.createdAt ≤ v.createdAt)).take limit

/-- Resume the runs selected, one after the other. -/
def resumeAll (engine : WorkflowEngine) (now : Instant) : List WorkflowRun → Tx (List WorkflowRun)
  | [] => pure []
  | workflow :: rest => do
    let run ← engine.resume workflow.id now
    let runs ← resumeAll engine now rest
    pure (run :: runs)

/-- `retry_due`: the runs that are due are locked, and resumed one after the other. -/
def retryDue (engine : WorkflowEngine) (now : Instant) (limit : Nat) : Tx (List WorkflowRun) := do
  let workflows ← selectAllForUpdate .workflowRuns fun t => due now limit t.rows
  engine.resumeAll now workflows

/-! ## What the engine itself writes -/

/-- The tables of runs, audit entries and events, which the engine writes by itself. -/
def tables : List TableName := [.workflowRuns, .auditEvents, .domainEvents]

/-- An audit entry stays within them. -/
theorem audit_confined {workflow : WorkflowRun} {before : Option RunStatus} {after : RunStatus}
    {reason : String} : (audit workflow before after reason).confined tables :=
  Tx.confined_mono addAudit_confined (by decide)

/-- The row of a run is in one of these tables. -/
theorem flush_confined {workflow new : WorkflowRun} :
    (flush .workflowRuns workflow new).confined tables :=
  Tx.confined_flush _ _ (by decide)

/-- A terminal failure stays within them: the run, an entry and an event. -/
theorem terminalFailure_confined {workflow : WorkflowRun} {reason : String} {retryable : Bool} :
    (terminalFailure workflow reason retryable).confined tables := by
  refine Prog.writes_bind (Prog.writes_answer _) fun now => ?_
  refine Prog.writes_bind flush_confined fun run => ?_
  refine Prog.writes_bind audit_confined fun _ => ?_
  exact Prog.writes_bind (Tx.confined_mono DatabaseEventStore.emit_confined (by decide))
    fun _ => trivial

/-- What follows a failed step stays within them: a terminal failure, or a retry that is planned. -/
theorem stepFailed_confined {workflow : WorkflowRun} {policy : WorkflowExecutionPolicy} {e : Error}
    {now : Instant} : (stepFailed workflow policy e now).confined tables := by
  unfold stepFailed
  split
  · exact terminalFailure_confined
  · split
    · exact terminalFailure_confined
    · refine Prog.writes_bind flush_confined fun run => ?_
      exact Prog.writes_bind audit_confined fun _ => trivial

/-- What follows a step that returned stays within them: the run and an entry. -/
theorem stepReturned_confined {workflow : WorkflowRun} {outcome : WorkflowOutcome}
    {now : Instant} : (stepReturned workflow outcome now).confined tables := by
  refine Prog.writes_bind flush_confined fun run => ?_
  split <;> exact Prog.writes_bind audit_confined fun _ => trivial

/-- A new run and its entry stay within them. -/
theorem create_confined [Digests] {definition : WorkflowDefinition} {event : EventEnvelope}
    {now : Instant} : (create definition event now).confined tables := by
  refine Prog.writes_bind (Prog.writes_answer _) fun id => ?_
  refine Prog.writes_bind (Prog.writes_answer _) fun createdAt => ?_
  refine Prog.writes_bind (Tx.confined_add _ (by decide)) fun workflow => ?_
  exact Prog.writes_bind audit_confined fun _ => trivial

/-- Clearing the approval writes the run only. -/
theorem clearApproval_confined {workflow : WorkflowRun} :
    (clearApproval workflow).confined [.workflowRuns] := by
  unfold clearApproval
  split
  · exact trivial
  · refine Prog.writes_bind (Prog.writes_query _) fun approval => ?_
    exact Prog.writes_bind (Tx.confined_require (by decide)) fun _ =>
      Tx.confined_flush _ _ (by decide)

end WorkflowEngine

end CommerceOperations
