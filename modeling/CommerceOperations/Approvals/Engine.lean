/-
  The approval engine: requests, decisions and the resumption of the approved action.

  A request is made once for the same action: its hash is compared with those on record for the
  resource, whatever their status.  So an action that was rejected, or that expired, finds the old
  approval again instead of a new one.

  A decision moves the row from pending under a lock.  Approving then runs the handler registered
  for the action type, moves the linked workflow run, and notes the time, all in the transaction
  of the decision.

  An approval that turns out to be expired is marked so before `ApprovalExpiredError` is raised,
  and the caller commits that mark; here `approve` and `reject` return it as a value.  Any other
  exception rolls the call back.
-/
import CommerceOperations.Persistence.Canonical
import CommerceOperations.Approvals.Policy

namespace CommerceOperations

open Relational

/-- What `create_request` is told about the action. -/
structure ApprovalRequest where
  actionType : String
  resourceType : String
  resourceId : Uuid
  requestedAction : Json
  reason : String
  requester : String
  riskLevel : String
  workflowRunId : Option Uuid

/-- `ApprovalEngine`; `actionRegistry` gives the resume handler of an action type. -/
structure ApprovalEngine where
  policy : ApprovalPolicy
  defaultExpiryHours : Int
  actionRegistry : String → Option (Approval → Tx Unit)

/-- How a decision ended: taken, or found expired.  Both are committed by the caller. -/
inductive ApprovalOutcome where
  | decided (approval : Approval)
  | expired (approval : Approval)

namespace ApprovalEngine

section Requests

variable [Digests]

/-- `_action_hash`: the digest of the action's type, resource and payload, written in canonical
    form.  Two actions are taken for one exactly if these texts have one digest. -/
def actionHash (actionType : String) (resourceId : Uuid) (requestedAction : Json) : String :=
  Digests.sha256 (Json.dumps (.object
    [("action_type", .text actionType), ("resource_id", .text resourceId.text),
      ("requested_action", requestedAction)]))

/-- `_audit`: an entry of the approval itself, under its own id. -/
def audit (approval : Approval) (action actor : String) (beforeStatus : Option String)
    (afterStatus : String) : Tx Unit :=
  addAudit (if actor ≠ "system" then "user" else "system") actor action "approval" approval.id
    (beforeStatus.map fun s => .object [("status", .text s)])
    (some (.object [("status", .text afterStatus)]))
    (some ((approval.rationale.filter (· ≠ "")).getD approval.requestedReason)) approval.id

/-- `create_request`: the approval on record for this action, or a new one that is pending until its
    time is up.  The lookup locks nothing; the unique key on resource and hash is what keeps a
    second one out. -/
def createRequest (engine : ApprovalEngine) (request : ApprovalRequest) (ruleName : String)
    (ruleVersion : Int) : Tx Approval := do
  let hash := actionHash request.actionType request.resourceId request.requestedAction
  let existing ← Tx.select fun D => D.approvals.rows.find? fun a =>
    a.resourceType = request.resourceType ∧ a.resourceId = request.resourceId ∧
      a.actionHash = hash
  match existing with
  | some existing => pure existing
  | none =>
    let now ← Tx.now
    let id ← Tx.uuid4
    let approval ← add .approvals
      { id
        version := 1
        actionType := request.actionType
        resourceType := request.resourceType
        resourceId := request.resourceId
        requestedPayload := request.requestedAction
        actionHash := hash
        riskLevel := request.riskLevel
        ruleName
        ruleVersion
        status := .pending
        requestedBy := request.requester
        requestedReason := request.reason
        decidedBy := none
        rationale := none
        workflowRunId := request.workflowRunId
        expiresAt := some (now + hours engine.defaultExpiryHours)
        decidedAt := none
        resumedAt := none }
    audit approval "approval.requested" request.requester none "pending"
    pure approval

/-- A request writes an approval and an audit entry. -/
theorem createRequest_confined {engine : ApprovalEngine} {request : ApprovalRequest}
    {ruleName : String} {ruleVersion : Int} :
    (engine.createRequest request ruleName ruleVersion).confined [.approvals, .auditEvents] := by
  refine Prog.writes_bind (Prog.writes_query _) fun existing => ?_
  cases existing with
  | some existing => exact trivial
  | none =>
    refine Prog.writes_bind (Prog.writes_answer _) fun now => ?_
    refine Prog.writes_bind (Prog.writes_answer _) fun id => ?_
    refine Prog.writes_bind (Tx.confined_add _ (by decide)) fun approval => ?_
    exact Prog.writes_bind (Tx.confined_mono addAudit_confined (by decide)) fun _ => trivial

/-- A request spares every table but approvals and audit entries. -/
theorem createRequest_spares {engine : ApprovalEngine} {request : ApprovalRequest}
    {ruleName : String} {ruleVersion : Int} {i : TableName} (hi : i ≠ .approvals)
    (hi' : i ≠ .auditEvents) : (engine.createRequest request ruleName ruleVersion).spares i := by
  refine Prog.writes_bind (Prog.writes_query _) fun existing => ?_
  cases existing with
  | some existing => exact trivial
  | none =>
    refine Prog.writes_bind (Prog.writes_answer _) fun now => ?_
    refine Prog.writes_bind (Prog.writes_answer _) fun id => ?_
    refine Prog.writes_bind (Tx.spares_add _ hi.symm) fun approval => ?_
    exact Prog.writes_bind (addAudit_spares hi') fun _ => trivial

/-- `request_if_required`: no approval where the policy asks for none. -/
def requestIfRequired (engine : ApprovalEngine) (context : ApprovalContext)
    (request : ApprovalRequest) : Tx (Option Approval) :=
  match engine.policy.evaluate context with
  | none => pure none
  | some rule => do
    let approval ← engine.createRequest request rule.name rule.version
    pure (some approval)

end Requests

/-! ## Decisions -/

/-- `get(.., for_update=True)`: the approval under its row lock. -/
def getForUpdate (approvalId : Uuid) : Tx Approval := do
  let approval ← selectForUpdate .approvals fun a => a.id = approvalId
  Tx.orThrow approval .approvalNotFoundError approvalId.text

/-- `_require_pending`.  The row is locked by then, so what is pending here is pending until the
    call ends. -/
def requirePending (approval : Approval) : Tx Unit :=
  Tx.require (approval.status = .pending) .approvalTransitionError
    s!"Approval {approval.id} is already {approval.status.value}"

/-- `_expire`, without the exception that its callers raise. -/
def expire (approval : Approval) (now : Instant) (actor : String) : Tx Approval := do
  let expired ← flush .approvals approval
    { approval with
      status := .expired
      decidedAt := some now
      decidedBy := some actor
      rationale := some "Approval expired before a decision was made" }
  audit expired "approval.expired" actor (some "pending") "expired"
  pure expired

/-- `expires_at is not None and expires_at <= now`. -/
def isExpired (approval : Approval) (now : Instant) : Bool :=
  approval.expiresAt.any fun expiresAt => expiresAt ≤ now

/-- `_resume_action`: the registered handler, then the workflow linked to the approval. -/
def resumeAction (engine : ApprovalEngine) (approval : Approval) (now : Instant) :
    Tx Approval := do
  match engine.actionRegistry approval.actionType with
  | some handler => handler approval
  | none => pure ()
  match approval.workflowRunId with
  | some workflowRunId =>
    let found ← Tx.select fun D => D.workflowRuns.get workflowRunId
    let workflow ← Tx.orThrow found .approvalTransitionError
      s!"Workflow {workflowRunId} linked to approval was not found"
    let _ ← flush .workflowRuns workflow
      { workflow with status := .running, nextRetryAt := none, error := none }
  | none => pure ()
  flush .approvals approval { approval with resumedAt := some now }

/-- `approve`: a pending approval expires if it is too late, and otherwise the action it asks for is
    resumed. -/
def approve (engine : ApprovalEngine) (approvalId : Uuid) (approver reason : String)
    (now : Instant) : Tx ApprovalOutcome := do
  let approval ← getForUpdate approvalId
  requirePending approval
  if isExpired approval now then
    let expired ← expire approval now "system"
    pure (.expired expired)
  else
    let approval ← flush .approvals approval
      { approval with
        status := .approved
        decidedBy := some approver
        rationale := some reason
        decidedAt := some now }
    let approval ← engine.resumeAction approval now
    audit approval "approval.approved" approver (some "pending") "approved"
    pure (.decided approval)

/-- `reject`: a pending approval expires if it is too late, and is rejected otherwise. -/
def reject (approvalId : Uuid) (approver reason : String) (now : Instant) :
    Tx ApprovalOutcome := do
  let approval ← getForUpdate approvalId
  requirePending approval
  if isExpired approval now then
    let expired ← expire approval now "system"
    pure (.expired expired)
  else
    let approval ← flush .approvals approval
      { approval with
        status := .rejected
        decidedBy := some approver
        rationale := some reason
        decidedAt := some now }
    audit approval "approval.rejected" approver (some "pending") "rejected"
    pure (.decided approval)

/-- The loop of `expire_due`: each of the approvals expires. -/
def expireAll (now : Instant) : List Approval → Tx Unit
  | [] => pure ()
  | approval :: approvals => do
    let _ ← expire approval now "system"
    expireAll now approvals

/-- `expire_due`: every pending approval whose time is over expires. -/
def expireDue (now : Instant) : Tx Int := do
  let approvals ← selectAllForUpdate .approvals fun t =>
    t.rows.filter fun a : Approval => a.status = .pending ∧ isExpired a now
  expireAll now approvals
  pure approvals.length

/-! ## What they write -/

section Confined

variable {approval : Approval} {now : Instant} {actor reason : String}

/-- A decision that runs no action writes approvals and the audit trail. -/
abbrev decisionTables : List TableName := [.approvals, .auditEvents]

/-- Looking an approval up writes nothing. -/
theorem getForUpdate_confined {approvalId : Uuid} {tables : List TableName} :
    (getForUpdate approvalId).confined tables :=
  Prog.writes_bind (Prog.writes_selectForUpdate _ _) fun _ => Tx.confined_orThrow (by decide)

/-- An expiry is a mark and an audit entry. -/
theorem expire_confined : (expire approval now actor).confined decisionTables :=
  Prog.writes_bind (Tx.confined_flush _ _ (by decide)) fun _ =>
    Prog.writes_bind (Tx.confined_mono addAudit_confined (by decide)) fun _ => trivial

/-- A rejection marks the approval or, if it comes too late, its expiry. -/
theorem reject_confined {approvalId : Uuid} :
    (reject approvalId actor reason now).confined decisionTables := by
  refine Prog.writes_bind getForUpdate_confined fun approval => ?_
  refine Prog.writes_bind (Tx.confined_require (by decide)) fun _ => ?_
  split
  · exact Prog.writes_bind expire_confined fun _ => trivial
  · refine Prog.writes_bind (Tx.confined_flush _ _ (by decide)) fun _ => ?_
    exact Prog.writes_bind (Tx.confined_mono addAudit_confined (by decide)) fun _ => trivial

/-- A sweep makes some expiries.  By induction on the approvals it found. -/
theorem expireDue_confined : (expireDue now).confined decisionTables := by
  have hall : ∀ approvals, (expireAll now approvals).confined decisionTables := by
    intro approvals
    induction approvals with
    | nil => exact trivial
    | cons approval approvals ih => exact Prog.writes_bind expire_confined fun _ => ih
  exact Prog.writes_bind (Prog.writes_selectAllForUpdate _ _) fun approvals =>
    Prog.writes_bind (hall approvals) fun _ => trivial

end Confined

end ApprovalEngine

end CommerceOperations
