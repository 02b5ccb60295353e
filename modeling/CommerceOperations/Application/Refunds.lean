/-
  The refund service: a proposed refund is approved by the policy or by a person.

  Two sessions may differ in the amount of one refund.  The one that made it goes on with the
  number it was given, and any other loads the row.  `requestApproval` therefore takes what its
  session holds (`amountIn`), because the text of the amount goes into the action that is hashed.
-/
import CommerceOperations.Approvals.Engine

namespace CommerceOperations

open Relational

namespace RefundService

/-- `refund.amount` as a session has it.

    The session that made the refund still holds the number it was given, `held`: a session of the
    service does not expire its objects when it commits.  Any other session loads the row, and the
    number comes with the four decimals of its column.  The two differ as texts (`500` and
    `500.0000`), and for an amount with more decimals also as numbers. -/
def amountIn (held : Option Decimal) (refund : Refund) : Decimal :=
  held.getD (.ofMoney refund.amount)

/-- `request_approval`, in a session that holds the amount as told. -/
def requestApproval [Digests] (approvalEngine : ApprovalEngine) (refundId : Uuid)
    (held : Option Decimal) (requester reason : String) : Tx (Option Approval) := do
  let found ← Tx.select fun D => D.refunds.get refundId
  let refund ← Tx.orThrow (found.filter fun r => r.status = .proposed) .refundApprovalError
    "Only a proposed refund may request approval"
  let approval ← approvalEngine.requestIfRequired
    { actionType := .refund
      amount := some (amountIn held refund).value
      priceChangePercent := none
      isFirstPublication := false
      riskLevel := "normal" }
    { actionType := ApprovalActionType.refund.value
      resourceType := "refund"
      resourceId := refund.id
      requestedAction := .object
        [("refund_id", .text refund.id.text), ("amount", .decimal (amountIn held refund))]
      reason, requester
      riskLevel := "financial"
      workflowRunId := none }
  match approval with
  | none =>
    let _ ← flush .refunds refund { refund with status := .approved }
    addAudit "system" "refund-policy" "refund.auto_approved" "refund" refund.id none
      (some (.object [("status", .text RefundStatus.approved.value)]))
      (some "Refund was within the configured approval threshold") refund.orderId
  | some approval =>
    let _ ← flush .refunds refund { refund with approvalId := some approval.id }
  pure approval

/-- `Decimal(value)` of an entry of the payload, which holds the text of an amount. -/
def toDecimal : Option Json → Tx Rat
  | some (.decimal d) => pure d.value
  | some (.int n) => pure n
  | some (.text _) => .raise (.other "InvalidOperation" "[<class 'decimal.ConversionSyntax'>]")
  | _ => .raise (.other "TypeError" "conversion to Decimal is not supported")

/-- `approve_refund`, the resume handler of a refund approval.  Decisions come in sessions of their
    own, so the refund is loaded and its amount is that of the row. -/
def approveRefund (approval : Approval) : Tx Unit := do
  let found ← Tx.select fun D => D.refunds.get approval.resourceId
  let refund ← Tx.orThrow (found.filter fun _ => approval.resourceType = "refund")
    .refundApprovalError "Refund approval references missing data"
  Tx.require (refund.status = .proposed) .refundApprovalError "Refund is no longer proposed"
  Tx.require (approval.requestedPayload.get? "refund_id" = some (.text refund.id.text))
    .refundApprovalError "Refund approval payload does not match the refund"
  let requestedAmount ← toDecimal (approval.requestedPayload.get? "amount")
  Tx.require (requestedAmount = refund.amount) .refundApprovalError
    "Refund approval payload does not match the refund"
  let _ ← flush .refunds refund { refund with status := .approved }
  addAudit "human" ((approval.decidedBy.filter (· ≠ "")).getD "unknown") "refund.approved"
    "refund" refund.id none (some (.object [("status", .text RefundStatus.approved.value)]))
    approval.rationale refund.orderId

/-! ## What an approval writes -/

/-- Reading a number writes nothing. -/
theorem toDecimal_confined {value : Option Json} {tables : List TableName} :
    (toDecimal value).confined tables := by
  unfold toDecimal
  split
  · exact trivial
  · exact trivial
  · rintro ⟨m, h⟩
    exact nomatch h
  · rintro ⟨m, h⟩
    exact nomatch h

/-- Approving a refund writes the refund and an audit entry. -/
theorem approveRefund_confined {approval : Approval} :
    (approveRefund approval).confined [.refunds, .auditEvents] := by
  refine Prog.writes_bind (Prog.writes_query _) fun found => ?_
  refine Prog.writes_bind (Tx.confined_orThrow (by decide)) fun refund => ?_
  refine Prog.writes_bind (Tx.confined_require (by decide)) fun _ => ?_
  refine Prog.writes_bind (Tx.confined_require (by decide)) fun _ => ?_
  refine Prog.writes_bind toDecimal_confined fun amount => ?_
  refine Prog.writes_bind (Tx.confined_require (by decide)) fun _ => ?_
  refine Prog.writes_bind (Tx.confined_flush _ _ (by decide)) fun _ => ?_
  exact Tx.confined_mono addAudit_confined (by decide)

end RefundService

end CommerceOperations
