/-
  The orchestrator: the workflow steps behind the event routes.
-/
import CommerceOperations.Application.Orders
import CommerceOperations.Workflows.Engine

namespace CommerceOperations

open Relational

/-- The refund statuses that count as refunded. -/
def RefundStatus.counts (s : RefundStatus) : Bool :=
  s = .approved ∨ s = .processing ∨ s = .completed

namespace AutonomousOrchestrator

/-- `raise NonRetryableWorkflowError(message)` unless the condition holds. -/
def ensure (cond : Prop) [Decidable cond] (message : String) : Tx Unit :=
  Tx.require cond .nonRetryableWorkflowError message

/-- The dispositions a reconciliation knows. -/
def dispositions : List String := ["sellable", "damaged", "discarded"]

/-- The sum of the amounts refunded for an order. -/
def refunded (refunds : List Refund) : Rat :=
  ((refunds.filter fun r => r.status.counts).map (·.amount)).sum

/-- The restock of a sellable return. -/
def restock (returnRecord : Return) (orderItem : OrderItem) : Tx Unit := do
  if returnRecord.disposition = some "sellable" then
    let _ ← InventoryService.adjust orderItem.inventoryItemId
      { quantityDelta := returnRecord.quantity
        reason := s!"Sellable return {returnRecord.id}"
        actor := "system"
        idempotencyKey := s!"return-receipt:{returnRecord.id}"
        unitCost := none }

/-- `_return_to_reconciliation`, for the return and order of the event. -/
def reconcile (returnRecord : Return) (order : Order) (quantity : Int) (workflow : WorkflowRun) :
    Tx WorkflowOutcome := do
  let orderItem ← Tx.select fun D => returnRecord.orderItemId.bind D.orderItems.get
  let orderItem ← Tx.orThrow
    (if returnRecord.disposition.any fun d => d ∈ dispositions then orderItem else none)
    .nonRetryableWorkflowError "Return requires an order item and known inventory disposition"
  ensure (quantity = returnRecord.quantity)
    "Return event quantity does not match the return record"
  ensure (returnRecord.quantity ≤ orderItem.quantity)
    "Returned quantity exceeds the ordered quantity"
  restock returnRecord orderItem
  let refunds ← Tx.select fun D => D.refunds.rows.filter fun r => r.orderId = order.id
  ensure (∀ refund ∈ refunds, refund.currency = order.currency)
    "Refund and order currencies do not match"
  let refunded := refunded refunds
  ensure (refunded ≤ order.totalAmount) "Refund total exceeds the order total"
  if order.status ≠ .returned then
    let _ ← OrderService.updateStatus (some order) order.id .returned "system"
      "Marketplace return reconciliation"
  let _ ← flush .returns returnRecord { returnRecord with status := .completed }
  addAudit "system" "return-reconciliation" "return.reconciled" "return" returnRecord.id none
    (some (.object
      [("disposition", (returnRecord.disposition.map Json.text).getD .null),
        ("inventory_restocked", .bool (returnRecord.disposition = some "sellable")),
        ("refunded_amount", .decimal (.ofMoney refunded))]))
    (some "Inventory and financial return reconciliation") workflow.correlationId
  pure (.completed "return_reconciled"
    (.object [("return_id", .text returnRecord.id.text),
      ("refunded_amount", .decimal (.ofMoney refunded))]))

/-- `_return_to_reconciliation`. -/
def returnToReconciliation : WorkflowStep := fun event workflow => do
  match event.data with
  | .orderReturned orderId returnId quantity =>
    let returnRecord ← Tx.select fun D => D.returns.get returnId
    let order ← Tx.select fun D => D.orders.get orderId
    match returnRecord, order with
    | some returnRecord, some order =>
      ensure (returnRecord.orderId = order.id)
        "ORDER_RETURNED references missing return/order data"
      let outcome ← reconcile returnRecord order quantity workflow
      pure (some outcome)
    | _, _ =>
      Tx.throw .nonRetryableWorkflowError "ORDER_RETURNED references missing return/order data"
  | _ => Tx.throw .valueError "validation error"

/-- The name of the reconciliation workflow. -/
def returnWorkflowName : String := "order-returned-to-reconciliation"

/-- The definition `AutonomousOrchestrator` registers for it. -/
def returnDefinition (policy : WorkflowExecutionPolicy) : WorkflowDefinition :=
  { name := returnWorkflowName, version := 1, step := returnToReconciliation, policy }

end AutonomousOrchestrator

end CommerceOperations
