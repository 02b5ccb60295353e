/-
  The procurement service: from a proposed request over its approval to the received order.

  The status is a machine of its own (`transition` of `Domains`), and `applyTransition` is the one
  place where it moves: it writes the request, an audit entry and an event, keyed by the status
  reached.  Everything else a call does, with the purchase order or the workflow run, it does before
  or after that.
-/
import CommerceOperations.Approvals.Engine

namespace CommerceOperations

open Relational

namespace ProcurementService

/-- `get(.., for_update=True)`.  A request the session has loaded before keeps the values it was
    loaded with. -/
def getForUpdate (loaded : Option ProcurementRequest) (procurementId : Uuid) :
    Tx ProcurementRequest := do
  let found ← selectForUpdate .procurementRequests fun r => r.id = procurementId
  let request ← Tx.orThrow found .procurementNotFoundError procurementId.text
  pure (loaded.getD request)

/-- `_workflow`: the run of a request, which must be on record. -/
def workflow (request : ProcurementRequest) : Tx WorkflowRun := do
  let found ← Tx.select fun D => request.workflowRunId.bind D.workflowRuns.get
  Tx.orThrow found .procurementNotFoundError "Procurement workflow is missing"

/-- `_purchase_order`: the purchase order of a request, which must be on record. -/
def purchaseOrder (procurementId : Uuid) : Tx PurchaseOrder := do
  let found ← Tx.select fun D =>
    D.purchaseOrders.rows.find? fun p => p.procurementRequestId = procurementId
  Tx.orThrow found .purchaseOrderNotFoundError procurementId.text

/-- `_purchase_total`: the units at their cost, with the shipping. -/
def purchaseTotal (quote : SupplierQuote) (quantity : Int) : Rat :=
  quote.unitCost * quantity + quote.shippingCost

/-- What an event about a request refers to. -/
def eventContext (request : ProcurementRequest) (workflow : WorkflowRun) : EventContext :=
  { aggregateType := "procurement_request"
    aggregateId := request.id
    aggregateVersion := request.version
    correlationId := workflow.correlationId
    workflowId := some workflow.id
    causationId := none }

/-- `_apply_transition`: the status, its audit entry and its event.  The event has one key a status,
    so a status is reported once. -/
def applyTransition (request : ProcurementRequest) (target : ProcurementStatus)
    (actor reason : String) : Tx ProcurementRequest := do
  transition request.status target
  let previous := request.status
  let request ← flush .procurementRequests request { request with status := target }
  let workflow ← workflow request
  addAudit (if actor ≠ "system" then "user" else "system") actor "procurement.status_changed"
    "procurement_request" request.id (some (.object [("status", .text previous.value)]))
    (some (.object [("status", .text target.value)])) (some reason) workflow.correlationId
  let _ ← DatabaseEventStore.emit
    (.procurementStatusChanged request.id previous.value target.value actor)
    (eventContext request workflow) s!"procurement-status:{request.id}:{target.value}"
  pure request

/-- The `requested_action` of a purchase approval. -/
def requestedAction (quote : SupplierQuote) (quantity : Int) : Json :=
  .object
    [("operation", .text "create_purchase_order"), ("supplier_id", .text quote.supplierId.text),
      ("quote_id", .text quote.id.text), ("quantity", .int quantity),
      ("unit_cost", .decimal (.ofMoney quote.unitCost)),
      ("shipping_cost", .decimal (.ofMoney quote.shippingCost)),
      ("total_amount", .decimal (.ofMoney (purchaseTotal quote quantity))),
      ("currency", .text quote.currency)]

/-- `submit_for_approval`: a proposed request asks for an approval, and waits for it. -/
def submitForApproval [Digests] (approvalEngine : ApprovalEngine) (procurementId : Uuid)
    (requester reason : String) : Tx Approval := do
  let request ← getForUpdate none procurementId
  let found ← Tx.select fun D => D.supplierQuotes.get request.selectedQuoteId
  let quote ← Tx.orThrow found .procurementNotFoundError "Selected supplier quote is missing"
  Tx.require (quote.moq ≤ request.requestedQuantity) .procurementValidationError
    s!"Requested quantity {request.requestedQuantity} is below MOQ {quote.moq}"
  let request ← applyTransition request .awaitingApproval requester reason
  let approval ← approvalEngine.requestIfRequired
    { actionType := .supplierPurchase
      amount := some (purchaseTotal quote request.requestedQuantity)
      priceChangePercent := none
      isFirstPublication := false
      riskLevel := "financial" }
    { actionType := ApprovalActionType.supplierPurchase.value
      resourceType := "procurement_request"
      resourceId := request.id
      requestedAction := requestedAction quote request.requestedQuantity
      reason, requester
      riskLevel := "financial"
      workflowRunId := request.workflowRunId }
  let approval ← Tx.orThrow approval .runtimeError
    "Supplier purchase policy unexpectedly allowed the purchase"
  let workflow ← workflow request
  let _ ← DatabaseEventStore.emit
    (.procurementRequested request.id request.productId request.requestedQuantity)
    (eventContext request workflow) s!"procurement-requested:{request.id}"
  let _ ← flush .workflowRuns workflow
    { workflow with currentStep := some "awaiting_purchase_approval" }
  pure approval

/-- `f"PO-{request.id.hex[:12].upper()}"`. -/
def poNumber (request : ProcurementRequest) : String :=
  "PO-" ++ (String.ofList (request.id.hex.toList.take 12)).toUpper

/-- `_create_purchase_order`: the one that is there, or a new one. -/
def createPurchaseOrder (request : ProcurementRequest) (approval : Approval) :
    Tx PurchaseOrder := do
  let existing ← Tx.select fun D =>
    D.purchaseOrders.rows.find? fun p => p.procurementRequestId = request.id
  match existing with
  | some existing => pure existing
  | none =>
    let found ← Tx.select fun D => D.supplierQuotes.get request.selectedQuoteId
    let quote ← Tx.orThrow found .procurementNotFoundError "Selected supplier quote is missing"
    let id ← Tx.uuid4
    let purchaseOrder ← add .purchaseOrders
      { id
        version := 1
        procurementRequestId := request.id
        supplierId := quote.supplierId
        poNumber := poNumber request
        quantity := request.requestedQuantity
        receivedQuantity := 0
        totalAmount := purchaseTotal quote request.requestedQuantity
        actualLandedCost := none
        currency := quote.currency
        terms := .object [("approval_id", .text approval.id.text)]
        externalReference := none
        status := .approved
        orderedAt := none
        shippedAt := none
        receivedAt := none
        expectedArrivalAt := request.expectedArrivalAt }
    let workflow ← workflow request
    let _ ← DatabaseEventStore.emit
      (.purchaseOrderCreated purchaseOrder.id request.id purchaseOrder.poNumber)
      { aggregateType := "purchase_order"
        aggregateId := purchaseOrder.id
        aggregateVersion := purchaseOrder.version
        correlationId := workflow.correlationId
        workflowId := some workflow.id
        causationId := none }
      s!"purchase-order-created:{request.id}"
    pure purchaseOrder

/-- `approve_purchase`, the resume handler of a purchase approval: it runs in the transaction of the
    decision. -/
def approvePurchase (approval : Approval) : Tx Unit := do
  Tx.require (approval.resourceType = "procurement_request") .runtimeError
    "Supplier purchase approval references the wrong entity type"
  let request ← getForUpdate none approval.resourceId
  let request ← applyTransition request .approved
    ((approval.decidedBy.filter (· ≠ "")).getD "approval-engine")
    ((approval.rationale.filter (· ≠ "")).getD "Purchase approved")
  let workflow ← workflow request
  let _ ← DatabaseEventStore.emit (.purchaseApproved request.id approval.id)
    (eventContext request workflow) s!"purchase-approved:{request.id}"
  let _ ← createPurchaseOrder request approval
  let _ ← flush .workflowRuns workflow
    { workflow with currentStep := some "purchase_order_created" }

/-- `mark_ordered`: the order was sent to the supplier. -/
def markOrdered (procurementId : Uuid) (actor reason : String)
    (externalReference : Option String) (now : Instant) : Tx ProcurementRequest := do
  let request ← getForUpdate none procurementId
  let purchaseOrder ← purchaseOrder request.id
  let request ← applyTransition request .ordered actor reason
  let _ ← flush .purchaseOrders purchaseOrder
    { purchaseOrder with status := .submitted, orderedAt := some now, externalReference }
  pure request

/-- `mark_shipped`: the supplier has sent the goods. -/
def markShipped (procurementId : Uuid) (actor reason : String)
    (expectedArrivalAt : Option Instant) (now : Instant) : Tx ProcurementRequest := do
  let request ← getForUpdate none procurementId
  let purchaseOrder ← purchaseOrder request.id
  let request ← applyTransition request .shipped actor reason
  let shipped := { purchaseOrder with status := .shipped, shippedAt := some now }
  match expectedArrivalAt with
  | none =>
    let _ ← flush .purchaseOrders purchaseOrder shipped
    pure request
  | some arrival =>
    let request ← flush .procurementRequests request
      { request with expectedArrivalAt := some arrival }
    let _ ← flush .purchaseOrders purchaseOrder
      { shipped with expectedArrivalAt := some arrival }
    pure request

/-- `mark_received`, for a request the caller may have loaded. -/
def markReceived (loaded : Option ProcurementRequest) (procurementId : Uuid)
    (actor reason : String) (now : Instant) : Tx ProcurementRequest := do
  let request ← getForUpdate loaded procurementId
  let purchaseOrder ← purchaseOrder request.id
  let request ← applyTransition request .received actor reason
  let _ ← flush .purchaseOrders purchaseOrder
    { purchaseOrder with status := .received, receivedAt := some now }
  let workflow ← workflow request
  let _ ← flush .workflowRuns workflow
    { workflow with status := .succeeded, currentStep := some "goods_received" }
  pure request

/-- `cancel`: a request is given up, with its purchase order if there is one. -/
def cancel (procurementId : Uuid) (actor reason : String) : Tx ProcurementRequest := do
  let request ← getForUpdate none procurementId
  let request ← applyTransition request .cancelled actor reason
  let purchaseOrder ← Tx.select fun D =>
    D.purchaseOrders.rows.find? fun p => p.procurementRequestId = procurementId
  match purchaseOrder with
  | some purchaseOrder =>
    let _ ← flush .purchaseOrders purchaseOrder { purchaseOrder with status := .cancelled }
  | none => pure ()
  let workflow ← workflow request
  let _ ← flush .workflowRuns workflow
    { workflow with status := .cancelled, currentStep := some "cancelled" }
  pure request

/-! ## What a receipt writes -/

/-- Loading the workflow writes nothing. -/
theorem workflow_confined {request : ProcurementRequest} {tables : List TableName} :
    (workflow request).confined tables :=
  Prog.writes_bind (Prog.writes_query _) fun _ => Tx.confined_orThrow (by decide)

/-- A transition writes the request, the trail and the outbox. -/
theorem applyTransition_confined {request : ProcurementRequest} {target : ProcurementStatus}
    {actor reason : String} :
    (applyTransition request target actor reason).confined
      [.procurementRequests, .auditEvents, .domainEvents] := by
  refine Prog.writes_bind (Tx.confined_require (by decide)) fun _ => ?_
  refine Prog.writes_bind (Tx.confined_flush _ _ (by decide)) fun request => ?_
  refine Prog.writes_bind workflow_confined fun workflow => ?_
  refine Prog.writes_bind (Tx.confined_mono addAudit_confined (by decide)) fun _ => ?_
  refine Prog.writes_bind (Tx.confined_mono DatabaseEventStore.emit_confined (by decide))
    fun _ => trivial

/-- Loading the request writes nothing. -/
theorem getForUpdate_confined {loaded : Option ProcurementRequest} {procurementId : Uuid}
    {tables : List TableName} : (getForUpdate loaded procurementId).confined tables := by
  refine Prog.writes_bind (Prog.writes_selectForUpdate _ _) fun _ => ?_
  exact Prog.writes_bind (Tx.confined_orThrow (by decide)) fun _ => trivial

/-- A purchase order is a row and its event. -/
theorem createPurchaseOrder_confined {request : ProcurementRequest} {approval : Approval} :
    (createPurchaseOrder request approval).confined [.purchaseOrders, .domainEvents] := by
  refine Prog.writes_bind (Prog.writes_query _) fun existing => ?_
  cases existing with
  | some existing => exact trivial
  | none =>
    refine Prog.writes_bind (Prog.writes_query _) fun found => ?_
    refine Prog.writes_bind (Tx.confined_orThrow (by decide)) fun quote => ?_
    refine Prog.writes_bind (Prog.writes_answer _) fun id => ?_
    refine Prog.writes_bind (Tx.confined_add _ (by decide)) fun purchaseOrder => ?_
    refine Prog.writes_bind workflow_confined fun workflow => ?_
    exact Prog.writes_bind
      (Tx.confined_mono DatabaseEventStore.emit_confined (by decide)) fun _ => trivial

/-- Approving a purchase writes the request, its order and its workflow. -/
theorem approvePurchase_confined {approval : Approval} :
    (approvePurchase approval).confined
      [.procurementRequests, .purchaseOrders, .workflowRuns, .auditEvents, .domainEvents] := by
  refine Prog.writes_bind (Tx.confined_require (by decide)) fun _ => ?_
  refine Prog.writes_bind getForUpdate_confined fun request => ?_
  refine Prog.writes_bind (Tx.confined_mono applyTransition_confined (by decide)) fun request => ?_
  refine Prog.writes_bind workflow_confined fun workflow => ?_
  refine Prog.writes_bind
    (Tx.confined_mono DatabaseEventStore.emit_confined (by decide)) fun _ => ?_
  refine Prog.writes_bind
    (Tx.confined_mono createPurchaseOrder_confined (by decide)) fun _ => ?_
  exact Prog.writes_bind (Tx.confined_flush _ _ (by decide)) fun _ => trivial

/-- A receipt that completes the purchase order writes no stock table here. -/
theorem markReceived_confined {loaded : Option ProcurementRequest} {procurementId : Uuid}
    {actor reason : String} {now : Instant} :
    (markReceived loaded procurementId actor reason now).confined
      [.procurementRequests, .purchaseOrders, .workflowRuns, .auditEvents, .domainEvents] := by
  refine Prog.writes_bind getForUpdate_confined fun request => ?_
  refine Prog.writes_bind ?_ fun purchaseOrder => ?_
  · exact Prog.writes_bind (Prog.writes_query _) fun _ => Tx.confined_orThrow (by decide)
  refine Prog.writes_bind (Tx.confined_mono applyTransition_confined (by decide))
    fun request => ?_
  refine Prog.writes_bind (Tx.confined_flush _ _ (by decide)) fun _ => ?_
  refine Prog.writes_bind workflow_confined fun workflow => ?_
  exact Prog.writes_bind (Tx.confined_flush _ _ (by decide)) fun _ => trivial

end ProcurementService

end CommerceOperations
