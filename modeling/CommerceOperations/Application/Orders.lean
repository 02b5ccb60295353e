/-
  The order service: ingestion with reservation, and the status of an order.

  Statement by statement, because other sessions run between two statements: a reservation looks
  for candidates without a lock, and takes stock by an UPDATE that checks again whether there is
  enough.  Where the source writes an object later than it changes it, the flush stands where the
  next query would make it.

  Releasing and shipping an order are one loop with two bodies, and the two bodies are one
  definition with different numbers (`settleLine`).

  The last part lists which tables each function leaves alone.
-/
import CommerceOperations.Application.Inventory
import CommerceOperations.Persistence.Canonical
import Mathlib.Data.List.Sort

namespace CommerceOperations

open Relational

/-! ## Commands -/

/-- `NormalizedOrderItem`: a line of the order.  Amounts keep the scale they were written with. -/
structure NormalizedOrderItem where
  externalLineId : String
  sku : String
  quantity : Int
  unitPrice : Decimal
  taxAmount : Decimal
  discountAmount : Decimal
  quantity_pos : 0 < quantity

/-- `NormalizedMarketplaceOrder`: an order as the marketplace connectors hand it over. -/
structure NormalizedMarketplaceOrder where
  contractVersion : Int
  marketplace : String
  marketplaceAccountId : String
  externalOrderId : String
  sourceEventId : String
  status : OrderStatus
  currency : String
  totalAmount : Decimal
  customerReference : Option String
  shippingDetails : Json
  orderedAt : DateTime
  items : List NormalizedOrderItem
  items_nonempty : items ≠ []

/-- `item.model_dump(mode="json")`. -/
def NormalizedOrderItem.dump (line : NormalizedOrderItem) : Json :=
  .object
    [("external_line_id", .text line.externalLineId), ("sku", .text line.sku),
      ("quantity", .int line.quantity), ("unit_price", .text line.unitPrice.str),
      ("tax_amount", .text line.taxAmount.str),
      ("discount_amount", .text line.discountAmount.str)]

/-- `command.model_dump(mode="json", exclude={"source_event_id"})`. -/
def NormalizedMarketplaceOrder.dump (command : NormalizedMarketplaceOrder) : Json :=
  .object
    [("contract_version", .int command.contractVersion),
      ("marketplace", .text command.marketplace),
      ("marketplace_account_id", .text command.marketplaceAccountId),
      ("external_order_id", .text command.externalOrderId),
      ("status", .text command.status.value), ("currency", .text command.currency),
      ("total_amount", .text command.totalAmount.str),
      ("customer_reference", .ofText command.customerReference),
      ("shipping_details", command.shippingDetails), ("ordered_at", .text command.orderedAt.text),
      ("items", .array (command.items.map NormalizedOrderItem.dump))]

/-- `OrderIngestionResult`: the order on record, and whether it was there before. -/
structure OrderIngestionResult where
  order : Order
  duplicate : Bool

namespace OrderService

/-! ## Rows and events shared by the operations -/

/-- `f"order-{movement_type.value}:{order.id}:{line}"`, the ledger key of a line. -/
def movementKey (movementType : InventoryMovementType) (orderId : Uuid)
    (externalLineId : String) : String :=
  s!"order-{movementType.value}:{orderId}:{externalLineId}"

/-- `_inventory_events`: the change of an item, and the warning when it crosses its threshold. -/
def inventoryEvents (item : InventoryItem) (movement : InventoryMovement) (correlationId : Uuid)
    (previousAvailable quantityDelta : Int) : Tx Unit := do
  let context : EventContext :=
    { aggregateType := "inventory_item"
      aggregateId := item.id
      aggregateVersion := item.version
      correlationId
      workflowId := none
      causationId := none }
  let _ ← DatabaseEventStore.emit
    (.inventoryChanged item.id quantityDelta item.quantityOnHand item.reservedQuantity)
    context s!"inventory-changed:{movement.id}"
  if item.lowStockThreshold < previousAvailable ∧
      item.availableQuantity ≤ item.lowStockThreshold then
    let _ ← DatabaseEventStore.emit
      (.lowStock item.id item.sku item.availableQuantity item.lowStockThreshold)
      context s!"low-stock:{movement.id}"

/-- `_audit`; an order without a workflow has no correlation to record. -/
def audit (order : Order) (workflow : Option WorkflowRun) (action actor : String)
    (before : Option String) (after reason : String) : Tx Unit := do
  let workflow ← Tx.orThrow workflow .attributeError
    "'NoneType' object has no attribute 'correlation_id'"
  addAudit (if actor = "marketplace" then "system" else "user") actor action "order" order.id
    (before.map fun s => .object [("status", .text s)])
    (some (.object [("status", .text after)])) (some reason) workflow.correlationId

/-- These are events and nothing else. -/
theorem inventoryEvents_confined {item : InventoryItem} {movement : InventoryMovement}
    {correlationId : Uuid} {previousAvailable quantityDelta : Int} :
    (inventoryEvents item movement correlationId previousAvailable quantityDelta).confined
      [.domainEvents] := by
  refine Prog.writes_bind DatabaseEventStore.emit_confined fun _ => ?_
  split
  · exact Prog.writes_bind DatabaseEventStore.emit_confined fun _ => trivial
  · exact trivial

/-- This is an audit entry and nothing else. -/
theorem audit_confined {order : Order} {workflow : Option WorkflowRun} {action actor : String}
    {before : Option String} {after reason : String} :
    (audit order workflow action actor before after reason).confined [.auditEvents] :=
  Prog.writes_bind (Tx.confined_orThrow (by decide)) fun _ => addAudit_confined

/-! ## Ingestion -/

/-- `_validate`: the status, the lines and the discounts of a new order. -/
def validate (command : NormalizedMarketplaceOrder) : Tx Unit := do
  Tx.require (command.status = .pending ∨ command.status = .paid) .orderValidationError
    "New orders must be pending or paid"
  Tx.require (command.items.map (·.externalLineId)).Nodup .orderValidationError
    "External line IDs must be unique within an order"
  Tx.require (¬∃ line ∈ command.items, line.unitPrice.value * line.quantity + line.taxAmount.value <
      line.discountAmount.value) .orderValidationError
    "Line discount cannot exceed the line value"

/-- `_payload_hash`: the digest by which a repeated order is recognized. -/
def payloadHash [Digests] (command : NormalizedMarketplaceOrder) : String :=
  Digests.sha256 command.dump.dumps

/-- The items of a SKU, most available stock first, as a plain read sees them. -/
def candidates (sku : String) (D : Db) : List InventoryItem :=
  (D.inventoryItems.rows.filter fun i => i.sku = sku).insertionSort fun i j =>
    j.availableQuantity ≤ i.availableQuantity

/-- The loop of `_reserve`: the first candidate with enough available stock is reserved from. -/
def reserveFrom (sku : String) (quantity : Int) (order : Order) (externalLineId : String)
    (correlationId : Uuid) : List Uuid → Tx InventoryItem
  | [] => Tx.throw .insufficientInventoryError
      s!"Insufficient available inventory for SKU {sku}"
  | inventoryId :: rest => do
    let before ← Tx.select fun D => D.inventoryItems.get inventoryId
    let previousAvailable := (before.map (·.availableQuantity)).getD 0
    let reserved ← updateWhere .inventoryItems inventoryId
      (fun i => quantity ≤ i.quantityOnHand - i.reservedQuantity)
      (fun i => { i with reservedQuantity := i.reservedQuantity + quantity })
    match reserved with
    | none => reserveFrom sku quantity order externalLineId correlationId rest
    | some _ =>
      let found ← Tx.select fun D => D.inventoryItems.get inventoryId
      let item ← Tx.orThrow found .assertionError ""
      let id ← Tx.uuid4
      let movement ← add .inventoryMovements
        { id
          version := 1
          inventoryItemId := item.id
          purchaseOrderId := none
          movementType := .reservation
          quantityDelta := quantity
          unitCost := none
          reason := "Reserved for marketplace order"
          sourceType := "order"
          sourceId := order.id.text
          idempotencyKey := movementKey .reservation order.id externalLineId }
      inventoryEvents item movement correlationId previousAvailable 0
      pure item

/-- `_reserve`.  No lock is taken on the candidates, so the one with most stock may have less by the
    time it is tried. -/
def reserve (sku : String) (quantity : Int) (order : Order) (externalLineId : String)
    (correlationId : Uuid) : Tx InventoryItem := do
  let candidates ← Tx.select (candidates sku)
  reserveFrom sku quantity order externalLineId correlationId (candidates.map (·.id))

/-- The loop of `ingest` over the order lines.  The line appended to the order is written by the
    next query, or by the flush after the loop. -/
def addLines (order : Order) (correlationId : Uuid) : List NormalizedOrderItem → Tx Unit
  | [] => pure ()
  | line :: lines => do
    let inventory ← reserve line.sku line.quantity order line.externalLineId correlationId
    let id ← Tx.uuid4
    let _ ← add .orderItems
      { id
        version := 1
        orderId := order.id
        inventoryItemId := inventory.id
        externalLineId := line.externalLineId
        sku := line.sku
        quantity := line.quantity
        unitPrice := line.unitPrice.value
        taxAmount := line.taxAmount.value
        discountAmount := line.discountAmount.value
        reservationReference := some s!"order:{order.id}:{line.externalLineId}" }
    addLines order correlationId lines

/-- The name the correlation id of an order is made from. -/
def correlationName (marketplace marketplaceAccountId externalOrderId : String) : String :=
  s!"order:{marketplace}:{marketplaceAccountId}:{externalOrderId}"

/-- The correlation id of an order. -/
def correlationId [Digests] (command : NormalizedMarketplaceOrder) : Uuid :=
  Digests.uuid5
    (correlationName command.marketplace command.marketplaceAccountId command.externalOrderId)

/-- `ingest`, of an order that is not stored yet. -/
def ingestNew [Digests] (command : NormalizedMarketplaceOrder) : Tx OrderIngestionResult := do
  validate command
  let correlationId := correlationId command
  let workflowId ← Tx.uuid4
  let createdAt ← Tx.now
  let workflow ← add .workflowRuns
    { id := workflowId
      version := 1
      createdAt
      workflowName := "marketplace-order-fulfilment"
      workflowVersion := 1
      correlationId
      sourceEventId := none
      idempotencyKey := none
      status := .running
      currentStep := some (if command.status = .paid then "paid" else "awaiting_payment")
      attempts := 0
      nextRetryAt := none
      error := none
      checkpoints := .object [("external_order_id", .text command.externalOrderId)]
      maxAttempts := 3
      timeoutSeconds := 300
      startedAt := none
      deadlineAt := none
      completedAt := none
      waitingApprovalId := none
      costAmount := 0
      costCurrency := none }
  let orderId ← Tx.uuid4
  let now ← Tx.now
  let order ← add .orders
    { id := orderId
      version := 1
      marketplace := command.marketplace
      workflowRunId := some workflow.id
      marketplaceAccountId := command.marketplaceAccountId
      externalOrderId := command.externalOrderId
      sourceEventId := command.sourceEventId
      sourcePayloadHash := payloadHash command
      status := command.status
      currency := command.currency.toUpper
      totalAmount := command.totalAmount.value
      customerReference := command.customerReference
      shippingDetails := command.shippingDetails
      orderedAt := command.orderedAt.instant
      paidAt := if command.status = .paid then some now else none
      dispatchedAt := none
      deliveredAt := none }
  addLines order correlationId command.items
  let _ ← DatabaseEventStore.emit
    (.orderReceived order.id order.marketplace order.externalOrderId)
    { aggregateType := "order"
      aggregateId := order.id
      aggregateVersion := order.version
      correlationId
      workflowId := some workflow.id
      causationId := none }
    s!"order-received:{order.id}"
  audit order (some workflow) "order.received" "marketplace" none order.status.value
    "Marketplace order ingestion"
  pure ⟨order, false⟩

/-- `ingest`: an order on record is compared and returned, and a new one is taken in. -/
def ingest [Digests] (command : NormalizedMarketplaceOrder) : Tx OrderIngestionResult := do
  let existing ← Tx.select fun D => D.orders.rows.find? fun o =>
    o.marketplace = command.marketplace ∧
      o.marketplaceAccountId = command.marketplaceAccountId ∧
      o.externalOrderId = command.externalOrderId
  match existing with
  | some existing =>
    Tx.require (existing.sourcePayloadHash = payloadHash command) .orderIdempotencyConflict
      "Marketplace order was redelivered with different business data"
    pure ⟨existing, true⟩
  | none =>
    let eventOrder ← Tx.select fun D => D.orders.rows.find? fun o =>
      o.marketplace = command.marketplace ∧
        o.marketplaceAccountId = command.marketplaceAccountId ∧
        o.sourceEventId = command.sourceEventId
    Tx.require (eventOrder = none) .orderIdempotencyConflict
      "Marketplace event ID was reused for another order"
    ingestNew command

/-! ## Status -/

/-- `get(.., for_update=True)`.  An order the session has loaded before keeps the values it was
    loaded with. -/
def getForUpdate (loaded : Option Order) (orderId : Uuid) : Tx Order := do
  let found ← selectForUpdate .orders fun o => o.id = orderId
  let order ← Tx.orThrow found .orderNotFoundError orderId.text
  pure (loaded.getD order)

/-- `order.items`, the lines of an order in the order they were stored. -/
def items (orderId : Uuid) (D : Db) : List OrderItem :=
  D.orderItems.children ⟨.orderItemOrder, [.uuid orderId]⟩

/-- `_movement`: the ledger entry of a line that is settled. -/
def movement (order : Order) (line : OrderItem) (movementType : InventoryMovementType)
    (quantityDelta : Int) (id : Uuid) : InventoryMovement :=
  { id
    version := 1
    inventoryItemId := line.inventoryItemId
    purchaseOrderId := none
    movementType
    quantityDelta
    unitCost := none
    reason := s!"Order {movementType.value}"
    sourceType := "order"
    sourceId := order.id.text
    idempotencyKey := movementKey movementType order.id line.externalLineId }

/-- One round of the loops of `_release_order` and `_ship_order`: the conditional update of the
    line's item, its movement, and the events.  `missing` is the error when no row matches. -/
def settleLine (order : Order) (line : OrderItem) (movementType : InventoryMovementType)
    (cond : InventoryItem → Bool) (set : InventoryItem → InventoryItem) (missing : String)
    (eventDelta : Int) : Tx Unit := do
  let found ← Tx.select fun D => D.inventoryItems.get line.inventoryItemId
  let item ← Tx.orThrow found .assertionError ""
  let previousAvailable := item.availableQuantity
  let result ← updateWhere .inventoryItems item.id cond set
  let _ ← Tx.orThrow result .orderValidationError missing
  let id ← Tx.uuid4
  let movement ← add .inventoryMovements
    (movement order line movementType (-line.quantity) id)
  let found ← Tx.select fun D => D.inventoryItems.get item.id
  let item ← Tx.orThrow found .assertionError ""
  inventoryEvents item movement order.id previousAvailable eventDelta

/-- The body of the loop of `_release_order`. -/
def releaseLine (order : Order) (line : OrderItem) : Tx Unit :=
  settleLine order line .release
    (fun i => line.quantity ≤ i.reservedQuantity)
    (fun i => { i with reservedQuantity := i.reservedQuantity - line.quantity })
    "Order reservation is missing" 0

/-- The body of the loop of `_ship_order`. -/
def shipLine (order : Order) (line : OrderItem) : Tx Unit :=
  settleLine order line .shipment
    (fun i => line.quantity ≤ i.reservedQuantity ∧ line.quantity ≤ i.quantityOnHand)
    (fun i =>
      { i with
        quantityOnHand := i.quantityOnHand - line.quantity
        reservedQuantity := i.reservedQuantity - line.quantity })
    "Reserved inventory cannot be dispatched" (-line.quantity)

/-- One settlement after the other. -/
def forLines (settle : OrderItem → Tx Unit) : List OrderItem → Tx Unit
  | [] => pure ()
  | line :: lines => do
    settle line
    forLines settle lines

/-- `_release_order`: each line gives its reserved units back. -/
def releaseOrder (order : Order) : Tx Unit := do
  let lines ← Tx.select (items order.id)
  forLines (releaseLine order) lines

/-- `_ship_order`: each line's reserved units leave the warehouse. -/
def shipOrder (order : Order) : Tx Unit := do
  let lines ← Tx.select (items order.id)
  forLines (shipLine order) lines

/-- The order with its new status and the time stamp that goes with it. -/
def withStatus (order : Order) (target : OrderStatus) (now : Instant) : Order :=
  { order with
    status := target
    paidAt := if target = .paid then some now else order.paidAt
    dispatchedAt := if target = .dispatched then some now else order.dispatchedAt
    deliveredAt := if target = .delivered then some now else order.deliveredAt }

/-- What a status change does to the fulfilment workflow. -/
def workflowWithStatus (workflow : WorkflowRun) (target : OrderStatus) : WorkflowRun :=
  { workflow with
    currentStep := some target.value
    status :=
      if target = .cancelled then .cancelled
      else if target = .delivered ∨ target = .refunded then .succeeded
      else workflow.status }

/-- The second half of `update_status`: the new status, the workflow, the event and the audit
    row.  Loading the workflow flushes the order. -/
def setStatus (order : Order) (target : OrderStatus) (actor reason : String) : Tx Order := do
  let previous := order.status
  let now ← Tx.now
  let order ← flush .orders order (withStatus order target now)
  let workflow ← Tx.select fun D => order.workflowRunId.bind D.workflowRuns.get
  let workflow ← match workflow with
    | some workflow => do
      let changed ← flush .workflowRuns workflow (workflowWithStatus workflow target)
      pure (some changed)
    | none => pure none
  if target = .cancelled then
    let _ ← DatabaseEventStore.emit (.orderCancelled order.id (some reason))
      { aggregateType := "order"
        aggregateId := order.id
        aggregateVersion := order.version
        correlationId := (workflow.map (·.correlationId)).getD order.id
        workflowId := workflow.map (·.id)
        causationId := none }
      s!"order-cancelled:{order.id}"
  audit order workflow "order.status_changed" actor (some previous.value) target.value reason
  pure order

/-- `update_status`, for an order the caller may have loaded. -/
def updateStatus (loaded : Option Order) (orderId : Uuid) (target : OrderStatus)
    (actor reason : String) : Tx Order := do
  let order ← getForUpdate loaded orderId
  let _ ← transitionOrder order.status target
  if target = order.status then pure order
  else do
    if target = .cancelled then releaseOrder order
    else if target = .dispatched then shipOrder order
    setStatus order target actor reason

/-! ## Tables they leave alone -/

section Spares

variable {order : Order} {correlationId : Uuid} {i : TableName}

/-- The events of a change spare every table but the outbox. -/
theorem inventoryEvents_spares {item : InventoryItem} {movement : InventoryMovement}
    {previousAvailable quantityDelta : Int} (hi : i ≠ .domainEvents) :
    (inventoryEvents item movement correlationId previousAvailable quantityDelta).spares i := by
  refine Prog.writes_bind (DatabaseEventStore.emit_spares hi) fun _ => ?_
  split
  · exact Prog.writes_bind (DatabaseEventStore.emit_spares hi) fun _ => trivial
  · exact trivial

/-- The audit entry of an order spares every table but the trail. -/
theorem audit_spares {workflow : Option WorkflowRun} {action actor : String}
    {before : Option String} {after reason : String} (hi : i ≠ .auditEvents) :
    (audit order workflow action actor before after reason).spares i :=
  Prog.writes_bind Tx.spares_orThrow fun _ => addAudit_spares hi

/-- Validation looks at the command only. -/
theorem validate_spares {command : NormalizedMarketplaceOrder} : (validate command).spares i :=
  Prog.writes_bind Tx.spares_require fun _ => Prog.writes_bind Tx.spares_require fun _ =>
    Tx.spares_require

/-- What a reservation or a settlement writes. -/
def lineTables : List TableName := [.inventoryItems, .inventoryMovements, .domainEvents]

/-- A reservation writes these tables only.  By induction on the candidates. -/
theorem reserveFrom_spares {sku externalLineId : String} {quantity : Int} (hi : i ∉ lineTables) :
    ∀ ids, (reserveFrom sku quantity order externalLineId correlationId ids).spares i
  | [] => Tx.spares_throw
  | k :: rest => by
    simp only [lineTables, List.mem_cons, List.not_mem_nil, or_false, not_or] at hi
    refine Prog.writes_bind (Prog.writes_query _) fun before => ?_
    refine Prog.writes_bind (Tx.spares_updateWhere (Ne.symm hi.1)) fun reserved => ?_
    cases reserved with
    | none => exact reserveFrom_spares (by simp [lineTables, hi]) rest
    | some row =>
      refine Prog.writes_bind (Prog.writes_query _) fun found => ?_
      refine Prog.writes_bind Tx.spares_orThrow fun item => ?_
      refine Prog.writes_bind (Prog.writes_answer _) fun id => ?_
      refine Prog.writes_bind (Tx.spares_add _ (Ne.symm hi.2.1)) fun movement => ?_
      exact Prog.writes_bind (inventoryEvents_spares hi.2.2) fun _ => trivial

/-- The lines of an order add their own table to them.  By induction on the lines. -/
theorem addLines_spares (hi : i ∉ .orderItems :: lineTables) :
    ∀ lines, (addLines order correlationId lines).spares i
  | [] => trivial
  | line :: lines => by
    obtain ⟨hne, hrest⟩ := not_or.mp (mt List.mem_cons.mpr hi)
    refine Prog.writes_bind (Prog.writes_bind (Prog.writes_query _) fun _ =>
      reserveFrom_spares hrest _) fun inventory => ?_
    refine Prog.writes_bind (Prog.writes_answer _) fun id => ?_
    exact Prog.writes_bind (Tx.spares_add _ (Ne.symm hne)) fun _ => addLines_spares hi lines

/-- A settlement writes what a reservation writes. -/
theorem settleLine_spares {line : OrderItem} {t : InventoryMovementType}
    {cond : InventoryItem → Bool} {set : InventoryItem → InventoryItem} {missing : String}
    {eventDelta : Int} (hi : i ∉ lineTables) :
    (settleLine order line t cond set missing eventDelta).spares i := by
  simp only [lineTables, List.mem_cons, List.not_mem_nil, or_false, not_or] at hi
  refine Prog.writes_bind (Prog.writes_query _) fun found => ?_
  refine Prog.writes_bind Tx.spares_orThrow fun item => ?_
  refine Prog.writes_bind (Tx.spares_updateWhere (Ne.symm hi.1)) fun result => ?_
  refine Prog.writes_bind Tx.spares_orThrow fun _ => ?_
  refine Prog.writes_bind (Prog.writes_answer _) fun id => ?_
  refine Prog.writes_bind (Tx.spares_add _ (Ne.symm hi.2.1)) fun movement => ?_
  refine Prog.writes_bind (Prog.writes_query _) fun found => ?_
  refine Prog.writes_bind Tx.spares_orThrow fun item => ?_
  exact inventoryEvents_spares hi.2.2

/-- A loop of settlements spares what one settlement spares, by induction on the lines. -/
theorem forLines_spares {settle : OrderItem → Tx Unit} (h : ∀ line, (settle line).spares i) :
    ∀ lines, (forLines settle lines).spares i
  | [] => trivial
  | line :: lines => Prog.writes_bind (h line) fun _ => forLines_spares h lines

/-- Releasing an order spares everything but stock, movements and events. -/
theorem releaseOrder_spares (hi : i ∉ lineTables) : (releaseOrder order).spares i :=
  Prog.writes_bind (Prog.writes_query _) fun _ =>
    forLines_spares (fun _ => settleLine_spares hi) _

/-- Shipping an order spares everything but these, too. -/
theorem shipOrder_spares (hi : i ∉ lineTables) : (shipOrder order).spares i :=
  Prog.writes_bind (Prog.writes_query _) fun _ =>
    forLines_spares (fun _ => settleLine_spares hi) _

end Spares

end OrderService

end CommerceOperations
