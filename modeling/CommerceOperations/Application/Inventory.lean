/-
  The inventory service: goods receipts and adjustments.
-/
import CommerceOperations.Application.Procurement

namespace CommerceOperations

open Relational

/-- `InventoryChangeResult`: the item, its movement, and whether the call was a repetition. -/
structure InventoryChangeResult where
  inventoryItemId : Uuid
  movement : InventoryMovement
  duplicate : Bool

/-- The arguments of `receive`, in one record. -/
structure Receipt where
  sku : String
  storageLocation : String
  quantityReceived : Int
  landedUnitCost : Option Rat
  lowStockThreshold : Int
  actor : String
  reason : String
  idempotencyKey : String
  receivedAt : Option Instant

/-- The arguments of `adjust`, in one record. -/
structure Adjustment where
  quantityDelta : Int
  reason : String
  actor : String
  idempotencyKey : String
  unitCost : Option Rat

namespace InventoryService

/-- `get(.., for_update=True)`: the item under its row lock. -/
def getForUpdate (inventoryItemId : Uuid) : Tx InventoryItem := do
  let found ← selectForUpdate .inventoryItems fun i => i.id = inventoryItemId
  Tx.orThrow found .inventoryNotFoundError inventoryItemId.text

/-- `_existing_movement`: the movement stored under an idempotency key. -/
def existingMovement (idempotencyKey : String) : Tx (Option InventoryMovement) :=
  Tx.select fun D => D.inventoryMovements.rows.find? fun m => m.idempotencyKey = idempotencyKey

/-- `_workflow`: the run of a request, which must be on record. -/
def workflow (procurement : ProcurementRequest) : Tx WorkflowRun := do
  let found ← Tx.select fun D => procurement.workflowRunId.bind D.workflowRuns.get
  Tx.orThrow found .purchaseOrderNotReceivableError "Procurement workflow is missing"

/-- `_record_change`: the audit row and the events of a change of on-hand stock. -/
def recordChange (item : InventoryItem) (movement : InventoryMovement) (actor : String)
    (previousAvailable : Int) (stockReceived : Bool) (workflow : Option WorkflowRun) :
    Tx Unit := do
  let fresh ← Tx.uuid4
  let correlationId := (workflow.map (·.correlationId)).getD fresh
  addAudit (if actor ≠ "system" then "user" else "system") actor
    (if stockReceived then "inventory.stock_received" else "inventory.adjusted")
    "inventory_item" item.id
    (some (.object [("available_quantity", .int previousAvailable)]))
    (some (.object
      [("quantity_on_hand", .int item.quantityOnHand),
        ("reserved_quantity", .int item.reservedQuantity),
        ("available_quantity", .int item.availableQuantity)]))
    (some movement.reason) correlationId
  let common : EventContext :=
    { aggregateType := "inventory_item"
      aggregateId := item.id
      aggregateVersion := item.version
      correlationId
      workflowId := workflow.map (·.id)
      causationId := none }
  let _ ← DatabaseEventStore.emit
    (.inventoryChanged item.id movement.quantityDelta item.quantityOnHand item.reservedQuantity)
    common s!"inventory-changed:{movement.id}"
  if stockReceived then
    let purchaseOrderId ← Tx.orThrow movement.purchaseOrderId .assertionError ""
    let _ ← DatabaseEventStore.emit
      (.stockReceived item.id purchaseOrderId movement.quantityDelta)
      common s!"stock-received:{movement.id}"
  if item.lowStockThreshold < previousAvailable ∧
      item.availableQuantity ≤ item.lowStockThreshold then
    let _ ← DatabaseEventStore.emit
      (.lowStock item.id item.sku item.availableQuantity item.lowStockThreshold)
      common s!"low-stock:{movement.id}"

/-- The record of a change is in the audit trail and the outbox. -/
theorem recordChange_confined {item : InventoryItem} {movement : InventoryMovement}
    {actor : String} {previousAvailable : Int} {stockReceived : Bool}
    {workflow : Option WorkflowRun} :
    (recordChange item movement actor previousAvailable stockReceived workflow).confined
      [.auditEvents, .domainEvents] := by
  have hemit : ∀ payload context key, (DatabaseEventStore.emit payload context key).confined
      [.auditEvents, .domainEvents] := fun _ _ _ =>
    Tx.confined_mono DatabaseEventStore.emit_confined (by decide)
  refine Prog.writes_bind (Prog.writes_answer _) fun _ => ?_
  refine Prog.writes_bind (Tx.confined_mono addAudit_confined (by decide)) fun _ => ?_
  refine Prog.writes_bind (hemit _ _ _) fun _ => ?_
  extract_lets lowStock
  have hlow : ∀ u, (lowStock u).confined [.auditEvents, .domainEvents] := by
    intro u
    simp only [lowStock]
    split
    · exact Prog.writes_bind (hemit _ _ _) fun _ => trivial
    · exact trivial
  split
  · refine Prog.writes_bind (Tx.confined_orThrow (by decide)) fun _ => ?_
    exact Prog.writes_bind (hemit _ _ _) fun _ => hlow ()
  · exact hlow ()

/-- The item of `receive`: the one stored under the SKU and location, locked, or a new one. -/
def receivingItem (command : Receipt) (purchaseOrder : PurchaseOrder)
    (procurement : ProcurementRequest) : Tx InventoryItem := do
  let found ← selectForUpdate .inventoryItems fun i =>
    i.sku = command.sku ∧ i.storageLocation = command.storageLocation
  match found with
  | none =>
    let id ← Tx.uuid4
    add .inventoryItems
      { id
        version := 1
        productId := procurement.productId
        sku := command.sku
        storageLocation := command.storageLocation
        quantityOnHand := 0
        reservedQuantity := 0
        costBasis := 0
        currency := purchaseOrder.currency
        lowStockThreshold := command.lowStockThreshold }
  | some item =>
    Tx.require (item.productId = procurement.productId) .inventoryIdempotencyConflict
      "SKU and storage location already belong to another product"
    Tx.require (item.currency = purchaseOrder.currency) .inventoryIdempotencyConflict
      "Inventory and purchase-order currencies differ"
    pure item

/-- `receive`, after the check of the idempotency key. -/
def receiveNew (purchaseOrderId : Uuid) (command : Receipt) : Tx InventoryChangeResult := do
  let found ← selectForUpdate .purchaseOrders fun p => p.id = purchaseOrderId
  let purchaseOrder ← Tx.orThrow found .purchaseOrderReceiptNotFoundError
    "Purchase order was not found"
  Tx.require (purchaseOrder.status = .shipped) .purchaseOrderNotReceivableError
    s!"Purchase order must be shipped, not {purchaseOrder.status.value}"
  let remaining := purchaseOrder.quantity - purchaseOrder.receivedQuantity
  Tx.require (0 < command.quantityReceived) .invalidInventoryChange
    "Received quantity must be positive"
  Tx.require (command.quantityReceived ≤ remaining) .invalidInventoryChange
    s!"Received quantity {command.quantityReceived} exceeds remaining quantity {remaining}"
  let found ← Tx.select fun D => D.procurementRequests.get purchaseOrder.procurementRequestId
  let procurement ← Tx.orThrow found .purchaseOrderNotReceivableError
    "Procurement request is missing"
  let found ← Tx.select fun D => D.supplierQuotes.get procurement.selectedQuoteId
  let quote ← Tx.orThrow found .purchaseOrderNotReceivableError "Supplier quote is missing"
  let unitCost := command.landedUnitCost.getD quote.unitCost
  let item ← receivingItem command purchaseOrder procurement
  let newCostBasis ← weightedCostBasis item.quantityOnHand item.costBasis
    command.quantityReceived unitCost
  let balance ← applyQuantityChange item.quantityOnHand item.reservedQuantity
    command.quantityReceived
  let changed ← flush .inventoryItems item
    { item with quantityOnHand := balance.quantityOnHand, costBasis := money newCostBasis }
  let purchaseOrder ← flush .purchaseOrders purchaseOrder
    { purchaseOrder with
      receivedQuantity := purchaseOrder.receivedQuantity + command.quantityReceived
      actualLandedCost :=
        some (money (purchaseOrder.actualLandedCost.getD 0 +
          unitCost * command.quantityReceived)) }
  let id ← Tx.uuid4
  let movement ← add .inventoryMovements
    { id
      version := 1
      inventoryItemId := item.id
      purchaseOrderId := some purchaseOrder.id
      movementType := .receipt
      quantityDelta := command.quantityReceived
      unitCost := some (money unitCost)
      reason := command.reason
      sourceType := "purchase_order"
      sourceId := purchaseOrder.id.text
      idempotencyKey := command.idempotencyKey }
  let workflow ← workflow procurement
  recordChange changed movement command.actor item.availableQuantity true (some workflow)
  if purchaseOrder.receivedQuantity = purchaseOrder.quantity then
    let now ← Tx.now
    let _ ← ProcurementService.markReceived (some procurement) procurement.id command.actor
      "Purchase order fully received" (command.receivedAt.getD now)
  pure ⟨item.id, movement, false⟩

/-- `receive`: under a key in use, what is stored there is compared and returned. -/
def receive (purchaseOrderId : Uuid) (command : Receipt) : Tx InventoryChangeResult := do
  match ← existingMovement command.idempotencyKey with
  | some existing =>
    Tx.require (existing.purchaseOrderId = some purchaseOrderId ∧
        existing.quantityDelta = command.quantityReceived ∧ existing.movementType = .receipt)
      .inventoryIdempotencyConflict "Receipt idempotency key was reused for different stock"
    pure ⟨existing.inventoryItemId, existing, true⟩
  | none => receiveNew purchaseOrderId command

/-- `adjust`, after the check of the idempotency key. -/
def adjustNew (inventoryItemId : Uuid) (command : Adjustment) : Tx InventoryChangeResult := do
  let item ← getForUpdate inventoryItemId
  let balance ← applyQuantityChange item.quantityOnHand item.reservedQuantity
    command.quantityDelta
  let costBasis ← match command.unitCost with
    | some unitCost =>
      if 0 < command.quantityDelta then do
        let basis ← weightedCostBasis item.quantityOnHand item.costBasis command.quantityDelta
          unitCost
        pure (money basis)
      else pure item.costBasis
    | none => pure item.costBasis
  let changed ← flush .inventoryItems item
    { item with quantityOnHand := balance.quantityOnHand, costBasis }
  let id ← Tx.uuid4
  let movement ← add .inventoryMovements
    { id
      version := 1
      inventoryItemId := item.id
      purchaseOrderId := none
      movementType := .adjustment
      quantityDelta := command.quantityDelta
      unitCost := command.unitCost.map money
      reason := command.reason
      sourceType := "manual_adjustment"
      sourceId := item.id.text
      idempotencyKey := command.idempotencyKey }
  recordChange changed movement command.actor item.availableQuantity false none
  pure ⟨item.id, movement, false⟩

/-- `adjust`: under a key in use, what is stored there is compared and returned. -/
def adjust (inventoryItemId : Uuid) (command : Adjustment) : Tx InventoryChangeResult := do
  match ← existingMovement command.idempotencyKey with
  | some existing =>
    Tx.require (existing.inventoryItemId = inventoryItemId ∧
        existing.quantityDelta = command.quantityDelta ∧ existing.movementType = .adjustment)
      .inventoryIdempotencyConflict
      "Adjustment idempotency key was reused for a different change"
    pure ⟨existing.inventoryItemId, existing, true⟩
  | none => adjustNew inventoryItemId command

end InventoryService

end CommerceOperations
