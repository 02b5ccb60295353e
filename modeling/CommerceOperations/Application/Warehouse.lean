/-
  The warehouse under concurrent calls.

  Any number of sessions receive goods, adjust stock, take orders, change their status and
  reconcile returns, each call a transaction of its own.  In every state such an interleaving can
  reach the books are in order; what this means for an item and for an order line is read off
  them here.

  The interleaving is one of statements.  `warehouse` is the client in which each session runs calls
  of its choice, `warehouseContract` says that each of them keeps the books from any state in which
  they are in order, and the rest follows for every reachable state at once.
-/
import CommerceOperations.Application.StockSafety

namespace CommerceOperations

open Relational

/-- The calls on the warehouse.  Returns are reconciled by the workflow engine: on delivery of the
    event, when its run is resumed, and when a retry is due. -/
inductive StockCall where
  /-- goods arrive -/
  | receive (purchaseOrderId : Uuid) (command : Receipt)
  /-- stock is corrected -/
  | adjust (inventoryItemId : Uuid) (command : Adjustment)
  /-- an order comes in -/
  | ingest (command : NormalizedMarketplaceOrder)
  /-- an order moves on -/
  | updateStatus (orderId : Uuid) (target : OrderStatus) (actor reason : String)
  /-- the event of a return is delivered -/
  | handleReturn (event : EventEnvelope) (now : Instant)
  /-- its run is resumed -/
  | resumeReturn (workflowId : Uuid) (now : Instant)
  /-- or retried -/
  | retryReturns (now : Instant) (limit : Nat)

namespace AutonomousOrchestrator

/-- The engine with the reconciliation registered. -/
def returnEngine (policy : WorkflowExecutionPolicy) : WorkflowEngine where
  definitions name := if name = returnWorkflowName then some (returnDefinition policy) else none

end AutonomousOrchestrator

open AutonomousOrchestrator

/-- Runs, audit entries and events are no part of the books. -/
theorem books_of_engineTables (D D' : Db)
    (h : ∀ i, i ∉ WorkflowEngine.tables → D'.table i = D.table i) (hbooks : Books D) : Books D' :=
  hbooks.congr fun i hi => h i (by revert i; decide)

/-- Every workflow of the engine keeps the books.  There is one, and it is the reconciliation. -/
theorem returnEngine_keeps (policy : WorkflowExecutionPolicy) (name : String)
    (definition : WorkflowDefinition)
    (h : (returnEngine policy).definitions name = some definition) (event : EventEnvelope)
    (run : WorkflowRun) (held : List DbLock) (seen view : Db) (hbooks : Books view) :
    (definition.step event run).ensures (fun _ => False) ⟨held, seen, view⟩
      fun _ pt' => Books pt'.view := by
  unfold returnEngine at h
  dsimp only at h
  split at h
  · obtain rfl := Option.some.inj h
    exact Prog.ensures_anti (returnToReconciliation_ensures hbooks event run) fun _ he => he.elim
  · exact nomatch h

section Warehouse

variable [Digests] (policy : WorkflowExecutionPolicy)

/-- The call as a transaction; what it returns is dropped. -/
def StockCall.run : StockCall → Tx Unit
  | receive purchaseOrderId command => do
    let _ ← InventoryService.receive purchaseOrderId command
  | adjust inventoryItemId command => do
    let _ ← InventoryService.adjust inventoryItemId command
  | ingest command => do
    let _ ← OrderService.ingest command
  | updateStatus orderId target actor reason => do
    let _ ← OrderService.updateStatus none orderId target actor reason
  | handleReturn event now => do
    let _ ← (returnEngine policy).handleEvent returnWorkflowName event now
  | resumeReturn workflowId now => do
    let _ ← (returnEngine policy).resume workflowId now
  | retryReturns now limit => do
    let _ ← (returnEngine policy).retryDue now limit

/-- The sessions of the warehouse. -/
def warehouse : Client Db (Write TableName.Entity) DbLock Environment Error Unit StockCall :=
  Client.ofCalls (StockCall.run policy) .operationalError

/-- Nothing in stock, nothing ordered, nothing recorded. -/
structure EmptyInventory (D : Db) : Prop where
  /-- no items -/
  items : D.inventoryItems = ∅
  /-- no movements -/
  movements : D.inventoryMovements = ∅
  /-- no lines -/
  lines : D.orderItems = ∅

/-- **Every call keeps the books**, and meets no stock error. -/
theorem StockCall.run_ensures (call : StockCall) (D : Db) (hbooks : Books D) :
    (call.run policy).ensures Error.isStockError ⟨[], D, D⟩ fun _ pt => Books pt.view := by
  have hbad : ∀ e : Error, e.isStockError → e.isOrderValidation := fun _ he =>
    he.isOrderValidation
  cases call with
  | receive purchaseOrderId command =>
    exact Prog.ensures_bind.mpr (InventoryService.receive_ensures hbooks purchaseOrderId command)
  | adjust inventoryItemId command =>
    exact Prog.ensures_bind.mpr (InventoryService.adjust_ensures hbooks inventoryItemId command)
  | ingest command => exact Prog.ensures_bind.mpr (OrderService.ingest_ensures hbooks command)
  | updateStatus orderId target actor reason =>
    exact Prog.ensures_bind.mpr
      (OrderService.updateStatus_ensures hbooks orderId target actor reason)
  | handleReturn event now =>
    exact Prog.ensures_bind.mpr (WorkflowEngine.handleEvent_ensures books_of_engineTables hbad
      (returnEngine_keeps policy) hbooks _ event now)
  | resumeReturn workflowId now =>
    exact Prog.ensures_bind.mpr (WorkflowEngine.resume_ensures books_of_engineTables hbad
      (returnEngine_keeps policy) hbooks workflowId now)
  | retryReturns now limit =>
    exact Prog.ensures_bind.mpr (WorkflowEngine.retryDue_ensures books_of_engineTables hbad
      (returnEngine_keeps policy) hbooks now limit)

/-- The contract of the warehouse. -/
def warehouseContract {D₀ : Db} (h : EmptyInventory D₀) : Contract (warehouse policy) D₀ :=
  Contract.ofInv Books (fun _ => Error.isStockError)
    (Books.of_empty h.items h.movements h.lines) (StockCall.run_ensures policy)

variable {policy} {D₀ : Db} {sys : System Db (Write TableName.Entity) DbLock Environment Error
  Unit StockCall}

/-- In every reachable state the books are in order. -/
theorem books_of_reachable (h₀ : EmptyInventory D₀)
    (h : System.Reachable (warehouse policy) D₀ sys) : Books sys.committed :=
  h.inv (warehouseContract policy h₀)

end Warehouse

/-! ## What the books say -/

/-- What the open orders hold of an item. -/
def Db.openQuantity (D : Db) (itemId : Uuid) : Int :=
  D.orderItems.sum fun l =>
    if l.inventoryItemId = itemId ∧ (D.orders.get l.orderId).any (·.status.isOpen) = true
    then l.quantity else 0

/-- The sum of the movements of an item that have one of the types given. -/
def Db.ledgerSum (D : Db) (itemId : Uuid) (types : List InventoryMovementType) : Int :=
  D.inventoryMovements.sum fun m =>
    if m.inventoryItemId = itemId ∧ m.movementType ∈ types then m.quantityDelta else 0

/-- How many movements of some type an order line has. -/
def Db.movementCount (D : Db) (line : OrderItem) (t : InventoryMovementType) : Nat :=
  (D.inventoryMovements.rows.filter fun m => m.isOf line t).length

namespace Books

variable {D : Db}

/-- The reserved counter of an item is what the open orders hold of it. -/
theorem reserved_eq (h : Books D) {item : InventoryItem} (hitem : item ∈ D.inventoryItems) :
    item.reservedQuantity = D.openQuantity item.id := by
  rw [h.allocated.reserved.balance_eq item hitem]
  refine Table.sum_congr _ fun l hl => ?_
  obtain ⟨o, ho⟩ := h.lineOrder l hl
  show (if l.inventoryItemId = item.id then reservedFor D.linePhase l else 0) = _
  simp only [reservedFor, Db.linePhase_of_get ho, ho, OrderStatus.phase_eq_reserved,
    Option.any_some]
  by_cases hi : l.inventoryItemId = item.id <;> simp [hi]

/-- The counters of an item are sums of movements, by type. -/
theorem ledger_eq (h : Books D) {item : InventoryItem} (hitem : item ∈ D.inventoryItems) :
    item.quantityOnHand = D.ledgerSum item.id [.receipt, .adjustment, .shipment] ∧
      item.reservedQuantity = D.ledgerSum item.id [.reservation, .release, .shipment] := by
  rw [h.ledger.onHand.balance_eq item hitem, h.ledger.reserved.balance_eq item hitem]
  constructor
  · refine Table.sum_congr _ fun m _ => ?_
    show (if m.inventoryItemId = item.id then m.onHandDelta else 0) = _
    cases hm : m.movementType <;> simp [InventoryMovement.onHandDelta, hm]
  · refine Table.sum_congr _ fun m _ => ?_
    show (if m.inventoryItemId = item.id then m.reservedDelta else 0) = _
    cases hm : m.movementType <;> simp [InventoryMovement.reservedDelta, hm]

/-- A line has one movement of each type that belongs to its phase, and no other.  There is one
    because the line is in its phase, and no second one because the key of a movement names its
    line. -/
theorem movementCount_eq (h : Books D) {line : OrderItem} (hline : line ∈ D.orderItems)
    {t : InventoryMovementType} (ht : t.ofLine = true) :
    D.movementCount line t = if t ∈ (D.linePhase line).movements then 1 else 0 := by
  have hmoved := h.allocated.moved line hline t ht
  have hunique : ∀ m ∈ D.inventoryMovements, ∀ m' ∈ D.inventoryMovements,
      m.isOf line t = true → m'.isOf line t = true → m = m' := by
    intro m hm m' hm' hof hof'
    simp only [InventoryMovement.isOf, decide_eq_true_eq] at hof hof'
    refine D.inventoryMovements.eq_of_unique_mem hm hm' (List.mem_singleton_self _) ?_
    show _ ∈ [(⟨.movementIdempotencyKey, [.text m'.idempotencyKey]⟩ : Unique)]
    rw [hof.2.2.2.2.1, hof'.2.2.2.2.1]
    exact List.mem_singleton_self _
  split
  · rename_i hin
    obtain ⟨m, hm, hof⟩ := hmoved.mpr hin
    have hfilter : D.inventoryMovements.rows.filter (fun m => m.isOf line t) = [m] := by
      refine (List.perm_singleton.mp ?_)
      refine (List.perm_ext_iff_of_nodup (D.inventoryMovements.nodup_rows.filter _)
        (List.nodup_singleton m)).mpr fun m' => ?_
      rw [List.mem_filter, List.mem_singleton]
      constructor
      · rintro ⟨hm', hof'⟩
        exact hunique m' hm' m hm hof' hof
      · rintro rfl
        exact ⟨hm, hof⟩
    rw [Db.movementCount, hfilter, List.length_singleton]
  · rename_i hnot
    rw [Db.movementCount, List.length_eq_zero_iff, List.filter_eq_nil_iff]
    intro m hm hof
    exact hnot (hmoved.mp ⟨m, hm, hof⟩)

end Books

/-! ## A purchase order to start from -/

/-- The policy of the reconciliation in the runs below. -/
def samplePolicy : WorkflowExecutionPolicy := ⟨3, 300, 30⟩

/-- Ten units are on their way, and nothing is in stock. -/
def sampleDb : Db where
  table
    | .supplierQuotes => .singleton
        { id := Uuid.ofNat 1, version := 1, productId := Uuid.ofNat 2, supplierId := Uuid.ofNat 3
          externalQuoteId := "Q-1", currency := "GBP", moq := 1, unitCost := 4, shippingCost := 0 }
    | .procurementRequests => .singleton
        { id := Uuid.ofNat 4, version := 1, productId := Uuid.ofNat 2
          selectedQuoteId := Uuid.ofNat 1, workflowRunId := some (Uuid.ofNat 5)
          requestedQuantity := 10, recommendedSellingPrice := none, createdAt := 0
          expectedArrivalAt := none, status := .shipped }
    | .purchaseOrders => .singleton
        { id := Uuid.ofNat 6, version := 1, procurementRequestId := Uuid.ofNat 4
          supplierId := Uuid.ofNat 3, poNumber := "PO-1", quantity := 10, receivedQuantity := 0
          totalAmount := 40, actualLandedCost := none, currency := "GBP", terms := .object []
          externalReference := none, status := .shipped, orderedAt := none, shippedAt := none
          receivedAt := none, expectedArrivalAt := none }
    | .workflowRuns => .singleton
        { id := Uuid.ofNat 5, version := 1, createdAt := 0, workflowName := "procurement"
          workflowVersion := 1, correlationId := Uuid.ofNat 7, sourceEventId := none
          idempotencyKey := none, status := .running, currentStep := none, attempts := 0
          nextRetryAt := none, error := none, checkpoints := .object [], maxAttempts := 3
          timeoutSeconds := 300, startedAt := none, deadlineAt := none, completedAt := none
          waitingApprovalId := none, costAmount := 0, costCurrency := none }
    | _ => ∅

/-- In the sample database nothing is in stock yet. -/
theorem sampleDb_emptyInventory : EmptyInventory sampleDb := ⟨rfl, rfl, rfl⟩

/-- The ten units of the purchase order arrive. -/
def sampleReceipt : StockCall :=
  .receive (Uuid.ofNat 6)
    { sku := "A", storageLocation := "main", quantityReceived := 10, landedUnitCost := none
      lowStockThreshold := 2, actor := "system", reason := "receipt"
      idempotencyKey := "receipt-1", receivedAt := none }

/-- Noon on a winter's day, in UTC. -/
def sampleTime : DateTime where
  date := ⟨2026, 1, 31, by decide, by decide, by decide⟩
  hour := 12
  minute := 0
  second := 0
  microsecond := 0
  offset := some 0
  hour_lt := by decide
  minute_lt := by decide
  second_lt := by decide
  microsecond_lt := by decide
  offset_lt := by simp

/-- A paid order with two lines on one SKU. -/
def sampleOrder : NormalizedMarketplaceOrder where
  contractVersion := 1
  marketplace := "amazon"
  marketplaceAccountId := "account"
  externalOrderId := "order-1"
  sourceEventId := "event-1"
  status := .paid
  currency := "GBP"
  totalAmount := ⟨false, 50, 0⟩
  customerReference := none
  shippingDetails := .object []
  orderedAt := sampleTime
  items :=
    [⟨"line-1", "A", 3, ⟨false, 10, 0⟩, ⟨false, 0, 0⟩, ⟨false, 0, 0⟩, by decide⟩,
      ⟨"line-2", "A", 2, ⟨false, 10, 0⟩, ⟨false, 0, 0⟩, ⟨false, 0, 0⟩, by decide⟩]
  items_nonempty := by decide

/-- The id the sample order gets when it is the second call: it is the third answer there. -/
def sampleOrderId : Uuid := Uuid.ofNat 2002

/-- The state after some calls on `sampleDb`, one after the other. -/
def sampleRun (calls : List StockCall) : Db :=
  afterCalls (@StockCall.run Digests.byEnding samplePolicy) Environment.numbered 0 calls
    sampleDb

/-! ## The warehouse is sound -/

section Sound

variable [Digests] {policy : WorkflowExecutionPolicy} {D₀ : Db}
variable {sys : System Db (Write TableName.Entity) DbLock Environment Error Unit StockCall}

/-- **No oversell.**  In every reachable state the reserved counter of an item lies between zero and
    the stock on hand, and is what the open orders hold of the item; no session is about to report
    that reserved stock is missing, and no status change made now would. -/
theorem no_oversell (h₀ : EmptyInventory D₀) (h : System.Reachable (warehouse policy) D₀ sys) :
    (∀ item ∈ sys.committed.inventoryItems,
      0 ≤ item.reservedQuantity ∧ item.reservedQuantity ≤ item.quantityOnHand ∧
        item.reservedQuantity = Db.openQuantity sys.committed item.id) ∧
      (∀ i c e ws ls, sys.slots i = .running c (.raise e) ws ls → ¬e.isStockError) ∧
      ∀ orderId target actor reason e,
        (OrderService.updateStatus none orderId target actor reason).runs sys.committed
          (.error e) → ¬e.isStockError := by
  have hbooks := books_of_reachable h₀ h
  refine ⟨?_, ?_, ?_⟩
  · intro item hitem
    obtain ⟨hlow, hhigh⟩ := hbooks.ledger.bounds item hitem
    exact ⟨hlow, hhigh, hbooks.reserved_eq hitem⟩
  · intro i c e ws ls hi
    exact h.not_bad (warehouseContract policy h₀) hi
  · intro orderId target actor reason e hrun
    have hensures : (OrderService.updateStatus none orderId target actor reason).ensures
        Error.isStockError ⟨[], sys.committed, sys.committed⟩ fun _ pt => Books pt.view :=
      OrderService.updateStatus_ensures hbooks orderId target actor reason
    exact (Prog.post_iff.mp (Prog.post_of_ensures hensures)).2 e hrun

omit [Digests] in
/-- Ten units received and five ordered: the books show five reserved. -/
theorem no_oversell_sample :
    ∃ sys, System.Reachable (@warehouse Digests.byEnding samplePolicy) sampleDb sys ∧
      ((sys.committed.inventoryItems.rows.map fun i => (i.quantityOnHand, i.reservedQuantity)) =
        [(10, 5)]) ∧
      ∀ item ∈ sys.committed.inventoryItems,
        item.reservedQuantity = Db.openQuantity sys.committed item.id := by
  obtain ⟨sys, h, hD⟩ := System.Reachable.sequential Environment.numbered sampleReceipt
    [.ingest sampleOrder] sampleDb
  refine ⟨sys, h, ?_, fun item hitem => ?_⟩
  · rw [hD]
    decide +kernel
  · exact ((@no_oversell Digests.byEnding _ _ _ sampleDb_emptyInventory h).1 item hitem).2.2

/-- **The ledger explains the balances.**  In every reachable state both counters of an item are
    the sums of its movements, and every order line has one reservation, a release exactly if its
    order is cancelled, and a shipment exactly if it has left the warehouse. -/
theorem ledger_explains_balances (h₀ : EmptyInventory D₀)
    (h : System.Reachable (warehouse policy) D₀ sys) :
    (∀ item ∈ sys.committed.inventoryItems,
      item.quantityOnHand =
          Db.ledgerSum sys.committed item.id [.receipt, .adjustment, .shipment] ∧
        item.reservedQuantity =
          Db.ledgerSum sys.committed item.id [.reservation, .release, .shipment]) ∧
      ∀ line ∈ sys.committed.orderItems, ∃ order,
        sys.committed.orders.get line.orderId = some order ∧
          sys.committed.movementCount line .reservation = 1 ∧
          sys.committed.movementCount line .release =
            (if order.status = .cancelled then 1 else 0) ∧
          sys.committed.movementCount line .shipment =
            (if order.status.isShipped then 1 else 0) ∧
          sys.committed.movementCount line .release +
            sys.committed.movementCount line .shipment ≤ 1 := by
  have hbooks := books_of_reachable h₀ h
  refine ⟨fun item hitem => hbooks.ledger_eq hitem, fun line hline => ?_⟩
  obtain ⟨order, horder⟩ := hbooks.lineOrder line hline
  refine ⟨order, horder, ?_⟩
  have hcount := fun t ht => hbooks.movementCount_eq hline (t := t) ht
  rw [hcount .reservation rfl, hcount .release rfl, hcount .shipment rfl,
    Db.linePhase_of_get horder]
  cases order.status <;> decide

omit [Digests] in
/-- Dispatched, each of the two lines has its shipment. -/
theorem ledger_explains_balances_sample :
    ∃ sys, System.Reachable (@warehouse Digests.byEnding samplePolicy) sampleDb sys ∧
      ((sys.committed.orderItems.rows.map fun line =>
        sys.committed.movementCount line .shipment) = [1, 1]) ∧
      ∀ item ∈ sys.committed.inventoryItems,
        item.quantityOnHand =
            Db.ledgerSum sys.committed item.id [.receipt, .adjustment, .shipment] ∧
          item.reservedQuantity =
            Db.ledgerSum sys.committed item.id [.reservation, .release, .shipment] := by
  obtain ⟨sys, h, hD⟩ := System.Reachable.sequential Environment.numbered sampleReceipt
    [.ingest sampleOrder, .updateStatus sampleOrderId .processing "system" "picked",
      .updateStatus sampleOrderId .dispatched "system" "sent"] sampleDb
  refine ⟨sys, h, ?_,
    (@ledger_explains_balances Digests.byEnding _ _ _ sampleDb_emptyInventory h).1⟩
  rw [hD]
  decide +kernel

end Sound

end CommerceOperations
