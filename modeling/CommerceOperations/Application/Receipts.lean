/-
  What a goods receipt and an adjustment do.

  A call under a key that is in use returns the movement stored there; any other call writes the
  item, the purchase order and a movement, in this order, and records the change.  `Received` and
  `Adjusted` name the states in between, with every guard that has been passed and every constraint
  that has been met on the way.

  These two are inversion lemmas: the invariants of the books, of the goods, of the costs and of
  the outbox all start from them, and none unfolds `receive` or `adjust` again.
-/
import CommerceOperations.Application.Inventory

namespace CommerceOperations

open Relational Prog

namespace InventoryService

/-! ## Receipts -/

/-- The item a receipt goes into: found at its place, or created there. -/
inductive ReceivingItem (command : Receipt) (purchaseOrder : PurchaseOrder)
    (procurement : ProcurementRequest) (item : InventoryItem) (D D' : Db) : Prop
  /-- it is stored under the SKU and location -/
  | stored (hget : D.inventoryItems.get item.id = some item)
    (hplace : item.sku = command.sku ∧ item.storageLocation = command.storageLocation)
    (hproduct : item.productId = procurement.productId)
    (hcurrency : item.currency = purchaseOrder.currency) (hD : D' = D)
  /-- it is new -/
  | created (id : Uuid)
    (hitem : item =
      { id
        version := 1
        productId := procurement.productId
        sku := command.sku
        storageLocation := command.storageLocation
        quantityOnHand := 0
        reservedQuantity := 0
        costBasis := 0
        currency := purchaseOrder.currency
        lowStockThreshold := command.lowStockThreshold })
    (hnone : ∀ i ∈ D.inventoryItems,
      ¬(i.sku = command.sku ∧ i.storageLocation = command.storageLocation))
    (hconflicts : D.inventoryItems.conflicts item = false)
    (hD : D' = Database.apply ⟨.inventoryItems, .insert item⟩ D)

section Item

variable {command : Receipt} {purchaseOrder : PurchaseOrder} {procurement : ProcurementRequest}
variable {item : InventoryItem} {D D' : Db}

/-- What the lookup of a receipt returns is such an item. -/
theorem receivingItem_runs
    (h : (receivingItem command purchaseOrder procurement).runs D (.ok (item, D'))) :
    ReceivingItem command purchaseOrder procurement item D D' := by
  obtain ⟨found, D₁, hselect, h₁⟩ := runs_bind_ok.mp h
  obtain ⟨hfound, rfl⟩ := runs_selectForUpdate.mp hselect
  cases found with
  | none =>
    obtain ⟨id, D₂, ⟨env, hid⟩, h₂⟩ := runs_bind_ok.mp h₁
    cases hid
    obtain ⟨hitem, hconflicts, rfl⟩ := runs_insert.mp h₂
    refine .created env.uuid4 hitem (fun i hi hplace => ?_) (by rw [hitem]; exact hconflicts)
      (by rw [hitem])
    simpa [hplace] using List.find?_eq_none.mp hfound.symm i hi
  | some stored =>
    obtain ⟨_, D₂, hcheck₁, h₂⟩ := runs_bind_ok.mp h₁
    obtain ⟨hproduct, rfl⟩ := Tx.runs_require.mp hcheck₁
    obtain ⟨_, D₃, hcheck₂, h₃⟩ := runs_bind_ok.mp h₂
    obtain ⟨hcurrency, rfl⟩ := Tx.runs_require.mp hcheck₂
    cases h₃
    refine .stored (Table.get_of_mem (List.mem_of_find?_eq_some hfound.symm)) ?_ hproduct
      hcurrency rfl
    simpa using List.find?_some hfound.symm

namespace ReceivingItem

/-- In the state it leaves, the item is current. -/
theorem get (h : ReceivingItem command purchaseOrder procurement item D D') :
    D'.inventoryItems.get item.id = some item := by
  cases h with
  | stored hget _ _ _ hD =>
    rw [hD]
    exact hget
  | created id _ _ hconflicts hD =>
    rw [hD]
    exact (Table.get_insert hconflicts item.id).trans (if_pos rfl)

/-- The item lies where the receipt says, and is the product that was ordered, in the currency of
    the purchase order. -/
theorem place (h : ReceivingItem command purchaseOrder procurement item D D') :
    item.sku = command.sku ∧ item.storageLocation = command.storageLocation ∧
      item.productId = procurement.productId ∧ item.currency = purchaseOrder.currency := by
  cases h with
  | stored _ hplace hproduct hcurrency _ => exact ⟨hplace.1, hplace.2, hproduct, hcurrency⟩
  | created id hitem _ _ _ =>
    rw [hitem]
    exact ⟨rfl, rfl, rfl, rfl⟩

/-- Finding or creating it writes no other table. -/
theorem sameOff (h : ReceivingItem command purchaseOrder procurement item D D') :
    Database.SameOff (· = .inventoryItems) D D' := by
  cases h with
  | stored _ _ _ _ hD =>
    rw [hD]
    exact Database.SameOff.refl _ D
  | created id _ _ _ hD =>
    rw [hD]
    exact Database.SameOff.apply _ D rfl

end ReceivingItem

end Item

/-- The states of a receipt that is not a repetition: `D` before it, `D₁` once its item is there,
    `D₂` when the change is recorded, and `D'` after it. -/
structure Received (purchaseOrderId : Uuid) (command : Receipt) (purchaseOrder : PurchaseOrder)
    (procurement : ProcurementRequest) (quote : SupplierQuote) (workflow : WorkflowRun)
    (item changed : InventoryItem) (ordered : PurchaseOrder) (movement : InventoryMovement)
    (D D₁ D₂ D' : Db) : Prop where
  /-- the purchase order is on record -/
  purchaseOrder_get : D.purchaseOrders.get purchaseOrderId = some purchaseOrder
  /-- and on its way -/
  shipped : purchaseOrder.status = .shipped
  /-- something arrives -/
  quantity_pos : 0 < command.quantityReceived
  /-- and no more than is still missing -/
  quantity_le : command.quantityReceived ≤ purchaseOrder.quantity - purchaseOrder.receivedQuantity
  /-- the request behind the purchase order is on record -/
  procurement_get : D.procurementRequests.get purchaseOrder.procurementRequestId = some procurement
  /-- and the quote it was ordered by -/
  quote_get : D.supplierQuotes.get procurement.selectedQuoteId = some quote
  /-- the item is found or created -/
  receiving : ReceivingItem command purchaseOrder procurement item D D₁
  /-- no more is reserved than will be on hand -/
  bound : item.reservedQuantity ≤ item.quantityOnHand + command.quantityReceived
  /-- the item is written -/
  changed_eq : ∃ costBasis, changed =
    { item with
      version := item.version + 1
      quantityOnHand := item.quantityOnHand + command.quantityReceived
      costBasis }
  /-- its cost basis is the weighted average -/
  basis_eq : 0 ≤ command.landedUnitCost.getD quote.unitCost ∧ changed.costBasis =
    money (averageCost item.quantityOnHand item.costBasis command.quantityReceived
      (command.landedUnitCost.getD quote.unitCost))
  /-- it had not been changed meanwhile -/
  changed_succeeds : D₁.inventoryItems.succeeds item changed = true
  /-- and no constraint is violated -/
  changed_clashes : D₁.inventoryItems.clashes item changed = false
  /-- the purchase order is written -/
  ordered_eq : ordered =
    { purchaseOrder with
      version := purchaseOrder.version + 1
      receivedQuantity := purchaseOrder.receivedQuantity + command.quantityReceived
      actualLandedCost :=
        some (money (purchaseOrder.actualLandedCost.getD 0 +
          command.landedUnitCost.getD quote.unitCost * command.quantityReceived)) }
  /-- it had not been changed meanwhile -/
  ordered_succeeds : D₁.purchaseOrders.succeeds purchaseOrder ordered = true
  /-- and no constraint is violated -/
  ordered_clashes : D₁.purchaseOrders.clashes purchaseOrder ordered = false
  /-- the movement is posted -/
  movement_eq : ∃ id, movement =
    { id
      version := 1
      inventoryItemId := item.id
      purchaseOrderId := some purchaseOrder.id
      movementType := .receipt
      quantityDelta := command.quantityReceived
      unitCost := some (money (command.landedUnitCost.getD quote.unitCost))
      reason := command.reason
      sourceType := "purchase_order"
      sourceId := purchaseOrder.id.text
      idempotencyKey := command.idempotencyKey }
  /-- under a key that is not in use -/
  movement_conflicts : D₁.inventoryMovements.conflicts movement = false
  /-- the run of the request is on record -/
  workflow_get : procurement.workflowRunId.bind D.workflowRuns.get = some workflow
  /-- the change is recorded -/
  recorded : (recordChange changed movement command.actor item.availableQuantity true
    (some workflow)).runs
      (Database.apply ⟨.inventoryMovements, .insert movement⟩
        (Database.apply ⟨.purchaseOrders, .update purchaseOrder ordered⟩
          (Database.apply ⟨.inventoryItems, .update item changed⟩ D₁))) (.ok ((), D₂))
  /-- the request is closed when all is there -/
  finished :
    (ordered.receivedQuantity = ordered.quantity ∧ ∃ now request,
        (ProcurementService.markReceived (some procurement) procurement.id command.actor
          "Purchase order fully received" (command.receivedAt.getD now)).runs D₂
            (.ok (request, D'))) ∨
      (ordered.receivedQuantity ≠ ordered.quantity ∧ D' = D₂)

namespace Received

variable {purchaseOrderId : Uuid} {command : Receipt} {purchaseOrder ordered : PurchaseOrder}
variable {procurement : ProcurementRequest} {quote : SupplierQuote} {workflow : WorkflowRun}
variable {item changed : InventoryItem} {movement : InventoryMovement} {D D₁ D₂ D' : Db}

/-- What follows the movement writes no stock table. -/
theorem sameAfter (h : Received purchaseOrderId command purchaseOrder procurement quote workflow
    item changed ordered movement D D₁ D₂ D') :
    Database.SameOff (· ∈ [TableName.procurementRequests, .purchaseOrders, .workflowRuns,
        .auditEvents, .domainEvents])
      (Database.apply ⟨.inventoryMovements, .insert movement⟩
        (Database.apply ⟨.purchaseOrders, .update purchaseOrder ordered⟩
          (Database.apply ⟨.inventoryItems, .update item changed⟩ D₁))) D' := by
  have hrecorded : Database.SameOff (· ∈ [TableName.procurementRequests, .purchaseOrders,
      .workflowRuns, .auditEvents, .domainEvents])
        (Database.apply ⟨.inventoryMovements, .insert movement⟩
          (Database.apply ⟨.purchaseOrders, .update purchaseOrder ordered⟩
            (Database.apply ⟨.inventoryItems, .update item changed⟩ D₁))) D₂ :=
    sameOff_of_runs (Tx.confined_mono recordChange_confined (by decide)) h.recorded
  rcases h.finished with ⟨-, now, request, hmark⟩ | ⟨-, rfl⟩
  · exact hrecorded.trans (sameOff_of_runs ProcurementService.markReceived_confined hmark)
  · exact hrecorded

/-- The receipt writes one item and posts one movement. -/
theorem stock (h : Received purchaseOrderId command purchaseOrder procurement quote workflow
    item changed ordered movement D D₁ D₂ D') :
    Db.inventoryItems D' = (Db.inventoryItems D₁).update item changed ∧
      Db.inventoryMovements D' = D.inventoryMovements.insert movement ∧
      Db.orderItems D' = D.orderItems := by
  have hafter := h.sameAfter
  have hbefore := h.receiving.sameOff
  have hmovements : Db.inventoryMovements D₁ = D.inventoryMovements :=
    hbefore .inventoryMovements (by decide)
  refine ⟨hafter .inventoryItems (by decide), ?_, ?_⟩
  · refine (hafter .inventoryMovements (by decide)).trans ?_
    show (Db.inventoryMovements D₁).insert movement = _
    rw [hmovements]
  · exact (hafter .orderItems (by decide)).trans (hbefore .orderItems (by decide))

end Received

/-- The average is computed, once the unit cost has been found not to be negative. -/
theorem weightedCostBasis_runs {quantity added : Int} {basis unitCost cost : Rat} {D D' : Db}
    (h : (weightedCostBasis quantity basis added unitCost).runs D (.ok (cost, D'))) :
    D = D' ∧ 0 ≤ unitCost ∧ cost = averageCost quantity basis added unitCost := by
  unfold weightedCostBasis at h
  split_ifs at h with hadded hcost
  · exact nomatch h
  · exact nomatch h
  · cases h
    exact ⟨rfl, not_lt.mp hcost, rfl⟩

/-- The balance is computed, once the change has been found to leave what is reserved. -/
theorem applyQuantityChange_runs {onHand reserved delta : Int} {balance : InventoryBalance}
    {D D' : Db} (h : (applyQuantityChange onHand reserved delta).runs D (.ok (balance, D'))) :
    delta ≠ 0 ∧ reserved ≤ onHand + delta ∧ balance = ⟨onHand + delta, reserved⟩ ∧ D = D' := by
  unfold applyQuantityChange at h
  split_ifs at h with hzero hnegative hreserved
  · exact nomatch h
  · exact nomatch h
  · exact nomatch h
  · cases h
    exact ⟨hzero, by omega, rfl, rfl⟩

/-- An item that is current is written with a new balance. -/
theorem flushItem_runs {item changed : InventoryItem} {onHand : Int} {costBasis : Rat} {D D' : Db}
    (hcur : D.inventoryItems.get item.id = some item) (hne : onHand ≠ item.quantityOnHand)
    (h : (flush .inventoryItems item
      { item with quantityOnHand := onHand, costBasis }).runs D (.ok (changed, D'))) :
    changed = { item with version := item.version + 1, quantityOnHand := onHand, costBasis } ∧
      D.inventoryItems.succeeds item changed = true ∧
        D.inventoryItems.clashes item changed = false ∧
          D' = Database.apply ⟨.inventoryItems, .update item changed⟩ D := by
  have hid : InventoryItem.id { item with quantityOnHand := onHand, costBasis } = item.id := rfl
  rcases runs_flush (by exact hid) (by rfl) hcur h with ⟨heq, -, -⟩ | ⟨-, hrow, hs, hc, hD⟩
  · exact absurd (congrArg InventoryItem.quantityOnHand heq) hne
  · exact ⟨hrow, hs, hc, hD⟩

/-- A receipt that returns has gone through the states of `Received`.  The proof follows the calls
    one by one, and collects what each of them has checked. -/
theorem receiveNew_runs {purchaseOrderId : Uuid} {command : Receipt}
    {result : InventoryChangeResult} {D D' : Db}
    (h : (receiveNew purchaseOrderId command).runs D (.ok (result, D'))) :
    ∃ purchaseOrder procurement quote workflow item changed ordered D₁ D₂,
      Received purchaseOrderId command purchaseOrder procurement quote workflow item changed ordered
        result.movement D D₁ D₂ D' ∧ result.inventoryItemId = item.id := by
  -- the purchase order and its guards: shipped, a positive quantity, not more than is open
  obtain ⟨found, D₁, hselect, h₁⟩ := runs_bind_ok.mp h
  obtain ⟨hfound, rfl⟩ := runs_selectForUpdate.mp hselect
  obtain ⟨purchaseOrder, D₂, hthrow₁, h₂⟩ := runs_bind_ok.mp h₁
  obtain ⟨hfound₁, rfl⟩ := Tx.runs_orThrow.mp hthrow₁
  obtain ⟨_, D₃, hcheck₁, h₃⟩ := runs_bind_ok.mp h₂
  obtain ⟨hshipped, rfl⟩ := Tx.runs_require.mp hcheck₁
  obtain ⟨_, D₄, hcheck₂, h₄⟩ := runs_bind_ok.mp h₃
  obtain ⟨hpos, rfl⟩ := Tx.runs_require.mp hcheck₂
  obtain ⟨_, D₅, hcheck₃, h₅⟩ := runs_bind_ok.mp h₄
  obtain ⟨hle, rfl⟩ := Tx.runs_require.mp hcheck₃
  obtain ⟨found₁, D₆, hselect₁, h₆⟩ := runs_bind_ok.mp h₅
  obtain ⟨hfound₂, rfl⟩ := Tx.runs_select.mp hselect₁
  obtain ⟨procurement, D₇, hthrow₂, h₇⟩ := runs_bind_ok.mp h₆
  obtain ⟨hprocurement, rfl⟩ := Tx.runs_orThrow.mp hthrow₂
  obtain ⟨found₂, D₈, hselect₂, h₈⟩ := runs_bind_ok.mp h₇
  obtain ⟨hfound₃, rfl⟩ := Tx.runs_select.mp hselect₂
  obtain ⟨quote, D₉, hthrow₃, h₉⟩ := runs_bind_ok.mp h₈
  obtain ⟨hquote, rfl⟩ := Tx.runs_orThrow.mp hthrow₃
  -- the item, which may have been created for the receipt, and its new cost and quantity
  obtain ⟨item, E, hitem, h₁₀⟩ := runs_bind_ok.mp h₉
  have hreceiving := receivingItem_runs hitem
  obtain ⟨newCostBasis, E₁, hcost, h₁₁⟩ := runs_bind_ok.mp h₁₀
  obtain ⟨rfl, hnonneg, rfl⟩ := weightedCostBasis_runs hcost
  obtain ⟨balance, E₂, hbalance, h₁₂⟩ := runs_bind_ok.mp h₁₁
  obtain ⟨hzero, hbound, rfl, rfl⟩ := applyQuantityChange_runs hbalance
  obtain ⟨changed, E₃, hflush, h₁₃⟩ := runs_bind_ok.mp h₁₂
  have hne : item.quantityOnHand + command.quantityReceived ≠ item.quantityOnHand := by omega
  obtain ⟨hchanged, hs, hc, rfl⟩ := flushItem_runs hreceiving.get hne hflush
  obtain ⟨ordered, E₄, hflush₁, h₁₄⟩ := runs_bind_ok.mp h₁₃
  -- nothing so far has touched the purchase order, so its flush finds the row that was read
  have hpo : D.purchaseOrders.get purchaseOrderId = some purchaseOrder := hfound.symm.trans hfound₁
  have hid : purchaseOrder.id = purchaseOrderId := Table.key_of_get hpo
  have hsame : ∀ i, i ≠ .inventoryItems → E.table i = D.table i := hreceiving.sameOff
  have hpo₁ : (Db.purchaseOrders (Database.apply ⟨.inventoryItems, .update item changed⟩ E)).get
      purchaseOrder.id = some purchaseOrder := by
    show (Db.purchaseOrders E).get _ = _
    rw [show Db.purchaseOrders E = D.purchaseOrders from hsame .purchaseOrders (by decide), hid]
    exact hpo
  obtain ⟨hordered, hs₁, hc₁, rfl⟩ : ordered =
        { purchaseOrder with
          version := purchaseOrder.version + 1
          receivedQuantity := purchaseOrder.receivedQuantity + command.quantityReceived
          actualLandedCost :=
            some (money (purchaseOrder.actualLandedCost.getD 0 +
              command.landedUnitCost.getD quote.unitCost * command.quantityReceived)) } ∧
      (Db.purchaseOrders E).succeeds purchaseOrder ordered = true ∧
        (Db.purchaseOrders E).clashes purchaseOrder ordered = false ∧
          E₄ = Database.apply ⟨.purchaseOrders, .update purchaseOrder ordered⟩
            (Database.apply ⟨.inventoryItems, .update item changed⟩ E) := by
    rcases runs_flush (by rfl) (by rfl) hpo₁ hflush₁ with ⟨heq, -, -⟩ | ⟨-, hrow, hs₁, hc₁, hD⟩
    -- something arrives, so the flush is not the one that writes nothing
    · have hreceived := congrArg PurchaseOrder.receivedQuantity heq
      dsimp only at hreceived
      omega
    · exact ⟨hrow, hs₁, hc₁, hD⟩
  -- the movement, and the run it is recorded for
  obtain ⟨id, E₅, ⟨env, henv⟩, h₁₅⟩ := runs_bind_ok.mp h₁₄
  cases henv
  obtain ⟨movement, E₆, hadd, h₁₆⟩ := runs_bind_ok.mp h₁₅
  obtain ⟨hmovement, hconflicts, hE₆⟩ := runs_insert.mp hadd
  rw [← hmovement] at hconflicts hE₆
  subst hE₆
  rw [show ordered.id = purchaseOrder.id by rw [hordered]] at hmovement
  obtain ⟨workflow, E₇, hworkflow, h₁₇⟩ := runs_bind_ok.mp h₁₆
  obtain ⟨found₃, E₈, hselect₃, hthrow₄⟩ := runs_bind_ok.mp hworkflow
  obtain ⟨hfound₄, rfl⟩ := Tx.runs_select.mp hselect₃
  obtain ⟨hget, rfl⟩ := Tx.runs_orThrow.mp hthrow₄
  obtain ⟨_, E₉, hrecord, h₁₈⟩ := runs_bind_ok.mp h₁₇
  have hruns : Db.workflowRuns E = D.workflowRuns := hsame .workflowRuns (by decide)
  have hreceived : result.movement = movement → result.inventoryItemId = item.id →
      ((ordered.receivedQuantity = ordered.quantity ∧ ∃ now request,
          (ProcurementService.markReceived (some procurement) procurement.id command.actor
            "Purchase order fully received" (command.receivedAt.getD now)).runs E₉
              (.ok (request, D'))) ∨
        (ordered.receivedQuantity ≠ ordered.quantity ∧ D' = E₉)) →
      ∃ purchaseOrder procurement quote workflow item changed ordered D₁ D₂,
        Received purchaseOrderId command purchaseOrder procurement quote workflow item changed
          ordered result.movement D D₁ D₂ D' ∧ result.inventoryItemId = item.id := by
    intro hresult hresultItem hfinished
    refine ⟨purchaseOrder, procurement, quote, workflow, item, changed, ordered, E, E₉, ?_,
      hresultItem⟩
    rw [hresult]
    refine ⟨hpo, hshipped, hpos, hle, hfound₂.symm.trans hprocurement, hfound₃.symm.trans hquote,
      hreceiving, hbound, ⟨_, hchanged⟩, ⟨hnonneg, by rw [hchanged]⟩, hs, hc, hordered, hs₁, hc₁,
        ⟨env.uuid4, hmovement⟩,
      hconflicts, ?_, hrecord, hfinished⟩
    rw [← hruns]
    exact hfound₄.symm.trans hget
  -- the procurement request follows only when nothing of the order is open any more
  extract_lets finish at h₁₈
  split at h₁₈
  · rename_i hfull
    obtain ⟨now, E₁₀, ⟨env', henv'⟩, h₁₉⟩ := runs_bind_ok.mp h₁₈
    cases henv'
    obtain ⟨request, E₁₁, hmark, h₂₀⟩ := runs_bind_ok.mp h₁₉
    cases h₂₀
    exact hreceived rfl rfl (Or.inl ⟨hfull, env'.now, request, hmark⟩)
  · rename_i hpart
    cases h₁₈
    exact hreceived rfl rfl (Or.inr ⟨hpart, rfl⟩)

/-- **A receipt** under a key in use returns what is stored there; under a fresh one it goes
    through the states of `Received`. -/
theorem receive_runs {purchaseOrderId : Uuid} {command : Receipt} {result : InventoryChangeResult}
    {D D' : Db} (h : (receive purchaseOrderId command).runs D (.ok (result, D'))) :
    (result.movement ∈ D.inventoryMovements ∧
        result.movement.idempotencyKey = command.idempotencyKey ∧
        result.movement.purchaseOrderId = some purchaseOrderId ∧
        result.movement.quantityDelta = command.quantityReceived ∧
        result.movement.movementType = .receipt ∧ D' = D) ∨
      ((∀ m ∈ D.inventoryMovements, m.idempotencyKey ≠ command.idempotencyKey) ∧
        ∃ purchaseOrder procurement quote workflow item changed ordered D₁ D₂,
          Received purchaseOrderId command purchaseOrder procurement quote workflow item changed
            ordered result.movement D D₁ D₂ D' ∧ result.inventoryItemId = item.id) := by
  obtain ⟨existing, D₁, hselect, h₁⟩ := runs_bind_ok.mp h
  obtain ⟨hfound, rfl⟩ := Tx.runs_select.mp hselect
  cases existing with
  | some m =>
    obtain ⟨_, D₂, hrequire, h₂⟩ := runs_bind_ok.mp h₁
    obtain ⟨⟨hpo, hquantity, htype⟩, rfl⟩ := Tx.runs_require.mp hrequire
    cases h₂
    refine Or.inl ⟨List.mem_of_find?_eq_some hfound.symm, ?_, hpo, hquantity, htype, rfl⟩
    simpa using List.find?_some hfound.symm
  | none =>
    refine Or.inr ⟨fun m hm => ?_, receiveNew_runs h₁⟩
    simpa using List.find?_eq_none.mp hfound.symm m hm

/-! ## Adjustments -/

/-- The states of an adjustment that is not a repetition: `D` before it and `D'` after it. -/
structure Adjusted (inventoryItemId : Uuid) (command : Adjustment) (item changed : InventoryItem)
    (movement : InventoryMovement) (D D' : Db) : Prop where
  /-- the item is on record -/
  item_get : D.inventoryItems.get inventoryItemId = some item
  /-- something changes -/
  delta_ne : command.quantityDelta ≠ 0
  /-- no more is reserved than will be on hand -/
  bound : item.reservedQuantity ≤ item.quantityOnHand + command.quantityDelta
  /-- the item is written -/
  changed_eq : ∃ costBasis, changed =
    { item with
      version := item.version + 1
      quantityOnHand := item.quantityOnHand + command.quantityDelta
      costBasis }
  /-- its cost basis is the weighted average if units come in at a price, and stays otherwise -/
  basis_eq : match command.unitCost with
    | some unitCost =>
      if 0 < command.quantityDelta then
        0 ≤ unitCost ∧ changed.costBasis =
          money (averageCost item.quantityOnHand item.costBasis command.quantityDelta unitCost)
      else changed.costBasis = item.costBasis
    | none => changed.costBasis = item.costBasis
  /-- it had not been changed meanwhile -/
  changed_succeeds : D.inventoryItems.succeeds item changed = true
  /-- and no constraint is violated -/
  changed_clashes : D.inventoryItems.clashes item changed = false
  /-- the movement is posted -/
  movement_eq : ∃ id, movement =
    { id
      version := 1
      inventoryItemId := item.id
      purchaseOrderId := none
      movementType := .adjustment
      quantityDelta := command.quantityDelta
      unitCost := command.unitCost.map money
      reason := command.reason
      sourceType := "manual_adjustment"
      sourceId := item.id.text
      idempotencyKey := command.idempotencyKey }
  /-- under a key that is not in use -/
  movement_conflicts : D.inventoryMovements.conflicts movement = false
  /-- the change is recorded -/
  recorded : (recordChange changed movement command.actor item.availableQuantity false none).runs
    (Database.apply ⟨.inventoryMovements, .insert movement⟩
      (Database.apply ⟨.inventoryItems, .update item changed⟩ D)) (.ok ((), D'))

/-- The adjustment writes one item and posts one movement. -/
theorem Adjusted.stock {inventoryItemId : Uuid} {command : Adjustment}
    {item changed : InventoryItem} {movement : InventoryMovement} {D D' : Db}
    (h : Adjusted inventoryItemId command item changed movement D D') :
    D'.inventoryItems = D.inventoryItems.update item changed ∧
      D'.inventoryMovements = D.inventoryMovements.insert movement ∧
      D'.orderItems = D.orderItems := by
  have hrecorded := sameOff_of_runs recordChange_confined h.recorded
  exact ⟨hrecorded .inventoryItems (by decide), hrecorded .inventoryMovements (by decide),
    hrecorded .orderItems (by decide)⟩

/-- An adjustment that returns has gone through the states of `Adjusted`. -/
theorem adjustNew_runs {inventoryItemId : Uuid} {command : Adjustment}
    {result : InventoryChangeResult} {D D' : Db}
    (h : (adjustNew inventoryItemId command).runs D (.ok (result, D'))) :
    ∃ item changed, Adjusted inventoryItemId command item changed result.movement D D' ∧
      result.inventoryItemId = item.id := by
  obtain ⟨item, D₁, hitem, h₁⟩ := runs_bind_ok.mp h
  obtain ⟨found, D₂, hselect, hthrow⟩ := runs_bind_ok.mp hitem
  obtain ⟨hfound, rfl⟩ := runs_selectForUpdate.mp hselect
  obtain ⟨hfound₁, rfl⟩ := Tx.runs_orThrow.mp hthrow
  have hget : D.inventoryItems.get inventoryItemId = some item := hfound.symm.trans hfound₁
  have hid : item.id = inventoryItemId := Table.key_of_get hget
  have hcur : D.inventoryItems.get item.id = some item := by rw [hid]; exact hget
  obtain ⟨balance, D₃, hbalance, h₂⟩ := runs_bind_ok.mp h₁
  obtain ⟨hzero, hbound, rfl, rfl⟩ := applyQuantityChange_runs hbalance
  have hne : item.quantityOnHand + command.quantityDelta ≠ item.quantityOnHand := by omega
  -- the three branches write in the same way, each with its own cost basis
  extract_lets write at h₂
  have hwrite : ∀ costBasis, (match command.unitCost with
        | some unitCost =>
          if 0 < command.quantityDelta then
            0 ≤ unitCost ∧ costBasis =
              money (averageCost item.quantityOnHand item.costBasis command.quantityDelta unitCost)
          else costBasis = item.costBasis
        | none => costBasis = item.costBasis) → (write costBasis).runs D (.ok (result, D')) →
      ∃ item changed, Adjusted inventoryItemId command item changed result.movement D D' ∧
        result.inventoryItemId = item.id := by
    intro costBasis hbasis hrun
    obtain ⟨changed, D₄, hflush, h₃⟩ := runs_bind_ok.mp hrun
    obtain ⟨hchanged, hs, hc, rfl⟩ := flushItem_runs hcur hne hflush
    obtain ⟨id, D₅, ⟨env, henv⟩, h₄⟩ := runs_bind_ok.mp h₃
    cases henv
    obtain ⟨movement, D₆, hadd, h₅⟩ := runs_bind_ok.mp h₄
    obtain ⟨hmovement, hconflicts, hD₆⟩ := runs_insert.mp hadd
    rw [← hmovement] at hconflicts hD₆
    subst hD₆
    obtain ⟨_, D₇, hrecord, h₆⟩ := runs_bind_ok.mp h₅
    cases h₆
    have hcostBasis : changed.costBasis = costBasis := by rw [hchanged]
    rw [← hcostBasis] at hbasis
    exact ⟨item, changed, ⟨hget, hzero, hbound, ⟨_, hchanged⟩, hbasis, hs, hc,
      ⟨env.uuid4, hmovement⟩, hconflicts, hrecord⟩, rfl⟩
  cases hcost : command.unitCost with
  | none =>
    rw [hcost] at h₂ hwrite
    exact hwrite _ rfl h₂
  | some unitCost =>
    rw [hcost] at h₂ hwrite
    dsimp only at h₂ hwrite
    split at h₂
    · rename_i hpositive
      obtain ⟨basis, D₄, hbasis, h₃⟩ := runs_bind_ok.mp h₂
      obtain ⟨rfl, hnonneg, rfl⟩ := weightedCostBasis_runs hbasis
      refine hwrite _ ?_ h₃
      rw [if_pos hpositive]
      exact ⟨hnonneg, rfl⟩
    · rename_i hnegative
      refine hwrite _ ?_ h₂
      rw [if_neg hnegative]

/-- **An adjustment** under a key in use returns what is stored there, and under a fresh one goes
    through the states of `Adjusted`. -/
theorem adjust_cases {inventoryItemId : Uuid} {command : Adjustment}
    {result : InventoryChangeResult} {D D' : Db}
    (h : (adjust inventoryItemId command).runs D (.ok (result, D'))) :
    (result.movement ∈ D.inventoryMovements ∧
        result.movement.idempotencyKey = command.idempotencyKey ∧
        result.movement.inventoryItemId = inventoryItemId ∧
        result.movement.quantityDelta = command.quantityDelta ∧
        result.movement.movementType = .adjustment ∧ D' = D) ∨
      ((∀ m ∈ D.inventoryMovements, m.idempotencyKey ≠ command.idempotencyKey) ∧
        ∃ item changed, Adjusted inventoryItemId command item changed result.movement D D' ∧
          result.inventoryItemId = item.id) := by
  obtain ⟨existing, D₁, hselect, h₁⟩ := runs_bind_ok.mp h
  obtain ⟨hfound, rfl⟩ := Tx.runs_select.mp hselect
  cases existing with
  | some m =>
    obtain ⟨_, D₂, hrequire, h₂⟩ := runs_bind_ok.mp h₁
    obtain ⟨⟨hitem, hquantity, htype⟩, rfl⟩ := Tx.runs_require.mp hrequire
    cases h₂
    refine Or.inl ⟨List.mem_of_find?_eq_some hfound.symm, ?_, hitem, hquantity, htype, rfl⟩
    simpa using List.find?_some hfound.symm
  | none =>
    refine Or.inr ⟨fun m hm => ?_, adjustNew_runs h₁⟩
    simpa using List.find?_eq_none.mp hfound.symm m hm

end InventoryService

end CommerceOperations
