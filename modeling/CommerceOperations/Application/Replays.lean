/-
  Replays of stock changes.

  A receipt or an adjustment comes with an idempotency key.  Under a key in use the service compares
  some of what is asked with the movement stored there and returns that movement, or raises a
  conflict.  The SKU, the place and the unit cost of a receipt and the unit cost of an adjustment
  are not compared.

  * `StockChange.RecordedBy` — a movement records what a call asks for;
  * `StockChange.Accounted`  — what is accepted is recorded, and anything else is refused;
  * `StockChange.Faithful`   — the columns that are not compared agree as well.

  A call is accounted for exactly if it is faithful, on every state, and in a run of faithful calls
  the ledger holds what was accepted to the end.
-/
import CommerceOperations.Application.Goods

namespace CommerceOperations

open Relational Prog AutonomousOrchestrator

/-! ## Changes of stock -/

/-- A change of stock that is asked for. -/
inductive StockChange where
  | receive (purchaseOrderId : Uuid) (command : Receipt)
  | adjust (inventoryItemId : Uuid) (command : Adjustment)

/-- The unit cost in the quote of a purchase order. -/
def Db.quotedCost (D : Db) (purchaseOrderId : Uuid) : Option Rat := do
  let purchaseOrder ← D.purchaseOrders.get purchaseOrderId
  let procurement ← D.procurementRequests.get purchaseOrder.procurementRequestId
  let quote ← D.supplierQuotes.get procurement.selectedQuoteId
  pure quote.unitCost

/-- The quote that a receipt reads is the one of its purchase order: it is found through the same
    rows. -/
theorem InventoryService.Received.quotedCost {purchaseOrderId : Uuid} {command : Receipt}
    {purchaseOrder ordered : PurchaseOrder} {procurement : ProcurementRequest}
    {quote : SupplierQuote} {workflow : WorkflowRun} {item changed : InventoryItem}
    {movement : InventoryMovement} {D D₁ D₂ D' : Db}
    (h : Received purchaseOrderId command purchaseOrder procurement quote workflow item changed
      ordered movement D D₁ D₂ D') : D.quotedCost purchaseOrderId = some quote.unitCost := by
  simp [Db.quotedCost, h.purchaseOrder_get, h.procurement_get, h.quote_get]

namespace StockChange

/-- The key the call comes with. -/
def idempotencyKey : StockChange → String
  | receive _ command => command.idempotencyKey
  | adjust _ command => command.idempotencyKey

/-- The transaction of the call. -/
def run : StockChange → Tx InventoryChangeResult
  | receive purchaseOrderId command => InventoryService.receive purchaseOrderId command
  | adjust inventoryItemId command => InventoryService.adjust inventoryItemId command

/-- What it does under a key that is not in use. -/
def runNew : StockChange → Tx InventoryChangeResult
  | receive purchaseOrderId command => InventoryService.receiveNew purchaseOrderId command
  | adjust inventoryItemId command => InventoryService.adjustNew inventoryItemId command

/-- What the service compares with a movement stored under the key. -/
def Matches : StockChange → InventoryMovement → Prop
  | receive purchaseOrderId command, m =>
    m.purchaseOrderId = some purchaseOrderId ∧ m.quantityDelta = command.quantityReceived ∧
      m.movementType = .receipt
  | adjust inventoryItemId command, m =>
    m.inventoryItemId = inventoryItemId ∧ m.quantityDelta = command.quantityDelta ∧
      m.movementType = .adjustment

instance (c : StockChange) (m : InventoryMovement) : Decidable (c.Matches m) := by
  cases c <;> exact inferInstanceAs (Decidable (_ ∧ _))

/-- What it says when they differ. -/
def conflictMessage : StockChange → String
  | receive _ _ => "Receipt idempotency key was reused for different stock"
  | adjust _ _ => "Adjustment idempotency key was reused for a different change"

/-- The item of the movement lies where the change is asked for. -/
def IsAt (D : Db) : StockChange → InventoryMovement → Prop
  | receive _ command, m =>
    ∃ item, D.inventoryItems.get m.inventoryItemId = some item ∧ item.sku = command.sku ∧
      item.storageLocation = command.storageLocation
  | adjust inventoryItemId _, m => m.inventoryItemId = inventoryItemId

/-- The unit cost that is asked for in the state `D`: that of the command, for a receipt without
    one that of the quote. -/
def unitCost (D : Db) : StockChange → Option Rat
  | receive purchaseOrderId command => command.landedUnitCost <|> D.quotedCost purchaseOrderId
  | adjust _ command => command.unitCost

/-- The movement, in the state `D'`, records what was asked for in the state `D`.  The ledger keeps
    unit costs at the four decimals of its column. -/
structure RecordedBy (c : StockChange) (D D' : Db) (m : InventoryMovement) : Prop where
  /-- it has the key of the call -/
  key : m.idempotencyKey = c.idempotencyKey
  /-- what the service compares agrees -/
  compared : c.Matches m
  /-- so does the place -/
  place : c.IsAt D' m
  /-- and the unit cost -/
  cost : m.unitCost = (c.unitCost D).map money

/-- The ledger of `D'` holds one movement under the key, and it records what was asked for in the
    state `D`. -/
def RecordedOnce (c : StockChange) (D D' : Db) : Prop :=
  ∃ m ∈ D'.inventoryMovements, c.RecordedBy D D' m ∧
    ∀ m' ∈ D'.inventoryMovements, m'.idempotencyKey = c.idempotencyKey → m' = m

/-- The call is accounted for: if it returns, the ledger records it; if something else is recorded
    under its key, it is refused. -/
structure Accounted (c : StockChange) (D : Db) : Prop where
  /-- what is accepted is recorded -/
  recorded : ∀ result D', c.run.runs D (.ok (result, D')) → c.RecordedOnce D D'
  /-- and anything else under the key is refused as a conflict -/
  refused : ∀ m ∈ D.inventoryMovements, m.idempotencyKey = c.idempotencyKey →
    ¬c.RecordedBy D D m → ∀ r, c.run.runs D r →
      r = .error (.raised .inventoryIdempotencyConflict c.conflictMessage)

/-- A movement under the key that passes the comparison also has the place and the unit cost. -/
def Faithful (c : StockChange) (D : Db) : Prop :=
  ∀ m ∈ D.inventoryMovements, m.idempotencyKey = c.idempotencyKey → c.Matches m →
    c.IsAt D m ∧ m.unitCost = (c.unitCost D).map money

/-! ## One call -/

variable {c : StockChange} {D D' D'' : Db} {m : InventoryMovement}

/-- The ledger has one movement under a key. -/
theorem eq_of_key_eq {m' : InventoryMovement} (hm : m ∈ D.inventoryMovements)
    (hm' : m' ∈ D.inventoryMovements) (hkey : m'.idempotencyKey = m.idempotencyKey) : m' = m := by
  refine D.inventoryMovements.eq_of_unique_mem hm' hm List.mem_cons_self ?_
  rw [hkey]
  exact List.mem_cons_self

/-- Receipts and adjustments check their keys alike. -/
theorem run_eq (c : StockChange) : c.run = (do
    match ← InventoryService.existingMovement c.idempotencyKey with
    | some existing =>
      Tx.require (c.Matches existing) .inventoryIdempotencyConflict c.conflictMessage
      pure ⟨existing.inventoryItemId, existing, true⟩
    | none => c.runNew) := by
  cases c <;> rfl

/-- **A replay**: under a key in use the comparison decides. -/
theorem run_of_used (hm : m ∈ D.inventoryMovements) (hkey : m.idempotencyKey = c.idempotencyKey)
    {r : Except Error (InventoryChangeResult × Db)} :
    c.run.runs D r ↔
      r = if c.Matches m then .ok (⟨m.inventoryItemId, m, true⟩, D)
        else .error (.raised .inventoryIdempotencyConflict c.conflictMessage) := by
  have hfind : (D.inventoryMovements.rows.find? fun m => m.idempotencyKey = c.idempotencyKey) =
      some m := by
    cases hfound : D.inventoryMovements.rows.find? fun m => m.idempotencyKey = c.idempotencyKey with
    | none =>
      have hnone := List.find?_eq_none.mp hfound m hm
      simp [hkey] at hnone
    | some m' =>
      have hkey' : m'.idempotencyKey = c.idempotencyKey := by simpa using List.find?_some hfound
      rw [eq_of_key_eq hm (List.mem_of_find?_eq_some hfound) (hkey'.trans hkey.symm)]
  rw [run_eq]
  by_cases hmatch : c.Matches m
  · simp [InventoryService.existingMovement, Tx.select, Prog.query, Prog.runs, hfind, Tx.require,
      hmatch]
  · simp [InventoryService.existingMovement, Tx.select, Prog.query, Prog.runs, hfind, Tx.require,
      hmatch, Tx.throw]

/-- What a call that is no replay records is what it asks for. -/
theorem recordedBy_of_new (hfresh : ∀ m ∈ D.inventoryMovements,
      m.idempotencyKey ≠ c.idempotencyKey) {result : InventoryChangeResult}
    (hrun : c.run.runs D (.ok (result, D'))) :
    result.movement ∈ D'.inventoryMovements ∧ c.RecordedBy D D' result.movement := by
  cases c with
  -- a receipt: its place and its cost are those of the command, or of the quote
  | receive purchaseOrderId command =>
    rcases InventoryService.receive_runs hrun with ⟨hmem, hkey, -, -, -, -⟩ |
      ⟨-, purchaseOrder, procurement, quote, workflow, item, changed, ordered, D₁, D₂, hD, -⟩
    · exact absurd hkey (hfresh _ hmem)
    obtain ⟨-, hmovements, -⟩ := hD.stock
    obtain ⟨id, hmovement⟩ := hD.movement_eq
    have hconflicts := hD.movement_conflicts
    rw [show Db.inventoryMovements D₁ = D.inventoryMovements from
      hD.receiving.sameOff .inventoryMovements (by decide)] at hconflicts
    have hid : purchaseOrder.id = purchaseOrderId := Table.key_of_get hD.purchaseOrder_get
    refine ⟨?_, ?_, ⟨?_, ?_, ?_⟩, ?_, ?_⟩
    · rw [hmovements]
      exact (Table.mem_insert hconflicts).mpr (Or.inr rfl)
    · rw [hmovement]
      rfl
    · rw [hmovement, ← hid]
    · rw [hmovement]
    · rw [hmovement]
    · -- the item is the one found or created, and keeps its goods
      obtain ⟨item', hitem', hgoods⟩ := hD.sameGoods.get hD.receiving.get
      obtain ⟨hsku, hlocation, -, -⟩ := hD.receiving.place
      simp only [InventoryItem.goods, Prod.mk.injEq] at hgoods
      refine ⟨item', ?_, hgoods.1.trans hsku, hgoods.2.1.trans hlocation⟩
      rw [hmovement]
      exact hitem'
    · rw [hmovement]
      show _ = (command.landedUnitCost <|> D.quotedCost purchaseOrderId).map money
      rw [hD.quotedCost]
      cases command.landedUnitCost <;> rfl
  -- an adjustment: it names its item itself
  | adjust inventoryItemId command =>
    rcases InventoryService.adjust_cases hrun with ⟨hmem, hkey, -, -, -, -⟩ |
      ⟨-, item, changed, hD, -⟩
    · exact absurd hkey (hfresh _ hmem)
    obtain ⟨-, hmovements, -⟩ := hD.stock
    obtain ⟨id, hmovement⟩ := hD.movement_eq
    have hid : item.id = inventoryItemId := Table.key_of_get hD.item_get
    refine ⟨?_, ?_, ⟨?_, ?_, ?_⟩, ?_, ?_⟩
    · rw [hmovements]
      exact (Table.mem_insert hD.movement_conflicts).mpr (Or.inr rfl)
    · rw [hmovement]
      rfl
    · rw [hmovement]
      exact hid
    · rw [hmovement]
    · rw [hmovement]
    · rw [hmovement]
      exact hid
    · rw [hmovement]
      rfl

/-- **A call is accounted for exactly if it is faithful.**  Under a fresh key it always is; under a
    key in use the comparison decides, and the question is what it leaves out. -/
theorem accounted_iff : c.Accounted D ↔ c.Faithful D := by
  constructor
  · intro h m hm hkey hmatch
    by_contra hdiffers
    have hrun : c.run.runs D (.ok (⟨m.inventoryItemId, m, true⟩, D)) := by
      rw [run_of_used hm hkey, if_pos hmatch]
    refine nomatch h.refused m hm hkey ?_ _ hrun
    exact fun hrecorded => hdiffers ⟨hrecorded.place, hrecorded.cost⟩
  · intro h
    refine ⟨fun result D' hrun => ?_, fun m hm hkey hdiffers r hrun => ?_⟩
    · by_cases hused : ∃ m ∈ D.inventoryMovements, m.idempotencyKey = c.idempotencyKey
      · obtain ⟨m, hm, hkey⟩ := hused
        rw [run_of_used hm hkey] at hrun
        split at hrun
        · rename_i hmatch
          cases hrun
          obtain ⟨hplace, hcost⟩ := h m hm hkey hmatch
          exact ⟨m, hm, ⟨hkey, hmatch, hplace, hcost⟩, fun m' hm' hkey' =>
            eq_of_key_eq hm hm' (hkey'.trans hkey.symm)⟩
        · exact nomatch hrun
      · have hfresh : ∀ m ∈ D.inventoryMovements, m.idempotencyKey ≠ c.idempotencyKey :=
          fun m hm hkey => hused ⟨m, hm, hkey⟩
        obtain ⟨hmem, hrecorded⟩ := recordedBy_of_new hfresh hrun
        exact ⟨_, hmem, hrecorded, fun m' hm' hkey' =>
          eq_of_key_eq hmem hm' (hkey'.trans hrecorded.key.symm)⟩
    · rw [run_of_used hm hkey] at hrun
      split at hrun
      · rename_i hmatch
        obtain ⟨hplace, hcost⟩ := h m hm hkey hmatch
        exact absurd ⟨hkey, hmatch, hplace, hcost⟩ hdiffers
      · exact hrun

/-- What is recorded stays recorded: no movement is lost, and no other comes under its key. -/
theorem RecordedOnce.kept (h : c.RecordedOnce D D') (hkept : GoodsKept D' D'') :
    c.RecordedOnce D D'' := by
  obtain ⟨m, hm, hrecorded, -⟩ := h
  have hm' := hkept.movement m hm
  refine ⟨m, hm', ⟨hrecorded.key, hrecorded.compared, ?_, hrecorded.cost⟩, fun m' hm'' hkey =>
    eq_of_key_eq hm' hm'' (hkey.trans hrecorded.key.symm)⟩
  cases c with
  | receive purchaseOrderId command =>
    obtain ⟨item, hitem, hsku, hlocation⟩ := hrecorded.place
    obtain ⟨item', hitem', hgoods⟩ := hkept.item _ item hitem
    simp only [InventoryItem.goods, Prod.mk.injEq] at hgoods
    exact ⟨item', hitem', hgoods.1.trans hsku, hgoods.2.1.trans hlocation⟩
  | adjust inventoryItemId command => exact hrecorded.place

/-- A change of stock loses no movement, and leaves every item the goods it is. -/
theorem run_keeps (c : StockChange) : c.run.keeps GoodsKept := by
  cases c with
  | receive purchaseOrderId command => exact InventoryService.receive_keeps _ _
  | adjust inventoryItemId command =>
    exact keeps_mono (InventoryService.adjust_keeps _ _ fun _ _ _ _ _ => rfl) fun _ _ h =>
      GoodsKept.of_same h.items

end StockChange

/-! ## Runs -/

/-- The adjustment of a restock. -/
def restockChange (r : Return) (line : OrderItem) : StockChange :=
  .adjust line.inventoryItemId
    { quantityDelta := r.quantity
      reason := s!"Sellable return {r.id}"
      actor := "system"
      idempotencyKey := restockKey r.id
      unitCost := none }

/-- The restock a return event asks for. -/
def Db.restockAsked (D : Db) : EventPayload → Option StockChange
  | .orderReturned _ returnId _ => do
    let r ← D.returns.get returnId
    let line ← r.orderItemId.bind D.orderItems.get
    if r.disposition = some "sellable" then some (restockChange r line) else none
  | _ => none

/-- The calls on the ledger: changes of stock, reconciliations of returns, and orders. -/
inductive LedgerCall where
  | change (c : StockChange)
  | reconcile (event : EventEnvelope) (workflow : WorkflowRun)
  | ingest (command : NormalizedMarketplaceOrder)
  | updateStatus (orderId : Uuid) (target : OrderStatus) (actor reason : String)

namespace LedgerCall

section Calls

variable [Digests]

/-- The transaction of the call. -/
def run : LedgerCall → Tx Unit
  | change c => do
    let _ ← c.run
  | reconcile event workflow => do
    let _ ← returnToReconciliation event workflow
  | ingest command => do
    let _ ← OrderService.ingest command
  | updateStatus orderId target actor reason => do
    let _ ← OrderService.updateStatus none orderId target actor reason

omit [Digests] in
/-- The change of stock the call asks for in the state `D`. -/
def asked (D : Db) : LedgerCall → Option StockChange
  | change c => some c
  | reconcile event _ => D.restockAsked event.data
  | _ => none

variable {D D' : Db} {u : Unit}

omit [Digests] in
/-- A reconciliation that returns has made the restock it was asked for. -/
theorem reconcile_changes {event : EventEnvelope} {workflow : WorkflowRun}
    {outcome : Option WorkflowOutcome} {c : StockChange} (hc : D.restockAsked event.data = some c)
    (h : (returnToReconciliation event workflow).runs D (.ok (outcome, D'))) :
    ∃ result D₁, c.run.runs D (.ok (result, D₁)) ∧ GoodsKept D₁ D' := by
  unfold Db.restockAsked at hc
  split at hc
  · rename_i orderId returnId quantity hdata
    obtain ⟨r, hr, hc₁⟩ := Option.bind_eq_some_iff.mp hc
    obtain ⟨line, hline, hc₂⟩ := Option.bind_eq_some_iff.mp hc₁
    split at hc₂
    · rename_i hsellable
      obtain rfl := Option.some.inj hc₂
      unfold returnToReconciliation at h
      rw [hdata] at h
      obtain ⟨found, D₁, hrun₁, h₁⟩ := runs_bind_ok.mp h
      obtain ⟨hreturn, rfl⟩ := Tx.runs_select.mp hrun₁
      rw [hr] at hreturn
      obtain ⟨found', D₂, hrun₂, h₂⟩ := runs_bind_ok.mp h₁
      obtain ⟨-, rfl⟩ := Tx.runs_select.mp hrun₂
      subst hreturn
      cases found' with
      | none => exact nomatch h₂
      | some order =>
        obtain ⟨_, D₃, hrun₃, h₃⟩ := runs_bind_ok.mp h₂
        obtain ⟨-, rfl⟩ := Tx.runs_require.mp hrun₃
        obtain ⟨result, D₄, hreconcile, h₄⟩ := runs_bind_ok.mp h₃
        cases h₄
        obtain ⟨line', D₅, u, hline', hrestock, hrest⟩ :=
          reconcile_restocks steady_goods hreconcile
        obtain rfl := Option.some.inj (hline.symm.trans hline')
        unfold restock at hrestock
        rw [if_pos hsellable] at hrestock
        obtain ⟨adjusted, D₆, hadjust, hdone⟩ := runs_bind_ok.mp hrestock
        cases hdone
        exact ⟨adjusted, D₅, hadjust, GoodsKept.of_same hrest.items⟩
    · exact nomatch hc₂
  · exact nomatch hc

/-- No call on the ledger loses a movement or makes other goods of an item. -/
theorem run_keeps (call : LedgerCall) : call.run.keeps GoodsKept := by
  have hsame : ∀ {α : Type} {p : Tx α}, p.keeps SameStockroom → p.keeps GoodsKept :=
    fun hp => keeps_mono hp fun _ _ h => GoodsKept.of_same h.items
  cases call with
  | change c => exact keeps_bind c.run_keeps fun _ => keeps_done ()
  | reconcile event workflow =>
    exact keeps_bind (hsame (returnToReconciliation_keeps steady_goods event workflow)) fun _ =>
      keeps_done ()
  | ingest command =>
    have hingest : (OrderService.ingest command).keeps GoodsKept :=
      keeps_mono (OrderService.ingest_keeps steady_goods) fun _ _ h => GoodsKept.of_same h
    exact keeps_bind hingest fun _ => keeps_done ()
  | updateStatus orderId target actor reason =>
    exact keeps_bind (hsame (OrderService.updateStatus_keeps steady_goods)) fun _ => keeps_done ()

/-- **A call records the change it asks for**, if that is faithful. -/
theorem run_records {call : LedgerCall} {c : StockChange} (hc : call.asked D = some c)
    (hfaithful : c.Faithful D) (h : call.run.runs D (.ok (u, D'))) : c.RecordedOnce D D' := by
  have haccounted := StockChange.accounted_iff.mpr hfaithful
  cases call with
  | change c' =>
    obtain rfl := Option.some.inj hc
    obtain ⟨result, D₁, hrun, hrest⟩ := runs_bind_ok.mp h
    cases hrest
    exact haccounted.recorded result D' hrun
  | reconcile event workflow =>
    obtain ⟨outcome, D₁, hrun, hrest⟩ := runs_bind_ok.mp h
    cases hrest
    obtain ⟨result, D₂, hchange, hkept⟩ := reconcile_changes hc hrun
    exact (haccounted.recorded result D₂ hchange).kept hkept
  | ingest command => exact nomatch hc
  | updateStatus orderId target actor reason => exact nomatch hc

end Calls

end LedgerCall

section Runs

variable [Digests] {D₀ D : Db} {log : List (LedgerCall × Db)}

/-- A run of calls whose changes are faithful, with the state each call found. -/
def LedgerRun (D₀ : Db) (log : List (LedgerCall × Db)) (D : Db) : Prop :=
  Serial (fun call E D D' => E = D ∧ (∀ c, call.asked D = some c → c.Faithful D) ∧
    ∃ u, (LedgerCall.run call).runs D (.ok (u, D'))) D₀ log D

/-- **Accepted stock changes are the recorded ones**, in every run of faithful calls: at its end the
    ledger holds, for each change accepted on the way, one movement under its key, and that records
    what was asked for.  On every state a call is accounted for exactly if it is faithful. -/
theorem accepted_changes_are_recorded (h : LedgerRun D₀ log D) :
    (∀ call E, (call, E) ∈ log → ∀ c, call.asked E = some c → c.RecordedOnce E D) ∧
      ∀ (c : StockChange) (D : Db), c.Accounted D ↔ c.Faithful D := by
  refine ⟨?_, fun c D => StockChange.accounted_iff⟩
  induction h with
  | nil => exact fun _ _ hmem => absurd hmem List.not_mem_nil
  | snoc _ hc ih =>
    obtain ⟨rfl, hfaithful, u, hrun⟩ := hc
    intro call E hmem c hasked
    rcases List.mem_append.mp hmem with hmem | hmem
    · exact (ih call E hmem c hasked).kept (LedgerCall.run_keeps _ _ u _ hrun)
    · obtain ⟨rfl, rfl⟩ := Prod.mk.inj (List.mem_singleton.mp hmem)
      exact LedgerCall.run_records hasked (hfaithful c hasked) hrun

/-- A run with any changes, faithful or not. -/
def AnyLedgerRun (D₀ : Db) (log : List (LedgerCall × Db)) (D : Db) : Prop :=
  Serial (fun call E D D' => E = D ∧ ∃ u, (LedgerCall.run call).runs D (.ok (u, D'))) D₀ log D

end Runs

/-! ## A key used twice -/

/-- The ten units arrive under a SKU. -/
def keyedReceipt (sku : String) : LedgerCall :=
  .change (.receive (Uuid.ofNat 6)
    { sku, storageLocation := "main", quantityReceived := 10, landedUnitCost := none
      lowStockThreshold := 2, actor := "system", reason := "receipt"
      idempotencyKey := "receipt-1", receivedAt := none })

/-- The state after some calls on `sampleDb`. -/
def ledgerRun (calls : List LedgerCall) : Db :=
  afterCalls (@LedgerCall.run Digests.byEnding) Environment.numbered 0 calls sampleDb

/-- Received twice under one key and with one SKU, the units are recorded once. -/
theorem accepted_changes_are_recorded_sample :
    (ledgerRun [keyedReceipt "A", keyedReceipt "A"]).inventoryMovements.rows.length = 1 ∧
      ∀ c, (keyedReceipt "A").asked sampleDb = some c →
        c.RecordedOnce sampleDb (ledgerRun [keyedReceipt "A", keyedReceipt "A"]) := by
  refine ⟨by decide +kernel, ?_⟩
  have hfirst : @LedgerRun Digests.byEnding sampleDb [(keyedReceipt "A", sampleDb)]
      (ledgerRun [keyedReceipt "A"]) := by
    refine Serial.nil.snoc ⟨rfl, fun c _ m hm => absurd hm (Table.not_mem_empty m), ?_⟩
    exact runs_afterCall _ (by decide +kernel)
  have hsecond : @LedgerRun Digests.byEnding sampleDb
      [(keyedReceipt "A", sampleDb), (keyedReceipt "A", ledgerRun [keyedReceipt "A"])]
      (ledgerRun [keyedReceipt "A", keyedReceipt "A"]) := by
    refine hfirst.snoc ⟨rfl, fun c hc m hm _ _ => ?_, ?_⟩
    · obtain rfl := Option.some.inj hc
      have hplace : ∀ m ∈ (ledgerRun [keyedReceipt "A"]).inventoryMovements.rows,
          (((ledgerRun [keyedReceipt "A"]).inventoryItems.get m.inventoryItemId).map fun i =>
            (i.sku, i.storageLocation)) = some ("A", "main") := by decide +kernel
      have hcost : ∀ m ∈ (ledgerRun [keyedReceipt "A"]).inventoryMovements.rows,
          m.unitCost = ((ledgerRun [keyedReceipt "A"]).quotedCost (Uuid.ofNat 6)).map money := by
        decide +kernel
      obtain ⟨item, hitem, hgoods⟩ := Option.map_eq_some_iff.mp (hplace m hm)
      exact ⟨⟨item, hitem, congrArg Prod.fst hgoods, congrArg Prod.snd hgoods⟩, hcost m hm⟩
    · exact runs_afterCall (o := Environment.numbered 1) _ (by decide +kernel)
  exact (@accepted_changes_are_recorded Digests.byEnding _ _ _ hsecond).1 (keyedReceipt "A")
    sampleDb List.mem_cons_self

/-- **Other stock under the same key is accepted**: the units of one SKU are taken for those of
    another. -/
theorem accepted_change_is_not_recorded :
    ¬∀ (D₀ : Db) (log : List (LedgerCall × Db)) (D : Db), EmptyInventory D₀ →
      @AnyLedgerRun Digests.byEnding D₀ log D → ∀ call E, (call, E) ∈ log →
        ∀ c, call.asked E = some c → c.RecordedOnce E D := by
  intro h
  have hfirst : @AnyLedgerRun Digests.byEnding sampleDb [(keyedReceipt "A", sampleDb)]
      (ledgerRun [keyedReceipt "A"]) :=
    Serial.nil.snoc ⟨rfl, runs_afterCall _ (by decide +kernel)⟩
  have hsecond : @AnyLedgerRun Digests.byEnding sampleDb
      [(keyedReceipt "A", sampleDb), (keyedReceipt "B", ledgerRun [keyedReceipt "A"])]
      (ledgerRun [keyedReceipt "A", keyedReceipt "B"]) :=
    hfirst.snoc ⟨rfl, runs_afterCall (o := Environment.numbered 1) _ (by decide +kernel)⟩
  obtain ⟨m, hm, hrecorded, -⟩ := h sampleDb _ _ sampleDb_emptyInventory hsecond (keyedReceipt "B")
    _ (List.mem_cons_of_mem _ List.mem_cons_self) _ rfl
  obtain ⟨item, hitem, hsku, -⟩ := hrecorded.place
  have hitems : ∀ i ∈ (ledgerRun [keyedReceipt "A", keyedReceipt "B"]).inventoryItems.rows,
      i.sku = "A" := by decide +kernel
  rw [hitems item (Table.mem_of_get hitem)] at hsku
  exact absurd hsku (by decide)

end CommerceOperations
