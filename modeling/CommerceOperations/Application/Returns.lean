/-
  Returns and the stock they bring back.

  The reconciliation checks a return against its own record only: the quantity against the order
  line it names, and the idempotency key against an earlier restock of the same return.  This file
  follows the stock restocked on account of a line through a history of reconciliations:

  * `Db.restocked`   — what the returns of a line have brought back;
  * `Db.Within`      — the check the reconciliation does not make: the line belongs to the order of
                       the return, and the returns of the line together stay within it;
  * `ReturnBooks`    — what is kept while every reconciliation is `Within`.

  Without the check two full returns of one line are both restocked.

  The proof follows the writes.  All but one of them restock nothing (`NoRestock`), so they leave
  the sums as they are or let the shipped quantity grow (`SameRestock`).  The one that does is the
  movement of a reconciliation; there the guards of the code give that the order was shipped, and
  the check gives the room.  A step that raises is undone by its savepoint, so an attempt that does
  not succeed brings nothing back at all.
-/
import CommerceOperations.Application.Warehouse

namespace CommerceOperations

open Relational Prog

/-! ## What was restocked and shipped -/

/-- The ledger key of a restock. -/
def restockKey (returnId : Uuid) : String := s!"return-receipt:{returnId}"

/-- A restock key names its return. -/
theorem restockKey_inj {a b : Uuid} (h : restockKey a = restockKey b) : a = b := by
  have hkey : ∀ id : Uuid, restockKey id = "return-receipt:" ++ id.text := by
    intro id
    simp [restockKey, toString]
  rw [hkey, hkey] at h
  exact Uuid.eq_of_text_eq (append_inj_of_length h rfl).2

/-- A movement of an order line is no restock. -/
theorem movementKey_ne_restockKey (t : InventoryMovementType) (orderId : Uuid)
    (externalLineId : String) (returnId : Uuid) :
    OrderService.movementKey t orderId externalLineId ≠ restockKey returnId := by
  intro h
  have hhead := congrArg (fun s : String => s.toList.head?) h
  simp [OrderService.movementKey, restockKey, toString] at hhead

namespace Db

/-- `m` restocked a return of the line. -/
def restocks (D : Db) (line : OrderItem) (m : InventoryMovement) : Bool :=
  D.returns.rows.any fun r => r.orderItemId = some line.id ∧ m.idempotencyKey = restockKey r.id

/-- What the returns of a line have brought back. -/
def restocked (D : Db) (line : OrderItem) : Int :=
  D.inventoryMovements.sum fun m => if D.restocks line m then m.quantityDelta else 0

/-- How much of a line was shipped. -/
def shippedQuantity (D : Db) (line : OrderItem) : Int :=
  D.inventoryMovements.sum fun m => if m.isOf line .shipment then -m.quantityDelta else 0

/-- No return has been restocked. -/
def NothingRestocked (D : Db) : Prop :=
  ∀ m ∈ D.inventoryMovements, ∀ id, m.idempotencyKey ≠ restockKey id

/-- The guards of the reconciliation are met, and the return is still to be restocked. -/
structure Restocking (D : Db) (orderId returnId : Uuid) (quantity : Int) (r : Return) (o : Order)
    (line : OrderItem) : Prop where
  /-- the return is on record -/
  return_get : D.returns.get returnId = some r
  /-- so is the order of the event -/
  order_get : D.orders.get orderId = some o
  /-- and it is the order of the return -/
  order_eq : r.orderId = o.id
  /-- the return names a line -/
  line_get : r.orderItemId.bind D.orderItems.get = some line
  /-- and its goods can be sold -/
  sellable : r.disposition = some "sellable"
  /-- the event tells the quantity of the return -/
  quantity_eq : quantity = r.quantity
  /-- which is no more than was ordered -/
  quantity_le : r.quantity ≤ line.quantity
  /-- nothing is recorded under its key -/
  fresh : ∀ m ∈ D.inventoryMovements, m.idempotencyKey ≠ restockKey r.id
  /-- the refunds are in the currency of the order -/
  currencies : ∀ refund ∈ D.refunds.rows.filter fun f => f.orderId = o.id,
    refund.currency = o.currency
  /-- and within its total -/
  refunds_le : AutonomousOrchestrator.refunded (D.refunds.rows.filter fun f => f.orderId = o.id) ≤
    o.totalAmount
  /-- the order is returned or may be -/
  status : o.status = .returned ∨ .returned ∈ o.status.allowedTransitions

/-- The check the reconciliation of an event does not make. -/
def Within (D : Db) : EventPayload → Prop
  | .orderReturned orderId returnId quantity =>
    ∀ r o line, D.Restocking orderId returnId quantity r o line →
      line.orderId = o.id ∧ D.restocked line + r.quantity ≤ line.quantity
  | _ => True

/-- The movement has the key of some return of the line. -/
theorem restocks_eq_true {D : Db} {line : OrderItem} {m : InventoryMovement} :
    D.restocks line m = true ↔
      ∃ r ∈ D.returns, r.orderItemId = some line.id ∧ m.idempotencyKey = restockKey r.id := by
  simp [restocks, Table.mem_rows]

/-- A return that can be reconciled belongs to an order that was shipped. -/
theorem Restocking.phase {D : Db} {orderId returnId : Uuid} {quantity : Int} {r : Return}
    {o : Order} {line : OrderItem} (h : D.Restocking orderId returnId quantity r o line) :
    o.status.phase = .shipped := by
  rcases h.status with hstatus | hallowed
  · rw [hstatus]
    rfl
  · exact (OrderStatus.phase_of_allowed hallowed (by decide) (by decide)).symm

/-- The guards are about the tables of the services, so the engine's own writes before them make no
    difference. -/
theorem Restocking.congr {D D' : Db} (h : WorkflowEngine.SameElsewhere D D')
    {orderId returnId : Uuid}
    {quantity : Int} {r : Return} {o : Order} {line : OrderItem}
    (hr : D'.Restocking orderId returnId quantity r o line) :
    D.Restocking orderId returnId quantity r o line := by
  have hreturns : D'.returns = D.returns := h .returns (by decide)
  have horders : D'.orders = D.orders := h .orders (by decide)
  have hlines : D'.orderItems = D.orderItems := h .orderItems (by decide)
  have hmovements : D'.inventoryMovements = D.inventoryMovements :=
    h .inventoryMovements (by decide)
  have hrefunds : D'.refunds = D.refunds := h .refunds (by decide)
  obtain ⟨h₁, h₂, h₃, h₄, h₅, h₆, h₇, h₈, h₉, h₁₀, h₁₁⟩ := hr
  rw [hreturns] at h₁
  rw [horders] at h₂
  rw [hlines] at h₄
  rw [hmovements] at h₈
  rw [hrefunds] at h₉ h₁₀
  exact ⟨h₁, h₂, h₃, h₄, h₅, h₆, h₇, h₈, h₉, h₁₀, h₁₁⟩

/-- The engine's own tables play no part in the check. -/
theorem Within.congr {D D' : Db} {payload : EventPayload} (h : D.Within payload)
    (hD : WorkflowEngine.SameElsewhere D D') : D'.Within payload := by
  cases payload with
  | orderReturned orderId returnId quantity =>
    intro r o line hr
    obtain ⟨horder, hle⟩ := h r o line (hr.congr hD)
    refine ⟨horder, ?_⟩
    have hreturns : D'.returns = D.returns := hD .returns (by decide)
    have hmovements : D'.inventoryMovements = D.inventoryMovements :=
      hD .inventoryMovements (by decide)
    have hrestocked : D'.restocked line = D.restocked line := by
      unfold restocked restocks
      rw [hreturns, hmovements]
    rw [hrestocked]
    exact hle
  | _ => trivial

end Db

/-! ## Writes that restock nothing -/

/-- A write that neither restocks nor touches the returns and the lines. -/
def NoRestock (w : Write TableName.Entity) : Prop :=
  match w with
  | ⟨.inventoryMovements, .insert m⟩ => ∀ id, m.idempotencyKey ≠ restockKey id
  | ⟨.inventoryMovements, .update _ _⟩ => False
  | ⟨i, _⟩ => i ≠ .returns ∧ i ≠ .orderItems

/-- The returns name the lines they named. -/
def SameReturns (D D' : Db) : Prop :=
  ∀ id, (D'.returns.get id).map (·.orderItemId) = (D.returns.get id).map (·.orderItemId)

/-- What writes that restock nothing keep. -/
structure SameRestock (D D' : Db) : Prop where
  /-- the returns name the lines they named -/
  returns : SameReturns D D'
  /-- and these are the same -/
  lines : D'.orderItems = D.orderItems
  /-- a sum over restocks is as before -/
  sum_eq : ∀ f : InventoryMovement → Int,
    (∀ m, (∀ id, m.idempotencyKey ≠ restockKey id) → f m = 0) →
      D'.inventoryMovements.sum f = D.inventoryMovements.sum f
  /-- a sum of what is not negative has not shrunk -/
  sum_le : ∀ f : InventoryMovement → Int, (∀ m, 0 ≤ f m) →
    D.inventoryMovements.sum f ≤ D'.inventoryMovements.sum f
  /-- and every new movement is no restock -/
  mem : ∀ m ∈ D'.inventoryMovements,
    m ∈ D.inventoryMovements ∨ ∀ id, m.idempotencyKey ≠ restockKey id

/-- Every return was there, with the line it names. -/
theorem SameReturns.mem {D D' : Db} (h : SameReturns D D') {r : Return} (hr : r ∈ D'.returns) :
    ∃ r' ∈ D.returns, r'.id = r.id ∧ r'.orderItemId = r.orderItemId := by
  have hid := h r.id
  have hget' : D'.returns.get r.id = some r := Table.get_of_mem hr
  rw [hget'] at hid
  cases hget : D.returns.get r.id with
  | none =>
    rw [hget] at hid
    exact nomatch hid
  | some r' =>
    rw [hget] at hid
    exact ⟨r', Table.mem_of_get hget, Table.key_of_get hget, (Option.some.inj hid).symm⟩

/-- Of two states with the same returns neither comes first. -/
theorem SameReturns.symm {D D' : Db} (h : SameReturns D D') : SameReturns D' D :=
  fun id => (h id).symm

/-- Where the returns name the same lines, the same movements restock a line. -/
theorem SameReturns.restocks {D D' : Db} (h : SameReturns D D') (line : OrderItem) :
    D'.restocks line = D.restocks line := by
  funext m
  rw [Bool.eq_iff_iff, Db.restocks_eq_true, Db.restocks_eq_true]
  constructor
  · rintro ⟨r, hr, hline, hkey⟩
    obtain ⟨r', hr', hid, hitem⟩ := h.mem hr
    exact ⟨r', hr', hitem.trans hline, hkey.trans (by rw [hid])⟩
  · rintro ⟨r, hr, hline, hkey⟩
    obtain ⟨r', hr', hid, hitem⟩ := h.symm.mem hr
    exact ⟨r', hr', hitem.trans hline, hkey.trans (by rw [hid])⟩

namespace SameRestock

variable {D D' D'' : Db}

/-- Nothing written, nothing restocked. -/
theorem refl (D : Db) : SameRestock D D :=
  ⟨fun _ => rfl, rfl, fun _ _ => rfl, fun _ _ => le_refl _, fun _ h => Or.inl h⟩

/-- States that have the same restocks, step by step, have them from the first to the last. -/
theorem trans (h : SameRestock D D') (h' : SameRestock D' D'') : SameRestock D D'' := by
  refine ⟨fun id => (h'.returns id).trans (h.returns id), h'.lines.trans h.lines,
    fun f hf => (h'.sum_eq f hf).trans (h.sum_eq f hf),
    fun f hf => (h.sum_le f hf).trans (h'.sum_le f hf), ?_⟩
  intro m hm
  rcases h'.mem m hm with hm | hm
  · exact h.mem m hm
  · exact Or.inr hm

/-- Two states have the same restocks if their movements and lines are the same, and their returns
    name the same lines. -/
theorem of_tables (hreturns : SameReturns D D') (hlines : D'.orderItems = D.orderItems)
    (hmovements : D'.inventoryMovements = D.inventoryMovements) : SameRestock D D' := by
  refine ⟨hreturns, hlines, ?_, ?_, ?_⟩
  · intro f _
    rw [hmovements]
  · intro f _
    rw [hmovements]
  · intro m hm
    rw [hmovements] at hm
    exact Or.inl hm

/-- In particular between states that differ in the engine's own tables. -/
theorem of_sameElsewhere (h : WorkflowEngine.SameElsewhere D D') : SameRestock D D' := by
  have hreturns : D'.returns = D.returns := h .returns (by decide)
  exact of_tables (fun id => by rw [hreturns]) (h .orderItems (by decide))
    (h .inventoryMovements (by decide))

/-- **A write that restocks nothing** leaves what was restocked.  A new movement may add to what was
    shipped, and therefore the second sum only grows. -/
theorem of_write {w : Write TableName.Entity} (hw : NoRestock w) (D : Db) :
    SameRestock D (Database.apply w D) := by
  obtain ⟨i, w⟩ := w
  by_cases hi : i = .inventoryMovements
  · subst hi
    cases w with
    | update old new => exact hw.elim
    | insert m =>
      cases hconf : D.inventoryMovements.conflicts m with
      | true =>
        refine of_tables (fun _ => rfl) rfl ?_
        exact Table.insert_of_conflict hconf
      | false =>
        refine ⟨fun _ => rfl, rfl, fun f hf => ?_, fun f hf => ?_, fun m' hm' => ?_⟩
        · refine (Table.sum_insert hconf f).trans ?_
          rw [hf m hw]
          omega
        · refine le_trans ?_ (Table.sum_insert hconf f).ge
          have hm := hf m
          omega
        · rcases (Table.mem_insert hconf).mp hm' with hm' | rfl
          · exact Or.inl hm'
          · exact Or.inr hw
  · have hw' : i ≠ .returns ∧ i ≠ .orderItems := by
      cases i <;> first | exact hw | exact absurd rfl hi
    have hreturns : (Database.apply ⟨i, w⟩ D).table .returns = D.table .returns :=
      Database.apply_table_of_ne _ _ hw'.1.symm
    refine of_tables (fun id => ?_) (Database.apply_table_of_ne _ _ hw'.2.symm)
      (Database.apply_table_of_ne _ _ fun h => hi h.symm)
    exact congrArg (fun t : Table Return => (t.get id).map (·.orderItemId)) hreturns

end SameRestock

/-- Every write of `p` is one that restocks nothing. -/
abbrev RestocksNothing {α : Type} (p : Tx α) : Prop := p.writes NoRestock fun _ => False

/-- What stays off the three tables restocks nothing. -/
theorem RestocksNothing.of_confined {α : Type} {p : Tx α} {tables : List TableName}
    (h : p.confined tables)
    (htables : ∀ i ∈ tables, i ≠ .inventoryMovements ∧ i ≠ .returns ∧ i ≠ .orderItems) :
    RestocksNothing p := by
  refine writes_mono h ?_ fun _ he => he.elim
  rintro ⟨i, w⟩ hw
  obtain ⟨hm, hr, hl⟩ := htables i hw
  cases i <;> first | exact ⟨hr, hl⟩ | exact absurd rfl hm

/-- A lookup that may raise writes nothing. -/
theorem RestocksNothing.orThrow {α : Type} (a : Option α) (type : ExceptionType)
    (message : String) : RestocksNothing (Tx.orThrow a type message) := by
  cases a with
  | none => exact fun h => h
  | some a => exact trivial

/-- A program of such writes leaves what was restocked, by its writes one after the other. -/
theorem SameRestock.of_runs {α : Type} {p : Tx α} (h : RestocksNothing p) {D D' : Db} {a : α}
    (hrun : p.runs D (.ok (a, D'))) : SameRestock D D' :=
  (post_iff.mp (post_of_writes SameRestock.refl SameRestock.trans
    (fun _ D hw => SameRestock.of_write hw D) h D)).1 a D' hrun

namespace OrderService

/-- A settled line posts a movement under a key of the order, and that is no restock. -/
theorem settleLine_restocksNothing {order : Order} {line : OrderItem} {t : InventoryMovementType}
    {cond : InventoryItem → Bool} {set : InventoryItem → InventoryItem} {missing : String}
    {eventDelta : Int} :
    RestocksNothing (settleLine order line t cond set missing eventDelta) := by
  refine writes_bind (writes_query _) fun _ => ?_
  refine writes_bind (RestocksNothing.orThrow _ _ _) fun item => ?_
  refine writes_bind (writes_updateWhere (fun r _ _ => ⟨by decide, by decide⟩) fun _ h => h)
    fun result => ?_
  refine writes_bind (RestocksNothing.orThrow _ _ _) fun _ => ?_
  refine writes_bind (writes_answer _) fun id => ?_
  refine writes_bind (writes_insert _ ?_ fun _ h => h) fun m => ?_
  · exact movementKey_ne_restockKey t order.id line.externalLineId
  refine writes_bind (writes_query _) fun _ => ?_
  refine writes_bind (RestocksNothing.orThrow _ _ _) fun item => ?_
  exact RestocksNothing.of_confined inventoryEvents_confined (by decide)

/-- A loop over lines, by induction on them. -/
theorem forLines_restocksNothing {settle : OrderItem → Tx Unit}
    (h : ∀ line, RestocksNothing (settle line)) :
    ∀ lines, RestocksNothing (forLines settle lines)
  | [] => trivial
  | line :: lines => writes_bind (h line) fun _ => forLines_restocksNothing h lines

/-- The status itself is in these tables. -/
theorem setStatus_confined {order : Order} {target : OrderStatus} {actor reason : String} :
    (setStatus order target actor reason).confined
      [.orders, .workflowRuns, .domainEvents, .auditEvents] := by
  refine writes_bind (writes_answer _) fun now => ?_
  refine writes_bind (Tx.confined_flush _ _ (by decide)) fun order' => ?_
  refine writes_bind (writes_query _) fun workflow => ?_
  extract_lets finish
  have hfinish : ∀ workflow, (finish workflow).confined
      [.orders, .workflowRuns, .domainEvents, .auditEvents] := by
    intro workflow
    have haudit : ∀ {order before},
        (audit order workflow "order.status_changed" actor before target.value reason).confined
          [.orders, .workflowRuns, .domainEvents, .auditEvents] :=
      Tx.confined_mono audit_confined (by decide)
    simp only [finish]
    split
    · refine writes_bind (Tx.confined_mono DatabaseEventStore.emit_confined (by decide))
        fun _ => ?_
      exact writes_bind haudit fun _ => trivial
    · exact writes_bind haudit fun _ => trivial
  cases workflow with
  | none => exact hfinish _
  | some workflow =>
    exact writes_bind (Tx.confined_flush _ _ (by decide)) fun _ => hfinish _

/-- A change of status settles lines and sets the status. -/
theorem updateStatus_restocksNothing {loaded : Option Order} {orderId : Uuid}
    {target : OrderStatus} {actor reason : String} :
    RestocksNothing (updateStatus loaded orderId target actor reason) := by
  have hset : ∀ order, RestocksNothing (setStatus order target actor reason) := fun order =>
    RestocksNothing.of_confined setStatus_confined (by decide)
  refine writes_bind ?_ fun order => ?_
  · refine writes_bind (writes_selectForUpdate _ _) fun found => ?_
    exact writes_bind (RestocksNothing.orThrow _ _ _) fun _ => trivial
  refine writes_bind ?_ fun _ => ?_
  · unfold transitionOrder
    split_ifs <;> first | exact trivial | exact fun h => h
  split_ifs
  · exact trivial
  · refine writes_bind (writes_bind (writes_query _) fun lines => ?_) fun _ => hset order
    exact forLines_restocksNothing (fun _ => settleLine_restocksNothing) lines
  · refine writes_bind (writes_bind (writes_query _) fun lines => ?_) fun _ => hset order
    exact forLines_restocksNothing (fun _ => settleLine_restocksNothing) lines
  · exact hset order

/-- A status change that commits was allowed. -/
theorem updateStatus_allowed {order order' : Order} {orderId : Uuid} {target : OrderStatus}
    {actor reason : String} {D D' : Db}
    (h : (updateStatus (some order) orderId target actor reason).runs D (.ok (order', D'))) :
    target = order.status ∨ target ∈ order.status.allowedTransitions := by
  obtain ⟨loaded, D₁, hget, h₁⟩ := runs_bind_ok.mp h
  obtain ⟨found, D₂, -, h₂⟩ := runs_bind_ok.mp hget
  obtain ⟨stored, D₃, -, h₃⟩ := runs_bind_ok.mp h₂
  cases h₃
  obtain ⟨_, D₄, htransition, -⟩ := runs_bind_ok.mp h₁
  unfold transitionOrder at htransition
  split at htransition
  · rename_i heq
    exact Or.inl heq
  · split at htransition
    · exact nomatch htransition
    · rename_i hallowed
      exact Or.inr (by simpa using hallowed)

end OrderService

/-! ## One reconciliation -/

/-- The stock of a return was brought back: its movement is new. -/
structure Restocked (D D' : Db) (r : Return) (m : InventoryMovement) : Prop where
  /-- no constraint is violated -/
  conflicts : D.inventoryMovements.conflicts m = false
  /-- one movement is posted -/
  movements : D'.inventoryMovements = D.inventoryMovements.insert m
  /-- the returns stay -/
  returns : D'.returns = D.returns
  /-- and so do the lines -/
  lines : D'.orderItems = D.orderItems
  /-- it has the key of the return -/
  key : m.idempotencyKey = restockKey r.id
  /-- its quantity -/
  quantity : m.quantityDelta = r.quantity
  /-- and is an adjustment -/
  type : m.movementType = .adjustment

/-- What leaves the movements alone leads to states with the same movements. -/
theorem post_sameMovements {α : Type} {p : Tx α} {t : List TableName} {D₀ D : Db}
    (hp : p.confined t) (ht : TableName.inventoryMovements ∉ t)
    (hD : D.inventoryMovements = D₀.inventoryMovements) {Q : α → Db → Prop}
    (hQ : ∀ a D', D'.inventoryMovements = D₀.inventoryMovements → Q a D') :
    p.post D Q fun _ => True :=
  post_mono (post_of_confined hp D) (fun a D' h => hQ a D' ((h _ ht).trans hD))
    fun _ _ => trivial

namespace InventoryService

/-- An adjustment records one movement under its key, and posts nothing else. -/
def Records (command : Adjustment) (D D' : Db) : Prop :=
  ∃ m, D.inventoryMovements.conflicts m = false ∧
    D'.inventoryMovements = D.inventoryMovements.insert m ∧
    m.idempotencyKey = command.idempotencyKey ∧ m.quantityDelta = command.quantityDelta ∧
    m.movementType = .adjustment

/-- An adjustment under a fresh key that commits has recorded its movement. -/
theorem adjustNew_post (id : Uuid) (command : Adjustment) (D : Db) :
    (adjustNew id command).post D (fun _ D' => Records command D D') fun _ => True := by
  refine post_bind.mpr (post_sameMovements (t := []) ?_ (by decide) rfl ?_)
  · exact writes_bind (writes_selectForUpdate _ _) fun _ => Tx.confined_orThrow (by decide)
  intro item D₁ hD₁
  refine post_bind.mpr (post_sameMovements (t := []) ?_ (by decide) hD₁ ?_)
  · unfold applyQuantityChange
    split_ifs <;> first | exact trivial | exact Tx.confined_throw (by decide)
  intro balance D₂ hD₂
  extract_lets write
  have hwrite : ∀ basis (D' : Db), D'.inventoryMovements = D.inventoryMovements →
      (write basis).post D' (fun _ D' => Records command D D') fun _ => True := by
    intro basis D₃ hD₃
    refine post_bind.mpr (post_sameMovements (t := [.inventoryItems])
      (Tx.confined_flush _ _ (by decide)) (by decide) hD₃ ?_)
    intro changed D₄ hD₄
    refine post_bind.mpr fun env => ?_
    refine post_bind.mpr (post_insert.mpr ⟨fun hconflicts => ?_, fun _ => trivial⟩)
    have hconflicts : D₄.inventoryMovements.conflicts _ = false := hconflicts
    rw [hD₄] at hconflicts
    refine post_bind.mpr (post_mono (post_of_confined recordChange_confined _) ?_
      fun _ _ => trivial)
    intro _ D₅ hD₅
    refine ⟨_, hconflicts, (hD₅ .inventoryMovements (by decide)).trans ?_, rfl, rfl, rfl⟩
    show D₄.inventoryMovements.insert _ = _
    rw [hD₄]
  cases command.unitCost with
  | none => exact hwrite _ _ hD₂
  | some unitCost =>
    dsimp only
    split
    · refine post_bind.mpr (post_sameMovements (t := []) ?_ (by decide) hD₂ ?_)
      · unfold weightedCostBasis
        split_ifs <;> first | exact trivial | exact Tx.confined_throw (by decide)
      · exact fun basis D₃ hD₃ => hwrite _ _ hD₃
    · exact hwrite _ _ hD₂

/-- An adjustment that commits was made before under its key, or is recorded now. -/
theorem adjust_runs {id : Uuid} {command : Adjustment} {D D' : Db}
    {res : InventoryChangeResult} (h : (adjust id command).runs D (.ok (res, D'))) :
    D' = D ∨
      (∀ m ∈ D.inventoryMovements, m.idempotencyKey ≠ command.idempotencyKey) ∧
        Records command D D' := by
  obtain ⟨existing, D₁, hexisting, h₁⟩ := runs_bind_ok.mp h
  obtain ⟨rfl, rfl⟩ := Tx.runs_select.mp hexisting
  cases hfind :
    D.inventoryMovements.rows.find? fun m => m.idempotencyKey = command.idempotencyKey with
  | some existing =>
    rw [hfind] at h₁
    obtain ⟨_, D₂, hrequire, h₂⟩ := runs_bind_ok.mp h₁
    obtain ⟨-, rfl⟩ := Tx.runs_require.mp hrequire
    cases h₂
    exact Or.inl rfl
  | none =>
    rw [hfind] at h₁
    have hrecords := of_post (adjustNew_post id command D) h₁
    refine Or.inr ⟨fun m hm => ?_, hrecords⟩
    simpa using List.find?_eq_none.mp hfind m hm

end InventoryService

namespace AutonomousOrchestrator

/-- A return that is written back with the line it names. -/
theorem flushReturn_sameRestock {r new row : Return} {D D' : Db} (hid : new.id = r.id)
    (hline : (D.returns.get r.id).map (·.orderItemId) = some new.orderItemId)
    (h : (flush .returns r new).runs D (.ok (row, D'))) : SameRestock D D' := by
  have hpost : (flush .returns r new).post D (fun _ D' => SameRestock D D') fun _ => True := by
    refine post_flush (fun _ => SameRestock.refl D) (fun _ r' hget hv hclash => ?_)
      fun _ => trivial
    have hget : D.returns.get r.id = some r' := hget
    rw [hget] at hline
    have hs : D.returns.succeeds r' (nextVersion TableName.returns r' new) = true :=
      succeeds_nextVersion hget (hid.trans (Table.key_of_get hget).symm) rfl
    have hc := clashes_nextVersion hclash
    refine SameRestock.of_tables (fun id => ?_) rfl rfl
    show ((D.returns.update r' (nextVersion TableName.returns r' new)).get id).map _ = _
    rw [Table.get_update hs hc]
    split
    · rename_i hkey
      have hkey : new.id = id := hkey
      rw [← hkey, hid, hget]
      exact hline.symm
    · rfl
  have hsame := of_post hpost h
  exact hsame

/-- The restock of a sellable return, if it was not made before. -/
theorem restock_runs {r : Return} {line : OrderItem} {D D' : Db} {u : Unit}
    (h : (restock r line).runs D (.ok (u, D'))) :
    D' = D ∨ r.disposition = some "sellable" ∧
      (∀ m ∈ D.inventoryMovements, m.idempotencyKey ≠ restockKey r.id) ∧
        ∃ m, Restocked D D' r m := by
  unfold restock at h
  split at h
  · rename_i hsellable
    obtain ⟨res, D₁, hadjust, h₁⟩ := runs_bind_ok.mp h
    cases h₁
    have hsame := sameOff_of_runs InventoryService.adjust_confined hadjust
    rcases InventoryService.adjust_runs hadjust with rfl | ⟨hfresh, m, hm, hrow, hkey, hq, ht⟩
    · exact Or.inl rfl
    · exact Or.inr ⟨hsellable, hfresh, m, hm, hrow, hsame .returns (by decide),
        hsame .orderItems (by decide), hkey, hq, ht⟩
  · cases h
    exact Or.inl rfl

/-- The restock touches neither returns nor refunds. -/
theorem restock_same {r : Return} {line : OrderItem} {D D' : Db} {u : Unit}
    (h : (restock r line).runs D (.ok (u, D'))) :
    D'.returns = D.returns ∧ D'.refunds = D.refunds := by
  unfold restock at h
  split at h
  · obtain ⟨res, D₁, hadjust, h₁⟩ := runs_bind_ok.mp h
    cases h₁
    have hsame := sameOff_of_runs InventoryService.adjust_confined hadjust
    exact ⟨hsame .returns (by decide), hsame .refunds (by decide)⟩
  · cases h
    exact ⟨rfl, rfl⟩

/-- What a step may have brought back: nothing, or the stock of one return. -/
def Effect (D D' : Db) (payload : EventPayload) : Prop :=
  SameRestock D D' ∨ ∃ orderId returnId quantity r o line m D₁,
    payload = .orderReturned orderId returnId quantity ∧
      D.Restocking orderId returnId quantity r o line ∧ Restocked D D₁ r m ∧ SameRestock D₁ D'

/-- What follows the restock leaves the returned stock alone. -/
theorem reconcile_runs {r : Return} {o : Order} {orderId returnId : Uuid} {quantity : Int}
    {run : WorkflowRun} {D D' : Db} {outcome : WorkflowOutcome}
    (hr : D.returns.get returnId = some r) (ho : D.orders.get orderId = some o)
    (horder : r.orderId = o.id)
    (h : (reconcile r o quantity run).runs D (.ok (outcome, D'))) :
    outcome.approvalId = none ∧ Effect D D' (.orderReturned orderId returnId quantity) := by
  -- the guards in front of the restock: the line is there, and the quantities are in bounds
  obtain ⟨item, D₁, hquery, h₁⟩ := runs_bind_ok.mp h
  obtain ⟨rfl, rfl⟩ := Tx.runs_select.mp hquery
  obtain ⟨line, D₂, hrun₂, h₂⟩ := runs_bind_ok.mp h₁
  obtain ⟨hline, rfl⟩ := Tx.runs_orThrow.mp hrun₂
  obtain ⟨_, D₃, hrun₃, h₃⟩ := runs_bind_ok.mp h₂
  obtain ⟨hquantity, rfl⟩ := Tx.runs_require.mp hrun₃
  obtain ⟨_, D₄, hrun₄, h₄⟩ := runs_bind_ok.mp h₃
  obtain ⟨hle, rfl⟩ := Tx.runs_require.mp hrun₄
  obtain ⟨_, D₅, hrestock, h₅⟩ := runs_bind_ok.mp h₄
  -- the refunds of the order, in its currency and within its total
  obtain ⟨refunds, D₆, hrun₆, h₆⟩ := runs_bind_ok.mp h₅
  obtain ⟨hrefunds, rfl⟩ := Tx.runs_select.mp hrun₆
  obtain ⟨_, D₇, hrun₇, h₇⟩ := runs_bind_ok.mp h₆
  obtain ⟨hcurrency, rfl⟩ := Tx.runs_require.mp hrun₇
  obtain ⟨_, D₈, hrun₈, h₈⟩ := runs_bind_ok.mp h₇
  obtain ⟨htotal, rfl⟩ := Tx.runs_require.mp hrun₈
  obtain ⟨hreturns, hrefunds'⟩ := restock_same hrestock
  rw [hrefunds'] at hrefunds
  have hid : r.id = returnId := Table.key_of_get hr
  extract_lets finish at h₈
  -- the completed return names the line it named
  have hfinish : ∀ {E : Db}, SameRestock D₅ E → (finish ()).runs E (.ok (outcome, D')) →
      outcome.approvalId = none ∧ SameRestock D₅ D' := by
    intro E hE hrun
    obtain ⟨row, E₁, hflush, hrun₁⟩ := runs_bind_ok.mp hrun
    obtain ⟨_, E₂, haudit, hrun₂⟩ := runs_bind_ok.mp hrun₁
    have hline : (E.returns.get r.id).map (·.orderItemId) = some r.orderItemId := by
      rw [hE.returns, hreturns, hid, hr]
      rfl
    have hid' : Return.id { r with status := .completed } = r.id := rfl
    have hflush' := flushReturn_sameRestock hid' hline hflush
    have haudit' := SameRestock.of_runs
      (RestocksNothing.of_confined addAudit_confined (by decide)) haudit
    cases hrun₂
    exact ⟨rfl, (hE.trans hflush').trans haudit'⟩
  -- the order is RETURNED already, or may become so
  have hstatus : (o.status = .returned ∨ .returned ∈ o.status.allowedTransitions) ∧
      outcome.approvalId = none ∧ SameRestock D₅ D' := by
    split at h₈
    · obtain ⟨_, E, hupdate, h₉⟩ := runs_bind_ok.mp h₈
      have hupdate' := SameRestock.of_runs OrderService.updateStatus_restocksNothing hupdate
      exact ⟨(OrderService.updateStatus_allowed hupdate).imp_left Eq.symm, hfinish hupdate' h₉⟩
    · rename_i hreturned
      exact ⟨Or.inl (not_not.mp hreturned), hfinish (SameRestock.refl D₅) h₈⟩
  obtain ⟨hstatus, hnone, hrest⟩ := hstatus
  refine ⟨hnone, ?_⟩
  rcases restock_runs hrestock with rfl | ⟨hsellable, hfresh, m, hm⟩
  · exact Or.inl hrest
  · refine Or.inr ⟨orderId, returnId, quantity, r, o, line, m, D₅, rfl, ?_, hm, hrest⟩
    refine ⟨hr, ho, horder, ?_, hsellable, hquantity, hle, hfresh, ?_, ?_, hstatus⟩
    · split at hline
      · exact hline
      · cases hline
    · rw [← hrefunds]
      exact hcurrency
    · rw [← hrefunds]
      exact htotal

/-- **One reconciliation**: when the step returns it asks for no approval, and it brought back the
    stock of one return at most, with its guards met. -/
theorem returnToReconciliation_runs {event : EventEnvelope} {run : WorkflowRun} {D D' : Db}
    {outcome : Option WorkflowOutcome}
    (h : (returnToReconciliation event run).runs D (.ok (outcome, D'))) :
    (∀ o ∈ outcome, o.approvalId = none) ∧ Effect D D' event.data := by
  unfold returnToReconciliation at h
  split at h
  · rename_i orderId returnId quantity hdata
    obtain ⟨found, D₁, hrun₁, h₁⟩ := runs_bind_ok.mp h
    obtain ⟨hreturn, rfl⟩ := Tx.runs_select.mp hrun₁
    obtain ⟨found', D₂, hrun₂, h₂⟩ := runs_bind_ok.mp h₁
    obtain ⟨horder, rfl⟩ := Tx.runs_select.mp hrun₂
    split at h₂
    · obtain ⟨_, D₃, hrun₃, h₃⟩ := runs_bind_ok.mp h₂
      obtain ⟨heq, rfl⟩ := Tx.runs_require.mp hrun₃
      obtain ⟨result, D₄, hreconcile, h₄⟩ := runs_bind_ok.mp h₃
      cases h₄
      obtain ⟨hnone, heffect⟩ := reconcile_runs hreturn.symm horder.symm heq hreconcile
      rw [hdata]
      refine ⟨?_, heffect⟩
      rintro _ ⟨⟩
      exact hnone
    · exact nomatch h₂
  · exact nomatch h

end AutonomousOrchestrator

/-! ## The books of the returns -/

/-- No line is restocked beyond what was shipped of it, and only returns on record are. -/
structure ReturnBooks (D : Db) : Prop where
  /-- every line is of at least one unit -/
  quantity_pos : ∀ line ∈ D.orderItems, 0 < line.quantity
  /-- no more came back than was shipped -/
  restocked_le : ∀ line ∈ D.orderItems, D.restocked line ≤ D.shippedQuantity line
  /-- what came back was of a shipped line -/
  shipped : ∀ line ∈ D.orderItems, ∀ m ∈ D.inventoryMovements, D.restocks line m = true →
    0 < D.shippedQuantity line
  /-- and of a return on record -/
  recorded : ∀ m ∈ D.inventoryMovements, ∀ id, m.idempotencyKey = restockKey id →
    ∃ r ∈ D.returns, r.id = id

/-- A line that is shipped has been shipped as a whole. -/
theorem Books.le_shippedQuantity {D : Db} (h : Books D) {line : OrderItem}
    (hline : line ∈ D.orderItems) (hphase : D.linePhase line = .shipped) :
    line.quantity ≤ D.shippedQuantity line := by
  have hpos := h.allocated.quantity_pos line hline
  have hmoved := (h.allocated.moved line hline .shipment rfl).mpr (by rw [hphase]; decide)
  obtain ⟨m, hm, hof⟩ := hmoved
  have hquantity : ∀ m : InventoryMovement, m.isOf line .shipment = true →
      m.quantityDelta = -line.quantity := by
    intro m hof
    simp only [InventoryMovement.isOf, decide_eq_true_eq] at hof
    simpa using hof.2.2.2.2.2
  have hle := Table.le_sum_of_mem D.inventoryMovements hm
    (f := fun m => if m.isOf line .shipment then -m.quantityDelta else 0) (by
      intro m _
      split
      · rename_i hof
        rw [hquantity m hof]
        omega
      · exact le_refl _)
  simp only [hof, if_true] at hle
  rw [hquantity m hof, neg_neg] at hle
  exact hle

/-- What was shipped of a line is the line or nothing. -/
theorem Books.shippedQuantity_eq_zero {D : Db} (h : Books D) {line : OrderItem}
    (hline : line ∈ D.orderItems) (hphase : D.linePhase line ≠ .shipped) :
    D.shippedQuantity line = 0 := by
  have hnone : ∀ m ∈ D.inventoryMovements, (if m.isOf line .shipment then -m.quantityDelta else 0) =
      (0 : Int) := by
    intro m hm
    rw [if_neg]
    intro hof
    have hmem := (h.allocated.moved line hline .shipment rfl).mp ⟨m, hm, hof⟩
    cases hp : D.linePhase line with
    | shipped => exact hphase hp
    | _ =>
      rw [hp] at hmem
      exact absurd hmem (by decide)
  refine (Table.sum_congr _ hnone).trans ?_
  simp [Table.sum]

namespace ReturnBooks

variable {D D' : Db}

/-- At first nothing was restocked. -/
theorem of_nothing (h : Books D) (hnone : D.NothingRestocked) : ReturnBooks D := by
  have hrestocks : ∀ line, ∀ m ∈ D.inventoryMovements, D.restocks line m = false := by
    intro line m hm
    rw [← Bool.not_eq_true, Db.restocks_eq_true]
    rintro ⟨r, -, -, hkey⟩
    exact hnone m hm r.id hkey
  refine ⟨h.allocated.quantity_pos, fun line hline => ?_, ?_, ?_⟩
  · have hzero : D.restocked line = 0 := by
      refine (Table.sum_congr _ fun m hm => if_neg ?_).trans (by simp [Table.sum])
      rw [hrestocks line m hm]
      exact Bool.false_ne_true
    rw [hzero]
    by_cases hphase : D.linePhase line = .shipped
    · have hle := h.le_shippedQuantity hline hphase
      have hpos := h.allocated.quantity_pos line hline
      omega
    · rw [h.shippedQuantity_eq_zero hline hphase]
  · intro line _ m hm hof
    rw [hrestocks line m hm] at hof
    cases hof
  · intro m hm id hkey
    exact absurd hkey (hnone m hm id)

/-- What is shipped of a line stays shipped. -/
theorem shippedQuantity_mono (h : ReturnBooks D) (hD : SameRestock D D') {line : OrderItem}
    (hline : line ∈ D.orderItems) : D.shippedQuantity line ≤ D'.shippedQuantity line := by
  refine hD.sum_le _ fun m => ?_
  split
  · rename_i hof
    have hpos := h.quantity_pos line hline
    simp only [InventoryMovement.isOf, decide_eq_true_eq] at hof
    obtain ⟨-, -, -, -, -, hq⟩ := hof
    simp only [reduceCtorEq, if_false] at hq
    omega
  · exact le_refl _

/-- What restocks nothing keeps them. -/
theorem same (h : ReturnBooks D) (hD : SameRestock D D') : ReturnBooks D' := by
  have hrestocks := hD.returns.restocks
  have hkey : ∀ line m, D.restocks line m = true → ∃ id, m.idempotencyKey = restockKey id := by
    intro line m hof
    obtain ⟨r, -, -, hkey⟩ := Db.restocks_eq_true.mp hof
    exact ⟨r.id, hkey⟩
  have hrestocked : ∀ line, D'.restocked line = D.restocked line := by
    intro line
    unfold Db.restocked
    rw [hrestocks]
    refine hD.sum_eq _ fun m hm => if_neg fun hof => ?_
    obtain ⟨id, hid⟩ := hkey line m hof
    exact hm id hid
  refine ⟨?_, ?_, ?_, ?_⟩
  · rw [hD.lines]
    exact h.quantity_pos
  · rw [hD.lines]
    intro line hline
    rw [hrestocked]
    exact le_trans (h.restocked_le line hline) (h.shippedQuantity_mono hD hline)
  · rw [hD.lines]
    intro line hline m hm hof
    rw [hrestocks] at hof
    refine lt_of_lt_of_le ?_ (h.shippedQuantity_mono hD hline)
    rcases hD.mem m hm with hm | hm
    · exact h.shipped line hline m hm hof
    · obtain ⟨id, hid⟩ := hkey line m hof
      exact absurd hid (hm id)
  · intro m hm id hid
    rcases hD.mem m hm with hm | hm
    · obtain ⟨r, hr, hrid⟩ := h.recorded m hm id hid
      obtain ⟨r', hr', hid', -⟩ := hD.returns.symm.mem hr
      exact ⟨r', hr', hid'.trans hrid⟩
    · exact absurd hid (hm id)

/-- **The stock of a return comes back** to a line that has room for it.  The line's own sum grows
    by the quantity of the return, which the room covers; the other lines are not named by this
    return. -/
theorem restock (h : ReturnBooks D) (hbooks : Books D) {orderId returnId : Uuid} {quantity : Int}
    {r : Return} {o : Order} {line : OrderItem} {m : InventoryMovement}
    (hr : D.Restocking orderId returnId quantity r o line) (horder : line.orderId = o.id)
    (hroom : D.restocked line + r.quantity ≤ line.quantity) (hD : Restocked D D' r m) :
    ReturnBooks D' := by
  have hmem : r ∈ D.returns := Table.mem_of_get hr.return_get
  have hrestocks : D'.restocks = D.restocks := by
    funext line m
    unfold Db.restocks
    rw [hD.returns]
  obtain ⟨hline, hline'⟩ : line ∈ D.orderItems ∧ r.orderItemId = some line.id := by
    obtain ⟨id, hid, hget⟩ := Option.bind_eq_some_iff.mp hr.line_get
    rw [hid, ← (Table.key_of_get hget : line.id = id)]
    exact ⟨Table.mem_of_get hget, rfl⟩
  -- the new movement restocks this line, and no other
  have hof : ∀ l ∈ D.orderItems, D.restocks l m = true ↔ l = line := by
    intro l hl
    rw [Db.restocks_eq_true]
    constructor
    · rintro ⟨r', hr', hitem, hkey⟩
      obtain rfl := D.returns.eq_of_key_eq hr' hmem (restockKey_inj (hkey.symm.trans hD.key))
      exact D.orderItems.eq_of_key_eq hl hline (Option.some.inj (hitem.symm.trans hline'))
    · rintro rfl
      exact ⟨r, hmem, hline', hD.key⟩
  -- it is a return, so nothing more is shipped
  have hshipped : ∀ l, D'.shippedQuantity l = D.shippedQuantity l := by
    intro l
    unfold Db.shippedQuantity
    rw [hD.movements, Table.sum_insert hD.conflicts, if_neg, add_zero]
    intro hm
    exact nomatch (movementType_of_isOf hm).symm.trans hD.type
  have hget : D.orders.get line.orderId = some o := by
    have hid : o.id = orderId := Table.key_of_get hr.order_get
    rw [horder, hid]
    exact hr.order_get
  -- the order has shipped, so the line has left in full
  have hcovered : line.quantity ≤ D.shippedQuantity line :=
    hbooks.le_shippedQuantity hline ((Db.linePhase_of_get hget).trans hr.phase)
  have hrestocked : ∀ l, D'.restocked l =
      D.restocked l + if D.restocks l m = true then r.quantity else 0 := by
    intro l
    unfold Db.restocked
    rw [hrestocks, hD.movements, Table.sum_insert hD.conflicts, hD.quantity]
  refine ⟨?_, ?_, ?_, ?_⟩
  · rw [hD.lines]
    exact h.quantity_pos
  · rw [hD.lines]
    intro l hl
    rw [hrestocked, hshipped]
    split
    · rename_i hm
      obtain rfl := (hof l hl).mp hm
      omega
    · have hle := h.restocked_le l hl
      omega
  · rw [hD.lines, hD.movements]
    intro l hl m' hm' hof'
    rw [hshipped]
    rw [hrestocks] at hof'
    rcases (Table.mem_insert hD.conflicts).mp hm' with hm' | rfl
    · exact h.shipped l hl m' hm' hof'
    · obtain rfl := (hof l hl).mp hof'
      have hpos := h.quantity_pos l hl
      omega
  · rw [hD.movements, hD.returns]
    intro m' hm' id hid
    rcases (Table.mem_insert hD.conflicts).mp hm' with hm' | rfl
    · exact h.recorded m' hm' id hid
    · exact ⟨r, hmem, restockKey_inj (hD.key.symm.trans hid)⟩

/-- A reconciliation that meets the check keeps them. -/
theorem effect (h : ReturnBooks D) (hbooks : Books D) {payload : EventPayload}
    (hwithin : D.Within payload) (hD : AutonomousOrchestrator.Effect D D' payload) :
    ReturnBooks D' := by
  rcases hD with hD | ⟨orderId, returnId, quantity, r, o, line, m, D₁, rfl, hr, hm, hrest⟩
  · exact h.same hD
  · obtain ⟨horder, hroom⟩ := hwithin r o line hr
    exact (h.restock hbooks hr horder hroom hm).same hrest

/-- A return that is put on record was not restocked before. -/
theorem record (h : ReturnBooks D) {r : Return} (hr : D.returns.conflicts r = false) :
    ReturnBooks (Database.apply ⟨.returns, .insert r⟩ D) := by
  let D' : Db := Database.apply ⟨.returns, .insert r⟩ D
  have hmem : ∀ r', r' ∈ D'.returns ↔ r' ∈ D.returns ∨ r' = r := fun r' => Table.mem_insert hr
  have hrestocks : ∀ line, ∀ m ∈ D.inventoryMovements, D'.restocks line m = D.restocks line m := by
    intro line m hm
    rw [Bool.eq_iff_iff, Db.restocks_eq_true, Db.restocks_eq_true]
    constructor
    · rintro ⟨r', hr', hline, hkey⟩
      rcases (hmem r').mp hr' with hr' | rfl
      · exact ⟨r', hr', hline, hkey⟩
      · -- a restock under its key would need an older return of its id
        obtain ⟨r'', hr'', hid⟩ := h.recorded m hm r'.id hkey
        exact absurd hid (Table.conflicts_eq_false.mp hr r'' hr'').1
    · rintro ⟨r', hr', hrest⟩
      exact ⟨r', (hmem r').mpr (Or.inl hr'), hrest⟩
  have hrestocked : ∀ line, D'.restocked line = D.restocked line := by
    intro line
    refine Table.sum_congr _ fun m hm => ?_
    rw [hrestocks line m hm]
  refine ⟨h.quantity_pos, fun line hline => ?_, fun line hline m hm hof => ?_, ?_⟩
  · refine (hrestocked line).le.trans (h.restocked_le line hline)
  · refine h.shipped line hline m hm ?_
    rw [← hrestocks line m hm]
    exact hof
  · intro m hm id hid
    obtain ⟨r', hr', hrid⟩ := h.recorded m hm id hid
    exact ⟨r', (hmem r').mpr (Or.inl hr'), hrid⟩

end ReturnBooks

/-! ## Histories of returns -/

/-- The calls a return goes through: it is put on record, the status of orders changes, and its
    event is delivered, resumed and retried. -/
inductive ReturnCall where
  | record (row : Return)
  | status (orderId : Uuid) (target : OrderStatus) (actor reason : String)
  | deliver (event : EventEnvelope) (now : Instant)
  | resume (workflowId : Uuid) (now : Instant)
  | retry (now : Instant) (limit : Nat)

open AutonomousOrchestrator

section Histories

variable [Digests] (policy : WorkflowExecutionPolicy)

/-- The call as a transaction; most of them are calls on the warehouse. -/
def ReturnCall.run : ReturnCall → Tx Unit
  | record row => do
    let _ ← add .returns row
  | status orderId target actor reason =>
    (StockCall.updateStatus orderId target actor reason).run policy
  | deliver event now => (StockCall.handleReturn event now).run policy
  | resume workflowId now => (StockCall.resumeReturn workflowId now).run policy
  | retry now limit => (StockCall.retryReturns now limit).run policy

/-- `Within`, for the event a run was created for. -/
def Db.ResumeWithin (D : Db) (workflowId : Uuid) : Prop :=
  ∀ workflow sourceEventId record, D.workflowRuns.get workflowId = some workflow →
    workflow.sourceEventId = some sourceEventId →
    D.domainEvents.get sourceEventId = some record →
    D.Within (DatabaseEventStore.toEnvelope record).data

/-- `Within`, for each run of a retry pass on the state the pass has come to. -/
def Db.PassWithin (now : Instant) : List WorkflowRun → Db → Prop
  | [], _ => True
  | workflow :: rest, D => D.ResumeWithin workflow.id ∧
      ∀ run D', ((returnEngine policy).resume workflow.id now).runs D (.ok (run, D')) →
        Db.PassWithin now rest D'

/-- Every reconciliation a call makes is `Within`. -/
def ReturnCall.Within : ReturnCall → Db → Prop
  | record _, _ => True
  | status _ _ _ _, _ => True
  | deliver event _, D => D.Within event.data
  | resume workflowId _, D => D.ResumeWithin workflowId
  | retry now limit, D => D.PassWithin policy now (WorkflowEngine.due now limit D.workflowRuns.rows)

variable {policy} {D D' D₀ : Db}

omit [Digests] in
/-- The step of every workflow of this engine is the reconciliation. -/
theorem returnEngine_step {name : String} {definition : WorkflowDefinition}
    (h : (returnEngine policy).definitions name = some definition) :
    definition.step = returnToReconciliation := by
  unfold returnEngine at h
  dsimp only at h
  split at h
  · rw [← Option.some.inj h]
    rfl
  · exact nomatch h

omit [Digests] in
/-- What keeps the books among others keeps them in a call on its own. -/
theorem books_of_runs {α : Type} {p : Tx α} {bad : Error → Prop}
    (h : p.ensures bad ⟨[], D, D⟩ fun _ pt => Books pt.view) {a : α}
    (hrun : p.runs D (.ok (a, D'))) : Books D' := by
  obtain ⟨pt, hview, hbooks⟩ := of_post (Prog.post_of_ensures h) hrun
  rw [← hview]
  exact hbooks

omit [Digests] in
/-- An attempt that meets the check keeps the books of the returns: a step that returned brought
    back one return at most, and one that raised was undone. -/
theorem ReturnBooks.attempt (h : ReturnBooks D) (hbooks : Books D) {event : EventEnvelope}
    {run : WorkflowRun} (hwithin : D.Within event.data)
    (hD : WorkflowEngine.Effect returnToReconciliation event D D' run) : ReturnBooks D' := by
  rcases hD with hD | ⟨run₁, D₁, outcome, D₂, h₁, hstep, h₂, -⟩
  · exact h.same (SameRestock.of_sameElsewhere hD)
  · obtain ⟨-, heffect⟩ := returnToReconciliation_runs hstep
    have hbooks₁ : Books D₁ := books_of_engineTables D D₁ h₁ hbooks
    have hreturns₁ := h.same (SameRestock.of_sameElsewhere h₁)
    exact (hreturns₁.effect hbooks₁ (hwithin.congr h₁) heffect).same
      (SameRestock.of_sameElsewhere h₂)

omit [Digests] in
/-- An attempt that does not succeed leaves everything but the engine's tables as it was. -/
theorem attempt_undone {event : EventEnvelope} {run : WorkflowRun}
    (hD : WorkflowEngine.Effect returnToReconciliation event D D' run)
    (hstatus : run.status ≠ .succeeded) : WorkflowEngine.SameElsewhere D D' := by
  rcases hD with hD | ⟨run₁, D₁, outcome, D₂, -, hstep, -, hsucceeded⟩
  · exact hD
  · obtain ⟨hnone, -⟩ := returnToReconciliation_runs hstep
    refine absurd (hsucceeded ?_) hstatus
    cases outcome with
    | none => rfl
    | some outcome => exact hnone outcome rfl

/-- A delivered event: the run it finds or creates is attempted once. -/
theorem ReturnBooks.deliver (h : ReturnBooks D) (hbooks : Books D) {event : EventEnvelope}
    {now : Instant} {run : WorkflowRun} (hwithin : D.Within event.data)
    (hrun : ((returnEngine policy).handleEvent returnWorkflowName event now).runs D
      (.ok (run, D'))) : ReturnBooks D' := by
  rcases WorkflowEngine.handleEvent_effect hrun with hD | ⟨definition, hd, hD⟩
  · exact h.same (SameRestock.of_sameElsewhere hD)
  · rw [returnEngine_step hd] at hD
    exact h.attempt hbooks hwithin hD

omit [Digests] in
/-- A run that is resumed is attempted once more, with the event it was created for. -/
theorem ReturnBooks.resume (h : ReturnBooks D) (hbooks : Books D) {workflowId : Uuid}
    {now : Instant} {run : WorkflowRun} (hwithin : D.ResumeWithin workflowId)
    (hrun : ((returnEngine policy).resume workflowId now).runs D (.ok (run, D'))) :
    ReturnBooks D' := by
  rcases WorkflowEngine.resume_effect hrun with
    hD | ⟨workflow, sourceEventId, record, definition, hw, hsource, hrecord, hd, hD⟩
  · exact h.same (SameRestock.of_sameElsewhere hD)
  · rw [returnEngine_step hd] at hD
    exact h.attempt hbooks (hwithin workflow sourceEventId record hw hsource hrecord) hD

omit [Digests] in
/-- A retry pass, by induction on the runs it resumes. -/
theorem ReturnBooks.retry {now : Instant} {workflows runs : List WorkflowRun}
    (h : ReturnBooks D) (hbooks : Books D) (hwithin : D.PassWithin policy now workflows)
    (hrun : ((returnEngine policy).resumeAll now workflows).runs D (.ok (runs, D'))) :
    ReturnBooks D' := by
  induction workflows generalizing D runs with
  | nil =>
    cases hrun
    exact h
  | cons workflow rest ih =>
    obtain ⟨hfirst, hrest⟩ := hwithin
    obtain ⟨run, D₁, hresume, hrun₁⟩ := runs_bind_ok.mp hrun
    obtain ⟨runs', D₂, hall, hrun₂⟩ := runs_bind_ok.mp hrun₁
    cases hrun₂
    have hbooks₁ : Books D₁ := books_of_runs
      (WorkflowEngine.resume_ensures books_of_engineTables
        (fun _ he => Error.isStockError.isOrderValidation he)
        (returnEngine_keeps policy) hbooks workflow.id now) hresume
    exact ih (h.resume hbooks hfirst hresume) hbooks₁ (hrest run D₁ hresume) hall

/-- **A call keeps both books**, when its reconciliations are within their lines. -/
theorem ReturnCall.run_keeps (c : ReturnCall) (h : ReturnBooks D) (hbooks : Books D)
    (hwithin : c.Within policy D) {u : Unit} (hrun : (c.run policy).runs D (.ok (u, D'))) :
    Books D' ∧ ReturnBooks D' := by
  have hstock : ∀ call : StockCall, (call.run policy).runs D (.ok (u, D')) → Books D' :=
    fun call hcall => books_of_runs (StockCall.run_ensures policy _ D hbooks) hcall
  cases c with
  | record row =>
    obtain ⟨row', D₁, hadd, hrun₁⟩ := runs_bind_ok.mp hrun
    cases hrun₁
    have hother : TableName.returns ∉ stockTables := by decide
    have hpost : (add .returns row).post D (fun _ D' => Books D' ∧ ReturnBooks D')
        fun _ => True := by
      refine post_insert.mpr ⟨fun hconflicts => ⟨?_, h.record hconflicts⟩, fun _ => trivial⟩
      exact hbooks.congr ((SameStock.refl D).apply_other (w := ⟨.returns, .insert row⟩) hother)
    have hkept := of_post hpost hadd
    exact hkept
  | status orderId target actor reason =>
    refine ⟨hstock (.updateStatus orderId target actor reason) hrun, ?_⟩
    obtain ⟨order, D₁, hupdate, hrun₁⟩ := runs_bind_ok.mp hrun
    cases hrun₁
    exact h.same (SameRestock.of_runs OrderService.updateStatus_restocksNothing hupdate)
  | deliver event now =>
    refine ⟨hstock (.handleReturn event now) hrun, ?_⟩
    obtain ⟨run, D₁, hdeliver, hrun₁⟩ := runs_bind_ok.mp hrun
    cases hrun₁
    exact h.deliver hbooks hwithin hdeliver
  | resume workflowId now =>
    refine ⟨hstock (.resumeReturn workflowId now) hrun, ?_⟩
    obtain ⟨run, D₁, hresume, hrun₁⟩ := runs_bind_ok.mp hrun
    cases hrun₁
    exact h.resume hbooks hwithin hresume
  | retry now limit =>
    refine ⟨hstock (.retryReturns now limit) hrun, ?_⟩
    obtain ⟨runs, D₁, hretry, hrun₁⟩ := runs_bind_ok.mp hrun
    cases hrun₁
    exact h.retry hbooks hwithin hretry

end Histories

/-! ## Returns of one line -/

/-- The sample order has arrived. -/
def deliveredDb : Db :=
  sampleRun
    [sampleReceipt, .ingest sampleOrder, .updateStatus sampleOrderId .processing "system" "picked",
      .updateStatus sampleOrderId .dispatched "system" "sent",
      .updateStatus sampleOrderId .delivered "system" "arrived"]

/-- A return of `quantity` units of the first line. -/
def sampleReturn (id : Nat) (quantity : Int) : ReturnCall :=
  .record
    { id := Uuid.ofNat id, version := 1, orderId := sampleOrderId
      orderItemId := some (Uuid.ofNat 2007), quantity, disposition := some "sellable"
      status := .received }

/-- The event of that return. -/
def sampleReturnEvent (id : Nat) (quantity : Int) : ReturnCall :=
  .deliver
    { eventId := Uuid.ofNat (100 + id), eventVersion := 1, occurredAt := 0, producer := "market"
      aggregateType := "order", aggregateId := sampleOrderId, aggregateVersion := 1
      correlationId := sampleOrderId, workflowId := none, causationId := none
      idempotencyKey := "return-event",
      data := .orderReturned sampleOrderId (Uuid.ofNat id) quantity }
    0

/-- The state after some calls on the delivered order. -/
def returnRun (calls : List ReturnCall) : Db :=
  afterCalls (@ReturnCall.run Digests.byEnding samplePolicy) Environment.numbered 10 calls
    deliveredDb

/-- The books of the delivered state are in order. -/
theorem deliveredDb_books : Books deliveredDb := by
  obtain ⟨sys, h, hD⟩ := System.Reachable.sequential Environment.numbered sampleReceipt
    [.ingest sampleOrder, .updateStatus sampleOrderId .processing "system" "picked",
      .updateStatus sampleOrderId .dispatched "system" "sent",
      .updateStatus sampleOrderId .delivered "system" "arrived"] sampleDb
  have hbooks := @books_of_reachable Digests.byEnding samplePolicy _ _ sampleDb_emptyInventory h
  rw [hD] at hbooks
  exact hbooks

/-- No return has come back in that state yet. -/
theorem deliveredDb_nothingRestocked : deliveredDb.NothingRestocked := by
  have hkeys : ∀ m ∈ deliveredDb.inventoryMovements.rows,
      m.idempotencyKey.toList.take 3 ≠ ['r', 'e', 't'] := by decide +kernel
  intro m hm id hkey
  refine hkeys m hm ?_
  rw [hkey]
  simp [restockKey, toString]

/-- The check, for the records of one event. -/
theorem Db.within_of_room {D : Db} {orderId returnId : Uuid} {quantity : Int}
    (h : ∀ r ∈ D.returns.get returnId, ∀ o ∈ D.orders.get orderId,
      ∀ line ∈ r.orderItemId.bind D.orderItems.get,
        line.orderId = o.id ∧ D.restocked line + r.quantity ≤ line.quantity) :
    D.Within (.orderReturned orderId returnId quantity) :=
  fun r o line hr => h r hr.return_get o hr.order_get line hr.line_get

/-! ## Returned stock was shipped -/

section Shipped

variable [Digests] {policy : WorkflowExecutionPolicy} {D D₀ : Db}

/-- **Returned stock was shipped**, in every history whose reconciliations stay within their lines:
    what comes back to a line is at most what was shipped of it, and nothing comes back to a line
    whose order never left the warehouse.  An attempt that does not succeed leaves everything
    outside the engine's tables as it was. -/
theorem returned_stock_was_shipped (h₀ : Books D₀) (hnone : D₀.NothingRestocked)
    (h : History (ReturnCall.run policy) (ReturnCall.Within policy) D₀ D) :
    (∀ line ∈ D.orderItems, D.restocked line ≤ D.shippedQuantity line ∧
        ∀ order, D.orders.get line.orderId = some order → order.status.isShipped = false →
          ∀ m ∈ D.inventoryMovements, D.restocks line m = false) ∧
      (∀ event now run D',
        ((returnEngine policy).handleEvent returnWorkflowName event now).runs D (.ok (run, D')) →
          run.status ≠ .succeeded → WorkflowEngine.SameElsewhere D D') ∧
      ∀ workflowId now run D',
        ((returnEngine policy).resume workflowId now).runs D (.ok (run, D')) →
          run.status ≠ .succeeded → WorkflowEngine.SameElsewhere D D' := by
  have hinv : Books D ∧ ReturnBooks D := by
    refine h.inv (P := fun D => Books D ∧ ReturnBooks D)
      ⟨h₀, ReturnBooks.of_nothing h₀ hnone⟩ ?_
    rintro c D u D' ⟨hbooks, hreturns⟩ hwithin hrun
    exact c.run_keeps hreturns hbooks hwithin hrun
  obtain ⟨hbooks, hreturns⟩ := hinv
  refine ⟨fun line hline => ⟨hreturns.restocked_le line hline, ?_⟩, ?_, ?_⟩
  · intro order horder hstatus m hm
    by_contra hof
    have hpos := hreturns.shipped line hline m hm (by simpa using hof)
    refine absurd (hbooks.shippedQuantity_eq_zero hline ?_) hpos.ne'
    rw [Db.linePhase_of_get horder, Ne, OrderStatus.phase_eq_shipped, hstatus]
    exact Bool.false_ne_true
  · intro event now run D' hrun hstatus
    rcases WorkflowEngine.handleEvent_effect hrun with hD | ⟨definition, hd, hD⟩
    · exact hD
    · rw [returnEngine_step hd] at hD
      exact attempt_undone hD hstatus
  · intro workflowId now run D' hrun hstatus
    rcases WorkflowEngine.resume_effect hrun with hD | ⟨_, _, record, definition, -, -, -, hd, hD⟩
    · exact hD
    · rw [returnEngine_step hd] at hD
      exact attempt_undone hD hstatus

omit [Digests] in
/-- Two of the three units come back, and are back in stock. -/
theorem returned_stock_was_shipped_sample :
    ((returnRun [sampleReturn 20 2, sampleReturnEvent 20 2]).orderItems.rows.map fun line =>
        (returnRun [sampleReturn 20 2, sampleReturnEvent 20 2]).restocked line) = [2, 0] ∧
      ∀ line ∈ (returnRun [sampleReturn 20 2, sampleReturnEvent 20 2]).orderItems,
        (returnRun [sampleReturn 20 2, sampleReturnEvent 20 2]).restocked line ≤
          (returnRun [sampleReturn 20 2, sampleReturnEvent 20 2]).shippedQuantity line := by
  refine ⟨by decide +kernel, ?_⟩
  have hrecord : History (@ReturnCall.run Digests.byEnding samplePolicy)
      (ReturnCall.Within samplePolicy) deliveredDb (returnRun [sampleReturn 20 2]) :=
    History.start.afterCall _ trivial
  have hdeliver : History (@ReturnCall.run Digests.byEnding samplePolicy)
      (ReturnCall.Within samplePolicy) deliveredDb
      (returnRun [sampleReturn 20 2, sampleReturnEvent 20 2]) := by
    refine hrecord.afterCall (Environment.numbered 11) ?_
    exact Db.within_of_room (by decide +kernel)
  intro line hline
  exact ((@returned_stock_was_shipped Digests.byEnding _ _ _ deliveredDb_books
    deliveredDb_nothingRestocked hdeliver).1 line hline).1

omit [Digests] in
/-- **Stock is created where the check is missing**: two returns of the whole line are both
    restocked. -/
theorem returned_stock_exceeds_shipped :
    ¬∀ (policy : WorkflowExecutionPolicy) (D₀ D : Db), Books D₀ → D₀.NothingRestocked →
      History (@ReturnCall.run Digests.byEnding policy) (fun _ _ => True) D₀ D →
        ∀ line ∈ D.orderItems, D.restocked line ≤ D.shippedQuantity line := by
  intro h
  have hcalls := h samplePolicy deliveredDb _ deliveredDb_books deliveredDb_nothingRestocked
    (History.start.afterCalls Environment.numbered 10
      [sampleReturn 20 3, sampleReturn 21 3, sampleReturnEvent 20 3, sampleReturnEvent 21 3])
  revert hcalls
  show ¬∀ line ∈ (returnRun [sampleReturn 20 3, sampleReturn 21 3, sampleReturnEvent 20 3,
    sampleReturnEvent 21 3]).orderItems.rows, _
  decide +kernel

end Shipped

end CommerceOperations
