/-
  Orders that fit, and orders that are refused.

  `_reserve` takes each line of an order from the item of its SKU with most available stock, and
  does not look ahead: a line that goes to a large item may take the room that a later line needs,
  while a smaller item would have done.  So there are two questions about an order, and they have
  different answers:

  1. do its lines fit at all (`Db.Fits`), that is, is there an assignment of lines to items within
     the available stock, and
  2. do they fit in their order, each at an item with most room (`Db.FitsMostAvailable`).

  Both are instances of `Allocation/MostFree`, at the items of the inventory.

  An ingestion is followed here along one stream of answers of the environment, with ids that are
  in use nowhere.  Then no constraint can be violated, nothing but missing stock stops the call,
  and it raises `InsufficientInventoryError` exactly if the answer to the second question is no.

  The crux is `reserveFrom_along`: the candidates come sorted, so the first one the loop takes is
  one with most room, and if the first has no room none has.  The rest is bookkeeping about new
  ids, keys and versions.
-/
import CommerceOperations.Allocation.MostFree
import CommerceOperations.Application.Warehouse
import CommerceOperations.Relational.Oracle

namespace CommerceOperations

open Relational Prog Allocation

/-! ## Lines and items -/

/-- The units a line asks for, and the SKU it asks them of. -/
def NormalizedOrderItem.demand (line : NormalizedOrderItem) : Demand String :=
  ⟨line.sku, line.quantity⟩

/-- The SKU an item is of; none, if there is no such item. -/
def Db.skuAt (D : Db) (id : Uuid) : Option String := (D.inventoryItems.get id).map (·.sku)

/-- The available stock of an item: what is on hand and not reserved. -/
def Db.availableAt (D : Db) (id : Uuid) : Int :=
  ((D.inventoryItems.get id).map (·.availableQuantity)).getD 0

/-- Each line can be assigned to an item of its SKU, within the available stock of the items. -/
def Db.Fits (D : Db) (command : NormalizedMarketplaceOrder) : Prop :=
  Allocation.Fits D.skuAt D.availableAt (command.items.map (·.demand))

/-- The lines, in their order, find room at an item of their SKU with most available stock. -/
def Db.FitsMostAvailable (D : Db) (command : NormalizedMarketplaceOrder) : Prop :=
  FitsMostFree D.skuAt D.availableAt (command.items.map (·.demand))

/-- What the constraints of the tables and the numbering of the events promise of the items. -/
structure InventoryState (D : Db) : Prop where
  /-- the checks of the table of items -/
  items : ∀ item ∈ D.inventoryItems, 0 ≤ item.reservedQuantity ∧
    item.reservedQuantity ≤ item.quantityOnHand ∧ 0 ≤ item.lowStockThreshold ∧ 0 < item.version
  /-- no event is ahead of its item -/
  events : ∀ e ∈ D.domainEvents, e.aggregateType = "inventory_item" →
    ∀ item, D.inventoryItems.get e.aggregateId = some item → e.aggregateVersion ≤ item.version

/-- The order is valid, and neither it nor its event is stored. -/
structure IsNewOrder [Digests] (D : Db) (command : NormalizedMarketplaceOrder) : Prop where
  /-- a status that an order may arrive with -/
  status : command.status = .pending ∨ command.status = .paid
  /-- no line twice -/
  lines : (command.items.map (·.externalLineId)).Nodup
  /-- no discount above its line -/
  discounts : ¬∃ line ∈ command.items,
    line.unitPrice.value * line.quantity + line.taxAmount.value < line.discountAmount.value
  /-- the marketplace has not sent this order before -/
  order : ∀ o ∈ D.orders, ¬(o.marketplace = command.marketplace ∧
    o.marketplaceAccountId = command.marketplaceAccountId ∧
      o.externalOrderId = command.externalOrderId)
  /-- nor this event -/
  event : ∀ o ∈ D.orders, ¬(o.marketplace = command.marketplace ∧
    o.marketplaceAccountId = command.marketplaceAccountId ∧
      o.sourceEventId = command.sourceEventId)
  /-- and no run is under way for it -/
  workflow : ∀ w ∈ D.workflowRuns, ¬(w.workflowName = "marketplace-order-fulfilment" ∧
    w.correlationId = OrderService.correlationId command)

/-! ## New ids -/

/-- The id is in use nowhere, and no key is made from it. -/
structure Unused (D : Db) (id : Uuid) : Prop where
  /-- not a run's -/
  workflowRun : ∀ r ∈ D.workflowRuns, r.id ≠ id
  /-- not an order's -/
  order : ∀ r ∈ D.orders, r.id ≠ id
  /-- not a line's, and no line refers to it -/
  orderItem : ∀ r ∈ D.orderItems, r.id ≠ id ∧ r.orderId ≠ id
  /-- not a movement's, and no reservation key is made from it -/
  movement : ∀ r ∈ D.inventoryMovements, r.id ≠ id ∧
    ∀ line, r.idempotencyKey ≠ OrderService.movementKey .reservation id line
  /-- not an event's, and no event key is made from it -/
  event : ∀ r ∈ D.domainEvents, r.id ≠ id ∧
    r.idempotencyKey ≠ s!"inventory-changed:{id}" ∧ r.idempotencyKey ≠ s!"low-stock:{id}"

/-- The first `N` answers of the environment bring ids that differ. -/
def DifferentIds (o : Nat → Environment) (N : Nat) : Prop :=
  ∀ m < N, ∀ n < N, (o m).uuid4 = (o n).uuid4 → m = n

/-- From the `n`-th answer to the `N`-th the ids are new. -/
def NewIds (o : Nat → Environment) (n N : Nat) (D : Db) : Prop :=
  ∀ m, n ≤ m → m < N → Unused D (o m).uuid4

/-- Two movements never share the key of an `INVENTORY_CHANGED` event. -/
theorem changedKey_inj {a b : Uuid} (h : s!"inventory-changed:{a}" = s!"inventory-changed:{b}") :
    a = b := by
  have hkey : ∀ id : Uuid, s!"inventory-changed:{id}" = "inventory-changed:" ++ id.text := by
    intro id
    simp [toString]
  rw [hkey, hkey] at h
  exact Uuid.eq_of_text_eq (append_inj_of_length h rfl).2

/-- Two movements never share the key of a `LOW_STOCK` event. -/
theorem lowStockKey_inj {a b : Uuid} (h : s!"low-stock:{a}" = s!"low-stock:{b}") : a = b := by
  have hkey : ∀ id : Uuid, s!"low-stock:{id}" = "low-stock:" ++ id.text := by
    intro id
    simp [toString]
  rw [hkey, hkey] at h
  exact Uuid.eq_of_text_eq (append_inj_of_length h rfl).2

/-- No key of the one kind is a key of the other: they differ in their first letter. -/
theorem changedKey_ne_lowStockKey (a b : Uuid) :
    s!"inventory-changed:{a}" ≠ s!"low-stock:{b}" := by
  intro h
  have hfirst := congrArg (fun s : String => s.toList.head?) h
  simp [toString] at hfirst

/-! ## Events -/

section Events

variable {o : Nat → Environment} {n N : Nat} {D : Db} {R : Error → Prop}

/-- A requirement that holds is passed. -/
theorem along_require {cond : Prop} [Decidable cond] {type : ExceptionType} {message : String}
    {Q : Nat → Unit → Db → Prop} (h : cond) (hQ : Q n () D) :
    (Tx.require cond type message).along o n D Q R := by
  unfold Tx.require
  rw [if_pos h]
  exact hQ

/-- A value that is there is passed on. -/
theorem along_orThrow {α : Type} {a : α} {type : ExceptionType} {message : String}
    {Q : Nat → α → Db → Prop} (hQ : Q n a D) :
    (Tx.orThrow (some a) type message).along o n D Q R := hQ

/-- An event is new if its id, its key and its place in the history of its aggregate are. -/
structure NewEvent (D : Db) (id : Uuid) (key : String) (context : EventContext)
    (eventType : String) : Prop where
  /-- the id is new -/
  id : ∀ r ∈ D.domainEvents, r.id ≠ id
  /-- so is the idempotency key -/
  key : ∀ r ∈ D.domainEvents, r.idempotencyKey ≠ key
  /-- and the aggregate has no event of this type at this version -/
  aggregate : ∀ r ∈ D.domainEvents, ¬(r.aggregateType = context.aggregateType ∧
    r.aggregateId = context.aggregateId ∧ r.aggregateVersion = context.aggregateVersion ∧
      r.eventType = eventType)

/-- The row that `emit` writes for an event of this id, key, context and type, as far as the
    constraints look at it. -/
structure IsRowOf (row : DomainEvent) (id : Uuid) (key : String) (context : EventContext)
    (eventType : String) : Prop where
  id : row.id = id
  key : row.idempotencyKey = key
  aggregateType : row.aggregateType = context.aggregateType
  aggregateId : row.aggregateId = context.aggregateId
  aggregateVersion : row.aggregateVersion = context.aggregateVersion
  eventType : row.eventType = eventType

/-- The row of a new event violates no constraint of the outbox: not the primary key, not the
    idempotency key, and not the one on the aggregate, its version and the type. -/
theorem NewEvent.conflicts {id : Uuid} {key eventType : String} {context : EventContext}
    (h : NewEvent D id key context eventType) {row : DomainEvent}
    (hrow : IsRowOf row id key context eventType) : D.domainEvents.conflicts row = false := by
  refine Table.conflicts_eq_false.mpr fun r hr => ⟨fun hk => h.id r hr (hk.trans hrow.id), ?_⟩
  intro u hu hu'
  rcases List.mem_pair.mp hu with rfl | rfl
  · rcases List.mem_pair.mp hu' with heq | heq
    · have hk : r.idempotencyKey = row.idempotencyKey := by simpa using heq
      exact h.key r hr (hk.trans hrow.key)
    · exact absurd heq (by simp)
  · rcases List.mem_pair.mp hu' with heq | heq
    · exact absurd heq (by simp)
    · have hall : r.aggregateType = row.aggregateType ∧ r.aggregateId = row.aggregateId ∧
          r.aggregateVersion = row.aggregateVersion ∧ r.eventType = row.eventType := by
        simpa using heq
      rw [hrow.aggregateType, hrow.aggregateId, hrow.aggregateVersion, hrow.eventType] at hall
      exact h.aggregate r hr hall

/-- **An event that is new is written.** -/
theorem emit_along {payload : EventPayload} {context : EventContext} {key : String}
    {Q : Nat → DomainEvent → Db → Prop} (hvalid : payload.valid = true)
    (hversion : 0 < context.aggregateVersion)
    (hnew : NewEvent D (o n).uuid4 key context payload.eventType)
    (h : ∀ row, IsRowOf row (o n).uuid4 key context payload.eventType →
      D.domainEvents.conflicts row = false →
        Q (n + 2) row (Database.apply ⟨.domainEvents, .insert row⟩ D)) :
    (DatabaseEventStore.emit payload context key).along o n D Q R := by
  refine along_bind.mpr (along_bind.mpr (along_require ⟨hvalid, hversion⟩ ?_))
  refine along_bind.mpr (along_answer.mpr (along_bind.mpr (along_answer.mpr ?_)))
  show (DatabaseEventStore.publish _).along o (n + 2) D Q R
  refine along_bind.mpr (along_query.mpr ?_)
  have hnone : (D.domainEvents.rows.find? fun r => r.idempotencyKey = key) = none := by
    rw [List.find?_eq_none]
    intro r hr
    simpa using hnew.key r hr
  rw [hnone]
  have hrow : ∀ row, IsRowOf row (o n).uuid4 key context payload.eventType →
      (add .domainEvents row).along o (n + 2) D Q R := fun row hrow =>
    along_insert (hnew.conflicts hrow) (h row hrow (hnew.conflicts hrow))
  exact hrow _ ⟨rfl, rfl, rfl, rfl, rfl, rfl⟩

/-- An id stays unused when an event is written whose id and key are not made from it. -/
theorem Unused.insertEvent {id : Uuid} {row : DomainEvent} (h : Unused D id)
    (hrow : D.domainEvents.conflicts row = false) (hid : row.id ≠ id)
    (hchanged : row.idempotencyKey ≠ s!"inventory-changed:{id}")
    (hlow : row.idempotencyKey ≠ s!"low-stock:{id}") :
    Unused (Database.apply ⟨.domainEvents, .insert row⟩ D) id := by
  refine ⟨h.workflowRun, h.order, h.orderItem, h.movement, fun r hr => ?_⟩
  rcases (Table.mem_insert hrow).mp hr with hr | rfl
  · exact h.event r hr
  · exact ⟨hid, hchanged, hlow⟩

/-- The promise survives an event about an item as it is now. -/
theorem InventoryState.insertEvent {row : DomainEvent} {item : InventoryItem}
    (h : InventoryState D) (hrow : D.domainEvents.conflicts row = false)
    (hitem : D.inventoryItems.get item.id = some item) (hid : row.aggregateId = item.id)
    (hversion : row.aggregateVersion = item.version) :
    InventoryState (Database.apply ⟨.domainEvents, .insert row⟩ D) := by
  refine ⟨h.items, fun e he htype item' hitem' => ?_⟩
  rcases (Table.mem_insert hrow).mp he with he | rfl
  · exact h.events e he htype item' hitem'
  · have hsame : D.inventoryItems.get item.id = some item' := hid ▸ hitem'
    obtain rfl := Option.some.inj (hitem.symm.trans hsame)
    exact hversion.le

/-- What the events of a reservation leave: the other tables untouched, the items in order, and the
    later ids still new. -/
structure EventsAdded (o : Nat → Environment) (n N : Nat) (D D' : Db) : Prop where
  /-- only the outbox was written -/
  same : Database.SameOff (· = .domainEvents) D D'
  /-- the items and their events are as promised -/
  state : InventoryState D'
  /-- the ids to come are unused -/
  new : NewIds o n N D'

/-- **The events of a change that no event is about yet** are written. -/
theorem inventoryEvents_along {item : InventoryItem} {movement : InventoryMovement}
    {correlationId : Uuid} {previousAvailable quantityDelta : Int}
    (hN : n + 4 ≤ N) (hdiffer : DifferentIds o N) (hstate : InventoryState D)
    (hnew : NewIds o n N D) (hitem : D.inventoryItems.get item.id = some item)
    (hbehind : ∀ e ∈ D.domainEvents, e.aggregateType = "inventory_item" →
      e.aggregateId = item.id → e.aggregateVersion < item.version)
    (hkeys : ∀ e ∈ D.domainEvents, e.idempotencyKey ≠ s!"inventory-changed:{movement.id}" ∧
      e.idempotencyKey ≠ s!"low-stock:{movement.id}")
    (hmovement : ∀ m, n ≤ m → m < N → (o m).uuid4 ≠ movement.id) :
    (OrderService.inventoryEvents item movement correlationId previousAvailable
      quantityDelta).along o n D
      (fun m _ D' => n ≤ m ∧ m ≤ n + 4 ∧ EventsAdded o m N D D') R := by
  obtain ⟨hreserved, hwithin, hthreshold, hversion⟩ := hstate.items item (Table.mem_of_get hitem)
  refine along_bind.mpr (emit_along ?_ hversion ⟨?_, ?_, ?_⟩ ?_)
  · simp only [EventPayload.valid, decide_eq_true_eq]
    exact ⟨hreserved.trans hwithin, hreserved⟩
  · exact fun r hr => ((hnew n le_rfl (by omega)).event r hr).1
  · exact fun r hr => (hkeys r hr).1
  · rintro r hr ⟨htype, hid, hv, -⟩
    exact absurd hv (hbehind r hr htype hid).ne
  -- after the event of the change, the ids to come and the versions are as they were before it
  intro row hrow hconflicts
  have hstate₁ : InventoryState (Database.apply ⟨.domainEvents, .insert row⟩ D) :=
    hstate.insertEvent hconflicts hitem hrow.aggregateId hrow.aggregateVersion
  have hnew₁ : NewIds o (n + 2) N (Database.apply ⟨.domainEvents, .insert row⟩ D) := by
    intro m hm hmN
    refine (hnew m (by omega) hmN).insertEvent hconflicts ?_ ?_ ?_
    · rw [hrow.id]
      intro h
      have := hdiffer n (by omega) m hmN h
      omega
    · rw [hrow.key]
      exact fun h => hmovement m (by omega) hmN (changedKey_inj h).symm
    · rw [hrow.key]
      exact changedKey_ne_lowStockKey _ _
  have hsame₁ : Database.SameOff (· = .domainEvents) D
      (Database.apply ⟨.domainEvents, .insert row⟩ D) := Database.SameOff.apply _ D rfl
  split
  -- the warning, if it is called for, goes the same way
  · refine along_bind.mpr (emit_along ?_ hversion ⟨?_, ?_, ?_⟩ ?_)
    · simp only [EventPayload.valid, decide_eq_true_eq]
      exact ⟨by unfold InventoryItem.availableQuantity; omega, hthreshold⟩
    · exact fun r hr => ((hnew₁ _ le_rfl (by omega)).event r hr).1
    · intro r hr
      rcases (Table.mem_insert hconflicts).mp hr with hr | rfl
      · exact (hkeys r hr).2
      · rw [hrow.key]
        exact changedKey_ne_lowStockKey _ _
    · rintro r hr ⟨htype, hid, hv, hevent⟩
      rcases (Table.mem_insert hconflicts).mp hr with hr | rfl
      · exact absurd hv (hbehind r hr htype hid).ne
      · rw [hrow.eventType] at hevent
        exact absurd hevent (by simp [EventPayload.eventType])
    intro row' hrow' hconflicts'
    refine ⟨by omega, by omega, ⟨hsame₁.trans (Database.SameOff.apply _ _ rfl), ?_, ?_⟩⟩
    · exact hstate₁.insertEvent hconflicts' hitem hrow'.aggregateId hrow'.aggregateVersion
    · intro m hm hmN
      refine (hnew₁ m (by omega) hmN).insertEvent hconflicts' ?_ ?_ ?_
      · rw [hrow'.id]
        intro h
        have := hdiffer (n + 2) (by omega) m hmN h
        omega
      · rw [hrow'.key]
        exact (changedKey_ne_lowStockKey _ _).symm
      · rw [hrow'.key]
        exact fun h => hmovement m (by omega) hmN (lowStockKey_inj h).symm
  · exact ⟨by omega, by omega, hsame₁, hstate₁, hnew₁⟩

end Events

/-! ## Reservations -/

section Reservations

variable {o : Nat → Environment} {n m N : Nat} {D D' : Db} {order : Order} {correlationId : Uuid}
variable {sku externalLineId : String} {quantity : Int}

/-- `item` with `quantity` more units reserved, as the UPDATE of `_reserve` leaves it. -/
def InventoryItem.reserving (item : InventoryItem) (quantity : Int) : InventoryItem :=
  { item with
    version := item.version + 1
    reservedQuantity := item.reservedQuantity + quantity }

/-- The state with these units reserved. -/
def Db.reserving (D : Db) (item : InventoryItem) (quantity : Int) : Db :=
  Database.apply ⟨.inventoryItems, .update item (item.reserving quantity)⟩ D

section Reserving

variable {item : InventoryItem} (hitem : D.inventoryItems.get item.id = some item)
include hitem

/-- Only the item reserved from is another one afterwards. -/
theorem get_reserving (quantity : Int) (i : Uuid) :
    (D.reserving item quantity).inventoryItems.get i =
      if item.id = i then some (item.reserving quantity) else D.inventoryItems.get i := by
  refine Table.get_update ?_ ?_ i
  · exact Table.succeeds_of_get hitem rfl rfl
  · exact Table.clashes_of_uniques_eq _ rfl

/-- A reservation leaves the SKUs of the items as they are. -/
theorem skuAt_reserving (quantity : Int) : (D.reserving item quantity).skuAt = D.skuAt := by
  funext i
  unfold Db.skuAt
  rw [get_reserving hitem]
  split
  · rename_i hi
    rw [← hi, hitem]
    rfl
  · rfl

/-- A reservation takes its units from the available stock of its item, and from no other: this is
    `take` of the allocation library. -/
theorem availableAt_reserving (quantity : Int) :
    (D.reserving item quantity).availableAt = take D.availableAt item.id quantity := by
  funext i
  unfold take
  rw [Function.update_apply]
  unfold Db.availableAt
  rw [get_reserving hitem]
  by_cases hi : i = item.id
  · rw [if_pos hi.symm, if_pos hi, hitem]
    show item.quantityOnHand - (item.reservedQuantity + quantity) =
      item.quantityOnHand - item.reservedQuantity - quantity
    omega
  · rw [if_neg (Ne.symm hi), if_neg hi]

/-- A reservation within the available stock, of an item that no event is ahead of. -/
theorem InventoryState.reserving (h : InventoryState D) (hpos : 0 < quantity)
    (hle : quantity ≤ item.availableQuantity) : InventoryState (D.reserving item quantity) := by
  unfold InventoryItem.availableQuantity at hle
  constructor
  · intro i hi
    have hget := Table.get_of_mem hi
    rw [get_reserving hitem] at hget
    split at hget
    · obtain ⟨hreserved, hwithin, hthreshold, hversion⟩ := h.items item (Table.mem_of_get hitem)
      obtain rfl := Option.some.inj hget
      unfold InventoryItem.reserving
      dsimp only
      exact ⟨by omega, by omega, hthreshold, by omega⟩
    · exact h.items i (Table.mem_of_get hget)
  · intro e he htype i hi
    rw [get_reserving hitem] at hi
    split at hi
    · rename_i hid
      obtain rfl := Option.some.inj hi
      have hversion := h.events e he htype item (hid ▸ hitem)
      show e.aggregateVersion ≤ item.version + 1
      omega
    · exact h.events e he htype i hi

end Reserving

/-- What a reservation of `quantity` units at the item `itemId` leaves for the lines after it. -/
structure Reserved (o : Nat → Environment) (n N : Nat) (D D' : Db) (itemId : Uuid) (quantity : Int)
    (key : String) : Prop where
  /-- every item keeps its SKU -/
  skuAt : D'.skuAt = D.skuAt
  /-- the units are gone from the available stock of the item -/
  availableAt : D'.availableAt = take D.availableAt itemId quantity
  /-- the items and their events are as promised -/
  state : InventoryState D'
  /-- the ids to come are unused -/
  new : NewIds o n N D'
  /-- one movement was written, under the given key -/
  movements : ∀ r ∈ D'.inventoryMovements, r ∈ D.inventoryMovements ∨ r.idempotencyKey = key
  /-- the lines of orders are untouched -/
  orderItems : D'.orderItems = D.orderItems

/-- An ingestion between two lines: the ids from the `n`-th to the `N`-th are new, and so is the
    order.  A reservation uses at most five of them, and the row of the line a sixth. -/
structure Ingesting (o : Nat → Environment) (n N : Nat) (D : Db) (orderId : Uuid) : Prop where
  /-- the items and their events are as promised -/
  state : InventoryState D
  /-- the ids to come are unused -/
  new : NewIds o n N D
  /-- and they differ from each other -/
  differ : DifferentIds o N
  /-- none of them is the order's -/
  order : ∀ m, n ≤ m → m < N → (o m).uuid4 ≠ orderId

/-- The first candidate with room is reserved from, and it is one with most room. -/
theorem reserveFrom_along (h : Ingesting o n N D order.id) (hN : n + 5 ≤ N) (hpos : 0 < quantity)
    (hline : ∀ r ∈ D.inventoryMovements,
      r.idempotencyKey ≠ OrderService.movementKey .reservation order.id externalLineId)
    {ids : List Uuid} (hids : ∀ i ∈ ids, ∃ item, D.inventoryItems.get i = some item)
    (hsorted : ids.Pairwise fun i j => D.availableAt j ≤ D.availableAt i) :
    (OrderService.reserveFrom sku quantity order externalLineId correlationId ids).along o n D
      (fun m item D' => n ≤ m ∧ m ≤ n + 5 ∧ item.id ∈ ids ∧
        (∀ j ∈ ids, D.availableAt j ≤ D.availableAt item.id) ∧
        quantity ≤ D.availableAt item.id ∧
        Reserved o m N D D' item.id quantity
          (OrderService.movementKey .reservation order.id externalLineId))
      fun e => (∃ message, e = .raised .insufficientInventoryError message) ∧
        ∀ j ∈ ids, D.availableAt j < quantity := by
  induction ids with
  | nil => exact ⟨⟨_, rfl⟩, fun j hj => absurd hj List.not_mem_nil⟩
  | cons i rest ih =>
    obtain ⟨item, hitem⟩ := hids i List.mem_cons_self
    have hid : item.id = i := Table.key_of_get hitem
    have havailable : D.availableAt i = item.quantityOnHand - item.reservedQuantity := by
      unfold Db.availableAt
      rw [hitem]
      rfl
    obtain ⟨hfirst, hrest⟩ := List.pairwise_cons.mp hsorted
    refine along_bind.mpr (along_bind.mpr (along_updateWhere hitem rfl ?_ ?_))
    · -- there is room: the item, its movement and its events are written
      intro hcond
      have hle : quantity ≤ item.quantityOnHand - item.reservedQuantity := of_decide_eq_true hcond
      have hitem' : D.inventoryItems.get item.id = some item := by rw [hid]; exact hitem
      have hget : (D.reserving item quantity).inventoryItems.get i =
          some (item.reserving quantity) := by
        rw [get_reserving hitem', if_pos hid]
      refine along_bind.mpr (along_query.mpr ?_)
      show Prog.along o n
        ((Tx.orThrow ((D.reserving item quantity).inventoryItems.get i) _ _) >>= _)
        (D.reserving item quantity) _ _
      rw [hget]
      refine along_bind.mpr (along_orThrow ?_)
      refine along_bind.mpr (along_answer.mpr ?_)
      have hposted : ∀ row : InventoryMovement, row.id = (o n).uuid4 → row.idempotencyKey =
          OrderService.movementKey .reservation order.id externalLineId →
            (Db.inventoryMovements D).conflicts row = false := by
        intro row hrow hkey
        refine Table.conflicts_eq_false.mpr fun r hr => ⟨?_, fun u hu hu' => ?_⟩
        · exact fun heq => ((h.new n le_rfl (by omega)).movement r hr).1 (heq.trans hrow)
        · rw [List.mem_singleton.mp hu] at hu'
          have hsame : r.idempotencyKey = row.idempotencyKey := by simpa [Row.uniques] using hu'
          exact hline r hr (hsame.trans hkey)
      -- the reservation bumps the version of the item, so the events that follow find their
      -- aggregate version free
      have hstate := h.state.reserving hitem' hpos hle
      refine along_bind.mpr (along_insert (hposted _ rfl rfl) ?_)
      have hne : ∀ m, n + 1 ≤ m → m < N → (o m).uuid4 ≠ (o n).uuid4 := by
        -- the movement's own id is the n-th answer; the ids to come differ from it
        intro m hm hmN heq
        have := h.differ m hmN n (by omega) heq
        omega
      refine along_bind.mpr (along_mono (inventoryEvents_along (N := N) (by omega) h.differ
        ⟨hstate.items, hstate.events⟩ ?_ ?_ ?_ ?_ ?_) ?_ fun _ he => he)
      · intro m hm hmN
        have hunused := h.new m (by omega) hmN
        refine ⟨hunused.workflowRun, hunused.order, hunused.orderItem, fun r hr => ?_,
          hunused.event⟩
        rcases (Table.mem_insert (hposted _ rfl rfl)).mp hr with hr | rfl
        · exact hunused.movement r hr
        · refine ⟨(hne m hm hmN).symm, fun line hkey => ?_⟩
          exact h.order m (by omega) hmN (movementKey_inj hkey).1.symm
      · show (D.reserving item quantity).inventoryItems.get item.id = _
        rw [hid]
        exact hget
      · intro e he htype heid
        have hversion := h.state.events e he htype item (by rw [heid]; exact hitem')
        show e.aggregateVersion < item.version + 1
        omega
      · exact fun e he => ((h.new n le_rfl (by omega)).event e he).2
      · exact hne
      · rintro m - D' ⟨hm, hmn, hadded⟩
        have hitems : Db.inventoryItems D' = (D.reserving item quantity).inventoryItems :=
          hadded.same .inventoryItems (by decide)
        -- what is left of the stock, and which rows there are, is read off the events'
        -- table-by-table effect
        refine ⟨by omega, by omega, ?_, ?_, ?_, ?_, ?_, hadded.state, hadded.new, ?_, ?_⟩
        · show item.id ∈ i :: rest
          rw [hid]
          exact List.mem_cons_self
        · intro j hj
          show D.availableAt j ≤ D.availableAt item.id
          rw [hid]
          rcases List.mem_cons.mp hj with rfl | hj
          · exact le_rfl
          · exact hfirst j hj
        · show quantity ≤ D.availableAt item.id
          rw [hid]
          omega
        · rw [← skuAt_reserving hitem' quantity]
          unfold Db.skuAt
          rw [hitems]
        · show _ = take D.availableAt item.id quantity
          rw [← availableAt_reserving hitem' quantity]
          unfold Db.availableAt
          rw [hitems]
        · intro r hr
          rw [show Db.inventoryMovements D' = _ from
            hadded.same .inventoryMovements (by decide)] at hr
          rcases (Table.mem_insert (hposted _ rfl rfl)).mp hr with hr | rfl
          · exact Or.inl hr
          · exact Or.inr rfl
        · exact hadded.same .orderItems (by decide)
    · -- there is none, and the others have no more
      intro hcond
      have hlt : item.quantityOnHand - item.reservedQuantity < quantity := by
        have := of_decide_eq_false hcond
        omega
      refine along_mono (ih (fun j hj => hids j (List.mem_cons_of_mem _ hj)) hrest) ?_ ?_
      · rintro m item' D' ⟨hm, hmn, hmem, hmost, hle, hreserved⟩
        refine ⟨hm, hmn, List.mem_cons_of_mem _ hmem, fun j hj => ?_, hle, hreserved⟩
        rcases List.mem_cons.mp hj with rfl | hj
        · omega
        · exact hmost j hj
      · rintro e ⟨hinsufficient, hnone⟩
        refine ⟨hinsufficient, fun j hj => ?_⟩
        rcases List.mem_cons.mp hj with rfl | hj
        · omega
        · exact hnone j hj

/-- The candidates are the items of the SKU, all of them, most available stock first. -/
theorem candidates_spec (sku : String) (D : Db) :
    (∀ i ∈ (OrderService.candidates sku D).map (·.id),
        ∃ item, D.inventoryItems.get i = some item ∧ item.sku = sku) ∧
      (∀ i, D.skuAt i = some sku → i ∈ (OrderService.candidates sku D).map (·.id)) ∧
      ((OrderService.candidates sku D).map (·.id)).Pairwise
        fun i j => D.availableAt j ≤ D.availableAt i := by
  have hmem : ∀ item, item ∈ OrderService.candidates sku D ↔
      item ∈ D.inventoryItems ∧ item.sku = sku := by
    intro item
    rw [OrderService.candidates, List.mem_insertionSort, List.mem_filter]
    simp [Table.mem_rows]
  have hget : ∀ item ∈ OrderService.candidates sku D,
      D.inventoryItems.get item.id = some item :=
    fun item hitem => Table.get_of_mem ((hmem item).mp hitem).1
  refine ⟨?_, ?_, ?_⟩
  · intro i hi
    obtain ⟨item, hitem, rfl⟩ := List.mem_map.mp hi
    exact ⟨item, hget item hitem, ((hmem item).mp hitem).2⟩
  · intro i hi
    obtain ⟨item, hitem, hsku⟩ := Option.map_eq_some_iff.mp hi
    exact List.mem_map.mpr ⟨item, (hmem item).mpr ⟨Table.mem_of_get hitem, hsku⟩,
      Table.key_of_get hitem⟩
  · have htotal : Std.Total fun i j : InventoryItem => j.availableQuantity ≤ i.availableQuantity :=
      ⟨fun i j => le_total j.availableQuantity i.availableQuantity⟩
    have htrans : IsTrans InventoryItem fun i j => j.availableQuantity ≤ i.availableQuantity :=
      ⟨fun _ _ _ h h' => h'.trans h⟩
    have hsorted := List.pairwise_insertionSort
      (fun i j : InventoryItem => j.availableQuantity ≤ i.availableQuantity)
      (D.inventoryItems.rows.filter fun i => i.sku = sku)
    refine List.pairwise_map.mpr (hsorted.imp_of_mem fun {i j} hi hj hle => ?_)
    unfold Db.availableAt
    rw [hget i hi, hget j hj]
    exact hle

/-- **A reservation** is made at an item with most available stock, and fails without one that has
    enough. -/
theorem reserve_along (h : Ingesting o n N D order.id) (hN : n + 5 ≤ N) (hpos : 0 < quantity)
    (hline : ∀ r ∈ D.inventoryMovements,
      r.idempotencyKey ≠ OrderService.movementKey .reservation order.id externalLineId) :
    (OrderService.reserve sku quantity order externalLineId correlationId).along o n D
      (fun m item D' => n ≤ m ∧ m ≤ n + 5 ∧ IsMostFree D.skuAt D.availableAt sku item.id ∧
        quantity ≤ D.availableAt item.id ∧
        Reserved o m N D D' item.id quantity
          (OrderService.movementKey .reservation order.id externalLineId))
      fun e => (∃ message, e = .raised .insufficientInventoryError message) ∧
        ∀ j, D.skuAt j = some sku → D.availableAt j < quantity := by
  obtain ⟨hitems, hall, hsorted⟩ := candidates_spec sku D
  refine along_bind.mpr (along_query.mpr ?_)
  refine along_mono (reserveFrom_along h hN hpos hline (fun i hi => ?_) hsorted) ?_ ?_
  · obtain ⟨item, hitem, -⟩ := hitems i hi
    exact ⟨item, hitem⟩
  · rintro m item D' ⟨hm, hmn, hmem, hmost, hle, hreserved⟩
    obtain ⟨item', hitem', hsku⟩ := hitems item.id hmem
    refine ⟨hm, hmn, ⟨?_, fun j hj => hmost j (hall j hj)⟩, hle, hreserved⟩
    unfold Db.skuAt
    rw [hitem', Option.map_some, hsku]
  · rintro e ⟨hinsufficient, hnone⟩
    exact ⟨hinsufficient, fun j hj => hnone j (hall j hj)⟩

/-- The lines of the order have left nothing behind yet. -/
structure LinesNew (D : Db) (orderId : Uuid) (lines : List NormalizedOrderItem) : Prop where
  /-- no movement has the reservation key of one of them -/
  movements : ∀ line ∈ lines, ∀ r ∈ D.inventoryMovements,
    r.idempotencyKey ≠ OrderService.movementKey .reservation orderId line.externalLineId
  /-- and none of them is on record -/
  orderItems : ∀ line ∈ lines, ∀ r ∈ D.orderItems,
    ¬(r.orderId = orderId ∧ r.externalLineId = line.externalLineId)

/-- **The lines of an order are added exactly if they fit in their order**, by induction on the
    lines. -/
theorem addLines_along {lines : List NormalizedOrderItem} (h : Ingesting o n N D order.id)
    (hN : n + 6 * lines.length ≤ N) (hlines : LinesNew D order.id lines)
    (hnodup : (lines.map (·.externalLineId)).Nodup) :
    (OrderService.addLines order correlationId lines).along o n D
      (fun _ _ _ => FitsMostFree D.skuAt D.availableAt (lines.map (·.demand)))
      fun e => (∃ message, e = .raised .insufficientInventoryError message) ∧
        ¬FitsMostFree D.skuAt D.availableAt (lines.map (·.demand)) := by
  induction lines generalizing n D with
  | nil => exact trivial
  | cons line rest ih =>
    obtain ⟨hfirst, hrest⟩ := List.nodup_cons.mp hnodup
    have hother : ∀ line' ∈ rest, line'.externalLineId ≠ line.externalLineId :=
      fun line' hline' heq => hfirst (List.mem_map.mpr ⟨line', hline', heq⟩)
    rw [List.length_cons] at hN
    refine along_bind.mpr (along_mono (reserve_along h (by omega) line.quantity_pos
      (hlines.movements line List.mem_cons_self)) ?_ ?_)
    -- the line found its item: its row is written, and the rest fits in what is left if and only
    -- if the whole list fits
    · rintro m item D' ⟨hm, hmn, hmost, hle, hreserved⟩
      refine along_bind.mpr (along_answer.mpr ?_)
      have hstored : ∀ row : OrderItem, row.id = (o m).uuid4 → row.orderId = order.id →
          row.externalLineId = line.externalLineId →
            (Db.orderItems D').conflicts row = false := by
        intro row hrow horder hexternal
        refine Table.conflicts_eq_false.mpr fun r hr => ⟨?_, fun u hu hu' => ?_⟩
        · exact fun heq => ((hreserved.new m le_rfl (by omega)).orderItem r hr).1 (heq.trans hrow)
        · rw [List.mem_singleton.mp hu] at hu'
          have hsame : r.orderId = row.orderId ∧ r.externalLineId = row.externalLineId := by
            simpa [Row.uniques] using hu'
          rw [hreserved.orderItems] at hr
          exact hlines.orderItems line List.mem_cons_self r hr
            ⟨hsame.1.trans horder, hsame.2.trans hexternal⟩
      refine along_bind.mpr (along_insert (hstored _ rfl rfl rfl) ?_)
      have hnext : FitsMostFree D.skuAt D.availableAt ((line :: rest).map (·.demand)) ↔
          FitsMostFree (Db.skuAt D') (Db.availableAt D') (rest.map (·.demand)) := by
        rw [hreserved.skuAt, hreserved.availableAt, List.map_cons]
        refine (fitsMostFree_cons hmost).trans (and_iff_right hle)
      rw [hnext]
      refine ih ⟨⟨hreserved.state.items, hreserved.state.events⟩, ?_, h.differ, ?_⟩ (by omega)
        ⟨?_, ?_⟩ hrest
      · intro k hk hkN
        have hunused := hreserved.new k (by omega) hkN
        refine ⟨hunused.workflowRun, hunused.order, fun r hr => ?_, hunused.movement, hunused.event⟩
        rcases (Table.mem_insert (hstored _ rfl rfl rfl)).mp hr with hr | rfl
        · exact hunused.orderItem r hr
        · refine ⟨fun heq => ?_, (h.order k (by omega) hkN).symm⟩
          have := h.differ m (by omega) k hkN heq
          omega
      · exact fun k hk hkN => h.order k (by omega) hkN
      · intro line' hline' r hr
        rcases hreserved.movements r hr with hr | hkey
        · exact hlines.movements line' (List.mem_cons_of_mem _ hline') r hr
        · rw [hkey]
          exact fun heq => hother line' hline' (movementKey_inj heq).2.symm
      · rintro line' hline' r hr ⟨horder, hexternal⟩
        rcases (Table.mem_insert (hstored _ rfl rfl rfl)).mp hr with hr | rfl
        · rw [hreserved.orderItems] at hr
          exact hlines.orderItems line' (List.mem_cons_of_mem _ hline') r hr ⟨horder, hexternal⟩
        · exact hother line' hline' hexternal.symm
    -- no item has room for the line, so the list does not fit in its order
    · rintro e ⟨hinsufficient, hnone⟩
      exact ⟨hinsufficient, not_fitsMostFree_cons hnone⟩

end Reservations

/-! ## Ingestion -/

/-- The error is an `InsufficientInventoryError`. -/
def Error.isInsufficient (e : Error) : Prop :=
  ∃ message, e = .raised .insufficientInventoryError message

/-- The program never raises `InsufficientInventoryError`.  Nothing but `_reserve` does. -/
abbrev Tx.neverInsufficient {α : Type} (p : Tx α) : Prop :=
  p.writes (fun _ => True) Error.isInsufficient

/-- Adding a row does not raise it: a violated constraint is another error. -/
theorem Tx.neverInsufficient_add {i : TableName} (row : i.Entity) :
    (add i row).neverInsufficient :=
  Prog.writes_insert row trivial fun us => by rintro ⟨m, h⟩; exact nomatch h

/-- Writing an event does not raise it: its own errors are validation and conflict. -/
theorem emit_neverInsufficient {payload : EventPayload} {context : EventContext} {key : String} :
    (DatabaseEventStore.emit payload context key).neverInsufficient := by
  refine Prog.writes_bind ?_ fun event => ?_
  · refine Prog.writes_bind ?_ fun _ => Prog.writes_bind (Prog.writes_answer _) fun _ =>
      Prog.writes_bind (Prog.writes_answer _) fun _ => trivial
    unfold Tx.require
    split
    · exact trivial
    · rintro ⟨message, h⟩
      exact nomatch h
  · refine Prog.writes_bind (Prog.writes_query _) fun existing => ?_
    cases existing with
    | none => exact Tx.neverInsufficient_add _
    | some existing =>
      dsimp only
      split
      · rintro ⟨message, h⟩
        exact nomatch h
      · exact trivial

/-- Writing the audit entry of an order does not raise it. -/
theorem audit_neverInsufficient {order : Order} {workflow : Option WorkflowRun}
    {action actor : String} {before : Option String} {after reason : String} :
    (OrderService.audit order workflow action actor before after reason).neverInsufficient := by
  refine Prog.writes_bind ?_ fun _ => ?_
  · cases workflow with
    | some workflow => exact trivial
    | none =>
      rintro ⟨message, h⟩
      exact nomatch h
  · exact Prog.writes_bind (Prog.writes_answer _) fun _ =>
      Prog.writes_bind (Tx.neverInsufficient_add _) fun _ => trivial

section Ingestion

variable [Digests] {o : Nat → Environment} {D : Db} {command : NormalizedMarketplaceOrder}

/-- The run and the order of a new order violate no constraint, whatever their ids are, as long as
    these are new. -/
theorem IsNewOrder.conflicts (h : IsNewOrder D command) {n : Nat} (hids : Unused D (o n).uuid4) :
    (∀ row : WorkflowRun, row.id = (o n).uuid4 → row.idempotencyKey = none →
      row.workflowName = "marketplace-order-fulfilment" →
      row.correlationId = OrderService.correlationId command →
        D.workflowRuns.conflicts row = false) ∧
      ∀ row : Order, row.id = (o n).uuid4 → row.marketplace = command.marketplace →
        row.marketplaceAccountId = command.marketplaceAccountId →
        row.externalOrderId = command.externalOrderId →
        row.sourceEventId = command.sourceEventId → D.orders.conflicts row = false := by
  constructor
  · intro row hid hkey hname hcorrelation
    refine Table.conflicts_eq_false.mpr fun r hr => ⟨?_, fun u hu hu' => ?_⟩
    · exact fun heq => hids.workflowRun r hr (heq.trans hid)
    · have hrow :
        u = ⟨.workflowCorrelation, [.text row.workflowName, .uuid row.correlationId]⟩ := by
        simpa [Row.uniques, nullable, hkey] using hu'
      have hsame : row.workflowName = r.workflowName ∧ row.correlationId = r.correlationId := by
        simpa [Row.uniques, nullable, hrow] using hu
      exact h.workflow r hr ⟨hsame.1.symm.trans hname, hsame.2.symm.trans hcorrelation⟩
  · intro row hid hmarketplace haccount hexternal hevent
    refine Table.conflicts_eq_false.mpr fun r hr => ⟨?_, fun u hu hu' => ?_⟩
    · exact fun heq => hids.order r hr (heq.trans hid)
    · rcases List.mem_pair.mp hu with rfl | rfl
      · have hsame : r.marketplace = row.marketplace ∧
            r.marketplaceAccountId = row.marketplaceAccountId ∧
              r.externalOrderId = row.externalOrderId := by
          simpa [Row.uniques] using hu'
        rw [hmarketplace, haccount, hexternal] at hsame
        exact h.order r hr hsame
      · have hsame : r.marketplace = row.marketplace ∧
            r.marketplaceAccountId = row.marketplaceAccountId ∧
              r.sourceEventId = row.sourceEventId := by
          simpa [Row.uniques] using hu'
        rw [hmarketplace, haccount, hevent] at hsame
        exact h.event r hr hsame

omit [Digests] in
/-- An id stays unused when a workflow run with another id is written. -/
theorem Unused.run {id : Uuid} {row : WorkflowRun} (h : Unused D id)
    (hrow : D.workflowRuns.conflicts row = false) (hid : row.id ≠ id) :
    Unused (Database.apply ⟨.workflowRuns, .insert row⟩ D) id := by
  refine ⟨fun r hr => ?_, h.order, h.orderItem, h.movement, h.event⟩
  rcases (Table.mem_insert hrow).mp hr with hr | rfl
  · exact h.workflowRun r hr
  · exact hid

omit [Digests] in
/-- An id stays unused when an order with another id is written. -/
theorem Unused.insertOrder {id : Uuid} {row : Order} (h : Unused D id)
    (hrow : D.orders.conflicts row = false) (hid : row.id ≠ id) :
    Unused (Database.apply ⟨.orders, .insert row⟩ D) id := by
  refine ⟨h.workflowRun, fun r hr => ?_, h.orderItem, h.movement, h.event⟩
  rcases (Table.mem_insert hrow).mp hr with hr | rfl
  · exact h.order r hr
  · exact hid

/-- **A new order is refused for want of stock exactly if its lines do not fit in their order.** -/
theorem ingest_along (hstate : InventoryState D) (hnew : IsNewOrder D command)
    (hids : NewIds o 0 (4 + 6 * command.items.length) D)
    (hdiffer : DifferentIds o (4 + 6 * command.items.length)) :
    (OrderService.ingest command).along o 0 D (fun _ _ _ => D.FitsMostAvailable command)
      fun e => e.isInsufficient ↔ ¬D.FitsMostAvailable command := by
  have horder : (D.orders.rows.find? fun o => o.marketplace = command.marketplace ∧
      o.marketplaceAccountId = command.marketplaceAccountId ∧
        o.externalOrderId = command.externalOrderId) = none := by
    rw [List.find?_eq_none]
    intro r hr
    simpa using hnew.order r hr
  have hevent : (D.orders.rows.find? fun o => o.marketplace = command.marketplace ∧
      o.marketplaceAccountId = command.marketplaceAccountId ∧
        o.sourceEventId = command.sourceEventId) = none := by
    rw [List.find?_eq_none]
    intro r hr
    simpa using hnew.event r hr
  have hunused : ∀ n < 4 + 6 * command.items.length, Unused D (o n).uuid4 := fun n hn =>
    hids n n.zero_le hn
  have hne : ∀ n m, n < 4 → m < 4 + 6 * command.items.length → 4 ≤ m →
      (o n).uuid4 ≠ (o m).uuid4 := by
    intro n m hn hm hle heq
    have := hdiffer n (by omega) m hm heq
    omega
  refine along_bind.mpr (along_query.mpr ?_)
  rw [horder]
  refine along_bind.mpr (along_query.mpr ?_)
  rw [hevent]
  refine along_bind.mpr (along_require rfl ?_)
  -- the order is valid
  refine along_bind.mpr (along_bind.mpr (along_require hnew.status ?_))
  refine along_bind.mpr (along_require hnew.lines (along_require hnew.discounts ?_))
  -- its run
  refine along_bind.mpr (along_answer.mpr (along_bind.mpr (along_answer.mpr ?_)))
  have hrun := (hnew.conflicts (hunused 0 (by omega))).1
  refine along_bind.mpr (along_insert (hrun _ rfl rfl rfl rfl) ?_)
  -- its row
  refine along_bind.mpr (along_answer.mpr (along_bind.mpr (along_answer.mpr ?_)))
  have hrow := (hnew.conflicts (hunused 2 (by omega))).2
  refine along_bind.mpr (along_insert (hrow _ rfl rfl rfl rfl rfl) ?_)
  -- its lines
  refine along_bind.mpr (along_mono (addLines_along ⟨⟨hstate.items, hstate.events⟩, ?_, hdiffer,
    fun m hm hmN => (hne 2 m (by omega) hmN hm).symm⟩ (by omega) ⟨?_, ?_⟩ hnew.lines) ?_ ?_)
  · intro m hm hmN
    refine Unused.insertOrder (Unused.run (hunused m hmN) (hrun _ rfl rfl rfl rfl) ?_)
      (hrow _ rfl rfl rfl rfl rfl) ?_
    · exact hne 0 m (by omega) hmN hm
    · exact hne 2 m (by omega) hmN hm
  · exact fun line _ r hr => ((hunused 2 (by omega)).movement r hr).2 _
  · exact fun line _ r hr h => ((hunused 2 (by omega)).orderItem r hr).2 h.1
  · intro n u D' hfits
    have hrest : ∀ {p : Tx OrderIngestionResult}, p.neverInsufficient →
        p.along o n D' (fun _ _ _ => D.FitsMostAvailable command)
          fun e => e.isInsufficient ↔ ¬D.FitsMostAvailable command := by
      intro p hp
      have hpost : p.post D' (fun _ _ => True) fun e => ¬e.isInsufficient :=
        Prog.post_of_writes (fun _ => trivial) (fun _ _ => trivial) (fun _ _ _ => trivial) hp D'
      refine along_mono (along_of_post hpost) ?_ ?_
      · exact fun _ _ _ _ => hfits
      · exact fun e he => iff_of_false he fun h => h hfits
    refine hrest (Prog.writes_bind emit_neverInsufficient fun _ => ?_)
    exact Prog.writes_bind audit_neverInsufficient fun _ => trivial
  · exact fun e he => iff_of_true he.1 he.2

end Ingestion

/-! ## Orders that fit -/

section Accepted

variable [Digests] {o : Nat → Environment} {D : Db} {command : NormalizedMarketplaceOrder}

/-- The ingestion raises `InsufficientInventoryError`. -/
def IsRefused (o : Nat → Environment) (D : Db) (command : NormalizedMarketplaceOrder) : Prop :=
  ∃ e, raised o (OrderService.ingest command) D = some e ∧ e.isInsufficient

/-- An order that fits is not refused; one that does not fit is, and leaves everything as it was. -/
structure FittingOrderAccepted (o : Nat → Environment) (D : Db)
    (command : NormalizedMarketplaceOrder) : Prop where
  /-- an order that fits is not refused -/
  fits : D.Fits command → ¬IsRefused o D command
  /-- one that does not fit is, and nothing of it is left -/
  unfit : ¬D.Fits command →
    IsRefused o D command ∧ afterCall OrderService.ingest o command D = D

/-- **A new order is refused exactly if its lines do not fit in their order.**  The call either
    raises or returns along the given answers, and `ingest_along` says what is true in either case.
    -/
theorem isRefused_iff (hstate : InventoryState D) (hnew : IsNewOrder D command)
    (hids : NewIds o 0 (4 + 6 * command.items.length) D)
    (hdiffer : DifferentIds o (4 + 6 * command.items.length)) :
    IsRefused o D command ↔ ¬D.FitsMostAvailable command := by
  have hrun := along_iff_eval.mp (ingest_along hstate hnew hids hdiffer)
  unfold IsRefused raised
  cases heval : (OrderService.ingest command).eval o 0 D with
  | ok r =>
    rw [heval] at hrun
    refine iff_of_false ?_ fun h => h hrun
    rintro ⟨e, he, -⟩
    exact nomatch he
  | error e =>
    rw [heval] at hrun
    constructor
    · rintro ⟨e', he, hinsufficient⟩
      obtain rfl := Option.some.inj he
      exact hrun.mp hinsufficient
    · exact fun hnot => ⟨e, rfl, hrun.mpr hnot⟩

/-- What is refused leaves the state as it is: the call raises, and its transaction is rolled back.
    -/
theorem afterCall_of_isRefused (h : IsRefused o D command) :
    afterCall OrderService.ingest o command D = D := by
  obtain ⟨e, he, -⟩ := h
  unfold raised at he
  unfold afterCall
  cases heval : (OrderService.ingest command).eval o 0 D with
  | ok r =>
    rw [heval] at he
    exact nomatch he
  | error e => rfl

/-- What `ingest` does by design: the lines are served in their order, each from the item of its
    SKU that has most available stock left, and no line is taken back. -/
structure ServedInOrder (o : Nat → Environment) (D : Db) (command : NormalizedMarketplaceOrder) :
    Prop where
  /-- with room for every line the order is not refused -/
  room : D.FitsMostAvailable command → ¬IsRefused o D command
  /-- without it the order is refused, and leaves everything as it was -/
  full : ¬D.FitsMostAvailable command →
    IsRefused o D command ∧ afterCall OrderService.ingest o command D = D
  /-- in particular where no assignment of the lines exists at all -/
  unfit : ¬D.Fits command →
    IsRefused o D command ∧ afterCall OrderService.ingest o command D = D

/-- **Every order is served in its order**, in every inventory state: it is refused exactly if its
    lines, one after the other, do not find room where most is available, and a refusal leaves
    nothing behind. -/
theorem ingest_servedInOrder (hstate : InventoryState D) (hnew : IsNewOrder D command)
    (hids : NewIds o 0 (4 + 6 * command.items.length) D)
    (hdiffer : DifferentIds o (4 + 6 * command.items.length)) :
    ServedInOrder o D command := by
  have hrefused := isRefused_iff hstate hnew hids hdiffer
  have hfull : ¬D.FitsMostAvailable command →
      IsRefused o D command ∧ afterCall OrderService.ingest o command D = D := by
    intro hnot
    have hr : IsRefused o D command := hrefused.mpr hnot
    exact ⟨hr, afterCall_of_isRefused hr⟩
  refine ⟨fun hmost hr => hrefused.mp hr hmost, hfull, fun hunfit => hfull fun hmost => ?_⟩
  -- the most available first is one assignment among others
  exact hunfit (FitsMostFree.fits hmost)

/-- **An order that fits is accepted** exactly if its lines, in their order, find room at an item of
    their SKU with most available stock; an order that does not fit is always refused, and leaves
    everything as it was. -/
theorem fittingOrderAccepted_iff (hstate : InventoryState D) (hnew : IsNewOrder D command)
    (hids : NewIds o 0 (4 + 6 * command.items.length) D)
    (hdiffer : DifferentIds o (4 + 6 * command.items.length)) :
    FittingOrderAccepted o D command ↔ (D.Fits command → D.FitsMostAvailable command) := by
  have hrefused := isRefused_iff hstate hnew hids hdiffer
  constructor
  · intro h hfits
    by_contra hnot
    exact h.fits hfits (hrefused.mpr hnot)
  · intro h
    refine ⟨fun hfits hr => hrefused.mp hr (h hfits), fun hunfit => ?_⟩
    have hr : IsRefused o D command :=
      hrefused.mpr fun hmost => hunfit (FitsMostFree.fits hmost)
    exact ⟨hr, afterCall_of_isRefused hr⟩

end Accepted

/-! ## Two places -/

/-- Some of the ten units arrive at a place. -/
def receiptAt (storageLocation : String) (quantityReceived : Int) : StockCall :=
  .receive (Uuid.ofNat 6)
    { sku := "A", storageLocation, quantityReceived, landedUnitCost := none
      lowStockThreshold := 2, actor := "system", reason := "receipt"
      idempotencyKey := "receipt at " ++ storageLocation, receivedAt := none }

/-- Five units in one place and four in another. -/
def twoPlacesDb : Db := sampleRun [receiptAt "main" 5, receiptAt "annex" 4]

/-- Two lines, of four and of five units. -/
def fourAndFive : NormalizedMarketplaceOrder :=
  { sampleOrder with
    items :=
      [⟨"line-1", "A", 4, ⟨false, 10, 0⟩, ⟨false, 0, 0⟩, ⟨false, 0, 0⟩, by decide⟩,
        ⟨"line-2", "A", 5, ⟨false, 10, 0⟩, ⟨false, 0, 0⟩, ⟨false, 0, 0⟩, by decide⟩]
    items_nonempty := by decide }

/-- The items and the events after two receipts are as the tables promise. -/
theorem twoPlacesDb_state : InventoryState twoPlacesDb := by
  have hitems : ∀ item ∈ twoPlacesDb.inventoryItems.rows, 0 ≤ item.reservedQuantity ∧
      item.reservedQuantity ≤ item.quantityOnHand ∧ 0 ≤ item.lowStockThreshold ∧
        0 < item.version := by decide
  have hevents : ∀ e ∈ twoPlacesDb.domainEvents.rows, ∀ item ∈ twoPlacesDb.inventoryItems.rows,
      e.aggregateVersion ≤ item.version := by decide
  exact ⟨hitems, fun e he _ item hitem => hevents e he item (Table.mem_of_get hitem)⟩

/-- The answers to a later call bring ids that are in use nowhere. -/
theorem twoPlacesDb_newIds : NewIds (Environment.numbered 7) 0 16 twoPlacesDb := by
  have hruns : ∀ n < 16, ∀ r ∈ twoPlacesDb.workflowRuns.rows,
      r.id ≠ (Environment.numbered 7 n).uuid4 := by decide
  have hmovements : ∀ n < 16, ∀ r ∈ twoPlacesDb.inventoryMovements.rows,
      r.id ≠ (Environment.numbered 7 n).uuid4 ∧ r.idempotencyKey.toList.head? = some 'r' := by
    decide
  have hevents : ∀ n < 16, ∀ r ∈ twoPlacesDb.domainEvents.rows,
      r.id ≠ (Environment.numbered 7 n).uuid4 ∧
        r.idempotencyKey ≠ s!"inventory-changed:{(Environment.numbered 7 n).uuid4}" ∧
          r.idempotencyKey ≠ s!"low-stock:{(Environment.numbered 7 n).uuid4}" := by
    decide
  have horders : twoPlacesDb.orders.rows = [] := by decide
  have horderItems : twoPlacesDb.orderItems.rows = [] := by decide
  intro n _ hn
  refine ⟨hruns n hn, fun r hr => ?_, fun r hr => ?_, fun r hr => ?_, hevents n hn⟩
  · rw [Table.mem_rows, horders] at hr
    exact absurd hr List.not_mem_nil
  · rw [Table.mem_rows, horderItems] at hr
    exact absurd hr List.not_mem_nil
  · obtain ⟨hid, hkey⟩ := hmovements n hn r hr
    refine ⟨hid, fun line heq => ?_⟩
    rw [heq] at hkey
    simp [OrderService.movementKey, toString] at hkey

/-- The answers to it bring different ids. -/
theorem numbered_differentIds : DifferentIds (Environment.numbered 7) 16 := by
  unfold DifferentIds
  decide

/-- Any valid paid order is new there, since none has been ingested yet. -/
theorem twoPlacesDb_isNewOrder {command : NormalizedMarketplaceOrder}
    (hstatus : command.status = .paid) (hlines : (command.items.map (·.externalLineId)).Nodup)
    (hdiscounts : ¬∃ line ∈ command.items,
      line.unitPrice.value * line.quantity + line.taxAmount.value < line.discountAmount.value) :
    @IsNewOrder Digests.byEnding twoPlacesDb command := by
  have horders : twoPlacesDb.orders.rows = [] := by decide
  have hruns : ∀ r ∈ twoPlacesDb.workflowRuns.rows,
      r.workflowName ≠ "marketplace-order-fulfilment" := by decide
  refine @IsNewOrder.mk Digests.byEnding _ _ (Or.inr hstatus) hlines hdiscounts (fun r hr => ?_)
    (fun r hr => ?_) fun r hr h => hruns r hr h.1
  · rw [Table.mem_rows, horders] at hr
    exact absurd hr List.not_mem_nil
  · rw [Table.mem_rows, horders] at hr
    exact absurd hr List.not_mem_nil

/-- An order of four and five units is refused, and nothing is left of it. -/
theorem ingest_servedInOrder_sample :
    ¬twoPlacesDb.FitsMostAvailable fourAndFive ∧
      @IsRefused Digests.byEnding (Environment.numbered 7) twoPlacesDb fourAndFive ∧
        afterCall (@OrderService.ingest Digests.byEnding) (Environment.numbered 7) fourAndFive
          twoPlacesDb = twoPlacesDb := by
  have hserved := @ingest_servedInOrder Digests.byEnding (Environment.numbered 7) twoPlacesDb
    fourAndFive twoPlacesDb_state
    (twoPlacesDb_isNewOrder rfl (by decide) (by decide +kernel)) twoPlacesDb_newIds
    numbered_differentIds
  have hrefused : @IsRefused Digests.byEnding (Environment.numbered 7) twoPlacesDb fourAndFive := by
    refine ⟨.raised .insufficientInventoryError "Insufficient available inventory for SKU A", ?_,
      _, rfl⟩
    decide +kernel
  have hnot : ¬twoPlacesDb.FitsMostAvailable fourAndFive := fun hmost =>
    @ServedInOrder.room Digests.byEnding _ _ _ hserved hmost hrefused
  exact ⟨hnot, @ServedInOrder.full Digests.byEnding _ _ _ hserved hnot⟩

/-- An order of three and two units is accepted: the three go to the five, and the two to the
    four. -/
theorem fittingOrderAccepted_sample :
    @FittingOrderAccepted Digests.byEnding (Environment.numbered 7) twoPlacesDb sampleOrder := by
  have hnew := @twoPlacesDb_isNewOrder sampleOrder rfl (by decide) (by decide +kernel)
  refine (@fittingOrderAccepted_iff Digests.byEnding _ _ _ twoPlacesDb_state hnew
    twoPlacesDb_newIds numbered_differentIds).mpr fun _ => ?_
  by_contra hnot
  obtain ⟨e, he, -⟩ := (@isRefused_iff Digests.byEnding _ _ _ twoPlacesDb_state hnew
    twoPlacesDb_newIds numbered_differentIds).mpr hnot
  have hreturns : raised (Environment.numbered 7)
      (@OrderService.ingest Digests.byEnding sampleOrder) twoPlacesDb = none := by decide +kernel
  exact nomatch hreturns.symm.trans he

/-- **An order that fits can be refused**: the four units take the place of the five. -/
theorem fitting_order_refused :
    ¬∀ (o : Nat → Environment) (D : Db) (command : NormalizedMarketplaceOrder),
      InventoryState D → @IsNewOrder Digests.byEnding D command →
      NewIds o 0 (4 + 6 * command.items.length) D →
      DifferentIds o (4 + 6 * command.items.length) →
        @FittingOrderAccepted Digests.byEnding o D command := by
  intro h
  have haccepted := h (Environment.numbered 7) twoPlacesDb fourAndFive twoPlacesDb_state
    (twoPlacesDb_isNewOrder rfl (by decide) (by decide +kernel)) twoPlacesDb_newIds
    numbered_differentIds
  refine @FittingOrderAccepted.fits Digests.byEnding _ _ _ haccepted ?_ ?_
  · -- the four units from the place of the four
    refine ⟨[(Uuid.ofNat 2000, ⟨"A", 4⟩), (Uuid.ofNat 1000, ⟨"A", 5⟩)], rfl, ?_, ?_⟩
    · decide
    · decide
  · refine ⟨.raised .insufficientInventoryError "Insufficient available inventory for SKU A", ?_,
      _, rfl⟩
    decide +kernel

end CommerceOperations
