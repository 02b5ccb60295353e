/-
  The records of a procurement request.

  A request, its purchase order, the receipts of that order, the audit entries and the events of its
  status changes are kept in five tables.  `Db.dossier` puts them together.  The lemmas here say
  what one write does to the dossiers; everything else leaves them as they are (`SameDossiers`).

  That the five records agree is a property of one dossier, and `Lockstep` states it so.  A call
  then has two things to show: that it touches the dossier of one request only (`Affects`), and
  that what it does there keeps the property.  The key of a status event names the request and the
  status, so a status is reported once at most; `stamped` is that part of the dossier.
-/
import CommerceOperations.Application.Receipts
import CommerceOperations.Application.Stock

namespace CommerceOperations

open Relational Prog

/-! ## Records of a request -/

/-- The outbox key of the event that request `i` took the status `target`. -/
def statusKey (i : Uuid) (target : ProcurementStatus) : String :=
  s!"procurement-status:{i}:{target.value}"

/-- The status change an event reports. -/
def EventPayload.statusChange : EventPayload → Option (String × String)
  | procurementStatusChanged _ previous current _ => some (previous, current)
  | _ => none

/-- The status changes of request `i` in the audit trail, in the order they were entered. -/
def auditedChanges (t : Table AuditEvent) (i : Uuid) : List (Option Json × Option Json) :=
  (t.rows.filter fun a => a.action = "procurement.status_changed" ∧ a.resourceId = i).map fun a =>
    (a.beforeState, a.afterState)

/-- The status changes of request `i` in the outbox, likewise. -/
def publishedChanges (t : Table DomainEvent) (i : Uuid) : List (String × String) :=
  (t.rows.filter fun e => e.aggregateId = i).filterMap fun e => e.payload.statusChange

/-- The outbox has an event under the key of the status. -/
def stamped (t : Table DomainEvent) (i : Uuid) (target : ProcurementStatus) : Bool :=
  t.rows.any fun e => e.idempotencyKey = statusKey i target

/-- The purchase order of request `i`. -/
def orderOf (t : Table PurchaseOrder) (i : Uuid) : Option PurchaseOrder :=
  t.rows.find? fun p => p.procurementRequestId = i

/-- The receipts of a purchase order. -/
def receiptsOf (t : Table InventoryMovement) (order : Option PurchaseOrder) :
    List InventoryMovement :=
  t.rows.filter fun m =>
    m.movementType = .receipt ∧ order.any fun p => m.purchaseOrderId = some p.id

/-- All that is kept about a request, in five tables. -/
structure Dossier where
  /-- the request itself -/
  request : ProcurementRequest
  /-- the purchase order, once it is placed -/
  order : Option PurchaseOrder
  /-- the movements that brought its goods -/
  receipts : List InventoryMovement
  /-- the changes of status in the trail, before and after -/
  audits : List (Option Json × Option Json)
  /-- the changes of status in the outbox, likewise -/
  events : List (String × String)
  /-- the statuses whose event is in the outbox -/
  stamped : ProcurementStatus → Bool

/-- The dossier of request `i`, from the tables it is kept in. -/
def dossierOf (requests : Table ProcurementRequest) (orders : Table PurchaseOrder)
    (movements : Table InventoryMovement) (audits : Table AuditEvent) (events : Table DomainEvent)
    (i : Uuid) : Option Dossier :=
  (requests.get i).map fun request =>
    { request
      order := orderOf orders i
      receipts := receiptsOf movements (orderOf orders i)
      audits := auditedChanges audits i
      events := publishedChanges events i
      stamped := stamped events i }

/-- The dossier of request `i` in a state. -/
def Db.dossier (D : Db) (i : Uuid) : Option Dossier :=
  dossierOf D.procurementRequests D.purchaseOrders D.inventoryMovements D.auditEvents
    D.domainEvents i

/-- The parts of a dossier are what its tables say of the request. -/
theorem dossier_eq_some {D : Db} {i : Uuid} {d : Dossier} (h : D.dossier i = some d) :
    D.procurementRequests.get i = some d.request ∧ d.order = orderOf D.purchaseOrders i ∧
      d.receipts = receiptsOf D.inventoryMovements d.order ∧
        d.audits = auditedChanges D.auditEvents i ∧ d.events = publishedChanges D.domainEvents i ∧
          d.stamped = stamped D.domainEvents i := by
  obtain ⟨request, hrequest, rfl⟩ := Option.map_eq_some_iff.mp h
  exact ⟨hrequest, rfl, rfl, rfl, rfl, rfl⟩

/-! ## Keys -/

/-- Two texts with different beginnings are different, whatever follows. -/
theorem append_ne_append {p q a b : String}
    (h : ((p.toList.zip q.toList).any fun (c, d) => c ≠ d) = true) : p ++ a ≠ q ++ b := by
  have hzip : ∀ p q a b : List Char, p ++ a = q ++ b → ∀ cd ∈ p.zip q, cd.1 = cd.2 := by
    intro p
    induction p with
    | nil => exact fun _ _ _ _ _ hcd => absurd hcd List.not_mem_nil
    | cons c p ih =>
      intro q a b heq cd hcd
      cases q with
      | nil => exact absurd hcd List.not_mem_nil
      | cons d q =>
        rw [List.cons_append, List.cons_append, List.cons.injEq] at heq
        rcases List.mem_cons.mp hcd with rfl | hcd
        · exact heq.1
        · exact ih q a b heq.2 cd hcd
  intro heq
  obtain ⟨cd, hcd, hne⟩ := List.any_eq_true.mp h
  have hlist : p.toList ++ a.toList = q.toList ++ b.toList := by
    rw [← String.toList_append, ← String.toList_append, heq]
  have hsame := hzip _ _ _ _ hlist cd hcd
  simp [hsame] at hne

/-- The key as the source's f-string writes it: a prefix, the id, and the status. -/
theorem statusKey_eq (i : Uuid) (target : ProcurementStatus) :
    statusKey i target = "procurement-status:" ++ i.text ++ (":" ++ target.value) := by
  unfold statusKey
  rw [String.append_assoc]
  rfl

/-- Different statuses are written differently. -/
theorem ProcurementStatus.value_inj {s t : ProcurementStatus} (h : s.value = t.value) : s = t := by
  revert h
  cases s <;> cases t <;> decide

/-- **A status key names the request and the status**: an id has a fixed length. -/
theorem statusKey_inj {i j : Uuid} {s t : ProcurementStatus} (h : statusKey i s = statusKey j t) :
    i = j ∧ s = t := by
  rw [statusKey_eq, statusKey_eq, String.append_assoc, String.append_assoc] at h
  obtain ⟨hid, hvalue⟩ := append_inj_of_length (append_inj_of_length h rfl).2
    (by rw [i.length_text, j.length_text])
  exact ⟨Uuid.eq_of_text_eq hid, ProcurementStatus.value_inj (append_inj_of_length hvalue rfl).2⟩

/-- A key that is no status key. -/
def OtherKey (key : String) : Prop := ∀ i target, key ≠ statusKey i target

/-- A key with another beginning is no status key. -/
theorem OtherKey.of_head {p rest key : String} (hkey : key = p ++ rest)
    (h : ((p.toList.zip "procurement-status:".toList).any fun (c, d) => c ≠ d) = true) :
    OtherKey key := by
  intro i target
  rw [hkey, statusKey_eq, String.append_assoc]
  exact append_ne_append h

/-! ## What a write does -/

section Tables

variable {i : Uuid}

/-- A new audit entry comes last among the changes of its request, if it is about a change of
    status. -/
theorem auditedChanges_insert {t : Table AuditEvent} {a : AuditEvent} (h : t.conflicts a = false) :
    auditedChanges (t.insert a) i = auditedChanges t i ++
      if a.action = "procurement.status_changed" ∧ a.resourceId = i
        then [(a.beforeState, a.afterState)] else [] := by
  unfold auditedChanges
  rw [Table.rows_insert h, List.filter_append, List.map_append]
  split
  · rename_i hcond
    simp [hcond]
  · rename_i hcond
    simp [hcond]

/-- A new event comes last among the published changes of its aggregate, if it reports one. -/
theorem publishedChanges_insert {t : Table DomainEvent} {e : DomainEvent}
    (h : t.conflicts e = false) :
    publishedChanges (t.insert e) i = publishedChanges t i ++
      if e.aggregateId = i then e.payload.statusChange.toList else [] := by
  unfold publishedChanges
  rw [Table.rows_insert h, List.filter_append, List.filterMap_append]
  split
  · rename_i hcond
    cases hchange : e.payload.statusChange <;> simp [hcond, hchange]
  · rename_i hcond
    simp [hcond]

/-- A status is stamped once its event is there. -/
theorem stamped_insert {t : Table DomainEvent} {e : DomainEvent} (h : t.conflicts e = false)
    (target : ProcurementStatus) :
    stamped (t.insert e) i target =
      (stamped t i target || decide (e.idempotencyKey = statusKey i target)) := by
  simp [stamped, Table.rows_insert h]

/-- The purchase order of a request is on record, and it is of that request. -/
theorem orderOf_mem {t : Table PurchaseOrder} {p : PurchaseOrder} (h : orderOf t i = some p) :
    p ∈ t ∧ p.procurementRequestId = i := by
  refine ⟨List.mem_of_find?_eq_some h, ?_⟩
  simpa using List.find?_some h

/-- A request has one purchase order at most: the table has a unique constraint on it. -/
theorem orderOf_of_mem {t : Table PurchaseOrder} {p : PurchaseOrder} (hp : p ∈ t)
    (hi : p.procurementRequestId = i) : orderOf t i = some p := by
  cases h : orderOf t i with
  | none =>
    have hnone := List.find?_eq_none.mp h p hp
    simp [hi] at hnone
  | some q =>
    obtain ⟨hq, hqi⟩ := orderOf_mem h
    refine congrArg some (t.eq_of_unique_mem hq hp List.mem_cons_self ?_)
    rw [hqi, ← hi]
    exact List.mem_cons_self

/-- The purchase order of a request is the one on record that names it. -/
theorem orderOf_eq_some {t : Table PurchaseOrder} {p : PurchaseOrder} :
    orderOf t i = some p ↔ p ∈ t ∧ p.procurementRequestId = i :=
  ⟨orderOf_mem, fun h => orderOf_of_mem h.1 h.2⟩

/-- A new purchase order is that of its own request, and no other changes. -/
theorem orderOf_insert {t : Table PurchaseOrder} {p : PurchaseOrder} (h : t.conflicts p = false) :
    orderOf (t.insert p) i = if p.procurementRequestId = i then some p else orderOf t i := by
  split
  · rename_i hi
    exact orderOf_of_mem ((Table.mem_insert h).mpr (Or.inr rfl)) hi
  · rename_i hi
    unfold orderOf
    rw [Table.rows_insert h, List.find?_append]
    simp [hi]

/-- A purchase order that is written again under the request it has stays that of its request. -/
theorem orderOf_update {t : Table PurchaseOrder} {old new : PurchaseOrder}
    (hget : t.get new.id = some old) (hs : t.succeeds old new = true)
    (hc : t.clashes old new = false) (hi : new.procurementRequestId = old.procurementRequestId) :
    orderOf (t.update old new) i = if new.procurementRequestId = i then some new
      else orderOf t i := by
  ext p
  rw [orderOf_eq_some, Table.mem_update hs hc]
  split
  · rename_i hnew
    constructor
    · rintro ⟨rfl | ⟨hp, hne⟩, hpi⟩
      · rfl
      · -- another order of the request would share its unique value
        have hold := orderOf_of_mem (Table.mem_of_get hget) (hi.symm.trans hnew)
        obtain rfl := Option.some.inj (hold.symm.trans (orderOf_of_mem hp hpi))
        exact absurd (Table.key_of_get hget) hne
    · intro hp
      obtain rfl := Option.some.inj hp
      exact ⟨Or.inl rfl, hnew⟩
  · rename_i hnew
    rw [orderOf_eq_some]
    constructor
    · rintro ⟨rfl | ⟨hp, -⟩, hpi⟩
      · exact absurd hpi hnew
      · exact ⟨hp, hpi⟩
    · rintro ⟨hp, hpi⟩
      refine ⟨Or.inr ⟨hp, fun hkey => hnew ?_⟩, hpi⟩
      have hold := Table.get_of_mem hp
      rw [show Row.key p = new.id from hkey, hget] at hold
      rw [hi, Option.some.inj hold]
      exact hpi

/-- A new movement joins the receipts of its purchase order, if it is a receipt. -/
theorem receiptsOf_insert {t : Table InventoryMovement} {m : InventoryMovement}
    (h : t.conflicts m = false) (order : Option PurchaseOrder) :
    receiptsOf (t.insert m) order = receiptsOf t order ++
      if m.movementType = .receipt ∧ (order.any fun p => m.purchaseOrderId = some p.id) = true
        then [m] else [] := by
  unfold receiptsOf
  rw [Table.rows_insert h, List.filter_append]
  split
  · rename_i hcond
    simp [hcond]
  · rename_i hcond
    simp [hcond]

end Tables

/-! ## What leaves the dossiers as they are -/

/-- The records are the same in both states. -/
structure SameDossiers (D D' : Db) : Prop where
  /-- the quotes are looked up by receipts -/
  quotes : D'.supplierQuotes = D.supplierQuotes
  /-- the requests -/
  requests : D'.procurementRequests = D.procurementRequests
  /-- the purchase orders -/
  orders : D'.purchaseOrders = D.purchaseOrders
  /-- the receipts among the movements -/
  movements : D'.inventoryMovements = D.inventoryMovements
  /-- the trail, as far as it is about changes of status -/
  audits : ∀ i, auditedChanges D'.auditEvents i = auditedChanges D.auditEvents i
  /-- the outbox, likewise -/
  events : ∀ i, publishedChanges D'.domainEvents i = publishedChanges D.domainEvents i
  /-- and its status keys -/
  stamps : ∀ i, stamped D'.domainEvents i = stamped D.domainEvents i

namespace SameDossiers

variable {D D' : Db}

instance : Std.Refl SameDossiers :=
  ⟨fun _ => ⟨rfl, rfl, rfl, rfl, fun _ => rfl, fun _ => rfl, fun _ => rfl⟩⟩

instance : IsTrans Db SameDossiers :=
  ⟨fun _ _ _ h h' => ⟨h'.quotes.trans h.quotes, h'.requests.trans h.requests,
    h'.orders.trans h.orders, h'.movements.trans h.movements,
    fun i => (h'.audits i).trans (h.audits i), fun i => (h'.events i).trans (h.events i),
    fun i => (h'.stamps i).trans (h.stamps i)⟩⟩

/-- Where the records are the same, so are the dossiers. -/
theorem dossier (h : SameDossiers D D') (i : Uuid) : D'.dossier i = D.dossier i := by
  unfold Db.dossier dossierOf
  rw [h.requests, h.orders, h.movements, h.audits, h.events, h.stamps]

/-- The tables the dossiers are made of. -/
def tables : List TableName :=
  [.supplierQuotes, .procurementRequests, .purchaseOrders, .inventoryMovements, .auditEvents,
    .domainEvents]

/-- The records are the same where the tables are. -/
theorem of_tables (h : ∀ i ∈ tables, D'.table i = D.table i) : SameDossiers D D' := by
  have haudits : D'.auditEvents = D.auditEvents := h .auditEvents (by decide)
  have hevents : D'.domainEvents = D.domainEvents := h .domainEvents (by decide)
  refine ⟨h .supplierQuotes (by decide), h .procurementRequests (by decide),
    h .purchaseOrders (by decide), h .inventoryMovements (by decide), fun i => ?_, fun i => ?_,
    fun i => ?_⟩
  · rw [haudits]
  · rw [hevents]
  · rw [hevents]

/-- An audit entry about something else leaves the records as they are. -/
theorem audit {a : AuditEvent} (ha : D.auditEvents.conflicts a = false)
    (haction : a.action ≠ "procurement.status_changed") :
    SameDossiers D (Database.apply ⟨.auditEvents, .insert a⟩ D) := by
  refine ⟨rfl, rfl, rfl, rfl, fun i => (auditedChanges_insert ha).trans ?_, fun _ => rfl,
    fun _ => rfl⟩
  rw [if_neg fun h => haction h.1, List.append_nil]

/-- An event about something else, under another key, leaves the records as they are. -/
theorem event {e : DomainEvent} (he : D.domainEvents.conflicts e = false)
    (hpayload : e.payload.statusChange = none) (hkey : OtherKey e.idempotencyKey) :
    SameDossiers D (Database.apply ⟨.domainEvents, .insert e⟩ D) := by
  refine ⟨rfl, rfl, rfl, rfl, fun _ => rfl, fun i => (publishedChanges_insert he).trans ?_,
    fun i => funext fun target => (stamped_insert he target).trans ?_⟩
  · rw [hpayload]
    simp
  · simp [hkey i target]

end SameDossiers

section Keeps

/-- What writes none of the tables keeps the dossiers. -/
theorem keeps_dossiers {α : Type} {p : Tx α} {tables : List TableName} (h : p.confined tables)
    (htables : ∀ i ∈ SameDossiers.tables, i ∉ tables) : p.keeps SameDossiers :=
  keeps_of_confined h fun _ _ hD => SameDossiers.of_tables fun i hi => hD i (htables i hi)

/-- An audit entry of another action keeps them. -/
theorem addAudit_keepsDossiers {actorType actorId action resourceType : String}
    {resourceId : Uuid} {beforeState afterState : Option Json} {reason : Option String}
    {correlationId : Uuid} (haction : action ≠ "procurement.status_changed") :
    (addAudit actorType actorId action resourceType resourceId beforeState afterState reason
      correlationId).keeps SameDossiers := by
  intro D u D' h
  obtain ⟨row, hrow, -, -, -, -, hconflicts, rfl⟩ := addAudit_runs h
  exact SameDossiers.audit hconflicts (by rw [hrow]; exact haction)

/-- Emitting an event of another kind under another key keeps them. -/
theorem emit_keepsDossiers {payload : EventPayload} {context : EventContext} {key : String}
    (hpayload : payload.statusChange = none) (hkey : OtherKey key) :
    (DatabaseEventStore.emit payload context key).keeps SameDossiers := by
  intro D e D' h
  obtain ⟨-, hekey, hepayload, ⟨-, rfl⟩ | ⟨-, -, hconflicts, rfl⟩⟩ :=
    DatabaseEventStore.emit_runs h
  · exact Std.Refl.refl _
  · exact SameDossiers.event hconflicts (by rw [hepayload]; exact hpayload)
      (by rw [hekey]; exact hkey)

end Keeps

/-! ## Effects on one dossier -/

/-- The event of a status that a request may still take has not been published. -/
def FreshStatuses (D : Db) : Prop :=
  ∀ i request, D.procurementRequests.get i = some request →
    ∀ t ∈ request.status.allowedTransitions, stamped D.domainEvents i t = false

/-- This is a property of the records. -/
theorem FreshStatuses.same {D D' : Db} (h : FreshStatuses D) (hD : SameDossiers D D') :
    FreshStatuses D' := by
  intro i request hrequest t ht
  rw [hD.requests] at hrequest
  rw [hD.stamps]
  exact h i request hrequest t ht

/-- Every receipt is of a purchase order on record. -/
def ReceiptsOwned (D : Db) : Prop :=
  ∀ m ∈ D.inventoryMovements, ∀ p, m.purchaseOrderId = some p →
    ∃ order, D.purchaseOrders.get p = some order

/-- The dossier of `i` changes by `f`, and no other does. -/
structure Affects (i : Uuid) (f : Dossier → Dossier) (D D' : Db) : Prop where
  /-- quotes are not written -/
  quotes : D'.supplierQuotes = D.supplierQuotes
  /-- the dossier of the request changes by `f` -/
  own : D'.dossier i = (D.dossier i).map f
  /-- no other dossier changes -/
  others : ∀ j, j ≠ i → D'.dossier j = D.dossier j
  /-- and receipts stay receipts of a purchase order on record -/
  owned : ReceiptsOwned D → ReceiptsOwned D'

namespace Dossier

/-- What the audit entry of a change says. -/
def auditOf (previous target : ProcurementStatus) : Option Json × Option Json :=
  (some (.object [("status", .text previous.value)]),
    some (.object [("status", .text target.value)]))

/-- The request takes the status of `row`, with its audit entry and its event. -/
def entered (d : Dossier) (row : ProcurementRequest) : Dossier :=
  { d with
    request := row
    audits := d.audits ++ [auditOf d.request.status row.status]
    events := d.events ++ [(d.request.status.value, row.status.value)]
    stamped := fun t => d.stamped t || decide (row.status = t) }

/-- The dossier with the request written again. -/
def withRequest (d : Dossier) (row : ProcurementRequest) : Dossier := { d with request := row }

/-- The dossier with this purchase order, which was placed or written again. -/
def withOrder (d : Dossier) (order : PurchaseOrder) : Dossier := { d with order := some order }

/-- The dossier with one more receipt. -/
def posted (d : Dossier) (m : InventoryMovement) : Dossier :=
  { d with receipts := d.receipts ++ [m] }

end Dossier

namespace Affects

variable {i : Uuid} {f g : Dossier → Dossier} {D D' D'' : Db}

/-- What leaves all dossiers as they are does nothing to this one. -/
theorem of_same (h : SameDossiers D D') : Affects i id D D' := by
  refine ⟨h.quotes, ?_, fun j _ => h.dossier j, fun howned m hm p hp => ?_⟩
  · rw [h.dossier, Option.map_id_fun, id]
  · rw [h.movements] at hm
    rw [h.orders]
    exact howned m hm p hp

/-- Effects on one dossier compose. -/
theorem trans (h : Affects i f D D') (h' : Affects i g D' D'') :
    Affects i (fun d => g (f d)) D D'' := by
  refine ⟨h'.quotes.trans h.quotes, ?_, fun j hj => (h'.others j hj).trans (h.others j hj),
    fun howned => h'.owned (h.owned howned)⟩
  rw [h'.own, h.own, Option.map_map]
  rfl

/-- What follows an effect may leave the dossiers as they are. -/
theorem after (h : Affects i f D D') (h' : SameDossiers D' D'') : Affects i f D D'' :=
  h.trans (of_same h')

/-- What comes before an effect may leave the dossiers as they are. -/
theorem before (h : SameDossiers D D') (h' : Affects i f D' D'') : Affects i f D D'' :=
  (of_same h).trans h'

/-- Writing a purchase order again affects the dossier of its request only. -/
theorem updateOrder {old new : PurchaseOrder} (hget : D.purchaseOrders.get new.id = some old)
    (hs : D.purchaseOrders.succeeds old new = true)
    (hc : D.purchaseOrders.clashes old new = false)
    (hrequest : new.procurementRequestId = old.procurementRequestId) :
    Affects old.procurementRequestId (·.withOrder new) D
      (Database.apply ⟨.purchaseOrders, .update old new⟩ D) := by
  have horder : ∀ j, orderOf (D.purchaseOrders.update old new) j =
      if old.procurementRequestId = j then some new else orderOf D.purchaseOrders j := by
    intro j
    rw [orderOf_update hget hs hc hrequest, hrequest]
  refine ⟨rfl, ?_, fun j hj => ?_, fun howned m hm p hp => ?_⟩
  · have hold : orderOf D.purchaseOrders old.procurementRequestId = some old :=
      orderOf_of_mem (Table.mem_of_get hget) rfl
    have hid : old.id = new.id := Table.key_of_get hget
    show dossierOf D.procurementRequests (D.purchaseOrders.update old new) D.inventoryMovements
      D.auditEvents D.domainEvents old.procurementRequestId = _
    unfold Db.dossier dossierOf
    rw [horder, if_pos rfl, hold, Option.map_map]
    refine congrArg (Option.map · _) (funext fun r => ?_)
    simp [Dossier.withOrder, receiptsOf, hid]
  · show dossierOf D.procurementRequests (D.purchaseOrders.update old new) D.inventoryMovements
      D.auditEvents D.domainEvents j = _
    unfold Db.dossier dossierOf
    rw [horder, if_neg (Ne.symm hj)]
  · obtain ⟨order, horder⟩ := howned m hm p hp
    refine ⟨if new.id = p then new else order, (Table.get_update hs hc p).trans ?_⟩
    show (if new.id = p then some new else D.purchaseOrders.get p) = _
    split
    · rfl
    · exact horder

/-- Placing a purchase order affects the dossier of its request only.  No receipt is of it yet,
    because receipts are of purchase orders on record. -/
theorem insertOrder {order : PurchaseOrder} (hconflicts : D.purchaseOrders.conflicts order = false)
    (hnone : orderOf D.purchaseOrders order.procurementRequestId = none)
    (howned : ReceiptsOwned D) :
    Affects order.procurementRequestId (·.withOrder order) D
      (Database.apply ⟨.purchaseOrders, .insert order⟩ D) := by
  -- no receipt is of an order that was not there
  have hreceipts : ∀ m ∈ D.inventoryMovements, m.purchaseOrderId ≠ some order.id := by
    intro m hm hp
    obtain ⟨other, hother⟩ := howned m hm _ hp
    exact (Table.conflicts_eq_false.mp hconflicts other (Table.mem_of_get hother)).1
      (Table.key_of_get hother)
  refine ⟨rfl, ?_, fun j hj => ?_, fun _ m hm p hp => ?_⟩
  · show dossierOf D.procurementRequests (D.purchaseOrders.insert order) D.inventoryMovements
      D.auditEvents D.domainEvents order.procurementRequestId = _
    unfold Db.dossier dossierOf
    rw [orderOf_insert hconflicts, if_pos rfl, hnone, Option.map_map]
    refine congrArg (Option.map · _) (funext fun r => ?_)
    have hempty : receiptsOf D.inventoryMovements (some order) = [] := by
      refine List.filter_eq_nil_iff.mpr fun m hm => ?_
      simp [hreceipts m hm]
    have hempty' : receiptsOf D.inventoryMovements none = [] := by simp [receiptsOf]
    simp [Dossier.withOrder, hempty, hempty']
  · show dossierOf D.procurementRequests (D.purchaseOrders.insert order) D.inventoryMovements
      D.auditEvents D.domainEvents j = _
    unfold Db.dossier dossierOf
    rw [orderOf_insert hconflicts, if_neg (Ne.symm hj)]
  · obtain ⟨other, hother⟩ := howned m hm p hp
    refine ⟨other, (Table.get_insert hconflicts p).trans ((if_neg ?_).trans hother)⟩
    rintro rfl
    exact hreceipts m hm hp

/-- A receipt affects the dossier of the request behind its purchase order. -/
theorem post {m : InventoryMovement} {order : PurchaseOrder}
    (hconflicts : D.inventoryMovements.conflicts m = false) (htype : m.movementType = .receipt)
    (hm : m.purchaseOrderId = some order.id) (horder : order ∈ D.purchaseOrders) :
    Affects order.procurementRequestId (·.posted m) D
      (Database.apply ⟨.inventoryMovements, .insert m⟩ D) := by
  refine ⟨rfl, ?_, fun j hj => ?_, fun howned m' hm' p hp => ?_⟩
  · have hown : orderOf D.purchaseOrders order.procurementRequestId = some order :=
      orderOf_of_mem horder rfl
    show dossierOf D.procurementRequests D.purchaseOrders (D.inventoryMovements.insert m)
      D.auditEvents D.domainEvents order.procurementRequestId = _
    unfold Db.dossier dossierOf
    rw [receiptsOf_insert hconflicts, hown, Option.map_map]
    refine congrArg (Option.map · _) (funext fun r => ?_)
    simp [Dossier.posted, htype, hm]
  · show dossierOf D.procurementRequests D.purchaseOrders (D.inventoryMovements.insert m)
      D.auditEvents D.domainEvents j = _
    unfold Db.dossier dossierOf
    rw [receiptsOf_insert hconflicts, if_neg, List.append_nil]
    · rintro ⟨-, hany⟩
      obtain ⟨other, hother, hid⟩ := (Option.any_eq_true _ _).mp hany
      obtain ⟨hmem, hrequest⟩ := orderOf_mem hother
      rw [hm, decide_eq_true_eq, Option.some.injEq] at hid
      obtain rfl := D.purchaseOrders.eq_of_key_eq horder hmem hid
      exact hj hrequest.symm
  · rcases (Table.mem_insert hconflicts).mp hm' with hm' | rfl
    · exact howned m' hm' p hp
    · rw [hm] at hp
      obtain rfl := Option.some.inj hp
      exact ⟨order, Table.get_of_mem horder⟩

/-- A request is written again with the status it has, which its own dossier shows. -/
theorem updateRequest {old new : ProcurementRequest}
    (hget : D.procurementRequests.get new.id = some old)
    (hs : D.procurementRequests.succeeds old new = true)
    (hc : D.procurementRequests.clashes old new = false) :
    Affects new.id (·.withRequest new) D
      (Database.apply ⟨.procurementRequests, .update old new⟩ D) := by
  refine ⟨rfl, ?_, fun j hj => ?_, fun howned => howned⟩
  · show dossierOf (D.procurementRequests.update old new) D.purchaseOrders D.inventoryMovements
      D.auditEvents D.domainEvents new.id = _
    unfold Db.dossier dossierOf
    rw [Table.get_update hs hc, if_pos (show Row.key new = new.id from rfl), hget]
    rfl
  · show dossierOf (D.procurementRequests.update old new) D.purchaseOrders D.inventoryMovements
      D.auditEvents D.domainEvents j = _
    unfold Db.dossier dossierOf
    rw [Table.get_update hs hc, if_neg (show Row.key new ≠ j from Ne.symm hj)]

/-- The audit entry of a change affects the dossier of the request it names, and no other. -/
theorem insertAudit {a : AuditEvent} (hconflicts : D.auditEvents.conflicts a = false)
    (haction : a.action = "procurement.status_changed") :
    Affects a.resourceId
      (fun d => { d with audits := d.audits ++ [(a.beforeState, a.afterState)] }) D
      (Database.apply ⟨.auditEvents, .insert a⟩ D) := by
  refine ⟨rfl, ?_, fun j hj => ?_, fun howned => howned⟩
  · show dossierOf D.procurementRequests D.purchaseOrders D.inventoryMovements
      (D.auditEvents.insert a) D.domainEvents a.resourceId = _
    unfold Db.dossier dossierOf
    rw [auditedChanges_insert hconflicts, if_pos ⟨haction, rfl⟩, Option.map_map]
    rfl
  · show dossierOf D.procurementRequests D.purchaseOrders D.inventoryMovements
      (D.auditEvents.insert a) D.domainEvents j = _
    unfold Db.dossier dossierOf
    rw [auditedChanges_insert hconflicts, if_neg fun h => hj h.2.symm, List.append_nil]

/-- The event of a change affects the dossier of the request it is about, and no other. -/
theorem insertEvent {e : DomainEvent} {change : String × String} {target : ProcurementStatus}
    (hconflicts : D.domainEvents.conflicts e = false)
    (hchange : e.payload.statusChange = some change)
    (hkey : e.idempotencyKey = statusKey e.aggregateId target) :
    Affects e.aggregateId
      (fun d =>
        { d with
          events := d.events ++ [change]
          stamped := fun t => d.stamped t || decide (target = t) }) D
      (Database.apply ⟨.domainEvents, .insert e⟩ D) := by
  have hstamped : ∀ j t, stamped (D.domainEvents.insert e) j t =
      (stamped D.domainEvents j t || decide (e.aggregateId = j ∧ target = t)) := by
    intro j t
    rw [stamped_insert hconflicts, hkey]
    have hiff : statusKey e.aggregateId target = statusKey j t ↔ e.aggregateId = j ∧ target = t :=
      ⟨statusKey_inj, fun ⟨hj, ht⟩ => by rw [hj, ht]⟩
    simp only [hiff]
  refine ⟨rfl, ?_, fun j hj => ?_, fun howned => howned⟩
  · show dossierOf D.procurementRequests D.purchaseOrders D.inventoryMovements D.auditEvents
      (D.domainEvents.insert e) e.aggregateId = _
    have hown : stamped (D.domainEvents.insert e) e.aggregateId =
        fun t => stamped D.domainEvents e.aggregateId t || decide (target = t) := by
      funext t
      simp [hstamped]
    unfold Db.dossier dossierOf
    rw [publishedChanges_insert hconflicts, if_pos rfl, hchange, hown, Option.map_map]
    rfl
  · show dossierOf D.procurementRequests D.purchaseOrders D.inventoryMovements D.auditEvents
      (D.domainEvents.insert e) j = _
    have hother : stamped (D.domainEvents.insert e) j = stamped D.domainEvents j := by
      funext t
      simp [hstamped, Ne.symm hj]
    unfold Db.dossier dossierOf
    rw [publishedChanges_insert hconflicts, if_neg (Ne.symm hj), List.append_nil, hother]

/-- Where nothing is written the effect must be none. -/
theorem of_eq (hf : ∀ d, D.dossier i = some d → f d = d) : Affects i f D D := by
  refine ⟨rfl, ?_, fun _ _ => rfl, fun howned => howned⟩
  cases hd : D.dossier i with
  | none => rfl
  | some d => exact congrArg some (hf d hd).symm

/-- The effect need only be known on the dossier there is. -/
theorem congr (h : Affects i f D D') (hfg : ∀ d, D.dossier i = some d → f d = g d) :
    Affects i g D D' := by
  refine ⟨h.quotes, ?_, h.others, h.owned⟩
  rw [h.own]
  cases hd : D.dossier i with
  | none => rfl
  | some d => exact congrArg some (hfg d hd)

end Affects

end CommerceOperations
