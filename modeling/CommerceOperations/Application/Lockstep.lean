/-
  The request, its purchase order and its records go in lockstep.

  `Dossier.InStep` is the invariant: the audit entries and the events spell one path from PROPOSED
  to the status of the request, the purchase order has the status that goes with it, and its
  balances are the sums of the receipts.  A change of status (`Moved`) keeps it, and so does a
  receipt; everything else leaves the dossiers as they are.

  One receipt does both: it posts goods, and if they are the last ones it closes the request.  In
  between the order is full but not RECEIVED.  So the invariant has two parts, `Consistent`, which
  holds all the time, and `Complete`, which holds when a call is over.
-/
import CommerceOperations.Application.ApprovalActions
import CommerceOperations.Application.Purchasing
import CommerceOperations.Persistence.Money

namespace CommerceOperations

open Relational Prog ProcurementService

/-! ## The path of a request -/

namespace ProcurementStatus

/-- How far a request has come; each allowed change of status goes up. -/
def rank : ProcurementStatus → Nat
  | proposed => 0
  | awaitingApproval => 1
  | approved => 2
  | ordered => 3
  | shipped => 4
  | received => 5
  | cancelled => 6

/-- A request only goes forward. -/
theorem rank_lt {s t : ProcurementStatus} (h : t ∈ s.allowedTransitions) : s.rank < t.rank := by
  revert h
  cases s <;> cases t <;> decide

/-- The status the purchase order has with it. -/
def orderStatus : ProcurementStatus → Option PurchaseOrderStatus
  | proposed | awaitingApproval => none
  | approved => some .approved
  | ordered => some .submitted
  | shipped => some .shipped
  | received => some .received
  | cancelled => some .cancelled

/-- A request in this status may have no purchase order. -/
def orderMissing : ProcurementStatus → Bool
  | proposed | awaitingApproval | cancelled => true
  | _ => false

end ProcurementStatus

/-- The changes of status of a request that has the status `s`: each starts from the status the
    one before led to, and is allowed. -/
inductive Path : List (ProcurementStatus × ProcurementStatus) → ProcurementStatus → Prop
  | proposed : Path [] .proposed
  | step {steps s t} (h : Path steps s) (ht : t ∈ s.allowedTransitions) : Path (steps ++ [(s, t)]) t

namespace Path

variable {steps : List (ProcurementStatus × ProcurementStatus)} {s t : ProcurementStatus}

/-- Every status on the path is at most as far as the one it leads to. -/
theorem rank_le (h : Path steps s) : ∀ t ∈ steps.map Prod.snd, t.rank ≤ s.rank := by
  induction h with
  | proposed => exact fun _ ht => absurd ht List.not_mem_nil
  | step _ ht ih =>
    intro u hu
    rw [List.map_append, List.mem_append] at hu
    rcases hu with hu | hu
    · exact (ih u hu).trans (ProcurementStatus.rank_lt ht).le
    · rw [List.mem_singleton.mp hu]

/-- A status that may follow has not been taken before. -/
theorem fresh (h : Path steps s) (ht : t ∈ s.allowedTransitions) : t ∉ steps.map Prod.snd := by
  intro hmem
  have hle := h.rank_le t hmem
  have hlt := ProcurementStatus.rank_lt ht
  omega

/-- **No status is taken twice.** -/
theorem nodup (h : Path steps s) : (steps.map Prod.snd).Nodup := by
  induction h with
  | proposed => exact List.nodup_nil
  | step h ht ih =>
    rw [List.map_append]
    exact ih.append (List.nodup_singleton _) (List.disjoint_singleton.mpr (h.fresh ht))

end Path

/-! ## The invariant -/

/-- The units the receipts came to. -/
def receivedTotal (receipts : List InventoryMovement) : Int := (receipts.map (·.quantityDelta)).sum

/-- What the receipts cost, each at its own unit cost. -/
def landedTotal (receipts : List InventoryMovement) : Rat :=
  (receipts.map fun m => m.unitCost.getD 0 * (m.quantityDelta : Rat)).sum

/-- The purchase order `p` of a request in status `s`, with its receipts. -/
structure OrderInStep (s : ProcurementStatus) (receipts : List InventoryMovement)
    (p : PurchaseOrder) : Prop where
  /-- it has the status that goes with the request -/
  status : s.orderStatus = some p.status
  /-- it is for at least one unit -/
  quantity_pos : 0 < p.quantity
  /-- what has come is the sum of the receipts -/
  received : p.receivedQuantity = receivedTotal receipts
  /-- and no more than was ordered -/
  received_le : p.receivedQuantity ≤ p.quantity
  /-- goods arrive when the order has been shipped -/
  idle : p.status ≠ .shipped → p.status ≠ .received → p.receivedQuantity = 0
  /-- the landed cost is what the receipts cost -/
  landed : p.actualLandedCost.getD 0 = landedTotal receipts
  /-- and fits its column -/
  landed_money : IsMoney (p.actualLandedCost.getD 0)

namespace Dossier

/-- The records spell the path `steps`. -/
structure Spells (d : Dossier) (steps : List (ProcurementStatus × ProcurementStatus)) : Prop where
  /-- it leads to the status of the request -/
  path : Path steps d.request.status
  /-- the trail has its steps, in their order -/
  audits : d.audits = steps.map fun st => auditOf st.1 st.2
  /-- so has the outbox -/
  events : d.events = steps.map fun st => (st.1.value, st.2.value)
  /-- and just the statuses on it have an event -/
  stamped : ∀ t, d.stamped t = true ↔ t ∈ steps.map Prod.snd

/-- All that holds of a dossier even between the last receipt and the close of its request. -/
structure Consistent (d : Dossier) : Prop where
  /-- the trail and the outbox spell one path -/
  spells : ∃ steps, d.Spells steps
  /-- at least one unit is requested -/
  requested_pos : 0 < d.request.requestedQuantity
  /-- without a purchase order nothing has come -/
  missing : d.order = none → d.request.status.orderMissing = true ∧ d.receipts = []
  /-- a purchase order is in step -/
  order : ∀ p, d.order = some p → OrderInStep d.request.status d.receipts p

/-- The purchase order is RECEIVED when all has come. -/
def Complete (d : Dossier) : Prop :=
  ∀ p, d.order = some p → (p.receivedQuantity = p.quantity ↔ p.status = .received)

/-- **The invariant** of a dossier between two calls. -/
structure InStep (d : Dossier) : Prop where
  /-- the records agree -/
  consistent : d.Consistent
  /-- and the order is closed just when it is full -/
  complete : d.Complete

/-- A status that may follow has no event yet, since it is not on the path. -/
theorem Spells.fresh {d : Dossier} {steps : List (ProcurementStatus × ProcurementStatus)}
    (h : d.Spells steps) {t : ProcurementStatus} (ht : t ∈ d.request.status.allowedTransitions) :
    d.stamped t = false :=
  Bool.eq_false_iff.mpr fun hstamped => h.path.fresh ht ((h.stamped t).mp hstamped)

end Dossier

/-! ## A change of status -/

section Moves

variable {d : Dossier} {request row : ProcurementRequest} {order' : Option PurchaseOrder}
variable {target : ProcurementStatus}

/-- The records spell one more change. -/
theorem Dossier.Spells.entered {steps : List (ProcurementStatus × ProcurementStatus)}
    (h : d.Spells steps) (hrow : row.status ∈ d.request.status.allowedTransitions)
    (order : Option PurchaseOrder) :
    Dossier.Spells { d.entered row with order }
      (steps ++ [(d.request.status, row.status)]) := by
  refine ⟨h.path.step hrow, ?_, ?_, fun t => ?_⟩
  · show d.audits ++ _ = _
    rw [h.audits, List.map_append]
    rfl
  · show d.events ++ _ = _
    rw [h.events, List.map_append]
    rfl
  · show (d.stamped t || decide (row.status = t)) = true ↔ _
    rw [Bool.or_eq_true, h.stamped, decide_eq_true_eq, List.map_append, List.mem_append]
    simp [eq_comm]

/-- A purchase order that takes its next status stays in step with the receipts. -/
theorem OrderInStep.restated {s t : ProcurementStatus} {receipts : List InventoryMovement}
    {p p' : PurchaseOrder} {status : PurchaseOrderStatus} (h : OrderInStep s receipts p)
    (hallowed : t ∈ s.allowedTransitions) (ht : t.orderStatus = some status)
    (hp : Restated p p' status) : OrderInStep t receipts p' := by
  refine ⟨by rw [ht, hp.status], ?_, ?_, ?_, ?_, ?_, ?_⟩
  · rw [hp.quantity]
    exact h.quantity_pos
  · rw [hp.receivedQuantity]
    exact h.received
  · rw [hp.receivedQuantity, hp.quantity]
    exact h.received_le
  · -- the order was not shipped before, unless the request is RECEIVED now
    rw [hp.status, hp.receivedQuantity]
    intro hshipped hreceived
    have hs := h.status
    refine h.idle ?_ ?_ <;> rintro hstatus <;> rw [hstatus] at hs <;>
      cases s <;> cases t <;> simp_all [ProcurementStatus.orderStatus,
        ProcurementStatus.allowedTransitions]
  · rw [hp.actualLandedCost]
    exact h.landed
  · rw [hp.actualLandedCost]
    exact h.landed_money

/-- An order no goods have come for is not complete, because it is for at least one unit. -/
theorem OrderInStep.not_full {s : ProcurementStatus} {receipts : List InventoryMovement}
    {p : PurchaseOrder} (h : OrderInStep s receipts p) (hshipped : p.status ≠ .shipped)
    (hreceived : p.status ≠ .received) : p.receivedQuantity ≠ p.quantity := by
  have hidle := h.idle hshipped hreceived
  have hpos := h.quantity_pos
  omega

/-- The order of a request that has just been approved. -/
theorem OrderInStep.placed {request : ProcurementRequest} {p : PurchaseOrder}
    (hp : Placed request p) (hpos : 0 < request.requestedQuantity) :
    OrderInStep .approved [] p := by
  refine ⟨by rw [hp.status]; rfl, by rw [hp.quantity]; exact hpos, hp.receivedQuantity, ?_,
    fun _ _ => hp.receivedQuantity, ?_, ?_⟩
  · rw [hp.receivedQuantity, hp.quantity]
    exact hpos.le
  · rw [hp.actualLandedCost]
    rfl
  · rw [hp.actualLandedCost]
    exact IsMoney.zero

/-- **A change of status** keeps the records consistent.  The cases are those of `OrderFollows`: the
    order is left alone, placed, restated or missing. -/
theorem Dossier.Consistent.moved (h : d.Consistent)
    (hallowed : row.status ∈ d.request.status.allowedTransitions)
    (hquantity : row.requestedQuantity = d.request.requestedQuantity)
    (hfollows : OrderFollows d.request row.status d.order order') :
    Dossier.Consistent { d.entered row with order := order' } := by
  obtain ⟨steps, hspells⟩ := h.spells
  -- a purchase order that takes a status of its own
  have hrestated : ∀ status, row.status.orderStatus = some status →
      Follows status d.order order' →
        order' ≠ none ∧ ∀ p', order' = some p' → OrderInStep row.status d.receipts p' := by
    rintro status hstatus ⟨p, q, hp, hq, hr⟩
    refine ⟨by rw [hq]; exact Option.some_ne_none q, fun p' hp' => ?_⟩
    obtain rfl := Option.some.inj (hq.symm.trans hp')
    exact (h.order p hp).restated hallowed hstatus hr
  -- a request that has not been approved has none
  have hnone : d.request.status.orderStatus = none → d.order = none := by
    intro hstatus
    cases hp : d.order with
    | none => rfl
    | some p => exact absurd ((h.order p hp).status.symm.trans hstatus) (Option.some_ne_none _)
  have hkey : (order' = none → row.status.orderMissing = true ∧ d.receipts = []) ∧
      ∀ p', order' = some p' → OrderInStep row.status d.receipts p' := by
    cases ht : row.status with
    | proposed =>
      rw [ht] at hfollows
      exact hfollows.elim
    | awaitingApproval =>
      rw [ht] at hfollows hallowed
      have hproposed : d.request.status = .proposed := by
        revert hallowed
        cases d.request.status <;> decide
      have horder := hnone (by rw [hproposed]; rfl)
      obtain rfl : order' = d.order := hfollows
      refine ⟨fun _ => ⟨rfl, (h.missing horder).2⟩, fun p' hp' => ?_⟩
      rw [horder] at hp'
      exact nomatch hp'
    | approved =>
      rw [ht] at hfollows hallowed
      have hawaiting : d.request.status = .awaitingApproval := by
        revert hallowed
        cases d.request.status <;> decide
      have horder := hnone (by rw [hawaiting]; rfl)
      rcases hfollows with ⟨-, hsome⟩ | ⟨-, p, rfl, hp⟩
      · exact absurd horder hsome
      · refine ⟨fun hp' => (nomatch hp'), fun p' hp' => ?_⟩
        obtain rfl := Option.some.inj hp'
        rw [(h.missing horder).2]
        exact OrderInStep.placed hp h.requested_pos
    | ordered =>
      rw [ht] at hfollows hrestated
      obtain ⟨hsome, horder⟩ := hrestated _ rfl hfollows
      exact ⟨fun hp' => absurd hp' hsome, horder⟩
    | shipped =>
      rw [ht] at hfollows hrestated
      obtain ⟨hsome, horder⟩ := hrestated _ rfl hfollows
      exact ⟨fun hp' => absurd hp' hsome, horder⟩
    | received =>
      rw [ht] at hfollows hrestated
      obtain ⟨hsome, horder⟩ := hrestated _ rfl hfollows
      exact ⟨fun hp' => absurd hp' hsome, horder⟩
    | cancelled =>
      rw [ht] at hfollows hrestated
      rcases hfollows with ⟨horder, rfl⟩ | hfollows
      · exact ⟨fun _ => ⟨rfl, (h.missing horder).2⟩, fun p' hp' => (nomatch hp')⟩
      · obtain ⟨hsome, horder⟩ := hrestated _ rfl hfollows
        exact ⟨fun hp' => absurd hp' hsome, horder⟩
  refine ⟨⟨_, hspells.entered hallowed order'⟩, ?_, hkey.1, hkey.2⟩
  show 0 < row.requestedQuantity
  rw [hquantity]
  exact h.requested_pos

/-- After a change of status the order is RECEIVED if all has come. -/
theorem Dossier.Consistent.complete_moved (h : d.Consistent)
    (hallowed : row.status ∈ d.request.status.allowedTransitions)
    (hquantity : row.requestedQuantity = d.request.requestedQuantity)
    (hfollows : OrderFollows d.request row.status d.order order')
    (hfull : row.status = .received → ∀ p, d.order = some p → p.receivedQuantity = p.quantity) :
    Dossier.Complete { d.entered row with order := order' } := by
  intro p' hp'
  have hstep := (h.moved hallowed hquantity hfollows).order p' hp'
  have hstatus : row.status.orderStatus = some p'.status := hstep.status
  by_cases hreceived : row.status = .received
  · rw [hreceived] at hfollows hstatus
    obtain ⟨p, q, hp, hq, hr⟩ := hfollows
    obtain rfl := Option.some.inj (hq.symm.trans hp')
    refine ⟨fun _ => hr.status, fun _ => ?_⟩
    rw [hr.receivedQuantity, hr.quantity]
    exact hfull hreceived p hp
  · have hnot : p'.status ≠ .received := by
      intro hp
      rw [hp] at hstatus
      revert hreceived hstatus
      cases row.status <;> decide
    refine ⟨fun heq => ?_, fun hp => absurd hp hnot⟩
    by_cases hshipped : p'.status = .shipped
    · -- the order has only just been shipped
      have hship : row.status = .shipped := by
        rw [hshipped] at hstatus
        revert hstatus
        cases row.status <;> decide
      rw [hship] at hfollows hallowed
      obtain ⟨p, q, hp, hq, hr⟩ := hfollows
      obtain rfl := Option.some.inj (hq.symm.trans hp')
      have hordered : d.request.status = .ordered := by
        revert hallowed
        cases d.request.status <;> decide
      have hbefore := h.order p hp
      have hsubmitted : p.status = .submitted := by
        have hs := hbefore.status
        rw [hordered] at hs
        exact (Option.some.inj hs).symm
      rw [hr.receivedQuantity, hr.quantity] at heq
      exact absurd heq (hbefore.not_full (by rw [hsubmitted]; decide) (by rw [hsubmitted]; decide))
    · exact absurd heq (hstep.not_full hshipped hnot)

end Moves

/-! ## A receipt -/

/-- **A receipt** adds the same to the balances of the order and to the receipts. -/
theorem Dossier.Consistent.posted {d : Dossier} {p ordered : PurchaseOrder}
    {movement : InventoryMovement} {quantity : Int} {unitCost : Rat} (h : d.Consistent)
    (horder : d.order = some p) (hshipped : p.status = .shipped)
    (hle : quantity ≤ p.quantity - p.receivedQuantity)
    (hordered : ∃ v, ordered =
      { p with
        version := v
        receivedQuantity := p.receivedQuantity + quantity
        actualLandedCost := some (money (p.actualLandedCost.getD 0 + unitCost * quantity)) })
    (hdelta : movement.quantityDelta = quantity) (hunit : movement.unitCost = some (money unitCost))
    (hmoney : IsMoney unitCost) : ((d.withOrder ordered).posted movement).Consistent := by
  obtain ⟨steps, hspells⟩ := h.spells
  have hp := h.order p horder
  obtain ⟨v, rfl⟩ := hordered
  have hlanded : IsMoney (p.actualLandedCost.getD 0 + unitCost * quantity) :=
    hp.landed_money.add (hmoney.mul_int quantity)
  refine ⟨⟨steps, hspells.path, hspells.audits, hspells.events, hspells.stamped⟩, h.requested_pos,
    fun hnone => (nomatch hnone), fun p' hp' => ?_⟩
  obtain rfl := Option.some.inj hp'
  refine ⟨hp.status, hp.quantity_pos, ?_, ?_, fun hnot => absurd hshipped hnot, ?_, ?_⟩
  · show p.receivedQuantity + quantity = receivedTotal (d.receipts ++ [movement])
    simp [receivedTotal, hp.received, hdelta]
  · show p.receivedQuantity + quantity ≤ p.quantity
    omega
  · show money _ = landedTotal (d.receipts ++ [movement])
    rw [hlanded.money_eq, hp.landed]
    simp [landedTotal, hdelta, hunit, hmoney.money_eq]
  · exact isMoney_money _

/-! ## The database -/

/-- `P` holds of every dossier; the receipts are of orders on record, and the quotes are stored as
    money columns store them. -/
structure Db.Dossiers (P : Dossier → Prop) (D : Db) : Prop where
  /-- every dossier has the property -/
  dossiers : ∀ i d, D.dossier i = some d → P d
  /-- receipts are of purchase orders on record -/
  owned : ReceiptsOwned D
  /-- and the unit costs of the quotes have four decimals -/
  quotes : ∀ q ∈ D.supplierQuotes, IsMoney q.unitCost

namespace Db.Dossiers

variable {P Q : Dossier → Prop} {D D' : Db} {i : Uuid} {f : Dossier → Dossier}

/-- What is weaker holds as well. -/
theorem mono (h : D.Dossiers P) (hPQ : ∀ d, P d → Q d) : D.Dossiers Q :=
  ⟨fun i d hd => hPQ d (h.dossiers i d hd), h.owned, h.quotes⟩

/-- Only one dossier changes, so only for that one is anything to be shown. -/
theorem affected (h : D.Dossiers P) (haffects : Affects i f D D') (hPQ : ∀ d, P d → Q d)
    (hf : ∀ d, D.dossier i = some d → P d → Q (f d)) : D'.Dossiers Q := by
  refine ⟨fun j d hd => ?_, haffects.owned h.owned, by rw [haffects.quotes]; exact h.quotes⟩
  by_cases hj : j = i
  · subst hj
    rw [haffects.own] at hd
    obtain ⟨d₀, hd₀, rfl⟩ := Option.map_eq_some_iff.mp hd
    exact hf d₀ hd₀ (h.dossiers j d₀ hd₀)
  · rw [haffects.others j hj] at hd
    exact hPQ d (h.dossiers j d hd)

/-- What leaves the dossiers as they are keeps any property of them. -/
theorem same (h : D.Dossiers P) (hD : SameDossiers D D') : D'.Dossiers P :=
  h.affected (Affects.of_same (i := Uuid.ofNat 0) hD) (fun _ hd => hd) fun _ _ hd => hd

/-- The events of the statuses to come have not been published. -/
theorem fresh (h : D.Dossiers Dossier.Consistent) : FreshStatuses D := by
  intro i request hrequest t ht
  have hd : D.dossier i = (D.procurementRequests.get i).map _ := rfl
  rw [hrequest] at hd
  obtain ⟨steps, hspells⟩ := (h.dossiers i _ hd).spells
  exact hspells.fresh ht

/-- **A change of status** that does not complete a purchase order keeps every request in step. -/
theorem moves {target : ProcurementStatus} (h : D.Dossiers Dossier.InStep)
    (hmoves : Moves i target D D') (htarget : target ≠ .received) : D'.Dossiers Dossier.InStep := by
  obtain ⟨request, row, order', hm⟩ := hmoves
  refine h.affected hm.affects (fun _ hd => hd) fun d hd hstep => ?_
  obtain ⟨hrequest, horder, -⟩ := dossier_eq_some hd
  obtain rfl := Option.some.inj (hm.request_get.symm.trans hrequest)
  have hallowed := hm.allowed
  have hfollows := hm.follows
  rw [← hm.status] at hallowed hfollows htarget
  rw [← horder] at hfollows
  exact ⟨hstep.consistent.moved hallowed hm.quantity hfollows,
    hstep.consistent.complete_moved hallowed hm.quantity hfollows fun hreceived =>
      absurd hreceived htarget⟩

end Db.Dossiers

namespace InventoryService

/-- The record of a change of stock is no record of a purchase. -/
theorem recordChange_keepsDossiers (item : InventoryItem) (movement : InventoryMovement)
    (actor : String) (previousAvailable : Int) (stockReceived : Bool)
    (workflow : Option WorkflowRun) :
    (recordChange item movement actor previousAvailable stockReceived workflow).keeps
      SameDossiers := by
  refine keeps_bind (keeps_answer _) fun _ => keeps_bind (addAudit_keepsDossiers ?_) fun _ => ?_
  · cases stockReceived <;> decide
  refine keeps_bind (emit_keepsDossiers rfl (OtherKey.of_head
    (rfl : _ = "inventory-changed:" ++ movement.id.text) (by decide))) fun _ => ?_
  extract_lets lowStock
  have hlow : ∀ u, (lowStock u).keeps SameDossiers := by
    intro u
    simp only [lowStock]
    split
    · exact keeps_bind (emit_keepsDossiers rfl (OtherKey.of_head
        (rfl : _ = "low-stock:" ++ movement.id.text) (by decide))) fun _ => keeps_done _
    · exact keeps_done _
  split
  · refine keeps_bind ?_ fun _ => keeps_bind (emit_keepsDossiers rfl (OtherKey.of_head
      (rfl : _ = "stock-received:" ++ movement.id.text) (by decide))) fun _ => hlow ()
    intro D a D' h
    obtain ⟨-, rfl⟩ := Tx.runs_orThrow.mp h
    exact Std.Refl.refl D
  · exact hlow ()

namespace Received

variable {purchaseOrderId : Uuid} {command : Receipt} {purchaseOrder ordered : PurchaseOrder}
variable {procurement : ProcurementRequest} {quote : SupplierQuote} {workflow : WorkflowRun}
variable {item changed : InventoryItem} {movement : InventoryMovement} {D D₁ D₂ D' : Db}

/-- Before the request is closed, the receipt is on the order and among its receipts. -/
theorem affects (h : Received purchaseOrderId command purchaseOrder procurement quote workflow
    item changed ordered movement D D₁ D₂ D') :
    Affects purchaseOrder.procurementRequestId
      (fun d => (d.withOrder ordered).posted movement) D D₂ := by
  have hitems : ∀ i ∈ SameDossiers.tables, i ≠ TableName.inventoryItems := by decide
  have hsame : SameDossiers D D₁ :=
    SameDossiers.of_tables fun i hi => h.receiving.sameOff i (hitems i hi)
  have hwritten : SameDossiers D₁ (Database.apply ⟨.inventoryItems, .update item changed⟩ D₁) :=
    SameDossiers.of_tables fun i hi => Database.apply_table_of_ne _ _ (hitems i hi)
  have hordered : ordered.id = purchaseOrder.id ∧
      ordered.procurementRequestId = purchaseOrder.procurementRequestId := by
    rw [h.ordered_eq]
    exact ⟨rfl, rfl⟩
  have hget : (Db.purchaseOrders D₁).get ordered.id = some purchaseOrder := by
    rw [hordered.1, hsame.orders]
    exact Table.get_of_mem (Table.mem_of_get h.purchaseOrder_get)
  have hupdated := Affects.updateOrder
    (D := Database.apply ⟨.inventoryItems, .update item changed⟩ D₁)
    hget h.ordered_succeeds h.ordered_clashes hordered.2
  obtain ⟨id, hmovement⟩ := h.movement_eq
  have hposted := Affects.post
    (D := Database.apply ⟨.purchaseOrders, .update purchaseOrder ordered⟩
      (Database.apply ⟨.inventoryItems, .update item changed⟩ D₁))
    h.movement_conflicts (by rw [hmovement]) (by rw [hmovement, hordered.1])
    ((Table.mem_update h.ordered_succeeds h.ordered_clashes).mpr (Or.inl rfl))
  rw [hordered.2] at hposted
  have hrecorded := recordChange_keepsDossiers _ _ _ _ _ _ _ _ _ h.recorded
  exact Affects.before hsame (Affects.before hwritten ((hupdated.trans hposted).after hrecorded))

/-- **A receipt** keeps the records in step. -/
theorem inStep (h : Received purchaseOrderId command purchaseOrder procurement quote workflow
    item changed ordered movement D D₁ D₂ D') (hD : D.Dossiers Dossier.InStep)
    (hcost : ∀ unitCost, command.landedUnitCost = some unitCost → IsMoney unitCost) :
    D'.Dossiers Dossier.InStep := by
  have haffects := h.affects
  -- the unit cost is stated with four decimals, or that of a stored quote
  have hunit : IsMoney (command.landedUnitCost.getD quote.unitCost) := by
    cases hcase : command.landedUnitCost with
    | none => exact hD.quotes quote (Table.mem_of_get h.quote_get)
    | some unitCost => exact hcost unitCost hcase
  obtain ⟨id, hmovement⟩ := h.movement_eq
  have hordered := h.ordered_eq
  have horderOf : ∀ d, D.dossier purchaseOrder.procurementRequestId = some d →
      d.order = some purchaseOrder := fun d hd =>
    (dossier_eq_some hd).2.1.trans (orderOf_of_mem (Table.mem_of_get h.purchaseOrder_get) rfl)
  -- the movement and the count of the order go together
  have hposted : ∀ d, D.dossier purchaseOrder.procurementRequestId = some d → d.InStep →
      ((d.withOrder ordered).posted movement).Consistent := fun d hd hstep =>
    hstep.consistent.posted (horderOf d hd) h.shipped h.quantity_le ⟨_, hordered⟩
      (by rw [hmovement]) (by rw [hmovement]) hunit
  rcases h.finished with ⟨hfull, now, request, hmark⟩ | ⟨hpart, rfl⟩
  · -- all has come: the request and the order are RECEIVED
    have hconsistent : D₂.Dossiers Dossier.Consistent :=
      hD.affected haffects (fun _ hd => hd.consistent) hposted
    have hid : procurement.id = purchaseOrder.procurementRequestId :=
      Table.key_of_get h.procurement_get
    have hcur : D₂.procurementRequests.get procurement.id = some procurement := by
      have hbefore : D.dossier purchaseOrder.procurementRequestId =
          (D.procurementRequests.get purchaseOrder.procurementRequestId).map _ := rfl
      rw [h.procurement_get] at hbefore
      have hafter := haffects.own
      rw [hbefore] at hafter
      rw [hid]
      exact (dossier_eq_some hafter).1
    obtain ⟨request', row, order', hm⟩ :=
      ProcurementService.markReceived_runs (by
        intro request heq
        rw [← Option.some.inj heq]
        exact hcur) hconsistent.fresh hmark
    rw [hid] at hm
    refine hD.affected (haffects.trans hm.affects) (fun _ hd => hd) fun d hd hstep => ?_
    have hafter := haffects.own
    rw [hd] at hafter
    obtain ⟨hrequest, horder, -⟩ := dossier_eq_some hafter
    obtain rfl := Option.some.inj (hm.request_get.symm.trans hrequest)
    have hallowed := hm.allowed
    have hfollows := hm.follows
    rw [← hm.status] at hallowed hfollows
    rw [← horder] at hfollows
    refine ⟨(hposted d hd hstep).moved hallowed hm.quantity hfollows,
      (hposted d hd hstep).complete_moved hallowed hm.quantity hfollows fun _ p hp => ?_⟩
    obtain rfl := Option.some.inj hp
    exact hfull
  · -- more is to come
    refine hD.affected haffects (fun _ hd => hd) fun d hd hstep => ⟨hposted d hd hstep, ?_⟩
    intro p hp
    obtain rfl := Option.some.inj hp
    refine ⟨fun heq => absurd heq hpart, fun hreceived => ?_⟩
    rw [hordered, show PurchaseOrder.status { purchaseOrder with
      version := purchaseOrder.version + 1
      receivedQuantity := purchaseOrder.receivedQuantity + command.quantityReceived
      actualLandedCost :=
        some (money (purchaseOrder.actualLandedCost.getD 0 +
          command.landedUnitCost.getD quote.unitCost * command.quantityReceived)) } = .shipped
        from h.shipped] at hreceived
    exact nomatch hreceived

end Received

end InventoryService

/-! ## Decisions -/

namespace ApprovalEngine

/-- The engine of the service approves purchases, and its other actions are about other things. -/
structure ApprovesPurchases (engine : ApprovalEngine) : Prop where
  /-- an approved purchase is handed to the procurement service -/
  purchase : engine.actionRegistry ApprovalActionType.supplierPurchase.value =
    some ProcurementService.approvePurchase
  /-- the other handlers keep the dossiers -/
  others : ∀ actionType handler, actionType ≠ ApprovalActionType.supplierPurchase.value →
    engine.actionRegistry actionType = some handler →
      ∀ approval, (handler approval).keeps SameDossiers

section Decide

variable {engine : ApprovalEngine} {D D' : Db} {i : Uuid} {actor reason : String} {now : Instant}

/-- Approvals are no records of a purchase. -/
theorem flushApproval_keeps (approval new : Approval) :
    (flush .approvals approval new).keeps SameDossiers := by
  have hconfined : (flush .approvals approval new).confined [.approvals] :=
    Tx.confined_flush _ _ (by decide)
  exact keeps_dossiers hconfined (by decide)

/-- Loading an approval under its lock writes nothing. -/
theorem getForUpdate_keeps (i : Uuid) : (getForUpdate i).keeps SameDossiers := by
  have hconfined : (getForUpdate i).confined [] :=
    writes_bind (writes_selectForUpdate _ _) fun _ => Tx.confined_orThrow (by decide)
  exact keeps_dossiers hconfined fun _ _ => List.not_mem_nil

/-- Checking that it is pending writes nothing either. -/
theorem requirePending_keeps (approval : Approval) :
    (requirePending approval).keeps SameDossiers := by
  have hconfined : (requirePending approval).confined [] := Tx.confined_require (by decide)
  exact keeps_dossiers hconfined fun _ _ => List.not_mem_nil

/-- The audit entry of a decision is not about a change of status. -/
theorem audit_keeps (approval : Approval) {action : String} (actor : String)
    (beforeStatus : Option String) (afterStatus : String)
    (haction : action ≠ "procurement.status_changed") :
    (audit approval action actor beforeStatus afterStatus).keeps SameDossiers :=
  addAudit_keepsDossiers haction

/-- An approval that expires keeps the dossiers. -/
theorem expire_keeps (approval : Approval) (now : Instant) (actor : String) :
    (expire approval now actor).keeps SameDossiers :=
  keeps_bind (flushApproval_keeps _ _) fun _ =>
    keeps_bind (audit_keeps _ _ _ _ (by decide)) fun _ => keeps_done _

/-- One that is rejected does too. -/
theorem reject_keeps (i : Uuid) (actor reason : String) (now : Instant) :
    (reject i actor reason now).keeps SameDossiers := by
  refine keeps_bind (getForUpdate_keeps i) fun approval =>
    keeps_bind (requirePending_keeps approval) fun _ => ?_
  split
  · exact keeps_bind (expire_keeps _ _ _) fun _ => keeps_done _
  · refine keeps_bind (flushApproval_keeps _ _) fun _ => ?_
    exact keeps_bind (audit_keeps _ _ _ _ (by decide)) fun _ => keeps_done _

/-- A sweep keeps them, by induction on the approvals that are due. -/
theorem expireDue_keeps (now : Instant) : (expireDue now).keeps SameDossiers := by
  have hall : ∀ approvals : List Approval, (expireAll now approvals).keeps SameDossiers := by
    intro approvals
    induction approvals with
    | nil => exact keeps_done _
    | cons approval approvals ih => exact keeps_bind (expire_keeps _ _ _) fun _ => ih
  refine keeps_bind ?_ fun approvals => keeps_bind (hall approvals) fun _ => keeps_done _
  intro D approvals D' h
  obtain ⟨-, rfl⟩ := runs_selectAllForUpdate.mp h
  exact Std.Refl.refl D

/-- After the handler, what is written is about the workflow and the approval. -/
theorem resumeAction_runs {approval resumed : Approval}
    (h : (engine.resumeAction approval now).runs D (.ok (resumed, D'))) :
    ∃ E, ((∃ handler u, engine.actionRegistry approval.actionType = some handler ∧
        (handler approval).runs D (.ok (u, E))) ∨ E = D) ∧ SameDossiers E D' := by
  unfold resumeAction at h
  extract_lets close finish at h
  have hclose : ∀ u, (close u).keeps SameDossiers := fun u => flushApproval_keeps _ _
  have hfinish : ∀ u, (finish u).keeps SameDossiers := by
    intro u
    simp only [finish]
    split
    · refine keeps_bind (keeps_query _) fun found => keeps_bind ?_ fun workflow => ?_
      · intro E w E' hthrow
        obtain ⟨-, rfl⟩ := Tx.runs_orThrow.mp hthrow
        exact Std.Refl.refl E
      · exact keeps_bind (ProcurementService.flushRun_keeps _ _) fun _ => hclose ()
    · exact hclose ()
  cases hhandler : engine.actionRegistry approval.actionType with
  | none =>
    rw [hhandler] at h
    exact ⟨D, Or.inr rfl, hfinish () _ _ _ h⟩
  | some handler =>
    rw [hhandler] at h
    obtain ⟨u, E, hrun, hrest⟩ := runs_bind_ok.mp h
    exact ⟨E, Or.inl ⟨handler, u, rfl, hrun⟩, hfinish u _ _ _ hrest⟩

/-- **An approval** changes no dossier, or approves one request. -/
theorem approve_runs {outcome : ApprovalOutcome} (hengine : engine.ApprovesPurchases)
    (hfresh : FreshStatuses D) (howned : ReceiptsOwned D)
    (h : (engine.approve i actor reason now).runs D (.ok (outcome, D'))) :
    SameDossiers D D' ∨ ∃ j, ProcurementService.Moves j .approved D D' := by
  obtain ⟨approval, D₁, hget, h₁⟩ := runs_bind_ok.mp h
  obtain ⟨_, D₂, hpending, h₂⟩ := runs_bind_ok.mp h₁
  have hsame₂ : SameDossiers D D₂ := IsTrans.trans _ _ _ (getForUpdate_keeps i _ _ _ hget)
    (requirePending_keeps approval _ _ _ hpending)
  split at h₂
  · have hexpired : (do
        let expired ← expire approval now "system"
        pure (.expired expired) : Tx ApprovalOutcome).keeps SameDossiers :=
      keeps_bind (expire_keeps _ _ _) fun _ => keeps_done _
    exact Or.inl (IsTrans.trans _ _ _ hsame₂ (hexpired _ _ _ h₂))
  · obtain ⟨approved, D₃, hflush, h₃⟩ := runs_bind_ok.mp h₂
    have hsame₃ : SameDossiers D D₃ :=
      IsTrans.trans _ _ _ hsame₂ (flushApproval_keeps _ _ _ _ _ hflush)
    obtain ⟨resumed, D₄, hresume, h₄⟩ := runs_bind_ok.mp h₃
    obtain ⟨_, D₅, haudit, h₅⟩ := runs_bind_ok.mp h₄
    cases h₅
    have haudited : SameDossiers D₄ D' := audit_keeps _ _ _ _ (by decide) _ _ _ haudit
    obtain ⟨E, hhandled, hfinished⟩ := resumeAction_runs hresume
    have hafter : SameDossiers E D' := IsTrans.trans _ _ _ hfinished haudited
    rcases hhandled with ⟨handler, u, hregistered, hrun⟩ | rfl
    · by_cases hpurchase : approved.actionType = ApprovalActionType.supplierPurchase.value
      · rw [hpurchase, hengine.purchase] at hregistered
        obtain rfl := Option.some.inj hregistered
        have hmoves := ProcurementService.approvePurchase_runs (hfresh.same hsame₃)
          ((Affects.of_same (i := i) hsame₃).owned howned) hrun
        exact Or.inr ⟨_, (ProcurementService.Moves.before hsame₃ hmoves).after hafter⟩
      · have hkept := hengine.others _ _ hpurchase hregistered _ _ _ _ hrun
        exact Or.inl (IsTrans.trans _ _ _ (IsTrans.trans _ _ _ hsame₃ hkept) hafter)
    · exact Or.inl (IsTrans.trans _ _ _ hsame₃ hafter)

end Decide

end ApprovalEngine

/-- The engine of the service: no other action touches the records of a purchase. -/
theorem getApprovalEngine_approvesPurchases (settings : ApprovalSettings) (expiryHours : Int) :
    (getApprovalEngine settings expiryHours).ApprovesPurchases := by
  refine ⟨rfl, fun actionType handler hpurchase hregistered approval => ?_⟩
  -- a flush of another table leaves the records of purchases alone
  have hflush : ∀ (i : TableName) (old new : i.Entity), i ∉ SameDossiers.tables →
      (flush i old new).keeps SameDossiers := by
    intro i old new hi
    have hconfined : (flush i old new).confined [i] :=
      Tx.confined_flush _ _ List.mem_cons_self
    exact keeps_dossiers hconfined fun j hj hmem => hi (List.mem_singleton.mp hmem ▸ hj)
  rcases approvalActions_cases hregistered with
    ⟨hcase, -⟩ | ⟨-, rfl⟩ | ⟨-, rfl⟩ | ⟨-, rfl⟩ | ⟨-, rfl⟩
  · exact absurd hcase hpurchase
  · -- a listing
    refine keeps_bind (keeps_require _ _ _) fun _ =>
      keeps_bind (keeps_selectForUpdate _) fun found => ?_
    refine keeps_bind (keeps_orThrow _ _ _) fun draft =>
      keeps_bind (keeps_require _ _ _) fun _ => ?_
    refine keeps_bind (keeps_require _ _ _) fun _ =>
      keeps_bind (hflush _ _ _ (by decide)) fun draft => ?_
    refine keeps_bind (keeps_query _) fun found =>
      keeps_bind (keeps_orThrow _ _ _) fun workflow => ?_
    refine keeps_bind (hflush _ _ _ (by decide)) fun workflow => ?_
    refine keeps_bind (emit_keepsDossiers rfl (OtherKey.of_head
      (rfl : _ = "listing-approved:" ++ draft.id.text) (by decide))) fun _ => ?_
    exact addAudit_keepsDossiers (by decide)
  · -- a price
    refine keeps_bind (keeps_require _ _ _) fun _ =>
      keeps_bind (keeps_selectForUpdate _) fun found => ?_
    refine keeps_bind (keeps_orThrow _ _ _) fun decision =>
      keeps_bind (keeps_require _ _ _) fun _ => ?_
    refine keeps_bind (keeps_require _ _ _) fun _ => keeps_bind (keeps_answer _) fun now => ?_
    exact keeps_bind (hflush _ _ _ (by decide)) fun _ => keeps_done _
  · -- a response
    refine keeps_bind (keeps_require _ _ _) fun _ =>
      keeps_bind (keeps_selectForUpdate _) fun found => ?_
    refine keeps_bind (keeps_orThrow _ _ _) fun message =>
      keeps_bind (keeps_require _ _ _) fun _ => ?_
    refine keeps_bind (keeps_require _ _ _) fun _ => keeps_bind (keeps_answer _) fun now => ?_
    refine keeps_bind (keeps_query _) fun found =>
      keeps_bind (keeps_orThrow _ _ _) fun conversation => ?_
    refine keeps_bind (hflush _ _ _ (by decide)) fun _ => ?_
    exact keeps_bind (hflush _ _ _ (by decide)) fun _ => keeps_done _
  · -- a refund
    have hdecimal : ∀ value, (RefundService.toDecimal value).keeps SameDossiers := by
      intro value
      unfold RefundService.toDecimal
      split
      · exact keeps_done _
      · exact keeps_done _
      · exact keeps_raise _
      · exact keeps_raise _
    refine keeps_bind (keeps_query _) fun found => keeps_bind (keeps_orThrow _ _ _) fun refund => ?_
    refine keeps_bind (keeps_require _ _ _) fun _ => keeps_bind (keeps_require _ _ _) fun _ => ?_
    refine keeps_bind (hdecimal _) fun amount => keeps_bind (keeps_require _ _ _) fun _ => ?_
    refine keeps_bind (hflush _ _ _ (by decide)) fun _ => ?_
    exact addAudit_keepsDossiers (by decide)

/-! ## Runs -/

/-- A call of the procurement service, the approval engine or the inventory service. -/
inductive ProcurementCall where
  | submitForApproval (procurementId : Uuid) (requester reason : String)
  | approve (approvalId : Uuid) (approver reason : String) (now : Instant)
  | reject (approvalId : Uuid) (approver reason : String) (now : Instant)
  | expireDue (now : Instant)
  | markOrdered (procurementId : Uuid) (actor reason : String)
      (externalReference : Option String) (now : Instant)
  | markShipped (procurementId : Uuid) (actor reason : String)
      (expectedArrivalAt : Option Instant) (now : Instant)
  | cancel (procurementId : Uuid) (actor reason : String)
  | receive (purchaseOrderId : Uuid) (command : Receipt)

namespace ProcurementCall

/-- The call as a transaction; what it returns is dropped. -/
def run [Digests] (engine : ApprovalEngine) : ProcurementCall → Tx Unit
  | submitForApproval procurementId requester reason => do
    let _ ← ProcurementService.submitForApproval engine procurementId requester reason
  | approve approvalId approver reason now => do
    let _ ← engine.approve approvalId approver reason now
  | reject approvalId approver reason now => do
    let _ ← ApprovalEngine.reject approvalId approver reason now
  | expireDue now => do
    let _ ← ApprovalEngine.expireDue now
  | markOrdered procurementId actor reason externalReference now => do
    let _ ← ProcurementService.markOrdered procurementId actor reason externalReference now
  | markShipped procurementId actor reason expectedArrivalAt now => do
    let _ ← ProcurementService.markShipped procurementId actor reason expectedArrivalAt now
  | cancel procurementId actor reason => do
    let _ ← ProcurementService.cancel procurementId actor reason
  | receive purchaseOrderId command => do
    let _ ← InventoryService.receive purchaseOrderId command

/-- A landed cost has four decimals, as the schema of the request demands. -/
def Valid : ProcurementCall → Prop
  | receive _ command => ∀ unitCost, command.landedUnitCost = some unitCost → IsMoney unitCost
  | _ => True

/-- **One call** keeps the records in step. -/
theorem run_inStep [Digests] {engine : ApprovalEngine} (hengine : engine.ApprovesPurchases)
    {c : ProcurementCall} {D D' : Db} {u : Unit} (hD : D.Dossiers Dossier.InStep) (hc : c.Valid)
    (h : (c.run engine).runs D (.ok (u, D'))) : D'.Dossiers Dossier.InStep := by
  have hfresh : FreshStatuses D := (hD.mono fun _ hd => hd.consistent).fresh
  cases c with
  | submitForApproval =>
    obtain ⟨_, _, hrun, hend⟩ := runs_bind_ok.mp h
    cases hend
    exact hD.moves (ProcurementService.submitForApproval_runs hfresh hrun) (by decide)
  | approve =>
    obtain ⟨_, _, hrun, hend⟩ := runs_bind_ok.mp h
    cases hend
    rcases ApprovalEngine.approve_runs hengine hfresh hD.owned hrun with hsame | ⟨j, hmoves⟩
    · exact hD.same hsame
    · exact hD.moves hmoves (by decide)
  | reject =>
    obtain ⟨_, _, hrun, hend⟩ := runs_bind_ok.mp h
    cases hend
    exact hD.same (ApprovalEngine.reject_keeps _ _ _ _ _ _ _ hrun)
  | expireDue =>
    obtain ⟨_, _, hrun, hend⟩ := runs_bind_ok.mp h
    cases hend
    exact hD.same (ApprovalEngine.expireDue_keeps _ _ _ _ hrun)
  | markOrdered =>
    obtain ⟨_, _, hrun, hend⟩ := runs_bind_ok.mp h
    cases hend
    exact hD.moves (ProcurementService.markOrdered_runs hfresh hrun) (by decide)
  | markShipped =>
    obtain ⟨_, _, hrun, hend⟩ := runs_bind_ok.mp h
    cases hend
    exact hD.moves (ProcurementService.markShipped_runs hfresh hrun) (by decide)
  | cancel =>
    obtain ⟨_, _, hrun, hend⟩ := runs_bind_ok.mp h
    cases hend
    exact hD.moves (ProcurementService.cancel_runs hfresh hrun) (by decide)
  | receive =>
    obtain ⟨_, _, hrun, hend⟩ := runs_bind_ok.mp h
    cases hend
    rcases InventoryService.receive_runs hrun with
      ⟨-, -, -, -, -, rfl⟩ | ⟨-, _, _, _, _, _, _, _, _, _, hreceived, -⟩
    · exact hD
    · exact hreceived.inStep hD hc

end ProcurementCall

/-! ## Lockstep -/

/-- What keeping in step comes to. -/
structure Dossier.Lockstep (d : Dossier) : Prop where
  /-- the purchase order is APPROVED, SUBMITTED, SHIPPED or RECEIVED just when the request is
      APPROVED, ORDERED, SHIPPED or RECEIVED -/
  status : ∀ s ∈ [ProcurementStatus.approved, .ordered, .shipped, .received],
    d.order.map (·.status) = s.orderStatus ↔ d.request.status = s
  /-- a cancelled request has no open order -/
  cancelled : d.request.status = .cancelled → ∀ p, d.order = some p → p.status = .cancelled
  /-- the order has received what its receipts came to, and is RECEIVED just when that is all -/
  received : ∀ p, d.order = some p → p.receivedQuantity = receivedTotal d.receipts ∧
    p.receivedQuantity ≤ p.quantity ∧ (p.receivedQuantity = p.quantity ↔ p.status = .received)
  /-- its landed cost is what they cost -/
  landed : ∀ p, d.order = some p → p.actualLandedCost.getD 0 = landedTotal d.receipts
  /-- the audit entries and the events spell the path to the current status -/
  path : ∃ steps, Path steps d.request.status ∧ (steps.map Prod.snd).Nodup ∧
    d.audits = steps.map (fun st => Dossier.auditOf st.1 st.2) ∧
      d.events = steps.map fun st => (st.1.value, st.2.value)

/-- The invariant says all of this. -/
theorem Dossier.InStep.lockstep {d : Dossier} (h : d.InStep) : d.Lockstep := by
  obtain ⟨steps, hspells⟩ := h.consistent.spells
  refine ⟨fun s hs => ?_, fun hcancelled p hp => ?_, fun p hp => ?_,
    fun p hp => (h.consistent.order p hp).landed,
    ⟨steps, hspells.path, hspells.path.nodup, hspells.audits, hspells.events⟩⟩
  · have hinj : ∀ t : ProcurementStatus, t.orderStatus = s.orderStatus → t = s := by
      revert hs
      cases s <;> intro hs t <;> cases t <;> revert hs <;> decide
    cases horder : d.order with
    | none =>
      have hmissing := (h.consistent.missing horder).1
      revert hmissing hs
      cases s <;> cases d.request.status <;> decide
    | some p =>
      have hstatus := (h.consistent.order p horder).status
      refine ⟨fun heq => hinj _ (hstatus.trans heq), fun heq => ?_⟩
      rw [← heq, hstatus]
      rfl
  · have hstatus := (h.consistent.order p hp).status
    rw [hcancelled] at hstatus
    exact (Option.some.inj hstatus).symm
  · have hstep := h.consistent.order p hp
    exact ⟨hstep.received, hstep.received_le, h.complete p hp⟩

/-- A request as it is proposed: nothing has become of it yet. -/
structure Dossier.Proposed (d : Dossier) : Prop where
  /-- the status is the first one -/
  status : d.request.status = .proposed
  /-- at least one unit is requested -/
  requested_pos : 0 < d.request.requestedQuantity
  /-- nothing is ordered -/
  order : d.order = none
  /-- no change is in the trail -/
  audits : d.audits = []
  /-- nor in the outbox -/
  events : d.events = []
  /-- and no status has an event -/
  stamped : ∀ t, d.stamped t = false

/-- A request that is only proposed is in step: its path is empty. -/
theorem Dossier.Proposed.inStep {d : Dossier} (h : d.Proposed) (hreceipts : d.receipts = []) :
    d.InStep := by
  refine ⟨⟨⟨[], ?_, h.audits, h.events, fun t => ?_⟩, h.requested_pos, fun _ => ⟨?_, hreceipts⟩,
    fun p hp => ?_⟩, fun p hp => ?_⟩
  · rw [h.status]
    exact .proposed
  · rw [h.stamped t]
    simp
  · rw [h.status]
    rfl
  · rw [h.order] at hp
    exact nomatch hp
  · rw [h.order] at hp
    exact nomatch hp

section Histories

variable [Digests] {settings : ApprovalSettings} {expiryHours : Int} {D₀ D : Db}

/-- **Lockstep.**  From requests that have only been proposed, calls of the procurement service,
    decisions on approvals and receipts, in any order, keep every request, its purchase order, its
    receipts and its records in step. -/
theorem procurement_in_lockstep (h₀ : D₀.Dossiers Dossier.Proposed)
    (h : History (ProcurementCall.run (getApprovalEngine settings expiryHours))
      (fun c _ => c.Valid) D₀ D) {i : Uuid} {d : Dossier} (hd : D.dossier i = some d) :
    d.Lockstep := by
  have hstart : D₀.Dossiers Dossier.InStep := by
    refine ⟨fun j d hd => ?_, h₀.owned, h₀.quotes⟩
    have hproposed := h₀.dossiers j d hd
    refine hproposed.inStep ?_
    obtain ⟨-, -, hreceipts, -⟩ := dossier_eq_some hd
    rw [hreceipts, hproposed.order]
    simp [receiptsOf]
  have hinv : D.Dossiers Dossier.InStep := by
    refine h.inv hstart ?_
    intro c D u D' hD hc hrun
    exact c.run_inStep (getApprovalEngine_approvesPurchases settings expiryHours) hD hc hrun
  exact (hinv.dossiers i d hd).lockstep

end Histories

/-! ### A request from its proposal to its last delivery -/

/-- A request for ten units is proposed, and nothing has become of it. -/
def proposedDb : Db where
  table
    | .supplierQuotes => .singleton
        { id := Uuid.ofNat 1, version := 1, productId := Uuid.ofNat 2, supplierId := Uuid.ofNat 3
          externalQuoteId := "Q-1", currency := "GBP", moq := 1, unitCost := 4, shippingCost := 0 }
    | .procurementRequests => .singleton
        { id := Uuid.ofNat 4, version := 1, productId := Uuid.ofNat 2
          selectedQuoteId := Uuid.ofNat 1, workflowRunId := some (Uuid.ofNat 5)
          requestedQuantity := 10, recommendedSellingPrice := none, createdAt := 0
          expectedArrivalAt := none, status := .proposed }
    | .workflowRuns => .singleton
        { id := Uuid.ofNat 5, version := 1, createdAt := 0, workflowName := "procurement"
          workflowVersion := 1, correlationId := Uuid.ofNat 7, sourceEventId := none
          idempotencyKey := none, status := .running, currentStep := none, attempts := 0
          nextRetryAt := none, error := none, checkpoints := .object [], maxAttempts := 3
          timeoutSeconds := 300, startedAt := none, deadlineAt := none, completedAt := none
          waitingApprovalId := none, costAmount := 0, costCurrency := none }
    | _ => ∅

/-- Some units of the purchase order arrive. -/
def sampleArrival (quantity : Int) (key : String) : ProcurementCall :=
  .receive (Uuid.ofNat 2005)
    { sku := "A", storageLocation := "main", quantityReceived := quantity
      landedUnitCost := some 5, lowStockThreshold := 2, actor := "system", reason := "receipt"
      idempotencyKey := key, receivedAt := none }

/-- The request is submitted, approved, ordered and shipped, and comes in two deliveries. -/
def purchaseCalls : List ProcurementCall :=
  [.submitForApproval (Uuid.ofNat 4) "ann" "restock", .approve (Uuid.ofNat 1004) "bob" "fine" 5,
    .markOrdered (Uuid.ofNat 4) "ann" "ordered" none 6,
    .markShipped (Uuid.ofNat 4) "ann" "shipped" (some 20) 7, sampleArrival 4 "first",
    sampleArrival 6 "second"]

/-- The state after the first `n` of them. -/
def purchaseRun (n : Nat) : Db :=
  afterCalls (@ProcurementCall.run Digests.byEnding (getApprovalEngine ⟨10, 100⟩ 72))
    Environment.numbered 0 (purchaseCalls.take n) proposedDb

/-- In that state nothing has become of the request. -/
theorem proposedDb_dossiers : proposedDb.Dossiers Dossier.Proposed := by
  refine ⟨fun i d hd => ?_, fun m hm => absurd hm (Table.not_mem_empty m), fun q hq => ?_⟩
  · obtain ⟨hrequest, horder, -, haudits, hevents, hstamped⟩ := dossier_eq_some hd
    have hrow := List.mem_singleton.mp (Table.mem_of_get hrequest)
    exact ⟨by rw [hrow], by rw [hrow]; decide, horder, haudits, hevents,
      fun t => by rw [hstamped]; rfl⟩
  · rw [List.mem_singleton.mp hq]
    exact ⟨40000, by norm_num⟩

/-- At the end the request and the order are RECEIVED. -/
theorem procurement_in_lockstep_sample :
    ∃ d, (purchaseRun 6).dossier (Uuid.ofNat 4) = some d ∧ d.request.status = .received ∧
      d.events.length = 5 ∧ d.receipts.length = 2 ∧ d.Lockstep := by
  have hstatus : ((purchaseRun 6).dossier (Uuid.ofNat 4)).any (fun d =>
      d.request.status = .received ∧ d.events.length = 5 ∧ d.receipts.length = 2) = true := by
    decide +kernel
  obtain ⟨d, hd, hrest⟩ := (Option.any_eq_true _ _).mp hstatus
  obtain ⟨hreceived, hevents, hreceipts⟩ : d.request.status = .received ∧ d.events.length = 5 ∧
      d.receipts.length = 2 := by simpa using hrest
  have hmoney : ∀ unitCost, (some 5 : Option Rat) = some unitCost → IsMoney unitCost := by
    intro unitCost heq
    rw [← Option.some.inj heq]
    exact ⟨50000, by norm_num⟩
  have hhistory : History
      (@ProcurementCall.run Digests.byEnding (getApprovalEngine ⟨10, 100⟩ 72))
      (fun c _ => c.Valid) proposedDb (purchaseRun 6) :=
    (((((History.start.afterCall (Environment.numbered 0) trivial).afterCall
      (Environment.numbered 1) trivial).afterCall (Environment.numbered 2) trivial).afterCall
        (Environment.numbered 3) trivial).afterCall (Environment.numbered 4) hmoney).afterCall
          (Environment.numbered 5) hmoney
  exact ⟨d, hd, hreceived, hevents, hreceipts,
    @procurement_in_lockstep Digests.byEnding _ _ _ _ proposedDb_dossiers hhistory _ _ hd⟩

end CommerceOperations
