/-
  What the procurement service does.

  A change of status is the same everywhere: the row, an audit entry and an event.  Each call of the
  service makes one such change, and writes the purchase order with it.  Here each is described by
  what it does to the dossier of its request (`Affects`).

  `Moves i target` is the common conclusion: request `i` takes the status `target`, its purchase
  order follows as `OrderFollows` says, and no other dossier changes.  The calls differ in the order
  of their statements only.  Some write the purchase order before the status and some after it.
-/
import CommerceOperations.Application.Dossiers

namespace CommerceOperations

open Relational Prog

namespace ProcurementService

/-! ## Reading -/

section Read

variable {D D' : Db} {i : Uuid}

/-- The request is on record.  If the caller had loaded it, it is the caller's object that is
    returned. -/
theorem getForUpdate_runs {loaded : Option ProcurementRequest} {request : ProcurementRequest}
    (h : (getForUpdate loaded i).runs D (.ok (request, D'))) :
    ∃ stored, D.procurementRequests.get i = some stored ∧ request = loaded.getD stored ∧
      D = D' := by
  obtain ⟨found, D₁, hselect, h₁⟩ := runs_bind_ok.mp h
  obtain ⟨hfound, rfl⟩ := runs_selectForUpdate.mp hselect
  obtain ⟨stored, D₂, hthrow, h₂⟩ := runs_bind_ok.mp h₁
  obtain ⟨hstored, rfl⟩ := Tx.runs_orThrow.mp hthrow
  cases h₂
  exact ⟨stored, hfound.symm.trans hstored, rfl, rfl⟩

/-- Loading the run writes nothing. -/
theorem workflow_runs {request : ProcurementRequest} {run : WorkflowRun}
    (h : (workflow request).runs D (.ok (run, D'))) : D = D' := by
  obtain ⟨found, D₁, hselect, hthrow⟩ := runs_bind_ok.mp h
  obtain ⟨-, rfl⟩ := Tx.runs_select.mp hselect
  obtain ⟨-, rfl⟩ := Tx.runs_orThrow.mp hthrow
  rfl

/-- The purchase order that is found is the one of the request. -/
theorem purchaseOrder_runs {order : PurchaseOrder}
    (h : (purchaseOrder i).runs D (.ok (order, D'))) :
    orderOf D.purchaseOrders i = some order ∧ D = D' := by
  obtain ⟨found, D₁, hselect, hthrow⟩ := runs_bind_ok.mp h
  obtain ⟨hfound, rfl⟩ := Tx.runs_select.mp hselect
  obtain ⟨horder, rfl⟩ := Tx.runs_orThrow.mp hthrow
  exact ⟨hfound.symm.trans horder, rfl⟩

end Read

/-! ## Writing -/

section Write

variable {D D' : Db} {request row : ProcurementRequest} {target : ProcurementStatus}
variable {actor reason : String}

/-- The statuses a request goes through are different. -/
theorem ne_of_allowed {s t : ProcurementStatus} (h : t ∈ s.allowedTransitions) : t ≠ s := by
  rintro rfl
  revert h
  cases t <;> decide

/-- **A change of status** is the row, one audit entry and, if its key is fresh, one event. -/
theorem applyTransition_runs (hcur : D.procurementRequests.get request.id = some request)
    (hfresh : FreshStatuses D)
    (h : (applyTransition request target actor reason).runs D (.ok (row, D'))) :
    target ∈ request.status.allowedTransitions ∧
      row = { request with version := request.version + 1, status := target } ∧
        D'.procurementRequests.get request.id = some row ∧
          D'.purchaseOrders = D.purchaseOrders ∧ D'.inventoryMovements = D.inventoryMovements ∧
            Affects request.id (·.entered row) D D' := by
  obtain ⟨_, D₁, hcheck, h₁⟩ := runs_bind_ok.mp h
  obtain ⟨hallowed, rfl⟩ := Tx.runs_require.mp hcheck
  obtain ⟨changed, D₂, hflush, h₂⟩ := runs_bind_ok.mp h₁
  have hne : { request with status := target } ≠ request := fun heq =>
    ne_of_allowed hallowed (congrArg ProcurementRequest.status heq)
  obtain ⟨hrow, hs, hc, rfl⟩ := runs_flush_of_ne (by rfl) (by rfl) hcur hne hflush
  obtain ⟨run, D₃, hworkflow, h₃⟩ := runs_bind_ok.mp h₂
  obtain rfl := workflow_runs hworkflow
  obtain ⟨_, D₄, haudit, h₄⟩ := runs_bind_ok.mp h₃
  obtain ⟨entry, haction, -, hresource, hbefore, hafter, hentry, rfl⟩ := addAudit_runs haudit
  obtain ⟨e, D₅, hemit, h₅⟩ := runs_bind_ok.mp h₄
  cases h₅
  have hrow' : row = { request with version := request.version + 1, status := target } := hrow
  have hid : row.id = request.id := by rw [hrow']
  obtain ⟨-, hkey, hpayload, ⟨hmem, -⟩ | ⟨⟨id, now, he⟩, -, hevent, rfl⟩⟩ :=
    DatabaseEventStore.emit_runs hemit
  · -- the key of the status is not in use
    have hfresh' := List.any_eq_false.mp (hfresh _ _ hcur target hallowed) e hmem
    rw [hkey, hid] at hfresh'
    exact absurd (decide_eq_true (rfl : _ = statusKey request.id target)) hfresh'
  refine ⟨hallowed, hrow', ?_, rfl, rfl, ?_⟩
  · exact (Table.get_update hs hc request.id).trans (if_pos hid)
  have hget : D.procurementRequests.get row.id = some request := by
    rw [hid]
    exact hcur
  -- each of the three writes affects the dossier of this request only; together they enter the
  -- status
  have hwritten := Affects.updateRequest hget hs hc
  have haudited := Affects.insertAudit hentry haction
  have hchange : e.payload.statusChange = some (request.status.value, target.value) := by
    rw [hpayload]
    rfl
  have haggregate : e.aggregateId = row.id := by rw [he]; rfl
  have hpublished := Affects.insertEvent hevent hchange (by rw [hkey, haggregate]; rfl)
  rw [haggregate] at hpublished
  rw [hresource] at haudited
  rw [← hid]
  refine ((hwritten.trans haudited).trans hpublished).congr fun d hd => ?_
  have hrequest : d.request = request :=
    Option.some.inj ((dossier_eq_some hd).1.symm.trans hget)
  simp [Dossier.entered, Dossier.withRequest, Dossier.auditOf, hrequest, hrow', hbefore, hafter]

/-- A purchase order that is current is written back with the columns it was given. -/
theorem flushOrder_runs {order new row : PurchaseOrder} (hmem : order ∈ D.purchaseOrders)
    (hid : new.id = order.id) (hrequest : new.procurementRequestId = order.procurementRequestId)
    (h : (flush .purchaseOrders order new).runs D (.ok (row, D'))) :
    (∃ v, row = { new with version := v }) ∧
      Affects order.procurementRequestId (·.withOrder row) D D' := by
  have hcur : D.purchaseOrders.get order.id = some order := Table.get_of_mem hmem
  rcases runs_flush (by exact hid) (by rfl) hcur h with ⟨rfl, rfl, rfl⟩ | ⟨-, hrow, hs, hc, rfl⟩
  · refine ⟨⟨_, rfl⟩, Affects.of_eq fun d hd => ?_⟩
    obtain ⟨-, horder, -⟩ := dossier_eq_some hd
    rw [orderOf_of_mem hmem rfl] at horder
    simp [Dossier.withOrder, ← horder]
  · have hrow' : row = { new with version := order.version + 1 } := hrow
    refine ⟨⟨_, hrow'⟩, Affects.updateOrder ?_ hs hc ?_⟩
    · rw [hrow']
      show D.purchaseOrders.get new.id = some order
      rw [hid]
      exact hcur
    · rw [hrow']
      exact hrequest

/-- The run of a request is no part of its dossier. -/
theorem flushRun_keeps (run new : WorkflowRun) :
    (flush .workflowRuns run new).keeps SameDossiers := by
  have hconfined : (flush .workflowRuns run new).confined [.workflowRuns] :=
    Tx.confined_flush _ _ (by decide)
  exact keeps_dossiers hconfined (by decide)

end Write

/-! ## What becomes of the purchase order -/

/-- The purchase order takes a status; its quantities and its cost stay. -/
structure Restated (order order' : PurchaseOrder) (status : PurchaseOrderStatus) : Prop where
  /-- as many units are ordered -/
  quantity : order'.quantity = order.quantity
  /-- as many have come -/
  receivedQuantity : order'.receivedQuantity = order.receivedQuantity
  /-- at the same cost -/
  actualLandedCost : order'.actualLandedCost = order.actualLandedCost
  /-- and the status is the new one -/
  status : order'.status = status

/-- A purchase order as it is placed for a request. -/
structure Placed (request : ProcurementRequest) (order : PurchaseOrder) : Prop where
  /-- for the units requested -/
  quantity : order.quantity = request.requestedQuantity
  /-- none of which has come -/
  receivedQuantity : order.receivedQuantity = 0
  /-- or cost anything -/
  actualLandedCost : order.actualLandedCost = none
  /-- approved with the request -/
  status : order.status = .approved

/-- There is a purchase order, and it takes a status. -/
def Follows (status : PurchaseOrderStatus) (order order' : Option PurchaseOrder) : Prop :=
  ∃ p p', order = some p ∧ order' = some p' ∧ Restated p p' status

/-- The purchase order when the request takes the status `target`. -/
def OrderFollows (request : ProcurementRequest) (target : ProcurementStatus)
    (order order' : Option PurchaseOrder) : Prop :=
  match target with
  | .proposed => False
  | .awaitingApproval => order' = order
  | .approved =>
    (order' = order ∧ order ≠ none) ∨ (order = none ∧ ∃ p, order' = some p ∧ Placed request p)
  | .ordered => Follows .submitted order order'
  | .shipped => Follows .shipped order order'
  | .received => Follows .received order order'
  | .cancelled => (order = none ∧ order' = none) ∨ Follows .cancelled order order'

/-- Request `i` takes the status `target`, and its purchase order follows. -/
structure Moved (i : Uuid) (target : ProcurementStatus) (request row : ProcurementRequest)
    (order' : Option PurchaseOrder) (D D' : Db) : Prop where
  /-- the request is on record -/
  request_get : D.procurementRequests.get i = some request
  /-- it may take the status -/
  allowed : target ∈ request.status.allowedTransitions
  /-- and takes it -/
  status : row.status = target
  /-- its quantity stays -/
  quantity : row.requestedQuantity = request.requestedQuantity
  /-- the purchase order follows -/
  follows : OrderFollows request target (orderOf D.purchaseOrders i) order'
  /-- and no other dossier changes -/
  affects : Affects i (fun d => { d.entered row with order := order' }) D D'

/-- Request `i` takes the status `target`, with some purchase order that follows. -/
def Moves (i : Uuid) (target : ProcurementStatus) (D D' : Db) : Prop :=
  ∃ request row order', Moved i target request row order' D D'

theorem Moves.after {i : Uuid} {target : ProcurementStatus} {D D' D'' : Db}
    (h : Moves i target D D') (h' : SameDossiers D' D'') : Moves i target D D'' := by
  obtain ⟨request, row, order', hm⟩ := h
  exact ⟨request, row, order', hm.request_get, hm.allowed, hm.status, hm.quantity, hm.follows,
    hm.affects.after h'⟩

theorem Moves.before {i : Uuid} {target : ProcurementStatus} {D D' D'' : Db}
    (h : SameDossiers D D') (h' : Moves i target D' D'') : Moves i target D D'' := by
  obtain ⟨request, row, order', hm⟩ := h'
  refine ⟨request, row, order', ?_, hm.allowed, hm.status, hm.quantity, ?_, hm.affects.before h⟩
  · rw [← h.requests]
    exact hm.request_get
  · rw [← h.orders]
    exact hm.follows

/-- The request has taken the status `target`; its purchase order has not followed yet. -/
structure Entered (target : ProcurementStatus) (request row : ProcurementRequest) (D D' : Db) :
    Prop where
  request_get : D.procurementRequests.get request.id = some request
  allowed : target ∈ request.status.allowedTransitions
  status : row.status = target
  quantity : row.requestedQuantity = request.requestedQuantity
  orders : D'.purchaseOrders = D.purchaseOrders
  affects : Affects request.id (·.entered row) D D'

section Orders

variable {D D₁ D' : Db} {request row : ProcurementRequest} {target : ProcurementStatus}

/-- The transition, as it is used by the calls. -/
theorem enter_runs {actor reason : String}
    (hcur : D.procurementRequests.get request.id = some request) (hfresh : FreshStatuses D)
    (h : (applyTransition request target actor reason).runs D (.ok (row, D'))) :
    Entered target request row D D' ∧ row.id = request.id ∧
      D'.procurementRequests.get request.id = some row := by
  obtain ⟨hallowed, hrow, hget, horders, -, hentered⟩ := applyTransition_runs hcur hfresh h
  exact ⟨⟨hcur, hallowed, by rw [hrow], by rw [hrow], horders, hentered⟩, by rw [hrow], hget⟩

/-- The purchase order is left alone, where the status asks for that. -/
theorem Entered.kept (h : Entered target request row D D')
    (hfollows : OrderFollows request target (orderOf D.purchaseOrders request.id)
      (orderOf D.purchaseOrders request.id)) : Moves request.id target D D' := by
  refine ⟨request, row, _, h.request_get, h.allowed, h.status, h.quantity, hfollows,
    h.affects.congr fun d hd => ?_⟩
  rw [← (dossier_eq_some hd).2.1]
  rfl

/-- The purchase order is written after the status. -/
theorem Entered.written {order' : PurchaseOrder} (h : Entered target request row D D₁)
    (hwritten : Affects request.id (·.withOrder order') D₁ D')
    (hfollows : OrderFollows request target (orderOf D.purchaseOrders request.id) (some order')) :
    Moves request.id target D D' :=
  ⟨request, row, some order', h.request_get, h.allowed, h.status, h.quantity, hfollows,
    h.affects.trans hwritten⟩

/-- The purchase order takes a status of its own. -/
theorem Entered.restated {order new o : PurchaseOrder} (status : PurchaseOrderStatus)
    (h : Entered target request row D D₁)
    (hflush : (flush .purchaseOrders order new).runs D₁ (.ok (o, D')))
    (horder : orderOf D.purchaseOrders request.id = some order) (hid : new.id = order.id)
    (hrequest : new.procurementRequestId = order.procurementRequestId)
    (hnew : ∀ v, Restated order { new with version := v } status)
    (hfollows : Follows status (some order) (some o) →
      OrderFollows request target (some order) (some o)) : Moves request.id target D D' := by
  obtain ⟨hmem, hown⟩ := orderOf_mem horder
  obtain ⟨⟨v, ho⟩, hwritten⟩ := flushOrder_runs (by rw [h.orders]; exact hmem) hid hrequest hflush
  rw [hown] at hwritten
  refine h.written hwritten ?_
  rw [horder]
  exact hfollows ⟨order, o, rfl, rfl, by rw [ho]; exact hnew v⟩

end Orders

/-! ## The calls -/

section Calls

variable {D D' : Db} {i : Uuid} {actor reason : String} {now : Instant}

/-- Ordering submits the purchase order. -/
theorem markOrdered_runs {externalReference : Option String} {result : ProcurementRequest}
    (hfresh : FreshStatuses D)
    (h : (markOrdered i actor reason externalReference now).runs D (.ok (result, D'))) :
    Moves i .ordered D D' := by
  obtain ⟨request, D₁, hget, h₁⟩ := runs_bind_ok.mp h
  obtain ⟨stored, hstored, rfl, rfl⟩ := getForUpdate_runs hget
  obtain rfl : request.id = i := Table.key_of_get hstored
  obtain ⟨order, D₂, hfind, h₂⟩ := runs_bind_ok.mp h₁
  obtain ⟨horder, rfl⟩ := purchaseOrder_runs hfind
  obtain ⟨row, D₃, htransition, h₃⟩ := runs_bind_ok.mp h₂
  obtain ⟨hentered, -, -⟩ := enter_runs hstored hfresh htransition
  obtain ⟨o, D₄, hflush, h₄⟩ := runs_bind_ok.mp h₃
  cases h₄
  exact hentered.restated .submitted hflush horder rfl rfl (fun _ => ⟨rfl, rfl, rfl, rfl⟩) id

/-- Shipping marks it as shipped; an expected arrival may be written to the request first. -/
theorem markShipped_runs {expectedArrivalAt : Option Instant} {result : ProcurementRequest}
    (hfresh : FreshStatuses D)
    (h : (markShipped i actor reason expectedArrivalAt now).runs D (.ok (result, D'))) :
    Moves i .shipped D D' := by
  obtain ⟨request, D₁, hget, h₁⟩ := runs_bind_ok.mp h
  obtain ⟨stored, hstored, rfl, rfl⟩ := getForUpdate_runs hget
  obtain rfl : request.id = i := Table.key_of_get hstored
  obtain ⟨order, D₂, hfind, h₂⟩ := runs_bind_ok.mp h₁
  obtain ⟨horder, rfl⟩ := purchaseOrder_runs hfind
  obtain ⟨row, D₃, htransition, h₃⟩ := runs_bind_ok.mp h₂
  obtain ⟨hentered, hid, hrow⟩ := enter_runs hstored hfresh htransition
  cases expectedArrivalAt with
  | none =>
    obtain ⟨o, D₄, hflush, h₄⟩ := runs_bind_ok.mp h₃
    cases h₄
    exact hentered.restated .shipped hflush horder rfl rfl (fun _ => ⟨rfl, rfl, rfl, rfl⟩) id
  | some arrival =>
    obtain ⟨row', D₄, hflush, h₄⟩ := runs_bind_ok.mp h₃
    obtain ⟨o, D₅, hflush', h₅⟩ := runs_bind_ok.mp h₄
    cases h₅
    rw [← hid] at hrow
    -- the request is written once more, with the expected arrival
    have hentered' : Entered .shipped request result D D₄ := by
      rcases runs_flush (by rfl) (by rfl) hrow hflush with
        ⟨-, rfl, rfl⟩ | ⟨-, hresult, hs, hc, rfl⟩
      · exact hentered
      · have hresult' : result =
            { row with expectedArrivalAt := some arrival, version := row.version + 1 } := hresult
        have hsame : result.id = request.id := by rw [hresult', ← hid]
        have hwritten := Affects.updateRequest (by rw [hsame, ← hid]; exact hrow) hs hc
        rw [hsame] at hwritten
        refine ⟨hentered.request_get, hentered.allowed, ?_, ?_, hentered.orders,
          (hentered.affects.trans hwritten).congr fun d _ => ?_⟩
        · rw [hresult']
          exact hentered.status
        · rw [hresult']
          exact hentered.quantity
        · simp [Dossier.entered, Dossier.withRequest, hresult']
    exact hentered'.restated .shipped hflush' horder rfl rfl (fun _ => ⟨rfl, rfl, rfl, rfl⟩) id

/-- Closing a request marks it as received.  A caller that has loaded the request hands over what is
    stored. -/
theorem markReceived_runs {loaded : Option ProcurementRequest} {result : ProcurementRequest}
    (hloaded : ∀ request, loaded = some request → D.procurementRequests.get i = some request)
    (hfresh : FreshStatuses D)
    (h : (markReceived loaded i actor reason now).runs D (.ok (result, D'))) :
    Moves i .received D D' := by
  obtain ⟨request, D₁, hget, h₁⟩ := runs_bind_ok.mp h
  obtain ⟨stored, hstored, hrequest, rfl⟩ := getForUpdate_runs hget
  have hcur : D.procurementRequests.get i = some request := by
    cases hcase : loaded with
    | none => rw [hrequest, hcase, hstored]; rfl
    | some other => rw [hrequest, hcase, hloaded other hcase]; rfl
  obtain rfl : request.id = i := Table.key_of_get hcur
  obtain ⟨order, D₂, hfind, h₂⟩ := runs_bind_ok.mp h₁
  obtain ⟨horder, rfl⟩ := purchaseOrder_runs hfind
  obtain ⟨row, D₃, htransition, h₃⟩ := runs_bind_ok.mp h₂
  obtain ⟨hentered, -, -⟩ := enter_runs hcur hfresh htransition
  obtain ⟨o, D₄, hflush, h₄⟩ := runs_bind_ok.mp h₃
  obtain ⟨run, D₅, hworkflow, h₅⟩ := runs_bind_ok.mp h₄
  obtain rfl := workflow_runs hworkflow
  obtain ⟨run', D₆, hflush', h₆⟩ := runs_bind_ok.mp h₅
  cases h₆
  have hmoves : Moves request.id .received D D₄ :=
    hentered.restated .received hflush horder rfl rfl (fun _ => ⟨rfl, rfl, rfl, rfl⟩) id
  exact hmoves.after (flushRun_keeps _ _ _ _ _ hflush')

/-- Cancelling takes the purchase order with it, if there is one. -/
theorem cancel_runs {result : ProcurementRequest} (hfresh : FreshStatuses D)
    (h : (cancel i actor reason).runs D (.ok (result, D'))) : Moves i .cancelled D D' := by
  obtain ⟨request, D₁, hget, h₁⟩ := runs_bind_ok.mp h
  obtain ⟨stored, hstored, rfl, rfl⟩ := getForUpdate_runs hget
  obtain rfl : request.id = i := Table.key_of_get hstored
  obtain ⟨row, D₂, htransition, h₂⟩ := runs_bind_ok.mp h₁
  obtain ⟨hentered, -, -⟩ := enter_runs hstored hfresh htransition
  obtain ⟨found, D₃, hselect, h₃⟩ := runs_bind_ok.mp h₂
  obtain ⟨hfound, rfl⟩ := Tx.runs_select.mp hselect
  have horder : orderOf D.purchaseOrders request.id = found := by
    rw [← hentered.orders]
    exact hfound.symm
  cases found with
  | none =>
    obtain ⟨run, D₄, hworkflow, h₄⟩ := runs_bind_ok.mp h₃
    obtain rfl := workflow_runs hworkflow
    obtain ⟨run', D₅, hflush, h₅⟩ := runs_bind_ok.mp h₄
    cases h₅
    have hmoves : Moves request.id .cancelled D D₂ := by
      refine hentered.kept ?_
      rw [horder]
      exact Or.inl ⟨rfl, rfl⟩
    exact hmoves.after (flushRun_keeps _ _ _ _ _ hflush)
  | some order =>
    obtain ⟨o, D₄, hflush, h₄⟩ := runs_bind_ok.mp h₃
    obtain ⟨run, D₅, hworkflow, h₅⟩ := runs_bind_ok.mp h₄
    obtain rfl := workflow_runs hworkflow
    obtain ⟨run', D₆, hflush', h₆⟩ := runs_bind_ok.mp h₅
    cases h₆
    have hmoves : Moves request.id .cancelled D D₄ :=
      hentered.restated .cancelled hflush horder rfl rfl (fun _ => ⟨rfl, rfl, rfl, rfl⟩) Or.inr
    exact hmoves.after (flushRun_keeps _ _ _ _ _ hflush')

/-- A request for an approval is no record of the purchase, so it keeps the dossiers. -/
theorem requestIfRequired_keeps [Digests] (engine : ApprovalEngine) (context : ApprovalContext)
    (request : ApprovalRequest) :
    (engine.requestIfRequired context request).keeps SameDossiers := by
  unfold ApprovalEngine.requestIfRequired
  split
  · exact keeps_done _
  · refine keeps_bind ?_ fun _ => keeps_done _
    refine keeps_bind (keeps_query _) fun existing => ?_
    split
    · exact keeps_done _
    · refine keeps_bind (keeps_answer _) fun now => keeps_bind (keeps_answer _) fun id => ?_
      refine keeps_bind ?_ fun approval => keeps_bind ?_ fun _ => keeps_done _
      · have hconfined : ∀ row, (add .approvals row).confined [.approvals] := fun row =>
          Tx.confined_add row (by decide)
        exact keeps_dossiers (hconfined _) (by decide)
      · exact addAudit_keepsDossiers (by decide)

/-- Submitting leaves the purchase order, which there is none of yet, alone. -/
theorem submitForApproval_runs [Digests] {engine : ApprovalEngine} {approval : Approval}
    (hfresh : FreshStatuses D)
    (h : (submitForApproval engine i actor reason).runs D (.ok (approval, D'))) :
    Moves i .awaitingApproval D D' := by
  obtain ⟨request, D₁, hget, h₁⟩ := runs_bind_ok.mp h
  obtain ⟨stored, hstored, rfl, rfl⟩ := getForUpdate_runs hget
  obtain rfl : request.id = i := Table.key_of_get hstored
  obtain ⟨found, D₂, hselect, h₂⟩ := runs_bind_ok.mp h₁
  obtain ⟨hfound, rfl⟩ := Tx.runs_select.mp hselect
  obtain ⟨quote, D₃, hthrow, h₃⟩ := runs_bind_ok.mp h₂
  obtain ⟨hquote, rfl⟩ := Tx.runs_orThrow.mp hthrow
  obtain ⟨_, D₄, hmoq, h₄⟩ := runs_bind_ok.mp h₃
  obtain ⟨-, rfl⟩ := Tx.runs_require.mp hmoq
  obtain ⟨row, D₅, htransition, h₅⟩ := runs_bind_ok.mp h₄
  obtain ⟨hentered, -, -⟩ := enter_runs hstored hfresh htransition
  obtain ⟨requested, D₆, hrequested, h₆⟩ := runs_bind_ok.mp h₅
  obtain ⟨approval', D₇, hthrow', h₇⟩ := runs_bind_ok.mp h₆
  obtain ⟨-, rfl⟩ := Tx.runs_orThrow.mp hthrow'
  obtain ⟨run, D₈, hworkflow, h₈⟩ := runs_bind_ok.mp h₇
  obtain rfl := workflow_runs hworkflow
  obtain ⟨e, D₉, hemit, h₉⟩ := runs_bind_ok.mp h₈
  obtain ⟨run', D₁₀, hflush, h₁₀⟩ := runs_bind_ok.mp h₉
  cases h₁₀
  have hmoves : Moves request.id .awaitingApproval D D₅ := hentered.kept rfl
  have hasked := requestIfRequired_keeps _ _ _ _ _ _ hrequested
  have hemitted : SameDossiers D₆ D₉ :=
    emit_keepsDossiers rfl (OtherKey.of_head (rfl : _ = "procurement-requested:" ++ row.id.text)
      (by decide)) _ _ _ hemit
  exact ((hmoves.after hasked).after hemitted).after (flushRun_keeps _ _ _ _ _ hflush)

/-- A request has one purchase order: the one it has, or the one that is placed now. -/
theorem createPurchaseOrder_runs {request : ProcurementRequest} {approval : Approval}
    {order : PurchaseOrder} (howned : ReceiptsOwned D)
    (h : (createPurchaseOrder request approval).runs D (.ok (order, D'))) :
    (orderOf D.purchaseOrders request.id = some order ∧ D = D') ∨
      (orderOf D.purchaseOrders request.id = none ∧ Placed request order ∧
        Affects request.id (·.withOrder order) D D') := by
  obtain ⟨existing, D₁, hselect, h₁⟩ := runs_bind_ok.mp h
  obtain ⟨hfound, rfl⟩ := Tx.runs_select.mp hselect
  cases existing with
  | some existing =>
    cases h₁
    exact Or.inl ⟨hfound.symm, rfl⟩
  | none =>
    obtain ⟨found, D₂, hselect', h₂⟩ := runs_bind_ok.mp h₁
    obtain ⟨-, rfl⟩ := Tx.runs_select.mp hselect'
    obtain ⟨quote, D₃, hthrow, h₃⟩ := runs_bind_ok.mp h₂
    obtain ⟨-, rfl⟩ := Tx.runs_orThrow.mp hthrow
    obtain ⟨id, D₄, ⟨env, henv⟩, h₄⟩ := runs_bind_ok.mp h₃
    cases henv
    obtain ⟨placed, D₅, hadd, h₅⟩ := runs_bind_ok.mp h₄
    obtain ⟨hplaced, hconflicts, hD₅⟩ := runs_insert.mp hadd
    rw [← hplaced] at hconflicts hD₅
    subst hD₅
    obtain ⟨run, D₆, hworkflow, h₆⟩ := runs_bind_ok.mp h₅
    obtain rfl := workflow_runs hworkflow
    obtain ⟨e, D₇, hemit, h₇⟩ := runs_bind_ok.mp h₆
    cases h₇
    have hemitted : SameDossiers _ D' :=
      emit_keepsDossiers rfl
        (OtherKey.of_head (rfl : _ = "purchase-order-created:" ++ request.id.text) (by decide))
        _ _ _ hemit
    have hnone : orderOf D.purchaseOrders request.id = none := hfound.symm
    have hrequest : order.procurementRequestId = request.id := by rw [hplaced]
    have hwritten := Affects.insertOrder hconflicts (by rw [hrequest]; exact hnone) howned
    rw [hrequest] at hwritten
    refine Or.inr ⟨hnone, ?_, hwritten.after hemitted⟩
    rw [hplaced]
    exact ⟨rfl, rfl, rfl, rfl⟩

/-- Approving places the purchase order, or finds it placed, and enters the status. -/
theorem approvePurchase_runs {approval : Approval} {u : Unit} (hfresh : FreshStatuses D)
    (howned : ReceiptsOwned D) (h : (approvePurchase approval).runs D (.ok (u, D'))) :
    Moves approval.resourceId .approved D D' := by
  obtain ⟨_, D₁, hcheck, h₁⟩ := runs_bind_ok.mp h
  obtain ⟨-, rfl⟩ := Tx.runs_require.mp hcheck
  obtain ⟨request, D₂, hget, h₂⟩ := runs_bind_ok.mp h₁
  obtain ⟨stored, hstored, rfl, rfl⟩ := getForUpdate_runs hget
  have hrequest : request.id = approval.resourceId := Table.key_of_get hstored
  rw [← hrequest] at hstored ⊢
  obtain ⟨row, D₃, htransition, h₃⟩ := runs_bind_ok.mp h₂
  obtain ⟨hentered, hid, -⟩ := enter_runs hstored hfresh htransition
  obtain ⟨run, D₄, hworkflow, h₄⟩ := runs_bind_ok.mp h₃
  obtain rfl := workflow_runs hworkflow
  obtain ⟨e, D₅, hemit, h₅⟩ := runs_bind_ok.mp h₄
  obtain ⟨order, D₆, hcreate, h₆⟩ := runs_bind_ok.mp h₅
  obtain ⟨run', D₇, hflush, h₇⟩ := runs_bind_ok.mp h₆
  cases h₇
  have hemitted : SameDossiers D₃ D₅ :=
    emit_keepsDossiers rfl (OtherKey.of_head (rfl : _ = "purchase-approved:" ++ row.id.text)
      (by decide)) _ _ _ hemit
  have hannounced := hentered.affects.after hemitted
  have horders : Db.purchaseOrders D₅ = D.purchaseOrders := hemitted.orders.trans hentered.orders
  refine Moves.after ?_ (flushRun_keeps _ _ _ _ _ hflush)
  rcases createPurchaseOrder_runs (hannounced.owned howned) hcreate with
    ⟨horder, rfl⟩ | ⟨hnone, hplaced, hwritten⟩
  · rw [hid, horders] at horder
    refine Entered.kept ⟨hentered.request_get, hentered.allowed, hentered.status, hentered.quantity,
      horders, hannounced⟩ (Or.inl ⟨rfl, ?_⟩)
    show orderOf D.purchaseOrders request.id ≠ none
    rw [horder]
    exact Option.some_ne_none order
  · rw [hid] at hwritten
    rw [hid, horders] at hnone
    refine Entered.written ⟨hentered.request_get, hentered.allowed, hentered.status,
      hentered.quantity, horders, hannounced⟩ hwritten (Or.inr ⟨hnone, order, rfl, ?_⟩)
    exact ⟨hplaced.quantity.trans hentered.quantity, hplaced.receivedQuantity,
      hplaced.actualLandedCost, hplaced.status⟩

end Calls

end ProcurementService

end CommerceOperations
