/-
  What the services announce.

  A service writes rows of its own tables and adds events to the outbox; it never touches an event
  that is there.  `Announces tables ok` is this in one predicate of a write, with `ok` for what is
  said of the new events.  Events about a movement of stock carry keys that name it; all other
  events of the services are `Plain`.

  The lemmas below go through the services once, from the single write up, with `ok` a variable.
  `ChangeLog` and `StockFeeds` then put in for `ok` what they want to know of the events.
-/
import CommerceOperations.Application.Orchestration
import CommerceOperations.Events.Handlers

namespace CommerceOperations

open Relational Prog

/-- A write to one of `tables`, or a new event of which `ok` holds. -/
def Announces (tables : List TableName) (ok : DomainEvent → Prop) : Write TableName.Entity → Prop
  | ⟨.domainEvents, .insert row⟩ => ok row
  | ⟨i, _⟩ => i ∈ tables

/-- A transaction of such writes.  Nothing is asked of what it raises. -/
abbrev Tx.announces {α : Type} (tables : List TableName) (ok : DomainEvent → Prop) (p : Tx α) :
    Prop := p.writes (Announces tables ok) fun _ => False

/-- The key of the event about a movement of stock. -/
def changedKey (movementId : Uuid) : String := s!"inventory-changed:{movementId}"

/-- The key of the warning a movement of stock gives. -/
def lowStockKey (movementId : Uuid) : String := s!"low-stock:{movementId}"

/-- The key as the source's f-string writes it: a prefix and the id. -/
theorem changedKey_eq (movementId : Uuid) :
    changedKey movementId = "inventory-changed:" ++ movementId.text := by
  unfold changedKey
  rfl

/-- The key of a warning as the source's f-string writes it, with another prefix. -/
theorem lowStockKey_eq (movementId : Uuid) :
    lowStockKey movementId = "low-stock:" ++ movementId.text := by
  unfold lowStockKey
  rfl

/-- The key of the event names a movement. -/
def DomainEvent.Names (e : DomainEvent) (movementId : Uuid) : Prop :=
  e.idempotencyKey = changedKey movementId ∨ e.idempotencyKey = lowStockKey movementId

/-- The event tells neither of a change of stock nor of low stock, and names no movement. -/
structure DomainEvent.Plain (e : DomainEvent) : Prop where
  /-- it tells of no change of stock -/
  notChanged : e.payload.type ≠ .inventoryChanged
  /-- and of no low stock -/
  notLow : e.payload.type ≠ .lowStock
  /-- and its key is that of no movement -/
  unnamed : ∀ movementId, ¬e.Names movementId

/-- The first letter of a key tells it from those that name movements. -/
theorem DomainEvent.not_names {e : DomainEvent}
    (h : ∀ c ∈ e.idempotencyKey.toList.head?, c ≠ 'i' ∧ c ≠ 'l') (movementId : Uuid) :
    ¬e.Names movementId := by
  rintro (heq | heq)
  · rw [heq, changedKey_eq, String.toList_append, List.head?_append] at h
    exact (h 'i' rfl).1 rfl
  · rw [heq, lowStockKey_eq, String.toList_append, List.head?_append] at h
    exact (h 'l' rfl).2 rfl

section Rules

variable {α : Type} {tables : List TableName} {ok : DomainEvent → Prop}

/-- A write to one of the tables is allowed, since the outbox is none of them. -/
theorem Announces.of_table {w : Write TableName.Entity} (hw : w.table ∈ tables)
    (hevents : .domainEvents ∉ tables) : Announces tables ok w := by
  obtain ⟨i, w⟩ := w
  cases i with
  | domainEvents => exact absurd hw hevents
  | _ => exact hw

/-- What stays within such tables announces nothing at all. -/
theorem Tx.announces_of_confined {p : Tx α} {tables' : List TableName} (h : p.confined tables')
    (hsub : tables' ⊆ tables) (hevents : .domainEvents ∉ tables) : p.announces tables ok :=
  writes_mono h (fun _ hw => Announces.of_table (hsub hw) hevents) fun _ he => he.elim

/-- A lookup that may raise writes nothing. -/
theorem Tx.announces_orThrow {a : Option α} {type : ExceptionType} {message : String} :
    (Tx.orThrow a type message).announces tables ok := by
  cases a with
  | some a => exact trivial
  | none => exact fun h => h

/-- A requirement that may raise writes nothing. -/
theorem Tx.announces_require {cond : Prop} [Decidable cond] {type : ExceptionType}
    {message : String} : (Tx.require cond type message).announces tables ok := by
  unfold Tx.require
  split
  · exact trivial
  · exact fun h => h

/-- A new row of one of the tables is an allowed write. -/
theorem Tx.announces_add {i : TableName} (row : i.Entity) (hi : i ∈ tables)
    (hevents : .domainEvents ∉ tables) : (add i row).announces tables ok :=
  writes_insert row (Announces.of_table hi hevents) fun _ h => h

/-- A changed row of one of them is an allowed write. -/
theorem Tx.announces_flush {i : TableName} (loaded new : i.Entity) (hi : i ∈ tables)
    (hevents : .domainEvents ∉ tables) : (flush i loaded new).announces tables ok :=
  writes_flush loaded new (fun _ _ _ => Announces.of_table hi hevents) (fun _ h => h) fun h => h

/-- An audit entry is a new row of the trail, and announces nothing. -/
theorem addAudit_announces {actorType actorId action resourceType : String} {resourceId : Uuid}
    {beforeState afterState : Option Json} {reason : Option String} {correlationId : Uuid}
    (haudit : .auditEvents ∈ tables) (hevents : .domainEvents ∉ tables) :
    (addAudit actorType actorId action resourceType resourceId beforeState afterState reason
      correlationId).announces tables ok :=
  Tx.announces_of_confined addAudit_confined (by simpa using haudit) hevents

/-- **To emit an event is to announce it**, or to find it announced: the envelope stored under the
    key is returned and nothing is written. -/
theorem DatabaseEventStore.emit_announces {payload : EventPayload} {context : EventContext}
    {idempotencyKey : String}
    (hok : ∀ event : EventEnvelope, event.data = payload → event.idempotencyKey = idempotencyKey →
      ok (record event)) :
    (emit payload context idempotencyKey).announces tables ok := by
  unfold emit createEvent
  simp only [bind_assoc, pure_bind]
  refine writes_bind Tx.announces_require fun _ => ?_
  refine writes_bind (writes_answer _) fun eventId => ?_
  refine writes_bind (writes_answer _) fun occurredAt => ?_
  -- the envelope is at hand now
  refine writes_bind (writes_query _) fun existing => ?_
  cases existing with
  | some existing =>
    dsimp only
    split
    · exact fun h => h
    · exact trivial
  | none => exact writes_insert _ (hok _ rfl rfl) fun _ h => h

/-- More tables may be listed than are written. -/
theorem Tx.announces_mono {p : Tx α} {tables' : List TableName} (h : p.announces tables ok)
    (hsub : tables ⊆ tables') : p.announces tables' ok := by
  refine writes_mono h (fun w hw => ?_) fun _ he => he.elim
  obtain ⟨i, w⟩ := w
  cases i with
  | domainEvents =>
    cases w with
    | insert row => exact hw
    | update old new => exact hsub hw
  | _ => exact hsub hw

end Rules

/-! ## The services -/

section Services

variable {ok : DomainEvent → Prop}
variable (hok : ∀ event : EventEnvelope, (DatabaseEventStore.record event).Plain →
  ok (DatabaseEventStore.record event))

include hok

/-- A plain payload under a key of its own is announced. -/
theorem DatabaseEventStore.emit_plain {payload : EventPayload} {context : EventContext}
    {idempotencyKey : String} {tables : List TableName}
    (htype : payload.type ≠ .inventoryChanged ∧ payload.type ≠ .lowStock)
    (hkey : ∀ c ∈ idempotencyKey.toList.head?, c ≠ 'i' ∧ c ≠ 'l') :
    (emit payload context idempotencyKey).announces tables ok := by
  refine emit_announces fun event hdata hevent => hok event ⟨?_, ?_, ?_⟩
  · show event.data.type ≠ _
    rw [hdata]
    exact htype.1
  · show event.data.type ≠ _
    rw [hdata]
    exact htype.2
  · refine DomainEvent.not_names ?_
    show ∀ c ∈ event.idempotencyKey.toList.head?, _
    rw [hevent]
    exact hkey

namespace WorkflowEngine

/-- The tables of the engine besides the outbox. -/
def ownTables : List TableName := [.workflowRuns, .auditEvents]

omit hok in
/-- The audit entry of a change of state announces nothing. -/
theorem audit_announces {workflow : WorkflowRun} {before : Option RunStatus} {after : RunStatus}
    {reason : String} : (audit workflow before after reason).announces ownTables ok :=
  addAudit_announces (by decide) (by decide)

omit hok in
/-- The row of a run is in the engine's own tables, so writing it announces nothing. -/
theorem flush_announces {workflow new : WorkflowRun} :
    (flush .workflowRuns workflow new).announces ownTables ok :=
  Tx.announces_flush _ _ (by decide) (by decide)

/-- A terminal failure announces `WORKFLOW_FAILED`, a plain event. -/
theorem terminalFailure_announces {workflow : WorkflowRun} {reason : String} {retryable : Bool} :
    (terminalFailure workflow reason retryable).announces ownTables ok := by
  refine writes_bind (writes_answer _) fun now => ?_
  refine writes_bind flush_announces fun run => ?_
  refine writes_bind audit_announces fun _ => ?_
  refine writes_bind (DatabaseEventStore.emit_plain hok ?_ ?_) fun _ => trivial
  · exact ⟨fun h => (by cases h), fun h => (by cases h)⟩
  · simp [toString]

/-- A failed step either plans a retry, silently, or is a terminal failure. -/
theorem stepFailed_announces {workflow : WorkflowRun} {policy : WorkflowExecutionPolicy}
    {e : Error} {now : Instant} : (stepFailed workflow policy e now).announces ownTables ok := by
  unfold stepFailed
  split
  · exact terminalFailure_announces hok
  · split
    · exact terminalFailure_announces hok
    · refine writes_bind flush_announces fun run => ?_
      exact writes_bind audit_announces fun _ => trivial

omit hok in
/-- A step that returned leaves the run and an audit entry. -/
theorem stepReturned_announces {workflow : WorkflowRun} {outcome : WorkflowOutcome}
    {now : Instant} : (stepReturned workflow outcome now).announces ownTables ok := by
  refine writes_bind flush_announces fun run => ?_
  split <;> exact writes_bind audit_announces fun _ => trivial

omit hok in
/-- A new run is such a row, with an audit entry; it announces nothing. -/
theorem create_announces [Digests] {definition : WorkflowDefinition} {event : EventEnvelope}
    {now : Instant} : (create definition event now).announces ownTables ok := by
  refine writes_bind (writes_answer _) fun id => ?_
  refine writes_bind (writes_answer _) fun createdAt => ?_
  refine writes_bind (Tx.announces_add _ (by decide) (by decide)) fun workflow => ?_
  exact writes_bind audit_announces fun _ => trivial

omit hok in
/-- Clearing the approval a run waited for writes that row again. -/
theorem clearApproval_announces {workflow : WorkflowRun} :
    (clearApproval workflow).announces ownTables ok := by
  unfold clearApproval
  split
  · exact trivial
  · refine writes_bind (writes_query _) fun approval => ?_
    exact writes_bind Tx.announces_require fun _ => flush_announces

end WorkflowEngine

namespace ProcurementService

/-- A transition announces the new status, under a key that begins with `procurement`. -/
theorem applyTransition_announces {request : ProcurementRequest} {target : ProcurementStatus}
    {actor reason : String} :
    (applyTransition request target actor reason).announces [.procurementRequests, .auditEvents]
      ok := by
  refine writes_bind Tx.announces_require fun _ => ?_
  refine writes_bind (Tx.announces_flush _ _ (by decide) (by decide)) fun request => ?_
  refine writes_bind ?_ fun workflow => ?_
  · exact writes_bind (writes_query _) fun _ => Tx.announces_orThrow
  refine writes_bind (addAudit_announces (by decide) (by decide)) fun _ => ?_
  refine writes_bind (DatabaseEventStore.emit_plain hok ?_ ?_) fun _ => trivial
  · exact ⟨fun h => (by cases h), fun h => (by cases h)⟩
  · simp [toString]

/-- Closing a request is such a transition, with the purchase order and the run before it. -/
theorem markReceived_announces {loaded : Option ProcurementRequest} {procurementId : Uuid}
    {actor reason : String} {now : Instant} :
    (markReceived loaded procurementId actor reason now).announces
      [.procurementRequests, .purchaseOrders, .workflowRuns, .auditEvents] ok := by
  have hworkflow : ∀ request, (workflow request).announces
      [.procurementRequests, .purchaseOrders, .workflowRuns, .auditEvents] ok := fun _ =>
    writes_bind (writes_query _) fun _ => Tx.announces_orThrow
  refine writes_bind ?_ fun request => ?_
  · refine writes_bind (writes_selectForUpdate _ _) fun _ => ?_
    exact writes_bind Tx.announces_orThrow fun _ => trivial
  refine writes_bind ?_ fun purchaseOrder => ?_
  · exact writes_bind (writes_query _) fun _ => Tx.announces_orThrow
  refine writes_bind (Tx.announces_mono (applyTransition_announces hok) (by decide))
    fun request => ?_
  refine writes_bind (Tx.announces_flush _ _ (by decide) (by decide)) fun _ => ?_
  refine writes_bind (hworkflow _) fun workflow => ?_
  exact writes_bind (Tx.announces_flush _ _ (by decide) (by decide)) fun _ => trivial

end ProcurementService

namespace OrderService

omit hok in
/-- The audit entry of an order announces nothing. -/
theorem audit_announces {order : Order} {workflow : Option WorkflowRun} {action actor : String}
    {before : Option String} {after reason : String} {tables : List TableName}
    (haudit : .auditEvents ∈ tables) (hevents : .domainEvents ∉ tables) :
    (audit order workflow action actor before after reason).announces tables ok :=
  writes_bind Tx.announces_orThrow fun _ => addAudit_announces haudit hevents

/-- A change of status announces a cancellation, under a key that begins with `order`, and nothing
    else. -/
theorem setStatus_announces {order : Order} {target : OrderStatus} {actor reason : String} :
    (setStatus order target actor reason).announces [.orders, .workflowRuns, .auditEvents] ok := by
  refine writes_bind (writes_answer _) fun now => ?_
  refine writes_bind (Tx.announces_flush _ _ (by decide) (by decide)) fun order => ?_
  refine writes_bind (writes_query _) fun workflow => ?_
  extract_lets finish
  have hfinish : ∀ workflow,
      (finish workflow).announces [.orders, .workflowRuns, .auditEvents] ok := by
    intro workflow
    simp only [finish]
    split
    · refine writes_bind (DatabaseEventStore.emit_plain hok ?_ ?_) fun _ => ?_
      · exact ⟨fun h => (by cases h), fun h => (by cases h)⟩
      · simp [toString]
      · exact writes_bind (audit_announces (by decide) (by decide)) fun _ => trivial
    · exact writes_bind (audit_announces (by decide) (by decide)) fun _ => trivial
  cases workflow with
  | none => exact hfinish _
  | some workflow =>
    exact writes_bind (Tx.announces_flush _ _ (by decide) (by decide)) fun _ => hfinish _

end OrderService

end Services

end CommerceOperations
