/-
  Event handlers: their registry, and the processor that runs them.

  `process` is a row of transactions: one that looks the event up, one for each handler, and one
  that marks the event.  Each is a `Tx` of its own here; what happens between them, and what comes
  after a failure, is the subject of `Events.Delivery`.

  A handler's transaction locks the event, looks for the handler's receipt and, if there is none,
  adds it and runs the callback.  The callback is any transaction body.
-/
import CommerceOperations.Events.Store
import Mathlib.Data.List.Sort

namespace CommerceOperations

open Relational

/-! ## Event types -/

/-- `EventType`: the eighteen kinds of event. -/
inductive EventType where
  | productApproved | procurementRequested | procurementStatusChanged | purchaseApproved
  | purchaseOrderCreated | stockReceived | inventoryChanged | listingDraftCreated
  | listingValidationFailed | listingApproved | listingPublished | orderReceived | orderCancelled
  | orderReturned | lowStock | customerMessageReceived | refundRequested | workflowFailed
  deriving DecidableEq, Repr

/-- `EVENT_TYPES_BY_PAYLOAD`, as members of the enumeration.  The source looks the type up by the
    class of the payload; a class is a constructor here. -/
def EventPayload.type : EventPayload → EventType
  | productApproved .. => .productApproved
  | procurementRequested .. => .procurementRequested
  | procurementStatusChanged .. => .procurementStatusChanged
  | purchaseApproved .. => .purchaseApproved
  | purchaseOrderCreated .. => .purchaseOrderCreated
  | stockReceived .. => .stockReceived
  | inventoryChanged .. => .inventoryChanged
  | listingDraftCreated .. => .listingDraftCreated
  | listingValidationFailed .. => .listingValidationFailed
  | listingApproved .. => .listingApproved
  | listingPublished .. => .listingPublished
  | orderReceived .. => .orderReceived
  | orderCancelled .. => .orderCancelled
  | orderReturned .. => .orderReturned
  | lowStock .. => .lowStock
  | customerMessageReceived .. => .customerMessageReceived
  | refundRequested .. => .refundRequested
  | workflowFailed .. => .workflowFailed

/-- The text the outbox stores, and by which a processor selects. -/
def EventType.value : EventType → String
  | productApproved => "PRODUCT_APPROVED"
  | procurementRequested => "PROCUREMENT_REQUESTED"
  | procurementStatusChanged => "PROCUREMENT_STATUS_CHANGED"
  | purchaseApproved => "PURCHASE_APPROVED"
  | purchaseOrderCreated => "PURCHASE_ORDER_CREATED"
  | stockReceived => "STOCK_RECEIVED"
  | inventoryChanged => "INVENTORY_CHANGED"
  | listingDraftCreated => "LISTING_DRAFT_CREATED"
  | listingValidationFailed => "LISTING_VALIDATION_FAILED"
  | listingApproved => "LISTING_APPROVED"
  | listingPublished => "LISTING_PUBLISHED"
  | orderReceived => "ORDER_RECEIVED"
  | orderCancelled => "ORDER_CANCELLED"
  | orderReturned => "ORDER_RETURNED"
  | lowStock => "LOW_STOCK"
  | customerMessageReceived => "CUSTOMER_MESSAGE_RECEIVED"
  | refundRequested => "REFUND_REQUESTED"
  | workflowFailed => "WORKFLOW_FAILED"

/-! ## The registry -/

/-- `RegisteredHandler`: a callback for one type of event, under a name that its receipts carry. -/
structure RegisteredHandler where
  name : String
  eventType : EventType
  callback : EventEnvelope → Tx Unit

/-- `EventHandlerRegistry`: the handlers in the order of their registration.  Their names are the
    set `_names`. -/
structure EventHandlerRegistry where
  handlers : List RegisteredHandler
  names_nodup : (handlers.map (·.name)).Nodup

namespace EventHandlerRegistry

/-- A registry without handlers. -/
def empty : EventHandlerRegistry := ⟨[], List.nodup_nil⟩

/-- `register`.  Names are unique over all types of event, so that a receipt tells whose it is. -/
def register (registry : EventHandlerRegistry) (eventType : EventType) (name : String)
    (callback : EventEnvelope → Tx Unit) : Except Error EventHandlerRegistry :=
  if h : name ∈ registry.handlers.map (·.name) then
    .error (.raised .valueError s!"Event handler name must be globally unique: {name}")
  else
    .ok
      { handlers := registry.handlers ++ [⟨name, eventType, callback⟩]
        names_nodup := by
          rw [List.map_append]
          refine List.nodup_append'.mpr ⟨registry.names_nodup, List.nodup_singleton _, ?_⟩
          rwa [List.map_singleton, List.disjoint_singleton] }

/-- `handlers_for`, in the order of registration. -/
def handlersFor (registry : EventHandlerRegistry) (eventType : EventType) :
    List RegisteredHandler :=
  registry.handlers.filter fun handler => handler.eventType = eventType

/-- The handlers for a type are among all handlers. -/
theorem mem_of_mem_handlersFor {registry : EventHandlerRegistry} {eventType : EventType}
    {handler : RegisteredHandler} (h : handler ∈ registry.handlersFor eventType) :
    handler ∈ registry.handlers := List.mem_of_mem_filter h

/-- No two handlers for an event have the same name.  This is why one receipt a name is one receipt
    a handler. -/
theorem names_nodup_handlersFor (registry : EventHandlerRegistry) (eventType : EventType) :
    ((registry.handlersFor eventType).map (·.name)).Nodup :=
  (List.Sublist.map _ List.filter_sublist).nodup registry.names_nodup

end EventHandlerRegistry

/-! ## The outbox as a queue -/

namespace DatabaseEventStore

/-- The event waits for its handlers: it is new, or an attempt failed.  A failed event waits again
    without limit. -/
def waiting (record : DomainEvent) : Bool :=
  record.publicationStatus = .pending ∨ record.publicationStatus = .failed

/-- `pending`: the oldest events that wait, of some types or of all, up to a limit. -/
def pending (limit : Nat) (eventTypes : Option (List EventType)) : Tx (List DomainEvent) :=
  Tx.select fun D =>
    ((D.domainEvents.rows.filter fun r =>
        waiting r ∧ eventTypes.all fun types => r.eventType ∈ types.map (·.value)).insertionSort
      fun r s => r.createdAt ≤ s.createdAt).take limit

end DatabaseEventStore

/-! ## The processor -/

namespace EventProcessor

/-- `process`, the lookup of the event. -/
def lookUp (eventId : Uuid) : Tx EventEnvelope := do
  let record ← Tx.select fun D => D.domainEvents.get eventId
  let record ← Tx.orThrow record .eventNotFoundError eventId.text
  pure (DatabaseEventStore.toEnvelope record)

/-- The receipt of a handler for an event. -/
def isReceipt (eventId : Uuid) (handlerName : String) (receipt : EventHandlerReceipt) : Bool :=
  receipt.eventId = eventId ∧ receipt.handlerName = handlerName

/-- `_process_handler`: whether the callback ran.  The receipt is added before the callback runs and
    in the same transaction, so it is committed with what the callback wrote or not at all. -/
def processHandler (eventId : Uuid) (handler : RegisteredHandler) : Tx Bool := do
  let record ← selectForUpdate .domainEvents fun r => r.id = eventId
  let record ← Tx.orThrow record .eventNotFoundError eventId.text
  let receipt ← Tx.select fun D =>
    D.eventHandlerReceipts.rows.find? (isReceipt eventId handler.name)
  match receipt with
  | some _ => pure false
  | none => do
    let id ← Tx.uuid4
    let _ ← add .eventHandlerReceipts
      { id, version := 1, eventId, handlerName := handler.name, status := .completed }
    handler.callback (DatabaseEventStore.toEnvelope record)
    pure true

/-- `f"{handler_name}: {type(exception).__name__}: {exception}"[:4000]`. -/
def failureText (handlerName : String) (exception : Error) : String :=
  String.ofList ((s!"{handlerName}: {exception.typeName}: {exception.message}").toList.take 4000)

/-- The event after an attempt that ended as told: with the text of a failure, or without. -/
def attempted (record : DomainEvent) (failure : Option String) : DomainEvent :=
  { record with
    processingAttempts := record.processingAttempts + 1
    publicationStatus := if failure.isSome then .failed else .published
    lastError := failure }

/-- `_record_failure`, in a transaction of its own after the one that failed was rolled back. -/
def recordFailure (eventId : Uuid) (handlerName : String) (exception : Error) : Tx Unit := do
  let record ← Tx.select fun D => D.domainEvents.get eventId
  match record with
  | none => pure ()
  | some record => do
    let _ ← flush .domainEvents record
      (attempted record (some (failureText handlerName exception)))
    pure ()

/-- `_mark_complete`, after all handlers have run. -/
def markComplete (eventId : Uuid) : Tx Unit := do
  let record ← Tx.select fun D => D.domainEvents.get eventId
  let record ← Tx.orThrow record .eventNotFoundError eventId.text
  let _ ← flush .domainEvents record (attempted record none)
  pure ()

end EventProcessor

end CommerceOperations
