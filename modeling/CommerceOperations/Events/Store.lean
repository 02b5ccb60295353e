/-
  The outbox: event envelopes and their publication.

  A service that changes something publishes an event about it in the same transaction, by adding
  a row to `domain_events`.  So the event exists exactly if the change was committed, and delivering
  it is another program's work (`Events.Handlers`).

  `publish` makes this idempotent: under a key that is taken, it returns the row that has the key,
  or raises where that row is about something else.  What each service does with the two outcomes is
  decided by `emit_runs`, the one lemma about publishing that the rest of the development uses.
-/
import CommerceOperations.Domains

namespace CommerceOperations

open Relational

/-- The field constraints of the payload models.  A payload that violates one is refused when it is
    built, before anything is published. -/
def EventPayload.valid : EventPayload → Bool
  | procurementRequested _ _ quantity => 0 < quantity
  | stockReceived _ _ quantity => 0 < quantity
  | inventoryChanged _ _ quantityOnHand reservedQuantity =>
    0 ≤ quantityOnHand ∧ 0 ≤ reservedQuantity
  | listingDraftCreated _ _ _ listingVersion => 0 < listingVersion
  | listingValidationFailed _ _ _ errorCount => 0 < errorCount
  | orderReturned _ _ quantity => 0 < quantity
  | lowStock _ _ availableQuantity threshold => 0 ≤ availableQuantity ∧ 0 ≤ threshold
  | refundRequested _ _ amount currency => 0 < amount.value ∧ currency.length = 3
  | _ => true

/-- `EventEnvelope`, as `create_event` makes it.

    The source lets `event_type` be set freely.  Every envelope of the program comes from
    `create_event`, which looks the type up by the class of the payload, or from `to_envelope`,
    which decodes the payload by the type; so the type is that of the payload and no field of its
    own here.  The payload is compared by what `model_dump` makes of it: a decimal is its text, and
    `50` and `50.0` are two payloads. -/
structure EventEnvelope where
  eventId : Uuid
  eventVersion : Int
  occurredAt : Instant
  producer : String
  aggregateType : String
  aggregateId : Uuid
  aggregateVersion : Int
  correlationId : Uuid
  workflowId : Option Uuid
  causationId : Option Uuid
  idempotencyKey : String
  data : EventPayload
  deriving DecidableEq

/-- What an event is about, and where it comes from: the keyword arguments of `create_event`. -/
structure EventContext where
  aggregateType : String
  aggregateId : Uuid
  aggregateVersion : Int
  correlationId : Uuid
  workflowId : Option Uuid
  causationId : Option Uuid

/-- `create_event`: the payload and its context under a fresh id, at the time of the clock. -/
def createEvent (payload : EventPayload) (context : EventContext) (idempotencyKey : String) :
    Tx EventEnvelope := do
  Tx.require (payload.valid ∧ 0 < context.aggregateVersion) .valueError "validation error"
  let eventId ← Tx.uuid4
  let occurredAt ← Tx.now
  pure
    { eventId, occurredAt, idempotencyKey
      eventVersion := 1
      producer := "commerce-operations"
      aggregateType := context.aggregateType
      aggregateId := context.aggregateId
      aggregateVersion := context.aggregateVersion
      correlationId := context.correlationId
      workflowId := context.workflowId
      causationId := context.causationId
      data := payload }

namespace DatabaseEventStore

/-- The row `publish` adds for an envelope.  It waits for its handlers, and no attempt was made. -/
def record (event : EventEnvelope) : DomainEvent :=
  { id := event.eventId
    version := 1
    createdAt := event.occurredAt
    eventType := event.data.eventType
    eventVersion := event.eventVersion
    producer := event.producer
    aggregateType := event.aggregateType
    aggregateId := event.aggregateId
    aggregateVersion := event.aggregateVersion
    correlationId := event.correlationId
    workflowId := event.workflowId
    causationId := event.causationId
    idempotencyKey := event.idempotencyKey
    payload := event.data
    publicationStatus := .pending
    processingAttempts := 0
    lastError := none }

/-- `DatabaseEventStore.publish`.  The row found is compared with the event by type and payload
    only: another aggregate or another correlation under the same key passes for the same event. -/
def publish (event : EventEnvelope) : Tx DomainEvent := do
  let existing ← Tx.select fun D =>
    D.domainEvents.rows.find? fun r => r.idempotencyKey = event.idempotencyKey
  match existing with
  | some existing =>
    if existing.eventType ≠ event.data.eventType ∨ existing.payload ≠ event.data then
      Tx.throw .eventConflictError
        s!"Idempotency key '{event.idempotencyKey}' was reused for another event"
    else pure existing
  | none => add .domainEvents (record event)

/-- `DatabaseEventStore.to_envelope`: what a handler gets to see. -/
def toEnvelope (record : DomainEvent) : EventEnvelope :=
  { eventId := record.id
    eventVersion := record.eventVersion
    occurredAt := record.createdAt
    producer := record.producer
    aggregateType := record.aggregateType
    aggregateId := record.aggregateId
    aggregateVersion := record.aggregateVersion
    correlationId := record.correlationId
    workflowId := record.workflowId
    causationId := record.causationId
    idempotencyKey := record.idempotencyKey
    data := record.payload }

/-- Create an event and publish it, as every service of the source does in one expression. -/
def emit (payload : EventPayload) (context : EventContext) (idempotencyKey : String) :
    Tx DomainEvent := do
  publish (← createEvent payload context idempotencyKey)

end DatabaseEventStore

/-- `session.add(AuditEvent(..))`, with a fresh id.  An audit entry has no key, so there is one for
    every call that commits. -/
def addAudit (actorType actorId action resourceType : String) (resourceId : Uuid)
    (beforeState afterState : Option Json) (reason : Option String) (correlationId : Uuid) :
    Tx Unit := do
  let id ← Tx.uuid4
  let _ ← add .auditEvents
    { id, actorType, actorId, action, resourceType, resourceId, beforeState, afterState, reason,
      correlationId, version := 1 }

/-! ## What they write -/

/-- An event is a row of the outbox and nothing else. -/
theorem DatabaseEventStore.emit_confined {payload : EventPayload} {context : EventContext}
    {idempotencyKey : String} :
    (emit payload context idempotencyKey).confined [.domainEvents] := by
  refine Prog.writes_bind ?_ fun event => ?_
  · refine Prog.writes_bind (Tx.confined_require (by decide)) fun _ => ?_
    exact Prog.writes_bind (Prog.writes_answer _) fun _ =>
      Prog.writes_bind (Prog.writes_answer _) fun _ => trivial
  · refine Prog.writes_bind (Prog.writes_query _) fun existing => ?_
    cases existing with
    | none => exact Tx.confined_add _ (by decide)
    | some existing =>
      dsimp only
      split
      · exact Tx.confined_throw (by decide)
      · exact trivial

/-- Publishing an event spares every table but the outbox, its rows and its constraints. -/
theorem DatabaseEventStore.emit_spares {payload : EventPayload} {context : EventContext}
    {idempotencyKey : String} {i : TableName} (hi : i ≠ .domainEvents) :
    (emit payload context idempotencyKey).spares i := by
  refine Prog.writes_bind ?_ fun event => ?_
  · refine Prog.writes_bind Tx.spares_require fun _ => ?_
    exact Prog.writes_bind (Prog.writes_answer _) fun _ =>
      Prog.writes_bind (Prog.writes_answer _) fun _ => trivial
  · refine Prog.writes_bind (Prog.writes_query _) fun existing => ?_
    cases existing with
    | none => exact Tx.spares_add _ hi.symm
    | some existing =>
      dsimp only
      split
      · exact Tx.spares_throw
      · exact trivial

/-- **An event is published once per key**: under a fresh key it is a new row; otherwise the row
    stored has the payload.  The two cases are kept apart because of what follows from each: in the
    first the event counts as new, in the second the caller has found out that it repeats itself,
    and the state did not change. -/
theorem DatabaseEventStore.emit_runs {payload : EventPayload} {context : EventContext}
    {idempotencyKey : String} {e : DomainEvent} {D D' : Db}
    (h : (emit payload context idempotencyKey).runs D (.ok (e, D'))) :
    payload.valid = true ∧ e.idempotencyKey = idempotencyKey ∧ e.payload = payload ∧
      ((e ∈ D.domainEvents ∧ D' = D) ∨
        (∃ id now, e = record
            { eventId := id, eventVersion := 1, occurredAt := now
              producer := "commerce-operations", aggregateType := context.aggregateType
              aggregateId := context.aggregateId, aggregateVersion := context.aggregateVersion
              correlationId := context.correlationId, workflowId := context.workflowId
              causationId := context.causationId, idempotencyKey, data := payload }) ∧
          (∀ e' ∈ D.domainEvents, e'.idempotencyKey ≠ idempotencyKey) ∧
          D.domainEvents.conflicts e = false ∧
          D' = Database.apply ⟨.domainEvents, .insert e⟩ D) := by
  obtain ⟨event, D₁, hcreate, h₁⟩ := Prog.runs_bind_ok.mp h
  obtain ⟨_, D₂, hrequire, h₂⟩ := Prog.runs_bind_ok.mp hcreate
  obtain ⟨⟨hvalid, -⟩, rfl⟩ := Tx.runs_require.mp hrequire
  obtain ⟨id, D₃, ⟨env, hid⟩, h₃⟩ := Prog.runs_bind_ok.mp h₂
  obtain ⟨now, D₄, ⟨env', hnow⟩, h₄⟩ := Prog.runs_bind_ok.mp h₃
  cases hid
  cases hnow
  cases h₄
  obtain ⟨existing, D₅, hselect, h₅⟩ := Prog.runs_bind_ok.mp h₁
  obtain ⟨hfind, rfl⟩ := Tx.runs_select.mp hselect
  refine ⟨hvalid, ?_⟩
  cases existing with
  | some existing =>
    dsimp only at h₅
    split at h₅
    · exact nomatch h₅
    · rename_i hsame
      cases h₅
      rw [not_or, not_not, not_not] at hsame
      refine ⟨?_, hsame.2, Or.inl ⟨List.mem_of_find?_eq_some hfind.symm, rfl⟩⟩
      simpa using List.find?_some hfind.symm
  | none =>
    obtain ⟨rfl, hconflicts, rfl⟩ := Prog.runs_insert.mp h₅
    refine ⟨rfl, rfl, Or.inr ⟨⟨_, _, rfl⟩, fun e' he' => ?_, hconflicts, rfl⟩⟩
    simpa using List.find?_eq_none.mp hfind.symm e' he'

/-- An audit entry is a new row, with what the caller gave and an id that was not taken. -/
theorem addAudit_runs {actorType actorId action resourceType : String} {resourceId : Uuid}
    {beforeState afterState : Option Json} {reason : Option String}
    {correlationId : Uuid} {u : Unit}
    {D D' : Db}
    (h : (addAudit actorType actorId action resourceType resourceId beforeState afterState reason
      correlationId).runs D (.ok (u, D'))) :
    ∃ row : AuditEvent, row.action = action ∧ row.resourceType = resourceType ∧
      row.resourceId = resourceId ∧ row.beforeState = beforeState ∧ row.afterState = afterState ∧
        D.auditEvents.conflicts row = false ∧
          D' = Database.apply ⟨.auditEvents, .insert row⟩ D := by
  obtain ⟨id, D₁, ⟨env, hid⟩, h₁⟩ := Prog.runs_bind_ok.mp h
  cases hid
  obtain ⟨row, D₂, hadd, h₂⟩ := Prog.runs_bind_ok.mp h₁
  cases h₂
  obtain ⟨hrow, hconflicts, rfl⟩ := Prog.runs_insert.mp hadd
  subst hrow
  exact ⟨_, rfl, rfl, rfl, rfl, rfl, hconflicts, rfl⟩

/-- An audit entry is a row of the audit trail and nothing else. -/
theorem addAudit_confined {actorType actorId action resourceType : String} {resourceId : Uuid}
    {beforeState afterState : Option Json} {reason : Option String} {correlationId : Uuid} :
    (addAudit actorType actorId action resourceType resourceId beforeState afterState reason
      correlationId).confined [.auditEvents] :=
  Prog.writes_bind (Prog.writes_answer _) fun _ =>
    Prog.writes_bind (Tx.confined_add _ (by decide)) fun _ => trivial

/-- Writing an audit entry spares every table but the trail. -/
theorem addAudit_spares {actorType actorId action resourceType : String} {resourceId : Uuid}
    {beforeState afterState : Option Json} {reason : Option String} {correlationId : Uuid}
    {i : TableName} (hi : i ≠ .auditEvents) :
    (addAudit actorType actorId action resourceType resourceId beforeState afterState reason
      correlationId).spares i :=
  Prog.writes_bind (Prog.writes_answer _) fun _ =>
    Prog.writes_bind (Tx.spares_add _ hi.symm) fun _ => trivial

end CommerceOperations
