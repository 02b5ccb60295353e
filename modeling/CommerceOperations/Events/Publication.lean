/-
  The outbox is written once.

  Any number of clients publish events, under keys of their choice, while others report how the
  delivery of an event went.  What is on record under a key is then, in every interleaving, the
  envelope of the first publication committed under it, and every later one that is not refused
  asked for the same data and got that envelope.

  The crux is that a publication looks for its key and inserts by two statements: between them
  another session may publish under the key, and it is the unique key that lets only one of them in.

  The proof goes by commits.  `publish_commits` says what one publication did to the envelopes on
  record, whatever the others did between its two statements; the reports leave them alone; and the
  run lemma `FirstKept.of_serial` follows a log of such commits from an empty outbox.
-/
import CommerceOperations.Events.Delivery
import CommerceOperations.Relational.Trails

namespace CommerceOperations

open Relational Prog

/-! ## The clients -/

/-- The calls on the outbox: a publication, and the two reports of the processor. -/
inductive OutboxCall where
  /-- `publish`, of any envelope -/
  | publish (event : EventEnvelope)
  /-- `_mark_complete` of the processor -/
  | markComplete (eventId : Uuid)
  /-- `_record_failure` of the processor -/
  | recordFailure (eventId : Uuid) (handlerName : String) (exception : Error)

namespace OutboxCall

/-- The transaction of a call; a publication returns the envelope on record. -/
def run : OutboxCall → Tx (Option EventEnvelope)
  | .publish event => do
    let record ← DatabaseEventStore.publish event
    pure (some (DatabaseEventStore.toEnvelope record))
  | .markComplete eventId => do
    EventProcessor.markComplete eventId
    pure none
  | .recordFailure eventId handlerName exception => do
    EventProcessor.recordFailure eventId handlerName exception
    pure none

/-- The envelope the call publishes under the key. -/
def publishedUnder (key : String) : OutboxCall → Option EventEnvelope
  | .publish event => if event.idempotencyKey = key then some event else none
  | _ => none

section PublishedUnder

variable (key : String)

/-- A publication counts under its own key only. -/
@[simp] theorem publishedUnder_publish (event : EventEnvelope) :
    (publish event).publishedUnder key =
      if event.idempotencyKey = key then some event else none := rfl

/-- A report of success publishes nothing. -/
@[simp] theorem publishedUnder_markComplete (eventId : Uuid) :
    (markComplete eventId).publishedUnder key = none := rfl

/-- A report of failure publishes nothing. -/
@[simp] theorem publishedUnder_recordFailure (eventId : Uuid) (handlerName : String)
    (exception : Error) : (recordFailure eventId handlerName exception).publishedUnder key = none :=
  rfl

end PublishedUnder

end OutboxCall

/-- Any number of clients, each with calls of its choice. -/
def outboxClients :
    Client Db (Write TableName.Entity) DbLock Environment Error (Option EventEnvelope) OutboxCall :=
  Client.ofCalls OutboxCall.run .operationalError

/-- The first envelope published under the key, by the log of the committed calls. -/
def firstUnder (log : List (OutboxCall × Option EventEnvelope)) (key : String) :
    Option EventEnvelope :=
  log.findSome? fun entry => entry.1.publishedUnder key

/-! ## What is on record -/

section OnRecord

variable {D D' : Db} {event event' : EventEnvelope}

/-- Two envelopes on record under one key are one. -/
theorem Db.OnRecord.eq_of_key (h : D.OnRecord event) (h' : D.OnRecord event')
    (hkey : event.idempotencyKey = event'.idempotencyKey) : event = event' := by
  obtain ⟨r, hr, rfl⟩ := h
  obtain ⟨r', hr', rfl⟩ := h'
  have heq : r = r' := by
    refine D.domainEvents.eq_of_unique_mem (Table.mem_of_get hr) (Table.mem_of_get hr')
      (List.mem_cons_self ..) ?_
    show _ ∈ Row.uniques r'
    have hkey : r.idempotencyKey = r'.idempotencyKey := hkey
    rw [hkey]
    exact List.mem_cons_self ..
  rw [heq]

/-- The envelope of a row is on record. -/
theorem Db.onRecord_of_mem {r : DomainEvent} (h : r ∈ D.domainEvents) :
    D.OnRecord (DatabaseEventStore.toEnvelope r) :=
  ⟨r, Table.get_of_mem h, rfl⟩

/-- A new record adds its envelope, and no other. -/
theorem onRecord_insert (hconf : D.domainEvents.conflicts (DatabaseEventStore.record event) = false)
    (x : EventEnvelope) :
    Db.OnRecord (Database.apply ⟨.domainEvents, .insert (DatabaseEventStore.record event)⟩ D) x ↔
      D.OnRecord x ∨ x = event := by
  have htable : Db.domainEvents
      (Database.apply ⟨.domainEvents, .insert (DatabaseEventStore.record event)⟩ D) =
        D.domainEvents.insert (DatabaseEventStore.record event) := Database.apply_table_self ..
  have hget := Table.get_insert hconf
  unfold Db.OnRecord
  rw [htable, hget]
  constructor
  · rintro ⟨r, hr, rfl⟩
    split at hr
    · obtain rfl := Option.some.inj hr
      exact Or.inr rfl
    · exact Or.inl ⟨r, hr, rfl⟩
  · rintro (⟨r, hr, rfl⟩ | rfl)
    · refine ⟨r, ?_, rfl⟩
      -- the id of a row on record is not that of the new one
      have hne := (Table.conflicts_eq_false.mp hconf r (Table.mem_of_get hr)).1
      have hid : r.id = (DatabaseEventStore.toEnvelope r).eventId := rfl
      rw [if_neg fun heq => hne (hid.trans heq.symm)]
      exact hr
    · exact ⟨DatabaseEventStore.record x, if_pos rfl, rfl⟩

/-- A report changes no envelope. -/
theorem Marked.onRecord_iff {eventId : Uuid} {failure : Option String}
    (h : Marked eventId failure D D') (x : EventEnvelope) : D'.OnRecord x ↔ D.OnRecord x :=
  ⟨fun hx => h.onRecord hx, fun hx => h.since.events hx⟩

end OnRecord

/-- The type column of every event is that of its payload.  `publish` compares both, and where they
    agree in all rows the comparison of the type decides nothing. -/
def Db.Typed (D : Db) : Prop := ∀ r ∈ D.domainEvents, r.eventType = r.payload.eventType

/-- A published event has the type of its payload. -/
theorem Db.Typed.insert {D : Db} {event : EventEnvelope} (h : D.Typed)
    (hconf : D.domainEvents.conflicts (DatabaseEventStore.record event) = false) :
    Db.Typed (Database.apply ⟨.domainEvents, .insert (DatabaseEventStore.record event)⟩ D) := by
  intro r hr
  have htable : Db.domainEvents
      (Database.apply ⟨.domainEvents, .insert (DatabaseEventStore.record event)⟩ D) =
        D.domainEvents.insert (DatabaseEventStore.record event) := Database.apply_table_self ..
  rw [htable, Table.mem_insert hconf] at hr
  rcases hr with hr | rfl
  · exact h r hr
  · rfl

/-- A mark leaves the type and the payload of its event. -/
theorem Marked.typed {D D' : Db} {eventId : Uuid} {failure : Option String}
    (h : Marked eventId failure D D') (hD : D.Typed) : D'.Typed := by
  intro r hr
  have hget : D'.domainEvents.get r.id = some r := Table.get_of_mem hr
  by_cases hid : r.id = eventId
  · obtain ⟨old, hold, hnew⟩ := h.attempted
    rw [hid, hnew] at hget
    obtain rfl := Option.some.inj hget
    exact hD old (Table.mem_of_get hold)
  · rw [h.others hid] at hget
    exact hD r (Table.mem_of_get hget)

/-! ## Commits -/

/-- The commit relation of a call.  A publication got an envelope with its key and data, which was
    on record before or is its own; a report leaves the envelopes as they are. -/
def OutboxCall.Committed : OutboxCall → Option EventEnvelope → Db → Db → Prop
  | .publish event, a, D, D' => ∃ e : EventEnvelope, a = some e ∧
      e.idempotencyKey = event.idempotencyKey ∧ e.data = event.data ∧
      (D.OnRecord e ∨ (e = event ∧ ∀ x, D.OnRecord x → x.idempotencyKey ≠ event.idempotencyKey)) ∧
      ∀ x, D'.OnRecord x ↔ D.OnRecord x ∨ x = e
  | _, _, D, D' => ∀ x, D'.OnRecord x ↔ D.OnRecord x

/-- No call takes an envelope off the record. -/
theorem OutboxCall.Committed.grows {c : OutboxCall} {a : Option EventEnvelope} {D D' : Db}
    (h : c.Committed a D D') {x : EventEnvelope} (hx : D.OnRecord x) : D'.OnRecord x := by
  cases c with
  | publish event =>
    obtain ⟨e, -, -, -, -, hiff⟩ := h
    exact (hiff x).mpr (Or.inl hx)
  | markComplete eventId => exact (h x).mpr hx
  | recordFailure eventId handlerName exception => exact (h x).mpr hx

section Commits

variable {past : Db → Prop} {D : Db} {tr : Trail (Write TableName.Entity) DbLock}

/-- **A publication** found its data on record under its key, or added the envelope.  The read may
    see an older state than the commit, so in the first case the row found is on record because rows
    stay, and in the second nobody has the key at the commit because the insert was not refused. -/
theorem DatabaseEventStore.publish_commits {event : EventEnvelope} {record : DomainEvent}
    (hpast : ∀ D₁, past D₁ → ∀ x, D₁.OnRecord x → D.OnRecord x)
    (h : (publish event).sees past D .start record tr) :
    (OutboxCall.publish event).Committed (some (toEnvelope record)) D (tr.on D) ∧
      (D.Typed → Db.Typed (tr.on D)) := by
  obtain ⟨existing, tr₁, hselect, h₁⟩ := sees_bind.mp h
  obtain ⟨rfl, D₁, hD₁, -, -, hexisting⟩ := sees_query hselect
  cases existing with
  | some existing =>
    dsimp only at h₁
    split at h₁
    · exact h₁.elim
    · rename_i hsame
      rw [not_or, not_not, not_not] at hsame
      obtain ⟨rfl, rfl⟩ := h₁
      have hmem : existing ∈ D₁.domainEvents := List.mem_of_find?_eq_some hexisting
      have hkey : existing.idempotencyKey = event.idempotencyKey := by
        simpa using List.find?_some hexisting
      have honRecord := hpast D₁ hD₁ _ (Db.onRecord_of_mem hmem)
      refine ⟨⟨_, rfl, hkey, hsame.2, Or.inl honRecord, fun x => ⟨Or.inl, ?_⟩⟩, fun hD => hD⟩
      rintro (hx | rfl)
      · exact hx
      · exact honRecord
  | none =>
    obtain ⟨rfl, hconf, hwrites⟩ := sees_insert h₁
    have hon : tr.on D =
        Database.apply ⟨.domainEvents, .insert (DatabaseEventStore.record event)⟩ D :=
      on_of_writes hwrites D
    refine ⟨⟨event, rfl, rfl, rfl, Or.inr ⟨rfl, fun x hx hkey => ?_⟩, fun x => ?_⟩, fun hD => ?_⟩
    · -- the key would be taken
      obtain ⟨r, hr, rfl⟩ := hx
      have hkey : r.idempotencyKey = event.idempotencyKey := hkey
      refine (Table.conflicts_eq_false.mp hconf r (Table.mem_of_get hr)).2
        ⟨.eventIdempotencyKey, [.text event.idempotencyKey]⟩ ?_ (List.mem_cons_self ..)
      show _ ∈ Row.uniques r
      rw [← hkey]
      exact List.mem_cons_self ..
    · rw [hon]
      exact onRecord_insert hconf x
    · rw [hon]
      exact hD.insert hconf

/-- A failure is reported of an event on record, or nothing is. -/
theorem EventProcessor.recordFailure_marks {eventId : Uuid} {handlerName : String}
    {exception : Error} {u : Unit}
    (h : (recordFailure eventId handlerName exception).sees past D .start u tr) :
    tr.on D = D ∨ ∃ failure, Marked eventId failure D (tr.on D) := by
  obtain ⟨record, tr₁, hselect, h₁⟩ := sees_bind.mp h
  obtain ⟨rfl, D₁, hD₁, hearlier, -, hrecord⟩ := sees_query hselect
  cases record with
  | none =>
    obtain ⟨-, rfl⟩ := h₁
    exact Or.inl rfl
  | some r =>
    obtain ⟨row, tr₂, hflush, h₂⟩ := sees_bind.mp h₁
    obtain ⟨-, rfl⟩ := h₂
    have hid : r.id = eventId := Table.key_of_get hrecord
    subst hid
    exact Or.inr ⟨_, flush_marks hrecord hearlier hflush⟩

/-- **Step lemma.**  Every call commits by its relation. -/
theorem OutboxCall.run_commits {c : OutboxCall} {a : Option EventEnvelope}
    (hpast : ∀ D₁, past D₁ → ∀ x, D₁.OnRecord x → D.OnRecord x)
    (h : c.run.sees past D .start a tr) :
    c.Committed a D (tr.on D) ∧ (D.Typed → Db.Typed (tr.on D)) := by
  cases c with
  | publish event =>
    obtain ⟨record, tr₁, hpublish, h₁⟩ := sees_bind.mp h
    obtain ⟨rfl, rfl⟩ := h₁
    exact DatabaseEventStore.publish_commits hpast hpublish
  | markComplete eventId =>
    obtain ⟨u, tr₁, hmark, h₁⟩ := sees_bind.mp h
    obtain ⟨rfl, rfl⟩ := h₁
    have hmarked := EventProcessor.markComplete_commits hmark
    exact ⟨hmarked.onRecord_iff, hmarked.typed⟩
  | recordFailure eventId handlerName exception =>
    obtain ⟨u, tr₁, hrecord, h₁⟩ := sees_bind.mp h
    obtain ⟨rfl, rfl⟩ := h₁
    rcases EventProcessor.recordFailure_marks hrecord with heq | ⟨failure, hmarked⟩
    · rw [heq]
      exact ⟨fun x => Iff.rfl, fun hD => hD⟩
    · exact ⟨hmarked.onRecord_iff, hmarked.typed⟩

end Commits

/-- What is on record stays there.  This is all the clients need to know of each other. -/
def outboxProtocol {D₀ : Db} (h₀ : D₀.Typed) : Protocol outboxClients D₀ where
  inv := Db.Typed
  knows _ _ := True
  since D₁ D := ∀ x, D₁.OnRecord x → D.OnRecord x
  rel c a D D' := c.Committed a D D' ∧ (D.Typed → D'.Typed)
  since_refl _ _ hx := hx
  since_rel _ hsince hrel x hx := hrel.1.grows (hsince x hx)
  commits _ _ hsees := OutboxCall.run_commits (fun _ hD₁ => hD₁.1) hsees
  inv_start := h₀
  inv_next hD _ hrel := hrel.2 hD
  knows_start _ := trivial
  knows_other _ _ _ := trivial
  knows_ok _ _ _ _ := trivial
  knows_error _ _ _ := trivial

/-! ## The first publication -/

/-- What is on record is what was published first, and every publication got it. -/
structure FirstKept (log : List (OutboxCall × Option EventEnvelope)) (D : Db) : Prop where
  /-- an envelope is on record exactly if it was the first under its key -/
  record : ∀ e : EventEnvelope, D.OnRecord e ↔ firstUnder log e.idempotencyKey = some e
  /-- every publication was answered with that first envelope -/
  answers : ∀ {event a}, (OutboxCall.publish event, a) ∈ log →
    ∃ first, firstUnder log event.idempotencyKey = some first ∧ a = some first ∧
      first.data = event.data

/-- One more call matters under a key only if no earlier one published under it. -/
theorem firstUnder_append (log : List (OutboxCall × Option EventEnvelope)) (c : OutboxCall)
    (a : Option EventEnvelope) (key : String) :
    firstUnder (log ++ [(c, a)]) key = (firstUnder log key).or (c.publishedUnder key) := by
  have hlast : [(c, a)].findSome? (fun entry => entry.1.publishedUnder key) =
      c.publishedUnder key := by
    rw [List.findSome?_cons]
    cases c.publishedUnder key <;> rfl
  unfold firstUnder
  rw [List.findSome?_append, hlast]

/-- What was published under a key has the key. -/
theorem key_of_firstUnder {log : List (OutboxCall × Option EventEnvelope)} {key : String}
    {e : EventEnvelope} (h : firstUnder log key = some e) : e.idempotencyKey = key := by
  obtain ⟨entry, -, hentry⟩ := List.exists_of_findSome?_eq_some h
  unfold OutboxCall.publishedUnder at hentry
  split at hentry
  · split at hentry
    · obtain rfl := Option.some.inj hentry
      assumption
    · cases hentry
  · cases hentry

/-- **Run lemma.**  By induction on the committed calls.  A report changes neither side.  A
    publication under a key in use got the first envelope and is no first one itself; under a fresh
    key it is both on record and first. -/
theorem FirstKept.of_serial {D₀ D : Db} {log : List (OutboxCall × Option EventEnvelope)}
    (h₀ : D₀.domainEvents = ∅) (h : Serial OutboxCall.Committed D₀ log D) : FirstKept log D := by
  induction h with
  | nil =>
    refine ⟨fun e => ⟨?_, fun h => by cases h⟩, fun h => absurd h List.not_mem_nil⟩
    rintro ⟨r, hr, -⟩
    have hmem := Table.mem_of_get hr
    rw [h₀] at hmem
    exact absurd hmem (Table.not_mem_empty r)
  | @snoc log D c a D' h hc ih =>
    have hrecord : ∀ e : EventEnvelope,
        D'.OnRecord e ↔ firstUnder (log ++ [(c, a)]) e.idempotencyKey = some e := by
      intro e
      rw [firstUnder_append]
      cases c with
      | markComplete eventId =>
        rw [OutboxCall.publishedUnder_markComplete, Option.or_none]
        exact (hc e).trans (ih.record e)
      | recordFailure eventId handlerName exception =>
        rw [OutboxCall.publishedUnder_recordFailure, Option.or_none]
        exact (hc e).trans (ih.record e)
      | publish event =>
        obtain ⟨e₀, -, hkey, -, hwhich, hiff⟩ := hc
        rw [hiff e]
        -- under the key, the log has nothing or what is on record
        have hnew : firstUnder log event.idempotencyKey = none → e₀ = event := by
          intro hnone
          rcases hwhich with hold | ⟨rfl, -⟩
          · have hfirst := (ih.record e₀).mp hold
            rw [hkey, hnone] at hfirst
            cases hfirst
          · rfl
        have hold : ∀ x, firstUnder log event.idempotencyKey = some x → e₀ = x := by
          intro x hx
          have hxkey := key_of_firstUnder hx
          have honRecord : D.OnRecord x := (ih.record x).mpr (by rw [hxkey]; exact hx)
          rcases hwhich with hold | ⟨-, hfresh⟩
          · exact hold.eq_of_key honRecord (hkey.trans hxkey.symm)
          · exact absurd hxkey (hfresh x honRecord)
        rw [OutboxCall.publishedUnder_publish]
        by_cases he : event.idempotencyKey = e.idempotencyKey
        · rw [if_pos he, ih.record e, ← he]
          cases hlog : firstUnder log event.idempotencyKey with
          | none => simp [hnew hlog, eq_comm]
          | some x => simp [hold x hlog, eq_comm]
        · have hne : e ≠ e₀ := by
            rintro rfl
            exact he hkey.symm
          rw [if_neg he, Option.or_none, ih.record e, or_iff_left hne]
    refine ⟨hrecord, fun {event b} hb => ?_⟩
    rcases List.mem_append.mp hb with hb | hb
    · obtain ⟨first, hfirst, hanswer, hdata⟩ := ih.answers hb
      refine ⟨first, ?_, hanswer, hdata⟩
      rw [firstUnder_append, hfirst, Option.some_or]
    · obtain ⟨rfl, rfl⟩ := Prod.mk.inj (List.mem_singleton.mp hb)
      obtain ⟨e₀, rfl, hkey, hdata, -, hiff⟩ := hc
      refine ⟨e₀, ?_, rfl, hdata⟩
      rw [← hkey]
      exact (hrecord e₀).mp ((hiff e₀).mpr (Or.inr rfl))

section Clients

variable {D₀ : Db} {sys : System Db (Write TableName.Entity) DbLock Environment Error
  (Option EventEnvelope) OutboxCall}

/-- A read, and then what is done with the value read. -/
theorem Tx.runs_select_bind {α β : Type} {f : Db → α} {k : α → Tx β} {D : Db}
    {r : Except Error (β × Db)} : (Tx.select f >>= k).runs D r ↔ (k (f D)).runs D r :=
  Iff.rfl

/-- What a publication gives when an envelope is on record under its key: that envelope, or a
    conflict; either way the state is as it was. -/
theorem OutboxCall.publish_runs {D : Db} {event first : EventEnvelope} (htyped : D.Typed)
    (hfirst : D.OnRecord first) (hkey : first.idempotencyKey = event.idempotencyKey)
    {r : Except Error (Option EventEnvelope × Db)}
    (h : (OutboxCall.publish event).run.runs D r) :
    r = if first.data = event.data then .ok (some first, D) else
      .error (.raised .eventConflictError
        s!"Idempotency key '{event.idempotencyKey}' was reused for another event") := by
  cases hfind : D.domainEvents.rows.find? fun r => r.idempotencyKey = event.idempotencyKey with
  | none =>
    obtain ⟨row, hrow, rfl⟩ := hfirst
    have hno := List.find?_eq_none.mp hfind row (Table.mem_of_get hrow)
    have hkey : row.idempotencyKey = event.idempotencyKey := hkey
    simp [hkey] at hno
  | some row =>
    have hmem : row ∈ D.domainEvents := List.mem_of_find?_eq_some hfind
    have hrowKey : row.idempotencyKey = event.idempotencyKey := by
      simpa using List.find?_some hfind
    have heq : DatabaseEventStore.toEnvelope row = first :=
      (Db.onRecord_of_mem hmem).eq_of_key hfirst (hrowKey.trans hkey.symm)
    have hdata : row.payload = first.data := congrArg EventEnvelope.data heq
    -- the read decides
    have hread : ((if row.eventType ≠ event.data.eventType ∨ row.payload ≠ event.data then
          Tx.throw .eventConflictError
            s!"Idempotency key '{event.idempotencyKey}' was reused for another event"
        else pure row : Tx DomainEvent) >>= fun record =>
          pure (some (DatabaseEventStore.toEnvelope record))).runs D r := by
      simpa only [OutboxCall.run, DatabaseEventStore.publish, bind_assoc, Tx.runs_select_bind,
        hfind] using h
    by_cases hsame : first.data = event.data
    · have htype : row.eventType = event.data.eventType := by
        rw [htyped row hmem, hdata, hsame]
      rw [if_neg (by simp [htype, hdata, hsame])] at hread
      rw [if_pos hsame, ← heq]
      exact hread
    · rw [if_pos (Or.inr (by rw [hdata]; exact hsame))] at hread
      rw [if_neg hsame]
      exact hread

/-- **The outbox is write-once.**  In every reachable state the envelopes on record are, key by key,
    those of the first publication committed; a publication that was committed asked for their
    data, whatever else it said, and got that envelope.  So will the next one under a key in use,
    or it is refused and changes nothing. -/
theorem outbox_is_write_once (h₀ : D₀.domainEvents = ∅)
    (h : System.Reachable outboxClients D₀ sys) :
    (∀ e : EventEnvelope,
      sys.committed.OnRecord e ↔ firstUnder sys.log e.idempotencyKey = some e) ∧
      (∀ event a, (OutboxCall.publish event, a) ∈ sys.log →
        ∃ first, firstUnder sys.log event.idempotencyKey = some first ∧ a = some first ∧
          first.data = event.data) ∧
      ∀ event first, firstUnder sys.log event.idempotencyKey = some first →
        ∀ r, (OutboxCall.publish event).run.runs sys.committed r →
          r = if first.data = event.data then .ok (some first, sys.committed) else
            .error (.raised .eventConflictError
              s!"Idempotency key '{event.idempotencyKey}' was reused for another event") := by
  have htyped₀ : D₀.Typed := by
    intro r hr
    rw [h₀] at hr
    exact absurd hr (Table.not_mem_empty r)
  have hupheld := h.upheld (outboxProtocol htyped₀)
  have hkept := FirstKept.of_serial h₀ (hupheld.serial.mono fun _ _ _ _ hrel => hrel.1)
  refine ⟨hkept.record, fun event a ha => hkept.answers ha, fun event first hfirst r hr => ?_⟩
  have hkey := key_of_firstUnder hfirst
  refine OutboxCall.publish_runs hupheld.inv ?_ hkey hr
  rw [hkept.record, hkey]
  exact hfirst

end Clients

/-- The same amount written in two ways makes two payloads: published under one key, the second is
    refused. -/
example :
    EventPayload.refundRequested (Uuid.ofNat 1) (Uuid.ofNat 2) ⟨false, 50, 0⟩ "EUR" ≠
      .refundRequested (Uuid.ofNat 1) (Uuid.ofNat 2) ⟨false, 500, -1⟩ "EUR" := by decide

/-- An envelope that says an order was received. -/
def firstEnvelope : EventEnvelope :=
  { eventId := Uuid.ofNat 1, eventVersion := 1, occurredAt := 0
    producer := "commerce-operations", aggregateType := "order", aggregateId := Uuid.ofNat 2
    aggregateVersion := 1, correlationId := Uuid.ofNat 3, workflowId := none, causationId := none
    idempotencyKey := "order-received:2"
    data := .orderReceived (Uuid.ofNat 2) "ebay" "o-1" }

/-- An outbox in which nothing is stored. -/
def emptyOutbox : Db where
  table _ := ∅

/-- Published a second time, the event has the id of the first time. -/
theorem outbox_is_write_once_sample :
    ∃ sys, System.Reachable outboxClients emptyOutbox sys ∧ sys.committed.OnRecord firstEnvelope ∧
      firstUnder sys.log "order-received:2" = some firstEnvelope ∧
      ∀ r, (OutboxCall.publish { firstEnvelope with eventId := Uuid.ofNat 9 }).run.runs
        sys.committed r → r = .ok (some firstEnvelope, sys.committed) := by
  obtain ⟨sys, h, hD⟩ := System.Reachable.sequential Environment.numbered
    (OutboxCall.publish firstEnvelope) [.publish { firstEnvelope with eventId := Uuid.ofNat 9 }]
    emptyOutbox
  obtain ⟨hrecord, -, hnext⟩ := outbox_is_write_once rfl h
  have hget : sys.committed.domainEvents.get (Uuid.ofNat 1) =
      some (DatabaseEventStore.record firstEnvelope) := by
    rw [hD]
    decide
  have honRecord : sys.committed.OnRecord firstEnvelope := ⟨_, hget, rfl⟩
  have hfirst : firstUnder sys.log "order-received:2" = some firstEnvelope :=
    (hrecord firstEnvelope).mp honRecord
  exact ⟨sys, h, honRecord, hfirst, fun r hr => hnext _ firstEnvelope hfirst r hr⟩

end CommerceOperations
