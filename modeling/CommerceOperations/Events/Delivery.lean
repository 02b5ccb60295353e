/-
  The delivery of events: any number of processors, workers and other clients at once.

  A client takes the transactions of `EventProcessor.process` and `Worker.run_once` one by one; its
  `Position` says which comes next and what it has to go on with.  The transactions of all clients
  interleave statement by statement, callbacks fail as they like, and a client may crash at any
  point.  Everything the callbacks and the other clients may do is in `Quiet`: they may add events
  that wait for their first attempt, and leave the receipts and the events on record alone.

  The clients keep a protocol.  A handler's transaction either found a receipt that is still there,
  or added the only one; a client that marks an event has seen the receipts of all its handlers.

  The file is in four parts.

  1. **Who takes part**: `Site`, `Position` and the transaction of each position.
  2. **What a commit has done**: the relations `Ran` and `Marked`, and `Committed`, which gives each
     position its own.
  3. **That it has done so**: one lemma for each transaction of the source, about a run whose
     statements see the database while others write to it.  What makes these provable is that the
     reads need not be repeatable: it is enough that what was once on record stays (`Since`).
  4. **The protocol**: what a client knows in a position (`Knows`) outlives the commits of the
     others, and every commit keeps the outbox `Settled`.
-/
import CommerceOperations.Events.Handlers
import CommerceOperations.Relational.Trails
import CommerceOperations.Relational.Database

namespace CommerceOperations

open Relational

/-! ## What the others may do -/

/-- The event was not attempted yet.  Events are added like this, by `record`. -/
def DomainEvent.Unattempted (r : DomainEvent) : Prop :=
  r.publicationStatus = .pending ∧ r.processingAttempts = 0 ∧ r.lastError = none

/-- A write that adds an unattempted event, or is about neither events nor receipts.  Callbacks may
    publish, which is why a new event is allowed. -/
def Quiet : Write TableName.Entity → Prop
  | ⟨.eventHandlerReceipts, _⟩ => False
  | ⟨.domainEvents, .insert row⟩ => row.Unattempted
  | ⟨.domainEvents, .update _ _⟩ => False
  | _ => True

/-- A transaction of quiet writes.  What it raises does not matter, since a transaction that raises
    commits nothing. -/
abbrev Tx.quiet {α : Type} (p : Tx α) : Prop := p.writes Quiet fun _ => False

/-- A transaction that writes neither events nor receipts is quiet: most callbacks are of this
    kind, and those that emit events add them unattempted. -/
theorem Tx.quiet_of_confined {α : Type} {p : Tx α} {tables : List TableName}
    (h : p.confined tables) (hevents : .domainEvents ∉ tables)
    (hreceipts : .eventHandlerReceipts ∉ tables) : p.quiet := by
  refine Prog.writes_mono h (fun w hw => ?_) fun _ he => he.elim
  obtain ⟨i, w⟩ := w
  cases i
  case domainEvents => exact (hevents hw).elim
  case eventHandlerReceipts => exact (hreceipts hw).elim
  all_goals exact trivial

/-- The events on record stay as they are, and what is new was not attempted yet. -/
structure Silent (D D' : Db) : Prop where
  /-- an event on record keeps its row, attempts and all -/
  stays : ∀ {e r}, D.domainEvents.get e = some r → D'.domainEvents.get e = some r
  /-- an event that is new was not attempted -/
  fresh : ∀ {e r}, D.domainEvents.get e = none → D'.domainEvents.get e = some r → r.Unattempted

namespace Silent

/-- Where nothing happens, the events stay. -/
theorem refl (D : Db) : Silent D D :=
  ⟨fun h => h, fun h h' => absurd (h.symm.trans h') (by simp)⟩

/-- One quiet time after another is a quiet time: an event that was new in the first may be there
    still, unattempted, and stays in the second. -/
theorem trans {D D' D'' : Db} (h : Silent D D') (h' : Silent D' D'') : Silent D D'' := by
  refine ⟨fun hr => h'.stays (h.stays hr), fun {e r} hnone hr => ?_⟩
  cases he : D'.domainEvents.get e with
  | none => exact h'.fresh he hr
  | some r' =>
    have heq := Option.some.inj ((h'.stays he).symm.trans hr)
    exact heq ▸ h.fresh hnone he

/-- The table of events is as it was. -/
theorem of_eq {D D' : Db} (h : D'.domainEvents = D.domainEvents) : Silent D D' := by
  refine ⟨fun hr => by rw [h]; exact hr, fun hnone hr => ?_⟩
  rw [h, hnone] at hr
  cases hr

/-- A new event is silent: neither a receipt nor a mark is about it. -/
theorem insert {D : Db} {row : DomainEvent} (hrow : row.Unattempted)
    (hconf : D.domainEvents.conflicts row = false) :
    Silent D (Database.apply ⟨.domainEvents, .insert row⟩ D) := by
  have htable : Db.domainEvents (Database.apply ⟨.domainEvents, .insert row⟩ D) =
      D.domainEvents.insert row := Database.apply_table_self ..
  refine ⟨fun {e r} hr => ?_, fun {e r} hnone hr => ?_⟩
  · rw [htable, Table.get_insert hconf]
    have hne : Row.key row ≠ e := by
      intro he
      refine (Table.conflicts_eq_false.mp hconf r (Table.mem_of_get hr)).1 ?_
      rw [Table.key_of_get hr, he]
    rw [if_neg hne]
    exact hr
  · rw [htable, Table.get_insert hconf] at hr
    split at hr
    · obtain rfl := Option.some.inj hr
      exact hrow
    · rw [hnone] at hr
      cases hr

end Silent

/-- The receipts are as before, and the events silent. -/
def Untouched (D D' : Db) : Prop :=
  D'.eventHandlerReceipts = D.eventHandlerReceipts ∧ Silent D D'

namespace Untouched

/-- Where nothing happens, nothing is touched. -/
theorem refl (D : Db) : Untouched D D := ⟨rfl, Silent.refl D⟩

/-- An event that is untouched from a state to a second one, and from there to a third, is untouched
    throughout. -/
theorem trans {D D' D'' : Db} (h : Untouched D D') (h' : Untouched D' D'') : Untouched D D'' :=
  ⟨h'.1.trans h.1, h.2.trans h'.2⟩

/-- A quiet write touches nothing.  By the table it is about: the receipts are excluded, an insert
    into the events is silent, and every other write is to a table that neither part looks at. -/
theorem apply (w : Write TableName.Entity) (D : Db) (hw : Quiet w) :
    Untouched D (Database.apply w D) := by
  obtain ⟨i, w⟩ := w
  by_cases hi : i = .eventHandlerReceipts
  · subst hi
    exact hw.elim
  · have hreceipts : Db.eventHandlerReceipts (Database.apply ⟨i, w⟩ D) = D.eventHandlerReceipts :=
      Database.apply_table_of_ne ⟨i, w⟩ D (Ne.symm hi)
    refine ⟨hreceipts, ?_⟩
    by_cases hi' : i = .domainEvents
    · subst hi'
      cases w with
      | update old new => exact hw.elim
      | insert row =>
        cases hconf : D.domainEvents.conflicts row with
        | false => exact Silent.insert hw hconf
        | true =>
          refine Silent.of_eq ?_
          exact (Database.apply_table_self ..).trans (Table.insert_of_conflict hconf)
    · exact Silent.of_eq (Database.apply_table_of_ne ⟨i, w⟩ D (Ne.symm hi'))

end Untouched

/-- Among others, a quiet transaction touches nothing. -/
theorem Tx.ensures_of_quiet {α : Type} {p : Tx α} (h : p.quiet) (pt : Point Db DbLock) :
    p.ensures (fun _ => False) pt fun _ pt' => Untouched pt.view pt'.view :=
  Prog.ensures_of_writes Untouched.refl Untouched.trans Untouched.apply h pt

/-! ## The clients -/

/-- The transactions at a site: a registry of handlers, the batches of its workers, their retry
    pass, and what other clients run.  The three proofs say that all of it is quiet.  They are part
    of the structure, so that a site whose callback marks events or adds receipts cannot be given.
    -/
structure Site (ω : Type) where
  /-- the handlers of the application, under unique names -/
  registry : EventHandlerRegistry
  /-- the limit of `pending` -/
  batchSize : Nat
  /-- the types a worker asks for -/
  eventTypes : List EventType
  /-- what a worker runs when its batch is done -/
  retryDue : Tx Unit
  /-- the transactions of everyone else -/
  tx : ω → Tx Unit
  callbacks_quiet : ∀ handler ∈ registry.handlers, ∀ event, (handler.callback event).quiet
  retryDue_quiet : retryDue.quiet
  tx_quiet : ∀ t, (tx t).quiet

/-- Where a client stands.  A worker has the events `rest` before it; the handlers `done` of the
    event are through, and `todo` follow. -/
inductive Position (ω : Type) where
  /-- nothing is under way -/
  | idle
  /-- a worker asks for the next events -/
  | poll
  /-- `process` looks up the event -/
  | lookUp (eventId : Uuid) (rest : List Uuid)
  /-- the transaction of one handler -/
  | handle (event : EventEnvelope) (done : List RegisteredHandler) (handler : RegisteredHandler)
      (todo : List RegisteredHandler) (rest : List Uuid)
  /-- the handler raised, and this is to be reported -/
  | recordFailure (eventId : Uuid) (handlerName : String) (exception : Error) (rest : List Uuid)
  /-- all handlers are through -/
  | markComplete (eventId : Uuid) (rest : List Uuid)
  /-- the retry pass of a worker -/
  | retry
  /-- a transaction of someone else -/
  | other (t : ω)

/-- What the transaction of a position returns. -/
inductive Outcome where
  | nothing
  | polled (eventIds : List Uuid)
  | found (event : EventEnvelope)
  | handled (ran : Bool)

variable {ω : Type}

namespace Position

/-- `process`, once the handlers `done` are through. -/
def proceed (event : EventEnvelope) (done todo : List RegisteredHandler) (rest : List Uuid) :
    Position ω :=
  match todo with
  | [] => markComplete event.eventId rest
  | handler :: todo => handle event done handler todo rest

/-- `run_once` after an event: the next one, or the retry pass.  A client that asked for the one
    event is done with it. -/
def Following (rest : List Uuid) (c : Position ω) : Prop :=
  match rest with
  | [] => c = retry ∨ c = idle
  | eventId :: rest => c = lookUp eventId rest

end Position

namespace Site

/-- The transaction of a position. -/
def call (site : Site ω) : Position ω → Tx Outcome
  | .idle => pure .nothing
  | .poll => do
    let records ← DatabaseEventStore.pending site.batchSize (some site.eventTypes)
    pure (.polled (records.map (·.id)))
  | .lookUp eventId _ => do
    let event ← EventProcessor.lookUp eventId
    pure (.found event)
  | .handle event _ handler _ _ => do
    let ran ← EventProcessor.processHandler event.eventId handler
    pure (.handled ran)
  | .recordFailure eventId handlerName exception _ => do
    EventProcessor.recordFailure eventId handlerName exception
    pure .nothing
  | .markComplete eventId _ => do
    EventProcessor.markComplete eventId
    pure .nothing
  | .retry => do
    site.retryDue
    pure .nothing
  | .other t => do
    site.tx t
    pure .nothing

/-- Where a client goes from there.  An exception in a handler is recorded; every other exception
    leaves `process` and `run_once`. -/
def next (site : Site ω) : Position ω → Except Error Outcome → Position ω → Prop
  | .idle, .ok _, c => c = .poll ∨ (∃ eventId, c = .lookUp eventId []) ∨ ∃ t, c = .other t
  | .poll, .ok (.polled eventIds), c => Position.Following eventIds c
  | .lookUp _ rest, .ok (.found event), c =>
    c = Position.proceed event [] (site.registry.handlersFor event.data.type) rest
  | .handle event done handler todo rest, .ok (.handled _), c =>
    c = Position.proceed event (done ++ [handler]) todo rest
  | .handle event _ handler _ rest, .error e, c =>
    c = .recordFailure event.eventId handler.name e rest ∨ c = .idle
  | .recordFailure _ _ _ rest, .ok _, c => Position.Following rest c
  | .markComplete _ rest, .ok _, c => Position.Following rest c
  | _, _, c => c = .idle

/-- The clients of a site; a lost connection is their fault. -/
def client (site : Site ω) :
    Client Db (Write TableName.Entity) DbLock Environment Error Outcome (Position ω) where
  start c := c = .idle
  call := site.call
  next := site.next
  fault := .operationalError

end Site

/-! ## What is on record -/

/-- The event of an envelope is in the outbox. -/
def Db.OnRecord (D : Db) (event : EventEnvelope) : Prop :=
  ∃ r, D.domainEvents.get event.eventId = some r ∧ DatabaseEventStore.toEnvelope r = event

/-- There is a receipt of the handler for the event. -/
def Db.HasReceipt (D : Db) (eventId : Uuid) (handlerName : String) : Prop :=
  ∃ receipt ∈ D.eventHandlerReceipts, EventProcessor.isReceipt eventId handlerName receipt = true

/-- What was on record in `D₁` is on record in `D`.  This is the relation between any committed
    state and a later one, and all that a transaction knows of how its reads relate to its commit.
    -/
structure Since (D₁ D : Db) : Prop where
  /-- envelopes stay as they are, whatever happens to the bookkeeping of their rows -/
  events : ∀ {event}, D₁.OnRecord event → D.OnRecord event
  /-- receipts are never taken back -/
  receipts : ∀ {receipt}, receipt ∈ D₁.eventHandlerReceipts → receipt ∈ D.eventHandlerReceipts

namespace Since

/-- What is on record is on record. -/
theorem refl (D : Db) : Since D D := ⟨fun h => h, fun h => h⟩

/-- Silence lasts: it holds across three states, if it holds from each to the next. -/
theorem trans {D D' D'' : Db} (h : Since D D') (h' : Since D' D'') : Since D D'' :=
  ⟨fun he => h'.events (h.events he), fun hr => h'.receipts (h.receipts hr)⟩

/-- A receipt, once there, is there later. -/
theorem hasReceipt {D D' : Db} (h : Since D D') {eventId : Uuid} {handlerName : String}
    (hr : D.HasReceipt eventId handlerName) : D'.HasReceipt eventId handlerName := by
  obtain ⟨receipt, hmem, hreceipt⟩ := hr
  exact ⟨receipt, h.receipts hmem, hreceipt⟩

/-- A quiet time in which receipts are only added loses nothing. -/
theorem of_silent {D D' : Db} (h : Silent D D')
    (hreceipts : ∀ {receipt}, receipt ∈ D.eventHandlerReceipts →
      receipt ∈ D'.eventHandlerReceipts) : Since D D' := by
  refine ⟨fun {event} he => ?_, hreceipts⟩
  obtain ⟨r, hr, heq⟩ := he
  exact ⟨r, h.stays hr, heq⟩

/-- A time in which nothing is touched loses nothing. -/
theorem of_untouched {D D' : Db} (h : Untouched D D') : Since D D' :=
  of_silent h.2 fun hr => by rw [h.1]; exact hr

end Since

/-- Two envelopes on record with one id are one, for the id is the key of the outbox. -/
theorem Db.OnRecord.eq_of_eventId {D : Db} {event event' : EventEnvelope} (h : D.OnRecord event)
    (h' : D.OnRecord event') (hid : event.eventId = event'.eventId) : event = event' := by
  obtain ⟨r, hr, rfl⟩ := h
  obtain ⟨r', hr', heq⟩ := h'
  rw [← hid, hr] at hr'
  rw [Option.some.inj hr']
  exact heq

/-- A row after a quiet time was there before, or is new. -/
theorem Silent.row {D D' : Db} (h : Silent D D') {e : Uuid} {r : DomainEvent}
    (hr : D'.domainEvents.get e = some r) :
    D.domainEvents.get e = some r ∨ (D.domainEvents.get e = none ∧ r.Unattempted) := by
  cases he : D.domainEvents.get e with
  | none => exact Or.inr ⟨rfl, h.fresh he hr⟩
  | some r' => exact Or.inl ((h.stays he).symm.trans hr)

/-- An envelope after a quiet time was on record before, or its id was not. -/
theorem Silent.onRecord {D D' : Db} (h : Silent D D') {event : EventEnvelope}
    (hevent : D'.OnRecord event) :
    D.OnRecord event ∨ D.domainEvents.get event.eventId = none := by
  obtain ⟨r, hr, heq⟩ := hevent
  rcases h.row hr with hold | ⟨hnone, -⟩
  · exact Or.inl ⟨r, hold, heq⟩
  · exact Or.inr hnone

/-! ## What the commits do -/

/-- The callback ran on the event in the transaction that makes `D` into `D'`.

    It runs after the receipt is added and before the commit.  Each of its statements sees a state
    that was committed by then, with the receipt and its own writes on it; the receipt and these
    writes are all that the transaction wrote, so what the callback did is what `D'` has and `D`
    has not. -/
def CallbackRan (event : EventEnvelope) (handler : RegisteredHandler)
    (receipt : EventHandlerReceipt) (D D' : Db) : Prop :=
  ∃ held tr, (handler.callback event).sees (fun D₁ => Since D₁ D) D
    ⟨held, [⟨.eventHandlerReceipts, .insert receipt⟩]⟩ () tr ∧ tr.on D = D'

/-- The handler ran for the event: its callback did, under a receipt that is new and the only one
    of the handler for the event. -/
structure Ran (event : EventEnvelope) (handler : RegisteredHandler) (D D' : Db) : Prop where
  /-- it had not run -/
  before : ¬D.HasReceipt event.eventId handler.name
  /-- the transaction added one receipt, of this handler and event, and ran the callback -/
  receipt : ∃ receipt, EventProcessor.isReceipt event.eventId handler.name receipt = true ∧
    D'.eventHandlerReceipts.rows = D.eventHandlerReceipts.rows ++ [receipt] ∧
      CallbackRan event handler receipt D D'
  /-- the events on record were left alone -/
  silent : Silent D D'

/-- The event was attempted with the end told; nothing else changed.  The version is that of the row
    it was read from, plus one: a flush of a row that had changed in between would have been
    refused. -/
structure Marked (eventId : Uuid) (failure : Option String) (D D' : Db) : Prop where
  /-- the row is the one read, after an attempt -/
  attempted : ∃ r, D.domainEvents.get eventId = some r ∧
    D'.domainEvents.get eventId =
      some { EventProcessor.attempted r failure with version := r.version + 1 }
  /-- no other event changed -/
  others : ∀ {e}, e ≠ eventId → D'.domainEvents.get e = D.domainEvents.get e
  /-- nor did the receipts -/
  receipts : D'.eventHandlerReceipts = D.eventHandlerReceipts

/-- The commit relation of a position: what its transaction did when it returned the value.  A
    handler's transaction that did not run the callback found the receipt of an earlier run and
    wrote nothing. -/
def Committed : Position ω → Outcome → Db → Db → Prop
  | .handle event _ handler _ _, .handled true, D, D' => Ran event handler D D'
  | .handle event _ handler _ _, _, D, D' =>
    D' = D ∧ D.HasReceipt event.eventId handler.name
  | .recordFailure eventId handlerName exception _, _, D, D' =>
    Marked eventId (some (EventProcessor.failureText handlerName exception)) D D'
  | .markComplete eventId _, _, D, D' => Marked eventId none D D'
  | .lookUp eventId _, .found event, D, D' =>
    D' = D ∧ D.OnRecord event ∧ event.eventId = eventId
  | _, _, D, D' => Untouched D D'

section Ran

variable {event : EventEnvelope} {handler : RegisteredHandler} {D D' : Db}

/-- A handler that ran lost nothing that was on record. -/
theorem Ran.since (h : Ran event handler D D') : Since D D' := by
  refine Since.of_silent h.silent fun {receipt} hr => ?_
  obtain ⟨new, -, hrows, -⟩ := h.receipt
  rw [Table.mem_rows, hrows]
  exact List.mem_append_left _ hr

/-- A handler that has run has its receipt in the state it leaves. -/
theorem Ran.hasReceipt (h : Ran event handler D D') :
    D'.HasReceipt event.eventId handler.name := by
  obtain ⟨new, hnew, hrows, -⟩ := h.receipt
  refine ⟨new, ?_, hnew⟩
  rw [Table.mem_rows, hrows]
  exact List.mem_append_right _ (List.mem_singleton_self _)

/-- The receipts are those before and that of the handler. -/
theorem Ran.hasReceipt_iff {e : Uuid} {n : String} (h : Ran event handler D D') :
    D'.HasReceipt e n ↔ D.HasReceipt e n ∨ (e = event.eventId ∧ n = handler.name) := by
  constructor
  · rintro ⟨receipt, hmem, hreceipt⟩
    obtain ⟨new, hnew, hrows, -⟩ := h.receipt
    rw [Table.mem_rows, hrows, List.mem_append, List.mem_singleton] at hmem
    rcases hmem with hmem | rfl
    · exact Or.inl ⟨receipt, hmem, hreceipt⟩
    · simp only [EventProcessor.isReceipt, decide_eq_true_eq] at hnew hreceipt
      exact Or.inr ⟨hreceipt.1.symm.trans hnew.1, hreceipt.2.symm.trans hnew.2⟩
  · rintro (hr | ⟨rfl, rfl⟩)
    · exact h.since.hasReceipt hr
    · exact h.hasReceipt

end Ran

/-- A mark changes the columns of the attempt, which are no part of the envelope, so the event is on
    record as before. -/
theorem Marked.since {eventId : Uuid} {failure : Option String} {D D' : Db}
    (h : Marked eventId failure D D') : Since D D' := by
  refine ⟨fun {event} he => ?_, fun hr => by rw [h.receipts]; exact hr⟩
  obtain ⟨r, hr, heq⟩ := he
  by_cases hid : event.eventId = eventId
  · obtain ⟨r₀, hr₀, hr'⟩ := h.attempted
    rw [hid, hr₀] at hr
    obtain rfl := Option.some.inj hr
    refine ⟨_, hid ▸ hr', ?_⟩
    rw [← heq]
    rfl
  · exact ⟨r, (h.others hid).trans hr, heq⟩

/-- A mark adds no event to those on record. -/
theorem Marked.onRecord {eventId : Uuid} {failure : Option String} {D D' : Db}
    (h : Marked eventId failure D D') {event : EventEnvelope} (hevent : D'.OnRecord event) :
    D.OnRecord event := by
  obtain ⟨r, hr, heq⟩ := hevent
  by_cases hid : event.eventId = eventId
  · obtain ⟨r₀, hr₀, hr₀'⟩ := h.attempted
    rw [hid, hr₀'] at hr
    obtain rfl := Option.some.inj hr
    exact ⟨r₀, hid ▸ hr₀, heq⟩
  · exact ⟨r, (h.others hid).symm.trans hr, heq⟩

/-- Whether the callback ran or a receipt was found: in the end the handler has its receipt. -/
theorem Committed.handled {event : EventEnvelope} {done todo : List RegisteredHandler}
    {handler : RegisteredHandler} {rest : List Uuid} {ran : Bool} {D D' : Db}
    (h : Committed (ω := ω) (.handle event done handler todo rest) (.handled ran) D D') :
    D'.HasReceipt event.eventId handler.name := by
  cases ran with
  | true => exact Ran.hasReceipt h
  | false =>
    obtain ⟨rfl, hreceipt⟩ := h
    exact hreceipt

/-- No committed transaction loses anything.  By the positions. -/
theorem Committed.since {c : Position ω} {a : Outcome} {D D' : Db} (h : Committed c a D D') :
    Since D D' := by
  unfold Committed at h
  split at h
  · exact h.since
  · rw [h.1]
    exact Since.refl D
  · exact h.since
  · exact h.since
  · rw [h.1]
    exact Since.refl D
  · exact Since.of_untouched h

/-! ## What the transactions commit -/

section Commits

variable {past : Db → Prop} {D : Db} {tr tr' : Trail (Write TableName.Entity) DbLock}

/-- A lookup that did not raise wrote nothing and found its row.  Here and below, `sees` is a run
    whose statements may each see another committed state. -/
theorem Tx.sees_orThrow {α : Type} {a : Option α} {type : ExceptionType} {message : String} {b : α}
    (h : (Tx.orThrow a type message).sees past D tr b tr') : a = some b ∧ tr' = tr := by
  cases a with
  | none => exact h.elim
  | some a =>
    obtain ⟨rfl, rfl⟩ := h
    exact ⟨rfl, rfl⟩

/-- A guard that did not raise wrote nothing, and its condition holds. -/
theorem Tx.sees_require {cond : Prop} [Decidable cond] {type : ExceptionType} {message : String}
    {u : Unit} (h : (Tx.require cond type message).sees past D tr u tr') : cond ∧ tr' = tr := by
  unfold Tx.require at h
  split at h
  · rename_i hcond
    exact ⟨hcond, h.2.symm⟩
  · exact h.elim

/-- A row found and locked is the row of the commit: the lock keeps others from writing it in the
    meantime. -/
theorem sees_selectForUpdate {i : TableName} {p : i.Entity → Bool} {a : Option i.Entity}
    (h : (selectForUpdate i p).sees past D tr a tr') :
    tr'.writes = tr.writes ∧
      ∀ r, a = some r → p r = true ∧ ((tr.on D).table i).get (Row.key r) = some r := by
  have hens : (selectForUpdate i p).ensures (fun _ => False) ⟨tr.held, D, tr.on D⟩
      fun a pt => ∀ r, a = some r → p r = true ∧ ((tr.on D).table i).get (Row.key r) = some r := by
    refine Prog.ensures_selectForUpdate ?_ fun held seen hheld r hr => ?_
    · rintro r held seen hheld - hp hget r' hr'
      obtain rfl := Option.some.inj hr'
      exact ⟨hp, hget⟩
    · cases hr
  obtain ⟨seen, hfound⟩ := Prog.sees_of_ensures hens h
  obtain ⟨D₁, hD₁, -, rfl⟩ := h
  refine ⟨?_, hfound⟩
  exact List.append_nil _

/-- Among others, what a quiet program writes touches nothing, wherever its transaction stands. -/
theorem Tx.untouched_of_quiet {α : Type} {p : Tx α} {a : α} (hp : p.quiet)
    (h : p.sees past D tr a tr') : Untouched (tr.on D) (tr'.on D) := by
  obtain ⟨seen, huntouched⟩ :=
    Prog.sees_of_ensures (Tx.ensures_of_quiet hp ⟨tr.held, D, tr.on D⟩) h
  exact huntouched

namespace EventProcessor

/-- The event was on record when it was looked up, so it is on record at the commit.  This
    transaction takes no lock, and needs none. -/
theorem lookUp_commits {eventId : Uuid} {event : EventEnvelope}
    (hpast : ∀ {D₁}, past D₁ → Since D₁ D)
    (h : (lookUp eventId).sees past D .start event tr) :
    tr.on D = D ∧ D.OnRecord event ∧ event.eventId = eventId := by
  obtain ⟨record, tr₁, hselect, h₁⟩ := Prog.sees_bind.mp h
  obtain ⟨rfl, D₁, hD₁, -, -, hrecord⟩ := Prog.sees_query hselect
  obtain ⟨r, tr₂, hr, h₂⟩ := Prog.sees_bind.mp h₁
  obtain ⟨rfl, rfl⟩ := Tx.sees_orThrow hr
  obtain ⟨rfl, rfl⟩ := h₂
  have hid : r.id = eventId := Table.key_of_get hrecord
  have hget : D₁.domainEvents.get r.id = some r := by
    rw [hid]
    exact hrecord
  exact ⟨rfl, (hpast hD₁).events ⟨r, hget, rfl⟩, hid⟩

/-- A callback that ran after its receipt was added.  The receipt was not there before, for one on
    record would share the unique value; and the callback is quiet, so that is all the receipts
    there are in the end. -/
theorem ran_of_callback {event : EventEnvelope} {handler : RegisteredHandler}
    {receipt : EventHandlerReceipt} (hquiet : (handler.callback event).quiet)
    (hpast : ∀ {D₁}, past D₁ → Since D₁ D)
    (hisReceipt : isReceipt event.eventId handler.name receipt = true)
    (hconf : D.eventHandlerReceipts.conflicts receipt = false)
    (hwrites : tr.writes = [⟨.eventHandlerReceipts, .insert receipt⟩])
    (h : (handler.callback event).sees past D tr () tr') : Ran event handler D (tr'.on D) := by
  have hunique : ∀ {r : EventHandlerReceipt},
      isReceipt event.eventId handler.name r = true →
        (⟨.receiptHandler, [.uuid event.eventId, .text handler.name]⟩ : Unique) ∈
          Row.uniques r := by
    intro r hr
    simp only [isReceipt, decide_eq_true_eq] at hr
    rw [← hr.1, ← hr.2]
    exact List.mem_singleton_self _
  have hon : tr.on D = Database.apply ⟨.eventHandlerReceipts, .insert receipt⟩ D :=
    congrArg (fun ws => Store.applyAll ws D) hwrites
  have huntouched := Tx.untouched_of_quiet hquiet h
  rw [hon] at huntouched
  have htable : Db.eventHandlerReceipts
      (Database.apply ⟨.eventHandlerReceipts, .insert receipt⟩ D) =
        D.eventHandlerReceipts.insert receipt := Database.apply_table_self ..
  have hsilent : Silent D (Database.apply ⟨.eventHandlerReceipts, .insert receipt⟩ D) :=
    Silent.of_eq (Database.apply_table_of_ne _ D
      (show TableName.domainEvents ≠ .eventHandlerReceipts by decide))
  refine ⟨?_, ⟨receipt, hisReceipt, ?_, tr.held, tr', ?_, rfl⟩, hsilent.trans huntouched.2⟩
  · rintro ⟨other, hother, hisOther⟩
    exact (Table.conflicts_eq_false.mp hconf other hother).2 _ (hunique hisOther)
      (hunique hisReceipt)
  · rw [huntouched.1, htable, Table.rows_insert hconf]
  · rw [← hwrites]
    exact Prog.sees_mono hpast h

/-- **A handler's transaction** found its receipt, or added it and ran the callback.

    The event is the one its client looked up earlier: the transaction reads the row again, under a
    lock, and rows on record keep their envelope. -/
theorem processHandler_commits {event : EventEnvelope} {handler : RegisteredHandler} {ran : Bool}
    (hquiet : (handler.callback event).quiet) (hevent : D.OnRecord event)
    (hpast : ∀ {D₁}, past D₁ → Since D₁ D)
    (h : (processHandler event.eventId handler).sees past D .start ran tr) :
    if ran then Ran event handler D (tr.on D)
    else tr.on D = D ∧ D.HasReceipt event.eventId handler.name := by
  obtain ⟨found, tr₁, hlock, h₁⟩ := Prog.sees_bind.mp h
  obtain ⟨hwrites, hfound⟩ := sees_selectForUpdate hlock
  have hon : ∀ D' : Db, tr₁.on D' = D' := fun D' =>
    congrArg (fun ws => Store.applyAll ws D') hwrites
  obtain ⟨record, tr₂, hrecord, h₂⟩ := Prog.sees_bind.mp h₁
  obtain ⟨rfl, rfl⟩ := Tx.sees_orThrow hrecord
  have henvelope : DatabaseEventStore.toEnvelope record = event := by
    obtain ⟨hid, hget⟩ := hfound record rfl
    exact Db.OnRecord.eq_of_eventId ⟨record, hget, rfl⟩ hevent (of_decide_eq_true hid)
  obtain ⟨receipt, tr₃, hselect, h₃⟩ := Prog.sees_bind.mp h₂
  obtain ⟨rfl, D₁, hD₁, -, -, hreceipt⟩ := Prog.sees_query hselect
  cases receipt with
  | some receipt =>
    -- the receipt was committed before, and receipts stay
    obtain ⟨rfl, rfl⟩ := h₃
    rw [hon] at hreceipt
    refine ⟨hon D, receipt, (hpast hD₁).receipts (List.mem_of_find?_eq_some hreceipt), ?_⟩
    exact List.find?_some hreceipt
  | none =>
    obtain ⟨id, tr₄, ⟨env, rfl, rfl⟩, h₄⟩ := Prog.sees_bind.mp h₃
    obtain ⟨row, tr₅, hadd, h₅⟩ := Prog.sees_bind.mp h₄
    obtain ⟨rfl, hconf, hwrites'⟩ := Prog.sees_insert hadd
    obtain ⟨_, tr₆, hcallback, h₆⟩ := Prog.sees_bind.mp h₅
    obtain ⟨rfl, rfl⟩ := h₆
    rw [henvelope] at hcallback
    rw [hon] at hconf
    rw [show tr₃.writes = [] from hwrites, List.nil_append] at hwrites'
    exact ran_of_callback hquiet hpast (by simp [isReceipt]) hconf hwrites' hcallback

/-- An attempt whose end is written: the event read is the event marked, for a stale one is not
    written. -/
theorem flush_marks {r row : DomainEvent} {failure : Option String} {D₁ : Db}
    (hr : D₁.domainEvents.get r.id = some r) (hearlier : Store.earlier D₁ D)
    (h : (flush .domainEvents r (attempted r failure)).sees past D .start row tr) :
    Marked r.id failure D (tr.on D) := by
  have hne : attempted r failure ≠ r := by
    intro heq
    have hattempts := congrArg DomainEvent.processingAttempts heq
    have hsucc : r.processingAttempts + 1 = r.processingAttempts := hattempts
    omega
  have hens : (flush .domainEvents r (attempted r failure)).ensures (fun _ => False)
      ⟨[], D, D⟩ fun _ pt => Marked r.id failure D pt.view := by
    refine Prog.ensures_flush rfl (fun _ => rfl) (fun heq => absurd heq hne) ?_
      (fun _ he => he) fun he => he
    intro _ r' row held seen hheld hget hversion hrow hs hc
    -- the version is that of the row read, so the row is
    have heq : r' = r :=
      Table.eq_of_version_eq (hearlier .domainEvents)
        (show (D₁.table .domainEvents).get r.id = some r from hr) hget hversion
    subst heq
    have htable : Db.domainEvents (Database.apply ⟨.domainEvents, .update r' row⟩ D) =
        D.domainEvents.update r' row := Database.apply_table_self ..
    have hkey : Row.key row = r'.id := by
      rw [hrow]
      rfl
    have hgets : ∀ e, (D.domainEvents.update r' row).get e =
        if Row.key row = e then some row else D.domainEvents.get e := Table.get_update hs hc
    refine ⟨⟨r', hget, ?_⟩, fun {e} he => ?_, ?_⟩
    · rw [htable, hgets, if_pos hkey, hrow]
      rfl
    · rw [htable, hgets, hkey, if_neg fun heq => he heq.symm]
    · exact Database.apply_table_of_ne _ D
        (show TableName.eventHandlerReceipts ≠ .domainEvents by decide)
  obtain ⟨seen, hmarked⟩ := Prog.sees_of_ensures hens h
  exact hmarked

/-- A failure reported of an event on record marks it.  The client knows the event is on record, so
    the branch of the source in which there is no event is not taken. -/
theorem recordFailure_commits {eventId : Uuid} {handlerName : String} {exception : Error} {u : Unit}
    (hpast : ∀ {D₁}, past D₁ → ∃ r, D₁.domainEvents.get eventId = some r)
    (h : (recordFailure eventId handlerName exception).sees past D .start u tr) :
    Marked eventId (some (failureText handlerName exception)) D (tr.on D) := by
  obtain ⟨record, tr₁, hselect, h₁⟩ := Prog.sees_bind.mp h
  obtain ⟨rfl, D₁, hD₁, hearlier, -, hrecord⟩ := Prog.sees_query hselect
  obtain ⟨r, hr⟩ := hpast hD₁
  obtain rfl : record = some r := hrecord.symm.trans hr
  obtain ⟨row, tr₂, hflush, h₂⟩ := Prog.sees_bind.mp h₁
  obtain ⟨-, rfl⟩ := h₂
  have hid : r.id = eventId := Table.key_of_get hr
  subst hid
  exact flush_marks hr hearlier hflush

/-- Reporting that all is done marks the event, with no error text. -/
theorem markComplete_commits {eventId : Uuid} {u : Unit}
    (h : (markComplete eventId).sees past D .start u tr) : Marked eventId none D (tr.on D) := by
  obtain ⟨record, tr₁, hselect, h₁⟩ := Prog.sees_bind.mp h
  obtain ⟨rfl, D₁, hD₁, hearlier, -, hrecord⟩ := Prog.sees_query hselect
  obtain ⟨r, tr₂, hr, h₂⟩ := Prog.sees_bind.mp h₁
  obtain ⟨rfl, rfl⟩ := Tx.sees_orThrow hr
  obtain ⟨row, tr₃, hflush, h₃⟩ := Prog.sees_bind.mp h₂
  obtain ⟨-, rfl⟩ := h₃
  have hid : r.id = eventId := Table.key_of_get hrecord
  subst hid
  exact flush_marks hrecord hearlier hflush

end EventProcessor

end Commits

/-! ## The protocol -/

namespace Site

/-- What a client in a position goes on from. -/
def Knows (site : Site ω) : Position ω → Db → Prop
  | .handle event done handler todo _, D =>
    D.OnRecord event ∧ done ++ handler :: todo = site.registry.handlersFor event.data.type ∧
      ∀ h ∈ done, D.HasReceipt event.eventId h.name
  | .recordFailure eventId _ _ _, D => ∃ event, D.OnRecord event ∧ event.eventId = eventId
  | .markComplete eventId _, D => ∃ event, D.OnRecord event ∧ event.eventId = eventId ∧
      ∀ h ∈ site.registry.handlersFor event.data.type, D.HasReceipt eventId h.name
  | _, _ => True

/-- A receipt is about an event on record, the handlers of an event got theirs in order, and a
    published event has them all. -/
structure Settled (site : Site ω) (D : Db) : Prop where
  /-- no receipt is about an event that is not there -/
  onRecord : ∀ receipt ∈ D.eventHandlerReceipts, ∃ event, D.OnRecord event ∧
    event.eventId = receipt.eventId
  /-- a handler has its receipt only after those registered before it -/
  inOrder : ∀ {event}, D.OnRecord event →
    (site.registry.handlersFor event.data.type).Pairwise fun h h' =>
      D.HasReceipt event.eventId h'.name → D.HasReceipt event.eventId h.name
  /-- a published event has been through all its handlers -/
  published : ∀ {e r}, D.domainEvents.get e = some r → r.publicationStatus = .published →
    ∀ h ∈ site.registry.handlersFor r.payload.type, D.HasReceipt e h.name
  /-- nothing in the program gives up on an event -/
  inUse : ∀ {e r}, D.domainEvents.get e = some r → r.publicationStatus ≠ .deadLettered

variable {site : Site ω} {D D' : Db} {c c' : Position ω} {a : Outcome}

/-- What a client knows stays true while others commit: all of it is about envelopes and receipts on
    record. -/
theorem Knows.since (h : site.Knows c D) (hsince : Since D D') : site.Knows c D' := by
  unfold Knows at h ⊢
  split
  · obtain ⟨hevent, hhandlers, hdone⟩ := h
    exact ⟨hsince.events hevent, hhandlers, fun h hh => hsince.hasReceipt (hdone h hh)⟩
  · obtain ⟨event, hevent, heq⟩ := h
    exact ⟨event, hsince.events hevent, heq⟩
  · obtain ⟨event, hevent, heq, hall⟩ := h
    exact ⟨event, hsince.events hevent, heq, fun h hh => hsince.hasReceipt (hall h hh)⟩
  · exact trivial

/-- A transaction that sees what its client knows commits by the relation of its position.  By the
    positions, each by the lemma about its transaction; those of the other clients by their being
    quiet. -/
theorem commits {tr : Trail (Write TableName.Entity) DbLock} (hknows : site.Knows c D)
    (h : (site.call c).sees (fun D₁ => Since D₁ D ∧ site.Knows c D₁) D .start a tr) :
    Committed c a D (tr.on D) := by
  cases c with
  | idle =>
    obtain ⟨rfl, rfl⟩ := h
    exact Untouched.refl D
  | poll =>
    obtain ⟨records, tr₁, hpending, h₁⟩ := Prog.sees_bind.mp h
    obtain ⟨rfl, -⟩ := Prog.sees_query hpending
    obtain ⟨rfl, rfl⟩ := h₁
    exact Untouched.refl D
  | lookUp eventId rest =>
    obtain ⟨event, tr₁, hlookUp, h₁⟩ := Prog.sees_bind.mp h
    obtain ⟨rfl, rfl⟩ := h₁
    exact EventProcessor.lookUp_commits (fun hD₁ => hD₁.1) hlookUp
  | handle event done handler todo rest =>
    obtain ⟨ran, tr₁, hprocess, h₁⟩ := Prog.sees_bind.mp h
    obtain ⟨rfl, rfl⟩ := h₁
    have hmem : handler ∈ site.registry.handlersFor event.data.type := by
      rw [← hknows.2.1]
      exact List.mem_append_right _ List.mem_cons_self
    have hmem := EventHandlerRegistry.mem_of_mem_handlersFor hmem
    have hcommits := EventProcessor.processHandler_commits
      (site.callbacks_quiet handler hmem event) hknows.1 (fun hD₁ => hD₁.1) hprocess
    cases ran with
    | true => exact hcommits
    | false => exact hcommits
  | recordFailure eventId handlerName exception rest =>
    obtain ⟨u, tr₁, hrecord, h₁⟩ := Prog.sees_bind.mp h
    obtain ⟨rfl, rfl⟩ := h₁
    refine EventProcessor.recordFailure_commits (fun hD₁ => ?_) hrecord
    obtain ⟨event, ⟨r, hr, -⟩, rfl⟩ := hD₁.2
    exact ⟨r, hr⟩
  | markComplete eventId rest =>
    obtain ⟨u, tr₁, hmark, h₁⟩ := Prog.sees_bind.mp h
    obtain ⟨rfl, rfl⟩ := h₁
    exact EventProcessor.markComplete_commits hmark
  | retry =>
    obtain ⟨u, tr₁, hretry, h₁⟩ := Prog.sees_bind.mp h
    obtain ⟨rfl, rfl⟩ := h₁
    exact Tx.untouched_of_quiet site.retryDue_quiet hretry
  | other t =>
    obtain ⟨u, tr₁, htx, h₁⟩ := Prog.sees_bind.mp h
    obtain ⟨rfl, rfl⟩ := h₁
    exact Tx.untouched_of_quiet (site.tx_quiet t) htx

/-- An event without a row has no receipts. -/
theorem Settled.not_hasReceipt (h : site.Settled D) {e : Uuid} {n : String}
    (he : D.domainEvents.get e = none) : ¬D.HasReceipt e n := by
  rintro ⟨receipt, hmem, hreceipt⟩
  obtain ⟨event, ⟨r, hr, -⟩, heq⟩ := h.onRecord receipt hmem
  simp only [EventProcessor.isReceipt, decide_eq_true_eq] at hreceipt
  rw [heq, hreceipt.1, he] at hr
  cases hr

/-- While the events stay, it is the receipts that count; those added are about events that were
    on record. -/
theorem Settled.silent (h : site.Settled D) (hsilent : Silent D D') (hsince : Since D D')
    (hreceipts : ∀ receipt ∈ D'.eventHandlerReceipts, receipt ∈ D.eventHandlerReceipts ∨
      ∃ event, D.OnRecord event ∧ event.eventId = receipt.eventId)
    (hinOrder : ∀ {event}, D.OnRecord event →
      (site.registry.handlersFor event.data.type).Pairwise fun h h' =>
        D'.HasReceipt event.eventId h'.name → D'.HasReceipt event.eventId h.name) :
    site.Settled D' := by
  refine ⟨fun receipt hreceipt => ?_, fun {event} hevent => ?_, fun {e r} hr hpublished => ?_,
    fun {e r} hr => ?_⟩
  · rcases hreceipts receipt hreceipt with hold | ⟨event, hevent, heq⟩
    · obtain ⟨event, hevent, heq⟩ := h.onRecord receipt hold
      exact ⟨event, hsince.events hevent, heq⟩
    · exact ⟨event, hsince.events hevent, heq⟩
  · rcases hsilent.onRecord hevent with hold | hnone
    · exact hinOrder hold
    · -- a new event has no receipts
      refine List.pairwise_of_forall fun _ h' hh' => ?_
      obtain ⟨receipt, hmem, hreceipt⟩ := hh'
      rcases hreceipts receipt hmem with hold | ⟨event', ⟨r, hr, -⟩, heq⟩
      · exact absurd ⟨receipt, hold, hreceipt⟩ (h.not_hasReceipt hnone)
      · simp only [EventProcessor.isReceipt, decide_eq_true_eq] at hreceipt
        rw [heq, hreceipt.1, hnone] at hr
        cases hr
  · rcases hsilent.row hr with hold | ⟨-, hpending, -⟩
    · exact fun h' hh' => hsince.hasReceipt (h.published hold hpublished h' hh')
    · rw [hpending] at hpublished
      cases hpublished
  · rcases hsilent.row hr with hold | ⟨-, hpending, -⟩
    · exact h.inUse hold
    · rw [hpending]
      decide

/-- Where nothing is touched, the outbox stays settled.  An event that is new has no receipts yet,
    so the order of its handlers holds for want of any. -/
theorem Settled.untouched (h : site.Settled D) (huntouched : Untouched D D') :
    site.Settled D' := by
  have hreceipts : ∀ {e n}, D'.HasReceipt e n ↔ D.HasReceipt e n := by
    intro e n
    rw [Db.HasReceipt, huntouched.1]
    rfl
  refine h.silent huntouched.2 (Since.of_untouched huntouched) (fun receipt hreceipt => ?_)
    fun {event} hevent => ?_
  · rw [huntouched.1] at hreceipt
    exact Or.inl hreceipt
  · simp only [hreceipts]
    exact h.inOrder hevent

/-- What comes before a handler of a name in the order of registration. -/
theorem pairwise_before {done todo : List RegisteredHandler} {handler : RegisteredHandler}
    (hnames : ((done ++ handler :: todo).map (·.name)).Nodup) :
    (done ++ handler :: todo).Pairwise fun h h' => h'.name = handler.name → h ∈ done := by
  rw [List.map_append, List.map_cons, List.nodup_append', List.nodup_cons] at hnames
  obtain ⟨-, ⟨hname, -⟩, -⟩ := hnames
  -- no handler after it has the name
  have hafter : ∀ h' ∈ todo, h'.name ≠ handler.name := by
    intro h' hh' heq
    exact hname (heq ▸ List.mem_map_of_mem hh')
  rw [List.pairwise_append, List.pairwise_cons]
  refine ⟨?_, ⟨fun h' hh' heq => absurd heq (hafter h' hh'), ?_⟩, fun h hh _ _ _ => hh⟩
  · exact List.pairwise_of_forall_mem_list fun h hh _ _ _ => hh
  · exact List.pairwise_of_forall_mem_list fun _ _ h' hh' heq => absurd heq (hafter h' hh')

/-- The handlers of an event keep their order when the next one gets its receipt: by `Knows` those
    before it have theirs, and by the order of registration it is the only one of its name. -/
theorem Settled.ran {event : EventEnvelope} {done todo : List RegisteredHandler}
    {handler : RegisteredHandler} (h : site.Settled D) (hevent : D.OnRecord event)
    (hhandlers : done ++ handler :: todo = site.registry.handlersFor event.data.type)
    (hdone : ∀ h ∈ done, D.HasReceipt event.eventId h.name)
    (hran : Ran event handler D D') : site.Settled D' := by
  have hsince := hran.since
  refine h.silent hran.silent hsince (fun receipt hreceipt => ?_) fun {event'} hevent' => ?_
  · obtain ⟨new, hnew, hrows, -⟩ := hran.receipt
    rw [Table.mem_rows, hrows, List.mem_append, List.mem_singleton] at hreceipt
    rcases hreceipt with hreceipt | rfl
    · exact Or.inl hreceipt
    · simp only [EventProcessor.isReceipt, decide_eq_true_eq] at hnew
      exact Or.inr ⟨event, hevent, hnew.1.symm⟩
  · have hpairs := h.inOrder hevent'
    by_cases hid : event'.eventId = event.eventId
    · obtain rfl : event' = event := hevent'.eq_of_eventId hevent hid
      have hnames := site.registry.names_nodup_handlersFor event'.data.type
      rw [← hhandlers] at hnames hpairs ⊢
      refine List.Pairwise.imp₂ ?_ hpairs (pairwise_before hnames)
      intro x y hxy hbefore hy
      rcases hran.hasReceipt_iff.mp hy with hy | ⟨-, hy⟩
      · exact hsince.hasReceipt (hxy hy)
      · exact hsince.hasReceipt (hdone x (hbefore hy))
    · refine hpairs.imp fun {x y} hxy hy => ?_
      rcases hran.hasReceipt_iff.mp hy with hy | ⟨heq, -⟩
      · exact hsince.hasReceipt (hxy hy)
      · exact absurd heq hid

/-- A mark says `PUBLISHED` only after all handlers.  The client has seen their receipts, and
    receipts stay. -/
theorem Settled.marked {eventId : Uuid} {failure : Option String} (h : site.Settled D)
    (hmarked : Marked eventId failure D D')
    (hall : failure = none → ∃ event, D.OnRecord event ∧ event.eventId = eventId ∧
      ∀ h ∈ site.registry.handlersFor event.data.type, D.HasReceipt eventId h.name) :
    site.Settled D' := by
  have hsince := hmarked.since
  have hreceipts : ∀ {e n}, D'.HasReceipt e n ↔ D.HasReceipt e n := by
    intro e n
    rw [Db.HasReceipt, hmarked.receipts]
    rfl
  obtain ⟨r₀, hr₀, hr₀'⟩ := hmarked.attempted
  refine ⟨fun receipt hreceipt => ?_, fun {event} hevent => ?_, fun {e r} hr hpublished => ?_,
    fun {e r} hr => ?_⟩
  · rw [hmarked.receipts] at hreceipt
    obtain ⟨event, hevent, heq⟩ := h.onRecord receipt hreceipt
    exact ⟨event, hsince.events hevent, heq⟩
  · simp only [hreceipts]
    exact h.inOrder (hmarked.onRecord hevent)
  · intro h' hh'
    rw [hreceipts]
    by_cases he : e = eventId
    · subst he
      obtain rfl := Option.some.inj (hr₀'.symm.trans hr)
      cases failure with
      | some text => cases hpublished
      | none =>
        obtain ⟨event, ⟨r, hr', heq⟩, hid, hall⟩ := hall rfl
        rw [hid, hr₀] at hr'
        obtain rfl := Option.some.inj hr'
        refine hall h' ?_
        rw [← heq]
        exact hh'
    · rw [hmarked.others he] at hr
      exact h.published hr hpublished h' hh'
  · by_cases he : e = eventId
    · subst he
      obtain rfl := Option.some.inj (hr₀'.symm.trans hr)
      cases failure with
      | some text => exact fun hdead => by cases hdead
      | none => exact fun hdead => by cases hdead
    · rw [hmarked.others he] at hr
      exact h.inUse hr

/-- **Step lemma.**  Every commit keeps the outbox settled.  By the positions: a handler's
    transaction by `Settled.ran`, the two marks by `Settled.marked`, everything else because it
    touches nothing. -/
theorem Settled.commit (h : site.Settled D) (hknows : site.Knows c D)
    (hcommitted : Committed c a D D') : site.Settled D' := by
  unfold Committed at hcommitted
  split at hcommitted
  · exact h.ran hknows.1 hknows.2.1 hknows.2.2 hcommitted
  · rw [hcommitted.1]
    exact h
  · exact h.marked hcommitted fun hnone => by cases hnone
  · exact h.marked hcommitted fun _ => hknows
  · rw [hcommitted.1]
    exact h
  · exact h.untouched hcommitted

/-- A client that proceeds knows that the handlers before are through. -/
theorem Knows.proceed {event : EventEnvelope} {done todo : List RegisteredHandler}
    {rest : List Uuid} (hevent : D.OnRecord event)
    (hhandlers : done ++ todo = site.registry.handlersFor event.data.type)
    (hdone : ∀ h ∈ done, D.HasReceipt event.eventId h.name) :
    site.Knows (Position.proceed event done todo rest) D := by
  cases todo with
  | nil =>
    rw [List.append_nil] at hhandlers
    exact ⟨event, hevent, rfl, hhandlers ▸ hdone⟩
  | cons handler todo => exact ⟨hevent, hhandlers, hdone⟩

/-- Between two events a client has nothing to go on from. -/
theorem Knows.following {rest : List Uuid} (h : Position.Following rest c) : site.Knows c D := by
  cases rest with
  | nil =>
    rcases h with rfl | rfl
    · exact trivial
    · exact trivial
  | cons eventId rest =>
    obtain rfl := h
    exact trivial

/-- When a transaction was committed, its client knows what the next position asks for.  The case
    that counts is the handler's: its receipt joins those of the handlers before it. -/
theorem Knows.next (hknows : site.Knows c D) (hcommitted : Committed c a D D')
    (hnext : site.next c (.ok a) c') : site.Knows c' D' := by
  have hknows' := hknows.since hcommitted.since
  unfold Site.next at hnext
  split at hnext
  all_goals rename_i heq
  · rcases hnext with rfl | ⟨eventId, rfl⟩ | ⟨t, rfl⟩
    · exact trivial
    · exact trivial
    · exact trivial
  · exact Knows.following hnext
  · cases heq
    subst hnext
    obtain ⟨rfl, hevent, -⟩ := hcommitted
    exact Knows.proceed hevent rfl fun _ hh => by cases hh
  · cases heq
    subst hnext
    obtain ⟨hevent, hhandlers, hdone⟩ := hknows'
    refine Knows.proceed hevent (by rw [List.append_assoc]; exact hhandlers) fun h hh => ?_
    rcases List.mem_append.mp hh with hh | hh
    · exact hdone h hh
    · rw [List.mem_singleton.mp hh]
      exact hcommitted.handled
  · cases heq
  · exact Knows.following hnext
  · exact Knows.following hnext
  · subst hnext
    exact trivial

/-- When a transaction raised, its client either reports the failure of an event it knew to be on
    record, or starts again. -/
theorem Knows.raised {e : Error} (hknows : site.Knows c D) (hnext : site.next c (.error e) c') :
    site.Knows c' D := by
  unfold Site.next at hnext
  split at hnext
  all_goals rename_i heq
  · cases heq
  · cases heq
  · cases heq
  · cases heq
  · rcases hnext with rfl | rfl
    · exact ⟨_, hknows.1, rfl⟩
    · exact trivial
  · cases heq
  · cases heq
  · subst hnext
    exact trivial

/-- What a committed transaction of a client did: it went on from what the client knew, and it
    committed by the relation of its position. -/
def Does (site : Site ω) (c : Position ω) (a : Outcome) (D D' : Db) : Prop :=
  site.Knows c D ∧ Committed c a D D'

/-- The protocol of the clients.  From it `Protocol` gives that every reachable state is settled and
    that the log is a serial run of `Does`. -/
def protocol (site : Site ω) {D₀ : Db} (h₀ : site.Settled D₀) : Protocol site.client D₀ where
  inv := site.Settled
  knows := site.Knows
  since := Since
  rel := site.Does
  since_refl := Since.refl
  since_rel := fun _ h hrel => h.trans hrel.2.since
  commits := fun _ hknows h => ⟨hknows, commits hknows h⟩
  inv_start := h₀
  inv_next := fun h hknows hrel => h.commit hknows hrel.2
  knows_start := fun h => by
    obtain rfl := h
    exact trivial
  knows_other := fun _ hknows hrel => hknows.since hrel.2.since
  knows_ok := fun _ hknows hrel hnext => hknows.next hrel.2 hnext
  knows_error := fun _ hknows hnext => hknows.raised hnext

end Site

end CommerceOperations
