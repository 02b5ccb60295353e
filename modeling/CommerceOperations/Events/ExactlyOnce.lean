/-
  Exactly once: what the committed transactions make of the outbox.

  Every interleaving of the clients of a site commits the steps of a serial run, and each step has
  done what `Site.Does` says of its position.  Three things are read off these steps:

  * the receipts of a handler for an event count the steps in which the handler's callback ran on
    the event, and there is at most one (`callback_committed_once`);
  * an event still waits, or it is `PUBLISHED` and each of its handlers' callbacks ran in one
    committed step (`no_event_is_lost`);
  * the status, the number of attempts and the error of an event are those its committed reports
    make of it (`outbox_tells_reports`).

  The crux is that the receipt and the callback share a transaction.  Whatever the callback does is
  committed with the receipt or not at all, so a crash between the two cannot be told from a
  handler that never started, and the unique receipt turns the retries into no-ops.
-/
import CommerceOperations.Events.Delivery

namespace CommerceOperations

open Relational

variable {ω : Type} {site : Site ω} {D₀ D D' : Db} {log : List (Position ω × Outcome)}

/-! ## Callbacks -/

/-- The step ran the handler's callback on the event: it is the handler's transaction for it, and
    among its statements are those of the callback. -/
def RanFor (eventId : Uuid) (handler : RegisteredHandler) (s : Commit Db (Position ω) Outcome) :
    Prop :=
  ∃ event done todo rest, s.call = .handle event done handler todo rest ∧
    event.eventId = eventId ∧ Ran event handler s.before s.after

open Classical in
/-- How many of the steps ran the handler's callback on the event.  The count is over what the steps
    did, not over a record they keep of it. -/
noncomputable def callbacks (eventId : Uuid) (handler : RegisteredHandler)
    (steps : List (Commit Db (Position ω) Outcome)) : Nat :=
  steps.countP fun s => RanFor eventId handler s

/-- The receipts of the handler for the event. -/
def Db.receipts (D : Db) (eventId : Uuid) (handlerName : String) : Nat :=
  D.eventHandlerReceipts.rows.countP (EventProcessor.isReceipt eventId handlerName)

/-- The receipts are unique by event and handler, so there is no second one to count. -/
theorem Db.receipts_le_one (D : Db) (eventId : Uuid) (handlerName : String) :
    D.receipts eventId handlerName ≤ 1 := by
  refine Table.countP_le_one _ ⟨.receiptHandler, [.uuid eventId, .text handlerName]⟩ ?_
  intro receipt hreceipt
  simp only [EventProcessor.isReceipt, decide_eq_true_eq] at hreceipt
  rw [← hreceipt.1, ← hreceipt.2]
  exact List.mem_singleton_self _

/-- To have a receipt is to have at least one. -/
theorem Db.hasReceipt_iff {eventId : Uuid} {handlerName : String} :
    D.HasReceipt eventId handlerName ↔ 0 < D.receipts eventId handlerName := by
  simp [Db.HasReceipt, Db.receipts, List.countP_pos_iff, Table.mem_rows]

/-- A handler that ran adds its receipt for the event and no other. -/
theorem Ran.receipts {event : EventEnvelope} {handler : RegisteredHandler} {e : Uuid} {n : String}
    (h : Ran event handler D D') :
    D'.receipts e n = D.receipts e n + if event.eventId = e ∧ handler.name = n then 1 else 0 := by
  obtain ⟨receipt, hreceipt, hrows, -⟩ := h.receipt
  simp only [EventProcessor.isReceipt, decide_eq_true_eq] at hreceipt
  rw [Db.receipts, hrows, List.countP_append, Db.receipts, List.countP_singleton]
  simp [EventProcessor.isReceipt, hreceipt.1, hreceipt.2]

section Steps

variable {c : Position ω} {a : Outcome} {handler : RegisteredHandler} {e : Uuid}

/-- A step that ran the callback has one receipt more after it than before. -/
theorem RanFor.receipts {s : Commit Db (Position ω) Outcome} (h : RanFor e handler s) :
    s.after.receipts e handler.name = s.before.receipts e handler.name + 1 := by
  obtain ⟨event, done, todo, rest, -, hid, hran⟩ := h
  rw [hran.receipts, if_pos ⟨hid, rfl⟩]

/-- A step in which the callback of a registered handler did not run leaves the receipts of the
    handler alone.  Handlers are told apart by their names, so a receipt of the name is a receipt of
    the handler. -/
theorem Site.Does.receipts_of_not_ranFor (hdoes : site.Does c a D D')
    (hmem : handler ∈ site.registry.handlers)
    (h : ¬RanFor e handler ⟨c, a, D, D'⟩) :
    D'.receipts e handler.name = D.receipts e handler.name := by
  obtain ⟨hknows, hcommitted⟩ := hdoes
  have hsame : ∀ {D₁ : Db}, D₁.eventHandlerReceipts = D.eventHandlerReceipts →
      D₁.receipts e handler.name = D.receipts e handler.name := by
    intro D₁ hD₁
    rw [Db.receipts, hD₁]
    rfl
  cases c with
  | handle event done handler' todo rest =>
    cases a with
    | handled ran =>
      cases ran with
      | true =>
        have hran : Ran event handler' D D' := hcommitted
        rw [hran.receipts, if_neg, Nat.add_zero]
        rintro ⟨hid, hname⟩
        have hmem' : handler' ∈ site.registry.handlersFor event.data.type := by
          rw [← hknows.2.1]
          exact List.mem_append_right _ List.mem_cons_self
        have heq : handler' = handler :=
          List.inj_on_of_nodup_map site.registry.names_nodup
            (EventHandlerRegistry.mem_of_mem_handlersFor hmem') hmem hname
        subst heq
        exact h ⟨event, done, todo, rest, rfl, hid, hran⟩
      | false => exact hsame (congrArg Db.eventHandlerReceipts hcommitted.1)
    | nothing => exact hsame (congrArg Db.eventHandlerReceipts hcommitted.1)
    | polled eventIds => exact hsame (congrArg Db.eventHandlerReceipts hcommitted.1)
    | found event => exact hsame (congrArg Db.eventHandlerReceipts hcommitted.1)
  | lookUp eventId rest =>
    cases a with
    | found event => exact hsame (congrArg Db.eventHandlerReceipts hcommitted.1)
    | nothing => exact hsame hcommitted.1
    | polled eventIds => exact hsame hcommitted.1
    | handled ran => exact hsame hcommitted.1
  | recordFailure eventId handlerName exception rest => exact hsame hcommitted.receipts
  | markComplete eventId rest => exact hsame hcommitted.receipts
  | idle => exact hsame hcommitted.1
  | poll => exact hsame hcommitted.1
  | retry => exact hsame hcommitted.1
  | other t => exact hsame hcommitted.1

/-- The steps of a run are counted from its start on. -/
theorem callbacks_snoc (steps : List (Commit Db (Position ω) Outcome))
    (s : Commit Db (Position ω) Outcome) :
    callbacks e handler (steps ++ [s]) = callbacks e handler steps + callbacks e handler [s] :=
  List.countP_append ..

/-- **Step lemma.**  A committed step adds a receipt of the handler exactly if it ran the callback
    of the handler. -/
theorem Site.Does.callbacks (hdoes : site.Does c a D D')
    (hmem : handler ∈ site.registry.handlers) (e : Uuid) :
    D'.receipts e handler.name =
      D.receipts e handler.name +
        CommerceOperations.callbacks e handler [⟨c, a, D, D'⟩] := by
  by_cases h : RanFor e handler ⟨c, a, D, D'⟩
  · have hone : CommerceOperations.callbacks e handler [⟨c, a, D, D'⟩] = 1 := by
      simp [CommerceOperations.callbacks, h]
    rw [hone]
    exact h.receipts
  · have hzero : CommerceOperations.callbacks e handler [⟨c, a, D, D'⟩] = 0 := by
      simp [CommerceOperations.callbacks, h]
    rw [hzero]
    exact hdoes.receipts_of_not_ranFor hmem h

end Steps

/-- In a serial run the receipts count the callbacks.  By induction on its steps. -/
theorem receipts_of_commits {steps : List (Commit Db (Position ω) Outcome)}
    (h : Commits site.Does D₀ steps D) {handler : RegisteredHandler}
    (hmem : handler ∈ site.registry.handlers) (e : Uuid) :
    D.receipts e handler.name = D₀.receipts e handler.name + callbacks e handler steps := by
  induction h with
  | nil => rfl
  | snoc _ hc ih => rw [hc.callbacks hmem e, ih, callbacks_snoc, Nat.add_assoc]

/-! ## Reports -/

/-- The columns of an event that its processing writes. -/
structure Bookkeeping where
  publicationStatus : EventStatus
  processingAttempts : Int
  lastError : Option String
  deriving DecidableEq

/-- The columns of an event that only its reports write. -/
def DomainEvent.bookkeeping (r : DomainEvent) : Bookkeeping :=
  ⟨r.publicationStatus, r.processingAttempts, r.lastError⟩

namespace Bookkeeping

/-- An event that waits for its first attempt. -/
def unattempted : Bookkeeping := ⟨.pending, 0, none⟩

/-- After one more attempt and how it ended. -/
def report (b : Bookkeeping) (failure : Option String) : Bookkeeping :=
  ⟨if failure.isSome then .failed else .published, b.processingAttempts + 1, failure⟩

/-- After some attempts, one after the other. -/
def after (b : Bookkeeping) (reports : List (Option String)) : Bookkeeping :=
  reports.foldl report b

/-- The last report is the last one made. -/
theorem after_append (b : Bookkeeping) (reports : List (Option String)) (failure : Option String) :
    b.after (reports ++ [failure]) = (b.after reports).report failure := by
  rw [after, List.foldl_append]
  rfl

/-- Every report counts one attempt, however it ended. -/
theorem attempts_after (b : Bookkeeping) (reports : List (Option String)) :
    (b.after reports).processingAttempts = b.processingAttempts + reports.length := by
  induction reports generalizing b with
  | nil => simp [after]
  | cons failure reports ih =>
    have hlength : ((failure :: reports).length : Int) = reports.length + 1 := by simp
    show ((b.report failure).after reports).processingAttempts = _
    rw [ih, hlength]
    show b.processingAttempts + 1 + (reports.length : Int) = _
    omega

end Bookkeeping

/-- The end of an attempt that a committed transaction reports for the event: the text of the
    failure, if it is one. -/
def reportOf (eventId : Uuid) : Position ω × Outcome → Option (Option String)
  | (.recordFailure id handlerName exception _, _) =>
    if id = eventId then some (some (EventProcessor.failureText handlerName exception)) else none
  | (.markComplete id _, _) => if id = eventId then some none else none
  | _ => none

/-- The reports about the event, in the order of their commits. -/
def reports (eventId : Uuid) (log : List (Position ω × Outcome)) : List (Option String) :=
  log.filterMap (reportOf eventId)

/-- What one committed transaction makes of the event `e`. -/
structure Told (e : Uuid) (report : Option (Option String)) (D D' : Db) : Prop where
  /-- a report is one more attempt, and ends the way it says -/
  attempted : ∀ {failure}, report = some failure → ∃ r r', D.domainEvents.get e = some r ∧
    D'.domainEvents.get e = some r' ∧ r'.bookkeeping = r.bookkeeping.report failure
  /-- without a report about the event its columns stay -/
  left : report = none → ∀ {r}, D.domainEvents.get e = some r →
    ∃ r', D'.domainEvents.get e = some r' ∧ r'.bookkeeping = r.bookkeeping
  /-- an event that is added waits for its first attempt -/
  new : D.domainEvents.get e = none → ∀ {r}, D'.domainEvents.get e = some r →
    r.bookkeeping = .unattempted

/-- In a quiet time nothing is reported: events on record keep their columns, and new ones wait for
    their first attempt. -/
theorem Silent.told (h : Silent D D') (e : Uuid) : Told e none D D' := by
  refine ⟨fun hsome => (by cases hsome), fun _ {r} hr => ⟨r, h.stays hr, rfl⟩,
    fun hnone {r} hr => ?_⟩
  obtain ⟨hstatus, hattempts, herror⟩ := h.fresh hnone hr
  simp [DomainEvent.bookkeeping, hstatus, hattempts, herror, Bookkeeping.unattempted]

/-- A mark reports about its own event and about no other. -/
theorem Marked.told {eventId : Uuid} {failure : Option String} (h : Marked eventId failure D D')
    (e : Uuid) : Told e (if eventId = e then some failure else none) D D' := by
  obtain ⟨r, hr, hr'⟩ := h.attempted
  by_cases he : eventId = e
  · subst he
    rw [if_pos rfl]
    refine ⟨fun {failure'} heq => ?_, fun heq => (by cases heq), fun hnone => ?_⟩
    · obtain rfl := Option.some.inj heq
      exact ⟨r, _, hr, hr', rfl⟩
    · rw [hr] at hnone
      cases hnone
  · rw [if_neg he]
    have hothers : D'.domainEvents.get e = D.domainEvents.get e := h.others fun heq => he heq.symm
    refine ⟨fun heq => (by cases heq), fun _ {r'} hr' => ⟨r', hothers.trans hr', rfl⟩,
      fun hnone {r'} hr' => ?_⟩
    rw [hothers, hnone] at hr'
    cases hr'

/-- **Step lemma.**  Each committed transaction does what it reports.  By its position. -/
theorem Committed.told {c : Position ω} {a : Outcome} (h : Committed c a D D') (e : Uuid) :
    Told e (reportOf e (c, a)) D D' := by
  have hsame : D' = D → Told e none D D' := fun heq => (Silent.of_eq (by rw [heq])).told e
  cases c with
  | handle event done handler todo rest =>
    cases a with
    | handled ran =>
      cases ran with
      | true => exact (Ran.silent h).told e
      | false => exact hsame h.1
    | nothing => exact hsame h.1
    | polled eventIds => exact hsame h.1
    | found event => exact hsame h.1
  | lookUp eventId rest =>
    cases a with
    | found event => exact hsame h.1
    | nothing => exact h.2.told e
    | polled eventIds => exact h.2.told e
    | handled ran => exact h.2.told e
  | recordFailure eventId handlerName exception rest => exact Marked.told h e
  | markComplete eventId rest => exact Marked.told h e
  | idle => exact h.2.told e
  | poll => exact h.2.told e
  | retry => exact h.2.told e
  | other t => exact h.2.told e

/-- The bookkeeping an event starts with; that of an event not yet on record is the one it will be
    added with. -/
def Db.bookkeeping (D : Db) (e : Uuid) : Bookkeeping :=
  ((D.domainEvents.get e).map DomainEvent.bookkeeping).getD .unattempted

/-- The events of a log: no report before the event is on record, and then the reports in turn.  By
    induction on the log; both halves are needed at once, because an event may be added in the
    middle of it. -/
theorem bookkeeping_of_serial (h : Serial Committed D₀ log D) (e : Uuid) :
    (D.domainEvents.get e = none → D₀.domainEvents.get e = none ∧ reports e log = []) ∧
      ∀ {r}, D.domainEvents.get e = some r →
        r.bookkeeping = (D₀.bookkeeping e).after (reports e log) := by
  induction h with
  | nil =>
    refine ⟨fun hnone => ⟨hnone, rfl⟩, fun {r} hr => ?_⟩
    rw [Db.bookkeeping, hr]
    rfl
  | @snoc log D c a D' hlog hc ih =>
    obtain ⟨hnone, hsome⟩ := ih
    have hreported := hc.told e
    have hsplit : reports e (log ++ [(c, a)]) =
        reports e log ++ (reportOf e (c, a)).toList := by
      rw [CommerceOperations.reports, List.filterMap_append]
      cases hreport : reportOf e (c, a) with
      | none => simp [CommerceOperations.reports, hreport]
      | some failure => simp [CommerceOperations.reports, hreport]
    rw [hsplit]
    cases hreport : reportOf e (c, a) with
    | some failure =>
      obtain ⟨r, r', hr, hr', hbookkeeping⟩ := hreported.attempted hreport
      refine ⟨fun habsent => ?_, fun {r''} hr'' => ?_⟩
      · rw [hr'] at habsent
        cases habsent
      · obtain rfl := Option.some.inj (hr'.symm.trans hr'')
        rw [hbookkeeping, hsome hr]
        exact (Bookkeeping.after_append ..).symm
    | none =>
      rw [Option.toList_none, List.append_nil]
      cases hD : D.domainEvents.get e with
      | none =>
        obtain ⟨hD₀, hempty⟩ := hnone hD
        refine ⟨fun _ => ⟨hD₀, hempty⟩, fun {r} hr => ?_⟩
        rw [hreported.new hD hr, hempty, Db.bookkeeping, hD₀]
        rfl
      | some r =>
        obtain ⟨r', hr', hbookkeeping⟩ := hreported.left hreport hD
        refine ⟨fun habsent => ?_, fun {r''} hr'' => ?_⟩
        · rw [hr'] at habsent
          cases habsent
        · obtain rfl := Option.some.inj (hr'.symm.trans hr'')
          rw [hbookkeeping, hsome hD]

/-! ## Every interleaving -/

section Interleavings

variable {sys : System Db (Write TableName.Entity) DbLock Environment Error Outcome (Position ω)}

/-- **Exactly once.**  In every interleaving of any number of clients, whatever fails and crashes,
    the committed transactions are the steps of a serial run, and the receipts of a handler for an
    event are those at the start and one for each step in which the handler's callback ran on the
    event.  There is at most one, so the effects of a callback are committed at most once. -/
theorem callback_committed_once (h₀ : site.Settled D₀)
    (h : System.Reachable site.client D₀ sys) :
    ∃ steps, Commits site.Does D₀ steps sys.committed ∧
      steps.map (fun s => (s.call, s.value)) = sys.log ∧
        ∀ handler ∈ site.registry.handlers, ∀ e,
          sys.committed.receipts e handler.name =
              D₀.receipts e handler.name + callbacks e handler steps ∧
            sys.committed.receipts e handler.name ≤ 1 := by
  obtain ⟨steps, hsteps, hlog⟩ := (h.upheld (site.protocol h₀)).serial.commits
  refine ⟨steps, hsteps, hlog, fun handler hmem e => ⟨?_, ?_⟩⟩
  · exact receipts_of_commits hsteps hmem e
  · exact Db.receipts_le_one _ e handler.name

/-- **No event is lost.**  An event on record stays.  It still waits or is published, and it is
    published only when the callback of each of its handlers ran in one committed step, or had its
    receipt from the start; the callbacks were committed in the order of registration. -/
theorem no_event_is_lost (h₀ : site.Settled D₀) (h : System.Reachable site.client D₀ sys) :
    (∀ {event}, D₀.OnRecord event → sys.committed.OnRecord event) ∧
      ∃ steps, Commits site.Does D₀ steps sys.committed ∧
        steps.map (fun s => (s.call, s.value)) = sys.log ∧
          ∀ {e r}, sys.committed.domainEvents.get e = some r →
            (DatabaseEventStore.waiting r = true ∨ r.publicationStatus = .published ∧
              ∀ handler ∈ site.registry.handlersFor r.payload.type,
                D₀.receipts e handler.name + callbacks e handler steps = 1) ∧
            (site.registry.handlersFor r.payload.type).Pairwise fun handler later =>
              D₀.receipts e later.name + callbacks e later steps = 1 →
                D₀.receipts e handler.name + callbacks e handler steps = 1 := by
  have hupheld := h.upheld (site.protocol h₀)
  have hsettled : site.Settled sys.committed := hupheld.inv
  obtain ⟨steps, hsteps, hlog⟩ := hupheld.serial.commits
  -- a receipt is a callback that ran in one step, or was there at the start
  have hreceipt : ∀ e {type}, ∀ handler ∈ site.registry.handlersFor type,
      (sys.committed.HasReceipt e handler.name ↔
        D₀.receipts e handler.name + callbacks e handler steps = 1) := by
    intro e type handler hmem
    have hle := Db.receipts_le_one sys.committed e handler.name
    rw [Db.hasReceipt_iff,
      ← receipts_of_commits hsteps (EventHandlerRegistry.mem_of_mem_handlersFor hmem) e]
    omega
  refine ⟨fun {event} hevent => ?_, steps, hsteps, hlog, fun {e r} hr => ⟨?_, ?_⟩⟩
  · have hsince : Since D₀ sys.committed := by
      refine Commits.inv (Since.refl D₀) (fun c a D D' hD hc => ?_) hsteps
      exact Since.trans hD hc.2.since
    exact hsince.events hevent
  -- only four statuses are possible, and the code never sets the fourth
  · have hinUse := hsettled.inUse hr
    cases hstatus : r.publicationStatus with
    | pending => exact Or.inl (by simp [DatabaseEventStore.waiting, hstatus])
    | failed => exact Or.inl (by simp [DatabaseEventStore.waiting, hstatus])
    | deadLettered => exact absurd hstatus hinUse
    | published =>
      refine Or.inr ⟨rfl, fun handler hhandler => ?_⟩
      exact (hreceipt e handler hhandler).mp (hsettled.published hr hstatus handler hhandler)
  · have hid : r.id = e := Table.key_of_get hr
    have hevent : sys.committed.OnRecord (DatabaseEventStore.toEnvelope r) := by
      refine ⟨r, ?_, rfl⟩
      show sys.committed.domainEvents.get r.id = some r
      rw [hid]
      exact hr
    refine (hsettled.inOrder hevent).imp_of_mem fun {handler later} hhandler hmem hle hlater => ?_
    have hle : sys.committed.HasReceipt r.id later.name →
        sys.committed.HasReceipt r.id handler.name := hle
    rw [hid] at hle
    exact (hreceipt e handler hhandler).mp (hle ((hreceipt e later hmem).mpr hlater))

/-- **The outbox tells the reports.**  The attempts of an event are counted, and its status and
    error are those of the last report committed, whoever made it. -/
theorem outbox_tells_reports (h₀ : site.Settled D₀) (h : System.Reachable site.client D₀ sys)
    {e : Uuid} {r : DomainEvent} (hr : sys.committed.domainEvents.get e = some r) :
    r.processingAttempts =
        (D₀.bookkeeping e).processingAttempts + (reports e sys.log).length ∧
      (∀ {last}, (reports e sys.log).getLast? = some last →
        r.publicationStatus = (if last.isSome then .failed else .published) ∧
          r.lastError = last) ∧
      (reports e sys.log = [] → r.bookkeeping = D₀.bookkeeping e) := by
  have hserial : Serial Committed D₀ sys.log sys.committed :=
    (h.upheld (site.protocol h₀)).serial.mono fun _ _ _ _ hdoes => hdoes.2
  have hbookkeeping := (bookkeeping_of_serial hserial e).2 hr
  refine ⟨?_, fun {last} hlast => ?_, fun hempty => ?_⟩
  · have hattempts := congrArg Bookkeeping.processingAttempts hbookkeeping
    rw [Bookkeeping.attempts_after] at hattempts
    exact hattempts
  · obtain ⟨before, hreports⟩ := List.getLast?_eq_some_iff.mp hlast
    rw [hreports, Bookkeeping.after_append] at hbookkeeping
    exact ⟨congrArg Bookkeeping.publicationStatus hbookkeeping,
      congrArg Bookkeeping.lastError hbookkeeping⟩
  · rw [hempty] at hbookkeeping
    exact hbookkeeping

end Interleavings

/-! ## A delivery -/

namespace Delivery

/-- An event that waits, with one handler. -/
def sampleEvent : DomainEvent :=
  { id := Uuid.ofNat 1, version := 1, createdAt := 0, eventType := "ORDER_RECEIVED"
    eventVersion := 1, producer := "commerce-operations", aggregateType := "order"
    aggregateId := Uuid.ofNat 2, aggregateVersion := 1, correlationId := Uuid.ofNat 3
    workflowId := none, causationId := none, idempotencyKey := "order-received:2"
    payload := .orderReceived (Uuid.ofNat 2) "ebay" "o-1", publicationStatus := .pending
    processingAttempts := 0, lastError := none }

/-- A database in which one event is stored, and nothing else. -/
def sampleDb : Db where
  table
    | .domainEvents => .singleton sampleEvent
    | _ => ∅

/-- A handler that enters the order in the audit trail. -/
def sampleHandler : RegisteredHandler where
  name := "record-order"
  eventType := .orderReceived
  callback event :=
    addAudit "system" "record-order" "order.recorded" "order" event.aggregateId none none none
      event.correlationId

/-- A site with this one handler, and with no other clients. -/
def sampleSite : Site Unit where
  registry := ⟨[sampleHandler], List.nodup_singleton _⟩
  batchSize := 100
  eventTypes := [.orderReceived]
  retryDue := pure ()
  tx _ := pure ()
  callbacks_quiet := by
    intro handler hhandler event
    rw [List.mem_singleton.mp hhandler]
    exact Tx.quiet_of_confined addAudit_confined (by decide) (by decide)
  retryDue_quiet := trivial
  tx_quiet _ := trivial

/-- To start with, nothing has a receipt and the event waits. -/
theorem settled_sampleDb : sampleSite.Settled sampleDb := by
  have hreceipts : ∀ e n, ¬sampleDb.HasReceipt e n := by
    rintro e n ⟨receipt, hmem, -⟩
    exact Table.not_mem_empty receipt hmem
  have hget : ∀ {e r}, sampleDb.domainEvents.get e = some r → r = sampleEvent := by
    intro e r hr
    exact List.mem_singleton.mp (Table.mem_of_get hr)
  refine ⟨fun receipt hmem => absurd hmem (Table.not_mem_empty receipt), fun {event} _ => ?_,
    fun {e r} hr hpublished => ?_, fun {e r} hr => ?_⟩
  · exact List.pairwise_of_forall fun _ _ h => absurd h (hreceipts _ _)
  · rw [hget hr] at hpublished
    cases hpublished
  · rw [hget hr]
    decide

/-- The first of the client's transactions: it looks the event up. -/
def sampleLookUp : Position Unit := .lookUp sampleEvent.id []
/-- The handler's transaction, the only one that writes a receipt. -/
def sampleHandle : Position Unit :=
  .handle (DatabaseEventStore.toEnvelope sampleEvent) [] sampleHandler [] []
/-- The end of the event, when its one handler is through. -/
def sampleMark : Position Unit := .markComplete sampleEvent.id []

/-- The state once the handler ran, and once the event is marked. -/
def sampleHandled : Db :=
  afterCall sampleSite.call (Environment.numbered 0) sampleHandle sampleDb
/-- The state once the event is marked. -/
def sampleMarked : Db :=
  afterCall sampleSite.call (Environment.numbered 0) sampleMark sampleHandled

/-- The transactions of the client, in order. -/
def sampleLog : List (Position Unit × Outcome) :=
  [(.idle, .nothing), (sampleLookUp, .found (DatabaseEventStore.toEnvelope sampleEvent)),
    (sampleHandle, .handled true), (sampleMark, .nothing)]

/-- A client that runs alone takes these four transactions. -/
theorem sample_alone : Alone sampleSite.client .idle sampleDb sampleLog .idle sampleMarked := by
  have hidle : (sampleSite.client.call .idle).runs sampleDb (.ok (.nothing, sampleDb)) := rfl
  have hlookUp : (sampleSite.client.call sampleLookUp).runs sampleDb
      (.ok (.found (DatabaseEventStore.toEnvelope sampleEvent), sampleDb)) := rfl
  have hran : returned (Environment.numbered 0) (sampleSite.call sampleHandle) sampleDb =
      some (.handled true) := rfl
  have hmarked : returned (Environment.numbered 0) (sampleSite.call sampleMark) sampleHandled =
      some .nothing := rfl
  have hhandle := runs_of_returned_afterCall sampleSite.call hran
  have hmark := runs_of_returned_afterCall sampleSite.call hmarked
  exact .call hidle (Or.inr (Or.inl ⟨_, rfl⟩)) (.call hlookUp rfl (.call hhandle rfl
    (.call hmark (Or.inr rfl) (.stay (.idle : Position Unit) sampleMarked))))

/-- The end of the sample's way is a reachable state. -/
theorem sample_reachable :
    ∃ sys, System.Reachable sampleSite.client sampleDb sys ∧ sys.committed = sampleMarked ∧
      sys.log = sampleLog := by
  have hinit : System.Reachable sampleSite.client sampleDb
      ⟨sampleDb, fun _ => .idle .idle, []⟩ := .init fun _ => ⟨_, rfl, rfl⟩
  obtain ⟨sys, h, hD, hlog, -⟩ := hinit.alone sample_alone (i := 0) rfl (fun _ => rfl) rfl
  exact ⟨sys, h, hD, hlog⟩

/-- The event of the sample as it is marked. -/
def sampleMarkedEvent : DomainEvent :=
  { sampleEvent with version := 2, publicationStatus := .published, processingAttempts := 1 }

/-- In the marked state the event is `PUBLISHED` after one attempt. -/
theorem sampleMarked_get :
    sampleMarked.domainEvents.get sampleEvent.id = some sampleMarkedEvent := by decide

/-- What the callback wrote is there once. -/
theorem sampleMarked_audit :
    sampleMarked.auditEvents.rows.map (fun row => (row.action, row.resourceId)) =
      [("order.recorded", Uuid.ofNat 2)] := by decide

end Delivery

open Delivery in
/-- In the sample the callback ran in one step, its receipt is there once, and so is the audit entry
    it wrote. -/
theorem callback_committed_once_sample :
    ∃ sys steps, System.Reachable sampleSite.client sampleDb sys ∧
      Commits sampleSite.Does sampleDb steps sys.committed ∧
        callbacks sampleEvent.id sampleHandler steps = 1 ∧
          sys.committed.receipts sampleEvent.id "record-order" = 1 ∧
            sys.committed.auditEvents.rows.map (fun row => (row.action, row.resourceId)) =
              [("order.recorded", Uuid.ofNat 2)] := by
  obtain ⟨sys, h, hD, hlog⟩ := sample_reachable
  obtain ⟨steps, hsteps, -, honce⟩ := callback_committed_once settled_sampleDb h
  obtain ⟨hcount, -⟩ := honce sampleHandler List.mem_cons_self sampleEvent.id
  have hreceipts : sys.committed.receipts sampleEvent.id "record-order" = 1 := by
    rw [hD]
    decide
  have hstart : sampleDb.receipts sampleEvent.id sampleHandler.name = 0 := rfl
  have hsame : sys.committed.receipts sampleEvent.id sampleHandler.name = 1 := hreceipts
  refine ⟨sys, steps, h, hsteps, by omega, hreceipts, ?_⟩
  rw [hD]
  exact sampleMarked_audit

open Delivery in
/-- In the sample the event is published, with the callback of its handler counted. -/
theorem no_event_is_lost_sample :
    ∃ sys steps, System.Reachable sampleSite.client sampleDb sys ∧
      Commits sampleSite.Does sampleDb steps sys.committed ∧
        sys.committed.domainEvents.get sampleEvent.id = some sampleMarkedEvent ∧
          sys.committed.auditEvents.rows.map (fun row => (row.action, row.resourceId)) =
            [("order.recorded", Uuid.ofNat 2)] ∧
            ∀ handler ∈ sampleSite.registry.handlersFor .orderReceived,
              callbacks sampleEvent.id handler steps = 1 := by
  obtain ⟨sys, h, hD, hlog⟩ := sample_reachable
  have hr : sys.committed.domainEvents.get sampleEvent.id = some sampleMarkedEvent := by
    rw [hD]
    exact sampleMarked_get
  obtain ⟨-, steps, hsteps, -, hevents⟩ := no_event_is_lost settled_sampleDb h
  refine ⟨sys, steps, h, hsteps, hr, ?_, fun handler hhandler => ?_⟩
  · rw [hD]
    exact sampleMarked_audit
  · obtain ⟨hwaiting | ⟨-, hall⟩, -⟩ := hevents hr
    · exact absurd hwaiting (by decide)
    · have hone := hall handler hhandler
      have hstart : sampleDb.receipts sampleEvent.id handler.name = 0 := rfl
      omega

open Delivery in
/-- In the sample the attempts of the event are the reports of the log. -/
theorem outbox_tells_reports_sample :
    ∃ sys, System.Reachable sampleSite.client sampleDb sys ∧
      sys.committed.domainEvents.get sampleEvent.id = some sampleMarkedEvent ∧
        sampleMarkedEvent.processingAttempts = 0 + (reports sampleEvent.id sys.log).length := by
  obtain ⟨sys, h, hD, hlog⟩ := sample_reachable
  have hr : sys.committed.domainEvents.get sampleEvent.id = some sampleMarkedEvent := by
    rw [hD]
    exact sampleMarked_get
  exact ⟨sys, h, hr, (outbox_tells_reports settled_sampleDb h hr).1⟩

end CommerceOperations
