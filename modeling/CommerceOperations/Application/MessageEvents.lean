/-
  The events of the messages of one conversation.

  The event of a message carries the version of its conversation, and the outbox holds one event
  of a kind for each version.  The version moves when the classification of a message changes the
  conversation's row; a message that is decided as the row already says leaves it where it was, and
  the next message finds its version taken.

  The invariant is `Heard`: the events of the conversation are of versions it has reached.  While
  the row moves with each message, the next version is always free; when it does not move, the last
  event has the version the next one would have, and its key is another, so the insert fails.
-/
import CommerceOperations.Application.Conversations

namespace CommerceOperations

open Relational Prog

namespace CustomerServiceAgent

/-! ## What a classification writes -/

/-- The tables a classification may write. -/
abbrev classifyTables : List TableName :=
  [.agentRuns, .customerConversations, .customerMessages, .approvals, .auditEvents]

section Spares

variable [Digests] {agent : CustomerServiceAgent} {i : TableName}

omit [Digests] in
/-- A table that is not in the list is none of its tables. -/
theorem ne_of_notMem {j : TableName} (hi : i ∉ classifyTables) (hj : j ∈ classifyTables) :
    j ≠ i := by
  rintro rfl
  exact hi hj

/-- A draft writes these tables only. -/
theorem draftForApproval_spares {loaded c : Classified} (hi : i ∉ classifyTables) :
    (agent.draftForApproval loaded c).spares i := by
  refine writes_bind (Tx.spares_flush _ _ (ne_of_notMem hi (by decide))) fun message => ?_
  refine writes_bind (Tx.spares_flush _ _ (ne_of_notMem hi (by decide))) fun conversation => ?_
  refine writes_bind ?_ fun approval => trivial
  exact ApprovalEngine.createRequest_spares (ne_of_notMem hi (by decide)).symm
    (ne_of_notMem hi (by decide)).symm

/-- The cascade of decisions spares every table but these. -/
theorem decide_spares {loaded c : Classified} {output : CustomerServiceAIResponse}
    (hi : i ∉ classifyTables) : (agent.decide loaded c output).spares i := by
  unfold decide
  split_ifs
  · exact trivial
  · exact trivial
  · exact trivial
  · exact trivial
  · exact draftForApproval_spares hi
  · exact writes_bind (writes_answer _) fun _ => trivial
  · exact trivial

/-- Using a reply of the model spares them. -/
theorem classifyReply_spares {loaded : Classified} {agentRun : AgentRun}
    {reply : Except Error (LLMResult CustomerServiceAIResponse)} (hi : i ∉ classifyTables) :
    (agent.classifyReply loaded agentRun reply).spares i := by
  unfold classifyReply
  split
  · refine writes_bind (writes_bind Tx.spares_require fun _ => trivial) fun accounted => ?_
    refine writes_bind (Tx.spares_flush _ _ (ne_of_notMem hi (by decide))) fun _ => ?_
    exact decide_spares hi
  · exact writes_bind (Tx.spares_flush _ _ (ne_of_notMem hi (by decide))) fun _ => trivial

/-- Asking the model for a reply spares them. -/
theorem classifyWithAi_spares {loaded : Classified} (hi : i ∉ classifyTables) :
    (agent.classifyWithAi loaded).spares i := by
  refine writes_bind (writes_answer _) fun id => writes_bind (writes_answer _) fun now => ?_
  refine writes_bind (Tx.spares_add _ (ne_of_notMem hi (by decide))) fun agentRun => ?_
  have hauthorize : (agent.usageAccounting.authorize none).spares i := by
    refine writes_bind (writes_answer _) fun now => writes_bind (writes_query _) fun monthly => ?_
    exact writes_bind Tx.spares_require fun _ => Tx.spares_require
  refine writes_bind (writes_savepoint hauthorize) fun authorized => ?_
  cases authorized with
  | error e => exact classifyReply_spares hi
  | ok _ => exact writes_bind (writes_answer _) fun reply => classifyReply_spares hi

/-- A classification spares every other table, in particular the outbox. -/
theorem classify_spares {conversation : CustomerConversation} {message : CustomerMessage}
    (hi : i ∉ classifyTables) : (agent.classify conversation message).spares i := by
  unfold classify
  extract_lets loaded risks finish
  have hfinish : ∀ x, (finish x).spares i := by
    rintro ⟨stored, changed⟩
    refine writes_bind (Tx.spares_flush _ _ (ne_of_notMem hi (by decide))) fun conversation => ?_
    refine writes_bind (Tx.spares_flush _ _ (ne_of_notMem hi (by decide))) fun message => ?_
    exact writes_bind (addAudit_spares (ne_of_notMem hi (by decide)).symm) fun _ => trivial
  split
  · exact writes_bind (classifyWithAi_spares hi) hfinish
  · exact writes_bind (p := pure _) trivial hfinish

end Spares

end CustomerServiceAgent

/-! ## The versions in the outbox -/

section Versions

variable {D D' : Db}

/-- No event of the type has the aggregate and the version yet. -/
def EventContext.Free (context : EventContext) (eventType : String) (D : Db) : Prop :=
  ∀ e ∈ D.domainEvents, ¬(e.aggregateType = context.aggregateType ∧
    e.aggregateId = context.aggregateId ∧ e.aggregateVersion = context.aggregateVersion ∧
      e.eventType = eventType)

/-- The exception does not report the version of an event as taken. -/
def Error.SparesVersions (err : Error) : Prop :=
  ∀ us, err = .integrityError .domainEvents us → ∀ u ∈ us, u.constraint ≠ .eventAggregateVersion

/-- What spares the outbox reports no version as taken. -/
theorem sparesVersions_of_spares {α : Type} {p : Tx α} (h : p.spares .domainEvents) (D : Db) :
    p.post D (fun _ (E : Db) => E.domainEvents = D.domainEvents) Error.SparesVersions :=
  post_mono (Tx.post_of_spares h D) (fun _ _ hE => hE) fun _ he us heq => absurd heq (he us)

/-- An exception of the source is no violated constraint. -/
theorem Error.sparesVersions_raised {type : ExceptionType} {message : String} :
    Error.SparesVersions (.raised type message) := by
  intro us heq
  exact nomatch heq

namespace DatabaseEventStore

/-- A publication meets the constraint on versions only if the version is taken. -/
theorem publish_sparesVersions {event : EventEnvelope}
    (hfree : ∀ e ∈ D.domainEvents, ¬(e.aggregateType = event.aggregateType ∧
      e.aggregateId = event.aggregateId ∧ e.aggregateVersion = event.aggregateVersion ∧
        e.eventType = event.data.eventType)) :
    (publish event).post D (fun _ _ => True) Error.SparesVersions := by
  unfold publish
  refine post_bind.mpr ((post_query _).mpr ?_)
  split
  · split
    · exact Error.sparesVersions_raised
    · exact trivial
  · refine post_insert.mpr ⟨fun _ => trivial, fun _ us heq u hu hconstraint => ?_⟩
    cases heq
    obtain ⟨hmem, htaken⟩ := List.mem_filter.mp hu
    obtain ⟨e, he, hue⟩ := Table.taken_eq_true.mp htaken
    -- the event that has the value is of this version
    have hvalue : u = ⟨.eventAggregateVersion, [.text event.aggregateType, .uuid event.aggregateId,
        .int event.aggregateVersion, .text event.data.eventType]⟩ := by
      rcases List.mem_cons.mp hmem with rfl | hmem'
      · exact absurd hconstraint (by simp)
      · exact List.mem_singleton.mp hmem'
    refine hfree e he ?_
    rcases List.mem_cons.mp hue with rfl | hue'
    · exact absurd hconstraint (by simp)
    · have hvalues := congrArg Unique.values ((List.mem_singleton.mp hue').symm.trans hvalue)
      simpa using hvalues

/-- An event whose version is free does not meet the constraint on versions. -/
theorem emit_sparesVersions {payload : EventPayload} {context : EventContext} {key : String}
    (hfree : context.Free payload.eventType D) :
    (emit payload context key).post D (fun _ _ => True) Error.SparesVersions := by
  refine post_bind.mpr ?_
  unfold createEvent
  refine post_bind.mpr ?_
  unfold Tx.require
  split
  · exact fun env env' => publish_sparesVersions hfree
  · exact Error.sparesVersions_raised

end DatabaseEventStore

end Versions

/-! ## Messages to one conversation -/

/-- What the event of a message refers to. -/
def CustomerConversation.eventContext (c : CustomerConversation) : EventContext where
  aggregateType := "customer_conversation"
  aggregateId := c.id
  aggregateVersion := c.version
  correlationId := c.id
  workflowId := none
  causationId := none

/-- A message that arrives, as `handle_message` is told of it. -/
structure InboundMessage where
  externalMessageId : String
  channel : String
  content : String

/-- No message of the conversation `k` has the external id. -/
def InboundMessage.IsNew (k : Uuid) (x : InboundMessage) (D : Db) : Prop :=
  ∀ m ∈ D.customerMessages, m.conversationId = k → m.externalMessageId ≠ some x.externalMessageId

/-- The transaction that handles it. -/
def InboundMessage.run [Digests] (agent : CustomerServiceAgent) (k : Uuid) (x : InboundMessage) :
    Tx CustomerServiceResult :=
  agent.handleMessage k x.externalMessageId x.channel x.content

/-- The outbox has no event of the conversation `k`. -/
def Unheard (k : Uuid) (D : Db) : Prop :=
  ∀ e ∈ D.domainEvents, e.aggregateId ≠ k ∧
    ∀ messageId channel, e.payload ≠ .customerMessageReceived k messageId channel

/-- The events of the conversation `k` are of versions it has reached, and their messages are
    stored. -/
structure Heard (k : Uuid) (D : Db) : Prop where
  /-- no event is ahead of the conversation -/
  reached : ∀ e ∈ D.domainEvents, e.aggregateId = k → ∀ c, D.customerConversations.get k = some c →
    e.aggregateVersion ≤ c.version
  /-- and no event is of a message that is not there -/
  stored : ∀ e ∈ D.domainEvents, ∀ messageId channel,
    e.payload = .customerMessageReceived k messageId channel →
      ∃ m, D.customerMessages.get messageId = some m

namespace InboundMessage

variable [Digests] {agent : CustomerServiceAgent} {k : Uuid} {x y : InboundMessage} {D D' : Db}
variable {result : CustomerServiceResult}

/-- A message whose version is free meets no constraint on versions. -/
theorem run_sparesVersions (hfree : ∀ c, D.customerConversations.get k = some c →
      c.eventContext.Free "CUSTOMER_MESSAGE_RECEIVED" D) :
    (x.run agent k).post D (fun _ _ => True) Error.SparesVersions := by
  refine post_bind.mpr ((post_query _).mpr ?_)
  split
  · refine post_mono (sparesVersions_of_spares ?_ D) (fun _ _ _ => trivial) fun _ he => he
    exact writes_bind Tx.spares_require fun _ => trivial
  · refine post_bind.mpr (post_selectForUpdate.mpr (post_bind.mpr ?_))
    cases hc : (D.table .customerConversations).rows.find? fun c => decide (c.id = k) with
    | none => exact Error.sparesVersions_raised
    | some c =>
      have hget : D.customerConversations.get k = some c := hc
      obtain rfl : c.id = k := Table.key_of_get hget
      refine post_bind.mpr ((post_answer _).mpr fun env => post_bind.mpr ?_)
      refine post_insert.mpr ⟨fun hconflicts => ?_, fun _ => ?_⟩
      swap
      · intro us heq
        exact nomatch heq
      -- the outbox is as before, and the classification leaves it alone
      refine post_bind.mpr (post_mono (DatabaseEventStore.emit_sparesVersions ?_) ?_ fun _ he => he)
      · intro e he
        exact hfree c hget e he
      · intro e E _
        refine post_mono (sparesVersions_of_spares (p := _) ?_ E) (fun _ _ _ => trivial)
          fun _ he => he
        exact writes_bind (CustomerServiceAgent.classify_spares (by decide)) fun _ => trivial

/-- **A message is stored with its event**, of the version the conversation had. -/
theorem run_event (hnew : x.IsNew k D) (hheard : Heard k D)
    (h : (x.run agent k).runs D (.ok (result, D'))) :
    ∃ c d e, c.id = k ∧ CallClassifies agent (fun env => env) c x.content D D' result.message d ∧
      e.aggregateType = "customer_conversation" ∧ e.aggregateId = k ∧
        e.aggregateVersion = c.version ∧ e.eventType = "CUSTOMER_MESSAGE_RECEIVED" ∧
          e.payload = .customerMessageReceived k result.message.id x.channel ∧
            D.domainEvents.conflicts e = false ∧ D'.domainEvents = D.domainEvents.insert e := by
  rw [← under_id (x.run agent k)] at h
  rcases handleMessage_receives h with
    ⟨-, hmem, hthread, hexternal⟩ | ⟨c, message, D₁, D₂, rfl, hchannel, hcontent, hr⟩
  · exact absurd hexternal (hnew _ hmem hthread)
  · obtain ⟨d', hd'⟩ := hr.classifies
    obtain ⟨d, hd⟩ := hr.callClassifies
    rw [hcontent] at hd
    obtain ⟨e, hemit⟩ := hr.reported
    have hevents₁ : D₁.domainEvents = D.domainEvents := by
      rw [hr.added]
      exact Database.apply_table_of_ne _ _
        (show TableName.domainEvents ≠ .customerMessages by decide)
    have hafter : D'.domainEvents = D₂.domainEvents :=
      Tx.table_of_spares (CustomerServiceAgent.classify_spares (by decide))
        (runs_of_under hr.classified)
    obtain ⟨-, -, hpayload, ⟨he, -⟩ | ⟨⟨id, now, he⟩, -, hconflicts, hD₂⟩⟩ :=
      DatabaseEventStore.emit_runs hemit
    · -- the message of a stored event is stored, but this one is new
      rw [hevents₁] at he
      obtain ⟨m, hm⟩ := hheard.stored e he _ _ hpayload
      exact absurd (hm.symm.trans hr.fresh) (by simp)
    · refine ⟨c, d, e, rfl, hd, ?_, ?_, ?_, ?_, ?_, ?_, ?_⟩
      · rw [he]
        rfl
      · rw [he]
        rfl
      · rw [he]
        rfl
      · rw [he]
        rfl
      · rw [hpayload, hd'.id, hchannel]
      · rw [← hevents₁]
        exact hconflicts
      · rw [hafter, hD₂, ← hevents₁]
        exact Database.apply_table_self ..

omit [Digests] in
/-- A row that moves is at the next version. -/
theorem moved_cases (c new : CustomerConversation) :
    c.moved new = c ∨ c.moved new ≠ c ∧ (c.moved new).version = c.version + 1 := by
  unfold CustomerConversation.moved
  split
  · exact Or.inl rfl
  · refine Or.inr ⟨fun heq => ?_, rfl⟩
    have hversion : c.version + 1 = c.version := congrArg CustomerConversation.version heq
    omega

omit [Digests] in
/-- The version of a conversation never goes back, whatever a call makes of it. -/
theorem version_le_moved (c new : CustomerConversation) : c.version ≤ (c.moved new).version := by
  rcases moved_cases c new with hsame | ⟨-, hversion⟩
  · rw [hsame]
  · omega

/-- **Step lemma.**  The event of the message has the version that the conversation had, which it
    has reached; the message is stored with it. -/
theorem run_heard (hnew : x.IsNew k D) (hheard : Heard k D)
    (h : (x.run agent k).runs D (.ok (result, D'))) : Heard k D' := by
  obtain ⟨c, d, e, rfl, hd, -, -, hversion, -, hpayload, hconflicts, hevents⟩ :=
    run_event hnew hheard h
  have hrow : D'.customerConversations.get c.id = some (c.moved (d.applyTo c)) :=
    (hd.conversations c.id).trans (if_pos rfl)
  constructor
  · intro e' he' haggregate c' hc'
    obtain rfl : c.moved (d.applyTo c) = c' := Option.some.inj (hrow.symm.trans hc')
    have hle := version_le_moved c (d.applyTo c)
    rw [hevents, Table.mem_insert hconflicts] at he'
    rcases he' with he' | rfl
    · have hreached := hheard.reached e' he' haggregate c hd.conversation
      omega
    · omega
  · intro e' he' messageId channel hpayload'
    rw [hevents, Table.mem_insert hconflicts] at he'
    rw [hd.messages messageId]
    split
    · exact ⟨_, rfl⟩
    · rename_i hother
      rcases he' with he' | rfl
      · exact hheard.stored e' he' messageId channel hpayload'
      · -- the new event is about the message of the call
        rw [hpayload] at hpayload'
        injection hpayload' with _ hid _
        exact absurd hid hother

end InboundMessage

section Histories

variable [Digests] {agent : CustomerServiceAgent} {k : Uuid} {D₀ D₁ : Db}

/-- Messages with new external ids, handled one after the other. -/
abbrev InboundHistory (agent : CustomerServiceAgent) (k : Uuid) (D₀ : Db) : Db → Prop :=
  History (InboundMessage.run agent k) (InboundMessage.IsNew k) D₀

/-- **Run lemma.**  By induction on the messages. -/
theorem heard_of_history (hstart : Unheard k D₀) (h : InboundHistory agent k D₀ D₁) :
    Heard k D₁ := by
  refine h.inv (P := Heard k) ⟨?_, ?_⟩ ?_
  · exact fun e he haggregate => absurd haggregate (hstart e he).1
  · exact fun e he messageId channel hpayload => absurd hpayload ((hstart e he).2 messageId channel)
  · exact fun x D result D' hheard hnew hrun => InboundMessage.run_heard hnew hheard hrun

/-- Handling the message meets no constraint on the versions of events. -/
def InboundMessage.Storable (agent : CustomerServiceAgent) (k : Uuid) (x : InboundMessage)
    (D : Db) : Prop :=
  (x.run agent k).post D (fun _ _ => True) Error.SparesVersions

/-- **A message can be stored exactly if the one before it moved the conversation's row.**  The
    first can be stored; after a message that left the row as it was no message is handled.  If the
    row moved, its version is beyond those of all events, and so free; if it did not, the event of
    the last message has it. -/
theorem message_storable_iff_moved (hstart : Unheard k D₀) :
    (∀ x : InboundMessage, x.Storable agent k D₀) ∧
      ∀ (D₁ D₂ : Db) (x : InboundMessage) result, InboundHistory agent k D₀ D₁ → x.IsNew k D₁ →
        (x.run agent k).runs D₁ (.ok (result, D₂)) → ∀ y : InboundMessage, y.IsNew k D₂ →
          (D₂.customerConversations.get k ≠ D₁.customerConversations.get k →
              y.Storable agent k D₂) ∧
            (D₂.customerConversations.get k = D₁.customerConversations.get k →
              ∀ result' D₃, ¬(y.run agent k).runs D₂ (.ok (result', D₃))) := by
  refine ⟨fun x => InboundMessage.run_sparesVersions fun c hc e he hsame => ?_, ?_⟩
  · refine (hstart e he).1 ?_
    rw [hsame.2.1]
    exact Table.key_of_get hc
  intro D₁ D₂ x result h hnew hrun y hnew'
  have hheard : Heard k D₁ := heard_of_history hstart h
  have hheard' : Heard k D₂ := InboundMessage.run_heard hnew hheard hrun
  -- the event of the message carries the version the conversation had before the call
  obtain ⟨c, d, e, rfl, hd, htype, haggregate, hversion, hevent, -, hconflicts, hevents⟩ :=
    InboundMessage.run_event hnew hheard hrun
  have hrow : D₂.customerConversations.get c.id = some (c.moved (d.applyTo c)) :=
    (hd.conversations c.id).trans (if_pos rfl)
  refine ⟨fun hmoved => ?_, fun hsame result' D₃ hrun' => ?_⟩
  · -- every event is of a version below the one the row has now
    have hnext : (c.moved (d.applyTo c)).version = c.version + 1 := by
      rcases InboundMessage.moved_cases c (d.applyTo c) with hsame | ⟨-, hversion⟩
      · rw [hrow, hsame, hd.conversation] at hmoved
        exact absurd rfl hmoved
      · exact hversion
    refine InboundMessage.run_sparesVersions fun c' hc' e' he' heq => ?_
    obtain rfl : c.moved (d.applyTo c) = c' := Option.some.inj (hrow.symm.trans hc')
    have hsameVersion : e'.aggregateVersion = (c.moved (d.applyTo c)).version := heq.2.2.1
    have hid : e'.aggregateId = c.id := heq.2.1.trans (Table.key_of_get hc')
    rw [hevents, Table.mem_insert hconflicts] at he'
    rcases he' with he' | rfl
    · have hreached := hheard.reached e' he' hid c hd.conversation
      omega
    · omega
  · -- the next event would be of the version of this one
    obtain ⟨c', d', e', hid', hd', htype', haggregate', hversion', hevent', -, hconflicts', -⟩ :=
      InboundMessage.run_event hnew' hheard' hrun'
    obtain rfl : c = c' := by
      refine Option.some.inj (hd.conversation.symm.trans (hsame.symm.trans ?_))
      rw [← hid']
      exact hd'.conversation
    have hmem : e ∈ D₂.domainEvents := by
      rw [hevents, Table.mem_insert hconflicts]
      exact Or.inr rfl
    have hdistinct := Table.conflicts_eq_false.mp hconflicts' e hmem
    refine hdistinct.2 ⟨.eventAggregateVersion, [.text e.aggregateType, .uuid e.aggregateId,
      .int e.aggregateVersion, .text e.eventType]⟩ ?_ ?_
    · exact List.mem_cons_of_mem _ List.mem_cons_self
    · rw [htype, haggregate, hversion, hevent, ← htype', ← haggregate', ← hversion', ← hevent']
      exact List.mem_cons_of_mem _ List.mem_cons_self

end Histories

/-! ### Three messages that a person has to answer -/

section Sample

/-- One conversation, in which nothing was written yet. -/
def threadDb : Db where
  table
    | .customerConversations => .singleton
        { id := Uuid.ofNat 1, version := 1, orderId := none, productId := none
          marketplace := "amazon", marketplaceAccountId := "main"
          externalConversationId := "conversation-1", classification := none, riskLevel := none
          status := .open, assignee := none }
    | _ => ∅

/-- An agent without rules and without a limit. -/
def threadAgent : CustomerServiceAgent where
  approvalEngine := ⟨ApprovalPolicy.fromSettings ⟨10, 100⟩, 72, fun _ => none⟩
  promptVersion := "1"
  riskScreen := ⟨[]⟩
  usageAccounting := ⟨none, none, "USD"⟩

/-- Three questions about one order; the model does not reply. -/
def threadMessages : List InboundMessage :=
  [⟨"message-1", "email", "Where is my order?"⟩, ⟨"message-2", "email", "Any news?"⟩,
    ⟨"message-3", "email", "Hello?"⟩]

/-- The state after some of them. -/
def threaded (messages : List InboundMessage) : Db :=
  afterCalls (@InboundMessage.run Digests.byEnding threadAgent (Uuid.ofNat 1))
    Environment.numbered 0 messages threadDb

/-- The outbox and the messages start empty, so every message of the list is new. -/
def newTo (D : Db) (x : InboundMessage) : Bool :=
  D.customerMessages.rows.all fun m => m.externalMessageId ≠ some x.externalMessageId

/-- That a message is new can be computed. -/
theorem isNew_of_newTo {k : Uuid} {D : Db} {x : InboundMessage} (h : newTo D x = true) :
    x.IsNew k D := by
  intro m hm _
  have hall := List.all_eq_true.mp h m hm
  simpa using hall

/-- The outbox is empty at first. -/
theorem threadDb_unheard : Unheard (Uuid.ofNat 1) threadDb :=
  fun _ he => absurd he List.not_mem_nil

/-- After the first message, which moved the row, the second can be stored. -/
theorem message_storable_iff_moved_sample :
    @InboundMessage.Storable Digests.byEnding threadAgent (Uuid.ofNat 1)
      ⟨"message-2", "email", "Any news?"⟩ (threaded (threadMessages.take 1)) := by
  obtain ⟨result, hrun⟩ := runs_afterCall
    (@InboundMessage.run Digests.byEnding threadAgent (Uuid.ofNat 1))
    (o := Environment.numbered 0) (c := ⟨"message-1", "email", "Where is my order?"⟩)
    (D := threadDb) (by decide +kernel)
  refine ((@message_storable_iff_moved Digests.byEnding threadAgent (Uuid.ofNat 1) threadDb
    threadDb_unheard).2 threadDb _ _ result .start (isNew_of_newTo (by decide)) hrun
    ⟨"message-2", "email", "Any news?"⟩ (isNew_of_newTo ?_)).1 ?_
  all_goals decide +kernel

/-- The history of the first two messages. -/
theorem threaded_history : @InboundHistory Digests.byEnding threadAgent (Uuid.ofNat 1) threadDb
    (threaded (threadMessages.take 2)) := by
  have hfirst : @InboundHistory Digests.byEnding threadAgent (Uuid.ofNat 1) threadDb
      (threaded (threadMessages.take 1)) := by
    unfold threaded
    rw [show threadMessages.take 1 = [⟨"message-1", "email", "Where is my order?"⟩] from rfl,
      afterCalls, afterCalls]
    exact History.start.afterCall _ (isNew_of_newTo (by decide))
  have hnew : InboundMessage.IsNew (Uuid.ofNat 1) ⟨"message-2", "email", "Any news?"⟩
      (threaded (threadMessages.take 1)) := isNew_of_newTo (by decide +kernel)
  unfold threaded at hfirst hnew ⊢
  rw [show threadMessages.take 1 = [⟨"message-1", "email", "Where is my order?"⟩] from rfl,
    afterCalls, afterCalls] at hfirst hnew
  rw [show threadMessages.take 2 = [⟨"message-1", "email", "Where is my order?"⟩,
    ⟨"message-2", "email", "Any news?"⟩] from rfl, afterCalls, afterCalls, afterCalls]
  exact hfirst.afterCall _ hnew

/-- The `k`-th message as it is left: escalated for one reason. -/
def escalatedMessage (k : Nat) (externalMessageId content reason : String) : CustomerMessage where
  id := Uuid.ofNat (1000 * k)
  version := 2
  conversationId := Uuid.ofNat 1
  approvalId := none
  externalMessageId := some externalMessageId
  direction := .inbound
  channel := "email"
  content
  authorType := "customer"
  status := .received
  intent := some .unknown
  classification := some .humanEscalation
  riskLevel := some "high"
  riskReasons := [reason]
  generatedResponse := none
  finalResponse := none
  structuredAiResponse := none
  promptVersion := none
  aiProvider := none
  aiModel := none
  inputTokens := 0
  outputTokens := 0
  aiCostAmount := 0
  aiCostCurrency := none
  respondedAt := none

/-- The event of that message. -/
def heardEvent (k : Nat) : DomainEvent where
  id := Uuid.ofNat (1000 * k + 1)
  version := 1
  createdAt := 1000 * k + 2
  eventType := "CUSTOMER_MESSAGE_RECEIVED"
  eventVersion := 1
  producer := "commerce-operations"
  aggregateType := "customer_conversation"
  aggregateId := Uuid.ofNat 1
  aggregateVersion := k
  correlationId := Uuid.ofNat 1
  workflowId := none
  causationId := none
  idempotencyKey := "customer-message-received:" ++ (Uuid.ofNat (1000 * k)).text
  payload := .customerMessageReceived (Uuid.ofNat 1) (Uuid.ofNat (1000 * k)) "email"
  publicationStatus := .pending
  processingAttempts := 0
  lastError := none

/-- The record of its classification. -/
def classifiedAudit (k n : Nat) (reason : String) : AuditEvent where
  id := Uuid.ofNat (1000 * k + n)
  version := 1
  actorType := "agent"
  actorId := "customer-service-agent"
  action := "customer_message.classified"
  resourceType := "customer_message"
  resourceId := Uuid.ofNat (1000 * k)
  beforeState := none
  afterState := some (.object
    [("intent", .text "unknown"), ("classification", .text "HUMAN_ESCALATION"),
      ("risk_reasons", .array [.text reason])])
  reason := some "Deterministic safety screening and structured AI classification"
  correlationId := Uuid.ofNat 1

/-- The state after two messages, row by row.  To compute with it is far cheaper than to compute it
    again at every step of the third call. -/
def threadedTwice : Db where
  table
    | .customerConversations => .singleton
        { id := Uuid.ofNat 1, version := 2, orderId := none, productId := none
          marketplace := "amazon", marketplaceAccountId := "main"
          externalConversationId := "conversation-1", classification := some "HUMAN_ESCALATION"
          riskLevel := some "high", status := .escalated, assignee := some "human-support-queue" }
    | .customerMessages =>
      ⟨[escalatedMessage 1 "message-1" "Where is my order?" "ai_processing_failure",
        escalatedMessage 2 "message-2" "Any news?" "existing_high_risk_conversation"],
        List.pairwise_pair.mpr ⟨by decide +kernel, by decide +kernel⟩⟩
    | .agentRuns => .singleton
        { id := Uuid.ofNat 1003, version := 2, createdAt := 1004, workflowRunId := none
          agentType := "customer_service", status := .failed
          inputReference := some (Uuid.ofNat 1000).text, outputReference := none, provider := none
          model := none, promptVersion := some "1", inputTokens := 0, outputTokens := 0
          costAmount := 0, costCurrency := none, safetyResult := .object []
          error := some (.object [("type", .text "ai_processing_failure")]) }
    | .auditEvents =>
      ⟨[classifiedAudit 1 7 "ai_processing_failure",
        classifiedAudit 2 3 "existing_high_risk_conversation"],
        List.pairwise_pair.mpr ⟨by decide +kernel, by decide +kernel⟩⟩
    | .domainEvents => ⟨[heardEvent 1, heardEvent 2],
        List.pairwise_pair.mpr ⟨by decide +kernel, by decide +kernel⟩⟩
    | _ => ∅

/-- It is the state after two messages, compared table by table. -/
theorem threaded_twice : threaded (threadMessages.take 2) = threadedTwice := by
  refine Database.ext fun i => Table.ext ?_
  cases i <;> decide +kernel

/-- The second message is escalated like the first, and the third finds its version taken. -/
theorem third_message_collides :
    Unheard (Uuid.ofNat 1) threadDb ∧
      @InboundHistory Digests.byEnding threadAgent (Uuid.ofNat 1) threadDb
        (threaded (threadMessages.take 2)) ∧
        InboundMessage.IsNew (Uuid.ofNat 1) ⟨"message-3", "email", "Hello?"⟩
          (threaded (threadMessages.take 2)) ∧
          raised (Environment.numbered 2)
            (@InboundMessage.run Digests.byEnding threadAgent (Uuid.ofNat 1)
              ⟨"message-3", "email", "Hello?"⟩) (threaded (threadMessages.take 2)) =
            some (.integrityError .domainEvents
              [⟨.eventAggregateVersion, [.text "customer_conversation", .uuid (Uuid.ofNat 1),
                .int 2, .text "CUSTOMER_MESSAGE_RECEIVED"]⟩]) := by
  refine ⟨threadDb_unheard, threaded_history, isNew_of_newTo (by decide +kernel), ?_⟩
  rw [threaded_twice]
  decide +kernel

end Sample

end CommerceOperations
