/-
  What a message does to its conversation.

  However a message is screened, classified or drafted, it ends in one of three decisions, and each
  writes the conversation in its own way (`CustomerServiceDecision.applyTo`).  An automatic answer
  rests on a safe answer of the language model, and a conversation of high risk hands every message
  to a person, so that no answer of the model lowers the risk again.

  The classification writes its two objects in one place or in two, depending on whether a draft is
  made on the way, since requesting an approval flushes the session.  `Ruled` covers both: it tells
  what is stored and what is still only changed in memory.  From it the parts of the source are
  followed upwards, one lemma for each function: the draft, the cascade over an answer, the reply,
  the call of the model, the classification, and the two calls through which a message comes in.
-/
import CommerceOperations.Application.CustomerService

namespace CommerceOperations

open Relational Prog

/-! ## The three decisions -/

/-- What a decision about a message writes on its conversation. -/
def CustomerServiceDecision.applyTo :
    CustomerServiceDecision → CustomerConversation → CustomerConversation
  | autoRespond, c =>
    { c with classification := some autoRespond.value, riskLevel := some "low", status := .open }
  | draftForApproval, c =>
    { c with
      classification := some draftForApproval.value
      riskLevel := some "medium"
      status := .awaitingApproval }
  | humanEscalation, c =>
    { c with
      classification := some humanEscalation.value
      riskLevel := some "high"
      status := .escalated
      assignee := some "human-support-queue" }

/-- A decision is about the same conversation. -/
@[simp] theorem CustomerServiceDecision.id_applyTo (d : CustomerServiceDecision)
    (c : CustomerConversation) : (d.applyTo c).id = c.id := by
  cases d <;> rfl

/-- The row that is stored for a changed conversation: at the next version, if it changed. -/
def CustomerConversation.moved (c new : CustomerConversation) : CustomerConversation :=
  if new = c then c else { new with version := c.version + 1 }

/-- What may be answered without a person. -/
structure CustomerServiceAIResponse.Safe (output : CustomerServiceAIResponse) : Prop where
  intent : output.intent.isSafeAuto = true
  decision : output.decision = .autoRespond
  riskLevel : isHighRisk output.riskLevel.toLower = false
  response : ∃ text, output.generatedResponse = some text ∧ text ≠ ""

/-- A reply with a valid output that may be given. -/
def SafeReply (reply : Except Error (LLMResult CustomerServiceAIResponse)) : Prop :=
  ∃ result output, reply = .ok result ∧ result.output = some output ∧ output.Safe

namespace CustomerServiceAgent

section Runs

variable {agent : CustomerServiceAgent} {loaded stored changed : Classified} {P : Prop}
variable {D D' : Db}

/-- What a classification has done when its objects are about to be written: `P` is what an
    automatic answer rests on. -/
structure Ruled (P : Prop) (loaded : Classified) (D : Db) (stored changed : Classified) (D' : Db) :
    Prop where
  /-- the message is the one that was loaded -/
  id : changed.message.id = loaded.message.id ∧ stored.message.id = loaded.message.id
  /-- in the same conversation -/
  thread : changed.message.conversationId = loaded.message.conversationId
  /-- what is stored of the conversation -/
  conversation : D'.customerConversations.get loaded.conversation.id = some stored.conversation
  /-- and of the message -/
  message : D'.customerMessages.get loaded.message.id = some stored.message
  /-- nothing else was written -/
  otherConversations : ∀ k, k ≠ loaded.conversation.id →
    D'.customerConversations.get k = D.customerConversations.get k
  otherMessages : ∀ k, k ≠ loaded.message.id →
    D'.customerMessages.get k = D.customerMessages.get k
  /-- and the decision, which the conversation shows in memory or also in its row -/
  decision : ∃ d, changed.message.classification = some d ∧ (d = .autoRespond → P) ∧
    ((stored.conversation = loaded.conversation ∧
        changed.conversation = d.applyTo loaded.conversation) ∨
      (changed.conversation = stored.conversation ∧
        stored.conversation = loaded.conversation.moved (d.applyTo loaded.conversation)))

/-- What an automatic answer rests on may be weakened. -/
theorem Ruled.imp {Q : Prop} (h : Ruled P loaded D stored changed D') (hPQ : P → Q) :
    Ruled Q loaded D stored changed D' := by
  obtain ⟨d, hclass, hauto, hrow⟩ := h.decision
  exact { h with decision := ⟨d, hclass, fun hd => hPQ (hauto hd), hrow⟩ }

/-- What is decided without a draft changes objects only. -/
theorem Ruled.of_objects (hc : D.customerConversations.get loaded.conversation.id =
      some loaded.conversation)
      (hm : D.customerMessages.get loaded.message.id = some loaded.message)
    {d : CustomerServiceDecision} (hd : d = .autoRespond → P)
    (hid : changed.message.id = loaded.message.id)
    (hthread : changed.message.conversationId = loaded.message.conversationId)
    (hclass : changed.message.classification = some d)
    (happlied : changed.conversation = d.applyTo loaded.conversation) :
    Ruled P loaded D loaded changed D :=
  ⟨⟨hid, rfl⟩, hthread, hc, hm, fun _ _ => rfl, fun _ _ => rfl, d, hclass, hd,
    Or.inl ⟨rfl, happlied⟩⟩

variable [Digests]

/-- A draft writes both objects before the approval is requested, because the request queries the
    approvals and the query flushes. -/
theorem draftForApproval_runs {c : Classified} (hc : D.customerConversations.get
      loaded.conversation.id = some loaded.conversation)
    (hm : D.customerMessages.get loaded.message.id = some loaded.message)
    (hconversation : c.conversation = loaded.conversation)
    (hid : c.message.id = loaded.message.id)
    (hthread : c.message.conversationId = loaded.message.conversationId)
    (h : (agent.draftForApproval loaded c).runs D (.ok ((stored, changed), D'))) :
    Ruled P loaded D stored changed D' := by
  obtain ⟨message, D₁, hflush₁, h₁⟩ := runs_bind_ok.mp h
  obtain ⟨conversation, D₂, hflush₂, h₂⟩ := runs_bind_ok.mp h₁
  obtain ⟨approval, D₃, hrequest, h₃⟩ := runs_bind_ok.mp h₂
  cases h₃
  obtain ⟨hmessage, hget₁, hoff₁⟩ := get_flush (by exact hid) (by rfl) hm hflush₁
  have hc₁ : (Db.customerConversations D₁).get loaded.conversation.id =
      some loaded.conversation := by
    have hsame : Db.customerConversations D₁ = D.customerConversations :=
      hoff₁ .customerConversations (by decide)
    rw [hsame]
    exact hc
  obtain ⟨hrow, hget₂, hoff₂⟩ := get_flush (by rw [hconversation]; rfl) (by rfl) hc₁ hflush₂
  -- the request writes approvals, events and audit entries, neither of the two tables
  have hoff₃ := sameOff_of_runs ApprovalEngine.createRequest_confined hrequest
  have hconversations : ∀ k, (Db.customerConversations D').get k =
      if loaded.conversation.id = k then some conversation else D.customerConversations.get k := by
    intro k
    have hafter : Db.customerConversations D' = Db.customerConversations D₂ :=
      hoff₃ .customerConversations (by decide)
    have hbefore : Db.customerConversations D₁ = D.customerConversations :=
      hoff₁ .customerConversations (by decide)
    rw [hafter, ← hbefore]
    exact hget₂ k
  have hmessages : ∀ k, (Db.customerMessages D').get k =
      if loaded.message.id = k then some message else D.customerMessages.get k := by
    intro k
    have hafter : Db.customerMessages D' = Db.customerMessages D₂ :=
      hoff₃ .customerMessages (by decide)
    have hbefore : Db.customerMessages D₂ = Db.customerMessages D₁ :=
      hoff₂ .customerMessages (by decide)
    rw [hafter, hbefore]
    exact hget₁ k
  have hmid : message.id = loaded.message.id :=
    (eq_of_flushed (i := TableName.customerMessages) CustomerMessage.id hmessage
      fun _ => rfl).trans hid
  have hmthread : message.conversationId = loaded.message.conversationId :=
    (eq_of_flushed (i := TableName.customerMessages) CustomerMessage.conversationId hmessage
      fun _ => rfl).trans hthread
  have hmclass : message.classification = some .draftForApproval :=
    eq_of_flushed (i := TableName.customerMessages) CustomerMessage.classification hmessage
      fun _ => rfl
  refine ⟨⟨hmid, hmid⟩, hmthread, ?_, ?_, fun k hk => ?_, fun k hk => ?_, .draftForApproval,
    hmclass, nofun, Or.inr ⟨rfl, ?_⟩⟩
  · exact (hconversations _).trans (if_pos rfl)
  · exact (hmessages _).trans (if_pos rfl)
  · exact (hconversations k).trans (if_neg (Ne.symm hk))
  · exact (hmessages k).trans (if_neg (Ne.symm hk))
  · rw [hconversation] at hrow
    exact hrow

/-- **The cascade** over an answer of the model: a high risk or a decision for a person escalates, a
    safe answer is given, and everything else is drafted. -/
theorem decide_runs {c : Classified} {output : CustomerServiceAIResponse}
    (hc : D.customerConversations.get loaded.conversation.id = some loaded.conversation)
    (hm : D.customerMessages.get loaded.message.id = some loaded.message)
    (hconversation : c.conversation = loaded.conversation)
    (hid : c.message.id = loaded.message.id)
    (hthread : c.message.conversationId = loaded.message.conversationId)
    (h : (agent.decide loaded c output).runs D (.ok ((stored, changed), D'))) :
    Ruled output.Safe loaded D stored changed D' := by
  -- a person takes over: only the objects are changed
  have hescalate : ∀ reasons,
      (pure (loaded, escalate c reasons output.intent) : Tx (Classified × Classified)).runs D
        (.ok ((stored, changed), D')) → Ruled output.Safe loaded D stored changed D' := by
    intro reasons hrun
    cases hrun
    refine Ruled.of_objects hc hm (d := .humanEscalation) nofun hid hthread rfl ?_
    show CustomerServiceDecision.humanEscalation.applyTo c.conversation = _
    rw [hconversation]
  unfold decide at h
  split_ifs at h with hunknown hrisk hhuman hempty hdraft hauto
  · exact hescalate _ h
  · exact hescalate _ h
  · exact hescalate _ h
  · exact hescalate _ h
  · exact draftForApproval_runs hc hm hconversation hid hthread h
  · obtain ⟨now, D₁, ⟨env, hnow⟩, h₁⟩ := runs_bind_ok.mp h
    cases hnow
    cases h₁
    have hsafe : output.Safe := by
      obtain ⟨hdecision, -⟩ := not_or.mp hdraft
      refine ⟨hauto, ?_, by simpa using hrisk, ?_⟩
      · revert hdecision hhuman
        cases output.decision <;> simp
      · cases hresponse : output.generatedResponse with
        | none => simp [hresponse] at hempty
        | some text => exact ⟨text, rfl, by simpa [hresponse] using hempty⟩
    refine Ruled.of_objects hc hm (d := .autoRespond) (fun _ => hsafe) hid hthread rfl ?_
    show CustomerServiceDecision.autoRespond.applyTo c.conversation = _
    rw [hconversation]
  · exact hescalate _ h

/-- A reply, or the refusal to ask for one.  Each way in which the model fails to reply with a valid
    output ends in an escalation. -/
theorem classifyReply_runs {agentRun : AgentRun}
    {reply : Except Error (LLMResult CustomerServiceAIResponse)}
    (hc : D.customerConversations.get loaded.conversation.id = some loaded.conversation)
    (hm : D.customerMessages.get loaded.message.id = some loaded.message)
    (h : (agent.classifyReply loaded agentRun reply).runs D (.ok ((stored, changed), D'))) :
    Ruled (SafeReply reply) loaded D stored changed D' := by
  -- writing the run of the agent leaves conversations and messages alone
  have hflush : ∀ {new row : AgentRun} {E E' : Db},
      (flush .agentRuns agentRun new).runs E (.ok (row, E')) →
        E'.customerConversations = E.customerConversations ∧
          E'.customerMessages = E.customerMessages := fun hrun =>
    ⟨Tx.table_of_spares (i := .customerConversations) (Tx.spares_flush _ _ (by decide)) hrun,
      Tx.table_of_spares (i := .customerMessages) (Tx.spares_flush _ _ (by decide)) hrun⟩
  unfold classifyReply at h
  split at h
  · rename_i result output hreply
    obtain ⟨accounted, D₁, hrecord, h₁⟩ := runs_bind_ok.mp h
    obtain rfl := UsageAccounting.record_runs hrecord
    obtain ⟨row, D₂, hrun, hdecide⟩ := runs_bind_ok.mp h₁
    obtain ⟨hconversations, hmessages⟩ := hflush hrun
    have hc₂ : (Db.customerConversations D₂).get loaded.conversation.id =
        some loaded.conversation := by
      rw [hconversations]
      exact hc
    have hm₂ : (Db.customerMessages D₂).get loaded.message.id = some loaded.message := by
      rw [hmessages]
      exact hm
    have hruled := decide_runs hc₂ hm₂ (by rfl) (by rfl) (by rfl) hdecide
    have hsafe : output.Safe → SafeReply reply := by
      intro hsafe
      cases reply with
      | error e => exact nomatch hreply
      | ok result' =>
        have hvalidated : result'.validated = .ok (result, output) := hreply
        unfold LLMResult.validated at hvalidated
        split at hvalidated
        · rename_i output' houtput
          cases hvalidated
          exact ⟨result, output, rfl, houtput, hsafe⟩
        · exact nomatch hvalidated
    refine ⟨hruled.id, hruled.thread, hruled.conversation, hruled.message, ?_, ?_,
      (hruled.imp hsafe).decision⟩
    · intro k hk
      exact (hruled.otherConversations k hk).trans (congrArg (·.get k) hconversations)
    · intro k hk
      exact (hruled.otherMessages k hk).trans (congrArg (·.get k) hmessages)
  · obtain ⟨row, D₁, hrun, h₁⟩ := runs_bind_ok.mp h
    cases h₁
    obtain ⟨hconversations, hmessages⟩ := hflush hrun
    refine ⟨⟨rfl, rfl⟩, rfl, ?_, ?_, ?_, ?_, .humanEscalation, rfl, nofun, Or.inl ⟨rfl, rfl⟩⟩
    · rw [hconversations]
      exact hc
    · rw [hmessages]
      exact hm
    · intro k _
      rw [hconversations]
    · intro k _
      rw [hmessages]

/-- What an automatic answer rests on: the model was asked with budget left, and its answer may be
    given.  The environment's answers pass through `g`. -/
structure Answered (agent : CustomerServiceAgent) (g : Environment → Environment) (D : Db) :
    Prop where
  /-- there was budget -/
  authorized : ∃ env, agent.usageAccounting.Authorized (g env).now D
  /-- and a safe answer -/
  safe : ∃ env, SafeReply (g env).classifyMessage

omit [Digests] in
/-- A run of an agent that is yet to report costs nothing. -/
theorem spent_add {accounting : UsageAccounting} {t : Instant} {run : AgentRun}
    (hconflicts : D.agentRuns.conflicts run = false) (hcurrency : run.costCurrency = none)
    (hD : D'.agentRuns = D.agentRuns.insert run) :
    accounting.spent t D' = accounting.spent t D := by
  unfold UsageAccounting.spent
  rw [hD, Table.rows_insert hconflicts, List.filter_append]
  simp [hcurrency]

/-- **With the model**, or with the budget's refusal.  The run of the agent is recorded before the
    budget is asked, and costs nothing yet, so it does not count against it. -/
theorem classifyWithAi_runs {g : Environment → Environment}
    (hc : D.customerConversations.get loaded.conversation.id = some loaded.conversation)
    (hm : D.customerMessages.get loaded.message.id = some loaded.message)
    (h : ((agent.classifyWithAi loaded).under g).runs D (.ok ((stored, changed), D'))) :
    Ruled (agent.Answered g D) loaded D stored changed D' := by
  obtain ⟨id, D₁, hid, h₁⟩ := runs_under_bind.mp h
  obtain ⟨env₁, hid⟩ := runs_of_under hid
  cases hid
  obtain ⟨now, D₂, hnow, h₂⟩ := runs_under_bind.mp h₁
  obtain ⟨env₂, hnow⟩ := runs_of_under hnow
  cases hnow
  obtain ⟨agentRun, D₃, hadd, h₃⟩ := runs_under_bind.mp h₂
  obtain ⟨hrun, hconflicts, hD₃⟩ := runs_insert.mp (runs_of_under hadd)
  have hoff : Database.SameOff (· = .agentRuns) D D₃ := by
    rw [hD₃]
    exact Database.SameOff.apply _ _ rfl
  have hconversations : Db.customerConversations D₃ = D.customerConversations :=
    hoff .customerConversations (by decide)
  have hmessages : Db.customerMessages D₃ = D.customerMessages := hoff .customerMessages (by decide)
  -- the new run costs nothing, so the budget is what it was
  have hspent : ∀ t, agent.usageAccounting.spent t D₃ = agent.usageAccounting.spent t D := by
    intro t
    refine spent_add hconflicts ?_ ?_
    · rfl
    · rw [hD₃, ← hrun]
      exact Database.apply_table_self ..
  obtain ⟨authorized, D₄, hauthorize, h₄⟩ := runs_under_bind.mp h₃
  rw [under_savepoint] at hauthorize
  have hc₃ : (Db.customerConversations D₃).get loaded.conversation.id =
      some loaded.conversation := by
    rw [hconversations]
    exact hc
  have hm₃ : (Db.customerMessages D₃).get loaded.message.id = some loaded.message := by
    rw [hmessages]
    exact hm
  -- what is decided about the rows after the run was added holds of the rows before
  have hback : ∀ {P : Prop}, Ruled P loaded D₃ stored changed D' →
      (P → agent.Answered g D) → Ruled (agent.Answered g D) loaded D stored changed D' := by
    intro P hruled hP
    refine ⟨hruled.id, hruled.thread, hruled.conversation, hruled.message, ?_, ?_,
      (hruled.imp hP).decision⟩
    · intro k hk
      exact (hruled.otherConversations k hk).trans (congrArg (·.get k) hconversations)
    · intro k hk
      exact (hruled.otherMessages k hk).trans (congrArg (·.get k) hmessages)
  rcases runs_savepoint.mp hauthorize with ⟨u, D₅, hrunAuthorize, heq⟩ | ⟨e, -, heq⟩
  · cases heq
    obtain ⟨⟨env, hauthorized⟩, rfl⟩ := UsageAccounting.authorize_runs hrunAuthorize
    obtain ⟨reply, D₆, ⟨env', hreply⟩, h₆⟩ := runs_under_bind.mp h₄
    cases hreply
    refine hback (classifyReply_runs hc₃ hm₃ (runs_of_under h₆)) fun hsafe =>
      ⟨⟨env, ?_⟩, env', hsafe⟩
    unfold UsageAccounting.Authorized at hauthorized ⊢
    rw [hspent] at hauthorized
    exact hauthorized
  · cases heq
    refine hback (classifyReply_runs hc₃ hm₃ (runs_of_under h₄)) ?_
    rintro ⟨_, _, hreply, -⟩
    exact nomatch hreply

/-- **What a classification leaves**: the message carries a decision, and the conversation is
    written by it. -/
structure Classifies (agent : CustomerServiceAgent) (g : Environment → Environment)
    (conversation : CustomerConversation) (message : CustomerMessage) (D D' : Db)
    (classified : CustomerMessage) (d : CustomerServiceDecision) : Prop where
  /-- the message is the one that was loaded -/
  id : classified.id = message.id
  thread : classified.conversationId = message.conversationId
  /-- it has its decision -/
  classification : classified.classification = some d
  /-- only a person is asked about what the screen objects to -/
  screened : d ≠ .humanEscalation → agent.riskScreen.evaluate message.content conversation = []
  /-- an automatic answer rests on one of the model -/
  answered : d = .autoRespond → agent.Answered g D
  /-- which is not asked where the screen objects -/
  unasked : agent.riskScreen.evaluate message.content conversation ≠ [] →
    D'.agentRuns = D.agentRuns
  /-- the conversation is written by the decision, and no other is -/
  conversations : ∀ k, D'.customerConversations.get k =
    if conversation.id = k then some (conversation.moved (d.applyTo conversation))
    else D.customerConversations.get k
  /-- nor is another message -/
  messages : ∀ k, D'.customerMessages.get k =
    if message.id = k then some classified else D.customerMessages.get k

omit [Digests] in
/-- Writing the objects of a classification.  Whatever was stored before, the rows end up as the
    objects are. -/
theorem Ruled.written {g : Environment → Environment} {row : CustomerConversation}
    {classified : CustomerMessage} {D₁ D₂ : Db}
    (h : Ruled (agent.Answered g D) loaded D stored changed D₁)
    (hscreened : agent.riskScreen.evaluate loaded.message.content loaded.conversation = [] ∨
      changed.message.classification = some .humanEscalation)
    (hunasked : agent.riskScreen.evaluate loaded.message.content loaded.conversation ≠ [] →
      D₁.agentRuns = D.agentRuns)
    (hflush₁ : (flush .customerConversations stored.conversation changed.conversation).runs D₁
      (.ok (row, D₂)))
    (hflush₂ : (flush .customerMessages stored.message changed.message).runs D₂
      (.ok (classified, D'))) :
    ∃ d, agent.Classifies g loaded.conversation loaded.message D D' classified d := by
  obtain ⟨d, hclass, hauto, hrows⟩ := h.decision
  -- the two flushes write the rows of the conversation and of the message, and no other
  have hids : stored.conversation.id = loaded.conversation.id := Table.key_of_get h.conversation
  have hids' : changed.conversation.id = stored.conversation.id := by
    rcases hrows with ⟨-, happlied⟩ | ⟨hsame, -⟩
    · rw [happlied, hids, CustomerServiceDecision.id_applyTo]
    · rw [hsame]
  have hconversation : (Db.customerConversations D₁).get stored.conversation.id =
      some stored.conversation := by
    rw [hids]
    exact h.conversation
  obtain ⟨hrow, hget₁, hoff₁⟩ := get_flush (by exact hids') (by rfl) hconversation hflush₁
  have hmessage : (Db.customerMessages D₂).get stored.message.id = some stored.message := by
    have hsame : Db.customerMessages D₂ = Db.customerMessages D₁ :=
      hoff₁ .customerMessages (by decide)
    rw [hsame, h.id.2]
    exact h.message
  obtain ⟨hclassified, hget₂, hoff₂⟩ :=
    get_flush (by exact h.id.1.trans h.id.2.symm) (by rfl) hmessage hflush₂
  -- the conversation had been stored already, or is written now: the row is the same
  have hmoved : row = loaded.conversation.moved (d.applyTo loaded.conversation) := by
    rcases hrows with ⟨hstored, happlied⟩ | ⟨hsame, hstored⟩
    · rw [hrow, hstored, happlied]
      rfl
    · rw [hrow, if_pos hsame, hstored]
  refine ⟨d, ?_, ?_, ?_, fun hd => ?_, hauto, fun hrisks => ?_, fun k => ?_, fun k => ?_⟩
  · have hid : classified.id = changed.message.id :=
      eq_of_flushed (R := TableName.Entity) (i := .customerMessages) CustomerMessage.id hclassified
        fun _ => rfl
    exact hid.trans h.id.1
  · have hthread : classified.conversationId = changed.message.conversationId :=
      eq_of_flushed (R := TableName.Entity) (i := .customerMessages) CustomerMessage.conversationId
        hclassified
        fun _ => rfl
    exact hthread.trans h.thread
  · have hclass' : classified.classification = changed.message.classification :=
      eq_of_flushed (R := TableName.Entity) (i := .customerMessages) CustomerMessage.classification
        hclassified
        fun _ => rfl
    exact hclass'.trans hclass
  -- a decision other than a person's: the screen has found nothing
  · rcases hscreened with hnone | hescalated
    · exact hnone
    · exact absurd (Option.some.inj (hclass.symm.trans hescalated)) hd
  · have hafter : Db.agentRuns D' = Db.agentRuns D₁ :=
      (hoff₂ .agentRuns (by decide)).trans (hoff₁ .agentRuns (by decide))
    exact hafter.trans (hunasked hrisks)
  · have hafter : Db.customerConversations D' = Db.customerConversations D₂ :=
      hoff₂ .customerConversations (by decide)
    rw [hafter, ← hmoved]
    refine (hget₁ k).trans ?_
    rw [show Row.key stored.conversation = loaded.conversation.id from hids]
    split
    · rfl
    · rename_i hk
      exact h.otherConversations k (Ne.symm hk)
  · have hbefore : Db.customerMessages D₂ = Db.customerMessages D₁ :=
      hoff₁ .customerMessages (by decide)
    refine (hget₂ k).trans ?_
    rw [show Row.key stored.message = loaded.message.id from h.id.2]
    split
    · rfl
    · rename_i hk
      exact (congrArg (·.get k) hbefore).trans (h.otherMessages k (Ne.symm hk))

/-- **A classification**, screened or with the model.  If the screen finds something the model is
    not asked, and the decision is for a person. -/
theorem classify_runs {g : Environment → Environment} {conversation : CustomerConversation}
    {message classified : CustomerMessage}
    (hc : D.customerConversations.get conversation.id = some conversation)
    (hm : D.customerMessages.get message.id = some message)
    (h : ((agent.classify conversation message).under g).runs D (.ok (classified, D'))) :
    ∃ d, agent.Classifies g conversation message D D' classified d := by
  -- screened or not, the objects are written and the classification is audited in the same way
  have hfinish : ∀ (stored changed : Classified) (D₁ : Db),
      Ruled (agent.Answered g D) ⟨conversation, message⟩ D stored changed D₁ →
      (agent.riskScreen.evaluate message.content conversation = [] ∨
        changed.message.classification = some .humanEscalation) →
      (agent.riskScreen.evaluate message.content conversation ≠ [] →
        Db.agentRuns D₁ = D.agentRuns) →
      ((do
        let conversation ← flush .customerConversations stored.conversation changed.conversation
        let message ← flush .customerMessages stored.message changed.message
        addAudit "agent" "customer-service-agent" "customer_message.classified" "customer_message"
          message.id none
          (some (.object
            [("intent", .ofText (message.intent.map (·.value))),
              ("classification", .ofText (message.classification.map (·.value))),
              ("risk_reasons", .array (message.riskReasons.map Json.text))]))
          (some "Deterministic safety screening and structured AI classification") conversation.id
        pure message : Tx CustomerMessage).under g).runs D₁ (.ok (classified, D')) →
      ∃ d, agent.Classifies g conversation message D D' classified d := by
    intro stored changed D₁ hruled hscreened hunasked hrun
    obtain ⟨row, D₂, hflush₁, h₂⟩ := runs_under_bind.mp hrun
    obtain ⟨written, D₃, hflush₂, h₃⟩ := runs_under_bind.mp h₂
    obtain ⟨_, D₄, haudit, h₄⟩ := runs_under_bind.mp h₃
    cases h₄
    have hoff := sameOff_of_runs addAudit_confined (runs_of_under haudit)
    have hconversations : Db.customerConversations D' = Db.customerConversations D₃ :=
      hoff .customerConversations (by decide)
    have hmessages : Db.customerMessages D' = Db.customerMessages D₃ :=
      hoff .customerMessages (by decide)
    have hagents : Db.agentRuns D' = Db.agentRuns D₃ := hoff .agentRuns (by decide)
    obtain ⟨d, hd⟩ :=
      hruled.written hscreened hunasked (runs_of_under hflush₁) (runs_of_under hflush₂)
    refine ⟨d, hd.id, hd.thread, hd.classification, hd.screened, hd.answered,
      fun hrisks => hagents.trans (hd.unasked hrisks), fun k => ?_, fun k => ?_⟩
    · rw [hconversations]
      exact hd.conversations k
    · rw [hmessages]
      exact hd.messages k
  unfold classify at h
  dsimp only at h
  split at h
  · rename_i hnone
    obtain ⟨⟨stored, changed⟩, D₁, hclassify, h₁⟩ := runs_under_bind.mp h
    exact hfinish stored changed D₁ (classifyWithAi_runs hc hm hclassify) (Or.inl hnone)
      (absurd hnone) h₁
  · exact hfinish ⟨conversation, message⟩
      (escalate ⟨conversation, message⟩ (agent.riskScreen.evaluate message.content conversation)
        .unknown)
      D (Ruled.of_objects hc hm (d := .humanEscalation) nofun rfl rfl rfl rfl) (Or.inr rfl)
      (fun _ => rfl) h

end Runs

end CustomerServiceAgent

/-! ## The calls of the agent -/

/-- A message arrives, or its event is processed. -/
inductive MessageCall where
  /-- `handle_message` -/
  | handle (conversationId : Uuid) (externalMessageId channel content : String)
  /-- `process_received_event` -/
  | process (event : EventEnvelope)

/-- The content a call screens, and the conversation it screens it in. -/
def MessageCall.subject (D : Db) : MessageCall → Option (String × CustomerConversation)
  | handle conversationId _ _ content =>
    (D.customerConversations.get conversationId).map fun c => (content, c)
  | process event =>
    match event.data with
    | .customerMessageReceived _ messageId _ => do
      let m ← D.customerMessages.get messageId
      let c ← D.customerConversations.get m.conversationId
      pure (m.content, c)
    | _ => none

/-- What the risk screen finds in the message of a call. -/
def MessageCall.reasons (agent : CustomerServiceAgent) (D : Db) (call : MessageCall) :
    List String :=
  match call.subject D with
  | some (content, c) => agent.riskScreen.evaluate content c
  | none => []

section Calls

variable [Digests]

/-- The transaction of a call; its value is the message. -/
def MessageCall.run (agent : CustomerServiceAgent) : MessageCall → Tx CustomerMessage
  | handle conversationId externalMessageId channel content => do
    let result ← agent.handleMessage conversationId externalMessageId channel content
    pure result.message
  | process event => agent.processReceivedEvent event

open CustomerServiceAgent

/-- A call has classified a message of the conversation `c`, which was not classified before. -/
structure CallClassifies (agent : CustomerServiceAgent) (g : Environment → Environment)
    (c : CustomerConversation) (content : String) (D D' : Db) (m : CustomerMessage)
    (d : CustomerServiceDecision) : Prop where
  /-- the conversation is on record -/
  conversation : D.customerConversations.get c.id = some c
  thread : m.conversationId = c.id
  /-- the message was not classified before -/
  fresh : ∀ m', D.customerMessages.get m.id = some m' → m'.classification = none
  /-- and now is -/
  classification : m.classification = some d
  /-- as in `Classifies` -/
  screened : d ≠ .humanEscalation → agent.riskScreen.evaluate content c = []
  answered : d = .autoRespond → agent.Answered g D
  unasked : agent.riskScreen.evaluate content c ≠ [] → D'.agentRuns = D.agentRuns
  conversations : ∀ k, D'.customerConversations.get k =
    if c.id = k then some (c.moved (d.applyTo c)) else D.customerConversations.get k
  messages : ∀ k, D'.customerMessages.get k =
    if m.id = k then some m else D.customerMessages.get k

variable {agent : CustomerServiceAgent} {g : Environment → Environment} {D D' : Db}

/-- A new message of the conversation `c`: it is stored, reported and classified. -/
structure Receives (agent : CustomerServiceAgent) (g : Environment → Environment)
    (c : CustomerConversation) (message classified : CustomerMessage) (D D₁ D₂ D' : Db) : Prop where
  /-- the conversation is on record -/
  conversation : D.customerConversations.get c.id = some c
  thread : message.conversationId = c.id
  /-- the message is new -/
  conflicts : D.customerMessages.conflicts message = false
  /-- it is stored -/
  added : D₁ = Database.apply ⟨.customerMessages, .insert message⟩ D
  /-- reported -/
  reported : ∃ e, (DatabaseEventStore.emit
    (.customerMessageReceived c.id message.id message.channel)
    { aggregateType := "customer_conversation"
      aggregateId := c.id
      aggregateVersion := c.version
      correlationId := c.id
      workflowId := none
      causationId := none }
    s!"customer-message-received:{message.id}").runs D₁ (.ok (e, D₂))
  /-- and classified -/
  classified : ((agent.classify c message).under g).runs D₂ (.ok (classified, D'))

/-- **Handling a message** finds it stored, or receives it. -/
theorem handleMessage_receives {conversationId : Uuid} {externalMessageId channel content : String}
    {result : CustomerServiceResult}
    (h : ((agent.handleMessage conversationId externalMessageId channel content).under g).runs D
      (.ok (result, D'))) :
    (D' = D ∧ result.message ∈ D.customerMessages ∧
        result.message.conversationId = conversationId ∧
          result.message.externalMessageId = some externalMessageId) ∨
      ∃ c message D₁ D₂, c.id = conversationId ∧ message.channel = channel ∧
        message.content = content ∧ Receives agent g c message result.message D D₁ D₂ D' := by
  obtain ⟨existing, D₁, hselect, h₁⟩ := runs_under_bind.mp h
  obtain ⟨hfind, rfl⟩ := Tx.runs_select.mp (runs_of_under hselect)
  cases existing with
  | some existing =>
    obtain ⟨_, D₂, hrequire, h₂⟩ := runs_under_bind.mp h₁
    obtain ⟨-, rfl⟩ := Tx.runs_require.mp (runs_of_under hrequire)
    cases h₂
    have hmatches := List.find?_some hfind.symm
    rw [decide_eq_true_eq] at hmatches
    exact Or.inl ⟨rfl, List.mem_of_find?_eq_some hfind.symm, hmatches⟩
  | none =>
    obtain ⟨found, D₂, hlock, h₂⟩ := runs_under_bind.mp h₁
    obtain ⟨hfound, rfl⟩ := runs_selectForUpdate.mp (runs_of_under hlock)
    obtain ⟨c, D₃, hthrow, h₃⟩ := runs_under_bind.mp h₂
    obtain ⟨hc, rfl⟩ := Tx.runs_orThrow.mp (runs_of_under hthrow)
    have hget : D.customerConversations.get conversationId = some c := hfound.symm.trans hc
    have hid : c.id = conversationId := Table.key_of_get hget
    obtain ⟨id, D₄, huuid, h₄⟩ := runs_under_bind.mp h₃
    obtain ⟨env, huuid⟩ := runs_of_under huuid
    cases huuid
    obtain ⟨message, D₅, hadd, h₅⟩ := runs_under_bind.mp h₄
    obtain ⟨rfl, hconflicts, hD₅⟩ := runs_insert.mp (runs_of_under hadd)
    obtain ⟨e, D₆, hemit, h₆⟩ := runs_under_bind.mp h₅
    obtain ⟨classified, D₇, hclassify, h₇⟩ := runs_under_bind.mp h₆
    cases h₇
    refine Or.inr ⟨c, _, D₅, D₆, hid, rfl, rfl, ?_, rfl, hconflicts, hD₅,
      ⟨e, runs_of_under hemit⟩, hclassify⟩
    rw [hid]
    exact hget

namespace Receives

variable {c : CustomerConversation} {message classified : CustomerMessage} {D₁ D₂ : Db}

/-- The id of the new message was not in use. -/
theorem fresh (h : Receives agent g c message classified D D₁ D₂ D') :
    D.customerMessages.get message.id = none := by
  refine Table.get_eq_none.mpr fun m hm hkey => ?_
  exact (Table.conflicts_eq_false.mp h.conflicts m hm).1 hkey

/-- The other tables are those the message arrived at. -/
theorem sameOff (h : Receives agent g c message classified D D₁ D₂ D') :
    Database.SameOff (· ∈ [TableName.customerMessages, .domainEvents]) D D₂ := by
  obtain ⟨e, hemit⟩ := h.reported
  have hemitted : Database.SameOff (· ∈ [TableName.customerMessages, .domainEvents]) D₁ D₂ :=
    sameOff_of_runs (Tx.confined_mono DatabaseEventStore.emit_confined (by decide)) hemit
  refine Database.SameOff.trans ?_ hemitted
  rw [h.added]
  exact Database.SameOff.apply _ _ List.mem_cons_self

/-- The table of messages has one more row, which is the new message. -/
theorem messages (h : Receives agent g c message classified D D₁ D₂ D') (k : Uuid) :
    D₂.customerMessages.get k = if message.id = k then some message
      else D.customerMessages.get k := by
  obtain ⟨e, hemit⟩ := h.reported
  have htable : D₂.customerMessages = D.customerMessages.insert message := by
    have hsame : D₂.customerMessages = D₁.customerMessages :=
      sameOff_of_runs DatabaseEventStore.emit_confined hemit .customerMessages (by decide)
    rw [hsame, h.added]
    exact Database.apply_table_self ..
  rw [htable, Table.get_insert h.conflicts]
  rfl

/-- The state the classification starts from. -/
theorem classifies (h : Receives agent g c message classified D D₁ D₂ D') :
    ∃ d, agent.Classifies g c message D₂ D' classified d := by
  have hconversations : D₂.customerConversations = D.customerConversations :=
    h.sameOff .customerConversations (by decide)
  refine classify_runs ?_ ((h.messages _).trans (if_pos rfl)) h.classified
  rw [hconversations]
  exact h.conversation

/-- What the call as a whole does. -/
theorem callClassifies (h : Receives agent g c message classified D D₁ D₂ D') :
    ∃ d, CallClassifies agent g c message.content D D' classified d := by
  obtain ⟨d, hd⟩ := h.classifies
  have hconversations : D₂.customerConversations = D.customerConversations :=
    h.sameOff .customerConversations (by decide)
  have hruns : D₂.agentRuns = D.agentRuns := h.sameOff .agentRuns (by decide)
  refine ⟨d, h.conversation, hd.thread.trans h.thread, ?_, hd.classification, hd.screened, ?_,
    fun hrisks => (hd.unasked hrisks).trans hruns, ?_, ?_⟩
  · intro m' hm'
    rw [hd.id, h.fresh] at hm'
    exact nomatch hm'
  · intro hauto
    obtain ⟨⟨env', hauthorized⟩, hsafe⟩ := hd.answered hauto
    refine ⟨⟨env', ?_⟩, hsafe⟩
    unfold UsageAccounting.Authorized UsageAccounting.spent at hauthorized ⊢
    rw [hruns] at hauthorized
    exact hauthorized
  · intro k
    rw [hd.conversations k, hconversations]
  · intro k
    rw [hd.messages k, hd.id, h.messages k]
    split
    · rfl
    · rfl

end Receives

/-- As a call, handling a message finds it stored or classifies it. -/
theorem handleMessage_runs {conversationId : Uuid} {externalMessageId channel content : String}
    {result : CustomerServiceResult}
    (h : ((agent.handleMessage conversationId externalMessageId channel content).under g).runs D
      (.ok (result, D'))) :
    (D' = D ∧ result.message ∈ D.customerMessages) ∨
      ∃ c d, c.id = conversationId ∧ CallClassifies agent g c content D D' result.message d := by
  rcases handleMessage_receives h with ⟨hsame, hmem, -⟩ | ⟨c, message, D₁, D₂, hid, -, hcontent, hr⟩
  · exact Or.inl ⟨hsame, hmem⟩
  · obtain ⟨d, hd⟩ := hr.callClassifies
    rw [hcontent] at hd
    exact Or.inr ⟨c, d, hid, hd⟩

/-- Processing the event of a message classifies it, and returns a message that is classified
    already as it is. -/
theorem processReceivedEvent_runs {event : EventEnvelope} {m : CustomerMessage}
    (h : ((agent.processReceivedEvent event).under g).runs D (.ok (m, D'))) :
    (D' = D ∧ m ∈ D.customerMessages) ∨
      ∃ c content d, (MessageCall.process event).subject D = some (content, c) ∧
        CallClassifies agent g c content D D' m d := by
  unfold processReceivedEvent at h
  split at h
  · rename_i conversationId messageId channel hdata
    obtain ⟨found, D₁, hlock, h₁⟩ := runs_under_bind.mp h
    obtain ⟨hfound, rfl⟩ := runs_selectForUpdate.mp (runs_of_under hlock)
    obtain ⟨message, D₂, hthrow, h₂⟩ := runs_under_bind.mp h₁
    obtain ⟨hmessage, rfl⟩ := Tx.runs_orThrow.mp (runs_of_under hthrow)
    obtain ⟨hget, hthread⟩ := Option.filter_eq_some_iff.mp hmessage
    have hmem : message ∈ D.customerMessages := by
      rw [hfound] at hget
      exact List.mem_of_find?_eq_some hget
    split at h₂
    · cases h₂
      exact Or.inl ⟨rfl, hmem⟩
    · rename_i hunclassified
      obtain ⟨found', D₃, hselect, h₃⟩ := runs_under_bind.mp h₂
      obtain ⟨hfound', rfl⟩ := Tx.runs_select.mp (runs_of_under hselect)
      obtain ⟨c, D₄, hthrow', h₄⟩ := runs_under_bind.mp h₃
      obtain ⟨hc, rfl⟩ := Tx.runs_orThrow.mp (runs_of_under hthrow')
      have hcget : D.customerConversations.get message.conversationId = some c :=
        hfound'.symm.trans hc
      have hcid : c.id = message.conversationId := Table.key_of_get hcget
      have hc' : D.customerConversations.get c.id = some c := by
        rw [hcid]
        exact hcget
      obtain ⟨d, hd⟩ := classify_runs hc' (Table.get_of_mem hmem) h₄
      have hm₀ : D.customerMessages.get m.id = some message := by
        rw [hd.id]
        exact Table.get_of_mem hmem
      have hsubject : (MessageCall.process event).subject D = some (message.content, c) := by
        have hget' : D.customerMessages.get messageId = some message := hfound.symm.trans hget
        simp [MessageCall.subject, hdata, hget', hcget]
      refine Or.inr ⟨c, message.content, d, hsubject, hc', hd.thread.trans hcid.symm, ?_,
        hd.classification, hd.screened, hd.answered, hd.unasked, hd.conversations, ?_⟩
      · intro m' hm'
        rw [← Option.some.inj (hm₀.symm.trans hm')]
        simpa using hunclassified
      · intro k
        rw [hd.messages k, hd.id]
  · cases h

/-- **A call** finds its message classified already, or classifies it. -/
theorem MessageCall.run_cases {call : MessageCall} {m : CustomerMessage}
    (h : ((call.run agent).under g).runs D (.ok (m, D'))) :
    (D' = D ∧ m ∈ D.customerMessages) ∨
      ∃ c content d, call.subject D = some (content, c) ∧
        CallClassifies agent g c content D D' m d := by
  cases call with
  | handle conversationId externalMessageId channel content =>
    obtain ⟨result, D₁, hhandle, h₁⟩ := runs_under_bind.mp h
    cases h₁
    rcases handleMessage_runs hhandle with hsame | ⟨c, d, hid, hd⟩
    · exact Or.inl hsame
    · refine Or.inr ⟨c, content, d, ?_, hd⟩
      have hget : D.customerConversations.get conversationId = some c := by
        rw [← hid]
        exact hd.conversation
      show (D.customerConversations.get conversationId).map _ = _
      rw [hget]
      rfl
  | process event => exact processReceivedEvent_runs h

end Calls

end CommerceOperations
