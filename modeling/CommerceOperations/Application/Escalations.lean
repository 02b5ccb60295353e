/-
  Messages and response approvals, over whole histories.

  The language model cannot lower a risk: it is asked only about a message the screen passes, its
  answer is given only if it is safe, and once a message of a conversation was escalated the
  conversation is of high risk, so that every later message is escalated too.

  The status of the conversation is less lasting.  Approving the draft of an earlier message opens
  the conversation again, also when a later message has escalated it since; a conversation that is
  escalated stays so as long as no such draft is approved (`SupportCall.Reopens`).

  That the model is not asked is more than that its answer is not used.  `SameUnder` compares the
  runs of one call under two environments that differ in what the model would say: they end alike.

  The invariant of the histories is about the level of risk, not about the status: approving a draft
  changes the status of a conversation but leaves its risk, and the screen looks at the risk.
-/
import CommerceOperations.Application.ApprovalActions
import CommerceOperations.Application.Conversations
import CommerceOperations.Approvals.Decisions
import Mathlib.Data.List.Dedup

namespace CommerceOperations

open Relational Prog

/-! ## A screened message and the language model -/

section Screened

variable {g g' : Environment → Environment} {D : Db}

/-- Both environments give the ids and the time alike. -/
def SameClock (g g' : Environment → Environment) : Prop :=
  ∀ env, (g env).uuid4 = (g' env).uuid4 ∧ (g env).now = (g' env).now

/-- An event has an id and a time, and nothing of the model. -/
theorem emit_sameUnder {payload : EventPayload} {context : EventContext} {key : String}
    (h : SameClock g g') : SameUnder g g' D (DatabaseEventStore.emit payload context key) := by
  refine SameUnder.bind ?_ fun event D₁ _ => ?_
  · refine SameUnder.bind (SameUnder.of_eq ?_) fun _ D₁ _ => ?_
    · unfold Tx.require
      split <;> rfl
    · refine SameUnder.bind (SameUnder.answer fun env => (h env).1) fun id D₂ _ => ?_
      exact SameUnder.bind (SameUnder.answer fun env => (h env).2) fun now D₃ _ => SameUnder.done _
  · refine SameUnder.bind (SameUnder.query _) fun existing D₂ _ => ?_
    cases existing with
    | none => exact SameUnder.insert _ _
    | some existing =>
      dsimp only
      split
      · exact SameUnder.raise _
      · exact SameUnder.done _

/-- An audit entry takes an id and asks nothing else of the environment. -/
theorem addAudit_sameUnder {actorType actorId action resourceType : String} {resourceId : Uuid}
    {beforeState afterState : Option Json} {reason : Option String} {correlationId : Uuid}
    (h : SameClock g g') :
    SameUnder g g' D (addAudit actorType actorId action resourceType resourceId beforeState
      afterState reason correlationId) := by
  refine SameUnder.bind (SameUnder.answer fun env => (h env).1) fun id D₁ _ => ?_
  exact SameUnder.bind (SameUnder.insert _ _) fun row D₂ _ => SameUnder.done _

/-- A lookup asks the environment nothing. -/
theorem orThrow_sameUnder {α : Type} (a : Option α) (type : ExceptionType) (message : String) :
    SameUnder g g' D (Tx.orThrow a type message) := by
  cases a with
  | none => exact SameUnder.raise _
  | some a => exact SameUnder.done _

namespace CustomerServiceAgent

variable [Digests] {agent : CustomerServiceAgent}

/-- A message with a risk is escalated without the model. -/
theorem classify_sameUnder {conversation : CustomerConversation} {message : CustomerMessage}
    (h : SameClock g g') (hrisks : agent.riskScreen.evaluate message.content conversation ≠ []) :
    SameUnder g g' D (agent.classify conversation message) := by
  unfold classify
  rw [if_neg hrisks]
  refine SameUnder.bind (SameUnder.done _) fun classified D₀ hpure => ?_
  cases hpure
  refine SameUnder.bind (SameUnder.flush _ _) fun conversation D₁ _ => ?_
  refine SameUnder.bind (SameUnder.flush _ _) fun message D₂ _ => ?_
  exact SameUnder.bind (addAudit_sameUnder h) fun _ D₃ _ => SameUnder.done _

end CustomerServiceAgent

/-- **A call with a risk** ends alike, whatever the model would reply.  What comes before the screen
    asks for ids and times; the screen finds a reason, and what comes after it does not ask the
    model either. -/
theorem MessageCall.run_sameUnder [Digests] {agent : CustomerServiceAgent} {call : MessageCall}
    (h : SameClock g g') (hreasons : call.reasons agent D ≠ []) :
    SameUnder g g' D (call.run agent) := by
  obtain ⟨content, c, hsubject⟩ : ∃ content c, call.subject D = some (content, c) := by
    unfold MessageCall.reasons at hreasons
    split at hreasons
    · rename_i content c hsubject
      exact ⟨content, c, hsubject⟩
    · exact absurd rfl hreasons
  have hrisks : agent.riskScreen.evaluate content c ≠ [] := by
    unfold MessageCall.reasons at hreasons
    rw [hsubject] at hreasons
    exact hreasons
  cases call with
  | handle conversationId externalMessageId channel content' =>
    obtain ⟨c', hget, hpair⟩ := Option.map_eq_some_iff.mp hsubject
    cases hpair
    refine SameUnder.bind ?_ fun result D₁ _ => SameUnder.done _
    refine SameUnder.bind (SameUnder.query _) fun existing D₂ hselect => ?_
    obtain ⟨-, rfl⟩ := Tx.runs_select.mp hselect
    cases existing with
    | some existing =>
      refine SameUnder.bind ?_ fun _ D₃ _ => SameUnder.done _
      refine SameUnder.of_eq ?_
      unfold Tx.require
      split <;> rfl
    | none =>
      refine SameUnder.bind (SameUnder.of_eq rfl) fun found D₃ hlock => ?_
      obtain ⟨hfound, rfl⟩ := runs_selectForUpdate.mp hlock
      refine SameUnder.bind (orThrow_sameUnder _ _ _) fun c' D₄ hthrow => ?_
      obtain ⟨hc', rfl⟩ := Tx.runs_orThrow.mp hthrow
      obtain rfl : c = c' := Option.some.inj (hget.symm.trans (hfound.symm.trans hc'))
      -- ids and times are the same in both environments
      refine SameUnder.bind (SameUnder.answer fun env => (h env).1) fun id D₅ _ => ?_
      refine SameUnder.bind (SameUnder.insert _ _) fun message D₆ hadd => ?_
      obtain ⟨rfl, -, -⟩ := runs_insert.mp hadd
      refine SameUnder.bind (emit_sameUnder h) fun _ D₇ _ => ?_
      exact SameUnder.bind (CustomerServiceAgent.classify_sameUnder h hrisks) fun message D₈ _ =>
        SameUnder.done _
  | process event =>
    show SameUnder g g' D (agent.processReceivedEvent event)
    unfold CustomerServiceAgent.processReceivedEvent
    simp only [MessageCall.subject] at hsubject
    split
    · rename_i conversationId messageId channel hdata
      rw [hdata] at hsubject
      refine SameUnder.bind (SameUnder.of_eq rfl) fun found D₁ hlock => ?_
      obtain ⟨hfound, rfl⟩ := runs_selectForUpdate.mp hlock
      refine SameUnder.bind (orThrow_sameUnder _ _ _) fun message D₂ hthrow => ?_
      obtain ⟨hmessage, rfl⟩ := Tx.runs_orThrow.mp hthrow
      have hget : D.customerMessages.get messageId = some message :=
        hfound.symm.trans (Option.filter_eq_some_iff.mp hmessage).1
      split
      · exact SameUnder.done _
      · refine SameUnder.bind (SameUnder.query _) fun found' D₃ hselect => ?_
        obtain ⟨hfound', rfl⟩ := Tx.runs_select.mp hselect
        refine SameUnder.bind (orThrow_sameUnder _ _ _) fun c' D₄ hthrow' => ?_
        obtain ⟨hc', rfl⟩ := Tx.runs_orThrow.mp hthrow'
        -- the conversation it reads is the one the risk was found in
        refine CustomerServiceAgent.classify_sameUnder h ?_
        have hcget : D.customerConversations.get message.conversationId = some c' :=
          hfound'.symm.trans hc'
        simp [hget, hcget] at hsubject
        obtain ⟨rfl, rfl⟩ := hsubject
        exact hrisks
    · exact SameUnder.of_eq rfl

end Screened

/-! ## Approving a draft -/

/-- Conversations and messages are as before. -/
def SameSupport (D D' : Db) : Prop :=
  D'.customerConversations = D.customerConversations ∧ D'.customerMessages = D.customerMessages

section Drafts

variable {D D₁ D' : Db} {a : Approval} {m : CustomerMessage} {c : CustomerConversation}

/-- What is written in other tables leaves conversations and messages alone. -/
theorem SameSupport.of_sameOff {tables : List TableName}
    (h : Database.SameOff (· ∈ tables) D D') (hc : TableName.customerConversations ∉ tables)
    (hm : TableName.customerMessages ∉ tables) : SameSupport D D' :=
  ⟨h .customerConversations hc, h .customerMessages hm⟩

/-- Twice left alone is left alone. -/
theorem SameSupport.trans (h : SameSupport D D₁) (h' : SameSupport D₁ D') : SameSupport D D' :=
  ⟨h'.1.trans h.1, h'.2.trans h.2⟩

/-- The draft `m` waits for the approval `a`, in the conversation `c`. -/
structure Waiting (a : Approval) (m : CustomerMessage) (c : CustomerConversation) (D : Db) :
    Prop where
  /-- the approval is about a message -/
  resourceType : a.resourceType = "customer_message"
  /-- this one -/
  message : D.customerMessages.get a.resourceId = some m
  /-- which was not sent -/
  draft : m.status = .draft
  /-- and waits for this approval -/
  approval : m.approvalId = some a.id
  /-- in a conversation on record -/
  conversation : D.customerConversations.get m.conversationId = some c

/-- Approving `a` opens the conversation of the draft that waits for it. -/
structure Opens (a : Approval) (m : CustomerMessage) (c : CustomerConversation) (D D' : Db) :
    Prop where
  /-- the draft waited -/
  waiting : Waiting a m c D
  /-- its conversation is open, whatever it was before -/
  conversations : ∀ k, D'.customerConversations.get k =
    if m.conversationId = k then some (c.moved { c with status := .open })
    else D.customerConversations.get k
  /-- and the message is sent -/
  messages : ∃ m', m'.id = m.id ∧ m'.conversationId = m.conversationId ∧
    m'.classification = m.classification ∧
      ∀ k, D'.customerMessages.get k = if m.id = k then some m' else D.customerMessages.get k

/-- A draft that waits afterwards waited before, if conversations and messages were left alone. -/
theorem Waiting.same (h : Waiting a m c D₁) (hsame : SameSupport D D₁) : Waiting a m c D where
  resourceType := h.resourceType
  message := by
    rw [← hsame.2]
    exact h.message
  draft := h.draft
  approval := h.approval
  conversation := by
    rw [← hsame.1]
    exact h.conversation

/-- What leaves them alone may come first. -/
theorem Opens.before (hsame : SameSupport D D₁) (h : Opens a m c D₁ D') : Opens a m c D D' := by
  obtain ⟨m', hid, hthread, hclass, hmessages⟩ := h.messages
  refine ⟨h.waiting.same hsame, fun k => ?_, m', hid, hthread, hclass, fun k => ?_⟩
  · rw [h.conversations k, hsame.1]
  · rw [hmessages k, hsame.2]

/-- What follows the opening may leave the conversations alone. -/
theorem Opens.after (h : Opens a m c D D₁) (hsame : SameSupport D₁ D') : Opens a m c D D' := by
  obtain ⟨m', hid, hthread, hclass, hmessages⟩ := h.messages
  refine ⟨h.waiting, fun k => ?_, m', hid, hthread, hclass, fun k => ?_⟩
  · rw [hsame.1]
    exact h.conversations k
  · rw [hsame.2]
    exact hmessages k

/-- **The handler** of a response approval sends the draft and opens its conversation.  It looks at
    the approval and at the status of the message, and not at the status of the conversation. -/
theorem CustomerResponseApprovalService.approveResponse_runs {u : Unit}
    (h : (approveResponse a).runs D (.ok (u, D'))) : ∃ m c, Opens a m c D D' := by
  obtain ⟨_, D₁, hrequire₁, h₁⟩ := runs_bind_ok.mp h
  obtain ⟨htype, rfl⟩ := Tx.runs_require.mp hrequire₁
  obtain ⟨found, D₂, hlock, h₂⟩ := runs_bind_ok.mp h₁
  obtain ⟨hfound, rfl⟩ := runs_selectForUpdate.mp hlock
  obtain ⟨m, D₃, hthrow₃, h₃⟩ := runs_bind_ok.mp h₂
  obtain ⟨hm, rfl⟩ := Tx.runs_orThrow.mp hthrow₃
  obtain ⟨_, D₄, hrequire₄, h₄⟩ := runs_bind_ok.mp h₃
  obtain ⟨⟨happroval, hdraft⟩, rfl⟩ := Tx.runs_require.mp hrequire₄
  obtain ⟨_, D₅, hrequire₅, h₅⟩ := runs_bind_ok.mp h₄
  obtain ⟨-, rfl⟩ := Tx.runs_require.mp hrequire₅
  obtain ⟨now, D₆, ⟨env, hnow⟩, h₆⟩ := runs_bind_ok.mp h₅
  cases hnow
  obtain ⟨found', D₇, hselect, h₇⟩ := runs_bind_ok.mp h₆
  obtain ⟨hfound', rfl⟩ := Tx.runs_select.mp hselect
  obtain ⟨c, D₈, hthrow₈, h₈⟩ := runs_bind_ok.mp h₇
  obtain ⟨hc, rfl⟩ := Tx.runs_orThrow.mp hthrow₈
  obtain ⟨m', D₉, hflush₉, h₉⟩ := runs_bind_ok.mp h₈
  obtain ⟨row, D₁₀, hflush₁₀, h₁₀⟩ := runs_bind_ok.mp h₉
  cases h₁₀
  -- what was loaded is what is stored, so both flushes find their rows
  have hmget : D.customerMessages.get a.resourceId = some m := hfound.symm.trans hm
  have hcget : D.customerConversations.get m.conversationId = some c := hfound'.symm.trans hc
  have hmcur : D.customerMessages.get m.id = some m := Table.get_of_mem (Table.mem_of_get hmget)
  have hcid : c.id = m.conversationId := Table.key_of_get hcget
  obtain ⟨hm', hget₉, hoff₉⟩ := get_flush (by rfl) (by rfl) hmcur hflush₉
  have hconversations : Db.customerConversations D₉ = D.customerConversations :=
    hoff₉ .customerConversations (by decide)
  have hccur : (Db.customerConversations D₉).get c.id = some c := by
    rw [hconversations, hcid]
    exact hcget
  obtain ⟨hrow, hget₁₀, hoff₁₀⟩ := get_flush (by rfl) (by rfl) hccur hflush₁₀
  refine ⟨m, c, ⟨htype, hmget, hdraft, happroval, hcget⟩, fun k => ?_, m', ?_, ?_, ?_, fun k => ?_⟩
  · rw [← hcid, ← hconversations]
    refine (hget₁₀ k).trans ?_
    rw [hrow]
    rfl
  · exact (eq_of_flushed (R := TableName.Entity) (i := .customerMessages) CustomerMessage.id hm'
      fun _ => rfl).trans rfl
  · exact (eq_of_flushed (R := TableName.Entity) (i := .customerMessages)
      CustomerMessage.conversationId hm' fun _ => rfl).trans rfl
  · exact (eq_of_flushed (R := TableName.Entity) (i := .customerMessages)
      CustomerMessage.classification hm' fun _ => rfl).trans rfl
  · have hafter : Db.customerMessages D' = Db.customerMessages D₉ :=
      hoff₁₀ .customerMessages (by decide)
    rw [hafter]
    exact hget₉ k

/-- The other actions leave conversations and messages alone. -/
theorem approvalActions_sameSupport {actionType : String} {handler : Approval → Tx Unit} {u : Unit}
    (hregistered : approvalActions actionType = some handler)
    (hother : actionType ≠ ApprovalActionType.customerResponse.value)
    (h : (handler a).runs D (.ok (u, D'))) : SameSupport D D' := by
  rcases approvalActions_cases hregistered with
    ⟨-, rfl⟩ | ⟨-, rfl⟩ | ⟨-, rfl⟩ | ⟨hcase, -⟩ | ⟨-, rfl⟩
  · exact .of_sameOff (sameOff_of_runs ProcurementService.approvePurchase_confined h) (by decide)
      (by decide)
  · exact .of_sameOff (sameOff_of_runs ListingApprovalService.approveListing_confined h) (by decide)
      (by decide)
  · exact .of_sameOff (sameOff_of_runs PricingService.approvePriceChange_confined h) (by decide)
      (by decide)
  · exact absurd hcase hother
  · exact .of_sameOff (sameOff_of_runs RefundService.approveRefund_confined h) (by decide) (by decide)

/-- **An approval** opens the conversation of its draft, or leaves conversations and messages
    alone. -/
theorem ApprovalEngine.approve_support {settings : ApprovalSettings} {expiryHours : Int} {i : Uuid}
    {approver reason : String} {now : Instant} {outcome : ApprovalOutcome}
    (h : ((getApprovalEngine settings expiryHours).approve i approver reason now).runs D
      (.ok (outcome, D'))) :
    (SameSupport D D' ∧ ∀ a, D.approvals.get i = some a → isExpired a now = false →
        a.actionType ≠ ApprovalActionType.customerResponse.value) ∨
      ∃ a m c, D.approvals.get i = some a ∧ a.status = .pending ∧ isExpired a now = false ∧
        a.actionType = ApprovalActionType.customerResponse.value ∧ Opens a m c D D' := by
  rcases approve_cases h with ⟨a, hget, hexpired, hoff⟩ | ⟨a, approved, D₁, D₂, rfl, happroving⟩
  · refine Or.inl ⟨.of_sameOff hoff (by decide) (by decide), fun a' ha' hlive => ?_⟩
    obtain rfl := Option.some.inj (hget.symm.trans ha')
    exact absurd (hexpired.symm.trans hlive) (by decide)
  · have hbefore : SameSupport D D₁ := .of_sameOff happroving.written (by decide) (by decide)
    have hafter : SameSupport D₂ D' := .of_sameOff happroving.resumes.closed (by decide) (by decide)
    have hhandled := happroving.resumes.handled
    have hother : approved.actionType ≠ ApprovalActionType.customerResponse.value →
        ∀ a', D.approvals.get a.id = some a' → isExpired a' now = false →
          a'.actionType ≠ ApprovalActionType.customerResponse.value := by
      intro hne a' ha' _
      obtain ⟨actor, rationale, v, hrow⟩ := happroving.row
      obtain rfl := Option.some.inj (happroving.found.symm.trans ha')
      rw [hrow] at hne
      exact hne
    split at hhandled
    · rename_i handler hregistered
      obtain ⟨u, hrun⟩ := hhandled
      by_cases hresponse : approved.actionType = ApprovalActionType.customerResponse.value
      · have hhandler : handler = CustomerResponseApprovalService.approveResponse := by
          rw [hresponse] at hregistered
          exact (Option.some.inj hregistered).symm
        subst hhandler
        obtain ⟨m, c, hopens⟩ := CustomerResponseApprovalService.approveResponse_runs hrun
        obtain ⟨actor, rationale, v, hrow⟩ := happroving.row
        have hopens' := (hopens.before hbefore).after hafter
        rw [hrow] at hopens' hresponse
        have hwaiting := hopens'.waiting
        exact Or.inr ⟨a, m, c, happroving.found, happroving.pending, happroving.live, hresponse,
          ⟨hwaiting.resourceType, hwaiting.message, hwaiting.draft, hwaiting.approval,
            hwaiting.conversation⟩, hopens'.conversations, hopens'.messages⟩
      · have hsame := approvalActions_sameSupport hregistered hresponse hrun
        exact Or.inl ⟨(hbefore.trans hsame).trans hafter, hother hresponse⟩
    · rename_i hregistered
      rw [hhandled] at hafter
      refine Or.inl ⟨hbefore.trans hafter, hother fun hresponse => ?_⟩
      rw [hresponse] at hregistered
      cases hregistered

end Drafts

/-! ## Histories -/

/-- What happens to the messages of customers: they arrive, or their events are processed, and
    approvals of any kind are decided. -/
inductive SupportCall where
  /-- a message arrives, or its event is processed -/
  | message (call : MessageCall)
  /-- an approval of any kind is given -/
  | approve (approvalId : Uuid) (approver reason : String) (now : Instant)
  /-- or refused -/
  | reject (approvalId : Uuid) (approver reason : String) (now : Instant)
  /-- or expires -/
  | expireDue (now : Instant)

namespace SupportCall

/-- The call gives the response approval `a`, which is pending and not expired. -/
def Gives (a : Approval) : SupportCall → Db → Prop
  | approve approvalId _ _ now, D => D.approvals.get approvalId = some a ∧ a.status = .pending ∧
      ApprovalEngine.isExpired a now = false ∧
        a.actionType = ApprovalActionType.customerResponse.value
  | _, _ => False

/-- The call approves a draft of the conversation `k`, which has been escalated since. -/
def Reopens (k : Uuid) (call : SupportCall) (D : Db) : Prop :=
  ∃ a m c, call.Gives a D ∧ Waiting a m c D ∧ m.conversationId = k ∧ c.status = .escalated

variable [Digests] {agent : CustomerServiceAgent} {settings : ApprovalSettings} {expiryHours : Int}
variable {call : SupportCall} {u : Unit} {D D' : Db}

/-- The call as a transaction; what it returns is dropped. -/
def run (agent : CustomerServiceAgent) (engine : ApprovalEngine) : SupportCall → Tx Unit
  | message call => do
    let _ ← call.run agent
    pure ()
  | approve approvalId approver reason now => do
    let _ ← engine.approve approvalId approver reason now
    pure ()
  | reject approvalId approver reason now => do
    let _ ← ApprovalEngine.reject approvalId approver reason now
    pure ()
  | expireDue now => do
    let _ ← ApprovalEngine.expireDue now
    pure ()

/-- **What a call does** to conversations and messages: nothing, a classification, or the approval
    of a draft. -/
theorem run_cases
    (h : (call.run agent (getApprovalEngine settings expiryHours)).runs D (.ok (u, D'))) :
    ((SameSupport D D' ∨
        ∃ m c content d, CallClassifies agent (fun env => env) c content D D' m d) ∧
      ∀ a, ¬call.Gives a D) ∨ ∃ a m c, call.Gives a D ∧ Opens a m c D D' := by
  cases call with
  | message call =>
    obtain ⟨m, D₁, hmessage, h₁⟩ := runs_bind_ok.mp h
    cases h₁
    rw [← under_id (call.run agent)] at hmessage
    rcases MessageCall.run_cases hmessage with ⟨rfl, -⟩ | ⟨c, content, d, -, hd⟩
    · exact Or.inl ⟨Or.inl ⟨rfl, rfl⟩, fun _ h => h⟩
    · exact Or.inl ⟨Or.inr ⟨m, c, content, d, hd⟩, fun _ h => h⟩
  | approve approvalId approver reason now =>
    obtain ⟨outcome, D₁, happrove, h₁⟩ := runs_bind_ok.mp h
    cases h₁
    rcases ApprovalEngine.approve_support happrove with
      ⟨hsame, hother⟩ | ⟨a, m, c, hget, hpending, hlive, hresponse, hopens⟩
    · refine Or.inl ⟨Or.inl hsame, fun a hgives => ?_⟩
      obtain ⟨hget, -, hlive, hresponse⟩ := hgives
      exact hother a hget hlive hresponse
    · exact Or.inr (⟨a, m, c, ⟨hget, hpending, hlive, hresponse⟩, hopens⟩)
  | reject approvalId approver reason now =>
    obtain ⟨outcome, D₁, hreject, h₁⟩ := runs_bind_ok.mp h
    cases h₁
    exact Or.inl ⟨Or.inl (.of_sameOff (sameOff_of_runs ApprovalEngine.reject_confined hreject)
      (by decide) (by decide)), fun _ h => h⟩
  | expireDue now =>
    obtain ⟨count, D₁, hexpire, h₁⟩ := runs_bind_ok.mp h
    cases h₁
    exact Or.inl ⟨Or.inl (.of_sameOff (sameOff_of_runs ApprovalEngine.expireDue_confined hexpire)
      (by decide) (by decide)), fun _ h => h⟩

end SupportCall

/-! ### The risk of a conversation -/

/-- A conversation of high risk. -/
def CustomerConversation.AtRisk (c : CustomerConversation) : Prop :=
  c.riskLevel.any isHighRisk = true

/-- A conversation with an escalated message is of high risk. -/
def EscalationsAtRisk (D : Db) : Prop :=
  ∀ m ∈ D.customerMessages, m.classification = some .humanEscalation →
    ∀ c, D.customerConversations.get m.conversationId = some c → c.AtRisk

/-- A conversation that is escalated is of high risk. -/
def EscalatedAtRisk (D : Db) : Prop :=
  ∀ k c, D.customerConversations.get k = some c → c.status = .escalated → c.AtRisk

section Risk

variable {agent : CustomerServiceAgent} {g : Environment → Environment} {D D' : Db}
variable {c : CustomerConversation} {m : CustomerMessage} {a : Approval} {content : String}
variable {d : CustomerServiceDecision}

/-- A row that is written has the columns it was given; the version is the table's. -/
theorem CustomerConversation.moved_eq (c new : CustomerConversation) :
    ∃ v, c.moved new = { new with version := v } := by
  unfold moved
  split
  · rename_i heq
    exact ⟨c.version, by rw [heq]⟩
  · exact ⟨_, rfl⟩

/-- The screen finds the risk of the conversation. -/
theorem CustomerConversation.AtRisk.reasons (h : c.AtRisk) {screen : CustomerRiskScreen} :
    screen.evaluate content c ≠ [] := by
  intro hnone
  have hmem : "existing_high_risk_conversation" ∈ screen.evaluate content c := by
    have hlevel : c.riskLevel.any isHighRisk = true := h
    simp only [CustomerRiskScreen.evaluate, hlevel, if_true, List.mem_mergeSort, List.mem_dedup]
    exact List.mem_append_right _ List.mem_cons_self
  rw [hnone] at hmem
  exact absurd hmem List.not_mem_nil

/-- In a conversation of high risk a classified message goes to a person. -/
theorem CallClassifies.escalates (h : CallClassifies agent g c content D D' m d)
    (hrisk : c.AtRisk) : d = .humanEscalation := by
  by_contra hd
  exact hrisk.reasons (h.screened hd)

/-- The row of a conversation after a classification. -/
theorem CallClassifies.row (h : CallClassifies agent g c content D D' m d) {k : Uuid}
    {c' : CustomerConversation} (hc' : D'.customerConversations.get k = some c') :
    (k = c.id ∧ ∃ v, c' = { d.applyTo c with version := v }) ∨
      D.customerConversations.get k = some c' := by
  rw [h.conversations k] at hc'
  split at hc'
  · rename_i hk
    obtain ⟨v, hmoved⟩ := c.moved_eq (d.applyTo c)
    exact Or.inl ⟨hk.symm, v, (Option.some.inj hc').symm.trans hmoved⟩
  · exact Or.inr hc'

/-- The row of a conversation after a draft was approved. -/
theorem Opens.row (h : Opens a m c D D') {k : Uuid} {c' : CustomerConversation}
    (hc' : D'.customerConversations.get k = some c') :
    (k = m.conversationId ∧ ∃ v, c' = { c with status := .open, version := v }) ∨
      D.customerConversations.get k = some c' := by
  rw [h.conversations k] at hc'
  split at hc'
  · rename_i hk
    obtain ⟨v, hmoved⟩ := c.moved_eq { c with status := .open }
    exact Or.inl ⟨hk.symm, v, (Option.some.inj hc').symm.trans hmoved⟩
  · exact Or.inr hc'

variable [Digests] {settings : ApprovalSettings} {expiryHours : Int} {call : SupportCall} {u : Unit}

/-- **Step lemma.**  Every call keeps the conversations with an escalated message at high risk.  A
    classification leaves the conversation at the risk of its decision, and one of high risk decides
    for a person; an approved draft does not change the risk. -/
theorem SupportCall.run_escalationsAtRisk (hD : EscalationsAtRisk D)
    (h : (call.run agent (getApprovalEngine settings expiryHours)).runs D (.ok (u, D'))) :
    EscalationsAtRisk D' := by
  intro x hx hescalated c' hc'
  rcases run_cases h with
    ⟨⟨hconversations, hmessages⟩ | ⟨m, c, content, d, hd⟩, -⟩ | ⟨a, m, c, -, hopens⟩
  · rw [hmessages] at hx
    rw [hconversations] at hc'
    exact hD x hx hescalated c' hc'
  · have hget : D'.customerMessages.get x.id = some x := Table.get_of_mem hx
    rw [hd.messages] at hget
    split at hget
    · -- the message that was classified
      obtain rfl := Option.some.inj hget
      have hdecision : d = .humanEscalation :=
        Option.some.inj (hd.classification.symm.trans hescalated)
      have hrow := hd.conversations m.conversationId
      rw [if_pos hd.thread.symm, hc'] at hrow
      obtain ⟨v, hmoved⟩ := c.moved_eq (d.applyTo c)
      rw [Option.some.inj hrow, hmoved, hdecision]
      rfl
    · -- an earlier message: its conversation was of high risk before
      have hmem : x ∈ D.customerMessages := Table.mem_of_get hget
      rcases hd.row hc' with ⟨hk, v, rfl⟩ | hbefore
      · have hrisk : c.AtRisk := by
          refine hD x hmem hescalated c ?_
          rw [hk]
          exact hd.conversation
        rw [hd.escalates hrisk]
        rfl
      · exact hD x hmem hescalated c' hbefore
  · obtain ⟨m', hid, hthread, hclass, hmessages⟩ := hopens.messages
    have hmem : m ∈ D.customerMessages := Table.mem_of_get hopens.waiting.message
    -- the message as it was before the draft was approved
    obtain ⟨y, hy, hyescalated, hythread⟩ : ∃ y ∈ D.customerMessages,
        y.classification = some .humanEscalation ∧ y.conversationId = x.conversationId := by
      have hget : D'.customerMessages.get x.id = some x := Table.get_of_mem hx
      rw [hmessages] at hget
      split at hget
      · obtain rfl := Option.some.inj hget
        exact ⟨m, hmem, hclass.symm.trans hescalated, hthread.symm⟩
      · exact ⟨x, Table.mem_of_get hget, hescalated, rfl⟩
    rcases hopens.row hc' with ⟨hk, v, rfl⟩ | hbefore
    · have hrisk : c.AtRisk := by
        refine hD y hy hyescalated c ?_
        rw [hythread, hk]
        exact hopens.waiting.conversation
      exact hrisk
    · refine hD y hy hyescalated c' ?_
      rw [hythread]
      exact hbefore

/-- **Step lemma.**  Every call keeps the escalated conversations at high risk.  The only decision
    that escalates is the one that sets the risk. -/
theorem SupportCall.run_escalatedAtRisk (hD : EscalatedAtRisk D)
    (h : (call.run agent (getApprovalEngine settings expiryHours)).runs D (.ok (u, D'))) :
    EscalatedAtRisk D' := by
  intro k c' hc' hescalated
  rcases run_cases h with
    ⟨⟨hconversations, -⟩ | ⟨m, c, content, d, hd⟩, -⟩ | ⟨a, m, c, -, hopens⟩
  · rw [hconversations] at hc'
    exact hD k c' hc' hescalated
  · rcases hd.row hc' with ⟨-, v, rfl⟩ | hbefore
    · cases d with
      | autoRespond => exact nomatch hescalated
      | draftForApproval => exact nomatch hescalated
      | humanEscalation => rfl
    · exact hD k c' hbefore hescalated
  · rcases hopens.row hc' with ⟨-, v, rfl⟩ | hbefore
    · exact nomatch hescalated
    · exact hD k c' hbefore hescalated

end Risk

/-! ### What the model cannot do -/

section Histories

variable [Digests] {agent : CustomerServiceAgent} {settings : ApprovalSettings} {expiryHours : Int}
variable {D₀ D D' : Db}

/-- Calls made one after the other. -/
abbrev SupportHistory (agent : CustomerServiceAgent) (settings : ApprovalSettings)
    (expiryHours : Int) (ok : SupportCall → Db → Prop) (D₀ : Db) : Db → Prop :=
  History (SupportCall.run agent (getApprovalEngine settings expiryHours)) ok D₀

/-- The message was not classified before, and now is. -/
structure NewlyClassified (m : CustomerMessage) (d : CustomerServiceDecision) (D : Db) : Prop where
  /-- it has its decision -/
  classification : m.classification = some d
  /-- and had none before -/
  fresh : ∀ m', D.customerMessages.get m.id = some m' → m'.classification = none

/-- The language model does not lower the risk of a message that a call meets in the state `D`.
    `g` is what the environment may answer: a model that replies in one way, at one time, is a
    constant `g`.

    * `automatic`: a message is answered automatically only if the screen had nothing against it and
      the model, asked and authorised, gave an answer that is safe to send;
    * `screened`: a message the screen objects to ends the same whatever the model would say, and no
      run of the agent is recorded for it;
    * `escalated`: in a conversation with an escalated message a call finds its message on record
      and changes nothing, or puts it on record as escalated. -/
structure RiskKept (agent : CustomerServiceAgent) (D : Db) : Prop where
  automatic : ∀ g (call : MessageCall) m D', ((call.run agent).under g).runs D (.ok (m, D')) →
    NewlyClassified m .autoRespond D → call.reasons agent D = [] ∧ agent.Answered g D
  screened : ∀ call : MessageCall, call.reasons agent D ≠ [] →
    (∀ g g', SameClock g g' → SameUnder g g' D (call.run agent)) ∧
      ∀ m D', (call.run agent).runs D (.ok (m, D')) → Db.agentRuns D' = D.agentRuns
  escalated : ∀ (call : MessageCall) m D', (call.run agent).runs D (.ok (m, D')) →
    (∃ m₀ ∈ D.customerMessages, m₀.conversationId = m.conversationId ∧
      m₀.classification = some .humanEscalation) →
        D' = D ∧ m ∈ D.customerMessages ∨
          (Db.customerMessages D').get m.id = some m ∧ m.classification = some .humanEscalation

omit [Digests] in
/-- The reasons of a call are what the screen finds in its message. -/
theorem MessageCall.reasons_eq {call : MessageCall} {c : CustomerConversation}
    {content : String} (hsubject : call.subject D = some (content, c)) :
    call.reasons agent D = agent.riskScreen.evaluate content c := by
  unfold MessageCall.reasons
  rw [hsubject]

/-- The conversation `k` is escalated. -/
def Escalated (k : Uuid) (D : Db) : Prop :=
  ∃ c, D.customerConversations.get k = some c ∧ c.status = .escalated

/-- **Step lemma.**  A call that does not reopen the conversation leaves it escalated: another
    message of it is escalated, and another draft is of another conversation. -/
theorem SupportCall.run_escalated {k : Uuid} {call : SupportCall} {u : Unit}
    (hrisk : EscalatedAtRisk D) (hk : Escalated k D) (hcall : ¬call.Reopens k D)
    (h : (call.run agent (getApprovalEngine settings expiryHours)).runs D (.ok (u, D'))) :
    Escalated k D' := by
  obtain ⟨c, hc, hescalated⟩ := hk
  rcases run_cases h with
    ⟨⟨hconversations, -⟩ | ⟨m, c', content, d, hd⟩, -⟩ | ⟨a, m, c', hgives, hopens⟩
  · refine ⟨c, ?_, hescalated⟩
    rw [hconversations]
    exact hc
  · by_cases hthread : c'.id = k
    · -- the message is escalated, and the conversation with it
      subst hthread
      obtain rfl : c = c' := Option.some.inj (hc.symm.trans hd.conversation)
      obtain rfl := hd.escalates (hrisk _ c hc hescalated)
      obtain ⟨v, hmoved⟩ := c.moved_eq (CustomerServiceDecision.humanEscalation.applyTo c)
      refine ⟨c.moved (CustomerServiceDecision.humanEscalation.applyTo c), ?_, ?_⟩
      · rw [hd.conversations, if_pos rfl]
      · rw [hmoved]
        rfl
    · refine ⟨c, ?_, hescalated⟩
      rw [hd.conversations, if_neg hthread]
      exact hc
  · have hother : m.conversationId ≠ k := by
      intro hthread
      have hsame : c = c' := by
        refine Option.some.inj (hc.symm.trans ?_)
        rw [← hthread]
        exact hopens.waiting.conversation
      exact hcall ⟨a, m, c', hgives, hopens.waiting, hthread, hsame ▸ hescalated⟩
    refine ⟨c, ?_, hescalated⟩
    rw [hopens.conversations, if_neg hother]
    exact hc

/-- A call that reopens the conversation leaves it open. -/
theorem SupportCall.run_reopened {k : Uuid} {call : SupportCall} {u : Unit}
    (hcall : call.Reopens k D)
    (h : (call.run agent (getApprovalEngine settings expiryHours)).runs D (.ok (u, D'))) :
    ¬Escalated k D' := by
  obtain ⟨a, m, c, hgives, hwaiting, rfl, hescalated⟩ := hcall
  rintro ⟨c', hc', hescalated'⟩
  rcases run_cases h with ⟨-, hnone⟩ | ⟨a', m', c₁, hgives', hopens⟩
  · exact hnone a hgives
  · -- both are about the one approval the call gives
    have hsame : a' = a := by
      cases call with
      | approve approvalId approver reason now =>
        exact Option.some.inj (hgives'.1.symm.trans hgives.1)
      | message call => exact hgives.elim
      | reject approvalId approver reason now => exact hgives.elim
      | expireDue now => exact hgives.elim
    subst hsame
    obtain rfl : m' = m := Option.some.inj (hopens.waiting.message.symm.trans hwaiting.message)
    have hrow := hopens.conversations m'.conversationId
    obtain ⟨v, hmoved⟩ := c₁.moved_eq { c₁ with status := .open }
    rw [if_pos rfl, hc', hmoved] at hrow
    rw [Option.some.inj hrow] at hescalated'
    exact nomatch hescalated'

/-- **An escalated conversation stays escalated exactly while no earlier draft is approved.**  One
    direction is the run lemma over calls that do not reopen; the other is a single call. -/
theorem escalated_while_unopened {k : Uuid} (hstart : EscalatedAtRisk D₀)
    (h : SupportHistory agent settings expiryHours (fun _ _ => True) D₀ D) (hk : Escalated k D) :
    (∀ D', SupportHistory agent settings expiryHours (fun call E => ¬call.Reopens k E) D D' →
        Escalated k D') ∧
      ∀ (call : SupportCall) (u : Unit) D', call.Reopens k D →
        (call.run agent (getApprovalEngine settings expiryHours)).runs D (.ok (u, D')) →
          ¬Escalated k D' := by
  have hrisk : EscalatedAtRisk D :=
    h.inv hstart fun call D u D' hD _ hrun => SupportCall.run_escalatedAtRisk hD hrun
  refine ⟨fun D' h' => ?_, fun call u D' hcall hrun => SupportCall.run_reopened hcall hrun⟩
  -- both facts are kept together: the risk carries the step
  have hboth : EscalatedAtRisk D' ∧ Escalated k D' := by
    refine h'.inv (P := fun E => EscalatedAtRisk E ∧ Escalated k E) ⟨hrisk, hk⟩ ?_
    rintro call E u E' ⟨hriskE, hkE⟩ hcall hrun
    exact ⟨SupportCall.run_escalatedAtRisk hriskE hrun,
      SupportCall.run_escalated hriskE hkE hcall hrun⟩
  exact hboth.2

end Histories

/-! ### A draft that is approved after a legal threat -/

section Sample

/-- One conversation, in which nothing was written yet. -/
def supportDb : Db where
  table
    | .customerConversations => .singleton
        { id := Uuid.ofNat 1, version := 1, orderId := none, productId := none
          marketplace := "amazon", marketplaceAccountId := "main"
          externalConversationId := "conversation-1", classification := none, riskLevel := none
          status := .open, assignee := none }
    | _ => ∅

/-- The engine of the service, with an expiry of 72 hours. -/
def supportEngine : ApprovalEngine := getApprovalEngine ⟨10, 100⟩ 72

/-- The screen knows one threat, and the budget is not limited. -/
def supportAgent : CustomerServiceAgent where
  approvalEngine := supportEngine
  promptVersion := "1"
  riskScreen := ⟨[("legal_threat", fun content => content = "You will hear from my lawyer")]⟩
  usageAccounting := ⟨none, none, "USD"⟩

/-- The model drafts an answer to everything. -/
def draftingEnvironment (k n : Nat) : Environment :=
  { Environment.numbered k n with
    classifyMessage := .ok
      { output := some
          { intent := .returnRequest, decision := .draftForApproval, riskLevel := "low"
            generatedResponse := some "Please send it back", rationale := "a return" }
        provider := "openai", model := "gpt"
        usage := ⟨100, 20, 1, some "USD"⟩ } }

/-- A return, a threat, and the approval of the answer to the return. -/
def supportCalls : List SupportCall :=
  [.message (.handle (Uuid.ofNat 1) "message-1" "email" "I want to return this"),
    .message (.handle (Uuid.ofNat 1) "message-2" "email" "You will hear from my lawyer"),
    .approve (Uuid.ofNat 1008) "human" "fine" 5000]

/-- The state after some calls of the support desk. -/
def supported (calls : List SupportCall) : Db :=
  afterCalls (@SupportCall.run Digests.byEnding supportAgent supportEngine)
    draftingEnvironment 0 calls supportDb

/-- Nothing is escalated at first. -/
theorem supportDb_escalatedAtRisk : EscalatedAtRisk supportDb := by
  intro k c hc hescalated
  obtain rfl := List.mem_singleton.mp (Table.mem_of_get hc)
  exact nomatch hescalated

/-- That state is reached by a history of these calls. -/
theorem supported_history (calls : List SupportCall) :
    @SupportHistory Digests.byEnding supportAgent ⟨10, 100⟩ 72 (fun _ _ => True) supportDb
      (supported calls) :=
  History.start.afterCalls draftingEnvironment 0 calls

/-- The status of the conversation. -/
def statusIs (status : ConversationStatus) (D : Db) : Bool :=
  (D.customerConversations.get (Uuid.ofNat 1)).any fun c => c.status = status

/-- The status of the conversation can be computed. -/
theorem escalated_iff {D : Db} : statusIs .escalated D = true ↔ Escalated (Uuid.ofNat 1) D := by
  unfold statusIs Escalated
  rw [Option.any_eq_true]
  simp

/-- The escalated conversation stays so, unless the draft is approved. -/
theorem escalated_while_unopened_sample :
    Escalated (Uuid.ofNat 1) (supported (supportCalls.take 2)) ∧
      ∀ D', @SupportHistory Digests.byEnding supportAgent ⟨10, 100⟩ 72
          (fun call E => ¬call.Reopens (Uuid.ofNat 1) E) (supported (supportCalls.take 2)) D' →
        Escalated (Uuid.ofNat 1) D' := by
  have hk : Escalated (Uuid.ofNat 1) (supported (supportCalls.take 2)) :=
    escalated_iff.mp (by decide +kernel)
  exact ⟨hk, (@escalated_while_unopened Digests.byEnding supportAgent ⟨10, 100⟩ 72 supportDb _
    (Uuid.ofNat 1) supportDb_escalatedAtRisk (supported_history _) hk).1⟩

/-- The draft for the return is approved after the threat: the conversation is open again. -/
theorem escalated_reopened :
    Escalated (Uuid.ofNat 1) (supported (supportCalls.take 2)) ∧
      @SupportHistory Digests.byEnding supportAgent ⟨10, 100⟩ 72 (fun _ _ => True) supportDb
        (supported (supportCalls.take 2)) ∧
        @SupportHistory Digests.byEnding supportAgent ⟨10, 100⟩ 72 (fun _ _ => True)
          (supported (supportCalls.take 2)) (supported supportCalls) ∧
          statusIs .open (supported supportCalls) = true := by
  refine ⟨escalated_iff.mp (by decide +kernel), supported_history _, ?_, by decide +kernel⟩
  exact History.start.afterCalls draftingEnvironment 2 (supportCalls.drop 2)

end Sample

end CommerceOperations
