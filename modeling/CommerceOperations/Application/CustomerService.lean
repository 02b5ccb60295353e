/-
  The customer service agent: a message is screened, classified, and answered, drafted or escalated.

  The rules of the risk screen are any predicates on the content; the language model may reply with
  anything, or fail.
-/
import CommerceOperations.Ai.Usage
import CommerceOperations.Approvals.Engine

namespace CommerceOperations

open Relational

/-- `CustomerRiskScreen`: its rules by name. -/
structure CustomerRiskScreen where
  rules : List (String × (String → Bool))

/-- The risk levels that are not left to the agent. -/
def isHighRisk (riskLevel : String) : Bool := riskLevel = "high" ∨ riskLevel = "critical"

/-- `CustomerRiskScreen.evaluate`. -/
def CustomerRiskScreen.evaluate (screen : CustomerRiskScreen) (content : String)
    (conversation : CustomerConversation) : List String :=
  let reasons := (screen.rules.filter fun rule => rule.2 content).map (·.1)
  let reasons :=
    if conversation.riskLevel.any isHighRisk then reasons ++ ["existing_high_risk_conversation"]
    else reasons
  reasons.dedup.mergeSort fun a b => decide (a ≤ b)

/-- `CustomerServiceAgent`, with the settings and the model its decisions depend on. -/
structure CustomerServiceAgent where
  approvalEngine : ApprovalEngine
  promptVersion : String
  riskScreen : CustomerRiskScreen
  usageAccounting : UsageAccounting

/-- `CustomerServiceResult`: what became of a message. -/
structure CustomerServiceResult where
  message : CustomerMessage
  duplicate : Bool

/-- `safe_auto_intents`: intents that may be answered without a person. -/
def CustomerIntent.isSafeAuto : CustomerIntent → Bool
  | productEnquiry | orderStatus | deliveryQuestion | commonMarketplaceMessage => true
  | _ => false

/-- `approval_intents`: intents whose answer needs a person's approval. -/
def CustomerIntent.needsApproval : CustomerIntent → Bool
  | returnRequest | refundEnquiry | complaint => true
  | _ => false

/-- `output.model_dump(mode="json")`. -/
def CustomerServiceAIResponse.dump (output : CustomerServiceAIResponse) : Json :=
  .object
    [("intent", .text output.intent.value), ("decision", .text output.decision.value),
      ("risk_level", .text output.riskLevel),
      ("generated_response", .ofText output.generatedResponse),
      ("rationale", .text output.rationale)]

namespace CustomerServiceAgent

/-- The two objects a classification changes. -/
structure Classified where
  conversation : CustomerConversation
  message : CustomerMessage

/-- `_auto_respond`: the generated text is the answer, and the conversation is open. -/
def autoRespond (c : Classified) (now : Instant) : Classified where
  message :=
    { c.message with
      classification := some .autoRespond
      riskLevel := some "low"
      finalResponse := c.message.generatedResponse
      status := .approved
      respondedAt := some now }
  conversation :=
    { c.conversation with
      classification := some CustomerServiceDecision.autoRespond.value
      riskLevel := some "low"
      status := .open }

/-- `_escalate`: the message waits for a person, and so does its conversation. -/
def escalate (c : Classified) (reasons : List String) (intent : CustomerIntent) : Classified where
  message :=
    { c.message with
      intent := some intent
      classification := some .humanEscalation
      riskLevel := some "high"
      riskReasons := reasons
      status := .received }
  conversation :=
    { c.conversation with
      classification := some CustomerServiceDecision.humanEscalation.value
      riskLevel := some "high"
      status := .escalated
      assignee := some "human-support-queue" }

/-- `_draft_for_approval`: the changes so far are written before the approval is requested. -/
def draftForApproval [Digests] (agent : CustomerServiceAgent) (loaded c : Classified) :
    Tx (Classified × Classified) := do
  let message ← flush .customerMessages loaded.message
    { c.message with
      classification := some .draftForApproval
      riskLevel := some "medium"
      status := .draft }
  let conversation ← flush .customerConversations loaded.conversation
    { c.conversation with
      classification := some CustomerServiceDecision.draftForApproval.value
      riskLevel := some "medium"
      status := .awaitingApproval }
  let approval ← agent.approvalEngine.createRequest
    { actionType := ApprovalActionType.customerResponse.value
      resourceType := "customer_message"
      resourceId := message.id
      requestedAction := .object
        [("final_response", .ofText message.generatedResponse)]
      reason := "Customer response requires human review"
      requester := "customer-service-agent"
      riskLevel := "customer_communication"
      workflowRunId := none } "customer_response_review" 1
  pure (⟨conversation, message⟩, ⟨conversation, { message with approvalId := some approval.id }⟩)

/-- What the answer of the language model leads to. -/
def decide [Digests] (agent : CustomerServiceAgent) (loaded c : Classified)
    (output : CustomerServiceAIResponse) : Tx (Classified × Classified) := do
  if output.intent = .unknown then
    pure (loaded, escalate c ["outside_defined_policy"] output.intent)
  else if isHighRisk output.riskLevel.toLower then
    pure (loaded, escalate c ["ai_high_risk"] output.intent)
  else if output.decision = .humanEscalation then
    pure (loaded, escalate c ["ai_requested_escalation"] output.intent)
  else if output.generatedResponse.all (· = "") then
    pure (loaded, escalate c ["missing_generated_response"] output.intent)
  else if output.decision = .draftForApproval ∨ output.intent.needsApproval then
    agent.draftForApproval loaded c
  else if output.intent.isSafeAuto then
    let now ← Tx.now
    pure (loaded, autoRespond c now)
  else pure (loaded, escalate c ["outside_defined_policy"] output.intent)

/-- What `_classify_with_ai` does with the reply of the language model, or with the refusal to ask
    it: the objects as they are stored and as they are to be. -/
def classifyReply [Digests] (agent : CustomerServiceAgent) (loaded : Classified)
    (agentRun : AgentRun) (reply : Except Error (LLMResult CustomerServiceAIResponse)) :
    Tx (Classified × Classified) := do
  match reply.bind LLMResult.validated with
  | .ok (result, output) =>
    let accounted ← UsageAccounting.record
      { agentRun with
        status := .succeeded
        provider := some result.provider
        model := some result.model } result.usage
    let _ ← flush .agentRuns agentRun accounted
    let message :=
      { loaded.message with
        intent := some output.intent
        generatedResponse := output.generatedResponse
        structuredAiResponse := some output.dump
        promptVersion := some agent.promptVersion
        aiProvider := some result.provider
        aiModel := some result.model
        inputTokens := result.usage.inputTokens
        outputTokens := result.usage.outputTokens
        aiCostAmount := money result.usage.costAmount
        aiCostCurrency := result.usage.costCurrency }
    agent.decide loaded { loaded with message } output
  | .error _ =>
    -- whatever fails while the model is asked leads to a person
    let _ ← flush .agentRuns agentRun
      { agentRun with
        status := .failed
        error := some (.object [("type", .text "ai_processing_failure")]) }
    pure (loaded, escalate loaded ["ai_processing_failure"] .unknown)

/-- `_classify_with_ai`: within the budget the model is asked; what goes wrong is handed to
    `classifyReply`. -/
def classifyWithAi [Digests] (agent : CustomerServiceAgent) (loaded : Classified) :
    Tx (Classified × Classified) := do
  let id ← Tx.uuid4
  let now ← Tx.now
  let agentRun ← add .agentRuns
    { id
      version := 1
      createdAt := now
      workflowRunId := none
      agentType := "customer_service"
      status := .running
      inputReference := some loaded.message.id.text
      outputReference := none
      provider := none
      model := none
      promptVersion := some agent.promptVersion
      inputTokens := 0
      outputTokens := 0
      costAmount := 0
      costCurrency := none
      safetyResult := .object []
      error := none }
  let authorized ← Prog.savepoint (agent.usageAccounting.authorize none)
  match authorized with
  | .error e => agent.classifyReply loaded agentRun (.error e)
  | .ok _ =>
    let reply ← Prog.answer Environment.classifyMessage
    agent.classifyReply loaded agentRun reply

/-- The screening or the classification, and what it changes. -/
def classify [Digests] (agent : CustomerServiceAgent) (conversation : CustomerConversation)
    (message : CustomerMessage) : Tx CustomerMessage := do
  let loaded : Classified := ⟨conversation, message⟩
  let risks := agent.riskScreen.evaluate message.content conversation
  let (stored, changed) ←
    if risks = [] then agent.classifyWithAi loaded
    else pure (loaded, escalate loaded risks .unknown)
  let conversation ← flush .customerConversations stored.conversation changed.conversation
  let message ← flush .customerMessages stored.message changed.message
  addAudit "agent" "customer-service-agent" "customer_message.classified" "customer_message"
    message.id none
    (some (.object
      [("intent", .ofText (message.intent.map (·.value))),
        ("classification", .ofText (message.classification.map (·.value))),
        ("risk_reasons", .array (message.riskReasons.map Json.text))]))
    (some "Deterministic safety screening and structured AI classification") conversation.id
  pure message

/-- `handle_message`: a message is put on record in its conversation, and classified. -/
def handleMessage [Digests] (agent : CustomerServiceAgent) (conversationId : Uuid)
    (externalMessageId channel content : String) : Tx CustomerServiceResult := do
  let existing ← Tx.select fun D => D.customerMessages.rows.find? fun m =>
    m.conversationId = conversationId ∧ m.externalMessageId = some externalMessageId
  match existing with
  | some existing =>
    Tx.require (existing.content = content ∧ existing.channel = channel) .customerMessageConflict
      "External message ID was reused with different content"
    pure ⟨existing, true⟩
  | none =>
    let found ← selectForUpdate .customerConversations fun c => c.id = conversationId
    let conversation ← Tx.orThrow found .conversationNotFoundError conversationId.text
    let id ← Tx.uuid4
    let message ← add .customerMessages
      { id
        version := 1
        conversationId := conversation.id
        approvalId := none
        externalMessageId := some externalMessageId
        direction := .inbound
        channel, content
        authorType := "customer"
        status := .received
        intent := none
        classification := none
        riskLevel := none
        riskReasons := []
        generatedResponse := none
        finalResponse := none
        structuredAiResponse := none
        promptVersion := none
        aiProvider := none
        aiModel := none
        inputTokens := 0
        outputTokens := 0
        aiCostAmount := 0
        aiCostCurrency := none
        respondedAt := none }
    let _ ← DatabaseEventStore.emit
      (.customerMessageReceived conversation.id message.id channel)
      { aggregateType := "customer_conversation"
        aggregateId := conversation.id
        aggregateVersion := conversation.version
        correlationId := conversation.id
        workflowId := none
        causationId := none }
      s!"customer-message-received:{message.id}"
    let message ← agent.classify conversation message
    pure ⟨message, false⟩

/-- `process_received_event`: the message of an event is classified, if it has not been. -/
def processReceivedEvent [Digests] (agent : CustomerServiceAgent) (event : EventEnvelope) :
    Tx CustomerMessage := do
  match event.data with
  | .customerMessageReceived conversationId messageId _ =>
    let found ← selectForUpdate .customerMessages fun m => m.id = messageId
    let message ← Tx.orThrow (found.filter fun m => m.conversationId = conversationId)
      .conversationNotFoundError "Customer message event references missing data"
    if message.classification.isSome then pure message
    else do
      let found ← Tx.select fun D => D.customerConversations.get message.conversationId
      let conversation ← Tx.orThrow found .attributeError
        "'NoneType' object has no attribute 'risk_level'"
      agent.classify conversation message
  | _ => Tx.throw .valueError "validation error"

end CustomerServiceAgent

namespace CustomerResponseApprovalService

/-- `approve_response`, the resume handler of a response approval. -/
def approveResponse (approval : Approval) : Tx Unit := do
  Tx.require (approval.resourceType = "customer_message") .customerResponseApprovalError
    "Approval references the wrong resource"
  let found ← selectForUpdate .customerMessages fun m => m.id = approval.resourceId
  let message ← Tx.orThrow found .customerResponseApprovalError "Customer message was not found"
  Tx.require (message.approvalId = some approval.id ∧ message.status = .draft)
    .customerResponseApprovalError "Message is not awaiting this approval"
  Tx.require (approval.status = .approved) .customerResponseApprovalError
    "Customer response has not been approved"
  let now ← Tx.now
  let found ← Tx.select fun D => D.customerConversations.get message.conversationId
  let conversation ← Tx.orThrow found .attributeError
    "'NoneType' object has no attribute 'status'"
  let _ ← flush .customerMessages message
    { message with
      finalResponse := message.generatedResponse
      status := .approved
      respondedAt := some now }
  let _ ← flush .customerConversations conversation { conversation with status := .open }

end CustomerResponseApprovalService

end CommerceOperations
