/-
  The listing agent: drafts made by the language model, checked and put up for approval.

  The marketplace adapter is any implementation of its protocol.  What the prompt is made of, and
  the provider's metadata, are left out.
-/
import CommerceOperations.Ai.Usage
import CommerceOperations.Approvals.Engine

namespace CommerceOperations

open Relational

/-- `MarketplaceListingAdapter`. -/
structure MarketplaceListingAdapter where
  marketplace : String
  validate : GeneratedListing → String → List ValidationIssue
  buildPayload : GeneratedListing → Json

/-- `MarketplaceListingAgent`, with the engine that approves its drafts. -/
structure MarketplaceListingAgent where
  adapter : MarketplaceListingAdapter
  approvalEngine : ApprovalEngine
  promptVersion : String
  usageAccounting : UsageAccounting

/-- `issue.model_dump(mode="json")`. -/
def ValidationIssue.dump (issue : ValidationIssue) : Json :=
  .object
    [("code", .text issue.code), ("field", .text issue.field), ("message", .text issue.message)]

/-- `requirement.model_dump(mode="json")`. -/
def ImageRequirement.dump (requirement : ImageRequirement) : Json :=
  .object
    [("image_type", .text requirement.imageType), ("description", .text requirement.description),
      ("required", .bool requirement.required)]

namespace MarketplaceListingAgent

/-- `handler_name`: the name under which the handler's receipts are kept. -/
def handlerName (agent : MarketplaceListingAgent) : String :=
  s!"listing-agent:{agent.adapter.marketplace}"

/-- The version of the next draft of an item for the marketplace. -/
def nextListingVersion (agent : MarketplaceListingAgent) (inventoryItemId : Uuid) (D : Db) : Int :=
  let versions := (D.listingDrafts.rows.filter fun d =>
    d.inventoryItemId = inventoryItemId ∧ d.marketplace = agent.adapter.marketplace).map
      (·.listingVersion)
  versions.max?.getD 0 + 1

/-- The draft is put up for approval. -/
def requestPublication [Digests] (agent : MarketplaceListingAgent) (draft : ListingDraft)
    (workflow : WorkflowRun) : Tx ListingDraft := do
  let approval ← agent.approvalEngine.requestIfRequired
    { actionType := .firstMarketplacePublication
      amount := none
      priceChangePercent := none
      isFirstPublication := true
      riskLevel := "public_commercial_action" }
    { actionType := ApprovalActionType.firstMarketplacePublication.value
      resourceType := "listing_draft"
      resourceId := draft.id
      requestedAction := .object
        [("operation", .text "approve_first_marketplace_listing"),
          ("marketplace", .text draft.marketplace), ("listing_version", .int draft.listingVersion),
          ("payload", draft.marketplacePayload)]
      reason := "First marketplace publication requires human review"
      requester := agent.handlerName
      riskLevel := "public_commercial_action"
      workflowRunId := some workflow.id }
  let approval ← Tx.orThrow approval .runtimeError
    "First publication policy unexpectedly allowed publication"
  let _ ← flush .workflowRuns workflow
    { workflow with status := .pending, currentStep := some "awaiting_listing_approval" }
  flush .listingDrafts draft { draft with approvalId := some approval.id }

/-- The workflow of an invalid draft has failed. -/
def reportInvalid (draft : ListingDraft) (workflow : WorkflowRun) (issues : List ValidationIssue)
    (causationId : Option Uuid) : Tx ListingDraft := do
  let workflow ← flush .workflowRuns workflow
    { workflow with
      status := .failed
      currentStep := some "validation_failed"
      error := some (.object
        [("type", .text "deterministic_listing_validation"),
          ("issues", .array (issues.map ValidationIssue.dump))]) }
  let _ ← DatabaseEventStore.emit
    (.listingValidationFailed draft.id draft.inventoryItemId draft.marketplace issues.length)
    { aggregateType := "listing_draft"
      aggregateId := draft.id
      aggregateVersion := draft.version
      correlationId := workflow.correlationId
      workflowId := some workflow.id
      causationId }
    s!"listing-validation-failed:{draft.id}"
  pure draft

/-- `generate`: a new version of the listing of an item, written by the model and checked by the
    adapter. -/
def generate [Digests] (agent : MarketplaceListingAgent) (inventoryItemId correlationId : Uuid)
    (causationId sourceEventId : Option Uuid) : Tx ListingDraft := do
  let marketplace := agent.adapter.marketplace
  let found ← Tx.select fun D => D.inventoryItems.get inventoryItemId
  let inventory ← Tx.orThrow (found.filter fun i => 0 < i.availableQuantity)
    .listingInventoryNotReadyError "Inventory is not listing-ready"
  let listingVersion ← Tx.select (agent.nextListingVersion inventory.id)
  let workflowId ← Tx.uuid4
  let now ← Tx.now
  let workflow ← add .workflowRuns
    { id := workflowId
      version := 1
      createdAt := now
      workflowName := s!"marketplace-listing:{marketplace}"
      workflowVersion := 1
      correlationId := Digests.uuid5 s!"listing:{sourceEventId.getD correlationId}:{marketplace}"
      sourceEventId := none
      idempotencyKey := none
      status := .running
      currentStep := some "ai_generation"
      attempts := 0
      nextRetryAt := none
      error := none
      checkpoints := .object
        [("inventory_item_id", .text inventory.id.text),
          ("source_event_id", .ofText (sourceEventId.map (·.text))),
          ("marketplace", .text marketplace)]
      maxAttempts := 3
      timeoutSeconds := 300
      startedAt := none
      deadlineAt := none
      completedAt := none
      waitingApprovalId := none
      costAmount := 0
      costCurrency := none }
  let agentRunId ← Tx.uuid4
  let agentRun ← add .agentRuns
    { id := agentRunId
      version := 1
      createdAt := now
      workflowRunId := some workflow.id
      agentType := "marketplace_listing"
      status := .running
      inputReference := some (sourceEventId.getD inventory.id).text
      outputReference := none
      provider := none
      model := none
      promptVersion := some agent.promptVersion
      inputTokens := 0
      outputTokens := 0
      costAmount := 0
      costCurrency := none
      safetyResult := .object []
      error := none }
  agent.usageAccounting.authorize (some workflow)
  let reply ← Prog.answer Environment.generateListing
  let (result, generated) ← match reply.bind LLMResult.validated with
    | .ok validated => pure validated
    | .error e => .raise e
  let issues := agent.adapter.validate generated inventory.sku
  let valid := issues.isEmpty
  let (charged, accounted) ← UsageAccounting.recordFor workflow
    { agentRun with
      status := .succeeded
      provider := some result.provider
      model := some result.model } result.usage
  let workflow ← flush .workflowRuns workflow charged
  let agentRun ← flush .agentRuns agentRun
    { accounted with
      safetyResult := .object
        [("deterministic_validation_passed", .bool valid),
          ("validation_issue_count", .int issues.length)] }
  let draftId ← Tx.uuid4
  let draft ← add .listingDrafts
    { id := draftId
      version := 1
      inventoryItemId := inventory.id
      workflowRunId := some workflow.id
      agentRunId := some agentRun.id
      approvalId := none
      marketplace
      listingVersion
      title := generated.title
      bulletPoints := generated.bulletPoints
      description := generated.description
      category := some generated.categorySuggestion
      attributes := generated.productAttributes
      searchKeywords := generated.searchTerms
      sku := generated.sku
      proposedPrice := money generated.proposedPrice
      currency := inventory.currency
      imageRequirements := .array (generated.imageRequirements.map ImageRequirement.dump)
      marketplacePayload := agent.adapter.buildPayload generated
      valid
      issues := .array (issues.map ValidationIssue.dump)
      approvalStatus := if valid then .pending else .rejected
      promptVersion := some agent.promptVersion
      aiProvider := some result.provider
      aiModel := some result.model }
  let _ ← flush .agentRuns agentRun { agentRun with outputReference := some draft.id.text }
  addAudit "agent" "marketplace_listing" "listing.draft_created" "listing_draft" draft.id none
    (some (.object
      [("marketplace", .text draft.marketplace), ("listing_version", .int draft.listingVersion),
        ("valid", .bool draft.valid)]))
    (some "Structured AI listing generation") workflow.correlationId
  let _ ← DatabaseEventStore.emit
    (.listingDraftCreated draft.id inventory.id marketplace listingVersion)
    { aggregateType := "listing_draft"
      aggregateId := draft.id
      aggregateVersion := draft.version
      correlationId := workflow.correlationId
      workflowId := some workflow.id
      causationId }
    s!"listing-draft-created:{draft.id}"
  if valid then agent.requestPublication draft workflow
  else reportInvalid draft workflow issues causationId

end MarketplaceListingAgent

namespace ListingApprovalService

/-- `approve_listing`, the resume handler of a publication approval. -/
def approveListing (approval : Approval) : Tx Unit := do
  Tx.require (approval.resourceType = "listing_draft") .listingApprovalError
    "Listing approval references the wrong entity type"
  let found ← selectForUpdate .listingDrafts fun d => d.id = approval.resourceId
  let draft ← Tx.orThrow found .listingApprovalError "Listing draft was not found"
  Tx.require (draft.approvalId = some approval.id ∧ draft.approvalStatus = .pending)
    .listingApprovalError "Listing draft is not awaiting this approval"
  Tx.require draft.valid .listingApprovalError "Invalid listing draft cannot be approved"
  let draft ← flush .listingDrafts draft { draft with approvalStatus := .approved }
  let found ← Tx.select fun D => draft.workflowRunId.bind D.workflowRuns.get
  let workflow ← Tx.orThrow found .listingApprovalError "Listing workflow was not found"
  let workflow ← flush .workflowRuns workflow
    { workflow with status := .succeeded, currentStep := some "listing_approved" }
  let _ ← DatabaseEventStore.emit (.listingApproved draft.id approval.id)
    { aggregateType := "listing_draft"
      aggregateId := draft.id
      aggregateVersion := draft.version
      correlationId := workflow.correlationId
      workflowId := some workflow.id
      causationId := none }
    s!"listing-approved:{draft.id}"
  addAudit "user" ((approval.decidedBy.filter (· ≠ "")).getD "unknown") "listing.approved"
    "listing_draft" draft.id (some (.object [("approval_status", .text "pending")]))
    (some (.object [("approval_status", .text "approved")])) approval.rationale
    workflow.correlationId

end ListingApprovalService

end CommerceOperations
