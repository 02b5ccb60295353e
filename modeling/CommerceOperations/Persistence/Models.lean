/-
  The persistence mappings: the rows of the tables and the database they make up.

  Every entity has an `id` and a `version`; a new row has version 1.  A row holds the columns that
  some modelled function reads or writes.  The columns that nothing reads are left out: the times of
  creation but for runs, requests and events, the times of change, free texts that are only shown,
  and the relationships, which are lookups over the tables.

  `Row` instances list the unique constraints of a table (a NULL never conflicts); the foreign key
  of an order line is listed as well, because a lock on the order keeps its lines fixed.  CHECK
  constraints are not tested by the store.  That the services keep the ones on stock is a result
  here and no assumption; the ones on pricing decisions are stated where decisions are stored.
-/
import CommerceOperations.Persistence.Enums
import CommerceOperations.Relational.Database

namespace CommerceOperations

open Relational

/-! ## Constraints

What two rows of a table may not have in common.  A constraint is named, so that the values of
different constraints are never compared with each other.
-/

/-- The unique constraints and the foreign key the model keeps track of.  A session that catches an
    integrity error can tell which of them was broken, and by which values. -/
inductive Constraint where
  | productExternalId | supplierExternalId | quoteExternalId
  | purchaseOrderRequest | purchaseOrderNumber | procurementWorkflow
  | inventoryItemSku | movementIdempotencyKey
  | draftListingVersion | draftAgentRun | draftApproval
  | listingDraft | listingExternalId | listingSku
  | approvalAction
  | orderMarketplace | orderSourceEvent
  | orderItemLine | orderItemOrder
  | refundExternalId | conversationExternalId | messageExternalId
  | workflowCorrelation | workflowIdempotencyKey
  | reorderSourceEvent
  | eventIdempotencyKey | eventAggregateVersion | receiptHandler
  deriving DecidableEq, Repr

/-- A column value in a constraint; the values of one constraint may be of different types. -/
inductive Scalar where
  | text (s : String)
  | uuid (id : Uuid)
  | int (n : Int)
  deriving DecidableEq

/-- The values of the columns of one constraint, as they are compared with those of other rows. -/
structure Unique where
  constraint : Constraint
  values : List Scalar
  deriving DecidableEq

/-- A constraint over a nullable column: nothing to compare when it is NULL, since two NULLs never
    conflict. -/
def nullable {α : Type} (a : Option α) (constraint : Constraint) (values : α → List Scalar) :
    List Unique :=
  a.toList.map fun x => ⟨constraint, values x⟩

/-! ## Rows

One structure for each mapped class, with the columns in the order of the class.
-/

/-- `Product`: what another system has approved, under its source identity and with the digest of
    the payload it came in. -/
structure Product where
  id : Uuid
  version : Int
  sourceSystem : String
  externalProductId : String
  sourceWorkflowRunId : String
  sourceRecommendationId : String
  sourcePayloadHash : String
  name : String
  brand : Option String
  identifiers : Json
  attributes : Json
  recommendationEvidence : Json
  deriving DecidableEq

/-- `Supplier`: known by the source system and its id there. -/
structure Supplier where
  id : Uuid
  version : Int
  sourceSystem : String
  externalSupplierId : String
  name : String
  contactDetails : Json
  terms : Json
  deriving DecidableEq

/-- `SupplierQuote`: the unit cost, shipping cost and minimum quantity a supplier offers a product
    at. -/
structure SupplierQuote where
  id : Uuid
  version : Int
  productId : Uuid
  supplierId : Uuid
  externalQuoteId : String
  currency : String
  moq : Int
  unitCost : Rat
  shippingCost : Rat
  deriving DecidableEq

/-- `ProcurementRequest`: the purchase of a quantity of a product on a quote.  Its status goes from
    proposed to received, or to cancelled on the way. -/
structure ProcurementRequest where
  id : Uuid
  version : Int
  productId : Uuid
  selectedQuoteId : Uuid
  workflowRunId : Option Uuid
  requestedQuantity : Int
  /-- `recommendation_context["economics"]["recommended_selling_price"]`, where it is set. -/
  recommendedSellingPrice : Option Rat
  createdAt : Instant
  expectedArrivalAt : Option Instant
  status : ProcurementStatus
  deriving DecidableEq

/-- `PurchaseOrder`: made when a request is approved, one for each.  It counts what has been
    received, and takes the cost that the goods arrived at. -/
structure PurchaseOrder where
  id : Uuid
  version : Int
  procurementRequestId : Uuid
  supplierId : Uuid
  poNumber : String
  quantity : Int
  receivedQuantity : Int
  totalAmount : Rat
  actualLandedCost : Option Rat
  currency : String
  terms : Json
  externalReference : Option String
  status : PurchaseOrderStatus
  orderedAt : Option Instant
  shippedAt : Option Instant
  receivedAt : Option Instant
  expectedArrivalAt : Option Instant
  deriving DecidableEq

/-- `InventoryItem`: the stock of a SKU at a location.  `quantityOnHand` and `reservedQuantity` are
    the two balances that the ledger of movements explains; what may be sold is their difference. -/
structure InventoryItem where
  id : Uuid
  version : Int
  productId : Uuid
  sku : String
  storageLocation : String
  quantityOnHand : Int
  reservedQuantity : Int
  costBasis : Rat
  currency : String
  lowStockThreshold : Int
  deriving DecidableEq

/-- `InventoryItem.available_quantity`. -/
def InventoryItem.availableQuantity (item : InventoryItem) : Int :=
  item.quantityOnHand - item.reservedQuantity

/-- `InventoryMovement`: one entry of the stock ledger.  It is never changed; its idempotency key
    says which change of stock it is, and its type to which balance it belongs. -/
structure InventoryMovement where
  id : Uuid
  version : Int
  inventoryItemId : Uuid
  purchaseOrderId : Option Uuid
  movementType : InventoryMovementType
  quantityDelta : Int
  unitCost : Option Rat
  reason : String
  sourceType : String
  sourceId : String
  idempotencyKey : String
  deriving DecidableEq

/-- `ListingDraft`: a version of a listing for a marketplace, written by the listing agent, with the
    payload that would be published and what the validation found. -/
structure ListingDraft where
  id : Uuid
  version : Int
  inventoryItemId : Uuid
  workflowRunId : Option Uuid
  agentRunId : Option Uuid
  approvalId : Option Uuid
  marketplace : String
  listingVersion : Int
  title : String
  bulletPoints : List String
  description : String
  category : Option String
  attributes : Json
  searchKeywords : List String
  sku : String
  proposedPrice : Rat
  currency : String
  imageRequirements : Json
  marketplacePayload : Json
  /-- `validation_results["valid"]`. -/
  valid : Bool
  /-- `validation_results["issues"]`. -/
  issues : Json
  approvalStatus : ApprovalStatus
  promptVersion : Option String
  aiProvider : Option String
  aiModel : Option String
  deriving DecidableEq

/-- `MarketplaceListing`: the publication of a draft, with the status that the attempts at it have
    led to. -/
structure MarketplaceListing where
  id : Uuid
  version : Int
  draftId : Uuid
  marketplace : String
  marketplaceAccountId : String
  sku : String
  externalListingId : Option String
  publicationStatus : PublicationStatus
  lastError : Option String
  publishedAt : Option Instant
  synchronisedAt : Option Instant
  deriving DecidableEq

/-- `Approval`: a request for a human decision about an action.  The digest of what is asked for
    makes a repeated request find the first one; the decision, when it came and who took it are
    written once. -/
structure Approval where
  id : Uuid
  version : Int
  actionType : String
  resourceType : String
  resourceId : Uuid
  requestedPayload : Json
  actionHash : String
  riskLevel : String
  ruleName : String
  ruleVersion : Int
  status : ApprovalStatus
  requestedBy : String
  requestedReason : String
  decidedBy : Option String
  rationale : Option String
  workflowRunId : Option Uuid
  expiresAt : Option Instant
  decidedAt : Option Instant
  resumedAt : Option Instant
  deriving DecidableEq

/-- `PricingDecision`: a calculation of prices with everything it was made from, and what the
    approval policy said of the change. -/
structure PricingDecision where
  id : Uuid
  version : Int
  inventoryItemId : Uuid
  approvalId : Option Uuid
  landedCost : Rat
  marketplaceFees : Rat
  fulfilmentCosts : Rat
  targetMargin : Rat
  minimumMargin : Rat
  minimumPrice : Rat
  currentPrice : Option Rat
  proposedPrice : Rat
  contributionMargin : Rat
  grossProfit : Rat
  contributionProfit : Rat
  marginPercentage : Rat
  roiPercentage : Option Rat
  recommendedPrice : Rat
  priceChangePercentage : Option Rat
  landedCostSource : String
  commercialRules : Json
  currency : String
  reason : String
  policyResult : String
  formulaVersion : Int
  effectiveAt : Option Instant
  deriving DecidableEq

/-- `Order`: an order of a marketplace, with the identity it has there and the digest of what was
    received. -/
structure Order where
  id : Uuid
  version : Int
  marketplace : String
  workflowRunId : Option Uuid
  marketplaceAccountId : String
  externalOrderId : String
  sourceEventId : String
  sourcePayloadHash : String
  status : OrderStatus
  currency : String
  totalAmount : Rat
  customerReference : Option String
  shippingDetails : Json
  orderedAt : Instant
  paidAt : Option Instant
  dispatchedAt : Option Instant
  deliveredAt : Option Instant
  deriving DecidableEq

/-- `OrderItem`: a line of an order and the item whose stock it reserved. -/
structure OrderItem where
  id : Uuid
  version : Int
  orderId : Uuid
  inventoryItemId : Uuid
  externalLineId : String
  sku : String
  quantity : Int
  unitPrice : Rat
  taxAmount : Rat
  discountAmount : Rat
  reservationReference : Option String
  deriving DecidableEq

/-- `Return`: goods of an order that came back.  The disposition says whether they may be sold
    again. -/
structure Return where
  id : Uuid
  version : Int
  orderId : Uuid
  orderItemId : Option Uuid
  quantity : Int
  disposition : Option String
  status : ReturnStatus
  deriving DecidableEq

/-- `Refund`: money to be given back for an order, once it has been approved. -/
structure Refund where
  id : Uuid
  version : Int
  orderId : Uuid
  approvalId : Option Uuid
  marketplace : String
  marketplaceAccountId : String
  externalRefundId : Option String
  amount : Rat
  currency : String
  status : RefundStatus
  deriving DecidableEq

/-- `CustomerConversation`: what a customer and the shop write to each other.  An escalated
    conversation waits for a person. -/
structure CustomerConversation where
  id : Uuid
  version : Int
  orderId : Option Uuid
  productId : Option Uuid
  marketplace : String
  marketplaceAccountId : String
  externalConversationId : String
  classification : Option String
  riskLevel : Option String
  status : ConversationStatus
  assignee : Option String
  deriving DecidableEq

/-- `CustomerMessage`: one message, with its classification, the response drafted or given, and what
    the language model cost. -/
structure CustomerMessage where
  id : Uuid
  version : Int
  conversationId : Uuid
  approvalId : Option Uuid
  externalMessageId : Option String
  direction : MessageDirection
  channel : String
  content : String
  authorType : String
  status : MessageStatus
  intent : Option CustomerIntent
  classification : Option CustomerServiceDecision
  riskLevel : Option String
  riskReasons : List String
  generatedResponse : Option String
  finalResponse : Option String
  structuredAiResponse : Option Json
  promptVersion : Option String
  aiProvider : Option String
  aiModel : Option String
  inputTokens : Int
  outputTokens : Int
  aiCostAmount : Rat
  aiCostCurrency : Option String
  respondedAt : Option Instant
  deriving DecidableEq

/-- `WorkflowRun`: one run of a workflow, of the engine or of a service.  The status, the attempts
    and the time of the next one are what the engine goes by. -/
structure WorkflowRun where
  id : Uuid
  version : Int
  createdAt : Instant
  workflowName : String
  workflowVersion : Int
  correlationId : Uuid
  sourceEventId : Option Uuid
  idempotencyKey : Option String
  status : RunStatus
  currentStep : Option String
  attempts : Int
  nextRetryAt : Option Instant
  error : Option Json
  checkpoints : Json
  maxAttempts : Int
  timeoutSeconds : Int
  startedAt : Option Instant
  deadlineAt : Option Instant
  completedAt : Option Instant
  waitingApprovalId : Option Uuid
  costAmount : Rat
  costCurrency : Option String
  deriving DecidableEq

/-- `AgentRun`: one use of a language model, with its cost, which counts against the budget of the
    month. -/
structure AgentRun where
  id : Uuid
  version : Int
  createdAt : Instant
  workflowRunId : Option Uuid
  agentType : String
  status : RunStatus
  inputReference : Option String
  outputReference : Option String
  provider : Option String
  model : Option String
  promptVersion : Option String
  inputTokens : Int
  outputTokens : Int
  costAmount : Rat
  costCurrency : Option String
  safetyResult : Json
  error : Option Json
  deriving DecidableEq

/-- The payloads of `events/types.py`.  A payload is kept as its value; what the code stores is the
    JSON text of it, from which it is read back in the same form. -/
inductive EventPayload where
  | productApproved (productId : Uuid) (sourceProductId : String)
      (sourceWorkflowRunId : Option String) (procurementRequestId : Option Uuid)
  | procurementRequested (procurementRequestId productId : Uuid) (quantity : Int)
  | procurementStatusChanged (procurementRequestId : Uuid)
      (previousStatus currentStatus actor : String)
  | purchaseApproved (procurementRequestId approvalId : Uuid)
  | purchaseOrderCreated (purchaseOrderId procurementRequestId : Uuid) (poNumber : String)
  | stockReceived (inventoryItemId purchaseOrderId : Uuid) (quantity : Int)
  | inventoryChanged (inventoryItemId : Uuid)
      (quantityDelta quantityOnHand reservedQuantity : Int)
  | listingDraftCreated (listingDraftId inventoryItemId : Uuid) (marketplace : String)
      (listingVersion : Int)
  | listingValidationFailed (listingDraftId inventoryItemId : Uuid) (marketplace : String)
      (errorCount : Int)
  | listingApproved (listingDraftId approvalId : Uuid)
  | listingPublished (marketplaceListingId listingDraftId : Uuid) (externalListingId : String)
  | orderReceived (orderId : Uuid) (marketplace externalOrderId : String)
  | orderCancelled (orderId : Uuid) (reason : Option String)
  | orderReturned (orderId returnId : Uuid) (quantity : Int)
  | lowStock (inventoryItemId : Uuid) (sku : String) (availableQuantity threshold : Int)
  | customerMessageReceived (conversationId messageId : Uuid) (channel : String)
  | refundRequested (refundId orderId : Uuid) (amount : Decimal) (currency : String)
  | workflowFailed (failedWorkflowId : Uuid) (workflowName reason : String) (retryable : Bool)
  deriving DecidableEq

/-- `EVENT_TYPES_BY_PAYLOAD`: the type of an event is that of its payload. -/
def EventPayload.eventType : EventPayload → String
  | productApproved .. => "PRODUCT_APPROVED"
  | procurementRequested .. => "PROCUREMENT_REQUESTED"
  | procurementStatusChanged .. => "PROCUREMENT_STATUS_CHANGED"
  | purchaseApproved .. => "PURCHASE_APPROVED"
  | purchaseOrderCreated .. => "PURCHASE_ORDER_CREATED"
  | stockReceived .. => "STOCK_RECEIVED"
  | inventoryChanged .. => "INVENTORY_CHANGED"
  | listingDraftCreated .. => "LISTING_DRAFT_CREATED"
  | listingValidationFailed .. => "LISTING_VALIDATION_FAILED"
  | listingApproved .. => "LISTING_APPROVED"
  | listingPublished .. => "LISTING_PUBLISHED"
  | orderReceived .. => "ORDER_RECEIVED"
  | orderCancelled .. => "ORDER_CANCELLED"
  | orderReturned .. => "ORDER_RETURNED"
  | lowStock .. => "LOW_STOCK"
  | customerMessageReceived .. => "CUSTOMER_MESSAGE_RECEIVED"
  | refundRequested .. => "REFUND_REQUESTED"
  | workflowFailed .. => "WORKFLOW_FAILED"

/-- `DomainEvent`: an entry of the outbox.  The envelope is what was published under the key;
    status, attempts and last error are written by the processor. -/
structure DomainEvent where
  id : Uuid
  version : Int
  createdAt : Instant
  eventType : String
  eventVersion : Int
  producer : String
  aggregateType : String
  aggregateId : Uuid
  aggregateVersion : Int
  correlationId : Uuid
  workflowId : Option Uuid
  causationId : Option Uuid
  idempotencyKey : String
  payload : EventPayload
  publicationStatus : EventStatus
  processingAttempts : Int
  lastError : Option String
  deriving DecidableEq

/-- `EventHandlerReceipt`: a handler has dealt with an event.  There is at most one receipt for each
    event and handler, which is what keeps a callback from being committed twice. -/
structure EventHandlerReceipt where
  id : Uuid
  version : Int
  eventId : Uuid
  handlerName : String
  status : HandlerReceiptStatus
  deriving DecidableEq

/-- `AuditEvent`: who did what to which resource, with the state before and after where it changed.
    -/
structure AuditEvent where
  id : Uuid
  version : Int
  actorType : String
  actorId : String
  action : String
  resourceType : String
  resourceId : Uuid
  beforeState : Option Json
  afterState : Option Json
  reason : Option String
  correlationId : Uuid
  deriving DecidableEq

/-! ## The database -/

/-- The tables, under the names of the mapped classes. -/
inductive TableName where
  | products | suppliers | supplierQuotes | procurementRequests | purchaseOrders
  | inventoryItems | inventoryMovements | listingDrafts | marketplaceListings
  | approvals | pricingDecisions | orders | orderItems | returns | refunds
  | customerConversations | customerMessages | workflowRuns | agentRuns | domainEvents
  | eventHandlerReceipts | auditEvents
  deriving DecidableEq, Repr

/-- The row type of a table.  It reduces, so that a row of `TableName.orders` is an `Order` to the
    elaborator. -/
abbrev TableName.Entity : TableName → Type
  | products => Product
  | suppliers => Supplier
  | supplierQuotes => SupplierQuote
  | procurementRequests => ProcurementRequest
  | purchaseOrders => PurchaseOrder
  | inventoryItems => InventoryItem
  | inventoryMovements => InventoryMovement
  | listingDrafts => ListingDraft
  | marketplaceListings => MarketplaceListing
  | approvals => Approval
  | pricingDecisions => PricingDecision
  | orders => Order
  | orderItems => OrderItem
  | returns => Return
  | refunds => Refund
  | customerConversations => CustomerConversation
  | customerMessages => CustomerMessage
  | workflowRuns => WorkflowRun
  | agentRuns => AgentRun
  | domainEvents => DomainEvent
  | eventHandlerReceipts => EventHandlerReceipt
  | auditEvents => AuditEvent

/-! ### Their keys and constraints

A row tells its table by which columns it is kept: this is all that the store looks at.
-/

instance : Row Product Uuid Unique where
  key r := r.id
  uniques r := [⟨.productExternalId, [.text r.sourceSystem, .text r.externalProductId]⟩]
  version r := r.version
  withVersion r n := { r with version := n }

instance : Row Supplier Uuid Unique where
  key r := r.id
  uniques r := [⟨.supplierExternalId, [.text r.sourceSystem, .text r.externalSupplierId]⟩]
  version r := r.version
  withVersion r n := { r with version := n }

instance : Row SupplierQuote Uuid Unique where
  key r := r.id
  uniques r := [⟨.quoteExternalId, [.uuid r.supplierId, .text r.externalQuoteId]⟩]
  version r := r.version
  withVersion r n := { r with version := n }

instance : Row ProcurementRequest Uuid Unique where
  key r := r.id
  uniques r := nullable r.workflowRunId .procurementWorkflow fun w => [.uuid w]
  version r := r.version
  withVersion r n := { r with version := n }

instance : Row PurchaseOrder Uuid Unique where
  key r := r.id
  uniques r :=
    [⟨.purchaseOrderRequest, [.uuid r.procurementRequestId]⟩,
      ⟨.purchaseOrderNumber, [.text r.poNumber]⟩]
  version r := r.version
  withVersion r n := { r with version := n }

instance : Row InventoryItem Uuid Unique where
  key r := r.id
  uniques r := [⟨.inventoryItemSku, [.text r.sku, .text r.storageLocation]⟩]
  version r := r.version
  withVersion r n := { r with version := n }

instance : Row InventoryMovement Uuid Unique where
  key r := r.id
  uniques r := [⟨.movementIdempotencyKey, [.text r.idempotencyKey]⟩]
  version r := r.version
  withVersion r n := { r with version := n }

instance : Row ListingDraft Uuid Unique where
  key r := r.id
  uniques r :=
    [⟨.draftListingVersion,
        [.uuid r.inventoryItemId, .text r.marketplace, .int r.listingVersion]⟩] ++
      nullable r.agentRunId .draftAgentRun (fun a => [.uuid a]) ++
      nullable r.approvalId .draftApproval fun a => [.uuid a]
  version r := r.version
  withVersion r n := { r with version := n }

instance : Row MarketplaceListing Uuid Unique where
  key r := r.id
  uniques r :=
    [⟨.listingDraft, [.uuid r.draftId]⟩,
      ⟨.listingSku, [.text r.marketplace, .text r.marketplaceAccountId, .text r.sku]⟩] ++
      nullable r.externalListingId .listingExternalId fun e =>
      [.text r.marketplace, .text r.marketplaceAccountId, .text e]
  version r := r.version
  withVersion r n := { r with version := n }

instance : Row Approval Uuid Unique where
  key r := r.id
  uniques r :=
    [⟨.approvalAction, [.text r.resourceType, .uuid r.resourceId, .text r.actionHash]⟩]
  version r := r.version
  withVersion r n := { r with version := n }

instance : Row PricingDecision Uuid Unique where
  key r := r.id
  version r := r.version
  withVersion r n := { r with version := n }

instance : Row Order Uuid Unique where
  key r := r.id
  uniques r :=
    [⟨.orderMarketplace,
        [.text r.marketplace, .text r.marketplaceAccountId, .text r.externalOrderId]⟩,
      ⟨.orderSourceEvent,
        [.text r.marketplace, .text r.marketplaceAccountId, .text r.sourceEventId]⟩]
  version r := r.version
  withVersion r n := { r with version := n }

instance : Row OrderItem Uuid Unique where
  key r := r.id
  uniques r := [⟨.orderItemLine, [.uuid r.orderId, .text r.externalLineId]⟩]
  parents r := [⟨.orderItemOrder, [.uuid r.orderId]⟩]
  version r := r.version
  withVersion r n := { r with version := n }

instance : Row Return Uuid Unique where
  key r := r.id
  version r := r.version
  withVersion r n := { r with version := n }

instance : Row Refund Uuid Unique where
  key r := r.id
  uniques r :=
    nullable r.externalRefundId .refundExternalId fun e =>
      [.text r.marketplace, .text r.marketplaceAccountId, .text e]
  version r := r.version
  withVersion r n := { r with version := n }

instance : Row CustomerConversation Uuid Unique where
  key r := r.id
  uniques r :=
    [⟨.conversationExternalId,
      [.text r.marketplace, .text r.marketplaceAccountId, .text r.externalConversationId]⟩]
  version r := r.version
  withVersion r n := { r with version := n }

instance : Row CustomerMessage Uuid Unique where
  key r := r.id
  uniques r :=
    nullable r.externalMessageId .messageExternalId fun e => [.uuid r.conversationId, .text e]
  version r := r.version
  withVersion r n := { r with version := n }

instance : Row WorkflowRun Uuid Unique where
  key r := r.id
  uniques r :=
    [⟨.workflowCorrelation, [.text r.workflowName, .uuid r.correlationId]⟩] ++
      nullable r.idempotencyKey .workflowIdempotencyKey fun k => [.text k]
  version r := r.version
  withVersion r n := { r with version := n }

instance : Row AgentRun Uuid Unique where
  key r := r.id
  version r := r.version
  withVersion r n := { r with version := n }

instance : Row DomainEvent Uuid Unique where
  key r := r.id
  uniques r :=
    [⟨.eventIdempotencyKey, [.text r.idempotencyKey]⟩,
      ⟨.eventAggregateVersion, [.text r.aggregateType, .uuid r.aggregateId,
        .int r.aggregateVersion, .text r.eventType]⟩]
  version r := r.version
  withVersion r n := { r with version := n }

instance : Row EventHandlerReceipt Uuid Unique where
  key r := r.id
  uniques r := [⟨.receiptHandler, [.uuid r.eventId, .text r.handlerName]⟩]
  version r := r.version
  withVersion r n := { r with version := n }

instance : Row AuditEvent Uuid Unique where
  key r := r.id
  version r := r.version
  withVersion r n := { r with version := n }

instance : ∀ i : TableName, Row i.Entity Uuid Unique
  | .products => inferInstanceAs (Row Product Uuid Unique)
  | .suppliers => inferInstanceAs (Row Supplier Uuid Unique)
  | .supplierQuotes => inferInstanceAs (Row SupplierQuote Uuid Unique)
  | .procurementRequests => inferInstanceAs (Row ProcurementRequest Uuid Unique)
  | .purchaseOrders => inferInstanceAs (Row PurchaseOrder Uuid Unique)
  | .inventoryItems => inferInstanceAs (Row InventoryItem Uuid Unique)
  | .inventoryMovements => inferInstanceAs (Row InventoryMovement Uuid Unique)
  | .listingDrafts => inferInstanceAs (Row ListingDraft Uuid Unique)
  | .marketplaceListings => inferInstanceAs (Row MarketplaceListing Uuid Unique)
  | .approvals => inferInstanceAs (Row Approval Uuid Unique)
  | .pricingDecisions => inferInstanceAs (Row PricingDecision Uuid Unique)
  | .orders => inferInstanceAs (Row Order Uuid Unique)
  | .orderItems => inferInstanceAs (Row OrderItem Uuid Unique)
  | .returns => inferInstanceAs (Row Return Uuid Unique)
  | .refunds => inferInstanceAs (Row Refund Uuid Unique)
  | .customerConversations => inferInstanceAs (Row CustomerConversation Uuid Unique)
  | .customerMessages => inferInstanceAs (Row CustomerMessage Uuid Unique)
  | .workflowRuns => inferInstanceAs (Row WorkflowRun Uuid Unique)
  | .agentRuns => inferInstanceAs (Row AgentRun Uuid Unique)
  | .domainEvents => inferInstanceAs (Row DomainEvent Uuid Unique)
  | .eventHandlerReceipts => inferInstanceAs (Row EventHandlerReceipt Uuid Unique)
  | .auditEvents => inferInstanceAs (Row AuditEvent Uuid Unique)

instance : ∀ i : TableName, DecidableEq i.Entity
  | .products => inferInstanceAs (DecidableEq Product)
  | .suppliers => inferInstanceAs (DecidableEq Supplier)
  | .supplierQuotes => inferInstanceAs (DecidableEq SupplierQuote)
  | .procurementRequests => inferInstanceAs (DecidableEq ProcurementRequest)
  | .purchaseOrders => inferInstanceAs (DecidableEq PurchaseOrder)
  | .inventoryItems => inferInstanceAs (DecidableEq InventoryItem)
  | .inventoryMovements => inferInstanceAs (DecidableEq InventoryMovement)
  | .listingDrafts => inferInstanceAs (DecidableEq ListingDraft)
  | .marketplaceListings => inferInstanceAs (DecidableEq MarketplaceListing)
  | .approvals => inferInstanceAs (DecidableEq Approval)
  | .pricingDecisions => inferInstanceAs (DecidableEq PricingDecision)
  | .orders => inferInstanceAs (DecidableEq Order)
  | .orderItems => inferInstanceAs (DecidableEq OrderItem)
  | .returns => inferInstanceAs (DecidableEq Return)
  | .refunds => inferInstanceAs (DecidableEq Refund)
  | .customerConversations => inferInstanceAs (DecidableEq CustomerConversation)
  | .customerMessages => inferInstanceAs (DecidableEq CustomerMessage)
  | .workflowRuns => inferInstanceAs (DecidableEq WorkflowRun)
  | .agentRuns => inferInstanceAs (DecidableEq AgentRun)
  | .domainEvents => inferInstanceAs (DecidableEq DomainEvent)
  | .eventHandlerReceipts => inferInstanceAs (DecidableEq EventHandlerReceipt)
  | .auditEvents => inferInstanceAs (DecidableEq AuditEvent)

/-- The database: a table for each name, each with its rows distinct. -/
abbrev Db : Type := Database TableName.Entity

/-- A lock of the database: a table with a row, a unique value or the children of a row in it. -/
abbrev DbLock : Type := Lock TableName Uuid Unique

/-- An order selected for update keeps its lines. -/
instance : ForeignKeys TableName.Entity Uuid Unique where
  childLocks
    | .orders, order => [⟨.orderItems, .children ⟨.orderItemOrder, [.uuid order.id]⟩⟩]
    | _, _ => []

namespace Db

/-- The products, by their table name; the other tables likewise. -/
def products (D : Db) : Table Product := D.table .products
def suppliers (D : Db) : Table Supplier := D.table .suppliers
def supplierQuotes (D : Db) : Table SupplierQuote := D.table .supplierQuotes
def procurementRequests (D : Db) : Table ProcurementRequest := D.table .procurementRequests
def purchaseOrders (D : Db) : Table PurchaseOrder := D.table .purchaseOrders
def inventoryItems (D : Db) : Table InventoryItem := D.table .inventoryItems
def inventoryMovements (D : Db) : Table InventoryMovement := D.table .inventoryMovements
def listingDrafts (D : Db) : Table ListingDraft := D.table .listingDrafts
def marketplaceListings (D : Db) : Table MarketplaceListing := D.table .marketplaceListings
def approvals (D : Db) : Table Approval := D.table .approvals
def pricingDecisions (D : Db) : Table PricingDecision := D.table .pricingDecisions
def orders (D : Db) : Table Order := D.table .orders
def orderItems (D : Db) : Table OrderItem := D.table .orderItems
def returns (D : Db) : Table Return := D.table .returns
def refunds (D : Db) : Table Refund := D.table .refunds
def customerConversations (D : Db) : Table CustomerConversation := D.table .customerConversations
def customerMessages (D : Db) : Table CustomerMessage := D.table .customerMessages
def workflowRuns (D : Db) : Table WorkflowRun := D.table .workflowRuns
def agentRuns (D : Db) : Table AgentRun := D.table .agentRuns
def domainEvents (D : Db) : Table DomainEvent := D.table .domainEvents
def eventHandlerReceipts (D : Db) : Table EventHandlerReceipt := D.table .eventHandlerReceipts
def auditEvents (D : Db) : Table AuditEvent := D.table .auditEvents

/-- The database without rows, where most histories start. -/
def empty : Db := ⟨fun _ => ∅⟩

end Db

end CommerceOperations
