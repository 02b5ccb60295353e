/-
  Approved products: the boundary to the system that recommends what to sell.

  A request brings a product, its supplier, a quote and the economics behind the decision; its
  ingestion starts a procurement.  The source product names the product for good: a second request
  for it is a repetition, or a conflict when its data differs.

  Whether the data differs is decided by a digest of the whole request as canonical JSON.  So the
  models of the contract are here with all their fields and with their dumps, and an amount is a
  `Decimal` with its scale, not a number: how it is written is part of what is compared.
-/
import CommerceOperations.Events.Store
import CommerceOperations.Persistence.Canonical

namespace CommerceOperations

open Relational

/-! ## Contracts -/

/-- The product, as it is described to buyers. -/
structure ProductInformationV1 where
  name : String
  brand : Option String
  identifiers : Json
  attributes : Json

/-- The supplier that was selected. -/
structure SelectedSupplierV1 where
  sourceSupplierId : String
  name : String
  contactDetails : Json
  terms : Json

/-- The supplier's quote.  Quantities and lead times are checked by the contract. -/
structure SupplierQuoteV1 where
  sourceQuoteId : String
  currency : String
  moq : Int
  quantity : Int
  unitCost : Decimal
  shippingCost : Decimal
  leadTimeDays : Int
  validUntil : Option Date
  sourceReference : Option String
  moq_pos : 0 < moq
  moq_le_quantity : moq ≤ quantity
  leadTimeDays_nonneg : 0 ≤ leadTimeDays

/-- The economics behind the decision.  Two of the five are percentages. -/
structure EconomicsV1 where
  estimatedLandedCostPerUnit : Decimal
  recommendedSellingPrice : Decimal
  expectedProfitPerUnit : Decimal
  marginPercent : Decimal
  roiPercent : Decimal

/-- A piece of evidence for the recommendation. -/
structure RecommendationEvidenceV1 where
  type : String
  reference : String
  summary : Option String
  data : Json

/-- The recommendation: its evidence, of which there is some, and when it was decided. -/
structure RecommendationV1 where
  evidence : List RecommendationEvidenceV1
  decidedAt : DateTime
  evidence_nonempty : evidence ≠ []

/-- The one system the contract admits. -/
def sourceSystem : String := "commerce-intelligence"

/-- The whole request.  The schema version and the source system are fixed by their types in the
    source, and are no fields here. -/
structure ApprovedProductRequestV1 where
  sourceProductId : String
  sourceWorkflowRunId : String
  sourceRecommendationId : String
  product : ProductInformationV1
  selectedSupplier : SelectedSupplierV1
  supplierQuote : SupplierQuoteV1
  economics : EconomicsV1
  recommendation : RecommendationV1

/-- What an ingestion is answered. -/
structure ApprovedProductResponseV1 where
  productId : Uuid
  procurementRequestId : Uuid
  workflowRunId : Uuid
  eventId : Uuid
  correlationId : Uuid
  procurementStatus : String
  duplicate : Bool
  deriving DecidableEq

/-! ### Their dumps -/

/-- `model_dump(mode="json")` of each model. -/
def ProductInformationV1.dump (p : ProductInformationV1) : Json :=
  .object
    [("name", .text p.name), ("brand", .ofText p.brand), ("identifiers", p.identifiers),
      ("attributes", p.attributes)]

/-- `model_dump(mode="json")` of a supplier. -/
def SelectedSupplierV1.dump (s : SelectedSupplierV1) : Json :=
  .object
    [("source_supplier_id", .text s.sourceSupplierId), ("name", .text s.name),
      ("contact_details", s.contactDetails), ("terms", s.terms)]

/-- The dump of a quote.  An amount is its text, and so is a date. -/
def SupplierQuoteV1.dump (q : SupplierQuoteV1) : Json :=
  .object
    [("source_quote_id", .text q.sourceQuoteId), ("currency", .text q.currency),
      ("moq", .int q.moq), ("quantity", .int q.quantity), ("unit_cost", .text q.unitCost.str),
      ("shipping_cost", .text q.shippingCost.str), ("lead_time_days", .int q.leadTimeDays),
      ("valid_until", .ofText (q.validUntil.map Date.text)),
      ("source_reference", .ofText q.sourceReference)]

/-- `model_dump(mode="json")` of the economics. -/
def EconomicsV1.dump (e : EconomicsV1) : Json :=
  .object
    [("estimated_landed_cost_per_unit", .text e.estimatedLandedCostPerUnit.str),
      ("recommended_selling_price", .text e.recommendedSellingPrice.str),
      ("expected_profit_per_unit", .text e.expectedProfitPerUnit.str),
      ("margin_percent", .text e.marginPercent.str), ("roi_percent", .text e.roiPercent.str)]

/-- The dump of a piece of evidence. -/
def RecommendationEvidenceV1.dump (e : RecommendationEvidenceV1) : Json :=
  .object
    [("type", .text e.type), ("reference", .text e.reference), ("summary", .ofText e.summary),
      ("data", e.data)]

/-- The dump of a recommendation.  A timestamp is its text, with its offset. -/
def RecommendationV1.dump (r : RecommendationV1) : Json :=
  .object
    [("evidence", .array (r.evidence.map RecommendationEvidenceV1.dump)),
      ("decided_at", .text r.decidedAt.text)]

/-- The dump of the request, with the two constants of the contract. -/
def ApprovedProductRequestV1.dump (request : ApprovedProductRequestV1) : Json :=
  .object
    [("schema_version", .int 1), ("source_system", .text sourceSystem),
      ("source_product_id", .text request.sourceProductId),
      ("source_workflow_run_id", .text request.sourceWorkflowRunId),
      ("source_recommendation_id", .text request.sourceRecommendationId),
      ("product", request.product.dump), ("selected_supplier", request.selectedSupplier.dump),
      ("supplier_quote", request.supplierQuote.dump), ("economics", request.economics.dump),
      ("recommendation", request.recommendation.dump)]

/-! ## The service -/

namespace ApprovedProductIngestionService

/-- `WORKFLOW_NAME`, under which ingestions are kept as runs. -/
def workflowName : String := "approved-product-procurement"

/-- `_payload_hash`: the digest of the request as canonical JSON. -/
def payloadHash [Digests] (request : ApprovedProductRequestV1) : String :=
  Digests.sha256 request.dump.dumps

/-- The name `_correlation_id` hashes. -/
def correlationName (sourceProductId sourceWorkflowRunId : String) : String :=
  s!"{sourceSystem}:{sourceProductId}:{sourceWorkflowRunId}"

/-- `_correlation_id`: a UUID made from the product and the run it was approved in. -/
def correlationId [Digests] (sourceProductId sourceWorkflowRunId : String) : Uuid :=
  Digests.uuid5 (correlationName sourceProductId sourceWorkflowRunId)

/-- `_event_idempotency_key`: the outbox key, made from the source system and the product. -/
def eventIdempotencyKey (system sourceProductId : String) : String :=
  s!"product-approved:{system}:{sourceProductId}"

/-- `_response`: what the caller is told of a run. -/
def response (product : Product) (procurement : ProcurementRequest) (workflow : WorkflowRun)
    (event : DomainEvent) (duplicate : Bool) : ApprovedProductResponseV1 :=
  { productId := product.id
    procurementRequestId := procurement.id
    workflowRunId := workflow.id
    eventId := event.id
    correlationId := workflow.correlationId
    procurementStatus := procurement.status.value
    duplicate }

/-- `_find_product`: the product of this source identity. -/
def findProduct (request : ApprovedProductRequestV1) (D : Db) : Option Product :=
  D.products.rows.find? fun p =>
    p.sourceSystem = sourceSystem ∧ p.externalProductId = request.sourceProductId

/-- `_existing_response`: the records of the first ingestion, marked as a duplicate, if the data is
    the same. -/
def existingResponse (product : Product) (hash : String) : Tx ApprovedProductResponseV1 := do
  Tx.require (product.sourcePayloadHash = hash) .approvedProductConflictError
    "The source product was already ingested with different approved data"
  let procurement ← Tx.select fun D =>
    D.procurementRequests.rows.find? fun r => r.productId = product.id
  let event ← Tx.select fun D => D.domainEvents.rows.find? fun e =>
    e.idempotencyKey = eventIdempotencyKey product.sourceSystem product.externalProductId
  let procurement ← Tx.orThrow procurement .approvedProductConflictError
    "Existing ingestion is incomplete"
  let event ← Tx.orThrow event .approvedProductConflictError "Existing ingestion is incomplete"
  let workflow ← Tx.select fun D => procurement.workflowRunId.bind D.workflowRuns.get
  let workflow ← Tx.orThrow workflow .approvedProductConflictError
    "Existing procurement workflow is missing"
  pure (response product procurement workflow event true)

/-- The supplier on record, or a new one. -/
def findOrAddSupplier (supplier : SelectedSupplierV1) : Tx Supplier := do
  let found ← Tx.select fun D => D.suppliers.rows.find? fun s =>
    s.sourceSystem = sourceSystem ∧ s.externalSupplierId = supplier.sourceSupplierId
  match found with
  | some found => pure found
  | none =>
    let id ← Tx.uuid4
    add .suppliers
      { id
        version := 1
        sourceSystem
        externalSupplierId := supplier.sourceSupplierId
        name := supplier.name
        contactDetails := supplier.contactDetails
        terms := supplier.terms }

/-- The product, which the search for its supplier flushes. -/
def addProduct [Digests] (request : ApprovedProductRequestV1) : Tx Product := do
  let id ← Tx.uuid4
  add .products
    { id
      version := 1
      sourceSystem
      externalProductId := request.sourceProductId
      sourceWorkflowRunId := request.sourceWorkflowRunId
      sourceRecommendationId := request.sourceRecommendationId
      sourcePayloadHash := payloadHash request
      name := request.product.name
      brand := request.product.brand
      identifiers := request.product.identifiers
      attributes := request.product.attributes
      recommendationEvidence :=
        .array (request.recommendation.evidence.map RecommendationEvidenceV1.dump) }

/-- The row of the quote, with its amounts as the columns keep them. -/
def addQuote (quote : SupplierQuoteV1) (product : Product) (supplier : Supplier) :
    Tx SupplierQuote := do
  let id ← Tx.uuid4
  add .supplierQuotes
    { id
      version := 1
      productId := product.id
      supplierId := supplier.id
      externalQuoteId := quote.sourceQuoteId
      currency := quote.currency
      moq := quote.moq
      unitCost := quote.unitCost.value
      shippingCost := quote.shippingCost.value }

/-- The workflow of the procurement. -/
def addWorkflow [Digests] (request : ApprovedProductRequestV1) (requestIdempotencyKey : String) :
    Tx WorkflowRun := do
  let id ← Tx.uuid4
  let createdAt ← Tx.now
  add .workflowRuns
    { id
      version := 1
      createdAt
      workflowName
      workflowVersion := 1
      correlationId := correlationId request.sourceProductId request.sourceWorkflowRunId
      sourceEventId := none
      idempotencyKey := none
      status := .pending
      currentStep := some "procurement_requested"
      attempts := 0
      nextRetryAt := none
      error := none
      checkpoints := .object
        [("source_system", .text sourceSystem),
          ("source_workflow_run_id", .text request.sourceWorkflowRunId),
          ("source_recommendation_id", .text request.sourceRecommendationId),
          ("request_idempotency_key", .text requestIdempotencyKey)]
      maxAttempts := 3
      timeoutSeconds := 300
      startedAt := none
      deadlineAt := none
      completedAt := none
      waitingApprovalId := none
      costAmount := 0
      costCurrency := none }

/-- The row of the request to procure the product. -/
def addProcurement (request : ApprovedProductRequestV1) (product : Product)
    (quote : SupplierQuote) (workflow : WorkflowRun) : Tx ProcurementRequest := do
  let now ← Tx.now
  let id ← Tx.uuid4
  let createdAt ← Tx.now
  add .procurementRequests
    { id
      version := 1
      productId := product.id
      selectedQuoteId := quote.id
      workflowRunId := some workflow.id
      requestedQuantity := request.supplierQuote.quantity
      recommendedSellingPrice := some request.economics.recommendedSellingPrice.value
      createdAt
      expectedArrivalAt := some (now + hours (24 * request.supplierQuote.leadTimeDays))
      status := .proposed }

/-- `ingest`, of a product that is not stored yet. -/
def ingestNew [Digests] (request : ApprovedProductRequestV1) (requestIdempotencyKey : String) :
    Tx ApprovedProductResponseV1 := do
  let product ← addProduct request
  let supplier ← findOrAddSupplier request.selectedSupplier
  let quote ← addQuote request.supplierQuote product supplier
  let workflow ← addWorkflow request requestIdempotencyKey
  let procurement ← addProcurement request product quote workflow
  let event ← DatabaseEventStore.emit
    (.productApproved product.id request.sourceProductId (some request.sourceWorkflowRunId)
      (some procurement.id))
    { aggregateType := "product"
      aggregateId := product.id
      aggregateVersion := product.version
      correlationId := correlationId request.sourceProductId request.sourceWorkflowRunId
      workflowId := some workflow.id
      causationId := none }
    (eventIdempotencyKey sourceSystem request.sourceProductId)
  pure (response product procurement workflow event false)

/-- `ingest`: a first ingestion, or the answer to a repeated one. -/
def ingest [Digests] (request : ApprovedProductRequestV1) (requestIdempotencyKey : String) :
    Tx ApprovedProductResponseV1 := do
  let existing ← Tx.select (findProduct request)
  match existing with
  | some existing => existingResponse existing (payloadHash request)
  | none => ingestNew request requestIdempotencyKey

/-- `find_existing_after_conflict`, in a new transaction after the insert failed. -/
def findExistingAfterConflict [Digests] (request : ApprovedProductRequestV1) :
    Tx ApprovedProductResponseV1 := do
  let product ← Tx.select (findProduct request)
  let product ← Tx.orThrow product .approvedProductConflictError
    "Concurrent ingestion failed without a saved product"
  existingResponse product (payloadHash request)

end ApprovedProductIngestionService

end CommerceOperations
