/-
  The publication of an approved listing draft.

  A connector is known by the account it publishes to and by its own check of a listing, which is
  made before anything is sent.  What the marketplace then answers, to a listing and an idempotency
  key, is the environment's; the metadata of a connector is left out.
-/
import CommerceOperations.Events.Store

namespace CommerceOperations

open Relational

/-- `MarketplaceConnector`: its account, and what it checks without asking the marketplace. -/
structure MarketplaceConnector where
  accountId : String
  validateListing : MarketplaceListingInput → MarketplaceValidationResult

/-- `MarketplacePublicationService`, with the registered connector of each marketplace. -/
structure MarketplacePublicationService where
  connectors : String → Option MarketplaceConnector

namespace MarketplacePublicationService

/-- `tuple(value)`, which fails on what cannot be iterated. -/
def toTuple : Json → Tx (List Json)
  | .array items => pure items
  | .text s => pure (s.toList.map fun c => .text (String.ofList [c]))
  | .object fields => pure (fields.map fun field => .text field.1)
  | _ => .raise (.other "TypeError" "object is not iterable")

/-- `_input`: what the connector is shown of a draft. -/
def input (draft : ListingDraft) : Tx MarketplaceListingInput := do
  let found ← Tx.select fun D => D.inventoryItems.get draft.inventoryItemId
  let inventory ← Tx.orThrow found .attributeError
    "'NoneType' object has no attribute 'available_quantity'"
  let imageUrls ← toTuple ((draft.marketplacePayload.get? "image_urls").getD (.array []))
  pure
    { sku := draft.sku
      title := draft.title
      description := draft.description
      category := draft.category
      attributes := draft.attributes
      price := draft.proposedPrice
      currency := draft.currency
      quantity := inventory.availableQuantity
      imageUrls
      marketplacePayload := draft.marketplacePayload }

/-- `_audit`: an entry about the draft. -/
def audit (draft : ListingDraft) (listing : MarketplaceListing) (correlationId : Uuid)
    (outcome : String) : Tx Unit :=
  addAudit "system" s!"marketplace:{draft.marketplace}" "listing.publication" "marketplace_listing"
    listing.id none
    (some (.object
      [("outcome", .text outcome), ("external_listing_id", .ofText listing.externalListingId)]))
    (some "Approved marketplace listing publication") correlationId

/-- The listing is rejected by the connector: it is marked as failed, with the issues, and the event
    counts as handled. -/
def validationFailed (event : EventEnvelope) (draft : ListingDraft) (listing : MarketplaceListing)
    (issues : List String) : Tx Unit := do
  let listing ← flush .marketplaceListings listing
    { listing with publicationStatus := .failed, lastError := some ("; ".intercalate issues) }
  audit draft listing event.correlationId "validation_failed"

/-- The event of a published listing; it is made of the listing as it is in the session. -/
def reportPublished (event : EventEnvelope) (draft : ListingDraft) (listing : MarketplaceListing)
    (externalListingId : String) : Tx DomainEvent :=
  DatabaseEventStore.emit (.listingPublished listing.id draft.id externalListingId)
    { aggregateType := "marketplace_listing"
      aggregateId := listing.id
      aggregateVersion := listing.version
      correlationId := event.correlationId
      workflowId := draft.workflowRunId
      causationId := some event.eventId }
    s!"listing-published:{draft.id}"

/-- The listing is created by the connector. -/
def published (event : EventEnvelope) (draft : ListingDraft) (listing : MarketplaceListing)
    (externalListingId : String) : Tx Unit := do
  let now ← Tx.now
  -- the changed listing is written when the workflow is loaded
  let listing ← flush .marketplaceListings listing
    { listing with
      externalListingId := some externalListingId
      publicationStatus := .published
      publishedAt := some now
      synchronisedAt := some now
      lastError := none }
  let workflow ← Tx.select fun D => draft.workflowRunId.bind D.workflowRuns.get
  match workflow with
  | some workflow =>
    let _ ← flush .workflowRuns workflow
      { workflow with status := .succeeded, currentStep := some "listing_published" }
  | none => pure ()
  let _ ← reportPublished event draft listing externalListingId
  audit draft listing event.correlationId "published"

/-- The listing is validated and created at the marketplace. -/
def publishListing (connector : MarketplaceConnector) (event : EventEnvelope)
    (draft : ListingDraft) (listing : MarketplaceListing) : Tx Unit := do
  let input ← input draft
  let validation := connector.validateListing input
  if validation.valid then
    let reply ← Prog.answer fun env => env.createListing input s!"listing-draft:{draft.id}"
    match reply with
    | .created externalListingId => published event draft listing externalListingId
    | .invalid issues => validationFailed event draft listing issues
    | .failed e => .raise e
  else validationFailed event draft listing validation.issues

/-- `handle_listing_approved`: the consumer of LISTING_APPROVED publishes the draft it names. -/
def handleListingApproved (service : MarketplacePublicationService) (event : EventEnvelope) :
    Tx Unit := do
  match event.data with
  | .listingApproved draftId _ =>
    let found ← selectForUpdate .listingDrafts fun d => d.id = draftId
    let draft ← Tx.orThrow found .listingPublicationError "Approved listing draft was not found"
    Tx.require (draft.approvalStatus = .approved) .listingPublicationError
      "Only approved listing drafts may be published"
    let connector ← Tx.orThrow (service.connectors draft.marketplace) .lookupError
      s!"Marketplace connector is not registered: {draft.marketplace}"
    let existing ← Tx.select fun D => D.marketplaceListings.rows.find? fun l => l.draftId = draft.id
    match existing with
    | some listing =>
      if listing.publicationStatus = .published then pure ()
      else publishListing connector event draft listing
    | none =>
      let id ← Tx.uuid4
      let listing ← add .marketplaceListings
        { id
          version := 1
          draftId := draft.id
          marketplace := draft.marketplace
          marketplaceAccountId := connector.accountId
          sku := draft.sku
          externalListingId := none
          publicationStatus := .pending
          lastError := none
          publishedAt := none
          synchronisedAt := none }
      publishListing connector event draft listing
  | _ => Tx.throw .valueError "validation error"

end MarketplacePublicationService

end CommerceOperations
