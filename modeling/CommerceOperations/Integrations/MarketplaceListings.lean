/-
  The two validations of a listing: that of the draft, by the configured adapter of a marketplace,
  and that of what is published, by the marketplace's connector.

  A connector looks for hosted images and for a field of its provider in the payload of the draft.
  The adapter asks for neither, and no payload it builds has them: what the agent has drafted is
  rejected when it is published, however it was drafted.

  Three steps lead there.  The payload has nine fields and no others (`buildPayload_get?`); a draft
  of the agent has this payload (`generate_madeFrom`), also after its approval; so what the
  connector is shown lacks the images and the field, and these are its only objections
  (`never_publishable`).  The last part follows the approved draft through the deliveries of its
  event: the listing fails, and nothing tries again.
-/
import CommerceOperations.Application.Listings
import CommerceOperations.Application.MarketplacePublication
import CommerceOperations.Persistence.Money
import CommerceOperations.Relational.ReadCommitted

namespace CommerceOperations

open Relational

/-! ## The adapter of a marketplace -/

/-- `MarketplaceListingRequirements`. -/
structure MarketplaceListingRequirements where
  /-- whose requirements they are -/
  marketplace : String
  titleMaxLength : Int
  bulletMinCount : Int
  bulletMaxCount : Int
  bulletMaxLength : Int
  descriptionMaxLength : Int
  keywordMaxCount : Int
  keywordMaxLength : Int
  requiredAttributes : List String
  minimumRequiredImages : Int
  minimumPrice : Decimal

/-- `ConfiguredMarketplaceListingAdapter`. -/
structure ConfiguredMarketplaceListingAdapter where
  requirements : MarketplaceListingRequirements

namespace ConfiguredMarketplaceListingAdapter

/-- `_max_length`: an issue for a text that is longer than the marketplace takes. -/
def maxLength (field value : String) (maximum : Int) : List ValidationIssue :=
  if maximum < value.length then
    [{ code := "max_length"
       field
       message := s!"Must contain at most {maximum} characters" }]
  else []

/-- `_max_length` of each of the texts of a field. -/
def maxLengths (field : String) (values : List String) (maximum : Int) : List ValidationIssue :=
  values.zipIdx.flatMap fun value => maxLength s!"{field}.{value.2}" value.1 maximum

/-- An issue, unless the check holds. -/
def issueUnless (holds : Bool) (code field message : String) : List ValidationIssue :=
  if holds then [] else [{ code, field, message }]

/-- `validate`: the issues of a listing, in the order they are looked for. -/
def validate (self : ConfiguredMarketplaceListingAdapter) (listing : GeneratedListing)
    (expectedSku : String) : List ValidationIssue :=
  let requirements := self.requirements
  let bullets : Int := listing.bulletPoints.length
  let keywords : Int := listing.searchTerms.length
  let requiredImages : Int := listing.imageRequirements.countP (·.required)
  maxLength "title" listing.title requirements.titleMaxLength ++
    issueUnless (requirements.bulletMinCount ≤ bullets ∧ bullets ≤ requirements.bulletMaxCount)
      "bullet_count" "bullet_points"
      s!"Requires {requirements.bulletMinCount}-{requirements.bulletMaxCount} bullet points" ++
    maxLengths "bullet_points" listing.bulletPoints requirements.bulletMaxLength ++
    maxLength "description" listing.description requirements.descriptionMaxLength ++
    issueUnless (keywords ≤ requirements.keywordMaxCount)
      "keyword_count" "search_terms"
      s!"Allows at most {requirements.keywordMaxCount} search terms" ++
    maxLengths "search_terms" listing.searchTerms requirements.keywordMaxLength ++
    issueUnless (listing.sku = expectedSku)
      "sku_mismatch" "sku" "Generated SKU does not match inventory SKU" ++
    issueUnless (requirements.minimumPrice.value ≤ listing.proposedPrice)
      "price_below_marketplace_minimum" "proposed_price"
      s!"Price must be at least {requirements.minimumPrice.str}" ++
    (requirements.requiredAttributes.flatMap fun name =>
      issueUnless (listing.productAttributes.get? name ∉ [none, some .null, some (.text "")])
        "required_attribute" s!"product_attributes.{name}"
        s!"Required attribute is missing: {name}") ++
    issueUnless (requirements.minimumRequiredImages ≤ requiredImages)
      "image_count" "image_requirements"
      s!"Requires at least {requirements.minimumRequiredImages} images"

/-- `build_payload`: the fields of a listing under the names of the marketplace. -/
def buildPayload (listing : GeneratedListing) : Json :=
  .object
    [("title", .text listing.title),
      ("bullets", .array (listing.bulletPoints.map .text)),
      ("description", .text listing.description),
      ("search_terms", .array (listing.searchTerms.map .text)),
      ("category", .text listing.categorySuggestion),
      ("attributes", listing.productAttributes),
      ("sku", .text listing.sku),
      ("price", .decimal (.ofMoney listing.proposedPrice)),
      ("image_requirements", .array (listing.imageRequirements.map ImageRequirement.dump))]

/-- The adapter, as the agent uses it. -/
def toAdapter (self : ConfiguredMarketplaceListingAdapter) : MarketplaceListingAdapter where
  marketplace := self.requirements.marketplace
  validate := self.validate
  buildPayload := buildPayload

/-- The names of the fields that `build_payload` writes. -/
def payloadFields : List String :=
  ["title", "bullets", "description", "search_terms", "category", "attributes", "sku", "price",
    "image_requirements"]

/-- A payload has no other fields. -/
theorem buildPayload_get? {field : String} (hfield : field ∉ payloadFields)
    (listing : GeneratedListing) : (buildPayload listing).get? field = none := by
  unfold buildPayload Json.get?
  rw [Option.map_eq_none_iff, List.find?_eq_none]
  intro found hfound hname
  have hmem : found.1 ∈ payloadFields := List.mem_map_of_mem (f := (·.1)) hfound
  rw [of_decide_eq_true hname] at hmem
  exact hfield hmem

end ConfiguredMarketplaceListingAdapter

/-! ## The connectors -/

/-- `bool(value)`, as Python decides it for a JSON value. -/
def Json.truthy : Json → Bool
  | .null => false
  | .bool b => b
  | .int n => n ≠ 0
  | .float x => x.text ∉ ["0.0", "-0.0"]
  | .decimal _ => true
  | .text s => s ≠ ""
  | .array items => !items.isEmpty
  | .object fields => !fields.isEmpty

/-- `_required`: the issues of the fields that every marketplace requires. -/
def required (listing : MarketplaceListingInput) (images : Bool) : List String :=
  let check (holds : Bool) (issue : String) : List String := if holds then [] else [issue]
  check (listing.sku ≠ "") "sku is required" ++
    check (listing.title ≠ "") "title is required" ++
    check (listing.description ≠ "") "description is required" ++
    check (listing.category.any (· ≠ "")) "category is required" ++
    check (0 ≤ listing.quantity) "quantity cannot be negative" ++
    check (0 < listing.price) "price must be positive" ++
    check (!images || !listing.imageUrls.isEmpty) "at least one hosted image URL is required"

/-- A field of the payload that a provider requires. -/
def requiredField (field issue : String) (listing : MarketplaceListingInput) : List String :=
  if (listing.marketplacePayload.get? field).any Json.truthy then [] else [issue]

/-- `BaseConnector`, with `_provider_requirements` of the subclass. -/
structure BaseConnector where
  marketplace : String
  providerRequirements : MarketplaceListingInput → List String

/-- `validate_listing`: the issues that a connector finds in a listing. -/
def BaseConnector.validateListing (connector : BaseConnector) (listing : MarketplaceListingInput) :
    MarketplaceValidationResult :=
  let issues := required listing true ++ connector.providerRequirements listing
  { valid := issues.isEmpty, issues }

/-- The connector with the account it was built for. -/
def BaseConnector.toConnector (connector : BaseConnector) (accountId : String) :
    MarketplaceConnector where
  accountId
  validateListing := connector.validateListing

/-- `EbayMarketplaceConnector`, with the fields it requires. -/
def ebayMarketplaceConnector : BaseConnector where
  marketplace := "ebay"
  providerRequirements := requiredField "condition" "eBay item condition is required"

/-- `AmazonMarketplaceConnector`. -/
def amazonMarketplaceConnector : BaseConnector where
  marketplace := "amazon"
  providerRequirements := requiredField "product_type" "Amazon product_type is required"

/-- `FacebookMarketplaceConnector`. -/
def facebookMarketplaceConnector : BaseConnector where
  marketplace := "facebook"
  providerRequirements := requiredField "link" "Facebook product URL is required"

/-- `TikTokMarketplaceConnector`. -/
def tikTokMarketplaceConnector : BaseConnector where
  marketplace := "tiktok"
  providerRequirements := requiredField "category_id" "TikTok category_id is required"

/-- The four connectors the application registers. -/
def marketplaceConnectors : List BaseConnector :=
  [ebayMarketplaceConnector, amazonMarketplaceConnector, facebookMarketplaceConnector,
    tikTokMarketplaceConnector]

/-! ## From the generated listing to what is published -/

/-- A draft with the content of a generated listing. -/
structure ListingDraft.MadeFrom (draft : ListingDraft) (adapter : MarketplaceListingAdapter)
    (listing : GeneratedListing) : Prop where
  sku : draft.sku = listing.sku
  title : draft.title = listing.title
  description : draft.description = listing.description
  category : draft.category = some listing.categorySuggestion
  proposedPrice : draft.proposedPrice = money listing.proposedPrice
  marketplacePayload : draft.marketplacePayload = adapter.buildPayload listing

/-- What the schema of a generated listing says of the fields that are published. -/
structure GeneratedListing.Admitted (listing : GeneratedListing) : Prop where
  sku : listing.sku ≠ ""
  title : listing.title ≠ ""
  description : listing.description ≠ ""
  category : listing.categorySuggestion ≠ ""
  positive : 0 < listing.proposedPrice
  decimals : IsMoney listing.proposedPrice

section Generate

variable {agent : MarketplaceListingAgent} {D D' : Db} {draft new row : ListingDraft}
  {listing : GeneratedListing} {adapter : MarketplaceListingAdapter}

/-- Only the approval of a draft changes, not what it was made of. -/
theorem ListingDraft.MadeFrom.of_flush (h : new.MadeFrom adapter listing)
    (hflush : (Prog.flush TableName.listingDrafts draft new : Tx ListingDraft).runs D
      (.ok (row, D'))) : row.MadeFrom adapter listing := by
  have hcolumn := fun {γ : Type} (f : ListingDraft → γ) hf =>
    Prog.column_of_flush (i := TableName.listingDrafts) f hf hflush
  constructor
  · exact (hcolumn ListingDraft.sku fun _ => rfl).trans h.sku
  · exact (hcolumn ListingDraft.title fun _ => rfl).trans h.title
  · exact (hcolumn ListingDraft.description fun _ => rfl).trans h.description
  · exact (hcolumn ListingDraft.category fun _ => rfl).trans h.category
  · exact (hcolumn ListingDraft.proposedPrice fun _ => rfl).trans h.proposedPrice
  · exact (hcolumn ListingDraft.marketplacePayload fun _ => rfl).trans h.marketplacePayload

/-- Asking for an approval leaves the content of a draft alone. -/
theorem MarketplaceListingAgent.requestPublication_madeFrom [Digests] {workflow : WorkflowRun}
    (hmade : draft.MadeFrom adapter listing)
    (h : (agent.requestPublication draft workflow).runs D (.ok (row, D'))) :
    row.MadeFrom adapter listing := by
  obtain ⟨approval, D₁, -, h₁⟩ := Prog.runs_bind_ok.mp h
  obtain ⟨created, D₂, -, h₂⟩ := Prog.runs_bind_ok.mp h₁
  obtain ⟨paused, D₃, -, hflush⟩ := Prog.runs_bind_ok.mp h₂
  have hlinked :
      ListingDraft.MadeFrom { draft with approvalId := some created.id } adapter listing :=
    ⟨hmade.sku, hmade.title, hmade.description, hmade.category, hmade.proposedPrice,
      hmade.marketplacePayload⟩
  exact hlinked.of_flush hflush

/-- Reporting that a draft is invalid leaves it made from its listing. -/
theorem MarketplaceListingAgent.reportInvalid_madeFrom {workflow : WorkflowRun}
    {issues : List ValidationIssue} {causationId : Option Uuid}
    (hmade : draft.MadeFrom adapter listing)
    (h : (reportInvalid draft workflow issues causationId).runs D (.ok (row, D'))) :
    row.MadeFrom adapter listing := by
  obtain ⟨failed, D₁, -, h₁⟩ := Prog.runs_bind_ok.mp h
  obtain ⟨event, D₂, -, hdone⟩ := Prog.runs_bind_ok.mp h₁
  cases hdone
  exact hmade

/-- What the agent drafts is made of a generated listing. -/
theorem MarketplaceListingAgent.generate_madeFrom [Digests] {inventoryItemId correlationId : Uuid}
    {causationId sourceEventId : Option Uuid}
    (h : (agent.generate inventoryItemId correlationId causationId sourceEventId).runs D
      (.ok (draft, D'))) :
    ∃ listing : GeneratedListing, draft.MadeFrom agent.adapter listing := by
  obtain ⟨found, D₁, -, h₁⟩ := Prog.runs_bind_ok.mp h
  obtain ⟨inventory, D₂, -, h₂⟩ := Prog.runs_bind_ok.mp h₁
  obtain ⟨listingVersion, D₃, -, h₃⟩ := Prog.runs_bind_ok.mp h₂
  obtain ⟨workflowId, D₄, -, h₄⟩ := Prog.runs_bind_ok.mp h₃
  obtain ⟨now, D₅, -, h₅⟩ := Prog.runs_bind_ok.mp h₄
  obtain ⟨workflow, D₆, -, h₆⟩ := Prog.runs_bind_ok.mp h₅
  obtain ⟨agentRunId, D₇, -, h₇⟩ := Prog.runs_bind_ok.mp h₆
  obtain ⟨agentRun, D₈, -, h₈⟩ := Prog.runs_bind_ok.mp h₇
  obtain ⟨authorized, D₉, -, h₉⟩ := Prog.runs_bind_ok.mp h₈
  obtain ⟨reply, D₁₀, -, h₁₀⟩ := Prog.runs_bind_ok.mp h₉
  dsimp only at h₁₀
  split at h₁₀
  swap
  · cases h₁₀
  obtain ⟨⟨result, listing⟩, D₁₁, -, h₁₁⟩ := Prog.runs_bind_ok.mp h₁₀
  obtain ⟨⟨charged, accounted⟩, D₁₂, -, h₁₂⟩ := Prog.runs_bind_ok.mp h₁₁
  obtain ⟨flushed, D₁₃, -, h₁₃⟩ := Prog.runs_bind_ok.mp h₁₂
  obtain ⟨agentRun', D₁₄, -, h₁₄⟩ := Prog.runs_bind_ok.mp h₁₃
  obtain ⟨draftId, D₁₅, -, h₁₅⟩ := Prog.runs_bind_ok.mp h₁₄
  obtain ⟨added, D₁₆, hadded, h₁₆⟩ := Prog.runs_bind_ok.mp h₁₅
  obtain ⟨rfl, -, -⟩ := Prog.runs_insert.mp hadded
  obtain ⟨referenced, D₁₇, -, h₁₇⟩ := Prog.runs_bind_ok.mp h₁₆
  obtain ⟨audited, D₁₈, -, h₁₈⟩ := Prog.runs_bind_ok.mp h₁₇
  obtain ⟨event, D₁₉, -, h₁₉⟩ := Prog.runs_bind_ok.mp h₁₈
  refine ⟨listing, ?_⟩
  split at h₁₉
  · exact requestPublication_madeFrom ⟨rfl, rfl, rfl, rfl, rfl, rfl⟩ h₁₉
  · exact reportInvalid_madeFrom ⟨rfl, rfl, rfl, rfl, rfl, rfl⟩ h₁₉

end Generate

/-! ## What is published is rejected -/

section Rejection

variable {adapter : ConfiguredMarketplaceListingAdapter} {listing : GeneratedListing}
  {draft : ListingDraft} {connector : BaseConnector} {D : Db} {item : InventoryItem}

/-- `_input`, of a draft of an item that has stock. -/
def MarketplaceListingInput.of (draft : ListingDraft) (item : InventoryItem)
    (imageUrls : List Json) :
    MarketplaceListingInput where
  sku := draft.sku
  title := draft.title
  description := draft.description
  category := draft.category
  attributes := draft.attributes
  price := draft.proposedPrice
  currency := draft.currency
  quantity := item.availableQuantity
  imageUrls
  marketplacePayload := draft.marketplacePayload

/-- What the connector is shown of a draft has no image. -/
theorem ListingDraft.MadeFrom.input_runs (hmade : draft.MadeFrom adapter.toAdapter listing)
    (hitem : D.inventoryItems.get draft.inventoryItemId = some item)
    {result : Except Error (MarketplaceListingInput × Db)} :
    (MarketplacePublicationService.input draft).runs D result ↔
      result = .ok (.of draft item [], D) := by
  have himages : draft.marketplacePayload.get? "image_urls" = none := by
    rw [hmade.marketplacePayload]
    exact ConfiguredMarketplaceListingAdapter.buildPayload_get? (by decide) listing
  unfold MarketplacePublicationService.input
  refine Prog.runs_query_bind.trans ?_
  rw [hitem, himages]
  exact Iff.rfl

/-- Each provider requires a field that no payload has. -/
theorem provider_requires (hconnector : connector ∈ marketplaceConnectors)
    (input : MarketplaceListingInput)
    (hpayload : input.marketplacePayload = adapter.toAdapter.buildPayload listing) :
    connector.providerRequirements input ≠ [] := by
  have hfield :
    ∀ {field issue : String}, field ∉ ConfiguredMarketplaceListingAdapter.payloadFields →
      requiredField field issue input ≠ [] := by
    intro field issue hfield
    have hnone := ConfiguredMarketplaceListingAdapter.buildPayload_get? hfield listing
    unfold requiredField
    rw [hpayload]
    show (if (Json.get? _ _).any _ then _ else _) ≠ _
    rw [show (adapter.toAdapter.buildPayload listing).get? field = none from hnone]
    exact List.cons_ne_nil _ _
  simp only [marketplaceConnectors, List.mem_cons, List.not_mem_nil, or_false] at hconnector
  rcases hconnector with rfl | rfl | rfl | rfl
  all_goals exact hfield (by decide)

/-- A connector that asks for a field no payload has refuses what is published of the draft. -/
theorem ListingDraft.MadeFrom.refused (hmade : draft.MadeFrom adapter.toAdapter listing)
    (hconnector : connector ∈ marketplaceConnectors) :
    (connector.validateListing (.of draft item [])).valid = false := by
  have hprovider := provider_requires hconnector (MarketplaceListingInput.of draft item [])
    hmade.marketplacePayload
  have hissues : (connector.validateListing (.of draft item [])).issues ≠ [] :=
    fun hnil => hprovider (List.append_eq_nil_iff.mp hnil).2
  exact List.isEmpty_eq_false_iff.mpr hissues

/-- The connector of a marketplace accepts what is published of a draft. -/
def Publishable (connector : BaseConnector) (draft : ListingDraft) (D : Db) : Prop :=
  ∃ input D', (MarketplacePublicationService.input draft).runs D (.ok (input, D')) ∧
    (connector.validateListing input).valid = true

/-- **No draft of the agent can be published.**  Whatever was generated, and whichever connector is
    asked, the images and the field of the provider are missed; if the listing is one its schema
    admits, and the item has stock, nothing else is. -/
theorem never_publishable (hconnector : connector ∈ marketplaceConnectors)
    (hmade : draft.MadeFrom adapter.toAdapter listing)
    (hitem : D.inventoryItems.get draft.inventoryItemId = some item) :
    ¬Publishable connector draft D ∧
      (listing.Admitted → 0 < item.availableQuantity → ∀ input D',
        (MarketplacePublicationService.input draft).runs D (.ok (input, D')) →
        (connector.validateListing input).issues =
          "at least one hosted image URL is required" :: connector.providerRequirements input) := by
  constructor
  · rintro ⟨input, D', hrun, hvalid⟩
    have hinput := (hmade.input_runs hitem).mp hrun
    simp only [Except.ok.injEq, Prod.mk.injEq] at hinput
    obtain ⟨rfl, -⟩ := hinput
    rw [hmade.refused hconnector] at hvalid
    exact nomatch hvalid
  · intro hadmitted hstock input D' hrun
    have hinput := (hmade.input_runs hitem).mp hrun
    simp only [Except.ok.injEq, Prod.mk.injEq] at hinput
    obtain ⟨rfl, -⟩ := hinput
    have hprice : 0 < draft.proposedPrice := by
      rw [hmade.proposedPrice, hadmitted.decimals.money_eq]
      exact hadmitted.positive
    have hsku : draft.sku ≠ "" := hmade.sku ▸ hadmitted.sku
    have htitle : draft.title ≠ "" := hmade.title ▸ hadmitted.title
    have hdescription : draft.description ≠ "" := hmade.description ▸ hadmitted.description
    simp [BaseConnector.validateListing, required, MarketplaceListingInput.of, hsku, htitle,
      hdescription, hmade.category, hadmitted.category, hprice, hstock.le]

end Rejection

/-! ## What becomes of an approved draft -/

section Approved

open MarketplacePublicationService

variable {adapter : ConfiguredMarketplaceListingAdapter} {generated : GeneratedListing}
  {draft : ListingDraft} {connector : BaseConnector} {service : MarketplacePublicationService}
  {event : EventEnvelope} {D D' D₀ : Db}

/-- The draft is on record, of an item on record and for a marketplace with one of the connectors,
    and no listing of it has been published. -/
structure AwaitsPublication (service : MarketplacePublicationService) (connector : BaseConnector)
    (draft : ListingDraft) (item : InventoryItem) (D : Db) : Prop where
  /-- the draft is on record -/
  stored : D.listingDrafts.get draft.id = some draft
  /-- and so is its item -/
  stocked : D.inventoryItems.get draft.inventoryItemId = some item
  /-- its marketplace has a connector -/
  registered : ∃ accountId, service.connectors draft.marketplace =
    some (connector.toConnector accountId)
  /-- and it was not published -/
  unpublished : ∀ l ∈ D.marketplaceListings, l.draftId = draft.id → l.publicationStatus ≠ .published

/-- A listing of the draft stands as failed, with the issues its connector found. -/
def Failed (connector : BaseConnector) (draft : ListingDraft) (item : InventoryItem) (D : Db) :
    Prop :=
  ∃ l ∈ D.marketplaceListings, l.draftId = draft.id ∧ l.publicationStatus = .failed ∧
    l.lastError = some ("; ".intercalate (connector.validateListing (.of draft item [])).issues)

/-- A rejection writes the listing and an entry, and nothing else. -/
theorem validationFailed_confined {listing : MarketplaceListing} {issues : List String} :
    (validationFailed event draft listing issues).confined [.marketplaceListings, .auditEvents] :=
  Prog.writes_bind (Tx.confined_flush _ _ (by decide)) fun _ =>
    Tx.confined_mono addAudit_confined (by decide)

/-- The listing that was rejected is failed, and the other listings are as before. -/
theorem validationFailed_runs {listing : MarketplaceListing} {issues : List String} {u : Unit}
    (hcur : D.marketplaceListings.get listing.id = some listing)
    (h : (validationFailed event draft listing issues).runs D (.ok (u, D'))) :
    ∃ row, row.draftId = listing.draftId ∧ row.publicationStatus = .failed ∧
      row.lastError = some ("; ".intercalate issues) ∧
      ∀ l, l ∈ D'.marketplaceListings ↔ l = row ∨
        (l ∈ D.marketplaceListings ∧ l.id ≠ listing.id) := by
  obtain ⟨row, D₁, hflush, h₁⟩ := Prog.runs_bind_ok.mp h
  have haudit : D'.marketplaceListings = Db.marketplaceListings D₁ :=
    Prog.sameOff_of_runs addAudit_confined h₁ .marketplaceListings (by decide)
  rw [haudit]
  have hmem : listing ∈ D.marketplaceListings := Table.mem_of_get hcur
  rcases Prog.runs_flush (by rfl) (by rfl) hcur hflush with ⟨heq, rfl, rfl⟩ | ⟨-, hrow, hs, hc, rfl⟩
  · -- it had failed for these issues before
    refine ⟨row, rfl, ?_, ?_, fun l => ?_⟩
    · rw [← heq]
    · rw [← heq]
    · constructor
      · intro hl
        by_cases hid : l.id = row.id
        · exact Or.inl (Table.eq_of_key_eq _ hl hmem hid)
        · exact Or.inr ⟨hl, hid⟩
      · rintro (rfl | ⟨hl, -⟩)
        · exact hmem
        · exact hl
  · have hid : MarketplaceListing.id row = listing.id := by
      rw [hrow]
      rfl
    refine ⟨row, ?_, ?_, ?_, fun l => ?_⟩
    · rw [hrow]
      rfl
    · rw [hrow]
      rfl
    · rw [hrow]
      rfl
    · rw [← hid]
      exact Table.mem_update hs hc

/-- **Step lemma.**  An approved draft of the agent is not published: its event is taken up, the
    listing is rejected by its connector and fails, and the draft awaits its publication as before.
    The event counts as handled, so nothing tries again. -/
theorem handleListingApproved_fails {item : InventoryItem} {approvalId : Uuid} {u : Unit}
    (hconnector : connector ∈ marketplaceConnectors)
    (hmade : draft.MadeFrom adapter.toAdapter generated)
    (hawaits : AwaitsPublication service connector draft item D)
    (hevent : event.data = .listingApproved draft.id approvalId)
    (h : (service.handleListingApproved event).runs D (.ok (u, D'))) :
    AwaitsPublication service connector draft item D' ∧ Failed connector draft item D' ∧
      D'.domainEvents = D.domainEvents ∧ D'.workflowRuns = D.workflowRuns := by
  unfold handleListingApproved at h
  rw [hevent] at h
  obtain ⟨found, D₁, hselect, h₁⟩ := Prog.runs_bind_ok.mp h
  obtain ⟨hfound, rfl⟩ := Prog.runs_selectForUpdate.mp hselect
  obtain ⟨current, D₂, hthrow, h₂⟩ := Prog.runs_bind_ok.mp h₁
  obtain ⟨rfl, rfl⟩ := Tx.runs_orThrow.mp hthrow
  obtain rfl : current = draft := by
    have hget : D.listingDrafts.get draft.id = some current := hfound.symm
    exact Option.some.inj (hget.symm.trans hawaits.stored)
  obtain ⟨_, D₃, hrequire, h₃⟩ := Prog.runs_bind_ok.mp h₂
  obtain ⟨-, rfl⟩ := Tx.runs_require.mp hrequire
  obtain ⟨accountId, hregistered⟩ := hawaits.registered
  obtain ⟨registered, D₄, hconnected, h₄⟩ := Prog.runs_bind_ok.mp h₃
  obtain ⟨hsome, rfl⟩ := Tx.runs_orThrow.mp hconnected
  obtain rfl : connector.toConnector accountId = registered :=
    Option.some.inj (hregistered.symm.trans hsome)
  -- what is done with the listing, once it is there
  have hpublish : ∀ {listing : MarketplaceListing} {D₅ : Db}, listing.draftId = current.id →
      D₅.inventoryItems.get current.inventoryItemId = some item →
      D₅.marketplaceListings.get listing.id = some listing →
      (publishListing (connector.toConnector accountId) event current listing).runs D₅
        (.ok (u, D')) →
      Failed connector current item D' ∧
        (∀ l ∈ D'.marketplaceListings, l ∈ D₅.marketplaceListings ∨ l.publicationStatus = .failed) ∧
        ∀ i, i ∉ [TableName.marketplaceListings, .auditEvents] → D'.table i = D₅.table i := by
    intro listing D₅ hdraft hitem hcur hrun
    obtain ⟨input, D₆, hinput, h₆⟩ := Prog.runs_bind_ok.mp hrun
    have hread := (hmade.input_runs hitem).mp hinput
    simp only [Except.ok.injEq, Prod.mk.injEq] at hread
    obtain ⟨rfl, rfl⟩ := hread
    have hrefused : ((connector.toConnector accountId).validateListing
        (.of current item [])).valid = false := hmade.refused hconnector
    dsimp only at h₆
    rw [hrefused, if_neg Bool.false_ne_true] at h₆
    obtain ⟨row, hrow, hfailed, herror, hmem⟩ := validationFailed_runs hcur h₆
    refine ⟨⟨row, (hmem row).mpr (Or.inl rfl), hrow.trans hdraft, hfailed, herror⟩,
      fun l hl => ?_, Prog.sameOff_of_runs validationFailed_confined h₆⟩
    rcases (hmem l).mp hl with rfl | ⟨hl, -⟩
    · exact Or.inr hfailed
    · exact Or.inl hl
  -- the rest of the database is as it was, so the draft awaits its publication still
  have hdone : Failed connector current item D' →
      (∀ l ∈ D'.marketplaceListings, l ∈ D.marketplaceListings ∨ l.publicationStatus ≠ .published) →
      (∀ i, i ∉ [TableName.marketplaceListings, .auditEvents] → D'.table i = D.table i) →
      AwaitsPublication service connector current item D' ∧ Failed connector current item D' ∧
        D'.domainEvents = D.domainEvents ∧ D'.workflowRuns = D.workflowRuns := by
    intro hfailed hlistings hsame
    have hdrafts : D'.listingDrafts = D.listingDrafts := hsame .listingDrafts (by decide)
    have hitems : D'.inventoryItems = D.inventoryItems := hsame .inventoryItems (by decide)
    refine ⟨⟨?_, ?_, hawaits.registered, fun l hl hid => ?_⟩, hfailed,
      hsame .domainEvents (by decide), hsame .workflowRuns (by decide)⟩
    · rw [hdrafts]
      exact hawaits.stored
    · rw [hitems]
      exact hawaits.stocked
    · rcases hlistings l hl with hbefore | hnot
      · exact hawaits.unpublished l hbefore hid
      · exact hnot
  obtain ⟨existing, D₅, hselect', h₅⟩ := Prog.runs_bind_ok.mp h₄
  obtain ⟨hexisting, rfl⟩ := Tx.runs_select.mp hselect'
  cases existing with
  | some listing =>
    have hmem : listing ∈ D.marketplaceListings := List.mem_of_find?_eq_some hexisting.symm
    have hdraft : listing.draftId = current.id := by simpa using List.find?_some hexisting.symm
    dsimp only at h₅
    rw [if_neg (hawaits.unpublished listing hmem hdraft)] at h₅
    obtain ⟨hfailed, hlistings, hsame⟩ :=
      hpublish hdraft hawaits.stocked (Table.get_of_mem hmem) h₅
    refine hdone hfailed (fun l hl => (hlistings l hl).imp_right fun hl' => ?_) hsame
    rw [hl']
    decide
  | none =>
    obtain ⟨id, D₆, ⟨env, hid⟩, h₆⟩ := Prog.runs_bind_ok.mp h₅
    cases hid
    obtain ⟨listing, D₇, hadd, h₇⟩ := Prog.runs_bind_ok.mp h₆
    obtain ⟨hlisting, hconf, rfl⟩ := Prog.runs_insert.mp hadd
    rw [← hlisting] at hconf
    have hdraft : MarketplaceListing.draftId listing = current.id := by rw [hlisting]
    have hpending : MarketplaceListing.publicationStatus listing = .pending := by rw [hlisting]
    rw [← hlisting] at h₇
    have htable : Db.marketplaceListings
        (Database.apply ⟨.marketplaceListings, .insert listing⟩ D) =
          D.marketplaceListings.insert listing := Database.apply_table_self ..
    have hcur :
      (Db.marketplaceListings (Database.apply ⟨.marketplaceListings, .insert listing⟩ D)).get
        (MarketplaceListing.id listing) = some listing := by
      rw [htable]
      exact (Table.get_insert hconf _).trans (if_pos rfl)
    have hstocked :
      (Db.inventoryItems (Database.apply ⟨.marketplaceListings, .insert listing⟩ D)).get
        current.inventoryItemId = some item := hawaits.stocked
    obtain ⟨hfailed, hlistings, hsame⟩ := hpublish hdraft hstocked hcur h₇
    refine hdone hfailed (fun l hl => ?_) fun i hi => (hsame i hi).trans ?_
    · rcases hlistings l hl with hl | hl
      · rw [htable] at hl
        rcases (Table.mem_insert hconf).mp hl with hl | rfl
        · exact Or.inl hl
        · refine Or.inr ?_
          rw [hpending]
          decide
      · refine Or.inr ?_
        rw [hl]
        decide
    · refine Database.apply_table_of_ne _ D ?_
      rintro rfl
      exact hi List.mem_cons_self

/-- Deliveries of the event that the draft was approved, one after the other. -/
abbrev ApprovalDeliveries (service : MarketplacePublicationService) (draft : ListingDraft)
    (D₀ : Db) :
    List (EventEnvelope × Unit) → Db → Prop :=
  Serial (fun event u D D' => (∃ approvalId, event.data = .listingApproved draft.id approvalId) ∧
    (service.handleListingApproved event).runs D (.ok (u, D'))) D₀

/-- **An approved draft of the agent is never published**, however often its event is delivered:
    from the first delivery on its listing stands as failed, no event tells of a publication, and
    its workflow is left where the approval left it. -/
theorem approved_draft_fails {item : InventoryItem} {deliveries : List (EventEnvelope × Unit)}
    (hconnector : connector ∈ marketplaceConnectors)
    (hmade : draft.MadeFrom adapter.toAdapter generated)
    (hawaits : AwaitsPublication service connector draft item D₀)
    (h : ApprovalDeliveries service draft D₀ deliveries D) :
    AwaitsPublication service connector draft item D ∧
      (deliveries ≠ [] → Failed connector draft item D) ∧
      D.domainEvents = D₀.domainEvents ∧ D.workflowRuns = D₀.workflowRuns := by
  induction h with
  | nil => exact ⟨hawaits, fun hne => absurd rfl hne, rfl, rfl⟩
  | snoc _ hc ih =>
    obtain ⟨hawaits₁, -, hevents₁, hruns₁⟩ := ih
    obtain ⟨⟨approvalId, hevent⟩, hrun⟩ := hc
    obtain ⟨hawaits₂, hfailed, hevents₂, hruns₂⟩ :=
      handleListingApproved_fails hconnector hmade hawaits₁ hevent hrun
    exact ⟨hawaits₂, fun _ => hfailed, hevents₂.trans hevents₁, hruns₂.trans hruns₁⟩

end Approved

/-- Requirements of a marketplace, with one image. -/
def sampleRequirements : ConfiguredMarketplaceListingAdapter :=
  ⟨{ marketplace := "ebay", titleMaxLength := 120, bulletMinCount := 1, bulletMaxCount := 5
     bulletMaxLength := 200, descriptionMaxLength := 2000, keywordMaxCount := 10
     keywordMaxLength := 100, requiredAttributes := ["material"], minimumRequiredImages := 1
     minimumPrice := ⟨false, 1, 0⟩ }⟩

/-- A listing that meets the limits of the adapters. -/
def sampleListing : GeneratedListing where
  title := "Insulated bottle"
  bulletPoints := ["Keeps drinks cold"]
  description := "A steel bottle"
  searchTerms := ["bottle"]
  categorySuggestion := "123"
  productAttributes := .object [("material", .text "steel")]
  sku := "BOTTLE-1"
  proposedPrice := 15
  imageRequirements := [⟨"main", "The bottle on white", true⟩]

/-- An item of the listing, with stock. -/
def sampleBottle : InventoryItem where
  id := Uuid.ofNat 1
  version := 1
  productId := Uuid.ofNat 2
  sku := "BOTTLE-1"
  storageLocation := "warehouse"
  quantityOnHand := 10
  reservedQuantity := 2
  costBasis := 5
  currency := "GBP"
  lowStockThreshold := 2

/-- The approved draft of the listing. -/
def sampleDraft : ListingDraft where
  id := Uuid.ofNat 3
  version := 3
  inventoryItemId := Uuid.ofNat 1
  workflowRunId := none
  agentRunId := none
  approvalId := none
  marketplace := "ebay"
  listingVersion := 1
  title := sampleListing.title
  bulletPoints := sampleListing.bulletPoints
  description := sampleListing.description
  category := some sampleListing.categorySuggestion
  attributes := sampleListing.productAttributes
  searchKeywords := sampleListing.searchTerms
  sku := sampleListing.sku
  proposedPrice := money sampleListing.proposedPrice
  currency := "GBP"
  imageRequirements := .array (sampleListing.imageRequirements.map ImageRequirement.dump)
  marketplacePayload := ConfiguredMarketplaceListingAdapter.buildPayload sampleListing
  valid := true
  issues := .array []
  approvalStatus := .approved
  promptVersion := some "v1"
  aiProvider := none
  aiModel := none

/-- A database with the item that is listed. -/
def bottleDb : Db where
  table
    | .inventoryItems => .singleton sampleBottle
    | _ => ∅

/-- The item of that database is on record. -/
theorem bottleDb_get :
    bottleDb.inventoryItems.get sampleDraft.inventoryItemId = some sampleBottle := by
  decide

/-- The draft has the content of the listing. -/
theorem sampleDraft_madeFrom : sampleDraft.MadeFrom sampleRequirements.toAdapter sampleListing :=
  ⟨rfl, rfl, rfl, rfl, rfl, rfl⟩

/-- None of the connectors publishes it. -/
theorem never_publishable_sample :
    ¬Publishable facebookMarketplaceConnector sampleDraft bottleDb :=
  (never_publishable (by simp [marketplaceConnectors]) sampleDraft_madeFrom bottleDb_get).1

/-- **A draft without issues is rejected when it is published.** -/
theorem accepted_draft_rejected :
    sampleRequirements.validate sampleListing "BOTTLE-1" = [] ∧
      1 ≤ sampleRequirements.requirements.minimumRequiredImages ∧
        0 < sampleBottle.availableQuantity ∧
          sampleDraft.MadeFrom sampleRequirements.toAdapter sampleListing ∧
            ¬Publishable ebayMarketplaceConnector sampleDraft bottleDb := by
  refine ⟨by decide +kernel, by decide, by decide, sampleDraft_madeFrom, ?_⟩
  rintro ⟨input, D', hrun, hvalid⟩
  have hinput := (sampleDraft_madeFrom.input_runs bottleDb_get).mp hrun
  simp only [Except.ok.injEq, Prod.mk.injEq] at hinput
  obtain ⟨rfl, -⟩ := hinput
  exact absurd hvalid (by decide +kernel)

end CommerceOperations
