/-
  Redelivery: when a second delivery of an order, or of an approved product, carries the same
  business data as the first.

  The services compare digests of canonical texts.  `Same` compares the data itself, amounts as
  numbers, timestamps as points in time and JSON up to the order of keys; `Alike` says that what is
  the same was written the same way, amounts with one scale and timestamps with one offset.  The
  text is that of the data as it was written, so the digests agree exactly on data that is the
  same and written alike.

  The file goes up the layers.

  1. The canonical text of each model is injective, up to `Same` and `Alike` (`dump_inj`, one for
     each model, then `dumps_inj` for the two requests).
  2. What an ingestion leaves on record (`Added`, `Ingested`), and that nothing that runs later
     takes it away, so that a delivery at any later time finds it.
  3. The law of redelivery, which is about such a later time: it holds there exactly if sameness
     shows in the text.
-/
import CommerceOperations.Application.OrderRecords
import CommerceOperations.Integrations.Identities

namespace CommerceOperations

open Relational Prog

/-! ## Canonical forms of objects with the same keys -/

namespace Json

/-- Fields with the same keys in the same order are equal when they are a permutation. -/
theorem eq_of_perm_of_keys_eq {l l' : List (String × Json)} (hperm : l.Perm l')
    (hkeys : l.map (·.1) = l'.map (·.1)) (hnodup : (l.map (·.1)).Nodup) : l = l' := by
  induction l generalizing l' with
  | nil => exact (List.nil_perm.mp hperm).symm
  | cons f l ih =>
    cases l' with
    | nil => exact absurd hperm.symm (by simp)
    | cons f' l' =>
      obtain ⟨hkey, hrest⟩ := List.cons.inj hkeys
      have hfresh := (List.nodup_cons.mp hnodup).1
      have hhead : f = f' := by
        rcases List.mem_cons.mp (hperm.subset List.mem_cons_self) with heq | hmem
        · exact heq
        · refine absurd ?_ hfresh
          show f.1 ∈ l.map (·.1)
          rw [hrest]
          exact List.mem_map_of_mem hmem
      subst hhead
      rw [ih ((List.perm_cons f).mp hperm) hrest (List.nodup_cons.mp hnodup).2]

/-- **Objects with the same keys** have one canonical form exactly when their fields do, one by
    one. -/
theorem canonical_object_inj {l l' : List (String × Json)} (hkeys : l.map (·.1) = l'.map (·.1))
    (hnodup : (l.map (·.1)).Nodup) :
    (object l).canonical = (object l').canonical ↔ canonicalFields l = canonicalFields l' := by
  have hmap : ∀ l : List (String × Json), (canonicalFields l).map (·.1) = l.map (·.1) := by
    intro l
    rw [canonicalFields_eq, List.map_map]
    rfl
  rw [canonical, canonical]
  constructor
  · intro h
    have hsorted := object.inj h
    refine eq_of_perm_of_keys_eq ?_ ?_ ?_
    · exact (List.perm_insertionSort _ _).symm.trans
        ((List.Perm.of_eq hsorted).trans (List.perm_insertionSort _ _))
    · rw [hmap, hmap, hkeys]
    · rw [hmap]
      exact hnodup
  · intro h
    rw [h]

/-- Two arrays of dumps have one canonical form exactly when their items do, one by one. -/
theorem canonical_array_map_inj {α : Type} {dump : α → Json} {l l' : List α} :
    (array (l.map dump)).canonical = (array (l'.map dump)).canonical ↔
      List.Forall₂ (fun a b => (dump a).canonical = (dump b).canonical) l l' := by
  rw [canonical, canonical, canonicalItems_eq, canonicalItems_eq, List.map_map, List.map_map]
  constructor
  · intro h
    have hmap := array.inj h
    clear h
    induction l generalizing l' with
    | nil =>
      cases l' with
      | nil => exact List.Forall₂.nil
      | cons b l' => cases hmap
    | cons a l ih =>
      cases l' with
      | nil => cases hmap
      | cons b l' =>
        obtain ⟨hhead, hrest⟩ := List.cons.inj hmap
        exact List.Forall₂.cons hhead (ih hrest)
  · intro h
    congr 1
    induction h with
    | nil => rfl
    | cons hhead _ ih => exact congrArg₂ List.cons hhead ih

/-- A text that may be absent can be read off its canonical form. -/
theorem ofText_inj {s t : Option String} : (ofText s).canonical = (ofText t).canonical ↔ s = t := by
  cases s <;> cases t <;> simp [ofText, canonical]

end Json

/-! ## Sameness and how it is written -/

/-- The number is written with the same scale, and zero with the same sign. -/
def Decimal.Alike (d e : Decimal) : Prop := d.exponent = e.exponent ∧ d.negative = e.negative

/-- **The text of a decimal** is that of its value with its scale and sign, and nothing else. -/
theorem Decimal.str_inj {d e : Decimal} : d.str = e.str ↔ d.value = e.value ∧ d.Alike e := by
  constructor
  · intro h
    rw [Decimal.str_injective h]
    exact ⟨rfl, rfl, rfl⟩
  · rintro ⟨hvalue, hexponent, hnegative⟩
    rw [Decimal.eq_of_value_eq hvalue hexponent hnegative]

/-- The text of a timestamp is that of its point in time, in its offset. -/
theorem DateTime.text_inj {a b : DateTime} :
    a.text = b.text ↔ a.instant = b.instant ∧ a.offset = b.offset := by
  constructor
  · intro h
    rw [DateTime.text_injective h]
    exact ⟨rfl, rfl⟩
  · rintro ⟨hinstant, hoffset⟩
    rw [DateTime.eq_of_instant_eq hinstant hoffset]

/-! ### Orders -/

namespace NormalizedOrderItem

/-- Two lines with the same business data, whatever the scales of their amounts. -/
structure Same (a b : NormalizedOrderItem) : Prop where
  externalLineId : a.externalLineId = b.externalLineId
  sku : a.sku = b.sku
  quantity : a.quantity = b.quantity
  unitPrice : a.unitPrice.value = b.unitPrice.value
  taxAmount : a.taxAmount.value = b.taxAmount.value
  discountAmount : a.discountAmount.value = b.discountAmount.value

/-- The amounts of the two lines are written alike, digit for digit. -/
structure Alike (a b : NormalizedOrderItem) : Prop where
  unitPrice : a.unitPrice.Alike b.unitPrice
  taxAmount : a.taxAmount.Alike b.taxAmount
  discountAmount : a.discountAmount.Alike b.discountAmount

/-- Two lines have one text exactly if they are the same line, with their amounts written alike. -/
theorem dump_inj {a b : NormalizedOrderItem} :
    a.dump.canonical = b.dump.canonical ↔ a.Same b ∧ a.Alike b := by
  unfold dump
  rw [Json.canonical_object_inj (by simp only [List.map_cons, List.map_nil]) (by simp)]
  simp only [Json.canonicalFields, Json.canonical, List.cons.injEq, Prod.mk.injEq, true_and,
    and_true, Json.text.injEq, Json.int.injEq, Decimal.str_inj]
  constructor
  · rintro ⟨h₁, h₂, h₃, ⟨h₄, h₄'⟩, ⟨h₅, h₅'⟩, h₆, h₆'⟩
    exact ⟨⟨h₁, h₂, h₃, h₄, h₅, h₆⟩, ⟨h₄', h₅', h₆'⟩⟩
  · rintro ⟨⟨h₁, h₂, h₃, h₄, h₅, h₆⟩, ⟨h₄', h₅', h₆'⟩⟩
    exact ⟨h₁, h₂, h₃, ⟨h₄, h₄'⟩, ⟨h₅, h₅'⟩, h₆, h₆'⟩

end NormalizedOrderItem

namespace NormalizedMarketplaceOrder

/-- Two orders with the same business data: every field but the source event id, which a redelivery
    may change. -/
structure Same (a b : NormalizedMarketplaceOrder) : Prop where
  contractVersion : a.contractVersion = b.contractVersion
  marketplace : a.marketplace = b.marketplace
  marketplaceAccountId : a.marketplaceAccountId = b.marketplaceAccountId
  externalOrderId : a.externalOrderId = b.externalOrderId
  status : a.status = b.status
  currency : a.currency = b.currency
  totalAmount : a.totalAmount.value = b.totalAmount.value
  customerReference : a.customerReference = b.customerReference
  shippingDetails : a.shippingDetails.canonical = b.shippingDetails.canonical
  orderedAt : a.orderedAt.instant = b.orderedAt.instant
  items : List.Forall₂ NormalizedOrderItem.Same a.items b.items

/-- Amounts with the same scale and the timestamp with the same offset. -/
structure Alike (a b : NormalizedMarketplaceOrder) : Prop where
  totalAmount : a.totalAmount.Alike b.totalAmount
  orderedAt : a.orderedAt.offset = b.orderedAt.offset
  items : List.Forall₂ NormalizedOrderItem.Alike a.items b.items

end NormalizedMarketplaceOrder

/-- Different states have different values. -/
theorem OrderStatus.value_inj {s t : OrderStatus} : s.value = t.value ↔ s = t := by
  cases s <;> cases t <;> decide

/-- Two relations hold of two lists, item by item, if each does. -/
theorem forall₂_and {α β : Type} {R S : α → β → Prop} {l : List α} {l' : List β} :
    List.Forall₂ (fun a b => R a b ∧ S a b) l l' ↔ List.Forall₂ R l l' ∧ List.Forall₂ S l l' := by
  constructor
  · intro h
    exact ⟨h.imp fun _ _ h => h.1, h.imp fun _ _ h => h.2⟩
  · rintro ⟨h, h'⟩
    induction h with
    | nil => exact List.Forall₂.nil
    | cons hhead _ ih =>
      cases h' with
      | cons hhead' hrest' => exact List.Forall₂.cons ⟨hhead, hhead'⟩ (ih hrest')

namespace NormalizedMarketplaceOrder

/-- **Orders have one canonical text** exactly when they are the same and written alike. -/
theorem dumps_inj {a b : NormalizedMarketplaceOrder} :
    a.dump.dumps = b.dump.dumps ↔ a.Same b ∧ a.Alike b := by
  rw [Json.dumps_inj]
  unfold dump
  rw [Json.canonical_object_inj (by simp only [List.map_cons, List.map_nil]) (by simp)]
  simp only [Json.canonicalFields, List.cons.injEq, Prod.mk.injEq, true_and, and_true,
    Json.canonical_array_map_inj, NormalizedOrderItem.dump_inj, forall₂_and, Json.ofText_inj]
  simp only [Json.canonical, Json.text.injEq, Json.int.injEq, Decimal.str_inj, DateTime.text_inj,
    OrderStatus.value_inj]
  constructor
  · rintro ⟨h₁, h₂, h₃, h₄, h₅, h₆, ⟨h₇, h₇'⟩, h₈, h₉, ⟨h₁₀, h₁₀'⟩, h₁₁, h₁₁'⟩
    exact ⟨⟨h₁, h₂, h₃, h₄, h₅, h₆, h₇, h₈, h₉, h₁₀, h₁₁⟩, ⟨h₇', h₁₀', h₁₁'⟩⟩
  · rintro ⟨⟨h₁, h₂, h₃, h₄, h₅, h₆, h₇, h₈, h₉, h₁₀, h₁₁⟩, ⟨h₇', h₁₀', h₁₁'⟩⟩
    exact ⟨h₁, h₂, h₃, h₄, h₅, h₆, ⟨h₇, h₇'⟩, h₈, h₉, ⟨h₁₀, h₁₀'⟩, h₁₁, h₁₁'⟩

end NormalizedMarketplaceOrder

/-! ### Approved products -/

/-- Two descriptions of the same product, field by field. -/
structure ProductInformationV1.Same (a b : ProductInformationV1) : Prop where
  name : a.name = b.name
  brand : a.brand = b.brand
  identifiers : a.identifiers.canonical = b.identifiers.canonical
  attributes : a.attributes.canonical = b.attributes.canonical

/-- The text of a product: nothing in it can be written in two ways but the order of keys. -/
theorem ProductInformationV1.dump_inj {a b : ProductInformationV1} :
    a.dump.canonical = b.dump.canonical ↔ a.Same b := by
  unfold dump
  rw [Json.canonical_object_inj (by simp only [List.map_cons, List.map_nil]) (by simp)]
  simp only [Json.canonicalFields, List.cons.injEq, Prod.mk.injEq, true_and, and_true,
    Json.ofText_inj]
  simp only [Json.canonical, Json.text.injEq]
  constructor
  · rintro ⟨h₁, h₂, h₃, h₄⟩
    exact ⟨h₁, h₂, h₃, h₄⟩
  · rintro ⟨h₁, h₂, h₃, h₄⟩
    exact ⟨h₁, h₂, h₃, h₄⟩

/-- Two descriptions of the same supplier, field by field. -/
structure SelectedSupplierV1.Same (a b : SelectedSupplierV1) : Prop where
  sourceSupplierId : a.sourceSupplierId = b.sourceSupplierId
  name : a.name = b.name
  contactDetails : a.contactDetails.canonical = b.contactDetails.canonical
  terms : a.terms.canonical = b.terms.canonical

/-- Two suppliers have one text exactly if they are the same supplier. -/
theorem SelectedSupplierV1.dump_inj {a b : SelectedSupplierV1} :
    a.dump.canonical = b.dump.canonical ↔ a.Same b := by
  unfold dump
  rw [Json.canonical_object_inj (by simp only [List.map_cons, List.map_nil]) (by simp)]
  simp only [Json.canonicalFields, List.cons.injEq, Prod.mk.injEq, true_and, and_true]
  simp only [Json.canonical, Json.text.injEq]
  constructor
  · rintro ⟨h₁, h₂, h₃, h₄⟩
    exact ⟨h₁, h₂, h₃, h₄⟩
  · rintro ⟨h₁, h₂, h₃, h₄⟩
    exact ⟨h₁, h₂, h₃, h₄⟩

namespace SupplierQuoteV1

/-- Two quotes with the same business data, whatever the scales of their amounts. -/
structure Same (a b : SupplierQuoteV1) : Prop where
  sourceQuoteId : a.sourceQuoteId = b.sourceQuoteId
  currency : a.currency = b.currency
  moq : a.moq = b.moq
  quantity : a.quantity = b.quantity
  unitCost : a.unitCost.value = b.unitCost.value
  shippingCost : a.shippingCost.value = b.shippingCost.value
  leadTimeDays : a.leadTimeDays = b.leadTimeDays
  validUntil : a.validUntil = b.validUntil
  sourceReference : a.sourceReference = b.sourceReference

/-- The amounts of the two quotes are written alike, digit for digit. -/
structure Alike (a b : SupplierQuoteV1) : Prop where
  unitCost : a.unitCost.Alike b.unitCost
  shippingCost : a.shippingCost.Alike b.shippingCost

/-- Two quotes have one text exactly if they are the same quote, with their amounts written alike.
    -/
theorem dump_inj {a b : SupplierQuoteV1} :
    a.dump.canonical = b.dump.canonical ↔ a.Same b ∧ a.Alike b := by
  have hdates : a.validUntil.map Date.text = b.validUntil.map Date.text ↔
      a.validUntil = b.validUntil :=
    (Option.map_injective fun _ _ h => Date.text_injective h).eq_iff
  unfold dump
  rw [Json.canonical_object_inj (by simp only [List.map_cons, List.map_nil]) (by simp)]
  simp only [Json.canonicalFields, List.cons.injEq, Prod.mk.injEq, true_and, and_true,
    Json.ofText_inj, hdates]
  simp only [Json.canonical, Json.text.injEq, Json.int.injEq, Decimal.str_inj]
  constructor
  · rintro ⟨h₁, h₂, h₃, h₄, ⟨h₅, h₅'⟩, ⟨h₆, h₆'⟩, h₇, h₈, h₉⟩
    exact ⟨⟨h₁, h₂, h₃, h₄, h₅, h₆, h₇, h₈, h₉⟩, ⟨h₅', h₆'⟩⟩
  · rintro ⟨⟨h₁, h₂, h₃, h₄, h₅, h₆, h₇, h₈, h₉⟩, ⟨h₅', h₆'⟩⟩
    exact ⟨h₁, h₂, h₃, h₄, ⟨h₅, h₅'⟩, ⟨h₆, h₆'⟩, h₇, h₈, h₉⟩

end SupplierQuoteV1

namespace EconomicsV1

/-- The amounts of the economics. -/
def amounts (e : EconomicsV1) : List Decimal :=
  [e.estimatedLandedCostPerUnit, e.recommendedSellingPrice, e.expectedProfitPerUnit,
    e.marginPercent, e.roiPercent]

/-- Two accounts of the same economics: each of the amounts has the same value. -/
def Same (a b : EconomicsV1) : Prop :=
  List.Forall₂ (fun d e => d.value = e.value) a.amounts b.amounts

/-- Each of the amounts is written alike. -/
def Alike (a b : EconomicsV1) : Prop := List.Forall₂ Decimal.Alike a.amounts b.amounts

/-- Two accounts of the economics have one text exactly if they are the same, with their amounts
    written alike. -/
theorem dump_inj {a b : EconomicsV1} :
    a.dump.canonical = b.dump.canonical ↔ a.Same b ∧ a.Alike b := by
  unfold dump Same Alike
  rw [Json.canonical_object_inj (by simp only [List.map_cons, List.map_nil]) (by simp),
    ← forall₂_and]
  simp only [Json.canonicalFields, List.cons.injEq, Prod.mk.injEq, true_and, and_true,
    Json.canonical, Json.text.injEq, Decimal.str_inj, amounts, List.forall₂_cons,
    List.forall₂_nil_left_iff]

end EconomicsV1

/-- The same evidence, field by field. -/
structure RecommendationEvidenceV1.Same (a b : RecommendationEvidenceV1) : Prop where
  type : a.type = b.type
  reference : a.reference = b.reference
  summary : a.summary = b.summary
  data : a.data.canonical = b.data.canonical

/-- The text of a piece of evidence. -/
theorem RecommendationEvidenceV1.dump_inj {a b : RecommendationEvidenceV1} :
    a.dump.canonical = b.dump.canonical ↔ a.Same b := by
  unfold dump
  rw [Json.canonical_object_inj (by simp only [List.map_cons, List.map_nil]) (by simp)]
  simp only [Json.canonicalFields, List.cons.injEq, Prod.mk.injEq, true_and, and_true,
    Json.ofText_inj]
  simp only [Json.canonical, Json.text.injEq]
  constructor
  · rintro ⟨h₁, h₂, h₃, h₄⟩
    exact ⟨h₁, h₂, h₃, h₄⟩
  · rintro ⟨h₁, h₂, h₃, h₄⟩
    exact ⟨h₁, h₂, h₃, h₄⟩

/-- The same recommendation: the same evidence in the same order, at the same point in time. -/
structure RecommendationV1.Same (a b : RecommendationV1) : Prop where
  evidence : List.Forall₂ RecommendationEvidenceV1.Same a.evidence b.evidence
  decidedAt : a.decidedAt.instant = b.decidedAt.instant

/-- The timestamp has the same offset. -/
def RecommendationV1.Alike (a b : RecommendationV1) : Prop :=
  a.decidedAt.offset = b.decidedAt.offset

/-- The text of a recommendation. -/
theorem RecommendationV1.dump_inj {a b : RecommendationV1} :
    a.dump.canonical = b.dump.canonical ↔ a.Same b ∧ a.Alike b := by
  unfold dump Alike
  rw [Json.canonical_object_inj (by simp only [List.map_cons, List.map_nil]) (by simp)]
  simp only [Json.canonicalFields, List.cons.injEq, Prod.mk.injEq, true_and, and_true,
    Json.canonical_array_map_inj, RecommendationEvidenceV1.dump_inj]
  simp only [Json.canonical, Json.text.injEq, DateTime.text_inj]
  constructor
  · rintro ⟨h₁, h₂, h₂'⟩
    exact ⟨⟨h₁, h₂⟩, h₂'⟩
  · rintro ⟨⟨h₁, h₂⟩, h₂'⟩
    exact ⟨h₁, h₂, h₂'⟩

namespace ApprovedProductRequestV1

/-- Two products with the same data in every field. -/
structure Same (a b : ApprovedProductRequestV1) : Prop where
  sourceProductId : a.sourceProductId = b.sourceProductId
  sourceWorkflowRunId : a.sourceWorkflowRunId = b.sourceWorkflowRunId
  sourceRecommendationId : a.sourceRecommendationId = b.sourceRecommendationId
  product : a.product.Same b.product
  selectedSupplier : a.selectedSupplier.Same b.selectedSupplier
  supplierQuote : a.supplierQuote.Same b.supplierQuote
  economics : a.economics.Same b.economics
  recommendation : a.recommendation.Same b.recommendation

/-- Amounts with the same scale and the timestamp with the same offset. -/
structure Alike (a b : ApprovedProductRequestV1) : Prop where
  supplierQuote : a.supplierQuote.Alike b.supplierQuote
  economics : a.economics.Alike b.economics
  recommendation : a.recommendation.Alike b.recommendation

/-- **Approved products have one canonical text** exactly when they are the same and written
    alike. -/
theorem dumps_inj {a b : ApprovedProductRequestV1} :
    a.dump.dumps = b.dump.dumps ↔ a.Same b ∧ a.Alike b := by
  rw [Json.dumps_inj]
  unfold dump
  rw [Json.canonical_object_inj (by simp only [List.map_cons, List.map_nil]) (by simp)]
  simp only [Json.canonicalFields, List.cons.injEq, Prod.mk.injEq, true_and, and_true,
    ProductInformationV1.dump_inj, SelectedSupplierV1.dump_inj, SupplierQuoteV1.dump_inj,
    EconomicsV1.dump_inj, RecommendationV1.dump_inj]
  simp only [Json.canonical, Json.text.injEq]
  constructor
  · rintro ⟨h₁, h₂, h₃, h₄, h₅, ⟨h₆, h₆'⟩, ⟨h₇, h₇'⟩, h₈, h₈'⟩
    exact ⟨⟨h₁, h₂, h₃, h₄, h₅, h₆, h₇, h₈⟩, ⟨h₆', h₇', h₈'⟩⟩
  · rintro ⟨⟨h₁, h₂, h₃, h₄, h₅, h₆, h₇, h₈⟩, ⟨h₆', h₇', h₈'⟩⟩
    exact ⟨h₁, h₂, h₃, h₄, h₅, ⟨h₆, h₆'⟩, ⟨h₇, h₇'⟩, h₈, h₈'⟩

end ApprovedProductRequestV1

/-! ## A second delivery of an order -/

section Orders

variable [Digests]

/-- The two commands are about one marketplace order. -/
def NormalizedMarketplaceOrder.SameOrder (a b : NormalizedMarketplaceOrder) : Prop :=
  a.marketplace = b.marketplace ∧ a.marketplaceAccountId = b.marketplaceAccountId ∧
    a.externalOrderId = b.externalOrderId

/-- Redelivery means equal data: where the order of `a` has been ingested with the result `r`, a
    delivery of `b` returns that order as a duplicate when the two are the same, raises a conflict
    when they are not, and changes nothing. -/
structure OrderService.RedeliveryLaw (a b : NormalizedMarketplaceOrder) (r : OrderIngestionResult)
    (D : Db) : Prop where
  duplicate : a.Same b → ∀ res, (OrderService.ingest b).runs D res →
    ∃ order : Order, order.id = r.order.id ∧ res = .ok (⟨order, true⟩, D)
  conflict : ¬a.Same b → ∀ res, (OrderService.ingest b).runs D res →
    res = .error (.raised .orderIdempotencyConflict
      "Marketplace order was redelivered with different business data")

/-- An order that is stored answers every further delivery: the digests are compared. -/
theorem OrderService.ingest_stored {command : NormalizedMarketplaceOrder} {order : Order} {D : Db}
    (hmem : order ∈ D.orders) (hmarketplace : order.marketplace = command.marketplace)
    (haccount : order.marketplaceAccountId = command.marketplaceAccountId)
    (hexternal : order.externalOrderId = command.externalOrderId)
    {res : Except Error (OrderIngestionResult × Db)} :
    (ingest command).runs D res ↔
      res = if order.sourcePayloadHash = payloadHash command then .ok (⟨order, true⟩, D)
        else .error (.raised .orderIdempotencyConflict
          "Marketplace order was redelivered with different business data") := by
  have hfind : (D.orders.rows.find? fun o => o.marketplace = command.marketplace ∧
      o.marketplaceAccountId = command.marketplaceAccountId ∧
      o.externalOrderId = command.externalOrderId) = some order := by
    cases hcase : D.orders.rows.find? fun o => o.marketplace = command.marketplace ∧
        o.marketplaceAccountId = command.marketplaceAccountId ∧
        o.externalOrderId = command.externalOrderId with
    | none =>
      have hnone := List.find?_eq_none.mp hcase order hmem
      simp only [hmarketplace, haccount, hexternal, and_self, decide_true, not_true] at hnone
    | some o =>
      -- the identity is unique
      have hsame := List.find?_some hcase
      simp only [decide_eq_true_eq] at hsame
      obtain ⟨h₁, h₂, h₃⟩ := hsame
      refine congrArg some (D.orders.eq_of_unique_mem (List.mem_of_find?_eq_some hcase) hmem
        List.mem_cons_self ?_)
      show _ ∈ Row.uniques order
      rw [h₁, h₂, h₃, ← hmarketplace, ← haccount, ← hexternal]
      exact List.mem_cons_self
  refine Prog.runs_query_bind.trans ?_
  rw [hfind]
  dsimp only
  split
  · rename_i hhash
    simp [Tx.require, hhash, Prog.runs]
  · rename_i hhash
    simp [Tx.require, hhash, Prog.runs, Tx.throw]

/-- Digests agree exactly on orders that are the same and written alike. -/
theorem OrderService.payloadHash_inj (hsha : Function.Injective Digests.sha256)
    {a b : NormalizedMarketplaceOrder} :
    payloadHash a = payloadHash b ↔ a.Same b ∧ a.Alike b := by
  rw [← NormalizedMarketplaceOrder.dumps_inj]
  exact hsha.eq_iff

/-- The order of `a` is on record, and the law holds there exactly when sameness shows in the
    text. -/
theorem OrderService.redeliveryLaw_iff (hsha : Function.Injective Digests.sha256)
    {policy : WorkflowExecutionPolicy} {a b : NormalizedMarketplaceOrder} (hsame : a.SameOrder b)
    {r : OrderIngestionResult} {D D' D₁ : Db} (hrun : (ingest a).runs D (.ok (r, D')))
    (h : History (StockCall.run policy) (fun _ _ => True) D' D₁) :
    RedeliveryLaw a b r D₁ ↔ (a.Same b → a.Alike b) := by
  obtain ⟨-, hmem, hrecord⟩ := ingest_ordersKept (f := Order.record) hrun
  obtain ⟨order, horder, hkept⟩ := ordersKept_of_history h r.order hmem
  rw [hrecord] at hkept
  simp only [Order.record, OrderRecord.mk.injEq] at hkept
  obtain ⟨hid, hmarketplace, haccount, hexternal, hhash⟩ := hkept
  have hdigest : payloadHash a = payloadHash b ↔ a.Same b ∧ a.Alike b := payloadHash_inj hsha
  have hb : ∀ res, (ingest b).runs D₁ res ↔ _ := fun res =>
    ingest_stored horder (hmarketplace.trans hsame.1) (haccount.trans hsame.2.1)
      (hexternal.trans hsame.2.2)
  rw [hhash] at hb
  constructor
  · intro hlaw heq
    by_contra hdiffer
    -- the texts differ, so the one run there is raises
    obtain ⟨order', -, hok⟩ := hlaw.duplicate heq _ ((hb _).mpr rfl)
    rw [if_neg fun h => hdiffer (hdigest.mp h).2] at hok
    cases hok
  · intro halike
    refine ⟨fun heq res hres => ⟨order, hid, ?_⟩, fun hdiffer res hres => ?_⟩
    · rw [(hb res).mp hres, if_pos (hdigest.mpr ⟨heq, halike heq⟩)]
    · rw [(hb res).mp hres, if_neg fun h => hdiffer (hdigest.mp h).1]

end Orders

/-! ## A second delivery of an approved product -/

/-- Nothing that was stored is lost or changed. -/
def Db.Extends (D D' : Db) : Prop := ∀ i, ∀ r ∈ D.table i, r ∈ D'.table i

namespace Db.Extends

instance : Std.Refl Db.Extends := ⟨fun _ _ _ h => h⟩

instance : IsTrans Db Db.Extends := ⟨fun _ _ _ h h' i r hr => h' i r (h i r hr)⟩

/-- A row that is added leaves those that were there. -/
theorem insert {i : TableName} {row : i.Entity} {D : Db} (h : (D.table i).conflicts row = false) :
    D.Extends (Database.apply ⟨i, .insert row⟩ D) := by
  intro j r hr
  by_cases hj : j = i
  · subst hj
    rw [Database.apply_table_self]
    exact (Table.mem_insert h).mpr (Or.inl hr)
  · rw [Database.apply_table_of_ne _ D hj]
    exact hr

/-- An insert loses no row and changes none. -/
theorem keeps_add (i : TableName) (row : i.Entity) : (add i row).keeps Db.Extends := by
  intro D r D' h
  obtain ⟨-, hconflicts, rfl⟩ := runs_insert.mp h
  exact insert hconflicts

/-- A publication loses no row and changes none. -/
theorem keeps_emit (payload : EventPayload) (context : EventContext) (key : String) :
    (DatabaseEventStore.emit payload context key).keeps Db.Extends := by
  intro D e D' h
  obtain ⟨-, -, -, ⟨-, rfl⟩ | ⟨-, -, hconflicts, rfl⟩⟩ := DatabaseEventStore.emit_runs h
  · exact Std.Refl.refl _
  · exact insert hconflicts

/-- What is in a table after a row has been added. -/
theorem mem_add {i : TableName} {row r s : i.Entity} {D D' : Db}
    (h : (add i row).runs D (.ok (r, D'))) : s ∈ D'.table i ↔ s ∈ D.table i ∨ s = r := by
  obtain ⟨rfl, hconflicts, rfl⟩ := runs_insert.mp h
  rw [Database.apply_table_self]
  exact Table.mem_insert hconflicts

end Db.Extends

namespace ApprovedProductIngestionService

section Ingest

variable [Digests] {request : ApprovedProductRequestV1} {requestKey : String}
variable {response : ApprovedProductResponseV1} {D D' : Db}

/-- The rows a first ingestion adds. -/
structure Added (request : ApprovedProductRequestV1) (product : Product)
    (procurement : ProcurementRequest) (workflow : WorkflowRun) (event : DomainEvent) (D D' : Db) :
    Prop where
  /-- the product, whose id was not in use -/
  product_mem : product ∈ D'.products
  product_fresh : ∀ p ∈ D.products, p.id ≠ product.id
  /-- it is found by its source identity -/
  sourceSystem : product.sourceSystem = CommerceOperations.sourceSystem
  externalProductId : product.externalProductId = request.sourceProductId
  /-- with the digest of this request -/
  sourcePayloadHash : product.sourcePayloadHash = payloadHash request
  /-- the procurement, of this product and in this workflow -/
  procurement_mem : procurement ∈ D'.procurementRequests
  productId : procurement.productId = product.id
  workflowRunId : procurement.workflowRunId = some workflow.id
  /-- the workflow -/
  workflow_mem : workflow ∈ D'.workflowRuns
  /-- and the event, under the key of the source product -/
  event_mem : event ∈ D'.domainEvents
  idempotencyKey : event.idempotencyKey =
    eventIdempotencyKey CommerceOperations.sourceSystem request.sourceProductId
  /-- nothing was lost -/
  extended : D.Extends D'
  /-- and no other procurement was added -/
  procurements : ∀ q ∈ D'.procurementRequests, q ∈ D.procurementRequests ∨ q = procurement

/-- A first ingestion adds its rows.  They are followed through the transaction one insert after the
    other; what each insert adds is still there at the end because the later ones lose nothing. -/
theorem ingestNew_runs (h : (ingestNew request requestKey).runs D (.ok (response, D'))) :
    ∃ product procurement workflow event,
      Added request product procurement workflow event D D' ∧
        response = ApprovedProductIngestionService.response product procurement workflow event
          false := by
  obtain ⟨product, D₁, hproduct, h₁⟩ := runs_bind_ok.mp h
  obtain ⟨productId, D₂, ⟨env, hid⟩, h₂⟩ := runs_bind_ok.mp hproduct
  cases hid
  have hproducts := fun p : Product => Db.Extends.mem_add (s := p) h₂
  have hextends₁ := Db.Extends.keeps_add _ _ _ _ _ h₂
  obtain ⟨hproductRow, hproductFresh, hD₁⟩ := runs_insert.mp h₂
  have hrequests₁ : Db.procurementRequests D₁ = D.procurementRequests := by
    rw [hD₁]
    rfl
  obtain ⟨supplier, D₃, hsupplier, h₃⟩ := runs_bind_ok.mp h₁
  obtain ⟨quote, D₄, hquote, h₄⟩ := runs_bind_ok.mp h₃
  obtain ⟨workflow, D₅, hworkflow, h₅⟩ := runs_bind_ok.mp h₄
  obtain ⟨procurement, D₆, hprocurement, h₆⟩ := runs_bind_ok.mp h₅
  obtain ⟨event, D₇, hemit, h₇⟩ := runs_bind_ok.mp h₆
  cases h₇
  -- supplier and quote: what they add is of no interest, only that they lose nothing and leave the
  -- procurements alone
  have hextendsSupplier : (findOrAddSupplier request.selectedSupplier).keeps Db.Extends := by
    refine keeps_bind (keeps_query _) fun found => ?_
    cases found with
    | some found => exact keeps_done _
    | none => exact keeps_bind (keeps_answer _) fun _ => Db.Extends.keeps_add _ _
  have hextendsQuote : (addQuote request.supplierQuote product supplier).keeps Db.Extends :=
    keeps_bind (keeps_answer _) fun _ => Db.Extends.keeps_add _ _
  have hsparesSupplier : (findOrAddSupplier request.selectedSupplier).spares
      .procurementRequests := by
    refine writes_bind (writes_query _) fun found => ?_
    cases found with
    | some found => exact trivial
    | none => exact writes_bind (writes_answer _) fun _ => Tx.spares_add _ (by decide)
  have hsparesQuote : (addQuote request.supplierQuote product supplier).spares
      .procurementRequests := writes_bind (writes_answer _) fun _ => Tx.spares_add _ (by decide)
  have hrequests₃ : Db.procurementRequests D₃ = Db.procurementRequests D₁ :=
    Tx.table_of_spares hsparesSupplier hsupplier
  have hrequests₄ : Db.procurementRequests D₄ = Db.procurementRequests D₃ :=
    Tx.table_of_spares hsparesQuote hquote
  have hextends₃ := hextendsSupplier _ _ _ hsupplier
  have hextends₄ := hextendsQuote _ _ _ hquote
  -- the workflow
  obtain ⟨workflowId, _, ⟨env', hid⟩, hworkflow⟩ := runs_bind_ok.mp hworkflow
  cases hid
  obtain ⟨createdAt, _, ⟨env'', hnow⟩, hworkflow⟩ := runs_bind_ok.mp hworkflow
  cases hnow
  have hworkflows := fun w : WorkflowRun => Db.Extends.mem_add (s := w) hworkflow
  have hextends₅ := Db.Extends.keeps_add _ _ _ _ _ hworkflow
  have hrequests₅ : Db.procurementRequests D₅ = Db.procurementRequests D₄ :=
    Tx.table_of_spares (i := .procurementRequests) (Tx.spares_add _ (by decide)) hworkflow
  -- the procurement
  obtain ⟨now, _, ⟨env₁, hnow⟩, hprocurement⟩ := runs_bind_ok.mp hprocurement
  cases hnow
  obtain ⟨procurementId, _, ⟨env₂, hid⟩, hprocurement⟩ := runs_bind_ok.mp hprocurement
  cases hid
  obtain ⟨createdAt', _, ⟨env₃, hnow⟩, hprocurement⟩ := runs_bind_ok.mp hprocurement
  cases hnow
  have hprocurements := fun q : ProcurementRequest => Db.Extends.mem_add (s := q) hprocurement
  have hextends₆ := Db.Extends.keeps_add _ _ _ _ _ hprocurement
  obtain ⟨hprocurementRow, -, -⟩ := runs_insert.mp hprocurement
  -- the event
  have hextends₇ := Db.Extends.keeps_emit _ _ _ _ _ _ hemit
  have hrequests₇ : Db.procurementRequests D' = Db.procurementRequests D₆ :=
    Tx.table_of_spares (i := .procurementRequests)
      (DatabaseEventStore.emit_spares (by decide)) hemit
  obtain ⟨-, hkey, -, hevent⟩ := DatabaseEventStore.emit_runs hemit
  -- from here on only rows are added, so each of the new rows is still there at the end
  have hafterProduct : Db.Extends D₁ D' :=
    IsTrans.trans _ _ _ hextends₃ (IsTrans.trans _ _ _ hextends₄
      (IsTrans.trans _ _ _ hextends₅ (IsTrans.trans _ _ _ hextends₆ hextends₇)))
  refine ⟨product, procurement, workflow, event, ⟨?_, ?_, ?_, ?_, ?_, ?_, ?_, ?_, ?_, ?_, hkey,
    IsTrans.trans _ _ _ hextends₁ hafterProduct, ?_⟩, rfl⟩
  · exact hafterProduct .products product ((hproducts product).mpr (Or.inr rfl))
  · intro p hp heq
    rw [hproductRow] at heq
    exact (Table.conflicts_eq_false.mp hproductFresh p hp).1 heq
  · rw [hproductRow]
  · rw [hproductRow]
  · rw [hproductRow]
  · exact hextends₇ .procurementRequests procurement ((hprocurements procurement).mpr (Or.inr rfl))
  · rw [hprocurementRow]
  · rw [hprocurementRow]
  · exact hextends₇ .workflowRuns workflow (hextends₆ .workflowRuns workflow
      ((hworkflows workflow).mpr (Or.inr rfl)))
  · rcases hevent with ⟨hmem, rfl⟩ | ⟨-, -, hconflicts, rfl⟩
    · exact hmem
    · show event ∈ (Database.apply ⟨.domainEvents, .insert event⟩ D₆).table .domainEvents
      rw [Database.apply_table_self]
      exact (Table.mem_insert hconflicts).mpr (Or.inr rfl)
  · intro q hq
    rw [hrequests₇] at hq
    rcases (hprocurements q).mp hq with hq | rfl
    · refine Or.inl ?_
      have hq : q ∈ Db.procurementRequests D₅ := hq
      rwa [hrequests₅, hrequests₄, hrequests₃, hrequests₁] at hq
    · exact Or.inr rfl

omit [Digests] in
/-- A repetition finds what the first ingestion added. -/
theorem existingResponse_runs {product : Product} {hash : String}
    (h : (existingResponse product hash).runs D (.ok (response, D'))) :
    product.sourcePayloadHash = hash ∧ D' = D ∧
      ∃ procurement ∈ D.procurementRequests, procurement.productId = product.id ∧
        ∃ event ∈ D.domainEvents, event.idempotencyKey =
          eventIdempotencyKey product.sourceSystem product.externalProductId ∧
          ∃ workflow ∈ D.workflowRuns, procurement.workflowRunId = some workflow.id ∧
            response = ApprovedProductIngestionService.response product procurement workflow event
              true := by
  obtain ⟨_, D₁, hrun₁, h₁⟩ := runs_bind_ok.mp h
  obtain ⟨hhash, rfl⟩ := Tx.runs_require.mp hrun₁
  obtain ⟨found, D₂, hrun₂, h₂⟩ := runs_bind_ok.mp h₁
  obtain ⟨hprocurements, rfl⟩ := Tx.runs_select.mp hrun₂
  obtain ⟨found', D₃, hrun₃, h₃⟩ := runs_bind_ok.mp h₂
  obtain ⟨hevents, rfl⟩ := Tx.runs_select.mp hrun₃
  obtain ⟨procurement, D₄, hrun₄, h₄⟩ := runs_bind_ok.mp h₃
  obtain ⟨hprocurement, rfl⟩ := Tx.runs_orThrow.mp hrun₄
  obtain ⟨event, D₅, hrun₅, h₅⟩ := runs_bind_ok.mp h₄
  obtain ⟨hevent, rfl⟩ := Tx.runs_orThrow.mp hrun₅
  obtain ⟨found'', D₆, hrun₆, h₆⟩ := runs_bind_ok.mp h₅
  obtain ⟨hworkflows, rfl⟩ := Tx.runs_select.mp hrun₆
  obtain ⟨workflow, D₇, hrun₇, h₇⟩ := runs_bind_ok.mp h₆
  obtain ⟨hworkflow, rfl⟩ := Tx.runs_orThrow.mp hrun₇
  cases h₇
  rw [hprocurement] at hprocurements
  rw [hevent] at hevents
  rw [hworkflow] at hworkflows
  obtain ⟨workflowId, hid, hget⟩ := Option.bind_eq_some_iff.mp hworkflows.symm
  refine ⟨hhash, rfl, procurement, List.mem_of_find?_eq_some hprocurements.symm,
    by simpa using List.find?_some hprocurements.symm, event,
    List.mem_of_find?_eq_some hevents.symm, by simpa using List.find?_some hevents.symm, workflow,
    Table.mem_of_get hget, ?_, rfl⟩
  rw [hid]
  exact congrArg some (Table.key_of_get hget).symm

/-! ### What an ingestion leaves -/

/-- The records of the ingestion of `request` that was answered by `response`. -/
structure Ingested (request : ApprovedProductRequestV1) (response : ApprovedProductResponseV1)
    (D : Db) : Prop where
  /-- the product, under the source identity of the request and with its digest -/
  product : ∃ p ∈ D.products, p.id = response.productId ∧ p.sourceSystem = sourceSystem ∧
    p.externalProductId = request.sourceProductId ∧ p.sourcePayloadHash = payloadHash request
  /-- it has a procurement -/
  procurement : ∃ q ∈ D.procurementRequests, q.productId = response.productId
  /-- and only the one of the response -/
  procurements : ∀ q ∈ D.procurementRequests, q.productId = response.productId →
    q.id = response.procurementRequestId ∧ q.workflowRunId = some response.workflowRunId
  /-- the event of the response -/
  event : ∃ e ∈ D.domainEvents, e.id = response.eventId ∧
    e.idempotencyKey = eventIdempotencyKey sourceSystem request.sourceProductId
  /-- and its workflow -/
  workflow : ∃ w ∈ D.workflowRuns, w.id = response.workflowRunId ∧
    w.correlationId = response.correlationId

/-- Every procurement is of a product on record, and a product has one. -/
structure Sourced (D : Db) : Prop where
  product : ∀ q ∈ D.procurementRequests, ∃ p ∈ D.products, p.id = q.productId
  single : ∀ q ∈ D.procurementRequests, ∀ q' ∈ D.procurementRequests,
    q.productId = q'.productId → q.id = q'.id

/-- Nothing is done to the columns an ingestion is found by, and no procurement is added. -/
structure IngestionsKept (D D' : Db) : Prop where
  products : Database.Kept .products
    (fun p : Product => (p.id, p.sourceSystem, p.externalProductId, p.sourcePayloadHash)) D D'
  procurements : Database.Kept .procurementRequests
    (fun q : ProcurementRequest => (q.id, q.productId, q.workflowRunId)) D D'
  procurements' : Database.Kept .procurementRequests
    (fun q : ProcurementRequest => (q.id, q.productId, q.workflowRunId)) D' D
  events : Database.Kept .domainEvents (fun e : DomainEvent => (e.id, e.idempotencyKey)) D D'
  workflows : Database.Kept .workflowRuns (fun w : WorkflowRun => (w.id, w.correlationId)) D D'

/-- What an ingestion left stays on record while the columns it is found by are left alone. -/
theorem Ingested.kept (h : Ingested request response D) (hD : IngestionsKept D D') :
    Ingested request response D' := by
  obtain ⟨p, hp, hproduct⟩ := h.product
  obtain ⟨q, hq, hprocurement⟩ := h.procurement
  obtain ⟨e, he, hevent⟩ := h.event
  obtain ⟨w, hw, hworkflow⟩ := h.workflow
  obtain ⟨p', hp', hsamep⟩ := hD.products p hp
  obtain ⟨q', hq', hsameq⟩ := hD.procurements q hq
  obtain ⟨e', he', hsamee⟩ := hD.events e he
  obtain ⟨w', hw', hsamew⟩ := hD.workflows w hw
  simp only [Prod.mk.injEq] at hsamep hsameq hsamee hsamew
  obtain ⟨h₁, h₂, h₃, h₄⟩ := hsamep
  refine ⟨⟨p', hp', ?_⟩, ⟨q', hq', hsameq.2.1.trans hprocurement⟩, fun r hr hid => ?_,
    ⟨e', he', ?_⟩, ⟨w', hw', ?_⟩⟩
  · rw [h₁, h₂, h₃, h₄]
    exact hproduct
  · obtain ⟨r', hr', hsame⟩ := hD.procurements' r hr
    simp only [Prod.mk.injEq] at hsame
    obtain ⟨h₁, h₂, h₃⟩ := hsame
    rw [← h₁, ← h₃]
    exact h.procurements r' hr' (h₂.trans hid)
  · rw [hsamee.1, hsamee.2]
    exact hevent
  · rw [hsamew.1, hsamew.2]
    exact hworkflow

omit [Digests] in
/-- The products of the procurements are kept with the rows they come from. -/
theorem Sourced.kept (h : Sourced D) (hD : IngestionsKept D D') : Sourced D' := by
  have hback : ∀ q ∈ D'.procurementRequests, ∃ r ∈ D.procurementRequests, r.id = q.id ∧
      r.productId = q.productId := by
    intro q hq
    obtain ⟨r, hr, hsame⟩ := hD.procurements' q hq
    simp only [Prod.mk.injEq] at hsame
    exact ⟨r, hr, hsame.1, hsame.2.1⟩
  refine ⟨fun q hq => ?_, fun q hq q' hq' hproduct => ?_⟩
  · obtain ⟨r, hr, -, hid⟩ := hback q hq
    obtain ⟨p, hp, hpid⟩ := h.product r hr
    obtain ⟨p', hp', hsame⟩ := hD.products p hp
    simp only [Prod.mk.injEq] at hsame
    exact ⟨p', hp', hsame.1.trans (hpid.trans hid)⟩
  · obtain ⟨r, hr, hid, hrid⟩ := hback q hq
    obtain ⟨r', hr', hid', hrid'⟩ := hback q' hq'
    rw [← hid, ← hid']
    exact h.single r hr r' hr' (hrid.trans (hproduct.trans hrid'.symm))

/-- The product of a first ingestion has no procurement yet. -/
theorem Added.fresh {product : Product} {procurement : ProcurementRequest} {workflow : WorkflowRun}
    {event : DomainEvent} (h : Added request product procurement workflow event D D')
    (hD : Sourced D) : ∀ q ∈ D.procurementRequests, q.productId ≠ product.id := by
  intro q hq heq
  obtain ⟨p, hp, hid⟩ := hD.product q hq
  exact h.product_fresh p hp (hid.trans heq)

/-- A first ingestion adds a product with one procurement. -/
theorem Added.sourced {product : Product} {procurement : ProcurementRequest}
    {workflow : WorkflowRun} {event : DomainEvent}
    (h : Added request product procurement workflow event D D') (hD : Sourced D) : Sourced D' := by
  refine ⟨fun q hq => ?_, fun q hq q' hq' hproduct => ?_⟩
  · rcases h.procurements q hq with hq | rfl
    · obtain ⟨p, hp, hid⟩ := hD.product q hq
      exact ⟨p, h.extended .products p hp, hid⟩
    · exact ⟨product, h.product_mem, h.productId.symm⟩
  · rcases h.procurements q hq with hq | rfl
    · rcases h.procurements q' hq' with hq' | rfl
      · exact hD.single q hq q' hq' hproduct
      · exact absurd (hproduct.trans h.productId) (h.fresh hD q hq)
    · rcases h.procurements q' hq' with hq' | rfl
      · exact absurd (hproduct.symm.trans h.productId) (h.fresh hD q' hq')
      · rfl

/-- The records of an earlier ingestion are still there. -/
theorem Ingested.added {earlier : ApprovedProductRequestV1} {product : Product}
    {procurement : ProcurementRequest} {workflow : WorkflowRun} {event : DomainEvent}
    (hD : Ingested earlier response D)
    (h : Added request product procurement workflow event D D') : Ingested earlier response D' := by
  obtain ⟨p, hp, hproduct⟩ := hD.product
  obtain ⟨q, hq, hprocurement⟩ := hD.procurement
  obtain ⟨e, he, hevent⟩ := hD.event
  obtain ⟨w, hw, hworkflow⟩ := hD.workflow
  refine ⟨⟨p, h.extended .products p hp, hproduct⟩,
    ⟨q, h.extended .procurementRequests q hq, hprocurement⟩, fun r hr hid => ?_,
    ⟨e, h.extended .domainEvents e he, hevent⟩, ⟨w, h.extended .workflowRuns w hw, hworkflow⟩⟩
  rcases h.procurements r hr with hr | rfl
  · exact hD.procurements r hr hid
  · refine absurd ?_ (h.product_fresh p hp)
    rw [hproduct.1, ← hid]
    exact h.productId

/-- An ingestion adds rows, or finds the product and leaves the state as it is. -/
theorem ingest_cases (h : (ingest request requestKey).runs D (.ok (response, D'))) :
    (∃ product ∈ D.products, product.sourceSystem = sourceSystem ∧
        product.externalProductId = request.sourceProductId ∧
        (existingResponse product (payloadHash request)).runs D (.ok (response, D'))) ∨
      ∃ product procurement workflow event,
        Added request product procurement workflow event D D' ∧
          response = ApprovedProductIngestionService.response product procurement workflow event
            false := by
  obtain ⟨existing, D₁, hselect, h₁⟩ := runs_bind_ok.mp h
  obtain ⟨hfind, rfl⟩ := Tx.runs_select.mp hselect
  cases existing with
  | some product =>
    have hsame := List.find?_some hfind.symm
    simp only [decide_eq_true_eq] at hsame
    exact Or.inl ⟨product, List.mem_of_find?_eq_some hfind.symm, hsame.1, hsame.2, h₁⟩
  | none => exact Or.inr (ingestNew_runs h₁)

/-- **What an ingestion was answered is on record.** -/
theorem ingest_ingested (hD : Sourced D)
    (h : (ingest request requestKey).runs D (.ok (response, D'))) :
    Ingested request response D' := by
  rcases ingest_cases h with ⟨p, hp, hsystem, hexternal, hrun⟩ | ⟨p, q, w, e, hadded, rfl⟩
  · obtain ⟨hhash, rfl, q, hq, hproduct, e, he, hkey, w, hw, hworkflow, rfl⟩ :=
      existingResponse_runs hrun
    rw [hsystem, hexternal] at hkey
    refine ⟨⟨p, hp, rfl, hsystem, hexternal, hhash⟩, ⟨q, hq, hproduct⟩, fun r hr hid => ?_,
      ⟨e, he, rfl, hkey⟩, ⟨w, hw, rfl, rfl⟩⟩
    have hsame : r = q := D'.procurementRequests.eq_of_key_eq hr hq
      (hD.single r hr q hq (hid.trans hproduct.symm))
    rw [hsame]
    exact ⟨rfl, hworkflow⟩
  · refine ⟨⟨p, hadded.product_mem, rfl, hadded.sourceSystem, hadded.externalProductId,
      hadded.sourcePayloadHash⟩, ⟨q, hadded.procurement_mem, hadded.productId⟩, fun r hr hid => ?_,
      ⟨e, hadded.event_mem, rfl, hadded.idempotencyKey⟩, ⟨w, hadded.workflow_mem, rfl, rfl⟩⟩
    rcases hadded.procurements r hr with hr | rfl
    · exact absurd hid (hadded.fresh hD r hr)
    · exact ⟨rfl, hadded.workflowRunId⟩

end Ingest

end ApprovedProductIngestionService

/-- The calls that reach the products: ingestions, and whatever else runs on the database. -/
inductive ProductCall where
  /-- an ingestion -/
  | ingest (request : ApprovedProductRequestV1) (requestIdempotencyKey : String)
  /-- anything else -/
  | other (call : Tx Unit)

namespace ProductCall

variable [Digests]

/-- The call as a transaction; what it returns is dropped. -/
def run : ProductCall → Tx Unit
  | ingest request requestIdempotencyKey => do
    let _ ← ApprovedProductIngestionService.ingest request requestIdempotencyKey
  | other call => call

/-- What else runs leaves the columns alone that an ingestion is found by. -/
def SparesIngestions : ProductCall → Db → Prop
  | ingest _ _, _ => True
  | other call, _ => call.keeps ApprovedProductIngestionService.IngestionsKept

end ProductCall

namespace ApprovedProductIngestionService

section Law

variable [Digests]

/-- The states products are ingested in. -/
abbrev Reached : Db → Db → Prop := History ProductCall.run ProductCall.SparesIngestions

/-- In every state that is reached, each procurement is of a product on record, and a product has
    one.  By induction on the calls. -/
theorem Reached.sourced {D D' : Db} (h : Reached D D') (hD : Sourced D) : Sourced D' := by
  refine h.inv hD fun c D₁ u D₂ hsourced hc hrun => ?_
  cases c with
  | other call => exact hsourced.kept (hc D₁ u D₂ hrun)
  | ingest request key =>
    obtain ⟨response, D₃, hingest, hend⟩ := runs_bind_ok.mp hrun
    cases hend
    rcases ingest_cases hingest with ⟨p, -, -, -, hrun⟩ | ⟨p, q, w, e, hadded, -⟩
    · obtain ⟨-, rfl, -⟩ := existingResponse_runs hrun
      exact hsourced
    · exact hadded.sourced hsourced

/-- What an ingestion was answered is on record ever after.  By induction on the calls that follow
    it: an ingestion adds rows, and what else runs leaves these columns alone. -/
theorem Reached.ingested {request : ApprovedProductRequestV1} {response : ApprovedProductResponseV1}
    {D D' : Db} (h : Reached D D') (hD : Ingested request response D) :
    Ingested request response D' := by
  refine h.inv hD fun c D₁ u D₂ hingested hc hrun => ?_
  cases c with
  | other call => exact hingested.kept (hc D₁ u D₂ hrun)
  | ingest request key =>
    obtain ⟨response, D₃, hingest, hend⟩ := runs_bind_ok.mp hrun
    cases hend
    rcases ingest_cases hingest with ⟨p, -, -, -, hrun⟩ | ⟨p, q, w, e, hadded, -⟩
    · obtain ⟨-, rfl, -⟩ := existingResponse_runs hrun
      exact hingested
    · exact hingested.added hadded

/-- Redelivery means equal data: where the ingestion of `a` was answered by `response`, a delivery
    of `b` is answered so again, as a duplicate and with the status the procurement has by now,
    when the two are the same; it raises a conflict when they are not, and changes nothing. -/
structure RedeliveryLaw (a b : ApprovedProductRequestV1) (response : ApprovedProductResponseV1)
    (D : Db) : Prop where
  duplicate : a.Same b → ∀ key res, (ingest b key).runs D res → ∃ procurementStatus,
    res = .ok ({ response with procurementStatus, duplicate := true }, D)
  conflict : ¬a.Same b → ∀ key res, (ingest b key).runs D res →
    res = .error (.raised .approvedProductConflictError
      "The source product was already ingested with different approved data")

/-- Digests agree exactly on requests that are the same and written alike, if the hash tells texts
    apart. -/
theorem payloadHash_inj (hsha : Function.Injective Digests.sha256)
    {a b : ApprovedProductRequestV1} : payloadHash a = payloadHash b ↔ a.Same b ∧ a.Alike b := by
  rw [← ApprovedProductRequestV1.dumps_inj]
  exact hsha.eq_iff

omit [Digests] in
/-- The product of an ingestion on record is the one that a delivery of the same product finds: its
    source identity is unique. -/
theorem findProduct_stored {b : ApprovedProductRequestV1} {p : Product} {D : Db}
    (hp : p ∈ D.products) (hsystem : p.sourceSystem = sourceSystem)
    (hexternal : p.externalProductId = b.sourceProductId) : findProduct b D = some p := by
  unfold findProduct
  cases hcase : D.products.rows.find? fun p => p.sourceSystem = sourceSystem ∧
      p.externalProductId = b.sourceProductId with
  | none =>
    have hnone := List.find?_eq_none.mp hcase p hp
    simp [hsystem, hexternal] at hnone
  | some p' =>
    have hp' := List.find?_some hcase
    simp only [decide_eq_true_eq] at hp'
    refine congrArg some (D.products.eq_of_unique_mem (List.mem_of_find?_eq_some hcase) hp
      List.mem_cons_self ?_)
    show _ ∈ Row.uniques p
    rw [hp'.1, hp'.2, ← hexternal, ← hsystem]
    exact List.mem_cons_self

/-- A product on record answers every further delivery: the digests are compared. -/
theorem ingest_stored {a b : ApprovedProductRequestV1} {response : ApprovedProductResponseV1}
    {D : Db} (h : Ingested a response D) (hsame : a.sourceProductId = b.sourceProductId)
    (key : String) (res : Except Error (ApprovedProductResponseV1 × Db)) :
    (payloadHash a = payloadHash b → (ingest b key).runs D res → ∃ procurementStatus,
      res = .ok ({ response with procurementStatus, duplicate := true }, D)) ∧
      (payloadHash a ≠ payloadHash b → ((ingest b key).runs D res ↔
        res = .error (.raised .approvedProductConflictError
          "The source product was already ingested with different approved data"))) := by
  obtain ⟨p, hp, hid, hsystem, hexternal, hhash⟩ := h.product
  have hfind : findProduct b D = some p :=
    findProduct_stored hp hsystem (hexternal.trans hsame)
  have hruns : (ingest b key).runs D res ↔
      (existingResponse p (payloadHash b)).runs D res := by
    refine Prog.runs_query_bind.trans ?_
    rw [hfind]
  rw [hruns]
  constructor
  · intro hdigest hrun
    obtain ⟨q, hq, hproduct⟩ := h.procurement
    obtain ⟨e, he, heid, hkey⟩ := h.event
    obtain ⟨w, hw, hwid, hcorrelation⟩ := h.workflow
    -- the lookups find the rows of the first ingestion, or rows with the same keys, which are the
    -- same
    have hprocurements : ∃ q', (D.procurementRequests.rows.find? fun r => r.productId = p.id) =
        some q' ∧ q'.id = response.procurementRequestId ∧
          q'.workflowRunId = some response.workflowRunId := by
      cases hcase : D.procurementRequests.rows.find? fun r => r.productId = p.id with
      | none =>
        have hnone := List.find?_eq_none.mp hcase q hq
        simp [hproduct, hid] at hnone
      | some q' =>
        have hq' := List.find?_some hcase
        simp only [decide_eq_true_eq] at hq'
        exact ⟨q', rfl, h.procurements q' (List.mem_of_find?_eq_some hcase) (hq'.trans hid)⟩
    obtain ⟨q', hq', hqid, hqrun⟩ := hprocurements
    have hevents : (D.domainEvents.rows.find? fun e =>
        e.idempotencyKey = eventIdempotencyKey p.sourceSystem p.externalProductId) = some e := by
      rw [hsystem, hexternal]
      cases hcase : D.domainEvents.rows.find? fun e =>
          e.idempotencyKey = eventIdempotencyKey sourceSystem a.sourceProductId with
      | none =>
        have hnone := List.find?_eq_none.mp hcase e he
        simp [hkey] at hnone
      | some e' =>
        have he' := List.find?_some hcase
        simp only [decide_eq_true_eq] at he'
        refine congrArg some (D.domainEvents.eq_of_unique_mem (List.mem_of_find?_eq_some hcase) he
          List.mem_cons_self ?_)
        show _ ∈ Row.uniques e
        rw [he', ← hkey]
        exact List.mem_cons_self
    have hworkflow : q'.workflowRunId.bind D.workflowRuns.get = some w := by
      rw [hqrun]
      show D.workflowRuns.get response.workflowRunId = some w
      rw [← hwid]
      exact Table.get_of_mem hw
    refine ⟨q'.status.value, ?_⟩
    have hres : res = .ok (ApprovedProductIngestionService.response p q' w e true, D) := by
      simpa [existingResponse, Tx.require, Tx.select, Tx.orThrow, Prog.query, Prog.runs, hhash,
        hdigest, hq', hevents, hworkflow] using hrun
    rw [hres, ← hid, ← hqid, ← hwid, ← heid, ← hcorrelation]
    rfl
  · intro hdigest
    rw [← hhash] at hdigest
    simp [existingResponse, Tx.require, Prog.runs, hdigest, Tx.throw]

/-- The ingestion of `a` is on record, and the law holds there exactly when sameness shows in the
    text. -/
theorem redeliveryLaw_iff (hsha : Function.Injective Digests.sha256)
    {a b : ApprovedProductRequestV1} (hsame : a.sourceProductId = b.sourceProductId)
    {response : ApprovedProductResponseV1} {D : Db} (h : Ingested a response D) :
    RedeliveryLaw a b response D ↔ (a.Same b → a.Alike b) := by
  have hdigest : payloadHash a = payloadHash b ↔ a.Same b ∧ a.Alike b := payloadHash_inj hsha
  constructor
  · intro hlaw heq
    by_contra hdiffer
    -- the texts differ, so the one run there is raises
    have hne : payloadHash a ≠ payloadHash b := fun h => hdiffer (hdigest.mp h).2
    obtain ⟨status, hok⟩ := hlaw.duplicate heq "" _ (((ingest_stored h hsame "" _).2 hne).mpr rfl)
    cases hok
  · intro halike
    refine ⟨fun heq key res hres => ?_, fun hdiffer key res hres => ?_⟩
    · exact (ingest_stored h hsame key res).1 (hdigest.mpr ⟨heq, halike heq⟩) hres
    · have hne : payloadHash a ≠ payloadHash b := fun h => hdiffer (hdigest.mp h).1
      exact ((ingest_stored h hsame key res).2 hne).mp hres

/-- **A delivery that lost the race** is answered as a redelivery.  Two deliveries of one product
    may both look for it before either has committed; the second then fails on the unique source
    identity and looks again, in a new transaction.  That second look runs exactly as an ingestion
    would by then, so whatever the law of redelivery says of the one it says of the other. -/
theorem findExistingAfterConflict_runs {a b : ApprovedProductRequestV1}
    {response : ApprovedProductResponseV1} {D : Db} (h : Ingested a response D)
    (hsame : a.sourceProductId = b.sourceProductId) (key : String)
    (res : Except Error (ApprovedProductResponseV1 × Db)) :
    (findExistingAfterConflict b).runs D res ↔ (ingest b key).runs D res := by
  obtain ⟨p, hp, -, hsystem, hexternal, -⟩ := h.product
  have hfind : findProduct b D = some p :=
    findProduct_stored hp hsystem (hexternal.trans hsame)
  have hagain : (findExistingAfterConflict b).runs D res ↔
      (existingResponse p (payloadHash b)).runs D res := by
    refine Prog.runs_query_bind.trans ?_
    rw [hfind]
    exact Iff.rfl
  have hingest : (ingest b key).runs D res ↔ (existingResponse p (payloadHash b)).runs D res := by
    refine Prog.runs_query_bind.trans ?_
    rw [hfind]
  exact hagain.trans hingest.symm

end Law

end ApprovedProductIngestionService

/-! ## Redelivery -/

/-- **Redelivery means equal data, for data written alike.**  Once an order has been ingested, the
    law of redelivery holds of a second command for it exactly when, if the two are the same, their
    amounts have the same scales and their timestamps the same offset.  So it does for approved
    products.  Neither half asks when the second delivery comes, or what has run in between. -/
theorem redelivery_law [Digests] (hsha : Function.Injective Digests.sha256)
    (policy : WorkflowExecutionPolicy) :
    (∀ (a b : NormalizedMarketplaceOrder) (D D' D₁ : Db) (r : OrderIngestionResult),
      a.SameOrder b → (OrderService.ingest a).runs D (.ok (r, D')) →
        History (StockCall.run policy) (fun _ _ => True) D' D₁ →
          (OrderService.RedeliveryLaw a b r D₁ ↔ (a.Same b → a.Alike b))) ∧
      ∀ (a b : ApprovedProductRequestV1) (key : String) (D D' D₁ : Db)
        (response : ApprovedProductResponseV1), a.sourceProductId = b.sourceProductId →
          ApprovedProductIngestionService.Reached Db.empty D →
            (ApprovedProductIngestionService.ingest a key).runs D (.ok (response, D')) →
              ApprovedProductIngestionService.Reached D' D₁ →
                (ApprovedProductIngestionService.RedeliveryLaw a b response D₁ ↔
                  (a.Same b → a.Alike b)) := by
  constructor
  · intro a b D D' D₁ r hsame hrun h
    exact OrderService.redeliveryLaw_iff hsha hsame hrun h
  · intro a b key D D' D₁ response hsame hD hrun h
    have hempty : ApprovedProductIngestionService.Sourced Db.empty :=
      ⟨fun q hq => absurd hq List.not_mem_nil, fun q hq => absurd hq List.not_mem_nil⟩
    have hingested := ApprovedProductIngestionService.ingest_ingested
      (ApprovedProductIngestionService.Reached.sourced hD hempty) hrun
    exact ApprovedProductIngestionService.redeliveryLaw_iff hsha hsame
      (ApprovedProductIngestionService.Reached.ingested h hingested)

/-- The sample order with its total written with a scale. -/
def orderOf50 (coefficient : Nat) (exponent : Int) : NormalizedMarketplaceOrder :=
  { sampleOrder with totalAmount := ⟨false, coefficient, exponent⟩ }

/-- A sample product with its landed cost written with a scale. -/
def productOf4 (coefficient : Nat) (exponent : Int) : ApprovedProductRequestV1 :=
  let request := sampleProduct "lamp" "run" "quote"
  { request with
    economics := { request.economics with
      estimatedLandedCostPerUnit := ⟨false, coefficient, exponent⟩ } }

/-- The stock for the sample order. -/
def stockedDb : Db :=
  afterCalls (@StockCall.run Digests.plain samplePolicy) Environment.numbered 0 [sampleReceipt]
    sampleDb

/-- A repetition word by word is a duplicate. -/
theorem redelivery_law_sample :
    (∃ r D', (@OrderService.ingest Digests.plain (orderOf50 50 0)).runs stockedDb (.ok (r, D')) ∧
      @OrderService.RedeliveryLaw Digests.plain (orderOf50 50 0) (orderOf50 50 0) r D') ∧
      ∃ response D', (@ApprovedProductIngestionService.ingest Digests.plain (productOf4 4 0)
        "key").runs Db.empty (.ok (response, D')) ∧
          @ApprovedProductIngestionService.RedeliveryLaw Digests.plain (productOf4 4 0)
            (productOf4 4 0) response D' := by
  have halike : ∀ d : Decimal, d.Alike d := fun d => ⟨rfl, rfl⟩
  constructor
  · obtain ⟨r, D', hrun⟩ := exists_runs_ok (o := Environment.numbered 9)
      (p := @OrderService.ingest Digests.plain (orderOf50 50 0)) (D := stockedDb)
      (by decide +kernel)
    refine ⟨r, D', hrun, ((@redelivery_law Digests.plain Function.injective_id samplePolicy).1 _ _
      _ _ _ _ ⟨rfl, rfl, rfl⟩ hrun .start).mpr fun _ => ⟨halike _, rfl, ?_⟩⟩
    exact List.forall₂_same.mpr fun item _ => ⟨halike _, halike _, halike _⟩
  · obtain ⟨response, D', hrun⟩ := exists_runs_ok (o := Environment.numbered 9)
      (p := @ApprovedProductIngestionService.ingest Digests.plain (productOf4 4 0) "key")
      (D := Db.empty) (by decide)
    refine ⟨response, D', hrun, ((@redelivery_law Digests.plain Function.injective_id
      samplePolicy).2 _ _ _ _ _ _ _ rfl .start hrun .start).mpr fun _ =>
        ⟨⟨halike _, halike _⟩, ?_, rfl⟩⟩
    exact List.forall₂_same.mpr fun d _ => halike d

/-- **A rewritten amount is a conflict.**  The order of 50 has been ingested, and is delivered again
    with its total written as 50.0; the product that costs 4, with its cost written as 4.00. -/
theorem redelivery_conflict :
    let orderDb := afterCalls (@StockCall.run Digests.plain samplePolicy) Environment.numbered 1
      [.ingest (orderOf50 50 0)] stockedDb
    let productDb := afterCalls (@ProductCall.run Digests.plain) Environment.numbered 0
      [.ingest (productOf4 4 0) "key"] Db.empty
    ((orderOf50 50 0).Same (orderOf50 500 (-1)) ∧ (Db.orders orderDb).rows.length = 1 ∧
      raised (Environment.numbered 9) (@OrderService.ingest Digests.plain (orderOf50 500 (-1)))
        orderDb = some (.raised .orderIdempotencyConflict
          "Marketplace order was redelivered with different business data")) ∧
      (productOf4 4 0).Same (productOf4 400 (-2)) ∧ (Db.products productDb).rows.length = 1 ∧
        raised (Environment.numbered 9)
          (@ApprovedProductIngestionService.ingest Digests.plain (productOf4 400 (-2)) "key")
          productDb = some (.raised .approvedProductConflictError
            "The source product was already ingested with different approved data") := by
  have horder : (orderOf50 50 0).totalAmount.value = (orderOf50 500 (-1)).totalAmount.value := by
    decide +kernel
  have hproduct : (⟨false, 4, 0⟩ : Decimal).value = (⟨false, 400, -2⟩ : Decimal).value := by
    decide +kernel
  have hsame : (orderOf50 50 0).Same (orderOf50 500 (-1)) :=
    ⟨rfl, rfl, rfl, rfl, rfl, rfl, horder, rfl, rfl, rfl,
      List.forall₂_same.mpr fun item _ => ⟨rfl, rfl, rfl, rfl, rfl, rfl⟩⟩
  have hsame' : (productOf4 4 0).Same (productOf4 400 (-2)) :=
    ⟨rfl, rfl, rfl, ⟨rfl, rfl, rfl, rfl⟩, ⟨rfl, rfl, rfl, rfl⟩,
      ⟨rfl, rfl, rfl, rfl, rfl, rfl, rfl, rfl, rfl⟩,
      List.Forall₂.cons hproduct (List.forall₂_same.mpr fun d _ => rfl),
      List.forall₂_same.mpr fun e _ => ⟨rfl, rfl, rfl, rfl⟩, rfl⟩
  intro orderDb productDb
  refine ⟨⟨hsame, ?_, ?_⟩, hsame', ?_, ?_⟩
  · decide +kernel
  · decide +kernel
  · decide
  · decide +kernel

end CommerceOperations
