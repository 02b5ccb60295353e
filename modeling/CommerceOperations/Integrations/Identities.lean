/-
  The names external identities get.

  An order is named `order:{marketplace}:{account}:{order id}` and an approved product
  `{system}:{product id}:{run id}`; the correlation id of its workflow is the digest of the name.
  The parts are free texts and may hold colons of their own, so that a name tells no more than the
  pieces between its colons: two identities have one name exactly when their pieces are the same
  (`correlationName_inj`), and then the second cannot be ingested, because the constraint on
  `(workflow_name, correlation_id)` stands against it.
-/
import CommerceOperations.Application.Warehouse
import CommerceOperations.Integrations.ApprovedProducts

namespace CommerceOperations

open Relational Prog Tx

/-! ## Identities and their names -/

/-- What is left of the parts of an identity when they are cut at their colons. -/
def piecesOf (parts : List String) : List (List Char) := Text.pieces ':' (parts.map String.toList)

/-- A part in front of both makes no difference. -/
theorem piecesOf_cons_inj {p : String} {parts parts' : List String} :
    piecesOf (p :: parts) = piecesOf (p :: parts') ↔ piecesOf parts = piecesOf parts' := by
  show p.toList.splitOn ':' ++ piecesOf parts = p.toList.splitOn ':' ++ piecesOf parts' ↔ _
  exact List.append_right_inj _

/-- The parts with colons between them are one text exactly if their pieces are the same. -/
theorem joined_inj {parts parts' : List String} (h : parts ≠ []) (h' : parts' ≠ []) :
    [':'].intercalate (parts.map String.toList) = [':'].intercalate (parts'.map String.toList) ↔
      piecesOf parts = piecesOf parts' :=
  Text.intercalate_inj (by simpa using h) (by simpa using h')

/-- The identity of an order: the parts its correlation id is made from. -/
def NormalizedMarketplaceOrder.identity (command : NormalizedMarketplaceOrder) : List String :=
  [command.marketplace, command.marketplaceAccountId, command.externalOrderId]

/-- The identity of an approved product. -/
def ApprovedProductRequestV1.identity (request : ApprovedProductRequestV1) : List String :=
  [request.sourceProductId, request.sourceWorkflowRunId]

/-- The name of the correlation id. -/
def NormalizedMarketplaceOrder.name (command : NormalizedMarketplaceOrder) : String :=
  OrderService.correlationName command.marketplace command.marketplaceAccountId
    command.externalOrderId

/-- The name of the correlation id, behind the name of the system. -/
def ApprovedProductRequestV1.name (request : ApprovedProductRequestV1) : String :=
  ApprovedProductIngestionService.correlationName request.sourceProductId
    request.sourceWorkflowRunId

/-- **Orders have one name** exactly when their identities have the same pieces. -/
theorem NormalizedMarketplaceOrder.name_inj {a b : NormalizedMarketplaceOrder} :
    a.name = b.name ↔ piecesOf a.identity = piecesOf b.identity := by
  have hname : ∀ c : NormalizedMarketplaceOrder,
      c.name.toList = [':'].intercalate (("order" :: c.identity).map String.toList) := by
    intro c
    show ("order:" ++ c.marketplace ++ ":" ++ c.marketplaceAccountId ++ ":" ++
      c.externalOrderId).toList = _
    simp [identity, List.intercalate]
  rw [← piecesOf_cons_inj (p := "order"), ← joined_inj (by simp) (by simp), ← hname, ← hname]
  exact String.toList_inj.symm

/-- **Products have one name** exactly when their identities have the same pieces. -/
theorem ApprovedProductRequestV1.name_inj {a b : ApprovedProductRequestV1} :
    a.name = b.name ↔ piecesOf a.identity = piecesOf b.identity := by
  have hname : ∀ c : ApprovedProductRequestV1,
      c.name.toList = [':'].intercalate ((sourceSystem :: c.identity).map String.toList) := by
    intro c
    show (sourceSystem ++ ":" ++ c.sourceProductId ++ ":" ++ c.sourceWorkflowRunId).toList = _
    simp [identity, sourceSystem, List.intercalate]
  rw [← piecesOf_cons_inj (p := sourceSystem), ← joined_inj (by simp) (by simp), ← hname, ← hname]
  exact String.toList_inj.symm

/-! ## What ingestion does to the workflow runs -/

/-- The value of the constraint on `(workflow_name, correlation_id)`. -/
def correlationKey (workflowName : String) (correlationId : Uuid) : Unique :=
  ⟨.workflowCorrelation, [.text workflowName, .uuid correlationId]⟩

/-- Whatever `p` does, the runs have at most the value `u` more than before, and a constraint of
    theirs is met only by a value that was taken before.  This composes: what comes before and after
    the one insert spares the runs. -/
def ClaimsOnly {α : Type} (u : Unique) (p : Tx α) : Prop :=
  ∀ D : Db, p.post D
    (fun _ (D' : Db) => ∀ v, D'.workflowRuns.taken v = true → D.workflowRuns.taken v = true ∨ v = u)
    fun e => ∀ us, e = .integrityError .workflowRuns us → ∀ v ∈ us, D.workflowRuns.taken v = true

namespace ClaimsOnly

variable {α β : Type} {u : Unique}

/-- What spares the runs claims nothing. -/
theorem of_spares {p : Tx α} (h : p.spares .workflowRuns) : ClaimsOnly u p := by
  intro D
  refine post_mono (Tx.post_of_spares h D) (fun _ D' hD' v hv => ?_) (fun e he us heq => ?_)
  · have hsame : Db.workflowRuns D' = D.workflowRuns := hD'
    rw [hsame] at hv
    exact Or.inl hv
  · exact absurd heq (he us)

/-- What comes before the run is added spares the runs. -/
theorem after {p : Tx α} {f : α → Tx β} (hp : p.spares .workflowRuns)
    (hf : ∀ a, ClaimsOnly u (f a)) :
    ClaimsOnly u (p >>= f) := by
  intro D
  refine post_bind.mpr ?_
  refine post_mono (Tx.post_of_spares hp D) (fun a D' hD' => ?_) (fun e he us heq => ?_)
  · have hsame : Db.workflowRuns D' = D.workflowRuns := hD'
    have := hf a D'
    rwa [hsame] at this
  · exact absurd heq (he us)

/-- Where nothing that comes after `p` writes a run, the whole claims what `p` claims. -/
theorem before {p : Tx α} {f : α → Tx β} (hp : ClaimsOnly u p)
    (hf : ∀ a, (f a).spares .workflowRuns) :
    ClaimsOnly u (p >>= f) := by
  intro D
  refine post_bind.mpr ?_
  refine post_mono (hp D) (fun a D' hD' => ?_) fun e he => he
  refine post_mono (Tx.post_of_spares (hf a) D') (fun b D'' hD'' v hv => ?_) (fun e he us heq => ?_)
  · have hsame : Db.workflowRuns D'' = Db.workflowRuns D' := hD''
    rw [hsame] at hv
    exact hD' v hv
  · exact absurd heq (he us)

/-- To add a run is to claim its value. -/
theorem addRun {run : WorkflowRun} (h : Row.uniques run = [u]) :
    ClaimsOnly u (add .workflowRuns run) := by
  intro D
  refine post_insert.mpr ⟨fun hconflicts v hv => ?_, fun _ us heq v hv => ?_⟩
  · have htaken : (Table.insert D.workflowRuns run).taken v = true := by
      have htable : (Database.apply ⟨.workflowRuns, .insert run⟩ D).table .workflowRuns =
          D.workflowRuns.insert run := Database.apply_table_self ..
      rw [← htable]
      exact hv
    rw [Table.taken_insert (t := D.workflowRuns) hconflicts] at htaken
    rcases Bool.or_eq_true_iff.mp htaken with htaken | htaken
    · exact Or.inl htaken
    · right
      simpa [h] using htaken
  · cases heq
    exact (List.mem_filter.mp hv).2

end ClaimsOnly

/-- The name of the fulfilment workflow of an order. -/
def fulfilmentName : String := "marketplace-order-fulfilment"

/-- **Ingesting an order** claims its correlation id, and nothing else. -/
theorem OrderService.ingest_claims [Digests] (command : NormalizedMarketplaceOrder) :
    ClaimsOnly (correlationKey fulfilmentName (correlationId command)) (ingest command) := by
  refine ClaimsOnly.after (writes_query _) fun existing => ?_
  cases existing with
  | some existing =>
    exact ClaimsOnly.of_spares (writes_bind spares_require fun _ => trivial)
  | none =>
    refine ClaimsOnly.after (writes_query _) fun eventOrder => ?_
    refine ClaimsOnly.after spares_require fun _ => ?_
    refine ClaimsOnly.after OrderService.validate_spares fun _ => ?_
    refine ClaimsOnly.after (writes_answer _) fun workflowId => ?_
    refine ClaimsOnly.after (writes_answer _) fun createdAt => ?_
    refine ClaimsOnly.before (ClaimsOnly.addRun rfl) fun workflow => ?_
    refine writes_bind (writes_answer _) fun orderId => ?_
    refine writes_bind (writes_answer _) fun now => ?_
    refine writes_bind (spares_add _ (by decide)) fun order => ?_
    refine writes_bind (OrderService.addLines_spares (by decide) _) fun _ => ?_
    refine writes_bind (DatabaseEventStore.emit_spares (by decide)) fun _ => ?_
    refine writes_bind ?_ fun _ => trivial
    exact writes_bind spares_orThrow fun _ => addAudit_spares (by decide)

namespace ApprovedProductIngestionService

/-- Answering a repeated request spares the runs. -/
theorem existingResponse_spares {product : Product} {hash : String} :
    (existingResponse product hash).spares .workflowRuns := by
  refine writes_bind spares_require fun _ => ?_
  refine writes_bind (writes_query _) fun procurement => ?_
  refine writes_bind (writes_query _) fun event => ?_
  refine writes_bind spares_orThrow fun procurement => ?_
  refine writes_bind spares_orThrow fun event => ?_
  refine writes_bind (writes_query _) fun workflow => ?_
  exact writes_bind spares_orThrow fun _ => trivial

/-- Finding or adding the supplier spares every other table. -/
theorem findOrAddSupplier_spares {supplier : SelectedSupplierV1} :
    (findOrAddSupplier supplier).spares .workflowRuns := by
  refine writes_bind (writes_query _) fun found => ?_
  cases found with
  | some found => exact trivial
  | none => exact writes_bind (writes_answer _) fun _ => spares_add _ (by decide)

/-- **Ingesting an approved product** claims its correlation id, and nothing else. -/
theorem ingest_claims [Digests] (request : ApprovedProductRequestV1) (key : String) :
    ClaimsOnly (correlationKey workflowName
      (correlationId request.sourceProductId request.sourceWorkflowRunId))
      (ingest request key) := by
  refine ClaimsOnly.after (writes_query _) fun existing => ?_
  cases existing with
  | some existing => exact ClaimsOnly.of_spares existingResponse_spares
  | none =>
    refine ClaimsOnly.after (writes_bind (writes_answer _) fun _ => spares_add _ (by decide))
      fun product => ?_
    refine ClaimsOnly.after findOrAddSupplier_spares fun supplier => ?_
    refine ClaimsOnly.after (writes_bind (writes_answer _) fun _ => spares_add _ (by decide))
      fun quote => ?_
    refine ClaimsOnly.before ?_ fun workflow => ?_
    · refine ClaimsOnly.after (writes_answer _) fun id => ?_
      refine ClaimsOnly.after (writes_answer _) fun createdAt => ?_
      exact ClaimsOnly.addRun rfl
    · refine writes_bind ?_ fun procurement => ?_
      · refine writes_bind (writes_answer _) fun now => ?_
        refine writes_bind (writes_answer _) fun id => ?_
        exact writes_bind (writes_answer _) fun createdAt => spares_add _ (by decide)
      · exact writes_bind (DatabaseEventStore.emit_spares (by decide)) fun _ => trivial

end ApprovedProductIngestionService

/-! ## When identities stay apart -/

section Apart

variable [Digests]

/-- Two workflows stay apart: they have different correlation ids, and once `p` has been ingested
    where no run has the id of `q`, ingesting `q` does not fail on the constraint on it. -/
def Apart {α β : Type} (workflowName : String) (id id' : Uuid) (p : Tx α) (q : Tx β) : Prop :=
  id ≠ id' ∧
    ∀ (D D' : Db) (a : α), D.workflowRuns.taken (correlationKey workflowName id') = false →
      p.runs D (.ok (a, D')) → ∀ us, q.runs D' (.error (.integrityError .workflowRuns us)) →
        correlationKey workflowName id' ∉ us

omit [Digests] in
/-- Two ingestions are apart exactly if their ids differ.  Then what `p` claimed is not the value of
    `q`, and a constraint that `q` fails on is one that was taken already. -/
theorem apart_iff {α β : Type} {workflowName : String} {id id' : Uuid} {p : Tx α} {q : Tx β}
    (hp : ClaimsOnly (correlationKey workflowName id) p)
    (hq : ClaimsOnly (correlationKey workflowName id') q) :
    Apart workflowName id id' p q ↔ id ≠ id' := by
  constructor
  · exact fun h => h.1
  · intro hne
    refine ⟨hne, fun D D' a hfree hrun us herror hmem => ?_⟩
    have htaken : (Db.workflowRuns D').taken (correlationKey workflowName id') = true :=
      (post_iff.mp (hq D')).2 _ herror us rfl _ hmem
    rcases (post_iff.mp (hp D)).1 a D' hrun _ htaken with htaken | heq
    · rw [hfree] at htaken
      exact nomatch htaken
    · simp only [correlationKey, Unique.mk.injEq, List.cons.injEq, Scalar.uuid.injEq, and_true,
        true_and] at heq
      exact hne heq.symm

/-- **External identities stay apart exactly when their pieces differ**: two orders with the same
    pieces between the colons, or two approved products, share a correlation id. -/
theorem identities_apart_iff :
    (∀ a b : NormalizedMarketplaceOrder,
      (Digests.uuid5 a.name = Digests.uuid5 b.name → a.name = b.name) →
        (Apart fulfilmentName (OrderService.correlationId a) (OrderService.correlationId b)
          (OrderService.ingest a) (OrderService.ingest b) ↔
            piecesOf a.identity ≠ piecesOf b.identity)) ∧
      ∀ (a b : ApprovedProductRequestV1) (key key' : String),
        (Digests.uuid5 a.name = Digests.uuid5 b.name → a.name = b.name) →
          (Apart ApprovedProductIngestionService.workflowName
            (ApprovedProductIngestionService.correlationId a.sourceProductId
              a.sourceWorkflowRunId)
            (ApprovedProductIngestionService.correlationId b.sourceProductId
              b.sourceWorkflowRunId)
            (ApprovedProductIngestionService.ingest a key)
            (ApprovedProductIngestionService.ingest b key') ↔
              piecesOf a.identity ≠ piecesOf b.identity) := by
  constructor
  · intro a b hdigest
    rw [apart_iff (OrderService.ingest_claims a) (OrderService.ingest_claims b)]
    refine not_congr ?_
    rw [← NormalizedMarketplaceOrder.name_inj]
    exact ⟨hdigest, fun h => congrArg Digests.uuid5 h⟩
  · intro a b key key' hdigest
    rw [apart_iff (ApprovedProductIngestionService.ingest_claims a key)
      (ApprovedProductIngestionService.ingest_claims b key')]
    refine not_congr ?_
    rw [← ApprovedProductRequestV1.name_inj]
    exact ⟨hdigest, fun h => congrArg Digests.uuid5 h⟩

end Apart

/-- The sample order under another identity. -/
def orderNamed (marketplaceAccountId externalOrderId sourceEventId : String) :
    NormalizedMarketplaceOrder :=
  { sampleOrder with marketplaceAccountId, externalOrderId, sourceEventId }

/-- An approved product, as the intelligence service sends it. -/
def sampleProduct (sourceProductId sourceWorkflowRunId sourceQuoteId : String) :
    ApprovedProductRequestV1 where
  sourceProductId
  sourceWorkflowRunId
  sourceRecommendationId := "recommendation"
  product := ⟨"Lamp", none, .object [], .object []⟩
  selectedSupplier := ⟨"supplier", "Lights", .object [], .object []⟩
  supplierQuote :=
    { sourceQuoteId
      currency := "GBP"
      moq := 1
      quantity := 10
      unitCost := ⟨false, 400, -2⟩
      shippingCost := ⟨false, 0, 0⟩
      leadTimeDays := 7
      validUntil := none
      sourceReference := none
      moq_pos := by decide
      moq_le_quantity := by decide
      leadTimeDays_nonneg := by decide }
  economics :=
    ⟨⟨false, 450, -2⟩, ⟨false, 900, -2⟩, ⟨false, 450, -2⟩, ⟨false, 50, 0⟩, ⟨false, 100, 0⟩⟩
  recommendation := ⟨[⟨"report", "r-1", none, .object []⟩], sampleTime, by decide⟩

/-- Ingestion of a product as a call. -/
def ingestProduct [Digests] (request : ApprovedProductRequestV1) : Tx Unit := do
  let _ ← ApprovedProductIngestionService.ingest request "key"

/-- Orders of one account with different numbers stay apart; products whose ids have the same
    pieces do not. -/
theorem identities_apart_sample :
    Apart fulfilmentName
        (@OrderService.correlationId Digests.byEnding (orderNamed "a" "b" "1"))
        (@OrderService.correlationId Digests.byEnding (orderNamed "a" "c" "2"))
        (@OrderService.ingest Digests.byEnding (orderNamed "a" "b" "1"))
        (@OrderService.ingest Digests.byEnding (orderNamed "a" "c" "2")) ∧
      ¬Apart ApprovedProductIngestionService.workflowName
        (@ApprovedProductIngestionService.correlationId Digests.byEnding "a:b" "c")
        (@ApprovedProductIngestionService.correlationId Digests.byEnding "a" "b:c")
        (@ApprovedProductIngestionService.ingest Digests.byEnding
          (sampleProduct "a:b" "c" "1") "key")
        (@ApprovedProductIngestionService.ingest Digests.byEnding
          (sampleProduct "a" "b:c" "2") "key") := by
  constructor
  · exact ((@identities_apart_iff Digests.byEnding).1 (orderNamed "a" "b" "1")
      (orderNamed "a" "c" "2") fun h => absurd h (by decide)).mpr (by decide)
  · intro h
    exact ((@identities_apart_iff Digests.byEnding).2 (sampleProduct "a:b" "c" "1")
      (sampleProduct "a" "b:c" "2") "key" "key" fun _ => by decide).mp h (by decide)

/-- **Identities collide.**  With stock for both, the order of account `a:b` with number `c` has
    been taken; the order of account `a` with number `b:c` then fails on the correlation id.  So do
    the products `a:b` of run `c` and `a` of run `b:c`. -/
theorem identities_collide :
    let takenDb := sampleRun [sampleReceipt, .ingest (orderNamed "a:b" "c" "1")]
    let productDb := afterCalls (@ingestProduct Digests.byEnding) Environment.numbered 0
      [sampleProduct "a:b" "c" "1"] Db.empty
    ((orderNamed "a:b" "c" "1").identity ≠ (orderNamed "a" "b:c" "2").identity ∧
        takenDb.orders.rows.length = 1 ∧
        (@OrderService.ingest Digests.byEnding (orderNamed "a" "b:c" "2")).runs takenDb
          (.error (.integrityError .workflowRuns [correlationKey fulfilmentName
            (@OrderService.correlationId Digests.byEnding (orderNamed "a" "b:c" "2"))]))) ∧
      (sampleProduct "a:b" "c" "1").identity ≠ (sampleProduct "a" "b:c" "2").identity ∧
        (Db.products productDb).rows.length = 1 ∧
        (@ApprovedProductIngestionService.ingest Digests.byEnding
          (sampleProduct "a" "b:c" "2") "key").runs productDb
          (.error (.integrityError .workflowRuns
            [correlationKey ApprovedProductIngestionService.workflowName
              (@ApprovedProductIngestionService.correlationId Digests.byEnding "a" "b:c")])) := by
  refine ⟨⟨by decide +kernel, by decide +kernel, ?_⟩, by decide +kernel, by decide +kernel, ?_⟩
  · exact runs_of_raised (o := Environment.numbered 9) (by decide +kernel)
  · exact runs_of_raised (o := Environment.numbered 9) (by decide)

end CommerceOperations
