/-
  Orders stay on record.

  Whatever the calls on the warehouse do with an order, its row keeps the identity it was ingested
  under and the digest of the data it was ingested with.  A later delivery of the order finds it by
  the one and compares the other.

  This is said for any part `f` of the columns that the progress of an order does not touch.  The
  second half is the frame of the warehouse: the tables that none of its calls writes.
-/
import CommerceOperations.Application.Goods

namespace CommerceOperations

open Relational Prog

/-- What an order keeps from its ingestion. -/
structure OrderRecord where
  id : Uuid
  marketplace : String
  marketplaceAccountId : String
  externalOrderId : String
  sourcePayloadHash : String

/-- The columns of an order that no call changes once it is made. -/
def Order.record (o : Order) : OrderRecord :=
  ⟨o.id, o.marketplace, o.marketplaceAccountId, o.externalOrderId, o.sourcePayloadHash⟩

/-- Every order on record stays there. -/
abbrev OrdersKept : Db → Db → Prop := Database.Kept .orders Order.record

section Kept

variable {β : Type} {f : Order → β}

/-- `f` says nothing of the progress of an order. -/
def Order.Settled (f : Order → β) : Prop :=
  ∀ (o : Order) (target : OrderStatus) (now : Instant) (v : Int),
    f { OrderService.withStatus o target now with version := v } = f o

/-- Where the orders are the same they are kept. -/
theorem ordersKept_of_orders {D D' : Db} (h : D'.orders = D.orders) :
    Database.Kept .orders f D D' := Database.Kept.of_table h

/-- What spares the orders keeps them. -/
theorem ordersKept_of_spares {α : Type} {p : Tx α} (h : p.spares .orders) :
    p.keeps (Database.Kept .orders f) :=
  fun _ _ _ hrun => ordersKept_of_orders (Tx.table_of_spares h hrun)

/-! ## The calls -/

namespace OrderService

variable {order : Order} {target : OrderStatus} {actor reason : String} {D D' : Db}

/-- A status change keeps the order it changes on record. -/
theorem setStatus_ordersKept (hf : Order.Settled f) {result : Order}
    (hget : D.orders.get order.id = some order)
    (h : (setStatus order target actor reason).runs D (.ok (result, D'))) :
    Database.Kept .orders f D D' := by
  obtain ⟨now, D₁, ⟨env, hnow⟩, h₁⟩ := runs_bind_ok.mp h
  cases hnow
  obtain ⟨changed, D₂, hflush, h₂⟩ := runs_bind_ok.mp h₁
  have hrest : Database.Kept .orders f D₂ D' := by
    refine ordersKept_of_spares ?_ D₂ _ D' h₂
    refine writes_bind (writes_query _) fun workflow => ?_
    extract_lets finish
    have hfinish : ∀ workflow, (finish workflow).spares .orders := by
      intro workflow
      simp only [finish]
      split
      · refine writes_bind (DatabaseEventStore.emit_spares (by decide)) fun _ => ?_
        exact writes_bind (audit_spares (by decide)) fun _ => trivial
      · exact writes_bind (audit_spares (by decide)) fun _ => trivial
    cases workflow with
    | none => exact hfinish _
    | some workflow =>
      exact writes_bind (Tx.spares_flush _ _ (by decide)) fun _ => hfinish _
  refine IsTrans.trans _ _ _ ?_ hrest
  exact kept_flush hflush (by rfl) (by rfl) hget (hf order target _ _)

/-- `update_status` keeps the records of the orders, for an order that is loaded as it stands. -/
theorem updateStatus_ordersKept (hf : Order.Settled f) {loaded : Option Order} {orderId : Uuid}
    {result : Order} (hloaded : ∀ o, loaded = some o → D.orders.get orderId = some o)
    (h : (updateStatus loaded orderId target actor reason).runs D (.ok (result, D'))) :
    Database.Kept .orders f D D' := by
  obtain ⟨order, D₁, hfind, h₁⟩ := runs_bind_ok.mp h
  obtain ⟨found, D₂, hselect, h₂⟩ := runs_bind_ok.mp hfind
  obtain ⟨hfound, rfl⟩ := runs_selectForUpdate.mp hselect
  obtain ⟨stored, D₃, hthrow, h₃⟩ := runs_bind_ok.mp h₂
  obtain ⟨hstored, rfl⟩ := Tx.runs_orThrow.mp hthrow
  cases h₃
  have hcur : D.orders.get orderId = some (loaded.getD stored) := by
    cases hcase : loaded with
    | none => exact hfound.symm.trans hstored
    | some o => exact hloaded o hcase
  have hid : (loaded.getD stored).id = orderId := Table.key_of_get hcur
  rw [← hid] at hcur
  obtain ⟨_, D₄, htransition, h₄⟩ := runs_bind_ok.mp h₁
  have hD₄ : D₄ = D := by
    unfold transitionOrder at htransition
    split_ifs at htransition <;> cases htransition <;> rfl
  subst hD₄
  have hset : ∀ (D₅ : Db) (hsame : Db.orders D₅ = Db.orders D₄),
      (setStatus (loaded.getD stored) target actor reason).runs D₅ (.ok (result, D')) →
        Database.Kept .orders f D₄ D' := by
    intro D₅ hsame hrun
    refine IsTrans.trans _ _ _ (ordersKept_of_orders hsame) (setStatus_ordersKept hf ?_ hrun)
    show (Db.orders D₅).get _ = _
    rw [hsame]
    exact hcur
  split_ifs at h₄
  · cases h₄
    exact Std.Refl.refl _
  · obtain ⟨_, D₅, hrelease, h₅⟩ := runs_bind_ok.mp h₄
    have hsame : Db.orders D₅ = Db.orders D₄ :=
      Tx.table_of_spares (i := .orders) (releaseOrder_spares (by decide)) hrelease
    exact hset D₅ hsame h₅
  · obtain ⟨_, D₅, hship, h₅⟩ := runs_bind_ok.mp h₄
    have hsame : Db.orders D₅ = Db.orders D₄ :=
      Tx.table_of_spares (i := .orders) (shipOrder_spares (by decide)) hship
    exact hset D₅ hsame h₅
  · exact hset D₄ rfl h₄

/-- Ingestion adds an order, and stores it under its identity. -/
theorem ingest_ordersKept [Digests] {command : NormalizedMarketplaceOrder}
    {result : OrderIngestionResult} (h : (ingest command).runs D (.ok (result, D'))) :
    Database.Kept .orders f D D' ∧ result.order ∈ D'.orders ∧
      result.order.record = ⟨result.order.id, command.marketplace, command.marketplaceAccountId,
        command.externalOrderId, payloadHash command⟩ := by
  obtain ⟨existing, D₁, hselect, h₁⟩ := runs_bind_ok.mp h
  obtain ⟨hfind, rfl⟩ := Tx.runs_select.mp hselect
  cases existing with
  | some existing =>
    -- the order is stored: it was found by its identity, and its hash was compared
    obtain ⟨_, D₂, hrequire, h₂⟩ := runs_bind_ok.mp h₁
    obtain ⟨hhash, rfl⟩ := Tx.runs_require.mp hrequire
    cases h₂
    refine ⟨Std.Refl.refl _, List.mem_of_find?_eq_some hfind.symm, ?_⟩
    have hsame := List.find?_some hfind.symm
    simp only [decide_eq_true_eq] at hsame
    obtain ⟨hmarketplace, haccount, hexternal⟩ := hsame
    simp only [Order.record, hmarketplace, haccount, hexternal, hhash]
  | none =>
    obtain ⟨eventOrder, D₂, hselect', h₂⟩ := runs_bind_ok.mp h₁
    obtain ⟨-, rfl⟩ := Tx.runs_select.mp hselect'
    obtain ⟨_, D₃, hrequire, h₃⟩ := runs_bind_ok.mp h₂
    obtain ⟨-, rfl⟩ := Tx.runs_require.mp hrequire
    obtain ⟨_, D₄, hvalidate, h₄⟩ := runs_bind_ok.mp h₃
    have hvalid : Db.orders D₄ = D.orders := Tx.table_of_spares validate_spares hvalidate
    obtain ⟨workflowId, D₅, ⟨env₁, henv₁⟩, h₅⟩ := runs_bind_ok.mp h₄
    cases henv₁
    obtain ⟨createdAt, D₆, ⟨env₂, henv₂⟩, h₆⟩ := runs_bind_ok.mp h₅
    cases henv₂
    obtain ⟨workflow, D₇, hrun, h₇⟩ := runs_bind_ok.mp h₆
    have hadded : Db.orders D₇ = Db.orders D₄ :=
      Tx.table_of_spares (Tx.spares_add _ (by decide)) hrun
    obtain ⟨orderId, D₈, ⟨env₃, henv₃⟩, h₈⟩ := runs_bind_ok.mp h₇
    cases henv₃
    obtain ⟨now, D₉, ⟨env₄, henv₄⟩, h₉⟩ := runs_bind_ok.mp h₈
    cases henv₄
    obtain ⟨order, D₁₀, hadd, h₁₀⟩ := runs_bind_ok.mp h₉
    obtain ⟨horder, hconflicts, hD₁₀⟩ := runs_insert.mp hadd
    -- lines, event and audit entry spare the table of the orders
    have hrest : Db.orders D' = Db.orders D₁₀ ∧ result.order = order := by
      obtain ⟨_, D₁₁, hlines, h₁₁⟩ := runs_bind_ok.mp h₁₀
      obtain ⟨_, D₁₂, hemit, h₁₂⟩ := runs_bind_ok.mp h₁₁
      obtain ⟨_, D₁₃, haudit, h₁₃⟩ := runs_bind_ok.mp h₁₂
      cases h₁₃
      have h₁ : Db.orders D₁₁ = Db.orders D₁₀ :=
        Tx.table_of_spares (i := .orders) (addLines_spares (by decide) _) hlines
      have h₂ : Db.orders D₁₂ = Db.orders D₁₁ :=
        Tx.table_of_spares (i := .orders) (DatabaseEventStore.emit_spares (by decide)) hemit
      have h₃ : Db.orders D' = Db.orders D₁₂ :=
        Tx.table_of_spares (i := .orders) (audit_spares (by decide)) haudit
      exact ⟨h₃.trans (h₂.trans h₁), rfl⟩
    subst hD₁₀
    obtain ⟨horders, hresult⟩ := hrest
    have hmem : order ∈ D'.orders := by
      rw [horders]
      show order ∈ (Database.apply ⟨.orders, .insert _⟩ _).table .orders
      rw [Database.apply_table_self]
      exact (Table.mem_insert hconflicts).mpr (Or.inr horder)
    have hbefore : Database.Kept TableName.orders f D _ :=
      ordersKept_of_orders (hadded.trans hvalid)
    have hinsert : Database.Kept TableName.orders f _ _ := Database.Kept.insert hconflicts
    refine ⟨?_, by rw [hresult]; exact hmem, ?_⟩
    · exact IsTrans.trans _ _ _ hbefore
        (IsTrans.trans _ _ _ hinsert (ordersKept_of_orders horders))
    · rw [hresult, horder]
      rfl

end OrderService

/-- A receipt spares the orders. -/
theorem InventoryService.receive_ordersKept (purchaseOrderId : Uuid) (command : Receipt) :
    (InventoryService.receive purchaseOrderId command).keeps (Database.Kept .orders f) := by
  intro D result D' h
  rcases InventoryService.receive_runs h with
    ⟨-, -, -, -, -, rfl⟩ | ⟨-, _, _, _, _, _, _, _, _, _, hD, -⟩
  · exact Std.Refl.refl _
  · refine ordersKept_of_orders ?_
    exact (hD.sameAfter .orders (by decide)).trans (hD.receiving.sameOff .orders (by decide))

namespace AutonomousOrchestrator

/-- The reconciliation changes the status of the order it has read, after the restock. -/
theorem reconcile_ordersKept (hf : Order.Settled f) {r : Return} {order : Order} {quantity : Int}
    {run : WorkflowRun} {outcome : WorkflowOutcome} {D D' : Db}
    (hget : D.orders.get order.id = some order)
    (h : (reconcile r order quantity run).runs D (.ok (outcome, D'))) :
    Database.Kept .orders f D D' := by
  obtain ⟨item, D₁, hquery, h₁⟩ := runs_bind_ok.mp h
  obtain ⟨rfl, rfl⟩ := Tx.runs_select.mp hquery
  obtain ⟨line, D₂, hrun₂, h₂⟩ := runs_bind_ok.mp h₁
  obtain ⟨-, rfl⟩ := Tx.runs_orThrow.mp hrun₂
  obtain ⟨_, D₃, hrun₃, h₃⟩ := runs_bind_ok.mp h₂
  obtain ⟨-, rfl⟩ := Tx.runs_require.mp hrun₃
  obtain ⟨_, D₄, hrun₄, h₄⟩ := runs_bind_ok.mp h₃
  obtain ⟨-, rfl⟩ := Tx.runs_require.mp hrun₄
  obtain ⟨_, D₅, hrestock, h₅⟩ := runs_bind_ok.mp h₄
  have hsame : Db.orders D₅ = D.orders := by
    unfold restock at hrestock
    split at hrestock
    · obtain ⟨_, D₆, hadjust, h₆⟩ := runs_bind_ok.mp hrestock
      cases h₆
      exact sameOff_of_runs InventoryService.adjust_confined hadjust .orders (by decide)
    · cases hrestock
      rfl
  obtain ⟨refunds, D₆, hquery₆, h₆⟩ := runs_bind_ok.mp h₅
  obtain ⟨rfl, rfl⟩ := Tx.runs_select.mp hquery₆
  obtain ⟨_, D₇, hrun₇, h₇⟩ := runs_bind_ok.mp h₆
  obtain ⟨-, rfl⟩ := Tx.runs_require.mp hrun₇
  obtain ⟨_, D₈, hrun₈, h₈⟩ := runs_bind_ok.mp h₇
  obtain ⟨-, rfl⟩ := Tx.runs_require.mp hrun₈
  extract_lets finish at h₈
  have hfinish : ∀ u, (finish u).keeps (Database.Kept .orders f) := by
    intro u
    have hreturn : (flush .returns r { r with status := .completed }).confined [.returns] :=
      Tx.confined_flush _ _ (by decide)
    refine keeps_bind (kept_of_confined hreturn (by decide)) fun _ => ?_
    exact keeps_bind (kept_of_confined addAudit_confined (by decide)) fun _ => keeps_done _
  refine IsTrans.trans _ _ _ (ordersKept_of_orders hsame) ?_
  split at h₈
  · obtain ⟨_, D₉, hupdate, h₉⟩ := runs_bind_ok.mp h₈
    refine IsTrans.trans _ _ _ ?_ (hfinish () _ _ _ h₉)
    refine OrderService.updateStatus_ordersKept hf (fun o ho => ?_) hupdate
    obtain rfl := Option.some.inj ho
    show Table.get (Db.orders _) _ = _
    rw [hsame]
    exact hget
  · exact hfinish () _ _ _ h₈

/-- The step of the workflow keeps them, for it reads the order before it reconciles. -/
theorem returnToReconciliation_ordersKept (hf : Order.Settled f) (event : EventEnvelope)
    (run : WorkflowRun) :
    (returnToReconciliation event run).keeps (Database.Kept .orders f) := by
  intro D outcome D' h
  unfold returnToReconciliation at h
  split at h
  · obtain ⟨found, D₁, hquery₁, h₁⟩ := runs_bind_ok.mp h
    obtain ⟨rfl, rfl⟩ := Tx.runs_select.mp hquery₁
    obtain ⟨found', D₂, hquery₂, h₂⟩ := runs_bind_ok.mp h₁
    obtain ⟨rfl, rfl⟩ := Tx.runs_select.mp hquery₂
    split at h₂
    · rename_i horder
      obtain ⟨_, D₃, hrun₃, h₃⟩ := runs_bind_ok.mp h₂
      obtain ⟨-, rfl⟩ := Tx.runs_require.mp hrun₃
      obtain ⟨_, D₄, hreconcile, h₄⟩ := runs_bind_ok.mp h₃
      cases h₄
      have hid := Table.key_of_get horder
      refine reconcile_ordersKept hf ?_ hreconcile
      exact (congrArg (Db.orders D).get hid).trans horder
    · exact nomatch h₂
  · exact nomatch h

end AutonomousOrchestrator

/-- **Every call on the warehouse keeps the orders on record.** -/
theorem StockCall.run_ordersKept [Digests] (hf : Order.Settled f) (policy : WorkflowExecutionPolicy)
    (call : StockCall) : (call.run policy).keeps (Database.Kept .orders f) := by
  have hengine : ∀ name definition,
      (AutonomousOrchestrator.returnEngine policy).definitions name = some definition →
        ∀ event run, (definition.step event run).keeps (Database.Kept .orders f) := by
    intro name definition h event run
    unfold AutonomousOrchestrator.returnEngine at h
    dsimp only at h
    split at h
    · obtain rfl := Option.some.inj h
      exact AutonomousOrchestrator.returnToReconciliation_ordersKept hf event run
    · exact nomatch h
  have helsewhere : ∀ D D', WorkflowEngine.SameElsewhere D D' → Database.Kept .orders f D D' :=
    fun D D' hD => ordersKept_of_orders (hD .orders (by decide))
  cases call with
  | receive purchaseOrderId command =>
    exact keeps_bind (InventoryService.receive_ordersKept _ _) fun _ => keeps_done ()
  | adjust inventoryItemId command =>
    exact keeps_bind (kept_of_confined InventoryService.adjust_confined (by decide))
      fun _ => keeps_done ()
  | ingest command =>
    exact keeps_bind (fun _ _ _ h => (OrderService.ingest_ordersKept h).1) fun _ => keeps_done ()
  | updateStatus orderId target actor reason =>
    refine keeps_bind (fun _ _ _ h => ?_) fun _ => keeps_done ()
    exact OrderService.updateStatus_ordersKept hf (by simp) h
  | handleReturn event now =>
    exact keeps_bind (WorkflowEngine.handleEvent_keeps helsewhere hengine _ event now)
      fun _ => keeps_done ()
  | resumeReturn workflowId now =>
    exact keeps_bind (WorkflowEngine.resume_keeps helsewhere hengine workflowId now)
      fun _ => keeps_done ()
  | retryReturns now limit =>
    exact keeps_bind (WorkflowEngine.retryDue_keeps helsewhere hengine now limit)
      fun _ => keeps_done ()

end Kept

/-- **Run lemma.**  An order ingested once is on record from then on, by induction on the calls. -/
theorem ordersKept_of_history [Digests] {policy : WorkflowExecutionPolicy} {D D' : Db}
    (h : History (StockCall.run policy) (fun _ _ => True) D D') : OrdersKept D D' := by
  induction h with
  | start => exact Std.Refl.refl _
  | commit _ _ hrun ih =>
    refine IsTrans.trans _ _ _ ih
      (StockCall.run_ordersKept (fun _ _ _ _ => rfl) policy _ _ _ _ hrun)

/-! ## What the warehouse does not touch -/

/-- The tables the calls on the warehouse write. -/
def StockCall.tables : List TableName :=
  [.inventoryItems, .inventoryMovements, .orders, .orderItems, .returns, .procurementRequests,
    .purchaseOrders, .workflowRuns, .domainEvents, .auditEvents]

section Frame

variable {i : TableName} (hi : i ∉ StockCall.tables)

include hi

namespace OrderService

/-- The second half of a status change writes the order, its run, an event and an entry; any other
    table is left alone. -/
theorem setStatus_leaves {order : Order} {target : OrderStatus} {actor reason : String} :
    (setStatus order target actor reason).leaves i :=
  Tx.leaves_of_confined setStatus_confined (mt (fun h => List.subset_def.mp (by decide) h) hi)

/-- A change of status leaves every table outside those of the warehouse alone, with the lines it
    settles. -/
theorem updateStatus_leaves {loaded : Option Order} {orderId : Uuid} {target : OrderStatus}
    {actor reason : String} : (updateStatus loaded orderId target actor reason).leaves i := by
  have hlines : i ∉ lineTables := mt (fun h => List.subset_def.mp (by decide) h) hi
  refine writes_bind ?_ fun order => ?_
  · refine writes_bind (writes_selectForUpdate _ _) fun found => ?_
    exact writes_bind Tx.leaves_orThrow fun _ => trivial
  refine writes_bind ?_ fun _ => ?_
  · unfold transitionOrder
    split_ifs <;> first | exact trivial | exact fun h => h
  split_ifs
  · exact trivial
  · exact writes_bind (Tx.leaves_of_spares (releaseOrder_spares hlines)) fun _ =>
      setStatus_leaves hi
  · exact writes_bind (Tx.leaves_of_spares (shipOrder_spares hlines)) fun _ => setStatus_leaves hi
  · exact setStatus_leaves hi

/-- An ingestion leaves every table outside those of the warehouse alone. -/
theorem ingest_leaves [Digests] {command : NormalizedMarketplaceOrder} :
    (ingest command).leaves i := by
  have hlines : i ∉ .orderItems :: lineTables := mt (fun h => List.subset_def.mp (by decide) h) hi
  have hne : ∀ j ∈ StockCall.tables, j ≠ i := fun j hj heq => hi (heq ▸ hj)
  refine writes_bind (writes_query _) fun existing => ?_
  cases existing with
  | some existing => exact writes_bind Tx.leaves_require fun _ => trivial
  | none =>
    refine writes_bind (writes_query _) fun eventOrder => ?_
    refine writes_bind Tx.leaves_require fun _ => ?_
    refine writes_bind (Tx.leaves_of_spares validate_spares) fun _ => ?_
    refine writes_bind (writes_answer _) fun workflowId => writes_bind (writes_answer _) fun _ => ?_
    refine writes_bind (Tx.leaves_add _ (hne _ (by decide))) fun workflow => ?_
    refine writes_bind (writes_answer _) fun orderId => writes_bind (writes_answer _) fun now => ?_
    refine writes_bind (Tx.leaves_add _ (hne _ (by decide))) fun order => ?_
    refine writes_bind (Tx.leaves_of_spares (addLines_spares hlines _)) fun _ => ?_
    refine writes_bind (Tx.leaves_of_spares (DatabaseEventStore.emit_spares ?_)) fun _ => ?_
    · exact (hne _ (by decide)).symm
    refine writes_bind (Tx.leaves_of_spares (audit_spares ?_)) fun _ => trivial
    exact (hne _ (by decide)).symm

end OrderService

/-- An adjustment leaves every table outside those of the warehouse alone. -/
theorem InventoryService.adjust_leaves {inventoryItemId : Uuid} {command : Adjustment} :
    (InventoryService.adjust inventoryItemId command).leaves i :=
  Tx.leaves_of_confined InventoryService.adjust_confined
    (mt (fun h => List.subset_def.mp (by decide) h) hi)

/-- A receipt leaves them alone.  It catches an exception on the way, so this is said of its runs
    and not of its writes. -/
theorem InventoryService.receive_sameTable {purchaseOrderId : Uuid} {command : Receipt} :
    (InventoryService.receive purchaseOrderId command).keeps (Db.SameTable i) := by
  intro D result D' h
  rcases InventoryService.receive_runs h with
    ⟨-, -, -, -, -, rfl⟩ | ⟨-, _, _, _, _, _, _, _, _, _, hD, -⟩
  · exact Std.Refl.refl _
  · have hne : ∀ j ∈ StockCall.tables, i ≠ j := fun j hj heq => hi (heq ▸ hj)
    have hafter := hD.sameAfter i (mt (fun h => List.subset_def.mp (by decide) h) hi)
    have hbefore := hD.receiving.sameOff i (hne _ (by decide))
    rw [Database.apply_table_of_ne _ _ (hne .inventoryMovements (by decide)),
      Database.apply_table_of_ne _ _ (hne .purchaseOrders (by decide)),
      Database.apply_table_of_ne _ _ (hne .inventoryItems (by decide))] at hafter
    exact hafter.trans hbefore

namespace AutonomousOrchestrator

/-- The reconciliation of a return leaves them alone: refunds are among them, and it only adds them
    up. -/
theorem returnToReconciliation_leaves {event : EventEnvelope} {run : WorkflowRun} :
    (returnToReconciliation event run).leaves i := by
  have hne : ∀ j ∈ StockCall.tables, j ≠ i := fun j hj heq => hi (heq ▸ hj)
  unfold returnToReconciliation
  split
  · refine writes_bind (writes_query _) fun returnRecord => ?_
    refine writes_bind (writes_query _) fun order => ?_
    split
    · refine writes_bind Tx.leaves_require fun _ => writes_bind ?_ fun _ => trivial
      refine writes_bind (writes_query _) fun orderItem => ?_
      refine writes_bind Tx.leaves_orThrow fun orderItem => ?_
      refine writes_bind Tx.leaves_require fun _ => writes_bind Tx.leaves_require fun _ => ?_
      refine writes_bind ?_ fun _ => ?_
      · unfold restock
        split
        · exact writes_bind (InventoryService.adjust_leaves hi) fun _ => trivial
        · exact trivial
      refine writes_bind (writes_query _) fun refunds => ?_
      refine writes_bind Tx.leaves_require fun _ => writes_bind Tx.leaves_require fun _ => ?_
      extract_lets finish
      have hfinish : ∀ u, (finish u).leaves i := by
        intro u
        refine writes_bind (Tx.leaves_flush _ _ (hne _ (by decide))) fun _ => ?_
        refine writes_bind (Tx.leaves_of_spares (addAudit_spares ?_)) fun _ => trivial
        exact (hne _ (by decide)).symm
      split
      · exact writes_bind (OrderService.updateStatus_leaves hi) fun _ => hfinish ()
      · exact hfinish ()
    · exact Tx.leaves_throw
  · exact Tx.leaves_throw

end AutonomousOrchestrator

/-- **Every call on the warehouse leaves the other tables alone.** -/
theorem StockCall.run_sameTable [Digests] (policy : WorkflowExecutionPolicy) (call : StockCall) :
    (call.run policy).keeps (Db.SameTable i) := by
  have hengine : ∀ name definition,
      (AutonomousOrchestrator.returnEngine policy).definitions name = some definition →
        ∀ event run, (definition.step event run).keeps (Db.SameTable i) := by
    intro name definition h event run
    unfold AutonomousOrchestrator.returnEngine at h
    dsimp only at h
    split at h
    · obtain rfl := Option.some.inj h
      exact Db.SameTable.of_leaves (AutonomousOrchestrator.returnToReconciliation_leaves hi)
    · exact nomatch h
  have helsewhere : ∀ D D', WorkflowEngine.SameElsewhere D D' → Db.SameTable i D D' :=
    fun D D' hD => hD i (mt (fun h => List.subset_def.mp (by decide) h) hi)
  cases call with
  | receive purchaseOrderId command =>
    exact keeps_bind (InventoryService.receive_sameTable hi) fun _ => keeps_done ()
  | adjust inventoryItemId command =>
    exact keeps_bind (Db.SameTable.of_leaves (InventoryService.adjust_leaves hi))
      fun _ => keeps_done ()
  | ingest command =>
    exact keeps_bind (Db.SameTable.of_leaves (OrderService.ingest_leaves hi)) fun _ => keeps_done ()
  | updateStatus orderId target actor reason =>
    exact keeps_bind (Db.SameTable.of_leaves (OrderService.updateStatus_leaves hi))
      fun _ => keeps_done ()
  | handleReturn event now =>
    exact keeps_bind (WorkflowEngine.handleEvent_keeps helsewhere hengine _ event now)
      fun _ => keeps_done ()
  | resumeReturn workflowId now =>
    exact keeps_bind (WorkflowEngine.resume_keeps helsewhere hengine workflowId now)
      fun _ => keeps_done ()
  | retryReturns now limit =>
    exact keeps_bind (WorkflowEngine.retryDue_keeps helsewhere hengine now limit)
      fun _ => keeps_done ()

end Frame

end CommerceOperations
