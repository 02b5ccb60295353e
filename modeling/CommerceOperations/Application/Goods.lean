/-
  Goods: which item is which product.

  The SKU, the place and the product of an item are set when a receipt creates it, and no call
  changes them afterwards (`SameGoods`).  A receipt compares the product of a delivery with the item
  stored at the same place only, while `_reserve` takes any item of the SKU.  So a second place can
  bring a second product under one SKU, and from then on an order may be given either.

  This file follows the products through a history of receipts, adjustments, orders and returns:

  * `SkuNamesOneProduct`   — the items of a SKU are one product;
  * `LinesAllocated`       — the item allocated to an order line is of the product the SKU was first
                             received for;
  * `StockCall.OfOneKind`  — a receipt that creates an item brings the product its SKU stands for.

  Most calls bring nothing new, whatever one looks at in an item besides its balances.  That is
  said once, for any such view `f` (`Steady`), and used again for the cost basis in `CostBasis`.
  What remains is the receipt, where the condition is exact.
-/
import CommerceOperations.Application.Receipts
import CommerceOperations.Application.Returns

namespace CommerceOperations

open Relational Prog AutonomousOrchestrator

/-! ## What is kept of an item -/

/-- What an item is, and where it lies. -/
def InventoryItem.goods (item : InventoryItem) : String × String × Uuid :=
  (item.sku, item.storageLocation, item.productId)

/-- The items are the same as far as `f` tells them, and no movement is lost. -/
structure SameItems {γ : Type} (f : InventoryItem → γ) (D D' : Db) : Prop where
  /-- every item, if there is one, looks the same to `f` -/
  item : ∀ i, (D'.inventoryItems.get i).map f = (D.inventoryItems.get i).map f
  /-- a movement on record stays -/
  movement : ∀ m ∈ D.inventoryMovements, m ∈ D'.inventoryMovements

/-- The items are the goods they were. -/
abbrev SameGoods := SameItems InventoryItem.goods

/-- `f` does not tell the balances of an item. -/
def Steady {γ : Type} (f : InventoryItem → γ) : Prop :=
  ∀ (item : InventoryItem) (version quantityOnHand reservedQuantity : Int),
    f { item with version, quantityOnHand, reservedQuantity } = f item

/-- The SKU, the place and the product are no balances. -/
theorem steady_goods : Steady InventoryItem.goods := fun _ _ _ _ => rfl

namespace SameItems

variable {γ : Type} {f : InventoryItem → γ} {D D' D'' : Db}

instance : Std.Refl (SameItems f) := ⟨fun _ => ⟨fun _ => rfl, fun _ h => h⟩⟩

instance : IsTrans Db (SameItems f) :=
  ⟨fun _ _ _ h h' => ⟨fun i => (h'.item i).trans (h.item i),
    fun m hm => h'.movement m (h.movement m hm)⟩⟩

/-- States with the same items and movements are the same for every view. -/
theorem of_tables (hitems : D'.inventoryItems = D.inventoryItems)
    (hmovements : D'.inventoryMovements = D.inventoryMovements) : SameItems f D D' := by
  refine ⟨fun i => ?_, fun m hm => ?_⟩
  · rw [hitems]
  · rw [hmovements]
    exact hm

/-- An item that is found is the one it was before. -/
theorem get (h : SameItems f D D') {i : Uuid} {item : InventoryItem}
    (hitem : D.inventoryItems.get i = some item) :
    ∃ item', D'.inventoryItems.get i = some item' ∧ f item' = f item := by
  have hi := h.item i
  rw [hitem] at hi
  exact Option.map_eq_some_iff.mp hi

/-- An item that is found afterwards was there before, and looks the same: no item comes in. -/
theorem get' (h : SameItems f D D') {i : Uuid} {item : InventoryItem}
    (hitem : D'.inventoryItems.get i = some item) :
    ∃ item', D.inventoryItems.get i = some item' ∧ f item' = f item := by
  have hi := h.item i
  rw [hitem] at hi
  exact Option.map_eq_some_iff.mp hi.symm

/-- An item is written with other figures that `f` does not tell. -/
theorem update {old new : InventoryItem} (hget : D.inventoryItems.get new.id = some old)
    (hs : D.inventoryItems.succeeds old new = true)
    (hc : D.inventoryItems.clashes old new = false) (hf : f new = f old) :
    SameItems f D (Database.apply ⟨.inventoryItems, .update old new⟩ D) := by
  refine ⟨fun i => ?_, fun m hm => hm⟩
  show ((D.inventoryItems.update old new).get i).map f = _
  rw [Table.get_update hs hc]
  split
  · rename_i hkey
    have hkey : new.id = i := hkey
    rw [← hkey, hget, Option.map_some, Option.map_some, hf]
  · rfl

/-- A movement is posted, which loses none. -/
theorem post {m : InventoryMovement} (hm : D.inventoryMovements.conflicts m = false) :
    SameItems f D (Database.apply ⟨.inventoryMovements, .insert m⟩ D) :=
  ⟨fun _ => rfl, fun _ hm' => (Table.mem_insert hm).mpr (Or.inl hm')⟩

end SameItems

/-- The items are the same as far as `f` tells them, and so are the order lines. -/
structure SameShelves {γ : Type} (f : InventoryItem → γ) (D D' : Db) : Prop where
  /-- the items look the same -/
  items : SameItems f D D'
  /-- and no line was written -/
  lines : D'.orderItems = D.orderItems

/-- The goods are the same, and so are the order lines. -/
abbrev SameStockroom := SameShelves InventoryItem.goods

namespace SameShelves

variable {γ : Type} {f : InventoryItem → γ} {D D' : Db}

instance : Std.Refl (SameShelves f) := ⟨fun D => ⟨Std.Refl.refl D, rfl⟩⟩

instance : IsTrans Db (SameShelves f) :=
  ⟨fun _ _ _ h h' => ⟨IsTrans.trans _ _ _ h.items h'.items, h'.lines.trans h.lines⟩⟩

/-- What only a workflow run writes of itself leaves the shelves alone. -/
theorem of_sameElsewhere (h : WorkflowEngine.SameElsewhere D D') : SameShelves f D D' :=
  ⟨SameItems.of_tables (h .inventoryItems (by decide)) (h .inventoryMovements (by decide)),
    h .orderItems (by decide)⟩

end SameShelves

/-- Every item is the goods it was, and no movement is lost; there may be new items. -/
structure GoodsKept (D D' : Db) : Prop where
  /-- an item on record stays, and stays what it is -/
  item : ∀ i item, D.inventoryItems.get i = some item →
    ∃ item', D'.inventoryItems.get i = some item' ∧ item'.goods = item.goods
  /-- a movement on record stays -/
  movement : ∀ m ∈ D.inventoryMovements, m ∈ D'.inventoryMovements

namespace GoodsKept

variable {D D' : Db}

instance : Std.Refl GoodsKept := ⟨fun _ => ⟨fun _ item h => ⟨item, h, rfl⟩, fun _ h => h⟩⟩

instance : IsTrans Db GoodsKept := by
  refine ⟨fun _ _ _ h h' => ⟨fun i item hitem => ?_, fun m hm => ?_⟩⟩
  · obtain ⟨item', hitem', hgoods⟩ := h.item i item hitem
    obtain ⟨item'', hitem'', hgoods'⟩ := h'.item i item' hitem'
    exact ⟨item'', hitem'', hgoods'.trans hgoods⟩
  · exact h'.movement m (h.movement m hm)

/-- In particular where the goods are the same. -/
theorem of_same (h : SameGoods D D') : GoodsKept D D' := ⟨fun _ _ => h.get, h.movement⟩

/-- An item comes in.  Its id was free, so no other item is replaced by it. -/
theorem insert {item : InventoryItem} (hitem : D.inventoryItems.conflicts item = false) :
    GoodsKept D (Database.apply ⟨.inventoryItems, .insert item⟩ D) := by
  refine ⟨fun i item' hitem' => ⟨item', ?_, rfl⟩, fun m hm => hm⟩
  refine (Table.get_insert hitem i).trans ?_
  rw [if_neg]
  · exact hitem'
  · rintro rfl
    have hnone := (Table.conflicts_eq_false.mp hitem item' (Table.mem_of_get hitem')).1
    exact hnone (Table.key_of_get hitem')

end GoodsKept

/-! ## Calls that bring nothing new -/

section Keeps

variable {γ : Type} {f : InventoryItem → γ}

/-- What writes neither items nor movements nor order lines leaves the shelves alone. -/
theorem keeps_of_otherTables {α : Type} {p : Tx α} {tables : List TableName}
    (h : p.confined tables) (hitems : TableName.inventoryItems ∉ tables)
    (hmovements : TableName.inventoryMovements ∉ tables)
    (hlines : TableName.orderItems ∉ tables) : p.keeps (SameShelves f) :=
  keeps_of_confined h fun _ _ hD =>
    ⟨SameItems.of_tables (hD _ hitems) (hD _ hmovements), hD _ hlines⟩

/-- An UPDATE that `f` does not tell leaves them alone as well. -/
theorem keeps_updateItem {k : Uuid} {cond : InventoryItem → Bool}
    {set : InventoryItem → InventoryItem} (hid : ∀ i, (set i).id = i.id)
    (hset : ∀ i v, f { set i with version := v } = f i) :
    (updateWhere .inventoryItems k cond set).keeps (SameShelves f) := by
  intro D row D' h
  rcases runs_updateWhere h with ⟨item, hitem, -, hclash, -, rfl⟩ | ⟨-, rfl⟩
  · have hitem : D.inventoryItems.get k = some item := hitem
    have hkey : item.id = k := Table.key_of_get hitem
    refine ⟨?_, rfl⟩
    refine SameItems.update ?_ (succeeds_nextVersion hitem (hid item) rfl)
      (clashes_nextVersion hclash) (hset item _)
    show D.inventoryItems.get (set item).id = some item
    rw [hid item, hkey]
    exact hitem
  · exact Std.Refl.refl _

/-- A new movement leaves the shelves alone, and loses no old one. -/
theorem keeps_addMovement (m : InventoryMovement) :
    (add .inventoryMovements m).keeps (SameShelves f) := by
  intro D row D' h
  obtain ⟨-, hconflicts, rfl⟩ := runs_insert.mp h
  exact ⟨SameItems.post hconflicts, rfl⟩

end Keeps

namespace OrderService

variable {γ : Type} {f : InventoryItem → γ}

/-- A settlement is such an UPDATE with a movement and its events. -/
theorem settleLine_keeps {order : Order} {line : OrderItem} {t : InventoryMovementType}
    {cond : InventoryItem → Bool} {set : InventoryItem → InventoryItem} {missing : String}
    {eventDelta : Int} (hid : ∀ i, (set i).id = i.id)
    (hset : ∀ i v, f { set i with version := v } = f i) :
    (settleLine order line t cond set missing eventDelta).keeps (SameShelves f) := by
  refine keeps_bind (keeps_query _) fun found => ?_
  refine keeps_bind (keeps_orThrow _ _ _) fun item => ?_
  refine keeps_bind (keeps_updateItem hid hset) fun result => ?_
  refine keeps_bind (keeps_orThrow _ _ _) fun _ => ?_
  refine keeps_bind (keeps_answer _) fun id => ?_
  refine keeps_bind (keeps_addMovement _) fun m => ?_
  refine keeps_bind (keeps_query _) fun found => ?_
  refine keeps_bind (keeps_orThrow _ _ _) fun item => ?_
  exact keeps_of_otherTables inventoryEvents_confined (by decide) (by decide) (by decide)

/-- Releasing a line changes reserved units only, and these are a balance. -/
theorem releaseLine_keeps (hf : Steady f) (order : Order) (line : OrderItem) :
    (releaseLine order line).keeps (SameShelves f) := by
  unfold releaseLine
  refine settleLine_keeps ?_ ?_
  · intro i
    rfl
  · intro i v
    exact hf i v _ _

/-- Shipping one changes reserved units and units on hand. -/
theorem shipLine_keeps (hf : Steady f) (order : Order) (line : OrderItem) :
    (shipLine order line).keeps (SameShelves f) := by
  unfold shipLine
  refine settleLine_keeps ?_ ?_
  · intro i
    rfl
  · intro i v
    exact hf i v _ _

/-- A loop over the lines keeps what each line keeps, by induction on the lines. -/
theorem forLines_keeps {settle : OrderItem → Tx Unit}
    (h : ∀ line, (settle line).keeps (SameShelves f)) :
    ∀ lines, (forLines settle lines).keeps (SameShelves f)
  | [] => keeps_done ()
  | line :: lines => keeps_bind (h line) fun _ => forLines_keeps h lines

/-- A change of status settles the lines or does nothing to them. -/
theorem updateStatus_keeps (hf : Steady f) {loaded : Option Order} {orderId : Uuid}
    {target : OrderStatus} {actor reason : String} :
    (updateStatus loaded orderId target actor reason).keeps (SameShelves f) := by
  have hset : ∀ order, (setStatus order target actor reason).keeps (SameShelves f) := fun order =>
    keeps_of_otherTables setStatus_confined (by decide) (by decide) (by decide)
  refine keeps_bind ?_ fun order => ?_
  · refine keeps_bind (keeps_selectForUpdate _) fun found => ?_
    exact keeps_bind (keeps_orThrow _ _ _) fun _ => keeps_done _
  refine keeps_bind ?_ fun _ => ?_
  · unfold transitionOrder
    split_ifs <;> first | exact keeps_done _ | exact keeps_raise _
  split_ifs
  · exact keeps_done _
  · refine keeps_bind (keeps_bind (keeps_query _) fun lines => ?_) fun _ => hset order
    exact forLines_keeps (releaseLine_keeps hf order) lines
  · refine keeps_bind (keeps_bind (keeps_query _) fun lines => ?_) fun _ => hset order
    exact forLines_keeps (shipLine_keeps hf order) lines
  · exact hset order

end OrderService

namespace InventoryService

variable {γ : Type} {f : InventoryItem → γ}

/-- An adjustment keeps what `f` tells, if the new cost basis is no part of it or stays the same. -/
theorem adjust_keeps (inventoryItemId : Uuid) (command : Adjustment)
    (hf : ∀ (item : InventoryItem) (version quantityOnHand : Int) (costBasis : Rat),
      (command.unitCost = none → costBasis = item.costBasis) →
        f { item with version, quantityOnHand, costBasis } = f item) :
    (adjust inventoryItemId command).keeps (SameShelves f) := by
  intro D result D' h
  rcases adjust_cases h with ⟨-, -, -, -, -, rfl⟩ | ⟨-, item, changed, hD, -⟩
  · exact Std.Refl.refl _
  · obtain ⟨hitems, hmovements, hlines⟩ := hD.stock
    obtain ⟨costBasis, hchanged⟩ := hD.changed_eq
    have hid : item.id = inventoryItemId := Table.key_of_get hD.item_get
    have hitem : D.inventoryItems.get changed.id = some item := by
      rw [hchanged]
      show D.inventoryItems.get item.id = some item
      rw [hid]
      exact hD.item_get
    have hsame : f changed = f item := by
      have hbasis := hD.basis_eq
      rw [hchanged] at hbasis ⊢
      refine hf item _ _ _ fun hnone => ?_
      rw [hnone] at hbasis
      exact hbasis
    have hupdate := SameItems.update hitem hD.changed_succeeds hD.changed_clashes hsame
    refine ⟨⟨fun i => ?_, fun m hm => ?_⟩, hlines⟩
    · rw [hitems]
      exact hupdate.item i
    · rw [hmovements]
      exact (Table.mem_insert hD.movement_conflicts).mpr (Or.inl hm)

section Received

variable {purchaseOrderId : Uuid} {command : Receipt} {purchaseOrder ordered : PurchaseOrder}
variable {procurement : ProcurementRequest} {quote : SupplierQuote} {workflow : WorkflowRun}
variable {item changed : InventoryItem} {movement : InventoryMovement} {D D₁ D₂ D' : Db}

/-- Once its item is there, a receipt brings nothing new: it only adds to the balances. -/
theorem Received.sameGoods (h : Received purchaseOrderId command purchaseOrder procurement quote
    workflow item changed ordered movement D D₁ D₂ D') : SameGoods D₁ D' := by
  obtain ⟨hitems, hmovements, -⟩ := h.stock
  obtain ⟨costBasis, hchanged⟩ := h.changed_eq
  have hitem : (Db.inventoryItems D₁).get changed.id = some item := by
    rw [hchanged]
    exact h.receiving.get
  have hgoods : changed.goods = item.goods := by rw [hchanged]; rfl
  have hupdate := SameItems.update hitem h.changed_succeeds h.changed_clashes hgoods
  have hmovements₁ : Db.inventoryMovements D₁ = D.inventoryMovements :=
    h.receiving.sameOff .inventoryMovements (by decide)
  refine ⟨fun i => ?_, fun m hm => ?_⟩
  · rw [hitems]
    exact hupdate.item i
  · have hconflicts := h.movement_conflicts
    rw [hmovements₁] at hm hconflicts
    rw [hmovements]
    exact (Table.mem_insert hconflicts).mpr (Or.inl hm)

/-- A receipt as a whole leaves every old item the goods it was. -/
theorem Received.goodsKept (h : Received purchaseOrderId command purchaseOrder procurement quote
    workflow item changed ordered movement D D₁ D₂ D') : GoodsKept D D' := by
  have hafter := GoodsKept.of_same h.sameGoods
  cases h.receiving with
  | stored _ _ _ _ hD =>
    rw [← hD]
    exact hafter
  | created id _ _ hconflicts hD =>
    rw [hD] at hafter
    exact IsTrans.trans _ _ _ (GoodsKept.insert hconflicts) hafter

end Received

/-- A call of `receive` keeps the goods, repetition or not. -/
theorem receive_keeps (purchaseOrderId : Uuid) (command : Receipt) :
    (receive purchaseOrderId command).keeps GoodsKept := by
  intro D result D' h
  rcases receive_runs h with ⟨-, -, -, -, -, rfl⟩ | ⟨-, _, _, _, _, _, _, _, _, _, hD, -⟩
  · exact Std.Refl.refl _
  · exact hD.goodsKept

end InventoryService

namespace AutonomousOrchestrator

variable {γ : Type} {f : InventoryItem → γ}

/-- A restock adds units to an item. -/
theorem restock_keeps (hf : Steady f) (r : Return) (line : OrderItem) :
    (restock r line).keeps (SameShelves f) := by
  unfold restock
  split
  · refine keeps_bind (InventoryService.adjust_keeps _ _ ?_) fun _ => keeps_done ()
    intro item version quantityOnHand costBasis hcost
    rw [hcost rfl]
    exact hf item version quantityOnHand item.reservedQuantity
  · exact keeps_done ()

/-- A reconciliation brings back what its restock brings back; around it only other tables are
    written. -/
theorem reconcile_restocks (hf : Steady f) {r : Return} {order : Order} {quantity : Int}
    {run : WorkflowRun} {outcome : WorkflowOutcome} {D D' : Db}
    (h : (reconcile r order quantity run).runs D (.ok (outcome, D'))) :
    ∃ line D₁ u, r.orderItemId.bind D.orderItems.get = some line ∧
      (restock r line).runs D (.ok (u, D₁)) ∧ SameShelves f D₁ D' := by
  obtain ⟨item, D₁, hquery, h₁⟩ := runs_bind_ok.mp h
  obtain ⟨rfl, rfl⟩ := Tx.runs_select.mp hquery
  obtain ⟨line, D₂, hrun₂, h₂⟩ := runs_bind_ok.mp h₁
  obtain ⟨hline, rfl⟩ := Tx.runs_orThrow.mp hrun₂
  obtain ⟨_, D₃, hrun₃, h₃⟩ := runs_bind_ok.mp h₂
  obtain ⟨-, rfl⟩ := Tx.runs_require.mp hrun₃
  obtain ⟨_, D₄, hrun₄, h₄⟩ := runs_bind_ok.mp h₃
  obtain ⟨-, rfl⟩ := Tx.runs_require.mp hrun₄
  obtain ⟨u, D₅, hrestock, h₅⟩ := runs_bind_ok.mp h₄
  refine ⟨line, D₅, u, ?_, hrestock, ?_⟩
  · split at hline
    · exact hline
    · cases hline
  · refine keeps_bind (keeps_query _) (fun refunds => ?_) D₅ outcome D' h₅
    refine keeps_bind (keeps_require _ _ _) fun _ => ?_
    refine keeps_bind (keeps_require _ _ _) fun _ => ?_
    extract_lets finish
    have hfinish : ∀ u, (finish u).keeps (SameShelves f) := by
      intro u
      have hreturn : (flush .returns r { r with status := .completed }).confined [.returns] :=
        Tx.confined_flush _ _ (by decide)
      refine keeps_bind (keeps_of_otherTables hreturn (by decide) (by decide) (by decide))
        fun _ => ?_
      refine keeps_bind ?_ fun _ => keeps_done _
      exact keeps_of_otherTables addAudit_confined (by decide) (by decide) (by decide)
    split
    · exact keeps_bind (OrderService.updateStatus_keeps hf) fun _ => hfinish ()
    · exact hfinish ()

/-- A reconciliation keeps the shelves. -/
theorem reconcile_keeps (hf : Steady f) (r : Return) (order : Order) (quantity : Int)
    (run : WorkflowRun) : (reconcile r order quantity run).keeps (SameShelves f) := by
  intro D outcome D' h
  obtain ⟨line, D₁, u, -, hrestock, hrest⟩ := reconcile_restocks hf h
  exact IsTrans.trans _ _ _ (restock_keeps hf r line D u D₁ hrestock) hrest

/-- The workflow step that runs a reconciliation keeps them as well. -/
theorem returnToReconciliation_keeps (hf : Steady f) (event : EventEnvelope) (run : WorkflowRun) :
    (returnToReconciliation event run).keeps (SameShelves f) := by
  unfold returnToReconciliation
  split
  · refine keeps_bind (keeps_query _) fun found => ?_
    refine keeps_bind (keeps_query _) fun found' => ?_
    split
    · refine keeps_bind (keeps_require _ _ _) fun _ => ?_
      exact keeps_bind (reconcile_keeps hf _ _ _ _) fun _ => keeps_done _
    · exact keeps_raise _
  · exact keeps_raise _

end AutonomousOrchestrator

/-! ## Order lines -/

/-- The item of each order line is of the line's SKU. -/
def Db.LinesNamed (D : Db) : Prop :=
  ∀ line ∈ D.orderItems, ∃ item, D.inventoryItems.get line.inventoryItemId = some item ∧
    item.sku = line.sku

/-- An item keeps its SKU with its goods. -/
theorem SameItems.sku {D D' : Db} (h : SameItems InventoryItem.goods D D') {i : Uuid} {sku : String}
    (hi : ∃ item, D.inventoryItems.get i = some item ∧ item.sku = sku) :
    ∃ item, D'.inventoryItems.get i = some item ∧ item.sku = sku := by
  obtain ⟨item, hitem, hsku⟩ := hi
  obtain ⟨item', hitem', hgoods⟩ := h.get hitem
  exact ⟨item', hitem', (congrArg Prod.fst hgoods).trans hsku⟩

/-- Lines that name items of their SKU go on doing so. -/
theorem Db.LinesNamed.same {D D' : Db} (h : D.LinesNamed) (hD : SameStockroom D D') :
    D'.LinesNamed := by
  intro line hline
  rw [hD.lines] at hline
  exact hD.items.sku (h line hline)

namespace OrderService

section Reserve

variable {γ : Type} {f : InventoryItem → γ} {sku externalLineId : String} {quantity : Int}
variable {order : Order} {correlationId : Uuid} {item : InventoryItem} {D D' : Db}

/-- A reservation brings nothing new, by induction on the candidates. -/
theorem reserveFrom_keeps (hf : Steady f) : ∀ ids,
    (reserveFrom sku quantity order externalLineId correlationId ids).keeps (SameShelves f)
  | [] => keeps_raise _
  | i :: rest => by
    refine keeps_bind (keeps_query _) fun before => ?_
    refine keeps_bind (keeps_updateItem ?_ ?_) fun reserved => ?_
    · intro item
      rfl
    · intro item v
      exact hf item v _ _
    cases reserved with
    | none => exact reserveFrom_keeps hf rest
    | some row =>
      refine keeps_bind (keeps_query _) fun found => ?_
      refine keeps_bind (keeps_orThrow _ _ _) fun item => ?_
      refine keeps_bind (keeps_answer _) fun id => ?_
      refine keeps_bind (keeps_addMovement _) fun movement => ?_
      refine keeps_bind ?_ fun _ => keeps_done item
      exact keeps_of_otherTables inventoryEvents_confined (by decide) (by decide) (by decide)

/-- A reservation keeps the shelves, the query for the candidates included. -/
theorem reserve_keeps (hf : Steady f) :
    (reserve sku quantity order externalLineId correlationId).keeps (SameShelves f) :=
  keeps_bind (keeps_query _) fun _ => reserveFrom_keeps hf _

/-- What is reserved is one of the candidates. -/
theorem reserveFrom_runs {ids : List Uuid}
    (h : (reserveFrom sku quantity order externalLineId correlationId ids).runs D
      (.ok (item, D'))) : item.id ∈ ids := by
  induction ids generalizing D with
  | nil => exact nomatch h
  | cons i rest ih =>
    obtain ⟨before, D₁, hselect, h₁⟩ := runs_bind_ok.mp h
    obtain ⟨reserved, D₂, hupdate, h₂⟩ := runs_bind_ok.mp h₁
    cases reserved with
    | none => exact List.mem_cons_of_mem _ (ih h₂)
    | some row =>
      obtain ⟨found, D₃, hselect₁, h₃⟩ := runs_bind_ok.mp h₂
      obtain ⟨hfound, rfl⟩ := Tx.runs_select.mp hselect₁
      obtain ⟨item₁, D₄, hthrow, h₄⟩ := runs_bind_ok.mp h₃
      obtain ⟨hitem₁, rfl⟩ := Tx.runs_orThrow.mp hthrow
      obtain ⟨id, D₅, -, h₅⟩ := runs_bind_ok.mp h₄
      obtain ⟨movement, D₆, -, h₆⟩ := runs_bind_ok.mp h₅
      obtain ⟨_, D₇, -, h₇⟩ := runs_bind_ok.mp h₆
      cases h₇
      have hid : item.id = i := Table.key_of_get (hfound.symm.trans hitem₁)
      rw [hid]
      exact List.mem_cons_self

/-- What is reserved is an item of the SKU. -/
theorem reserve_runs
    (h : (reserve sku quantity order externalLineId correlationId).runs D (.ok (item, D'))) :
    ∃ item', D.inventoryItems.get item.id = some item' ∧ item'.sku = sku := by
  obtain ⟨found, D₁, hselect, h₁⟩ := runs_bind_ok.mp h
  obtain ⟨hfound, rfl⟩ := Tx.runs_select.mp hselect
  obtain ⟨item', hitem', hid⟩ := List.mem_map.mp (reserveFrom_runs h₁)
  rw [hfound, candidates, List.mem_insertionSort] at hitem'
  obtain ⟨hmem, hsku⟩ := List.mem_filter.mp hitem'
  rw [← hid]
  exact ⟨item', Table.get_of_mem hmem, by simpa using hsku⟩

/-- A row for a line leaves the items as they are. -/
theorem addLine_keeps (line : OrderItem) : (add .orderItems line).keeps (SameItems f) := by
  intro D row D' h
  obtain ⟨-, -, rfl⟩ := runs_insert.mp h
  exact SameItems.of_tables rfl rfl

/-- The loop over the lines leaves the items as they are, by induction on the lines. -/
theorem addLines_keeps (hf : Steady f) :
    ∀ lines, (addLines order correlationId lines).keeps (SameItems f)
  | [] => keeps_done ()
  | line :: rest => by
    refine keeps_bind (keeps_mono (reserve_keeps hf) fun _ _ h => h.items) fun inventory => ?_
    refine keeps_bind (keeps_answer _) fun id => ?_
    exact keeps_bind (addLine_keeps _) fun _ => addLines_keeps hf rest

/-- The lines of an order name items of their SKUs, by induction on the lines that are left. -/
theorem addLines_runs {lines : List NormalizedOrderItem} {u : Unit} (hnamed : D.LinesNamed)
    (h : (addLines order correlationId lines).runs D (.ok (u, D'))) : D'.LinesNamed := by
  induction lines generalizing D with
  | nil =>
    cases h
    exact hnamed
  | cons line rest ih =>
    obtain ⟨inventory, D₁, hreserve, h₁⟩ := runs_bind_ok.mp h
    have hsame : SameStockroom D D₁ := reserve_keeps steady_goods D inventory D₁ hreserve
    obtain ⟨id, D₂, ⟨env, henv⟩, h₂⟩ := runs_bind_ok.mp h₁
    cases henv
    obtain ⟨row, D₃, hadd, h₃⟩ := runs_bind_ok.mp h₂
    obtain ⟨hrow, hconflicts, rfl⟩ := runs_insert.mp hadd
    refine ih ?_ h₃
    intro line' hline'
    rcases (Table.mem_insert hconflicts).mp hline' with hline' | rfl
    · exact hnamed.same hsame line' hline'
    · exact hsame.items.sku (reserve_runs hreserve)

end Reserve

/-! ### Ingestion -/

section Ingest

variable [Digests] {command : NormalizedMarketplaceOrder} {γ : Type} {f : InventoryItem → γ}

omit [Digests] in
/-- The validation of an order writes nothing. -/
theorem validate_keeps {Rel : Db → Db → Prop} [Std.Refl Rel] [IsTrans Db Rel] :
    (validate command).keeps Rel :=
  keeps_bind (keeps_require _ _ _) fun _ =>
    keeps_bind (keeps_require _ _ _) fun _ => keeps_require _ _ _

omit [Digests] in
/-- A row of a table that is no part of the stockroom leaves it alone. -/
theorem keeps_addElsewhere {i : TableName} (row : i.Entity)
    (hi : i ∉ [TableName.inventoryItems, .inventoryMovements, .orderItems]) :
    (add i row).keeps (SameShelves f) := by
  have hconfined : (add i row).confined [i] := Tx.confined_add row (by simp)
  have hne : ∀ j ∈ [TableName.inventoryItems, .inventoryMovements, .orderItems], j ∉ [i] := by
    intro j hj hji
    rw [List.mem_singleton] at hji
    exact hi (hji ▸ hj)
  exact keeps_of_otherTables hconfined (hne _ (by decide)) (hne _ (by decide))
    (hne _ (by decide))

/-- What an ingestion does around its lines concerns other tables. -/
theorem ingestNew_runs {result : OrderIngestionResult} {D D' : Db}
    (h : (ingestNew command).runs D (.ok (result, D'))) :
    ∃ order correlationId D₁ D₂ u, SameShelves f D D₁ ∧
      (addLines order correlationId command.items).runs D₁ (.ok (u, D₂)) ∧
        SameShelves f D₂ D' := by
  obtain ⟨_, D₁, hvalidate, h₁⟩ := runs_bind_ok.mp h
  obtain ⟨workflowId, D₂, ⟨env₁, henv₁⟩, h₂⟩ := runs_bind_ok.mp h₁
  cases henv₁
  obtain ⟨createdAt, D₃, ⟨env₂, henv₂⟩, h₃⟩ := runs_bind_ok.mp h₂
  cases henv₂
  obtain ⟨workflow, D₄, haddRun, h₄⟩ := runs_bind_ok.mp h₃
  obtain ⟨orderId, D₅, ⟨env₃, henv₃⟩, h₅⟩ := runs_bind_ok.mp h₄
  cases henv₃
  obtain ⟨now, D₆, ⟨env₄, henv₄⟩, h₆⟩ := runs_bind_ok.mp h₅
  cases henv₄
  obtain ⟨order, D₇, haddOrder, h₇⟩ := runs_bind_ok.mp h₆
  obtain ⟨u, D₈, hlines, h₈⟩ := runs_bind_ok.mp h₇
  have hbefore : SameShelves f D D₇ := by
    have hvalid : SameShelves f D _ := validate_keeps D _ _ hvalidate
    have hrun : SameShelves f _ _ := keeps_addElsewhere _ (by decide) _ _ _ haddRun
    have horder : SameShelves f _ _ := keeps_addElsewhere _ (by decide) _ _ _ haddOrder
    exact IsTrans.trans _ _ _ hvalid (IsTrans.trans _ _ _ hrun horder)
  obtain ⟨event, D₉, hemit, h₉⟩ := runs_bind_ok.mp h₈
  obtain ⟨_, D₁₀, haudit, h₁₀⟩ := runs_bind_ok.mp h₉
  cases h₁₀
  have hemit' : SameShelves f _ _ :=
    keeps_of_otherTables DatabaseEventStore.emit_confined (by decide) (by decide)
    (by decide) _ _ _ hemit
  have haudit' : SameShelves f _ _ :=
    keeps_of_otherTables audit_confined (by decide) (by decide) (by decide) _ _ _
    haudit
  exact ⟨order, _, D₇, D₈, u, hbefore, hlines, IsTrans.trans _ _ _ hemit' haudit'⟩

/-- An ingestion brings no new item. -/
theorem ingest_keeps (hf : Steady f) : (ingest command).keeps (SameItems f) := by
  have hnew : (ingestNew command).keeps (SameItems f) := by
    intro D result D' h
    obtain ⟨order, correlationId, D₁, D₂, u, hbefore, hlines, hafter⟩ := ingestNew_runs h
    exact IsTrans.trans _ _ _ hbefore.items
      (IsTrans.trans _ _ _ (addLines_keeps hf _ D₁ u D₂ hlines) hafter.items)
  refine keeps_bind (keeps_query _) fun existing => ?_
  cases existing with
  | some order => exact keeps_bind (keeps_require _ _ _) fun _ => keeps_done _
  | none =>
    refine keeps_bind (keeps_query _) fun eventOrder => ?_
    exact keeps_bind (keeps_require _ _ _) fun _ => hnew

/-- After an ingestion the lines name items of their SKUs, if they did before. -/
theorem ingest_linesNamed {result : OrderIngestionResult} {D D' : Db} (hnamed : D.LinesNamed)
    (h : (ingest command).runs D (.ok (result, D'))) : D'.LinesNamed := by
  obtain ⟨existing, D₁, hselect, h₁⟩ := runs_bind_ok.mp h
  obtain ⟨-, rfl⟩ := Tx.runs_select.mp hselect
  cases existing with
  | some order =>
    obtain ⟨_, D₂, hcheck, h₂⟩ := runs_bind_ok.mp h₁
    obtain ⟨-, rfl⟩ := Tx.runs_require.mp hcheck
    cases h₂
    exact hnamed
  | none =>
    obtain ⟨eventOrder, D₂, hselect₁, h₂⟩ := runs_bind_ok.mp h₁
    obtain ⟨-, rfl⟩ := Tx.runs_select.mp hselect₁
    obtain ⟨_, D₃, hcheck, h₃⟩ := runs_bind_ok.mp h₂
    obtain ⟨-, rfl⟩ := Tx.runs_require.mp hcheck
    obtain ⟨order, correlationId, E₁, E₂, u, hbefore, hlines, hafter⟩ := ingestNew_runs h₃
    exact (addLines_runs (hnamed.same hbefore) hlines).same hafter

end Ingest

end OrderService

/-! ## The products of a SKU -/

/-- The items of a SKU are one product. -/
def SkuNamesOneProduct (D : Db) : Prop :=
  ∀ i ∈ D.inventoryItems, ∀ j ∈ D.inventoryItems, i.sku = j.sku → i.productId = j.productId

/-- The item the SKU was first received into. -/
def Db.firstReceived (D : Db) (sku : String) : Option InventoryItem :=
  D.inventoryItems.rows.find? fun i => i.sku = sku

/-- The item allocated to a line is of the product its SKU was first received for. -/
def LinesAllocated (D : Db) : Prop :=
  ∀ line ∈ D.orderItems, ∃ item first, D.inventoryItems.get line.inventoryItemId = some item ∧
    item.sku = line.sku ∧ D.firstReceived line.sku = some first ∧
    item.productId = first.productId

/-- A receipt that creates an item finds every item of its SKU to be the product it brings. -/
def StockCall.OfOneKind : StockCall → Db → Prop
  | .receive purchaseOrderId command, D =>
    ∀ purchaseOrder procurement, D.purchaseOrders.get purchaseOrderId = some purchaseOrder →
      D.procurementRequests.get purchaseOrder.procurementRequestId = some procurement →
      (∀ m ∈ D.inventoryMovements, m.idempotencyKey ≠ command.idempotencyKey) →
      (∀ i ∈ D.inventoryItems,
        ¬(i.sku = command.sku ∧ i.storageLocation = command.storageLocation)) →
      ∀ i ∈ D.inventoryItems, i.sku = command.sku → i.productId = procurement.productId
  | _, _ => True

section Products

variable {D D' : Db}

/-- Where the goods are the same, every item is an old one. -/
theorem SameItems.mem (h : SameItems InventoryItem.goods D D') {i : InventoryItem}
    (hi : i ∈ D'.inventoryItems) :
    ∃ j ∈ D.inventoryItems, j.goods = i.goods := by
  obtain ⟨j, hj, hgoods⟩ := h.get' (Table.get_of_mem hi)
  exact ⟨j, Table.mem_of_get hj, hgoods⟩

/-- Where the goods are the same, every old item is still there. -/
theorem SameItems.symm_mem (h : SameItems InventoryItem.goods D D') {i : InventoryItem}
    (hi : i ∈ D.inventoryItems) :
    ∃ j ∈ D'.inventoryItems, j.goods = i.goods := by
  obtain ⟨j, hj, hgoods⟩ := h.get (Table.get_of_mem hi)
  exact ⟨j, Table.mem_of_get hj, hgoods⟩

/-- Whether a SKU names one product is read off the goods, so it is no concern of any call that
    brings none. -/
theorem SkuNamesOneProduct.of_goods (h : SkuNamesOneProduct D)
    (hD : ∀ i ∈ D'.inventoryItems, ∃ j ∈ D.inventoryItems, j.goods = i.goods) :
    SkuNamesOneProduct D' := by
  intro i hi j hj hsku
  obtain ⟨i', hi', hgoodsi⟩ := hD i hi
  obtain ⟨j', hj', hgoodsj⟩ := hD j hj
  simp only [InventoryItem.goods, Prod.mk.injEq] at hgoodsi hgoodsj
  have hproduct := h i' hi' j' hj' (by rw [hgoodsi.1, hgoodsj.1, hsku])
  rw [← hgoodsi.2.2, ← hgoodsj.2.2, hproduct]

/-- Where the goods are the same, a SKU names one product in both states or in neither. -/
theorem SameItems.skuNamesOneProduct_iff (hD : SameItems InventoryItem.goods D D') :
    SkuNamesOneProduct D' ↔ SkuNamesOneProduct D :=
  ⟨fun h => h.of_goods fun _ hi => hD.symm_mem hi, fun h => h.of_goods fun _ hi => hD.mem hi⟩

/-- With a further item a SKU names one product exactly if the item is the product of its SKU. -/
theorem skuNamesOneProduct_insert (h : SkuNamesOneProduct D) {item : InventoryItem}
    (hitem : D.inventoryItems.conflicts item = false) :
    SkuNamesOneProduct (Database.apply ⟨.inventoryItems, .insert item⟩ D) ↔
      ∀ i ∈ D.inventoryItems, i.sku = item.sku → i.productId = item.productId := by
  have hmem : ∀ i, i ∈ Db.inventoryItems (Database.apply ⟨.inventoryItems, .insert item⟩ D) ↔
      i ∈ D.inventoryItems ∨ i = item := fun i => Table.mem_insert hitem
  constructor
  · intro hone i hi hsku
    exact hone i ((hmem i).mpr (Or.inl hi)) item ((hmem item).mpr (Or.inr rfl)) hsku
  · intro hkind i hi j hj hsku
    rcases (hmem i).mp hi with hi' | rfl
    · rcases (hmem j).mp hj with hj' | rfl
      · exact h i hi' j hj' hsku
      · exact hkind i hi' hsku
    · rcases (hmem j).mp hj with hj' | rfl
      · exact (hkind j hj' hsku.symm).symm
      · rfl

/-- **A receipt keeps a SKU one product** exactly if it brings the product of its SKU. -/
theorem receive_skuNamesOneProduct (h : SkuNamesOneProduct D) {purchaseOrderId : Uuid}
    {command : Receipt} {result : InventoryChangeResult}
    (hrun : (InventoryService.receive purchaseOrderId command).runs D (.ok (result, D'))) :
    SkuNamesOneProduct D' ↔ (StockCall.receive purchaseOrderId command).OfOneKind D := by
  rcases InventoryService.receive_runs hrun with ⟨hmem, hkey, -, -, -, rfl⟩ |
    ⟨hfresh, purchaseOrder, procurement, quote, workflow, item, changed, ordered, D₁, D₂, hD, -⟩
  · exact iff_of_true h fun _ _ _ _ hfresh => absurd hkey (hfresh _ hmem)
  rw [hD.sameGoods.skuNamesOneProduct_iff]
  have hkind : ∀ p r, D.purchaseOrders.get purchaseOrderId = some p →
      D.procurementRequests.get p.procurementRequestId = some r → r = procurement := by
    intro p r hp hr
    obtain rfl := Option.some.inj (hp.symm.trans hD.purchaseOrder_get)
    exact Option.some.inj (hr.symm.trans hD.procurement_get)
  cases hD.receiving with
  | stored hget hplace _ _ hD₁ =>
    -- the place is taken, so no item is created
    rw [hD₁]
    exact iff_of_true h fun _ _ _ _ _ hnone =>
      absurd hplace (hnone item (Table.mem_of_get hget))
  | created id hitem hnone hconflicts hD₁ =>
    have hsku : item.sku = command.sku := by rw [hitem]
    have hproduct : item.productId = procurement.productId := by rw [hitem]
    rw [hD₁, skuNamesOneProduct_insert h hconflicts, hsku, hproduct]
    constructor
    · intro hone p r hp hr _ _ i hi hisku
      rw [hkind p r hp hr]
      exact hone i hi hisku
    · exact fun hone => hone purchaseOrder procurement hD.purchaseOrder_get hD.procurement_get
        hfresh hnone

end Products

/-! ## Histories of goods -/

section Histories

variable [Digests] {policy : WorkflowExecutionPolicy} {D D' D₀ : Db}

omit [Digests] in
/-- The workflows of the engine leave the stockroom as it is. -/
theorem returnEngine_sameStockroom (name : String) (definition : WorkflowDefinition)
    (h : (returnEngine policy).definitions name = some definition) (event : EventEnvelope)
    (run : WorkflowRun) : (definition.step event run).keeps SameStockroom := by
  rw [returnEngine_step h]
  exact returnToReconciliation_keeps steady_goods event run

/-- **A call keeps each SKU one product** exactly if it is of one kind, and the lines named. -/
theorem StockCall.run_skuNamesOneProduct (c : StockCall) (h : SkuNamesOneProduct D)
    (hnamed : D.LinesNamed) {u : Unit} (hrun : (c.run policy).runs D (.ok (u, D'))) :
    (SkuNamesOneProduct D' ↔ c.OfOneKind D) ∧ D'.LinesNamed := by
  have hsame : SameStockroom D D' → (SkuNamesOneProduct D' ↔ True) ∧ D'.LinesNamed :=
    fun hD => ⟨iff_of_true (hD.items.skuNamesOneProduct_iff.mpr h) trivial, hnamed.same hD⟩
  have helsewhere : ∀ D D' : Db, WorkflowEngine.SameElsewhere D D' → SameStockroom D D' :=
    fun D D' hD => SameShelves.of_sameElsewhere hD
  cases c with
  | receive purchaseOrderId command =>
    obtain ⟨result, D₁, hreceive, hrest⟩ := runs_bind_ok.mp hrun
    cases hrest
    refine ⟨receive_skuNamesOneProduct h hreceive, fun line hline => ?_⟩
    -- a receipt adds no line, and the items of the lines keep their SKU
    have hlines : D'.orderItems = D.orderItems := by
      rcases InventoryService.receive_runs hreceive with ⟨-, -, -, -, -, rfl⟩ |
        ⟨-, _, _, _, _, _, _, _, _, _, hD, -⟩
      · rfl
      · exact hD.stock.2.2
    rw [hlines] at hline
    obtain ⟨item, hitem, hsku⟩ := hnamed line hline
    have hkept := InventoryService.receive_keeps purchaseOrderId command D result D' hreceive
    obtain ⟨item', hitem', hgoods⟩ := hkept.item _ item hitem
    exact ⟨item', hitem', (congrArg Prod.fst hgoods).trans hsku⟩
  | adjust inventoryItemId command =>
    obtain ⟨result, D₁, hadjust, hrest⟩ := runs_bind_ok.mp hrun
    cases hrest
    exact hsame (InventoryService.adjust_keeps _ _ (fun _ _ _ _ _ => rfl) D result D' hadjust)
  | ingest command =>
    obtain ⟨result, D₁, hingest, hrest⟩ := runs_bind_ok.mp hrun
    cases hrest
    have hgoods : SameGoods D D' := OrderService.ingest_keeps steady_goods D result D' hingest
    exact ⟨iff_of_true (hgoods.skuNamesOneProduct_iff.mpr h) trivial,
      OrderService.ingest_linesNamed hnamed hingest⟩
  | updateStatus orderId target actor reason =>
    obtain ⟨order, D₁, hupdate, hrest⟩ := runs_bind_ok.mp hrun
    cases hrest
    exact hsame (OrderService.updateStatus_keeps steady_goods D order D' hupdate)
  | handleReturn event now =>
    obtain ⟨run, D₁, hdeliver, hrest⟩ := runs_bind_ok.mp hrun
    cases hrest
    exact hsame (WorkflowEngine.handleEvent_keeps helsewhere returnEngine_sameStockroom _ event
      now D run D' hdeliver)
  | resumeReturn workflowId now =>
    obtain ⟨run, D₁, hresume, hrest⟩ := runs_bind_ok.mp hrun
    cases hrest
    exact hsame (WorkflowEngine.resume_keeps helsewhere returnEngine_sameStockroom workflowId now D
      run D' hresume)
  | retryReturns now limit =>
    obtain ⟨runs, D₁, hretry, hrest⟩ := runs_bind_ok.mp hrun
    cases hrest
    exact hsame (WorkflowEngine.retryDue_keeps helsewhere returnEngine_sameStockroom now limit D
      runs D' hretry)

omit [Digests] in
/-- A named line is allocated what its SKU stands for. -/
theorem SkuNamesOneProduct.allocated (h : SkuNamesOneProduct D) (hnamed : D.LinesNamed) :
    LinesAllocated D := by
  intro line hline
  obtain ⟨item, hitem, hsku⟩ := hnamed line hline
  have hmem : item ∈ D.inventoryItems := Table.mem_of_get hitem
  cases hfirst : D.firstReceived line.sku with
  | none =>
    have hnone := List.find?_eq_none.mp hfirst item hmem
    exact absurd hsku (by simpa using hnone)
  | some first =>
    have hfirstSku : first.sku = line.sku := by simpa using List.find?_some hfirst
    refine ⟨item, first, hitem, hsku, rfl, ?_⟩
    exact h item hmem first (List.mem_of_find?_eq_some hfirst) (hsku.trans hfirstSku.symm)

/-- **A SKU names one product**, in every history whose receipts bring the product of their SKU:
    its items are one product, and the item allocated to a line is of the product the SKU was first
    received for.  The next call leaves it so exactly if it is of one kind as well. -/
theorem sku_names_one_product (h₀ : EmptyInventory D₀)
    (h : History (StockCall.run policy) StockCall.OfOneKind D₀ D) :
    SkuNamesOneProduct D ∧ LinesAllocated D ∧
      ∀ c u D', (StockCall.run policy c).runs D (.ok (u, D')) →
        (SkuNamesOneProduct D' ↔ c.OfOneKind D) := by
  have hinv : SkuNamesOneProduct D ∧ D.LinesNamed := by
    refine h.inv (P := fun D => SkuNamesOneProduct D ∧ D.LinesNamed) ⟨?_, ?_⟩ ?_
    · intro i hi
      rw [h₀.items] at hi
      exact absurd hi (Table.not_mem_empty i)
    · intro line hline
      rw [h₀.lines] at hline
      exact absurd hline (Table.not_mem_empty line)
    · rintro c D u D' ⟨hone, hnamed⟩ hkind hrun
      obtain ⟨hiff, hnamed'⟩ := c.run_skuNamesOneProduct hone hnamed hrun
      exact ⟨hiff.mpr hkind, hnamed'⟩
  obtain ⟨hone, hnamed⟩ := hinv
  exact ⟨hone, hone.allocated hnamed, fun c u D' hrun =>
    (c.run_skuNamesOneProduct hone hnamed hrun).1⟩

end Histories

/-! ## Deliveries of two products -/

/-- A second purchase order is on its way, for another product. -/
def twoProductsDb : Db where
  table
    | .supplierQuotes => sampleDb.supplierQuotes.insert
        { id := Uuid.ofNat 11, version := 1, productId := Uuid.ofNat 12, supplierId := Uuid.ofNat 3
          externalQuoteId := "Q-2", currency := "GBP", moq := 1, unitCost := 7, shippingCost := 0 }
    | .procurementRequests => sampleDb.procurementRequests.insert
        { id := Uuid.ofNat 14, version := 1, productId := Uuid.ofNat 12
          selectedQuoteId := Uuid.ofNat 11, workflowRunId := some (Uuid.ofNat 15)
          requestedQuantity := 5, recommendedSellingPrice := none, createdAt := 0
          expectedArrivalAt := none, status := .shipped }
    | .purchaseOrders => sampleDb.purchaseOrders.insert
        { id := Uuid.ofNat 16, version := 1, procurementRequestId := Uuid.ofNat 14
          supplierId := Uuid.ofNat 3, poNumber := "PO-2", quantity := 5, receivedQuantity := 0
          totalAmount := 35, actualLandedCost := none, currency := "GBP", terms := .object []
          externalReference := none, status := .shipped, orderedAt := none, shippedAt := none
          receivedAt := none, expectedArrivalAt := none }
    | .workflowRuns => sampleDb.workflowRuns.insert
        { id := Uuid.ofNat 15, version := 1, createdAt := 0, workflowName := "procurement"
          workflowVersion := 1, correlationId := Uuid.ofNat 17, sourceEventId := none
          idempotencyKey := none, status := .running, currentStep := none, attempts := 0
          nextRetryAt := none, error := none, checkpoints := .object [], maxAttempts := 3
          timeoutSeconds := 300, startedAt := none, deadlineAt := none, completedAt := none
          waitingApprovalId := none, costAmount := 0, costCurrency := none }
    | i => sampleDb.table i

/-- Five units of the second purchase order arrive under a SKU at a place. -/
def secondReceipt (sku storageLocation : String) : StockCall :=
  .receive (Uuid.ofNat 16)
    { sku, storageLocation, quantityReceived := 5, landedUnitCost := none
      lowStockThreshold := 2, actor := "system", reason := "receipt"
      idempotencyKey := "receipt-2", receivedAt := none }

/-- The state after some calls on `twoProductsDb`. -/
def twoProductsRun (calls : List StockCall) : Db :=
  afterCalls (@StockCall.run Digests.byEnding samplePolicy) Environment.numbered 0 calls
    twoProductsDb

/-- Nothing is in stock there yet. -/
theorem twoProductsDb_emptyInventory : EmptyInventory twoProductsDb := ⟨rfl, rfl, rfl⟩

/-- Under a SKU of its own the second product is another item, and an order of the first SKU is
    allocated the first. -/
theorem sku_names_one_product_sample :
    ((twoProductsRun [sampleReceipt, secondReceipt "B" "main",
      .ingest sampleOrder]).orderItems.rows.map
        fun line => line.sku) = ["A", "A"] ∧
      LinesAllocated
        (twoProductsRun [sampleReceipt, secondReceipt "B" "main", .ingest sampleOrder]) := by
  refine ⟨by decide +kernel, ?_⟩
  have hfirst : History (@StockCall.run Digests.byEnding samplePolicy) StockCall.OfOneKind
      twoProductsDb (twoProductsRun [sampleReceipt]) := by
    refine History.start.afterCall _ fun _ _ _ _ _ _ i hi => ?_
    exact absurd hi (Table.not_mem_empty i)
  have hsecond : History (@StockCall.run Digests.byEnding samplePolicy) StockCall.OfOneKind
      twoProductsDb (twoProductsRun [sampleReceipt, secondReceipt "B" "main"]) := by
    refine hfirst.afterCall (Environment.numbered 1) fun _ _ _ _ _ _ i hi hsku => ?_
    have hnone : ∀ i ∈ (twoProductsRun [sampleReceipt]).inventoryItems.rows, i.sku ≠ "B" := by
      decide +kernel
    exact absurd hsku (hnone i hi)
  have horder : History (@StockCall.run Digests.byEnding samplePolicy) StockCall.OfOneKind
      twoProductsDb
      (twoProductsRun [sampleReceipt, secondReceipt "B" "main", .ingest sampleOrder]) :=
    hsecond.afterCall (Environment.numbered 2) trivial
  exact (@sku_names_one_product Digests.byEnding _ _ _ twoProductsDb_emptyInventory horder).2.1

/-- **At another place the SKU may become another product**: the receipt compares the product with
    the items at its own place only. -/
theorem sku_names_two_products :
    ¬∀ (policy : WorkflowExecutionPolicy) (D₀ D : Db), EmptyInventory D₀ →
      History (@StockCall.run Digests.byEnding policy) (fun _ _ => True) D₀ D →
        SkuNamesOneProduct D := by
  intro h
  have hone := h samplePolicy twoProductsDb _ twoProductsDb_emptyInventory
    (History.start.afterCalls Environment.numbered 0 [sampleReceipt, secondReceipt "A" "annex"])
  revert hone
  show ¬∀ i ∈ (twoProductsRun [sampleReceipt, secondReceipt "A" "annex"]).inventoryItems.rows,
    ∀ j ∈ (twoProductsRun [sampleReceipt, secondReceipt "A" "annex"]).inventoryItems.rows,
      i.sku = j.sku → i.productId = j.productId
  decide +kernel

end CommerceOperations
