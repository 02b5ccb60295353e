/-
  The services keep the books.

  Each service is followed through its statements: from books in order on the state it will commit
  on, it ends with books in order, whatever other sessions do in between, and never meets the two
  exceptions a sound warehouse rules out.

  `ensures` has a point of three parts: the locks held, the state that was seen last, and the state
  the commit will be made on.  A read without a lock says something of the state seen and nothing of
  the commit; a read with a lock says it of both.  So the proofs ask of the reads only what the
  source asks of them.

  Between two statements the books need not be in order.  What they are then has a name each:
  `Unposted` where an item was written and its movement is yet to come, `Unlined` where stock was
  reserved for a line that is not stored yet, and `BooksAt` with the lines ahead of their order.
-/
import CommerceOperations.Application.Orchestration
import CommerceOperations.Application.Stock
import CommerceOperations.Workflows.Invariants

namespace CommerceOperations

open Relational Prog

/-- The exceptions a sound warehouse rules out. -/
def Error.isStockError (e : Error) : Prop :=
  e = .raised .orderValidationError "Order reservation is missing" ∨
    e = .raised .orderValidationError "Reserved inventory cannot be dispatched"

/-- Both are validation errors of the order service. -/
theorem Error.isStockError.isOrderValidation {e : Error} (h : e.isStockError) :
    e.isOrderValidation := by
  rcases h with rfl | rfl <;> exact ⟨_, rfl⟩

/-- A point of a transaction on the database. -/
abbrev TxPoint : Type := Point Db DbLock

section Rules

variable {α : Type} {bad : Error → Prop} {pt : TxPoint} {Q : α → TxPoint → Prop}

/-- What does not touch the stock tables leaves the stock alone. -/
theorem ensures_of_sameStock (tables : List TableName) {p : Tx α} (hp : p.confined tables)
    (hstock : ∀ i ∈ stockTables, i ∉ tables)
    (hQ : ∀ a held seen view, SameStock pt.view view → Q a ⟨held, seen, view⟩) :
    p.ensures Error.isStockError pt Q := by
  have hp' := writes_mono hp (fun w (hw : w.table ∈ tables) => hw)
    fun _ he => Error.isStockError.isOrderValidation he
  refine ensures_mono (ensures_of_confined hp' pt) fun a pt' hpt' => ?_
  exact hQ a _ _ _ fun i hi => hpt' i (hstock i hi)

/-- An exception of another class is none of the two. -/
theorem not_isStockError {type : ExceptionType} {message : String}
    (h : type ≠ .orderValidationError) : ¬(Error.raised type message).isStockError :=
  fun he => Tx.not_isOrderValidation h he.isOrderValidation

/-- A lookup: with what was found the rest goes on, and without it the exception must be a permitted
    one. -/
theorem ensures_orThrow {a : Option α} {type : ExceptionType} {message : String}
    (hsome : ∀ b, a = some b → Q b pt)
    (hnone : a = none → pt.seen = pt.view → ¬bad (.raised type message)) :
    (Tx.orThrow a type message).ensures bad pt Q := by
  cases a with
  | some b => exact hsome b rfl
  | none => exact hnone rfl

/-- A guard: its condition is known of the rest. -/
theorem ensures_require' {cond : Prop} [Decidable cond] {type : ExceptionType} {message : String}
    {Q : Unit → TxPoint → Prop} (hyes : cond → Q () pt)
    (hno : ¬cond → pt.seen = pt.view → ¬bad (.raised type message)) :
    (Tx.require cond type message).ensures bad pt Q := by
  unfold Tx.require
  split
  · rename_i h
    exact hyes h
  · rename_i h
    exact hno h

end Rules

namespace InventoryService

variable {held : List DbLock} {seen view : Db}

/-- The arithmetic of a change: what is returned covers what is reserved. -/
theorem applyQuantityChange_ensures {onHand reserved delta : Int}
    {Q : InventoryBalance → TxPoint → Prop}
    (hQ : delta ≠ 0 → reserved ≤ onHand + delta → Q ⟨onHand + delta, reserved⟩ ⟨held, seen, view⟩) :
    (applyQuantityChange onHand reserved delta).ensures Error.isStockError
      ⟨held, seen, view⟩ Q := by
  unfold applyQuantityChange
  split
  · exact fun _ => not_isStockError (by decide)
  · split
    · exact fun _ => not_isStockError (by decide)
    · split
      · exact fun _ => not_isStockError (by decide)
      · exact hQ (by assumption) (by omega)

/-- The cost basis has no part in the books. -/
theorem weightedCostBasis_ensures {quantity added : Int} {basis unitCost : Rat}
    {Q : Rat → TxPoint → Prop} (hQ : ∀ newBasis, Q newBasis ⟨held, seen, view⟩) :
    (weightedCostBasis quantity basis added unitCost).ensures Error.isStockError ⟨held, seen, view⟩
      Q := by
  unfold weightedCostBasis
  split
  · exact fun _ => not_isStockError (by decide)
  · split
    · exact fun _ => not_isStockError (by decide)
    · exact hQ _

/-- The item `old` was written as `new`, and no movement says so yet. -/
def Unposted (old new : InventoryItem) (D : Db) : Prop :=
  ∃ D₀, Books D₀ ∧ D₀.inventoryItems.get new.id = some old ∧
    D₀.inventoryItems.succeeds old new = true ∧ D₀.inventoryItems.clashes old new = false ∧
    SameStock (Database.apply ⟨.inventoryItems, .update old new⟩ D₀) D

/-- That a change is still to be posted is about stock and movements, so it stays while nothing
    happens to these. -/
theorem Unposted.congr {old new : InventoryItem} {D D' : Db} (h : Unposted old new D)
    (hsame : SameStock D D') : Unposted old new D' := by
  obtain ⟨D₀, hbooks, hget, hs, hc, hD⟩ := h
  exact ⟨D₀, hbooks, hget, hs, hc, hD.trans hsame⟩

/-- Writing an item that is held: its movement is missing from now on. -/
theorem flushItem_ensures (hbooks : Books view) {item new : InventoryItem}
    {Q : InventoryItem → TxPoint → Prop}
    (hitem : view.inventoryItems.get item.id = some item) (hid : new.id = item.id)
    (hne : new ≠ item)
    (hQ : ∀ held seen view, Unposted item { new with version := item.version + 1 } view →
      Q { new with version := item.version + 1 } ⟨held, seen, view⟩) :
    (flush .inventoryItems item new).ensures Error.isStockError ⟨held, seen, view⟩ Q := by
  refine ensures_flush hid (fun _ => rfl) (fun h => absurd h hne) ?_ ?_ ?_
  · rintro - r row held seen - hget - rfl hs hc
    obtain rfl : r = item := Option.some.inj (hget.symm.trans hitem)
    refine hQ _ _ _ ⟨view, hbooks, ?_, hs, hc, SameStock.refl _⟩
    show view.inventoryItems.get new.id = some r
    rw [hid]
    exact hitem
  · rintro us (h | h) <;> exact nomatch h
  · rintro (h | h) <;> exact nomatch h

/-- When the movement is posted, the books are in order again. -/
theorem addMovement_ensures {old new : InventoryItem} (h : Unposted old new view)
    {m : InventoryMovement} {Q : InventoryMovement → TxPoint → Prop}
    (hitem : m.inventoryItemId = new.id)
    (htype : m.movementType = .receipt ∨ m.movementType = .adjustment)
    (honHand : new.quantityOnHand = old.quantityOnHand + m.quantityDelta)
    (hreserved : new.reservedQuantity = old.reservedQuantity)
    (hbound : new.reservedQuantity ≤ new.quantityOnHand)
    (hQ : ∀ held seen view, Books view → Q m ⟨held, seen, view⟩) :
    (add .inventoryMovements m).ensures Error.isStockError ⟨held, seen, view⟩ Q := by
  obtain ⟨D₀, hbooks, hget, hs, hc, hsame⟩ := h
  refine ensures_insert (fun hconf held seen _ => ?_) ?_
  · have hmovements : view.inventoryMovements = D₀.inventoryMovements := hsame.movements
    have hconf' : D₀.inventoryMovements.conflicts m = false := hmovements ▸ hconf
    have hpost := hbooks.post hget hs hc hconf' hitem htype honHand hreserved hbound
    exact hQ _ _ _ (hpost.congr (hsame.apply _))
  · rintro us (h | h) <;> exact nomatch h

/-- `get(.., for_update=True)` returns the item as it is. -/
theorem getForUpdate_ensures {id : Uuid} {Q : InventoryItem → TxPoint → Prop}
    (hQ : ∀ item held seen, view.inventoryItems.get item.id = some item → item.id = id →
      Q item ⟨held, seen, view⟩) :
    (getForUpdate id).ensures Error.isStockError ⟨held, seen, view⟩ Q := by
  refine ensures_bind.mpr (ensures_selectForUpdate ?_ ?_)
  · intro item held seen _ _ hp hget
    refine ensures_orThrow ?_ fun h => nomatch h
    rintro b ⟨⟩
    exact hQ item held seen hget (by simpa using hp)
  · intro held seen _
    exact ensures_orThrow (fun b h => nomatch h) fun _ _ => not_isStockError (by decide)

/-- An adjustment writes items, movements, the trail and the outbox. -/
theorem adjust_confined {id : Uuid} {command : Adjustment} :
    (adjust id command).confined
      [.inventoryItems, .inventoryMovements, .auditEvents, .domainEvents] := by
  refine writes_bind (writes_query _) fun existing => ?_
  split
  · exact writes_bind (Tx.confined_require (by decide)) fun _ => trivial
  · refine writes_bind ?_ fun item => ?_
    · exact writes_bind (writes_selectForUpdate _ _) fun _ => Tx.confined_orThrow (by decide)
    refine writes_bind ?_ fun balance => ?_
    · unfold applyQuantityChange
      split_ifs <;> first | exact trivial | exact Tx.confined_throw (by decide)
    extract_lets write
    have hwrite : ∀ basis, (write basis).confined
        [.inventoryItems, .inventoryMovements, .auditEvents, .domainEvents] := by
      intro basis
      refine writes_bind (Tx.confined_flush _ _ (by decide)) fun changed => ?_
      refine writes_bind (writes_answer _) fun id => ?_
      refine writes_bind (Tx.confined_add _ (by decide)) fun movement => ?_
      exact writes_bind (Tx.confined_mono recordChange_confined (by decide)) fun _ => trivial
    cases command.unitCost with
    | none => exact hwrite _
    | some unitCost =>
      dsimp only
      split
      · refine writes_bind ?_ fun basis => hwrite _
        unfold weightedCostBasis
        split_ifs <;> first | exact trivial | exact Tx.confined_throw (by decide)
      · exact hwrite _

/-- **An adjustment keeps the books.** -/
theorem adjustNew_ensures (hbooks : Books view) (id : Uuid) (command : Adjustment) :
    (adjustNew id command).ensures Error.isStockError ⟨held, seen, view⟩ fun _ pt' =>
      Books pt'.view := by
  refine ensures_bind.mpr (getForUpdate_ensures ?_)
  intro item held seen hget hid
  refine ensures_bind.mpr (applyQuantityChange_ensures ?_)
  intro hdelta hbound
  extract_lets write
  have hwrite : ∀ costBasis,
      (write costBasis).ensures Error.isStockError ⟨held, seen, view⟩
        fun _ pt' => Books pt'.view := by
    intro costBasis
    refine ensures_bind.mpr ?_
    refine flushItem_ensures hbooks hget ?_ ?_ ?_
    · rfl
    · intro heq
      have honHand := congrArg InventoryItem.quantityOnHand heq
      dsimp only at honHand
      omega
    · intro held seen view hview
      refine ensures_bind.mpr fun env seen => ?_
      refine ensures_bind.mpr
        (addMovement_ensures hview rfl (Or.inr rfl) rfl rfl hbound fun held seen view hview => ?_)
      refine ensures_bind.mpr (ensures_of_sameStock _ recordChange_confined (by decide) ?_)
      intro _ _ _ _ hsame
      exact hview.congr hsame
  cases command.unitCost with
  | none => exact hwrite _
  | some unitCost =>
    dsimp only
    split
    · exact ensures_bind.mpr (weightedCostBasis_ensures fun _ => hwrite _)
    · exact hwrite _

/-- An adjustment that was made before changes nothing. -/
theorem adjust_ensures (hbooks : Books view) (id : Uuid) (command : Adjustment) :
    (adjust id command).ensures Error.isStockError ⟨held, seen, view⟩ fun _ pt' =>
      Books pt'.view := by
  refine ensures_bind.mpr ((ensures_query _).mpr fun V _ _ => ?_)
  split
  · refine ensures_bind.mpr (ensures_require' (fun _ => hbooks) fun _ _ => ?_)
    exact not_isStockError (by decide)
  · exact adjustNew_ensures hbooks id command

/-- The item received into is stored, and the books are in order with it. -/
theorem receivingItem_ensures (hbooks : Books view) (command : Receipt)
    (purchaseOrder : PurchaseOrder) (procurement : ProcurementRequest) :
    (receivingItem command purchaseOrder procurement).ensures Error.isStockError
      ⟨held, seen, view⟩ fun item pt' =>
        Books pt'.view ∧ (pt'.view.table .inventoryItems).get item.id = some item := by
  refine ensures_bind.mpr (ensures_selectForUpdate ?_ ?_)
  · intro item held seen _ _ _ hget
    refine ensures_bind.mpr (ensures_require' ?_ fun _ _ => not_isStockError (by decide))
    intro _
    refine ensures_bind.mpr (ensures_require' ?_ fun _ _ => not_isStockError (by decide))
    intro _
    exact ⟨hbooks, hget⟩
  · intro held seen _
    refine ensures_bind.mpr fun env seen => ?_
    refine ensures_insert ?_ ?_
    · intro hconf held seen _
      refine ⟨hbooks.insert_item hconf rfl rfl, ?_⟩
      exact (Table.get_insert hconf _).trans (if_pos rfl)
    · rintro us (h | h) <;> exact nomatch h

/-- **A goods receipt keeps the books.** -/
theorem receiveNew_ensures (hbooks : Books view) (purchaseOrderId : Uuid) (command : Receipt) :
    (receiveNew purchaseOrderId command).ensures Error.isStockError ⟨held, seen, view⟩
      fun _ pt' => Books pt'.view := by
  have hfail : ∀ {type message}, type ≠ .orderValidationError →
      ¬(Error.raised type message).isStockError := fun h => not_isStockError h
  refine ensures_bind.mpr (ensures_of_sameStock [] (writes_selectForUpdate _ _)
    (by decide) ?_)
  intro found held seen view₁ hsame₁
  refine ensures_bind.mpr (ensures_orThrow ?_ fun _ _ => hfail (by decide))
  rintro purchaseOrder -
  refine ensures_bind.mpr (ensures_require' ?_ fun _ _ => hfail (by decide))
  intro _
  refine ensures_bind.mpr (ensures_require' ?_ fun _ _ => hfail (by decide))
  intro hpos
  refine ensures_bind.mpr (ensures_require' ?_ fun _ _ => hfail (by decide))
  intro _
  refine ensures_bind.mpr ((ensures_query _).mpr fun V _ _ => ?_)
  refine ensures_bind.mpr (ensures_orThrow ?_ fun _ _ => hfail (by decide))
  rintro procurement -
  refine ensures_bind.mpr ((ensures_query _).mpr fun V _ _ => ?_)
  refine ensures_bind.mpr (ensures_orThrow ?_ fun _ _ => hfail (by decide))
  rintro quote -
  refine ensures_bind.mpr (ensures_mono
    (receivingItem_ensures (hbooks.congr hsame₁) command purchaseOrder procurement) ?_)
  -- from here on the item is locked: its row in the view is the one in hand
  rintro item ⟨held, seen, view⟩ ⟨hbooks, hget⟩
  refine ensures_bind.mpr (weightedCostBasis_ensures fun newCostBasis => ?_)
  refine ensures_bind.mpr (applyQuantityChange_ensures ?_)
  intro hdelta hbound
  refine ensures_bind.mpr ?_
  refine flushItem_ensures hbooks hget ?_ ?_ ?_
  · rfl
  -- a receipt changes the quantity, so there is something to write
  · intro heq
    have honHand := congrArg InventoryItem.quantityOnHand heq
    dsimp only at honHand
    omega
  · intro held seen view hview
    refine ensures_bind.mpr (ensures_of_sameStock [.purchaseOrders]
      (Tx.confined_flush _ _ (by decide)) (by decide) ?_)
    intro purchaseOrder held seen view' hsame
    refine ensures_bind.mpr fun env seen => ?_
    refine ensures_bind.mpr
      (addMovement_ensures (hview.congr hsame) rfl (Or.inl rfl) rfl rfl hbound ?_)
    intro held seen view hview
    refine ensures_bind.mpr (ensures_of_sameStock []
      (writes_bind (writes_query _) fun _ => Tx.confined_orThrow (by decide)) (by decide) ?_)
    intro workflow held seen view' hsame
    refine ensures_bind.mpr (ensures_of_sameStock _ recordChange_confined (by decide) ?_)
    intro _ held seen view'' hsame'
    -- what follows the movement spares the stock
    have hdone : Books view'' := (hview.congr hsame).congr hsame'
    extract_lets finish
    split
    · refine ensures_bind.mpr fun env seen => ?_
      refine ensures_bind.mpr (ensures_of_sameStock _ ProcurementService.markReceived_confined
        (by decide) ?_)
      intro _ held seen view' hsame
      exact hdone.congr hsame
    · exact hdone

/-- A receipt that was booked before changes nothing. -/
theorem receive_ensures (hbooks : Books view) (purchaseOrderId : Uuid) (command : Receipt) :
    (receive purchaseOrderId command).ensures Error.isStockError ⟨held, seen, view⟩
      fun _ pt' => Books pt'.view := by
  refine ensures_bind.mpr ((ensures_query _).mpr fun V _ _ => ?_)
  split
  · refine ensures_bind.mpr (ensures_require' (fun _ => hbooks) fun _ _ => ?_)
    exact not_isStockError (by decide)
  · exact receiveNew_ensures hbooks purchaseOrderId command

end InventoryService

namespace OrderService

variable {held : List DbLock} {seen view : Db}

/-! ### Settling the lines of an order -/

/-- **One settlement**: the line's item covers it, so the conditional update finds its row. -/
theorem settleLine_ensures {phase : OrderItem → LinePhase} (hbooks : BooksAt view phase)
    {order : Order} {line : OrderItem} {t : InventoryMovementType} {target : LinePhase}
    {cond : InventoryItem → Bool} {set : InventoryItem → InventoryItem} {missing : String}
    {eventDelta : Int} (hline : line ∈ view.orderItems) (horder : line.orderId = order.id)
    (hphase : phase line = .reserved) (ht : t ≠ .reservation)
    (htarget : target.movements = [.reservation, t])
    (hcond : ∀ i : InventoryItem, line.quantity ≤ i.reservedQuantity →
      i.reservedQuantity ≤ i.quantityOnHand → cond i = true)
    (hset : ∀ i : InventoryItem, set i =
      { i with
        quantityOnHand := i.quantityOnHand - target.taken line.quantity
        reservedQuantity := i.reservedQuantity - line.quantity }) :
    (settleLine order line t cond set missing eventDelta).ensures Error.isStockError
      ⟨held, seen, view⟩ fun _ pt' =>
        BooksAt pt'.view (Function.update phase line target) ∧
          (pt'.view.table .orders) = view.orders ∧
            (pt'.view.table .orderItems) = view.orderItems := by
  obtain ⟨stored, hstored, hkey⟩ := hbooks.allocated.reserved.account_mem line hline
  have hget : view.inventoryItems.get line.inventoryItemId = some stored :=
    Table.get_eq_some.mpr ⟨hstored, hkey⟩
  have hcovers := hbooks.covers hline hget hphase
  have hpos := hbooks.allocated.quantity_pos line hline
  have htaken : 0 ≤ target.taken line.quantity ∧ target.taken line.quantity ≤ line.quantity := by
    unfold LinePhase.taken
    split <;> omega
  refine ensures_bind.mpr ((ensures_query _).mpr fun V _ _ => ?_)
  refine ensures_bind.mpr (ensures_orThrow ?_ fun _ _ => not_isStockError (by decide))
  intro item hitem
  obtain hid : item.id = line.inventoryItemId := Table.key_of_get hitem
  refine ensures_bind.mpr ?_
  refine ensures_updateWhere (fun r => by rw [hset]; exact ⟨rfl, rfl⟩) ?_ ?_ ?_
  · intro r row held seen _ hr _ hrow hs hc
    obtain rfl : r = stored := by
      have hr : view.inventoryItems.get item.id = some r := hr
      rw [hid] at hr
      exact Option.some.inj (hr.symm.trans hget)
    rw [hset] at hrow
    refine ensures_bind.mpr (ensures_orThrow ?_ (absurd · (Option.some_ne_none _)))
    rintro - -
    refine ensures_bind.mpr fun env _ => ?_
    refine ensures_bind.mpr (ensures_insert ?_ ?_)
    · intro hconf held seen _
      refine ensures_bind.mpr ((ensures_query _).mpr fun V _ _ => ?_)
      refine ensures_bind.mpr (ensures_orThrow ?_ fun _ _ => not_isStockError (by decide))
      rintro item' -
      refine ensures_of_sameStock _ inventoryEvents_confined (by decide) ?_
      intro _ _ _ view' hsame
      refine ⟨BooksAt.congr ?_ hsame, hsame.orders, hsame.lines⟩
      subst hrow
      refine hbooks.settle (t := t) ?_ hs hc hconf hline ?_ ?_ hphase htarget
        (Function.update_self ..) (fun l _ hne => Function.update_of_ne hne ..) rfl rfl ?_
      · exact (congrArg _ hkey).trans hget
      · simp [InventoryMovement.isOf, movement, horder, ht]
      · exact hkey.symm
      · show 0 ≤ r.reservedQuantity - line.quantity ∧ r.reservedQuantity - line.quantity ≤
          r.quantityOnHand - target.taken line.quantity
        omega
    · rintro us (h | h) <;> cases h
  · intro held seen _ hnone
    refine ensures_bind.mpr
      (ensures_orThrow (fun b h => absurd h.symm (Option.some_ne_none b)) fun _ hseen => ?_)
    -- the state seen is the one the books are about
    have hfalse : cond stored = false := by
      refine hnone stored ?_
      have hseen : seen = view := hseen
      rw [hseen, hid]
      exact hget
    rw [hcond stored hcovers.1 hcovers.2] at hfalse
    cases hfalse
  · rintro us (h | h) <;> cases h

/-- `settle` takes each waiting line of the order to the phase `target`. -/
def Settles (settle : OrderItem → Tx Unit) (order : Order) (target : LinePhase) : Prop :=
  ∀ (held : List DbLock) (seen view : Db) (phase : OrderItem → LinePhase) (line : OrderItem),
    BooksAt view phase → line ∈ view.orderItems → line.orderId = order.id →
    phase line = .reserved →
    (settle line).ensures Error.isStockError ⟨held, seen, view⟩ fun _ pt' =>
      BooksAt pt'.view (Function.update phase line target) ∧
        (pt'.view.table .orders) = view.orders ∧ (pt'.view.table .orderItems) = view.orderItems

/-- Releasing a line takes it to its phase: the reserved counter alone goes down. -/
theorem settles_releaseLine (order : Order) : Settles (releaseLine order) order .released := by
  intro held seen view phase line hbooks hline horder hphase
  refine settleLine_ensures hbooks hline horder hphase (by decide) rfl ?_ ?_
  · intro i h _
    simpa using h
  · intro i
    simp [LinePhase.taken]

/-- Shipping a line takes it to its phase: both counters go down. -/
theorem settles_shipLine (order : Order) : Settles (shipLine order) order .shipped := by
  intro held seen view phase line hbooks hline horder hphase
  refine settleLine_ensures hbooks hline horder hphase (by decide) rfl ?_ ?_
  · intro i h h'
    simpa using ⟨h, h.trans h'⟩
  · intro i
    simp [LinePhase.taken]

/-- The loop over the lines settles each of them. -/
theorem forLines_ensures {settle : OrderItem → Tx Unit} {target : LinePhase} {order : Order}
    (hsettle : Settles settle order target)
    (lines : List OrderItem) {held : List DbLock} {seen view : Db}
    {phase : OrderItem → LinePhase} (hbooks : BooksAt view phase)
    (hlines : ∀ l ∈ lines, l ∈ view.orderItems ∧ l.orderId = order.id ∧ phase l = .reserved)
    (hnodup : lines.Nodup) :
    (forLines settle lines).ensures Error.isStockError ⟨held, seen, view⟩ fun _ pt' =>
      BooksAt pt'.view (fun l => if l ∈ lines then target else phase l) ∧
        (pt'.view.table .orders) = view.orders ∧
          (pt'.view.table .orderItems) = view.orderItems := by
  induction lines generalizing held seen view phase with
  | nil => exact ⟨hbooks.congr_phase fun l _ => by simp, rfl, rfl⟩
  | cons line lines ih =>
    obtain ⟨hnot, hnodup⟩ := List.nodup_cons.mp hnodup
    obtain ⟨hmem, horder, hphase⟩ := hlines line List.mem_cons_self
    refine ensures_bind.mpr (ensures_mono (hsettle _ _ _ _ line hbooks hmem horder hphase) ?_)
    rintro - ⟨held, seen, view'⟩ ⟨hbooks', horders', hlines'⟩
    refine ensures_mono (ih hbooks' ?_ hnodup) ?_
    · intro l hl
      obtain ⟨hl', ho, hp⟩ := hlines l (List.mem_cons_of_mem _ hl)
      have hne : l ≠ line := by
        rintro rfl
        exact hnot hl
      refine ⟨?_, ho, ?_⟩
      · show l ∈ view'.table .orderItems
        rw [hlines']
        exact hl'
      · rw [Function.update_of_ne hne]
        exact hp
    · rintro - ⟨held, seen, view''⟩ ⟨hbooks'', horders'', hlines''⟩
      refine ⟨hbooks''.congr_phase fun l _ => ?_, horders''.trans horders', hlines''.trans hlines'⟩
      by_cases hl : l = line
      · subst hl
        simp
      · simp [hl]

/-- The lines read under the lock on their order are its lines. -/
theorem settleOrder_ensures {settle : OrderItem → Tx Unit} {target : LinePhase} {order : Order}
    (hsettle : Settles settle order target)
    (hbooks : Books view)
    (hlock : (⟨.orderItems, .children ⟨.orderItemOrder, [.uuid order.id]⟩⟩ : DbLock) ∈ held)
    (hget : view.orders.get order.id = some order) (hphase : order.status.phase = .reserved) :
    (do
      let lines ← Tx.select (items order.id)
      forLines settle lines).ensures Error.isStockError ⟨held, seen, view⟩ fun _ pt' =>
        BooksAt pt'.view (fun l => if l.orderId = order.id then target else view.linePhase l) ∧
          (pt'.view.table .orders) = view.orders ∧
            (pt'.view.table .orderItems) = view.orderItems := by
  refine ensures_bind.mpr ((ensures_query _).mpr fun V _ hagree => ?_)
  have hlines : items order.id V = items order.id view :=
    hagree _ hlock
  have hmem : ∀ l, l ∈ items order.id view ↔ l ∈ view.orderItems ∧ l.orderId = order.id := by
    intro l
    show l ∈ List.filter _ _ ↔ _
    simp [Row.parents, Table.mem_rows, eq_comm]
  rw [hlines]
  refine ensures_mono (forLines_ensures hsettle _ hbooks ?_ ?_) ?_
  · intro l hl
    obtain ⟨hl, ho⟩ := (hmem l).mp hl
    refine ⟨hl, ho, ?_⟩
    rw [Db.linePhase_of_get (o := order) (by rw [ho]; exact hget), hphase]
  · exact view.orderItems.nodup_rows.filter _
  · rintro - ⟨held, seen, view'⟩ ⟨hbooks', horders', hlines'⟩
    refine ⟨hbooks'.congr_phase fun l hl => ?_, horders', hlines'⟩
    have hl : l ∈ view.orderItems := by
      have hl : l ∈ view'.table .orderItems := hl
      rw [hlines'] at hl
      exact hl
    simp only [hmem, hl, true_and]

/-! ### The status of an order -/

/-- The second half of a status change, on lines that are in the phase of the new status. -/
theorem setStatus_ensures {order : Order} {target : OrderStatus} {phase : OrderItem → LinePhase}
    (hbooks : BooksAt view phase) (hne : target ≠ order.status)
    (hcurrent : ∀ r, view.orders.get order.id = some r → r.version = order.version →
      ∀ l ∈ view.orderItems, phase l =
        if l.orderId = order.id then target.phase else view.linePhase l)
    (actor reason : String) :
    (setStatus order target actor reason).ensures Error.isStockError ⟨held, seen, view⟩
      fun _ pt' => Books pt'.view := by
  refine ensures_bind.mpr fun env seen => ?_
  refine ensures_bind.mpr ?_
  refine ensures_flush rfl (fun _ => ?_) ?_ ?_ ?_ ?_
  · rfl
  · intro heq
    exact absurd (congrArg Order.status heq) hne
  · rintro - r row held seen - hget hv rfl hs hc
    have hbooks' := hbooks.setStatus hs hc (hcurrent r hget hv)
    refine ensures_of_sameStock [.workflowRuns, .domainEvents, .auditEvents] ?_
      (by decide) fun _ _ _ _ hsame => hbooks'.congr hsame
    refine writes_bind (writes_query _) fun workflow => ?_
    extract_lets finish
    have hfinish : ∀ workflow,
        (finish workflow).confined [.workflowRuns, .domainEvents, .auditEvents] := by
      intro workflow
      simp only [finish]
      have haudit : ∀ {order before},
          (audit order workflow "order.status_changed" actor before target.value reason).confined
            [.workflowRuns, .domainEvents, .auditEvents] :=
        Tx.confined_mono audit_confined (by decide)
      split
      · refine writes_bind (Tx.confined_mono DatabaseEventStore.emit_confined (by decide))
          fun _ => ?_
        exact writes_bind haudit fun _ => trivial
      · exact writes_bind haudit fun _ => trivial
    cases workflow with
    | none => exact hfinish _
    | some workflow =>
      exact writes_bind (Tx.confined_flush _ _ (by decide)) fun _ => hfinish _
  · rintro us (h | h) <;> exact nomatch h
  · rintro (h | h) <;> exact nomatch h

/-- A transition that is allowed, or none at all. -/
theorem transitionOrder_ensures {current target : OrderStatus} {Q : OrderStatus → TxPoint → Prop}
    (hQ : target ≠ current → target ∈ current.allowedTransitions → Q target ⟨held, seen, view⟩)
    (hsame : target = current → Q current ⟨held, seen, view⟩) :
    (transitionOrder current target).ensures Error.isStockError ⟨held, seen, view⟩ Q := by
  unfold transitionOrder
  split
  · exact hsame (by assumption)
  · split
    · exact fun _ he => by rcases he with he | he <;> simp at he
    · rename_i hne hallowed
      exact hQ hne (by simpa using hallowed)

/-- **A status change keeps the books**: cancelling releases, dispatching ships, and neither finds
    its stock missing.  The lock on the order keeps its lines in their phase, so each line is still
    reserved for when its turn comes. -/
theorem updateStatus_ensures (hbooks : Books view) (orderId : Uuid) (target : OrderStatus)
    (actor reason : String) :
    (updateStatus none orderId target actor reason).ensures Error.isStockError
      ⟨held, seen, view⟩ fun _ pt' => Books pt'.view := by
  refine ensures_bind.mpr (ensures_bind.mpr (ensures_selectForUpdate ?_ ?_))
  · intro order held seen _ hlocks _ hget
    refine ensures_bind.mpr (ensures_orThrow ?_ fun h => nomatch h)
    rintro _ ⟨⟩
    refine ensures_bind.mpr (transitionOrder_ensures ?_ ?_)
    · intro hne hallowed
      simp only [Option.getD_none] at hne hallowed ⊢
      rw [if_neg hne]
      -- the status is set last, when the stock of the lines is where the new status wants it
      have hset : ∀ {phase held seen view'}, BooksAt view' phase → view'.orders = view.orders →
          (∀ l ∈ view'.orderItems, phase l =
            if l.orderId = order.id then target.phase else view.linePhase l) →
          (setStatus order target actor reason).ensures Error.isStockError ⟨held, seen, view'⟩
            fun _ pt' => Books pt'.view := by
        intro phase held seen view' hbooks' horders hphase
        refine setStatus_ensures hbooks' hne ?_ actor reason
        intro r _ _ l hl
        rw [hphase l hl, Db.linePhase_congr horders]
      have hlock := hlocks (List.mem_cons_of_mem _ List.mem_cons_self)
      by_cases hc : target = .cancelled
      · subst hc
        simp only [if_true]
        refine ensures_bind.mpr
          (ensures_mono (settleOrder_ensures (settles_releaseLine order) hbooks hlock
          hget (OrderStatus.phase_of_settled hallowed (Or.inl rfl))) ?_)
        rintro - ⟨held, seen, view'⟩ ⟨hbooks', horders, -⟩
        exact hset hbooks' horders fun l _ => rfl
      · rw [if_neg hc]
        by_cases hd : target = .dispatched
        · subst hd
          simp only [if_true]
          refine ensures_bind.mpr
            (ensures_mono (settleOrder_ensures (settles_shipLine order) hbooks hlock
            hget (OrderStatus.phase_of_settled hallowed (Or.inr rfl))) ?_)
          rintro - ⟨held, seen, view'⟩ ⟨hbooks', horders, -⟩
          exact hset hbooks' horders fun l _ => rfl
        · rw [if_neg hd]
          -- no other transition moves stock, since it leaves the lines in their phase
          refine hset hbooks rfl fun l _ => ?_
          split
          · rename_i hl
            rw [Db.linePhase_of_get (o := order) (by rw [hl]; exact hget),
              OrderStatus.phase_of_allowed hallowed hc hd]
          · rfl
    · intro heq
      simp only [Option.getD_none] at heq ⊢
      rw [if_pos heq]
      exact hbooks
  · intro held seen _
    exact ensures_bind.mpr (ensures_orThrow (fun b h => nomatch h) fun _ _ =>
      not_isStockError (by decide))

/-- A return, for an order loaded some time ago: the flush tells whether it is still current. -/
theorem updateStatus_returned_ensures (hbooks : Books view) {order : Order}
    (hcurrent : ∀ r, view.orders.get order.id = some r → r.version = order.version → r = order)
    (hne : order.status ≠ .returned) (actor reason : String) :
    (updateStatus (some order) order.id .returned actor reason).ensures Error.isStockError
      ⟨held, seen, view⟩ fun _ pt' => Books pt'.view := by
  have hrest : ∀ held seen, (transitionOrder order.status .returned >>= fun _ =>
      if OrderStatus.returned = order.status then pure order
      else setStatus order .returned actor reason).ensures Error.isStockError ⟨held, seen, view⟩
        fun _ pt' => Books pt'.view := by
    intro held seen
    refine ensures_bind.mpr (transitionOrder_ensures ?_ fun h => absurd h.symm hne)
    intro hne hallowed
    rw [if_neg hne]
    refine setStatus_ensures hbooks hne ?_ actor reason
    intro r hget hv l _
    obtain rfl := hcurrent r hget hv
    split
    · rename_i hl
      rw [Db.linePhase_of_get (o := r) (by rw [hl]; exact hget),
        OrderStatus.phase_of_allowed hallowed (by decide) (by decide)]
    · rfl
  refine ensures_bind.mpr (ensures_bind.mpr (ensures_selectForUpdate ?_ ?_))
  · intro stored held seen _ _ _ _
    exact ensures_bind.mpr (ensures_orThrow (fun _ _ => hrest held seen) fun h => nomatch h)
  · intro held seen _
    exact ensures_bind.mpr (ensures_orThrow (fun b h => nomatch h) fun _ _ =>
      not_isStockError (by decide))

/-! ### Ingestion -/

/-- Stock of `item` was reserved for a line that is not stored yet. -/
def Unlined (orderId : Uuid) (externalLineId : String) (quantity : Int) (item : Uuid)
    (D : Db) : Prop :=
  ∃ D₀ old new m, Books D₀ ∧ D₀.inventoryItems.get new.id = some old ∧
    D₀.inventoryItems.succeeds old new = true ∧ D₀.inventoryItems.clashes old new = false ∧
    D₀.inventoryMovements.conflicts m = false ∧
    SameStock (Database.apply ⟨.inventoryMovements, .insert m⟩
      (Database.apply ⟨.inventoryItems, .update old new⟩ D₀)) D ∧
    new.id = item ∧ new.quantityOnHand = old.quantityOnHand ∧
    new.reservedQuantity = old.reservedQuantity + quantity ∧
    new.reservedQuantity ≤ new.quantityOnHand ∧
    ∀ line : OrderItem, line.orderId = orderId → line.externalLineId = externalLineId →
      line.quantity = quantity → line.inventoryItemId = item → m.isOf line .reservation = true

/-- **The loop of a reservation**: the item it ends with has the stock.  By induction on the
    candidates.  What the SELECT saw of a candidate is not used; the UPDATE compares again, under
    its lock. -/
theorem reserveFrom_ensures (hbooks : Books view) (sku : String) (quantity : Int) (order : Order)
    (externalLineId : String) (correlationId : Uuid) (inventoryIds : List Uuid) :
    (reserveFrom sku quantity order externalLineId correlationId inventoryIds).ensures
      Error.isStockError ⟨held, seen, view⟩ fun item pt' =>
        Unlined order.id externalLineId quantity item.id pt'.view ∧
          (pt'.view.table .orders) = view.orders := by
  induction inventoryIds generalizing held seen with
  | nil => exact fun _ => not_isStockError (by decide)
  | cons inventoryId rest ih =>
    refine ensures_bind.mpr ((ensures_query _).mpr fun V _ _ => ?_)
    refine ensures_bind.mpr ?_
    refine ensures_updateWhere (fun r => ⟨rfl, rfl⟩) ?_ ?_ ?_
    · intro r row held seen _ hget hcond hrow hs hc
      refine ensures_bind.mpr ((ensures_query _).mpr fun V _ _ => ?_)
      refine ensures_bind.mpr (ensures_orThrow ?_ fun _ _ => not_isStockError (by decide))
      intro item hitem
      obtain hid : item.id = inventoryId := Table.key_of_get hitem
      refine ensures_bind.mpr fun env _ => ?_
      refine ensures_bind.mpr (ensures_insert ?_ ?_)
      · intro hconf held seen _
        refine ensures_bind.mpr (ensures_of_sameStock _ inventoryEvents_confined (by decide) ?_)
        intro _ _ _ view' hsame
        have hrid : r.id = inventoryId := Table.key_of_get hget
        subst hrow
        refine ⟨⟨view, r, _, _, hbooks, ?_, hs, hc, hconf, hsame, hrid.trans hid.symm, rfl, rfl,
          ?_, ?_⟩, hsame.orders⟩
        · exact (congrArg _ hrid).trans hget
        · have hcond := of_decide_eq_true hcond
          show r.reservedQuantity + quantity ≤ r.quantityOnHand
          omega
        · intro line ho he hq hi
          simp [InventoryMovement.isOf, ho, he, hq, hi]
      · rintro us (h | h) <;> cases h
    · intro held seen _ _
      exact ih
    · rintro us (h | h) <;> cases h

/-- The loop over the lines of a new order reserves and stores each of them. -/
theorem addLines_ensures (order : Order) (correlationId : Uuid)
    (hphase : order.status.phase = .reserved) (lines : List NormalizedOrderItem)
    {held : List DbLock} {seen view : Db} (hbooks : Books view)
    (hget : view.orders.get order.id = some order) :
    (addLines order correlationId lines).ensures Error.isStockError ⟨held, seen, view⟩
      fun _ pt' => Books pt'.view := by
  induction lines generalizing held seen view with
  | nil => exact hbooks
  | cons line lines ih =>
    refine ensures_bind.mpr (ensures_bind.mpr ((ensures_query _).mpr fun V _ _ => ?_))
    refine ensures_mono (reserveFrom_ensures hbooks ..) ?_
    rintro item ⟨held, seen, view'⟩ ⟨hunlined, horders⟩
    refine ensures_bind.mpr fun env _ => ?_
    refine ensures_bind.mpr (ensures_insert ?_ ?_)
    · intro hconf held seen _
      obtain ⟨D₀, old, new, m, hbooks₀, hold, hs, hc, hm, hsame, hid, honHand, hreserved, hbound,
        hof⟩ := hunlined
      have hget' : (Db.orders view').get order.id = some order :=
        (congrArg (fun t : Table Order => t.get order.id) horders).trans hget
      have hlines : view'.table .orderItems = D₀.orderItems := hsame.lines
      have hconf₀ : D₀.orderItems.conflicts _ = false := hlines ▸ hconf
      refine ih ?_ hget'
      refine hbooks₀.reserve hold hs hc hm hconf₀ (hof _ rfl rfl rfl rfl) hid.symm ?_ hphase
        line.quantity_pos honHand hreserved hbound
        ⟨hsame.items, hsame.movements, ?_, hsame.orders⟩
      · have horders₀ : Db.orders view' = D₀.orders := hsame.orders
        rw [← horders₀]
        exact hget'
      · rw [← hlines]
        rfl
    · rintro us (h | h) <;> exact nomatch h

/-- A command that passes is a new order that waits. -/
theorem validate_ensures {command : NormalizedMarketplaceOrder} {Q : Unit → TxPoint → Prop}
    (hQ : command.status = .pending ∨ command.status = .paid → Q () ⟨held, seen, view⟩) :
    (validate command).ensures Error.isStockError ⟨held, seen, view⟩ Q := by
  refine ensures_bind.mpr (ensures_require' ?_ ?_)
  · intro hstatus
    refine ensures_bind.mpr (ensures_require' ?_ ?_)
    · intro _
      refine ensures_require' (fun _ => hQ hstatus) ?_
      rintro - - (h | h) <;> simp at h
    · rintro - - (h | h) <;> simp at h
  · rintro - - (h | h) <;> simp at h

/-- **An ingestion keeps the books.** -/
theorem ingestNew_ensures [Digests] (hbooks : Books view) (command : NormalizedMarketplaceOrder) :
    (ingestNew command).ensures Error.isStockError ⟨held, seen, view⟩
      fun _ pt' => Books pt'.view := by
  refine ensures_bind.mpr (validate_ensures fun hstatus => ?_)
  refine ensures_bind.mpr fun env seen => ?_
  refine ensures_bind.mpr fun env' seen => ?_
  refine ensures_bind.mpr (ensures_of_sameStock [.workflowRuns] (Tx.confined_add _ (by decide))
    (by decide) ?_)
  intro workflow held seen view₁ hsame₁
  refine ensures_bind.mpr fun env seen => ?_
  refine ensures_bind.mpr fun env' seen => ?_
  refine ensures_bind.mpr (ensures_insert ?_ ?_)
  · intro hconf held seen _
    refine ensures_bind.mpr (ensures_mono (addLines_ensures _ _ ?_ _
      ((hbooks.congr hsame₁).insert_order hconf) ?_) ?_)
    · rcases hstatus with hstatus | hstatus <;> rw [hstatus] <;> rfl
    · exact (Table.get_insert hconf _).trans (if_pos rfl)
    · rintro - ⟨held, seen, view₂⟩ hbooks₂
      refine ensures_bind.mpr (ensures_of_sameStock _ DatabaseEventStore.emit_confined
        (by decide) ?_)
      intro _ _ _ _ hsame
      refine ensures_bind.mpr (ensures_of_sameStock _ audit_confined (by decide) ?_)
      intro _ _ _ _ hsame'
      exact (Books.congr hbooks₂ hsame).congr hsame'
  · rintro us (h | h) <;> exact nomatch h

/-- An order that is on record is returned as it is. -/
theorem ingest_ensures [Digests] (hbooks : Books view) (command : NormalizedMarketplaceOrder) :
    (ingest command).ensures Error.isStockError ⟨held, seen, view⟩
      fun _ pt' => Books pt'.view := by
  refine ensures_bind.mpr ((ensures_query _).mpr fun V _ _ => ?_)
  split
  · refine ensures_bind.mpr (ensures_require' (fun _ => hbooks) fun _ _ => ?_)
    exact not_isStockError (by decide)
  · refine ensures_bind.mpr ((ensures_query _).mpr fun V _ _ => ?_)
    refine ensures_bind.mpr (ensures_require' (fun _ => ingestNew_ensures hbooks command)
      fun _ _ => ?_)
    exact not_isStockError (by decide)

end OrderService

namespace AutonomousOrchestrator

variable {held : List DbLock} {seen view : Db}

/-- The restock of a return, by way of an adjustment; it leaves the orders alone. -/
theorem restock_ensures (hbooks : Books view) (returnRecord : Return) (orderItem : OrderItem) :
    (restock returnRecord orderItem).ensures Error.isStockError ⟨held, seen, view⟩ fun _ pt' =>
      Books pt'.view ∧ (pt'.view.table .orders) = view.orders := by
  unfold restock
  split
  · refine ensures_bind.mpr (ensures_mono (ensures_and
      (InventoryService.adjust_ensures hbooks _ _)
      (ensures_of_confined (writes_mono InventoryService.adjust_confined (fun w hw => hw)
        fun _ he => Error.isStockError.isOrderValidation he) _)) ?_)
    rintro - pt' ⟨hbooks', hsame⟩
    exact ⟨hbooks', hsame .orders (by decide)⟩
  · exact ⟨hbooks, rfl⟩

/-- **A reconciliation keeps the books**: the status it saw is the one it leaves. -/
theorem reconcile_ensures (hbooks : Books view) {order : Order}
    (hcurrent : ∀ r, view.orders.get order.id = some r → r.version = order.version → r = order)
    (returnRecord : Return) (quantity : Int) (workflow : WorkflowRun) :
    (reconcile returnRecord order quantity workflow).ensures Error.isStockError
      ⟨held, seen, view⟩ fun _ pt' => Books pt'.view := by
  have hfail : ∀ {type message}, type ≠ .orderValidationError →
      ¬(Error.raised type message).isStockError := fun h => not_isStockError h
  refine ensures_bind.mpr ((ensures_query _).mpr fun V _ _ => ?_)
  refine ensures_bind.mpr (ensures_orThrow ?_ fun _ _ => hfail (by decide))
  rintro orderItem -
  refine ensures_bind.mpr (ensures_require' ?_ fun _ _ => hfail (by decide))
  intro _
  refine ensures_bind.mpr (ensures_require' ?_ fun _ _ => hfail (by decide))
  intro _
  refine ensures_bind.mpr (ensures_mono (restock_ensures hbooks returnRecord orderItem) ?_)
  rintro - ⟨held, seen, view'⟩ ⟨hbooks', horders⟩
  refine ensures_bind.mpr ((ensures_query _).mpr fun V _ _ => ?_)
  refine ensures_bind.mpr (ensures_require' ?_ fun _ _ => hfail (by decide))
  intro _
  refine ensures_bind.mpr (ensures_require' ?_ fun _ _ => hfail (by decide))
  intro _
  extract_lets finish
  have hfinish : ∀ held seen view, Books view →
      (finish ()).ensures Error.isStockError ⟨held, seen, view⟩ fun _ pt' => Books pt'.view := by
    intro held seen view hbooks
    refine ensures_of_sameStock [.returns, .auditEvents] ?_ (by decide)
      fun _ _ _ _ hsame => hbooks.congr hsame
    refine writes_bind (Tx.confined_flush _ _ (by decide)) fun _ => ?_
    exact writes_bind (Tx.confined_mono addAudit_confined (by decide)) fun _ => trivial
  split
  · rename_i hne
    refine ensures_bind.mpr (ensures_mono
      (OrderService.updateStatus_returned_ensures hbooks' ?_ hne _ _) ?_)
    · intro r hr hv
      have hr : (view'.table .orders).get order.id = some r := hr
      rw [horders] at hr
      exact hcurrent r hr hv
    · rintro - ⟨held, seen, view''⟩ hbooks''
      exact hfinish held seen view'' hbooks''
  · exact hfinish _ _ _ hbooks'

/-- The step of the workflow: it reads its order first, so a later flush of the order fails unless
    the order is current. -/
theorem returnToReconciliation_ensures (hbooks : Books view) (event : EventEnvelope)
    (workflow : WorkflowRun) :
    (returnToReconciliation event workflow).ensures Error.isStockError ⟨held, seen, view⟩
      fun _ pt' => Books pt'.view := by
  unfold returnToReconciliation
  split
  · refine ensures_bind.mpr ((ensures_query _).mpr fun V _ _ => ?_)
    refine ensures_bind.mpr ((ensures_query _).mpr fun V hearlier _ => ?_)
    split
    · rename_i returnRecord order _ horder
      refine ensures_bind.mpr (ensures_require' ?_ fun _ _ => not_isStockError (by decide))
      intro _
      refine ensures_bind.mpr (reconcile_ensures hbooks ?_ returnRecord _ workflow)
      -- an order read earlier is the current one if its version is
      intro r hr hv
      have hkey := Table.key_of_get horder
      have hstored : (V.table .orders).get order.id = some order := by
        rw [show order.id = _ from hkey]
        exact horder
      exact Table.eq_of_version_eq (hearlier .orders) hstored hr hv
    · exact fun _ => not_isStockError (by decide)
  · exact fun _ => not_isStockError (by decide)

end AutonomousOrchestrator

end CommerceOperations
