/-
  The books of the warehouse.

  Four tables speak about the same stock: the items carry two counters, the movements record why
  they changed, the order lines say who holds what, and the orders say how far each line has come.
  The services write them by separate statements; this file says what the tables make of each
  other, and which groups of writes keep it so:

  * `Ledger`     — the counters of an item are the sums of its movements, within their bounds;
  * `Allocated`  — the reserved counter is the sum of the lines still waiting, and a line has the
                   movements of its phase and no others;
  * `Books`      — both, with the phase of a line read from its order.

  A service never writes one of the four alone.  So the lemmas below are about groups of writes, one
  group for each thing that happens in a warehouse: a new item, goods that come in or are corrected
  (`post`), a line that is reserved (`reserve`), a line that is released or shipped (`settle`), and
  an order that takes the status its lines are in (`setStatus`).  Between two lines of one order the
  lines are ahead of their order; that is why `BooksAt` takes the phases as an argument.

  That a sum over a table follows a write is a fact about tables in general (`Relational.Ledger`).
-/
import CommerceOperations.Application.Orders
import CommerceOperations.Relational.Ledger

namespace CommerceOperations

open Relational OrderService

/-! ## Vocabulary -/

/-- Where the stock of an order line is. -/
inductive LinePhase where
  | reserved | released | shipped
  deriving DecidableEq

/-- The phase of the lines of an order. -/
def OrderStatus.phase : OrderStatus → LinePhase
  | pending | paid | processing => .reserved
  | cancelled => .released
  | dispatched | delivered | returned | refunded => .shipped

namespace OrderStatus

/-- Lines wait as long as the order is open. -/
theorem phase_eq_reserved {s : OrderStatus} : s.phase = .reserved ↔ s.isOpen = true := by
  cases s <;> decide

/-- Lines are shipped once their order has left the warehouse. -/
theorem phase_eq_shipped {s : OrderStatus} : s.phase = .shipped ↔ s.isShipped = true := by
  cases s <;> decide

/-- An order that can still be cancelled waits, and so does one that can be dispatched. -/
theorem phase_of_settled {s t : OrderStatus} (h : t ∈ s.allowedTransitions)
    (ht : t = cancelled ∨ t = dispatched) : s.phase = .reserved := by
  rcases ht with rfl | rfl <;> cases s <;> first | rfl | simp [allowedTransitions] at h

/-- Any other transition leaves the lines of an order in their phase. -/
theorem phase_of_allowed {s t : OrderStatus} (h : t ∈ s.allowedTransitions)
    (hc : t ≠ cancelled) (hd : t ≠ dispatched) : t.phase = s.phase := by
  cases s <;> cases t <;> first | rfl | simp_all [allowedTransitions]

end OrderStatus

/-- The movements a line in some phase has. -/
def LinePhase.movements : LinePhase → List InventoryMovementType
  | reserved => [.reservation]
  | released => [.reservation, .release]
  | shipped => [.reservation, .shipment]

/-- The movements that belong to order lines. -/
def InventoryMovementType.ofLine : InventoryMovementType → Bool
  | reservation | release | shipment => true
  | _ => false

namespace InventoryMovement

/-- What a movement does to the stock on hand. -/
def onHandDelta (m : InventoryMovement) : Int :=
  match m.movementType with
  | .receipt | .adjustment | .shipment => m.quantityDelta
  | _ => 0

/-- What a movement does to the reserved stock. -/
def reservedDelta (m : InventoryMovement) : Int :=
  match m.movementType with
  | .reservation | .release | .shipment => m.quantityDelta
  | _ => 0

/-- `m` is the movement of type `t` of an order line. -/
def isOf (m : InventoryMovement) (line : OrderItem) (t : InventoryMovementType) : Bool :=
  m.movementType = t ∧ m.inventoryItemId = line.inventoryItemId ∧ m.sourceType = "order" ∧
    m.sourceId = line.orderId.text ∧
    m.idempotencyKey = movementKey t line.orderId line.externalLineId ∧
    m.quantityDelta = if t = .reservation then line.quantity else -line.quantity

end InventoryMovement

/-- What a line keeps reserved: its quantity while its order is in the reserved phase, and nothing
    before or after. -/
def reservedFor (phase : OrderItem → LinePhase) (line : OrderItem) : Int :=
  if phase line = .reserved then line.quantity else 0

/-! ## Ledger keys -/

/-- Two texts of one length in front of two others. -/
theorem append_inj_of_length {a b c d : String} (h : a ++ b = c ++ d)
    (hlen : a.length = c.length) : a = c ∧ b = d := by
  have hlist : a.toList ++ b.toList = c.toList ++ d.toList := by
    rw [← String.toList_append, ← String.toList_append, h]
  obtain ⟨hac, hbd⟩ := List.append_inj hlist
    (by rw [String.length_toList, String.length_toList, hlen])
  exact ⟨String.toList_injective hac, String.toList_injective hbd⟩

/-- **A ledger key names its line**: an order id has a fixed length. -/
theorem movementKey_inj {t : InventoryMovementType} {o o' : Uuid} {e e' : String}
    (h : movementKey t o e = movementKey t o' e') : o = o' ∧ e = e' := by
  have hkey : ∀ (o : Uuid) (e : String),
      movementKey t o e = ("order-" ++ t.value ++ ":") ++ (o.text ++ (":" ++ e)) := by
    intro o e
    simp [movementKey, toString, String.append_assoc]
  rw [hkey, hkey] at h
  obtain ⟨-, h⟩ := append_inj_of_length h rfl
  obtain ⟨ho, h⟩ := append_inj_of_length h (by rw [o.length_text, o'.length_text])
  exact ⟨Uuid.eq_of_text_eq ho, (append_inj_of_length h rfl).2⟩

/-! ## The ledger of the items -/

/-- The counters are within their bounds, and the movements explain them. -/
structure Ledger (items : Table InventoryItem) (movements : Table InventoryMovement) : Prop where
  /-- what is reserved is there -/
  bounds : ∀ i ∈ items, 0 ≤ i.reservedQuantity ∧ i.reservedQuantity ≤ i.quantityOnHand
  /-- the stock on hand is what came and went -/
  onHand : Explains items movements (·.inventoryItemId) (·.quantityOnHand) (·.onHandDelta)
  /-- and what is reserved is what was reserved and settled -/
  reserved : Explains items movements (·.inventoryItemId) (·.reservedQuantity) (·.reservedDelta)

namespace Ledger

variable {items : Table InventoryItem} {movements : Table InventoryMovement}

/-- A new item has nothing on hand. -/
theorem insert_item (h : Ledger items movements) {item : InventoryItem}
    (hitem : items.conflicts item = false) (honHand : item.quantityOnHand = 0)
    (hreserved : item.reservedQuantity = 0) : Ledger (items.insert item) movements := by
  refine ⟨?_, h.onHand.insert_account hitem honHand, h.reserved.insert_account hitem hreserved⟩
  intro i hi
  rcases (Table.mem_insert hitem).mp hi with hi | rfl
  · exact h.bounds i hi
  · omega

/-- An item changes by what a new movement says. -/
theorem post (h : Ledger items movements) {old new : InventoryItem} {m : InventoryMovement}
    (hold : items.get new.id = some old) (hs : items.succeeds old new = true)
    (hc : items.clashes old new = false) (hm : movements.conflicts m = false)
    (hitem : m.inventoryItemId = new.id)
    (honHand : new.quantityOnHand = old.quantityOnHand + m.onHandDelta)
    (hreserved : new.reservedQuantity = old.reservedQuantity + m.reservedDelta)
    (hbounds : 0 ≤ new.reservedQuantity ∧ new.reservedQuantity ≤ new.quantityOnHand) :
    Ledger (items.update old new) (movements.insert m) := by
  refine ⟨?_, h.onHand.post hold hs hc hm hitem honHand,
    h.reserved.post hold hs hc hm hitem hreserved⟩
  intro i hi
  rcases (Table.mem_update hs hc).mp hi with rfl | ⟨hi, -⟩
  · exact hbounds
  · exact h.bounds i hi

end Ledger

/-! ## The lines and their movements -/

/-- The lines explain the reserved counters, each line has the movements of its phase, and every
    movement of an order belongs to a line. -/
structure Allocated (items : Table InventoryItem) (movements : Table InventoryMovement)
    (lines : Table OrderItem) (phase : OrderItem → LinePhase) : Prop where
  /-- a line is for something -/
  quantity_pos : ∀ l ∈ lines, 0 < l.quantity
  /-- what an item keeps reserved is what waiting lines hold of it -/
  reserved : Explains items lines (·.inventoryItemId) (·.reservedQuantity) (reservedFor phase)
  /-- a line has the movements of its phase -/
  moved : ∀ l ∈ lines, ∀ t, t.ofLine = true →
    ((∃ m ∈ movements, m.isOf l t = true) ↔ t ∈ (phase l).movements)
  /-- and every movement of an order is that of a line -/
  owned : ∀ m ∈ movements, m.movementType.ofLine = true →
    ∃ l ∈ lines, m.isOf l m.movementType = true

/-- Whether a line has a movement is not changed by the movement of another. -/
theorem exists_mem_insert {movements : Table InventoryMovement} {m : InventoryMovement}
    (hm : movements.conflicts m = false) {l : OrderItem} {t : InventoryMovementType}
    (hof : ¬m.isOf l t = true) :
    (∃ m' ∈ movements.insert m, m'.isOf l t = true) ↔ ∃ m' ∈ movements, m'.isOf l t = true := by
  constructor
  · rintro ⟨m', hm', h⟩
    rcases (Table.mem_insert hm).mp hm' with hm' | rfl
    · exact ⟨m', hm', h⟩
    · exact absurd h hof
  · rintro ⟨m', hm', h⟩
    exact ⟨m', (Table.mem_insert hm).mpr (Or.inl hm'), h⟩

/-- The movement of a line has its type. -/
theorem movementType_of_isOf {m : InventoryMovement} {l : OrderItem} {t : InventoryMovementType}
    (h : m.isOf l t = true) : m.movementType = t := by
  simp only [InventoryMovement.isOf, decide_eq_true_eq] at h
  exact h.1

/-- Two lines with one movement have one order and one external id. -/
theorem uniques_of_isOf {m : InventoryMovement} {l l' : OrderItem} {t : InventoryMovementType}
    (h : m.isOf l t = true) (h' : m.isOf l' t = true) :
    (⟨.orderItemLine, [.uuid l'.orderId, .text l'.externalLineId]⟩ : Unique) =
      ⟨.orderItemLine, [.uuid l.orderId, .text l.externalLineId]⟩ := by
  simp only [InventoryMovement.isOf, decide_eq_true_eq] at h h'
  obtain ⟨-, -, -, -, hkey, -⟩ := h
  obtain ⟨-, -, -, -, hkey', -⟩ := h'
  obtain ⟨ho, he⟩ := movementKey_inj (hkey.symm.trans hkey')
  rw [ho, he]

namespace Allocated

variable {items : Table InventoryItem} {movements : Table InventoryMovement}
variable {lines : Table OrderItem} {phase phase' : OrderItem → LinePhase}

/-- Only the phases of the lines there are count. -/
theorem congr (h : Allocated items movements lines phase)
    (heq : ∀ l ∈ lines, phase' l = phase l) : Allocated items movements lines phase' := by
  refine ⟨h.quantity_pos, h.reserved.congr ?_, ?_, h.owned⟩
  · intro l hl
    rw [reservedFor, reservedFor, heq l hl]
  · intro l hl t ht
    rw [heq l hl]
    exact h.moved l hl t ht

/-- A new item holds nothing for anybody. -/
theorem insert_item (h : Allocated items movements lines phase) {item : InventoryItem}
    (hitem : items.conflicts item = false) (hreserved : item.reservedQuantity = 0) :
    Allocated (items.insert item) movements lines phase :=
  ⟨h.quantity_pos, h.reserved.insert_account hitem hreserved, h.moved, h.owned⟩

/-- A movement outside the orders changes nothing here. -/
theorem post_other (h : Allocated items movements lines phase) {old new : InventoryItem}
    {m : InventoryMovement} (hold : items.get new.id = some old)
    (hs : items.succeeds old new = true) (hc : items.clashes old new = false)
    (hm : movements.conflicts m = false) (hother : m.movementType.ofLine = false)
    (hreserved : new.reservedQuantity = old.reservedQuantity) :
    Allocated (items.update old new) (movements.insert m) lines phase := by
  refine ⟨h.quantity_pos, h.reserved.update hold hs hc hreserved, ?_, ?_⟩
  · intro l hl t ht
    rw [← h.moved l hl t ht, exists_mem_insert hm]
    intro hof
    rw [movementType_of_isOf hof, ht] at hother
    exact nomatch hother
  · intro m' hm' hof
    rcases (Table.mem_insert hm).mp hm' with hm' | rfl
    · exact h.owned m' hm' hof
    · rw [hof] at hother
      exact nomatch hother

/-- A new line is reserved for.  The sum of the waiting lines grows by its quantity, as the counter
    does, and the new movement is the line's own. -/
theorem reserve (h : Allocated items movements lines phase) {old new : InventoryItem}
    {m : InventoryMovement} {line : OrderItem} (hold : items.get new.id = some old)
    (hs : items.succeeds old new = true) (hc : items.clashes old new = false)
    (hm : movements.conflicts m = false) (hline : lines.conflicts line = false)
    (hof : m.isOf line .reservation = true) (hitem : line.inventoryItemId = new.id)
    (hphase : phase line = .reserved) (hpos : 0 < line.quantity)
    (hreserved : new.reservedQuantity = old.reservedQuantity + line.quantity) :
    Allocated (items.update old new) (movements.insert m) (lines.insert line) phase := by
  have hfresh : ∀ {m' : InventoryMovement} {t l}, l ∈ lines → m'.isOf l t = true →
      ¬m'.isOf line t = true := fun hl hof' hof'' =>
    (Table.conflicts_eq_false.mp hline _ hl).2 _
    (uniques_of_isOf hof' hof'' ▸ List.mem_singleton_self _)
      (List.mem_singleton_self _)
  have hamount : reservedFor phase line = line.quantity := if_pos hphase
  refine ⟨?_, h.reserved.post hold hs hc hline hitem (by rw [hamount]; exact hreserved), ?_, ?_⟩
  · intro l hl
    rcases (Table.mem_insert hline).mp hl with hl | rfl
    · exact h.quantity_pos l hl
    · exact hpos
  · intro l hl t ht
    rcases (Table.mem_insert hline).mp hl with hl | rfl
    · rw [← h.moved l hl t ht, exists_mem_insert hm]
      intro hof'
      obtain rfl := (movementType_of_isOf hof').symm.trans (movementType_of_isOf hof)
      exact hfresh hl hof' hof
    · rw [hphase]
      constructor
      · rintro ⟨m', hm', hof'⟩
        rcases (Table.mem_insert hm).mp hm' with hm' | rfl
        · -- the owner of an older movement is an older line
          have hty := movementType_of_isOf hof'
          obtain ⟨l', hl', hown⟩ := h.owned m' hm' (by rw [hty]; exact ht)
          rw [hty] at hown
          exact absurd hof' (hfresh hl' hown)
        · rw [← movementType_of_isOf hof', movementType_of_isOf hof]
          exact List.mem_singleton_self _
      · intro hmem
        obtain rfl := List.mem_singleton.mp hmem
        exact ⟨m, (Table.mem_insert hm).mpr (Or.inr rfl), hof⟩
  · intro m' hm' hty
    rcases (Table.mem_insert hm).mp hm' with hm' | rfl
    · obtain ⟨l, hl, hown⟩ := h.owned m' hm' hty
      exact ⟨l, (Table.mem_insert hline).mpr (Or.inl hl), hown⟩
    · refine ⟨line, (Table.mem_insert hline).mpr (Or.inr rfl), ?_⟩
      rw [movementType_of_isOf hof]
      exact hof

/-- A waiting line is settled: released or shipped.  The line leaves the sum of the waiting ones and
    has one movement more; for the others nothing changes, because a movement names its line. -/
theorem settle (h : Allocated items movements lines phase) {old new : InventoryItem}
    {m : InventoryMovement} {line : OrderItem} {t : InventoryMovementType} {target : LinePhase}
    (hold : items.get new.id = some old) (hs : items.succeeds old new = true)
    (hc : items.clashes old new = false) (hm : movements.conflicts m = false)
    (hline : line ∈ lines) (hof : m.isOf line t = true) (hitem : line.inventoryItemId = new.id)
    (hphase : phase line = .reserved) (htarget : target.movements = [.reservation, t])
    (hphase' : phase' line = target) (hoff : ∀ l ∈ lines, l ≠ line → phase' l = phase l)
    (hreserved : new.reservedQuantity = old.reservedQuantity - line.quantity) :
    Allocated (items.update old new) (movements.insert m) lines phase' := by
  have hne : phase' line ≠ .reserved := by
    rw [hphase']
    rintro rfl
    exact nomatch htarget
  have hty := movementType_of_isOf hof
  refine ⟨h.quantity_pos, h.reserved.settle hold hs hc hline hitem ?_ ?_, ?_, ?_⟩
  · intro l hl hlne
    rw [reservedFor, reservedFor, hoff l hl hlne]
  · rw [reservedFor, reservedFor, if_pos hphase, if_neg hne, hreserved]
    omega
  -- the line has its reservation and the new movement, the others what they had
  · intro l hl t' ht'
    by_cases hl' : l = line
    · subst hl'
      have hbefore := h.moved l hl t' ht'
      rw [hphase] at hbefore
      rw [hphase', htarget]
      constructor
      · rintro ⟨m', hm', hof'⟩
        rcases (Table.mem_insert hm).mp hm' with hm' | rfl
        · have hmem := hbefore.mp ⟨m', hm', hof'⟩
          rw [List.mem_singleton.mp hmem]
          exact List.mem_cons_self
        · rw [← movementType_of_isOf hof', hty]
          exact List.mem_cons_of_mem _ List.mem_cons_self
      · intro hmem
        rcases List.mem_cons.mp hmem with rfl | hmem
        · obtain ⟨m', hm', hof'⟩ := hbefore.mpr (List.mem_singleton_self _)
          exact ⟨m', (Table.mem_insert hm).mpr (Or.inl hm'), hof'⟩
        · obtain rfl := List.mem_singleton.mp hmem
          exact ⟨m, (Table.mem_insert hm).mpr (Or.inr rfl), hof⟩
    · rw [hoff l hl hl', ← h.moved l hl t' ht', exists_mem_insert hm]
      intro hof'
      obtain rfl := (movementType_of_isOf hof').symm.trans hty
      exact hl' (lines.eq_of_unique_mem hl hline (List.mem_singleton_self _)
        (uniques_of_isOf hof' hof ▸ List.mem_singleton_self _))
  · intro m' hm' hof'
    rcases (Table.mem_insert hm).mp hm' with hm' | rfl
    · exact h.owned m' hm' hof'
    · exact ⟨line, hline, by rw [hty]; exact hof⟩

end Allocated

/-! ## The books of the database -/

/-- The phase of a line, as its order has it. -/
def Db.linePhase (D : Db) (line : OrderItem) : LinePhase :=
  ((D.orders.get line.orderId).map (·.status.phase)).getD .reserved

/-- The books, when the lines are in the phases given. -/
structure BooksAt (D : Db) (phase : OrderItem → LinePhase) : Prop where
  /-- the movements explain the counters -/
  ledger : Ledger D.inventoryItems D.inventoryMovements
  /-- and so do the lines, in their phases -/
  allocated : Allocated D.inventoryItems D.inventoryMovements D.orderItems phase
  /-- each of which has an order -/
  lineOrder : ∀ l ∈ D.orderItems, ∃ o, D.orders.get l.orderId = some o

/-- **The books are in order**: the invariant of the warehouse. -/
def Books (D : Db) : Prop := BooksAt D D.linePhase

/-- The tables the books are about. -/
def stockTables : List TableName := [.inventoryItems, .inventoryMovements, .orders, .orderItems]

/-- `D'` holds the same stock, orders and lines as `D`. -/
def SameStock (D D' : Db) : Prop := ∀ i ∈ stockTables, D'.table i = D.table i

namespace SameStock

variable {D D' D'' : Db}

/-- In one state the stock is the same. -/
theorem refl (D : Db) : SameStock D D := fun _ _ => rfl

/-- The stock is the same across three states, if it is from each to the next. -/
theorem trans (h : SameStock D D') (h' : SameStock D' D'') : SameStock D D'' :=
  fun i hi => (h' i hi).trans (h i hi)

/-- Same stock means the same items. -/
theorem items (h : SameStock D D') : D'.inventoryItems = D.inventoryItems := h _ (by decide)

/-- Same stock means the same movements. -/
theorem movements (h : SameStock D D') : D'.inventoryMovements = D.inventoryMovements :=
  h _ (by decide)

/-- Same stock means the same orders. -/
theorem orders (h : SameStock D D') : D'.orders = D.orders := h _ (by decide)

/-- Same stock means the same order lines. -/
theorem lines (h : SameStock D D') : D'.orderItems = D.orderItems := h _ (by decide)

/-- One write on both sides leaves the stock the same. -/
theorem apply (h : SameStock D D') (w : Write TableName.Entity) :
    SameStock (Database.apply w D) (Database.apply w D') := by
  intro i hi
  by_cases hw : i = w.table
  · subst hw
    show Function.update _ _ _ _ = Function.update _ _ _ _
    rw [Function.update_self, Function.update_self, h _ hi]
  · rw [Database.apply_table_of_ne w D' hw, Database.apply_table_of_ne w D hw]
    exact h i hi

/-- A write on a table outside the stock leaves it the same. -/
theorem apply_other (h : SameStock D D') {w : Write TableName.Entity}
    (hw : w.table ∉ stockTables) : SameStock D (Database.apply w D') := by
  intro i hi
  rw [Database.apply_table_of_ne w D' (by rintro rfl; exact hw hi)]
  exact h i hi

end SameStock

/-- The phase of a line whose order is known. -/
theorem Db.linePhase_of_get {D : Db} {o : Order} {l : OrderItem}
    (h : D.orders.get l.orderId = some o) : D.linePhase l = o.status.phase := by
  rw [linePhase, h]
  rfl

/-- The phases depend on the orders alone. -/
theorem Db.linePhase_congr {D D' : Db} (h : D'.orders = D.orders) : D'.linePhase = D.linePhase := by
  funext l
  rw [linePhase, linePhase, h]

namespace BooksAt

variable {D D' : Db} {phase phase' : OrderItem → LinePhase}

/-- The books are about these four tables. -/
theorem congr (h : BooksAt D phase) (hD : SameStock D D') : BooksAt D' phase := by
  refine ⟨?_, ?_, ?_⟩
  · rw [hD.items, hD.movements]
    exact h.ledger
  · rw [hD.items, hD.movements, hD.lines]
    exact h.allocated
  · rw [hD.lines, hD.orders]
    exact h.lineOrder

/-- Only the phases of the lines there are count. -/
theorem congr_phase (h : BooksAt D phase) (heq : ∀ l ∈ D.orderItems, phase' l = phase l) :
    BooksAt D phase' :=
  ⟨h.ledger, h.allocated.congr heq, h.lineOrder⟩

end BooksAt

namespace Books

variable {D D' : Db}

/-- What happens in other tables leaves them in order. -/
theorem congr (h : Books D) (hD : SameStock D D') : Books D' := by
  unfold Books
  rw [Db.linePhase_congr hD.orders]
  exact BooksAt.congr h hD

/-- Without stock and orders there is nothing to account for. -/
theorem of_empty (hitems : D.inventoryItems = ∅) (hmovements : D.inventoryMovements = ∅)
    (hlines : D.orderItems = ∅) : Books D := by
  refine ⟨⟨?_, ⟨?_, ?_⟩, ⟨?_, ?_⟩⟩, ⟨?_, ⟨?_, ?_⟩, ?_, ?_⟩, ?_⟩ <;>
    intro x hx <;> simp [hitems, hmovements, hlines] at hx

/-- A new item without stock keeps the books: no movement and no line is about it. -/
theorem insert_item (h : Books D) {item : InventoryItem}
    (hitem : D.inventoryItems.conflicts item = false) (honHand : item.quantityOnHand = 0)
    (hreserved : item.reservedQuantity = 0) :
    Books (Database.apply ⟨.inventoryItems, .insert item⟩ D) :=
  ⟨h.ledger.insert_item hitem honHand hreserved, h.allocated.insert_item hitem hreserved,
    h.lineOrder⟩

/-- A new order without lines keeps the books. -/
theorem insert_order (h : Books D) {order : Order} (horder : D.orders.conflicts order = false) :
    Books (Database.apply ⟨.orders, .insert order⟩ D) := by
  have hget : ∀ l ∈ D.orderItems, ∀ o, D.orders.get l.orderId = some o →
      (D.orders.insert order).get l.orderId = some o := by
    intro l _ o ho
    have hne := (Table.conflicts_eq_false.mp horder o (Table.mem_of_get ho)).1
    rw [Table.get_insert horder, if_neg (fun hk => hne ((Table.key_of_get ho).trans hk.symm))]
    exact ho
  refine ⟨h.ledger, h.allocated.congr ?_, ?_⟩
  · intro l hl
    obtain ⟨o, ho⟩ := h.lineOrder l hl
    rw [Db.linePhase_of_get ho]
    exact Db.linePhase_of_get (hget l hl o ho)
  · intro l hl
    obtain ⟨o, ho⟩ := h.lineOrder l hl
    exact ⟨o, hget l hl o ho⟩

/-- A receipt or an adjustment: the counter on hand moves with its movement. -/
theorem post (h : Books D) {old new : InventoryItem} {m : InventoryMovement}
    (hold : D.inventoryItems.get new.id = some old)
    (hs : D.inventoryItems.succeeds old new = true) (hc : D.inventoryItems.clashes old new = false)
    (hm : D.inventoryMovements.conflicts m = false) (hitem : m.inventoryItemId = new.id)
    (htype : m.movementType = .receipt ∨ m.movementType = .adjustment)
    (honHand : new.quantityOnHand = old.quantityOnHand + m.quantityDelta)
    (hreserved : new.reservedQuantity = old.reservedQuantity)
    (hbound : new.reservedQuantity ≤ new.quantityOnHand) :
    Books (Database.apply ⟨.inventoryMovements, .insert m⟩
      (Database.apply ⟨.inventoryItems, .update old new⟩ D)) := by
  have hdeltas : m.onHandDelta = m.quantityDelta ∧ m.reservedDelta = 0 ∧
      m.movementType.ofLine = false := by
    rcases htype with htype | htype <;>
      simp [InventoryMovement.onHandDelta, InventoryMovement.reservedDelta, htype,
        InventoryMovementType.ofLine]
  have hnonneg := (h.ledger.bounds old (Table.mem_of_get hold)).1
  refine ⟨?_, ?_, h.lineOrder⟩
  · refine h.ledger.post hold hs hc hm hitem ?_ ?_ ?_ <;> omega
  · exact h.allocated.post_other hold hs hc hm hdeltas.2.2 hreserved

/-- A reservation: the counter, its movement and the line. -/
theorem reserve (h : Books D) {old new : InventoryItem} {m : InventoryMovement}
    {line : OrderItem} {o : Order} (hold : D.inventoryItems.get new.id = some old)
    (hs : D.inventoryItems.succeeds old new = true) (hc : D.inventoryItems.clashes old new = false)
    (hm : D.inventoryMovements.conflicts m = false) (hline : D.orderItems.conflicts line = false)
    (hof : m.isOf line .reservation = true) (hitem : line.inventoryItemId = new.id)
    (ho : D.orders.get line.orderId = some o) (hphase : o.status.phase = .reserved)
    (hpos : 0 < line.quantity) (honHand : new.quantityOnHand = old.quantityOnHand)
    (hreserved : new.reservedQuantity = old.reservedQuantity + line.quantity)
    (hbound : new.reservedQuantity ≤ new.quantityOnHand)
    (hD' : D'.inventoryItems = D.inventoryItems.update old new ∧
      D'.inventoryMovements = D.inventoryMovements.insert m ∧
      D'.orderItems = D.orderItems.insert line ∧ D'.orders = D.orders) : Books D' := by
  obtain ⟨hitems, hmovements, hlines, horders⟩ := hD'
  simp only [InventoryMovement.isOf, decide_eq_true_eq] at hof
  have hdeltas : m.onHandDelta = 0 ∧ m.reservedDelta = line.quantity := by
    simp [InventoryMovement.onHandDelta, InventoryMovement.reservedDelta, hof]
  have hnonneg := (h.ledger.bounds old (Table.mem_of_get hold)).1
  unfold Books
  rw [Db.linePhase_congr horders]
  refine ⟨?_, ?_, ?_⟩
  · rw [hitems, hmovements]
    refine h.ledger.post hold hs hc hm (hof.2.1.trans hitem) ?_ ?_ ?_ <;> omega
  · rw [hitems, hmovements, hlines]
    refine h.allocated.reserve hold hs hc hm hline ?_ hitem ?_ hpos hreserved
    · simpa [InventoryMovement.isOf] using hof
    · rw [Db.linePhase_of_get ho, hphase]
  · rw [hlines, horders]
    intro l hl
    rcases (Table.mem_insert hline).mp hl with hl | rfl
    · exact h.lineOrder l hl
    · exact ⟨o, ho⟩

end Books

/-- What the settlement of a line takes from the stock on hand. -/
def LinePhase.taken (target : LinePhase) (quantity : Int) : Int :=
  if target = .shipped then quantity else 0

/-- A line is settled: the counters, its movement, and the line in its new phase. -/
theorem BooksAt.settle {D : Db} {phase phase' : OrderItem → LinePhase} (h : BooksAt D phase)
    {old new : InventoryItem} {m : InventoryMovement} {line : OrderItem} {target : LinePhase}
    {t : InventoryMovementType} (hold : D.inventoryItems.get new.id = some old)
    (hs : D.inventoryItems.succeeds old new = true) (hc : D.inventoryItems.clashes old new = false)
    (hm : D.inventoryMovements.conflicts m = false) (hline : line ∈ D.orderItems)
    (hof : m.isOf line t = true) (hitem : line.inventoryItemId = new.id)
    (hphase : phase line = .reserved) (htarget : target.movements = [.reservation, t])
    (hphase' : phase' line = target) (hoff : ∀ l ∈ D.orderItems, l ≠ line → phase' l = phase l)
    (honHand : new.quantityOnHand = old.quantityOnHand - target.taken line.quantity)
    (hreserved : new.reservedQuantity = old.reservedQuantity - line.quantity)
    (hbounds : 0 ≤ new.reservedQuantity ∧ new.reservedQuantity ≤ new.quantityOnHand) :
    BooksAt (Database.apply ⟨.inventoryMovements, .insert m⟩
      (Database.apply ⟨.inventoryItems, .update old new⟩ D)) phase' := by
  have hof' := hof
  simp only [InventoryMovement.isOf, decide_eq_true_eq] at hof'
  obtain ⟨htype, hmitem, -, -, -, hdelta⟩ := hof'
  have hdeltas : m.onHandDelta = -target.taken line.quantity ∧
      m.reservedDelta = -line.quantity := by
    cases target with
    | reserved => exact nomatch htarget
    | released =>
      obtain rfl : InventoryMovementType.release = t := by
        simpa [LinePhase.movements] using htarget
      simp [InventoryMovement.onHandDelta, InventoryMovement.reservedDelta, LinePhase.taken,
        htype, hdelta]
    | shipped =>
      obtain rfl : InventoryMovementType.shipment = t := by
        simpa [LinePhase.movements] using htarget
      simp [InventoryMovement.onHandDelta, InventoryMovement.reservedDelta, LinePhase.taken,
        htype, hdelta]
  refine ⟨?_, ?_, h.lineOrder⟩
  · refine h.ledger.post hold hs hc hm (hmitem.trans hitem) ?_ ?_ hbounds <;> omega
  · exact h.allocated.settle hold hs hc hm hline hof hitem hphase htarget hphase' hoff hreserved

/-- The order takes the status its lines are in already.  By then nothing is left to do: the phase
    of each line, read from the order, is the one it was settled to. -/
theorem BooksAt.setStatus {D : Db} {phase : OrderItem → LinePhase} (h : BooksAt D phase)
    {order new : Order} (hs : D.orders.succeeds order new = true)
    (hc : D.orders.clashes order new = false)
    (hphase : ∀ l ∈ D.orderItems, phase l =
      if l.orderId = new.id then new.status.phase else D.linePhase l) :
    Books (Database.apply ⟨.orders, .update order new⟩ D) := by
  have hget' : ∀ k, (D.orders.update order new).get k =
      if new.id = k then some new else D.orders.get k := Table.get_update hs hc
  refine ⟨h.ledger, h.allocated.congr ?_, ?_⟩
  · intro l hl
    rw [hphase l hl]
    by_cases hk : l.orderId = new.id
    · rw [if_pos hk]
      refine Db.linePhase_of_get ?_
      exact (hget' _).trans (if_pos hk.symm)
    · rw [if_neg hk]
      have hsame : (D.orders.update order new).get l.orderId = D.orders.get l.orderId :=
        (hget' _).trans (if_neg fun hk' => hk hk'.symm)
      show (((D.orders.update order new).get l.orderId).map (·.status.phase)).getD .reserved = _
      rw [hsame]
      rfl
  · intro l hl
    obtain ⟨o, ho⟩ := h.lineOrder l hl
    by_cases hk : l.orderId = new.id
    · exact ⟨new, (hget' _).trans (if_pos hk.symm)⟩
    · exact ⟨o, (hget' _).trans ((if_neg fun hk' => hk hk'.symm).trans ho)⟩

/-- The counters of an item cover each line that waits on it. -/
theorem BooksAt.covers {D : Db} {phase : OrderItem → LinePhase} (h : BooksAt D phase)
    {item : InventoryItem} {line : OrderItem} (hline : line ∈ D.orderItems)
    (hitem : D.inventoryItems.get line.inventoryItemId = some item)
    (hphase : phase line = .reserved) :
    line.quantity ≤ item.reservedQuantity ∧ item.reservedQuantity ≤ item.quantityOnHand := by
  have hmem := Table.mem_of_get hitem
  refine ⟨?_, (h.ledger.bounds item hmem).2⟩
  rw [h.allocated.reserved.balance_eq item hmem]
  have hle := Table.le_sum_of_mem D.orderItems hline
    (f := fun l => if l.inventoryItemId = Row.key item then reservedFor phase l else 0) (by
      intro l hl
      have hpos := h.allocated.quantity_pos l hl
      dsimp only [reservedFor]
      split <;> [split; skip] <;> omega)
  rwa [if_pos (Table.key_of_get hitem).symm, reservedFor, if_pos hphase] at hle

end CommerceOperations
