/-
  The weighted cost of an item.

  A receipt, and an adjustment upwards that states a unit cost, makes the cost basis of its item the
  average over the units; everything else leaves it.  The average is rounded each time, so the
  errors add up, but they never carry the basis out of the range of the unit costs: rounding keeps
  the order, and it leaves the unit costs themselves as they are.

  * `Addition`           — units that join an item at a price;
  * `basisAfter`         — the basis after a list of additions, for any rounding;
  * `CostedBy`           — the item's basis in the database is that of its additions;
  * `StockCall.Reprices` — what one call does to the costs.

  The additions to an item are not stored anywhere.  They are recovered from the log of a run, which
  has every call with the state it found: what a call adds, and at what cost, is a function of these
  two (`StockCall.additionTo`).
-/
import CommerceOperations.Application.Replays
import CommerceOperations.Decimals.Context
import CommerceOperations.Persistence.Money

namespace CommerceOperations

open Relational Prog AutonomousOrchestrator

/-! ## Averages and rounding -/

/-- Units that join others at a price. -/
structure Addition where
  /-- the units there before -/
  quantity : Int
  /-- the units that join them -/
  added : Int
  /-- what each of these costs -/
  unitCost : Rat

namespace Addition

/-- There may be no units yet, but some are added. -/
def Sound (a : Addition) : Prop := 0 ≤ a.quantity ∧ 0 < a.added

/-- The exact average of what was there, at `basis`, and what is added. -/
def average (a : Addition) (basis : Rat) : Rat :=
  averageCost a.quantity basis a.added a.unitCost

variable {a : Addition}

/-- The average is the basis at which the value of the stock is that of its parts. -/
theorem average_mul (h : a.Sound) (basis : Rat) :
    a.average basis * ((a.quantity + a.added : Int) : Rat) =
      basis * a.quantity + a.unitCost * a.added := by
  have hpos : (0 : Rat) < ((a.quantity + a.added : Int) : Rat) := by
    exact_mod_cast add_pos_of_nonneg_of_pos h.1 h.2
  exact div_mul_cancel₀ _ hpos.ne'

/-- An average is not below what is below both of its parts. -/
theorem le_average (h : a.Sound) {low basis : Rat} (hbasis : low ≤ basis)
    (hcost : low ≤ a.unitCost) :
    low ≤ a.average basis := by
  have hpos : (0 : Rat) < ((a.quantity + a.added : Int) : Rat) := by
    exact_mod_cast add_pos_of_nonneg_of_pos h.1 h.2
  have hquantity : (0 : Rat) ≤ a.quantity := by exact_mod_cast h.1
  have hadded : (0 : Rat) ≤ a.added := by exact_mod_cast h.2.le
  refine (le_div_iff₀ hpos).mpr ?_
  push_cast
  nlinarith [mul_le_mul_of_nonneg_right hbasis hquantity, mul_le_mul_of_nonneg_right hcost hadded]

/-- An average is not above what is above both of its parts. -/
theorem average_le (h : a.Sound) {high basis : Rat} (hbasis : basis ≤ high)
    (hcost : a.unitCost ≤ high) : a.average basis ≤ high := by
  have hpos : (0 : Rat) < ((a.quantity + a.added : Int) : Rat) := by
    exact_mod_cast add_pos_of_nonneg_of_pos h.1 h.2
  have hquantity : (0 : Rat) ≤ a.quantity := by exact_mod_cast h.1
  have hadded : (0 : Rat) ≤ a.added := by exact_mod_cast h.2.le
  refine (div_le_iff₀ hpos).mpr ?_
  push_cast
  nlinarith [mul_le_mul_of_nonneg_right hbasis hquantity, mul_le_mul_of_nonneg_right hcost hadded]

/-- The first units come at their own cost. -/
theorem average_of_empty (h : a.Sound) (hempty : a.quantity = 0) (basis : Rat) :
    a.average basis = a.unitCost := by
  have hadded : (a.added : Rat) ≠ 0 := by exact_mod_cast h.2.ne'
  unfold average averageCost
  rw [hempty, zero_add, Int.cast_zero, mul_zero, zero_add]
  exact mul_div_cancel_right₀ _ hadded

end Addition

/-- The basis after some additions, rounded after each. -/
def basisAfter (round : Rat → Rat) (additions : List Addition) : Rat :=
  additions.foldl (fun basis a => round (a.average basis)) 0

/-- `x` lies between two of the unit costs. -/
def BetweenCosts (additions : List Addition) (x : Rat) : Prop :=
  ∃ a ∈ additions, ∃ b ∈ additions, a.unitCost ≤ x ∧ x ≤ b.unitCost

/-- **Rounding does not carry the basis away**, by induction on the additions: with each the range
    of the unit costs grows to hold the new one. -/
theorem basisAfter_between {round : Rat → Rat} (hmono : Monotone round) {additions : List Addition}
    (hne : additions ≠ []) (hfirst : ∀ a ∈ additions.head?, a.quantity = 0)
    (hsound : ∀ a ∈ additions, a.Sound) (hfix : ∀ a ∈ additions, round a.unitCost = a.unitCost) :
    BetweenCosts additions (basisAfter round additions) := by
  induction additions using List.reverseRecOn with
  | nil => exact absurd rfl hne
  | append_singleton additions last ih =>
    have hlast : last ∈ additions ++ [last] := List.mem_append_right _ (List.mem_singleton_self _)
    have hstep : basisAfter round (additions ++ [last]) =
        round (last.average (basisAfter round additions)) := by
      unfold basisAfter
      rw [List.foldl_append]
      rfl
    rw [hstep]
    rcases eq_or_ne additions [] with rfl | hrest
    · have hempty : last.quantity = 0 := hfirst last rfl
      rw [Addition.average_of_empty (hsound last hlast) hempty, hfix last hlast]
      exact ⟨last, hlast, last, hlast, le_rfl, le_rfl⟩
    · have hhead : (additions ++ [last]).head? = additions.head? := by
        rw [List.head?_append_of_ne_nil _ hrest]
      have hmem : ∀ a ∈ additions, a ∈ additions ++ [last] := fun a ha => List.mem_append_left _ ha
      obtain ⟨low, hlow, high, hhigh, hle, hge⟩ := ih hrest (hhead ▸ hfirst)
        (fun a ha => hsound a (hmem a ha)) fun a ha => hfix a (hmem a ha)
      have hbelow : ∃ a ∈ additions ++ [last],
          a.unitCost ≤ round (last.average (basisAfter round additions)) := by
        rcases le_total low.unitCost last.unitCost with h | h
        · refine ⟨low, hmem low hlow, ?_⟩
          rw [← hfix low (hmem low hlow)]
          exact hmono (Addition.le_average (hsound last hlast) hle h)
        · refine ⟨last, hlast, ?_⟩
          rw [← hfix last hlast]
          exact hmono (Addition.le_average (hsound last hlast) (h.trans hle) le_rfl)
      have habove : ∃ b ∈ additions ++ [last],
          round (last.average (basisAfter round additions)) ≤ b.unitCost := by
        rcases le_total last.unitCost high.unitCost with h | h
        · refine ⟨high, hmem high hhigh, ?_⟩
          rw [← hfix high (hmem high hhigh)]
          exact hmono (Addition.average_le (hsound last hlast) hge h)
        · refine ⟨last, hlast, ?_⟩
          rw [← hfix last hlast]
          exact hmono (Addition.average_le (hsound last hlast) (hge.trans h) le_rfl)
      obtain ⟨a, ha, hale⟩ := hbelow
      obtain ⟨b, hb, hleb⟩ := habove
      exact ⟨a, ha, b, hb, hale, hleb⟩

/-- Half-even rounding to four places leaves four decimals as they are. -/
theorem toPlaces_of_isMoney {x : Rat} (h : IsMoney x) : Decimals.toPlaces 4 x = x := by
  obtain ⟨n, rfl⟩ := h
  have := @Decimals.toPlaces_of_places 4 n
  norm_num at this ⊢
  exact this

/-! ## Priced additions -/

/-- What the calls before and after a change of costs agree on, of an item they do not touch. -/
def InventoryItem.costs (item : InventoryItem) : (String × String × Uuid) × Rat :=
  (item.goods, item.costBasis)

/-- The cost basis is no balance, and neither are the goods. -/
theorem steady_costs : Steady InventoryItem.costs := fun _ _ _ _ => rfl

/-- The units on hand; none of an item that is not there. -/
def Db.quantityOnHand (D : Db) (id : Uuid) : Int :=
  ((D.inventoryItems.get id).map (·.quantityOnHand)).getD 0

/-- The cost basis; zero for an item that is not there. -/
def Db.costBasis (D : Db) (id : Uuid) : Rat :=
  ((D.inventoryItems.get id).map (·.costBasis)).getD 0

/-- What a stored item holds is on hand. -/
theorem Db.quantityOnHand_of_get {D : Db} {i : Uuid} {item : InventoryItem}
    (h : D.inventoryItems.get i = some item) : D.quantityOnHand i = item.quantityOnHand := by
  unfold Db.quantityOnHand
  rw [h]
  rfl

/-- Of an item that is not there nothing is on hand. -/
theorem Db.quantityOnHand_of_none {D : Db} {i : Uuid} (h : D.inventoryItems.get i = none) :
    D.quantityOnHand i = 0 := by
  unfold Db.quantityOnHand
  rw [h]
  rfl

/-- The cost basis of a stored item is the one in its row. -/
theorem Db.costBasis_of_get {D : Db} {i : Uuid} {item : InventoryItem}
    (h : D.inventoryItems.get i = some item) : D.costBasis i = item.costBasis := by
  unfold Db.costBasis
  rw [h]
  rfl

/-- An item that is not there has cost nothing yet. -/
theorem Db.costBasis_of_none {D : Db} {i : Uuid} (h : D.inventoryItems.get i = none) :
    D.costBasis i = 0 := by
  unfold Db.costBasis
  rw [h]
  rfl

namespace StockChange

/-- The units a change brings, negative where it takes some. -/
def quantity : StockChange → Int
  | receive _ command => command.quantityReceived
  | adjust _ command => command.quantityDelta

/-- The change is made to this item. -/
def Into : StockChange → InventoryItem → Prop
  | receive _ command, item =>
    item.sku = command.sku ∧ item.storageLocation = command.storageLocation
  | adjust inventoryItemId _, item => item.id = inventoryItemId

instance : (c : StockChange) → (item : InventoryItem) → Decidable (c.Into item)
  | receive _ command, item => inferInstanceAs
      (Decidable (item.sku = command.sku ∧ item.storageLocation = command.storageLocation))
  | adjust inventoryItemId _, item => inferInstanceAs (Decidable (item.id = inventoryItemId))

/-- The units and their cost, if the change adds units at a cost and is no repetition. -/
def priced (D : Db) (c : StockChange) : Option (Int × Rat) :=
  if 0 < c.quantity ∧ ∀ m ∈ D.inventoryMovements.rows, m.idempotencyKey ≠ c.idempotencyKey then
    (c.unitCost D).map fun unitCost => (c.quantity, unitCost)
  else none

/-- The change adds `n` units at cost `u` to `item`, which is shown as it is in `D'`. -/
structure Repriced (c : StockChange) (n : Int) (u : Rat) (D D' : Db) (item : InventoryItem) :
    Prop where
  /-- the item is on record afterwards -/
  item_get : D'.inventoryItems.get item.id = some item
  /-- it is the one the change is made to -/
  into : c.Into item
  /-- there was no negative stock, and units came in -/
  added : 0 ≤ D.quantityOnHand item.id ∧ 0 < n
  /-- they are on hand now -/
  quantity : item.quantityOnHand = D.quantityOnHand item.id + n
  /-- the value of the stock is that of its parts, but for the rounding of the column -/
  basis : ∃ exact : Rat,
    exact * ((D.quantityOnHand item.id + n : Int) : Rat) =
        D.costBasis item.id * D.quantityOnHand item.id + u * n ∧
      item.costBasis = money exact
  /-- it is the item it was, or the first at its place -/
  place : (∃ old, D.inventoryItems.get item.id = some old ∧ item.goods = old.goods) ∨
    (D.inventoryItems.get item.id = none ∧ ∀ i ∈ D.inventoryItems,
      ¬(i.sku = item.sku ∧ i.storageLocation = item.storageLocation))
  /-- no other item has another basis, or is other goods -/
  others : ∀ i, i ≠ item.id →
    (D'.inventoryItems.get i).map InventoryItem.costs =
      (D.inventoryItems.get i).map InventoryItem.costs

/-- What the change does to the costs. -/
def Reprices (c : StockChange) (D D' : Db) : Prop :=
  match c.priced D with
  | some (n, u) => ∃ item, c.Repriced n u D D' item
  | none => SameItems InventoryItem.costs D D'

variable {c : StockChange} {D D' : Db}

/-- A repetition adds nothing: its key is in use. -/
theorem priced_of_used {m : InventoryMovement} (hm : m ∈ D.inventoryMovements)
    (hkey : m.idempotencyKey = c.idempotencyKey) : c.priced D = none := by
  unfold priced
  rw [if_neg]
  rintro ⟨-, hfresh⟩
  exact hfresh m hm hkey

/-- Under a fresh key only the sign of the quantity and the cost decide. -/
theorem priced_of_fresh (hfresh : ∀ m ∈ D.inventoryMovements, m.idempotencyKey ≠ c.idempotencyKey) :
    c.priced D = if 0 < c.quantity then
      (c.unitCost D).map fun unitCost => (c.quantity, unitCost) else none := by
  unfold priced
  by_cases hpos : 0 < c.quantity
  · rw [if_pos ⟨hpos, hfresh⟩, if_pos hpos]
  · rw [if_neg fun h => hpos h.1, if_neg hpos]

/-- The exact average, before it is written into the column. -/
theorem exists_exact {q n : Int} (hq : 0 ≤ q) (hn : 0 < n) (basis u : Rat) :
    ∃ exact : Rat, exact * ((q + n : Int) : Rat) = basis * q + u * n ∧
      money (averageCost q basis n u) = money exact :=
  ⟨_, Addition.average_mul (a := ⟨q, n, u⟩) ⟨hq, hn⟩ basis, rfl⟩

/-- A receipt adds its units to the item at its place, at the cost it states or else that of the
    quote. -/
theorem receive_reprices (hbooks : Books D) {purchaseOrderId : Uuid} {command : Receipt}
    {result : InventoryChangeResult}
    (hrun : (InventoryService.receive purchaseOrderId command).runs D (.ok (result, D'))) :
    (StockChange.receive purchaseOrderId command).Reprices D D' := by
  unfold Reprices
  rcases InventoryService.receive_runs hrun with ⟨hmem, hkey, -, -, -, rfl⟩ |
    ⟨hfresh, purchaseOrder, procurement, quote, workflow, item, changed, ordered, D₁, D₂, hD, -⟩
  · rw [priced_of_used (c := .receive purchaseOrderId command) hmem hkey]
    exact Std.Refl.refl _
  -- a receipt that states no cost takes that of the quote its procurement was decided on
  have hcost : (StockChange.receive purchaseOrderId command).unitCost D =
      some (command.landedUnitCost.getD quote.unitCost) := by
    show (command.landedUnitCost <|> D.quotedCost purchaseOrderId) = _
    rw [hD.quotedCost]
    cases command.landedUnitCost <;> rfl
  rw [priced_of_fresh hfresh, if_pos (by exact hD.quantity_pos), hcost]
  show ∃ item, Repriced _ command.quantityReceived _ D D' item
  obtain ⟨hitems, -, -⟩ := hD.stock
  obtain ⟨costBasis, hchanged⟩ := hD.changed_eq
  have hid : changed.id = item.id := by rw [hchanged]
  have hgoods : changed.goods = item.goods := by rw [hchanged]; rfl
  have hinto : changed.sku = command.sku ∧ changed.storageLocation = command.storageLocation := by
    rw [hchanged]
    exact ⟨hD.receiving.place.1, hD.receiving.place.2.1⟩
  have hget : ∀ i, D'.inventoryItems.get i =
      if changed.id = i then some changed else (Db.inventoryItems D₁).get i := by
    intro i
    rw [hitems]
    exact Table.get_update hD.changed_succeeds hD.changed_clashes i
  -- the item before the receipt, be it stored or new
  have hbefore : D.quantityOnHand item.id = item.quantityOnHand ∧
      D.costBasis item.id = item.costBasis ∧ 0 ≤ item.quantityOnHand ∧
      (∀ i, i ≠ item.id → (Db.inventoryItems D₁).get i = D.inventoryItems.get i) ∧
      ((∃ old, D.inventoryItems.get item.id = some old ∧ changed.goods = old.goods) ∨
        (D.inventoryItems.get item.id = none ∧ ∀ i ∈ D.inventoryItems,
          ¬(i.sku = changed.sku ∧ i.storageLocation = changed.storageLocation))) := by
    cases hD.receiving with
    | stored hstored _ _ _ hD₁ =>
      have hbounds := hbooks.ledger.bounds item (Table.mem_of_get hstored)
      refine ⟨Db.quantityOnHand_of_get hstored, Db.costBasis_of_get hstored, ?_, ?_,
        Or.inl ⟨item, hstored, hgoods⟩⟩
      · omega
      · intro i _
        rw [hD₁]
    | created id hitem hnone hconflicts hD₁ =>
      have hnew : D.inventoryItems.get item.id = none := by
        rw [Table.get_eq_none]
        intro i hi hkey
        exact (Table.conflicts_eq_false.mp hconflicts i hi).1 hkey
      rw [hinto.1, hinto.2]
      refine ⟨?_, ?_, ?_, ?_, Or.inr ⟨hnew, hnone⟩⟩
      · rw [Db.quantityOnHand_of_none hnew, hitem]
      · rw [Db.costBasis_of_none hnew, hitem]
      · rw [hitem]
      · intro i hne
        rw [hD₁]
        exact (Table.get_insert hconflicts i).trans (if_neg fun hkey => hne hkey.symm)
  obtain ⟨hquantity, hbasis, hnonneg, hothers, hplace⟩ := hbefore
  obtain ⟨-, hchangedBasis⟩ := hD.basis_eq
  refine ⟨changed, ⟨(hget _).trans (if_pos rfl), hinto, ?_, ?_, ?_, ?_, ?_⟩⟩
  · rw [hid, hquantity]
    exact ⟨hnonneg, hD.quantity_pos⟩
  · rw [hid, hquantity, hchanged]
  · rw [hid, hquantity, hbasis, hchangedBasis]
    exact exists_exact hnonneg hD.quantity_pos _ _
  · rw [hid]
    exact hplace
  · intro i hne
    rw [hget, if_neg fun hkey => hne hkey.symm, hothers i fun h => hne (h.trans hid.symm)]

/-- An adjustment upwards with a unit cost adds its units at that cost, and any other leaves the
    costs. -/
theorem adjust_reprices (hbooks : Books D) {inventoryItemId : Uuid} {command : Adjustment}
    {result : InventoryChangeResult}
    (hrun : (InventoryService.adjust inventoryItemId command).runs D (.ok (result, D'))) :
    (StockChange.adjust inventoryItemId command).Reprices D D' := by
  unfold Reprices
  rcases InventoryService.adjust_cases hrun with ⟨hmem, hkey, -, -, -, rfl⟩ |
    ⟨hfresh, item, changed, hD, -⟩
  · rw [priced_of_used (c := .adjust inventoryItemId command) hmem hkey]
    exact Std.Refl.refl _
  obtain ⟨hitems, hmovements, -⟩ := hD.stock
  obtain ⟨costBasis, hchanged⟩ := hD.changed_eq
  have hitemId : item.id = inventoryItemId := Table.key_of_get hD.item_get
  have hid : changed.id = item.id := by rw [hchanged]
  have hgoods : changed.goods = item.goods := by rw [hchanged]; rfl
  have hget : ∀ i, D'.inventoryItems.get i =
      if changed.id = i then some changed else D.inventoryItems.get i := by
    intro i
    rw [hitems]
    exact Table.get_update hD.changed_succeeds hD.changed_clashes i
  have hstored : D.inventoryItems.get item.id = some item := by
    rw [hitemId]
    exact hD.item_get
  have hunchanged : changed.costBasis = item.costBasis → SameItems InventoryItem.costs D D' := by
    intro hsame
    refine ⟨fun i => ?_, fun m hm => ?_⟩
    · rw [hget]
      split
      · rename_i hkey
        rw [← hkey, hid, hstored, Option.map_some, Option.map_some, InventoryItem.costs, hgoods,
          hsame]
        rfl
      · rfl
    · rw [hmovements]
      exact (Table.mem_insert hD.movement_conflicts).mpr (Or.inl hm)
  have hbasis := hD.basis_eq
  rw [priced_of_fresh hfresh]
  cases hcost : command.unitCost with
  -- without a unit cost the basis stays as it is
  | none =>
    have hnone : (StockChange.adjust inventoryItemId command).unitCost D = none := hcost
    rw [hcost] at hbasis
    rw [hnone, Option.map_none, ite_self]
    exact hunchanged hbasis
  | some unitCost =>
    have hsome : (StockChange.adjust inventoryItemId command).unitCost D = some unitCost := hcost
    rw [hcost] at hbasis
    dsimp only at hbasis
    rw [hsome]
    by_cases hpos : 0 < command.quantityDelta
    · rw [if_pos hpos] at hbasis
      rw [if_pos (by exact hpos)]
      show ∃ item, Repriced _ command.quantityDelta unitCost D D' item
      have hquantity := Db.quantityOnHand_of_get hstored
      have hcostBasis := Db.costBasis_of_get hstored
      have hbounds := hbooks.ledger.bounds item (Table.mem_of_get hstored)
      have hnonneg : 0 ≤ item.quantityOnHand := by omega
      refine ⟨changed, ⟨(hget _).trans (if_pos rfl), hid.trans hitemId, ?_, ?_, ?_, ?_, ?_⟩⟩
      · rw [hid, hquantity]
        exact ⟨hnonneg, hpos⟩
      · rw [hid, hquantity, hchanged]
      · rw [hid, hquantity, hcostBasis, hbasis.2]
        exact exists_exact hnonneg hpos _ _
      · rw [hid]
        exact Or.inl ⟨item, hstored, hgoods⟩
      · intro i hne
        rw [hget, if_neg fun hkey => hne hkey.symm]
    -- downwards a unit cost is not looked at
    · rw [if_neg hpos] at hbasis
      rw [if_neg (by exact hpos)]
      exact hunchanged hbasis

end StockChange

/-! ## Calls -/

namespace StockCall

/-- The change of stock the call is. -/
def change : StockCall → Option StockChange
  | receive purchaseOrderId command => some (.receive purchaseOrderId command)
  | adjust inventoryItemId command => some (.adjust inventoryItemId command)
  | _ => none

/-- What the call does to the costs: that of its change, if it is one. -/
def Reprices (c : StockCall) (D D' : Db) : Prop :=
  match c.change with
  | some change => change.Reprices D D'
  | none => SameItems InventoryItem.costs D D'

/-- The units it adds to `item` at a cost, called in the state `E`. -/
def additionTo (item : InventoryItem) (c : StockCall) (E : Db) : Option Addition := do
  let change ← c.change
  let (n, u) ← change.priced E
  if change.Into item then some ⟨E.quantityOnHand item.id, n, u⟩ else none

section Run

variable [Digests] {policy : WorkflowExecutionPolicy} {D D' : Db}

omit [Digests] in
/-- The workflows of the engine leave the costs as they are. -/
theorem returnEngine_sameCosts (name : String) (definition : WorkflowDefinition)
    (h : (returnEngine policy).definitions name = some definition) (event : EventEnvelope)
    (run : WorkflowRun) : (definition.step event run).keeps (SameShelves InventoryItem.costs) := by
  rw [returnEngine_step h]
  exact returnToReconciliation_keeps steady_costs event run

/-- **What one call does to the costs.** -/
theorem run_reprices (c : StockCall) (hbooks : Books D) {w : Unit}
    (hrun : (c.run policy).runs D (.ok (w, D'))) : c.Reprices D D' := by
  have helsewhere : ∀ D D' : Db, WorkflowEngine.SameElsewhere D D' →
      SameShelves InventoryItem.costs D D' := fun D D' hD => SameShelves.of_sameElsewhere hD
  cases c with
  | receive purchaseOrderId command =>
    obtain ⟨result, D₁, hreceive, hrest⟩ := runs_bind_ok.mp hrun
    cases hrest
    exact StockChange.receive_reprices hbooks hreceive
  | adjust inventoryItemId command =>
    obtain ⟨result, D₁, hadjust, hrest⟩ := runs_bind_ok.mp hrun
    cases hrest
    exact StockChange.adjust_reprices hbooks hadjust
  | ingest command =>
    obtain ⟨result, D₁, hingest, hrest⟩ := runs_bind_ok.mp hrun
    cases hrest
    exact OrderService.ingest_keeps steady_costs D result D' hingest
  | updateStatus orderId target actor reason =>
    obtain ⟨order, D₁, hupdate, hrest⟩ := runs_bind_ok.mp hrun
    cases hrest
    have hsame : SameShelves InventoryItem.costs D D' :=
      OrderService.updateStatus_keeps steady_costs D order D' hupdate
    exact hsame.items
  | handleReturn event now =>
    obtain ⟨run, D₁, hdeliver, hrest⟩ := runs_bind_ok.mp hrun
    cases hrest
    exact (WorkflowEngine.handleEvent_keeps helsewhere returnEngine_sameCosts _ event now D run D'
      hdeliver).items
  | resumeReturn workflowId now =>
    obtain ⟨run, D₁, hresume, hrest⟩ := runs_bind_ok.mp hrun
    cases hrest
    exact (WorkflowEngine.resume_keeps helsewhere returnEngine_sameCosts workflowId now D run D'
      hresume).items
  | retryReturns now limit =>
    obtain ⟨runs, D₁, hretry, hrest⟩ := runs_bind_ok.mp hrun
    cases hrest
    exact (WorkflowEngine.retryDue_keeps helsewhere returnEngine_sameCosts now limit D runs D'
      hretry).items

/-- Every call keeps the books; it is the invariant of the warehouse, for a call on its own. -/
theorem run_books (c : StockCall) (hbooks : Books D) {w : Unit}
    (hrun : (c.run policy).runs D (.ok (w, D'))) : Books D' := by
  obtain ⟨pt, rfl, hpt⟩ := of_post (post_of_ensures (StockCall.run_ensures policy c D hbooks)) hrun
  exact hpt

end Run

end StockCall

/-! ## Runs -/

/-- The additions to an item, in the order of the log. -/
def additionsTo (item : InventoryItem) (log : List (StockCall × Db)) : List Addition :=
  log.filterMap fun entry => entry.1.additionTo item entry.2

/-- `basis` is what the additions make of it. -/
structure CostedBy (additions : List Addition) (basis : Rat) : Prop where
  /-- something was added -/
  nonempty : additions ≠ []
  /-- the first units come into an empty place -/
  first : ∀ a ∈ additions.head?, a.quantity = 0
  /-- each addition found a stock that was not negative, and added units -/
  sound : ∀ a ∈ additions, a.Sound
  /-- the unit costs fit the column -/
  isMoney : ∀ a ∈ additions, IsMoney a.unitCost
  /-- and the basis is what averaging and rounding make of them -/
  basis_eq : basis = basisAfter money additions

/-- What holds in every state of a run. -/
structure Costed (log : List (StockCall × Db)) (D : Db) : Prop where
  /-- the books are in order -/
  books : Books D
  /-- where something was added there is an item -/
  targets : ∀ entry ∈ log, ∀ change n u, entry.1.change = some change →
    change.priced entry.2 = some (n, u) → ∃ item ∈ D.inventoryItems, change.Into item
  /-- and every item is costed by the additions of the log to it -/
  items : ∀ item ∈ D.inventoryItems, CostedBy (additionsTo item log) item.costBasis

/-- The last addition is averaged and rounded last. -/
theorem basisAfter_append (round : Rat → Rat) (additions : List Addition) (a : Addition) :
    basisAfter round (additions ++ [a]) = round (a.average (basisAfter round additions)) := by
  unfold basisAfter
  rw [List.foldl_append]
  rfl

/-- An item that is costed stays so with one more addition, if its basis follows. -/
theorem CostedBy.append {additions : List Addition} {basis : Rat} (h : CostedBy additions basis)
    {a : Addition} (hsound : a.Sound) (hmoney : IsMoney a.unitCost) :
    CostedBy (additions ++ [a]) (money (a.average basis)) := by
  refine ⟨by simp, ?_, ?_, ?_, ?_⟩
  · rw [List.head?_append_of_ne_nil _ h.nonempty]
    exact h.first
  · intro b hb
    rcases List.mem_append.mp hb with hb | hb
    · exact h.sound b hb
    · rw [List.mem_singleton.mp hb]
      exact hsound
  · intro b hb
    rcases List.mem_append.mp hb with hb | hb
    · exact h.isMoney b hb
    · rw [List.mem_singleton.mp hb]
      exact hmoney
  · rw [basisAfter_append, h.basis_eq]

/-- A first addition, into an empty place, costs an item. -/
theorem CostedBy.single {a : Addition} (hsound : a.Sound) (hmoney : IsMoney a.unitCost)
    (hempty : a.quantity = 0) : CostedBy [a] (money (a.average 0)) := by
  refine ⟨by simp, ?_, ?_, ?_, rfl⟩
  · intro b hb
    obtain rfl := Option.some.inj hb
    exact hempty
  · intro b hb
    rw [List.mem_singleton.mp hb]
    exact hsound
  · intro b hb
    rw [List.mem_singleton.mp hb]
    exact hmoney

/-- Both roundings leave the basis between two of the unit costs. -/
theorem CostedBy.between {additions : List Addition} {basis : Rat} (h : CostedBy additions basis) :
    BetweenCosts additions basis ∧
      BetweenCosts additions (basisAfter (Decimals.toPlaces 4) additions) := by
  constructor
  · rw [h.basis_eq]
    exact basisAfter_between money_mono h.nonempty h.first h.sound fun a ha =>
      (h.isMoney a ha).money_eq
  · exact basisAfter_between (fun _ _ h => Decimals.toPlaces_mono h) h.nonempty h.first h.sound
      fun a ha =>
      toPlaces_of_isMoney (h.isMoney a ha)

section Log

variable {log : List (StockCall × Db)} {c : StockCall} {change : StockChange} {D D' E : Db}
variable {i j item : InventoryItem} {n : Int} {u : Rat}

/-- One more call adds at most one addition, at the end. -/
theorem additionsTo_append (item : InventoryItem) (log : List (StockCall × Db)) (c : StockCall)
    (E : Db) :
    additionsTo item (log ++ [(c, E)]) = additionsTo item log ++ (c.additionTo item E).toList := by
  unfold additionsTo
  rw [List.filterMap_append]
  rfl

/-- The additions are told from the id and the place. -/
theorem into_congr (hid : i.id = j.id) (hgoods : i.goods = j.goods) :
    change.Into i ↔ change.Into j := by
  simp only [InventoryItem.goods, Prod.mk.injEq] at hgoods
  cases change with
  | receive purchaseOrderId command =>
    show i.sku = _ ∧ i.storageLocation = _ ↔ j.sku = _ ∧ j.storageLocation = _
    rw [hgoods.1, hgoods.2.1]
  | adjust inventoryItemId command =>
    show i.id = _ ↔ j.id = _
    rw [hid]

/-- Two items of the same id and goods have the same additions. -/
theorem additionsTo_congr (hid : i.id = j.id) (hgoods : i.goods = j.goods) :
    additionsTo i log = additionsTo j log := by
  unfold additionsTo StockCall.additionTo
  simp only [into_congr hid hgoods, hid]

/-- One item at most is the one a change is made to. -/
theorem into_unique (hi : i ∈ D.inventoryItems) (hj : j ∈ D.inventoryItems) (hinto : change.Into i)
    (hinto' : change.Into j) : i = j := by
  cases change with
  | receive purchaseOrderId command =>
    refine D.inventoryItems.eq_of_unique_mem hi hj List.mem_cons_self ?_
    rw [hinto.1, hinto.2, ← hinto'.1, ← hinto'.2]
    exact List.mem_cons_self
  | adjust inventoryItemId command =>
    have hid : i.id = j.id := hinto.trans hinto'.symm
    have hgeti := Table.get_of_mem hi
    rw [show Row.key i = Row.key j from hid, Table.get_of_mem hj] at hgeti
    exact (Option.some.inj hgeti).symm

/-- What a priced change adds to an item: its units, if the change is made to that item. -/
theorem additionTo_of_priced (hchange : c.change = some change)
    (hpriced : change.priced E = some (n, u)) :
    c.additionTo item E =
      if change.Into item then some ⟨E.quantityOnHand item.id, n, u⟩ else none := by
  unfold StockCall.additionTo
  rw [hchange]
  simp [hpriced]

/-- An item that is kept with its costs has the additions it had, and is still costed by them. -/
theorem Costed.kept (h : Costed log D) (hnone : c.additionTo item E = none)
    (hitem : (D.inventoryItems.get item.id).map InventoryItem.costs = some item.costs) :
    CostedBy (additionsTo item (log ++ [(c, E)])) item.costBasis := by
  obtain ⟨old, hold, hcosts⟩ := Option.map_eq_some_iff.mp hitem
  simp only [InventoryItem.costs, Prod.mk.injEq] at hcosts
  rw [additionsTo_append, hnone, Option.toList_none, List.append_nil, ← hcosts.2,
    ← additionsTo_congr (Table.key_of_get hold) hcosts.1]
  exact h.items old (Table.mem_of_get hold)

/-- An item is still there after a priced addition. -/
theorem StockChange.Repriced.kept (h : change.Repriced n u D D' item)
    (hi : i ∈ D.inventoryItems) :
    ∃ new, D'.inventoryItems.get i.id = some new ∧ new.goods = i.goods := by
  have hget : D.inventoryItems.get i.id = some i := Table.get_of_mem hi
  by_cases hid : i.id = item.id
  · rcases h.place with ⟨old, hold, hgoods⟩ | ⟨hnone, -⟩
    · rw [hid, hold] at hget
      obtain rfl := Option.some.inj hget
      rw [hid]
      exact ⟨item, h.item_get, hgoods⟩
    · rw [hid, hnone] at hget
      exact nomatch hget
  · have hsame := h.others i.id hid
    rw [hget, Option.map_some] at hsame
    obtain ⟨new, hnew, hcosts⟩ := Option.map_eq_some_iff.mp hsame
    exact ⟨new, hnew, congrArg Prod.fst hcosts⟩

/-- The item a priced addition is made to has it as its last, and as its first if it is new. -/
theorem Costed.repriced (h : Costed log D) (hchange : c.change = some change)
    (hpriced : change.priced D = some (n, u)) (hmoney : IsMoney u)
    (hitem : change.Repriced n u D D' item) :
    CostedBy (additionsTo item (log ++ [(c, D)])) item.costBasis := by
  have hsound : (⟨D.quantityOnHand item.id, n, u⟩ : Addition).Sound := hitem.added
  have hbasis : item.costBasis =
      money ((⟨D.quantityOnHand item.id, n, u⟩ : Addition).average (D.costBasis item.id)) := by
    -- the basis in the row times the quantity is the exact average times the quantity, which is not
    -- zero
    obtain ⟨exact, hexact, heq⟩ := hitem.basis
    rw [heq]
    have hpos : (0 : Rat) < ((D.quantityOnHand item.id + n : Int) : Rat) := by
      exact_mod_cast add_pos_of_nonneg_of_pos hitem.added.1 hitem.added.2
    exact congrArg money (mul_right_cancel₀ hpos.ne'
      (hexact.trans (Addition.average_mul hsound _).symm))
  rw [additionsTo_append, additionTo_of_priced hchange hpriced, if_pos hitem.into,
    Option.toList_some, hbasis]
  rcases hitem.place with ⟨old, hold, hgoods⟩ | ⟨hnone, hnew⟩
  · have hid : old.id = item.id := Table.key_of_get hold
    have hcosted := h.items old (Table.mem_of_get hold)
    rw [additionsTo_congr hid hgoods.symm] at hcosted
    rw [Db.costBasis_of_get hold]
    exact hcosted.append hsound hmoney
  · -- nothing was added before: there would be an item at the place, or under the id
    have hempty : additionsTo item log = [] := by
      refine List.filterMap_eq_nil_iff.mpr fun entry hentry => ?_
      unfold StockCall.additionTo
      cases hchange' : entry.1.change with
      | none => rfl
      | some change' =>
        cases hpriced' : change'.priced entry.2 with
        | none => simp [hpriced']
        | some nu =>
          obtain ⟨target, htarget, hinto⟩ :=
            h.targets entry hentry change' nu.1 nu.2 hchange' hpriced'
          have hnot : ¬change'.Into item := by
            intro hinto'
            cases change' with
            | receive purchaseOrderId command =>
              refine hnew target htarget ⟨?_, ?_⟩
              · rw [hinto.1, hinto'.1]
              · rw [hinto.2, hinto'.2]
            | adjust inventoryItemId command =>
              have hget : D.inventoryItems.get target.id = some target := Table.get_of_mem htarget
              rw [show target.id = item.id from hinto.trans hinto'.symm, hnone] at hget
              exact nomatch hget
          simp [hpriced', hnot]
    rw [hempty, Db.costBasis_of_none hnone]
    exact CostedBy.single hsound hmoney (Db.quantityOnHand_of_none hnone)

/-- **One more call** keeps every item costed.  If the call is a priced change, the item it is made
    to gets the addition and the basis that goes with it; an item it is not made to has neither. -/
theorem Costed.snoc (h : Costed log D) (hreprices : c.Reprices D D') (hbooks : Books D')
    (hmoney : ∀ change n u, c.change = some change → change.priced D = some (n, u) → IsMoney u) :
    Costed (log ++ [(c, D)]) D' := by
  -- a call that prices nothing: the items have the costs they had, and no addition is recorded
  have hsame : SameItems InventoryItem.costs D D' →
      (∀ change n u, c.change = some change → change.priced D ≠ some (n, u)) →
        Costed (log ++ [(c, D)]) D' := by
    intro hD hnot
    have hnone : ∀ item, c.additionTo item D = none := by
      intro item
      unfold StockCall.additionTo
      cases hchange : c.change with
      | none => rfl
      | some change =>
        cases hpriced : change.priced D with
        | none => simp [hpriced]
        | some nu => exact absurd hpriced (hnot change nu.1 nu.2 hchange)
    refine ⟨hbooks, fun entry hentry change n u hchange hpriced => ?_, fun item hitem => ?_⟩
    · rcases List.mem_append.mp hentry with hentry | hentry
      · obtain ⟨old, hold, hinto⟩ := h.targets entry hentry change n u hchange hpriced
        obtain ⟨new, hnew, hcosts⟩ := hD.get (Table.get_of_mem hold)
        simp only [InventoryItem.costs, Prod.mk.injEq] at hcosts
        exact ⟨new, Table.mem_of_get hnew,
          (into_congr (Table.key_of_get hnew) hcosts.1).mpr hinto⟩
      · rw [List.mem_singleton.mp hentry] at hchange hpriced
        exact absurd hpriced (hnot change n u hchange)
    · refine h.kept (hnone item) ?_
      rw [← hD.item, show D'.inventoryItems.get item.id = some item from Table.get_of_mem hitem]
      rfl
  unfold StockCall.Reprices at hreprices
  cases hchange : c.change with
  | none =>
    rw [hchange] at hreprices
    exact hsame hreprices fun change n u hchange' => nomatch hchange.symm.trans hchange'
  | some change =>
    rw [hchange] at hreprices
    dsimp only at hreprices
    unfold StockChange.Reprices at hreprices
    cases hpriced : change.priced D with
    | none =>
      rw [hpriced] at hreprices
      refine hsame hreprices fun change' n u hchange' => ?_
      obtain rfl := Option.some.inj (hchange.symm.trans hchange')
      rw [hpriced]
      exact fun h => nomatch h
    | some nu =>
      obtain ⟨n, u⟩ := nu
      rw [hpriced] at hreprices
      obtain ⟨item, hitem⟩ := hreprices
      have hmem : item ∈ D'.inventoryItems := Table.mem_of_get hitem.item_get
      have hu : IsMoney u := hmoney change n u hchange hpriced
      refine ⟨hbooks, fun entry hentry change' n' u' hchange' hpriced' => ?_, fun i hi => ?_⟩
      · rcases List.mem_append.mp hentry with hentry | hentry
        -- an item that an earlier call went to keeps its id and its place
        · obtain ⟨old, hold, hinto⟩ := h.targets entry hentry change' n' u' hchange' hpriced'
          obtain ⟨new, hnew, hgoods⟩ := hitem.kept hold
          exact ⟨new, Table.mem_of_get hnew, (into_congr (Table.key_of_get hnew) hgoods).mpr hinto⟩
        · rw [List.mem_singleton.mp hentry] at hchange'
          obtain rfl := Option.some.inj (hchange.symm.trans hchange')
          exact ⟨item, hmem, hitem.into⟩
      · by_cases hid : i.id = item.id
        -- the item it is made to
        · have hieq : i = item := by
            have hget : D'.inventoryItems.get i.id = some i := Table.get_of_mem hi
            rw [hid, hitem.item_get] at hget
            exact (Option.some.inj hget).symm
          rw [hieq]
          exact h.repriced hchange hpriced hu hitem
        · -- the change is made to one item only
          have hnot : ¬change.Into i := fun hinto =>
            hid (congrArg InventoryItem.id (into_unique hi hmem hinto hitem.into))
          refine h.kept ?_ ?_
          · rw [additionTo_of_priced hchange hpriced, if_neg hnot]
          · rw [← hitem.others i.id hid,
              show D'.inventoryItems.get i.id = some i from Table.get_of_mem hi]
            rfl

end Log

/-! ## Weighted cost -/

section Weighted

variable [Digests] {policy : WorkflowExecutionPolicy} {D₀ D : Db} {log : List (StockCall × Db)}

/-- A run of calls from `D₀`, with the state each call found.  Unit costs that are used have at most
    four decimals. -/
def CostRun (policy : WorkflowExecutionPolicy) (D₀ : Db) (log : List (StockCall × Db)) (D : Db) :
    Prop :=
  Serial (fun call E D D' => E = D ∧
    (∀ change n u, call.change = some change → change.priced D = some (n, u) → IsMoney u) ∧
      ∃ w, (StockCall.run policy call).runs D (.ok (w, D'))) D₀ log D

/-- In every state of a run the items are costed, by induction on the run. -/
theorem CostRun.costed (h₀ : EmptyInventory D₀) (h : CostRun policy D₀ log D) : Costed log D := by
  induction h with
  | nil =>
    refine ⟨Books.of_empty h₀.items h₀.movements h₀.lines, fun _ h => absurd h List.not_mem_nil, ?_⟩
    intro item hitem
    rw [h₀.items] at hitem
    exact absurd hitem (Table.not_mem_empty item)
  | snoc _ hc ih =>
    obtain ⟨rfl, hmoney, w, hrun⟩ := hc
    exact ih.snoc (StockCall.run_reprices _ ih.books hrun) (StockCall.run_books _ ih.books hrun)
      hmoney

/-- **Weighted cost stays a weighted cost.**  In every run the basis of an item is what its priced
    additions so far make of it, and lies between two of their unit costs; so it would with
    half-even rounding.  The next call, if it is a priced addition, makes the exact basis that of
    the parts together, and otherwise leaves the costs of all items. -/
theorem weighted_cost_stays_weighted (h₀ : EmptyInventory D₀) (h : CostRun policy D₀ log D) :
    (∀ item ∈ D.inventoryItems,
      item.costBasis = basisAfter money (additionsTo item log) ∧
        BetweenCosts (additionsTo item log) item.costBasis ∧
        BetweenCosts (additionsTo item log)
          (basisAfter (Decimals.toPlaces 4) (additionsTo item log))) ∧
      ∀ c w D', (StockCall.run policy c).runs D (.ok (w, D')) → c.Reprices D D' := by
  have hcosted := h.costed h₀
  constructor
  · intro item hitem
    have hadditions := hcosted.items item hitem
    exact ⟨hadditions.basis_eq, hadditions.between⟩
  · intro c w D' hrun
    exact c.run_reprices hcosted.books hrun

end Weighted

/-! ## A dearer delivery -/

/-- Three more units are found, at seven and a third. -/
def pricedFind (inventoryItemId : Uuid) : StockCall :=
  .adjust inventoryItemId
    { quantityDelta := 3, reason := "found", actor := "user", idempotencyKey := "found-1"
      unitCost := some (73333 / 10000) }

/-- Ten units at 4 and three at 7.3333 cost 4.7692 each. -/
theorem weighted_cost_stays_weighted_sample :
    ((sampleRun [sampleReceipt, pricedFind (Uuid.ofNat 1000)]).inventoryItems.rows.map
        fun item => (item.quantityOnHand, item.costBasis)) = [(13, 47692 / 10000)] ∧
      ∀ item ∈ (sampleRun [sampleReceipt, pricedFind (Uuid.ofNat 1000)]).inventoryItems,
        BetweenCosts
          (additionsTo item [(sampleReceipt, sampleDb),
            (pricedFind (Uuid.ofNat 1000), sampleRun [sampleReceipt])])
          item.costBasis := by
  refine ⟨by decide +kernel, ?_⟩
  have hquoted : sampleDb.quotedCost (Uuid.ofNat 6) = some 4 := by decide
  have hfirst : @CostRun Digests.byEnding samplePolicy sampleDb [(sampleReceipt, sampleDb)]
      (sampleRun [sampleReceipt]) := by
    refine Serial.nil.snoc ⟨rfl, ?_, runs_afterCall (o := Environment.numbered 0) _
      (by decide +kernel)⟩
    intro change n u hchange hpriced
    obtain rfl := Option.some.inj hchange
    obtain ⟨v, hv, hnu⟩ := Option.map_eq_some_iff.mp (Option.ite_none_right_eq_some.mp hpriced).2
    obtain rfl := congrArg Prod.snd hnu
    obtain rfl := Option.some.inj (hquoted.symm.trans hv)
    exact ⟨40000, by norm_num⟩
  have hsecond : @CostRun Digests.byEnding samplePolicy sampleDb
      [(sampleReceipt, sampleDb), (pricedFind (Uuid.ofNat 1000), sampleRun [sampleReceipt])]
      (sampleRun [sampleReceipt, pricedFind (Uuid.ofNat 1000)]) := by
    refine hfirst.snoc ⟨rfl, ?_, runs_afterCall (o := Environment.numbered 1) _
      (by decide +kernel)⟩
    intro change n u hchange hpriced
    obtain rfl := Option.some.inj hchange
    obtain ⟨v, hv, hnu⟩ := Option.map_eq_some_iff.mp (Option.ite_none_right_eq_some.mp hpriced).2
    obtain rfl := congrArg Prod.snd hnu
    obtain rfl := Option.some.inj hv
    exact ⟨73333, by norm_num⟩
  intro item hitem
  exact ((@weighted_cost_stays_weighted Digests.byEnding _ _ _ _ sampleDb_emptyInventory
    hsecond).1 item hitem).2.1

end CommerceOperations
