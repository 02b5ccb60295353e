/-
  The domain rules: order and procurement transitions, inventory arithmetic.

  These are the functions of `domains/` that read nothing but their arguments.  Each returns what
  the source returns or raises what the source raises, as a `Tx` that neither reads nor writes, so
  that a service calls it the way it calls anything else.

  The two transition tables are lists rather than sets.  Only membership is asked of them.
-/
import CommerceOperations.Persistence.Session

namespace CommerceOperations

/-! ## Orders -/

namespace OrderStatus

/-- `ALLOWED_TRANSITIONS` of `domains/orders`.  Cancelled and refunded orders are at their end, and
    an order can be cancelled until it is dispatched. -/
def allowedTransitions : OrderStatus → List OrderStatus
  | pending => [paid, cancelled]
  | paid => [processing, cancelled]
  | processing => [dispatched, cancelled]
  | dispatched => [delivered, returned]
  | delivered => [returned, refunded]
  | cancelled => []
  | returned => [refunded]
  | refunded => []

/-- Stock is held for the order: its lines are reserved and the goods are still on the shelf. -/
def isOpen : OrderStatus → Bool
  | pending | paid | processing => true
  | _ => false

/-- The order has left the warehouse.  A returned order counts, since its goods went out before they
    came back. -/
def isShipped : OrderStatus → Bool
  | dispatched | delivered | returned | refunded => true
  | _ => false

end OrderStatus

/-- `transition_order`.  The status an order already has is returned without a look at the table, so
    a repeated event about it raises nothing. -/
def transitionOrder (current target : OrderStatus) : Tx OrderStatus :=
  if target = current then pure current
  else if target ∉ current.allowedTransitions then
    Tx.throw .invalidOrderTransition
      s!"Order cannot transition from {current.value} to {target.value}"
  else pure target

/-! ## Inventory -/

/-- `InventoryBalance`: the two numbers an inventory item keeps. -/
structure InventoryBalance where
  quantityOnHand : Int
  reservedQuantity : Int

/-- `apply_quantity_change`: the balance after the change, unless stock or available stock would
    become negative.  The reserved quantity is handed through. -/
def applyQuantityChange (quantityOnHand reservedQuantity quantityDelta : Int) :
    Tx InventoryBalance :=
  if quantityDelta = 0 then
    Tx.throw .invalidInventoryChange "Inventory change must not be zero"
  else if quantityOnHand + quantityDelta < 0 then
    Tx.throw .invalidInventoryChange "Inventory change would make on-hand stock negative"
  else if quantityOnHand + quantityDelta < reservedQuantity then
    Tx.throw .invalidInventoryChange "Inventory change would make available stock negative"
  else pure ⟨quantityOnHand + quantityDelta, reservedQuantity⟩

/-- The average cost of a unit when `added` units at `unitCost` join `quantity` units at `basis`. -/
def averageCost (quantity : Int) (basis : Rat) (added : Int) (unitCost : Rat) : Rat :=
  (basis * quantity + unitCost * added) / ((quantity + added : Int) : Rat)

/-- `weighted_cost_basis`.  Four decimals are left to the caller, which writes the result into a
    column. -/
def weightedCostBasis (currentQuantity : Int) (currentCostBasis : Rat) (addedQuantity : Int)
    (addedUnitCost : Rat) : Tx Rat :=
  if addedQuantity ≤ 0 then
    Tx.throw .invalidInventoryChange "Cost basis can only be recalculated for positive stock"
  else if addedUnitCost < 0 then
    Tx.throw .invalidInventoryChange "Unit cost cannot be negative"
  else pure (averageCost currentQuantity currentCostBasis addedQuantity addedUnitCost)

/-! ## Procurement -/

namespace ProcurementStatus

/-- `ALLOWED_TRANSITIONS` of `domains/procurement`.  From `ordered` on there is one way, since goods
    that are on their way can no longer be cancelled. -/
def allowedTransitions : ProcurementStatus → List ProcurementStatus
  | proposed => [awaitingApproval, cancelled]
  | awaitingApproval => [approved, cancelled]
  | approved => [ordered, cancelled]
  | ordered => [shipped]
  | shipped => [received]
  | received => []
  | cancelled => []

end ProcurementStatus

/-- `transition`: the change, if it is allowed.  Unlike an order, a purchase order may not be moved
    to the status it has. -/
def transition (current target : ProcurementStatus) : Tx Unit :=
  Tx.require (target ∈ current.allowedTransitions) .invalidProcurementTransition
    s!"Cannot transition procurement from {current.value} to {target.value}"

end CommerceOperations
