/-
  The figures of the dashboard: the overview and the commercial trends.

  Both report the revenue of a currency.  The overview adds up the orders with a revenue status; the
  trends add up, day by day, all orders.  Amounts are exact, and the conversion of the daily revenue
  to a float is left out.

  The two are compared as numbers.  The trends fill a dictionary whose keys are days; what its
  values add up to does not depend on what a day is, so neither do the results below
  (`Grouping.Dict`).
-/
import CommerceOperations.Persistence.Session
import CommerceOperations.Grouping.Dict

namespace CommerceOperations

open Relational Grouping

/-- What a session reads apart from the rows: the date of a point in time in the time zone of the
    connection, the order of texts, and the column `created_at` of the pricing decisions. -/
structure Reading (Day : Type) where
  date : Instant → Day
  collates : String → String → Bool
  decidedAt : Uuid → Instant

namespace Dashboard

variable {Day : Type} [DecidableEq Day]

/-! ## The overview -/

/-- `revenue_statuses`: the statuses of orders that count as revenue. -/
def revenueStatuses : List OrderStatus :=
  [.paid, .processing, .dispatched, .delivered, .returned, .refunded]

/-- What `overview` returns, figure by figure. -/
structure Overview where
  stockValue : Rat
  pendingProcurements : Nat
  pendingApprovals : Nat
  listingsAwaitingPublication : Nat
  orders : Nat
  revenue : Rat
  estimatedProfit : Rat
  realisedProfit : Rat
  lowStockProducts : Nat
  failedWorkflows : Nat

/-- The orders whose amounts `overview` adds up. -/
def revenueOrders (D : Db) (currency : String) : List Order :=
  D.orders.rows.filter fun order => order.status ∈ revenueStatuses ∧ order.currency = currency

/-- What the lines of an order have cost. -/
def costOf (D : Db) (order : Order) : Rat :=
  ((D.orderItems.rows.filter fun item => item.orderId = order.id).map fun item =>
    (item.quantity : Rat) * (D.inventoryItems.get item.inventoryItemId).elim 0 (·.costBasis)).sum

/-- The pricing decision of an item that was made last. -/
def latestDecision (reading : Reading Day) (D : Db) (currency : String) (item : InventoryItem) :
    Option PricingDecision :=
  ((D.pricingDecisions.rows.filter fun decision =>
    decision.inventoryItemId = item.id ∧ decision.currency = currency).mergeSort
      fun a b => reading.decidedAt b.id ≤ reading.decidedAt a.id).head?

/-- `overview`: the figures of a currency, over all rows of their tables. -/
def overview (reading : Reading Day) (D : Db) (currency : String) : Overview :=
  let currency := currency.toUpper
  let inventory := D.inventoryItems.rows
  let revenue := ((revenueOrders D currency).map (·.totalAmount)).sum
  let realisedCost := ((revenueOrders D currency).map (costOf D)).sum
  let refunds := ((D.refunds.rows.filter fun refund => refund.currency = currency ∧
    refund.status ∈ [.approved, .processing, .completed]).map (·.amount)).sum
  { stockValue := ((inventory.filter (·.currency = currency)).map fun item =>
      item.costBasis * (item.quantityOnHand : Rat)).sum
    pendingProcurements := (D.procurementRequests.rows.filter fun request =>
      request.status ∈ [.proposed, .awaitingApproval]).length
    pendingApprovals := (D.approvals.rows.filter (·.status = .pending)).length
    listingsAwaitingPublication := (D.listingDrafts.rows.filter fun draft =>
      draft.approvalStatus = .approved ∧
        ¬D.marketplaceListings.rows.any (·.draftId = draft.id)).length
    orders := D.orders.rows.length
    revenue
    estimatedProfit := (inventory.map fun item =>
      (latestDecision reading D currency item).elim 0 fun latest =>
        latest.contributionProfit * (item.availableQuantity : Rat)).sum
    realisedProfit := revenue - realisedCost - refunds
    lowStockProducts := (inventory.filter fun item =>
      item.availableQuantity ≤ item.lowStockThreshold).length
    failedWorkflows := (D.workflowRuns.rows.filter (·.status = .failed)).length }

/-! ## The trends -/

/-- An entry of `by_day`: a date, its orders and their revenue. -/
structure DayRow (Day : Type) where
  date : Day
  revenue : Rat
  orders : Nat
  deriving DecidableEq

/-- An entry of `inventory`: an item with its stock. -/
structure StockRow where
  product : String
  available : Int
  threshold : Int
  deriving DecidableEq

/-- The orders of a currency, in the order of their times. -/
def ordersOf (D : Db) (currency : String) : List Order :=
  (D.orders.rows.filter (·.currency = currency)).mergeSort fun a b => a.orderedAt ≤ b.orderedAt

/-- `by_day`, once all orders have been added. -/
def byDay (reading : Reading Day) (D : Db) (currency : String) : Dict Day (DayRow Day) :=
  Dict.group (fun order : Order => reading.date order.orderedAt)
    (fun order => { date := reading.date order.orderedAt, revenue := 0, orders := 0 })
    (fun order row =>
      { row with revenue := row.revenue + order.totalAmount, orders := row.orders + 1 })
    (ordersOf D currency)

/-- `commercial_trends`: the orders day by day, and the stock. -/
def commercialTrends (reading : Reading Day) (D : Db) (currency : String) :
    List (DayRow Day) × List StockRow :=
  ((byDay reading D currency).values,
    (D.inventoryItems.rows.mergeSort fun a b => reading.collates a.sku b.sku).map fun item =>
      { product := (D.products.get item.productId).elim "" (·.name)
        available := item.availableQuantity
        threshold := item.lowStockThreshold })

/-! ## The two revenues -/

variable {reading : Reading Day} {D : Db} {c : String}

/-- Day by day the orders of a currency are all added up.  To group and add up is to add up,
    whatever the days are. -/
theorem sum_daily_revenue :
    ((commercialTrends reading D c).1.map (·.revenue)).sum =
      ((D.orders.rows.filter (·.currency = c)).map (·.totalAmount)).sum := by
  have hgrouped : ((commercialTrends reading D c).1.map (·.revenue)).sum =
      ((ordersOf D c).map (·.totalAmount)).sum :=
    Dict.total_group (ordersOf D c) (fun _ => rfl) fun _ _ => rfl
  rw [hgrouped]
  exact ((List.mergeSort_perm _ _).map _).sum_eq

/-- The counts of the days add up to the count of all orders in them. -/
theorem sum_daily_orders :
    ((commercialTrends reading D c).1.map (·.orders)).sum =
      (D.orders.rows.filter (·.currency = c)).length := by
  have hgrouped : ((commercialTrends reading D c).1.map (·.orders)).sum =
      ((ordersOf D c).map fun _ => 1).sum :=
    Dict.total_group (ordersOf D c) (fun _ => rfl) fun _ _ => rfl
  rw [hgrouped, List.map_const', List.sum_replicate_nat, Nat.mul_one]
  exact (List.mergeSort_perm _ _).length_eq

/-- The daily figures add up to the revenue of the overview and to the number of its orders.  This
    is what a reader of the two pages takes for granted. -/
def RevenueAgrees (reading : Reading Day) (D : Db) (c : String) : Prop :=
  ((commercialTrends reading D c).1.map (·.revenue)).sum = (overview reading D c).revenue ∧
    ((commercialTrends reading D c).1.map (·.orders)).sum = (revenueOrders D c).length

/-- The revenue orders are among the orders of the currency. -/
theorem revenueOrders_eq :
    revenueOrders D c =
      (D.orders.rows.filter (·.currency = c)).filter (·.status ∈ revenueStatuses) := by
  rw [revenueOrders, List.filter_filter]
  refine List.filter_congr fun order _ => ?_
  simp only [Bool.decide_and]

/-- **When the dashboard's revenue figures agree.**  They do exactly if each order of the currency
    has a revenue status: with a pending or a cancelled one the trends count more orders. -/
theorem revenueAgrees_iff (reading : Reading Day) (D : Db) (c : String) (hupper : c.toUpper = c) :
    RevenueAgrees reading D c ↔
      ∀ order ∈ D.orders, order.currency = c → order.status ≠ .pending ∧ order.status ≠ .cancelled
    := by
  have hrevenue : (overview reading D c).revenue =
      ((revenueOrders D c).map (·.totalAmount)).sum := by
    rw [overview, hupper]
  have hstatus : ∀ status : OrderStatus, status ∈ revenueStatuses ↔
      status ≠ .pending ∧ status ≠ .cancelled := by
    intro status
    cases status <;> decide
  rw [RevenueAgrees, sum_daily_revenue, sum_daily_orders, hrevenue, revenueOrders_eq]
  constructor
  · rintro ⟨-, hcount⟩ order horder hc
    -- filtering by status drops none of the orders of the currency
    have hall := List.length_filter_eq_length_iff.mp hcount.symm order
      (List.mem_filter.mpr ⟨horder, decide_eq_true hc⟩)
    exact (hstatus _).mp (of_decide_eq_true hall)
  · intro h
    have hall : (D.orders.rows.filter (·.currency = c)).filter (·.status ∈ revenueStatuses) =
        D.orders.rows.filter (·.currency = c) := by
      rw [List.filter_eq_self]
      intro order horder
      obtain ⟨horder, hc⟩ := List.mem_filter.mp horder
      exact decide_eq_true ((hstatus _).mpr (h order horder (of_decide_eq_true hc)))
    rw [hall]
    exact ⟨rfl, rfl⟩

/-- A sample of one order of 10 pounds. -/
def oneOrder (status : OrderStatus) : Db where
  table
    | .orders => .singleton
        { id := Uuid.ofNat 1, version := 1, marketplace := "amazon", workflowRunId := none
          marketplaceAccountId := "account", externalOrderId := "order-1"
          sourceEventId := "event-1", sourcePayloadHash := "digest", status, currency := "GBP"
          totalAmount := 10, customerReference := none, shippingDetails := .object []
          orderedAt := 0, paidAt := none, dispatchedAt := none, deliveredAt := none }
    | _ => ∅

/-- Dates in UTC, where a day is a multiple of 24 hours. -/
def utc : Reading Int := ⟨fun t => t / hours 24, fun a b => a ≤ b, fun _ => 0⟩

/-- With a paid order they agree. -/
theorem revenueAgrees_sample :
    "GBP".toUpper = "GBP" ∧ RevenueAgrees utc (oneOrder .paid) "GBP" := by
  refine ⟨by decide +kernel,
    (revenueAgrees_iff utc (oneOrder .paid) "GBP" (by decide +kernel)).mpr fun order horder _ => ?_⟩
  obtain rfl := List.mem_singleton.mp horder
  decide

/-- **A cancelled order is revenue of its day.**  The trends report 10 pounds, and the overview
    none. -/
theorem cancelled_revenue :
    "GBP".toUpper = "GBP" ∧ ¬RevenueAgrees utc (oneOrder .cancelled) "GBP" ∧
      ((commercialTrends utc (oneOrder .cancelled) "GBP").1.map (·.revenue)).sum = 10 ∧
      (overview utc (oneOrder .cancelled) "GBP").revenue = 0 := by
  unfold RevenueAgrees
  decide +kernel

end Dashboard

end CommerceOperations
