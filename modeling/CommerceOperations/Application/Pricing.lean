/-
  Pricing decisions: what is made of a calculated price.

  A decision is a row of its own, with the inputs, the figures and the rules that led to it.
  Whether it is effective at once or waits for an approval is decided by the policy; the handler of
  the approval makes it effective later.
-/
import CommerceOperations.Approvals.Engine
import CommerceOperations.Domains.Pricing

namespace CommerceOperations

open Relational

/-! ## Decisions -/

/-- `CreatePricingDecision`: what a decision is made from. -/
structure CreatePricingDecision where
  inventoryItemId : Uuid
  marketplaceFees : Rat
  fulfilmentCosts : Rat
  targetMargin : Rat
  minimumMargin : Rat
  currentSellingPrice : Option Rat
  currency : String
  reason : String
  requester : String
  landedCost : Option Rat
  rules : CommercialPricingRules

/-- `str(value) if value is not None else None`. -/
def Json.ofAmount (amount : Option Rat) : Json :=
  (amount.map fun q => Json.decimal (.ofMoney q)).getD .null

namespace PricingService

/-- `PRICING_FORMULA_VERSION`, which a decision is stored with. -/
def formulaVersion : Int := 1

/-- `commercial_rules` of a decision. -/
def commercialRules (rules : CommercialPricingRules) : Json :=
  .object
    [("minimum_price", .decimal (.ofMoney rules.minimumPrice)),
      ("maximum_price", .ofAmount rules.maximumPrice),
      ("rounding_increment", .decimal (.ofMoney rules.roundingIncrement)),
      ("maximum_automatic_change_percent", .decimal (.ofMoney rules.maximumAutomaticChangePercent))]

/-- The `PricingInputs` of a command. -/
def inputs (command : CreatePricingDecision) (landedCost : Rat) : PricingInputs where
  landedCost
  marketplaceFees := command.marketplaceFees
  fulfilmentCosts := command.fulfilmentCosts
  targetMargin := command.targetMargin
  minimumMargin := command.minimumMargin
  currentSellingPrice := command.currentSellingPrice

/-- The new row; its columns round what they are given. -/
def decisionRow (command : CreatePricingDecision) (id inventoryItemId : Uuid) (landedCost : Rat)
    (result : PricingCalculation) : PricingDecision where
  id
  version := 1
  inventoryItemId
  approvalId := none
  landedCost := money landedCost
  marketplaceFees := money command.marketplaceFees
  fulfilmentCosts := money command.fulfilmentCosts
  targetMargin := money command.targetMargin
  minimumMargin := money command.minimumMargin
  minimumPrice := result.minimumSellingPrice
  currentPrice := command.currentSellingPrice.map money
  proposedPrice := result.recommendedSellingPrice
  recommendedPrice := result.recommendedSellingPrice
  contributionMargin := result.contributionProfit
  grossProfit := result.grossProfit
  contributionProfit := result.contributionProfit
  marginPercentage := result.marginPercentage
  roiPercentage := result.roiPercentage
  priceChangePercentage := result.priceChangePercentage
  landedCostSource := if command.landedCost.isSome then "estimated" else "actual_inventory"
  commercialRules := commercialRules command.rules
  currency := command.currency.toUpper
  reason := command.reason
  policyResult := "pending"
  formulaVersion
  effectiveAt := none

/-- `create_decision`: the calculation, its row, and the approval that the policy asks for.  The
    policy is shown the change as the result has it, rounded to four decimals. -/
def createDecision [Digests] (approvalEngine : ApprovalEngine) (command : CreatePricingDecision) :
    Tx PricingDecision := do
  let found ← selectForUpdate .inventoryItems fun i => i.id = command.inventoryItemId
  let inventory ← Tx.orThrow found .pricingInventoryNotFoundError command.inventoryItemId.text
  let landedCost := command.landedCost.getD inventory.costBasis
  let result ← Prog.ofExcept
    (Pricing.calculatePrice defaultContext (inputs command landedCost) command.rules)
  let id ← Tx.uuid4
  let decision ← add .pricingDecisions (decisionRow command id inventory.id landedCost result)
  let approval ← approvalEngine.requestIfRequired
    { actionType := .priceChange
      amount := none
      priceChangePercent := result.priceChangePercentage
      isFirstPublication := false
      riskLevel := "normal" }
    { actionType := ApprovalActionType.priceChange.value
      resourceType := "pricing_decision"
      resourceId := decision.id
      requestedAction := .object
        [("current_price", .ofAmount command.currentSellingPrice),
          ("recommended_price", .decimal (.ofMoney result.recommendedSellingPrice)),
          ("minimum_price", .decimal (.ofMoney result.minimumSellingPrice)),
          ("currency", .text decision.currency)]
      reason := command.reason
      requester := command.requester
      riskLevel := "financial"
      workflowRunId := none }
  let now ← Tx.now
  let decision ← flush .pricingDecisions decision
    (match approval with
      | none => { decision with policyResult := "allowed", effectiveAt := some now }
      | some approval =>
        { decision with policyResult := "approval_required", approvalId := some approval.id })
  addAudit "user" command.requester "pricing.decision_created" "pricing_decision" decision.id none
    (some (.object
      [("recommended_price", .decimal (.ofMoney decision.recommendedPrice)),
        ("minimum_price", .decimal (.ofMoney decision.minimumPrice)),
        ("policy_result", .text decision.policyResult)]))
    (some decision.reason) decision.id
  pure decision

/-- `approve_price_change`, the resume handler of a price approval.  The floor is checked again on
    the stored row. -/
def approvePriceChange (approval : Approval) : Tx Unit := do
  Tx.require (approval.resourceType = "pricing_decision") .pricingApprovalError
    "Price approval references the wrong entity type"
  let found ← selectForUpdate .pricingDecisions fun d => d.id = approval.resourceId
  let decision ← Tx.orThrow found .pricingApprovalError "Pricing decision was not found"
  Tx.require (decision.approvalId = some approval.id ∧ decision.policyResult = "approval_required")
    .pricingApprovalError "Pricing decision is not awaiting this approval"
  Tx.require (decision.minimumPrice ≤ decision.proposedPrice) .pricingApprovalError
    "Approved price would breach the profitability floor"
  let now ← Tx.now
  let _ ← flush .pricingDecisions decision
    { decision with policyResult := "approved", effectiveAt := some now }

end PricingService

end CommerceOperations
