/-
  The approval policy: which actions need a human decision.

  A policy is a list of rules, and the first rule that asks for approval decides; its name and
  version are kept with the approval it causes.  The classes of the source, one a rule, are one
  inductive type here, because a rule is given by what it compares: an action type, or a number
  with a threshold.

  Note the two comparisons.  A price change is significant from the threshold on, a refund needs
  approval above it.
-/
import CommerceOperations.Events.Store

namespace CommerceOperations

/-- `ApprovalActionType`: what may be asked to be approved. -/
inductive ApprovalActionType where
  | supplierPurchase | firstMarketplacePublication | priceChange | refund | destructiveAction
  | highRiskAction | customerResponse
  deriving DecidableEq, Repr

/-- The value of the enumeration, under which it is stored. -/
def ApprovalActionType.value : ApprovalActionType → String
  | supplierPurchase => "supplier_purchase"
  | firstMarketplacePublication => "first_marketplace_publication"
  | priceChange => "price_change"
  | refund => "refund"
  | destructiveAction => "destructive_action"
  | highRiskAction => "high_risk_action"
  | customerResponse => "customer_response"

/-- `ApprovalContext`: what is known of an action when it is asked for.  The rules read nothing
    else, so two actions with the same context are treated alike. -/
structure ApprovalContext where
  actionType : ApprovalActionType
  amount : Option Rat
  priceChangePercent : Option Rat
  isFirstPublication : Bool
  riskLevel : String

/-- The rules of `approvals/policy.py`.  The first constructor stands for `ActionApprovalRule`, the
    only one whose name is chosen where it is built. -/
inductive ApprovalRule where
  | action (name : String) (actionTypes : List ApprovalActionType)
  | firstPublication
  | significantPriceChange (thresholdPercent : Rat)
  | refundThreshold (threshold : Rat)

namespace ApprovalRule

/-- The name of a rule, kept with the approvals it causes. -/
def name : ApprovalRule → String
  | action name _ => name
  | firstPublication => "first_marketplace_publication"
  | significantPriceChange _ => "significant_price_change"
  | refundThreshold _ => "refund_above_threshold"

/-- Every rule is at its first version. -/
def version : ApprovalRule → Int := fun _ => 1

/-- `requires_approval` of the rule.  A price change without a percentage and a refund without an
    amount pass. -/
def requiresApproval : ApprovalRule → ApprovalContext → Bool
  | action _ actionTypes, context => context.actionType ∈ actionTypes
  | firstPublication, context =>
    context.actionType = .firstMarketplacePublication ∧ context.isFirstPublication
  | significantPriceChange thresholdPercent, context =>
    context.actionType = .priceChange ∧
      context.priceChangePercent.any fun change => thresholdPercent ≤ |change|
  | refundThreshold threshold, context =>
    context.actionType = .refund ∧ context.amount.any fun amount => threshold < amount

end ApprovalRule

/-- The settings the policy is built from. -/
structure ApprovalSettings where
  significantPriceChangePercent : Rat
  refundApprovalThreshold : Rat

/-- `ApprovalPolicy`: its rules, in order. -/
structure ApprovalPolicy where
  rules : List ApprovalRule

namespace ApprovalPolicy

/-- `ApprovalPolicy.from_settings`. -/
def fromSettings (settings : ApprovalSettings) : ApprovalPolicy where
  rules :=
    [.action "financial_and_high_risk_actions"
        [.supplierPurchase, .destructiveAction, .highRiskAction],
      .firstPublication,
      .significantPriceChange settings.significantPriceChangePercent,
      .refundThreshold settings.refundApprovalThreshold]

/-- `ApprovalPolicy.evaluate`: the first rule that requires approval; `none` allows. -/
def evaluate (policy : ApprovalPolicy) (context : ApprovalContext) : Option ApprovalRule :=
  policy.rules.find? fun rule => rule.requiresApproval context

end ApprovalPolicy

end CommerceOperations
