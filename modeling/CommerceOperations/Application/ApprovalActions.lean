/-
  The approval engine of the service, with the action each kind of approval resumes.

  `approvals/engine.py` knows nothing of the services: it is given a registry, and runs the handler
  it finds there in the transaction that decides the approval.  `getApprovalEngine` is the registry
  the API builds.  Five of the kinds have an action; a decision of any other only changes the
  approval and the run that waits for it.

  The theorems of `Approvals/Decisions` ask of a registry that its handlers leave the table of
  approvals alone.  The last theorem here is that promise, kept by each of the five.
-/
import CommerceOperations.Application.CustomerService
import CommerceOperations.Application.Listings
import CommerceOperations.Application.Pricing
import CommerceOperations.Application.Procurement
import CommerceOperations.Application.Refunds
import CommerceOperations.Approvals.Decisions

namespace CommerceOperations

open Relational

/-- The action registry of `get_approval_engine`. -/
def approvalActions (actionType : String) : Option (Approval → Tx Unit) :=
  if actionType = ApprovalActionType.supplierPurchase.value then
    some ProcurementService.approvePurchase
  else if actionType = ApprovalActionType.firstMarketplacePublication.value then
    some ListingApprovalService.approveListing
  else if actionType = ApprovalActionType.priceChange.value then
    some PricingService.approvePriceChange
  else if actionType = ApprovalActionType.customerResponse.value then
    some CustomerResponseApprovalService.approveResponse
  else if actionType = ApprovalActionType.refund.value then some RefundService.approveRefund
  else none

/-- `get_approval_engine`: the policy from the settings, and the registry. -/
def getApprovalEngine (settings : ApprovalSettings) (defaultApprovalExpiryHours : Int) :
    ApprovalEngine where
  policy := ApprovalPolicy.fromSettings settings
  defaultExpiryHours := defaultApprovalExpiryHours
  actionRegistry := approvalActions

/-- The registered actions, one by one: whatever handler a type has is one of these five. -/
theorem approvalActions_cases {actionType : String} {handler : Approval → Tx Unit}
    (h : approvalActions actionType = some handler) :
    (actionType = ApprovalActionType.supplierPurchase.value ∧
        handler = ProcurementService.approvePurchase) ∨
      (actionType = ApprovalActionType.firstMarketplacePublication.value ∧
        handler = ListingApprovalService.approveListing) ∨
      (actionType = ApprovalActionType.priceChange.value ∧
        handler = PricingService.approvePriceChange) ∨
      (actionType = ApprovalActionType.customerResponse.value ∧
        handler = CustomerResponseApprovalService.approveResponse) ∨
      (actionType = ApprovalActionType.refund.value ∧ handler = RefundService.approveRefund) := by
  unfold approvalActions at h
  split_ifs at h with h₁ h₂ h₃ h₄ h₅
  · exact Or.inl ⟨h₁, (Option.some.inj h).symm⟩
  · exact Or.inr (Or.inl ⟨h₂, (Option.some.inj h).symm⟩)
  · exact Or.inr (Or.inr (Or.inl ⟨h₃, (Option.some.inj h).symm⟩))
  · exact Or.inr (Or.inr (Or.inr (Or.inl ⟨h₄, (Option.some.inj h).symm⟩)))
  · exact Or.inr (Or.inr (Or.inr (Or.inr ⟨h₅, (Option.some.inj h).symm⟩)))

/-! ## What the actions write -/

/-- Approving a listing writes the draft and its workflow, and reports both. -/
theorem ListingApprovalService.approveListing_confined {approval : Approval} :
    (approveListing approval).confined
      [.listingDrafts, .workflowRuns, .domainEvents, .auditEvents] := by
  refine Prog.writes_bind (Tx.confined_require (by decide)) fun _ => ?_
  refine Prog.writes_bind (Prog.writes_selectForUpdate _ _) fun found => ?_
  refine Prog.writes_bind (Tx.confined_orThrow (by decide)) fun draft => ?_
  refine Prog.writes_bind (Tx.confined_require (by decide)) fun _ => ?_
  refine Prog.writes_bind (Tx.confined_require (by decide)) fun _ => ?_
  refine Prog.writes_bind (Tx.confined_flush _ _ (by decide)) fun draft => ?_
  refine Prog.writes_bind (Prog.writes_query _) fun found => ?_
  refine Prog.writes_bind (Tx.confined_orThrow (by decide)) fun workflow => ?_
  refine Prog.writes_bind (Tx.confined_flush _ _ (by decide)) fun workflow => ?_
  refine Prog.writes_bind
    (Tx.confined_mono DatabaseEventStore.emit_confined (by decide)) fun _ => ?_
  exact Tx.confined_mono addAudit_confined (by decide)

/-- Approving a price change writes the decision, and nothing else. -/
theorem PricingService.approvePriceChange_confined {approval : Approval} :
    (approvePriceChange approval).confined [.pricingDecisions] := by
  refine Prog.writes_bind (Tx.confined_require (by decide)) fun _ => ?_
  refine Prog.writes_bind (Prog.writes_selectForUpdate _ _) fun found => ?_
  refine Prog.writes_bind (Tx.confined_orThrow (by decide)) fun decision => ?_
  refine Prog.writes_bind (Tx.confined_require (by decide)) fun _ => ?_
  refine Prog.writes_bind (Tx.confined_require (by decide)) fun _ => ?_
  refine Prog.writes_bind (Prog.writes_answer _) fun now => ?_
  exact Prog.writes_bind (Tx.confined_flush _ _ (by decide)) fun _ => trivial

/-- Approving a response writes the message and its conversation. -/
theorem CustomerResponseApprovalService.approveResponse_confined {approval : Approval} :
    (approveResponse approval).confined [.customerMessages, .customerConversations] := by
  refine Prog.writes_bind (Tx.confined_require (by decide)) fun _ => ?_
  refine Prog.writes_bind (Prog.writes_selectForUpdate _ _) fun found => ?_
  refine Prog.writes_bind (Tx.confined_orThrow (by decide)) fun message => ?_
  refine Prog.writes_bind (Tx.confined_require (by decide)) fun _ => ?_
  refine Prog.writes_bind (Tx.confined_require (by decide)) fun _ => ?_
  refine Prog.writes_bind (Prog.writes_answer _) fun now => ?_
  refine Prog.writes_bind (Prog.writes_query _) fun found => ?_
  refine Prog.writes_bind (Tx.confined_orThrow (by decide)) fun conversation => ?_
  refine Prog.writes_bind (Tx.confined_flush _ _ (by decide)) fun _ => ?_
  exact Prog.writes_bind (Tx.confined_flush _ _ (by decide)) fun _ => trivial

/-- **No action writes approvals**, so the decisions of the engine of the service are final
    (`approval_is_decided_once`). -/
theorem approvalActions_leavesApprovals (actionType : String) (handler : Approval → Tx Unit)
    (h : approvalActions actionType = some handler) : ApprovalEngine.LeavesApprovals handler := by
  intro approval D D' u hrun k
  rcases approvalActions_cases h with ⟨-, rfl⟩ | ⟨-, rfl⟩ | ⟨-, rfl⟩ | ⟨-, rfl⟩ | ⟨-, rfl⟩
  · exact .of_confined ProcurementService.approvePurchase_confined (by decide) hrun
  · exact .of_confined ListingApprovalService.approveListing_confined (by decide) hrun
  · exact .of_confined PricingService.approvePriceChange_confined (by decide) hrun
  · exact .of_confined CustomerResponseApprovalService.approveResponse_confined (by decide) hrun
  · exact .of_confined RefundService.approveRefund_confined (by decide) hrun

end CommerceOperations
