/-
  Refund approvals over time: a refund asks for its approval again and again, approvals of refunds
  are approved, rejected and swept, each call a transaction at a time of its own.

  Decisions leave alone what an approval asks for (`Approval.asked`) and what a refund is about
  (`Refund.claim`).  So an approval of a refund asks for that refund, as `request_approval` wrote it
  (`RefundsAsked`).

  The crux is how `create_request` looks for an approval that is already there: by the hash of the
  action, whatever its state.  An action names the refund and the text of its amount, so a refund
  has one approval for each way of writing the amount, and one that is expired or rejected is found
  again and again while the refund stays proposed.

  The file goes in this order:

  1. every call leaves `asked` and `claim` as they are;
  2. so `RefundsAsked` holds in every state of a history;
  3. a request returns an approval that answers it, an old one or a new one (`Requested`);
  4. such an approval can be given exactly if it is pending, not expired and about the amount on
     record (`canBeApproved_iff`), and
  5. what that says of the state before the request is `Unobstructed`.
-/
import CommerceOperations.Application.ApprovalActions
import CommerceOperations.Approvals.Decisions

namespace CommerceOperations

open Relational Prog

/-- What an approval asks for: the row without its decision. -/
def Approval.asked (a : Approval) : Approval :=
  { a with
    version := 0, status := .pending, decidedBy := none, rationale := none, decidedAt := none
    resumedAt := none }

/-- What a refund is about: the row without its progress. -/
def Refund.claim (r : Refund) : Refund :=
  { r with version := 0, approvalId := none, status := .proposed }

/-- Approvals ask for the same, and refunds are about the same. -/
def SameRefunds (D D' : Db) : Prop :=
  Database.SameRows .approvals Approval.asked D D' ∧ Database.SameRows .refunds Refund.claim D D'

instance : Std.Refl SameRefunds := ⟨fun D => ⟨Std.Refl.refl D, Std.Refl.refl D⟩⟩

instance : IsTrans Db SameRefunds :=
  ⟨fun _ _ _ h h' => ⟨IsTrans.trans _ _ _ h.1 h'.1, IsTrans.trans _ _ _ h.2 h'.2⟩⟩

/-- What writes neither table leaves both as they are. -/
theorem sameRefunds_of_confined {α : Type} {p : Tx α} {tables : List TableName}
    (h : p.confined tables) (happrovals : TableName.approvals ∉ tables)
    (hrefunds : TableName.refunds ∉ tables) : p.keeps SameRefunds :=
  fun D a D' hrun => ⟨sameRows_of_confined h happrovals D a D' hrun,
    sameRows_of_confined h hrefunds D a D' hrun⟩

/-- An audit entry writes neither. -/
theorem addAudit_keepsRefunds {actorType actorId action resourceType : String} {resourceId : Uuid}
    {beforeState afterState : Option Json} {reason : Option String} {correlationId : Uuid} :
    (addAudit actorType actorId action resourceType resourceId beforeState afterState reason
      correlationId).keeps SameRefunds :=
  sameRefunds_of_confined addAudit_confined (by decide) (by decide)

/-! ## What a call does to approvals and refunds -/

section Steps

variable {D D' : Db} {a b row : Approval} {now : Instant} {actor reason : String}

/-- A decision written in the row of an approval that is current. -/
theorem flushApproval_sameRefunds {new : Approval} (hcur : D.approvals.get a.id = some a)
    (hasked : new.asked = a.asked) (h : (flush .approvals a new).runs D (.ok (row, D'))) :
    SameRefunds D D' := by
  have hid : new.asked.id = a.asked.id := congrArg Approval.id hasked
  refine ⟨sameRows_flush (f := Approval.asked) h hid rfl hcur hasked, ?_⟩
  have hconfined : (flush .approvals a new).confined [.approvals] :=
    Tx.confined_flush _ _ (by decide)
  exact sameRows_of_confined hconfined (by decide) D row D' h

/-- The progress of a refund that is current. -/
theorem flushRefund_sameRefunds {r new row : Refund} (hcur : D.refunds.get r.id = some r)
    (hclaim : new.claim = r.claim) (h : (flush .refunds r new).runs D (.ok (row, D'))) :
    SameRefunds D D' := by
  have hid : new.claim.id = r.claim.id := congrArg Refund.id hclaim
  have hconfined : (flush .refunds r new).confined [.refunds] :=
    Tx.confined_flush _ _ (by decide)
  exact ⟨sameRows_of_confined hconfined (by decide) D row D' h,
    sameRows_flush (f := Refund.claim) h hid rfl hcur hclaim⟩

/-- A refund that is current is written back with the columns it was given. -/
theorem flushRefund_runs {r new row : Refund} (hcur : D.refunds.get r.id = some r)
    (hid : new.id = r.id) (h : (flush .refunds r new).runs D (.ok (row, D'))) :
    (∃ v, row = { new with version := v }) ∧ D'.refunds.get r.id = some row := by
  rcases runs_flush (by exact hid) (by rfl) hcur h with ⟨rfl, rfl, rfl⟩ | ⟨-, rfl, hs, hc, rfl⟩
  · exact ⟨⟨_, rfl⟩, hcur⟩
  · exact ⟨⟨_, rfl⟩, (Table.get_update hs hc r.id).trans (if_pos hid)⟩

namespace ApprovalEngine

/-- The audit entry of a decision leaves approvals and refunds as they are. -/
theorem audit_sameRefunds {action : String} {before : Option String} {after : String} {u : Unit}
    (h : (audit a action actor before after).runs D (.ok (u, D'))) : SameRefunds D D' :=
  addAudit_keepsRefunds D u D' h

/-- An approval that expires asks for what it asked for. -/
theorem expire_sameRefunds (hcur : D.approvals.get a.id = some a)
    (h : (expire a now actor).runs D (.ok (b, D'))) : SameRefunds D D' := by
  obtain ⟨expired, D₁, hflush, h₁⟩ := runs_bind_ok.mp h
  obtain ⟨_, D₂, haudit, h₂⟩ := runs_bind_ok.mp h₁
  cases h₂
  exact IsTrans.trans _ _ _ (flushApproval_sameRefunds hcur (by rfl) hflush)
    (audit_sameRefunds haudit)

/-- **A sweep**, by induction on the approvals that are due. -/
theorem expireAll_sameRefunds {approvals : List Approval} {u : Unit}
    (hdue : ∀ a ∈ approvals, D.approvals.get a.id = some a)
    (hdistinct : approvals.Pairwise fun a b => a.id ≠ b.id)
    (h : (expireAll now approvals).runs D (.ok (u, D'))) : SameRefunds D D' := by
  induction approvals generalizing D with
  | nil =>
    cases h
    exact Std.Refl.refl _
  | cons first rest ih =>
    obtain ⟨expired, D₁, hexpire, h₁⟩ := runs_bind_ok.mp h
    have hcur := hdue first List.mem_cons_self
    rw [List.pairwise_cons] at hdistinct
    -- the others are as they were read
    have hrest : ∀ a ∈ rest, (Db.approvals D₁).get a.id = some a := by
      intro a ha
      have hother := (expire_runs hcur hexpire).2.2 a.id (Ne.symm (hdistinct.1 a ha))
      exact hother a (hdue a (List.mem_cons_of_mem first ha))
    exact IsTrans.trans _ _ _ (expire_sameRefunds hcur hexpire) (ih hrest hdistinct.2 h₁)

/-- After a sweep every approval still asks for what it asked for. -/
theorem expireDue_sameRefunds {n : Int} (h : (expireDue now).runs D (.ok (n, D'))) :
    SameRefunds D D' := by
  obtain ⟨approvals, D₁, hselect, h₁⟩ := runs_bind_ok.mp h
  obtain ⟨hdue, rfl⟩ := runs_selectAllForUpdate.mp hselect
  obtain ⟨_, D₂, hall, h₂⟩ := runs_bind_ok.mp h₁
  cases h₂
  refine expireAll_sameRefunds ?_ ?_ hall
  · intro a ha
    rw [hdue] at ha
    exact Table.get_of_mem (List.mem_of_mem_filter ha)
  · rw [hdue]
    exact (D.approvals.distinct.imp fun h => h.1).filter _

/-- An approval that is rejected asks for what it asked for; one that is too late for that expires.
    -/
theorem reject_sameRefunds {i : Uuid} {outcome : ApprovalOutcome}
    (h : (reject i actor reason now).runs D (.ok (outcome, D'))) : SameRefunds D D' := by
  obtain ⟨a, hcur, -, -, h₁⟩ := getPending_runs h
  split at h₁
  · obtain ⟨b, D₁, hexpire, h₂⟩ := runs_bind_ok.mp h₁
    cases h₂
    exact expire_sameRefunds hcur hexpire
  · obtain ⟨b, D₁, hflush, h₂⟩ := runs_bind_ok.mp h₁
    obtain ⟨_, D₂, haudit, h₃⟩ := runs_bind_ok.mp h₂
    cases h₃
    exact IsTrans.trans _ _ _ (flushApproval_sameRefunds hcur (by rfl) hflush)
      (audit_sameRefunds haudit)

end ApprovalEngine

end Steps

/-! ## What an approval of a refund asks for -/

namespace RefundService

/-- The action `request_approval` asks for: the refund, and the amount as it is written. -/
def requestedAction (refundId : Uuid) (amount : Decimal) : Json :=
  .object [("refund_id", .text refundId.text), ("amount", .decimal amount)]

/-- The approval asks for its refund with the amount told, and for nothing else: it is about no
    workflow, and the handler of refunds decides it. -/
structure Asks (a : Approval) (amount : Decimal) : Prop where
  /-- the handler of refunds decides it -/
  actionType : a.actionType = ApprovalActionType.refund.value
  /-- no run waits for it -/
  workflowRunId : a.workflowRunId = none
  /-- and it asks for the refund, with the amount as it was written -/
  requestedPayload : a.requestedPayload = requestedAction a.resourceId amount

/-- What an approval asks for is read off the part that decisions leave alone. -/
theorem Asks.same {a a' : Approval} {amount : Decimal} (h : Asks a amount)
    (ha : a'.asked = a.asked) : Asks a' amount := by
  have hresource : a'.asked.resourceId = a.asked.resourceId := congrArg Approval.resourceId ha
  have haction : a'.asked.actionType = a.asked.actionType := congrArg Approval.actionType ha
  have hworkflow : a'.asked.workflowRunId = a.asked.workflowRunId :=
    congrArg Approval.workflowRunId ha
  have hpayload : a'.asked.requestedPayload = a.asked.requestedPayload :=
    congrArg Approval.requestedPayload ha
  refine ⟨haction.trans h.actionType, hworkflow.trans h.workflowRunId, ?_⟩
  refine hpayload.trans (h.requestedPayload.trans ?_)
  exact congrArg (requestedAction · amount) hresource.symm

end RefundService

/-- Each approval of a refund was asked for by `request_approval`. -/
def RefundsAsked (D : Db) : Prop :=
  ∀ k a, D.approvals.get k = some a → a.resourceType = "refund" →
    ∃ amount, RefundService.Asks a amount

/-- Where approvals ask for the same in two states, each is asked for by its refund in both. -/
theorem RefundsAsked.same {D D' : Db} (h : RefundsAsked D) (hD : SameRefunds D D') :
    RefundsAsked D' := by
  intro k a' ha' htype
  obtain ⟨a, ha, hasked⟩ := hD.1.before ha'
  have htype' : a.asked.resourceType = "refund" := by
    rw [← hasked]
    exact htype
  obtain ⟨amount, hasks⟩ := h k a ha htype'
  exact ⟨amount, hasks.same hasked⟩

/-! ## Approving a refund -/

namespace RefundService

variable {D D' : Db} {a : Approval} {actor reason : String} {now : Instant}

/-- Reading a number writes nothing. -/
theorem toDecimal_runs {value : Option Json} {q : Rat}
    (h : (toDecimal value).runs D (.ok (q, D'))) :
    D = D' := by
  unfold toDecimal at h
  split at h
  · cases h
    rfl
  · cases h
    rfl
  · exact nomatch h
  · exact nomatch h

/-- The handler writes the progress of the refund, and that is no part of what it is about. -/
theorem approveRefund_sameRefunds : (approveRefund a).keeps SameRefunds := by
  intro D u D' h
  obtain ⟨found, D₁, hselect, h₁⟩ := runs_bind_ok.mp h
  obtain ⟨hfound, rfl⟩ := Tx.runs_select.mp hselect
  obtain ⟨refund, D₂, hthrow, h₂⟩ := runs_bind_ok.mp h₁
  obtain ⟨hrefund, rfl⟩ := Tx.runs_orThrow.mp hthrow
  obtain ⟨_, D₃, hrequire₃, h₃⟩ := runs_bind_ok.mp h₂
  obtain ⟨-, rfl⟩ := Tx.runs_require.mp hrequire₃
  obtain ⟨_, D₄, hrequire₄, h₄⟩ := runs_bind_ok.mp h₃
  obtain ⟨-, rfl⟩ := Tx.runs_require.mp hrequire₄
  obtain ⟨amount, D₅, hdecimal, h₅⟩ := runs_bind_ok.mp h₄
  obtain rfl := toDecimal_runs hdecimal
  obtain ⟨_, D₆, hrequire₆, h₆⟩ := runs_bind_ok.mp h₅
  obtain ⟨-, rfl⟩ := Tx.runs_require.mp hrequire₆
  obtain ⟨row, D₇, hflush, haudit⟩ := runs_bind_ok.mp h₆
  have hget : D.refunds.get a.resourceId = some refund := by
    rw [← hfound]
    exact (Option.filter_eq_some_iff.mp hrefund).1
  have hcur : D.refunds.get refund.id = some refund := Table.get_of_mem (Table.mem_of_get hget)
  exact IsTrans.trans _ _ _ (flushRefund_sameRefunds hcur (by rfl) hflush)
    (addAudit_keepsRefunds _ _ _ haudit)

end RefundService

namespace ApprovalEngine

variable {settings : ApprovalSettings} {expiryHours : Int}
variable {D D' : Db} {a : Approval} {actor reason : String} {now : Instant}

/-- What is resumed for a refund is about the refund. -/
theorem resumeRefund_sameRefunds {resumed : Approval}
    (htype : a.actionType = ApprovalActionType.refund.value) (hworkflow : a.workflowRunId = none)
    (hcur : D.approvals.get a.id = some a)
    (h : ((getApprovalEngine settings expiryHours).resumeAction a now).runs D
      (.ok (resumed, D'))) : SameRefunds D D' := by
  unfold resumeAction at h
  have hregistry : (getApprovalEngine settings expiryHours).actionRegistry a.actionType =
      some RefundService.approveRefund := by
    rw [htype]
    rfl
  rw [hregistry, hworkflow] at h
  obtain ⟨u, D₁, hhandler, h₁⟩ := runs_bind_ok.mp h
  have hsame := RefundService.approveRefund_sameRefunds _ _ _ hhandler
  have happrovals : Db.approvals D₁ = Db.approvals D :=
    sameOff_of_runs RefundService.approveRefund_confined hhandler .approvals (by decide)
  refine IsTrans.trans _ _ _ hsame (flushApproval_sameRefunds ?_ ?_ h₁)
  · rw [happrovals]
    exact hcur
  · simp [Approval.asked, hworkflow]

/-- **Approving** an approval of a refund leaves what it asks for, and what the refund is about. -/
theorem approve_sameRefunds {i : Uuid} {outcome : ApprovalOutcome} (hasked : RefundsAsked D)
    (hrefund : ∀ a, D.approvals.get i = some a → a.resourceType = "refund")
    (h : ((getApprovalEngine settings expiryHours).approve i actor reason now).runs D
      (.ok (outcome, D'))) : SameRefunds D D' := by
  obtain ⟨a, hcur, rfl, -, h₁⟩ := getPending_runs h
  split at h₁
  · obtain ⟨b, D₁, hexpire, h₂⟩ := runs_bind_ok.mp h₁
    cases h₂
    exact expire_sameRefunds hcur hexpire
  · obtain ⟨approved, D₁, hflush, h₂⟩ := runs_bind_ok.mp h₁
    obtain ⟨resumed, D₂, hresume, h₃⟩ := runs_bind_ok.mp h₂
    obtain ⟨_, D₃, haudit, h₄⟩ := runs_bind_ok.mp h₃
    cases h₄
    obtain ⟨amount, hasks⟩ := hasked a.id a hcur (hrefund a hcur)
    obtain ⟨⟨v, rfl⟩, hcur₁, -⟩ := flushApproval_runs (by rfl) hcur hflush
    have hsame := flushApproval_sameRefunds hcur (by rfl) hflush
    exact IsTrans.trans _ _ _ hsame (IsTrans.trans _ _ _
      (resumeRefund_sameRefunds (by exact hasks.actionType) (by exact hasks.workflowRunId)
        (by exact hcur₁) hresume)
      (audit_sameRefunds haudit))

/-! ## Requesting approval -/

variable [Digests]

/-- **A request at time `t`** returns the approval of this action, if there is one, or adds one. -/
theorem createRequest_atTime {engine : ApprovalEngine} {request : ApprovalRequest}
    {ruleName : String} {ruleVersion : Int} {t : Instant}
    (h : ((engine.createRequest request ruleName ruleVersion).atTime t).runs D (.ok (a, D'))) :
    (a.resourceType = request.resourceType ∧ a.resourceId = request.resourceId ∧
        a.actionHash = actionHash request.actionType request.resourceId request.requestedAction) ∧
      ((a ∈ D.approvals ∧ D' = D) ∨
        ((∀ b ∈ D.approvals, ¬(b.resourceType = request.resourceType ∧
            b.resourceId = request.resourceId ∧ b.actionHash = a.actionHash)) ∧
          a.status = .pending ∧ a.expiresAt = some (t + hours engine.defaultExpiryHours) ∧
            a.actionType = request.actionType ∧ a.requestedPayload = request.requestedAction ∧
              a.workflowRunId = request.workflowRunId ∧ D.approvals.conflicts a = false ∧
                D'.approvals = D.approvals.insert a ∧ D'.refunds = D.refunds)) := by
  obtain ⟨existing, D₁, hselect, h₁⟩ := runs_under_bind.mp h
  obtain ⟨hfind, rfl⟩ := Tx.runs_select.mp (runs_of_under hselect)
  cases existing with
  | some existing =>
    obtain ⟨hguard, hmem⟩ := And.intro (List.find?_some hfind.symm)
      (List.mem_of_find?_eq_some hfind.symm)
    cases h₁
    exact ⟨by simpa using hguard, Or.inl ⟨hmem, rfl⟩⟩
  | none =>
    obtain ⟨now, D₂, ⟨env, hnow⟩, h₂⟩ := runs_under_bind.mp h₁
    cases hnow
    obtain ⟨id, D₃, hid, h₃⟩ := runs_under_bind.mp h₂
    obtain ⟨env', hid⟩ := runs_of_under hid
    cases hid
    obtain ⟨approval, D₄, hadd, h₄⟩ := runs_under_bind.mp h₃
    obtain ⟨happroval, hconflicts, rfl⟩ := runs_insert.mp (runs_of_under hadd)
    obtain ⟨_, D₅, haudit, h₅⟩ := runs_under_bind.mp h₄
    cases h₅
    have hsame := sameOff_of_runs addAudit_confined (runs_of_under haudit)
    have happrovals := (hsame .approvals (by decide)).trans (Database.apply_table_self ..)
    have hrefunds : Db.refunds D' = Db.refunds D :=
      (hsame .refunds (by decide)).trans (Database.apply_table_of_ne _ _ nofun)
    subst happroval
    refine ⟨⟨rfl, rfl, rfl⟩, Or.inr ⟨fun b hb hmatch => ?_, rfl, rfl, rfl, rfl, rfl, hconflicts,
      happrovals, hrefunds⟩⟩
    have hnone := List.find?_eq_none.mp hfind.symm b hb
    simp only [decide_eq_true_eq] at hnone
    exact hnone hmatch

end ApprovalEngine

namespace RefundService

variable [Digests] {settings : ApprovalSettings} {expiryHours : Int} {engine : ApprovalEngine}
variable {D D' : Db} {i : Uuid} {held : Option Decimal} {requester reason : String} {t : Instant}

/-- The approval that `create_request` takes for the one asked for: it is about the refund, and its
    action has the same hash, so the amount was written in the same way. -/
structure Answers (b : Approval) (refundId : Uuid) (amount : Decimal) : Prop where
  /-- it is about a refund -/
  resourceType : b.resourceType = "refund"
  /-- and about this one -/
  resourceId : b.resourceId = refundId
  /-- its action has the hash of the one asked for -/
  actionHash : b.actionHash = ApprovalEngine.actionHash ApprovalActionType.refund.value refundId
    (requestedAction refundId amount)

/-- What a request does at time `t` when its session has the amount as told: the refund is approved
    on the spot, or waits for an approval that answers the request, an old one or a new one. -/
structure Requested (engine : ApprovalEngine) (i : Uuid) (amount : Decimal) (t : Instant) (D : Db)
    (approval : Option Approval) (D' : Db) (r r' : Refund) : Prop where
  /-- the refund is on record -/
  found : D.refunds.get i = some r
  /-- and proposed, so that it may ask -/
  proposed : r.status = .proposed
  /-- it is there afterwards -/
  after : D'.refunds.get i = some r'
  /-- no refund becomes one about something else -/
  same : Database.SameRows .refunds Refund.claim D D'
  /-- without an approval it is approved on the spot -/
  automatic : approval = none → r'.status = .approved ∧ D'.approvals = D.approvals
  /-- with one it waits, and the approval answers: an old one, or a new one that is pending for the
      time of the settings -/
  waiting : ∀ a, approval = some a → r'.status = .proposed ∧ Answers a i amount ∧
    ((a ∈ D.approvals ∧ D'.approvals = D.approvals) ∨
      ((∀ b ∈ D.approvals, ¬Answers b i amount) ∧ a.status = .pending ∧
        a.expiresAt = some (t + hours engine.defaultExpiryHours) ∧ Asks a amount ∧
          D.approvals.conflicts a = false ∧ D'.approvals = D.approvals.insert a))

/-- **A request at time `t`** does what `Requested` says.  The policy decides whether an approval is
    needed at all; if so, `create_request` finds one or adds one. -/
theorem requestApproval_atTime {approval : Option Approval}
    (h : ((requestApproval engine i held requester reason).atTime t).runs D
      (.ok (approval, D'))) :
    ∃ r r', Requested engine i (amountIn held r) t D approval D' r r' := by
  obtain ⟨found, D₁, hselect, h₁⟩ := runs_under_bind.mp h
  obtain ⟨hfound, rfl⟩ := Tx.runs_select.mp (runs_of_under hselect)
  obtain ⟨r, D₂, hthrow, h₂⟩ := runs_under_bind.mp h₁
  obtain ⟨hr, rfl⟩ := Tx.runs_orThrow.mp (runs_of_under hthrow)
  obtain ⟨hget, hproposed⟩ := Option.filter_eq_some_iff.mp hr
  rw [hfound] at hget
  simp only [decide_eq_true_eq] at hproposed
  have hid : r.id = i := Table.key_of_get hget
  have hcur : D.refunds.get r.id = some r := Table.get_of_mem (Table.mem_of_get hget)
  obtain ⟨result, D₃, hrequest, h₃⟩ := runs_under_bind.mp h₂
  unfold ApprovalEngine.requestIfRequired at hrequest
  split at hrequest
  · -- the policy allows it
    cases hrequest
    obtain ⟨row, D₄, hflush, h₄⟩ := runs_under_bind.mp h₃
    have hflush := runs_of_under hflush
    obtain ⟨_, D₅, haudit, h₅⟩ := runs_under_bind.mp h₄
    cases h₅
    have hsame := sameOff_of_runs addAudit_confined (runs_of_under haudit)
    have hrefunds : Db.refunds D' = Db.refunds D₄ := hsame .refunds (by decide)
    obtain ⟨⟨v, rfl⟩, hafter⟩ := flushRefund_runs hcur (by rfl) hflush
    have happrovals : Db.approvals D₄ = Db.approvals D :=
      Tx.table_of_spares (i := .approvals) (Tx.spares_flush _ _ (by decide)) hflush
    have hclaims := flushRefund_sameRefunds hcur (by rfl) hflush
    refine ⟨r, { r with status := .approved, version := v }, hget, hproposed, ?_, ?_,
      fun _ => ⟨rfl, ?_⟩, fun a ha => (nomatch ha)⟩
    · rw [hrefunds, ← hid]
      exact hafter
    · exact IsTrans.trans _ _ _ hclaims.2 (Database.SameRows.of_table hrefunds)
    · exact (hsame .approvals (by decide)).trans happrovals
  · obtain ⟨a, D₄, hcreate, h₄⟩ := runs_under_bind.mp hrequest
    cases h₄
    obtain ⟨row, D₅, hflush, h₅⟩ := runs_under_bind.mp h₃
    have hflush := runs_of_under hflush
    cases h₅
    obtain ⟨⟨htype, hresource, hhash⟩, hcreated⟩ := ApprovalEngine.createRequest_atTime hcreate
    dsimp only at hhash
    rw [hid] at hhash
    have hanswers : Answers a i (amountIn held r) := ⟨htype, hresource.trans hid, hhash⟩
    -- the request left the refunds alone
    have hrefunds : Db.refunds D₃ = Db.refunds D := by
      rcases hcreated with ⟨-, rfl⟩ | ⟨-, -, -, -, -, -, -, -, hrefunds⟩
      · rfl
      · exact hrefunds
    have hcur₃ : (Db.refunds D₃).get r.id = some r := by
      rw [hrefunds]
      exact hcur
    obtain ⟨⟨v, rfl⟩, hafter⟩ := flushRefund_runs hcur₃ (by rfl) hflush
    have hclaims := flushRefund_sameRefunds hcur₃ (by rfl) hflush
    have happrovals : Db.approvals D' = Db.approvals D₃ :=
      Tx.table_of_spares (i := .approvals) (Tx.spares_flush _ _ (by decide)) hflush
    refine ⟨r, { r with approvalId := some a.id, version := v }, hget, hproposed, ?_, ?_,
      fun h => (nomatch h), fun a' ha' => ?_⟩
    · rw [← hid]
      exact hafter
    · exact IsTrans.trans _ _ _ (Database.SameRows.of_table hrefunds) hclaims.2
    · cases ha'
      refine ⟨hproposed, hanswers, ?_⟩
      rw [happrovals]
      rcases hcreated with ⟨hmem, rfl⟩ | ⟨hnone, hpending, hexpires, haction, hpayload, hworkflow,
          hconflicts, hinsert, -⟩
      · exact Or.inl ⟨hmem, rfl⟩
      · refine Or.inr ⟨fun b hb hb' => hnone b hb ?_, hpending, hexpires,
          ⟨haction, hworkflow, hpayload.trans ?_⟩, hconflicts, hinsert⟩
        · exact ⟨hb'.resourceType, hb'.resourceId.trans hid.symm, hb'.actionHash.trans hhash.symm⟩
        · exact congrArg (requestedAction · (amountIn held r)) hresource.symm

/-- A request keeps what is known of the approvals: an old one stays, and a new one asks for its
    refund. -/
theorem Requested.asked {approval : Option Approval} {amount : Decimal} {r r' : Refund}
    (h : Requested engine i amount t D approval D' r r') (hD : RefundsAsked D) :
    RefundsAsked D' := by
  have hold : D'.approvals = D.approvals → RefundsAsked D' := fun happrovals =>
    hD.same ⟨Database.SameRows.of_table happrovals, h.same⟩
  cases approval with
  | none => exact hold (h.automatic rfl).2
  | some a =>
    obtain ⟨-, -, ⟨-, happrovals⟩ | ⟨-, -, -, hasks, hconflicts, happrovals⟩⟩ := h.waiting a rfl
    · exact hold happrovals
    · intro k b hb htype
      rw [happrovals] at hb
      rw [Table.get_insert hconflicts] at hb
      split at hb
      · -- the new approval
        obtain rfl := Option.some.inj hb
        exact ⟨amount, hasks⟩
      · exact hD k b hb htype

end RefundService

/-! ## Approving what was asked for -/

/-- An audit entry can only meet a taken id. -/
def TakenAuditId (e : Error) : Prop := ∃ us, e = .integrityError .auditEvents us

/-- The audit entry that follows a decision touches its own table, and only a taken id can stop it.
    -/
theorem addAudit_post {actorType actorId action resourceType : String} {resourceId : Uuid}
    {beforeState afterState : Option Json} {reason : Option String}
    {correlationId : Uuid} {D : Db} :
    (addAudit actorType actorId action resourceType resourceId beforeState afterState reason
      correlationId).post D (fun _ E => Database.SameOff (· ∈ [TableName.auditEvents]) D E)
        TakenAuditId := by
  have hconfined : Prog.confined (· ∈ [TableName.auditEvents]) (fun e => ¬TakenAuditId e)
      (addAudit actorType actorId action resourceType resourceId beforeState afterState reason
        correlationId) :=
    writes_bind (writes_answer _) fun _ =>
      writes_bind (writes_insert _ List.mem_cons_self fun us h => h ⟨us, rfl⟩) fun _ => trivial
  exact post_mono (post_of_confined hconfined D) (fun _ _ h => h) fun _ h => not_not.mp h

section Approve

variable {D : Db} {a : Approval} {r : Refund} {R : Error → Prop}

/-- Writing the decision of a current approval succeeds. -/
theorem flushApproval_post {new : Approval} (hcur : D.approvals.get a.id = some a)
    (hasked : new.asked = a.asked) :
    (flush .approvals a new).post D (fun row (E : Db) => (∃ v, row = { new with version := v }) ∧
      E.approvals.get a.id = some row ∧ E.refunds = D.refunds) R := by
  have hid : new.id = a.id := by
    have hid : new.asked.id = a.asked.id := congrArg Approval.id hasked
    exact hid
  have huniques : Row.uniques new.asked = Row.uniques a.asked := congrArg Row.uniques hasked
  have hthrough : (flush .approvals a new).post D (fun _ _ => True) R :=
    post_flush_of_get hcur huniques (fun _ => trivial) fun _ => trivial
  refine post_iff.mpr ⟨fun row E h => ?_, (post_iff.mp hthrough).2⟩
  obtain ⟨hrow, hget, -⟩ := ApprovalEngine.flushApproval_runs hid hcur h
  exact ⟨hrow, hget, Tx.table_of_spares (i := .refunds) (Tx.spares_flush _ _ (by decide)) h⟩

/-- Writing the progress of a current refund succeeds. -/
theorem flushRefund_post {new : Refund} (hcur : D.refunds.get r.id = some r)
    (hclaim : new.claim = r.claim) :
    (flush .refunds r new).post D (fun row (E : Db) => (∃ v, row = { new with version := v }) ∧
      E.refunds.get r.id = some row ∧ E.approvals = D.approvals) R := by
  have hid : new.id = r.id := by
    have hid : new.claim.id = r.claim.id := congrArg Refund.id hclaim
    exact hid
  have huniques : Row.uniques new.claim = Row.uniques r.claim := congrArg Row.uniques hclaim
  have hthrough : (flush .refunds r new).post D (fun _ _ => True) R :=
    post_flush_of_get hcur huniques (fun _ => trivial) fun _ => trivial
  refine post_iff.mpr ⟨fun row E h => ?_, (post_iff.mp hthrough).2⟩
  obtain ⟨hrow, hget⟩ := flushRefund_runs hcur hid h
  exact ⟨hrow, hget, Tx.table_of_spares (i := .approvals) (Tx.spares_flush _ _ (by decide)) h⟩

/-- The handler, up to the comparison of the amounts. -/
theorem RefundService.approveRefund_eq {amount : Decimal} (hr : D.refunds.get r.id = some r)
    (hproposed : r.status = .proposed) (htype : a.resourceType = "refund")
    (hresource : a.resourceId = r.id) (hasks : Asks a amount) {Q : Unit → Db → Prop} :
    (approveRefund a).post D Q R ↔
      (do
        Tx.require (amount.value = r.amount) .refundApprovalError
          "Refund approval payload does not match the refund"
        let _ ← flush .refunds r { r with status := .approved }
        addAudit "human" ((a.decidedBy.filter (· ≠ "")).getD "unknown") "refund.approved" "refund"
          r.id none (some (.object [("status", .text RefundStatus.approved.value)])) a.rationale
          r.orderId : Tx Unit).post D Q R := by
  have hfound : D.refunds.get a.resourceId = some r := by
    rw [hresource]
    exact hr
  have hid : a.requestedPayload.get? "refund_id" = some (.text r.id.text) := by
    rw [hasks.requestedPayload, hresource]
    rfl
  have hamount : a.requestedPayload.get? "amount" = some (.decimal amount) := by
    rw [hasks.requestedPayload]
    rfl
  unfold approveRefund
  rw [post_bind, Tx.select, post_query, hfound]
  simp only [Option.filter, htype, decide_true, if_true, Tx.orThrow, Tx.require, hproposed, hid,
    hamount, toDecimal, pure_eq, done_bind]

/-- **The handler accepts what asks for the amount on record.** -/
theorem RefundService.approveRefund_post {amount : Decimal} (hr : D.refunds.get r.id = some r)
    (hproposed : r.status = .proposed) (htype : a.resourceType = "refund")
    (hresource : a.resourceId = r.id) (hasks : Asks a amount) (hvalue : amount.value = r.amount) :
    (approveRefund a).post D (fun _ (E : Db) => E.approvals = D.approvals ∧
      ∃ r', E.refunds.get r.id = some r' ∧ r'.status = .approved) TakenAuditId := by
  rw [approveRefund_eq hr hproposed htype hresource hasks]
  simp only [Tx.require, hvalue, if_true, pure_eq, done_bind]
  rw [post_bind]
  refine post_mono (flushRefund_post (R := TakenAuditId) hr (by rfl)) ?_ fun _ h => h
  rintro row E ⟨⟨v, rfl⟩, hget, happrovals⟩
  refine post_mono addAudit_post ?_ fun _ h => h
  intro _ E' hsame
  have hrefunds : Db.refunds E' = Db.refunds E := hsame .refunds (by decide)
  refine ⟨(hsame .approvals (by decide)).trans happrovals,
    { r with status := .approved, version := v }, ?_, rfl⟩
  rw [hrefunds]
  exact hget

/-- The refusal of an approval that asks for another amount. -/
def RefundService.mismatch : Error :=
  .raised .refundApprovalError "Refund approval payload does not match the refund"

/-- **The handler refuses what asks for another amount** than is on record. -/
theorem RefundService.approveRefund_refuses {amount : Decimal}
    (hr : D.refunds.get r.id = some r) (hproposed : r.status = .proposed)
    (htype : a.resourceType = "refund") (hresource : a.resourceId = r.id) (hasks : Asks a amount)
    (hvalue : amount.value ≠ r.amount) :
    (approveRefund a).post D (fun _ (E : Db) => E.approvals = D.approvals ∧ False)
      (· = mismatch) := by
  rw [approveRefund_eq hr hproposed htype hresource hasks]
  simp only [Tx.require, if_neg hvalue]
  exact rfl

section Decision

variable {settings : ApprovalSettings} {expiryHours : Int} {t : Instant} {Q : Db → Prop}

/-- Resuming hands over to the handler; what comes then touches no refund. -/
theorem ApprovalEngine.resumeRefund_post (ha : D.approvals.get a.id = some a)
    (haction : a.actionType = ApprovalActionType.refund.value) (hworkflow : a.workflowRunId = none)
    (hQ : ∀ {E E' : Db}, E'.refunds = E.refunds → Q E → Q E')
    (hhandler : (RefundService.approveRefund a).post D
      (fun _ (E : Db) => E.approvals = D.approvals ∧ Q E) R) :
    ((getApprovalEngine settings expiryHours).resumeAction a t).post D (fun _ E => Q E) R := by
  have hregistry : (getApprovalEngine settings expiryHours).actionRegistry a.actionType =
      some RefundService.approveRefund := by
    rw [haction]
    rfl
  have hasked : Approval.asked { a with workflowRunId := none, resumedAt := some t } = a.asked := by
    simp [Approval.asked, hworkflow]
  unfold resumeAction
  rw [hregistry, hworkflow]
  refine post_bind.mpr (post_mono hhandler ?_ fun _ h => h)
  rintro _ E ⟨happrovals, hE⟩
  have hcur : (Db.approvals E).get a.id = some a := by
    rw [happrovals]
    exact ha
  refine post_mono (flushApproval_post hcur hasked) ?_ fun _ h => h
  rintro _ E' ⟨-, -, hrefunds⟩
  exact hQ hrefunds hE

/-- **Approving hands over to the handler**: what is pending and not expired ends as the handler
    lets it end.  Nothing but the handler touches a refund, and the audit entry that follows it can
    only meet a taken id. -/
theorem ApprovalEngine.approve_post {approver reason : String}
    (ha : D.approvals.get a.id = some a) (hpending : a.status = .pending)
    (hlive : isExpired a t = false) (haction : a.actionType = ApprovalActionType.refund.value)
    (hworkflow : a.workflowRunId = none)
    (hQ : ∀ {E E' : Db}, E'.refunds = E.refunds → Q E → Q E')
    (hR : ∀ E, Q E → ∀ e, TakenAuditId e → R e)
    (hhandler : ∀ (b : Approval) (E : Db), b.asked = a.asked → E.refunds = D.refunds →
      (RefundService.approveRefund b).post E
        (fun _ (E' : Db) => E'.approvals = E.approvals ∧ Q E') R) :
    ((getApprovalEngine settings expiryHours).approve a.id approver reason t).post D
      (fun outcome (E : Db) => (∃ b, outcome = .decided b) ∧ Q E) R := by
  unfold approve getForUpdate
  rw [post_bind, post_bind, post_selectForUpdate]
  have hfind : (D.table .approvals).rows.find? (fun b : Approval => b.id = a.id) = some a := ha
  rw [hfind]
  simp only [Tx.orThrow, requirePending, Tx.require, hpending, hlive, if_true, Bool.false_eq_true,
    if_false, pure_eq, done_bind, post_done]
  refine post_bind.mpr (post_mono (flushApproval_post (R := R) ha (by rfl)) ?_ fun _ h => h)
  rintro approved E₁ ⟨⟨v, rfl⟩, hcur, hrefunds⟩
  refine post_bind.mpr (post_mono (resumeRefund_post (by exact hcur) (by exact haction)
    (by exact hworkflow) hQ (hhandler _ E₁ (by rfl) hrefunds)) ?_ fun _ h => h)
  intro resumed E₂ hE₂
  refine post_bind.mpr (post_mono addAudit_post ?_ (hR E₂ hE₂))
  intro _ E₃ hsame
  exact ⟨⟨resumed, rfl⟩, hQ (hsame .refunds (by decide)) hE₂⟩

end Decision

end Approve

/-! ## Calls and histories -/

/-- The calls that request, decide and sweep approvals of refunds, each at a time of its own. -/
inductive RefundCall where
  | requestApproval (refundId : Uuid) (held : Option Decimal) (requester reason : String)
      (now : Instant)
  | approve (approvalId : Uuid) (approver reason : String) (now : Instant)
  | reject (approvalId : Uuid) (approver reason : String) (now : Instant)
  | expireDue (now : Instant)

namespace RefundCall

variable [Digests]

/-- The call as a transaction; what it returns is dropped. -/
def run (engine : ApprovalEngine) : RefundCall → Tx Unit
  | requestApproval refundId held requester reason now => do
    let _ ← (RefundService.requestApproval engine refundId held requester reason).atTime now
    pure ()
  | approve approvalId approver reason now => do
    let _ ← engine.approve approvalId approver reason now
    pure ()
  | reject approvalId approver reason now => do
    let _ ← ApprovalEngine.reject approvalId approver reason now
    pure ()
  | expireDue now => do
    let _ ← ApprovalEngine.expireDue now
    pure ()

omit [Digests] in
/-- What is approved is the approval of a refund.  The other calls are about refunds anyway, or
    decide nothing. -/
def ForRefund : RefundCall → Db → Prop
  | approve approvalId _ _ _, D =>
    ∀ a, D.approvals.get approvalId = some a → a.resourceType = "refund"
  | _, _ => True

variable {settings : ApprovalSettings} {expiryHours : Int} {D D' : Db} {c : RefundCall}

/-- **Step lemma.**  A call leaves the approvals of refunds as their refunds asked for them. -/
theorem run_refundsAsked {u : Unit} (hasked : RefundsAsked D) (hc : c.ForRefund D)
    (h : (c.run (getApprovalEngine settings expiryHours)).runs D (.ok (u, D'))) :
    RefundsAsked D' := by
  cases c with
  | requestApproval refundId held requester reason now =>
    obtain ⟨approval, D₁, hrequest, h₁⟩ := runs_bind_ok.mp h
    cases h₁
    obtain ⟨r, r', hrequested⟩ := RefundService.requestApproval_atTime hrequest
    exact hrequested.asked hasked
  | approve approvalId approver reason now =>
    obtain ⟨outcome, D₁, happrove, h₁⟩ := runs_bind_ok.mp h
    cases h₁
    exact hasked.same (ApprovalEngine.approve_sameRefunds hasked hc happrove)
  | reject approvalId approver reason now =>
    obtain ⟨outcome, D₁, hreject, h₁⟩ := runs_bind_ok.mp h
    cases h₁
    exact hasked.same (ApprovalEngine.reject_sameRefunds hreject)
  | expireDue now =>
    obtain ⟨n, D₁, hexpire, h₁⟩ := runs_bind_ok.mp h
    cases h₁
    exact hasked.same (ApprovalEngine.expireDue_sameRefunds hexpire)

end RefundCall

section Histories

variable [Digests] {settings : ApprovalSettings} {expiryHours : Int} {D₀ D D' : Db}

/-- Calls about refund approvals, made one after the other. -/
abbrev RefundHistory (settings : ApprovalSettings) (expiryHours : Int) (D₀ : Db) : Db → Prop :=
  History (RefundCall.run (getApprovalEngine settings expiryHours)) RefundCall.ForRefund D₀

/-- **Run lemma.**  Where no approval was about a refund, every later one was asked for by its
    refund. -/
theorem refundsAsked_of_history (hstart : ∀ a ∈ D₀.approvals, a.resourceType ≠ "refund")
    (h : RefundHistory settings expiryHours D₀ D) : RefundsAsked D := by
  refine h.inv (P := RefundsAsked) ?_ ?_
  · intro k a ha htype
    exact absurd htype (hstart a (Table.mem_of_get ha))
  · intro c D u D' hasked hc hrun
    exact RefundCall.run_refundsAsked hasked hc hrun

namespace RefundService

/-- The approval can be given at time `t`: it is pending and not expired, and approving it then
    approves the refund. -/
structure CanBeApproved (engine : ApprovalEngine) (a : Approval) (refundId : Uuid) (t : Instant)
    (D : Db) : Prop where
  /-- it has not been decided -/
  pending : a.status = .pending
  /-- it has not expired -/
  live : ApprovalEngine.isExpired a t = false
  /-- whoever approves it, for whatever reason, approves the refund; only a taken id of an audit
      entry can stop that -/
  approves : ∀ approver reason, (engine.approve a.id approver reason t).post D
    (fun outcome (E : Db) => (∃ b, outcome = .decided b) ∧
      ∃ r, E.refunds.get refundId = some r ∧ r.status = .approved) TakenAuditId

/-- Nothing stands in the way of a request for the refund at time `t`, made by a session that has
    the amount as told.  The approvals that would answer it wait, and ask for the amount on record;
    where there is none, the amount the session has is that on record. -/
structure Unobstructed (D : Db) (r : Refund) (amount : Decimal) (t : Instant) : Prop where
  /-- an approval that answers is pending, not expired, and asks for the amount on record -/
  stored : ∀ b ∈ D.approvals, Answers b r.id amount →
    b.status = .pending ∧ ApprovalEngine.isExpired b t = false ∧
      ∃ asked, b.requestedPayload = requestedAction r.id asked ∧ asked.value = r.amount
  /-- without one the session has the amount on record -/
  fresh : (∀ b ∈ D.approvals, ¬Answers b r.id amount) → amount.value = r.amount

omit [Digests] in
/-- **What is asked for decides.**  An approval of a proposed refund can be given exactly if it is
    pending, not expired, and asks for the amount on record: with another amount the handler
    refuses it, whatever run the approval takes. -/
theorem canBeApproved_iff {a : Approval} {amount : Decimal} {r : Refund} {t : Instant}
    (ha : D.approvals.get a.id = some a) (hr : D.refunds.get r.id = some r)
    (hproposed : r.status = .proposed) (htype : a.resourceType = "refund")
    (hresource : a.resourceId = r.id) (hasks : Asks a amount) :
    CanBeApproved (getApprovalEngine settings expiryHours) a r.id t D ↔
      a.status = .pending ∧ ApprovalEngine.isExpired a t = false ∧ amount.value = r.amount := by
  -- the row the handler is given asks for the same, and finds the refund as it was
  have hsame : ∀ {b : Approval}, b.asked = a.asked →
      b.resourceType = "refund" ∧ b.resourceId = r.id ∧ Asks b amount := by
    intro b hb
    have htype' : b.asked.resourceType = a.asked.resourceType := congrArg Approval.resourceType hb
    have hresource' : b.asked.resourceId = a.asked.resourceId := congrArg Approval.resourceId hb
    exact ⟨htype'.trans htype, hresource'.trans hresource, hasks.same hb⟩
  have hfound : ∀ {E : Db}, E.refunds = D.refunds → E.refunds.get r.id = some r := by
    intro E hE
    rw [hE]
    exact hr
  constructor
  · rintro ⟨hpending, hlive, happroves⟩
    refine ⟨hpending, hlive, ?_⟩
    by_contra hvalue
    have hrefuses : ((getApprovalEngine settings expiryHours).approve a.id "" "" t).post D
        (fun outcome (_ : Db) => (∃ b, outcome = .decided b) ∧ False) (· = mismatch) :=
      ApprovalEngine.approve_post (Q := fun _ => False) ha hpending hlive hasks.actionType
        hasks.workflowRunId (fun _ h => h) (fun _ h => h.elim) fun b E hb hE => by
          obtain ⟨htype', hresource', hasks'⟩ := hsame hb
          exact approveRefund_refuses (hfound hE) hproposed htype' hresource' hasks' hvalue
    -- some run there is, and it ends in both ways
    have hrun := runs_eval (Environment.numbered 0) 0
      ((getApprovalEngine settings expiryHours).approve a.id "" "" t) D
    revert hrun
    cases hresult : ((getApprovalEngine settings expiryHours).approve a.id "" "" t).eval
      (Environment.numbered 0) 0 D with
    | ok result => exact fun hrun => ((post_iff.mp hrefuses).1 _ _ hrun).2
    | error e =>
      intro hrun
      have hmismatch : e = mismatch := (post_iff.mp hrefuses).2 e hrun
      obtain ⟨us, htaken⟩ := (post_iff.mp (happroves "" "")).2 e hrun
      rw [hmismatch] at htaken
      cases htaken
  · rintro ⟨hpending, hlive, hvalue⟩
    refine ⟨hpending, hlive, fun approver reason => ?_⟩
    refine ApprovalEngine.approve_post ha hpending hlive hasks.actionType hasks.workflowRunId ?_
      (fun _ _ _ h => h) fun b E hb hE => ?_
    · rintro E E' hE ⟨r', hr', happroved⟩
      exact ⟨r', by rw [hE]; exact hr', happroved⟩
    · obtain ⟨htype', hresource', hasks'⟩ := hsame hb
      exact approveRefund_post (hfound hE) hproposed htype' hresource' hasks' hvalue

/-- **A requested approval can be given exactly if nothing stood in its way.**  After any requests,
    decisions and sweeps, a request on a proposed refund at time `t` returns an approval that can
    be given at `t` if and only if each approval stored for the same action was pending, not
    expired at `t` and about the amount on record; and where none was stored, if and only if the
    session asked for the amount on record. -/
theorem requested_approval_law (hexpiry : 0 < expiryHours)
    (hstart : ∀ a ∈ D₀.approvals, a.resourceType ≠ "refund")
    (h : RefundHistory settings expiryHours D₀ D) {i : Uuid} {held : Option Decimal}
    {requester reason : String} {t : Instant} {a : Approval}
    (hrun : ((requestApproval (getApprovalEngine settings expiryHours) i held requester
      reason).atTime t).runs D (.ok (some a, D'))) :
    ∃ r, D.refunds.get i = some r ∧
      (CanBeApproved (getApprovalEngine settings expiryHours) a i t D' ↔
        Unobstructed D r (amountIn held r) t) := by
  have hasked := refundsAsked_of_history hstart h
  obtain ⟨r, r', hrequested⟩ := requestApproval_atTime hrun
  obtain ⟨hproposed, hanswers, hwaiting⟩ := hrequested.waiting a rfl
  have hid : r.id = i := Table.key_of_get hrequested.found
  have hid' : r'.id = i := Table.key_of_get hrequested.after
  subst hid
  refine ⟨r, hrequested.found, ?_⟩
  have hget' : D'.refunds.get r'.id = some r' := by
    rw [hid']
    exact hrequested.after
  -- the request leaves the amount of the refund alone
  have hamount : r'.amount = r.amount := by
    obtain ⟨r'', hr'', hclaim⟩ := hrequested.same.after hrequested.found
    obtain rfl := Option.some.inj (hrequested.after.symm.trans hr'')
    have hamount : r'.claim.amount = r.claim.amount := congrArg Refund.amount hclaim
    exact hamount
  -- once the approval is on record, three things decide whether it can be given
  have hiff : ∀ {amount : Decimal}, D'.approvals.get a.id = some a → Asks a amount →
      (CanBeApproved (getApprovalEngine settings expiryHours) a r.id t D' ↔
        a.status = .pending ∧ ApprovalEngine.isExpired a t = false ∧ amount.value = r.amount) := by
    intro amount ha hasks
    rw [← hamount, ← hid']
    exact canBeApproved_iff ha hget' hproposed hanswers.resourceType
      (hanswers.resourceId.trans hid'.symm) hasks
  rcases hwaiting with ⟨ha, happrovals⟩ | ⟨hnone, hpending, hexpires, hasks, hconflicts, happrovals⟩
  · -- an old approval answers the request, and no other does
    have hcur : D'.approvals.get a.id = some a := by
      rw [happrovals]
      exact Table.get_of_mem ha
    obtain ⟨amount, hasks⟩ := hasked a.id a (Table.get_of_mem ha) hanswers.resourceType
    have hpayload : a.requestedPayload = requestedAction r.id amount := by
      rw [← hanswers.resourceId]
      exact hasks.requestedPayload
    rw [hiff hcur hasks]
    constructor
    · rintro ⟨hpending, hlive, hvalue⟩
      refine ⟨fun b hb hb' => ?_, fun hnone => absurd hanswers (hnone a ha)⟩
      have heq : b = a := by
        refine Table.eq_of_unique_mem _ hb ha List.mem_cons_self ?_
        have htype : b.resourceType = a.resourceType :=
          hb'.resourceType.trans hanswers.resourceType.symm
        have hresource : b.resourceId = a.resourceId :=
          hb'.resourceId.trans hanswers.resourceId.symm
        have hhash : b.actionHash = a.actionHash :=
          hb'.actionHash.trans hanswers.actionHash.symm
        rw [htype, hresource, hhash]
        exact List.mem_cons_self
      rw [heq]
      exact ⟨hpending, hlive, amount, hpayload, hvalue⟩
    · intro hfree
      obtain ⟨hpending, hlive, asked, hpayload', hvalue⟩ := hfree.stored a ha hanswers
      -- the approval tells in its payload for which amount it asks
      have hsame : amount = asked := by
        have heq := hpayload.symm.trans hpayload'
        simpa [requestedAction] using heq
      rw [hsame]
      exact ⟨hpending, hlive, hvalue⟩
  · -- a new approval expires later than now
    have hcur : D'.approvals.get a.id = some a := by
      rw [happrovals]
      exact (Table.get_insert hconflicts _).trans (if_pos rfl)
    have hlive : ApprovalEngine.isExpired a t = false := by
      have hpositive : 0 < hours expiryHours := by
        show 0 < expiryHours * 3600 * 1000000
        omega
      have hlater : t < t + hours expiryHours := lt_add_of_pos_right t hpositive
      rw [ApprovalEngine.isExpired, hexpires]
      exact decide_eq_false (not_le.mpr hlater)
    rw [hiff hcur hasks]
    constructor
    · rintro ⟨-, -, hvalue⟩
      exact ⟨fun b hb hb' => absurd hb' (hnone b hb), fun _ => hvalue⟩
    · intro hfree
      exact ⟨hpending, hlive, hfree.fresh hnone⟩

end RefundService

end Histories

/-! ### A refund of 500 above the threshold of 100 -/

section Sample

/-- Settings under which refunds above 100 need an approval. -/
def refundSettings : ApprovalSettings where
  significantPriceChangePercent := 10
  refundApprovalThreshold := 100

/-- A database in which one refund is proposed. -/
def refundDb : Db where
  table
    | .refunds => .singleton
        { id := Uuid.ofNat 1, version := 1, orderId := Uuid.ofNat 2, approvalId := none
          marketplace := "amazon", marketplaceAccountId := "main", externalRefundId := none
          amount := 500, currency := "EUR", status := .proposed }
    | _ => ∅

/-- The service's engine with an expiry of 72 hours. -/
def refundEngine : ApprovalEngine := getApprovalEngine refundSettings 72

/-- The amount as the session that made the refund has it, and as any other loads it. -/
def fiveHundred : Decimal := ⟨false, 500, 0⟩

example : fiveHundred.str = "500" ∧ (Decimal.ofMoney 500).str = "500.0000" := by decide +kernel

/-- The request for its approval, made at time `t`. -/
def askAt (held : Option Decimal) (t : Instant) : Tx (Option Approval) :=
  (@RefundService.requestApproval Digests.plain refundEngine (Uuid.ofNat 1) held "support"
    "damaged").atTime t

/-- The state after the approval was asked for at the start, and some sweeps. -/
def swept (held : Option Decimal) (times : List Instant) : Db :=
  afterCalls (@RefundCall.run Digests.plain refundEngine) Environment.numbered 0
    (.requestApproval (Uuid.ofNat 1) held "support" "damaged" 0 :: times.map .expireDue) refundDb

/-- That state is reached by a history of the calls. -/
theorem swept_history (held : Option Decimal) (times : List Instant) :
    @RefundHistory Digests.plain refundSettings 72 refundDb (swept held times) := by
  have hsweeps : ∀ (times : List Instant) (k : Nat) (D : Db),
      @RefundHistory Digests.plain refundSettings 72 refundDb D →
        @RefundHistory Digests.plain refundSettings 72 refundDb
          (afterCalls (@RefundCall.run Digests.plain refundEngine) Environment.numbered k
            (times.map .expireDue) D) := by
    intro times
    induction times with
    | nil => exact fun k D h => h
    | cons t times ih => exact fun k D h => ih (k + 1) _ (h.afterCall _ trivial)
  exact hsweeps times 1 _ (History.start.afterCall _ trivial)

/-- The approval asked for by the session that made the refund has expired.  A session that loads
    the refund writes the amount in another way, gets an approval of its own, and it can be
    given. -/
theorem requested_approval_law_sample :
    ∃ a D', (askAt none (hours 100)).runs (swept (some fiveHundred) [hours 80]) (.ok (some a, D')) ∧
      RefundService.CanBeApproved refundEngine a (Uuid.ofNat 1) (hours 100) D' := by
  have hasked : ((returned (Environment.numbered 9) (askAt none (hours 100))
      (swept (some fiveHundred) [hours 80])).any (·.isSome)) = true := by
    decide +kernel
  obtain ⟨approval, hreturned, hsome⟩ := (Option.any_eq_true _ _).mp hasked
  obtain ⟨a, rfl⟩ := Option.isSome_iff_exists.mp hsome
  obtain ⟨D', hrun⟩ := runs_of_returned hreturned
  refine ⟨a, D', hrun, ?_⟩
  obtain ⟨r, hr, hiff⟩ := @RefundService.requested_approval_law Digests.plain refundSettings 72
    refundDb _ D' (by decide) (fun b hb => absurd hb List.not_mem_nil)
    (swept_history (some fiveHundred) [hours 80]) _ none _ _ _ a hrun
  have hrefund : (Db.refunds (swept (some fiveHundred) [hours 80])).get (Uuid.ofNat 1) |>.any
      fun r => r.id = Uuid.ofNat 1 ∧ r.amount = 500 := by
    decide +kernel
  rw [hr] at hrefund
  simp only [Option.any_some, decide_eq_true_eq] at hrefund
  obtain ⟨hid, hamount⟩ := hrefund
  refine hiff.mpr (@RefundService.Unobstructed.mk Digests.plain _ _ _ _
    (fun b hb hanswers => ?_) fun _ => ?_)
  · -- the one stored has another hash
    have hstored : ∀ b ∈ (swept (some fiveHundred) [hours 80]).approvals.rows,
        b.actionHash ≠ @ApprovalEngine.actionHash Digests.plain "refund" (Uuid.ofNat 1)
          (RefundService.requestedAction (Uuid.ofNat 1) (.ofMoney 500)) := by
      decide +kernel
    refine absurd (@RefundService.Answers.actionHash Digests.plain _ _ _ hanswers) ?_
    rw [hid, RefundService.amountIn, Option.getD_none, hamount]
    exact hstored b hb
  · rw [RefundService.amountIn, Option.getD_none, hamount]
    decide +kernel

/-- Asked for again after the sweep by another session that loads it, the refund gets its expired
    approval back. -/
theorem requested_approval_expired :
    ∃ D a D', @RefundHistory Digests.plain refundSettings 72 refundDb D ∧
      (askAt none (hours 100)).runs D (.ok (some a, D')) ∧ a.status = .expired ∧
        ¬RefundService.CanBeApproved refundEngine a (Uuid.ofNat 1) (hours 100) D' := by
  have hasked : ((returned (Environment.numbered 9) (askAt none (hours 100))
      (swept none [hours 80])).any
        fun approval => approval.any fun a : Approval => a.status = .expired) = true := by
    decide +kernel
  obtain ⟨approval, hreturned, hsome⟩ := (Option.any_eq_true _ _).mp hasked
  obtain ⟨a, rfl, hexpired⟩ := (Option.any_eq_true _ _).mp hsome
  obtain ⟨D', hrun⟩ := runs_of_returned hreturned
  have hstatus : a.status = .expired := by simpa using hexpired
  refine ⟨_, a, D', swept_history none [hours 80], hrun, hstatus, fun h => ?_⟩
  exact absurd (hstatus.symm.trans h.pending) (by decide)

end Sample

end CommerceOperations
