/-
  Refunds against the total of their order.

  Each refund is approved on its own: by the policy when it is small, by a person otherwise.  The
  sum of what is approved is looked at only when a return is reconciled.  So the refunds of an
  order stay within its total as long as each refund finds room for its amount when it is approved
  (`RefundCall.HasRoom`), and two small refunds show that nothing else keeps them there.

  The sum moves at two places only, the automatic approval in `request_approval` and the handler of
  an approval that is given, and there by the amount of one refund (`Approves`).  Everything else
  leaves it as it is (`SameTotals`), the total of the order included.
-/
import CommerceOperations.Application.OrderRecords
import CommerceOperations.Application.RefundApprovals

namespace CommerceOperations

open Relational Prog

/-- What a refund counts for an order. -/
def Refund.counted (orderId : Uuid) (r : Refund) : Rat :=
  if r.orderId = orderId ∧ r.status.counts then r.amount else 0

/-- The sum refunded for an order. -/
def Db.refunded (orderId : Uuid) (D : Db) : Rat :=
  AutonomousOrchestrator.refunded (D.refunds.rows.filter fun r => r.orderId = orderId)

/-- The sum of the refunds that count, taken over all rows. -/
theorem refunded_eq_sum (orderId : Uuid) (D : Db) :
    D.refunded orderId = (D.refunds.rows.map (Refund.counted orderId)).sum := by
  unfold Db.refunded AutonomousOrchestrator.refunded
  generalize D.refunds.rows = rows
  induction rows with
  | nil => rfl
  | cons r rows ih =>
    rw [List.map_cons, List.sum_cons, ← ih, Refund.counted]
    by_cases ho : r.orderId = orderId
    · cases hs : r.status.counts with
      | true => simp [ho, hs]
      | false => simp [ho, hs]
    · simp [ho]

/-- The orders, and the sum refunded for one of them, are as before. -/
def SameTotals (orderId : Uuid) (D D' : Db) : Prop :=
  D'.orders = D.orders ∧ D'.refunded orderId = D.refunded orderId

section Totals

variable {orderId : Uuid} {D D' : Db}

instance : Std.Refl (SameTotals orderId) := ⟨fun _ => ⟨rfl, rfl⟩⟩

instance : IsTrans Db (SameTotals orderId) :=
  ⟨fun _ _ _ h h' => ⟨h'.1.trans h.1, h'.2.trans h.2⟩⟩

/-- The sum refunded for an order is read off the refunds alone. -/
theorem refunded_of_refunds (h : D'.refunds = D.refunds) :
    D'.refunded orderId = D.refunded orderId := by
  rw [Db.refunded, h]
  rfl

/-- What writes neither orders nor refunds leaves the sum. -/
theorem sameTotals_of_confined {α : Type} {p : Tx α} {tables : List TableName}
    (h : p.confined tables) (horders : TableName.orders ∉ tables)
    (hrefunds : TableName.refunds ∉ tables) : p.keeps (SameTotals orderId) :=
  keeps_of_confined h fun _ _ hD =>
    ⟨hD .orders horders, refunded_of_refunds (hD .refunds hrefunds)⟩

variable (orderId) in
/-- Writing a refund that is current moves the sum by what it counts. -/
theorem flushRefund_refunded {r new row : Refund} (hcur : D.refunds.get r.id = some r)
    (hid : new.id = r.id) (h : (flush .refunds r new).runs D (.ok (row, D'))) :
    D'.orders = D.orders ∧
      D'.refunded orderId = D.refunded orderId - r.counted orderId + new.counted orderId := by
  refine ⟨Tx.table_of_spares (i := .orders) (Tx.spares_flush _ _ (by decide)) h, ?_⟩
  rcases runs_flush (by exact hid) (by rfl) hcur h with ⟨rfl, -, rfl⟩ | ⟨-, hrow, hs, hc, hD⟩
  · rw [sub_add_cancel]
  · have htable : D'.refunds = D.refunds.update r row := by
      rw [hD]
      exact Database.apply_table_self ..
    have hkey : row.id = r.id := by
      rw [hrow]
      exact hid
    have hcounted : row.counted orderId = new.counted orderId := by
      rw [hrow]
      rfl
    have hrows : D'.refunds.rows = D.refunds.rows.map (Table.replaced row) := by
      rw [htable]
      exact Table.rows_update hs hc
    rw [refunded_eq_sum, refunded_eq_sum, hrows, ← hcounted]
    exact Table.sum_map_replaced (Refund.counted orderId) hkey.symm _ D.refunds.distinct
      (Table.mem_of_get hcur)

/-! ## What a call does to the sum -/

/-- The refund `r`, proposed so far, is approved: the sum grows by its amount. -/
structure Approves (orderId : Uuid) (r : Refund) (D D' : Db) : Prop where
  /-- it has not been decided -/
  proposed : r.status = .proposed
  /-- the orders stay -/
  orders : D'.orders = D.orders
  /-- and the sum grows by the amount -/
  refunded : D'.refunded orderId =
    D.refunded orderId + if r.orderId = orderId then r.amount else 0

/-- What comes before the approval may be anything that leaves the sum. -/
theorem Approves.before {r : Refund} {D₁ : Db} (h₁ : SameTotals orderId D D₁)
    (h : Approves orderId r D₁ D') : Approves orderId r D D' :=
  ⟨h.proposed, h.orders.trans h₁.1, by rw [h.refunded, h₁.2]⟩

/-- What follows the approval may be anything that leaves the sum. -/
theorem Approves.after {r : Refund} {D₁ : Db} (h : Approves orderId r D D₁)
    (h₁ : SameTotals orderId D₁ D') : Approves orderId r D D' :=
  ⟨h.proposed, h₁.1.trans h.orders, by rw [h₁.2, h.refunded]⟩

/-- The status APPROVED, written to a proposed refund, makes it count. -/
theorem flushApproved {r row : Refund} (hproposed : r.status = .proposed)
    (hcur : D.refunds.get r.id = some r)
    (h : (flush .refunds r { r with status := .approved }).runs D (.ok (row, D'))) :
    Approves orderId r D D' := by
  obtain ⟨horders, hsum⟩ := flushRefund_refunded orderId hcur (by rfl) h
  refine ⟨hproposed, horders, ?_⟩
  rw [hsum]
  simp [Refund.counted, RefundStatus.counts, hproposed]

/-- An audit entry leaves the sum. -/
theorem addAudit_sameTotals {actorType actorId action resourceType : String} {resourceId : Uuid}
    {beforeState afterState : Option Json} {reason : Option String} {correlationId : Uuid} :
    (addAudit actorType actorId action resourceType resourceId beforeState afterState reason
      correlationId).keeps (SameTotals orderId) :=
  sameTotals_of_confined addAudit_confined (by decide) (by decide)

/-- Writing an approval leaves the sum. -/
theorem flushApproval_sameTotals (a new : Approval) :
    (flush .approvals a new).keeps (SameTotals orderId) := by
  have hconfined : (flush .approvals a new).confined [.approvals] :=
    Tx.confined_flush _ _ (by decide)
  exact sameTotals_of_confined hconfined (by decide) (by decide)

namespace RefundService

variable (orderId) in
/-- The handler approves the refund of its approval. -/
theorem approveRefund_approves {a : Approval} {u : Unit}
    (h : (approveRefund a).runs D (.ok (u, D'))) :
    ∃ r, D.refunds.get a.resourceId = some r ∧ Approves orderId r D D' := by
  obtain ⟨found, D₁, hselect, h₁⟩ := runs_bind_ok.mp h
  obtain ⟨hfound, rfl⟩ := Tx.runs_select.mp hselect
  obtain ⟨r, D₂, hthrow, h₂⟩ := runs_bind_ok.mp h₁
  obtain ⟨hr, rfl⟩ := Tx.runs_orThrow.mp hthrow
  obtain ⟨_, D₃, hrequire₃, h₃⟩ := runs_bind_ok.mp h₂
  obtain ⟨hproposed, rfl⟩ := Tx.runs_require.mp hrequire₃
  obtain ⟨_, D₄, hrequire₄, h₄⟩ := runs_bind_ok.mp h₃
  obtain ⟨-, rfl⟩ := Tx.runs_require.mp hrequire₄
  obtain ⟨amount, D₅, hdecimal, h₅⟩ := runs_bind_ok.mp h₄
  obtain rfl := toDecimal_runs hdecimal
  obtain ⟨_, D₆, hrequire₆, h₆⟩ := runs_bind_ok.mp h₅
  obtain ⟨-, rfl⟩ := Tx.runs_require.mp hrequire₆
  obtain ⟨row, D₇, hflush, haudit⟩ := runs_bind_ok.mp h₆
  have hget : D.refunds.get a.resourceId = some r := by
    rw [← hfound]
    exact (Option.filter_eq_some_iff.mp hr).1
  have hcur : D.refunds.get r.id = some r := Table.get_of_mem (Table.mem_of_get hget)
  exact ⟨r, hget, (flushApproved hproposed hcur hflush).after (addAudit_sameTotals _ _ _ haudit)⟩

variable [Digests] {engine : ApprovalEngine} {i : Uuid} {held : Option Decimal}
variable {requester reason : String}

/-- What the policy is asked about a refund, by a session that has its amount as told. -/
def context (held : Option Decimal) (r : Refund) : ApprovalContext where
  actionType := .refund
  amount := some (amountIn held r).value
  priceChangePercent := none
  isFirstPublication := false
  riskLevel := "normal"

variable (orderId) in
/-- A request approves the refund on the spot, or leaves the sum as it is. -/
theorem requestApproval_totals {approval : Option Approval}
    (h : (requestApproval engine i held requester reason).runs D (.ok (approval, D'))) :
    SameTotals orderId D D' ∨ ∃ r, D.refunds.get i = some r ∧
      engine.policy.evaluate (context held r) = none ∧ Approves orderId r D D' := by
  obtain ⟨found, D₁, hselect, h₁⟩ := runs_bind_ok.mp h
  obtain ⟨hfound, rfl⟩ := Tx.runs_select.mp hselect
  obtain ⟨r, D₂, hthrow, h₂⟩ := runs_bind_ok.mp h₁
  obtain ⟨hr, rfl⟩ := Tx.runs_orThrow.mp hthrow
  obtain ⟨hget, hproposed⟩ := Option.filter_eq_some_iff.mp hr
  rw [hfound] at hget
  simp only [decide_eq_true_eq] at hproposed
  have hcur : D.refunds.get r.id = some r := Table.get_of_mem (Table.mem_of_get hget)
  obtain ⟨result, D₃, hrequest, h₃⟩ := runs_bind_ok.mp h₂
  unfold ApprovalEngine.requestIfRequired at hrequest
  split at hrequest
  · rename_i hpolicy
    cases hrequest
    obtain ⟨row, D₄, hflush, h₄⟩ := runs_bind_ok.mp h₃
    obtain ⟨_, D₅, haudit, h₅⟩ := runs_bind_ok.mp h₄
    cases h₅
    exact Or.inr ⟨r, hget, hpolicy,
      (flushApproved hproposed hcur hflush).after (addAudit_sameTotals _ _ _ haudit)⟩
  · obtain ⟨a, D₄, hcreate, h₄⟩ := runs_bind_ok.mp hrequest
    cases h₄
    obtain ⟨row, D₅, hflush, h₅⟩ := runs_bind_ok.mp h₃
    cases h₅
    have hsame : SameTotals orderId D D₃ :=
      sameTotals_of_confined ApprovalEngine.createRequest_confined (by decide) (by decide) _ _ _
        hcreate
    have hrefunds : Db.refunds D₃ = D.refunds :=
      sameOff_of_runs ApprovalEngine.createRequest_confined hcreate .refunds (by decide)
    have hcur₃ : (Db.refunds D₃).get r.id = some r := by
      rw [hrefunds]
      exact hcur
    obtain ⟨horders, hsum⟩ := flushRefund_refunded orderId hcur₃ (by rfl) hflush
    refine Or.inl (IsTrans.trans _ _ _ hsame ⟨horders, ?_⟩)
    rw [hsum]
    exact sub_add_cancel _ _

end RefundService

namespace ApprovalEngine

variable {a b : Approval} {actor reason : String} {now : Instant}

/-- An approval that expires leaves the sum. -/
theorem expire_sameTotals : (expire a now actor).keeps (SameTotals orderId) :=
  keeps_bind (flushApproval_sameTotals _ _) fun _ =>
    keeps_bind addAudit_sameTotals fun _ => keeps_done _

/-- Loading an approval leaves it. -/
theorem getForUpdate_sameTotals {i : Uuid} : (getForUpdate i).keeps (SameTotals orderId) :=
  keeps_bind (keeps_selectForUpdate _) fun _ => keeps_orThrow _ _ _

/-- An approval that is rejected leaves the sum. -/
theorem reject_sameTotals {i : Uuid} : (reject i actor reason now).keeps (SameTotals orderId) := by
  refine keeps_bind getForUpdate_sameTotals fun approval => ?_
  refine keeps_bind (keeps_require _ _ _) fun _ => ?_
  split
  · exact keeps_bind expire_sameTotals fun _ => keeps_done _
  · exact keeps_bind (flushApproval_sameTotals _ _) fun _ =>
      keeps_bind addAudit_sameTotals fun _ => keeps_done _

/-- A sweep leaves the sum, by induction on the approvals that are due. -/
theorem expireDue_sameTotals : (expireDue now).keeps (SameTotals orderId) := by
  have hall : ∀ approvals, (expireAll now approvals).keeps (SameTotals orderId) := by
    intro approvals
    induction approvals with
    | nil => exact keeps_done _
    | cons approval approvals ih => exact keeps_bind expire_sameTotals fun _ => ih
  refine keeps_bind ?_ fun approvals => keeps_bind (hall approvals) fun _ => keeps_done _
  intro D approvals D' h
  obtain ⟨-, rfl⟩ := runs_selectAllForUpdate.mp h
  exact Std.Refl.refl D

variable (orderId) in
/-- Approving approves the refund of the approval, or only marks the approval expired. -/
theorem approve_totals {settings : ApprovalSettings} {expiryHours : Int} {i : Uuid}
    {outcome : ApprovalOutcome} (hasked : RefundsAsked D)
    (hrefund : ∀ a, D.approvals.get i = some a → a.resourceType = "refund")
    (h : ((getApprovalEngine settings expiryHours).approve i actor reason now).runs D
      (.ok (outcome, D'))) :
    SameTotals orderId D D' ∨ ∃ a r, D.approvals.get i = some a ∧ a.status = .pending ∧
      isExpired a now = false ∧ D.refunds.get a.resourceId = some r ∧ Approves orderId r D D' := by
  obtain ⟨a, hcur, rfl, hpending, h₁⟩ := getPending_runs h
  split at h₁
  · obtain ⟨b, D₁, hexpire, h₂⟩ := runs_bind_ok.mp h₁
    cases h₂
    exact Or.inl (expire_sameTotals _ _ _ hexpire)
  · rename_i hlive
    obtain ⟨approved, D₁, hflush, h₂⟩ := runs_bind_ok.mp h₁
    obtain ⟨resumed, D₂, hresume, h₃⟩ := runs_bind_ok.mp h₂
    obtain ⟨_, D₃, haudit, h₄⟩ := runs_bind_ok.mp h₃
    cases h₄
    obtain ⟨_, hasks⟩ := hasked a.id a hcur (hrefund a hcur)
    obtain ⟨⟨v, rfl⟩, -, -⟩ := flushApproval_runs (by rfl) hcur hflush
    have hrefunds : Db.refunds D₁ = D.refunds :=
      Tx.table_of_spares (i := .refunds) (Tx.spares_flush _ _ (by decide)) hflush
    unfold resumeAction at hresume
    have hregistry : (getApprovalEngine settings expiryHours).actionRegistry a.actionType =
        some RefundService.approveRefund := by
      rw [hasks.actionType]
      rfl
    simp only [hregistry, hasks.workflowRunId] at hresume
    obtain ⟨u, D₄, hhandler, hmark⟩ := runs_bind_ok.mp hresume
    obtain ⟨r, hr, happroves⟩ := RefundService.approveRefund_approves orderId hhandler
    refine Or.inr ⟨a, r, hcur, hpending, by simpa using hlive, ?_, ?_⟩
    · rw [← hrefunds]
      exact hr
    · exact (happroves.before (flushApproval_sameTotals _ _ _ _ _ hflush)).after
        (IsTrans.trans _ _ _ (flushApproval_sameTotals _ _ _ _ _ hmark)
          (addAudit_sameTotals _ _ _ haudit))

end ApprovalEngine

end Totals

/-! ## Room for a refund -/

/-- The call approves the refund `r` of the state it finds, if it goes through. -/
def RefundCall.Approving (engine : ApprovalEngine) (r : Refund) : RefundCall → Db → Prop
  | requestApproval refundId held _ _ _, D => D.refunds.get refundId = some r ∧
      r.status = .proposed ∧ engine.policy.evaluate (RefundService.context held r) = none
  | approve approvalId _ _ now, D => ∃ a, D.approvals.get approvalId = some a ∧
      a.status = .pending ∧ ApprovalEngine.isExpired a now = false ∧
        D.refunds.get a.resourceId = some r ∧ r.status = .proposed
  | _, _ => False

/-- A refund of the order that the call approves fits in what is left of the order's total. -/
def RefundCall.HasRoom (engine : ApprovalEngine) (orderId : Uuid) (c : RefundCall)
    (D : Db) : Prop :=
  ∀ r o, c.Approving engine r D → r.orderId = orderId → D.orders.get orderId = some o →
    D.refunded orderId + r.amount ≤ o.totalAmount

/-- The refunds of the order stay within its total. -/
def RefundsCovered (orderId : Uuid) (D : Db) : Prop :=
  ∀ o, D.orders.get orderId = some o → D.refunded orderId ≤ o.totalAmount

/-- What happens to refunds and to orders: calls about approvals, and calls on the warehouse with
    the return reconciliations among them. -/
inductive SettlementCall where
  | refund (c : RefundCall)
  | stock (c : StockCall)

section Histories

variable [Digests] {settings : ApprovalSettings} {expiryHours : Int}
variable {policy : WorkflowExecutionPolicy} {orderId : Uuid} {D₀ D D' : Db}

/-- The call as a transaction, that of the refund service or of the warehouse. -/
def SettlementCall.run (engine : ApprovalEngine) (policy : WorkflowExecutionPolicy) :
    SettlementCall → Tx Unit
  | refund c => c.run engine
  | stock c => c.run policy

omit [Digests] in
/-- Approvals are those of refunds, and each refund finds room when it is approved. -/
def SettlementCall.Roomy (engine : ApprovalEngine) (orderId : Uuid) : SettlementCall → Db → Prop
  | refund c, D => c.ForRefund D ∧ c.HasRoom engine orderId D
  | stock _, _ => True

variable (orderId) in
/-- **A call about approvals** leaves the sum as it is, or approves one refund. -/
theorem RefundCall.run_totals {c : RefundCall} {u : Unit} (hasked : RefundsAsked D)
    (hc : c.ForRefund D)
    (h : (c.run (getApprovalEngine settings expiryHours)).runs D (.ok (u, D'))) :
    SameTotals orderId D D' ∨ ∃ r, c.Approving (getApprovalEngine settings expiryHours) r D ∧
      Approves orderId r D D' := by
  cases c with
  | requestApproval refundId held requester reason now =>
    obtain ⟨approval, D₁, hrequest, h₁⟩ := runs_bind_ok.mp h
    cases h₁
    rcases RefundService.requestApproval_totals orderId (runs_of_under hrequest) with
      hsame | ⟨r, hr, hpolicy, happroves⟩
    · exact Or.inl hsame
    · exact Or.inr ⟨r, ⟨hr, happroves.proposed, hpolicy⟩, happroves⟩
  | approve approvalId approver reason now =>
    obtain ⟨outcome, D₁, happrove, h₁⟩ := runs_bind_ok.mp h
    cases h₁
    rcases ApprovalEngine.approve_totals orderId hasked hc happrove with
      hsame | ⟨a, r, ha, hpending, hlive, hr, happroves⟩
    · exact Or.inl hsame
    · exact Or.inr ⟨r, ⟨a, ha, hpending, hlive, hr, happroves.proposed⟩, happroves⟩
  | reject approvalId approver reason now =>
    exact Or.inl (keeps_bind ApprovalEngine.reject_sameTotals (fun _ => keeps_done ()) _ _ _ h)
  | expireDue now =>
    exact Or.inl (keeps_bind ApprovalEngine.expireDue_sameTotals (fun _ => keeps_done ()) _ _ _ h)

/-- What the invariant says: approvals ask for their refunds, and the order's total holds. -/
structure Covered (orderId : Uuid) (total : Rat) (D : Db) : Prop where
  /-- each approval of a refund was asked for by it -/
  asked : RefundsAsked D
  /-- the order is on record, with its total -/
  order : ∃ o, D.orders.get orderId = some o ∧ o.totalAmount = total
  /-- and what is refunded is within that -/
  covered : D.refunded orderId ≤ total

/-- **Step lemma for refunds.**  A call that approves none leaves the sum; one that does finds room.
    -/
theorem Covered.refund {total : Rat} {c : RefundCall} {u : Unit} (hD : Covered orderId total D)
    (hc : c.ForRefund D) (hroom : c.HasRoom (getApprovalEngine settings expiryHours) orderId D)
    (h : (c.run (getApprovalEngine settings expiryHours)).runs D (.ok (u, D'))) :
    Covered orderId total D' := by
  obtain ⟨o, ho, htotal⟩ := hD.order
  have hasked := RefundCall.run_refundsAsked hD.asked hc h
  rcases RefundCall.run_totals orderId hD.asked hc h with
    ⟨horders, hsum⟩ | ⟨r, happroving, happroves⟩
  · refine ⟨hasked, ⟨o, ?_, htotal⟩, ?_⟩
    · rw [horders]
      exact ho
    · rw [hsum]
      exact hD.covered
  · refine ⟨hasked, ⟨o, ?_, htotal⟩, ?_⟩
    · rw [happroves.orders]
      exact ho
    · rw [happroves.refunded]
      split
      · -- the refund found room
        rename_i horder
        rw [← htotal]
        exact hroom r o happroving horder ho
      · rw [add_zero]
        exact hD.covered

/-- **Step lemma for orders and returns.**  These write no refund and no approval, and an order
    keeps its total. -/
theorem Covered.stock {total : Rat} {c : StockCall} {u : Unit} (hD : Covered orderId total D)
    (h : (c.run policy).runs D (.ok (u, D'))) : Covered orderId total D' := by
  have hrefunds : D'.refunds = D.refunds :=
    StockCall.run_sameTable (i := .refunds) (by decide) policy c _ _ _ h
  have happrovals : D'.approvals = D.approvals :=
    StockCall.run_sameTable (i := .approvals) (by decide) policy c _ _ _ h
  obtain ⟨o, ho, htotal⟩ := hD.order
  -- an order keeps its id and its total
  have hkept : Database.Kept TableName.orders (fun o : Order => (o.id, o.totalAmount)) D D' :=
    StockCall.run_ordersKept (fun _ _ _ _ => rfl) policy c _ _ _ h
  obtain ⟨o', ho', heq⟩ := hkept o (Table.mem_of_get ho)
  obtain ⟨hid, htotal'⟩ := Prod.mk.inj heq
  refine ⟨?_, ⟨o', ?_, htotal'.trans htotal⟩, ?_⟩
  · exact hD.asked.same ⟨Database.SameRows.of_table happrovals, Database.SameRows.of_table hrefunds⟩
  · rw [← Table.key_of_get ho]
    show D'.orders.get o.id = some o'
    rw [← hid]
    exact Table.get_of_mem ho'
  · rw [refunded_of_refunds hrefunds]
    exact hD.covered

/-- **Refunds stay within the order while each finds room.**  An order's refunds are all proposed
    at the start; then approvals are requested, given, refused and swept, orders move and returns
    are reconciled.  If every refund of the order that a call approves fits in what is left of its
    total, the sum refunded never exceeds the total. -/
theorem refunds_covered_while_room {o : Order} (ho : D₀.orders.get orderId = some o)
    (htotal : 0 ≤ o.totalAmount)
    (hproposed : ∀ r ∈ D₀.refunds, r.orderId = orderId → r.status = .proposed)
    (hstart : ∀ a ∈ D₀.approvals, a.resourceType ≠ "refund")
    (h : History (SettlementCall.run (getApprovalEngine settings expiryHours) policy)
      (SettlementCall.Roomy (getApprovalEngine settings expiryHours) orderId) D₀ D) :
    RefundsCovered orderId D ∧
      ∃ o', D.orders.get orderId = some o' ∧ o'.totalAmount = o.totalAmount := by
  have hcovered : Covered orderId o.totalAmount D := by
    refine h.inv (P := Covered orderId o.totalAmount) ?_ ?_
    · refine ⟨fun k a ha htype => absurd htype (hstart a (Table.mem_of_get ha)), ⟨o, ho, rfl⟩, ?_⟩
      have hzero : D₀.refunded orderId = 0 := by
        rw [refunded_eq_sum]
        refine List.sum_eq_zero fun x hx => ?_
        obtain ⟨r, hr, rfl⟩ := List.mem_map.mp hx
        unfold Refund.counted
        split
        · rename_i hcounts
          rw [hproposed r hr hcounts.1] at hcounts
          exact absurd hcounts.2 (by decide)
        · rfl
      rw [hzero]
      exact htotal
    · intro c D u D' hD hc hrun
      cases c with
      | refund c => exact hD.refund hc.1 hc.2 hrun
      | stock c => exact hD.stock hrun
  obtain ⟨o', ho', htotal'⟩ := hcovered.order
  refine ⟨fun o'' ho'' => ?_, o', ho', htotal'⟩
  obtain rfl := Option.some.inj (ho'.symm.trans ho'')
  rw [htotal']
  exact hcovered.covered

end Histories

/-! ### Two refunds of 60 on an order of 100 -/

section Sample

/-- An order of 100 was delivered, and two refunds are proposed. -/
def overdrawnDb : Db where
  table
    | .orders => .singleton
        { id := Uuid.ofNat 2, version := 1, workflowRunId := none, marketplace := "amazon"
          marketplaceAccountId := "main", externalOrderId := "o-1", sourceEventId := "e-1"
          sourcePayloadHash := "digest", status := .delivered, currency := "EUR", totalAmount := 100
          customerReference := none, shippingDetails := .object [], orderedAt := 0, paidAt := some 0
          dispatchedAt := some 0, deliveredAt := some 0 }
    | .refunds => (Table.singleton (proposedRefund 3)).insert (proposedRefund 4)
    | _ => ∅
where
  proposedRefund (n : Nat) : Refund :=
    { id := Uuid.ofNat n, version := 1, orderId := Uuid.ofNat 2, approvalId := none
      marketplace := "amazon", marketplaceAccountId := "main", externalRefundId := none
      amount := 60, currency := "EUR", status := .proposed }

/-- A refund asks for its approval, which the policy grants up to 100. -/
def automaticRefund (n : Nat) : SettlementCall :=
  .refund (.requestApproval (Uuid.ofNat n) none "support" "damaged" 0)

/-- The state after some refunds asked. -/
def afterRefunds (ns : List Nat) : Db :=
  afterCalls (@SettlementCall.run Digests.byEnding refundEngine samplePolicy) Environment.numbered 0
    (ns.map automaticRefund) overdrawnDb

/-- One of them is within the total. -/
theorem refunds_covered_while_room_sample : RefundsCovered (Uuid.ofNat 2) (afterRefunds [3]) := by
  have hroom : (automaticRefund 3).Roomy refundEngine (Uuid.ofNat 2) overdrawnDb := by
    refine ⟨trivial, fun r o happroving _ ho => ?_⟩
    have hamount : (overdrawnDb.refunds.get (Uuid.ofNat 3)).map (·.amount) = some 60 := by
      decide
    have htotal : (overdrawnDb.orders.get (Uuid.ofNat 2)).map (·.totalAmount) = some 100 := by
      decide
    have hnone : overdrawnDb.refunded (Uuid.ofNat 2) = 0 := by decide
    rw [happroving.1] at hamount
    rw [ho] at htotal
    have hr : r.amount = 60 := Option.some.inj hamount
    have hto : o.totalAmount = 100 := Option.some.inj htotal
    rw [hnone, hr, hto]
    norm_num
  obtain ⟨o, ho⟩ := Option.isSome_iff_exists.mp
    (show (overdrawnDb.orders.get (Uuid.ofNat 2)).isSome = true by decide)
  have htotal : (overdrawnDb.orders.get (Uuid.ofNat 2)).all (0 ≤ ·.totalAmount) = true := by
    decide
  rw [ho] at htotal
  have hproposed : ∀ r ∈ overdrawnDb.refunds.rows, r.status = .proposed := by decide
  exact (@refunds_covered_while_room Digests.byEnding refundSettings 72 samplePolicy _ overdrawnDb _
    o ho (by simpa using htotal) (fun r hr _ => hproposed r hr)
    (fun a ha => absurd ha List.not_mem_nil) (History.start.afterCall _ hroom)).1

/-- Both of them are not: 120 is refunded on an order of 100. -/
theorem refunds_exceed_order :
    History (@SettlementCall.run Digests.byEnding refundEngine samplePolicy) (fun _ _ => True)
        overdrawnDb (afterRefunds [3, 4]) ∧
      (afterRefunds [3, 4]).refunded (Uuid.ofNat 2) = 120 ∧
        ¬RefundsCovered (Uuid.ofNat 2) (afterRefunds [3, 4]) := by
  have hrefunded : (afterRefunds [3, 4]).refunded (Uuid.ofNat 2) = 120 := by decide +kernel
  refine ⟨History.start.afterCalls _ 0 _, hrefunded, fun hcovered => ?_⟩
  have htotal : ((afterRefunds [3, 4]).orders.get (Uuid.ofNat 2)).map (·.totalAmount) =
      some 100 := by
    decide +kernel
  obtain ⟨o, ho, hto⟩ := Option.map_eq_some_iff.mp htotal
  have hle := hcovered o ho
  rw [hrefunded, hto] at hle
  exact absurd hle (by norm_num)

end Sample

end CommerceOperations
