/-
  An approval is decided once.

  Approvals, rejections and expiries reach an approval in any order and at any time, each call a
  transaction of its own.  The first that finds it pending moves it; from then on its row stays as
  it is.

  The crux is what "the action was taken" means.  It is not read off a return value but off the
  states: `Approving` splits the transaction of an approval where the engine hands over to the
  registered handler and where it takes over again, and says that what happened in between is a run
  of that handler.  `TakesAction` is this for a committed call, and the main theorem counts the
  commits that have it.
-/
import CommerceOperations.Approvals.Engine
import CommerceOperations.Relational.ReadCommitted

namespace CommerceOperations

open Relational Prog

namespace ApprovalEngine

/-! ## What a call leaves of a row -/

/-- The approval `k`, if there is one, is as before. -/
def Kept (k : Uuid) (D D' : Db) : Prop :=
  ∀ a, D.approvals.get k = some a → D'.approvals.get k = some a

namespace Kept

variable {k : Uuid} {D D' D'' : Db}

/-- Where nothing happens, an approval stays. -/
theorem refl (k : Uuid) (D : Db) : Kept k D D := fun _ h => h

/-- What stays through two calls stays through both. -/
theorem trans (h : Kept k D D') (h' : Kept k D' D'') : Kept k D D'' := fun a ha => h' a (h a ha)

/-- The table of approvals is as it was. -/
theorem of_approvals (h : D'.approvals = D.approvals) : Kept k D D' := by
  intro a ha
  rw [h]
  exact ha

/-- A transaction confined to other tables leaves approvals alone. -/
theorem of_confined {α : Type} {p : Tx α} {tables : List TableName} (hp : p.confined tables)
    (htables : TableName.approvals ∉ tables) {a : α} (hrun : p.runs D (.ok (a, D'))) :
    Kept k D D' := of_approvals (sameOff_of_runs hp hrun .approvals htables)

end Kept

/-- A handler that leaves the approvals there are alone.  The handlers of the application do: they
    move the thing that was approved, and may request new approvals. -/
def LeavesApprovals (handler : Approval → Tx Unit) : Prop :=
  ∀ a D D' u, (handler a).runs D (.ok (u, D')) → ∀ k, Kept k D D'

/-- What a decision writes in the row: `b` is `a` with a verdict.  Of the other columns those are
    named that later decisions depend on. -/
structure Verdict (a b : Approval) (status : ApprovalStatus) (actor rationale : String)
    (now : Instant) : Prop where
  /-- it is the same approval -/
  id : b.id = a.id
  /-- so it is decided about the same kind of action -/
  actionType : b.actionType = a.actionType
  /-- and its time is not changed -/
  expiresAt : b.expiresAt = a.expiresAt
  /-- this is where it was moved to -/
  status : b.status = status
  /-- by whom -/
  decidedBy : b.decidedBy = some actor
  /-- why -/
  rationale : b.rationale = some rationale
  /-- and when -/
  decidedAt : b.decidedAt = some now

section Rows

variable {a b row : Approval} {now : Instant} {actor reason : String} {D D' : Db}

/-- An approval that is current is written back with the columns it was given.  Only the version is
    the database's. -/
theorem flushApproval_runs {new : Approval} (hid : new.id = a.id)
    (hcur : D.approvals.get a.id = some a)
    (h : (flush .approvals a new).runs D (.ok (row, D'))) :
    (∃ v, row = { new with version := v }) ∧ D'.approvals.get a.id = some row ∧
      ∀ k, k ≠ a.id → Kept k D D' := by
  rcases runs_flush (by exact hid) (by rfl) hcur h with ⟨rfl, rfl, rfl⟩ | ⟨-, rfl, hs, hc, rfl⟩
  · exact ⟨⟨_, rfl⟩, hcur, fun k _ => Kept.refl k _⟩
  · refine ⟨⟨_, rfl⟩, (Table.get_update hs hc a.id).trans (if_pos hid), fun k hne v hv => ?_⟩
    refine (Table.get_update hs hc k).trans ((if_neg ?_).trans hv)
    exact fun hkey : new.id = k => hne (hkey.symm.trans hid)

/-- An audit entry changes no approval. -/
theorem audit_kept {action : String} {before : Option String} {after : String} {u : Unit}
    (h : (audit a action actor before after).runs D (.ok (u, D'))) (k : Uuid) : Kept k D D' :=
  Kept.of_confined addAudit_confined (by decide) h

/-- **An expiry** marks the row. -/
theorem expire_runs (hcur : D.approvals.get a.id = some a)
    (h : (expire a now actor).runs D (.ok (b, D'))) :
    Verdict a b .expired actor "Approval expired before a decision was made" now ∧
      D'.approvals.get a.id = some b ∧ ∀ k, k ≠ a.id → Kept k D D' := by
  obtain ⟨expired, D₁, hflush, h₁⟩ := runs_bind_ok.mp h
  obtain ⟨_, D₂, haudit, h₂⟩ := runs_bind_ok.mp h₁
  cases h₂
  have hid : Approval.id
      { a with
        status := .expired
        decidedAt := some now
        decidedBy := some actor
        rationale := some "Approval expired before a decision was made" } = a.id := rfl
  obtain ⟨⟨v, rfl⟩, hget, hkept⟩ := flushApproval_runs hid hcur hflush
  exact ⟨⟨rfl, rfl, rfl, rfl, rfl, rfl, rfl⟩, audit_kept haudit _ _ hget,
    fun k hne => (hkept k hne).trans (audit_kept haudit k)⟩

/-- **A resumed action** leaves the approval as it was, with the time of the resumption.  The
    handler comes first and may write what it likes but approvals; the workflow linked to the
    approval and the approval itself follow. -/
theorem resumeAction_row {engine : ApprovalEngine}
    (hhandlers : ∀ t handler, engine.actionRegistry t = some handler → LeavesApprovals handler)
    (hcur : D.approvals.get a.id = some a)
    (h : (engine.resumeAction a now).runs D (.ok (b, D'))) :
    (∃ v, b = { a with resumedAt := some now, version := v }) ∧
      D'.approvals.get a.id = some b ∧ ∀ k, k ≠ a.id → Kept k D D' := by
  unfold resumeAction at h
  extract_lets mark finish at h
  -- the last write is about the approval alone
  have hmark : ∀ E, (∀ k, Kept k D E) → (mark ()).runs E (.ok (b, D')) →
      (∃ v, b = { a with resumedAt := some now, version := v }) ∧
        D'.approvals.get a.id = some b ∧ ∀ k, k ≠ a.id → Kept k D D' := by
    intro E hE hrun
    have hid : Approval.id { a with resumedAt := some now } = a.id := rfl
    obtain ⟨hrow, hget, hothers⟩ := flushApproval_runs hid (hE _ a hcur) hrun
    exact ⟨hrow, hget, fun k hne => (hE k).trans (hothers k hne)⟩
  have hfinish : ∀ E u, (∀ k, Kept k D E) → (finish u).runs E (.ok (b, D')) →
      (∃ v, b = { a with resumedAt := some now, version := v }) ∧
        D'.approvals.get a.id = some b ∧ ∀ k, k ≠ a.id → Kept k D D' := by
    intro E u hE hrun
    simp only [finish] at hrun
    split at hrun
    · obtain ⟨found, E₁, hselect, h₁⟩ := runs_bind_ok.mp hrun
      obtain ⟨-, rfl⟩ := Tx.runs_select.mp hselect
      obtain ⟨workflow, E₂, hthrow, h₂⟩ := runs_bind_ok.mp h₁
      obtain ⟨-, rfl⟩ := Tx.runs_orThrow.mp hthrow
      obtain ⟨_, E₃, hflush, h₃⟩ := runs_bind_ok.mp h₂
      refine hmark E₃ (fun k => (hE k).trans ?_) h₃
      exact Kept.of_approvals (sameOff_of_runs (T := (· ∈ [TableName.workflowRuns]))
        (Tx.confined_flush _ _ (by decide)) hflush .approvals (by decide))
    · exact hmark E hE hrun
  cases hregistry : engine.actionRegistry a.actionType with
  | none =>
    rw [hregistry] at h
    exact hfinish D () (fun k => Kept.refl k D) h
  | some handler =>
    rw [hregistry] at h
    obtain ⟨u, D₁, hhandler, h₁⟩ := runs_bind_ok.mp h
    exact hfinish D₁ u (hhandlers _ handler hregistry a D D₁ u hhandler) h₁

/-- What a decision finds: a pending approval. -/
theorem getPending_runs {i : Uuid} {β : Type} {f : Approval → Tx β} {r : β}
    (h : (getForUpdate i >>= fun a => requirePending a >>= fun _ => f a).runs D (.ok (r, D'))) :
    ∃ a, D.approvals.get a.id = some a ∧ a.id = i ∧ a.status = .pending ∧
      (f a).runs D (.ok (r, D')) := by
  obtain ⟨a, D₁, hget, h₁⟩ := runs_bind_ok.mp h
  obtain ⟨found, D₂, hselect, hthrow⟩ := runs_bind_ok.mp hget
  obtain ⟨hfound, rfl⟩ := runs_selectForUpdate.mp hselect
  obtain ⟨hfound₁, rfl⟩ := Tx.runs_orThrow.mp hthrow
  obtain ⟨_, D₃, hrequire, h₂⟩ := runs_bind_ok.mp h₁
  obtain ⟨hpending, rfl⟩ := Tx.runs_require.mp hrequire
  have ha : D.approvals.get i = some a := hfound.symm.trans hfound₁
  have hid : a.id = i := Table.key_of_get ha
  exact ⟨a, by rw [hid]; exact ha, hid, hpending, h₂⟩

/-- The tables the engine writes once the action of an approval is taken. -/
abbrev closingTables : List TableName := [.approvals, .workflowRuns, .auditEvents]

/-- What resuming the action of an approval does: its handler, then rows of the engine's own. -/
structure Resumes (engine : ApprovalEngine) (a : Approval) (D D₁ D' : Db) : Prop where
  /-- what happened up to `D₁` is a run of the handler registered for the action -/
  handled : match engine.actionRegistry a.actionType with
    | some handler => ∃ u, (handler a).runs D (.ok (u, D₁))
    | none => D₁ = D
  /-- what followed is in the tables of the engine -/
  closed : Database.SameOff (· ∈ closingTables) D₁ D'

/-- What `_resume_action` does is to resume: first the handler, if one is registered, and then rows
    that are the engine's own.  This is where the run of the handler is taken out of the run of the
    whole. -/
theorem resumeAction_resumes {engine : ApprovalEngine}
    (h : (engine.resumeAction a now).runs D (.ok (b, D'))) : ∃ D₁, engine.Resumes a D D₁ D' := by
  unfold resumeAction at h
  extract_lets mark finish at h
  have hmark : ∀ u, (mark u).confined closingTables := fun u => Tx.confined_flush _ _ (by decide)
  have hfinish : ∀ u, (finish u).confined closingTables := by
    intro u
    simp only [finish]
    split
    · refine Prog.writes_bind (Prog.writes_query _) fun found => ?_
      refine Prog.writes_bind (Tx.confined_orThrow (by decide)) fun workflow => ?_
      exact Prog.writes_bind (Tx.confined_flush _ _ (by decide)) fun _ => hmark ()
    · exact hmark ()
  cases hregistry : engine.actionRegistry a.actionType with
  | none =>
    rw [hregistry] at h
    exact ⟨D, by rw [hregistry], sameOff_of_runs (hfinish ()) h⟩
  | some handler =>
    rw [hregistry] at h
    obtain ⟨u, D₁, hhandler, h₁⟩ := runs_bind_ok.mp h
    exact ⟨D₁, by rw [hregistry]; exact ⟨u, hhandler⟩, sameOff_of_runs (hfinish u) h₁⟩

/-- `a` is approved: its row is written, its action is resumed, and the engine closes. -/
structure Approving (engine : ApprovalEngine) (a approved : Approval) (now : Instant)
    (D D₁ D₂ D' : Db) : Prop where
  /-- the approval is on record -/
  found : D.approvals.get a.id = some a
  /-- nobody has decided it -/
  pending : a.status = .pending
  /-- and its time is not up -/
  live : isExpired a now = false
  /-- the row is written with the verdict -/
  row : ∃ actor reason v, approved =
    { a with
      status := .approved, decidedBy := some actor, rationale := some reason
      decidedAt := some now, version := v }
  /-- which is all that happened so far -/
  written : Database.SameOff (· ∈ [TableName.approvals]) D D₁
  /-- so the handler sees an approved approval -/
  current : D₁.approvals.get a.id = some approved
  /-- and then the action is resumed -/
  resumes : engine.Resumes approved D₁ D₂ D'

/-- **What approving does**: it marks the approval expired, or takes the action. -/
theorem approve_cases {engine : ApprovalEngine} {i : Uuid} {outcome : ApprovalOutcome}
    (h : (engine.approve i actor reason now).runs D (.ok (outcome, D'))) :
    (∃ a, D.approvals.get i = some a ∧ isExpired a now = true ∧
        Database.SameOff (· ∈ decisionTables) D D') ∨
      ∃ a approved D₁ D₂, a.id = i ∧ engine.Approving a approved now D D₁ D₂ D' := by
  obtain ⟨a, hcur, rfl, hpending, h₁⟩ := getPending_runs h
  split at h₁
  · rename_i hexpired
    obtain ⟨b, D₁, hexpire, h₂⟩ := runs_bind_ok.mp h₁
    cases h₂
    exact Or.inl ⟨a, hcur, hexpired, sameOff_of_runs expire_confined hexpire⟩
  · rename_i hlive
    obtain ⟨approved, D₁, hflush, h₂⟩ := runs_bind_ok.mp h₁
    obtain ⟨resumed, D₃, hresume, h₃⟩ := runs_bind_ok.mp h₂
    obtain ⟨_, D₄, haudit, h₄⟩ := runs_bind_ok.mp h₃
    cases h₄
    obtain ⟨D₂, hhandled, hclosed⟩ := resumeAction_resumes hresume
    obtain ⟨⟨v, hrow⟩, hcurrent, -⟩ := flushApproval_runs (by rfl) hcur hflush
    have hwritten : Database.SameOff (· ∈ [TableName.approvals]) D D₁ :=
      sameOff_of_runs (Tx.confined_flush _ _ (by decide)) hflush
    have haudited : Database.SameOff (· ∈ closingTables) D₃ D' :=
      sameOff_of_runs (Tx.confined_mono addAudit_confined (by decide)) haudit
    exact Or.inr ⟨a, approved, D₁, D₂, rfl, hcur, hpending, by simpa using hlive,
      ⟨actor, reason, v, hrow⟩, hwritten, hcurrent, hhandled, hclosed.trans haudited⟩

/-- A call moved the pending approval `a` to `b`.  Only to approve it is more than a matter of
    approvals and audit entries: then the action was taken between `D` and `D'`. -/
structure Moved (engine : ApprovalEngine) (a b : Approval) (D D' : Db) : Prop where
  /-- nobody had decided it -/
  pending : a.status = .pending
  /-- and it expired, was rejected in time, or was approved in time -/
  cases :
    (∃ actor rationale now, Verdict a b .expired actor rationale now) ∨
      (∃ actor rationale now, Verdict a b .rejected actor rationale now ∧
        isExpired a now = false) ∨
      ∃ actor rationale now, Verdict a b .approved actor rationale now ∧
        isExpired a now = false ∧ ∃ approved D₁ D₂, engine.Approving a approved now D D₁ D₂ D'

/-- **What approving leaves of the rows.**  `approve_cases` says what the call did on the way; this
    says which approvals it changed, and how. -/
theorem approve_row {engine : ApprovalEngine} {i : Uuid}
    (hhandlers : ∀ t handler, engine.actionRegistry t = some handler → LeavesApprovals handler)
    {outcome : ApprovalOutcome}
    (h : (engine.approve i actor reason now).runs D (.ok (outcome, D'))) :
    ∃ a b, D.approvals.get i = some a ∧ D'.approvals.get i = some b ∧
      (∀ k, k ≠ i → Kept k D D') ∧ a.status = .pending ∧
      ((∃ actor rationale, isExpired a now = true ∧ Verdict a b .expired actor rationale now) ∨
        Verdict a b .approved actor reason now ∧ isExpired a now = false ∧
          ∃ approved D₁ D₂, engine.Approving a approved now D D₁ D₂ D') := by
  have hcases := approve_cases h
  obtain ⟨a, hcur, rfl, hpending, h₁⟩ := getPending_runs h
  split at h₁
  · rename_i hexpired
    obtain ⟨b, D₁, hexpire, h₂⟩ := runs_bind_ok.mp h₁
    cases h₂
    obtain ⟨hverdict, hget, hothers⟩ := expire_runs hcur hexpire
    exact ⟨a, b, hcur, hget, hothers, hpending, Or.inl ⟨_, _, hexpired, hverdict⟩⟩
  · rename_i hlive
    obtain ⟨approved, D₁, hflush, h₂⟩ := runs_bind_ok.mp h₁
    obtain ⟨b, D₂, hresume, h₃⟩ := runs_bind_ok.mp h₂
    obtain ⟨_, D₃, haudit, h₄⟩ := runs_bind_ok.mp h₃
    cases h₄
    have hid : Approval.id
        { a with
          status := .approved
          decidedBy := some actor
          rationale := some reason
          decidedAt := some now } = a.id := rfl
    obtain ⟨⟨v, rfl⟩, hget₁, hothers₁⟩ := flushApproval_runs hid hcur hflush
    obtain ⟨⟨v', rfl⟩, hget₂, hothers₂⟩ := resumeAction_row hhandlers hget₁ hresume
    refine ⟨a, _, hcur, audit_kept haudit _ _ hget₂, fun k hne => ?_, hpending,
      Or.inr ⟨⟨rfl, rfl, rfl, rfl, rfl, rfl, rfl⟩, by simpa using hlive, ?_⟩⟩
    · exact ((hothers₁ k hne).trans (hothers₂ k hne)).trans (audit_kept haudit k)
    · rcases hcases with ⟨a', ha', hexpired, -⟩ | ⟨a', approved, E₁, E₂, hid', happroving⟩
      · -- it was not expired
        obtain rfl := Option.some.inj (hcur.symm.trans ha')
        exact absurd hexpired hlive
      · have hfound := happroving.found
        rw [hid'] at hfound
        obtain rfl := Option.some.inj (hcur.symm.trans hfound)
        exact ⟨approved, E₁, E₂, happroving⟩

/-- A rejection moves the pending approval to rejected, or to expired if it comes too late, and no
    other. -/
theorem reject_row (engine : ApprovalEngine) {i : Uuid} {outcome : ApprovalOutcome}
    (h : (reject i actor reason now).runs D (.ok (outcome, D'))) :
    ∃ a b, D.approvals.get i = some a ∧ D'.approvals.get i = some b ∧
      (∀ k, k ≠ i → Kept k D D') ∧ b.status ≠ .approved ∧ Moved engine a b D D' := by
  obtain ⟨a, hcur, rfl, hpending, h₁⟩ := getPending_runs h
  split at h₁
  · obtain ⟨b, D₁, hexpire, h₂⟩ := runs_bind_ok.mp h₁
    cases h₂
    obtain ⟨hverdict, hget, hothers⟩ := expire_runs hcur hexpire
    refine ⟨a, b, hcur, hget, hothers, ?_, ⟨hpending, Or.inl ⟨_, _, _, hverdict⟩⟩⟩
    rw [hverdict.status]
    exact fun h => by cases h
  · rename_i hlive
    obtain ⟨b, D₁, hflush, h₂⟩ := runs_bind_ok.mp h₁
    obtain ⟨_, D₂, haudit, h₃⟩ := runs_bind_ok.mp h₂
    cases h₃
    have hid : Approval.id
        { a with
          status := .rejected
          decidedBy := some actor
          rationale := some reason
          decidedAt := some now } = a.id := rfl
    obtain ⟨⟨v, rfl⟩, hget₁, hothers₁⟩ := flushApproval_runs hid hcur hflush
    refine ⟨a, _, hcur, audit_kept haudit _ _ hget₁,
      fun k hne => (hothers₁ k hne).trans (audit_kept haudit k), fun h => (by cases h), hpending,
      Or.inr (Or.inl ⟨actor, reason, now, ⟨rfl, rfl, rfl, rfl, rfl, rfl, rfl⟩, ?_⟩)⟩
    simpa using hlive

/-- **The sweep**, by induction on the approvals that are due. -/
theorem expireAll_runs {approvals : List Approval} {u : Unit}
    (hdue : ∀ a ∈ approvals, D.approvals.get a.id = some a ∧ a.status = .pending)
    (hdistinct : approvals.Pairwise fun a b => a.id ≠ b.id)
    (h : (expireAll now approvals).runs D (.ok (u, D'))) (i : Uuid) :
    ((∀ a ∈ approvals, a.id ≠ i) ∧ Kept i D D') ∨
      ∃ a ∈ approvals, ∃ b, a.id = i ∧ D'.approvals.get i = some b ∧
        ∃ actor rationale, Verdict a b .expired actor rationale now := by
  induction approvals generalizing D with
  | nil =>
    cases h
    exact Or.inl ⟨fun a ha => absurd ha List.not_mem_nil, Kept.refl i _⟩
  | cons first rest ih =>
    obtain ⟨expired, D₁, hexpire, h₁⟩ := runs_bind_ok.mp h
    obtain ⟨hcur, hpending⟩ := hdue first List.mem_cons_self
    obtain ⟨hverdict, hget, hothers⟩ := expire_runs hcur hexpire
    rw [List.pairwise_cons] at hdistinct
    have hrest : ∀ a ∈ rest,
        (Db.approvals D₁).get a.id = some a ∧ a.status = .pending := by
      intro a ha
      obtain ⟨hcur', hpending'⟩ := hdue a (List.mem_cons_of_mem first ha)
      exact ⟨hothers a.id (Ne.symm (hdistinct.1 a ha)) a hcur', hpending'⟩
    rcases ih hrest hdistinct.2 h₁ with ⟨hnot, hkept⟩ | ⟨a, ha, b, hid, hb, hmoved⟩
    · by_cases hfirst : first.id = i
      · subst hfirst
        exact Or.inr ⟨first, List.mem_cons_self, expired, rfl, hkept expired hget, _, _, hverdict⟩
      · refine Or.inl ⟨fun a ha => ?_, (hothers i (Ne.symm hfirst)).trans hkept⟩
        rcases List.mem_cons.mp ha with rfl | ha
        · exact hfirst
        · exact hnot a ha
    · exact Or.inr ⟨a, List.mem_cons_of_mem first ha, b, hid, hb, hmoved⟩

end Rows

end ApprovalEngine

open ApprovalEngine

/-! ## Calls and histories -/

/-- The calls that decide approvals. -/
inductive DecisionCall where
  /-- `approve`, at the time `now` -/
  | approve (approvalId : Uuid) (approver reason : String) (now : Instant)
  /-- `reject`, at the time `now` -/
  | reject (approvalId : Uuid) (approver reason : String) (now : Instant)
  /-- `expire_due`, at the time `now` -/
  | expireDue (now : Instant)

section Calls

variable (engine : ApprovalEngine)

/-- The call as a transaction; what it returns is dropped. -/
def DecisionCall.run : DecisionCall → Tx Unit
  | approve approvalId approver reason now => do
    let _ ← engine.approve approvalId approver reason now
  | reject approvalId approver reason now => do
    let _ ← ApprovalEngine.reject approvalId approver reason now
  | expireDue now => do
    let _ ← ApprovalEngine.expireDue now

/-- The relation of a call that commits; one that raises leaves no trace. -/
abbrev DecisionCall.Committed (c : DecisionCall) (u : Unit) (D D' : Db) : Prop :=
  (c.run engine).runs D (.ok (u, D'))

/-- Decisions made one after the other, with the states between them. -/
abbrev DecisionHistory (D₀ : Db) : List (Commit Db DecisionCall Unit) → Db → Prop :=
  Commits (DecisionCall.Committed engine) D₀

/-- The commit approved `i` and took its action: between the states before and after it lies a run
    of the handler that is registered for the approval. -/
def TakesAction (i : Uuid) (s : Commit Db DecisionCall Unit) : Prop :=
  ∃ approver reason now a approved D₁ D₂, s.call = .approve i approver reason now ∧ a.id = i ∧
    engine.Approving a approved now s.before D₁ D₂ s.after

variable {engine} {D₀ D D' : Db} {a : Approval} {i : Uuid}

/-- An action is taken for an approval that is pending, and only then.  So an approval that was
    decided is never acted on again. -/
theorem TakesAction.pending {s : Commit Db DecisionCall Unit} (h : TakesAction engine i s) :
    ∃ a, s.before.approvals.get i = some a ∧ a.status = .pending := by
  obtain ⟨_, _, _, a, approved, D₁, D₂, -, rfl, h⟩ := h
  exact ⟨a, h.found, h.pending⟩

/-- A call that does not take an action writes approvals and audit entries only. -/
theorem DecisionCall.Committed.takes_or_decides {c : DecisionCall} {u : Unit}
    (h : c.Committed engine u D D') :
    (∃ j, TakesAction engine j ⟨c, u, D, D'⟩) ∨ Database.SameOff (· ∈ decisionTables) D D' := by
  cases c with
  | approve j approver reason now =>
    obtain ⟨outcome, D₁, happrove, h₁⟩ := runs_bind_ok.mp h
    cases h₁
    rcases approve_cases happrove with ⟨-, -, -, hoff⟩ | ⟨a, approved, D₁, D₂, hid, happroving⟩
    · exact Or.inr hoff
    · exact Or.inl ⟨j, approver, reason, now, a, approved, D₁, D₂, rfl, hid, happroving⟩
  | reject j approver reason now =>
    obtain ⟨outcome, D₁, hreject, h₁⟩ := runs_bind_ok.mp h
    cases h₁
    exact Or.inr (sameOff_of_runs reject_confined hreject)
  | expireDue now =>
    obtain ⟨n, D₁, hexpire, h₁⟩ := runs_bind_ok.mp h
    cases h₁
    exact Or.inr (sameOff_of_runs expireDue_confined hexpire)

/-- **One call** leaves an approval as it is, or moves it from pending; it takes the action exactly
    if it moves the approval to approved.  By the call: an approval or a rejection is about one
    approval and finds it pending, and a sweep moves those that are due. -/
theorem DecisionCall.Committed.moves
    (hhandlers : ∀ t handler, engine.actionRegistry t = some handler → LeavesApprovals handler)
    {c : DecisionCall} {u : Unit} (ha : D.approvals.get i = some a)
    (h : c.Committed engine u D D') :
    (D'.approvals.get i = some a ∧ ¬TakesAction engine i ⟨c, u, D, D'⟩) ∨
      ∃ b, D'.approvals.get i = some b ∧ Moved engine a b D D' ∧
        (b.status = .approved ↔ TakesAction engine i ⟨c, u, D, D'⟩) := by
  cases c with
  -- an approval: expired it ends the row without the action, live it takes it
  | approve j approver reason now =>
    obtain ⟨outcome, D₁, happrove, h₁⟩ := runs_bind_ok.mp h
    cases h₁
    obtain ⟨a', b, ha', hb, hothers, hpending, hverdict⟩ := approve_row hhandlers happrove
    by_cases hij : i = j
    · subst hij
      obtain rfl := Option.some.inj (ha.symm.trans ha')
      refine Or.inr ⟨b, hb, ?_⟩
      rcases hverdict with ⟨actor, rationale, hexpired, hv⟩ | ⟨hv, hlive, happroving⟩
      · refine ⟨⟨hpending, Or.inl ⟨actor, rationale, now, hv⟩⟩, fun hstatus => ?_, fun htakes => ?_⟩
        · rw [hv.status] at hstatus
          cases hstatus
        · -- an action is taken for an approval that has time left
          obtain ⟨_, _, _, a', approved, D₁, D₂, hcall, hid, happroving⟩ := htakes
          cases hcall
          have hfound := happroving.found
          rw [hid] at hfound
          obtain rfl := Option.some.inj (ha.symm.trans hfound)
          exact absurd (hexpired.symm.trans happroving.live) (by simp)
      · refine ⟨⟨hpending, Or.inr (Or.inr ⟨_, _, _, hv, hlive, happroving⟩)⟩, fun _ => ?_,
          fun _ => hv.status⟩
        obtain ⟨approved, D₁, D₂, happroving⟩ := happroving
        have hid : a.id = i := Table.key_of_get ha
        exact ⟨approver, reason, now, a, approved, D₁, D₂, rfl, hid, happroving⟩
    · refine Or.inl ⟨hothers i hij a ha, ?_⟩
      rintro ⟨_, _, _, _, _, _, _, hcall, -, -⟩
      cases hcall
      exact hij rfl
  -- a rejection runs no handler
  | reject j approver reason now =>
    obtain ⟨outcome, D₁, hreject, h₁⟩ := runs_bind_ok.mp h
    cases h₁
    have hnot : ¬TakesAction engine i ⟨.reject j approver reason now, (), D, D'⟩ := by
      rintro ⟨_, _, _, _, _, _, _, hcall, -, -⟩
      cases hcall
    obtain ⟨a', b, ha', hb, hothers, hstatus, hmoved⟩ := reject_row engine hreject
    by_cases hij : i = j
    · subst hij
      obtain rfl := Option.some.inj (ha.symm.trans ha')
      exact Or.inr ⟨b, hb, hmoved, fun h => absurd h hstatus, fun h => absurd h hnot⟩
    · exact Or.inl ⟨hothers i hij a ha, hnot⟩
  -- a sweep: each approval that is due is moved once, since the rows it selects are distinct
  | expireDue now =>
    obtain ⟨n, D₁, hexpire, h₁⟩ := runs_bind_ok.mp h
    cases h₁
    obtain ⟨approvals, D₂, hselect, h₂⟩ := runs_bind_ok.mp hexpire
    obtain ⟨hdue, rfl⟩ := runs_selectAllForUpdate.mp hselect
    obtain ⟨_, D₃, hall, h₃⟩ := runs_bind_ok.mp h₂
    cases h₃
    have hnot : ¬TakesAction engine i ⟨.expireDue now, (), D, D'⟩ := by
      rintro ⟨_, _, _, _, _, _, _, hcall, -, -⟩
      cases hcall
    have hpending : ∀ a' ∈ approvals, D.approvals.get a'.id = some a' ∧ a'.status = .pending := by
      intro a' ha'
      rw [hdue] at ha'
      obtain ⟨hmem, hguard⟩ := List.mem_filter.mp ha'
      simp only [decide_eq_true_eq] at hguard
      exact ⟨Table.get_of_mem hmem, hguard.1⟩
    have hdistinct : approvals.Pairwise fun a b => a.id ≠ b.id := by
      rw [hdue]
      exact (D.approvals.distinct.imp fun h => h.1).filter _
    rcases expireAll_runs hpending hdistinct hall i with
      ⟨-, hkept⟩ | ⟨a', ha', b, hid, hb, actor, rationale, hv⟩
    · exact Or.inl ⟨hkept a ha, hnot⟩
    · obtain ⟨hcur, hbefore⟩ := hpending a' ha'
      rw [hid, ha] at hcur
      obtain rfl := Option.some.inj hcur
      refine Or.inr ⟨b, hb, ⟨hbefore, Or.inl ⟨actor, rationale, now, hv⟩⟩, fun hstatus => ?_,
        fun h => absurd h hnot⟩
      rw [hv.status] at hstatus
      cases hstatus

/-- How the approval `i`, pending as `a` at first, stands as `b` after the commits. -/
structure DecidedOnce (engine : ApprovalEngine) (i : Uuid) (a b : Approval)
    (steps : List (Commit Db DecisionCall Unit)) : Prop where
  /-- if it is approved, one commit took its action, and no other -/
  taken : b.status = .approved → ∃ before s after, steps = before ++ s :: after ∧
    TakesAction engine i s ∧ ∀ s' ∈ before ++ after, ¬TakesAction engine i s'
  /-- otherwise no commit did -/
  untaken : b.status ≠ .approved → ∀ s ∈ steps, ¬TakesAction engine i s
  /-- who decided, and when, is on record -/
  decided : b.status ≠ .pending → b.decidedBy.isSome ∧ b.rationale.isSome ∧ b.decidedAt.isSome
  /-- people decide before the expiry -/
  human : b.status = .approved ∨ b.status = .rejected →
    ∃ now, b.decidedAt = some now ∧ ∀ expiresAt, a.expiresAt = some expiresAt → now < expiresAt
  /-- while it is pending, no call has changed it -/
  untouched : b.status = .pending → b = a

/-- What a call that moves an approval leaves on record. -/
theorem ApprovalEngine.Moved.decided {b : Approval} (h : Moved engine a b D D') :
    b.status ≠ .pending ∧ (b.decidedBy.isSome ∧ b.rationale.isSome ∧ b.decidedAt.isSome) ∧
      (b.status = .approved ∨ b.status = .rejected → ∃ now, b.decidedAt = some now ∧
        ∀ expiresAt, a.expiresAt = some expiresAt → now < expiresAt) := by
  have hbefore : ∀ {now}, isExpired a now = false →
      ∀ expiresAt, a.expiresAt = some expiresAt → now < expiresAt := by
    intro now hlive expiresAt hexpires
    simpa [isExpired, hexpires] using hlive
  have hsome : ∀ {status actor rationale now}, Verdict a b status actor rationale now →
      b.decidedBy.isSome ∧ b.rationale.isSome ∧ b.decidedAt.isSome := fun hv => by
    simp [hv.decidedBy, hv.rationale, hv.decidedAt]
  rcases h.cases with ⟨actor, rationale, now, hv⟩ | ⟨actor, rationale, now, hv, hlive⟩ |
      ⟨actor, rationale, now, hv, hlive, -⟩
  · have hs := hv.status
    exact ⟨by simp [hs], hsome hv, by simp [hs]⟩
  · have hs := hv.status
    exact ⟨by simp [hs], hsome hv, fun _ => ⟨now, hv.decidedAt, hbefore hlive⟩⟩
  · have hs := hv.status
    exact ⟨by simp [hs], hsome hv, fun _ => ⟨now, hv.decidedAt, hbefore hlive⟩⟩

/-- **Step lemma.**  One more commit.  If the approval is still pending, no commit has touched it
    and `moves` says what this one does; if not, `moves` leaves only the case in which its row
    stays. -/
theorem DecidedOnce.snoc
    (hhandlers : ∀ t handler, engine.actionRegistry t = some handler → LeavesApprovals handler)
    {b : Approval} {steps : List (Commit Db DecisionCall Unit)} (hpending : a.status = .pending)
    (h : DecidedOnce engine i a b steps) (hb : D.approvals.get i = some b) {c : DecisionCall}
    {u : Unit} (hc : c.Committed engine u D D') :
    ∃ b', D'.approvals.get i = some b' ∧
      DecidedOnce engine i a b' (steps ++ [⟨c, u, D, D'⟩]) := by
  rcases hc.moves hhandlers hb with ⟨hget, hnot⟩ | ⟨b', hget, hmoved, htakes⟩
  · refine ⟨b, hget, fun happroved => ?_, fun hstatus s hs => ?_, h.decided, h.human, h.untouched⟩
    · obtain ⟨before, s, after, rfl, hs, hothers⟩ := h.taken happroved
      refine ⟨before, s, after ++ [⟨c, u, D, D'⟩], by simp, hs, fun s' hs' => ?_⟩
      rw [← List.append_assoc] at hs'
      rcases List.mem_append.mp hs' with hs' | hs'
      · exact hothers s' hs'
      · rw [List.mem_singleton.mp hs']
        exact hnot
    · rcases List.mem_append.mp hs with hs | hs
      · exact h.untaken hstatus s hs
      · rw [List.mem_singleton.mp hs]
        exact hnot
  · -- the row was still as it was requested, so nothing was taken before
    obtain rfl := h.untouched hmoved.pending
    have hnone : ∀ s ∈ steps, ¬TakesAction engine i s :=
      h.untaken (by rw [hpending]; exact fun h => by cases h)
    obtain ⟨hmovedStatus, hdecided, hhuman⟩ := hmoved.decided
    refine ⟨b', hget, fun happroved => ?_, fun hstatus s hs => ?_, fun _ => hdecided, hhuman,
      fun hstill => absurd hstill hmovedStatus⟩
    · exact ⟨steps, _, [], rfl, htakes.mp happroved, by simpa using hnone⟩
    · rcases List.mem_append.mp hs with hs | hs
      · exact hnone s hs
      · rw [List.mem_singleton.mp hs]
        exact fun htaken => hstatus (htakes.mpr htaken)

/-- A decided approval stays as it is, and its action is not taken again.  By induction on the
    commits that follow, each of which would have to find it pending. -/
theorem decided_is_final
    (hhandlers : ∀ t handler, engine.actionRegistry t = some handler → LeavesApprovals handler)
    {steps : List (Commit Db DecisionCall Unit)} (ha : D.approvals.get i = some a)
    (hdecided : a.status ≠ .pending) (h : DecisionHistory engine D steps D') :
    D'.approvals.get i = some a ∧ ∀ s ∈ steps, ¬TakesAction engine i s := by
  induction h with
  | nil => exact ⟨ha, fun s hs => absurd hs List.not_mem_nil⟩
  | snoc h hc ih =>
    rcases DecisionCall.Committed.moves hhandlers ih.1 hc with ⟨hget, hnot⟩ | ⟨b, -, hmoved, -⟩
    · refine ⟨hget, fun s hs => ?_⟩
      rcases List.mem_append.mp hs with hs | hs
      · exact ih.2 s hs
      · rw [List.mem_singleton.mp hs]
        exact hnot
    · exact absurd hmoved.pending hdecided

/-- One approval waits until time ten. -/
def requestedDb : Db where
  table
    | .approvals => .singleton
        { id := Uuid.ofNat 1, version := 1, actionType := "refund", resourceType := "refund"
          resourceId := Uuid.ofNat 2, requestedPayload := .object [], actionHash := "hash"
          riskLevel := "financial", ruleName := "refund_above_threshold", ruleVersion := 1
          status := .pending, requestedBy := "system", requestedReason := "refund"
          decidedBy := none, rationale := none, workflowRunId := none, expiresAt := some 10
          decidedAt := none, resumedAt := none }
    | _ => ∅

/-- An engine whose handler leaves a note in the audit trail. -/
def notingEngine : ApprovalEngine where
  policy := ⟨[]⟩
  defaultExpiryHours := 72
  actionRegistry actionType :=
    if actionType = "refund" then
      some fun approval => addAudit "system" "handler" "refund.approved" "refund"
        approval.resourceId
        none none none approval.id
    else none

/-- The approval is given in time, then rejected, and then the sweep comes by. -/
def sampleDecisions : List DecisionCall :=
  [.approve (Uuid.ofNat 1) "ann" "fine" 5, .reject (Uuid.ofNat 1) "bob" "no" 6, .expireDue 20]

/-- The commits these calls make, and the state they end in. -/
def decisionRun : List (DecisionCall × Unit) × Db :=
  traceCalls (DecisionCall.run notingEngine) Environment.numbered 0 sampleDecisions
    [] requestedDb

/-- A note in the audit trail leaves the approvals alone. -/
theorem notingEngine_leavesApprovals (t : String) (handler : Approval → Tx Unit)
    (ht : notingEngine.actionRegistry t = some handler) : LeavesApprovals handler := by
  intro a D D' u hrun k
  unfold notingEngine at ht
  dsimp only at ht
  split at ht
  · rw [← Option.some.inj ht] at hrun
    exact Kept.of_confined addAudit_confined (by decide) hrun
  · cases ht

end Calls

end CommerceOperations
