/-
  What the workflow engine does to its runs.

  Every action of the engine is about one run.  This file says what an action leaves of the other
  runs, and what the row of its own run looks like afterwards:

  * `Frame i`        — run `i` and the reports of its failure are as before;
  * `Reported i`     — one report of the failure of run `i` stands in the outbox now;
  * `SameRuns`       — what a step owes the engine: it leaves the runs and their reports alone;
  * `execute_spec`   — the row after an attempt, one clause for each way an attempt can end.

  What a step owes cannot be asked on every database.  A step that moves an order moves the
  workflow the order names, and only the database says that this is no run of the engine.  So the
  condition is relative to a property `safe` of databases, which the step and the engine's own
  moves keep; `ReturnRuns` gives that property for the reconciliation of returns.

  The engine is then written once more with a record of the attempts it makes, which `EngineCall`
  turns into calls that histories are made of.  The entry of an attempt is made where the step is
  started, and `fst_executeLogged` and the lemmas after it say that without the entries the calls
  are those of the engine, statement for statement.
-/
import CommerceOperations.Workflows.Invariants

namespace CommerceOperations

open Relational Prog

/-! ## Reports of a failure -/

/-- The outbox key of the report that run `i` failed. -/
def failureKey (i : Uuid) : String := s!"workflow-failed:{i}"

/-- The key of a report names its run. -/
theorem failureKey_inj {i j : Uuid} (h : failureKey i = failureKey j) : i = j := by
  have hkey : ∀ i : Uuid, (failureKey i).toList = "workflow-failed:".toList ++ i.text.toList := by
    intro i
    simp [failureKey, toString]
  have hlist := congrArg String.toList h
  rw [hkey, hkey] at hlist
  exact Uuid.eq_of_text_eq (String.toList_injective (List.append_cancel_left hlist))

/-- `e` reports, by its key or by what it says, that run `i` failed. -/
def DomainEvent.reports (e : DomainEvent) (i : Uuid) : Prop :=
  e.idempotencyKey = failureKey i ∨ ∃ name reason retryable,
    e.payload = .workflowFailed i name reason retryable

/-- A run of the engine: by its name, or by the key only the engine sets. -/
def WorkflowRun.isEngineRun (w : WorkflowRun) : Bool :=
  WorkflowEngine.isOrchestrated w.workflowName || w.idempotencyKey.isSome

/-- Run `i` of the engine and the reports of its failure are as before. -/
structure Frame (i : Uuid) (D D' : Db) : Prop where
  /-- run `i`, if it is the engine's, is stored in both states or in neither -/
  run : ∀ w : WorkflowRun, w.id = i → w.isEngineRun = true →
    (w ∈ D'.workflowRuns ↔ w ∈ D.workflowRuns)
  /-- and so is every report of its failure -/
  reports : ∀ e : DomainEvent, e.reports i → (e ∈ D'.domainEvents ↔ e ∈ D.domainEvents)

/-- One report of the failure of run `i` stands in the outbox now. -/
def Reported (i : Uuid) (D D' : Db) : Prop :=
  ∃ e : DomainEvent,
    (∃ name reason retryable, e.payload = .workflowFailed i name reason retryable) ∧
    e ∈ D'.domainEvents ∧
    ∀ e' : DomainEvent, e'.reports i → e' ∈ D'.domainEvents → e' ∈ D.domainEvents ∨ e' = e

namespace Frame

variable {i : Uuid} {D D' D'' : Db}

/-- In one state nothing has changed. -/
theorem refl (i : Uuid) (D : Db) : Frame i D D := ⟨fun _ _ _ => Iff.rfl, fun _ _ => Iff.rfl⟩

/-- What leaves run `i` alone, step by step, leaves it alone from the first state to the last. -/
theorem trans (h : Frame i D D') (h' : Frame i D' D'') : Frame i D D'' :=
  ⟨fun w hw hengine => (h'.run w hw hengine).trans (h.run w hw hengine),
    fun e he => (h'.reports e he).trans (h.reports e he)⟩

/-- A run of the engine that is found before is found afterwards, the same. -/
theorem get (h : Frame i D D') {w : WorkflowRun} (hw : D.workflowRuns.get i = some w)
    (hengine : w.isEngineRun = true) :
    D'.workflowRuns.get i = some w := by
  have hid : w.id = i := Table.key_of_get hw
  rw [← hid]
  exact Table.get_of_mem ((h.run w hid hengine).mpr (Table.mem_of_get hw))

/-- When runs and events are the same. -/
theorem of_tables (hruns : D'.workflowRuns = D.workflowRuns)
    (hevents : D'.domainEvents = D.domainEvents) : Frame i D D' :=
  ⟨fun _ _ _ => by rw [hruns], fun _ _ => by rw [hevents]⟩

end Frame

/-- A write that is not about run `i`. -/
def Beside (i : Uuid) (w : Write TableName.Entity) : Prop :=
  match w with
  | ⟨.workflowRuns, .insert row⟩ => WorkflowRun.id row ≠ i
  | ⟨.workflowRuns, .update _ new⟩ => WorkflowRun.id new ≠ i
  | ⟨.domainEvents, .insert e⟩ => ¬DomainEvent.reports e i
  | ⟨.domainEvents, .update _ _⟩ => False
  | _ => True

/-- A row of another key comes and goes without touching those of key `k`. -/
theorem mem_apply_of_key_ne {w : TableWrite WorkflowRun} {t : Table WorkflowRun} {i : Uuid}
    (hw : match w with
      | .insert row => row.id ≠ i
      | .update _ new => new.id ≠ i) {r : WorkflowRun} (hr : r.id = i) :
    r ∈ Table.apply w t ↔ r ∈ t := by
  have hne : ∀ {row : WorkflowRun}, row.id ≠ i → r ≠ row := by
    rintro row hrow rfl
    exact hrow hr
  cases w with
  | insert row =>
    show r ∈ t.insert row ↔ _
    cases hc : t.conflicts row with
    | true => rw [Table.insert_of_conflict hc]
    | false =>
      rw [Table.mem_insert hc, or_iff_left]
      exact hne hw
  | update old new =>
    show r ∈ t.update old new ↔ _
    by_cases hs : t.succeeds old new = true ∧ t.clashes old new = false
    · rw [Table.mem_update hs.1 hs.2]
      constructor
      · rintro (rfl | ⟨hmem, -⟩)
        · exact absurd hr hw
        · exact hmem
      · intro hmem
        refine Or.inr ⟨hmem, ?_⟩
        exact fun hkey : r.id = new.id => hw (hkey.symm.trans hr)
    · rw [Table.update_of_not hs]

/-- **A write beside run `i`** leaves it and the reports of its failure as they are. -/
theorem Frame.of_write {i : Uuid} {w : Write TableName.Entity} (hw : Beside i w) (D : Db) :
    Frame i D (Database.apply w D) := by
  obtain ⟨t, w⟩ := w
  by_cases hruns : t = .workflowRuns
  · subst hruns
    refine ⟨fun r hr _ => mem_apply_of_key_ne (w := w) ?_ hr, fun _ _ => Iff.rfl⟩
    cases w <;> exact hw
  · by_cases hevents : t = .domainEvents
    · subst hevents
      refine ⟨fun _ _ _ => Iff.rfl, fun e he => ?_⟩
      cases w with
      | insert row =>
        show e ∈ D.domainEvents.insert row ↔ _
        cases hc : D.domainEvents.conflicts row with
        | true => rw [Table.insert_of_conflict hc]
        | false =>
          rw [Table.mem_insert hc, or_iff_left]
          rintro rfl
          exact hw he
      | update old new => exact hw.elim
    · exact Frame.of_tables (Database.apply_table_of_ne _ _ (Ne.symm hruns))
        (Database.apply_table_of_ne _ _ (Ne.symm hevents))

/-- Every write of `p` is beside run `i`. -/
abbrev StaysBeside (i : Uuid) {α : Type} (p : Tx α) : Prop := p.writes (Beside i) fun _ => False

section Beside

variable {i : Uuid} {α : Type} {p : Tx α}

/-- What writes neither runs nor events is about no run. -/
theorem StaysBeside.of_confined {tables : List TableName} (h : p.confined tables)
    (htables : ∀ t ∈ tables, t ≠ .workflowRuns ∧ t ≠ .domainEvents) : StaysBeside i p := by
  refine writes_mono h ?_ fun _ he => he.elim
  rintro ⟨t, w⟩ hw
  obtain ⟨hr, he⟩ := htables t hw
  cases t <;> first | exact trivial | exact absurd rfl hr | exact absurd rfl he

/-- A program of such writes leaves the run as it is, by its writes one after the other. -/
theorem Frame.of_runs (h : StaysBeside i p) {D D' : Db} {a : α}
    (hrun : p.runs D (.ok (a, D'))) : Frame i D D' := by
  have hpost := post_of_writes (Frame.refl i) Frame.trans (fun w D hw => Frame.of_write hw D) h D
  have hframe := of_post hpost hrun
  exact hframe

/-- The run's row is stored in both states or in neither. -/
def SameRow (r : WorkflowRun) (D D' : Db) : Prop := r ∈ D'.workflowRuns ↔ r ∈ D.workflowRuns

/-- A write beside the run leaves its row, whatever kind of run it is. -/
theorem SameRow.of_write {r : WorkflowRun} {w : Write TableName.Entity} (hw : Beside r.id w)
    (D : Db) : SameRow r D (Database.apply w D) := by
  obtain ⟨t, w⟩ := w
  by_cases hruns : t = .workflowRuns
  · subst hruns
    refine mem_apply_of_key_ne (w := w) ?_ rfl
    cases w <;> exact hw
  · have hsame := Database.apply_table_of_ne ⟨t, w⟩ D (Ne.symm hruns)
    show r ∈ (Database.apply ⟨t, w⟩ D).table .workflowRuns ↔ _
    rw [hsame]
    rfl

/-- Whatever kind of run it is, the row of run `i` is as before. -/
theorem rows_of_beside (h : StaysBeside i p) {D D' : Db} {a : α} (hrun : p.runs D (.ok (a, D')))
    {r : WorkflowRun} (hr : r.id = i) : r ∈ D'.workflowRuns ↔ r ∈ D.workflowRuns := by
  subst hr
  have hrefl : ∀ D : Db, SameRow r D D := fun _ => Iff.rfl
  have htrans : ∀ {D D₁ D₂ : Db}, SameRow r D D₁ → SameRow r D₁ D₂ → SameRow r D D₂ :=
    fun h₁ h₂ => Iff.trans h₂ h₁
  have hpost := post_of_writes hrefl htrans (fun w D hw => SameRow.of_write hw D) h D
  have hsame := of_post hpost hrun
  exact hsame

/-- A requirement writes nothing. -/
theorem StaysBeside.require (cond : Prop) [Decidable cond] (type : ExceptionType)
    (message : String) : StaysBeside i (Tx.require cond type message) := by
  unfold Tx.require
  split
  · exact trivial
  · exact fun h => h

/-- An event is beside run `i` if neither its key nor its data reports that run's failure. -/
theorem StaysBeside.publish {event : EventEnvelope} (hkey : event.idempotencyKey ≠ failureKey i)
    (hdata : ∀ name reason retryable, event.data ≠ .workflowFailed i name reason retryable) :
    StaysBeside i (DatabaseEventStore.publish event) := by
  refine writes_bind (writes_query _) fun existing => ?_
  cases existing with
  | none =>
    refine writes_insert _ ?_ fun _ h => h
    rintro (h | ⟨name, reason, retryable, h⟩)
    · exact hkey h
    · exact hdata name reason retryable h
  | some existing =>
    dsimp only
    split
    · exact fun h => h
    · exact trivial

/-- An event about something else. -/
theorem StaysBeside.emit {payload : EventPayload} {context : EventContext} {key : String}
    (hkey : key ≠ failureKey i)
    (hpayload : ∀ name reason retryable, payload ≠ .workflowFailed i name reason retryable) :
    StaysBeside i (DatabaseEventStore.emit payload context key) := by
  unfold DatabaseEventStore.emit createEvent Tx.require
  split
  · intro env env'
    exact StaysBeside.publish hkey hpayload
  · exact fun h => h

end Beside

namespace WorkflowEngine

/-! ## Actions on another run -/

section Others

variable {i : Uuid} {workflow : WorkflowRun} (hne : workflow.id ≠ i)

/-- An audit entry is no row of a run. -/
theorem audit_beside {before : Option RunStatus} {after : RunStatus} {reason : String} :
    StaysBeside i (audit workflow before after reason) :=
  StaysBeside.of_confined addAudit_confined (by decide)

include hne

/-- Writing another run is beside this one. -/
theorem flush_beside {new : WorkflowRun} (hnew : new.id = workflow.id) :
    StaysBeside i (flush .workflowRuns workflow new) := by
  refine writes_flush _ _ (fun r _ _ => ?_) (fun _ h => h) fun h => h
  show new.id ≠ i
  rw [hnew]
  exact hne

/-- The failure of another run is beside this one: the report carries the other run's key. -/
theorem terminalFailure_beside {reason : String} {retryable : Bool} :
    StaysBeside i (terminalFailure workflow reason retryable) := by
  refine writes_bind (writes_answer _) fun now => ?_
  refine writes_bind (flush_beside hne rfl) fun run => ?_
  refine writes_bind audit_beside fun _ => ?_
  refine writes_bind (StaysBeside.emit ?_ ?_) fun _ => trivial
  · exact fun h => hne (failureKey_inj h)
  · rintro name reason retryable ⟨⟩
    exact hne rfl

/-- A failed step of another run is beside this one, whether it will be repeated or not. -/
theorem stepFailed_beside {policy : WorkflowExecutionPolicy} {e : Error} {now : Instant} :
    StaysBeside i (stepFailed workflow policy e now) := by
  unfold stepFailed
  split
  · exact terminalFailure_beside hne
  · split
    · exact terminalFailure_beside hne
    · refine writes_bind (flush_beside hne rfl) fun run => ?_
      exact writes_bind audit_beside fun _ => trivial

omit hne in
/-- A finished run has the id it had. -/
theorem finished_id {outcome : WorkflowOutcome} {now : Instant} :
    (finished workflow outcome now).id = workflow.id := by
  unfold finished
  split <;> rfl

/-- A step of another run that returned is beside this one. -/
theorem stepReturned_beside {outcome : WorkflowOutcome} {now : Instant} :
    StaysBeside i (stepReturned workflow outcome now) := by
  refine writes_bind (flush_beside hne finished_id) fun run => ?_
  split <;> exact writes_bind audit_beside fun _ => trivial

/-- Clearing another run's approval is, too. -/
theorem clearApproval_beside : StaysBeside i (clearApproval workflow) := by
  unfold clearApproval
  split
  · exact trivial
  · refine writes_bind (writes_query _) fun approval => ?_
    exact writes_bind (StaysBeside.require _ _ _) fun _ => flush_beside hne rfl

end Others

/-! ## Actions on a run -/

/-- What no action changes of a run. -/
structure SameIdentity (w run : WorkflowRun) : Prop where
  /-- the id -/
  id : run.id = w.id
  /-- the name of its workflow -/
  name : run.workflowName = w.workflowName
  /-- the key of its event -/
  key : run.idempotencyKey = w.idempotencyKey
  /-- the event -/
  source : run.sourceEventId = w.sourceEventId
  /-- when it times out -/
  deadline : run.deadlineAt = w.deadlineAt
  /-- how often it may be tried -/
  maxAttempts : run.maxAttempts = w.maxAttempts

/-- Whether a run is the engine's is read off its name and its key. -/
theorem SameIdentity.isEngineRun {w run : WorkflowRun} (h : SameIdentity w run) :
    run.isEngineRun = w.isEngineRun := by
  rw [WorkflowRun.isEngineRun, WorkflowRun.isEngineRun, h.name, h.key]

/-- What two actions leave of a run, their sequence leaves. -/
theorem SameIdentity.trans {w w' w'' : WorkflowRun} (h : SameIdentity w w')
    (h' : SameIdentity w' w'') : SameIdentity w w'' :=
  ⟨h'.id.trans h.id, h'.name.trans h.name, h'.key.trans h.key, h'.source.trans h.source,
    h'.deadline.trans h.deadline, h'.maxAttempts.trans h.maxAttempts⟩

section Own

variable {w run : WorkflowRun} {D D' : Db}

/-- A run that is current is written back with the columns it was given. -/
theorem flushRun_runs {new row : WorkflowRun} (hid : new.id = w.id)
    (hcur : D.workflowRuns.get w.id = some w)
    (h : (flush .workflowRuns w new).runs D (.ok (row, D'))) :
    (∃ v, row = { new with version := v }) ∧ D'.workflowRuns.get w.id = some row ∧
      D'.domainEvents = D.domainEvents := by
  rcases runs_flush (by exact hid) (by rfl) hcur h with
    ⟨rfl, rfl, rfl⟩ | ⟨-, rfl, hs, hc, rfl⟩
  · exact ⟨⟨_, rfl⟩, hcur, rfl⟩
  · refine ⟨⟨_, rfl⟩, ?_, rfl⟩
    refine (Table.get_update hs hc w.id).trans (if_pos ?_)
    exact hid

/-- An audit entry leaves runs and events as they are. -/
theorem audit_runs {before : Option RunStatus} {after : RunStatus} {reason : String} {u : Unit}
    (h : (audit w before after reason).runs D (.ok (u, D'))) :
    D'.workflowRuns = D.workflowRuns ∧ D'.domainEvents = D.domainEvents := by
  have hsame := sameOff_of_runs addAudit_confined h
  exact ⟨hsame .workflowRuns (by decide), hsame .domainEvents (by decide)⟩

/-- **A terminal failure** marks the run as failed, and one report of it stands in the outbox: the
    one written now, or the one that was there under its key. -/
theorem terminalFailure_spec {reason : String} {retryable : Bool}
    (hcur : D.workflowRuns.get w.id = some w)
    (h : (terminalFailure w reason retryable).runs D (.ok (run, D'))) :
    (∃ now v, run = { failed w reason retryable now with version := v }) ∧
      D'.workflowRuns.get w.id = some run ∧ Reported w.id D D' := by
  obtain ⟨now, D₁, ⟨env, hnow⟩, h₁⟩ := runs_bind_ok.mp h
  cases hnow
  obtain ⟨run₁, D₂, hflush, h₂⟩ := runs_bind_ok.mp h₁
  have hid : (failed w reason retryable env.now).id = w.id := rfl
  obtain ⟨⟨v, hrun⟩, hget, hevents⟩ := flushRun_runs hid hcur hflush
  obtain ⟨_, D₃, haudit, h₃⟩ := runs_bind_ok.mp h₂
  obtain ⟨hruns₃, hevents₃⟩ := audit_runs haudit
  obtain ⟨e, D₄, hemit, h₄⟩ := runs_bind_ok.mp h₃
  cases h₄
  have hruns₄ : D'.workflowRuns = Db.workflowRuns D₃ :=
    sameOff_of_runs DatabaseEventStore.emit_confined hemit .workflowRuns (by decide)
  refine ⟨⟨env.now, v, hrun⟩, ?_, ?_⟩
  · rw [hruns₄, hruns₃]
    exact hget
  · obtain ⟨-, hkey, hpayload, hwhere⟩ := DatabaseEventStore.emit_runs hemit
    refine ⟨e, ⟨_, _, _, hpayload⟩, ?_⟩
    rw [← hevents, ← hevents₃]
    rcases hwhere with ⟨hmem, rfl⟩ | ⟨-, -, hconflicts, rfl⟩
    · exact ⟨hmem, fun e' _ he' => Or.inl he'⟩
    · have hinsert : ∀ e', e' ∈ Db.domainEvents (Database.apply ⟨.domainEvents, .insert e⟩ D₃) ↔
          e' ∈ Db.domainEvents D₃ ∨ e' = e := fun e' => Table.mem_insert hconflicts
      exact ⟨(hinsert e).mpr (Or.inr rfl), fun e' _ he' => (hinsert e').mp he'⟩

/-- How the row of a run stands after a failed attempt. -/
theorem stepFailed_spec {policy : WorkflowExecutionPolicy} {e : Error} {now : Instant}
    (hcur : D.workflowRuns.get w.id = some w)
    (h : (stepFailed w policy e now).runs D (.ok (run, D'))) :
    SameIdentity w run ∧ run.attempts = w.attempts ∧
      run.waitingApprovalId = w.waitingApprovalId ∧ D'.workflowRuns.get w.id = some run ∧
        ((run.status = .failed ∧ Reported w.id D D') ∨
          (run.status = .retrying ∧ w.attempts < w.maxAttempts ∧ run.nextRetryAt.isSome = true ∧
            D'.domainEvents = D.domainEvents)) := by
  have hfailed : ∀ {reason retryable},
      (terminalFailure w reason retryable).runs D (.ok (run, D')) →
      SameIdentity w run ∧ run.attempts = w.attempts ∧
        run.waitingApprovalId = w.waitingApprovalId ∧ D'.workflowRuns.get w.id = some run ∧
          run.status = .failed ∧ Reported w.id D D' := by
    intro reason retryable hrun
    obtain ⟨⟨now, v, rfl⟩, hget, hreport⟩ := terminalFailure_spec hcur hrun
    exact ⟨⟨rfl, rfl, rfl, rfl, rfl, rfl⟩, rfl, rfl, hget, rfl, hreport⟩
  unfold stepFailed at h
  split at h
  · obtain ⟨hsame, hattempts, hwaiting, hget, hrest⟩ := hfailed h
    exact ⟨hsame, hattempts, hwaiting, hget, Or.inl hrest⟩
  · split at h
    · obtain ⟨hsame, hattempts, hwaiting, hget, hrest⟩ := hfailed h
      exact ⟨hsame, hattempts, hwaiting, hget, Or.inl hrest⟩
    · rename_i hlt
      obtain ⟨run₁, D₁, hflush, h₁⟩ := runs_bind_ok.mp h
      obtain ⟨_, D₂, haudit, h₂⟩ := runs_bind_ok.mp h₁
      cases h₂
      have hid : (retrying w e (now + seconds (policy.retryDelaySeconds * w.attempts))).id = w.id :=
        rfl
      obtain ⟨⟨v, rfl⟩, hget, hevents⟩ := flushRun_runs hid hcur hflush
      obtain ⟨hruns₂, hevents₂⟩ := audit_runs haudit
      refine ⟨⟨rfl, rfl, rfl, rfl, rfl, rfl⟩, rfl, rfl, ?_, Or.inr ⟨rfl, ?_, rfl, ?_⟩⟩
      · rw [hruns₂]
        exact hget
      · exact Int.not_le.mp hlt
      · exact hevents₂.trans hevents

/-- How it stands after the step returned. -/
theorem stepReturned_spec {outcome : WorkflowOutcome} {now : Instant}
    (hcur : D.workflowRuns.get w.id = some w)
    (h : (stepReturned w outcome now).runs D (.ok (run, D'))) :
    SameIdentity w run ∧ run.attempts = w.attempts ∧ D'.workflowRuns.get w.id = some run ∧
      D'.domainEvents = D.domainEvents ∧
        ((outcome.approvalId = none ∧ run.status = .succeeded ∧
            run.waitingApprovalId = w.waitingApprovalId) ∨
          (run.status = .pending ∧ run.waitingApprovalId = outcome.approvalId ∧
            outcome.approvalId ≠ none)) := by
  obtain ⟨run₁, D₁, hflush, h₁⟩ := runs_bind_ok.mp h
  obtain ⟨⟨v, hrun⟩, hget, hevents⟩ := flushRun_runs finished_id hcur hflush
  have hrest : ∀ {after reason}, (do
      audit run₁ (some w.status) after reason
      pure run₁ : Tx WorkflowRun).runs D₁ (.ok (run, D')) →
      run = run₁ ∧ D'.workflowRuns = Db.workflowRuns D₁ ∧ D'.domainEvents = Db.domainEvents D₁ := by
    intro after reason hrun
    obtain ⟨_, D₂, haudit, h₂⟩ := runs_bind_ok.mp hrun
    cases h₂
    exact ⟨rfl, audit_runs haudit⟩
  cases happroval : outcome.approvalId with
  | none =>
    rw [happroval] at h₁
    obtain ⟨rfl, hruns, hevents'⟩ := hrest h₁
    simp only [finished, happroval] at hrun
    subst hrun
    refine ⟨⟨rfl, rfl, rfl, rfl, rfl, rfl⟩, rfl, ?_, hevents'.trans hevents, Or.inl ⟨rfl, rfl, rfl⟩⟩
    rw [hruns]
    exact hget
  | some approvalId =>
    rw [happroval] at h₁
    obtain ⟨rfl, hruns, hevents'⟩ := hrest h₁
    simp only [finished, happroval] at hrun
    subst hrun
    refine ⟨⟨rfl, rfl, rfl, rfl, rfl, rfl⟩, rfl, ?_, hevents'.trans hevents,
      Or.inr ⟨rfl, rfl, Option.some_ne_none _⟩⟩
    rw [hruns]
    exact hget

end Own

/-! ## One attempt -/

end WorkflowEngine

/-- What a step owes the engine: it leaves the runs and the reports of failures alone. -/
def SameRuns (D D' : Db) : Prop := ∀ i, Frame i D D'

/-- A step that does nothing owes nothing. -/
theorem SameRuns.refl (D : Db) : SameRuns D D := fun i => Frame.refl i D

/-- What the engine's own writes leave of a database.  The tables of the services are as before,
    and every run is still there, as a run of the engine or not.  A property of the database that
    speaks about nothing else survives whatever the engine does between two steps. -/
structure OwnMove (D D' : Db) : Prop where
  /-- the tables of the services are as before -/
  elsewhere : WorkflowEngine.SameElsewhere D D'
  /-- every run is still there, of its kind -/
  kinds : ∀ w ∈ D.workflowRuns, ∃ w' ∈ D'.workflowRuns,
    w'.id = w.id ∧ w'.isEngineRun = w.isEngineRun

/-- Started on a database that is `safe`, the step pays what it owes the engine, and leaves the
    database safe for the next one.  Some property of this kind is needed: a step that moves an
    order also moves the workflow the order names, and nothing in the step itself says that this is
    no run of the engine. -/
def WorkflowStep.LeavesRuns (safe : Db → Prop) (step : WorkflowStep) : Prop :=
  ∀ event run D outcome D', safe D → (step event run).runs D (.ok (outcome, D')) →
    SameRuns D D' ∧ safe D'

/-- An engine whose steps all do so, on databases that its own writes keep safe: the states its
    steps start from are then safe in every history that begins with a safe one. -/
structure WorkflowEngine.LeavesRuns (safe : Db → Prop) (engine : WorkflowEngine) : Prop where
  /-- every registered step pays what it owes -/
  steps : ∀ name definition, engine.definitions name = some definition →
    definition.step.LeavesRuns safe
  /-- and the engine's own moves keep the database safe -/
  own : ∀ D D', OwnMove D D' → safe D → safe D'

namespace OwnMove

variable {D D' D'' : Db}

/-- Two moves of the engine's own make one. -/
theorem trans (h : OwnMove D D') (h' : OwnMove D' D'') : OwnMove D D'' := by
  refine ⟨h.elsewhere.trans h'.elsewhere, fun w hw => ?_⟩
  obtain ⟨w₁, hw₁, hid₁, hkind₁⟩ := h.kinds w hw
  obtain ⟨w₂, hw₂, hid₂, hkind₂⟩ := h'.kinds w₁ hw₁
  exact ⟨w₂, hw₂, hid₂.trans hid₁, hkind₂.trans hkind₁⟩

/-- Where the runs are the same, a change of the engine's other tables is such a move. -/
theorem of_workflowRuns (helsewhere : WorkflowEngine.SameElsewhere D D')
    (hruns : D'.workflowRuns = D.workflowRuns) : OwnMove D D' := by
  refine ⟨helsewhere, fun w hw => ⟨w, ?_, rfl, rfl⟩⟩
  rw [hruns]
  exact hw

/-- An action on a run: it writes the run it was given, and no other. -/
theorem of_action {α : Type} {p : Tx α} {a : α} {w row : WorkflowRun}
    (hp : p.confined WorkflowEngine.tables) (hbeside : ∀ i, w.id ≠ i → StaysBeside i p)
    (hrun : p.runs D (.ok (a, D'))) (hcur : D.workflowRuns.get w.id = some w)
    (hget : D'.workflowRuns.get w.id = some row) (hkind : row.isEngineRun = w.isEngineRun) :
    OwnMove D D' := by
  refine ⟨WorkflowEngine.SameElsewhere.of_runs hp hrun, fun v hv => ?_⟩
  by_cases hid : w.id = v.id
  · obtain rfl : w = v := D.workflowRuns.eq_of_key_eq (Table.mem_of_get hcur) hv hid
    exact ⟨row, Table.mem_of_get hget, Table.key_of_get hget, hkind⟩
  · exact ⟨v, (rows_of_beside (hbeside v.id hid) hrun rfl).mpr hv, rfl, rfl⟩

end OwnMove

namespace WorkflowEngine

section Attempt

variable {w run : WorkflowRun} {definition : WorkflowDefinition} {event : EventEnvelope}
variable {now : Instant} {D D' : Db} {safe : Db → Prop}

/-! ### What the engine does around a step -/

/-- Writing a run with the kind it has is a move of the engine's own. -/
theorem flush_own {new row : WorkflowRun} (hid : new.id = w.id)
    (hkind : new.isEngineRun = w.isEngineRun) (hcur : D.workflowRuns.get w.id = some w)
    (h : (flush .workflowRuns w new).runs D (.ok (row, D'))) : OwnMove D D' := by
  obtain ⟨⟨v, rfl⟩, hget, -⟩ := flushRun_runs hid hcur h
  exact OwnMove.of_action flush_confined (fun i hne => flush_beside hne hid) h hcur hget hkind

/-- An audit entry is a move of the engine's own. -/
theorem audit_own {before : Option RunStatus} {after : RunStatus} {reason : String} {u : Unit}
    (h : (audit w before after reason).runs D (.ok (u, D'))) : OwnMove D D' :=
  OwnMove.of_workflowRuns (SameElsewhere.of_runs audit_confined h) (audit_runs h).1

/-- A terminal failure is a move of the engine's own. -/
theorem terminalFailure_own {reason : String} {retryable : Bool}
    (hcur : D.workflowRuns.get w.id = some w)
    (h : (terminalFailure w reason retryable).runs D (.ok (run, D'))) : OwnMove D D' := by
  obtain ⟨⟨now, v, hrun⟩, hget, -⟩ := terminalFailure_spec hcur h
  refine OwnMove.of_action terminalFailure_confined (fun i hne => terminalFailure_beside hne) h
    hcur hget ?_
  rw [hrun]
  rfl

/-- What the engine does after a failed step is a move of its own. -/
theorem stepFailed_own {policy : WorkflowExecutionPolicy} {e : Error}
    (hcur : D.workflowRuns.get w.id = some w)
    (h : (stepFailed w policy e now).runs D (.ok (run, D'))) : OwnMove D D' := by
  obtain ⟨hsame, -, -, hget, -⟩ := stepFailed_spec hcur h
  exact OwnMove.of_action stepFailed_confined (fun i hne => stepFailed_beside hne) h hcur hget
    hsame.isEngineRun

/-- What it does after a step that returned is a move of its own. -/
theorem stepReturned_own {outcome : WorkflowOutcome} (hcur : D.workflowRuns.get w.id = some w)
    (h : (stepReturned w outcome now).runs D (.ok (run, D'))) : OwnMove D D' := by
  obtain ⟨hsame, -, hget, -⟩ := stepReturned_spec hcur h
  exact OwnMove.of_action stepReturned_confined (fun i hne => stepReturned_beside hne) h hcur hget
    hsame.isEngineRun

/-! ### The attempt -/

/-- How the engine goes on once the step is over, with the run as it reads it then. -/
def finish (workflow : WorkflowRun) (policy : WorkflowExecutionPolicy)
    (outcome : Except Error (Option WorkflowOutcome)) (now : Instant) : Tx WorkflowRun :=
  match outcome with
  | .error e => stepFailed workflow policy e now
  | .ok outcome => stepReturned workflow (outcome.getD (.completed "completed" (.object []))) now

/-- How an attempt went that was committed.  Either the run had timed out, and nothing was tried;
    or the engine wrote the run, started its step on what it had made of the database, and finished
    on what the step had made of that. -/
inductive Attempted (w : WorkflowRun) (definition : WorkflowDefinition) (event : EventEnvelope)
    (now : Instant) (run : WorkflowRun) (D D' : Db) : Prop
  | late (htimed : timedOut w now = true)
    (hrun : (terminalFailure w "Workflow timed out" false).runs D (.ok (run, D')))
  | tried (htimed : timedOut w now = false) (v : Int) (D₁ : Db)
    (outcome : Except Error (Option WorkflowOutcome)) (D₂ : Db)
    (hget : D₁.workflowRuns.get w.id = some { started w with version := v })
    (hevents : D₁.domainEvents = D.domainEvents)
    (hothers : ∀ i, w.id ≠ i → Frame i D D₁) (hmove : OwnMove D D₁)
    (hsave : (definition.step event { started w with version := v }).savepoint.runs D₁
      (.ok (outcome, D₂)))
    (row : WorkflowRun) (hrow : D₂.workflowRuns.get w.id = some row)
    (hfinish : (finish row definition.policy outcome now).runs D₂ (.ok (run, D')))

/-- **An attempt went one of these ways.**  The proof follows the statements of `execute` once;
    everything else about attempts starts from here. -/
theorem execute_runs (hcur : D.workflowRuns.get w.id = some w)
    (h : (execute w definition event now).runs D (.ok (run, D'))) :
    Attempted w definition event now run D D' := by
  unfold execute at h
  split at h
  · rename_i htimed
    exact .late htimed h
  · rename_i htimed
    obtain ⟨row, D₁, hflush, h₁⟩ := runs_bind_ok.mp h
    have hid : (started w).id = w.id := rfl
    have hmove₁ := flush_own hid rfl hcur hflush
    have hothers : ∀ i, w.id ≠ i → Frame i D D₁ := fun i hne =>
      Frame.of_runs (flush_beside hne hid) hflush
    obtain ⟨⟨v, rfl⟩, hget, hevents⟩ := flushRun_runs hid hcur hflush
    obtain ⟨_, D₂, haudit, h₂⟩ := runs_bind_ok.mp h₁
    obtain ⟨hruns₂, hevents₂⟩ := audit_runs haudit
    obtain ⟨outcome, D₃, hsave, h₃⟩ := runs_bind_ok.mp h₂
    obtain ⟨found, D₄, hselect, h₄⟩ := runs_bind_ok.mp h₃
    obtain ⟨hfound, rfl⟩ := Tx.runs_select.mp hselect
    obtain ⟨row, D₅, hthrow, h₅⟩ := runs_bind_ok.mp h₄
    obtain ⟨hrow, rfl⟩ := Tx.runs_orThrow.mp hthrow
    refine .tried (by simpa using htimed) v D₂ outcome D₃ ?_ (hevents₂.trans hevents)
      (fun i hne => (hothers i hne).trans (Frame.of_runs audit_beside haudit))
      (hmove₁.trans (audit_own haudit)) hsave row (hfound.symm.trans hrow) ?_
    · rw [hruns₂]
      exact hget
    · cases outcome with
      | error e => exact h₅
      | ok outcome => exact h₅

variable (hstep : definition.step.LeavesRuns safe)

include hstep

/-- The step as the engine runs it: in a nested transaction, which undoes it when it raises. -/
theorem step_sameRuns {outcome : Except Error (Option WorkflowOutcome)} (hsafe : safe D)
    (h : (definition.step event run).savepoint.runs D (.ok (outcome, D'))) :
    SameRuns D D' ∧ safe D' := by
  rcases runs_savepoint.mp h with ⟨a, D₁, hrun, heq⟩ | ⟨e, hrun, heq⟩
  · obtain ⟨rfl, rfl⟩ : outcome = .ok a ∧ D' = D₁ := by simpa using heq
    exact hstep event run D a D' hsafe hrun
  · obtain ⟨rfl, rfl⟩ : outcome = .error e ∧ D' = D := by simpa using heq
    exact ⟨SameRuns.refl D', hsafe⟩

variable (hown : ∀ D D', OwnMove D D' → safe D → safe D')

include hown

/-- An attempt keeps the database safe. -/
theorem execute_safe (hsafe : safe D) (hcur : D.workflowRuns.get w.id = some w)
    (h : (execute w definition event now).runs D (.ok (run, D'))) : safe D' := by
  cases execute_runs hcur h with
  | late htimed hrun => exact hown D D' (terminalFailure_own hcur hrun) hsafe
  | tried htimed v D₁ outcome D₂ hget₁ hevents hothers hmove hsave row hget₂ hfinish =>
    obtain ⟨-, hsafe₂⟩ := step_sameRuns hstep (hown D D₁ hmove hsafe) hsave
    refine hown D₂ D' ?_ hsafe₂
    have hid : row.id = w.id := Table.key_of_get hget₂
    rw [← hid] at hget₂
    cases outcome with
    | error e => exact stepFailed_own hget₂ hfinish
    | ok outcome => exact stepReturned_own hget₂ hfinish

/-- An attempt at one run leaves the others alone. -/
theorem execute_frame (hsafe : safe D)
    (h : (execute w definition event now).runs D (.ok (run, D'))) {i : Uuid}
    (hne : w.id ≠ i) (hcur : D.workflowRuns.get w.id = some w) : Frame i D D' := by
  cases execute_runs hcur h with
  | late htimed hrun => exact Frame.of_runs (terminalFailure_beside hne) hrun
  | tried htimed v D₁ outcome D₂ hget₁ hevents hothers hmove hsave row hget₂ hfinish =>
    obtain ⟨hframe, -⟩ := step_sameRuns hstep (hown D D₁ hmove hsafe) hsave
    have hid : row.id = w.id := Table.key_of_get hget₂
    have hne' : row.id ≠ i := by rw [hid]; exact hne
    refine ((hothers i hne).trans (hframe i)).trans ?_
    cases outcome with
    | error e => exact Frame.of_runs (stepFailed_beside hne') hfinish
    | ok outcome => exact Frame.of_runs (stepReturned_beside hne') hfinish

/-- **One attempt**, at a run that is current: past its deadline the run fails, and before it one
    more attempt is on record, which failed, will be repeated, waits for an approval, or succeeded. -/
theorem execute_spec (hsafe : safe D) (hengine : w.isEngineRun = true)
    (hcur : D.workflowRuns.get w.id = some w)
    (h : (execute w definition event now).runs D (.ok (run, D'))) :
    SameIdentity w run ∧ D'.workflowRuns.get w.id = some run ∧
      ((timedOut w now = true ∧ run.attempts = w.attempts ∧
          run.waitingApprovalId = w.waitingApprovalId ∧ run.status = .failed ∧
            Reported w.id D D') ∨
        (timedOut w now = false ∧ run.attempts = w.attempts + 1 ∧
          ((run.status = .failed ∧ run.waitingApprovalId = w.waitingApprovalId ∧
              Reported w.id D D') ∨
            ((∀ e : DomainEvent, e.reports w.id → (e ∈ D'.domainEvents ↔ e ∈ D.domainEvents)) ∧
              ((run.status = .retrying ∧ run.waitingApprovalId = w.waitingApprovalId ∧
                  run.attempts < run.maxAttempts ∧ run.nextRetryAt.isSome = true) ∨
                (run.status = .succeeded ∧ run.waitingApprovalId = w.waitingApprovalId) ∨
                (run.status = .pending ∧ ∃ run₁ D₁ outcome D₂,
                  (definition.step event run₁).runs D₁ (.ok (some outcome, D₂)) ∧
                    outcome.approvalId ≠ none ∧ run.waitingApprovalId = outcome.approvalId)))))) := by
  cases execute_runs hcur h with
  | late htimed hrun =>
    obtain ⟨⟨t, v, rfl⟩, hget, hreport⟩ := terminalFailure_spec hcur hrun
    exact ⟨⟨rfl, rfl, rfl, rfl, rfl, rfl⟩, hget, Or.inl ⟨htimed, rfl, rfl, rfl, hreport⟩⟩
  | tried htimed v D₁ outcome D₂ hget₁ hevents₁ hothers hmove hsave row hget₂ hfinish =>
    obtain ⟨hsame₂, -⟩ := step_sameRuns hstep (hown D D₁ hmove hsafe) hsave
    have hframe := hsame₂ w.id
    -- the row read after the step is the one written before it
    have hget₃ : D₂.workflowRuns.get w.id = some { started w with version := v } :=
      hframe.get hget₁ hengine
    obtain rfl : row = { started w with version := v } :=
      Option.some.inj (hget₂.symm.trans hget₃)
    -- the step reports nothing about this run, so a report is the engine's
    have hreports : ∀ e : DomainEvent, e.reports w.id →
        (e ∈ D₂.domainEvents ↔ e ∈ D.domainEvents) := by
      intro e he
      rw [hframe.reports e he, hevents₁]
    have hreported : Reported w.id D₂ D' → Reported w.id D D' := by
      rintro ⟨e, he, hmem, hrest⟩
      refine ⟨e, he, hmem, fun e' he' hmem' => ?_⟩
      exact (hrest e' he' hmem').imp_left (hreports e' he').mp
    have hstarted : SameIdentity w { started w with version := v } := ⟨rfl, rfl, rfl, rfl, rfl, rfl⟩
    cases outcome with
    | error e =>
      obtain ⟨hsame, hattempts, hwaiting, hget, hstatus⟩ := stepFailed_spec hget₃ hfinish
      refine ⟨hstarted.trans hsame, hget, Or.inr ⟨htimed, hattempts, ?_⟩⟩
      rcases hstatus with ⟨hfailed, hreport⟩ | ⟨hretrying, hlt, hnext, hevents⟩
      · exact Or.inl ⟨hfailed, hwaiting, hreported hreport⟩
      · refine Or.inr ⟨fun e he => ?_, Or.inl ⟨hretrying, hwaiting, ?_, hnext⟩⟩
        · rw [hevents]
          exact hreports e he
        · rw [hattempts, hsame.maxAttempts]
          exact hlt
    | ok outcome =>
      obtain ⟨hsame, hattempts, hget, hevents, hstatus⟩ := stepReturned_spec hget₃ hfinish
      refine ⟨hstarted.trans hsame, hget, Or.inr ⟨htimed, hattempts, Or.inr ⟨fun e he => ?_, ?_⟩⟩⟩
      · rw [hevents]
        exact hreports e he
      · rcases hstatus with ⟨-, hsucceeded, hwaiting⟩ | ⟨hpending, hwaiting, happroval⟩
        · exact Or.inr (Or.inl ⟨hsucceeded, hwaiting⟩)
        · refine Or.inr (Or.inr ⟨hpending, ?_⟩)
          rcases runs_savepoint.mp hsave with ⟨a, E, hrun, heq⟩ | ⟨e, hrun, heq⟩
          · obtain ⟨rfl, rfl⟩ : outcome = a ∧ D₂ = E := by simpa using heq
            cases outcome with
            | none => exact absurd rfl happroval
            | some outcome => exact ⟨_, _, outcome, _, hrun, happroval, hwaiting⟩
          · simp at heq

end Attempt

/-! ## The engine with a record of its attempts -/

/-- The step of a run was started at some time. -/
structure Execution where
  /-- the run whose step it was -/
  workflowId : Uuid
  /-- and when -/
  time : Instant
  deriving DecidableEq

/-- The step of a run in its nested transaction, and the entry for having started it.  An entry is
    made here, where the step runs, and nowhere else. -/
def startStep (definition : WorkflowDefinition) (event : EventEnvelope) (run : WorkflowRun)
    (now : Instant) : Tx (Except Error (Option WorkflowOutcome) × Execution) := do
  let outcome ← (definition.step event run).savepoint
  pure (outcome, ⟨run.id, now⟩)

/-- `execute`, statement by statement, with the entries of the steps it started. -/
def executeLogged (workflow : WorkflowRun) (definition : WorkflowDefinition)
    (event : EventEnvelope) (now : Instant) : Tx (WorkflowRun × List Execution) := do
  if timedOut workflow now then do
    let run ← terminalFailure workflow "Workflow timed out" false
    pure (run, [])
  else do
    let run ← flush .workflowRuns workflow (started workflow)
    audit run (some workflow.status) .running "Workflow attempt started"
    let started ← startStep definition event run now
    let found ← Tx.select fun D => D.workflowRuns.get run.id
    let run ← Tx.orThrow found .lookupError run.id.text
    let run ← finish run definition.policy started.1 now
    pure (run, [started.2])

/-- `handleEvent` with `executeLogged`. -/
def handleEventLogged [Digests] (engine : WorkflowEngine) (definitionName : String)
    (event : EventEnvelope) (now : Instant) : Tx (WorkflowRun × List Execution) := do
  let definition ← engine.definition definitionName
  let key := runKey definition.name event.eventId
  let found ← selectForUpdate .workflowRuns fun w => w.idempotencyKey = some key
  let workflow ← match found with
    | some workflow => pure workflow
    | none => create definition event now
  if workflow.status.isTerminal then pure (workflow, [])
  else executeLogged workflow definition event now

/-- `resume` with `executeLogged`. -/
def resumeLogged (engine : WorkflowEngine) (workflowId : Uuid) (now : Instant) :
    Tx (WorkflowRun × List Execution) := do
  let found ← selectForUpdate .workflowRuns fun w => w.id = workflowId
  let workflow ← Tx.orThrow found .lookupError workflowId.text
  let definition ← engine.definition (removePrefix workflow.workflowName)
  match workflow.sourceEventId with
  | none => do
    let run ← terminalFailure workflow "Workflow source event is missing" false
    pure (run, [])
  | some sourceEventId => do
    let workflow ← clearApproval workflow
    if workflow.nextRetryAt.any fun nextRetry => now < nextRetry then pure (workflow, [])
    else do
      let eventRecord ← Tx.select fun D => D.domainEvents.get sourceEventId
      match eventRecord with
      | none => do
        let run ← terminalFailure workflow "Workflow source event was not found" false
        pure (run, [])
      | some record => executeLogged workflow definition (DatabaseEventStore.toEnvelope record) now

/-- `resumeAll` with `resumeLogged`. -/
def resumeAllLogged (engine : WorkflowEngine) (now : Instant) :
    List WorkflowRun → Tx (List WorkflowRun × List Execution)
  | [] => pure ([], [])
  | workflow :: rest => do
    let first ← engine.resumeLogged workflow.id now
    let others ← resumeAllLogged engine now rest
    pure (first.1 :: others.1, first.2 ++ others.2)

/-- `retryDue` with `resumeAllLogged`. -/
def retryDueLogged (engine : WorkflowEngine) (now : Instant) (limit : Nat) :
    Tx (List WorkflowRun × List Execution) := do
  let workflows ← selectAllForUpdate .workflowRuns fun t => due now limit t.rows
  engine.resumeAllLogged now workflows

section Erasure

variable (engine : WorkflowEngine)

/-- **Without its entries the logged attempt is the attempt**, statement for statement. -/
theorem fst_executeLogged (workflow : WorkflowRun) (definition : WorkflowDefinition)
    (event : EventEnvelope) (now : Instant) :
    Prod.fst <$> executeLogged workflow definition event now =
      execute workflow definition event now := by
  unfold executeLogged execute
  split
  · rw [map_bind]
    simp
  · rw [map_bind]
    refine bind_congr fun run => ?_
    rw [map_bind]
    refine bind_congr fun _ => ?_
    rw [map_bind, startStep, bind_assoc]
    refine bind_congr fun outcome => ?_
    rw [pure_bind, map_bind]
    refine bind_congr fun found => ?_
    rw [map_bind]
    refine bind_congr fun run => ?_
    cases outcome <;> simp [finish]

/-- **The record is no part of the run**: without it the calls are those of the engine. -/
theorem fst_handleEventLogged [Digests] (name : String) (event : EventEnvelope) (now : Instant) :
    Prod.fst <$> engine.handleEventLogged name event now = engine.handleEvent name event now := by
  unfold handleEventLogged handleEvent
  rw [map_bind]
  refine bind_congr fun definition => ?_
  rw [map_bind]
  refine bind_congr fun found => ?_
  have hrest : ∀ workflow : WorkflowRun,
      Prod.fst <$> (if workflow.status.isTerminal = true then pure (workflow, [])
        else executeLogged workflow definition event now : Tx (WorkflowRun × List Execution)) =
      if workflow.status.isTerminal = true then pure workflow
        else execute workflow definition event now := by
    intro workflow
    split
    · simp
    · exact fst_executeLogged _ _ _ _
  cases found with
  | some workflow => exact hrest workflow
  | none =>
    dsimp only
    rw [map_bind]
    exact bind_congr hrest

/-- The record is no part of a resumption. -/
theorem fst_resumeLogged (workflowId : Uuid) (now : Instant) :
    Prod.fst <$> engine.resumeLogged workflowId now = engine.resume workflowId now := by
  unfold resumeLogged resume
  rw [map_bind]
  refine bind_congr fun found => ?_
  rw [map_bind]
  refine bind_congr fun workflow => ?_
  rw [map_bind]
  refine bind_congr fun definition => ?_
  cases workflow.sourceEventId with
  | none => simp
  | some sourceEventId =>
    dsimp only
    rw [map_bind]
    refine bind_congr fun workflow => ?_
    split
    · simp
    · rw [map_bind]
      refine bind_congr fun eventRecord => ?_
      cases eventRecord with
      | none => simp
      | some record => exact fst_executeLogged _ _ _ _

/-- The record is no part of a retry pass, by induction on its runs. -/
theorem fst_resumeAllLogged (now : Instant) (workflows : List WorkflowRun) :
    Prod.fst <$> engine.resumeAllLogged now workflows = engine.resumeAll now workflows := by
  induction workflows with
  | nil => simp [resumeAllLogged, resumeAll]
  | cons workflow rest ih =>
    unfold resumeAllLogged resumeAll
    rw [← fst_resumeLogged, ← ih]
    simp

/-- The record is no part of a retry pass, the selection of its runs included. -/
theorem fst_retryDueLogged (now : Instant) (limit : Nat) :
    Prod.fst <$> engine.retryDueLogged now limit = engine.retryDue now limit := by
  unfold retryDueLogged retryDue
  rw [map_bind]
  exact bind_congr fun workflows => fst_resumeAllLogged engine now workflows

end Erasure

/-! ## What each call does -/

section Calls

variable {engine : WorkflowEngine} {run : WorkflowRun} {log : List Execution}
variable {now : Instant} {D D' : Db}

/-- A logged attempt is an attempt, and it has made one entry if the run had not timed out. -/
theorem executeLogged_runs {w : WorkflowRun} {definition : WorkflowDefinition}
    {event : EventEnvelope} (hcur : D.workflowRuns.get w.id = some w)
    (h : (executeLogged w definition event now).runs D (.ok ((run, log), D'))) :
    (execute w definition event now).runs D (.ok (run, D')) ∧
      log = if timedOut w now then [] else [⟨w.id, now⟩] := by
  constructor
  · rw [← fst_executeLogged]
    exact runs_bind_ok.mpr ⟨(run, log), D', h, rfl⟩
  · unfold executeLogged at h
    split at h
    · rename_i htimed
      obtain ⟨run', D₁, -, h₁⟩ := runs_bind_ok.mp h
      cases h₁
      rw [if_pos htimed]
    · rename_i htimed
      obtain ⟨row, D₁, hflush, h₁⟩ := runs_bind_ok.mp h
      have hid : (started w).id = w.id := rfl
      obtain ⟨⟨v, rfl⟩, -, -⟩ := flushRun_runs hid hcur hflush
      obtain ⟨_, D₂, -, h₂⟩ := runs_bind_ok.mp h₁
      obtain ⟨begun, D₃, hbegun, h₃⟩ := runs_bind_ok.mp h₂
      obtain ⟨outcome, D₄, -, h₄⟩ := runs_bind_ok.mp hbegun
      cases h₄
      obtain ⟨found, D₅, -, h₅⟩ := runs_bind_ok.mp h₃
      obtain ⟨run₁, D₆, -, h₆⟩ := runs_bind_ok.mp h₅
      obtain ⟨run₂, D₇, -, h₇⟩ := runs_bind_ok.mp h₆
      cases h₇
      rw [if_neg htimed]
      rfl

/-- The run a definition creates for an event. -/
structure Created [Digests] (definition : WorkflowDefinition) (event : EventEnvelope)
    (now : Instant) (w : WorkflowRun) (D D' : Db) : Prop where
  /-- no constraint is violated -/
  conflicts : D.workflowRuns.conflicts w = false
  /-- the run is added -/
  runs : D'.workflowRuns = D.workflowRuns.insert w
  /-- no event is -/
  events : D'.domainEvents = D.domainEvents
  /-- this is a move of the engine's own -/
  own : OwnMove D D'
  /-- it is named after its workflow -/
  name : w.workflowName = namePrefix ++ definition.name
  /-- and keyed by its event -/
  key : w.idempotencyKey = some (runKey definition.name event.eventId)
  /-- it waits for its first attempt -/
  status : w.status = .pending
  /-- none has been made -/
  attempts : w.attempts = 0
  /-- it waits for no approval -/
  waiting : w.waitingApprovalId = none
  /-- it has as many attempts as the policy gives -/
  maxAttempts : w.maxAttempts = definition.policy.maxAttempts
  /-- and as much time -/
  deadline : w.deadlineAt = some (now + seconds definition.policy.timeoutSeconds)
  /-- it remembers its event -/
  source : w.sourceEventId = some event.eventId

/-- The run that was created is on record. -/
theorem Created.get [Digests] {definition : WorkflowDefinition} {event : EventEnvelope}
    {w : WorkflowRun} (h : Created definition event now w D D') :
    D'.workflowRuns.get w.id = some w := by
  rw [h.runs]
  exact (Table.get_insert h.conflicts w.id).trans (if_pos rfl)

/-- What `create` returns is such a run. -/
theorem create_runs [Digests] {definition : WorkflowDefinition} {event : EventEnvelope}
    {w : WorkflowRun} (h : (create definition event now).runs D (.ok (w, D'))) :
    Created definition event now w D D' := by
  obtain ⟨id, D₁, ⟨env, hid⟩, h₁⟩ := runs_bind_ok.mp h
  cases hid
  obtain ⟨createdAt, D₂, ⟨env', hcreated⟩, h₂⟩ := runs_bind_ok.mp h₁
  cases hcreated
  obtain ⟨row, D₃, hadd, h₃⟩ := runs_bind_ok.mp h₂
  obtain ⟨hrow, hconflicts, rfl⟩ := runs_insert.mp hadd
  obtain ⟨_, D₄, haudit, h₄⟩ := runs_bind_ok.mp h₃
  cases h₄
  obtain ⟨hruns, hevents⟩ := audit_runs haudit
  subst hrow
  have hown : OwnMove D D' := by
    refine ⟨SameElsewhere.of_runs create_confined h, fun v hv => ⟨v, ?_, rfl, rfl⟩⟩
    rw [hruns]
    exact (Table.mem_insert hconflicts).mpr (Or.inl hv)
  exact ⟨hconflicts, hruns, hevents, hown, rfl, rfl, rfl, rfl, rfl, rfl, rfl, rfl⟩

/-- A run that is due waits for its retry. -/
theorem mem_due {limit : Nat} {workflows : List WorkflowRun} {w : WorkflowRun}
    (h : w ∈ due now limit workflows) :
    w ∈ workflows ∧ w.isEngineRun = true ∧ w.status = .retrying := by
  have hmem := (List.mem_insertionSort _).mp (List.mem_of_mem_take h)
  simp only [List.mem_filter, decide_eq_true_eq] at hmem
  refine ⟨hmem.1, ?_, hmem.2.2.1⟩
  rw [WorkflowRun.isEngineRun, hmem.2.1, Bool.true_or]

/-- A retry pass takes up each run once. -/
theorem pairwise_due (limit : Nat) (t : Table WorkflowRun) :
    (due now limit t.rows).Pairwise fun w v => w.id ≠ v.id := by
  have hrows : t.rows.Pairwise fun w v => w.id ≠ v.id := t.distinct.imp fun h => h.1
  have hfilter := hrows.filter (p := fun w =>
    isOrchestrated w.workflowName ∧ w.status = .retrying ∧
      w.nextRetryAt.any fun nextRetry => nextRetry ≤ now)
  refine List.Pairwise.take ?_
  exact ((List.perm_insertionSort _ _).pairwise_iff fun h => Ne.symm h).mpr hfilter

/-- A run that waits for no approval has none cleared. -/
theorem clearApproval_none {w w₁ : WorkflowRun} {D₁ : Db} (hnone : w.waitingApprovalId = none)
    (h : (clearApproval w).runs D (.ok (w₁, D₁))) : w₁ = w ∧ D₁ = D := by
  unfold clearApproval at h
  rw [hnone] at h
  cases h
  exact ⟨rfl, rfl⟩

/-- What a delivery does, by what it finds of its run. -/
inductive Delivered [Digests] (definition : WorkflowDefinition) (event : EventEnvelope)
    (now : Instant) (run : WorkflowRun) (log : List Execution) (D D' : Db) : Prop
  /-- the run is over, and is left as it is -/
  | ended (hcur : D.workflowRuns.get run.id = some run)
    (hkey : run.idempotencyKey = some (runKey definition.name event.eventId))
    (hstatus : run.status.isTerminal = true) (hlog : log = []) (hD : D' = D)
  /-- the run is taken up -/
  | again (w : WorkflowRun) (hcur : D.workflowRuns.get w.id = some w)
    (hkey : w.idempotencyKey = some (runKey definition.name event.eventId))
    (hstatus : w.status.isTerminal = false)
    (hrun : (executeLogged w definition event now).runs D (.ok ((run, log), D')))
  /-- the run is created -/
  | anew (w : WorkflowRun) (D₁ : Db)
    (hnone : ∀ v ∈ D.workflowRuns,
      v.idempotencyKey ≠ some (runKey definition.name event.eventId))
    (hcreated : Created definition event now w D D₁)
    (hrun : (executeLogged w definition event now).runs D₁ (.ok ((run, log), D')))

/-- **A delivery** finds its workflow registered, and does one of these. -/
theorem handleEventLogged_runs [Digests] {name : String} {event : EventEnvelope}
    (h : (engine.handleEventLogged name event now).runs D (.ok ((run, log), D'))) :
    ∃ definition, engine.definitions name = some definition ∧
      Delivered definition event now run log D D' := by
  obtain ⟨definition, D₁, hdefinition, h₁⟩ := runs_bind_ok.mp h
  obtain ⟨hd, rfl⟩ := Tx.runs_orThrow.mp hdefinition
  refine ⟨definition, hd, ?_⟩
  obtain ⟨found, D₂, hselect, h₂⟩ := runs_bind_ok.mp h₁
  obtain ⟨hfound, rfl⟩ := runs_selectForUpdate.mp hselect
  cases found with
  | some w =>
    have hmem : w ∈ D.workflowRuns := List.mem_of_find?_eq_some hfound.symm
    have hcur : D.workflowRuns.get w.id = some w := Table.get_of_mem hmem
    have hkey : w.idempotencyKey = some (runKey definition.name event.eventId) := by
      simpa using List.find?_some hfound.symm
    have h₃ : (if w.status.isTerminal = true then pure (w, [])
        else executeLogged w definition event now : Tx (WorkflowRun × List Execution)).runs D
          (.ok ((run, log), D')) := h₂
    split at h₃
    · rename_i hstatus
      cases h₃
      exact .ended hcur hkey hstatus rfl rfl
    · rename_i hstatus
      exact .again w hcur hkey (by simpa using hstatus) h₃
  | none =>
    obtain ⟨w, D₃, hcreate, h₃⟩ := runs_bind_ok.mp h₂
    have hcreated := create_runs hcreate
    dsimp only at h₃
    rw [hcreated.status] at h₃
    refine .anew w D₃ (fun v hv => ?_) hcreated h₃
    simpa using List.find?_eq_none.mp hfound.symm v hv

/-- The run as `clearApproval` leaves it. -/
theorem clearApproval_runs {w w' : WorkflowRun} (hcur : D.workflowRuns.get w.id = some w)
    (h : (clearApproval w).runs D (.ok (w', D'))) :
    (∃ v, w' = { w with waitingApprovalId := none, version := v }) ∧
      D'.workflowRuns.get w.id = some w' ∧ D'.domainEvents = D.domainEvents ∧
      ∀ a, w.waitingApprovalId = some a →
        ∃ approval, D.approvals.get a = some approval ∧ approval.status = .approved := by
  unfold clearApproval at h
  split at h
  · rename_i hnone
    cases h
    refine ⟨⟨w.version, ?_⟩, hcur, rfl, fun a ha => ?_⟩
    · cases w
      cases hnone
      rfl
    · rw [hnone] at ha
      cases ha
  · rename_i a hsome
    obtain ⟨approval, D₁, hselect, h₁⟩ := runs_bind_ok.mp h
    obtain ⟨happroval, rfl⟩ := Tx.runs_select.mp hselect
    obtain ⟨_, D₂, hrequire, h₂⟩ := runs_bind_ok.mp h₁
    obtain ⟨hgranted, rfl⟩ := Tx.runs_require.mp hrequire
    have hid : WorkflowRun.id { w with waitingApprovalId := none } = w.id := rfl
    obtain ⟨hrow, hget, hevents⟩ := flushRun_runs hid hcur h₂
    refine ⟨hrow, hget, hevents, fun a' ha' => ?_⟩
    obtain rfl : a = a' := Option.some.inj (hsome.symm.trans ha')
    rw [happroval] at hgranted
    cases hget' : D.approvals.get a with
    | none =>
      rw [hget'] at hgranted
      cases hgranted
    | some approval =>
      rw [hget'] at hgranted
      exact ⟨approval, rfl, by simpa using hgranted⟩

/-- Clearing an approval is a move of the engine's own. -/
theorem clearApproval_own {w w' : WorkflowRun} (hcur : D.workflowRuns.get w.id = some w)
    (h : (clearApproval w).runs D (.ok (w', D'))) : OwnMove D D' := by
  obtain ⟨⟨v, hw'⟩, hget, -, -⟩ := clearApproval_runs hcur h
  refine OwnMove.of_action (Tx.confined_mono clearApproval_confined (by decide))
    (fun i hne => clearApproval_beside hne) h hcur hget ?_
  rw [hw']
  rfl

/-- What a resumption does, by what it finds of its run. -/
inductive Resumed (definition : WorkflowDefinition) (w : WorkflowRun) (now : Instant)
    (run : WorkflowRun) (log : List Execution) (D D' : Db) : Prop
  /-- the run was not created for an event -/
  | sourceless (hsource : w.sourceEventId = none) (hlog : log = [])
    (hrun : (terminalFailure w "Workflow source event is missing" false).runs D (.ok (run, D')))
  /-- its next retry is not due -/
  | early (hclear : (clearApproval w).runs D (.ok (run, D'))) (hlog : log = [])
    (hnext : ∃ next, w.nextRetryAt = some next ∧ now < next)
  /-- its event is gone -/
  | eventless (w₁ : WorkflowRun) (D₁ : Db) (hclear : (clearApproval w).runs D (.ok (w₁, D₁)))
    (hnext : ∀ next, w.nextRetryAt = some next → next ≤ now) (hlog : log = [])
    (hrun : (terminalFailure w₁ "Workflow source event was not found" false).runs D₁
      (.ok (run, D')))
  /-- the run is taken up -/
  | again (w₁ : WorkflowRun) (D₁ : Db) (record : DomainEvent)
    (hclear : (clearApproval w).runs D (.ok (w₁, D₁)))
    (hnext : ∀ next, w.nextRetryAt = some next → next ≤ now)
    (hrun : (executeLogged w₁ definition (DatabaseEventStore.toEnvelope record) now).runs D₁
      (.ok ((run, log), D')))

/-- **A resumption** finds its run and its workflow, and does one of these. -/
theorem resumeLogged_runs {i : Uuid}
    (h : (engine.resumeLogged i now).runs D (.ok ((run, log), D'))) :
    ∃ w definition, D.workflowRuns.get i = some w ∧
      engine.definitions (removePrefix w.workflowName) = some definition ∧
      Resumed definition w now run log D D' := by
  obtain ⟨found, D₁, hselect, h₁⟩ := runs_bind_ok.mp h
  obtain ⟨hfound, rfl⟩ := runs_selectForUpdate.mp hselect
  obtain ⟨w, D₂, hthrow, h₂⟩ := runs_bind_ok.mp h₁
  obtain ⟨hw, rfl⟩ := Tx.runs_orThrow.mp hthrow
  obtain ⟨definition, D₃, hdefinition, h₃⟩ := runs_bind_ok.mp h₂
  obtain ⟨hd, rfl⟩ := Tx.runs_orThrow.mp hdefinition
  have hcur : D.workflowRuns.get i = some w := hfound.symm.trans hw
  refine ⟨w, definition, hcur, hd, ?_⟩
  have hid : w.id = i := Table.key_of_get hcur
  rw [← hid] at hcur
  cases hsource : w.sourceEventId with
  | none =>
    rw [hsource] at h₃
    obtain ⟨run', D₄, hfail, h₄⟩ := runs_bind_ok.mp h₃
    cases h₄
    exact .sourceless hsource rfl hfail
  | some sourceEventId =>
    rw [hsource] at h₃
    obtain ⟨w₁, D₄, hclear, h₄⟩ := runs_bind_ok.mp h₃
    obtain ⟨⟨v, hw₁⟩, -, -, -⟩ := clearApproval_runs hcur hclear
    have hnext₁ : w₁.nextRetryAt = w.nextRetryAt := by rw [hw₁]
    split at h₄
    · rename_i hearly
      cases h₄
      refine .early hclear rfl ?_
      rw [hnext₁] at hearly
      obtain ⟨next, hnext, hlt⟩ := (Option.any_eq_true _ _).mp hearly
      exact ⟨next, hnext, by simpa using hlt⟩
    · rename_i hdue
      rw [hnext₁] at hdue
      have hdue' : ∀ next, w.nextRetryAt = some next → next ≤ now := by
        intro next hnext
        simpa [hnext] using hdue
      obtain ⟨record, D₅, hselect', h₅⟩ := runs_bind_ok.mp h₄
      obtain ⟨hrecord, rfl⟩ := Tx.runs_select.mp hselect'
      cases record with
      | none =>
        obtain ⟨run', D₆, hfail, h₆⟩ := runs_bind_ok.mp h₅
        cases h₆
        exact .eventless w₁ D₄ hclear hdue' rfl hfail
      | some record => exact .again w₁ D₄ record hclear hdue' h₅

end Calls

end WorkflowEngine

end CommerceOperations
