/-
  The life of a workflow run.

  Histories of deliveries, resumptions and retry passes, each a transaction of its own, and what
  becomes of a run in them.  A delivery and a retry pass leave a run that is over alone; a
  resumption does not ask whether its run is over, so it is where a run comes back to life.
-/
import CommerceOperations.Workflows.Runs

namespace CommerceOperations

open Relational Prog WorkflowEngine

/-! ## Calls and histories -/

/-- The entry points of the engine. -/
inductive EngineCall where
  | deliver (definitionName : String) (event : EventEnvelope) (now : Instant)
  | resume (workflowId : Uuid) (now : Instant)
  | retry (now : Instant) (limit : Nat)

/-- The transaction of a call, as the engine has it. -/
def EngineCall.transaction [Digests] (engine : WorkflowEngine) : EngineCall → Tx Unit
  | deliver definitionName event now => do
    let _ ← engine.handleEvent definitionName event now
    pure ()
  | resume workflowId now => do
    let _ ← engine.resume workflowId now
    pure ()
  | retry now limit => do
    let _ ← engine.retryDue now limit
    pure ()

/-- The transaction of a call; its value is the record of the attempts it made. -/
def EngineCall.run [Digests] (engine : WorkflowEngine) : EngineCall → Tx (List Execution)
  | deliver definitionName event now => do
    let result ← engine.handleEventLogged definitionName event now
    pure result.2
  | resume workflowId now => do
    let result ← engine.resumeLogged workflowId now
    pure result.2
  | retry now limit => do
    let result ← engine.retryDueLogged now limit
    pure result.2

/-- Calls made one after the other, each meeting `ok` on the state it finds, with the attempts
    each of them made. -/
abbrev EngineHistory [Digests] (engine : WorkflowEngine) (ok : EngineCall → Db → Prop) (D₀ : Db) :
    List (EngineCall × List Execution) → Db → Prop :=
  Serial (fun c log D D' => ok c D ∧ (c.run engine).runs D (.ok (log, D'))) D₀

/-- The calls of a history as the engine has them, without a record. -/
abbrev CallHistory [Digests] (engine : WorkflowEngine) (ok : EngineCall → Db → Prop) (D₀ : Db) :
    List (EngineCall × Unit) → Db → Prop :=
  Serial (fun c u D D' => ok c D ∧ (c.transaction engine).runs D (.ok (u, D'))) D₀

section Record

variable [Digests] {engine : WorkflowEngine}

/-- The record is made beside the call and changes nothing in it: without it a call is the
    engine's, statement for statement. -/
theorem EngineCall.forget_run (c : EngineCall) :
    (do let _ ← c.run engine; pure () : Tx Unit) = c.transaction engine := by
  have hforget : ∀ {α : Type} (p : Tx (α × List Execution)),
      (do let _ ← (do let result ← p; pure result.2 : Tx (List Execution)); pure () : Tx Unit) =
        (do let _ ← Prod.fst <$> p; pure ()) := by
    intro α p
    simp
  cases c with
  | deliver name event now =>
    rw [EngineCall.run, hforget, fst_handleEventLogged]
    rfl
  | resume workflowId now =>
    rw [EngineCall.run, hforget, fst_resumeLogged]
    rfl
  | retry now limit =>
    rw [EngineCall.run, hforget, fst_retryDueLogged]
    rfl

/-- A call of the engine and a recorded one lead to the same states. -/
theorem EngineCall.transaction_runs {c : EngineCall} {u : Unit} {D D' : Db} :
    (c.transaction engine).runs D (.ok (u, D')) ↔
      ∃ log, (c.run engine).runs D (.ok (log, D')) := by
  rw [← EngineCall.forget_run]
  constructor
  · intro h
    obtain ⟨log, D₁, hrun, h₁⟩ := runs_bind_ok.mp h
    cases h₁
    exact ⟨log, hrun⟩
  · rintro ⟨log, hrun⟩
    exact runs_bind_ok.mpr ⟨log, D', hrun, rfl⟩

/-- **Histories with a record are the engine's histories**: they make the same calls and go through
    the same states, and every history of the engine has a record.  What is proved of the states
    and the records below is thus about the calls of the engine itself. -/
theorem callHistory_iff {ok : EngineCall → Db → Prop} {D₀ D : Db}
    {calls : List (EngineCall × Unit)} :
    CallHistory engine ok D₀ calls D ↔
      ∃ trace, EngineHistory engine ok D₀ trace D ∧ trace.map (fun c => (c.1, ())) = calls := by
  rw [← Serial.forget_iff fun _ : List Execution => ()]
  constructor
  · intro h
    refine h.mono fun c u D D' hc => ?_
    obtain ⟨log, hlog⟩ := EngineCall.transaction_runs.mp hc.2
    exact ⟨log, rfl, hc.1, hlog⟩
  · intro h
    refine h.mono fun c u D D' hc => ?_
    obtain ⟨log, -, hok, hlog⟩ := hc
    exact ⟨hok, EngineCall.transaction_runs.mpr ⟨log, hlog⟩⟩

end Record

/-- The attempts at one run in a history. -/
def executions (trace : List (EngineCall × List Execution)) (i : Uuid) : List Execution :=
  (trace.flatMap (·.2)).filter fun e => e.workflowId = i

/-- The attempts of a further call come last. -/
theorem executions_append (trace : List (EngineCall × List Execution)) (c : EngineCall)
    (log : List Execution) (i : Uuid) :
    executions (trace ++ [(c, log)]) i =
      executions trace i ++ log.filter fun e => e.workflowId = i := by
  simp [executions]

/-! ## Calls about other runs -/

/-- The call was not about run `i`. -/
structure Away (i : Uuid) (log : List Execution) (D D' : Db) : Prop where
  /-- the run and the reports of its failure are as before -/
  frame : Frame i D D'
  /-- and its step was not started -/
  log : ∀ e ∈ log, e.workflowId ≠ i

/-- A call about other runs adds no attempt at this one. -/
theorem Away.filter {i : Uuid} {log : List Execution} {D D' : Db} (h : Away i log D D') :
    log.filter (fun e => e.workflowId = i) = [] := by
  rw [List.filter_eq_nil_iff]
  intro e he hid
  exact h.log e he (by simpa using hid)

section Away

variable {i : Uuid} {run w : WorkflowRun} {log : List Execution} {now : Instant} {D D' : Db}
variable {definition : WorkflowDefinition} {event : EventEnvelope} {safe : Db → Prop}
variable (hown : ∀ D D', OwnMove D D' → safe D → safe D')

section Single

variable (hstep : definition.step.LeavesRuns safe)

include hown hstep

/-- An attempt at another run is such a call: it writes its own run, and its step writes none. -/
theorem executeLogged_away (hsafe : safe D) (hne : w.id ≠ i)
    (hcur : D.workflowRuns.get w.id = some w)
    (h : (executeLogged w definition event now).runs D (.ok ((run, log), D'))) :
    Away i log D D' := by
  obtain ⟨hrun, rfl⟩ := executeLogged_runs hcur h
  refine ⟨execute_frame hstep hown hsafe hrun hne hcur, fun e he => ?_⟩
  split at he
  · exact absurd he List.not_mem_nil
  · rw [List.mem_singleton.mp he]
    exact hne

/-- An attempt keeps the database safe. -/
theorem executeLogged_safe (hsafe : safe D) (hcur : D.workflowRuns.get w.id = some w)
    (h : (executeLogged w definition event now).runs D (.ok ((run, log), D'))) : safe D' :=
  execute_safe hstep hown hsafe hcur (executeLogged_runs hcur h).1

/-- A resumption keeps the database safe: what it does before its attempt are moves of the
    engine's own. -/
theorem WorkflowEngine.Resumed.keepsSafe (hsafe : safe D) (hcur : D.workflowRuns.get w.id = some w)
    (h : Resumed definition w now run log D D') : safe D' := by
  have hclear : ∀ {w₁ D₁}, (clearApproval w).runs D (.ok (w₁, D₁)) →
      safe D₁ ∧ (Db.workflowRuns D₁).get w₁.id = some w₁ := by
    intro w₁ D₁ hrun
    refine ⟨hown D D₁ (clearApproval_own hcur hrun) hsafe, ?_⟩
    obtain ⟨⟨v, hw₁⟩, hget, -, -⟩ := clearApproval_runs hcur hrun
    have hid : w₁.id = w.id := by rw [hw₁]
    rw [hid]
    exact hget
  cases h with
  | sourceless hsource hlog hrun => exact hown D D' (terminalFailure_own hcur hrun) hsafe
  | early hrun hlog hnext => exact (hclear hrun).1
  | eventless w₁ D₁ hrun₁ hnext hlog hrun =>
    obtain ⟨hsafe₁, hcur₁⟩ := hclear hrun₁
    exact hown D₁ D' (terminalFailure_own hcur₁ hrun) hsafe₁
  | again w₁ D₁ record hrun₁ hnext hrun =>
    obtain ⟨hsafe₁, hcur₁⟩ := hclear hrun₁
    exact executeLogged_safe hown hstep hsafe₁ hcur₁ hrun

/-- A resumption of another run is about that run from its first write to its last. -/
theorem WorkflowEngine.Resumed.away (hsafe : safe D) (hne : w.id ≠ i)
    (hcur : D.workflowRuns.get w.id = some w) (h : Resumed definition w now run log D D') :
    Away i log D D' := by
  have hclear : ∀ {w₁ D₁}, (clearApproval w).runs D (.ok (w₁, D₁)) →
      Frame i D D₁ ∧ w₁.id = w.id ∧ (Db.workflowRuns D₁).get w₁.id = some w₁ := by
    intro w₁ D₁ hrun
    obtain ⟨⟨v, hw₁⟩, hget, -, -⟩ := clearApproval_runs hcur hrun
    have hid : w₁.id = w.id := by rw [hw₁]
    refine ⟨Frame.of_runs (clearApproval_beside hne) hrun, hid, ?_⟩
    rw [hid]
    exact hget
  cases h with
  | sourceless hsource hlog hrun =>
    subst hlog
    exact ⟨Frame.of_runs (terminalFailure_beside hne) hrun, nofun⟩
  | early hrun hlog hnext =>
    subst hlog
    exact ⟨(hclear hrun).1, nofun⟩
  | eventless w₁ D₁ hrun₁ hnext hlog hrun =>
    subst hlog
    obtain ⟨hframe, hid, -⟩ := hclear hrun₁
    have hne₁ : w₁.id ≠ i := by rw [hid]; exact hne
    exact ⟨hframe.trans (Frame.of_runs (terminalFailure_beside hne₁) hrun), nofun⟩
  | again w₁ D₁ record hrun₁ hnext hrun =>
    obtain ⟨hframe, hid, hcur₁⟩ := hclear hrun₁
    have hne₁ : w₁.id ≠ i := by rw [hid]; exact hne
    have hsafe₁ := hown D D₁ (clearApproval_own hcur hrun₁) hsafe
    have haway := executeLogged_away hown hstep hsafe₁ hne₁ hcur₁ hrun
    exact ⟨hframe.trans haway.frame, haway.log⟩

end Single

variable {engine : WorkflowEngine} (hleaves : engine.LeavesRuns safe)

include hleaves

/-- The call of a resumption of another run is not about this one. -/
theorem resumeLogged_away (hsafe : safe D) {j : Uuid} (hne : j ≠ i)
    (h : (engine.resumeLogged j now).runs D (.ok ((run, log), D'))) : Away i log D D' := by
  obtain ⟨w, definition, hw, hd, hresumed⟩ := resumeLogged_runs h
  have hid : w.id = j := Table.key_of_get hw
  refine hresumed.away hleaves.own (hleaves.steps _ definition hd) hsafe (by rw [hid]; exact hne) ?_
  rw [hid]
  exact hw

/-- The call of a resumption keeps the database safe. -/
theorem resumeLogged_safe (hsafe : safe D) {j : Uuid}
    (h : (engine.resumeLogged j now).runs D (.ok ((run, log), D'))) : safe D' := by
  obtain ⟨w, definition, hw, hd, hresumed⟩ := resumeLogged_runs h
  have hid : w.id = j := Table.key_of_get hw
  refine hresumed.keepsSafe hleaves.own (hleaves.steps _ definition hd) hsafe ?_
  rw [hid]
  exact hw

/-- A retry pass keeps the database safe, by induction on its runs. -/
theorem resumeAllLogged_safe {workflows runs : List WorkflowRun} (hsafe : safe D)
    (h : (engine.resumeAllLogged now workflows).runs D (.ok ((runs, log), D'))) : safe D' := by
  induction workflows generalizing D runs log with
  | nil =>
    cases h
    exact hsafe
  | cons w rest ih =>
    obtain ⟨⟨run, log₁⟩, D₁, hfirst, h₁⟩ := runs_bind_ok.mp h
    obtain ⟨⟨runs₂, log₂⟩, D₂, hrest, h₂⟩ := runs_bind_ok.mp h₁
    cases h₂
    exact ih (resumeLogged_safe hleaves hsafe hfirst) hrest

/-- A retry pass over other runs, by induction on them. -/
theorem resumeAllLogged_away {workflows runs : List WorkflowRun} (hsafe : safe D)
    (hne : ∀ w ∈ workflows, w.id ≠ i)
    (h : (engine.resumeAllLogged now workflows).runs D (.ok ((runs, log), D'))) :
    Away i log D D' := by
  induction workflows generalizing D runs log with
  | nil =>
    cases h
    exact ⟨Frame.refl i _, nofun⟩
  | cons w rest ih =>
    obtain ⟨⟨run, log₁⟩, D₁, hfirst, h₁⟩ := runs_bind_ok.mp h
    obtain ⟨⟨runs₂, log₂⟩, D₂, hrest, h₂⟩ := runs_bind_ok.mp h₁
    cases h₂
    have haway₁ := resumeLogged_away hleaves hsafe (hne w List.mem_cons_self) hfirst
    have hsafe₁ := resumeLogged_safe hleaves hsafe hfirst
    have haway₂ := ih hsafe₁ (fun v hv => hne v (List.mem_cons_of_mem w hv)) hrest
    refine ⟨haway₁.frame.trans haway₂.frame, fun e he => ?_⟩
    rcases List.mem_append.mp he with he | he
    · exact haway₁.log e he
    · exact haway₂.log e he

/-- A delivery keeps the database safe: the run it may create is the engine's own move. -/
theorem WorkflowEngine.Delivered.keepsSafe [Digests] {name : String}
    (hd : engine.definitions name = some definition) (hsafe : safe D)
    (h : Delivered definition event now run log D D') : safe D' := by
  have hstep := hleaves.steps name definition hd
  cases h with
  | ended hcur hkey hstatus hlog hD =>
    subst hD
    exact hsafe
  | again w hcur hkey hstatus hrun => exact executeLogged_safe hleaves.own hstep hsafe hcur hrun
  | anew w D₁ hnone hcreated hrun =>
    exact executeLogged_safe hleaves.own hstep (hleaves.own D D₁ hcreated.own hsafe)
      hcreated.get hrun

/-- A delivery that is not for run `i`. -/
theorem WorkflowEngine.Delivered.away [Digests] {name : String}
    (hd : engine.definitions name = some definition) (hsafe : safe D)
    (hi : ∃ v, D.workflowRuns.get i = some v ∧ (v.status.isTerminal = true ∨
      v.idempotencyKey ≠ some (runKey definition.name event.eventId)))
    (h : Delivered definition event now run log D D') : Away i log D D' := by
  have hstep := hleaves.steps name definition hd
  obtain ⟨v, hv, hother⟩ := hi
  have hvi : v.id = i := Table.key_of_get hv
  cases h with
  | ended hcur hkey hstatus hlog hD =>
    subst hlog hD
    exact ⟨Frame.refl i _, nofun⟩
  | again w hcur hkey hstatus hrun =>
    refine executeLogged_away hleaves.own hstep hsafe (fun hid => ?_) hcur hrun
    rw [hid, hv] at hcur
    obtain rfl := Option.some.inj hcur
    rcases hother with hterminal | hkey'
    · rw [hstatus] at hterminal
      exact nomatch hterminal
    · exact hkey' hkey
  | anew w D₁ hnone hcreated hrun =>
    have hne : v.id ≠ w.id :=
      (Table.conflicts_eq_false.mp hcreated.conflicts v (Table.mem_of_get hv)).1
    have hframe : Frame i D D₁ := by
      refine ⟨fun u hu _ => ?_, fun e _ => by rw [hcreated.events]⟩
      rw [hcreated.runs, Table.mem_insert hcreated.conflicts, or_iff_left]
      rintro rfl
      exact hne (hvi.trans hu.symm)
    have hsafe₁ := hleaves.own D D₁ hcreated.own hsafe
    have haway := executeLogged_away hleaves.own hstep hsafe₁
      (fun hid => hne (hvi.trans hid.symm))
      hcreated.get hrun
    exact ⟨hframe.trans haway.frame, haway.log⟩

end Away

/-! ## An engine to run -/

/-- An engine with one workflow, which completes at once. -/
def sampleEngine : WorkflowEngine where
  definitions name :=
    if name = "job" then some ⟨"job", 1, fun _ _ => pure none, ⟨3, 300, 30⟩⟩ else none

/-- The event the runs below are about. -/
def sampleEvent : EventEnvelope where
  eventId := Uuid.ofNat 1
  eventVersion := 1
  occurredAt := 0
  producer := "commerce-operations"
  aggregateType := "order"
  aggregateId := Uuid.ofNat 2
  aggregateVersion := 1
  correlationId := Uuid.ofNat 3
  workflowId := none
  causationId := none
  idempotencyKey := "event-1"
  data := .orderCancelled (Uuid.ofNat 2) none

/-- The event is stored, and nothing else is. -/
def sampleOutbox : Db where
  table
    | .domainEvents => .singleton (DatabaseEventStore.record sampleEvent)
    | _ => ∅

/-- The first id handed out in the `k`-th call. -/
def sampleRunId (k : Nat) : Uuid := Uuid.ofNat (1000 * (k + 1))

/-- Some calls on `D`, from the `k`-th on. -/
def engineRun (engine : WorkflowEngine) (k : Nat) (calls : List EngineCall) (D : Db) :
    List (EngineCall × List Execution) × Db :=
  traceCalls (@EngineCall.run Digests.byEnding engine) Environment.numbered k calls [] D

/-- The one step of the sample engine writes nothing. -/
theorem sampleEngine_leavesRuns : sampleEngine.LeavesRuns fun _ => True := by
  refine ⟨fun name definition hd event run D outcome D' _ hrun => ?_, fun _ _ _ h => h⟩
  unfold sampleEngine at hd
  dsimp only at hd
  split at hd
  · obtain rfl := Option.some.inj hd
    cases hrun
    exact ⟨SameRuns.refl _, trivial⟩
  · exact nomatch hd

/-- The workflow has run for the event, and succeeded. -/
def finishedDb : Db := (engineRun sampleEngine 0 [.deliver "job" sampleEvent 5] sampleOutbox).2

/-- The run of that event is the engine's, it is over, and it took one attempt. -/
theorem finishedDb_run : ∃ w, finishedDb.workflowRuns.get (sampleRunId 0) = some w ∧
    w.isEngineRun = true ∧ w.status.isTerminal = true ∧ w.attempts = 1 := by
  have hany : (finishedDb.workflowRuns.get (sampleRunId 0)).any (fun w =>
      w.isEngineRun = true ∧ w.status.isTerminal = true ∧ w.attempts = 1) = true := by
    decide
  obtain ⟨w, hw, hrest⟩ := (Option.any_eq_true _ _).mp hany
  exact ⟨w, hw, by simpa using hrest⟩

/-! ## A run that is over -/

/-- The calls a worker makes: deliveries and retry passes. -/
def EngineCall.Scheduled : EngineCall → Db → Prop
  | resume _ _, _ => False
  | _, _ => True

/-- No resumption gets to a run that is over: its definition is not registered, its approval is
    not granted, or its next retry is not due. -/
def EngineCall.SparesTerminal (engine : WorkflowEngine) : EngineCall → Db → Prop
  | resume i now, D => ∀ w, D.workflowRuns.get i = some w → w.status.isTerminal = true →
      engine.definitions (removePrefix w.workflowName) = none ∨
        (w.sourceEventId ≠ none ∧
          ((∃ a, w.waitingApprovalId = some a ∧
              (D.approvals.get a).any (fun p => p.status = .approved) = false) ∨
            ∃ next, w.nextRetryAt = some next ∧ now < next))
  | _, _ => True

/-- What stays of a run that is over. -/
structure Settled (i : Uuid) (w : WorkflowRun) (D D' : Db) : Prop where
  /-- the run is there, with its status and its attempts -/
  row : ∃ w', D'.workflowRuns.get i = some w' ∧ w'.status = w.status ∧ w'.attempts = w.attempts ∧
    w'.isEngineRun = w.isEngineRun
  /-- and no failure of it was reported -/
  reports : ∀ e : DomainEvent, e.reports i → (e ∈ D'.domainEvents ↔ e ∈ D.domainEvents)

section Terminal

variable [Digests] {engine : WorkflowEngine} {i : Uuid} {w : WorkflowRun} {D D' D₀ : Db}
variable {safe : Db → Prop}

/-- Every call keeps the database safe. -/
theorem EngineCall.run_safe (hleaves : engine.LeavesRuns safe) {c : EngineCall}
    {log : List Execution} (hsafe : safe D) (hrun : (c.run engine).runs D (.ok (log, D'))) :
    safe D' := by
  cases c with
  | deliver name event now =>
    obtain ⟨⟨run, log'⟩, D₁, hdeliver, h₁⟩ := runs_bind_ok.mp hrun
    cases h₁
    obtain ⟨definition, hd, hdelivered⟩ := handleEventLogged_runs hdeliver
    exact hdelivered.keepsSafe hleaves hd hsafe
  | resume j now =>
    obtain ⟨⟨run, log'⟩, D₁, hresume, h₁⟩ := runs_bind_ok.mp hrun
    cases h₁
    exact resumeLogged_safe hleaves hsafe hresume
  | retry now limit =>
    obtain ⟨⟨runs, log'⟩, D₁, hretry, h₁⟩ := runs_bind_ok.mp hrun
    cases h₁
    obtain ⟨workflows, D₂, hselect, hall⟩ := runs_bind_ok.mp hretry
    obtain ⟨rfl, rfl⟩ := runs_selectAllForUpdate.mp hselect
    exact resumeAllLogged_safe hleaves hsafe hall

/-- A history keeps the database safe, by induction on its calls. -/
theorem EngineHistory.keepsSafe (hleaves : engine.LeavesRuns safe) {ok : EngineCall → Db → Prop}
    {trace : List (EngineCall × List Execution)} (hsafe : safe D₀)
    (h : EngineHistory engine ok D₀ trace D) : safe D :=
  Serial.inv hsafe (fun _ _ _ _ hD hc => EngineCall.run_safe hleaves hD hc.2) h

/-- A worker's call is not about a run that is over. -/
theorem EngineCall.run_away (hleaves : engine.LeavesRuns safe) {c : EngineCall}
    {log : List Execution} (hsafe : safe D) (hc : c.Scheduled D)
    (hw : D.workflowRuns.get i = some w)
    (hterminal : w.status.isTerminal = true)
    (hrun : (c.run engine).runs D (.ok (log, D'))) : Away i log D D' := by
  cases c with
  | deliver name event now =>
    obtain ⟨⟨run, log'⟩, D₁, hdeliver, h₁⟩ := runs_bind_ok.mp hrun
    cases h₁
    obtain ⟨definition, hd, hdelivered⟩ := handleEventLogged_runs hdeliver
    exact hdelivered.away hleaves hd hsafe ⟨w, hw, Or.inl hterminal⟩
  | resume j now => exact hc.elim
  | retry now limit =>
    obtain ⟨⟨runs, log'⟩, D₁, hretry, h₁⟩ := runs_bind_ok.mp hrun
    cases h₁
    obtain ⟨workflows, D₂, hselect, hall⟩ := runs_bind_ok.mp hretry
    obtain ⟨rfl, rfl⟩ := runs_selectAllForUpdate.mp hselect
    refine resumeAllLogged_away hleaves hsafe (fun v hv hid => ?_) hall
    -- what a retry pass takes up is not over
    obtain ⟨hmem, -, hstatus⟩ := mem_due hv
    have hget : D.workflowRuns.get v.id = some v := Table.get_of_mem hmem
    rw [hid, hw] at hget
    rw [Option.some.inj hget, hstatus] at hterminal
    exact nomatch hterminal

/-- **One call** leaves a run that is over as it is. -/
theorem EngineCall.run_settled (hleaves : engine.LeavesRuns safe) {c : EngineCall}
    {log : List Execution} (hsafe : safe D) (hok : c.SparesTerminal engine D)
    (hw : D.workflowRuns.get i = some w)
    (hengine : w.isEngineRun = true) (hterminal : w.status.isTerminal = true)
    (hrun : (c.run engine).runs D (.ok (log, D'))) :
    Settled i w D D' ∧ log.filter (fun e => e.workflowId = i) = [] := by
  -- a call that stays away from the run leaves its row and reports nothing about it
  have hsettled : Away i log D D' →
      Settled i w D D' ∧ log.filter (fun e => e.workflowId = i) = [] := by
    intro haway
    exact ⟨⟨⟨w, haway.frame.get hw hengine, rfl, rfl, rfl⟩, haway.frame.reports⟩, haway.filter⟩
  cases c with
  | deliver name event now =>
    exact hsettled (EngineCall.run_away (c := .deliver name event now) hleaves hsafe trivial hw
      hterminal hrun)
  | resume j now =>
    obtain ⟨⟨run, log'⟩, D₁, hresume, h₁⟩ := runs_bind_ok.mp hrun
    cases h₁
    by_cases hij : j = i
    · -- the guards of the resumption stop it, or it only clears a granted approval
      subst hij
      obtain ⟨w', definition, hw', hd, hresumed⟩ := resumeLogged_runs hresume
      obtain rfl := Option.some.inj (hw.symm.trans hw')
      have hid : w.id = j := Table.key_of_get hw
      rw [← hid] at hw hok
      have hgranted : ∀ {w₁ D₁}, (clearApproval w).runs D (.ok (w₁, D₁)) →
          ∀ a, w.waitingApprovalId = some a →
            (D.approvals.get a).any (fun p => p.status = .approved) ≠ false := by
        intro w₁ D₁ hclear a ha
        obtain ⟨-, -, -, happroval⟩ := clearApproval_runs hw hclear
        obtain ⟨p, hp, hstatus⟩ := happroval a ha
        simp [hp, hstatus]
      rcases hok w hw hterminal with hnone | ⟨hsource, hstop⟩
      · rw [hd] at hnone
        cases hnone
      · have hstopped : ∀ {w₁ D₁}, (clearApproval w).runs D (.ok (w₁, D₁)) →
            (∀ next, w.nextRetryAt = some next → next ≤ now) → False := by
          intro w₁ D₁ hclear hnext
          rcases hstop with ⟨a, ha, hno⟩ | ⟨next, hnext', hlt⟩
          · exact hgranted hclear a ha hno
          · exact absurd (hnext next hnext') (not_le.mpr hlt)
        cases hresumed with
        | sourceless hnone _ _ => exact absurd hnone hsource
        -- only the approval is cleared: status, attempts and reports are as before
        | early hclear hlog _ =>
          obtain ⟨⟨v, hrow⟩, hget, hevents, -⟩ := clearApproval_runs hw hclear
          subst hlog
          refine ⟨⟨⟨run, ?_, ?_, ?_, ?_⟩, fun e _ => by rw [hevents]⟩, rfl⟩
          · rw [← hid]
            exact hget
          · rw [hrow]
          · rw [hrow]
          · rw [hrow]
            rfl
        | eventless w₁ D₁ hclear hnext _ _ => exact (hstopped hclear hnext).elim
        | again w₁ D₁ record hclear hnext _ => exact (hstopped hclear hnext).elim
    -- another run is resumed
    · exact hsettled (resumeLogged_away hleaves hsafe hij hresume)
  | retry now limit =>
    exact hsettled (EngineCall.run_away (c := .retry now limit) hleaves hsafe trivial hw hterminal
      hrun)

/-- **Run lemma.**  Over a whole history, too: by induction on the calls, each of which starts from
    what the ones before it left of the run. -/
theorem EngineHistory.settled {trace : List (EngineCall × List Execution)}
    (hleaves : engine.LeavesRuns safe) (hsafe : safe D₀)
    (hw : D₀.workflowRuns.get i = some w) (hengine : w.isEngineRun = true)
    (hterminal : w.status.isTerminal = true)
    (h : EngineHistory engine (EngineCall.SparesTerminal engine) D₀ trace D) :
    Settled i w D₀ D ∧ executions trace i = [] := by
  induction h with
  | nil => exact ⟨⟨⟨w, hw, rfl, rfl, rfl⟩, fun _ _ => Iff.rfl⟩, rfl⟩
  | snoc h hc ih =>
    obtain ⟨hsettled, hlog⟩ := ih
    have hsafe₁ := EngineHistory.keepsSafe hleaves hsafe h
    obtain ⟨w₁, hw₁, hstatus, hattempts, hname⟩ := hsettled.row
    have hengine₁ : w₁.isEngineRun = true := by rw [hname]; exact hengine
    have hterminal₁ : w₁.status.isTerminal = true := by rw [hstatus]; exact hterminal
    obtain ⟨hnext, hempty⟩ := EngineCall.run_settled hleaves hsafe₁ hc.1 hw₁ hengine₁
      hterminal₁ hc.2
    obtain ⟨w₂, hw₂, hstatus₂, hattempts₂, hname₂⟩ := hnext.row
    refine ⟨⟨⟨w₂, hw₂, hstatus₂.trans hstatus, hattempts₂.trans hattempts,
      hname₂.trans hname⟩, fun e he => (hnext.reports e he).trans (hsettled.reports e he)⟩, ?_⟩
    rw [executions_append, hlog, hempty]
    rfl

/-- **A run that is over stays over**, in every history whose resumptions spare such runs: its
    status is kept, its step is not started again, and no failure of it is reported. -/
theorem terminal_run_is_left {trace : List (EngineCall × List Execution)}
    (hleaves : engine.LeavesRuns safe) (hsafe : safe D₀)
    (hw : D₀.workflowRuns.get i = some w) (hengine : w.isEngineRun = true)
    (hterminal : w.status.isTerminal = true)
    (h : EngineHistory engine (EngineCall.SparesTerminal engine) D₀ trace D) :
    (∃ w', D.workflowRuns.get i = some w' ∧ w'.status = w.status ∧ w'.attempts = w.attempts) ∧
      executions trace i = [] ∧
        ∀ e : DomainEvent, e.reports i → (e ∈ D.domainEvents ↔ e ∈ D₀.domainEvents) := by
  obtain ⟨⟨⟨w', hw', hstatus, hattempts, -⟩, hreports⟩, hlog⟩ :=
    EngineHistory.settled hleaves hsafe hw hengine hterminal h
  exact ⟨⟨w', hw', hstatus, hattempts⟩, hlog, hreports⟩

omit [Digests] in
/-- Redelivered, the event finds its run over. -/
theorem terminal_run_is_left_sample :
    executions (engineRun sampleEngine 1 [.deliver "job" sampleEvent 7] finishedDb).1
      (sampleRunId 0) = [] := by
  obtain ⟨w, hw, hengine, hterminal, -⟩ := finishedDb_run
  have hhistory : @EngineHistory Digests.byEnding sampleEngine
      (EngineCall.SparesTerminal sampleEngine) finishedDb
      (engineRun sampleEngine 1 [.deliver "job" sampleEvent 7] finishedDb).1
      (engineRun sampleEngine 1 [.deliver "job" sampleEvent 7] finishedDb).2 := by
    refine Serial.traceCalls Environment.numbered 1 _ (fun c hc D => ?_) Serial.nil
    rw [List.mem_singleton.mp hc]
    exact trivial
  exact (@terminal_run_is_left Digests.byEnding _ _ _ _ _ _ _ sampleEngine_leavesRuns trivial hw
    hengine hterminal hhistory).2.1

omit [Digests] in
/-- **A resumption revives a run that is over**: its step is started a second time. -/
theorem terminal_run_is_revived :
    ¬∀ (engine : WorkflowEngine) (i : Uuid) (w : WorkflowRun) (D₀ D : Db) trace,
      engine.LeavesRuns (fun _ => True) → D₀.workflowRuns.get i = some w →
        w.isEngineRun = true → w.status.isTerminal = true →
          @EngineHistory Digests.byEnding engine (fun _ _ => True) D₀ trace D →
            executions trace i = [] := by
  intro h
  obtain ⟨w, hw, hengine, hterminal, -⟩ := finishedDb_run
  have hnone := h sampleEngine (sampleRunId 0) w finishedDb _ _ sampleEngine_leavesRuns hw hengine
    hterminal (Serial.traceCalls Environment.numbered 1 [.resume (sampleRunId 0) 6]
      (fun _ _ _ => trivial) Serial.nil)
  revert hnone
  decide

end Terminal

end CommerceOperations
