/-
  Retries, and the report of a failure.

  Steps that never pause are driven by deliveries and retry passes alone.  Between two calls a run
  then waits for its next retry, has succeeded or has failed, and `RunBooks` relates its row to the
  outbox and to the attempts made: each attempt is counted, no attempt follows the deadline or the
  last one allowed, and a failure is reported once.

  A call opens the books of one run and closes them again:

  1. `RunBooksOff i` is what is left of the books while run `i` is being worked on;
  2. `Closed` says how its row stands when the attempt is over, one clause for each outcome;
  3. `RunBooksOff.close` puts the two together.

  The attempts themselves are in no table.  `Tally` compares the attempts a history has on record
  with the number in the row.  That no call meets a conflict in the outbox is a property of the same
  books: the key of a report is in use only if its run has failed, and such a run is not attempted.
-/
import CommerceOperations.Workflows.Lifecycle

namespace CommerceOperations

open Relational Prog WorkflowEngine

/-! ## Registered definitions -/

/-- What registration checks of a definition. -/
structure WorkflowDefinition.Registered (definition : WorkflowDefinition) (name : String) :
    Prop where
  /-- it goes by its own name -/
  name_eq : definition.name = name
  /-- it allows an attempt -/
  maxAttempts : 1 ≤ definition.policy.maxAttempts
  /-- and some time for it -/
  timeoutSeconds : 1 ≤ definition.policy.timeoutSeconds

/-- A registration adds the definition it has checked, and keeps those that were there. -/
theorem register_registered {engine engine' : WorkflowEngine} {definition : WorkflowDefinition}
    (h : engine.register definition = .ok engine')
    (hengine : ∀ name d, engine.definitions name = some d → d.Registered name) {name : String}
    {d : WorkflowDefinition} (hd : engine'.definitions name = some d) :
    d.Registered name ∧ (d = definition ∨ engine.definitions name = some d) := by
  unfold WorkflowEngine.register at h
  split at h
  · exact nomatch h
  · split at h
    · exact nomatch h
    · rename_i hpolicy
      cases h
      dsimp only at hd
      split at hd
      · rename_i hname
        obtain rfl := Option.some.inj hd
        exact ⟨⟨hname.symm, by omega, by omega⟩, Or.inl rfl⟩
      · exact ⟨hengine name d hd, Or.inr hd⟩

/-- What an engine has registered, by induction on the registrations. -/
theorem registerAll_registered {definitions : List WorkflowDefinition} {engine : WorkflowEngine}
    (h : WorkflowEngine.registerAll definitions = .ok engine) {name : String}
    {d : WorkflowDefinition} (hd : engine.definitions name = some d) :
    d.Registered name ∧ d ∈ definitions := by
  have hall : ∀ (ds : List WorkflowDefinition) (start : WorkflowEngine),
      (∀ name d, start.definitions name = some d → d.Registered name ∧
        (d ∈ definitions)) → (∀ d ∈ ds, d ∈ definitions) →
      ds.foldlM WorkflowEngine.register start = .ok engine →
        d.Registered name ∧ d ∈ definitions := by
    intro ds
    induction ds with
    | nil =>
      intro start hstart _ hfold
      cases hfold
      exact hstart name d hd
    | cons first rest ih =>
      intro start hstart hsub hfold
      rw [List.foldlM_cons] at hfold
      cases hregister : start.register first with
      | error e =>
        rw [hregister] at hfold
        exact nomatch hfold
      | ok next =>
        rw [hregister] at hfold
        refine ih next (fun name d hd => ?_) (fun d hd => hsub d (List.mem_cons_of_mem _ hd)) hfold
        obtain ⟨hregistered, hwhere⟩ :=
          register_registered hregister (fun name d hd => (hstart name d hd).1) hd
        refine ⟨hregistered, ?_⟩
        rcases hwhere with rfl | hbefore
        · exact hsub _ List.mem_cons_self
        · exact (hstart name d hbefore).2
  exact hall definitions .empty (fun _ _ h => nomatch h) (fun _ h => h) h

/-! ## The books of the runs -/

/-- A run of the engine between two calls. -/
structure RunOk (D : Db) (w : WorkflowRun) : Prop where
  /-- it waits for no approval -/
  waiting : w.waitingApprovalId = none
  /-- it has an event -/
  source : w.sourceEventId ≠ none
  /-- and a deadline -/
  deadline : w.deadlineAt.isSome = true
  /-- no attempt is beyond the last one allowed -/
  attempts : 0 ≤ w.attempts ∧ w.attempts ≤ w.maxAttempts
  /-- it waits for its next retry, has succeeded, or has failed and is reported -/
  status :
    (w.status = .retrying ∧ 1 ≤ w.attempts ∧ w.attempts < w.maxAttempts ∧
        w.nextRetryAt.isSome = true) ∨
      w.status = .succeeded ∨
        (w.status = .failed ∧ ∃ e ∈ D.domainEvents, ∃ name reason retryable,
          e.payload = .workflowFailed w.id name reason retryable)

/-- The books of all runs but `i`: each is in order, and a failure that is reported is the failure
    of one of them. -/
structure RunBooksOff (i : Uuid) (D : Db) : Prop where
  /-- the other runs are in order -/
  runs : ∀ w ∈ D.workflowRuns, w.id ≠ i → w.isEngineRun = true → RunOk D w
  /-- a reported failure is that of one of them -/
  reports : ∀ e ∈ D.domainEvents, ∀ j, e.reports j → j ≠ i ∧
    ∃ w ∈ D.workflowRuns, w.id = j ∧ w.isEngineRun = true ∧ w.status = .failed
  /-- and is reported once -/
  unique : ∀ e ∈ D.domainEvents, ∀ e' ∈ D.domainEvents, ∀ j, e.reports j → e'.reports j → e = e'

/-- The books of all runs, between two calls. -/
structure RunBooks (D : Db) : Prop where
  /-- every run of the engine is in order -/
  runs : ∀ w ∈ D.workflowRuns, w.isEngineRun = true → RunOk D w
  /-- a reported failure is that of one of them -/
  reports : ∀ e ∈ D.domainEvents, ∀ j, e.reports j →
    ∃ w ∈ D.workflowRuns, w.id = j ∧ w.isEngineRun = true ∧ w.status = .failed
  /-- and is reported once -/
  unique : ∀ e ∈ D.domainEvents, ∀ e' ∈ D.domainEvents, ∀ j, e.reports j → e'.reports j → e = e'

/-- At first there are neither runs of the engine nor reports of failures. -/
structure NoRuns (D : Db) : Prop where
  /-- no run is the engine's -/
  runs : ∀ w ∈ D.workflowRuns, w.isEngineRun = false
  /-- and no event reports a failure -/
  reports : ∀ e ∈ D.domainEvents, ∀ j, ¬e.reports j

namespace RunBooks

variable {D D' : Db}

/-- Without runs and reports the books are in order. -/
theorem of_noRuns (h : NoRuns D) : RunBooks D := by
  refine ⟨fun w hw hengine => ?_, fun e he j hj => ?_, fun e he _ _ j hj => ?_⟩
  · rw [h.runs w hw] at hengine
    exact nomatch hengine
  · exact absurd hj (h.reports e he j)
  · exact absurd hj (h.reports e he j)

/-- The books without those of a run that has not failed. -/
theorem off (h : RunBooks D) {w : WorkflowRun} (hw : D.workflowRuns.get w.id = some w)
    (hstatus : w.status ≠ .failed) : RunBooksOff w.id D := by
  refine ⟨fun v hv _ => h.runs v hv, fun e he j hj => ?_, h.unique⟩
  obtain ⟨v, hv, hid, hengine, hfailed⟩ := h.reports e he j hj
  refine ⟨?_, v, hv, hid, hengine, hfailed⟩
  rintro rfl
  obtain rfl := D.workflowRuns.eq_of_key_eq hv (Table.mem_of_get hw) hid
  exact hstatus hfailed

end RunBooks

/-- The row of a run once an attempt at it is over. -/
structure Closed (w : WorkflowRun) (D D' : Db) : Prop where
  /-- it is on record -/
  run : D'.workflowRuns.get w.id = some w
  /-- the other runs are as before -/
  frame : ∀ i, w.id ≠ i → Frame i D D'
  /-- it is the engine's -/
  name : w.isEngineRun = true
  /-- it waits for no approval -/
  waiting : w.waitingApprovalId = none
  /-- it has an event -/
  source : w.sourceEventId ≠ none
  /-- and a deadline -/
  deadline : w.deadlineAt.isSome = true
  /-- no attempt is beyond the last one allowed -/
  attempts : 0 ≤ w.attempts ∧ w.attempts ≤ w.maxAttempts
  /-- it has failed and is reported now; or nothing was reported, and it waits for its next retry or
      has succeeded -/
  status :
    (w.status = .failed ∧ Reported w.id D D') ∨
      ((∀ e : DomainEvent, e.reports w.id → (e ∈ D'.domainEvents ↔ e ∈ D.domainEvents)) ∧
        ((w.status = .retrying ∧ 1 ≤ w.attempts ∧ w.attempts < w.maxAttempts ∧
            w.nextRetryAt.isSome = true) ∨ w.status = .succeeded))

/-- **The books are closed again** by an attempt that is over. -/
theorem RunBooksOff.close {w : WorkflowRun} {D D' : Db} (h : RunBooksOff w.id D)
    (hclosed : Closed w D D') : RunBooks D' := by
  have hw : w ∈ D'.workflowRuns := Table.mem_of_get hclosed.run
  have hother : ∀ {j e}, e ∈ D'.domainEvents → DomainEvent.reports e j → w.id ≠ j →
      e ∈ D.domainEvents := fun he hj hne => ((hclosed.frame _ hne).reports _ hj).mp he
  -- reports of the run itself are those of this attempt
  have hown : ∀ e ∈ D.domainEvents, ¬e.reports w.id := fun e he hj =>
    (h.reports e he w.id hj).1 rfl
  refine ⟨fun v hv hengine => ?_, fun e he j hj => ?_, fun e he e' he' j hj hj' => ?_⟩
  · by_cases hid : v.id = w.id
    · obtain rfl := D'.workflowRuns.eq_of_key_eq hv hw hid
      refine ⟨hclosed.waiting, hclosed.source, hclosed.deadline, hclosed.attempts, ?_⟩
      rcases hclosed.status with ⟨hfailed, e, hpayload, he, -⟩ | ⟨-, hretrying | hsucceeded⟩
      · exact Or.inr (Or.inr ⟨hfailed, e, he, hpayload⟩)
      · exact Or.inl hretrying
      · exact Or.inr (Or.inl hsucceeded)
    · have hframe := hclosed.frame v.id (Ne.symm hid)
      obtain ⟨hwaiting, hsource, hdeadline, hattempts, hstatus⟩ :=
        h.runs v ((hframe.run v rfl hengine).mp hv) hid hengine
      refine ⟨hwaiting, hsource, hdeadline, hattempts, ?_⟩
      rcases hstatus with hretrying | hsucceeded | ⟨hfailed, e, he, hpayload⟩
      · exact Or.inl hretrying
      · exact Or.inr (Or.inl hsucceeded)
      · exact Or.inr (Or.inr ⟨hfailed, e, (hframe.reports e (Or.inr hpayload)).mpr he, hpayload⟩)
  · by_cases hid : w.id = j
    · subst hid
      rcases hclosed.status with ⟨hfailed, -⟩ | ⟨hsame, -⟩
      · exact ⟨w, hw, rfl, hclosed.name, hfailed⟩
      · exact absurd hj (hown e ((hsame e hj).mp he))
    · obtain ⟨-, v, hv, hvj, hengine, hfailed⟩ := h.reports e (hother he hj hid) j hj
      exact ⟨v, ((hclosed.frame j hid).run v hvj hengine).mpr hv, hvj, hengine, hfailed⟩
  · by_cases hid : w.id = j
    · subst hid
      rcases hclosed.status with ⟨-, e₀, -, -, honly⟩ | ⟨hsame, -⟩
      · have hunique : ∀ e ∈ D'.domainEvents, e.reports w.id → e = e₀ := by
          intro e he hj
          rcases honly e hj he with hbefore | hnew
          · exact absurd hj (hown e hbefore)
          · exact hnew
        rw [hunique e he hj, hunique e' he' hj']
      · exact absurd hj (hown e ((hsame e hj).mp he))
    · exact h.unique e (hother he hj hid) e' (hother he' hj' hid) j hj hj'

/-! ## One attempt -/

/-- A step that asks for no approval. -/
def WorkflowStep.NeverPauses (step : WorkflowStep) : Prop :=
  ∀ event run D outcome D', (step event run).runs D (.ok (some outcome, D')) →
    outcome.approvalId = none

/-- What the calls below ask of an engine: it was built by registrations, and its steps leave its
    runs alone and never pause. -/
structure WorkflowEngine.Tame (safe : Db → Prop) (engine : WorkflowEngine) : Prop where
  /-- every definition was checked -/
  registered : ∀ name d, engine.definitions name = some d → d.Registered name
  /-- its steps leave the runs alone -/
  leavesRuns : engine.LeavesRuns safe
  /-- and ask for no approval -/
  neverPauses : ∀ name d, engine.definitions name = some d → d.step.NeverPauses

/-- A run that may be attempted. -/
structure Ready (w : WorkflowRun) (D : Db) : Prop where
  /-- it is on record -/
  run : D.workflowRuns.get w.id = some w
  /-- it is the engine's -/
  name : w.isEngineRun = true
  /-- it waits for no approval -/
  waiting : w.waitingApprovalId = none
  /-- it has an event -/
  source : w.sourceEventId ≠ none
  /-- and a deadline -/
  deadline : w.deadlineAt.isSome = true
  /-- and an attempt is left -/
  attempts : 0 ≤ w.attempts ∧ w.attempts < w.maxAttempts

/-- The record of one call about run `w`: the attempts since are counted, and none follows the
    deadline. -/
structure Counted (w run : WorkflowRun) (log : List Execution) : Prop where
  /-- the row counts the attempts of the call -/
  count : run.attempts = w.attempts + log.length
  /-- they are attempts at this run -/
  own : ∀ e ∈ log, e.workflowId = w.id
  /-- and came before its deadline -/
  before : ∀ e ∈ log, ∀ deadline, w.deadlineAt = some deadline → e.time < deadline

section Attempt

variable {w run : WorkflowRun} {log : List Execution} {now : Instant} {D D' : Db}
variable {definition : WorkflowDefinition} {event : EventEnvelope} {safe : Db → Prop}

/-- **An attempt closes the row of its run**, and is counted.  The cases are those of `Attempted`:
    the run had timed out, or its step was tried and the engine went on by the outcome. -/
theorem executeLogged_closed (hstep : definition.step.LeavesRuns safe)
    (hown : ∀ D D', OwnMove D D' → safe D → safe D') (hsafe : safe D)
    (hnever : definition.step.NeverPauses) (hready : Ready w D)
    (h : (executeLogged w definition event now).runs D (.ok ((run, log), D'))) :
    SameIdentity w run ∧ Closed run D D' ∧ Counted w run log := by
  obtain ⟨hrun, hlog⟩ := executeLogged_runs hready.run h
  obtain ⟨hsame, hget, hcases⟩ := execute_spec hstep hown hsafe hready.name hready.run hrun
  have hframe : ∀ i, run.id ≠ i → Frame i D D' := by
    intro i hne
    rw [hsame.id] at hne
    exact execute_frame hstep hown hsafe hrun hne hready.run
  have hname : run.isEngineRun = true := by
    rw [hsame.isEngineRun]
    exact hready.name
  have hsource : run.sourceEventId ≠ none := by
    rw [hsame.source]
    exact hready.source
  have hdeadline : run.deadlineAt.isSome = true := by
    rw [hsame.deadline]
    exact hready.deadline
  have hget' : D'.workflowRuns.get run.id = some run := by
    rw [hsame.id]
    exact hget
  have hmax := hsame.maxAttempts
  have hbounds := hready.attempts
  refine ⟨hsame, ?_⟩
  -- past the deadline: nothing is tried, and nothing is counted
  rcases hcases with ⟨htimed, hattempts, hwaiting, hfailed, hreport⟩ |
      ⟨htimed, hattempts, hstatus⟩
  · refine ⟨⟨hget', hframe, hname, hwaiting.trans hready.waiting, hsource, hdeadline, by omega,
      ?_⟩, ?_⟩
    · rw [hsame.id]
      exact Or.inl ⟨hfailed, hreport⟩
    · rw [htimed] at hlog
      subst hlog
      exact ⟨by simp [hattempts], nofun, nofun⟩
  · rw [htimed] at hlog
    have hbefore : ∀ deadline, w.deadlineAt = some deadline → now < deadline := by
      intro deadline hdeadline
      simpa [timedOut, hdeadline] using htimed
    refine ⟨?_, ?_⟩
    · have hclosed : run.waitingApprovalId = w.waitingApprovalId →
          ((run.status = .failed ∧ Reported w.id D D') ∨
            ((∀ e : DomainEvent, e.reports w.id → (e ∈ D'.domainEvents ↔ e ∈ D.domainEvents)) ∧
              ((run.status = .retrying ∧ 1 ≤ run.attempts ∧ run.attempts < run.maxAttempts ∧
                  run.nextRetryAt.isSome = true) ∨ run.status = .succeeded))) →
          Closed run D D' := by
        intro hwaiting hstatus
        refine ⟨hget', hframe, hname, hwaiting.trans hready.waiting, hsource, hdeadline, by omega,
          ?_⟩
        rw [hsame.id]
        exact hstatus
      rcases hstatus with ⟨hfailed, hwaiting, hreport⟩ | ⟨hevents, ⟨hretrying, hwaiting, hlt,
          hnext⟩ | ⟨hsucceeded, hwaiting⟩ | ⟨-, run₁, D₁, outcome, D₂, hreturned, hasks, -⟩⟩
      · exact hclosed hwaiting (Or.inl ⟨hfailed, hreport⟩)
      · exact hclosed hwaiting (Or.inr ⟨hevents, Or.inl ⟨hretrying, by omega, hlt, hnext⟩⟩)
      · exact hclosed hwaiting (Or.inr ⟨hevents, Or.inr hsucceeded⟩)
      -- a step of this kind never asks for an approval, so the run is not left waiting
      · exact absurd (hnever event run₁ D₁ outcome D₂ hreturned) hasks
    · subst hlog
      refine ⟨by simp [hattempts], fun e he => ?_, fun e he deadline hdeadline => ?_⟩
      · rw [if_neg Bool.false_ne_true, List.mem_singleton] at he
        rw [he]
      · rw [if_neg Bool.false_ne_true, List.mem_singleton] at he
        rw [he]
        exact hbefore deadline hdeadline

/-- A run that fails without an attempt. -/
theorem terminalFailure_closed {reason : String} {retryable : Bool} (hready : Ready w D)
    (h : (terminalFailure w reason retryable).runs D (.ok (run, D'))) :
    SameIdentity w run ∧ Closed run D D' ∧ Counted w run [] := by
  have hframe : ∀ i, w.id ≠ i → Frame i D D' := fun i hne =>
    Frame.of_runs (terminalFailure_beside hne) h
  obtain ⟨⟨now, v, rfl⟩, hget, hreport⟩ := terminalFailure_spec hready.run h
  have hbounds := hready.attempts
  refine ⟨⟨rfl, rfl, rfl, rfl, rfl, rfl⟩, ⟨hget, hframe, hready.name, hready.waiting,
    hready.source, hready.deadline, ⟨hbounds.1, hbounds.2.le⟩, Or.inl ⟨rfl, hreport⟩⟩, ?_⟩
  exact ⟨by simp [failed], nofun, nofun⟩

end Attempt

/-! ## The tally of the attempts -/

/-- The attempts on record are those the rows count, each before the deadline of its run. -/
structure Tally (record : List Execution) (D : Db) : Prop where
  /-- the row of a run counts its attempts -/
  attempts : ∀ w ∈ D.workflowRuns, w.isEngineRun = true →
    w.attempts = ((record.filter fun e => e.workflowId = w.id).length : Int)
  /-- each came before the deadline -/
  before : ∀ w ∈ D.workflowRuns, w.isEngineRun = true → ∀ e ∈ record, e.workflowId = w.id →
    ∀ deadline, w.deadlineAt = some deadline → e.time < deadline
  /-- and was at a run on record -/
  known : ∀ e ∈ record, ∃ w ∈ D.workflowRuns, w.isEngineRun = true ∧ w.id = e.workflowId

namespace Tally

variable {record log : List Execution} {D D' : Db} {w run : WorkflowRun}

/-- Without runs of the engine no attempt is on record. -/
theorem nil (h : NoRuns D) : Tally [] D := by
  refine ⟨fun w hw hengine => ?_, fun _ _ _ e he => absurd he List.not_mem_nil,
    fun e he => absurd he List.not_mem_nil⟩
  rw [h.runs w hw] at hengine
  exact nomatch hengine

/-- Nothing is on record of a run there is not. -/
theorem filter_eq_nil (h : Tally record D) {i : Uuid}
    (hi : ∀ v ∈ D.workflowRuns, v.isEngineRun = true → v.id ≠ i) :
    record.filter (fun e => e.workflowId = i) = [] := by
  rw [List.filter_eq_nil_iff]
  intro e he hid
  obtain ⟨v, hv, hengine, hvid⟩ := h.known e he
  exact hi v hv hengine (hvid.trans (by simpa using hid))

/-- One call about run `w` adds its attempts, to the record and to the row alike. -/
theorem call (h : Tally record D) (hframe : ∀ i, run.id ≠ i → Frame i D D')
    (hrun : D'.workflowRuns.get run.id = some run) (hengine : run.isEngineRun = true)
    (hsame : SameIdentity w run) (hcounted : Counted w run log)
    (hattempts : w.attempts = ((record.filter fun e => e.workflowId = w.id).length : Int))
    (hbefore : ∀ e ∈ record, e.workflowId = w.id →
      ∀ deadline, w.deadlineAt = some deadline → e.time < deadline) :
    Tally (record ++ log) D' := by
  have hmem : run ∈ D'.workflowRuns := Table.mem_of_get hrun
  have hown : ∀ e ∈ log, e.workflowId = run.id := by
    intro e he
    rw [hsame.id]
    exact hcounted.own e he
  -- the other runs are as they were, and the log says nothing of them
  have hother : ∀ v ∈ D'.workflowRuns, v.isEngineRun = true → v ≠ run →
      v ∈ D.workflowRuns ∧ log.filter (fun e => e.workflowId = v.id) = [] := by
    intro v hv hv' hne
    have hid : run.id ≠ v.id := fun hid => hne (D'.workflowRuns.eq_of_key_eq hv hmem hid.symm)
    refine ⟨((hframe v.id hid).run v rfl hv').mp hv, ?_⟩
    rw [List.filter_eq_nil_iff]
    intro e he hev
    exact hid ((hown e he).symm.trans (by simpa using hev))
  have hlog : log.filter (fun e => e.workflowId = run.id) = log := by
    rw [List.filter_eq_self]
    intro e he
    simpa using hown e he
  refine ⟨fun v hv hv' => ?_, fun v hv hv' e he hid deadline hdeadline => ?_, fun e he => ?_⟩
  · rw [List.filter_append, List.length_append]
    by_cases hne : v = run
    · subst hne
      rw [hlog, hcounted.count, hattempts, hsame.id]
      push_cast
      rfl
    · obtain ⟨hvD, hnone⟩ := hother v hv hv' hne
      rw [hnone, h.attempts v hvD hv']
      simp
  · rcases List.mem_append.mp he with he | he
    · by_cases hne : v = run
      · subst hne
        rw [hsame.id] at hid
        rw [hsame.deadline] at hdeadline
        exact hbefore e he hid deadline hdeadline
      · exact h.before v (hother v hv hv' hne).1 hv' e he hid deadline hdeadline
    · have hv₁ : v = run := D'.workflowRuns.eq_of_key_eq hv hmem (hid.symm.trans (hown e he))
      subst hv₁
      rw [hsame.deadline] at hdeadline
      exact hcounted.before e he deadline hdeadline
  · rcases List.mem_append.mp he with he | he
    · obtain ⟨v, hv, hv', hid⟩ := h.known e he
      by_cases hne : run.id = e.workflowId
      · exact ⟨run, hmem, hengine, hne⟩
      · exact ⟨v, ((hframe e.workflowId hne).run v hid hv').mpr hv, hv', hid⟩
    · exact ⟨run, hmem, hengine, (hown e he).symm⟩

end Tally

/-! ## The calls -/

section Calls

variable {engine : WorkflowEngine} {record log : List Execution} {run : WorkflowRun}
variable {now : Instant} {D D' : Db} {safe : Db → Prop}

/-- A run that waits for its retry may be attempted. -/
theorem RunOk.ready {w : WorkflowRun} (h : RunOk D w) (hw : D.workflowRuns.get w.id = some w)
    (hengine : w.isEngineRun = true) (hstatus : w.status.isTerminal = false) : Ready w D := by
  have hattempts := h.attempts
  refine ⟨hw, hengine, h.waiting, h.source, h.deadline, ?_⟩
  rcases h.status with ⟨-, -, hlt, -⟩ | hsucceeded | ⟨hfailed, -⟩
  · omega
  · rw [hsucceeded] at hstatus
    exact nomatch hstatus
  · rw [hfailed] at hstatus
    exact nomatch hstatus

section

variable [Digests] {definition : WorkflowDefinition} {event : EventEnvelope} {w : WorkflowRun}
variable {D₁ : Db}

/-- The id of a new run was not in use. -/
theorem WorkflowEngine.Created.fresh (h : Created definition event now w D D₁) :
    ∀ v ∈ D.workflowRuns, v.id ≠ w.id :=
  fun v hv => (Table.conflicts_eq_false.mp h.conflicts v hv).1

/-- A run just created may be attempted, and is the only one that is not as before. -/
theorem RunBooks.created (h : RunBooks D) {name : String} (hregistered : definition.Registered name)
    (hcreated : Created definition event now w D D₁) :
    Ready w D₁ ∧ (∀ i, w.id ≠ i → Frame i D D₁) ∧ RunBooksOff w.id D₁ := by
  have hfresh := hcreated.fresh
  have hmem : ∀ v, v ∈ D₁.workflowRuns ↔ v ∈ D.workflowRuns ∨ v = w := by
    intro v
    rw [hcreated.runs]
    exact Table.mem_insert hcreated.conflicts
  have hget : D₁.workflowRuns.get w.id = some w := by
    rw [hcreated.runs]
    exact (Table.get_insert hcreated.conflicts w.id).trans (if_pos rfl)
  have hmax := hregistered.maxAttempts
  refine ⟨⟨hget, ?_, hcreated.waiting, ?_, ?_, ?_⟩, fun i hne => ?_, fun v hv hid hengine => ?_,
    fun e he j hj => ?_, fun e he e' he' => ?_⟩
  · rw [WorkflowRun.isEngineRun, hcreated.key, Option.isSome_some, Bool.or_true]
  · rw [hcreated.source]
    exact Option.some_ne_none _
  · rw [hcreated.deadline]
    rfl
  · rw [hcreated.attempts, hcreated.maxAttempts]
    omega
  · refine ⟨fun v hv _ => ?_, fun e _ => by rw [hcreated.events]⟩
    rw [hmem, or_iff_left]
    rintro rfl
    exact hne hv
  · rcases (hmem v).mp hv with hv | rfl
    · obtain ⟨hwaiting, hsource, hdeadline, hattempts, hstatus⟩ := h.runs v hv hengine
      rw [← hcreated.events] at hstatus
      exact ⟨hwaiting, hsource, hdeadline, hattempts, hstatus⟩
    · exact absurd rfl hid
  · rw [hcreated.events] at he
    obtain ⟨v, hv, hvj, hengine, hfailed⟩ := h.reports e he j hj
    refine ⟨?_, v, (hmem v).mpr (Or.inl hv), hvj, hengine, hfailed⟩
    rw [← hvj]
    exact hfresh v hv
  · rw [hcreated.events] at he he'
    exact h.unique e he e' he'

end

/-- **A delivery** keeps the books and the tally. -/
theorem RunBooks.deliver [Digests] (htame : engine.Tame safe) (hsafe : safe D) (h : RunBooks D)
    (ht : Tally record D)
    {name : String} {event : EventEnvelope}
    (hrun : (engine.handleEventLogged name event now).runs D (.ok ((run, log), D'))) :
    RunBooks D' ∧ Tally (record ++ log) D' := by
  obtain ⟨definition, hd, hdelivered⟩ := handleEventLogged_runs hrun
  have hstep := htame.leavesRuns.steps name definition hd
  have hown := htame.leavesRuns.own
  have hnever := htame.neverPauses name definition hd
  have hregistered := htame.registered name definition hd
  cases hdelivered with
  | ended hcur hkey hstatus hlog hD =>
    subst hlog hD
    rw [List.append_nil]
    exact ⟨h, ht⟩
  | again w hcur hkey hstatus hexecute =>
    have hmem : w ∈ D.workflowRuns := Table.mem_of_get hcur
    have hengine : w.isEngineRun = true := by
      rw [WorkflowRun.isEngineRun, hkey, Option.isSome_some, Bool.or_true]
    have hready := (h.runs w hmem hengine).ready hcur hengine hstatus
    obtain ⟨hsame, hclosed, hcounted⟩ :=
      executeLogged_closed hstep hown hsafe hnever hready hexecute
    have hnot : w.status ≠ .failed := by
      intro hfailed
      rw [hfailed] at hstatus
      cases hstatus
    have hoff := h.off hcur hnot
    rw [← hsame.id] at hoff
    exact ⟨hoff.close hclosed, ht.call hclosed.frame hclosed.run hclosed.name hsame hcounted
      (ht.attempts w hmem hengine) (ht.before w hmem hengine)⟩
  | anew w D₁ hnone hcreated hexecute =>
    obtain ⟨hready, hframe, hoff⟩ := h.created hregistered hcreated
    obtain ⟨hsame, hclosed, hcounted⟩ :=
      executeLogged_closed hstep hown (hown D D₁ hcreated.own hsafe) hnever hready hexecute
    rw [← hsame.id] at hoff hframe
    refine ⟨hoff.close hclosed, ht.call (fun i hne => (hframe i hne).trans (hclosed.frame i hne))
      hclosed.run hclosed.name hsame hcounted ?_ ?_⟩
    · rw [hcreated.attempts, ht.filter_eq_nil fun v hv _ => hcreated.fresh v hv]
      rfl
    · intro e he hid
      obtain ⟨v, hv, -, hvid⟩ := ht.known e he
      exact absurd (hvid.trans hid) (hcreated.fresh v hv)

/-- **A resumption** of a run that waits for its retry does, too. -/
theorem RunBooks.resume (htame : engine.Tame safe) (hsafe : safe D) (h : RunBooks D)
    (ht : Tally record D)
    {w : WorkflowRun} (hcur : D.workflowRuns.get w.id = some w) (hengine : w.isEngineRun = true)
    (hstatus : w.status = .retrying)
    (hrun : (engine.resumeLogged w.id now).runs D (.ok ((run, log), D'))) :
    RunBooks D' ∧ Tally (record ++ log) D' := by
  have hmem : w ∈ D.workflowRuns := Table.mem_of_get hcur
  have hok := h.runs w hmem hengine
  have hready : Ready w D := by
    refine hok.ready hcur hengine ?_
    rw [hstatus]
    rfl
  have hoff : RunBooksOff w.id D := by
    refine h.off hcur ?_
    rw [hstatus]
    exact nofun
  have hdone : SameIdentity w run ∧ Closed run D D' ∧ Counted w run log →
      RunBooks D' ∧ Tally (record ++ log) D' := by
    rintro ⟨hsame, hclosed, hcounted⟩
    rw [← hsame.id] at hoff
    exact ⟨hoff.close hclosed, ht.call hclosed.frame hclosed.run hclosed.name hsame hcounted
      (ht.attempts w hmem hengine) (ht.before w hmem hengine)⟩
  obtain ⟨w', definition, hw', hd, hresumed⟩ := resumeLogged_runs hrun
  obtain rfl := Option.some.inj (hcur.symm.trans hw')
  cases hresumed with
  | sourceless hsource _ _ => exact absurd hsource hok.source
  | early hclear hlog _ =>
    obtain ⟨-, rfl⟩ := clearApproval_none hok.waiting hclear
    rw [hlog, List.append_nil]
    exact ⟨h, ht⟩
  | eventless w₁ D₁ hclear _ hlog hfail =>
    obtain ⟨rfl, rfl⟩ := clearApproval_none hok.waiting hclear
    subst hlog
    exact hdone (terminalFailure_closed hready hfail)
  | again w₁ D₁ event hclear _ hexecute =>
    obtain ⟨rfl, rfl⟩ := clearApproval_none hok.waiting hclear
    exact hdone (executeLogged_closed (htame.leavesRuns.steps _ definition hd) htame.leavesRuns.own
      hsafe (htame.neverPauses _ definition hd) hready hexecute)

/-- **A retry pass**, by induction on the runs it takes up. -/
theorem RunBooks.resumeAll (htame : engine.Tame safe) {workflows runs : List WorkflowRun}
    (hsafe : safe D) (h : RunBooks D) (ht : Tally record D)
    (hdue : ∀ w ∈ workflows, w ∈ D.workflowRuns ∧ w.isEngineRun = true ∧ w.status = .retrying)
    (hdistinct : workflows.Pairwise fun w v => w.id ≠ v.id)
    (hrun : (engine.resumeAllLogged now workflows).runs D (.ok ((runs, log), D'))) :
    RunBooks D' ∧ Tally (record ++ log) D' := by
  induction workflows generalizing D runs log record with
  | nil =>
    cases hrun
    rw [List.append_nil]
    exact ⟨h, ht⟩
  | cons w rest ih =>
    obtain ⟨⟨run, log₁⟩, D₁, hfirst, h₁⟩ := runs_bind_ok.mp hrun
    obtain ⟨⟨runs₂, log₂⟩, D₂, hrest, h₂⟩ := runs_bind_ok.mp h₁
    cases h₂
    obtain ⟨hmem, hengine, hstatus⟩ := hdue w List.mem_cons_self
    rw [List.pairwise_cons] at hdistinct
    have hbooks := h.resume htame hsafe ht (Table.get_of_mem hmem) hengine hstatus hfirst
    rw [← List.append_assoc]
    refine ih (resumeLogged_safe htame.leavesRuns hsafe hfirst) hbooks.1 hbooks.2 (fun v hv => ?_)
      hdistinct.2 hrest
    -- the first run is another one, so this one still waits
    obtain ⟨hvmem, hvengine, hvstatus⟩ := hdue v (List.mem_cons_of_mem w hv)
    have haway := resumeLogged_away htame.leavesRuns hsafe (hdistinct.1 v hv) hfirst
    exact ⟨(haway.frame.run v rfl hvengine).mpr hvmem, hvengine, hvstatus⟩

end Calls

/-! ## No conflict in the outbox -/

/-- An event was published under a key that another event has. -/
def Error.isEventConflict (e : Error) : Prop := ∃ message, e = .raised .eventConflictError message

/-- No run of `p` from `D` ends in such a conflict. -/
def Tx.NoConflict {α : Type} (p : Tx α) (D : Db) : Prop := p.post D (fun _ _ => True) fun e =>
  ¬e.isEventConflict

section Conflict

variable {α β : Type} {D D' : Db}

/-- An exception of another type is none. -/
theorem not_isEventConflict {type : ExceptionType} {message : String}
    (h : type ≠ .eventConflictError) : ¬(Error.raised type message).isEventConflict := by
  rintro ⟨message', heq⟩
  cases heq
  exact h rfl

namespace Tx.NoConflict

/-- A sequence meets none, if its parts meet none where they start. -/
theorem bind {p : Tx α} {f : α → Tx β} (hp : p.NoConflict D)
    (hf : ∀ a D', p.runs D (.ok (a, D')) → (f a).NoConflict D') : (p >>= f).NoConflict D :=
  post_bind.mpr (post_iff.mpr ⟨hf, (post_iff.mp hp).2⟩)

/-- What is made of the value of a transaction raises nothing. -/
theorem of_map {p : Tx α} {f : α → β} (h : (f <$> p).NoConflict D) : p.NoConflict D := by
  rw [map_eq_pure_bind] at h
  exact post_mono (post_bind.mp h) (fun _ _ _ => trivial) fun _ he => he

/-- A program that never raises one meets none. -/
theorem of_writes {p : Tx α} (h : p.writes (fun _ => True) Error.isEventConflict) :
    p.NoConflict D := by
  have hwrites : p.post D (fun _ _ => True) fun e => ¬e.isEventConflict :=
    post_of_writes (fun _ => trivial) (fun _ _ => trivial) (fun _ _ _ => trivial) h D
  exact post_mono hwrites (fun _ _ _ => trivial) fun _ he => he

/-- A lookup raises what it is told to. -/
theorem orThrow {a : Option α} {type : ExceptionType} {message : String}
    (h : type ≠ .eventConflictError) : (Tx.orThrow a type message).NoConflict D := by
  cases a with
  | some a => exact trivial
  | none => exact not_isEventConflict h

/-- A new row can only violate a constraint, and that is no conflict of events. -/
theorem add {i : TableName} {row : i.Entity} : (CommerceOperations.add i row).NoConflict D :=
  of_writes (writes_insert row trivial fun _ => by rintro ⟨m, h⟩; exact nomatch h)

/-- A row that is written back can violate a constraint or be found changed, and neither is a
    conflict of events. -/
theorem flush {i : TableName} {loaded new : i.Entity} :
    (CommerceOperations.flush i loaded new).NoConflict D :=
  of_writes (writes_flush loaded new (fun _ _ _ => trivial)
    (fun _ => by rintro ⟨m, h⟩; exact nomatch h) (by rintro ⟨m, h⟩; exact nomatch h))

/-- An audit entry is a new row, so it meets none. -/
theorem audit {w : WorkflowRun} {before : Option RunStatus} {after : RunStatus} {reason : String} :
    (WorkflowEngine.audit w before after reason).NoConflict D :=
  bind (fun _ => trivial) fun _ _ _ => bind add fun _ _ _ => trivial

/-- An event whose key is not in use is compared with no other. -/
theorem publish {event : EventEnvelope}
    (hfresh : ∀ e ∈ D.domainEvents, e.idempotencyKey ≠ event.idempotencyKey) :
    (DatabaseEventStore.publish event).NoConflict D := by
  refine bind trivial fun existing D₁ hselect => ?_
  obtain ⟨rfl, rfl⟩ := Tx.runs_select.mp hselect
  have hnone : D.domainEvents.rows.find? (fun r => r.idempotencyKey = event.idempotencyKey) =
      none := by
    rw [List.find?_eq_none]
    intro e he
    simpa using hfresh e he
  rw [hnone]
  exact add

/-- An event goes out under a key that is not in use. -/
theorem emit {payload : EventPayload} {context : EventContext} {key : String}
    (hfresh : ∀ e ∈ D.domainEvents, e.idempotencyKey ≠ key) :
    (DatabaseEventStore.emit payload context key).NoConflict D := by
  unfold DatabaseEventStore.emit createEvent Tx.require
  split
  · intro env env'
    exact publish hfresh
  · exact not_isEventConflict (by decide)

end Tx.NoConflict

section Run

variable {w : WorkflowRun} {definition : WorkflowDefinition} {event : EventEnvelope} {now : Instant}
variable {safe : Db → Prop}

/-- A run whose failure has not been reported can fail: the key of the report is free. -/
theorem terminalFailure_noConflict {reason : String} {retryable : Bool}
    (hnone : ∀ e ∈ D.domainEvents, ¬e.reports w.id) :
    (terminalFailure w reason retryable).NoConflict D := by
  refine Tx.NoConflict.bind (fun _ => trivial) fun now D₁ hnow => ?_
  obtain ⟨env, henv⟩ := hnow
  cases henv
  refine Tx.NoConflict.bind .flush fun run D₂ hflush => ?_
  have hevents₂ : Db.domainEvents D₂ = D.domainEvents :=
    sameOff_of_runs (T := (· ∈ [TableName.workflowRuns])) (Tx.confined_flush _ _ (by decide)) hflush
      .domainEvents (by decide)
  refine Tx.NoConflict.bind .audit fun _ D₃ haudit => ?_
  obtain ⟨-, hevents₃⟩ := audit_runs haudit
  refine Tx.NoConflict.bind (.emit fun e he hkey => ?_) fun _ _ _ => trivial
  rw [hevents₃, hevents₂] at he
  exact hnone e he (Or.inl hkey)

/-- **An attempt meets no conflict**, at a run whose failure has not been reported.  The engine
    reports it once at most, and the step reports nothing. -/
theorem executeLogged_noConflict (hstep : definition.step.LeavesRuns safe)
    (hown : ∀ D D', OwnMove D D' → safe D → safe D') (hsafe : safe D)
    (hcur : D.workflowRuns.get w.id = some w) (hnone : ∀ e ∈ D.domainEvents, ¬e.reports w.id) :
    (executeLogged w definition event now).NoConflict D := by
  refine Tx.NoConflict.of_map (f := Prod.fst) ?_
  rw [fst_executeLogged]
  unfold execute
  split
  · exact terminalFailure_noConflict hnone
  · refine Tx.NoConflict.bind .flush fun run D₁ hflush => ?_
    have hid : (started w).id = w.id := rfl
    have hmove₁ := flush_own hid rfl hcur hflush
    obtain ⟨⟨v, rfl⟩, -, hevents₁⟩ := flushRun_runs hid hcur hflush
    refine Tx.NoConflict.bind .audit fun _ D₂ haudit => ?_
    obtain ⟨-, hevents₂⟩ := audit_runs haudit
    refine Tx.NoConflict.bind ?_ fun outcome D₃ hsave => ?_
    · exact post_savepoint.mpr (post_iff.mpr ⟨fun _ _ _ => trivial, fun _ _ => trivial⟩)
    have hsafe₂ := hown D D₂ (hmove₁.trans (audit_own haudit)) hsafe
    obtain ⟨hsame, -⟩ := step_sameRuns hstep hsafe₂ hsave
    have hframe := hsame w.id
    refine Tx.NoConflict.bind trivial fun found D₄ hselect => ?_
    obtain ⟨rfl, rfl⟩ := Tx.runs_select.mp hselect
    refine Tx.NoConflict.bind (.orThrow (by decide)) fun run₂ D₅ hthrow => ?_
    obtain ⟨hrun₂, rfl⟩ := Tx.runs_orThrow.mp hthrow
    have hid₂ : run₂.id = w.id := Table.key_of_get hrun₂
    have hnone₃ : ∀ e ∈ Db.domainEvents D₃, ¬e.reports run₂.id := by
      intro e he hreports
      rw [hid₂] at hreports
      have hbefore := (hframe.reports e hreports).mp he
      rw [hevents₂, hevents₁] at hbefore
      exact hnone e hbefore hreports
    cases outcome with
    | error e =>
      show (stepFailed run₂ definition.policy e now).NoConflict _
      unfold stepFailed
      split
      · exact terminalFailure_noConflict hnone₃
      · split
        · exact terminalFailure_noConflict hnone₃
        · exact Tx.NoConflict.bind .flush fun _ _ _ =>
            Tx.NoConflict.bind .audit fun _ _ _ => trivial
    | ok outcome =>
      refine Tx.NoConflict.bind .flush fun run₃ _ _ => ?_
      dsimp only
      split <;> exact Tx.NoConflict.bind .audit fun _ _ _ => trivial

end Run

/-! ### The calls -/

section Calls

variable {engine : WorkflowEngine} {now : Instant} {safe : Db → Prop}

/-- No failure is reported of a run that has not failed. -/
theorem RunBooks.unreported (h : RunBooks D) {w : WorkflowRun}
    (hcur : D.workflowRuns.get w.id = some w) (hstatus : w.status.isTerminal = false) :
    ∀ e ∈ D.domainEvents, ¬e.reports w.id := by
  have hoff : RunBooksOff w.id D := by
    refine h.off hcur fun hfailed => ?_
    rw [hfailed] at hstatus
    exact nomatch hstatus
  exact fun e he hreports => (hoff.reports e he w.id hreports).1 rfl

/-- **A delivery meets none**: the run it finds has not failed, or is left alone. -/
theorem RunBooks.deliver_noConflict [Digests] (htame : engine.Tame safe) (hsafe : safe D)
    (h : RunBooks D)
    {name : String} {event : EventEnvelope} :
    (engine.handleEventLogged name event now).NoConflict D := by
  refine Tx.NoConflict.bind (.orThrow (by decide)) fun definition D₁ hdefinition => ?_
  obtain ⟨hd, rfl⟩ := Tx.runs_orThrow.mp hdefinition
  have hstep := htame.leavesRuns.steps name definition hd
  have hown := htame.leavesRuns.own
  refine Tx.NoConflict.bind (.of_writes (writes_selectForUpdate _ _)) fun found D₂ hselect => ?_
  obtain ⟨hfound, rfl⟩ := runs_selectForUpdate.mp hselect
  cases found with
  | some w =>
    have hcur : D.workflowRuns.get w.id = some w :=
      Table.get_of_mem (List.mem_of_find?_eq_some hfound.symm)
    show (if w.status.isTerminal = true then pure (w, [])
      else executeLogged w definition event now : Tx (WorkflowRun × List Execution)).NoConflict D
    split
    · exact trivial
    · rename_i hstatus
      exact executeLogged_noConflict hstep hown hsafe hcur
        (h.unreported hcur (by simpa using hstatus))
  | none =>
    refine Tx.NoConflict.bind ?_ fun w D₃ hcreate => ?_
    · refine Tx.NoConflict.bind (fun _ => trivial) fun _ _ _ => ?_
      refine Tx.NoConflict.bind (fun _ => trivial) fun _ _ _ => ?_
      exact Tx.NoConflict.bind .add fun _ _ _ =>
            Tx.NoConflict.bind .audit fun _ _ _ => trivial
    · have hcreated := create_runs hcreate
      obtain ⟨hready, -, hoff⟩ := h.created (htame.registered name definition hd) hcreated
      dsimp only
      rw [hcreated.status]
      have hsafe₁ := hown D D₃ hcreated.own hsafe
      exact executeLogged_noConflict hstep hown hsafe₁ hready.run fun e he hreports =>
        (hoff.reports e he w.id hreports).1 rfl

/-- **A resumption meets none**, of a run that waits for its retry. -/
theorem RunBooks.resume_noConflict (htame : engine.Tame safe) (hsafe : safe D) (h : RunBooks D)
    {w : WorkflowRun}
    (hcur : D.workflowRuns.get w.id = some w) (hengine : w.isEngineRun = true)
    (hstatus : w.status = .retrying) : (engine.resumeLogged w.id now).NoConflict D := by
  have hnone : ∀ e ∈ D.domainEvents, ¬e.reports w.id := by
    refine h.unreported hcur ?_
    rw [hstatus]
    rfl
  refine Tx.NoConflict.bind (.of_writes (writes_selectForUpdate _ _)) fun found D₁ hselect => ?_
  obtain ⟨hfound, rfl⟩ := runs_selectForUpdate.mp hselect
  refine Tx.NoConflict.bind (.orThrow (by decide)) fun w' D₂ hthrow => ?_
  obtain ⟨hw', rfl⟩ := Tx.runs_orThrow.mp hthrow
  obtain rfl : w = w' := Option.some.inj (hcur.symm.trans (hfound.symm.trans hw'))
  refine Tx.NoConflict.bind (.orThrow (by decide)) fun definition D₃ hdefinition => ?_
  obtain ⟨hd, rfl⟩ := Tx.runs_orThrow.mp hdefinition
  have hok := h.runs w (Table.mem_of_get hcur) hengine
  cases hsource : w.sourceEventId with
  | none => exact absurd hsource hok.source
  | some sourceEventId =>
    dsimp only
    have hclear : clearApproval w = pure w := by
      unfold clearApproval
      rw [hok.waiting]
    rw [hclear]
    show (if (w.nextRetryAt.any fun nextRetry => now < nextRetry) = true then pure (w, [])
      else _ : Tx (WorkflowRun × List Execution)).NoConflict D
    split
    · exact trivial
    · refine Tx.NoConflict.bind trivial fun eventRecord D₄ hselect' => ?_
      obtain ⟨-, rfl⟩ := Tx.runs_select.mp hselect'
      cases eventRecord with
      | none =>
        exact Tx.NoConflict.bind (terminalFailure_noConflict hnone) fun _ _ _ => trivial
      | some record =>
        exact executeLogged_noConflict (htame.leavesRuns.steps _ definition hd) htame.leavesRuns.own
          hsafe hcur hnone

/-- A retry pass, by induction on the runs it takes up. -/
theorem RunBooks.resumeAll_noConflict (htame : engine.Tame safe) {record : List Execution}
    {workflows : List WorkflowRun} (hsafe : safe D) (h : RunBooks D) (ht : Tally record D)
    (hdue : ∀ w ∈ workflows, w ∈ D.workflowRuns ∧ w.isEngineRun = true ∧ w.status = .retrying)
    (hdistinct : workflows.Pairwise fun w v => w.id ≠ v.id) :
    (engine.resumeAllLogged now workflows).NoConflict D := by
  induction workflows generalizing D record with
  | nil => exact trivial
  | cons w rest ih =>
    obtain ⟨hmem, hengine, hstatus⟩ := hdue w List.mem_cons_self
    have hcur : D.workflowRuns.get w.id = some w := Table.get_of_mem hmem
    rw [List.pairwise_cons] at hdistinct
    refine Tx.NoConflict.bind (h.resume_noConflict htame hsafe hcur hengine hstatus) ?_
    rintro ⟨run, log⟩ D₁ hfirst
    obtain ⟨h₁, ht₁⟩ := h.resume htame hsafe ht hcur hengine hstatus hfirst
    have hsafe₁ := resumeLogged_safe htame.leavesRuns hsafe hfirst
    refine Tx.NoConflict.bind (ih hsafe₁ h₁ ht₁ (fun v hv => ?_) hdistinct.2) fun _ _ _ => trivial
    obtain ⟨hvmem, hvengine, hvstatus⟩ := hdue v (List.mem_cons_of_mem w hv)
    have haway := resumeLogged_away htame.leavesRuns hsafe (hdistinct.1 v hv) hfirst
    exact ⟨(haway.frame.run v rfl hvengine).mpr hvmem, hvengine, hvstatus⟩

end Calls

end Conflict

/-! ## Bounded retries -/

section Bounded

variable [Digests] {engine : WorkflowEngine} {D₀ D : Db}
variable {trace : List (EngineCall × List Execution)} {safe : Db → Prop}

/-- **One call** of a worker keeps the books and the tally, and raises no conflict. -/
theorem RunBooks.call (htame : engine.Tame safe) {record : List Execution} (hsafe : safe D)
    (h : RunBooks D) (ht : Tally record D) {c : EngineCall} (hc : c.Scheduled D) :
    (c.run engine).NoConflict D ∧ ∀ log D', (c.run engine).runs D (.ok (log, D')) →
      RunBooks D' ∧ Tally (record ++ log) D' := by
  cases c with
  | resume i now => exact hc.elim
  | deliver name event now =>
    refine ⟨(h.deliver_noConflict htame hsafe).bind fun _ _ _ => trivial, fun log D' hrun => ?_⟩
    obtain ⟨⟨run, log'⟩, D₁, hdeliver, h₁⟩ := runs_bind_ok.mp hrun
    cases h₁
    exact h.deliver htame hsafe ht hdeliver
  | retry now limit =>
    have hdue : ∀ w ∈ due now limit D.workflowRuns.rows,
        w ∈ D.workflowRuns ∧ w.isEngineRun = true ∧ w.status = .retrying := fun w hw => mem_due hw
    have hdistinct : (due now limit D.workflowRuns.rows).Pairwise fun w v => w.id ≠ v.id :=
      pairwise_due limit D.workflowRuns
    refine ⟨?_, fun log D' hrun => ?_⟩
    · refine Tx.NoConflict.bind ?_ fun _ _ _ => trivial
      refine Tx.NoConflict.bind (.of_writes (writes_selectAllForUpdate _ _)) ?_
      intro workflows D₁ hselect
      obtain ⟨rfl, rfl⟩ := runs_selectAllForUpdate.mp hselect
      exact h.resumeAll_noConflict htame hsafe ht hdue hdistinct
    · obtain ⟨⟨runs, log'⟩, D₁, hretry, h₁⟩ := runs_bind_ok.mp hrun
      cases h₁
      obtain ⟨workflows, D₂, hselect, hall⟩ := runs_bind_ok.mp hretry
      obtain ⟨rfl, rfl⟩ := runs_selectAllForUpdate.mp hselect
      exact h.resumeAll htame hsafe ht hdue hdistinct hall

/-- **Run lemma.**  The books and the tally of a history, by induction on its calls. -/
theorem RunBooks.history (htame : engine.Tame safe) (hsafe : safe D₀) (h₀ : NoRuns D₀)
    (h : EngineHistory engine EngineCall.Scheduled D₀ trace D) :
    RunBooks D ∧ Tally (trace.flatMap (·.2)) D := by
  induction h with
  | nil => exact ⟨.of_noRuns h₀, .nil h₀⟩
  | snoc h hc ih =>
    rw [List.flatMap_append, List.flatMap_singleton]
    have hsafe₁ := EngineHistory.keepsSafe htame.leavesRuns hsafe h
    exact (ih.1.call htame hsafe₁ ih.2 hc.1).2 _ _ hc.2

/-- What the books say of one run. -/
structure BoundedRetries (trace : List (EngineCall × List Execution)) (D : Db) (w : WorkflowRun) :
    Prop where
  /-- the row counts the attempts of the history -/
  attempts : w.attempts = ((executions trace w.id).length : Int)
  /-- and there are no more than allowed -/
  bounded : w.attempts ≤ w.maxAttempts
  /-- all of them before the deadline -/
  deadline : ∃ deadline, w.deadlineAt = some deadline ∧
    ∀ e ∈ executions trace w.id, e.time < deadline
  /-- a run that waits for its retry was tried and may be tried again -/
  retrying : w.status = .retrying →
    1 ≤ w.attempts ∧ w.attempts < w.maxAttempts ∧ w.nextRetryAt.isSome = true
  /-- a run that has failed is reported once -/
  failed : w.status = .failed → ∃ e ∈ D.domainEvents,
    (∃ name reason retryable, e.payload = .workflowFailed w.id name reason retryable) ∧
      ∀ e' ∈ D.domainEvents, e'.reports w.id → e' = e
  /-- and no other is reported -/
  others : w.status ≠ .failed → ∀ e ∈ D.domainEvents, ¬e.reports w.id

omit [Digests] in
/-- The books and the tally say just that of every run of the engine. -/
theorem RunBooks.bounded (h : RunBooks D) (ht : Tally (trace.flatMap (·.2)) D) {w : WorkflowRun}
    (hw : w ∈ D.workflowRuns) (hengine : w.isEngineRun = true) : BoundedRetries trace D w := by
  obtain ⟨hwaiting, hsource, hdeadline, hattempts, hstatus⟩ := h.runs w hw hengine
  obtain ⟨deadline, hdeadline⟩ := Option.isSome_iff_exists.mp hdeadline
  refine ⟨ht.attempts w hw hengine, hattempts.2, ⟨deadline, hdeadline, fun e he => ?_⟩,
    fun hretrying => ?_, fun hfailed => ?_, fun hnot e he hreports => ?_⟩
  · obtain ⟨he, hid⟩ := List.mem_filter.mp he
    exact ht.before w hw hengine e he (by simpa using hid) deadline hdeadline
  · rw [hretrying] at hstatus
    rcases hstatus with ⟨-, hrest⟩ | hsucceeded | ⟨hfailed, -⟩
    · exact hrest
    · exact nomatch hsucceeded
    · exact nomatch hfailed
  · rw [hfailed] at hstatus
    rcases hstatus with ⟨hretrying, -⟩ | hsucceeded | ⟨-, e, he, hpayload⟩
    · exact nomatch hretrying
    · exact nomatch hsucceeded
    · refine ⟨e, he, hpayload, fun e' he' hreports => ?_⟩
      exact h.unique e' he' e he w.id hreports (Or.inr hpayload)
  · obtain ⟨v, hv, hid, -, hfailed⟩ := h.reports e he w.id hreports
    obtain rfl := D.workflowRuns.eq_of_key_eq hv hw hid
    exact hnot hfailed

/-- A workflow that fails at every attempt, of which it has two. -/
def failingDefinition : WorkflowDefinition where
  name := "job"
  version := 1
  step _ _ := Tx.throw .runtimeError "not now"
  policy := ⟨2, 300, 30⟩

/-- The engine of that workflow. -/
def failingEngine : WorkflowEngine where
  definitions name := if name = "job" then some failingDefinition else none

/-- The event is delivered to it, and its run taken up again a minute later. -/
def failingCalls : List EngineCall := [.deliver "job" sampleEvent 5, .retry (seconds 60) 10]

omit [Digests] in
/-- The outbox of the samples has no run and no report. -/
theorem sampleOutbox_noRuns : NoRuns sampleOutbox := by
  refine ⟨fun w hw => absurd hw List.not_mem_nil, fun e he j hj => ?_⟩
  obtain rfl : e = DatabaseEventStore.record sampleEvent := List.mem_singleton.mp he
  rcases hj with hkey | ⟨name, reason, retryable, hpayload⟩
  · have hlist := congrArg String.toList hkey
    simp [failureKey, DatabaseEventStore.record, sampleEvent, toString] at hlist
  · cases hpayload

end Bounded

end CommerceOperations
