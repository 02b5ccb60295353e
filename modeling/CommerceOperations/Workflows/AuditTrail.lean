/-
  The audit trail of the workflow engine.

  The engine writes an entry beside every change of a run's status: the status before, and the
  status, the step and the attempts after.  Read in order, the entries of a run are a chain of
  moves that `advance` can follow, and they lead to the run as it is.

  The crux is the time between the UPDATE of a run and its entry.  `TrailAt told` says how far the
  trail of each run has come; a transaction takes the row lock of its run first and leaves `told`
  at the run itself, whatever its step does in its nested transaction.

  Locks are what makes this work among other sessions.  The engine selects a run FOR UPDATE, and
  from then on the transaction has it in hand (`InHand`): nobody else can write the row, so when the
  engine reads it again after the step it finds the run as it left it.

  * `Change.advance`           — one move of the engine;
  * `TrailAt`                  — how far the trails have come;
  * `InHand`                   — what a transaction knows of the run it works on;
  * `trail_replays_to_run`     — every interleaving leaves trails that replay to the runs;
  * `no_attempt_is_left_open`  — no committed run is in the middle of an attempt.
-/
import CommerceOperations.Workflows.Lifecycle
import CommerceOperations.Events.Delivery
import CommerceOperations.Relational.Trails
import Mathlib.Data.List.Induction

namespace CommerceOperations

open Relational Prog

/-! ## The trail -/

/-- What an entry says of a run. -/
structure RunState where
  /-- the status -/
  status : RunStatus
  /-- the step, as the engine names it -/
  currentStep : Option String
  /-- how many attempts were started -/
  attempts : Int
  deriving DecidableEq

/-- What the audit trail says of the run. -/
def WorkflowRun.state (w : WorkflowRun) : RunState := ⟨w.status, w.currentStep, w.attempts⟩

/-- An entry of the trail: the status before, if there was one, and the state after. -/
structure Change where
  /-- the status before; none for a new run -/
  before : Option RunStatus
  /-- the state after -/
  after : RunState
  deriving DecidableEq

namespace Change

/-- The two columns of the entry. -/
def dump (c : Change) : Option Json × Option Json :=
  (c.before.map fun s => .object [("status", .text s.value)],
    some (.object
      [("status", .text c.after.status.value),
        ("step", (c.after.currentStep.map Json.text).getD .null),
        ("attempts", .int c.after.attempts)]))

/-- The engine may take a run from `s` to `s'`.  An attempt is one more; it ends in a retry, in a
    pause, or in success; a failure may also be noticed before an attempt. -/
def mayMove (s s' : RunState) : Bool :=
  match s'.status with
  | .running => s'.attempts = s.attempts + 1 ∧ s'.currentStep = some "executing"
  | .retrying => s.status = .running ∧ s'.attempts = s.attempts ∧
      s'.currentStep = some "retry_scheduled"
  | .pending | .succeeded => s.status = .running ∧ s'.attempts = s.attempts
  | .failed => s'.attempts = s.attempts ∧ s'.currentStep = some "failed"
  | .cancelled | .escalated => false

/-- The state the entry leads to, from the state before: a run begins pending and queued, and
    from then on each entry names the status it starts from. -/
def advance (s : Option RunState) (c : Change) : Option (Option RunState) :=
  match s with
  | none =>
    if c.before = none ∧ c.after = ⟨.pending, some "queued", 0⟩ then some (some c.after) else none
  | some s => if c.before = some s.status ∧ mayMove s c.after then some (some c.after) else none

/-- Where the entries lead a run that is not there yet; nothing, if they do not fit. -/
def replay (changes : List Change) : Option (Option RunState) := changes.foldlM advance none

/-- One more entry is one more move. -/
theorem replay_snoc {changes : List Change} {c : Change} {s' : Option RunState} :
    replay (changes ++ [c]) = some s' ↔ ∃ s, replay changes = some s ∧ advance s c = some s' := by
  have hfold : replay (changes ++ [c]) =
      (replay changes).bind fun s => [c].foldlM advance s := List.foldlM_append
  have hlast : ∀ s, [c].foldlM advance s = advance s c := fun s => by
    rw [List.foldlM_cons]
    cases advance s c <;> rfl
  rw [hfold, Option.bind_eq_some_iff]
  simp only [hlast]

/-- An entry leads to what it says, if it fits what was there. -/
theorem advance_eq_some {s s' : Option RunState} {c : Change} :
    advance s c = some s' ↔ s' = some c.after ∧
      ((s = none ∧ c.before = none ∧ c.after = ⟨.pending, some "queued", 0⟩) ∨
        ∃ r, s = some r ∧ c.before = some r.status ∧ mayMove r c.after = true) := by
  cases s with
  | none =>
    unfold advance
    simp only [Option.ite_none_right_eq_some, Option.some.injEq, true_and, reduceCtorEq, false_and,
      exists_false, or_false]
    exact ⟨fun h => ⟨h.2.symm, h.1⟩, fun h => ⟨h.2, h.1.symm⟩⟩
  | some r =>
    unfold advance
    simp only [Option.ite_none_right_eq_some, Option.some.injEq, reduceCtorEq, false_and, false_or,
      exists_eq_left']
    exact ⟨fun h => ⟨h.2.symm, h.1⟩, fun h => ⟨h.2, h.1.symm⟩⟩

/-- After any entry the run is there. -/
theorem nil_of_replay_none {changes : List Change} (h : replay changes = some none) :
    changes = [] := by
  induction changes using List.reverseRecOn with
  | nil => rfl
  | append_singleton changes c _ =>
    obtain ⟨before, -, hc⟩ := replay_snoc.mp h
    cases (advance_eq_some.mp hc).1

/-- The attempts a run has are the entries that say `running`, by induction on the entries. -/
theorem attempts_of_replay {changes : List Change} {s : RunState}
    (h : replay changes = some (some s)) :
    s.attempts = (changes.countP fun c => c.after.status = .running : Nat) := by
  induction changes using List.reverseRecOn generalizing s with
  | nil => cases h
  | append_singleton changes c ih =>
    obtain ⟨before, hbefore, hc⟩ := replay_snoc.mp h
    obtain ⟨hs, hfits⟩ := advance_eq_some.mp hc
    obtain rfl := Option.some.inj hs
    rw [List.countP_append, List.countP_singleton]
    rcases hfits with ⟨rfl, -, hafter⟩ | ⟨r, rfl, -, hmove⟩
    · -- only the creation leads on from there
      have hnil : changes = [] := nil_of_replay_none hbefore
      rw [hnil, hafter]
      rfl
    · have hcount := ih hbefore
      unfold mayMove at hmove
      split at hmove <;> simp_all

end Change

/-- The entry tells of a change of a run's state. -/
def AuditEvent.isStateChange (a : AuditEvent) : Bool :=
  a.action = "workflow.state_changed" ∧ a.resourceType = "workflow_run"

/-- What the entry says of run `i`. -/
def AuditEvent.changeOf (i : Uuid) (a : AuditEvent) : Option (Option Json × Option Json) :=
  if a.isStateChange ∧ a.resourceId = i then some (a.beforeState, a.afterState) else none

/-- The audit trail of run `i`, in order. -/
def Db.trail (D : Db) (i : Uuid) : List (Option Json × Option Json) :=
  D.auditEvents.rows.filterMap fun a => a.changeOf i

/-! ## How far the trails have come -/

/-- The trail of each run of the engine has come to what was `told` of it. -/
structure TrailAt (D : Db) (told : WorkflowRun → Option RunState) : Prop where
  /-- the entries of a run replay to what was told of it -/
  replays : ∀ w ∈ D.workflowRuns, w.isEngineRun = true →
    ∃ changes, D.trail w.id = changes.map Change.dump ∧ Change.replay changes = some (told w)
  /-- and entries are about runs on record -/
  about : ∀ i, D.trail i ≠ [] → ∃ w ∈ D.workflowRuns, w.id = i

/-- All of the run has been told: its trail has come to the state it is in. -/
def upToDate (w : WorkflowRun) : Option RunState := some w.state

/-- Of run `i` only `s` has been told, because it was written and its entry is still to come; the
    other runs are up to date. -/
def lagging (i : Uuid) (s : Option RunState) (w : WorkflowRun) : Option RunState :=
  if w.id = i then s else upToDate w

/-- The runs of the engine and their trails are as before. -/
structure SameTrails (D D' : Db) : Prop where
  /-- a run of the engine is stored in both states or in neither -/
  runs : ∀ w : WorkflowRun, w.isEngineRun = true → (w ∈ D'.workflowRuns ↔ w ∈ D.workflowRuns)
  /-- every trail is the same -/
  trail : ∀ i, D'.trail i = D.trail i
  /-- and no row is lost -/
  grows : Store.earlier D D'

section Writes

variable {D D' : Db} {told : WorkflowRun → Option RunState} {i : Uuid}

/-- Only what is told of runs of the engine matters. -/
theorem TrailAt.congr {told' : WorkflowRun → Option RunState} (h : TrailAt D told)
    (heq : ∀ w ∈ D.workflowRuns, w.isEngineRun = true → told' w = told w) : TrailAt D told' := by
  refine ⟨fun w hw hengine => ?_, h.about⟩
  rw [heq w hw hengine]
  exact h.replays w hw hengine

/-- A trail is read off the audit entries alone. -/
theorem Db.trail_congr (h : D'.auditEvents = D.auditEvents) (i : Uuid) :
    D'.trail i = D.trail i := by
  unfold Db.trail
  rw [h]

/-- A run that is on record stays on record. -/
theorem exists_run_of_earlier (h : Store.earlier D D') {w : WorkflowRun}
    (hw : w ∈ D.workflowRuns) : ∃ w' ∈ D'.workflowRuns, w'.id = w.id := by
  obtain ⟨w', hw', -⟩ := h .workflowRuns w.id w (Table.get_of_mem hw)
  exact ⟨w', Table.mem_of_get hw', Table.key_of_get hw'⟩

/-- Where the runs and their trails are as before, the trails have come as far. -/
theorem TrailAt.same (h : TrailAt D told) (hsame : SameTrails D D') : TrailAt D' told := by
  refine ⟨fun w hw hengine => ?_, fun i hi => ?_⟩
  · rw [hsame.trail]
    exact h.replays w ((hsame.runs w hengine).mp hw) hengine
  · rw [hsame.trail] at hi
    obtain ⟨w, hw, rfl⟩ := h.about i hi
    exact exists_run_of_earlier hsame.grows hw

/-! ### Runs -/

/-- Writing a run writes no entry. -/
theorem auditEvents_of_run {w : TableWrite WorkflowRun} :
    Db.auditEvents (Database.apply ⟨.workflowRuns, w⟩ D) = D.auditEvents := by
  refine Database.apply_table_of_ne _ D ?_
  show TableName.auditEvents ≠ .workflowRuns
  decide

/-- Of a new run nothing is told yet: no entry is about it, since entries are about runs on record.
    -/
theorem TrailAt.insert_run (h : TrailAt D upToDate) {w : WorkflowRun}
    (hconf : D.workflowRuns.conflicts w = false) :
    TrailAt (Database.apply ⟨.workflowRuns, .insert w⟩ D) (lagging w.id none) := by
  have htable : Db.workflowRuns (Database.apply ⟨.workflowRuns, .insert w⟩ D) =
      D.workflowRuns.insert w := Database.apply_table_self ..
  have hevents := auditEvents_of_run (D := D) (w := .insert w)
  have hnew : ∀ v ∈ D.workflowRuns, v.id ≠ w.id := fun v hv =>
    (Table.conflicts_eq_false.mp hconf v hv).1
  refine ⟨fun v hv hengine => ?_, fun i hi => ?_⟩
  · rw [htable, Table.mem_insert hconf] at hv
    rw [Db.trail_congr hevents]
    rcases hv with hv | rfl
    · rw [lagging, if_neg (hnew v hv)]
      exact h.replays v hv hengine
    · -- an entry would be about a run on record
      have hnone : D.trail v.id = [] := by
        by_contra hne
        obtain ⟨u, hu, hid⟩ := h.about v.id hne
        exact hnew u hu hid
      rw [lagging, if_pos rfl]
      exact ⟨[], hnone, rfl⟩
  · rw [Db.trail_congr hevents] at hi
    obtain ⟨v, hv, hid⟩ := h.about i hi
    refine ⟨v, ?_, hid⟩
    rw [htable, Table.mem_insert hconf]
    exact Or.inl hv

/-- A run that was written is ahead of its trail by one change. -/
theorem TrailAt.update_run (h : TrailAt D upToDate) {old new : WorkflowRun}
    (hget : D.workflowRuns.get new.id = some old)
    (hs : D.workflowRuns.succeeds old new = true) (hc : D.workflowRuns.clashes old new = false)
    (hkind : new.isEngineRun = old.isEngineRun) :
    TrailAt (Database.apply ⟨.workflowRuns, .update old new⟩ D)
      (lagging new.id (some old.state)) := by
  have htable : Db.workflowRuns (Database.apply ⟨.workflowRuns, .update old new⟩ D) =
      D.workflowRuns.update old new := Database.apply_table_self ..
  have hevents := auditEvents_of_run (D := D) (w := .update old new)
  have hold : old ∈ D.workflowRuns := Table.mem_of_get hget
  have hid : old.id = new.id := Table.key_of_get hget
  refine ⟨fun v hv hengine => ?_, fun i hi => ?_⟩
  · rw [htable, Table.mem_update hs hc] at hv
    rw [Db.trail_congr hevents]
    rcases hv with rfl | ⟨hv, hne⟩
    · rw [lagging, if_pos rfl, ← hid]
      exact h.replays old hold (hkind ▸ hengine)
    · have hne' : v.id ≠ new.id := hne
      rw [lagging, if_neg hne']
      exact h.replays v hv hengine
  · rw [Db.trail_congr hevents] at hi
    obtain ⟨v, hv, rfl⟩ := h.about i hi
    rw [htable]
    by_cases hv' : v.id = new.id
    · exact ⟨new, (Table.mem_update hs hc).mpr (Or.inl rfl), hv'.symm⟩
    · exact ⟨v, (Table.mem_update hs hc).mpr (Or.inr ⟨hv, hv'⟩), rfl⟩

/-! ### Entries -/

/-- Writing an entry writes no run. -/
theorem workflowRuns_of_entry {w : TableWrite AuditEvent} :
    Db.workflowRuns (Database.apply ⟨.auditEvents, w⟩ D) = D.workflowRuns := by
  refine Database.apply_table_of_ne _ D ?_
  show TableName.workflowRuns ≠ .auditEvents
  decide

/-- A new entry comes last in the trail of the run it is about. -/
theorem trail_insert {a : AuditEvent} (hconf : D.auditEvents.conflicts a = false) (i : Uuid) :
    Db.trail (Database.apply ⟨.auditEvents, .insert a⟩ D) i =
      D.trail i ++ (a.changeOf i).toList := by
  have htable : Db.auditEvents (Database.apply ⟨.auditEvents, .insert a⟩ D) =
      D.auditEvents.insert a := Database.apply_table_self ..
  unfold Db.trail
  rw [htable, Table.rows_insert hconf, List.filterMap_append]
  cases ha : a.changeOf i <;> simp [ha]

/-- **The entry of a change** brings the trail of its run up to where the change leads. -/
theorem TrailAt.enter {w : WorkflowRun} {a : AuditEvent} {s : Option RunState} {c : Change}
    (h : TrailAt D (lagging w.id s)) (hw : w ∈ D.workflowRuns)
    (hconf : D.auditEvents.conflicts a = false)
    (ha : ∀ i, a.changeOf i = if w.id = i then some c.dump else none)
    (hc : w.isEngineRun = true → c.advance s = some (some w.state)) :
    TrailAt (Database.apply ⟨.auditEvents, .insert a⟩ D) upToDate := by
  refine ⟨fun v hv hengine => ?_, fun i hi => ?_⟩
  · rw [workflowRuns_of_entry] at hv
    obtain ⟨changes, htrail, hreplay⟩ := h.replays v hv hengine
    rw [trail_insert hconf, ha]
    by_cases hid : w.id = v.id
    · -- the run itself
      obtain rfl : w = v := D.workflowRuns.eq_of_key_eq hw hv hid
      rw [lagging, if_pos rfl] at hreplay
      refine ⟨changes ++ [c], ?_, Change.replay_snoc.mpr ⟨_, hreplay, hc hengine⟩⟩
      rw [if_pos rfl, Option.toList_some, htrail, List.map_append]
      rfl
    · rw [lagging, if_neg (Ne.symm hid)] at hreplay
      refine ⟨changes, ?_, hreplay⟩
      rw [if_neg hid, Option.toList_none, List.append_nil, htrail]
  · rw [workflowRuns_of_entry]
    rw [trail_insert hconf, ha] at hi
    by_cases hid : w.id = i
    · exact ⟨w, hw, hid⟩
    · rw [if_neg hid, Option.toList_none, List.append_nil] at hi
      exact h.about i hi

end Writes

/-! ### Moves of the engine's own -/

/-- An entry or an event is a move of the engine's own. -/
theorem OwnMove.of_sees {α : Type} {p : Tx α} {past : Db → Prop} {D : Db} {a : α}
    {tr tr' : Trail (Write TableName.Entity) DbLock}
    (hp : p.confined [.auditEvents, .domainEvents]) (h : p.sees past D tr a tr') :
    OwnMove (tr.on D) (tr'.on D) := by
  obtain ⟨seen, hoff⟩ := sees_of_ensures (ensures_of_confined hp ⟨tr.held, D, tr.on D⟩) h
  refine OwnMove.of_workflowRuns (fun i hi => hoff i fun hmem => hi ?_)
    (hoff .workflowRuns (by decide))
  rcases List.mem_cons.mp hmem with rfl | hmem
  · decide
  · rw [List.mem_singleton.mp hmem]
    decide

/-- The update of a run that stays of its kind is a move of the engine's own: runs of the engine
    stay runs of the engine. -/
theorem OwnMove.of_update {D : Db} {old new : WorkflowRun}
    (hget : D.workflowRuns.get new.id = some old)
    (hs : D.workflowRuns.succeeds old new = true) (hc : D.workflowRuns.clashes old new = false)
    (hkind : new.isEngineRun = old.isEngineRun) :
    OwnMove D (Database.apply ⟨.workflowRuns, .update old new⟩ D) := by
  refine ⟨fun i hi => Database.apply_table_of_ne _ D fun h => hi ?_, fun v hv => ?_⟩
  · rw [h]
    exact List.mem_cons_self
  · have htable : Db.workflowRuns (Database.apply ⟨.workflowRuns, .update old new⟩ D) =
        D.workflowRuns.update old new := Database.apply_table_self ..
    rw [htable]
    by_cases hid : v.id = new.id
    · obtain rfl : v = old :=
        D.workflowRuns.eq_of_key_eq hv (Table.mem_of_get hget)
          (hid.trans (Table.key_of_get hget).symm)
      exact ⟨new, (Table.mem_update hs hc).mpr (Or.inl rfl), hid.symm, hkind⟩
    · exact ⟨v, (Table.mem_update hs hc).mpr (Or.inr ⟨hv, hid⟩), rfl, rfl⟩

/-- A new run is a move of the engine's own. -/
theorem OwnMove.of_insert {D : Db} {w : WorkflowRun} (hconf : D.workflowRuns.conflicts w = false) :
    OwnMove D (Database.apply ⟨.workflowRuns, .insert w⟩ D) := by
  refine ⟨fun i hi => Database.apply_table_of_ne _ D fun h => hi ?_, fun v hv => ⟨v, ?_, rfl, rfl⟩⟩
  · rw [h]
    exact List.mem_cons_self
  · have htable : Db.workflowRuns (Database.apply ⟨.workflowRuns, .insert w⟩ D) =
        D.workflowRuns.insert w := Database.apply_table_self ..
    rw [htable]
    exact (Table.mem_insert hconf).mpr (Or.inl hv)

/-! ## A run in hand -/

section Hand

variable {past : Db → Prop} {D : Db} {tr tr' tr₁ tr₂ : Trail (Write TableName.Entity) DbLock}
variable {w run : WorkflowRun} {safe : Db → Prop}

/-- The runs of the engine, run `i` apart, are between attempts. -/
def RestBut (i : Option Uuid) (D : Db) : Prop :=
  ∀ w ∈ D.workflowRuns, w.isEngineRun = true → some w.id ≠ i → w.status ≠ .running

/-- The trails are up to date, no run is in the middle of an attempt, and the database is as the
    steps need it. -/
structure Trailed (safe : Db → Prop) (D : Db) : Prop where
  /-- the trails are up to date -/
  trails : TrailAt D upToDate
  /-- no run is in the middle of an attempt -/
  rest : RestBut none D
  /-- and the database is as the steps need it -/
  safe : safe D

/-- The transaction holds the row lock of the run and has it as it is; the trails are up to
    date, and the other runs are between attempts. -/
structure InHand (safe : Db → Prop) (D : Db) (tr : Trail (Write TableName.Entity) DbLock)
    (w : WorkflowRun) : Prop where
  /-- the trails are up to date -/
  trails : TrailAt (tr.on D) upToDate
  /-- the other runs are between attempts -/
  rest : RestBut (some w.id) (tr.on D)
  /-- the run is on record as the transaction has it -/
  current : (Db.workflowRuns (tr.on D)).get w.id = some w
  /-- under its lock -/
  locked : ⟨.workflowRuns, .row w.id⟩ ∈ tr.held
  /-- and the database is as the steps need it -/
  safe : safe (tr.on D)

/-- The row of a run found is locked. -/
theorem locked_of_selectForUpdate {p : WorkflowRun → Bool}
    (h : (selectForUpdate .workflowRuns p).sees past D tr (some w) tr') :
    ⟨.workflowRuns, .row w.id⟩ ∈ tr'.held := by
  have hens : (selectForUpdate .workflowRuns p).ensures (fun _ => False) ⟨tr.held, D, tr.on D⟩
      fun a pt => ∀ r, a = some r → (⟨.workflowRuns, .row r.id⟩ : DbLock) ∈ pt.held := by
    refine ensures_selectForUpdate ?_ fun held seen hheld r hr => ?_
    · rintro r held seen - hlocks - - r' hr'
      obtain rfl := Option.some.inj hr'
      exact hlocks (List.mem_cons_self ..)
    · cases hr
  obtain ⟨seen, hfound⟩ := sees_of_ensures hens h
  exact hfound w rfl

/-- The row of a new run is locked. -/
theorem held_of_insert (h : (add .workflowRuns w).sees past D tr run tr') :
    ⟨.workflowRuns, .row run.id⟩ ∈ tr'.held := by
  obtain ⟨V, ws, hf, -, rfl⟩ := sees_statement h
  split at hf
  · cases hf
  · simp only [Except.ok.injEq, Prod.mk.injEq] at hf
    obtain ⟨rfl, rfl⟩ := hf
    exact List.mem_append_right _ (List.mem_cons_self ..)

/-- A run found for update is in hand. -/
theorem InHand.of_selectForUpdate {p : WorkflowRun → Bool} (h : Trailed safe (tr.on D))
    (hsees : (selectForUpdate .workflowRuns p).sees past D tr (some w) tr') :
    InHand safe D tr' w := by
  obtain ⟨hwrites, hfound⟩ := sees_selectForUpdate hsees
  have hon : tr'.on D = tr.on D := congrArg (fun ws => Store.applyAll ws D) hwrites
  refine ⟨?_, ?_, ?_, locked_of_selectForUpdate hsees, ?_⟩
  · rw [hon]
    exact h.trails
  · rw [hon]
    exact fun v hv hengine _ => h.rest v hv hengine (by simp)
  · rw [hon]
    exact (hfound w rfl).2
  · rw [hon]
    exact h.safe

/-- A run in hand whose attempt is over can be let go. -/
theorem InHand.letGo (h : InHand safe D tr w)
    (hstatus : w.isEngineRun = true → w.status ≠ .running) :
    Trailed safe (tr.on D) := by
  refine ⟨h.trails, fun v hv hengine _ => ?_, h.safe⟩
  by_cases hid : v.id = w.id
  · have heq : v = w := Table.eq_of_key_eq _ hv (Table.mem_of_get h.current) hid
    rw [heq]
    exact hstatus (heq ▸ hengine)
  · exact h.rest v hv hengine fun hsome => hid (Option.some.inj hsome)

/-- What leaves the runs and their trails alone leaves them trailed. -/
theorem Trailed.same {D D' : Db} (h : Trailed safe D) (hsame : SameTrails D D')
    (hsafe : safe D') : Trailed safe D' :=
  ⟨h.trails.same hsame, fun v hv hengine hne =>
    h.rest v ((hsame.runs v hengine).mp hv) hengine hne, hsafe⟩

/-- Read again, the run is the one in hand. -/
theorem InHand.eq_of_reread (h : InHand safe D tr w) {D₁ : Db} {found : WorkflowRun}
    (hagree : Store.agreeOn tr.held (tr.on D₁) (tr.on D))
    (hread : (Db.workflowRuns (tr.on D₁)).get w.id = some found) : found = w := by
  have hsame : (Db.workflowRuns (tr.on D₁)).get w.id = (Db.workflowRuns (tr.on D)).get w.id :=
    hagree _ h.locked
  rw [hread, h.current] at hsame
  exact Option.some.inj hsame

/-- What leaves the trails alone leaves the run in hand; it may only be another version of a run
    the engine does not keep. -/
theorem InHand.same (h : InHand safe D tr w) (hsame : SameTrails (tr.on D) (tr'.on D))
    (hsafe : safe (tr'.on D)) (hheld : tr.held ⊆ tr'.held) :
    ∃ run, InHand safe D tr' run ∧ run.id = w.id ∧ run.isEngineRun = w.isEngineRun ∧
      (w.isEngineRun = true → run = w) := by
  obtain ⟨run, hrun, -⟩ := hsame.grows .workflowRuns w.id w h.current
  have hrun : (Db.workflowRuns (tr'.on D)).get w.id = some run := hrun
  have hid : run.id = w.id := Table.key_of_get hrun
  have hwmem : w ∈ Db.workflowRuns (tr.on D) := Table.mem_of_get h.current
  -- a run of the engine is in both tables or in neither
  have heq : run.isEngineRun = true ∨ w.isEngineRun = true → run = w := by
    rintro (hengine | hengine)
    · have hmem := (hsame.runs run hengine).mp (Table.mem_of_get hrun)
      exact Table.eq_of_key_eq _ hmem hwmem hid
    · have hmem := (hsame.runs w hengine).mpr hwmem
      exact Table.eq_of_key_eq _ (Table.mem_of_get hrun) hmem hid
  refine ⟨run, ⟨h.trails.same hsame, fun v hv hengine hne => ?_, ?_, ?_, hsafe⟩, hid, ?_,
    fun hengine => heq (Or.inr hengine)⟩
  · rw [hid] at hne
    exact h.rest v ((hsame.runs v hengine).mp hv) hengine hne
  · rw [hid]
    exact hrun
  · rw [hid]
    exact hheld h.locked
  · cases hrun' : run.isEngineRun with
    | true => rw [← heq (Or.inl hrun'), hrun']
    | false =>
      cases hw : w.isEngineRun with
      | true => rw [heq (Or.inr hw), hw] at hrun'; cases hrun'
      | false => rfl

namespace WorkflowEngine

/-- What an entry of the engine says. -/
theorem audit_sees {before : Option RunStatus} {reason : String} {u : Unit}
    (h : (audit run before run.status reason).sees past D tr u tr') :
    ∃ a : AuditEvent, (∀ i, a.changeOf i =
        if run.id = i then some (Change.dump ⟨before, run.state⟩) else none) ∧
      (Db.auditEvents (tr.on D)).conflicts a = false ∧
      tr'.writes = tr.writes ++ [⟨.auditEvents, .insert a⟩] := by
  obtain ⟨id, tr₁, ⟨env, hid, rfl⟩, h₁⟩ := sees_bind.mp h
  obtain ⟨a, tr₂, hadd, h₂⟩ := sees_bind.mp h₁
  obtain ⟨-, rfl⟩ := h₂
  obtain ⟨rfl, hconf, hwrites⟩ := sees_insert hadd
  refine ⟨_, fun i => ?_, hconf, hwrites⟩
  simp [AuditEvent.changeOf, AuditEvent.isStateChange, Change.dump, WorkflowRun.state]

/-- A flush of the run in hand: the trail is where it was. -/
theorem flush_sees {new : WorkflowRun} (h : InHand safe D tr w)
    (hflush : (flush .workflowRuns w new).sees past D tr run tr') (hid : new.id = w.id)
    (hkind : new.isEngineRun = w.isEngineRun) :
    (∃ v, run = { new with version := v }) ∧
      TrailAt (tr'.on D) (lagging run.id (some w.state)) ∧
      RestBut (some run.id) (tr'.on D) ∧
      (Db.workflowRuns (tr'.on D)).get run.id = some run ∧
      ⟨.workflowRuns, .row run.id⟩ ∈ tr'.held ∧ OwnMove (tr.on D) (tr'.on D) := by
  have hheld : (⟨.workflowRuns, .row new.id⟩ : DbLock) ∈ tr'.held := by
    rw [hid]
    exact held_subset_of_sees hflush h.locked
  rcases sees_flush hflush hid fun _ => rfl with
    ⟨rfl, rfl, hwrites⟩ | ⟨-, old, hget, -, hrun, hs, hc, hwrites⟩
  · -- nothing to write
    have hon : tr'.on D = tr.on D := congrArg (fun ws => Store.applyAll ws D) hwrites
    rw [hon]
    refine ⟨⟨run.version, rfl⟩, h.trails.congr fun v hv _ => ?_, h.rest, h.current, hheld,
      .of_workflowRuns (fun _ _ => rfl) rfl⟩
    unfold lagging upToDate
    split
    · rename_i hv'
      have hv : v ∈ Db.workflowRuns (tr.on D) := hv
      have heq := Table.eq_of_key_eq _ hv (Table.mem_of_get h.current) hv'
      rw [heq]
    · rfl
  -- the row is written: the trail is now one change behind it
  · obtain rfl : old = w := Option.some.inj (hget.symm.trans h.current)
    have hrun' : run = { new with version := old.version + 1 } := hrun
    have hon : tr'.on D = Database.apply ⟨.workflowRuns, .update old run⟩ (tr.on D) :=
      on_of_writes hwrites D
    have hidrun : run.id = old.id := by
      rw [hrun']
      exact hid
    have hgetrun : (Db.workflowRuns (tr.on D)).get run.id = some old := by
      rw [hidrun]
      exact h.current
    have hkindrun : run.isEngineRun = old.isEngineRun := by
      rw [hrun']
      exact hkind
    refine ⟨⟨_, hrun'⟩, ?_, ?_, ?_, ?_, ?_⟩
    · rw [hon]
      exact h.trails.update_run hgetrun hs hc hkindrun
    · intro v hv hengine hne
      have hv : v ∈ (Db.workflowRuns (tr.on D)).update old run := by
        have htable : Db.workflowRuns (Database.apply ⟨.workflowRuns, .update old run⟩ (tr.on D)) =
            (Db.workflowRuns (tr.on D)).update old run := Database.apply_table_self ..
        rw [← htable, ← hon]
        exact hv
      rcases (Table.mem_update hs hc).mp hv with rfl | ⟨hv, -⟩
      · exact absurd rfl hne
      · exact h.rest v hv hengine (by rw [← hidrun]; exact hne)
    · rw [hon]
      show ((Database.apply _ (tr.on D)).table .workflowRuns).get run.id = some run
      rw [Database.apply_table_self]
      exact (Table.get_update hs hc run.id).trans (if_pos rfl)
    · rw [hrun']
      exact hheld
    · rw [hon]
      exact OwnMove.of_update hgetrun hs hc hkindrun

variable (hown : ∀ D D', OwnMove D D' → safe D → safe D')

include hown

/-- **A move of the run in hand**: the UPDATE and its entry. -/
theorem move_sees {new : WorkflowRun} {status : RunStatus} {reason : String} {u : Unit}
    (h : InHand safe D tr w) (hflush : (flush .workflowRuns w new).sees past D tr run tr₁)
    (haudit : (audit run (some w.status) status reason).sees past D tr₁ u tr₂)
    (hid : new.id = w.id) (hkind : new.isEngineRun = w.isEngineRun) (hstatus : new.status = status)
    (hmove : w.isEngineRun = true → Change.mayMove w.state new.state = true) :
    InHand safe D tr₂ run ∧ ∃ v, run = { new with version := v } := by
  obtain ⟨⟨v, hrun⟩, htrails, hrest, hcurrent, hlocked, hmoved⟩ := flush_sees h hflush hid hkind
  have hentered : OwnMove (tr₁.on D) (tr₂.on D) :=
    OwnMove.of_sees (Tx.confined_mono addAudit_confined (by decide)) haudit
  have hsafe := hown _ _ (hmoved.trans hentered) h.safe
  obtain rfl : run.status = status := by
    rw [hrun]
    exact hstatus
  obtain ⟨a, ha, hconf, hwrites⟩ := audit_sees haudit
  have hon : tr₂.on D = Database.apply ⟨.auditEvents, .insert a⟩ (tr₁.on D) :=
    on_of_writes hwrites D
  refine ⟨⟨?_, ?_, ?_, held_subset_of_sees haudit hlocked, hsafe⟩, v, hrun⟩
  · rw [hon]
    refine htrails.enter (Table.mem_of_get hcurrent) hconf ha fun hengine => ?_
    have hengine' : w.isEngineRun = true := by
      rw [← hkind]
      rw [hrun] at hengine
      exact hengine
    have hstate : run.state = new.state := by
      rw [hrun]
      rfl
    unfold Change.advance
    rw [hstate]
    exact if_pos ⟨rfl, hmove hengine'⟩
  · intro v hv
    rw [hon, workflowRuns_of_entry] at hv
    exact hrest v hv
  · rw [hon, workflowRuns_of_entry]
    exact hcurrent

/-! ## The actions of the engine -/

omit hown in
/-- An event leaves the runs and their trails alone. -/
theorem emit_sameTrails {payload : EventPayload} {context : EventContext} {key : String}
    {event : DomainEvent}
    (h : (DatabaseEventStore.emit payload context key).sees past D tr event tr') :
    SameTrails (tr.on D) (tr'.on D) := by
  have hconfined : (DatabaseEventStore.emit payload context key).confined [.domainEvents] :=
    DatabaseEventStore.emit_confined
  obtain ⟨seen, hoff⟩ :=
    sees_of_ensures (ensures_of_confined hconfined ⟨tr.held, D, tr.on D⟩) h
  have hruns : Db.workflowRuns (tr'.on D) = Db.workflowRuns (tr.on D) :=
    hoff .workflowRuns (by decide)
  refine ⟨fun w _ => by rw [hruns], fun i => Db.trail_congr ?_ i, earlier_of_sees h⟩
  exact hoff .auditEvents (by decide)

/-- A failure is a move from any state. -/
theorem terminalFailure_sees {reason : String} {retryable : Bool} (h : InHand safe D tr w)
    (hsees : (terminalFailure w reason retryable).sees past D tr run tr') :
    Trailed safe (tr'.on D) := by
  obtain ⟨now, tr₁, ⟨env, hnow, rfl⟩, h₁⟩ := sees_bind.mp hsees
  obtain ⟨row, tr₂, hflush, h₂⟩ := sees_bind.mp h₁
  obtain ⟨u, tr₃, haudit, h₃⟩ := sees_bind.mp h₂
  obtain ⟨event, tr₄, hemit, h₄⟩ := sees_bind.mp h₃
  obtain ⟨-, rfl⟩ := h₄
  obtain ⟨hmoved, v, hrow⟩ := move_sees hown h hflush haudit rfl rfl rfl fun _ => by
    simp [Change.mayMove, WorkflowRun.state, failed]
  have htold : OwnMove (tr₃.on D) (tr₄.on D) :=
    OwnMove.of_sees (Tx.confined_mono DatabaseEventStore.emit_confined (by decide)) hemit
  refine (hmoved.letGo fun _ => ?_).same (emit_sameTrails hemit) (hown _ _ htold hmoved.safe)
  rw [hrow]
  exact fun hstatus => (by cases hstatus)

/-- A failed step ends in a retry or in a failure, and both are moves from a running run. -/
theorem stepFailed_sees {policy : WorkflowExecutionPolicy} {e : Error} {now : Instant}
    (h : InHand safe D tr w) (hstatus : w.isEngineRun = true → w.status = .running)
    (hsees : (stepFailed w policy e now).sees past D tr run tr') : Trailed safe (tr'.on D) := by
  unfold stepFailed at hsees
  split at hsees
  · exact terminalFailure_sees hown h hsees
  · split at hsees
    · exact terminalFailure_sees hown h hsees
    · obtain ⟨row, tr₁, hflush, h₁⟩ := sees_bind.mp hsees
      obtain ⟨u, tr₂, haudit, h₂⟩ := sees_bind.mp h₁
      obtain ⟨-, rfl⟩ := h₂
      obtain ⟨hmoved, v, hrow⟩ := move_sees hown h hflush haudit rfl rfl rfl fun hengine => by
        simp [Change.mayMove, WorkflowRun.state, retrying, hstatus hengine]
      refine hmoved.letGo fun _ => ?_
      rw [hrow]
      exact fun hstatus => (by cases hstatus)

/-- A step that returned ends in success or in a pause, and so are these. -/
theorem stepReturned_sees {outcome : WorkflowOutcome} {now : Instant} (h : InHand safe D tr w)
    (hstatus : w.isEngineRun = true → w.status = .running)
    (hsees : (stepReturned w outcome now).sees past D tr run tr') : Trailed safe (tr'.on D) := by
  obtain ⟨row, tr₁, hflush, h₁⟩ := sees_bind.mp hsees
  have hkind : (finished w outcome now).isEngineRun = w.isEngineRun := by
    unfold finished
    split <;> rfl
  -- the entry says what the outcome made of the run
  have hmove : ∀ {status : RunStatus} {reason : String} {tr₂ u},
      (finished w outcome now).status = status → (status = .pending ∨ status = .succeeded) →
        (audit row (some w.status) status reason).sees past D tr₁ u tr₂ →
          Trailed safe (tr₂.on D) := by
    intro status reason tr₂ u hfinished hcases haudit
    have hattempts : (finished w outcome now).attempts = w.attempts := by
      unfold finished
      split <;> rfl
    obtain ⟨hmoved, v, hrow⟩ := move_sees hown h hflush haudit finished_id hkind hfinished
      fun hengine => by
      rcases hcases with rfl | rfl <;>
        simp [Change.mayMove, WorkflowRun.state, hfinished, hattempts, hstatus hengine]
    refine hmoved.letGo fun _ => ?_
    rw [hrow]
    show (finished w outcome now).status ≠ .running
    rw [hfinished]
    rcases hcases with rfl | rfl <;> decide
  cases happroval : outcome.approvalId with
  | some approvalId =>
    rw [happroval] at h₁
    obtain ⟨u, tr₂, haudit, h₂⟩ := sees_bind.mp h₁
    obtain ⟨-, rfl⟩ := h₂
    refine hmove ?_ (Or.inl rfl) haudit
    simp [finished, happroval]
  | none =>
    rw [happroval] at h₁
    obtain ⟨u, tr₂, haudit, h₂⟩ := sees_bind.mp h₁
    obtain ⟨-, rfl⟩ := h₂
    refine hmove ?_ (Or.inr rfl) haudit
    simp [finished, happroval]

/-- A new run in hand, with its first entry. -/
theorem create_sees [Digests] {definition : WorkflowDefinition} {event : EventEnvelope}
    {now : Instant} (h : Trailed safe (tr.on D))
    (hsees : (create definition event now).sees past D tr run tr') : InHand safe D tr' run := by
  obtain ⟨id, tr₁, ⟨env, hid, rfl⟩, h₁⟩ := sees_bind.mp hsees
  obtain ⟨createdAt, tr₂, ⟨env', hcreated, rfl⟩, h₂⟩ := sees_bind.mp h₁
  dsimp only at h₂
  obtain ⟨w, tr₃, hadd, h₃⟩ := sees_bind.mp h₂
  obtain ⟨u, tr₄, haudit, h₄⟩ := sees_bind.mp h₃
  obtain ⟨rfl, rfl⟩ := h₄
  have hheld := held_of_insert hadd
  obtain ⟨hw, hconf, hwrites⟩ := sees_insert hadd
  rw [← hw] at hconf hwrites
  have hconf : (Db.workflowRuns (tr.on D)).conflicts w = false := hconf
  have hstatus : w.status = .pending := by rw [hw]
  have hon : tr₃.on D = Database.apply ⟨.workflowRuns, .insert w⟩ (tr.on D) :=
    on_of_writes hwrites D
  have htable : Db.workflowRuns (tr₃.on D) = (Db.workflowRuns (tr.on D)).insert w := by
    rw [hon]
    exact Database.apply_table_self ..
  rw [← hstatus] at haudit
  obtain ⟨a, ha, hconf', hwrites'⟩ := audit_sees haudit
  have hon' : tr₄.on D = Database.apply ⟨.auditEvents, .insert a⟩ (tr₃.on D) :=
    on_of_writes hwrites' D
  have htable' : Db.workflowRuns (tr₄.on D) = (Db.workflowRuns (tr.on D)).insert w := by
    rw [hon', workflowRuns_of_entry, htable]
  have hentered : OwnMove (tr₃.on D) (tr₄.on D) :=
    OwnMove.of_sees (Tx.confined_mono addAudit_confined (by decide)) haudit
  -- inserting the run leaves its trail one entry behind, and the entry makes up for it
  have hcreated : OwnMove (tr.on D) (tr₃.on D) := by
    rw [hon]
    exact OwnMove.of_insert hconf
  refine ⟨?_, fun v hv hengine hne => ?_, ?_, held_subset_of_sees haudit hheld,
    hown _ _ (hcreated.trans hentered) h.safe⟩
  · have htrails : TrailAt (tr₃.on D) (lagging w.id none) := by
      rw [hon]
      exact h.trails.insert_run hconf
    rw [hon']
    refine htrails.enter ?_ hconf' ha fun _ => ?_
    · rw [htable, Table.mem_insert hconf]
      exact Or.inr rfl
    · rw [hw]
      rfl
  · rw [htable', Table.mem_insert hconf] at hv
    rcases hv with hv | rfl
    · exact h.rest v hv hengine (by simp)
    · exact absurd rfl hne
  · rw [htable']
    exact (Table.get_insert hconf w.id).trans (if_pos rfl)

end WorkflowEngine

/-! ## Steps -/

/-- A step that does nothing leaves the trails. -/
theorem SameTrails.refl (D : Db) : SameTrails D D :=
  ⟨fun _ _ => Iff.rfl, fun _ => rfl, Store.earlier_refl D⟩

/-- Started on a safe database, the transaction leaves the runs of the engine and their trails
    alone, and the database safe. -/
def Tx.LeavesTrails (safe : Db → Prop) {α : Type} (p : Tx α) : Prop :=
  ∀ (past : Db → Prop) (D : Db) tr a tr', safe (tr.on D) → p.sees past D tr a tr' →
    SameTrails (tr.on D) (tr'.on D) ∧ safe (tr'.on D)

/-- Every registered step does, and the engine itself keeps the database safe for them. -/
structure WorkflowEngine.LeavesTrails (safe : Db → Prop) (engine : WorkflowEngine) : Prop where
  /-- every registered step leaves the trails alone -/
  steps : ∀ name definition, engine.definitions name = some definition →
    ∀ event run, (definition.step event run).LeavesTrails safe
  /-- and the engine's own moves keep the database safe -/
  own : ∀ D D', OwnMove D D' → safe D → safe D'

/-- In a nested transaction it still does: one that failed has left nothing behind. -/
theorem Tx.LeavesTrails.savepoint {α : Type} {p : Tx α} (hp : p.LeavesTrails safe) :
    Tx.LeavesTrails safe (Prog.savepoint p) := by
  intro past D tr r tr' hsafe h
  rcases sees_savepoint h with ⟨a, held, -, hsees⟩ | ⟨-, hundone⟩
  · exact hp past D tr a ⟨held, tr'.writes⟩ hsafe hsees
  · have hon : tr'.on D = tr.on D := congrArg (fun ws => Store.applyAll ws D) hundone
    rw [hon]
    exact ⟨SameTrails.refl _, hsafe⟩

namespace WorkflowEngine

/-- **An attempt**, whatever its step does, leaves the trails up to date and is over. -/
theorem execute_sees {definition : WorkflowDefinition} {event : EventEnvelope} {now : Instant}
    (hown : ∀ D D', OwnMove D D' → safe D → safe D')
    (hstep : ∀ event run, (definition.step event run).LeavesTrails safe) (h : InHand safe D tr w)
    (hsees : (execute w definition event now).sees past D tr run tr') :
    Trailed safe (tr'.on D) := by
  unfold execute at hsees
  split at hsees
  · exact terminalFailure_sees hown h hsees
  · obtain ⟨row, tr₁, hflush, h₁⟩ := sees_bind.mp hsees
    obtain ⟨u, tr₂, haudit, h₂⟩ := sees_bind.mp h₁
    obtain ⟨hmoved, v, hrow⟩ := move_sees hown h hflush haudit rfl rfl rfl fun _ => by
      simp [Change.mayMove, WorkflowRun.state, started]
    have hrunning : row.status = .running := by rw [hrow]; rfl
    obtain ⟨outcome, tr₃, hstepSees, h₃⟩ := sees_bind.mp h₂
    obtain ⟨hsame, hsafe⟩ :=
      (hstep event row).savepoint past D tr₂ outcome tr₃ hmoved.safe hstepSees
    obtain ⟨current, hcurrent, hid, hkind, heq⟩ :=
      hmoved.same hsame hsafe (held_subset_of_sees hstepSees)
    have hstatus : current.isEngineRun = true → current.status = .running := by
      intro hengine
      rw [heq (hkind ▸ hengine)]
      exact hrunning
    obtain ⟨found, tr₄, hselect, h₄⟩ := sees_bind.mp h₃
    obtain ⟨rfl, D₁, -, -, hagree, hread⟩ := sees_query hselect
    obtain ⟨reread, tr₅, hthrow, h₅⟩ := sees_bind.mp h₄
    obtain ⟨rfl, rfl⟩ := Tx.sees_orThrow hthrow
    -- the row lock kept the others from the run
    rw [← hid] at hread
    obtain rfl := hcurrent.eq_of_reread hagree hread
    cases outcome with
    | error e => exact stepFailed_sees hown hcurrent hstatus h₅
    | ok outcome => exact stepReturned_sees hown hcurrent hstatus h₅

variable [Digests] {engine : WorkflowEngine} {now : Instant}

/-- **A delivery** finds its run under a lock or creates it, and attempts it if it is not over. -/
theorem handleEvent_sees (hengine : engine.LeavesTrails safe) {name : String}
    {event : EventEnvelope}
    (h : Trailed safe (tr.on D))
    (hsees : (engine.handleEvent name event now).sees past D tr run tr') :
    Trailed safe (tr'.on D) := by
  obtain ⟨definition, tr₁, hdefinition, h₁⟩ := sees_bind.mp hsees
  obtain ⟨hd, rfl⟩ := Tx.sees_orThrow hdefinition
  dsimp only at h₁
  obtain ⟨found, tr₂, hselect, h₂⟩ := sees_bind.mp h₁
  have hrest : ∀ {w tr₃}, InHand safe D tr₃ w →
      (if w.status.isTerminal then pure w else execute w definition event now).sees past D tr₃ run
        tr' → Trailed safe (tr'.on D) := by
    intro w tr₃ hhand h₃
    split at h₃
    · rename_i hterminal
      obtain ⟨rfl, rfl⟩ := h₃
      refine hhand.letGo fun _ hrunning => ?_
      rw [hrunning] at hterminal
      cases hterminal
    · exact execute_sees hengine.own (hengine.steps name definition hd) hhand h₃
  cases found with
  | some w => exact hrest (InHand.of_selectForUpdate h hselect) h₂
  | none =>
    obtain ⟨w, tr₃, hcreate, h₃⟩ := sees_bind.mp h₂
    have hon : tr₂.on D = tr₁.on D :=
      congrArg (fun ws => Store.applyAll ws D) (sees_selectForUpdate hselect).1
    rw [← hon] at h
    exact hrest (create_sees hengine.own h hcreate) h₃

omit [Digests] in
/-- To clear a granted approval is no move, for the state of a run has no approval in it. -/
theorem clearApproval_sees (hown : ∀ D D', OwnMove D D' → safe D → safe D')
    (h : InHand safe D tr w) (hsees : (clearApproval w).sees past D tr run tr') :
    InHand safe D tr' run ∧ run.state = w.state ∧ run.isEngineRun = w.isEngineRun := by
  unfold clearApproval at hsees
  split at hsees
  · obtain ⟨rfl, rfl⟩ := hsees
    exact ⟨h, rfl, rfl⟩
  · obtain ⟨approval, tr₁, hselect, h₁⟩ := sees_bind.mp hsees
    obtain ⟨rfl, -⟩ := sees_query hselect
    obtain ⟨u, tr₂, hrequire, hflush⟩ := sees_bind.mp h₁
    obtain ⟨-, rfl⟩ := Tx.sees_require hrequire
    obtain ⟨⟨v, hrun⟩, htrails, hrest, hcurrent, hlocked, hmoved⟩ := flush_sees h hflush rfl rfl
    have hstate : run.state = w.state := by
      rw [hrun]
      rfl
    refine ⟨⟨htrails.congr fun x hx _ => ?_, hrest, hcurrent, hlocked,
      hown _ _ hmoved h.safe⟩, hstate, ?_⟩
    · unfold lagging upToDate
      split
      · rename_i hid
        have hx : x ∈ Db.workflowRuns (tr'.on D) := hx
        have heq : x = run := Table.eq_of_key_eq _ hx (Table.mem_of_get hcurrent) hid
        rw [heq, hstate]
      · rfl
    · rw [hrun]
      rfl

omit [Digests] in
/-- **A resumption** finds its run under a lock, clears its approval, and attempts it. -/
theorem resume_sees (hengine : engine.LeavesTrails safe) {workflowId : Uuid}
    (h : Trailed safe (tr.on D))
    (hsees : (engine.resume workflowId now).sees past D tr run tr') : Trailed safe (tr'.on D) := by
  obtain ⟨found, tr₁, hselect, h₁⟩ := sees_bind.mp hsees
  obtain ⟨w, tr₂, hfound, h₂⟩ := sees_bind.mp h₁
  obtain ⟨rfl, rfl⟩ := Tx.sees_orThrow hfound
  have hhand := InHand.of_selectForUpdate h hselect
  have hbefore : w.isEngineRun = true → w.status ≠ .running := by
    intro hkind
    have hon : tr₂.on D = tr.on D :=
      congrArg (fun ws => Store.applyAll ws D) (sees_selectForUpdate hselect).1
    have hmem : w ∈ Db.workflowRuns (tr.on D) := by
      rw [← hon]
      exact Table.mem_of_get hhand.current
    exact h.rest w hmem hkind (by simp)
  obtain ⟨definition, tr₃, hdefinition, h₃⟩ := sees_bind.mp h₂
  obtain ⟨hd, rfl⟩ := Tx.sees_orThrow hdefinition
  cases hsource : w.sourceEventId with
  | none =>
    rw [hsource] at h₃
    exact terminalFailure_sees hengine.own hhand h₃
  | some sourceEventId =>
    rw [hsource] at h₃
    obtain ⟨cleared, tr₄, hclear, h₄⟩ := sees_bind.mp h₃
    obtain ⟨hcleared, hstate, hsame⟩ := clearApproval_sees hengine.own hhand hclear
    split at h₄
    · obtain ⟨rfl, rfl⟩ := h₄
      refine hcleared.letGo fun hkind hrunning => hbefore (hsame ▸ hkind) ?_
      have hstatus : cleared.status = w.status := congrArg RunState.status hstate
      rw [← hstatus]
      exact hrunning
    · obtain ⟨record, tr₅, hrecord, h₅⟩ := sees_bind.mp h₄
      obtain ⟨rfl, -⟩ := sees_query hrecord
      cases record with
      | none => exact terminalFailure_sees hengine.own hcleared h₅
      | some record => exact execute_sees hengine.own (hengine.steps _ definition hd) hcleared h₅

omit [Digests] in
/-- Some resumptions, by induction on the runs of a retry pass. -/
theorem resumeAll_sees (hengine : engine.LeavesTrails safe) {workflows runs : List WorkflowRun}
    (h : Trailed safe (tr.on D))
    (hsees : (engine.resumeAll now workflows).sees past D tr runs tr') :
    Trailed safe (tr'.on D) := by
  induction workflows generalizing tr runs with
  | nil =>
    obtain ⟨-, rfl⟩ := hsees
    exact h
  | cons w workflows ih =>
    obtain ⟨run, tr₁, hresume, h₁⟩ := sees_bind.mp hsees
    obtain ⟨rest, tr₂, hrest, h₂⟩ := sees_bind.mp h₁
    obtain ⟨-, rfl⟩ := h₂
    exact ih (resume_sees hengine h hresume) hrest

omit [Digests] in
/-- **A retry pass** keeps the trails: it selects its runs FOR UPDATE, and each resumption locks its
    own again. -/
theorem retryDue_sees (hengine : engine.LeavesTrails safe) {limit : Nat} {runs : List WorkflowRun}
    (h : Trailed safe (tr.on D))
    (hsees : (engine.retryDue now limit).sees past D tr runs tr') : Trailed safe (tr'.on D) := by
  obtain ⟨workflows, tr₁, hselect, h₁⟩ := sees_bind.mp hsees
  obtain ⟨D₁, -, -, rfl⟩ := hselect
  refine resumeAll_sees hengine ?_ h₁
  rw [Trail.on_extend]
  exact h

end WorkflowEngine

end Hand

/-! ## The clients -/

/-- What a client of the engine runs: a call of the engine, or a transaction of its own. -/
inductive EngineClientCall (ω : Type) where
  | engine (call : EngineCall)
  | other (t : ω)

/-- The transaction of a client. -/
def EngineClientCall.run [Digests] {ω : Type} (engine : WorkflowEngine) (tx : ω → Tx Unit) :
    EngineClientCall ω → Tx Unit
  | .engine call => call.transaction engine
  | .other t => tx t

/-- Any number of clients, each with calls of its choice. -/
def engineRoom [Digests] {ω : Type} (engine : WorkflowEngine) (tx : ω → Tx Unit) :
    Client Db (Write TableName.Entity) DbLock Environment Error Unit (EngineClientCall ω) :=
  Client.ofCalls (EngineClientCall.run engine tx) .operationalError

/-- The engine has not worked on the database yet. -/
structure Unworked (D : Db) : Prop where
  /-- no run is the engine's -/
  runs : ∀ w ∈ D.workflowRuns, w.isEngineRun = false
  /-- and no entry tells of a change of state -/
  entries : ∀ a ∈ D.auditEvents, a.isStateChange = false

/-- Where the engine has not worked there is nothing to tell. -/
theorem Unworked.trailed {safe : Db → Prop} {D : Db} (h : Unworked D) (hsafe : safe D) :
    Trailed safe D := by
  have hnone : ∀ w ∈ D.workflowRuns, w.isEngineRun = true → False := by
    intro w hw hengine
    rw [h.runs w hw] at hengine
    cases hengine
  refine ⟨⟨fun w hw hengine => (hnone w hw hengine).elim, fun i hi => ?_⟩,
    fun w hw hengine => (hnone w hw hengine).elim, hsafe⟩
  refine absurd (List.filterMap_eq_nil_iff.mpr fun a ha => ?_) hi
  simp [AuditEvent.changeOf, h.entries a ha]

/-! ## An engine that has to try twice -/

/-- An engine with one workflow, whose first attempt fails. -/
def stutteringEngine : WorkflowEngine where
  definitions name :=
    if name = "job" then
      some ⟨"job", 1, fun _ run => if run.attempts = 1 then Tx.throw .runtimeError "not yet" else
        pure none, ⟨3, 300, 30⟩⟩
    else none

/-- The one step of that engine writes nothing. -/
theorem stutteringEngine_leavesTrails : stutteringEngine.LeavesTrails fun _ => True := by
  refine ⟨fun name definition hd event run past D tr outcome tr' _ hsees => ?_, fun _ _ _ h => h⟩
  unfold stutteringEngine at hd
  dsimp only at hd
  split at hd
  · obtain rfl := Option.some.inj hd
    dsimp only at hsees
    split at hsees
    · exact hsees.elim
    · obtain ⟨-, rfl⟩ := hsees
      exact ⟨SameTrails.refl _, trivial⟩
  · cases hd

/-- The engine has not worked on the sample outbox. -/
theorem sampleOutbox_unworked : Unworked sampleOutbox :=
  ⟨fun w hw => absurd hw (Table.not_mem_empty w), fun a ha => absurd ha (Table.not_mem_empty a)⟩

/-- The event is delivered, and the run taken up again a minute later: the two calls, one after the
    other, are one of the interleavings. -/
theorem stuttering_reachable :
    ∃ sys, System.Reachable (@engineRoom Digests.byEnding Empty stutteringEngine Empty.elim)
        sampleOutbox sys ∧
      sys.committed = afterCalls
        (@EngineClientCall.run Digests.byEnding Empty stutteringEngine Empty.elim)
        Environment.numbered 0 [.engine (.deliver "job" sampleEvent 5),
          .engine (.retry (seconds 60) 10)] sampleOutbox :=
  System.Reachable.sequential Environment.numbered _ _ sampleOutbox

section Clients

variable [Digests] {ω : Type} {engine : WorkflowEngine} {tx : ω → Tx Unit} {D₀ : Db}
variable {safe : Db → Prop}

/-- **Step lemma.**  Every call keeps the trails. -/
theorem EngineClientCall.run_sees (hengine : engine.LeavesTrails safe)
    (htx : ∀ t, (tx t).LeavesTrails safe) {past : Db → Prop} {c : EngineClientCall ω} {D : Db}
    {u : Unit}
    {tr : Trail (Write TableName.Entity) DbLock} (h : Trailed safe D)
    (hsees : (c.run engine tx).sees past D .start u tr) : Trailed safe (tr.on D) := by
  cases c with
  | other t =>
    obtain ⟨hsame, hsafe⟩ := htx t past D .start u tr h.safe hsees
    exact h.same hsame hsafe
  | engine call =>
    have hstart : Trailed safe ((Trail.start : Trail (Write TableName.Entity) DbLock).on D) := h
    cases call with
    | deliver name event now =>
      obtain ⟨run, tr₁, hcall, h₁⟩ := sees_bind.mp hsees
      obtain ⟨-, rfl⟩ := h₁
      exact WorkflowEngine.handleEvent_sees hengine hstart hcall
    | resume workflowId now =>
      obtain ⟨run, tr₁, hcall, h₁⟩ := sees_bind.mp hsees
      obtain ⟨-, rfl⟩ := h₁
      exact WorkflowEngine.resume_sees hengine hstart hcall
    | retry now limit =>
      obtain ⟨runs, tr₁, hcall, h₁⟩ := sees_bind.mp hsees
      obtain ⟨-, rfl⟩ := h₁
      exact WorkflowEngine.retryDue_sees hengine hstart hcall

variable {sys : System Db (Write TableName.Entity) DbLock Environment Error Unit
  (EngineClientCall ω)}

/-- **Run lemma.**  In every reachable state the trails are up to date, because each call keeps them
    so from any state in which they are. -/
theorem Trailed.of_reachable (hengine : engine.LeavesTrails safe)
    (htx : ∀ t, (tx t).LeavesTrails safe) (hsafe : safe D₀) (h₀ : Unworked D₀)
    (h : System.Reachable (engineRoom engine tx) D₀ sys) :
    Trailed safe sys.committed := by
  have hprotocol :=
    h.upheld (Protocol.ofInv (Trailed safe) (h₀.trailed hsafe) fun _ _ _ _ _ hD hsees =>
    EngineClientCall.run_sees hengine htx hD hsees)
  exact hprotocol.inv

/-- **The trail replays to the run.**  In every reachable state the entries of a run of the engine
    are a chain of moves: it begins with the creation, each entry starts from the status the one
    before it ended with, and the last ends with the run's status, step and attempts.  There are
    as many attempts as entries that say `running`. -/
theorem trail_replays_to_run (hengine : engine.LeavesTrails safe)
    (htx : ∀ t, (tx t).LeavesTrails safe) (hsafe : safe D₀) (h₀ : Unworked D₀)
    (h : System.Reachable (engineRoom engine tx) D₀ sys) :
    ∀ w ∈ sys.committed.workflowRuns, w.isEngineRun = true →
      ∃ changes, Db.trail sys.committed w.id = changes.map Change.dump ∧
        Change.replay changes = some (some w.state) ∧
        w.attempts = (changes.countP fun c => c.after.status = .running : Nat) := by
  intro w hw hkind
  obtain ⟨changes, htrail, hreplay⟩ :=
    (Trailed.of_reachable hengine htx hsafe h₀ h).trails.replays w hw hkind
  exact ⟨changes, htrail, hreplay, Change.attempts_of_replay hreplay⟩

omit [Digests] in
/-- Delivered and retried: two attempts, the first of which failed. -/
theorem trail_replays_to_run_sample :
    ∃ sys, System.Reachable (@engineRoom Digests.byEnding Empty stutteringEngine Empty.elim)
        sampleOutbox sys ∧
      Db.trail sys.committed (sampleRunId 0) =
        [⟨none, .pending, some "queued", 0⟩, ⟨some .pending, .running, some "executing", 1⟩,
          ⟨some .running, .retrying, some "retry_scheduled", 1⟩,
          ⟨some .retrying, .running, some "executing", 2⟩,
          ⟨some .running, .succeeded, some "completed", 2⟩].map Change.dump ∧
      ∀ w ∈ sys.committed.workflowRuns, w.isEngineRun = true →
        ∃ changes, Db.trail sys.committed w.id = changes.map Change.dump ∧
          Change.replay changes = some (some w.state) ∧
          w.attempts = (changes.countP fun c => c.after.status = .running : Nat) := by
  obtain ⟨sys, h, hD⟩ := stuttering_reachable
  refine ⟨sys, h, ?_, @trail_replays_to_run Digests.byEnding _ _ _ _ _ _
    stutteringEngine_leavesTrails (fun t => t.elim) trivial sampleOutbox_unworked h⟩
  rw [hD]
  decide

/-- **No attempt is left open**: whenever a state is committed, whatever crashed before, every run
    of the engine is between attempts. -/
theorem no_attempt_is_left_open (hengine : engine.LeavesTrails safe)
    (htx : ∀ t, (tx t).LeavesTrails safe) (hsafe : safe D₀) (h₀ : Unworked D₀)
    (h : System.Reachable (engineRoom engine tx) D₀ sys) :
    ∀ w ∈ sys.committed.workflowRuns, w.isEngineRun = true → w.status ≠ .running :=
  fun w hw hkind => (Trailed.of_reachable hengine htx hsafe h₀ h).rest w hw hkind (by simp)

omit [Digests] in
/-- After the two attempts the run has succeeded. -/
theorem no_attempt_is_left_open_sample :
    ∃ sys, System.Reachable (@engineRoom Digests.byEnding Empty stutteringEngine Empty.elim)
        sampleOutbox sys ∧
      sys.committed.workflowRuns.rows.map (·.status) = [.succeeded] ∧
      ∀ w ∈ sys.committed.workflowRuns, w.isEngineRun = true → w.status ≠ .running := by
  obtain ⟨sys, h, hD⟩ := stuttering_reachable
  refine ⟨sys, h, ?_, @no_attempt_is_left_open Digests.byEnding _ _ _ _ _ _
    stutteringEngine_leavesTrails (fun t => t.elim) trivial sampleOutbox_unworked h⟩
  rw [hD]
  decide

end Clients

end CommerceOperations
