/-
  Budgets and the accounting of what the language model reports.

  `UsageAccounting` is asked before each call of the model (`authorize`) and told after it
  (`record`).  The budget is one of a calendar month, so the model has the calendar: the start of
  the month is computed from the number of days since 1970, by the usual count of eras of 400 years
  that begin in March.

  Two sessions may both be authorized before either records, and the model keeps that: `authorize`
  is a plain read of what is committed.
-/
import CommerceOperations.Events.Store

namespace CommerceOperations

open Relational

/-- A day, in microseconds. -/
def day : Int := hours 24

/-- The day of the month of a day that is counted from 1970-01-01, in the Gregorian calendar.
    Years are counted from March, in eras of 400 years. -/
def dayOfMonth (days : Int) : Int :=
  let shifted := days + 719468
  let dayOfEra := shifted % 146097
  let yearOfEra :=
    (dayOfEra - dayOfEra / 1460 + dayOfEra / 36524 - dayOfEra / 146096) / 365
  let dayOfYear := dayOfEra - (365 * yearOfEra + yearOfEra / 4 - yearOfEra / 100)
  let month := (5 * dayOfYear + 2) / 153
  dayOfYear - (153 * month + 2) / 5 + 1

/-- `now.replace(day=1, hour=0, minute=0, second=0, microsecond=0)`. -/
def monthStart (now : Instant) : Instant :=
  let days := now / day
  (days - (dayOfMonth days - 1)) * day

example : dayOfMonth 0 = 1 := by decide
example : dayOfMonth 19782 = 29 := by decide

/-- `UsageAccounting`: two limits, each of which may be absent, and the currency they are in. -/
structure UsageAccounting where
  monthlyLimit : Option Rat
  workflowLimit : Option Rat
  currency : String

namespace UsageAccounting

/-- `authorize`: raise where the month has used up its limit, or the workflow its own.  A run in
    another currency counts against neither. -/
def authorize (accounting : UsageAccounting) (workflow : Option WorkflowRun) : Tx Unit := do
  let now ← Tx.now
  let monthly ← Tx.select fun D =>
    ((D.agentRuns.rows.filter fun run => monthStart now ≤ run.createdAt ∧
      run.costCurrency = some accounting.currency).map (·.costAmount)).sum
  Tx.require (accounting.monthlyLimit.all fun limit => monthly < limit) .spendingLimitExceeded
    "Monthly AI spending limit reached"
  Tx.require (accounting.workflowLimit.all fun limit => workflow.all fun run =>
      run.costCurrency = some accounting.currency → run.costAmount < limit)
    .spendingLimitExceeded "Workflow AI spending limit reached"

/-- What the runs of the month of `t` have cost, in the currency of the budget. -/
def spent (accounting : UsageAccounting) (t : Instant) (D : Db) : Rat :=
  ((D.agentRuns.rows.filter fun run => monthStart t ≤ run.createdAt ∧
    run.costCurrency = some accounting.currency).map (·.costAmount)).sum

/-- There is budget left in the month of `t`.  This is the first of the two conditions `authorize`
    checks, as a property of the state. -/
def Authorized (accounting : UsageAccounting) (t : Instant) (D : Db) : Prop :=
  accounting.monthlyLimit.all (accounting.spent t D < ·)

/-- A call that was authorized found budget at the time it read the clock, and wrote nothing.  The
    clock may be fixed from outside, as it is where a whole call happens at one time. -/
theorem authorize_runs {accounting : UsageAccounting} {workflow : Option WorkflowRun}
    {g : Environment → Environment} {D D' : Db} {u : Unit}
    (h : ((accounting.authorize workflow).under g).runs D (.ok (u, D'))) :
    (∃ env, accounting.Authorized (g env).now D) ∧ D' = D := by
  obtain ⟨now, D₁, ⟨env, hnow⟩, h₁⟩ := Prog.runs_under_bind.mp h
  cases hnow
  obtain ⟨monthly, D₂, hselect, h₂⟩ := Prog.runs_under_bind.mp h₁
  obtain ⟨hmonthly, rfl⟩ := Tx.runs_select.mp (Prog.runs_of_under hselect)
  obtain ⟨_, D₃, hrequire, h₃⟩ := Prog.runs_under_bind.mp h₂
  obtain ⟨hlimit, rfl⟩ := Tx.runs_require.mp (Prog.runs_of_under hrequire)
  obtain ⟨-, rfl⟩ := Tx.runs_require.mp (Prog.runs_of_under h₃)
  rw [hmonthly] at hlimit
  exact ⟨⟨env, hlimit⟩, rfl⟩

/-- `record`, for a run without a workflow: what the provider reported is copied into the agent run,
    and the cost is rounded when the column is written. -/
def record (agentRun : AgentRun) (usage : LLMUsage) : Tx AgentRun := do
  Tx.require (0 ≤ usage.costAmount ∧ 0 ≤ usage.inputTokens ∧ 0 ≤ usage.outputTokens) .valueError
    "AI usage cannot be negative"
  pure
    { agentRun with
      inputTokens := usage.inputTokens
      outputTokens := usage.outputTokens
      costAmount := money usage.costAmount
      costCurrency := usage.costCurrency }

/-- Recording changes the object it is given, not the database. -/
theorem record_runs {agentRun accounted : AgentRun} {usage : LLMUsage} {D D' : Db}
    (h : (record agentRun usage).runs D (.ok (accounted, D'))) : D' = D := by
  obtain ⟨_, D₁, hrequire, h₁⟩ := Prog.runs_bind_ok.mp h
  obtain ⟨-, rfl⟩ := Tx.runs_require.mp hrequire
  cases h₁
  rfl

/-- `record`, for a run of a workflow, whose costs are in one currency. -/
def recordFor (workflow : WorkflowRun) (agentRun : AgentRun) (usage : LLMUsage) :
    Tx (WorkflowRun × AgentRun) := do
  let agentRun ← record agentRun usage
  match usage.costCurrency.filter (· ≠ "") with
  | none => pure (workflow, agentRun)
  | some costCurrency =>
    let currency := costCurrency.toUpper
    Tx.require (workflow.costCurrency.all fun c => c = currency) .valueError
      "A workflow cannot aggregate costs in multiple currencies"
    pure ({ workflow with
      costCurrency := some currency
      costAmount := money (workflow.costAmount + usage.costAmount) }, agentRun)

end UsageAccounting

end CommerceOperations
