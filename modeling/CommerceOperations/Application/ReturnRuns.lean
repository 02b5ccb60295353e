/-
  The reconciliation of returns as a step of the engine.

  What is proved of the runs of the engine asks something of its steps: a step leaves the runs, the
  reports of their failures and their audit trail alone.  Here the one step of this development
  that moves workflows pays that debt.

  The crux is the workflow of an order.  A reconciliation marks the order as returned, and to
  change the status of an order is to change the workflow run the order names as well.  Nothing in
  the step says that this run is none of the engine's; it is a property of the database.
  `OrdersApart` states it: an order names a run that is on record and is not the engine's.  The
  order service makes its orders that way, the engine's own writes keep it so, and from there on the
  reconciliation finds what it needs.

  * `Discreet`            — the writes that can be about no run, read off the write alone;
  * `Unmoved`             — what the engine asks of a step, as a relation of two states;
  * `setStatus_unmoved`   — the one place where a run is written, and why it is not the engine's;
  * `returnEngine_leavesRuns`, `returnEngine_leavesTrails` — the debt is paid.
-/
import CommerceOperations.Application.Returns
import CommerceOperations.Workflows.AuditTrail
import CommerceOperations.Workflows.Retries

namespace CommerceOperations

open Relational Prog

/-! ## Orders and runs -/

/-- Every order that names a run names one that is on record and is no run of the engine. -/
def OrdersApart (D : Db) : Prop :=
  ∀ o ∈ D.orders, ∀ i, o.workflowRunId = some i →
    ∃ w ∈ D.workflowRuns, w.id = i ∧ w.isEngineRun = false

/-- Between two steps the engine writes runs, but no order, and no run changes its kind. -/
theorem OrdersApart.own (D D' : Db) (hmove : OwnMove D D') (h : OrdersApart D) :
    OrdersApart D' := by
  have horders : D'.orders = D.orders := hmove.elsewhere .orders (by decide)
  intro o ho i hi
  rw [horders] at ho
  obtain ⟨w, hw, hid, hkind⟩ := h o ho i hi
  obtain ⟨w', hw', hid', hkind'⟩ := hmove.kinds w hw
  exact ⟨w', hw', hid'.trans hid, hkind'.trans hkind⟩

/-- What the engine asks of a step: the runs of the engine, their trails and the reports of their
    failures are as before.  Orders stay apart from them, so that the next step can rely on it. -/
structure Unmoved (D D' : Db) : Prop where
  /-- the runs of the engine and their audit trails are as before -/
  trails : SameTrails D D'
  /-- and so are the reports of their failures -/
  reports : ∀ i (e : DomainEvent), e.reports i → (e ∈ D'.domainEvents ↔ e ∈ D.domainEvents)
  /-- orders stay apart from them -/
  apart : OrdersApart D → OrdersApart D'

namespace Unmoved

variable {D D' D'' : Db}

/-- A step that does nothing moves nothing. -/
theorem refl (D : Db) : Unmoved D D := ⟨SameTrails.refl D, fun _ _ _ => Iff.rfl, id⟩

/-- What moves nothing, followed by what moves nothing, moves nothing. -/
theorem trans (h : Unmoved D D') (h' : Unmoved D' D'') : Unmoved D D'' := by
  refine ⟨⟨fun w hw => ?_, fun i => ?_, ?_⟩, fun i e he => ?_, h'.apart ∘ h.apart⟩
  · exact (h'.trails.runs w hw).trans (h.trails.runs w hw)
  · exact (h'.trails.trail i).trans (h.trails.trail i)
  · exact Store.earlier_trans h.trails.grows h'.trails.grows
  · exact (h'.reports i e he).trans (h.reports i e he)

/-- The engine's view of it in a run on its own. -/
theorem sameRuns (h : Unmoved D D') : SameRuns D D' :=
  fun i => ⟨fun w _ hengine => h.trails.runs w hengine, fun e he => h.reports i e he⟩

/-- Runs, entries and events are the same, and so are the orders. -/
theorem of_tables (hgrows : Store.earlier D D') (hruns : D'.workflowRuns = D.workflowRuns)
    (haudit : D'.auditEvents = D.auditEvents) (hevents : D'.domainEvents = D.domainEvents)
    (horders : D'.orders = D.orders) : Unmoved D D' := by
  refine ⟨⟨fun w _ => by rw [hruns], fun i => Db.trail_congr haudit i, hgrows⟩,
    fun i e _ => by rw [hevents], fun h o ho i hi => ?_⟩
  rw [horders] at ho
  rw [hruns]
  exact h o ho i hi

end Unmoved

/-! ## Writes that are about no run -/

/-- A write that is about no run: an entry that tells of no change of state, an event that reports
    no failure, or a row of the services.  Orders are not among them: what an order names matters. -/
def Discreet (w : Write TableName.Entity) : Prop :=
  match w with
  | ⟨.workflowRuns, _⟩ => False
  | ⟨.orders, _⟩ => False
  | ⟨.auditEvents, .insert a⟩ => AuditEvent.isStateChange a = false
  | ⟨.auditEvents, .update _ _⟩ => False
  | ⟨.domainEvents, .insert e⟩ => ∀ i, ¬DomainEvent.reports e i
  | ⟨.domainEvents, .update _ _⟩ => False
  | _ => True

/-- **A discreet write moves nothing.**  The cases are the tables: for a row of a service there is
    nothing to say, and for an entry or an event its own condition is used. -/
theorem Unmoved.of_write {w : Write TableName.Entity} (hw : Discreet w) (D : Db) :
    Unmoved D (Database.apply w D) := by
  obtain ⟨t, w⟩ := w
  have hgrows : Store.earlier D (Database.apply ⟨t, w⟩ D) := Store.earlier_apply ⟨t, w⟩ D
  have hruns : t ≠ .workflowRuns := by
    rintro rfl
    exact hw
  have horders : t ≠ .orders := by
    rintro rfl
    exact hw
  by_cases haudit : t = .auditEvents
  · subst haudit
    cases w with
    | update old new => exact hw.elim
    | insert a =>
      refine ⟨⟨fun _ _ => Iff.rfl, fun i => ?_, hgrows⟩, fun _ _ _ => Iff.rfl, id⟩
      cases hc : D.auditEvents.conflicts a with
      | true =>
        have htable : Db.auditEvents (Database.apply ⟨.auditEvents, .insert a⟩ D) = D.auditEvents :=
          (Database.apply_table_self ..).trans (Table.insert_of_conflict hc)
        exact Db.trail_congr htable i
      | false =>
        have hnone : a.changeOf i = none := by
          have hnot : a.isStateChange = false := hw
          simp [AuditEvent.changeOf, hnot]
        rw [trail_insert hc, hnone]
        exact List.append_nil _
  · by_cases hevents : t = .domainEvents
    · subst hevents
      cases w with
      | update old new => exact hw.elim
      | insert row =>
        refine ⟨⟨fun _ _ => Iff.rfl, fun _ => rfl, hgrows⟩, fun i e he => ?_, id⟩
        show e ∈ D.domainEvents.insert row ↔ _
        cases hc : D.domainEvents.conflicts row with
        | true => rw [Table.insert_of_conflict hc]
        | false =>
          rw [Table.mem_insert hc, or_iff_left]
          rintro rfl
          exact hw i he
    · exact Unmoved.of_tables hgrows (Database.apply_table_of_ne _ _ (Ne.symm hruns))
        (Database.apply_table_of_ne _ _ (Ne.symm haudit))
        (Database.apply_table_of_ne _ _ (Ne.symm hevents))
        (Database.apply_table_of_ne _ _ (Ne.symm horders))

/-- `p` makes discreet writes only. -/
abbrev Tx.IsDiscreet {α : Type} (p : Tx α) : Prop := p.writes Discreet fun _ => False

section Discreet

variable {past : Db → Prop} {D : Db} {tr tr' : Trail (Write TableName.Entity) DbLock}
variable {α : Type} {a : α}

/-- Wherever its transaction stands, such a program moves nothing. -/
theorem Unmoved.of_sees {p : Tx α} (hp : p.IsDiscreet) (h : p.sees past D tr a tr') :
    Unmoved (tr.on D) (tr'.on D) := by
  have hmaintains : p.maintains past D fun ws => Unmoved (tr.on D) (Store.applyAll ws D) := by
    refine maintains_of_writes (fun ws w hw hbefore => ?_) hp
    rw [Store.applyAll_append]
    exact hbefore.trans (Unmoved.of_write hw _)
  exact hmaintains tr a tr' (Unmoved.refl _) h

/-- A lookup that may raise writes nothing. -/
theorem Tx.isDiscreet_orThrow {a : Option α} {type : ExceptionType} {message : String} :
    (Tx.orThrow a type message).IsDiscreet := by
  cases a with
  | none => exact fun h => h
  | some a => exact trivial

/-- A requirement that may raise writes nothing. -/
theorem Tx.isDiscreet_require {cond : Prop} [Decidable cond] {type : ExceptionType}
    {message : String} : (Tx.require cond type message).IsDiscreet := by
  unfold Tx.require
  split
  · exact trivial
  · exact fun h => h

/-- An entry about something else than the state of a run. -/
theorem addAudit_isDiscreet {actorType actorId action resourceType : String} {resourceId : Uuid}
    {beforeState afterState : Option Json} {reason : Option String} {correlationId : Uuid}
    (haction : action ≠ "workflow.state_changed") :
    (addAudit actorType actorId action resourceType resourceId beforeState afterState reason
      correlationId).IsDiscreet := by
  refine writes_bind (writes_answer _) fun id => ?_
  refine writes_bind (writes_insert _ ?_ fun _ h => h) fun _ => trivial
  show AuditEvent.isStateChange _ = false
  simp [AuditEvent.isStateChange, haction]

/-- An event about something else than a failure.  The key of a report begins with the word
    workflow, and no other key of the services begins with its letter. -/
theorem emit_isDiscreet {payload : EventPayload} {context : EventContext} {key : String}
    (hkey : key.toList.head? ≠ some 'w')
    (hpayload : ∀ i name reason retryable, payload ≠ .workflowFailed i name reason retryable) :
    (DatabaseEventStore.emit payload context key).IsDiscreet := by
  have hne : ∀ i, key ≠ failureKey i := by
    rintro i rfl
    exact hkey (by simp [failureKey, toString])
  have hpublish : ∀ event : EventEnvelope, event.idempotencyKey = key → event.data = payload →
      (DatabaseEventStore.publish event).IsDiscreet := by
    intro event hk hd
    refine writes_bind (writes_query _) fun existing => ?_
    cases existing with
    | none =>
      refine writes_insert _ ?_ fun _ h => h
      rintro i (h | ⟨name, reason, retryable, h⟩)
      · exact hne i (hk.symm.trans h)
      · exact hpayload i name reason retryable (hd.symm.trans h)
    | some existing =>
      dsimp only
      split
      · exact fun h => h
      · exact trivial
  unfold DatabaseEventStore.emit createEvent Tx.require
  split
  · exact fun env env' => hpublish _ rfl rfl
  · exact fun h => h

end Discreet

/-! ## The services -/

namespace InventoryService

/-- The record of a change of stock: an entry about the item, and events about it. -/
theorem recordChange_isDiscreet {item : InventoryItem} {movement : InventoryMovement}
    {actor : String} {previousAvailable : Int} {stockReceived : Bool}
    {workflow : Option WorkflowRun} :
    (recordChange item movement actor previousAvailable stockReceived workflow).IsDiscreet := by
  refine writes_bind (writes_answer _) fun fresh => ?_
  refine writes_bind (addAudit_isDiscreet ?_) fun _ => ?_
  · split <;> decide
  refine writes_bind (emit_isDiscreet (by simp [toString]) (by simp)) fun _ => ?_
  extract_lets lowStock
  have hlow : ∀ u, (lowStock u).IsDiscreet := by
    intro u
    simp only [lowStock]
    split
    · exact writes_bind (emit_isDiscreet (by simp [toString]) (by simp)) fun _ => trivial
    · exact trivial
  split
  · refine writes_bind Tx.isDiscreet_orThrow fun _ => ?_
    exact writes_bind (emit_isDiscreet (by simp [toString]) (by simp)) fun _ => hlow ()
  · exact hlow ()

/-- An adjustment writes an item, its movement, and the record of the change. -/
theorem adjust_isDiscreet {inventoryItemId : Uuid} {command : Adjustment} :
    (adjust inventoryItemId command).IsDiscreet := by
  refine writes_bind (writes_query _) fun existing => ?_
  cases existing with
  | some existing => exact writes_bind Tx.isDiscreet_require fun _ => trivial
  | none =>
    refine writes_bind ?_ fun item => ?_
    · exact writes_bind (writes_selectForUpdate _ _) fun _ => Tx.isDiscreet_orThrow
    refine writes_bind ?_ fun balance => ?_
    · unfold applyQuantityChange
      split
      · exact fun h => h
      · split
        · exact fun h => h
        · split
          · exact fun h => h
          · exact trivial
    extract_lets proceed
    have hproceed : ∀ cost, (proceed cost).IsDiscreet := by
      intro cost
      refine writes_bind (writes_flush _ _ (fun _ _ _ => trivial) (fun _ h => h) fun h => h) ?_
      intro changed
      refine writes_bind (writes_answer _) fun id => ?_
      refine writes_bind (writes_insert _ trivial fun _ h => h) fun movement => ?_
      exact writes_bind recordChange_isDiscreet fun _ => trivial
    split
    · split
      · refine writes_bind ?_ fun basis => hproceed (money basis)
        unfold weightedCostBasis
        split
        · exact fun h => h
        · split
          · exact fun h => h
          · exact trivial
      · exact hproceed _
    · exact hproceed _

end InventoryService

namespace OrderService

/-- The audit entry of an order is about another action. -/
theorem audit_isDiscreet {order : Order} {workflow : Option WorkflowRun} {action actor : String}
    {before : Option String} {after reason : String} (haction : action ≠ "workflow.state_changed") :
    (audit order workflow action actor before after reason).IsDiscreet :=
  writes_bind Tx.isDiscreet_orThrow fun _ => addAudit_isDiscreet haction

/-- The events of a movement have keys of their own. -/
theorem inventoryEvents_isDiscreet {item : InventoryItem} {movement : InventoryMovement}
    {correlationId : Uuid} {previousAvailable quantityDelta : Int} :
    (inventoryEvents item movement correlationId previousAvailable quantityDelta).IsDiscreet := by
  refine writes_bind (emit_isDiscreet (by simp [toString]) (by simp)) fun _ => ?_
  split
  · exact writes_bind (emit_isDiscreet (by simp [toString]) (by simp)) fun _ => trivial
  · exact trivial

/-- A settled line is an item, a movement and such events. -/
theorem settleLine_isDiscreet {order : Order} {line : OrderItem} {t : InventoryMovementType}
    {cond : InventoryItem → Bool} {set : InventoryItem → InventoryItem} {missing : String}
    {eventDelta : Int} : (settleLine order line t cond set missing eventDelta).IsDiscreet := by
  refine writes_bind (writes_query _) fun found => ?_
  refine writes_bind Tx.isDiscreet_orThrow fun item => ?_
  refine writes_bind (writes_updateWhere (fun _ _ _ => trivial) fun _ h => h) fun result => ?_
  refine writes_bind Tx.isDiscreet_orThrow fun _ => ?_
  refine writes_bind (writes_answer _) fun id => ?_
  refine writes_bind (writes_insert _ trivial fun _ h => h) fun movement => ?_
  refine writes_bind (writes_query _) fun found => ?_
  exact writes_bind Tx.isDiscreet_orThrow fun item => inventoryEvents_isDiscreet

/-- A loop over lines makes the writes of its rounds, by induction on the lines. -/
theorem forLines_isDiscreet {settle : OrderItem → Tx Unit} (h : ∀ line, (settle line).IsDiscreet) :
    ∀ lines, (forLines settle lines).IsDiscreet
  | [] => trivial
  | line :: lines => writes_bind (h line) fun _ => forLines_isDiscreet h lines

/-- Releasing an order settles its lines. -/
theorem releaseOrder_isDiscreet {order : Order} : (releaseOrder order).IsDiscreet :=
  writes_bind (writes_query _) fun _ => forLines_isDiscreet (fun _ => settleLine_isDiscreet) _

/-- Shipping an order settles its lines, too. -/
theorem shipOrder_isDiscreet {order : Order} : (shipOrder order).IsDiscreet :=
  writes_bind (writes_query _) fun _ => forLines_isDiscreet (fun _ => settleLine_isDiscreet) _

/-! ### The status of an order -/

section Status

variable {past : Db → Prop} {D : Db} {tr tr' : Trail (Write TableName.Entity) DbLock}

/-- The order was read in some state before this one: it may have aged since. -/
def WasRead (order : Order) (D : Db) : Prop :=
  ∃ V, Store.earlier V D ∧ (Db.orders V).get order.id = some order

/-- What was read before was read before, however much later it is. -/
theorem WasRead.later {order : Order} {D D' : Db} (h : WasRead order D) (hD : Store.earlier D D') :
    WasRead order D' := by
  obtain ⟨V, hV, hget⟩ := h
  exact ⟨V, Store.earlier_trans hV hD, hget⟩

/-- An order that is written back names the run it named.  It may have been read long ago, but
    then the flush would have found another version and raised. -/
theorem flushOrder_unmoved {order new row : Order} (hread : WasRead order (tr.on D))
    (hid : new.id = order.id) (hrun : new.workflowRunId = order.workflowRunId) (hne : new ≠ order)
    (h : (flush .orders order new).sees past D tr row tr') :
    Unmoved (tr.on D) (tr'.on D) ∧ row ∈ Db.orders (tr'.on D) ∧
      row.workflowRunId = order.workflowRunId := by
  rcases sees_flush h hid fun _ => rfl with
    ⟨heq, -, -⟩ | ⟨-, r, hget, hversion, hrow, hs, hc, hwrites⟩
  · exact absurd heq hne
  · obtain ⟨V, hearlier, hV⟩ := hread
    obtain rfl : r = order := Table.eq_of_version_eq (hearlier .orders) hV hget hversion
    have hrow' : row = { new with version := r.version + 1 } := hrow
    have hnamed : row.workflowRunId = r.workflowRunId := by
      rw [hrow']
      exact hrun
    have hon : tr'.on D = Database.apply ⟨.orders, .update r row⟩ (tr.on D) :=
      on_of_writes hwrites D
    have hmem : ∀ o : Order, o ∈ Db.orders (tr'.on D) ↔
        o = row ∨ (o ∈ Db.orders (tr.on D) ∧ o.id ≠ row.id) := by
      intro o
      have htable : Db.orders (Database.apply ⟨.orders, .update r row⟩ (tr.on D)) =
          (Db.orders (tr.on D)).update r row := Database.apply_table_self ..
      rw [hon, htable]
      exact Table.mem_update hs hc
    have hother : ∀ i : TableName, i ≠ .orders →
        (tr'.on D).table i = (tr.on D).table i := by
      intro i hi
      rw [hon]
      exact Database.apply_table_of_ne _ _ hi
    have hruns : Db.workflowRuns (tr'.on D) = Db.workflowRuns (tr.on D) :=
      hother .workflowRuns (by decide)
    have hevents : Db.domainEvents (tr'.on D) = Db.domainEvents (tr.on D) :=
      hother .domainEvents (by decide)
    refine ⟨⟨⟨fun w _ => by rw [hruns], fun i => Db.trail_congr (hother .auditEvents (by decide)) i,
      earlier_of_sees h⟩, fun i e _ => by rw [hevents], fun hapart o ho i hi => ?_⟩, ?_, hnamed⟩
    · rw [hruns]
      rcases (hmem o).mp ho with rfl | ⟨ho, -⟩
      · rw [hnamed] at hi
        exact hapart r (Table.mem_of_get hget) i hi
      · exact hapart o ho i hi
    · exact (hmem row).mpr (Or.inl rfl)

/-- A run that is none of the engine's may be written.  The state read may be an older one here,
    too, and again the version tells. -/
theorem flushWorkflow_unmoved {w new row : WorkflowRun}
    (hread : ∃ V, Store.earlier V (tr.on D) ∧ (Db.workflowRuns V).get w.id = some w)
    (hid : new.id = w.id) (hkind : new.isEngineRun = w.isEngineRun)
    (hother : ∃ v ∈ Db.workflowRuns (tr.on D), v.id = w.id ∧ v.isEngineRun = false)
    (h : (flush .workflowRuns w new).sees past D tr row tr') : Unmoved (tr.on D) (tr'.on D) := by
  rcases sees_flush h hid fun _ => rfl with
    ⟨-, -, hwrites⟩ | ⟨-, r, hget, hversion, hrow, hs, hc, hwrites⟩
  · have hon : tr'.on D = tr.on D := congrArg (fun ws => Store.applyAll ws D) hwrites
    rw [hon]
    exact Unmoved.refl _
  · obtain ⟨V, hearlier, hV⟩ := hread
    obtain rfl : r = w := Table.eq_of_version_eq (hearlier .workflowRuns) hV hget hversion
    obtain ⟨v, hv, hvid, hvkind⟩ := hother
    obtain rfl : v = r := Table.eq_of_key_eq _ hv (Table.mem_of_get hget) hvid
    have hrow' : row = { new with version := v.version + 1 } := hrow
    have hrowid : row.id = v.id := by
      rw [hrow']
      exact hid
    have hrowkind : row.isEngineRun = v.isEngineRun := by
      rw [hrow']
      exact hkind
    have hon : tr'.on D = Database.apply ⟨.workflowRuns, .update v row⟩ (tr.on D) :=
      on_of_writes hwrites D
    have hmove : OwnMove (tr.on D) (tr'.on D) := by
      rw [hon]
      refine OwnMove.of_update ?_ hs hc hrowkind
      rw [hrowid]
      exact hget
    have haudit : Db.auditEvents (tr'.on D) = Db.auditEvents (tr.on D) := by
      rw [hon]
      exact auditEvents_of_run
    refine ⟨⟨fun u hu => ?_, fun i => Db.trail_congr haudit i, earlier_of_sees h⟩,
      fun i e _ => ?_, OrdersApart.own _ _ hmove⟩
    · have hmem : u ∈ Db.workflowRuns (tr'.on D) ↔
          u = row ∨ (u ∈ Db.workflowRuns (tr.on D) ∧ u.id ≠ row.id) := by
        have htable : Db.workflowRuns (Database.apply ⟨.workflowRuns, .update v row⟩ (tr.on D)) =
            (Db.workflowRuns (tr.on D)).update v row := Database.apply_table_self ..
        rw [hon, htable]
        exact Table.mem_update hs hc
      rw [hmem]
      constructor
      · rintro (rfl | ⟨hmem, -⟩)
        · rw [hrowkind, hvkind] at hu
          exact nomatch hu
        · exact hmem
      · intro hmem
        refine Or.inr ⟨hmem, fun hkey => ?_⟩
        -- the row that goes is none of the engine's
        obtain rfl : u = v := Table.eq_of_key_eq _ hmem hv (hkey.trans hrowid)
        rw [hvkind] at hu
        exact nomatch hu
    · have hevents : Db.domainEvents (tr'.on D) = Db.domainEvents (tr.on D) := by
        rw [hon]
        refine Database.apply_table_of_ne _ _ ?_
        show TableName.domainEvents ≠ .workflowRuns
        decide
      rw [hevents]

/-- **The status of an order** moves without the runs of the engine.  The order that is written
    back stands in the database from then on, so the run it names is on record and is none of the
    engine's; what is written of that run leaves it so. -/
theorem setStatus_unmoved {order order' : Order} {target : OrderStatus} {actor reason : String}
    (hapart : OrdersApart (tr.on D)) (hread : WasRead order (tr.on D)) (hne : target ≠ order.status)
    (h : (setStatus order target actor reason).sees past D tr order' tr') :
    Unmoved (tr.on D) (tr'.on D) := by
  obtain ⟨now, tr₁, ⟨env, hnow, rfl⟩, h₁⟩ := sees_bind.mp h
  obtain ⟨row, tr₂, hflush, h₂⟩ := sees_bind.mp h₁
  have hchanged : withStatus order target now ≠ order := fun heq =>
    hne (congrArg Order.status heq)
  have hid : (withStatus order target now).id = order.id := rfl
  obtain ⟨hmoved₂, hrow, hnamed⟩ := flushOrder_unmoved hread hid rfl hchanged hflush
  obtain ⟨found, tr₃, hselect, h₃⟩ := sees_bind.mp h₂
  obtain ⟨rfl, D₁, -, hearlier, -, hfound⟩ := sees_query hselect
  -- the rest is an event and an entry
  have hrest : ∀ {workflow : Option WorkflowRun} {tr₄},
      (do
        if target = .cancelled then
          let _ ← DatabaseEventStore.emit (.orderCancelled row.id (some reason))
            { aggregateType := "order"
              aggregateId := row.id
              aggregateVersion := row.version
              correlationId := (workflow.map (·.correlationId)).getD row.id
              workflowId := workflow.map (·.id)
              causationId := none }
            s!"order-cancelled:{row.id}"
        audit row workflow "order.status_changed" actor (some order.status.value) target.value reason
        pure row : Tx Order).sees past D tr₄ order' tr' → Unmoved (tr₄.on D) (tr'.on D) := by
    intro workflow tr₄ hsees
    refine Unmoved.of_sees ?_ hsees
    have haudit : ∀ u : Unit, (do
        audit row workflow "order.status_changed" actor (some order.status.value) target.value reason
        pure row : Tx Order).IsDiscreet := fun _ =>
      writes_bind (audit_isDiscreet (by decide)) fun _ => trivial
    dsimp only
    split
    · exact writes_bind (emit_isDiscreet (by simp [toString]) (by simp)) fun _ => haudit ()
    · exact haudit ()
  cases found with
  | none => exact hmoved₂.trans (hrest h₃)
  | some workflow =>
    obtain ⟨changed, tr₄, hwritten, h₄⟩ := sees_bind.mp h₃
    obtain ⟨i, hi, hget⟩ := Option.bind_eq_some_iff.mp hfound
    have hid : workflow.id = i := Table.key_of_get hget
    rw [← hid] at hget hi
    have hsame : (workflowWithStatus workflow target).id = workflow.id := rfl
    have hmoved₄ := flushWorkflow_unmoved ⟨_, hearlier, hget⟩ hsame rfl
      (hmoved₂.apart hapart row hrow workflow.id hi) hwritten
    exact (hmoved₂.trans hmoved₄).trans (hrest h₄)

/-- **An update of the status** moves no run of the engine either, of an order the caller may have
    loaded before: what it does besides is discreet. -/
theorem updateStatus_unmoved {loaded : Option Order} {orderId : Uuid} {order' : Order}
    {target : OrderStatus} {actor reason : String} (hapart : OrdersApart (tr.on D))
    (hread : ∀ o, loaded = some o → WasRead o (tr.on D))
    (h : (updateStatus loaded orderId target actor reason).sees past D tr order' tr') :
    Unmoved (tr.on D) (tr'.on D) := by
  obtain ⟨order, tr₁, hget, h₁⟩ := sees_bind.mp h
  obtain ⟨found, tr₂, hselect, hget₂⟩ := sees_bind.mp hget
  obtain ⟨current, tr₃, hthrow, hget₃⟩ := sees_bind.mp hget₂
  obtain ⟨rfl, rfl⟩ := Tx.sees_orThrow hthrow
  obtain ⟨rfl, rfl⟩ := hget₃
  obtain ⟨hwrites, hcurrent⟩ := sees_selectForUpdate hselect
  have hon : tr₃.on D = tr.on D := congrArg (fun ws => Store.applyAll ws D) hwrites
  have horder : WasRead (loaded.getD current) (tr₃.on D) := by
    rw [hon]
    cases loaded with
    | none => exact ⟨_, Store.earlier_refl _, (hcurrent current rfl).2⟩
    | some o => exact hread o rfl
  rw [← hon] at hapart ⊢
  obtain ⟨allowed, tr₄, htransition, h₂⟩ := sees_bind.mp h₁
  have hmoved₄ : Unmoved (tr₃.on D) (tr₄.on D) := by
    refine Unmoved.of_sees ?_ htransition
    unfold transitionOrder
    split
    · exact trivial
    · split
      · exact fun h => h
      · exact trivial
  split at h₂
  · obtain ⟨-, rfl⟩ := h₂
    exact hmoved₄
  · rename_i hne
    extract_lets proceed at h₂
    have hproceed : ∀ {tr₅}, Unmoved (tr₃.on D) (tr₅.on D) →
        (proceed ()).sees past D tr₅ order' tr' → Unmoved (tr₃.on D) (tr'.on D) := by
      intro tr₅ hmoved hsees
      exact hmoved.trans (setStatus_unmoved (hmoved.apart hapart) (horder.later hmoved.trails.grows)
        hne hsees)
    -- what is released or shipped is no run
    split at h₂
    · obtain ⟨u, tr₅, hrelease, h₃⟩ := sees_bind.mp h₂
      exact hproceed (hmoved₄.trans (Unmoved.of_sees releaseOrder_isDiscreet hrelease)) h₃
    · split at h₂
      · obtain ⟨u, tr₅, hship, h₃⟩ := sees_bind.mp h₂
        exact hproceed (hmoved₄.trans (Unmoved.of_sees shipOrder_isDiscreet hship)) h₃
      · exact hproceed hmoved₄ h₂

/-! ### A new order -/

/-- A reservation is discreet, by induction on the candidates. -/
theorem reserveFrom_isDiscreet {sku externalLineId : String} {quantity : Int} {order : Order}
    {correlationId : Uuid} :
    ∀ ids, (reserveFrom sku quantity order externalLineId correlationId ids).IsDiscreet
  | [] => fun h => h
  | k :: rest => by
    refine writes_bind (writes_query _) fun before => ?_
    refine writes_bind (writes_updateWhere (fun _ _ _ => trivial) fun _ h => h) fun reserved => ?_
    cases reserved with
    | none => exact reserveFrom_isDiscreet rest
    | some row =>
      refine writes_bind (writes_query _) fun found => ?_
      refine writes_bind Tx.isDiscreet_orThrow fun item => ?_
      refine writes_bind (writes_answer _) fun id => ?_
      refine writes_bind (writes_insert _ trivial fun _ h => h) fun movement => ?_
      exact writes_bind inventoryEvents_isDiscreet fun _ => trivial

/-- The lines of a new order are, by induction on them. -/
theorem addLines_isDiscreet {order : Order} {correlationId : Uuid} :
    ∀ lines, (addLines order correlationId lines).IsDiscreet
  | [] => trivial
  | line :: lines => by
    refine writes_bind ?_ fun inventory => ?_
    · exact writes_bind (writes_query _) fun _ => reserveFrom_isDiscreet _
    refine writes_bind (writes_answer _) fun id => ?_
    exact writes_bind (writes_insert _ trivial fun _ h => h) fun _ => addLines_isDiscreet lines

/-- A new run that is none of the engine's. -/
theorem addRun_unmoved {w row : WorkflowRun} (hkind : w.isEngineRun = false)
    (h : (add .workflowRuns w).sees past D tr row tr') :
    Unmoved (tr.on D) (tr'.on D) ∧ row = w ∧ w ∈ Db.workflowRuns (tr'.on D) := by
  obtain ⟨rfl, hconf, hwrites⟩ := sees_insert h
  have hconf' : (Db.workflowRuns (tr.on D)).conflicts row = false := hconf
  have hon : tr'.on D = Database.apply ⟨.workflowRuns, .insert row⟩ (tr.on D) :=
    on_of_writes hwrites D
  have hmem : ∀ v : WorkflowRun, v ∈ Db.workflowRuns (tr'.on D) ↔
      v ∈ Db.workflowRuns (tr.on D) ∨ v = row := by
    intro v
    have htable : Db.workflowRuns (Database.apply ⟨.workflowRuns, .insert row⟩ (tr.on D)) =
        (Db.workflowRuns (tr.on D)).insert row := Database.apply_table_self ..
    rw [hon, htable]
    exact Table.mem_insert hconf'
  have hmove : OwnMove (tr.on D) (tr'.on D) := by
    rw [hon]
    exact OwnMove.of_insert hconf'
  have haudit : Db.auditEvents (tr'.on D) = Db.auditEvents (tr.on D) := by
    rw [hon]
    exact auditEvents_of_run
  have hevents : Db.domainEvents (tr'.on D) = Db.domainEvents (tr.on D) := by
    rw [hon]
    refine Database.apply_table_of_ne _ _ ?_
    show TableName.domainEvents ≠ .workflowRuns
    decide
  refine ⟨⟨⟨fun v hv => ?_, fun i => Db.trail_congr haudit i, earlier_of_sees h⟩,
    fun i e _ => by rw [hevents], OrdersApart.own _ _ hmove⟩, rfl, (hmem row).mpr (Or.inr rfl)⟩
  rw [hmem, or_iff_left]
  rintro rfl
  rw [hkind] at hv
  exact nomatch hv

/-- A new order, which names such a run. -/
theorem addOrder_unmoved {o row : Order} {w : WorkflowRun} (hw : w ∈ Db.workflowRuns (tr.on D))
    (hkind : w.isEngineRun = false) (hnamed : o.workflowRunId = some w.id)
    (h : (add .orders o).sees past D tr row tr') : Unmoved (tr.on D) (tr'.on D) := by
  obtain ⟨rfl, hconf, hwrites⟩ := sees_insert h
  have hconf' : (Db.orders (tr.on D)).conflicts row = false := hconf
  have hon : tr'.on D = Database.apply ⟨.orders, .insert row⟩ (tr.on D) := on_of_writes hwrites D
  have hother : ∀ i : TableName, i ≠ .orders → (tr'.on D).table i = (tr.on D).table i := by
    intro i hi
    rw [hon]
    exact Database.apply_table_of_ne _ _ hi
  have hruns : Db.workflowRuns (tr'.on D) = Db.workflowRuns (tr.on D) :=
    hother .workflowRuns (by decide)
  have hevents : Db.domainEvents (tr'.on D) = Db.domainEvents (tr.on D) :=
    hother .domainEvents (by decide)
  refine ⟨⟨fun v _ => by rw [hruns], fun i => Db.trail_congr (hother .auditEvents (by decide)) i,
    earlier_of_sees h⟩, fun i e _ => by rw [hevents], fun hapart o' ho' i hi => ?_⟩
  have hmem : o' ∈ Db.orders (tr.on D) ∨ o' = row := by
    have htable : Db.orders (Database.apply ⟨.orders, .insert row⟩ (tr.on D)) =
        (Db.orders (tr.on D)).insert row := Database.apply_table_self ..
    rw [hon, htable] at ho'
    exact (Table.mem_insert hconf').mp ho'
  rw [hruns]
  rcases hmem with hold | rfl
  · exact hapart o' hold i hi
  · rw [hnamed] at hi
    exact ⟨w, hw, Option.some.inj hi, hkind⟩

/-- **An order that is taken in** names the run that is made with it, which is none of the
    engine's: it has neither the prefix of an orchestrated run nor a key. -/
theorem ingest_unmoved [Digests] {command : NormalizedMarketplaceOrder}
    {result : OrderIngestionResult} (h : (ingest command).sees past D tr result tr') :
    Unmoved (tr.on D) (tr'.on D) := by
  obtain ⟨existing, tr₁, hselect, h₁⟩ := sees_bind.mp h
  obtain ⟨rfl, -⟩ := sees_query hselect
  cases existing with
  | some existing =>
    refine Unmoved.of_sees ?_ h₁
    exact writes_bind Tx.isDiscreet_require fun _ => trivial
  | none =>
    obtain ⟨eventOrder, tr₂, hselect', h₂⟩ := sees_bind.mp h₁
    obtain ⟨rfl, -⟩ := sees_query hselect'
    obtain ⟨_, tr₃, hrequire, h₃⟩ := sees_bind.mp h₂
    obtain ⟨-, rfl⟩ := Tx.sees_require hrequire
    obtain ⟨_, tr₄, hvalidate, h₄⟩ := sees_bind.mp h₃
    have hmoved₄ : Unmoved (tr₃.on D) (tr₄.on D) := by
      refine Unmoved.of_sees ?_ hvalidate
      refine writes_bind Tx.isDiscreet_require fun _ => ?_
      exact writes_bind Tx.isDiscreet_require fun _ => Tx.isDiscreet_require
    obtain ⟨workflowId, tr₅, ⟨env₁, hid₁, rfl⟩, h₅⟩ := sees_bind.mp h₄
    obtain ⟨createdAt, tr₆, ⟨env₂, hid₂, rfl⟩, h₆⟩ := sees_bind.mp h₅
    obtain ⟨w, tr₇, hrun, h₇⟩ := sees_bind.mp h₆
    have hname : WorkflowEngine.isOrchestrated "marketplace-order-fulfilment" = false := by decide
    obtain ⟨hmoved₇, hw, hmem⟩ := addRun_unmoved (by simp [WorkflowRun.isEngineRun, hname]) hrun
    rw [← hw] at hmem
    obtain ⟨orderId, tr₈, ⟨env₃, hid₃, rfl⟩, h₈⟩ := sees_bind.mp h₇
    obtain ⟨now, tr₉, ⟨env₄, hid₄, rfl⟩, h₉⟩ := sees_bind.mp h₈
    obtain ⟨order, tr₁₀, horder, h₁₀⟩ := sees_bind.mp h₉
    have hkind : w.isEngineRun = false := by
      rw [hw]
      simp [WorkflowRun.isEngineRun, hname]
    have hmoved₁₀ := addOrder_unmoved hmem hkind rfl horder
    refine ((hmoved₄.trans hmoved₇).trans hmoved₁₀).trans (Unmoved.of_sees ?_ h₁₀)
    refine writes_bind (addLines_isDiscreet _) fun _ => ?_
    refine writes_bind (emit_isDiscreet (by simp [toString]) (by simp)) fun _ => ?_
    exact writes_bind (audit_isDiscreet (by decide)) fun _ => trivial

end Status

end OrderService

/-! ## The reconciliation -/

namespace AutonomousOrchestrator

section Step

variable {past : Db → Prop} {D : Db} {tr tr' : Trail (Write TableName.Entity) DbLock}

/-- A restock is an adjustment or nothing, so it is discreet. -/
theorem restock_isDiscreet {returnRecord : Return} {orderItem : OrderItem} :
    (restock returnRecord orderItem).IsDiscreet := by
  unfold restock
  split
  · exact writes_bind InventoryService.adjust_isDiscreet fun _ => trivial
  · exact trivial

/-- A reconciliation restocks, which is discreet, and then marks the order as returned. -/
theorem reconcile_unmoved {returnRecord : Return} {order : Order} {quantity : Int}
    {workflow : WorkflowRun} {outcome : WorkflowOutcome} (hapart : OrdersApart (tr.on D))
    (hread : OrderService.WasRead order (tr.on D))
    (h : (reconcile returnRecord order quantity workflow).sees past D tr outcome tr') :
    Unmoved (tr.on D) (tr'.on D) := by
  obtain ⟨found, tr₁, hselect, h₁⟩ := sees_bind.mp h
  obtain ⟨rfl, -⟩ := sees_query hselect
  obtain ⟨orderItem, tr₂, hthrow, h₂⟩ := sees_bind.mp h₁
  obtain ⟨-, rfl⟩ := Tx.sees_orThrow hthrow
  obtain ⟨_, tr₃, hquantity, h₃⟩ := sees_bind.mp h₂
  obtain ⟨-, rfl⟩ := Tx.sees_require hquantity
  obtain ⟨_, tr₄, hordered, h₄⟩ := sees_bind.mp h₃
  obtain ⟨-, rfl⟩ := Tx.sees_require hordered
  obtain ⟨_, tr₅, hrestock, h₅⟩ := sees_bind.mp h₄
  have hmoved₅ := Unmoved.of_sees restock_isDiscreet hrestock
  obtain ⟨refunds, tr₆, hrefunds, h₆⟩ := sees_bind.mp h₅
  obtain ⟨rfl, -⟩ := sees_query hrefunds
  obtain ⟨_, tr₇, hcurrency, h₇⟩ := sees_bind.mp h₆
  obtain ⟨-, rfl⟩ := Tx.sees_require hcurrency
  obtain ⟨_, tr₈, htotal, h₈⟩ := sees_bind.mp h₇
  obtain ⟨-, rfl⟩ := Tx.sees_require htotal
  extract_lets finish at h₈
  -- in the end the return is completed, and an entry says so
  have hfinish : (finish ()).IsDiscreet := by
    refine writes_bind (writes_flush _ _ (fun _ _ _ => trivial) (fun _ h => h) fun h => h) ?_
    intro row
    exact writes_bind (addAudit_isDiscreet (by decide)) fun _ => trivial
  split at h₈
  · obtain ⟨changed, tr₉, hstatus, h₉⟩ := sees_bind.mp h₈
    have hread' : ∀ o, some order = some o → OrderService.WasRead o (tr₈.on D) := by
      rintro _ ⟨⟩
      exact hread.later hmoved₅.trails.grows
    have hmoved₉ := OrderService.updateStatus_unmoved (hmoved₅.apart hapart) hread' hstatus
    exact (hmoved₅.trans hmoved₉).trans (Unmoved.of_sees hfinish h₉)
  · exact hmoved₅.trans (Unmoved.of_sees hfinish h₈)

/-- **The reconciliation moves no run of the engine**, whatever else is committed while it works. -/
theorem returnToReconciliation_unmoved {event : EventEnvelope} {workflow : WorkflowRun}
    {outcome : Option WorkflowOutcome} (hapart : OrdersApart (tr.on D))
    (h : (returnToReconciliation event workflow).sees past D tr outcome tr') :
    Unmoved (tr.on D) (tr'.on D) := by
  unfold returnToReconciliation at h
  split at h
  · obtain ⟨returnRecord, tr₁, hselect, h₁⟩ := sees_bind.mp h
    obtain ⟨rfl, -⟩ := sees_query hselect
    obtain ⟨found, tr₂, hselect', h₂⟩ := sees_bind.mp h₁
    obtain ⟨rfl, D₁, -, hearlier, -, horder⟩ := sees_query hselect'
    split at h₂
    · obtain ⟨_, tr₃, hrequire, h₃⟩ := sees_bind.mp h₂
      obtain ⟨-, rfl⟩ := Tx.sees_require hrequire
      obtain ⟨result, tr₄, hreconcile, h₄⟩ := sees_bind.mp h₃
      obtain ⟨-, rfl⟩ := h₄
      rename_i order _
      have hid : order.id = _ := Table.key_of_get horder
      rw [← hid] at horder
      exact reconcile_unmoved hapart ⟨_, hearlier, horder⟩ hreconcile
    · exact h₂.elim
  · exact h.elim

end Step

section Engine

variable (policy : WorkflowExecutionPolicy)

/-- **The engine of the reconciliations leaves the trails alone**, wherever orders are apart from
    its runs. -/
theorem returnEngine_leavesTrails : (returnEngine policy).LeavesTrails OrdersApart := by
  refine ⟨fun name definition hd event run past D tr outcome tr' hapart hsees => ?_,
    OrdersApart.own⟩
  rw [returnEngine_step hd] at hsees
  have hmoved := returnToReconciliation_unmoved hapart hsees
  exact ⟨hmoved.trails, hmoved.apart hapart⟩

/-- **The engine of the reconciliations leaves its runs alone**: on its own, a step sees just the
    state it runs on. -/
theorem returnEngine_leavesRuns : (returnEngine policy).LeavesRuns OrdersApart := by
  refine ⟨fun name definition hd event run D outcome D' hapart hrun => ?_, OrdersApart.own⟩
  rw [returnEngine_step hd] at hrun
  have hstart : OrdersApart ((Trail.start : Trail (Write TableName.Entity) DbLock).on D) := hapart
  have hfresh : ((returnToReconciliation event run).runs
      ((Trail.start : Trail (Write TableName.Entity) DbLock).on D) (.ok (outcome, D'))) := hrun
  obtain ⟨tr, hsees, rfl⟩ := sees_of_runs hfresh
  have hmoved := returnToReconciliation_unmoved hstart hsees
  exact ⟨hmoved.sameRuns, hmoved.apart hapart⟩

/-- A reconciliation asks for no approval. -/
theorem returnToReconciliation_neverPauses : returnToReconciliation.NeverPauses :=
  fun _ _ _ outcome _ hrun => (returnToReconciliation_runs hrun).1 outcome rfl

end Engine

/-! ## What it buys -/

/-- The calls of the order service that may go on while returns are reconciled. -/
inductive OrderDeskCall where
  | ingest (command : NormalizedMarketplaceOrder)
  | updateStatus (orderId : Uuid) (target : OrderStatus) (actor reason : String)

/-- The call as a transaction; what it returns is dropped. -/
def OrderDeskCall.run [Digests] : OrderDeskCall → Tx Unit
  | ingest command => do
    let _ ← OrderService.ingest command
    pure ()
  | updateStatus orderId target actor reason => do
    let _ ← OrderService.updateStatus none orderId target actor reason
    pure ()

section Reconciliations

variable [Digests] {policy : WorkflowExecutionPolicy} {D₀ D : Db}

/-- The order service keeps orders apart from the runs of the engine. -/
theorem OrderDeskCall.run_leavesTrails (c : OrderDeskCall) : c.run.LeavesTrails OrdersApart := by
  intro past D tr u tr' hapart hsees
  have hmoved : Unmoved (tr.on D) (tr'.on D) := by
    cases c with
    | ingest command =>
      obtain ⟨result, tr₁, hingest, h₁⟩ := sees_bind.mp hsees
      obtain ⟨-, rfl⟩ := h₁
      exact OrderService.ingest_unmoved hingest
    | updateStatus orderId target actor reason =>
      obtain ⟨order, tr₁, hupdate, h₁⟩ := sees_bind.mp hsees
      obtain ⟨-, rfl⟩ := h₁
      exact OrderService.updateStatus_unmoved hapart (fun o ho => (by cases ho)) hupdate
  exact ⟨hmoved.trails, hmoved.apart hapart⟩

/-- **The trails of the reconciliations.**  Any number of workers reconcile returns while the order
    service takes in orders and moves them.  Whenever a state is committed, every run of the engine
    is between attempts, and its audit trail replays to the run as it stands. -/
theorem reconciliations_trailed
    {sys : System Db (Write TableName.Entity) DbLock Environment Error Unit
      (EngineClientCall OrderDeskCall)} (hapart : OrdersApart D₀) (h₀ : Unworked D₀)
    (h : System.Reachable (engineRoom (returnEngine policy) OrderDeskCall.run) D₀ sys) :
    ∀ w ∈ sys.committed.workflowRuns, w.isEngineRun = true →
      w.status ≠ .running ∧
        ∃ changes, Db.trail sys.committed w.id = changes.map Change.dump ∧
          Change.replay changes = some (some w.state) := by
  have htrailed := Trailed.of_reachable (returnEngine_leavesTrails policy)
    OrderDeskCall.run_leavesTrails hapart h₀ h
  intro w hw hengine
  exact ⟨htrailed.rest w hw hengine (by simp), htrailed.trails.replays w hw hengine⟩

/-- **The retries of the reconciliations** are bounded: the engine the orchestrator builds, on a
    database with orders but without runs of its own, counts the attempts of every run, starts none
    beyond the last allowed or after the deadline, and reports a failure once. -/
theorem reconciliations_bounded {trace : List (EngineCall × List WorkflowEngine.Execution)}
    (hregister : WorkflowEngine.registerAll [returnDefinition policy] = .ok (returnEngine policy))
    (hapart : OrdersApart D₀) (h₀ : NoRuns D₀)
    (h : EngineHistory (returnEngine policy) EngineCall.Scheduled D₀ trace D) :
    ∀ w ∈ D.workflowRuns, w.isEngineRun = true → BoundedRetries trace D w := by
  have htame : (returnEngine policy).Tame OrdersApart := by
    refine ⟨fun name d hd => (registerAll_registered hregister hd).1, returnEngine_leavesRuns policy,
      fun name d hd => ?_⟩
    rw [returnEngine_step hd]
    exact returnToReconciliation_neverPauses
  obtain ⟨hbooks, htally⟩ := RunBooks.history htame hapart h₀ h
  exact fun w hw hengine => hbooks.bounded htally hw hengine

omit [Digests] in
/-- With a policy that asks for an attempt and a time, the engine is the one registration builds. -/
theorem registerAll_returnEngine (hattempts : 1 ≤ policy.maxAttempts)
    (htimeout : 1 ≤ policy.timeoutSeconds) :
    WorkflowEngine.registerAll [returnDefinition policy] = .ok (returnEngine policy) := by
  have hpolicy : ¬((returnDefinition policy).policy.maxAttempts < 1 ∨
      (returnDefinition policy).policy.timeoutSeconds < 1) := by
    show ¬(policy.maxAttempts < 1 ∨ policy.timeoutSeconds < 1)
    omega
  have hfirst : WorkflowEngine.register .empty (returnDefinition policy) =
      .ok (returnEngine policy) := by
    unfold WorkflowEngine.register
    rw [if_neg (by simp [WorkflowEngine.empty]), if_neg hpolicy]
    rfl
  unfold WorkflowEngine.registerAll
  rw [List.foldlM_cons, hfirst]
  rfl

/-- **A reconciliation that is over stays over**, unless its run is resumed past the guards. -/
theorem reconciliation_settled
    {trace : List (EngineCall × List WorkflowEngine.Execution)} {i : Uuid}
    {w : WorkflowRun} (hapart : OrdersApart D₀) (hw : D₀.workflowRuns.get i = some w)
    (hengine : w.isEngineRun = true) (hterminal : w.status.isTerminal = true)
    (h : EngineHistory (returnEngine policy) (EngineCall.SparesTerminal (returnEngine policy)) D₀
      trace D) :
    Settled i w D₀ D ∧ executions trace i = [] :=
  EngineHistory.settled (returnEngine_leavesRuns policy) hapart hw hengine hterminal h

end Reconciliations

end AutonomousOrchestrator

end CommerceOperations
