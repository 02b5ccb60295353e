/-
  What the outbox tells of the stock.

  In every interleaving of the calls on the warehouse the announced changes of an item, in the order
  in which they were committed, can be replayed: a consumer that starts with an empty item and
  takes them one by one never meets a gap, a repetition or a sum that is off, and ends where the
  item is.  The crux is that an UPDATE takes the row lock and the event follows under it, so that no
  other session can announce a change of the item in between.

  A warning compares with a balance that was read before the lock, so less can be said of it: in
  every history of calls one after the other, low stock is told exactly when it is reached.
-/
import CommerceOperations.Application.FeedServices

namespace CommerceOperations

open Relational Relational.Feed Prog Store

/-! ## Committed calls -/

section Calls

variable {past : Db → Prop} {D : Db}

/-- A transaction begins where the feeds are up to date. -/
theorem LoggedAt.consistent (h : LoggedAt D InventoryItem.mark) : Consistent past D [] :=
  ⟨h, Serially.warned, fun _ hw => absurd hw List.not_mem_nil⟩

/-- Every event on record is still there after writes that only add events. -/
theorem mem_events_of_spoken {ws : List (Write TableName.Entity)} {e : DomainEvent}
    (hws : ∀ w ∈ ws, w.table = .domainEvents → ∃ e, w = ⟨.domainEvents, .insert e⟩)
    (he : e ∈ D.domainEvents) : e ∈ Db.domainEvents (applyAll ws D) := by
  induction ws generalizing D with
  | nil => exact he
  | cons w ws ih =>
    refine ih (fun w' hw' => hws w' (List.mem_cons_of_mem _ hw')) ?_
    by_cases hi : w.table = .domainEvents
    · obtain ⟨e', rfl⟩ := hws w List.mem_cons_self hi
      show e ∈ (Database.apply ⟨.domainEvents, .insert e'⟩ D).table .domainEvents
      rw [Database.apply_table_self]
      cases hconf : D.domainEvents.conflicts e' with
      | false => exact (Table.mem_insert hconf).mpr (Or.inl he)
      | true =>
        have hsame : D.domainEvents.insert e' = D.domainEvents := Table.insert_of_conflict hconf
        show e ∈ D.domainEvents.insert e'
        rw [hsame]
        exact he
    · show e ∈ (Database.apply w D).table .domainEvents
      rw [Database.apply_table_of_ne w D (Ne.symm hi)]
      exact he

/-- What a statement may have seen of the outbox is still there, so its movements are. -/
theorem LoggedAt.movementsKnown (h : LoggedAt D InventoryItem.mark)
    (hpast : ∀ D₁, past D₁ → ∀ e ∈ D₁.domainEvents, e ∈ D.domainEvents) : MovementsKnown past D :=
  fun D₁ hD₁ e he k hk => h.named e (hpast D₁ hD₁ e he) k hk

variable [Digests] {policy : WorkflowExecutionPolicy} {call : StockCall}
variable {tr : Trail (Write TableName.Entity) DbLock} {u : Unit}

/-- **A call that commits** leaves the feeds up to date, and the events on record. -/
theorem StockCall.commit (h : LoggedAt D InventoryItem.mark)
    (hpast : ∀ D₁, past D₁ → ∀ e ∈ D₁.domainEvents, e ∈ D.domainEvents)
    (hsees : (call.run policy).sees past D .start u tr) :
    LoggedAt (tr.on D) InventoryItem.mark ∧
      (Serially past D → WarnedAt (tr.on D) InventoryItem.mark) ∧
      ∀ e ∈ D.domainEvents, e ∈ Db.domainEvents (tr.on D) := by
  obtain ⟨hlogged, hwarned, hspoken⟩ :=
    call.run_consistent (h.movementsKnown hpast) .start u tr h.consistent hsees
  refine ⟨hlogged, hwarned, fun e he => mem_events_of_spoken (fun w hw htable => ?_) he⟩
  exact (hspoken w hw htable).imp fun _ h => h.1

end Calls

/-! ## The changes -/

/-- Nothing was said of stock yet. -/
theorem LoggedAt.of_empty {D : Db} (h₀ : D.inventoryItems = ∅)
    (hout : ∀ e ∈ D.domainEvents, e.Plain) :
    LoggedAt D InventoryItem.mark ∧ WarnedAt D InventoryItem.mark := by
  have hitems : ∀ item ∈ D.inventoryItems, False := by
    intro item hitem
    rw [h₀] at hitem
    exact Table.not_mem_empty item hitem
  refine ⟨⟨fun item hitem => (hitems item hitem).elim, fun e he i c hc => ?_, fun e he k hk => ?_⟩,
    fun item hitem => (hitems item hitem).elim, fun e he i w hw => ?_⟩
  · rw [DomainEvent.changeOf_eq_none (hout e he).notChanged] at hc
    cases hc
  · exact absurd hk ((hout e he).unnamed k)
  · rw [DomainEvent.warningOf_eq_none (hout e he).notLow] at hw
    cases hw

section Changes

variable [Digests] (policy : WorkflowExecutionPolicy) {D₀ : Db}

/-- The sessions of the warehouse announce what they change, and rely on no one to forget it. -/
def feedProtocol (h₀ : LoggedAt D₀ InventoryItem.mark) : Protocol (warehouse policy) D₀ where
  inv D := LoggedAt D InventoryItem.mark
  knows _ _ := True
  since D₁ D := ∀ e ∈ D₁.domainEvents, e ∈ D.domainEvents
  rel _ _ D D' := LoggedAt D' InventoryItem.mark ∧ ∀ e ∈ D.domainEvents, e ∈ D'.domainEvents
  since_refl _ _ he := he
  since_rel _ hsince hrel e he := hrel.2 e (hsince e he)
  commits {c a D tr} hinv _ hsees := by
    obtain ⟨hlogged, -, hstays⟩ := StockCall.commit hinv (fun D₁ hD₁ => hD₁.1) hsees
    exact ⟨hlogged, hstays⟩
  inv_start := h₀
  inv_next _ _ hrel := hrel.1
  knows_start _ := trivial
  knows_other _ _ _ := trivial
  knows_ok _ _ _ _ := trivial
  knows_error _ _ _ := trivial

variable {policy} {sys : System Db (Write TableName.Entity) DbLock Environment Error Unit StockCall}

/-- **The outbox replays to the stock.**  In every reachable state the changes announced of an
    item lead from an empty item to what the item is: the versions after 1 follow each other, each
    once, up to that of the item, and each stock on hand is the sum of the moves so far.  No change
    is announced of an item that is not there. -/
theorem changes_replay_to_stock (h₀ : D₀.inventoryItems = ∅) (hout : ∀ e ∈ D₀.domainEvents, e.Plain)
    (h : System.Reachable (warehouse policy) D₀ sys) :
    (∀ item ∈ sys.committed.inventoryItems,
      replay newItem (Db.changes sys.committed item.id) = some item.mark ∧
        (Db.changes sys.committed item.id).map (·.version) =
          (List.range (Db.changes sys.committed item.id).length).map
            (fun k : Nat => (2 + k : Int)) ∧
        item.version = 1 + (Db.changes sys.committed item.id).length ∧
        ∀ k c, (Db.changes sys.committed item.id)[k]? = some c →
          c.level = (((Db.changes sys.committed item.id).take (k + 1)).map (·.delta)).sum) ∧
      ∀ e ∈ sys.committed.domainEvents, ∀ i c, e.changeOf i = some c →
        ∃ item ∈ sys.committed.inventoryItems, item.id = i ∧ c.version ≤ item.version := by
  have hlogged : LoggedAt sys.committed InventoryItem.mark :=
    (h.upheld (feedProtocol policy (LoggedAt.of_empty h₀ hout).1)).inv
  refine ⟨fun item hitem => ?_, fun e he i c hc => ?_⟩
  · have hreplay := hlogged.feed item hitem
    obtain ⟨hversions, hlast⟩ := versions_of_replay hreplay
    refine ⟨hreplay, hversions, hlast, fun k c hk => ?_⟩
    rw [level_of_replay hreplay k c hk]
    exact Int.zero_add _
  · obtain ⟨item, hitem, hid⟩ := hlogged.about e he i c hc
    refine ⟨item, hitem, hid, ?_⟩
    -- the change has a place in the feed
    have hmem : c ∈ Db.changes sys.committed item.id := by
      refine List.mem_filterMap.mpr ⟨e, he, ?_⟩
      rw [hid]
      exact hc
    obtain ⟨hversions, hlast⟩ := versions_of_replay (hlogged.feed item hitem)
    have hversion : c.version ∈ (Db.changes sys.committed item.id).map (·.version) :=
      List.mem_map_of_mem hmem
    rw [hversions] at hversion
    obtain ⟨k, hk, hkv⟩ := List.mem_map.mp hversion
    have hbound := List.mem_range.mp hk
    have hitemVersion : item.version = 1 + (Db.changes sys.committed item.id).length := hlast
    have hnew : (newItem : Mark Int).version = 1 := rfl
    omega

omit [Digests] in
/-- Ten units received and five ordered on two lines: three changes. -/
theorem changes_replay_to_stock_sample :
    ∃ sys, System.Reachable (@warehouse Digests.byEnding samplePolicy) sampleDb sys ∧
      (sys.committed.inventoryItems.rows.map fun i => Db.changes sys.committed i.id) =
        [[⟨2, 10, 10, 0⟩, ⟨3, 0, 10, 3⟩, ⟨4, 0, 10, 5⟩]] ∧
      ∀ item ∈ sys.committed.inventoryItems,
        replay newItem (Db.changes sys.committed item.id) = some item.mark := by
  obtain ⟨sys, h, hD⟩ := System.Reachable.sequential Environment.numbered sampleReceipt
    [.ingest sampleOrder] sampleDb
  have hout : ∀ e ∈ sampleDb.domainEvents, e.Plain := fun e he =>
    absurd he (Table.not_mem_empty e)
  refine ⟨sys, h, ?_, fun item hitem => ?_⟩
  · rw [hD]
    decide +kernel
  · exact ((@changes_replay_to_stock Digests.byEnding _ _ _ rfl hout h).1 item hitem).1

end Changes

/-! ## The warnings -/

section Warnings

variable [Digests] {policy : WorkflowExecutionPolicy} {D₀ D : Db}

/-- **Run lemma.**  Calls one after the other keep the feeds and the warnings up to date. -/
theorem WarnedAt.of_history (h₀ : LoggedAt D₀ InventoryItem.mark ∧ WarnedAt D₀ InventoryItem.mark)
    (h : History (StockCall.run policy) (fun _ _ => True) D₀ D) :
    LoggedAt D InventoryItem.mark ∧ WarnedAt D InventoryItem.mark := by
  refine History.inv (P := fun D => LoggedAt D InventoryItem.mark ∧ WarnedAt D InventoryItem.mark)
    h₀ ?_ h
  rintro call D u D' ⟨hlogged, hwarned⟩ - hrun
  -- on its own, the call saw the state it is committed on
  have hrun' : (call.run policy).runs ((Trail.start : Trail (Write TableName.Entity) DbLock).on D)
      (.ok (u, D')) := hrun
  obtain ⟨tr, hsees, rfl⟩ := sees_of_runs hrun'
  have hpast : ∀ D₁, D₁ = D → ∀ e ∈ D₁.domainEvents, e ∈ D.domainEvents := by
    rintro D₁ rfl e he
    exact he
  obtain ⟨hlogged', hwarned', -⟩ := StockCall.commit hlogged hpast hsees
  exact ⟨hlogged', hwarned' ⟨fun D₁ hD₁ => hD₁, hwarned⟩⟩

/-- **Low stock is told when it is reached.**  After any calls one after the other, the warnings
    about an item are those its changes call for: one for each change that took the available
    stock from above the threshold to the threshold or below, with the version and the balance of
    that change, in order. -/
theorem low_stock_told_when_reached (h₀ : D₀.inventoryItems = ∅)
    (hout : ∀ e ∈ D₀.domainEvents, e.Plain)
    (h : History (StockCall.run policy) (fun _ _ => True) D₀ D) :
    (∀ item ∈ D.inventoryItems,
      D.warnings item.id = dueWarnings item.lowStockThreshold (D.changes item.id)) ∧
      ∀ e ∈ D.domainEvents, ∀ i w, e.warningOf i = some w →
        ∃ item ∈ D.inventoryItems, item.id = i ∧
          w ∈ dueWarnings item.lowStockThreshold (D.changes i) := by
  obtain ⟨hlogged, hwarned⟩ := WarnedAt.of_history (LoggedAt.of_empty h₀ hout) h
  have hdue : ∀ item ∈ D.inventoryItems,
      D.warnings item.id = dueWarnings item.lowStockThreshold (D.changes item.id) := by
    intro item hitem
    obtain ⟨log, rest, hlog, hreplay, hwarnings⟩ := hwarned.feed item hitem
    have hfeed := hlogged.feed item hitem
    rw [hlog, replay_append, hreplay, Option.bind_some] at hfeed
    -- the warnings have come as far as the changes
    obtain ⟨-, hlength⟩ := versions_of_replay hfeed
    have hrest : rest = [] := List.length_eq_zero_iff.mp (by omega)
    rw [hlog, hrest, List.append_nil, hwarnings]
  refine ⟨hdue, fun e he i w hw => ?_⟩
  obtain ⟨item, hitem, rfl⟩ := hwarned.about e he i w hw
  refine ⟨item, hitem, rfl, ?_⟩
  rw [← hdue item hitem]
  exact List.mem_filterMap.mpr ⟨e, he, hw⟩

/-- Four units of the item are lost. -/
def sampleLoss : StockCall :=
  .adjust (Uuid.ofNat 1000)
    { quantityDelta := -4, reason := "lost", actor := "system", idempotencyKey := "loss-1"
      unitCost := none }

omit [Digests] in
/-- Five of ten units are reserved and four are lost: one is available, at a threshold of two. -/
theorem low_stock_told_when_reached_sample :
    ((sampleRun [sampleReceipt, .ingest sampleOrder, sampleLoss]).inventoryItems.rows.map fun i =>
      (sampleRun [sampleReceipt, .ingest sampleOrder, sampleLoss]).warnings i.id) =
        [[⟨5, 1, 2⟩]] ∧
      ∀ item ∈ (sampleRun [sampleReceipt, .ingest sampleOrder, sampleLoss]).inventoryItems,
        (sampleRun [sampleReceipt, .ingest sampleOrder, sampleLoss]).warnings item.id =
          dueWarnings item.lowStockThreshold
            ((sampleRun [sampleReceipt, .ingest sampleOrder, sampleLoss]).changes item.id) := by
  have hout : ∀ e ∈ sampleDb.domainEvents, e.Plain := fun e he =>
    absurd he (Table.not_mem_empty e)
  have hrun : History (@StockCall.run Digests.byEnding samplePolicy) (fun _ _ => True) sampleDb
      (sampleRun [sampleReceipt, .ingest sampleOrder, sampleLoss]) :=
    History.start.afterCalls Environment.numbered 0 [sampleReceipt, .ingest sampleOrder, sampleLoss]
  exact ⟨by decide +kernel,
    (@low_stock_told_when_reached Digests.byEnding _ _ _ rfl hout hrun).1⟩

end Warnings

end CommerceOperations
