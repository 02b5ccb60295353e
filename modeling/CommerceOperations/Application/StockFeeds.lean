/-
  The services keep the feeds.

  A transaction is followed through its writes, as it is committed on a state `D` in which every
  item is told of (`Followed`).  Whatever the statements saw of the other sessions, each UPDATE of
  an item takes its row lock, so the balances re-read after it are those of the committed row, and
  the event that is published next carries them.

  The key of that event is made from the movement, which is new; `hpast` says that no event a
  statement could see names a movement that is not on record.  So the key is in use nowhere, and
  `emit` does write: it does not take some older event under the key for its own.

  The warnings need more.  Whether a change takes an item to its threshold depends on the balance
  before it, and the services read that balance in a statement of its own, without a lock.  Hence
  the warnings are right in a transaction that runs by itself (`Serially`), and only there.

  The steps of one change, in their order:

  1. the UPDATE leaves the item behind its feed (`Written`);
  2. the movement is posted, and its keys are fresh (`Posted`);
  3. the announcement brings the feed up to date (`Written.announced`);
  4. the warning, or none, brings the warnings up to date (`Written.warns`).
-/
import CommerceOperations.Application.ChangeLog
import CommerceOperations.Application.Warehouse
import CommerceOperations.Events.Delivery
import CommerceOperations.Relational.Trails
import Mathlib.Data.List.Induction

namespace CommerceOperations

open Relational Relational.Feed Prog Store

/-! ## The writes of a transaction -/

/-- The tables that neither hold the stock nor the events. -/
def otherTables : List TableName :=
  [.workflowRuns, .auditEvents, .orders, .orderItems, .returns, .procurementRequests,
    .purchaseOrders]

/-- A transaction that sees no state but `D`, where every warning due was given. -/
structure Serially (past : Db → Prop) (D : Db) : Prop where
  /-- its statements see the state it is committed on -/
  only : ∀ D₁, past D₁ → D₁ = D
  /-- and there the warnings have come to every item -/
  warned : WarnedAt D InventoryItem.mark

/-- The writes made so far leave the feeds where they should be on `D`, and in a transaction on
    its own the warnings too. -/
structure Followed (past : Db → Prop) (D : Db) (told warned : InventoryItem → Mark Int)
    (ws : List (Write TableName.Entity)) : Prop where
  /-- the feeds have come to where the items are `told` to be -/
  logged : LoggedAt (applyAll ws D) told
  /-- the warnings, in a transaction on its own, to where they are `warned` of -/
  warned : Serially past D → WarnedAt (applyAll ws D) warned
  /-- every event written is new, and names movements on record only -/
  spoken : ∀ w ∈ ws, w.table = .domainEvents → ∃ e, w = ⟨.domainEvents, .insert e⟩ ∧
    ∀ k, e.Names k → ∃ m ∈ Db.inventoryMovements (applyAll ws D), m.id = k

/-- Every item is told of and warned of, which is the state between two operations. -/
abbrev Consistent (past : Db → Prop) (D : Db) : List (Write TableName.Entity) → Prop :=
  Followed past D InventoryItem.mark InventoryItem.mark

/-- No event with this key is in a state a statement can see. -/
def Unsaid (past : Db → Prop) (key : String) (ws : List (Write TableName.Entity)) : Prop :=
  ∀ D₁, past D₁ → ∀ e ∈ Db.domainEvents (applyAll ws D₁), e.idempotencyKey ≠ key

section Writes

variable {past : Db → Prop} {D : Db} {told warned : InventoryItem → Mark Int}
variable {ws : List (Write TableName.Entity)} {w : Write TableName.Entity}

/-- The writes are applied one after the other. -/
theorem applyAll_snoc (ws : List (Write TableName.Entity)) (w : Write TableName.Entity) (D : Db) :
    applyAll (ws ++ [w]) D = Database.apply w (applyAll ws D) := by
  rw [applyAll_append]
  rfl

/-- One write leaves the events, or adds one. -/
theorem mem_events_apply {e : DomainEvent}
    (hw : w.table = .domainEvents → ∃ e, w = ⟨.domainEvents, .insert e⟩)
    (he : e ∈ Db.domainEvents (Database.apply w D)) :
    e ∈ D.domainEvents ∨ w = ⟨.domainEvents, .insert e⟩ := by
  by_cases hi : w.table = .domainEvents
  · obtain ⟨e₀, rfl⟩ := hw hi
    cases hconf : D.domainEvents.conflicts e₀ with
    | true =>
      have htable : Db.domainEvents (Database.apply ⟨.domainEvents, .insert e₀⟩ D) =
          D.domainEvents := (Database.apply_table_self ..).trans (Table.insert_of_conflict hconf)
      rw [htable] at he
      exact Or.inl he
    | false =>
      rcases (mem_events_insert hconf).mp he with he | rfl
      · exact Or.inl he
      · exact Or.inr rfl
  · have htable : Db.domainEvents (Database.apply w D) = D.domainEvents :=
      Database.apply_table_of_ne w D (Ne.symm hi)
    rw [htable] at he
    exact Or.inl he

/-- An event comes from the state, or was inserted. -/
theorem mem_events_applyAll {e : DomainEvent} (hws : ∀ w ∈ ws, w.table = .domainEvents →
      ∃ e, w = ⟨.domainEvents, .insert e⟩)
    (he : e ∈ Db.domainEvents (applyAll ws D)) :
    e ∈ D.domainEvents ∨ ⟨.domainEvents, .insert e⟩ ∈ ws := by
  induction ws generalizing D with
  | nil => exact Or.inl he
  | cons w ws ih =>
    have hrest := ih (fun w' hw' => hws w' (List.mem_cons_of_mem _ hw')) he
    rcases hrest with he | hmem
    · rcases mem_events_apply (hws w List.mem_cons_self) he with he | rfl
      · exact Or.inl he
      · exact Or.inr List.mem_cons_self
    · exact Or.inr (List.mem_cons_of_mem _ hmem)

/-- A write to another table, or a plain event, leaves the feeds where they are.  The cases are the
    table and, for the outbox, the kind of write. -/
theorem Followed.other (hw : Announces otherTables DomainEvent.Plain w)
    (h : Followed past D told warned ws) : Followed past D told warned (ws ++ [w]) := by
  obtain ⟨i, w⟩ := w
  have hmovements : Db.inventoryMovements (applyAll (ws ++ [⟨i, w⟩]) D) =
      Db.inventoryMovements (applyAll ws D) := by
    rw [applyAll_snoc]
    refine Database.apply_table_of_ne _ _ ?_
    rintro rfl
    exact absurd hw (by decide : TableName.inventoryMovements ∉ otherTables)
  have hspoken : ∀ w' ∈ ws, w'.table = .domainEvents → ∃ e, w' = ⟨.domainEvents, .insert e⟩ ∧
      ∀ k, e.Names k → ∃ m ∈ Db.inventoryMovements (applyAll (ws ++ [⟨i, w⟩]) D), m.id = k := by
    intro w' hw' htable
    obtain ⟨e, heq, hnamed⟩ := h.spoken w' hw' htable
    refine ⟨e, heq, fun k hk => ?_⟩
    rw [hmovements]
    exact hnamed k hk
  by_cases hi : i = .domainEvents
  · subst hi
    cases w with
    | update old new => exact absurd hw (by decide : TableName.domainEvents ∉ otherTables)
    | insert e =>
      -- a plain event is neither a change nor a warning, and names no movement
      have hplain : e.Plain := hw
      refine ⟨?_, fun hpast => ?_, fun w' hw' htable => ?_⟩
      · rw [applyAll_snoc]
        cases hconf : (Db.domainEvents (applyAll ws D)).conflicts e with
        | false =>
          exact h.logged.insert_event hconf hplain.notChanged fun k hk =>
            absurd hk (hplain.unnamed k)
        | true =>
          exact h.logged.same rfl (fun m hm => hm)
            ((Database.apply_table_self ..).trans (Table.insert_of_conflict hconf))
      · rw [applyAll_snoc]
        cases hconf : (Db.domainEvents (applyAll ws D)).conflicts e with
        | false => exact (h.warned hpast).insert_event hconf hplain.notLow
        | true =>
          exact (h.warned hpast).same rfl
            ((Database.apply_table_self ..).trans (Table.insert_of_conflict hconf))
      · rcases List.mem_append.mp hw' with hw' | hw'
        · exact hspoken w' hw' htable
        · obtain rfl := List.mem_singleton.mp hw'
          exact ⟨e, rfl, fun k hk => absurd hk (hplain.unnamed k)⟩
  -- another table: items and outbox are untouched
  · have hitem : TableName.inventoryItems ≠ i := by
      rintro rfl
      exact absurd hw (by decide : TableName.inventoryItems ∉ otherTables)
    have hitems : Db.inventoryItems (applyAll (ws ++ [⟨i, w⟩]) D) =
        Db.inventoryItems (applyAll ws D) := by
      rw [applyAll_snoc]
      exact Database.apply_table_of_ne _ _ hitem
    have hevents : Db.domainEvents (applyAll (ws ++ [⟨i, w⟩]) D) =
        Db.domainEvents (applyAll ws D) := by
      rw [applyAll_snoc]
      exact Database.apply_table_of_ne _ _ (Ne.symm hi)
    refine ⟨h.logged.same hitems (fun m hm => ?_) hevents,
      fun hpast => (h.warned hpast).same hitems hevents, fun w' hw' htable => ?_⟩
    · rw [hmovements]
      exact hm
    · rcases List.mem_append.mp hw' with hw' | hw'
      · exact hspoken w' hw' htable
      · obtain rfl := List.mem_singleton.mp hw'
        exact absurd htable hi

/-- A key stays unused while only events under other keys are written. -/
theorem Unsaid.other {key : String} (h : Unsaid past key ws)
    (hw : w.table = .domainEvents → ∃ e, w = ⟨.domainEvents, .insert e⟩ ∧ e.idempotencyKey ≠ key) :
    Unsaid past key (ws ++ [w]) := by
  intro D₁ hD₁ e he
  rw [applyAll_snoc] at he
  have hinsert : w.table = .domainEvents → ∃ e, w = ⟨.domainEvents, .insert e⟩ := fun hi =>
    (hw hi).imp fun _ h => h.1
  rcases mem_events_apply hinsert he with he | rfl
  · exact h D₁ hD₁ e he
  · obtain ⟨e', heq, hkey⟩ := hw rfl
    cases heq
    exact hkey

end Writes

/-! ## One change of an item -/

section Change

variable {past : Db → Prop} {D : Db} {tr tr' : Trail (Write TableName.Entity) DbLock}

/-- A transaction of plain announcements leaves the feeds where they are. -/
theorem maintains_of_announces {α : Type} {p : Tx α} {tables : List TableName}
    {told warned : InventoryItem → Mark Int} (hp : p.announces tables DomainEvent.Plain)
    (hsub : tables ⊆ otherTables) : p.maintains past D (Followed past D told warned) :=
  maintains_of_writes (fun _ _ hw h => h.other hw)
    (Tx.announces_mono hp hsub)

/-- **A key no one has used** is published. -/
theorem DatabaseEventStore.emit_sees {payload : EventPayload} {context : EventContext}
    {idempotencyKey : String} {e : DomainEvent} (hkey : Unsaid past idempotencyKey tr.writes)
    (h : (emit payload context idempotencyKey).sees past D tr e tr') :
    tr'.writes = tr.writes ++ [⟨.domainEvents, .insert e⟩] ∧ e.payload = payload ∧
      e.idempotencyKey = idempotencyKey ∧ e.aggregateVersion = context.aggregateVersion ∧
      (Db.domainEvents (applyAll tr.writes D)).conflicts e = false := by
  unfold emit createEvent at h
  simp only [bind_assoc, pure_bind] at h
  obtain ⟨_, tr₁, hrequire, h₁⟩ := sees_bind.mp h
  obtain ⟨-, rfl⟩ := Tx.sees_require hrequire
  obtain ⟨id, tr₂, ⟨env, hid, rfl⟩, h₂⟩ := sees_bind.mp h₁
  obtain ⟨now, tr₃, ⟨env', hnow, rfl⟩, h₃⟩ := sees_bind.mp h₂
  obtain ⟨existing, tr₄, hselect, h₄⟩ := sees_bind.mp h₃
  obtain ⟨rfl, D₁, hD₁, -, -, hfind⟩ := sees_query hselect
  cases existing with
  | some existing =>
    -- no statement can see an event under the key
    have hmem := List.mem_of_find?_eq_some hfind
    have hsame : existing.idempotencyKey = idempotencyKey := by
      simpa using List.find?_some hfind
    exact absurd hsame (hkey D₁ hD₁ existing hmem)
  | none =>
    obtain ⟨rfl, hconf, hwrites⟩ := sees_insert h₄
    exact ⟨hwrites, rfl, rfl, rfl, hconf⟩

/-- The key of an event names one movement at most. -/
theorem DomainEvent.Names.eq {e : DomainEvent} {k k' : Uuid} (h : e.Names k) (h' : e.Names k') :
    k' = k := by
  have hne : ∀ a b : Uuid, changedKey a ≠ lowStockKey b := by
    intro a b heq
    rw [changedKey_eq, lowStockKey_eq] at heq
    have hfirst := congrArg (fun s : String => s.toList.head?) heq
    simp only [String.toList_append, List.head?_append] at hfirst
    cases hfirst
  rcases h with h | h <;> rcases h' with h' | h' <;> rw [h] at h'
  · rw [changedKey_eq, changedKey_eq] at h'
    exact (Uuid.eq_of_text_eq (append_inj_of_length h' rfl).2).symm
  · exact absurd h' (hne k k')
  · exact absurd h'.symm (hne k' k)
  · rw [lowStockKey_eq, lowStockKey_eq] at h'
    exact (Uuid.eq_of_text_eq (append_inj_of_length h' rfl).2).symm

variable {ws : List (Write TableName.Entity)} {told warned : InventoryItem → Mark Int}

/-- The UPDATE of an item leaves it behind. -/
theorem Followed.changed {old new : InventoryItem} (h : Consistent past D ws)
    (hget : (Db.inventoryItems (applyAll ws D)).get new.id = some old)
    (hs : (Db.inventoryItems (applyAll ws D)).succeeds old new = true)
    (hc : (Db.inventoryItems (applyAll ws D)).clashes old new = false)
    (hthreshold : new.lowStockThreshold = old.lowStockThreshold) :
    Followed past D (behind new.id old.mark) (behind new.id old.mark)
      (ws ++ [⟨.inventoryItems, .update old new⟩]) := by
  refine ⟨?_, fun hpast => ?_, fun w hw htable => ?_⟩
  · rw [applyAll_snoc]
    exact h.logged.update_item hget hs hc
  · rw [applyAll_snoc]
    exact (h.warned hpast).update_item hget hs hc hthreshold
  · rcases List.mem_append.mp hw with hw | hw
    · obtain ⟨e, heq, hnamed⟩ := h.spoken w hw htable
      refine ⟨e, heq, fun k hk => ?_⟩
      rw [applyAll_snoc]
      exact hnamed k hk
    · obtain rfl := List.mem_singleton.mp hw
      cases htable

/-- No event a statement can see names a movement that is not on record. -/
def MovementsKnown (past : Db → Prop) (D : Db) : Prop :=
  ∀ D₁, past D₁ → ∀ e ∈ D₁.domainEvents, ∀ k, e.Names k → ∃ m ∈ D.inventoryMovements, m.id = k

/-- A movement on record stays there. -/
theorem exists_movement_applyAll {k : Uuid} (h : ∃ m ∈ D.inventoryMovements, m.id = k) :
    ∃ m ∈ Db.inventoryMovements (applyAll ws D), m.id = k := by
  obtain ⟨m, hm, rfl⟩ := h
  have hstays : Table.earlier D.inventoryMovements (Db.inventoryMovements (applyAll ws D)) :=
    earlier_applyAll ws D .inventoryMovements
  obtain ⟨m', hm', -⟩ := hstays _ m (Table.get_of_mem hm)
  exact ⟨m', Table.mem_of_get hm', Table.key_of_get hm'⟩

/-- A new movement: no event a statement could see names it. -/
theorem Followed.posted {m : InventoryMovement} (h : Followed past D told warned ws)
    (hpast : MovementsKnown past D)
    (hconf : (Db.inventoryMovements (applyAll ws D)).conflicts m = false) :
    Followed past D told warned (ws ++ [⟨.inventoryMovements, .insert m⟩]) ∧
      (∃ m' ∈ Db.inventoryMovements (applyAll (ws ++ [⟨.inventoryMovements, .insert m⟩]) D),
        m'.id = m.id) ∧
      ∀ key, key = changedKey m.id ∨ key = lowStockKey m.id →
        Unsaid past key (ws ++ [⟨.inventoryMovements, .insert m⟩]) := by
  have hmem : ∀ m', m' ∈ Db.inventoryMovements
      (Database.apply ⟨.inventoryMovements, .insert m⟩ (applyAll ws D)) ↔
        m' ∈ Db.inventoryMovements (applyAll ws D) ∨ m' = m := by
    intro m'
    have htable : Db.inventoryMovements (Database.apply ⟨.inventoryMovements, .insert m⟩
        (applyAll ws D)) = (Db.inventoryMovements (applyAll ws D)).insert m :=
      Database.apply_table_self ..
    rw [htable]
    exact Table.mem_insert hconf
  refine ⟨⟨?_, fun hpast => ?_, fun w hw htable => ?_⟩, ⟨m, ?_, rfl⟩, fun key hkey => ?_⟩
  · rw [applyAll_snoc]
    exact h.logged.same rfl (fun m' hm' => (hmem m').mpr (Or.inl hm')) rfl
  · rw [applyAll_snoc]
    exact (h.warned hpast).same rfl rfl
  · rcases List.mem_append.mp hw with hw | hw
    · obtain ⟨e, heq, hnamed⟩ := h.spoken w hw htable
      refine ⟨e, heq, fun k hk => ?_⟩
      obtain ⟨m', hm', hid⟩ := hnamed k hk
      rw [applyAll_snoc]
      exact ⟨m', (hmem m').mpr (Or.inl hm'), hid⟩
    · obtain rfl := List.mem_singleton.mp hw
      cases htable
  · rw [applyAll_snoc]
    exact (hmem m).mpr (Or.inr rfl)
  · refine Unsaid.other (fun D₁ hD₁ e he heq => ?_) fun htable => (by cases htable)
    -- an event under the key would name the movement, which was not there
    have hnames : e.Names m.id := hkey.imp (heq.trans ·) (heq.trans ·)
    have hrecorded : ∃ m' ∈ Db.inventoryMovements (applyAll ws D), m'.id = m.id := by
      rcases mem_events_applyAll (fun w hw ht => (h.spoken w hw ht).imp fun _ h => h.1) he with
        he | he
      · exact exists_movement_applyAll (hpast D₁ hD₁ e he m.id hnames)
      · obtain ⟨e', heq', hnamed⟩ := h.spoken _ he rfl
        cases heq'
        exact hnamed m.id hnames
    obtain ⟨m', hm', hid⟩ := hrecorded
    exact ((Table.conflicts_eq_false.mp hconf) m' hm').1 hid

/-- A new event that names at most a movement on record is spoken of rightly. -/
theorem Followed.spoken_insert {e : DomainEvent} (h : Followed past D told warned ws)
    (hnamed : ∀ k, e.Names k → ∃ m ∈ Db.inventoryMovements (applyAll ws D), m.id = k) :
    ∀ w ∈ ws ++ [⟨.domainEvents, .insert e⟩], w.table = .domainEvents →
      ∃ e', w = ⟨.domainEvents, .insert e'⟩ ∧ ∀ k, e'.Names k →
        ∃ m ∈ Db.inventoryMovements (applyAll (ws ++ [⟨.domainEvents, .insert e⟩]) D),
          m.id = k := by
  have hmovements : Db.inventoryMovements (applyAll (ws ++ [⟨.domainEvents, .insert e⟩]) D) =
      Db.inventoryMovements (applyAll ws D) := by
    rw [applyAll_snoc]
    rfl
  intro w hw htable
  rw [hmovements]
  rcases List.mem_append.mp hw with hw | hw
  · exact h.spoken w hw htable
  · obtain rfl := List.mem_singleton.mp hw
    exact ⟨e, rfl, hnamed⟩

/-! ### From the UPDATE to the events -/

/-- `item` was written, and is known in the feeds as it was before (`m`), or the change has been
    announced already: `told` says which. -/
structure Written (past : Db → Prop) (D : Db) (item : InventoryItem) (m : Mark Int) (delta : Int)
    (told : InventoryItem → Mark Int) (ws : List (Write TableName.Entity)) : Prop where
  /-- the feeds are as `told`, and the warnings still behind -/
  followed : Followed past D told (behind item.id m) ws
  /-- the item is the one on record -/
  item_mem : item ∈ Db.inventoryItems (applyAll ws D)
  /-- one version ahead -/
  version_eq : item.version = m.version + 1
  /-- and by `delta` units -/
  onHand_eq : item.quantityOnHand = m.level + delta

/-- The movement `k` is posted, and nothing was said under the keys made from it. -/
structure Posted (past : Db → Prop) (D : Db) (k : Uuid) (keys : List String)
    (ws : List (Write TableName.Entity)) : Prop where
  /-- it is on record -/
  movement : ∃ mv ∈ Db.inventoryMovements (applyAll ws D), mv.id = k
  /-- no event has one of the keys -/
  unsaid : ∀ key ∈ keys, Unsaid past key ws
  /-- and they are keys made from it -/
  named : ∀ key ∈ keys, key = changedKey k ∨ key = lowStockKey k

/-- Plain writes in between change nothing of this. -/
theorem Written.other {w : Write TableName.Entity} {item : InventoryItem} {m : Mark Int}
    {delta : Int} (hw : Announces otherTables DomainEvent.Plain w)
    (h : Written past D item m delta told ws) : Written past D item m delta told (ws ++ [w]) := by
  refine ⟨h.followed.other hw, ?_, h.version_eq, h.onHand_eq⟩
  have hne : TableName.inventoryItems ≠ w.table := by
    obtain ⟨i, w⟩ := w
    rintro rfl
    exact absurd hw (by decide : TableName.inventoryItems ∉ otherTables)
  rw [applyAll_snoc]
  show item ∈ (Database.apply w _).table .inventoryItems
  rw [Database.apply_table_of_ne w _ hne]
  exact h.item_mem

/-- Plain writes leave what is known of the keys: they use none of them. -/
theorem Posted.other {w : Write TableName.Entity} {k : Uuid} {keys : List String}
    (hw : Announces otherTables DomainEvent.Plain w) (h : Posted past D k keys ws) :
    Posted past D k keys (ws ++ [w]) := by
  refine ⟨?_, fun key hkey => (h.unsaid key hkey).other fun htable => ?_, h.named⟩
  · have hne : TableName.inventoryMovements ≠ w.table := by
      obtain ⟨i, w⟩ := w
      rintro rfl
      exact absurd hw (by decide : TableName.inventoryMovements ∉ otherTables)
    rw [applyAll_snoc]
    show ∃ mv ∈ (Database.apply w _).table .inventoryMovements, mv.id = k
    rw [Database.apply_table_of_ne w _ hne]
    exact h.movement
  · obtain ⟨i, w⟩ := w
    obtain rfl : i = .domainEvents := htable
    cases w with
    | update old new => exact absurd hw (by decide : TableName.domainEvents ∉ otherTables)
    | insert e =>
      have hplain : e.Plain := hw
      refine ⟨e, rfl, fun heq => hplain.unnamed k ?_⟩
      exact (h.named key hkey).imp (heq.trans ·) (heq.trans ·)

/-- **The UPDATE** of an item by `delta` units: the item is one change ahead of its feed. -/
theorem Consistent.written {old new : InventoryItem} {delta : Int} (h : Consistent past D ws)
    (hget : (Db.inventoryItems (applyAll ws D)).get new.id = some old)
    (hs : (Db.inventoryItems (applyAll ws D)).succeeds old new = true)
    (hc : (Db.inventoryItems (applyAll ws D)).clashes old new = false)
    (hthreshold : new.lowStockThreshold = old.lowStockThreshold)
    (hversion : new.version = old.version + 1)
    (honHand : new.quantityOnHand = old.quantityOnHand + delta) :
    Written past D new old.mark delta (behind new.id old.mark)
      (ws ++ [⟨.inventoryItems, .update old new⟩]) := by
  refine ⟨h.changed hget hs hc hthreshold, ?_, hversion, honHand⟩
  rw [applyAll_snoc]
  exact (mem_items_update hs hc).mpr (Or.inl rfl)

/-- **The movement**: it is new, so no event a statement could see has a key made from it. -/
theorem Written.posted {mv : InventoryMovement} {item : InventoryItem} {m : Mark Int}
    {delta : Int} (hpast : MovementsKnown past D)
    (h : Written past D item m delta told ws)
    (hconf : (Db.inventoryMovements (applyAll ws D)).conflicts mv = false) :
    Written past D item m delta told (ws ++ [⟨.inventoryMovements, .insert mv⟩]) ∧
      Posted past D mv.id [changedKey mv.id, lowStockKey mv.id]
        (ws ++ [⟨.inventoryMovements, .insert mv⟩]) := by
  obtain ⟨hfollowed, hmovement, hunsaid⟩ := h.followed.posted hpast hconf
  have hkeys : ∀ key ∈ [changedKey mv.id, lowStockKey mv.id],
      key = changedKey mv.id ∨ key = lowStockKey mv.id := by simp
  refine ⟨⟨hfollowed, ?_, h.version_eq, h.onHand_eq⟩,
    ⟨hmovement, fun key hkey => hunsaid key (hkeys key hkey), hkeys⟩⟩
  rw [applyAll_snoc]
  exact h.item_mem

/-- The announcement does not use up the key of the warning. -/
theorem lowStockKey_ne_changedKey (k : Uuid) : lowStockKey k ≠ changedKey k := by
  intro heq
  rw [changedKey_eq, lowStockKey_eq] at heq
  have hfirst := congrArg (fun s : String => s.toList.head?) heq
  simp only [String.toList_append, List.head?_append] at hfirst
  cases hfirst

/-- **The announcement of the change**: its key is fresh, so it is written, and with it the feed has
    come to the item. -/
theorem Written.announced {item : InventoryItem} {m : Mark Int} {delta : Int} {k : Uuid}
    {context : EventContext} {e : DomainEvent}
    (h : Written past D item m delta (behind item.id m) tr.writes)
    (hp : Posted past D k [changedKey k, lowStockKey k] tr.writes)
    (hcontext : context.aggregateVersion = item.version)
    (hemit : (DatabaseEventStore.emit (.inventoryChanged item.id delta item.quantityOnHand
      item.reservedQuantity) context (changedKey k)).sees past D tr e tr') :
    Written past D item m delta InventoryItem.mark tr'.writes ∧
      Posted past D k [lowStockKey k] tr'.writes := by
  obtain ⟨hwrites, hpayload, hkey, haggregate, hconf⟩ :=
    DatabaseEventStore.emit_sees (hp.unsaid _ List.mem_cons_self) hemit
  have hnamed : ∀ k', e.Names k' →
      ∃ mv ∈ Db.inventoryMovements (applyAll tr.writes D), mv.id = k' := by
    intro k' hk'
    rw [DomainEvent.Names.eq (Or.inl hkey) hk']
    exact hp.movement
  have hF := h.followed
  rw [hwrites]
  refine ⟨⟨⟨?_, fun hserial => ?_, hF.spoken_insert hnamed⟩, ?_, h.version_eq, h.onHand_eq⟩,
    ?_, fun key hkey' => ?_, fun key hkey' => hp.named key (List.mem_cons_of_mem _ hkey')⟩
  · rw [applyAll_snoc]
    exact hF.logged.announce hconf h.item_mem hpayload (haggregate.trans hcontext) h.version_eq
      h.onHand_eq hnamed
  · rw [applyAll_snoc]
    refine (hF.warned hserial).insert_event hconf ?_
    rw [hpayload]
    exact fun h => (by cases h)
  · rw [applyAll_snoc]
    exact h.item_mem
  · rw [applyAll_snoc]
    exact hp.movement
  · refine (hp.unsaid key (List.mem_cons_of_mem _ hkey')).other fun _ => ⟨e, rfl, ?_⟩
    obtain rfl := List.mem_singleton.mp hkey'
    rw [hkey]
    exact (lowStockKey_ne_changedKey k).symm

/-- The end of the record of a change: a warning, if the change calls for one. -/
def warn (item : InventoryItem) (previousAvailable : Int) (context : EventContext)
    (key : String) : Tx Unit := do
  if item.lowStockThreshold < previousAvailable ∧
      item.availableQuantity ≤ item.lowStockThreshold then
    let _ ← DatabaseEventStore.emit
      (.lowStock item.id item.sku item.availableQuantity item.lowStockThreshold) context key

/-- **The warning**: in a transaction that saw the balance before the change, it is given exactly
    when the change takes the item to its threshold. -/
theorem Written.warns {item : InventoryItem} {m : Mark Int} {delta : Int} {k : Uuid}
    {previousAvailable : Int} {context : EventContext} {u : Unit}
    (h : Written past D item m delta InventoryItem.mark tr.writes)
    (hp : Posted past D k [lowStockKey k] tr.writes)
    (hcontext : context.aggregateVersion = item.version)
    (hprevious : Serially past D → previousAvailable = m.level - m.note)
    (hwarn : (warn item previousAvailable context (lowStockKey k)).sees past D tr u tr') :
    Consistent past D tr'.writes := by
  have hF := h.followed
  -- the test of the code, on the balances it saw, is the crossing of the threshold by the row
  have hlow : Serially past D →
      ((item.lowStockThreshold < previousAvailable ∧
          item.availableQuantity ≤ item.lowStockThreshold) ↔
        (isLow item.lowStockThreshold item.mark = true ∧
          isLow item.lowStockThreshold m = false)) := by
    intro hserial
    rw [hprevious hserial]
    unfold isLow InventoryItem.availableQuantity InventoryItem.mark
    simp only [decide_eq_true_eq, decide_eq_false_iff_not]
    omega
  unfold warn at hwarn
  split at hwarn
  · rename_i hcond
    obtain ⟨e, tr₁, hemit, h₁⟩ := sees_bind.mp hwarn
    obtain ⟨-, rfl⟩ := h₁
    obtain ⟨hwrites, hpayload, hkey, haggregate, hconf⟩ :=
      DatabaseEventStore.emit_sees (hp.unsaid _ List.mem_cons_self) hemit
    -- the event is a warning, not a change, and names the movement
    have htype : e.payload.type ≠ .inventoryChanged := by
      rw [hpayload]
      exact fun h => (by cases h)
    have hnamed : ∀ k', e.Names k' →
        ∃ mv ∈ Db.inventoryMovements (applyAll tr.writes D), mv.id = k' := by
      intro k' hk'
      rw [DomainEvent.Names.eq (Or.inr hkey) hk']
      exact hp.movement
    have hwarning : ∀ i, e.warningOf i = if item.id = i then
        some ⟨item.version, item.availableQuantity, item.lowStockThreshold⟩ else none := by
      intro i
      unfold DomainEvent.warningOf
      rw [hpayload, ← hcontext, ← haggregate]
    rw [hwrites]
    refine ⟨?_, fun hserial => ?_, hF.spoken_insert hnamed⟩
    · rw [applyAll_snoc]
      exact hF.logged.insert_event hconf htype hnamed
    · rw [applyAll_snoc]
      refine (hF.warned hserial).settle hF.logged h.item_mem h.version_eq rfl (fun i => ?_)
        (fun i => ?_) ?_
      · rw [changes_insert hconf, DomainEvent.changeOf_eq_none htype, Option.toList_none,
          List.append_nil]
      · rw [warnings_insert hconf, hwarning]
        obtain ⟨hat, hbefore⟩ := (hlow hserial).mp hcond
        by_cases hid : item.id = i
        · rw [if_pos hid, if_pos ⟨hid, hat, hbefore⟩]
          rfl
        · rw [if_neg hid, if_neg fun hall => hid hall.1]
          rfl
      · intro e' he' i w hw
        rcases (mem_events_insert hconf).mp he' with he' | rfl
        · exact (hF.warned hserial).about e' he' i w hw
        · rw [hwarning] at hw
          split at hw
          · rename_i hid
            exact ⟨item, h.item_mem, hid⟩
          · cases hw
  · -- no warning is called for either
    rename_i hcond
    obtain ⟨-, rfl⟩ := hwarn
    refine ⟨hF.logged, fun hserial => ?_, hF.spoken⟩
    refine (hF.warned hserial).settle hF.logged h.item_mem h.version_eq rfl (fun _ => rfl)
      (fun i => ?_) (hF.warned hserial).about
    rw [if_neg fun hall => hcond ((hlow hserial).mpr hall.2), List.append_nil]

section Between

variable {α : Type} {p : Tx α} {a : α} {tables : List TableName}
  (hp : p.announces tables DomainEvent.Plain) (hsub : tables ⊆ otherTables)
  (hsees : p.sees past D tr a tr')

include hp hsub hsees

/-- What is known between the steps, plain announcements keep. -/
theorem Written.of_announces {item : InventoryItem} {m : Mark Int} {delta : Int}
    {told : InventoryItem → Mark Int} (h : Written past D item m delta told tr.writes) :
    Written past D item m delta told tr'.writes :=
  maintains_of_writes (fun _ _ hw hJ => Written.other hw hJ) (Tx.announces_mono hp hsub) tr a tr' h
    hsees

/-- Plain announcements in between keep what is known of the keys. -/
theorem Posted.of_announces {k : Uuid} {keys : List String} (h : Posted past D k keys tr.writes) :
    Posted past D k keys tr'.writes :=
  maintains_of_writes (fun _ _ hw hJ => Posted.other hw hJ) (Tx.announces_mono hp hsub) tr a tr' h
    hsees

end Between

/-- Read again under its lock, the item is the one that was written. -/
theorem Written.eq_of_reread {item current : InventoryItem} {m : Mark Int} {delta : Int}
    {told : InventoryItem → Mark Int} {D₁ : Db}
    (h : Written past D item m delta told tr.writes)
    (hlock : (⟨.inventoryItems, .row item.id⟩ : DbLock) ∈ tr.held)
    (hagree : agreeOn tr.held (tr.on D₁) (tr.on D))
    (hread : (Db.inventoryItems (tr.on D₁)).get item.id = some current) : current = item := by
  have hsame : (Db.inventoryItems (tr.on D₁)).get item.id =
      (Db.inventoryItems (tr.on D)).get item.id := hagree _ hlock
  have hitem : (Db.inventoryItems (tr.on D)).get item.id = some item :=
    Table.get_of_mem h.item_mem
  rw [hread, hitem] at hsame
  exact Option.some.inj hsame

end Change

end CommerceOperations
