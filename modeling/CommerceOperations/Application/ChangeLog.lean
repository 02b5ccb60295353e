/-
  The change log of the stock.

  Every change of an item's balance is announced by an INVENTORY_CHANGED event that carries the
  version the item then has, by how much the stock on hand moved, and both balances.  A LOW_STOCK
  event is a warning: the available stock has come down to the threshold.

  A consumer that replays the announced changes of an item, in the order of the outbox, wants to
  arrive at the item.  That is not true at every moment: between the UPDATE of an item and its
  announcement the feed is one change behind.  So the invariant has a parameter.  `LoggedAt told`
  says that the feed of each item has come to `told item`, and `WarnedAt warned` the same of the
  warnings; when a transaction is over both have come to the item itself.

  The lemmas here are about one write each:

  * a new item has no feed yet, and its mark is the one a replay begins with;
  * an item that is written is behind by one change (`behind`);
  * the announcement of the change brings it up to date, and so does the warning, or the absence of
    one, for the warnings.
-/
import CommerceOperations.Application.Announcements
import CommerceOperations.Relational.Feed

namespace CommerceOperations

open Relational Relational.Feed

/-! ## The feeds of an item -/

/-- What a consumer of the feed keeps of an item: its version and its stock on hand, with the
    reserved stock as a note. -/
def InventoryItem.mark (item : InventoryItem) : Mark Int :=
  ⟨item.version, item.quantityOnHand, item.reservedQuantity⟩

/-- The mark of an item that was just created, where every replay begins. -/
def newItem : Mark Int := ⟨1, 0, 0⟩

/-- The change of item `i` that the event announces. -/
def DomainEvent.changeOf (i : Uuid) (e : DomainEvent) : Option (Entry Int) :=
  match e.payload with
  | .inventoryChanged j delta onHand reserved =>
    if j = i then some ⟨e.aggregateVersion, delta, onHand, reserved⟩ else none
  | _ => none

/-- A warning: the version of the item, its available stock and the threshold. -/
structure Warning where
  version : Int
  available : Int
  threshold : Int
  deriving DecidableEq, Repr

/-- The warning about item `i` that the event gives. -/
def DomainEvent.warningOf (i : Uuid) (e : DomainEvent) : Option Warning :=
  match e.payload with
  | .lowStock j _ available threshold =>
    if j = i then some ⟨e.aggregateVersion, available, threshold⟩ else none
  | _ => none

/-- The announced changes of an item, in the order of the outbox. -/
def Db.changes (D : Db) (i : Uuid) : List (Entry Int) :=
  D.domainEvents.rows.filterMap fun e => e.changeOf i

/-- The warnings about an item, in the order of the outbox. -/
def Db.warnings (D : Db) (i : Uuid) : List Warning :=
  D.domainEvents.rows.filterMap fun e => e.warningOf i

/-- The available stock is at the threshold or below. -/
def isLow (threshold : Int) (m : Mark Int) : Bool := m.level - m.note ≤ threshold

/-- The warning a change of stock calls for. -/
def warningAt (threshold : Int) (e : Entry Int) : Warning :=
  ⟨e.version, e.level - e.note, threshold⟩

/-- The warnings the announced changes of an item call for. -/
def dueWarnings (threshold : Int) (log : List (Entry Int)) : List Warning :=
  (crossings (isLow threshold) newItem log).map (warningAt threshold)

/-! ## How far the feeds have come -/

/-- The feed of each item has come to what it was `told`. -/
structure LoggedAt (D : Db) (told : InventoryItem → Mark Int) : Prop where
  /-- replaying the announced changes of an item leads to where it is `told` to be -/
  feed : ∀ item ∈ D.inventoryItems, replay newItem (D.changes item.id) = some (told item)
  /-- a change is announced of items on record only -/
  about : ∀ e ∈ D.domainEvents, ∀ i c, e.changeOf i = some c →
    ∃ item ∈ D.inventoryItems, item.id = i
  /-- and a key that names a movement names one on record -/
  named : ∀ e ∈ D.domainEvents, ∀ k, e.Names k → ∃ m ∈ D.inventoryMovements, m.id = k

/-- The warnings about each item have come to where it was `warned` of. -/
structure WarnedAt (D : Db) (warned : InventoryItem → Mark Int) : Prop where
  /-- the warnings are those due for a first part of the announced changes, which leads to where the
      item was `warned` of -/
  feed : ∀ item ∈ D.inventoryItems, ∃ log rest, D.changes item.id = log ++ rest ∧
    replay newItem log = some (warned item) ∧
    D.warnings item.id = dueWarnings item.lowStockThreshold log
  /-- items on record are warned about, and no others -/
  about : ∀ e ∈ D.domainEvents, ∀ i w, e.warningOf i = some w →
    ∃ item ∈ D.inventoryItems, item.id = i

/-- Where the feeds are when item `i` has been written and not announced: that item is still at `m`,
    and the others are up to date. -/
def behind (i : Uuid) (m : Mark Int) (item : InventoryItem) : Mark Int :=
  if item.id = i then m else item.mark

/-! ## One write -/

section Writes

variable {D D' : Db} {told warned : InventoryItem → Mark Int}

/-- The announced changes are read off the outbox alone. -/
theorem Db.changes_congr (h : D'.domainEvents = D.domainEvents) (i : Uuid) :
    D'.changes i = D.changes i := by
  unfold Db.changes
  rw [h]

/-- The warnings are read off the outbox alone, too. -/
theorem Db.warnings_congr (h : D'.domainEvents = D.domainEvents) (i : Uuid) :
    D'.warnings i = D.warnings i := by
  unfold Db.warnings
  rw [h]

/-- A write to another table leaves the feeds where they are. -/
theorem LoggedAt.same (h : LoggedAt D told) (hitems : D'.inventoryItems = D.inventoryItems)
    (hmovements : ∀ m ∈ D.inventoryMovements, m ∈ D'.inventoryMovements)
    (hevents : D'.domainEvents = D.domainEvents) : LoggedAt D' told := by
  refine ⟨fun item hitem => ?_, fun e he i c hc => ?_, fun e he k hk => ?_⟩
  · rw [hitems] at hitem
    rw [Db.changes_congr hevents]
    exact h.feed item hitem
  · rw [hevents] at he
    rw [hitems]
    exact h.about e he i c hc
  · rw [hevents] at he
    obtain ⟨m, hm, hid⟩ := h.named e he k hk
    exact ⟨m, hmovements m hm, hid⟩

/-- A write to a table of neither items nor events leaves the warnings where they are. -/
theorem WarnedAt.same (h : WarnedAt D warned) (hitems : D'.inventoryItems = D.inventoryItems)
    (hevents : D'.domainEvents = D.domainEvents) : WarnedAt D' warned := by
  refine ⟨fun item hitem => ?_, fun e he i w hw => ?_⟩
  · rw [hitems] at hitem
    rw [Db.changes_congr hevents, Db.warnings_congr hevents]
    exact h.feed item hitem
  · rw [hevents] at he
    rw [hitems]
    exact h.about e he i w hw

/-! ### Items -/

section Items

/-- Writing an item does not write the outbox. -/
theorem domainEvents_of_item {w : TableWrite InventoryItem} :
    Db.domainEvents (Database.apply ⟨.inventoryItems, w⟩ D) = D.domainEvents := by
  refine Database.apply_table_of_ne _ D ?_
  show TableName.domainEvents ≠ .inventoryItems
  decide

/-- A new item has no feed yet: all events are about items on record, and its id is not on record.
    -/
theorem changes_of_conflicts {item : InventoryItem} (h : LoggedAt D told)
    (hconf : D.inventoryItems.conflicts item = false) : D.changes item.id = [] := by
  refine List.filterMap_eq_nil_iff.mpr fun e he => ?_
  cases hc : e.changeOf item.id with
  | none => rfl
  | some c =>
    obtain ⟨stored, hstored, hid⟩ := h.about e he _ c hc
    exact absurd hid ((Table.conflicts_eq_false.mp hconf) stored hstored).1

/-- A new item has not been warned about, for the same reason. -/
theorem warnings_of_conflicts {item : InventoryItem} (h : WarnedAt D warned)
    (hconf : D.inventoryItems.conflicts item = false) : D.warnings item.id = [] := by
  refine List.filterMap_eq_nil_iff.mpr fun e he => ?_
  cases hw : e.warningOf item.id with
  | none => rfl
  | some w =>
    obtain ⟨stored, hstored, hid⟩ := h.about e he _ w hw
    exact absurd hid ((Table.conflicts_eq_false.mp hconf) stored hstored).1

/-- A new item needs no announcement: with an empty feed a replay stays at `newItem`, which is its
    mark. -/
theorem LoggedAt.insert_item (h : LoggedAt D InventoryItem.mark) {item : InventoryItem}
    (hitem : item.mark = newItem) (hconf : D.inventoryItems.conflicts item = false) :
    LoggedAt (Database.apply ⟨.inventoryItems, .insert item⟩ D) InventoryItem.mark := by
  have htable : Db.inventoryItems (Database.apply ⟨.inventoryItems, .insert item⟩ D) =
      D.inventoryItems.insert item := Database.apply_table_self ..
  have hevents := domainEvents_of_item (D := D) (w := .insert item)
  refine ⟨fun i hi => ?_, fun e he i c hc => ?_, fun e he k hk => ?_⟩
  · rw [htable, Table.mem_insert hconf] at hi
    rw [Db.changes_congr hevents]
    rcases hi with hi | rfl
    · exact h.feed i hi
    · rw [changes_of_conflicts h hconf, hitem]
      rfl
  · rw [hevents] at he
    obtain ⟨stored, hstored, hid⟩ := h.about e he i c hc
    refine ⟨stored, ?_, hid⟩
    rw [htable, Table.mem_insert hconf]
    exact Or.inl hstored
  · rw [hevents] at he
    exact h.named e he k hk

/-- A new item needs no warning, since nothing has been announced that could call for one. -/
theorem WarnedAt.insert_item (h : WarnedAt D InventoryItem.mark)
    (hlogged : LoggedAt D InventoryItem.mark) {item : InventoryItem}
    (hitem : item.mark = newItem) (hconf : D.inventoryItems.conflicts item = false) :
    WarnedAt (Database.apply ⟨.inventoryItems, .insert item⟩ D) InventoryItem.mark := by
  have htable : Db.inventoryItems (Database.apply ⟨.inventoryItems, .insert item⟩ D) =
      D.inventoryItems.insert item := Database.apply_table_self ..
  have hevents := domainEvents_of_item (D := D) (w := .insert item)
  refine ⟨fun i hi => ?_, fun e he i w hw => ?_⟩
  · rw [htable, Table.mem_insert hconf] at hi
    rw [Db.changes_congr hevents, Db.warnings_congr hevents]
    rcases hi with hi | rfl
    · exact h.feed i hi
    · refine ⟨[], [], changes_of_conflicts hlogged hconf, ?_, warnings_of_conflicts h hconf⟩
      rw [hitem]
      rfl
  · rw [hevents] at he
    obtain ⟨stored, hstored, hid⟩ := h.about e he i w hw
    refine ⟨stored, ?_, hid⟩
    rw [htable, Table.mem_insert hconf]
    exact Or.inl hstored

variable {old new : InventoryItem} (hget : D.inventoryItems.get new.id = some old)
  (hs : D.inventoryItems.succeeds old new = true) (hc : D.inventoryItems.clashes old new = false)

include hs hc

/-- An item that was written is in its table, and so are the others. -/
theorem mem_items_update {item : InventoryItem} :
    item ∈ Db.inventoryItems (Database.apply ⟨.inventoryItems, .update old new⟩ D) ↔
      item = new ∨ (item ∈ D.inventoryItems ∧ item.id ≠ new.id) := by
  have htable : Db.inventoryItems (Database.apply ⟨.inventoryItems, .update old new⟩ D) =
      D.inventoryItems.update old new := Database.apply_table_self ..
  rw [htable, Table.mem_update hs hc]
  rfl

include hget

/-- An item that was written is behind: its feed is still where the item was before. -/
theorem LoggedAt.update_item (h : LoggedAt D InventoryItem.mark) :
    LoggedAt (Database.apply ⟨.inventoryItems, .update old new⟩ D) (behind new.id old.mark) := by
  have hevents := domainEvents_of_item (D := D) (w := .update old new)
  have hkey : old.id = new.id := Table.key_of_get hget
  refine ⟨fun item hitem => ?_, fun e he i c hc' => ?_, fun e he k hk => ?_⟩
  · rw [Db.changes_congr hevents]
    rcases (mem_items_update hs hc).mp hitem with rfl | ⟨hitem, hne⟩
    · rw [behind, if_pos rfl, ← hkey]
      exact h.feed old (Table.mem_of_get hget)
    · rw [behind, if_neg hne]
      exact h.feed item hitem
  · rw [hevents] at he
    obtain ⟨stored, hstored, rfl⟩ := h.about e he i c hc'
    by_cases hid : stored.id = new.id
    · exact ⟨new, (mem_items_update hs hc).mpr (Or.inl rfl), hid.symm⟩
    · exact ⟨stored, (mem_items_update hs hc).mpr (Or.inr ⟨hstored, hid⟩), rfl⟩
  · rw [hevents] at he
    exact h.named e he k hk

/-- The warnings of a written item are behind by the same change.  They depend on the threshold,
    too, and that stays. -/
theorem WarnedAt.update_item (h : WarnedAt D InventoryItem.mark)
    (hthreshold : new.lowStockThreshold = old.lowStockThreshold) :
    WarnedAt (Database.apply ⟨.inventoryItems, .update old new⟩ D) (behind new.id old.mark) := by
  have hevents := domainEvents_of_item (D := D) (w := .update old new)
  have hkey : old.id = new.id := Table.key_of_get hget
  refine ⟨fun item hitem => ?_, fun e he i w hw => ?_⟩
  · rw [Db.changes_congr hevents, Db.warnings_congr hevents]
    rcases (mem_items_update hs hc).mp hitem with rfl | ⟨hitem, hne⟩
    · rw [behind, if_pos rfl, ← hkey, hthreshold]
      exact h.feed old (Table.mem_of_get hget)
    · rw [behind, if_neg hne]
      exact h.feed item hitem
  · rw [hevents] at he
    obtain ⟨stored, hstored, rfl⟩ := h.about e he i w hw
    by_cases hid : stored.id = new.id
    · exact ⟨new, (mem_items_update hs hc).mpr (Or.inl rfl), hid.symm⟩
    · exact ⟨stored, (mem_items_update hs hc).mpr (Or.inr ⟨hstored, hid⟩), rfl⟩

end Items

/-! ### Events -/

section Events

variable {e : DomainEvent}

/-- An event of another type announces no change of any item. -/
theorem DomainEvent.changeOf_eq_none (h : e.payload.type ≠ .inventoryChanged) (i : Uuid) :
    e.changeOf i = none := by
  unfold DomainEvent.changeOf
  split
  · rename_i heq
    rw [heq] at h
    exact absurd rfl h
  · rfl

/-- An event of another type gives no warning. -/
theorem DomainEvent.warningOf_eq_none (h : e.payload.type ≠ .lowStock) (i : Uuid) :
    e.warningOf i = none := by
  unfold DomainEvent.warningOf
  split
  · rename_i heq
    rw [heq] at h
    exact absurd rfl h
  · rfl

variable (hconf : D.domainEvents.conflicts e = false)

include hconf

/-- A new event comes last in the outbox, and what it announces last in the feed of its item. -/
theorem changes_insert (i : Uuid) :
    Db.changes (Database.apply ⟨.domainEvents, .insert e⟩ D) i =
      D.changes i ++ (e.changeOf i).toList := by
  have htable : Db.domainEvents (Database.apply ⟨.domainEvents, .insert e⟩ D) =
      D.domainEvents.insert e := Database.apply_table_self ..
  unfold Db.changes
  rw [htable, Table.rows_insert hconf, List.filterMap_append]
  cases he : e.changeOf i <;> simp [he]

/-- A new event comes last, so the warning it gives is the last about its item. -/
theorem warnings_insert (i : Uuid) :
    Db.warnings (Database.apply ⟨.domainEvents, .insert e⟩ D) i =
      D.warnings i ++ (e.warningOf i).toList := by
  have htable : Db.domainEvents (Database.apply ⟨.domainEvents, .insert e⟩ D) =
      D.domainEvents.insert e := Database.apply_table_self ..
  unfold Db.warnings
  rw [htable, Table.rows_insert hconf, List.filterMap_append]
  cases he : e.warningOf i <;> simp [he]

/-- The outbox then holds the old events and the new one. -/
theorem mem_events_insert {e' : DomainEvent} :
    e' ∈ Db.domainEvents (Database.apply ⟨.domainEvents, .insert e⟩ D) ↔
      e' ∈ D.domainEvents ∨ e' = e := by
  have htable : Db.domainEvents (Database.apply ⟨.domainEvents, .insert e⟩ D) =
      D.domainEvents.insert e := Database.apply_table_self ..
  rw [htable, Table.mem_insert hconf]

/-- **The announcement of a change** brings the item's feed up to date.  Its version is the next one
    and its delta leads from the old stock on hand to the new, so the replay takes it; the feeds of
    the other items do not get longer. -/
theorem LoggedAt.announce {item : InventoryItem} {m : Mark Int} {delta : Int}
    (h : LoggedAt D (behind item.id m)) (hitem : item ∈ D.inventoryItems)
    (hpayload : e.payload =
      .inventoryChanged item.id delta item.quantityOnHand item.reservedQuantity)
    (haggregate : e.aggregateVersion = item.version) (hversion : item.version = m.version + 1)
    (honHand : item.quantityOnHand = m.level + delta)
    (hnamed : ∀ k, e.Names k → ∃ mv ∈ D.inventoryMovements, mv.id = k) :
    LoggedAt (Database.apply ⟨.domainEvents, .insert e⟩ D) InventoryItem.mark := by
  have hchange : ∀ i, e.changeOf i =
      if item.id = i then some ⟨item.version, delta, item.quantityOnHand, item.reservedQuantity⟩
      else none := by
    intro i
    unfold DomainEvent.changeOf
    rw [hpayload, ← haggregate]
  refine ⟨fun i hi => ?_, fun e' he' i c hc => ?_, fun e' he' k hk => ?_⟩
  · have hi : i ∈ D.inventoryItems := hi
    rw [changes_insert hconf, hchange]
    have hfeed := h.feed i hi
    unfold behind at hfeed
    split at hfeed
    · -- the item itself
      rename_i hid
      have heq : i = item := D.inventoryItems.eq_of_key_eq hi hitem hid
      rw [if_pos hid.symm]
      subst heq
      exact replay_snoc hfeed hversion honHand
    · rename_i hid
      rw [if_neg (Ne.symm hid), Option.toList_none, List.append_nil]
      exact hfeed
  · rcases (mem_events_insert hconf).mp he' with he' | rfl
    · exact h.about e' he' i c hc
    · rw [hchange] at hc
      split at hc
      · rename_i hid
        exact ⟨item, hitem, hid⟩
      · cases hc
  · rcases (mem_events_insert hconf).mp he' with he' | rfl
    · exact h.named e' he' k hk
    · exact hnamed k hk

/-- An event that tells of no change leaves the feeds where they are. -/
theorem LoggedAt.insert_event (h : LoggedAt D told)
    (htype : e.payload.type ≠ .inventoryChanged)
    (hnamed : ∀ k, e.Names k → ∃ mv ∈ D.inventoryMovements, mv.id = k) :
    LoggedAt (Database.apply ⟨.domainEvents, .insert e⟩ D) told := by
  refine ⟨fun i hi => ?_, fun e' he' i c hc => ?_, fun e' he' k hk => ?_⟩
  · rw [changes_insert hconf, DomainEvent.changeOf_eq_none htype, Option.toList_none,
      List.append_nil]
    exact h.feed i hi
  · rcases (mem_events_insert hconf).mp he' with he' | rfl
    · exact h.about e' he' i c hc
    · rw [DomainEvent.changeOf_eq_none htype] at hc
      cases hc
  · rcases (mem_events_insert hconf).mp he' with he' | rfl
    · exact h.named e' he' k hk
    · exact hnamed k hk

/-- An event that is no warning leaves the warnings where they are. -/
theorem WarnedAt.insert_event (h : WarnedAt D warned) (htype : e.payload.type ≠ .lowStock) :
    WarnedAt (Database.apply ⟨.domainEvents, .insert e⟩ D) warned := by
  refine ⟨fun i hi => ?_, fun e' he' i w hw => ?_⟩
  · obtain ⟨log, rest, hchanges, hreplay, hwarnings⟩ := h.feed i hi
    refine ⟨log, rest ++ (e.changeOf i.id).toList, ?_, hreplay, ?_⟩
    · rw [changes_insert hconf, hchanges, List.append_assoc]
    · rw [warnings_insert hconf, DomainEvent.warningOf_eq_none htype, Option.toList_none,
        List.append_nil]
      exact hwarnings
  · rcases (mem_events_insert hconf).mp he' with he' | rfl
    · exact h.about e' he' i w hw
    · rw [DomainEvent.warningOf_eq_none htype] at hw
      cases hw

end Events

/-- One more change calls for a warning if it takes the item from above its threshold to it. -/
theorem dueWarnings_snoc {threshold : Int} {log : List (Entry Int)} {c : Entry Int} {m : Mark Int}
    (h : replay newItem log = some m) :
    dueWarnings threshold (log ++ [c]) = dueWarnings threshold log ++
      if isLow threshold (.after c) && !isLow threshold m then [warningAt threshold c] else [] := by
  unfold dueWarnings
  rw [crossings_snoc h, List.map_append]
  split <;> rfl

/-- **A warning, or none, as the change calls for**, brings the warnings up to date.  `m` is where
    the item was before the change: the warning is due if the item has become low and was not. -/
theorem WarnedAt.settle {item : InventoryItem} {m : Mark Int}
    (h : WarnedAt D (behind item.id m)) (hlogged : LoggedAt D InventoryItem.mark)
    (hitem : item ∈ D.inventoryItems) (hversion : item.version = m.version + 1)
    (hsame : D'.inventoryItems = D.inventoryItems)
    (hchanges : ∀ i, D'.changes i = D.changes i)
    (hwarnings : ∀ i, D'.warnings i = D.warnings i ++
      if item.id = i ∧ isLow item.lowStockThreshold item.mark = true ∧
          isLow item.lowStockThreshold m = false
      then [⟨item.version, item.availableQuantity, item.lowStockThreshold⟩] else [])
    (habout : ∀ e ∈ D'.domainEvents, ∀ i w, e.warningOf i = some w →
      ∃ item ∈ D'.inventoryItems, item.id = i) :
    WarnedAt D' InventoryItem.mark := by
  refine ⟨fun i hi => ?_, habout⟩
  rw [hsame] at hi
  have hfeed := hlogged.feed i hi
  obtain ⟨log, rest, hlog, hreplay, hdue⟩ := h.feed i hi
  rw [hchanges, hwarnings, hdue]
  by_cases hid : i.id = item.id
  · have heq : i = item := D.inventoryItems.eq_of_key_eq hi hitem hid
    subst heq
    rw [behind, if_pos rfl] at hreplay
    rw [hlog] at hfeed
    -- one change was announced since the last warning was due
    obtain ⟨c, rfl, hafter⟩ := exists_of_replay_succ hreplay hfeed hversion
    refine ⟨log ++ [c], [], by rw [hlog, List.append_nil], hfeed, ?_⟩
    rw [dueWarnings_snoc hreplay, hafter]
    have hc : warningAt i.lowStockThreshold c =
        ⟨i.version, i.availableQuantity, i.lowStockThreshold⟩ := by
      have hmark : Mark.after c = i.mark := hafter
      simp only [Mark.after, InventoryItem.mark, Mark.mk.injEq] at hmark
      obtain ⟨hv, hl, hn⟩ := hmark
      unfold warningAt InventoryItem.availableQuantity
      rw [hv, hl, hn]
    rw [hc]
    congr 1
    simp
  · rw [behind, if_neg hid] at hreplay
    refine ⟨log, rest, hlog, hreplay, ?_⟩
    rw [if_neg fun hall => hid hall.1.symm, List.append_nil]

end Writes

end CommerceOperations
