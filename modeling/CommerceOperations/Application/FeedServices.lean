/-
  Every operation on the stock keeps the feeds.

  One lemma for each service function.  In each of them the order of the statements is the same:
  the item is written, its movement posted, and the events follow; `Written` and `Posted` carry
  what is known from one statement to the next, and everything else the functions write is plain.

  The statements are about a transaction among others, seen from the state `D` it is committed on:
  `tr.writes` is what it has written so far, and each of its statements may have seen an earlier
  state of `past`, as far as the locks it holds allow.  `maintains` asks for the invariant between
  the parts of a sequence only, so between an UPDATE and the last event of the change the proofs
  carry `Written` in its place.
-/
import CommerceOperations.Application.StockFeeds

namespace CommerceOperations

open Relational Relational.Feed Prog Store

section Services

variable {past : Db → Prop} {D : Db} (hpast : MovementsKnown past D)

/-- What keeps the feeds does so for a caller that drops the result. -/
theorem maintains_ignore {α : Type} {p : Tx α} (hp : p.maintains past D (Consistent past D)) :
    (do let _ ← p : Tx Unit).maintains past D (Consistent past D) :=
  maintains_bind hp fun _ => maintains_done ()

include hpast

/-! ## Orders -/

namespace OrderService

omit hpast in
/-- The events of an order line bring the feed of its item up to date again. -/
theorem inventoryEvents_consistent {tr tr' : Trail (Write TableName.Entity) DbLock}
    {item : InventoryItem} {mv : InventoryMovement} {m : Mark Int} {delta previousAvailable : Int}
    {correlationId : Uuid} {u : Unit}
    (h : Written past D item m delta (behind item.id m) tr.writes)
    (hp : Posted past D mv.id [changedKey mv.id, lowStockKey mv.id] tr.writes)
    (hevents : (inventoryEvents item mv correlationId previousAvailable delta).sees past D tr u tr')
    (hprevious : Serially past D → previousAvailable = m.level - m.note) :
    Consistent past D tr'.writes := by
  obtain ⟨e, tr₁, hemit, hwarn⟩ := sees_bind.mp hevents
  obtain ⟨h₁, hp₁⟩ := h.announced hp rfl hemit
  exact h₁.warns hp₁ rfl hprevious hwarn

/-- **A reservation keeps the feeds.**  By induction on the candidates. -/
theorem reserveFrom_consistent {sku externalLineId : String} {quantity : Int} {order : Order}
    {correlationId : Uuid} : ∀ ids,
      (reserveFrom sku quantity order externalLineId correlationId ids).maintains past D
        (Consistent past D)
  | [] => maintains_raise _
  | inventoryId :: rest => by
    intro tr item tr' hJ h
    obtain ⟨before, tr₁, hbefore, h₁⟩ := sees_bind.mp h
    obtain ⟨rfl, D₁, hD₁, -, -, hread⟩ := sees_query hbefore
    obtain ⟨reserved, tr₂, hupdate, h₂⟩ := sees_bind.mp h₁
    rcases sees_updateWhere hupdate (fun r => ⟨rfl, rfl⟩) with
      ⟨old, new, rfl, hget, hcond, hnew, hs, hc, hwrites, hlock⟩ | ⟨rfl, hwrites⟩
    · dsimp only at h₂
      obtain ⟨found, tr₃, hfound, h₃⟩ := sees_bind.mp h₂
      obtain ⟨rfl, D₂, -, -, hagree, hread'⟩ := sees_query hfound
      obtain ⟨current, tr₄, hthrow, h₄⟩ := sees_bind.mp h₃
      obtain ⟨rfl, rfl⟩ := Tx.sees_orThrow hthrow
      obtain ⟨id, tr₅, ⟨env, hid, rfl⟩, h₅⟩ := sees_bind.mp h₄
      obtain ⟨mv, tr₆, hadd, h₆⟩ := sees_bind.mp h₅
      obtain ⟨_, tr₇, hevents, h₇⟩ := sees_bind.mp h₆
      obtain ⟨-, rfl⟩ := h₇
      have hold : old.id = inventoryId := Table.key_of_get hget
      have hid' : new.id = inventoryId := by
        rw [hnew]
        exact hold
      rw [← hid'] at hget hlock hread'
      have hwritten : Written past D new old.mark 0 (behind new.id old.mark) tr₄.writes := by
        rw [hwrites]
        refine hJ.written hget hs hc ?_ ?_ ?_ <;> rw [hnew]
        · rfl
        · rfl
        · exact (Int.add_zero _).symm
      obtain rfl := hwritten.eq_of_reread hlock hagree hread'
      obtain ⟨rfl, hconf, hwrites'⟩ := sees_insert hadd
      obtain ⟨hposted, hmovement⟩ := hwritten.posted hpast hconf
      refine inventoryEvents_consistent (by rw [hwrites']; exact hposted)
        (by rw [hwrites']; exact hmovement) hevents fun hserial => ?_
      -- the balance before was read on the state of the commit
      rw [hserial.only D₁ hD₁, ← hid'] at hread
      have hget' : (Db.inventoryItems (tr₁.on D)).get current.id = some old := hget
      rw [← hread, hget']
      rfl
    · refine reserveFrom_consistent rest tr₂ item tr' ?_ h₂
      rw [hwrites]
      exact hJ

/-- The lines of a new order keep the feeds, by induction on them: each is a reservation and a row
    of its own. -/
theorem addLines_consistent {order : Order} {correlationId : Uuid} : ∀ lines,
    (addLines order correlationId lines).maintains past D (Consistent past D)
  | [] => maintains_done ()
  | line :: lines => by
    refine maintains_bind ?_ fun inventory => ?_
    · exact maintains_bind (maintains_query _) fun _ => reserveFrom_consistent hpast _
    refine maintains_bind (maintains_answer _) fun id => ?_
    refine maintains_bind (maintains_of_announces ?_ (List.Subset.refl _)) fun _ =>
      addLines_consistent lines
    exact Tx.announces_add _ (by decide) (by decide)

/-- One line settled: the stock on hand moves by what the events say. -/
theorem settleLine_consistent {order : Order} {line : OrderItem} {t : InventoryMovementType}
    {cond : InventoryItem → Bool} {set : InventoryItem → InventoryItem} {missing : String}
    {eventDelta : Int}
    (hset : ∀ i, (set i).id = i.id ∧ Row.parents (set i) = Row.parents i ∧
      (set i).lowStockThreshold = i.lowStockThreshold ∧
      (set i).quantityOnHand = i.quantityOnHand + eventDelta) :
    (settleLine order line t cond set missing eventDelta).maintains past D
      (Consistent past D) := by
  intro tr u tr' hJ h
  obtain ⟨found, tr₁, hfound, h₁⟩ := sees_bind.mp h
  obtain ⟨rfl, D₁, hD₁, -, -, hread⟩ := sees_query hfound
  obtain ⟨item, tr₂, hthrow, h₂⟩ := sees_bind.mp h₁
  obtain ⟨rfl, rfl⟩ := Tx.sees_orThrow hthrow
  dsimp only at h₂
  obtain ⟨result, tr₃, hupdate, h₃⟩ := sees_bind.mp h₂
  obtain ⟨row, tr₄, hresult, h₄⟩ := sees_bind.mp h₃
  obtain ⟨rfl, rfl⟩ := Tx.sees_orThrow hresult
  rcases sees_updateWhere hupdate (fun r => ⟨(hset r).1, (hset r).2.1.symm⟩) with
    ⟨old, new, hnew', hget, hcond, hnew, hs, hc, hwrites, hlock⟩ | ⟨hnone, -⟩
  · obtain rfl := Option.some.inj hnew'
    obtain ⟨id, tr₅, ⟨env, hid, rfl⟩, h₅⟩ := sees_bind.mp h₄
    obtain ⟨mv, tr₆, hadd, h₆⟩ := sees_bind.mp h₅
    obtain ⟨found', tr₇, hfound', h₇⟩ := sees_bind.mp h₆
    obtain ⟨rfl, D₂, -, -, hagree, hread'⟩ := sees_query hfound'
    obtain ⟨current, tr₈, hthrow', hevents⟩ := sees_bind.mp h₇
    obtain ⟨rfl, rfl⟩ := Tx.sees_orThrow hthrow'
    obtain ⟨hid', -, hthreshold, honHand⟩ := hset old
    have hkey : row.id = item.id := by
      have hold : old.id = item.id := Table.key_of_get hget
      rw [hnew]
      exact hid'.trans hold
    have hheld := held_subset_of_sees hadd hlock
    rw [← hkey] at hget hheld hread'
    have hwritten : Written past D row old.mark eventDelta (behind row.id old.mark)
        tr₄.writes := by
      rw [hwrites]
      refine hJ.written hget hs hc ?_ ?_ ?_ <;> rw [hnew]
      · exact hthreshold
      · rfl
      · exact honHand
    obtain ⟨rfl, hconf, hwrites'⟩ := sees_insert hadd
    obtain ⟨hposted, hmovement⟩ := hwritten.posted hpast hconf
    rw [← hwrites'] at hposted hmovement
    obtain rfl := hposted.eq_of_reread hheld hagree hread'
    refine inventoryEvents_consistent hposted hmovement hevents fun hserial => ?_
    -- the balance before was read on the state of the commit
    have hsame : item = old := by
      have hitem : (Db.inventoryItems (tr₂.on D)).get line.inventoryItemId = some item := by
        rw [← hserial.only D₁ hD₁]
        exact hread
      rw [hkey] at hget
      have hplace : item.id = line.inventoryItemId := Table.key_of_get hitem
      rw [hplace] at hget
      exact Option.some.inj (hitem.symm.trans hget)
    rw [hsame]
    rfl
  · cases hnone

omit hpast in
/-- A loop over lines keeps what each of its rounds keeps, by induction on the lines. -/
theorem forLines_consistent {settle : OrderItem → Tx Unit}
    (h : ∀ line, (settle line).maintains past D (Consistent past D)) :
    ∀ lines, (forLines settle lines).maintains past D (Consistent past D)
  | [] => maintains_done ()
  | line :: lines => maintains_bind (h line) fun _ => forLines_consistent h lines

/-- Releasing an order moves reserved units, by nothing on hand. -/
theorem releaseOrder_consistent {order : Order} :
    (releaseOrder order).maintains past D (Consistent past D) := by
  refine maintains_bind (maintains_query _) fun lines => forLines_consistent (fun line => ?_) lines
  refine settleLine_consistent hpast fun i => ⟨rfl, rfl, rfl, ?_⟩
  exact (Int.add_zero _).symm

/-- Shipping one moves the units on hand as well. -/
theorem shipOrder_consistent {order : Order} :
    (shipOrder order).maintains past D (Consistent past D) := by
  refine maintains_bind (maintains_query _) fun lines => forLines_consistent (fun line => ?_) lines
  refine settleLine_consistent hpast fun i => ⟨rfl, rfl, rfl, ?_⟩
  exact Int.sub_eq_add_neg

omit hpast in
/-- The second half of a status change writes the order, its run and plain events, so the feeds
    stay. -/
theorem setStatus_consistent {order : Order} {target : OrderStatus} {actor reason : String} :
    (setStatus order target actor reason).maintains past D (Consistent past D) :=
  maintains_of_announces (setStatus_announces fun _ h => h) (by decide)

/-- **A change of status keeps the feeds.** -/
theorem updateStatus_consistent {loaded : Option Order} {orderId : Uuid} {target : OrderStatus}
    {actor reason : String} :
    (updateStatus loaded orderId target actor reason).maintains past D (Consistent past D) := by
  have hplain : ∀ {α : Type} {p : Tx α}, p.announces [] DomainEvent.Plain →
      p.maintains past D (Consistent past D) := fun hp =>
    maintains_of_announces hp (List.nil_subset _)
  refine maintains_bind (hplain ?_) fun order => ?_
  · refine writes_bind (writes_selectForUpdate _ _) fun _ => ?_
    exact writes_bind Tx.announces_orThrow fun _ => trivial
  refine maintains_bind (hplain ?_) fun _ => ?_
  · unfold transitionOrder
    split
    · exact trivial
    · split
      · exact fun h => h
      · exact trivial
  split
  · exact maintains_done _
  · extract_lets finish
    have hfinish : ∀ u, (finish u).maintains past D (Consistent past D) := fun _ =>
      setStatus_consistent
    split
    · exact maintains_bind (releaseOrder_consistent hpast) hfinish
    · split
      · exact maintains_bind (shipOrder_consistent hpast) hfinish
      · exact hfinish ()

/-- **A new order keeps the feeds.** -/
theorem ingestNew_consistent [Digests] {command : NormalizedMarketplaceOrder} :
    (ingestNew command).maintains past D (Consistent past D) := by
  have hplain : ∀ {α : Type} {p : Tx α}, p.announces otherTables DomainEvent.Plain →
      p.maintains past D (Consistent past D) := fun hp =>
    maintains_of_announces hp (List.Subset.refl _)
  refine maintains_bind (hplain ?_) fun _ => ?_
  · refine writes_bind Tx.announces_require fun _ => ?_
    exact writes_bind Tx.announces_require fun _ => Tx.announces_require
  refine maintains_bind (maintains_answer _) fun workflowId => ?_
  refine maintains_bind (maintains_answer _) fun createdAt => ?_
  refine maintains_bind (hplain (Tx.announces_add _ (by decide) (by decide))) fun workflow => ?_
  refine maintains_bind (maintains_answer _) fun orderId => ?_
  refine maintains_bind (maintains_answer _) fun now => ?_
  refine maintains_bind (hplain (Tx.announces_add _ (by decide) (by decide))) fun order => ?_
  refine maintains_bind (addLines_consistent hpast _) fun _ => ?_
  refine maintains_bind (hplain (DatabaseEventStore.emit_plain (fun _ h => h) ?_ ?_)) fun _ => ?_
  · exact ⟨fun h => (by cases h), fun h => (by cases h)⟩
  · simp [toString]
  exact maintains_bind (hplain (audit_announces (by decide) (by decide))) fun _ =>
    maintains_done _

/-- The call as a whole, which may find the order on record and do nothing. -/
theorem ingest_consistent [Digests] {command : NormalizedMarketplaceOrder} :
    (ingest command).maintains past D (Consistent past D) := by
  have hrequire : ∀ {cond : Prop} [Decidable cond] {type : ExceptionType} {message : String},
      (Tx.require cond type message).maintains past D (Consistent past D) := fun {_ _ _ _} =>
    maintains_of_announces Tx.announces_require (List.nil_subset _)
  refine maintains_bind (maintains_query _) fun existing => ?_
  cases existing with
  | some existing => exact maintains_bind hrequire fun _ => maintains_done _
  | none =>
    refine maintains_bind (maintains_query _) fun eventOrder => ?_
    exact maintains_bind hrequire fun _ => ingestNew_consistent hpast

end OrderService

/-! ## Goods and adjustments -/

namespace InventoryService

omit hpast in
/-- The audit entry and the events of a change bring the feed of its item up to date again. -/
theorem recordChange_consistent {tr tr' : Trail (Write TableName.Entity) DbLock}
    {item : InventoryItem} {mv : InventoryMovement} {m : Mark Int} {previousAvailable : Int}
    {actor : String} {stockReceived : Bool} {workflow : Option WorkflowRun} {u : Unit}
    (h : Written past D item m mv.quantityDelta (behind item.id m) tr.writes)
    (hp : Posted past D mv.id [changedKey mv.id, lowStockKey mv.id] tr.writes)
    (hrecord : (recordChange item mv actor previousAvailable stockReceived workflow).sees past D
      tr u tr')
    (hprevious : Serially past D → previousAvailable = m.level - m.note) :
    Consistent past D tr'.writes := by
  obtain ⟨fresh, tr₁, ⟨env, hfresh, rfl⟩, h₁⟩ := sees_bind.mp hrecord
  dsimp only at h₁
  obtain ⟨_, tr₂, haudit, h₂⟩ := sees_bind.mp h₁
  have hplain : ∀ {type actor action resource id before after reason correlation},
      (addAudit type actor action resource id before after reason correlation).announces
        [.auditEvents] DomainEvent.Plain := addAudit_announces (by decide) (by decide)
  have hw₂ := h.of_announces hplain (by decide) haudit
  have hp₂ := hp.of_announces hplain (by decide) haudit
  obtain ⟨e, tr₃, hemit, h₃⟩ := sees_bind.mp h₂
  obtain ⟨hw₃, hp₃⟩ := hw₂.announced hp₂ rfl hemit
  split at h₃
  · obtain ⟨purchaseOrderId, tr₄, hthrow, h₄⟩ := sees_bind.mp h₃
    obtain ⟨-, rfl⟩ := Tx.sees_orThrow hthrow
    obtain ⟨e', tr₅, hreceived, h₅⟩ := sees_bind.mp h₄
    -- the event about the receipt is plain
    have hstock : ∀ {itemId orderId quantity context},
        (DatabaseEventStore.emit (.stockReceived itemId orderId quantity) context
          s!"stock-received:{mv.id}").announces [] DomainEvent.Plain := fun {_ _ _ _} =>
      DatabaseEventStore.emit_plain (fun _ h => h)
        ⟨fun h => (by cases h), fun h => (by cases h)⟩ (by simp [toString])
    have hw₅ := hw₃.of_announces hstock (List.nil_subset _) hreceived
    have hp₅ := hp₃.of_announces hstock (List.nil_subset _) hreceived
    exact hw₅.warns hp₅ rfl hprevious h₅
  · exact hw₃.warns hp₃ rfl hprevious h₃

omit hpast in
/-- Computing a balance writes nothing, and refuses a change by nothing. -/
theorem sees_applyQuantityChange {tr tr' : Trail (Write TableName.Entity) DbLock}
    {onHand reserved delta : Int} {balance : InventoryBalance}
    (h : (applyQuantityChange onHand reserved delta).sees past D tr balance tr') :
    delta ≠ 0 ∧ balance = ⟨onHand + delta, reserved⟩ ∧ tr' = tr := by
  unfold applyQuantityChange at h
  split at h
  · exact h.elim
  · rename_i hne
    split at h
    · exact h.elim
    · split at h
      · exact h.elim
      · exact ⟨hne, h.1.symm, h.2.symm⟩

omit hpast in
/-- Computing a cost basis writes nothing. -/
theorem sees_weightedCostBasis {tr tr' : Trail (Write TableName.Entity) DbLock}
    {quantity added : Int} {basis unitCost cost : Rat}
    (h : (weightedCostBasis quantity basis added unitCost).sees past D tr cost tr') :
    tr' = tr := by
  unfold weightedCostBasis at h
  split at h
  · exact h.elim
  · split at h
    · exact h.elim
    · exact h.2.symm

omit hpast in
/-- An item that is loaded as it is in the committed state, and written with a new stock on hand, is
    one change ahead of its feed. -/
theorem flush_written {tr tr' : Trail (Write TableName.Entity) DbLock}
    {item changed : InventoryItem} {delta : Int} {costBasis : Rat}
    (hJ : Consistent past D tr.writes)
    (hget : (Db.inventoryItems (tr.on D)).get item.id = some item) (hdelta : delta ≠ 0)
    (h : (flush .inventoryItems item
      { item with quantityOnHand := item.quantityOnHand + delta, costBasis }).sees past D tr
        changed tr') :
    Written past D changed item.mark delta (behind changed.id item.mark) tr'.writes ∧
      changed.id = item.id := by
  rcases sees_flush h rfl (fun r => rfl) with
    ⟨hsame, -, -⟩ | ⟨-, old, hold, -, hnew, hs, hc, hwrites⟩
  · -- the stock on hand differs
    have honHand : item.quantityOnHand + delta = item.quantityOnHand :=
      congrArg InventoryItem.quantityOnHand hsame
    omega
  · have heq : old = item := Option.some.inj (hold.symm.trans hget)
    subst heq
    have hid : changed.id = old.id := by
      rw [hnew]
      rfl
    refine ⟨?_, hid⟩
    rw [hwrites]
    refine hJ.written ?_ hs hc ?_ ?_ ?_
    · rw [hid]
      exact hget
    · rw [hnew]
      rfl
    · rw [hnew]
      rfl
    · rw [hnew]
      rfl

omit hpast in
/-- A stored item that a statement locked is the one of the committed state. -/
theorem getForUpdate_sees {tr tr' : Trail (Write TableName.Entity) DbLock} {inventoryItemId : Uuid}
    {item : InventoryItem} (h : (getForUpdate inventoryItemId).sees past D tr item tr') :
    tr'.writes = tr.writes ∧ (Db.inventoryItems (tr'.on D)).get item.id = some item := by
  obtain ⟨found, tr₁, hselect, h₁⟩ := sees_bind.mp h
  obtain ⟨hwrites, hfound⟩ := sees_selectForUpdate hselect
  obtain ⟨rfl, rfl⟩ := Tx.sees_orThrow h₁
  have hon : tr'.on D = tr.on D := congrArg (fun ws => applyAll ws D) hwrites
  refine ⟨hwrites, ?_⟩
  rw [hon]
  exact (hfound item rfl).2

/-- **An adjustment keeps the feeds.** -/
theorem adjustNew_consistent {inventoryItemId : Uuid} {command : Adjustment} :
    (adjustNew inventoryItemId command).maintains past D (Consistent past D) := by
  intro tr result tr' hJ h
  obtain ⟨item, tr₁, hitem, h₁⟩ := sees_bind.mp h
  obtain ⟨hwrites, hget⟩ := getForUpdate_sees hitem
  rw [← hwrites] at hJ
  obtain ⟨balance, tr₂, hbalance, h₂⟩ := sees_bind.mp h₁
  obtain ⟨hdelta, rfl, rfl⟩ := sees_applyQuantityChange hbalance
  -- what the unit costs afterwards makes no difference
  have hrest : ∀ {costBasis : Rat} {unitCost : Option Rat}, (do
      let changed ← flush .inventoryItems item
        { item with quantityOnHand := item.quantityOnHand + command.quantityDelta, costBasis }
      let id ← Tx.uuid4
      let movement ← add .inventoryMovements
        { id
          version := 1
          inventoryItemId := item.id
          purchaseOrderId := none
          movementType := .adjustment
          quantityDelta := command.quantityDelta
          unitCost
          reason := command.reason
          sourceType := "manual_adjustment"
          sourceId := item.id.text
          idempotencyKey := command.idempotencyKey }
      recordChange changed movement command.actor item.availableQuantity false none
      pure (⟨item.id, movement, false⟩ : InventoryChangeResult) : Tx _).sees past D tr₂ result tr' →
      Consistent past D tr'.writes := by
    intro costBasis unitCost hrest
    obtain ⟨changed, tr₃, hflush, h₃⟩ := sees_bind.mp hrest
    obtain ⟨hwritten, -⟩ := flush_written hJ hget hdelta hflush
    obtain ⟨id, tr₄, ⟨env, hid, rfl⟩, h₄⟩ := sees_bind.mp h₃
    obtain ⟨mv, tr₅, hadd, h₅⟩ := sees_bind.mp h₄
    obtain ⟨_, tr₆, hrecord, h₆⟩ := sees_bind.mp h₅
    obtain ⟨-, rfl⟩ := h₆
    obtain ⟨rfl, hconf, hwrites'⟩ := sees_insert hadd
    obtain ⟨hw, hp⟩ := hwritten.posted hpast hconf
    rw [← hwrites'] at hw hp
    exact recordChange_consistent hw hp hrecord fun _ => rfl
  dsimp only at h₂
  split at h₂
  · split at h₂
    · obtain ⟨basis, tr₃, hbasis, h₃⟩ := sees_bind.mp h₂
      obtain rfl := sees_weightedCostBasis hbasis
      exact hrest h₃
    · exact hrest h₂
  · exact hrest h₂

/-- The call as a whole, which may find its key in use. -/
theorem adjust_consistent {inventoryItemId : Uuid} {command : Adjustment} :
    (adjust inventoryItemId command).maintains past D (Consistent past D) := by
  refine maintains_bind (maintains_query _) fun existing => ?_
  cases existing with
  | some existing =>
    refine maintains_bind (maintains_of_announces Tx.announces_require (List.nil_subset _)) ?_
    exact fun _ => maintains_done _
  | none => exact adjustNew_consistent hpast

omit hpast in
/-- A new item has nothing to tell. -/
theorem insertItem_consistent {ws : List (Write TableName.Entity)} {item : InventoryItem}
    (h : Consistent past D ws) (hitem : item.mark = newItem)
    (hconf : (Db.inventoryItems (applyAll ws D)).conflicts item = false) :
    Consistent past D (ws ++ [⟨.inventoryItems, .insert item⟩]) := by
  refine ⟨?_, fun hserial => ?_, fun w hw htable => ?_⟩
  · rw [applyAll_snoc]
    exact h.logged.insert_item hitem hconf
  · rw [applyAll_snoc]
    exact (h.warned hserial).insert_item h.logged hitem hconf
  · rcases List.mem_append.mp hw with hw | hw
    · obtain ⟨e, heq, hnamed⟩ := h.spoken w hw htable
      refine ⟨e, heq, fun k hk => ?_⟩
      rw [applyAll_snoc]
      exact hnamed k hk
    · obtain rfl := List.mem_singleton.mp hw
      cases htable

omit hpast in
/-- Finding or creating the item of a receipt keeps the feeds, and the item is current afterwards.
    -/
theorem receivingItem_consistent {tr tr' : Trail (Write TableName.Entity) DbLock}
    {command : Receipt} {purchaseOrder : PurchaseOrder} {procurement : ProcurementRequest}
    {item : InventoryItem} (hJ : Consistent past D tr.writes)
    (h : (receivingItem command purchaseOrder procurement).sees past D tr item tr') :
    Consistent past D tr'.writes ∧ (Db.inventoryItems (tr'.on D)).get item.id = some item := by
  obtain ⟨found, tr₁, hselect, h₁⟩ := sees_bind.mp h
  obtain ⟨hwrites, hfound⟩ := sees_selectForUpdate hselect
  rw [← hwrites] at hJ
  cases found with
  | none =>
    obtain ⟨id, tr₂, ⟨env, hid, rfl⟩, h₂⟩ := sees_bind.mp h₁
    obtain ⟨hitem, hconf, hwrites'⟩ := sees_insert h₂
    rw [← hitem] at hconf hwrites'
    have hmark : item.mark = newItem := by
      rw [hitem]
      rfl
    refine ⟨by rw [hwrites']; exact insertItem_consistent hJ hmark hconf, ?_⟩
    have htable : Db.inventoryItems (tr'.on D) = (Db.inventoryItems (tr₁.on D)).insert item := by
      show Db.inventoryItems (applyAll tr'.writes D) = _
      rw [hwrites', applyAll_snoc]
      exact Database.apply_table_self ..
    rw [htable]
    exact (Table.get_insert hconf item.id).trans (if_pos rfl)
  | some stored =>
    obtain ⟨_, tr₂, hproduct, h₂⟩ := sees_bind.mp h₁
    obtain ⟨_, tr₃, hcurrency, h₃⟩ := sees_bind.mp h₂
    obtain ⟨-, rfl⟩ := Tx.sees_require hproduct
    obtain ⟨-, rfl⟩ := Tx.sees_require hcurrency
    obtain ⟨rfl, rfl⟩ := h₃
    refine ⟨hJ, ?_⟩
    have hon : tr₃.on D = tr.on D := congrArg (fun ws => applyAll ws D) hwrites
    rw [hon]
    exact (hfound stored rfl).2

/-- **A receipt keeps the feeds.** -/
theorem receiveNew_consistent {purchaseOrderId : Uuid} {command : Receipt} :
    (receiveNew purchaseOrderId command).maintains past D (Consistent past D) := by
  intro tr result tr' hJ h
  obtain ⟨found, tr₁, hselect, h₁⟩ := sees_bind.mp h
  obtain ⟨hwrites, -⟩ := sees_selectForUpdate hselect
  rw [← hwrites] at hJ
  obtain ⟨purchaseOrder, tr₂, hthrow, h₂⟩ := sees_bind.mp h₁
  obtain ⟨-, rfl⟩ := Tx.sees_orThrow hthrow
  obtain ⟨_, tr₃, hshipped, h₃⟩ := sees_bind.mp h₂
  obtain ⟨-, rfl⟩ := Tx.sees_require hshipped
  dsimp only at h₃
  obtain ⟨_, tr₄, hpositive, h₄⟩ := sees_bind.mp h₃
  obtain ⟨-, rfl⟩ := Tx.sees_require hpositive
  obtain ⟨_, tr₅, hremaining, h₅⟩ := sees_bind.mp h₄
  obtain ⟨-, rfl⟩ := Tx.sees_require hremaining
  obtain ⟨foundRequest, tr₆, hrequest, h₆⟩ := sees_bind.mp h₅
  obtain ⟨rfl, -⟩ := sees_query hrequest
  obtain ⟨procurement, tr₇, hthrow', h₇⟩ := sees_bind.mp h₆
  obtain ⟨-, rfl⟩ := Tx.sees_orThrow hthrow'
  obtain ⟨foundQuote, tr₈, hquery, h₈⟩ := sees_bind.mp h₇
  obtain ⟨rfl, -⟩ := sees_query hquery
  obtain ⟨quote, tr₉, hquote, h₉⟩ := sees_bind.mp h₈
  obtain ⟨-, rfl⟩ := Tx.sees_orThrow hquote
  -- the item is as it is in the committed state
  obtain ⟨item, tr₁₀, hitem, h₁₀⟩ := sees_bind.mp h₉
  obtain ⟨hJ, hget⟩ := receivingItem_consistent hJ hitem
  obtain ⟨basis, tr₁₁, hbasis, h₁₁⟩ := sees_bind.mp h₁₀
  obtain rfl := sees_weightedCostBasis hbasis
  obtain ⟨balance, tr₁₂, hbalance, h₁₂⟩ := sees_bind.mp h₁₁
  obtain ⟨hdelta, rfl, rfl⟩ := sees_applyQuantityChange hbalance
  obtain ⟨changed, tr₁₃, hflush, h₁₃⟩ := sees_bind.mp h₁₂
  obtain ⟨hwritten, hid⟩ := flush_written hJ hget hdelta hflush
  obtain ⟨ordered, tr₁₄, hordered, h₁₄⟩ := sees_bind.mp h₁₃
  have hplain : ∀ {loaded new : PurchaseOrder}, (flush .purchaseOrders loaded new).announces
      [.purchaseOrders] DomainEvent.Plain := Tx.announces_flush _ _ (by decide) (by decide)
  have hw₁₄ := hwritten.of_announces hplain (by decide) hordered
  obtain ⟨movementId, tr₁₅, ⟨env, henv, rfl⟩, h₁₅⟩ := sees_bind.mp h₁₄
  obtain ⟨mv, tr₁₆, hadd, h₁₆⟩ := sees_bind.mp h₁₅
  obtain ⟨rfl, hconf, hwrites'⟩ := sees_insert hadd
  obtain ⟨hw₁₆, hp₁₆⟩ := hw₁₄.posted hpast hconf
  rw [← hwrites'] at hw₁₆ hp₁₆
  obtain ⟨run, tr₁₇, hrun, h₁₇⟩ := sees_bind.mp h₁₆
  have hworkflow : ∀ request, (workflow request).announces [] DomainEvent.Plain := fun _ =>
    writes_bind (writes_query _) fun _ => Tx.announces_orThrow
  have hw₁₇ := hw₁₆.of_announces (hworkflow _) (List.nil_subset _) hrun
  have hp₁₇ := hp₁₆.of_announces (hworkflow _) (List.nil_subset _) hrun
  obtain ⟨_, tr₁₈, hrecord, h₁₈⟩ := sees_bind.mp h₁₇
  have hJ' := recordChange_consistent hw₁₇ hp₁₇ hrecord fun _ => rfl
  -- a purchase order that is complete is closed
  have hclose : ∀ {loaded : Option ProcurementRequest} {id : Uuid} {actor reason : String}
      {now : Instant}, (ProcurementService.markReceived loaded id actor reason now).maintains past D
        (Consistent past D) := fun {_ _ _ _ _} =>
    maintains_of_announces (ProcurementService.markReceived_announces fun _ h => h) (by decide)
  split at h₁₈
  · obtain ⟨now, tr₁₉, ⟨env', hnow, rfl⟩, h₁₉⟩ := sees_bind.mp h₁₈
    obtain ⟨request, tr₂₀, hmark, h₂₀⟩ := sees_bind.mp h₁₉
    obtain ⟨-, rfl⟩ := h₂₀
    exact hclose _ _ _ hJ' hmark
  · obtain ⟨-, rfl⟩ := h₁₈
    exact hJ'

/-- The call as a whole, which may find its key in use. -/
theorem receive_consistent {purchaseOrderId : Uuid} {command : Receipt} :
    (receive purchaseOrderId command).maintains past D (Consistent past D) := by
  refine maintains_bind (maintains_query _) fun existing => ?_
  cases existing with
  | some existing =>
    refine maintains_bind (maintains_of_announces Tx.announces_require (List.nil_subset _)) ?_
    exact fun _ => maintains_done _
  | none => exact receiveNew_consistent hpast

end InventoryService

/-! ## Returns -/

namespace AutonomousOrchestrator

/-- A restock is an adjustment without a cost. -/
theorem restock_consistent {returnRecord : Return} {orderItem : OrderItem} :
    (restock returnRecord orderItem).maintains past D (Consistent past D) := by
  unfold restock
  split
  · exact maintains_bind (InventoryService.adjust_consistent hpast) fun _ => maintains_done _
  · exact maintains_done _

/-- **A reconciled return keeps the feeds.** -/
theorem reconcile_consistent {returnRecord : Return} {order : Order} {quantity : Int}
    {run : WorkflowRun} :
    (reconcile returnRecord order quantity run).maintains past D (Consistent past D) := by
  have hplain : ∀ {α : Type} {p : Tx α}, p.announces otherTables DomainEvent.Plain →
      p.maintains past D (Consistent past D) := fun hp =>
    maintains_of_announces hp (List.Subset.refl _)
  refine maintains_bind (maintains_query _) fun found => ?_
  refine maintains_bind (hplain Tx.announces_orThrow) fun orderItem => ?_
  refine maintains_bind (hplain Tx.announces_require) fun _ => ?_
  refine maintains_bind (hplain Tx.announces_require) fun _ => ?_
  refine maintains_bind (restock_consistent hpast) fun _ => ?_
  refine maintains_bind (maintains_query _) fun refunds => ?_
  refine maintains_bind (hplain Tx.announces_require) fun _ => ?_
  refine maintains_bind (hplain Tx.announces_require) fun _ => ?_
  extract_lets finish
  have hfinish : ∀ u, (finish u).maintains past D (Consistent past D) := by
    intro u
    refine maintains_bind (hplain (Tx.announces_flush _ _ (by decide) (by decide))) fun _ => ?_
    refine maintains_bind (hplain (addAudit_announces (by decide) (by decide))) fun _ => ?_
    exact maintains_done _
  split
  · exact maintains_bind (OrderService.updateStatus_consistent hpast) fun _ => hfinish ()
  · exact hfinish ()

/-- The workflow step that reconciles a return keeps the feeds. -/
theorem returnToReconciliation_consistent (event : EventEnvelope) (run : WorkflowRun) :
    (returnToReconciliation event run).maintains past D (Consistent past D) := by
  unfold returnToReconciliation
  split
  · refine maintains_bind (maintains_query _) fun returnRecord => ?_
    refine maintains_bind (maintains_query _) fun order => ?_
    split
    · refine maintains_bind (maintains_of_announces Tx.announces_require (List.nil_subset _)) ?_
      intro _
      exact maintains_bind (reconcile_consistent hpast) fun _ => maintains_done _
    · exact maintains_raise _
  · exact maintains_raise _

end AutonomousOrchestrator

/-! ## The engine -/

namespace WorkflowEngine

variable {engine : WorkflowEngine}
variable (hsteps : ∀ name definition, engine.definitions name = some definition →
  ∀ event run, (definition.step event run).maintains past D (Consistent past D))

omit hpast in
/-- What the engine writes itself is plain. -/
theorem maintains_of_own {α : Type} {p : Tx α} (hp : p.announces ownTables DomainEvent.Plain) :
    p.maintains past D (Consistent past D) := maintains_of_announces hp (by decide)

omit hpast in
omit hpast in
/-- One attempt: the step keeps the feeds when it returns, and is undone when it raises. -/
theorem execute_consistent {definition : WorkflowDefinition}
    (hstep : ∀ event run, (definition.step event run).maintains past D (Consistent past D))
    {workflow : WorkflowRun} {event : EventEnvelope} {now : Instant} :
    (execute workflow definition event now).maintains past D (Consistent past D) := by
  have hok : ∀ event : EventEnvelope, (DatabaseEventStore.record event).Plain →
      (DatabaseEventStore.record event).Plain := fun _ h => h
  unfold execute
  split
  · exact maintains_of_own (terminalFailure_announces hok)
  · refine maintains_bind (maintains_of_own flush_announces) fun run => ?_
    refine maintains_bind (maintains_of_own audit_announces) fun _ => ?_
    refine maintains_bind (maintains_savepoint (hstep event run)) fun outcome => ?_
    refine maintains_bind (maintains_query _) fun found => ?_
    refine maintains_bind (maintains_of_own Tx.announces_orThrow) fun run => ?_
    cases outcome with
    | error e => exact maintains_of_own (stepFailed_announces hok)
    | ok outcome => exact maintains_of_own stepReturned_announces

include hsteps

omit hpast in
/-- A handled event: the new run is the engine's own, and the attempt follows it. -/
theorem handleEvent_consistent [Digests] {name : String} {event : EventEnvelope} {now : Instant} :
    (engine.handleEvent name event now).maintains past D (Consistent past D) := by
  intro tr run tr' hJ h
  obtain ⟨definition, tr₁, hdefinition, h₁⟩ := sees_bind.mp h
  obtain ⟨hd, rfl⟩ := Tx.sees_orThrow hdefinition
  revert h₁
  have hproceed : ∀ workflow : WorkflowRun, (if workflow.status.isTerminal then pure workflow
      else execute workflow definition event now : Tx WorkflowRun).maintains past D
        (Consistent past D) := by
    intro workflow
    split
    · exact maintains_done _
    · exact execute_consistent (hsteps name definition hd)
  refine maintains_bind (maintains_of_own (writes_selectForUpdate _ _)) (fun found => ?_) _ _ _ hJ
  cases found with
  | some workflow => exact hproceed workflow
  | none => exact maintains_bind (maintains_of_own create_announces) hproceed

omit hpast in
/-- A run that is resumed: another attempt, after the approval it waited for is cleared. -/
theorem resume_consistent {workflowId : Uuid} {now : Instant} :
    (engine.resume workflowId now).maintains past D (Consistent past D) := by
  have hok : ∀ event : EventEnvelope, (DatabaseEventStore.record event).Plain →
      (DatabaseEventStore.record event).Plain := fun _ h => h
  refine maintains_bind (maintains_of_own (writes_selectForUpdate _ _)) fun found => ?_
  refine maintains_bind (maintains_of_own Tx.announces_orThrow) fun workflow => ?_
  intro tr run tr' hJ h
  obtain ⟨definition, tr₁, hdefinition, h₁⟩ := sees_bind.mp h
  obtain ⟨hd, rfl⟩ := Tx.sees_orThrow hdefinition
  split at h₁
  · exact maintains_of_own (terminalFailure_announces hok) _ _ _ hJ h₁
  · revert h₁
    refine maintains_bind (maintains_of_own clearApproval_announces) (fun workflow => ?_) _ _ _ hJ
    split
    · exact maintains_done _
    · refine maintains_bind (maintains_query _) fun eventRecord => ?_
      cases eventRecord with
      | none => exact maintains_of_own (terminalFailure_announces hok)
      | some record => exact execute_consistent (hsteps _ definition hd)

omit hpast in
/-- All runs that are due, by induction on the runs selected. -/
theorem resumeAll_consistent {now : Instant} : ∀ workflows,
    (engine.resumeAll now workflows).maintains past D (Consistent past D)
  | [] => maintains_done _
  | workflow :: rest => by
    refine maintains_bind (resume_consistent hsteps) fun run => ?_
    exact maintains_bind (resumeAll_consistent rest) fun runs => maintains_done _

omit hpast in
/-- The call that selects them and resumes them. -/
theorem retryDue_consistent {now : Instant} {limit : Nat} :
    (engine.retryDue now limit).maintains past D (Consistent past D) := by
  refine maintains_bind ?_ fun workflows => resumeAll_consistent hsteps workflows
  intro tr workflows tr' hJ h
  obtain ⟨D₁, -, -, rfl⟩ := h
  show Consistent past D (tr.writes ++ [])
  rwa [List.append_nil]

end WorkflowEngine

/-! ## The calls on the warehouse -/

/-- The engine of the returns has one workflow, the reconciliation. -/
theorem returnEngine_consistent {policy : WorkflowExecutionPolicy} (name : String)
    (definition : WorkflowDefinition)
    (h : (AutonomousOrchestrator.returnEngine policy).definitions name = some definition)
    (event : EventEnvelope) (run : WorkflowRun) :
    (definition.step event run).maintains past D (Consistent past D) := by
  unfold AutonomousOrchestrator.returnEngine at h
  dsimp only at h
  split at h
  · obtain rfl := Option.some.inj h
    exact AutonomousOrchestrator.returnToReconciliation_consistent hpast event run
  · cases h

/-- **Every call keeps the feeds.** -/
theorem StockCall.run_consistent [Digests] {policy : WorkflowExecutionPolicy} (call : StockCall) :
    (call.run policy).maintains past D (Consistent past D) := by
  have hsteps : ∀ name definition,
      (AutonomousOrchestrator.returnEngine policy).definitions name = some definition →
        ∀ event run, (definition.step event run).maintains past D (Consistent past D) :=
    returnEngine_consistent hpast
  cases call with
  | receive => exact maintains_ignore (InventoryService.receive_consistent hpast)
  | adjust => exact maintains_ignore (InventoryService.adjust_consistent hpast)
  | ingest => exact maintains_ignore (OrderService.ingest_consistent hpast)
  | updateStatus => exact maintains_ignore (OrderService.updateStatus_consistent hpast)
  | handleReturn => exact maintains_ignore (WorkflowEngine.handleEvent_consistent hsteps)
  | resumeReturn => exact maintains_ignore (WorkflowEngine.resume_consistent hsteps)
  | retryReturns => exact maintains_ignore (WorkflowEngine.retryDue_consistent hsteps)

end Services

end CommerceOperations
