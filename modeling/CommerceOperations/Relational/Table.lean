/-
  Versioned tables with unique columns.

  A `Row` names the columns a table is kept by: the primary key, the values of its unique columns,
  its foreign keys, and the version counter every update moves on by one.  A `Table ρ` is the list
  of its rows in insertion order, together with the proof that no two of them share the key or a
  unique value.  Rows are inserted and updated, never deleted.

  Both writes are total: an `insert` that would break a constraint, and an `update` whose row is
  not the successor of the stored one or takes a value that is not free, leave the table alone.
  Whoever issues the write tests `conflicts`, `succeeds` and `clashes` first and reports the
  violation; the table itself cannot become ill-formed.

  The second half is what transactions need of a table:

  * `agree`   — what a row lock, a claim on a unique value, or a lock on the children of a foreign
                key keeps fixed;
  * `locks`   — the locks a write takes; it is invisible under all others (`apply_agree`);
  * `earlier` — the order in which a table grows: rows stay, a row that changed has a higher
    version, and one that kept its version has not changed (`earlier_apply`).
-/
import Mathlib.Data.List.Basic
import Mathlib.Data.List.Pairwise
import Mathlib.Algebra.BigOperators.Group.List.Basic
import Mathlib.Tactic.Abel

namespace Relational

/-- The columns of a row that the constraints of its table are about.  Everything else a row carries
    is the business of whoever declares it: a table, a lock and a write look at these four columns
    only.  The laws say that moving the version on changes none of the other three, which is what
    lets an update be recognised as the next version of a row. -/
class Row (ρ : Type) (κ υ : outParam Type) where
  /-- The primary key. -/
  key : ρ → κ
  /-- The values of the unique columns, each tagged with its constraint. -/
  uniques : ρ → List υ := fun _ => []
  /-- The foreign keys, tagged likewise; an update leaves them as they are. -/
  parents : ρ → List υ := fun _ => []
  /-- The counter every update increments. -/
  version : ρ → Int
  /-- The row with another version, used to state what an update leaves as it was. -/
  withVersion : ρ → Int → ρ
  key_withVersion : ∀ r n, key (withVersion r n) = key r := by intros; rfl
  uniques_withVersion : ∀ r n, uniques (withVersion r n) = uniques r := by intros; rfl
  parents_withVersion : ∀ r n, parents (withVersion r n) = parents r := by intros; rfl
  version_withVersion : ∀ r n, version (withVersion r n) = n := by intros; rfl

open Row (key uniques parents version)

attribute [simp] Row.key_withVersion Row.uniques_withVersion Row.parents_withVersion
  Row.version_withVersion

variable {ρ κ υ : Type} [Row ρ κ υ]

/-- Rows that may stand in one table: neither the key nor a unique value is shared. -/
def Distinct (r s : ρ) : Prop := key r ≠ key s ∧ ∀ u ∈ uniques r, u ∉ uniques s

/-- Being distinct does not depend on the order of the two rows. -/
theorem Distinct.symm {r s : ρ} (h : Distinct r s) : Distinct s r :=
  ⟨fun hk => h.1 hk.symm, fun u hu hu' => h.2 u hu' hu⟩

instance : Std.Symm (Distinct (ρ := ρ)) := ⟨fun _ _ => Distinct.symm⟩

/-- A table: its rows in insertion order, pairwise distinct.  The proof travels with the rows, so
    that a table in which two rows share a key or a unique value cannot be written down, and no
    later result has to assume it. -/
structure Table (ρ : Type) {κ υ : Type} [Row ρ κ υ] where
  /-- The rows, oldest first. -/
  rows : List ρ
  /-- No two of them share the key or a unique value. -/
  distinct : rows.Pairwise Distinct

/-- A write of one row.  An update names the row it found, so that the locks it needs can be read
    off the write alone: the unique values it gives up are those of `old`, the ones it takes are
    those of `new`. -/
inductive TableWrite (ρ : Type) where
  /-- Add a row. -/
  | insert (row : ρ)
  /-- Replace the row found as `old` by `new`, its next version. -/
  | update (old new : ρ)

/-- What a transaction may hold on a table: a row, a value of a unique column, or the rows of one
    parent. -/
inductive TableLock (κ υ : Type) where
  /-- The row under a key, whether there is one or not. -/
  | row (k : κ)
  /-- Whether a value of a unique column is taken. -/
  | unique (u : υ)
  /-- The rows whose foreign key has a value. -/
  | children (u : υ)
  deriving DecidableEq

namespace Table

/-- The table without any rows. -/
def empty : Table ρ := ⟨[], List.Pairwise.nil⟩

instance : EmptyCollection (Table ρ) := ⟨empty⟩

/-- The table with one row. -/
def singleton (r : ρ) : Table ρ := ⟨[r], List.pairwise_singleton _ _⟩

instance : Membership ρ (Table ρ) := ⟨fun t r => r ∈ t.rows⟩

/-- Membership in a table is membership among its rows; the lemmas below are stated with `∈` on the
    table and unfold it by this one. -/
theorem mem_rows {t : Table ρ} {r : ρ} : r ∈ t ↔ r ∈ t.rows := Iff.rfl

@[simp] theorem not_mem_empty (r : ρ) : r ∉ (∅ : Table ρ) := List.not_mem_nil

/-- Tables are told apart by their rows: the proof that these are distinct is no further datum. -/
@[ext] theorem ext {t t' : Table ρ} (h : t.rows = t'.rows) : t = t' := by
  cases t
  cases t'
  cases h
  rfl

/-- No row stands in a table twice, since the two would share their key. -/
theorem nodup_rows (t : Table ρ) : t.rows.Nodup :=
  t.distinct.imp fun h heq => h.1 (congrArg key heq)

/-- Two rows of a table with one key are one row.  Every argument that has found a row in two ways,
    once by its key and once by a search, ends here. -/
theorem eq_of_key_eq (t : Table ρ) {r s : ρ} (hr : r ∈ t) (hs : s ∈ t) (hk : key r = key s) :
    r = s := by
  by_contra hne
  exact (t.distinct.forall hr hs hne).1 hk

/-- Two rows of a table that share a unique value are one row: an idempotency key, a SKU at a
    location or an external order id names at most one row. -/
theorem eq_of_unique_mem (t : Table ρ) {r s : ρ} {u : υ} (hr : r ∈ t) (hs : s ∈ t)
    (hu : u ∈ uniques r) (hu' : u ∈ uniques s) : r = s := by
  by_contra hne
  exact (t.distinct.forall hr hs hne).2 u hu hu'

/-- At most one row has a unique value.  The form with `countP` is the one that bounds how many
    ledger rows or receipts can carry one key. -/
theorem countP_le_one (t : Table ρ) {p : ρ → Bool} (u : υ)
    (hp : ∀ r, p r = true → u ∈ uniques r) : t.rows.countP p ≤ 1 := by
  rw [List.countP_eq_length_filter]
  have hdistinct := t.distinct.sublist (List.filter_sublist (p := p))
  have hmem : ∀ r ∈ t.rows.filter p, u ∈ uniques r := fun r hr => hp r (List.of_mem_filter hr)
  -- two rows of the filtered list would share the value
  match hrows : t.rows.filter p with
  | [] => exact Nat.zero_le 1
  | [_] => exact Nat.le_refl 1
  | r :: s :: rest =>
    rw [hrows] at hdistinct hmem
    have hrs : Distinct r s := List.rel_of_pairwise_cons hdistinct List.mem_cons_self
    have hs : s ∈ r :: s :: rest := List.mem_cons_of_mem _ List.mem_cons_self
    exact absurd (hmem s hs) (hrs.2 u (hmem r List.mem_cons_self))

variable [DecidableEq κ] [DecidableEq υ]

/-! ## Reading -/

section Read

omit [DecidableEq υ]

/-- The row under `k`, if there is one. -/
def get (t : Table ρ) (k : κ) : Option ρ := t.rows.find? fun r => key r = k

/-- What a lookup returns is a row of the table. -/
theorem mem_of_get {t : Table ρ} {k : κ} {r : ρ} (h : t.get k = some r) : r ∈ t :=
  List.mem_of_find?_eq_some h

/-- A row that is found is stored under the key that was looked up. -/
theorem key_of_get {t : Table ρ} {k : κ} {r : ρ} (h : t.get k = some r) : key r = k := by
  have hk := List.find?_some h
  simpa using hk

/-- Conversely every row is found under its own key: the first row with the key is the only one. -/
theorem get_of_mem {t : Table ρ} {r : ρ} (h : r ∈ t) : t.get (key r) = some r := by
  cases hg : t.get (key r) with
  | none =>
    have hnone := List.find?_eq_none.mp hg r h
    simp at hnone
  | some s =>
    have hs := t.eq_of_key_eq (mem_of_get hg) h (key_of_get hg)
    rw [hs]

/-- The table as a partial function holds exactly its rows. -/
theorem get_eq_some {t : Table ρ} {k : κ} {r : ρ} : t.get k = some r ↔ r ∈ t ∧ key r = k := by
  constructor
  · intro h
    exact ⟨mem_of_get h, key_of_get h⟩
  · rintro ⟨hr, rfl⟩
    exact get_of_mem hr

/-- A lookup fails exactly when no row has the key. -/
theorem get_eq_none {t : Table ρ} {k : κ} : t.get k = none ↔ ∀ r ∈ t, key r ≠ k := by
  simp [get, mem_rows]

end Read

/-- Some row has the unique value `u`. -/
def taken (t : Table ρ) (u : υ) : Bool := t.rows.any fun r => u ∈ uniques r

omit [DecidableEq κ] in
/-- A unique value is taken exactly when some row has it. -/
theorem taken_eq_true {t : Table ρ} {u : υ} : t.taken u = true ↔ ∃ r ∈ t, u ∈ uniques r := by
  simp [taken, mem_rows]

omit [DecidableEq κ] in
/-- A unique value is free exactly if every row lacks it. -/
theorem taken_eq_false {t : Table ρ} {u : υ} : t.taken u = false ↔ ∀ r ∈ t, u ∉ uniques r := by
  simp [taken, mem_rows]

/-! ## Inserting -/

/-- Some row has the key or a unique value of `row`.  This is the test that a database makes before
    it lets an insert through; the session that issues the insert makes it too, and reports the
    violation. -/
def conflicts (t : Table ρ) (row : ρ) : Bool :=
  (t.get (key row)).isSome || (uniques row).any t.taken

/-- A new row conflicts with nothing exactly if it is distinct from every row there is, in its key
    and in its unique values.  That is what the table has to know in order to take it in. -/
theorem conflicts_eq_false {t : Table ρ} {row : ρ} :
    t.conflicts row = false ↔ ∀ r ∈ t, Distinct r row := by
  simp only [conflicts, Bool.or_eq_false_iff, Option.isSome_eq_false_iff, Option.isNone_iff_eq_none,
    get_eq_none, List.any_eq_false, Bool.not_eq_true, taken_eq_false]
  constructor
  · rintro ⟨hk, hu⟩ r hr
    exact ⟨hk r hr, fun u hur hurow => hu u hurow r hr hur⟩
  · intro h
    exact ⟨fun r hr => (h r hr).1, fun u hurow r hr hur => (h r hr).2 u hur hurow⟩

/-- Append `row`, unless it conflicts.  In that case the table stays as it is, which keeps the write
    total; a session never issues such a write, since it has tested for the conflict. -/
def insert (t : Table ρ) (row : ρ) : Table ρ :=
  if h : t.conflicts row = false then
    { rows := t.rows ++ [row]
      distinct := List.pairwise_append.mpr
        ⟨t.distinct, List.pairwise_singleton _ _, fun r hr s hs => by
          rw [List.mem_singleton.mp hs]
          exact conflicts_eq_false.mp h r hr⟩ }
  else t

/-- An insert that does not conflict appends its row. -/
theorem rows_insert {t : Table ρ} {row : ρ} (h : t.conflicts row = false) :
    (t.insert row).rows = t.rows ++ [row] := by
  rw [insert, dif_pos h]

/-- An insert that conflicts does nothing. -/
theorem insert_of_conflict {t : Table ρ} {row : ρ} (h : t.conflicts row = true) :
    t.insert row = t := by
  rw [insert, dif_neg (by simp [h])]

/-- The rows after an insert are those before it and the new one. -/
theorem mem_insert {t : Table ρ} {row r : ρ} (h : t.conflicts row = false) :
    r ∈ t.insert row ↔ r ∈ t ∨ r = row := by
  rw [mem_rows, rows_insert h, List.mem_append, List.mem_singleton]
  rfl

/-- Looking up a key after an insert: the new row under its own key, and the old table under any
    other.  The case of the new key uses that there was no row under it. -/
theorem get_insert {t : Table ρ} {row : ρ} (h : t.conflicts row = false) (k : κ) :
    (t.insert row).get k = if key row = k then some row else t.get k := by
  rw [get, rows_insert h, List.find?_append]
  by_cases hk : key row = k
  · have hnone : t.get k = none := by
      rw [get_eq_none]
      intro r hr he
      exact (conflicts_eq_false.mp h r hr).1 (he.trans hk.symm)
    rw [if_pos hk, show t.rows.find? _ = none from hnone]
    simp [hk]
  · rw [if_neg hk]
    simp [hk, get]

/-! ## Updating -/

/-- `new` is the next version of the row stored under its key, found there as `old`.  The unique
    values are compared with those of `old` and not with those of `new`, since an update may change
    them; its foreign keys stay, and the version goes up by exactly one.  An update of a row that
    another session has changed in the meantime fails this test. -/
def succeeds (t : Table ρ) (old new : ρ) : Bool :=
  (t.get (key new)).any fun r =>
    uniques r = uniques old ∧ parents r = parents new ∧ version new = version r + 1

/-- `new` takes a unique value `old` did not have and another row has. -/
def clashes (t : Table ρ) (old new : ρ) : Bool :=
  (uniques new).any fun u => u ∉ uniques old ∧ t.taken u

/-- The test in words: there is a row under the key of `new`, with the unique values that were
    found, the same parents, and the version before. -/
theorem succeeds_eq_true {t : Table ρ} {old new : ρ} :
    t.succeeds old new = true ↔
      ∃ r, t.get (key new) = some r ∧ uniques r = uniques old ∧ parents r = parents new ∧
        version new = version r + 1 := by
  cases hg : t.get (key new) with
  | none => simp [succeeds, hg]
  | some r => simp [succeeds, hg]

omit [DecidableEq κ] in
/-- There is no clash exactly when each unique value that the update brings in is free. -/
theorem clashes_eq_false {t : Table ρ} {old new : ρ} :
    t.clashes old new = false ↔
      ∀ u ∈ uniques new, u ∉ uniques old → t.taken u = false := by
  simp [clashes]

omit [DecidableEq κ] in
/-- A row that keeps its unique values clashes with no other. -/
theorem clashes_of_uniques_eq (t : Table ρ) {old new : ρ} (h : uniques new = uniques old) :
    t.clashes old new = false := by
  rw [clashes_eq_false, h]
  intro u hu hu'
  exact absurd hu hu'

/-- The row an update to `new` leaves where `r` stood: `new` itself in the place of its key, and
    every other row as it was. -/
def replaced (new r : ρ) : ρ := if key r = key new then new else r

omit [DecidableEq υ] in
/-- A row with another key is left as it is. -/
theorem replaced_of_ne {new r : ρ} (h : key r ≠ key new) : replaced new r = r := if_neg h

omit [DecidableEq υ] in
/-- Replacing a row keeps the key at its place, so that the order of the keys in a table never
    changes. -/
@[simp] theorem key_replaced (new r : ρ) : key (replaced new r) = key r := by
  unfold replaced
  split
  · rename_i h
    exact h.symm
  · rfl

/-- The stored row and its replacement stay distinct from every other row.  The rows are compared
    two at a time: of a pair at most one is replaced, and a value the replacement shares with the
    other row would either have been there before, against the distinctness of the table, or be new,
    against the test for clashes. -/
theorem distinct_replaced {t : Table ρ} {old new : ρ} (hs : t.succeeds old new = true)
    (hc : t.clashes old new = false) : (t.rows.map (replaced new)).Pairwise Distinct := by
  obtain ⟨r₀, hget, hu₀, -⟩ := succeeds_eq_true.mp hs
  rw [clashes_eq_false] at hc
  have hother : ∀ r ∈ t, key r ≠ key new → Distinct new r := by
    intro r hr hne
    refine ⟨fun hk => hne hk.symm, fun u hu hur => ?_⟩
    by_cases hold : u ∈ uniques old
    · have heq := t.eq_of_unique_mem hr (mem_of_get hget) hur (hu₀ ▸ hold)
      exact hne (heq ▸ key_of_get hget)
    · exact taken_eq_false.mp (hc u hu hold) r hr hur
  rw [List.pairwise_map]
  refine t.distinct.imp_of_mem ?_
  intro r s hr hs' h
  by_cases hkr : key r = key new
  · have hks : key s ≠ key new := fun hks => h.1 (hkr.trans hks.symm)
    rw [replaced, if_pos hkr, replaced_of_ne hks]
    exact hother s hs' hks
  · rw [replaced_of_ne hkr]
    by_cases hks : key s = key new
    · rw [replaced, if_pos hks]
      exact (hother r hr hkr).symm
    · rw [replaced_of_ne hks]
      exact h

/-- Put `new` where the row of its key stands, if it is that row's successor and takes no value that
    another row has.  Otherwise the table stays as it is, as with an insert. -/
def update (t : Table ρ) (old new : ρ) : Table ρ :=
  if h : t.succeeds old new = true ∧ t.clashes old new = false then
    { rows := t.rows.map (replaced new), distinct := distinct_replaced h.1 h.2 }
  else t

/-- An update that passes its tests replaces the row of its key, in its place. -/
theorem rows_update {t : Table ρ} {old new : ρ} (hs : t.succeeds old new = true)
    (hc : t.clashes old new = false) : (t.update old new).rows = t.rows.map (replaced new) := by
  rw [update, dif_pos ⟨hs, hc⟩]

/-- An update that fails one of them does nothing. -/
theorem update_of_not {t : Table ρ} {old new : ρ}
    (h : ¬(t.succeeds old new = true ∧ t.clashes old new = false)) : t.update old new = t := by
  rw [update, dif_neg h]

/-- Looking up a key after an update: the new version under its own key, and the old table under any
    other. -/
theorem get_update {t : Table ρ} {old new : ρ} (hs : t.succeeds old new = true)
    (hc : t.clashes old new = false) (k : κ) :
    (t.update old new).get k = if key new = k then some new else t.get k := by
  obtain ⟨r₀, hget, -⟩ := succeeds_eq_true.mp hs
  by_cases hk : key new = k
  · rw [if_pos hk, get_eq_some, mem_rows, rows_update hs hc]
    refine ⟨List.mem_map.mpr ⟨r₀, mem_of_get hget, ?_⟩, hk⟩
    exact if_pos (key_of_get hget)
  · rw [if_neg hk]
    cases hg : t.get k with
    | none =>
      rw [get_eq_none] at hg ⊢
      intro r hr
      rw [mem_rows, rows_update hs hc] at hr
      obtain ⟨r₁, hr₁, rfl⟩ := List.mem_map.mp hr
      rw [key_replaced]
      exact hg r₁ hr₁
    | some r =>
      rw [get_eq_some] at hg ⊢
      rw [mem_rows, rows_update hs hc]
      refine ⟨List.mem_map.mpr ⟨r, hg.1, ?_⟩, hg.2⟩
      exact replaced_of_ne fun hr => hk (hr.symm.trans hg.2)

/-- The rows after an update: the new version, and the rows with other keys. -/
theorem mem_update {t : Table ρ} {old new r : ρ} (hs : t.succeeds old new = true)
    (hc : t.clashes old new = false) :
    r ∈ t.update old new ↔ r = new ∨ (r ∈ t ∧ key r ≠ key new) := by
  constructor
  · intro hr
    have hg := get_of_mem hr
    rw [get_update hs hc] at hg
    split at hg
    · exact Or.inl (Option.some.inj hg).symm
    · rename_i hne
      exact Or.inr ⟨mem_of_get hg, fun e => hne e.symm⟩
  · rintro (rfl | ⟨hr, hne⟩)
    · exact mem_of_get (k := key r) (by rw [get_update hs hc, if_pos rfl])
    · exact mem_of_get (k := key r) (by rw [get_update hs hc, if_neg hne.symm, get_of_mem hr])

/-- The next version of a stored row with the same foreign keys takes its place.  This is the case
    of every update a session makes of a row it holds under a lock, and the only one in which an
    update is ever issued. -/
theorem succeeds_of_get {t : Table ρ} {old new : ρ} (h : t.get (key new) = some old)
    (hp : parents old = parents new) (hv : version new = version old + 1) :
    t.succeeds old new = true :=
  succeeds_eq_true.mpr ⟨old, h, rfl, hp, hv⟩

/-! ## Sums -/

section Sum

omit [DecidableEq κ] [DecidableEq υ]

/-- The sum of `f` over the rows: on-hand stock, reserved stock, the movements of a ledger. -/
def sum (t : Table ρ) (f : ρ → Int) : Int := (t.rows.map f).sum

/-- Only the rows of the table matter for its sum. -/
theorem sum_congr (t : Table ρ) {f g : ρ → Int} (h : ∀ r ∈ t, f r = g r) : t.sum f = t.sum g := by
  rw [sum, List.map_congr_left h]
  rfl

variable [DecidableEq κ] [DecidableEq υ]

/-- An insert adds its own term to a sum. -/
theorem sum_insert {t : Table ρ} {row : ρ} (h : t.conflicts row = false) (f : ρ → Int) :
    (t.insert row).sum f = t.sum f + f row := by
  simp [sum, rows_insert h]

omit [DecidableEq υ] in
/-- Exchanging one of several distinct rows moves the sum by the difference of the two.  By
    induction on the rows: once the row has been met, none of the others has its key, and the rest
    of the list is unchanged. -/
theorem sum_map_replaced {M : Type} [AddCommGroup M] {new old : ρ} (f : ρ → M)
    (hk : key old = key new) :
    ∀ rows : List ρ, rows.Pairwise Distinct → old ∈ rows →
      ((rows.map (replaced new)).map f).sum = (rows.map f).sum - f old + f new
  | [], _, hmem => nomatch hmem
  | r :: rows, hd, hmem => by
    rw [List.pairwise_cons] at hd
    rw [List.mem_cons] at hmem
    by_cases hr : key r = key new
    · -- `r` is the row replaced; no later row has its key
      have hold : old = r := by
        rcases hmem with rfl | hmem
        · rfl
        · exact absurd (hr.trans hk.symm) (hd.1 old hmem).1
      subst hold
      have hrest : rows.map (replaced new) = rows := by
        refine (List.map_congr_left fun s hs => ?_).trans (List.map_id rows)
        exact replaced_of_ne fun hs' => (hd.1 s hs).1 (hk.trans hs'.symm)
      rw [List.map_cons, hrest, replaced, if_pos hk]
      simp only [List.map_cons, List.sum_cons]
      abel
    · have hne : old ≠ r := by
        rintro rfl
        exact hr hk
      have htail := sum_map_replaced f hk rows hd.2 (hmem.resolve_left hne)
      simp only [List.map_cons, List.sum_cons]
      rw [htail, replaced_of_ne hr]
      abel

end Sum

/-! ## What a lock protects -/

/-- The effect of a write.  Neither kind can fail: a write that does not pass its tests is no
    change. -/
def apply (w : TableWrite ρ) (t : Table ρ) : Table ρ :=
  match w with
  | .insert row => t.insert row
  | .update old new => t.update old new

/-- The locks a write takes: its row, a claim on every unique value it brings in or gives up,
    and its place among the children of its parents. -/
def locks : TableWrite ρ → List (TableLock κ υ)
  | .insert row => .row (key row) :: ((uniques row).map .unique ++ (parents row).map .children)
  | .update old new =>
    .row (key new) ::
      (((uniques old).filter (fun u => u ∉ uniques new) ++
        (uniques new).filter (fun u => u ∉ uniques old)).map .unique ++
        (parents new).map .children)

/-- The rows of one parent, in insertion order. -/
def children (t : Table ρ) (u : υ) : List ρ := t.rows.filter fun r => u ∈ parents r

/-- `t` and `t'` hold the same row under a row lock; under a claim on a unique value they
    agree on whether the value is taken, and under a lock on its children on the rows of a
    parent. -/
def agree : TableLock κ υ → Table ρ → Table ρ → Prop
  | .row k, t, t' => t.get k = t'.get k
  | .unique u, t, t' => t.taken u = t'.taken u
  | .children u, t, t' => t.children u = t'.children u

/-- What a lock keeps fixed is the same in a table and in itself. -/
theorem agree_refl (ℓ : TableLock κ υ) (t : Table ρ) : agree ℓ t t := by
  cases ℓ with
  | row k => rfl
  | unique u => rfl
  | children u => rfl

/-- The agreement of two tables under a lock does not depend on which is taken first. -/
theorem agree_symm {ℓ : TableLock κ υ} {t t' : Table ρ} (h : agree ℓ t t') : agree ℓ t' t := by
  cases ℓ with
  | row k => exact Eq.symm h
  | unique u => exact Eq.symm h
  | children u => exact Eq.symm h

/-- Agreement of two tables passes through a third one, as the committed states of a run do while a
    lock is held. -/
theorem agree_trans {ℓ : TableLock κ υ} {t t' t'' : Table ρ} (h : agree ℓ t t')
    (h' : agree ℓ t' t'') : agree ℓ t t'' := by
  cases ℓ with
  | row k => exact Eq.trans h h'
  | unique u => exact Eq.trans h h'
  | children u => exact Eq.trans h h'

/-- After an insert a value is taken if it was, or if the new row has it. -/
theorem taken_insert {t : Table ρ} {row : ρ} (h : t.conflicts row = false) (u : υ) :
    (t.insert row).taken u = (t.taken u || decide (u ∈ uniques row)) := by
  simp [taken, rows_insert h]

/-- An update that neither brings in a value nor gives it up leaves it as taken or as free as it
    was. -/
theorem taken_update {t : Table ρ} {old new : ρ} (hs : t.succeeds old new = true)
    (hc : t.clashes old new = false) {u : υ} (hu : u ∈ uniques old ↔ u ∈ uniques new) :
    (t.update old new).taken u = t.taken u := by
  obtain ⟨r₀, hget, hu₀, -⟩ := succeeds_eq_true.mp hs
  rw [Bool.eq_iff_iff, taken_eq_true, taken_eq_true]
  constructor
  · rintro ⟨r, hr, hur⟩
    rcases (mem_update hs hc).mp hr with rfl | ⟨hr, -⟩
    · exact ⟨r₀, mem_of_get hget, hu₀ ▸ hu.mpr hur⟩
    · exact ⟨r, hr, hur⟩
  · rintro ⟨r, hr, hur⟩
    by_cases hk : key r = key new
    · have hr₀ := t.eq_of_key_eq hr (mem_of_get hget) (hk.trans (key_of_get hget).symm)
      refine ⟨new, (mem_update hs hc).mpr (Or.inl rfl), hu.mp ?_⟩
      rw [← hu₀, ← hr₀]
      exact hur
    · exact ⟨r, (mem_update hs hc).mpr (Or.inr ⟨hr, hk⟩), hur⟩

/-- An insert appends its row to the children of its parents. -/
theorem children_insert {t : Table ρ} {row : ρ} (h : t.conflicts row = false) (u : υ) :
    (t.insert row).children u = t.children u ++ [row].filter fun r => u ∈ parents r := by
  rw [children, rows_insert h, List.filter_append]
  rfl

/-- An update exchanges a child in its place.  Since the foreign keys stay, no row enters or leaves
    the children of a parent by it. -/
theorem children_update {t : Table ρ} {old new : ρ} (hs : t.succeeds old new = true)
    (hc : t.clashes old new = false) (u : υ) :
    (t.update old new).children u = (t.children u).map (replaced new) := by
  obtain ⟨r₀, hget, -, hp, -⟩ := succeeds_eq_true.mp hs
  rw [children, rows_update hs hc, List.filter_map, children]
  congr 1
  refine List.filter_congr fun r hr => ?_
  by_cases hk : key r = key new
  · have hr₀ := t.eq_of_key_eq hr (mem_of_get hget) (hk.trans (key_of_get hget).symm)
    simp only [Function.comp_apply, replaced, if_pos hk]
    rw [hr₀, hp]
  · simp [replaced_of_ne hk]

/-- **Frame.**  A write is invisible under every lock it does not take.  The proof goes through the
    three kinds of lock for each kind of write: a row lock on another key sees the table unchanged
    by `get_insert` and `get_update`, a claim on another value by `taken_insert` and `taken_update`,
    and a lock on the children of another parent because the written row is not among them. -/
theorem apply_agree (w : TableWrite ρ) {ℓ : TableLock κ υ} (h : ℓ ∉ locks w) (t : Table ρ) :
    agree ℓ t (apply w t) := by
  cases w with
  | insert row =>
    show agree ℓ t (t.insert row)
    cases hc : t.conflicts row with
    | true =>
      rw [insert_of_conflict hc]
      exact agree_refl ℓ t
    | false =>
      simp only [locks, List.mem_cons, List.mem_append, List.mem_map, not_or, not_exists,
        not_and] at h
      cases ℓ with
      | row k =>
        show t.get k = (t.insert row).get k
        rw [get_insert hc, if_neg fun hk => h.1 (by rw [hk])]
      | unique u =>
        show t.taken u = (t.insert row).taken u
        have hu : u ∉ uniques row := fun hu => h.2.1 u hu rfl
        rw [taken_insert hc, decide_eq_false hu, Bool.or_false]
      | children u =>
        show t.children u = (t.insert row).children u
        have hu : u ∉ parents row := fun hu => h.2.2 u hu rfl
        rw [children_insert hc, List.filter_singleton]
        simp [hu]
  | update old new =>
    show agree ℓ t (t.update old new)
    by_cases hup : t.succeeds old new = true ∧ t.clashes old new = false
    · simp only [locks, List.mem_cons, List.mem_map, List.mem_append, List.mem_filter,
        decide_eq_true_eq, not_or, not_exists, not_and] at h
      cases ℓ with
      | row k =>
        show t.get k = (t.update old new).get k
        rw [get_update hup.1 hup.2, if_neg fun hk => h.1 (by rw [hk])]
      | unique u =>
        show t.taken u = (t.update old new).taken u
        -- a value on one side only is locked, so `u` is on both or on neither
        have hu : u ∈ uniques old ↔ u ∈ uniques new := by
          constructor
          · intro hold
            by_contra hnew
            exact h.2.1 u (Or.inl ⟨hold, hnew⟩) rfl
          · intro hnew
            by_contra hold
            exact h.2.1 u (Or.inr ⟨hnew, hold⟩) rfl
        rw [taken_update hup.1 hup.2 hu]
      | children u =>
        show t.children u = (t.update old new).children u
        obtain ⟨r₀, hget, -, hp, -⟩ := succeeds_eq_true.mp hup.1
        have hu : u ∉ parents new := fun hu => h.2.2 u hu rfl
        rw [children_update hup.1 hup.2]
        refine ((List.map_congr_left fun r hr => ?_).trans (List.map_id _)).symm
        refine replaced_of_ne fun hk => hu ?_
        rw [children, List.mem_filter, decide_eq_true_eq] at hr
        have hr₀ := t.eq_of_key_eq hr.1 (mem_of_get hget) (hk.trans (key_of_get hget).symm)
        rw [← hp, ← hr₀]
        exact hr.2
    · rw [update_of_not hup]
      exact agree_refl ℓ t

/-- Whether a row conflicts is decided under the locks of its insert.  So a session that has tested
    for the conflict, and holds those locks, commits the insert it meant to make, whatever the other
    sessions have committed in between. -/
theorem conflicts_congr {t t' : Table ρ} {row : ρ}
    (h : ∀ ℓ ∈ locks (.insert row), agree ℓ t t') : t.conflicts row = t'.conflicts row := by
  have hk : t.get (key row) = t'.get (key row) := h (.row (key row)) (by simp [locks])
  have hu : ∀ u ∈ uniques row, t.taken u = t'.taken u := fun u hu =>
    h (.unique u) (by simp [locks, hu])
  rw [conflicts, conflicts, hk]
  congr 1
  rw [Bool.eq_iff_iff, List.any_eq_true, List.any_eq_true]
  constructor
  · rintro ⟨u, hmem, ht⟩
    exact ⟨u, hmem, hu u hmem ▸ ht⟩
  · rintro ⟨u, hmem, ht⟩
    exact ⟨u, hmem, (hu u hmem).symm ▸ ht⟩

/-- Whether an update takes effect is decided under its locks, in the same way. -/
theorem update_congr {t t' : Table ρ} {old new : ρ}
    (h : ∀ ℓ ∈ locks (.update old new), agree ℓ t t') :
    t.succeeds old new = t'.succeeds old new ∧ t.clashes old new = t'.clashes old new := by
  have hk : t.get (key new) = t'.get (key new) := h (.row (key new)) (by simp [locks])
  have hu : ∀ u ∈ uniques new, u ∉ uniques old → t.taken u = t'.taken u := fun u hu hu' =>
    h (.unique u) (by simp [locks, hu, hu'])
  refine ⟨by rw [succeeds, succeeds, hk], ?_⟩
  rw [Bool.eq_iff_iff, clashes, clashes, List.any_eq_true, List.any_eq_true]
  simp only [decide_eq_true_eq]
  constructor
  · rintro ⟨u, hmem, hold, ht⟩
    exact ⟨u, hmem, hold, hu u hmem hold ▸ ht⟩
  · rintro ⟨u, hmem, hold, ht⟩
    exact ⟨u, hmem, hold, (hu u hmem hold).symm ▸ ht⟩

/-- Two tables that agree on the locks of a write and on `ℓ` still agree on `ℓ` after it.  This is
    what lets a write that was planned on the state a session saw be replayed on the state it
    commits on: the two agree under every lock the session holds, and go on doing so write by write.
    -/
theorem apply_congr {w : TableWrite ρ} {ℓ : TableLock κ υ} {t t' : Table ρ}
    (h : ∀ ℓ' ∈ locks w, agree ℓ' t t') (hℓ : agree ℓ t t') :
    agree ℓ (apply w t) (apply w t') := by
  cases w with
  | insert row =>
    show agree ℓ (t.insert row) (t'.insert row)
    have hconf := conflicts_congr h
    -- both tables see the same conflict, since that is decided under the locks of the insert
    cases hc : t.conflicts row with
    | true =>
      rw [insert_of_conflict hc, insert_of_conflict (hconf ▸ hc)]
      exact hℓ
    | false =>
      have hc' : t'.conflicts row = false := hconf ▸ hc
      cases ℓ with
      | row k =>
        show (t.insert row).get k = (t'.insert row).get k
        rw [get_insert hc, get_insert hc', show t.get k = t'.get k from hℓ]
      | unique u =>
        show (t.insert row).taken u = (t'.insert row).taken u
        rw [taken_insert hc, taken_insert hc', show t.taken u = t'.taken u from hℓ]
      | children u =>
        show (t.insert row).children u = (t'.insert row).children u
        rw [children_insert hc, children_insert hc', show t.children u = t'.children u from hℓ]
  | update old new =>
    show agree ℓ (t.update old new) (t'.update old new)
    obtain ⟨hsucc, hclash⟩ := update_congr h
    by_cases hup : t.succeeds old new = true ∧ t.clashes old new = false
    · have hup' : t'.succeeds old new = true ∧ t'.clashes old new = false := by
        rw [← hsucc, ← hclash]
        exact hup
      cases ℓ with
      | row k =>
        show (t.update old new).get k = (t'.update old new).get k
        rw [get_update hup.1 hup.2, get_update hup'.1 hup'.2, show t.get k = t'.get k from hℓ]
      | unique u =>
        show (t.update old new).taken u = (t'.update old new).taken u
        by_cases hu : u ∈ uniques old ↔ u ∈ uniques new
        · rw [taken_update hup.1 hup.2 hu, taken_update hup'.1 hup'.2 hu]
          exact hℓ
        · -- a value brought in is taken afterwards, one given up is free
          by_cases hnew : u ∈ uniques new
          · have htaken : ∀ s : Table ρ, s.succeeds old new = true → s.clashes old new = false →
                (s.update old new).taken u = true := by
              intro s hs hc
              exact taken_eq_true.mpr ⟨new, (mem_update hs hc).mpr (Or.inl rfl), hnew⟩
            rw [htaken t hup.1 hup.2, htaken t' hup'.1 hup'.2]
          -- the row that gave the value up was the only one that had it
          · have hold : u ∈ uniques old := by
              by_contra hold
              exact hu ⟨fun h => absurd h hold, fun h => absurd h hnew⟩
            have hfree : ∀ s : Table ρ, s.succeeds old new = true → s.clashes old new = false →
                (s.update old new).taken u = false := by
              intro s hs hc
              obtain ⟨r₀, hget, hu₀, -⟩ := succeeds_eq_true.mp hs
              rw [taken_eq_false]
              intro r hr hur
              rcases (mem_update hs hc).mp hr with rfl | ⟨hr, hne⟩
              · exact hnew hur
              · have hr₀ := s.eq_of_unique_mem hr (mem_of_get hget) hur (hu₀ ▸ hold)
                exact hne (hr₀ ▸ key_of_get hget)
            rw [hfree t hup.1 hup.2, hfree t' hup'.1 hup'.2]
      | children u =>
        show (t.update old new).children u = (t'.update old new).children u
        rw [children_update hup.1 hup.2, children_update hup'.1 hup'.2,
          show t.children u = t'.children u from hℓ]
    · have hup' : ¬(t'.succeeds old new = true ∧ t'.clashes old new = false) := by
        rw [← hsucc, ← hclash]
        exact hup
      rw [update_of_not hup, update_of_not hup']
      exact hℓ

/-! ## How a table grows -/

/-- Every row of `t` is still in `t'`, unchanged or under a higher version.  Rows are never deleted,
    so this is the order in which the committed states of a run follow each other. -/
def earlier (t t' : Table ρ) : Prop :=
  ∀ k r, t.get k = some r → ∃ r', t'.get k = some r' ∧
    (r' = r ∨ version r < version r')

omit [DecidableEq υ] in
/-- A table is no later than itself. -/
theorem earlier_refl (t : Table ρ) : earlier t t := fun _ r h => ⟨r, h, Or.inl rfl⟩

omit [DecidableEq υ] in
/-- What was unchanged twice is unchanged, and versions only go up. -/
theorem earlier_trans {t t' t'' : Table ρ} (h : earlier t t') (h' : earlier t' t'') :
    earlier t t'' := by
  intro k r hr
  obtain ⟨r', hr', hrr'⟩ := h k r hr
  obtain ⟨r'', hr'', hrr''⟩ := h' k r' hr'
  refine ⟨r'', hr'', ?_⟩
  rcases hrr' with rfl | hlt
  · exact hrr''
  · rcases hrr'' with rfl | hlt'
    · exact Or.inr hlt
    · exact Or.inr (by omega)

omit [DecidableEq υ] in
/-- A row read earlier whose version is still current is the current row.  The version is what an
    optimistic session compares, and by this lemma the comparison is as good as one of the whole
    row. -/
theorem eq_of_version_eq {t t' : Table ρ} (h : earlier t t') {k : κ} {r r' : ρ}
    (hr : t.get k = some r) (hr' : t'.get k = some r') (hv : version r' = version r) : r' = r := by
  obtain ⟨s, hs, heq | hlt⟩ := h k r hr
  · rw [hr'] at hs
    exact (Option.some.inj hs).trans heq
  · rw [hr'] at hs
    cases Option.some.inj hs
    omega

/-- A table only grows: an insert leaves the rows there are, and an update puts the next version
    where a row stood. -/
theorem earlier_apply (w : TableWrite ρ) (t : Table ρ) : earlier t (apply w t) := by
  intro k r hr
  cases w with
  | insert row =>
    show ∃ r', (t.insert row).get k = some r' ∧ _
    cases hc : t.conflicts row with
    | true =>
      rw [insert_of_conflict hc]
      exact ⟨r, hr, Or.inl rfl⟩
    | false =>
      have hne : key row ≠ k := by
        intro hk
        exact (conflicts_eq_false.mp hc r (mem_of_get hr)).1 ((key_of_get hr).trans hk.symm)
      exact ⟨r, by rw [get_insert hc, if_neg hne, hr], Or.inl rfl⟩
  | update old new =>
    show ∃ r', (t.update old new).get k = some r' ∧ _
    by_cases hup : t.succeeds old new = true ∧ t.clashes old new = false
    · rw [get_update hup.1 hup.2]
      by_cases hk : key new = k
      · obtain ⟨r₀, hget, -, -, hv⟩ := succeeds_eq_true.mp hup.1
        rw [hk, hr] at hget
        cases Option.some.inj hget
        exact ⟨new, by rw [if_pos hk], Or.inr (by omega)⟩
      · exact ⟨r, by rw [if_neg hk, hr], Or.inl rfl⟩
    · rw [update_of_not hup]
      exact ⟨r, hr, Or.inl rfl⟩

/-- One write on both sides keeps the order, if the two tables agree on its locks.  Then the write
    takes effect on both or on neither, and where it takes effect it puts the same row into both. -/
theorem apply_mono {w : TableWrite ρ} {t t' : Table ρ} (h : earlier t t')
    (hlocks : ∀ ℓ ∈ locks w, agree ℓ t t') : earlier (apply w t) (apply w t') := by
  intro k r hr
  cases w with
  | insert row =>
    have hconf := conflicts_congr hlocks
    cases hc : t.conflicts row with
    | true =>
      have hr' : t.get k = some r := by
        rw [← insert_of_conflict hc]
        exact hr
      rw [show apply (.insert row) t' = t' from insert_of_conflict (hconf ▸ hc)]
      exact h k r hr'
    | false =>
      have hc' : t'.conflicts row = false := hconf ▸ hc
      rw [show apply (.insert row) t = t.insert row from rfl, get_insert hc] at hr
      rw [show apply (.insert row) t' = t'.insert row from rfl, get_insert hc']
      split at hr
      · rename_i hk
        exact ⟨r, by rw [if_pos hk, hr], Or.inl rfl⟩
      · rename_i hk
        rw [if_neg hk]
        exact h k r hr
  | update old new =>
    obtain ⟨hsucc, hclash⟩ := update_congr hlocks
    by_cases hup : t.succeeds old new = true ∧ t.clashes old new = false
    · have hup' : t'.succeeds old new = true ∧ t'.clashes old new = false := by
        rw [← hsucc, ← hclash]
        exact hup
      rw [show apply (.update old new) t = t.update old new from rfl,
        get_update hup.1 hup.2] at hr
      rw [show apply (.update old new) t' = t'.update old new from rfl, get_update hup'.1 hup'.2]
      split at hr
      · rename_i hk
        exact ⟨r, by rw [if_pos hk, hr], Or.inl rfl⟩
      · rename_i hk
        rw [if_neg hk]
        exact h k r hr
    · have hup' : ¬(t'.succeeds old new = true ∧ t'.clashes old new = false) := by
        rw [← hsucc, ← hclash]
        exact hup
      rw [show apply (.update old new) t = t.update old new from rfl, update_of_not hup] at hr
      rw [show apply (.update old new) t' = t'.update old new from rfl, update_of_not hup']
      exact h k r hr

end Table

end Relational
