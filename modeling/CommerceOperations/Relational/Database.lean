/-
  Databases and the statements of an object-relational session.

  A `Database R` holds a `Table (R i)` for each table name `i`; its writes and locks name the
  table they are about, and it is a `Store`.

  The statements are those a session issues:

  * `selectForUpdate` — the first row with a property, locked, its `childLocks` included;
  * `insert`          — a new row, or an integrity error;
  * `updateWhere`     — a conditional UPDATE of one row by key: the condition is tested on the row
                        as it stands, and the row found is locked;
  * `flush`           — the UPDATE a session issues for an object it changed.  It names the version
                        the object was loaded with and fails if that is no longer current; an
                        object without a net change is not written.

  `writes P bad p` says that every write of `p` is in `P` and that it raises nothing `bad`,
  whatever it reads.  A relation that each such write respects then holds between its start and
  its end (`ensures_of_writes`, `post_of_writes`); for `P` the writes to some tables, the others
  are as before (`ensures_of_confined`, `post_of_confined`).
-/
import CommerceOperations.Relational.ReadCommitted

namespace Relational

open Store

variable {τ κ υ : Type}

/-- A table for each name.  The tables may be of different entities, but their keys and unique
    values are of one type, so that locks on different tables can be kept in one list. -/
structure Database (R : τ → Type) {κ υ : Type} [∀ i, Row (R i) κ υ] where
  /-- The table of a name. -/
  table : ∀ i, Table (R i)

/-- A write of one row of the table named. -/
structure Write (R : τ → Type) where
  /-- The table that is written. -/
  table : τ
  /-- What is written to it. -/
  write : TableWrite (R table)

/-- A lock on the table named: on one of its rows, or on a value that must stay unique. -/
structure Lock (τ κ υ : Type) where
  /-- The table that the lock is on. -/
  table : τ
  /-- What is locked there. -/
  lock : TableLock κ υ

namespace Database

variable [DecidableEq τ] [DecidableEq κ] [DecidableEq υ]
variable {R : τ → Type} [∀ i, Row (R i) κ υ]

/-- The effect of a write on its table.  The other tables are those of `D`, and the equations below
    say so; this is the frame of every statement of a modelled service. -/
def apply (w : Write R) (D : Database R) : Database R where
  table := Function.update D.table w.table (Table.apply w.write (D.table w.table))

/-- The table that is written has the write applied. -/
@[simp] theorem apply_table_self (i : τ) (w : TableWrite (R i)) (D : Database R) :
    (apply ⟨i, w⟩ D).table i = Table.apply w (D.table i) := Function.update_self ..

/-- The other tables are as before. -/
theorem apply_table_of_ne (w : Write R) (D : Database R) {i : τ} (h : i ≠ w.table) :
    (apply w D).table i = D.table i := Function.update_of_ne h ..

instance : Store (Database R) (Write R) (Lock τ κ υ) where
  apply := apply
  locks w := (Table.locks w.write).map (Lock.mk w.table)
  agree ℓ D D' := Table.agree ℓ.lock (D.table ℓ.table) (D'.table ℓ.table)
  earlier D D' := ∀ i, Table.earlier (D.table i) (D'.table i)
  agree_refl ℓ D := Table.agree_refl ℓ.lock _
  agree_symm := Table.agree_symm
  agree_trans := Table.agree_trans
  apply_agree := by
    intro w ℓ h D
    by_cases hi : ℓ.table = w.table
    · obtain ⟨i, ℓ⟩ := ℓ
      obtain ⟨i', w⟩ := w
      obtain rfl : i = i' := hi
      show Table.agree ℓ (D.table i) ((apply ⟨i, w⟩ D).table i)
      rw [apply_table_self]
      refine Table.apply_agree w (fun hℓ => h ?_) _
      exact List.mem_map_of_mem hℓ
    · rw [apply_table_of_ne w D hi]
      exact Table.agree_refl ℓ.lock _
  apply_congr := by
    intro w ℓ D D' h hℓ
    by_cases hi : ℓ.table = w.table
    · obtain ⟨i, ℓ⟩ := ℓ
      obtain ⟨i', w⟩ := w
      obtain rfl : i = i' := hi
      show Table.agree ℓ ((apply ⟨i, w⟩ D).table i) ((apply ⟨i, w⟩ D').table i)
      rw [apply_table_self, apply_table_self]
      exact Table.apply_congr (fun ℓ' hℓ' => h ⟨i, ℓ'⟩ (List.mem_map_of_mem hℓ')) hℓ
    · rw [apply_table_of_ne w D hi, apply_table_of_ne w D' hi]
      exact hℓ
  earlier_refl D i := Table.earlier_refl _
  earlier_trans h h' i := Table.earlier_trans (h i) (h' i)
  earlier_apply := by
    intro w D i
    by_cases hi : i = w.table
    · obtain ⟨i', w⟩ := w
      obtain rfl : i = i' := hi
      rw [apply_table_self]
      exact Table.earlier_apply w _
    · rw [apply_table_of_ne w D hi]
      exact Table.earlier_refl _
  apply_mono := by
    intro w D D' h hlocks i
    by_cases hi : i = w.table
    · obtain ⟨i', w⟩ := w
      obtain rfl : i = i' := hi
      rw [apply_table_self, apply_table_self]
      exact Table.apply_mono (h i) fun ℓ hℓ => hlocks ⟨i, ℓ⟩ (List.mem_map_of_mem hℓ)
    · rw [apply_table_of_ne w D hi, apply_table_of_ne w D' hi]
      exact h i

omit [DecidableEq τ] [DecidableEq κ] [DecidableEq υ] in
/-- Databases are told apart by their tables. -/
@[ext] theorem ext {D D' : Database R} (h : ∀ i, D.table i = D'.table i) : D = D' := by
  cases D
  cases D'
  congr
  funext i
  exact h i

/-- The write of the store is the one defined here; proofs go from one to the other by it. -/
theorem apply_eq (w : Write R) (D : Database R) : Store.apply w D = apply w D := rfl

/-- The tables outside `T` are the same.  A service that writes some tables is known by its `T`, and
    what is proved about the other tables needs no look at its code. -/
def SameOff (T : τ → Prop) (D D' : Database R) : Prop := ∀ i, ¬T i → D'.table i = D.table i

omit [DecidableEq τ] [DecidableEq κ] [DecidableEq υ] in
/-- A state agrees with itself on every table. -/
theorem SameOff.refl (T : τ → Prop) (D : Database R) : SameOff T D D := fun _ _ => rfl

omit [DecidableEq τ] [DecidableEq κ] [DecidableEq υ] in
/-- Tables that two programs leave alone, their sequence leaves alone. -/
theorem SameOff.trans {T : τ → Prop} {D D' D'' : Database R} (h : SameOff T D D')
    (h' : SameOff T D' D'') : SameOff T D D'' := fun i hi => (h' i hi).trans (h i hi)

/-- A write to a table of `T` leaves the tables outside as they are. -/
theorem SameOff.apply {T : τ → Prop} (w : Write R) (D : Database R) (hw : T w.table) :
    SameOff T D (Database.apply w D) := by
  intro i hi
  refine apply_table_of_ne w D ?_
  rintro rfl
  exact hi hw

end Database

/-! ## Statements -/

/-- The exceptions the database raises: a constraint of a table, with the unique values that were
    taken, and an UPDATE that found no row of its version. -/
class SqlErrors (E : Type) (τ υ : outParam Type) where
  /-- A constraint of the table is broken; the unique values are those that were taken. -/
  integrityError : τ → List υ → E
  /-- A flush found no row of the version it had loaded. -/
  staleDataError : E

/-- What a row selected for update keeps out besides other writers: new children.  PostgreSQL takes
    a share lock on the parent when a child is inserted, so a session that holds the parent for
    update knows the children that there are. -/
class ForeignKeys (R : τ → Type) (κ υ : outParam Type) where
  /-- The locks on the children that come with a row selected for update. -/
  childLocks : ∀ i, R i → List (Lock τ κ υ)

namespace Prog

variable [DecidableEq τ] [DecidableEq κ] [DecidableEq υ]
variable {R : τ → Type} [∀ i, Row (R i) κ υ] {ι E α β : Type}

/-- Transactions on a database, as programs over its writes and locks. -/
abbrev Sql (R : τ → Type) {κ υ : Type} [∀ i, Row (R i) κ υ] (ι E α : Type) : Type :=
  Prog (Database R) (Write R) (Lock τ κ υ) ι E α

section Select

variable [ForeignKeys R κ υ]

/-- The locks of `SELECT .. FOR UPDATE` on a row. -/
def rowLocks (i : τ) (r : R i) : List (Lock τ κ υ) :=
  ⟨i, .row (Row.key r)⟩ :: ForeignKeys.childLocks i r

/-- The first row of table `i` with the property `p`, locked until the end.  Where no row has the
    property nothing is locked, and one may appear before the transaction commits. -/
def selectForUpdate (i : τ) (p : R i → Bool) : Sql R ι E (Option (R i)) :=
  stmt (fun D => ((D.table i).rows.find? p).toList.flatMap (rowLocks i)) (fun _ => [])
    fun D => done ((D.table i).rows.find? p)

/-- All rows of table `i` that `sel` picks, locked until the end; `sel` may order them and take some
    from the front. -/
def selectAllForUpdate (i : τ) (sel : Table (R i) → List (R i)) : Sql R ι E (List (R i)) :=
  stmt (fun D => (sel (D.table i)).flatMap (rowLocks i)) (fun _ => [])
    fun D => done (sel (D.table i))

end Select

/-- A statement that writes: `f` says what, on the state it sees, or which exception it raises.  An
    exception is raised without a write, as a statement that fails has no effect of its own. -/
def statement (f : Database R → Except E (List (Write R) × α)) : Sql R ι E α :=
  stmt (fun _ => [])
    (fun D => match f D with
      | .ok (ws, _) => ws
      | .error _ => [])
    fun D => match f D with
      | .ok (_, a) => done a
      | .error e => raise e

variable [SqlErrors E τ υ]

/-- A new row, unless it breaks a constraint.  The exception names the unique values that were
    taken, which is all that the code can tell from it; a taken key alone is an error with no such
    value. -/
def insert (i : τ) (row : R i) : Sql R ι E (R i) :=
  statement fun D =>
    if (D.table i).conflicts row then
      .error (SqlErrors.integrityError i ((Row.uniques row).filter (D.table i).taken))
    else .ok ([⟨i, .insert row⟩], row)

/-- The next version of `old` with the columns of `new`.  What the version of `new` was does not
    matter: a session counts from the row it found. -/
def nextVersion (i : τ) (old new : R i) : R i := Row.withVersion new (Row.version old + 1)

omit [DecidableEq τ] in
/-- The row found is succeeded by its next version.  So an update that a session issues for a row
    under its lock is never the one that the table refuses. -/
theorem succeeds_nextVersion {i : τ} {t : Table (R i)} {k : κ} {r new : R i}
    (hget : t.get k = some r) (hk : Row.key new = Row.key r)
    (hp : Row.parents r = Row.parents new) : t.succeeds r (nextVersion i r new) = true := by
  refine Table.succeeds_of_get ?_ ?_ ?_
  · rw [nextVersion, Row.key_withVersion, hk, Table.key_of_get hget]
    exact hget
  · rw [nextVersion, Row.parents_withVersion, hp]
  · simp [nextVersion]

omit [DecidableEq τ] [DecidableEq κ] in
/-- The version is no unique value, and a clash does not depend on it. -/
theorem clashes_nextVersion {i : τ} {t : Table (R i)} {r new : R i}
    (h : t.clashes r new = false) : t.clashes r (nextVersion i r new) = false := by
  simpa [Table.clashes, nextVersion] using h

/-- Write `new` over `old`, or report that one of its unique values is taken. -/
def replace (i : τ) (old new : R i) (D : Database R) : Except E (List (Write R) × R i) :=
  if (D.table i).clashes old new then
    .error (SqlErrors.integrityError i ((Row.uniques new).filter (D.table i).taken))
  else .ok ([⟨i, .update old (nextVersion i old new)⟩], nextVersion i old new)

/-- `UPDATE i SET set WHERE key = k AND cond RETURNING ..`; the version moves on by one.  The
    condition is tested on the row as it stands when the statement has its lock, which is what makes
    the reservations of two orders safe without a lock taken before. -/
def updateWhere (i : τ) (k : κ) (cond : R i → Bool) (set : R i → R i) :
    Sql R ι E (Option (R i)) :=
  statement fun D =>
    match (D.table i).get k with
    | some r =>
      if cond r then (replace i r (set r) D).map fun x => (x.1, some x.2) else .ok ([], none)
    | none => .ok ([], none)

/-- Write the object loaded as `loaded` and changed to `new`, if it changed at all.  The statement
    names the version that was loaded; if the row has another one by now, or is gone, it finds no
    row and the session reports stale data. -/
def flush (i : τ) [DecidableEq (R i)] (loaded new : R i) : Sql R ι E (R i) :=
  if new = loaded then done loaded else
    statement fun D =>
      match (D.table i).get (Row.key loaded) with
      | some r =>
        if Row.version r = Row.version loaded then replace i r new D
        else .error SqlErrors.staleDataError
      | none => .error SqlErrors.staleDataError

/-! ### A statement asks the environment nothing -/

section Under

omit [DecidableEq τ] [DecidableEq κ] [DecidableEq υ] [SqlErrors E τ υ] in
/-- A statement is the same under any clock. -/
theorem under_statement (g : ι → ι) (f : Database R → Except E (List (Write R) × α)) :
    (statement f).under g = statement f := by
  refine congrArg (stmt _ _) (funext fun D => ?_)
  dsimp only
  cases f D with
  | ok a => rfl
  | error e => rfl

omit [DecidableEq τ] in
/-- An INSERT asks the environment nothing. -/
theorem under_insert (g : ι → ι) (i : τ) (row : R i) :
    (insert i row : Sql R ι E (R i)).under g = insert i row := under_statement g _

omit [DecidableEq τ] in
/-- A flush asks the environment nothing. -/
theorem under_flush (g : ι → ι) {i : τ} [DecidableEq (R i)] (loaded new : R i) :
    (flush i loaded new : Sql R ι E (R i)).under g = flush i loaded new := by
  unfold flush
  split
  · rfl
  · exact under_statement g _

variable {g g' : ι → ι} {D : Database R}

/-- An INSERT ends alike under any two clocks. -/
theorem SameUnder.insert (i : τ) (row : R i) :
    SameUnder g g' D (insert i row : Sql R ι E (R i)) := by
  refine of_eq ?_
  rw [under_insert, under_insert]

/-- A flush ends alike under any two clocks. -/
theorem SameUnder.flush {i : τ} [DecidableEq (R i)] (loaded new : R i) :
    SameUnder g g' D (flush i loaded new : Sql R ι E (R i)) := by
  refine of_eq ?_
  rw [under_flush, under_flush]

end Under

/-! ### What a statement does among others -/

section Ensures

variable {bad : E → Prop} {pt : Point (Database R) (Lock τ κ υ)}

omit [SqlErrors E τ υ] in
/-- A row found and locked is the row of the view; nothing is known when none was found.  The view
    is the state the transaction will commit on, with its writes; the lock is what ties the row just
    read to it. -/
theorem ensures_selectForUpdate [ForeignKeys R κ υ] {i : τ} {p : R i → Bool}
    {Q : Option (R i) → Point (Database R) (Lock τ κ υ) → Prop}
    (hsome : ∀ r held seen, pt.held ⊆ held → rowLocks i r ⊆ held → p r = true →
      (pt.view.table i).get (Row.key r) = some r → Q (some r) ⟨held, seen, pt.view⟩)
    (hnone : ∀ held seen, pt.held ⊆ held → Q none ⟨held, seen, pt.view⟩) :
    (selectForUpdate i p : Sql R ι E _).ensures bad pt Q := by
  intro V _ hagree
  show ensures bad (done ((V.table i).rows.find? p)) _ Q
  cases hfind : (V.table i).rows.find? p with
  | none => exact hnone _ _ fun ℓ hℓ => List.mem_append_left _ hℓ
  | some r =>
    simp only [hfind, Option.toList_some, List.flatMap_cons, List.flatMap_nil] at hagree ⊢
    refine hsome r _ _ (fun ℓ hℓ => List.mem_append_left _ hℓ) ?_ (List.find?_some hfind) ?_
    · intro ℓ hℓ
      simp [hℓ]
    · have hget : (V.table i).get (Row.key r) = (pt.view.table i).get (Row.key r) :=
        hagree ⟨i, .row (Row.key r)⟩ (by simp [rowLocks])
      rw [← hget]
      exact Table.get_of_mem (List.mem_of_find?_eq_some hfind)

omit [SqlErrors E τ υ] in
/-- The rule of a statement that writes.  It sees some state `V`; if it writes, it locks what it
    writes, so that `V` and the view agree there, and both take the writes.  If it raises, the
    transaction is over, and what it saw may be taken for the view. -/
theorem ensures_statement {f : Database R → Except E (List (Write R) × α)}
    {Q : α → Point (Database R) (Lock τ κ υ) → Prop}
    (hok : ∀ V ws a, f V = .ok (ws, a) → agreeOn (locksOf (Database R) ws) V pt.view →
      ∀ held, pt.held ⊆ held → Q a ⟨held, applyAll ws V, applyAll ws pt.view⟩)
    (herror : ∀ V e, f V = .error e → V = pt.view → ¬bad e) :
    (statement f : Sql R ι E α).ensures bad pt Q := by
  intro V _ hagree
  cases hf : f V with
  | error e =>
    simp only [hf]
    exact herror V e hf
  | ok x =>
    simp only [hf] at hagree ⊢
    refine hok V x.1 x.2 hf (fun ℓ hℓ => hagree ℓ ?_) _ fun ℓ hℓ => List.mem_append_left _ hℓ
    simp [hℓ]

/-- An INSERT that went through met no conflict in the view either: whether there is one is decided
    under the locks it takes. -/
theorem ensures_insert {i : τ} {row : R i}
    {Q : R i → Point (Database R) (Lock τ κ υ) → Prop}
    (h : (pt.view.table i).conflicts row = false → ∀ held seen, pt.held ⊆ held →
      Q row ⟨held, seen, Database.apply ⟨i, .insert row⟩ pt.view⟩)
    (hbad : ∀ us, ¬bad (SqlErrors.integrityError i us)) :
    (insert i row : Sql R ι E _).ensures bad pt Q := by
  refine ensures_statement ?_ ?_
  · intro V ws a hf hagree held hheld
    split at hf
    · cases hf
    · rename_i hconf
      simp only [Except.ok.injEq, Prod.mk.injEq] at hf
      obtain ⟨rfl, rfl⟩ := hf
      refine h ?_ held _ hheld
      rw [← Bool.not_eq_true, ← Table.conflicts_congr (t := V.table i)]
      · exact hconf
      · intro ℓ hℓ
        exact hagree ⟨i, ℓ⟩ (by simpa [locksOf, locks] using hℓ)
  · intro V e hf _
    split at hf
    · cases hf
      exact hbad _
    · cases hf

/-- The locks of a replaced row decide the replacement.  What was the row and free of clashes in the
    state that the statement saw is so in the view, and the same update takes effect on both. -/
theorem replace_ok {i : τ} {old new row : R i} {V D : Database R} {ws : List (Write R)}
    (h : (replace i old new V : Except E _) = .ok (ws, row))
    (hagree : agreeOn (locksOf (Database R) ws) V D) (hk : Row.key new = Row.key old)
    (hp : Row.parents old = Row.parents new)
    (hV : (V.table i).get (Row.key old) = some old) :
    ws = [⟨i, .update old row⟩] ∧ row = nextVersion i old new ∧
      (D.table i).get (Row.key old) = some old ∧ (D.table i).succeeds old row = true ∧
      (D.table i).clashes old row = false := by
  unfold replace at h
  split at h
  · cases h
  · rename_i hclash
    simp only [Except.ok.injEq, Prod.mk.injEq] at h
    obtain ⟨rfl, rfl⟩ := h
    have hlocks : ∀ ℓ ∈ Table.locks (.update old (nextVersion i old new)),
        Table.agree ℓ (V.table i) (D.table i) := fun ℓ hℓ =>
      hagree ⟨i, ℓ⟩ (by simpa [locksOf, locks] using hℓ)
    have hget : (D.table i).get (Row.key old) = some old := by
      rw [← hV]
      refine (hlocks (.row (Row.key old)) ?_).symm
      simp [Table.locks, nextVersion, hk]
    refine ⟨rfl, rfl, hget, ?_, ?_⟩
    · exact succeeds_nextVersion hget hk hp
    · rw [← (Table.update_congr hlocks).2]
      exact clashes_nextVersion (by simpa using hclash)

/-- A conditional UPDATE that found its row found the row of the view; one that did not says only
    what it saw.  This is why a failed condition is no proof that the condition fails when the
    transaction commits, and why the code tests for it again. -/
theorem ensures_updateWhere {i : τ} {k : κ} {cond : R i → Bool} {set : R i → R i}
    {Q : Option (R i) → Point (Database R) (Lock τ κ υ) → Prop}
    (hset : ∀ r, Row.key (set r) = Row.key r ∧ Row.parents r = Row.parents (set r))
    (hsome : ∀ r row held seen, pt.held ⊆ held → (pt.view.table i).get k = some r →
      cond r = true →
      row = nextVersion i r (set r) → (pt.view.table i).succeeds r row = true →
      (pt.view.table i).clashes r row = false →
      Q (some row) ⟨held, seen, Database.apply ⟨i, .update r row⟩ pt.view⟩)
    (hnone : ∀ held seen, pt.held ⊆ held →
      (∀ r, (seen.table i).get k = some r → cond r = false) → Q none ⟨held, seen, pt.view⟩)
    (hbad : ∀ us, ¬bad (SqlErrors.integrityError i us)) :
    (updateWhere i k cond set : Sql R ι E _).ensures bad pt Q := by
  refine ensures_statement ?_ ?_
  · intro V ws a hf hagree held hheld
    cases hget : (V.table i).get k with
    | none =>
      simp only [hget, Except.ok.injEq, Prod.mk.injEq] at hf
      obtain ⟨rfl, rfl⟩ := hf
      refine hnone held V hheld fun r hr => ?_
      rw [hget] at hr
      cases hr
    | some r =>
      cases hc : cond r with
      -- the row of the view fails the condition, and nothing is written
      | false =>
        simp only [hget, hc, Bool.false_eq_true, if_false, Except.ok.injEq, Prod.mk.injEq] at hf
        obtain ⟨rfl, rfl⟩ := hf
        refine hnone held V hheld fun r' hr' => ?_
        rw [hget] at hr'
        cases hr'
        exact hc
      | true =>
        cases hrep : (replace i r (set r) V : Except E _) with
        | error e =>
          rw [hget] at hf
          simp [hc, hrep, Except.map] at hf
        | ok x =>
          obtain ⟨ws', row⟩ := x
          simp only [hget, hc, if_true, hrep, Except.map, Except.ok.injEq, Prod.mk.injEq] at hf
          obtain ⟨rfl, rfl⟩ := hf
          have hk := Table.key_of_get hget
          obtain ⟨rfl, hrow, hget', hs, hcl⟩ :=
            replace_ok hrep hagree (hset r).1 (hset r).2 (by rw [hk, hget])
          rw [hk] at hget'
          exact hsome r row held _ hheld hget' hc hrow hs hcl
  -- the only error an UPDATE raises is a violated constraint
  · intro V e hf _
    split at hf
    · split at hf
      · unfold replace at hf
        split at hf
        · cases hf
          exact hbad _
        · cases hf
      · cases hf
    · cases hf

/-- A flush that went through replaced a row of the version loaded.  By `eq_of_version_eq` that row
    is the one loaded, so nothing that the session read of the object has changed.  (No flushed
    table has foreign keys that are locked.) -/
theorem ensures_flush {i : τ} [DecidableEq (R i)] {loaded new : R i}
    {Q : R i → Point (Database R) (Lock τ κ υ) → Prop}
    (hkey : Row.key new = Row.key loaded)
    (hparents : ∀ r : R i, Row.parents r = Row.parents new)
    (hsame : new = loaded → Q loaded pt)
    (hnew : new ≠ loaded → ∀ r row held seen, pt.held ⊆ held →
      (pt.view.table i).get (Row.key loaded) = some r →
      Row.version r = Row.version loaded → row = nextVersion i r new →
      (pt.view.table i).succeeds r row = true → (pt.view.table i).clashes r row = false →
      Q row ⟨held, seen, Database.apply ⟨i, .update r row⟩ pt.view⟩)
    (hbad : ∀ us, ¬bad (SqlErrors.integrityError i us))
    (hstale : ¬bad SqlErrors.staleDataError) :
    (flush i loaded new : Sql R ι E _).ensures bad pt Q := by
  unfold flush
  split
  · rename_i heq
    exact hsame heq
  · rename_i hne
    refine ensures_statement ?_ ?_
    · intro V ws a hf hagree held hheld
      cases hget : (V.table i).get (Row.key loaded) with
      | none => simp [hget] at hf
      | some r =>
        simp only [hget] at hf
        split at hf
        · rename_i hv
          have hk := Table.key_of_get hget
          obtain ⟨rfl, hrow, hget', hs, hcl⟩ :=
            replace_ok hf hagree (hkey.trans hk.symm) (hparents r) (by rw [hk, hget])
          rw [hk] at hget'
          exact hnew hne r a held _ hheld hget' hv hrow hs hcl
        · cases hf
    · intro V e hf _
      split at hf
      · split at hf
        · unfold replace at hf
          split at hf
          · cases hf
            exact hbad _
          · cases hf
        · cases hf
          exact hstale
      · cases hf
        exact hstale

end Ensures

/-! ### What a statement does alone -/

section Post

variable {D : Database R} {P : E → Prop}

omit [SqlErrors E τ υ] in
/-- Alone, a locking read returns the first row there is. -/
@[simp] theorem post_selectForUpdate [ForeignKeys R κ υ] {i : τ} {p : R i → Bool}
    {Q : Option (R i) → Database R → Prop} :
    (selectForUpdate i p : Sql R ι E _).post D Q P ↔ Q ((D.table i).rows.find? p) D := Iff.rfl

omit [SqlErrors E τ υ] in
/-- A run of a locking read, taken apart: it returns what is there, and changes nothing. -/
theorem runs_selectForUpdate [ForeignKeys R κ υ] {i : τ} {p : R i → Bool} {a : Option (R i)}
    {D' : Database R} :
    (selectForUpdate i p : Sql R ι E _).runs D (.ok (a, D')) ↔
      a = (D.table i).rows.find? p ∧ D = D' := by
  simp [selectForUpdate, runs, eq_comm]

omit [SqlErrors E τ υ] in
/-- Alone, it returns the rows that are picked. -/
@[simp] theorem post_selectAllForUpdate [ForeignKeys R κ υ] {i : τ} {sel : Table (R i) → List (R i)}
    {Q : List (R i) → Database R → Prop} :
    (selectAllForUpdate i sel : Sql R ι E _).post D Q P ↔ Q (sel (D.table i)) D := Iff.rfl

omit [SqlErrors E τ υ] in
/-- A run of a locking read of several rows, taken apart: it returns what is there, and changes
    nothing. -/
theorem runs_selectAllForUpdate [ForeignKeys R κ υ] {i : τ} {sel : Table (R i) → List (R i)}
    {a : List (R i)} {D' : Database R} :
    (selectAllForUpdate i sel : Sql R ι E _).runs D (.ok (a, D')) ↔
      a = sel (D.table i) ∧ D = D' := by
  simp [selectAllForUpdate, runs, eq_comm]

omit [SqlErrors E τ υ] in
/-- Alone, a statement sees the state there is. -/
theorem post_statement {f : Database R → Except E (List (Write R) × α)}
    {Q : α → Database R → Prop} :
    (statement f : Sql R ι E α).post D Q P ↔
      (∀ ws a, f D = .ok (ws, a) → Q a (applyAll ws D)) ∧ ∀ e, f D = .error e → P e := by
  cases hf : f D with
  | error e => simp [statement, post, hf]
  | ok x =>
    obtain ⟨ws, a⟩ := x
    simp [statement, post, hf]

/-- An INSERT alone: it adds its row, or reports the values that are taken. -/
theorem post_insert {i : τ} {row : R i} {Q : R i → Database R → Prop} :
    (insert i row : Sql R ι E _).post D Q P ↔
      ((D.table i).conflicts row = false → Q row (Database.apply ⟨i, .insert row⟩ D)) ∧
        ((D.table i).conflicts row = true →
          P (SqlErrors.integrityError i ((Row.uniques row).filter (D.table i).taken))) := by
  rw [insert, post_statement]
  cases hc : (D.table i).conflicts row with
  | true => simp
  | false => simp [applyAll, Database.apply_eq]

/-- An UPDATE by key, of the row it finds: it writes the next version of a row with the condition,
    and otherwise nothing.  A clash may be raised as any exception. -/
theorem post_updateWhere {i : τ} {k : κ} {cond : R i → Bool} {set : R i → R i}
    {Q : Option (R i) → Database R → Prop}
    (hsome : ∀ r, (D.table i).get k = some r → cond r = true →
      (D.table i).clashes r (set r) = false →
      Q (some (nextVersion i r (set r)))
        (Database.apply ⟨i, .update r (nextVersion i r (set r))⟩ D))
    (hnone : (∀ r, (D.table i).get k = some r → cond r = false) → Q none D) (hP : ∀ e, P e) :
    (updateWhere i k cond set : Sql R ι E _).post D Q P := by
  refine post_statement.mpr ⟨?_, fun e _ => hP e⟩
  intro ws a hf
  cases hget : (D.table i).get k with
  | none =>
    simp only [hget, Except.ok.injEq, Prod.mk.injEq] at hf
    obtain ⟨rfl, rfl⟩ := hf
    exact hnone fun r hr => absurd (hr.symm.trans hget) (Option.some_ne_none r)
  | some r =>
    cases hc : cond r with
    | false =>
      simp only [hget, hc, Bool.false_eq_true, if_false, Except.ok.injEq, Prod.mk.injEq] at hf
      obtain ⟨rfl, rfl⟩ := hf
      refine hnone fun r' hr' => ?_
      rw [← Option.some.inj (hget.symm.trans hr')]
      exact hc
    | true =>
      simp only [hget, hc, if_true, replace] at hf
      split at hf
      · cases hf
      · rename_i hclash
        simp only [Except.map, Except.ok.injEq, Prod.mk.injEq] at hf
        obtain ⟨rfl, rfl⟩ := hf
        exact hsome r hget hc (by simpa using hclash)

/-- A flush of an object loaded from this state, or from one before.  Where the object has changed
    the row has the version loaded and there is no clash, or an exception is raised. -/
theorem post_flush {i : τ} [DecidableEq (R i)] {loaded new : R i}
    {Q : R i → Database R → Prop} (hsame : new = loaded → Q loaded D)
    (hnew : new ≠ loaded → ∀ r, (D.table i).get (Row.key loaded) = some r →
      Row.version r = Row.version loaded → (D.table i).clashes r new = false →
      Q (nextVersion i r new) (Database.apply ⟨i, .update r (nextVersion i r new)⟩ D))
    (hP : ∀ e, P e) :
    (flush i loaded new : Sql R ι E _).post D Q P := by
  unfold flush
  split
  · rename_i heq
    exact hsame heq
  · rename_i hne
    refine post_statement.mpr ⟨?_, fun e _ => hP e⟩
    intro ws a hf
    cases hget : (D.table i).get (Row.key loaded) with
    | none => simp [hget] at hf
    | some r =>
      simp only [hget, replace] at hf
      split at hf
      · rename_i hv
        split at hf
        · cases hf
        · rename_i hclash
          simp only [Except.ok.injEq, Prod.mk.injEq] at hf
          obtain ⟨rfl, rfl⟩ := hf
          exact hnew hne r hget hv (by simpa using hclash)
      · cases hf

/-- A column other than the version is as it was set, whether anything was written or not. -/
theorem column_of_flush {i : τ} [DecidableEq (R i)] {loaded new row : R i} {D' : Database R}
    {γ : Type} (f : R i → γ) (hf : ∀ v, f (Row.withVersion new v) = f new)
    (h : (flush i loaded new : Sql R ι E _).runs D (.ok (row, D'))) : f row = f new := by
  have hpost : (flush i loaded new : Sql R ι E _).post D (fun row _ => f row = f new)
      fun _ => True := by
    refine post_flush ?_ (fun _ r _ _ _ => hf _) fun _ => trivial
    rintro rfl
    rfl
  have hrow := of_post hpost h
  exact hrow

/-- A flush of an object that is current and keeps its unique values goes through: it is neither
    stale nor in a clash. -/
theorem post_flush_of_get {i : τ} [DecidableEq (R i)] {loaded new : R i}
    {Q : R i → Database R → Prop}
    (hget : (D.table i).get (Row.key loaded) = some loaded)
    (huniques : Row.uniques new = Row.uniques loaded) (hsame : new = loaded → Q loaded D)
    (hnew : new ≠ loaded → Q (nextVersion i loaded new)
      (Database.apply ⟨i, .update loaded (nextVersion i loaded new)⟩ D)) :
    (flush i loaded new : Sql R ι E _).post D Q P := by
  have hclash : (D.table i).clashes loaded new = false := Table.clashes_of_uniques_eq _ huniques
  unfold flush
  split
  · rename_i heq
    exact hsame heq
  · rename_i hne
    refine post_statement.mpr ⟨?_, ?_⟩
    · intro ws a hf
      simp only [hget, replace, hclash, if_true, Bool.false_eq_true, if_false, Except.ok.injEq,
        Prod.mk.injEq] at hf
      obtain ⟨rfl, rfl⟩ := hf
      exact hnew hne
    · intro e hf
      simp [hget, replace, hclash] at hf

/-- An UPDATE by key: it wrote the row it found, or found none. -/
theorem runs_updateWhere {i : τ} {k : κ} {cond : R i → Bool} {set : R i → R i}
    {row : Option (R i)} {D' : Database R}
    (h : (updateWhere i k cond set : Sql R ι E _).runs D (.ok (row, D'))) :
    (∃ r, (D.table i).get k = some r ∧ cond r = true ∧ (D.table i).clashes r (set r) = false ∧
        row = some (nextVersion i r (set r)) ∧
        D' = Database.apply ⟨i, .update r (nextVersion i r (set r))⟩ D) ∨
      (row = none ∧ D' = D) :=
  of_post (Q := fun row D' =>
    (∃ r, (D.table i).get k = some r ∧ cond r = true ∧ (D.table i).clashes r (set r) = false ∧
        row = some (nextVersion i r (set r)) ∧
        D' = Database.apply ⟨i, .update r (nextVersion i r (set r))⟩ D) ∨
      (row = none ∧ D' = D))
    (post_updateWhere (P := fun _ => True)
      (fun r hr hcond hclash => Or.inl ⟨r, hr, hcond, hclash, rfl, rfl⟩)
      (fun _ => Or.inr ⟨rfl, rfl⟩) fun _ => trivial) h

/-- An INSERT that went through added its row and met no conflict. -/
theorem runs_insert {i : τ} {row row' : R i} {D' : Database R} :
    (insert i row : Sql R ι E _).runs D (.ok (row', D')) ↔
      row' = row ∧ (D.table i).conflicts row = false ∧
        D' = Database.apply ⟨i, .insert row⟩ D := by
  unfold insert statement
  cases hc : (D.table i).conflicts row with
  | true => simp [runs, hc]
  | false => simp [runs, hc, applyAll, Database.apply_eq, eq_comm]

/-- A flush of an object that is current: the row takes its columns, at the next version if there is
    a net change.  Most updates of a service are of this kind, the object having been loaded under a
    lock in the same transaction. -/
theorem runs_flush {i : τ} [DecidableEq (R i)] {loaded new row : R i} {D' : Database R}
    (hkey : Row.key new = Row.key loaded) (hparents : Row.parents loaded = Row.parents new)
    (hget : (D.table i).get (Row.key loaded) = some loaded)
    (h : (flush i loaded new : Sql R ι E _).runs D (.ok (row, D'))) :
    (new = loaded ∧ row = loaded ∧ D' = D) ∨
      (new ≠ loaded ∧ row = nextVersion i loaded new ∧
        (D.table i).succeeds loaded row = true ∧ (D.table i).clashes loaded row = false ∧
        D' = Database.apply ⟨i, .update loaded row⟩ D) := by
  have hpost : (flush i loaded new : Sql R ι E _).post D (fun row D' =>
      (new = loaded ∧ row = loaded ∧ D' = D) ∨
        (new ≠ loaded ∧ row = nextVersion i loaded new ∧
          (D.table i).succeeds loaded row = true ∧ (D.table i).clashes loaded row = false ∧
          D' = Database.apply ⟨i, .update loaded row⟩ D)) fun _ => True := by
    refine post_flush (fun heq => Or.inl ⟨heq, rfl, rfl⟩) (fun hne r hr _ hclash => ?_)
      fun _ => trivial
    obtain rfl := Option.some.inj (hget.symm.trans hr)
    exact Or.inr ⟨hne, rfl, succeeds_nextVersion hget hkey hparents,
      clashes_nextVersion hclash, rfl⟩
  exact of_post (a := row) hpost h

/-- A flush of an object that is current, key by key; other tables are left alone.  This is the form
    in which a service's invariants meet a flush: they speak of rows by their keys. -/
theorem get_flush {i : τ} [DecidableEq (R i)] {loaded new row : R i} {D' : Database R}
    (hkey : Row.key new = Row.key loaded) (hparents : Row.parents loaded = Row.parents new)
    (hget : (D.table i).get (Row.key loaded) = some loaded)
    (h : (flush i loaded new : Sql R ι E _).runs D (.ok (row, D'))) :
    row = (if new = loaded then loaded else nextVersion i loaded new) ∧
      (∀ k, (D'.table i).get k = if Row.key loaded = k then some row else (D.table i).get k) ∧
        Database.SameOff (· = i) D D' := by
  rcases runs_flush hkey hparents hget h with ⟨heq, rfl, rfl⟩ | ⟨hne, hrow, hs, hc, rfl⟩
  · refine ⟨(if_pos heq).symm, fun k => ?_, Database.SameOff.refl _ D'⟩
    split
    · rename_i hk
      rw [← hk, hget]
    · rfl
  · refine ⟨hrow.trans (if_neg hne).symm, fun k => ?_, Database.SameOff.apply _ D rfl⟩
    have hkey' : Row.key row = Row.key loaded := by
      rw [hrow, nextVersion, Row.key_withVersion, hkey]
    rw [Database.apply_table_self]
    show ((D.table i).update loaded row).get k = _
    rw [Table.get_update hs hc, hkey']

omit [DecidableEq τ] [DecidableEq κ] [DecidableEq υ] [SqlErrors E τ υ] in
/-- What is flushed has the columns it was given. -/
theorem eq_of_flushed {i : τ} [DecidableEq (R i)] {loaded new row : R i} {γ : Type} (f : R i → γ)
    (hrow : row = if new = loaded then loaded else nextVersion i loaded new)
    (hf : ∀ v, f (Row.withVersion new v) = f new) : f row = f new := by
  rw [hrow]
  split
  · rename_i heq
    rw [heq]
  · exact hf _

/-- A flush with a net change.  A service that sets a status the row did not have, say, is always in
    this case. -/
theorem runs_flush_of_ne {i : τ} [DecidableEq (R i)] {loaded new row : R i} {D' : Database R}
    (hkey : Row.key new = Row.key loaded) (hparents : Row.parents loaded = Row.parents new)
    (hget : (D.table i).get (Row.key loaded) = some loaded) (hne : new ≠ loaded)
    (h : (flush i loaded new : Sql R ι E _).runs D (.ok (row, D'))) :
    row = nextVersion i loaded new ∧ (D.table i).succeeds loaded row = true ∧
      (D.table i).clashes loaded row = false ∧ D' = Database.apply ⟨i, .update loaded row⟩ D := by
  rcases runs_flush hkey hparents hget h with ⟨heq, -, -⟩ | ⟨-, hrest⟩
  · exact absurd heq hne
  · exact hrest

end Post

/-! ## What a program may write -/

/-- Every write of `p` is in `P`, and nothing it raises is `bad`, whatever it reads.  The reads are
    arbitrary here, so the property is seen from the code alone and holds among others as it does
    alone. -/
def writes (P : Write R → Prop) (bad : E → Prop) : Sql R ι E α → Prop
  | done _ => True
  | raise e => ¬bad e
  | ask next => ∀ i, (next i).writes P bad
  | stmt _ ws next => ∀ V, (∀ w ∈ ws V, P w) ∧ (next V).writes P bad

/-- `p` writes only tables in `T`, and raises nothing `bad`. -/
abbrev confined (T : τ → Prop) (bad : E → Prop) (p : Sql R ι E α) : Prop :=
  p.writes (fun w => T w.table) bad

section Writes

variable {P : Write R → Prop} {T : τ → Prop} {bad : E → Prop}

omit [SqlErrors E τ υ] [DecidableEq τ] [DecidableEq κ] [DecidableEq υ] in
/-- What two programs write, their sequence writes. -/
theorem writes_bind {p : Sql R ι E β} {f : β → Sql R ι E α} (hp : p.writes P bad)
    (hf : ∀ b, (f b).writes P bad) : (p >>= f).writes P bad := by
  induction p with
  | done b => exact hf b
  | raise e => exact hp
  | ask next ih => exact fun i => ih i (hp i)
  | stmt ls ws next ih => exact fun V => ⟨(hp V).1, ih V (hp V).2⟩

omit [SqlErrors E τ υ] [DecidableEq τ] [DecidableEq κ] [DecidableEq υ] in
/-- More writes may be allowed, and fewer exceptions be called bad. -/
theorem writes_mono {P' : Write R → Prop} {bad' : E → Prop} {p : Sql R ι E α}
    (h : p.writes P bad) (hP : ∀ w, P w → P' w) (hbad : ∀ e, bad' e → bad e) :
    p.writes P' bad' := by
  induction p with
  | done a => exact trivial
  | raise e => exact fun he => h (hbad e he)
  | ask next ih => exact fun i => ih i (h i)
  | stmt ls ws next ih => exact fun V => ⟨fun w hw => hP w ((h V).1 w hw), ih V (h V).2⟩

omit [SqlErrors E τ υ] [DecidableEq τ] [DecidableEq κ] [DecidableEq υ] in
/-- A question to the environment writes nothing. -/
theorem writes_answer (f : ι → α) : (answer f : Sql R ι E α).writes P bad := fun _ => trivial

omit [SqlErrors E τ υ] [DecidableEq τ] [DecidableEq κ] [DecidableEq υ] in
/-- A read writes nothing. -/
theorem writes_query (f : Database R → α) : (query f : Sql R ι E α).writes P bad :=
  fun _ => ⟨fun _ hw => absurd hw List.not_mem_nil, trivial⟩

omit [SqlErrors E τ υ] [DecidableEq τ] [DecidableEq κ] [DecidableEq υ] in
/-- A locking read writes nothing. -/
theorem writes_selectForUpdate [ForeignKeys R κ υ] (i : τ) (p : R i → Bool) :
    (selectForUpdate i p : Sql R ι E _).writes P bad :=
  fun _ => ⟨fun _ hw => absurd hw List.not_mem_nil, trivial⟩

omit [SqlErrors E τ υ] [DecidableEq τ] [DecidableEq κ] [DecidableEq υ] in
/-- A locking read of several rows writes nothing. -/
theorem writes_selectAllForUpdate [ForeignKeys R κ υ] (i : τ)
    (sel : Table (R i) → List (R i)) :
    (selectAllForUpdate i sel : Sql R ι E _).writes P bad :=
  fun _ => ⟨fun _ hw => absurd hw List.not_mem_nil, trivial⟩

omit [SqlErrors E τ υ] [DecidableEq τ] [DecidableEq κ] [DecidableEq υ] in
/-- A statement writes what it says, on whatever state it sees. -/
theorem writes_statement {f : Database R → Except E (List (Write R) × α)}
    (hok : ∀ V ws a, f V = .ok (ws, a) → ∀ w ∈ ws, P w)
    (herror : ∀ V e, f V = .error e → ¬bad e) :
    (statement f : Sql R ι E α).writes P bad := by
  intro V
  cases hf : f V with
  | error e =>
    simp only [hf]
    exact ⟨fun _ hw => absurd hw List.not_mem_nil, herror V e hf⟩
  | ok x =>
    simp only [hf]
    exact ⟨hok V x.1 x.2 hf, trivial⟩

omit [DecidableEq τ] in
/-- An INSERT writes one new row. -/
theorem writes_insert {i : τ} (row : R i) (hrow : P ⟨i, .insert row⟩)
    (hbad : ∀ us, ¬bad (SqlErrors.integrityError i us)) :
    (insert i row : Sql R ι E _).writes P bad := by
  refine writes_statement ?_ ?_
  · intro V ws a hf w hw
    split at hf
    · cases hf
    · cases hf
      obtain rfl := List.mem_singleton.mp hw
      exact hrow
  · intro V e hf
    split at hf
    · cases hf
      exact hbad _
    · cases hf

omit [DecidableEq τ] in
/-- An UPDATE by key writes the next version of a row under its key that has the condition. -/
theorem writes_updateWhere {i : τ} {k : κ} {cond : R i → Bool} {set : R i → R i}
    (hset : ∀ r, Row.key r = k → cond r = true → P ⟨i, .update r (nextVersion i r (set r))⟩)
    (hbad : ∀ us, ¬bad (SqlErrors.integrityError i us)) :
    (updateWhere i k cond set : Sql R ι E _).writes P bad := by
  refine writes_statement ?_ ?_
  · intro V ws a hf w hw
    split at hf
    · rename_i r hr
      split at hf
      · rename_i hc
        unfold replace at hf
        split at hf
        · cases hf
        · cases hf
          obtain rfl := List.mem_singleton.mp hw
          exact hset r (Table.key_of_get hr) hc
      · cases hf
        exact absurd hw List.not_mem_nil
    · cases hf
      exact absurd hw List.not_mem_nil
  · intro V e hf
    split at hf
    · split at hf
      · unfold replace at hf
        split at hf
        · cases hf
          exact hbad _
        · cases hf
      · cases hf
    · cases hf

omit [DecidableEq τ] in
/-- A flush writes the next version of a row with the key and version that were loaded. -/
theorem writes_flush {i : τ} [DecidableEq (R i)] (loaded new : R i)
    (hnew : ∀ r, Row.key r = Row.key loaded → Row.version r = Row.version loaded →
      P ⟨i, .update r (nextVersion i r new)⟩)
    (hbad : ∀ us, ¬bad (SqlErrors.integrityError i us))
    (hstale : ¬bad SqlErrors.staleDataError) :
    (flush i loaded new : Sql R ι E _).writes P bad := by
  unfold flush
  split
  · exact trivial
  · refine writes_statement ?_ ?_
    · intro V ws a hf w hw
      split at hf
      · rename_i r hr
        split at hf
        · rename_i hv
          unfold replace at hf
          split at hf
          · cases hf
          · cases hf
            obtain rfl := List.mem_singleton.mp hw
            exact hnew r (Table.key_of_get hr) hv
        · cases hf
      · cases hf
    · intro V e hf
      split at hf
      · split at hf
        · unfold replace at hf
          split at hf
          · cases hf
            exact hbad _
          · cases hf
        · cases hf
          exact hstale
      · cases hf
        exact hstale

omit [SqlErrors E τ υ] in
/-- A nested transaction writes what it held back, all at its end.  By induction on the rest of it.
    -/
theorem writes_savepointFrom {ws : List (Write R)} {p : Sql R ι E α} {bad' : E → Prop}
    (hws : ∀ w ∈ ws, P w) (hp : p.writes P bad') : (savepointFrom ws p).writes P bad := by
  induction p generalizing ws with
  | done a => exact fun V => ⟨hws, trivial⟩
  | raise e => exact trivial
  | ask next ih => exact fun i => ih i hws (hp i)
  | stmt ls ws' next ih =>
    intro V
    refine ⟨fun _ hw => absurd hw List.not_mem_nil, ih _ ?_ (hp _).2⟩
    intro w hw
    rcases List.mem_append.mp hw with hw | hw
    · exact hws w hw
    · exact (hp _).1 w hw

omit [SqlErrors E τ υ] in
/-- A nested transaction writes what its body writes, and raises nothing: the exceptions of the body
    are values. -/
theorem writes_savepoint {p : Sql R ι E α} {bad' : E → Prop} (hp : p.writes P bad') :
    p.savepoint.writes P bad := writes_savepointFrom (fun _ hw => absurd hw List.not_mem_nil) hp

/-! ### What is left of a state -/

section Rel

variable {Rel : Database R → Database R → Prop} (hrefl : ∀ D, Rel D D)
  (htrans : ∀ {D D' D''}, Rel D D' → Rel D' D'' → Rel D D'')
  (hwrite : ∀ w D, P w → Rel D (Database.apply w D))

include hrefl htrans hwrite

omit [SqlErrors E τ υ] in
/-- A relation that every write respects is respected by several. -/
theorem applyAll_rel {ws : List (Write R)} (hws : ∀ w ∈ ws, P w) (D : Database R) :
    Rel D (applyAll ws D) := by
  induction ws generalizing D with
  | nil => exact hrefl D
  | cons w ws ih =>
    exact htrans (hwrite w D (hws w List.mem_cons_self))
      (ih (fun w' hw' => hws w' (List.mem_cons_of_mem _ hw')) _)

omit [SqlErrors E τ υ] in
/-- A relation that every write respects holds between start and end, however the statements
    interleave with others. -/
theorem ensures_of_writes {p : Sql R ι E α} (h : p.writes P bad)
    (pt : Point (Database R) (Lock τ κ υ)) :
    p.ensures bad pt fun _ pt' => Rel pt.view pt'.view := by
  induction p generalizing pt with
  | done a => exact hrefl _
  | raise e => exact fun _ => h
  | ask next ih => exact fun a seen => ih a (h a) _
  | stmt ls ws next ih =>
    intro V _ _
    refine ensures_mono (ih V (h V).2 _) fun a pt' hpt' => ?_
    exact htrans (applyAll_rel hrefl htrans hwrite (h V).1 pt.view) hpt'

omit [SqlErrors E τ υ] in
/-- A relation that every allowed write keeps holds between the start and the end of a program that
    runs alone. -/
theorem post_of_writes {p : Sql R ι E α} (h : p.writes P bad) (D : Database R) :
    p.post D (fun _ D' => Rel D D') fun e => ¬bad e := by
  refine post_mono (post_of_ensures (h := [])
    (ensures_of_writes hrefl htrans hwrite h ⟨[], D, D⟩)) ?_ fun _ h => h
  rintro a D' ⟨pt, rfl, hpt⟩
  exact hpt

end Rel

omit [SqlErrors E τ υ] in
/-- What writes only some tables leaves the others as they are. -/
theorem ensures_of_confined {p : Sql R ι E α} (h : p.confined T bad)
    (pt : Point (Database R) (Lock τ κ υ)) :
    p.ensures bad pt fun _ pt' => Database.SameOff T pt.view pt'.view :=
  ensures_of_writes (Database.SameOff.refl T) Database.SameOff.trans Database.SameOff.apply h pt

omit [SqlErrors E τ υ] in
/-- A program that runs alone leaves the tables it may not write as they were. -/
theorem post_of_confined {p : Sql R ι E α} (h : p.confined T bad) (D : Database R) :
    p.post D (fun _ D' => Database.SameOff T D D') fun e => ¬bad e :=
  post_of_writes (Database.SameOff.refl T) Database.SameOff.trans Database.SameOff.apply h D

omit [SqlErrors E τ υ] in
/-- A run of a program leaves the tables it may not write as they were.  Most frame conditions of
    the services are this lemma at a list of tables. -/
theorem sameOff_of_runs {p : Sql R ι E α} (h : p.confined T bad) {D D' : Database R} {a : α}
    (hrun : p.runs D (.ok (a, D'))) : Database.SameOff T D D' :=
  (post_iff.mp (post_of_confined h D)).1 a D' hrun

omit [SqlErrors E τ υ] in
/-- A relation that only looks at the other tables is kept. -/
theorem keeps_of_confined {Rel : Database R → Database R → Prop} {p : Sql R ι E α}
    (h : p.confined T bad) (hRel : ∀ D D', Database.SameOff T D D' → Rel D D') : p.keeps Rel :=
  fun D _ D' hrun => hRel D D' (sameOff_of_runs h hrun)

end Writes

end Prog

/-! ## Rows that stay on record -/

namespace Database

variable [DecidableEq τ] [DecidableEq κ] [DecidableEq υ]
variable {R : τ → Type} [∀ i, Row (R i) κ υ] {β : Type} {i : τ} {f : R i → β}
variable {D D' D'' : Database R}

/-- Every row of table `i` is still there, as far as `f` tells it.  Rows may come in.  With `f` the
    key and a few columns this says that a record stays what it was made as, whatever else changes
    about it. -/
def Kept (i : τ) (f : R i → β) (D D' : Database R) : Prop :=
  ∀ r ∈ D.table i, ∃ r' ∈ D'.table i, f r' = f r

namespace Kept

omit [DecidableEq τ] [DecidableEq κ] [DecidableEq υ] in
/-- A database keeps its own rows. -/
theorem refl (D : Database R) : Kept i f D D := fun r hr => ⟨r, hr, rfl⟩

omit [DecidableEq τ] [DecidableEq κ] [DecidableEq υ] in
/-- What is kept from one state to a second, and from there to a third, is kept throughout. -/
theorem trans (h : Kept i f D D') (h' : Kept i f D' D'') : Kept i f D D'' := by
  intro r hr
  obtain ⟨r', hr', heq⟩ := h r hr
  obtain ⟨r'', hr'', heq'⟩ := h' r' hr'
  exact ⟨r'', hr'', heq'.trans heq⟩

omit [DecidableEq τ] [DecidableEq κ] [DecidableEq υ] in
instance : Std.Refl (Kept i f) := ⟨refl⟩

omit [DecidableEq τ] [DecidableEq κ] [DecidableEq υ] in
instance : IsTrans (Database R) (Kept i f) := ⟨fun _ _ _ h h' => h.trans h'⟩

omit [DecidableEq τ] [DecidableEq κ] [DecidableEq υ] in
/-- A table that is not written keeps its rows. -/
theorem of_table (h : D'.table i = D.table i) : Kept i f D D' := by
  intro r hr
  exact ⟨r, by rw [h]; exact hr, rfl⟩

/-- An INSERT keeps the rows there are. -/
theorem insert {row : R i} (h : (D.table i).conflicts row = false) :
    Kept i f D (Database.apply ⟨i, .insert row⟩ D) := by
  intro r hr
  refine ⟨r, ?_, rfl⟩
  rw [Database.apply_table_self]
  exact (Table.mem_insert h).mpr (Or.inl hr)

/-- A row that is written back as it was read, as far as `f` tells it, is kept; the others are not
    touched. -/
theorem update {old new : R i} (hget : (D.table i).get (Row.key old) = some old)
    (hkey : Row.key new = Row.key old) (hs : (D.table i).succeeds old new = true)
    (hc : (D.table i).clashes old new = false) (hf : f new = f old) :
    Kept i f D (Database.apply ⟨i, .update old new⟩ D) := by
  have htable : (Database.apply ⟨i, .update old new⟩ D).table i = (D.table i).update old new :=
    Database.apply_table_self ..
  intro r hr
  rw [htable]
  by_cases hr' : Row.key r = Row.key new
  · refine ⟨new, (Table.mem_update hs hc).mpr (Or.inl rfl), ?_⟩
    have hgetr : (D.table i).get (Row.key r) = some r := Table.get_of_mem hr
    rw [hr', hkey, hget] at hgetr
    obtain rfl := Option.some.inj hgetr
    exact hf
  · exact ⟨r, (Table.mem_update hs hc).mpr (Or.inr ⟨hr, hr'⟩), rfl⟩

end Kept

end Database

namespace Prog

variable [DecidableEq τ] [DecidableEq κ] [DecidableEq υ]
variable {R : τ → Type} [∀ i, Row (R i) κ υ] {ι E α β : Type} {i : τ} {f : R i → β}

/-- A flush of a row that is current, with columns that `f` does not tell from the old ones, keeps
    the rows of its table. -/
theorem kept_flush [DecidableEq (R i)] [SqlErrors E τ υ] {D D' : Database R} {loaded new row : R i}
    (h : (flush i loaded new : Sql R ι E _).runs D (.ok (row, D')))
    (hkey : Row.key new = Row.key loaded) (hparents : Row.parents loaded = Row.parents new)
    (hget : (D.table i).get (Row.key loaded) = some loaded)
    (hf : f (nextVersion i loaded new) = f loaded) : Database.Kept i f D D' := by
  rcases runs_flush hkey hparents hget h with ⟨-, -, rfl⟩ | ⟨-, rfl, hs, hc, rfl⟩
  · exact Database.Kept.refl _
  · refine Database.Kept.update hget ?_ hs hc hf
    rw [nextVersion, Row.key_withVersion, hkey]

/-- A program that does not write the table keeps its rows. -/
theorem kept_of_confined {T : τ → Prop} {bad : E → Prop} {p : Sql R ι E α} (h : p.confined T bad)
    (hi : ¬T i) : p.keeps (Database.Kept i f) :=
  keeps_of_confined h fun _ _ hD => Database.Kept.of_table (hD i hi)

end Prog

/-! ### The same rows -/

namespace Database

variable [DecidableEq τ] [DecidableEq κ] [DecidableEq υ]
variable {R : τ → Type} [∀ i, Row (R i) κ υ] {β : Type} {i : τ} {f : R i → β}
variable {D D' D'' : Database R}

/-- Table `i` has the same rows by key, as far as `f` tells them.  Unlike `Kept` this lets no row
    come in. -/
def SameRows (i : τ) (f : R i → β) (D D' : Database R) : Prop :=
  ∀ k, ((D'.table i).get k).map f = ((D.table i).get k).map f

namespace SameRows

omit [DecidableEq τ] [DecidableEq υ] in
instance : Std.Refl (SameRows i f) := ⟨fun _ _ => rfl⟩

omit [DecidableEq τ] [DecidableEq υ] in
instance : IsTrans (Database R) (SameRows i f) := ⟨fun _ _ _ h h' k => (h' k).trans (h k)⟩

omit [DecidableEq τ] [DecidableEq υ] in
/-- A table that is not written has the same rows. -/
theorem of_table (h : D'.table i = D.table i) : SameRows i f D D' := by
  intro k
  rw [h]

/-- A row that is written back as it was read, as far as `f` tells it, leaves the same rows. -/
theorem update {old new : R i} (hget : (D.table i).get (Row.key old) = some old)
    (hkey : Row.key new = Row.key old) (hs : (D.table i).succeeds old new = true)
    (hc : (D.table i).clashes old new = false) (hf : f new = f old) :
    SameRows i f D (Database.apply ⟨i, .update old new⟩ D) := by
  intro k
  have htable : (Database.apply ⟨i, .update old new⟩ D).table i = (D.table i).update old new :=
    Database.apply_table_self ..
  rw [htable, Table.get_update hs hc]
  split
  · rename_i hk
    have hold : (D.table i).get k = some old := by
      rw [← hk, hkey]
      exact hget
    rw [hold]
    exact congrArg some hf
  · rfl

omit [DecidableEq τ] [DecidableEq υ] in
/-- A row after is a row before. -/
theorem before (h : SameRows i f D D') {k : κ} {r' : R i} (hr' : (D'.table i).get k = some r') :
    ∃ r, (D.table i).get k = some r ∧ f r' = f r := by
  have hk := h k
  rw [hr'] at hk
  cases hr : (D.table i).get k with
  | none =>
    rw [hr] at hk
    exact nomatch hk
  | some r =>
    rw [hr] at hk
    exact ⟨r, rfl, Option.some.inj hk⟩

omit [DecidableEq τ] [DecidableEq υ] in
/-- A row before is a row after. -/
theorem after (h : SameRows i f D D') {k : κ} {r : R i} (hr : (D.table i).get k = some r) :
    ∃ r', (D'.table i).get k = some r' ∧ f r' = f r := by
  have hback : SameRows i f D' D := fun k => (h k).symm
  obtain ⟨r', hr', heq⟩ := hback.before hr
  exact ⟨r', hr', heq.symm⟩

end SameRows

end Database

namespace Prog

variable [DecidableEq τ] [DecidableEq κ] [DecidableEq υ]
variable {R : τ → Type} [∀ i, Row (R i) κ υ] {ι E α β : Type} {i : τ} {f : R i → β}

/-- A flush of a row that is current, with columns that `f` does not tell from the old ones, leaves
    the same rows. -/
theorem sameRows_flush [DecidableEq (R i)] [SqlErrors E τ υ] {D D' : Database R}
    {loaded new row : R i} (h : (flush i loaded new : Sql R ι E _).runs D (.ok (row, D')))
    (hkey : Row.key new = Row.key loaded) (hparents : Row.parents loaded = Row.parents new)
    (hget : (D.table i).get (Row.key loaded) = some loaded)
    (hf : f (nextVersion i loaded new) = f loaded) : Database.SameRows i f D D' := by
  rcases runs_flush hkey hparents hget h with ⟨-, -, rfl⟩ | ⟨-, rfl, hs, hc, rfl⟩
  · exact Std.Refl.refl D'
  · refine Database.SameRows.update hget ?_ hs hc hf
    rw [nextVersion, Row.key_withVersion, hkey]

/-- A program that does not write the table leaves the same rows. -/
theorem sameRows_of_confined {T : τ → Prop} {bad : E → Prop} {p : Sql R ι E α}
    (h : p.confined T bad) (hi : ¬T i) : p.keeps (Database.SameRows i f) :=
  keeps_of_confined h fun _ _ hD => Database.SameRows.of_table (hD i hi)

end Prog

end Relational
