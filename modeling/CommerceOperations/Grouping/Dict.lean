/-
  Dictionaries, in the order of insertion, and what is grouped into them.

  To group a list is to change, for each of its elements, the entry of the element's key, which is
  put in at its first.  A measure that is zero for a new entry, and that an element adds its part
  to, loses nothing by the grouping: over all entries it sums up to the sum of the parts. -/
import Mathlib.Algebra.BigOperators.Group.List.Basic
import Mathlib.Data.List.Induction
import Mathlib.Data.List.Nodup

namespace Grouping

variable {κ ν α M : Type} [DecidableEq κ] [AddCommMonoid M]

/-- A dictionary: its entries have different keys.  They stand in the order in which their keys were
    put in, as Python keeps them. -/
structure Dict (κ ν : Type) where
  /-- The keys with their values. -/
  entries : List (κ × ν)
  /-- No key stands twice. -/
  nodup : (entries.map (·.1)).Nodup

namespace Dict

/-- The dictionary without entries. -/
def empty : Dict κ ν := ⟨[], List.nodup_nil⟩

/-- The values, in the order of their keys. -/
def values (d : Dict κ ν) : List ν := d.entries.map (·.2)

/-- The entries with that of `k` changed by `f`; if there is none, `v` is put in first.  The key
    that is found keeps its place. -/
def changeIn (k : κ) (v : ν) (f : ν → ν) : List (κ × ν) → List (κ × ν)
  | [] => [(k, f v)]
  | (k', v') :: rest => if k' = k then (k', f v') :: rest else (k', v') :: changeIn k v f rest

/-- A change puts in no key but its own. -/
theorem mem_keys_changeIn {k k' : κ} {v : ν} {f : ν → ν} {entries : List (κ × ν)}
    (h : k' ∈ (changeIn k v f entries).map (·.1)) : k' = k ∨ k' ∈ entries.map (·.1) := by
  induction entries with
  | nil => exact Or.inl (List.mem_singleton.mp h)
  | cons entry rest ih =>
    rw [changeIn] at h
    split at h
    · exact Or.inr h
    · rw [List.map_cons, List.mem_cons] at h
      rw [List.map_cons, List.mem_cons]
      rcases h with h | h
      · exact Or.inr (Or.inl h)
      · rcases ih h with h | h
        · exact Or.inl h
        · exact Or.inr (Or.inr h)

/-- A change puts its key in only where it was not there, so the keys stay distinct. -/
theorem nodup_changeIn {k : κ} {v : ν} {f : ν → ν} {entries : List (κ × ν)}
    (h : (entries.map (·.1)).Nodup) : ((changeIn k v f entries).map (·.1)).Nodup := by
  induction entries with
  | nil => exact List.nodup_singleton _
  | cons entry rest ih =>
    obtain ⟨hnew, hrest⟩ := List.nodup_cons.mp h
    rw [changeIn]
    split
    · exact h
    · rename_i hne
      refine List.nodup_cons.mpr ⟨fun hmem => ?_, ih hrest⟩
      rcases mem_keys_changeIn hmem with heq | hmem
      · exact hne heq
      · exact hnew hmem

/-- `row = d.setdefault(k, v)`, and then `row` is changed by `f`. -/
def change (k : κ) (v : ν) (f : ν → ν) (d : Dict κ ν) : Dict κ ν :=
  ⟨changeIn k v f d.entries, nodup_changeIn d.nodup⟩

/-- The elements of a list grouped by their keys: each changes the entry of its key, in the order of
    the list. -/
def group (key : α → κ) (start : α → ν) (next : α → ν → ν) (xs : List α) : Dict κ ν :=
  xs.foldl (fun d x => d.change (key x) (start x) (next x)) empty

/-- What a measure comes to over all entries: a revenue, a count. -/
def total (measure : ν → M) (d : Dict κ ν) : M := (d.values.map measure).sum

variable {measure : ν → M} {part : α → M} {key : α → κ} {start : α → ν} {next : α → ν → ν}

/-- A change adds its part, whether the key is new or not: a new entry measures zero before it is
    changed. -/
theorem total_change {k : κ} {v : ν} {f : ν → ν} {m : M} (d : Dict κ ν) (hzero : measure v = 0)
    (hnext : ∀ v, measure (f v) = measure v + m) :
    total measure (d.change k v f) = total measure d + m := by
  obtain ⟨entries, hnodup⟩ := d
  show (((changeIn k v f entries).map (·.2)).map measure).sum =
    ((entries.map (·.2)).map measure).sum + m
  clear hnodup
  induction entries with
  | nil =>
    show measure (f v) + 0 = 0 + m
    rw [hnext, hzero, add_zero]
  | cons entry rest ih =>
    rw [changeIn]
    split
    · rw [List.map_cons, List.map_cons, List.sum_cons, List.map_cons, List.map_cons,
        List.sum_cons, hnext, add_right_comm]
    · rw [List.map_cons, List.map_cons, List.sum_cons, List.map_cons, List.map_cons,
        List.sum_cons, ih, add_assoc]

/-- **Grouping preserves sums**: over all entries the measure is the sum of the parts of the
    elements, by induction on the list from its end. -/
theorem total_group (xs : List α) (hzero : ∀ x, measure (start x) = 0)
    (hnext : ∀ x v, measure (next x v) = measure v + part x) :
    total measure (group key start next xs) = (xs.map part).sum := by
  induction xs using List.reverseRecOn with
  | nil => rfl
  | append_singleton xs x ih =>
    have hlast : group key start next (xs ++ [x]) =
        (group key start next xs).change (key x) (start x) (next x) := by
      rw [group, List.foldl_concat]
      rfl
    rw [hlast, total_change _ (hzero x) (hnext x), ih, List.map_append, List.sum_append,
      List.map_singleton, List.sum_singleton]

end Dict

end Grouping
