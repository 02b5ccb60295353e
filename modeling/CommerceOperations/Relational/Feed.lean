/-
  A feed of numbered changes.

  A record with a version and a level announces each change of itself: the version it then has,
  by how much the level moved, and where it stands.  A consumer that keeps a `Mark` of the record
  takes the changes one by one and refuses one that skips a version or does not add up.

  * `replay`    — what the consumer holds after the feed, if it never refused;
  * `crossings` — the changes that took the record from a mark with a property `low` off to one
                  with it on.

  The crux: what `replay` accepts has the versions in order, without a gap or a repetition, and its
  levels are the running sums of the moves (`versions_of_replay`, `level_of_replay`).
-/
import Mathlib.Data.List.Basic
import Mathlib.Algebra.BigOperators.Group.List.Basic
import Mathlib.Algebra.Ring.Int.Defs

namespace Relational.Feed

variable {γ : Type}

/-- One change, as it is announced.  The `note` is what else is said of the record. -/
structure Entry (γ : Type) where
  /-- The version of the record after the change. -/
  version : Int
  /-- By how much its level moved. -/
  delta : Int
  /-- The level after the change. -/
  level : Int
  /-- What else is said. -/
  note : γ
  deriving DecidableEq, Repr

/-- Where the record stands, as far as the consumer knows. -/
structure Mark (γ : Type) where
  /-- The version known. -/
  version : Int
  /-- The level at that version. -/
  level : Int
  /-- What else was said with it. -/
  note : γ
  deriving DecidableEq, Repr

namespace Mark

/-- The mark a change leads to: the change names it in full, so that the consumer can check the sum.
    -/
def after (e : Entry γ) : Mark γ := ⟨e.version, e.level, e.note⟩

/-- The consumer takes a change, or refuses it.  It refuses a version that was skipped or repeated,
    and a level that is not the old one moved by `delta`. -/
def take? (m : Mark γ) (e : Entry γ) : Option (Mark γ) :=
  if e.version = m.version + 1 ∧ e.level = m.level + e.delta then some (after e) else none

/-- A change that is taken is the next one and adds up. -/
theorem take?_eq_some {m m' : Mark γ} {e : Entry γ} :
    m.take? e = some m' ↔
      e.version = m.version + 1 ∧ e.level = m.level + e.delta ∧ after e = m' := by
  unfold take?
  split
  · rename_i h
    simp [h]
  · rename_i h
    constructor
    · intro hnone
      cases hnone
    · rintro ⟨hv, hl, -⟩
      exact absurd ⟨hv, hl⟩ h

end Mark

/-- What the consumer holds after the changes, if it took them all. -/
def replay (m : Mark γ) (log : List (Entry γ)) : Option (Mark γ) := log.foldlM Mark.take? m

/-- The first change is taken first. -/
theorem replay_cons (m : Mark γ) (e : Entry γ) (log : List (Entry γ)) :
    replay m (e :: log) = (m.take? e).bind fun m' => replay m' log := rfl

/-- A feed may be taken in two parts. -/
theorem replay_append (m : Mark γ) (log log' : List (Entry γ)) :
    replay m (log ++ log') = (replay m log).bind fun m' => replay m' log' :=
  List.foldlM_append

/-- One more change is taken if it is the next one and adds up.  This is the step by which a writer
    that announces its own change keeps the feed in order. -/
theorem replay_snoc {m m' : Mark γ} {log : List (Entry γ)} {e : Entry γ}
    (h : replay m log = some m') (hversion : e.version = m'.version + 1)
    (hlevel : e.level = m'.level + e.delta) : replay m (log ++ [e]) = some (Mark.after e) := by
  rw [replay_append, h, Option.bind_some, replay_cons]
  rw [Mark.take?_eq_some.mpr ⟨hversion, hlevel, rfl⟩]
  rfl

/-- **The versions are in order**: the changes carry the versions that follow the first mark, each
    of them once, up to the version reached.  By induction on the feed; the consumer has checked
    each step. -/
theorem versions_of_replay {m m' : Mark γ} {log : List (Entry γ)} (h : replay m log = some m') :
    log.map (·.version) = (List.range log.length).map (fun k : Nat => m.version + 1 + k) ∧
      m'.version = m.version + log.length := by
  induction log generalizing m with
  | nil =>
    obtain rfl := Option.some.inj h
    exact ⟨rfl, by simp⟩
  | cons e log ih =>
    rw [replay_cons] at h
    obtain ⟨m₁, htake, hrest⟩ := Option.bind_eq_some_iff.mp h
    obtain ⟨hversion, -, rfl⟩ := Mark.take?_eq_some.mp htake
    obtain ⟨hversions, hlast⟩ := ih hrest
    have hafter : (Mark.after e).version = m.version + 1 := hversion
    refine ⟨?_, ?_⟩
    · rw [List.map_cons, hversions, List.length_cons, List.range_succ_eq_map, List.map_cons,
        List.map_map, hafter, hversion]
      refine congrArg₂ _ (by simp) (List.map_congr_left fun k _ => ?_)
      simp only [Function.comp_apply, Nat.cast_succ]
      omega
    · rw [hlast, hafter, List.length_cons, Nat.cast_succ]
      omega

/-- **The levels are running sums** of the moves, from the level of the first mark on. -/
theorem level_of_replay {m m' : Mark γ} {log : List (Entry γ)} (h : replay m log = some m') :
    ∀ k e, log[k]? = some e → e.level = m.level + ((log.take (k + 1)).map (·.delta)).sum := by
  induction log generalizing m with
  | nil =>
    intro k e he
    simp at he
  | cons e₀ log ih =>
    rw [replay_cons] at h
    obtain ⟨m₁, htake, hrest⟩ := Option.bind_eq_some_iff.mp h
    obtain ⟨-, hlevel, rfl⟩ := Mark.take?_eq_some.mp htake
    intro k e he
    cases k with
    | zero =>
      obtain rfl : e₀ = e := by simpa using he
      simpa using hlevel
    | succ k =>
      have hlater := ih hrest k e (by simpa using he)
      have hafter : (Mark.after e₀).level = e₀.level := rfl
      rw [hlater, hafter, hlevel, List.take_succ_cons, List.map_cons, List.sum_cons]
      omega

/-- The last change says where the record stands. -/
theorem after_getLast_of_replay {m m' : Mark γ} {log : List (Entry γ)} {e : Entry γ}
    (h : replay m (log ++ [e]) = some m') : Mark.after e = m' := by
  rw [replay_append] at h
  obtain ⟨m₁, -, hlast⟩ := Option.bind_eq_some_iff.mp h
  rw [replay_cons] at hlast
  obtain ⟨m₂, htake, hm₂⟩ := Option.bind_eq_some_iff.mp hlast
  obtain rfl := Option.some.inj hm₂
  exact (Mark.take?_eq_some.mp htake).2.2

/-- A feed that is one version ahead has one more change, which leads to where the record stands. -/
theorem exists_of_replay_succ {m m₁ m₂ : Mark γ} {log rest : List (Entry γ)}
    (h₁ : replay m log = some m₁) (h₂ : replay m (log ++ rest) = some m₂)
    (hversion : m₂.version = m₁.version + 1) : ∃ e, rest = [e] ∧ Mark.after e = m₂ := by
  rw [replay_append, h₁, Option.bind_some] at h₂
  obtain ⟨-, hlength⟩ := versions_of_replay h₂
  have hone : rest.length = 1 := by omega
  obtain ⟨e, rfl⟩ := List.length_eq_one_iff.mp hone
  have hlast : replay m₁ ([] ++ [e]) = some m₂ := h₂
  exact ⟨e, rfl, after_getLast_of_replay hlast⟩

/-! ## Crossings -/

/-- The changes that took the record to a mark that is `low` from one that is not.  A record that
    stays low, or comes back up, crosses nothing. -/
def crossings (low : Mark γ → Bool) : Mark γ → List (Entry γ) → List (Entry γ)
  | _, [] => []
  | m, e :: log =>
    (if low (.after e) && !low m then [e] else []) ++ crossings low (.after e) log

/-- One more change, after a feed that was taken, is a crossing or is none; the crossings before it
    are as they were. -/
theorem crossings_snoc {low : Mark γ → Bool} {m m' : Mark γ} {log : List (Entry γ)} {e : Entry γ}
    (h : replay m log = some m') :
    crossings low m (log ++ [e]) =
      crossings low m log ++ if low (.after e) && !low m' then [e] else [] := by
  induction log generalizing m with
  | nil =>
    obtain rfl := Option.some.inj h
    simp [crossings]
  | cons e₀ log ih =>
    rw [replay_cons] at h
    obtain ⟨m₁, htake, hrest⟩ := Option.bind_eq_some_iff.mp h
    obtain ⟨-, -, rfl⟩ := Mark.take?_eq_some.mp htake
    rw [List.cons_append, crossings, ih hrest, crossings, List.append_assoc]

end Relational.Feed
