/-
  Regular expressions with repetition of single symbols, and what a backtracking matcher finds.

  A pattern is matched at a place in a text: between what is on the left, which a word boundary
  looks at, and what is on the right.  `tries` lists what the matcher tries, in its order: the first
  branch of an alternative first, the longest run first.  `Accepts` says the same without the order,
  and is what one reasons with; that the two agree is `mem_tries`.

  Three things are read off a pattern:

  * the symbols it avoids, which no match contains (`Avoids`);
  * those it needs, of which each match contains one (`Needs`);
  * how far it looks: a text that is cut off behind a symbol the pattern avoids is matched as if it
    went on (`tries_append`).

  They are enough to say where an expression cannot match, which is most of what is to be known
  about a replacement in a text: the places that are left alone.
-/
import Mathlib.Data.List.Basic

namespace Regex

variable {α : Type}

/-- A pattern; `run n` repeats a symbol at least `n` times, as often as possible. -/
inductive Pattern (α : Type) where
  | empty
  | set (accepts : α → Bool)
  | run (least : Nat) (accepts : α → Bool)
  | boundary
  | seq (p q : Pattern α)
  | alt (p q : Pattern α)
  | opt (p : Pattern α)

/-- One of the two sides of a place is a word, the other is not. -/
def atBoundary (word : α → Bool) (l r : List α) : Bool :=
  l.getLast?.any word != r.head?.any word

/-- The ways to split a run off a text, the longest first. -/
def runs : Nat → (α → Bool) → List α → List (List α × List α)
  | n, _, [] => if n = 0 then [([], [])] else []
  | n, accepts, c :: r =>
    (if accepts c then (runs (n - 1) accepts r).map fun split => (c :: split.1, split.2) else []) ++
      if n = 0 then [([], c :: r)] else []

/-- What is split off is a run that is long enough, and every such run is among the splits.  By
    induction on the text, and for each symbol by whether it is taken and whether the run may end
    before it. -/
theorem mem_runs {n : Nat} {accepts : α → Bool} {r u v : List α} :
    (u, v) ∈ runs n accepts r ↔ r = u ++ v ∧ n ≤ u.length ∧ ∀ c ∈ u, accepts c = true := by
  induction r generalizing n u with
  | nil =>
    rw [runs]
    split
    · rename_i h
      rw [List.mem_singleton, Prod.mk.injEq]
      constructor
      · rintro ⟨rfl, rfl⟩
        exact ⟨rfl, by omega, fun c hc => absurd hc List.not_mem_nil⟩
      · rintro ⟨hsplit, -, -⟩
        exact List.append_eq_nil_iff.mp hsplit.symm
    · rename_i h
      constructor
      · intro hmem
        exact absurd hmem List.not_mem_nil
      · rintro ⟨hsplit, hle, -⟩
        obtain ⟨rfl, rfl⟩ := List.append_eq_nil_iff.mp hsplit.symm
        exact absurd (Nat.le_zero.mp hle) h
  | cons c r ih =>
    rw [runs, List.mem_append]
    cases u with
    | nil =>
      constructor
      · rintro (hmem | hmem)
        · split at hmem
          · obtain ⟨split, -, heq⟩ := List.mem_map.mp hmem
            exact nomatch (Prod.mk.inj heq).1
          · exact absurd hmem List.not_mem_nil
        · split at hmem
          · rename_i hn
            obtain ⟨-, rfl⟩ := Prod.mk.inj (List.mem_singleton.mp hmem)
            exact ⟨rfl, by omega, fun c hc => absurd hc List.not_mem_nil⟩
          · exact absurd hmem List.not_mem_nil
      · rintro ⟨hsplit, hle, -⟩
        refine Or.inr ?_
        rw [if_pos (Nat.le_zero.mp hle), List.mem_singleton, ← hsplit.symm]
        rfl
    | cons b u =>
      constructor
      · rintro (hmem | hmem)
        · split at hmem
          · rename_i hc
            obtain ⟨split, hsplit, heq⟩ := List.mem_map.mp hmem
            obtain ⟨hcons, rfl⟩ := Prod.mk.inj heq
            obtain ⟨rfl, rfl⟩ := List.cons.inj hcons
            obtain ⟨rfl, hle, hall⟩ := ih.mp hsplit
            refine ⟨rfl, ?_, List.forall_mem_cons.mpr ⟨hc, hall⟩⟩
            rw [List.length_cons]
            omega
          · exact absurd hmem List.not_mem_nil
        · split at hmem
          · exact nomatch (Prod.mk.inj (List.mem_singleton.mp hmem)).1
          · exact absurd hmem List.not_mem_nil
      · rintro ⟨hsplit, hle, hall⟩
        rw [List.cons_append, List.cons.injEq] at hsplit
        obtain ⟨rfl, hsplit⟩ := hsplit
        obtain ⟨hc, hall⟩ := List.forall_mem_cons.mp hall
        refine Or.inl ?_
        rw [if_pos hc]
        refine List.mem_map.mpr ⟨(u, v), ih.mpr ⟨hsplit, ?_, hall⟩, rfl⟩
        rw [List.length_cons] at hle
        omega

namespace Pattern

/-- What the matcher tries at a place, in its order: what it takes of the right and what it leaves. -/
def tries (word : α → Bool) : Pattern α → List α → List α → List (List α × List α)
  | empty, _, r => [([], r)]
  | set _, _, [] => []
  | set accepts, _, c :: r => if accepts c then [([c], r)] else []
  | run n accepts, _, r => runs n accepts r
  | boundary, l, r => if atBoundary word l r then [([], r)] else []
  | seq p q, l, r => (p.tries word l r).flatMap fun first =>
      (q.tries word (l ++ first.1) first.2).map fun second => (first.1 ++ second.1, second.2)
  | alt p q, l, r => p.tries word l r ++ q.tries word l r
  | opt p, l, r => p.tries word l r ++ [([], r)]

/-- The pattern accepts `u` between `l` and `v`. -/
def Accepts (word : α → Bool) : Pattern α → List α → List α → List α → Prop
  | empty, _, u, _ => u = []
  | set accepts, _, u, _ => ∃ c, accepts c = true ∧ u = [c]
  | run n accepts, _, u, _ => n ≤ u.length ∧ ∀ c ∈ u, accepts c = true
  | boundary, l, u, v => u = [] ∧ atBoundary word l v = true
  | seq p q, l, u, v =>
    ∃ a b, u = a ++ b ∧ p.Accepts word l a (b ++ v) ∧ q.Accepts word (l ++ a) b v
  | alt p q, l, u, v => p.Accepts word l u v ∨ q.Accepts word l u v
  | opt p, l, u, v => p.Accepts word l u v ∨ u = []

variable {word : α → Bool}

/-- **The matcher tries exactly what the pattern accepts.**  By induction on the pattern.  The order
    of the tries is forgotten, and nothing else. -/
theorem mem_tries {p : Pattern α} {l r u v : List α} :
    (u, v) ∈ p.tries word l r ↔ r = u ++ v ∧ p.Accepts word l u v := by
  induction p generalizing l r u v with
  | empty =>
    rw [tries, Accepts, List.mem_singleton, Prod.mk.injEq]
    constructor
    · rintro ⟨rfl, rfl⟩
      exact ⟨rfl, rfl⟩
    · rintro ⟨rfl, rfl⟩
      exact ⟨rfl, rfl⟩
  | set accepts =>
    rw [Accepts]
    -- a set takes the next symbol if there is one and it accepts it
    cases r with
    | nil =>
      rw [tries]
      constructor
      · intro h
        exact absurd h List.not_mem_nil
      · rintro ⟨hsplit, c, -, rfl⟩
        exact nomatch hsplit
    | cons c r =>
      rw [tries]
      split
      · rename_i hc
        rw [List.mem_singleton, Prod.mk.injEq]
        constructor
        · rintro ⟨rfl, rfl⟩
          exact ⟨rfl, c, hc, rfl⟩
        · rintro ⟨hsplit, b, -, rfl⟩
          obtain ⟨rfl, rfl⟩ := List.cons.inj hsplit
          exact ⟨rfl, rfl⟩
      · rename_i hc
        constructor
        · intro h
          exact absurd h List.not_mem_nil
        · rintro ⟨hsplit, b, hb, rfl⟩
          obtain ⟨rfl, rfl⟩ := List.cons.inj hsplit
          exact absurd hb hc
  | run n accepts => exact mem_runs
  | boundary =>
    rw [tries, Accepts]
    split
    · rename_i h
      rw [List.mem_singleton, Prod.mk.injEq]
      constructor
      · rintro ⟨rfl, rfl⟩
        exact ⟨rfl, rfl, h⟩
      · rintro ⟨rfl, rfl, -⟩
        exact ⟨rfl, rfl⟩
    · rename_i h
      constructor
      · intro hmem
        exact absurd hmem List.not_mem_nil
      · rintro ⟨rfl, rfl, hat⟩
        exact absurd hat h
  | seq p q ihp ihq =>
    rw [tries, Accepts, List.mem_flatMap]
    constructor
    -- a try of `q` behind each try of `p`: together they take what both take
    · rintro ⟨first, hfirst, hsecond⟩
      obtain ⟨second, hmem, heq⟩ := List.mem_map.mp hsecond
      obtain ⟨rfl, rfl⟩ := Prod.mk.inj heq
      obtain ⟨rfl, hp⟩ := ihp.mp hfirst
      obtain ⟨hsplit, hq⟩ := ihq.mp hmem
      refine ⟨by rw [hsplit, List.append_assoc], first.1, second.1, rfl, ?_, hq⟩
      rw [← hsplit]
      exact hp
    · rintro ⟨rfl, a, b, rfl, hp, hq⟩
      refine ⟨(a, b ++ v), ihp.mpr ⟨List.append_assoc .., hp⟩, ?_⟩
      exact List.mem_map.mpr ⟨(b, v), ihq.mpr ⟨rfl, hq⟩, rfl⟩
  | alt p q ihp ihq =>
    rw [tries, Accepts, List.mem_append, ihp, ihq]
    constructor
    · rintro (⟨hsplit, h⟩ | ⟨hsplit, h⟩)
      · exact ⟨hsplit, Or.inl h⟩
      · exact ⟨hsplit, Or.inr h⟩
    · rintro ⟨hsplit, h | h⟩
      · exact Or.inl ⟨hsplit, h⟩
      · exact Or.inr ⟨hsplit, h⟩
  | opt p ih =>
    rw [tries, Accepts, List.mem_append, ih, List.mem_singleton, Prod.mk.injEq]
    constructor
    · rintro (⟨hsplit, h⟩ | ⟨rfl, rfl⟩)
      · exact ⟨hsplit, Or.inl h⟩
      · exact ⟨rfl, Or.inr rfl⟩
    · rintro ⟨rfl, h | rfl⟩
      · exact Or.inl ⟨rfl, h⟩
      · exact Or.inr ⟨rfl, rfl⟩

/-! ## Symbols that are avoided, and symbols that are needed -/

/-- No set of the pattern has the symbol. -/
def Avoids (c : α) : Pattern α → Prop
  | empty => True
  | set accepts => accepts c = false
  | run _ accepts => accepts c = false
  | boundary => True
  | seq p q => p.Avoids c ∧ q.Avoids c
  | alt p q => p.Avoids c ∧ q.Avoids c
  | opt p => p.Avoids c

/-- No match has a symbol the pattern avoids.  By induction on the pattern, whose parts match parts.
    -/
theorem Accepts.not_mem {p : Pattern α} {c : α} {l u v : List α} (h : p.Accepts word l u v)
    (havoids : p.Avoids c) : c ∉ u := by
  induction p generalizing l u v with
  | empty =>
    obtain rfl := h
    exact List.not_mem_nil
  | set accepts =>
    obtain ⟨b, hb, rfl⟩ := h
    intro hc
    have hfalse : accepts b = false := List.mem_singleton.mp hc ▸ havoids
    rw [hb] at hfalse
    exact nomatch hfalse
  | run n accepts =>
    intro hc
    have hfalse : accepts c = false := havoids
    rw [h.2 c hc] at hfalse
    exact nomatch hfalse
  | boundary =>
    obtain ⟨rfl, -⟩ := h
    exact List.not_mem_nil
  | seq p q ihp ihq =>
    obtain ⟨a, b, rfl, hp, hq⟩ := h
    rw [List.mem_append]
    rintro (hc | hc)
    · exact ihp hp havoids.1 hc
    · exact ihq hq havoids.2 hc
  | alt p q ihp ihq =>
    rcases h with h | h
    · exact ihp h havoids.1
    · exact ihq h havoids.2
  | opt p ih =>
    rcases h with h | rfl
    · exact ih h havoids
    · exact List.not_mem_nil

instance Avoids.decidable (c : α) : (p : Pattern α) → Decidable (p.Avoids c)
  | empty => inferInstanceAs (Decidable True)
  | set accepts => inferInstanceAs (Decidable (accepts c = false))
  | run _ accepts => inferInstanceAs (Decidable (accepts c = false))
  | boundary => inferInstanceAs (Decidable True)
  | seq p q =>
    have := Avoids.decidable c p
    have := Avoids.decidable c q
    inferInstanceAs (Decidable (p.Avoids c ∧ q.Avoids c))
  | alt p q =>
    have := Avoids.decidable c p
    have := Avoids.decidable c q
    inferInstanceAs (Decidable (p.Avoids c ∧ q.Avoids c))
  | opt p => Avoids.decidable c p

/-- What does not have a symbol ends before it. -/
theorem exists_left {u v r s : List α} {c : α} (hsplit : r ++ c :: s = u ++ v) (hc : c ∉ u) :
    ∃ r', r = u ++ r' ∧ v = r' ++ c :: s := by
  rcases List.append_eq_append_iff.mp hsplit with ⟨a, rfl, hrest⟩ | ⟨r', rfl, rfl⟩
  · cases a with
    | nil => exact ⟨[], by rw [List.append_nil, List.append_nil], hrest.symm⟩
    | cons b a =>
      obtain ⟨rfl, -⟩ := List.cons.inj hrest
      exact absurd (List.mem_append_right _ List.mem_cons_self) hc
  · exact ⟨r', rfl, rfl⟩

/-- On every way through the pattern there is a set of symbols in `K` only.  An optional part is no
    such way, as it may be left out. -/
def Needs (K : α → Prop) : Pattern α → Prop
  | empty => False
  | set accepts => ∀ c, accepts c = true → K c
  | run n accepts => 0 < n ∧ ∀ c, accepts c = true → K c
  | boundary => False
  | seq p q => p.Needs K ∨ q.Needs K
  | alt p q => p.Needs K ∧ q.Needs K
  | opt _ => False

/-- Each match has a symbol of those the pattern needs. -/
theorem Accepts.exists_mem {p : Pattern α} {K : α → Prop} {l u v : List α}
    (h : p.Accepts word l u v) (hneeds : p.Needs K) : ∃ c ∈ u, K c := by
  induction p generalizing l u v with
  | empty => exact absurd hneeds id
  | set accepts =>
    obtain ⟨c, hc, rfl⟩ := h
    exact ⟨c, List.mem_singleton_self c, hneeds c hc⟩
  | run n accepts =>
    obtain ⟨hpos, hK⟩ := hneeds
    obtain ⟨hle, hall⟩ := h
    obtain ⟨c, hc⟩ := List.exists_mem_of_length_pos (Nat.lt_of_lt_of_le hpos hle)
    exact ⟨c, hc, hK c (hall c hc)⟩
  | boundary => exact absurd hneeds id
  | seq p q ihp ihq =>
    obtain ⟨a, b, rfl, hp, hq⟩ := h
    rcases hneeds with hneeds | hneeds
    · obtain ⟨c, hc, hK⟩ := ihp hp hneeds
      exact ⟨c, List.mem_append_left _ hc, hK⟩
    · obtain ⟨c, hc, hK⟩ := ihq hq hneeds
      exact ⟨c, List.mem_append_right _ hc, hK⟩
  | alt p q ihp ihq =>
    rcases h with h | h
    · exact ihp h hneeds.1
    · exact ihq h hneeds.2
  | opt p _ => exact absurd hneeds id

/-- A pattern that needs any symbol at all has no empty match. -/
theorem Accepts.ne_nil {p : Pattern α} {l u v : List α} (h : p.Accepts word l u v)
    (hneeds : p.Needs fun _ => True) : u ≠ [] := by
  obtain ⟨c, hc, -⟩ := h.exists_mem hneeds
  exact List.ne_nil_of_mem hc

/-! ## Texts that are cut off -/

/-- Matching on `l` and `r` never looks at what comes after `r`. -/
def Within (word : α → Bool) : Pattern α → List α → List α → Prop
  | empty, _, _ => True
  | set _, _, r => r ≠ []
  | run _ accepts, _, r => ∃ c ∈ r, accepts c = false
  | boundary, _, r => r ≠ []
  | seq p q, l, r => p.Within word l r ∧
      ∀ split ∈ p.tries word l r, q.Within word (l ++ split.1) split.2
  | alt p q, l, r => p.Within word l r ∧ q.Within word l r
  | opt p, l, r => p.Within word l r

/-- A run that ends in the text is the same when the text goes on. -/
theorem runs_append {n : Nat} {accepts : α → Bool} {r s : List α}
    (h : ∃ c ∈ r, accepts c = false) :
    runs n accepts (r ++ s) = (runs n accepts r).map fun split => (split.1, split.2 ++ s) := by
  induction r generalizing n with
  | nil =>
    obtain ⟨c, hc, -⟩ := h
    exact absurd hc List.not_mem_nil
  | cons c r ih =>
    rw [List.cons_append, runs, runs, List.map_append]
    congr 1
    · split
      · rename_i hc
        obtain ⟨b, hb, hfalse⟩ := h
        have hrest : ∃ b ∈ r, accepts b = false := by
          rcases List.mem_cons.mp hb with rfl | hb
          · rw [hc] at hfalse
            exact nomatch hfalse
          · exact ⟨b, hb, hfalse⟩
        rw [ih hrest, List.map_map, List.map_map]
        rfl
      · rfl
    · split
      · rfl
      · rfl

/-- **Within a text, what comes after it makes no difference.**  By induction on the pattern; the
    sequence is the case for which `Within` asks of the second part at every place where the first
    may end. -/
theorem tries_append {p : Pattern α} {l r s : List α} (h : p.Within word l r) :
    p.tries word l (r ++ s) = (p.tries word l r).map fun split => (split.1, split.2 ++ s) := by
  induction p generalizing l r with
  | empty => rfl
  | set accepts =>
    cases r with
    | nil => exact absurd rfl h
    | cons c r =>
      rw [List.cons_append, tries, tries]
      split
      · rfl
      · rfl
  | run n accepts => exact runs_append h
  | boundary =>
    have hat : atBoundary word l (r ++ s) = atBoundary word l r := by
      cases r with
      | nil => exact absurd rfl h
      | cons c r => rfl
    rw [tries, tries, hat]
    split
    · rfl
    · rfl
  | seq p q ihp ihq =>
    rw [tries, tries, ihp h.1, List.flatMap_map, List.map_flatMap]
    refine List.flatMap_congr fun split hsplit => ?_
    rw [ihq (h.2 split hsplit), List.map_map, List.map_map]
    rfl
  | alt p q ihp ihq =>
    rw [tries, tries, ihp h.1, ihq h.2, List.map_append]
  | opt p ih =>
    rw [tries, tries, ih h, List.map_append]
    rfl

/-- A pattern is within a text that has a symbol it avoids. -/
theorem within_of_avoids {p : Pattern α} {c : α} {l r s : List α} (h : p.Avoids c) :
    p.Within word l (r ++ c :: s) := by
  induction p generalizing l r with
  | empty => trivial
  | set accepts => exact List.append_ne_nil_of_right_ne_nil _ (List.cons_ne_nil _ _)
  | run n accepts => exact ⟨c, List.mem_append_right _ List.mem_cons_self, h⟩
  | boundary => exact List.append_ne_nil_of_right_ne_nil _ (List.cons_ne_nil _ _)
  | seq p q ihp ihq =>
    refine ⟨ihp h.1, fun split hsplit => ?_⟩
    obtain ⟨hr, haccepts⟩ := mem_tries.mp hsplit
    obtain ⟨r', -, hr'⟩ := exists_left hr (haccepts.not_mem h.1)
    rw [hr']
    exact ihq h.2
  | alt p q ihp ihq => exact ⟨ihp h.1, ihq h.2⟩
  | opt p ih => exact ih h

/-- If the first pattern avoids a symbol of the text, the second starts before it. -/
theorem within_seq {p q : Pattern α} {c : α} {l r s : List α} (hp : p.Avoids c)
    (hq : ∀ l r', q.Within word l (r' ++ c :: s)) : (p.seq q).Within word l (r ++ c :: s) := by
  refine ⟨within_of_avoids hp, fun split hsplit => ?_⟩
  obtain ⟨hr, haccepts⟩ := mem_tries.mp hsplit
  obtain ⟨r', -, hr'⟩ := exists_left hr (haccepts.not_mem hp)
  rw [hr']
  exact hq _ _

/-! ## What a match depends on, and where it ends -/

/-- Of the text on the left only the last symbol counts, and only whether it is one of a word. -/
theorem Accepts.congr_left {p : Pattern α} {l l' u v : List α}
    (hl : l.getLast?.any word = l'.getLast?.any word) (h : p.Accepts word l u v) :
    p.Accepts word l' u v := by
  induction p generalizing l l' u v with
  | empty => exact h
  | set accepts => exact h
  | run n accepts => exact h
  | boundary =>
    obtain ⟨hu, hat⟩ := h
    refine ⟨hu, ?_⟩
    unfold atBoundary at hat ⊢
    rw [← hl]
    exact hat
  | seq p q ihp ihq =>
    obtain ⟨a, b, hu, hp, hq⟩ := h
    refine ⟨a, b, hu, ihp hl hp, ihq ?_ hq⟩
    -- what the first pattern takes is to the left of the second
    rcases List.eq_nil_or_concat' a with rfl | ⟨a, c, rfl⟩
    · rw [List.append_nil, List.append_nil]
      exact hl
    · rw [← List.append_assoc, ← List.append_assoc, List.getLast?_concat, List.getLast?_concat]
  | alt p q ihp ihq =>
    rcases h with h | h
    · exact .inl (ihp hl h)
    · exact .inr (ihq hl h)
  | opt p ih =>
    rcases h with h | h
    · exact .inl (ih hl h)
    · exact .inr h

/-- What the matcher tries first stops only before a symbol that is not in the set. -/
def Greedy (word : α → Bool) (accepts : α → Bool) (p : Pattern α) : Prop :=
  ∀ l r u v, (p.tries word l r).head? = some (u, v) → ∀ c ∈ v.head?, accepts c = false

/-- The longest run ends where a symbol is not taken, or at the end of the text. -/
theorem head?_runs {n : Nat} {accepts : α → Bool} {r u v : List α}
    (h : (runs n accepts r).head? = some (u, v)) : ∀ c ∈ v.head?, accepts c = false := by
  induction r generalizing n u with
  | nil =>
    have hmem := mem_runs.mp (List.mem_of_head? h)
    obtain ⟨-, rfl⟩ := List.append_eq_nil_iff.mp hmem.1.symm
    rintro c ⟨⟩
  | cons d r ih =>
    rw [runs] at h
    cases hd : accepts d with
    | false =>
      have hmem := mem_runs.mp (List.mem_of_head? (show (runs n accepts (d :: r)).head? = _ from h))
      obtain ⟨hsplit, -, hall⟩ := hmem
      cases u with
      | nil =>
        rw [List.nil_append] at hsplit
        rw [← hsplit]
        rintro c ⟨⟩
        exact hd
      | cons x u =>
        obtain ⟨rfl, -⟩ := List.cons.inj hsplit
        have := hall d List.mem_cons_self
        rw [hd] at this
        cases this
    | true =>
      rw [hd, if_pos rfl] at h
      cases htail : runs (n - 1) accepts r with
      | nil =>
        -- a run of none would be one more way
        have hnone : n ≠ 0 := by
          rintro rfl
          have hmem : (([] : List α), r) ∈ runs 0 accepts r :=
            mem_runs.mpr ⟨rfl, Nat.le_refl 0, fun c hc => absurd hc List.not_mem_nil⟩
          rw [show (0 : Nat) = 0 - 1 from rfl, htail] at hmem
          exact absurd hmem List.not_mem_nil
        rw [htail, List.map_nil, List.nil_append, if_neg hnone] at h
        cases h
      | cons split tail =>
        rw [htail, List.map_cons, List.cons_append, List.head?_cons] at h
        obtain ⟨rfl, rfl⟩ := Prod.mk.inj (Option.some.inj h)
        exact ih (u := split.1) (by rw [htail]; rfl)

/-- A repetition of a character class is greedy: its first try is its longest. -/
theorem greedy_run {n : Nat} {accepts : α → Bool} : (run n accepts).Greedy word accepts :=
  fun _ _ _ _ h => head?_runs h

/-- The first of many is the first of one of them. -/
theorem head?_flatMap {β γ : Type} {f : β → List γ} {xs : List β} {y : γ}
    (h : (xs.flatMap f).head? = some y) : ∃ x ∈ xs, (f x).head? = some y := by
  induction xs with
  | nil => cases h
  | cons x xs ih =>
    rw [List.flatMap_cons, List.head?_append] at h
    cases hx : (f x).head? with
    | some z =>
      rw [hx] at h
      exact ⟨x, List.mem_cons_self, by rw [hx]; exact h⟩
    | none =>
      rw [hx] at h
      obtain ⟨x', hmem, hhead⟩ := ih h
      exact ⟨x', List.mem_cons_of_mem _ hmem, hhead⟩

/-- A sequence is greedy if its second part is: the first try of all is a first try of that part. -/
theorem greedy_seq {p q : Pattern α} {accepts : α → Bool} (h : q.Greedy word accepts) :
    (p.seq q).Greedy word accepts := by
  intro l r u v hhead
  obtain ⟨first, -, hfirst⟩ := head?_flatMap hhead
  rw [List.head?_map] at hfirst
  obtain ⟨⟨u', v'⟩, hsecond, heq⟩ := Option.map_eq_some_iff.mp hfirst
  obtain ⟨-, rfl⟩ := Prod.mk.inj heq
  exact h _ _ _ _ hsecond

end Pattern

end Regex
