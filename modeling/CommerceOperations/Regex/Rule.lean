/-
  Replacing all matches of a regular expression in a text.

  The text is read from left to right: where the expression matches, the first match the matcher
  tries is replaced and its symbols are skipped, elsewhere a symbol is kept.  `scan` does this from
  a place on, and `before` up to a place, as long as no match covers it; the two together are the
  scan of the whole text (`scan_of_before`).

  `scan` carries a number of symbols to be skipped, so that it is a recursion on the text alone.
  Where the proofs follow it they go from match to match instead, by `scan_some`.

  The last part says where a text `t` that occurs in the result comes from, when the replacements
  end in a symbol that is not in `t`: from the text itself, or from a match whose replacement `t`
  reaches into (`exists_of_scan`).
-/
import CommerceOperations.Regex.Pattern

namespace Regex

variable {α : Type}

/-- A pattern in two parts, of which the first is the group the replacement is made of. -/
structure Rule (word : α → Bool) where
  /-- what is kept of a match -/
  group : Pattern α
  /-- what is not -/
  rest : Pattern α
  /-- the replacement, made of the group -/
  new : List α → List α
  /-- so a match is never empty, and the scan gets on -/
  group_ne_nil : ∀ l u v, group.Accepts word l u v → u ≠ []

namespace Rule

variable {word : α → Bool} (rule : Rule word)

/-- The rule matches between `l` and `v`, with `g` in the group. -/
def Matches (l g e v : List α) : Prop :=
  rule.group.Accepts word l g (e ++ v) ∧ rule.rest.Accepts word (l ++ g) e v

/-- The first match that is tried at a place. -/
def first (l r : List α) : Option (List α × List α) :=
  ((rule.group.tries word l r).flatMap fun split =>
    (rule.rest.tries word (l ++ split.1) split.2).map fun split' => (split.1, split'.1)).head?

/-- `sub` from a place on, with `k` symbols of a match to be skipped. -/
def scan : Nat → List α → List α → List α
  | _, _, [] => []
  | k + 1, l, c :: r => scan k (l ++ [c]) r
  | 0, l, c :: r =>
    match rule.first l (c :: r) with
    | some (g, e) => rule.new g ++ scan ((g ++ e).length - 1) (l ++ [c]) r
    | none => c :: scan 0 (l ++ [c]) r

/-- `sub`: every match is replaced, from the left, and matches do not overlap. -/
def sub (r : List α) : List α := rule.scan 0 [] r

/-- What `sub` makes of the text up to a place that `m` follows, if no match covers the place. -/
def before (m : List α) : Nat → List α → List α → Option (List α)
  | 0, _, [] => some []
  | _ + 1, _, [] => none
  | k + 1, l, c :: r => before m k (l ++ [c]) r
  | 0, l, c :: r =>
    match rule.first l (c :: r ++ m) with
    | some (g, e) => (before m ((g ++ e).length - 1) (l ++ [c]) r).map fun r' => rule.new g ++ r'
    | none => (before m 0 (l ++ [c]) r).map fun r' => c :: r'

variable {rule} {l r m : List α}

/-! ## The first match -/

/-- A match that is found is one, and begins where it was looked for. -/
theorem exists_of_first {g e : List α} (h : rule.first l r = some (g, e)) :
    ∃ v, r = g ++ (e ++ v) ∧ rule.Matches l g e v := by
  obtain ⟨split, hsplit, hmem⟩ := List.mem_flatMap.mp (List.mem_of_head? h)
  obtain ⟨split', hsplit', heq⟩ := List.mem_map.mp hmem
  obtain ⟨rfl, rfl⟩ := Prod.mk.inj heq
  obtain ⟨hr, hgroup⟩ := Pattern.mem_tries.mp hsplit
  obtain ⟨hv, hrest⟩ := Pattern.mem_tries.mp hsplit'
  refine ⟨split'.2, by rw [hr, hv], ?_, hrest⟩
  rw [← hv]
  exact hgroup

/-- Where there is a match, one is found. -/
theorem first_ne_none {g e v : List α} (h : rule.Matches l g e v) :
    rule.first l (g ++ (e ++ v)) ≠ none := by
  intro hnone
  have hempty := List.head?_eq_none_iff.mp hnone
  have hmem : (g, e) ∈ (rule.group.tries word l (g ++ (e ++ v))).flatMap fun split =>
      (rule.rest.tries word (l ++ split.1) split.2).map fun split' => (split.1, split'.1) :=
    List.mem_flatMap.mpr ⟨(g, e ++ v), Pattern.mem_tries.mpr ⟨rfl, h.1⟩,
      List.mem_map.mpr ⟨(e, v), Pattern.mem_tries.mpr ⟨rfl, h.2⟩, rfl⟩⟩
  rw [hempty] at hmem
  exact absurd hmem List.not_mem_nil

/-- Where nothing matches, none is found. -/
theorem first_eq_none (h : ∀ g e v, r = g ++ (e ++ v) → ¬rule.Matches l g e v) :
    rule.first l r = none := by
  cases hfirst : rule.first l r with
  | none => rfl
  | some found =>
    obtain ⟨v, hr, hmatches⟩ := exists_of_first hfirst
    exact absurd hmatches (h _ _ v hr)

/-- None is found in a text without the symbols a match needs. -/
theorem first_none_of_needs {K : α → Prop} (hneeds : (rule.group.seq rule.rest).Needs K)
    (hr : ∀ c ∈ r, ¬K c) : rule.first l r = none := by
  refine first_eq_none fun g e v hsplit hmatches => ?_
  have haccepts : (rule.group.seq rule.rest).Accepts word l (g ++ e) v :=
    ⟨g, e, rfl, hmatches.1, hmatches.2⟩
  obtain ⟨c, hc, hK⟩ := haccepts.exists_mem hneeds
  refine hr c ?_ hK
  rw [hsplit, ← List.append_assoc]
  exact List.mem_append_left _ hc

/-- None is found before a symbol the group avoids, unless the group finds there what it needs. -/
theorem first_none_of_avoids {K : α → Prop} {d : α} {w : List α} (hneeds : rule.group.Needs K)
    (havoids : rule.group.Avoids d) (hw : ∀ c ∈ w, ¬K c) : rule.first l (w ++ d :: r) = none := by
  refine first_eq_none fun g e v hsplit hmatches => ?_
  obtain ⟨c, hc, hK⟩ := hmatches.1.exists_mem hneeds
  obtain ⟨w', rfl, -⟩ := Pattern.exists_left hsplit (hmatches.1.not_mem havoids)
  exact hw c (List.mem_append_left _ hc) hK

/-- Matching on `l` and `r` never looks at what comes after `r`. -/
def Within (rule : Rule word) (l r : List α) : Prop :=
  (rule.group.seq rule.rest).Within word l r

/-- The match found does not depend on what comes after. -/
theorem first_append {s : List α} (h : rule.Within l r) :
    rule.first l (r ++ s) = rule.first l r := by
  unfold first
  rw [Pattern.tries_append h.1, List.flatMap_map]
  congr 1
  refine List.flatMap_congr fun split hsplit => ?_
  rw [Pattern.tries_append (h.2 split hsplit), List.map_map]
  rfl

/-! ## The scan -/

/-- What is to be skipped is skipped. -/
theorem scan_skip {u : List α} : rule.scan u.length l (u ++ r) = rule.scan 0 (l ++ u) r := by
  induction u generalizing l with
  | nil => rw [List.append_nil, List.nil_append, List.length_nil]
  | cons c u ih =>
    rw [List.length_cons, List.cons_append, scan, ih, List.append_assoc, List.singleton_append]

/-- At the end of the text there is nothing left to do. -/
theorem scan_nil : rule.scan 0 l [] = [] := rfl

/-- Where nothing matches a symbol is kept. -/
theorem scan_none {c : α} (h : rule.first l (c :: r) = none) :
    rule.scan 0 l (c :: r) = c :: rule.scan 0 (l ++ [c]) r := by
  rw [scan, h]

/-- A match is replaced, and the scan goes on after it. -/
theorem scan_some {g e : List α} (h : rule.first l r = some (g, e)) :
    ∃ v, r = g ++ (e ++ v) ∧ rule.Matches l g e v ∧
      rule.scan 0 l r = rule.new g ++ rule.scan 0 (l ++ (g ++ e)) v := by
  obtain ⟨v, rfl, hmatches⟩ := exists_of_first h
  refine ⟨v, rfl, hmatches, ?_⟩
  obtain ⟨c, g', rfl⟩ := List.exists_cons_of_ne_nil (rule.group_ne_nil _ _ _ hmatches.1)
  have hskip := @scan_skip _ _ rule (l ++ [c]) v (g' ++ e)
  rw [List.append_assoc, List.append_assoc, List.singleton_append] at hskip
  show rule.scan 0 l (c :: (g' ++ (e ++ v))) = _
  rw [scan, show rule.first l (c :: (g' ++ (e ++ v))) = some (c :: g', e) from h]
  show _ ++ rule.scan ((g' ++ e).length + 1 - 1) (l ++ [c]) (g' ++ (e ++ v)) = _
  rw [Nat.add_sub_cancel, hskip]
  rfl

/-- Where nothing matches at the symbols of `u`, these are kept. -/
theorem scan_append {u : List α}
    (h : ∀ a c b, u = a ++ c :: b → rule.first (l ++ a) (c :: b ++ r) = none) :
    rule.scan 0 l (u ++ r) = u ++ rule.scan 0 (l ++ u) r := by
  induction u generalizing l with
  | nil => rw [List.nil_append, List.nil_append, List.append_nil]
  | cons c u ih =>
    have hnone := h [] c u rfl
    rw [List.append_nil, List.cons_append] at hnone
    rw [List.cons_append, scan_none hnone, ih fun a c' b hu => ?_]
    · rw [List.append_assoc, List.singleton_append, List.cons_append]
    · rw [List.append_assoc]
      exact h (c :: a) c' b (by rw [hu, List.cons_append])

/-- A word without the symbols the group needs is kept, with the symbol after it. -/
theorem scan_word {K : α → Prop} {d : α} {w : List α} (hneeds : rule.group.Needs K)
    (havoids : rule.group.Avoids d) (hw : ∀ c ∈ w, ¬K c) :
    rule.scan 0 l (w ++ d :: r) = w ++ d :: rule.scan 0 (l ++ (w ++ [d])) r := by
  have hlast : rule.first (l ++ w) (d :: r) = none :=
    @first_none_of_avoids _ _ rule (l ++ w) r K d [] hneeds havoids
      fun c hc => absurd hc List.not_mem_nil
  rw [scan_append fun a c b hsplit => ?_, scan_none hlast, List.append_assoc]
  refine first_none_of_avoids hneeds havoids fun x hx => hw x ?_
  rw [hsplit]
  exact List.mem_append_right _ hx

/-- A text without a match anywhere stays as it is. -/
theorem scan_eq_self (h : ∀ a c b, r = a ++ c :: b → rule.first (l ++ a) (c :: b) = none) :
    rule.scan 0 l r = r := by
  have happend := @scan_append _ _ rule l [] r fun a c b hr => by
    rw [List.append_nil]
    exact h a c b hr
  rw [List.append_nil, scan_nil, List.append_nil] at happend
  exact happend

/-! ## The scan up to a place -/

/-- **Up to a place that no match covers, and from there on.** -/
theorem scan_of_before {k : Nat} {p p' : List α} (h : rule.before m k l p = some p') :
    rule.scan k l (p ++ m) = p' ++ rule.scan 0 (l ++ p) m := by
  induction p generalizing k l p' with
  | nil =>
    cases k with
    | zero =>
      obtain rfl := Option.some.inj h
      rw [List.nil_append, List.nil_append, List.append_nil]
    | succ k => exact nomatch h
  | cons c p ih =>
    have hl : l ++ c :: p = l ++ [c] ++ p := by rw [List.append_assoc, List.singleton_append]
    rw [List.cons_append, hl]
    cases k with
    | succ k =>
      rw [before] at h
      rw [scan]
      exact ih h
    | zero =>
      rw [before] at h
      rw [scan]
      rw [List.cons_append] at h
      split at h
      · obtain ⟨q, hq, rfl⟩ := Option.map_eq_some_iff.mp h
        rw [ih hq]
        exact (List.append_assoc ..).symm
      · obtain ⟨q, hq, rfl⟩ := Option.map_eq_some_iff.mp h
        rw [ih hq, List.cons_append]

/-- The first match stops only before a symbol that the last run of the pattern does not take. -/
theorem first_greedy {accepts : α → Bool} (hrule : rule.rest.Greedy word accepts) {g e v : List α}
    (h : rule.first l (g ++ (e ++ v)) = some (g, e)) : ∀ c ∈ v.head?, accepts c = false := by
  obtain ⟨split, hsplit, hhead⟩ := Pattern.head?_flatMap h
  rw [List.head?_map] at hhead
  obtain ⟨⟨e', v'⟩, hrest, heq⟩ := Option.map_eq_some_iff.mp hhead
  obtain ⟨rfl, rfl⟩ := Prod.mk.inj heq
  -- what is left after the group and the rest is `v`
  have hgroup := (Pattern.mem_tries.mp hsplit).1
  have hv := (Pattern.mem_tries.mp (List.mem_of_head? hrest)).1
  rw [hv] at hgroup
  have hsame := List.append_cancel_left (List.append_cancel_left hgroup)
  rw [hsame]
  exact hrule _ _ _ _ hrest

/-- If a match covers the place, then one that is found before it reaches beyond it. -/
theorem exists_of_before_none {k : Nat} {p : List α} (h : rule.before m k l p = none)
    (hk : k ≤ p.length) :
    ∃ a b g e, p = a ++ b ∧ b ≠ [] ∧ rule.first (l ++ a) (b ++ m) = some (g, e) ∧
      b.length < (g ++ e).length := by
  induction p generalizing k l with
  | nil =>
    obtain rfl := Nat.le_zero.mp hk
    cases h
  | cons c p ih =>
    rw [List.length_cons] at hk
    have hlater : ∀ {k : Nat}, rule.before m k (l ++ [c]) p = none → k ≤ p.length →
        ∃ a b g e, c :: p = a ++ b ∧ b ≠ [] ∧ rule.first (l ++ a) (b ++ m) = some (g, e) ∧
          b.length < (g ++ e).length := by
      intro k hbefore hle
      obtain ⟨a, b, g, e, rfl, hb, hfirst, hlt⟩ := ih hbefore hle
      rw [List.append_assoc] at hfirst
      exact ⟨c :: a, b, g, e, rfl, hb, hfirst, hlt⟩
    cases k with
    | succ k =>
      rw [before] at h
      exact hlater h (by omega)
    | zero =>
      rw [before] at h
      split at h
      · rename_i g e hfirst
        by_cases hle : (g ++ e).length - 1 ≤ p.length
        · exact hlater (Option.map_eq_none_iff.mp h) hle
        · -- the match itself reaches beyond the place
          refine ⟨[], c :: p, g, e, rfl, List.cons_ne_nil _ _, ?_, ?_⟩
          · rw [List.append_nil]
            exact hfirst
          · rw [List.length_cons]
            omega
      · exact hlater (Option.map_eq_none_iff.mp h) (Nat.zero_le _)

/-- More symbols to be skipped than there are reach beyond the place. -/
theorem before_of_lt {k : Nat} {p : List α} (h : p.length < k) : rule.before m k l p = none := by
  induction p generalizing k l with
  | nil =>
    obtain ⟨k, rfl⟩ := Nat.exists_eq_succ_of_ne_zero (Nat.ne_of_gt h)
    rfl
  | cons c p ih =>
    obtain ⟨k, rfl⟩ := Nat.exists_eq_succ_of_ne_zero (Nat.ne_of_gt (Nat.zero_lt_of_lt h))
    rw [List.length_cons] at h
    rw [before]
    exact ih (by omega)

/-- If there is a match at a place, and all matches found up to there reach beyond the end, then one
    of them covers it. -/
theorem before_eq_none {a b : List α} (hb : b ≠ []) (hfirst : rule.first (l ++ a) (b ++ m) ≠ none)
    (hreach : ∀ a₁ a₂ g e, a = a₁ ++ a₂ →
      rule.first (l ++ a₁) (a₂ ++ b ++ m) = some (g, e) → (a₂ ++ b).length < (g ++ e).length) :
    rule.before m 0 l (a ++ b) = none := by
  have hhere : ∀ {c : α} {p g e : List α}, p.length + 1 < (g ++ e).length →
      ((rule.before m ((g ++ e).length - 1) (l ++ [c]) p).map fun r' => rule.new g ++ r') = none := by
    intro c p g e hlt
    rw [before_of_lt (by omega)]
    rfl
  induction a generalizing l with
  | nil =>
    obtain ⟨c, b, rfl⟩ := List.exists_cons_of_ne_nil hb
    rw [List.append_nil] at hfirst
    rw [List.nil_append, before]
    split
    · rename_i g e hfound
      refine hhere ?_
      have hlt := hreach [] [] g e rfl (by rw [List.append_nil, List.nil_append]; exact hfound)
      rwa [List.nil_append, List.length_cons] at hlt
    · rename_i hfound
      exact absurd hfound hfirst
  | cons c a ih =>
    rw [List.cons_append, before]
    split
    · rename_i g e hfound
      refine hhere ?_
      have hlt := hreach [] (c :: a) g e rfl (by rw [List.append_nil]; exact hfound)
      rwa [List.cons_append, List.length_cons] at hlt
    · refine Option.map_eq_none_iff.mpr (ih ?_ ?_ ?_)
      · rw [List.append_assoc]
        exact hfirst
      · intro a₁ a₂ g e ha hfound
        rw [List.append_assoc] at hfound
        exact hreach (c :: a₁) a₂ g e (by rw [ha]; rfl) hfound
      · intro c p g e hlt
        rw [before_of_lt (by omega)]
        rfl

/-- The symbols that are skipped are of the text. -/
theorem before_skip {k : Nat} {p p' : List α} (h : rule.before m k l p = some p') :
    ∃ u v, p = u ++ v ∧ u.length = k ∧ rule.before m 0 (l ++ u) v = some p' := by
  induction k generalizing l p with
  | zero => exact ⟨[], p, rfl, rfl, by rw [List.append_nil]; exact h⟩
  | succ k ih =>
    cases p with
    | nil => cases h
    | cons c p =>
      rw [before] at h
      obtain ⟨u, v, rfl, hlength, hbefore⟩ := ih h
      rw [List.append_assoc] at hbefore
      exact ⟨c :: u, v, rfl, by rw [List.length_cons, hlength], hbefore⟩

/-- Whether a match covers the place does not depend on what comes after `m`, as long as matching
    never looks beyond. -/
theorem before_append {k : Nat} {p s : List α}
    (h : ∀ a c b, p = a ++ c :: b → rule.Within (l ++ a) (c :: b ++ m)) :
    rule.before (m ++ s) k l p = rule.before m k l p := by
  induction p generalizing k l with
  | nil =>
    cases k with
    | zero => rfl
    | succ k => rfl
  | cons c p ih =>
    have hwithin := h [] c p rfl
    rw [List.append_nil] at hwithin
    have hp : ∀ k, rule.before (m ++ s) k (l ++ [c]) p = rule.before m k (l ++ [c]) p :=
      fun k => ih fun a c' b hu => by
        rw [List.append_assoc]
        exact h (c :: a) c' b (by rw [hu]; rfl)
    cases k with
    | succ k => exact hp k
    | zero =>
      rw [before, before, ← List.append_assoc, first_append hwithin]
      split
      · rw [hp]
      · rw [hp]

/-- A match that covers the place is replaced, and some symbols of `m` are skipped.  By induction on
    the text; how many symbols are skipped does not depend on what comes after `m`, since matching
    never looks beyond it. -/
theorem scan_of_covered {k : Nat} {p : List α} (h : rule.before m k l p = none)
    (hk : k ≤ p.length + m.length)
    (hwithin : ∀ a c b, p = a ++ c :: b → rule.Within (l ++ a) (c :: b ++ m)) :
    ∃ q j, j < m.length ∧
      (∀ s, rule.scan k l (p ++ (m ++ s)) = q ++ rule.scan (j + 1) (l ++ p) (m ++ s)) ∧
      (k ≤ p.length → ∃ a g, q = a ++ rule.new g) ∧ (p.length < k → q = []) := by
  induction p generalizing k l with
  | nil =>
    cases k with
    | zero => exact nomatch h
    -- inside a match that began before `p`
    | succ k =>
      rw [List.length_nil] at hk
      refine ⟨[], k, by omega, fun s => ?_, fun hle => absurd hle (Nat.not_succ_le_zero k),
        fun _ => rfl⟩
      rw [List.nil_append, List.nil_append, List.append_nil]
  | cons c p ih =>
    have hl : l ++ c :: p = l ++ [c] ++ p := by rw [List.append_assoc, List.singleton_append]
    have hrest : ∀ a c' b, p = a ++ c' :: b → rule.Within (l ++ [c] ++ a) (c' :: b ++ m) := by
      intro a c' b hp
      rw [List.append_assoc]
      exact hwithin (c :: a) c' b (by rw [hp]; rfl)
    have hhere := hwithin [] c p rfl
    rw [List.append_nil] at hhere
    rw [List.length_cons] at hk ⊢
    cases k with
    | succ k =>
      rw [before] at h
      obtain ⟨q, j, hj, hscan, hnew, hnil⟩ := ih h (by omega) hrest
      refine ⟨q, j, hj, fun s => ?_, fun hle => hnew (by omega), fun hlt => hnil (by omega)⟩
      rw [List.cons_append, scan, hl]
      exact hscan s
    | zero =>
      -- a match that begins here ends within the text, so what comes after does not change it
      have hfirst : ∀ s, rule.first l (c :: (p ++ (m ++ s))) = rule.first l (c :: p ++ m) := by
        intro s
        rw [← first_append hhere, List.cons_append, List.cons_append, List.append_assoc]
      rw [before] at h
      split at h
      · rename_i g e hfound
        obtain ⟨v, hsplit, -⟩ := exists_of_first hfound
        have hlength := congrArg List.length hsplit
        simp only [List.length_append, List.length_cons] at hlength
        have hge : (g ++ e).length = g.length + e.length := List.length_append
        obtain ⟨q, j, hj, hscan, hnew, hnil⟩ := ih (Option.map_eq_none_iff.mp h) (by omega) hrest
        refine ⟨rule.new g ++ q, j, hj, fun s => ?_, fun _ => ?_, fun hlt => ?_⟩
        · rw [List.cons_append, scan, hfirst, hfound, hl]
          show rule.new g ++ _ = _
          rw [hscan]
          exact (List.append_assoc ..).symm
        · -- the match ends before the place, or it is the one that covers it
          by_cases hle : (g ++ e).length - 1 ≤ p.length
          · obtain ⟨a, g', rfl⟩ := hnew hle
            exact ⟨rule.new g ++ a, g', by rw [List.append_assoc]⟩
          · exact ⟨[], g, by rw [hnil (by omega), List.append_nil, List.nil_append]⟩
        · omega
      · rename_i hfound
        obtain ⟨q, j, hj, hscan, hnew, -⟩ :=
          ih (Option.map_eq_none_iff.mp h) (Nat.zero_le _) hrest
        refine ⟨c :: q, j, hj, fun s => ?_, fun _ => ?_, fun hlt => ?_⟩
        · rw [List.cons_append, scan, hfirst, hfound, hl]
          show c :: _ = _
          rw [hscan, List.cons_append]
        · obtain ⟨a, g, rfl⟩ := hnew (Nat.zero_le _)
          exact ⟨c :: a, g, List.cons_append⟩
        · omega

/-- No match covers a symbol the rule avoids. -/
theorem before_of_avoids {d : α} {k : Nat} {p s : List α}
    (havoids : (rule.group.seq rule.rest).Avoids d) (hk : k ≤ p.length) :
    ∃ p', rule.before (d :: s) k l p = some p' := by
  induction p generalizing k l with
  | nil =>
    obtain rfl := Nat.le_zero.mp hk
    exact ⟨[], rfl⟩
  | cons c p ih =>
    rw [List.length_cons] at hk
    cases k with
    | succ k =>
      rw [before]
      exact ih (by omega)
    | zero =>
      rw [before]
      split
      · rename_i g e hfound
        obtain ⟨v, hsplit, hmatches⟩ := exists_of_first hfound
        have haccepts : (rule.group.seq rule.rest).Accepts word l (g ++ e) v :=
          ⟨g, e, rfl, hmatches.1, hmatches.2⟩
        rw [← List.append_assoc] at hsplit
        obtain ⟨r', hr', -⟩ := Pattern.exists_left hsplit (haccepts.not_mem havoids)
        have hlength := congrArg List.length hr'
        rw [List.length_append, List.length_cons] at hlength
        obtain ⟨p', hp'⟩ := @ih (l ++ [c]) ((g ++ e).length - 1) (by omega)
        exact ⟨_, by rw [hp']; rfl⟩
      · obtain ⟨p', hp'⟩ := @ih (l ++ [c]) 0 (Nat.zero_le _)
        exact ⟨_, by rw [hp']; rfl⟩

/-- A symbol the rule avoids is kept, and the scan goes on after it. -/
theorem exists_sub_avoids {d : α} {p s : List α}
    (havoids : (rule.group.seq rule.rest).Avoids d) :
    ∃ p' l', rule.sub (p ++ d :: s) = p' ++ d :: rule.scan 0 l' s := by
  obtain ⟨p', hp'⟩ := @before_of_avoids _ _ rule [] d 0 p s havoids (Nat.zero_le _)
  have hnone : rule.first ([] ++ p) (d :: s) = none := by
    refine first_eq_none fun g e v hsplit hmatches => ?_
    obtain ⟨c, g, rfl⟩ := List.exists_cons_of_ne_nil (rule.group_ne_nil _ _ _ hmatches.1)
    obtain ⟨rfl, -⟩ := List.cons.inj hsplit
    exact hmatches.1.not_mem havoids.1 List.mem_cons_self
  exact ⟨p', _, by rw [sub, scan_of_before hp', scan_none hnone]⟩

/-- The replacements end in `close`. -/
def Closes (rule : Rule word) (close : α) : Prop := ∀ g, ∃ a, rule.new g = a ++ [close]

/-- Of a text that is not empty something is left: its first symbol, or a replacement. -/
theorem before_ne_nil {close c : α} {p p' : List α} (hclose : rule.Closes close)
    (h : rule.before m 0 l (c :: p) = some p') : p' ≠ [] := by
  rw [before] at h
  split at h
  · rename_i g e _
    obtain ⟨q, -, rfl⟩ := Option.map_eq_some_iff.mp h
    obtain ⟨a, ha⟩ := hclose g
    rw [ha, List.append_assoc]
    exact List.append_ne_nil_of_right_ne_nil _ (List.cons_ne_nil _ _)
  · obtain ⟨q, -, rfl⟩ := Option.map_eq_some_iff.mp h
    exact List.cons_ne_nil _ _

/-- What is before the end `t` of a text, against what is made of it: either nothing, or they end in
    the same symbol, or the one ends in a match and the other in its replacement. -/
def SameEnd (rule : Rule word) (m l t a a' : List α) : Prop :=
  (a' = [] ∧ a = []) ∨ (a' ≠ [] ∧ a.getLast? = a'.getLast?) ∨
    (∃ a₀ g e, a = a₀ ++ (g ++ e) ∧
      rule.first (l ++ a₀) (g ++ (e ++ (t ++ m))) = some (g, e) ∧
      ∃ b, a' = b ++ rule.new g)

/-- Two ends that are alike stay so when something is put in front of them, of the text and of what
    is made of it, unless there is nothing before them at all. -/
theorem SameEnd.append {x y a a' t : List α} (h : rule.SameEnd m (l ++ x) t a a') :
    (a' = [] ∧ a = []) ∨ rule.SameEnd m l t (x ++ a) (y ++ a') := by
  rcases h with hnil | ⟨hne, hlast⟩ | ⟨a₀, g, e, rfl, hfound, b, rfl⟩
  · exact .inl hnil
  · have hne' : a ≠ [] := by
      rintro rfl
      rw [List.getLast?_nil, eq_comm, List.getLast?_eq_none_iff] at hlast
      exact hne hlast
    refine .inr (.inr (.inl ⟨List.append_ne_nil_of_right_ne_nil _ hne, ?_⟩))
    rw [List.getLast?_append_of_ne_nil _ hne', List.getLast?_append_of_ne_nil _ hne, hlast]
  · refine .inr (.inr (.inr ⟨x ++ a₀, g, e, (List.append_assoc ..).symm, ?_, y ++ b,
      (List.append_assoc ..).symm⟩))
    rw [← List.append_assoc]
    exact hfound

/-- **The end of what is made of a text**, as far as no replacement reaches, is the end of the text.
    By induction on the text.  A replacement closes with a symbol that the end does not have, so the
    end begins after the last of them. -/
theorem before_end {close : α} (hclose : rule.Closes close) {p p' a' t : List α}
    (h : rule.before m 0 l p = some p') (hp' : p' = a' ++ t) (ht : close ∉ t) :
    ∃ a, p = a ++ t ∧ rule.SameEnd m l t a a' := by
  obtain ⟨n, hn⟩ : ∃ n, p.length ≤ n := ⟨_, Nat.le_refl _⟩
  induction n generalizing l p p' a' t with
  | zero =>
    obtain rfl := List.eq_nil_of_length_eq_zero (Nat.le_zero.mp hn)
    cases h
    obtain ⟨rfl, rfl⟩ := List.append_eq_nil_iff.mp hp'.symm
    exact ⟨[], rfl, .inl ⟨rfl, rfl⟩⟩
  | succ n ih =>
    cases p with
    | nil =>
      cases h
      obtain ⟨rfl, rfl⟩ := List.append_eq_nil_iff.mp hp'.symm
      exact ⟨[], rfl, .inl ⟨rfl, rfl⟩⟩
    | cons c p =>
      rw [List.length_cons] at hn
      rw [before] at h
      split at h
      · -- a match: the end is behind its replacement, which ends in `close`
        rename_i g e hfirst
        obtain ⟨p'', hbefore, rfl⟩ := Option.map_eq_some_iff.mp h
        obtain ⟨w, hw⟩ := hclose g
        obtain ⟨a'', ha', hp''⟩ : ∃ a'', a' = rule.new g ++ a'' ∧ p'' = a'' ++ t := by
          rcases List.append_eq_append_iff.mp hp' with ⟨k, hk, hp''⟩ | ⟨k, hk, ht'⟩
          · exact ⟨k, hk, hp''⟩
          · rcases List.eq_nil_or_concat' k with rfl | ⟨k, d, rfl⟩
            · rw [List.append_nil] at hk
              exact ⟨[], by rw [List.append_nil, hk], ht'.symm⟩
            · exfalso
              rw [hw, ← List.append_assoc] at hk
              have hd : close = d := List.singleton_inj.mp (List.append_inj' hk rfl).2
              refine ht ?_
              rw [ht', ← hd]
              exact List.mem_append_left _ (List.mem_append_right _ (List.mem_singleton_self _))
        -- the matcher goes on behind the match, where the induction hypothesis holds
        obtain ⟨u, v, rfl, hu, hrest⟩ := before_skip hbefore
        obtain ⟨x, hsplit, hmatches⟩ := exists_of_first hfirst
        have hpos := List.length_pos_iff.mpr (rule.group_ne_nil _ _ _ hmatches.1)
        have hmatch : g ++ e = c :: u := by
          have hcons : (c :: u) ++ (v ++ m) = (g ++ e) ++ x := by
            rw [List.append_assoc g e x, ← hsplit]
            simp only [List.cons_append, List.append_assoc]
          refine (List.append_inj hcons ?_).1.symm
          rw [List.length_cons, hu]
          have : (g ++ e).length = g.length + e.length := List.length_append
          omega
        have hl : l ++ [c] ++ u = l ++ (g ++ e) := by
          rw [hmatch, List.append_assoc]
          rfl
        rw [hl] at hrest
        have hlength : v.length ≤ n := by
          rw [List.length_append] at hn
          omega
        obtain ⟨a, rfl, hend⟩ := ih hrest hp'' ht hlength
        refine ⟨(g ++ e) ++ a, by rw [hmatch]; simp only [List.cons_append, List.append_assoc], ?_⟩
        rcases hend.append with ⟨rfl, rfl⟩ | hend
        · -- the replacement comes right before the end
          refine .inr (.inr ⟨[], g, e, by rw [List.append_nil, List.nil_append], ?_, [], ?_⟩)
          · rw [List.append_nil]
            have hsame : g ++ (e ++ (t ++ m)) = c :: (u ++ ([] ++ t)) ++ m := by
              rw [← List.append_assoc, hmatch]
              simp only [List.cons_append, List.append_assoc, List.nil_append]
            rw [hsame]
            exact hfirst
          · rw [ha', List.append_nil, List.nil_append]
        · rw [ha']
          exact hend
      · rename_i hfirst
        obtain ⟨p'', hbefore, rfl⟩ := Option.map_eq_some_iff.mp h
        cases a' with
        | nil =>
          -- the end is all of it, so nothing has been replaced
          rw [List.nil_append] at hp'
          have hmem : close ∉ p'' := fun hmem => ht (by
            rw [← hp']
            exact List.mem_cons_of_mem _ hmem)
          obtain ⟨a, rfl, hend⟩ := ih hbefore (List.nil_append p'').symm hmem (by omega)
          refine ⟨[], ?_, .inl ⟨rfl, rfl⟩⟩
          rcases hend with ⟨-, rfl⟩ | ⟨hne, -⟩ | ⟨a₀, g, e, -, -, b, hnil⟩
          · exact hp'
          · exact absurd rfl hne
          · obtain ⟨w, hw⟩ := hclose g
            rw [hw, ← List.append_assoc] at hnil
            exact absurd hnil.symm (List.append_ne_nil_of_right_ne_nil _ (List.cons_ne_nil _ _))
        | cons d a' =>
          obtain ⟨rfl, hp''⟩ := List.cons.inj hp'
          obtain ⟨a, rfl, hend⟩ := ih hbefore hp'' ht (by omega)
          refine ⟨c :: a, rfl, ?_⟩
          rcases hend.append (y := [c]) with ⟨rfl, rfl⟩ | hend
          · exact .inr (.inl ⟨List.cons_ne_nil _ _, rfl⟩)
          · exact hend

/-- What is made of a text ends as the text does, or as the replacements do. -/
theorem before_last {close : α} {P : α → Prop} {k : Nat} {p p' : List α}
    (hclose : rule.Closes close) (hP : P close) (h : rule.before m k l p = some p')
    (hp : ∀ c ∈ p.getLast?, P c) : ∀ c ∈ p'.getLast?, P c := by
  induction p generalizing k l p' with
  | nil =>
    cases k with
    | zero =>
      obtain rfl := Option.some.inj h
      exact hp
    | succ k => exact nomatch h
  | cons c p ih =>
    have hrest : ∀ b ∈ p.getLast?, P b := by
      intro b hb
      refine hp b ?_
      cases p with
      | nil => exact nomatch hb
      | cons d p =>
        rw [List.getLast?_cons_cons]
        exact hb
    cases k with
    | succ k =>
      rw [before] at h
      exact ih h hrest
    | zero =>
      have hne : ∀ {k' : Nat} {q : List α}, rule.before m k' (l ++ [c]) p = some q →
          q ≠ [] → ∀ u : List α, ∀ b ∈ (u ++ q).getLast?, P b := by
        intro k' q hq hne u b hb
        rw [List.getLast?_append_of_ne_nil _ hne] at hb
        exact ih hq hrest b hb
      rw [before] at h
      split at h
      · rename_i g e _
        obtain ⟨q, hq, rfl⟩ := Option.map_eq_some_iff.mp h
        by_cases hnil : q = []
        · obtain ⟨a, ha⟩ := hclose g
          rw [hnil, List.append_nil, ha, List.getLast?_concat]
          intro b hb
          rw [← Option.some.inj hb]
          exact hP
        · exact hne hq hnil _
      · obtain ⟨q, hq, rfl⟩ := Option.map_eq_some_iff.mp h
        by_cases hnil : q = []
        · cases p with
          | nil =>
            rw [hnil]
            exact hp
          | cons d p => exact absurd hnil (before_ne_nil hclose hq)
        · exact hne hq hnil [c]

/-! ## Where a text in the result comes from -/

/-- `t` reaches into the replacement of a match: of `t`, `x` is text and `y` is replacement.  Before
    it, `a` is text and `q` is replacement. -/
def Reaches (rule : Rule word) (l r t a q : List α) : Prop :=
  ∃ x g e v y z, r = a ++ (x ++ (g ++ (e ++ v))) ∧ rule.Matches (l ++ (a ++ x)) g e v ∧
    t = x ++ y ∧ y ≠ [] ∧ rule.new g = q ++ (y ++ z) ∧ (x = [] ∨ q = [])

/-- A text that reaches into a replacement still does when another text is put in front. -/
theorem Reaches.later {u t a q : List α} (h : rule.Reaches (l ++ u) r t a q) :
    rule.Reaches l (u ++ r) t (u ++ a) q := by
  obtain ⟨x, g, e, v, y, z, rfl, hmatches, ht, hy, hnew, hxq⟩ := h
  refine ⟨x, g, e, v, y, z, (List.append_assoc ..).symm, ?_, ht, hy, hnew, hxq⟩
  rw [List.append_assoc, ← List.append_assoc] at hmatches
  rw [List.append_assoc, ← List.append_assoc]
  exact hmatches

/-- A text without `close` that begins in a replacement is part of it. -/
theorem exists_of_new_append {close : α} (hclose : rule.Closes close) {g s t b : List α}
    (ht : close ∉ t) (h : rule.new g ++ s = t ++ b) : ∃ z, rule.new g = t ++ z := by
  rcases List.append_eq_append_iff.mp h with ⟨u, hu, -⟩ | ⟨z, hz, -⟩
  · -- otherwise `t` has the whole replacement, `close` included
    obtain ⟨a, ha⟩ := hclose g
    rw [hu, ha] at ht
    exact absurd (List.mem_append_left _ (List.mem_append_right _ (List.mem_singleton_self _))) ht
  · exact ⟨z, hz⟩

/-- A text the result begins with is in the text, or reaches into a replacement.  By induction on
    it: a symbol that is kept is one of the text, and at the first replacement the rest of it
    reaches in. -/
theorem eq_append_of_scan {close : α} (hclose : rule.Closes close) {t b : List α}
    (ht : close ∉ t) (h : rule.scan 0 l r = t ++ b) :
    (∃ b', r = t ++ b') ∨ rule.Reaches l r t [] [] := by
  induction r generalizing l t with
  | nil =>
    obtain ⟨rfl, rfl⟩ := List.append_eq_nil_iff.mp h.symm
    exact Or.inl ⟨[], rfl⟩
  | cons c r ih =>
    cases t with
    | nil => exact Or.inl ⟨c :: r, rfl⟩
    | cons d t =>
      cases hfirst : rule.first l (c :: r) with
      | none =>
        rw [scan_none hfirst, List.cons_append, List.cons.injEq] at h
        obtain ⟨rfl, h⟩ := h
        rcases ih (fun hmem => ht (List.mem_cons_of_mem _ hmem)) h with ⟨b', rfl⟩ | hreaches
        · exact Or.inl ⟨b', rfl⟩
        · obtain ⟨x, g, e, v, y, z, rfl, hmatches, rfl, hy, hnew, -⟩ := hreaches
          refine Or.inr ⟨c :: x, g, e, v, y, z, rfl, ?_, rfl, hy, hnew, Or.inr rfl⟩
          rw [List.append_assoc] at hmatches
          exact hmatches
      | some found =>
        obtain ⟨v, hr, hmatches, hscan⟩ := scan_some hfirst
        rw [hscan] at h
        obtain ⟨z, hz⟩ := exists_of_new_append hclose ht h
        refine Or.inr ⟨[], found.1, found.2, v, d :: t, z, hr, ?_, rfl, List.cons_ne_nil _ _, hz,
          Or.inl rfl⟩
        rw [List.append_nil, List.append_nil]
        exact hmatches

/-- **Where a text in the result comes from.**  It is in the text or reaches into a replacement, and
    if something precedes it in the result, then something does there.  By induction on the text;
    where it begins in the middle of a replacement it is part of it, because it does not have the
    closing symbol. -/
theorem exists_of_scan {close : α} (hclose : rule.Closes close) {t a' b : List α}
    (ht : close ∉ t) (hne : t ≠ []) (h : rule.scan 0 l r = a' ++ (t ++ b)) :
    (∃ a b', r = a ++ (t ++ b') ∧ (a' ≠ [] → a ≠ [])) ∨
      ∃ a q, rule.Reaches l r t a q ∧ (a' ≠ [] → a ≠ [] ∨ q ≠ []) := by
  obtain ⟨n, hn⟩ : ∃ n, r.length ≤ n := ⟨_, Nat.le_refl _⟩
  induction n generalizing l r a' with
  | zero =>
    obtain rfl := List.eq_nil_of_length_eq_zero (Nat.le_zero.mp hn)
    exact absurd (List.append_eq_nil_iff.mp (List.append_eq_nil_iff.mp h.symm).2).1 hne
  | succ n ih =>
    cases a' with
    | nil =>
      rcases eq_append_of_scan hclose ht h with ⟨b', rfl⟩ | hreaches
      · exact Or.inl ⟨[], b', rfl, fun h => absurd rfl h⟩
      · exact Or.inr ⟨[], [], hreaches, fun h => absurd rfl h⟩
    | cons d a' =>
      cases r with
      | nil => exact nomatch h
      | cons c r =>
        rw [List.length_cons] at hn
        cases hfirst : rule.first l (c :: r) with
        | none =>
          rw [scan_none hfirst, List.cons_append, List.cons.injEq] at h
          rcases ih h.2 (by omega) with ⟨a, b', rfl, -⟩ | ⟨a, q, hreaches, -⟩
          · exact Or.inl ⟨c :: a, b', rfl, fun _ => List.cons_ne_nil _ _⟩
          · exact Or.inr ⟨c :: a, q, hreaches.later, fun _ => Or.inl (List.cons_ne_nil _ _)⟩
        | some found =>
          obtain ⟨v, hr, hmatches, hscan⟩ := scan_some hfirst
          have hgroup := rule.group_ne_nil _ _ _ hmatches.1
          have hpre : found.1 ++ found.2 ≠ [] :=
            fun hnil => hgroup (List.append_eq_nil_iff.mp hnil).1
          have hv : v.length ≤ n := by
            have hlength := congrArg List.length hr
            have hpos := List.length_pos_iff.mpr hgroup
            simp only [List.length_cons, List.length_append] at hlength
            omega
          -- where `t` begins after the replacement, the rest of the scan decides
          have hafter : ∀ u, rule.scan 0 (l ++ (found.1 ++ found.2)) v = u ++ (t ++ b) →
              (∃ a b', c :: r = a ++ (t ++ b') ∧ (d :: a' ≠ [] → a ≠ [])) ∨
                ∃ a q, rule.Reaches l (c :: r) t a q ∧ (d :: a' ≠ [] → a ≠ [] ∨ q ≠ []) := by
            intro u hu
            rw [hr, ← List.append_assoc]
            rcases ih hu hv with ⟨a, b', rfl, -⟩ | ⟨a, q, hreaches, -⟩
            · exact Or.inl ⟨found.1 ++ found.2 ++ a, b', by simp only [List.append_assoc],
                fun _ hnil => hpre (List.append_eq_nil_iff.mp hnil).1⟩
            · exact Or.inr ⟨found.1 ++ found.2 ++ a, q, hreaches.later,
                fun _ => Or.inl fun hnil => hpre (List.append_eq_nil_iff.mp hnil).1⟩
          rw [hscan] at h
          rcases List.append_eq_append_iff.mp h with ⟨u, -, hrest⟩ | ⟨u, hu, hrest⟩
          · exact hafter u hrest
          · by_cases hnil : u = []
            · rw [hnil, List.nil_append] at hrest
              exact hafter [] hrest.symm
            · -- otherwise it begins in the replacement, which ends in `close`
              rcases List.append_eq_append_iff.mp hrest with ⟨z, hz, -⟩ | ⟨z, hz, -⟩
              · refine Or.inr ⟨[], d :: a', ⟨[], found.1, found.2, v, t, z, hr, ?_, rfl, hne, ?_,
                  Or.inl rfl⟩, fun _ => Or.inr (List.cons_ne_nil _ _)⟩
                · rw [List.append_nil, List.append_nil]
                  exact hmatches
                · rw [hu, hz]
              · obtain ⟨w, hw⟩ := hclose found.1
                have hlast : (rule.new found.1).getLast? = some close := by
                  rw [hw, List.getLast?_concat]
                rw [hu, List.getLast?_append_of_ne_nil _ hnil] at hlast
                rw [hz] at ht
                exact absurd (List.mem_append_left _ (List.mem_of_getLast? hlast)) ht

end Rule

end Regex
