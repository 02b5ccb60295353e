/-
  Runs with given answers.

  `post` speaks about every run of a program.  Where it matters that the answers are new (that an id
  is in use nowhere) one run is followed instead: `along` says what holds at its end when the
  environment answers `o n, o (n + 1), ..`, and counts the questions.
-/
import CommerceOperations.Relational.Database

namespace Relational

open Store

namespace Prog

variable {S W L ι E α β : Type} [Store S W L] {o : Nat → ι} {n : Nat} {D : S}

/-- The run from `D` with the answers from `o n` on ends in a value and a state in `Q`, which also
    sees the number of the next answer, or in an exception in `R`.  The number is what ids are told
    apart by: an answer that was given is not given again. -/
def along (o : Nat → ι) : Nat → Prog S W L ι E α → S → (Nat → α → S → Prop) → (E → Prop) → Prop
  | n, done a, D, Q, _ => Q n a D
  | _, raise e, _, _, R => R e
  | n, ask next, D, Q, R => (next (o n)).along o (n + 1) D Q R
  | n, stmt _ ws next, D, Q, R => (next D).along o n (applyAll (ws D) D) Q R

variable {Q : Nat → α → S → Prop} {R : E → Prop}

/-- **Sequencing.**  The second part goes on from the answer at which the first one stopped. -/
theorem along_bind {p : Prog S W L ι E β} {f : β → Prog S W L ι E α} :
    (p >>= f).along o n D Q R ↔
      p.along o n D (fun n b D' => (f b).along o n D' Q R) R := by
  induction p generalizing n D with
  | done b => exact Iff.rfl
  | raise e => exact Iff.rfl
  | ask next ih => exact ih (o n)
  | stmt ls ws next ih => exact ih D

/-- What holds at the end of the run may be weakened. -/
theorem along_mono {Q' : Nat → α → S → Prop} {R' : E → Prop} {p : Prog S W L ι E α}
    (h : p.along o n D Q R) (hQ : ∀ m a D', Q m a D' → Q' m a D') (hR : ∀ e, R e → R' e) :
    p.along o n D Q' R' := by
  induction p generalizing n D with
  | done a => exact hQ n a D h
  | raise e => exact hR e h
  | ask next ih => exact ih (o n) h
  | stmt ls ws next ih => exact ih D h

/-- What holds of every run holds of this one, and answers are only used up. -/
theorem along_of_post {p : Prog S W L ι E α} {P : α → S → Prop} (h : p.post D P R) :
    p.along o n D (fun m a D' => n ≤ m ∧ P a D') R := by
  induction p generalizing n D with
  | done a => exact ⟨le_rfl, h⟩
  | raise e => exact h
  | ask next ih =>
    refine along_mono (ih (o n) (h (o n))) (fun m a D' hP => ⟨?_, hP.2⟩) fun _ he => he
    omega
  | stmt ls ws next ih => exact ih D h

/-- The run is the one that `eval` computes, so that what is proved along the program can be
    compared with what is evaluated. -/
theorem along_iff_eval {p : Prog S W L ι E α} {P : α → S → Prop} :
    p.along o n D (fun _ => P) R ↔
      match p.eval o n D with
      | .ok (a, D') => P a D'
      | .error e => R e := by
  induction p generalizing n D with
  | done a => exact Iff.rfl
  | raise e => exact Iff.rfl
  | ask next ih => exact ih (o n)
  | stmt ls ws next ih => exact ih D

/-- A read returns what it finds in the state there is. -/
theorem along_query {f : S → α} :
    (query f : Prog S W L ι E α).along o n D Q R ↔ Q n (f D) D := Iff.rfl

/-- A question is answered by the next answer. -/
theorem along_answer {f : ι → α} :
    (answer f : Prog S W L ι E α).along o n D Q R ↔ Q (n + 1) (f (o n)) D := Iff.rfl

section Statements

variable {τ κ υ : Type} [DecidableEq τ] {R : τ → Type} [∀ i, Row (R i) κ υ] [DecidableEq κ]
  [DecidableEq υ] {ι E : Type} [SqlErrors E τ υ] {o : Nat → ι} {n : Nat} {D : Database R}
  {P : E → Prop}

/-- A row that is new in every way is inserted.  Newness is a condition on the state, to be carried
    from one statement to the next. -/
theorem along_insert {i : τ} {row : R i} {Q : Nat → R i → Database R → Prop}
    (hnew : (D.table i).conflicts row = false)
    (h : Q n row (Database.apply ⟨i, .insert row⟩ D)) :
    (insert i row : Sql R ι E _).along o n D Q P := by
  unfold insert statement along
  simp only [hnew, Bool.false_eq_true, if_false]
  exact h

/-- The row of a key is updated if it meets the condition.  The unique values stay, so there is no
    clash. -/
theorem along_updateWhere {i : τ} {k : κ} {cond : R i → Bool} {set : R i → R i} {r : R i}
    {Q : Nat → Option (R i) → Database R → Prop} (hget : (D.table i).get k = some r)
    (hunique : Row.uniques (set r) = Row.uniques r)
    (hsome : cond r = true → Q n (some (nextVersion i r (set r)))
      (Database.apply ⟨i, .update r (nextVersion i r (set r))⟩ D))
    (hnone : cond r = false → Q n none D) :
    (updateWhere i k cond set : Sql R ι E _).along o n D Q P := by
  have hclash : (D.table i).clashes r (set r) = false := Table.clashes_of_uniques_eq _ hunique
  unfold updateWhere statement along
  cases hcond : cond r with
  | true =>
    simp only [hget, hcond, if_true, replace, hclash, Bool.false_eq_true, if_false]
    exact hsome hcond
  | false =>
    simp only [hget, hcond, Bool.false_eq_true, if_false]
    exact hnone hcond

end Statements

end Prog

end Relational
