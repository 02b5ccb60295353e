/-
  The writes of a transaction, followed statement by statement.

  `Prog.sees` reads a committed transaction as a trail of locks and writes.  The crux here: what
  a statement saw may be older than the state the transaction is committed on, but under the locks
  of its own writes the two agree, so each write is the one it would be on the committed state.

  * `sees_insert`, `sees_updateWhere`, `sees_flush`, `sees_savepoint` — one trail lemma for each
    statement that writes;
  * `maintains` — a program keeps what is known of the writes so far;
  * `sees_of_runs` — a transaction on its own sees just the state it is committed on.
-/
import CommerceOperations.Relational.Database
import CommerceOperations.Relational.Sightings

namespace Relational

open Store

namespace Prog

section Trails

variable {S W L ι E α β : Type} [Store S W L]
variable {past : S → Prop} {D : S} {tr tr' : Trail W L} {a : α}

/-- A transaction keeps its locks to the end. -/
theorem held_subset_of_sees {p : Prog S W L ι E α} (h : p.sees past D tr a tr') :
    tr.held ⊆ tr'.held := by
  induction p generalizing tr with
  | done b =>
    obtain ⟨-, rfl⟩ := h
    exact fun ℓ hℓ => hℓ
  | raise e => exact h.elim
  | ask next ih =>
    obtain ⟨i, h⟩ := h
    exact ih i h
  | stmt ls ws next ih =>
    obtain ⟨D₁, -, h⟩ := h
    exact fun ℓ hℓ => ih _ h (List.mem_append_left _ hℓ)

/-- A trail only makes the state later, since every write does. -/
theorem earlier_of_sees {p : Prog S W L ι E α} (h : p.sees past D tr a tr') :
    earlier (tr.on D) (tr'.on D) := by
  induction p generalizing tr with
  | done b =>
    obtain ⟨-, rfl⟩ := h
    exact earlier_refl _
  | raise e => exact h.elim
  | ask next ih =>
    obtain ⟨i, h⟩ := h
    exact ih i h
  | stmt ls ws next ih =>
    obtain ⟨D₁, -, h⟩ := h
    have hlater := ih _ h
    rw [Trail.on_extend] at hlater
    exact earlier_trans (earlier_applyAll _ _) hlater

/-- A run of a transaction on its own is a reading in which every statement saw the state it is
    committed on.  So what is proved of readings holds of calls made one after the other as well. -/
theorem sees_of_runs {p : Prog S W L ι E α} {D' : S} (h : p.runs (tr.on D) (.ok (a, D'))) :
    ∃ tr', p.sees (· = D) D tr a tr' ∧ tr'.on D = D' := by
  induction p generalizing tr with
  | done b =>
    cases h
    exact ⟨tr, ⟨rfl, rfl⟩, rfl⟩
  | raise e => cases h
  | ask next ih =>
    obtain ⟨i, h⟩ := h
    obtain ⟨tr', hsees, hD'⟩ := ih i h
    exact ⟨tr', ⟨i, hsees⟩, hD'⟩
  | stmt ls ws next ih =>
    have hnext : (next (tr.on D)).runs ((tr.extend S (ls (tr.on D)) (ws (tr.on D))).on D)
        (.ok (a, D')) := by
      rw [Trail.on_extend]
      exact h
    obtain ⟨tr', hsees, hD'⟩ := ih _ hnext
    exact ⟨tr', ⟨D, ⟨rfl, earlier_refl _, agreeOn_refl _ _⟩, hsees⟩, hD'⟩

/-! ## Nested transactions -/

/-- While the writes `ws` are held back, the body sees what it would see with them made: they are
    under locks already, so the states seen agree with or without them where it matters.  By
    induction on the rest of the body. -/
theorem sees_savepointFrom {ws : List W} {p : Prog S W L ι E α} {r : Except E α}
    (hws : ∀ ℓ ∈ locksOf S ws, ℓ ∈ tr.held) (h : (savepointFrom ws p).sees past D tr r tr') :
    (∃ a held, r = .ok a ∧ p.sees past D ⟨tr.held, tr.writes ++ ws⟩ a ⟨held, tr'.writes⟩) ∨
      (∃ e, r = .error e) ∧ tr'.writes = tr.writes := by
  induction p generalizing ws tr with
  | done b =>
    obtain ⟨D₁, -, rfl, rfl⟩ := h
    exact Or.inl ⟨b, tr.held, rfl, rfl, rfl⟩
  | raise e =>
    obtain ⟨rfl, rfl⟩ := h
    exact Or.inr ⟨⟨e, rfl⟩, rfl⟩
  | ask next ih =>
    obtain ⟨i, h⟩ := h
    rcases ih i hws h with ⟨a, held, hr, hsees⟩ | hundone
    · exact Or.inl ⟨a, held, hr, i, hsees⟩
    · exact Or.inr hundone
  | stmt ls ws' next ih =>
    obtain ⟨D₁, hD₁, h⟩ := h
    have hagree := hD₁.agree
    simp only [agreeOn_append, locksOf_nil] at hagree
    obtain ⟨hheld, ⟨hls, hws'⟩, -⟩ := hagree
    have hwsagree : agreeOn (locksOf S ws) (tr.on D₁) (tr.on D) := fun ℓ hℓ => hheld ℓ (hws ℓ hℓ)
    -- the state the body saw is the one seen here, with the writes held back
    have hon : ∀ E : S, (⟨tr.held, tr.writes ++ ws⟩ : Trail W L).on E = applyAll ws (tr.on E) :=
      fun E => applyAll_append ..
    have hwider : ∀ ℓ ∈ locksOf S (ws ++ ws' (applyAll ws (tr.on D₁))),
        ℓ ∈ (tr.extend S (ls (applyAll ws (tr.on D₁)) ++
          locksOf S (ws' (applyAll ws (tr.on D₁)))) []).held := by
      intro ℓ hℓ
      simp only [locksOf_append, List.mem_append, Trail.extend, locksOf_nil] at hℓ ⊢
      rcases hℓ with hℓ | hℓ
      · exact Or.inl (hws ℓ hℓ)
      · exact Or.inr (Or.inl (Or.inr hℓ))
    rcases ih _ hwider h with ⟨a, held, hr, hsees⟩ | ⟨he, hundone⟩
    · refine Or.inl ⟨a, held, hr, D₁, ⟨hD₁.past, ?_, ?_⟩, ?_⟩
      · rw [hon, hon]
        exact applyAll_mono hD₁.earlier hwsagree
      · rw [hon, hon, agreeOn_append, agreeOn_append]
        exact ⟨applyAll_agreeOn hwsagree hheld, applyAll_agreeOn hwsagree hls,
          applyAll_agreeOn hwsagree hws'⟩
      · rw [hon]
        simpa [Trail.extend] using hsees
    · refine Or.inr ⟨he, ?_⟩
      rw [hundone]
      exact List.append_nil _

/-- A nested transaction went through, or has written nothing.  In the first case its body is read
    like any program; in the second nothing about the body is known or needed. -/
theorem sees_savepoint {p : Prog S W L ι E α} {r : Except E α}
    (h : p.savepoint.sees past D tr r tr') :
    (∃ a held, r = .ok a ∧ p.sees past D tr a ⟨held, tr'.writes⟩) ∨
      (∃ e, r = .error e) ∧ tr'.writes = tr.writes := by
  have hheld : ∀ ℓ ∈ locksOf S ([] : List W), ℓ ∈ tr.held := by simp
  have h' := sees_savepointFrom hheld h
  simpa using h'

/-! ## What is known of the writes -/

/-- `p` keeps `J`, which speaks about the writes made so far.  This is the invariant rule for the
    inside of one transaction: `J` may fail between two statements that belong together, but not
    between the parts of a sequence. -/
def maintains (past : S → Prop) (D : S) (J : List W → Prop) (p : Prog S W L ι E α) : Prop :=
  ∀ tr a tr', J tr.writes → p.sees past D tr a tr' → J tr'.writes

variable {J : List W → Prop}

/-- A program that is done makes no further write. -/
theorem maintains_done (b : α) : (done b : Prog S W L ι E α).maintains past D J := by
  rintro tr a tr' hJ ⟨-, rfl⟩
  exact hJ

/-- A program that raises is not committed, so nothing is to be shown of its writes. -/
theorem maintains_raise (e : E) : (raise e : Prog S W L ι E α).maintains past D J :=
  fun _ _ _ _ h => h.elim

/-- A question to the environment makes no write. -/
theorem maintains_answer (f : ι → α) : (answer f : Prog S W L ι E α).maintains past D J := by
  rintro tr a tr' hJ ⟨i, -, rfl⟩
  exact hJ

/-- A read makes no write, so it keeps every property of the writes. -/
theorem maintains_query (f : S → α) : (query f : Prog S W L ι E α).maintains past D J := by
  intro tr a tr' hJ h
  rw [(sees_query h).1]
  exact hJ

/-- **Sequencing.**  What both parts maintain, their sequence maintains. -/
theorem maintains_bind {p : Prog S W L ι E β} {f : β → Prog S W L ι E α}
    (hp : p.maintains past D J) (hf : ∀ b, (f b).maintains past D J) :
    (p >>= f).maintains past D J := by
  intro tr a tr' hJ h
  obtain ⟨b, tr₁, h₁, h₂⟩ := sees_bind.mp h
  exact hf b tr₁ a tr' (hp tr b tr₁ hJ h₁) h₂

/-- What a failed body wrote is undone, so nothing has to be shown of it. -/
theorem maintains_savepoint {p : Prog S W L ι E α} (hp : p.maintains past D J) :
    p.savepoint.maintains past D J := by
  intro tr r tr' hJ h
  rcases sees_savepoint h with ⟨a, held, -, hsees⟩ | ⟨-, hundone⟩
  · exact hp tr a ⟨held, tr'.writes⟩ hJ hsees
  · rw [hundone]
    exact hJ

end Trails

/-! ## Statements -/

/-- The state after a further write. -/
theorem on_of_writes {S W L : Type} [Store S W L] {tr tr' : Trail W L} {w : W}
    (h : tr'.writes = tr.writes ++ [w]) (D : S) : tr'.on D = Store.apply w (tr.on D) := by
  unfold Trail.on
  rw [h, applyAll_append]
  rfl

variable {τ κ υ : Type} [DecidableEq τ] [DecidableEq κ] [DecidableEq υ]
variable {R : τ → Type} [∀ i, Row (R i) κ υ] {ι E α : Type}
variable {past : Database R → Prop} {D : Database R}
variable {tr tr' : Trail (Write R) (Lock τ κ υ)} {a : α}

/-- A program of writes in `P` keeps what each such write keeps, whatever it reads.  This deals with
    the statements of a service that have nothing to do with `J`. -/
theorem maintains_of_writes {P : Write R → Prop} {bad : E → Prop} {J : List (Write R) → Prop}
    (hJ : ∀ ws w, P w → J ws → J (ws ++ [w])) {p : Sql R ι E α} (hp : p.writes P bad) :
    p.maintains past D J := by
  intro tr a tr' h hsees
  induction p generalizing tr with
  | done b =>
    obtain ⟨-, rfl⟩ := hsees
    exact h
  | raise e => exact hsees.elim
  | ask next ih =>
    obtain ⟨i, hsees⟩ := hsees
    exact ih i (hp i) tr h hsees
  | stmt ls ws next ih =>
    obtain ⟨D₁, -, hsees⟩ := hsees
    refine ih _ (hp _).2 _ ?_ hsees
    -- the writes of the statement, one after the other
    have hall : ∀ ws' before, (∀ w ∈ ws', P w) → J before → J (before ++ ws') := by
      intro ws'
      induction ws' with
      | nil =>
        intro before _ hbefore
        rwa [List.append_nil]
      | cons w ws' ihw =>
        intro before hws' hbefore
        have hw := hJ before w (hws' w List.mem_cons_self) hbefore
        have hrest := ihw (before ++ [w]) (fun w' hw' => hws' w' (List.mem_cons_of_mem _ hw')) hw
        rwa [List.append_assoc] at hrest
    exact hall _ _ (hp (tr.on D₁)).1 h

/-- A statement that writes went through on what it saw, which agrees with `D` on its locks. -/
theorem sees_statement {f : Database R → Except E (List (Write R) × α)}
    (h : (statement f : Sql R ι E α).sees past D tr a tr') :
    ∃ V ws, f V = .ok (ws, a) ∧ agreeOn (locksOf (Database R) ws) V (tr.on D) ∧
      tr' = tr.extend (Database R) [] ws := by
  obtain ⟨D₁, hD₁, h⟩ := h
  have hagree := hD₁.agree
  cases hf : f (tr.on D₁) with
  | error e =>
    simp only [hf] at h
    exact h.elim
  | ok x =>
    simp only [hf] at h hagree
    obtain ⟨rfl, rfl⟩ := h
    rw [agreeOn_append, agreeOn_append] at hagree
    exact ⟨tr.on D₁, x.1, hf, hagree.2.2, rfl⟩

variable [SqlErrors E τ υ] {i : τ}

/-- An INSERT met no conflict, and meets none in the state it is committed on: the locks of the
    insert decide. -/
theorem sees_insert {row r : R i} (h : (insert i row : Sql R ι E _).sees past D tr r tr') :
    r = row ∧ ((tr.on D).table i).conflicts row = false ∧
      tr'.writes = tr.writes ++ [⟨i, .insert row⟩] := by
  obtain ⟨V, ws, hf, hagree, rfl⟩ := sees_statement h
  split at hf
  · cases hf
  · rename_i hconf
    simp only [Except.ok.injEq, Prod.mk.injEq] at hf
    obtain ⟨rfl, rfl⟩ := hf
    refine ⟨rfl, ?_, rfl⟩
    rw [← Bool.not_eq_true, ← Table.conflicts_congr (t := V.table i)]
    · exact hconf
    · intro ℓ hℓ
      exact hagree ⟨i, ℓ⟩ (by simpa [locksOf, locks] using hℓ)

/-- A conditional UPDATE found the row of the committed state, and has it locked from then on; or it
    found none, and has written nothing.  The condition holds of the row as it is committed,
    although another session may have changed the row while the statement waited. -/
theorem sees_updateWhere {k : κ} {cond : R i → Bool} {set : R i → R i} {found : Option (R i)}
    (h : (updateWhere i k cond set : Sql R ι E _).sees past D tr found tr')
    (hset : ∀ r, Row.key (set r) = Row.key r ∧ Row.parents r = Row.parents (set r)) :
    (∃ r row, found = some row ∧ ((tr.on D).table i).get k = some r ∧ cond r = true ∧
      row = nextVersion i r (set r) ∧ ((tr.on D).table i).succeeds r row = true ∧
      ((tr.on D).table i).clashes r row = false ∧
      tr'.writes = tr.writes ++ [⟨i, .update r row⟩] ∧ ⟨i, .row k⟩ ∈ tr'.held) ∨
      (found = none ∧ tr'.writes = tr.writes) := by
  obtain ⟨V, ws, hf, hagree, rfl⟩ := sees_statement h
  cases hget : (V.table i).get k with
  | none =>
    simp only [hget, Except.ok.injEq, Prod.mk.injEq] at hf
    obtain ⟨rfl, rfl⟩ := hf
    exact Or.inr ⟨rfl, List.append_nil _⟩
  | some r =>
    cases hc : cond r with
    | false =>
      simp only [hget, hc, Bool.false_eq_true, if_false, Except.ok.injEq, Prod.mk.injEq] at hf
      obtain ⟨rfl, rfl⟩ := hf
      exact Or.inr ⟨rfl, List.append_nil _⟩
    | true =>
      cases hrep : (replace i r (set r) V : Except E _) with
      | error e =>
        rw [hget] at hf
        simp [hc, hrep, Except.map] at hf
      | ok x =>
        obtain ⟨ws', row⟩ := x
        simp only [hget, hc, if_true, hrep, Except.map, Except.ok.injEq, Prod.mk.injEq] at hf
        obtain ⟨rfl, rfl⟩ := hf
        have hk := Table.key_of_get hget
        obtain ⟨rfl, hrow, hget', hs, hcl⟩ :=
          replace_ok hrep hagree (hset r).1 (hset r).2 (by rw [hk, hget])
        rw [hk] at hget'
        refine Or.inl ⟨r, row, rfl, hget', hc, hrow, hs, hcl, rfl, ?_⟩
        have hkey : Row.key row = k := by
          rw [hrow, nextVersion, Row.key_withVersion, (hset r).1, hk]
        simp [Trail.extend, locksOf, locks, Table.locks, hkey]

/-- A flush replaced the row of the version loaded, or there was nothing to write.  As the version
    is that of the committed row, the object was current when it was written. -/
theorem sees_flush [DecidableEq (R i)] {loaded new row : R i}
    (h : (flush i loaded new : Sql R ι E _).sees past D tr row tr')
    (hkey : Row.key new = Row.key loaded) (hparents : ∀ r : R i, Row.parents r = Row.parents new) :
    (new = loaded ∧ row = loaded ∧ tr'.writes = tr.writes) ∨
      (new ≠ loaded ∧ ∃ r, ((tr.on D).table i).get (Row.key loaded) = some r ∧
        Row.version r = Row.version loaded ∧ row = nextVersion i r new ∧
        ((tr.on D).table i).succeeds r row = true ∧ ((tr.on D).table i).clashes r row = false ∧
        tr'.writes = tr.writes ++ [⟨i, .update r row⟩]) := by
  unfold flush at h
  split at h
  · rename_i heq
    obtain ⟨rfl, rfl⟩ := h
    exact Or.inl ⟨heq, rfl, rfl⟩
  · rename_i hne
    obtain ⟨V, ws, hf, hagree, rfl⟩ := sees_statement h
    cases hget : (V.table i).get (Row.key loaded) with
    | none => simp [hget] at hf
    | some r =>
      simp only [hget] at hf
      split at hf
      · rename_i hv
        have hk := Table.key_of_get hget
        obtain ⟨rfl, hrow, hget', hs, hcl⟩ :=
          replace_ok hf hagree (hkey.trans hk.symm) (hparents r) (by rw [hk, hget])
        rw [hk] at hget'
        exact Or.inr ⟨hne, r, hget', hv, hrow, hs, hcl, rfl⟩
      · cases hf

end Prog

end Relational
