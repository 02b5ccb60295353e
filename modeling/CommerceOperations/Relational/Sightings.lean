/-
  What a transaction saw, and what its client goes on from.

  A `Contract` speaks about the state a transaction commits on.  A client that goes on from the
  value a transaction returned relies on what its statements *saw*, and that may be older: under
  READ COMMITTED each statement sees the state committed when it starts, with the writes of its
  own transaction on it.

  `sees past D` reads a program as it is committed on `D`: every statement saw some state of
  `past`, no later than `D` and alike on the locks held.  A `Protocol` is a contract about such
  readings.  `since D₁ D` says what is still true of `D` when `D₁` was committed earlier, and each
  statement of a client in position `c` saw a state in which `c` `knows` its facts.

  * `Prog.sees_of_ensures`  — a reading has what `ensures` promises;
  * `Reachable.upheld`      — every interleaving keeps the protocol: its commits are a serial run
                              of the commit relations, and every client knows what it goes on from.
-/
import CommerceOperations.Relational.ReadCommitted

namespace Relational

open Store

variable {S W L ι E α β σ : Type} [Store S W L]

/-! ## Sightings -/

/-- A transaction under way: the locks it holds and its writes.  It is what is left of a run once
    the statements are forgotten. -/
structure Trail (W L : Type) where
  /-- The locks that are held. -/
  held : List L
  /-- The writes, in the order they were issued. -/
  writes : List W

namespace Trail

/-- A state with the writes of the transaction on it; of the state it is committed on, this is the
    result. -/
def on (tr : Trail W L) (D : S) : S := applyAll tr.writes D

/-- The transaction after a statement: the locks of the statement and of its writes are taken, and
    the writes are kept. -/
def extend (S : Type) {W L : Type} [Store S W L] (tr : Trail W L) (ls : List L) (ws : List W) :
    Trail W L := ⟨tr.held ++ (ls ++ locksOf S ws), tr.writes ++ ws⟩

/-- A transaction that begins, without a lock and without a write. -/
def start : Trail W L := ⟨[], []⟩

/-- The writes of a statement come after those before it. -/
theorem on_extend (tr : Trail W L) (ls : List L) (ws : List W) (D : S) :
    (tr.extend S ls ws).on D = applyAll ws (tr.on D) := applyAll_append ..

/-- A statement that neither locks nor writes leaves the trail as it is. -/
@[simp] theorem extend_nil (tr : Trail W L) : tr.extend S [] [] = tr := by
  simp [extend]

/-- A statement on `D₁` that takes `ls` and writes `ws`, as it is committed on `D`.  The state seen
    is one of the past, is earlier than the one committed on, and agrees with it on every lock the
    transaction then holds.  Reads without a lock may be as old as this allows; that is the
    difference between READ COMMITTED and a transaction that runs alone. -/
structure Sighting (past : S → Prop) (D : S) (tr : Trail W L) (ls : S → List L)
    (ws : S → List W) (D₁ : S) : Prop where
  /-- It was committed in the time that counts as past. -/
  past : past D₁
  /-- The state committed on is no older. -/
  earlier : earlier (tr.on D₁) (tr.on D)
  /-- Under the locks then held the two agree. -/
  agree : agreeOn (tr.held ++ (ls (tr.on D₁) ++ locksOf S (ws (tr.on D₁)))) (tr.on D₁) (tr.on D)

end Trail

namespace Prog

/-- Committed on `D`, the program can go from `tr` to the value `a` and the trail `tr'`, when each
    of its statements saw a state of `past`.  A program that raises is not committed and sees
    nothing. -/
def sees (past : S → Prop) (D : S) : Prog S W L ι E α → Trail W L → α → Trail W L → Prop
  | done b, tr, a, tr' => b = a ∧ tr = tr'
  | raise _, _, _, _ => False
  | ask next, tr, a, tr' => ∃ i, (next i).sees past D tr a tr'
  | stmt ls ws next, tr, a, tr' =>
    ∃ D₁, tr.Sighting past D ls ws D₁ ∧
      (next (tr.on D₁)).sees past D (tr.extend S (ls (tr.on D₁)) (ws (tr.on D₁))) a tr'

variable {past : S → Prop} {D : S} {tr tr' : Trail W L} {a : α}

/-- **Sequencing.**  A sequence is read part by part, the second from where the first one led. -/
theorem sees_bind {p : Prog S W L ι E β} {f : β → Prog S W L ι E α} :
    (p >>= f).sees past D tr a tr' ↔
      ∃ b tr₁, p.sees past D tr b tr₁ ∧ (f b).sees past D tr₁ a tr' := by
  induction p generalizing tr with
  | done b =>
    constructor
    · intro h
      exact ⟨b, tr, ⟨rfl, rfl⟩, h⟩
    · rintro ⟨b', tr₁, ⟨rfl, rfl⟩, h⟩
      exact h
  | raise e =>
    constructor
    · exact False.elim
    · rintro ⟨_, _, h, -⟩
      exact h
  | ask next ih =>
    simp only [ask_bind, sees, ih]
    constructor
    · rintro ⟨i, b, tr₁, h, h'⟩
      exact ⟨b, tr₁, ⟨i, h⟩, h'⟩
    · rintro ⟨b, tr₁, ⟨i, h⟩, h'⟩
      exact ⟨i, b, tr₁, h, h'⟩
  | stmt ls ws next ih =>
    simp only [stmt_bind, sees, ih]
    constructor
    · rintro ⟨D₁, hD₁, b, tr₁, h, h'⟩
      exact ⟨b, tr₁, ⟨D₁, hD₁, h⟩, h'⟩
    · rintro ⟨b, tr₁, ⟨D₁, hD₁, h⟩, h'⟩
      exact ⟨D₁, hD₁, b, tr₁, h, h'⟩

/-- A plain read tells something about a state of `past`, and takes no lock.  It may be of no use
    for the state committed on, unless what was read is under a lock taken before. -/
theorem sees_query {f : S → α} (h : (query f : Prog S W L ι E α).sees past D tr a tr') :
    tr' = tr ∧ ∃ D₁, past D₁ ∧ earlier (tr.on D₁) (tr.on D) ∧
      agreeOn tr.held (tr.on D₁) (tr.on D) ∧ f (tr.on D₁) = a := by
  obtain ⟨D₁, hD₁, ha, htr⟩ := h
  rw [Trail.extend_nil] at htr
  refine ⟨htr.symm, D₁, hD₁.past, hD₁.earlier, ?_, ha⟩
  have hagree := hD₁.agree
  simpa using hagree

/-- A reading stays one when more states count as past. -/
theorem sees_mono {past' : S → Prop} (hpast : ∀ {D₁}, past D₁ → past' D₁) {p : Prog S W L ι E α}
    (h : p.sees past D tr a tr') : p.sees past' D tr a tr' := by
  induction p generalizing tr with
  | done b => exact h
  | raise e => exact h
  | ask next ih =>
    obtain ⟨i, h⟩ := h
    exact ⟨i, ih i h⟩
  | stmt ls ws next ih =>
    obtain ⟨D₁, hD₁, h⟩ := h
    exact ⟨D₁, ⟨hpast hD₁.past, hD₁.earlier, hD₁.agree⟩, ih _ h⟩

/-- **What a program ensures, its readings have.**  So the rules of `ensures` need not be proved a
    second time for readings: where nothing about the past is of interest, they are used through
    this lemma. -/
theorem sees_of_ensures {bad : E → Prop} {Q : α → Point S L → Prop} {p : Prog S W L ι E α}
    {seen : S} (hp : p.ensures bad ⟨tr.held, seen, tr.on D⟩ Q) (h : p.sees past D tr a tr') :
    ∃ seen', Q a ⟨tr'.held, seen', tr'.on D⟩ := by
  induction p generalizing tr seen with
  | done b =>
    obtain ⟨rfl, rfl⟩ := h
    exact ⟨seen, hp⟩
  | raise e => exact h.elim
  | ask next ih =>
    obtain ⟨i, h⟩ := h
    exact ih i (hp i seen) h
  | stmt ls ws next ih =>
    obtain ⟨D₁, hD₁, h⟩ := h
    have hnext := hp (tr.on D₁) hD₁.earlier hD₁.agree
    refine @ih (tr.on D₁) (tr.extend S (ls (tr.on D₁)) (ws (tr.on D₁)))
      (applyAll (ws (tr.on D₁)) (tr.on D₁)) ?_ h
    rw [Trail.on_extend]
    exact hnext

end Prog

/-! ## Protocols -/

/-- What the clients `K` promise each other.  A client in position `c` `knows` something of the
    committed state, and so did every state its statements saw; from these sightings its call
    commits by `rel c`, and the rest says that the commits keep what the others know.  It differs
    from a contract in that a call is proved from what its statements saw, so a result may speak
    about a state read without a lock, and about what has been there since a client took its
    position. -/
structure Protocol (K : Client S W L ι E α σ) (D₀ : S) where
  /-- What holds of the database throughout. -/
  inv : S → Prop
  /-- What holds while a client is in a position. -/
  knows : σ → S → Prop
  /-- The second state came after the first one, or is the same. -/
  since : S → S → Prop
  /-- What a call does to the state it commits on. -/
  rel : σ → α → S → S → Prop
  /-- A state is in its own past. -/
  since_refl : ∀ D, since D D
  /-- A commit adds to the past. -/
  since_rel : ∀ {D₁ c a D D'}, inv D → since D₁ D → rel c a D D' → since D₁ D'
  /-- From its sightings a call does what its relation says. -/
  commits : ∀ {c a D tr}, inv D → knows c D →
    (K.call c).sees (fun D₁ => since D₁ D ∧ knows c D₁) D .start a tr → rel c a D (tr.on D)
  /-- The invariant holds at first. -/
  inv_start : inv D₀
  /-- It is kept by each commit. -/
  inv_next : ∀ {c a D D'}, inv D → knows c D → rel c a D D' → inv D'
  /-- At first a client knows what it has to. -/
  knows_start : ∀ {c}, K.start c → knows c D₀
  /-- What a client knows is kept by the commits of the others. -/
  knows_other : ∀ {c c' a D D'}, inv D → knows c D → rel c' a D D' → knows c D'
  /-- After its own commit it knows what its next position asks for. -/
  knows_ok : ∀ {c a c' D D'}, inv D → knows c D → rel c a D D' → K.next c (.ok a) c' → knows c' D'
  /-- And so it does after an exception. -/
  knows_error : ∀ {c e c' D}, inv D → knows c D → K.next c (.error e) c' → knows c' D

/-- The protocol of calls that keep `inv`, whatever their statements saw. -/
def Protocol.ofInv {call : σ → Prog S W L ι E α} {fault : E} {D₀ : S} (inv : S → Prop)
    (hinv : inv D₀)
    (hcall : ∀ past c D a tr, inv D → (call c).sees past D .start a tr → inv (tr.on D)) :
    Protocol (Client.ofCalls call fault) D₀ where
  inv := inv
  knows _ _ := True
  since _ _ := True
  rel _ _ _ D' := inv D'
  since_refl _ := trivial
  since_rel _ _ _ := trivial
  commits h _ hsees := hcall _ _ _ _ _ h hsees
  inv_start := hinv
  inv_next _ _ h := h
  knows_start _ := trivial
  knows_other _ _ _ := trivial
  knows_ok _ _ _ _ := trivial
  knows_error _ _ _ := trivial

namespace System

variable {K : Client S W L ι E α σ} {D₀ : S} {Γ : Protocol K D₀}
variable {sys : System S W L ι E α σ}

/-- What holds of a client while `D₀` is committed: on every state the others may make of it without
    its locks, the rest of its program sees what the whole program sees.  So at its end the
    sightings of all its statements are put together into one reading of the whole call. -/
def Upheld (Γ : Protocol K D₀) (D : S) : Slot S W L ι E α σ → Prop
  | .idle c => Γ.knows c D
  | .running c p ws ls =>
    Γ.knows c D ∧ ∃ held, held ⊆ ls ++ locksOf S ws ∧
      ∀ past : S → Prop, (∀ D₁, Γ.since D₁ D → Γ.knows c D₁ → past D₁) →
        ∀ D', earlier D D' → agreeOn (ls ++ locksOf S ws) D D' →
          ∀ a tr, p.sees past D' ⟨held, ws⟩ a tr → (K.call c).sees past D' .start a tr

/-- The invariant of the interleaving, as for contracts, with the reading of each client's call in
    place of what it ensures. -/
structure AllUpheld (Γ : Protocol K D₀) (sys : System S W L ι E α σ) : Prop where
  /-- The database has its invariant. -/
  inv : Γ.inv sys.committed
  /-- The committed calls are a serial run. -/
  serial : Serial Γ.rel D₀ sys.log sys.committed
  /-- No two clients hold one lock. -/
  apart : ∀ i j, i ≠ j → ∀ ℓ ∈ (sys.slots i).held, ℓ ∉ (sys.slots j).held
  /-- Each client will read its call as a whole. -/
  slots : ∀ i, Upheld Γ sys.committed (sys.slots i)

/-- What one client committed leaves the others where they are: the new state is one that the others
    might have made of the old one, and what was seen before is past as well. -/
theorem Upheld.other {slot : Slot S W L ι E α σ} {D D' : S} {c : σ} {a : α}
    (h : Upheld Γ D slot) (hinv : Γ.inv D) (hrel : Γ.rel c a D D') (hearlier : earlier D D')
    (hagree : agreeOn slot.held D D') : Upheld Γ D' slot := by
  cases slot with
  | idle c' => exact Γ.knows_other hinv h hrel
  | running c' p ws ls =>
    obtain ⟨hk, held, hheld, hp⟩ := h
    refine ⟨Γ.knows_other hinv hk hrel, held, hheld, fun past hpast D'' hD'' hagree' => ?_⟩
    refine hp past (fun D₁ hD₁ => hpast D₁ (Γ.since_rel hinv hD₁ hrel)) D''
      (earlier_trans hearlier hD'') fun ℓ hℓ => ?_
    exact agree_trans (hagree ℓ hℓ) (hagree' ℓ hℓ)

/-- A statement saw the committed state; what others commit later agrees with it on the locks.  The
    state that is committed now becomes the sighting of this statement. -/
theorem Upheld.statement {c : σ} {D : S} {ls' : S → List L} {ws' : S → List W}
    {next : S → Prog S W L ι E α} {ws : List W} {ls : List L}
    (h : Upheld Γ D (.running c (.stmt ls' ws' next) ws ls)) :
    Upheld Γ D (.running c (next (applyAll ws D)) (ws ++ ws' (applyAll ws D))
      (ls ++ ls' (applyAll ws D))) := by
  obtain ⟨hk, held, hheld, hp⟩ := h
  refine ⟨hk, held ++ (ls' (applyAll ws D) ++ locksOf S (ws' (applyAll ws D))), ?_, ?_⟩
  · intro ℓ hℓ
    simp only [locksOf_append, List.mem_append] at hℓ ⊢
    rcases hℓ with hℓ | hℓ | hℓ
    · rcases List.mem_append.mp (hheld hℓ) with hℓ | hℓ
      · exact Or.inl (Or.inl hℓ)
      · exact Or.inr (Or.inl hℓ)
    · exact Or.inl (Or.inr hℓ)
    · exact Or.inr (Or.inr hℓ)
  · intro past hpast D' hD' hagree a tr hsees
    simp only [locksOf_append, agreeOn_append] at hagree
    obtain ⟨⟨hls, hls'⟩, hws, hws'⟩ := hagree
    have hagreeV : ∀ {ℓs : List L}, agreeOn ℓs D D' →
        agreeOn ℓs (applyAll ws D) (applyAll ws D') := fun hℓs => applyAll_agreeOn hws hℓs
    refine hp past hpast D' hD' (agreeOn_append.mpr ⟨hls, hws⟩) a tr ⟨D, ?_, hsees⟩
    refine ⟨hpast D (Γ.since_refl D) hk, applyAll_mono hD' hws, ?_⟩
    show agreeOn (held ++ (ls' (applyAll ws D) ++ locksOf S (ws' (applyAll ws D))))
      (applyAll ws D) (applyAll ws D')
    rw [agreeOn_append, agreeOn_append]
    refine ⟨hagreeV fun ℓ hℓ => ?_, hagreeV hls', hagreeV hws'⟩
    rcases List.mem_append.mp (hheld hℓ) with hℓ | hℓ
    · exact hls ℓ hℓ
    · exact hws ℓ hℓ

/-- A step that moves one client and commits nothing.  Only the client that moves has to be looked
    at, and that its locks are its own. -/
theorem AllUpheld.move (h : AllUpheld Γ sys) {i : Nat} {slot : Slot S W L ι E α σ}
    (hslot : Upheld Γ sys.committed slot)
    (hheld : ∀ ℓ ∈ slot.held, ℓ ∈ (sys.slots i).held ∨ ∀ j, j ≠ i → ℓ ∉ (sys.slots j).held) :
    AllUpheld Γ (sys.move i slot) := by
  have hfree : ∀ j, j ≠ i → ∀ ℓ ∈ slot.held, ℓ ∉ (sys.slots j).held := by
    intro j hj ℓ hℓ
    rcases hheld ℓ hℓ with hℓ | hℓ
    · exact h.apart i j hj.symm ℓ hℓ
    · exact hℓ j hj
  refine ⟨h.inv, h.serial, ?_, ?_⟩
  · intro j k hjk ℓ
    show ℓ ∈ (Function.update sys.slots i slot j).held →
      ℓ ∉ (Function.update sys.slots i slot k).held
    by_cases hj : j = i
    · subst hj
      rw [Function.update_self, Function.update_of_ne hjk.symm]
      exact hfree k hjk.symm ℓ
    · rw [Function.update_of_ne hj]
      by_cases hk : k = i
      · subst hk
        rw [Function.update_self]
        exact fun hℓ hℓ' => hfree j hj ℓ hℓ' hℓ
      · rw [Function.update_of_ne hk]
        exact h.apart j k hjk ℓ
  · intro j
    show Upheld Γ sys.committed (Function.update sys.slots i slot j)
    by_cases hj : j = i
    · subst hj
      rw [Function.update_self]
      exact hslot
    · rw [Function.update_of_ne hj]
      exact h.slots j

/-- A commit: the client goes on from what it saw.  Its reading of the whole call gives the commit
    relation; the other clients keep their places by `Upheld.other`, since no lock of theirs is
    among those of the writes. -/
theorem AllUpheld.commit (h : AllUpheld Γ sys) {i : Nat} {c c' : σ} {a : α} {ws : List W}
    {ls : List L} (hi : sys.slots i = .running c (.done a) ws ls)
    (hnext : K.next c (.ok a) c') :
    AllUpheld Γ
      { committed := applyAll ws sys.committed
        slots := Function.update sys.slots i (.idle c')
        log := sys.log ++ [(c, a)] } := by
  have hslot := h.slots i
  rw [hi] at hslot
  obtain ⟨hk, held, -, hp⟩ := hslot
  have hsees := hp (fun D₁ => Γ.since D₁ sys.committed ∧ Γ.knows c D₁)
    (fun _ hD₁ hk₁ => ⟨hD₁, hk₁⟩) sys.committed (earlier_refl _) (agreeOn_refl _ _) a ⟨held, ws⟩
    ⟨rfl, rfl⟩
  have hrel : Γ.rel c a sys.committed (applyAll ws sys.committed) := Γ.commits h.inv hk hsees
  refine ⟨Γ.inv_next h.inv hk hrel, .snoc h.serial hrel, ?_, ?_⟩
  · intro j k hjk ℓ
    show ℓ ∈ (Function.update sys.slots i (.idle c') j).held →
      ℓ ∉ (Function.update sys.slots i (.idle c') k).held
    by_cases hj : j = i
    · subst hj
      simp [Slot.held]
    · by_cases hk : k = i
      · subst hk
        simp [Slot.held]
      · rw [Function.update_of_ne hj, Function.update_of_ne hk]
        exact h.apart j k hjk ℓ
  · intro j
    show Upheld Γ (applyAll ws sys.committed) (Function.update sys.slots i (.idle c') j)
    by_cases hj : j = i
    · subst hj
      rw [Function.update_self]
      exact Γ.knows_ok h.inv hk hrel hnext
    · rw [Function.update_of_ne hj]
      refine (h.slots j).other h.inv hrel (earlier_applyAll ws _) ?_
      intro ℓ hℓ
      -- the locks of the writes belong to client `i`
      refine applyAll_agree (fun hws => h.apart j i hj ℓ hℓ ?_) _
      rw [hi]
      exact List.mem_append_right _ hws

/-- **Step lemma.**  Every step of the interleaving upholds the protocol, by cases on the kind of
    step. -/
theorem AllUpheld.step (h : AllUpheld Γ sys) {sys' : System S W L ι E α σ}
    (hstep : Step K sys sys') : AllUpheld Γ sys' := by
  cases hstep with
  | @begin i c hi =>
    have hslot := h.slots i
    rw [hi] at hslot
    refine h.move ⟨hslot, [], fun _ hℓ => hℓ, ?_⟩ (by simp [Slot.held])
    exact fun _ _ _ _ _ _ _ hsees => hsees
  | @answer i c next ws ls hi a =>
    have hslot := h.slots i
    rw [hi] at hslot
    obtain ⟨hk, held, hheld, hp⟩ := hslot
    refine h.move ⟨hk, held, hheld, ?_⟩ fun ℓ hℓ => Or.inl ?_
    · exact fun past hpast D' hD' hagree b tr hsees =>
        hp past hpast D' hD' hagree b tr ⟨a, hsees⟩
    · rwa [hi]
  | @statement i c ls' ws' next ws ls V hi hV hfree =>
    subst hV
    have hslot := h.slots i
    rw [hi] at hslot
    refine h.move hslot.statement fun ℓ hℓ => ?_
    rw [hi]
    simp only [Slot.held, locksOf_append, List.mem_append] at hℓ hfree ⊢
    rcases hℓ with (hℓ | hℓ) | hℓ | hℓ
    · exact Or.inl (Or.inl hℓ)
    · exact Or.inr fun j hj => hfree j hj ℓ (Or.inl hℓ)
    · exact Or.inl (Or.inr hℓ)
    · exact Or.inr fun j hj => hfree j hj ℓ (Or.inr hℓ)
  | @commit i c a ws ls c' hi hnext => exact h.commit hi hnext
  | @rollback i c e ws ls c' hi hnext =>
    have hslot := h.slots i
    rw [hi] at hslot
    exact h.move (Γ.knows_error h.inv hslot.1 hnext) (by simp [Slot.held])
  | @abort i c p ws ls c' hi hnext =>
    have hslot := h.slots i
    rw [hi] at hslot
    exact h.move (Γ.knows_error h.inv hslot.1 hnext) (by simp [Slot.held])

/-- **Run lemma.**  Every interleaving upholds the protocol: it is a serial run of the commit
    relations, and each client knows what it goes on from. -/
theorem Reachable.upheld (Γ : Protocol K D₀) (h : Reachable K D₀ sys) : AllUpheld Γ sys := by
  induction h with
  | @init slots hslots =>
    refine ⟨Γ.inv_start, .nil, ?_, ?_⟩
    · intro i j _ ℓ hℓ
      obtain ⟨c, hc, -⟩ := hslots i
      simp [hc, Slot.held] at hℓ
    · intro i
      obtain ⟨c, hc, hstart⟩ := hslots i
      show Upheld Γ D₀ (slots i)
      rw [hc]
      exact Γ.knows_start hstart
  | step _ hstep ih => exact ih.step hstep

end System

/-! ## A client on its own -/

/-- The committed calls of a client that no one disturbs, from one position to another.  It is what
    the samples of a client with several transactions are made of. -/
inductive Alone (K : Client S W L ι E α σ) : σ → S → List (σ × α) → σ → S → Prop
  /-- It makes no call. -/
  | stay (c : σ) (D : S) : Alone K c D [] c D
  /-- It makes a call, and goes on from where this one took it. -/
  | call {c a c' c'' D D' D'' log} (hrun : (K.call c).runs D (.ok (a, D')))
      (hnext : K.next c (.ok a) c') (h : Alone K c' D' log c'' D'') :
      Alone K c D ((c, a) :: log) c'' D''

/-- A call that returns `a` on its own leads there. -/
theorem runs_of_returned_afterCall (call : σ → Prog S W L ι E α) {o : Nat → ι} {c : σ} {D : S}
    {a : α} (h : returned o (call c) D = some a) :
    (call c).runs D (.ok (a, afterCall call o c D)) := by
  have hrun := Prog.runs_eval o 0 (call c) D
  unfold returned at h
  unfold afterCall
  cases heval : (call c).eval o 0 D with
  | ok r =>
    rw [heval] at h hrun
    obtain rfl := Option.some.inj h
    exact hrun
  | error e =>
    rw [heval] at h
    cases h

/-- While every client is idle, what one of them does alone is an interleaving; by induction on its
    calls. -/
theorem System.Reachable.alone {K : Client S W L ι E α σ} {D₀ D D' : S} {c c' : σ}
    {log : List (σ × α)} (halone : Alone K c D log c' D') {sys : System S W L ι E α σ}
    (h : Reachable K D₀ sys) {i : Nat} (hi : sys.slots i = .idle c)
    (hidle : ∀ j, (sys.slots j).held = []) (hD : sys.committed = D) :
    ∃ sys', Reachable K D₀ sys' ∧ sys'.committed = D' ∧ sys'.log = sys.log ++ log ∧
      sys'.slots i = .idle c' ∧ ∀ j, (sys'.slots j).held = [] := by
  induction halone generalizing sys with
  | stay c D => exact ⟨sys, h, hD, (List.append_nil _).symm, hi, hidle⟩
  | @call c a c' c'' D D' D'' log hrun hnext _ ih =>
    subst hD
    have hidle' : ∀ j, (Function.update sys.slots i (.idle c') j).held = [] := by
      intro j
      by_cases hj : j = i
      · subst hj
        rw [Function.update_self]
        rfl
      · rw [Function.update_of_ne hj]
        exact hidle j
    obtain ⟨sys', hsys', hD', hlog, hslot, hheld⟩ :=
      ih (h.call hi hidle hrun hnext) (slots_move_self sys i (.idle c')) hidle' rfl
    refine ⟨sys', hsys', hD', ?_, hslot, hheld⟩
    rw [hlog, List.append_assoc]
    rfl

end Relational
