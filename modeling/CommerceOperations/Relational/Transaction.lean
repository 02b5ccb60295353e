/-
  Transactions as programs over a store.

  A `Store` is a state that is changed by single `writes`, each under some locks.  A `Prog` is the
  code of one transaction: a tree of statements, each of which reads the state, takes locks and
  writes, and of questions to the environment (a clock reading, a random identifier, the reply of
  a remote service).  It ends in a value or in an exception.

  This file gives a program its meaning when it runs alone:

  * `runs p D r`      — from `D` the program can end in `r`; the environment answers freely;
  * `eval o n p D`    — the same, computed, with the answers `o n, o (n + 1), ..`;
  * `post p D Q R`    — every run from `D` ends in a value and state in `Q` or an exception in `R`,
                        with one rule for each way to build a program;
  * `savepoint p`     — `p` inside a nested transaction: an exception undoes its writes and
                        becomes a value.

  What a program guarantees when it runs among others is the subject of `ReadCommitted`.
-/
import CommerceOperations.Relational.Table

namespace Relational

/-! ## Stores -/

/-- A state changed by writes under locks.  `agree ℓ` says what holding `ℓ` keeps fixed; `earlier`
    orders the states by what can have happened in between.  These laws are all that the theory of
    transactions below asks of a database: it never looks at a table, and a store of another kind
    could be put in its place. -/
class Store (S : Type) (W L : outParam Type) where
  /-- The state after a write. -/
  apply : W → S → S
  /-- The locks a write takes. -/
  locks : W → List L
  /-- What holding a lock keeps fixed. -/
  agree : L → S → S → Prop
  /-- The one state can have become the other. -/
  earlier : S → S → Prop
  agree_refl : ∀ ℓ (D : S), agree ℓ D D
  agree_symm : ∀ {ℓ} {D D' : S}, agree ℓ D D' → agree ℓ D' D
  agree_trans : ∀ {ℓ} {D D' D'' : S}, agree ℓ D D' → agree ℓ D' D'' → agree ℓ D D''
  /-- A write is invisible under every lock it does not take. -/
  apply_agree : ∀ {w ℓ}, ℓ ∉ locks w → ∀ D : S, agree ℓ D (apply w D)
  /-- What a write does is decided under its locks. -/
  apply_congr : ∀ {w ℓ} {D D' : S}, (∀ ℓ' ∈ locks w, agree ℓ' D D') → agree ℓ D D' →
    agree ℓ (apply w D) (apply w D')
  earlier_refl : ∀ D : S, earlier D D
  earlier_trans : ∀ {D D' D'' : S}, earlier D D' → earlier D' D'' → earlier D D''
  earlier_apply : ∀ w (D : S), earlier D (apply w D)
  /-- A write keeps the order of two states that agree on its locks. -/
  apply_mono : ∀ {w} {D D' : S}, earlier D D' → (∀ ℓ ∈ locks w, agree ℓ D D') →
    earlier (apply w D) (apply w D')

namespace Store

variable {S W L : Type} [Store S W L]

/-- The writes in turn.  A transaction keeps the list of its writes until it commits, and this is
    what its session makes of a state by them. -/
def applyAll : List W → S → S
  | [], D => D
  | w :: ws, D => applyAll ws (apply w D)

/-- All locks of some writes.  Each is taken by the statement that issues the write and is kept to
    the end. -/
def locksOf (S : Type) {W L : Type} [Store S W L] (ws : List W) : List L :=
  ws.flatMap (locks S)

/-- Agreement on every lock of a list.  What a session has read under the locks it holds is the same
    in any two states that agree on them. -/
def agreeOn (ls : List L) (D D' : S) : Prop := ∀ ℓ ∈ ls, agree ℓ D D'

/-- Without writes the state is unchanged. -/
@[simp] theorem applyAll_nil (D : S) : applyAll [] D = D := rfl

/-- The first write comes first. -/
@[simp] theorem applyAll_cons (w : W) (ws : List W) (D : S) :
    applyAll (w :: ws) D = applyAll ws (apply w D) := rfl

/-- Writes issued by two statements are applied one after the other. -/
theorem applyAll_append (ws ws' : List W) (D : S) :
    applyAll (ws ++ ws') D = applyAll ws' (applyAll ws D) := by
  induction ws generalizing D with
  | nil => rfl
  | cons w ws ih => exact ih (apply w D)

/-- Without writes there are no locks to take. -/
@[simp] theorem locksOf_nil : locksOf S ([] : List W) = [] := rfl

/-- The locks of a list are those of its first write and those of the rest. -/
theorem locksOf_cons (w : W) (ws : List W) :
    locksOf S (w :: ws) = locks S w ++ locksOf S ws := rfl

/-- The locks of two lists are the locks of both. -/
theorem locksOf_append (ws ws' : List W) :
    locksOf S (ws ++ ws') = locksOf S ws ++ locksOf S ws' := List.flatMap_append

/-- A state agrees with itself on any locks. -/
theorem agreeOn_refl (ls : List L) (D : S) : agreeOn ls D D := fun ℓ _ => agree_refl ℓ D

/-- To agree on the locks of two lists is to agree on each. -/
theorem agreeOn_append {ls ls' : List L} {D D' : S} :
    agreeOn (ls ++ ls') D D' ↔ agreeOn ls D D' ∧ agreeOn ls' D D' := by
  simp only [agreeOn, List.mem_append]
  constructor
  · intro h
    exact ⟨fun ℓ hℓ => h ℓ (Or.inl hℓ), fun ℓ hℓ => h ℓ (Or.inr hℓ)⟩
  · rintro ⟨h, h'⟩ ℓ (hℓ | hℓ)
    · exact h ℓ hℓ
    · exact h' ℓ hℓ

/-- **Frame** for several writes: what none of them locks, none of them changes. -/
theorem applyAll_agree {ws : List W} {ℓ : L} (h : ℓ ∉ locksOf S ws) (D : S) :
    agree ℓ D (applyAll ws D) := by
  induction ws generalizing D with
  | nil => exact agree_refl ℓ D
  | cons w ws ih =>
    rw [locksOf_cons, List.mem_append, not_or] at h
    exact agree_trans (apply_agree h.1 D) (ih h.2 (apply w D))

/-- Two states that agree on the locks of some writes, and on `ℓ`, still agree on `ℓ` when both have
    been written.  By induction on the writes, since after the first the two states still agree on
    the locks of the others. -/
theorem applyAll_congr {ws : List W} {ℓ : L} {D D' : S} (h : agreeOn (locksOf S ws) D D')
    (hℓ : agree ℓ D D') : agree ℓ (applyAll ws D) (applyAll ws D') := by
  induction ws generalizing D D' with
  | nil => exact hℓ
  | cons w ws ih =>
    rw [locksOf_cons, agreeOn_append] at h
    refine ih ?_ (apply_congr h.1 hℓ)
    intro ℓ' hℓ'
    exact apply_congr h.1 (h.2 ℓ' hℓ')

/-- Writes on two states that agree under several locks lead to states that agree under them. -/
theorem applyAll_agreeOn {ws : List W} {ls : List L} {D D' : S}
    (h : agreeOn (locksOf S ws) D D') (hls : agreeOn ls D D') :
    agreeOn ls (applyAll ws D) (applyAll ws D') := fun ℓ hℓ => applyAll_congr h (hls ℓ hℓ)

/-- Writes lead to a later state. -/
theorem earlier_applyAll (ws : List W) (D : S) : earlier D (applyAll ws D) := by
  induction ws generalizing D with
  | nil => exact earlier_refl D
  | cons w ws ih => exact earlier_trans (earlier_apply w D) (ih (apply w D))

/-- Writes keep the order of two states that agree on their locks. -/
theorem applyAll_mono {ws : List W} {D D' : S} (h : earlier D D')
    (hlocks : agreeOn (locksOf S ws) D D') : earlier (applyAll ws D) (applyAll ws D') := by
  induction ws generalizing D D' with
  | nil => exact h
  | cons w ws ih =>
    rw [locksOf_cons, agreeOn_append] at hlocks
    refine ih (apply_mono h hlocks.1) ?_
    intro ℓ hℓ
    exact apply_congr hlocks.1 (hlocks.2 ℓ hℓ)

end Store

open Store

/-! ## Programs -/

/-- The code of a transaction over the store `S`, with answers `ι` and exceptions `E`.  A statement
    names, for the state it sees, the locks it takes and the writes it makes; the rest of the
    program depends on that state, and so on everything read so far. -/
inductive Prog (S W L ι E α : Type) where
  /-- The transaction commits, and returns a value. -/
  | done (a : α)
  /-- It is rolled back with an exception. -/
  | raise (e : E)
  /-- It waits for an answer of the environment. -/
  | ask (next : ι → Prog S W L ι E α)
  /-- It issues a statement, and goes on with the state it saw. -/
  | stmt (locks : S → List L) (writes : S → List W) (next : S → Prog S W L ι E α)

namespace Prog

variable {S W L ι E α β : Type}

/-- Sequencing: the second program goes where the first one ends in a value, and an exception is
    passed on. -/
def bind : Prog S W L ι E α → (α → Prog S W L ι E β) → Prog S W L ι E β
  | done a, f => f a
  | raise e, _ => raise e
  | ask next, f => ask fun i => (next i).bind f
  | stmt ls ws next, f => stmt ls ws fun D => (next D).bind f

instance : Monad (Prog S W L ι E) where
  pure := done
  bind := bind

/-- The value of the monad is the program that is done. -/
@[simp] theorem pure_eq (a : α) : (pure a : Prog S W L ι E α) = done a := rfl

/-- A value is handed on to what comes next. -/
@[simp] theorem done_bind (a : α) (f : α → Prog S W L ι E β) : (done a >>= f) = f a := rfl

/-- An exception ends the sequence. -/
@[simp] theorem raise_bind (e : E) (f : α → Prog S W L ι E β) : (raise e >>= f) = raise e := rfl

/-- A question stays in front of what follows its answer. -/
@[simp] theorem ask_bind (next : ι → Prog S W L ι E α) (f : α → Prog S W L ι E β) :
    (ask next >>= f) = ask fun i => next i >>= f := rfl

/-- A statement stays in front of what follows it. -/
@[simp] theorem stmt_bind (ls : S → List L) (ws : S → List W) (next : S → Prog S W L ι E α)
    (f : α → Prog S W L ι E β) :
    (stmt ls ws next >>= f) = stmt ls ws fun D => next D >>= f := rfl

/-- To end with the value of `p` is to run `p`.  By induction on `p`, as the other monad law. -/
theorem bind_done (p : Prog S W L ι E α) : bind p done = p := by
  induction p with
  | done a => rfl
  | raise e => rfl
  | ask next ih => exact congrArg ask (funext ih)
  | stmt ls ws next ih => exact congrArg (stmt ls ws) (funext ih)

/-- Sequences may be bracketed either way. -/
theorem bind_bind {γ : Type} (p : Prog S W L ι E α) (f : α → Prog S W L ι E β)
    (g : β → Prog S W L ι E γ) : bind (bind p f) g = bind p fun a => bind (f a) g := by
  induction p with
  | done a => rfl
  | raise e => rfl
  | ask next ih => exact congrArg ask (funext ih)
  | stmt ls ws next ih => exact congrArg (stmt ls ws) (funext ih)

instance : LawfulMonad (Prog S W L ι E) :=
  LawfulMonad.mk' _ bind_done (fun _ _ => rfl) bind_bind

/-- A function is applied to the value that a program is done with. -/
@[simp] theorem map_done (f : α → β) (a : α) :
    (f <$> done a : Prog S W L ι E β) = done (f a) := rfl

/-- A program followed by nothing is the program, in the form in which the simplifier meets it. -/
@[simp] theorem bind_done_eq (p : Prog S W L ι E α) : (p >>= fun a => done a) = p := bind_done p

/-- A question to the environment: a clock reading, a random id, the reply of a service. -/
def answer (f : ι → α) : Prog S W L ι E α := ask fun i => done (f i)

/-- Read the state.  A plain SELECT takes no lock and writes nothing. -/
def query (f : S → α) : Prog S W L ι E α := stmt (fun _ => []) (fun _ => []) fun D => done (f D)

/-- The program that raises `e` unless `b`. -/
def require (b : Bool) (e : E) : Prog S W L ι E Unit := if b then done () else raise e

/-- A value that is there, or an exception to raise. -/
def ofExcept : Except E α → Prog S W L ι E α
  | .ok a => done a
  | .error e => raise e

/-- From `D` the program can end in `r`.  The environment answers freely, so a program with a
    question has as many runs as there are answers, and what is proved of all of them holds for
    every clock and every id. -/
def runs [Store S W L] : Prog S W L ι E α → S → Except E (α × S) → Prop
  | done a, D, r => r = .ok (a, D)
  | raise e, _, r => r = .error e
  | ask next, D, r => ∃ i, (next i).runs D r
  | stmt _ ws next, D, r => (next D).runs (applyAll (ws D) D) r

/-- The run in which the environment answers `o n, o (n + 1), ..`.  It is computed by recursion on
    the program, so that a sample can be evaluated. -/
def eval [Store S W L] (o : Nat → ι) : Nat → Prog S W L ι E α → S → Except E (α × S)
  | _, done a, D => .ok (a, D)
  | _, raise e, _ => .error e
  | n, ask next, D => (next (o n)).eval o (n + 1) D
  | n, stmt _ ws next, D => (next D).eval o n (applyAll (ws D) D)

/-- Every run from `D` ends in a value and a state in `Q`, or in an exception in `R`.  It is
    computed along the program, with one rule for each way to build one, and is how a property of a
    long transaction is proved statement by statement. -/
def post [Store S W L] : Prog S W L ι E α → S → (α → S → Prop) → (E → Prop) → Prop
  | done a, D, Q, _ => Q a D
  | raise e, _, _, R => R e
  | ask next, D, Q, R => ∀ i, (next i).post D Q R
  | stmt _ ws next, D, Q, R => (next D).post (applyAll (ws D) D) Q R

/-- `p` with every answer of the environment passed through `g`; a transaction at a given time is
    one under a clock that stands still. -/
def under (g : ι → ι) : Prog S W L ι E α → Prog S W L ι E α
  | done a => done a
  | raise e => raise e
  | ask next => ask fun i => (next (g i)).under g
  | stmt ls ws next => stmt ls ws fun D => (next D).under g

/-- The rest `p` of a nested transaction that has issued the writes `ws` so far.  They are held
    back until it ends; the locks are taken at once. -/
def savepointFrom [Store S W L] (ws : List W) : Prog S W L ι E α → Prog S W L ι E (Except E α)
  | done a => stmt (fun _ => []) (fun _ => ws) fun _ => done (.ok a)
  | raise e => done (.error e)
  | ask next => ask fun i => savepointFrom ws (next i)
  | stmt ls ws' next =>
    stmt (fun V => ls (applyAll ws V) ++ locksOf S (ws' (applyAll ws V))) (fun _ => [])
      fun V => savepointFrom (ws ++ ws' (applyAll ws V)) (next (applyAll ws V))

/-- `p` in a nested transaction: if it raises, its writes are undone and the exception is the value.
    So the program that called it can go on and report the failure in the transaction they share. -/
def savepoint [Store S W L] (p : Prog S W L ι E α) : Prog S W L ι E (Except E α) :=
  savepointFrom [] p

variable [Store S W L]

/-! ## Running alone -/

/-- What `eval` computes is a run of the program. -/
theorem runs_eval (o : Nat → ι) (n : Nat) (p : Prog S W L ι E α) (D : S) :
    p.runs D (p.eval o n D) := by
  induction p generalizing n D with
  | done a => rfl
  | raise e => rfl
  | ask next ih => exact ⟨o n, ih (o n) (n + 1) D⟩
  | stmt ls ws next ih => exact ih D n (applyAll (ws D) D)

/-- A sequence ends as its second part does, or in the exception of the first.  This is the lemma by
    which every run of a modelled function is taken apart. -/
theorem runs_bind {p : Prog S W L ι E α} {f : α → Prog S W L ι E β} {D : S}
    {r : Except E (β × S)} :
    (p >>= f).runs D r ↔
      (∃ a D', p.runs D (.ok (a, D')) ∧ (f a).runs D' r) ∨
        ∃ e, p.runs D (.error e) ∧ r = .error e := by
  induction p generalizing D with
  | done a =>
    simp only [done_bind, runs, Except.ok.injEq, Prod.mk.injEq, reduceCtorEq, false_and,
      exists_false, or_false]
    constructor
    · intro h
      exact ⟨a, D, ⟨rfl, rfl⟩, h⟩
    · rintro ⟨a', D', ⟨rfl, rfl⟩, h⟩
      exact h
  | raise e =>
    simp [runs]
  | ask next ih =>
    simp only [ask_bind, runs, ih]
    constructor
    · rintro ⟨i, ⟨a, D', h, h'⟩ | ⟨e, h, h'⟩⟩
      · exact Or.inl ⟨a, D', ⟨i, h⟩, h'⟩
      · exact Or.inr ⟨e, ⟨i, h⟩, h'⟩
    · rintro (⟨a, D', ⟨i, h⟩, h'⟩ | ⟨e, ⟨i, h⟩, h'⟩)
      · exact ⟨i, Or.inl ⟨a, D', h, h'⟩⟩
      · exact ⟨i, Or.inr ⟨e, h, h'⟩⟩
  | stmt ls ws next ih =>
    simp only [stmt_bind, runs, ih]

/-- A computation without statements ends in its value and leaves the state. -/
theorem runs_ofExcept {x : Except E α} {D D' : S} {a : α} :
    (ofExcept x : Prog S W L ι E α).runs D (.ok (a, D')) ↔ x = .ok a ∧ D = D' := by
  cases x with
  | ok b =>
    constructor
    · rintro ⟨⟩
      exact ⟨rfl, rfl⟩
    · rintro ⟨⟨⟩, rfl⟩
      rfl
  | error e =>
    constructor
    · rintro ⟨⟩
    · rintro ⟨⟨⟩, -⟩

omit [Store S W L] in
/-- The clock of a sequence is the clock of its parts. -/
theorem under_bind (g : ι → ι) (p : Prog S W L ι E α) (f : α → Prog S W L ι E β) :
    (p >>= f).under g = p.under g >>= fun a => (f a).under g := by
  induction p with
  | done a => rfl
  | raise e => rfl
  | ask next ih => exact congrArg ask (funext fun i => ih (g i))
  | stmt ls ws next ih => exact congrArg (stmt ls ws) (funext ih)

omit [Store S W L] in
/-- To change no answer is to change nothing. -/
@[simp] theorem under_id (p : Prog S W L ι E α) : p.under (fun i => i) = p := by
  induction p with
  | done a => rfl
  | raise e => rfl
  | ask next ih => exact congrArg ask (funext ih)
  | stmt ls ws next ih => exact congrArg (stmt ls ws) (funext ih)

/-- A nested transaction reads the clock of the one around it. -/
theorem under_savepointFrom (g : ι → ι) (ws : List W) (p : Prog S W L ι E α) :
    (savepointFrom ws p).under g = savepointFrom ws (p.under g) := by
  induction p generalizing ws with
  | done a => rfl
  | raise e => rfl
  | ask next ih => exact congrArg ask (funext fun i => ih (g i) ws)
  | stmt ls ws' next ih => exact congrArg (stmt _ _) (funext fun D => ih _ _)

/-- Changing what a program asks of its environment and nesting it commute. -/
theorem under_savepoint (g : ι → ι) (p : Prog S W L ι E α) :
    p.savepoint.under g = (p.under g).savepoint := under_savepointFrom g [] p

/-- A run among fewer answers is a run. -/
theorem runs_of_under {g : ι → ι} {p : Prog S W L ι E α} {D : S} {r : Except E (α × S)}
    (h : (p.under g).runs D r) : p.runs D r := by
  induction p generalizing D with
  | done a => exact h
  | raise e => exact h
  | ask next ih =>
    obtain ⟨i, h⟩ := h
    exact ⟨g i, ih (g i) h⟩
  | stmt ls ws next ih => exact ih _ h

/-- A sequence under a changed clock ends well exactly when its parts do, one after the other, under
    the same clock. -/
theorem runs_under_bind {g : ι → ι} {p : Prog S W L ι E α} {f : α → Prog S W L ι E β} {D D' : S}
    {b : β} :
    ((p >>= f).under g).runs D (.ok (b, D')) ↔
      ∃ a D₁, (p.under g).runs D (.ok (a, D₁)) ∧ ((f a).under g).runs D₁ (.ok (b, D')) := by
  rw [under_bind, runs_bind]
  simp

/-- From `D` the program ends alike, whether the environment's answers pass through `g` or `g'`.  A
    decision that depends on the clock only through a comparison comes out the same at any two times
    on the same side of it. -/
def SameUnder (g g' : ι → ι) (D : S) (p : Prog S W L ι E α) : Prop :=
  ∀ r, (p.under g).runs D r ↔ (p.under g').runs D r

namespace SameUnder

variable {g g' : ι → ι} {D : S}

/-- A program that is the same text under both ends alike. -/
theorem of_eq {p : Prog S W L ι E α} (h : p.under g = p.under g') : SameUnder g g' D p := by
  intro r
  rw [h]

/-- A value does not depend on the environment. -/
theorem done (a : α) : SameUnder g g' D (done a : Prog S W L ι E α) := of_eq rfl

/-- An exception does not depend on the environment. -/
theorem raise (e : E) : SameUnder g g' D (raise e : Prog S W L ι E α) := of_eq rfl

/-- What is read is the same under any clock. -/
theorem query (f : S → α) : SameUnder g g' D (query f : Prog S W L ι E α) := of_eq rfl

/-- An answer is read in a part that both leave alone. -/
theorem answer {f : ι → α} (hf : ∀ i, f (g i) = f (g' i)) :
    SameUnder g g' D (answer f : Prog S W L ι E α) :=
  of_eq (congrArg ask (funext fun i => congrArg Prog.done (hf i)))

/-- A sequence ends alike if its first part does, and the second does from wherever the first one
    can lead. -/
theorem bind {p : Prog S W L ι E α} {f : α → Prog S W L ι E β} (hp : SameUnder g g' D p)
    (hf : ∀ a D', p.runs D (.ok (a, D')) → SameUnder g g' D' (f a)) :
    SameUnder g g' D (p >>= f) := by
  intro r
  rw [under_bind, under_bind, runs_bind, runs_bind]
  refine or_congr (exists_congr fun a => exists_congr fun D' => ?_)
    (exists_congr fun e => and_congr_left fun _ => hp _)
  rw [hp]
  exact and_congr_right fun hrun => hf a D' (runs_of_under hrun) r

end SameUnder

/-- `post` speaks about all runs.  So a postcondition proved by the rules below can be used for any
    run that is given, and a fact about all runs can be used in a proof by the rules. -/
theorem post_iff {p : Prog S W L ι E α} {D : S} {Q : α → S → Prop} {R : E → Prop} :
    p.post D Q R ↔
      (∀ a D', p.runs D (.ok (a, D')) → Q a D') ∧ ∀ e, p.runs D (.error e) → R e := by
  induction p generalizing D with
  | done a => simp [post, runs]
  | raise e => simp [post, runs]
  | ask next ih =>
    simp only [post, runs, ih]
    constructor
    · intro h
      exact ⟨fun a D' ⟨i, hr⟩ => (h i).1 a D' hr, fun e ⟨i, hr⟩ => (h i).2 e hr⟩
    · rintro ⟨h, h'⟩ i
      exact ⟨fun a D' hr => h a D' ⟨i, hr⟩, fun e hr => h' e ⟨i, hr⟩⟩
  | stmt ls ws next ih => exact ih D

/-! ### The rules of `post` -/

section Rules

variable {Q : α → S → Prop} {R : E → Prop} {D : S}

/-- A postcondition may be weakened, for the values and for the exceptions. -/
theorem post_mono {Q' : α → S → Prop} {R' : E → Prop} {p : Prog S W L ι E α}
    (h : p.post D Q R) (hQ : ∀ a D', Q a D' → Q' a D') (hR : ∀ e, R e → R' e) :
    p.post D Q' R' := by
  rw [post_iff] at h ⊢
  exact ⟨fun a D' hr => hQ a D' (h.1 a D' hr), fun e hr => hR e (h.2 e hr)⟩

/-- A program that is done ends where it is. -/
@[simp] theorem post_done (a : α) : (done a : Prog S W L ι E α).post D Q R ↔ Q a D := Iff.rfl

/-- A program that raises ends in its exception. -/
@[simp] theorem post_raise (e : E) : (raise e : Prog S W L ι E α).post D Q R ↔ R e := Iff.rfl

/-- **Sequencing.**  The first part has to lead to where the second one has the postcondition; the
    exceptions of both count. -/
theorem post_bind {p : Prog S W L ι E β} {f : β → Prog S W L ι E α} :
    (p >>= f).post D Q R ↔ p.post D (fun b D' => (f b).post D' Q R) R := by
  induction p generalizing D with
  | done b => rfl
  | raise e => rfl
  | ask next ih =>
    simp only [ask_bind, post, ih]
  | stmt ls ws next ih =>
    simp only [stmt_bind, post, ih]

/-- A question may be answered in any way. -/
@[simp] theorem post_answer (f : ι → α) :
    (answer f : Prog S W L ι E α).post D Q R ↔ ∀ i, Q (f i) D := Iff.rfl

/-- A read leaves the state and returns what it found. -/
@[simp] theorem post_query (f : S → α) :
    (query f : Prog S W L ι E α).post D Q R ↔ Q (f D) D := Iff.rfl

/-- A check lets the program go on, or raises. -/
@[simp] theorem post_require (b : Bool) (e : E) (Q : Unit → S → Prop) :
    (require b e : Prog S W L ι E Unit).post D Q R ↔ if b then Q () D else R e := by
  unfold require
  cases b with
  | true => rfl
  | false => rfl

end Rules

/-! ### Nested transactions -/

/-- A sequence that ends in a value had a first part that did.  An exception leaves no such run, so
    no case for it is needed. -/
theorem runs_bind_ok {p : Prog S W L ι E α} {f : α → Prog S W L ι E β} {D D' : S} {b : β} :
    (p >>= f).runs D (.ok (b, D')) ↔
      ∃ a D₁, p.runs D (.ok (a, D₁)) ∧ (f a).runs D₁ (.ok (b, D')) := by
  simp [runs_bind]

/-- What a read decides is decided by the state it reads. -/
theorem runs_query_bind {f : S → β} {g : β → Prog S W L ι E α} {D : S} {r : Except E (α × S)} :
    (query f >>= g).runs D r ↔ (g (f D)).runs D r := Iff.rfl

/-- A run that is given has the postcondition. -/
theorem of_post {p : Prog S W L ι E α} {D D' : S} {a : α} {Q : α → S → Prop} {R : E → Prop}
    (h : p.post D Q R) (hrun : p.runs D (.ok (a, D'))) : Q a D' := (post_iff.mp h).1 a D' hrun

/-- A nested transaction that has issued the writes `ws` goes through or leaves the state as it was
    at its start: the writes held back are either all made or all dropped.  By induction on the rest
    of the program. -/
theorem runs_savepointFrom {ws : List W} {p : Prog S W L ι E α} {D : S}
    {r : Except E (Except E α × S)} :
    (savepointFrom ws p).runs D r ↔
      (∃ a D', p.runs (applyAll ws D) (.ok (a, D')) ∧ r = .ok (.ok a, D')) ∨
        ∃ e, p.runs (applyAll ws D) (.error e) ∧ r = .ok (.error e, D) := by
  induction p generalizing ws D with
  | done a => simp [savepointFrom, runs]
  | raise e => simp [savepointFrom, runs]
  | ask next ih =>
    simp only [savepointFrom, runs, ih]
    constructor
    · rintro ⟨i, ⟨a, D', h, h'⟩ | ⟨e, h, h'⟩⟩
      · exact Or.inl ⟨a, D', ⟨i, h⟩, h'⟩
      · exact Or.inr ⟨e, ⟨i, h⟩, h'⟩
    · rintro (⟨a, D', ⟨i, h⟩, h'⟩ | ⟨e, ⟨i, h⟩, h'⟩)
      · exact ⟨i, Or.inl ⟨a, D', h, h'⟩⟩
      · exact ⟨i, Or.inr ⟨e, h, h'⟩⟩
  | stmt ls ws' next ih =>
    simp only [savepointFrom, runs, applyAll_nil, ih, applyAll_append]

/-- **A savepoint undoes a failure**: either `p` went through, or the state is as before and the
    exception is at hand as a value. -/
theorem runs_savepoint {p : Prog S W L ι E α} {D : S} {r : Except E (Except E α × S)} :
    p.savepoint.runs D r ↔
      (∃ a D', p.runs D (.ok (a, D')) ∧ r = .ok (.ok a, D')) ∨
        ∃ e, p.runs D (.error e) ∧ r = .ok (.error e, D) := runs_savepointFrom

/-- The rule of `post` for a nested transaction: its exceptions are values that the program meets on
    the state from before. -/
theorem post_savepoint {p : Prog S W L ι E α} {D : S} {Q : Except E α → S → Prop}
    {R : E → Prop} :
    p.savepoint.post D Q R ↔
      p.post D (fun a D' => Q (.ok a) D') (fun e => Q (.error e) D) := by
  simp only [post_iff, runs_savepoint]
  constructor
  · rintro ⟨h, -⟩
    exact ⟨fun a D' hr => h _ _ (Or.inl ⟨a, D', hr, rfl⟩),
      fun e hr => h _ _ (Or.inr ⟨e, hr, rfl⟩)⟩
  · rintro ⟨h, h'⟩
    refine ⟨?_, ?_⟩
    · rintro x D' (⟨a, D'', hr, heq⟩ | ⟨e, hr, heq⟩)
      · simp only [Except.ok.injEq, Prod.mk.injEq] at heq
        obtain ⟨rfl, rfl⟩ := heq
        exact h a D' hr
      · simp only [Except.ok.injEq, Prod.mk.injEq] at heq
        obtain ⟨rfl, rfl⟩ := heq
        exact h' e hr
    · rintro e (⟨a, D'', -, heq⟩ | ⟨e', -, heq⟩)
      · exact nomatch heq
      · exact nomatch heq

/-! ### Relations a program keeps -/

/-- Where `p` runs to its end, the state before and the state after are related.  A relation that is
    reflexive and transitive is kept by a sequence if it is kept by its parts, so a long program is
    dealt with statement by statement. -/
def keeps (Rel : S → S → Prop) (p : Prog S W L ι E α) : Prop :=
  ∀ D a D', p.runs D (.ok (a, D')) → Rel D D'

section Keeps

variable {Rel : S → S → Prop}

/-- A program that raises never runs to its end, so it keeps any relation. -/
theorem keeps_raise (e : E) : (raise e : Prog S W L ι E α).keeps Rel := fun _ _ _ h => nomatch h

/-- A program that is done leaves the state as it is. -/
theorem keeps_done [Std.Refl Rel] (a : α) : (done a : Prog S W L ι E α).keeps Rel := by
  intro D b D' h
  cases h
  exact Std.Refl.refl D

/-- A question to the environment leaves the state as it is. -/
theorem keeps_answer [Std.Refl Rel] (f : ι → α) : (answer f : Prog S W L ι E α).keeps Rel := by
  rintro D b D' ⟨i, h⟩
  cases h
  exact Std.Refl.refl D

/-- A read leaves the state as it is. -/
theorem keeps_query [Std.Refl Rel] (f : S → α) : (query f : Prog S W L ι E α).keeps Rel := by
  intro D b D' h
  cases h
  exact Std.Refl.refl D

/-- **Sequencing** for relations. -/
theorem keeps_bind [IsTrans S Rel] {p : Prog S W L ι E β} {f : β → Prog S W L ι E α}
    (hp : p.keeps Rel) (hf : ∀ b, (f b).keeps Rel) : (p >>= f).keeps Rel := by
  intro D a D' h
  obtain ⟨b, D₁, h₁, h₂⟩ := runs_bind_ok.mp h
  exact IsTrans.trans _ _ _ (hp D b D₁ h₁) (hf b D₁ a D' h₂)

/-- A relation that is implied is kept as well. -/
theorem keeps_mono {Rel' : S → S → Prop} {p : Prog S W L ι E α} (h : p.keeps Rel)
    (hRel : ∀ D D', Rel D D' → Rel' D D') : p.keeps Rel' :=
  fun D a D' hrun => hRel D D' (h D a D' hrun)

end Keeps

end Prog

/-! ## Histories -/

/-- The states that calls made one after the other reach from `D₀`, when each call meets `ok` on the
    state it finds.  A call that raises leaves no trace, since its transaction is rolled back; the
    calls may be any, in any order and any number. -/
inductive History {σ : Type} [Store S W L] (call : σ → Prog S W L ι E α) (ok : σ → S → Prop)
    (D₀ : S) : S → Prop
  /-- Nothing has been called yet. -/
  | start : History call ok D₀ D₀
  /-- An allowed call runs to its end on the state it finds, and commits. -/
  | commit {D c a D'} (h : History call ok D₀ D) (hc : ok c D)
      (hrun : (call c).runs D (.ok (a, D'))) : History call ok D₀ D'

namespace History

variable {S W L ι E α σ : Type} [Store S W L] {call : σ → Prog S W L ι E α}
variable {ok ok' : σ → S → Prop} {D₀ D : S}

/-- **Run rule.**  What holds at the start and is kept by each call holds throughout.  Every
    property of all histories is an instance: a proof names its invariant and shows the step. -/
theorem inv {P : S → Prop} (h₀ : P D₀)
    (hstep : ∀ c D a D', P D → ok c D → (call c).runs D (.ok (a, D')) → P D')
    (h : History call ok D₀ D) : P D := by
  induction h with
  | start => exact h₀
  | commit _ hc hrun ih => exact hstep _ _ _ _ ih hc hrun

end History

section Computed

variable {S W L ι E α σ : Type} [Store S W L]

/-- The state after a call on its own; one that raises leaves it as it is. -/
def afterCall (call : σ → Prog S W L ι E α) (o : Nat → ι) (c : σ) (D : S) : S :=
  match (call c).eval o 0 D with
  | .ok (_, D') => D'
  | .error _ => D

/-- The state after some calls, one after the other; the environment answers the `k`-th by `o k`, so
    that no two calls are given the same ids. -/
def afterCalls (call : σ → Prog S W L ι E α) (o : Nat → Nat → ι) : Nat → List σ → S → S
  | _, [], D => D
  | k, c :: cs, D => afterCalls call o (k + 1) cs (afterCall call (o k) c D)

/-- The exception a program raises on its own, if it does. -/
def raised (o : Nat → ι) (p : Prog S W L ι E α) (D : S) : Option E :=
  match p.eval o 0 D with
  | .ok _ => none
  | .error e => some e

/-- The value a program returns on its own, if it does. -/
def returned (o : Nat → ι) (p : Prog S W L ι E α) (D : S) : Option α :=
  match p.eval o 0 D with
  | .ok (a, _) => some a
  | .error _ => none

/-- What a program is computed to return, some run returns. -/
theorem runs_of_returned {o : Nat → ι} {p : Prog S W L ι E α} {D : S} {a : α}
    (h : returned o p D = some a) : ∃ D', p.runs D (.ok (a, D')) := by
  have hrun := Prog.runs_eval o 0 p D
  unfold returned at h
  cases heval : p.eval o 0 D with
  | ok r =>
    rw [heval] at h hrun
    obtain rfl := Option.some.inj h
    exact ⟨r.2, hrun⟩
  | error e =>
    rw [heval] at h
    exact nomatch h

/-- What it is computed to raise, some run raises. -/
theorem runs_of_raised {o : Nat → ι} {p : Prog S W L ι E α} {D : S} {e : E}
    (h : raised o p D = some e) : p.runs D (.error e) := by
  have hrun := Prog.runs_eval o 0 p D
  unfold raised at h
  cases heval : p.eval o 0 D with
  | ok r =>
    rw [heval] at h
    exact nomatch h
  | error e' =>
    rw [heval] at h hrun
    rwa [← Option.some.inj h]

/-- A run that ends well on its own is a run. -/
theorem exists_runs_ok {o : Nat → ι} {p : Prog S W L ι E α} {D : S}
    (h : (p.eval o 0 D).isOk = true) : ∃ a D', p.runs D (.ok (a, D')) := by
  have hrun := Prog.runs_eval o 0 p D
  cases heval : p.eval o 0 D with
  | ok r =>
    rw [heval] at hrun
    exact ⟨r.1, r.2, hrun⟩
  | error e =>
    rw [heval] at h
    exact nomatch h

/-- A call that ends well on its own leads to the state after it. -/
theorem runs_afterCall (call : σ → Prog S W L ι E α) {o : Nat → ι} {c : σ} {D : S}
    (h : ((call c).eval o 0 D).isOk = true) :
    ∃ a, (call c).runs D (.ok (a, afterCall call o c D)) := by
  have hrun := Prog.runs_eval o 0 (call c) D
  unfold afterCall
  cases heval : (call c).eval o 0 D with
  | ok r =>
    rw [heval] at hrun
    exact ⟨r.1, hrun⟩
  | error e =>
    rw [heval] at h
    exact nomatch h

/-- A history goes on with a call that is allowed, whether it ends well or raises. -/
theorem History.afterCall {call : σ → Prog S W L ι E α} {ok : σ → S → Prop} {D₀ D : S}
    (h : History call ok D₀ D) (o : Nat → ι) {c : σ} (hc : ok c D) :
    History call ok D₀ (afterCall call o c D) := by
  have hrun := Prog.runs_eval o 0 (call c) D
  unfold Relational.afterCall
  cases heval : (call c).eval o 0 D with
  | ok r =>
    obtain ⟨a, D'⟩ := r
    rw [heval] at hrun
    exact h.commit hc hrun
  | error e => exact h

/-- Calls made one after the other, all of them allowed, are a history; this is how the samples
    reach their states. -/
theorem History.afterCalls {call : σ → Prog S W L ι E α} {D₀ : S} (o : Nat → Nat → ι) (k : Nat)
    (cs : List σ) {D : S} (h : History call (fun _ _ => True) D₀ D) :
    History call (fun _ _ => True) D₀ (afterCalls call o k cs D) := by
  induction cs generalizing k D with
  | nil => exact h
  | cons c cs ih => exact ih (k + 1) (h.afterCall (o k) trivial)

end Computed

end Relational
