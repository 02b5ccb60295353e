/-
  Concurrent transactions under READ COMMITTED with row locks.

  Any number of clients run transactions against one store.  A statement sees the state committed
  when it starts together with the writes of its own transaction, waits for the locks it takes and
  for those of its writes, and keeps them until the transaction ends.  A commit publishes the
  writes at once; a rollback, or a crash at any point, drops them.

  A transaction is proved right without looking at the others.  The argument (`ensures`) follows
  the program through its statements and keeps two states apart: `seen`, what the session saw, and
  `view`, what its writes make of a state it may commit on.  The two agree on every lock held, and
  what was seen is `earlier`; nothing else is known of the view.

  * `Prog.ensures`    — that argument, with one rule for each way to build a program;
  * `Client`, `Step`  — the clients and the interleaving of their statements;
  * `Contract`        — what is asked of the clients: each transaction keeps its commit relation;
  * `Reachable.ok`    — then the committed states of every interleaving are those of a serial run
                        of the commit relations, and no session meets an exception ruled out.
-/
import CommerceOperations.Relational.Transaction
import Mathlib.Logic.Function.Basic

namespace Relational

open Store

variable {S W L ι E α β σ : Type}

/-! ## What a transaction guarantees among others -/

/-- A point in a transaction: the locks it holds, the state it saw with its own writes, and the
    state its writes make of the one it will commit on.  The proof of a transaction knows `held` and
    reasons about `view`; `seen` is kept only because what was read comes from there. -/
structure Point (S L : Type) where
  /-- The locks that are held. -/
  held : List L
  /-- What the session saw last, with its own writes. -/
  seen : S
  /-- What its writes make of the state it will commit on. -/
  view : S

namespace Prog

variable [Store S W L]

/-- However the statements interleave with those of others, `p` ends in a value and a point in
    `Q`, or in an exception that is not `bad`.  An exception is raised on what the last statement
    saw, so there `seen` is the view; while the environment answers, what was seen may age. -/
def ensures (bad : E → Prop) : Prog S W L ι E α → Point S L → (α → Point S L → Prop) → Prop
  | done a, pt, Q => Q a pt
  | raise e, pt, _ => pt.seen = pt.view → ¬bad e
  | ask next, pt, Q => ∀ i seen, (next i).ensures bad ⟨pt.held, seen, pt.view⟩ Q
  | stmt ls ws next, pt, Q =>
    ∀ V, earlier V pt.view → agreeOn (pt.held ++ (ls V ++ locksOf S (ws V))) V pt.view →
      (next V).ensures bad
        ⟨pt.held ++ (ls V ++ locksOf S (ws V)), applyAll (ws V) V, applyAll (ws V) pt.view⟩ Q

variable {bad : E → Prop} {pt : Point S L} {Q : α → Point S L → Prop}

/-- What is ensured may be weakened at the end. -/
theorem ensures_mono {Q' : α → Point S L → Prop} {p : Prog S W L ι E α}
    (h : p.ensures bad pt Q) (hQ : ∀ a pt', Q a pt' → Q' a pt') : p.ensures bad pt Q' := by
  induction p generalizing pt with
  | done a => exact hQ a pt h
  | raise e => exact h
  | ask next ih => exact fun i seen => ih i (h i seen)
  | stmt ls ws next ih => exact fun V hV hagree => ih V (h V hV hagree)

/-- Two things that are ensured are ensured together, since the points a program goes through are
    the same for both. -/
theorem ensures_and {Q' : α → Point S L → Prop} {p : Prog S W L ι E α} (h : p.ensures bad pt Q)
    (h' : p.ensures bad pt Q') : p.ensures bad pt fun a pt' => Q a pt' ∧ Q' a pt' := by
  induction p generalizing pt with
  | done a => exact ⟨h, h'⟩
  | raise e => exact h
  | ask next ih => exact fun i seen => ih i (h i seen) (h' i seen)
  | stmt ls ws next ih => exact fun V hV hagree => ih V (h V hV hagree) (h' V hV hagree)

/-- A program that never raises a bad error never raises one of fewer bad errors. -/
theorem ensures_anti {bad' : E → Prop} {p : Prog S W L ι E α} (h : p.ensures bad pt Q)
    (hbad : ∀ e, bad' e → bad e) : p.ensures bad' pt Q := by
  induction p generalizing pt with
  | done a => exact h
  | raise e => exact fun hseen he => h hseen (hbad e he)
  | ask next ih => exact fun i seen => ih i (h i seen)
  | stmt ls ws next ih => exact fun V hV hagree => ih V (h V hV hagree)

/-- A program that is done ends at the point where it is. -/
@[simp] theorem ensures_done (a : α) :
    (done a : Prog S W L ι E α).ensures bad pt Q ↔ Q a pt := Iff.rfl

/-- An exception is no harm if it is not bad, and what was seen when it was raised may be taken for
    the view. -/
@[simp] theorem ensures_raise (e : E) :
    (raise e : Prog S W L ι E α).ensures bad pt Q ↔ (pt.seen = pt.view → ¬bad e) := Iff.rfl

/-- **Sequencing.**  The first part has to lead to a point from which the second one ensures the
    rest. -/
theorem ensures_bind {p : Prog S W L ι E β} {f : β → Prog S W L ι E α} :
    (p >>= f).ensures bad pt Q ↔
      p.ensures bad pt fun b pt' => (f b).ensures bad pt' Q := by
  induction p generalizing pt with
  | done b => rfl
  | raise e => rfl
  | ask next ih => simp only [ask_bind, ensures, ih]
  | stmt ls ws next ih => simp only [stmt_bind, ensures, ih]

/-- The environment may answer in any way, and while it does, other transactions commit: what was
    seen may be any state from then on. -/
@[simp] theorem ensures_answer (f : ι → α) :
    (answer f : Prog S W L ι E α).ensures bad pt Q ↔
      ∀ i seen, Q (f i) ⟨pt.held, seen, pt.view⟩ := Iff.rfl

/-- A plain read sees some earlier state that agrees with the view on the locks held.  So a row that
    is locked is read as it will be when the transaction commits, and any other may have changed by
    then. -/
@[simp] theorem ensures_query (f : S → α) :
    (query f : Prog S W L ι E α).ensures bad pt Q ↔
      ∀ V, earlier V pt.view → agreeOn pt.held V pt.view → Q (f V) ⟨pt.held, V, pt.view⟩ := by
  simp [query, ensures]

/-- A check lets the program go on at the same point, or raises there. -/
@[simp] theorem ensures_require (b : Bool) (e : E) (Q : Unit → Point S L → Prop) :
    (require b e : Prog S W L ι E Unit).ensures bad pt Q ↔
      if b then Q () pt else (pt.seen = pt.view → ¬bad e) := by
  unfold require
  cases b with
  | true => rfl
  | false => rfl

/-- What a transaction ensures among others it ensures alone: take for the view the state that is
    seen, which agrees with itself on every lock. -/
theorem post_of_ensures {p : Prog S W L ι E α} {h : List L} {D : S}
    (hp : p.ensures bad ⟨h, D, D⟩ Q) :
    p.post D (fun a D' => ∃ pt : Point S L, pt.view = D' ∧ Q a pt) (fun e => ¬bad e) := by
  induction p generalizing h D with
  | done a => exact ⟨⟨h, D, D⟩, rfl, hp⟩
  | raise e => exact hp rfl
  | ask next ih => exact fun i => ih i (hp i D)
  | stmt ls ws next ih => exact ih D (hp D (earlier_refl D) (agreeOn_refl _ D))

/-- The rule of a nested transaction that holds back the writes `ws`.  If it goes through, its
    writes reach the view together; if not, the point is as at its start, but for more locks.  By
    induction on the rest of it. -/
theorem ensures_savepointFrom {ws : List W} {p : Prog S W L ι E α}
    {Q : Except E α → Point S L → Prop} (hws : ∀ ℓ ∈ locksOf S ws, ℓ ∈ pt.held)
    (hp : p.ensures (fun _ => False) ⟨pt.held, applyAll ws pt.seen, applyAll ws pt.view⟩
      fun a pt' => ∀ held seen, pt'.held ⊆ held → Q (.ok a) ⟨held, seen, pt'.view⟩)
    (herror : ∀ e held seen, pt.held ⊆ held → Q (.error e) ⟨held, seen, pt.view⟩) :
    (savepointFrom ws p).ensures bad pt Q := by
  induction p generalizing ws pt with
  | done a =>
    intro V _ _
    exact hp _ _ fun ℓ hℓ => List.mem_append_left _ hℓ
  | raise e => exact herror e pt.held pt.seen fun ℓ hℓ => hℓ
  | ask next ih => exact fun i seen => ih i hws (hp i (applyAll ws seen)) herror
  | stmt ls ws' next ih =>
    intro V hV hagree
    have hagree' : agreeOn pt.held V pt.view := (agreeOn_append.mp hagree).1
    have hwsV : agreeOn (locksOf S ws) V pt.view := fun ℓ hℓ => hagree' ℓ (hws ℓ hℓ)
    -- the statement saw `V` with the writes held back
    have hstep := hp (applyAll ws V) (applyAll_mono hV hwsV) (by
      refine applyAll_agreeOn hwsV ?_
      simpa using hagree)
    refine ih (applyAll ws V) ?_ ?_ ?_
    · intro ℓ hℓ
      rw [locksOf_append, List.mem_append] at hℓ
      rcases hℓ with hℓ | hℓ
      · exact List.mem_append_left _ (hws ℓ hℓ)
      · simp [hℓ]
    · simpa [applyAll_append] using hstep
    · intro e held seen hheld
      exact herror e held seen fun ℓ hℓ => hheld (List.mem_append_left _ hℓ)

/-- **A savepoint among others**: at an exception the writes of `p` are gone, and the program around
    it goes on at a view without them. -/
theorem ensures_savepoint {p : Prog S W L ι E α} {Q : Except E α → Point S L → Prop}
    (hp : p.ensures (fun _ => False) pt
      fun a pt' => ∀ held seen, pt'.held ⊆ held → Q (.ok a) ⟨held, seen, pt'.view⟩)
    (herror : ∀ e held seen, pt.held ⊆ held → Q (.error e) ⟨held, seen, pt.view⟩) :
    p.savepoint.ensures bad pt Q :=
  ensures_savepointFrom (fun ℓ hℓ => by simp at hℓ) hp herror

end Prog

/-! ## The interleaving -/

/-- What the clients run: a client in state `c` issues the transaction `call c`; its result, or its
    exception, takes the client to a `next` state.  A crash raises `fault`.  A client without memory
    has one state for each call it may make; one that goes through several transactions keeps its
    place in its state. -/
structure Client (S W L ι E α σ : Type) where
  /-- Where a client may be at first. -/
  start : σ → Prop
  /-- The transaction it issues next. -/
  call : σ → Prog S W L ι E α
  /-- Where the outcome may take it. -/
  next : σ → Except E α → σ → Prop
  /-- What a client that was cut off is told. -/
  fault : E

/-- A client between transactions, or in one: the rest of its program, its writes so far, and the
    locks it took besides those of its writes. -/
inductive Slot (S W L ι E α σ : Type) where
  /-- Between transactions. -/
  | idle (c : σ)
  /-- In a transaction. -/
  | running (c : σ) (prog : Prog S W L ι E α) (writes : List W) (locks : List L)

/-- The committed state, the clients, and the committed calls in order.  The log is no part of the
    database; it is what statements about the order of the commits speak of. -/
structure System (S W L ι E α σ : Type) where
  /-- What is committed. -/
  committed : S
  /-- Where each client is. -/
  slots : Nat → Slot S W L ι E α σ
  /-- The calls that were committed, with their values, oldest first. -/
  log : List (σ × α)

variable [Store S W L]

/-- The locks a client holds: those of its statements, and those of its writes, until it commits or
    is rolled back. -/
def Slot.held : Slot S W L ι E α σ → List L
  | .idle _ => []
  | .running _ _ writes locks => locks ++ locksOf S writes

namespace System

/-- The state of the system when client `i` has moved on. -/
def move (sys : System S W L ι E α σ) (i : Nat) (slot : Slot S W L ι E α σ) :
    System S W L ι E α σ := { sys with slots := Function.update sys.slots i slot }

omit [Store S W L] in
/-- When one client moves, the others stay where they are. -/
theorem slots_move_of_ne (sys : System S W L ι E α σ) {i j : Nat} (slot : Slot S W L ι E α σ)
    (h : j ≠ i) : (sys.move i slot).slots j = sys.slots j := Function.update_of_ne h ..

omit [Store S W L] in
/-- The client that moves is where it moved to. -/
@[simp] theorem slots_move_self (sys : System S W L ι E α σ) (i : Nat)
    (slot : Slot S W L ι E α σ) : (sys.move i slot).slots i = slot := Function.update_self ..

/-- One step of one client.  Between any two of these steps any other client may make its own;
    nothing is assumed about fairness, and a client that waits for a lock has no step until the lock
    is free. -/
inductive Step (K : Client S W L ι E α σ) (sys : System S W L ι E α σ) :
    System S W L ι E α σ → Prop
  /-- A client begins its transaction. -/
  | begin {i c} (h : sys.slots i = .idle c) :
    Step K sys (sys.move i (.running c (K.call c) [] []))
  /-- The environment answers a question. -/
  | answer {i c next ws ls} (h : sys.slots i = .running c (.ask next) ws ls) (a : ι) :
    Step K sys (sys.move i (.running c (next a) ws ls))
  /-- A statement runs on the latest committed state when no one else holds its locks. -/
  | statement {i c ls' ws' next ws ls V} (h : sys.slots i = .running c (.stmt ls' ws' next) ws ls)
      (hV : V = applyAll ws sys.committed)
      (hfree : ∀ j, j ≠ i → ∀ ℓ ∈ ls' V ++ locksOf S (ws' V), ℓ ∉ (sys.slots j).held) :
    Step K sys (sys.move i (.running c (next V) (ws ++ ws' V) (ls ++ ls' V)))
  /-- The program is done: its writes are published at once. -/
  | commit {i c a ws ls c'} (h : sys.slots i = .running c (.done a) ws ls)
      (hnext : K.next c (.ok a) c') :
    Step K sys
      { committed := applyAll ws sys.committed
        slots := Function.update sys.slots i (.idle c')
        log := sys.log ++ [(c, a)] }
  /-- The program has raised: its writes are dropped. -/
  | rollback {i c e ws ls c'} (h : sys.slots i = .running c (.raise e) ws ls)
      (hnext : K.next c (.error e) c') :
    Step K sys (sys.move i (.idle c'))
  /-- A crash, a lost connection or a deadlock ends the transaction wherever it stands. -/
  | abort {i c p ws ls c'} (h : sys.slots i = .running c p ws ls)
      (hnext : K.next c (.error K.fault) c') :
    Step K sys (sys.move i (.idle c'))

/-- The states of every interleaving that starts on `D₀`, with every client between transactions. -/
inductive Reachable (K : Client S W L ι E α σ) (D₀ : S) : System S W L ι E α σ → Prop
  | init {slots} (h : ∀ i, ∃ c, slots i = .idle c ∧ K.start c) : Reachable K D₀ ⟨D₀, slots, []⟩
  | step {sys sys'} (h : Reachable K D₀ sys) (hstep : Step K sys sys') : Reachable K D₀ sys'

end System

/-- A serial run: one call after the other, each by its commit relation. -/
inductive Serial (C : σ → α → S → S → Prop) (D₀ : S) : List (σ × α) → S → Prop
  /-- No call has been committed. -/
  | nil : Serial C D₀ [] D₀
  /-- One more call is committed on the state reached. -/
  | snoc {log D c a D'} (h : Serial C D₀ log D) (hc : C c a D D') :
    Serial C D₀ (log ++ [(c, a)]) D'

/-- A property kept by every commit holds at the end of a serial run. -/
theorem Serial.inv {C : σ → α → S → S → Prop} {D₀ : S} {P : S → Prop} (h₀ : P D₀)
    (hstep : ∀ c a D D', P D → C c a D D' → P D') {log : List (σ × α)} {D : S}
    (h : Serial C D₀ log D) : P D := by
  induction h with
  | nil => exact h₀
  | snoc _ hc ih => exact hstep _ _ _ _ ih hc

/-- A serial run by one relation is a serial run by any relation it implies. -/
theorem Serial.mono {C C' : σ → α → S → S → Prop} {D₀ D : S} {log : List (σ × α)}
    (h : Serial C D₀ log D) (hC : ∀ c a D D', C c a D D' → C' c a D D') : Serial C' D₀ log D := by
  induction h with
  | nil => exact .nil
  | snoc _ hc ih => exact ih.snoc (hC _ _ _ _ hc)

/-- A serial run of calls of which less is told: where `f` forgets part of the value of a call,
    the runs with the values told by `f` are the runs with their full values, told by `f`. -/
theorem Serial.forget_iff {β : Type} {C : σ → α → S → S → Prop} (f : α → β) {D₀ D : S}
    {log : List (σ × β)} :
    Serial (fun c b D D' => ∃ a, f a = b ∧ C c a D D') D₀ log D ↔
      ∃ log', Serial C D₀ log' D ∧ log'.map (fun x => (x.1, f x.2)) = log := by
  constructor
  · intro h
    induction h with
    | nil => exact ⟨[], .nil, rfl⟩
    | @snoc log D c b D' _ hc ih =>
      obtain ⟨log', hlog', rfl⟩ := ih
      obtain ⟨a, rfl, hc⟩ := hc
      refine ⟨log' ++ [(c, a)], hlog'.snoc hc, ?_⟩
      rw [List.map_append]
      rfl
  · rintro ⟨log', h, rfl⟩
    induction h with
    | nil => exact .nil
    | @snoc log' D c a D' _ hc ih =>
      rw [List.map_append]
      exact ih.snoc ⟨a, rfl, hc⟩

/-- A committed call, with the states it was committed on and led to. -/
structure Commit (S σ α : Type) where
  /-- The call. -/
  call : σ
  /-- What it returned. -/
  value : α
  /-- The state it was committed on. -/
  before : S
  /-- The state it led to. -/
  after : S

/-- A serial run with its states: `Serial` forgets where each call was committed, which is what a
    statement about the effects of one of them needs. -/
inductive Commits (C : σ → α → S → S → Prop) (D₀ : S) : List (Commit S σ α) → S → Prop
  | nil : Commits C D₀ [] D₀
  | snoc {steps D c a D'} (h : Commits C D₀ steps D) (hc : C c a D D') :
    Commits C D₀ (steps ++ [⟨c, a, D, D'⟩]) D'

/-- Every serial run goes through some states. -/
theorem Serial.commits {C : σ → α → S → S → Prop} {D₀ D : S} {log : List (σ × α)}
    (h : Serial C D₀ log D) :
    ∃ steps, Commits C D₀ steps D ∧ steps.map (fun s => (s.call, s.value)) = log := by
  induction h with
  | nil => exact ⟨[], .nil, rfl⟩
  | snoc _ hc ih =>
    obtain ⟨steps, hsteps, hlog⟩ := ih
    refine ⟨_, hsteps.snoc hc, ?_⟩
    rw [List.map_append, hlog]
    rfl

namespace Commits

variable {C : σ → α → S → S → Prop} {D₀ D : S} {steps : List (Commit S σ α)}

/-- The commit relation holds of each of them. -/
theorem rel_of_mem (h : Commits C D₀ steps D) {s : Commit S σ α} (hs : s ∈ steps) :
    C s.call s.value s.before s.after := by
  induction h with
  | nil => cases hs
  | snoc _ hc ih =>
    rcases List.mem_append.mp hs with hs | hs
    · exact ih hs
    · rw [List.mem_singleton.mp hs]
      exact hc

/-- A property kept by every commit holds at the end. -/
theorem inv {P : S → Prop} (h₀ : P D₀) (hstep : ∀ c a D D', P D → C c a D D' → P D')
    (h : Commits C D₀ steps D) : P D := by
  induction h with
  | nil => exact h₀
  | snoc _ hc ih => exact hstep _ _ _ _ ih hc

end Commits

/-- The committed calls and the state after some calls on their own, one after the other; the
    environment answers the `k`-th by `o k`. -/
def traceCalls (call : σ → Prog S W L ι E α) (o : Nat → Nat → ι) :
    Nat → List σ → List (σ × α) → S → List (σ × α) × S
  | _, [], log, D => (log, D)
  | k, c :: cs, log, D =>
    match (call c).eval (o k) 0 D with
    | .ok (a, D') => traceCalls call o (k + 1) cs (log ++ [(c, a)]) D'
    | .error _ => traceCalls call o (k + 1) cs log D

/-- The calls as they are computed one after the other make a serial run.  By induction on the list
    of calls; one that raises is left out of the log and leaves the state. -/
theorem Serial.traceCalls {call : σ → Prog S W L ι E α} {ok : σ → S → Prop} {D₀ D : S}
    {log : List (σ × α)} (o : Nat → Nat → ι) (k : Nat) (cs : List σ)
    (hok : ∀ c ∈ cs, ∀ D, ok c D)
    (h : Serial (fun c a D D' => ok c D ∧ (call c).runs D (.ok (a, D'))) D₀ log D) :
    Serial (fun c a D D' => ok c D ∧ (call c).runs D (.ok (a, D'))) D₀
      (traceCalls call o k cs log D).1 (traceCalls call o k cs log D).2 := by
  induction cs generalizing k log D with
  | nil => exact h
  | cons c cs ih =>
    have hrun := Prog.runs_eval (o k) 0 (call c) D
    have hcs : ∀ c ∈ cs, ∀ D, ok c D := fun c hc => hok c (List.mem_cons_of_mem _ hc)
    unfold Relational.traceCalls
    cases heval : (call c).eval (o k) 0 D with
    | ok r =>
      obtain ⟨a, D'⟩ := r
      rw [heval] at hrun
      exact ih (k + 1) hcs (h.snoc ⟨hok c List.mem_cons_self D, hrun⟩)
    | error e => exact ih (k + 1) hcs h

/-- What the clients `K` promise: from a state in `inv` that a client in state `c` `knows`, its call
    commits by `rel c` and meets no exception in `bad c`; the rest says that the commits keep both.
    Each clause is about one transaction and no interleaving is mentioned; that the clauses suffice
    for all interleavings is `Reachable.ok`. -/
structure Contract (K : Client S W L ι E α σ) (D₀ : S) where
  /-- What holds of the database throughout. -/
  inv : S → Prop
  /-- What a client in a state has learned, and may rely on. -/
  knows : σ → S → Prop
  /-- What a call does to the state it commits on. -/
  rel : σ → α → S → S → Prop
  /-- The exceptions that a call never meets. -/
  bad : σ → E → Prop
  /-- A call does what its relation says, among others. -/
  ensures : ∀ {c D}, inv D → knows c D →
    (K.call c).ensures (bad c) ⟨[], D, D⟩ fun a pt => rel c a D pt.view
  /-- The invariant holds at first. -/
  inv_start : inv D₀
  /-- It is kept by each commit. -/
  inv_next : ∀ {c a D D'}, inv D → knows c D → rel c a D D' → inv D'
  /-- At first a client knows what it has to. -/
  knows_start : ∀ {c}, K.start c → knows c D₀
  /-- What a client knows is kept by the commits of the others. -/
  knows_other : ∀ {c c' a D D'}, inv D → knows c D → knows c' D → rel c' a D D' → knows c D'
  /-- After its own commit it knows what its next state asks for. -/
  knows_ok : ∀ {c a c' D D'}, inv D → knows c D → rel c a D D' → K.next c (.ok a) c' → knows c' D'
  /-- And so it does after an exception. -/
  knows_error : ∀ {c e c' D}, inv D → knows c D → K.next c (.error e) c' → knows c' D

/-- Clients that issue the calls `call` in any order, any number of times. -/
def Client.ofCalls (call : σ → Prog S W L ι E α) (fault : E) : Client S W L ι E α σ where
  start _ := True
  call := call
  next _ _ _ := True
  fault := fault

/-- The contract of calls that keep `inv` and meet no exception in `bad`.  Most services need no
    more: what one call has learned is of no use to the next. -/
def Contract.ofInv {call : σ → Prog S W L ι E α} {fault : E} {D₀ : S} (inv : S → Prop)
    (bad : σ → E → Prop) (hinv : inv D₀)
    (hcall : ∀ c D, inv D → (call c).ensures (bad c) ⟨[], D, D⟩ fun _ pt => inv pt.view) :
    Contract (Client.ofCalls call fault) D₀ where
  inv := inv
  knows _ _ := True
  rel _ _ _ D' := inv D'
  bad := bad
  ensures := fun h _ => hcall _ _ h
  inv_start := hinv
  inv_next := fun _ _ h => h
  knows_start := fun _ => trivial
  knows_other := fun _ _ _ _ => trivial
  knows_ok := fun _ _ _ _ => trivial
  knows_error := fun _ _ _ => trivial

namespace System

variable {K : Client S W L ι E α σ} {D₀ : S} (Γ : Contract K D₀)

/-- What holds of a client while `D₀` is committed: the rest of its program ensures its commit
    relation on every state the others may make of `D₀` without its locks.  The quantifier over
    these states is what survives a commit of another client; `earlier` and the agreement on the
    locks are all that is known of them. -/
def SlotOk (D₀ : S) : Slot S W L ι E α σ → Prop
  | .idle c => Γ.knows c D₀
  | .running c p ws ls =>
    Γ.knows c D₀ ∧
      (∀ D, Γ.inv D → Γ.knows c D → earlier D₀ D → agreeOn (ls ++ locksOf S ws) D₀ D →
        ∃ held seen, held ⊆ ls ++ locksOf S ws ∧
          p.ensures (Γ.bad c) ⟨held, seen, applyAll ws D⟩ fun a pt => Γ.rel c a D pt.view) ∧
      ∀ e, p = .raise e → ¬Γ.bad c e

/-- The invariant of the interleaving: that of the database, the log as a serial run, the locks of
    different clients apart, and of each client that it will keep its contract. -/
structure Ok (sys : System S W L ι E α σ) : Prop where
  /-- The database has its invariant. -/
  inv : Γ.inv sys.committed
  /-- The committed calls are a serial run. -/
  serial : Serial Γ.rel D₀ sys.log sys.committed
  /-- No two clients hold one lock. -/
  apart : ∀ i j, i ≠ j → ∀ ℓ ∈ (sys.slots i).held, ℓ ∉ (sys.slots j).held
  /-- Each client will keep its contract. -/
  slots : ∀ i, SlotOk Γ sys.committed (sys.slots i)

variable {Γ} {sys : System S W L ι E α σ}

/-- A step that moves one client keeps the invariant if the client holds no lock of another.
    Nothing is committed by such a step, so only the client that moves and the disjointness of the
    locks are to be looked at. -/
theorem Ok.move (h : Ok Γ sys) {i : Nat} {slot : Slot S W L ι E α σ}
    (hslot : SlotOk Γ sys.committed slot)
    (hheld : ∀ ℓ ∈ slot.held, ℓ ∈ (sys.slots i).held ∨ ∀ j, j ≠ i → ℓ ∉ (sys.slots j).held) :
    Ok Γ (sys.move i slot) := by
  have hfree : ∀ j, j ≠ i → ∀ ℓ ∈ slot.held, ℓ ∉ (sys.slots j).held := by
    intro j hj ℓ hℓ
    rcases hheld ℓ hℓ with hℓ | hℓ
    · exact h.apart i j hj.symm ℓ hℓ
    · exact hℓ j hj
  refine ⟨h.inv, h.serial, ?_, ?_⟩
  · intro j k hjk ℓ
    show ℓ ∈ (Function.update sys.slots i slot j).held →
      ℓ ∉ (Function.update sys.slots i slot k).held
    by_cases hj : j = i
    · subst hj
      rw [Function.update_self, Function.update_of_ne hjk.symm]
      exact hfree k hjk.symm ℓ
    · rw [Function.update_of_ne hj]
      by_cases hk : k = i
      · subst hk
        rw [Function.update_self]
        exact fun hℓ hℓ' => hfree j hj ℓ hℓ' hℓ
      · rw [Function.update_of_ne hk]
        exact h.apart j k hjk ℓ
  · intro j
    show SlotOk Γ sys.committed (Function.update sys.slots i slot j)
    by_cases hj : j = i
    · subst hj
      rw [Function.update_self]
      exact hslot
    · rw [Function.update_of_ne hj]
      exact h.slots j

/-- What one client committed, the others do not notice: the new state is one that the others might
    have made of the old one. -/
theorem SlotOk.other {slot : Slot S W L ι E α σ} {D D' : S} (h : SlotOk Γ D slot)
    (hknows : ∀ {c}, Γ.knows c D → Γ.knows c D') (hearlier : earlier D D')
    (hagree : agreeOn slot.held D D') : SlotOk Γ D' slot := by
  cases slot with
  | idle c => exact hknows h
  | running c p ws ls =>
    obtain ⟨hk, hp, hbad⟩ := h
    refine ⟨hknows hk, fun D'' hinv hk'' hD'' hD''agree => ?_, hbad⟩
    refine hp D'' hinv hk'' (earlier_trans hearlier hD'') fun ℓ hℓ => ?_
    exact agree_trans (hagree ℓ hℓ) (hD''agree ℓ hℓ)

/-- A client about to begin has its whole call before it, and the contract is about just that. -/
theorem SlotOk.begin {c : σ} {D : S} (hinv : Γ.inv D) (hk : Γ.knows c D) :
    SlotOk Γ D (.running c (K.call c) [] []) := by
  refine ⟨hk, fun D' hinv' hk' _ _ => ⟨[], D', fun _ hℓ => hℓ, Γ.ensures hinv' hk'⟩, ?_⟩
  intro e he
  have hp := Γ.ensures hinv hk
  rw [he] at hp
  exact hp rfl

/-- The environment answers, with whatever value; the rest of the program was good for each. -/
theorem SlotOk.answer {c : σ} {D : S} {next : ι → Prog S W L ι E α} {ws : List W} {ls : List L}
    (hinv : Γ.inv D) (h : SlotOk Γ D (.running c (.ask next) ws ls)) (a : ι) :
    SlotOk Γ D (.running c (next a) ws ls) := by
  obtain ⟨hk, hp, -⟩ := h
  refine ⟨hk, fun D' hinv' hk' hD' hagree => ?_, ?_⟩
  · obtain ⟨held, seen, hheld, hens⟩ := hp D' hinv' hk' hD' hagree
    exact ⟨held, seen, hheld, hens a seen⟩
  · intro e he
    obtain ⟨held, seen, -, hens⟩ := hp D hinv hk (earlier_refl D) (agreeOn_refl _ D)
    have hraise := hens a (applyAll ws D)
    rw [he] at hraise
    exact hraise rfl

/-- A statement saw the committed state; what others commit later agrees with it on the locks, those
    that the statement has just taken included.  So the rest of the program is good on all of these
    states. -/
theorem SlotOk.statement {c : σ} {D : S} {ls' : S → List L} {ws' : S → List W}
    {next : S → Prog S W L ι E α} {ws : List W} {ls : List L}
    (hinv : Γ.inv D) (h : SlotOk Γ D (.running c (.stmt ls' ws' next) ws ls)) :
    SlotOk Γ D (.running c (next (applyAll ws D)) (ws ++ ws' (applyAll ws D))
      (ls ++ ls' (applyAll ws D))) := by
  obtain ⟨hk, hp, -⟩ := h
  have hnext : ∀ D', Γ.inv D' → Γ.knows c D' → earlier D D' →
      agreeOn (ls ++ ls' (applyAll ws D) ++ locksOf S (ws ++ ws' (applyAll ws D))) D D' →
      ∃ held, held ⊆ ls ++ ls' (applyAll ws D) ++ locksOf S (ws ++ ws' (applyAll ws D)) ∧
        (next (applyAll ws D)).ensures (Γ.bad c)
          ⟨held, applyAll (ws ++ ws' (applyAll ws D)) D, applyAll (ws ++ ws' (applyAll ws D)) D'⟩
          fun a pt => Γ.rel c a D' pt.view := by
    intro D' hinv' hk' hD' hagree
    simp only [locksOf_append, agreeOn_append] at hagree
    obtain ⟨⟨hls, hls'⟩, hws, hws'⟩ := hagree
    obtain ⟨held, seen, hheld, hens⟩ :=
      hp D' hinv' hk' hD' (agreeOn_append.mpr ⟨hls, hws⟩)
    have hagreeV : ∀ {ℓs : List L}, agreeOn ℓs D D' →
        agreeOn ℓs (applyAll ws D) (applyAll ws D') := fun hℓs => applyAll_agreeOn hws hℓs
    have hstep := hens (applyAll ws D) (applyAll_mono hD' hws) (by
      rw [agreeOn_append, agreeOn_append]
      refine ⟨hagreeV fun ℓ hℓ => ?_, hagreeV hls', hagreeV hws'⟩
      rcases List.mem_append.mp (hheld hℓ) with hℓ | hℓ
      · exact hls ℓ hℓ
      · exact hws ℓ hℓ)
    rw [← applyAll_append, ← applyAll_append] at hstep
    refine ⟨_, ?_, hstep⟩
    intro ℓ hℓ
    simp only [locksOf_append, List.mem_append] at hℓ ⊢
    rcases hℓ with hℓ | hℓ | hℓ
    · rcases List.mem_append.mp (hheld hℓ) with hℓ | hℓ
      · exact Or.inl (Or.inl hℓ)
      · exact Or.inr (Or.inl hℓ)
    · exact Or.inl (Or.inr hℓ)
    · exact Or.inr (Or.inr hℓ)
  refine ⟨hk, fun D' hinv' hk' hD' hagree => ?_, ?_⟩
  · obtain ⟨held, hheld, hens⟩ := hnext D' hinv' hk' hD' hagree
    exact ⟨held, _, hheld, hens⟩
  · intro e he
    obtain ⟨held, -, hens⟩ := hnext D hinv hk (earlier_refl D) (agreeOn_refl _ D)
    rw [he] at hens
    exact hens rfl

/-- **Step lemma.**  Every step of the interleaving keeps the invariant.  The cases are the kinds of
    steps; the one with an argument is the commit, where the client's own promise gives the commit
    relation, and where each other client finds a state that agrees with the old one on its locks,
    because a lock has one holder. -/
theorem Ok.step (h : Ok Γ sys) {sys' : System S W L ι E α σ} (hstep : Step K sys sys') :
    Ok Γ sys' := by
  cases hstep with
  | @begin i c hi =>
    have hk : Γ.knows c sys.committed := by
      have hslot := h.slots i
      rwa [hi] at hslot
    exact h.move (SlotOk.begin h.inv hk) (by simp [Slot.held])
  | @answer i c next ws ls hi a =>
    have hslot := h.slots i
    rw [hi] at hslot
    refine h.move (SlotOk.answer h.inv hslot a) fun ℓ hℓ => Or.inl ?_
    rwa [hi]
  | @statement i c ls' ws' next ws ls V hi hV hfree =>
    subst hV
    have hslot := h.slots i
    rw [hi] at hslot
    refine h.move (SlotOk.statement h.inv hslot) fun ℓ hℓ => ?_
    rw [hi]
    simp only [Slot.held, locksOf_append, List.mem_append] at hℓ hfree ⊢
    rcases hℓ with (hℓ | hℓ) | hℓ | hℓ
    · exact Or.inl (Or.inl hℓ)
    · exact Or.inr fun j hj => hfree j hj ℓ (Or.inl hℓ)
    · exact Or.inl (Or.inr hℓ)
    · exact Or.inr fun j hj => hfree j hj ℓ (Or.inr hℓ)
  | @commit i c a ws ls c' hi hnext =>
    have hslot := h.slots i
    rw [hi] at hslot
    obtain ⟨hk, hp, -⟩ := hslot
    obtain ⟨held, seen, -, hrel⟩ :=
      hp sys.committed h.inv hk (earlier_refl _) (agreeOn_refl _ _)
    have hrel : Γ.rel c a sys.committed (applyAll ws sys.committed) := hrel
    refine ⟨Γ.inv_next h.inv hk hrel, .snoc h.serial hrel, ?_, ?_⟩
    · intro j k hjk ℓ
      show ℓ ∈ (Function.update sys.slots i (.idle c') j).held →
        ℓ ∉ (Function.update sys.slots i (.idle c') k).held
      by_cases hj : j = i
      · subst hj
        simp [Slot.held]
      · by_cases hk : k = i
        · subst hk
          simp [Slot.held]
        · rw [Function.update_of_ne hj, Function.update_of_ne hk]
          exact h.apart j k hjk ℓ
    · intro j
      show SlotOk Γ (applyAll ws sys.committed) (Function.update sys.slots i (.idle c') j)
      by_cases hj : j = i
      · subst hj
        rw [Function.update_self]
        exact Γ.knows_ok h.inv hk hrel hnext
      · rw [Function.update_of_ne hj]
        refine (h.slots j).other (fun hkj => Γ.knows_other h.inv hkj hk hrel)
          (earlier_applyAll ws _) ?_
        intro ℓ hℓ
        -- the locks of the writes belong to client `i`
        refine applyAll_agree (fun hws => h.apart j i hj ℓ hℓ ?_) _
        rw [hi]
        exact List.mem_append_right _ hws
  | @rollback i c e ws ls c' hi hnext =>
    have hslot := h.slots i
    rw [hi] at hslot
    exact h.move (Γ.knows_error h.inv hslot.1 hnext) (by simp [Slot.held])
  | @abort i c p ws ls c' hi hnext =>
    have hslot := h.slots i
    rw [hi] at hslot
    exact h.move (Γ.knows_error h.inv hslot.1 hnext) (by simp [Slot.held])

/-- **Run lemma.**  The invariant holds of every reachable state: by induction on the run, with the
    step lemma.  In particular the log is a serial run of the commit relations that leads to the
    committed state. -/
theorem Reachable.ok (Γ : Contract K D₀) (h : Reachable K D₀ sys) : Ok Γ sys := by
  induction h with
  | @init slots hslots =>
    refine ⟨Γ.inv_start, .nil, ?_, ?_⟩
    · intro i j _ ℓ hℓ
      obtain ⟨c, hc, -⟩ := hslots i
      simp [hc, Slot.held] at hℓ
    · intro i
      obtain ⟨c, hc, hstart⟩ := hslots i
      show SlotOk Γ D₀ (slots i)
      rw [hc]
      exact Γ.knows_start hstart
  | step _ hstep ih => exact ih.step hstep

/-- The committed state of every interleaving has the invariant. -/
theorem Reachable.inv (Γ : Contract K D₀) (h : Reachable K D₀ sys) : Γ.inv sys.committed :=
  (h.ok Γ).inv

/-- No session is about to report an exception its contract rules out, in any state that can be
    reached. -/
theorem Reachable.not_bad (Γ : Contract K D₀) (h : Reachable K D₀ sys) {i : Nat} {c : σ} {e : E}
    {ws : List W} {ls : List L} (hi : sys.slots i = .running c (.raise e) ws ls) : ¬Γ.bad c e := by
  have hslot := (h.ok Γ).slots i
  rw [hi] at hslot
  exact hslot.2.2 e rfl

/-! ## A call on its own -/

omit Γ in
/-- While every other client is idle, a program runs to its end as it does alone.  By induction on
    the program: no lock is held by another client, so each statement may be executed at once. -/
theorem Reachable.runs {i : Nat} {c c' : σ} {a : α} {D' : S} (p : Prog S W L ι E α)
    (ws : List W) (ls : List L) {sys : System S W L ι E α σ} (h : Reachable K D₀ sys)
    (hi : sys.slots i = .running c p ws ls) (hidle : ∀ j, j ≠ i → (sys.slots j).held = [])
    (hp : p.runs (applyAll ws sys.committed) (.ok (a, D'))) (hnext : K.next c (.ok a) c') :
    Reachable K D₀ ⟨D', Function.update sys.slots i (.idle c'), sys.log ++ [(c, a)]⟩ := by
  induction p generalizing ws ls sys with
  | done b =>
    simp only [Prog.runs, Except.ok.injEq, Prod.mk.injEq] at hp
    obtain ⟨rfl, rfl⟩ := hp
    exact h.step (.commit hi hnext)
  | raise e => cases hp
  | ask next ih =>
    obtain ⟨b, hp⟩ := hp
    have hstep := ih b ws ls (h.step (.answer hi b)) (slots_move_self ..) (by
      intro j hj
      rw [slots_move_of_ne sys _ hj]
      exact hidle j hj) hp
    simpa [move] using hstep
  | stmt ls' ws' next ih =>
    have hstep := ih (applyAll ws sys.committed) (ws ++ ws' (applyAll ws sys.committed))
      (ls ++ ls' (applyAll ws sys.committed))
      (h.step (.statement hi rfl fun j hj ℓ _ => by simp [hidle j hj]))
      (slots_move_self ..) (by
        intro j hj
        rw [slots_move_of_ne sys _ hj]
        exact hidle j hj) (by rw [applyAll_append]; exact hp)
    simpa [move] using hstep

omit Γ in
/-- A run that ends in an exception leads to a reachable state as well, in which nothing is
    committed. -/
theorem Reachable.runs_error {i : Nat} {c c' : σ} {e : E} (p : Prog S W L ι E α)
    (ws : List W) (ls : List L) {sys : System S W L ι E α σ} (h : Reachable K D₀ sys)
    (hi : sys.slots i = .running c p ws ls) (hidle : ∀ j, j ≠ i → (sys.slots j).held = [])
    (hp : p.runs (applyAll ws sys.committed) (.error e)) (hnext : K.next c (.error e) c') :
    Reachable K D₀ (sys.move i (.idle c')) := by
  induction p generalizing ws ls sys with
  | done b => exact nomatch hp
  | raise e' =>
    obtain rfl : e = e' := Except.error.inj hp
    exact h.step (.rollback hi hnext)
  | ask next ih =>
    obtain ⟨b, hp⟩ := hp
    have hstep := ih b ws ls (h.step (.answer hi b)) (slots_move_self ..) (by
      intro j hj
      rw [slots_move_of_ne sys _ hj]
      exact hidle j hj) hp
    simpa [move] using hstep
  | stmt ls' ws' next ih =>
    have hstep := ih (applyAll ws sys.committed) (ws ++ ws' (applyAll ws sys.committed))
      (ls ++ ls' (applyAll ws sys.committed))
      (h.step (.statement hi rfl fun j hj ℓ _ => by simp [hidle j hj]))
      (slots_move_self ..) (by
        intro j hj
        rw [slots_move_of_ne sys _ hj]
        exact hidle j hj) (by rw [applyAll_append]; exact hp)
    simpa [move] using hstep

/-- A call made while every client is idle is an interleaving. -/
theorem Reachable.call {i : Nat} {c c' : σ} {a : α} {D' : S} {sys : System S W L ι E α σ}
    (h : Reachable K D₀ sys) (hi : sys.slots i = .idle c)
    (hidle : ∀ j, (sys.slots j).held = [])
    (hp : (K.call c).runs sys.committed (.ok (a, D'))) (hnext : K.next c (.ok a) c') :
    Reachable K D₀ ⟨D', Function.update sys.slots i (.idle c'), sys.log ++ [(c, a)]⟩ := by
  have hrun := Reachable.runs (K.call c) [] [] (h.step (.begin hi)) (slots_move_self ..)
    (fun j hj => by
      rw [slots_move_of_ne sys _ hj]
      exact hidle j) hp hnext
  simpa [move] using hrun

/-- A call that raises, made while every client is idle. -/
theorem Reachable.call_error {i : Nat} {c c' : σ} {e : E} {sys : System S W L ι E α σ}
    (h : Reachable K D₀ sys) (hi : sys.slots i = .idle c)
    (hidle : ∀ j, (sys.slots j).held = [])
    (hp : (K.call c).runs sys.committed (.error e)) (hnext : K.next c (.error e) c') :
    Reachable K D₀ (sys.move i (.idle c')) := by
  have hrun := Reachable.runs_error (K.call c) [] [] (h.step (.begin hi)) (slots_move_self ..)
    (fun j hj => by
      rw [slots_move_of_ne sys _ hj]
      exact hidle j) hp hnext
  simpa [move] using hrun

section Sequential

variable {call : σ → Prog S W L ι E α} {fault : E}

/-- A call of client 0 while all are idle; it then turns to the call `c'`. -/
theorem Reachable.afterCall (o : Nat → ι) (c c' : σ) {sys : System S W L ι E α σ}
    (h : Reachable (Client.ofCalls call fault) D₀ sys) (hi : sys.slots 0 = .idle c)
    (hidle : ∀ j, (sys.slots j).held = []) :
    ∃ sys', Reachable (Client.ofCalls call fault) D₀ sys' ∧
      sys'.committed = Relational.afterCall call o c sys.committed ∧ sys'.slots 0 = .idle c' ∧
      ∀ j, (sys'.slots j).held = [] := by
  have hidle' : ∀ j, (Function.update sys.slots 0 (.idle c') j).held = [] := by
    intro j
    by_cases hj : j = 0
    · subst hj
      rw [Function.update_self]
      rfl
    · rw [Function.update_of_ne hj]
      exact hidle j
  have hrun := Prog.runs_eval o 0 (call c) sys.committed
  unfold Relational.afterCall
  cases heval : (call c).eval o 0 sys.committed with
  | ok r =>
    obtain ⟨a, D'⟩ := r
    rw [heval] at hrun
    refine ⟨_, h.call hi hidle hrun trivial, rfl, ?_, hidle'⟩
    exact slots_move_self sys 0 (.idle c')
  | error e =>
    rw [heval] at hrun
    exact ⟨_, h.call_error hi hidle hrun trivial, rfl, slots_move_self .., hidle'⟩

/-- Several calls of client 0, while all others stay idle.  By induction on the calls; each takes
    the client to the state from which it makes the next. -/
theorem Reachable.afterCalls (o : Nat → Nat → ι) (k : Nat) (c : σ) (cs : List σ)
    {sys : System S W L ι E α σ} (h : Reachable (Client.ofCalls call fault) D₀ sys)
    (hi : sys.slots 0 = .idle c) (hidle : ∀ j, (sys.slots j).held = []) :
    ∃ sys', Reachable (Client.ofCalls call fault) D₀ sys' ∧
      sys'.committed = Relational.afterCalls call o k (c :: cs) sys.committed := by
  induction cs generalizing k c sys with
  | nil =>
    obtain ⟨sys', h', hD, -⟩ := h.afterCall (o k) c c hi hidle
    exact ⟨sys', h', hD⟩
  | cons c' cs ih =>
    obtain ⟨sys', h', hD, hi', hidle'⟩ := h.afterCall (o k) c c' hi hidle
    obtain ⟨sys'', h'', hD'⟩ := ih (k + 1) c' h' hi' hidle'
    refine ⟨sys'', h'', ?_⟩
    rw [hD', hD]
    rfl

/-- **Calls made one after the other are an interleaving.** -/
theorem Reachable.sequential (o : Nat → Nat → ι) (c : σ) (cs : List σ) (D₀ : S) :
    ∃ sys, Reachable (Client.ofCalls call fault) D₀ sys ∧
      sys.committed = Relational.afterCalls call o 0 (c :: cs) D₀ :=
  Reachable.afterCalls o 0 c cs (.init fun _ => ⟨c, rfl, trivial⟩) rfl fun _ => rfl

end Sequential

end System

end Relational
