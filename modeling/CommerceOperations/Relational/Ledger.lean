/-
  Accounts and postings.

  A table of accounts carries a balance for each account; a table of postings explains it: the
  balance is the sum of the amounts posted to the account (`Explains`).  The two tables are
  written by separate statements, so each rule is about a pair of writes:

  * `insert_account` — a new account starts at zero;
  * `post`           — the balance moves by the amount of a new posting;
  * `update`         — an account changes, its balance does not;
  * `settle`         — the amount of one posting changes, and the balance with it.
-/
import CommerceOperations.Relational.Table
import Mathlib.Algebra.Order.BigOperators.Group.List
import Mathlib.Algebra.Order.Group.Int

namespace Relational

open Row Table

variable {ρ ρ' κ κ' υ υ' : Type} [Row ρ κ υ] [Row ρ' κ' υ']

namespace Table

/-- Two functions that differ at one row of a list only have sums that differ by what they make of
    it.  By induction on the rows; distinctness says that the row is not met a second time. -/
theorem sum_map_of_eq_off {r : ρ} {f g : ρ → Int} :
    ∀ rows : List ρ, rows.Pairwise Distinct → r ∈ rows → (∀ s ∈ rows, s ≠ r → g s = f s) →
      (rows.map g).sum = (rows.map f).sum - f r + g r
  | [], _, hr, _ => nomatch hr
  | s :: rows, hd, hr, h => by
    obtain ⟨hs, hd⟩ := List.pairwise_cons.mp hd
    have htail : ∀ s' ∈ rows, s' ≠ r → g s' = f s' := fun s' hs' =>
      h s' (List.mem_cons_of_mem _ hs')
    simp only [List.map_cons, List.sum_cons]
    rcases List.mem_cons.mp hr with rfl | hr
    · have hrest : rows.map g = rows.map f := by
        refine List.map_congr_left fun s' hs' => htail s' hs' ?_
        rintro rfl
        exact (hs s' hs').1 rfl
      rw [hrest]
      omega
    · have hne : s ≠ r := by
        rintro rfl
        exact (hs s hr).1 rfl
      have hhead := h s List.mem_cons_self hne
      have hrest := sum_map_of_eq_off rows hd hr htail
      omega

/-- If `f` and `g` differ at one row only, their sums differ by what they make of it. -/
theorem sum_of_eq_off (t : Table ρ) {r : ρ} (hr : r ∈ t) {f g : ρ → Int}
    (h : ∀ s ∈ t, s ≠ r → g s = f s) : t.sum g = t.sum f - f r + g r :=
  sum_map_of_eq_off t.rows t.distinct hr h

/-- A term is at most the sum when no term is negative. -/
theorem le_sum_of_mem (t : Table ρ) {r : ρ} (hr : r ∈ t) {f : ρ → Int}
    (h : ∀ s ∈ t, 0 ≤ f s) : f r ≤ t.sum f :=
  List.single_le_sum (by simpa [mem_rows] using h) _ (List.mem_map_of_mem hr)

end Table

/-- The balance of every account is the sum of the amounts posted to it, and every posting is to an
    account.  The amount of a posting is a function and no column, since a posting may count for one
    balance and not for another. -/
structure Explains [DecidableEq κ] (accounts : Table ρ) (postings : Table ρ') (account : ρ' → κ)
    (balance : ρ → Int) (amount : ρ' → Int) : Prop where
  /-- Each balance is the sum of its postings. -/
  balance_eq : ∀ a ∈ accounts,
    balance a = postings.sum fun p => if account p = key a then amount p else 0
  /-- Each posting is to an account on record. -/
  account_mem : ∀ p ∈ postings, ∃ a ∈ accounts, key a = account p

namespace Explains

variable [DecidableEq κ] [DecidableEq υ] [DecidableEq κ'] [DecidableEq υ']
variable {accounts : Table ρ} {postings : Table ρ'} {account : ρ' → κ} {balance : ρ → Int}
variable {amount amount' : ρ' → Int}

omit [DecidableEq κ'] [DecidableEq υ'] in
/-- A new account starts at zero: no posting can be to it yet, because every posting is to an
    account there already was. -/
theorem insert_account (h : Explains accounts postings account balance amount) {row : ρ}
    (hrow : accounts.conflicts row = false) (hzero : balance row = 0) :
    Explains (accounts.insert row) postings account balance amount := by
  constructor
  · intro a ha
    rcases (mem_insert hrow).mp ha with ha | rfl
    · exact h.balance_eq a ha
    · -- no posting is to an account that was not there
      rw [hzero, sum_congr (g := fun _ => 0)]
      · simp [sum]
      · intro p hp
        obtain ⟨b, hb, hk⟩ := h.account_mem p hp
        have hne := (conflicts_eq_false.mp hrow b hb).1
        rw [if_neg]
        rw [← hk]
        exact hne
  · intro p hp
    obtain ⟨a, ha, hk⟩ := h.account_mem p hp
    exact ⟨a, (mem_insert hrow).mpr (Or.inl ha), hk⟩

section Update

variable {old row : ρ} (hold : accounts.get (key row) = some old)
  (hs : accounts.succeeds old row = true) (hc : accounts.clashes old row = false)

include hold hs hc

omit hold [Row ρ' κ' υ'] [DecidableEq κ'] [DecidableEq υ'] in
/-- An update leaves an account under each key there was one. -/
private theorem mem_of_update {k : κ} (h : ∃ a ∈ accounts, key a = k) :
    ∃ a ∈ accounts.update old row, key a = k := by
  obtain ⟨a, ha, rfl⟩ := h
  by_cases hk : key a = key row
  · exact ⟨row, (mem_update hs hc).mpr (Or.inl rfl), hk.symm⟩
  · exact ⟨a, (mem_update hs hc).mpr (Or.inr ⟨ha, hk⟩), rfl⟩

omit [DecidableEq κ'] [DecidableEq υ'] in
/-- An account changes, its balance does not.  This is the rule for changes of a price, a threshold
    or a cost basis. -/
theorem update (h : Explains accounts postings account balance amount)
    (hbalance : balance row = balance old) :
    Explains (accounts.update old row) postings account balance amount := by
  constructor
  · intro a ha
    rcases (mem_update hs hc).mp ha with rfl | ⟨ha, -⟩
    · rw [hbalance, h.balance_eq old (mem_of_get hold), key_of_get hold]
    · exact h.balance_eq a ha
  · intro p hp
    exact mem_of_update hs hc (h.account_mem p hp)

/-- The balance of an account moves by the amount of a new posting.  The two statements are one
    rule, as no state between them has to be explained. -/
theorem post (h : Explains accounts postings account balance amount) {p : ρ'}
    (hp : postings.conflicts p = false) (haccount : account p = key row)
    (hbalance : balance row = balance old + amount p) :
    Explains (accounts.update old row) (postings.insert p) account balance amount := by
  constructor
  · intro a ha
    rw [sum_insert hp]
    rcases (mem_update hs hc).mp ha with rfl | ⟨ha, hne⟩
    · rw [if_pos haccount, hbalance, h.balance_eq old (mem_of_get hold), key_of_get hold]
    · rw [if_neg (fun hk => hne (hk.symm.trans haccount)), h.balance_eq a ha]
      omega
  · intro q hq
    rcases (mem_insert hp).mp hq with hq | rfl
    · exact mem_of_update hs hc (h.account_mem q hq)
    · exact ⟨row, (mem_update hs hc).mpr (Or.inl rfl), haccount.symm⟩

omit [DecidableEq κ'] [DecidableEq υ'] in
/-- The amount of one posting changes, and the balance of its account with it.  No posting is ever
    rewritten; what changes is what an amount means, as when the order that a reservation is for
    moves on. -/
theorem settle (h : Explains accounts postings account balance amount) {p : ρ'}
    (hp : p ∈ postings) (haccount : account p = key row)
    (hoff : ∀ q ∈ postings, q ≠ p → amount' q = amount q)
    (hbalance : balance row = balance old - amount p + amount' p) :
    Explains (accounts.update old row) postings account balance amount' := by
  constructor
  · intro a ha
    rw [sum_of_eq_off postings hp (f := fun q => if account q = key a then amount q else 0)
      (fun q hq hne => by simp only [hoff q hq hne])]
    rcases (mem_update hs hc).mp ha with rfl | ⟨ha, hne⟩
    · rw [if_pos haccount, if_pos haccount, hbalance, h.balance_eq old (mem_of_get hold),
        key_of_get hold]
    · have hk : ¬account p = key a := fun hk => hne (hk.symm.trans haccount)
      rw [if_neg hk, if_neg hk, h.balance_eq a ha]
      omega
  · intro q hq
    exact mem_of_update hs hc (h.account_mem q hq)

end Update

omit [DecidableEq υ] [DecidableEq κ'] [DecidableEq υ'] in
/-- Only the amounts of the postings there are count. -/
theorem congr (h : Explains accounts postings account balance amount)
    (heq : ∀ p ∈ postings, amount' p = amount p) :
    Explains accounts postings account balance amount' := by
  constructor
  · intro a ha
    rw [h.balance_eq a ha]
    refine sum_congr postings fun p hp => ?_
    rw [heq p hp]
  · exact h.account_mem

end Explains

end Relational
