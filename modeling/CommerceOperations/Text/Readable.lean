/-
  Texts that can be read back.

  A value is written as a list of symbols.  `ReadsAt` says of one value that whoever sees its text,
  with anything behind that may stand behind it, can tell the value and where its text ends.  The
  texts of a data format are built from such pieces: digits, fixed widths, enclosed lists.  From
  this, one text has one value.

  Parts joined by a separator are not read back where a part may hold the separator: what the text
  tells are the `pieces` between the separators.

  Everything here is over an arbitrary alphabet, down to the digits.
-/
import Mathlib.Algebra.Group.Nat.Defs
import Mathlib.Data.List.Basic

namespace Text

variable {α β κ : Type}

/-! ## Reading a value -/

/-- The text of `a`, followed by something in `next`, is the text of no other value of `among`, and
    what follows it begins where it ends.  Injectivity of `write` alone would not do for a part of a
    longer text: the text of 1 is the beginning of that of 12, and only what may stand behind a
    number tells the two apart. -/
def ReadsAt (write : α → List κ) (among : α → Prop) (next : List κ → Prop) (a : α) : Prop :=
  ∀ ⦃b s t⦄, among b → next s → next t → write a ++ s = write b ++ t → a = b ∧ s = t

/-- A value is read among fewer values, and with less that may stand behind it. -/
theorem ReadsAt.mono {write : α → List κ} {among among' : α → Prop} {next next' : List κ → Prop}
    {a : α} (h : ReadsAt write among next a) (hamong : ∀ b, among' b → among b)
    (hnext : ∀ s, next' s → next s) : ReadsAt write among' next' a := by
  intro b s t hb hs ht heq
  exact h (hamong b hb) (hnext s hs) (hnext t ht) heq

/-- **Reading a whole text**: with nothing behind it, a text has one value. -/
theorem ReadsAt.eq {write : α → List κ} {among : α → Prop} {next : List κ → Prop} {a b : α}
    (h : ReadsAt write among next a) (hnil : next []) (hb : among b) (heq : write a = write b) :
    a = b :=
  (h hb hnil hnil (congrArg (· ++ []) heq)).1

/-! ## Lists between brackets -/

/-- The items of a list, with `sep` between them and `close` behind them.  The flag says that no
    item has been written yet, so that no separator is due. -/
def enclosed (write : α → List κ) (sep close : κ) : Bool → List α → List κ
  | _, [] => [close]
  | first, a :: l =>
    (if first then [] else [sep]) ++ write a ++ enclosed write sep close false l

/-- What stands behind an item: a separator, or the bracket. -/
def AfterItem (sep close : κ) (s : List κ) : Prop := s.head? = some sep ∨ s.head? = some close

/-- Behind an item the rest of the list goes on with one of the two. -/
theorem afterItem_enclosed {write : α → List κ} {sep close : κ} (l : List α) (s : List κ) :
    AfterItem sep close (enclosed write sep close false l ++ s) := by
  cases l with
  | nil => exact Or.inr rfl
  | cons a l => exact Or.inl rfl

/-- **A list between brackets is read** when its items are, and none begins like the bracket.  By
    induction on the list: the first symbol says whether there is another item, and if there is, it
    is read off and the rest is a shorter list. -/
theorem readsAt_enclosed {write : α → List κ} {among : α → Prop} {sep close : κ} {l : List α}
    (hitem : ∀ a ∈ l, ReadsAt write among (AfterItem sep close) a) (hall : ∀ a ∈ l, among a)
    (hstart : ∀ a s, among a → (write a ++ s).head? ≠ some close) (hne : sep ≠ close)
    (first : Bool) :
    ReadsAt (enclosed write sep close first) (fun l => ∀ a ∈ l, among a) (fun _ => True) l := by
  -- the bracket at the end of one list cannot stand where the other goes on
  have hopen : ∀ (first : Bool) (a : α) (u : List κ), among a →
      ((if first then [] else [sep]) ++ write a ++ u).head? ≠ some close := by
    intro first a u ha
    cases first with
    | true => exact hstart a u ha
    | false => simpa using hne
  induction l generalizing first with
  | nil =>
    intro l' s t hl' _ _ heq
    cases l' with
    | nil => exact ⟨rfl, List.append_cancel_left heq⟩
    | cons b l' =>
      have hhead := congrArg List.head? heq
      simp only [enclosed, List.append_assoc] at hhead
      have := hopen first b (enclosed write sep close false l' ++ t) (hl' b List.mem_cons_self)
      rw [List.append_assoc] at this
      exact absurd hhead.symm this
  | cons a l ih =>
    intro l' s t hl' _ _ heq
    cases l' with
    | nil =>
      have hhead := congrArg List.head? heq
      simp only [enclosed, List.append_assoc] at hhead
      have := hopen first a (enclosed write sep close false l ++ s) (hall a List.mem_cons_self)
      rw [List.append_assoc] at this
      exact absurd hhead this
    | cons b l' =>
      simp only [enclosed, List.append_assoc, List.append_cancel_left_eq] at heq
      obtain ⟨rfl, hrest⟩ := hitem a List.mem_cons_self (hl' b List.mem_cons_self)
        (afterItem_enclosed l s) (afterItem_enclosed l' t) heq
      have hmem : ∀ x ∈ l, x ∈ a :: l := fun x hx => List.mem_cons_of_mem a hx
      obtain ⟨rfl, rfl⟩ := ih (fun x hx => hitem x (hmem x hx)) (fun x hx => hall x (hmem x hx))
        false (fun x hx => hl' x (List.mem_cons_of_mem a hx)) trivial trivial hrest
      exact ⟨rfl, rfl⟩

/-! ## Parts joined by a separator -/

section Joined

variable [BEq κ] [LawfulBEq κ]

/-- The parts, cut at the separators in them.  A part without a separator is one piece; a part with
    a separator in it looks like two. -/
def pieces (sep : κ) (parts : List (List κ)) : List (List κ) := parts.flatMap (List.splitOn sep)

/-- What is joined and split again is cut into pieces.  Splitting cannot tell the separators that
    were put between the parts from those that were in them. -/
theorem splitOn_intercalate (sep : κ) {parts : List (List κ)} (h : parts ≠ []) :
    ([sep].intercalate parts).splitOn sep = pieces sep parts := by
  induction parts with
  | nil => exact absurd rfl h
  | cons a parts ih =>
    cases parts with
    | nil => simp [pieces]
    | cons b parts =>
      have hjoin : [sep].intercalate (a :: b :: parts) =
          a ++ sep :: [sep].intercalate (b :: parts) := by
        simp [List.intercalate]
      rw [hjoin, List.splitOn_append_cons_self, ih (List.cons_ne_nil b parts)]
      rfl

/-- **Joined parts have one text** exactly when they have the same pieces.  So an identity built by
    joining its fields is unique only as far as its pieces are. -/
theorem intercalate_inj {sep : κ} {parts parts' : List (List κ)} (h : parts ≠ [])
    (h' : parts' ≠ []) :
    [sep].intercalate parts = [sep].intercalate parts' ↔ pieces sep parts = pieces sep parts' := by
  rw [← splitOn_intercalate sep h, ← splitOn_intercalate sep h']
  constructor
  · intro heq
    rw [heq]
  · intro heq
    have := congrArg [sep].intercalate heq
    rwa [List.intercalate_splitOn, List.intercalate_splitOn] at this

end Joined

/-! ## Runs of symbols of one class -/

/-- The text does not begin with a symbol of the class. -/
def StopsAt (p : κ → Bool) (s : List κ) : Prop := ∀ c ∈ s.head?, p c = false

/-- The empty text begins with no symbol. -/
theorem stopsAt_nil {p : κ → Bool} : StopsAt p [] := nofun

/-- A text that begins with another symbol does not. -/
theorem stopsAt_cons {p : κ → Bool} {c : κ} {s : List κ} (h : p c = false) :
    StopsAt p (c :: s) := by
  intro d hd
  cases hd
  exact h

/-- Of a run of symbols and something that does not go on with them, the symbols are what is taken.
    -/
theorem takeWhile_append_of_stopsAt {p : κ → Bool} {l s : List κ} (hl : ∀ c ∈ l, p c = true)
    (hs : StopsAt p s) : (l ++ s).takeWhile p = l := by
  rw [List.takeWhile_append_of_pos hl]
  cases s with
  | nil => simp
  | cons c s => simp [hs c rfl]

/-- A run of symbols of a class ends where the class does, so a text can be cut there in one way
    only. -/
theorem append_eq_of_stopsAt {p : κ → Bool} {l l' s t : List κ} (hl : ∀ c ∈ l, p c = true)
    (hl' : ∀ c ∈ l', p c = true) (hs : StopsAt p s) (ht : StopsAt p t)
    (heq : l ++ s = l' ++ t) : l = l' ∧ s = t := by
  have hrun : l = l' := by
    rw [← takeWhile_append_of_stopsAt hl hs, heq, takeWhile_append_of_stopsAt hl' ht]
  subst hrun
  exact ⟨rfl, List.append_cancel_left heq⟩

/-! ## Digits -/

/-- The digits of a number, in decimal, without a zero in front. -/
def digits (n : Nat) : List Char := n.repr.toList

/-- The decimal digits of a number are digits. -/
theorem digits_isDigit {n : Nat} : ∀ c ∈ digits n, c.isDigit = true := by
  intro c hc
  rw [digits, Nat.toList_repr] at hc
  exact Nat.isDigit_of_mem_toDigits (by decide) (by decide) hc

/-- A number has at least one decimal digit. -/
theorem digits_ne_nil {n : Nat} : digits n ≠ [] := by
  intro h
  have hpos : 0 < (Nat.toDigits 10 n).length := Nat.length_toDigits_pos
  rw [digits, Nat.toList_repr] at h
  rw [h] at hpos
  exact absurd hpos (by decide)

/-- The number that digits write, with or without zeros in front. -/
def number (l : List Char) : Nat := Nat.ofDigitChars 10 l 0

/-- The digits of a number write the number. -/
theorem number_digits (n : Nat) : number (digits n) = n := by
  rw [number, digits, Nat.toList_repr]
  exact Nat.ofDigitChars_ten_toDigits

/-- Zeros in front do not count. -/
theorem number_zeros_append (k : Nat) (l : List Char) :
    number (List.replicate k '0' ++ l) = number l := by
  simp [number, Nat.ofDigitChars_append]

/-- Numbers with the same digits are the same. -/
theorem digits_injective {n m : Nat} (h : digits n = digits m) : n = m := by
  rw [← number_digits n, h, number_digits m]

/-- The digits, with zeros in front up to a width. -/
def padded (width n : Nat) : List Char :=
  List.replicate (width - (digits n).length) '0' ++ digits n

/-- The padded digits of a number write it as well. -/
theorem number_padded (width n : Nat) : number (padded width n) = n := by
  rw [padded, number_zeros_append, number_digits]

/-- A number that has room in the width is written with just that many digits. -/
theorem length_padded {width n : Nat} (hwidth : 0 < width) (h : n < 10 ^ width) :
    (padded width n).length = width := by
  have hlen : (digits n).length ≤ width := by
    rw [digits, String.length_toList]
    exact (Nat.length_repr_le_iff hwidth).mpr h
  simp only [padded, List.length_append, List.length_replicate]
  omega

/-- **Numbers of a fixed width are read** whatever stands behind them: the width says where the
    number ends.  This is how the parts of a date follow each other, with digits on both sides. -/
theorem readsAt_padded {width n : Nat} (hwidth : 0 < width) (h : n < 10 ^ width) :
    ReadsAt (padded width) (· < 10 ^ width) (fun _ => True) n := by
  intro m s t hm _ _ heq
  obtain ⟨htext, hrest⟩ := List.append_inj heq
    (by rw [length_padded hwidth h, length_padded hwidth hm])
  refine ⟨?_, hrest⟩
  rw [← number_padded width n, htext, number_padded width m]

end Text
