/-
  Canonical texts: what `json.dumps(value, sort_keys=True, separators=(",", ":"))` gives, and the
  texts of dates, times and amounts inside it.

  `Json.canonical` is the value with the keys of every object in order, and with the text of every
  amount in its place.  The text of a value is that of its canonical form, and canonical forms with
  the same text are equal, so that two values have one text exactly when they have one canonical
  form (`dumps_inj`).
-/
import CommerceOperations.Persistence.Enums
import CommerceOperations.Text.Readable
import Mathlib.Data.List.Sort

namespace CommerceOperations

open Text

/-! ## Dates and times -/

/-- `date.isoformat()`: year, month and day at fixed widths. -/
def Date.chars (d : Date) : List Char :=
  padded 4 d.year ++ '-' :: padded 2 d.month ++ '-' :: padded 2 d.day

/-- The ISO format of a date, as a string. -/
def Date.text (d : Date) : String := String.ofList d.chars

/-- The microseconds, left out when there are none. -/
def DateTime.fraction (t : DateTime) : List Char :=
  if t.microsecond = 0 then [] else '.' :: padded 6 t.microsecond

/-- An offset from UTC, in minutes: `Z` for none, else a sign, hours and minutes. -/
def offsetChars (o : Int) : List Char :=
  if o = 0 then ['Z']
  else (if o < 0 then '-' else '+') :: padded 2 (o.natAbs / 60) ++ ':' :: padded 2 (o.natAbs % 60)

/-- The offset, where there is one. -/
def DateTime.zone (t : DateTime) : List Char := (t.offset.map offsetChars).getD []

/-- The text of a timestamp in a JSON dump.  Two timestamps at one point in time, written at
    different offsets, have different texts. -/
def DateTime.text (t : DateTime) : String :=
  String.ofList (t.date.chars ++ 'T' :: padded 2 t.hour ++ ':' :: padded 2 t.minute ++
    ':' :: padded 2 t.second ++ t.fraction ++ t.zone)

/-! ## Numbers -/

/-- `str(n)`: the digits, with a sign if there is one. -/
def intChars (n : Int) : List Char := (if n < 0 then ['-'] else []) ++ digits n.natAbs

/-! ## Strings -/

/-- The escapes of one letter that JSON has. -/
def shortEscape (c : Char) : Option Char :=
  if c = '"' then some '"'
  else if c = '\\' then some '\\'
  else if c = '\n' then some 'n'
  else if c = '\r' then some 'r'
  else if c = '\t' then some 't'
  else if c = '\x08' then some 'b'
  else if c = '\x0c' then some 'f'
  else none

/-- `\uXXXX`, the escape of a character that JSON does not print. -/
def unicodeEscape (n : Nat) : List Char :=
  ['\\', 'u', Nat.digitChar (n / 4096 % 16), Nat.digitChar (n / 256 % 16),
    Nat.digitChar (n / 16 % 16), Nat.digitChar (n % 16)]

/-- A character of a JSON string: itself when it is printable ASCII, else escaped, with a surrogate
    pair for a character of the higher planes. -/
def escape (c : Char) : List Char :=
  match shortEscape c with
  | some e => ['\\', e]
  | none =>
    if ' ' ≤ c ∧ c ≤ '~' then [c]
    else if c.toNat < 65536 then unicodeEscape c.toNat
    else unicodeEscape (55296 + (c.toNat - 65536) / 1024) ++
      unicodeEscape (56320 + (c.toNat - 65536) % 1024)

/-- The escaped characters and the quote behind them.  The quote is part of the recursion, so that a
    string ends where its text says. -/
def escaped : List Char → List Char
  | [] => ['"']
  | c :: l => escape c ++ escaped l

/-- A JSON string, in quotation marks and with its escapes. -/
def quoted (s : String) : List Char := '"' :: escaped s.toList

/-! ## Values -/

namespace Json

mutual

/-- The value with the keys of every object in order, and with the text of each amount in its place:
    `json.dumps` is given the text of a Decimal and no number. -/
def canonical : Json → Json
  | null => null
  | bool b => bool b
  | int n => int n
  | float x => float x
  | decimal d => text d.str
  | text s => text s
  | array items => array (canonicalItems items)
  | object fields => object ((canonicalFields fields).insertionSort fun f g => f.1 ≤ g.1)

/-- The items of an array, each in its canonical form. -/
def canonicalItems : List Json → List Json
  | [] => []
  | a :: l => canonical a :: canonicalItems l

/-- The fields of an object, each in its canonical form. -/
def canonicalFields : List (String × Json) → List (String × Json)
  | [] => []
  | (k, a) :: l => (k, canonical a) :: canonicalFields l

end

mutual

/-- The text of a value as it stands, without a blank between its parts. -/
def render : Json → List Char
  | null => ['n', 'u', 'l', 'l']
  | bool b => if b then ['t', 'r', 'u', 'e'] else ['f', 'a', 'l', 's', 'e']
  | int n => intChars n
  | float x => x.text.toList
  | decimal d => quoted d.str
  | text s => quoted s
  | array items => '[' :: renderItems true items
  | object fields => '\x7b' :: renderFields true fields

/-- The items of an array behind each other, and the bracket. -/
def renderItems : Bool → List Json → List Char
  | _, [] => [']']
  | first, a :: l => (if first then [] else [',']) ++ render a ++ renderItems false l

/-- The fields of an object behind each other, and the brace. -/
def renderFields : Bool → List (String × Json) → List Char
  | _, [] => ['\x7d']
  | first, (k, a) :: l =>
    (if first then [] else [',']) ++ (quoted k ++ ':' :: render a) ++ renderFields false l

end

/-- `json.dumps(value, sort_keys=True, separators=(",", ":"))`.  The digests of requests, approvals
    and orders are taken of this text. -/
def dumps (j : Json) : String := String.ofList (render j.canonical)

example : dumps (.object [("b", .array [.int (-2), .null]), ("a", .text "x\n\"é")]) =
    "\x7b\"a\":\"x\\n\\\"\\u00e9\",\"b\":[-2,null]\x7d" := by decide

end Json

/-! ## Reading them back -/

/-- The months of a year follow each other: each begins no earlier than the one before has ended. -/
theorem daysBeforeMonth_add_le (leap : Bool) {m m' : Nat} (h : m < m') (hm : 1 ≤ m)
    (hm' : m' ≤ 12) :
    daysBeforeMonth leap m + daysInMonth leap m ≤ daysBeforeMonth leap m' := by
  have hall : ∀ leap : Bool, ∀ m m' : Fin 13, m < m' → 1 ≤ m.val →
      daysBeforeMonth leap m + daysInMonth leap m ≤ daysBeforeMonth leap m' := by decide
  exact hall leap ⟨m, by omega⟩ ⟨m', by omega⟩ h hm

/-- A month ends within its year. -/
theorem daysBeforeMonth_le_year (leap : Bool) {m : Nat} (hm : 1 ≤ m) (hm' : m ≤ 12) :
    daysBeforeMonth leap m + daysInMonth leap m ≤ 365 + leap.toNat := by
  have hall : ∀ leap : Bool, ∀ m : Fin 13, 1 ≤ m.val →
      daysBeforeMonth leap m + daysInMonth leap m ≤ 365 + leap.toNat := by decide
  exact hall leap ⟨m, by omega⟩ hm

/-- A year begins when the year before has ended, a leap year with its extra day.  The count of the
    leap years up to a year is a matter of three divisions, and each of the cases says which of them
    move on. -/
theorem daysBeforeYear_succ (y : Nat) :
    daysBeforeYear (y + 2) = daysBeforeYear (y + 1) + 365 + (isLeap (y + 1)).toNat := by
  -- a quotient grows with the multiples of its divisor
  have hfour : (y + 1) / 4 = y / 4 + if (y + 1) % 4 = 0 then 1 else 0 := by split <;> omega
  have hhundred : (y + 1) / 100 = y / 100 + if (y + 1) % 100 = 0 then 1 else 0 := by
    split <;> omega
  have hfourHundred : (y + 1) / 400 = y / 400 + if (y + 1) % 400 = 0 then 1 else 0 := by
    split <;> omega
  have hcentury : y / 100 ≤ y / 4 := by omega
  unfold daysBeforeYear isLeap
  simp only [Nat.add_sub_cancel, show y + 2 - 1 = y + 1 from rfl]
  rw [hfour, hhundred, hfourHundred]
  by_cases h₄ : (y + 1) % 4 = 0
  · by_cases h₁ : (y + 1) % 100 = 0
    · by_cases h₂ : (y + 1) % 400 = 0
      · simp only [h₄, h₁, h₂, if_true, ne_eq, not_true, false_or, and_self, decide_true,
          Bool.toNat_true]
        omega
      · simp only [h₄, h₁, h₂, if_true, if_false, ne_eq, not_true, false_or, and_false,
          decide_false, Bool.toNat_false]
        omega
    · have h₂ : (y + 1) % 400 ≠ 0 := by omega
      simp only [h₄, h₁, h₂, if_true, if_false, ne_eq, not_false_iff, true_or, and_self,
        decide_true, Bool.toNat_true]
      omega
  · have h₁ : (y + 1) % 100 ≠ 0 := by omega
    have h₂ : (y + 1) % 400 ≠ 0 := by omega
    simp only [h₄, h₁, h₂, if_false, false_and, decide_false, Bool.toNat_false]
    omega

/-- The years follow each other. -/
theorem daysBeforeYear_add_le {y y' : Nat} (h : y < y') (hy : 1 ≤ y) :
    daysBeforeYear y + 365 + (isLeap y).toNat ≤ daysBeforeYear y' := by
  obtain ⟨x, rfl⟩ : ∃ x, y = x + 1 := ⟨y - 1, by omega⟩
  rw [← daysBeforeYear_succ]
  induction y', h using Nat.le_induction with
  | base => exact le_refl _
  | succ n hn ih =>
    obtain ⟨m, rfl⟩ : ∃ m, n = m + 1 := ⟨n - 1, by omega⟩
    have hsucc : daysBeforeYear (m + 1 + 1) = _ := daysBeforeYear_succ m
    omega

/-- **A date is its ordinal.**  Dates of different years are apart by `daysBeforeYear_add_le`, dates
    of one year and different months by `daysBeforeMonth_add_le`, and in one month the day is what
    is left. -/
theorem Date.toordinal_injective {a b : Date} (h : a.toordinal = b.toordinal) : a = b := by
  have hbefore : ∀ a b : Date, a.year < b.year → a.toordinal < b.toordinal := by
    intro a b hlt
    have := daysBeforeYear_add_le hlt a.year_bounds.1
    have := daysBeforeMonth_le_year (isLeap a.year) a.month_bounds.1 a.month_bounds.2
    have := a.day_bounds.2
    have := b.day_bounds.1
    unfold toordinal
    omega
  have hwithin : ∀ a b : Date, a.year = b.year → a.month < b.month →
      a.toordinal < b.toordinal := by
    intro a b hyear hlt
    have := daysBeforeMonth_add_le (isLeap a.year) hlt a.month_bounds.1 b.month_bounds.2
    have := a.day_bounds.2
    have := b.day_bounds.1
    unfold toordinal
    rw [← hyear]
    omega
  have hyear : a.year = b.year := by
    rcases Nat.lt_trichotomy a.year b.year with hlt | heq | hlt
    · exact absurd h (hbefore a b hlt).ne
    · exact heq
    · exact absurd h (hbefore b a hlt).ne'
  have hmonth : a.month = b.month := by
    rcases Nat.lt_trichotomy a.month b.month with hlt | heq | hlt
    · exact absurd h (hwithin a b hyear hlt).ne
    · exact heq
    · exact absurd h (hwithin b a hyear.symm hlt).ne'
  have hday : a.day = b.day := by
    unfold toordinal at h
    rw [hyear, hmonth] at h
    omega
  cases a
  cases b
  cases hyear
  cases hmonth
  cases hday
  rfl

/-- A timestamp is the point in time and the offset it is written with.  At one offset the time of
    day and the date are both told by the instant. -/
theorem DateTime.eq_of_instant_eq {a b : DateTime} (h : a.instant = b.instant)
    (hoffset : a.offset = b.offset) : a = b := by
  have ha := And.intro a.hour_lt (And.intro a.minute_lt (And.intro a.second_lt a.microsecond_lt))
  have hb := And.intro b.hour_lt (And.intro b.minute_lt (And.intro b.second_lt b.microsecond_lt))
  have hparts : a.date.toordinal = b.date.toordinal ∧ a.hour = b.hour ∧ a.minute = b.minute ∧
      a.second = b.second ∧ a.microsecond = b.microsecond := by
    unfold instant seconds at h
    rw [hoffset] at h
    change (_ : Int) = _ at h
    have hmicrosecond : a.microsecond = b.microsecond := by omega
    have hsecond : a.second = b.second := by omega
    have hminute : a.minute = b.minute := by omega
    have hhour : a.hour = b.hour := by omega
    exact ⟨by omega, hhour, hminute, hsecond, hmicrosecond⟩
  obtain ⟨hdate, hhour, hminute, hsecond, hmicrosecond⟩ := hparts
  have hdate := Date.toordinal_injective hdate
  cases a
  cases b
  simp_all

/-- No month has more than 31 days. -/
theorem daysInMonth_le (leap : Bool) (m : Nat) : daysInMonth leap m ≤ 31 := by
  unfold daysInMonth
  split_ifs <;> omega

/-- A date is read from its text: each part has a fixed width. -/
theorem Date.readsAt (d : Date) : ReadsAt Date.chars (fun _ => True) (fun _ => True) d := by
  rintro ⟨year, month, day, hyear, hmonth, hday⟩ s t - - - heq
  have hd := And.intro d.year_bounds (And.intro d.month_bounds d.day_bounds)
  have hlast := daysInMonth_le (isLeap d.year) d.month
  have hlast' := daysInMonth_le (isLeap year) month
  simp only [Date.chars, List.append_assoc, List.cons_append] at heq
  obtain ⟨rfl, h₁⟩ := readsAt_padded (by decide) (show d.year < 10 ^ 4 by omega)
    (show year < 10 ^ 4 by omega) trivial trivial heq
  obtain ⟨rfl, h₂⟩ := readsAt_padded (by decide) (show d.month < 10 ^ 2 by omega)
    (show month < 10 ^ 2 by omega) trivial trivial (List.tail_eq_of_cons_eq h₁)
  obtain ⟨rfl, h₃⟩ := readsAt_padded (by decide) (show d.day < 10 ^ 2 by omega)
    (show day < 10 ^ 2 by omega) trivial trivial (List.tail_eq_of_cons_eq h₂)
  exact ⟨rfl, h₃⟩

/-- Dates with one text are one date. -/
theorem Date.text_injective {a b : Date} (h : a.text = b.text) : a = b :=
  a.readsAt.eq trivial trivial (String.ofList_injective h)

/-- Offsets of less than a day are told by their texts: `Z` is only written for none, the sign is
    that of the offset, and hours and minutes make it up. -/
theorem offsetChars_inj {o o' : Int} (ho : o.natAbs < 1440) (ho' : o'.natAbs < 1440)
    (h : offsetChars o = offsetChars o') : o = o' := by
  unfold offsetChars at h
  by_cases hzero : o = 0
  · by_cases hzero' : o' = 0
    · rw [hzero, hzero']
    · rw [if_pos hzero, if_neg hzero'] at h
      split at h <;> simp at h
  · by_cases hzero' : o' = 0
    · rw [if_neg hzero, if_pos hzero'] at h
      split at h <;> simp at h
    · rw [if_neg hzero, if_neg hzero'] at h
      simp only [List.cons_append, List.cons.injEq] at h
      obtain ⟨hsign, hrest⟩ := h
      obtain ⟨hhours, hrest⟩ := readsAt_padded (by decide)
        (show o.natAbs / 60 < 10 ^ 2 by omega) (show o'.natAbs / 60 < 10 ^ 2 by omega)
        trivial trivial hrest
      have hminutes := (readsAt_padded (by decide)
        (show o.natAbs % 60 < 10 ^ 2 by omega)).eq trivial
        (show o'.natAbs % 60 < 10 ^ 2 by omega) (List.tail_eq_of_cons_eq hrest)
      have hside : o < 0 ↔ o' < 0 := by
        constructor
        · intro hneg
          by_contra hpos
          simp [hneg, hpos] at hsign
        · intro hneg
          by_contra hpos
          simp [hneg, hpos] at hsign
      omega

/-- An offset begins with a letter or a sign, and so with no digit and no point. -/
theorem offsetChars_head (o : Int) : ∀ c ∈ (offsetChars o).head?, c ∈ ['Z', '-', '+'] := by
  intro c hc
  unfold offsetChars at hc
  split at hc
  · cases hc
    decide
  · split at hc <;>
    · cases hc
      decide

/-- The zone tells the offset, and whether there is one. -/
theorem DateTime.offset_eq_of_zone_eq {a b : DateTime} (h : a.zone = b.zone) :
    a.offset = b.offset := by
  have hne : ∀ o, offsetChars o ≠ [] := by
    intro o
    unfold offsetChars
    split <;> simp
  have ha := a.offset_lt
  have hb := b.offset_lt
  unfold zone at h
  cases hao : a.offset with
  | none =>
    cases hbo : b.offset with
    | none => rfl
    | some o' =>
      rw [hao, hbo] at h
      exact absurd h.symm (hne o')
  | some o =>
    cases hbo : b.offset with
    | none =>
      rw [hao, hbo] at h
      exact absurd h (hne o)
    | some o' =>
      rw [hao, hbo] at h
      exact congrArg some (offsetChars_inj (ha o hao) (hb o' hbo) h)

/-- Microseconds are not followed by a point. -/
theorem DateTime.zone_stops (t : DateTime) : StopsAt (· = '.') t.zone := by
  intro c hc
  unfold zone at hc
  cases ho : t.offset with
  | none =>
    rw [ho] at hc
    exact nomatch hc
  | some o =>
    rw [ho] at hc
    have hmem := offsetChars_head o c hc
    revert hmem
    simp only [List.mem_cons, List.not_mem_nil, or_false]
    rintro (rfl | rfl | rfl) <;> decide

/-- **A timestamp is read** from its text: date and time have fixed widths, the microseconds are
    there or not by the next symbol, and the zone is what is left. -/
theorem DateTime.text_injective {a b : DateTime} (h : a.text = b.text) : a = b := by
  have heq := String.ofList_injective h
  simp only [List.append_assoc, List.cons_append] at heq
  have ha := And.intro a.hour_lt (And.intro a.minute_lt (And.intro a.second_lt a.microsecond_lt))
  have hb := And.intro b.hour_lt (And.intro b.minute_lt (And.intro b.second_lt b.microsecond_lt))
  obtain ⟨hdate, h₁⟩ := a.date.readsAt trivial trivial trivial heq
  obtain ⟨hhour, h₂⟩ := readsAt_padded (by decide) (show a.hour < 10 ^ 2 by omega)
    (show b.hour < 10 ^ 2 by omega) trivial trivial (List.tail_eq_of_cons_eq h₁)
  obtain ⟨hminute, h₃⟩ := readsAt_padded (by decide) (show a.minute < 10 ^ 2 by omega)
    (show b.minute < 10 ^ 2 by omega) trivial trivial (List.tail_eq_of_cons_eq h₂)
  obtain ⟨hsecond, h₄⟩ := readsAt_padded (by decide) (show a.second < 10 ^ 2 by omega)
    (show b.second < 10 ^ 2 by omega) trivial trivial (List.tail_eq_of_cons_eq h₃)
  -- the point tells whether there are microseconds
  have hfraction : a.microsecond = b.microsecond ∧ a.zone = b.zone := by
    unfold fraction at h₄
    split at h₄
    · split at h₄
      · rename_i hzero hzero'
        exact ⟨by rw [hzero, hzero'], h₄⟩
      · have := a.zone_stops '.' (by rw [List.nil_append] at h₄; rw [h₄]; rfl)
        exact absurd this (by decide)
    · split at h₄
      · have := b.zone_stops '.' (by rw [List.nil_append] at h₄; rw [← h₄]; rfl)
        exact absurd this (by decide)
      · exact readsAt_padded (by decide) (show a.microsecond < 10 ^ 6 by omega)
          (show b.microsecond < 10 ^ 6 by omega) trivial trivial (List.tail_eq_of_cons_eq h₄)
  have hoffset := offset_eq_of_zone_eq hfraction.2
  cases a
  cases b
  simp_all

/-! ### Numbers -/

/-- The digits of a number begin with no other symbol. -/
theorem digits_head_ne {n : Nat} {c : Char} (hc : c.isDigit = false) (s : List Char) :
    (digits n ++ s).head? ≠ some c := by
  intro h
  obtain ⟨d, l, hl⟩ := List.exists_cons_of_ne_nil (digits_ne_nil (n := n))
  rw [hl] at h
  obtain rfl := Option.some.inj h
  have := digits_isDigit d (by rw [hl]; exact List.mem_cons_self)
  rw [hc] at this
  exact nomatch this

/-- Integers with one text are the same. -/
theorem intChars_injective {n m : Int} (h : intChars n = intChars m) : n = m := by
  unfold intChars at h
  split at h <;> split at h
  · have := digits_injective (List.cons.inj h).2
    omega
  · rw [List.nil_append] at h
    exact absurd (by rw [← h]; rfl) (digits_head_ne (n := m.natAbs) (c := '-') (by decide) [])
  · rw [List.nil_append] at h
    exact absurd (by rw [h]; rfl) (digits_head_ne (n := n.natAbs) (c := '-') (by decide) [])
  · have := digits_injective h
    omega

/-- The text of an integer is made of digits and the sign. -/
theorem intChars_isNumber {n : Int} : ∀ c ∈ intChars n, c.isDigit = true ∨ c = '-' := by
  intro c hc
  rcases List.mem_append.mp hc with hc | hc
  · split at hc
    · exact Or.inr (List.mem_singleton.mp hc)
    · exact nomatch hc
  · exact Or.inl (digits_isDigit c hc)

/-- The text of a floating point number is not that of an integer: it has a point, an exponent, or
    no digit at all. -/
theorem intChars_ne_float (n : Int) (x : FloatText) : intChars n ≠ x.text.toList := by
  intro h
  obtain ⟨c, hc, hfraction⟩ := List.any_eq_true.mp x.fractional
  rw [← h] at hc
  have hpoint : c = '.' ∨ c = 'e' := by simpa using hfraction
  rcases intChars_isNumber c hc with hdigit | rfl
  · rcases hpoint with rfl | rfl <;> exact absurd hdigit (by decide)
  · exact absurd hpoint (by decide)

/-! ### Decimals -/

namespace Decimal

/-- A decimal number is its value, its scale and its sign.  The sign is there for the two zeros. -/
theorem eq_of_value_eq {d e : Decimal} (h : d.value = e.value) (hexponent : d.exponent = e.exponent)
    (hnegative : d.negative = e.negative) : d = e := by
  have hpow : ∀ n : Nat, (10 : Rat) ^ n ≠ 0 := fun n => pow_ne_zero n (by norm_num)
  have hcoefficient : d.coefficient = e.coefficient := by
    unfold value at h
    rw [hexponent, hnegative] at h
    simp only at h
    have hscaled : (if e.negative then -(d.coefficient : Int) else d.coefficient) =
        if e.negative then -(e.coefficient : Int) else e.coefficient := by
      split at h
      · exact_mod_cast mul_right_cancel₀ (hpow _) h
      · exact_mod_cast (div_left_inj' (hpow _)).mp h
    split at hscaled <;> omega
  cases d
  cases e
  cases hexponent
  cases hnegative
  cases hcoefficient
  rfl

/-- The digits before the point, and the point with those behind it. -/
theorem positional_split (n places : Nat) :
    ∃ whole fraction : List Char,
      positional (digits n) places = whole ++ (if places = 0 then [] else '.' :: fraction) ∧
        fraction.length = places ∧ number (whole ++ fraction) = n ∧
        ∀ c ∈ whole ++ fraction, c.isDigit = true := by
  let all := List.replicate (places + 1 - (digits n).length) '0' ++ digits n
  have hlen : places < all.length := by
    simp only [all, List.length_append, List.length_replicate]
    omega
  refine ⟨all.take (all.length - places), all.drop (all.length - places), ?_, ?_, ?_, ?_⟩
  · show (if places = 0 then all.take (all.length - places)
      else all.take (all.length - places) ++ '.' :: all.drop (all.length - places)) = _
    split
    · rw [List.append_nil]
    · rfl
  · rw [List.length_drop]
    omega
  · rw [List.take_append_drop, number_zeros_append, number_digits]
  · rw [List.take_append_drop]
    intro c hc
    rcases List.mem_append.mp hc with hc | hc
    · rw [List.eq_of_mem_replicate hc]
      decide
    · exact digits_isDigit c hc

/-- A number and its count of decimals are told by the positional text: the point says how many
    digits stand behind it, and with the point taken out the digits write the number. -/
theorem positional_inj {n n' places places' : Nat}
    (h : positional (digits n) places = positional (digits n') places') :
    n = n' ∧ places = places' := by
  obtain ⟨whole, fraction, hpos, hlen, hn, hdigit⟩ := positional_split n places
  obtain ⟨whole', fraction', hpos', hlen', hn', hdigit'⟩ := positional_split n' places'
  have hstops : ∀ (k : Nat) (l : List Char),
      StopsAt Char.isDigit (if k = 0 then [] else '.' :: l) := by
    intro k l
    split
    · exact stopsAt_nil
    · exact stopsAt_cons (by decide)
  rw [hpos, hpos'] at h
  obtain ⟨rfl, hrest⟩ := append_eq_of_stopsAt (fun c hc => hdigit c (List.mem_append_left _ hc))
    (fun c hc => hdigit' c (List.mem_append_left _ hc)) (hstops _ _) (hstops _ _) h
  have hfraction : fraction = fraction' := by
    split at hrest <;> split at hrest
    · rw [List.length_eq_zero_iff.mp (by omega : fraction.length = 0),
        List.length_eq_zero_iff.mp (by omega : fraction'.length = 0)]
    · exact nomatch hrest
    · exact nomatch hrest
    · exact (List.cons.inj hrest).2
  subst hfraction
  exact ⟨hn.symm.trans hn', hlen.symm.trans hlen'⟩

/-- The point taken out again leaves the digits. -/
theorem filter_mantissa {l : List Char} (h : ∀ c ∈ l, c.isDigit = true) :
    (mantissa l).filter Char.isDigit = l := by
  have hfilter := List.filter_eq_self.mpr h
  unfold mantissa
  split
  · rename_i d e ds
    rw [List.filter_cons_of_pos (h d List.mem_cons_self)] at hfilter ⊢
    rw [List.filter_cons_of_neg (by decide)]
    exact hfilter
  · exact hfilter

/-- A mantissa is made of the digits and the point. -/
theorem mem_mantissa {l : List Char} {c : Char} (h : c ∈ mantissa l) : c ∈ l ∨ c = '.' := by
  unfold mantissa at h
  split at h
  · rename_i d e ds
    rcases List.mem_cons.mp h with rfl | h
    · exact Or.inl List.mem_cons_self
    · rcases List.mem_cons.mp h with rfl | h
      · exact Or.inr rfl
      · exact Or.inl (List.mem_cons_of_mem d h)
  · exact Or.inl h

/-- There is no letter E in a mantissa, so the exponent begins at the first one. -/
theorem mantissa_ne_E {n : Nat} : ∀ c ∈ mantissa (digits n), decide (c ≠ 'E') = true := by
  intro c hc
  rcases mem_mantissa hc with hc | rfl
  · refine decide_eq_true ?_
    rintro rfl
    exact absurd (digits_isDigit 'E' hc) (by decide)
  · decide

/-- The scientific text tells the digits and the exponent: they stand on either side of the E. -/
theorem scientific_inj {n n' : Nat} {adjusted adjusted' : Int}
    (h : scientific (digits n) adjusted = scientific (digits n') adjusted') :
    n = n' ∧ adjusted = adjusted' := by
  unfold scientific at h
  have hstops : ∀ l : List Char, StopsAt (fun c => decide (c ≠ 'E')) ('E' :: l) :=
    fun l => stopsAt_cons (by decide)
  obtain ⟨hmantissa, hrest⟩ := append_eq_of_stopsAt mantissa_ne_E mantissa_ne_E (hstops _)
    (hstops _) h
  obtain ⟨hsign, hexp⟩ := List.cons.inj (List.cons.inj hrest).2
  have hdigits : digits n = digits n' := by
    rw [← filter_mantissa digits_isDigit, hmantissa, filter_mantissa digits_isDigit]
  have habs : adjusted.natAbs = adjusted'.natAbs := digits_injective hexp
  refine ⟨digits_injective hdigits, ?_⟩
  split at hsign <;> split at hsign
  · omega
  · exact absurd hsign (by decide)
  · exact absurd hsign (by decide)
  · omega

/-- A positional text is made of digits and the point. -/
theorem mem_positional {n places : Nat} {c : Char} (h : c ∈ positional (digits n) places) :
    c.isDigit = true ∨ c = '.' := by
  obtain ⟨whole, fraction, hpos, -, -, hdigit⟩ := positional_split n places
  rw [hpos] at h
  rcases List.mem_append.mp h with h | h
  · exact Or.inl (hdigit c (List.mem_append_left _ h))
  · split at h
    · exact absurd h List.not_mem_nil
    · rcases List.mem_cons.mp h with rfl | h
      · exact Or.inr rfl
      · exact Or.inl (hdigit c (List.mem_append_right _ h))

/-- No positional text is a scientific one, which has an E. -/
theorem positional_ne_scientific (n n' places : Nat) (adjusted : Int) :
    positional (digits n) places ≠ scientific (digits n') adjusted := by
  intro h
  have hmem : 'E' ∈ positional (digits n) places := by
    rw [h]
    exact List.mem_append_right _ List.mem_cons_self
  rcases mem_positional hmem with hdigit | heq
  · exact absurd hdigit (by decide)
  · exact absurd heq (by decide)

/-- The text without its sign: positional as long as no zeros have to be put in, and not too many in
    front, as the standard's to-scientific-string has it. -/
def unsigned (d : Decimal) : List Char :=
  let adjusted := d.exponent + (digits d.coefficient).length - 1
  if d.exponent ≤ 0 ∧ -6 ≤ adjusted then positional (digits d.coefficient) (-d.exponent).toNat
  else scientific (digits d.coefficient) adjusted

/-- The text of a decimal number is that of its absolute value, behind the sign. -/
theorem str_eq (d : Decimal) :
    d.str = String.ofList ((if d.negative then ['-'] else []) ++ d.unsigned) := rfl

/-- The digits of a number do not begin with a minus sign. -/
theorem unsigned_head_ne (d : Decimal) : d.unsigned.head? ≠ some '-' := by
  intro h
  have hne : ¬('-'.isDigit = true ∨ '-' = '.') := by decide
  unfold unsigned at h
  simp only at h
  split at h
  · exact hne (mem_positional (List.mem_of_mem_head? h))
  · unfold scientific at h
    cases hcase : mantissa (digits d.coefficient) with
    | nil =>
      rw [hcase] at h
      exact absurd (Option.some.inj h) (by decide)
    | cons c l =>
      rw [hcase] at h
      have hmem : '-' ∈ mantissa (digits d.coefficient) := by
        rw [hcase, ← Option.some.inj h]
        exact List.mem_cons_self
      exact hne ((mem_mantissa hmem).imp_left (digits_isDigit '-'))

/-- The text tells the coefficient and the exponent.  Which of the two forms a text has is seen from
    it, and in each form both are told. -/
theorem unsigned_inj {d e : Decimal} (h : d.unsigned = e.unsigned) :
    d.coefficient = e.coefficient ∧ d.exponent = e.exponent := by
  unfold unsigned at h
  simp only at h
  split at h <;> split at h
  · obtain ⟨hcoefficient, hplaces⟩ := positional_inj h
    exact ⟨hcoefficient, by omega⟩
  · exact absurd h (positional_ne_scientific _ _ _ _)
  · exact absurd h.symm (positional_ne_scientific _ _ _ _)
  · obtain ⟨hcoefficient, hadjusted⟩ := scientific_inj h
    rw [hcoefficient] at hadjusted
    exact ⟨hcoefficient, by omega⟩

/-- **A decimal number is read** from its text, with its scale.  So `50` and `50.0` have different
    texts, and a digest tells them apart though they are equal amounts. -/
theorem str_injective {d e : Decimal} (h : d.str = e.str) : d = e := by
  rw [str_eq, str_eq] at h
  have heq := String.ofList_injective h
  have hsign : d.negative = e.negative := by
    cases hd : d.negative with
    | false =>
      cases he : e.negative with
      | false => rfl
      | true =>
        rw [hd, he] at heq
        exact absurd (congrArg List.head? heq) d.unsigned_head_ne
    | true =>
      cases he : e.negative with
      | false =>
        rw [hd, he] at heq
        exact absurd (congrArg List.head? heq).symm e.unsigned_head_ne
      | true => rfl
  rw [hsign] at heq
  obtain ⟨hcoefficient, hexponent⟩ := unsigned_inj (List.append_cancel_left heq)
  cases d
  cases e
  cases hsign
  cases hcoefficient
  cases hexponent
  rfl

end Decimal

/-! ### Strings -/

/-- Each short escape stands for one character. -/
theorem shortEscape_inj {c d e : Char} (hc : shortEscape c = some e) (hd : shortEscape d = some e) :
    c = d := by
  unfold shortEscape at hc hd
  split_ifs at hc <;> cases hc <;> split_ifs at hd <;>
    first | (subst_vars; rfl) | cases hd

/-- None of them is the letter u, with which the long ones begin. -/
theorem shortEscape_ne_u {c : Char} : shortEscape c ≠ some 'u' := by
  unfold shortEscape
  split_ifs <;> decide

/-- A hexadecimal digit is told by its character. -/
theorem digitChar_inj {n m : Nat} (hn : n < 16) (hm : m < 16)
    (h : Nat.digitChar n = Nat.digitChar m) : n = m := by
  have : ∀ i j : Fin 16, Nat.digitChar i = Nat.digitChar j → i = j := by decide
  exact congrArg Fin.val (this ⟨n, hn⟩ ⟨m, hm⟩ h)

/-- Four hexadecimal digits write a code unit. -/
theorem readsAt_unicodeEscape {n : Nat} (hn : n < 65536) :
    ReadsAt unicodeEscape (· < 65536) (fun _ => True) n := by
  intro m s t hm _ _ heq
  simp only [unicodeEscape, List.cons_append, List.nil_append, List.cons.injEq, true_and] at heq
  obtain ⟨h₁, h₂, h₃, h₄, hrest⟩ := heq
  have h₁ := digitChar_inj (by omega) (by omega) h₁
  have h₂ := digitChar_inj (by omega) (by omega) h₂
  have h₃ := digitChar_inj (by omega) (by omega) h₃
  have h₄ := digitChar_inj (by omega) (by omega) h₄
  exact ⟨by omega, hrest⟩

/-- The code units of a character, in UTF-16. -/
def codeUnits (c : Char) : List Nat :=
  if c.toNat < 65536 then [c.toNat]
  else [55296 + (c.toNat - 65536) / 1024, 56320 + (c.toNat - 65536) % 1024]

/-- A character is no surrogate. -/
theorem Char.toNat_bounds (c : Char) :
    c.toNat < 55296 ∨ (57343 < c.toNat ∧ c.toNat < 1114112) := c.valid

/-- The three shapes of an escaped character. -/
theorem escape_cases (c : Char) :
    (∃ e, shortEscape c = some e ∧ escape c = ['\\', e]) ∨
      (c ≠ '\\' ∧ c ≠ '"' ∧ escape c = [c]) ∨
      escape c = (codeUnits c).flatMap unicodeEscape := by
  unfold escape
  split
  · rename_i e he
    exact Or.inl ⟨e, he, rfl⟩
  · rename_i hnone
    split
    · refine Or.inr (Or.inl ⟨?_, ?_, rfl⟩) <;>
      · rintro rfl
        exact absurd hnone (by decide)
    · refine Or.inr (Or.inr ?_)
      unfold codeUnits
      split <;> simp

/-- A character has a first code unit. -/
theorem codeUnits_eq_cons (c : Char) :
    ∃ n l, codeUnits c = n :: l ∧ n < 65536 := by
  have := Char.toNat_bounds c
  unfold codeUnits
  split
  · exact ⟨_, _, rfl, by omega⟩
  · exact ⟨_, _, rfl, by omega⟩

/-- Surrogates stand for no character of their own, so that the first code unit tells how many there
    are. -/
theorem readsAt_codeUnits (c : Char) :
    ReadsAt (fun c => (codeUnits c).flatMap unicodeEscape) (fun _ => True) (fun _ => True) c := by
  intro d s t _ _ _ heq
  have hc := Char.toNat_bounds c
  have hd := Char.toNat_bounds d
  simp only [codeUnits] at heq
  split at heq <;> split at heq <;>
    simp only [List.flatMap_cons, List.flatMap_nil, List.append_nil, List.append_assoc] at heq
  · obtain ⟨hunit, hrest⟩ := readsAt_unicodeEscape (by omega) (by omega) trivial trivial heq
    exact ⟨Char.toNat_inj.mp hunit, hrest⟩
  · obtain ⟨hunit, -⟩ := readsAt_unicodeEscape (by omega)
      (show _ < 65536 by omega) trivial trivial heq
    omega
  · obtain ⟨hunit, -⟩ := readsAt_unicodeEscape (by omega)
      (show _ < 65536 by omega) trivial trivial heq
    omega
  · obtain ⟨hhigh, hrest⟩ := readsAt_unicodeEscape (by omega)
      (show _ < 65536 by omega) trivial trivial heq
    obtain ⟨hlow, hrest⟩ := readsAt_unicodeEscape (by omega)
      (show _ < 65536 by omega) trivial trivial hrest
    exact ⟨Char.toNat_inj.mp (by omega), hrest⟩

/-- A character tells itself by its escape.  The nine cases are the pairs of shapes that two escapes
    may have; those of different shapes differ in one of their first two symbols. -/
theorem readsAt_escape (c : Char) : ReadsAt escape (fun _ => True) (fun _ => True) c := by
  intro d s t _ _ _ heq
  have hunits : ∀ c : Char, ∃ l, (codeUnits c).flatMap unicodeEscape = '\\' :: 'u' :: l := by
    intro c
    obtain ⟨n, l, hn, -⟩ := codeUnits_eq_cons c
    exact ⟨_, by rw [hn]; rfl⟩
  obtain ⟨lc, hlc⟩ := hunits c
  obtain ⟨ld, hld⟩ := hunits d
  rcases escape_cases c with ⟨e, he, hc⟩ | ⟨hslash, -, hc⟩ | hc <;>
    rcases escape_cases d with ⟨e', he', hd⟩ | ⟨hslash', -, hd⟩ | hd <;>
    rw [hc, hd] at heq
  · simp only [List.cons_append, List.nil_append, List.cons.injEq, true_and] at heq
    obtain ⟨rfl, hrest⟩ := heq
    exact ⟨shortEscape_inj he he', hrest⟩
  · exact absurd (List.cons.inj heq).1.symm hslash'
  · rw [hld] at heq
    have := (List.cons.inj (List.cons.inj heq).2).1
    rw [this] at he
    exact absurd he shortEscape_ne_u
  · exact absurd (List.cons.inj heq).1 hslash
  · obtain ⟨rfl, hrest⟩ := List.cons.inj heq
    exact ⟨rfl, hrest⟩
  · rw [hld] at heq
    exact absurd (List.cons.inj heq).1 hslash
  · rw [hlc] at heq
    have := (List.cons.inj (List.cons.inj heq).2).1
    rw [← this] at he'
    exact absurd he' shortEscape_ne_u
  · rw [hlc] at heq
    exact absurd (List.cons.inj heq).1.symm hslash'
  · exact readsAt_codeUnits c trivial trivial trivial heq

/-- No escape begins with the quote that ends a string. -/
theorem escape_head_ne (c : Char) (s : List Char) : (escape c ++ s).head? ≠ some '"' := by
  rcases escape_cases c with ⟨e, -, hc⟩ | ⟨-, hquote, hc⟩ | hc
  · rw [hc]
    simp
  · rw [hc]
    simpa using hquote
  · obtain ⟨n, l, hn, -⟩ := codeUnits_eq_cons c
    rw [hc, hn]
    simp [unicodeEscape]

/-- Escaped characters are read one by one, up to the quote. -/
theorem escaped_inj {l l' s t : List Char} (heq : escaped l ++ s = escaped l' ++ t) :
    l = l' ∧ s = t := by
  induction l generalizing l' with
  | nil =>
    cases l' with
    | nil => exact ⟨rfl, (List.cons.inj heq).2⟩
    | cons d l' =>
      rw [escaped, escaped, List.append_assoc] at heq
      exact absurd (congrArg List.head? heq).symm (escape_head_ne d _)
  | cons c l ih =>
    cases l' with
    | nil =>
      rw [escaped, escaped, List.append_assoc] at heq
      exact absurd (congrArg List.head? heq) (escape_head_ne c _)
    | cons d l' =>
      rw [escaped, escaped, List.append_assoc, List.append_assoc] at heq
      obtain ⟨rfl, hrest⟩ := readsAt_escape c trivial trivial trivial heq
      obtain ⟨rfl, rfl⟩ := ih hrest
      exact ⟨rfl, rfl⟩

/-- A string ends at its closing quote. -/
theorem readsAt_quoted (a : String) : ReadsAt quoted (fun _ => True) (fun _ => True) a := by
  intro b s t _ _ _ heq
  obtain ⟨hchars, hrest⟩ := escaped_inj (List.cons.inj heq).2
  exact ⟨String.toList_injective hchars, hrest⟩

/-! ### Values -/

namespace Json

mutual

/-- No amount stands in the value: texts stand in their places.  This is what a canonical form is,
    and what can be read back; an amount and its text are written alike. -/
def Plain : Json → Prop
  | decimal _ => False
  | array items => PlainItems items
  | object fields => PlainFields fields
  | _ => True

/-- The items of an array are plain, each of them. -/
def PlainItems : List Json → Prop
  | [] => True
  | a :: l => Plain a ∧ PlainItems l

/-- The fields of an object are plain, each of them. -/
def PlainFields : List (String × Json) → Prop
  | [] => True
  | (_, a) :: l => Plain a ∧ PlainFields l

end

/-- The items are plain when each of them is. -/
theorem plainItems_iff {l : List Json} : PlainItems l ↔ ∀ a ∈ l, a.Plain := by
  induction l with
  | nil => simp [PlainItems]
  | cons a l ih => simp [PlainItems, ih]

/-- The fields are plain when each of their values is. -/
theorem plainFields_iff {l : List (String × Json)} : PlainFields l ↔ ∀ f ∈ l, f.2.Plain := by
  induction l with
  | nil => simp [PlainFields]
  | cons f l ih =>
    obtain ⟨k, a⟩ := f
    simp [PlainFields, ih]

/-- The items of an array are brought to their canonical forms one by one. -/
theorem canonicalItems_eq (l : List Json) : canonicalItems l = l.map canonical := by
  induction l with
  | nil => rfl
  | cons a l ih => rw [canonicalItems, ih, List.map_cons]

/-- The fields of an object are made canonical one by one, each under its name. -/
theorem canonicalFields_eq (l : List (String × Json)) :
    canonicalFields l = l.map fun f => (f.1, f.2.canonical) := by
  induction l with
  | nil => rfl
  | cons f l ih => rw [canonicalFields, ih, List.map_cons]

/-- Sorting moves the fields of an object only. -/
theorem plainFields_insertionSort {l : List (String × Json)} (h : PlainFields l) :
    PlainFields (l.insertionSort fun f g => f.1 ≤ g.1) := by
  rw [plainFields_iff] at h ⊢
  intro f hf
  exact h f ((List.mem_insertionSort _).mp hf)

mutual

/-- A canonical form has no amount in it.  By recursion on the value, together with its items and
    fields. -/
theorem plain_canonical : (j : Json) → j.canonical.Plain
  | null | bool _ | int _ | float _ | decimal _ | text _ => by
    unfold canonical Plain
    trivial
  | array items => by
    unfold canonical Plain
    exact plainItems_canonical items
  | object fields => by
    unfold canonical Plain
    exact plainFields_insertionSort (plainFields_canonical fields)

/-- The items of an array are plain once they are canonical. -/
theorem plainItems_canonical : (l : List Json) → PlainItems (canonicalItems l)
  | [] => trivial
  | a :: l => ⟨plain_canonical a, plainItems_canonical l⟩

/-- The fields of an object are plain once they are canonical. -/
theorem plainFields_canonical : (l : List (String × Json)) → PlainFields (canonicalFields l)
  | [] => trivial
  | (_, a) :: l => ⟨plain_canonical a, plainFields_canonical l⟩

end

/-- A position for the kinds of text a value has.  Numbers of both kinds look alike at first, and so
    do texts and amounts. -/
def shape : Json → Nat
  | null => 0
  | bool _ => 1
  | int _ | float _ => 2
  | decimal _ | text _ => 3
  | array _ => 4
  | object _ => 5

/-- The kind of text a character begins. -/
def leads (c : Char) : Nat :=
  if isNumberChar c then 2
  else if c = 'n' then 0
  else if c = 't' ∨ c = 'f' then 1
  else if c = '"' then 3
  else if c = '[' then 4
  else if c = '\x7b' then 5
  else 6

/-- An integer is written with the symbols of numbers. -/
theorem isNumberChar_intChars {n : Int} : ∀ c ∈ intChars n, isNumberChar c = true := by
  intro c hc
  rcases intChars_isNumber c hc with hdigit | rfl
  · simp [isNumberChar, hdigit]
  · decide

/-- A floating point number is written with the symbols of numbers. -/
theorem isNumberChar_float {x : FloatText} : ∀ c ∈ x.text.toList, isNumberChar c = true :=
  List.all_eq_true.mp x.chars

/-- A text of such symbols begins as a number. -/
theorem leads_of_number {l : List Char} (hne : l ≠ []) (hl : ∀ c ∈ l, isNumberChar c = true) :
    ∃ c rest, l = c :: rest ∧ leads c = 2 := by
  obtain ⟨c, rest, rfl⟩ := List.exists_cons_of_ne_nil hne
  exact ⟨c, rest, rfl, if_pos (hl c List.mem_cons_self)⟩

/-- A text shows its kind in its first character. -/
theorem render_leads (j : Json) : ∃ c l, j.render = c :: l ∧ leads c = j.shape := by
  cases j with
  | null => exact ⟨_, _, by rw [render], by decide⟩
  | bool b => cases b <;> exact ⟨_, _, by rw [render]; rfl, by decide⟩
  | int n =>
    rw [render]
    refine leads_of_number ?_ isNumberChar_intChars
    unfold intChars
    simp [digits_ne_nil]
  | float x =>
    rw [render]
    refine leads_of_number ?_ isNumberChar_float
    intro hnil
    have := x.fractional
    rw [hnil] at this
    exact nomatch this
  | decimal q => exact ⟨_, _, by rw [render]; rfl, (by decide : leads '"' = 3)⟩
  | text s => exact ⟨_, _, by rw [render]; rfl, (by decide : leads '"' = 3)⟩
  | array items => exact ⟨_, _, by rw [render], (by decide : leads '[' = 4)⟩
  | object fields => exact ⟨_, _, by rw [render], (by decide : leads '\x7b' = 5)⟩

/-- Two values with one text are of one kind, since the first character tells the kind. -/
theorem shape_eq_of_render {a b : Json} {s t : List Char}
    (heq : a.render ++ s = b.render ++ t) : a.shape = b.shape := by
  obtain ⟨c, l, hc, hshape⟩ := a.render_leads
  obtain ⟨d, l', hd, hshape'⟩ := b.render_leads
  rw [hc, hd] at heq
  rw [← hshape, ← hshape', (List.cons.inj heq).1]

/-- No value begins with a symbol that begins none, such as a bracket that closes. -/
theorem render_head_ne {c : Char} (hc : leads c = 6) (a : Json) (s : List Char) :
    (a.render ++ s).head? ≠ some c := by
  obtain ⟨d, l, hd, hshape⟩ := a.render_leads
  rw [hd]
  intro h
  rw [Option.some.inj h, hc] at hshape
  cases a <;> exact absurd hshape (by simp [shape])

/-- The text of an array is a list between brackets. -/
theorem renderItems_eq (first : Bool) (l : List Json) :
    renderItems first l = enclosed render ',' ']' first l := by
  induction l generalizing first with
  | nil => rfl
  | cons a l ih => rw [renderItems, enclosed, ih]

/-- A field of an object: its key, a colon and its value. -/
def renderField (f : String × Json) : List Char := quoted f.1 ++ ':' :: f.2.render

/-- The text of an object is a list of fields between braces. -/
theorem renderFields_eq (first : Bool) (l : List (String × Json)) :
    renderFields first l = enclosed renderField ',' '\x7d' first l := by
  induction l generalizing first with
  | nil => rfl
  | cons f l ih =>
    obtain ⟨k, a⟩ := f
    rw [renderFields, enclosed, ih, renderField]

/-- Behind an item no number goes on. -/
theorem stopsAt_of_afterItem {close : Char} (hclose : isNumberChar close = false) {s : List Char}
    (h : AfterItem ',' close s) : StopsAt isNumberChar s := by
  intro c hc
  rcases h with h | h
  · rw [h] at hc
    obtain rfl := Option.some.inj hc
    decide
  · rw [h] at hc
    obtain rfl := Option.some.inj hc
    exact hclose

/-- What reading a value means: its text ends where no number could go on. -/
abbrev Reads (a : Json) : Prop := ReadsAt render Plain (StopsAt isNumberChar) a

/-- A number in a text ends where its symbols do. -/
theorem reads_number {l l' s t : List Char} (hl : ∀ c ∈ l, isNumberChar c = true)
    (hl' : ∀ c ∈ l', isNumberChar c = true) (hs : StopsAt isNumberChar s)
    (ht : StopsAt isNumberChar t) (heq : l ++ s = l' ++ t) : l = l' ∧ s = t :=
  append_eq_of_stopsAt hl hl' hs ht heq

/-- An array is read if its items are. -/
theorem reads_array {items : List Json} (hplain : PlainItems items)
    (hitems : ∀ a ∈ items, a.Reads) : (array items).Reads := by
  intro b s t hb hs ht heq
  have hshape := shape_eq_of_render heq
  cases b with
  | array items' =>
    rw [render, render, renderItems_eq, renderItems_eq] at heq
    have hread : ReadsAt (enclosed render ',' ']' true) (fun l => ∀ a ∈ l, a.Plain)
        (fun _ => True) items := readsAt_enclosed
      (fun a ha => (hitems a ha).mono (fun _ h => h) fun _ => stopsAt_of_afterItem (by decide))
      (plainItems_iff.mp hplain) (fun a s _ => render_head_ne (by decide) a s) (by decide) true
    obtain ⟨rfl, rfl⟩ := hread (plainItems_iff.mp hb) trivial trivial (List.cons.inj heq).2
    exact ⟨rfl, rfl⟩
  | _ => exact absurd hshape (by simp [shape])

/-- An object is read if its values are: a key ends at its quote, and the value begins behind the
    colon. -/
theorem reads_object {fields : List (String × Json)} (hplain : PlainFields fields)
    (hfields : ∀ f ∈ fields, f.2.Reads) : (object fields).Reads := by
  intro b s t hb hs ht heq
  have hshape := shape_eq_of_render heq
  cases b with
  | object fields' =>
    rw [render, render, renderFields_eq, renderFields_eq] at heq
    have hfield : ∀ f ∈ fields,
        ReadsAt renderField (fun f => f.2.Plain) (AfterItem ',' '\x7d') f := by
      rintro f hf ⟨k, a⟩ s t ha hs ht heq
      simp only [renderField, List.append_assoc, List.cons_append] at heq
      obtain ⟨hk, hrest⟩ := readsAt_quoted f.1 trivial trivial trivial heq
      obtain ⟨ha, hrest⟩ := hfields f hf ha (stopsAt_of_afterItem (by decide) hs)
        (stopsAt_of_afterItem (by decide) ht) (List.cons.inj hrest).2
      exact ⟨Prod.ext hk ha, hrest⟩
    have hread := readsAt_enclosed hfield (plainFields_iff.mp hplain)
      (fun f s _ => by simp [renderField, quoted]) (by decide) true
    obtain ⟨rfl, rfl⟩ := hread (plainFields_iff.mp hb) trivial trivial (List.cons.inj heq).2
    exact ⟨rfl, rfl⟩
  | _ => exact absurd hshape (by simp [shape])

mutual

/-- **The text of a value is the text of no other.**  By recursion on the value.  Two values with
    one text are of one kind; numbers are told by their symbols, strings by their escapes, and
    arrays and objects by their parts. -/
theorem reads : (a : Json) → a.Plain → a.Reads
  | null, _ => by
    intro b s t hb hs ht heq
    have hshape := shape_eq_of_render heq
    cases b with
    | null => exact ⟨rfl, List.append_cancel_left heq⟩
    | _ => exact absurd hshape (by simp [shape])
  | bool x, _ => by
    intro b s t hb hs ht heq
    have hshape := shape_eq_of_render heq
    cases b with
    | bool y =>
      rw [render, render] at heq
      cases x <;> cases y
      · exact ⟨rfl, List.append_cancel_left heq⟩
      · exact absurd (List.cons.inj heq).1 (by decide)
      · exact absurd (List.cons.inj heq).1 (by decide)
      · exact ⟨rfl, List.append_cancel_left heq⟩
    | _ => exact absurd hshape (by simp [shape])
  | int n, _ => by
    intro b s t hb hs ht heq
    have hshape := shape_eq_of_render heq
    cases b with
    | int m =>
      rw [render, render] at heq
      obtain ⟨htext, hrest⟩ := reads_number isNumberChar_intChars isNumberChar_intChars hs ht heq
      exact ⟨congrArg int (intChars_injective htext), hrest⟩
    | float y =>
      rw [render, render] at heq
      obtain ⟨htext, -⟩ := reads_number isNumberChar_intChars isNumberChar_float hs ht heq
      exact absurd htext (intChars_ne_float n y)
    | _ => exact absurd hshape (by simp [shape])
  | float x, _ => by
    intro b s t hb hs ht heq
    have hshape := shape_eq_of_render heq
    cases b with
    | int m =>
      rw [render, render] at heq
      obtain ⟨htext, -⟩ := reads_number isNumberChar_float isNumberChar_intChars hs ht heq
      exact absurd htext.symm (intChars_ne_float m x)
    | float y =>
      rw [render, render] at heq
      obtain ⟨htext, hrest⟩ := reads_number isNumberChar_float isNumberChar_float hs ht heq
      have htext := String.toList_injective htext
      cases x
      cases y
      cases htext
      exact ⟨rfl, hrest⟩
    | _ => exact absurd hshape (by simp [shape])
  | text a, _ => by
    intro b s t hb hs ht heq
    have hshape := shape_eq_of_render heq
    cases b with
    | text b =>
      rw [render, render] at heq
      obtain ⟨rfl, hrest⟩ := readsAt_quoted a trivial trivial trivial heq
      exact ⟨rfl, hrest⟩
    | decimal q => exact absurd hb (by simp [Plain])
    | _ => exact absurd hshape (by simp [shape])
  | array items, h => reads_array (by simpa [Plain] using h)
      (reads_items items (by simpa [Plain] using h))
  | object fields, h => reads_object (by simpa [Plain] using h)
      (reads_fields fields (by simpa [Plain] using h))
  | decimal q, h => absurd h (by simp [Plain])

/-- Each item of an array is read. -/
theorem reads_items : (l : List Json) → PlainItems l → ∀ a ∈ l, a.Reads
  | [], _, _, ha => absurd ha List.not_mem_nil
  | a :: l, h, b, hb => by
    rcases List.mem_cons.mp hb with heq | hb
    · rw [heq]
      exact reads a h.1
    · exact reads_items l h.2 b hb

/-- The value of each field of an object is read. -/
theorem reads_fields : (l : List (String × Json)) → PlainFields l → ∀ f ∈ l, f.2.Reads
  | [], _, _, hf => absurd hf List.not_mem_nil
  | (k, a) :: l, h, f, hf => by
    rcases List.mem_cons.mp hf with heq | hf
    · rw [heq]
      exact reads a h.1
    · exact reads_fields l h.2 f hf

end

/-- **One text for one canonical form.**  Two values have one dump exactly when they differ in
    nothing but the order of the keys of an object, and an amount may stand for its text. -/
theorem dumps_inj {a b : Json} : a.dumps = b.dumps ↔ a.canonical = b.canonical := by
  constructor
  · intro h
    exact (reads a.canonical a.plain_canonical).eq stopsAt_nil b.plain_canonical
      (String.ofList_injective h)
  · intro h
    rw [dumps, dumps, h]

end Json

end CommerceOperations
