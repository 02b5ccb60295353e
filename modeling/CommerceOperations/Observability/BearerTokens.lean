/-
  Bearer tokens in log messages: when the redaction of a message removes a token.

  It does as long as the word Bearer before the token is left for the third rule.  An earlier rule,
  or an earlier match of the third one, can take it: "Authorization: Bearer ..." assigns the word to
  a sensitive key, and what is redacted is the word, not the token.

  The crux is to follow the token backwards through the three rules.  An occurrence of it in the
  result is one in the message, or it reaches into a replacement.  In the message the token occurs
  after the word Bearer only, and there the third rule takes at least its first character.  Into a
  replacement it can reach in two ways, since a token has no brackets and no spaces: with an equals
  sign that the first rule has written, or with letters of the word Bearer that the third rule has
  written.  Both leave their trace in the message itself (`Assembled`), because what surrounds the
  replaced text has been there before.

  Where the word is taken, what is left of it and the token go through the remaining rules as they
  are: there is no b before the space and no space after it.

  The text is cut at the word: `p`, the word and a space, the token `t`, and `s`.  The rules are
  followed over the three cuts by `Rule.before`, which runs a rule up to a place that no match
  covers, and by `Rule.scan` from there on.
-/
import CommerceOperations.Observability.Logging

namespace CommerceOperations

open Regex

namespace Logging

/-! ## The alphabet of tokens -/

/-- `[A-Za-z0-9._~+/=-]`, the characters of a bearer token. -/
def isToken (c : Char) : Bool := c.isAlphanum || c ∈ ['.', '_', '~', '+', '/', '=', '-']

/-- What holds of all ASCII characters holds of each, so that a fact about them can be decided by
    trying the 128. -/
theorem ascii_induction {P : Char → Prop} (h : ∀ n < 128, P (Char.ofNat n)) {c : Char}
    (hc : c.toNat < 128) : P c := by
  have hP := h c.toNat hc
  rw [Char.ofNat_toNat] at hP
  exact hP

/-- The letters and digits of the standard library are ASCII characters. -/
theorem ascii_of_isAlphanum {c : Char} (h : c.isAlphanum = true) : c.toNat < 128 := by
  have h : (decide (c.val ≥ 'A'.val ∧ c.val ≤ 'Z'.val) || (c.val ≥ 'a'.val && c.val ≤ 'z'.val) ||
      (c.val ≥ '0'.val && c.val ≤ '9'.val)) = true := h
  simp only [Bool.or_eq_true, Bool.and_eq_true, decide_eq_true_eq, ge_iff_le,
    UInt32.le_iff_toNat_le] at h
  have hz : 'z'.val.toNat = 122 := rfl
  have hZ : 'Z'.val.toNat = 90 := rfl
  have h9 : '9'.val.toNat = 57 := rfl
  show c.val.toNat < 128
  omega

/-- The characters of tokens are ASCII characters. -/
theorem ascii_of_isToken {c : Char} (h : isToken c = true) : c.toNat < 128 := by
  rcases (Bool.or_eq_true _ _).mp h with h | h
  · exact ascii_of_isAlphanum h
  · have hall : ∀ d ∈ ['.', '_', '~', '+', '/', '=', '-'], d.toNat < 128 := by decide
    exact hall c (of_decide_eq_true h)

/-- Apart from four, only ASCII characters stand for ASCII characters. -/
theorem ascii_of_caseFold {c : Char} (h : (caseFold c).toNat < 128) :
    c ∈ ['\u0130', '\u0131', '\u017f', '\u212a'] ∨ c.toNat < 128 := by
  by_cases hmem : c ∈ ['\u0130', '\u0131', '\u017f', '\u212a']
  · exact Or.inl hmem
  · refine Or.inr ?_
    simp only [List.mem_cons, List.not_mem_nil, or_false, not_or] at hmem
    obtain ⟨h1, h2, h3, h4⟩ := hmem
    rw [caseFold, if_neg (not_or.mpr ⟨h1, h2⟩), if_neg h3, if_neg h4] at h
    by_cases hupper : c.val ≥ 'A'.val ∧ c.val ≤ 'Z'.val
    · have hZ : 'Z'.val.toNat = 90 := rfl
      have hle := UInt32.le_iff_toNat_le.mp hupper.2
      show c.val.toNat < 128
      omega
    · have hsame : c.toLower = c := dif_neg hupper
      rwa [hsame] at h

/-- The third rule takes the characters of tokens.  It takes a few more, the four that count as
    letters where case is ignored. -/
theorem isLetterOr_of_isToken {c : Char} (h : isToken c = true) :
    isLetterOr ['.', '_', '~', '+', '/', '=', '-'] c = true := by
  have hall : ∀ n < 128, isToken (Char.ofNat n) = true →
      isLetterOr ['.', '_', '~', '+', '/', '=', '-'] (Char.ofNat n) = true := by
    decide
  exact ascii_induction (P := fun c => isToken c = true →
    isLetterOr ['.', '_', '~', '+', '/', '=', '-'] c = true) hall (ascii_of_isToken h) h

/-- What counts as a letter where case is ignored is a character of words.  For the four that are
    not ASCII this is what the parameter promises. -/
theorem isWord_of_isLetter [UnicodeData] {c : Char} (h : isLetter c = true) : isWord c = true := by
  have hbounds : 'a' ≤ caseFold c ∧ caseFold c ≤ 'z' := by
    simpa [isLetter] using h
  have hascii : (caseFold c).toNat < 128 := by
    have hle := UInt32.le_iff_toNat_le.mp hbounds.2
    have hz : 'z'.val.toNat = 122 := rfl
    show (caseFold c).val.toNat < 128
    omega
  rcases ascii_of_caseFold hascii with hmem | hascii
  · rw [isWord, UnicodeData.isalnum_folded c hmem, Bool.true_or]
  · have hall : ∀ n < 128, isLetter (Char.ofNat n) = true →
        (Char.ofNat n).isAlphanum = true := by decide
    have halnum := ascii_induction (P := fun c => isLetter c = true → c.isAlphanum = true) hall
      hascii h
    rw [isWord, UnicodeData.isalnum_ascii c hascii, halnum, Bool.true_or]

/-- No other characters stand for the letters of Bearer. -/
theorem mem_of_caseFold {c : Char} (h : caseFold c ∈ ['b', 'e', 'a', 'r']) :
    c ∈ ['b', 'e', 'a', 'r', 'B', 'E', 'A', 'R'] := by
  have hfour : ∀ d ∈ ['\u0130', '\u0131', '\u017f', '\u212a'],
      caseFold d ∉ ['b', 'e', 'a', 'r'] := by decide
  have hascii : ∀ d ∈ ['b', 'e', 'a', 'r'], d.toNat < 128 := by decide
  rcases ascii_of_caseFold (hascii _ h) with hmem | hascii
  · exact absurd h (hfour c hmem)
  · have hall : ∀ n < 128, caseFold (Char.ofNat n) ∈ ['b', 'e', 'a', 'r'] →
        Char.ofNat n ∈ ['b', 'e', 'a', 'r', 'B', 'E', 'A', 'R'] := by decide
    exact ascii_induction (P := fun c => caseFold c ∈ ['b', 'e', 'a', 'r'] →
      c ∈ ['b', 'e', 'a', 'r', 'B', 'E', 'A', 'R']) hall hascii h

/-! ## The word before the token -/

/-- The text "Bearer " that stands before a token. -/
def marker : List Char := "Bearer ".toList

variable [UnicodeData]

/-- What redaction makes of a text that the word Bearer follows, if in none of the three rules a
    match covers the beginning of the word. -/
def beforeMarker (p : List Char) : Option (List Char) :=
  ((sensitive.before marker 0 [] p).bind fun p₁ => email.before marker 0 [] p₁).bind fun p₂ =>
    bearer.before marker 0 [] p₂

/-- The word Bearer after `p` is left for the third rule. -/
def MarkerKept (p : List Char) : Prop := (beforeMarker p).isSome

instance (p : List Char) : Decidable (MarkerKept p) :=
  inferInstanceAs (Decidable ((beforeMarker p).isSome = true))

/-- A replacement of the first rule ends in a bracket. -/
theorem sensitive_closes : sensitive.Closes ']' :=
  fun g => ⟨g ++ "=[REDACTED".toList, by rw [List.append_assoc]; rfl⟩

/-- The replacement of the second rule does. -/
theorem email_closes : email.Closes ']' := fun _ => ⟨"[REDACTED_EMAIL".toList, rfl⟩

/-- The replacement of the third rule does. -/
theorem bearer_closes : bearer.Closes ']' := fun _ => ⟨"Bearer [REDACTED".toList, rfl⟩

/-- A closing bracket is in no word. -/
theorem not_isWord_close : isWord ']' = false := by
  rw [isWord, UnicodeData.isalnum_ascii _ (by decide)]
  decide

/-- No sensitive key is found in the word Bearer. -/
theorem sensitive_marker (l r : List Char) :
    sensitive.scan 0 l (marker ++ r) = marker ++ sensitive.scan 0 (l ++ marker) r := by
  have hneeds : sensitive.group.Needs fun c => caseFold c = 't' ∨ caseFold c = 'p' :=
    needs_keyword fun _ h => h
  have havoids : keyword.Avoids ' ' := by decide
  exact Rule.scan_word (w := "Bearer".toList) hneeds havoids (by decide)

/-- No address is found there either. -/
theorem email_marker (l r : List Char) :
    email.scan 0 l (marker ++ r) = marker ++ email.scan 0 (l ++ marker) r := by
  have hneeds : email.group.Needs fun c => c = '@' := needs_address rfl
  have havoids : address.Avoids ' ' := by decide
  exact Rule.scan_word (w := "Bearer".toList) hneeds havoids (by decide)

/-- A sensitive key before the word Bearer is not matched beyond the word: its value ends at the
    space after it. -/
theorem sensitive_within (l r : List Char) : sensitive.Within l (r ++ marker) := by
  have hspace : ∀ r' : List Char, ∃ c ∈ r' ++ marker, isValue c = false :=
    fun r' => ⟨' ', List.mem_append_right _ (by decide), by decide⟩
  have hkeyword : keyword.Avoids 'B' := by decide
  refine Pattern.within_seq (s := "earer ".toList) hkeyword fun l r => ?_
  refine Pattern.within_seq (c := 'B') (by decide) fun l r => ?_
  refine Pattern.within_seq (c := 'B') (by decide) fun l r => ?_
  exact Pattern.within_seq (c := 'B') (by decide) fun l r => hspace r

/-- An address is not matched beyond the word, as it has no space. -/
theorem email_within (l r : List Char) : email.Within l (r ++ marker) := by
  have hsplit : r ++ marker = (r ++ "Bearer".toList) ++ ' ' :: [] := by
    rw [List.append_assoc]
    rfl
  have havoids : (address.seq .empty).Avoids ' ' := by decide
  rw [hsplit]
  exact Pattern.within_of_avoids havoids

/-- The letters of a word are not found outside of words. -/
theorem avoids_bearer {c : Char} (hc : isWord c = false) :
    (literal "bearer".toList).Avoids c := by
  have hne : ∀ d ∈ "bearer".toList, caseFold c ≠ d := by
    intro d hd heq
    have hletter : isLetter c = true := by
      have hall : ∀ d ∈ "bearer".toList, ('a' ≤ d && d ≤ 'z') = true := by decide
      rw [isLetter, heq]
      exact hall d hd
    rw [isWord_of_isLetter hletter] at hc
    exact nomatch hc
  have havoids : ∀ text : List Char, (∀ d ∈ text, caseFold c ≠ d) → (literal text).Avoids c := by
    intro text htext
    induction text with
    | nil => trivial
    | cons d text ih =>
      exact ⟨decide_eq_false (htext d List.mem_cons_self),
        ih fun x hx => htext x (List.mem_cons_of_mem _ hx)⟩
  exact havoids _ hne

/-- A credential before the word Bearer is not matched beyond it, if the text there does not end in
    a word.  A match would need a blank in front of the word. -/
theorem bearer_within {l r : List Char} (hne : r ≠ []) (hr : ∀ c ∈ r.getLast?, isWord c = false) :
    bearer.Within l (r ++ marker) := by
  rcases List.eq_nil_or_concat' r with rfl | ⟨r, c, rfl⟩
  · exact absurd rfl hne
  · have hc : isWord c = false := hr c (by rw [List.getLast?_concat]; rfl)
    have hspace : ∀ r' : List Char, ∃ c ∈ r' ++ marker,
        isLetterOr ['.', '_', '~', '+', '/', '=', '-'] c = false :=
      fun r' => ⟨' ', List.mem_append_right _ (by decide), by decide⟩
    rw [List.append_assoc, List.singleton_append]
    refine ⟨Pattern.within_seq trivial fun l r' => ?_, fun _ _ => trivial⟩
    refine Pattern.within_seq (avoids_bearer hc) fun l r' => ?_
    have hsplit : r' ++ c :: marker = (r' ++ [c]) ++ 'B' :: "earer ".toList := by
      rw [List.append_assoc]
      rfl
    rw [hsplit]
    exact Pattern.within_seq (by decide) fun l r => hspace r

/-! ## The rules up to the word Bearer, and after it -/

/-- The first rule on a message whose word it leaves: what it makes of the text before, the word,
    and what it makes of the rest. -/
theorem sensitive_sub {p p₁ : List Char} (h : sensitive.before marker 0 [] p = some p₁)
    (r : List Char) : sensitive.sub (p ++ (marker ++ r)) =
      p₁ ++ (marker ++ sensitive.scan 0 (p ++ marker) r) := by
  have hbefore : sensitive.before (marker ++ r) 0 [] p = some p₁ := by
    rw [Rule.before_append fun a c b _ => sensitive_within _ (c :: b)]
    exact h
  rw [Rule.sub, Rule.scan_of_before hbefore, List.nil_append, sensitive_marker]

/-- The second rule on such a message. -/
theorem email_sub {p p₁ : List Char} (h : email.before marker 0 [] p = some p₁)
    (r : List Char) : email.sub (p ++ (marker ++ r)) =
      p₁ ++ (marker ++ email.scan 0 (p ++ marker) r) := by
  have hbefore : email.before (marker ++ r) 0 [] p = some p₁ := by
    rw [Rule.before_append fun a c b _ => email_within _ (c :: b)]
    exact h
  rw [Rule.sub, Rule.scan_of_before hbefore, List.nil_append, email_marker]

omit [UnicodeData] in
/-- The end of a text that has the end of another. -/
theorem getLast_of_append {a b : List Char} {c : Char} {P : Char → Prop}
    (h : ∀ d ∈ (a ++ c :: b).getLast?, P d) : ∀ d ∈ (c :: b).getLast?, P d := by
  rw [List.getLast?_append_of_ne_nil _ (List.cons_ne_nil _ _)] at h
  exact h

/-- Whether the third rule leaves the word does not depend on what follows it. -/
theorem bearer_before {p : List Char} (hp : ∀ c ∈ p.getLast?, isWord c = false)
    (r : List Char) : bearer.before (marker ++ r) 0 [] p = bearer.before marker 0 [] p := by
  refine Rule.before_append fun a c b hsplit => ?_
  rw [hsplit] at hp
  exact bearer_within (List.cons_ne_nil _ _) (getLast_of_append hp)

/-- The third rule on such a message.  The scan goes on at the word itself, which is where the token
    is removed. -/
theorem bearer_sub {p p₁ : List Char} (h : bearer.before marker 0 [] p = some p₁)
    (hp : ∀ c ∈ p.getLast?, isWord c = false) (r : List Char) :
    bearer.sub (p ++ (marker ++ r)) = p₁ ++ bearer.scan 0 p (marker ++ r) := by
  rw [← bearer_before hp r] at h
  rw [Rule.sub, Rule.scan_of_before h, List.nil_append]

omit [UnicodeData] in
/-- What a text accepts is the text, in any case. -/
theorem literal_accepts {word : Char → Bool} {text l u v : List Char}
    (h : (literal text).Accepts word l u v) : u.map caseFold = text := by
  induction text generalizing l u with
  | nil =>
    obtain rfl := h
    rfl
  | cons c text ih =>
    obtain ⟨_, b, rfl, ⟨x, hx, rfl⟩, hb⟩ := h
    have hx : caseFold x = c := of_decide_eq_true hx
    rw [List.singleton_append, List.map_cons, hx, ih hb]

omit [UnicodeData] in
/-- A credential is the word Bearer, spaces and characters of tokens. -/
theorem credential_accepts {word : Char → Bool} {l g v : List Char}
    (h : credential.Accepts word l g v) :
    ∃ bearer spaces token, g = bearer ++ (spaces ++ token) ∧
      bearer.map caseFold = "bearer".toList ∧
      (spaces ≠ [] ∧ ∀ d ∈ spaces, isSpace d = true) ∧
      (token ≠ [] ∧ ∀ d ∈ token, isLetterOr ['.', '_', '~', '+', '/', '=', '-'] d = true) := by
  obtain ⟨_, g, rfl, ⟨rfl, -⟩, h⟩ := h
  obtain ⟨bearer, g, rfl, hbearer, h⟩ := h
  obtain ⟨spaces, token, rfl, hspaces, htoken⟩ := h
  exact ⟨bearer, spaces, token, rfl, literal_accepts hbearer,
    ⟨List.ne_nil_of_length_pos hspaces.1, hspaces.2⟩,
    List.ne_nil_of_length_pos htoken.1, htoken.2⟩

/-- The third rule matches at a b only. -/
theorem bearer_first_none {l r : List Char} {c : Char} (hc : caseFold c ≠ 'b') :
    bearer.first l (c :: r) = none := by
  refine Rule.first_eq_none fun g e v hsplit hmatches => ?_
  obtain ⟨bearer, spaces, token, rfl, hbearer, -, -⟩ := credential_accepts hmatches.1
  cases bearer with
  | nil => exact nomatch hbearer
  | cons d bearer =>
    obtain ⟨rfl, -⟩ := List.cons.inj hsplit
    exact hc (List.cons.inj hbearer).1

/-- Where the third rule does not match at the word Bearer, the word is kept. -/
theorem bearer_marker {l r : List Char} (h : bearer.first l (marker ++ r) = none) :
    bearer.scan 0 l (marker ++ r) = marker ++ bearer.scan 0 (l ++ marker) r := by
  have hrest : ∀ c ∈ "earer ".toList, caseFold c ≠ 'b' := by decide
  refine Rule.scan_append fun a c b hsplit => ?_
  cases a with
  | nil =>
    rw [List.append_nil, ← List.nil_append (c :: b), ← hsplit]
    exact h
  | cons d a =>
    refine bearer_first_none (hrest c ?_)
    have htail : "earer ".toList = a ++ c :: b := (List.cons.inj hsplit).2
    rw [htail]
    exact List.mem_append_right _ List.mem_cons_self

/-- The word Bearer is at the beginning of a word. -/
theorem credential_left {l g v : List Char} (h : credential.Accepts isWord l g v) :
    ∀ d ∈ l.getLast?, isWord d = false := by
  obtain ⟨word, spaces, token, hg, hword, -, -⟩ := credential_accepts h
  obtain ⟨_, g', rfl, ⟨rfl, hat⟩, -⟩ := h
  rw [List.nil_append] at hg
  cases word with
  | nil => cases hword
  | cons b word =>
    have hb : isWord b = true := by
      refine isWord_of_isLetter ?_
      rw [isLetter, (List.cons.inj hword).1]
      decide
    rintro d hd
    have hat : (l.getLast?.any isWord != isWord b) = true := by
      rw [hg] at hat
      exact hat
    rw [Option.mem_def.mp hd, hb] at hat
    simpa using hat

/-! ## Where a token in the result comes from -/

/-- The pieces of a text in which the third rule replaces the word Bearer, in any case, and makes
    `t` of `x` and the beginning of the replacement.  Of the credential after the word only the
    first character is of interest. -/
structure Recasting (t x word spaces : List Char) (c : Char) : Prop where
  /-- the token is a piece of text and the beginning of the word that the rule writes -/
  made : ∃ y, t = x ++ y ∧ y ≠ [] ∧ y <+: "Bearer".toList
  /-- the replaced word is at the beginning of a word -/
  left : ∀ d ∈ x.getLast?, isWord d = false
  /-- it is Bearer, in any case -/
  word : word.map caseFold = "bearer".toList
  /-- there is space after it -/
  spaces_ne_nil : spaces ≠ []
  /-- and nothing else -/
  spaces : ∀ d ∈ spaces, isSpace d = true
  /-- and then a character the rule takes -/
  token : isLetterOr ['.', '_', '~', '+', '/', '=', '-'] c = true

/-- A recasting leads to `t`, and its text stands in `w`. -/
def Recast (w t : List Char) : Prop :=
  ∃ x word spaces c, Recasting t x word spaces c ∧ x ++ (word ++ (spaces ++ [c])) <:+: w

/-- `w` has an assignment to a sensitive key, and `t` is the end of what the first rule leaves
    before the value: text up to the end of the key, and an equals sign. -/
def Reassigned (w t : List Char) : Prop :=
  ∃ z a g e v, t = z ++ ['='] ∧ w = a ++ (g ++ (e ++ v)) ∧ (∃ l r, sensitive.Matches l g e r) ∧
    z <:+ a ++ g

/-- A replacement in `w` puts `t` together with the text before it. -/
def Assembled (w t : List Char) : Prop := Recast w t ∨ Reassigned w t

/-- What a token is made of, and that no replacement is made of it. -/
structure TokenLike (t : List Char) : Prop where
  /-- it is not empty -/
  ne_nil : t ≠ []
  /-- and has characters of tokens only -/
  token : ∀ c ∈ t, isToken c = true
  /-- it is not in the text of the first replacement -/
  notSensitive : ¬t <:+: "=[REDACTED]".toList
  /-- nor in that of the second -/
  notEmail : ¬t <:+: "[REDACTED_EMAIL]".toList

omit [UnicodeData] in
/-- What is no character of tokens is not in the token. -/
theorem TokenLike.not_mem {t : List Char} (h : TokenLike t) {c : Char}
    (hc : isToken c = false) : c ∉ t := by
  intro hmem
  rw [h.token c hmem] at hc
  exact nomatch hc

/-- Through the second rule: a token in its result was in its text, for its replacement begins and
    ends in a bracket. -/
theorem exists_of_email {l w t a' b : List Char} (ht : TokenLike t)
    (h : email.scan 0 l w = a' ++ (t ++ b)) :
    ∃ a b', w = a ++ (t ++ b') ∧ (a' ≠ [] → a ≠ []) := by
  rcases Rule.exists_of_scan email_closes (ht.not_mem (by decide)) ht.ne_nil h with
    hfound | ⟨a, q, ⟨x, g, e, v, y, z, -, -, hxy, hy, hnew, hxq⟩, -⟩
  · exact hfound
  · exfalso
    rcases hxq with rfl | rfl
    · rw [List.nil_append] at hxy
      rw [hxy] at ht
      exact ht.notEmail ⟨q, z, by rw [List.append_assoc]; exact hnew.symm⟩
    · -- the replacement begins with a bracket
      obtain ⟨c, y, rfl⟩ := List.exists_cons_of_ne_nil hy
      have hc : '[' = c := (List.cons.inj hnew).1
      refine ht.not_mem (c := '[') (by decide) ?_
      rw [hxy, hc]
      exact List.mem_append_right _ List.mem_cons_self

/-- Of a replacement in the first rule a token has a piece of the key, and maybe the equals sign. -/
theorem exists_of_new {t x y z q g l v : List Char} (ht : TokenLike t) (hxy : t = x ++ y)
    (hg : keyword.Accepts isWord l g v) (hnew : g ++ "=[REDACTED]".toList = q ++ (y ++ z))
    (hxq : x = [] ∨ q = []) :
    ∃ k k', g = q ++ (k ++ k') ∧ (y = k ∨ y = k ++ ['='] ∧ k' = []) := by
  have hbracket : '[' ∉ y := fun hmem =>
    ht.not_mem (c := '[') (by decide) (by rw [hxy]; exact List.mem_append_right _ hmem)
  rcases List.append_eq_append_iff.mp hnew with ⟨k, hk, hrest⟩ | ⟨k, hk, hrest⟩
  · -- it would have none of the key
    exfalso
    rcases hxq with rfl | rfl
    · rw [List.nil_append] at hxy
      exact ht.notSensitive ⟨k, z, by rw [hxy, List.append_assoc]; exact hrest.symm⟩
    · have hnil : g = [] := (List.append_eq_nil_iff.mp hk.symm).1
      exact hg.ne_nil (needs_keyword fun _ _ => trivial) hnil
  · rcases List.append_eq_append_iff.mp hrest with ⟨k', hk', -⟩ | ⟨m, hm, hrest⟩
    · exact ⟨y, k', by rw [hk, hk'], Or.inl rfl⟩
    · refine ⟨k, [], by rw [hk, List.append_nil], ?_⟩
      rcases m with _ | ⟨c, m⟩
      · exact Or.inl (by rw [hm, List.append_nil])
      · have htext : '=' :: '[' :: "REDACTED]".toList = c :: (m ++ z) := hrest
        obtain ⟨rfl, hafter⟩ := List.cons.inj htext
        rcases m with _ | ⟨d, m⟩
        · exact Or.inr ⟨hm, rfl⟩
        · obtain ⟨rfl, -⟩ := List.cons.inj hafter
          refine absurd ?_ hbracket
          rw [hm]
          exact List.mem_append_right _ (List.mem_cons_of_mem _ List.mem_cons_self)

/-- Through the first rule: the token is in the text, or it is the end of a key and the equals sign
    that the rule writes. -/
theorem exists_of_sensitive {l w t a' b : List Char} (ht : TokenLike t)
    (h : sensitive.scan 0 l w = a' ++ (t ++ b)) :
    (∃ a b', w = a ++ (t ++ b') ∧ (a' ≠ [] → a ≠ [])) ∨
      ∃ z a g e v k, t = z ++ ['='] ∧ w = a ++ (g ++ (e ++ v)) ∧
        sensitive.Matches (l ++ a) g e v ∧ a ++ g = k ++ z ∧ (a' ≠ [] → k ≠ []) := by
  rcases Rule.exists_of_scan sensitive_closes (ht.not_mem (by decide)) ht.ne_nil h with
    ⟨a, b', hw, ha⟩ | ⟨a, q, ⟨x, g, e, v, y, z, hw, hmatches, hxy, hy, hnew, hxq⟩, ha⟩
  · exact Or.inl ⟨a, b', hw, ha⟩
  · have hplace : a' ≠ [] → a ++ q ≠ [] := by
      intro hne
      rcases ha hne with ha | hq
      · exact fun hnil => ha (List.append_eq_nil_iff.mp hnil).1
      · exact fun hnil => hq (List.append_eq_nil_iff.mp hnil).2
    obtain ⟨k, k', rfl, hk⟩ := exists_of_new ht hxy hmatches.1 hnew hxq
    rcases hk with rfl | ⟨rfl, rfl⟩
    · refine Or.inl ⟨a ++ q, k' ++ (e ++ v), ?_, hplace⟩
      rcases hxq with rfl | rfl
      · rw [hw, hxy]
        simp only [List.append_assoc, List.nil_append]
      · rw [hw, hxy]
        simp only [List.append_assoc, List.nil_append, List.append_nil]
    · refine Or.inr ⟨x ++ k, a ++ x, q ++ (k ++ []), e, v, a ++ q, ?_, ?_, hmatches, ?_, hplace⟩
      · rw [hxy, List.append_assoc]
      · rw [hw]
        simp only [List.append_assoc]
      · rcases hxq with rfl | rfl
        · simp only [List.append_assoc, List.nil_append, List.append_nil]
        · simp only [List.append_assoc, List.nil_append, List.append_nil]

/-- Through the third rule: the token is in the text, or it is put together with the word Bearer
    that the rule writes. -/
theorem exists_of_bearer {l w t a' b : List Char} (ht : TokenLike t)
    (hbearer : ¬t <:+: "Bearer [REDACTED]".toList) (h : bearer.scan 0 l w = a' ++ (t ++ b)) :
    (∃ a b', w = a ++ (t ++ b') ∧ (a' ≠ [] → a ≠ [])) ∨
      ∃ x word spaces c a b', Recasting t x word spaces c ∧
        w = a ++ (x ++ (word ++ (spaces ++ [c])) ++ b') ∧ (a' ≠ [] → a ≠ []) := by
  rcases Rule.exists_of_scan bearer_closes (ht.not_mem (by decide)) ht.ne_nil h with
    ⟨a, b', hw, ha⟩ | ⟨a, q, ⟨x, g, e, v, y, z, hw, hmatches, hxy, hy, hnew, hxq⟩, ha⟩
  · exact Or.inl ⟨a, b', hw, ha⟩
  · have hnew : "Bearer".toList ++ ' ' :: "[REDACTED]".toList = q ++ (y ++ z) := hnew
    by_cases hx : x = []
    · rw [hx, List.nil_append] at hxy
      exact absurd ⟨q, z, by rw [hxy, List.append_assoc]; exact hnew.symm⟩ hbearer
    · obtain rfl := hxq.resolve_left hx
      rw [List.nil_append] at hnew
      have hspace : ' ' ∉ y := fun hmem =>
        ht.not_mem (c := ' ') (by decide) (by rw [hxy]; exact List.mem_append_right _ hmem)
      obtain ⟨k, hk, -⟩ := Pattern.exists_left hnew hspace
      have hleft := credential_left hmatches.1
      rw [← List.append_assoc, List.getLast?_append_of_ne_nil _ hx] at hleft
      obtain ⟨word, spaces, token, rfl, hword, hspaces, htoken⟩ := credential_accepts hmatches.1
      obtain ⟨c, token, rfl⟩ := List.exists_cons_of_ne_nil htoken.1
      refine Or.inr ⟨x, word, spaces, c, a, token ++ (e ++ v),
        ⟨⟨y, hxy, hy, k, hk.symm⟩, hleft, hword, hspaces.1, hspaces.2,
          htoken.2 c List.mem_cons_self⟩, ?_, fun hne => ?_⟩
      · rw [hw]
        simp only [List.append_assoc, List.cons_append, List.nil_append]
      · rcases ha hne with ha | ha
        · exact ha
        · exact absurd rfl ha

/-! ## The text around a replaced word -/

/-- A text without brackets that ends in a space and one more character.  No replacement but the
    third rule's has a space, so the first two rules leave it as it is. -/
structure Spaced (u : List Char) : Prop where
  /-- no bracket opens -/
  opening : '[' ∉ u
  /-- or closes -/
  closing : ']' ∉ u
  /-- the last character but one is a space -/
  space : ∃ v d c, u = v ++ [d, c] ∧ isSpace d = true

omit [UnicodeData] in
/-- Such a text has at least two characters. -/
theorem Spaced.ne_nil {u : List Char} (h : Spaced u) : u ≠ [] := by
  obtain ⟨v, d, c, rfl, -⟩ := h.space
  exact List.append_ne_nil_of_right_ne_nil _ (List.cons_ne_nil _ _)

omit [UnicodeData] in
/-- No keyword of the first rule has a space in it. -/
theorem keyword_avoids_space {c : Char} (hc : isSpace c = true) : keyword.Avoids c := by
  have hall :
    ∀ n ∈ [9, 10, 11, 12, 13, 28, 29, 30, 31, 32, 8192, 8193, 8194, 8195, 8196, 8197, 8198,
      8199, 8200, 8201, 8202, 133, 160, 5760, 8232, 8233, 8239, 8287, 12288],
      keyword.Avoids (Char.ofNat n) := by decide
  have hmem := hall c.toNat (by
    simp only [isSpace, Bool.or_eq_true, Bool.and_eq_true, decide_eq_true_eq, List.mem_cons,
      List.not_mem_nil, or_false] at hc ⊢
    omega)
  rwa [Char.ofNat_toNat] at hmem

/-- The replacement of an assignment has no space either. -/
theorem not_space_of_new {l g v : List Char} (hg : keyword.Accepts isWord l g v) {d : Char}
    (hd : isSpace d = true) : d ∉ g ++ "=[REDACTED]".toList := by
  rw [List.mem_append, not_or]
  refine ⟨hg.not_mem (keyword_avoids_space hd), fun hmem => ?_⟩
  have hall : ∀ d ∈ "=[REDACTED]".toList, isSpace d = false := by decide
  rw [hall d hmem] at hd
  cases hd

/-- Through the second rule: the text was there.  An address has no space and its replacement has
    none. -/
theorem Spaced.exists_of_email {l w u a' b : List Char} (hu : Spaced u)
    (h : email.scan 0 l w = a' ++ (u ++ b)) :
    ∃ a b', w = a ++ (u ++ b') ∧ (a' ≠ [] → a ≠ []) := by
  obtain ⟨v, d, c, hv, hd⟩ := hu.space
  rcases Rule.exists_of_scan email_closes hu.closing hu.ne_nil h with
    hfound | ⟨a, q, ⟨x, g, e, v', y, z, -, -, hxy, hy, hnew, hxq⟩, -⟩
  · exact hfound
  · exfalso
    rcases hxq with rfl | rfl
    · -- it would be a part of the replacement, which has no space
      have hmem : d ∈ "[REDACTED_EMAIL]".toList := by
        have hnew : "[REDACTED_EMAIL]".toList = q ++ (y ++ z) := hnew
        rw [List.nil_append] at hxy
        rw [hnew, ← hxy, hv]
        simp
      have hall : ∀ d ∈ "[REDACTED_EMAIL]".toList, isSpace d = false := by decide
      rw [hall d hmem] at hd
      cases hd
    · obtain ⟨c', y, rfl⟩ := List.exists_cons_of_ne_nil hy
      have hc : '[' = c' := (List.cons.inj hnew).1
      refine hu.opening ?_
      rw [hxy, hc]
      exact List.mem_append_right _ List.mem_cons_self

/-- Through the first rule: the text was there.  A replacement is a key, an equals sign and a
    bracketed word; the text cannot begin in it, having no bracket, nor end in it, having a space
    before its last character. -/
theorem Spaced.exists_of_sensitive {l w u a' b : List Char} (hu : Spaced u)
    (h : sensitive.scan 0 l w = a' ++ (u ++ b)) :
    ∃ a b', w = a ++ (u ++ b') ∧ (a' ≠ [] → a ≠ []) := by
  obtain ⟨v, d, c, hv, hd⟩ := hu.space
  rcases Rule.exists_of_scan sensitive_closes hu.closing hu.ne_nil h with
    hfound | ⟨a, q, ⟨x, g, e, v', y, z, hw, hmatches, hxy, hy, hnew, hxq⟩, ha⟩
  · exact hfound
  · have hnew : g ++ "=[REDACTED]".toList = q ++ (y ++ z) := hnew
    have hnot : d ∉ y := fun hmem => not_space_of_new hmatches.1 hd (by
      rw [hnew]
      exact List.mem_append_right _ (List.mem_append_left _ hmem))
    rcases hxq with rfl | rfl
    · refine absurd ?_ hnot
      rw [List.nil_append] at hxy
      rw [← hxy, hv]
      simp
    · -- the replacement has the last character only, which is the key's first one
      rw [hxy] at hv
      have hsplit : x ++ y = (v ++ [d]) ++ [c] := by rw [hv, List.append_assoc]; rfl
      obtain ⟨y, c', rfl⟩ := (List.eq_nil_or_concat' y).resolve_left hy
      rw [← List.append_assoc] at hsplit
      obtain ⟨hx, hc⟩ := List.append_inj' hsplit rfl
      obtain rfl := List.singleton_inj.mp hc
      have hy : y = [] := by
        rcases List.eq_nil_or_concat' y with rfl | ⟨y, d', rfl⟩
        · rfl
        · rw [← List.append_assoc] at hx
          obtain rfl := List.singleton_inj.mp (List.append_inj' hx rfl).2
          exact absurd (List.mem_append_left _ (List.mem_append_right _
            (List.mem_singleton_self _))) hnot
      subst hy
      obtain ⟨c, g, rfl⟩ := List.exists_cons_of_ne_nil
        (sensitive.group_ne_nil _ _ _ hmatches.1)
      obtain ⟨rfl, -⟩ := List.cons.inj hnew
      refine ⟨a, g ++ (e ++ v'), ?_, fun hne => (ha hne).resolve_right fun hq => hq rfl⟩
      rw [hw, hxy]
      simp only [List.append_assoc, List.cons_append, List.nil_append]

omit [UnicodeData] in
/-- The letters of Bearer, in any case. -/
theorem isToken_of_word {word : List Char} (h : word.map caseFold = "bearer".toList) :
    ∀ d ∈ word, isToken d = true := by
  intro d hd
  have hfold : caseFold d ∈ ['b', 'e', 'a', 'r'] := by
    have hmem : caseFold d ∈ word.map caseFold := List.mem_map_of_mem hd
    rw [h] at hmem
    have hall : ∀ c ∈ "bearer".toList, c ∈ ['b', 'e', 'a', 'r'] := by decide
    exact hall _ hmem
  have hall : ∀ c ∈ ['b', 'e', 'a', 'r', 'B', 'E', 'A', 'R'], isToken c = true := by decide
  exact hall d (mem_of_caseFold hfold)

/-- The text in which the third rule puts a token together. -/
theorem Recasting.spaced {t x word spaces : List Char} {c : Char} (ht : TokenLike t)
    (h : Recasting t x word spaces c) : Spaced (x ++ (word ++ (spaces ++ [c]))) := by
  obtain ⟨y, rfl, -, -⟩ := h.made
  have hnot : ∀ d : Char, isToken d = false → isSpace d = false →
      isLetterOr ['.', '_', '~', '+', '/', '=', '-'] d = false →
      d ∉ x ++ (word ++ (spaces ++ [c])) := by
    intro d htoken hspace hletter
    simp only [List.mem_append, List.mem_singleton, not_or]
    refine ⟨fun hmem => ?_, fun hmem => ?_, fun hmem => ?_, ?_⟩
    · rw [ht.token d (List.mem_append_left _ hmem)] at htoken
      cases htoken
    · rw [isToken_of_word h.word d hmem] at htoken
      cases htoken
    · rw [h.spaces d hmem] at hspace
      cases hspace
    · rintro rfl
      rw [h.token] at hletter
      cases hletter
  obtain ⟨before, d, hspaces⟩ := (List.eq_nil_or_concat' spaces).resolve_left h.spaces_ne_nil
  refine ⟨hnot '[' (by decide) (by decide) (by decide),
    hnot ']' (by decide) (by decide) (by decide), x ++ (word ++ before), d, c, ?_, ?_⟩
  · rw [hspaces]
    simp only [List.append_assoc, List.singleton_append]
  · refine h.spaces d ?_
    rw [hspaces]
    exact List.mem_append_right _ (List.mem_singleton_self _)

omit [UnicodeData] in
/-- A text that stands in two others with a symbol between them, and has not that symbol, stands in
    one of the two. -/
theorem infix_of_not_mem {z w r : List Char} {c : Char} (h : z <:+: w ++ c :: r) (hc : c ∉ z) :
    z <:+: w ∨ z <:+: r := by
  obtain ⟨a, b, hab⟩ := h
  rw [List.append_assoc] at hab
  rcases List.append_eq_append_iff.mp hab with ⟨k, hk, hrest⟩ | ⟨k, hk, hrest⟩
  · -- it begins in the first
    obtain ⟨k', hk', -⟩ := Pattern.exists_left hrest.symm hc
    exact Or.inl ⟨a, k', by rw [hk, hk', List.append_assoc]⟩
  · rcases k with _ | ⟨d, k⟩
    · cases z with
      | nil => exact Or.inl ⟨[], w, rfl⟩
      | cons d z =>
        obtain ⟨rfl, -⟩ := List.cons.inj hrest
        exact absurd List.mem_cons_self hc
    · obtain ⟨-, hrest⟩ := List.cons.inj hrest
      refine Or.inr ⟨k, b, ?_⟩
      rw [hrest, List.append_assoc]
      rfl

/-! ## A message with a token -/

/-- A message `p`, "Bearer ", `t`, `s`: the token `t` has a letter and is as long as it can be, the
    word Bearer is a word of its own, and the token is nowhere else, nor in a replacement. -/
structure BearerMessage (p t s : List Char) : Prop where
  /-- the token has characters of tokens only -/
  token : ∀ c ∈ t, isToken c = true
  /-- one of them a letter -/
  letter : ∃ c ∈ t, c.isAlpha = true
  /-- the word Bearer begins a word -/
  left : ∀ c ∈ p.getLast?, isWord c = false
  /-- the token is as long as it can be -/
  right : ∀ c ∈ s.head?, isToken c = false
  /-- it is not before the word -/
  notLeft : ¬t <:+: p
  /-- nor after the token -/
  notRight : ¬t <:+: s
  /-- nor in a replacement of the first rule -/
  notSensitive : ¬t <:+: "=[REDACTED]".toList
  /-- nor in one of the second -/
  notEmail : ¬t <:+: "[REDACTED_EMAIL]".toList
  /-- nor in one of the third -/
  notBearer : ¬t <:+: "Bearer [REDACTED]".toList

variable {p t s : List Char}

/-- The token of a message is one. -/
theorem BearerMessage.tokenLike (h : BearerMessage p t s) : TokenLike t := by
  obtain ⟨c, hc, -⟩ := h.letter
  exact ⟨List.ne_nil_of_mem hc, h.token, h.notSensitive, h.notEmail⟩

/-- A text of token characters that begins after the token's first character is in what follows the
    token, or inside the token, because the token is as long as it can be. -/
theorem BearerMessage.after_or (h : BearerMessage p t s) {a u b : List Char}
    (hsplit : t ++ s = a ++ (u ++ b)) (hu : ∀ c ∈ u, isToken c = true) :
    (∃ k, s = k ++ (u ++ b)) ∨ ∃ k, t = a ++ (u ++ k) := by
  rcases List.append_eq_append_iff.mp hsplit with ⟨k, -, hk⟩ | ⟨k, hk, hrest⟩
  · exact Or.inl ⟨k, hk⟩
  · rcases List.append_eq_append_iff.mp hrest with ⟨k', hk', -⟩ | ⟨m, hm, hs⟩
    · exact Or.inr ⟨k', by rw [hk, hk']⟩
    · rcases m with _ | ⟨c, m⟩
      · rw [List.append_nil] at hm
        exact Or.inr ⟨[], by rw [hk, hm, List.append_nil]⟩
      · have hc : isToken c = true := by
          refine hu c ?_
          rw [hm]
          exact List.mem_append_right _ List.mem_cons_self
        have hright := h.right c (by rw [hs]; rfl)
        rw [hc] at hright
        exact nomatch hright

/-- An assignment after the token's first character that the first rule makes the token of is in
    what follows the token. -/
theorem BearerMessage.reassigned_after (h : BearerMessage p t s) {z a g e v k l : List Char}
    (ht : t = z ++ ['=']) (hsplit : t ++ s = a ++ (g ++ (e ++ v)))
    (hmatches : sensitive.Matches l g e v) (hz : a ++ g = k ++ z) (hk : k ≠ []) :
    Reassigned s t := by
  have hequals : keyword.Avoids '=' := by decide
  have hlength := congrArg List.length hz
  have hpos := List.length_pos_iff.mpr hk
  simp only [List.length_append] at hlength
  -- a key that begins after the token: what is before it there is no part of the token
  have hafter : ∀ a', a = t ++ a' → s = a' ++ (g ++ (e ++ v)) → Reassigned s t := by
    intro a' ha hs
    refine ⟨z, a', g, e, v, ht, hs, ⟨l, v, hmatches⟩, ?_⟩
    rw [ha, List.append_assoc] at hz
    rcases List.append_eq_append_iff.mp hz with ⟨k', -, hk'⟩ | ⟨k', hk', hz'⟩
    · exact ⟨k', hk'.symm⟩
    · rcases List.eq_nil_or_concat' k' with rfl | ⟨k', d, rfl⟩
      · exact ⟨[], by rw [hz']; rfl⟩
      · -- `z` would have the first character after the token
        obtain ⟨c, r, hcr⟩ := List.exists_cons_of_ne_nil
          (show a' ++ g ≠ [] from List.append_ne_nil_of_right_ne_nil _
            (sensitive.group_ne_nil _ _ _ hmatches.1))
        have hhead : c ∈ s.head? := by
          rw [hs, ← List.append_assoc, hcr]
          rfl
        have hmem : c ∈ z := by
          rw [hz', hcr]
          exact List.mem_append_right _ List.mem_cons_self
        have hfalse := h.right c hhead
        rw [h.token c (by rw [ht]; exact List.mem_append_left _ hmem)] at hfalse
        cases hfalse
  rcases List.append_eq_append_iff.mp hsplit with ⟨a', ha, hs⟩ | ⟨m, hm, hrest⟩
  · exact hafter a' ha hs
  · rcases List.eq_nil_or_concat' m with rfl | ⟨m, d, rfl⟩
    · rw [List.append_nil] at hm
      exact hafter [] (by rw [List.append_nil, hm]) hrest.symm
    · -- one that begins in it would end before the equals sign
      exfalso
      rw [ht, ← List.append_assoc] at hm
      obtain ⟨hm, hd⟩ := List.append_inj' hm rfl
      obtain rfl := List.singleton_inj.mp hd
      rw [List.append_assoc, List.singleton_append] at hrest
      obtain ⟨r, hr, -⟩ := Pattern.exists_left hrest.symm (hmatches.1.not_mem hequals)
      have h1 := congrArg List.length hm
      have h2 := congrArg List.length hr
      simp only [List.length_append] at h1 h2
      omega

/-- The token is not in what the rules leave of the text after it.  Backwards through the third
    rule, the second and the first, it would be in the text after it, which it is not, or put
    together there. -/
theorem BearerMessage.not_after (h : BearerMessage p t s) (hs : ¬Assembled s t)
    {l₁ l₂ l r v : List Char}
    (hrest : email.scan 0 l₂ (sensitive.scan 0 l₁ (t ++ s)) = r ++ v)
    (hstart : r = [] → ∀ c ∈ v.head?, isToken c = false) :
    ¬t <:+: bearer.scan 0 l v := by
  rintro ⟨a', b, hab⟩
  rw [List.append_assoc] at hab
  have ht := h.tokenLike
  -- after `r` alone there is no token character, so the token does not begin there
  have hlater : ∀ {a u b : List Char}, v = a ++ (u ++ b) → u ≠ [] →
      (∀ c ∈ u.head?, isToken c = true) → r ++ a ≠ [] := by
    rintro a u b rfl hu htoken hnil
    obtain ⟨rfl, rfl⟩ := List.append_eq_nil_iff.mp hnil
    obtain ⟨c, u, rfl⟩ := List.exists_cons_of_ne_nil hu
    have hfalse := hstart rfl c rfl
    rw [htoken c rfl] at hfalse
    cases hfalse
  rcases exists_of_bearer ht h.notBearer hab.symm with
    ⟨a, b', hv, -⟩ | ⟨x, word, spaces, c, a, b', hr, hv, -⟩
  -- the third rule left it whole: it is in what the second rule made
  · have hne := hlater hv ht.ne_nil fun c hc => ht.token c (List.mem_of_mem_head? hc)
    rw [hv, ← List.append_assoc] at hrest
    obtain ⟨a₁, b₁, hsensitive, ha₁⟩ := exists_of_email ht hrest
    rcases exists_of_sensitive ht hsensitive with
      ⟨a₀, b₀, hsplit, ha₀⟩ | ⟨z, a₀, g, e, v', k, hz, hsplit, hmatches, hk, hne'⟩
    · have hpos := List.length_pos_iff.mpr (ha₀ (ha₁ hne))
      rcases h.after_or hsplit ht.token with ⟨k, hk⟩ | ⟨k, hk⟩
      · exact h.notRight ⟨k, b₀, by rw [hk, List.append_assoc]⟩
      · have hlength := congrArg List.length hk
        simp only [List.length_append] at hlength
        omega
    · exact hs (.inr (h.reassigned_after hz hsplit hmatches hk (hne' (ha₁ hne))))
  -- the third rule put it together: its beginning and the word Bearer are in the text before
  · obtain ⟨y, hy, -, hprefix⟩ := hr.made
    have hspaced := hr.spaced ht
    have htoken : ∀ c ∈ x ++ word, isToken c = true := by
      intro c hc
      rcases List.mem_append.mp hc with hc | hc
      · exact ht.token c (by rw [hy]; exact List.mem_append_left _ hc)
      · exact isToken_of_word hr.word c hc
    have hword : word.length = 6 := by
      have := congrArg List.length hr.word
      rwa [List.length_map] at this
    have hne : r ++ a ≠ [] := by
      refine hlater hv hspaced.ne_nil fun c hc => htoken c ?_
      have hnonempty : x ++ word ≠ [] :=
        List.append_ne_nil_of_right_ne_nil _ (List.ne_nil_of_length_pos (by omega))
      rw [← List.append_assoc, List.head?_append_of_ne_nil _ hnonempty] at hc
      exact List.mem_of_mem_head? hc
    rw [hv, ← List.append_assoc] at hrest
    obtain ⟨a₁, b₁, hsensitive, ha₁⟩ := hspaced.exists_of_email hrest
    obtain ⟨a₀, b₀, hsplit, ha₀⟩ := hspaced.exists_of_sensitive hsensitive
    have hpos := List.length_pos_iff.mpr (ha₀ (ha₁ hne))
    have hregroup : t ++ s = a₀ ++ ((x ++ word) ++ (spaces ++ [c] ++ b₀)) := by
      rw [hsplit]
      simp only [List.append_assoc]
    rcases h.after_or hregroup htoken with ⟨k, hk⟩ | ⟨k, hk⟩
    · refine hs (.inl ⟨x, word, spaces, c, hr, k, b₀, ?_⟩)
      rw [hk]
      simp only [List.append_assoc]
    · -- the token is shorter than this text
      have hlength := congrArg List.length hk
      have hmade := congrArg List.length hy
      have hy6 : y.length ≤ 6 := hprefix.length_le
      simp only [List.length_append] at hlength hmade
      omega

/-- The word Bearer alone is no credential. -/
theorem bearer_first_marker (l : List Char) : bearer.first l (marker ++ []) = none := by
  refine Rule.first_eq_none fun g e v hsplit hmatches => ?_
  obtain ⟨word, spaces, token, rfl, hword, hspaces, htoken⟩ := credential_accepts hmatches.1
  have hlength := congrArg List.length hsplit
  have hsix := congrArg List.length hword
  have hseven : (marker ++ []).length = 7 := by decide
  have hbearer : "bearer".toList.length = 6 := by decide
  have h1 := List.length_pos_iff.mpr hspaces.1
  have h2 := List.length_pos_iff.mpr htoken.1
  rw [List.length_map] at hsix
  simp only [List.length_append] at hlength hseven
  omega

omit [UnicodeData] in
/-- A text that is in `p` and the word Bearer after it, but in neither, begins in the one and ends
    in the other. -/
theorem straddles {t p : List Char} (hin : t <:+: p ++ "Bearer".toList) (hp : ¬t <:+: p)
    (hword : ¬t <:+: "Bearer".toList) :
    ∃ k x y, p = k ++ x ∧ t = x ++ y ∧ y ≠ [] ∧ y <+: "Bearer".toList := by
  obtain ⟨a, b, hab⟩ := hin
  rw [List.append_assoc] at hab
  rcases List.append_eq_append_iff.mp hab with ⟨x, hx, hrest⟩ | ⟨k, -, hrest⟩
  · rcases List.append_eq_append_iff.mp hrest with ⟨m, hm, -⟩ | ⟨y, hy, hy'⟩
    · exact absurd ⟨a, m, by rw [hx, hm, List.append_assoc]⟩ hp
    · refine ⟨a, x, y, hx, hy, ?_, b, hy'.symm⟩
      rintro rfl
      exact hp ⟨a, [], by rw [hx, hy, List.append_nil, List.append_nil]⟩
  · exact absurd ⟨k, b, by rw [hrest, List.append_assoc]⟩ hword

/-- The token is not in what the rules leave of the text before it and the word Bearer.  Backwards
    as in `not_after`; what straddles the word has the letters of it that a replacement writes, too.
    -/
theorem BearerMessage.not_before (h : BearerMessage p t s)
    (hp : ¬Assembled (p ++ (marker ++ t)) t) {p₁ p₂ p₃ : List Char}
    (h₁ : sensitive.before marker 0 [] p = some p₁) (h₂ : email.before marker 0 [] p₁ = some p₂)
    (h₃ : bearer.before marker 0 [] p₂ = some p₃) (hlast : ∀ c ∈ p₂.getLast?, isWord c = false) :
    ¬t <:+: p₃ ++ "Bearer".toList := by
  rintro ⟨a', b, hab⟩
  have ht := h.tokenLike
  -- what the rules make of `p` and the word, without anything after it
  have hsensitive := sensitive_sub h₁ []
  have hemail := email_sub h₂ []
  have hbearer := bearer_sub h₃ hlast []
  rw [Rule.scan_nil, List.append_nil] at hsensitive hemail
  rw [bearer_marker (bearer_first_marker p₂), Rule.scan_nil, List.append_nil] at hbearer
  have hin : bearer.scan 0 [] (p₂ ++ marker) = a' ++ (t ++ (b ++ [' '])) := by
    have hmarker : marker = "Bearer".toList ++ [' '] := rfl
    rw [Rule.sub] at hbearer
    rw [hbearer, hmarker, ← List.append_assoc p₃, ← hab]
    simp only [List.append_assoc]
  rcases exists_of_bearer ht h.notBearer hin with
    ⟨a, b', hw, -⟩ | ⟨x, word, spaces, c, a, b', hr, hw, -⟩
  · obtain ⟨a₁, b₁, hw₁, -⟩ := exists_of_email ht (hemail.trans hw)
    rcases exists_of_sensitive ht (hsensitive.trans hw₁) with
      ⟨a₀, b₀, hw₀, -⟩ | ⟨z, a₀, g, e, v, k, hz, hw₀, hmatches, hk, -⟩
    · -- the end of `p` and the word itself make the token
      have hmessage : t <:+: (p ++ "Bearer".toList) ++ ' ' :: [] :=
        ⟨a₀, b₀, by rw [List.append_assoc, ← hw₀, List.append_assoc]; rfl⟩
      have hinfix : t <:+: p ++ "Bearer".toList := by
        rcases infix_of_not_mem hmessage (ht.not_mem (by decide)) with hinfix | hinfix
        · exact hinfix
        · exact absurd (List.infix_nil.mp hinfix) ht.ne_nil
      have hword : ¬t <:+: "Bearer".toList :=
        fun hin => h.notBearer (hin.trans ⟨[], " [REDACTED]".toList, rfl⟩)
      obtain ⟨k, x, y, rfl, hxy, hne, hy⟩ := straddles hinfix h.notLeft hword
      obtain ⟨c, t', hc⟩ := List.exists_cons_of_ne_nil ht.ne_nil
      refine hp (.inl ⟨x, "Bearer".toList, [' '], c, ⟨⟨y, hxy, hne, hy⟩, ?_, by decide, by decide,
        by decide, ?_⟩, k, t', ?_⟩)
      · cases x with
        | nil =>
          intro d hd
          cases hd
        | cons d x =>
          have hleft := h.left
          rwa [List.getLast?_append_of_ne_nil _ (List.cons_ne_nil _ _)] at hleft
      · exact isLetterOr_of_isToken (ht.token c (by rw [hc]; exact List.mem_cons_self))
      · rw [hc]
        simp only [List.append_assoc, List.singleton_append]
        rfl
    · refine hp (.inr ⟨z, a₀, g, e, v ++ t, hz, ?_, ⟨_, _, hmatches⟩, k, hk.symm⟩)
      rw [← List.append_assoc, hw₀]
      simp only [List.append_assoc]
  · have hspaced := hr.spaced ht
    obtain ⟨a₁, b₁, hw₁, -⟩ := hspaced.exists_of_email (hemail.trans hw)
    obtain ⟨a₀, b₀, hw₀, -⟩ := hspaced.exists_of_sensitive (hsensitive.trans hw₁)
    refine hp (.inl ⟨x, word, spaces, c, hr, a₀, b₀ ++ t, ?_⟩)
    rw [← List.append_assoc p, hw₀]
    simp only [List.append_assoc]

/-! ## Where the word is kept, the token is removed -/

/-- `redact`, as a function of lists of characters. -/
theorem redact_ofList (m : List Char) :
    (redact (String.ofList m)).toList = bearer.sub (email.sub (sensitive.sub m)) := by
  rw [redact, String.toList_ofList, String.toList_ofList]

omit [UnicodeData] in
/-- A text accepts itself in any case. -/
theorem accepts_literal {word : Char → Bool} {text l u v : List Char}
    (h : u.map caseFold = text) : (literal text).Accepts word l u v := by
  induction text generalizing l u with
  | nil => exact List.map_eq_nil_iff.mp h
  | cons c text ih =>
    cases u with
    | nil => exact nomatch h
    | cons d u =>
      obtain ⟨hd, hu⟩ := List.cons.inj h
      exact ⟨[d], u, rfl, ⟨d, decide_eq_true hd, rfl⟩, ih hu⟩

/-- The word Bearer begins with a character of words. -/
theorem isWord_B : isWord 'B' = true := by
  rw [isWord, UnicodeData.isalnum_ascii _ (by decide)]
  decide

/-- The third rule matches at the word Bearer, if a character of tokens follows. -/
theorem bearer_first_ne_none {l r : List Char} {c : Char}
    (hl : ∀ c ∈ l.getLast?, isWord c = false) (hc : isToken c = true) :
    bearer.first l (marker ++ c :: r) ≠ none := by
  have hboundary : atBoundary isWord l (marker ++ c :: r) = true := by
    have hleft : l.getLast?.any isWord = false := by
      cases hlast : l.getLast? with
      | none => rfl
      | some d => exact hl d hlast
    rw [atBoundary, hleft]
    show (false != isWord 'B') = true
    rw [isWord_B]
    rfl
  have hmatches : bearer.Matches l (marker ++ [c]) [] r := by
    refine ⟨⟨[], marker ++ [c], rfl, ⟨rfl, hboundary⟩, "Bearer".toList, [' ', c], rfl,
      accepts_literal (by decide), [' '], [c], rfl, ⟨Nat.le_refl 1, ?_⟩, Nat.le_refl 1,
      ?_⟩, rfl⟩
    · decide
    · intro d hd
      rw [List.mem_singleton.mp hd]
      exact isLetterOr_of_isToken hc
  exact Rule.first_ne_none hmatches

/-- **The token is removed.**  Each rule is cut at the word, which the first two leave and the third
    replaces with the token; before the cut there is no token by `not_before`, after it there is
    none by `not_after`, and none can lie across it, since a replacement has just been written
    there. -/
theorem BearerMessage.redacted (h : BearerMessage p t s) (hkept : MarkerKept p)
    (hp : ¬Assembled (p ++ (marker ++ t)) t) (hs : ¬Assembled s t) :
    ¬t <:+: (redact (String.ofList (p ++ (marker ++ (t ++ s))))).toList := by
  obtain ⟨p₃, hp₃⟩ := Option.isSome_iff_exists.mp hkept
  obtain ⟨p₂, hp₂, h₃⟩ := Option.bind_eq_some_iff.mp hp₃
  obtain ⟨p₁, h₁, h₂⟩ := Option.bind_eq_some_iff.mp hp₂
  have hlast₁ := Rule.before_last (P := fun c => isWord c = false) sensitive_closes
    not_isWord_close h₁ h.left
  have hlast₂ := Rule.before_last (P := fun c => isWord c = false) email_closes
    not_isWord_close h₂ hlast₁
  have hbefore := h.not_before hp h₁ h₂ h₃ hlast₂
  have ht := h.tokenLike
  have hspace : ' ' ∉ t := ht.not_mem (by decide)
  rw [redact_ofList, sensitive_sub h₁, email_sub h₂, bearer_sub h₃ hlast₂]
  generalize hrest : email.scan 0 (p₁ ++ marker) (sensitive.scan 0 (p ++ marker) (t ++ s)) = r
  have hmarker : ∀ x y : List Char, x ++ (marker ++ y) = (x ++ "Bearer".toList) ++ ' ' :: y := by
    intro x y
    rw [List.append_assoc]
    rfl
  cases hfirst : bearer.first p₂ (marker ++ r) with
  | none =>
    rw [bearer_marker hfirst, hmarker]
    intro hin
    rcases infix_of_not_mem hin hspace with hin | hin
    · exact hbefore hin
    · refine h.not_after hs (r := []) hrest (fun _ c hc => ?_) hin
      -- the third rule would have matched a token character after the word
      obtain ⟨r, rfl⟩ := List.head?_eq_some_iff.mp hc
      cases htoken : isToken c with
      | false => rfl
      | true => exact absurd hfirst (bearer_first_ne_none hlast₂ htoken)
  | some found =>
    obtain ⟨v, hsplit, hmatches, hscan⟩ := Rule.scan_some hfirst
    obtain ⟨g, e⟩ := found
    obtain rfl : e = [] := hmatches.2
    obtain ⟨word, spaces, token, rfl, hword, hspaces, htoken⟩ := credential_accepts hmatches.1
    have hlong : 8 ≤ (word ++ (spaces ++ token)).length := by
      have hsix := congrArg List.length hword
      have hbearer : "bearer".toList.length = 6 := by decide
      have h1 := List.length_pos_iff.mpr hspaces.1
      have h2 := List.length_pos_iff.mpr htoken.1
      rw [List.length_map] at hsix
      simp only [List.length_append]
      omega
    have hseven : marker.length = 7 := by decide
    have hsplit : marker ++ r = (word ++ (spaces ++ token)) ++ v := hsplit
    obtain ⟨r', hr'⟩ : ∃ r', r = r' ++ v ∧ r' ≠ [] := by
      rcases List.append_eq_append_iff.mp hsplit with ⟨k, hk, hr⟩ | ⟨k, hk, -⟩
      · refine ⟨k, hr, fun hnil => ?_⟩
        have hlength := congrArg List.length hk
        rw [hnil, List.append_nil] at hlength
        omega
      · have hlength := congrArg List.length hk
        rw [List.length_append] at hlength
        omega
    have hnew : ∀ y : List Char, p₃ ++ (bearer.new (word ++ (spaces ++ token)) ++ y) =
        (p₃ ++ "Bearer".toList) ++ ' ' :: ("[REDACTED".toList ++ ']' :: y) := by
      intro y
      rw [List.append_assoc]
      rfl
    rw [hscan, hnew]
    intro hin
    rcases infix_of_not_mem hin hspace with hin | hin
    · exact hbefore hin
    · rcases infix_of_not_mem hin (ht.not_mem (by decide)) with hin | hin
      · exact h.notBearer (hin.trans ⟨"Bearer ".toList, [']'], rfl⟩)
      · exact h.not_after hs (hrest.trans hr'.1) (fun hnil => absurd hnil hr'.2) hin

/-! ## Where the word is taken, the token is left -/

/-- What is left of the word Bearer and of the space after it, and the token. -/
def Remainder (w t : List Char) : List Char := w ++ t

omit [UnicodeData] in
/-- What is left of the token has none of the characters that the first two rules need. -/
theorem not_mem_remainder {w : List Char} (hw : w <:+ marker) (htoken : ∀ c ∈ t, isToken c = true)
    {c : Char} (hmarker : c ∉ marker) (ht : c ∉ t ∨ isToken c = false) : c ∉ Remainder w t := by
  intro hc
  rcases List.mem_append.mp hc with hc | hc
  · exact hmarker (hw.subset hc)
  · rcases ht with ht | ht
    · exact ht hc
    · rw [htoken c hc] at ht
      cases ht

/-- The first rule leaves it, if the token has no equals sign. -/
theorem sensitive_remainder {l w : List Char} (hw : w <:+ marker)
    (htoken : ∀ c ∈ t, isToken c = true) (hequals : '=' ∉ t) :
    sensitive.scan 0 l (Remainder w t) = Remainder w t := by
  have hneeds : (sensitive.group.seq sensitive.rest).Needs fun c => c = '=' ∨ c = ':' :=
    Or.inr (Or.inr (Or.inl fun c hc => of_decide_eq_true hc))
  refine Rule.scan_eq_self fun a c b hsplit => Rule.first_none_of_needs hneeds fun d hd => ?_
  have hmem : d ∈ Remainder w t := by
    rw [hsplit]
    exact List.mem_append_right _ hd
  rintro (rfl | rfl)
  · exact not_mem_remainder hw htoken (by decide) (.inl hequals) hmem
  · exact not_mem_remainder hw htoken (by decide) (.inr (by decide)) hmem

/-- The second rule leaves what is left of the token as it is. -/
theorem email_remainder {l w : List Char} (hw : w <:+ marker)
    (htoken : ∀ c ∈ t, isToken c = true) :
    email.scan 0 l (Remainder w t) = Remainder w t := by
  have hneeds : (email.group.seq email.rest).Needs fun c => c = '@' :=
    Or.inl (needs_address rfl)
  refine Rule.scan_eq_self fun a c b hsplit => Rule.first_none_of_needs hneeds fun d hd => ?_
  rintro rfl
  refine not_mem_remainder (c := '@') hw htoken (by decide) (.inr (by decide)) ?_
  rw [hsplit]
  exact List.mem_append_right _ hd

/-- The third rule leaves it, once the B is gone: there is no b before the space, and no space
    after it. -/
theorem bearer_remainder {l w : List Char} (hw : w <:+ "earer ".toList)
    (htoken : ∀ c ∈ t, isToken c = true) :
    bearer.scan 0 l (Remainder w t) = Remainder w t := by
  have hneeds : (bearer.group.seq bearer.rest).Needs fun c => isSpace c = true :=
    Or.inl (Or.inr (Or.inr (Or.inl ⟨Nat.one_pos, fun _ h => h⟩)))
  have hnospace : ∀ d ∈ t, ¬isSpace d = true := by
    intro d hd hspace
    have hall : ∀ n < 128, isToken (Char.ofNat n) = true → isSpace (Char.ofNat n) = false := by
      decide
    have htoken := htoken d hd
    have hfalse := ascii_induction (P := fun c => isToken c = true → isSpace c = false) hall
      (ascii_of_isToken htoken) htoken
    rw [hspace] at hfalse
    cases hfalse
  refine Rule.scan_eq_self fun a c b hsplit => ?_
  rcases List.append_eq_append_iff.mp hsplit with ⟨k, -, hk⟩ | ⟨k, hk, hrest⟩
  · refine Rule.first_none_of_needs hneeds fun d hd => hnospace d ?_
    rw [hk]
    exact List.mem_append_right _ hd
  · cases k with
    | nil =>
      rw [List.nil_append] at hrest
      refine Rule.first_none_of_needs hneeds fun d hd => hnospace d ?_
      rw [← hrest]
      exact hd
    | cons d k =>
      obtain ⟨rfl, -⟩ := List.cons.inj hrest
      refine bearer_first_none ?_
      have hall : ∀ d ∈ "earer ".toList, caseFold d ≠ 'b' := by decide
      refine hall c (hw.subset ?_)
      rw [hk]
      exact List.mem_append_right _ List.mem_cons_self

/-- A match that covers the beginning of the word is replaced; what is left of the word has no b. -/
theorem exists_of_covered {rule : Rule isWord} (hclose : rule.Closes ']') {q : List Char}
    (hwithin : ∀ a c b, q = a ++ c :: b → rule.Within a (c :: b ++ marker)) (t : List Char)
    (h : rule.before marker 0 [] q = none) :
    ∃ q' l w, w <:+ "earer ".toList ∧
      rule.sub (q ++ (marker ++ t)) = q' ++ ']' :: rule.scan 0 l (Remainder w t) := by
  obtain ⟨q', j, hj, hscan, hnew, -⟩ := Rule.scan_of_covered h (Nat.zero_le _)
    fun a c b hq => by rw [List.nil_append]; exact hwithin a c b hq
  obtain ⟨a, g, rfl⟩ := hnew (Nat.zero_le _)
  obtain ⟨a', ha'⟩ := hclose g
  have hseven : marker.length = 7 := by decide
  have htake : ("earer ".toList.take j).length = j := by
    have hsix : "earer ".toList.length = 6 := by decide
    rw [List.length_take]
    omega
  refine ⟨a ++ a', [] ++ q ++ ['B'] ++ "earer ".toList.take j, "earer ".toList.drop j,
    List.drop_suffix _ _, ?_⟩
  have hskip := @Rule.scan_skip _ _ rule ([] ++ q ++ ['B']) (Remainder ("earer ".toList.drop j) t)
    ("earer ".toList.take j)
  have hword : "earer ".toList.take j ++ Remainder ("earer ".toList.drop j) t =
      "earer ".toList ++ t := by
    rw [Remainder, ← List.append_assoc, List.take_append_drop]
  rw [htake, hword] at hskip
  have hbegin : rule.scan (j + 1) ([] ++ q) (marker ++ t) =
      rule.scan j ([] ++ q ++ ['B']) ("earer ".toList ++ t) := rfl
  rw [Rule.sub, hscan, hbegin, hskip, ha']
  simp only [List.append_assoc, List.singleton_append]

/-- After a bracket the second rule leaves the remainder. -/
theorem exists_email_sub {q w : List Char} (hw : w <:+ marker)
    (htoken : ∀ c ∈ t, isToken c = true) :
    ∃ q', email.sub (q ++ ']' :: Remainder w t) = q' ++ ']' :: Remainder w t := by
  have havoids : (address.seq .empty).Avoids ']' := by decide
  obtain ⟨q', l, hq⟩ := @Rule.exists_sub_avoids _ _ email ']' q (Remainder w t) havoids
  exact ⟨q', by rw [hq, email_remainder hw htoken]⟩

/-- After a bracket the third rule leaves it, too. -/
theorem exists_bearer_sub {q w : List Char} (hw : w <:+ "earer ".toList)
    (htoken : ∀ c ∈ t, isToken c = true) :
    ∃ q', bearer.sub (q ++ ']' :: Remainder w t) = q' ++ ']' :: Remainder w t := by
  have havoids : (credential.seq .empty).Avoids ']' := by decide
  obtain ⟨q', l, hq⟩ := @Rule.exists_sub_avoids _ _ bearer ']' q (Remainder w t) havoids
  exact ⟨q', by rw [hq, bearer_remainder hw htoken]⟩

/-- **The token is left**, whichever of the rules takes the word.  By the rule that does: the ones
    before it leave word and token alone, and the ones after it find a remainder.  A token with an
    equals sign might be removed for another reason: it may be an assignment to a sensitive key
    itself. -/
theorem BearerMessage.left_in (h : BearerMessage p t []) (hkept : ¬MarkerKept p)
    (hequals : '=' ∉ t) : t <:+: (redact (String.ofList (p ++ (marker ++ (t ++ []))))).toList := by
  have htoken := h.token
  have hmarker : "earer ".toList <:+ marker := ⟨['B'], rfl⟩
  have hleft : ∀ q w : List Char, t <:+: q ++ ']' :: Remainder w t :=
    fun q w => ⟨q ++ ']' :: w, [], by simp [Remainder]⟩
  have hkeep : ∀ l, sensitive.scan 0 l t = t :=
    fun l => sensitive_remainder (w := []) List.nil_suffix htoken hequals
  have hkeep' : ∀ l, email.scan 0 l t = t :=
    fun l => email_remainder (w := []) List.nil_suffix htoken
  rw [redact_ofList, List.append_nil]
  cases h₁ : sensitive.before marker 0 [] p with
  | none =>
    obtain ⟨q, l, w, hw, hq⟩ := exists_of_covered sensitive_closes
      (fun a c b _ => sensitive_within a (c :: b)) t h₁
    rw [hq, sensitive_remainder (hw.trans hmarker) htoken hequals]
    obtain ⟨q₂, hq₂⟩ := exists_email_sub (q := q) (hw.trans hmarker) htoken
    obtain ⟨q₃, hq₃⟩ := exists_bearer_sub (q := q₂) hw htoken
    rw [hq₂, hq₃]
    exact hleft q₃ w
  | some p₁ =>
    rw [sensitive_sub h₁, hkeep]
    have hlast₁ := Rule.before_last (P := fun c => isWord c = false) sensitive_closes
      not_isWord_close h₁ h.left
    cases h₂ : email.before marker 0 [] p₁ with
    | none =>
      obtain ⟨q, l, w, hw, hq⟩ := exists_of_covered email_closes
        (fun a c b _ => email_within a (c :: b)) t h₂
      rw [hq, email_remainder (hw.trans hmarker) htoken]
      obtain ⟨q₃, hq₃⟩ := exists_bearer_sub (q := q) hw htoken
      rw [hq₃]
      exact hleft q₃ w
    | some p₂ =>
      rw [email_sub h₂, hkeep']
      have hlast₂ := Rule.before_last (P := fun c => isWord c = false) email_closes
        not_isWord_close h₂ hlast₁
      have h₃ : bearer.before marker 0 [] p₂ = none := by
        rw [MarkerKept, beforeMarker, h₁, Option.bind_some, h₂, Option.bind_some] at hkept
        exact Option.not_isSome_iff_eq_none.mp hkept
      obtain ⟨q, l, w, hw, hq⟩ := exists_of_covered bearer_closes
        (fun a c b hsplit => bearer_within (List.cons_ne_nil _ _)
          (getLast_of_append (by rw [← hsplit]; exact hlast₂))) t h₃
      rw [hq, bearer_remainder hw htoken]
      exact hleft q w

/-- No replacement makes a token that ends in another character than an equals sign or a letter of
    Bearer. -/
theorem not_assembled {w : List Char} {c : Char} (hlast : c ∈ t.getLast?)
    (hc : c ∉ '=' :: "Bearer".toList) : ¬Assembled w t := by
  rw [List.mem_cons, not_or] at hc
  rintro (⟨x, word, spaces, d, hr, -⟩ | ⟨z, a, g, e, v, hz, -⟩)
  · obtain ⟨y, ht, hne, hy⟩ := hr.made
    rw [ht, List.getLast?_append_of_ne_nil _ hne] at hlast
    exact hc.2 (hy.subset (List.mem_of_getLast? hlast))
  · rw [hz, List.getLast?_concat] at hlast
    exact hc.1 (Option.some.inj hlast).symm

end Logging

end CommerceOperations
