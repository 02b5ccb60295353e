/-
  Redaction of log messages.

  Three regular expressions run one after the other, each on what the one before it has left.  They
  ignore case, by which four more characters are letters: a dotted and a dotless i, a long s and the
  Kelvin sign.  What the Unicode database says beyond ASCII, which characters are alphanumeric, is a
  parameter.

  Each expression is a `Pattern`, written part by part as the source writes it, and each `re.sub` a
  `Rule`: the group that is kept, the rest of the match, and the text put in their place.  That a
  match is never empty is part of a rule, and holds here because each expression needs a character
  of some kind (`Pattern.Needs`).
-/
import CommerceOperations.Regex.Rule

namespace CommerceOperations

open Regex

/-- `str.isalnum`, of a character, with what the redaction relies on: it is the usual test in ASCII,
    and true of the four letters that case folding adds. -/
class UnicodeData where
  isalnum : Char → Bool
  isalnum_ascii : ∀ c : Char, c.toNat < 128 → isalnum c = c.isAlphanum
  isalnum_folded : ∀ c ∈ ['\u0130', '\u0131', '\u017f', '\u212a'], isalnum c = true

/-- A fact about the characters of a list is decided along the list, not over all characters. -/
instance (priority := 2000) decidableForallMem {P : Char → Prop} [DecidablePred P]
    (text : List Char) : Decidable (∀ c ∈ text, P c) :=
  List.decidableBAll P text

/-- A property of a character that may be there is decided in the same way. -/
instance (priority := 2000) decidableForallMemOption {P : Char → Prop} [DecidablePred P]
    (char? : Option Char) : Decidable (∀ c ∈ char?, P c) :=
  Option.decidableForallMem char?

/-- A database that knows ASCII, and the four letters of the regular expressions. -/
@[reducible] def UnicodeData.letters : UnicodeData where
  isalnum c := c.isAlphanum || c ∈ ['\u0130', '\u0131', '\u017f', '\u212a']
  isalnum_ascii c h := by
    have hfour : c ∉ ['\u0130', '\u0131', '\u017f', '\u212a'] := by
      intro hmem
      have hge : ∀ d ∈ ['\u0130', '\u0131', '\u017f', '\u212a'], 128 ≤ d.toNat := by decide
      have := hge c hmem
      omega
    rw [decide_eq_false hfour, Bool.or_false]
  isalnum_folded c h := by rw [decide_eq_true h, Bool.or_true]

namespace Logging

/-! ## Classes of characters -/

/-- `\w`: a letter or a digit by the Unicode data, or an underscore. -/
def isWord [UnicodeData] (c : Char) : Bool := UnicodeData.isalnum c || c = '_'

/-- `\s`: the characters Python counts as white space. -/
def isSpace (c : Char) : Bool :=
  let n := c.toNat
  (9 ≤ n && n ≤ 13) || (28 ≤ n && n ≤ 32) || (8192 ≤ n && n ≤ 8202) ||
    n ∈ [133, 160, 5760, 8232, 8233, 8239, 8287, 12288]

/-- The letter that stands for a character where case is ignored. -/
def caseFold (c : Char) : Char :=
  if c = '\u0130' ∨ c = '\u0131' then 'i'
  else if c = '\u017f' then 's'
  else if c = '\u212a' then 'k'
  else c.toLower

/-- `[A-Z]`, where case is ignored. -/
def isLetter (c : Char) : Bool := 'a' ≤ caseFold c && caseFold c ≤ 'z'

/-- `[A-Z0-9]` and more, where case is ignored. -/
def isLetterOr (more : List Char) (c : Char) : Bool := isLetter c || c.isDigit || c ∈ more

/-- A text, where case is ignored; it is written in lower case. -/
def literal (text : List Char) : Pattern Char :=
  text.foldr (fun c p => .seq (.set fun x => caseFold x = c) p) .empty

/-- A text needs each of its letters. -/
theorem needs_literal {K : Char → Prop} {c : Char} {text : List Char} (hc : c ∈ text)
    (hK : ∀ x, caseFold x = c → K x) : (literal text).Needs K := by
  induction text with
  | nil => exact absurd hc List.not_mem_nil
  | cons d text ih =>
    rcases List.mem_cons.mp hc with rfl | hc
    · exact Or.inl fun x hx => hK x (of_decide_eq_true hx)
    · exact Or.inr (ih hc)

/-! ## The three rules -/

/-- `authorization|api[_-]?key|access[_-]?token|password|secret|customer[_-]?(?:email|name|phone)`. -/
def keyword : Pattern Char :=
  let separator := .opt (.set fun c => c = '_' ∨ c = '-')
  .alt (literal "authorization".toList) <|
    .alt (.seq (literal "api".toList) (.seq separator (literal "key".toList))) <|
    .alt (.seq (literal "access".toList) (.seq separator (literal "token".toList))) <|
    .alt (literal "password".toList) <|
    .alt (literal "secret".toList) <|
    .seq (literal "customer".toList) <| .seq separator <|
      .alt (literal "email".toList) (.alt (literal "name".toList) (literal "phone".toList))

/-- `[^\s,;]`, the characters of an assigned value. -/
def isValue (c : Char) : Bool := !(isSpace c || c = ',' || c = ';')

/-- `\s*[=:]\s*([^\s,;]+)`, the part of the first rule that follows its keyword. -/
def assignment : Pattern Char :=
  .seq (.run 0 isSpace) <| .seq (.set fun c => c = '=' ∨ c = ':') <|
    .seq (.run 0 isSpace) (.run 1 isValue)

/-- `\b[A-Z0-9._%+-]+@[A-Z0-9.-]+\.[A-Z]{2,}\b`. -/
def address : Pattern Char :=
  .seq .boundary <| .seq (.run 1 (isLetterOr ['.', '_', '%', '+', '-'])) <|
    .seq (.set (· = '@')) <| .seq (.run 1 (isLetterOr ['.', '-'])) <|
    .seq (.set (· = '.')) <| .seq (.run 2 isLetter) .boundary

/-- `\bBearer\s+[A-Za-z0-9._~+/=-]+`. -/
def credential : Pattern Char :=
  .seq .boundary <| .seq (literal "bearer".toList) <| .seq (.run 1 isSpace)
    (.run 1 (isLetterOr ['.', '_', '~', '+', '/', '=', '-']))

/-- Each of the keywords has a t or a p. -/
theorem needs_keyword {K : Char → Prop} (hK : ∀ x, caseFold x = 't' ∨ caseFold x = 'p' → K x) :
    keyword.Needs K := by
  have ht := fun text => @needs_literal K 't' text
  have hp := fun text => @needs_literal K 'p' text
  refine ⟨ht _ (by decide) fun x hx => hK x (Or.inl hx),
    Or.inl (hp _ (by decide) fun x hx => hK x (Or.inr hx)),
    Or.inr (Or.inr (ht _ (by decide) fun x hx => hK x (Or.inl hx))),
    hp _ (by decide) fun x hx => hK x (Or.inr hx), ht _ (by decide) fun x hx => hK x (Or.inl hx),
    Or.inl (ht _ (by decide) fun x hx => hK x (Or.inl hx))⟩

/-- An address cannot match without an at-sign. -/
theorem needs_address {K : Char → Prop} (hK : K '@') : address.Needs K :=
  Or.inr (Or.inr (Or.inl fun _ hx => of_decide_eq_true hx ▸ hK))

/-- A credential has the b of Bearer. -/
theorem needs_credential {K : Char → Prop} (hK : ∀ x, caseFold x = 'b' → K x) :
    credential.Needs K :=
  Or.inr (Or.inl (needs_literal (by decide) hK))

variable [UnicodeData]

/-- `_SENSITIVE.sub(lambda match: f"\x7bmatch.group(1)\x7d=[REDACTED]", ...)`. -/
def sensitive : Rule isWord where
  group := keyword
  rest := assignment
  new keyword := keyword ++ "=[REDACTED]".toList
  group_ne_nil _ _ _ h := h.ne_nil (needs_keyword fun _ _ => trivial)

/-- `_EMAIL.sub("[REDACTED_EMAIL]", ...)`. -/
def email : Rule isWord where
  group := address
  rest := .empty
  new _ := "[REDACTED_EMAIL]".toList
  group_ne_nil _ _ _ h := h.ne_nil (needs_address trivial)

/-- `_BEARER.sub("Bearer [REDACTED]", ...)`. -/
def bearer : Rule isWord where
  group := credential
  rest := .empty
  new _ := "Bearer [REDACTED]".toList
  group_ne_nil _ _ _ h := h.ne_nil (needs_credential fun _ _ => trivial)

/-- `redact`: the three rules, one after the other. -/
def redact (value : String) : String :=
  String.ofList (bearer.sub (email.sub (sensitive.sub value.toList)))

end Logging

end CommerceOperations
