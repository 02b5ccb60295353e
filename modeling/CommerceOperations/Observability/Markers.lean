/-
  When the word Bearer of a message is left for the rule that needs it.

  The third rule redacts what follows the word Bearer.  It finds the word only if nothing before has
  taken it: in "Authorization: Bearer ..." the word is the value of a sensitive key, and what the
  first rule redacts is the word.  This module says so of the text before the word alone.  If no
  assignment to a key, no address and no credential that begins there reaches into the word, the
  word is left and the token is removed (`markerKept_of_unclaimed`).  If an assignment does, and
  nothing is assigned before, the word is taken and the token stays (`not_markerKept_of_key`).

  The crux is that the three rules do not read the same text: the second reads what the first has
  written, and the third what both have.  But a replacement ends in a bracket, which is in no
  address and in no credential.  So what reaches into the word from there is behind all
  replacements, and that part of the text is still the one that was there at first
  (`Rule.before_end`).  Only the word boundary in front of it needs a second thought: a replacement
  may have put a bracket where a word was.  It has not, since a match goes on as far as it can. -/
import CommerceOperations.Observability.BearerTokens

namespace CommerceOperations

open Regex

namespace Logging

variable [UnicodeData]

/-! ## Claims on the word -/

/-- A match of the rule that begins in `p`, after `a`, reaches into the word Bearer behind `p`. -/
def Claims (rule : Rule isWord) (a p : List Char) : Prop :=
  ∃ b h v, p = a ++ b ∧ b ≠ [] ∧ marker = h ++ v ∧ h ≠ [] ∧
    (rule.group.seq rule.rest).Accepts isWord a (b ++ h) v

/-- No match of the three rules does. -/
def Unclaimed (p : List Char) : Prop :=
  ∀ a, ¬Claims sensitive a p ∧ ¬Claims email a p ∧ ¬Claims bearer a p

/-- An assignment to a sensitive key does, and before it there is no sign of an assignment. -/
def KeyClaims (p : List Char) : Prop :=
  ∃ a, Claims sensitive a p ∧ '=' ∉ a ∧ ':' ∉ a

/-- A match that covers the beginning of the word. -/
theorem accepts_of_before_none {rule : Rule isWord} {p : List Char}
    (h : rule.before marker 0 [] p = none) : ∃ a, Claims rule a p := by
  obtain ⟨a, b, g, e, rfl, hb, hfirst, hlt⟩ := Rule.exists_of_before_none h (Nat.zero_le _)
  rw [List.nil_append] at hfirst
  obtain ⟨v, hsplit, hmatches⟩ := Rule.exists_of_first hfirst
  rw [← List.append_assoc] at hsplit
  rcases List.append_eq_append_iff.mp hsplit with ⟨k, hk, hv⟩ | ⟨k, hk, -⟩
  · refine ⟨a, b, k, v, rfl, hb, hv, ?_, g, e, hk.symm, hmatches.1, hmatches.2⟩
    rintro rfl
    rw [List.append_nil] at hk
    rw [hk] at hlt
    exact Nat.lt_irrefl _ hlt
  · have hlength := congrArg List.length hk
    rw [List.length_append] at hlength
    omega

/-! ## Where the matches of the first two rules end -/

/-- The value of an assignment goes on to a blank, a comma or a semicolon. -/
theorem sensitive_ends {l g e v : List Char}
    (h : sensitive.first l (g ++ (e ++ v)) = some (g, e)) : ∀ c ∈ v.head?, isValue c = false :=
  Rule.first_greedy (Pattern.greedy_seq (Pattern.greedy_seq (Pattern.greedy_seq
    Pattern.greedy_run))) h

/-- After an address there is no word. -/
theorem address_ends {l g v : List Char} (h : address.Accepts isWord l g v) :
    ∀ c ∈ v.head?, isWord c = false := by
  obtain ⟨b₁, g₁, rfl, -, h⟩ := h
  obtain ⟨user, g₂, rfl, -, h⟩ := h
  obtain ⟨at', g₃, rfl, -, h⟩ := h
  obtain ⟨host, g₄, rfl, -, h⟩ := h
  obtain ⟨dot, g₅, rfl, -, h⟩ := h
  obtain ⟨top, b₂, rfl, htop, rfl, hat⟩ := h
  obtain ⟨before, c, rfl⟩ :=
    (List.eq_nil_or_concat' top).resolve_left (List.ne_nil_of_length_pos (by have := htop.1; omega))
  have hc : isWord c = true :=
    isWord_of_isLetter (htop.2 c (List.mem_append_right _ (List.mem_singleton_self _)))
  rw [← List.append_assoc, atBoundary, List.getLast?_concat] at hat
  intro d hd
  rw [Option.mem_def.mp hd] at hat
  simpa [hc] using hat

omit [UnicodeData] in
/-- The parts of an address before its at-sign are not among what ends a value. -/
theorem isValue_of_user {c : Char} (h : isLetterOr ['.', '_', '%', '+', '-'] c = true) :
    isValue c = true := by
  have hascii : c ∈ ['\u0130', '\u0131', '\u017f', '\u212a'] ∨ c.toNat < 128 := by
    simp only [isLetterOr, Bool.or_eq_true, decide_eq_true_eq] at h
    rcases h with (h | h) | h
    · have hbounds : 'a' ≤ caseFold c ∧ caseFold c ≤ 'z' := by simpa [isLetter] using h
      refine ascii_of_caseFold ?_
      have hle := UInt32.le_iff_toNat_le.mp hbounds.2
      have hz : 'z'.val.toNat = 122 := rfl
      show (caseFold c).val.toNat < 128
      omega
    · right
      refine ascii_of_isAlphanum ?_
      rw [Char.isAlphanum, h, Bool.or_true]
    · right
      have hall : ∀ d ∈ ['.', '_', '%', '+', '-'], d.toNat < 128 := by decide
      exact hall c h
  rcases hascii with hmem | hascii
  · have hall : ∀ d ∈ ['\u0130', '\u0131', '\u017f', '\u212a'], isValue d = true := by decide
    exact hall c hmem
  · have hall : ∀ n < 128, isLetterOr ['.', '_', '%', '+', '-'] (Char.ofNat n) = true →
        isValue (Char.ofNat n) = true := by decide
    exact ascii_induction (P := fun c => isLetterOr ['.', '_', '%', '+', '-'] c = true →
      isValue c = true) hall hascii h

/-! ## An unclaimed word is left -/

/-- What is to the left of a text, before and after the first rule, is the same for a match that
    begins with a character of values. -/
theorem getLast_of_sensitive {l t a a' : List Char} {c : Char} (hc : c ∈ t.head?)
    (hvalue : isValue c = true) (h : sensitive.SameEnd marker l t a a') :
    a.getLast?.any isWord = a'.getLast?.any isWord := by
  rcases h with ⟨rfl, rfl⟩ | ⟨-, h⟩ | ⟨a₀, g, e, -, hfirst, -⟩
  · rfl
  · rw [h]
  · -- the value would have gone on
    have hend := sensitive_ends hfirst c (by
      obtain ⟨t, rfl⟩ := List.head?_eq_some_iff.mp hc
      rfl)
    rw [hvalue] at hend
    cases hend

/-- The last character of a match of the second rule, for a match that begins with a word. -/
theorem getLast_of_email {l t a a' : List Char} {c : Char} (hc : c ∈ t.head?)
    (hword : isWord c = true) (h : email.SameEnd marker l t a a') :
    a.getLast?.any isWord = a'.getLast?.any isWord := by
  rcases h with ⟨rfl, rfl⟩ | ⟨-, h⟩ | ⟨a₀, g, e, -, hfirst, -⟩
  · rfl
  · rw [h]
  · -- an address ends before a word
    obtain ⟨v, hsplit, hmatches⟩ := Rule.exists_of_first hfirst
    have hv := List.append_cancel_left (List.append_cancel_left hsplit)
    obtain ⟨t, rfl⟩ := List.head?_eq_some_iff.mp hc
    obtain rfl : e = [] := hmatches.2
    have hend := address_ends hmatches.1 c (by rw [List.nil_append, ← hv]; rfl)
    rw [hword] at hend
    cases hend

/-- An address that reaches into the word behind what the first rule has made of `p` does so behind
    `p`. -/
theorem claims_email {p p₁ a : List Char} (h₁ : sensitive.before marker 0 [] p = some p₁)
    (h : Claims email a p₁) : ∃ a, Claims email a p := by
  obtain ⟨b, h', v, hp, hb, hmarker, hne, haccepts⟩ := h
  have havoids : (address.seq .empty).Avoids ']' := by decide
  have hbracket : ']' ∉ b := fun hmem =>
    haccepts.not_mem havoids (List.mem_append_left _ hmem)
  obtain ⟨a', rfl, hend⟩ := Rule.before_end sensitive_closes h₁ hp hbracket
  refine ⟨a', b, h', v, rfl, hb, hmarker, hne, haccepts.congr_left ?_⟩
  obtain ⟨c, b, rfl⟩ := List.exists_cons_of_ne_nil hb
  refine (getLast_of_sensitive (c := c) rfl (isValue_of_user ?_) hend).symm
  -- the first character of an address
  obtain ⟨g, e, hge, hgroup, rfl⟩ := haccepts
  obtain ⟨b₁, g₁, rfl, ⟨rfl, -⟩, user, g₂, rfl, huser, -⟩ := hgroup
  obtain ⟨d, user, rfl⟩ := List.exists_cons_of_ne_nil (List.ne_nil_of_length_pos huser.1)
  obtain ⟨rfl, -⟩ := List.cons.inj hge
  exact huser.2 c List.mem_cons_self

/-- A credential begins with a b. -/
theorem claims_bearer_head {a b v : List Char} {c : Char}
    (h : (bearer.group.seq bearer.rest).Accepts isWord a (c :: b) v) : caseFold c = 'b' := by
  obtain ⟨g, e, hge, hgroup, rfl⟩ := h
  obtain ⟨word, spaces, token, rfl, hword, -, -⟩ := credential_accepts hgroup
  cases word with
  | nil => cases hword
  | cons d word =>
    obtain ⟨rfl, -⟩ := List.cons.inj hge
    exact (List.cons.inj hword).1

/-- A credential that reaches into the word behind what the first two rules have made of `p` does so
    behind `p`. -/
theorem claims_bearer {p p₁ p₂ a : List Char} (h₁ : sensitive.before marker 0 [] p = some p₁)
    (h₂ : email.before marker 0 [] p₁ = some p₂) (h : Claims bearer a p₂) :
    ∃ a, Claims bearer a p := by
  obtain ⟨b, h', v, hp, hb, hmarker, hne, haccepts⟩ := h
  have havoids : (credential.seq .empty).Avoids ']' := by decide
  have hbracket : ']' ∉ b := fun hmem =>
    haccepts.not_mem havoids (List.mem_append_left _ hmem)
  obtain ⟨a₁, hp₁, hend₂⟩ := Rule.before_end email_closes h₂ hp hbracket
  obtain ⟨a₀, rfl, hend₁⟩ := Rule.before_end sensitive_closes h₁ hp₁ hbracket
  obtain ⟨c, b, rfl⟩ := List.exists_cons_of_ne_nil hb
  have hletter : isLetter c = true := by
    rw [isLetter, claims_bearer_head haccepts]
    decide
  have hvalue : isValue c = true := by
    refine isValue_of_user ?_
    rw [isLetterOr, hletter]
    rfl
  refine ⟨a₀, c :: b, h', v, rfl, hb, hmarker, hne, haccepts.congr_left ?_⟩
  rw [← getLast_of_email (c := c) rfl (isWord_of_isLetter hletter) hend₂,
    ← getLast_of_sensitive (c := c) rfl hvalue hend₁]

/-- **An unclaimed word is left** for the third rule. -/
theorem markerKept_of_unclaimed {p : List Char} (h : Unclaimed p) : MarkerKept p := by
  unfold MarkerKept beforeMarker
  cases h₁ : sensitive.before marker 0 [] p with
  | none =>
    obtain ⟨a, ha⟩ := accepts_of_before_none h₁
    exact absurd ha (h a).1
  | some p₁ =>
    rw [Option.bind_some]
    cases h₂ : email.before marker 0 [] p₁ with
    | none =>
      obtain ⟨a, ha⟩ := accepts_of_before_none h₂
      obtain ⟨a, ha⟩ := claims_email h₁ ha
      exact absurd ha (h a).2.1
    | some p₂ =>
      rw [Option.bind_some]
      cases h₃ : bearer.before marker 0 [] p₂ with
      | none =>
        obtain ⟨a, ha⟩ := accepts_of_before_none h₃
        obtain ⟨a, ha⟩ := claims_bearer h₁ h₂ ha
        exact absurd ha (h a).2.2
      | some p₃ => rfl

/-- A text without a sign of an assignment, an at-sign or a b claims nothing. -/
theorem unclaimed_of_plain {p : List Char} (hequals : '=' ∉ p) (hcolon : ':' ∉ p) (hat : '@' ∉ p)
    (hb : ∀ c ∈ p, caseFold c ≠ 'b') : Unclaimed p := by
  have hsign : (sensitive.group.seq sensitive.rest).Needs fun c => c = '=' ∨ c = ':' :=
    Or.inr (Or.inr (Or.inl fun c hc => of_decide_eq_true hc))
  have hatSign : (email.group.seq email.rest).Needs fun c => c = '@' := Or.inl (needs_address rfl)
  intro a
  refine ⟨?_, ?_, ?_⟩
  · rintro ⟨b, h, v, rfl, -, hmarker, -, haccepts⟩
    obtain ⟨c, hc, hsign⟩ := haccepts.exists_mem hsign
    rcases List.mem_append.mp hc with hc | hc
    · rcases hsign with rfl | rfl
      · exact hequals (List.mem_append_right _ hc)
      · exact hcolon (List.mem_append_right _ hc)
    · have hall : ∀ c ∈ marker, ¬(c = '=' ∨ c = ':') := by decide
      exact hall c (by rw [hmarker]; exact List.mem_append_left _ hc) hsign
  · rintro ⟨b, h, v, rfl, -, hmarker, -, haccepts⟩
    obtain ⟨c, hc, rfl⟩ := haccepts.exists_mem hatSign
    rcases List.mem_append.mp hc with hc | hc
    · exact hat (List.mem_append_right _ hc)
    · have hall : ∀ c ∈ marker, c ≠ '@' := by decide
      exact hall _ (by rw [hmarker]; exact List.mem_append_left _ hc) rfl
  · rintro ⟨b, h, v, rfl, hne, -, -, haccepts⟩
    obtain ⟨c, b, rfl⟩ := List.exists_cons_of_ne_nil hne
    exact hb c (List.mem_append_right _ List.mem_cons_self) (claims_bearer_head haccepts)

/-! ## A word that a key claims is taken -/

omit [UnicodeData] in
/-- An assignment: blanks, its sign, blanks, and a value. -/
theorem assignment_accepts {word : Char → Bool} {l e v : List Char}
    (h : assignment.Accepts word l e v) :
    ∃ blanks sign blanks' value, e = blanks ++ sign :: (blanks' ++ value) ∧
      (∀ c ∈ blanks, isSpace c = true) ∧ (sign = '=' ∨ sign = ':') ∧
      (∀ c ∈ blanks', isSpace c = true) ∧ value ≠ [] ∧ ∀ c ∈ value, isValue c = true := by
  obtain ⟨blanks, e, rfl, hblanks, h⟩ := h
  obtain ⟨_, e, rfl, ⟨sign, hsign, rfl⟩, h⟩ := h
  obtain ⟨blanks', value, rfl, hblanks', hvalue⟩ := h
  exact ⟨blanks, sign, blanks', value, rfl, hblanks.2, of_decide_eq_true hsign, hblanks'.2,
    List.ne_nil_of_length_pos hvalue.1, hvalue.2⟩

omit [UnicodeData] in
/-- Two ways to split a text at the first character of a kind are one. -/
theorem eq_of_first {P : Char → Prop} {u u' r r' : List Char} {c c' : Char}
    (hu : ∀ d ∈ u, ¬P d) (hu' : ∀ d ∈ u', ¬P d) (hc : P c) (hc' : P c')
    (h : u ++ c :: r = u' ++ c' :: r') : u = u' ∧ c :: r = c' :: r' := by
  induction u generalizing u' with
  | nil =>
    cases u' with
    | nil => exact ⟨rfl, h⟩
    | cons d u' =>
      obtain ⟨rfl, -⟩ := List.cons.inj h
      exact absurd hc (hu' c List.mem_cons_self)
  | cons d u ih =>
    cases u' with
    | nil =>
      obtain ⟨rfl, -⟩ := List.cons.inj h
      exact absurd hc' (hu d List.mem_cons_self)
    | cons d' u' =>
      obtain ⟨rfl, htail⟩ := List.cons.inj h
      obtain ⟨rfl, hr⟩ := ih (fun x hx => hu x (List.mem_cons_of_mem _ hx))
        (fun x hx => hu' x (List.mem_cons_of_mem _ hx)) htail
      exact ⟨rfl, hr⟩

omit [UnicodeData] in
/-- A blank is in no value of an assignment. -/
theorem isValue_of_space {c : Char} (h : isSpace c = true) : ¬isValue c = true := by
  rw [isValue, h, Bool.true_or, Bool.true_or]
  decide

omit [UnicodeData] in
/-- A value that goes on as far as it can is at least as long as another one. -/
theorem length_le_of_greedy {value rest value' rest' : List Char}
    (h : value ++ rest = value' ++ rest') (hvalue : ∀ c ∈ value, isValue c = true)
    (hend : ∀ c ∈ rest'.head?, isValue c = false) : value.length ≤ value'.length := by
  rcases List.append_eq_append_iff.mp h with ⟨m, hm, -⟩ | ⟨m, hm, hrest⟩
  · rw [hm, List.length_append]
    omega
  · cases m with
    | nil =>
      rw [List.append_nil] at hm
      exact Nat.le_of_eq (congrArg List.length hm)
    | cons d m =>
      have hd := hend d (by rw [hrest]; rfl)
      rw [hvalue d (by rw [hm]; exact List.mem_append_right _ List.mem_cons_self)] at hd
      cases hd

omit [UnicodeData] in
/-- Blanks are no signs of an assignment. -/
theorem not_sign_of_space {c : Char} (h : isSpace c = true) : ¬(c = '=' ∨ c = ':') := by
  rintro (rfl | rfl)
  · exact absurd h (by decide)
  · exact absurd h (by decide)

/-- In a key there is no sign of an assignment. -/
theorem not_sign_of_keyword {l g v : List Char} (h : keyword.Accepts isWord l g v) :
    ∀ c ∈ g, ¬(c = '=' ∨ c = ':') := by
  have hequals : keyword.Avoids '=' := by decide
  have hcolon : keyword.Avoids ':' := by decide
  rintro c hc (rfl | rfl)
  · exact h.not_mem hequals hc
  · exact h.not_mem hcolon hc

/-- Two assignments in one text, with nothing assigned before them: the one that goes on as far as
    it can ends where the other does, or after it. -/
theorem assignment_reaches {u g e v u' g' e' v' l l' r r' : List Char}
    (hsplit : u ++ (g ++ (e ++ v)) = u' ++ (g' ++ (e' ++ v')))
    (hu : ∀ c ∈ u, ¬(c = '=' ∨ c = ':')) (hu' : ∀ c ∈ u', ¬(c = '=' ∨ c = ':'))
    (hm : sensitive.Matches l g e r) (hm' : sensitive.Matches l' g' e' r')
    (hend : ∀ c ∈ v'.head?, isValue c = false) :
    (u ++ (g ++ e)).length ≤ (u' ++ (g' ++ e')).length := by
  obtain ⟨blanks, sign, blanks₂, value, rfl, hblanks, hsign, hblanks₂, hne, hvalue⟩ :=
    assignment_accepts hm.2
  obtain ⟨blanks', sign', blanks₂', value', rfl, hblanks', hsign', hblanks₂', hne', hvalue'⟩ :=
    assignment_accepts hm'.2
  -- the first sign of the text is the sign of both
  have hbefore : ∀ {u g blanks : List Char} {l r : List Char},
      (∀ c ∈ u, ¬(c = '=' ∨ c = ':')) → keyword.Accepts isWord l g r →
      (∀ c ∈ blanks, isSpace c = true) → ∀ c ∈ u ++ (g ++ blanks), ¬(c = '=' ∨ c = ':') := by
    intro u g blanks l r hu hg hblanks c hc
    rcases List.mem_append.mp hc with hc | hc
    · exact hu c hc
    · rcases List.mem_append.mp hc with hc | hc
      · exact not_sign_of_keyword hg c hc
      · exact not_sign_of_space (hblanks c hc)
  have hsigns : (u ++ (g ++ blanks)) ++ sign :: (blanks₂ ++ value ++ v) =
      (u' ++ (g' ++ blanks')) ++ sign' :: (blanks₂' ++ value' ++ v') := by
    simp only [List.append_assoc, List.cons_append] at hsplit ⊢
    exact hsplit
  obtain ⟨hleft, hright⟩ := eq_of_first (hbefore hu hm.1 hblanks) (hbefore hu' hm'.1 hblanks')
    hsign hsign' hsigns
  obtain ⟨-, hright⟩ := List.cons.inj hright
  -- and the first character of a value after it begins both values
  obtain ⟨c, value, rfl⟩ := List.exists_cons_of_ne_nil hne
  obtain ⟨c', value', rfl⟩ := List.exists_cons_of_ne_nil hne'
  rw [List.append_assoc, List.append_assoc, List.cons_append, List.cons_append] at hright
  obtain ⟨hblanksEq, hvalues⟩ := eq_of_first (P := fun c => isValue c = true)
    (fun d hd => isValue_of_space (hblanks₂ d hd)) (fun d hd => isValue_of_space (hblanks₂' d hd))
    (hvalue c List.mem_cons_self) (hvalue' c' List.mem_cons_self) hright
  have hvalues : (c :: value) ++ v = (c' :: value') ++ v' := hvalues
  have hlength := length_le_of_greedy hvalues hvalue hend
  have hleft := congrArg List.length hleft
  have hblanksEq := congrArg List.length hblanksEq
  simp only [List.length_append, List.length_cons] at hleft hblanksEq hlength ⊢
  omega

/-- **A word that a key claims is taken.** -/
theorem not_markerKept_of_key {p : List Char} (h : KeyClaims p) : ¬MarkerKept p := by
  obtain ⟨a, ⟨b, w, v, rfl, hb, hmarker, hw, g, e, hge, hgroup, hrest⟩, hequals, hcolon⟩ := h
  have hnosign : ∀ c ∈ a, ¬(c = '=' ∨ c = ':') := by
    rintro c hc (rfl | rfl)
    · exact hequals hc
    · exact hcolon hc
  have hmatches : sensitive.Matches a g e v := ⟨hgroup, hrest⟩
  have htext : b ++ marker = g ++ (e ++ v) := by
    rw [hmarker, ← List.append_assoc, hge, List.append_assoc]
  have hnone : sensitive.before marker 0 [] (a ++ b) = none := by
    refine Rule.before_eq_none hb ?_ ?_
    · rw [List.nil_append, htext]
      exact Rule.first_ne_none hmatches
    · intro a₁ a₂ g' e' ha hfirst
      obtain ⟨v', hsplit, hmatches'⟩ := Rule.exists_of_first hfirst
      rw [hsplit] at hfirst
      have hboth : a₂ ++ (g ++ (e ++ v)) = [] ++ (g' ++ (e' ++ v')) := by
        rw [List.nil_append, ← hsplit, List.append_assoc, htext]
      have hreaches := assignment_reaches hboth
        (fun c hc => hnosign c (by rw [ha]; exact List.mem_append_right _ hc))
        (fun c hc => absurd hc List.not_mem_nil) hmatches hmatches' (sensitive_ends hfirst)
      have hpos := List.length_pos_iff.mpr hw
      rw [← hge] at hreaches
      simp only [List.length_append, List.length_nil] at hreaches ⊢
      omega
  intro hkept
  rw [MarkerKept, beforeMarker, hnone] at hkept
  cases hkept

/-! ## When the redaction of messages removes tokens -/

omit [UnicodeData]

/-- The token of the samples is in none of the texts around it, nor in what it is replaced by. -/
theorem sample_absent : ∀ u ∈ ["Sent (", ") twice", "Authorization: ", "", "=[REDACTED]",
    "[REDACTED_EMAIL]", "Bearer [REDACTED]"], ¬"abc123".toList <:+: u.toList := by
  decide +kernel

/-- A message whose word Bearer follows a bracket. -/
theorem sample_message : @BearerMessage UnicodeData.letters "Sent (".toList "abc123".toList
    ") twice".toList :=
  @BearerMessage.mk UnicodeData.letters _ _ _ (by decide) ⟨'a', by decide, by decide⟩ (by decide)
    (by decide) (sample_absent _ (by simp)) (sample_absent _ (by simp))
    (sample_absent _ (by simp)) (sample_absent _ (by simp)) (sample_absent _ (by simp))

/-- Nothing in it claims the word: there is no sign of an assignment, no at-sign and no b. -/
theorem sample_unclaimed : @Unclaimed UnicodeData.letters "Sent (".toList :=
  @unclaimed_of_plain UnicodeData.letters _ (by decide) (by decide) (by decide) (by decide)

end Logging

end CommerceOperations
