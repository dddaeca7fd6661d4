import Offside.Proofs.Moves
import Offside.Proofs.Spelling

/-!
# The texts that tokens carry

A scanner gives a text to names and literals only, and only texts that can be written
(`Lexeme.WellFormed`). The invariant says of the lexeme that is open what is known of the part
of it read so far (`Mode.WellFormed`): part of a string, for instance, leaves it to what
follows whether the whole can stand between quotes. Every character keeps it
(`Scanner.WellFormed.step`), so that it holds of the tokens of a text
(`wellFormed_of_tokenize`).
-/

namespace Offside

/-- The lexeme carries a text if its kind does, and one that can be written. -/
def Lexeme.WellFormed (l : Lexeme) : Prop :=
  match l.kind with
  | .word => ∃ x, l.value = some x ∧ isIdentifier x = true
  | .number => ∃ text, l.value = some text ∧ isNumeral text = true
  | .quotedString => ∃ text, l.value = some text ∧ isStringBody false text.toList = true
  | .quotedCharacter => ∃ c, l.value = some (String.singleton c) ∧ c ≠ '\n'
  | _ => l.value = none

/-- What is known of the part that has been read of the open lexeme. -/
def Mode.WellFormed : Mode → Prop
  | .word _ text => text.toList.head?.any Unicode.isAlphabetic = true ∧
      text.toList.all Unicode.isAlphanumeric = true
  | .number _ text dotted => text.toList.all (fun c => c.isDigit || c == '.') = true ∧
      text.toList.count '.' = dotted.toNat ∧ text.toList.any Char.isDigit = true
  | .string _ text => ∀ cs, isStringBody false (text.toList ++ cs) = isStringBody false cs
  | .escape _ text => ∀ cs, isStringBody false (text.toList ++ cs) = isStringBody true cs
  | .operator _ _ extended => extended.carriesValue = false
  | .closeQuote _ value => value ≠ '\n'
  | _ => True

/-! ## What is open -/

/-- Kinds that carry no text. -/
theorem Lexeme.wellFormed_plain {k : Kind} (h : k.carriesValue = false) :
    (⟨k, none⟩ : Lexeme).WellFormed := by
  cases k <;> first | rfl | cases h

/-- A reserved word carries no text, and any other word is a name. -/
theorem wellFormed_word {text : String}
    (hfirst : text.toList.head?.any Unicode.isAlphabetic = true)
    (hall : text.toList.all Unicode.isAlphanumeric = true) (p : Position) :
    (Token.ofWord text p).lexeme.WellFormed := by
  rw [lexeme_ofWord, wordLexeme]
  cases hk : Kind.reserved? text with
  | none => exact ⟨text, rfl, by simp [isIdentifier, hfirst, hall, hk]⟩
  | some k =>
    obtain ⟨before, behind, heq, -⟩ := List.lookup_eq_some_iff.mp hk
    have hall : ∀ e ∈ Kind.reservedWords, e.2.carriesValue = false := by decide
    exact Lexeme.wellFormed_plain (hall (text, k) (by simp [heq]))

theorem wellFormed_numeral {start p : Position} {text : String} {dotted : Bool}
    (h : (Mode.number start text dotted).WellFormed) :
    (⟨.number, p, some text⟩ : Token).lexeme.WellFormed := by
  obtain ⟨hall, hdots, hdigit⟩ := h
  have hle : text.toList.count '.' ≤ 1 := hdots ▸ Bool.toNat_le dotted
  exact ⟨text, rfl, by simp [isNumeral, hall, hle, hdigit]⟩

theorem carriesValue_sign {k : Kind} (h : k ∈ Scanner.signKinds) : k.carriesValue = false := by
  have hall : ∀ k ∈ Scanner.signKinds, k.carriesValue = false := by decide
  exact hall k h

theorem wellFormed_word_push {start : Position} {text : String} {c : Char}
    (h : (Mode.word start text).WellFormed) (hc : Unicode.isAlphanumeric c = true) :
    (Mode.word start (text.push c)).WellFormed := by
  obtain ⟨hfirst, hall⟩ := h
  refine ⟨?_, by simp [hall, hc]⟩
  rw [String.toList_push, List.head?_append]
  rcases hd : text.toList.head? with _ | d
  · rw [hd] at hfirst
    cases hfirst
  · rwa [hd] at hfirst

theorem wellFormed_digit_push {start : Position} {text : String} {dotted : Bool} {c : Char}
    (h : (Mode.number start text dotted).WellFormed) (hc : c.isDigit = true) :
    (Mode.number start (text.push c) dotted).WellFormed := by
  obtain ⟨hall, hdots, hdigit⟩ := h
  exact ⟨by simp [hall, hc], by simp [ne_dot_of_isDigit hc, hdots], by simp [hdigit]⟩

theorem wellFormed_dot_push {start : Position} {text : String}
    (h : (Mode.number start text false).WellFormed) :
    (Mode.number start (text.push '.') true).WellFormed := by
  obtain ⟨hall, hdots, hdigit⟩ := h
  exact ⟨by simp [hall], by simp [hdots], by simp [hdigit]⟩

theorem wellFormed_string_escape {start : Position} {text : String}
    (h : (Mode.string start text).WellFormed) :
    (Mode.escape start (text.push '\\')).WellFormed := by
  intro cs
  rw [String.toList_push, List.append_assoc, h]
  simp [isStringBody]

theorem wellFormed_string_push {start : Position} {text : String} {c : Char}
    (h : (Mode.string start text).WellFormed) (hquote : c ≠ '"') (hc : c ≠ '\\') :
    (Mode.string start (text.push c)).WellFormed := by
  intro cs
  rw [String.toList_push, List.append_assoc, h]
  simp [isStringBody, hquote, hc]

theorem wellFormed_escape_push {start : Position} {text : String} {c : Char}
    (h : (Mode.escape start text).WellFormed) :
    (Mode.string start (text.push c)).WellFormed := by
  intro cs
  rw [String.toList_push, List.append_assoc, h]
  simp [isStringBody]

namespace Mode

variable {m m' : Mode} {c : Char} {t : Token} {here : Position}

theorem Opens.wellFormed (h : Opens here c m) : m.WellFormed := by
  cases h with
  | word hc => exact ⟨by simpa using hc, by simp [Unicode.isAlphanumeric, hc]⟩
  | number hc => exact ⟨by simp [hc], by simp [ne_dot_of_isDigit hc], by simp [hc]⟩
  | string => exact fun _ => rfl
  | operator hkind => exact carriesValue_sign (Scanner.extended?_mem hkind)
  | comment | whiteSpace | openQuote | dot => trivial

/-- What is open stays able to become well-formed. -/
theorem Continues.wellFormed (h : m.Continues c m') (hm : m.WellFormed) : m'.WellFormed := by
  cases h with
  | letter hc => exact wellFormed_word_push hm hc
  | digit hc => exact wellFormed_digit_push hm hc
  | point => exact wellFormed_dot_push hm
  | fraction hc => exact ⟨by simp [hc], by simp [ne_dot_of_isDigit hc], by simp [hc]⟩
  | string hquote hc => exact wellFormed_string_push hm hquote hc
  | backslash => exact wellFormed_string_escape hm
  | escaped => exact wellFormed_escape_push hm
  | character hc => exact hc
  | _ => trivial

/-- The kind that an equals sign makes of a symbol comes with the mode, where it is a kind of no
text. -/
theorem Completes.wellFormed (h : m.Completes c t) (hm : m.WellFormed) : t.lexeme.WellFormed := by
  cases h with
  | equals => exact Lexeme.wellFormed_plain hm
  | @string _ text => exact ⟨text, rfl, by simpa [isStringBody] using hm []⟩
  | @character _ value => exact ⟨value, rfl, hm⟩

theorem Ends.wellFormed (h : m.Ends c t) (hm : m.WellFormed) : t.lexeme.WellFormed := by
  cases h with
  | word => exact wellFormed_word hm.1 hm.2 _
  | number => exact wellFormed_numeral hm
  | dot => exact Lexeme.wellFormed_plain (k := .dot) rfl
  | operator _ hkind =>
    exact Lexeme.wellFormed_plain (carriesValue_sign (Scanner.alone?_mem hkind))

end Mode

/-! ## What a scanner has read -/

namespace Scanner

/-- The tokens so far carry texts that can be written. -/
def TokensWellFormed (s : Scanner) : Prop :=
  ∀ l ∈ s.lexemes, l.WellFormed

/-- The tokens so far are well-formed, and what is open can become so. -/
structure WellFormed (s : Scanner) : Prop where
  mode : s.mode.WellFormed
  tokens : s.TokensWellFormed

variable {s s' : Scanner} {c : Char}

theorem TokensWellFormed.push (h : s.TokensWellFormed) {t : Token} (ht : t.lexeme.WellFormed) :
    (s.push t).TokensWellFormed := by
  intro l hl
  rw [lexemes_push] at hl
  rcases List.mem_append.mp hl with hl | hl
  · exact h l hl
  · exact List.mem_singleton.mp hl ▸ ht

theorem TokensWellFormed.pushPlain (h : s.TokensWellFormed) {k : Kind}
    (hk : k.carriesValue = false) (p : Position) : (s.pushPlain k p).TokensWellFormed :=
  h.push (Lexeme.wellFormed_plain hk)

theorem TokensWellFormed.pushLayout {k : Kind} (hk : k.carriesValue = false) :
    ∀ (n : Nat) {s : Scanner}, s.TokensWellFormed → (s.pushLayout k n).TokensWellFormed
  | 0, _, h => h
  | n + 1, _, h => TokensWellFormed.pushLayout hk n (h.pushPlain hk _)

theorem TokensWellFormed.indentTo (h : s.TokensWellFormed) (level : Nat) :
    (s.indentTo level).TokensWellFormed :=
  TokensWellFormed.pushLayout (k := .dedent) rfl _
    (TokensWellFormed.pushLayout (k := .indent) rfl _ h)

theorem TokensWellFormed.begins (h : s.TokensWellFormed) (hs : s.Begins c s') :
    s'.WellFormed := by
  cases hs with
  | opens hopens => exact ⟨hopens.wellFormed, h⟩
  | newline => exact ⟨trivial, h.pushPlain (k := .newline) rfl _⟩
  | sign hkind => exact ⟨trivial, h.pushPlain (carriesValue_sign (single?_mem hkind)) _⟩
  | leftParen => exact ⟨trivial, TokensWellFormed.pushPlain (k := .leftParen) h rfl _⟩
  | rightParen => exact ⟨trivial, TokensWellFormed.pushPlain (k := .rightParen) h rfl _⟩
  | unmatched => exact ⟨trivial, h⟩
  | unrecognised => exact ⟨trivial, h⟩

theorem WellFormed.settles (h : s.WellFormed) (hs : s.Settles c s') : s'.TokensWellFormed := by
  cases hs with
  | idle => exact h.tokens
  | ends hends => exact h.tokens.push (hends.wellFormed h.mode)
  | indents => exact h.tokens.indentTo _

/-- Every character keeps the tokens well-formed, and what is open able to become so. -/
theorem WellFormed.moves (h : s.WellFormed) (hs : s.Moves c s') : s'.WellFormed := by
  cases hs with
  | rests => exact h
  | continues hc => exact ⟨hc.wellFormed h.mode, h.tokens⟩
  | completes hc => exact ⟨trivial, h.tokens.push (hc.wellFormed h.mode)⟩
  | begins hs => exact (h.settles hs).begins (begins_begin _ c)
  | fails => exact ⟨trivial, h.tokens⟩

theorem WellFormed.step (h : s.WellFormed) (c : Char) : (s.step c).WellFormed :=
  h.moves (moves_step s c)

theorem WellFormed.scan : ∀ (text : List Char) {s : Scanner}, s.WellFormed →
    (s.scan text).WellFormed
  | [], _, h => h
  | c :: text, _, h => WellFormed.scan text (h.step c)

theorem WellFormed.closes (h : s.WellFormed) (hs : s.Closes s') : s'.TokensWellFormed := by
  cases hs with
  | rests => exact h.tokens
  | ends hends => exact h.tokens.push (hends.wellFormed h.mode)
  | fails => exact h.tokens

theorem WellFormed.finish (h : s.WellFormed) : s.finish.TokensWellFormed := by
  have hend := h.closes (closes_endLexeme s)
  rw [Scanner.finish]
  split
  · exact hend
  · rw [endBlocks]
    split <;> exact hend.indentTo 0

end Scanner

/-- The tokens of a text carry texts that can be written. -/
theorem wellFormed_of_tokenize {source : String} {tokens : List Token}
    (h : tokenize source = .ok tokens) : ∀ t ∈ tokens, t.lexeme.WellFormed := by
  have hinitial : Scanner.initial.WellFormed := ⟨trivial, by simp [Scanner.TokensWellFormed,
    Scanner.lexemes, Scanner.initial]⟩
  have hfinish := (hinitial.scan source.toList).finish
  rw [tokenize, Scanner.result] at h
  split at h
  · cases h
  · cases h
    intro t ht
    exact hfinish _ (List.mem_map_of_mem ht)

end Offside
