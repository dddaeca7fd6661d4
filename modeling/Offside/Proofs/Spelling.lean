import Offside.Proofs.Canonical
import Offside.Proofs.Lexemes
import Offside.Token.Scanner

/-!
# Lexemes in writing

A text spells lexemes if a scanner that reads it between two lexemes emits them, and is then
again between two lexemes, with the same parentheses open (`Spells`). A name or a number is
only over when a character follows that cannot continue it, so what stands behind a text is
part of the notion: after most texts of the printer any character will do (`Anything`), after
a name or an expression one of those that end it (`AfterName`, `AfterValue`).

Texts are put together by `Spells.append`, parentheses around them by `Spells.group`, commas
between them by `spells_commaList`. The main statement is `Expr.spells_print`: an expression
that can be written spells the lexemes read off its tree.
-/

namespace Offside

namespace Scanner

/-- The tokens so far, as the grammar sees them. -/
def lexemes (s : Scanner) : List Lexeme :=
  s.tokens.toList.map Token.lexeme

@[simp] theorem lexemes_enter (s : Scanner) (c : Char) (m : Mode) :
    (s.enter c m).lexemes = s.lexemes := rfl

@[simp] theorem lexemes_push (s : Scanner) (t : Token) :
    (s.push t).lexemes = s.lexemes ++ [t.lexeme] := by
  simp [lexemes, push]

@[simp] theorem lexemes_pushPlain (s : Scanner) (k : Kind) (p : Position) :
    (s.pushPlain k p).lexemes = s.lexemes ++ [⟨k, none⟩] := by
  simp [pushPlain, Token.plain, Token.lexeme]

/-- The scanner between two lexemes. -/
def between (s : Scanner) : Scanner :=
  { s with mode := .gap }

/-- A lexeme begins in the same way whatever was read before it. -/
theorem begin_between (s : Scanner) (c : Char) : s.between.begin c = s.begin c := by
  simp only [begin, beginSymbol, between]
  rcases s with ⟨p, m, l, ps, ts⟩
  rcases ps with _ | ⟨q, ps⟩ <;> rfl

theorem scan_cons (s : Scanner) (c : Char) (cs : List Char) :
    s.scan (c :: cs) = (s.step c).scan cs := rfl

theorem scan_between (s : Scanner) (c : Char) (cs : List Char) :
    s.between.scan (c :: cs) = (s.begin c).scan cs := by
  rw [scan_cons, ← begin_between]
  rfl

/-- From `s`, between two lexemes, the lexemes `ls` have been read up to `s'`, which is between
two lexemes again, in the same line and with the same parentheses open. -/
structure Reaches (s : Scanner) (ls : List Lexeme) (s' : Scanner) : Prop where
  mode : s'.mode = .gap
  level : s'.level = s.level
  parens : s'.parens = s.parens
  lexemes : s'.lexemes = s.lexemes ++ ls

theorem Reaches.trans {s mid s' : Scanner} {ls ls' : List Lexeme} (h : Reaches s ls mid)
    (h' : Reaches mid ls' s') : Reaches s (ls ++ ls') s' where
  mode := h'.mode
  level := h'.level.trans h.level
  parens := h'.parens.trans h.parens
  lexemes := by rw [h'.lexemes, h.lexemes, List.append_assoc]

end Scanner

open Scanner

/-- The text spells the lexemes, if what stands behind it is one of `Next`. -/
def Spells (Next : List Char → Prop) (text : String) (ls : List Lexeme) : Prop :=
  ∀ s : Scanner, s.mode = .gap → ∃ s', Reaches s ls s' ∧
    ∀ rest, Next rest → s.scan (text.toList ++ rest) = s'.scan rest

/-- Whatever stands behind a text. -/
def Anything (_ : List Char) : Prop :=
  True

/-- Behind a text stands a character with the given property. -/
def Behind (p : Char → Bool) (rest : List Char) : Prop :=
  ∃ c cs, rest = c :: cs ∧ p c = true

/-- Behind a text stands what cannot continue a word. -/
abbrev AfterName : List Char → Prop :=
  Behind fun c => !Unicode.isAlphanumeric c

/-- Behind a text stands what the printer puts behind a value. -/
abbrev AfterValue : List Char → Prop :=
  Behind fun c => c == ' ' || c == ')' || c == ',' || c == '\n'

/-! ## Putting texts together -/

section

variable {N M : List Char → Prop} {t u : String} {ls ms : List Lexeme}

theorem Spells.mono (h : Spells N t ls) (hn : ∀ rest, M rest → N rest) : Spells M t ls := by
  intro s hs
  obtain ⟨s', hreach, hscan⟩ := h s hs
  exact ⟨s', hreach, fun rest hrest => hscan rest (hn rest hrest)⟩

theorem Spells.append (h : Spells N t ls) (h' : Spells M u ms)
    (hn : ∀ rest, M rest → N (u.toList ++ rest)) : Spells M (t ++ u) (ls ++ ms) := by
  intro s hs
  obtain ⟨mid, hmid, hscan⟩ := h s hs
  obtain ⟨s', hs', hscan'⟩ := h' mid hmid.mode
  refine ⟨s', hmid.trans hs', fun rest hrest => ?_⟩
  rw [String.toList_append, List.append_assoc, hscan _ (hn rest hrest), hscan' rest hrest]

/-- Behind a text that is over by itself anything can stand. -/
theorem Spells.then (h : Spells Anything t ls) (h' : Spells M u ms) :
    Spells M (t ++ u) (ls ++ ms) :=
  h.append h' fun _ _ => trivial

theorem spells_empty : Spells N "" [] := by
  intro s hs
  exact ⟨s, ⟨hs, rfl, rfl, by simp⟩, fun rest _ => rfl⟩

/-- A text that is over by itself is scanned up to its end. -/
theorem spells_of_scan (h : ∀ s : Scanner, s.mode = .gap → Reaches s ls (s.scan t.toList)) :
    Spells Anything t ls := by
  intro s hs
  exact ⟨s.scan t.toList, h s hs, fun rest _ => scan_append s t.toList rest⟩

theorem step_close {s : Scanner} {start : Position} {parens : List Position}
    (hmode : s.mode = .gap) (hparens : s.parens = start :: parens) :
    s.step ')' = ({ s with parens := parens }.pushPlain .rightParen s.position).enter ')' .gap := by
  obtain ⟨position, mode, level, _, tokens⟩ := s
  cases hmode
  cases hparens
  rfl

/-- Parentheses stand around any text that a parenthesis ends. -/
theorem Spells.group (h : Spells N t ls) (hn : ∀ rest, N (')' :: rest)) :
    Spells Anything ("(" ++ t ++ ")") (⟨.leftParen, none⟩ :: ls ++ [⟨.rightParen, none⟩]) := by
  intro s hs
  obtain ⟨mid, hmid, hscan⟩ := h (s.step '(') (by simp only [step, hs]; rfl)
  have hopen : s.step '(' =
      ({ s with parens := s.position :: s.parens }.pushPlain .leftParen s.position).enter '('
        .gap := by
    simp only [step, hs]
    rfl
  have hparens : mid.parens = s.position :: s.parens := by rw [hmid.parens, hopen]; rfl
  have hclose := step_close hmid.mode hparens
  refine ⟨mid.step ')', ⟨?_, ?_, ?_, ?_⟩, fun rest _ => ?_⟩
  · rw [hclose]
    rfl
  · rw [hclose]
    exact hmid.level.trans (by rw [hopen]; rfl)
  · rw [hclose]
    rfl
  · have hmid' : ({ mid with parens := s.parens } : Scanner).lexemes =
        s.lexemes ++ [⟨.leftParen, none⟩] ++ ls := by
      have := hmid.lexemes
      rw [hopen, lexemes_enter, lexemes_pushPlain] at this
      exact this
    rw [hclose, lexemes_enter, lexemes_pushPlain, hmid']
    simp
  · have htext : ("(" ++ t ++ ")").toList ++ rest = '(' :: (t.toList ++ ')' :: rest) := by simp
    rw [htext, scan_cons, hscan _ (hn rest), scan_cons]

end

/-! ## Names and literals -/

/-- The lexeme of a word: a reserved word carries no text. -/
def wordLexeme (text : String) : Lexeme :=
  match Kind.reserved? text with
  | some k => ⟨k, none⟩
  | none => nameLexeme text

theorem lexeme_ofWord (text : String) (p : Position) :
    (Token.ofWord text p).lexeme = wordLexeme text := by
  rw [Token.ofWord, wordLexeme]
  cases Kind.reserved? text <;> rfl

/-- A word goes on as long as letters and digits follow. -/
theorem scan_word (start : Position) : ∀ (cs : List Char) (s : Scanner) (text : String),
    s.mode = .word start text → cs.all Unicode.isAlphanumeric = true →
    s.scan cs = { s with
      position := s.position.advanceAll cs, mode := .word start (text ++ String.ofList cs) }
  | [], s, text, hs, _ => by simp [scan, Position.advanceAll, ← hs]
  | c :: cs, s, text, hs, hcs => by
    rw [List.all_cons, Bool.and_eq_true] at hcs
    have hstep : s.step c = s.enter c (.word start (text.push c)) := by
      simp only [step, hs, hcs.1, if_true]
    rw [scan_cons, hstep, scan_word start cs (s.enter c (.word start (text.push c))) _ rfl hcs.2]
    simp [enter, Position.advanceAll, ← String.toList_inj]

/-- A word is open from its first letter to its end. -/
theorem scan_whole_word {text : String}
    (hfirst : text.toList.head?.any Unicode.isAlphabetic = true)
    (hall : text.toList.all Unicode.isAlphanumeric = true) {s : Scanner} (hs : s.mode = .gap) :
    s.scan text.toList = { s with
      position := s.position.advanceAll text.toList, mode := .word s.position text } := by
  obtain ⟨c, cs, hcs⟩ : ∃ c cs, text.toList = c :: cs := by
    rcases hcs : text.toList with _ | ⟨c, cs⟩
    · rw [hcs] at hfirst
      cases hfirst
    · exact ⟨c, cs, rfl⟩
  rw [hcs] at hfirst hall
  rw [List.all_cons, Bool.and_eq_true] at hall
  have hstep : s.step c = s.enter c (.word s.position (String.singleton c)) := by
    have hc : Unicode.isAlphabetic c = true := hfirst
    simp only [step, hs, begin, hc, if_true]
  have htext : String.singleton c ++ String.ofList cs = text := by
    simp [← String.toList_inj, hcs]
  rw [hcs, scan_cons, scan_word s.position cs _ _ (congrArg Scanner.mode hstep) hall.2, htext,
    hstep]
  rfl

theorem spells_word {text : String} (hfirst : text.toList.head?.any Unicode.isAlphabetic = true)
    (hall : text.toList.all Unicode.isAlphanumeric = true) :
    Spells AfterName text [wordLexeme text] := by
  intro s hs
  have hscan := scan_whole_word hfirst hall hs
  refine ⟨((s.scan text.toList).push (Token.ofWord text s.position)).between,
    ⟨rfl, ?_, ?_, ?_⟩, ?_⟩
  · rw [hscan]
    rfl
  · rw [hscan]
    rfl
  · rw [hscan]
    simp [between, lexemes, push, lexeme_ofWord]
  · rintro rest ⟨d, ds, rfl, hd⟩
    rw [scan_append, scan_between, scan_cons]
    congr 1
    rw [Bool.not_eq_true'] at hd
    rw [hscan]
    simp only [step, hd, Bool.false_eq_true, if_false]

theorem spells_name {x : String} (h : isIdentifier x = true) :
    Spells AfterName x [nameLexeme x] := by
  simp only [isIdentifier, Bool.and_eq_true, Option.isNone_iff_eq_none] at h
  obtain ⟨⟨hfirst, hall⟩, hfree⟩ := h
  have hword := spells_word hfirst hall
  rwa [wordLexeme, hfree] at hword

/-- Digits are no letters. -/
theorem not_isAlphabetic_of_isDigit {c : Char} (h : c.isDigit = true) :
    Unicode.isAlphabetic c = false := by
  have hc : c.toNat ≤ 57 := by
    simp only [Char.isDigit, Bool.and_eq_true, decide_eq_true_eq, ge_iff_le] at h
    exact UInt32.le_iff_toNat_le.mp h.2
  show (if c.toNat ≤ 90 then decide (65 ≤ c.toNat) else _) = false
  rw [if_pos (by omega)]
  exact decide_eq_false (by omega)

theorem begin_digit (s : Scanner) {c : Char} (h : c.isDigit = true) :
    s.begin c = s.enter c (.number s.position (String.singleton c) false) := by
  have hline : c ≠ '\n' := by
    rintro rfl
    cases h
  have hbrace : c ≠ '{' := by
    rintro rfl
    cases h
  rw [begin, not_isAlphabetic_of_isDigit h, if_neg (by simp), if_neg hline, if_neg hbrace, if_pos h]

theorem ne_dot_of_isDigit {c : Char} (h : c.isDigit = true) : c ≠ '.' := by
  rintro rfl
  cases h

/-- A number goes on as long as digits follow, or a dot if it has none. -/
theorem scan_number (start : Position) : ∀ (cs : List Char) (s : Scanner) (text : String)
    (dotted : Bool), s.mode = .number start text dotted →
    cs.all (fun c => c.isDigit || c == '.') = true → cs.count '.' + dotted.toNat ≤ 1 →
    s.scan cs = { s with
      position := s.position.advanceAll cs
      mode := .number start (text ++ String.ofList cs) (dotted || cs.contains '.') }
  | [], s, text, dotted, hs, _, _ => by simp [scan, Position.advanceAll, ← hs]
  | c :: cs, s, text, dotted, hs, hcs, hdots => by
    rw [List.all_cons, Bool.and_eq_true] at hcs
    obtain ⟨dotted', hstep, hdots', hor⟩ : ∃ dotted', s.step c =
        s.enter c (.number start (text.push c) dotted') ∧ cs.count '.' + dotted'.toNat ≤ 1 ∧
        (dotted' || cs.contains '.') = (dotted || (c :: cs).contains '.') := by
      by_cases hdigit : c.isDigit = true
      · have hne := ne_dot_of_isDigit hdigit
        rw [List.count_cons_of_ne hne] at hdots
        exact ⟨dotted, by simp only [step, hs, hdigit, if_true], hdots, by simp [hne.symm]⟩
      · obtain rfl : c = '.' := by simpa [hdigit] using hcs.1
        rw [List.count_cons_self] at hdots
        have hfirst : dotted = false := by
          cases dotted
          · rfl
          · rw [Bool.toNat_true] at hdots
            omega
        refine ⟨true, ?_, by rw [Bool.toNat_true]; omega, by simp⟩
        simp only [step, hs, hfirst, and_self, if_true]
        rfl
    rw [scan_cons, scan_number start cs _ _ _ (congrArg Scanner.mode hstep) hcs.2 hdots', hstep,
      hor]
    simp [enter, Position.advanceAll, ← String.toList_inj]

/-- A number starts with a digit, or with a dot and a digit. -/
theorem numeral_start {text : String} (h : isNumeral text = true) :
    ∃ c cs, c.isDigit = true ∧ (text.toList = c :: cs ∨ text.toList = '.' :: c :: cs) := by
  simp only [isNumeral, Bool.and_eq_true, decide_eq_true_eq] at h
  obtain ⟨⟨hall, hdots⟩, hdigit⟩ := h
  rcases hcs : text.toList with _ | ⟨c, cs⟩
  · rw [hcs] at hdigit
    cases hdigit
  rw [hcs] at hall hdots hdigit
  rw [List.all_cons, Bool.and_eq_true] at hall
  by_cases hc : c.isDigit = true
  · exact ⟨c, cs, hc, Or.inl rfl⟩
  obtain rfl : c = '.' := by simpa [hc] using hall.1
  rcases cs with _ | ⟨d, cs⟩
  · cases hdigit
  have hd : d ≠ '.' := by
    rintro rfl
    rw [List.count_cons_self, List.count_cons_self] at hdots
    omega
  have hdall : (d.isDigit || d == '.') = true := by
    have := hall.2
    rw [List.all_cons, Bool.and_eq_true] at this
    exact this.1
  exact ⟨d, cs, by simpa [hd] using hdall, Or.inr rfl⟩

/-- A number is open from its first digit or its dot to its end. -/
theorem scan_numeral {text : String} (h : isNumeral text = true) {s : Scanner}
    (hs : s.mode = .gap) : s.scan text.toList = { s with
      position := s.position.advanceAll text.toList
      mode := .number s.position text (text.toList.contains '.') } := by
  have hparts := h
  simp only [isNumeral, Bool.and_eq_true, decide_eq_true_eq] at hparts
  obtain ⟨⟨hall, hdots⟩, -⟩ := hparts
  obtain ⟨c, cs, hc, hcs | hcs⟩ := numeral_start h
  · rw [hcs] at hall hdots
    rw [List.all_cons, Bool.and_eq_true] at hall
    rw [List.count_cons_of_ne (ne_dot_of_isDigit hc)] at hdots
    have hstep : s.step c = s.enter c (.number s.position (String.singleton c) false) := by
      rw [← begin_digit s hc]
      simp only [step, hs]
    rw [hcs, scan_cons, scan_number s.position cs _ _ false (congrArg Scanner.mode hstep) hall.2
      hdots, hstep]
    simp [enter, Position.advanceAll, ← String.toList_inj, hcs, (ne_dot_of_isDigit hc).symm]
  · rw [hcs] at hall hdots
    rw [List.all_cons, List.all_cons, Bool.and_eq_true, Bool.and_eq_true] at hall
    rw [List.count_cons_self, List.count_cons_of_ne (ne_dot_of_isDigit hc)] at hdots
    have hdot : s.step '.' = s.enter '.' (.dot s.position) := by
      simp only [step, hs]
      rfl
    have hstep : (s.step '.').step c =
        (s.step '.').enter c (.number s.position (".".push c) true) := by
      rw [hdot]
      show (if c.isDigit = true then _ else _) = _
      rw [if_pos hc]
    rw [hcs, scan_cons, scan_cons, scan_number s.position cs _ _ true
      (congrArg Scanner.mode hstep) hall.2.2 (by rw [Bool.toNat_true]; omega), hstep, hdot]
    simp [enter, Position.advanceAll, ← String.toList_inj, hcs]

theorem spells_numeral {text : String} (h : isNumeral text = true) :
    Spells AfterValue text [⟨.number, some text⟩] := by
  intro s hs
  have hscan := scan_numeral h hs
  refine ⟨((s.scan text.toList).push ⟨.number, s.position, some text⟩).between,
    ⟨rfl, ?_, ?_, ?_⟩, ?_⟩
  · rw [hscan]
    rfl
  · rw [hscan]
    rfl
  · rw [hscan]
    simp [between, lexemes, push, Token.lexeme]
  · rintro rest ⟨e, es, rfl, he⟩
    obtain ⟨hdigit, hdot⟩ : e.isDigit = false ∧ e ≠ '.' := by
      simp only [Bool.or_eq_true, beq_iff_eq] at he
      rcases he with ((rfl | rfl) | rfl) | rfl <;> exact ⟨rfl, by decide⟩
    rw [scan_append, scan_between, scan_cons]
    congr 1
    rw [hscan]
    simp only [step, hdigit, hdot, Bool.false_eq_true, false_and, if_false]

/-- The text of a string goes on up to a quote without a backslash in front. -/
theorem scan_string (start : Position) : ∀ (cs : List Char) (s : Scanner) (text : String)
    (escaped : Bool), s.mode = (if escaped then .escape start text else .string start text) →
    isStringBody escaped cs = true →
    s.scan cs = { s with
      position := s.position.advanceAll cs, mode := .string start (text ++ String.ofList cs) }
  | [], s, text, escaped, hs, hcs => by
    obtain rfl : escaped = false := by simpa [isStringBody] using hcs
    have hs : s.mode = .string start text := hs
    simp [scan, Position.advanceAll, ← hs]
  | c :: cs, s, text, escaped, hs, hcs => by
    obtain ⟨escaped', hstep, hcs'⟩ : ∃ escaped', s.step c =
        s.enter c (if escaped' then .escape start (text.push c) else .string start (text.push c)) ∧
        isStringBody escaped' cs = true := by
      cases escaped with
      | true =>
        have hs : s.mode = .escape start text := hs
        exact ⟨false, by simp [step, hs], by simpa [isStringBody] using hcs⟩
      | false =>
        have hs : s.mode = .string start text := hs
        by_cases hc : c = '\\'
        · subst hc
          exact ⟨true, by simp [step, hs], by simpa [isStringBody] using hcs⟩
        · simp only [isStringBody, Bool.false_eq_true, if_false, hc, Bool.and_eq_true,
            bne_iff_ne] at hcs
          exact ⟨false, by simp [step, hs, hc, hcs.1], hcs.2⟩
    rw [scan_cons, scan_string start cs _ (text.push c) escaped' (congrArg Scanner.mode hstep)
      hcs', hstep]
    simp [enter, Position.advanceAll, ← String.toList_inj]

/-- A string is over with its second quote. -/
theorem scan_whole_string {text : String} (h : isStringBody false text.toList = true)
    {s : Scanner} (hs : s.mode = .gap) :
    s.scan ('"' :: (text.toList ++ ['"'])) =
      { s.push ⟨.quotedString, s.position, some text⟩ with
        position := s.position.advanceAll ('"' :: (text.toList ++ ['"'])), mode := .gap } := by
  have hopen : s.step '"' = s.enter '"' (.string s.position "") := by
    simp only [step, hs]
    rfl
  rw [scan_cons, scan_append, scan_string s.position text.toList (s.step '"') "" false
    (by rw [hopen]; rfl) h, hopen]
  simp [scan, step, enter, push, Position.advanceAll]

theorem spells_string {text : String} (h : isStringBody false text.toList = true) :
    Spells Anything ("\"" ++ text ++ "\"") [⟨.quotedString, some text⟩] := by
  refine spells_of_scan fun s hs => ?_
  have htext : ("\"" ++ text ++ "\"").toList = '"' :: (text.toList ++ ['"']) := by simp
  rw [htext, scan_whole_string h hs]
  exact ⟨rfl, rfl, rfl, by simp [lexemes, push, Token.lexeme]⟩

/-- A character literal is over with its second quote. -/
theorem scan_whole_character {c : Char} (h : c ≠ '\n') {s : Scanner} (hs : s.mode = .gap) :
    s.scan ['\'', c, '\''] =
      { s.push ⟨.quotedCharacter, s.position, some (String.singleton c)⟩ with
        position := s.position.advanceAll ['\'', c, '\''], mode := .gap } := by
  have hopen : s.step '\'' = s.enter '\'' (.openQuote s.position) := by
    simp only [step, hs]
    rfl
  have hvalue : (s.step '\'').step c = (s.step '\'').enter c (.closeQuote s.position c) := by
    rw [hopen]
    show (if c = '\n' then _ else _) = _
    rw [if_neg h]
  rw [scan_cons, scan_cons, hvalue, hopen]
  rfl

theorem spells_character {c : Char} (h : c ≠ '\n') :
    Spells Anything ("'" ++ c.toString ++ "'")
      [⟨.quotedCharacter, some (String.singleton c)⟩] := by
  refine spells_of_scan fun s hs => ?_
  have htext : ("'" ++ c.toString ++ "'").toList = ['\'', c, '\''] := by simp [Char.toString]
  rw [htext, scan_whole_character h hs]
  exact ⟨rfl, rfl, rfl, by simp [lexemes, push, Token.lexeme]⟩

/-! ## Signs and keywords -/

/-- Signs are read one by one, whatever the scanner has read before them. -/
theorem spells_sign {text : String} {k : Kind}
    (h : ∀ p l ps ts, ∃ q r, Scanner.scan ⟨p, .gap, l, ps, ts⟩ text.toList =
      ⟨r, .gap, l, ps, ts.push (Token.plain k q)⟩) : Spells Anything text [⟨k, none⟩] := by
  refine spells_of_scan fun s hs => ?_
  obtain ⟨p, m, l, ps, ts⟩ := s
  cases hs
  obtain ⟨q, r, hscan⟩ := h p l ps ts
  rw [hscan]
  exact ⟨rfl, rfl, rfl, by simp [lexemes, Token.plain, Token.lexeme]⟩

theorem spells_math (op : MathOp) :
    Spells Anything (" " ++ op.symbol ++ " ") [⟨op.kind, none⟩] := by
  cases op <;> exact spells_sign fun _ _ _ _ => ⟨_, _, rfl⟩

theorem spells_compare (op : CompareOp) :
    Spells Anything (" " ++ op.symbol ++ " ") [⟨op.kind, none⟩] := by
  cases op <;> exact spells_sign fun _ _ _ _ => ⟨_, _, rfl⟩

theorem spells_comma : Spells Anything ", " [⟨.comma, none⟩] :=
  spells_sign fun _ _ _ _ => ⟨_, _, rfl⟩

theorem spells_assign : Spells Anything " = " [⟨.assign, none⟩] :=
  spells_sign fun _ _ _ _ => ⟨_, _, rfl⟩

theorem spells_colon : Spells Anything ": " [⟨.colon, none⟩] :=
  spells_sign fun _ _ _ _ => ⟨_, _, rfl⟩

theorem spells_space : Spells Anything " " [] :=
  spells_of_scan fun s hs => by
    obtain ⟨p, m, l, ps, ts⟩ := s
    cases hs
    exact ⟨rfl, rfl, rfl, (List.append_nil _).symm⟩

/-- A dot ends with the letter that follows it. -/
theorem spells_dot : Spells (Behind Unicode.isAlphabetic) "." [⟨.dot, none⟩] := by
  intro s hs
  have hdot : s.step '.' = s.enter '.' (.dot s.position) := by
    simp only [step, hs]
    rfl
  refine ⟨((s.step '.').pushPlain .dot s.position).between, ⟨rfl, ?_, ?_, ?_⟩, ?_⟩
  · rw [hdot]
    rfl
  · rw [hdot]
    rfl
  · rw [hdot]
    exact lexemes_pushPlain s _ _
  · rintro rest ⟨c, cs, rfl, hc⟩
    have hdigit : c.isDigit = false := by
      rw [Bool.eq_false_iff]
      intro h
      rw [not_isAlphabetic_of_isDigit h] at hc
      cases hc
    show (s.step '.').scan (c :: cs) = _
    rw [scan_between, scan_cons]
    congr 1
    rw [hdot]
    show (if c.isDigit = true then _ else _) = _
    rw [hdigit]
    rfl

theorem spells_keyword (text : String) {k : Kind} (hk : Kind.reserved? text = some k)
    (hfirst : text.toList.head?.any Unicode.isAlphabetic = true)
    (hall : text.toList.all Unicode.isAlphanumeric = true) :
    Spells AfterName text [⟨k, none⟩] := by
  have hword := spells_word hfirst hall
  rwa [wordLexeme, hk] at hword

/-- A keyword with the space that the printer puts behind it. -/
theorem spells_keyword_space (text : String) {k : Kind} (hk : Kind.reserved? text = some k)
    (hfirst : text.toList.head?.any Unicode.isAlphabetic = true)
    (hall : text.toList.all Unicode.isAlphanumeric = true) :
    Spells Anything (text ++ " ") [⟨k, none⟩] :=
  (spells_keyword text hk hfirst hall).append spells_space fun rest _ => ⟨' ', rest, rfl, rfl⟩

/-! ## Lists and expressions -/

theorem AfterValue.afterName {rest : List Char} (h : AfterValue rest) : AfterName rest := by
  obtain ⟨c, cs, rfl, hc⟩ := h
  refine ⟨c, cs, rfl, ?_⟩
  simp only [Bool.or_eq_true, beq_iff_eq] at hc
  rcases hc with ((rfl | rfl) | rfl) | rfl <;> rfl

theorem behind_text {p : Char → Bool} {text : String} (c : Char)
    (ht : text.toList.head? = some c) (hc : p c = true) (rest : List Char) :
    Behind p (text.toList ++ rest) := by
  rcases hcs : text.toList with _ | ⟨d, cs⟩
  · rw [hcs] at ht
    cases ht
  · rw [hcs] at ht
    cases ht
    exact ⟨c, cs ++ rest, rfl, hc⟩

theorem afterValue_cons {c : Char} (h : c = ' ' ∨ c = ')' ∨ c = ',' ∨ c = '\n')
    (rest : List Char) : AfterValue (c :: rest) := by
  refine ⟨c, rest, rfl, ?_⟩
  rcases h with rfl | rfl | rfl | rfl <;> rfl

theorem Spells.value {t : String} {ls : List Lexeme} (h : Spells AfterName t ls) :
    Spells AfterValue t ls :=
  h.mono fun _ hrest => hrest.afterName

theorem Spells.closed {N : List Char → Prop} {t : String} {ls : List Lexeme}
    (h : Spells Anything t ls) : Spells N t ls :=
  h.mono fun _ _ => trivial

theorem spells_commaList {α : Type} {f : α → String} {g : α → List Lexeme} :
    ∀ {items : List α}, (∀ a ∈ items, Spells AfterValue (f a) (g a)) →
      Spells AfterValue (commaList (items.map f)) (separated (items.map g))
  | [], _ => by simpa [commaList, separated] using spells_empty
  | [a], h => by simpa [commaList, separated] using h a (by simp)
  | a :: b :: items, h => by
    have hrest := spells_commaList fun c (hc : c ∈ b :: items) => h c (List.mem_cons_of_mem _ hc)
    have hcons := (h a (by simp)).append (spells_comma.then hrest)
      fun rest _ => behind_text ',' (by simp) rfl rest
    simpa [commaList, separated, String.append_assoc] using hcons

theorem spells_names {names : List String} (h : names.all isIdentifier = true) :
    Spells AfterValue (commaList names) (separated (names.map fun x => [nameLexeme x])) := by
  have hlist := spells_commaList (f := id) (g := fun x => [nameLexeme x]) fun x hx =>
    (spells_name (List.all_eq_true.mp h x hx)).value
  rwa [List.map_id] at hlist

/-- A name with a list in parentheses behind it. -/
theorem spells_applied {x args : String} {ls : List Lexeme} (hx : isIdentifier x = true)
    (h : Spells AfterValue args ls) :
    Spells Anything (x ++ "(" ++ args ++ ")")
      (nameLexeme x :: ⟨.leftParen, none⟩ :: ls ++ [⟨.rightParen, none⟩]) := by
  have hgroup := h.group fun rest => afterValue_cons (by simp) rest
  have happlied := (spells_name hx).append hgroup fun rest _ => behind_text '(' (by simp) rfl rest
  simpa [String.append_assoc] using happlied

theorem spells_parenthesize {t : String} {ls : List Lexeme} (h : Spells AfterValue t ls) :
    ∀ needed : Bool, Spells AfterValue (Expr.parenthesize needed t) (parenthesized needed ls)
  | false => h
  | true => (h.group fun rest => afterValue_cons (by simp) rest).closed

theorem identifier_start {x : String} (h : isIdentifier x = true) (rest : List Char) :
    Behind Unicode.isAlphabetic (x.toList ++ rest) := by
  simp only [isIdentifier, Bool.and_eq_true] at h
  rcases hcs : x.toList with _ | ⟨c, cs⟩
  · rw [hcs] at h
    cases h.1.1
  · rw [hcs] at h
    exact ⟨c, cs ++ rest, rfl, h.1.1⟩

namespace Expr

theorem spells_arguments {es : List Expr} (h : ∀ e ∈ es, Spells AfterValue e.print e.lexemes) :
    Spells AfterValue (commaList (printAll es)) (separated (allLexemes es)) := by
  rw [printAll_eq_map, allLexemes_eq_map]
  exact spells_commaList h

mutual

theorem spells_print : ∀ {e : Expr}, e.isCanonical = true → Spells AfterValue e.print e.lexemes
  | number _, h => spells_numeral h
  | string _, h => (spells_string h).closed
  | character value, h => (spells_character (by simpa [isCanonical] using h)).closed
  | var _, h => (spells_name h).value
  | call none method arguments, h => by
    simp only [isCanonical, Bool.and_eq_true] at h
    have hcall := spells_applied h.1.2 (spells_arguments (spells_printAll h.2))
    simpa [print, lexemes, String.append_assoc] using hcall.closed
  | call (some r) method arguments, h => by
    simp only [isCanonical, Bool.and_eq_true, Option.all_some] at h
    have hcall := spells_applied h.1.2 (spells_arguments (spells_printAll h.2))
    have hdot := spells_dot.append hcall fun rest _ => by
      simpa [String.append_assoc] using identifier_start h.1.2 _
    have hname := (spells_name h.1.1).append hdot fun rest _ => behind_text '.' (by simp) rfl rest
    simpa [print, lexemes, String.append_assoc] using hname.closed
  | math op left right, h => by
    simp only [isCanonical, Bool.and_eq_true] at h
    have hleft := spells_parenthesize (spells_print h.1)
      (needsParens left.precedence (precedence (math op left right)) false)
    have hright := spells_parenthesize (spells_print h.2)
      (needsParens right.precedence (precedence (math op left right)) true)
    have hmath := hleft.append ((spells_math op).then hright)
      fun rest _ => behind_text ' ' (by simp) rfl rest
    simpa [print, lexemes, String.append_assoc] using hmath
  | new typeName arguments, h => by
    simp only [isCanonical, Bool.and_eq_true] at h
    have hcall := spells_applied h.1 (spells_arguments (spells_printAll h.2))
    have hnew : Spells Anything "new " [⟨.kwNew, none⟩] := spells_keyword_space "new" rfl rfl rfl
    simpa [print, lexemes, String.append_assoc] using (hnew.then hcall).closed

theorem spells_printAll : ∀ {es : List Expr}, allCanonical es = true →
    ∀ e ∈ es, Spells AfterValue e.print e.lexemes
  | [], _, _, hmem => by cases hmem
  | e :: rest, h, e', hmem => by
    simp only [allCanonical, Bool.and_eq_true] at h
    rcases List.mem_cons.mp hmem with heq | hmem
    · exact heq ▸ spells_print h.1
    · exact spells_printAll h.2 e' hmem

end

/-- No side of a comparison needs parentheses. -/
theorem spells_condition {c : Expr} (h : c.isCondition = true) :
    Spells AfterValue c.print c.lexemes := by
  cases c with
  | var => exact (spells_name h).value
  | call => exact spells_print h
  | compare op left right =>
    simp only [isCondition, Bool.and_eq_true] at h
    have hleft : needsParens left.precedence 4 false = false := by
      have := five_le_precedence h.1
      simp [needsParens]
      omega
    have hright : needsParens right.precedence 4 true = false := by
      have := five_le_precedence h.2
      simp [needsParens]
      omega
    have hcompare := (spells_print h.1).append ((spells_compare op).then (spells_print h.2))
      fun rest _ => behind_text ' ' (by simp) rfl rest
    simpa [print, lexemes, hleft, hright, parenthesize, String.append_assoc] using hcompare
  | _ => cases h

end Expr

end Offside
