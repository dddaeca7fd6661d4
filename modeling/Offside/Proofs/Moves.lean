import Offside.Token.Scanner

/-!
# What one character can do

Between two characters a scanner knows its mode, and what it does with the next is a matter of
the two. Either the character belongs to what is open, and goes on with it (`Mode.Continues`) or
completes it (`Mode.Completes`). Or it does not: then what is open ends in front of it
(`Scanner.Settles`) and the character is read where no lexeme is open (`Scanner.Begins`), or what
is open cannot end there (`Mode.Fails`).

`Scanner.Moves` puts these together. It is `Scanner.step` as a relation (`Scanner.moves_iff`): what
every character keeps is proved by its five cases, from what is known of the modes in each. The end
of a text is told in the same way (`Scanner.Closes`).
-/

namespace Offside

namespace Mode

/-! ## What is open -/

/-- The character belongs to what is open, and more of it may follow. -/
inductive Continues : Mode → Char → Mode → Prop
  | tab {level spaces} : Continues (.margin level spaces) '\t' (.margin (level + 1) 0)
  | lastSpace {level spaces} : spaces + 1 = spacesPerIndent →
      Continues (.margin level spaces) ' ' (.margin (level + 1) 0)
  | space {level spaces} : spaces + 1 ≠ spacesPerIndent →
      Continues (.margin level spaces) ' ' (.margin level (spaces + 1))
  | carriageReturn {level spaces} :
      Continues (.margin level spaces) '\r' (.margin level spaces)
  | letter {start text c} : Unicode.isAlphanumeric c = true →
      Continues (.word start text) c (.word start (text.push c))
  | digit {start text dotted c} : c.isDigit = true →
      Continues (.number start text dotted) c (.number start (text.push c) dotted)
  | point {start text} :
      Continues (.number start text false) '.' (.number start (text.push '.') true)
  | fraction {start c} : c.isDigit = true →
      Continues (.dot start) c (.number start (".".push c) true)
  | comment {start c} : c ≠ '}' → Continues (.comment start) c (.comment start)
  | closeBrace {start} : Continues (.comment start) '}' .afterComment
  | whiteSpace {c} : Unicode.isWhiteSpace c = true → c ≠ '\n' →
      Continues .afterComment c .afterComment
  | string {start text c} : c ≠ '"' → c ≠ '\\' →
      Continues (.string start text) c (.string start (text.push c))
  | backslash {start text} :
      Continues (.string start text) '\\' (.escape start (text.push '\\'))
  | escaped {start text c} : Continues (.escape start text) c (.string start (text.push c))
  | character {start c} : c ≠ '\n' → Continues (.openQuote start) c (.closeQuote start c)

/-- The character is the last of the lexeme that is open. -/
inductive Completes : Mode → Char → Token → Prop
  | equals {start symbol extended} :
      Completes (.operator start symbol extended) '=' (.plain extended start)
  | string {start text} : Completes (.string start text) '"' ⟨.quotedString, start, some text⟩
  | character {start value} :
      Completes (.closeQuote start value) '\'' ⟨.quotedCharacter, start, some (.singleton value)⟩

/-- The lexeme that is open cannot go on with the character, and is a token without it. -/
inductive Ends : Mode → Char → Token → Prop
  | word {start text c} : Unicode.isAlphanumeric c = false →
      Ends (.word start text) c (.ofWord text start)
  | number {start text dotted c} : c.isDigit = false → ¬(c = '.' ∧ dotted = false) →
      Ends (.number start text dotted) c ⟨.number, start, some text⟩
  | dot {start c} : c.isDigit = false → Ends (.dot start) c (.plain .dot start)
  | operator {start symbol extended kind c} : c ≠ '=' → Scanner.alone? symbol = some kind →
      Ends (.operator start symbol extended) c (.plain kind start)

/-- Nothing is open that would have to end in front of the character, and no level is due. -/
inductive Idle : Mode → Char → Prop
  | gap {c} : Idle .gap c
  | blankLine {level spaces} : Idle (.margin level spaces) '\n'
  | lineEnd : Idle .afterComment '\n'

/-- The character is the first behind a margin, and the line is not blank. -/
inductive Indents : Mode → Char → Nat → Prop
  | margin {level spaces c} : c ≠ ' ' → c ≠ '\t' → c ≠ '\r' → c ≠ '\n' →
      Indents (.margin level spaces) c level

/-- What is open can neither go on with the character, which stands at `here`, nor end in front of
it. -/
inductive Fails (here : Position) : Mode → Char → Cause → Position → Prop
  | operator {start symbol extended c} : c ≠ '=' → Scanner.alone? symbol = none →
      Fails here (.operator start symbol extended) c (.malformedOperator symbol) start
  | afterComment {c} : Unicode.isWhiteSpace c = false → c ≠ '\n' →
      Fails here .afterComment c .codeAfterComment here
  | openQuote {start} : Fails here (.openQuote start) '\n' .unterminatedCharacter start
  | closeQuote {start value c} : c ≠ '\'' →
      Fails here (.closeQuote start value) c .unterminatedCharacter start

/-- What is open cannot end with the text. -/
inductive Unfinished : Mode → Cause → Position → Prop
  | operator {start symbol extended} : Scanner.alone? symbol = none →
      Unfinished (.operator start symbol extended) (.malformedOperator symbol) start
  | comment {start} : Unfinished (.comment start) .unterminatedComment start
  | string {start text} : Unfinished (.string start text) .unterminatedString start
  | escape {start text} : Unfinished (.escape start text) .unterminatedString start
  | openQuote {start} : Unfinished (.openQuote start) .unterminatedCharacter start
  | closeQuote {start value} : Unfinished (.closeQuote start value) .unterminatedCharacter start

/-- What the character opens, where no lexeme is open and it stands at `here`. -/
inductive Opens (here : Position) : Char → Mode → Prop
  | word {c} : Unicode.isAlphabetic c = true → Opens here c (.word here (.singleton c))
  | comment : Opens here '{' (.comment here)
  | number {c} : c.isDigit = true → Opens here c (.number here (.singleton c) false)
  | whiteSpace {c} : Unicode.isWhiteSpace c = true → c ≠ '\n' → Opens here c .gap
  | string : Opens here '"' (.string here "")
  | openQuote : Opens here '\'' (.openQuote here)
  | dot : Opens here '.' (.dot here)
  | operator {c kind} : Scanner.extended? c = some kind → Opens here c (.operator here c kind)

theorem Continues.ne_stopped {m m' : Mode} {c : Char} (h : m.Continues c m') (d : Diagnostic) :
    m' ≠ .stopped d := by
  cases h <;> simp

theorem Opens.ne_stopped {here : Position} {c : Char} {m : Mode} (h : Opens here c m)
    (d : Diagnostic) : m ≠ .stopped d := by
  cases h <;> simp

end Mode

namespace Scanner

variable {s s' : Scanner} {c : Char}

/-- A scanner that gave up is in the middle of nothing. -/
theorem failure?_eq_none {P : Mode → Prop} (h : P s.mode) (hP : ∀ d, ¬P (.stopped d)) :
    s.failure? = none := by
  rw [failure?]
  split
  · next d hm =>
    rw [hm] at h
    exact absurd h (hP d)
  · rfl

theorem failure?_of_mode {mode : Mode} (hm : s.mode = mode) (h : ∀ d, mode ≠ .stopped d) :
    s.failure? = none :=
  failure?_eq_none (P := (· = mode)) hm fun d hd => h d hd.symm

theorem running_of_continues {m : Mode} (h : s.mode.Continues c m) : s.failure? = none :=
  failure?_eq_none (P := (Mode.Continues · c m)) h nofun

theorem running_of_completes {t : Token} (h : s.mode.Completes c t) : s.failure? = none :=
  failure?_eq_none (P := (Mode.Completes · c t)) h nofun

theorem running_of_fails {cause : Cause} {p : Position} (h : s.mode.Fails s.position c cause p) :
    s.failure? = none :=
  failure?_eq_none (P := (Mode.Fails s.position · c cause p)) h nofun

theorem running_of_unfinished {cause : Cause} {p : Position} (h : s.mode.Unfinished cause p) :
    s.failure? = none :=
  failure?_eq_none (P := (Mode.Unfinished · cause p)) h nofun

/-! ## One character -/

/-- The scanner once nothing is open any more in front of the character. -/
inductive Settles (s : Scanner) (c : Char) : Scanner → Prop
  | idle : s.mode.Idle c → Settles s c s
  | ends {t} : s.mode.Ends c t → Settles s c (s.push t)
  | indents {level} : s.mode.Indents c level → Settles s c (s.indentTo level)

theorem Settles.running {s₁ : Scanner} (h : s.Settles c s₁) : s.failure? = none := by
  cases h with
  | idle h => exact failure?_eq_none (P := (Mode.Idle · c)) h nofun
  | @ends t h => exact failure?_eq_none (P := (Mode.Ends · c t)) h nofun
  | @indents level h => exact failure?_eq_none (P := (Mode.Indents · c level)) h nofun

/-- What reading the character does to a scanner. -/
inductive Moves (s : Scanner) (c : Char) : Scanner → Prop
  | rests {d} : s.mode = .stopped d → Moves s c s
  | continues {m} : s.mode.Continues c m → Moves s c (s.enter c m)
  | completes {t} : s.mode.Completes c t → Moves s c ((s.push t).enter c .gap)
  | begins {s₁} : s.Settles c s₁ → Moves s c (s₁.begin c)
  | fails {cause p} : s.mode.Fails s.position c cause p → Moves s c (s.stop cause p)

theorem moves_margin {margin spaces : Nat} (hm : s.mode = .margin margin spaces) (c : Char) :
    s.Moves c (s.step c) := by
  obtain ⟨here, mode, level, parens, tokens⟩ := s
  subst hm
  rw [step]
  dsimp only
  split
  · next hc =>
    subst hc
    split
    · next hlast => exact .continues (.lastSpace hlast)
    · next hlast => exact .continues (.space hlast)
  split
  · next hc => exact .continues (hc ▸ .tab)
  split
  · next hc => exact .continues (hc ▸ .carriageReturn)
  split
  · next hc => exact .begins (.idle (hc ▸ .blankLine))
  · next hspace htab hreturn hline =>
    exact .begins (.indents (.margin hspace htab hreturn hline))

/-- In every mode a step is one of the cases. -/
theorem moves_step (s : Scanner) (c : Char) : s.Moves c (s.step c) := by
  obtain ⟨here, mode, level, parens, tokens⟩ := s
  cases mode with
  | gap => exact .begins (.idle .gap)
  | margin margin spaces => exact moves_margin rfl c
  | word start text =>
    rw [step]
    dsimp only
    split
    · next hc => exact .continues (.letter hc)
    · next hc => exact .begins (.ends (.word (Bool.eq_false_iff.mpr hc)))
  | number start text dotted =>
    rw [step]
    dsimp only
    split
    · next hc => exact .continues (.digit hc)
    split
    · next hc =>
      obtain ⟨rfl, rfl⟩ := hc
      exact .continues .point
    · next hdigit hdot => exact .begins (.ends (.number (Bool.eq_false_iff.mpr hdigit) hdot))
  | dot start =>
    rw [step]
    dsimp only
    split
    · next hc => exact .continues (.fraction hc)
    · next hc => exact .begins (.ends (.dot (Bool.eq_false_iff.mpr hc)))
  | operator start symbol extended =>
    rw [step]
    dsimp only
    split
    · next hc => exact .completes (hc ▸ .equals)
    · next hc =>
      split
      · next hkind => exact .begins (.ends (.operator hc hkind))
      · next hkind => exact .fails (.operator hc hkind)
  | comment start =>
    rw [step]
    dsimp only
    split
    · next hc => exact .continues (hc ▸ .closeBrace)
    · next hc => exact .continues (.comment hc)
  | afterComment =>
    rw [step]
    dsimp only
    split
    · next hc => exact .begins (.idle (hc ▸ .lineEnd))
    · next hline =>
      split
      · next hc => exact .continues (.whiteSpace hc hline)
      · next hc => exact .fails (.afterComment (Bool.eq_false_iff.mpr hc) hline)
  | string start text =>
    rw [step]
    dsimp only
    split
    · next hc => exact .completes (hc ▸ .string)
    · next hquote =>
      split
      · next hc =>
        subst hc
        exact .continues .backslash
      · next hc => exact .continues (.string hquote hc)
  | escape start text => exact .continues .escaped
  | openQuote start =>
    rw [step]
    dsimp only
    split
    · next hc => exact .fails (hc ▸ .openQuote)
    · next hc => exact .continues (.character hc)
  | closeQuote start value =>
    rw [step]
    dsimp only
    split
    · next hc => exact .completes (hc ▸ .character)
    · next hc => exact .fails (.closeQuote hc)
  | stopped d => exact .rests rfl

theorem Settles.step_eq {s₁ : Scanner} (h : s.Settles c s₁) : s.step c = s₁.begin c := by
  obtain ⟨here, mode, level, parens, tokens⟩ := s
  cases h with
  | idle h => cases h <;> rfl
  | ends h => cases h <;> simp [step, pushPlain, *]
  | indents h => cases h; simp [step, *]

theorem Moves.step_eq (h : s.Moves c s') : s.step c = s' := by
  cases h with
  | rests hm => rw [step, hm]
  | begins h => exact h.step_eq
  | continues h =>
    obtain ⟨here, mode, level, parens, tokens⟩ := s
    cases h <;> simp [step, *]
  | completes h =>
    obtain ⟨here, mode, level, parens, tokens⟩ := s
    cases h <;> simp [step, pushPlain]
  | fails h =>
    obtain ⟨here, mode, level, parens, tokens⟩ := s
    cases h <;> simp [step, *]

/-- The cases are those of a step, no more and no less. -/
theorem moves_iff : s.Moves c s' ↔ s.step c = s' :=
  ⟨Moves.step_eq, fun h => h ▸ moves_step s c⟩

/-! ## The first character of a lexeme -/

/-- The kinds of the signs, apart from parentheses and the dot. -/
def signKinds : List Kind :=
  [.colon, .comma, .assign, .equal, .notEqual, .lessThan, .lessThanEqual, .greaterThan,
    .greaterThanEqual, .plus, .minus, .times, .divide, .modulo]

theorem extended?_mem {c : Char} {k : Kind} (h : extended? c = some k) : k ∈ signKinds := by
  unfold extended? at h
  split at h <;> cases h <;> decide

theorem single?_mem {c : Char} {k : Kind} (h : single? c = some k) : k ∈ signKinds := by
  unfold single? at h
  split at h <;> cases h <;> decide

theorem alone?_mem {c : Char} {k : Kind} (h : alone? c = some k) : k ∈ signKinds := by
  unfold alone? at h
  split at h <;> cases h <;> decide

/-- What reading the character does to a scanner that has no lexeme open. -/
inductive Begins (s : Scanner) (c : Char) : Scanner → Prop
  | opens {m} : Mode.Opens s.position c m → Begins s c (s.enter c m)
  | newline : c = '\n' →
      Begins s c ((s.pushPlain .newline s.position).enter c (.margin 0 0))
  | sign {kind} : single? c = some kind →
      Begins s c ((s.pushPlain kind s.position).enter c .gap)
  | leftParen : c = '(' → Begins s c
      (({ s with parens := s.position :: s.parens }.pushPlain .leftParen s.position).enter c .gap)
  | rightParen {p rest} : c = ')' → s.parens = p :: rest →
      Begins s c (({ s with parens := rest }.pushPlain .rightParen s.position).enter c .gap)
  | unmatched : c = ')' → s.parens = [] →
      Begins s c (s.stop .unbalancedParentheses s.position)
  | unrecognised : extended? c = none → single? c = none →
      Begins s c (s.stop (.unrecognisedCharacter c) s.position)

theorem begins_beginSymbol (s : Scanner) (c : Char) : s.Begins c (s.beginSymbol c) := by
  rw [beginSymbol]
  split
  · next hc => exact .opens (hc ▸ .string)
  split
  · next hc => exact .opens (hc ▸ .openQuote)
  split
  · next hc => exact .leftParen hc
  split
  · next hc =>
    split
    · next hparens => exact .unmatched hc hparens
    · next hparens => exact .rightParen hc hparens
  split
  · next hc => exact .opens (hc ▸ .dot)
  split
  · next hkind => exact .opens (.operator hkind)
  · next hkind => exact .sign hkind
  · next hextended hsingle => exact .unrecognised hextended hsingle

theorem begins_begin (s : Scanner) (c : Char) : s.Begins c (s.begin c) := by
  rw [begin]
  split
  · next hc => exact .opens (.word hc)
  split
  · next hc => exact .newline hc
  split
  · next hc => exact .opens (hc ▸ .comment)
  split
  · next hc => exact .opens (.number hc)
  split
  · next hline _ _ hc => exact .opens (.whiteSpace hc hline)
  · exact begins_beginSymbol s c

/-! ## The end of the text -/

/-- What the end of the text does to what is open: a lexeme that could end in front of the end of
a line ends there. -/
inductive Closes (s : Scanner) : Scanner → Prop
  | rests : Closes s s
  | ends {t} : s.mode.Ends '\n' t → Closes s (s.push t)
  | fails {cause p} : s.mode.Unfinished cause p → Closes s (s.stop cause p)

theorem closes_endLexeme (s : Scanner) : s.Closes s.endLexeme := by
  obtain ⟨here, mode, level, parens, tokens⟩ := s
  rw [endLexeme]
  cases mode with
  | word start text => exact .ends (.word rfl)
  | number start text dotted => exact .ends (.number rfl (by simp))
  | dot start => exact .ends (.dot rfl)
  | operator start symbol extended =>
    dsimp only
    split
    · next hkind => exact .ends (.operator (by simp) hkind)
    · next hkind => exact .fails (.operator hkind)
  | comment start => exact .fails .comment
  | string start text => exact .fails .string
  | escape start text => exact .fails .escape
  | openQuote start => exact .fails .openQuote
  | closeQuote start value => exact .fails .closeQuote
  | gap | margin | afterComment | stopped => exact .rests

end Scanner

end Offside
