import Offside.Proofs.Congruence
import Offside.Proofs.Moves
import Offside.Proofs.Scanning

/-!
# Margins of tabs and margins of spaces

A tab in a margin is as good as four spaces. The scanner is run on two texts whose lines have
their margins made of the one or of the other. Behind the margins it is in the same state,
except that in the text with spaces all that is noted of the line stands further to the right,
by three columns for each level of the line (`Scanner.widen`), and it stays so for the rest of
the line (`Scanner.InLine.scan`). At the end of the line the two run level again
(`Scanner.Beside`), unless a literal or a comment goes on: what is a margin for the scanner
would be part of the literal.

So the texts have the same tokens, and by `parseTokens_alike` the same programs. The main
statement is `tokenize_tabs_spaces`.
-/

namespace Offside

/-! ## Lines and their margins -/

/-- A line of a text: what stands in it, and how deep. -/
structure SourceLine where
  /-- How many units its margin has. -/
  depth : Nat
  /-- What stands behind the margin. -/
  body : String

/-- The characters of the line with its end, if margins are made of `unit`. -/
def SourceLine.chars (unit : List Char) (l : SourceLine) : List Char :=
  (List.replicate l.depth unit).flatten ++ (l.body.toList ++ ['\n'])

/-- The text that the lines are, if margins are made of `unit`. -/
def linesWith (unit : String) (lines : List SourceLine) : String :=
  String.ofList (lines.flatMap (SourceLine.chars unit.toList))

/-- By how many columns the margin of a line is wider if it is made of spaces. -/
def extraColumns (lines : List SourceLine) (line : Nat) : Nat :=
  (lines[line - 1]?.map fun l => 3 * l.depth).getD 0

/-- The position in a text whose lines are wider. -/
def Position.widen (extra : Nat → Nat) (p : Position) : Position :=
  ⟨p.line, p.column + extra p.line⟩

/-- The token in a text whose lines are wider: layout stands at the start of its line. -/
def Token.widen (extra : Nat → Nat) (t : Token) : Token :=
  if t.isLayout then t else { t with position := t.position.widen extra }

section

variable {extra : Nat → Nat}

theorem Position.widen_advance {c : Char} (hc : c ≠ '\n') (p : Position) :
    (p.advance c).widen extra = (p.widen extra).advance c := by
  simp only [advance_of_ne hc, widen, Nat.add_right_comm]

theorem Token.widen_plain {k : Kind} (hk : k ≠ .indent ∧ k ≠ .dedent) (p : Position) :
    (Token.plain k p).widen extra = Token.plain k (p.widen extra) := by
  simp [widen, isLayout, plain, hk]

theorem Token.widen_ofWord (text : String) (p : Position) :
    (Token.ofWord text p).widen extra = Token.ofWord text (p.widen extra) := by
  rw [ofWord, ofWord]
  cases hk : Kind.reserved? text with
  | none => rfl
  | some k =>
    have hword := kind_wordLexeme text
    rw [wordLexeme, hk] at hword
    have hall : ∀ k ∈ Kind.word :: Kind.reservedWords.map Prod.snd, k ≠ .indent ∧ k ≠ .dedent := by
      decide
    exact widen_plain (hall k hword) p

theorem Token.lexeme_widen (t : Token) : (t.widen extra).lexeme = t.lexeme := by
  rw [widen]
  split <;> rfl

theorem Token.line_widen (t : Token) : (t.widen extra).position.line = t.position.line := by
  rw [widen]
  split <;> rfl

theorem layout_widen (level level' line : Nat) :
    (layout level level' line).map (Token.widen extra) = layout level level' line := by
  simp [layout, Token.widen, Token.isLayout, Token.plain]

end

/-- What the scanner is in the middle of, in a text whose lines are wider. -/
def Mode.widen (extra : Nat → Nat) : Mode → Mode
  | .gap => .gap
  | .margin level spaces => .margin level spaces
  | .word start text => .word (start.widen extra) text
  | .number start text dotted => .number (start.widen extra) text dotted
  | .dot start => .dot (start.widen extra)
  | .operator start symbol extended => .operator (start.widen extra) symbol extended
  | .comment start => .comment (start.widen extra)
  | .afterComment => .afterComment
  | .string start text => .string (start.widen extra) text
  | .escape start text => .escape (start.widen extra) text
  | .openQuote start => .openQuote (start.widen extra)
  | .closeQuote start value => .closeQuote (start.widen extra) value
  | .stopped d => .stopped ⟨d.cause, d.position.widen extra⟩

/-- What the scanner is in the middle of, so many levels further into a margin. -/
def Mode.deeper (levels : Nat) : Mode → Mode
  | .margin level spaces => .margin (level + levels) spaces
  | mode => mode

theorem Mode.deeper_deeper (n m : Nat) (mode : Mode) :
    (mode.deeper n).deeper m = mode.deeper (n + m) := by
  cases mode <;> simp [deeper, Nat.add_assoc]

theorem Mode.widen_deeper (extra : Nat → Nat) (levels : Nat) (mode : Mode) :
    (mode.deeper levels).widen extra = (mode.widen extra).deeper levels := by
  cases mode <;> rfl

/-- What the scanner is in the middle of ends with the line, and is no layout. -/
def Mode.endsWithLine : Mode → Bool
  | .comment _ | .afterComment | .string _ _ | .escape _ _ => false
  | .operator _ _ extended => extended != .indent && extended != .dedent
  | _ => true

theorem sign_ne_layout {k : Kind} (h : k ∈ Scanner.signKinds) : k ≠ .indent ∧ k ≠ .dedent := by
  have hall : ∀ k ∈ Scanner.signKinds, k ≠ .indent ∧ k ≠ .dedent := by decide
  exact hall k h

namespace Mode

variable {extra : Nat → Nat} {m m' : Mode} {c : Char} {t : Token} {here p : Position}
  {cause : Cause} {level : Nat}

theorem Continues.widen (h : m.Continues c m') :
    (m.widen extra).Continues c (m'.widen extra) := by
  cases h <;> constructor <;> assumption

/-- The scanner would make a token of any kind that it has been told; layout would not move. -/
theorem Completes.widen (h : m.Completes c t) (hm : m.endsWithLine = true) :
    (m.widen extra).Completes c (t.widen extra) := by
  cases h with
  | equals =>
    rw [Token.widen_plain (by simpa [endsWithLine] using hm)]
    exact .equals
  | string => cases hm
  | character => exact .character

theorem Ends.widen (h : m.Ends c t) : (m.widen extra).Ends c (t.widen extra) := by
  cases h with
  | word hc =>
    rw [Token.widen_ofWord]
    exact .word hc
  | number hdigit hdot => exact .number hdigit hdot
  | dot hc => exact .dot hc
  | operator hc hkind =>
    rw [Token.widen_plain (sign_ne_layout (Scanner.alone?_mem hkind))]
    exact .operator hc hkind

theorem Idle.widen (h : m.Idle c) : (m.widen extra).Idle c := by
  cases h <;> constructor

theorem Indents.widen (h : m.Indents c level) : (m.widen extra).Indents c level := by
  cases h
  constructor <;> assumption

theorem Fails.widen (h : m.Fails here c cause p) :
    (m.widen extra).Fails (here.widen extra) c cause (p.widen extra) := by
  cases h <;> constructor <;> assumption

/-- Nothing but a double quote or a brace opens what can go on behind the end of a line. -/
theorem Opens.endsWithLine (h : Opens here c m) (hquote : c ≠ '"') (hbrace : c ≠ '{') :
    m.endsWithLine = true := by
  cases h with
  | comment => exact absurd rfl hbrace
  | string => exact absurd rfl hquote
  | operator hkind => simpa [Mode.endsWithLine] using sign_ne_layout (Scanner.extended?_mem hkind)
  | _ => rfl

theorem Continues.endsWithLine (h : m.Continues c m') (hm : m.endsWithLine = true) :
    m'.endsWithLine = true := by
  cases h <;> first | rfl | cases hm

/-- The end of a line belongs to nothing that ends with the line. -/
theorem Continues.not_endsWithLine (h : m.Continues '\n' m') : m.endsWithLine = false := by
  cases h <;> first | rfl | contradiction

theorem Completes.ne_newline (h : m.Completes c t) : c ≠ '\n' := by
  cases h <;> decide

end Mode

namespace Scanner

/-- The scanner in a text whose lines are wider. -/
def widen (extra : Nat → Nat) (s : Scanner) : Scanner where
  position := s.position.widen extra
  mode := s.mode.widen extra
  level := s.level
  parens := s.parens.map (Position.widen extra)
  tokens := s.tokens.map (Token.widen extra)

variable {extra : Nat → Nat}

/-! ## In a line -/

theorem widen_enter (s : Scanner) {c : Char} (hc : c ≠ '\n') (mode : Mode) :
    (s.enter c mode).widen extra = (s.widen extra).enter c (mode.widen extra) := by
  simp only [widen, enter, Position.widen_advance hc]

theorem widen_push (s : Scanner) (t : Token) :
    (s.push t).widen extra = (s.widen extra).push (t.widen extra) := by
  simp only [widen, push, Array.map_push]

theorem widen_pushPlain (s : Scanner) {k : Kind} (hk : k ≠ .indent ∧ k ≠ .dedent) (p : Position) :
    (s.pushPlain k p).widen extra = (s.widen extra).pushPlain k (p.widen extra) := by
  rw [pushPlain, widen_push, Token.widen_plain hk, pushPlain]

theorem widen_indentTo (s : Scanner) (level : Nat) :
    (s.indentTo level).widen extra = (s.widen extra).indentTo level := by
  rw [indentTo_eq, indentTo_eq]
  simp [widen, layout_widen, Position.widen]

theorem widen_beginSymbol (s : Scanner) {c : Char} (hc : c ≠ '\n') :
    (s.beginSymbol c).widen extra = (s.widen extra).beginSymbol c := by
  rw [beginSymbol, beginSymbol]
  split
  · exact widen_enter s hc _
  split
  · exact widen_enter s hc _
  split
  · rw [widen_enter _ hc, widen_pushPlain _ (by decide)]
    rfl
  split
  · obtain ⟨position, mode, level, parens, tokens⟩ := s
    cases parens with
    | nil => rfl
    | cons p rest =>
      dsimp only
      rw [widen_enter _ hc, widen_pushPlain _ (by decide)]
      rfl
  split
  · exact widen_enter s hc _
  split
  · exact widen_enter s hc _
  · next hkind =>
    rw [widen_enter _ hc, widen_pushPlain _ (sign_ne_layout (single?_mem hkind))]
    rfl
  · rfl

theorem widen_begin (s : Scanner) {c : Char} (hc : c ≠ '\n') :
    (s.begin c).widen extra = (s.widen extra).begin c := by
  rw [begin, begin, if_neg hc, if_neg hc]
  split
  · exact widen_enter s hc _
  split
  · exact widen_enter s hc _
  split
  · exact widen_enter s hc _
  split
  · exact widen_enter s hc _
  · exact widen_beginSymbol s hc

theorem widen_mode (s : Scanner) {mode : Mode} (hs : s.mode = mode) :
    (s.widen extra).mode = mode.widen extra :=
  congrArg (Mode.widen extra) hs

theorem Settles.widen {s s' : Scanner} {c : Char} (h : s.Settles c s') :
    (s.widen extra).Settles c (s'.widen extra) := by
  cases h with
  | idle h => exact .idle h.widen
  | ends h =>
    rw [widen_push]
    exact .ends h.widen
  | indents h =>
    rw [widen_indentTo]
    exact .indents h.widen

/-- In a line the scanner does the same if the line stands further to the right. -/
theorem Moves.widen {s s' : Scanner} {c : Char} (h : s.Moves c s')
    (hs : s.mode.endsWithLine = true) (hc : c ≠ '\n') :
    (s.widen extra).Moves c (s'.widen extra) := by
  cases h with
  | rests hm => exact .rests (widen_mode s hm)
  | continues h =>
    rw [widen_enter s hc]
    exact .continues h.widen
  | completes h =>
    rw [widen_enter _ hc, widen_push]
    exact .completes (h.widen hs)
  | begins h =>
    rw [widen_begin _ hc]
    exact .begins h.widen
  | fails h => exact .fails h.widen

theorem widen_step {s : Scanner} (hs : s.mode.endsWithLine = true) {c : Char} (hc : c ≠ '\n') :
    (s.step c).widen extra = (s.widen extra).step c :=
  ((moves_step s c).widen hs hc).step_eq.symm

/-- The scanner stands in the line, and in nothing that could go on behind its end. -/
structure InLine (line : Nat) (s : Scanner) : Prop where
  line : s.position.line = line
  mode : s.mode.endsWithLine = true

section

variable {line : Nat} {s s' : Scanner} {c : Char}

theorem inLine_enter (h : s.position.line = line) (hc : c ≠ '\n') {mode : Mode}
    (hmode : mode.endsWithLine = true) : (s.enter c mode).InLine line :=
  ⟨by rw [enter, Position.advance_of_ne hc, h], hmode⟩

theorem inLine_stop (h : s.position.line = line) (cause : Cause) (p : Position) :
    (s.stop cause p).InLine line :=
  ⟨h, rfl⟩

theorem inLine_begins (h : s.position.line = line) (hs : s.Begins c s') (hc : c ≠ '\n')
    (hquote : c ≠ '"') (hbrace : c ≠ '{') : s'.InLine line := by
  cases hs with
  | opens hopens => exact inLine_enter h hc (hopens.endsWithLine hquote hbrace)
  | newline hline => exact absurd hline hc
  | unmatched | unrecognised => exact inLine_stop h _ _
  | sign | leftParen | rightParen =>
    refine inLine_enter ?_ hc rfl
    exact h

theorem InLine.moves (h : s.InLine line) (hs : s.Moves c s') (hc : c ≠ '\n') (hquote : c ≠ '"')
    (hbrace : c ≠ '{') : s'.InLine line := by
  cases hs with
  | rests => exact h
  | continues hcontinues => exact inLine_enter h.line hc (hcontinues.endsWithLine h.mode)
  | completes => exact inLine_enter (s := s.push _) h.line hc rfl
  | begins hsettles =>
    have hline := (congrArg Position.line hsettles.position).trans h.line
    exact inLine_begins hline (begins_begin _ c) hc hquote hbrace
  | fails => exact inLine_stop h.line _ _

end

/-- Through a line the scanner does the same if the line stands further to the right. -/
theorem InLine.scan (extra : Nat → Nat) {line : Nat} : ∀ {body : List Char} {s : Scanner},
    s.InLine line → (∀ c ∈ body, c ≠ '\n' ∧ c ≠ '"' ∧ c ≠ '{') →
    (s.scan body).InLine line ∧ (s.scan body).widen extra = (s.widen extra).scan body
  | [], _, hs, _ => ⟨hs, rfl⟩
  | c :: body, s, hs, h => by
    obtain ⟨⟨hc, hquote, hbrace⟩, hbody⟩ := List.forall_mem_cons.mp h
    rw [scan_cons, scan_cons, ← widen_step hs.mode hc]
    exact (hs.moves (moves_step s c) hc hquote hbrace).scan extra hbody

/-! ## From line to line -/

/-- At the start of a line the scanners of both texts stand at the same place, and what they have
noted stands where it stands in its text; unless they have given up before. -/
inductive Beside (extra : Nat → Nat) (line : Nat) : Scanner → Scanner → Prop
  | start {s : Scanner} {level : Nat} : s.position = ⟨line, 1⟩ →
      s.mode = .gap ∨ s.mode = .margin level 0 →
      Beside extra line s { s.widen extra with position := ⟨line, 1⟩ }
  | stopped {s : Scanner} {d : Diagnostic} : s.mode = .stopped d →
      Beside extra line s (s.widen extra)

theorem beside_begin {line : Nat} {s : Scanner} (h : s.position.line = line) :
    Beside extra (line + 1) (s.begin '\n') ((s.widen extra).begin '\n') := by
  have hstart : (s.begin '\n').position = ⟨line + 1, 1⟩ := by
    rw [← h]
    rfl
  -- The end of the line stands further to the right, and the start of the next does not.
  have heq : (s.widen extra).begin '\n' =
      { (s.begin '\n').widen extra with position := ⟨line + 1, 1⟩ } := by
    rw [← h]
    show ((s.widen extra).pushPlain .newline (s.position.widen extra)).enter '\n' (.margin 0 0) = _
    rw [← widen_pushPlain _ (by decide)]
    rfl
  rw [heq]
  exact .start hstart (.inr rfl)

/-- At the end of the line a scanner gives up or goes on at the start of the next. -/
theorem InLine.newline {line : Nat} {s s' : Scanner} (h : s.InLine line) (hs : s.Moves '\n' s') :
    Beside extra (line + 1) s' ((s.widen extra).step '\n') := by
  cases hs with
  | rests hm =>
    rw [(Moves.rests (widen_mode s hm)).step_eq]
    exact .stopped hm
  | continues hcontinues => cases hcontinues.not_endsWithLine.symm.trans h.mode
  | completes hcompletes => exact absurd rfl hcompletes.ne_newline
  | begins hsettles =>
    rw [(Moves.begins hsettles.widen).step_eq]
    exact beside_begin ((congrArg Position.line hsettles.position).trans h.line)
  | fails hfails =>
    rw [(Moves.fails (s := s.widen extra) hfails.widen).step_eq]
    exact .stopped rfl

/-- What makes a level of a margin. -/
def IsUnit (unit : List Char) : Prop :=
  unit = ['\t'] ∨ unit = List.replicate spacesPerIndent ' '

theorem scan_unit {unit : List Char} (hunit : IsUnit unit) {s : Scanner} {level : Nat}
    (hs : s.mode = .gap ∨ s.mode = .margin level 0) : s.scan unit =
      { s with
        position := ⟨s.position.line, s.position.column + unit.length⟩
        mode := s.mode.deeper 1 } := by
  obtain ⟨position, mode, m, parens, tokens⟩ := s
  rcases hunit with rfl | rfl <;> rcases hs with hs | hs <;> cases hs <;> rfl

/-- A margin of so many units is so many levels deep, but for the first line, where nothing is
measured. -/
theorem scan_units {unit : List Char} (hunit : IsUnit unit) : ∀ (depth : Nat) {s : Scanner}
    {level : Nat}, s.mode = .gap ∨ s.mode = .margin level 0 →
    s.scan (List.replicate depth unit).flatten =
      { s with
        position := ⟨s.position.line, s.position.column + depth * unit.length⟩
        mode := s.mode.deeper depth }
  | 0, s, level, hs => by
    obtain ⟨position, mode, m, parens, tokens⟩ := s
    rcases hs with hs | hs <;> cases hs <;> simp [scan, Mode.deeper]
  | depth + 1, s, level, hs => by
    have hmode : s.mode.deeper 1 = .gap ∨ s.mode.deeper 1 = .margin (level + 1) 0 :=
      hs.imp (congrArg (Mode.deeper 1)) (congrArg (Mode.deeper 1))
    have hcolumn : s.position.column + unit.length + depth * unit.length =
        s.position.column + (depth + 1) * unit.length := by
      rw [Nat.succ_mul, Nat.add_assoc, Nat.add_comm unit.length]
    rw [List.replicate_succ, List.flatten_cons, scan_append, scan_unit hunit hs,
      scan_units hunit depth hmode, Mode.deeper_deeper, Nat.add_comm 1 depth, hcolumn]

/-- Behind a margin of spaces the scanner stands further to the right by three columns for each
level. -/
theorem widen_scan_margin {line depth level : Nat} {s : Scanner} (hp : s.position = ⟨line, 1⟩)
    (hs : s.mode = .gap ∨ s.mode = .margin level 0) (hextra : extra line = 3 * depth) :
    (s.scan (List.replicate depth ['\t']).flatten).widen extra =
      { s.widen extra with position := ⟨line, 1⟩ }.scan
        (List.replicate depth (List.replicate spacesPerIndent ' ')).flatten := by
  have hs' : (s.widen extra).mode = .gap ∨ (s.widen extra).mode = .margin level 0 :=
    hs.imp (congrArg (Mode.widen extra)) (congrArg (Mode.widen extra))
  have hcolumn : 1 + depth * ['\t'].length + extra line =
      1 + depth * (List.replicate spacesPerIndent ' ').length := by
    rw [hextra, List.length_replicate, spacesPerIndent, List.length_singleton]
    omega
  rw [scan_units (.inl rfl) depth hs,
    scan_units (s := { s.widen extra with position := ⟨line, 1⟩ }) (.inr rfl) depth hs']
  simp only [widen, Position.widen, hp, hcolumn, Mode.widen_deeper]

/-- A line with tabs and the same with spaces are scanned beside each other. -/
theorem Beside.line {line : Nat} {s s' : Scanner} (h : Beside extra line s s') {l : SourceLine}
    (hextra : extra line = 3 * l.depth)
    (hbody : ∀ c ∈ l.body.toList, c ≠ '\n' ∧ c ≠ '"' ∧ c ≠ '{') :
    Beside extra (line + 1) (s.scan (l.chars ['\t']))
      (s'.scan (l.chars (List.replicate spacesPerIndent ' '))) := by
  cases h with
  | stopped hs =>
    rw [scan_stopped s hs, scan_stopped _ (widen_mode s hs)]
    exact .stopped hs
  | start hp hs =>
    -- The margins are scanned apart from each other, and only then the two go side by side.
    have hstart : (s.scan (List.replicate l.depth ['\t']).flatten).InLine line := by
      rw [scan_units (.inl rfl) l.depth hs, hp]
      rcases hs with hs | hs <;> rw [hs] <;> exact ⟨rfl, rfl⟩
    obtain ⟨hend, hbehind⟩ := hstart.scan extra hbody
    rw [SourceLine.chars, SourceLine.chars, scan_append, scan_append, scan_append, scan_append,
      ← widen_scan_margin hp hs hextra, ← hbehind]
    exact hend.newline (moves_step _ '\n')

theorem beside_scan : ∀ {lines : List SourceLine} {line : Nat} {s s' : Scanner},
    Beside extra line s s' → (∀ i l, lines[i]? = some l → extra (line + i) = 3 * l.depth) →
    (∀ l ∈ lines, ∀ c ∈ l.body.toList, c ≠ '\n' ∧ c ≠ '"' ∧ c ≠ '{') →
    Beside extra (line + lines.length) (s.scan (lines.flatMap (SourceLine.chars ['\t'])))
      (s'.scan (lines.flatMap (SourceLine.chars (List.replicate spacesPerIndent ' '))))
  | [], _, _, _, h, _, _ => h
  | l :: lines, line, s, s', h, hextra, hbody => by
    obtain ⟨hfirst, hrest⟩ := List.forall_mem_cons.mp hbody
    have hnext := beside_scan (h.line (hextra 0 l rfl) hfirst)
      (fun i l' hl' => by rw [Nat.add_right_comm]; exact hextra (i + 1) l' hl') hrest
    rw [List.flatMap_cons, List.flatMap_cons, scan_append, scan_append, List.length_cons,
      ← Nat.add_assoc, Nat.add_right_comm]
    exact hnext

/-- Behind the last line nothing is wider. -/
theorem Beside.eq_widen {line : Nat} {s s' : Scanner} (h : Beside extra line s s')
    (hextra : extra line = 0) : s' = s.widen extra := by
  cases h with
  | stopped => rfl
  | start hp hs =>
    have hposition : (s.widen extra).position = ⟨line, 1⟩ := by
      rw [widen, hp, Position.widen, hextra]
    rw [← hposition]

/-! ## The end of the text -/

theorem widen_endLexeme {s : Scanner} :
    s.endLexeme.widen extra = (s.widen extra).endLexeme := by
  cases hm : s.mode <;> simp only [endLexeme, hm, widen_mode s hm, Mode.widen]
  case word start text => rw [widen_push, Token.widen_ofWord]
  case number start text dotted =>
    rw [widen_push]
    rfl
  case dot start => exact widen_pushPlain s (by decide) start
  case operator start symbol extended =>
    split
    · next hkind => exact widen_pushPlain s (sign_ne_layout (alone?_mem hkind)) start
    · rfl
  all_goals rfl

theorem widen_endBlocks (s : Scanner) : s.endBlocks.widen extra = (s.widen extra).endBlocks := by
  have hlast : ((s.indentTo 0).widen extra).parens.getLast? =
      (s.indentTo 0).parens.getLast?.map (Position.widen extra) :=
    List.getLast?_map
  simp only [endBlocks, ← widen_indentTo, hlast]
  cases (s.indentTo 0).parens.getLast? <;> rfl

theorem widen_failure? (s : Scanner) : (s.widen extra).failure? =
    s.failure?.map fun d => ⟨d.cause, d.position.widen extra⟩ := by
  rw [failure?, failure?]
  cases hm : s.mode <;> rw [widen_mode s hm] <;> rfl

theorem widen_finish (s : Scanner) : s.finish.widen extra = (s.widen extra).finish := by
  rw [finish, finish]
  simp only [← widen_endLexeme, widen_failure?]
  cases s.endLexeme.failure? with
  | none => exact widen_endBlocks _
  | some d => rfl

theorem widen_result (s : Scanner) :
    (∃ ts, s.result = .ok ts ∧ (s.widen extra).result = .ok (ts.map (Token.widen extra))) ∨
      ∃ d, s.result = .error d ∧
        (s.widen extra).result = .error ⟨d.cause, d.position.widen extra⟩ := by
  rw [result, result, widen_failure?]
  cases s.failure? with
  | none => exact .inl ⟨_, rfl, congrArg Except.ok Array.toList_map⟩
  | some d => exact .inr ⟨d, rfl, rfl⟩

end Scanner

/-! ## Whole texts -/

theorem extraColumns_line {lines : List SourceLine} {i : Nat} {l : SourceLine}
    (h : lines[i]? = some l) : extraColumns lines (1 + i) = 3 * l.depth := by
  rw [extraColumns, Nat.add_sub_cancel_left, h]
  rfl

theorem extraColumns_end (lines : List SourceLine) :
    extraColumns lines (1 + lines.length) = 0 := by
  rw [extraColumns, Nat.add_sub_cancel_left, List.getElem?_eq_none (Nat.le_refl _)]
  rfl

theorem tokenize_linesWith {lines : List SourceLine}
    (h : ∀ l ∈ lines, ∀ c ∈ l.body.toList, c ≠ '\n' ∧ c ≠ '"' ∧ c ≠ '{') :
    (∃ ts, tokenize (linesWith "\t" lines) = .ok ts ∧
      tokenize (linesWith "    " lines) = .ok (ts.map (Token.widen (extraColumns lines)))) ∨
    ∃ d, tokenize (linesWith "\t" lines) = .error d ∧
      tokenize (linesWith "    " lines) =
        .error ⟨d.cause, d.position.widen (extraColumns lines)⟩ := by
  have hinitial : { Scanner.initial.widen (extraColumns lines) with position := ⟨1, 1⟩ } =
      Scanner.initial := by
    simp [Scanner.widen, Scanner.initial, Position.start, Mode.widen]
  have hstart := @Scanner.Beside.start (extraColumns lines) 1 .initial 0 rfl (.inl rfl)
  rw [hinitial] at hstart
  have hend := Scanner.beside_scan hstart (fun _ _ => extraColumns_line) h
  have htabs : (linesWith "\t" lines).toList = lines.flatMap (SourceLine.chars ['\t']) :=
    String.toList_ofList
  have hspaces : (linesWith "    " lines).toList =
      lines.flatMap (SourceLine.chars (List.replicate spacesPerIndent ' ')) :=
    String.toList_ofList
  rw [tokenize, tokenize, htabs, hspaces, hend.eq_widen (extraColumns_end lines),
    ← Scanner.widen_finish]
  exact Scanner.widen_result _

theorem token_alike_widen (extra : Nat → Nat) (ts : List Token) :
    List.Forall₂ (Token.Alike fun p p' => p.line = p'.line) ts (ts.map (Token.widen extra)) := by
  rw [List.forall₂_map_right_iff, List.forall₂_same]
  exact fun t _ => ⟨t.lexeme_widen.symm, t.line_widen.symm⟩

/-- With tabs and with four spaces for each of them lines have the same tokens, those that are
not layout further to the right by what the margin is wider, or they are refused for the same
cause there; and they are the same program, or are refused for the same cause in the same line. -/
theorem tokenize_tabs_spaces {lines : List SourceLine}
    (h : ∀ l ∈ lines, ∀ c ∈ l.body.toList, c ≠ '\n' ∧ c ≠ '"' ∧ c ≠ '{') :
    ((∃ ts, tokenize (linesWith "\t" lines) = .ok ts ∧
        tokenize (linesWith "    " lines) = .ok (ts.map (Token.widen (extraColumns lines)))) ∨
      ∃ d, tokenize (linesWith "\t" lines) = .error d ∧
        tokenize (linesWith "    " lines) =
          .error ⟨d.cause, d.position.widen (extraColumns lines)⟩) ∧
    OutcomesAlike (fun p p' => p.line = p'.line) (parseSource (linesWith "\t" lines))
      (parseSource (linesWith "    " lines)) := by
  have htokens := tokenize_linesWith h
  refine ⟨htokens, ?_⟩
  rw [parseSource, parseSource]
  rcases htokens with ⟨ts, htabs, hspaces⟩ | ⟨⟨cause, p⟩, htabs, hspaces⟩ <;> rw [htabs, hspaces]
  · exact parseTokens_alike (token_alike_widen _ ts)
  · exact .error cause rfl

/-- A method with a blank line in it, and a line that is too deep. -/
def steppedLines : List SourceLine :=
  [⟨1, "class Point"⟩, ⟨1, "move()"⟩, ⟨2, ""⟩, ⟨2, "x = 'a'"⟩, ⟨4, "y = 1."⟩]

theorem tokenize_tabs_spaces_stepped :
    (∀ l ∈ steppedLines, ∀ c ∈ l.body.toList, c ≠ '\n' ∧ c ≠ '"' ∧ c ≠ '{') ∧
    ((∃ ts, tokenize (linesWith "\t" steppedLines) = .ok ts ∧
        tokenize (linesWith "    " steppedLines) =
          .ok (ts.map (Token.widen (extraColumns steppedLines)))) ∨
      ∃ d, tokenize (linesWith "\t" steppedLines) = .error d ∧
        tokenize (linesWith "    " steppedLines) =
          .error ⟨d.cause, d.position.widen (extraColumns steppedLines)⟩) ∧
    OutcomesAlike (fun p p' => p.line = p'.line) (parseSource (linesWith "\t" steppedLines))
      (parseSource (linesWith "    " steppedLines)) := by
  have hall : ∀ l ∈ steppedLines,
      l.body.toList.all (fun c => c != '\n' && (c != '"' && c != '{')) = true := by
    decide
  have h : ∀ l ∈ steppedLines, ∀ c ∈ l.body.toList, c ≠ '\n' ∧ c ≠ '"' ∧ c ≠ '{' := by
    simpa using hall
  exact ⟨h, tokenize_tabs_spaces h⟩

end Offside
