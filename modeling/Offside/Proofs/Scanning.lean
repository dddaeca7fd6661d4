import Offside.Proofs.Moves
import Offside.Proofs.Tiling

/-!
# The scanner finds the one way to cut a text

What comes of a text from a scanner on (`Scanner.outcome`) is followed piece by piece. Each
piece of a tiling has its lemma that takes the scanner across it: over a gap
(`Scanner.outcome_gap`), over the end of a line and the margin of the next
(`Scanner.outcome_line`), over a lexeme (`Scanner.outcome_written`). In the other direction a
text that is scanned starts with one of these pieces (`Scanner.exists_piece`). Together they
say what `tokenize` does without its modes (`tokenize_eq_ok_iff`), and without its layout this
is the tiling of the text (`tokenize_lexemes_iff`).
-/

namespace Offside

namespace Scanner

/-- What comes of a text that is read from `s` on. -/
def outcome (s : Scanner) (text : List Char) : Except Diagnostic (List Token) :=
  (s.scan text).finish.result

theorem outcome_append (s : Scanner) (u v : List Char) :
    s.outcome (u ++ v) = (s.scan u).outcome v := by
  rw [outcome, scan_append, outcome]

theorem outcome_cons (s : Scanner) (c : Char) (text : List Char) :
    s.outcome (c :: text) = (s.step c).outcome text :=
  rfl

theorem outcome_stopped {s : Scanner} {d : Diagnostic} (h : s.mode = .stopped d)
    (text : List Char) : s.outcome text = .error d := by
  rw [outcome, scan_stopped s h]
  simp only [finish, endLexeme, failure?, result, h]

/-! ## The end of a text -/

theorem pushLayout_eq (k : Kind) : ∀ (n : Nat) (s : Scanner), s.pushLayout k n =
    { s with tokens :=
        (s.tokens.toList ++ List.replicate n (Token.plain k ⟨s.position.line, 1⟩)).toArray }
  | 0, s => by simp [pushLayout]
  | n + 1, s => by
    rw [pushLayout, pushLayout_eq k n]
    simp only [pushPlain, push, Array.toList_push, List.append_assoc, List.singleton_append,
      List.replicate_succ]

theorem indentTo_eq (s : Scanner) (level : Nat) : s.indentTo level =
    { s with level := level, tokens :=
        (s.tokens.toList ++ layout s.level level s.position.line).toArray } := by
  rw [indentTo, pushLayout_eq, pushLayout_eq]
  simp only [layout, List.append_assoc]

theorem Settles.position {s s' : Scanner} {c : Char} (h : s.Settles c s') :
    s'.position = s.position := by
  cases h with
  | idle => rfl
  | ends => rfl
  | indents => rw [indentTo_eq]

theorem result_endBlocks {s : Scanner} (h : s.failure? = none) : s.endBlocks.result =
    match s.parens.getLast? with
    | none => .ok (s.tokens.toList ++ layout s.level 0 s.position.line)
    | some outermost => .error ⟨.unbalancedParentheses, outermost⟩ := by
  have hlevel : (s.indentTo 0).failure? = none := by rwa [indentTo_eq]
  rw [endBlocks]
  simp only [indentTo_eq] at hlevel ⊢
  cases s.parens.getLast? with
  | none => simp only [result, hlevel]
  | some outermost => rfl

theorem outcome_nil {s : Scanner} (h : s.endLexeme.failure? = none) :
    s.outcome [] = s.endLexeme.endBlocks.result := by
  show s.finish.result = _
  rw [finish]
  simp only [h]

/-- Where no lexeme is open a text ends as in a gap. -/
theorem outcome_nil_between {s : Scanner} (hend : s.endLexeme = s) (h : s.failure? = none) :
    s.outcome [] = s.between.outcome [] := by
  rw [outcome_nil (by rw [hend, h]), hend, result_endBlocks h, outcome_nil (s := s.between) rfl]
  exact (result_endBlocks (s := s.between) rfl).symm

/-- A text can end where no lexeme and no parenthesis is open. -/
theorem outcome_nil_iff {s : Scanner} (hs : s.mode = .gap) {tokens : List Token} :
    s.outcome [] = .ok tokens ↔
      s.parens = [] ∧ tokens = s.tokens.toList ++ layout s.level 0 s.position.line := by
  have hend : s.endLexeme = s := by simp only [endLexeme, hs]
  have hfailure : s.failure? = none := by simp only [failure?, hs]
  rw [outcome_nil (by rw [hend, hfailure]), hend, result_endBlocks hfailure]
  rcases hparens : s.parens with _ | ⟨p, ps⟩
  · simp [eq_comm]
  · simp [List.getLast?_cons]

/-- A lexeme that goes on until something else follows ends there with its token. -/
theorem outcome_close {s : Scanner} {t : Token} {text : List Char} (h : s.failure? = none)
    (hend : s.endLexeme = s.push t)
    (hstep : ∀ c ∈ text.head?, s.step c = (s.push t).begin c) :
    s.outcome text = (s.push t).between.outcome text := by
  rcases text with _ | ⟨c, text⟩
  · have hpush : (s.push t).failure? = none := h
    have hbetween : (s.push t).between.endLexeme = (s.push t).between := rfl
    rw [outcome_nil (by rwa [hend]), hend, result_endBlocks hpush,
      outcome_nil (by rw [hbetween]; rfl), hbetween, result_endBlocks rfl]
    rfl
  · rw [outcome_cons, hstep c rfl, outcome_cons, ← begin_between]
    rfl

/-! ## Gaps -/

theorem begin_whiteSpace (s : Scanner) {c : Char} (h : Unicode.isWhiteSpace c = true)
    (hc : c ≠ '\n') : s.begin c = s.enter c .gap := by
  have hbrace : c ≠ '{' := by
    rintro rfl
    cases h
  have hdigit : c.isDigit = false := by
    rw [Bool.eq_false_iff]
    intro hdigit
    rw [not_isWhiteSpace_of_isDigit hdigit] at h
    cases h
  rw [begin, not_isAlphabetic_of_isWhiteSpace h, hdigit, if_neg Bool.false_ne_true, if_neg hc,
    if_neg hbrace, if_neg Bool.false_ne_true, if_pos h]

theorem outcome_whiteSpace {s : Scanner} (hs : s.mode = .gap) {c : Char}
    (h : Unicode.isWhiteSpace c = true) (hc : c ≠ '\n') (text : List Char) :
    s.outcome (c :: text) = (s.enter c .gap).outcome text := by
  rw [outcome_cons, ← begin_whiteSpace s h hc]
  simp only [step, hs]

/-- Behind a comment that is the last of its line a scanner is as good as in a gap. -/
theorem outcome_afterComment : ∀ {text : List Char} {s : Scanner}, s.mode = .afterComment →
    EndsLine text → s.outcome text = s.between.outcome text
  | [], s, hs, _ => outcome_nil_between (by simp only [endLexeme, hs]) (by simp only [failure?, hs])
  | c :: text, s, hs, h => by
    by_cases hc : c = '\n'
    · rw [outcome_cons, outcome_cons]
      subst hc
      show _ = (s.between.begin '\n').outcome text
      rw [begin_between]
      simp only [step, hs, if_true]
    · have hstep : s.step c = s.enter c .afterComment := by
        simp only [step, hs, hc, h.head hc, if_true, if_false]
      rw [outcome_cons, hstep, outcome_afterComment rfl (h.tail hc),
        outcome_whiteSpace rfl (h.head hc) hc]
      rfl

theorem scan_comment (start : Position) : ∀ (body : List Char) (s : Scanner),
    s.mode = .comment start → '}' ∉ body →
    s.scan body = { s with position := s.position.advanceAll body }
  | [], s, _, _ => rfl
  | c :: body, s, hs, h => by
    rw [List.mem_cons, not_or] at h
    have hstep : s.step c = s.enter c (.comment start) := by
      simp only [step, hs, Ne.symm h.1, if_false]
    rw [scan_cons, scan_comment start body _ (congrArg Scanner.mode hstep) h.2, hstep, enter, ← hs]
    rfl

/-- The scanner behind `text`, without having taken anything from it. -/
def across (s : Scanner) (text : List Char) : Scanner :=
  { s with position := s.position.advanceAll text }

theorem outcome_comment {s : Scanner} (hs : s.mode = .gap) {body text : List Char}
    (hbody : '}' ∉ body) (h : EndsLine text) :
    s.outcome ('{' :: (body ++ '}' :: text)) =
      (s.across ('{' :: (body ++ ['}']))).outcome text := by
  have hopen : s.step '{' = s.enter '{' (.comment s.position) := by
    simp only [step, hs]
    rfl
  rw [outcome_cons, outcome_append, scan_comment s.position body _ (by rw [hopen]; rfl) hbody,
    outcome_cons, outcome_afterComment (by rw [hopen]; rfl) h, hopen]
  simp [step, across, enter, between, hs, Position.advanceAll]

theorem outcome_gap {gap rest : List Char} (h : Gap gap rest) : ∀ {s : Scanner}, s.mode = .gap →
    s.outcome (gap ++ rest) = (s.across gap).outcome rest := by
  induction h with
  | none => exact fun _ => rfl
  | space hc hline _ ih =>
    intro s hs
    rw [List.cons_append, outcome_whiteSpace hs hc hline, ih rfl, across, across, ← hs]
    rfl
  | @comment body gap rest hbody hends _ ih =>
    intro s hs
    rw [List.cons_append, List.append_assoc, List.cons_append, outcome_comment hs hbody hends,
      ih (s := s.across _) hs]
    simp [across, Position.advanceAll]

/-! ## Ends of lines -/

/-- The scanner behind the margin of `line`, of which `level` levels are read, and so are
`spaces` spaces behind them. -/
def behindMargin (s : Scanner) (level spaces : Nat) (line : List Char) : Scanner :=
  if isBlank line then s.between
  else (s.indentTo (level + marginLevel (List.replicate spaces ' ' ++ line))).between

theorem outcome_behindMargin_cons {s : Scanner} {c : Char} (hc : isIndentation c = true)
    {level spaces level' spaces' : Nat} {mode : Mode} {line : List Char}
    (h : level + marginLevel (List.replicate spaces ' ' ++ c :: line) =
      level' + marginLevel (List.replicate spaces' ' ' ++ line)) (text : List Char) :
    ((s.enter c mode).behindMargin level' spaces' line).outcome text =
      (s.behindMargin level spaces (c :: line)).outcome (c :: text) := by
  obtain ⟨hwhite, hline⟩ : Unicode.isWhiteSpace c = true ∧ c ≠ '\n' := by
    simp only [isIndentation, Bool.or_eq_true, beq_iff_eq] at hc
    rcases hc with (rfl | rfl) | rfl <;> exact ⟨rfl, by decide⟩
  have hblank : isBlank (c :: line) = isBlank line := by
    rw [isBlank, List.all_cons, hc, Bool.true_and, isBlank]
  rw [behindMargin, behindMargin, h, hblank]
  split
  · rw [outcome_whiteSpace rfl hwhite hline]
    rfl
  · rw [outcome_whiteSpace rfl hwhite hline]
    simp only [indentTo_eq, enter, between, Position.advance_of_ne hline]

/-- In the margin of a line the scanner counts as far as it goes, and the line then starts at
the level of all of it. -/
theorem outcome_margin : ∀ {text : List Char} {s : Scanner} {level spaces : Nat},
    s.mode = .margin level spaces → spaces < spacesPerIndent →
    s.outcome text = (s.behindMargin level spaces (headLine text)).outcome text
  | [], s, level, spaces, hs, _ =>
    outcome_nil_between (by simp only [endLexeme, hs]) (by simp only [failure?, hs])
  | c :: text, s, level, spaces, hs, hspaces => by
    by_cases hline : c = '\n'
    · subst hline
      have hstep : s.step '\n' = s.begin '\n' := by
        simp only [step, hs]
        rfl
      show _ = (s.between.begin '\n').outcome text
      rw [outcome_cons, hstep, begin_between]
    rw [headLine_cons hline]
    by_cases hc : isIndentation c = true
    · obtain ⟨level', spaces', hstep, hspaces', hlevel⟩ : ∃ level' spaces',
          s.step c = s.enter c (.margin level' spaces') ∧ spaces' < spacesPerIndent ∧
          level + marginLevel (List.replicate spaces ' ' ++ c :: headLine text) =
            level' + marginLevel (List.replicate spaces' ' ' ++ headLine text) := by
        simp only [isIndentation, Bool.or_eq_true, beq_iff_eq] at hc
        rcases hc with (rfl | rfl) | rfl
        · have hreplicate : List.replicate spaces ' ' ++ ' ' :: headLine text =
              List.replicate (spaces + 1) ' ' ++ headLine text := by
            rw [List.replicate_succ', List.append_assoc]
            rfl
          by_cases hfull : spaces + 1 = spacesPerIndent
          · refine ⟨level + 1, 0, by simp only [step, hs, hfull, if_true], by decide, ?_⟩
            rw [hreplicate, hfull, marginLevel_indent, List.replicate_zero, List.nil_append]
            omega
          · refine ⟨level, spaces + 1, by simp only [step, hs, hfull, if_true, if_false],
              by omega, by rw [hreplicate]⟩
        · refine ⟨level + 1, 0, by simp only [step, hs]; rfl, by decide, ?_⟩
          rw [marginLevel_tab hspaces, List.replicate_zero, List.nil_append]
          omega
        · exact ⟨level, spaces, by simp only [step, hs]; rfl, hspaces,
            by rw [marginLevel_return]⟩
      rw [outcome_cons, hstep, outcome_margin rfl hspaces', outcome_behindMargin_cons hc hlevel]
    · rw [Bool.not_eq_true] at hc
      have hblank : isBlank (c :: headLine text) = false := by
        rw [isBlank, List.all_cons, hc, Bool.false_and]
      have hstep : s.step c = (s.indentTo level).begin c := by
        have hne := hc
        simp only [isIndentation, Bool.or_eq_false_iff, beq_eq_false_iff_ne] at hne
        simp only [step, hs, hne.1.1, hne.1.2, hne.2, hline, if_false]
      rw [behindMargin, hblank, marginLevel_text hspaces hc, outcome_cons, hstep, ← begin_between]
      rfl

/-- The scanner between two lexemes behind the end of a line, with the layout of the line that
follows. -/
def newLine (s : Scanner) (line : List Char) : Scanner :=
  { s with
    position := s.position.advance '\n'
    mode := .gap
    level := levelAt s.level line
    tokens := (s.tokens.toList ++ (Token.plain .newline s.position ::
      layout s.level (levelAt s.level line) (s.position.line + 1))).toArray }

/-- Behind the end of a line the margin of the next is measured. -/
theorem outcome_line {s : Scanner} (hs : s.mode = .gap) (text : List Char) :
    s.outcome ('\n' :: text) = (s.newLine (headLine text)).outcome text := by
  have hstep : s.step '\n' = (s.pushPlain .newline s.position).enter '\n' (.margin 0 0) := by
    simp only [step, hs]
    rfl
  rw [outcome_cons, hstep, outcome_margin rfl (by decide), behindMargin, newLine, levelAt]
  congr 1
  split
  · simp [between, enter, pushPlain, push, layout_self, ← Array.toList_inj]
  · simp [between, enter, pushPlain, push, indentTo_eq, Position.advance_newline]

/-! ## Lexemes -/

theorem wordLexeme_ne_paren (text : String) :
    (wordLexeme text).kind ≠ .leftParen ∧ (wordLexeme text).kind ≠ .rightParen := by
  have hall : ∀ k ∈ Kind.word :: Kind.reservedWords.map Prod.snd,
      k ≠ .leftParen ∧ k ≠ .rightParen := by decide
  exact hall _ (kind_wordLexeme text)

/-- The scanner behind a lexeme. -/
def take (s : Scanner) (text : List Char) (l : Lexeme) : Scanner :=
  { s with
    position := s.position.advanceAll text
    mode := .gap
    parens := if l.kind = .leftParen then s.position :: s.parens
      else if l.kind = .rightParen then s.parens.tail else s.parens
    tokens := s.tokens.push (l.token s.position) }

theorem take_of_ne {s : Scanner} {text : List Char} {l : Lexeme}
    (h : l.kind ≠ .leftParen ∧ l.kind ≠ .rightParen) : s.take text l =
      { s.push (l.token s.position) with
        position := s.position.advanceAll text, mode := .gap } := by
  rw [take, if_neg h.1, if_neg h.2]
  rfl

theorem outcome_word {text : String} (h : isWord text = true) {rest : List Char}
    (hlongest : Longest isWord text rest) {s : Scanner} (hs : s.mode = .gap) :
    s.outcome (text.toList ++ rest) = (s.take text.toList (wordLexeme text)).outcome rest := by
  have hparts := h
  simp only [isWord, Bool.and_eq_true] at hparts
  have htoken : (wordLexeme text).token s.position = Token.ofWord text s.position := by
    rw [wordLexeme, Token.ofWord]
    cases Kind.reserved? text <;> rfl
  rw [outcome_append, scan_whole_word hparts.1 hparts.2 hs,
    outcome_close (t := Token.ofWord text s.position) rfl rfl,
      take_of_ne (wordLexeme_ne_paren text), htoken]
  · rfl
  · intro c hc
    have hcontinues := hlongest c hc
    rw [isWord_push h] at hcontinues
    simp only [step, hcontinues, Bool.false_eq_true, if_false]

theorem outcome_number {text : String} (h : isNumeral text = true) {rest : List Char}
    (hlongest : Longest isNumeral text rest) {s : Scanner} (hs : s.mode = .gap) :
    s.outcome (text.toList ++ rest) =
      (s.take text.toList ⟨.number, some text⟩).outcome rest := by
  rw [outcome_append, scan_numeral h hs,
    outcome_close (t := ⟨.number, s.position, some text⟩) rfl rfl, take_of_ne (by simp)]
  · rfl
  · intro c hc
    have hcontinues := hlongest c hc
    rw [isNumeral_push h, Bool.or_eq_false_iff] at hcontinues
    obtain ⟨hdigit, hdot⟩ := hcontinues
    simp only [step, hdigit, Bool.false_eq_true, if_false]
    rw [if_neg]
    rintro ⟨rfl, hdotted⟩
    rw [hdotted] at hdot
    cases hdot

/-- A sign that an equals sign would extend ends where none follows. -/
theorem outcome_operator {c : Char} {k : Kind} (hk : alone? c = some k) {s : Scanner}
    {start : Position} {extended : Kind} (hs : s.mode = .operator start c extended)
    {rest : List Char} (h : ∀ d ∈ rest.head?, d ≠ '=') :
    s.outcome rest = (s.pushPlain k start).between.outcome rest := by
  refine outcome_close ?_ ?_ fun d hd => ?_
  · simp only [failure?, hs]
  · simp only [endLexeme, hs, hk, pushPlain]
  · simp only [step, hs, h d hd, hk, if_false, pushPlain]

theorem outcome_dot {s : Scanner} {start : Position} (hs : s.mode = .dot start)
    {rest : List Char} (h : ∀ d ∈ rest.head?, d.isDigit = false) :
    s.outcome rest = (s.pushPlain .dot start).between.outcome rest := by
  refine outcome_close ?_ ?_ fun d hd => ?_
  · simp only [failure?, hs]
  · simp only [endLexeme, hs, pushPlain]
  · simp only [step, hs, h d hd, Bool.false_eq_true, if_false, pushPlain]

theorem not_extended {text : String} (h : isSymbol (text.push '=') = true) {rest : List Char}
    (hlongest : Longest isSymbol text rest) : ∀ d ∈ rest.head?, d ≠ '=' := by
  rintro d hd rfl
  rw [hlongest _ hd] at h
  cases h

theorem outcome_symbol {text : String} {k : Kind} (hk : symbols.lookup text = some k)
    {rest : List Char} (hlongest : Longest isSymbol text rest)
    (hdot : text = "." → ∀ c ∈ rest.head?, c.isDigit = false) {s : Scanner} (hs : s.mode = .gap)
    (hparens : k = .rightParen → s.parens ≠ []) :
    s.outcome (text.toList ++ rest) = (s.take text.toList ⟨k, none⟩).outcome rest := by
  obtain ⟨p, m, level, parens, ts⟩ := s
  cases hs
  have hmem := mem_symbols hk
  simp only [symbols, List.mem_cons, Prod.mk.injEq, List.not_mem_nil, or_false] at hmem
  rw [outcome_append]
  rcases hmem with ⟨rfl, rfl⟩ | ⟨rfl, rfl⟩ | ⟨rfl, rfl⟩ | ⟨rfl, rfl⟩ | ⟨rfl, rfl⟩ | ⟨rfl, rfl⟩ |
    ⟨rfl, rfl⟩ | ⟨rfl, rfl⟩ | ⟨rfl, rfl⟩ | ⟨rfl, rfl⟩ | ⟨rfl, rfl⟩ | ⟨rfl, rfl⟩ | ⟨rfl, rfl⟩ |
    ⟨rfl, rfl⟩ | ⟨rfl, rfl⟩ | ⟨rfl, rfl⟩ | ⟨rfl, rfl⟩
  case inr.inl =>
    obtain ⟨start, parens, rfl⟩ := List.exists_cons_of_ne_nil (hparens rfl)
    rfl
  case inr.inr.inr.inl => exact outcome_dot rfl (hdot rfl)
  all_goals first
    | rfl
    | exact outcome_operator rfl rfl (not_extended (by decide) hlongest)

theorem outcome_written {text rest : List Char} {l : Lexeme} (h : Written text l rest)
    {s : Scanner} (hs : s.mode = .gap) (hparens : l.kind = .rightParen → s.parens ≠ []) :
    s.outcome (text ++ rest) = (s.take text l).outcome rest := by
  cases h with
  | word hword hlongest => exact outcome_word hword hlongest hs
  | number hnumber hlongest => exact outcome_number hnumber hlongest hs
  | string hbody =>
    rw [outcome_append, scan_whole_string hbody hs, take_of_ne (by simp)]
    rfl
  | character hc =>
    rw [outcome_append, scan_whole_character hc hs, take_of_ne (by simp)]
    rfl
  | symbol hk hlongest hdot => exact outcome_symbol hk hlongest hdot hs hparens

/-! ## What a text that is scanned starts with -/

theorem outcome_nil_stop {s : Scanner} {cause : Cause} {p : Position}
    (h : s.endLexeme = s.stop cause p) : s.outcome [] = .error ⟨cause, p⟩ := by
  show s.finish.result = _
  rw [finish, h]
  rfl

theorem endsLine_of_outcome : ∀ {text : List Char} {s : Scanner} {tokens : List Token},
    s.mode = .afterComment → s.outcome text = .ok tokens → EndsLine text
  | [], _, _, _, _ => nofun
  | c :: text, s, tokens, hs, h => by
    by_cases hline : c = '\n'
    · subst hline
      exact nofun
    by_cases hc : Unicode.isWhiteSpace c = true
    · have hstep : s.step c = s.enter c .afterComment := by
        simp only [step, hs, hline, hc, if_true, if_false]
      rw [outcome_cons, hstep] at h
      intro d hd
      rw [headLine_cons hline] at hd
      rcases List.mem_cons.mp hd with rfl | hd
      · exact hc
      · exact endsLine_of_outcome rfl h d hd
    · have hstep : s.step c = s.stop .codeAfterComment s.position := by
        simp only [step, hs, hline, hc, if_false]
        rfl
      rw [outcome_cons, hstep, outcome_stopped rfl] at h
      cases h

theorem exists_comment : ∀ {text : List Char} {s : Scanner} {start : Position}
    {tokens : List Token}, s.mode = .comment start → s.outcome text = .ok tokens →
    ∃ body rest, text = body ++ '}' :: rest ∧ '}' ∉ body ∧ EndsLine rest
  | [], s, start, tokens, hs, h => by
    rw [outcome_nil_stop (by simp only [endLexeme, hs]; rfl)] at h
    cases h
  | c :: text, s, start, tokens, hs, h => by
    by_cases hc : c = '}'
    · subst hc
      have hstep : s.step '}' = s.enter '}' .afterComment := by
        simp only [step, hs, if_true]
      rw [outcome_cons, hstep] at h
      exact ⟨[], text, rfl, List.not_mem_nil, endsLine_of_outcome rfl h⟩
    · have hstep : s.step c = s.enter c (.comment start) := by
        simp only [step, hs, hc, if_false]
      rw [outcome_cons, hstep] at h
      obtain ⟨body, rest, rfl, hbody, hends⟩ := exists_comment rfl h
      exact ⟨c :: body, rest, rfl, by simp [hbody, Ne.symm hc], hends⟩

theorem exists_string : ∀ (escaped : Bool) {text : List Char} {s : Scanner} {start : Position}
    {value : String} {tokens : List Token},
    s.mode = (if escaped then .escape start value else .string start value) →
    s.outcome text = .ok tokens →
    ∃ body rest, text = body ++ '"' :: rest ∧ isStringBody escaped body = true
  | escaped, [], s, start, value, tokens, hs, h => by
    rw [outcome_nil_stop (by cases escaped <;> simp only [endLexeme, hs] <;> rfl)] at h
    cases h
  | true, c :: text, s, start, value, tokens, hs, h => by
    have hstep : s.step c = s.enter c (.string start (value.push c)) := by
      simp only [step, hs, if_true]
    rw [outcome_cons, hstep] at h
    obtain ⟨body, rest, rfl, hbody⟩ := exists_string false rfl h
    exact ⟨c :: body, rest, rfl, by simpa [isStringBody] using hbody⟩
  | false, c :: text, s, start, value, tokens, hs, h => by
    have hs : s.mode = .string start value := hs
    by_cases hquote : c = '"'
    · subst hquote
      exact ⟨[], text, rfl, rfl⟩
    by_cases hescape : c = '\\'
    · subst hescape
      have hstep : s.step '\\' = s.enter '\\' (.escape start (value.push '\\')) := by
        simp only [step, hs]
        rfl
      rw [outcome_cons, hstep] at h
      obtain ⟨body, rest, rfl, hbody⟩ := exists_string true rfl h
      exact ⟨'\\' :: body, rest, rfl, by simpa [isStringBody] using hbody⟩
    · have hstep : s.step c = s.enter c (.string start (value.push c)) := by
        simp only [step, hs, hquote, hescape, if_false]
      rw [outcome_cons, hstep] at h
      obtain ⟨body, rest, rfl, hbody⟩ := exists_string false rfl h
      exact ⟨c :: body, rest, rfl, by simpa [isStringBody, hquote, hescape] using hbody⟩

theorem exists_character {text : List Char} {s : Scanner} {start : Position}
    {tokens : List Token} (hs : s.mode = .openQuote start) (h : s.outcome text = .ok tokens) :
    ∃ c rest, text = c :: '\'' :: rest ∧ c ≠ '\n' := by
  rcases text with _ | ⟨c, text⟩
  · rw [outcome_nil_stop (by simp only [endLexeme, hs]; rfl)] at h
    cases h
  by_cases hc : c = '\n'
  · rw [outcome_cons, step, hs] at h
    simp only [hc, if_true] at h
    rw [outcome_stopped rfl] at h
    cases h
  have hstep : s.step c = s.enter c (.closeQuote start c) := by
    simp only [step, hs, hc, if_false]
  rw [outcome_cons, hstep] at h
  rcases text with _ | ⟨d, text⟩
  · rw [outcome_nil_stop rfl] at h
    cases h
  by_cases hd : d = '\''
  · subst hd
    exact ⟨c, text, rfl, hc⟩
  · rw [outcome_cons, step] at h
    simp only [enter, hd, if_false] at h
    rw [outcome_stopped rfl] at h
    cases h

/-- The text starts with a lexeme, and if it closes a parenthesis there is one to close. -/
def StartsLexeme (s : Scanner) (text : List Char) : Prop :=
  ∃ lex l rest, text = lex ++ rest ∧ Written lex l rest ∧ (l.kind = .rightParen → s.parens ≠ [])

theorem startsLexeme_word (s : Scanner) {c : Char} (hc : Unicode.isAlphabetic c = true)
    (text : List Char) : s.StartsLexeme (c :: text) := by
  have hfirst : isWord (String.singleton c) = true := by
    simp [isWord, hc, Unicode.isAlphanumeric]
  obtain ⟨more, rest, rfl, hword, hlongest⟩ := exists_longest text hfirst
  exact ⟨_, _, rest, by simp, .word hword hlongest,
    fun hclose => absurd hclose (wordLexeme_ne_paren _).2⟩

theorem startsLexeme_number (s : Scanner) {first : String} (h : isNumeral first = true)
    (text : List Char) : s.StartsLexeme (first.toList ++ text) := by
  obtain ⟨more, rest, rfl, hnumber, hlongest⟩ := exists_longest text h
  exact ⟨_, _, rest, by simp, .number hnumber hlongest, nofun⟩

theorem startsLexeme_symbol {s : Scanner} (first : String) (h : isSymbol first = true)
    (hdot : first.toList.head? ≠ some '.') (hclose : first.toList.head? = some ')' → s.parens ≠ [])
    (text : List Char) : s.StartsLexeme (first.toList ++ text) := by
  obtain ⟨more, rest, rfl, hsymbol, hlongest⟩ := exists_longest text h
  obtain ⟨k, hk⟩ := Option.isSome_iff_exists.mp hsymbol
  have hhead : (first ++ String.ofList more).toList.head? = first.toList.head? := by
    have hne : first.toList ≠ [] := by
      intro hnil
      rw [String.toList_eq_nil_iff.mp hnil] at h
      cases h
    obtain ⟨c, cs, hcs⟩ := List.exists_cons_of_ne_nil hne
    simp [hcs]
  refine ⟨_, _, rest, by simp, .symbol hk hlongest fun heq => ?_, fun hkind => ?_⟩
  · rw [heq] at hhead
    exact absurd hhead.symm hdot
  · have hall : ∀ e ∈ symbols, e.2 = .rightParen → e.1.toList.head? = some ')' := by decide
    exact hclose (hhead ▸ hall _ (mem_symbols hk) hkind)

theorem startsLexeme_dot {s : Scanner} (text : List Char) : s.StartsLexeme ('.' :: text) := by
  by_cases h : ∀ c ∈ text.head?, c.isDigit = false
  · have hlongest : Longest isSymbol "." text := by
      intro c _
      rw [Bool.eq_false_iff]
      intro hsymbol
      obtain ⟨k, hk⟩ := Option.isSome_iff_exists.mp hsymbol
      have hall : ∀ e ∈ symbols, e.1.toList.head? = some '.' → e.1.toList.length = 1 := by decide
      have := hall _ (mem_symbols hk) (by simp)
      simp at this
    exact ⟨['.'], ⟨.dot, none⟩, text, rfl, .symbol rfl hlongest fun _ => h, nofun⟩
  · obtain ⟨c, text, rfl, hc⟩ : ∃ c cs, text = c :: cs ∧ c.isDigit = true := by
      rcases text with _ | ⟨c, text⟩
      · exact absurd nofun h
      · exact ⟨c, text, rfl, by simpa using h⟩
    have hfirst : isNumeral ("." ++ String.singleton c) = true := by
      simp [isNumeral, hc, ne_dot_of_isDigit hc]
    simpa using startsLexeme_number s hfirst text

theorem startsLexeme_sign (s : Scanner) {c : Char} {kind : Kind} (h : single? c = some kind)
    (text : List Char) : s.StartsLexeme (c :: text) := by
  have hsymbol : isSymbol (String.singleton c) = true ∧ c ≠ '.' ∧ c ≠ ')' := by
    unfold single? at h
    split at h <;> first
      | exact ⟨rfl, by decide, by decide⟩
      | cases h
  have hfirst : (String.singleton c).toList ++ text = c :: text := by simp
  rw [← hfirst]
  exact startsLexeme_symbol _ hsymbol.1 (by simpa using hsymbol.2.1)
    (fun hclose => absurd (by simpa using hclose) hsymbol.2.2) text

/-- Of the signs that an equals sign extends the exclamation mark needs it. -/
theorem startsLexeme_operator {s : Scanner} {c : Char} {kind : Kind} (hkind : extended? c = some kind)
    {text : List Char} {tokens : List Token}
    (h : (s.enter c (.operator s.position c kind)).outcome text = .ok tokens) :
    s.StartsLexeme (c :: text) := by
  unfold extended? at hkind
  split at hkind
  · exact startsLexeme_symbol "=" rfl (by decide) (by simp) text
  · rcases text with _ | ⟨d, text⟩
    · rw [outcome_nil_stop rfl] at h
      cases h
    by_cases hd : d = '='
    · subst hd
      exact startsLexeme_symbol "!=" rfl (by decide) (by simp) text
    · have hfails : (s.enter '!' (.operator s.position '!' kind)).step d = _ :=
        (Moves.fails (.operator hd rfl)).step_eq
      rw [outcome_cons, hfails, outcome_stopped rfl] at h
      cases h
  · exact startsLexeme_symbol "<" rfl (by decide) (by simp) text
  · exact startsLexeme_symbol ">" rfl (by decide) (by simp) text
  · cases hkind

/-- What has been opened is the start of a gap or of a lexeme. -/
theorem exists_piece_of_opens {s : Scanner} {c : Char} {mode : Mode}
    (hopens : Mode.Opens s.position c mode) {text : List Char} {tokens : List Token}
    (h : (s.enter c mode).outcome text = .ok tokens) :
    (∃ gap rest, gap ≠ [] ∧ c :: text = gap ++ rest ∧ Gap gap rest) ∨
      s.StartsLexeme (c :: text) := by
  cases hopens with
  | word hc => exact .inr (startsLexeme_word s hc text)
  | comment =>
    obtain ⟨body, rest, rfl, hbody, hends⟩ := exists_comment rfl h
    have hgap : Gap ('{' :: (body ++ '}' :: [])) rest := .comment hbody hends .none
    exact .inl ⟨_, rest, List.cons_ne_nil _ _, by simp, hgap⟩
  | number hc =>
    have hfirst : isNumeral (String.singleton c) = true := by
      simp [isNumeral, hc, ne_dot_of_isDigit hc]
    simpa using Or.inr (startsLexeme_number s hfirst text)
  | whiteSpace hc hline =>
    exact .inl ⟨[c], text, List.cons_ne_nil _ _, rfl, .space hc hline .none⟩
  | string =>
    obtain ⟨body, rest, rfl, hbody⟩ := exists_string false rfl h
    refine .inr ⟨_, _, rest, ?_, .string (by rwa [String.toList_ofList]), by simp⟩
    simp
  | openQuote =>
    obtain ⟨c, rest, rfl, hc⟩ := exists_character rfl h
    exact .inr ⟨_, _, rest, rfl, .character hc, by simp⟩
  | dot => exact .inr (startsLexeme_dot text)
  | operator hkind => exact .inr (startsLexeme_operator hkind h)

/-- A text that is scanned from between two lexemes is over, or starts with the end of a line,
with a gap or with a lexeme. -/
theorem exists_piece {s : Scanner} (hs : s.mode = .gap) {text : List Char} {tokens : List Token}
    (h : s.outcome text = .ok tokens) :
    text = [] ∨ (∃ rest, text = '\n' :: rest) ∨
      (∃ gap rest, gap ≠ [] ∧ text = gap ++ rest ∧ Gap gap rest) ∨ s.StartsLexeme text := by
  rcases text with _ | ⟨c, text⟩
  · exact .inl rfl
  have hstep : s.step c = s.begin c := by simp only [step, hs]
  have hbegins := begins_begin s c
  rw [outcome_cons, hstep] at h
  generalize s.begin c = s' at h hbegins
  right
  cases hbegins with
  | opens hopens => exact .inr (exists_piece_of_opens hopens h)
  | newline hc => exact .inl ⟨text, by rw [hc]⟩
  | sign hkind => exact .inr (.inr (startsLexeme_sign s hkind text))
  | leftParen hc =>
    subst hc
    exact .inr (.inr (startsLexeme_symbol "(" rfl (by decide) (by simp) text))
  | rightParen hc hparens =>
    subst hc
    exact .inr (.inr (startsLexeme_symbol ")" rfl (by decide) (by simp [hparens]) text))
  | unmatched =>
    rw [outcome_stopped rfl] at h
    cases h
  | unrecognised =>
    rw [outcome_stopped rfl] at h
    cases h

/-! ## Whole texts -/

/-- Behind a lexeme that closes no parenthesis too many the rest has to balance. -/
theorem balances_lexeme (s : Scanner) (text : List Char) {l : Lexeme} {p : Position}
    {ts : List Token} {d' : Nat} :
    Balances .leftParen .rightParen s.parens.length (l.token p :: ts) d' ↔
      (l.kind = .rightParen → s.parens ≠ []) ∧
        Balances .leftParen .rightParen (s.take text l).parens.length ts d' := by
  have hkind : (l.token p).kind = l.kind := rfl
  rw [Balances, hkind, take]
  by_cases hopen : l.kind = .leftParen
  · simp [hopen]
  by_cases hclose : l.kind = .rightParen
  · simp [hclose, List.length_pos_iff]
  · simp [hopen, hclose]

/-- The scanner takes every tiling. -/
theorem outcome_of_scans {before text : List Char} {level level' : Nat} {ts : List Token}
    (h : Scans before level text ts level') : ∀ {s : Scanner}, s.mode = .gap →
    s.position = Position.behind before → s.level = level →
    Balances .leftParen .rightParen s.parens.length ts 0 →
    s.outcome text = .ok (s.tokens.toList ++ ts ++
      layout level' 0 (Position.behind (before ++ text)).line) := by
  induction h with
  | @done before level gap hgap =>
    intro s hs hp hlevel hbalance
    have hacross : (s.across gap).position = Position.behind (before ++ gap) := by
      rw [across, hp, Position.advanceAll_behind]
    have hnil := outcome_gap hgap hs
    rw [List.append_nil] at hnil
    rw [hnil, outcome_nil_iff (s := s.across gap) hs]
    refine ⟨List.length_eq_zero_iff.mp hbalance, ?_⟩
    rw [hacross, List.append_nil, ← hlevel]
    rfl
  | @line before level gap rest ts level' hgap _ ih =>
    intro s hs hp hlevel hbalance
    have hacross : (s.across gap).position = Position.behind (before ++ gap) := by
      rw [across, hp, Position.advanceAll_behind]
    have hbehind : Position.behind (before ++ (gap ++ ['\n'])) =
        (s.across gap).position.advance '\n' := by
      rw [hacross, ← List.append_assoc, Position.behind_append_singleton]
    subst hlevel
    rw [balances_newline] at hbalance
    have hrest := ih (s := (s.across gap).newLine (headLine rest)) rfl hbehind.symm rfl hbalance
    rw [outcome_gap hgap hs, outcome_line (s := s.across gap) hs, hrest, newLine, hbehind,
      ← hacross]
    simp [across, Position.advance_newline]
  | @lexeme before level gap text l rest ts level' hgap hlex _ ih =>
    intro s hs hp hlevel hbalance
    have hacross : (s.across gap).position = Position.behind (before ++ gap) := by
      rw [across, hp, Position.advanceAll_behind]
    have htake :
        ((s.across gap).take text l).position = Position.behind (before ++ (gap ++ text)) := by
      rw [take, hacross, Position.advanceAll_behind, List.append_assoc]
    obtain ⟨hparens, hbalance⟩ := (balances_lexeme (s.across gap) text).mp hbalance
    rw [outcome_gap hgap hs, outcome_written (s := s.across gap) hlex hs hparens,
      ih rfl htake hlevel hbalance, take, ← hacross]
    simp [across]

/-- What the scanner takes is a tiling. -/
theorem exists_scans (before : List Char) {text : List Char} {s : Scanner} (hs : s.mode = .gap)
    (hp : s.position = Position.behind before) {tokens : List Token}
    (h : s.outcome text = .ok tokens) : ∃ ts level', Scans before s.level text ts level' ∧
      Balances .leftParen .rightParen s.parens.length ts 0 ∧
      tokens = s.tokens.toList ++ ts ++
        layout level' 0 (Position.behind (before ++ text)).line := by
  induction hn : text.length using Nat.strongRecOn generalizing text s before with
  | ind n ih =>
  obtain rfl | ⟨rest, rfl⟩ | ⟨gap, rest, hne, rfl, hgap⟩ | ⟨lex, l, rest, rfl, hlex, hparens⟩ :=
    exists_piece hs h
  · obtain ⟨hparens, rfl⟩ := (outcome_nil_iff hs).mp h
    refine ⟨[], s.level, .done .none, by rw [hparens]; rfl, ?_⟩
    rw [hp, List.append_nil, List.append_nil]
  · have hbehind : Position.behind (before ++ ([] ++ ['\n'])) = s.position.advance '\n' := by
      rw [hp, List.nil_append, Position.behind_append_singleton]
    rw [outcome_line hs] at h
    obtain ⟨ts, level', hscans, hbalance, rfl⟩ :=
      ih rest.length (by simp [← hn]) _ rfl hbehind.symm h rfl
    refine ⟨_, level', .line .none hscans, balances_newline.mpr hbalance, ?_⟩
    rw [hbehind, newLine, List.append_nil, ← hp]
    simp [Position.advance_newline]
  · have hacross : (s.across gap).position = Position.behind (before ++ gap) := by
      rw [across, hp, Position.advanceAll_behind]
    rw [outcome_gap hgap hs] at h
    obtain ⟨ts, level', hscans, hbalance, rfl⟩ := ih rest.length
      (by simp [← hn, List.length_pos_iff.mpr hne]) _ (s := s.across gap) hs hacross h rfl
    refine ⟨ts, level', hscans.gap_append hgap, hbalance, ?_⟩
    rw [List.append_assoc before]
    rfl
  · have htake : (s.take lex l).position = Position.behind (before ++ ([] ++ lex)) := by
      rw [take, hp, Position.advanceAll_behind, List.nil_append]
    rw [outcome_written hlex hs hparens] at h
    obtain ⟨ts, level', hscans, hbalance, rfl⟩ := ih rest.length
      (by simp [← hn, List.length_pos_iff.mpr hlex.ne_nil]) _ rfl htake h rfl
    refine ⟨_, level', .lexeme .none hlex hscans,
      (balances_lexeme s lex).mpr ⟨hparens, hbalance⟩, ?_⟩
    rw [take, List.append_nil, ← hp]
    simp

end Scanner

/-- The tokens of a text are those of its tiling with the layout, and behind them the closing
layout of the blocks that are still open. -/
theorem tokenize_eq_ok_iff {source : String} {tokens : List Token} :
    tokenize source = .ok tokens ↔ ∃ body level, Scans [] 0 source.toList body level ∧
      Balanced .leftParen .rightParen body ∧
      tokens = body ++ layout level 0 (Position.behind source.toList).line := by
  have hsource : tokenize source = Scanner.initial.outcome source.toList := rfl
  rw [hsource]
  constructor
  · intro h
    obtain ⟨body, level, hscans, hbalance, rfl⟩ := Scanner.exists_scans [] rfl rfl h
    exact ⟨body, level, hscans, (balanced_iff (by decide)).mpr hbalance, rfl⟩
  · rintro ⟨body, level, hscans, hbalance, rfl⟩
    exact Scanner.outcome_of_scans hscans rfl rfl rfl ((balanced_iff (by decide)).mp hbalance)

/-- A text has tokens if it can be cut into lexemes and gaps, with balanced parentheses, and
those of its tokens that are not layout are its lexemes where they stand. -/
theorem tokenize_lexemes_iff {source : String} {ts : List Token} :
    (∃ tokens, tokenize source = .ok tokens ∧ tokens.filter (fun t => !t.isLayout) = ts) ↔
      Tiling [] source.toList ts ∧ Balanced .leftParen .rightParen ts := by
  constructor
  · rintro ⟨tokens, htokens, rfl⟩
    obtain ⟨body, level, hscans, hbalance, rfl⟩ := tokenize_eq_ok_iff.mp htokens
    rw [List.filter_append, filter_layout, List.append_nil]
    exact ⟨hscans.tiling, balanced_filter.mpr hbalance⟩
  · rintro ⟨htiling, hbalance⟩
    obtain ⟨body, level, hscans, rfl⟩ := htiling.scans 0
    refine ⟨_, tokenize_eq_ok_iff.mpr ⟨body, level, hscans, balanced_filter.mp hbalance, rfl⟩, ?_⟩
    rw [List.filter_append, filter_layout, List.append_nil]

end Offside
