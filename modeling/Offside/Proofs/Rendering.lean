import Offside.Diagnostic.Render
import Offside.Proofs.Acceptance
import Offside.Proofs.Blame
import Offside.Proofs.Places
import Mathlib.Data.List.TakeWhile

/-!
# Diagnostics point into the text

The diagnostic of a text stands at a place of it (`isPlace_of_parseSource_error`): the scanner
notes no other positions, and the parser blames the position of a token. So there is a line to
show for it, and it can be drawn unless it stands too far right. In the drawing the caret stands
in the column of the character at that place (`caret_below`). The main statement is
`parseSource_error_shown`.
-/

namespace Offside

/-! ## The place of a diagnostic -/

theorem parseTokens_error_position {tokens : List Token} {d : Diagnostic}
    (h : parseTokens tokens = .error d) :
    d.position ∈ tokens.map Token.position ∨ d.position = Position.start := by
  obtain ⟨left, hleads, hblames⟩ := blames_of_parseTokens_error h
  obtain ⟨passed, hpassed, hposition⟩ := hblames.position hleads
  rw [hposition]
  rcases hpassed.position with hmem | hlast
  · exact .inl hmem
  · rw [hlast, Stream.ofList]
    rcases hl : tokens.getLast? with _ | t
    · exact .inr rfl
    · exact .inl (List.mem_map_of_mem (List.mem_of_getLast? hl))

/-- A text that is no program is blamed at one of its places. -/
theorem isPlace_of_parseSource_error {source : String} {d : Diagnostic}
    (h : parseSource source = .error d) : IsPlace source.toList d.position := by
  rw [parseSource] at h
  cases htokens : tokenize source with
  | error d' =>
    rw [htokens] at h
    cases h
    exact isPlace_of_tokenize_error htokens
  | ok tokens =>
    rw [htokens] at h
    rcases parseTokens_error_position h with hmem | hstart
    · obtain ⟨t, ht, hposition⟩ := List.mem_map.mp hmem
      exact hposition ▸ isPlace_of_tokenize htokens t ht
    · exact hstart ▸ isPlace_start source.toList

/-! ## The line that is shown -/

/-- The line is `text` between the spaces and tabs in front and the white space at the end. -/
structure Trims (line lead text trail : List Char) : Prop where
  line : line = lead ++ (text ++ trail)
  lead : ∀ c ∈ lead, c = ' ' ∨ c = '\t'
  start : ∀ c ∈ (text ++ trail).head?, c ≠ ' ' ∧ c ≠ '\t'
  trail : ∀ c ∈ trail, Unicode.isWhiteSpace c = true
  stop : ∀ c ∈ text.getLast?, Unicode.isWhiteSpace c = false

theorem trims_line (line : List Char) : ∃ trail,
    Trims line (line.takeWhile isMargin) (Unicode.trimEnd (line.dropWhile isMargin)) trail := by
  generalize hbehind : line.dropWhile isMargin = behind
  have htext : behind = Unicode.trimEnd behind ++
      (behind.reverse.takeWhile Unicode.isWhiteSpace).reverse := by
    rw [Unicode.trimEnd, ← List.reverse_append, List.takeWhile_append_dropWhile,
      List.reverse_reverse]
  refine ⟨(behind.reverse.takeWhile Unicode.isWhiteSpace).reverse, ?_, fun c hc => ?_,
    fun c hc => ?_, fun c hc => ?_, fun c hc => ?_⟩
  · rw [← htext, ← hbehind, List.takeWhile_append_dropWhile]
  · simpa [isMargin] using List.mem_takeWhile_imp hc
  · have hfirst := List.head?_dropWhile_not isMargin line
    rw [hbehind, htext, hc] at hfirst
    simpa [isMargin] using hfirst
  · exact List.mem_takeWhile_imp (List.mem_reverse.mp hc)
  · have hlast := List.head?_dropWhile_not Unicode.isWhiteSpace behind.reverse
    rw [Unicode.trimEnd, List.getLast?_reverse] at hc
    rw [hc] at hlast
    simpa using hlast

theorem Trims.getElem?_line {whole lead text trail : List Char} (h : Trims whole lead text trail)
    {n : Nat} (hn : n < text.length) : whole[lead.length + n]? = text[n]? := by
  rw [h.line, List.getElem?_append_right (Nat.le_add_right _ n), Nat.add_sub_cancel_left,
    List.getElem?_append_left hn]

/-! ## The excerpt -/

/-- What stands in front of a line without a number. -/
def gutter (number : List Char) : List Char :=
  List.replicate (number.length + 1) ' ' ++ ['|']

/-- The text behind its line number. -/
def numbered (number text : List Char) : List Char :=
  number ++ ([' ', '|', ' '] ++ text)

/-- The row with the caret behind so many dashes. -/
def caretRow (number : List Char) (dashes : Nat) : List Char :=
  gutter number ++ ' ' :: (List.replicate dashes '-' ++ ['^'])

theorem excerpt_eq (d : Diagnostic) (line : List Char) :
    d.excerpt line = gutter (toString d.position.line).toList ++ '\n' ::
      (numbered (toString d.position.line).toList (Unicode.trimEnd (line.dropWhile isMargin)) ++
        '\n' :: (caretRow (toString d.position.line).toList (d.caretWidth line - 1) ++ ['\n'])) := by
  simp [Diagnostic.excerpt, gutter, numbered, caretRow, padLeft]

/-- The caret stands in the column in which the character behind `n` others of the text does. -/
theorem caret_below (number text : List Char) (n : Nat) :
    (caretRow number n)[number.length + 3 + n]? = some '^' ∧
      (numbered number text)[number.length + 3 + n]? = text[n]? := by
  constructor
  · have hlength : (gutter number ++ ' ' :: List.replicate n '-').length = number.length + 3 + n := by
      simp [gutter]
      omega
    rw [caretRow, ← List.cons_append, ← List.append_assoc, ← hlength]
    exact List.getElem?_concat_length
  · have hlength : (number ++ [' ', '|', ' ']).length = number.length + 3 := by simp
    rw [numbered, ← List.append_assoc, ← hlength, List.getElem?_append_right (Nat.le_add_right _ n),
      Nat.add_sub_cancel_left]

/-- A diagnostic whose column is no further right than a field is wide can be drawn. -/
theorem render_eq {d : Diagnostic} {source : String} {line : List Char}
    (hline : (linesOf source.toList)[d.position.line - 1]? = some line)
    (hwidth : d.position.column ≤ maxFieldWidth) (file : String) :
    d.render source file = some (d.heading ++ d.place file ++ String.ofList (d.excerpt line)) := by
  have hcaret : d.caretWidth line ≤ maxFieldWidth :=
    Nat.max_le.mpr ⟨by decide, (Nat.sub_le _ _).trans hwidth⟩
  rw [Diagnostic.render, hline]
  exact if_pos hcaret

/-- The diagnostic of a text that is no program stands in a line of the text, at one of its
characters or at its end. If no line is too long for the caret to reach its end, the diagnostic is
drawn, whatever the file is called: below the heading and the place stand the gutter, the line
between its margin and the white space at its end, and the caret, behind as many dashes as
characters of the shown line stand in front of the place. If the character at that place is shown,
the caret stands in its column, counted from the start of either row. -/
theorem parseSource_error_shown {source : String} {d : Diagnostic}
    (h : parseSource source = .error d) :
    1 ≤ d.position.line ∧ d.position.line ≤ 1 + source.toList.count '\n' ∧
    ∃ whole, (linesOf source.toList)[d.position.line - 1]? = some whole ∧
      1 ≤ d.position.column ∧ d.position.column ≤ 1 + whole.length ∧
      ((∀ l ∈ linesOf source.toList, l.length ≤ 65534) → ∀ file : String,
        ∃ (number lead text trail : List Char) (dashes : Nat),
          number = (toString d.position.line).toList ∧
          lead = whole.takeWhile isMargin ∧ text = Unicode.trimEnd (whole.dropWhile isMargin) ∧
          dashes = d.position.column - 1 - lead.length ∧
          Trims whole lead text trail ∧
          d.render source file = some (d.heading ++ d.place file ++ String.ofList
            (gutter number ++ '\n' ::
              (numbered number text ++ '\n' :: (caretRow number dashes ++ ['\n'])))) ∧
          (lead.length < d.position.column → d.position.column ≤ lead.length + text.length →
            ∃ c : Char, whole[d.position.column - 1]? = some c ∧
              (numbered number text)[number.length + 3 + dashes]? = some c ∧
              (caretRow number dashes)[number.length + 3 + dashes]? = some '^')) := by
  obtain ⟨hfirst, hlast, line, hline, hcolumn, hend⟩ := (isPlace_of_parseSource_error h).exists_line
  refine ⟨hfirst, hlast, line, hline, hcolumn, hend, fun hshort file => ?_⟩
  have hlength := hshort line (List.mem_of_getElem? hline)
  obtain ⟨trail, htrims⟩ := trims_line line
  have hdashes : d.caretWidth line - 1 = d.position.column - 1 - (line.takeWhile isMargin).length := by
    rw [Diagnostic.caretWidth]
    omega
  refine ⟨_, _, _, trail, _, rfl, rfl, rfl, rfl, htrims, ?_, fun hlead htext => ?_⟩
  · rw [render_eq hline (hend.trans (by simp only [maxFieldWidth]; omega)), excerpt_eq, hdashes]
  · obtain ⟨hcaret, hshown⟩ := caret_below (toString d.position.line).toList
      (Unicode.trimEnd (line.dropWhile isMargin))
      (d.position.column - 1 - (line.takeWhile isMargin).length)
    have hwidth : d.position.column - 1 - (line.takeWhile isMargin).length <
        (Unicode.trimEnd (line.dropWhile isMargin)).length := by
      omega
    have hplace : (line.takeWhile isMargin).length +
        (d.position.column - 1 - (line.takeWhile isMargin).length) = d.position.column - 1 := by
      omega
    have hchar := htrims.getElem?_line hwidth
    rw [hplace] at hchar
    have hc := List.getElem?_eq_getElem hwidth
    exact ⟨_, hchar.trans hc, hshown.trans hc, hcaret⟩

/-- A class whose one line starts with a sign. -/
def signedSource : String :=
  "class Point\n\t!= x \n"

theorem parseSource_error_shown_signed : ∃ (d : Diagnostic) (text : List Char),
    parseSource signedSource = .error d ∧ d.position = ⟨2, 2⟩ ∧
    (∀ l ∈ linesOf signedSource.toList, l.length ≤ 65534) ∧
    d.render signedSource "main" = some (d.heading ++ d.place "main" ++ String.ofList
      (gutter ['2'] ++ '\n' :: (numbered ['2'] text ++ '\n' :: (caretRow ['2'] 0 ++ ['\n'])))) ∧
    ∃ c, "\t!= x ".toList[1]? = some c ∧ (numbered ['2'] text)[4]? = some c ∧
      (caretRow ['2'] 0)[4]? = some '^' := by
  have herror : parseSource signedSource =
      .error ⟨.unexpectedToken "one of CONSTRUCT, PRIVATE, SHARED, WORD" "NOTEQUAL", ⟨2, 2⟩⟩ := rfl
  have hshort : ∀ l ∈ linesOf signedSource.toList, l.length ≤ 65534 := by decide
  obtain ⟨-, -, line, hline, -, -, hshown⟩ := parseSource_error_shown herror
  obtain ⟨number, lead, text, trail, dashes, hnumber, hlead, htext, hdashes, -, hrender, hcaret⟩ :=
    hshown hshort "main"
  obtain rfl : "\t!= x ".toList = line := Option.some.inj hline
  obtain rfl : ['2'] = number := hnumber.symm
  obtain rfl : ['\t'] = lead := hlead.symm
  obtain rfl : 0 = dashes := hdashes.symm
  have hends : 2 ≤ ['\t'].length + text.length := by
    rw [htext]
    decide
  exact ⟨_, text, herror, rfl, hshort, hrender, hcaret (by decide) hends⟩

end Offside
