import Offside.Proofs.Parentheses

/-!
# Errors that more text does not take back

A scanner that has given up reads on without changing (`Scanner.scan_stopped`), so what it blames
is blamed in every longer text. Other errors are found at the end of the text only: a literal or a
comment is still open there, the text ends in an exclamation mark, or some parenthesis is open.
More text may close or complete what is open. So whether an error lasts can be seen at the place
that is blamed (`Diagnostic.ShowsIn`): an error that is found at the end is blamed where it does
not show. The main statement is `tokenize_append_error`.
-/

namespace Offside

/-- The diagnostic is for something that the text goes on behind, or that is wrong whatever comes
behind it: a character that starts no lexeme, a lexeme behind a comment, an exclamation mark with
another character behind it, or a closing parenthesis. -/
inductive Diagnostic.ShowsIn (text : List Char) : Diagnostic → Prop
  | unrecognisedCharacter {c p} : ShowsIn text ⟨.unrecognisedCharacter c, p⟩
  | codeAfterComment {p} : ShowsIn text ⟨.codeAfterComment, p⟩
  | malformedOperator {c before rest} : text = before ++ '!' :: rest → rest ≠ [] →
      ShowsIn text ⟨.malformedOperator c, Position.behind before⟩
  | unbalancedParentheses {before rest} : text = before ++ ')' :: rest →
      ShowsIn text ⟨.unbalancedParentheses, Position.behind before⟩

/-- Something is open at the end of a text that only more text could close. -/
def Cause.IsUnterminated : Cause → Prop
  | .unterminatedString | .unterminatedCharacter | .unterminatedComment => True
  | _ => False

namespace Mode

variable {m m' : Mode} {c symbol : Char} {here start p : Position} {extended : Kind} {cause : Cause}

theorem Opens.eq_of_operator (h : Opens here c (.operator start symbol extended)) :
    start = here ∧ symbol = c := by
  cases h
  exact ⟨rfl, rfl⟩

theorem Continues.ne_operator (h : m.Continues c m') : m' ≠ .operator start symbol extended := by
  cases h <;> simp

/-- Of what cannot end with the text an operator alone is not for want of an end. -/
theorem Unfinished.isUnterminated (h : m.Unfinished cause p) : cause.IsUnterminated ∨
    ∃ symbol extended, m = .operator p symbol extended ∧ cause = .malformedOperator symbol := by
  cases h with
  | operator => exact .inr ⟨_, _, rfl, rfl⟩
  | _ => exact .inl trivial

end Mode

namespace Scanner

variable {s s' : Scanner} {c symbol : Char} {start : Position} {extended : Kind}

/-- Where a scanner has given up no more text makes a difference. -/
theorem outcome_failed {d : Diagnostic} (h : s.failure? = some d) (text : List Char) :
    s.outcome text = .error d := by
  rw [failure?] at h
  split at h
  · next e hm =>
    cases h
    exact outcome_stopped hm text
  · cases h

/-! ## Open operators -/

theorem Begins.operator (h : s.Begins c s') (hs : s'.mode = .operator start symbol extended) :
    start = s.position ∧ symbol = c := by
  cases h with
  | opens hopens =>
    cases hs
    exact hopens.eq_of_operator
  | _ => cases hs

/-- An operator is opened by its own first character. -/
theorem Moves.operator (h : s.Moves c s') (hs : s'.mode = .operator start symbol extended) :
    s.failure? = none ∧ start = s.position ∧ symbol = c := by
  cases h with
  | rests hm => cases hm.symm.trans hs
  | continues hc => exact absurd hs hc.ne_operator
  | completes => cases hs
  | begins hsettles =>
    obtain ⟨rfl, rfl⟩ := (begins_begin _ c).operator hs
    exact ⟨hsettles.running, hsettles.position, rfl⟩
  | fails => cases hs

/-- An operator that is open is the last character of the text. -/
theorem scan_operator {text : List Char}
    (h : (initial.scan text).mode = .operator start symbol extended) :
    ∃ before, text = before ++ [symbol] ∧ start = Position.behind before := by
  rcases List.eq_nil_or_concat text with rfl | ⟨before, c, rfl⟩
  · cases h
  · rw [List.concat_eq_append, scan_concat] at h
    obtain ⟨hrunning, rfl, rfl⟩ := (moves_step _ c).operator h
    exact ⟨before, List.concat_eq_append, position_text hrunning⟩

/-! ## Errors at the end of a text -/

/-- What is wrong with the lexeme that is open at the end of a text. -/
theorem Closes.failure? (h : s.Closes s') (hs : s.failure? = none) {d : Diagnostic}
    (hd : s'.failure? = some d) : d.cause.IsUnterminated ∨
      ∃ start symbol extended, s.mode = .operator start symbol extended ∧
        d = ⟨.malformedOperator symbol, start⟩ := by
  cases h with
  | rests => cases hs.symm.trans hd
  | ends => cases hs.symm.trans hd
  | fails hopen =>
    cases hd
    rcases hopen.isUnterminated with hcause | ⟨symbol, extended, hm, rfl⟩
    · exact .inl hcause
    · exact .inr ⟨_, symbol, extended, hm, rfl⟩

/-- An error that is found at the end of a text does not show in it. -/
theorem not_showsIn_of_end {text : List Char} {d : Diagnostic}
    (hrunning : (initial.scan text).failure? = none)
    (h : (initial.scan text).finish.result = .error d) : ¬d.ShowsIn text := by
  rw [result_finish] at h
  split at h
  · next e he =>
    cases h
    rcases (closes_endLexeme _).failure? hrunning he with hopen | ⟨start, symbol, extended, hm, rfl⟩
    · rintro (_ | _ | _ | _) <;> exact hopen
    · obtain ⟨before, htext, rfl⟩ := scan_operator hm
      intro hshows
      generalize hp : Position.behind before = p at hshows
      cases hshows with
      | @malformedOperator _ before' rest htext' hrest =>
        rw [htext] at htext'
        obtain rfl := Position.behind_inj [] htext' hp
        obtain ⟨-, rfl⟩ := List.cons.inj (List.append_cancel_left htext')
        exact hrest rfl
  · next he =>
    rw [result_endBlocks he] at h
    split at h
    · cases h
    · next outermost hparens =>
      cases h
      rw [(keeps_endLexeme _).parens] at hparens
      obtain ⟨before, rest, htext, rfl, -⟩ := exists_opening _ _ hparens
      intro hshows
      generalize hp : Position.behind before = p at hshows
      cases hshows with
      | @unbalancedParentheses before' rest' htext' =>
        rw [htext] at htext'
        obtain rfl := Position.behind_inj [] htext' hp
        cases List.append_cancel_left htext'

end Scanner

/-- An error that shows in the text is there in every longer text. -/
theorem tokenize_append_error {source : String} {d : Diagnostic} (h : tokenize source = .error d)
    (hd : d.ShowsIn source.toList) (more : String) : tokenize (source ++ more) = .error d := by
  rcases hs : (Scanner.initial.scan source.toList).failure? with _ | e
  · exact absurd hd (Scanner.not_showsIn_of_end hs h)
  · have houtcome := Scanner.outcome_failed hs
    have hsource : tokenize source = .error e := houtcome []
    obtain rfl : d = e := Except.error.inj (h.symm.trans hsource)
    rw [← houtcome more.toList, ← Scanner.outcome_append, ← String.toList_append]
    rfl

/-- An exclamation mark with a space behind it stays what is blamed, whatever is put behind. -/
theorem tokenize_append_error_mark :
    tokenize "x ! y" = .error ⟨.malformedOperator '!', ⟨1, 3⟩⟩ ∧
      Diagnostic.ShowsIn "x ! y".toList ⟨.malformedOperator '!', ⟨1, 3⟩⟩ ∧
      tokenize ("x ! y" ++ ") = \"") = .error ⟨.malformedOperator '!', ⟨1, 3⟩⟩ := by
  have h : tokenize "x ! y" = .error ⟨.malformedOperator '!', ⟨1, 3⟩⟩ := by rfl
  have htext : "x ! y".toList = ['x', ' '] ++ '!' :: [' ', 'y'] := rfl
  have hshows : Diagnostic.ShowsIn "x ! y".toList ⟨.malformedOperator '!', ⟨1, 3⟩⟩ :=
    .malformedOperator htext (by simp)
  exact ⟨h, hshows, tokenize_append_error h hshows ") = \""⟩

end Offside
