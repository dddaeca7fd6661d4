import Mathlib.Data.List.DropRight
import Offside.Proofs.BlankLines

/-!
# Ends of lines

What stands in front of the end of a line and is no lexeme does not change the tokens: carriage
returns in front of all line feeds (`tokenize_withReturns`), and white space and a comment in
front of one of them (`tokenize_trail`). Only the end of the line itself moves to the right.

White space and comments end every lexeme that is open, so the lexemes are the same
(`Written.change`). A line that has more than a margin keeps its level, whatever is put behind it
(`levelAt_trail`). Behind a comment nothing but white space may follow on the line, so there must
be none yet; for a text that is scanned this is decided by the last of its gaps (`Scans.trail`).
-/

namespace Offside

/-! ## Carriage returns -/

/-- The text with a carriage return in front of every line feed. -/
def withReturns : List Char → List Char
  | [] => []
  | c :: text => if c = '\n' then '\r' :: '\n' :: withReturns text else c :: withReturns text

/-- The token in a text with carriage returns: the end of a line stands one column further. -/
def Token.withReturn (t : Token) : Token :=
  if t.kind = .newline then { t with position := ⟨t.position.line, t.position.column + 1⟩ } else t

theorem withReturns_newline (text : List Char) :
    withReturns ('\n' :: text) = '\r' :: '\n' :: withReturns text :=
  rfl

theorem withReturns_cons {c : Char} (hc : c ≠ '\n') (text : List Char) :
    withReturns (c :: text) = c :: withReturns text :=
  if_neg hc

theorem withReturns_append : ∀ u v : List Char,
    withReturns (u ++ v) = withReturns u ++ withReturns v
  | [], _ => rfl
  | c :: u, v => by
    by_cases hc : c = '\n'
    · subst hc
      rw [List.cons_append, withReturns_newline, withReturns_newline, withReturns_append u v]
      rfl
    · rw [List.cons_append, withReturns_cons hc, withReturns_cons hc, withReturns_append u v]
      rfl

theorem withReturns_of_line : ∀ {line : List Char}, '\n' ∉ line → withReturns line = line
  | [], _ => rfl
  | c :: line, h => by
    rw [List.mem_cons, not_or] at h
    rw [withReturns_cons (Ne.symm h.1), withReturns_of_line h.2]

theorem mem_withReturns {c : Char} : ∀ {text : List Char}, c ∈ withReturns text →
    c ∈ text ∨ c = '\r'
  | d :: text, h => by
    by_cases hd : d = '\n'
    · subst hd
      rw [withReturns_newline, List.mem_cons, List.mem_cons] at h
      rcases h with h | h | h
      · exact .inr h
      · exact .inl (h ▸ List.mem_cons_self)
      · exact (mem_withReturns h).imp_left (List.mem_cons_of_mem _)
    · rw [withReturns_cons hd, List.mem_cons] at h
      rcases h with h | h
      · exact .inl (h ▸ List.mem_cons_self)
      · exact (mem_withReturns h).imp_left (List.mem_cons_of_mem _)

/-- Behind a line feed it makes no difference what stood in front. -/
theorem advanceAll_withReturns : ∀ (text : List Char) (p : Position),
    p.advanceAll (withReturns text) = p.advanceAll text
  | [], _ => rfl
  | c :: text, p => by
    by_cases hc : c = '\n'
    · subst hc
      exact advanceAll_withReturns text _
    · rw [withReturns_cons hc]
      exact advanceAll_withReturns text _

theorem behind_withReturns (text : List Char) :
    Position.behind (withReturns text) = Position.behind text := by
  have hstart := Position.advanceAll_behind []
  rw [← List.nil_append (withReturns text), ← List.nil_append text, ← hstart, ← hstart,
    List.nil_append, advanceAll_withReturns]

theorem headLine_withReturns : ∀ text : List Char,
    headLine (withReturns text) = headLine text ∨
      headLine (withReturns text) = headLine text ++ ['\r']
  | [] => .inl rfl
  | c :: text => by
    by_cases hc : c = '\n'
    · subst hc
      exact .inr rfl
    · rw [withReturns_cons hc, headLine_cons hc, headLine_cons hc]
      exact (headLine_withReturns text).imp (congrArg (c :: ·)) (congrArg (c :: ·))

/-- What stands behind more than a margin does not change the level of a line. -/
theorem levelAt_append {line : List Char} (h : isBlank line = false) (level : Nat)
    (more : List Char) : levelAt level (line ++ more) = levelAt level line := by
  obtain ⟨w, c, rest, rfl, hw, hc⟩ := exists_of_not_blank h
  rw [List.append_assoc, List.cons_append]
  exact levelAt_indentation hw hc hc level _ _

theorem levelAt_return (level : Nat) (line : List Char) :
    levelAt level (line ++ ['\r']) = levelAt level line := by
  cases hblank : isBlank line with
  | true =>
    have hmore : isBlank (line ++ ['\r']) = true := by
      rw [isBlank, List.all_append, ← isBlank, hblank]
      rfl
    rw [levelAt, levelAt, hblank, hmore, if_pos rfl, if_pos rfl]
  | false => exact levelAt_append hblank level _

theorem levelAt_withReturns (level : Nat) (text : List Char) :
    levelAt level (headLine (withReturns text)) = levelAt level (headLine text) := by
  rcases headLine_withReturns text with heq | heq <;> rw [heq]
  exact levelAt_return level _

theorem EndsLine.withReturns {text : List Char} (h : EndsLine text) :
    EndsLine (withReturns text) := by
  intro c hc
  rcases headLine_withReturns text with heq | heq <;> rw [heq] at hc
  · exact h c hc
  · rcases List.mem_append.mp hc with hc | hc
    · exact h c hc
    · rw [List.mem_singleton.mp hc]
      rfl

theorem Gap.withReturns {gap rest : List Char} (h : Gap gap rest) :
    Gap (withReturns gap) (withReturns rest) := by
  induction h with
  | none => exact .none
  | space hc hline _ ih =>
    rw [withReturns_cons hline]
    exact .space hc hline ih
  | @comment body gap rest hbody hends _ ih =>
    rw [withReturns_cons (by decide), withReturns_append, withReturns_cons (by decide)]
    refine .comment (fun hmem => ?_) ?_ ih
    · rcases mem_withReturns hmem with hmem | hmem
      · exact hbody hmem
      · cases hmem
    · rw [← withReturns_append]
      exact hends.withReturns

/-- The carriage return at the end of a line belongs to the gap in front of it. -/
theorem Gap.return {gap rest : List Char} (h : Gap gap ('\n' :: rest)) :
    Gap (Offside.withReturns gap ++ ['\r']) ('\n' :: Offside.withReturns rest) :=
  h.withReturns.append (.space rfl (by decide) .none)

/-- Only a string literal can go over the end of a line. -/
theorem Written.no_newline {text rest : List Char} {l : Lexeme} (h : Written text l rest)
    (hstring : l.kind = .quotedString → '\n' ∉ (l.value.getD "").toList) : '\n' ∉ text := by
  intro hmem
  cases h with
  | word hword =>
    simp only [isWord, Bool.and_eq_true] at hword
    exact absurd (List.all_eq_true.mp hword.2 _ hmem) (by decide)
  | number hnumber =>
    simp only [isNumeral, Bool.and_eq_true] at hnumber
    exact absurd (List.all_eq_true.mp hnumber.1.1 _ hmem) (by decide)
  | string =>
    have hvalue := hstring rfl
    simp at hmem
    exact hvalue hmem
  | character hc => simp [hc.symm] at hmem
  | symbol hk =>
    have hall : ∀ e ∈ symbols, '\n' ∉ e.1.toList := by decide
    exact hall _ (mem_symbols hk) hmem

theorem Token.withReturn_of_ne {t : Token} (h : t.kind ≠ .newline) : t.withReturn = t :=
  if_neg h

theorem layout_withReturn (level level' line : Nat) :
    (layout level level' line).map Token.withReturn = layout level level' line := by
  simp [layout, Token.withReturn, Token.plain]

/-- With carriage returns a text has the same tokens, but for the places where its lines end. -/
theorem Scans.withReturns {before text : List Char} {level level' : Nat} {ts : List Token}
    (h : Scans before level text ts level')
    (hstring : ∀ t ∈ ts, t.kind = .quotedString → '\n' ∉ t.text.toList) :
    Scans (Offside.withReturns before) level (Offside.withReturns text)
      (ts.map Token.withReturn) level' := by
  induction h with
  | done hgap => exact .done hgap.withReturns
  | @line before level gap rest ts level' hgap _ ih =>
    have hrest := ih fun t ht => hstring t (by simp [ht])
    have hbefore : Offside.withReturns (before ++ (gap ++ ['\n'])) =
        Offside.withReturns before ++ (Offside.withReturns gap ++ ['\r'] ++ ['\n']) := by
      simp [withReturns_append, Offside.withReturns]
    -- The carriage return is the last character of the gap, so the line feed moves by one.
    have hnewline : Position.behind
        (Offside.withReturns before ++ (Offside.withReturns gap ++ ['\r'])) =
          ⟨(Position.behind (before ++ gap)).line,
            (Position.behind (before ++ gap)).column + 1⟩ := by
      rw [← List.append_assoc, ← withReturns_append, Position.behind_of_line _ (by decide),
        behind_withReturns]
      rfl
    rw [hbefore, ← levelAt_withReturns] at hrest
    have hline := Scans.line hgap.return hrest
    rw [hnewline, ← hbefore, behind_withReturns, levelAt_withReturns] at hline
    simpa [withReturns_append, withReturns_newline, layout_withReturn, Token.withReturn,
      Token.plain] using hline
  | @lexeme before level gap text l rest ts level' hgap hlex _ ih =>
    have hrest := ih fun t ht => hstring t (by simp [ht])
    have htext : Offside.withReturns text = text :=
      withReturns_of_line (hlex.no_newline (hstring _ List.mem_cons_self))
    have hlex' : Written text l (Offside.withReturns rest) := by
      refine hlex.change fun c hc => ?_
      rcases rest with _ | ⟨d, rest⟩
      · cases hc
      · by_cases hd : d = '\n'
        · subst hd
          cases hc
          exact .inr (.inl rfl)
        · rw [withReturns_cons hd] at hc
          exact .inl hc
    have hgap' := hgap.withReturns
    rw [withReturns_append, withReturns_append, htext] at hrest
    rw [withReturns_append, htext] at hgap'
    have hlexeme := Scans.lexeme hgap' hlex' hrest
    rw [← withReturns_append, behind_withReturns] at hlexeme
    rw [withReturns_append, withReturns_append, htext, List.map_cons,
      Token.withReturn_of_ne hlex.kind.1]
    exact hlexeme

theorem lexemesOf_withReturn (ts : List Token) :
    lexemesOf (ts.map Token.withReturn) = lexemesOf ts := by
  rw [lexemesOf, lexemesOf, List.map_map]
  refine List.map_congr_left fun t _ => ?_
  by_cases ht : t.kind = .newline <;> simp [Token.withReturn, Token.lexeme, ht]

/-- Carriage returns in front of the line feeds move the ends of lines, and change neither the
other tokens nor what is read from them. -/
theorem tokenize_withReturns {source : String} {tokens : List Token}
    (h : tokenize source = .ok tokens)
    (hstring : ∀ t ∈ tokens, t.kind = .quotedString → '\n' ∉ t.text.toList) :
    tokenize (String.ofList (withReturns source.toList)) = .ok (tokens.map Token.withReturn) ∧
      ∀ p, parseSource source = .ok p →
        parseSource (String.ofList (withReturns source.toList)) = .ok p := by
  have htokens : tokenize (String.ofList (withReturns source.toList)) =
      .ok (tokens.map Token.withReturn) := by
    obtain ⟨body, level, hscans, hbalance, rfl⟩ := tokenize_eq_ok_iff.mp h
    have hreturns := hscans.withReturns fun t ht => hstring t (List.mem_append_left _ ht)
    have hkinds : (body.map Token.withReturn).map Token.kind = body.map Token.kind := by
      rw [← map_kind_lexemesOf, lexemesOf_withReturn, map_kind_lexemesOf]
    refine tokenize_eq_ok_iff.mpr ⟨_, level, by simpa [withReturns] using hreturns, ?_, ?_⟩
    · rw [balanced_iff (by decide)] at hbalance ⊢
      exact (balances_congr hkinds).mpr hbalance
    · rw [List.map_append, layout_withReturn, String.toList_ofList, behind_withReturns]
  refine ⟨htokens, fun p hp => ?_⟩
  obtain ⟨tokens', htokens', hderives⟩ := parseSource_ok hp
  rw [h] at htokens'
  cases htokens'
  refine parseSource_of_derives htokens ?_
  rwa [lexemesOf_withReturn]

/-- A text with a blank line in a block, a comment, and a string that ends a line. -/
def tailedSource : String :=
  "class Point\n\tmove() \x7b by\none \x7d\n\n  \n\t\tx = \"a\"\n"

theorem tokenize_withReturns_tailed : ∃ tokens, tokenize tailedSource = .ok tokens ∧
    (∀ t ∈ tokens, t.kind = .quotedString → '\n' ∉ t.text.toList) ∧
    tokenize (String.ofList (withReturns tailedSource.toList)) =
      .ok (tokens.map Token.withReturn) ∧
    ∀ p, parseSource tailedSource = .ok p →
      parseSource (String.ofList (withReturns tailedSource.toList)) = .ok p := by
  have hstring : ∀ t ∈ (tokenize tailedSource).toOption.getD [], t.kind = .quotedString →
      '\n' ∉ t.text.toList := by
    decide
  exact ⟨_, rfl, hstring, tokenize_withReturns rfl hstring⟩

/-! ## White space and comments at the end of a line -/

/-- White space, perhaps with one comment in it. -/
inductive IsLineTail : List Char → Prop
  | whiteSpace {w} : (∀ c ∈ w, Unicode.isWhiteSpace c = true ∧ c ≠ '\n') → IsLineTail w
  | comment {w body w'} : (∀ c ∈ w, Unicode.isWhiteSpace c = true ∧ c ≠ '\n') →
      '}' ∉ body → '\n' ∉ body → (∀ c ∈ w', Unicode.isWhiteSpace c = true ∧ c ≠ '\n') →
      IsLineTail (w ++ '{' :: (body ++ '}' :: w'))

/-- The line that a text ends in. -/
def lastLine (text : List Char) : List Char :=
  text.rtakeWhile (· != '\n')

/-- On the line that the text ends in a comment ends: in front of a closing brace the text has a
comment open. -/
def ClosesComment (text : String) : Prop :=
  ∃ seen rest p, text = seen ++ "\x7d" ++ rest ∧ '\n' ∉ rest.toList ∧
    tokenize seen = .error ⟨.unterminatedComment, p⟩

theorem lastLine_behind (seen : List Char) {line : List Char} (h : '\n' ∉ line) :
    lastLine (seen ++ '\n' :: line) = line := by
  have hwhole : line.reverse.takeWhile (· != '\n') = line.reverse := by
    refine List.takeWhile_eq_self_iff.mpr fun c hc => ?_
    have hne : c ≠ '\n' := by
      rintro rfl
      exact h (List.mem_reverse.mp hc)
    simpa using hne
  rw [lastLine, List.rtakeWhile, List.reverse_append, List.reverse_cons, List.append_assoc,
    List.takeWhile_append, if_pos (by rw [hwhole])]
  simp

section

variable {w : List Char} (hw : ∀ c ∈ w, Unicode.isWhiteSpace c = true ∧ c ≠ '\n')

include hw

theorem newline_not_mem_whiteSpace : '\n' ∉ w :=
  fun hmem => (hw _ hmem).2 rfl

theorem EndsLine.of_whiteSpace : EndsLine w :=
  fun c hc => (hw c ((List.takeWhile_prefix _).subset hc)).1

end

theorem IsLineTail.newline_not_mem {x : List Char} (h : IsLineTail x) : '\n' ∉ x := by
  cases h with
  | whiteSpace hw => exact newline_not_mem_whiteSpace hw
  | comment hw _ hline hw' =>
    simp [newline_not_mem_whiteSpace hw, hline, newline_not_mem_whiteSpace hw']

theorem IsLineTail.gap {x : List Char} (h : IsLineTail x) : Gap x [] := by
  cases h with
  | whiteSpace hw => exact .of_whiteSpace hw
  | comment hw hbody _ hw' =>
    refine Gap.append (.of_whiteSpace hw) (.comment hbody ?_ (.of_whiteSpace hw'))
    rw [List.append_nil]
    exact .of_whiteSpace hw'

theorem IsLineTail.head {x : List Char} (h : IsLineTail x) : ∀ c ∈ x.head?, EndsLexeme c := by
  intro c hc
  cases h with
  | whiteSpace hw => exact .inl (hw c (List.mem_of_mem_head? hc)).1
  | @comment w _ _ hw _ _ _ =>
    rcases w with _ | ⟨d, w⟩
    · cases hc
      exact .inr rfl
    · cases hc
      exact .inl (hw _ List.mem_cons_self).1

/-- A gap is white space, or has one comment, and white space behind it. -/
theorem Gap.whiteSpace_or_comment {gap rest : List Char} (h : Gap gap rest) :
    (∀ c ∈ gap, Unicode.isWhiteSpace c = true ∧ c ≠ '\n') ∨
      ∃ w body w', gap = w ++ '{' :: (body ++ '}' :: w') ∧
        (∀ c ∈ w, Unicode.isWhiteSpace c = true ∧ c ≠ '\n') ∧ '}' ∉ body ∧
        (∀ c ∈ w', Unicode.isWhiteSpace c = true ∧ c ≠ '\n') ∧ EndsLine (w' ++ rest) := by
  induction h with
  | none => exact .inl nofun
  | space hc hline _ ih =>
    rcases ih with hw | ⟨w, body, w', rfl, hw, hbehind⟩
    · exact .inl (List.forall_mem_cons.mpr ⟨⟨hc, hline⟩, hw⟩)
    · exact .inr ⟨_ :: w, body, w', rfl, List.forall_mem_cons.mpr ⟨⟨hc, hline⟩, hw⟩, hbehind⟩
  | @comment body gap rest hbody hends _ ih =>
    rcases ih with hw | ⟨w, body', w', rfl, hw, -⟩
    · exact .inr ⟨[], body, gap, rfl, nofun, hbody, hw, hends⟩
    · -- A second comment would stand on the line that the first one has to end.
      have hbrace : '{' ∈ headLine (w ++ ('{' :: (body' ++ '}' :: w') ++ rest)) := by
        rw [headLine_of_line (newline_not_mem_whiteSpace hw), List.cons_append,
          headLine_cons (by decide)]
        simp
      rw [← List.append_assoc] at hbrace
      cases hends _ hbrace

/-- In front of a lexeme a gap has no comment. -/
theorem Gap.whiteSpace_of_written {gap text rest rest' : List Char} {l : Lexeme}
    (h : Gap gap (text ++ rest)) (hlex : Written text l rest') :
    ∀ c ∈ gap, Unicode.isWhiteSpace c = true ∧ c ≠ '\n' := by
  rcases h.whiteSpace_or_comment with hw | ⟨w, body, w', rfl, -, -, hw', hends⟩
  · exact hw
  · obtain ⟨c, cs, rfl, hc⟩ := hlex.head
    have hline : c ≠ '\n' := by
      rintro rfl
      cases hc
    have hmem : c ∈ headLine (w' ++ (c :: cs ++ rest)) := by
      rw [headLine_of_line (newline_not_mem_whiteSpace hw'), List.cons_append, headLine_cons hline]
      simp
    rw [hends c hmem] at hc
    cases hc

/-- At the end of a line it makes no difference to a gap what follows behind it. -/
theorem Gap.relay {gap rest : List Char} (h : Gap gap ('\n' :: rest)) (rest' : List Char) :
    Gap gap ('\n' :: rest') :=
  (Gap.cut [] h).extend rest'

/-- What is put behind a text does not change the level of its first line, unless it is put at
the end of its margin. -/
theorem levelAt_trail {text : List Char} (h : '\n' ∈ text ∨ isBlank text = false) (level : Nat)
    (x : List Char) : levelAt level (headLine (text ++ x)) = levelAt level (headLine text) := by
  by_cases hline : '\n' ∈ text
  · obtain ⟨line, rest, rfl⟩ := List.append_of_mem hline
    rw [List.append_assoc, List.cons_append, headLine_append, headLine_append]
  · have hwhole : headLine text = text := by
      have heq := headLine_of_line hline []
      rwa [List.append_nil, headLine, headLine, List.takeWhile_nil, List.append_nil] at heq
    rw [headLine_of_line hline, hwhole]
    exact levelAt_append (h.resolve_left hline) level _

namespace Scanner

/-- A text that ends in a comment is refused for it, whatever else is open. -/
theorem outcome_open_comment {s : Scanner} (hs : s.mode = .gap) {w body : List Char}
    (hw : ∀ c ∈ w, Unicode.isWhiteSpace c = true ∧ c ≠ '\n') (hbody : '}' ∉ body) :
    ∃ p, s.outcome (w ++ '{' :: body) = .error ⟨.unterminatedComment, p⟩ := by
  have hopen : (s.across w).step '{' =
      (s.across w).enter '{' (.comment (s.across w).position) := by
    simp only [step, across, hs]
    rfl
  have hbehind := scan_comment (s.across w).position body ((s.across w).step '{')
    (by rw [hopen]; rfl) hbody
  rw [outcome_gap (.of_whiteSpace hw) hs, outcome_cons, ← List.append_nil body, outcome_append,
    hbehind, hopen]
  exact ⟨_, outcome_nil_stop rfl⟩

end Scanner

/-- A text can be followed by white space and a comment, or it closes a comment on its last line,
so that none can follow. Its last line must not be blank: it would be a line with a margin, and a
level of its own. -/
theorem Scans.trail {before text : List Char} {level level' : Nat} {ts : List Token}
    (h : Scans before level text ts level')
    (hline : ∀ seen line, text = seen ++ '\n' :: line → '\n' ∉ line → isBlank line = false) :
    (∀ x, IsLineTail x → Scans before level (text ++ x) ts level') ∨
      ∃ seen rest, text = seen ++ '}' :: rest ∧ '\n' ∉ rest ∧
        ∀ {s : Scanner} {d : Nat}, s.mode = .gap →
          Balances .leftParen .rightParen s.parens.length ts d →
          ∃ p, s.outcome seen = .error ⟨.unterminatedComment, p⟩ := by
  induction h with
  | done hgap =>
    rcases hgap.whiteSpace_or_comment with hw | ⟨w, body, w', rfl, hw, hbody, hw', -⟩
    · exact .inl fun x hx => .done (Gap.append (.of_whiteSpace hw) hx.gap)
    · exact .inr ⟨w ++ '{' :: body, w', by simp, newline_not_mem_whiteSpace hw',
        fun hs _ => Scanner.outcome_open_comment hs hw hbody⟩
  | @line before level gap rest ts level' hgap _ ih =>
    rcases ih fun seen line heq => hline (gap ++ '\n' :: seen) line (by simp [heq]) with
      hrest | ⟨seen, rest', rfl, hlast, hopen⟩
    · refine .inl fun x hx => ?_
      -- If `rest` is all of the last line, `x` joins the line whose level is measured here.
      have hlevel : levelAt level (headLine (rest ++ x)) = levelAt level (headLine rest) := by
        refine levelAt_trail ?_ level x
        by_cases hmem : '\n' ∈ rest
        · exact .inl hmem
        · exact .inr (hline gap rest rfl hmem)
      have htrail := hrest x hx
      rw [← hlevel] at htrail
      have hscans := Scans.line (hgap.relay (rest ++ x)) htrail
      rw [hlevel] at hscans
      simpa using hscans
    · refine .inr ⟨gap ++ '\n' :: seen, rest', by simp, hlast, fun {s d} hs hbalance => ?_⟩
      rw [Scanner.outcome_gap (hgap.relay seen) hs, Scanner.outcome_line (s := s.across gap) hs]
      exact hopen rfl (balances_newline.mp hbalance)
  | @lexeme before level gap text l rest ts level' hgap hlex _ ih =>
    have hw := hgap.whiteSpace_of_written hlex
    rcases ih fun seen line heq => hline (gap ++ (text ++ seen)) line (by simp [heq]) with
      hrest | ⟨seen, rest', rfl, hlast, hopen⟩
    · refine .inl fun x hx => ?_
      have hlex' : Written text l (rest ++ x) := by
        refine hlex.change fun c hc => ?_
        rcases rest with _ | ⟨d, rest⟩
        · exact .inr (hx.head c hc)
        · exact .inl hc
      simpa using Scans.lexeme (.of_whiteSpace hw) hlex' (hrest x hx)
    · refine .inr ⟨gap ++ (text ++ seen), rest', by simp, hlast, fun {s d} hs hbalance => ?_⟩
      obtain ⟨hparens, hbalance⟩ := (Scanner.balances_lexeme (s.across gap) text).mp hbalance
      rw [Scanner.outcome_gap (.of_whiteSpace hw) hs,
        Scanner.outcome_written (s := s.across gap) hlex.cut hs hparens]
      exact hopen rfl hbalance

/-- White space and a comment that are put at the end of a line move the end of the line, and
change nothing else, if the line is not blank and no comment ends on it. -/
theorem tokenize_trail {u v x : String} {tokens : List Token}
    (h : tokenize (u ++ "\n" ++ v) = .ok tokens) (hline : BreaksLine u v)
    (hblank : isBlank (lastLine u.toList) = false) (hcomment : ¬ClosesComment u)
    (hx : IsLineTail x.toList) : ∃ front behind,
      tokens = front ++ newlineBehind u :: behind ∧
      tokenize (u ++ x ++ "\n" ++ v) = .ok (front ++ Token.plain .newline
        ⟨(Position.behind u.toList).line, (Position.behind u.toList).column + x.toList.length⟩ ::
          behind) := by
  obtain ⟨front, m, rest, level', hu, hv, hbalance, rfl⟩ := hline.parts h
  obtain ⟨d, hfront, -⟩ := hbalance.of_append
  have hlast : ∀ seen line, u.toList = seen ++ '\n' :: line → '\n' ∉ line →
      isBlank line = false := by
    intro seen line heq hmem
    rwa [heq, lastLine_behind seen hmem] at hblank
  rcases hu.trail hlast with htrail | ⟨seen, more, heq, hmore, hopen⟩
  · have hbehind : Position.behind ((u ++ x).toList ++ ['\n']) =
        (Position.behind (u.toList ++ ['\n'])).down 0 := by
      rw [Offside.behind_newline, Offside.behind_newline, String.toList_append,
        Position.behind_of_line _ hx.newline_not_mem]
      rfl
    have hrest := hv.down hbehind
    rw [map_down_zero] at hrest
    have htokens := tokenize_of_parts (u := u ++ x) (by simpa using htrail _ hx) hrest hbalance
    have hend : Position.behind ((u ++ x).toList ++ '\n' :: v.toList) =
        Position.behind (u.toList ++ '\n' :: v.toList) := by
      have hmoved := Position.behind_append_down hbehind v.toList
      simpa [Position.down] using hmoved
    refine ⟨front, _, rfl, ?_⟩
    rw [htokens, hbehind, hend, String.toList_append, Position.behind_of_line _ hx.newline_not_mem]
    rfl
  · obtain ⟨p, hp⟩ := hopen (s := .initial) rfl hfront
    refine absurd ⟨String.ofList seen, String.ofList more, p, ?_, by simpa using hmore, ?_⟩ hcomment
    · simp [← String.toList_inj, heq]
    · rw [← hp, tokenize, String.toList_ofList]
      rfl

theorem tokenize_trail_comment : ∃ tokens,
    tokenize (statementSource ++ "\n" ++ nextSource) = .ok tokens ∧
      BreaksLine statementSource nextSource ∧
      isBlank (lastLine statementSource.toList) = false ∧ ¬ClosesComment statementSource ∧
      IsLineTail " \x7b one \x7d\u00a0".toList ∧ ∃ front behind,
        tokens = front ++ newlineBehind statementSource :: behind ∧
        tokenize (statementSource ++ " \x7b one \x7d\u00a0" ++ "\n" ++ nextSource) =
          .ok (front ++ Token.plain .newline
            ⟨(Position.behind statementSource.toList).line,
              (Position.behind statementSource.toList).column +
                " \x7b one \x7d\u00a0".toList.length⟩ :: behind) := by
  have hline : BreaksLine statementSource nextSource := ⟨_, rfl, by decide⟩
  have hblank : isBlank (lastLine statementSource.toList) = false := by decide
  have hcomment : ¬ClosesComment statementSource := by
    rintro ⟨seen, rest, -, heq, -, -⟩
    have hmem : '}' ∉ statementSource.toList := by decide
    rw [heq] at hmem
    simp at hmem
  have hx : IsLineTail ([' '] ++ '{' :: ([' ', 'o', 'n', 'e', ' '] ++ '}' :: ['\u00a0'])) :=
    .comment (whiteSpace_of_all rfl) (by decide) (by decide) (whiteSpace_of_all rfl)
  exact ⟨_, rfl, hline, hblank, hcomment, hx, tokenize_trail rfl hline hblank hcomment hx⟩

end Offside
