import Offside.Proofs.Insertion

/-!
# Lines of white space

A line of white space has no lexemes, and yet it can have a level. Its margin ends at the first
character that is no space, tab or carriage return, and unless that is the line feed the layout
is taken to the level of that margin, and back again by the line that follows. So such a line is
only as good as a blank one if it has the level of the lines before it, which is what
`tokenize_insert_whiteSpace` says; a line that holds one no-break space ends all blocks.

The tokens of two lines are put together as in `Scans.join`, and a text that starts further down
has the same tokens there (`Scans.down`).
-/

namespace Offside

/-! ## Texts further down -/

/-- The same column so many lines further down. -/
def Position.down (lines : Nat) (p : Position) : Position :=
  ⟨p.line + lines, p.column⟩

/-- The same token so many lines further down. -/
def Token.down (lines : Nat) (t : Token) : Token :=
  { t with position := t.position.down lines }

theorem Position.advance_down (lines : Nat) (p : Position) (c : Char) :
    (p.down lines).advance c = (p.advance c).down lines := by
  by_cases hc : c = '\n'
  · simp only [advance, hc, if_true, down, Nat.add_right_comm]
  · simp only [advance, hc, if_false, down]

theorem Position.advanceAll_down (lines : Nat) : ∀ (text : List Char) (p : Position),
    (p.down lines).advanceAll text = (p.advanceAll text).down lines
  | [], _ => rfl
  | c :: text, p => by
    have hrest := advanceAll_down lines text (p.advance c)
    rw [← advance_down] at hrest
    exact hrest

/-- What stands further down stays so far down. -/
theorem Position.behind_append_down {before before' : List Char} {lines : Nat}
    (h : behind before' = (behind before).down lines) (text : List Char) :
    behind (before' ++ text) = (behind (before ++ text)).down lines := by
  rw [← advanceAll_behind, ← advanceAll_behind, h, advanceAll_down]

theorem map_down_zero (ts : List Token) : ts.map (Token.down 0) = ts :=
  List.map_id ts

theorem layout_down (level level' line lines : Nat) :
    (layout level level' line).map (Token.down lines) = layout level level' (line + lines) := by
  simp [layout, Token.down, Token.plain, Position.down]

/-- A text that starts further down has its tokens further down. -/
theorem Scans.down {before text : List Char} {level level' : Nat} {ts : List Token}
    (h : Scans before level text ts level') : ∀ {before' : List Char} {lines : Nat},
    Position.behind before' = (Position.behind before).down lines →
    Scans before' level text (ts.map (Token.down lines)) level' := by
  induction h with
  | done hgap => exact fun _ => .done hgap
  | @line _ _ gap _ _ _ hgap _ ih =>
    intro before' lines hbehind
    have hmoved := Position.behind_append_down hbehind
    have hrest := ih (hmoved (gap ++ ['\n']))
    have hline := Scans.line hgap hrest
    rw [hmoved gap, hmoved (gap ++ ['\n'])] at hline
    rw [List.map_cons, List.map_append, layout_down]
    exact hline
  | @lexeme _ _ gap text _ _ _ _ hgap hlex _ ih =>
    intro before' lines hbehind
    have hmoved := Position.behind_append_down hbehind
    have hlexeme := Scans.lexeme hgap hlex (ih (hmoved (gap ++ text)))
    rw [hmoved gap] at hlexeme
    exact hlexeme

/-! ## Texts in two parts -/

/-- Two texts that are scanned apart, the second from the level that the first ends at, are
scanned with a line feed between them. -/
theorem tokenize_of_parts {u v : String} {front rest : List Token} {m level' : Nat}
    (hu : Scans [] 0 u.toList front m)
    (hv : Scans (u.toList ++ ['\n']) (levelAt m (headLine v.toList)) v.toList rest level')
    (hbalance : Balances .leftParen .rightParen 0 (front ++ rest) 0) :
    tokenize (u ++ "\n" ++ v) =
      .ok (front ++ Token.plain .newline (Position.behind u.toList) ::
        (layout m (levelAt m (headLine v.toList)) (Position.behind (u.toList ++ ['\n'])).line ++
          (rest ++ layout level' 0 (Position.behind (u.toList ++ '\n' :: v.toList)).line))) := by
  obtain ⟨d, hfront, hrest⟩ := hbalance.of_append
  have hscans := hu.join v.toList rest level' (by simpa using hv)
  refine tokenize_eq_ok_iff.mpr ⟨_, level', by simpa using hscans, ?_, by simp⟩
  exact (balanced_iff (by decide)).mpr
    (hfront.append (by decide) (balances_newline.mpr hrest))

/-- Where a line feed is read as the end of a line, the tokens are those of the two parts. -/
theorem BreaksLine.parts {u v : String} {tokens : List Token} (h : BreaksLine u v)
    (htokens : tokenize (u ++ "\n" ++ v) = .ok tokens) : ∃ front m rest level',
      Scans [] 0 u.toList front m ∧
      Scans (u.toList ++ ['\n']) (levelAt m (headLine v.toList)) v.toList rest level' ∧
      Balances .leftParen .rightParen 0 (front ++ rest) 0 ∧
      tokens = front ++ Token.plain .newline (Position.behind u.toList) ::
        (layout m (levelAt m (headLine v.toList)) (Position.behind (u.toList ++ ['\n'])).line ++
          (rest ++ layout level' 0 (Position.behind (u.toList ++ '\n' :: v.toList)).line)) := by
  obtain ⟨front, m, rest, level', line, line', hu, hv, hbalance, -⟩ := h.scans htokens
  obtain ⟨d, hfront, hbehind⟩ := hbalance.of_append
  have hrest := hfront.append (by decide) (balances_newline.mp hbehind)
  have hparts := tokenize_of_parts hu hv hrest
  rw [htokens] at hparts
  exact ⟨front, m, rest, level', hu, hv, hrest, Except.ok.inj hparts⟩

theorem filter_lineEnd (p : Position) (ts : List Token) :
    (Token.plain .newline p :: ts).filter (fun t => !t.isLayout) =
      Token.plain .newline p :: ts.filter (fun t => !t.isLayout) :=
  List.filter_cons_of_pos rfl

/-- Parentheses do not see the layout. -/
theorem balances_congr_filter {ts ts' : List Token}
    (h : ts.filter (fun t => !t.isLayout) = ts'.filter (fun t => !t.isLayout))
    (hbalance : Balances .leftParen .rightParen 0 ts 0) :
    Balances .leftParen .rightParen 0 ts' 0 := by
  rw [← balanced_iff (by decide), ← balanced_filter] at hbalance ⊢
  rwa [← h]

/-! ## White space -/

theorem whiteSpace_of_all {b : List Char}
    (h : b.all (fun c => Unicode.isWhiteSpace c && c != '\n') = true) :
    ∀ c ∈ b, Unicode.isWhiteSpace c = true ∧ c ≠ '\n' := by
  simpa using h

theorem layout_eq_nil_iff {level level' line : Nat} :
    layout level level' line = [] ↔ level' = level := by
  rw [layout, List.append_eq_nil_iff, List.replicate_eq_nil_iff, List.replicate_eq_nil_iff]
  omega

/-- Behind the layout of a line comes none if and only if the next token is not layout. -/
theorem layout_append_inj {level level' line : Nat} {n n' : Token} {ts ts' : List Token}
    (hn' : n'.isLayout = false)
    (h : layout level level' line ++ n :: ts = n' :: ts') : level' = level := by
  rcases hlayout : layout level level' line with _ | ⟨t, run⟩
  · exact layout_eq_nil_iff.mp hlayout
  · rw [hlayout] at h
    obtain ⟨rfl, -⟩ := List.cons.inj h
    have ht : t ∈ layout level level' line := hlayout ▸ List.mem_cons_self
    rw [isLayout_of_mem_layout ht] at hn'
    cases hn'

/-- The level of a line is kept by a line that is blank or has that level. -/
theorem levelAt_eq_iff {level : Nat} {line : List Char} :
    levelAt level line = level ↔ isBlank line = true ∨ level = marginLevel line := by
  rw [levelAt]
  split
  · next h => simp [h]
  · next h => simp [h, eq_comm]

/-- Behind a line of white space a text has the same tokens one line further down, but for the
layout, and for that too if the line keeps the level. -/
theorem Scans.behind_whiteSpace {u v b : List Char} {m level' : Nat} {rest : List Token}
    (hv : Scans (u ++ ['\n']) (levelAt m (headLine v)) v rest level')
    (hb : ∀ c ∈ b, Unicode.isWhiteSpace c = true ∧ c ≠ '\n') : ∃ rest' level'',
      Scans (u ++ ['\n']) (levelAt m b) (b ++ '\n' :: v)
        (Token.plain .newline (Position.behind (u ++ '\n' :: b)) ::
          (layout (levelAt m b) (levelAt (levelAt m b) (headLine v))
            ((Position.behind (u ++ ['\n'])).line + 1) ++ rest')) level'' ∧
      rest'.filter (fun t => !t.isLayout) =
        (rest.map (Token.down 1)).filter (fun t => !t.isLayout) ∧
      (levelAt m b = m → rest' = rest.map (Token.down 1) ∧ level'' = level') := by
  have hline : '\n' ∉ b := fun hmem => (hb _ hmem).2 rfl
  have hdown : Position.behind (u ++ ['\n'] ++ (b ++ ['\n'])) =
      (Position.behind (u ++ ['\n'])).down 1 := by
    rw [← List.append_assoc, Offside.behind_newline, Position.behind_of_line _ hline,
      Offside.behind_newline]
    rfl
  obtain ⟨rest', level'', hrest, hfilter, hsame⟩ : ∃ rest' level'',
      Scans (u ++ ['\n'] ++ (b ++ ['\n'])) (levelAt (levelAt m b) (headLine v)) v rest' level'' ∧
      rest'.filter (fun t => !t.isLayout) =
        (rest.map (Token.down 1)).filter (fun t => !t.isLayout) ∧
      (levelAt m b = m → rest' = rest.map (Token.down 1) ∧ level'' = level') := by
    by_cases hm : levelAt m b = m
    · exact ⟨_, level', by rw [hm]; exact hv.down hdown, rfl, fun _ => ⟨rfl, rfl⟩⟩
    · obtain ⟨rest', level'', hrest, hfilter⟩ :=
        (hv.down hdown).tiling.scans (levelAt (levelAt m b) (headLine v))
      exact ⟨rest', level'', hrest, hfilter, fun h => absurd h hm⟩
  have hscans := Scans.line (.of_whiteSpace hb) hrest
  rw [hdown] at hscans
  exact ⟨rest', level'', by simpa [Position.down] using hscans, hfilter, hsame⟩

/-- The end of the line that the text ends in. -/
def newlineBehind (text : String) : Token :=
  Token.plain .newline (Position.behind text.toList)

/-- A line of white space that is put in where a line ends adds its own end, and apart from
layout it changes nothing else. It adds no layout either, and moves none, if and only if it is
blank or its margin has the level that the layout is at. -/
theorem tokenize_insert_whiteSpace {u v b : String} {tokens : List Token}
    (h : tokenize (u ++ "\n" ++ v) = .ok tokens) (hline : BreaksLine u v)
    (hb : ∀ c ∈ b.toList, Unicode.isWhiteSpace c = true ∧ c ≠ '\n') :
    ∃ front behind tokens', tokens = front ++ newlineBehind u :: behind ∧
      tokenize (u ++ "\n" ++ b ++ "\n" ++ v) = .ok tokens' ∧
      tokens'.filter (fun t => !t.isLayout) =
        (front ++ newlineBehind u :: newlineBehind (u ++ "\n" ++ b) ::
          behind.map (Token.down 1)).filter (fun t => !t.isLayout) ∧
      (tokens' = front ++ newlineBehind u :: newlineBehind (u ++ "\n" ++ b) ::
          behind.map (Token.down 1) ↔
        isBlank b.toList = true ∨
          countKind .indent front = countKind .dedent front + marginLevel b.toList) := by
  obtain ⟨front, m, rest, level', hu, hv, hbalance, rfl⟩ := hline.parts h
  obtain ⟨rest', level'', hrest, hfilter, hsame⟩ := hv.behind_whiteSpace hb
  have hbline : '\n' ∉ b.toList := fun hmem => (hb _ hmem).2 rfl
  have hhead : headLine (b.toList ++ '\n' :: v.toList) = b.toList := by
    rw [headLine_of_line hbline, headLine_newline, List.append_nil]
  have hkinds : (front ++ rest.map (Token.down 1)).map Token.kind =
      (front ++ rest).map Token.kind := by
    simp [Token.down, Function.comp_def]
  have hbalance' : Balances .leftParen .rightParen 0 (front ++ rest') 0 := by
    refine balances_congr_filter ?_ ((balances_congr hkinds).mpr hbalance)
    rw [List.filter_append, List.filter_append, hfilter]
  obtain ⟨d, hfront, hbehind⟩ := hbalance'.of_append
  have htokens := tokenize_of_parts (v := b ++ "\n" ++ v) hu (by simpa [hhead] using hrest)
    (hfront.append (by decide) (balances_newline.mpr hbehind))
  have hlast : (Position.behind (u.toList ++ '\n' :: (b.toList ++ '\n' :: v.toList))).line =
      (Position.behind (u.toList ++ '\n' :: v.toList)).line + 1 := by
    simp [Position.behind, List.count_eq_zero_of_not_mem hbline]
    omega
  refine ⟨front, _, _, rfl, by simpa [hhead, String.append_assoc] using htokens, ?_, ?_⟩
  · simp [newlineBehind, filter_lineEnd, filter_layout, hfilter, layout_down]
  rw [countKind_of_balances hu.balances, Nat.add_left_cancel_iff, ← levelAt_eq_iff]
  constructor
  · intro heq
    exact layout_append_inj rfl (by simpa [newlineBehind] using heq)
  · intro hm
    obtain ⟨rfl, rfl⟩ := hsame hm
    simp [newlineBehind, layout_down, layout_self, hm, hlast]

/-- A text that ends in a statement. -/
def statementSource : String :=
  "class Point\n\tmove()\n\t\tx = 1"

/-- A statement at the level of the one in front. -/
def nextSource : String :=
  "\t\ty = 2\n"

/-- Behind two tabs a no-break space leaves the layout alone. -/
theorem tokenize_insert_noBreakSpace :
    ∃ tokens, tokenize (statementSource ++ "\n" ++ nextSource) = .ok tokens ∧
      BreaksLine statementSource nextSource ∧
      (∀ c ∈ ['\t', '\t', '\u00a0'], Unicode.isWhiteSpace c = true ∧ c ≠ '\n') ∧
      ∃ front behind tokens', tokens = front ++ newlineBehind statementSource :: behind ∧
        tokenize (statementSource ++ "\n" ++ "\t\t\u00a0" ++ "\n" ++ nextSource) = .ok tokens' ∧
        (tokens' = front ++ newlineBehind statementSource ::
            newlineBehind (statementSource ++ "\n" ++ "\t\t\u00a0") ::
              behind.map (Token.down 1) ↔
          isBlank "\t\t\u00a0".toList = true ∨
            countKind .indent front =
              countKind .dedent front + marginLevel "\t\t\u00a0".toList) := by
  have hline : BreaksLine statementSource nextSource := ⟨_, rfl, by decide⟩
  have hb : ∀ c ∈ ['\t', '\t', '\u00a0'], Unicode.isWhiteSpace c = true ∧ c ≠ '\n' :=
    whiteSpace_of_all rfl
  obtain ⟨front, behind, tokens', hsplit, htokens, -, hiff⟩ :=
    tokenize_insert_whiteSpace (b := "\t\t\u00a0") rfl hline hb
  exact ⟨_, rfl, hline, hb, front, behind, tokens', hsplit, htokens, hiff⟩

/-- A line of white space can take the layout to another level and back: at the start of a line
a no-break space closes the blocks that are open, and the line that follows opens others. -/
theorem not_whiteSpace_keeps_layout :
    ¬∀ (u v b : String) (tokens : List Token), tokenize (u ++ "\n" ++ v) = .ok tokens →
      BreaksLine u v → (∀ c ∈ b.toList, Unicode.isWhiteSpace c = true ∧ c ≠ '\n') →
      ∃ front behind p, tokens = front ++ newlineBehind u :: behind ∧
        tokenize (u ++ "\n" ++ b ++ "\n" ++ v) = .ok (front ++ newlineBehind u ::
          Token.plain .newline p :: behind.map (Token.down 1)) := by
  intro h
  obtain ⟨front, behind, p, hsplit, htokens⟩ :=
    h statementSource nextSource "\u00a0" _ rfl ⟨_, rfl, by decide⟩ (whiteSpace_of_all rfl)
  -- One line end more would be one token more, but four of layout come with it.
  have hbefore : (tokenize (statementSource ++ "\n" ++ nextSource)).map List.length = .ok 19 := by
    rfl
  have hafter : (tokenize (statementSource ++ "\n" ++ "\u00a0" ++ "\n" ++ nextSource)).map
      List.length = .ok 24 := by
    rfl
  have hlength : 19 = _ := (Except.ok.inj hbefore).symm.trans (congrArg List.length hsplit)
  rw [htokens] at hafter
  have hlength' := Except.ok.inj hafter
  simp only [List.length_append, List.length_cons, List.length_map] at hlength hlength'
  omega

end Offside
