import Mathlib.Data.List.TakeWhile
import Offside.Proofs.Concatenation
import Offside.Proofs.Places

/-!
# Lines put into a text

Where a line feed is read as the end of a line (`BreaksLine`), the text can be cut in two there:
what stands in front is scanned as it would be if the text ended (`Scans.cut`), and what stands
behind as a text of its own. A line without lexemes can then be put between the two. Its line
end comes before or behind the layout of the line that follows, and in either place it is the
line end of an empty line, which the grammar does not see (`strip_insert`). The main statement
is `parseSource_insert_line`.
-/

namespace Offside

open Grammar

/-! ## Cutting a text at the end of a line -/

theorem Gap.cut {gap v : List Char} (rest : List Char) (h : Gap gap (rest ++ '\n' :: v)) :
    Gap gap rest := by
  generalize hbehind : rest ++ '\n' :: v = behind at h
  induction h with
  | none => exact .none
  | space hc hline _ ih => exact .space hc hline (ih hbehind)
  | comment hbody hends _ ih =>
    subst hbehind
    refine .comment hbody ?_ (ih rfl)
    rwa [EndsLine, ← List.append_assoc, headLine_append] at hends

theorem Written.cut {text rest v : List Char} {l : Lexeme} (h : Written text l (rest ++ v)) :
    Written text l rest := by
  refine h.change fun c hc => .inl ?_
  rcases rest with _ | ⟨d, rest⟩
  · cases hc
  · exact hc

/-- At the end of a line a text falls into two: the part in front is scanned as a text that ends
there, and the line behind starts at the level that its margin says. -/
theorem Scans.cut {before text : List Char} {level level' : Nat} {ts : List Token}
    (h : Scans before level text ts level') : ∀ {front behind : List Token} {n : Token},
    ts = front ++ n :: behind → n.kind = .newline → ∃ u v m line rest,
      text = u ++ '\n' :: v ∧ n = Token.plain .newline (Position.behind (before ++ u)) ∧
      behind = layout m (levelAt m (headLine v)) line ++ rest ∧ Scans before level u front m ∧
      Scans (before ++ (u ++ ['\n'])) (levelAt m (headLine v)) v rest level' := by
  induction h with
  | done =>
    intro front behind n hts
    simp at hts
  | @line before level gap text ts level' hgap hscans ih =>
    intro front behind n hts hn
    rcases line_eq_append hts with ⟨rfl, rfl, rfl⟩ | ⟨run, more, hrun, rfl⟩ | ⟨front', rfl, hrest⟩
    · exact ⟨gap, text, level, _, ts, rfl, rfl, rfl, .done (Gap.cut [] hgap), hscans⟩
    · have hmem : n ∈ layout level (levelAt level (headLine text))
          (Position.behind (before ++ (gap ++ ['\n']))).line := by
        rw [hrun]
        simp
      rcases (mem_layout hmem).1 with hkind | hkind <;> rw [hn] at hkind <;> cases hkind
    · obtain ⟨u, v, m, line, rest, rfl, rfl, rfl, hu, hv⟩ := ih hrest hn
      have hfront := Scans.line (Gap.cut ('\n' :: u) hgap)
        (by rwa [headLine_append] at hu)
      refine ⟨gap ++ '\n' :: u, v, m, line, rest, by simp, by simp, rfl, ?_, by simpa using hv⟩
      rwa [headLine_append]
  | @lexeme before level gap text l text' ts level' hgap hlex _ ih =>
    intro front behind n hts hn
    rcases front with _ | ⟨t, front⟩
    · obtain ⟨rfl, -⟩ := List.cons.inj hts
      exact absurd hn hlex.kind.1
    · obtain ⟨rfl, hrest⟩ := List.cons.inj hts
      obtain ⟨u, v, m, line, rest, rfl, rfl, rfl, hu, hv⟩ := ih hrest hn
      refine ⟨gap ++ (text ++ u), v, m, line, rest, by simp, by simp, rfl, ?_, by simpa using hv⟩
      exact .lexeme (Gap.cut (v := v) _ (by simpa using hgap)) hlex.cut hu

/-- The line feed between the two texts is read as the end of a line. -/
def BreaksLine (u v : String) : Prop :=
  ∃ tokens, tokenize (u ++ "\n" ++ v) = .ok tokens ∧
    Token.plain .newline (Position.behind u.toList) ∈ tokens

/-- Where a line feed is read as the end of a line, the text is scanned in two parts. -/
theorem BreaksLine.scans {u v : String} {tokens : List Token} (h : BreaksLine u v)
    (htokens : tokenize (u ++ "\n" ++ v) = .ok tokens) : ∃ front m rest level' line line',
    Scans [] 0 u.toList front m ∧
      Scans (u.toList ++ ['\n']) (levelAt m (headLine v.toList)) v.toList rest level' ∧
      Balances .leftParen .rightParen 0
        (front ++ Token.plain .newline (Position.behind u.toList) ::
          (layout m (levelAt m (headLine v.toList)) line ++ rest)) 0 ∧
      tokens = front ++ Token.plain .newline (Position.behind u.toList) ::
        (layout m (levelAt m (headLine v.toList)) line ++ rest) ++ layout level' 0 line' := by
  obtain ⟨tokens', htokens', hmem⟩ := h
  rw [htokens] at htokens'
  cases htokens'
  obtain ⟨body, level', hscans, hbalanced, rfl⟩ := tokenize_eq_ok_iff.mp htokens
  have hbody : Token.plain .newline (Position.behind u.toList) ∈ body := by
    rcases List.mem_append.mp hmem with hmem | hmem
    · exact hmem
    · rcases (mem_layout hmem).1 with hkind | hkind <;> cases hkind
  obtain ⟨front, behind, rfl⟩ := List.append_of_mem hbody
  obtain ⟨u', v', m, line, rest, htext, hn, rfl, hu, hv⟩ := hscans.cut rfl rfl
  have htext' : u.toList ++ '\n' :: v.toList = u' ++ '\n' :: v' := by simpa using htext
  obtain rfl : u.toList = u' :=
    Position.behind_inj [] htext' (congrArg Token.position hn)
  obtain rfl : v.toList = v' := (List.cons.inj (List.append_cancel_left htext')).2
  exact ⟨front, m, rest, level', line, _, hu, by simpa using hv,
    (balanced_iff (by decide)).mp hbalanced, rfl⟩

/-! ## A line between two others -/

theorem Balances.of_append {opening closing : Kind} : ∀ {d d' : Nat} {u v : List Token},
    Balances opening closing d (u ++ v) d' →
    ∃ m, Balances opening closing d u m ∧ Balances opening closing m v d'
  | d, _, [], _, h => ⟨d, rfl, h⟩
  | d, d', t :: u, v, h => by
    rw [List.cons_append, Balances] at h
    split at h
    · next ho =>
      obtain ⟨m, hu, hv⟩ := Balances.of_append h
      exact ⟨m, (balances_open ho).mpr hu, hv⟩
    split at h
    · next ho hc =>
      obtain ⟨m, hu, hv⟩ := Balances.of_append h.2
      refine ⟨m, ?_, hv⟩
      rw [Balances, if_neg ho, if_pos hc]
      exact ⟨h.1, hu⟩
    · next ho hc =>
      obtain ⟨m, hu, hv⟩ := Balances.of_append h
      exact ⟨m, (balances_free ho hc).mpr hu, hv⟩

namespace Grammar

theorem strip_append {ls ls' : List Lexeme} (h : strip true ls = strip true ls')
    (v : Option String) (front : List Lexeme) (fresh : Bool) :
    strip fresh (front ++ ⟨.newline, v⟩ :: ls) = strip fresh (front ++ ⟨.newline, v⟩ :: ls') := by
  have hfront : ∀ ls, strip fresh (front ++ ⟨.newline, v⟩ :: ls) =
      strip fresh (front ++ [⟨.newline, v⟩]) ++ strip true ls := fun ls => by
    rw [← strip_front ls (by simp [startsFresh]) (by simp), List.append_assoc,
      List.singleton_append]
  rw [hfront ls, hfront ls', h]

/-- Layout is kept, and behind it nothing has been read of its line. -/
theorem strip_layout (level level' line : Nat) (ls : List Lexeme) :
    strip true (lexemesOf (layout level level' line) ++ ls) =
      lexemesOf (layout level level' line) ++ strip true ls := by
  have hreplicate : ∀ (k : Kind), k = .indent ∨ k = .dedent → ∀ (n : Nat) (ls : List Lexeme),
      strip true (List.replicate n ⟨k, none⟩ ++ ls) = List.replicate n ⟨k, none⟩ ++ strip true ls := by
    intro k hk n ls
    induction n with
    | zero => rfl
    | succ n ih => rcases hk with rfl | rfl <;> simpa [List.replicate_succ, strip, startsFresh] using ih
  rw [lexemesOf_layout, blockEnds, List.append_assoc, hreplicate _ (.inl rfl),
    hreplicate _ (.inr rfl), List.append_assoc]

/-- The end of an empty line may stand before or behind the layout of the line that follows. -/
theorem strip_insert {level middle level' : Nat} (h : middle = level ∨ middle = level')
    (line line₁ line₂ : Nat) (ls : List Lexeme) :
    strip true (lexemesOf (layout level level' line) ++ ls) =
      strip true (lexemesOf (layout level middle line₁) ++
        ⟨.newline, none⟩ :: (lexemesOf (layout middle level' line₂) ++ ls)) := by
  rw [strip_layout, strip_layout, strip_true_newline, strip_layout, lexemesOf_layout,
    lexemesOf_layout, lexemesOf_layout]
  rcases h with rfl | rfl <;> simp [blockEnds]

end Grammar

theorem levelAt_levelAt (level : Nat) (line : List Char) :
    levelAt (levelAt level line) line = levelAt level line := by
  by_cases h : isBlank line = true
  · simp only [levelAt, if_pos h]
  · simp only [levelAt, if_neg h]

/-- A line without lexemes changes nothing if it keeps the level of the line in front, or has
that of the line behind. -/
theorem parseSource_insert_gap {u v g : String} {p : Program}
    (h : parseSource (u ++ "\n" ++ v) = .ok p) (hline : BreaksLine u v)
    (hgap : Gap g.toList ('\n' :: v.toList))
    (hlevel : ∀ m, levelAt m (headLine (g.toList ++ '\n' :: v.toList)) = m ∨
      levelAt m (headLine (g.toList ++ '\n' :: v.toList)) = levelAt m (headLine v.toList)) :
    parseSource (u ++ "\n" ++ g ++ "\n" ++ v) = .ok p := by
  obtain ⟨tokens, htokens, hderives⟩ := parseSource_ok h
  obtain ⟨front, m, rest, level', line, line', hu, hv, hbalance, rfl⟩ := hline.scans htokens
  have hends : levelAt (levelAt m (headLine (g.toList ++ '\n' :: v.toList))) (headLine v.toList) =
      levelAt m (headLine v.toList) := by
    rcases hlevel m with hm | hm <;> rw [hm]
    exact levelAt_levelAt _ _
  have hlexemes := hlevel m
  generalize hmiddle : levelAt m (headLine (g.toList ++ '\n' :: v.toList)) = middle at *
  obtain ⟨rest', hrest', hshift⟩ := hv.shift (u.toList ++ ['\n'] ++ (g.toList ++ ['\n']))
  rw [← hends] at hrest'
  have hscans := hu.join (g.toList ++ '\n' :: v.toList) _ level'
    (by rw [hmiddle]; exact .line hgap hrest')
  rw [hmiddle, hends] at hscans
  obtain ⟨d, hfront, hbehind⟩ := hbalance.of_append
  have hkinds : rest'.map Token.kind = rest.map Token.kind := by
    rw [← map_kind_lexemesOf, ← map_kind_lexemesOf, hshift]
  have hrest := (balances_congr hkinds).mpr (balances_newline.mp hbehind)
  refine parseSource_of_derives (tokenize_eq_ok_iff.mpr ⟨_, level', by simpa using hscans,
    (balanced_iff (by decide)).mpr
      (hfront.append (by decide) (balances_newline.mpr (balances_newline.mpr hrest))), rfl⟩)
    ((derives_congr ?_).mp hderives)
  simp only [lexemesOf_append, lexemesOf_line, lexemesOf_layout level' 0, List.append_assoc,
    List.cons_append, hshift]
  exact strip_append (strip_insert hlexemes _ _ _ _) _ _ _

/-! ## Margins -/

theorem Gap.of_whiteSpace {rest : List Char} : ∀ {gap : List Char},
    (∀ c ∈ gap, Unicode.isWhiteSpace c = true ∧ c ≠ '\n') → Gap gap rest
  | [], _ => .none
  | c :: _, h =>
    have hc := h c List.mem_cons_self
    .space hc.1 hc.2 (.of_whiteSpace fun d hd => h d (List.mem_cons_of_mem c hd))

theorem Gap.of_indentation {gap rest : List Char} (h : ∀ c ∈ gap, isIndentation c = true) :
    Gap gap rest := by
  refine .of_whiteSpace fun c hc => ⟨isWhiteSpace_of_isIndentation (h c hc), ?_⟩
  rintro rfl
  cases h '\n' hc

theorem headLine_indentation (text : List Char) : ∀ {w : List Char},
    (∀ c ∈ w, isIndentation c = true) → headLine (w ++ text) = w ++ headLine text
  | [], _ => rfl
  | c :: w, h => by
    have hline : c ≠ '\n' := by
      rintro rfl
      cases h '\n' List.mem_cons_self
    rw [List.cons_append, headLine_cons hline,
      headLine_indentation text fun d hd => h d (List.mem_cons_of_mem c hd), List.cons_append]

theorem takeWhile_indentation {w : List Char} {c : Char} (h : ∀ c ∈ w, isIndentation c = true)
    (hc : isIndentation c = false) (line : List Char) :
    (w ++ c :: line).takeWhile isIndentation = w := by
  rw [List.takeWhile_append_of_pos h, List.takeWhile_cons, hc, if_neg Bool.false_ne_true,
    List.append_nil]

/-- Only the margin of a line says what its level is. -/
theorem levelAt_indentation {w : List Char} {c d : Char} (h : ∀ c ∈ w, isIndentation c = true)
    (hc : isIndentation c = false) (hd : isIndentation d = false) (level : Nat)
    (line line' : List Char) : levelAt level (w ++ c :: line) = levelAt level (w ++ d :: line') := by
  have hblank : ∀ {c : Char} {line : List Char}, isIndentation c = false →
      isBlank (w ++ c :: line) = false := by
    intro c line hc
    rw [isBlank, List.all_append, List.all_cons, hc, Bool.false_and, Bool.and_false]
  rw [levelAt, levelAt, hblank hc, hblank hd, if_neg Bool.false_ne_true, if_neg Bool.false_ne_true,
    marginLevel, marginLevel, margin, margin, takeWhile_indentation h hc,
    takeWhile_indentation h hd]

/-- A line that is not blank has a character behind its margin. -/
theorem exists_of_not_blank : ∀ {line : List Char}, isBlank line = false →
    ∃ w c rest, line = w ++ c :: rest ∧ (∀ c ∈ w, isIndentation c = true) ∧
      isIndentation c = false
  | [], h => by cases h
  | c :: line, h => by
    by_cases hc : isIndentation c = true
    · rw [isBlank, List.all_cons, hc, Bool.true_and] at h
      obtain ⟨w, d, rest, rfl, hw, hd⟩ := exists_of_not_blank h
      exact ⟨c :: w, d, rest, rfl, List.forall_mem_cons.mpr ⟨hc, hw⟩, hd⟩
    · exact ⟨[], c, line, rfl, by simp, Bool.eq_false_iff.mpr hc⟩

/-- A text whose first line is not blank has a character of that line behind its margin. -/
theorem exists_behind_margin {text : List Char} (h : isBlank (headLine text) = false) :
    ∃ w c rest, text = w ++ c :: rest ∧ (∀ c ∈ w, isIndentation c = true) ∧
      isIndentation c = false ∧ c ≠ '\n' := by
  obtain ⟨w, c, line, heq, hw, hc⟩ := exists_of_not_blank h
  have hline : c ≠ '\n' := by
    have hmem : c ∈ headLine text := by simp [heq]
    simpa using List.mem_takeWhile_imp hmem
  refine ⟨w, c, line ++ text.dropWhile (· != '\n'), ?_, hw, hc, hline⟩
  rw [← List.cons_append, ← List.append_assoc, ← heq]
  exact List.takeWhile_append_dropWhile.symm

/-- A line that is blank, or holds only a comment with the margin of the line behind it, changes
nothing where a line ends. -/
theorem parseSource_insert_line {u v : String} {p : Program}
    (h : parseSource (u ++ "\n" ++ v) = .ok p) (hline : BreaksLine u v) :
    (∀ b : String, (∀ c ∈ b.toList, c = ' ' ∨ c = '\t' ∨ c = '\r') →
      parseSource (u ++ "\n" ++ b ++ "\n" ++ v) = .ok p) ∧
    (isBlank (headLine v.toList) = false → ∀ c : String, '}' ∉ c.toList →
      parseSource (u ++ "\n" ++ String.ofList (v.toList.takeWhile isIndentation) ++ "\x7b" ++ c ++
        "\x7d\n" ++ v) = .ok p) := by
  constructor
  · intro b hb
    have hmargin : ∀ c ∈ b.toList, isIndentation c = true := by
      intro c hc
      rcases hb c hc with rfl | rfl | rfl <;> rfl
    refine parseSource_insert_gap h hline (.of_indentation hmargin) fun m => .inl ?_
    rw [headLine_indentation _ hmargin, headLine_newline, List.append_nil, levelAt, isBlank,
      List.all_eq_true.mpr hmargin, if_pos rfl]
  · intro hblank c hc
    obtain ⟨w, d, rest, hv, hmargin, hd, hdline⟩ := exists_behind_margin hblank
    have hcomment : Gap ('{' :: (c.toList ++ ['}'])) ('\n' :: v.toList) := by
      refine .comment hc ?_ .none
      intro d hd
      cases hd
    have hinsert := parseSource_insert_gap
      (g := String.ofList (w ++ '{' :: (c.toList ++ ['}']))) h hline
      (by simpa using (Gap.of_indentation hmargin).append hcomment) fun m => .inr ?_
    · rw [hv, takeWhile_indentation hmargin hd]
      simpa [String.append_assoc] using hinsert
    · rw [hv, String.toList_ofList, List.append_assoc, List.cons_append,
        headLine_indentation _ hmargin, headLine_indentation _ hmargin, headLine_cons (by decide),
        headLine_cons hdline]
      exact levelAt_indentation hmargin (by decide) hd m _ _

/-- A text that ends in the branch of a condition. -/
def branchSource : String :=
  "class Point\n\tmove()\n\t\tif moved\n\t\t\tx = 1"

/-- A text that goes on with the other branch. -/
def elseSource : String :=
  "\t\telse\n\t\t\tx = 2\n"

theorem parseSource_insert_branch : ∃ p, parseSource (branchSource ++ "\n" ++ elseSource) = .ok p ∧
    parseSource (branchSource ++ "\n" ++ " \t\r" ++ "\n" ++ elseSource) = .ok p ∧
    parseSource (branchSource ++ "\n" ++ "\t\t" ++ "\x7b" ++ "or\nelse" ++ "\x7d\n" ++ elseSource) =
      .ok p := by
  have hline : BreaksLine branchSource elseSource := ⟨_, rfl, by decide⟩
  have hinsert := parseSource_insert_line (p := ⟨_, _⟩) rfl hline
  have hblank : ∀ c ∈ [' ', '\t', '\r'], c = ' ' ∨ c = '\t' ∨ c = '\r' := by simp
  exact ⟨_, rfl, hinsert.1 " \t\r" hblank, hinsert.2 rfl "or\nelse" (by decide)⟩

end Offside
