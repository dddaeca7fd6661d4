import Offside.Proofs.Scanning

/-!
# Layout tokens say where lines start

The layout tokens of a text are read back. What is open of them at any point is the level of
the last line that is not blank (`Scans.balances`), so they never close more than they open.
They stand behind the ends of lines only (`Scans.behind_newline`), and behind the end of a line
they are those that lead to the level of the next (`Scans.line_level`). `LaidOut` puts the two
together, and `tokenize_laidOut` says it of every text that has tokens.
-/

namespace Offside

/-! ## Levels -/

theorem balances_indents (line : Nat) : ∀ n d : Nat, Balances .indent .dedent d
    (List.replicate n (Token.plain .indent ⟨line, 1⟩)) (d + n)
  | 0, _ => rfl
  | n + 1, d => by
    have hrest := balances_indents line n (d + 1)
    rw [Nat.add_assoc, Nat.add_comm 1] at hrest
    exact (balances_open rfl).mpr hrest

theorem balances_dedents (line : Nat) : ∀ n d : Nat, Balances .indent .dedent (d + n)
    (List.replicate n (Token.plain .dedent ⟨line, 1⟩)) d
  | 0, _ => rfl
  | n + 1, d =>
    (balances_close (by simp [Token.plain]) rfl).mpr ⟨Nat.succ_pos _, balances_dedents line n d⟩

theorem balances_layout (level level' line : Nat) :
    Balances .indent .dedent level (layout level level' line) level' := by
  have hindents := balances_indents line (level' - level) level
  have hdedents := balances_dedents line (level - level') level'
  have hmiddle : level + (level' - level) = level' + (level - level') := by omega
  rw [hmiddle] at hindents
  exact hindents.append (by decide) hdedents

theorem balances_line {p : Position} {d d' : Nat} {ts : List Token}
    (h : Balances .indent .dedent d ts d') :
    Balances .indent .dedent d (Token.plain .newline p :: ts) d' :=
  (balances_free (by simp [Token.plain]) (by simp [Token.plain])).mpr h

/-- What is open of the layout is the level. -/
theorem Scans.balances {before text : List Char} {level level' : Nat} {ts : List Token}
    (h : Scans before level text ts level') : Balances .indent .dedent level ts level' := by
  induction h with
  | done => rfl
  | line _ _ ih => exact balances_line ((balances_layout _ _ _).append (by decide) ih)
  | lexeme _ hlex _ ih =>
    exact (balances_free hlex.kind.2.1 hlex.kind.2.2).mpr ih

/-! ## Ends of lines -/

/-- Behind the layout of a line stands something else. -/
theorem Scans.head_isLayout {before text : List Char} {level level' : Nat} {ts : List Token}
    (h : Scans before level text ts level') : ∀ t ∈ ts.head?, t.isLayout = false := by
  cases h with
  | done => exact nofun
  | line =>
    rintro t ⟨⟩
    rfl
  | lexeme _ hlex =>
    rintro t ⟨⟩
    exact isLayout_token hlex _

theorem takeWhile_layout {level level' line : Nat} {ts : List Token}
    (h : ∀ t ∈ ts.head?, t.isLayout = false) :
    (layout level level' line ++ ts).takeWhile Token.isLayout = layout level level' line := by
  rw [List.takeWhile_append_of_pos]
  · rcases ts with _ | ⟨t, ts⟩
    · simp
    · simp [h t rfl]
  · exact fun t ht => isLayout_of_mem_layout ht

/-- Where a token stands in the tokens of a line end and of what follows it. -/
theorem line_eq_append {n t : Token} {run ts u w : List Token}
    (h : n :: (run ++ ts) = u ++ t :: w) : (u = [] ∧ n = t ∧ run ++ ts = w) ∨
      (∃ run' w', run = run' ++ t :: w' ∧ u = n :: run') ∨
      (∃ u', u = n :: (run ++ u') ∧ ts = u' ++ t :: w) := by
  rcases u with _ | ⟨m, u⟩
  · exact .inl ⟨rfl, List.cons.inj h⟩
  obtain ⟨rfl, hrest⟩ := List.cons.inj h
  rcases List.append_eq_append_iff.mp hrest with ⟨u', rfl, hts⟩ | ⟨w', rfl, hts⟩
  · exact .inr (.inr ⟨u', rfl, hts⟩)
  rcases w' with _ | ⟨t', w'⟩
  · exact .inr (.inr ⟨[], by simp, by simpa using hts.symm⟩)
  · obtain ⟨rfl, -⟩ := List.cons.inj hts
    exact .inr (.inl ⟨u, w', rfl, rfl⟩)

theorem behind_newline (before : List Char) :
    Position.behind (before ++ ['\n']) = ⟨(Position.behind before).line + 1, 1⟩ := by
  rw [Position.behind_append_singleton, Position.advance_newline]

/-- Layout stands behind the end of a line, at the start of the next. -/
theorem Scans.behind_newline {before text : List Char} {level level' : Nat} {ts : List Token}
    (h : Scans before level text ts level') : ∀ {u w : List Token} {t : Token},
    ts = u ++ t :: w → t.isLayout = true → ∃ u' n run, u = u' ++ n :: run ∧
      n.kind = .newline ∧
      ∀ r ∈ t :: run, r.isLayout = true ∧ r.position = ⟨n.position.line + 1, 1⟩ := by
  induction h with
  | done =>
    intro u w t hts
    simp at hts
  | @line before level gap rest ts level' _ _ ih =>
    intro u w t hts hlayout
    rcases line_eq_append hts with ⟨rfl, rfl, -⟩ | ⟨run, w', hrun, rfl⟩ | ⟨u', rfl, hrest⟩
    · cases hlayout
    · refine ⟨[], _, run, rfl, rfl, fun r hr => ?_⟩
      have hmem : r ∈ layout level (levelAt level (headLine rest))
          (Position.behind (before ++ (gap ++ ['\n']))).line := by
        rw [hrun, List.mem_append, List.mem_cons]
        rcases List.mem_cons.mp hr with heq | hr
        · exact .inr (.inl heq)
        · exact .inl hr
      refine ⟨isLayout_of_mem_layout hmem, (mem_layout hmem).2.trans ?_⟩
      rw [← List.append_assoc, Offside.behind_newline]
      rfl
    · obtain ⟨u'', n, run, rfl, hn, hrun⟩ := ih hrest hlayout
      exact ⟨_, n, run, by rw [← List.append_assoc, ← List.cons_append], hn, hrun⟩
  | lexeme _ hlex _ ih =>
    intro u w t hts hlayout
    rcases u with _ | ⟨m, u⟩
    · obtain ⟨rfl, -⟩ := List.cons.inj hts
      rw [isLayout_token hlex] at hlayout
      cases hlayout
    · obtain ⟨rfl, hrest⟩ := List.cons.inj hts
      obtain ⟨u', n, run, rfl, hn, hrun⟩ := ih hrest hlayout
      exact ⟨_ :: u', n, run, rfl, hn, hrun⟩

/-- Behind the end of a line stands the layout that leads from the level so far to that of the
next line. -/
theorem Scans.line_level {before text : List Char} {level level' : Nat} {ts : List Token}
    (h : Scans before level text ts level') : ∀ {u w : List Token} {n : Token},
    ts = u ++ n :: w → n.kind = .newline → ∃ seen rest m line v,
      before ++ text = seen ++ '\n' :: rest ∧ n.position.line = 1 + seen.count '\n' ∧
      w = layout m (levelAt m (headLine rest)) line ++ v ∧ (∀ t ∈ v.head?, t.isLayout = false) ∧
      Balances .indent .dedent level (u ++ [n]) m := by
  induction h with
  | done =>
    intro u w n hts
    simp at hts
  | @line before level gap rest ts level' _ hscans ih =>
    intro u w n hts hn
    rcases line_eq_append hts with ⟨rfl, rfl, rfl⟩ | ⟨run, w', hrun, rfl⟩ | ⟨u', rfl, hrest⟩
    · exact ⟨before ++ gap, rest, level, _, ts, by simp, rfl, rfl, hscans.head_isLayout,
        balances_line rfl⟩
    · have hmem : n ∈ layout level (levelAt level (headLine rest))
          (Position.behind (before ++ (gap ++ ['\n']))).line := by
        rw [hrun]
        simp
      rcases (mem_layout hmem).1 with hkind | hkind <;> rw [hn] at hkind <;> cases hkind
    · obtain ⟨seen, rest', m, line, v, htext, hline, hw, hv, hbalance⟩ := ih hrest hn
      refine ⟨seen, rest', m, line, v, by simpa using htext, hline, hw, hv, ?_⟩
      rw [List.cons_append, List.append_assoc]
      exact balances_line ((balances_layout _ _ _).append (by decide) hbalance)
  | lexeme _ hlex _ ih =>
    intro u w n hts hn
    rcases u with _ | ⟨m, u⟩
    · obtain ⟨rfl, -⟩ := List.cons.inj hts
      exact absurd hn hlex.kind.1
    · obtain ⟨rfl, hrest⟩ := List.cons.inj hts
      obtain ⟨seen, rest', m, line, v, htext, hline, hw, hv, hbalance⟩ := ih hrest hn
      exact ⟨seen, rest', m, line, v, by simpa using htext, hline, hw, hv,
        (balances_free hlex.kind.2.1 hlex.kind.2.2).mpr hbalance⟩

theorem linesOf_newline (text : List Char) : linesOf ('\n' :: text) = [] :: linesOf text := by
  rw [linesOf, List.splitOn, List.splitOnP_cons_eq_if_modifyHead]
  rfl

theorem linesOf_cons {c : Char} (hc : c ≠ '\n') (text : List Char) :
    linesOf (c :: text) = (linesOf text).modifyHead (c :: ·) := by
  rw [linesOf, List.splitOn, List.splitOnP_cons_eq_if_modifyHead, if_neg (by simpa using hc)]
  rfl

theorem linesOf_head : ∀ text : List Char, (linesOf text)[0]? = some (headLine text)
  | [] => rfl
  | c :: text => by
    by_cases hc : c = '\n'
    · subst hc
      rw [linesOf_newline, headLine_newline]
      rfl
    · rw [linesOf_cons hc, headLine_cons hc, List.getElem?_modifyHead_zero, linesOf_head]
      rfl

/-- The line behind a line feed is the one that its number says. -/
theorem linesOf_behind : ∀ seen rest : List Char,
    (linesOf (seen ++ '\n' :: rest))[1 + seen.count '\n']? = some (headLine rest)
  | [], rest => by
    rw [List.nil_append, linesOf_newline]
    exact linesOf_head rest
  | c :: seen, rest => by
    have hrest := linesOf_behind seen rest
    rw [Nat.add_comm] at hrest
    by_cases hc : c = '\n'
    · subst hc
      rw [List.cons_append, linesOf_newline, List.count_cons_self, Nat.add_comm,
        List.getElem?_cons_succ, hrest]
    · rw [List.cons_append, linesOf_cons hc, List.count_cons_of_ne hc, Nat.add_comm,
        List.getElem?_modifyHead_succ, hrest]

/-- The layout tokens among `body` follow the margins of `lines`: they stand behind the ends of
lines only, each at the start of the line that follows; they are missing if that line is blank,
and otherwise they take what is open of the layout to the level of its margin. -/
structure LaidOut (lines : List (List Char)) (body : List Token) : Prop where
  /-- Layout stands behind the end of a line, with nothing but layout of the same line between. -/
  behind_newline : ∀ u t w, body = u ++ t :: w → t.isLayout = true →
    ∃ u' n run, u = u' ++ n :: run ∧ n.kind = .newline ∧
      ∀ r ∈ t :: run, r.isLayout = true ∧ r.position = ⟨n.position.line + 1, 1⟩
  /-- The layout of a line. -/
  line_level : ∀ u n w, body = u ++ n :: w → n.kind = .newline →
    ∃ line, lines[n.position.line]? = some line ∧
      (isBlank line = true → w.takeWhile Token.isLayout = []) ∧
      (isBlank line = false → countKind .indent (u ++ n :: w.takeWhile Token.isLayout) =
        countKind .dedent (u ++ n :: w.takeWhile Token.isLayout) + marginLevel line)

/-- What is open of the layout, counted. -/
theorem countKind_of_balances {d : Nat} {ts : List Token} (h : Balances .indent .dedent 0 ts d) :
    countKind .indent ts = countKind .dedent ts + d := by
  have heq := ((balances_iff (by decide)).mp h).2
  rwa [Nat.zero_add] at heq

theorem Scans.laidOut {text : List Char} {ts : List Token} {level' : Nat}
    (h : Scans [] 0 text ts level') : LaidOut (linesOf text) ts where
  behind_newline _ _ _ hts hlayout := h.behind_newline hts hlayout
  line_level u n w hts hn := by
    obtain ⟨seen, rest, m, line, v, htext, hline, rfl, hv, hbalance⟩ := h.line_level hts hn
    rw [List.nil_append] at htext
    refine ⟨headLine rest, ?_, ?_⟩
    · rw [htext, hline]
      exact linesOf_behind seen rest
    rw [takeWhile_layout hv, levelAt]
    refine ⟨fun hblank => ?_, fun hblank => ?_⟩
    · rw [if_pos hblank, layout_self]
    · rw [if_neg (by simp [hblank]), List.append_cons]
      exact countKind_of_balances (hbalance.append (by decide) (balances_layout _ _ _))

/-- The layout tokens of a text follow the margins of its lines, and behind them what is still
open is closed. At no point is more closed than is open, and in the end nothing is left open. -/
theorem tokenize_laidOut {source : String} {tokens : List Token}
    (h : tokenize source = .ok tokens) : Balanced .indent .dedent tokens ∧
      ∃ body closing, tokens = body ++ closing ∧ (∀ t ∈ closing, t.kind = .dedent) ∧
        countKind .indent body = countKind .dedent body + closing.length ∧
        LaidOut (linesOf source.toList) body := by
  obtain ⟨body, level, hscans, -, rfl⟩ := tokenize_eq_ok_iff.mp h
  refine ⟨?_, body, _, rfl, fun t ht => ?_, ?_, hscans.laidOut⟩
  · exact (balanced_iff (by decide)).mpr
      (hscans.balances.append (by decide) (balances_layout level 0 _))
  · simp only [layout, Nat.zero_sub, List.replicate_zero, List.nil_append] at ht
    rw [List.eq_of_mem_replicate ht]
    rfl
  · rw [countKind_of_balances hscans.balances]
    simp [layout]

/-- Lines that go in by a tab and back, then in by four spaces, past a blank one. -/
def steppedSource : String :=
  "a\n \tb\n\n    \r    c\n  d\n\te"

theorem tokenize_laidOut_stepped : ∃ tokens, tokenize steppedSource = .ok tokens ∧
    Balanced .indent .dedent tokens ∧
      ∃ body closing, tokens = body ++ closing ∧ (∀ t ∈ closing, t.kind = .dedent) ∧
        countKind .indent body = countKind .dedent body + closing.length ∧
        LaidOut (linesOf steppedSource.toList) body :=
  ⟨_, rfl, tokenize_laidOut rfl⟩

end Offside
