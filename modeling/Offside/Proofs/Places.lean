import Offside.Proofs.Margins
import Offside.Proofs.Moves

/-!
# The places of a text

Every position that a scanner writes down is a place of the text it has read
(`IsPlace`): where a lexeme starts, where a parenthesis or a comment does, where a line does.
Reading one character keeps this (`Scanner.Placed.step`), so it holds of the tokens of a text
and of the diagnostic that there is instead (`isPlace_of_tokenize`,
`isPlace_of_tokenize_error`). A place is a character of a line, or the end of one
(`IsPlace.exists_line`).
-/

namespace Offside

/-! ## Positions -/

namespace Position

theorem behind_of_line (before : List Char) {text : List Char} (h : '\n' ∉ text) :
    behind (before ++ text) = ⟨(behind before).line, (behind before).column + text.length⟩ := by
  have hcolumn : (before ++ text).reverse.takeWhile (· != '\n') =
      text.reverse ++ before.reverse.takeWhile (· != '\n') := by
    rw [List.reverse_append, List.takeWhile_append_of_pos]
    intro c hc
    have hne : c ≠ '\n' := by
      rintro rfl
      exact h (List.mem_reverse.mp hc)
    simpa using hne
  rw [behind, behind, hcolumn, List.count_append, List.count_eq_zero_of_not_mem h,
    List.length_append, List.length_reverse, Nat.add_zero, Nat.add_comm text.length, Nat.add_assoc]

/-- Every character moves on. -/
theorem behind_append_eq {before text : List Char} (h : behind (before ++ text) = behind before) :
    text = [] := by
  by_cases hline : '\n' ∈ text
  · have hpos := List.count_pos_iff.mpr hline
    have heq := congrArg Position.line h
    simp only [behind, List.count_append] at heq
    omega
  · have heq := congrArg Position.column h
    rw [behind_of_line before hline] at heq
    exact List.length_eq_zero_iff.mp (by simpa using heq)

/-- Two places of one text are told apart by their positions. -/
theorem behind_inj (before : List Char) {u v rest rest' : List Char}
    (htext : u ++ rest = v ++ rest')
    (h : behind (before ++ u) = behind (before ++ v)) : u = v := by
  rcases List.append_eq_append_iff.mp htext with ⟨more, rfl, -⟩ | ⟨more, rfl, -⟩
  · rw [← List.append_assoc] at h
    rw [behind_append_eq h.symm, List.append_nil]
  · rw [← List.append_assoc] at h
    rw [behind_append_eq h, List.append_nil]

end Position

/-! ## Places and lines -/

/-- Some character of the text stands there, or its end does. -/
def IsPlace (text : List Char) (p : Position) : Prop :=
  ∃ u, u <+: text ∧ p = Position.behind u

theorem isPlace_behind (text : List Char) : IsPlace text (Position.behind text) :=
  ⟨text, List.prefix_rfl, rfl⟩

theorem isPlace_start (text : List Char) : IsPlace text Position.start :=
  ⟨[], List.nil_prefix, rfl⟩

theorem IsPlace.append {text : List Char} {p : Position} (h : IsPlace text p) (v : List Char) :
    IsPlace (text ++ v) p := by
  obtain ⟨u, hu, rfl⟩ := h
  exact ⟨u, hu.trans (List.prefix_append text v), rfl⟩

/-- Every text falls into what stands in front of its last line, and that line. -/
theorem exists_last_line : ∀ text : List Char, ∃ line, '\n' ∉ line ∧
    (text = line ∨ ∃ seen, text = seen ++ '\n' :: line)
  | [] => ⟨[], List.not_mem_nil, .inl rfl⟩
  | c :: text => by
    obtain ⟨line, hline, rfl | ⟨seen, rfl⟩⟩ := exists_last_line text
    · by_cases hc : c = '\n'
      · subst hc
        exact ⟨text, hline, .inr ⟨[], rfl⟩⟩
      · exact ⟨c :: text, by simp [hline, Ne.symm hc], .inl rfl⟩
    · exact ⟨line, hline, .inr ⟨c :: seen, rfl⟩⟩

theorem headLine_of_line {line : List Char} (h : '\n' ∉ line) (rest : List Char) :
    headLine (line ++ rest) = line ++ headLine rest := by
  rw [headLine, List.takeWhile_append_of_pos, headLine]
  intro c hc
  have hne : c ≠ '\n' := by
    rintro rfl
    exact h hc
  simpa using hne

theorem behind_first_line {line : List Char} (h : '\n' ∉ line) :
    Position.behind line = ⟨1, 1 + line.length⟩ :=
  Position.behind_of_line [] h

theorem behind_last_line (seen : List Char) {line : List Char} (h : '\n' ∉ line) :
    Position.behind (seen ++ '\n' :: line) = ⟨1 + seen.count '\n' + 1, 1 + line.length⟩ := by
  rw [List.append_cons, Position.behind_of_line _ h, Offside.behind_newline]
  rfl

/-- The start of the line that a text ends in. -/
theorem isPlace_line_start (text : List Char) :
    IsPlace text ⟨(Position.behind text).line, 1⟩ := by
  obtain ⟨line, hline, rfl | ⟨seen, rfl⟩⟩ := exists_last_line text
  · rw [behind_first_line hline]
    exact (isPlace_start []).append text
  · rw [behind_last_line seen hline]
    exact ⟨seen ++ ['\n'], ⟨line, by simp⟩, (behind_last_line seen List.not_mem_nil).symm⟩

/-- A place stands in a line of the text, in front of one of its characters or at its end. -/
theorem IsPlace.exists_line {text : List Char} {p : Position} (h : IsPlace text p) :
    1 ≤ p.line ∧ p.line ≤ 1 + text.count '\n' ∧
      ∃ line, (linesOf text)[p.line - 1]? = some line ∧
        1 ≤ p.column ∧ p.column ≤ 1 + line.length := by
  obtain ⟨u, ⟨rest, rfl⟩, rfl⟩ := h
  refine ⟨Nat.le_add_right 1 _, by simp [Position.behind], ?_⟩
  obtain ⟨line, hline, rfl | ⟨seen, rfl⟩⟩ := exists_last_line u
  · rw [behind_first_line hline]
    refine ⟨u ++ headLine rest, ?_, Nat.le_add_right 1 _, by simp⟩
    rw [← headLine_of_line hline]
    exact linesOf_head _
  · rw [behind_last_line seen hline]
    refine ⟨line ++ headLine rest, ?_, Nat.le_add_right 1 _, by simp⟩
    rw [← headLine_of_line hline, List.append_assoc, List.cons_append]
    exact linesOf_behind seen _

/-! ## What a scanner remembers -/

/-- Where the lexeme that is open starts, or where the scanner gave up. -/
def Mode.place? : Mode → Option Position
  | .gap | .margin _ _ | .afterComment => none
  | .word start _ | .number start _ _ | .dot start | .operator start _ _ | .comment start
  | .string start _ | .escape start _ | .openQuote start | .closeQuote start _ => some start
  | .stopped d => some d.position

theorem position_ofWord (text : String) (p : Position) : (Token.ofWord text p).position = p := by
  rw [Token.ofWord]
  split <;> rfl

namespace Mode

variable {m m' : Mode} {c : Char} {t : Token} {here p : Position} {cause : Cause}

theorem Opens.place? (h : Opens here c m) : ∀ p ∈ m.place?, p = here := by
  cases h <;> simp [Mode.place?]

/-- What is open keeps its start while it goes on. -/
theorem Continues.place? (h : m.Continues c m') : ∀ p ∈ m'.place?, p ∈ m.place? := by
  cases h <;> simp [Mode.place?]

theorem Completes.place? (h : m.Completes c t) : t.position ∈ m.place? := by
  cases h <;> rfl

theorem Ends.place? (h : m.Ends c t) : t.position ∈ m.place? := by
  cases h with
  | word =>
    rw [position_ofWord]
    rfl
  | _ => rfl

theorem Fails.place? (h : m.Fails here c cause p) : p = here ∨ p ∈ m.place? := by
  cases h with
  | afterComment => exact .inl rfl
  | _ => exact .inr rfl

theorem Unfinished.place? (h : m.Unfinished cause p) : p ∈ m.place? := by
  cases h <;> rfl

end Mode

namespace Scanner

/-- The positions of the open parentheses and of the tokens so far. -/
def kept (s : Scanner) : List Position :=
  s.parens ++ s.tokens.toList.map Token.position

/-- The scanner stands behind the text that it has read, and what it keeps are places of it. -/
structure Behind (text : List Char) (s : Scanner) : Prop where
  position : s.position = Position.behind text
  kept : ∀ p ∈ s.kept, IsPlace text p

/-- What the scanner keeps are places of the text that it has read, the start of what is open
too. Where it gave up it stands somewhere in that text. -/
structure Placed (text : List Char) (s : Scanner) : Prop where
  position : s.failure? = none → s.position = Position.behind text
  mode : ∀ p ∈ s.mode.place?, IsPlace text p
  kept : ∀ p ∈ s.kept, IsPlace text p

variable {s : Scanner} {text : List Char}

theorem kept_push (s : Scanner) (t : Token) : (s.push t).kept = s.kept ++ [t.position] := by
  simp [Scanner.kept, push]

theorem Placed.behind (h : s.Placed text) (hs : s.failure? = none) : s.Behind text :=
  ⟨h.position hs, h.kept⟩

namespace Behind

theorem isPlace (h : s.Behind text) : IsPlace text s.position :=
  h.position ▸ isPlace_behind text

theorem push (h : s.Behind text) {t : Token} (ht : IsPlace text t.position) :
    (s.push t).Behind text := by
  refine ⟨h.position, fun p hp => ?_⟩
  rw [kept_push] at hp
  rcases List.mem_append.mp hp with hp | hp
  · exact h.kept p hp
  · exact List.mem_singleton.mp hp ▸ ht

theorem indentTo (h : s.Behind text) (level : Nat) : (s.indentTo level).Behind text := by
  rw [indentTo_eq]
  refine ⟨h.position, fun p hp => ?_⟩
  simp only [Scanner.kept, List.map_append, List.mem_append, List.mem_map] at hp
  rcases hp with hp | hp | ⟨t, ht, rfl⟩
  · exact h.kept p (List.mem_append_left _ hp)
  · exact h.kept p (List.mem_append_right _ (List.mem_map.mpr hp))
  · rw [(mem_layout ht).2, h.position]
    exact isPlace_line_start text

theorem enter (h : s.Behind text) (c : Char) {mode : Mode}
    (hmode : ∀ p ∈ mode.place?, IsPlace text p) : (s.enter c mode).Placed (text ++ [c]) where
  position _ := by rw [Position.behind_append_singleton, ← h.position]; rfl
  mode p hp := (hmode p hp).append [c]
  kept p hp := (h.kept p hp).append [c]

theorem enter_none (h : s.Behind text) (c : Char) {mode : Mode} (hmode : mode.place? = none) :
    (s.enter c mode).Placed (text ++ [c]) := by
  refine h.enter c fun p hp => ?_
  rw [hmode] at hp
  cases hp

theorem stop (h : s.Behind text) (v : List Char) (cause : Cause) {p : Position}
    (hp : IsPlace text p) : (s.stop cause p).Placed (text ++ v) where
  position hs := by cases hs
  mode := by
    rintro _ ⟨⟩
    exact hp.append v
  kept q hq := (h.kept q hq).append v

theorem placed (h : s.Behind text) (hmode : ∀ p ∈ s.mode.place?, IsPlace text p) :
    s.Placed text :=
  ⟨fun _ => h.position, hmode, h.kept⟩

theorem begins (h : s.Behind text) {c : Char} {s' : Scanner} (hs : s.Begins c s') :
    s'.Placed (text ++ [c]) := by
  cases hs with
  | opens hopens => exact h.enter c fun p hp => hopens.place? p hp ▸ h.isPlace
  | newline => exact (h.push h.isPlace).enter_none c rfl
  | sign => exact (h.push h.isPlace).enter_none c rfl
  | leftParen =>
    have hopen : Behind text { s with parens := s.position :: s.parens } :=
      ⟨h.position, List.forall_mem_cons.mpr ⟨h.isPlace, h.kept⟩⟩
    exact (hopen.push h.isPlace).enter_none c rfl
  | @rightParen p rest _ hparens =>
    have hclosed : Behind text { s with parens := rest } := by
      refine ⟨h.position, fun q hq => h.kept q ?_⟩
      rw [Scanner.kept, hparens]
      exact List.mem_cons_of_mem p hq
    exact (hclosed.push h.isPlace).enter_none c rfl
  | unmatched => exact h.stop [c] _ h.isPlace
  | unrecognised => exact h.stop [c] _ h.isPlace

end Behind

theorem Settles.behind {c : Char} {s' : Scanner} (hs : s.Settles c s') (h : s.Placed text) :
    s'.Behind text := by
  have hbehind := h.behind hs.running
  cases hs with
  | idle => exact hbehind
  | ends hends => exact hbehind.push (h.mode _ hends.place?)
  | indents => exact hbehind.indentTo _

/-- A scanner that goes on with `c` notes nothing but where it stands, where the line starts, and
what it had noted before. -/
theorem Placed.moves (h : s.Placed text) {c : Char} {s' : Scanner} (hs : s.Moves c s') :
    s'.Placed (text ++ [c]) := by
  cases hs with
  | rests hm =>
    refine ⟨fun hrunning => ?_, fun p hp => (h.mode p hp).append [c],
      fun p hp => (h.kept p hp).append [c]⟩
    rw [failure?, hm] at hrunning
    cases hrunning
  | continues hc =>
    exact (h.behind (running_of_continues hc)).enter c fun p hp => h.mode p (hc.place? p hp)
  | completes hc =>
    have hbehind := h.behind (running_of_completes hc)
    exact (hbehind.push (h.mode _ hc.place?)).enter_none c rfl
  | begins hs => exact (hs.behind h).begins (begins_begin _ c)
  | fails hfails =>
    have hbehind := h.behind (running_of_fails hfails)
    rcases hfails.place? with rfl | hp
    · exact hbehind.stop [c] _ hbehind.isPlace
    · exact hbehind.stop [c] _ (h.mode _ hp)

theorem Placed.step (h : s.Placed text) (c : Char) : (s.step c).Placed (text ++ [c]) :=
  h.moves (moves_step s c)

theorem placed_scan : ∀ (text before : List Char) {s : Scanner}, s.Placed before →
    (s.scan text).Placed (before ++ text)
  | [], before, s, h => by rwa [List.append_nil]
  | c :: text, before, s, h => by
    rw [List.append_cons]
    exact placed_scan text (before ++ [c]) (h.step c)

theorem Placed.closes (h : s.Placed text) {s' : Scanner} (hs : s.Closes s') : s'.Placed text := by
  cases hs with
  | rests => exact h
  | ends hends =>
    have hbehind := h.behind (Settles.ends hends).running
    exact (hbehind.push (h.mode _ hends.place?)).placed h.mode
  | fails hopen =>
    have hbehind := h.behind (running_of_unfinished hopen)
    simpa using hbehind.stop [] _ (h.mode _ hopen.place?)

theorem Placed.finish (h : s.Placed text) : s.finish.Placed text := by
  have hend := h.closes (closes_endLexeme s)
  rw [Scanner.finish]
  split
  · exact hend
  · next hs =>
    have hblocks := (hend.behind hs).indentTo 0
    have hmode : (s.endLexeme.indentTo 0).mode = s.endLexeme.mode := by rw [indentTo_eq]
    rw [endBlocks]
    split
    · exact hblocks.placed (by rw [hmode]; exact hend.mode)
    · next p hparens =>
      have hp := hblocks.kept p (List.mem_append_left _ (List.mem_of_getLast? hparens))
      simpa using hblocks.stop [] .unbalancedParentheses hp

theorem placed_initial : initial.Placed [] :=
  ⟨fun _ => rfl, by simp [initial, Mode.place?], by simp [initial, kept]⟩

/-- What a scanner has noted at the end of a text are places of it. -/
theorem placed_text (text : List Char) : (initial.scan text).finish.Placed text :=
  (placed_scan text [] placed_initial).finish

end Scanner

/-- The tokens of a text stand at places of it. -/
theorem isPlace_of_tokenize {source : String} {tokens : List Token}
    (h : tokenize source = .ok tokens) : ∀ t ∈ tokens, IsPlace source.toList t.position := by
  have hplaced := Scanner.placed_text source.toList
  rw [tokenize, Scanner.result] at h
  split at h
  · cases h
  · cases h
    exact fun t ht => hplaced.kept _ (List.mem_append_right _ (List.mem_map_of_mem ht))

/-- A text that has no tokens is blamed at one of its places. -/
theorem isPlace_of_tokenize_error {source : String} {d : Diagnostic}
    (h : tokenize source = .error d) : IsPlace source.toList d.position := by
  have hplaced := Scanner.placed_text source.toList
  rw [tokenize, Scanner.result] at h
  split at h
  · next d' hd =>
    cases h
    rw [Scanner.failure?] at hd
    split at hd
    · next d' hm =>
      cases hd
      exact hplaced.mode _ (by rw [hm]; rfl)
    · cases hd
  · cases h

end Offside
