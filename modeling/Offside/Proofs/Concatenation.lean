import Offside.Proofs.Acceptance
import Offside.Proofs.LineEnds
import Offside.Proofs.Scanning

/-!
# Texts put together

Two texts with a line end between them are the declarations of the one and then those of the
other. What the first leaves open it would close at its end, and in front of the second text it
is closed too, but behind the line end and behind the blank lines that the second text starts
with: those have no layout of their own (`Scans.relevel`). The scanner takes the texts one after
the other (`Scans.join`), and the grammar does not mind where the blocks of the first are closed
(`declarations_join`). The main statement is `parseSource_join`.
-/

namespace Offside

open Grammar

/-! ## Declarations behind each other -/

/-- The ends of `n` lines. -/
def lineEnds (n : Nat) : List Lexeme :=
  List.replicate n ⟨.newline, none⟩

/-- The ends of `n` blocks. -/
def blockEnds (n : Nat) : List Lexeme :=
  List.replicate n ⟨.dedent, none⟩

namespace Grammar

theorem newlines_lineEnds (rest : List Lexeme) : ∀ n, Newlines (lineEnds n ++ rest) rest
  | 0 => .none
  | n + 1 => .next (newlines_lineEnds rest n)

section

variable {tail : List Lexeme}

theorem respaced_append : ∀ (ls : List Lexeme) (fresh : Bool),
    Respaced tail fresh ls (ls ++ tail)
  | [], _ => .done
  | _ :: ls, _ => .keep (respaced_append ls _)

theorem Respaced.behind {ls ls' : List Lexeme} (h : Respaced tail true ls ls') :
    ∀ n, Respaced tail true ls (lineEnds n ++ ls')
  | 0 => h
  | n + 1 => .add (h.behind n)

/-- The line that the first block end is the end of may have a line end, and empty lines may
follow it. -/
theorem respaced_blockEnds (n k : Nat) : ∀ (ls : List Lexeme) (fresh : Bool),
    Respaced tail fresh (ls ++ blockEnds (k + 1))
      (ls ++ (⟨.newline, none⟩ :: (lineEnds n ++ (blockEnds (k + 1) ++ tail))))
  | [], true => .add ((respaced_append _ true).behind n)
  | [], false => .endLine ((respaced_append _ true).behind n)
  | _ :: ls, _ => .keep (respaced_blockEnds n k ls _)

theorem respaced_of_lineEnds {ls ls' : List Lexeme} (h : Respaced tail true ls ls') :
    ∀ n, Respaced tail true (lineEnds n ++ ls) ls'
  | 0 => h
  | n + 1 => .drop (respaced_of_lineEnds h n)

end

/-- Empty lines in front of declarations can be left out. -/
theorem declarations_of_lineEnds {levels n : Nat} {rest : List Lexeme} {ds : List Declaration}
    (h : Declarations (deeper levels) (lineEnds n ++ rest) ds) :
    Declarations (deeper levels) rest ds := by
  have hrest : Respaced [] true rest (rest ++ []) := respaced_append rest true
  rw [List.append_nil] at hrest
  have happend := declarations_append (deeper_stable levels) h (.done .none)
    (respaced_of_lineEnds hrest n)
  rwa [List.append_nil] at happend

/-- Declarations that leave blocks open go on with others, if the blocks are closed behind the
empty lines that those start with. -/
theorem declarations_join {levels n k : Nat} {ls rest : List Lexeme} {ds ds' : List Declaration}
    (h : Declarations (deeper levels) (ls ++ blockEnds k) ds)
    (h' : Declarations (deeper levels) (lineEnds n ++ rest) ds') :
    Declarations (deeper levels)
      (ls ++ (⟨.newline, none⟩ :: (lineEnds n ++ (blockEnds k ++ rest)))) (ds ++ ds') := by
  rcases k with _ | k
  · rw [blockEnds, List.replicate_zero, List.append_nil] at h
    exact declarations_append (deeper_stable levels) h (h'.behind (.next .none))
      (respaced_append _ _)
  · exact declarations_append (deeper_stable levels) h (declarations_of_lineEnds h')
      (respaced_blockEnds n k ls true)

/-- No declaration starts with a block. -/
theorem not_declarations_indent {inner : Deeper} {n : Nat} {v : Option String}
    {rest : List Lexeme} {ds : List Declaration} :
    ¬Declarations inner (lineEnds n ++ ⟨.indent, v⟩ :: rest) ds := by
  have hdrop : Parse.dropNewlines (lineEnds n ++ ⟨.indent, v⟩ :: rest) = ⟨.indent, v⟩ :: rest :=
    (Parse.dropNewlines_of_newlines (newlines_lineEnds _ n)).trans rfl
  intro h
  cases h with
  | done hn =>
    rw [Parse.dropNewlines_of_newlines hn] at hdrop
    cases hdrop
  | classDecl hn =>
    rw [Parse.dropNewlines_of_newlines hn] at hdrop
    cases hdrop
  | interfaceDecl hn =>
    rw [Parse.dropNewlines_of_newlines hn] at hdrop
    cases hdrop

end Grammar

theorem ofDeclarations_append (ds ds' : List Declaration) :
    Program.ofDeclarations (ds ++ ds') =
      ⟨(Program.ofDeclarations ds).classes ++ (Program.ofDeclarations ds').classes,
        (Program.ofDeclarations ds).interfaces ++ (Program.ofDeclarations ds').interfaces⟩ := by
  simp [Program.ofDeclarations]

/-! ## Texts behind each other -/

theorem headLine_append : ∀ text rest : List Char,
    headLine (text ++ '\n' :: rest) = headLine text
  | [], _ => rfl
  | c :: text, rest => by
    by_cases hc : c = '\n'
    · rw [hc]
      rfl
    · rw [List.cons_append, headLine_cons hc, headLine_cons hc, headLine_append]

theorem Gap.extend {gap rest : List Char} (h : Gap gap rest) (v : List Char) :
    Gap gap (rest ++ '\n' :: v) := by
  induction h with
  | none => exact .none
  | space hc hline _ ih => exact .space hc hline ih
  | comment hbody hends _ ih =>
    refine .comment hbody ?_ ih
    rwa [EndsLine, ← List.append_assoc, headLine_append]

/-- The end of a line is also the end of a lexeme. -/
theorem Written.extend {text rest : List Char} {l : Lexeme} (h : Written text l rest)
    (v : List Char) : Written text l (rest ++ '\n' :: v) := by
  refine h.change fun c hc => ?_
  rcases rest with _ | ⟨d, rest⟩
  · cases hc
    exact .inr (.inl rfl)
  · exact .inl hc

/-- Where the one text ends the line of the other is measured like any other. -/
theorem Scans.join {before u : List Char} {level m : Nat} {ts : List Token}
    (h : Scans before level u ts m) : ∀ (v : List Char) (ts' : List Token) (m' : Nat),
    Scans (before ++ (u ++ ['\n'])) (levelAt m (headLine v)) v ts' m' →
    Scans before level (u ++ '\n' :: v)
      (ts ++ (Token.plain .newline (Position.behind (before ++ u)) ::
        (layout m (levelAt m (headLine v)) (Position.behind (before ++ (u ++ ['\n']))).line ++
          ts'))) m' := by
  induction h with
  | done hgap => exact fun v _ _ h' => .line (hgap.extend v) h'
  | @line before level gap rest ts m hgap _ ih =>
    intro v ts' m' h'
    have hrest := ih v ts' m' (by simpa using h')
    rw [← headLine_append rest v] at hrest
    have hline := Scans.line (by simpa using hgap.extend v) hrest
    simpa [headLine_append] using hline
  | lexeme hgap hlex _ ih =>
    intro v ts' m' h'
    have hrest := ih v ts' m' (by simpa using h')
    have hlexeme := Scans.lexeme (by simpa using hgap.extend v) (hlex.extend v) hrest
    simpa using hlexeme

theorem lexemesOf_append (ts ts' : List Token) :
    lexemesOf (ts ++ ts') = lexemesOf ts ++ lexemesOf ts' :=
  List.map_append

theorem map_kind_lexemesOf (ts : List Token) :
    (lexemesOf ts).map Lexeme.kind = ts.map Token.kind := by
  rw [lexemesOf, List.map_map]
  rfl

theorem lexemesOf_layout (level level' line : Nat) : lexemesOf (layout level level' line) =
    List.replicate (level' - level) ⟨.indent, none⟩ ++ blockEnds (level - level') := by
  simp [lexemesOf, layout, blockEnds, Token.lexeme, Token.plain]

theorem lexemesOf_line (p : Position) (run ts : List Token) :
    lexemesOf (Token.plain .newline p :: (run ++ ts)) =
      ⟨.newline, none⟩ :: (lexemesOf run ++ lexemesOf ts) := by
  rw [← lexemesOf_append]
  rfl

/-- The lexemes of a text do not depend on what stands in front of it. -/
theorem Scans.shift {before v : List Char} {level m : Nat} {ts : List Token}
    (h : Scans before level v ts m) : ∀ before' : List Char,
    ∃ ts', Scans before' level v ts' m ∧ lexemesOf ts' = lexemesOf ts := by
  induction h with
  | done hgap => exact fun _ => ⟨[], .done hgap, rfl⟩
  | line hgap _ ih =>
    intro before'
    obtain ⟨ts', hscans, hlexemes⟩ := ih _
    refine ⟨_, .line hgap hscans, ?_⟩
    rw [lexemesOf_line, lexemesOf_line, lexemesOf_layout, lexemesOf_layout, hlexemes]
  | lexeme hgap hlex _ ih =>
    intro before'
    obtain ⟨ts', hscans, hlexemes⟩ := ih _
    refine ⟨_, .lexeme hgap hlex hscans, ?_⟩
    exact congrArg (_ :: ·) hlexemes

theorem isWhiteSpace_of_isIndentation {c : Char} (h : isIndentation c = true) :
    Unicode.isWhiteSpace c = true := by
  simp only [isIndentation, Bool.or_eq_true, beq_iff_eq] at h
  rcases h with (rfl | rfl) | rfl <;> rfl

/-- A line with a lexeme in it is not blank. -/
theorem Gap.not_blank {gap rest : List Char} (h : Gap gap rest) {c : Char} {cs : List Char}
    (hrest : rest = c :: cs) (hc : Unicode.isWhiteSpace c = false) :
    isBlank (headLine (gap ++ rest)) = false := by
  induction h with
  | none =>
    have hline : c ≠ '\n' := by
      rintro rfl
      cases hc
    have hmargin : isIndentation c = false := by
      rw [Bool.eq_false_iff]
      intro h
      rw [isWhiteSpace_of_isIndentation h] at hc
      cases hc
    rw [hrest, List.nil_append, headLine_cons hline, isBlank, List.all_cons, hmargin,
      Bool.false_and]
  | space hc hline _ ih =>
    rw [List.cons_append, headLine_cons hline, isBlank, List.all_cons, ← isBlank, ih hrest,
      Bool.and_false]
  | comment => rfl

/-- In front of its first line that is not blank a text does not depend on the level, and that
line closes what is open, unless it starts a block. -/
theorem Scans.relevel {before v : List Char} {level m' : Nat} {ts : List Token}
    (h : Scans before level v ts m') (hlevel : level = 0)
    (hblank : isBlank (headLine v) = true) (m : Nat) :
    ∃ ts' m'', Scans before m v ts' m'' ∧
      (ts'.filter fun t => !t.isLayout) = ts.filter (fun t => !t.isLayout) ∧
      ((∃ n rest, lexemesOf ts = lineEnds n ++ ⟨.indent, none⟩ :: rest) ∨
        ∃ n rest, lexemesOf ts ++ blockEnds m' = lineEnds n ++ rest ∧
          lexemesOf ts' ++ blockEnds m'' = lineEnds n ++ (blockEnds m ++ rest)) := by
  induction h with
  | done hgap =>
    subst hlevel
    exact ⟨[], m, .done hgap, rfl, .inr ⟨0, [], rfl, by simp [lineEnds, lexemesOf]⟩⟩
  | @line before level gap rest ts m' hgap hscans ih =>
    subst hlevel
    by_cases hnext : isBlank (headLine rest) = true
    · have hat : ∀ k, levelAt k (headLine rest) = k := fun k => by rw [levelAt, if_pos hnext]
      obtain ⟨ts', m'', hscans', hfilter, hlexemes⟩ := ih (hat 0) hnext
      rw [← hat m] at hscans'
      refine ⟨_, m'', .line hgap hscans', by rw [filter_newline, filter_newline, hfilter], ?_⟩
      rw [hat, hat, layout_self, layout_self, lexemesOf_line, lexemesOf_line]
      rcases hlexemes with ⟨n, rest, heq⟩ | ⟨n, rest, heq, heq'⟩
      · exact .inl ⟨n + 1, rest, congrArg (_ :: ·) heq⟩
      · exact .inr ⟨n + 1, rest, congrArg (_ :: ·) heq, congrArg (_ :: ·) heq'⟩
    · have hat : ∀ k, levelAt k (headLine rest) = marginLevel (headLine rest) :=
        fun k => by rw [levelAt, if_neg hnext]
      have hscans' := hscans
      rw [hat, ← hat m] at hscans'
      refine ⟨_, m', .line hgap hscans', by rw [filter_newline, filter_newline], ?_⟩
      rw [hat, hat, lexemesOf_line, lexemesOf_line, lexemesOf_layout, lexemesOf_layout]
      rcases hmargin : marginLevel (headLine rest) with _ | l
      · exact .inr ⟨1, _, rfl, by simp [lineEnds, blockEnds]⟩
      · exact .inl ⟨1, _, rfl⟩
  | lexeme hgap hlex =>
    obtain ⟨c, cs, htext, hc⟩ := hlex.head
    rw [htext] at hgap hblank
    rw [hgap.not_blank rfl hc] at hblank
    cases hblank

/-- A text without a margin in front of it does not depend on the level of the line before it
either. -/
theorem Scans.follow {before v : List Char} {m' : Nat} {ts : List Token}
    (h : Scans before 0 v ts m') (hstart : ∀ c ∈ v.head?, isIndentation c = false) (m line : Nat) :
    ∃ ts' m'', Scans before (levelAt m (headLine v)) v ts' m'' ∧
      (ts'.filter fun t => !t.isLayout) = ts.filter (fun t => !t.isLayout) ∧
      ((∃ n rest, lexemesOf ts = lineEnds n ++ ⟨.indent, none⟩ :: rest) ∨
        ∃ n rest, lexemesOf ts ++ blockEnds m' = lineEnds n ++ rest ∧
          lexemesOf (layout m (levelAt m (headLine v)) line) ++ (lexemesOf ts' ++ blockEnds m'') =
            lineEnds n ++ (blockEnds m ++ rest)) := by
  by_cases hblank : isBlank (headLine v) = true
  · have hat : levelAt m (headLine v) = m := by rw [levelAt, if_pos hblank]
    rw [hat, layout_self]
    exact h.relevel rfl hblank m
  · obtain ⟨c, v, rfl⟩ := List.exists_cons_of_ne_nil fun hnil : v = [] => hblank (by rw [hnil]; rfl)
    have hc : isIndentation c = false := hstart c rfl
    have hline : c ≠ '\n' := by
      rintro rfl
      exact hblank rfl
    have hat : levelAt m (headLine (c :: v)) = 0 := by
      rw [levelAt, if_neg hblank, headLine_cons hline]
      exact marginLevel_text (n := 0) (by decide) hc (headLine v)
    rw [hat, lexemesOf_layout]
    exact ⟨ts, m', h, rfl, .inr ⟨0, _, rfl, by simp [lineEnds]⟩⟩

/-- The tokens of two texts with a line end between them: the blocks that the first leaves open
are closed behind the empty lines that the second starts with. -/
theorem tokenize_join {source source' : String} {tokens tokens' : List Token}
    (h : tokenize source = .ok tokens) (h' : tokenize source' = .ok tokens')
    (hstart : ∀ c ∈ source'.toList.head?, isIndentation c = false) :
    (∃ n rest, lexemesOf tokens' = lineEnds n ++ ⟨.indent, none⟩ :: rest) ∨
      ∃ joined ls k n rest, tokenize (source ++ "\n" ++ source') = .ok joined ∧
        lexemesOf tokens = ls ++ blockEnds k ∧ lexemesOf tokens' = lineEnds n ++ rest ∧
        lexemesOf joined = ls ++ (⟨.newline, none⟩ :: (lineEnds n ++ (blockEnds k ++ rest))) := by
  obtain ⟨body, level, hscans, hbalanced, rfl⟩ := tokenize_eq_ok_iff.mp h
  obtain ⟨body', level', hscans', hbalanced', rfl⟩ := tokenize_eq_ok_iff.mp h'
  obtain ⟨shifted, hshifted, hlexemes⟩ := hscans'.shift ([] ++ (source.toList ++ ['\n']))
  obtain ⟨ts, level'', hts, hfilter, hends⟩ := hshifted.follow hstart level
    (Position.behind ([] ++ (source.toList ++ ['\n']))).line
  have hclosing : ∀ (ts : List Token) (m line : Nat),
      lexemesOf (ts ++ layout m 0 line) = lexemesOf ts ++ blockEnds m := by
    intro ts m line
    rw [lexemesOf_append, lexemesOf_layout]
    simp
  rw [hclosing, hclosing, ← hlexemes]
  rcases hends with ⟨n, rest, heq⟩ | ⟨n, rest, heq, heq'⟩
  · exact .inl ⟨n, rest ++ blockEnds level', by rw [heq]; simp⟩
  have hparens : Balanced .leftParen .rightParen ts := by
    rw [← balanced_filter, hfilter, balanced_filter]
    have hkinds : shifted.map Token.kind = body'.map Token.kind := by
      rw [← map_kind_lexemesOf, ← map_kind_lexemesOf, hlexemes]
    exact (balanced_iff (by decide)).mpr
      ((balances_congr hkinds).mpr ((balanced_iff (by decide)).mp hbalanced'))
  have hbalance := (balanced_iff (by decide)).mp hbalanced
  refine .inr ⟨_, lexemesOf body, level, n, rest, tokenize_eq_ok_iff.mpr
    ⟨_, level'', by simpa using hscans.join _ _ _ hts, (balanced_iff (by decide)).mpr
      (hbalance.append (by decide) (balances_newline.mpr ((balanced_iff (by decide)).mp hparens))),
      rfl⟩, rfl, heq, ?_⟩
  rw [hclosing, lexemesOf_append, lexemesOf_line, ← heq']
  simp

/-- Texts with a line end between them are read as their declarations behind each other, if the
second has no margin in its first line. -/
theorem parseSource_join {source source' : String} {p p' : Program}
    (h : parseSource source = .ok p) (h' : parseSource source' = .ok p')
    (hstart : ∀ c ∈ source'.toList.head?, c ≠ ' ' ∧ c ≠ '\t' ∧ c ≠ '\r') :
    ∃ joined, parseSource (source ++ "\n" ++ source') = .ok joined ∧
      joined.classes = p.classes ++ p'.classes ∧
      joined.interfaces = p.interfaces ++ p'.interfaces := by
  obtain ⟨tokens, htokens, ds, hds, rfl⟩ := parseSource_ok h
  obtain ⟨tokens', htokens', ds', hds', rfl⟩ := parseSource_ok h'
  have hmargin : ∀ c ∈ source'.toList.head?, isIndentation c = false := by
    intro c hc
    obtain ⟨hspace, htab, hreturn⟩ := hstart c hc
    simp [isIndentation, hspace, htab, hreturn]
  rcases tokenize_join htokens htokens' hmargin with
    ⟨n, rest, heq⟩ | ⟨joined, ls, k, n, rest, hjoined, hls, hrest, heq⟩
  · rw [heq] at hds'
    exact absurd hds' not_declarations_indent
  · rw [hls] at hds
    rw [hrest] at hds'
    refine ⟨.ofDeclarations (ds ++ ds'), parseSource_of_derives hjoined ⟨_, ?_, rfl⟩, ?_, ?_⟩
    · rw [heq]
      exact declarations_join hds hds'
    · rw [ofDeclarations_append]
    · rw [ofDeclarations_append]

/-- A text that leaves two blocks open. -/
def openSource : String :=
  "class Point\n\tmove()\n\t\tx = 1"

/-- A text that starts with a blank line. -/
def blankSource : String :=
  "\n{ shapes }\ninterface Shape\n\tarea()\n"

theorem parseSource_join_open : ∃ p p', parseSource openSource = .ok p ∧
    parseSource blankSource = .ok p' ∧
    (∀ c ∈ blankSource.toList.head?, c ≠ ' ' ∧ c ≠ '\t' ∧ c ≠ '\r') ∧
    ∃ joined, parseSource (openSource ++ "\n" ++ blankSource) = .ok joined ∧
      joined.classes = p.classes ++ p'.classes ∧
      joined.interfaces = p.interfaces ++ p'.interfaces := by
  have hstart : ∀ c ∈ blankSource.toList.head?, c ≠ ' ' ∧ c ≠ '\t' ∧ c ≠ '\r' := by
    rintro c ⟨⟩
    decide
  exact ⟨_, _, rfl, rfl, hstart, parseSource_join rfl rfl hstart⟩

end Offside
