import Offside.Proofs.BlankLines
import Offside.Proofs.LineTails

/-!
# The line feed at the end of a text

A text is read as the same program with a line feed at its end and without one
(`parseSource_newline_iff`). Wherever the text ends, the line feed is not swallowed: no gap and
no lexeme ends in one, so the scanner makes it the end of a line (`Scans.newline_mem`), in front
of the ends of the blocks that are open (`tokenize_newline_iff`).

The grammar does not need it. Where blocks are open at the end of the text, the last line is the
last one of its block and may leave its line end to the block (`respaced_lastLine`). Where none
is open, the last declaration has already ended with a block, and what follows is an empty line
(`Declarations.endsBlock`).
-/

namespace Offside

open Grammar

variable {α : Type}

/-! ## The tokens of the last line -/

theorem Gap.last_ne_newline {gap rest : List Char} (h : Gap gap rest) :
    gap.getLast? ≠ some '\n' := by
  induction h with
  | none => exact nofun
  | @space c gap _ _ hline _ ih =>
    rw [List.getLast?_cons]
    rcases hgap : gap.getLast? with _ | d
    · simpa using hline
    · rwa [hgap] at ih
  | @comment body gap _ _ _ _ ih =>
    rw [List.getLast?_cons, List.getLast?_append, List.getLast?_cons]
    rcases hgap : gap.getLast? with _ | d
    · simp
    · rw [hgap] at ih
      simpa using ih

/-- Strings that go over the end of a line end in a quote. -/
theorem Written.last_ne_newline {text rest : List Char} {l : Lexeme} (h : Written text l rest) :
    text.getLast? ≠ some '\n' := by
  intro hlast
  refine h.no_newline (fun hstring => ?_) (List.mem_of_getLast? hlast)
  cases h with
  | word =>
    have hall : ∀ k ∈ Kind.word :: Kind.reservedWords.map Prod.snd, k ≠ .quotedString := by
      decide
    exact absurd hstring (hall _ (kind_wordLexeme _))
  | number => cases hstring
  | string => simp [List.getLast?_cons] at hlast
  | character => cases hstring
  | symbol hk =>
    have hall : ∀ e ∈ symbols, e.2 ≠ .quotedString := by decide
    exact absurd hstring (hall _ (mem_symbols hk))

/-- The line feed at the end of a text ends a line. -/
theorem Scans.newline_mem {before text : List Char} {level level' : Nat} {ts : List Token}
    (h : Scans before level text ts level') : ∀ {u : List Char}, text = u ++ ['\n'] →
    Token.plain .newline (Position.behind (before ++ u)) ∈ ts := by
  induction h with
  | done hgap =>
    rintro u rfl
    exact absurd (by simp) hgap.last_ne_newline
  | @line before level gap rest ts level' hgap _ ih =>
    intro u hu
    rcases List.eq_nil_or_concat rest with rfl | ⟨rest, c, rfl⟩
    · obtain ⟨rfl, -⟩ := List.append_inj' hu rfl
      exact List.mem_cons_self
    · have hconcat : gap ++ '\n' :: rest ++ [c] = u ++ ['\n'] := by simpa using hu
      obtain ⟨rfl, hc⟩ := List.append_inj' hconcat rfl
      have hmem := ih (u := rest) (by rw [List.concat_eq_append, hc])
      simpa using Or.inr (Or.inr hmem)
  | @lexeme before level gap text l rest ts level' hgap hlex _ ih =>
    intro u hu
    rcases List.eq_nil_or_concat rest with rfl | ⟨rest, c, rfl⟩
    · have hlast := congrArg List.getLast? hu
      rw [List.append_nil, List.getLast?_append_of_ne_nil _ hlex.ne_nil] at hlast
      exact absurd (hlast.trans (by simp)) hlex.last_ne_newline
    · have hconcat : gap ++ (text ++ rest) ++ [c] = u ++ ['\n'] := by simpa using hu
      obtain ⟨rfl, hc⟩ := List.append_inj' hconcat rfl
      have hmem := ih (u := rest) (by rw [List.concat_eq_append, hc])
      simpa using Or.inr hmem

theorem scans_nil {before : List Char} {level level' : Nat} {ts : List Token}
    (h : Scans before level [] ts level') : ts = [] ∧ level' = level := by
  generalize htext : [] = text at h
  cases h with
  | done => exact ⟨rfl, rfl⟩
  | line => simp at htext
  | lexeme _ hlex => exact absurd (by simp_all) hlex.ne_nil

/-- With a line feed at its end a text has the tokens that it has without one, and a line end in
front of the ends of its blocks. -/
theorem tokenize_newline_iff {source : String} {tokens : List Token} :
    tokenize (source ++ "\n") = .ok tokens ↔ ∃ body level,
      Scans [] 0 source.toList body level ∧ Balanced .leftParen .rightParen body ∧
        tokens = body ++ newlineBehind source ::
          layout level 0 (Position.behind (source.toList ++ ['\n'])).line := by
  have hempty : source ++ "\n" = source ++ "\n" ++ "" := by simp
  have hlevel : ∀ m, levelAt m (headLine "".toList) = m := fun _ => rfl
  constructor
  · intro h
    obtain ⟨body, level, hscans, -, hbody⟩ := tokenize_eq_ok_iff.mp h
    have hmem := hscans.newline_mem (u := source.toList) (by simp)
    rw [hempty] at h
    obtain ⟨front, m, rest, level', hu, hv, hbalance, htokens⟩ :=
      BreaksLine.parts ⟨_, h, hbody ▸ List.mem_append_left _ hmem⟩ h
    obtain ⟨rfl, hm⟩ := scans_nil hv
    rw [List.append_nil] at hbalance
    refine ⟨front, m, hu, (balanced_iff (by decide)).mpr hbalance, ?_⟩
    rw [htokens, hm, hlevel, layout_self]
    rfl
  · rintro ⟨body, level, hscans, hbalance, rfl⟩
    have hparts := tokenize_of_parts (v := "") hscans (.done .none)
      (by rw [List.append_nil]; exact (balanced_iff (by decide)).mp hbalance)
    rw [hempty, hparts, hlevel, layout_self]
    rfl

/-! ## The declarations of the last line -/

namespace Grammar

theorem lines_close {item : Phrase α} (hitem : Consumes item) {ls rest : List Lexeme}
    {as : List α} (h : Lines item ls as rest) : ∃ v, ⟨.dedent, v⟩ :: rest <:+ ls := by
  induction h with
  | done hn => exact ⟨_, hn.suffix⟩
  | next hn ha _ ih =>
    obtain ⟨v, hv⟩ := ih
    exact ⟨v, hv.trans ((hitem ha).1.trans hn.suffix)⟩

theorem block_closes {item : Phrase α} (hitem : Consumes item) {ls rest : List Lexeme}
    {as : List α} (h : Block item ls as rest) : ∃ v, ⟨.dedent, v⟩ :: rest <:+ ls := by
  obtain ⟨hn, hl⟩ := h
  obtain ⟨v, hv⟩ := lines_close hitem hl
  exact ⟨v, hv.trans ((List.suffix_cons _ _).trans hn.suffix)⟩

theorem classDecl_closes {n : Nat} {ls rest : List Lexeme} {c : Class}
    (h : ClassDecl (deeper n) ls c rest) : ∃ v, ⟨.dedent, v⟩ :: rest <:+ ls := by
  obtain ⟨hx, hxs, hb⟩ := h
  obtain ⟨v, hv⟩ := block_closes (classPart_consumes (deeper_consumes n)) hb
  have hhead := (word_consumes hx).trans_suffix hxs.suffix
  exact ⟨v, hv.trans ((List.suffix_cons _ _).trans hhead.1)⟩

theorem interfaceDecl_closes {ls rest : List Lexeme} {i : Interface}
    (h : InterfaceDecl ls i rest) : ∃ v, ⟨.dedent, v⟩ :: rest <:+ ls := by
  obtain ⟨hx, hb⟩ := h
  obtain ⟨v, hv⟩ := block_closes header_consumes hb
  exact ⟨v, hv.trans ((List.suffix_cons _ _).trans (word_consumes hx).1)⟩

theorem kind_of_newlines {ls : List Lexeme} (h : Newlines ls []) :
    ∀ l ∈ ls, l.kind = .newline := by
  generalize hend : [] = rest at h
  induction h with
  | none => exact hend ▸ nofun
  | next _ ih => exact List.forall_mem_cons.mpr ⟨rfl, ih hend⟩

/-- The list is empty or goes as far as the end of a block, and the rest is empty lines. -/
def EndsBlock (ls : List Lexeme) : Prop :=
  ∃ front rest, ls = front ++ rest ∧ (∀ l ∈ rest, l.kind = .newline) ∧
    ∀ l ∈ front.getLast?, l.kind = .dedent

theorem EndsBlock.behind {ls rest : List Lexeme} {v : Option String} (h : EndsBlock rest)
    (hrest : ⟨.dedent, v⟩ :: rest <:+ ls) : EndsBlock ls := by
  obtain ⟨before, rfl⟩ := hrest
  obtain ⟨front, lines, rfl, hlines, hlast⟩ := h
  refine ⟨before ++ ⟨.dedent, v⟩ :: front, lines, by simp, hlines, fun l hl => ?_⟩
  rw [List.getLast?_append_of_ne_nil _ (List.cons_ne_nil _ _), List.getLast?_cons] at hl
  rcases hfront : front.getLast? with _ | m <;> rw [hfront] at hl hlast <;> cases hl
  · rfl
  · exact hlast m rfl

theorem Declarations.endsBlock {n : Nat} {ls : List Lexeme} {ds : List Declaration}
    (h : Declarations (deeper n) ls ds) : EndsBlock ls := by
  induction h with
  | done hn => exact ⟨[], _, rfl, kind_of_newlines hn, nofun⟩
  | classDecl hn hc _ ih =>
    obtain ⟨v, hv⟩ := classDecl_closes hc
    exact ih.behind (hv.trans ((List.suffix_cons _ _).trans hn.suffix))
  | interfaceDecl hn hi _ ih =>
    obtain ⟨v, hv⟩ := interfaceDecl_closes hi
    exact ih.behind (hv.trans ((List.suffix_cons _ _).trans hn.suffix))

theorem strip_newlines : ∀ {ls : List Lexeme}, (∀ l ∈ ls, l.kind = .newline) →
    strip true ls = []
  | [], _ => rfl
  | ⟨k, v⟩ :: ls, h => by
    obtain ⟨rfl : k = .newline, hls⟩ := List.forall_mem_cons.mp h
    rw [strip_true_newline, strip_newlines hls]

/-- Where declarations have no block open, a line end behind them is that of an empty line. -/
theorem EndsBlock.strip_concat {ls : List Lexeme} {v : Option String}
    (h : EndsBlock (ls ++ [⟨.newline, v⟩])) :
    strip true (ls ++ [⟨.newline, v⟩]) = strip true ls := by
  obtain ⟨front, rest, hls, hrest, hlast⟩ := h
  have hfresh : ∀ l ∈ front.getLast?, startsFresh l.kind = true := by
    intro l hl
    rw [hlast l hl]
    rfl
  rcases List.eq_nil_or_concat rest with rfl | ⟨rest, l, rfl⟩
  · rw [List.append_nil] at hls
    cases hlast ⟨.newline, v⟩ (by rw [← hls]; simp)
  · rw [List.concat_eq_append] at hls hrest
    rw [← List.append_assoc] at hls
    obtain ⟨rfl, -⟩ := List.append_inj' hls rfl
    have hlines : ∀ l ∈ rest, l.kind = .newline := fun l hl => hrest l (List.mem_append_left _ hl)
    rw [hls, List.append_assoc, strip_front _ hfresh fun _ => rfl,
      strip_front _ hfresh fun _ => rfl, strip_newlines hrest, strip_newlines hlines]

/-- The line that the last block end is the end of may do without a line end. -/
theorem respaced_lastLine (k : Nat) : ∀ (ls : List Lexeme) (fresh : Bool),
    Respaced [] fresh (ls ++ ⟨.newline, none⟩ :: blockEnds (k + 1)) (ls ++ blockEnds (k + 1))
  | [], true => .drop (respaced_of_strip_eq rfl)
  | [], false => .leaveLine (respaced_of_strip_eq rfl)
  | _ :: ls, _ => .keep (respaced_lastLine k ls _)

/-- Declarations are the same with a line end in front of the block ends behind them. -/
theorem declarations_lastLine {n k : Nat} {ls : List Lexeme} {ds : List Declaration} :
    Declarations (deeper n) (ls ++ blockEnds k) ds ↔
      Declarations (deeper n) (ls ++ ⟨.newline, none⟩ :: blockEnds k) ds := by
  constructor
  · intro h
    have hnone : Declarations (deeper n) (lineEnds 0 ++ []) [] := .done .none
    simpa [lineEnds] using declarations_join h hnone
  · intro h
    rcases k with _ | k
    · rw [blockEnds, List.replicate_zero] at h ⊢
      rw [List.append_nil]
      exact declarations_congr h h.endsBlock.strip_concat
    · have happend := declarations_append (deeper_stable n) h (.done .none)
        (respaced_lastLine k ls true)
      rwa [List.append_nil] at happend

end Grammar

/-- The tokens of a text are those of a program with a line end in front of the ends of its blocks
and without one. -/
theorem derives_lastLine {n level line line' : Nat} {body : List Token} {source : String}
    {p : Program} : Derives n (lexemesOf (body ++ layout level 0 line)) p ↔
      Derives n (lexemesOf (body ++ newlineBehind source :: layout level 0 line')) p := by
  have hends : ∀ line, lexemesOf (layout level 0 line) = blockEnds level := fun line => by
    simp [lexemesOf_layout]
  have hline : lexemesOf (newlineBehind source :: layout level 0 line') =
      ⟨.newline, none⟩ :: blockEnds level := by
    rw [← hends line']
    rfl
  rw [lexemesOf_append, lexemesOf_append, hends, hline]
  exact exists_congr fun ds => and_congr_left fun _ => declarations_lastLine

/-- A text is read as the same program with a line feed at its end and without one. -/
theorem parseSource_newline_iff (source : String) (p : Program) :
    parseSource source = .ok p ↔ parseSource (source ++ "\n") = .ok p := by
  constructor
  · intro h
    obtain ⟨tokens, htokens, hp⟩ := parseSource_ok h
    obtain ⟨body, level, hscans, hbalance, rfl⟩ := tokenize_eq_ok_iff.mp htokens
    exact parseSource_of_derives (tokenize_newline_iff.mpr ⟨body, level, hscans, hbalance, rfl⟩)
      (derives_lastLine.mp hp)
  · intro h
    obtain ⟨tokens, htokens, hp⟩ := parseSource_ok h
    obtain ⟨body, level, hscans, hbalance, rfl⟩ := tokenize_newline_iff.mp htokens
    exact parseSource_of_derives (tokenize_eq_ok_iff.mpr ⟨body, level, hscans, hbalance, rfl⟩)
      (derives_lastLine.mpr hp)

end Offside
