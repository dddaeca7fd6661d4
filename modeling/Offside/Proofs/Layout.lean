import Offside.Proofs.Acceptance
import Offside.Proofs.LineEnds
import Offside.Proofs.Spelling

/-!
# Lines in writing

The layout that a line causes depends on the level of the line before it, so a text of lines
says what it adds at its own level: to the lexemes there were once the scanner is taken to
that level, it adds those of the text, and leaves the scanner at a level that is no lower
(`Scanner.lexemesAt`, `Breaks`). Stated like this, texts follow each other (`Passage.append`,
`Paragraph.append`), and a deeper text adds a block (`passage_body`).

A `Passage` starts inside a line and a `Paragraph` at the start of one; a `Stanza` is a
paragraph, or nothing at all. The main statement is `tokenize_print`: a program that can be
written is scanned to the lexemes read off its tree, but for line ends of empty lines.
-/

namespace Offside

open Grammar

namespace Scanner

/-- The tokens so far, with the layout that takes the scanner to level `d`. -/
def lexemesAt (s : Scanner) (d : Nat) : List Lexeme :=
  (s.indentTo d).lexemes

theorem lexemes_pushLayout (k : Kind) : ∀ (n : Nat) (s : Scanner),
    (s.pushLayout k n).lexemes = s.lexemes ++ List.replicate n ⟨k, none⟩
  | 0, s => by simp [pushLayout]
  | n + 1, s => by
    rw [pushLayout, lexemes_pushLayout k n, lexemes_pushPlain, List.append_assoc,
      List.replicate_succ]
    rfl

theorem parens_pushLayout (k : Kind) : ∀ (n : Nat) (s : Scanner),
    (s.pushLayout k n).parens = s.parens
  | 0, _ => rfl
  | n + 1, _ => parens_pushLayout k n _

theorem mode_pushLayout (k : Kind) : ∀ (n : Nat) (s : Scanner), (s.pushLayout k n).mode = s.mode
  | 0, _ => rfl
  | n + 1, _ => mode_pushLayout k n _

theorem mode_indentTo (s : Scanner) (d : Nat) : (s.indentTo d).mode = s.mode := by
  show ((s.pushLayout .indent (d - s.level)).pushLayout .dedent (s.level - d)).mode = _
  rw [mode_pushLayout, mode_pushLayout]

theorem parens_indentTo (s : Scanner) (d : Nat) : (s.indentTo d).parens = s.parens := by
  show ((s.pushLayout .indent (d - s.level)).pushLayout .dedent (s.level - d)).parens = _
  rw [parens_pushLayout, parens_pushLayout]

theorem lexemesAt_eq (s : Scanner) (d : Nat) :
    s.lexemesAt d = s.lexemes ++ List.replicate (d - s.level) ⟨.indent, none⟩ ++
      List.replicate (s.level - d) ⟨.dedent, none⟩ := by
  show ((s.pushLayout .indent (d - s.level)).pushLayout .dedent (s.level - d)).lexemes = _
  rw [lexemes_pushLayout, lexemes_pushLayout]

theorem lexemesAt_of_level {s : Scanner} {d : Nat} (h : s.level = d) :
    s.lexemesAt d = s.lexemes := by
  rw [lexemesAt_eq, h, Nat.sub_self]
  simp

/-- From a line to a deeper one, a block starts. -/
theorem lexemesAt_succ {s : Scanner} {d : Nat} (h : s.level = d) :
    s.lexemesAt (d + 1) = s.lexemes ++ [⟨.indent, none⟩] := by
  have h₁ : d + 1 - s.level = 1 := by omega
  have h₂ : s.level - (d + 1) = 0 := by omega
  rw [lexemesAt_eq, h₁, h₂]
  simp

/-- From deeper lines back, a block ends. -/
theorem lexemesAt_of_deeper {s : Scanner} {d : Nat} (h : d + 1 ≤ s.level) :
    s.lexemesAt d = s.lexemesAt (d + 1) ++ [⟨.dedent, none⟩] := by
  have h₁ : d - s.level = 0 := by omega
  have h₂ : d + 1 - s.level = 0 := by omega
  have h₃ : s.level - d = s.level - (d + 1) + 1 := by omega
  rw [lexemesAt_eq, lexemesAt_eq, h₁, h₂, h₃, List.replicate_succ', List.append_assoc,
    List.append_assoc, List.append_assoc]

/-- Lines have been read since `s` up to the start of a line, at a level of at least `d`; the
lexemes at level `d` are `ls` now, and the same parentheses are open. -/
structure Breaks (s : Scanner) (d : Nat) (ls : List Lexeme) (s' : Scanner) : Prop where
  mode : s'.mode = .margin 0 0
  level : d ≤ s'.level
  parens : s'.parens = s.parens
  fresh : ∃ before, s'.lexemes = before ++ [⟨.newline, none⟩]
  lexemes : s'.lexemesAt d = ls

end Scanner

open Scanner

/-- The text starts with a letter. -/
def StartsWithLetter (text : String) : Prop :=
  text.toList.head?.any Unicode.isAlphabetic = true

/-- The rest of a line at level `d`, from its first letter on, and lines that follow. -/
structure Passage (d : Nat) (text : String) (ls : List Lexeme) : Prop where
  starts : StartsWithLetter text
  nonempty : ls ≠ []
  reads : ∀ s : Scanner, s.mode = .gap → s.level = d → ∃ s',
    Breaks s d (s.lexemes ++ ls) s' ∧ ∀ rest, s.scan (text.toList ++ rest) = s'.scan rest

/-- Lines that start at level `d`. -/
structure Paragraph (d : Nat) (text : String) (ls : List Lexeme) : Prop where
  nonempty : ls ≠ []
  reads : ∀ s : Scanner, s.mode = .margin 0 0 → ∃ s',
    Breaks s d (s.lexemesAt d ++ ls) s' ∧ ∀ rest, s.scan (text.toList ++ rest) = s'.scan rest

/-- Lines that start at level `d`, or no line at all. -/
def Stanza (d : Nat) (text : String) (ls : List Lexeme) : Prop :=
  (text = "" ∧ ls = []) ∨ Paragraph d text ls

/-! ## Putting lines together -/

section

variable {d : Nat} {t u : String} {ls ms : List Lexeme}

theorem startsWithLetter_append (h : StartsWithLetter t) (u : String) :
    StartsWithLetter (t ++ u) := by
  rw [StartsWithLetter] at h ⊢
  rcases hcs : t.toList with _ | ⟨c, cs⟩
  · rw [hcs] at h
    cases h
  · rw [hcs] at h
    simpa [hcs] using h

theorem Paragraph.append (h : Paragraph d t ls) (h' : Paragraph d u ms) :
    Paragraph d (t ++ u) (ls ++ ms) where
  nonempty := by simp [h.nonempty]
  reads := by
    intro s hs
    obtain ⟨mid, hmid, hscan⟩ := h.reads s hs
    obtain ⟨s', hs', hscan'⟩ := h'.reads mid hmid.mode
    refine ⟨s', ⟨hs'.mode, hs'.level, hs'.parens.trans hmid.parens, hs'.fresh, ?_⟩, ?_⟩
    · rw [hs'.lexemes, hmid.lexemes, List.append_assoc]
    · intro rest
      rw [String.toList_append, List.append_assoc, hscan, hscan']

theorem Passage.append (h : Passage d t ls) (h' : Paragraph d u ms) :
    Passage d (t ++ u) (ls ++ ms) where
  starts := startsWithLetter_append h.starts u
  nonempty := by simp [h.nonempty]
  reads := by
    intro s hs hd
    obtain ⟨mid, hmid, hscan⟩ := h.reads s hs hd
    obtain ⟨s', hs', hscan'⟩ := h'.reads mid hmid.mode
    refine ⟨s', ⟨hs'.mode, hs'.level, hs'.parens.trans hmid.parens, hs'.fresh, ?_⟩, ?_⟩
    · rw [hs'.lexemes, hmid.lexemes, List.append_assoc]
    · intro rest
      rw [String.toList_append, List.append_assoc, hscan, hscan']

theorem Passage.append_stanza (h : Passage d t ls) (h' : Stanza d u ms) :
    Passage d (t ++ u) (ls ++ ms) := by
  rcases h' with ⟨rfl, rfl⟩ | h'
  · simpa using h
  · exact h.append h'

theorem Paragraph.append_stanza (h : Paragraph d t ls) (h' : Stanza d u ms) :
    Paragraph d (t ++ u) (ls ++ ms) := by
  rcases h' with ⟨rfl, rfl⟩ | h'
  · simpa using h
  · exact h.append h'

theorem Stanza.append (h : Stanza d t ls) (h' : Stanza d u ms) :
    Stanza d (t ++ u) (ls ++ ms) := by
  rcases h with ⟨rfl, rfl⟩ | h
  · simpa using h'
  · exact Or.inr (h.append_stanza h')

theorem stanza_join {α : Type} {f : α → String} {g : α → List Lexeme} :
    ∀ {items : List α}, (∀ a ∈ items, Paragraph d (f a) (g a)) →
      Stanza d (String.join (items.map f)) (items.flatMap g)
  | [], _ => Or.inl ⟨by simp, rfl⟩
  | a :: items, h => by
    have hrest : Stanza d (String.join (items.map f)) (items.flatMap g) :=
      stanza_join fun b hb => h b (List.mem_cons_of_mem _ hb)
    have hcons := (h a (by simp)).append_stanza hrest
    exact Or.inr (by simpa [String.join_cons] using hcons)

/-- A word and a space in front leave a passage a passage. -/
theorem Passage.behind (h : Spells Anything t ls) (ht : StartsWithLetter t)
    (h' : Passage d u ms) : Passage d (t ++ u) (ls ++ ms) where
  starts := startsWithLetter_append ht u
  nonempty := by simp [h'.nonempty]
  reads := by
    intro s hs hd
    obtain ⟨mid, hmid, hscan⟩ := h s hs
    obtain ⟨s', hs', hscan'⟩ := h'.reads mid hmid.mode (hmid.level.trans hd)
    refine ⟨s', ⟨hs'.mode, hs'.level, hs'.parens.trans hmid.parens, hs'.fresh, ?_⟩, ?_⟩
    · rw [hs'.lexemes, hmid.lexemes, List.append_assoc]
    · intro rest
      rw [String.toList_append, List.append_assoc, hscan _ trivial, hscan']

/-! ## One line -/

/-- A line ends at its own level. -/
theorem scan_line (h : Spells AfterValue t ls) {s : Scanner} (hs : s.mode = .gap)
    (hd : s.level = d) : ∃ s', Breaks s d (s.lexemes ++ (ls ++ [⟨.newline, none⟩])) s' ∧
      s'.level = d ∧ ∀ rest, s.scan ((t ++ "\n").toList ++ rest) = s'.scan rest := by
  obtain ⟨mid, hmid, hscan⟩ := h s hs
  have hstep : mid.step '\n' =
      (mid.pushPlain .newline mid.position).enter '\n' (.margin 0 0) := by
    simp only [step, hmid.mode]
    rfl
  have hlevel : (mid.step '\n').level = d := by
    rw [hstep]
    exact hmid.level.trans hd
  have hlexemes : (mid.step '\n').lexemes = s.lexemes ++ (ls ++ [⟨.newline, none⟩]) := by
    rw [hstep, lexemes_enter, lexemes_pushPlain, hmid.lexemes, List.append_assoc]
  refine ⟨mid.step '\n', ⟨?_, Nat.le_of_eq hlevel.symm, ?_, ⟨s.lexemes ++ ls, ?_⟩, ?_⟩, hlevel,
    fun rest => ?_⟩
  · rw [hstep]
    rfl
  · rw [hstep]
    exact hmid.parens
  · rw [hlexemes, List.append_assoc]
  · rw [lexemesAt_of_level hlevel, hlexemes]
  · have htext : (t ++ "\n").toList ++ rest = t.toList ++ '\n' :: rest := by simp
    rw [htext, hscan _ (afterValue_cons (by simp) rest), scan_cons]

theorem passage_line (h : Spells AfterValue t ls) (ht : StartsWithLetter t) :
    Passage d (t ++ "\n") (ls ++ [⟨.newline, none⟩]) where
  starts := startsWithLetter_append ht _
  nonempty := by simp
  reads := by
    intro s hs hd
    obtain ⟨s', hs', -, hscan⟩ := scan_line h hs hd
    exact ⟨s', hs', hscan⟩

/-- A line and the deeper lines under it. -/
theorem passage_body (h : Spells AfterValue t ls) (ht : StartsWithLetter t)
    (hbody : Stanza (d + 1) u ms) :
    Passage d (t ++ "\n" ++ u) (ls ++ ⟨.newline, none⟩ :: indented ms) := by
  rcases hbody with ⟨rfl, rfl⟩ | hbody
  · simpa [indented] using passage_line h ht
  · refine ⟨startsWithLetter_append (startsWithLetter_append ht _) u, by simp, ?_⟩
    intro s hs hd
    obtain ⟨mid, hmid, hlevel, hscan⟩ := scan_line h hs hd
    obtain ⟨s', hs', hscan'⟩ := hbody.reads mid hmid.mode
    have hopen : mid.lexemesAt (d + 1) =
        s.lexemes ++ (ls ++ [⟨.newline, none⟩]) ++ [⟨.indent, none⟩] := by
      rw [lexemesAt_succ hlevel, ← lexemesAt_of_level hlevel, hmid.lexemes]
    have hlevel' : d ≤ s'.level := by
      have := hs'.level
      omega
    refine ⟨s', ⟨hs'.mode, hlevel', hs'.parens.trans hmid.parens, hs'.fresh, ?_⟩, ?_⟩
    · rw [lexemesAt_of_deeper hs'.level, hs'.lexemes, hopen]
      simp [indented, hbody.nonempty]
    · intro rest
      rw [String.toList_append, List.append_assoc, hscan, hscan']

/-- The tabs in front of a line are its margin. -/
theorem scan_indentation : ∀ (n : Nat) (s : Scanner) (k : Nat), s.mode = .margin k 0 →
    ∃ p, s.scan (indentation n).toList = { s with position := p, mode := .margin (k + n) 0 }
  | 0, s, k, hs => ⟨s.position, by simp [indentation, scan, ← hs]⟩
  | n + 1, s, k, hs => by
    have hstep : s.step '\t' = s.enter '\t' (.margin (k + 1) 0) := by
      simp only [step, hs]
      rfl
    obtain ⟨p, hp⟩ := scan_indentation n (s.step '\t') (k + 1) (congrArg Scanner.mode hstep)
    have hk : k + 1 + n = k + (n + 1) := by omega
    refine ⟨p, ?_⟩
    have htabs : (indentation (n + 1)).toList = '\t' :: (indentation n).toList := by
      simp [indentation, List.replicate_succ]
    rw [htabs, scan_cons, hp, hstep, hk]
    rfl

/-- The first letter of a line brings its layout. -/
theorem step_margin {s : Scanner} {k n : Nat} (hs : s.mode = .margin k n) {c : Char}
    (hc : Unicode.isAlphabetic c = true) : s.step c = (s.indentTo k).begin c := by
  have hne : ∀ b, Unicode.isAlphabetic b = false → c ≠ b := by
    rintro b hb rfl
    rw [hb] at hc
    cases hc
  simp only [step, hs, hne ' ' rfl, hne '\t' rfl, hne '\r' rfl, hne '\n' rfl, if_false]

theorem Passage.paragraph (h : Passage d t ls) : Paragraph d (indentation d ++ t) ls where
  nonempty := h.nonempty
  reads := by
    intro s hs
    obtain ⟨p, hp⟩ := scan_indentation d s 0 hs
    rw [Nat.zero_add] at hp
    let margin : Scanner := { s with position := p, mode := .margin d 0 }
    have hat : (margin.indentTo d).between.lexemes = s.lexemesAt d := by
      rw [lexemesAt_eq]
      exact lexemesAt_eq margin d
    obtain ⟨s', hs', hscan⟩ := h.reads (margin.indentTo d).between rfl rfl
    rw [hat] at hs'
    refine ⟨s', ⟨hs'.mode, hs'.level, ?_, hs'.fresh, hs'.lexemes⟩, fun rest => ?_⟩
    · exact hs'.parens.trans (parens_indentTo margin d)
    · have hstart := h.starts
      rw [StartsWithLetter] at hstart
      rcases hcs : t.toList with _ | ⟨c, cs⟩
      · rw [hcs] at hstart
        cases hstart
      · rw [hcs] at hstart hscan
        rw [String.toList_append, List.append_assoc, scan_append, hp, hcs, ← hscan rest]
        show margin.scan (c :: (cs ++ rest)) = (margin.indentTo d).between.scan (c :: (cs ++ rest))
        rw [scan_between, scan_cons, step_margin rfl hstart]

end

/-! ## Statements -/

theorem startsWithLetter_name {x : String} (h : isIdentifier x = true) : StartsWithLetter x := by
  simp only [isIdentifier, Bool.and_eq_true] at h
  exact h.1.1

theorem startsWithLetter_names {x : String} (names : List String) (h : isIdentifier x = true) :
    StartsWithLetter (commaList (x :: names)) := by
  rcases names with _ | ⟨y, names⟩
  · simpa [commaList] using startsWithLetter_name h
  · simpa [commaList, String.append_assoc] using
      startsWithLetter_append (startsWithLetter_name h) _

theorem startsWithLetter_call {c : Call} (h : c.toExpr.isCanonical = true) :
    StartsWithLetter c.print := by
  obtain ⟨receiver, method, arguments⟩ := c
  simp only [Call.toExpr, Expr.isCanonical, Bool.and_eq_true] at h
  cases receiver with
  | none =>
    simpa [Call.print, Call.toExpr, Expr.print, String.append_assoc] using
      startsWithLetter_append (startsWithLetter_name h.1.2) _
  | some r =>
    simpa [Call.print, Call.toExpr, Expr.print, String.append_assoc] using
      startsWithLetter_append (startsWithLetter_name h.1.1) _

theorem spells_targets {targets : List String} (h : areTargets targets = true) :
    Spells Anything (Stmt.printTargets targets) (targetLexemes targets) ∧
      StartsWithLetter (Stmt.printTargets targets) := by
  simp only [areTargets, Bool.and_eq_true] at h
  refine ⟨(spells_names h.2).append spells_assign fun rest _ => behind_text ' ' rfl rfl rest, ?_⟩
  rcases targets with _ | ⟨x, targets⟩
  · cases h.1
  · rw [List.all_cons, Bool.and_eq_true] at h
    exact startsWithLetter_append (startsWithLetter_names _ h.2.1) _

namespace Stmt

mutual

theorem passage_printAt : ∀ {s : Stmt} (d : Nat), s.isCanonical = true →
    Passage d (printAt d s) s.lexemes
  | assign targets value, d, h => by
    simp only [isCanonical, Bool.and_eq_true] at h
    obtain ⟨htargets, hletter⟩ := spells_targets h.1.1
    have hline := passage_line (d := d) (htargets.then (Expr.spells_print h.1.2))
      (startsWithLetter_append hletter _)
    simpa [printAt, lexemes] using hline
  | call none c, d, h => by
    simp only [isCanonical, Bool.and_eq_true] at h
    have hline := passage_line (d := d) (Expr.spells_print h.2) (startsWithLetter_call h.2)
    simpa [printAt, lexemes, Call.print] using hline
  | call (some targets) c, d, h => by
    simp only [isCanonical, Bool.and_eq_true, Option.all_some] at h
    obtain ⟨htargets, hletter⟩ := spells_targets h.1
    have hline := passage_line (d := d) (htargets.then (Expr.spells_print h.2))
      (startsWithLetter_append hletter _)
    simpa [printAt, lexemes, Call.print] using hline
  | cond condition body otherwise, d, h => by
    simp only [isCanonical, Bool.and_eq_true] at h
    have hif : Spells Anything "if " [⟨.kwIf, none⟩] := spells_keyword_space "if" rfl rfl rfl
    have hletter : StartsWithLetter "if " := rfl
    have hbody := passage_body (hif.then (Expr.spells_condition h.1.1))
      (startsWithLetter_append hletter _) (stanza_printBlock (d + 1) h.1.2)
    have hall := hbody.append_stanza (stanza_printOtherwise d h.2)
    simpa [printAt, lexemes, String.append_assoc] using hall
  | loop none condition body, d, h => by
    simp only [isCanonical, Bool.and_eq_true] at h
    have hloop : Spells Anything "loop " [⟨.kwLoop, none⟩] :=
      spells_keyword_space "loop" rfl rfl rfl
    have hletter : StartsWithLetter "loop " := rfl
    have hbody := passage_body (hloop.then (Expr.spells_condition h.1.2))
      (startsWithLetter_append hletter _) (stanza_printBlock (d + 1) h.2)
    simpa [printAt, lexemes, String.append_assoc] using hbody
  | loop (some x) condition body, d, h => by
    simp only [isCanonical, Bool.and_eq_true, Option.all_some] at h
    have hloop : Spells Anything "loop " [⟨.kwLoop, none⟩] :=
      spells_keyword_space "loop" rfl rfl rfl
    have hletter : StartsWithLetter "loop " := rfl
    have hvariable := (spells_name h.1.1).append spells_assign
      fun rest _ => behind_text ' ' rfl rfl rest
    have hbody := passage_body (hloop.then (hvariable.then (Expr.spells_condition h.1.2)))
      (startsWithLetter_append hletter _) (stanza_printBlock (d + 1) h.2)
    simpa [printAt, lexemes, String.append_assoc] using hbody

theorem stanza_printBlock : ∀ {body : List Stmt} (d : Nat), allCanonical body = true →
    Stanza d (printBlock d body) (bodyLexemes body)
  | [], d, _ => Or.inl ⟨by simp [printBlock], rfl⟩
  | s :: rest, d, h => by
    simp only [allCanonical, Bool.and_eq_true] at h
    have hcons := (passage_printAt d h.1).paragraph.append_stanza (stanza_printBlock d h.2)
    exact Or.inr (by simpa [printBlock, bodyLexemes] using hcons)

theorem stanza_printOtherwise : ∀ {o : Otherwise} (d : Nat), otherwiseCanonical o = true →
    Stanza d (printOtherwise d o) (otherwiseLexemes o)
  | .nothing, d, _ => Or.inl ⟨by simp [printOtherwise], rfl⟩
  | .single s, d, h => by
    simp only [otherwiseCanonical] at h
    have hs := passage_printAt d h
    by_cases hcond : s.isCond = true
    · have helse : Spells Anything "else " [⟨.kwElse, none⟩] :=
        spells_keyword_space "else" rfl rfl rfl
      have hline := (Passage.behind helse rfl hs).paragraph
      exact Or.inr (by
        simpa [printOtherwise, otherwiseLexemes, hcond, String.append_assoc] using hline)
    · have helse : Spells AfterValue "else" [⟨.kwElse, none⟩] :=
        (spells_keyword "else" rfl rfl rfl).value
      have hline := ((passage_line (d := d) helse rfl).append hs.paragraph).paragraph
      have htext : printOtherwise d (.single s) =
          indentation d ++ ("else" ++ "\n" ++ (indentation d ++ printAt d s)) := by
        rw [printOtherwise, if_neg hcond]
        simp only [String.append_assoc]
      rw [htext]
      exact Or.inr (by simpa [otherwiseLexemes, hcond] using hline)
  | .block body, d, h => by
    simp only [otherwiseCanonical] at h
    have helse : Spells AfterValue "else" [⟨.kwElse, none⟩] :=
      (spells_keyword "else" rfl rfl rfl).value
    have hblock := (passage_body helse rfl (stanza_printBlock (d + 1) h)).paragraph
    exact Or.inr (by
      simpa [printOtherwise, otherwiseLexemes, String.append_assoc] using hblock)

end

end Stmt

/-! ## Declarations -/

theorem VarDecl.isCanonical_of_isParameter {d : VarDecl} (h : d.isParameter = true) :
    d.isCanonical = true := by
  simp only [isParameter, Bool.and_eq_true, Option.isNone_iff_eq_none] at h
  simp [isCanonical, h.1, h.2]

theorem spells_varDecl {d : VarDecl} (h : d.isCanonical = true) :
    Spells AfterValue d.print d.lexemes ∧ StartsWithLetter d.print := by
  obtain ⟨typeName, name, initializer⟩ := d
  simp only [VarDecl.isCanonical, Bool.and_eq_true] at h
  have hletter := startsWithLetter_name h.1.1
  have htype := (spells_name h.1.1).append spells_space fun rest _ => behind_text ' ' rfl rfl rest
  cases initializer with
  | none =>
    have hdecl := htype.then (spells_name h.1.2).value
    exact ⟨by simpa [VarDecl.print, VarDecl.lexemes] using hdecl,
      by simpa [VarDecl.print, String.append_assoc] using startsWithLetter_append hletter _⟩
  | some value =>
    have hname := (spells_name h.1.2).append spells_assign
      fun rest _ => behind_text ' ' rfl rfl rest
    have hdecl := htype.then (hname.then (Expr.spells_print h.2))
    exact ⟨by simpa [VarDecl.print, VarDecl.lexemes, String.append_assoc] using hdecl,
      by simpa [VarDecl.print, String.append_assoc] using startsWithLetter_append hletter _⟩

theorem paragraph_varDecl {d : VarDecl} (k : Nat) (h : d.isCanonical = true) :
    Paragraph k (indentation k ++ d.print ++ "\n") d.lineLexemes := by
  obtain ⟨hspells, hletter⟩ := spells_varDecl h
  simpa [VarDecl.lineLexemes, String.append_assoc] using
    (passage_line (d := k) hspells hletter).paragraph

theorem spells_returnDecl {r : ReturnDecl} (h : r.isCanonical = true) :
    Spells AfterValue r.print r.lexemes := by
  obtain ⟨typeName, name⟩ := r
  simp only [ReturnDecl.isCanonical, Bool.and_eq_true] at h
  cases name with
  | none => simpa [ReturnDecl.print, ReturnDecl.lexemes] using (spells_name h.1).value
  | some x =>
    have htype := (spells_name h.1).append spells_space
      fun rest _ => behind_text ' ' rfl rfl rest
    simpa [ReturnDecl.print, ReturnDecl.lexemes, String.append_assoc] using
      htype.then (spells_name (x := x) h.2).value

theorem spells_parameters {parameters : List VarDecl}
    (h : parameters.all VarDecl.isParameter = true) :
    Spells AfterValue (commaList (parameters.map VarDecl.print))
      (separated (parameters.map VarDecl.lexemes)) :=
  spells_commaList fun d hd =>
    (spells_varDecl (VarDecl.isCanonical_of_isParameter (List.all_eq_true.mp h d hd))).1

/-- The header of a method without the end of its line. -/
theorem spells_header {h : MethodHeader} (hc : h.isCanonical = true) :
    ∃ t ls, h.print = t ++ "\n" ∧ h.lexemes = ls ++ [⟨.newline, none⟩] ∧
      Spells AfterValue t ls ∧ StartsWithLetter t := by
  obtain ⟨name, parameters, returns⟩ := h
  simp only [MethodHeader.isCanonical, Bool.and_eq_true] at hc
  have hletter := startsWithLetter_name hc.1.1
  have happlied := spells_applied hc.1.1 (spells_parameters hc.1.2)
  refine ⟨_, _, rfl, rfl, ?_, by
    simpa [String.append_assoc] using startsWithLetter_append hletter _⟩
  rcases returns with _ | ⟨r, returns⟩
  · simpa [parameterLexemes] using happlied.closed
  · have hreturns := spells_commaList (f := ReturnDecl.print) (g := ReturnDecl.lexemes)
      fun r hr => spells_returnDecl (List.all_eq_true.mp hc.2 r hr)
    simpa [parameterLexemes, String.append_assoc] using happlied.then (spells_colon.then hreturns)

theorem passage_interface {i : Interface} (h : i.isCanonical = true) :
    Passage 0 i.print i.lexemes := by
  simp only [Interface.isCanonical, Bool.and_eq_true] at h
  have hkeyword : Spells Anything "interface " [⟨.kwInterface, none⟩] :=
    spells_keyword_space "interface" rfl rfl rfl
  have hletter : StartsWithLetter "interface " := rfl
  have hmethods : Stanza 1 (String.join (i.methods.map fun h => indentation 1 ++ h.print))
      (i.methods.flatMap MethodHeader.lexemes) := by
    refine stanza_join fun h' hh => ?_
    obtain ⟨t, ls, ht, hls, hspells, hstart⟩ := spells_header (List.all_eq_true.mp h.2 h' hh)
    rw [ht, hls]
    exact (passage_line hspells hstart).paragraph
  have hall := passage_body (hkeyword.then (spells_name h.1).value)
    (startsWithLetter_append hletter _) hmethods
  simpa [Interface.print, Interface.lexemes, String.append_assoc] using hall

theorem stanza_methodBody {b : MethodBody} (h : b.isCanonical = true) :
    Stanza 2 b.print b.lexemes := by
  simp only [MethodBody.isCanonical, Bool.and_eq_true] at h
  have hlocals : Stanza 2 (String.join (b.locals.map fun d => indentation 2 ++ d.print ++ "\n"))
      (b.locals.flatMap VarDecl.lineLexemes) :=
    stanza_join fun d hd => paragraph_varDecl 2 (List.all_eq_true.mp h.1 d hd)
  exact hlocals.append (Stmt.stanza_printBlock 2 h.2)

theorem paragraph_constructor {c : Constructor} (h : c.isCanonical = true) :
    Paragraph 1 c.print c.lexemes := by
  simp only [Constructor.isCanonical, Bool.and_eq_true] at h
  have hkeyword := spells_keyword "construct" (k := .kwConstruct) rfl rfl rfl
  have hletter : StartsWithLetter "construct" := rfl
  have hgroup := (spells_parameters h.1).group fun rest => afterValue_cons (by simp) rest
  have hheader := hkeyword.append hgroup fun rest _ => behind_text '(' (by simp) rfl rest
  have hall := passage_body hheader.closed (startsWithLetter_append hletter _)
    (stanza_methodBody h.2)
  have htext : c.print = indentation 1 ++ ("construct" ++ ("(" ++
      commaList (c.parameters.map VarDecl.print) ++ ")") ++ "\n" ++ c.body.print) := by
    have hopen : "construct(" = "construct" ++ "(" := rfl
    have hclose : ")\n" = ")" ++ "\n" := rfl
    simp only [Constructor.print, hopen, hclose, String.append_assoc]
  rw [htext]
  simpa [Constructor.lexemes, parameterLexemes] using hall.paragraph

/-- A mark in front of a header, if it is set. -/
theorem Passage.behind_mark {d : Nat} {text t : String} {k : Kind} {ls : List Lexeme}
    (h : Spells Anything text [⟨k, none⟩]) (ht : StartsWithLetter text) (h' : Passage d t ls) :
    ∀ b : Bool, Passage d ((if b then text else "") ++ t) ((if b then [⟨k, none⟩] else []) ++ ls)
  | false => by simpa using h'
  | true => by simpa using h'.behind h ht

theorem paragraph_method {m : Method} (h : m.isCanonical = true) :
    Paragraph 1 m.print m.lexemes := by
  simp only [Method.isCanonical, Bool.and_eq_true] at h
  obtain ⟨t, ls, ht, hls, hspells, hstart⟩ := spells_header h.1
  have hprivate : Spells Anything "private " [⟨.kwPrivate, none⟩] :=
    spells_keyword_space "private" rfl rfl rfl
  have hshared : Spells Anything "shared " [⟨.kwShared, none⟩] :=
    spells_keyword_space "shared" rfl rfl rfl
  have hbody := passage_body hspells hstart (stanza_methodBody h.2)
  have hmarked := (hbody.behind_mark hshared rfl m.isShared).behind_mark hprivate rfl m.isPrivate
  simpa [Method.print, Method.lexemes, ht, hls, String.append_assoc] using hmarked.paragraph

theorem stanza_classParts {c : Class} (h : c.isCanonical = true) :
    Stanza 1 (String.join (c.members.map fun d => indentation 1 ++ d.print ++ "\n") ++
      String.join (c.constructors.map Constructor.print) ++
      String.join (c.methods.map Method.print)) c.partLexemes := by
  simp only [Class.isCanonical, Bool.and_eq_true] at h
  have hmembers : Stanza 1 (String.join (c.members.map fun d => indentation 1 ++ d.print ++ "\n"))
      (c.members.flatMap VarDecl.lineLexemes) :=
    stanza_join fun d hd => paragraph_varDecl 1 (List.all_eq_true.mp h.2 d hd)
  have hconstructors : Stanza 1 (String.join (c.constructors.map Constructor.print))
      (c.constructors.flatMap Constructor.lexemes) :=
    stanza_join fun k hk => paragraph_constructor (List.all_eq_true.mp h.1.1.2 k hk)
  have hmethods : Stanza 1 (String.join (c.methods.map Method.print))
      (c.methods.flatMap Method.lexemes) :=
    stanza_join fun m hm => paragraph_method (List.all_eq_true.mp h.1.2 m hm)
  exact (hmembers.append hconstructors).append hmethods

theorem passage_class {c : Class} (h : c.isCanonical = true) : Passage 0 c.print c.lexemes := by
  have hparts := stanza_classParts h
  simp only [Class.isCanonical, Bool.and_eq_true] at h
  have hkeyword : Spells Anything "class " [⟨.kwClass, none⟩] :=
    spells_keyword_space "class" rfl rfl rfl
  have hletter : StartsWithLetter "class " := rfl
  have himplements : Spells Anything " implements " [⟨.kwImplements, none⟩] :=
    spells_space.then (spells_keyword_space "implements" rfl rfl rfl)
  have hheader : Spells AfterValue
      (c.name ++ if c.interfaces.isEmpty then "" else " implements " ++ commaList c.interfaces)
      (nameLexeme c.name :: if c.interfaces.isEmpty then []
        else ⟨.kwImplements, none⟩ :: separated (c.interfaces.map fun x => [nameLexeme x])) := by
    cases hempty : c.interfaces.isEmpty with
    | true => simpa using (spells_name h.1.1.1.1).value
    | false =>
      exact (spells_name h.1.1.1.1).append (himplements.then (spells_names h.1.1.1.2))
        fun rest _ => behind_text ' ' (by simp) rfl rest
  have hall := passage_body (hkeyword.then hheader) (startsWithLetter_append hletter _) hparts
  simpa [Class.print, Class.lexemes, String.append_assoc] using hall

/-! ## Programs -/

/-- Behind the end of a line, an empty line leaves nothing. -/
theorem strip_blank (v w : Option String) (ms : List Lexeme) :
    ∀ (before : List Lexeme) (fresh : Bool),
      strip fresh (before ++ ⟨.newline, v⟩ :: ⟨.newline, w⟩ :: ms) =
        strip fresh (before ++ ⟨.newline, v⟩ :: ms)
  | [], fresh => by cases fresh <;> simp [strip, startsFresh]
  | l :: before, fresh => by
    simp only [List.cons_append, strip]
    rw [strip_blank v w ms before, strip_blank v w ms before]

/-- An empty line changes nothing but for its own end. -/
theorem scan_blank {s s' : Scanner} {ls : List Lexeme} (h : Breaks s 0 ls s') :
    ∃ t : Scanner, t.mode = .margin 0 0 ∧ t.parens = s'.parens ∧
      (∀ rest, s'.scan ('\n' :: rest) = t.scan rest) ∧
      ∀ ms, strip true (t.lexemesAt 0 ++ ms) = strip true (ls ++ ms) := by
  have hstep : s'.step '\n' = (s'.pushPlain .newline s'.position).enter '\n' (.margin 0 0) := by
    simp only [step, h.mode]
    rfl
  have hlevel : (s'.step '\n').level = s'.level := by rw [hstep]; rfl
  obtain ⟨before, hbefore⟩ := h.fresh
  refine ⟨s'.step '\n', by rw [hstep]; rfl, by rw [hstep]; rfl, fun rest => rfl, fun ms => ?_⟩
  have hlexemes : (s'.step '\n').lexemes =
      before ++ [⟨.newline, none⟩, ⟨.newline, none⟩] := by
    rw [hstep, lexemes_enter, lexemes_pushPlain, hbefore, List.append_assoc]
    rfl
  rw [← h.lexemes, lexemesAt_eq, lexemesAt_eq, hlevel, hlexemes, hbefore]
  simpa using strip_blank _ _ _ before true

/-- Declarations with an empty line between each two. -/
theorem scan_declarations : ∀ (items : List (String × List Lexeme)) (s : Scanner), items ≠ [] →
    (∀ a ∈ items, Paragraph 0 a.1 a.2) → s.mode = .margin 0 0 →
      ∃ s', s.scan ("\n".intercalate (items.map Prod.fst)).toList = s' ∧
        s'.mode = .margin 0 0 ∧ s'.parens = s.parens ∧
        strip true (s'.lexemesAt 0) = strip true (s.lexemesAt 0 ++ items.flatMap Prod.snd)
  | [], _, hne, _, _ => absurd rfl hne
  | [a], s, _, h, hs => by
    obtain ⟨s', hs', hscan⟩ := (h a (by simp)).reads s hs
    refine ⟨s', ?_, hs'.mode, hs'.parens, ?_⟩
    · have hall : s.scan (a.1.toList ++ []) = s' := hscan []
      simpa using hall
    · rw [hs'.lexemes]
      simp
  | a :: b :: items, s, _, h, hs => by
    obtain ⟨mid, hmid, hscan⟩ := (h a (by simp)).reads s hs
    obtain ⟨t, ht, hparens, hblank, hstrip⟩ := scan_blank hmid
    obtain ⟨s', hscan', hmode, hparens', hstrip'⟩ := scan_declarations (b :: items) t (by simp)
      (fun c hc => h c (List.mem_cons_of_mem _ hc)) ht
    refine ⟨s', ?_, hmode, hparens'.trans (hparens.trans hmid.parens), ?_⟩
    · have htext : ("\n".intercalate ((a :: b :: items).map Prod.fst)).toList =
          a.1.toList ++ '\n' :: ("\n".intercalate ((b :: items).map Prod.fst)).toList := by
        simp [String.append_assoc]
      rw [htext, hscan, hblank, hscan']
    · rw [hstrip', hstrip, List.append_assoc]
      rfl

/-- The start of the text as the start of a line. -/
def firstLine : Scanner :=
  { Scanner.initial with mode := .margin 0 0 }

/-- The margin of the first line is not measured, but a text that starts with a letter has
none there. -/
theorem scan_start {text : List Char} (h : text.head?.any Unicode.isAlphabetic = true) :
    Scanner.initial.scan text = firstLine.scan text := by
  rcases text with _ | ⟨c, cs⟩
  · cases h
  · have hc : Unicode.isAlphabetic c = true := h
    have hmode : firstLine.mode = .margin 0 0 := rfl
    rw [scan_cons, scan_cons, step_margin hmode hc]
    exact congrArg (Scanner.scan · cs) (begin_between (firstLine.indentTo 0) c)

/-- At the start of a line and outside parentheses the text may end. -/
theorem finish_line {s : Scanner} (hs : s.mode = .margin 0 0) (hparens : s.parens = []) :
    s.finish.result = .ok (s.indentTo 0).tokens.toList := by
  have hend : s.endLexeme = s := by rw [endLexeme, hs]
  have hmode : (s.indentTo 0).mode = .margin 0 0 := (mode_indentTo s 0).trans hs
  have hblocks : s.endBlocks = s.indentTo 0 := by
    rw [endBlocks, parens_indentTo, hparens]
    rfl
  rw [finish, hend, failure?, hs]
  show s.endBlocks.result = _
  rw [hblocks, result, failure?, hmode]

/-- A program that can be written is scanned to its lexemes, but for line ends of empty
lines. -/
theorem tokenize_print {p : Program} (h : p.isCanonical = true) :
    ∃ tokens, tokenize p.print = .ok tokens ∧
      strip true (lexemesOf tokens) = strip true p.lexemes := by
  simp only [Program.isCanonical, Bool.and_eq_true] at h
  let items : List (String × List Lexeme) :=
    p.interfaces.map (fun i => (i.print, i.lexemes)) ++ p.classes.map fun c => (c.print, c.lexemes)
  have hprint : p.print = "\n".intercalate (items.map Prod.fst) := by
    simp [Program.print, items, Function.comp_def]
  have hlexemes : p.lexemes = items.flatMap Prod.snd := by
    simp [Program.lexemes, items, List.flatMap_map]
  have hitems : ∀ a ∈ items, Passage 0 a.1 a.2 := by
    intro a ha
    rcases List.mem_append.mp ha with ha | ha
    · obtain ⟨i, hi, rfl⟩ := List.mem_map.mp ha
      exact passage_interface (List.all_eq_true.mp h.2 i hi)
    · obtain ⟨c, hc, rfl⟩ := List.mem_map.mp ha
      exact passage_class (List.all_eq_true.mp h.1 c hc)
  have hparagraphs : ∀ a ∈ items, Paragraph 0 a.1 a.2 := fun a ha => by
    simpa [indentation] using (hitems a ha).paragraph
  by_cases hne : items = []
  · refine ⟨[], ?_, ?_⟩
    · rw [hprint, hne]
      rfl
    · rw [hlexemes, hne]
      rfl
  · obtain ⟨s', hscan, hmode, hparens, hstrip⟩ :=
      scan_declarations items firstLine hne hparagraphs rfl
    have hletter : StartsWithLetter ("\n".intercalate (items.map Prod.fst)) := by
      rcases items with _ | ⟨a, _ | ⟨b, items⟩⟩
      · exact absurd rfl hne
      · simpa using (hitems a (by simp)).starts
      · simpa [String.append_assoc] using startsWithLetter_append (hitems a (by simp)).starts _
    refine ⟨(s'.indentTo 0).tokens.toList, ?_, ?_⟩
    · rw [tokenize, hprint, scan_start hletter, hscan]
      exact finish_line hmode hparens
    · rw [hlexemes]
      exact hstrip

end Offside
