import Offside.Proofs.Acceptance
import Offside.Proofs.Layout
import Offside.Proofs.Printable
import Offside.Proofs.Unique

/-!
# Printing and parsing

A program that can be written is read back from its text as `Program.reread`, if its bodies
are there and its nesting is within the limit, and not at all otherwise
(`parseSource_print_iff`). A parsed program can always be written (`isCanonical_of_parseSource`),
so this says of every parsed program what comes of printing it: it is read back as itself if
nothing in it is empty, unless the printed text nests too deeply, and where an `else` block is
empty it may be read back as another program, and need more levels for that
(`not_printing_keeps_levels`).
-/

namespace Offside

open Grammar

/-- What the tokens of a written program derive, within however many levels. -/
theorem derives_print_iff {p : Program} (h : p.isCanonical = true) :
    ∃ tokens, tokenize p.print = .ok tokens ∧ ∀ n q,
      Derives n (lexemesOf tokens) q ↔ p.isSolid = true ∧ p.textLevels ≤ n ∧ q = p.reread := by
  obtain ⟨tokens, htokens, hstrip⟩ := tokenize_print h
  refine ⟨tokens, htokens, fun n q => ?_⟩
  rw [derives_congr hstrip]
  constructor
  · exact reread_of_derives h
  · rintro ⟨hsolid, hlevels, rfl⟩
    exact derives_lexemes h hsolid hlevels

/-- A written program is read as the one program that its text derives, within the limit on
nesting. -/
theorem parseSource_print_iff {p q : Program} (h : p.isCanonical = true) :
    parseSource p.print = .ok q ↔
      p.isSolid = true ∧ p.textLevels ≤ maxNesting ∧ q = p.reread := by
  obtain ⟨tokens, htokens, hderives⟩ := derives_print_iff h
  rw [← hderives maxNesting q]
  constructor
  · intro hparse
    obtain ⟨tokens', htokens', hread⟩ := parseSource_ok hparse
    cases htokens.symm.trans htokens'
    exact hread
  · exact parseSource_of_derives htokens

/-- A parsed program can be written. -/
theorem isCanonical_of_parseSource {source : String} {p : Program}
    (h : parseSource source = .ok p) : p.isCanonical = true := by
  obtain ⟨tokens, htokens, hread⟩ := parseSource_ok h
  refine canonical_of_derives (fun l hl => ?_) hread
  obtain ⟨t, ht, rfl⟩ := List.mem_map.mp hl
  exact wellFormed_of_tokenize htokens t ht

/-! ## Programs that can be written -/

/-- A program in which nothing is empty is read back from its text exactly if the text nests
within the limit. -/
theorem parseSource_print_eq_ok_iff {p : Program} (h : p.isCanonical = true)
    (hfilled : p.isFilled = true) : parseSource p.print = .ok p ↔ p.levels ≤ maxNesting := by
  rw [parseSource_print_iff h, Program.textLevels_of_isFilled hfilled,
    Program.reread_of_isFilled hfilled]
  simp [Program.isSolid_of_isFilled hfilled]

/-- A program with an interface and a class, with operators that need their parentheses and
conditions that follow each other behind `else`. -/
def pointProgram : Program where
  classes := [{
    name := "Point"
    interfaces := ["Shape"]
    constructors := [⟨[⟨"number", "a", none⟩], ⟨[], [.assign ["x"] (.var "a")]⟩⟩]
    methods := [{
      isPrivate := true
      isShared := false
      header := ⟨"move", [⟨"text", "s", none⟩], [⟨"number", some "n"⟩]⟩
      body := ⟨[⟨"number", "i", some (.number "0.5")⟩],
        [.loop (some "j") (.compare .lessThan (.var "i") (.number "9"))
          [.cond (.call (some "p") "near" [])
            [.assign ["x", "n"] (.math .subtract (.var "x")
              (.math .subtract (.number "1") (.string "a\\\"b")))]
            (.single (.cond (.var "x") [.call none ⟨none, "stop", [.character ' ']⟩]
              (.block [.call (some ["n"]) ⟨none, "size", [.new "Point" []]⟩])))]]⟩ }]
    members := [⟨"number", "x", none⟩] }]
  interfaces := [⟨"Shape", [⟨"move", [⟨"text", "s", none⟩], [⟨"number", some "n"⟩]⟩]⟩]

theorem parseSource_print_pointProgram : pointProgram.isCanonical = true ∧
    pointProgram.isFilled = true ∧ parseSource pointProgram.print = .ok pointProgram :=
  ⟨rfl, rfl, (parseSource_print_eq_ok_iff rfl rfl).mpr (by decide)⟩

/-! ## Parsed programs -/

/-- A parsed program can be written, but for empty bodies and for the nesting. Suppose that no
condition stands on a line of its own behind `else` in the source. If the printed text is one of the
program, it needs no more levels than the source did; and it is one if nothing is empty, so that the
program is then read back. -/
theorem parseSource_printable {source : String} {p : Program} (h : parseSource source = .ok p) :
    p.isCanonical = true ∧ ∀ tokens, tokenize source = .ok tokens →
      NoElseLineIf (lexemesOf tokens) →
        (∃ printed, tokenize p.print = .ok printed ∧ ∀ m n, Derives m (lexemesOf printed) p →
          Derives n (lexemesOf tokens) p → Derives n (lexemesOf printed) p) ∧
        (p.isFilled = true → parseSource p.print = .ok p) := by
  have hcanonical := isCanonical_of_parseSource h
  refine ⟨hcanonical, fun tokens htokens hno => ?_⟩
  obtain ⟨tokens', htokens', hread⟩ := parseSource_ok h
  cases htokens.symm.trans htokens'
  obtain ⟨printed, hprinted, hderives⟩ := derives_print_iff hcanonical
  have hback : ∀ n, p.isFilled = true → Derives n (lexemesOf tokens) p →
      Derives n (lexemesOf printed) p := fun n hfilled hn => by
    rw [hderives, Program.textLevels_of_isFilled hfilled, Program.reread_of_isFilled hfilled]
    exact ⟨Program.isSolid_of_isFilled hfilled, levels_of_derives hn hno, rfl⟩
  refine ⟨⟨printed, hprinted, fun m n hm => ?_⟩, fun hfilled => ?_⟩
  · obtain ⟨hsolid, -, hself⟩ := (hderives m p).mp hm
    exact hback n (Program.isFilled_of_reread_eq hsolid hself.symm)
  · exact parseSource_of_derives hprinted (hback maxNesting hfilled hread)

/-- A method that chooses twice, with redundant parentheses and an empty line. -/
def choosingSource : String :=
  "class C\n\tm()\n\n\t\tif ((a)) < b\n\t\t\tx = (1)\n\t\telse if c\n\t\t\tx = 2\n"

/-- The program that `choosingSource` is. -/
def choosingProgram : Program where
  classes := [⟨"C", [], [], [⟨false, false, ⟨"m", [], []⟩, ⟨[],
    [.cond (.compare .lessThan (.var "a") (.var "b")) [.assign ["x"] (.number "1")]
      (.single (.cond (.var "c") [.assign ["x"] (.number "2")] .nothing))]⟩⟩], []⟩]
  interfaces := []

theorem parseSource_printable_choosing : parseSource choosingSource = .ok choosingProgram ∧
    choosingProgram.isCanonical = true ∧
      parseSource choosingProgram.print = .ok choosingProgram := by
  have hparse : parseSource choosingSource = .ok choosingProgram := rfl
  obtain ⟨hcanonical, hback⟩ := parseSource_printable hparse
  exact ⟨hparse, hcanonical, (hback _ rfl rfl).2 rfl⟩

/-- A choice whose last `else` has only a comment under it, and behind it a call in a call. -/
def takingSource : String :=
  "class C\n\tm()\n\t\tif a\n\t\t\tx=1\n\t\telse if b\n\t\t\tx=2\n\t\telse\n\t\t\t\x7b\x7d\n\t\ty=f(g(1))"

/-- The program that `takingSource` is. -/
def takingProgram : Program where
  classes := [⟨"C", [], [], [⟨false, false, ⟨"m", [], []⟩, ⟨[],
    [.cond (.var "a") [.assign ["x"] (.number "1")]
      (.single (.cond (.var "b") [.assign ["x"] (.number "2")] (.block []))),
      .call (some ["y"]) ⟨none, "f", [.call none "g" [.number "1"]]⟩]⟩⟩], []⟩]
  interfaces := []

/-- A printed text can need more levels than the source did: here the statement behind the empty
`else` block is taken for its statement, and stands under a condition on the line of an `else`. -/
theorem not_printing_keeps_levels : ¬∀ source p tokens printed, parseSource source = .ok p →
    tokenize source = .ok tokens → NoElseLineIf (lexemesOf tokens) →
    tokenize p.print = .ok printed → ∀ m q, Derives m (lexemesOf printed) q →
    ∀ n, Derives n (lexemesOf tokens) p → ∃ q', Derives n (lexemesOf printed) q' := by
  intro h
  have hparse : parseSource takingSource = .ok takingProgram := rfl
  obtain ⟨tokens, htokens, -⟩ := parseSource_ok hparse
  have hno : NoElseLineIf (lexemesOf tokens) := by
    have hnone : (tokenize takingSource).map (elseLineIf ∘ lexemesOf) = .ok false := rfl
    rw [htokens] at hnone
    exact Except.ok.inj hnone
  have hsource : Derives 4 (lexemesOf tokens) takingProgram := by
    have hwithin : (tokenize takingSource).bind (parseWithin 4) = .ok takingProgram := rfl
    rw [htokens] at hwithin
    exact parseWithin_eq_ok_iff.mp hwithin
  obtain ⟨printed, hprinted, hderives⟩ := derives_print_iff (p := takingProgram) rfl
  have hdeeper : Derives 5 (lexemesOf printed) takingProgram.reread :=
    (hderives _ _).mpr ⟨rfl, by decide, rfl⟩
  obtain ⟨q, hq⟩ := h _ _ _ _ hparse htokens hno hprinted _ _ hdeeper 4 hsource
  exact absurd ((hderives _ _).mp hq).2.1 (by decide)

/-- A parsed program is read back from its text as another one exactly if an `else` block in
it is empty and has a statement behind it to take, while no other body is empty, and the text
nests within the limit as it is read. -/
theorem parseSource_print_changed_iff {source : String} {p : Program}
    (h : parseSource source = .ok p) :
    (∃ q, parseSource p.print = .ok q ∧ q ≠ p) ↔
      p.isSolid = true ∧ p.isFilled = false ∧ p.textLevels ≤ maxNesting := by
  have hread := fun q => parseSource_print_iff (q := q) (isCanonical_of_parseSource h)
  constructor
  · rintro ⟨q, hq, hne⟩
    obtain ⟨hsolid, hlevels, rfl⟩ := (hread q).mp hq
    refine ⟨hsolid, ?_, hlevels⟩
    rw [Bool.eq_false_iff]
    exact fun hfilled => hne (Program.reread_of_isFilled hfilled)
  · rintro ⟨hsolid, hfilled, hlevels⟩
    refine ⟨p.reread, (hread _).mpr ⟨hsolid, hlevels, rfl⟩, fun heq => ?_⟩
    rw [Program.isFilled_of_reread_eq hsolid heq] at hfilled
    cases hfilled

/-- A method with an `else` that has only a comment under it, and a statement behind. -/
def commentedSource : String :=
  "class C\n\tm()\n\t\tif a\n\t\t\tx = 1\n\t\telse\n\t\t\t\x7b nothing \x7d\n\t\ty = 2\n"

/-- The program that `commentedSource` is. -/
def commentedProgram : Program where
  classes := [⟨"C", [], [], [⟨false, false, ⟨"m", [], []⟩, ⟨[],
    [.cond (.var "a") [.assign ["x"] (.number "1")] (.block []), .assign ["y"] (.number "2")]⟩⟩],
    []⟩]
  interfaces := []

theorem parseSource_print_changed_commented :
    parseSource commentedSource = .ok commentedProgram ∧
      ∃ q, parseSource commentedProgram.print = .ok q ∧ q ≠ commentedProgram := by
  have hparse : parseSource commentedSource = .ok commentedProgram := rfl
  exact ⟨hparse, (parseSource_print_changed_iff hparse).mpr ⟨rfl, rfl, by decide⟩⟩

/-- Printing does not keep every program: here the statement behind the empty `else` block
is taken for its statement. -/
theorem not_printing_keeps_programs : ¬∀ source p q, parseSource source = .ok p →
    parseSource p.print = .ok q → q = p := by
  intro h
  have heq := h commentedSource commentedProgram commentedProgram.reread rfl rfl
  exact absurd heq (by decide)

end Offside
