import Offside.Proofs.Blame
import Offside.Proofs.Names
import Offside.Proofs.RoundTrip

/-!
# What the texts of tokens are like

The texts that a scanner gives to tokens (`Lexeme.WellFormed`), spelled out for each kind of token
(`Token.TextFits`). The text of a string literal is cut into single characters and escaped ones
(`Escaped`), so that a quote in it stands behind an odd number of backslashes, and no backslash
waits for what would have come next.

A parser relies on these texts in two places. A character literal without a character makes it
fail (`exists_emptyCharacter`), and a name without a text it takes for the empty one. The main
statement is `tokenize_texts`: with the tokens of a text neither happens.
-/

namespace Offside

/-! ## Names and numbers -/

/-- The text is a name. -/
structure IsName (text : String) : Prop where
  /-- It starts with a letter. -/
  first : ∃ c cs, text.toList = c :: cs ∧ Unicode.isAlphabetic c = true
  /-- It is made of letters and digits. -/
  made : ∀ c ∈ text.toList, Unicode.isAlphanumeric c = true
  /-- It is not reserved. -/
  free : text ∉ Kind.reservedWords.map Prod.fst

/-- The text is a number. -/
structure IsNumber (text : String) : Prop where
  /-- It is made of digits and dots. -/
  made : ∀ c ∈ text.toList, c.isDigit = true ∨ c = '.'
  /-- It has one dot at most. -/
  dots : text.toList.count '.' ≤ 1
  /-- It has a digit. -/
  digit : ∃ c ∈ text.toList, c.isDigit = true
  /-- Behind a dot in front stands a digit. -/
  behindDot : ∀ cs, text.toList = '.' :: cs → ∃ c cs', cs = c :: cs' ∧ c.isDigit = true

theorem isName_of_isIdentifier {text : String} (h : isIdentifier text = true) : IsName text := by
  simp only [isIdentifier, Bool.and_eq_true, Option.isNone_iff_eq_none] at h
  obtain ⟨⟨hfirst, hall⟩, hfree⟩ := h
  refine ⟨?_, List.all_eq_true.mp hall, fun hmem => ?_⟩
  · rcases hcs : text.toList with _ | ⟨c, cs⟩
    · rw [hcs] at hfirst
      cases hfirst
    · rw [hcs] at hfirst
      exact ⟨c, cs, rfl, hfirst⟩
  · obtain ⟨e, he, rfl⟩ := List.mem_map.mp hmem
    simpa using List.lookup_eq_none_iff.mp hfree e he

theorem isNumber_of_isNumeral {text : String} (h : isNumeral text = true) : IsNumber text := by
  obtain ⟨d, ds, hd, hstart⟩ := numeral_start h
  simp only [isNumeral, Bool.and_eq_true, decide_eq_true_eq] at h
  obtain ⟨⟨hall, hdots⟩, hdigit⟩ := h
  refine ⟨fun c hc => ?_, hdots, List.any_eq_true.mp hdigit, fun cs hcs => ?_⟩
  · simpa using List.all_eq_true.mp hall c hc
  · rcases hstart with hstart | hstart
    · obtain ⟨rfl, -⟩ := List.cons.inj (hcs.symm.trans hstart)
      cases hd
    · exact ⟨d, ds, (List.cons.inj (hcs.symm.trans hstart)).2, hd⟩

theorem ne_empty_of_isIdentifier {text : String} (h : isIdentifier text = true) : text ≠ "" := by
  rintro rfl
  cases h

/-! ## Strings -/

/-- The text is cut into characters other than quotes and backslashes, and backslashes with any
character behind each. -/
inductive Escaped : List Char → Prop
  | nil : Escaped []
  | plain {c cs} : c ≠ '"' → c ≠ '\\' → Escaped cs → Escaped (c :: cs)
  | pair {c cs} : Escaped cs → Escaped ('\\' :: c :: cs)

theorem escaped_of_isStringBody : ∀ {cs : List Char}, isStringBody false cs = true → Escaped cs
  | [], _ => .nil
  | c :: cs, h => by
    rw [isStringBody, if_neg Bool.false_ne_true] at h
    split at h
    · next hc =>
      subst hc
      -- What stands behind the backslash is taken with it.
      rcases cs with _ | ⟨d, cs⟩
      · cases h
      · exact .pair (escaped_of_isStringBody h)
    · next hc =>
      rw [Bool.and_eq_true, bne_iff_ne] at h
      exact .plain h.1 hc (escaped_of_isStringBody h.2)

/-- How many backslashes the text ends with. -/
def backslashes (text : List Char) : Nat :=
  (text.reverse.takeWhile (· == '\\')).length

theorem backslashes_cons {c : Char} (hc : c ≠ '\\') (cs : List Char) :
    backslashes (c :: cs) = backslashes cs := by
  rw [backslashes, backslashes, List.reverse_cons, List.takeWhile_append]
  split
  · next hall => simp [hc, hall]
  · rfl

/-- An escaped character in front adds no backslash to the end, or two. -/
theorem backslashes_pair (c : Char) (cs : List Char) :
    backslashes ('\\' :: c :: cs) % 2 = backslashes cs % 2 := by
  have hreverse : ('\\' :: c :: cs).reverse = cs.reverse ++ [c, '\\'] := by simp
  rw [backslashes, backslashes, hreverse, List.takeWhile_append]
  split
  · next hall =>
    by_cases hc : c = '\\'
    · simp [hc, hall]
    · simp [hc, hall]
  · rfl

/-- A quote is escaped: the backslashes in front of it do not pair off. -/
theorem Escaped.quote {text : List Char} (h : Escaped text) :
    ∀ {u v : List Char}, text = u ++ '"' :: v → backslashes u % 2 = 1 := by
  induction h with
  | nil =>
    intro u v heq
    simp at heq
  | @plain c cs hquote hc _ ih =>
    intro u v heq
    rcases u with _ | ⟨d, u⟩
    · exact absurd (List.cons.inj heq).1 hquote
    · obtain ⟨rfl, htail⟩ := List.cons.inj heq
      rw [backslashes_cons hc]
      exact ih htail
  | @pair c cs _ ih =>
    intro u v heq
    rcases u with _ | ⟨d, _ | ⟨e, u⟩⟩
    · cases heq
    · obtain ⟨rfl, -⟩ := List.cons.inj heq
      rfl
    · obtain ⟨rfl, hbehind⟩ := List.cons.inj heq
      rw [backslashes_pair]
      exact ih (List.cons.inj hbehind).2

/-- The backslashes at the end pair off. -/
theorem Escaped.stop {text : List Char} (h : Escaped text) : backslashes text % 2 = 0 := by
  induction h with
  | nil => rfl
  | plain _ hc _ ih => rwa [backslashes_cons hc]
  | pair _ ih => rwa [backslashes_pair]

/-- The text can stand between double quotes. -/
structure IsQuotable (text : String) : Prop where
  /-- It is cut into single characters and escaped ones. -/
  pieces : Escaped text.toList
  /-- No quote in it ends the literal. -/
  quote : ∀ u v, text.toList = u ++ '"' :: v → backslashes u % 2 = 1
  /-- No backslash at its end escapes the quote behind it. -/
  stop : backslashes text.toList % 2 = 0

theorem isQuotable_of_isStringBody {text : String} (h : isStringBody false text.toList = true) :
    IsQuotable text :=
  have hescaped := escaped_of_isStringBody h
  ⟨hescaped, fun _ _ => hescaped.quote, hescaped.stop⟩

/-! ## Tokens -/

/-- The token has a text if its kind has, and one of that kind. -/
structure Token.TextFits (t : Token) : Prop where
  /-- Names and literals have a text, and nothing else has. -/
  present : t.value.isSome = true ↔ t.kind = .word ∨ t.kind = .number ∨
    t.kind = .quotedString ∨ t.kind = .quotedCharacter
  word : t.kind = .word → ∀ text ∈ t.value, IsName text
  number : t.kind = .number → ∀ text ∈ t.value, IsNumber text
  string : t.kind = .quotedString → ∀ text ∈ t.value, IsQuotable text
  character : t.kind = .quotedCharacter → ∀ text ∈ t.value, ∃ c, text.toList = [c] ∧ c ≠ '\n'

theorem Token.textFits_of_wellFormed {t : Token} (h : t.lexeme.WellFormed) : t.TextFits := by
  obtain ⟨kind, position, value⟩ := t
  cases kind with
  | word =>
    obtain ⟨text, rfl, htext⟩ : ∃ text, value = some text ∧ isIdentifier text = true := h
    refine ⟨by simp, ?_, nofun, nofun, nofun⟩
    rintro - _ ⟨⟩
    exact isName_of_isIdentifier htext
  | number =>
    obtain ⟨text, rfl, htext⟩ : ∃ text, value = some text ∧ isNumeral text = true := h
    refine ⟨by simp, nofun, ?_, nofun, nofun⟩
    rintro - _ ⟨⟩
    exact isNumber_of_isNumeral htext
  | quotedString =>
    obtain ⟨text, rfl, htext⟩ :
      ∃ text, value = some text ∧ isStringBody false text.toList = true := h
    refine ⟨by simp, nofun, nofun, ?_, nofun⟩
    rintro - _ ⟨⟩
    exact isQuotable_of_isStringBody htext
  | quotedCharacter =>
    obtain ⟨c, rfl, hc⟩ : ∃ c, value = some (String.singleton c) ∧ c ≠ '\n' := h
    refine ⟨by simp, nofun, nofun, nofun, ?_⟩
    rintro - _ ⟨⟩
    exact ⟨c, String.toList_singleton c, hc⟩
  | _ =>
    obtain rfl : value = none := h
    exact ⟨by simp, nofun, nofun, nofun, nofun⟩

/-- A character literal that fits has a character. -/
theorem Token.TextFits.text_ne_nil {t : Token} (h : t.TextFits) (hk : t.kind = .quotedCharacter) :
    t.text.toList ≠ [] := by
  have hpresent := h.present.mpr (.inr (.inr (.inr hk)))
  obtain ⟨text, hvalue⟩ := Option.isSome_iff_exists.mp hpresent
  obtain ⟨c, hc, -⟩ := h.character hk text hvalue
  rw [Token.text, hvalue, Option.getD_some, hc]
  exact List.cons_ne_nil c []

/-! ## What a parser makes of them -/

/-- A parser fails for a character literal only where one without a character stands. -/
theorem exists_emptyCharacter {tokens : List Token} {q : Position}
    (h : parseTokens tokens = .error ⟨.unterminatedCharacter, q⟩) :
    ∃ t ∈ tokens, t.position = q ∧ t.kind = .quotedCharacter ∧ t.text.toList = [] := by
  obtain ⟨-, -, passed, hpassed, ⟨-, t, ht, hkind, htext⟩, hq⟩ := blames_of_parseTokens_error h
  obtain ⟨rest, hrest⟩ := List.head?_eq_some_iff.mp ht
  refine ⟨t, hpassed.tokens.subset (hrest ▸ List.mem_cons_self), ?_, hkind, htext⟩
  have hposition : q = passed.position := hq
  rw [hposition, Stream.position, hrest]

/-- Tokens that come from no text can have such a literal. -/
example : parseTokens [.plain .kwClass ⟨1, 1⟩, ⟨.word, ⟨1, 7⟩, some "C"⟩, .plain .newline ⟨1, 8⟩,
    .plain .indent ⟨2, 1⟩, ⟨.word, ⟨2, 2⟩, some "text"⟩, ⟨.word, ⟨2, 7⟩, some "x"⟩,
    .plain .assign ⟨2, 9⟩, .plain .quotedCharacter ⟨2, 11⟩] =
      .error ⟨.unterminatedCharacter, ⟨2, 11⟩⟩ :=
  rfl

/-- Every token of a text has a text exactly if it is a name or a literal, and that is a name, a
number, a text that can stand between quotes, or a single character. So the parser does not fail
for a character literal on such tokens, and no name in the program that it makes of them is
empty. -/
theorem tokenize_texts {source : String} {tokens : List Token}
    (h : tokenize source = .ok tokens) :
    (∀ t ∈ tokens, t.TextFits) ∧
    (∀ q, parseSource source ≠ .error ⟨.unterminatedCharacter, q⟩) ∧
    ∀ p, parseSource source = .ok p → "" ∉ p.names := by
  have hfits : ∀ t ∈ tokens, t.TextFits := fun t ht =>
    Token.textFits_of_wellFormed (wellFormed_of_tokenize h t ht)
  refine ⟨hfits, fun q hq => ?_, fun p hp hmem => ?_⟩
  · rw [parseSource, h] at hq
    obtain ⟨t, ht, -, hkind, htext⟩ := exists_emptyCharacter hq
    exact (hfits t ht).text_ne_nil hkind htext
  · have hnames := Program.all_names (isCanonical_of_parseSource hp)
    exact ne_empty_of_isIdentifier (List.all_eq_true.mp hnames "" hmem) rfl

/-- A class with literals of each kind: a number that starts with its dot, strings with escaped
characters and without any, and a quote as a character. -/
def literalSource : String :=
  "class C\n\tnumber x = .5\n\tm()\n\t\tx = \"\\\"\\\\\" + '''\n\t\tx = \"\"\n"

/-- The program that `literalSource` is. -/
def literalProgram : Program where
  classes := [⟨"C", [], [], [⟨false, false, ⟨"m", [], []⟩, ⟨[],
    [.assign ["x"] (.math .add (.string "\\\"\\\\") (.character '\'')),
      .assign ["x"] (.string "")]⟩⟩], [⟨"number", "x", some (.number ".5")⟩]⟩]
  interfaces := []

theorem tokenize_texts_literals : parseSource literalSource = .ok literalProgram ∧
    "" ∉ literalProgram.names ∧ ∃ tokens, tokenize literalSource = .ok tokens ∧
      ⟨.quotedString, ⟨4, 7⟩, some "\\\"\\\\"⟩ ∈ tokens ∧ ∀ t ∈ tokens, t.TextFits := by
  have hparse : parseSource literalSource = .ok literalProgram := rfl
  obtain ⟨hfits, -, hnames⟩ := @tokenize_texts literalSource _ rfl
  exact ⟨hparse, hnames _ hparse, _, rfl, by decide, hfits⟩

end Offside
