import Offside.Diagnostic.Render
import Offside.Proofs.Spelling

/-!
# Texts as lexemes with gaps between them

What the tokens of a text should be, said without a scanner. A text is cut into lexemes and
gaps (`Tiling`): a lexeme is as long as what follows it allows (`Written`), and a gap holds
white space and comments, a comment nothing behind it on its line (`Gap`). Where a lexeme
stands is counted from the start of the text (`Position.behind`).

The layout of a line is read off its margin (`marginLevel`), and a line without more than a
margin has none (`isBlank`). `Scans` is the tiling of a text that has layout tokens at the
start of its lines, with the level of its first and of its last line. The parentheses of a
text and its blocks are `Balanced` in the same sense.
-/

namespace Offside

/-! ## Places -/

/-- Where the text behind `before` starts: lines and columns are counted from one. -/
def Position.behind (before : List Char) : Position :=
  ⟨1 + before.count '\n', 1 + (before.reverse.takeWhile (· != '\n')).length⟩

namespace Position

theorem behind_append_singleton (before : List Char) (c : Char) :
    behind (before ++ [c]) = (behind before).advance c := by
  by_cases hc : c = '\n'
  · subst hc
    simp [behind, advance]
    omega
  · simp [behind, advance, hc]
    omega

theorem advanceAll_behind : ∀ before text : List Char,
    (behind before).advanceAll text = behind (before ++ text)
  | before, [] => by simp [advanceAll]
  | before, c :: text => by
    have hstep : (behind before).advanceAll (c :: text) =
        ((behind before).advance c).advanceAll text := rfl
    rw [hstep, ← behind_append_singleton, advanceAll_behind, List.append_assoc]
    rfl

end Position

/-! ## Lexemes -/

/-- The signs, by their spelling. -/
def symbols : List (String × Kind) :=
  [("(", .leftParen), (")", .rightParen), (":", .colon), (".", .dot), (",", .comma),
    ("=", .assign), ("==", .equal), ("!=", .notEqual), ("<", .lessThan), ("<=", .lessThanEqual),
    (">", .greaterThan), (">=", .greaterThanEqual), ("+", .plus), ("-", .minus), ("*", .times),
    ("/", .divide), ("%", .modulo)]

/-- Whether `text` is a word, reserved or not. -/
def isWord (text : String) : Bool :=
  text.toList.head?.any Unicode.isAlphabetic && text.toList.all Unicode.isAlphanumeric

/-- Whether `text` is a sign. -/
def isSymbol (text : String) : Bool :=
  (symbols.lookup text).isSome

/-- The first character of `rest` does not make `text` a longer text of the given kind. -/
def Longest (isKind : String → Bool) (text : String) (rest : List Char) : Prop :=
  ∀ c ∈ rest.head?, isKind (text.push c) = false

/-- The text is the lexeme, with `rest` behind it. -/
inductive Written : List Char → Lexeme → List Char → Prop
  | word {text : String} {rest} : isWord text = true → Longest isWord text rest →
      Written text.toList (wordLexeme text) rest
  | number {text : String} {rest} : isNumeral text = true → Longest isNumeral text rest →
      Written text.toList ⟨.number, some text⟩ rest
  | string {text : String} {rest} : isStringBody false text.toList = true →
      Written ('"' :: (text.toList ++ ['"'])) ⟨.quotedString, some text⟩ rest
  | character {c rest} : c ≠ '\n' →
      Written ['\'', c, '\''] ⟨.quotedCharacter, some (String.singleton c)⟩ rest
  | symbol {text : String} {k rest} : symbols.lookup text = some k → Longest isSymbol text rest →
      (text = "." → ∀ c ∈ rest.head?, c.isDigit = false) → Written text.toList ⟨k, none⟩ rest

theorem kind_wordLexeme (text : String) :
    (wordLexeme text).kind ∈ Kind.word :: Kind.reservedWords.map Prod.snd := by
  rw [wordLexeme]
  cases hk : Kind.reserved? text with
  | none => exact List.mem_cons_self
  | some k =>
    obtain ⟨before, behind, hwords, -⟩ := List.lookup_eq_some_iff.mp hk
    have hmem : (text, k) ∈ Kind.reservedWords := by rw [hwords]; simp
    exact List.mem_cons_of_mem _ (List.mem_map_of_mem hmem)

theorem mem_symbols {text : String} {k : Kind} (h : symbols.lookup text = some k) :
    (text, k) ∈ symbols := by
  obtain ⟨before, behind, hsymbols, -⟩ := List.lookup_eq_some_iff.mp h
  rw [hsymbols]
  simp

/-- The ends of lines and the layout are no lexemes. -/
theorem Written.kind {text rest : List Char} {l : Lexeme} (h : Written text l rest) :
    l.kind ≠ .newline ∧ l.kind ≠ .indent ∧ l.kind ≠ .dedent := by
  have hkind : l.kind ∉ [Kind.newline, .indent, .dedent] := by
    cases h with
    | word =>
      have hall : ∀ k ∈ Kind.word :: Kind.reservedWords.map Prod.snd,
          k ∉ [Kind.newline, .indent, .dedent] := by decide
      exact hall _ (kind_wordLexeme _)
    | number => simp
    | string => simp
    | character => simp
    | symbol hk =>
      have hall : ∀ e ∈ symbols, e.2 ∉ [Kind.newline, .indent, .dedent] := by decide
      exact hall _ (mem_symbols hk)
  simpa using hkind

/-- The code points of white space are checked one by one. -/
theorem not_contains_of_isWhiteSpace {ranges : Unicode.Ranges}
    (h : ∀ range ∈ Unicode.whiteSpaceRanges, ∀ n ∈ List.range' range.1
      (range.2 + 1 - range.1), ranges.contains n = false)
    {c : Char} (hc : Unicode.isWhiteSpace c = true) : ranges.contains c.toNat = false := by
  have hascends : Unicode.whiteSpaceRanges.ascendsFrom 0 = true := by decide
  obtain ⟨range, hrange, hlow, hhigh⟩ := (Unicode.Ranges.contains_iff_mem hascends).mp hc
  exact h range hrange c.toNat (List.mem_range'_1.mpr (by omega))

/-- White space is no letter. -/
theorem not_isAlphabetic_of_isWhiteSpace {c : Char} (h : Unicode.isWhiteSpace c = true) :
    Unicode.isAlphabetic c = false :=
  not_contains_of_isWhiteSpace (by decide +kernel) h

/-- White space is no number. -/
theorem not_isNumber_of_isWhiteSpace {c : Char} (h : Unicode.isWhiteSpace c = true) :
    Unicode.isNumber c = false :=
  not_contains_of_isWhiteSpace (by decide +kernel) h

/-- Digits are no white space. -/
theorem not_isWhiteSpace_of_isDigit {c : Char} (h : c.isDigit = true) :
    Unicode.isWhiteSpace c = false := by
  have hc : 48 ≤ c.toNat ∧ c.toNat ≤ 57 := by
    simp only [Char.isDigit, Bool.and_eq_true, decide_eq_true_eq, ge_iff_le] at h
    exact ⟨UInt32.le_iff_toNat_le.mp h.1, UInt32.le_iff_toNat_le.mp h.2⟩
  show (if c.toNat ≤ 13 then _ else if c.toNat ≤ 32 then _ else
    if c.toNat ≤ 133 then decide (133 ≤ c.toNat) else _) = false
  rw [if_neg (by omega), if_neg (by omega), if_pos (by omega)]
  exact decide_eq_false (by omega)

/-- A lexeme starts with no white space. -/
theorem Written.head {text rest : List Char} {l : Lexeme} (h : Written text l rest) :
    ∃ c cs, text = c :: cs ∧ Unicode.isWhiteSpace c = false := by
  cases h with
  | @word text _ hword =>
    rcases hcs : text.toList with _ | ⟨c, cs⟩
    · simp [isWord, hcs] at hword
    · refine ⟨c, cs, rfl, ?_⟩
      simp only [isWord, hcs, Bool.and_eq_true] at hword
      rw [Bool.eq_false_iff]
      intro hc
      have halpha : Unicode.isAlphabetic c = true := hword.1
      rw [not_isAlphabetic_of_isWhiteSpace hc] at halpha
      cases halpha
  | number hnumber =>
    obtain ⟨c, cs, hc, hcs | hcs⟩ := numeral_start hnumber
    · exact ⟨c, cs, hcs, not_isWhiteSpace_of_isDigit hc⟩
    · exact ⟨'.', c :: cs, hcs, rfl⟩
  | string => exact ⟨_, _, rfl, rfl⟩
  | character => exact ⟨_, _, rfl, rfl⟩
  | @symbol text _ _ hk =>
    have hall : ∀ e ∈ symbols, e.1.toList.head?.any (fun c => !Unicode.isWhiteSpace c) = true := by
      decide
    have hhead := hall _ (mem_symbols hk)
    rcases hcs : text.toList with _ | ⟨c, cs⟩
    · simp [hcs] at hhead
    · exact ⟨c, cs, rfl, by simpa [hcs] using hhead⟩

theorem Written.ne_nil {text rest : List Char} {l : Lexeme} (h : Written text l rest) :
    text ≠ [] := by
  obtain ⟨c, cs, rfl, -⟩ := h.head
  exact List.cons_ne_nil c cs

theorem isWord_push {text : String} (h : isWord text = true) (c : Char) :
    isWord (text.push c) = Unicode.isAlphanumeric c := by
  simp only [isWord, Bool.and_eq_true] at h
  obtain ⟨d, cs, hcs⟩ : ∃ d cs, text.toList = d :: cs := by
    rcases hcs : text.toList with _ | ⟨d, cs⟩
    · rw [hcs] at h
      cases h.1
    · exact ⟨d, cs, rfl⟩
  rw [hcs] at h
  have hd : Option.any Unicode.isAlphabetic (some d) = true := h.1
  rw [isWord, String.toList_push, hcs, List.all_append, h.2]
  simp [hd]

theorem isNumeral_push {text : String} (h : isNumeral text = true) (c : Char) :
    isNumeral (text.push c) = (c.isDigit || (c == '.' && !text.toList.contains '.')) := by
  simp only [isNumeral, Bool.and_eq_true, decide_eq_true_eq] at h
  obtain ⟨⟨hall, hdots⟩, hdigit⟩ := h
  simp only [isNumeral, String.toList_push, List.all_append, List.any_append, hall, hdigit,
    List.count_append, Bool.true_and, Bool.true_or, Bool.and_true]
  by_cases hc : c.isDigit = true
  · simp [hc, ne_dot_of_isDigit hc, hdots]
  · by_cases hdot : c = '.'
    · subst hdot
      by_cases hmem : '.' ∈ text.toList
      · have := List.count_pos_iff.mpr hmem
        simp [hmem]
        omega
      · simp [hmem, List.count_eq_zero.mpr hmem]
    · simp [hc, beq_eq_false_iff_ne.mpr hdot]

/-- White space and the start of a comment end every lexeme but a literal. -/
def EndsLexeme (c : Char) : Prop :=
  Unicode.isWhiteSpace c = true ∨ c = '{'

theorem EndsLexeme.not_isAlphanumeric {c : Char} (h : EndsLexeme c) :
    Unicode.isAlphanumeric c = false := by
  rcases h with h | rfl
  · rw [Unicode.isAlphanumeric, not_isAlphabetic_of_isWhiteSpace h,
      not_isNumber_of_isWhiteSpace h, Bool.or_false]
  · rfl

theorem EndsLexeme.not_isDigit {c : Char} (h : EndsLexeme c) : c.isDigit = false := by
  rcases h with h | rfl
  · rw [Bool.eq_false_iff]
    intro hdigit
    rw [not_isWhiteSpace_of_isDigit hdigit] at h
    cases h
  · rfl

theorem EndsLexeme.not_isSymbol {c : Char} (h : EndsLexeme c) (text : String) :
    isSymbol (text.push c) = false := by
  have hall : ∀ e ∈ symbols,
      e.1.toList.all (fun d => !Unicode.isWhiteSpace d && d != '{') = true := by
    decide
  rw [Bool.eq_false_iff]
  intro hsymbol
  obtain ⟨k, hk⟩ := Option.isSome_iff_exists.mp hsymbol
  have hlast := List.all_eq_true.mp (hall _ (mem_symbols hk)) c (by simp)
  rcases h with h | rfl
  · rw [h] at hlast
    cases hlast
  · simp at hlast

/-- A lexeme is the same in front of another text, if that goes on with the same character or
with one that ends lexemes. -/
theorem Written.change {text rest rest' : List Char} {l : Lexeme} (h : Written text l rest)
    (hhead : ∀ c ∈ rest'.head?, c ∈ rest.head? ∨ EndsLexeme c) : Written text l rest' := by
  cases h with
  | word hword hlongest =>
    refine .word hword fun c hc => ?_
    rcases hhead c hc with hc | hc
    · exact hlongest c hc
    · rw [isWord_push hword, hc.not_isAlphanumeric]
  | number hnumber hlongest =>
    refine .number hnumber fun c hc => ?_
    rcases hhead c hc with hc | hc
    · exact hlongest c hc
    · have hdot : c ≠ '.' := by
        rintro rfl
        rcases hc with hc | hc <;> cases hc
      simp [isNumeral_push hnumber, hc.not_isDigit, hdot]
  | string hbody => exact .string hbody
  | character hc => exact .character hc
  | symbol hk hlongest hdot =>
    refine .symbol hk (fun c hc => ?_) fun heq c hc => ?_
    · rcases hhead c hc with hc | hc
      · exact hlongest c hc
      · exact hc.not_isSymbol _
    · rcases hhead c hc with hc | hc
      · exact hdot heq c hc
      · exact hc.not_isDigit

/-- A text of a kind goes on as long as it stays of that kind. -/
theorem exists_longest {isKind : String → Bool} : ∀ (rest : List Char) {text : String},
    isKind text = true → ∃ more rest', rest = more ++ rest' ∧
      isKind (text ++ String.ofList more) = true ∧
      Longest isKind (text ++ String.ofList more) rest'
  | [], text, h => ⟨[], [], rfl, by simpa using h, nofun⟩
  | c :: rest, text, h => by
    by_cases hc : isKind (text.push c) = true
    · obtain ⟨more, rest', rfl, hkind, hlongest⟩ := exists_longest rest hc
      have htext : text.push c ++ String.ofList more = text ++ String.ofList (c :: more) := by
        simp [← String.toList_inj]
      rw [htext] at hkind hlongest
      exact ⟨c :: more, rest', rfl, hkind, hlongest⟩
    · refine ⟨[], c :: rest, rfl, by simpa using h, ?_⟩
      rintro d hd
      cases hd
      simpa using hc

/-- The lexeme as a token. -/
def Lexeme.token (l : Lexeme) (p : Position) : Token :=
  ⟨l.kind, p, l.value⟩

/-! ## Gaps -/

/-- The first line of a text. -/
def headLine (text : List Char) : List Char :=
  text.takeWhile (· != '\n')

/-- Up to the end of its first line the text is white space. -/
def EndsLine (text : List Char) : Prop :=
  ∀ c ∈ headLine text, Unicode.isWhiteSpace c = true

theorem headLine_cons {c : Char} (hc : c ≠ '\n') (text : List Char) :
    headLine (c :: text) = c :: headLine text := by
  simp [headLine, hc]

theorem headLine_newline (text : List Char) : headLine ('\n' :: text) = [] :=
  rfl

theorem EndsLine.tail {c : Char} {text : List Char} (h : EndsLine (c :: text)) (hc : c ≠ '\n') :
    EndsLine text :=
  fun d hd => h d (by rw [headLine_cons hc]; exact List.mem_cons_of_mem _ hd)

theorem EndsLine.head {c : Char} {text : List Char} (h : EndsLine (c :: text)) (hc : c ≠ '\n') :
    Unicode.isWhiteSpace c = true :=
  h c (by rw [headLine_cons hc]; exact List.mem_cons_self)

/-- What stands between two lexemes, with `rest` behind it: white space of one line, and
comments, each the last of its line. -/
inductive Gap : List Char → List Char → Prop
  | none {rest} : Gap [] rest
  | space {c gap rest} : Unicode.isWhiteSpace c = true → c ≠ '\n' → Gap gap rest →
      Gap (c :: gap) rest
  | comment {body gap rest} : '}' ∉ body → EndsLine (gap ++ rest) → Gap gap rest →
      Gap ('{' :: (body ++ '}' :: gap)) rest

theorem Gap.append {gap text rest : List Char} (h : Gap gap (text ++ rest)) (h' : Gap text rest) :
    Gap (gap ++ text) rest := by
  generalize hbehind : text ++ rest = behind at h
  induction h with
  | none => exact h'
  | space hc hline _ ih => exact .space hc hline (ih hbehind)
  | @comment body gap behind hbody hends _ ih =>
    have hgap := Gap.comment hbody (by rwa [List.append_assoc, hbehind]) (ih hbehind)
    simpa using hgap

/-! ## Tilings -/

/-- The text behind `before` is made of lexemes and gaps, and these are its tokens. -/
inductive Tiling : List Char → List Char → List Token → Prop
  | done {before gap} : Gap gap [] → Tiling before gap []
  | line {before gap rest ts} : Gap gap ('\n' :: rest) →
      Tiling (before ++ (gap ++ ['\n'])) rest ts →
      Tiling before (gap ++ '\n' :: rest)
        (Token.plain .newline (Position.behind (before ++ gap)) :: ts)
  | lexeme {before gap text l rest ts} : Gap gap (text ++ rest) → Written text l rest →
      Tiling (before ++ (gap ++ text)) rest ts →
      Tiling before (gap ++ (text ++ rest)) (l.token (Position.behind (before ++ gap)) :: ts)

/-! ## Balance -/

/-- How many of the tokens are of the given kind. -/
def countKind (k : Kind) (ts : List Token) : Nat :=
  (ts.map Token.kind).count k

/-- No token closes more than is open, and nothing is left open. -/
def Balanced (opening closing : Kind) (ts : List Token) : Prop :=
  (∀ u, u <+: ts → countKind closing u ≤ countKind opening u) ∧
    countKind opening ts = countKind closing ts

/-- Where `d` are open, the tokens close no more than is open, and leave `d'` open. -/
def Balances (opening closing : Kind) : Nat → List Token → Nat → Prop
  | d, [], d' => d = d'
  | d, t :: ts, d' =>
    if t.kind = opening then Balances opening closing (d + 1) ts d'
    else if t.kind = closing then 0 < d ∧ Balances opening closing (d - 1) ts d'
    else Balances opening closing d ts d'

section

variable {opening closing : Kind}

theorem balances_open {d d' : Nat} {t : Token} {ts : List Token} (h : t.kind = opening) :
    Balances opening closing d (t :: ts) d' ↔ Balances opening closing (d + 1) ts d' := by
  rw [Balances, if_pos h]

theorem balances_close {d d' : Nat} {t : Token} {ts : List Token} (hne : opening ≠ closing)
    (h : t.kind = closing) : Balances opening closing d (t :: ts) d' ↔
      0 < d ∧ Balances opening closing (d - 1) ts d' := by
  rw [Balances, if_neg (h ▸ hne.symm), if_pos h]

/-- What neither opens nor closes makes no difference. -/
theorem balances_free {d d' : Nat} {t : Token} {ts : List Token} (ho : t.kind ≠ opening)
    (hc : t.kind ≠ closing) :
    Balances opening closing d (t :: ts) d' ↔ Balances opening closing d ts d' := by
  rw [Balances, if_neg ho, if_neg hc]

theorem Balances.append (hne : opening ≠ closing) : ∀ {d m d' : Nat} {u v : List Token},
    Balances opening closing d u m → Balances opening closing m v d' →
    Balances opening closing d (u ++ v) d'
  | d, m, d', [], v, h, h' => by
    obtain rfl : d = m := h
    exact h'
  | d, m, d', t :: u, v, h, h' => by
    rw [List.cons_append]
    by_cases ho : t.kind = opening
    · rw [balances_open ho] at h ⊢
      exact Balances.append hne h h'
    by_cases hc : t.kind = closing
    · rw [balances_close hne hc] at h ⊢
      exact ⟨h.1, Balances.append hne h.2 h'⟩
    · rw [balances_free ho hc] at h ⊢
      exact Balances.append hne h h'

theorem countKind_cons (k : Kind) (t : Token) (ts : List Token) :
    countKind k (t :: ts) = countKind k ts + if t.kind = k then 1 else 0 := by
  simp [countKind, List.count_cons]

/-- What is left open is what is opened and not closed again. -/
theorem balances_iff (hne : opening ≠ closing) : ∀ {d d' : Nat} {ts : List Token},
    Balances opening closing d ts d' ↔
      (∀ u, u <+: ts → countKind closing u ≤ d + countKind opening u) ∧
        d + countKind opening ts = countKind closing ts + d'
  | d, d', [] => by simp [Balances, countKind]
  | d, d', t :: ts => by
    have hfront : (∀ u, u <+: t :: ts → countKind closing u ≤ d + countKind opening u) ↔
        ∀ u, u <+: ts → countKind closing (t :: u) ≤ d + countKind opening (t :: u) := by
      constructor
      · exact fun h u hu => h _ (List.cons_prefix_cons.mpr ⟨rfl, hu⟩)
      · intro h u hu
        rcases List.prefix_cons_iff.mp hu with rfl | ⟨u', rfl, hu'⟩
        · exact Nat.zero_le _
        · exact h u' hu'
    rw [hfront]
    simp only [countKind_cons]
    by_cases ho : t.kind = opening
    · have hc : t.kind ≠ closing := ho ▸ hne
      rw [balances_open ho, balances_iff hne]
      refine and_congr (forall₂_congr fun u _ => ?_) ?_ <;> simp only [if_pos ho, if_neg hc] <;>
        omega
    by_cases hc : t.kind = closing
    · rw [balances_close hne hc, balances_iff hne]
      simp only [if_neg ho, if_pos hc]
      constructor
      · rintro ⟨hpos, hle, heq⟩
        exact ⟨fun u hu => by have := hle u hu; omega, by omega⟩
      · rintro ⟨hle, heq⟩
        have hpos := hle [] (List.nil_prefix)
        simp only [countKind, List.map_nil, List.count_nil] at hpos
        exact ⟨by omega, fun u hu => by have := hle u hu; omega, by omega⟩
    · rw [balances_free ho hc, balances_iff hne]
      simp only [if_neg ho, if_neg hc, Nat.add_zero]

theorem balanced_iff (hne : opening ≠ closing) {ts : List Token} :
    Balanced opening closing ts ↔ Balances opening closing 0 ts 0 := by
  rw [balances_iff hne, Balanced]
  simp only [Nat.zero_add, Nat.add_zero]

theorem balances_congr : ∀ {d d' : Nat} {ts ts' : List Token},
    ts.map Token.kind = ts'.map Token.kind →
      (Balances opening closing d ts d' ↔ Balances opening closing d ts' d')
  | _, _, [], ts', h => by
    obtain rfl : ts' = [] := by simpa using h.symm
    exact Iff.rfl
  | d, d', t :: ts, ts', h => by
    rcases ts' with _ | ⟨t', ts'⟩
    · cases h
    obtain ⟨hkind, hrest⟩ := List.cons.inj h
    have hrest : ts.map Token.kind = ts'.map Token.kind := hrest
    have hkind : t.kind = t'.kind := hkind
    rw [Balances, Balances, hkind, balances_congr hrest, balances_congr hrest,
      balances_congr hrest]

theorem balances_append_of_free {d d' : Nat} {v : List Token} : ∀ {u : List Token},
    (∀ t ∈ u, t.kind ≠ opening ∧ t.kind ≠ closing) →
      (Balances opening closing d (u ++ v) d' ↔ Balances opening closing d v d')
  | [], _ => Iff.rfl
  | t :: u, h => by
    obtain ⟨ho, hc⟩ := h t List.mem_cons_self
    rw [List.cons_append, balances_free ho hc]
    exact balances_append_of_free fun t ht => h t (List.mem_cons_of_mem _ ht)

end

/-! ## Margins -/

/-- Whether `c` belongs to the margin of a line that it stands at the start of. -/
def isIndentation (c : Char) : Bool :=
  c == ' ' || c == '\t' || c == '\r'

/-- Whether there is nothing behind the margin of the line. -/
def isBlank (line : List Char) : Bool :=
  line.all isIndentation

/-- The margin of a line, without its carriage returns. -/
def margin (line : List Char) : List Char :=
  (line.takeWhile isIndentation).filter (· != '\r')

/-- The level of a line: one for each tab in its margin, and one for every four spaces between
two of them. -/
def marginLevel (line : List Char) : Nat :=
  (margin line).count '\t' + ((margin line).splitOn '\t').foldr
    (fun spaces level => spaces.length / spacesPerIndent + level) 0

theorem margin_spaces (n : Nat) (line : List Char) :
    margin (List.replicate n ' ' ++ line) = List.replicate n ' ' ++ margin line := by
  induction n with
  | zero => rfl
  | succ n ih =>
    rw [List.replicate_succ, List.cons_append, List.cons_append, ← ih]
    rfl

theorem splitOn_spaces (n : Nat) (text : List Char) :
    (List.replicate n ' ' ++ text).splitOn '\t' =
      (text.splitOn '\t').modifyHead (List.replicate n ' ' ++ ·) := by
  induction n with
  | zero =>
    rw [List.replicate_zero, List.nil_append]
    exact (congrFun List.modifyHead_id _).symm
  | succ n ih =>
    rw [List.replicate_succ, List.cons_append]
    simp only [List.splitOn] at ih ⊢
    rw [List.splitOnP_cons_eq_if_modifyHead, if_neg (by decide), ih, List.modifyHead_modifyHead]
    rfl

/-- Four spaces are as good as a tab. -/
theorem marginLevel_indent (line : List Char) :
    marginLevel (List.replicate spacesPerIndent ' ' ++ line) = marginLevel line + 1 := by
  have hsplit : (margin line).splitOn '\t' ≠ [] := List.splitOnP_ne_nil _ _
  obtain ⟨spaces, rest, hrest⟩ := List.exists_cons_of_ne_nil hsplit
  rw [marginLevel, marginLevel, margin_spaces, splitOn_spaces, hrest, List.count_append]
  simp [spacesPerIndent]
  omega

/-- Spaces that make no full group are lost at a tab. -/
theorem marginLevel_tab {n : Nat} (hn : n < spacesPerIndent) (line : List Char) :
    marginLevel (List.replicate n ' ' ++ '\t' :: line) = marginLevel line + 1 := by
  have htab : margin ('\t' :: line) = '\t' :: margin line := rfl
  have hsplit : ('\t' :: margin line).splitOn '\t' = [] :: (margin line).splitOn '\t' := by
    simp only [List.splitOn]
    rw [List.splitOnP_cons_eq_if_modifyHead]
    rfl
  rw [marginLevel, marginLevel, margin_spaces, splitOn_spaces, htab, hsplit, List.count_append]
  simp [List.count_replicate, Nat.div_eq_of_lt hn]
  omega

/-- Carriage returns count for nothing. -/
theorem marginLevel_return (n : Nat) (line : List Char) :
    marginLevel (List.replicate n ' ' ++ '\r' :: line) =
      marginLevel (List.replicate n ' ' ++ line) := by
  have hreturn : margin ('\r' :: line) = margin line := rfl
  rw [marginLevel, marginLevel, margin_spaces, margin_spaces, hreturn]

/-- Spaces that make no full group are lost at the end of the margin. -/
theorem marginLevel_text {n : Nat} (hn : n < spacesPerIndent) {c : Char}
    (hc : isIndentation c = false) (line : List Char) :
    marginLevel (List.replicate n ' ' ++ c :: line) = 0 := by
  have htext : margin (c :: line) = [] := by
    rw [margin, List.takeWhile_cons, hc]
    rfl
  rw [marginLevel, margin_spaces, splitOn_spaces, htext]
  simp [List.count_replicate, Nat.div_eq_of_lt hn]

/-- The level behind the start of a line, if that of the lines before it is `level`. -/
def levelAt (level : Nat) (line : List Char) : Nat :=
  if isBlank line then level else marginLevel line

/-- The tokens that take the layout from one level to another at the start of a line. -/
def layout (level level' line : Nat) : List Token :=
  List.replicate (level' - level) (Token.plain .indent ⟨line, 1⟩) ++
    List.replicate (level - level') (Token.plain .dedent ⟨line, 1⟩)

/-- Whether the token is layout. -/
def Token.isLayout (t : Token) : Bool :=
  t.kind == .indent || t.kind == .dedent

/-- The text behind `before` is made of lexemes and gaps, and these are its tokens with those
of its layout, from the level of the line it starts in to the level it ends at. -/
inductive Scans : List Char → Nat → List Char → List Token → Nat → Prop
  | done {before level gap} : Gap gap [] → Scans before level gap [] level
  | line {before level gap rest ts level'} : Gap gap ('\n' :: rest) →
      Scans (before ++ (gap ++ ['\n'])) (levelAt level (headLine rest)) rest ts level' →
      Scans before level (gap ++ '\n' :: rest)
        (Token.plain .newline (Position.behind (before ++ gap)) ::
          (layout level (levelAt level (headLine rest))
            (Position.behind (before ++ (gap ++ ['\n']))).line ++ ts)) level'
  | lexeme {before level gap text l rest ts level'} : Gap gap (text ++ rest) →
      Written text l rest → Scans (before ++ (gap ++ text)) level rest ts level' →
      Scans before level (gap ++ (text ++ rest))
        (l.token (Position.behind (before ++ gap)) :: ts) level'

theorem layout_self (level line : Nat) : layout level level line = [] := by
  simp [layout]

theorem mem_layout {level level' line : Nat} {t : Token} (h : t ∈ layout level level' line) :
    (t.kind = .indent ∨ t.kind = .dedent) ∧ t.position = ⟨line, 1⟩ := by
  simp only [layout, List.mem_append, List.mem_replicate] at h
  rcases h with ⟨-, rfl⟩ | ⟨-, rfl⟩
  · exact ⟨.inl rfl, rfl⟩
  · exact ⟨.inr rfl, rfl⟩

theorem isLayout_iff {t : Token} : t.isLayout = true ↔ t.kind = .indent ∨ t.kind = .dedent := by
  simp [Token.isLayout]

theorem isLayout_of_mem_layout {level level' line : Nat} {t : Token}
    (h : t ∈ layout level level' line) : t.isLayout = true :=
  isLayout_iff.mpr (mem_layout h).1

theorem balances_newline {d d' line level level' : Nat} {p : Position} {ts : List Token} :
    Balances .leftParen .rightParen d
        (Token.plain .newline p :: (layout level level' line ++ ts)) d' ↔
      Balances .leftParen .rightParen d ts d' := by
  rw [← List.cons_append]
  refine balances_append_of_free fun t ht => ?_
  rcases List.mem_cons.mp ht with rfl | ht
  · exact ⟨nofun, nofun⟩
  · rcases (mem_layout ht).1 with hkind | hkind <;> rw [hkind] <;> exact ⟨nofun, nofun⟩

theorem Scans.gap_append {before gap text : List Char} {level level' : Nat} {ts : List Token}
    (h : Gap gap text) (h' : Scans (before ++ gap) level text ts level') :
    Scans before level (gap ++ text) ts level' := by
  generalize hbefore : before ++ gap = before' at h'
  cases h' with
  | done hgap => exact .done (Gap.append (by simpa using h) hgap)
  | line hgap hrest =>
    subst hbefore
    have hline := Scans.line (h.append hgap) (by simpa only [List.append_assoc] using hrest)
    simpa only [List.append_assoc] using hline
  | lexeme hgap hlex hrest =>
    subst hbefore
    have hlexeme := Scans.lexeme (h.append hgap) hlex
      (by simpa only [List.append_assoc] using hrest)
    simpa only [List.append_assoc] using hlexeme

/-! ## Tilings without layout -/

theorem isLayout_token {text rest : List Char} {l : Lexeme} (h : Written text l rest)
    (p : Position) : (l.token p).isLayout = false := by
  simp [Token.isLayout, Lexeme.token, h.kind]

theorem filter_layout (level level' line : Nat) :
    (layout level level' line).filter (fun t => !t.isLayout) = [] := by
  refine List.filter_eq_nil_iff.mpr fun t ht => ?_
  simp [isLayout_of_mem_layout ht]

theorem filter_newline (p : Position) (level level' line : Nat) (ts : List Token) :
    (Token.plain .newline p :: (layout level level' line ++ ts)).filter (fun t => !t.isLayout) =
      Token.plain .newline p :: ts.filter (fun t => !t.isLayout) := by
  rw [List.filter_cons_of_pos rfl, List.filter_append, filter_layout, List.nil_append]

theorem Scans.tiling {before text : List Char} {level level' : Nat} {ts : List Token}
    (h : Scans before level text ts level') :
    Tiling before text (ts.filter fun t => !t.isLayout) := by
  induction h with
  | done hgap => exact .done hgap
  | line hgap _ ih =>
    rw [filter_newline]
    exact .line hgap ih
  | lexeme hgap hlex _ ih =>
    rw [List.filter_cons_of_pos (by rw [isLayout_token hlex]; rfl)]
    exact .lexeme hgap hlex ih

/-- There is one way to add the layout, whatever the level in front. -/
theorem Tiling.scans {before text : List Char} {ts : List Token} (h : Tiling before text ts) :
    ∀ level, ∃ ts' level', Scans before level text ts' level' ∧
      ts'.filter (fun t => !t.isLayout) = ts := by
  induction h with
  | done hgap => exact fun level => ⟨[], level, .done hgap, rfl⟩
  | @line before gap rest ts hgap _ ih =>
    intro level
    obtain ⟨ts', level', hscans, rfl⟩ := ih (levelAt level (headLine rest))
    exact ⟨_, level', .line hgap hscans, filter_newline _ _ _ _ _⟩
  | lexeme hgap hlex _ ih =>
    intro level
    obtain ⟨ts', level', hscans, rfl⟩ := ih level
    exact ⟨_, level', .lexeme hgap hlex hscans,
      List.filter_cons_of_pos (by rw [isLayout_token hlex]; rfl)⟩

theorem leftParen_ne_rightParen : Kind.leftParen ≠ .rightParen := by
  decide

theorem balanced_filter {ts : List Token} :
    Balanced .leftParen .rightParen (ts.filter fun t => !t.isLayout) ↔
      Balanced .leftParen .rightParen ts := by
  have hcount : ∀ d, Balances .leftParen .rightParen d (ts.filter fun t => !t.isLayout) 0 ↔
      Balances .leftParen .rightParen d ts 0 := by
    induction ts with
    | nil => exact fun _ => Iff.rfl
    | cons t ts ih =>
      intro d
      cases hlayout : t.isLayout with
      | true =>
        have hfree : t.kind ≠ .leftParen ∧ t.kind ≠ .rightParen := by
          rcases isLayout_iff.mp hlayout with hkind | hkind <;> rw [hkind] <;>
            exact ⟨nofun, nofun⟩
        rw [List.filter_cons_of_neg (by simp [hlayout]), ih, balances_free hfree.1 hfree.2]
      | false =>
        rw [List.filter_cons_of_pos (by simp [hlayout]), Balances, Balances, ih, ih, ih]
  rw [balanced_iff leftParen_ne_rightParen, balanced_iff leftParen_ne_rightParen, hcount]

end Offside
