import Mathlib.Data.List.Induction
import Offside.Proofs.Places

/-!
# Parentheses are matched, or one of them is blamed

The positions that a scanner keeps of open parentheses are as many as its tokens leave open
(`Scanner.Matched`). What a single character can do to them is said once (`Scanner.Turn`,
`Scanner.turn_step`): it leaves them alone, opens one where it stands, closes the innermost, or
is a closing parenthesis without a partner. From that follow the two ways in which a text can
fail for its parentheses: it stops at the closing one (`Scanner.exists_closing`), or it is read to
its end and the outermost open one has been open ever since (`Scanner.exists_opening`). Both are
shown for a text by induction on its length, one character at its end after the other.
-/

namespace Offside

/-- The token is no parenthesis. -/
def Token.IsFree (t : Token) : Prop :=
  t.kind ≠ .leftParen ∧ t.kind ≠ .rightParen

theorem isFree_ofWord (text : String) (p : Position) : (Token.ofWord text p).IsFree := by
  have hkind : (Token.ofWord text p).kind = (wordLexeme text).kind := by
    rw [wordLexeme, Token.ofWord]
    cases Kind.reserved? text <;> rfl
  rw [Token.IsFree, hkind]
  exact Scanner.wordLexeme_ne_paren text

theorem isFree_layout {level level' line : Nat} :
    ∀ t ∈ layout level level' line, t.IsFree := by
  intro t ht
  rw [Token.IsFree]
  rcases (mem_layout ht).1 with hkind | hkind <;> rw [hkind] <;> decide

theorem balances_append_free {d d' : Nat} {ts us : List Token}
    (h : Balances .leftParen .rightParen d ts d') (hus : ∀ t ∈ us, t.IsFree) :
    Balances .leftParen .rightParen d (ts ++ us) d' := by
  have hfree : Balances .leftParen .rightParen d' (us ++ []) d' :=
    (balances_append_of_free hus).mpr rfl
  rw [List.append_nil] at hfree
  exact h.append leftParen_ne_rightParen hfree

/-- What an equals sign would make of the symbol that is open is no parenthesis. -/
def Mode.IsFree : Mode → Prop
  | .operator _ _ extended => extended ≠ .leftParen ∧ extended ≠ .rightParen
  | _ => True

theorem isFree_sign {k : Kind} (h : k ∈ Scanner.signKinds) : k ≠ .leftParen ∧ k ≠ .rightParen := by
  have hall : ∀ k ∈ Scanner.signKinds, k ≠ .leftParen ∧ k ≠ .rightParen := by decide
  exact hall k h

namespace Mode

variable {m m' : Mode} {c : Char} {t : Token} {here p : Position} {cause : Cause}

theorem Opens.isFree (h : Opens here c m) : m.IsFree := by
  cases h with
  | operator hkind => exact isFree_sign (Scanner.extended?_mem hkind)
  | _ => trivial

theorem Continues.isFree (h : m.Continues c m') : m'.IsFree := by
  cases h <;> trivial

theorem Completes.isFree (h : m.Completes c t) (hm : m.IsFree) : t.IsFree := by
  cases h with
  | equals => exact hm
  | _ => simp [Token.IsFree]

theorem Ends.isFree (h : m.Ends c t) : t.IsFree := by
  cases h with
  | word => exact isFree_ofWord _ _
  | operator _ hkind => exact isFree_sign (Scanner.alone?_mem hkind)
  | _ => simp [Token.IsFree, Token.plain]

theorem Fails.ne_unbalanced (h : m.Fails here c cause p) : cause ≠ .unbalancedParentheses := by
  cases h <;> simp

theorem Unfinished.ne_unbalanced (h : m.Unfinished cause p) :
    cause ≠ .unbalancedParentheses := by
  cases h <;> simp

end Mode

namespace Scanner

/-! ## One character -/

/-- The scanner with more tokens, none of which is a parenthesis. -/
structure Grows (s s' : Scanner) : Prop where
  tokens : ∃ ts, s'.tokens.toList = s.tokens.toList ++ ts ∧ ∀ t ∈ ts, t.IsFree
  parens : s'.parens = s.parens
  position : s'.position = s.position
  mode : s'.mode = s.mode

/-- The scanner with more tokens, none of which is a parenthesis, and perhaps with an open lexeme
or a failure that is none of parentheses. -/
structure Keeps (s s' : Scanner) : Prop where
  tokens : ∃ ts, s'.tokens.toList = s.tokens.toList ++ ts ∧ ∀ t ∈ ts, t.IsFree
  parens : s'.parens = s.parens
  failure : ∀ p, s'.failure? = some ⟨.unbalancedParentheses, p⟩ →
    s.failure? = some ⟨.unbalancedParentheses, p⟩

/-- What reading `c` does to the parentheses. -/
inductive Turn (s : Scanner) (c : Char) (s' : Scanner) : Prop
  | keeps (kept : s.Keeps s') (mode : s'.mode.IsFree)
  | opens (mark : c = '(') (running : s.failure? = none)
      (tokens : ∃ ts, s'.tokens.toList =
        s.tokens.toList ++ (ts ++ [Token.plain .leftParen s.position]) ∧ ∀ t ∈ ts, t.IsFree)
      (parens : s'.parens = s.position :: s.parens) (mode : s'.mode = .gap)
  | closes {p rest} (parens : s.parens = p :: rest)
      (tokens : ∃ ts, s'.tokens.toList =
        s.tokens.toList ++ (ts ++ [Token.plain .rightParen s.position]) ∧ ∀ t ∈ ts, t.IsFree)
      (parens' : s'.parens = rest) (mode : s'.mode = .gap)
  | blames (mark : c = ')') (running : s.failure? = none) (parens : s.parens = [])
      (tokens : ∃ ts, s'.tokens.toList = s.tokens.toList ++ ts ∧ ∀ t ∈ ts, t.IsFree)
      (parens' : s'.parens = []) (mode : s'.mode = .stopped ⟨.unbalancedParentheses, s.position⟩)

variable {s s₁ s' : Scanner} {c : Char}

theorem Grows.refl (s : Scanner) : s.Grows s :=
  ⟨⟨[], by simp⟩, rfl, rfl, rfl⟩

theorem Grows.push (h : s.Grows s₁) {t : Token} (ht : t.IsFree) : s.Grows (s₁.push t) := by
  obtain ⟨ts, htokens, hfree⟩ := h.tokens
  refine ⟨⟨ts ++ [t], by simp [Scanner.push, htokens], fun u hu => ?_⟩, h.parens, h.position,
    h.mode⟩
  rcases List.mem_append.mp hu with hu | hu
  · exact hfree u hu
  · exact List.mem_singleton.mp hu ▸ ht

theorem Grows.indentTo (h : s.Grows s₁) (level : Nat) : s.Grows (s₁.indentTo level) := by
  obtain ⟨ts, htokens, hfree⟩ := h.tokens
  rw [indentTo_eq, htokens, List.append_assoc]
  refine ⟨⟨ts ++ layout s₁.level level s₁.position.line, rfl, fun u hu => ?_⟩, h.parens,
    h.position, h.mode⟩
  rcases List.mem_append.mp hu with hu | hu
  · exact hfree u hu
  · exact isFree_layout u hu

theorem Grows.keeps (h : s.Grows s₁) : s.Keeps s₁ := by
  refine ⟨h.tokens, h.parens, fun p hp => ?_⟩
  rwa [failure?, h.mode] at hp

theorem Keeps.stop (h : s.Grows s₁) {cause : Cause} (hcause : cause ≠ .unbalancedParentheses)
    (p : Position) : s.Keeps (s₁.stop cause p) := by
  refine ⟨h.tokens, h.parens, fun q hq => ?_⟩
  cases hq
  exact absurd rfl hcause

theorem Turn.stop (h : s.Grows s₁) (c : Char) {cause : Cause}
    (hcause : cause ≠ .unbalancedParentheses) (p : Position) : Turn s c (s₁.stop cause p) :=
  .keeps (.stop h hcause p) trivial

theorem Turn.enter (h : s.Grows s₁) (c : Char) {mode : Mode} (hmode : mode.IsFree)
    (hgoes : ∀ d, mode ≠ .stopped d) : Turn s c (s₁.enter c mode) := by
  refine .keeps ⟨h.tokens, h.parens, fun p hp => ?_⟩ hmode
  rw [failure?_of_mode rfl hgoes] at hp
  cases hp

theorem Settles.grows (h : s.Settles c s₁) : s.Grows s₁ := by
  cases h with
  | idle => exact .refl s
  | ends hends => exact (Grows.refl s).push hends.isFree
  | indents => exact (Grows.refl s).indentTo _

theorem Turn.begins (h : s.Grows s₁) (hs : s.failure? = none) (hbegins : s₁.Begins c s') :
    Turn s c s' := by
  obtain ⟨ts, htokens, hfree⟩ := h.tokens
  cases hbegins with
  | opens hopens => exact enter h c hopens.isFree hopens.ne_stopped
  | newline => exact enter (h.push (by simp [Token.IsFree, Token.plain])) c trivial (by simp)
  | sign hkind => exact enter (h.push (isFree_sign (single?_mem hkind))) c trivial (by simp)
  | leftParen hc =>
    refine .opens hc hs ⟨ts, ?_, hfree⟩ ?_ rfl
    · simp [Scanner.enter, pushPlain, Scanner.push, htokens, h.position]
    · simp [Scanner.enter, pushPlain, Scanner.push, h.position, h.parens]
  | rightParen _ hparens =>
    refine .closes (h.parens ▸ hparens) ⟨ts, ?_, hfree⟩ rfl rfl
    simp [Scanner.enter, pushPlain, Scanner.push, htokens, h.position]
  | unmatched hc hparens =>
    exact .blames hc hs (h.parens ▸ hparens) h.tokens hparens (by rw [← h.position]; rfl)
  | unrecognised => exact stop h c (by simp) _

/-- What a step does to the parentheses. A lexeme that is open is closed first, and is none; the
kind of an operator has been chosen by then, so the mode has to be known to be one that arises. -/
theorem Moves.turn (h : s.Moves c s') (hmode : s.mode.IsFree) : Turn s c s' := by
  have hrefl := Grows.refl s
  cases h with
  | rests => exact .keeps hrefl.keeps hmode
  | continues hc => exact .enter hrefl c hc.isFree hc.ne_stopped
  | completes hc => exact .enter (hrefl.push (hc.isFree hmode)) c trivial (by simp)
  | begins hs => exact .begins hs.grows hs.running (begins_begin _ c)
  | fails hfails => exact .stop hrefl c hfails.ne_unbalanced _

theorem turn_step (hmode : s.mode.IsFree) (c : Char) : Turn s c (s.step c) :=
  (moves_step s c).turn hmode

/-! ## All characters -/

/-- As many parentheses are open as the tokens so far leave open. -/
structure Matched (s : Scanner) : Prop where
  mode : s.mode.IsFree
  tokens : Balances .leftParen .rightParen 0 s.tokens.toList s.parens.length

theorem Keeps.balances (h : s.Keeps s')
    (hs : Balances .leftParen .rightParen 0 s.tokens.toList s.parens.length) :
    Balances .leftParen .rightParen 0 s'.tokens.toList s'.parens.length := by
  obtain ⟨ts, hts, hfree⟩ := h.tokens
  rw [hts, h.parens]
  exact balances_append_free hs hfree

theorem Matched.step (h : s.Matched) (c : Char) : (s.step c).Matched := by
  have htokens := h.tokens
  cases turn_step h.mode c with
  | keeps kept mode => exact ⟨mode, kept.balances htokens⟩
  | opens _ _ tokens parens mode =>
    obtain ⟨ts, hts, hfree⟩ := tokens
    refine ⟨by rw [mode]; trivial, ?_⟩
    rw [hts, parens]
    exact htokens.append leftParen_ne_rightParen
      ((balances_append_of_free hfree).mpr ((balances_open rfl).mpr rfl))
  | closes parens tokens parens' mode =>
    obtain ⟨ts, hts, hfree⟩ := tokens
    refine ⟨by rw [mode]; trivial, ?_⟩
    rw [parens] at htokens
    rw [hts, parens']
    exact htokens.append leftParen_ne_rightParen ((balances_append_of_free hfree).mpr
      ((balances_close leftParen_ne_rightParen rfl).mpr ⟨Nat.succ_pos _, rfl⟩))
  | blames _ _ parens tokens parens' mode =>
    obtain ⟨ts, hts, hfree⟩ := tokens
    refine ⟨by rw [mode]; trivial, ?_⟩
    rw [parens] at htokens
    rw [hts, parens']
    exact balances_append_free htokens hfree

theorem matched_scan : ∀ (text : List Char) {s : Scanner}, s.Matched → (s.scan text).Matched
  | [], _, h => h
  | c :: text, _, h => matched_scan text (h.step c)

theorem matched_text (text : List Char) : (initial.scan text).Matched :=
  matched_scan text ⟨trivial, rfl⟩

theorem scan_concat (s : Scanner) (text : List Char) (c : Char) :
    s.scan (text ++ [c]) = (s.scan text).step c := by
  rw [scan_append]
  rfl

theorem position_text {text : List Char} (h : (initial.scan text).failure? = none) :
    (initial.scan text).position = Position.behind text :=
  (placed_scan text [] placed_initial).position h

/-- A parenthesis is opened behind `before`, where none is open, and not closed again as far as
`rest` goes. -/
structure StaysOpen (before rest : List Char) : Prop where
  none_open : (initial.scan before).parens = []
  since : ∀ more, more <+: rest → (initial.scan (before ++ '(' :: more)).parens ≠ []

theorem StaysOpen.concat {before rest : List Char} (h : StaysOpen before rest) {c : Char}
    (hc : (initial.scan (before ++ '(' :: rest ++ [c])).parens ≠ []) :
    StaysOpen before (rest ++ [c]) := by
  refine ⟨h.none_open, fun more hmore => ?_⟩
  rcases List.prefix_concat_iff.mp hmore with rfl | hmore
  · simpa using hc
  · exact h.since more hmore

/-- The outermost open parenthesis has been open since it was read. -/
theorem exists_opening (text : List Char) : ∀ p, (initial.scan text).parens.getLast? = some p →
    ∃ before rest, text = before ++ '(' :: rest ∧ p = Position.behind before ∧
      StaysOpen before rest := by
  induction text using List.reverseRecOn with
  | nil =>
    intro p hp
    cases hp
  | append_singleton text c ih =>
    intro p hp
    have hopen : (initial.scan (text ++ [c])).parens ≠ [] := by
      intro hnil
      rw [hnil] at hp
      cases hp
    -- Unless `c` is the outermost one itself, it is the same as before.
    have hsame : (initial.scan text).parens.getLast? = some p → ∃ before rest,
        text ++ [c] = before ++ '(' :: rest ∧ p = Position.behind before ∧
          StaysOpen before rest := by
      intro hlast
      obtain ⟨before, rest, rfl, hp, h⟩ := ih p hlast
      exact ⟨before, rest ++ [c], by simp, hp, h.concat hopen⟩
    rw [scan_concat] at hp
    cases turn_step (matched_text text).mode c with
    | keeps kept => exact hsame (kept.parens ▸ hp)
    | opens mark running _ parens =>
      rw [parens] at hp
      rcases hparens : (initial.scan text).parens with _ | ⟨q, qs⟩
      · rw [hparens] at hp
        obtain rfl : (initial.scan text).position = p := by simpa using hp
        refine ⟨text, [], by rw [mark], position_text running, hparens, fun more hmore => ?_⟩
        rw [List.prefix_nil.mp hmore, ← mark]
        exact hopen
      · rw [hparens, List.getLast?_cons_cons, ← hparens] at hp
        exact hsame hp
    | closes parens _ parens' =>
      rw [parens'] at hp
      refine hsame ?_
      rw [parens, List.getLast?_cons, hp]
      rfl
    | blames _ _ _ _ parens' =>
      rw [parens'] at hp
      cases hp

/-- Where a scanner gives up for the parentheses, it reads a closing one and none is open. -/
theorem exists_closing (text : List Char) : ∀ p,
    (initial.scan text).failure? = some ⟨.unbalancedParentheses, p⟩ →
    ∃ before rest, text = before ++ ')' :: rest ∧ p = Position.behind before ∧
      (initial.scan before).parens = [] := by
  induction text using List.reverseRecOn with
  | nil =>
    intro p hp
    cases hp
  | append_singleton text c ih =>
    intro p hp
    have hgap : ∀ {s : Scanner}, s.mode = .gap → s.failure? ≠ some ⟨.unbalancedParentheses, p⟩ := by
      intro s hs
      simp [failure?_of_mode hs]
    rw [scan_concat] at hp
    cases turn_step (matched_text text).mode c with
    | keeps kept =>
      obtain ⟨before, rest, rfl, hp, h⟩ := ih p (kept.failure p hp)
      exact ⟨before, rest ++ [c], by simp, hp, h⟩
    | opens _ _ _ _ mode => exact absurd hp (hgap mode)
    | closes _ _ _ mode => exact absurd hp (hgap mode)
    | blames mark running parens _ _ mode =>
      simp only [failure?, mode] at hp
      cases hp
      exact ⟨text, [], by rw [mark], position_text running, parens⟩

/-! ## The end of a text -/

theorem Closes.keeps (h : s.Closes s') : s.Keeps s' := by
  have hrefl := Grows.refl s
  cases h with
  | rests => exact hrefl.keeps
  | ends hends => exact (hrefl.push hends.isFree).keeps
  | fails hopen => exact .stop hrefl hopen.ne_unbalanced _

theorem keeps_endLexeme (s : Scanner) : s.Keeps s.endLexeme :=
  (closes_endLexeme s).keeps

theorem result_finish (s : Scanner) : s.finish.result =
    match s.endLexeme.failure? with
    | some d => .error d
    | none => s.endLexeme.endBlocks.result := by
  rw [finish]
  split <;> simp only [*, result]

end Scanner

/-- The tokens that have been emitted once `text` has been read. -/
def tokensBehind (text : List Char) : List Token :=
  (Scanner.initial.scan text).tokens.toList

theorem balanced_tokensBehind {text : List Char} (h : (Scanner.initial.scan text).parens = []) :
    Balanced .leftParen .rightParen (tokensBehind text) := by
  have htokens := (Scanner.matched_text text).tokens
  rw [h] at htokens
  exact (balanced_iff leftParen_ne_rightParen).mpr htokens

theorem countKind_tokensBehind {text : List Char} (h : (Scanner.initial.scan text).parens ≠ []) :
    countKind .rightParen (tokensBehind text) < countKind .leftParen (tokensBehind text) := by
  have hcount := ((balances_iff leftParen_ne_rightParen).mp (Scanner.matched_text text).tokens).2
  have hopen := List.length_pos_iff.mpr h
  simp only [tokensBehind]
  omega

/-- The parentheses of a text that has tokens are balanced. If a text has none for its
parentheses, they are balanced up to the one that is blamed: a closing one, or an opening one
behind which the text is read to its end and some parenthesis is open everywhere. -/
theorem tokenize_parentheses (source : String) :
    (∀ ts, tokenize source = .ok ts → Balanced .leftParen .rightParen ts) ∧
    ∀ p, tokenize source = .error ⟨.unbalancedParentheses, p⟩ →
      ∃ before c rest, source.toList = before ++ c :: rest ∧ p = Position.behind before ∧
        Balanced .leftParen .rightParen (tokensBehind before) ∧
        (c = ')' ∨
          c = '(' ∧ (Scanner.initial.scan source.toList).endLexeme.failure? = none ∧
            ∀ more, more <+: rest →
              countKind .rightParen (tokensBehind (before ++ '(' :: more)) <
                countKind .leftParen (tokensBehind (before ++ '(' :: more))) := by
  rw [tokenize, Scanner.result_finish]
  have hkeeps := Scanner.keeps_endLexeme (Scanner.initial.scan source.toList)
  split
  · next d hd =>
    refine ⟨by rintro _ ⟨⟩, ?_⟩
    rintro p ⟨⟩
    obtain ⟨before, rest, htext, hp, hbefore⟩ := Scanner.exists_closing _ p (hkeeps.failure p hd)
    exact ⟨before, ')', rest, htext, hp, balanced_tokensBehind hbefore, .inl rfl⟩
  · next hend =>
    rw [Scanner.result_endBlocks hend]
    split
    · next hparens =>
      refine ⟨?_, by rintro _ ⟨⟩⟩
      rintro _ ⟨⟩
      have htokens := hkeeps.balances (Scanner.matched_text source.toList).tokens
      rw [List.getLast?_eq_none_iff.mp hparens] at htokens
      exact (balanced_iff leftParen_ne_rightParen).mpr (balances_append_free htokens isFree_layout)
    · next outermost hparens =>
      refine ⟨by rintro _ ⟨⟩, ?_⟩
      rintro p ⟨⟩
      rw [hkeeps.parens] at hparens
      obtain ⟨before, rest, htext, hp, hopen⟩ := Scanner.exists_opening _ _ hparens
      exact ⟨before, '(', rest, htext, hp, balanced_tokensBehind hopen.none_open,
        .inr ⟨rfl, hend, fun more hmore => countKind_tokensBehind (hopen.since more hmore)⟩⟩

/-- The outer of two open parentheses is blamed; the one in the string is none. -/
theorem tokenize_parentheses_outermost :
    tokenize "f(\"(\" (a)\n" = .error ⟨.unbalancedParentheses, ⟨1, 2⟩⟩ ∧
      ∃ before c rest, "f(\"(\" (a)\n".toList = before ++ c :: rest ∧
        (⟨1, 2⟩ : Position) = Position.behind before ∧
        Balanced .leftParen .rightParen (tokensBehind before) := by
  have h : tokenize "f(\"(\" (a)\n" = .error ⟨.unbalancedParentheses, ⟨1, 2⟩⟩ := by rfl
  obtain ⟨before, c, rest, htext, hp, hbalanced, -⟩ := (tokenize_parentheses _).2 _ h
  exact ⟨h, before, c, rest, htext, hp, hbalanced⟩

end Offside
