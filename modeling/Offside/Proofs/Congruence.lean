import Mathlib.Data.List.Forall2
import Offside.Proofs.Acceptance

/-!
# What parsers make of positions

A parser copies positions into diagnostics and does nothing else with them. So on two streams
that have the same lexemes it does the same, and where it fails it blames places that
correspond to each other. The correspondence `R` between the places of the two streams is
arbitrary: the tokens have to stand at places that it relates (`Stream.Alike`), and then so do
the failures (`Parse.EndsAlike`).

`Parse.Alike` compares two parsers, since what follows a parser that returns a position is not
the same in both runs; a production is compared with itself (`Parse.Blind`). It is put together
along the productions like `Parse.Reads`, and for what is nested along the levels that are left
(`nested_blindTo`). So it is with whole lists of tokens (`parseTokens_alike`), where places may
correspond that belong to the same index (`parseTokens_sameIndex`).
-/

namespace Offside

/-! ## Streams -/

section

variable {R : Position → Position → Prop}

/-- The same lexeme at related places. -/
def Token.Alike (R : Position → Position → Prop) (t t' : Token) : Prop :=
  t.lexeme = t'.lexeme ∧ R t.position t'.position

/-- The same lexemes to be read, at related places, with related ends. -/
structure Stream.Alike (R : Position → Position → Prop) (s s' : Stream) : Prop where
  tokens : List.Forall₂ (Token.Alike R) s.tokens s'.tokens
  last : R s.last s'.last

theorem Token.kind_eq {t t' : Token} (h : t.lexeme = t'.lexeme) : t.kind = t'.kind :=
  congrArg Lexeme.kind h

theorem Token.value_eq {t t' : Token} (h : t.lexeme = t'.lexeme) : t.value = t'.value :=
  congrArg Lexeme.value h

theorem Token.text_eq {t t' : Token} (h : t.lexeme = t'.lexeme) : t.text = t'.text := by
  rw [text, text, value_eq h]

theorem lexemesOf_eq {ts ts' : List Token} (h : List.Forall₂ (Token.Alike R) ts ts') :
    lexemesOf ts = lexemesOf ts' := by
  induction h with
  | nil => rfl
  | cons ht _ ih => exact List.cons_eq_cons.mpr ⟨ht.1, ih⟩

/-- Line ends are left out alike. -/
theorem dropNewlines_alike {ts ts' : List Token} (h : List.Forall₂ (Token.Alike R) ts ts') :
    List.Forall₂ (Token.Alike R) (ts.dropWhile fun t => t.kind == .newline)
      (ts'.dropWhile fun t => t.kind == .newline) := by
  induction h with
  | nil => exact .nil
  | @cons t t' _ _ ht hts ih =>
    rw [List.dropWhile_cons, List.dropWhile_cons, ← Token.kind_eq ht.1]
    split
    · exact ih
    · exact .cons ht hts

theorem behindElseLineIf?_alike {ts ts' : List Token} (h : List.Forall₂ (Token.Alike R) ts ts') :
    Option.Rel (List.Forall₂ (Token.Alike R)) (behindElseLineIf? ts) (behindElseLineIf? ts') := by
  cases h with
  | nil => exact .none
  | cons hfirst hrest =>
    cases hrest with
    | nil => exact .none
    | cons hsecond hrest =>
      rw [behindElseLineIf?, behindElseLineIf?, ← Token.kind_eq hfirst.1,
        ← Token.kind_eq hsecond.1]
      -- Both go on with what is left behind the line ends, and look at its head.
      have hdrop := dropNewlines_alike hrest
      generalize List.dropWhile _ _ = behind at hdrop ⊢
      generalize List.dropWhile _ _ = behind' at hdrop ⊢
      split
      · cases hdrop with
        | nil => exact .none
        | cons hthird hrest =>
          dsimp only
          rw [← Token.kind_eq hthird.1]
          split
          · exact .some hrest
          · exact .none
      · exact .none

namespace Stream.Alike

variable {s s' : Stream}

theorem position (h : s.Alike R s') : R s.position s'.position := by
  obtain ⟨tokens, last⟩ := s
  obtain ⟨tokens', last'⟩ := s'
  cases h.tokens with
  | nil => exact h.last
  | cons ht => exact ht.2

/-- The two streams lack the same token, at related places. -/
theorem unexpected (h : s.Alike R s') (expected : List Kind) : ∃ cause,
    s.unexpected expected = ⟨cause, s.position⟩ ∧
      s'.unexpected expected = ⟨cause, s'.position⟩ := by
  obtain ⟨tokens, last⟩ := s
  obtain ⟨tokens', last'⟩ := s'
  cases h.tokens with
  | nil => exact ⟨_, rfl, rfl⟩
  | cons ht =>
    refine ⟨_, rfl, ?_⟩
    rw [Token.kind_eq ht.1]
    rfl

theorem take? (h : s.Alike R s') (kind : Kind) : Option.Rel
    (fun r r' => r.1.Alike R r'.1 ∧ r.2.Alike R r'.2) (s.take? kind) (s'.take? kind) := by
  obtain ⟨tokens, last⟩ := s
  obtain ⟨tokens', last'⟩ := s'
  cases h.tokens with
  | nil => exact .none
  | cons ht hrest =>
    simp only [Stream.take?, ← Token.kind_eq ht.1]
    split
    · exact .some ⟨ht, hrest, h.last⟩
    · exact .none

end Stream.Alike

/-- All tokens of a stream and its end correspond if its tokens do. -/
theorem Stream.ofList_alike {ts ts' : List Token} (h : List.Forall₂ (Token.Alike R) ts ts')
    (hne : ts ≠ []) : (Stream.ofList ts).Alike R (Stream.ofList ts') := by
  refine ⟨h, ?_⟩
  rw [ofList, ofList, ← List.head?_reverse, ← List.head?_reverse]
  have hreverse := List.forall₂_reverse_iff.mpr h
  rw [← List.reverse_ne_nil_iff] at hne
  generalize ts.reverse = rs at hreverse hne ⊢
  generalize ts'.reverse = rs' at hreverse ⊢
  cases hreverse with
  | nil => exact absurd rfl hne
  | cons ht => exact ht.2

end

namespace Parse

/-- The same value and streams that are alike, or failures for one cause at related places. -/
inductive EndsAlike {α : Type} (R : Position → Position → Prop) :
    EStateM.Result Diagnostic State α → EStateM.Result Diagnostic State α → Prop
  | ok (a : α) {s s' : State} : s.stream.Alike R s'.stream → EndsAlike R (.ok a s) (.ok a s')
  | error (cause : Cause) {p p' : Position} (s s' : State) : R p p' →
      EndsAlike R (.error ⟨cause, p⟩ s) (.error ⟨cause, p'⟩ s')

/-- On streams that are alike the two parsers end alike. -/
def Alike {α : Type} (R : Position → Position → Prop) (p p' : Parse α) : Prop :=
  ∀ ⦃s s' : State⦄, s.stream.Alike R s'.stream → EndsAlike R (p s) (p' s')

/-- The same of reading items. -/
def AllAlike {α : Type} (R : Position → Position → Prop) (g g' : Gather α) : Prop :=
  ∀ ⦃s s' : State⦄, s.stream.Alike R s'.stream →
    (g s).1 = (g' s').1 ∧ EndsAlike R (g s).2 (g' s').2

/-- What the parser does depends on lexemes only. -/
def Blind {α : Type} (R : Position → Position → Prop) (p : Parse α) : Prop :=
  Alike R p p

variable {α β : Type} {R : Position → Position → Prop}

/-! ## Sequences -/

theorem alike_bind {p p' : Parse α} {f f' : α → Parse β} (hp : Alike R p p')
    (hf : ∀ a, Alike R (f a) (f' a)) : Alike R (p >>= f) (p' >>= f') := by
  intro s s' hs
  show EndsAlike R (EStateM.bind p f s) (EStateM.bind p' f' s')
  have hend := hp hs
  rw [EStateM.bind, EStateM.bind]
  generalize p s = r at hend ⊢
  generalize p' s' = r' at hend ⊢
  cases hend with
  | ok a hmid => exact hf a hmid
  | error cause s s' h => exact .error cause s s' h

theorem blind_pure (a : α) : Blind R (pure a : Parse α) :=
  fun _ _ hs => .ok a hs

/-- Behind a parser for the place where it stands the places correspond. -/
theorem alike_position_bind {f f' : Position → Parse β}
    (hf : ∀ here here', R here here' → Alike R (f here) (f' here')) :
    Alike R (position >>= f) (position >>= f') :=
  fun _ _ hs => hf _ _ hs.position hs

/-! ## Looking ahead, failing, and taking tokens -/

theorem lexemes_eq {s s' : State} (h : s.stream.Alike R s'.stream) : s.lexemes = s'.lexemes :=
  lexemesOf_eq h.tokens

theorem blind_nextKind? : Blind R nextKind? := by
  intro s s' hs
  have hkind : s.stream.kind? 0 = s'.stream.kind? 0 := by
    rw [kind?_zero, kind?_zero, lexemes_eq hs]
  rw [nextKind?, look, look, hkind]
  exact .ok _ hs

theorem blind_nextAre (kinds : List Kind) : Blind R (nextAre kinds) := by
  intro s s' hs
  have hstarts : s.stream.startsWith kinds = s'.stream.startsWith kinds := by
    rw [startsWith_eq, startsWith_eq, lexemes_eq hs]
  rw [nextAre, look, look, hstarts]
  exact .ok _ hs

theorem blind_note (e : Event) : Blind R (note e) :=
  fun _ _ hs => .ok () hs

theorem blind_unexpected (expected : List Kind) :
    Blind R (unexpected expected : Parse α) := by
  intro s s' hs
  obtain ⟨cause, h, h'⟩ := hs.unexpected expected
  rw [unexpected, unexpected, h, h']
  exact .error cause s s' hs.position

theorem alike_fail (cause : Cause) {p p' : Position} (h : R p p') :
    Alike R (fail cause p : Parse α) (fail cause p') :=
  fun s s' _ => .error cause s s' h

theorem blind_failHere (cause : Cause) : Blind R (failHere cause : Parse α) :=
  alike_position_bind fun _ _ h => alike_fail cause h

/-- What is done with a token may depend on its lexeme. -/
theorem alike_take?_bind {kind : Kind} {f f' : Option Token → Parse β}
    (hnone : Alike R (f none) (f' none))
    (hsome : ∀ t t', t.lexeme = t'.lexeme → Alike R (f (some t)) (f' (some t'))) :
    Alike R (take? kind >>= f) (take? kind >>= f') := by
  intro s s' hs
  show EndsAlike R (EStateM.bind (take? kind) f s) (EStateM.bind (take? kind) f' s')
  have htake := hs.take? kind
  rw [EStateM.bind, EStateM.bind, Parse.take?, Parse.take?]
  generalize s.stream.take? kind = r at htake ⊢
  generalize s'.stream.take? kind = r' at htake ⊢
  cases htake with
  | none => exact hnone hs
  | some h => exact hsome _ _ h.1.1 h.2

theorem alike_expect_bind {kind : Kind} {f f' : Token → Parse β}
    (hf : ∀ t t', t.lexeme = t'.lexeme → Alike R (f t) (f' t')) :
    Alike R (expect kind >>= f) (expect kind >>= f') := by
  -- `expect` itself is not blind: it returns the token with its position.
  rw [expect, bind_assoc, bind_assoc]
  exact alike_take?_bind (alike_bind (blind_unexpected _) fun t => hf t t rfl) hf

/-- A value is all that is made of the token, if there is one. -/
theorem blind_take?_value {kind : Kind} (f : Option String → α) :
    Blind R (do return f ((← take? kind).bind Token.value)) := by
  refine alike_take?_bind (blind_pure _) fun t t' h => ?_
  rw [Option.bind_some, Option.bind_some, Token.value_eq h]
  exact blind_pure _

theorem blind_accept (kind : Kind) : Blind R (accept kind) :=
  alike_take?_bind (blind_pure _) fun _ _ _ => blind_pure _

theorem blind_discard_expect (kind : Kind) : Blind R (discard (expect kind)) := by
  have heq : discard (expect kind) = expect kind >>= fun _ => pure () := by
    show (fun _ => ()) <$> expect kind = _
    exact map_eq_pure_bind _ _
  rw [heq]
  exact alike_expect_bind fun _ _ _ => blind_pure _

/-- A text is all that is made of the token. -/
theorem blind_expect_text {kind : Kind} (f : String → α) :
    Blind R (do return f (← expect kind).text) := by
  refine alike_expect_bind fun t t' h => ?_
  rw [Token.text_eq h]
  exact blind_pure _

theorem blind_takeMeaning? (meaning? : Kind → Option α) : Blind R (takeMeaning? meaning?) := by
  rintro ⟨⟨tokens, last⟩, events, depth⟩ ⟨⟨tokens', last'⟩, events', depth'⟩ hs
  cases hs.tokens with
  | nil => exact .ok none hs
  | cons ht hrest =>
    simp only [takeMeaning?, ← Token.kind_eq ht.1]
    split
    · exact .ok _ ⟨hrest, hs.last⟩
    · exact .ok none hs

theorem blind_skipNewlines : Blind R skipNewlines :=
  fun _ _ hs => .ok () ⟨dropNewlines_alike hs.tokens, hs.last⟩

/-! ## Repetition -/

theorem alike_gatherUpTo {item? item?' : Parse (Option α)} (h : Alike R item? item?') :
    ∀ rounds : Nat, AllAlike R (gatherUpTo item? rounds) (gatherUpTo item?' rounds)
  | 0 => fun _ _ hs => ⟨rfl, .ok () hs⟩
  | rounds + 1 => by
    intro s s' hs
    have hend := h hs
    rw [gatherUpTo, gatherUpTo]
    generalize item? s = r at hend ⊢
    generalize item?' s' = r' at hend ⊢
    cases hend with
    | error cause s s' h => exact ⟨rfl, .error cause s s' h⟩
    | ok r hmid =>
      cases r with
      | none => exact ⟨rfl, .ok () hmid⟩
      | some a =>
        obtain ⟨hitems, hends⟩ := alike_gatherUpTo h rounds hmid
        exact ⟨congrArg (a :: ·) hitems, hends⟩

theorem alike_gather {item? item?' : Parse (Option α)} (h : Alike R item? item?') :
    AllAlike R (gather item?) (gather item?') := by
  intro s s' hs
  rw [gather, gather, Stream.size, hs.tokens.length_eq, Stream.size]
  exact alike_gatherUpTo h _ hs

theorem alike_toParse {g g' : Gather α} (h : AllAlike R g g') :
    Alike R g.toParse g'.toParse := by
  intro s s' hs
  obtain ⟨hitems, hends⟩ := h hs
  rw [Gather.toParse, Gather.toParse]
  generalize g s = r at hitems hends
  generalize g' s' = r' at hitems hends
  obtain ⟨items, ending⟩ := r
  obtain ⟨items', ending'⟩ := r'
  cases hitems
  cases hends with
  | ok _ h => exact .ok items h
  | error cause s s' h => exact .error cause s s' h

theorem alike_after {first first' : Parse Unit} {g g' : Gather α} (hfirst : Alike R first first')
    (h : AllAlike R g g') : AllAlike R (g.after first) (g'.after first') := by
  intro s s' hs
  have hend := hfirst hs
  rw [Gather.after, Gather.after]
  generalize first s = r at hend ⊢
  generalize first' s' = r' at hend ⊢
  cases hend with
  | ok _ hmid => exact h hmid
  | error cause s s' h => exact ⟨rfl, .error cause s s' h⟩

/-! ## Productions -/

theorem blind_acceptElseLineIf : Blind R acceptElseLineIf := by
  intro s s' hs
  have hbehind := behindElseLineIf?_alike hs.tokens
  rw [acceptElseLineIf, acceptElseLineIf]
  generalize behindElseLineIf? s.stream.tokens = r at hbehind ⊢
  generalize behindElseLineIf? s'.stream.tokens = r' at hbehind ⊢
  cases hbehind with
  | none => exact .ok false hs
  | some h => exact .ok true ⟨h, hs.last⟩

theorem blind_character : Blind R character := by
  refine alike_position_bind fun here here' hhere => alike_expect_bind fun t t' h => ?_
  rw [← Token.text_eq h]
  split
  · exact blind_pure _
  · exact alike_fail _ hhere

theorem alike_condition {expression expression' : Parse Expr}
    (h : Alike R expression expression') : Alike R (condition expression) (condition expression') := by
  refine alike_position_bind fun here here' hhere => alike_bind h fun left =>
    alike_bind (blind_takeMeaning? _) fun op => ?_
  cases op with
  | some op => exact alike_bind h fun _ => blind_pure _
  | none =>
    cases left with
    | call => exact blind_pure _
    | var => exact blind_pure _
    | _ => exact alike_fail _ hhere

/-- Parsers that do the same on streams that are alike. -/
def likeness (R : Position → Position → Prop) : Comparison where
  Parsers := Alike R
  Items := AllAlike R
  pure := blind_pure
  bind := alike_bind
  nextKind? := blind_nextKind?
  nextAre := blind_nextAre
  note := blind_note
  unexpected := blind_unexpected
  failHere _ := blind_failHere _
  accept := blind_accept
  expect := blind_discard_expect
  text _ f := blind_expect_text f
  value _ f := blind_take?_value f
  takeMeaning? := blind_takeMeaning?
  skipNewlines := blind_skipNewlines
  acceptElseLineIf := blind_acceptElseLineIf
  character := blind_character
  condition := alike_condition
  gather := alike_gather
  after := alike_after
  toParse := alike_toParse

end Parse

/-- What a production does depends on lexemes only. -/
theorem Uniform.blind {α : Type} {R : Position → Position → Prop} {production : Nested → Parse α}
    (h : Uniform production) (levels : Nat) : Parse.Blind R (production (nested levels)) :=
  h (Parse.likeness R) ((Parse.likeness R).nested levels)

/-! ## Whole lists of tokens -/

/-- The same value, or failures for one cause at related places. -/
inductive OutcomesAlike {α : Type} (R : Position → Position → Prop) :
    Except Diagnostic α → Except Diagnostic α → Prop
  | ok (a : α) : OutcomesAlike R (.ok a) (.ok a)
  | error (cause : Cause) {p p' : Position} : R p p' →
      OutcomesAlike R (.error ⟨cause, p⟩) (.error ⟨cause, p'⟩)

/-- Tokens with the same lexemes are the same program, or are refused for the same cause at
places that correspond to each other. -/
theorem parseTokens_alike {R : Position → Position → Prop} {ts ts' : List Token}
    (h : List.Forall₂ (Token.Alike R) ts ts') :
    OutcomesAlike R (parseTokens ts) (parseTokens ts') := by
  by_cases hne : ts = []
  · subst hne
    cases h
    exact .ok _
  have hstart : (Parse.State.mk (Stream.ofList ts) #[] 0).stream.Alike R
      (Parse.State.mk (Stream.ofList ts') #[] 0).stream := Stream.ofList_alike h hne
  have hend := uniform_program.blind (R := R) maxNesting hstart
  rw [parseTokens_eq, parseTokens_eq, parseWithin, parseWithin]
  generalize Parse.program _ _ = r at hend ⊢
  generalize Parse.program _ _ = r' at hend ⊢
  cases hend with
  | ok p => exact .ok p
  | error cause _ _ hR => exact .error cause hR

/-- The places of the tokens at one index of two lists. -/
def SameIndex (ts ts' : List Token) (p p' : Position) : Prop :=
  ∃ (i : Nat) (t t' : Token), ts[i]? = some t ∧ ts'[i]? = some t' ∧
    t.position = p ∧ t'.position = p'

theorem alike_sameIndex {ts ts' : List Token} (hlength : ts.length = ts'.length)
    (h : ∀ (i : Nat) (t t' : Token), ts[i]? = some t → ts'[i]? = some t' →
      t.kind = t'.kind ∧ t.value = t'.value) :
    List.Forall₂ (Token.Alike (SameIndex ts ts')) ts ts' := by
  refine List.forall₂_iff_get.mpr ⟨hlength, fun i hi hi' => ?_⟩
  have ht : ts[i]? = some ts[i] := List.getElem?_eq_getElem hi
  have ht' : ts'[i]? = some ts'[i] := List.getElem?_eq_getElem hi'
  obtain ⟨hkind, hvalue⟩ := h i _ _ ht ht'
  exact ⟨congrArg₂ Lexeme.mk hkind hvalue, i, _, _, ht, ht', rfl, rfl⟩

/-- Positions are only ever blamed: tokens of the same kinds and with the same values are the same
program, or both are refused for one cause and at the tokens of one index. -/
theorem parseTokens_sameIndex {ts ts' : List Token} (hlength : ts.length = ts'.length)
    (h : ∀ (i : Nat) (t t' : Token), ts[i]? = some t → ts'[i]? = some t' →
      t.kind = t'.kind ∧ t.value = t'.value) :
    (∃ p, parseTokens ts = .ok p ∧ parseTokens ts' = .ok p) ∨
      ∃ (cause : Cause) (i : Nat) (t t' : Token), ts[i]? = some t ∧ ts'[i]? = some t' ∧
        parseTokens ts = .error ⟨cause, t.position⟩ ∧
        parseTokens ts' = .error ⟨cause, t'.position⟩ := by
  have houtcomes := parseTokens_alike (alike_sameIndex hlength h)
  generalize parseTokens ts = r, parseTokens ts' = r' at houtcomes ⊢
  cases houtcomes with
  | ok p => exact .inl ⟨p, rfl, rfl⟩
  | error cause hindex =>
    obtain ⟨i, t, t', ht, ht', rfl, rfl⟩ := hindex
    exact .inr ⟨cause, i, t, t', ht, ht', rfl, rfl⟩

/-- A method whose condition is a number, with its lexemes at the given places. -/
def numberConditionTokens (place : Nat → Position) : List Token :=
  [(.kwClass, none), (.word, some "Point"), (.newline, none), (.indent, none),
    (.word, some "move"), (.leftParen, none), (.rightParen, none), (.newline, none),
    (.indent, none), (.kwIf, none), (.number, some "1"), (.newline, none), (.indent, none)].mapIdx
      fun i (l : Kind × Option String) => ⟨l.1, place i, l.2⟩

/-- A number that should be a condition is blamed where it starts, whether the tokens stand in a
line or one below the other. -/
theorem parseTokens_sameIndex_number :
    let ts := numberConditionTokens fun i => ⟨1, i + 1⟩
    let ts' := numberConditionTokens fun i => ⟨i + 1, 1⟩
    ts.length = ts'.length ∧
      (∀ (i : Nat) (t t' : Token), ts[i]? = some t → ts'[i]? = some t' →
        t.kind = t'.kind ∧ t.value = t'.value) ∧
      parseTokens ts = .error ⟨.expectedBooleanExpression "1", ⟨1, 11⟩⟩ ∧
      ((∃ p, parseTokens ts = .ok p ∧ parseTokens ts' = .ok p) ∨
        ∃ (cause : Cause) (i : Nat) (t t' : Token), ts[i]? = some t ∧ ts'[i]? = some t' ∧
          parseTokens ts = .error ⟨cause, t.position⟩ ∧
          parseTokens ts' = .error ⟨cause, t'.position⟩) := by
  intro ts ts'
  have hlength : ts.length = ts'.length := by
    simp only [ts, ts', numberConditionTokens, List.length_mapIdx]
  have hlexemes : ∀ (i : Nat) (t t' : Token), ts[i]? = some t → ts'[i]? = some t' →
      t.kind = t'.kind ∧ t.value = t'.value := by
    intro i t t' ht ht'
    simp only [ts, ts', numberConditionTokens, List.getElem?_mapIdx,
      Option.map_eq_some_iff] at ht ht'
    obtain ⟨l, hl, rfl⟩ := ht
    obtain ⟨l', hl', rfl⟩ := ht'
    rw [hl] at hl'
    cases hl'
    exact ⟨rfl, rfl⟩
  exact ⟨hlength, hlexemes, rfl, parseTokens_sameIndex hlength hlexemes⟩

end Offside
