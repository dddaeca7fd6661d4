import Offside.Proofs.Soundness

/-!
# What is in the grammar the parser accepts

A parser that has to read a phrase runs through, whatever stands behind the phrase, as long
as that cannot be taken for a part of it. For an expression this is any lexeme that neither
goes on with an operator nor turns a variable at its end into a call (`Closes`); for a line
it is any line that is no `else` (`NoElse`). Inside a phrase the lexeme behind a smaller
phrase always is of this sort, so that no test of the parser is misled.

The main statement is `takes_program`: what is derived within `n` levels of nesting is what
the parser returns within `n` levels.
-/

namespace Offside.Parse

open Grammar

/-! ## Expressions -/

/-- What stands here does not turn a variable in front of it into a call. -/
def Unextended (ls : List Lexeme) : Prop :=
  starts [.leftParen] ls = false ∧ starts [.dot, .word, .leftParen] ls = false

/-- What stands here does not go on with an expression in front of it. -/
def Closes (ls : List Lexeme) : Prop :=
  Unextended ls ∧ Meaningless MathOp.multiplicative? ls ∧ Meaningless MathOp.additive? ls

/-- A lexeme of this kind closes every expression. -/
def closesExpression (k : Kind) : Bool :=
  k != .leftParen && k != .dot && (MathOp.multiplicative? k).isNone && (MathOp.additive? k).isNone

theorem unextended_cons {k : Kind} (h : k ≠ .leftParen) (h' : k ≠ .dot) (v : Option String)
    (ls : List Lexeme) : Unextended (⟨k, v⟩ :: ls) := by
  simp [Unextended, starts, h, h']

theorem meaningless_cons {α : Type} {meaning? : Kind → Option α} {k : Kind}
    (h : meaning? k = none) (v : Option String) (ls : List Lexeme) :
    Meaningless meaning? (⟨k, v⟩ :: ls) := by
  intro k' hk
  cases hk
  exact h

theorem closes_cons {k : Kind} (h : closesExpression k = true) (v : Option String)
    (ls : List Lexeme) : Closes (⟨k, v⟩ :: ls) := by
  simp only [closesExpression, Bool.and_eq_true, bne_iff_ne, Option.isNone_iff_eq_none] at h
  obtain ⟨⟨⟨hparen, hdot⟩, hmul⟩, hadd⟩ := h
  exact ⟨unextended_cons hparen hdot v ls, meaningless_cons hmul v ls, meaningless_cons hadd v ls⟩

/-- The parser reads every expression, and can tell where one starts. -/
structure ReadsExpression (p : Parse Expr) (E : Phrase Expr) : Prop where
  sound : Sound p E
  consumes : Consumes E
  starts : ∀ ⦃ls e rest⦄, E ls e rest → ∃ k ∈ factorStarts, headKind? ls = some k
  assigned : ∀ ⦃v w ls e rest⦄, E (⟨.word, v⟩ :: ⟨.assign, w⟩ :: ls) e rest →
    rest = ⟨.assign, w⟩ :: ls
  takes : ∀ ⦃ls e rest⦄, E ls e rest → Closes rest → Takes p ls e rest

section

variable {p : Parse Expr} {E : Phrase Expr} (hp : ReadsExpression p E)
include hp

theorem takes_arguments {ls rest : List Lexeme} {es : List Expr}
    (h : Arguments E ls es rest) : Takes (arguments p) ls es rest := by
  cases h with
  | none => exact takes_bind (takes_accept _ _ _) (takes_pure _ _)
  | @some _ _ v _ hlist =>
    have hmiss : headKind? ls ≠ some .rightParen := by
      have hfirst : ∃ e mid, E ls e mid := by
        cases hlist with
        | one he => exact ⟨_, _, he⟩
        | more he _ => exact ⟨_, _, he⟩
      obtain ⟨e, mid, he⟩ := hfirst
      obtain ⟨k, hk, hhead⟩ := hp.starts he
      rw [hhead]
      rintro ⟨⟩
      simp [factorStarts] at hk
    have hvalues := takes_commaSeparated hp.sound hp.consumes (fun he hf => hp.takes he hf)
      (fun _ _ => closes_cons rfl _ _) hlist (closes_cons rfl _ _) (by simp [headKind?])
    refine takes_bind (takes_accept_miss hmiss) ?_
    exact takes_bind hvalues (takes_bind (takes_expect _ _ _) (takes_pure _ _))

theorem takes_callOn (receiver : Option String) (v w : Option String) {ls rest : List Lexeme}
    {es : List Expr} (h : Arguments E ls es rest) :
    Takes (callOn p receiver) (⟨.word, v⟩ :: ⟨.leftParen, w⟩ :: ls) ⟨receiver, v.getD "", es⟩
      rest :=
  takes_bind (takes_word .mk)
    (takes_bind (takes_expect _ _ _) (takes_bind (takes_arguments hp h) (takes_pure _ _)))

theorem takes_call? {ls rest : List Lexeme} {c : Call} (h : CallPhrase E ls c rest) :
    Takes (call? p) ls (some c) rest := by
  cases h with
  | alone ha =>
    refine takes_bind (takes_nextAre _ _) ?_
    refine takes_bind (takes_nextAre _ _) ?_
    exact takes_bind (takes_callOn hp none _ _ ha) (takes_pure _ _)
  | onReceiver ha =>
    refine takes_bind (takes_nextAre _ _) ?_
    refine takes_bind (takes_word .mk) ?_
    exact takes_bind (takes_expect _ _ _) (takes_bind (takes_callOn hp _ _ _ ha) (takes_pure _ _))

omit hp in
theorem takes_call?_none {ls : List Lexeme}
    (h : starts [.word, .dot, .word, .leftParen] ls = false)
    (h' : starts [.word, .leftParen] ls = false) : Takes (call? p) ls none ls := by
  refine takes_bind (takes_nextAre _ _) ?_
  rw [h]
  refine takes_bind (takes_nextAre _ _) ?_
  rw [h']
  exact takes_pure _ _

omit hp in
/-- A name that is not extended starts no call. -/
theorem takes_call?_of_unextended {v : Option String} {rest : List Lexeme}
    (h : Unextended rest) : Takes (call? p) (⟨.word, v⟩ :: rest) none (⟨.word, v⟩ :: rest) :=
  takes_call?_none (by simpa [starts] using h.2) (by simpa [starts] using h.1)

/-- Only a factor that is a name depends on what stands behind it. -/
theorem takes_factor_of_name {ls rest : List Lexeme} {e : Expr} (h : Factor E ls e rest)
    (hrest : ∀ v, ls = ⟨.word, v⟩ :: rest → Unextended rest) : Takes (factor p) ls e rest := by
  refine takes_bind (takes_nextKind? _) ?_
  cases h with
  | number =>
    refine takes_expect_bind fun t ht => ?_
    rw [← ht]
    exact takes_pure _ _
  | string =>
    refine takes_expect_bind fun t ht => ?_
    rw [← ht]
    exact takes_pure _ _
  | @character v c cs rest hc =>
    refine takes_position_bind fun q => takes_expect_bind fun t ht => ?_
    have htext : t.text.toList = c :: cs := by rw [Token.text, ht, hc]
    rw [htext]
    exact takes_pure _ _
  | parens he =>
    refine takes_bind (takes_expect _ _ _) (takes_bind (hp.takes he (closes_cons rfl _ _)) ?_)
    exact takes_bind (takes_expect _ _ _) (takes_pure _ _)
  | new ha =>
    refine takes_bind (takes_expect _ _ _) (takes_bind (takes_word .mk) ?_)
    exact takes_bind (takes_expect _ _ _)
      (takes_bind (takes_arguments hp ha) (takes_pure _ _))
  | call hc =>
    have hcall := takes_call? hp hc
    cases hc with
    | alone => exact takes_bind hcall (takes_pure _ _)
    | onReceiver => exact takes_bind hcall (takes_pure _ _)
  | var hx =>
    cases hx
    refine takes_bind (takes_call?_of_unextended (hrest _ rfl)) ?_
    exact takes_bind (takes_word .mk) (takes_pure _ _)

theorem takes_factor {ls rest : List Lexeme} {e : Expr} (h : Factor E ls e rest)
    (hrest : Unextended rest) : Takes (factor p) ls e rest :=
  takes_factor_of_name hp h fun _ _ => hrest

omit hp in
theorem multiplicative_ne {k : Kind} {op : MathOp} (h : MathOp.multiplicative? k = some op) :
    k ≠ .leftParen ∧ k ≠ .dot := by
  constructor <;> rintro rfl <;> cases h

omit hp in
theorem additive_ne {k : Kind} {op : MathOp} (h : MathOp.additive? k = some op) :
    k ≠ .leftParen ∧ k ≠ .dot ∧ MathOp.multiplicative? k = none := by
  refine ⟨?_, ?_, ?_⟩
  · rintro rfl
    cases h
  · rintro rfl
    cases h
  · cases k <;> first | rfl | cases h

theorem takes_sum {ls rest : List Lexeme} {e : Expr} (h : Sum E ls e rest)
    (hrest : Closes rest) : Takes (sum p) ls e rest := by
  have hfactor := factor_sound hp.sound hp.consumes
  have hterm : ∀ {ls e rest}, Term E ls e rest →
      Unextended rest ∧ Meaningless MathOp.multiplicative? rest → Takes (term p) ls e rest :=
    fun h hf => takes_leftAssociative hfactor (factor_consumes hp.consumes)
      (fun he hf => takes_factor hp he hf)
      (fun hk => unextended_cons (multiplicative_ne hk).1 (multiplicative_ne hk).2 _ _) h hf.1 hf.2
  refine takes_leftAssociative
    (leftAssociative_sound hfactor (factor_consumes hp.consumes))
    (chain_consumes (factor_consumes hp.consumes)) hterm ?_ h ⟨hrest.1, hrest.2.1⟩ hrest.2.2
  intro k v ls op hk
  obtain ⟨hparen, hdot, hmul⟩ := additive_ne hk
  exact ⟨unextended_cons hparen hdot v ls, meaningless_cons hmul v ls⟩

omit hp in
theorem factor_starts {ls rest : List Lexeme} {e : Expr} (h : Factor E ls e rest) :
    ∃ k ∈ factorStarts, headKind? ls = some k := by
  cases h with
  | number => exact ⟨.number, by simp [factorStarts], rfl⟩
  | string => exact ⟨.quotedString, by simp [factorStarts], rfl⟩
  | character => exact ⟨.quotedCharacter, by simp [factorStarts], rfl⟩
  | parens => exact ⟨.leftParen, by simp [factorStarts], rfl⟩
  | new => exact ⟨.kwNew, by simp [factorStarts], rfl⟩
  | call hc => cases hc <;> exact ⟨.word, by simp [factorStarts], rfl⟩
  | var hx =>
    cases hx
    exact ⟨.word, by simp [factorStarts], rfl⟩

omit hp in
/-- A chain starts as its first operand does. -/
theorem chain_starts {operator? : Kind → Option MathOp} {operand : Phrase Expr}
    {P : List Lexeme → Prop} (hoperand : ∀ {ls e rest}, operand ls e rest → P ls)
    {ls rest : List Lexeme} {e : Expr} (h : Chain operator? operand ls e rest) : P ls := by
  induction h with
  | first he => exact hoperand he
  | next _ _ _ ih => exact ih

omit hp in
/-- A chain that starts with a name and an assignment is that name. -/
theorem chain_assigned {operator? : Kind → Option MathOp} {operand : Phrase Expr}
    (hop : operator? .assign = none)
    (hoperand : ∀ {v w ls e rest}, operand (⟨.word, v⟩ :: ⟨.assign, w⟩ :: ls) e rest →
      rest = ⟨.assign, w⟩ :: ls)
    {v w : Option String} {ls rest : List Lexeme} {e : Expr}
    (h : Chain operator? operand (⟨.word, v⟩ :: ⟨.assign, w⟩ :: ls) e rest) :
    rest = ⟨.assign, w⟩ :: ls := by
  generalize hls : (⟨.word, v⟩ :: ⟨.assign, w⟩ :: ls : List Lexeme) = ms at h
  induction h with
  | first he =>
    subst hls
    exact hoperand he
  | next _ hk _ ih =>
    cases ih hls
    rw [hop] at hk
    cases hk

theorem reads_sum : ReadsExpression (sum p) (Sum E) where
  sound := sum_sound hp.sound hp.consumes
  consumes := sum_consumes hp.consumes
  starts := by
    intro ls e rest h
    have hterm : ∀ {ls e rest}, Term E ls e rest → ∃ k ∈ factorStarts, headKind? ls = some k := by
      intro ls e rest h
      exact chain_starts (P := fun ls => ∃ k ∈ factorStarts, headKind? ls = some k)
        factor_starts h
    exact chain_starts (P := fun ls => ∃ k ∈ factorStarts, headKind? ls = some k) hterm h
  assigned := by
    intro v w ls e rest h
    refine chain_assigned rfl (chain_assigned rfl ?_) h
    intro v w ls e rest hf
    cases hf with
    | call hc => cases hc
    | var hx =>
      cases hx
      rfl
  takes := fun _ _ _ h hrest => takes_sum hp h hrest

theorem takes_condition {ls rest : List Lexeme} {e : Expr} (h : Condition E ls e rest)
    (hrest : Closes rest) (hop : Meaningless CompareOp.ofKind? rest) :
    Takes (condition p) ls e rest := by
  refine takes_position_bind fun q => ?_
  cases h with
  | @compare _ left k v mid op right _ hleft hk hright =>
    have hcloses : Closes (⟨k, v⟩ :: mid) := by
      refine closes_cons ?_ v mid
      cases k <;> first | rfl | cases hk
    refine takes_bind (hp.takes hleft hcloses) (takes_bind (takes_takeMeaning? hk _ _) ?_)
    exact takes_bind (hp.takes hright hrest) (takes_pure _ _)
  | call he =>
    exact takes_bind (hp.takes he hrest) (takes_bind (takes_takeMeaning?_miss hop) (takes_pure _ _))
  | var he =>
    exact takes_bind (hp.takes he hrest) (takes_bind (takes_takeMeaning?_miss hop) (takes_pure _ _))

end

/-! ## Statements -/

/-- The parser reads whatever can stand deeper. -/
structure ReadsNested (nested : Nested) (inner : Deeper) : Prop where
  sound : SoundNested nested inner
  consumes : inner.Consumes
  expression : ReadsExpression nested.expression inner.expression
  body : ∀ ⦃ls b rest⦄, inner.body ls b rest → Takes nested.body ls b rest
  bodyStarts : ∀ ⦃ls b rest⦄, inner.body ls b rest →
    headKind? (dropNewlines ls) = some .indent ∧ inner.body (dropNewlines ls) b rest
  methodBody : ∀ ⦃ls items rest⦄, inner.methodBody ls items rest →
    Takes nested.methodBody.toParse ls items rest
  methodBodyStarts : ∀ ⦃ls items rest⦄, inner.methodBody ls items rest →
    headKind? (dropNewlines ls) = some .indent ∧ inner.methodBody (dropNewlines ls) items rest
  elseIf : ∀ ⦃ls s rest⦄, inner.elseIf ls s rest → NoElse rest →
    TakesToLine nested.elseIf ls s rest

theorem lineEnd_head {ls rest : List Lexeme} (h : LineEnd ls rest) :
    Closes ls ∧ (headKind? ls = some .newline ∨ headKind? ls = some .dedent) := by
  cases h with
  | newline => exact ⟨closes_cons rfl _ _, Or.inl rfl⟩
  | dedent => exact ⟨closes_cons rfl _ _, Or.inr rfl⟩

theorem lineEnd_ne {ls rest : List Lexeme} (h : LineEnd ls rest) {k : Kind}
    (hn : k ≠ .newline) (hd : k ≠ .dedent) : headKind? ls ≠ some k := by
  rcases (lineEnd_head h).2 with hk | hk <;> rw [hk] <;> rintro ⟨⟩ <;> contradiction

theorem takes_words {ls mid : List Lexeme} {xs : List String} (h : Listed Word ls xs mid)
    (hk : headKind? mid ≠ some .comma) : Takes (commaSeparated word) ls xs mid :=
  takes_commaSeparated (F := fun _ => True) word_sound word_consumes
    (fun hx _ => takes_word hx) (fun _ _ => trivial) h trivial hk

/-- The targets of an assignment start with a name and a comma, or a name and the sign. -/
theorem targets_start {ls mid : List Lexeme} {xs : List String} {v : Option String}
    (h : Listed Word ls xs (⟨.assign, v⟩ :: mid)) :
    ∃ u k w more, ls = ⟨.word, u⟩ :: ⟨k, w⟩ :: more ∧ (k = .comma ∨ k = .assign) := by
  cases h with
  | one hx =>
    cases hx
    exact ⟨_, _, _, _, rfl, Or.inr rfl⟩
  | more hx _ =>
    cases hx
    exact ⟨_, _, _, _, rfl, Or.inl rfl⟩

/-- How a statement that is no condition starts. -/
theorem plain_start {inner : Deeper} {ls rest : List Lexeme} {s : Stmt}
    (h : Plain inner ls s rest) :
    headKind? ls = some .kwLoop ∨ ∃ u k w more, ls = ⟨.word, u⟩ :: ⟨k, w⟩ :: more ∧
      k ∈ [Kind.comma, .assign, .leftParen, .dot] := by
  cases h with
  | loop => exact Or.inl rfl
  | loopIn => exact Or.inl rfl
  | call hc _ => cases hc <;> exact Or.inr ⟨_, _, _, _, rfl, by simp⟩
  | assign hx _ _ =>
    obtain ⟨u, k, w, more, hls, rfl | rfl⟩ := targets_start hx <;>
      exact Or.inr ⟨u, _, w, more, hls, by simp⟩

theorem plain_head {inner : Deeper} {ls rest : List Lexeme} {s : Stmt}
    (h : Plain inner ls s rest) : headKind? ls = some .kwLoop ∨ headKind? ls = some .word := by
  rcases plain_start h with h | ⟨u, k, w, more, rfl, -⟩
  · exact Or.inl h
  · exact Or.inr rfl

theorem statement_head {inner : Deeper} {ls rest : List Lexeme} {s : Stmt}
    (h : Statement inner ls s rest) : ∃ k ∈ [Kind.kwIf, .kwLoop, .word], headKind? ls = some k := by
  cases h with
  | cond => exact ⟨.kwIf, by simp, rfl⟩
  | plain h => rcases plain_head h with hk | hk <;> exact ⟨_, by simp, hk⟩

theorem varDecls_start {E : Phrase Expr} {ls rest : List Lexeme} {ds : List VarDecl}
    (h : VarDecls E ls ds rest) : starts [.word, .word] ls = true := by
  have hvalue : ∀ {typeName ls d rest}, NamedValue E typeName ls d rest →
      headKind? ls = some .word := by
    intro typeName ls d rest h
    cases h with
    | bare hx =>
      cases hx
      rfl
    | valued hx =>
      cases hx
      rfl
  obtain @⟨v, ls, ds, mid, rest, hlist, -⟩ := h
  have hhead : headKind? ls = some .word := by
    cases hlist with
    | one h => exact hvalue h
    | more h _ => exact hvalue h
  rcases ls with _ | ⟨⟨k, w⟩, ls⟩
  · cases hhead
  · cases hhead
    simp [starts]

theorem statement_not_locals {inner : Deeper} {ls rest : List Lexeme} {s : Stmt}
    (h : Statement inner ls s rest) : starts [.word, .word] ls = false := by
  cases h with
  | cond => simp [starts]
  | plain h =>
    rcases plain_start h with h | ⟨u, k, w, more, rfl, hk⟩
    · rcases ls with _ | ⟨⟨k, v⟩, ls⟩
      · cases h
      · cases h
        simp [starts]
    · have : k ≠ .word := by
        rintro rfl
        simp at hk
      simp [starts, this]

/-- What the parser makes of an `else` depends on the next line that is not empty. -/
theorem takes_acceptElseLineIf {v w u : Option String} {behind start : List Lexeme}
    (h : Newlines behind (⟨.kwIf, u⟩ :: start)) :
    Takes acceptElseLineIf (⟨.kwElse, v⟩ :: ⟨.newline, w⟩ :: behind) true start := by
  rintro ⟨⟨tokens, last⟩, events, depth⟩ hs
  rcases tokens with _ | ⟨first, _ | ⟨second, more⟩⟩
  · simp [State.lexemes] at hs
  · simp [State.lexemes] at hs
  · simp only [State.lexemes, List.map_cons, List.cons.injEq, Token.lexeme, Lexeme.mk.injEq] at hs
    obtain ⟨⟨hfirst, -⟩, ⟨hsecond, -⟩, rfl⟩ := hs
    have hdrop := dropNewlines_eq h (by simp [headKind?])
    rw [dropNewlines, List.dropWhile_map] at hdrop
    rcases hmore : more.dropWhile ((fun l => l.kind == .newline) ∘ Token.lexeme) with
      _ | ⟨third, left⟩
    · rw [hmore] at hdrop
      cases hdrop
    · rw [hmore, List.map_cons, List.cons.injEq] at hdrop
      have hthird : third.kind = .kwIf := congrArg Lexeme.kind hdrop.1
      have hbehind : behindElseLineIf? (first :: second :: more) = some left := by
        have hmore' : more.dropWhile (fun t => t.kind == .newline) = third :: left := hmore
        simp [behindElseLineIf?, hfirst, hsecond, hmore', hthird]
      exact ⟨⟨⟨left, last⟩, events, depth⟩, by simp only [acceptElseLineIf, hbehind], hdrop.2⟩

theorem takes_acceptElseLineIf_miss {ls : List Lexeme}
    (h : ∀ v w behind, ls = ⟨.kwElse, v⟩ :: ⟨.newline, w⟩ :: behind →
      headKind? (dropNewlines behind) ≠ some .kwIf) : Takes acceptElseLineIf ls false ls := by
  intro s hs
  cases hb : behindElseLineIf? s.stream.tokens with
  | none => exact ⟨s, by simp only [acceptElseLineIf, hb], hs⟩
  | some rest =>
    obtain ⟨v, w, behind, u, hlex, hif⟩ := behindElseLineIf?_some hb
    rw [← State.lexemes, hs] at hlex
    refine absurd ?_ (h v w behind hlex)
    rw [dropNewlines_eq hif (by simp [headKind?])]
    rfl

section

variable {nested : Nested} {inner : Deeper} (hn : ReadsNested nested inner)
include hn

theorem takes_namedValue {typeName : String} {ls rest : List Lexeme} {d : VarDecl}
    (h : NamedValue inner.expression typeName ls d rest)
    (hrest : Closes rest ∧ headKind? rest ≠ some .assign) :
    Takes (namedValue nested typeName) ls d rest := by
  cases h with
  | bare hx =>
    have hvalue : Takes (optional (accept .assign) nested.expression) rest none rest :=
      takes_bind (takes_accept_miss hrest.2) (takes_pure _ _)
    exact takes_bind (takes_word hx) (takes_bind hvalue (takes_pure _ _))
  | @valued _ x v mid e _ hx he =>
    have hvalue : Takes (optional (accept .assign) nested.expression) (⟨.assign, v⟩ :: mid)
        (some e) rest :=
      takes_bind (takes_accept _ _ _)
        (takes_bind (hn.expression.takes he hrest.1) (takes_pure _ _))
    exact takes_bind (takes_word hx) (takes_bind hvalue (takes_pure _ _))

theorem takes_varDecls {ls rest : List Lexeme} {ds : List VarDecl}
    (h : VarDecls inner.expression ls ds rest) : Takes (varDecls nested) ls ds rest := by
  obtain ⟨hlist, hend⟩ := h
  have hvalues := takes_commaSeparated
    (F := fun rest => Closes rest ∧ headKind? rest ≠ some .assign)
    (namedValue_sound hn.sound _) (namedValue_consumes hn.consumes.expression _)
    (fun hd hf => takes_namedValue hn hd hf) (fun _ _ => ⟨closes_cons rfl _ _, by simp [headKind?]⟩)
    hlist ⟨(lineEnd_head hend).1, lineEnd_ne hend (by simp) (by simp)⟩
    (lineEnd_ne hend (by simp) (by simp))
  exact takes_bind (takes_word .mk)
    (takes_bind hvalues (takes_bind (takes_lineEnd hend) (takes_pure _ _)))

theorem takes_header_condition {ls mid : List Lexeme} {c : Expr} {v : Option String}
    (h : Condition inner.expression ls c (⟨.newline, v⟩ :: mid)) :
    Takes (condition nested.expression) ls c (⟨.newline, v⟩ :: mid) :=
  takes_condition hn.expression h (closes_cons rfl _ _) (meaningless_cons rfl _ _)

/-- A condition that starts with a name does not go on with an assignment. -/
theorem condition_not_assigned {ls mid : List Lexeme} {c : Expr} {v : Option String}
    (h : Condition inner.expression ls c (⟨.newline, v⟩ :: mid)) :
    starts [.word, .assign] ls = false := by
  rcases hst : starts [.word, .assign] ls with _ | _
  · rfl
  · rcases ls with _ | ⟨⟨k, u⟩, _ | ⟨⟨k', w⟩, ls⟩⟩
    · simp [starts] at hst
    · simp [starts] at hst
    · obtain ⟨rfl, rfl⟩ : k = .word ∧ k' = .assign := by simpa [starts] using hst
      cases h with
      | compare hleft hk _ =>
        cases hn.expression.assigned hleft
        cases hk
      | call he => cases hn.expression.assigned he
      | var he => cases hn.expression.assigned he

theorem takes_loop {v : Option String} {ls rest : List Lexeme} {s : Stmt}
    (h : Plain inner (⟨.kwLoop, v⟩ :: ls) s rest) : Takes (loop nested) ls s rest := by
  have hplain := plain_start h
  cases h with
  | loop hc hb =>
    have hnone : Takes (optional (nextAre [.word, .assign]) do
        let name ← word
        discard (expect .assign)
        return name) ls none ls := by
      refine takes_bind (takes_nextAre _ _) ?_
      rw [condition_not_assigned hn hc]
      exact takes_pure _ _
    refine takes_bind hnone (takes_bind (takes_header_condition hn hc) ?_)
    exact takes_bind (takes_expect _ _ _) (takes_bind (hn.body hb) (takes_pure _ _))
  | @loopIn _ _ x u start _ _ _ _ _ hx hc hb =>
    have hsome : Takes (optional (nextAre [.word, .assign]) do
        let name ← word
        discard (expect .assign)
        return name) ls (some x) start := by
      refine takes_bind (takes_nextAre _ _) ?_
      cases hx
      exact takes_bind (takes_bind (takes_word .mk) (takes_bind (takes_expect _ _ _)
        (takes_pure _ _))) (takes_pure _ _)
    refine takes_bind hsome (takes_bind (takes_header_condition hn hc) ?_)
    exact takes_bind (takes_expect _ _ _) (takes_bind (hn.body hb) (takes_pure _ _))
  | call hc => cases hc
  | assign hx =>
    obtain ⟨u, k, w, more, hls, -⟩ := targets_start hx
    cases hls

theorem takes_assignment {ls mid behind rest : List Lexeme} {xs : List String} {e : Expr}
    {v : Option String} (hx : Listed Word ls xs (⟨.assign, v⟩ :: mid))
    (he : inner.expression mid e behind) (hend : LineEnd behind rest) :
    Takes (assignment nested) ls (Stmt.ofAssignment xs e) rest := by
  refine takes_bind (takes_words hx (by simp [headKind?])) (takes_bind (takes_expect _ _ _) ?_)
  refine takes_bind (hn.expression.takes he (lineEnd_head hend).1) ?_
  exact takes_bind (takes_lineEnd hend) (takes_bind (takes_note _ _) (takes_pure _ _))

theorem takes_plain {ls rest : List Lexeme} {s : Stmt} (h : Plain inner ls s rest) :
    Takes (plainStatement nested) ls s rest := by
  have hstart := plain_start h
  refine takes_bind (takes_nextKind? _) ?_
  cases h with
  | loop hc hb => exact takes_bind (takes_expect _ _ _) (takes_loop hn (v := none) (.loop hc hb))
  | loopIn hx hc hb =>
    exact takes_bind (takes_expect _ _ _) (takes_loop hn (v := none) (.loopIn hx hc hb))
  | call hc hend =>
    have hcall := takes_call? hn.expression hc
    have hline : Takes (callOrAssignment nested) ls (.call none _) rest :=
      takes_bind hcall (takes_bind (takes_lineEnd hend)
        (takes_bind (takes_note _ _) (takes_pure _ _)))
    cases hc with
    | alone => exact takes_bind (takes_nextAre _ _) hline
    | onReceiver => exact takes_bind (takes_nextAre _ _) hline
  | assign hx he hend =>
    have hassign := takes_assignment hn hx he hend
    obtain ⟨u, k, w, more, rfl, rfl | rfl⟩ := targets_start hx <;>
      refine takes_bind (takes_nextAre _ _) (takes_bind (takes_call?_of_unextended ?_) hassign) <;>
      simp [Unextended, starts]

theorem takes_arm {ls mid start : List Lexeme} {a : Arm} (h : Guarded inner ls a mid)
    (hnl : Newlines mid start) : Takes (arm nested) ls a (dropNewlines start) := by
  obtain ⟨hc, hb⟩ := h
  rw [← dropNewlines_of_newlines hnl]
  refine takes_bind (takes_header_condition hn hc) (takes_bind (takes_expect _ _ _) ?_)
  exact takes_bind (hn.body hb) (takes_bind (takes_skipNewlines _) (takes_pure _ _))

/-- Behind `else` and the end of its line, a deeper line shows that a block stands there. -/
theorem takes_otherwise_block {v w : Option String} {behind start rest : List Lexeme}
    {b : List Stmt} (hnl : Newlines behind start) (hb : inner.body start b rest) :
    headKind? (dropNewlines behind) = some .indent ∧
      Takes (otherwise nested) (⟨.kwElse, v⟩ :: ⟨.newline, w⟩ :: behind) (.block b) rest := by
  obtain ⟨hindent, hb'⟩ := hn.bodyStarts hb
  rw [← dropNewlines_of_newlines hnl] at hindent hb'
  refine ⟨hindent, takes_bind (takes_accept _ _ _) ?_⟩
  refine takes_bind (takes_accept_miss (by simp [headKind?])) ?_
  refine takes_bind (takes_newlines _ _) (takes_bind (takes_nextAre _ _) ?_)
  rw [starts_of_headKind? hindent]
  exact takes_bind (hn.body hb') (takes_pure _ _)

theorem takes_otherwise_line {v w : Option String} {behind start rest : List Lexeme}
    {s : Stmt} (hnl : Newlines behind start) (hs : Plain inner start s rest) :
    headKind? (dropNewlines behind) ≠ some .kwIf ∧
      Takes (otherwise nested) (⟨.kwElse, v⟩ :: ⟨.newline, w⟩ :: behind) (.single s) rest := by
  have hne : ∀ k, k ≠ .kwLoop → k ≠ .word → headKind? start ≠ some k := by
    intro k hloop hword
    rcases plain_head hs with hk | hk <;> rw [hk] <;> rintro ⟨⟩ <;> contradiction
  rw [dropNewlines_eq hnl (hne _ (by simp) (by simp))]
  refine ⟨hne _ (by simp) (by simp), takes_bind (takes_accept _ _ _) ?_⟩
  refine takes_bind (takes_accept_miss (by simp [headKind?])) ?_
  refine takes_bind (takes_newlines _ _) (takes_bind (takes_nextAre _ _) ?_)
  rw [dropNewlines_eq hnl (hne _ (by simp) (by simp)),
    starts_of_headKind?_ne (hne _ (by simp) (by simp))]
  exact takes_bind (takes_plain hn hs) (takes_pure _ _)

/-- The arms of a condition are read one after the other, and put into each other afterwards.
Behind the last of them no arm follows on a line of its own. -/
theorem arms_of_conditional {ls rest : List Lexeme} {s : Stmt} (h : Conditional inner ls s rest) :
    NoElse rest → ∃ first mid arms behind o left, Takes (arm nested) ls first mid ∧
      Until (Takes (optional acceptElseLineIf (arm nested))) mid arms behind ∧
      Takes (otherwise nested) behind o left ∧ dropNewlines left = dropNewlines rest ∧
      s = Stmt.ofArms first arms o := by
  have hstop : ∀ {ls}, (∀ v w behind, ls = ⟨.kwElse, v⟩ :: ⟨.newline, w⟩ :: behind →
      headKind? (dropNewlines behind) ≠ some .kwIf) →
      Until (Takes (optional acceptElseLineIf (arm nested))) ls [] ls :=
    fun h => .stop (takes_bind (takes_acceptElseLineIf_miss h) (takes_pure _ _))
  induction h with
  | @alone ls a mid rest ha hnl =>
    intro hrest
    refine ⟨a, _, [], _, .nothing, _, takes_arm hn ha hnl, hstop ?_, ?_, dropNewlines_idem rest, rfl⟩
    · intro v w behind heq
      rw [NoElse, heq] at hrest
      exact absurd rfl hrest
    · exact takes_bind (takes_accept_miss hrest) (takes_pure _ _)
  | @elseIf ls a mid v w start s rest ha hnl hs =>
    intro hrest
    obtain ⟨left, hleft, heq⟩ := hn.elseIf hs hrest
    refine ⟨a, _, [], _, .single s, left, takes_arm hn ha hnl, hstop ?_, ?_, heq, rfl⟩
    · rintro v w behind ⟨⟩
    · exact takes_bind (takes_accept _ _ _) (takes_bind (takes_accept _ _ _)
        (takes_bind hleft (takes_pure _ _)))
  | @elseBlock ls a mid v w behind start b rest ha hnl hnl' hb =>
    intro _
    obtain ⟨hindent, hblock⟩ := takes_otherwise_block hn hnl' hb
    refine ⟨a, _, [], _, .block b, rest, takes_arm hn ha hnl, hstop ?_, hblock, rfl, rfl⟩
    rintro v w behind ⟨⟩
    simp [hindent]
  | @elseLineIf ls a mid v w behind u start s rest ha hnl hnl' _ ih =>
    intro hrest
    obtain ⟨first, mid', arms, behind', o, left, hfirst, harms, ho, heq, rfl⟩ := ih hrest
    have hnext : Takes (optional acceptElseLineIf (arm nested))
        (⟨.kwElse, v⟩ :: ⟨.newline, w⟩ :: behind) (some first) mid' :=
      takes_bind (takes_acceptElseLineIf hnl') (takes_bind hfirst (takes_pure _ _))
    exact ⟨a, _, first :: arms, behind', o, left, takes_arm hn ha hnl, .next hnext harms, ho, heq,
      rfl⟩
  | @elseLine ls a mid v w behind start s rest ha hnl hnl' hs =>
    intro _
    obtain ⟨hif, hline⟩ := takes_otherwise_line hn hnl' hs
    refine ⟨a, _, [], _, .single s, rest, takes_arm hn ha hnl, hstop ?_, hline, rfl, rfl⟩
    rintro v w behind ⟨⟩
    exact hif

theorem takes_conditional {ls rest : List Lexeme} {s : Stmt} (h : Conditional inner ls s rest)
    (hrest : NoElse rest) : TakesToLine (conditional nested) ls s rest := by
  obtain ⟨first, mid, arms, behind, o, left, hfirst, harms, ho, heq, rfl⟩ :=
    arms_of_conditional hn h hrest
  have hmany := takes_many (elseArm_sound hn.sound) (elseArm_shrinks hn.consumes) harms
  exact ⟨left, takes_bind hfirst (takes_bind hmany (takes_bind ho (takes_pure _ _))), heq⟩

theorem takes_statement {ls rest : List Lexeme} {s : Stmt} (h : Statement inner ls s rest)
    (hrest : NoElse rest) : TakesToLine (statement nested) ls s rest := by
  cases h with
  | cond h =>
    obtain ⟨left, hleft, heq⟩ := takes_conditional hn h hrest
    exact ⟨left, takes_bind (takes_accept _ _ _) hleft, heq⟩
  | plain h =>
    have hmiss : headKind? ls ≠ some .kwIf := by
      rcases plain_head h with hk | hk <;> simp [hk]
    exact (takes_bind (takes_accept_miss hmiss) (takes_plain hn h)).toLine

theorem takes_bodyItem {ls rest : List Lexeme} {i : BodyItem} (h : Item inner ls i rest)
    (hrest : NoElse rest) : TakesToLine (bodyItem nested) ls i rest := by
  cases h with
  | locals h =>
    have hnext := takes_nextAre [.word, .word] ls
    rw [varDecls_start h] at hnext
    refine Takes.toLine (takes_bind hnext ?_)
    exact takes_bind (takes_varDecls hn h) (takes_pure _ _)
  | statement h =>
    have hnext := takes_nextAre [.word, .word] ls
    rw [statement_not_locals h] at hnext
    obtain ⟨left, hleft, heq⟩ := takes_statement hn h hrest
    refine ⟨left, takes_bind hnext ?_, heq⟩
    exact takes_bind hleft (takes_pure _ _)

omit hn in
theorem statement_startsLine : StartsLine (Statement inner) := by
  intro ls s rest h k hk
  obtain ⟨k', hk', hhead⟩ := statement_head h
  rw [hhead]
  rintro ⟨⟩
  simp at hk hk'
  grind

omit hn in
theorem item_startsLine : StartsLine (Item inner) := by
  intro ls i rest h k hk
  cases h with
  | locals h =>
    obtain ⟨-, -⟩ := h
    rintro ⟨⟩
    simp at hk
  | statement h => exact statement_startsLine h k hk

end

theorem nested_reads : ∀ n : Nat, ReadsNested (nested n) (deeper n)
  | 0 => by
    refine ⟨nested_sound 0, deeper_consumes 0, ⟨(nested_sound 0).expression,
      (deeper_consumes 0).expression, ?_, ?_, ?_⟩, ?_, ?_, ?_, ?_, ?_⟩ <;> intros <;> contradiction
  | n + 1 =>
    have hn := nested_reads n
    have hs := statement_sound hn.sound hn.consumes
    have hi := bodyItem_sound hn.sound hn.consumes
    { sound := nested_sound (n + 1)
      consumes := deeper_consumes (n + 1)
      expression := reads_sum hn.expression
      body := fun _ _ _ h => takes_block hs (statement_consumes hn.consumes) statement_startsLine
        (fun h hrest => takes_statement hn h hrest) h
      bodyStarts := fun _ _ _ h => block_dropNewlines h
      methodBody := fun _ _ _ h => takes_block hi (item_consumes hn.consumes) item_startsLine
        (fun h hrest => takes_bodyItem hn h hrest) h
      methodBodyStarts := fun _ _ _ h => block_dropNewlines h
      elseIf := fun _ _ _ h hrest => takes_conditional hn h hrest }

/-! ## Declarations -/

theorem takes_parameter {ls rest : List Lexeme} {d : VarDecl} (h : Parameter ls d rest) :
    Takes parameter ls d rest := by
  cases h
  exact takes_bind (takes_word .mk) (takes_bind (takes_word .mk) (takes_pure _ _))

theorem takes_parameterList {ls rest : List Lexeme} {ds : List VarDecl}
    (h : ParameterList ls ds rest) : Takes parameterList ls ds rest := by
  cases h with
  | @none v w rest =>
    have hnone : Takes parameters (⟨.rightParen, w⟩ :: rest) [] (⟨.rightParen, w⟩ :: rest) :=
      takes_bind (takes_nextAre _ _) (takes_pure _ _)
    exact takes_bind (takes_expect _ _ _) (takes_bind hnone (takes_bind (takes_expect _ _ _)
      (takes_pure _ _)))
  | @some v ls ds w rest hlist =>
    refine takes_bind (takes_expect _ _ _) (takes_bind ?_ (takes_bind (takes_expect _ w _)
      (takes_pure _ _)))
    refine takes_bind (takes_nextAre _ _) ?_
    have hstart : starts [.word, .word] ls = true := by
      cases hlist with
      | one hd =>
        cases hd
        simp [starts]
      | more hd _ =>
        cases hd
        simp [starts]
    rw [hstart]
    exact takes_commaSeparated (F := fun _ => True) parameter_sound parameter_consumes
      (fun hd _ => takes_parameter hd) (fun _ _ => trivial) hlist trivial (by simp [headKind?])

/-- Whatever is no second name leaves a returned value without one. -/
theorem takes_returned {ls rest : List Lexeme} {r : ReturnDecl} (h : Returned ls r rest)
    (hrest : headKind? rest ≠ some .word) : Takes returned ls r rest := by
  cases h with
  | bare => exact takes_bind (takes_word .mk) (takes_bind (takes_take?_miss hrest) (takes_pure _ _))
  | @named v w =>
    refine takes_bind (takes_word .mk) ?_
    intro s hs
    obtain ⟨t, s', ht, hv, hl⟩ := take?_hit s hs
    have hvalue : t.value = w := congrArg Lexeme.value hv
    refine ⟨s', bind_ok.mpr ⟨some t, s', ht, ?_⟩, hl⟩
    rw [← hvalue]
    rfl

theorem takes_header {ls rest : List Lexeme} {hd : MethodHeader} (h : Header ls hd rest) :
    Takes header ls hd rest := by
  cases h with
  | bare hx hd hend =>
    refine takes_bind (takes_word hx) (takes_bind (takes_parameterList hd) ?_)
    refine takes_bind (takes_accept_miss (lineEnd_ne hend (by simp) (by simp))) ?_
    exact takes_bind (takes_pure _ _) (takes_bind (takes_lineEnd hend) (takes_pure _ _))
  | @returning _ x start ds v mid rs behind _ hx hd hr hend =>
    have hlist := takes_commaSeparated (F := fun rest => headKind? rest ≠ some .word)
      returned_sound returned_consumes (fun hr hf => takes_returned hr hf)
      (fun _ _ => by simp [headKind?]) hr (lineEnd_ne hend (by simp) (by simp))
      (lineEnd_ne hend (by simp) (by simp))
    have hreturns : Takes returns mid rs behind := by
      refine takes_bind (takes_nextAre _ _) ?_
      have hstart : starts [.word] mid = true := by
        cases hr with
        | one hr => cases hr <;> rfl
        | more hr _ => cases hr <;> rfl
      rw [hstart]
      exact hlist
    refine takes_bind (takes_word hx) (takes_bind (takes_parameterList hd) ?_)
    refine takes_bind (takes_accept _ _ _) (takes_bind hreturns ?_)
    exact takes_bind (takes_lineEnd hend) (takes_pure _ _)

theorem header_start {ls rest : List Lexeme} {hd : MethodHeader} (h : Header ls hd rest) :
    ∃ v w more, ls = ⟨.word, v⟩ :: ⟨.leftParen, w⟩ :: more := by
  cases h with
  | bare hx hd _ =>
    cases hx
    cases hd <;> exact ⟨_, _, _, rfl⟩
  | returning hx hd _ _ =>
    cases hx
    cases hd <;> exact ⟨_, _, _, rfl⟩

theorem header_startsLine : StartsLine Header := by
  intro ls hd rest h k hk
  obtain ⟨v, w, more, rfl⟩ := header_start h
  rintro ⟨⟩
  simp at hk

theorem takes_header? {ls rest : List Lexeme} {hd : MethodHeader} (h : Header ls hd rest) :
    Takes header? ls (some hd) rest := by
  have hheader := takes_header h
  obtain ⟨v, w, more, rfl⟩ := header_start h
  exact takes_bind (takes_nextAre _ _) (takes_bind hheader (takes_pure _ _))

theorem headerLines_of_lines {ls rest : List Lexeme} {hs : List MethodHeader}
    (h : Lines Header ls hs rest) :
    ∃ v, Until (Takes (do skipNewlines; header?)) ls hs (⟨.dedent, v⟩ :: rest) := by
  induction h with
  | @done ls v rest hn =>
    have hskip := takes_skipNewlines ls
    rw [dropNewlines_eq hn (by simp [headKind?])] at hskip
    exact ⟨v, .stop (takes_bind hskip (takes_bind (takes_nextAre _ _) (takes_pure _ _)))⟩
  | @next ls start hd mid hs rest hn hhd _ ih =>
    obtain ⟨v, hu⟩ := ih
    have hskip := takes_skipNewlines ls
    have hhead : headKind? start ≠ some .newline := by
      obtain ⟨v, w, more, rfl⟩ := header_start hhd
      simp [headKind?]
    rw [dropNewlines_eq hn hhead] at hskip
    exact ⟨v, .next (takes_bind hskip (takes_header? hhd)) hu⟩

theorem takes_interfaceDecl {ls rest : List Lexeme} {i : Interface}
    (h : InterfaceDecl ls i rest) : Takes interfaceDecl ls i rest := by
  obtain @⟨ls, x, w, start, hs, rest, hx, hblock⟩ := h
  obtain ⟨hn, hlines⟩ := hblock
  obtain ⟨v, hu⟩ := headerLines_of_lines hlines
  have hmany := takes_many headerLine_sound headerLine_shrinks hu
  have hnewlines := takes_newlines w start
  rw [dropNewlines_eq hn (by simp [headKind?])] at hnewlines
  refine takes_bind (takes_word hx) (takes_bind hnewlines (takes_bind (takes_expect _ _ _) ?_))
  refine takes_bind hmany (takes_bind (takes_expect _ _ _) ?_)
  exact takes_bind (takes_note _ _) (takes_pure _ _)

theorem takes_implemented {ls mid : List Lexeme} {xs : List String} {v : Option String}
    (h : Implemented ls xs (⟨.newline, v⟩ :: mid)) :
    Takes implemented ls xs (⟨.newline, v⟩ :: mid) := by
  refine takes_bind (takes_nextAre _ _) ?_
  cases h with
  | none => exact takes_pure _ _
  | @some u ls xs _ hlist =>
    have hstart : starts [.kwImplements, .word] (⟨.kwImplements, u⟩ :: ls) = true := by
      cases hlist with
      | one hx =>
        cases hx
        simp [starts]
      | more hx _ =>
        cases hx
        simp [starts]
    rw [hstart]
    exact takes_bind (takes_expect _ _ _) (takes_words hlist (by simp [headKind?]))

section

variable {nested : Nested} {inner : Deeper} (hn : ReadsNested nested inner)
include hn

theorem takes_methodBody {ls rest : List Lexeme} {items : List BodyItem}
    (h : inner.methodBody ls items rest) :
    Takes (methodBody nested) ls (.ofItems items) rest :=
  takes_bind (hn.methodBody h) (takes_pure _ _)

theorem takes_constructor {ls mid start rest : List Lexeme} {ds : List VarDecl}
    {w : Option String} {items : List BodyItem} (hd : ParameterList ls ds (⟨.newline, w⟩ :: mid))
    (hnl : Newlines mid start) (hb : inner.methodBody start items rest) :
    Takes (constructor nested) ls ⟨ds, .ofItems items⟩ rest := by
  obtain ⟨hindent, hb'⟩ := hn.methodBodyStarts hb
  rw [← dropNewlines_of_newlines hnl] at hb'
  refine takes_bind (takes_parameterList hd) (takes_bind (takes_newlines _ _) ?_)
  exact takes_bind (takes_methodBody hn hb') (takes_pure _ _)

/-- The marks of a method are told by the first lexemes, of which a header has neither. -/
theorem takes_method {ls start behind mid rest : List Lexeme} {isPrivate isShared : Bool}
    {hd : MethodHeader} {items : List BodyItem} (hp : Mark .kwPrivate ls isPrivate start)
    (hs : Mark .kwShared start isShared behind) (hh : Header behind hd mid)
    (hb : inner.methodBody mid items rest) :
    Takes (method nested) ls ⟨isPrivate, isShared, hd, .ofItems items⟩ rest := by
  obtain ⟨v, w, more, hbehind⟩ := header_start hh
  have hshared : Takes (accept .kwShared) start isShared behind := by
    cases hs with
    | absent => exact takes_accept_miss (by simp [hbehind, headKind?])
    | present => exact takes_accept _ _ _
  have hprivate : Takes (accept .kwPrivate) ls isPrivate start := by
    cases hp with
    | absent =>
      refine takes_accept_miss ?_
      cases hs with
      | absent => simp [hbehind, headKind?]
      | present => simp [headKind?]
    | present => exact takes_accept _ _ _
  refine takes_bind hprivate (takes_bind hshared (takes_bind (takes_header? hh) ?_))
  exact takes_bind (takes_methodBody hn hb) (takes_pure _ _)

theorem takes_classItem {ls rest : List Lexeme} {i : ClassItem} (h : ClassPart inner ls i rest) :
    Takes (classItem nested) ls i rest := by
  refine takes_bind (takes_nextKind? _) ?_
  cases h with
  | constructor hd hnl hb =>
    exact takes_bind (takes_expect _ _ _)
      (takes_bind (takes_constructor hn hd hnl hb) (takes_pure _ _))
  | method hp hs hh hb =>
    have hmethod := takes_method hn hp hs hh hb
    obtain ⟨v, w, more, rfl⟩ := header_start hh
    cases hp with
    | present => exact takes_bind hmethod (takes_pure _ _)
    | absent =>
      cases hs with
      | present => exact takes_bind hmethod (takes_pure _ _)
      | absent => exact takes_bind (takes_nextAre _ _) (takes_bind hmethod (takes_pure _ _))
  | members h =>
    have hdecls := takes_varDecls hn h
    have hstart := varDecls_start h
    obtain ⟨-, -⟩ := h
    refine takes_bind (takes_nextAre _ _) ?_
    have hparen : starts [.word, .leftParen] _ = false := starts_word_other hstart
    rw [hparen]
    refine takes_bind (takes_nextAre _ _) ?_
    rw [hstart]
    exact takes_bind hdecls (takes_pure _ _)

omit hn in
theorem classPart_startsLine : StartsLine (ClassPart inner) := by
  have hheader : ∀ {ls hd rest}, Header ls hd rest → headKind? ls = some .word := by
    intro ls hd rest h
    obtain ⟨v, w, more, rfl⟩ := header_start h
    rfl
  have hhead : ∀ {ls i rest}, ClassPart inner ls i rest →
      ∃ k ∈ [Kind.kwConstruct, .kwPrivate, .kwShared, .word], headKind? ls = some k := by
    intro ls i rest h
    cases h with
    | constructor => exact ⟨.kwConstruct, by simp, rfl⟩
    | method hp hs hh =>
      cases hp with
      | present => exact ⟨.kwPrivate, by simp, rfl⟩
      | absent =>
        cases hs with
        | present => exact ⟨.kwShared, by simp, rfl⟩
        | absent => exact ⟨.word, by simp, hheader hh⟩
    | members h =>
      obtain ⟨-, -⟩ := h
      exact ⟨.word, by simp, rfl⟩
  intro ls i rest h k hk
  obtain ⟨k', hk', heq⟩ := hhead h
  rw [heq]
  rintro ⟨⟩
  simp at hk hk'
  grind

theorem takes_classDecl {ls rest : List Lexeme} {c : Class} (h : ClassDecl inner ls c rest) :
    Takes (classDecl nested) ls c rest := by
  obtain ⟨hx, hxs, hblock⟩ := h
  obtain ⟨-, hblock'⟩ := block_dropNewlines hblock
  have hitems := takes_block (classItem_sound hn.sound hn.consumes)
    (classPart_consumes hn.consumes) classPart_startsLine
    (fun h _ => (takes_classItem hn h).toLine) hblock'
  refine takes_bind (takes_word hx) (takes_bind (takes_implemented hxs) ?_)
  refine takes_bind (takes_newlines _ _) (takes_bind hitems ?_)
  exact takes_bind (takes_note _ _) (takes_pure _ _)

theorem until_of_declarations {ls : List Lexeme} {ds : List Declaration}
    (h : Declarations inner ls ds) : Until (Takes (declaration? nested)) ls ds [] := by
  have hskip : ∀ {ls rest}, Newlines ls rest → headKind? rest ≠ some .newline →
      Takes skipNewlines ls () rest := by
    intro ls rest hnl hhead
    have := takes_skipNewlines ls
    rwa [dropNewlines_eq hnl hhead] at this
  induction h with
  | done hnl =>
    exact .stop (takes_bind (hskip hnl (by simp [headKind?]))
      (takes_bind (takes_nextKind? _) (takes_pure _ _)))
  | classDecl hnl hc _ ih =>
    refine .next (takes_bind (hskip hnl (by simp [headKind?]))
      (takes_bind (takes_nextKind? _) ?_)) ih
    exact takes_bind (takes_expect _ _ _) (takes_bind (takes_classDecl hn hc) (takes_pure _ _))
  | interfaceDecl hnl hi _ ih =>
    refine .next (takes_bind (hskip hnl (by simp [headKind?]))
      (takes_bind (takes_nextKind? _) ?_)) ih
    exact takes_bind (takes_expect _ _ _) (takes_bind (takes_interfaceDecl hi) (takes_pure _ _))

end

/-- What is derived within `n` levels of nesting is what the parser returns within `n`. -/
theorem takes_program {n : Nat} {ls : List Lexeme} {p : Program} (h : Derives n ls p) :
    Takes (program (nested n)) ls p [] := by
  obtain ⟨ds, hds, rfl⟩ := h
  have hi := deeper_consumes n
  have hmany := takes_many (declaration?_sound (nested_sound n) hi) (declarationLine_shrinks hi)
    (until_of_declarations (nested_reads n) hds)
  exact takes_bind hmany (takes_pure _ _)

end Offside.Parse
