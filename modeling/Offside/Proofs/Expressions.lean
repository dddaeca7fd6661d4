import Offside.Proofs.Acceptance
import Offside.Proofs.Blame
import Offside.Proofs.Recut

/-!
# Where an expression ends

An expression is read up to where nothing goes on with it (`Stops`): no operator follows, and if
its last lexeme is a name, nothing that would make a call of it. So the parser for expressions
reads exactly the phrases of the grammar that end there (`Exact`), one way and the other: first
the factors (`exact_factor`), then the chains of both sorts of operators (`exact_sum`), then the
levels of nesting. The texts of an expression, read in order, are those of the lexemes that it is
read from (`expression_texts`). The main statement is `run_expression_iff`.
-/

namespace Offside.Parse

open Grammar

variable {α : Type}

/-! ## Phrases that are read exactly -/

/-- The parser reads these phrases, and no other. -/
structure Exact (p : Parse α) (R : Phrase α) : Prop where
  sound : Sound p R
  takes : ∀ ⦃ls a rest⦄, R ls a rest → Takes p ls a rest

theorem Exact.congr {p : Parse α} {R R' : Phrase α} (h : Exact p R)
    (hR : ∀ ls a rest, R ls a rest ↔ R' ls a rest) : Exact p R' where
  sound _ _ _ hs := (hR _ _ _).mp (h.sound hs)
  takes _ _ _ hls := h.takes ((hR _ _ _).mpr hls)

/-- The phrase, if what it is read from and what it leaves are as `F` says. -/
def Guard (R : Phrase α) (F : List Lexeme → List Lexeme → Prop) : Phrase α :=
  fun ls a rest => R ls a rest ∧ F ls rest

theorem guard_consumes {R : Phrase α} {F : List Lexeme → List Lexeme → Prop} (h : Consumes R) :
    Consumes (Guard R F) :=
  fun _ _ _ hR => h hR.1

/-- It depends only on the end of what was taken whether `F` holds. -/
def AtEnd (F : List Lexeme → List Lexeme → Prop) : Prop :=
  ∀ ⦃ls mid rest⦄, mid <:+ ls → rest.length < mid.length → (F ls rest ↔ F mid rest)

section

variable {operator? : Kind → Option MathOp} {R : Phrase Expr}
  {F : List Lexeme → List Lexeme → Prop}

/-- In a chain what is true of the end of its last operand is true of its own end. -/
theorem chain_guard (hR : Consumes R) (hF : AtEnd F)
    (hop : ∀ ls {k op} v rest, operator? k = some op → F ls (⟨k, v⟩ :: rest))
    (ls : List Lexeme) (e : Expr) (rest : List Lexeme) :
    Chain operator? (Guard R F) ls e rest ↔ Guard (Chain operator? R) F ls e rest := by
  constructor
  · intro h
    induction h with
    | first he => exact ⟨.first he.1, he.2⟩
    | next _ hk he ih =>
      have hmid := ((chain_consumes hR ih.1).trans (left_cons _ _)).1
      exact ⟨.next ih.1 hk he.1, (hF hmid (hR he.1).2).mpr he.2⟩
  · rintro ⟨h, hf⟩
    induction h with
    | first he => exact .first ⟨he, hf⟩
    | next hleft hk he ih =>
      have hmid := ((chain_consumes hR hleft).trans (left_cons _ _)).1
      exact .next (ih (hop _ _ _ hk)) hk ⟨he, (hF hmid (hR he).2).mp hf⟩

theorem takeMeaning?_none {meaning? : Kind → Option α} {s s' : State}
    (h : takeMeaning? meaning? s = .ok none s') : Meaningless meaning? s'.lexemes := by
  rcases s with ⟨⟨_ | ⟨t, ts⟩, last⟩, events, depth⟩
  · cases h
    rintro k ⟨⟩
  · cases hk : meaning? t.kind with
    | none =>
      simp only [takeMeaning?, hk] at h
      cases h
      rintro k ⟨⟩
      exact hk
    | some a =>
      simp only [takeMeaning?, hk] at h
      cases h

variable {operand : Parse Expr}

/-- Behind a chain there is no further operator of it. -/
theorem leftAssociative_stops (hoperand : Sound operand R) (hR : Consumes R) {s s' : State}
    {e : Expr} (h : leftAssociative .math (takeMeaning? operator?) operand s = .ok e s') :
    Meaningless operator? s'.lexemes := by
  obtain ⟨_, mid, -, h₁⟩ := bind_ok.mp h
  obtain ⟨ops, t, hops, h₂⟩ := bind_ok.mp h₁
  obtain ⟨-, rfl⟩ := pure_ok.mp h₂
  have hitem : Sound (operation? (takeMeaning? operator?) operand) fun ls r rest =>
      Operation operator? R ls r rest ∧ (r = none → Meaningless operator? rest) := by
    refine fun s r s' hr => ⟨operation?_sound hoperand hr, ?_⟩
    rintro rfl
    obtain ⟨o, mid, ho, h₃⟩ := bind_ok.mp hr
    cases o with
    | none =>
      obtain ⟨-, rfl⟩ := pure_ok.mp h₃
      exact takeMeaning?_none ho
    | some op =>
      obtain ⟨_, _, _, h₄⟩ := bind_ok.mp h₃
      cases h₄
  have huntil := many_sound hitem (fun _ _ _ h => operation_shrinks hR h.1) hops
  clear hops h h₁ h₂
  generalize mid.lexemes = ms, t.lexemes = ts at huntil ⊢
  induction huntil with
  | stop hstop => exact hstop.2 rfl
  | next _ _ ih => exact ih

theorem exact_leftAssociative (hoperand : Exact operand R) (hR : Consumes R) :
    Exact (leftAssociative .math (takeMeaning? operator?) operand)
      (Guard (Chain operator? R) fun _ rest => Meaningless operator? rest) where
  sound _ _ _ h :=
    ⟨leftAssociative_sound hoperand.sound hR h, leftAssociative_stops hoperand.sound hR h⟩
  takes _ _ _ h := takes_leftAssociative (F := fun _ => True) hoperand.sound hR
    (fun he _ => hoperand.takes he) (fun _ => trivial) h.1 trivial h.2

end

/-! ## The end of an expression -/

/-- If the last lexeme that was taken is a name, what is left does not make a call of it. -/
def NameStops (ls rest : List Lexeme) : Prop :=
  ∀ v, ⟨.word, v⟩ :: rest <:+ ls → Unextended rest

/-- What is left does not go on with the expression that was taken. -/
structure Stops (ls rest : List Lexeme) : Prop where
  name : NameStops ls rest
  multiplicative : Meaningless MathOp.multiplicative? rest
  additive : Meaningless MathOp.additive? rest

theorem nameStops_atEnd : AtEnd NameStops := by
  intro ls mid rest hmid hlength
  constructor
  · exact fun h v hv => h v (hv.trans hmid)
  · intro h v hv
    exact h v (List.suffix_of_suffix_length_le hv hmid (by rwa [List.length_cons]))

theorem stops_atEnd : AtEnd Stops := by
  intro ls mid rest hmid hlength
  constructor
  · exact fun h => ⟨(nameStops_atEnd hmid hlength).mp h.name, h.multiplicative, h.additive⟩
  · exact fun h => ⟨(nameStops_atEnd hmid hlength).mpr h.name, h.multiplicative, h.additive⟩

theorem nameStops_cons {k : Kind} (h : k ≠ .leftParen) (h' : k ≠ .dot) (ls : List Lexeme)
    (v : Option String) (rest : List Lexeme) : NameStops ls (⟨k, v⟩ :: rest) :=
  fun _ _ => unextended_cons h h' v rest

theorem nameStops_of_kind {l : Lexeme} {ls rest : List Lexeme} (hl : l :: rest <:+ ls)
    (hk : l.kind ≠ .word) : NameStops ls rest := by
  intro v hv
  have heq := List.suffix_of_suffix_length_le hv hl (by simp)
  cases heq.eq_of_length (by simp)
  exact absurd rfl hk

section

variable {E : Phrase Expr}

theorem arguments_nameStops (hE : Consumes E) {ls rest : List Lexeme} {es : List Expr}
    (h : Arguments E ls es rest) : NameStops ls rest := by
  cases h with
  | none => exact nameStops_of_kind List.suffix_rfl (by simp)
  | some hlist => exact nameStops_of_kind (listed_consumes hE hlist).1 (by simp)

/-- Only a factor that is a name depends on what stands behind it. -/
theorem factor_nameStops (hE : Consumes E) {ls rest : List Lexeme} {e : Expr}
    (h : Factor E ls e rest) : NameStops ls rest ∨ ∃ v, ls = ⟨.word, v⟩ :: rest := by
  have harguments : ∀ {g ls es}, Arguments E ls es rest → NameStops (g ++ ls) rest :=
    fun ha => (nameStops_atEnd (List.suffix_append _ _) (arguments_consumes hE ha).2).mpr
      (arguments_nameStops hE ha)
  cases h with
  | number => exact .inl (nameStops_of_kind List.suffix_rfl (by simp))
  | string => exact .inl (nameStops_of_kind List.suffix_rfl (by simp))
  | character => exact .inl (nameStops_of_kind List.suffix_rfl (by simp))
  | parens he => exact .inl (nameStops_of_kind ((hE he).cons _).1 (by simp))
  | new ha => exact .inl (harguments (g := [_, _, _]) ha)
  | call hc =>
    cases hc with
    | alone ha => exact .inl (harguments (g := [_, _]) ha)
    | onReceiver ha => exact .inl (harguments (g := [_, _, _, _]) ha)
  | var hx =>
    cases hx
    exact .inr ⟨_, rfl⟩

end

theorem call?_none {p : Parse Expr} {s s' : State} (h : call? p s = .ok none s') :
    starts [.word, .dot, .word, .leftParen] s.lexemes = false ∧
      starts [.word, .leftParen] s.lexemes = false := by
  obtain ⟨b, _, hb, h₁⟩ := bind_ok.mp h
  obtain ⟨rfl, rfl⟩ := nextAre_ok.mp hb
  split at h₁
  · obtain ⟨_, _, _, h₂⟩ := bind_ok.mp h₁
    obtain ⟨_, _, _, h₃⟩ := bind_ok.mp h₂
    obtain ⟨_, _, _, h₄⟩ := bind_ok.mp h₃
    cases h₄
  next hreceiver =>
  obtain ⟨b, _, hb, h₂⟩ := bind_ok.mp h₁
  obtain ⟨rfl, rfl⟩ := nextAre_ok.mp hb
  split at h₂
  · obtain ⟨_, _, _, h₃⟩ := bind_ok.mp h₂
    cases h₃
  next halone =>
  exact ⟨Bool.eq_false_iff.mpr hreceiver, Bool.eq_false_iff.mpr halone⟩

section

variable {p : Parse Expr} {E : Phrase Expr} (hp : ReadsExpression p E)
include hp

/-- A name is read as a variable only if nothing makes a call of it. -/
theorem factor_unextended {s s' : State} {e : Expr} (h : factor p s = .ok e s')
    {v : Option String} (hs : s.lexemes = ⟨.word, v⟩ :: s'.lexemes) : Unextended s'.lexemes := by
  obtain ⟨k, _, hk, h₁⟩ := bind_ok.mp h
  obtain ⟨rfl, rfl⟩ := nextKind?_ok.mp hk
  rw [hs] at h₁
  obtain ⟨r, t, hr, h₂⟩ := bind_ok.mp h₁
  cases r with
  | none =>
    have hcall := call?_none hr
    rw [hs] at hcall
    simpa [Unextended, starts, and_comm] using hcall
  | some c =>
    obtain ⟨-, rfl⟩ := pure_ok.mp h₂
    rcases call?_sound hp.sound hp.consumes hr with ⟨hnone, -⟩ | ⟨c', -, hc⟩
    · cases hnone
    -- A call takes more than the name.
    · have hlength := hs ▸ hc
      generalize State.lexemes _ = rest at hlength
      cases hlength with
      | alone ha =>
        have hlt := (arguments_consumes hp.consumes ha).2
        simp only [List.length_cons] at hlt
        omega
      | onReceiver ha =>
        have hlt := (arguments_consumes hp.consumes ha).2
        simp only [List.length_cons] at hlt
        omega

theorem exact_factor : Exact (factor p) (Guard (Factor E) NameStops) where
  sound s e s' h := by
    have hfactor := factor_sound hp.sound hp.consumes h
    refine ⟨hfactor, ?_⟩
    rcases factor_nameStops hp.consumes hfactor with hstops | ⟨v, hs⟩
    · exact hstops
    · exact fun _ _ => factor_unextended hp h hs
  takes ls e rest h := by
    refine takes_factor_of_name hp h.1 ?_
    rintro v rfl
    exact h.2 v List.suffix_rfl

theorem exact_term : Exact (term p) (Guard (Term E) fun ls rest =>
    NameStops ls rest ∧ Meaningless MathOp.multiplicative? rest) := by
  have hfactor := factor_consumes hp.consumes
  refine (exact_leftAssociative (exact_factor hp) (guard_consumes hfactor)).congr fun ls e rest => ?_
  rw [Guard, chain_guard hfactor nameStops_atEnd fun ls k op v rest hop =>
    nameStops_cons (multiplicative_ne hop).1 (multiplicative_ne hop).2 ls v rest]
  exact and_assoc

/-- Sums are read exactly up to where nothing goes on with them. -/
theorem exact_sum : Exact (sum p) (Guard (Sum E) Stops) := by
  have hterm : Consumes (Term E) := chain_consumes (factor_consumes hp.consumes)
  refine (exact_leftAssociative (exact_term hp) (guard_consumes hterm)).congr fun ls e rest => ?_
  rw [Guard, chain_guard hterm]
  · exact ⟨fun h => ⟨h.1.1, h.1.2.1, h.1.2.2, h.2⟩, fun h => ⟨⟨h.1, h.2.1, h.2.2⟩, h.2.3⟩⟩
  · exact fun ls mid rest hmid hlength => and_congr_left' (nameStops_atEnd hmid hlength)
  · intro ls k op v rest hop
    obtain ⟨hparen, hdot, hmultiplicative⟩ := additive_ne hop
    exact ⟨nameStops_cons hparen hdot ls v rest, meaningless_cons hmultiplicative v rest⟩

end

theorem exact_expression : ∀ n : Nat,
    Exact (nested n).expression (Guard (deeper n).expression Stops)
  | 0 => ⟨fun _ _ _ h => (by cases h), fun _ _ _ h => h.1.elim⟩
  | n + 1 => exact_sum (nested_reads n).expression

/-- A lexeme that closes every expression closes this one. -/
theorem stops_cons {k : Kind} (h : closesExpression k = true) (ls : List Lexeme)
    (v : Option String) (rest : List Lexeme) : Stops ls (⟨k, v⟩ :: rest) :=
  have hcloses := closes_cons h v rest
  ⟨fun _ _ => hcloses.1, hcloses.2.1, hcloses.2.2⟩

theorem closesExpression_compare {k : Kind} {op : CompareOp} (h : CompareOp.ofKind? k = some op) :
    closesExpression k = true := by
  cases k <;> first | rfl | cases h

/-- A condition that is no comparison is not followed by the sign of one. -/
theorem exact_condition {p : Parse Expr} {E : Phrase Expr} (hp : Exact p (Guard E Stops))
    (hE : Consumes E) : Exact (condition p) fun ls e rest => Condition E ls e rest ∧
      Stops ls rest ∧ ((∀ op a b, e ≠ .compare op a b) → Meaningless CompareOp.ofKind? rest) where
  sound s e s' h := by
    obtain ⟨q, _, hq, h₁⟩ := bind_ok.mp h
    obtain ⟨-, rfl⟩ := look_ok.mp hq
    obtain ⟨left, t, hleft, h₂⟩ := bind_ok.mp h₁
    obtain ⟨hl, hstops⟩ := hp.sound hleft
    obtain ⟨o, u, ho, h₃⟩ := bind_ok.mp h₂
    rcases takeMeaning?_ok ho with ⟨rfl, rfl⟩ | ⟨k, v, op, rfl, hk, hlex⟩
    · have hnone := takeMeaning?_none ho
      cases left with
      | call r m es =>
        obtain ⟨rfl, rfl⟩ := pure_ok.mp h₃
        exact ⟨.call hl, hstops, fun _ => hnone⟩
      | var x =>
        obtain ⟨rfl, rfl⟩ := pure_ok.mp h₃
        exact ⟨.var hl, hstops, fun _ => hnone⟩
      | _ => cases h₃
    · obtain ⟨right, w, hright, h₄⟩ := bind_ok.mp h₃
      obtain ⟨rfl, rfl⟩ := pure_ok.mp h₄
      obtain ⟨hr, hstops'⟩ := hp.sound hright
      rw [hlex] at hl
      have hmid := ((hE hl).trans (left_cons _ _)).1
      exact ⟨.compare hl hk hr, (stops_atEnd hmid (hE hr).2).mpr hstops',
        fun hne => absurd rfl (hne op left right)⟩
  takes ls e rest h := by
    obtain ⟨hcondition, hstops, hnone⟩ := h
    refine takes_position_bind fun q => ?_
    cases hcondition with
    | compare hl hk hr =>
      have hmid := ((hE hl).trans (left_cons _ _)).1
      have hleft := hp.takes ⟨hl, stops_cons (closesExpression_compare hk) _ _ _⟩
      have hright := hp.takes ⟨hr, (stops_atEnd hmid (hE hr).2).mp hstops⟩
      exact takes_bind hleft (takes_bind (takes_takeMeaning? hk _ _)
        (takes_bind hright (takes_pure _ _)))
    | call he =>
      exact takes_bind (hp.takes ⟨he, hstops⟩)
        (takes_bind (takes_takeMeaning?_miss (hnone (by simp))) (takes_pure _ _))
    | var he =>
      exact takes_bind (hp.takes ⟨he, hstops⟩)
        (takes_bind (takes_takeMeaning?_miss (hnone (by simp))) (takes_pure _ _))

theorem bind_of_ok {β : Type} {p : Parse α} {f : α → Parse β} {s t : State} {a : α}
    (h : p s = .ok a t) : (p >>= f) s = f a t := by
  show EStateM.bind p f s = _
  rw [EStateM.bind, h]

/-- What is compared with nothing is no condition if it is neither a call nor a variable. -/
theorem condition_error {p : Parse Expr} {s s' : State} {e : Expr} (h : p s = .ok e s')
    (hnone : Meaningless CompareOp.ofKind? s'.lexemes) (hcall : ∀ r m es, e ≠ .call r m es)
    (hvar : ∀ x, e ≠ .var x) :
    condition p s = .error ⟨.expectedBooleanExpression e.print, s.stream.position⟩ s' := by
  obtain ⟨t, ht, -⟩ := takes_takeMeaning?_miss hnone s' rfl
  obtain rfl : t = s' := by
    rcases takeMeaning?_ok ht with ⟨-, rfl⟩ | ⟨_, _, _, hsome, -⟩
    · rfl
    · cases hsome
  have hposition : position s = .ok s.stream.position s := rfl
  rw [condition, bind_of_ok hposition, bind_of_ok h, bind_of_ok ht]
  cases e with
  | call r m es => exact absurd rfl (hcall r m es)
  | var x => exact absurd rfl (hvar x)
  | _ => rfl

/-! ## Runs on tokens -/

/-- A phrase that is read exactly is read from the tokens that it takes, wherever they stand. -/
theorem exact_tokens {p : Parse α} {R : Phrase α} {F : α → List Lexeme → List Lexeme → Prop}
    (hp : Exact p fun ls a rest => R ls a rest ∧ F a ls rest) (hlocal : Local R)
    (hreads : ∀ start, Reads start p) (s : State) (a : α) (left : List Token) :
    (∃ s', p s = .ok a s' ∧ s'.stream.tokens = left) ↔
      ∃ taken, s.stream.tokens = taken ++ left ∧ R (lexemesOf taken) a [] ∧
        F a (lexemesOf (taken ++ left)) (lexemesOf left) := by
  have hends := hreads s.stream s (.refl _)
  constructor
  · rintro ⟨s', hs, rfl⟩
    rw [hs] at hends
    obtain ⟨taken, htaken⟩ := hends.tokens
    have hlexemes : s.lexemes = lexemesOf taken ++ lexemesOf s'.stream.tokens := by
      rw [State.lexemes, ← htaken, List.map_append]
      rfl
    obtain ⟨hR, hF⟩ := hp.sound hs
    rw [hlexemes] at hR hF
    obtain ⟨ls', hR', hswap⟩ := hlocal hR (Swap.here : Swap s'.lexemes [] s'.lexemes [])
    obtain ⟨front, hfront, rfl⟩ := hswap.exists_front
    rw [List.append_nil, ← List.append_cancel_right hfront] at hR'
    exact ⟨taken, htaken.symm, hR', by rwa [lexemesOf, List.map_append]⟩
  · rintro ⟨taken, htokens, hR, hF⟩
    obtain ⟨ls', hR', hswap⟩ :=
      hlocal hR (Swap.here : Swap [] (lexemesOf left) [] (lexemesOf left))
    obtain ⟨front, hfront, rfl⟩ := hswap.exists_front
    rw [List.append_nil] at hfront
    rw [← hfront, lexemesOf, lexemesOf, ← List.map_append] at hR'
    have hlexemes : s.lexemes = lexemesOf (taken ++ left) := by rw [State.lexemes, htokens]; rfl
    obtain ⟨s', hs, hleft⟩ := hp.takes ⟨hR', hF⟩ s hlexemes
    rw [hs] at hends
    have hrest := hends.tokens
    rw [htokens] at hrest
    have hlength : s'.stream.tokens.length = left.length := by
      have := congrArg List.length hleft
      simpa [State.lexemes, lexemesOf] using this
    have hsuffix := List.suffix_of_suffix_length_le hrest (List.suffix_append taken left)
      (Nat.le_of_eq hlength)
    exact ⟨s', hs, hsuffix.eq_of_length hlength⟩

end Offside.Parse

namespace Offside

open Grammar Parse

/-! ## The texts of an expression -/

/-- The sign of an operator of this kind. -/
def Kind.sign? (k : Kind) : Option String :=
  match MathOp.additive? k, MathOp.multiplicative? k with
  | some op, _ => some op.symbol
  | none, some op => some op.symbol
  | none, none => (CompareOp.ofKind? k).map CompareOp.symbol

/-- What a lexeme adds to the texts of an expression: a name, a literal or an operator adds its
text, and a character literal its character. -/
def Lexeme.texts (l : Lexeme) : List String :=
  match l.kind with
  | .number | .quotedString | .word => [l.value.getD ""]
  | .quotedCharacter => ((l.value.getD "").toList.take 1).map String.singleton
  | k => k.sign?.toList

mutual

/-- The names, literals and operators of an expression, from left to right. -/
def Expr.texts : Expr → List String
  | .number text | .string text | .var text => [text]
  | .character value => [String.singleton value]
  | .boolean value => [if value then "true" else "false"]
  | .call receiver method arguments => receiver.toList ++ method :: Expr.allTexts arguments
  | .math op left right => left.texts ++ op.symbol :: right.texts
  | .compare op left right => left.texts ++ op.symbol :: right.texts
  | .logic op left right => left.texts ++ op.symbol :: right.texts
  | .not operand => "not" :: operand.texts
  | .new typeName arguments => typeName :: Expr.allTexts arguments

/-- Those of expressions, one after the other. -/
def Expr.allTexts : List Expr → List String
  | [] => []
  | e :: rest => e.texts ++ Expr.allTexts rest

end

/-- What is read from `ls` has the texts of the lexemes that are taken. -/
def KeepsTexts {α : Type} (R : Phrase α) (texts : α → List String) : Prop :=
  ∀ ⦃ls a rest⦄, R ls a rest → ls.flatMap Lexeme.texts = texts a ++ rest.flatMap Lexeme.texts

theorem listed_texts {E : Phrase Expr} (hE : KeepsTexts E Expr.texts) :
    KeepsTexts (Listed E) Expr.allTexts := by
  intro ls es rest h
  induction h with
  | one he => rw [hE he, Expr.allTexts, Expr.allTexts, List.append_nil]
  | more he _ ih =>
    have hcomma : ∀ v, Lexeme.texts ⟨.comma, v⟩ = [] := fun _ => rfl
    rw [hE he, List.flatMap_cons, hcomma, ih, Expr.allTexts, List.append_assoc, List.nil_append]

theorem chain_texts {operator? : Kind → Option MathOp} {E : Phrase Expr}
    (hop : ∀ {k op} v, operator? k = some op → Lexeme.texts ⟨k, v⟩ = [op.symbol])
    (hE : KeepsTexts E Expr.texts) : KeepsTexts (Chain operator? E) Expr.texts := by
  intro ls e rest h
  induction h with
  | first he => exact hE he
  | next _ hk he ih =>
    rw [ih, List.flatMap_cons, hop _ hk, hE he, Expr.texts]
    simp

section

variable {E : Phrase Expr} (hE : KeepsTexts E Expr.texts)
include hE

theorem arguments_texts : KeepsTexts (Arguments E) Expr.allTexts := by
  intro ls es rest h
  have hparen : ∀ v, Lexeme.texts ⟨.rightParen, v⟩ = [] := fun _ => rfl
  cases h with
  | none => rw [List.flatMap_cons, hparen, Expr.allTexts]
  | some hlist => rw [listed_texts hE hlist, List.flatMap_cons, hparen, List.nil_append]

theorem factor_texts : KeepsTexts (Factor E) Expr.texts := by
  intro ls e rest h
  cases h with
  | number => rfl
  | string => rfl
  | character hc => simp [Lexeme.texts, hc, Expr.texts]
  | parens he =>
    have hparen : ∀ v, Lexeme.texts ⟨.rightParen, v⟩ = [] := fun _ => rfl
    have hinner := hE he
    rw [List.flatMap_cons, hparen, List.nil_append] at hinner
    exact hinner
  | new ha =>
    have harguments := arguments_texts hE ha
    simp only [List.flatMap_cons, harguments, Expr.texts]
    rfl
  | call hc =>
    cases hc with
    | alone ha =>
      have harguments := arguments_texts hE ha
      simp only [List.flatMap_cons, harguments, Call.toExpr, Expr.texts]
      rfl
    | onReceiver ha =>
      have harguments := arguments_texts hE ha
      simp only [List.flatMap_cons, harguments, Call.toExpr, Expr.texts]
      rfl
  | var hx =>
    cases hx
    rfl

theorem sum_texts : KeepsTexts (Sum E) Expr.texts := by
  have hmultiplicative : ∀ {k op} v, MathOp.multiplicative? k = some op →
      Lexeme.texts ⟨k, v⟩ = [op.symbol] := by
    intro k op v hk
    cases k <;> cases hk <;> rfl
  have hadditive : ∀ {k op} v, MathOp.additive? k = some op →
      Lexeme.texts ⟨k, v⟩ = [op.symbol] := by
    intro k op v hk
    cases k <;> cases hk <;> rfl
  exact chain_texts hadditive (chain_texts hmultiplicative (factor_texts hE))

end

theorem expression_texts : ∀ n : Nat, KeepsTexts (deeper n).expression Expr.texts
  | 0 => fun _ _ _ h => h.elim
  | n + 1 => sum_texts (expression_texts n)

/-! ## Expressions and conditions -/

/-- The expression `e` can be read from all of the tokens within `n` levels of nesting. -/
def DerivesExpression (n : Nat) (tokens : List Token) (e : Expr) : Prop :=
  (deeper n).expression (lexemesOf tokens) e []

/-- The condition `e` can be read from all of the tokens within `n` levels of nesting. -/
def DerivesCondition (n : Nat) (tokens : List Token) (e : Expr) : Prop :=
  Condition (deeper n).expression (lexemesOf tokens) e []

theorem run_eq_ok_iff {α : Type} {production : Nested → Parse α} (huniform : Uniform production)
    {p : Parser} {a : α} {left : List Token} :
    (∃ p', p.run production = (.ok a, p') ∧ p'.state.stream.tokens = left) ↔
      ∃ s', production (nested (maxNesting - p.depth)) p.state = .ok a s' ∧
        s'.stream.tokens = left := by
  rw [p.run_eq huniform]
  constructor
  · rintro ⟨p', h, hleft⟩
    split at h
    · next a' s' hs =>
      cases h
      exact ⟨s', hs, hleft⟩
    · cases h
  · rintro ⟨s', hs, hleft⟩
    rw [hs]
    exact ⟨_, rfl, hleft⟩

theorem uniform_expression : Uniform Nested.expression :=
  fun _ _ _ h => h.expression

theorem uniform_condition : Uniform fun n => condition n.expression :=
  fun C _ _ h => C.condition h.expression

/-- An expression is read from the tokens that derive it and that nothing goes on with; its texts
are theirs. A condition is a comparison of two expressions, or else a call or a variable that no
sign of a comparison follows; any other expression that none follows is blamed, from its start. -/
theorem run_expression_iff (p : Parser) :
    (∀ e left, (∃ p', p.run Nested.expression = (.ok e, p') ∧ p'.state.stream.tokens = left) ↔
      ∃ taken, p.state.stream.tokens = taken ++ left ∧
        DerivesExpression (maxNesting - p.depth) taken e ∧
        Stops (lexemesOf (taken ++ left)) (lexemesOf left)) ∧
    (∀ taken e, DerivesExpression (maxNesting - p.depth) taken e →
      e.texts = (lexemesOf taken).flatMap Lexeme.texts) ∧
    (∀ e left, (∃ p', p.run (fun n => condition n.expression) = (.ok e, p') ∧
        p'.state.stream.tokens = left) ↔
      ∃ taken, p.state.stream.tokens = taken ++ left ∧
        DerivesCondition (maxNesting - p.depth) taken e ∧
        Stops (lexemesOf (taken ++ left)) (lexemesOf left) ∧
        ((∀ op a b, e ≠ .compare op a b) → Meaningless CompareOp.ofKind? (lexemesOf left))) ∧
    (∀ e taken left, p.state.stream.tokens = taken ++ left →
      DerivesExpression (maxNesting - p.depth) taken e →
      Stops (lexemesOf (taken ++ left)) (lexemesOf left) →
      Meaningless CompareOp.ofKind? (lexemesOf left) → (∀ r m es, e ≠ .call r m es) →
      (∀ x, e ≠ .var x) → ∃ p', p.run (fun n => condition n.expression) =
        (.error ⟨.expectedBooleanExpression e.print, p.state.stream.position⟩, p') ∧
          p'.state.stream.tokens = left) := by
  have hexact := exact_expression (maxNesting - p.depth)
  have hlocal := expression_local (maxNesting - p.depth)
  have hreads := uniform_expression.reads (maxNesting - p.depth)
  have hexpression := exact_tokens (F := fun _ => Stops) hexact hlocal hreads p.state
  refine ⟨fun e left => ?_, fun taken e h => ?_, fun e left => ?_, fun e taken left => ?_⟩
  · rw [run_eq_ok_iff uniform_expression]
    exact hexpression e left
  · have htexts := expression_texts _ h
    rw [List.flatMap_nil, List.append_nil] at htexts
    exact htexts.symm
  · rw [run_eq_ok_iff uniform_condition]
    exact exact_tokens (exact_condition hexact (deeper_consumes _).expression)
      (condition_local hlocal) (uniform_condition.reads _) _ _ _
  · intro htokens hderives hstops hnone hcall hvar
    obtain ⟨s', hs, rfl⟩ := (hexpression e left).mpr ⟨taken, htokens, hderives, hstops⟩
    refine ⟨⟨s'⟩, ?_, rfl⟩
    rw [p.run_eq uniform_condition, condition_error hs hnone hcall hvar]

/-- A parser in front of a difference of three numbers, the last of them a product. -/
def differenceParser : Parser :=
  Parser.ofList [⟨.word, ⟨1, 1⟩, some "a"⟩, .plain .minus ⟨1, 3⟩, ⟨.word, ⟨1, 5⟩, some "b"⟩,
    .plain .minus ⟨1, 7⟩, ⟨.number, ⟨1, 9⟩, some "2"⟩, .plain .times ⟨1, 11⟩,
    ⟨.word, ⟨1, 13⟩, some "c"⟩, .plain .newline ⟨1, 14⟩]

/-- The difference. -/
def difference : Expr :=
  .math .subtract (.math .subtract (.var "a") (.var "b")) (.math .multiply (.number "2") (.var "c"))

theorem run_expression_iff_difference : ∃ taken left,
    differenceParser.state.stream.tokens = taken ++ left ∧
      DerivesExpression (maxNesting - differenceParser.depth) taken difference ∧
      Stops (lexemesOf (taken ++ left)) (lexemesOf left) ∧
      difference.texts = (lexemesOf taken).flatMap Lexeme.texts ∧
      ∃ p', differenceParser.run (fun n => condition n.expression) =
        (.error ⟨.expectedBooleanExpression "a - b - 2 * c", ⟨1, 1⟩⟩, p') ∧
          p'.state.stream.tokens = left := by
  obtain ⟨hexpression, htexts, -, herror⟩ := run_expression_iff differenceParser
  obtain ⟨taken, htokens, hderives, hstops⟩ :=
    (hexpression difference [.plain .newline ⟨1, 14⟩]).mp ⟨_, rfl, rfl⟩
  have hnone : Meaningless CompareOp.ofKind? (lexemesOf [.plain .newline ⟨1, 14⟩]) := by
    rintro k ⟨⟩
    rfl
  exact ⟨taken, _, htokens, hderives, hstops, htexts _ _ hderives,
    herror _ _ _ htokens hderives hstops hnone (by simp [difference]) (by simp [difference])⟩

end Offside
