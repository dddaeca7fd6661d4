import Offside.Proofs.Grammar

/-!
# What derivations take, and how deep they may go

Every phrase takes at least one lexeme off the front of what it is read from (`Consumes`),
so that repetition ends, and what holds of every item that is read holds of the items of a
list (`Yields`). A phrase that can be read within some levels of nesting can be read the same
way within more (`deeper_mono`).
-/

namespace Offside.Grammar

variable {α : Type}

/-! ## Progress -/

/-- `rest` is left of `ls` once at least one lexeme is taken off the front. -/
def Left (ls rest : List Lexeme) : Prop :=
  rest <:+ ls ∧ rest.length < ls.length

/-- The phrase takes at least one lexeme. -/
def Consumes (R : Phrase α) : Prop :=
  ∀ ⦃ls a rest⦄, R ls a rest → Left ls rest

theorem Left.trans {ls mid rest : List Lexeme} (h : Left ls mid) (h' : Left mid rest) :
    Left ls rest :=
  ⟨h'.1.trans h.1, Nat.lt_trans h'.2 h.2⟩

theorem Left.trans_suffix {ls mid rest : List Lexeme} (h : Left ls mid) (h' : rest <:+ mid) :
    Left ls rest :=
  ⟨h'.trans h.1, Nat.lt_of_le_of_lt h'.length_le h.2⟩

theorem left_cons (l : Lexeme) (ls : List Lexeme) : Left (l :: ls) ls :=
  ⟨List.suffix_cons l ls, Nat.lt_succ_self _⟩

theorem Left.cons {ls rest : List Lexeme} (h : Left ls rest) (l : Lexeme) :
    Left (l :: ls) rest :=
  (left_cons l ls).trans h

theorem Left.of_suffix {ls mid rest : List Lexeme} (h : mid <:+ ls) (h' : Left mid rest) :
    Left ls rest :=
  ⟨h'.1.trans h, Nat.lt_of_lt_of_le h'.2 h.length_le⟩

theorem Newlines.suffix {ls rest : List Lexeme} (h : Newlines ls rest) : rest <:+ ls := by
  induction h with
  | none => exact List.suffix_rfl
  | next _ ih => exact ih.trans (List.suffix_cons _ _)

theorem newlines_trans {ls mid rest : List Lexeme} (h : Newlines ls mid)
    (h' : Newlines mid rest) : Newlines ls rest := by
  induction h with
  | none => exact h'
  | next _ ih => exact .next (ih h')

theorem LineEnd.suffix {ls rest : List Lexeme} (h : LineEnd ls rest) : rest <:+ ls := by
  cases h with
  | newline => exact List.suffix_cons _ _
  | dedent => exact List.suffix_rfl

theorem word_consumes : Consumes Word := by
  rintro _ _ _ ⟨⟩
  exact left_cons _ _

theorem listed_consumes {item : Phrase α} (hitem : Consumes item) :
    Consumes (Listed item) := by
  intro ls as rest h
  induction h with
  | one h => exact hitem h
  | more h _ ih => exact ((hitem h).trans (left_cons _ _)).trans ih

theorem lines_consumes {item : Phrase α} (hitem : Consumes item) : Consumes (Lines item) := by
  intro ls as rest h
  induction h with
  | done h => exact (left_cons _ _).of_suffix h.suffix
  | next hn h _ ih => exact ((hitem h).trans ih).of_suffix hn.suffix

theorem block_consumes {item : Phrase α} (hitem : Consumes item) : Consumes (Block item) := by
  rintro ls as rest ⟨hn, h⟩
  exact ((lines_consumes hitem h).cons _).of_suffix hn.suffix

theorem chain_consumes {operator? : Kind → Option MathOp} {operand : Phrase Expr}
    (hoperand : Consumes operand) : Consumes (Chain operator? operand) := by
  intro ls e rest h
  induction h with
  | first h => exact hoperand h
  | next _ _ h ih => exact (ih.trans (left_cons _ _)).trans (hoperand h)

section

variable {expression : Phrase Expr} (he : Consumes expression)
include he

theorem arguments_consumes : Consumes (Arguments expression) := by
  intro ls es rest h
  cases h with
  | none => exact left_cons _ _
  | some h => exact (listed_consumes he h).trans (left_cons _ _)

theorem callPhrase_consumes : Consumes (CallPhrase expression) := by
  intro ls c rest h
  cases h with
  | alone h => exact ((arguments_consumes he h).cons _).cons _
  | onReceiver h => exact ((((arguments_consumes he h).cons _).cons _).cons _).cons _

theorem factor_consumes : Consumes (Factor expression) := by
  intro ls e rest h
  cases h with
  | number => exact left_cons _ _
  | string => exact left_cons _ _
  | character => exact left_cons _ _
  | parens h => exact ((he h).trans (left_cons _ _)).cons _
  | new h => exact (((arguments_consumes he h).cons _).cons _).cons _
  | call h => exact callPhrase_consumes he h
  | var h => exact word_consumes h

theorem sum_consumes : Consumes (Sum expression) :=
  chain_consumes (chain_consumes (factor_consumes he))

theorem condition_consumes : Consumes (Condition expression) := by
  intro ls e rest h
  cases h with
  | compare h _ h' => exact ((he h).trans (left_cons _ _)).trans (he h')
  | call h => exact he h
  | var h => exact he h

theorem namedValue_consumes (typeName : String) :
    Consumes (NamedValue expression typeName) := by
  intro ls d rest h
  cases h with
  | bare h => exact word_consumes h
  | valued hx h => exact ((word_consumes hx).trans (left_cons _ _)).trans (he h)

theorem varDecls_consumes : Consumes (VarDecls expression) := by
  rintro ls ds rest ⟨h, hend⟩
  exact ((listed_consumes (namedValue_consumes he _) h).trans_suffix hend.suffix).cons _

end

/-- All that can stand deeper takes at least one lexeme. -/
structure Deeper.Consumes (inner : Deeper) : Prop where
  expression : Grammar.Consumes inner.expression
  body : Grammar.Consumes inner.body
  methodBody : Grammar.Consumes inner.methodBody
  elseIf : Grammar.Consumes inner.elseIf

section

variable {inner : Deeper} (hi : inner.Consumes)
include hi

theorem plain_consumes : Consumes (Plain inner) := by
  intro ls s rest h
  cases h with
  | loop hc hb =>
    exact (((condition_consumes hi.expression hc).trans (left_cons _ _)).trans (hi.body hb)).cons _
  | loopIn hx hc hb =>
    have hcond := (condition_consumes hi.expression hc).trans (left_cons _ _)
    exact (((word_consumes hx).trans (left_cons _ _)).trans (hcond.trans (hi.body hb))).cons _
  | call hc hend => exact (callPhrase_consumes hi.expression hc).trans_suffix hend.suffix
  | assign hx h hend =>
    have hxs := (listed_consumes word_consumes hx).trans (left_cons _ _)
    exact (hxs.trans (hi.expression h)).trans_suffix hend.suffix

theorem guarded_consumes : Consumes (Guarded inner) := by
  rintro ls a rest ⟨hc, hb⟩
  exact ((condition_consumes hi.expression hc).trans (left_cons _ _)).trans (hi.body hb)

theorem conditional_consumes : Consumes (Conditional inner) := by
  intro ls s rest h
  induction h with
  | alone ha hn => exact (guarded_consumes hi ha).trans_suffix hn.suffix
  | elseIf ha hn h =>
    have hs := (((hi.elseIf h).cons _).cons _).of_suffix hn.suffix
    exact (guarded_consumes hi ha).trans hs
  | elseBlock ha hn hn' h =>
    have hs := (hi.body h).of_suffix hn'.suffix
    exact (guarded_consumes hi ha).trans (((hs.cons _).cons _).of_suffix hn.suffix)
  | elseLineIf ha hn hn' _ ih =>
    have hs := (ih.cons _).of_suffix hn'.suffix
    exact (guarded_consumes hi ha).trans (((hs.cons _).cons _).of_suffix hn.suffix)
  | elseLine ha hn hn' h =>
    have hs := (plain_consumes hi h).of_suffix hn'.suffix
    exact (guarded_consumes hi ha).trans (((hs.cons _).cons _).of_suffix hn.suffix)

theorem statement_consumes : Consumes (Statement inner) := by
  intro ls s rest h
  cases h with
  | cond h => exact (conditional_consumes hi h).cons _
  | plain h => exact plain_consumes hi h

theorem item_consumes : Consumes (Item inner) := by
  intro ls i rest h
  cases h with
  | locals h => exact varDecls_consumes hi.expression h
  | statement h => exact statement_consumes hi h

end

theorem deeper_consumes : ∀ n : Nat, (deeper n).Consumes
  | 0 => ⟨fun _ _ _ h => h.elim, fun _ _ _ h => h.elim, fun _ _ _ h => h.elim,
      fun _ _ _ h => h.elim⟩
  | n + 1 =>
    have hi := deeper_consumes n
    ⟨sum_consumes hi.expression, block_consumes (statement_consumes hi),
      block_consumes (item_consumes hi), conditional_consumes hi⟩

theorem parameter_consumes : Consumes Parameter := by
  rintro _ _ _ ⟨⟩
  exact (left_cons _ _).cons _

theorem parameterList_consumes : Consumes ParameterList := by
  intro ls ds rest h
  cases h with
  | none => exact (left_cons _ _).cons _
  | some h => exact ((listed_consumes parameter_consumes h).trans (left_cons _ _)).cons _

theorem returned_consumes : Consumes Returned := by
  intro ls r rest h
  cases h with
  | bare => exact left_cons _ _
  | named => exact (left_cons _ _).cons _

theorem header_consumes : Consumes Header := by
  intro ls h rest hh
  cases hh with
  | bare hx hd hend =>
    exact ((word_consumes hx).trans (parameterList_consumes hd)).trans_suffix hend.suffix
  | returning hx hd hr hend =>
    have hhead := (word_consumes hx).trans ((parameterList_consumes hd).trans (left_cons _ _))
    exact (hhead.trans (listed_consumes returned_consumes hr)).trans_suffix hend.suffix

theorem interfaceDecl_consumes : Consumes InterfaceDecl := by
  rintro ls i rest ⟨hx, hb⟩
  exact ((word_consumes hx).trans (left_cons _ _)).trans (block_consumes header_consumes hb)

theorem Mark.suffix {kind : Kind} {ls rest : List Lexeme} {b : Bool}
    (h : Mark kind ls b rest) : rest <:+ ls := by
  cases h with
  | absent => exact List.suffix_rfl
  | present => exact List.suffix_cons _ _

theorem Implemented.suffix {ls rest : List Lexeme} {xs : List String}
    (h : Implemented ls xs rest) : rest <:+ ls := by
  cases h with
  | none => exact List.suffix_rfl
  | some h => exact ((listed_consumes word_consumes h).cons _).1

section

variable {inner : Deeper} (hi : inner.Consumes)
include hi

theorem classPart_consumes : Consumes (ClassPart inner) := by
  intro ls i rest h
  cases h with
  | constructor hd hn hb =>
    have hbody := (hi.methodBody hb).of_suffix hn.suffix
    exact (((parameterList_consumes hd).trans (left_cons _ _)).trans hbody).cons _
  | method hp hs hh hb =>
    have hmarks := hs.suffix.trans hp.suffix
    exact ((header_consumes hh).trans (hi.methodBody hb)).of_suffix hmarks
  | members h => exact varDecls_consumes hi.expression h

theorem classDecl_consumes : Consumes (ClassDecl inner) := by
  rintro ls c rest ⟨hx, hxs, hb⟩
  have hhead := (word_consumes hx).trans_suffix hxs.suffix
  exact (hhead.trans (left_cons _ _)).trans (block_consumes (classPart_consumes hi) hb)

end

/-! ## What is read has a property -/

/-- What the phrase reads from lists with the property `Q` has the property `P`. -/
def Yields (Q : List Lexeme → Prop) (R : Phrase α) (P : α → Prop) : Prop :=
  ∀ ⦃ls a rest⦄, Q ls → R ls a rest → P a

/-- The end of a list has the property if the list has. -/
def SuffixClosed (Q : List Lexeme → Prop) : Prop :=
  ∀ ⦃ls rest⦄, rest <:+ ls → Q ls → Q rest

section

variable {Q : List Lexeme → Prop} {R : Phrase α} {P : α → Prop} (hQ : SuffixClosed Q)
  (hR : Consumes R) (h : Yields Q R P)
include hQ hR h

theorem listed_yields : Yields Q (Listed R) fun as => as ≠ [] ∧ ∀ a ∈ as, P a := by
  intro ls as rest hls hl
  induction hl with
  | one ha => exact ⟨by simp, by simpa using h hls ha⟩
  | more ha _ ih =>
    have hmid := ih (hQ ((hR ha).trans (left_cons _ _)).1 hls)
    exact ⟨by simp, List.forall_mem_cons.mpr ⟨h hls ha, hmid.2⟩⟩

theorem lines_yields : Yields Q (Lines R) fun as => ∀ a ∈ as, P a := by
  intro ls as rest hls hl
  induction hl with
  | done => simp
  | next hn ha _ ih =>
    have hstart := hQ hn.suffix hls
    exact List.forall_mem_cons.mpr ⟨h hstart ha, ih (hQ (hR ha).1 hstart)⟩

theorem block_yields : Yields Q (Block R) fun as => ∀ a ∈ as, P a := by
  rintro ls as rest hls ⟨hn, hl⟩
  exact lines_yields hQ hR h (hQ ((left_cons _ _).of_suffix hn.suffix).1 hls) hl

end

/-! ## More levels -/

/-- Whatever the one phrase reads, the other reads too. -/
def Within (R S : Phrase α) : Prop :=
  ∀ ⦃ls a rest⦄, R ls a rest → S ls a rest

theorem listed_mono {item item' : Phrase α} (h : Within item item') :
    Within (Listed item) (Listed item') := by
  intro ls as rest hl
  induction hl with
  | one ha => exact .one (h ha)
  | more ha _ ih => exact .more (h ha) ih

theorem block_mono {item item' : Phrase α} (h : Within item item') :
    Within (Block item) (Block item') := by
  rintro ls as rest ⟨hn, hl⟩
  refine .mk hn ?_
  clear hn
  induction hl with
  | done hd => exact .done hd
  | next hn ha _ ih => exact .next hn (h ha) ih

theorem chain_mono {operator? : Kind → Option MathOp} {operand operand' : Phrase Expr}
    (h : Within operand operand') :
    Within (Chain operator? operand) (Chain operator? operand') := by
  intro ls e rest hc
  induction hc with
  | first he => exact .first (h he)
  | next _ hop he ih => exact .next ih hop (h he)

section

variable {expression expression' : Phrase Expr} (h : Within expression expression')
include h

theorem arguments_mono : Within (Arguments expression) (Arguments expression') := by
  intro ls es rest ha
  cases ha with
  | none => exact .none
  | some hl => exact .some (listed_mono h hl)

theorem callPhrase_mono : Within (CallPhrase expression) (CallPhrase expression') := by
  intro ls c rest hc
  cases hc with
  | alone ha => exact .alone (arguments_mono h ha)
  | onReceiver ha => exact .onReceiver (arguments_mono h ha)

theorem factor_mono : Within (Factor expression) (Factor expression') := by
  intro ls e rest hf
  cases hf with
  | number => exact .number
  | string => exact .string
  | character hc => exact .character hc
  | parens he => exact .parens (h he)
  | new ha => exact .new (arguments_mono h ha)
  | call hc => exact .call (callPhrase_mono h hc)
  | var hx => exact .var hx

theorem sum_mono : Within (Sum expression) (Sum expression') :=
  chain_mono (chain_mono (factor_mono h))

theorem condition_mono : Within (Condition expression) (Condition expression') := by
  intro ls e rest hc
  cases hc with
  | compare hl hop hr => exact .compare (h hl) hop (h hr)
  | call he => exact .call (h he)
  | var he => exact .var (h he)

theorem varDecls_mono : Within (VarDecls expression) (VarDecls expression') := by
  rintro ls ds rest ⟨hl, hend⟩
  refine .mk (listed_mono ?_ hl) hend
  intro ls d rest hd
  cases hd with
  | bare hx => exact .bare hx
  | valued hx he => exact .valued hx (h he)

end

/-- Whatever can stand deeper in the one sense can in the other. -/
structure Deeper.Within (inner outer : Deeper) : Prop where
  expression : Grammar.Within inner.expression outer.expression
  body : Grammar.Within inner.body outer.body
  methodBody : Grammar.Within inner.methodBody outer.methodBody
  elseIf : Grammar.Within inner.elseIf outer.elseIf

section

variable {inner outer : Deeper} (h : inner.Within outer)
include h

theorem plain_mono : Within (Plain inner) (Plain outer) := by
  intro ls s rest hs
  cases hs with
  | loop hc hb => exact .loop (condition_mono h.expression hc) (h.body hb)
  | loopIn hx hc hb => exact .loopIn hx (condition_mono h.expression hc) (h.body hb)
  | call hc hend => exact .call (callPhrase_mono h.expression hc) hend
  | assign hx he hend => exact .assign hx (h.expression he) hend

theorem guarded_mono : Within (Guarded inner) (Guarded outer) := by
  rintro ls a rest ⟨hc, hb⟩
  exact .mk (condition_mono h.expression hc) (h.body hb)

theorem conditional_mono : Within (Conditional inner) (Conditional outer) := by
  intro ls s rest hs
  induction hs with
  | alone ha hn => exact .alone (guarded_mono h ha) hn
  | elseIf ha hn hs => exact .elseIf (guarded_mono h ha) hn (h.elseIf hs)
  | elseBlock ha hn hn' hb => exact .elseBlock (guarded_mono h ha) hn hn' (h.body hb)
  | elseLineIf ha hn hn' _ ih => exact .elseLineIf (guarded_mono h ha) hn hn' ih
  | elseLine ha hn hn' hs => exact .elseLine (guarded_mono h ha) hn hn' (plain_mono h hs)

theorem statement_mono : Within (Statement inner) (Statement outer) := by
  intro ls s rest hs
  cases hs with
  | cond hs => exact .cond (conditional_mono h hs)
  | plain hs => exact .plain (plain_mono h hs)

theorem item_mono : Within (Item inner) (Item outer) := by
  intro ls i rest hi
  cases hi with
  | locals hd => exact .locals (varDecls_mono h.expression hd)
  | statement hs => exact .statement (statement_mono h hs)

end

theorem deeper_mono_succ : ∀ n : Nat, (deeper n).Within (deeper (n + 1))
  | 0 => ⟨fun _ _ _ h => h.elim, fun _ _ _ h => h.elim, fun _ _ _ h => h.elim,
      fun _ _ _ h => h.elim⟩
  | n + 1 =>
    have h := deeper_mono_succ n
    ⟨sum_mono h.expression, block_mono (statement_mono h), block_mono (item_mono h),
      conditional_mono h⟩

/-- What can be read within some levels of nesting can be read within more. -/
theorem deeper_mono {m n : Nat} (h : m ≤ n) : (deeper m).Within (deeper n) := by
  induction h with
  | refl => exact ⟨fun _ _ _ h => h, fun _ _ _ h => h, fun _ _ _ h => h, fun _ _ _ h => h⟩
  | @step n _ ih =>
    have hs := deeper_mono_succ n
    exact ⟨fun _ _ _ h => hs.expression (ih.expression h), fun _ _ _ h => hs.body (ih.body h),
      fun _ _ _ h => hs.methodBody (ih.methodBody h), fun _ _ _ h => hs.elseIf (ih.elseIf h)⟩

section

variable {inner outer : Deeper} (h : inner.Within outer)
include h

theorem classPart_mono : Within (ClassPart inner) (ClassPart outer) := by
  intro ls i rest hp
  cases hp with
  | constructor hd hn hb => exact .constructor hd hn (h.methodBody hb)
  | method hp hs hh hb => exact .method hp hs hh (h.methodBody hb)
  | members hd => exact .members (varDecls_mono h.expression hd)

theorem declarations_mono {ls : List Lexeme} {ds : List Declaration}
    (hd : Declarations inner ls ds) : Declarations outer ls ds := by
  induction hd with
  | done hn => exact .done hn
  | classDecl hn hc _ ih =>
    obtain ⟨hx, hxs, hb⟩ := hc
    exact .classDecl hn (.mk hx hxs (block_mono (classPart_mono h) hb)) ih
  | interfaceDecl hn hi _ ih => exact .interfaceDecl hn hi ih

end

theorem derives_mono {m n : Nat} (h : m ≤ n) {ls : List Lexeme} {p : Program}
    (hp : Derives m ls p) : Derives n ls p := by
  obtain ⟨ds, hds, rfl⟩ := hp
  exact ⟨ds, declarations_mono (deeper_mono h) hds, rfl⟩

end Offside.Grammar
