import Offside.Proofs.Derivation
import Offside.Proofs.Values

/-!
# What is derived can be written

From lexemes that carry texts that can be written, the grammar derives only trees that can be
written (`canonical_of_derives`): names come from words, literals from literals, and the shapes
that have no notation have no production either. Nothing is said here about empty bodies,
which the grammar derives but no writing shows.
-/

namespace Offside

open Grammar

/-- The lexemes carry texts that can be written. -/
def AllWellFormed (ls : List Lexeme) : Prop :=
  ∀ l ∈ ls, l.WellFormed

theorem suffixClosed_allWellFormed : SuffixClosed AllWellFormed :=
  fun _ _ hsuffix h l hl => h l (hsuffix.subset hl)

theorem AllWellFormed.rest {ls rest : List Lexeme} (h : AllWellFormed ls) (hleft : Left ls rest) :
    AllWellFormed rest :=
  suffixClosed_allWellFormed hleft.1 h

theorem AllWellFormed.tail {l : Lexeme} {ls : List Lexeme} (h : AllWellFormed (l :: ls)) :
    AllWellFormed ls :=
  h.rest (left_cons l ls)

theorem AllWellFormed.name {v : Option String} {ls : List Lexeme}
    (h : AllWellFormed (⟨.word, v⟩ :: ls)) : isIdentifier (v.getD "") = true := by
  obtain ⟨x, hx, hname⟩ := h ⟨.word, v⟩ (by simp)
  obtain rfl : v = some x := hx
  exact hname

theorem word_yields : Yields AllWellFormed Word fun x => isIdentifier x = true := by
  rintro ls x rest hls ⟨⟩
  exact hls.name

theorem words_yield : Yields AllWellFormed (Listed Word) fun xs => areTargets xs = true := by
  intro ls xs rest hls h
  obtain ⟨hne, hall⟩ := listed_yields suffixClosed_allWellFormed word_consumes word_yields hls h
  simpa [areTargets, hne] using hall

/-! ## Expressions -/

theorem Expr.allCanonical_iff :
    ∀ {es : List Expr}, allCanonical es = true ↔ ∀ e ∈ es, e.isCanonical = true
  | [] => by simp [allCanonical]
  | e :: es => by rw [allCanonical, Bool.and_eq_true, allCanonical_iff, List.forall_mem_cons]

section

variable {E : Phrase Expr} (hE : Yields AllWellFormed E fun e => e.isCanonical = true)
  (hC : Consumes E)
include hE hC

theorem arguments_yield :
    Yields AllWellFormed (Arguments E) fun es => Expr.allCanonical es = true := by
  intro ls es rest hls h
  cases h with
  | none => rfl
  | some h =>
    exact Expr.allCanonical_iff.mpr (listed_yields suffixClosed_allWellFormed hC hE hls h).2

theorem callPhrase_yields :
    Yields AllWellFormed (CallPhrase E) fun c => c.toExpr.isCanonical = true := by
  intro ls c rest hls h
  cases h with
  | alone h =>
    have hargs := arguments_yield hE hC hls.tail.tail h
    simp [Call.toExpr, Expr.isCanonical, hls.name, hargs]
  | onReceiver h =>
    have hargs := arguments_yield hE hC hls.tail.tail.tail.tail h
    simp [Call.toExpr, Expr.isCanonical, hls.name, hls.tail.tail.name, hargs]

theorem factor_yields : Yields AllWellFormed (Factor E) fun e => e.isCanonical = true := by
  intro ls e rest hls h
  cases h with
  | @number v =>
    obtain ⟨text, hv, htext⟩ := hls ⟨.number, v⟩ (by simp)
    obtain rfl : v = some text := hv
    exact htext
  | @string v =>
    obtain ⟨text, hv, htext⟩ := hls ⟨.quotedString, v⟩ (by simp)
    obtain rfl : v = some text := hv
    exact htext
  | @character v c cs _ hc =>
    obtain ⟨d, hv, hd⟩ := hls ⟨.quotedCharacter, v⟩ (by simp)
    obtain rfl : v = some (String.singleton d) := hv
    rw [Option.getD_some, String.toList_singleton] at hc
    cases hc
    simpa [Expr.isCanonical] using hd
  | parens h => exact hE hls.tail h
  | new h =>
    have hargs := arguments_yield hE hC hls.tail.tail.tail h
    simp [Expr.isCanonical, hls.tail.name, hargs]
  | call h => exact callPhrase_yields hE hC hls h
  | var h => exact word_yields hls h

omit hE hC in
theorem chain_yields {operator? : Kind → Option MathOp} {operand : Phrase Expr}
    (hoperand : Yields AllWellFormed operand fun e => e.isCanonical = true)
    (hconsumes : Consumes operand) :
    Yields AllWellFormed (Chain operator? operand) fun e => e.isCanonical = true := by
  intro ls e rest hls h
  induction h with
  | first he => exact hoperand hls he
  | next hc hk he ih =>
    have hmid := hls.rest ((chain_consumes hconsumes hc).trans (left_cons _ _))
    simp [Expr.isCanonical, ih hls, hoperand hmid he]

theorem sum_yields : Yields AllWellFormed (Sum E) fun e => e.isCanonical = true :=
  chain_yields (chain_yields (factor_yields hE hC) (factor_consumes hC))
    (chain_consumes (factor_consumes hC))

theorem condition_yields : Yields AllWellFormed (Condition E) fun c => c.isCondition = true := by
  intro ls c rest hls h
  cases h with
  | compare hl _ hr =>
    have hmid := hls.rest ((hC hl).trans (left_cons _ _))
    simp [Expr.isCondition, hE hls hl, hE hmid hr]
  | call h => exact hE hls h
  | var h => exact hE hls h

theorem varDecls_yield :
    Yields AllWellFormed (VarDecls E) fun ds => ∀ d ∈ ds, d.isCanonical = true := by
  have hvalue : ∀ typeName, isIdentifier typeName = true →
      Yields AllWellFormed (NamedValue E typeName) fun d => d.isCanonical = true := by
    intro typeName htype ls d rest hls h
    cases h with
    | bare hx => simp [VarDecl.isCanonical, htype, word_yields hls hx]
    | valued hx hv =>
      have hmid := hls.rest ((word_consumes hx).trans (left_cons _ _))
      simp [VarDecl.isCanonical, htype, word_yields hls hx, hE hmid hv]
  rintro ls ds rest hls ⟨hl, -⟩
  exact (listed_yields suffixClosed_allWellFormed (namedValue_consumes hC _) (hvalue _ hls.name)
    hls.tail hl).2

end

/-! ## Statements -/

theorem Stmt.allCanonical_iff :
    ∀ {body : List Stmt}, allCanonical body = true ↔ ∀ s ∈ body, s.isCanonical = true
  | [] => by simp [allCanonical]
  | s :: body => by rw [allCanonical, Bool.and_eq_true, allCanonical_iff, List.forall_mem_cons]

/-- What is assigned is a call statement if it is a call. -/
theorem Stmt.isCanonical_ofAssignment {targets : List String} {value : Expr}
    (ht : areTargets targets = true) (hv : value.isCanonical = true) :
    (Stmt.ofAssignment targets value).isCanonical = true := by
  cases value <;> simp_all [Stmt.ofAssignment, Stmt.isCanonical, Call.toExpr, Expr.isCall]

/-- The item can be written. -/
def BodyItem.Canonical : BodyItem → Prop
  | .locals ds => ∀ d ∈ ds, d.isCanonical = true
  | .statement s => s.isCanonical = true

theorem MethodBody.isCanonical_ofItems {items : List BodyItem} (h : ∀ i ∈ items, i.Canonical) :
    (MethodBody.ofItems items).isCanonical = true := by
  rw [MethodBody.isCanonical, Bool.and_eq_true, List.all_eq_true, Stmt.allCanonical_iff]
  constructor
  · intro d hd
    obtain ⟨i, hi, hd⟩ := List.mem_flatMap.mp hd
    cases i with
    | locals ds => exact h _ hi d hd
    | statement => cases hd
  · intro s hs
    obtain ⟨i, hi, hs⟩ := List.mem_filterMap.mp hs
    cases i <;> cases hs
    exact h _ hi

/-- All that can stand deeper can be written. -/
structure Grammar.Deeper.Canonical (inner : Deeper) : Prop where
  expression : Yields AllWellFormed inner.expression fun e => e.isCanonical = true
  body : Yields AllWellFormed inner.body fun b => Stmt.allCanonical b = true
  methodBody : Yields AllWellFormed inner.methodBody fun items =>
    (MethodBody.ofItems items).isCanonical = true
  elseIf : Yields AllWellFormed inner.elseIf fun s => s.isCanonical = true

section

variable {inner : Deeper} (hi : inner.Canonical) (hC : inner.Consumes)
include hi hC

theorem guarded_yields : Yields AllWellFormed (Guarded inner) fun a =>
    a.condition.isCondition = true ∧ Stmt.allCanonical a.body = true := by
  rintro ls a rest hls ⟨hc, hb⟩
  have hmid := hls.rest ((condition_consumes hC.expression hc).trans (left_cons _ _))
  exact ⟨condition_yields hi.expression hC.expression hls hc, hi.body hmid hb⟩

theorem plain_yields : Yields AllWellFormed (Plain inner) fun s => s.isCanonical = true := by
  intro ls s rest hls h
  cases h with
  | loop hc hb =>
    obtain ⟨hcondition, hbody⟩ := guarded_yields hi hC hls.tail (.mk hc hb)
    simp [Stmt.isCanonical, hcondition, hbody]
  | loopIn hx hc hb =>
    have hstart := hls.tail.rest ((word_consumes hx).trans (left_cons _ _))
    obtain ⟨hcondition, hbody⟩ := guarded_yields hi hC hstart (.mk hc hb)
    simp [Stmt.isCanonical, word_yields hls.tail hx, hcondition, hbody]
  | call hc _ =>
    simp [Stmt.isCanonical, callPhrase_yields hi.expression hC.expression hls hc]
  | assign hx hv _ =>
    have hmid := hls.rest ((listed_consumes word_consumes hx).trans (left_cons _ _))
    exact Stmt.isCanonical_ofAssignment (words_yield hls hx) (hi.expression hmid hv)

theorem conditional_yields :
    Yields AllWellFormed (Conditional inner) fun s => s.isCanonical = true := by
  have hassemble : ∀ {ls : List Lexeme} {a : Arm} {mid : List Lexeme} {o : Otherwise},
      AllWellFormed ls → Guarded inner ls a mid →
      (AllWellFormed mid → Stmt.otherwiseCanonical o = true) →
      (Stmt.cond a.condition a.body o).isCanonical = true := by
    intro ls a mid o hls ha ho
    obtain ⟨hcondition, hbody⟩ := guarded_yields hi hC hls ha
    simp [Stmt.isCanonical, hcondition, hbody, ho (hls.rest (guarded_consumes hC ha))]
  intro ls s rest hls h
  induction h with
  | alone ha _ => exact hassemble hls ha fun _ => rfl
  | elseIf ha hn hs =>
    exact hassemble hls ha fun hmid =>
      hi.elseIf (hmid.rest (((left_cons _ _).cons _).of_suffix hn.suffix)) hs
  | elseBlock ha hn hn' hb =>
    exact hassemble hls ha fun hmid => hi.body
      (hmid.rest ((((left_cons _ _).cons _).of_suffix hn.suffix).trans_suffix hn'.suffix)) hb
  | elseLineIf ha hn hn' _ ih =>
    exact hassemble hls ha fun hmid => ih
      (hmid.rest (((((left_cons _ _).cons _).of_suffix hn.suffix).trans_suffix hn'.suffix).trans
        (left_cons _ _)))
  | elseLine ha hn hn' hs =>
    exact hassemble hls ha fun hmid => plain_yields hi hC
      (hmid.rest ((((left_cons _ _).cons _).of_suffix hn.suffix).trans_suffix hn'.suffix)) hs

theorem statement_yields :
    Yields AllWellFormed (Statement inner) fun s => s.isCanonical = true := by
  intro ls s rest hls h
  cases h with
  | cond h => exact conditional_yields hi hC hls.tail h
  | plain h => exact plain_yields hi hC hls h

theorem item_yields : Yields AllWellFormed (Item inner) BodyItem.Canonical := by
  intro ls i rest hls h
  cases h with
  | locals h => exact varDecls_yield hi.expression hC.expression hls h
  | statement h => exact statement_yields hi hC hls h

end

theorem deeper_canonical : ∀ n : Nat, (deeper n).Canonical
  | 0 => ⟨fun _ _ _ _ h => h.elim, fun _ _ _ _ h => h.elim, fun _ _ _ _ h => h.elim,
      fun _ _ _ _ h => h.elim⟩
  | n + 1 =>
    have hi := deeper_canonical n
    have hC := deeper_consumes n
    { expression := sum_yields hi.expression hC.expression
      body := fun _ _ _ hls h => Stmt.allCanonical_iff.mpr (block_yields suffixClosed_allWellFormed
        (statement_consumes hC) (statement_yields hi hC) hls h)
      methodBody := fun _ _ _ hls h => MethodBody.isCanonical_ofItems
        (block_yields suffixClosed_allWellFormed (item_consumes hC) (item_yields hi hC) hls h)
      elseIf := conditional_yields hi hC }

/-! ## Declarations -/

theorem parameterList_yields :
    Yields AllWellFormed ParameterList fun ds => ds.all VarDecl.isParameter = true := by
  have hparameter : Yields AllWellFormed Parameter fun d => d.isParameter = true := by
    rintro ls d rest hls ⟨⟩
    simp [VarDecl.isParameter, hls.name, hls.tail.name]
  intro ls ds rest hls h
  cases h with
  | none => rfl
  | some h =>
    exact List.all_eq_true.mpr (listed_yields suffixClosed_allWellFormed parameter_consumes
      hparameter hls.tail h).2

theorem returned_yields : Yields AllWellFormed Returned fun r => r.isCanonical = true := by
  intro ls r rest hls h
  cases h with
  | bare => simp [ReturnDecl.isCanonical, hls.name]
  | @named v w =>
    obtain ⟨x, hx, hname⟩ := hls.tail ⟨.word, w⟩ (by simp)
    obtain rfl : w = some x := hx
    simp [ReturnDecl.isCanonical, hls.name, hname]

theorem header_yields : Yields AllWellFormed Header fun h => h.isCanonical = true := by
  intro ls hd rest hls h
  cases h with
  | bare hx hp _ =>
    have hparameters := parameterList_yields (hls.rest (word_consumes hx)) hp
    simp only [MethodHeader.isCanonical, Bool.and_eq_true]
    exact ⟨⟨word_yields hls hx, hparameters⟩, rfl⟩
  | returning hx hp hr _ =>
    have hstart := hls.rest (word_consumes hx)
    have hmid := hstart.rest ((parameterList_consumes hp).trans (left_cons _ _))
    have hreturns := listed_yields suffixClosed_allWellFormed returned_consumes returned_yields
      hmid hr
    simp only [MethodHeader.isCanonical, Bool.and_eq_true]
    exact ⟨⟨word_yields hls hx, parameterList_yields hstart hp⟩, List.all_eq_true.mpr hreturns.2⟩

theorem interfaceDecl_yields :
    Yields AllWellFormed InterfaceDecl fun i => i.isCanonical = true := by
  rintro ls i rest hls ⟨hx, hb⟩
  have hmid := hls.rest ((word_consumes hx).trans (left_cons _ _))
  rw [Interface.isCanonical, Bool.and_eq_true, List.all_eq_true]
  exact ⟨word_yields hls hx,
    block_yields suffixClosed_allWellFormed header_consumes header_yields hmid hb⟩

/-- The item can be written. -/
def ClassItem.Canonical : ClassItem → Prop
  | .constructor c => c.isCanonical = true
  | .method m => m.isCanonical = true
  | .members ds => ∀ d ∈ ds, d.isCanonical = true

theorem Class.isCanonical_ofItems {name : String} {interfaces : List String}
    {items : List ClassItem} (hname : isIdentifier name = true)
    (hinterfaces : interfaces.all isIdentifier = true) (h : ∀ i ∈ items, i.Canonical) :
    (Class.ofItems name interfaces items).isCanonical = true := by
  simp only [Class.isCanonical, Bool.and_eq_true]
  refine ⟨⟨⟨⟨hname, hinterfaces⟩, List.all_eq_true.mpr ?_⟩, List.all_eq_true.mpr ?_⟩,
    List.all_eq_true.mpr ?_⟩
  · intro c hc
    obtain ⟨i, hi, hc⟩ := List.mem_filterMap.mp hc
    cases i <;> cases hc
    exact h _ hi
  · intro m hm
    obtain ⟨i, hi, hm⟩ := List.mem_filterMap.mp hm
    cases i <;> cases hm
    exact h _ hi
  · intro d hd
    obtain ⟨i, hi, hd⟩ := List.mem_flatMap.mp hd
    cases i with
    | members ds => exact h _ hi d hd
    | constructor => cases hd
    | method => cases hd

section

variable {inner : Deeper} (hi : inner.Canonical) (hC : inner.Consumes)
include hi hC

theorem classPart_yields : Yields AllWellFormed (ClassPart inner) ClassItem.Canonical := by
  intro ls i rest hls h
  cases h with
  | constructor hp hn hb =>
    have hmid := hls.tail.rest (((parameterList_consumes hp).trans (left_cons _ _)).trans_suffix
      hn.suffix)
    simp only [ClassItem.Canonical, Constructor.isCanonical, Bool.and_eq_true]
    exact ⟨parameterList_yields hls.tail hp, hi.methodBody hmid hb⟩
  | method hp hs hh hb =>
    have hbehind := suffixClosed_allWellFormed (hs.suffix.trans hp.suffix) hls
    have hmid := hbehind.rest (header_consumes hh)
    simp [ClassItem.Canonical, Method.isCanonical, header_yields hbehind hh,
      hi.methodBody hmid hb]
  | members hd => exact varDecls_yield hi.expression hC.expression hls hd

theorem classDecl_yields :
    Yields AllWellFormed (ClassDecl inner) fun c => c.isCanonical = true := by
  rintro ls c rest hls ⟨hx, hxs, hb⟩
  have hstart := hls.rest (word_consumes hx)
  have hmid := hstart.rest ((left_cons _ _).of_suffix hxs.suffix)
  refine Class.isCanonical_ofItems (word_yields hls hx) ?_
    (block_yields suffixClosed_allWellFormed (classPart_consumes hC) (classPart_yields hi hC)
      hmid hb)
  cases hxs with
  | none => rfl
  | some hl =>
    exact List.all_eq_true.mpr
      (listed_yields suffixClosed_allWellFormed word_consumes word_yields hstart.tail hl).2

theorem declarations_yield {ls : List Lexeme} {ds : List Declaration} (hls : AllWellFormed ls)
    (h : Declarations inner ls ds) : (Program.ofDeclarations ds).isCanonical = true := by
  have hcanonical : ∀ d ∈ ds, (∀ c, d = .classDecl c → c.isCanonical = true) ∧
      ∀ i, d = .interfaceDecl i → i.isCanonical = true := by
    induction h with
    | done => simp
    | classDecl hn hc _ ih =>
      have hstart := hls.rest ((left_cons _ _).of_suffix hn.suffix)
      refine List.forall_mem_cons.mpr ⟨⟨?_, ?_⟩, ih (hstart.rest (classDecl_consumes hC hc))⟩
      · rintro c ⟨⟩
        exact classDecl_yields hi hC hstart hc
      · rintro i ⟨⟩
    | interfaceDecl hn hd _ ih =>
      have hstart := hls.rest ((left_cons _ _).of_suffix hn.suffix)
      refine List.forall_mem_cons.mpr ⟨⟨?_, ?_⟩, ih (hstart.rest (interfaceDecl_consumes hd))⟩
      · rintro c ⟨⟩
      · rintro i ⟨⟩
        exact interfaceDecl_yields hstart hd
  rw [Program.isCanonical, Bool.and_eq_true]
  refine ⟨List.all_eq_true.mpr fun c hc => ?_, List.all_eq_true.mpr fun i hmem => ?_⟩
  · obtain ⟨d, hd, hc⟩ := List.mem_filterMap.mp hc
    cases d <;> cases hc
    exact (hcanonical _ hd).1 c rfl
  · obtain ⟨d, hd, hmem⟩ := List.mem_filterMap.mp hmem
    cases d <;> cases hmem
    exact (hcanonical _ hd).2 i rfl

end

/-- What is derived from lexemes that carry texts that can be written can be written. -/
theorem canonical_of_derives {n : Nat} {ls : List Lexeme} {p : Program} (hls : AllWellFormed ls)
    (h : Derives n ls p) : p.isCanonical = true := by
  obtain ⟨ds, hds, rfl⟩ := h
  exact declarations_yield (deeper_canonical n) (deeper_consumes n) hls hds

end Offside
