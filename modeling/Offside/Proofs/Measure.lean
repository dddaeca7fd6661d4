import Offside.Proofs.Canonical
import Offside.Proofs.Derivation
import Offside.Proofs.Run

/-!
# The levels of a tree and those of its derivation

How deep a tree nests depends on what counts as a level inside of an expression, and for the
rest is the same count: a body is a level, so is an expression where a value is wanted, and a
condition that is the single statement behind `else`. `Program.nesting` counts with any measure
of expressions.

If the measure keeps within the levels that expressions take in a derivation, the count for the
program keeps within those of the whole derivation, but for one case: a condition on a line of
its own behind `else` is read without a level. `elseLineIfs` counts these places in a list of
lexemes, and the program takes at most so many levels more (`nesting_of_derives`).
-/

namespace Offside

open Grammar

/-! ## Counting levels -/

section

variable (measure : Expr → Nat)

/-- The levels of an expression, itself included. -/
def Expr.nesting (e : Expr) : Nat :=
  measure e + 1

/-- The levels of a condition: what it compares stands side by side. -/
def Expr.conditionNesting : Expr → Nat
  | .compare _ left right => max (left.nesting measure) (right.nesting measure)
  | e => e.nesting measure

namespace Stmt

mutual

/-- The levels of a statement. -/
def nesting : Stmt → Nat
  | assign _ value => value.nesting measure
  | call none c => largest (Expr.nesting measure) c.arguments
  | call (some _) c => c.toExpr.nesting measure
  | cond condition body otherwise =>
    max (condition.conditionNesting measure)
      (max (bodyNesting body + 1) (otherwiseNesting otherwise))
  | loop _ condition body => max (condition.conditionNesting measure) (bodyNesting body + 1)

/-- The levels of statements, side by side. -/
def bodyNesting : List Stmt → Nat
  | [] => 0
  | s :: rest => max (nesting s) (bodyNesting rest)

/-- The levels behind `else`. -/
def otherwiseNesting : Otherwise → Nat
  | .nothing => 0
  | .single s => nesting s + s.isCond.toNat
  | .block body => bodyNesting body + 1

end

end Stmt

/-- The levels of a declaration. -/
def VarDecl.nesting (d : VarDecl) : Nat :=
  (d.initializer.map (Expr.nesting measure)).getD 0

/-- The levels of a body, itself included. -/
def MethodBody.nesting (b : MethodBody) : Nat :=
  max (largest (VarDecl.nesting measure) b.locals) (Stmt.bodyNesting measure b.statements) + 1

/-- The levels of a class. -/
def Class.nesting (c : Class) : Nat :=
  max (largest (VarDecl.nesting measure) c.members)
    (max (largest (fun k => k.body.nesting measure) c.constructors)
      (largest (fun m => m.body.nesting measure) c.methods))

/-- The levels of a program. -/
def Program.nesting (p : Program) : Nat :=
  largest (Class.nesting measure) p.classes

end

/-! ## Conditions on lines of their own -/

/-- How often `else`, line ends and `if` stand behind each other. -/
def elseLineIfs : List Lexeme → Nat
  | [] => 0
  | l :: ls =>
    (l.kind == .kwElse && Parse.headKind? ls == some .newline &&
      Parse.headKind? (Parse.dropNewlines ls) == some .kwIf).toNat + elseLineIfs ls

/-- At most `m` conditions stand on lines of their own behind `else`. -/
def FewElseLineIfs (m : Nat) (ls : List Lexeme) : Prop :=
  elseLineIfs ls ≤ m

theorem elseLineIfs_le_of_suffix {ls rest : List Lexeme} (h : rest <:+ ls) :
    elseLineIfs rest ≤ elseLineIfs ls := by
  induction ls with
  | nil => exact Nat.le_of_eq (by rw [List.suffix_nil.mp h])
  | cons l ls ih =>
    rcases List.suffix_cons_iff.mp h with rfl | h
    · exact Nat.le_refl _
    · rw [elseLineIfs]
      exact Nat.le_trans (ih h) (Nat.le_add_left _ _)

theorem suffixClosed_fewElseLineIfs (m : Nat) : SuffixClosed (FewElseLineIfs m) :=
  fun _ _ hsuffix h => Nat.le_trans (elseLineIfs_le_of_suffix hsuffix) h

/-- Behind such a place there is one less. -/
theorem elseLineIfs_lt {ls behind start : List Lexeme} {v w u : Option String}
    (hls : Newlines ls (⟨.kwElse, v⟩ :: ⟨.newline, w⟩ :: behind))
    (hif : Newlines behind (⟨.kwIf, u⟩ :: start)) : elseLineIfs start < elseLineIfs ls := by
  have hdrop := Parse.dropNewlines_eq (Newlines.next (v := w) hif) (by simp [Parse.headKind?])
  have hstart : start <:+ ⟨.newline, w⟩ :: behind :=
    (List.suffix_cons _ _).trans (hif.suffix.trans (List.suffix_cons _ _))
  have hbehind := elseLineIfs_le_of_suffix hstart
  have hfront := elseLineIfs_le_of_suffix hls.suffix
  rw [elseLineIfs, hdrop] at hfront
  simp [Parse.headKind?] at hfront
  omega

/-! ## Expressions -/

/-- A property that every list has. -/
theorem suffixClosed_true : SuffixClosed fun _ => True :=
  fun _ _ _ h => h

section

variable {measure : Expr → Nat} {E : Phrase Expr} {n : Nat}
  (hE : Yields (fun _ => True) E fun e => e.nesting measure ≤ n)
include hE

theorem condition_nesting :
    Yields (fun _ => True) (Condition E) fun c => c.conditionNesting measure ≤ n := by
  intro ls c rest _ h
  cases h with
  | compare hl _ hr => exact Nat.max_le.mpr ⟨hE trivial hl, hE trivial hr⟩
  | call h => exact hE trivial h
  | var h => exact hE trivial h

variable (hC : Consumes E)
include hC

theorem arguments_nesting :
    Yields (fun _ => True) (Arguments E) fun es => largest (Expr.nesting measure) es ≤ n := by
  intro ls es rest _ h
  cases h with
  | none => exact Nat.zero_le n
  | some h => exact largest_le.mpr (listed_yields suffixClosed_true hC hE trivial h).2

theorem callPhrase_nesting :
    Yields (fun _ => True) (CallPhrase E) fun c =>
      largest (Expr.nesting measure) c.arguments ≤ n := by
  intro ls c rest _ h
  cases h with
  | alone h => exact arguments_nesting hE hC trivial h
  | onReceiver h => exact arguments_nesting hE hC trivial h

theorem varDecls_nesting :
    Yields (fun _ => True) (VarDecls E) fun ds => ∀ d ∈ ds, d.nesting measure ≤ n := by
  have hvalue : ∀ typeName,
      Yields (fun _ => True) (NamedValue E typeName) fun d => d.nesting measure ≤ n := by
    intro typeName ls d rest _ h
    cases h with
    | bare => exact Nat.zero_le n
    | valued _ h => exact hE trivial h
  rintro ls ds rest _ ⟨h, -⟩
  exact (listed_yields suffixClosed_true (namedValue_consumes hC _) (hvalue _) trivial h).2

end

/-! ## Statements -/

theorem Stmt.bodyNesting_le {measure : Expr → Nat} {n : Nat} {body : List Stmt} :
    bodyNesting measure body ≤ n ↔ ∀ s ∈ body, s.nesting measure ≤ n := by
  induction body with
  | nil => simp [bodyNesting]
  | cons s body ih => rw [bodyNesting, Nat.max_le, ih, List.forall_mem_cons]

theorem Stmt.nesting_ofAssignment {measure : Expr → Nat} {n : Nat} (targets : List String)
    {value : Expr} (h : value.nesting measure ≤ n) :
    (Stmt.ofAssignment targets value).nesting measure ≤ n := by
  cases value <;> exact h

theorem plain_not_cond {inner : Deeper} {ls rest : List Lexeme} {s : Stmt}
    (h : Plain inner ls s rest) : s.isCond = false := by
  cases h with
  | loop => rfl
  | loopIn => rfl
  | call => rfl
  | @assign _ _ _ _ e => cases e <;> rfl

/-- The item has at most `n` levels. -/
def BodyItem.NestingWithin (measure : Expr → Nat) (n : Nat) : BodyItem → Prop
  | .locals ds => ∀ d ∈ ds, d.nesting measure ≤ n
  | .statement s => s.nesting measure ≤ n

theorem MethodBody.nesting_ofItems {measure : Expr → Nat} {n : Nat} {items : List BodyItem}
    (h : ∀ i ∈ items, i.NestingWithin measure n) :
    (MethodBody.ofItems items).nesting measure ≤ n + 1 := by
  refine Nat.succ_le_succ (Nat.max_le.mpr ⟨largest_le.mpr ?_, Stmt.bodyNesting_le.mpr ?_⟩)
  · intro d hd
    obtain ⟨i, hi, hd⟩ := List.mem_flatMap.mp hd
    cases i with
    | locals ds => exact h _ hi d hd
    | statement => cases hd
  · intro s hs
    obtain ⟨i, hi, hs⟩ := List.mem_filterMap.mp hs
    cases i with
    | locals => cases hs
    | statement t =>
      cases hs
      exact h _ hi

/-- What stands deeper has at most `n` levels, and one more for each condition on a line of its
own behind `else`. -/
structure Grammar.Deeper.NestingWithin (measure : Expr → Nat) (inner : Deeper) (n : Nat) :
    Prop where
  expression : Yields (fun _ => True) inner.expression fun e => e.nesting measure ≤ n
  body : ∀ m, Yields (FewElseLineIfs m) inner.body fun b =>
    Stmt.bodyNesting measure b + 1 ≤ n + m
  methodBody : ∀ m, Yields (FewElseLineIfs m) inner.methodBody fun items =>
    (MethodBody.ofItems items).nesting measure ≤ n + m
  elseIf : ∀ m, Yields (FewElseLineIfs m) inner.elseIf fun s => s.nesting measure + 1 ≤ n + m

section

variable {measure : Expr → Nat} {inner : Deeper} {n : Nat}
  (hi : inner.NestingWithin measure n) (hC : inner.Consumes)
include hi hC

theorem guarded_nesting (m : Nat) : Yields (FewElseLineIfs m) (Guarded inner) fun a =>
    max (a.condition.conditionNesting measure) (Stmt.bodyNesting measure a.body + 1) ≤ n + m := by
  rintro ls a rest hls ⟨hc, hb⟩
  have hmid := suffixClosed_fewElseLineIfs m
    ((condition_consumes hC.expression hc).trans (left_cons _ _)).1 hls
  have hcondition := condition_nesting hi.expression trivial hc
  exact Nat.max_le.mpr ⟨Nat.le_add_right_of_le hcondition, hi.body m hmid hb⟩

theorem plain_nesting (m : Nat) :
    Yields (FewElseLineIfs m) (Plain inner) fun s => s.nesting measure ≤ n + m := by
  intro ls s rest hls h
  cases h with
  | loop hc hb =>
    have hmid := suffixClosed_fewElseLineIfs m (left_cons _ _).1 hls
    exact guarded_nesting hi hC m hmid (.mk hc hb)
  | loopIn hx hc hb =>
    have hmid := suffixClosed_fewElseLineIfs m
      (((word_consumes hx).trans (left_cons _ _)).cons _).1 hls
    exact guarded_nesting hi hC m hmid (.mk hc hb)
  | call hc _ =>
    exact Nat.le_add_right_of_le (callPhrase_nesting hi.expression hC.expression trivial hc)
  | assign _ hv _ =>
    exact Stmt.nesting_ofAssignment _ (Nat.le_add_right_of_le (hi.expression trivial hv))

/-- Each step of a chain of conditions takes a level, from the derivation or from the count. -/
theorem conditional_nesting : ∀ m, Yields (FewElseLineIfs m) (Conditional inner) fun s =>
    s.nesting measure ≤ n + m := by
  intro m ls s rest hls h
  have hbehind : ∀ {m ls a mid}, FewElseLineIfs m ls → Guarded inner ls a mid →
      FewElseLineIfs m mid :=
    fun hls ha => suffixClosed_fewElseLineIfs _ (guarded_consumes hC ha).1 hls
  have hassemble : ∀ {m} {a : Arm} {o : Otherwise},
      max (a.condition.conditionNesting measure) (Stmt.bodyNesting measure a.body + 1) ≤ n + m →
      Stmt.otherwiseNesting measure o ≤ n + m →
      (Stmt.cond a.condition a.body o).nesting measure ≤ n + m := by
    intro m a o ha ho
    rw [Stmt.nesting]
    omega
  induction h generalizing m with
  | alone ha _ => exact hassemble (guarded_nesting hi hC m hls ha) (Nat.zero_le _)
  | elseIf ha hn hs =>
    have hmid := suffixClosed_fewElseLineIfs m hn.suffix (hbehind hls ha)
    have hs := hi.elseIf m (suffixClosed_fewElseLineIfs m ((left_cons _ _).cons _).1 hmid) hs
    refine hassemble (guarded_nesting hi hC m hls ha) (Nat.le_trans ?_ hs)
    exact Nat.add_le_add_left (Bool.toNat_le _) _
  | elseBlock ha hn hn' hb =>
    have hmid := suffixClosed_fewElseLineIfs m hn.suffix (hbehind hls ha)
    have hstart := suffixClosed_fewElseLineIfs m
      (((left_cons _ _).cons _).trans_suffix hn'.suffix).1 hmid
    exact hassemble (guarded_nesting hi hC m hls ha) (hi.body m hstart hb)
  | elseLineIf ha hn hn' _ ih =>
    have hfewer := Nat.lt_of_lt_of_le (elseLineIfs_lt hn hn') (hbehind hls ha)
    obtain ⟨m, rfl⟩ := Nat.exists_eq_add_one_of_ne_zero (Nat.ne_zero_of_lt hfewer)
    have hs := ih m (Nat.le_of_lt_succ hfewer)
    refine hassemble (guarded_nesting hi hC _ hls ha) ?_
    rw [Stmt.otherwiseNesting, ← Nat.add_assoc]
    exact Nat.add_le_add hs (Bool.toNat_le _)
  | elseLine ha hn hn' hs =>
    have hmid := suffixClosed_fewElseLineIfs m hn.suffix (hbehind hls ha)
    have hstart := suffixClosed_fewElseLineIfs m
      (((left_cons _ _).cons _).trans_suffix hn'.suffix).1 hmid
    refine hassemble (guarded_nesting hi hC m hls ha) ?_
    have hcond : (Stmt.isCond _) = false := plain_not_cond hs
    rw [Stmt.otherwiseNesting, hcond]
    exact plain_nesting hi hC m hstart hs

theorem statement_nesting (m : Nat) :
    Yields (FewElseLineIfs m) (Statement inner) fun s => s.nesting measure ≤ n + m := by
  intro ls s rest hls h
  cases h with
  | cond h =>
    exact conditional_nesting hi hC m (suffixClosed_fewElseLineIfs m (left_cons _ _).1 hls) h
  | plain h => exact plain_nesting hi hC m hls h

theorem item_nesting (m : Nat) :
    Yields (FewElseLineIfs m) (Item inner) (BodyItem.NestingWithin measure (n + m)) := by
  intro ls i rest hls h
  cases h with
  | locals h =>
    exact fun d hd => Nat.le_add_right_of_le
      (varDecls_nesting hi.expression hC.expression trivial h d hd)
  | statement h => exact statement_nesting hi hC m hls h

end

theorem deeper_nesting {measure : Expr → Nat} (h : ∀ n, Yields (fun _ => True)
    (deeper n).expression fun e => e.nesting measure ≤ n) :
    ∀ n : Nat, (deeper n).NestingWithin measure n
  | 0 => ⟨h 0, fun _ _ _ _ _ h => h.elim, fun _ _ _ _ _ h => h.elim, fun _ _ _ _ _ h => h.elim⟩
  | n + 1 => by
    have hi := deeper_nesting h n
    have hC := deeper_consumes n
    have hmove : ∀ m, n + 1 + m = n + m + 1 := fun m => Nat.add_right_comm n 1 m
    refine ⟨h (n + 1), fun m ls b rest hls hb => ?_, fun m ls items rest hls hb => ?_,
      fun m ls s rest hls hs => ?_⟩ <;> rw [hmove]
    · exact Nat.succ_le_succ (Stmt.bodyNesting_le.mpr (block_yields
        (suffixClosed_fewElseLineIfs m) (statement_consumes hC) (statement_nesting hi hC m) hls hb))
    · exact MethodBody.nesting_ofItems (block_yields (suffixClosed_fewElseLineIfs m)
        (item_consumes hC) (item_nesting hi hC m) hls hb)
    · exact Nat.succ_le_succ (conditional_nesting hi hC m hls hs)

/-! ## Declarations -/

/-- The item has at most `n` levels. -/
def ClassItem.NestingWithin (measure : Expr → Nat) (n : Nat) : ClassItem → Prop
  | .constructor c => c.body.nesting measure ≤ n
  | .method m => m.body.nesting measure ≤ n
  | .members ds => ∀ d ∈ ds, d.nesting measure ≤ n

theorem Class.nesting_ofItems {measure : Expr → Nat} {n : Nat} {items : List ClassItem}
    (name : String) (interfaces : List String) (h : ∀ i ∈ items, i.NestingWithin measure n) :
    (Class.ofItems name interfaces items).nesting measure ≤ n := by
  refine Nat.max_le.mpr ⟨largest_le.mpr ?_, Nat.max_le.mpr ⟨largest_le.mpr ?_, largest_le.mpr ?_⟩⟩
  · intro d hd
    obtain ⟨i, hi, hd⟩ := List.mem_flatMap.mp hd
    cases i with
    | members ds => exact h _ hi d hd
    | constructor => cases hd
    | method => cases hd
  · intro c hc
    obtain ⟨i, hi, hc⟩ := List.mem_filterMap.mp hc
    cases i <;> cases hc
    exact h _ hi
  · intro m hm
    obtain ⟨i, hi, hm⟩ := List.mem_filterMap.mp hm
    cases i <;> cases hm
    exact h _ hi

section

variable {measure : Expr → Nat} {inner : Deeper} {n : Nat}
  (hi : inner.NestingWithin measure n) (hC : inner.Consumes) (m : Nat)
include hi hC

theorem classPart_nesting : Yields (FewElseLineIfs m) (ClassPart inner)
    (ClassItem.NestingWithin measure (n + m)) := by
  intro ls i rest hls h
  cases h with
  | constructor hd hn hb =>
    have hhead := (parameterList_consumes hd).trans (left_cons _ _)
    exact hi.methodBody m
      (suffixClosed_fewElseLineIfs m ((hhead.trans_suffix hn.suffix).cons _).1 hls) hb
  | method hp hs hh hb =>
    have hhead := (header_consumes hh).of_suffix (hs.suffix.trans hp.suffix)
    exact hi.methodBody m (suffixClosed_fewElseLineIfs m hhead.1 hls) hb
  | members hd =>
    exact fun d hmem => Nat.le_add_right_of_le
      (varDecls_nesting hi.expression hC.expression trivial hd d hmem)

theorem classDecl_nesting : Yields (FewElseLineIfs m) (ClassDecl inner) fun c =>
    c.nesting measure ≤ n + m := by
  rintro ls c rest hls ⟨hx, hxs, hb⟩
  have hhead := ((word_consumes hx).trans_suffix hxs.suffix).trans (left_cons _ _)
  exact Class.nesting_ofItems _ _ (block_yields (suffixClosed_fewElseLineIfs m)
    (classPart_consumes hC) (classPart_nesting hi hC m)
    (suffixClosed_fewElseLineIfs m hhead.1 hls) hb)

theorem declarations_nesting {ls : List Lexeme} {ds : List Declaration}
    (hls : FewElseLineIfs m ls) (h : Declarations inner ls ds) :
    ∀ c, .classDecl c ∈ ds → c.nesting measure ≤ n + m := by
  induction h with
  | done => simp
  | @classDecl ls v start c mid ds hn hc _ ih =>
    have hstart := suffixClosed_fewElseLineIfs m ((left_cons _ _).of_suffix hn.suffix).1 hls
    have hmid := suffixClosed_fewElseLineIfs m (classDecl_consumes hC hc).1 hstart
    intro c' hc'
    rcases List.mem_cons.mp hc' with heq | hc'
    · cases heq
      exact classDecl_nesting hi hC m hstart hc
    · exact ih hmid c' hc'
  | interfaceDecl hn hd _ ih =>
    have hstart := suffixClosed_fewElseLineIfs m ((left_cons _ _).of_suffix hn.suffix).1 hls
    have hmid := suffixClosed_fewElseLineIfs m (interfaceDecl_consumes hd).1 hstart
    intro c' hc'
    rcases List.mem_cons.mp hc' with heq | hc'
    · cases heq
    · exact ih hmid c' hc'

end

/-- If the measure keeps within the levels of expressions, the program has no more levels than
its derivation takes, and one for each condition on a line of its own behind `else`. -/
theorem nesting_of_derives {measure : Expr → Nat} (hmeasure : ∀ n, Yields (fun _ => True)
    (deeper n).expression fun e => e.nesting measure ≤ n) {n : Nat} {ls : List Lexeme}
    {p : Program} (h : Derives n ls p) : p.nesting measure ≤ n + elseLineIfs ls := by
  obtain ⟨ds, hds, rfl⟩ := h
  refine largest_le.mpr fun c hc => ?_
  obtain ⟨d, hd, hc⟩ := List.mem_filterMap.mp hc
  cases d <;> cases hc
  exact declarations_nesting (deeper_nesting hmeasure n) (deeper_consumes n) _ (Nat.le_refl _) hds
    c hd

end Offside
