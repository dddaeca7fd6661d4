import Offside.Proofs.Measure

/-!
# The levels that a derivation takes

What is derived within `n` levels has no more than `n` levels as `Program.levels` counts them,
which are those that it needs in writing if nothing is empty. For expressions this compares the
parentheses of the source with those of the printer: an operand that binds too loosely for its
place must have stood in parentheses, which took the level that the printer's parentheses take
again (`Snug`). The source may have had more of them.

For the rest the levels in writing are those that `Program.nesting` counts
(`Program.levels_eq`). So the bound holds as long as no condition stands on a line of its own
behind `else` (`elseLineIf`): the grammar reads that without a level, but the printer puts the
condition on the line of the `else`, where it takes one.
-/

namespace Offside

open Grammar

/-! ## Expressions -/

namespace Expr

theorem argumentLevels_eq :
    ∀ es : List Expr, argumentLevels es = largest (nesting innerLevels) es
  | [] => rfl
  | e :: es => congrArg (max (e.innerLevels + 1)) (argumentLevels_eq es)

theorem conditionLevels_eq (c : Expr) : c.conditionLevels = c.conditionNesting innerLevels := by
  cases c <;> rfl

/-- Within `n` levels the expression can stand where operands bind at least as tightly as `k`:
it binds so tightly itself, or there is a level left for parentheses. -/
def Snug (n k : Nat) (e : Expr) : Prop :=
  e.levels ≤ n ∨ (k ≤ e.precedence ∧ e.innerLevels ≤ n)

theorem Snug.innerLevels_le {n k : Nat} {e : Expr} (h : Snug n k e) : e.innerLevels ≤ n := by
  rcases h with h | h
  · rw [levels] at h
    omega
  · exact h.2

theorem Snug.mono {n k m : Nat} {e : Expr} (h : Snug n k e) (hm : m ≤ k) : Snug n m e :=
  h.imp_right fun h => ⟨Nat.le_trans hm h.1, h.2⟩

/-- The parentheses of the printer keep a left operand snug. -/
theorem snug_left {n k : Nat} {e : Expr} :
    e.innerLevels + (needsParens e.precedence k false).toNat ≤ n ↔ Snug n k e := by
  rw [Snug, levels]
  by_cases h : e.precedence < k
  · have hneeds : needsParens e.precedence k false = true := by simpa [needsParens] using h
    rw [hneeds, Bool.toNat_true]
    omega
  · have hneeds : needsParens e.precedence k false = false := by simpa [needsParens] using h
    rw [hneeds, Bool.toNat_false]
    omega

/-- The parentheses of the printer keep a right operand more than snug. -/
theorem snug_right {n k : Nat} {e : Expr} :
    e.innerLevels + (needsParens e.precedence k true).toNat ≤ n ↔ Snug n (k + 1) e := by
  rw [Snug, levels]
  by_cases h : e.precedence < k ∨ e.precedence = k
  · have hneeds : needsParens e.precedence k true = true := by simpa [needsParens] using h
    rw [hneeds, Bool.toNat_true]
    omega
  · have hneeds : needsParens e.precedence k true = false := by simpa [needsParens] using h
    rw [hneeds, Bool.toNat_false]
    omega

theorem innerLevels_math {n : Nat} {op : MathOp} {left right : Expr} :
    (math op left right).innerLevels ≤ n ↔ Snug n (math op left right).precedence left ∧
      Snug n ((math op left right).precedence + 1) right := by
  rw [innerLevels, Nat.max_le, snug_left, snug_right]

end Expr

theorem precedence_additive {k : Kind} {op : MathOp} (h : MathOp.additive? k = some op)
    (left right : Expr) : (Expr.math op left right).precedence = 5 := by
  cases k <;> cases h <;> rfl

theorem precedence_multiplicative {k : Kind} {op : MathOp}
    (h : MathOp.multiplicative? k = some op) (left right : Expr) :
    (Expr.math op left right).precedence = 6 := by
  cases k <;> cases h <;> rfl

section

variable {E : Phrase Expr} {n : Nat}

/-- A chain binds as loosely as its operators, and its operands more tightly. -/
theorem chain_snug {operator? : Kind → Option MathOp} {operand : Phrase Expr} {k : Nat}
    (hop : ∀ {kind op}, operator? kind = some op →
      ∀ left right, (Expr.math op left right).precedence = k)
    (h : Yields (fun _ => True) operand (Expr.Snug n (k + 1))) :
    Yields (fun _ => True) (Chain operator? operand) (Expr.Snug n k) := by
  intro ls e rest _ hc
  induction hc with
  | first he => exact (h trivial he).mono (Nat.le_succ k)
  | next _ hk he ih =>
    have hprec := hop hk
    refine Or.inr ⟨Nat.le_of_eq (hprec _ _).symm, Expr.innerLevels_math.mpr ?_⟩
    rw [hprec]
    exact ⟨ih, h trivial he⟩

variable (hE : Yields (fun _ => True) E fun e => e.levels ≤ n) (hC : Consumes E)
include hE hC

theorem arguments_levels :
    Yields (fun _ => True) (Arguments E) fun es => Expr.argumentLevels es ≤ n := by
  intro ls es rest hls h
  rw [Expr.argumentLevels_eq]
  exact arguments_nesting hE hC hls h

theorem callPhrase_levels :
    Yields (fun _ => True) (CallPhrase E) fun c => Expr.argumentLevels c.arguments ≤ n := by
  intro ls c rest hls h
  rw [Expr.argumentLevels_eq]
  exact callPhrase_nesting hE hC hls h

theorem factor_snug : Yields (fun _ => True) (Factor E) (Expr.Snug n 7) := by
  intro ls e rest _ h
  cases h with
  | number => exact Or.inr ⟨Nat.le_refl 7, Nat.zero_le n⟩
  | string => exact Or.inr ⟨Nat.le_refl 7, Nat.zero_le n⟩
  | character => exact Or.inr ⟨Nat.le_refl 7, Nat.zero_le n⟩
  | parens h => exact Or.inl (hE trivial h)
  | new h => exact Or.inr ⟨Nat.le_refl 7, arguments_levels hE hC trivial h⟩
  | call h => exact Or.inr ⟨Nat.le_refl 7, callPhrase_levels hE hC trivial h⟩
  | var => exact Or.inr ⟨Nat.le_refl 7, Nat.zero_le n⟩

theorem sum_levels : Yields (fun _ => True) (Sum E) fun e => e.levels ≤ n + 1 := by
  intro ls e rest hls h
  have hterm : Yields (fun _ => True) (Term E) (Expr.Snug n 6) :=
    chain_snug precedence_multiplicative (factor_snug hE hC)
  have hsum : Expr.Snug n 5 e := chain_snug precedence_additive hterm hls h
  exact Nat.succ_le_succ hsum.innerLevels_le

omit hC in
theorem condition_levels :
    Yields (fun _ => True) (Condition E) fun c => c.conditionLevels ≤ n := by
  intro ls c rest hls h
  rw [Expr.conditionLevels_eq]
  exact condition_nesting hE hls h

theorem varDecls_levels :
    Yields (fun _ => True) (VarDecls E) fun ds => ∀ d ∈ ds, d.levels ≤ n :=
  fun _ _ _ hls h => varDecls_nesting hE hC hls h

end

theorem expression_levels : ∀ n : Nat,
    Yields (fun _ => True) (deeper n).expression fun e => e.levels ≤ n
  | 0 => fun _ _ _ _ h => h.elim
  | n + 1 => sum_levels (expression_levels n) (deeper_consumes n).expression

/-! ## Statements -/

namespace Stmt

mutual

theorem levels_eq : ∀ s : Stmt, s.levels = s.nesting Expr.innerLevels
  | assign _ _ => rfl
  | call none c => Expr.argumentLevels_eq c.arguments
  | call (some _) _ => rfl
  | cond c body o => by
    rw [levels, nesting, Expr.conditionLevels_eq, bodyLevels_eq body, otherwiseLevels_eq o]
  | loop _ c body => by rw [levels, nesting, Expr.conditionLevels_eq, bodyLevels_eq body]

theorem bodyLevels_eq (body : List Stmt) :
    bodyLevels body = bodyNesting Expr.innerLevels body := by
  cases body with
  | nil => rfl
  | cons s rest => rw [bodyLevels, bodyNesting, levels_eq s, bodyLevels_eq rest]

theorem otherwiseLevels_eq :
    ∀ o : Otherwise, otherwiseLevels o = otherwiseNesting Expr.innerLevels o
  | .nothing => rfl
  | .single s => by rw [otherwiseLevels, otherwiseNesting, levels_eq s]
  | .block body => by rw [otherwiseLevels, otherwiseNesting, bodyLevels_eq body]

end

end Stmt

theorem simple_levels {inner : Deeper} {n : Nat}
    (hE : Yields (fun _ => True) inner.expression fun e => e.levels ≤ n)
    (hC : Consumes inner.expression) {ls rest : List Lexeme} {s : Stmt}
    (h : Plain inner ls s rest) (hs : s.isSimple = true) : s.levels ≤ n := by
  cases h with
  | loop => cases hs
  | loopIn => cases hs
  | call hc _ => exact callPhrase_levels hE hC trivial hc
  | assign _ he _ =>
    rw [Stmt.levels_eq]
    exact Stmt.nesting_ofAssignment _ (hE trivial he)

/-! ## Programs -/

/-- In writing the levels of expressions are those that the printer opens. -/
theorem Program.levels_eq (p : Program) : p.levels = p.nesting Expr.innerLevels := by
  have hbody : ∀ b : MethodBody, b.levels = b.nesting Expr.innerLevels := fun b => by
    rw [MethodBody.levels, MethodBody.nesting, Stmt.bodyLevels_eq]
    rfl
  have hclass : Class.levels = Class.nesting Expr.innerLevels := funext fun c => by
    simp only [Class.levels, Class.nesting, hbody]
    rfl
  rw [Program.levels, Program.nesting, hclass]

/-- Whether `else`, line ends and `if` stand behind each other somewhere. -/
def elseLineIf : List Lexeme → Bool
  | [] => false
  | l :: ls =>
    l.kind == .kwElse && Parse.headKind? ls == some .newline &&
      Parse.headKind? (Parse.dropNewlines ls) == some .kwIf || elseLineIf ls

/-- No condition stands on a line of its own behind `else`. -/
def NoElseLineIf (ls : List Lexeme) : Prop :=
  elseLineIf ls = false

theorem noElseLineIf_iff : ∀ {ls : List Lexeme}, NoElseLineIf ls ↔ elseLineIfs ls = 0
  | [] => by simp [NoElseLineIf, elseLineIf, elseLineIfs]
  | l :: ls => by
    rw [elseLineIfs, Nat.add_eq_zero_iff, ← noElseLineIf_iff, NoElseLineIf, NoElseLineIf,
      elseLineIf, Bool.or_eq_false_iff, Bool.toNat_eq_zero]

/-- If no condition stands on a line of its own behind `else`, the program has no more levels than
its derivation takes. -/
theorem levels_of_derives {n : Nat} {ls : List Lexeme} {p : Program} (h : Derives n ls p)
    (hls : NoElseLineIf ls) : p.levels ≤ n := by
  have hle := nesting_of_derives expression_levels h
  rwa [noElseLineIf_iff.mp hls, Nat.add_zero, ← Program.levels_eq] at hle

end Offside
