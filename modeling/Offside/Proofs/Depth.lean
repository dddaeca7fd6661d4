import Offside.Proofs.Acceptance
import Offside.Proofs.Measure

/-!
# How deep a parsed program nests

The depth of a program counts what encloses what in the tree: bodies, conditions behind `else`,
and the places where a value is wanted (`Program.depth`). Parentheses leave no trace in a tree,
so an expression is no deeper than the levels it took to read (`expression_depth`), and the
limit on nesting bounds the depth of a parsed program, but for conditions on lines of their own
behind `else` (`depth_le_of_parseTokens`).

Those are read without a level, each inside of the one before it. A chain of them is as deep as
it is long and still parsed, so that there is no bound at all (`exists_parseTokens_deeper`).
-/

namespace Offside

open Grammar

/-! ## Depth -/

namespace Expr

mutual

/-- How many levels there are inside the expression: values of calls and of new objects, and
what is compared. -/
def innerDepth : Expr → Nat
  | call _ _ arguments => argumentDepth arguments
  | new _ arguments => argumentDepth arguments
  | math _ left right => max (innerDepth left) (innerDepth right)
  | logic _ left right => max (innerDepth left) (innerDepth right)
  | compare _ left right => max (innerDepth left) (innerDepth right) + 1
  | not operand => innerDepth operand
  | _ => 0

/-- How many levels there are in the values of a call. -/
def argumentDepth : List Expr → Nat
  | [] => 0
  | e :: rest => max (innerDepth e + 1) (argumentDepth rest)

end

theorem argumentDepth_eq :
    ∀ es : List Expr, argumentDepth es = largest (nesting innerDepth) es
  | [] => rfl
  | e :: es => congrArg (max (e.innerDepth + 1)) (argumentDepth_eq es)

end Expr

/-- How many levels the deepest path through the program passes: bodies of methods,
constructors, conditions and loops, blocks and conditions behind `else`, initial and assigned
values, what is compared, and values of calls and of new objects. -/
def Program.depth (p : Program) : Nat :=
  p.nesting Expr.innerDepth

/-! ## Expressions -/

section

variable {E : Phrase Expr} {n : Nat}
  (hE : Yields (fun _ => True) E fun e => e.nesting Expr.innerDepth ≤ n) (hC : Consumes E)

theorem chain_depth {operator? : Kind → Option MathOp} {operand : Phrase Expr}
    (h : Yields (fun _ => True) operand fun e => e.innerDepth ≤ n) :
    Yields (fun _ => True) (Chain operator? operand) fun e => e.innerDepth ≤ n := by
  intro ls e rest _ hc
  induction hc with
  | first he => exact h trivial he
  | next _ _ he ih =>
    rw [Expr.innerDepth]
    exact Nat.max_le.mpr ⟨ih, h trivial he⟩

include hE hC

theorem factor_depth : Yields (fun _ => True) (Factor E) fun e => e.innerDepth ≤ n := by
  intro ls e rest _ h
  cases h with
  | number => exact Nat.zero_le n
  | string => exact Nat.zero_le n
  | character => exact Nat.zero_le n
  | parens h => exact Nat.le_of_succ_le (hE trivial h)
  | new h =>
    rw [Expr.innerDepth, Expr.argumentDepth_eq]
    exact arguments_nesting hE hC trivial h
  | call h =>
    rw [Call.toExpr, Expr.innerDepth, Expr.argumentDepth_eq]
    exact callPhrase_nesting hE hC trivial h
  | var => exact Nat.zero_le n

end

theorem expression_depth : ∀ n : Nat,
    Yields (fun _ => True) (deeper n).expression fun e => e.nesting Expr.innerDepth ≤ n
  | 0 => fun _ _ _ _ h => h.elim
  | n + 1 => fun _ _ _ hls h => Nat.succ_le_succ (chain_depth (chain_depth
      (factor_depth (expression_depth n) (deeper_consumes n).expression)) hls h)

/-! ## Chains of conditions -/

/-- A condition with an assignment in its body, behind its keyword. -/
def armLexemes : List Lexeme :=
  [⟨.word, some "a"⟩, ⟨.newline, none⟩, ⟨.indent, none⟩, ⟨.word, some "x"⟩, ⟨.assign, none⟩,
    ⟨.number, some "1"⟩, ⟨.newline, none⟩, ⟨.dedent, none⟩]

/-- The condition and `n` more, each on a line of its own behind `else`. -/
def chainLexemes : Nat → List Lexeme
  | 0 => armLexemes
  | n + 1 =>
    armLexemes ++ ⟨.kwElse, none⟩ :: ⟨.newline, none⟩ :: ⟨.kwIf, none⟩ :: chainLexemes n

/-- The statement that `chainLexemes` are. -/
def chain : Nat → Stmt
  | 0 => .cond (.var "a") [.assign ["x"] (.number "1")] .nothing
  | n + 1 => .cond (.var "a") [.assign ["x"] (.number "1")] (.single (chain n))

/-- A class with the chain as its method. -/
def chainText (n : Nat) : List Lexeme :=
  [⟨.kwClass, none⟩, ⟨.word, some "C"⟩, ⟨.newline, none⟩, ⟨.indent, none⟩, ⟨.word, some "m"⟩,
    ⟨.leftParen, none⟩, ⟨.rightParen, none⟩, ⟨.newline, none⟩, ⟨.indent, none⟩, ⟨.kwIf, none⟩] ++
    (chainLexemes n ++ [⟨.dedent, none⟩, ⟨.dedent, none⟩])

/-- The tokens of the class, all at the start of the text. -/
def chainTokens (n : Nat) : List Token :=
  (chainText n).map fun l => ⟨l.kind, .start, l.value⟩

theorem lexemesOf_chainTokens (n : Nat) : lexemesOf (chainTokens n) = chainText n := by
  rw [lexemesOf, chainTokens, List.map_map]
  exact List.map_id _

/-- The program that `chainTokens` are. -/
def chainProgram (n : Nat) : Program where
  classes := [⟨"C", [], [], [⟨false, false, ⟨"m", [], []⟩, ⟨[], [chain n]⟩⟩], []⟩]
  interfaces := []

theorem guarded_arm (levels : Nat) (rest : List Lexeme) :
    Guarded (deeper (levels + 2)) (armLexemes ++ rest)
      ⟨.var "a", [.assign ["x"] (.number "1")]⟩ rest := by
  have hvalue : ∀ rest, (deeper (levels + 1)).expression (⟨.number, some "1"⟩ :: rest)
      (.number "1") rest := fun rest => .first (.first .number)
  have hassign : Statement (deeper (levels + 1))
      (⟨.word, some "x"⟩ :: ⟨.assign, none⟩ :: ⟨.number, some "1"⟩ :: ⟨.newline, none⟩ ::
        ⟨.dedent, none⟩ :: rest) (.assign ["x"] (.number "1")) (⟨.dedent, none⟩ :: rest) :=
    .plain (.assign (.one .mk) (hvalue _) .newline)
  exact .mk (.var (.first (.first (.var .mk)))) (.mk .none (.next .none hassign (.done .none)))

/-- A chain of any length takes the levels of its first condition. -/
theorem conditional_chain (levels : Nat) (rest : List Lexeme) : ∀ n,
    Conditional (deeper (levels + 2)) (chainLexemes n ++ rest) (chain n) rest
  | 0 => .alone (guarded_arm levels rest) .none
  | n + 1 => by
    rw [chainLexemes, List.append_assoc]
    exact .elseLineIf (guarded_arm levels _) .none .none (conditional_chain levels rest n)

theorem derives_chain (levels n : Nat) :
    Derives (levels + 3) (chainText n) (chainProgram n) := by
  have hbody : (deeper (levels + 3)).methodBody
      (⟨.indent, none⟩ :: ⟨.kwIf, none⟩ ::
        (chainLexemes n ++ [⟨.dedent, none⟩, ⟨.dedent, none⟩]))
      [.statement (chain n)] [⟨.dedent, none⟩] :=
    .mk .none (.next .none (.statement (.cond (conditional_chain levels _ n))) (.done .none))
  have hmethod : ClassPart (deeper (levels + 3))
      (⟨.word, some "m"⟩ :: ⟨.leftParen, none⟩ :: ⟨.rightParen, none⟩ :: ⟨.newline, none⟩ ::
        ⟨.indent, none⟩ :: ⟨.kwIf, none⟩ ::
        (chainLexemes n ++ [⟨.dedent, none⟩, ⟨.dedent, none⟩]))
      (.method ⟨false, false, ⟨"m", [], []⟩, .ofItems [.statement (chain n)]⟩)
      [⟨.dedent, none⟩] :=
    .method .absent .absent (.bare .mk .none .newline) hbody
  exact ⟨_, .classDecl .none (.mk .mk .none (.mk .none (.next .none hmethod (.done .none))))
    (.done .none), rfl⟩

theorem nesting_chain : ∀ n, (chain n).nesting Expr.innerDepth = n + 2
  | 0 => rfl
  | n + 1 => by
    have hcond : (chain n).isCond = true := by cases n <;> rfl
    rw [chain, Stmt.nesting, Stmt.otherwiseNesting, nesting_chain n, hcond]
    simp [Expr.conditionNesting, Expr.nesting, Expr.innerDepth, Stmt.bodyNesting, Stmt.nesting]

theorem depth_chainProgram (n : Nat) : (chainProgram n).depth = n + 3 := by
  simp [Program.depth, chainProgram, Program.nesting, Class.nesting, MethodBody.nesting,
    Stmt.bodyNesting, nesting_chain, largest]

theorem parseTokens_chainTokens (n : Nat) :
    parseTokens (chainTokens n) = .ok (chainProgram n) := by
  apply parseTokens_of_derives
  rw [lexemesOf_chainTokens]
  exact derives_chain 125 n

/-! ## The limit -/

/-- A parsed program is no deeper than the limit on nesting, but for one level for each
condition that stands on a line of its own behind `else`. -/
theorem depth_le_of_parseTokens {tokens : List Token} {p : Program}
    (h : parseTokens tokens = .ok p) :
    p.depth ≤ maxNesting + elseLineIfs (lexemesOf tokens) :=
  nesting_of_derives expression_depth (parseTokens_ok h)

theorem depth_le_of_chainTokens : parseTokens (chainTokens 126) = .ok (chainProgram 126) ∧
    (chainProgram 126).depth ≤ maxNesting + elseLineIfs (lexemesOf (chainTokens 126)) :=
  have h := parseTokens_chainTokens 126
  ⟨h, depth_le_of_parseTokens h⟩

/-- There are parsed programs of any depth. -/
theorem exists_parseTokens_deeper (d : Nat) :
    ∃ tokens p, parseTokens tokens = .ok p ∧ d < p.depth := by
  refine ⟨chainTokens d, chainProgram d, parseTokens_chainTokens d, ?_⟩
  rw [depth_chainProgram]
  omega

/-- The limit on nesting does not bound the depth of a parsed program. -/
theorem not_depth_le_maxNesting :
    ¬∀ (tokens : List Token) (p : Program), parseTokens tokens = .ok p → p.depth ≤ maxNesting := by
  intro h
  have hle := h (chainTokens 126) (chainProgram 126) (parseTokens_chainTokens 126)
  rw [depth_chainProgram] at hle
  exact absurd hle (by decide)

end Offside
