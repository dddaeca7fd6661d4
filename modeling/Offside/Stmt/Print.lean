import Offside.Expr.Print
import Offside.Stmt.Basic

/-!
# Statements in writing

Every statement takes lines of its own, and the statements of a body stand one tab deeper
than the line that opens it. A condition behind `else` goes on the same line, any other
single statement on the next line at the same depth as its `else`.
-/

namespace Offside

/-- The tabs in front of a line at `depth`. -/
def indentation (depth : Nat) : String :=
  String.ofList (List.replicate depth '\t')

namespace Stmt

/-- The left-hand side of an assignment. -/
def printTargets (targets : List String) : String :=
  commaList targets ++ " = "

mutual

/-- The statement in writing, without the indentation of its first line. -/
def printAt (depth : Nat) : Stmt → String
  | assign targets value => printTargets targets ++ value.print ++ "\n"
  | call targets c =>
    (match targets with
      | some targets => printTargets targets
      | none => "") ++ c.print ++ "\n"
  | cond condition body otherwise =>
    "if " ++ condition.print ++ "\n" ++ printBlock (depth + 1) body ++
      printOtherwise depth otherwise
  | loop variableName condition body =>
    "loop " ++
      (match variableName with
        | some name => name ++ " = "
        | none => "") ++ condition.print ++ "\n" ++ printBlock (depth + 1) body

/-- Statements in writing, each on lines of its own at `depth`. -/
def printBlock (depth : Nat) : List Stmt → String
  | [] => ""
  | s :: rest => indentation depth ++ printAt depth s ++ printBlock depth rest

/-- The `else` in writing, if there is one. -/
def printOtherwise (depth : Nat) : Otherwise → String
  | .nothing => ""
  | .single s =>
    indentation depth ++ "else" ++
      (if s.isCond then " " else "\n" ++ indentation depth) ++ printAt depth s
  | .block body => indentation depth ++ "else\n" ++ printBlock (depth + 1) body

end

/-- The statement in writing, its first line at `depth`. -/
def printIndented (depth : Nat) (s : Stmt) : String :=
  indentation depth ++ printAt depth s

/-- The statement in writing, at no depth. -/
def print (s : Stmt) : String :=
  printIndented 0 s

theorem printBlock_cons (depth : Nat) (s : Stmt) (rest : List Stmt) :
    printBlock depth (s :: rest) = printIndented depth s ++ printBlock depth rest := by
  rw [printBlock, printIndented]

end Stmt

end Offside
