import Offside.Expr.Basic

/-!
# Expressions in writing

An operand is put in parentheses where it would otherwise attach to the wrong operator:
if it binds less tightly than the operator, or, on the right, equally tightly, since all
operators group to the left (`Expr.needsParens`).
-/

namespace Offside

namespace MathOp

/-- How the operator is written. -/
def symbol : MathOp → String
  | add => "+"
  | subtract => "-"
  | multiply => "*"
  | divide => "/"
  | modulo => "%"

end MathOp

namespace CompareOp

/-- How the operator is written. -/
def symbol : CompareOp → String
  | equal => "=="
  | notEqual => "!="
  | lessThan => "<"
  | lessThanEqual => "<="
  | greaterThan => ">"
  | greaterThanEqual => ">="

end CompareOp

namespace LogicOp

/-- How the operator is written. -/
def symbol : LogicOp → String
  | and => "and"
  | or => "or"

end LogicOp

/-- Written items with a comma and a space between each two. -/
def commaList (items : List String) : String :=
  ", ".intercalate items

namespace Expr

/-- How tightly the outermost operator binds; what has none binds tightest. -/
def precedence : Expr → Nat
  | logic .or _ _ => 1
  | logic .and _ _ => 2
  | not _ => 3
  | compare _ _ _ => 4
  | math .add _ _ => 5
  | math .subtract _ _ => 5
  | math _ _ _ => 6
  | _ => 7

/-- Whether an operand of precedence `inner` stands in parentheses under an operator of
precedence `outer`. -/
def needsParens (inner outer : Nat) (onRight : Bool) : Bool :=
  decide (inner < outer) || (onRight && inner == outer)

/-- The written operand `text`, in parentheses if they are needed. -/
def parenthesize (needed : Bool) (text : String) : String :=
  if needed then "(" ++ text ++ ")" else text

mutual

/-- The expression in writing. -/
def print : Expr → String
  | number text => text
  | string text => "\"" ++ text ++ "\""
  | character value => "'" ++ value.toString ++ "'"
  | boolean value => if value then "true" else "false"
  | var name => name
  | call receiver method arguments =>
    (match receiver with
      | some r => r ++ "."
      | none => "") ++ method ++ "(" ++ commaList (printAll arguments) ++ ")"
  | math op left right =>
    parenthesize (needsParens left.precedence (precedence (math op left right)) false)
        (print left) ++ " " ++ op.symbol ++ " " ++
      parenthesize (needsParens right.precedence (precedence (math op left right)) true)
        (print right)
  | compare op left right =>
    parenthesize (needsParens left.precedence 4 false) (print left) ++ " " ++ op.symbol ++ " " ++
      parenthesize (needsParens right.precedence 4 true) (print right)
  | logic op left right =>
    parenthesize (needsParens left.precedence (precedence (logic op left right)) false)
        (print left) ++ " " ++ op.symbol ++ " " ++
      parenthesize (needsParens right.precedence (precedence (logic op left right)) true)
        (print right)
  | not operand => "not " ++ parenthesize (needsParens operand.precedence 3 false) (print operand)
  | new typeName arguments => "new " ++ typeName ++ "(" ++ commaList (printAll arguments) ++ ")"

/-- Expressions in writing, one by one. -/
def printAll : List Expr → List String
  | [] => []
  | e :: rest => print e :: printAll rest

end

theorem printAll_eq_map : ∀ es : List Expr, printAll es = es.map print
  | [] => rfl
  | e :: rest => by rw [printAll, printAll_eq_map rest, List.map_cons]

end Expr

/-- The call in writing. -/
def Call.print (c : Call) : String :=
  c.toExpr.print

end Offside
