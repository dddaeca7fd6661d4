/-!
# Expressions

Literals are kept as they are written: the text of a number, the raw text between the quotes
of a string. Boolean literals, connectives and negation have no written form that reads back;
they are built by later stages of a front end and only printed here.

Equality is decided by `Expr.same`, which compares two trees node by node
(`Expr.same_iff`).
-/

namespace Offside

/-- Operators on numbers. -/
inductive MathOp where
  /-- Addition. -/
  | add
  /-- Subtraction. -/
  | subtract
  /-- Multiplication. -/
  | multiply
  /-- Division. -/
  | divide
  /-- Remainder. -/
  | modulo
deriving DecidableEq

/-- Operators that compare two values. -/
inductive CompareOp where
  /-- Equality. -/
  | equal
  /-- Inequality. -/
  | notEqual
  /-- Less than. -/
  | lessThan
  /-- At most. -/
  | lessThanEqual
  /-- Greater than. -/
  | greaterThan
  /-- At least. -/
  | greaterThanEqual
deriving DecidableEq

/-- Connectives. -/
inductive LogicOp where
  /-- Conjunction. -/
  | and
  /-- Disjunction. -/
  | or
deriving DecidableEq

/-- An expression. -/
inductive Expr where
  /-- A number, as it is written. -/
  | number (text : String)
  /-- A string, as it is written between its quotes. -/
  | string (text : String)
  /-- A single character. -/
  | character (value : Char)
  /-- A truth value. -/
  | boolean (value : Bool)
  /-- The value of a variable. -/
  | var (name : String)
  /-- A call of a method, on a receiver or without one. -/
  | call (receiver : Option String) (method : String) (arguments : List Expr)
  /-- A number made of two. -/
  | math (op : MathOp) (left right : Expr)
  /-- A comparison. -/
  | compare (op : CompareOp) (left right : Expr)
  /-- A connective between two conditions. -/
  | logic (op : LogicOp) (left right : Expr)
  /-- A negation. -/
  | not (operand : Expr)
  /-- A new object. -/
  | new (typeName : String) (arguments : List Expr)

namespace Expr

mutual

/-- Whether two expressions are the same tree. -/
def same : Expr → Expr → Bool
  | number a, number b => a == b
  | string a, string b => a == b
  | character a, character b => a == b
  | boolean a, boolean b => a == b
  | var a, var b => a == b
  | call r m as, call r' m' as' => r == r' && m == m' && sameList as as'
  | math op a b, math op' a' b' => op == op' && same a a' && same b b'
  | compare op a b, compare op' a' b' => op == op' && same a a' && same b b'
  | logic op a b, logic op' a' b' => op == op' && same a a' && same b b'
  | not a, not a' => same a a'
  | new t as, new t' as' => t == t' && sameList as as'
  | _, _ => false

/-- Whether two lists of expressions are the same, item by item. -/
def sameList : List Expr → List Expr → Bool
  | [], [] => true
  | a :: as, b :: bs => same a b && sameList as bs
  | _, _ => false

end

mutual

theorem same_iff : ∀ {a b : Expr}, same a b = true ↔ a = b
  | number _, b => by cases b <;> simp [same]
  | string _, b => by cases b <;> simp [same]
  | character _, b => by cases b <;> simp [same]
  | boolean _, b => by cases b <;> simp [same]
  | var _, b => by cases b <;> simp [same]
  | call _ _ as, b => by cases b <;> simp [same, sameList_iff (a := as), and_assoc]
  | math _ l r, b => by
    cases b <;> simp [same, same_iff (a := l), same_iff (a := r), and_assoc]
  | compare _ l r, b => by
    cases b <;> simp [same, same_iff (a := l), same_iff (a := r), and_assoc]
  | logic _ l r, b => by
    cases b <;> simp [same, same_iff (a := l), same_iff (a := r), and_assoc]
  | not a, b => by cases b <;> simp [same, same_iff (a := a)]
  | new _ as, b => by cases b <;> simp [same, sameList_iff (a := as)]

theorem sameList_iff : ∀ {a b : List Expr}, sameList a b = true ↔ a = b
  | [], bs => by cases bs <;> simp [sameList]
  | a :: as, bs => by
    cases bs <;> simp [sameList, same_iff (a := a), sameList_iff (a := as)]

end

instance : DecidableEq Expr :=
  fun _ _ => decidable_of_iff _ same_iff

end Expr

/-- A call of a method, where only a call will do. -/
structure Call where
  /-- The object the method belongs to, if one is named. -/
  receiver : Option String
  /-- The name of the method. -/
  method : String
  /-- The values it is called with. -/
  arguments : List Expr
deriving DecidableEq

/-- A call is an expression. -/
def Call.toExpr (c : Call) : Expr :=
  .call c.receiver c.method c.arguments

end Offside
