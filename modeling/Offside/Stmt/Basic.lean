import Offside.Expr.Basic

/-!
# Statements

A statement assigns, calls, branches or loops. What follows an `else` is a block of its own
or a single statement, and the two stay apart (`Otherwise`): a condition behind `else` is a
single statement, which is how chains of conditions are written.
-/

namespace Offside

mutual

/-- A statement. -/
inductive Stmt where
  /-- Gives the value to each target. -/
  | assign (targets : List String) (value : Expr)
  /-- Calls a method, and gives its results to the targets if there are any. -/
  | call (targets : Option (List String)) (call : Call)
  /-- Runs the body if the condition holds. -/
  | cond (condition : Expr) (body : List Stmt) (otherwise : Otherwise)
  /-- Runs the body while the condition holds, which may be kept in a variable. -/
  | loop (variableName : Option String) (condition : Expr) (body : List Stmt)

/-- What is done if a condition does not hold. -/
inductive Otherwise where
  /-- Nothing: no `else` is written. -/
  | nothing
  /-- A single statement. -/
  | single (statement : Stmt)
  /-- A block of statements. -/
  | block (body : List Stmt)

end

namespace Stmt

mutual

/-- Whether two statements are the same tree. -/
def same : Stmt → Stmt → Bool
  | assign ts v, assign ts' v' => ts == ts' && decide (v = v')
  | call ts c, call ts' c' => ts == ts' && decide (c = c')
  | cond c b o, cond c' b' o' => decide (c = c') && sameList b b' && sameOtherwise o o'
  | loop v c b, loop v' c' b' => v == v' && decide (c = c') && sameList b b'
  | _, _ => false

/-- Whether two lists of statements are the same, item by item. -/
def sameList : List Stmt → List Stmt → Bool
  | [], [] => true
  | a :: as, b :: bs => same a b && sameList as bs
  | _, _ => false

/-- Whether the same is done otherwise. -/
def sameOtherwise : Otherwise → Otherwise → Bool
  | .nothing, .nothing => true
  | .single a, .single b => same a b
  | .block as, .block bs => sameList as bs
  | _, _ => false

end

mutual

theorem same_iff : ∀ {a b : Stmt}, same a b = true ↔ a = b
  | assign _ _, b => by cases b <;> simp [same]
  | call _ _, b => by cases b <;> simp [same]
  | cond _ as o, b => by
    cases b <;> simp [same, sameList_iff (a := as), sameOtherwise_iff (a := o), and_assoc]
  | loop _ _ as, b => by cases b <;> simp [same, sameList_iff (a := as), and_assoc]

theorem sameList_iff : ∀ {a b : List Stmt}, sameList a b = true ↔ a = b
  | [], bs => by cases bs <;> simp [sameList]
  | a :: as, bs => by
    cases bs <;> simp [sameList, same_iff (a := a), sameList_iff (a := as)]

theorem sameOtherwise_iff : ∀ {a b : Otherwise}, sameOtherwise a b = true ↔ a = b
  | .nothing, b => by cases b <;> simp [sameOtherwise]
  | .single a, b => by cases b <;> simp [sameOtherwise, same_iff (a := a)]
  | .block as, b => by cases b <;> simp [sameOtherwise, sameList_iff (a := as)]

end

instance : DecidableEq Stmt :=
  fun _ _ => decidable_of_iff _ same_iff

/-- Whether the statement is a condition, which can stand on the line of an `else`. -/
def isCond : Stmt → Bool
  | cond _ _ _ => true
  | _ => false

end Stmt

instance : DecidableEq Otherwise :=
  fun _ _ => decidable_of_iff _ Stmt.sameOtherwise_iff

end Offside
