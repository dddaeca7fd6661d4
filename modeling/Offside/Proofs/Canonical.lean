import Offside.Program.Print
import Offside.Token.Kind
import Offside.Unicode.Number

/-!
# Programs that can be written

Not every tree has a written form that reads back: the name of a variable could be any text,
and some expressions have no notation at all. `Program.isCanonical` says which trees have one
as far as their leaves and their shapes go. Two more things are needed. A body without
statements leaves no trace below the line that opens it, so nothing may be empty
(`Program.isFilled`). And the parser opens a bounded number of levels of nesting inside each
other, so the written form may not need more (`Program.levels`).

Levels are counted in the written form: parentheses that the printer puts around an operand
are a level, and parentheses that the source had beyond those are not. They are counted where the
statements stand in the tree, and so the text opens as many if nothing is empty; behind an empty
`else` block it may open more, since it is read otherwise (`Program.textLevels`).
-/

namespace Offside

/-! ## Names and literals -/

/-- Whether `text` is a name: it starts with a letter, goes on with letters and digits, and
is not reserved. -/
def isIdentifier (text : String) : Bool :=
  text.toList.head?.any Unicode.isAlphabetic && text.toList.all Unicode.isAlphanumeric &&
    (Kind.reserved? text).isNone

/-- Whether `text` is a number: digits with at most one dot among them, and at least one
digit. -/
def isNumeral (text : String) : Bool :=
  text.toList.all (fun c => c.isDigit || c == '.') && decide (text.toList.count '.' ≤ 1) &&
    text.toList.any Char.isDigit

/-- Whether the characters can stand in a string literal: a quote and a backslash stand
behind a backslash only, and a backslash stands before something. `escaped` says whether
there is a backslash in front. -/
def isStringBody (escaped : Bool) : List Char → Bool
  | [] => !escaped
  | c :: cs =>
    if escaped then isStringBody false cs
    else if c = '\\' then isStringBody true cs
    else c != '"' && isStringBody false cs

/-! ## Shapes -/

namespace Expr

mutual

/-- Whether the expression can be written where a value is wanted. -/
def isCanonical : Expr → Bool
  | number text => isNumeral text
  | string text => isStringBody false text.toList
  | character value => value != '\n'
  | var name => isIdentifier name
  | call receiver method arguments =>
    receiver.all isIdentifier && isIdentifier method && allCanonical arguments
  | math _ left right => isCanonical left && isCanonical right
  | new typeName arguments => isIdentifier typeName && allCanonical arguments
  | boolean _ | compare _ _ _ | logic _ _ _ | not _ => false

/-- Whether all the expressions can be written where a value is wanted. -/
def allCanonical : List Expr → Bool
  | [] => true
  | e :: rest => isCanonical e && allCanonical rest

end

/-- What can be written where a value is wanted binds more tightly than a comparison. -/
theorem five_le_precedence {e : Expr} (h : e.isCanonical = true) : 5 ≤ e.precedence := by
  cases e with
  | math op l r => cases op <;> simp [precedence]
  | boolean => cases h
  | compare => cases h
  | logic => cases h
  | not => cases h
  | _ => simp [precedence]

/-- Whether the expression can be written where a condition is wanted: it is a variable, a
call, or compares two values. -/
def isCondition : Expr → Bool
  | var name => isIdentifier name
  | call receiver method arguments => isCanonical (call receiver method arguments)
  | compare _ left right => isCanonical left && isCanonical right
  | _ => false

/-- Whether the expression is a call. -/
def isCall : Expr → Bool
  | call _ _ _ => true
  | _ => false

end Expr

/-- Whether the names can stand in front of an assignment. -/
def areTargets (names : List String) : Bool :=
  !names.isEmpty && names.all isIdentifier

namespace Stmt

/-- Whether the statement is an assignment or a call, which stand on one line. -/
def isSimple : Stmt → Bool
  | assign _ _ | call _ _ => true
  | _ => false

mutual

/-- Whether the statement can be written: a call whose results are assigned is a call
statement and no assignment. -/
def isCanonical : Stmt → Bool
  | assign targets value => areTargets targets && value.isCanonical && !value.isCall
  | call targets c => targets.all areTargets && c.toExpr.isCanonical
  | cond condition body otherwise =>
    condition.isCondition && allCanonical body && otherwiseCanonical otherwise
  | loop variableName condition body =>
    variableName.all isIdentifier && condition.isCondition && allCanonical body

/-- Whether all the statements can be written. -/
def allCanonical : List Stmt → Bool
  | [] => true
  | s :: rest => isCanonical s && allCanonical rest

/-- Whether what is done otherwise can be written. -/
def otherwiseCanonical : Otherwise → Bool
  | .nothing => true
  | .single s => isCanonical s
  | .block body => allCanonical body

end

end Stmt

/-- Whether the declaration can be written as that of a variable. -/
def VarDecl.isCanonical (d : VarDecl) : Bool :=
  isIdentifier d.typeName && isIdentifier d.name && d.initializer.all Expr.isCanonical

/-- Whether the declaration can be written as that of a parameter, which has no initial
value. -/
def VarDecl.isParameter (d : VarDecl) : Bool :=
  isIdentifier d.typeName && isIdentifier d.name && d.initializer.isNone

/-- Whether the returned value can be written. -/
def ReturnDecl.isCanonical (d : ReturnDecl) : Bool :=
  isIdentifier d.typeName && d.name.all isIdentifier

/-- Whether the header can be written. -/
def MethodHeader.isCanonical (h : MethodHeader) : Bool :=
  isIdentifier h.name && h.parameters.all VarDecl.isParameter &&
    h.returns.all ReturnDecl.isCanonical

/-- Whether the interface can be written. -/
def Interface.isCanonical (i : Interface) : Bool :=
  isIdentifier i.name && i.methods.all MethodHeader.isCanonical

/-- Whether the body can be written. -/
def MethodBody.isCanonical (b : MethodBody) : Bool :=
  b.locals.all VarDecl.isCanonical && Stmt.allCanonical b.statements

/-- Whether the constructor can be written. -/
def Constructor.isCanonical (c : Constructor) : Bool :=
  c.parameters.all VarDecl.isParameter && c.body.isCanonical

/-- Whether the method can be written. -/
def Method.isCanonical (m : Method) : Bool :=
  m.header.isCanonical && m.body.isCanonical

/-- Whether the class can be written. -/
def Class.isCanonical (c : Class) : Bool :=
  isIdentifier c.name && c.interfaces.all isIdentifier &&
    c.constructors.all Constructor.isCanonical && c.methods.all Method.isCanonical &&
    c.members.all VarDecl.isCanonical

/-- Whether the program can be written, but for empty bodies and for the levels that its
nesting needs. -/
def Program.isCanonical (p : Program) : Bool :=
  p.classes.all Class.isCanonical && p.interfaces.all Interface.isCanonical

/-! ## Nothing is empty -/

namespace Stmt

mutual

/-- Whether no body in the statement is empty. -/
def isFilled : Stmt → Bool
  | assign _ _ | call _ _ => true
  | cond _ body otherwise => !body.isEmpty && allFilled body && otherwiseFilled otherwise
  | loop _ _ body => !body.isEmpty && allFilled body

/-- Whether no body in the statements is empty. -/
def allFilled : List Stmt → Bool
  | [] => true
  | s :: rest => isFilled s && allFilled rest

/-- Whether what is done otherwise is no empty block and has none in it. -/
def otherwiseFilled : Otherwise → Bool
  | .nothing => true
  | .single s => isFilled s
  | .block body => !body.isEmpty && allFilled body

end

end Stmt

/-- Whether there is a local or a statement. -/
def MethodBody.isNonempty (b : MethodBody) : Bool :=
  !b.locals.isEmpty || !b.statements.isEmpty

/-- Whether neither the body nor one inside it is empty. -/
def MethodBody.isFilled (b : MethodBody) : Bool :=
  b.isNonempty && Stmt.allFilled b.statements

/-- Whether there is a member, a constructor or a method. -/
def Class.isNonempty (c : Class) : Bool :=
  !c.members.isEmpty || !c.constructors.isEmpty || !c.methods.isEmpty

/-- Whether neither the class nor a body inside it is empty. -/
def Class.isFilled (c : Class) : Bool :=
  c.isNonempty && c.constructors.all (fun k => k.body.isFilled) &&
    c.methods.all fun m => m.body.isFilled

/-- Whether no class, no interface and no body is empty. -/
def Program.isFilled (p : Program) : Bool :=
  p.classes.all Class.isFilled && p.interfaces.all fun i => !i.methods.isEmpty

/-! ## Levels of nesting

Of statements and of what has statements in it, the levels are those of the written form if no body
is empty. -/

namespace Expr

mutual

/-- How many levels are opened inside the written expression: by the values of calls and by
parentheses. -/
def innerLevels : Expr → Nat
  | call _ _ arguments => argumentLevels arguments
  | new _ arguments => argumentLevels arguments
  | math op left right =>
    max
      (innerLevels left +
        (needsParens left.precedence (precedence (math op left right)) false).toNat)
      (innerLevels right +
        (needsParens right.precedence (precedence (math op left right)) true).toNat)
  | _ => 0

/-- How many levels the written values of a call open. -/
def argumentLevels : List Expr → Nat
  | [] => 0
  | e :: rest => max (innerLevels e + 1) (argumentLevels rest)

end

/-- How many levels the written expression opens, itself included. -/
def levels (e : Expr) : Nat :=
  e.innerLevels + 1

/-- How many levels the written condition opens: what it compares stands side by side. -/
def conditionLevels : Expr → Nat
  | compare _ left right => max left.levels right.levels
  | e => e.levels

end Expr

namespace Stmt

mutual

/-- How many levels the written statement opens. -/
def levels : Stmt → Nat
  | assign _ value => value.levels
  | call none c => Expr.argumentLevels c.arguments
  | call (some _) c => c.toExpr.levels
  | cond condition body otherwise =>
    max condition.conditionLevels (max (bodyLevels body + 1) (otherwiseLevels otherwise))
  | loop _ condition body => max condition.conditionLevels (bodyLevels body + 1)

/-- How many levels the written statements open, side by side. -/
def bodyLevels : List Stmt → Nat
  | [] => 0
  | s :: rest => max (levels s) (bodyLevels rest)

/-- How many levels are opened behind `else`: a condition on its line is a level deeper. -/
def otherwiseLevels : Otherwise → Nat
  | .nothing => 0
  | .single s => levels s + s.isCond.toNat
  | .block body => bodyLevels body + 1

end

end Stmt

/-- The largest of the sizes of some things. -/
def largest {α : Type} (size : α → Nat) (items : List α) : Nat :=
  items.foldr (fun a => max (size a)) 0

theorem largest_le {α : Type} {size : α → Nat} {n : Nat} :
    ∀ {items : List α}, largest size items ≤ n ↔ ∀ a ∈ items, size a ≤ n
  | [] => by simp [largest]
  | a :: items => by
    have hcons : largest size (a :: items) = max (size a) (largest size items) := rfl
    rw [hcons, Nat.max_le, largest_le, List.forall_mem_cons]

/-- How many levels the written declaration opens. -/
def VarDecl.levels (d : VarDecl) : Nat :=
  (d.initializer.map Expr.levels).getD 0

/-- How many levels the written body opens, itself included. -/
def MethodBody.levels (b : MethodBody) : Nat :=
  max (largest VarDecl.levels b.locals) (Stmt.bodyLevels b.statements) + 1

/-- How many levels the written class opens. -/
def Class.levels (c : Class) : Nat :=
  max (largest VarDecl.levels c.members)
    (max (largest (fun k => k.body.levels) c.constructors)
      (largest (fun m => m.body.levels) c.methods))

/-- How many levels the written program opens, if nothing in it is empty. -/
def Program.levels (p : Program) : Nat :=
  largest Class.levels p.classes

end Offside
