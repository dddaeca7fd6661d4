import Offside.Expr.Parse
import Offside.Program.Basic

/-!
# Reading statements and bodies

```
Body       = INDENT Statement* DEDENT
MethodBody = INDENT (VarDecls | Statement)* DEDENT
VarDecls   = WORD WORD ("=" Expression)? ("," WORD ("=" Expression)?)* LineEnd
Statement  = "if" If | "loop" Loop | Call LineEnd | Assignment
Assignment = WORD ("," WORD)* "=" Expression LineEnd
If         = Condition NEWLINE Body ("else" ("if" If | NEWLINE (Body | Statement)))?
Loop       = (WORD "=")? Condition NEWLINE Body
```

Bodies, expressions and a condition on the line of its `else` are each in a level of nesting of
their own. What may be opened there is passed down as a `Nested`, and `Nested.productions` ties
the knot. A condition on a line of its own behind `else` is no deeper than the condition before
it, however many follow each other; such arms are read by repetition (`Parse.arms`) and nested
afterwards (`Stmt.ofArms`).
-/

namespace Offside

open Parse

/-- An item of the body of a method or constructor. -/
inductive BodyItem where
  /-- A line of variable declarations. -/
  | locals (declarations : List VarDecl)
  /-- A statement. -/
  | statement (statement : Stmt)

namespace BodyItem

/-- The variables that the item declares. -/
def declared : BodyItem → List VarDecl
  | locals declarations => declarations
  | statement _ => []

/-- The statement that the item is, if it is one. -/
def statement? : BodyItem → Option Stmt
  | locals _ => none
  | statement s => some s

end BodyItem

/-- The body that consists of the given items: declarations and statements each keep their
order. -/
def MethodBody.ofItems (items : List BodyItem) : MethodBody :=
  ⟨items.flatMap BodyItem.declared, items.filterMap BodyItem.statement?⟩

/-- A condition with the body it guards. -/
structure Arm where
  /-- What has to hold. -/
  condition : Expr
  /-- What is done then. -/
  body : List Stmt

/-- The statement made of arms that are tried in turn, each behind the `else` of the one
before it. -/
def Stmt.ofArms (first : Arm) : List Arm → Otherwise → Stmt
  | [], otherwise => .cond first.condition first.body otherwise
  | next :: rest, otherwise =>
    .cond first.condition first.body (.single (Stmt.ofArms next rest otherwise))

/-- The statement that gives `value` to the targets: a bare call gives them its results. -/
def Stmt.ofAssignment (targets : List String) : Expr → Stmt
  | .call receiver method arguments => .call (some targets) ⟨receiver, method, arguments⟩
  | value => .assign targets value

/-- What can be opened in a level of nesting of its own. -/
structure Nested where
  /-- An expression. -/
  expression : Parse Expr
  /-- The body of a statement. -/
  body : Parse (List Stmt)
  /-- The body of a method or constructor, item by item. -/
  methodBody : Gather BodyItem
  /-- The condition on the line of its `else`, behind `if`. -/
  elseIf : Parse Stmt

/-- What is left of `tokens` behind `else`, line ends and `if`, if they start that way. -/
def behindElseLineIf? (tokens : List Token) : Option (List Token) :=
  match tokens with
  | first :: second :: rest =>
    if first.kind = .kwElse ∧ second.kind = .newline then
      match rest.dropWhile fun t => t.kind == .newline with
      | third :: rest => if third.kind = .kwIf then some rest else none
      | [] => none
    else none
  | _ => none

namespace Parse

variable (nested : Nested)

/-- A name with the value it starts with, if one is written. -/
def namedValue (typeName : String) : Parse VarDecl := do
  let name ← word
  return ⟨typeName, name, ← optional (accept .assign) nested.expression⟩

/-- A line of variable declarations, which share a type. -/
def varDecls : Parse (List VarDecl) := do
  let typeName ← word
  let declarations ← commaSeparated (namedValue nested typeName)
  lineEnd
  return declarations

/-- An assignment. -/
def assignment : Parse Stmt := do
  let targets ← commaSeparated word
  discard (expect .assign)
  let value ← nested.expression
  lineEnd
  let statement := Stmt.ofAssignment targets value
  note (.assignment statement)
  return statement

/-- A loop, behind its keyword. -/
def loop : Parse Stmt := do
  let variableName ← optional (nextAre [.word, .assign]) do
    let name ← word
    discard (expect .assign)
    return name
  let condition ← condition nested.expression
  discard (expect .newline)
  return .loop variableName condition (← nested.body)

/-- A statement that is a call, or else an assignment. -/
def callOrAssignment : Parse Stmt := do
  match ← call? nested.expression with
  | some c =>
    lineEnd
    note (.callStatement c)
    return .call none c
  | none => assignment nested

/-- A statement that is no condition. -/
def plainStatement : Parse Stmt := do
  match ← nextKind? with
  | some .kwLoop =>
    discard (expect .kwLoop)
    loop nested
  | some .word =>
    if ← nextAre [.word, .word] then failHere .localsOutsideMethod
    else callOrAssignment nested
  | _ => unexpected [.kwIf, .kwLoop, .word]

/-- An arm, behind its keyword, with the empty lines after it. -/
def arm : Parse Arm := do
  let condition ← condition nested.expression
  discard (expect .newline)
  let body ← nested.body
  skipNewlines
  return ⟨condition, body⟩

/-- Takes `else`, line ends and `if`, if the stream begins that way. -/
def acceptElseLineIf : Parse Bool :=
  fun s =>
    match behindElseLineIf? s.stream.tokens with
    | some rest => .ok true { s with stream := { s.stream with tokens := rest } }
    | none => .ok false s

/-- The arms that follow on lines of their own. -/
def arms : Parse (List Arm) :=
  many (optional acceptElseLineIf (arm nested))

/-- What is done if no arm is taken. All arms on lines of their own have been read by now, so
what stands on a line of its own behind `else` is a block or no condition. -/
def otherwise : Parse Otherwise := do
  if ← accept .kwElse then
    if ← accept .kwIf then return .single (← nested.elseIf)
    else
      newlines
      if ← nextAre [.indent] then return .block (← nested.body)
      else return .single (← plainStatement nested)
  else return .nothing

/-- A condition with all its arms, behind its keyword. -/
def conditional : Parse Stmt := do
  let first ← arm nested
  let rest ← arms nested
  return Stmt.ofArms first rest (← otherwise nested)

/-- A statement. -/
def statement : Parse Stmt := do
  if ← accept .kwIf then conditional nested else plainStatement nested

/-- An item of the body of a method or constructor. -/
def bodyItem : Parse BodyItem := do
  if ← nextAre [.word, .word] then return .locals (← varDecls nested)
  else return .statement (← statement nested)

end Parse

namespace Nested

/-- Nothing can be opened: there is no level of nesting left. -/
def closed : Nested :=
  ⟨tooDeep, tooDeep, Gather.after tooDeep (gather (pure none)), tooDeep⟩

/-- What the productions read if `deeper` is what they can open. -/
def above (deeper : Nested) : Nested :=
  ⟨sum deeper.expression, block (statement deeper), gatherBlock (bodyItem deeper),
    conditional deeper⟩

/-- The same, each in a level of nesting of its own. -/
def counted (inner : Nested) : Nested :=
  ⟨within inner.expression, within inner.body, inner.methodBody.within, within inner.elseIf⟩

/-- What can be opened so many times inside each other. -/
def unrolled : Nat → Nested
  | 0 => closed
  | times + 1 => (unrolled times).above.counted

/-- What can be opened. Since each time a level of nesting is opened, the limit on nesting is met
before the bound on the recursion is. -/
def productions : Nested :=
  unrolled maxNesting

end Nested

end Offside
