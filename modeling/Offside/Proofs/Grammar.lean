import Offside.Program.Parse

/-!
# The grammar

The productions of the language as relations on lists of lexemes: `R ls a rest` says that
`a` can be read from the front of `ls`, which leaves `rest` (`Phrase`). The relations do not
look ahead and do not choose: where the productions leave a choice, both are derivations.
The one exception is the end of a line, which may be the end of its block, and that is not
taken (`LineEnd`).

* `Sum`, `Condition`: expressions, with operators grouped to the left (`Chain`).
* `Statement`, `Block`: statements, and the deeper lines they stand on.
* `ClassDecl`, `InterfaceDecl`, `Derives`: declarations and whole programs.

What stands one level of nesting deeper is a parameter of the productions (`Deeper`), and
`deeper` builds it by recursion on the levels that are left, so that `Derives n` is
derivation within `n` levels.
-/

namespace Offside

/-- What the grammar sees of a token: everything but its position. -/
structure Lexeme where
  /-- What the token is. -/
  kind : Kind
  /-- The text it carries, if it carries any. -/
  value : Option String
deriving DecidableEq

/-- The token without its position. -/
def Token.lexeme (t : Token) : Lexeme :=
  ⟨t.kind, t.value⟩

namespace Grammar

/-- What can be read from the front of a list of lexemes, and what that leaves. -/
abbrev Phrase (α : Type) := List Lexeme → α → List Lexeme → Prop

variable {α : Type}

/-! ## Lines and lists -/

/-- Any number of line ends. -/
inductive Newlines : List Lexeme → List Lexeme → Prop
  | none {ls} : Newlines ls ls
  | next {v ls rest} : Newlines ls rest → Newlines (⟨.newline, v⟩ :: ls) rest

/-- The end of a line: a line end, or the end of the block, which is not taken. -/
inductive LineEnd : List Lexeme → List Lexeme → Prop
  | newline {v rest} : LineEnd (⟨.newline, v⟩ :: rest) rest
  | dedent {v rest} : LineEnd (⟨.dedent, v⟩ :: rest) (⟨.dedent, v⟩ :: rest)

/-- A name. -/
inductive Word : Phrase String
  | mk {v rest} : Word (⟨.word, v⟩ :: rest) (v.getD "") rest

/-- One item or more, with a comma between each two. -/
inductive Listed (item : Phrase α) : Phrase (List α)
  | one {ls a rest} : item ls a rest → Listed item ls [a] rest
  | more {ls a v mid as rest} : item ls a (⟨.comma, v⟩ :: mid) → Listed item mid as rest →
      Listed item ls (a :: as) rest

/-- Items on lines of their own, up to the end of the block. -/
inductive Lines (item : Phrase α) : Phrase (List α)
  | done {ls v rest} : Newlines ls (⟨.dedent, v⟩ :: rest) → Lines item ls [] rest
  | next {ls start a mid as rest} : Newlines ls start → item start a mid →
      Lines item mid as rest → Lines item ls (a :: as) rest

/-- Deeper lines, with an item on each. -/
inductive Block (item : Phrase α) : Phrase (List α)
  | mk {ls v mid as rest} : Newlines ls (⟨.indent, v⟩ :: mid) → Lines item mid as rest →
      Block item ls as rest

/-! ## Expressions -/

/-- Operands with operators between them, grouped to the left. -/
inductive Chain (operator? : Kind → Option MathOp) (operand : Phrase Expr) : Phrase Expr
  | first {ls e rest} : operand ls e rest → Chain operator? operand ls e rest
  | next {ls left k v mid op right rest} : Chain operator? operand ls left (⟨k, v⟩ :: mid) →
      operator? k = some op → operand mid right rest →
      Chain operator? operand ls (.math op left right) rest

section

variable (expression : Phrase Expr)

/-- The values of a call, behind its opening parenthesis and up to its closing one. -/
inductive Arguments : Phrase (List Expr)
  | none {v rest} : Arguments (⟨.rightParen, v⟩ :: rest) [] rest
  | some {ls es v rest} : Listed expression ls es (⟨.rightParen, v⟩ :: rest) →
      Arguments ls es rest

/-- A call, on a receiver or without one. -/
inductive CallPhrase : Phrase Call
  | alone {v w ls es rest} : Arguments expression ls es rest →
      CallPhrase (⟨.word, v⟩ :: ⟨.leftParen, w⟩ :: ls) ⟨none, v.getD "", es⟩ rest
  | onReceiver {u d v w ls es rest} : Arguments expression ls es rest →
      CallPhrase (⟨.word, u⟩ :: ⟨.dot, d⟩ :: ⟨.word, v⟩ :: ⟨.leftParen, w⟩ :: ls)
        ⟨some (u.getD ""), v.getD "", es⟩ rest

/-- An operand of the tightest operators. A character literal is the first character of its
text, and parentheses leave no trace. -/
inductive Factor : Phrase Expr
  | number {v rest} : Factor (⟨.number, v⟩ :: rest) (.number (v.getD "")) rest
  | string {v rest} : Factor (⟨.quotedString, v⟩ :: rest) (.string (v.getD "")) rest
  | character {v c cs rest} : (v.getD "").toList = c :: cs →
      Factor (⟨.quotedCharacter, v⟩ :: rest) (.character c) rest
  | parens {v w ls e rest} : expression ls e (⟨.rightParen, w⟩ :: rest) →
      Factor (⟨.leftParen, v⟩ :: ls) e rest
  | new {u v w ls es rest} : Arguments expression ls es rest →
      Factor (⟨.kwNew, u⟩ :: ⟨.word, v⟩ :: ⟨.leftParen, w⟩ :: ls) (.new (v.getD "") es) rest
  | call {ls c rest} : CallPhrase expression ls c rest → Factor ls c.toExpr rest
  | var {ls x rest} : Word ls x rest → Factor ls (.var x) rest

/-- Factors with multiplicative operators between them. -/
def Term : Phrase Expr :=
  Chain MathOp.multiplicative? (Factor expression)

/-- Terms with additive operators between them. -/
def Sum : Phrase Expr :=
  Chain MathOp.additive? (Term expression)

/-- A comparison, or a call or a variable alone. -/
inductive Condition : Phrase Expr
  | compare {ls left k v mid op right rest} : expression ls left (⟨k, v⟩ :: mid) →
      CompareOp.ofKind? k = some op → expression mid right rest →
      Condition ls (.compare op left right) rest
  | call {ls r m es rest} : expression ls (.call r m es) rest → Condition ls (.call r m es) rest
  | var {ls x rest} : expression ls (.var x) rest → Condition ls (.var x) rest

/-- A name with the value it starts with, if one is written. -/
inductive NamedValue (typeName : String) : Phrase VarDecl
  | bare {ls x rest} : Word ls x rest → NamedValue typeName ls ⟨typeName, x, none⟩ rest
  | valued {ls x v mid e rest} : Word ls x (⟨.assign, v⟩ :: mid) → expression mid e rest →
      NamedValue typeName ls ⟨typeName, x, some e⟩ rest

/-- A line of variable declarations, which share a type. -/
inductive VarDecls : Phrase (List VarDecl)
  | mk {v ls ds mid rest} : Listed (NamedValue expression (v.getD "")) ls ds mid →
      LineEnd mid rest → VarDecls (⟨.word, v⟩ :: ls) ds rest

end

/-! ## Statements -/

/-- What can stand one level of nesting deeper. -/
structure Deeper where
  /-- An expression. -/
  expression : Phrase Expr
  /-- The body of a statement. -/
  body : Phrase (List Stmt)
  /-- The body of a method or constructor, item by item. -/
  methodBody : Phrase (List BodyItem)
  /-- The condition on the line of its `else`, behind `if`. -/
  elseIf : Phrase Stmt

section

variable (inner : Deeper)

/-- A statement that is no condition. -/
inductive Plain : Phrase Stmt
  | loop {v ls c w mid b rest} : Condition inner.expression ls c (⟨.newline, w⟩ :: mid) →
      inner.body mid b rest → Plain (⟨.kwLoop, v⟩ :: ls) (.loop none c b) rest
  | loopIn {v ls x u start c w mid b rest} : Word ls x (⟨.assign, u⟩ :: start) →
      Condition inner.expression start c (⟨.newline, w⟩ :: mid) → inner.body mid b rest →
      Plain (⟨.kwLoop, v⟩ :: ls) (.loop (some x) c b) rest
  | call {ls c mid rest} : CallPhrase inner.expression ls c mid → LineEnd mid rest →
      Plain ls (.call none c) rest
  | assign {ls xs v mid e behind rest} : Listed Word ls xs (⟨.assign, v⟩ :: mid) →
      inner.expression mid e behind → LineEnd behind rest →
      Plain ls (Stmt.ofAssignment xs e) rest

/-- A condition with the body it guards, behind its keyword. -/
inductive Guarded : Phrase Arm
  | mk {ls c v mid b rest} : Condition inner.expression ls c (⟨.newline, v⟩ :: mid) →
      inner.body mid b rest → Guarded ls ⟨c, b⟩ rest

/-- A condition with its body and what is done otherwise, behind its keyword. Behind `else`
stands a condition on the same line, or on lines of its own a block or a statement. -/
inductive Conditional : Phrase Stmt
  | alone {ls a mid rest} : Guarded inner ls a mid → Newlines mid rest →
      Conditional ls (.cond a.condition a.body .nothing) rest
  | elseIf {ls a mid v w start s rest} : Guarded inner ls a mid →
      Newlines mid (⟨.kwElse, v⟩ :: ⟨.kwIf, w⟩ :: start) → inner.elseIf start s rest →
      Conditional ls (.cond a.condition a.body (.single s)) rest
  | elseBlock {ls a mid v w behind start b rest} : Guarded inner ls a mid →
      Newlines mid (⟨.kwElse, v⟩ :: ⟨.newline, w⟩ :: behind) → Newlines behind start →
      inner.body start b rest → Conditional ls (.cond a.condition a.body (.block b)) rest
  | elseLineIf {ls a mid v w behind u start s rest} : Guarded inner ls a mid →
      Newlines mid (⟨.kwElse, v⟩ :: ⟨.newline, w⟩ :: behind) →
      Newlines behind (⟨.kwIf, u⟩ :: start) → Conditional start s rest →
      Conditional ls (.cond a.condition a.body (.single s)) rest
  | elseLine {ls a mid v w behind start s rest} : Guarded inner ls a mid →
      Newlines mid (⟨.kwElse, v⟩ :: ⟨.newline, w⟩ :: behind) → Newlines behind start →
      Plain inner start s rest → Conditional ls (.cond a.condition a.body (.single s)) rest

/-- A statement. -/
inductive Statement : Phrase Stmt
  | cond {v ls s rest} : Conditional inner ls s rest → Statement (⟨.kwIf, v⟩ :: ls) s rest
  | plain {ls s rest} : Plain inner ls s rest → Statement ls s rest

/-- An item of the body of a method or constructor. -/
inductive Item : Phrase BodyItem
  | locals {ls ds rest} : VarDecls inner.expression ls ds rest → Item ls (.locals ds) rest
  | statement {ls s rest} : Statement inner ls s rest → Item ls (.statement s) rest

end

/-- What can stand deeper, with so many levels of nesting left. -/
def deeper : Nat → Deeper
  | 0 => ⟨fun _ _ _ => False, fun _ _ _ => False, fun _ _ _ => False, fun _ _ _ => False⟩
  | n + 1 =>
    ⟨Sum (deeper n).expression, Block (Statement (deeper n)), Block (Item (deeper n)),
      Conditional (deeper n)⟩

/-! ## Declarations -/

/-- A parameter: a type and a name. -/
inductive Parameter : Phrase VarDecl
  | mk {v w rest} : Parameter (⟨.word, v⟩ :: ⟨.word, w⟩ :: rest)
      ⟨v.getD "", w.getD "", none⟩ rest

/-- Parameters in parentheses. -/
inductive ParameterList : Phrase (List VarDecl)
  | none {v w rest} : ParameterList (⟨.leftParen, v⟩ :: ⟨.rightParen, w⟩ :: rest) [] rest
  | some {v ls ds w rest} : Listed Parameter ls ds (⟨.rightParen, w⟩ :: rest) →
      ParameterList (⟨.leftParen, v⟩ :: ls) ds rest

/-- A returned value: a type, and a name that may be missing. -/
inductive Returned : Phrase ReturnDecl
  | bare {v rest} : Returned (⟨.word, v⟩ :: rest) ⟨v.getD "", none⟩ rest
  | named {v w rest} : Returned (⟨.word, v⟩ :: ⟨.word, w⟩ :: rest) ⟨v.getD "", w⟩ rest

/-- The header of a method. -/
inductive Header : Phrase MethodHeader
  | bare {ls x start ds mid rest} : Word ls x start → ParameterList start ds mid →
      LineEnd mid rest → Header ls ⟨x, ds, []⟩ rest
  | returning {ls x start ds v mid rs behind rest} : Word ls x start →
      ParameterList start ds (⟨.colon, v⟩ :: mid) → Listed Returned mid rs behind →
      LineEnd behind rest → Header ls ⟨x, ds, rs⟩ rest

/-- An interface, behind its keyword. -/
inductive InterfaceDecl : Phrase Interface
  | mk {ls x v mid hs rest} : Word ls x (⟨.newline, v⟩ :: mid) → Block Header mid hs rest →
      InterfaceDecl ls ⟨x, hs⟩ rest

/-- A mark that may be missing. -/
inductive Mark (kind : Kind) : Phrase Bool
  | absent {ls} : Mark kind ls false ls
  | present {v rest} : Mark kind (⟨kind, v⟩ :: rest) true rest

/-- The interfaces that a class promises to implement, if any are named. -/
inductive Implemented : Phrase (List String)
  | none {ls} : Implemented ls [] ls
  | some {v ls xs rest} : Listed Word ls xs rest → Implemented (⟨.kwImplements, v⟩ :: ls) xs rest

section

variable (inner : Deeper)

/-- An item of a class. -/
inductive ClassPart : Phrase ClassItem
  | constructor {v ls ds w mid start items rest} :
      ParameterList ls ds (⟨.newline, w⟩ :: mid) → Newlines mid start →
      inner.methodBody start items rest →
      ClassPart (⟨.kwConstruct, v⟩ :: ls) (.constructor ⟨ds, .ofItems items⟩) rest
  | method {ls isPrivate start isShared behind h mid items rest} :
      Mark .kwPrivate ls isPrivate start → Mark .kwShared start isShared behind →
      Header behind h mid → inner.methodBody mid items rest →
      ClassPart ls (.method ⟨isPrivate, isShared, h, .ofItems items⟩) rest
  | members {ls ds rest} : VarDecls inner.expression ls ds rest →
      ClassPart ls (.members ds) rest

/-- A class, behind its keyword. -/
inductive ClassDecl : Phrase Class
  | mk {ls x start xs v mid items rest} : Word ls x start →
      Implemented start xs (⟨.newline, v⟩ :: mid) → Block (ClassPart inner) mid items rest →
      ClassDecl ls (.ofItems x xs items) rest

/-- Declarations up to the end of the text. -/
inductive Declarations : List Lexeme → List Declaration → Prop
  | done {ls} : Newlines ls [] → Declarations ls []
  | classDecl {ls v start c mid ds} : Newlines ls (⟨.kwClass, v⟩ :: start) →
      ClassDecl inner start c mid → Declarations mid ds →
      Declarations ls (.classDecl c :: ds)
  | interfaceDecl {ls v start i mid ds} : Newlines ls (⟨.kwInterface, v⟩ :: start) →
      InterfaceDecl start i mid → Declarations mid ds →
      Declarations ls (.interfaceDecl i :: ds)

end

/-- The program `p` can be read from all of `ls` within `n` levels of nesting. -/
def Derives (n : Nat) (ls : List Lexeme) (p : Program) : Prop :=
  ∃ ds, Declarations (deeper n) ls ds ∧ p = .ofDeclarations ds

end Grammar

end Offside
