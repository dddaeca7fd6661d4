import Offside.Expr.Print
import Offside.Proofs.Grammar

/-!
# The lexemes of a written program

What a scanner should find in a written program, read off the tree: names and literals with
their texts, the signs between them, the parentheses that the printer puts around operands,
and a deeper block for every body that has lines (`indented`). Empty lines between
declarations leave nothing here.
-/

namespace Offside

/-- The kind that reads as the operator. -/
def MathOp.kind : MathOp → Kind
  | add => .plus
  | subtract => .minus
  | multiply => .times
  | divide => .divide
  | modulo => .modulo

/-- The kind that reads as the operator. -/
def CompareOp.kind : CompareOp → Kind
  | equal => .equal
  | notEqual => .notEqual
  | lessThan => .lessThan
  | lessThanEqual => .lessThanEqual
  | greaterThan => .greaterThan
  | greaterThanEqual => .greaterThanEqual

/-- The lexeme of a name. -/
abbrev nameLexeme (name : String) : Lexeme :=
  ⟨.word, some name⟩

/-- A comma between each two items. -/
def separated : List (List Lexeme) → List Lexeme
  | [] => []
  | [item] => item
  | item :: next :: rest => item ++ ⟨.comma, none⟩ :: separated (next :: rest)

/-- The lines of a body as a deeper block; no lines are no block. -/
def indented (lines : List Lexeme) : List Lexeme :=
  if lines.isEmpty then [] else ⟨.indent, none⟩ :: lines ++ [⟨.dedent, none⟩]

theorem indented_append {lines : List Lexeme} (h : lines ≠ []) (K : List Lexeme) :
    indented lines ++ K = ⟨.indent, none⟩ :: (lines ++ ⟨.dedent, none⟩ :: K) := by
  simp [indented, h]

/-! ## Expressions -/

/-- The lexemes of an operand, in parentheses if they are needed. -/
def parenthesized (needed : Bool) (operand : List Lexeme) : List Lexeme :=
  if needed then ⟨.leftParen, none⟩ :: operand ++ [⟨.rightParen, none⟩] else operand

namespace Expr

mutual

/-- The lexemes of the written expression, for expressions that can be read. -/
def lexemes : Expr → List Lexeme
  | number text => [⟨.number, some text⟩]
  | string text => [⟨.quotedString, some text⟩]
  | character value => [⟨.quotedCharacter, some (String.singleton value)⟩]
  | var name => [nameLexeme name]
  | call receiver method arguments =>
    (match receiver with
      | some r => [nameLexeme r, ⟨.dot, none⟩]
      | none => []) ++
    nameLexeme method :: ⟨.leftParen, none⟩ :: separated (allLexemes arguments) ++
      [⟨.rightParen, none⟩]
  | math op left right =>
    parenthesized (needsParens left.precedence (precedence (math op left right)) false)
        (lexemes left) ++ ⟨op.kind, none⟩ ::
      parenthesized (needsParens right.precedence (precedence (math op left right)) true)
        (lexemes right)
  | compare op left right => lexemes left ++ ⟨op.kind, none⟩ :: lexemes right
  | new typeName arguments =>
    ⟨.kwNew, none⟩ :: nameLexeme typeName :: ⟨.leftParen, none⟩ ::
      separated (allLexemes arguments) ++ [⟨.rightParen, none⟩]
  | boolean _ | logic _ _ _ | not _ => []

/-- The lexemes of written expressions, one by one. -/
def allLexemes : List Expr → List (List Lexeme)
  | [] => []
  | e :: rest => lexemes e :: allLexemes rest

end

theorem allLexemes_eq_map : ∀ es : List Expr, allLexemes es = es.map lexemes
  | [] => rfl
  | e :: rest => by rw [allLexemes, allLexemes_eq_map rest, List.map_cons]

end Expr

/-! ## Statements -/

/-- The lexemes in front of the value of an assignment. -/
def targetLexemes (targets : List String) : List Lexeme :=
  separated (targets.map fun x => [nameLexeme x]) ++ [⟨.assign, none⟩]

namespace Stmt

mutual

/-- The lexemes of the written statement. -/
def lexemes : Stmt → List Lexeme
  | assign targets value => targetLexemes targets ++ value.lexemes ++ [⟨.newline, none⟩]
  | call targets c =>
    (match targets with
      | some targets => targetLexemes targets
      | none => []) ++ c.toExpr.lexemes ++ [⟨.newline, none⟩]
  | cond condition body otherwise =>
    ⟨.kwIf, none⟩ :: condition.lexemes ++ ⟨.newline, none⟩ :: indented (bodyLexemes body) ++
      otherwiseLexemes otherwise
  | loop variableName condition body =>
    ⟨.kwLoop, none⟩ ::
      (match variableName with
        | some name => [nameLexeme name, ⟨.assign, none⟩]
        | none => []) ++ condition.lexemes ++ ⟨.newline, none⟩ :: indented (bodyLexemes body)

/-- The lexemes of written statements, one after the other. -/
def bodyLexemes : List Stmt → List Lexeme
  | [] => []
  | s :: rest => lexemes s ++ bodyLexemes rest

/-- The lexemes of the written `else`, if there is one. -/
def otherwiseLexemes : Otherwise → List Lexeme
  | .nothing => []
  | .single s => ⟨.kwElse, none⟩ :: (if s.isCond then [] else [⟨.newline, none⟩]) ++ lexemes s
  | .block body => ⟨.kwElse, none⟩ :: ⟨.newline, none⟩ :: indented (bodyLexemes body)

end

end Stmt

/-! ## Declarations -/

/-- The lexemes of the written declaration. -/
def VarDecl.lexemes (d : VarDecl) : List Lexeme :=
  nameLexeme d.typeName :: nameLexeme d.name ::
    match d.initializer with
    | some value => ⟨.assign, none⟩ :: value.lexemes
    | none => []

/-- The lexemes of the written declaration, on a line of its own. -/
def VarDecl.lineLexemes (d : VarDecl) : List Lexeme :=
  d.lexemes ++ [⟨.newline, none⟩]

/-- The lexemes of the written returned value. -/
def ReturnDecl.lexemes (d : ReturnDecl) : List Lexeme :=
  nameLexeme d.typeName ::
    match d.name with
    | some name => [nameLexeme name]
    | none => []

/-- The lexemes of written parameters, in parentheses. -/
def parameterLexemes (parameters : List VarDecl) : List Lexeme :=
  ⟨.leftParen, none⟩ :: separated (parameters.map VarDecl.lexemes) ++ [⟨.rightParen, none⟩]

/-- The lexemes of the written header. -/
def MethodHeader.lexemes (h : MethodHeader) : List Lexeme :=
  nameLexeme h.name :: parameterLexemes h.parameters ++
    (if h.returns.isEmpty then []
      else ⟨.colon, none⟩ :: separated (h.returns.map ReturnDecl.lexemes)) ++ [⟨.newline, none⟩]

/-- The lexemes of the written interface. -/
def Interface.lexemes (i : Interface) : List Lexeme :=
  ⟨.kwInterface, none⟩ :: nameLexeme i.name :: ⟨.newline, none⟩ ::
    indented (i.methods.flatMap MethodHeader.lexemes)

/-- The lexemes of the written body. -/
def MethodBody.lexemes (b : MethodBody) : List Lexeme :=
  b.locals.flatMap VarDecl.lineLexemes ++ Stmt.bodyLexemes b.statements

/-- The lexemes of the written constructor. -/
def Constructor.lexemes (c : Constructor) : List Lexeme :=
  ⟨.kwConstruct, none⟩ :: parameterLexemes c.parameters ++ ⟨.newline, none⟩ ::
    indented c.body.lexemes

/-- The lexemes of the written method. -/
def Method.lexemes (m : Method) : List Lexeme :=
  (if m.isPrivate then [⟨.kwPrivate, none⟩] else []) ++
    (if m.isShared then [⟨.kwShared, none⟩] else []) ++ m.header.lexemes ++
    indented m.body.lexemes

/-- The lexemes of what is in the written class. -/
def Class.partLexemes (c : Class) : List Lexeme :=
  c.members.flatMap VarDecl.lineLexemes ++ c.constructors.flatMap Constructor.lexemes ++
    c.methods.flatMap Method.lexemes

/-- The lexemes of the written class. -/
def Class.lexemes (c : Class) : List Lexeme :=
  ⟨.kwClass, none⟩ :: nameLexeme c.name ::
    (if c.interfaces.isEmpty then []
      else ⟨.kwImplements, none⟩ :: separated (c.interfaces.map fun x => [nameLexeme x])) ++
    ⟨.newline, none⟩ :: indented c.partLexemes

/-- The lexemes of the written program. -/
def Program.lexemes (p : Program) : List Lexeme :=
  p.interfaces.flatMap Interface.lexemes ++ p.classes.flatMap Class.lexemes

end Offside
