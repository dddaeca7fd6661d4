import Offside.Stmt.Parse

/-!
# Reading declarations

```
Program      = (Class | Interface)*
Interface    = "interface" WORD NEWLINE INDENT MethodHeader* DEDENT
MethodHeader = WORD "(" Parameters ")" (":" Returns)? LineEnd
Parameters   = (WORD WORD ("," WORD WORD)*)?
Returns      = WORD WORD? ("," WORD WORD?)*
Class        = "class" WORD ("implements" WORD ("," WORD)*)? NEWLINE
               INDENT (Constructor | Method | VarDecls)* DEDENT
Constructor  = "construct" "(" Parameters ")" NEWLINE MethodBody
Method       = "private"? "shared"? MethodHeader MethodBody
```

Empty lines may stand between declarations, and behind the line that opens a block.
-/

namespace Offside

open Parse

/-- An item of a class. -/
inductive ClassItem where
  /-- A constructor. -/
  | constructor (constructor : Constructor)
  /-- A method. -/
  | method (method : Method)
  /-- A line of variable declarations. -/
  | members (declarations : List VarDecl)

namespace ClassItem

/-- The constructor that the item is, if it is one. -/
def constructor? : ClassItem → Option Constructor
  | constructor c => some c
  | _ => none

/-- The method that the item is, if it is one. -/
def method? : ClassItem → Option Method
  | method m => some m
  | _ => none

/-- The members that the item declares. -/
def declared : ClassItem → List VarDecl
  | members declarations => declarations
  | _ => []

end ClassItem

/-- The class that consists of the given items: each kind keeps its order. -/
def Class.ofItems (name : String) (interfaces : List String) (items : List ClassItem) : Class where
  name := name
  interfaces := interfaces
  constructors := items.filterMap ClassItem.constructor?
  methods := items.filterMap ClassItem.method?
  members := items.flatMap ClassItem.declared

/-- A declaration of a program. -/
inductive Declaration where
  /-- A class. -/
  | classDecl (declared : Class)
  /-- An interface. -/
  | interfaceDecl (declared : Interface)

namespace Declaration

/-- The class that is declared, if it is one. -/
def class? : Declaration → Option Class
  | classDecl c => some c
  | interfaceDecl _ => none

/-- The interface that is declared, if it is one. -/
def interface? : Declaration → Option Interface
  | classDecl _ => none
  | interfaceDecl i => some i

end Declaration

/-- The program that consists of the given declarations: each kind keeps its order. -/
def Program.ofDeclarations (declarations : List Declaration) : Program :=
  ⟨declarations.filterMap Declaration.class?, declarations.filterMap Declaration.interface?⟩

namespace Parse

/-- A parameter: a type and a name. -/
def parameter : Parse VarDecl := do
  let typeName ← word
  return ⟨typeName, ← word, none⟩

/-- Parameters, if two names in a row show that there are any. -/
def parameters : Parse (List VarDecl) := do
  if ← nextAre [.word, .word] then commaSeparated parameter else return []

/-- A returned value; a token without a text leaves it without a name. -/
def returned : Parse ReturnDecl := do
  let typeName ← word
  return ⟨typeName, (← take? .word).bind Token.value⟩

/-- Returned values, of which there is at least one. -/
def returns : Parse (List ReturnDecl) := do
  if ← nextAre [.word] then commaSeparated returned else failHere .missingReturnDeclaration

/-- Parameters in parentheses. -/
def parameterList : Parse (List VarDecl) := do
  discard (expect .leftParen)
  let declared ← parameters
  discard (expect .rightParen)
  return declared

/-- The header of a method. -/
def header : Parse MethodHeader := do
  let name ← word
  let parameters ← parameterList
  let returns ← if ← accept .colon then returns else pure []
  lineEnd
  return ⟨name, parameters, returns⟩

/-- The header of a method, if a name and a parenthesis show that there is one. -/
def header? : Parse (Option MethodHeader) :=
  optional (nextAre [.word, .leftParen]) header

/-- An interface, behind its keyword. -/
def interfaceDecl : Parse Interface := do
  let name ← word
  newlines
  discard (expect .indent)
  let methods ← many (do skipNewlines; header?)
  discard (expect .dedent)
  note (.interfaceEnd name methods.length)
  return ⟨name, methods⟩

variable (nested : Nested)

/-- The body of a method or constructor. -/
def methodBody : Parse MethodBody := do
  return MethodBody.ofItems (← nested.methodBody.toParse)

/-- A constructor, behind its keyword. -/
def constructor : Parse Constructor := do
  let parameters ← parameterList
  newlines
  return ⟨parameters, ← methodBody nested⟩

/-- A method. What is no header is taken for a name that lacks its parenthesis. -/
def method : Parse Method := do
  let isPrivate ← accept .kwPrivate
  let isShared ← accept .kwShared
  match ← header? with
  | some header => return ⟨isPrivate, isShared, header, ← methodBody nested⟩
  | none =>
    discard (expect .word)
    unexpected [.leftParen]

/-- An item of a class. -/
def classItem : Parse ClassItem := do
  match ← nextKind? with
  | some .kwConstruct =>
    discard (expect .kwConstruct)
    return .constructor (← constructor nested)
  | some .kwPrivate | some .kwShared => return .method (← method nested)
  | some .word =>
    if ← nextAre [.word, .leftParen] then return .method (← method nested)
    else if ← nextAre [.word, .word] then return .members (← varDecls nested)
    else
      discard (expect .word)
      unexpected [.word, .leftParen]
  | _ => unexpected [.kwConstruct, .kwPrivate, .kwShared, .word]

/-- The interfaces that a class promises to implement, if any are named. -/
def implemented : Parse (List String) := do
  if ← nextAre [.kwImplements, .word] then
    discard (expect .kwImplements)
    commaSeparated word
  else return []

/-- A class, behind its keyword. -/
def classDecl : Parse Class := do
  let name ← word
  let interfaces ← implemented
  newlines
  let declared := Class.ofItems name interfaces (← block (classItem nested))
  note (.classEnd name declared.constructors.length declared.methods.length
    declared.members.length)
  return declared

/-- A declaration, unless the tokens are at an end. -/
def declaration? : Parse (Option Declaration) := do
  skipNewlines
  match ← nextKind? with
  | none => return none
  | some .kwClass =>
    discard (expect .kwClass)
    return some (.classDecl (← classDecl nested))
  | some .kwInterface =>
    discard (expect .kwInterface)
    return some (.interfaceDecl (← interfaceDecl))
  | _ => unexpected [.kwClass, .kwInterface]

/-- A whole program. -/
def program : Parse Program := do
  return Program.ofDeclarations (← many (declaration? nested))

end Parse

end Offside
