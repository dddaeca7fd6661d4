import Offside.Program.Parse

/-!
# Comparing parsers along the productions

What is proved of all productions is mostly a relation between two parsers that the parts of
which productions are made respect. A `Comparison` is such a relation, with a proof for each of
these parts. If what can be opened in one family of productions is related to what can be opened in
another (`Comparison.Opens`), then so are the productions: `Comparison.expression` and
`Comparison.program` are the last of the chains for expressions and for declarations. This is the
one place where the productions are gone through; properties that differ in what they say of
single tokens share it.

A property of one parser is a comparison that does not look at the second.
-/

namespace Offside

open Parse

/-- The causes that show where the stream stands, whatever stands there. -/
def Cause.ShowsHere : Cause → Prop
  | nestingTooDeep _ | localsOutsideMethod | missingReturnDeclaration => True
  | _ => False

/-- A relation between parsers and one between readings of items that the parts of productions
respect. A token that has been taken shows in no more than its text, and the place where the
stream stands in no more than a failure: where they are used otherwise, the whole is a part. -/
structure Comparison where
  /-- When two parsers are related. -/
  Parsers {α : Type} : Parse α → Parse α → Prop
  /-- When two readings of items are related. -/
  Items {α : Type} : Gather α → Gather α → Prop
  pure {α : Type} (a : α) : Parsers (Pure.pure a) (Pure.pure a)
  bind {α β : Type} {p p' : Parse α} {f f' : α → Parse β} :
    Parsers p p' → (∀ a, Parsers (f a) (f' a)) → Parsers (p >>= f) (p' >>= f')
  nextKind? : Parsers Parse.nextKind? Parse.nextKind?
  nextAre (kinds : List Kind) : Parsers (Parse.nextAre kinds) (Parse.nextAre kinds)
  note (event : Event) : Parsers (Parse.note event) (Parse.note event)
  unexpected {α : Type} (expected : List Kind) :
    Parsers (Parse.unexpected expected : Parse α) (Parse.unexpected expected)
  failHere {α : Type} {cause : Cause} (h : cause.ShowsHere) :
    Parsers (Parse.failHere cause : Parse α) (Parse.failHere cause)
  accept (kind : Kind) : Parsers (Parse.accept kind) (Parse.accept kind)
  expect (kind : Kind) : Parsers (discard (Parse.expect kind)) (discard (Parse.expect kind))
  text {α : Type} (kind : Kind) (f : String → α) :
    Parsers (do return f (← Parse.expect kind).text) (do return f (← Parse.expect kind).text)
  value {α : Type} (kind : Kind) (f : Option String → α) :
    Parsers (do return f ((← Parse.take? kind).bind Token.value))
      (do return f ((← Parse.take? kind).bind Token.value))
  takeMeaning? {α : Type} (meaning? : Kind → Option α) :
    Parsers (Parse.takeMeaning? meaning?) (Parse.takeMeaning? meaning?)
  skipNewlines : Parsers Parse.skipNewlines Parse.skipNewlines
  acceptElseLineIf : Parsers Parse.acceptElseLineIf Parse.acceptElseLineIf
  character : Parsers Parse.character Parse.character
  condition {expression expression' : Parse Expr} : Parsers expression expression' →
    Parsers (Parse.condition expression) (Parse.condition expression')
  gather {α : Type} {item? item?' : Parse (Option α)} : Parsers item? item?' →
    Items (Parse.gather item?) (Parse.gather item?')
  after {α : Type} {first first' : Parse Unit} {g g' : Gather α} : Parsers first first' →
    Items g g' → Items (g.after first) (g'.after first')
  toParse {α : Type} {g g' : Gather α} : Items g g' → Parsers g.toParse g'.toParse

namespace Comparison

variable (C : Comparison) {α β : Type}

/-! ## Lines and repetition -/

theorem tooDeep : C.Parsers (Parse.tooDeep : Parse α) Parse.tooDeep :=
  C.failHere trivial

theorem word : C.Parsers Parse.word Parse.word :=
  C.text .word id

theorem newlines : C.Parsers Parse.newlines Parse.newlines :=
  C.bind (C.expect _) fun _ => C.skipNewlines

theorem lineEnd : C.Parsers Parse.lineEnd Parse.lineEnd := by
  refine C.bind (C.accept _) fun b => ?_
  split
  · exact C.pure _
  refine C.bind (C.nextAre _) fun b => ?_
  split
  · exact C.pure _
  · exact C.unexpected _

theorem many {item? item?' : Parse (Option α)} (h : C.Parsers item? item?') :
    C.Parsers (Parse.many item?) (Parse.many item?') :=
  C.toParse (C.gather h)

theorem optional {present present' : Parse Bool} {item item' : Parse α}
    (hpresent : C.Parsers present present') (h : C.Parsers item item') :
    C.Parsers (Parse.optional present item) (Parse.optional present' item') := by
  refine C.bind hpresent fun b => ?_
  split
  · exact C.bind h fun _ => C.pure _
  · exact C.pure _

theorem commaSeparated {item item' : Parse α} (h : C.Parsers item item') :
    C.Parsers (Parse.commaSeparated item) (Parse.commaSeparated item') :=
  C.bind h fun _ => C.bind (C.many (C.optional (C.accept _) h)) fun _ => C.pure _

theorem operation? {operator? operator?' : Parse (Option β)} {operand operand' : Parse α}
    (hoperator : C.Parsers operator? operator?') (h : C.Parsers operand operand') :
    C.Parsers (Parse.operation? operator? operand) (Parse.operation? operator?' operand') := by
  refine C.bind hoperator fun o => ?_
  cases o with
  | none => exact C.pure _
  | some op => exact C.bind h fun _ => C.pure _

theorem leftAssociative {combine : β → α → α → α} {operator? operator?' : Parse (Option β)}
    {operand operand' : Parse α} (hoperator : C.Parsers operator? operator?')
    (h : C.Parsers operand operand') :
    C.Parsers (Parse.leftAssociative combine operator? operand)
      (Parse.leftAssociative combine operator?' operand') :=
  C.bind h fun _ => C.bind (C.many (C.operation? hoperator h)) fun _ => C.pure _

theorem line? {item item' : Parse α} (h : C.Parsers item item') :
    C.Parsers (Parse.line? item) (Parse.line? item') := by
  refine C.bind C.skipNewlines fun _ => C.bind (C.accept _) fun b => ?_
  split
  · exact C.pure _
  · exact C.bind h fun _ => C.pure _

theorem gatherBlock {item item' : Parse α} (h : C.Parsers item item') :
    C.Items (Parse.gatherBlock item) (Parse.gatherBlock item') :=
  C.after (C.bind C.skipNewlines fun _ => C.expect _) (C.gather (C.line? h))

theorem block {item item' : Parse α} (h : C.Parsers item item') :
    C.Parsers (Parse.block item) (Parse.block item') :=
  C.toParse (C.gatherBlock h)

/-! ## Expressions -/

section

variable {expression expression' : Parse Expr} (hE : C.Parsers expression expression')
include hE

theorem arguments : C.Parsers (Parse.arguments expression) (Parse.arguments expression') := by
  refine C.bind (C.accept _) fun b => ?_
  split
  · exact C.pure _
  · exact C.bind (C.commaSeparated hE) fun _ => C.bind (C.expect _) fun _ => C.pure _

theorem callOn (receiver : Option String) :
    C.Parsers (Parse.callOn expression receiver) (Parse.callOn expression' receiver) :=
  C.bind C.word fun _ => C.bind (C.expect _) fun _ => C.bind (C.arguments hE) fun _ => C.pure _

theorem call? : C.Parsers (Parse.call? expression) (Parse.call? expression') := by
  refine C.bind (C.nextAre _) fun b => ?_
  split
  · exact C.bind C.word fun _ => C.bind (C.expect _) fun _ => C.bind (C.callOn hE _) fun _ =>
      C.pure _
  refine C.bind (C.nextAre _) fun b => ?_
  split
  · exact C.bind (C.callOn hE _) fun _ => C.pure _
  · exact C.pure _

theorem factor : C.Parsers (Parse.factor expression) (Parse.factor expression') := by
  refine C.bind C.nextKind? fun k => ?_
  split
  · exact C.text _ _
  · exact C.text _ _
  · exact C.character
  · exact C.bind (C.expect _) fun _ => C.bind hE fun _ => C.bind (C.expect _) fun _ => C.pure _
  · exact C.bind (C.expect _) fun _ => C.bind C.word fun _ => C.bind (C.expect _) fun _ =>
      C.bind (C.arguments hE) fun _ => C.pure _
  · refine C.bind (C.call? hE) fun c => ?_
    cases c with
    | some c => exact C.pure _
    | none => exact C.bind C.word fun _ => C.pure _
  · exact C.unexpected _

theorem term : C.Parsers (Parse.term expression) (Parse.term expression') :=
  C.leftAssociative (C.takeMeaning? _) (C.factor hE)

theorem sum : C.Parsers (Parse.sum expression) (Parse.sum expression') :=
  C.leftAssociative (C.takeMeaning? _) (C.term hE)

end

/-! ## Statements -/

/-- What can be opened in the one family of productions is related to what can be opened in the
other. -/
structure Opens (n n' : Nested) : Prop where
  expression : C.Parsers n.expression n'.expression
  body : C.Parsers n.body n'.body
  methodBody : C.Items n.methodBody n'.methodBody
  elseIf : C.Parsers n.elseIf n'.elseIf

variable {C} {n n' : Nested}

section

variable (h : C.Opens n n')
include h

theorem Opens.namedValue (typeName : String) :
    C.Parsers (Parse.namedValue n typeName) (Parse.namedValue n' typeName) :=
  C.bind C.word fun _ => C.bind (C.optional (C.accept _) h.expression) fun _ => C.pure _

theorem Opens.varDecls : C.Parsers (Parse.varDecls n) (Parse.varDecls n') :=
  C.bind C.word fun _ => C.bind (C.commaSeparated (h.namedValue _)) fun _ =>
    C.bind C.lineEnd fun _ => C.pure _

theorem Opens.assignment : C.Parsers (Parse.assignment n) (Parse.assignment n') :=
  C.bind (C.commaSeparated C.word) fun _ => C.bind (C.expect _) fun _ =>
    C.bind h.expression fun _ => C.bind C.lineEnd fun _ => C.bind (C.note _) fun _ => C.pure _

omit h in
theorem loopVariable (C : Comparison) : C.Parsers
    (Parse.optional (Parse.nextAre [.word, .assign]) do
      let name ← Parse.word
      discard (Parse.expect .assign)
      return name)
    (Parse.optional (Parse.nextAre [.word, .assign]) do
      let name ← Parse.word
      discard (Parse.expect .assign)
      return name) :=
  C.optional (C.nextAre _) (C.bind C.word fun _ => C.bind (C.expect _) fun _ => C.pure _)

theorem Opens.loop : C.Parsers (Parse.loop n) (Parse.loop n') :=
  C.bind C.loopVariable fun _ =>
    C.bind (C.condition h.expression) fun _ => C.bind (C.expect _) fun _ =>
      C.bind h.body fun _ => C.pure _

theorem Opens.callOrAssignment :
    C.Parsers (Parse.callOrAssignment n) (Parse.callOrAssignment n') := by
  refine C.bind (C.call? h.expression) fun c => ?_
  cases c with
  | some c => exact C.bind C.lineEnd fun _ => C.bind (C.note _) fun _ => C.pure _
  | none => exact h.assignment

theorem Opens.plainStatement : C.Parsers (Parse.plainStatement n) (Parse.plainStatement n') := by
  refine C.bind C.nextKind? fun k => ?_
  split
  · exact C.bind (C.expect _) fun _ => h.loop
  · refine C.bind (C.nextAre _) fun b => ?_
    split
    · exact C.failHere trivial
    · exact h.callOrAssignment
  · exact C.unexpected _

theorem Opens.arm : C.Parsers (Parse.arm n) (Parse.arm n') :=
  C.bind (C.condition h.expression) fun _ => C.bind (C.expect _) fun _ => C.bind h.body fun _ =>
    C.bind C.skipNewlines fun _ => C.pure _

theorem Opens.elseArm : C.Parsers
    (Parse.optional Parse.acceptElseLineIf (Parse.arm n))
    (Parse.optional Parse.acceptElseLineIf (Parse.arm n')) :=
  C.optional C.acceptElseLineIf h.arm

theorem Opens.otherwise : C.Parsers (Parse.otherwise n) (Parse.otherwise n') := by
  refine C.bind (C.accept _) fun b => ?_
  split
  · refine C.bind (C.accept _) fun b => ?_
    split
    · exact C.bind h.elseIf fun _ => C.pure _
    · refine C.bind C.newlines fun _ => C.bind (C.nextAre _) fun b => ?_
      split
      · exact C.bind h.body fun _ => C.pure _
      · exact C.bind h.plainStatement fun _ => C.pure _
  · exact C.pure _

theorem Opens.conditional : C.Parsers (Parse.conditional n) (Parse.conditional n') :=
  C.bind h.arm fun _ => C.bind (C.many h.elseArm) fun _ => C.bind h.otherwise fun _ => C.pure _

theorem Opens.statement : C.Parsers (Parse.statement n) (Parse.statement n') := by
  refine C.bind (C.accept _) fun b => ?_
  split
  · exact h.conditional
  · exact h.plainStatement

theorem Opens.bodyItem : C.Parsers (Parse.bodyItem n) (Parse.bodyItem n') := by
  refine C.bind (C.nextAre _) fun b => ?_
  split
  · exact C.bind h.varDecls fun _ => C.pure _
  · exact C.bind h.statement fun _ => C.pure _

theorem Opens.above : C.Opens n.above n'.above :=
  ⟨C.sum h.expression, C.block h.statement, C.gatherBlock h.bodyItem, h.conditional⟩

end

variable (C)

theorem closed : C.Opens .closed .closed :=
  ⟨C.tooDeep, C.tooDeep, C.after C.tooDeep (C.gather (C.pure none)), C.tooDeep⟩

/-! ## Declarations -/

theorem parameter : C.Parsers Parse.parameter Parse.parameter :=
  C.bind C.word fun _ => C.bind C.word fun _ => C.pure _

theorem parameters : C.Parsers Parse.parameters Parse.parameters := by
  refine C.bind (C.nextAre _) fun b => ?_
  split
  · exact C.commaSeparated C.parameter
  · exact C.pure _

theorem parameterList : C.Parsers Parse.parameterList Parse.parameterList :=
  C.bind (C.expect _) fun _ => C.bind C.parameters fun _ => C.bind (C.expect _) fun _ => C.pure _

theorem returned : C.Parsers Parse.returned Parse.returned :=
  C.bind C.word fun _ => C.value _ _

theorem returns : C.Parsers Parse.returns Parse.returns := by
  refine C.bind (C.nextAre _) fun b => ?_
  split
  · exact C.commaSeparated C.returned
  · exact C.failHere trivial

theorem header : C.Parsers Parse.header Parse.header := by
  refine C.bind C.word fun _ => C.bind C.parameterList fun _ => C.bind (C.accept _) fun b => ?_
  have hend : ∀ (f : List ReturnDecl → MethodHeader) returns,
      C.Parsers (do Parse.lineEnd; return f returns) (do Parse.lineEnd; return f returns) :=
    fun _ _ => C.bind C.lineEnd fun _ => C.pure _
  dsimp only
  split
  · exact C.bind C.returns (hend _)
  · exact C.bind (C.pure _) (hend _)

theorem header? : C.Parsers Parse.header? Parse.header? :=
  C.optional (C.nextAre _) C.header

theorem headerLine : C.Parsers (do Parse.skipNewlines; Parse.header?)
    (do Parse.skipNewlines; Parse.header?) :=
  C.bind C.skipNewlines fun _ => C.header?

theorem interfaceDecl : C.Parsers Parse.interfaceDecl Parse.interfaceDecl :=
  C.bind C.word fun _ => C.bind C.newlines fun _ => C.bind (C.expect _) fun _ =>
    C.bind (C.many C.headerLine) fun _ => C.bind (C.expect _) fun _ => C.bind (C.note _) fun _ =>
      C.pure _

theorem implemented : C.Parsers Parse.implemented Parse.implemented := by
  refine C.bind (C.nextAre _) fun b => ?_
  split
  · exact C.bind (C.expect _) fun _ => C.commaSeparated C.word
  · exact C.pure _

variable {C}

section

variable (h : C.Opens n n')
include h

theorem Opens.bodyOfItems : C.Parsers (Parse.methodBody n) (Parse.methodBody n') :=
  C.bind (C.toParse h.methodBody) fun _ => C.pure _

theorem Opens.constructor : C.Parsers (Parse.constructor n) (Parse.constructor n') :=
  C.bind C.parameterList fun _ => C.bind C.newlines fun _ => C.bind h.bodyOfItems fun _ => C.pure _

theorem Opens.method : C.Parsers (Parse.method n) (Parse.method n') := by
  refine C.bind (C.accept _) fun _ => C.bind (C.accept _) fun _ => C.bind C.header? fun hd => ?_
  cases hd with
  | some header => exact C.bind h.bodyOfItems fun _ => C.pure _
  | none => exact C.bind (C.expect _) fun _ => C.unexpected _

theorem Opens.classItem : C.Parsers (Parse.classItem n) (Parse.classItem n') := by
  refine C.bind C.nextKind? fun k => ?_
  split
  · exact C.bind (C.expect _) fun _ => C.bind h.constructor fun _ => C.pure _
  · exact C.bind h.method fun _ => C.pure _
  · exact C.bind h.method fun _ => C.pure _
  · refine C.bind (C.nextAre _) fun b => ?_
    split
    · exact C.bind h.method fun _ => C.pure _
    refine C.bind (C.nextAre _) fun b => ?_
    split
    · exact C.bind h.varDecls fun _ => C.pure _
    · exact C.bind (C.expect _) fun _ => C.unexpected _
  · exact C.unexpected _

theorem Opens.classDecl : C.Parsers (Parse.classDecl n) (Parse.classDecl n') :=
  C.bind C.word fun _ => C.bind C.implemented fun _ => C.bind C.newlines fun _ =>
    C.bind (C.block h.classItem) fun _ => C.bind (C.note _) fun _ => C.pure _

theorem Opens.declaration? : C.Parsers (Parse.declaration? n) (Parse.declaration? n') := by
  refine C.bind C.skipNewlines fun _ => C.bind C.nextKind? fun k => ?_
  split
  · exact C.pure _
  · exact C.bind (C.expect _) fun _ => C.bind h.classDecl fun _ => C.pure _
  · exact C.bind (C.expect _) fun _ => C.bind C.interfaceDecl fun _ => C.pure _
  · exact C.unexpected _

theorem Opens.program : C.Parsers (Parse.program n) (Parse.program n') :=
  C.bind (C.many h.declaration?) fun _ => C.pure _

end

end Comparison

end Offside
