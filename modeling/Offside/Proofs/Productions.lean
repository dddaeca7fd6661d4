import Offside.Proofs.Blame
import Offside.Proofs.Soundness

/-!
# Productions on any parser

What holds of every production, whatever tokens it meets, on success and on failure alike. It
comes to an end; it only takes tokens from the front, and closes each level of nesting that it has
opened; if it succeeds, it has taken a token (`Production.Took`); and if it fails where it stands,
the failure tells what stands there (`Production.error_here`).

What is repeated takes a token each time, so that the number of rounds, which bounds every
repetition of the model, is never met: the repetition without a bound comes to an end, with the
same result (`Parse.Repeats`). Nor is the bound on the recursion, since the levels of nesting are
used up before.
-/

namespace Offside

open Parse Grammar

namespace Parse

variable {α β : Type}

/-! ## Progress -/

/-- A success of `p` has taken at least one token. -/
def Advances (p : Parse α) : Prop :=
  ∀ ⦃s a s'⦄, p s = .ok a s' → s'.stream.size < s.stream.size

theorem size_lt_of_left {s s' : State} (h : Left s.lexemes s'.lexemes) :
    s'.stream.size < s.stream.size := by
  rw [size_eq, size_eq]
  exact h.2

theorem advances_of_sound {p : Parse α} {R : Phrase α} (hp : Sound p R) (hR : Consumes R) :
    Advances p :=
  fun _ _ _ h => size_lt_of_left (hR (hp h))

theorem size_le_of_reads {p : Parse α} (hp : ∀ start, Reads start p) {s s' : State} {a : α}
    (h : p s = .ok a s') : s'.stream.size ≤ s.stream.size := by
  have hend := hp s.stream s (.refl _)
  rw [h] at hend
  exact hend.tokens.length_le

theorem Advances.bind {p : Parse α} {f : α → Parse β} (hp : Advances p)
    (hf : ∀ a start, Reads start (f a)) : Advances (p >>= f) := by
  intro s b s' h
  obtain ⟨a, mid, ha, hb⟩ := bind_ok.mp h
  exact Nat.lt_of_le_of_lt (size_le_of_reads (hf a) hb) (hp ha)

theorem advances_bind {p : Parse α} {f : α → Parse β} (hp : ∀ start, Reads start p)
    (hf : ∀ a, Advances (f a)) : Advances (p >>= f) := by
  intro s b s' h
  obtain ⟨a, mid, ha, hb⟩ := bind_ok.mp h
  exact Nat.lt_of_lt_of_le (hf a hb) (size_le_of_reads hp ha)

theorem advances_commaSeparated {item : Parse α} {R : Phrase α} (hitem : Sound item R)
    (hR : Consumes R) : Advances (commaSeparated item) :=
  advances_of_sound (commaSeparated_sound hitem hR) (listed_consumes hR)

/-! ## Repetition without a bound -/

/-- Reading items until there are none, or one fails, with no bound on the rounds. -/
inductive Repeats (item? : Parse (Option α)) :
    State → List α × EStateM.Result Diagnostic State Unit → Prop
  | done {s s'} : item? s = .ok none s' → Repeats item? s ([], .ok () s')
  | failed {s d s'} : item? s = .error d s' → Repeats item? s ([], .error d s')
  | next {s a mid as ending} : item? s = .ok (some a) mid → Repeats item? mid (as, ending) →
      Repeats item? s (a :: as, ending)

/-- An item that is there takes at least one token. -/
def ItemAdvances (item? : Parse (Option α)) : Prop :=
  ∀ ⦃s a s'⦄, item? s = .ok (some a) s' → s'.stream.size < s.stream.size

theorem itemAdvances_of_sound {item? : Parse (Option α)} {R : Phrase (Option α)}
    (hitem : Sound item? R) (hR : Shrinks R) : ItemAdvances item? := by
  intro s a s' h
  rw [size_eq, size_eq]
  exact hR (hitem h)

theorem repeats_gatherUpTo {item? : Parse (Option α)} (h : ItemAdvances item?) :
    ∀ (rounds : Nat) (s : State), s.stream.size < rounds →
      Repeats item? s (gatherUpTo item? rounds s)
  | 0, _, hlt => absurd hlt (Nat.not_lt_zero _)
  | rounds + 1, s, hlt => by
    rw [gatherUpTo]
    cases hr : item? s with
    | error d s' => exact .failed hr
    | ok r mid =>
      cases r with
      | none => exact .done hr
      | some a =>
        have hmid := h hr
        exact .next hr (repeats_gatherUpTo h rounds mid (by omega))

/-- As long as items take tokens, the repetition with a bound is the one without. -/
theorem repeats_gather {item? : Parse (Option α)} (h : ItemAdvances item?) (s : State) :
    Repeats item? s (gather item? s) :=
  repeats_gatherUpTo h _ s (Nat.lt_succ_self _)

end Parse

/-- What is repeated: wherever a production gathers items until there are none, it gathers the
items of one of these. -/
inductive Loop where
  /-- The values of a call. -/
  | arguments
  /-- Names: the targets of an assignment, and the interfaces of a class. -/
  | names
  /-- Variables of one type. -/
  | namedValues (typeName : String)
  /-- Parameters. -/
  | parameters
  /-- Returned values. -/
  | returns
  /-- Factors behind multiplicative operators. -/
  | products
  /-- Terms behind additive operators. -/
  | sums
  /-- Statements of a block. -/
  | statements
  /-- Items of the body of a method or constructor. -/
  | bodyItems
  /-- Items of a class. -/
  | classItems
  /-- Arms on lines of their own. -/
  | arms
  /-- Headers of an interface. -/
  | headers
  /-- Declarations of a program. -/
  | declarations

namespace Loop

/-- What is read in one round. -/
def Item : Loop → Type
  | arguments => Expr
  | names => String
  | namedValues _ | parameters => VarDecl
  | returns => ReturnDecl
  | products | sums => MathOp × Expr
  | statements => Stmt
  | bodyItems => BodyItem
  | classItems => ClassItem
  | arms => Arm
  | headers => MethodHeader
  | declarations => Declaration

/-- One round. -/
def item? : (l : Loop) → Nested → Parse (Option l.Item)
  | arguments, nested => optional (accept .comma) nested.expression
  | names, _ => optional (accept .comma) word
  | namedValues typeName, nested => optional (accept .comma) (namedValue nested typeName)
  | parameters, _ => optional (accept .comma) parameter
  | returns, _ => optional (accept .comma) returned
  | products, nested =>
    operation? (takeMeaning? MathOp.multiplicative?) (factor nested.expression)
  | sums, nested => operation? (takeMeaning? MathOp.additive?) (term nested.expression)
  | statements, nested => line? (statement nested)
  | bodyItems, nested => line? (bodyItem nested)
  | classItems, nested => line? (classItem nested)
  | arms, nested => optional acceptElseLineIf (arm nested)
  | headers, _ => do skipNewlines; header?
  | declarations, nested => declaration? nested

theorem uniform : ∀ l : Loop, Uniform l.item?
  | arguments => fun C _ _ h => C.optional (C.accept _) h.expression
  | names => fun C _ _ _ => C.optional (C.accept _) C.word
  | namedValues _ => fun C _ _ h => C.optional (C.accept _) (h.namedValue _)
  | parameters => fun C _ _ _ => C.optional (C.accept _) C.parameter
  | returns => fun C _ _ _ => C.optional (C.accept _) C.returned
  | products => fun C _ _ h => C.operation? (C.takeMeaning? _) (C.factor h.expression)
  | sums => fun C _ _ h => C.operation? (C.takeMeaning? _) (C.term h.expression)
  | statements => fun C _ _ h => C.line? h.statement
  | bodyItems => fun C _ _ h => C.line? h.bodyItem
  | classItems => fun C _ _ h => C.line? h.classItem
  | arms => fun _ _ _ h => h.elseArm
  | headers => fun C _ _ _ => C.headerLine
  | declarations => fun _ _ _ h => h.declaration?

/-- One round takes a token, unless it is the last. -/
theorem item_advances (n : Nat) : ∀ l : Loop, ItemAdvances (l.item? (nested n)) := by
  have hs := nested_sound n
  have hi := deeper_consumes n
  have hmarked : ∀ {α : Type} {item : Parse α} {R : Phrase α}, Sound item R → Consumes R →
      ItemAdvances (optional (accept .comma) item) := fun hitem hR =>
    itemAdvances_of_sound (optional_accept_sound hitem .comma) (marked_shrinks hR .comma)
  have hline : ∀ {α : Type} {item : Parse α} {R : Phrase α}, Sound item R → Consumes R →
      ItemAdvances (line? item) := fun hitem hR =>
    itemAdvances_of_sound (line?_sound hitem) (line_shrinks hR)
  have hfactor := factor_sound hs.expression hi.expression
  have hfactor' := factor_consumes hi.expression
  intro l
  cases l with
  | arguments => exact hmarked hs.expression hi.expression
  | names => exact hmarked word_sound word_consumes
  | namedValues typeName =>
    exact hmarked (namedValue_sound hs typeName) (namedValue_consumes hi.expression typeName)
  | parameters => exact hmarked parameter_sound parameter_consumes
  | returns => exact hmarked returned_sound returned_consumes
  | products => exact itemAdvances_of_sound (operation?_sound hfactor) (operation_shrinks hfactor')
  | sums =>
    exact itemAdvances_of_sound (operation?_sound (leftAssociative_sound hfactor hfactor'))
      (operation_shrinks (chain_consumes hfactor'))
  | statements => exact hline (statement_sound hs hi) (statement_consumes hi)
  | bodyItems => exact hline (bodyItem_sound hs hi) (item_consumes hi)
  | classItems => exact hline (classItem_sound hs hi) (classPart_consumes hi)
  | arms => exact itemAdvances_of_sound (elseArm_sound hs) (elseArm_shrinks hi)
  | headers => exact itemAdvances_of_sound headerLine_sound headerLine_shrinks
  | declarations =>
    exact itemAdvances_of_sound (declaration?_sound hs hi) (declarationLine_shrinks hi)

theorem unrolled_advances (l : Loop) (times : Nat) : ItemAdvances (l.item? (.unrolled times)) := by
  intro s a s' h
  rw [l.uniform.unrolled_eq] at h
  exact l.item_advances _ h

end Loop

/-! ## The productions -/

/-- A production, by its name. A body and a condition on the line of its `else` are the same as the
block and the condition inside them, one level deeper; so is an expression, which is a sum. -/
inductive Production where
  /-- A whole program. -/
  | program
  /-- A class. -/
  | classDecl
  /-- An interface. -/
  | interfaceDecl
  /-- The header of a method, if there is one. -/
  | header
  /-- Parameters, if there are any. -/
  | parameters
  /-- Returned values. -/
  | returns
  /-- A constructor. -/
  | constructor
  /-- A method. -/
  | method
  /-- A line of variable declarations. -/
  | varDecls
  /-- The body of a statement. -/
  | body
  /-- The block that such a body is. -/
  | block
  /-- The body of a method or constructor. -/
  | methodBody
  /-- The block that such a body is. -/
  | methodBlock
  /-- A statement. -/
  | statement
  /-- An assignment. -/
  | assignment
  /-- A condition with its arms. -/
  | conditional
  /-- A condition on the line of its `else`. -/
  | elseIf
  /-- A loop. -/
  | loop
  /-- An expression. -/
  | expression
  /-- Terms with additive operators between them. -/
  | sum
  /-- Factors with multiplicative operators between them. -/
  | term
  /-- An operand of the tightest operators. -/
  | factor
  /-- A call, if there is one. -/
  | call
  /-- The values of a call. -/
  | arguments
  /-- What is wanted as a condition. -/
  | condition

namespace Production

/-- What the production returns. -/
def Result : Production → Type
  | program => Program
  | classDecl => Class
  | interfaceDecl => Interface
  | header => Option MethodHeader
  | parameters | varDecls => List VarDecl
  | returns => List ReturnDecl
  | constructor => Constructor
  | method => Method
  | body | block => List Stmt
  | methodBody | methodBlock => List BodyItem
  | statement | assignment | conditional | elseIf | loop => Stmt
  | expression | sum | term | factor | condition => Expr
  | call => Option Call
  | arguments => List Expr

/-- The production itself. -/
def parse : (x : Production) → Nested → Parse x.Result
  | program => Parse.program
  | classDecl => Parse.classDecl
  | interfaceDecl => fun _ => Parse.interfaceDecl
  | header => fun _ => Parse.header?
  | parameters => fun _ => Parse.parameters
  | returns => fun _ => Parse.returns
  | constructor => Parse.constructor
  | method => Parse.method
  | varDecls => Parse.varDecls
  | body => Nested.body
  | block => fun nested => Parse.block (Parse.statement nested)
  | methodBody => fun nested => nested.methodBody.toParse
  | methodBlock => fun nested => Parse.block (Parse.bodyItem nested)
  | statement => Parse.statement
  | assignment => Parse.assignment
  | conditional => Parse.conditional
  | elseIf => Nested.elseIf
  | loop => Parse.loop
  | expression => Nested.expression
  | sum => fun nested => Parse.sum nested.expression
  | term => fun nested => Parse.term nested.expression
  | factor => fun nested => Parse.factor nested.expression
  | call => fun nested => Parse.call? nested.expression
  | arguments => fun nested => Parse.arguments nested.expression
  | condition => fun nested => Parse.condition nested.expression

theorem uniform : ∀ x : Production, Uniform x.parse
  | program => uniform_program
  | classDecl => fun _ _ _ h => h.classDecl
  | interfaceDecl => fun C _ _ _ => C.interfaceDecl
  | header => fun C _ _ _ => C.header?
  | parameters => fun C _ _ _ => C.parameters
  | returns => fun C _ _ _ => C.returns
  | constructor => fun _ _ _ h => h.constructor
  | method => fun _ _ _ h => h.method
  | varDecls => fun _ _ _ h => h.varDecls
  | body => fun _ _ _ h => h.body
  | block => fun C _ _ h => C.block h.statement
  | methodBody => fun C _ _ h => C.toParse h.methodBody
  | methodBlock => fun C _ _ h => C.block h.bodyItem
  | statement => fun _ _ _ h => h.statement
  | assignment => fun _ _ _ h => h.assignment
  | conditional => fun _ _ _ h => h.conditional
  | elseIf => fun _ _ _ h => h.elseIf
  | loop => fun _ _ _ h => h.loop
  | expression => fun _ _ _ h => h.expression
  | sum => fun C _ _ h => C.sum h.expression
  | term => fun C _ _ h => C.term h.expression
  | factor => fun C _ _ h => C.factor h.expression
  | call => fun C _ _ h => C.call? h.expression
  | arguments => fun C _ _ h => C.arguments h.expression
  | condition => fun C _ _ h => C.condition h.expression

/-! ## What a success has taken -/

/-- What a success with the given result has taken of `before` if it leaves `left`: a program
everything, what is not there nothing, and all else at least one token. -/
def Took : (x : Production) → x.Result → Stream → Stream → Prop
  | program, _, _, left => left.tokens = []
  | header, none, before, left | call, none, before, left | parameters, [], before, left =>
    left = before
  | _, _, before, left => left.size < before.size

/-- A program ends with the tokens. -/
theorem took_program {n : Nat} {s s' : State} {p : Program}
    (h : Parse.program (nested n) s = .ok p s') : s'.stream.tokens = [] := by
  obtain ⟨ds, t, hds, h₁⟩ := bind_ok.mp h
  obtain ⟨-, rfl⟩ := pure_ok.mp h₁
  have hi := deeper_consumes n
  have huntil := many_sound (declaration?_sound (nested_sound n) hi) (declarationLine_shrinks hi) hds
  have hend : ∀ {ls ds rest}, Until (DeclarationLine (deeper n)) ls ds rest → rest = [] := by
    intro ls ds rest hu
    induction hu with
    | stop hstop =>
      cases hstop
      rfl
    | next _ _ ih => exact ih
  exact List.map_eq_nil_iff.mp (hend huntil)

theorem took_parameters {s s' : State} {ds : List VarDecl} (h : Parse.parameters s = .ok ds s') :
    parameters.Took ds s.stream s'.stream := by
  obtain ⟨b, _, hb, h₁⟩ := bind_ok.mp h
  obtain ⟨-, rfl⟩ := nextAre_ok.mp hb
  split at h₁
  · have hlt := advances_commaSeparated parameter_sound parameter_consumes h₁
    obtain ⟨first, _, -, h₂⟩ := bind_ok.mp h₁
    obtain ⟨rest, _, -, h₃⟩ := bind_ok.mp h₂
    obtain ⟨rfl, rfl⟩ := pure_ok.mp h₃
    exact hlt
  · obtain ⟨rfl, rfl⟩ := pure_ok.mp h₁
    rfl

theorem returns_advances : Advances Parse.returns := by
  refine advances_bind (reading.nextAre _) fun b => ?_
  split
  · exact advances_commaSeparated returned_sound returned_consumes
  · rintro _ _ _ ⟨⟩

theorem constructor_advances {nested : Nested} (hN : reading.Opens nested nested) :
    Advances (Parse.constructor nested) :=
  (advances_of_sound parameterList_sound parameterList_consumes).bind fun _ =>
    reading.bind reading.newlines fun _ => reading.bind hN.bodyOfItems fun _ => reading.pure _

section

variable {nested : Nested} {inner : Deeper} (hs : SoundNested nested inner) (hi : inner.Consumes)
include hs hi

theorem assignment_advances : Advances (Parse.assignment nested) := by
  intro s st s' h
  exact size_lt_of_left (plain_consumes hi (assignment_ok hs h))

theorem method_advances : Advances (Parse.method nested) := by
  intro s m s' h
  exact size_lt_of_left (classPart_consumes hi (method_ok hs h))

theorem loop_advances (hN : reading.Opens nested nested) : Advances (Parse.loop nested) := by
  refine advances_bind reading.loopVariable fun _ => Advances.bind ?_ fun _ => ?_
  · exact advances_of_sound (condition_sound hs.expression) (condition_consumes hi.expression)
  · exact reading.bind (reading.expect _) fun _ => reading.bind hN.body fun _ => reading.pure _

end

/-- A success has taken what it had to take. -/
theorem took {n : Nat} {s s' : State} : ∀ {x : Production} {a : x.Result},
    x.parse (nested n) s = .ok a s' → x.Took a s.stream s'.stream := by
  have hs := nested_sound n
  have hi := deeper_consumes n
  have hN := reading.nested n
  have hfactor := factor_sound hs.expression hi.expression
  have hfactor' := factor_consumes hi.expression
  intro x a h
  cases x with
  | program => exact took_program h
  | classDecl => exact advances_of_sound (classDecl_sound hs hi) (classDecl_consumes hi) h
  | interfaceDecl => exact advances_of_sound interfaceDecl_sound interfaceDecl_consumes h
  | header =>
    rcases header?_ok h with ⟨rfl, rfl⟩ | ⟨hd, rfl, hhd⟩
    · rfl
    · exact size_lt_of_left (header_consumes hhd)
  | parameters => exact took_parameters h
  | returns => exact returns_advances h
  | constructor => exact constructor_advances hN h
  | method => exact method_advances hs hi h
  | varDecls => exact advances_of_sound (varDecls_sound hs hi) (varDecls_consumes hi.expression) h
  | body => exact advances_of_sound hs.body hi.body h
  | block =>
    exact advances_of_sound (block_sound (statement_sound hs hi) (statement_consumes hi))
      (block_consumes (statement_consumes hi)) h
  | methodBody => exact advances_of_sound hs.methodBody hi.methodBody h
  | methodBlock =>
    exact advances_of_sound (block_sound (bodyItem_sound hs hi) (item_consumes hi))
      (block_consumes (item_consumes hi)) h
  | statement => exact advances_of_sound (statement_sound hs hi) (statement_consumes hi) h
  | assignment => exact assignment_advances hs hi h
  | conditional => exact advances_of_sound (conditional_sound hs hi) (conditional_consumes hi) h
  | elseIf => exact advances_of_sound hs.elseIf hi.elseIf h
  | loop => exact loop_advances hs hi hN h
  | expression => exact advances_of_sound hs.expression hi.expression h
  | sum =>
    exact advances_of_sound (sum_sound hs.expression hi.expression)
      (sum_consumes hi.expression) h
  | term =>
    exact advances_of_sound (leftAssociative_sound hfactor hfactor')
      (chain_consumes hfactor') h
  | factor => exact advances_of_sound hfactor hfactor' h
  | call =>
    rcases call?_sound hs.expression hi.expression h with ⟨rfl, rfl⟩ | ⟨c, rfl, hc⟩
    · rfl
    · exact size_lt_of_left (callPhrase_consumes hi.expression hc)
  | arguments =>
    exact advances_of_sound (arguments_sound hs.expression hi.expression)
      (arguments_consumes hi.expression) h
  | condition =>
    exact advances_of_sound (condition_sound hs.expression)
      (condition_consumes hi.expression) h

end Production

/-! ## All productions -/

/-- What holds of running the production on the parser, whatever it returns. -/
structure Production.Keeps (x : Production) (p : Parser) : Prop where
  tokens : (p.run x.parse).2.state.stream.tokens <:+ p.state.stream.tokens
  last : (p.run x.parse).2.state.stream.last = p.state.stream.last
  depth : (p.run x.parse).2.depth = p.depth
  took : ∀ a, (p.run x.parse).1 = .ok a → x.Took a p.state.stream (p.run x.parse).2.state.stream

theorem Production.keeps (x : Production) (p : Parser) : x.Keeps p := by
  have hends := x.uniform.reads (maxNesting - p.depth) p.state.stream p.state (.refl _)
  have hdepth := x.uniform.depth_restored p
  cases hr : x.parse (nested (maxNesting - p.depth)) p.state with
  | ok a s' =>
    have hrun : p.run x.parse = (.ok a, ⟨s'⟩) := by rw [p.run_eq x.uniform, hr]
    rw [hr] at hends
    refine ⟨?_, ?_, hdepth, ?_⟩ <;> rw [hrun]
    · exact hends.tokens
    · exact hends.last
    · rintro _ ⟨⟩
      exact took hr
  | error d s' =>
    have hrun : p.run x.parse = (.error d, ⟨s'⟩) := by rw [p.run_eq x.uniform, hr]
    rw [hr] at hends
    refine ⟨?_, ?_, hdepth, ?_⟩ <;> rw [hrun]
    · exact hends.1.tokens
    · exact hends.1.last
    · rintro _ ⟨⟩

/-- Every production ends: what it repeats ends without a bound too, and its recursion does the
same with any larger bound. It closes each level that it opens, on success and on failure. It only
takes tokens from the front, and if it succeeds it has taken what it had to take. -/
theorem productions_keep :
    (∀ (l : Loop) (times : Nat) (s : State),
      Repeats (l.item? (.unrolled times)) s (gather (l.item? (.unrolled times)) s)) ∧
    (∀ (x : Production) (more : Nat) (s : State),
      x.parse (.unrolled (maxNesting + more)) s = x.parse .productions s) ∧
    ∀ (x : Production) (p : Parser), x.Keeps p :=
  ⟨fun l times s => repeats_gather (l.unrolled_advances times) s,
    fun x more s => x.uniform.unrolled_eq_productions more s, Production.keeps⟩

/-! ## Failures -/

/-- The causes that show where the stream stands: the other two that a parser fails for look back
to where it started. -/
def Cause.ShowsAhead : Cause → Prop
  | unexpectedToken _ _ | prematureEnd _ | nestingTooDeep _ | localsOutsideMethod
  | missingReturnDeclaration => True
  | _ => False

theorem Diagnostic.Blames.ahead {d : Diagnostic} {start left : Stream} (h : d.Blames start left)
    (hd : d.cause.ShowsAhead) : d.position = left.position := by
  unfold Blames at h
  split at h
  case h_1 | h_2 => exact h.1
  case h_3 hc | h_4 hc => simp [hc, Cause.ShowsAhead] at hd
  case h_5 => exact h

/-- A failure tells where the parser has stopped and what stands there; if nothing does, it tells
where the last token of all stood. -/
theorem Production.error_here {x : Production} {p p' : Parser} {d : Diagnostic}
    (h : p.run x.parse = (.error d, p')) :
    (d.cause.ShowsAhead → d.position = p'.state.stream.position) ∧
    (∀ expected found, d.cause = .unexpectedToken expected found →
      ∃ t rest, p'.state.stream.tokens = t :: rest ∧ found = t.kind.name) ∧
    (∀ expected, d.cause = .prematureEnd expected → p'.state.stream.tokens = [] ∧
      d.position = p.state.stream.last ∧
      ∀ tokens, (Stream.ofList tokens).Leads p.state.stream →
        d.position = (tokens.getLast?.map Token.position).getD Position.start) := by
  obtain ⟨hleads, hblames⟩ : p.state.stream.Leads p'.state.stream ∧
      d.Blames p.state.stream p'.state.stream := by
    have hends := x.uniform.reads (maxNesting - p.depth) p.state.stream p.state (.refl _)
    rw [p.run_eq x.uniform] at h
    split at h
    · cases h
    · next hr =>
      cases h
      rw [hr] at hends
      exact hends
  refine ⟨hblames.ahead, fun expected found hd => ?_, fun expected hd => ?_⟩
  · rw [Diagnostic.Blames, hd] at hblames
    obtain ⟨t, ht, hfound⟩ := Option.map_eq_some_iff.mp hblames.2
    obtain ⟨rest, hrest⟩ := List.head?_eq_some_iff.mp ht
    exact ⟨t, rest, hrest, hfound.symm⟩
  · rw [Diagnostic.Blames, hd] at hblames
    have hlast : d.position = p.state.stream.last := by
      rw [hblames.1, Stream.position, hblames.2]
      exact hleads.last
    exact ⟨hblames.2, hlast, fun tokens htokens => hlast.trans htokens.last⟩

/-- A parser inside a loop whose condition has been cut off, with one level left. -/
def cutLoopParser : Parser :=
  ⟨⟨Stream.ofList [.plain .kwLoop ⟨2, 1⟩, ⟨.word, ⟨2, 6⟩, some "a"⟩, .plain .lessThan ⟨2, 8⟩], #[],
    127⟩⟩

theorem error_here_cutLoop : ∃ d p', cutLoopParser.run Production.statement.parse = (.error d, p') ∧
    d.cause.ShowsAhead ∧ d.position = ⟨2, 8⟩ := by
  have h : cutLoopParser.run Production.statement.parse =
      (.error ⟨.prematureEnd (Kind.describe factorStarts), ⟨2, 8⟩⟩,
        ⟨⟨⟨[], ⟨2, 8⟩⟩, #[], 127⟩⟩) := rfl
  obtain ⟨-, -, hend⟩ := Production.error_here h
  exact ⟨_, _, h, trivial, (hend _ rfl).2.2 _ (.refl _)⟩

end Offside
