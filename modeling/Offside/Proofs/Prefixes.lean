import Offside.Proofs.Acceptance
import Offside.Proofs.Blame
import Offside.Proofs.Viable

/-!
# What has been read begins a program

The productions are viable for the phrases of the grammar that they read, and what can be opened
within some levels of nesting is viable for what can stand within two more (`nested_viable`):
one for an `else` with a condition, whose phrase has to exist where no level is left, and one for
the expression and the body in it. So where the parser fails because of the next token, the
tokens before it begin a program (`run_program_viable`).
-/

namespace Offside

open Grammar

namespace Parse

/-! ## Expressions -/

section

variable {p : Parse Expr} {E : Phrase Expr} (hp : Viable p E) (hs : Sound p E) (hE : Consumes E)
include hp hs hE

theorem arguments_viable : Viable (arguments p) (Arguments E) := by
  refine viable_accept (viable_pure fun _ _ => .none) ?_
  exact viable_bind (viable_commaSeparated hp hs hE) fun _ =>
    viable_expect (viable_pure fun _ _ _ hlist => .some hlist)

/-- A call behind a receiver that has been read, or behind none. -/
inductive CallOn (E : Phrase Expr) (receiver : Option String) : Phrase Call
  | mk {v w ls es rest} : Arguments E ls es rest →
      CallOn E receiver (⟨.word, v⟩ :: ⟨.leftParen, w⟩ :: ls) ⟨receiver, v.getD "", es⟩ rest

theorem callOn_viable (receiver : Option String) :
    Viable (callOn p receiver) (CallOn E receiver) := by
  refine viable_bind viable_word fun x => viable_expect <|
    viable_bind (arguments_viable hp hs hE) fun es => viable_pure ?_
  rintro rest ls hes v _ ⟨⟩
  exact .mk hes

theorem call?_viable : Viable (call? p) (Maybe (CallPhrase E)) := by
  refine viable_look fun b => ?_
  split
  · refine viable_bind viable_word fun x => viable_expect <|
      viable_bind (callOn_viable hp hs hE _) fun c => viable_pure ?_
    rintro rest _ ⟨hes⟩ v _ ⟨⟩
    exact .present (.onReceiver hes)
  refine viable_look fun b => ?_
  split
  · refine viable_bind (callOn_viable hp hs hE _) fun c => viable_pure ?_
    rintro rest _ ⟨hes⟩
    exact .present (.alone hes)
  · exact viable_pure fun _ => .absent

omit hp hs hE in
theorem factor_fills : Fills (Factor E) :=
  ⟨.var "", fun _ => ⟨⟨.word, none⟩ :: _, .var .mk⟩⟩

omit hp hs hE in
/-- Nothing behind a literal without a character makes a factor of it, so this is no sequence to
be completed: such a literal is blamed for that, and a token of another kind is not taken. -/
theorem character_viable : Viable character (Factor E) where
  fills := factor_fills
  recuts := by
    intro s e s' h left new rest' hswap
    obtain ⟨v, c, cs, hl, hc, rfl⟩ := character_ok h
    rw [hl]
    exact ⟨_, new, .character hc, .cons hswap⟩
  opens := by
    intro s d s' h hd
    rcases bind_error.mp h with ⟨⟨⟩⟩ | ⟨here, _, hhere, h₁⟩
    obtain ⟨-, rfl⟩ := look_ok.mp hhere
    rcases bind_error.mp h₁ with htoken | ⟨t, u, -, h₂⟩
    · rw [expect_error htoken]
      refine ⟨.character 'a', fun rest => ?_⟩
      exact ⟨⟨.quotedCharacter, some "a"⟩ :: rest, _, .character (rfl : "a".toList = ['a']), .here⟩
    · cases hc : t.text.toList with
      | cons c cs =>
        rw [hc] at h₂
        cases h₂
      | nil =>
        rw [hc] at h₂
        cases h₂
        cases hd

theorem factor_viable : Viable (factor p) (Factor E) := by
  refine viable_look fun k => ?_
  split
  · refine viable_bind (viable_token _) fun t => viable_pure ?_
    rintro rest _ ⟨⟩
    exact .number
  · refine viable_bind (viable_token _) fun t => viable_pure ?_
    rintro rest _ ⟨⟩
    exact .string
  · exact character_viable
  · exact viable_expect <| viable_bind hp fun _ => viable_expect <|
      viable_pure fun _ _ _ he _ => .parens he
  · refine viable_expect <| viable_bind viable_word fun x => viable_expect <|
      viable_bind (arguments_viable hp hs hE) fun es => viable_pure ?_
    rintro rest ls hes v _ ⟨⟩ u
    exact .new hes
  · refine viable_bind (call?_viable hp hs hE) fun c => ?_
    split
    · refine viable_pure ?_
      rintro rest _ (_ | hc)
      exact .call hc
    · refine viable_bind viable_word fun x => viable_pure ?_
      rintro rest ls hx _ ⟨⟩
      exact .var hx
  · exact viable_unexpected factor_fills

theorem sum_viable : Viable (sum p) (Sum E) := by
  have hfactor := factor_consumes hE
  exact viable_leftAssociative (viable_leftAssociative (factor_viable hp hs hE)
    (factor_sound hs hE) hfactor) (leftAssociative_sound (factor_sound hs hE) hfactor)
    (chain_consumes hfactor)

omit hs hE in
theorem condition_viable : Viable (condition p) (Condition E) := by
  refine viable_look fun _ => viable_bind hp fun left =>
    viable_bind (viable_takeMeaning? _) fun o => ?_
  split
  · refine viable_bind hp fun right => viable_pure ?_
    rintro rest ls hr _ (_ | ⟨⟨hk⟩⟩) front hl
    exact .compare hl hk hr
  split
  · refine viable_pure ?_
    rintro rest _ ⟨⟩ front hl
    exact .call hl
  · refine viable_pure ?_
    rintro rest _ ⟨⟩ front hl
    exact .var hl
  -- What is no condition alone can still be compared.
  · refine viable_fail id ?_
    obtain ⟨right, hright⟩ := hp.fills
    refine ⟨.compare .equal left right, fun rest => ?_⟩
    obtain ⟨mid, hmid⟩ := hright rest
    refine ⟨⟨.equal, none⟩ :: mid, ?_⟩
    rintro _ ⟨⟩ front hl
    exact .compare hl rfl hmid

end

/-! ## Statements -/

/-- Whatever can be opened is viable for what can stand deeper. -/
structure ViableNested (nested : Nested) (inner : Deeper) : Prop where
  expression : Viable nested.expression inner.expression
  body : Viable nested.body inner.body
  methodBody : Viable nested.methodBody.toParse inner.methodBody
  elseIf : Viable nested.elseIf inner.elseIf

section

variable {nested : Nested} {inner : Deeper} (hv : ViableNested nested inner)
  (hs : SoundNested nested inner) (hi : inner.Consumes)
include hv

theorem namedValue_viable (typeName : String) :
    Viable (namedValue nested typeName) (NamedValue inner.expression typeName) := by
  refine viable_bind viable_word fun x =>
    viable_bind (viable_optional_accept hv.expression _) fun value => viable_pure ?_
  rintro rest _ (_ | ⟨⟨he⟩⟩) ls hx
  · exact .bare hx
  · exact .valued hx he

theorem loop_viable : Viable (loop nested) (Behind .kwLoop (Plain inner)) := by
  have hname : Viable (optional (nextAre [.word, .assign]) do
      let name ← word
      discard (expect .assign)
      return name) (Maybe fun ls x rest => ∃ v, Word ls x (⟨.assign, v⟩ :: rest)) := by
    refine viable_optional_look (viable_bind viable_word fun x => viable_expect ?_) _
    exact viable_pure fun ls v front hx => ⟨v, hx⟩
  refine viable_bind hname fun x => viable_bind (condition_viable hv.expression) fun c =>
    viable_expect <| viable_bind hv.body fun b => viable_pure ?_
  rintro rest mid hb w ls hc front (_ | ⟨u, hx⟩) v
  · exact .loop hc hb
  · exact .loopIn hx hc hb

theorem assignment_viable : Viable (assignment nested) (Plain inner) :=
  viable_bind (viable_commaSeparated viable_word word_sound word_consumes) fun _ =>
    viable_expect <| viable_bind hv.expression fun _ => viable_bind viable_lineEnd fun _ =>
      viable_note <| viable_pure fun _ _ hend _ he _ _ hxs => .assign hxs he hend

/-- An arm with the empty lines behind it. -/
inductive ArmLines (inner : Deeper) : Phrase Arm
  | mk {ls a mid rest} : Guarded inner ls a mid → Newlines mid rest → ArmLines inner ls a rest

theorem arm_viable : Viable (arm nested) (ArmLines inner) :=
  viable_bind (condition_viable hv.expression) fun _ => viable_expect <|
    viable_bind hv.body fun _ => viable_bind viable_skipNewlines fun _ =>
      viable_pure fun _ _ hn _ hb _ _ hc => .mk (.mk hc hb) hn

/-- `else` with a condition on a line of its own, up to the condition. -/
inductive ElseLineIf : Phrase Bool
  | absent {ls} : ElseLineIf ls false ls
  | present {v w behind u rest} : Newlines behind (⟨.kwIf, u⟩ :: rest) →
      ElseLineIf (⟨.kwElse, v⟩ :: ⟨.newline, w⟩ :: behind) true rest

omit hv in
theorem acceptElseLineIf_viable : Viable acceptElseLineIf ElseLineIf where
  fills := ⟨false, fun _ => ⟨_, .absent⟩⟩
  recuts := by
    intro s b s' h left new rest' hswap
    rw [acceptElseLineIf] at h
    split at h
    · rename_i rest hrest
      cases h
      obtain ⟨v, w, behind, u, hl, hif⟩ := behindElseLineIf?_some hrest
      obtain ⟨behind', hif', hbehind⟩ := hif.swap (.cons hswap)
      rw [State.lexemes, hl]
      exact ⟨_, new, .present hif', .cons (.cons hbehind)⟩
    · cases h
      exact ⟨rest', new, .absent, hswap⟩
  opens := by
    intro s d s' h
    rw [acceptElseLineIf] at h
    split at h <;> cases h

theorem elseArm_viable : Viable (optional acceptElseLineIf (arm nested)) (ElseArm inner) := by
  refine viable_bind acceptElseLineIf_viable fun b => ?_
  cases b with
  | false =>
    refine viable_pure ?_
    rintro ls _ ⟨⟩
    exact .absent
  | true =>
    refine viable_bind (arm_viable hv) fun a => viable_pure ?_
    rintro rest start ⟨ha, hn⟩ _ (_ | ⟨hif⟩)
    exact .present hif ha hn

include hs hi

theorem varDecls_viable : Viable (varDecls nested) (VarDecls inner.expression) := by
  refine viable_bind viable_word fun x => viable_bind
    (viable_commaSeparated (namedValue_viable hv x) (namedValue_sound hs x)
      (namedValue_consumes hi.expression x)) fun ds =>
    viable_bind viable_lineEnd fun _ => viable_pure ?_
  rintro rest mid hend ls hds _ ⟨⟩
  exact .mk hds hend

theorem callOrAssignment_viable : Viable (callOrAssignment nested) (Plain inner) := by
  refine viable_bind (call?_viable hv.expression hs.expression hi.expression) fun c => ?_
  split
  · refine viable_bind viable_lineEnd fun _ => viable_note <| viable_pure ?_
    rintro rest mid hend ls (_ | hc)
    exact .call hc hend
  · exact (assignment_viable hv).mono within_after_absent

omit hv hs hi in
theorem plain_fills : Fills (Plain inner) :=
  ⟨.call none ⟨none, "", []⟩, fun _ => ⟨⟨.word, none⟩ :: ⟨.leftParen, none⟩ ::
    ⟨.rightParen, none⟩ :: ⟨.newline, none⟩ :: _, .call (.alone .none) .newline⟩⟩

theorem plainStatement_viable : Viable (plainStatement nested) (Plain inner) := by
  refine viable_look fun k => ?_
  split
  · exact viable_expect (loop_viable hv)
  · refine viable_look fun b => ?_
    split
    · exact viable_failHere id plain_fills
    · exact callOrAssignment_viable hv hs hi
  · exact viable_unexpected plain_fills

theorem otherwise_viable : Viable (otherwise nested) (Alternative inner) := by
  refine viable_accept (viable_accept ?_ ?_) (viable_pure fun _ => .nothing)
  · exact viable_bind hv.elseIf fun _ => viable_pure fun _ _ hst _ _ => .elseIf hst
  · refine viable_bind viable_newlines fun _ => viable_look fun b => ?_
    split
    · refine viable_bind hv.body fun b => viable_pure ?_
      rintro rest ls hb _ ⟨hn⟩ v
      exact .block hn hb
    · refine viable_bind (plainStatement_viable hv hs hi) fun st => viable_pure ?_
      rintro rest ls hst _ ⟨hn⟩ v
      exact .line hn hst

theorem conditional_viable : Viable (conditional nested) (Conditional inner) := by
  have harms := viable_many (elseArm_viable hv) (elseArm_sound hs) (elseArm_shrinks hi)
    fun _ => ⟨_, .absent⟩
  refine viable_bind (arm_viable hv) fun first => viable_bind harms fun arms =>
    viable_bind (otherwise_viable hv hs hi) fun o => viable_pure ?_
  rintro rest ts ho ms harms _ ⟨hfirst, hn⟩
  exact conditional_ofArms harms ho hfirst hn

theorem statement_viable : Viable (statement nested) (Statement inner) :=
  viable_accept ((conditional_viable hv hs hi).mono fun _ _ _ hst _ => .cond hst)
    ((plainStatement_viable hv hs hi).mono fun _ _ _ hst => .plain hst)

theorem bodyItem_viable : Viable (bodyItem nested) (Item inner) := by
  refine viable_look fun b => ?_
  split
  · exact viable_bind (varDecls_viable hv hs hi) fun _ => viable_pure fun _ _ hds => .locals hds
  · exact viable_bind (statement_viable hv hs hi) fun _ =>
      viable_pure fun _ _ hst => .statement hst

end

theorem block_fills (item : Phrase α) : Fills (Block item) :=
  ⟨[], fun _ => ⟨⟨.indent, none⟩ :: ⟨.dedent, none⟩ :: _, .mk .none (.done .none)⟩⟩

theorem conditional_fills (n : Nat) : Fills (Conditional (deeper (n + 1))) := by
  obtain ⟨b, hb⟩ := block_fills (Statement (deeper n))
  refine ⟨.cond (.var "") b .nothing, fun rest => ?_⟩
  obtain ⟨mid, hmid⟩ := hb rest
  refine ⟨⟨.word, none⟩ :: ⟨.newline, none⟩ :: mid, .alone (.mk (v := none) (.var ?_) hmid) .none⟩
  exact .first (.first (.var .mk))

/-- Where nothing can be opened, that is blamed and not what stands there. -/
theorem closed_viable (n : Nat) : ViableNested .closed (deeper (n + 2)) where
  expression := viable_failHere id
    ⟨.var "", fun _ => ⟨⟨.word, none⟩ :: _, .first (.first (.var .mk))⟩⟩
  body := viable_failHere id (block_fills _)
  methodBody := viable_failHere id (block_fills _)
  elseIf := viable_failHere id (conditional_fills n)

theorem nested_sound_within {m n : Nat} (h : m ≤ n) : SoundNested (nested m) (deeper n) where
  expression := fun _ _ _ hr => (deeper_mono h).expression ((nested_sound m).expression hr)
  body := fun _ _ _ hr => (deeper_mono h).body ((nested_sound m).body hr)
  methodBody := fun _ _ _ hr => (deeper_mono h).methodBody ((nested_sound m).methodBody hr)
  elseIf := fun _ _ _ hr => (deeper_mono h).elseIf ((nested_sound m).elseIf hr)

theorem nested_viable : ∀ n : Nat, ViableNested (nested n) (deeper (n + 2))
  | 0 => closed_viable 0
  | n + 1 =>
    have hv := nested_viable n
    have hs := nested_sound_within (Nat.le_add_right n 2)
    have hi := deeper_consumes (n + 2)
    ⟨sum_viable hv.expression hs.expression hi.expression,
      viable_block (statement_viable hv hs hi) (statement_sound hs hi) (statement_consumes hi),
      viable_block (bodyItem_viable hv hs hi) (bodyItem_sound hs hi) (item_consumes hi),
      conditional_viable hv hs hi⟩

/-! ## Declarations -/

theorem parameterList_viable : Viable parameterList ParameterList := by
  have hparameter : Viable parameter Parameter := by
    refine viable_bind viable_word fun x => viable_bind viable_word fun y => viable_pure ?_
    rintro rest _ ⟨⟩ _ ⟨⟩
    exact .mk
  refine viable_expect <| viable_bind (P := fun ls ds rest =>
    Listed Parameter ls ds rest ∨ ds = [] ∧ ls = rest) ?_ fun ds => viable_expect <| viable_pure ?_
  · refine viable_look fun b => ?_
    split
    · exact (viable_commaSeparated hparameter parameter_sound parameter_consumes).mono
        fun _ _ _ hds => .inl hds
    · exact viable_pure fun _ => .inr ⟨rfl, rfl⟩
  · rintro rest w ls (hds | ⟨rfl, rfl⟩) v
    · exact .some hds
    · exact .none

theorem returns_viable : Viable returns (Listed Returned) := by
  have hreturned : Viable returned Returned := by
    refine viable_bind viable_word fun x => viable_bind (viable_take? _) fun r => viable_pure ?_
    rintro rest _ (_ | ⟨⟨⟩⟩) _ ⟨⟩
    · exact .bare
    · exact .named
  refine viable_look fun b => ?_
  split
  · exact viable_commaSeparated hreturned returned_sound returned_consumes
  · exact viable_failHere id ⟨[⟨"", none⟩], fun _ => ⟨⟨.word, none⟩ :: _, .one .bare⟩⟩

theorem header_viable : Viable header Header := by
  refine viable_bind viable_word fun x => viable_bind parameterList_viable fun ds =>
    viable_accept ?_ ?_
  · refine viable_bind returns_viable fun rs => viable_bind viable_lineEnd fun _ => viable_pure ?_
    rintro rest mid hend ls hrs v start hds front hx
    exact .returning hx hds hrs hend
  · simp only [Bool.false_eq_true, if_false, pure_bind]
    refine viable_bind viable_lineEnd fun _ => viable_pure ?_
    rintro rest mid hend start hds front hx
    exact .bare hx hds hend

theorem headerLine_viable : Viable (do skipNewlines; header?) HeaderLine := by
  refine viable_bind viable_skipNewlines fun _ =>
    (viable_optional_look header_viable _).mono ?_
  rintro ls _ rest (_ | hh) front hn
  · exact .absent hn
  · exact .present hn hh

theorem interfaceDecl_viable : Viable interfaceDecl InterfaceDecl := by
  have hmany := viable_many headerLine_viable headerLine_sound headerLine_shrinks
    fun _ => ⟨_, .absent .none⟩
  refine viable_bind viable_word fun x => viable_bind viable_newlines fun _ => viable_expect <|
    viable_bind hmany fun hs => viable_expect <| viable_note <| viable_pure ?_
  rintro rest v mid hlines w _ ⟨hn⟩ ls hx
  exact .mk hx (.mk hn (lines_of_headerLines hlines))

theorem implemented_viable : Viable implemented Implemented := by
  refine viable_look fun b => ?_
  split
  · exact viable_expect ((viable_commaSeparated viable_word word_sound word_consumes).mono
      fun _ _ _ hxs _ => .some hxs)
  · exact viable_pure fun _ => .none

section

variable {nested : Nested} {inner : Deeper} (hv : ViableNested nested inner)
  (hs : SoundNested nested inner) (hi : inner.Consumes)
include hv

theorem methodBody_viable : Viable (methodBody nested) fun ls b rest =>
    ∃ items, inner.methodBody ls items rest ∧ b = .ofItems items :=
  viable_bind hv.methodBody fun items => viable_pure fun _ _ hb => ⟨items, hb, rfl⟩

theorem constructor_viable : Viable (constructor nested)
    (Behind .kwConstruct fun ls c rest => ClassPart inner ls (.constructor c) rest) := by
  refine viable_bind parameterList_viable fun ds => viable_bind viable_newlines fun _ =>
    viable_bind (methodBody_viable hv) fun b => viable_pure ?_
  rintro rest mid ⟨items, hb, rfl⟩ _ ⟨hn⟩ ls hds v
  exact .constructor hds hn hb

theorem method_viable :
    Viable (method nested) fun ls m rest => ClassPart inner ls (.method m) rest := by
  refine viable_bind (viable_mark _) fun isPrivate => viable_bind (viable_mark _) fun isShared =>
    viable_bind (viable_optional_look header_viable _) fun h => ?_
  split
  · refine viable_bind (methodBody_viable hv) fun b => viable_pure ?_
    rintro rest mid ⟨items, hb, rfl⟩ ls (_ | hh) front hshared start hprivate
    exact .method hprivate hshared hh hb
  · obtain ⟨items, hitems⟩ := hv.methodBody.fills
    refine viable_discard (viable_token _) fun t => viable_unexpected
      ⟨⟨isPrivate, isShared, ⟨t.text, [], []⟩, .ofItems items⟩, fun rest => ?_⟩
    obtain ⟨mid, hmid⟩ := hitems rest
    refine ⟨⟨.leftParen, none⟩ :: ⟨.rightParen, none⟩ :: ⟨.newline, none⟩ :: mid, ?_⟩
    rintro _ ⟨⟩ _ ⟨⟩ front hshared start hprivate
    exact .method hprivate hshared (.bare .mk .none .newline) hmid

include hs hi

theorem classItem_viable : Viable (classItem nested) (ClassPart inner) := by
  obtain ⟨items, hitems⟩ := hv.methodBody.fills
  have hmethod : Viable (do return ClassItem.method (← method nested)) (ClassPart inner) :=
    viable_bind (method_viable hv) fun _ => viable_pure fun _ _ hm => hm
  refine viable_look fun k => ?_
  split
  · exact viable_expect <| viable_bind (constructor_viable hv) fun _ =>
      viable_pure fun _ _ hc => hc
  · exact hmethod
  · exact hmethod
  · refine viable_look fun b => ?_
    split
    · exact hmethod
    refine viable_look fun b => ?_
    split
    · exact viable_bind (varDecls_viable hv hs hi) fun _ => viable_pure fun _ _ hds => .members hds
    · refine viable_discard (viable_token _) fun t => viable_unexpected
        ⟨.method ⟨false, false, ⟨t.text, [], []⟩, .ofItems items⟩, fun rest => ?_⟩
      obtain ⟨mid, hmid⟩ := hitems rest
      refine ⟨⟨.leftParen, none⟩ :: ⟨.rightParen, none⟩ :: ⟨.newline, none⟩ :: mid, ?_⟩
      rintro _ ⟨⟩
      exact .method .absent .absent (.bare .mk .none .newline) hmid
  · refine viable_unexpected ⟨.members [⟨"", "", none⟩], fun rest =>
      ⟨⟨.word, none⟩ :: ⟨.word, none⟩ :: ⟨.newline, none⟩ :: rest, ?_⟩⟩
    exact .members (.mk (.one (.bare .mk)) .newline)

theorem classDecl_viable : Viable (classDecl nested) (ClassDecl inner) := by
  have hblock := viable_block (classItem_viable hv hs hi) (classItem_sound hs hi)
    (classPart_consumes hi)
  refine viable_bind viable_word fun x => viable_bind implemented_viable fun xs =>
    viable_bind viable_newlines fun _ => viable_bind hblock fun items => viable_note <|
      viable_pure ?_
  rintro rest mid ⟨hn, hlines⟩ _ ⟨hn'⟩ ls hxs front hx
  exact .mk hx hxs (.mk (newlines_trans hn' hn) hlines)

end

/-- A declaration behind empty lines, or none of them. Unlike `DeclarationLine` it does not say
that where there is no declaration the text ends. -/
inductive Declared (inner : Deeper) : Phrase (Option Declaration)
  | absent {ls rest} : Newlines ls rest → Declared inner ls none rest
  | classDecl {ls v start c rest} : Newlines ls (⟨.kwClass, v⟩ :: start) →
      ClassDecl inner start c rest → Declared inner ls (some (.classDecl c)) rest
  | interfaceDecl {ls v start i rest} : Newlines ls (⟨.kwInterface, v⟩ :: start) →
      InterfaceDecl start i rest → Declared inner ls (some (.interfaceDecl i)) rest

theorem declarations_of_declared {inner : Deeper} {ls rest : List Lexeme} {ds : List Declaration}
    (h : Until (Declared inner) ls ds rest) (hrest : rest = []) : Declarations inner ls ds := by
  induction h with
  | stop hstop =>
    cases hstop with
    | absent hn => exact .done (hrest ▸ hn)
  | next hnext _ ih =>
    cases hnext with
    | classDecl hn hc => exact .classDecl hn hc (ih hrest)
    | interfaceDecl hn hd => exact .interfaceDecl hn hd (ih hrest)

section

variable {nested : Nested} {inner : Deeper} (hv : ViableNested nested inner)
  (hs : SoundNested nested inner) (hi : inner.Consumes)
include hv hs hi

theorem declaration?_viable : Viable (declaration? nested) (Declared inner) := by
  refine viable_bind viable_skipNewlines fun _ => viable_look fun k => ?_
  split
  · exact viable_pure fun _ _ hn => .absent hn
  · exact viable_expect <| viable_bind (classDecl_viable hv hs hi) fun _ =>
      viable_pure fun _ _ hc _ _ hn => .classDecl hn hc
  · exact viable_expect <| viable_bind interfaceDecl_viable fun _ =>
      viable_pure fun _ _ hd _ _ hn => .interfaceDecl hn hd
  · exact viable_unexpected ⟨none, fun _ => ⟨_, fun _ hn => .absent hn⟩⟩

theorem program_viable : Viable (program nested) fun ls p rest =>
    ∃ ds, Until (Declared inner) ls ds rest ∧ p = .ofDeclarations ds :=
  viable_bind (viable_many (declaration?_viable hv hs hi) (declaration?_sound hs hi)
    (declarationLine_shrinks hi) fun _ => ⟨_, .absent .none⟩) fun ds =>
      viable_pure fun _ _ hds => ⟨ds, hds, rfl⟩

end

/-- The tokens behind which the parser fails begin a program, within two more levels. -/
theorem program_opens {n : Nat} {s s' : State} {d : Diagnostic}
    (h : program (nested n) s = .error d s') (hd : d.cause.IsMismatch) :
    ∃ ls new p, Swap s'.lexemes new s.lexemes ls ∧ Derives (n + 2) ls p := by
  have hs := nested_sound_within (Nat.le_add_right n 2)
  obtain ⟨p, hp⟩ := (program_viable (nested_viable n) hs (deeper_consumes _)).opens h hd
  obtain ⟨ls, new, ⟨ds, hds, rfl⟩, hswap⟩ := hp []
  exact ⟨ls, new, _, hswap, ds, declarations_of_declared hds rfl, rfl⟩

end Parse

/-- No failure is late: where the parser finds no token of an expected kind, the tokens that it
has read begin a program, and with the right tokens behind them it accepts them under every limit
on nesting that leaves two more levels. -/
theorem run_program_viable {tokens : List Token} {d : Diagnostic} {p' : Parser}
    (h : (Parser.ofList tokens).run Parse.program = (.error d, p')) (hd : d.cause.IsMismatch) :
    ∃ read new program, tokens = read ++ p'.state.stream.tokens ∧
      ∀ limit, maxNesting + 2 ≤ limit → ∃ s,
        Parse.program (nested limit) ⟨Stream.ofList (read ++ new), #[], 0⟩ = .ok program s := by
  rw [Parser.run_eq uniform_program] at h
  split at h
  · cases h
  rename_i d' s' hrun
  cases h
  have hs : Parse.program (nested maxNesting) ⟨Stream.ofList tokens, #[], 0⟩ = .error d s' := hrun
  have hends := uniform_program.reads maxNesting _ ⟨Stream.ofList tokens, #[], 0⟩ (.refl _)
  rw [hs] at hends
  obtain ⟨read, hread⟩ := hends.1.tokens
  obtain ⟨ls, new, program, hswap, hderives⟩ := Parse.program_opens hs hd
  obtain ⟨front, hfront, rfl⟩ := hswap.exists_front
  have hlexemes : lexemesOf read ++ s'.lexemes = front ++ s'.lexemes := by
    rw [← hfront, Parse.State.lexemes, Parse.State.lexemes, ← hread, List.map_append]
    rfl
  obtain rfl := List.append_cancel_right hlexemes
  refine ⟨read, (Parse.State.ofLexemes new).stream.tokens, program, hread.symm,
    fun limit hlimit => ?_⟩
  have hnew : lexemesOf (read ++ (Parse.State.ofLexemes new).stream.tokens) =
      lexemesOf read ++ new := by
    rw [lexemesOf, List.map_append]
    exact congrArg (_ ++ ·) (Parse.State.lexemes_ofLexemes new)
  obtain ⟨s, hs, -⟩ := Parse.takes_program (derives_mono hlimit hderives) ⟨Stream.ofList _, #[], 0⟩ hnew
  exact ⟨s, hs⟩

/-- A class that breaks off behind the first name of its body. -/
def brokenClass : List Token :=
  [.plain .kwClass ⟨1, 1⟩, ⟨.word, ⟨1, 7⟩, some "A"⟩, .plain .newline ⟨1, 8⟩,
    .plain .indent ⟨2, 5⟩, ⟨.word, ⟨2, 5⟩, some "f"⟩, .plain .newline ⟨2, 6⟩,
    .plain .dedent ⟨3, 1⟩]

theorem run_program_viable_member : ∃ d p',
    (Parser.ofList brokenClass).run Parse.program = (.error d, p') ∧ d.cause.IsMismatch ∧
      p'.state.stream.tokens.length = 2 ∧
      ∃ read new program, brokenClass = read ++ p'.state.stream.tokens ∧
        ∀ limit, maxNesting + 2 ≤ limit → ∃ s,
          Parse.program (nested limit) ⟨Stream.ofList (read ++ new), #[], 0⟩ = .ok program s := by
  have h : (Parser.ofList brokenClass).run Parse.program =
      (.error ⟨.unexpectedToken "one of WORD, LPAREN" "NEWLINE", ⟨2, 6⟩⟩,
        ⟨⟨⟨[.plain .newline ⟨2, 6⟩, .plain .dedent ⟨3, 1⟩], ⟨3, 1⟩⟩, #[], 0⟩⟩) := rfl
  exact ⟨_, _, h, trivial, rfl, run_program_viable h trivial⟩

end Offside
