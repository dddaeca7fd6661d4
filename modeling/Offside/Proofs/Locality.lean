import Offside.Proofs.LineEnds
import Offside.Proofs.Recut

/-!
# Lines and blocks read for themselves

A block is read the same way in front of everything: its end is a lexeme of its own (`Local`).
A line is too, unless it leaves its end to the end of the block behind it; then there has to be
such an end also in what is put there (`Fits`, `LineLocal`). The two serve each other: behind an
item of a block there is something of the block, so its items fit (`lines_local`), and behind the
block there may be anything.

What reads a chunk of lexemes that ends in a line end or in the end of a block therefore reads it
the same way wherever the chunk stands (`LineLocal.append`).
-/

namespace Offside.Grammar

open Parse

variable {α : Type} {left new : List Lexeme}

/-! ## Ends of phrases -/

/-- The phrase ends with a lexeme that goes on a line. -/
def EndsInLine (R : Phrase α) : Prop :=
  ∀ ⦃ls a rest⦄, R ls a rest → ∃ l : Lexeme, l :: rest <:+ ls ∧ startsFresh l.kind = false

theorem EndsInLine.suffix {R : Phrase α} (hR : EndsInLine R) {ls rest : List Lexeme} {a : α}
    (h : R ls a rest) : rest <:+ ls := by
  obtain ⟨l, hl, -⟩ := hR h
  exact (List.suffix_cons l rest).trans hl

theorem word_endsInLine : EndsInLine Word := by
  rintro _ _ _ ⟨⟩
  exact ⟨_, List.suffix_rfl, rfl⟩

theorem listed_endsInLine {item : Phrase α} (hitem : EndsInLine item) :
    EndsInLine (Listed item) := by
  intro ls as rest h
  induction h with
  | one ha => exact hitem ha
  | more ha _ ih =>
    obtain ⟨l, hl, hk⟩ := ih
    exact ⟨l, hl.trans ((List.suffix_cons _ _).trans (hitem.suffix ha)), hk⟩

theorem chain_endsInLine {operator? : Kind → Option MathOp} {operand : Phrase Expr}
    (hoperand : EndsInLine operand) : EndsInLine (Chain operator? operand) := by
  intro ls e rest h
  induction h with
  | first he => exact hoperand he
  | next _ _ he ih =>
    obtain ⟨l, hl, hk⟩ := hoperand he
    obtain ⟨l', hmid, -⟩ := ih
    exact ⟨l, hl.trans ((List.suffix_cons _ _).trans ((List.suffix_cons l' _).trans hmid)), hk⟩

section

variable {expression : Phrase Expr} (he : EndsInLine expression)
include he

theorem arguments_endsInLine : EndsInLine (Arguments expression) := by
  intro ls es rest h
  cases h with
  | none => exact ⟨_, List.suffix_rfl, rfl⟩
  | some h => exact ⟨_, (listed_endsInLine he).suffix h, rfl⟩

theorem callPhrase_endsInLine : EndsInLine (CallPhrase expression) := by
  intro ls c rest h
  cases h with
  | alone h =>
    obtain ⟨l, hl, hk⟩ := arguments_endsInLine he h
    exact ⟨l, hl.trans (List.suffix_append [_, _] _), hk⟩
  | onReceiver h =>
    obtain ⟨l, hl, hk⟩ := arguments_endsInLine he h
    exact ⟨l, hl.trans (List.suffix_append [_, _, _, _] _), hk⟩

theorem factor_endsInLine : EndsInLine (Factor expression) := by
  intro ls e rest h
  cases h with
  | number => exact ⟨_, List.suffix_rfl, rfl⟩
  | string => exact ⟨_, List.suffix_rfl, rfl⟩
  | character => exact ⟨_, List.suffix_rfl, rfl⟩
  | parens h => exact ⟨_, (he.suffix h).trans (List.suffix_cons _ _), rfl⟩
  | new h =>
    obtain ⟨l, hl, hk⟩ := arguments_endsInLine he h
    exact ⟨l, hl.trans (List.suffix_append [_, _, _] _), hk⟩
  | call h => exact callPhrase_endsInLine he h
  | var h => exact word_endsInLine h

theorem sum_endsInLine : EndsInLine (Sum expression) :=
  chain_endsInLine (chain_endsInLine (factor_endsInLine he))

theorem namedValue_endsInLine (typeName : String) :
    EndsInLine (NamedValue expression typeName) := by
  intro ls d rest h
  cases h with
  | bare hx => exact word_endsInLine hx
  | valued hx h =>
    obtain ⟨l, hl, hk⟩ := he h
    exact ⟨l, hl.trans ((List.suffix_cons _ _).trans (word_endsInLine.suffix hx)), hk⟩

end

theorem expression_endsInLine : ∀ n : Nat, EndsInLine (deeper n).expression
  | 0 => fun _ _ _ h => h.elim
  | n + 1 => sum_endsInLine (expression_endsInLine n)

theorem parameterList_endsInLine : EndsInLine ParameterList := by
  intro ls ds rest h
  cases h with
  | none => exact ⟨_, List.suffix_cons _ _, rfl⟩
  | some h =>
    exact ⟨_, (listed_consumes parameter_consumes h).1.trans (List.suffix_cons _ _), rfl⟩

theorem returned_endsInLine : EndsInLine Returned := by
  intro ls r rest h
  cases h with
  | bare => exact ⟨_, List.suffix_rfl, rfl⟩
  | named => exact ⟨_, List.suffix_cons _ _, rfl⟩

/-! ## What fits behind a line -/

/-- What is read of `ls` up to `rest` can stand in front of `rest'` too: if its last line leaves
its end to the end of a block, then `rest'` has such an end to offer. -/
def Fits (ls rest rest' : List Lexeme) : Prop :=
  ∀ l : Lexeme, l :: rest <:+ ls → startsFresh l.kind = false →
    headKind? rest = some .dedent → headKind? rest' = some .dedent

theorem Fits.of_suffix {ls mid rest rest' : List Lexeme} (h : Fits ls rest rest')
    (hmid : mid <:+ ls) : Fits mid rest rest' :=
  fun l hl => h l (hl.trans hmid)

theorem Swap.length_le {ls ls' : List Lexeme} (h : Swap left new ls ls') :
    left.length ≤ ls.length := by
  obtain ⟨front, rfl, -⟩ := h.exists_front
  simp

/-- Where something is read before the swapped part, something of it stands in front. -/
theorem Swap.fits {mid mid' rest rest' : List Lexeme} (hmid : Swap left new mid mid')
    (hrest : Swap left new rest rest') (h : Left mid rest) (ls : List Lexeme) :
    Fits ls mid mid' := by
  intro _ _ _ hhead
  cases hmid with
  | here => exact absurd hrest.length_le (Nat.not_le_of_lt h.2)
  | cons => exact hhead

/-- Whatever fits can be put behind the phrase. -/
def LineLocal (R : Phrase α) : Prop :=
  ∀ ⦃ls a rest⦄, R ls a rest → ∀ ⦃left new rest'⦄, Swap left new rest rest' →
    Fits ls rest rest' → ∃ ls', R ls' a rest' ∧ Swap left new ls ls'

/-- A line that ends in front of the end of a block ends so in front of what fits. -/
theorem LineEnd.swap_fits {ls mid rest rest' : List Lexeme}
    (hline : ∃ l : Lexeme, l :: mid <:+ ls ∧ startsFresh l.kind = false) (h : LineEnd mid rest)
    (hswap : Swap left new rest rest') (hfits : Fits ls rest rest') :
    ∃ mid', LineEnd mid' rest' ∧ Swap left new mid mid' := by
  cases h with
  | newline => exact ⟨_, .newline, .cons hswap⟩
  | dedent =>
    obtain ⟨l, hl, hk⟩ := hline
    have hhead := hfits l hl hk rfl
    rcases rest' with _ | ⟨⟨k, v⟩, more⟩
    · cases hhead
    · cases hhead
      exact ⟨_, .dedent, hswap⟩

section

variable {item : Phrase α} (hitem : LineLocal item) (hc : Consumes item)
include hitem hc

/-- Behind an item of a block stand further items or the end of the block, so whatever is put
behind the block fits behind the item. -/
theorem lines_local : Local (Lines item) := by
  intro ls as rest h left new rest' hswap
  induction h with
  | done hn =>
    obtain ⟨ls', hn', hswap'⟩ := hn.swap (.cons hswap)
    exact ⟨ls', .done hn', hswap'⟩
  | next hn ha hl ih =>
    obtain ⟨mid', hl', hmid⟩ := ih hswap
    obtain ⟨start', ha', hstart⟩ := hitem ha hmid (hmid.fits hswap (lines_consumes hc hl) _)
    obtain ⟨ls', hn', hswap'⟩ := hn.swap hstart
    exact ⟨ls', .next hn' ha' hl', hswap'⟩

theorem block_local : Local (Block item) := by
  rintro ls as rest ⟨hn, hl⟩ left new rest' hswap
  obtain ⟨mid', hl', hmid⟩ := lines_local hitem hc hl hswap
  obtain ⟨ls', hn', hswap'⟩ := hn.swap (.cons hmid)
  exact ⟨ls', .mk hn' hl', hswap'⟩

end

/-! ## Statements -/

theorem namedValue_local {expression : Phrase Expr} (he : Local expression) (typeName : String) :
    Local (NamedValue expression typeName) := by
  intro ls d rest h left new rest' hswap
  cases h with
  | bare hx =>
    obtain ⟨ls', hx', hswap'⟩ := word_local hx hswap
    exact ⟨ls', .bare hx', hswap'⟩
  | valued hx h =>
    obtain ⟨mid', h', hmid⟩ := he h hswap
    obtain ⟨ls', hx', hswap'⟩ := word_local hx (.cons hmid)
    exact ⟨ls', .valued hx' h', hswap'⟩

theorem varDecls_lineLocal {expression : Phrase Expr} (he : Local expression)
    (hline : EndsInLine expression) : LineLocal (VarDecls expression) := by
  rintro ls ds rest ⟨hl, hend⟩ left new rest' hswap hfits
  have hends := listed_endsInLine (namedValue_endsInLine hline _) hl
  obtain ⟨mid', hend', hmid⟩ := hend.swap_fits hends hswap (hfits.of_suffix (List.suffix_cons _ _))
  obtain ⟨ls', hl', hswap'⟩ := listed_local (namedValue_local he _) hl hmid
  exact ⟨_, .mk hl' hend', .cons hswap'⟩

/-- All that can stand deeper can be read in front of whatever fits. -/
structure Deeper.Local (inner : Deeper) : Prop where
  consumes : inner.Consumes
  expression : Grammar.Local inner.expression
  expressionEnds : EndsInLine inner.expression
  body : Grammar.Local inner.body
  methodBody : Grammar.Local inner.methodBody
  elseIf : LineLocal inner.elseIf

section

variable {inner : Deeper} (hi : inner.Local)
include hi

theorem guarded_local : Local (Guarded inner) := by
  rintro ls a rest ⟨hc, hb⟩ left new rest' hswap
  obtain ⟨mid', hb', hmid⟩ := hi.body hb hswap
  obtain ⟨ls', hc', hswap'⟩ := condition_local hi.expression hc (.cons hmid)
  exact ⟨ls', .mk hc' hb', hswap'⟩

theorem plain_lineLocal : LineLocal (Plain inner) := by
  intro ls s rest h left new rest' hswap hfits
  cases h with
  | loop hc hb =>
    obtain ⟨ls', ⟨hc', hb'⟩, hswap'⟩ := guarded_local hi (.mk hc hb) hswap
    exact ⟨_, .loop hc' hb', .cons hswap'⟩
  | loopIn hx hc hb =>
    obtain ⟨mid', ⟨hc', hb'⟩, hmid⟩ := guarded_local hi (.mk hc hb) hswap
    obtain ⟨ls', hx', hswap'⟩ := word_local hx (.cons hmid)
    exact ⟨_, .loopIn hx' hc' hb', .cons hswap'⟩
  | call hc hend =>
    have hends := callPhrase_endsInLine hi.expressionEnds hc
    obtain ⟨mid', hend', hmid⟩ := hend.swap_fits hends hswap hfits
    obtain ⟨ls', hc', hswap'⟩ := callPhrase_local hi.expression hc hmid
    exact ⟨ls', .call hc' hend', hswap'⟩
  | assign hx he hend =>
    have hsuffix := (List.suffix_cons _ _).trans ((listed_endsInLine word_endsInLine).suffix hx)
    obtain ⟨behind', hend', hbehind⟩ :=
      hend.swap_fits (hi.expressionEnds he) hswap (hfits.of_suffix hsuffix)
    obtain ⟨mid', he', hmid⟩ := hi.expression he hbehind
    obtain ⟨ls', hx', hswap'⟩ := listed_local word_local hx (.cons hmid)
    exact ⟨ls', .assign hx' he' hend', hswap'⟩

theorem conditional_lineLocal : LineLocal (Conditional inner) := by
  intro ls s rest h left new rest' hswap
  have hsuffix : ∀ {ls a mid l l' behind}, Guarded inner ls a mid →
      Newlines mid (l :: l' :: behind) → behind <:+ ls := fun {_ _ _ l l' _} ha hn =>
    (List.suffix_append [l, l'] _).trans (hn.suffix.trans (guarded_consumes hi.consumes ha).1)
  induction h with
  | alone ha hn =>
    intro _
    obtain ⟨mid', hn', hmid⟩ := hn.swap hswap
    obtain ⟨ls', ha', hswap'⟩ := guarded_local hi ha hmid
    exact ⟨ls', .alone ha' hn', hswap'⟩
  | elseIf ha hn hs =>
    intro hfits
    obtain ⟨start', hs', hstart⟩ := hi.elseIf hs hswap (hfits.of_suffix (hsuffix ha hn))
    obtain ⟨mid', hn', hmid⟩ := hn.swap (.cons (.cons hstart))
    obtain ⟨ls', ha', hswap'⟩ := guarded_local hi ha hmid
    exact ⟨ls', .elseIf ha' hn' hs', hswap'⟩
  | elseBlock ha hn hn₁ hb =>
    intro _
    obtain ⟨start', hb', hstart⟩ := hi.body hb hswap
    obtain ⟨behind', hn₁', hbehind⟩ := hn₁.swap hstart
    obtain ⟨mid', hn', hmid⟩ := hn.swap (.cons (.cons hbehind))
    obtain ⟨ls', ha', hswap'⟩ := guarded_local hi ha hmid
    exact ⟨ls', .elseBlock ha' hn' hn₁' hb', hswap'⟩
  | elseLineIf ha hn hn₁ _ ih =>
    intro hfits
    have hstart := (List.suffix_cons _ _).trans (hn₁.suffix.trans (hsuffix ha hn))
    obtain ⟨start', hs', hswap₁⟩ := ih hswap (hfits.of_suffix hstart)
    obtain ⟨behind', hn₁', hbehind⟩ := hn₁.swap (.cons hswap₁)
    obtain ⟨mid', hn', hmid⟩ := hn.swap (.cons (.cons hbehind))
    obtain ⟨ls', ha', hswap'⟩ := guarded_local hi ha hmid
    exact ⟨ls', .elseLineIf ha' hn' hn₁' hs', hswap'⟩
  | elseLine ha hn hn₁ hs =>
    intro hfits
    have hstart := hn₁.suffix.trans (hsuffix ha hn)
    obtain ⟨start', hs', hswap₁⟩ := plain_lineLocal hi hs hswap (hfits.of_suffix hstart)
    obtain ⟨behind', hn₁', hbehind⟩ := hn₁.swap hswap₁
    obtain ⟨mid', hn', hmid⟩ := hn.swap (.cons (.cons hbehind))
    obtain ⟨ls', ha', hswap'⟩ := guarded_local hi ha hmid
    exact ⟨ls', .elseLine ha' hn' hn₁' hs', hswap'⟩

theorem statement_lineLocal : LineLocal (Statement inner) := by
  intro ls s rest h left new rest' hswap hfits
  cases h with
  | cond h =>
    have hmore := hfits.of_suffix (List.suffix_cons _ _)
    obtain ⟨ls', h', hswap'⟩ := conditional_lineLocal hi h hswap hmore
    exact ⟨_, .cond h', .cons hswap'⟩
  | plain h =>
    obtain ⟨ls', h', hswap'⟩ := plain_lineLocal hi h hswap hfits
    exact ⟨ls', .plain h', hswap'⟩

theorem item_lineLocal : LineLocal (Item inner) := by
  intro ls i rest h left new rest' hswap hfits
  cases h with
  | locals h =>
    obtain ⟨ls', h', hswap'⟩ :=
      varDecls_lineLocal hi.expression hi.expressionEnds h hswap hfits
    exact ⟨ls', .locals h', hswap'⟩
  | statement h =>
    obtain ⟨ls', h', hswap'⟩ := statement_lineLocal hi h hswap hfits
    exact ⟨ls', .statement h', hswap'⟩

end

theorem deeper_local : ∀ n : Nat, (deeper n).Local
  | 0 => ⟨deeper_consumes 0, fun _ _ _ h => h.elim, fun _ _ _ h => h.elim,
      fun _ _ _ h => h.elim, fun _ _ _ h => h.elim, fun _ _ _ h => h.elim⟩
  | n + 1 =>
    have hi := deeper_local n
    { consumes := deeper_consumes (n + 1)
      expression := expression_local (n + 1)
      expressionEnds := expression_endsInLine (n + 1)
      body := block_local (statement_lineLocal hi) (statement_consumes hi.consumes)
      methodBody := block_local (item_lineLocal hi) (item_consumes hi.consumes)
      elseIf := conditional_lineLocal hi }

/-! ## Declarations -/

theorem parameter_local : Local Parameter := by
  rintro _ _ _ ⟨⟩ left new rest' hswap
  exact ⟨_, .mk, .cons (.cons hswap)⟩

theorem parameterList_local : Local ParameterList := by
  intro ls ds rest h left new rest' hswap
  cases h with
  | none => exact ⟨_, .none, .cons (.cons hswap)⟩
  | some h =>
    obtain ⟨ls', h', hswap'⟩ := listed_local parameter_local h (.cons hswap)
    exact ⟨_, .some h', .cons hswap'⟩

theorem returned_local : Local Returned := by
  intro ls r rest h left new rest' hswap
  cases h with
  | bare => exact ⟨_, .bare, .cons hswap⟩
  | named => exact ⟨_, .named, .cons (.cons hswap)⟩

theorem header_lineLocal : LineLocal Header := by
  intro ls h rest hh left new rest' hswap hfits
  cases hh with
  | bare hx hd hend =>
    have hstart := word_endsInLine.suffix hx
    obtain ⟨mid', hend', hmid⟩ :=
      hend.swap_fits (parameterList_endsInLine hd) hswap (hfits.of_suffix hstart)
    obtain ⟨start', hd', hswap₁⟩ := parameterList_local hd hmid
    obtain ⟨ls', hx', hswap'⟩ := word_local hx hswap₁
    exact ⟨ls', .bare hx' hd' hend', hswap'⟩
  | returning hx hd hr hend =>
    have hstart := (parameterList_endsInLine.suffix hd).trans (word_endsInLine.suffix hx)
    have hmid := hfits.of_suffix ((List.suffix_cons _ _).trans hstart)
    obtain ⟨behind', hend', hbehind⟩ :=
      hend.swap_fits (listed_endsInLine returned_endsInLine hr) hswap hmid
    obtain ⟨mid', hr', hswap₁⟩ := listed_local returned_local hr hbehind
    obtain ⟨start', hd', hswap₂⟩ := parameterList_local hd (.cons hswap₁)
    obtain ⟨ls', hx', hswap'⟩ := word_local hx hswap₂
    exact ⟨ls', .returning hx' hd' hr' hend', hswap'⟩

theorem interfaceDecl_local : Local InterfaceDecl := by
  rintro ls i rest ⟨hx, hb⟩ left new rest' hswap
  obtain ⟨mid', hb', hmid⟩ := block_local header_lineLocal header_consumes hb hswap
  obtain ⟨ls', hx', hswap'⟩ := word_local hx (.cons hmid)
  exact ⟨ls', .mk hx' hb', hswap'⟩

theorem mark_local {kind : Kind} : Local (Mark kind) := by
  intro ls b rest h left new rest' hswap
  cases h with
  | absent => exact ⟨rest', .absent, hswap⟩
  | present => exact ⟨_, .present, .cons hswap⟩

theorem implemented_local : Local Implemented := by
  intro ls xs rest h left new rest' hswap
  cases h with
  | none => exact ⟨rest', .none, hswap⟩
  | some h =>
    obtain ⟨ls', h', hswap'⟩ := listed_local word_local h hswap
    exact ⟨_, .some h', .cons hswap'⟩

section

variable {inner : Deeper} (hi : inner.Local)
include hi

theorem classPart_lineLocal : LineLocal (ClassPart inner) := by
  intro ls i rest h left new rest' hswap hfits
  cases h with
  | constructor hd hn hb =>
    obtain ⟨start', hb', hstart⟩ := hi.methodBody hb hswap
    obtain ⟨mid', hn', hmid⟩ := hn.swap hstart
    obtain ⟨ls', hd', hswap'⟩ := parameterList_local hd (.cons hmid)
    exact ⟨_, .constructor hd' hn' hb', .cons hswap'⟩
  | method hp hs hh hb =>
    obtain ⟨mid', hb', hmid⟩ := hi.methodBody hb hswap
    have hbody := hmid.fits hswap (hi.consumes.methodBody hb)
    obtain ⟨behind', hh', hbehind⟩ := header_lineLocal hh hmid (hbody _)
    obtain ⟨start', hs', hstart⟩ := mark_local hs hbehind
    obtain ⟨ls', hp', hswap'⟩ := mark_local hp hstart
    exact ⟨ls', .method hp' hs' hh' hb', hswap'⟩
  | members h =>
    obtain ⟨ls', h', hswap'⟩ :=
      varDecls_lineLocal hi.expression hi.expressionEnds h hswap hfits
    exact ⟨ls', .members h', hswap'⟩

theorem classDecl_local : Local (ClassDecl inner) := by
  rintro ls c rest ⟨hx, hxs, hb⟩ left new rest' hswap
  obtain ⟨mid', hb', hmid⟩ :=
    block_local (classPart_lineLocal hi) (classPart_consumes hi.consumes) hb hswap
  obtain ⟨start', hxs', hstart⟩ := implemented_local hxs (.cons hmid)
  obtain ⟨ls', hx', hswap'⟩ := word_local hx hstart
  exact ⟨ls', .mk hx' hxs' hb', hswap'⟩

end

/-! ## Chunks of lexemes -/

/-- The lexemes end with the end of a line or of a block. -/
def Ended (ls : List Lexeme) : Prop :=
  ∃ l ∈ ls.getLast?, l.kind = .newline ∨ l.kind = .dedent

/-- Behind the end of a line or of a block anything fits. -/
theorem Ended.fits {chunk : List Lexeme} (h : Ended chunk) (rest rest' : List Lexeme) :
    Fits (chunk ++ rest) rest rest' := by
  obtain ⟨last, hlast, hkind⟩ := h
  obtain ⟨front, rfl⟩ := List.getLast?_eq_some_iff.mp hlast
  intro l hl hline
  have hsame : l :: rest = last :: rest := by
    refine (List.suffix_of_suffix_length_le hl ?_ (by simp)).eq_of_length (by simp)
    simp
  obtain ⟨rfl, -⟩ := List.cons.inj hsame
  rcases hkind with hk | hk <;> rw [hk] at hline <;> cases hline

theorem Swap.eq_append {chunk ls' : List Lexeme} (h : Swap left new (chunk ++ left) ls') :
    ls' = chunk ++ new := by
  obtain ⟨front, hfront, rfl⟩ := h.exists_front
  rw [List.append_cancel_right hfront]

section

variable {R : Phrase α} {chunk more : List Lexeme} {a : α}

/-- A chunk that is read in front of something is read the same way in front of everything. -/
theorem Local.append (hR : Local R) (h : R (chunk ++ more) a more) (behind : List Lexeme) :
    R (chunk ++ behind) a behind := by
  obtain ⟨ls', h', hswap⟩ := hR h (.here : Swap more behind more behind)
  rwa [hswap.eq_append] at h'

/-- So is a chunk of lines, if it has all its line ends. -/
theorem LineLocal.append (hR : LineLocal R) (h : R (chunk ++ more) a more)
    (hend : Ended chunk) (behind : List Lexeme) : R (chunk ++ behind) a behind := by
  obtain ⟨ls', h', hswap⟩ := hR h (.here : Swap more behind more behind) (hend.fits _ _)
  rwa [hswap.eq_append] at h'

end

end Offside.Grammar
