import Offside.Proofs.Completeness

/-!
# Line ends of empty lines

A line end means something only behind a lexeme of its own line: behind another line end,
behind the start or the end of a block and at the start of the text it ends an empty line.
`strip` takes the line ends of empty lines away, and two texts that are the same without them
are the same programs (`derives_congr`).

More than that, the last line of a block may have a line end of its own or leave it to the end
of the block, either way, and what stands behind declarations does not change how they are read.
`Respaced` relates lists that differ in empty lines, in such line ends, and in what is put behind
the first. A phrase is `Stable` if what it reads from the one list it reads from the other. The
phrases of a line start behind a lexeme of it or at its first one; those that take the end of
the line leave the rest at the start of a line, where more line ends change nothing. So
declarations can be put behind each other (`declarations_append`).
-/

namespace Offside.Grammar

open Parse

variable {α : Type}

/-- Whether nothing but layout has been read on the line that stands behind this kind. -/
def startsFresh (k : Kind) : Bool :=
  k == .newline || k == .indent || k == .dedent

theorem ne_layout_of_line {k : Kind} (h : startsFresh k = false) :
    k ≠ .dedent ∧ k ≠ .newline := by
  constructor <;>
    (rintro rfl
     cases h)

/-- The lexemes without the line ends of empty lines; `fresh` says whether nothing has been
read of the first line. -/
def strip : Bool → List Lexeme → List Lexeme
  | _, [] => []
  | fresh, l :: ls =>
    if fresh && l.kind == .newline then strip true ls else l :: strip (startsFresh l.kind) ls

theorem strip_cons {fresh : Bool} {k : Kind} (h : ¬(fresh = true ∧ k = .newline))
    (v : Option String) (ls : List Lexeme) :
    strip fresh (⟨k, v⟩ :: ls) = ⟨k, v⟩ :: strip (startsFresh k) ls := by
  simp [strip, h]

theorem strip_true_newline (v : Option String) (ls : List Lexeme) :
    strip true (⟨.newline, v⟩ :: ls) = strip true ls := by
  simp [strip]

/-- At the start of a line `strip` starts anew. -/
theorem strip_front (rest : List Lexeme) : ∀ {front : List Lexeme} {fresh : Bool},
    (∀ l ∈ front.getLast?, startsFresh l.kind = true) → (front = [] → fresh = true) →
    strip fresh (front ++ rest) = strip fresh front ++ strip true rest
  | [], fresh, _, h => by rw [h rfl]; rfl
  | l :: front, fresh, hlast, h => by
    have hrest : ∀ {fresh}, (front = [] → fresh = true) →
        strip fresh (front ++ rest) = strip fresh front ++ strip true rest := by
      refine strip_front rest fun m hm => hlast m ?_
      rw [List.getLast?_cons, Option.mem_def.mp hm]
      rfl
    rw [List.cons_append, strip, strip]
    split
    · exact hrest fun _ => rfl
    · rw [hrest fun hnil => hlast l (by rw [hnil]; rfl)]
      rfl

/-! ## Reading on in another list -/

/-- The second list is the first with other line ends of empty lines, and with `tail` behind it.
A line in front of the end of its block may have a line end of its own in the one list and none
in the other. As in `strip`, `fresh` says whether nothing has been read of the first line. -/
inductive Respaced (tail : List Lexeme) : Bool → List Lexeme → List Lexeme → Prop
  | done {fresh} : Respaced tail fresh [] tail
  | keep {fresh l ls ls'} : Respaced tail (startsFresh l.kind) ls ls' →
      Respaced tail fresh (l :: ls) (l :: ls')
  | drop {v ls ls'} : Respaced tail true ls ls' → Respaced tail true (⟨.newline, v⟩ :: ls) ls'
  | add {v ls ls'} : Respaced tail true ls ls' → Respaced tail true ls (⟨.newline, v⟩ :: ls')
  | endLine {v w ls ls'} : Respaced tail true (⟨.dedent, v⟩ :: ls) ls' →
      Respaced tail false (⟨.dedent, v⟩ :: ls) (⟨.newline, w⟩ :: ls')
  | leaveLine {v w ls ls'} : Respaced tail true ls (⟨.dedent, v⟩ :: ls') →
      Respaced tail false (⟨.newline, w⟩ :: ls) (⟨.dedent, v⟩ :: ls')

/-- Lists that are the same without empty lines differ in those alone. -/
theorem respaced_of_strip_eq : ∀ {fresh : Bool} {ls ls' : List Lexeme},
    strip fresh ls = strip fresh ls' → Respaced [] fresh ls ls'
  | fresh, [], [], _ => .done
  | fresh, [], ⟨k, v⟩ :: ls', h => by
    by_cases hk : fresh = true ∧ k = .newline
    · obtain ⟨rfl, rfl⟩ := hk
      rw [strip_true_newline] at h
      exact .add (respaced_of_strip_eq h)
    · rw [strip_cons hk] at h
      cases h
  | fresh, ⟨k, v⟩ :: ls, [], h => by
    by_cases hk : fresh = true ∧ k = .newline
    · obtain ⟨rfl, rfl⟩ := hk
      rw [strip_true_newline] at h
      exact .drop (respaced_of_strip_eq h)
    · rw [strip_cons hk] at h
      cases h
  | fresh, ⟨k, v⟩ :: ls, ⟨k', v'⟩ :: ls', h => by
    by_cases hk : fresh = true ∧ k = .newline
    · obtain ⟨rfl, rfl⟩ := hk
      rw [strip_true_newline] at h
      exact .drop (respaced_of_strip_eq h)
    by_cases hk' : fresh = true ∧ k' = .newline
    · obtain ⟨rfl, rfl⟩ := hk'
      rw [strip_true_newline] at h
      exact .add (respaced_of_strip_eq h)
    · rw [strip_cons hk, strip_cons hk'] at h
      obtain ⟨heq, hrest⟩ := List.cons.inj h
      cases heq
      exact .keep (respaced_of_strip_eq hrest)
termination_by _ ls ls' => ls.length + ls'.length

variable {tail : List Lexeme}

/-- Inside a line that goes on the two lists go on with the same lexeme. -/
theorem Respaced.cons {k : Kind} {v : Option String} {ls ls' : List Lexeme}
    (h : Respaced tail false (⟨k, v⟩ :: ls) ls') (hk : k ≠ .dedent ∧ k ≠ .newline) :
    ∃ more, ls' = ⟨k, v⟩ :: more ∧ Respaced tail (startsFresh k) ls more := by
  cases h with
  | keep h => exact ⟨_, rfl, h⟩
  | endLine => exact absurd rfl hk.1
  | leaveLine => exact absurd rfl hk.2

/-- At the start of a line the two lists go on with the same lexeme, behind empty lines. -/
theorem Respaced.fresh_cons {l : Lexeme} {rest ls' : List Lexeme} (hl : l.kind ≠ .newline)
    (h : Respaced tail true (l :: rest) ls') :
    ∃ more, Newlines ls' (l :: more) ∧ Respaced tail (startsFresh l.kind) rest more := by
  generalize hls : l :: rest = ls, hfresh : true = fresh at h
  induction h with
  | done => cases hls
  | keep h =>
    obtain ⟨rfl, rfl⟩ := List.cons.inj hls
    exact ⟨_, .none, h⟩
  | drop =>
    obtain ⟨rfl, -⟩ := List.cons.inj hls
    exact absurd rfl hl
  | add _ ih =>
    obtain ⟨more, hn, hmore⟩ := ih hls hfresh
    exact ⟨more, .next hn, hmore⟩
  | endLine => cases hfresh
  | leaveLine => cases hfresh

theorem Respaced.drop_newline {v : Option String} {ls ls' : List Lexeme}
    (h : Respaced tail true (⟨.newline, v⟩ :: ls) ls') : Respaced tail true ls ls' := by
  generalize hcons : (⟨.newline, v⟩ : Lexeme) :: ls = whole, hfresh : true = fresh at h
  induction h with
  | done => cases hcons
  | keep h =>
    obtain ⟨rfl, rfl⟩ := List.cons.inj hcons
    subst hfresh
    exact .add h
  | drop h =>
    obtain ⟨-, rfl⟩ := List.cons.inj hcons
    exact h
  | add _ ih => exact .add (ih hcons hfresh)
  | endLine => cases hfresh
  | leaveLine => cases hfresh

theorem Newlines.respaced {ls rest ls' : List Lexeme} (hn : Newlines ls rest)
    (h : Respaced tail true ls ls') : Respaced tail true rest ls' := by
  induction hn with
  | none => exact h
  | next _ ih => exact ih h.drop_newline

/-- At the start of a line the two lists go on with the same line, behind empty ones. -/
theorem Respaced.line {start ls' : List Lexeme} (hstart : headKind? start ≠ some .newline)
    (h : Respaced tail true start ls') :
    ∃ start', Newlines ls' start' ∧ Respaced tail false start start' := by
  rcases start with _ | ⟨l, start⟩
  · generalize hls : [] = ls, hfresh : true = fresh at h
    induction h with
    | done => exact ⟨tail, .none, .done⟩
    | keep => cases hls
    | drop => cases hls
    | add _ ih =>
      obtain ⟨start', hn, hrest⟩ := ih hls hfresh
      exact ⟨start', .next hn, hrest⟩
    | endLine => cases hls
    | leaveLine => cases hls
  · obtain ⟨more, hn, hmore⟩ := h.fresh_cons fun hl => hstart (congrArg some hl)
    exact ⟨l :: more, hn, .keep hmore⟩

/-- A line of the one list that starts with `l` starts so in the other. -/
theorem Respaced.line_cons {l : Lexeme} {ls rest ls' : List Lexeme} (hn : Newlines ls (l :: rest))
    (hl : l.kind ≠ .newline) (h : Respaced tail true ls ls') :
    ∃ more, Newlines ls' (l :: more) ∧ Respaced tail (startsFresh l.kind) rest more :=
  (hn.respaced h).fresh_cons hl

/-- A line that the start of a block or a lexeme of another line follows has a line end of its own
in both lists. -/
theorem Respaced.line_end {k : Kind} {v w : Option String} {ls rest ls' : List Lexeme}
    (h : Respaced tail false (⟨.newline, v⟩ :: ls) ls') (hn : Newlines ls (⟨k, w⟩ :: rest))
    (hk : k ≠ .dedent ∧ k ≠ .newline) :
    ∃ more, ls' = ⟨.newline, v⟩ :: more ∧ Respaced tail true ls more := by
  cases h with
  | keep h => exact ⟨_, rfl, h⟩
  | leaveLine h =>
    obtain ⟨more, hn', -⟩ := Respaced.line_cons hn hk.2 h
    cases hn'
    exact absurd rfl hk.1

/-- The phrase can be read from every list with other empty lines and with `tail` behind it, and
leaves lists with other empty lines. It starts and ends inside a line or at the start of one, as
`fresh` and `fresh'` say. -/
def Stable (tail : List Lexeme) (fresh : Bool) (R : Phrase α) (fresh' : Bool) : Prop :=
  ∀ ⦃ls a rest ls'⦄, R ls a rest → Respaced tail fresh ls ls' →
    ∃ rest', R ls' a rest' ∧ Respaced tail fresh' rest rest'

theorem word_stable : Stable tail false Word false := by
  rintro _ _ _ ls' ⟨⟩ h
  obtain ⟨more, rfl, hmore⟩ := h.cons (by decide)
  exact ⟨more, .mk, hmore⟩

theorem lineEnd_stable {ls rest ls' : List Lexeme} (hend : LineEnd ls rest)
    (h : Respaced tail false ls ls') :
    ∃ rest', LineEnd ls' rest' ∧ Respaced tail true rest rest' := by
  cases hend with
  | newline =>
    cases h with
    | keep h => exact ⟨_, .newline, h⟩
    | leaveLine h => exact ⟨_, .dedent, h⟩
  | dedent =>
    cases h with
    | keep h => exact ⟨_, .dedent, .keep h⟩
    | endLine h => exact ⟨_, .newline, h⟩

theorem listed_stable {item : Phrase α} (hitem : Stable tail false item false) :
    Stable tail false (Listed item) false := by
  intro ls as rest ls' hl
  induction hl generalizing ls' with
  | one ha =>
    intro h
    obtain ⟨rest', ha', hrest⟩ := hitem ha h
    exact ⟨rest', .one ha', hrest⟩
  | more ha _ ih =>
    intro h
    obtain ⟨mid', ha', hmid⟩ := hitem ha h
    obtain ⟨more, rfl, hmore⟩ := hmid.cons (by decide)
    obtain ⟨rest', hl', hrest⟩ := ih hmore
    exact ⟨rest', .more ha' hl', hrest⟩

theorem lines_stable {item : Phrase α} (hstart : StartsLine item)
    (hitem : Stable tail false item true) : Stable tail true (Lines item) true := by
  intro ls as rest ls' hl
  induction hl generalizing ls' with
  | done hn =>
    intro h
    obtain ⟨more, hn', hmore⟩ := Respaced.line_cons hn (by simp) h
    exact ⟨more, .done hn', hmore⟩
  | next hn ha _ ih =>
    intro h
    obtain ⟨start', hn', hstart'⟩ := (hn.respaced h).line (hstart ha _ (by simp))
    obtain ⟨mid', ha', hmid⟩ := hitem ha hstart'
    obtain ⟨rest', hl', hrest⟩ := ih hmid
    exact ⟨rest', .next hn' ha' hl', hrest⟩

theorem block_stable {item : Phrase α} (hstart : StartsLine item)
    (hitem : Stable tail false item true) : Stable tail true (Block item) true := by
  rintro ls as rest ls' ⟨hn, hl⟩ h
  obtain ⟨mid', hn', hmid⟩ := Respaced.line_cons hn (by simp) h
  obtain ⟨rest', hl', hrest⟩ := lines_stable hstart hitem hl hmid
  exact ⟨rest', .mk hn' hl', hrest⟩

/-! ## Expressions -/

section

variable {expression : Phrase Expr} (he : Stable tail false expression false)
include he

theorem arguments_stable : Stable tail false (Arguments expression) false := by
  intro ls es rest ls' ha h
  cases ha with
  | none =>
    obtain ⟨more, rfl, hmore⟩ := h.cons (by decide)
    exact ⟨more, .none, hmore⟩
  | some hl =>
    obtain ⟨mid', hl', hmid⟩ := listed_stable he hl h
    obtain ⟨more, rfl, hmore⟩ := hmid.cons (by decide)
    exact ⟨more, .some hl', hmore⟩

theorem callPhrase_stable : Stable tail false (CallPhrase expression) false := by
  intro ls c rest ls' hc h
  cases hc with
  | alone ha =>
    obtain ⟨m₁, rfl, h₁⟩ := h.cons (by decide)
    obtain ⟨m₂, rfl, h₂⟩ := h₁.cons (by decide)
    obtain ⟨rest', ha', hrest⟩ := arguments_stable he ha h₂
    exact ⟨rest', .alone ha', hrest⟩
  | onReceiver ha =>
    obtain ⟨m₁, rfl, h₁⟩ := h.cons (by decide)
    obtain ⟨m₂, rfl, h₂⟩ := h₁.cons (by decide)
    obtain ⟨m₃, rfl, h₃⟩ := h₂.cons (by decide)
    obtain ⟨m₄, rfl, h₄⟩ := h₃.cons (by decide)
    obtain ⟨rest', ha', hrest⟩ := arguments_stable he ha h₄
    exact ⟨rest', .onReceiver ha', hrest⟩

theorem factor_stable : Stable tail false (Factor expression) false := by
  intro ls e rest ls' hf h
  cases hf with
  | number =>
    obtain ⟨more, rfl, hmore⟩ := h.cons (by decide)
    exact ⟨more, .number, hmore⟩
  | string =>
    obtain ⟨more, rfl, hmore⟩ := h.cons (by decide)
    exact ⟨more, .string, hmore⟩
  | character hc =>
    obtain ⟨more, rfl, hmore⟩ := h.cons (by decide)
    exact ⟨more, .character hc, hmore⟩
  | parens hp =>
    obtain ⟨m₁, rfl, h₁⟩ := h.cons (by decide)
    obtain ⟨m₂, hp', h₂⟩ := he hp h₁
    obtain ⟨more, rfl, hmore⟩ := h₂.cons (by decide)
    exact ⟨more, .parens hp', hmore⟩
  | new ha =>
    obtain ⟨m₁, rfl, h₁⟩ := h.cons (by decide)
    obtain ⟨m₂, rfl, h₂⟩ := h₁.cons (by decide)
    obtain ⟨m₃, rfl, h₃⟩ := h₂.cons (by decide)
    obtain ⟨rest', ha', hrest⟩ := arguments_stable he ha h₃
    exact ⟨rest', .new ha', hrest⟩
  | call hc =>
    obtain ⟨rest', hc', hrest⟩ := callPhrase_stable he hc h
    exact ⟨rest', .call hc', hrest⟩
  | var hx =>
    obtain ⟨rest', hx', hrest⟩ := word_stable hx h
    exact ⟨rest', .var hx', hrest⟩

omit he in
/-- An operator is no layout, so behind it the line goes on. -/
theorem chain_stable {operator? : Kind → Option MathOp} {operand : Phrase Expr}
    (hoperand : Stable tail false operand false)
    (hop : ∀ {k op}, operator? k = some op → startsFresh k = false) :
    Stable tail false (Chain operator? operand) false := by
  intro ls e rest ls' hc h
  induction hc with
  | first hf =>
    obtain ⟨rest', hf', hrest⟩ := hoperand hf h
    exact ⟨rest', .first hf', hrest⟩
  | next _ hk hf ih =>
    obtain ⟨mid', hc', hmid⟩ := ih h
    obtain ⟨more, rfl, hmore⟩ := hmid.cons (ne_layout_of_line (hop hk))
    rw [hop hk] at hmore
    obtain ⟨rest', hf', hrest⟩ := hoperand hf hmore
    exact ⟨rest', .next hc' hk hf', hrest⟩

theorem sum_stable : Stable tail false (Sum expression) false := by
  refine chain_stable (chain_stable (factor_stable he) ?_) ?_ <;>
    (intro k op hk; cases k <;> first | rfl | cases hk)

theorem condition_stable : Stable tail false (Condition expression) false := by
  intro ls e rest ls' hc h
  cases hc with
  | @compare _ _ k _ _ _ _ _ hl hk hr =>
    obtain ⟨mid', hl', hmid⟩ := he hl h
    have hline : startsFresh k = false := by cases k <;> first | rfl | cases hk
    obtain ⟨more, rfl, hmore⟩ := hmid.cons (ne_layout_of_line hline)
    rw [hline] at hmore
    obtain ⟨rest', hr', hrest⟩ := he hr hmore
    exact ⟨rest', .compare hl' hk hr', hrest⟩
  | call hc =>
    obtain ⟨rest', hc', hrest⟩ := he hc h
    exact ⟨rest', .call hc', hrest⟩
  | var hx =>
    obtain ⟨rest', hx', hrest⟩ := he hx h
    exact ⟨rest', .var hx', hrest⟩

theorem namedValue_stable (typeName : String) :
    Stable tail false (NamedValue expression typeName) false := by
  intro ls d rest ls' hd h
  cases hd with
  | bare hx =>
    obtain ⟨rest', hx', hrest⟩ := word_stable hx h
    exact ⟨rest', .bare hx', hrest⟩
  | valued hx hv =>
    obtain ⟨mid', hx', hmid⟩ := word_stable hx h
    obtain ⟨more, rfl, hmore⟩ := hmid.cons (by decide)
    obtain ⟨rest', hv', hrest⟩ := he hv hmore
    exact ⟨rest', .valued hx' hv', hrest⟩

theorem varDecls_stable : Stable tail false (VarDecls expression) true := by
  rintro ls ds rest ls' ⟨hl, hend⟩ h
  obtain ⟨more, rfl, hmore⟩ := h.cons (by decide)
  obtain ⟨mid', hl', hmid⟩ := listed_stable (namedValue_stable he _) hl hmore
  obtain ⟨rest', hend', hrest⟩ := lineEnd_stable hend hmid
  exact ⟨rest', .mk hl' hend', hrest⟩

end

/-! ## Statements -/

/-- The phrase starts a block, behind empty lines. -/
def StartsBlock (R : Phrase α) : Prop :=
  ∀ ⦃ls a rest⦄, R ls a rest → ∃ v mid, Newlines ls (⟨.indent, v⟩ :: mid)

theorem block_startsBlock {item : Phrase α} : StartsBlock (Block item) := by
  rintro ls as rest ⟨hn, -⟩
  exact ⟨_, _, hn⟩

/-- All that can stand deeper can be read from lists with other empty lines. -/
structure Deeper.Stable (tail : List Lexeme) (inner : Deeper) : Prop where
  expression : Grammar.Stable tail false inner.expression false
  body : Grammar.Stable tail true inner.body true
  bodyStarts : StartsBlock inner.body
  methodBody : Grammar.Stable tail true inner.methodBody true
  methodBodyStarts : StartsBlock inner.methodBody
  elseIf : Grammar.Stable tail false inner.elseIf true

section

variable {inner : Deeper} (hi : inner.Stable tail)
include hi

theorem guarded_stable : Stable tail false (Guarded inner) true := by
  rintro ls a rest ls' ⟨hc, hb⟩ h
  obtain ⟨mid', hc', hmid⟩ := condition_stable hi.expression hc h
  obtain ⟨_, _, hn⟩ := hi.bodyStarts hb
  obtain ⟨more, rfl, hmore⟩ := hmid.line_end hn (by decide)
  obtain ⟨rest', hb', hrest⟩ := hi.body hb hmore
  exact ⟨rest', .mk hc' hb', hrest⟩

omit hi in
/-- A statement that is no condition starts with a lexeme of its line. -/
theorem plain_cons {ls rest : List Lexeme} {s : Stmt} (h : Plain inner ls s rest) :
    ∃ k v more, ls = ⟨k, v⟩ :: more ∧ startsFresh k = false := by
  rcases ls with _ | ⟨⟨k, v⟩, more⟩
  · rcases plain_head h with hk | hk <;> cases hk
  · refine ⟨k, v, more, rfl, ?_⟩
    rcases plain_head h with hk | hk <;> cases hk <;> rfl

theorem plain_stable : Stable tail false (Plain inner) true := by
  intro ls s rest ls' hs h
  cases hs with
  | loop hc hb =>
    obtain ⟨m₁, rfl, h₁⟩ := h.cons (by decide)
    obtain ⟨rest', ⟨hc', hb'⟩, hrest⟩ := guarded_stable hi (.mk hc hb) h₁
    exact ⟨rest', .loop hc' hb', hrest⟩
  | loopIn hx hc hb =>
    obtain ⟨m₁, rfl, h₁⟩ := h.cons (by decide)
    obtain ⟨m₂, hx', h₂⟩ := word_stable hx h₁
    obtain ⟨m₃, rfl, h₃⟩ := h₂.cons (by decide)
    obtain ⟨rest', ⟨hc', hb'⟩, hrest⟩ := guarded_stable hi (.mk hc hb) h₃
    exact ⟨rest', .loopIn hx' hc' hb', hrest⟩
  | call hc hend =>
    obtain ⟨mid', hc', hmid⟩ := callPhrase_stable hi.expression hc h
    obtain ⟨rest', hend', hrest⟩ := lineEnd_stable hend hmid
    exact ⟨rest', .call hc' hend', hrest⟩
  | assign hx hv hend =>
    obtain ⟨m₁, hx', h₁⟩ := listed_stable word_stable hx h
    obtain ⟨m₂, rfl, h₂⟩ := h₁.cons (by decide)
    obtain ⟨m₃, hv', h₃⟩ := hi.expression hv h₂
    obtain ⟨rest', hend', hrest⟩ := lineEnd_stable hend h₃
    exact ⟨rest', .assign hx' hv' hend', hrest⟩

theorem conditional_stable : Stable tail false (Conditional inner) true := by
  intro ls s rest ls' hs
  induction hs generalizing ls' with
  | alone ha hn =>
    intro h
    obtain ⟨mid', ha', hmid⟩ := guarded_stable hi ha h
    exact ⟨mid', .alone ha' .none, hn.respaced hmid⟩
  | elseIf ha hn hs =>
    intro h
    obtain ⟨mid', ha', hmid⟩ := guarded_stable hi ha h
    obtain ⟨m₁, hn', h₁⟩ := Respaced.line_cons hn (by simp) hmid
    obtain ⟨m₂, rfl, h₂⟩ := h₁.cons (by decide)
    obtain ⟨rest', hs', hrest⟩ := hi.elseIf hs h₂
    exact ⟨rest', .elseIf ha' hn' hs', hrest⟩
  | elseBlock ha hn hn₁ hb =>
    intro h
    obtain ⟨mid', ha', hmid⟩ := guarded_stable hi ha h
    obtain ⟨m₁, hn', h₁⟩ := Respaced.line_cons hn (by simp) hmid
    obtain ⟨_, _, hstart⟩ := hi.bodyStarts hb
    obtain ⟨m₂, rfl, h₂⟩ := h₁.line_end (newlines_trans hn₁ hstart) (by decide)
    obtain ⟨rest', hb', hrest⟩ := hi.body hb (hn₁.respaced h₂)
    exact ⟨rest', .elseBlock ha' hn' .none hb', hrest⟩
  | elseLineIf ha hn hn₁ _ ih =>
    intro h
    obtain ⟨mid', ha', hmid⟩ := guarded_stable hi ha h
    obtain ⟨m₁, hn', h₁⟩ := Respaced.line_cons hn (by simp) hmid
    obtain ⟨m₂, rfl, h₂⟩ := h₁.line_end hn₁ (by decide)
    obtain ⟨m₃, hn₁', h₃⟩ := Respaced.line_cons hn₁ (by simp) h₂
    obtain ⟨rest', hs', hrest⟩ := ih h₃
    exact ⟨rest', .elseLineIf ha' hn' hn₁' hs', hrest⟩
  | elseLine ha hn hn₁ hs =>
    intro h
    obtain ⟨mid', ha', hmid⟩ := guarded_stable hi ha h
    obtain ⟨m₁, hn', h₁⟩ := Respaced.line_cons hn (by simp) hmid
    obtain ⟨k, u, more, rfl, hk⟩ := plain_cons hs
    obtain ⟨m₂, rfl, h₂⟩ := h₁.line_end hn₁ (ne_layout_of_line hk)
    obtain ⟨m₃, hn₁', h₃⟩ := (hn₁.respaced h₂).line
      (by simpa [headKind?] using (ne_layout_of_line hk).2)
    obtain ⟨rest', hs', hrest⟩ := plain_stable hi hs h₃
    exact ⟨rest', .elseLine ha' hn' hn₁' hs', hrest⟩

theorem statement_stable : Stable tail false (Statement inner) true := by
  intro ls s rest ls' hs h
  cases hs with
  | cond hs =>
    obtain ⟨more, rfl, hmore⟩ := h.cons (by decide)
    obtain ⟨rest', hs', hrest⟩ := conditional_stable hi hs hmore
    exact ⟨rest', .cond hs', hrest⟩
  | plain hs =>
    obtain ⟨rest', hs', hrest⟩ := plain_stable hi hs h
    exact ⟨rest', .plain hs', hrest⟩

theorem item_stable : Stable tail false (Item inner) true := by
  intro ls i rest ls' hitem h
  cases hitem with
  | locals hd =>
    obtain ⟨rest', hd', hrest⟩ := varDecls_stable hi.expression hd h
    exact ⟨rest', .locals hd', hrest⟩
  | statement hs =>
    obtain ⟨rest', hs', hrest⟩ := statement_stable hi hs h
    exact ⟨rest', .statement hs', hrest⟩

end

theorem deeper_stable : ∀ n : Nat, (deeper n).Stable tail
  | 0 => ⟨fun _ _ _ _ h => h.elim, fun _ _ _ _ h => h.elim, fun _ _ _ h => h.elim,
      fun _ _ _ _ h => h.elim, fun _ _ _ h => h.elim, fun _ _ _ _ h => h.elim⟩
  | n + 1 =>
    have hi := deeper_stable n
    ⟨sum_stable hi.expression, block_stable statement_startsLine (statement_stable hi),
      block_startsBlock, block_stable item_startsLine (item_stable hi), block_startsBlock,
      conditional_stable hi⟩

/-! ## Declarations -/

theorem parameterList_stable : Stable tail false ParameterList false := by
  have hitem : Stable tail false Parameter false := by
    rintro _ _ _ ls' ⟨⟩ h
    obtain ⟨m₁, rfl, h₁⟩ := h.cons (by decide)
    obtain ⟨m₂, rfl, h₂⟩ := h₁.cons (by decide)
    exact ⟨m₂, .mk, h₂⟩
  intro ls ds rest ls' hd h
  cases hd with
  | none =>
    obtain ⟨m₁, rfl, h₁⟩ := h.cons (by decide)
    obtain ⟨m₂, rfl, h₂⟩ := h₁.cons (by decide)
    exact ⟨m₂, .none, h₂⟩
  | some hl =>
    obtain ⟨m₁, rfl, h₁⟩ := h.cons (by decide)
    obtain ⟨m₂, hl', h₂⟩ := listed_stable hitem hl h₁
    obtain ⟨m₃, rfl, h₃⟩ := h₂.cons (by decide)
    exact ⟨m₃, .some hl', h₃⟩

theorem returned_stable : Stable tail false Returned false := by
  intro ls r rest ls' hr h
  cases hr with
  | bare =>
    obtain ⟨m₁, rfl, h₁⟩ := h.cons (by decide)
    exact ⟨m₁, .bare, h₁⟩
  | named =>
    obtain ⟨m₁, rfl, h₁⟩ := h.cons (by decide)
    obtain ⟨m₂, rfl, h₂⟩ := h₁.cons (by decide)
    exact ⟨m₂, .named, h₂⟩

theorem header_stable : Stable tail false Header true := by
  intro ls hd rest ls' hh h
  cases hh with
  | bare hx hd hend =>
    obtain ⟨m₁, hx', h₁⟩ := word_stable hx h
    obtain ⟨m₂, hd', h₂⟩ := parameterList_stable hd h₁
    obtain ⟨rest', hend', hrest⟩ := lineEnd_stable hend h₂
    exact ⟨rest', .bare hx' hd' hend', hrest⟩
  | returning hx hd hr hend =>
    obtain ⟨m₁, hx', h₁⟩ := word_stable hx h
    obtain ⟨m₂, hd', h₂⟩ := parameterList_stable hd h₁
    obtain ⟨m₃, rfl, h₃⟩ := h₂.cons (by decide)
    obtain ⟨m₄, hr', h₄⟩ := listed_stable returned_stable hr h₃
    obtain ⟨rest', hend', hrest⟩ := lineEnd_stable hend h₄
    exact ⟨rest', .returning hx' hd' hr' hend', hrest⟩

theorem interfaceDecl_stable : Stable tail false InterfaceDecl true := by
  rintro ls i rest ls' ⟨hx, hb⟩ h
  obtain ⟨m₁, hx', h₁⟩ := word_stable hx h
  obtain ⟨_, _, hn⟩ := block_startsBlock hb
  obtain ⟨m₂, rfl, h₂⟩ := h₁.line_end hn (by decide)
  obtain ⟨rest', hb', hrest⟩ := block_stable header_startsLine header_stable hb h₂
  exact ⟨rest', .mk hx' hb', hrest⟩

theorem mark_stable {kind : Kind} (hk : startsFresh kind = false) :
    Stable tail false (Mark kind) false := by
  intro ls b rest ls' hm h
  cases hm with
  | absent => exact ⟨ls', .absent, h⟩
  | present =>
    obtain ⟨more, rfl, hmore⟩ := h.cons (ne_layout_of_line hk)
    rw [hk] at hmore
    exact ⟨more, .present, hmore⟩

theorem implemented_stable : Stable tail false Implemented false := by
  intro ls xs rest ls' hx h
  cases hx with
  | none => exact ⟨ls', .none, h⟩
  | some hl =>
    obtain ⟨m₁, rfl, h₁⟩ := h.cons (by decide)
    obtain ⟨rest', hl', hrest⟩ := listed_stable word_stable hl h₁
    exact ⟨rest', .some hl', hrest⟩

section

variable {inner : Deeper}

/-- Empty lines may stand in front of declarations. -/
theorem Declarations.behind {ls rest : List Lexeme} {ds : List Declaration}
    (hd : Declarations inner rest ds) (hn : Newlines ls rest) : Declarations inner ls ds := by
  cases hd with
  | done hn' => exact .done (newlines_trans hn hn')
  | classDecl hn' hc hds => exact .classDecl (newlines_trans hn hn') hc hds
  | interfaceDecl hn' hd hds => exact .interfaceDecl (newlines_trans hn hn') hd hds

variable (hi : inner.Stable tail)
include hi

theorem classPart_stable : Stable tail false (ClassPart inner) true := by
  intro ls i rest ls' hp h
  cases hp with
  | constructor hd hn hb =>
    obtain ⟨m₁, rfl, h₁⟩ := h.cons (by decide)
    obtain ⟨m₂, hd', h₂⟩ := parameterList_stable hd h₁
    obtain ⟨_, _, hstart⟩ := hi.methodBodyStarts hb
    obtain ⟨m₃, rfl, h₃⟩ := h₂.line_end (newlines_trans hn hstart) (by decide)
    obtain ⟨rest', hb', hrest⟩ := hi.methodBody hb (hn.respaced h₃)
    exact ⟨rest', .constructor hd' .none hb', hrest⟩
  | method hp hs hh hb =>
    obtain ⟨m₁, hp', h₁⟩ := mark_stable rfl hp h
    obtain ⟨m₂, hs', h₂⟩ := mark_stable rfl hs h₁
    obtain ⟨m₃, hh', h₃⟩ := header_stable hh h₂
    obtain ⟨rest', hb', hrest⟩ := hi.methodBody hb h₃
    exact ⟨rest', .method hp' hs' hh' hb', hrest⟩
  | members hd =>
    obtain ⟨rest', hd', hrest⟩ := varDecls_stable hi.expression hd h
    exact ⟨rest', .members hd', hrest⟩

theorem classDecl_stable : Stable tail false (ClassDecl inner) true := by
  rintro ls c rest ls' ⟨hx, hxs, hb⟩ h
  obtain ⟨m₁, hx', h₁⟩ := word_stable hx h
  obtain ⟨m₂, hxs', h₂⟩ := implemented_stable hxs h₁
  obtain ⟨_, _, hn⟩ := block_startsBlock hb
  obtain ⟨m₃, rfl, h₃⟩ := h₂.line_end hn (by decide)
  obtain ⟨rest', hb', hrest⟩ := block_stable classPart_startsLine (classPart_stable hi) hb h₃
  exact ⟨rest', .mk hx' hxs' hb', hrest⟩

/-- What is read of the one list is read of the other, and behind it what is read of `tail`. -/
theorem declarations_append {ls : List Lexeme} {ds ds' : List Declaration}
    (hd : Declarations inner ls ds) (htail : Declarations inner tail ds') :
    ∀ {ls' : List Lexeme}, Respaced tail true ls ls' → Declarations inner ls' (ds ++ ds') := by
  induction hd with
  | done hn =>
    intro ls' h
    obtain ⟨start', hn', hstart⟩ := (hn.respaced h).line (by simp [headKind?])
    cases hstart
    exact htail.behind hn'
  | classDecl hn hc _ ih =>
    intro ls' h
    obtain ⟨m₁, hn', h₁⟩ := Respaced.line_cons hn (by simp) h
    obtain ⟨m₂, hc', h₂⟩ := classDecl_stable hi hc h₁
    exact .classDecl hn' hc' (ih h₂)
  | interfaceDecl hn hd _ ih =>
    intro ls' h
    obtain ⟨m₁, hn', h₁⟩ := Respaced.line_cons hn (by simp) h
    obtain ⟨m₂, hd', h₂⟩ := interfaceDecl_stable hd h₁
    exact .interfaceDecl hn' hd' (ih h₂)

end

theorem declarations_congr {n : Nat} {ls ls' : List Lexeme} {ds : List Declaration}
    (hds : Declarations (deeper n) ls ds) (h : strip true ls = strip true ls') :
    Declarations (deeper n) ls' ds := by
  have happend := declarations_append (deeper_stable n) hds (.done .none) (respaced_of_strip_eq h)
  rwa [List.append_nil] at happend

/-- Lists that are the same without empty lines are the same programs. -/
theorem derives_congr {n : Nat} {ls ls' : List Lexeme} {p : Program}
    (h : strip true ls = strip true ls') : Derives n ls p ↔ Derives n ls' p := by
  constructor
  · rintro ⟨ds, hds, rfl⟩
    exact ⟨ds, declarations_congr hds h, rfl⟩
  · rintro ⟨ds, hds, rfl⟩
    exact ⟨ds, declarations_congr hds h.symm, rfl⟩

end Offside.Grammar
