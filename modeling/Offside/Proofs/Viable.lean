import Offside.Proofs.Recut
import Offside.Proofs.Repetition

/-!
# Parsers that are never late

A parser is viable for a phrase (`Viable`) if whatever it has taken is the beginning of one.
Where it fails because of the next token, what it has taken can be completed (`Opens`); where it
succeeds, what it has taken is the phrase, also with something else behind it (`Recuts`). A
sequence is viable for a phrase if its second part is viable for what is missing of the phrase
behind the first (`After`), so that a production is followed from the left to the right and the
phrase is put together where it ends. A failure for another cause than the next token promises
nothing, but a phrase has to exist in its place as well (`Fills`), since what comes before it may
have to be completed over it.
-/

namespace Offside

/-- The cause is that no token of an expected kind comes next. -/
def Cause.IsMismatch : Cause → Prop
  | .unexpectedToken _ _ | .prematureEnd _ => True
  | _ => False

namespace Parse

open Grammar

variable {α β : Type}

/-- In front of everything something can stand that is read as the phrase, with one result. -/
def Fills (R : Phrase α) : Prop :=
  ∃ a, ∀ rest, ∃ ls, R ls a rest

/-- What stands in `ls` in front of `left` begins the phrase: with something else in the place of
`left` the phrase is read in full, and leaves whatever is wanted. -/
def Opens (R : Phrase α) (ls left : List Lexeme) : Prop :=
  ∃ a, ∀ rest, ∃ ls' new, R ls' a rest ∧ Swap left new ls ls'

/-- What stands in `ls` in front of `rest` is the phrase, also with something else behind it. If
that takes the place of the end of a block which has ended the line as well, a line end comes
first. -/
def Recuts (R : Phrase α) (ls : List Lexeme) (a : α) (rest : List Lexeme) : Prop :=
  ∀ ⦃left new rest'⦄, Swap left new rest rest' →
    ∃ ls' new', R ls' a rest' ∧ Swap left new' ls ls'

/-- What is missing of the phrase `R` behind the phrase `P`. -/
def After (P : Phrase α) (a : α) (R : Phrase β) : Phrase β := fun ls b rest =>
  ∀ front, P front a ls → R front b rest

/-- Whatever the parser has taken begins the phrase. -/
structure Viable (p : Parse α) (R : Phrase α) : Prop where
  /-- What has not been read of the phrase can be put in. -/
  fills : Fills R
  /-- A success has read the phrase. -/
  recuts : ∀ ⦃s a s'⦄, p s = .ok a s' → Recuts R s.lexemes a s'.lexemes
  /-- A failure because of the next token has read its beginning. -/
  opens : ∀ ⦃s d s'⦄, p s = .error d s' → d.cause.IsMismatch → Opens R s.lexemes s'.lexemes

variable {R : Phrase α}

theorem Fills.opens (h : Fills R) (ls : List Lexeme) : Opens R ls ls := by
  obtain ⟨a, ha⟩ := h
  refine ⟨a, fun rest => ?_⟩
  obtain ⟨ls', hR⟩ := ha rest
  exact ⟨ls', ls', hR, .here⟩

theorem Viable.mono {p : Parse α} {S : Phrase α} (h : Viable p R) (hS : Within R S) :
    Viable p S where
  fills := by
    obtain ⟨a, ha⟩ := h.fills
    exact ⟨a, fun rest => (ha rest).imp fun _ hR => hS hR⟩
  recuts := by
    intro s a s' hs left new rest' hswap
    obtain ⟨ls', new', hR, hswap'⟩ := h.recuts hs hswap
    exact ⟨ls', new', hS hR, hswap'⟩
  opens := by
    intro s d s' hs hd
    obtain ⟨a, ha⟩ := h.opens hs hd
    refine ⟨a, fun rest => ?_⟩
    obtain ⟨ls', new, hR, hswap⟩ := ha rest
    exact ⟨ls', new, hS hR, hswap⟩

/-! ## Sequences -/

theorem bind_error {p : Parse α} {f : α → Parse β} {s s' : State} {d : Diagnostic} :
    (p >>= f) s = .error d s' ↔
      p s = .error d s' ∨ ∃ a mid, p s = .ok a mid ∧ f a mid = .error d s' := by
  show EStateM.bind p f s = _ ↔ _
  unfold EStateM.bind
  cases p s with
  | ok a mid =>
    constructor
    · exact fun h => .inr ⟨a, mid, rfl, h⟩
    · rintro (h | ⟨_, _, ⟨⟩, h⟩)
      · cases h
      · exact h
  | error e mid =>
    constructor
    · rintro ⟨⟩
      exact .inl rfl
    · rintro (h | ⟨_, _, ⟨⟩, _⟩)
      cases h
      rfl

theorem viable_bind {p : Parse α} {f : α → Parse β} {R : Phrase β} {P : Phrase α}
    (hp : Viable p P) (hf : ∀ a, Viable (f a) (After P a R)) : Viable (p >>= f) R where
  fills := by
    obtain ⟨a, ha⟩ := hp.fills
    obtain ⟨b, hb⟩ := (hf a).fills
    refine ⟨b, fun rest => ?_⟩
    obtain ⟨mid, hmid⟩ := hb rest
    obtain ⟨ls, hls⟩ := ha mid
    exact ⟨ls, hmid ls hls⟩
  recuts := by
    intro s b s' h left new rest' hswap
    obtain ⟨a, t, ht, hrest⟩ := bind_ok.mp h
    obtain ⟨mid, new', hmid, hswap'⟩ := (hf a).recuts hrest hswap
    obtain ⟨ls, new'', hls, hswap''⟩ := hp.recuts ht hswap'
    exact ⟨ls, new'', hmid ls hls, hswap''⟩
  opens := by
    intro s d s' h hd
    rcases bind_error.mp h with hfirst | ⟨a, t, ht, hrest⟩
    · obtain ⟨a, ha⟩ := hp.opens hfirst hd
      obtain ⟨b, hb⟩ := (hf a).fills
      refine ⟨b, fun rest => ?_⟩
      obtain ⟨mid, hmid⟩ := hb rest
      obtain ⟨ls, new, hls, hswap⟩ := ha mid
      exact ⟨ls, new, hmid ls hls, hswap⟩
    · obtain ⟨b, hb⟩ := (hf a).opens hrest hd
      refine ⟨b, fun rest => ?_⟩
      obtain ⟨mid, new, hmid, hswap⟩ := hb rest
      obtain ⟨ls, new', hls, hswap'⟩ := hp.recuts ht hswap
      exact ⟨ls, new', hmid ls hls, hswap'⟩

theorem viable_pure {a : α} (h : ∀ ls, R ls a ls) : Viable (pure a) R where
  fills := ⟨a, fun rest => ⟨rest, h rest⟩⟩
  recuts := by
    intro s b s' hs left new rest' hswap
    obtain ⟨rfl, rfl⟩ := pure_ok.mp hs
    exact ⟨rest', new, h rest', hswap⟩
  opens := by
    rintro s d s' ⟨⟩

/-! ## Looking ahead and failing -/

/-- What is looked up decides nothing about what may stand there. -/
theorem viable_look {view : Stream → α} {f : α → Parse β} {R : Phrase β}
    (h : ∀ a, Viable (f a) R) : Viable (look view >>= f) R where
  fills := (h (view ⟨[], Position.start⟩)).fills
  recuts := fun s _ _ hs => (h (view s.stream)).recuts hs
  opens := fun s _ _ hs hd => (h (view s.stream)).opens hs hd

theorem viable_note {e : Event} {f : Unit → Parse β} {R : Phrase β} (h : Viable (f ()) R) :
    Viable (note e >>= f) R where
  fills := h.fills
  recuts := fun s _ _ hs =>
    h.recuts (s := { s with events := s.events.push e }) hs
  opens := fun s _ _ hs hd => h.opens (s := { s with events := s.events.push e }) hs hd

theorem viable_unexpected {expected : List Kind} (h : Fills R) :
    Viable (unexpected expected) R where
  fills := h
  recuts := by
    rintro s a s' ⟨⟩
  opens := by
    rintro s d s' ⟨⟩ -
    exact h.opens _

theorem viable_fail {cause : Cause} {position : Position} (hcause : ¬ cause.IsMismatch)
    (h : Fills R) : Viable (fail cause position) R where
  fills := h
  recuts := by
    rintro s a s' ⟨⟩
  opens := by
    rintro s d s' ⟨⟩ hd
    exact absurd hd hcause

theorem viable_failHere {cause : Cause} (hcause : ¬ cause.IsMismatch) (h : Fills R) :
    Viable (failHere cause) R :=
  viable_look fun _ => viable_fail hcause h

/-! ## Taking lexemes -/

/-- A phrase that may be missing. -/
inductive Maybe (R : Phrase α) : Phrase (Option α)
  | absent {ls} : Maybe R ls none ls
  | present {ls a rest} : R ls a rest → Maybe R ls (some a) rest

/-- A token of the given kind. -/
inductive Taken (kind : Kind) : Phrase Token
  | mk {t rest} : Taken kind (⟨kind, t.value⟩ :: rest) t rest

/-- What is missing of the phrase behind a token of the given kind. -/
def Behind (kind : Kind) (R : Phrase α) : Phrase α := fun ls a rest =>
  ∀ v, R (⟨kind, v⟩ :: ls) a rest

/-- Behind a phrase that is missing all of the next one is. -/
theorem within_after_absent {P : Phrase β} : Within R (After (Maybe P) none R) := by
  rintro ls a rest h _ ⟨⟩
  exact h

theorem taken_fills (kind : Kind) : Fills (Taken kind) :=
  ⟨.plain kind Position.start, fun _ => ⟨_, .mk⟩⟩

theorem take?_ne_error {kind : Kind} {s s' : State} {d : Diagnostic} :
    take? kind s ≠ .error d s' := by
  rw [take?]
  split <;> simp

theorem viable_take? (kind : Kind) : Viable (take? kind) (Maybe (Taken kind)) where
  fills := ⟨none, fun _ => ⟨_, .absent⟩⟩
  recuts := by
    intro s r s' h left new rest' hswap
    rcases take?_ok h with ⟨rfl, rfl, -⟩ | ⟨t, rfl, rfl, hl⟩
    · exact ⟨rest', new, .absent, hswap⟩
    · rw [hl]
      exact ⟨_, new, .present .mk, .cons hswap⟩
  opens := fun _ _ _ h => absurd h take?_ne_error

theorem viable_mark (kind : Kind) : Viable (accept kind) (Mark kind) := by
  refine viable_bind (viable_take? kind) fun r => viable_pure ?_
  rintro ls front (_ | ⟨⟨⟩⟩)
  · exact .absent
  · exact .present

theorem viable_accept {kind : Kind} {f : Bool → Parse β} {R : Phrase β}
    (htrue : Viable (f true) (Behind kind R)) (hfalse : Viable (f false) R) :
    Viable (accept kind >>= f) R := by
  refine viable_bind (viable_mark kind) fun b => ?_
  cases b with
  | false =>
    refine hfalse.mono ?_
    rintro ls b rest h _ ⟨⟩
    exact h
  | true =>
    refine htrue.mono ?_
    rintro ls b rest h _ ⟨⟩
    exact h _

theorem viable_token (kind : Kind) : Viable (expect kind) (Taken kind) := by
  refine viable_bind (viable_take? kind) fun r => ?_
  split
  · refine viable_pure ?_
    rintro ls front (_ | h)
    exact h
  · obtain ⟨t, ht⟩ := taken_fills kind
    exact viable_unexpected ⟨t, fun rest => (ht rest).imp fun _ h => within_after_absent h⟩

theorem expect_error {kind : Kind} {s s' : State} {d : Diagnostic}
    (h : expect kind s = .error d s') : s' = s := by
  rcases bind_error.mp h with ht | ⟨r, t, ht, h₁⟩
  · exact absurd ht take?_ne_error
  · rcases take?_ok ht with ⟨rfl, rfl, -⟩ | ⟨u, rfl, -⟩ <;> cases h₁
    rfl

theorem viable_discard {p : Parse α} {f : Unit → Parse β} {P : Phrase α} {R : Phrase β}
    (hp : Viable p P) (h : ∀ a, Viable (f ()) (After P a R)) : Viable (discard p >>= f) R := by
  have hdiscard : discard p >>= f = p >>= fun _ => f () := bind_map_left _ _ _
  rw [hdiscard]
  exact viable_bind hp h

theorem viable_expect {kind : Kind} {f : Unit → Parse β} {R : Phrase β}
    (h : Viable (f ()) (Behind kind R)) : Viable (discard (expect kind) >>= f) R := by
  refine viable_discard (viable_token kind) fun t => h.mono ?_
  rintro ls b rest hR _ ⟨⟩
  exact hR _

theorem viable_word : Viable word Word := by
  refine viable_bind (viable_token .word) fun t => viable_pure ?_
  rintro ls front ⟨⟩
  exact .mk

/-- A token that has one of the meanings. -/
inductive Meaning (meaning? : Kind → Option α) : Phrase α
  | mk {k v a rest} : meaning? k = some a → Meaning meaning? (⟨k, v⟩ :: rest) a rest

theorem viable_takeMeaning? (meaning? : Kind → Option α) :
    Viable (takeMeaning? meaning?) (Maybe (Meaning meaning?)) where
  fills := ⟨none, fun _ => ⟨_, .absent⟩⟩
  recuts := by
    intro s r s' h left new rest' hswap
    rcases takeMeaning?_ok h with ⟨rfl, rfl⟩ | ⟨k, v, a, rfl, hk, hl⟩
    · exact ⟨rest', new, .absent, hswap⟩
    · rw [hl]
      exact ⟨_, new, .present (.mk (v := v) hk), .cons hswap⟩
  opens := by
    intro s d s' h
    rw [takeMeaning?] at h
    split at h
    · cases h
    · split at h <;> cases h

/-! ## Line ends -/

theorem viable_skipNewlines : Viable skipNewlines fun ls _ rest => Newlines ls rest where
  fills := ⟨(), fun _ => ⟨_, .none⟩⟩
  recuts := by
    intro s u s' h left new rest' hswap
    obtain ⟨ls', hn, hswap'⟩ := (skipNewlines_newlines h).swap hswap
    exact ⟨ls', new, hn, hswap'⟩
  opens := by
    rintro s d s' ⟨⟩

/-- A line end with all that follow it. -/
inductive LineEnds : Phrase Unit
  | mk {v ls rest} : Newlines ls rest → LineEnds (⟨.newline, v⟩ :: ls) () rest

theorem viable_newlines : Viable newlines LineEnds :=
  viable_expect (viable_skipNewlines.mono fun _ _ _ hn _ => .mk hn)

theorem lineEnd_error {s s' : State} {d : Diagnostic} (h : lineEnd s = .error d s') : s' = s := by
  rcases bind_error.mp h with hb | ⟨b, t, hb, h₁⟩
  · rcases bind_error.mp hb with hb | ⟨r, t, -, ⟨⟩⟩
    exact absurd hb take?_ne_error
  · rcases accept_ok hb with ⟨rfl, rfl, -⟩ | ⟨v, rfl, -⟩
    · rw [if_neg Bool.false_ne_true] at h₁
      rcases bind_error.mp h₁ with ⟨⟨⟩⟩ | ⟨b, t, hb, h₂⟩
      obtain ⟨-, rfl⟩ := nextAre_ok.mp hb
      split at h₂ <;> cases h₂
      rfl
    · cases h₁

/-- The line may be ended by the end of the block, so what has been read does not tell whether
there is a line end, and it is put in where something else is to stand behind. -/
theorem viable_lineEnd : Viable lineEnd fun ls _ rest => LineEnd ls rest where
  fills := ⟨(), fun _ => ⟨⟨.newline, none⟩ :: _, .newline⟩⟩
  recuts := fun _ _ _ h _ _ _ hswap => (lineEnd_ok h).swap hswap
  opens := by
    intro s d s' h _
    rw [lineEnd_error h]
    exact ⟨(), fun rest => ⟨_, ⟨.newline, none⟩ :: rest, .newline, .here⟩⟩

/-! ## Repetition -/

section

variable {item? : Parse (Option α)} {R S : Phrase (Option α)} (hitem : Viable item? R)
include hitem

/-- Rounds are left as long as there are lexemes, so the last one has read that no item follows. -/
theorem recuts_of_gatherUpTo (hsound : Sound item? S) (hS : Shrinks S) :
    ∀ (rounds : Nat) {s s' : State} {as : List α}, s.lexemes.length < rounds →
      gatherUpTo item? rounds s = (as, .ok () s') → Recuts (Until R) s.lexemes as s'.lexemes
  | 0, _, _, _, hlt, _ => absurd hlt (Nat.not_lt_zero _)
  | rounds + 1, s, s', as, hlt, h => by
    intro left new rest' hswap
    rw [gatherUpTo] at h
    cases hr : item? s with
    | error d t =>
      rw [hr] at h
      cases h
    | ok r t =>
      rw [hr] at h
      cases r with
      | none =>
        cases h
        obtain ⟨ls', new', hR, hswap'⟩ := hitem.recuts hr hswap
        exact ⟨ls', new', .stop hR, hswap'⟩
      | some a =>
        rcases hg : gatherUpTo item? rounds t with ⟨bs, ending⟩
        simp only [hg] at h
        cases h
        have hlen := hS (hsound hr)
        obtain ⟨mid, new', hmid, hswap'⟩ :=
          recuts_of_gatherUpTo hsound hS rounds (by omega) hg hswap
        obtain ⟨ls', new'', hR, hswap''⟩ := hitem.recuts hr hswap'
        exact ⟨ls', new'', .next hR hmid, hswap''⟩

theorem opens_of_gatherUpTo (hstop : ∀ rest, ∃ ls, R ls none rest) :
    ∀ (rounds : Nat) {s s' : State} {as : List α} {d : Diagnostic}, d.cause.IsMismatch →
      gatherUpTo item? rounds s = (as, .error d s') → Opens (Until R) s.lexemes s'.lexemes
  | 0, _, _, _, _, _, h => by cases h
  | rounds + 1, s, s', as, d, hd, h => by
    rw [gatherUpTo] at h
    cases hr : item? s with
    | error d t =>
      rw [hr] at h
      cases h
      obtain ⟨r, hr⟩ := hitem.opens hr hd
      cases r with
      | none =>
        refine ⟨[], fun rest => ?_⟩
        obtain ⟨ls', new, hR, hswap⟩ := hr rest
        exact ⟨ls', new, .stop hR, hswap⟩
      | some a =>
        refine ⟨[a], fun rest => ?_⟩
        obtain ⟨mid, hmid⟩ := hstop rest
        obtain ⟨ls', new, hR, hswap⟩ := hr mid
        exact ⟨ls', new, .next hR (.stop hmid), hswap⟩
    | ok r t =>
      rw [hr] at h
      cases r with
      | none => cases h
      | some a =>
        rcases hg : gatherUpTo item? rounds t with ⟨bs, ending⟩
        simp only [hg] at h
        cases h
        obtain ⟨as, has⟩ := opens_of_gatherUpTo hstop rounds hd hg
        refine ⟨a :: as, fun rest => ?_⟩
        obtain ⟨mid, new, hmid, hswap⟩ := has rest
        obtain ⟨ls', new', hR, hswap'⟩ := hitem.recuts hr hswap
        exact ⟨ls', new', .next hR hmid, hswap'⟩

theorem viable_many (hsound : Sound item? S) (hS : Shrinks S)
    (hstop : ∀ rest, ∃ ls, R ls none rest) : Viable (many item?) (Until R) where
  fills := ⟨[], fun rest => (hstop rest).imp fun _ h => .stop h⟩
  recuts := by
    intro s as s' h
    rw [many, Gather.toParse, gather, size_eq] at h
    rcases hg : gatherUpTo item? (s.lexemes.length + 1) s with ⟨bs, ending | ending⟩ <;>
      rw [hg] at h <;> cases h
    exact recuts_of_gatherUpTo hitem hsound hS _ (Nat.lt_succ_self _) hg
  opens := by
    intro s d s' h hd
    rw [many, Gather.toParse, gather] at h
    rcases hg : gatherUpTo item? (s.stream.size + 1) s with ⟨bs, ending | ending⟩ <;>
      rw [hg] at h <;> cases h
    exact opens_of_gatherUpTo hitem hstop _ hd hg

end

/-- A phrase behind a token of the given kind. -/
inductive Led (kind : Kind) (R : Phrase α) : Phrase α
  | mk {v ls a rest} : R ls a rest → Led kind R (⟨kind, v⟩ :: ls) a rest

theorem listed_of_until {ms rest : List Lexeme} {as : List α}
    (h : Until (Maybe (Led .comma R)) ms as rest) :
    ∀ {ls : List Lexeme} {a : α}, R ls a ms → Listed R ls (a :: as) rest := by
  induction h with
  | stop hstop =>
    cases hstop
    exact .one
  | next hnext _ ih =>
    intro ls a ha
    obtain _ | ⟨⟨hnext⟩⟩ := hnext
    exact .more ha (ih hnext)

section

variable {item : Parse α} (hitem : Viable item R)
include hitem

theorem viable_optional_look (view : Stream → Bool) :
    Viable (optional (look view) item) (Maybe R) := by
  refine viable_look fun b => ?_
  split
  · exact viable_bind hitem fun a => viable_pure fun _ _ h => .present h
  · exact viable_pure fun _ => .absent

theorem viable_optional_accept (kind : Kind) :
    Viable (optional (accept kind) item) (Maybe (Led kind R)) :=
  viable_accept (viable_bind hitem fun _ => viable_pure fun _ _ h _ => .present (.mk h))
    (viable_pure fun _ => .absent)

theorem viable_line? : Viable (line? item) (Line R) := by
  refine viable_bind viable_skipNewlines fun _ => viable_accept ?_ ?_
  · exact viable_pure fun _ _ _ hn => .done hn
  · exact viable_bind hitem fun _ => viable_pure fun _ _ ha _ hn => .next hn ha

variable {S : Phrase α} (hsound : Sound item S) (hS : Consumes S)
include hsound hS

theorem viable_commaSeparated : Viable (commaSeparated item) (Listed R) := by
  have hmany := viable_many (viable_optional_accept hitem .comma)
    (optional_accept_sound hsound .comma) (marked_shrinks hS _) fun _ => ⟨_, .absent⟩
  exact viable_bind hitem fun _ => viable_bind hmany fun _ =>
    viable_pure fun _ _ hmore _ hfirst => listed_of_until hmore hfirst

theorem viable_block : Viable (block item) (Block R) := by
  rw [block_eq]
  have hmany := viable_many (viable_line? hitem) (line?_sound hsound) (line_shrinks hS)
    fun _ => ⟨⟨.dedent, none⟩ :: _, .done .none⟩
  refine viable_bind viable_skipNewlines fun _ => viable_expect (hmany.mono ?_)
  exact fun _ _ _ hlines _ _ hn => .mk hn (lines_of_until hlines)

end

theorem viable_leftAssociative {operator? : Kind → Option MathOp} {operand : Parse Expr}
    {R S : Phrase Expr} (hoperand : Viable operand R) (hsound : Sound operand S)
    (hS : Consumes S) :
    Viable (leftAssociative .math (takeMeaning? operator?) operand) (Chain operator? R) := by
  have hitem : Viable (operation? (takeMeaning? operator?) operand) (Operation operator? R) := by
    refine viable_bind (viable_takeMeaning? _) fun o => ?_
    split
    · refine viable_pure ?_
      rintro ls _ ⟨⟩
      exact .absent
    · refine viable_bind hoperand fun e => viable_pure ?_
      rintro rest ls he _ (_ | ⟨⟨hk⟩⟩)
      exact .present hk he
  have hmany := viable_many hitem (operation?_sound hsound) (operation_shrinks hS)
    fun _ => ⟨_, .absent⟩
  exact viable_bind hoperand fun _ => viable_bind hmany fun _ =>
    viable_pure fun _ _ hops _ hfirst => chain_of_until hops (.first hfirst)

end Parse

end Offside
