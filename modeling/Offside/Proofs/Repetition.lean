import Offside.Proofs.Derivation
import Offside.Proofs.Run

/-!
# Runs of repetitions

Reading items until there are none reads all of them: each item takes a lexeme, so the bound
on the rounds is never met (`many_sound`, `takes_many`). Lists, chains of operators and blocks
are repetitions, and are shown to be the phrases of the grammar that they are meant to be.
-/

namespace Offside.Parse

open Grammar

variable {α : Type}

/-! ## Items until there are none -/

/-- Items of `R` one after the other, up to where there is none. -/
inductive Until (R : Phrase (Option α)) : Phrase (List α)
  | stop {ls rest} : R ls none rest → Until R ls [] rest
  | next {ls a mid as rest} : R ls (some a) mid → Until R mid as rest → Until R ls (a :: as) rest

/-- An item that is there takes at least one lexeme. -/
def Shrinks (R : Phrase (Option α)) : Prop :=
  ∀ ⦃ls a rest⦄, R ls (some a) rest → rest.length < ls.length

theorem Takes.sound {p : Parse α} {R : Phrase α} {ls rest : List Lexeme} {a : α}
    (h : Takes p ls a rest) (hp : Sound p R) : R ls a rest := by
  obtain ⟨s, hs, rfl⟩ := h _ (State.lexemes_ofLexemes ls)
  have := hp hs
  rwa [State.lexemes_ofLexemes] at this

theorem size_eq (s : State) : s.stream.size = s.lexemes.length := by
  simp [Stream.size, State.lexemes]

section

variable {item? : Parse (Option α)} {R : Phrase (Option α)} (hitem : Sound item? R)
  (hR : Shrinks R)
include hitem hR

/-- Enough rounds are left as long as there are more of them than lexemes. -/
theorem until_of_gatherUpTo :
    ∀ (rounds : Nat) {s s' : State} {as : List α}, s.lexemes.length < rounds →
      gatherUpTo item? rounds s = (as, .ok () s') → Until R s.lexemes as s'.lexemes
  | 0, _, _, _, hlt, _ => absurd hlt (Nat.not_lt_zero _)
  | rounds + 1, s, s', as, hlt, h => by
    rw [gatherUpTo] at h
    cases hr : item? s with
    | error d t =>
      rw [hr] at h
      cases h
    | ok r t =>
      rw [hr] at h
      cases r with
      | none =>
        cases h
        exact .stop (hitem hr)
      | some a =>
        have hmore := hitem hr
        rcases hg : gatherUpTo item? rounds t with ⟨bs, ending⟩
        simp only [hg] at h
        cases h
        have hlen := hR hmore
        exact .next hmore (until_of_gatherUpTo rounds (by omega) hg)

theorem many_sound : Sound (many item?) (Until R) := by
  intro s as s' h
  rw [many, Gather.toParse, gather, size_eq] at h
  rcases hg : gatherUpTo item? (s.lexemes.length + 1) s with ⟨bs, ending | ending⟩
  · rw [hg] at h
    cases h
    exact until_of_gatherUpTo hitem hR _ (Nat.lt_succ_self _) hg
  · rw [hg] at h
    cases h

theorem gatherUpTo_of_until {ls rest : List Lexeme} {as : List α}
    (h : Until (Takes item?) ls as rest) :
    ∀ (rounds : Nat) (s : State), s.lexemes = ls → ls.length < rounds →
      ∃ s', gatherUpTo item? rounds s = (as, .ok () s') ∧ s'.lexemes = rest := by
  induction h with
  | stop ht =>
    intro rounds s hs hlt
    obtain ⟨t, htt, htl⟩ := ht s hs
    obtain ⟨rounds, rfl⟩ := Nat.exists_eq_succ_of_ne_zero (Nat.ne_of_gt (Nat.zero_lt_of_lt hlt))
    exact ⟨t, by rw [gatherUpTo, htt], htl⟩
  | next ht _ ih =>
    intro rounds s hs hlt
    have hlen := hR (ht.sound hitem)
    obtain ⟨t, htt, htl⟩ := ht s hs
    obtain ⟨rounds, rfl⟩ := Nat.exists_eq_succ_of_ne_zero (Nat.ne_of_gt (Nat.zero_lt_of_lt hlt))
    obtain ⟨u, hu, hul⟩ := ih rounds t htl (by omega)
    exact ⟨u, by rw [gatherUpTo, htt]; simp only [hu], hul⟩

theorem takes_many {ls rest : List Lexeme} {as : List α} (h : Until (Takes item?) ls as rest) :
    Takes (many item?) ls as rest := by
  intro s hs
  have hlt : ls.length < s.stream.size + 1 := by
    rw [size_eq, hs]
    exact Nat.lt_succ_self _
  obtain ⟨t, ht, htl⟩ := gatherUpTo_of_until hitem hR h _ s hs hlt
  refine ⟨t, ?_, htl⟩
  rw [many, Gather.toParse, gather, ht]

end

/-! ## Lists -/

/-- An item behind its mark, if the mark is there. -/
inductive Marked (mark : Kind) (R : Phrase α) : Phrase (Option α)
  | absent {ls} : headKind? ls ≠ some mark → Marked mark R ls none ls
  | present {v ls a rest} : R ls a rest → Marked mark R (⟨mark, v⟩ :: ls) (some a) rest

theorem marked_shrinks {R : Phrase α} (hR : Consumes R) (mark : Kind) :
    Shrinks (Marked mark R) := by
  rintro ls a rest ⟨⟩
  exact ((hR ‹_›).cons _).2

section

variable {item : Parse α} {R : Phrase α} (hitem : Sound item R)
include hitem

theorem optional_accept_sound (mark : Kind) :
    Sound (optional (accept mark) item) (Marked mark R) := by
  intro s r s' h
  obtain ⟨b, mid, hb, h₁⟩ := bind_ok.mp h
  rcases accept_ok hb with ⟨rfl, rfl, hk⟩ | ⟨v, rfl, hl⟩
  · obtain ⟨rfl, rfl⟩ := pure_ok.mp h₁
    exact .absent hk
  · obtain ⟨a, t, ha, h₂⟩ := bind_ok.mp h₁
    obtain ⟨rfl, rfl⟩ := pure_ok.mp h₂
    rw [hl]
    exact .present (hitem ha)

variable (hR : Consumes R)
include hR

theorem commaSeparated_sound : Sound (commaSeparated item) (Listed R) := by
  intro s as s' h
  obtain ⟨a, mid, ha, h₁⟩ := bind_ok.mp h
  obtain ⟨bs, t, hbs, h₂⟩ := bind_ok.mp h₁
  obtain ⟨rfl, rfl⟩ := pure_ok.mp h₂
  have hlist := many_sound (optional_accept_sound hitem .comma) (marked_shrinks hR _) hbs
  have hfirst := hitem ha
  generalize s.lexemes = ls at hfirst
  clear hbs ha h h₁ h₂
  generalize mid.lexemes = ms, t.lexemes = ts at hlist hfirst
  induction hlist generalizing ls a with
  | stop hstop =>
    cases hstop
    exact .one hfirst
  | next hnext _ ih =>
    cases hnext with
    | present hb => exact .more hfirst (ih _ _ hb)

/-- Items run through as long as what follows an item may follow it; a comma always may. -/
theorem takes_commaSeparated {F : List Lexeme → Prop}
    (htakes : ∀ {ls a rest}, R ls a rest → F rest → Takes item ls a rest)
    (hcomma : ∀ v ls, F (⟨.comma, v⟩ :: ls)) {ls rest : List Lexeme} {as : List α}
    (h : Listed R ls as rest) (hf : F rest) (hk : headKind? rest ≠ some .comma) :
    Takes (commaSeparated item) ls as rest := by
  have hmore : ∀ {ms bs}, Until (Takes (optional (accept .comma) item)) ms bs rest →
      Takes (many (optional (accept .comma) item)) ms bs rest :=
    fun hu => takes_many (optional_accept_sound hitem .comma) (marked_shrinks hR _) hu
  have key : ∃ a mid bs, as = a :: bs ∧ Takes item ls a mid ∧
      Until (Takes (optional (accept .comma) item)) mid bs rest := by
    clear hmore
    induction h with
    | one ha =>
      have hstop : Takes (optional (accept .comma) item) _ none _ :=
        takes_bind (takes_accept_miss hk) (takes_pure _ _)
      exact ⟨_, _, [], rfl, htakes ha hf, .stop hstop⟩
    | @more ls a v mid as rest ha _ ih =>
      obtain ⟨b, mid', bs, rfl, hb, hu⟩ := ih hf hk
      have hnext : Takes (optional (accept .comma) item) (⟨.comma, v⟩ :: mid) (some b) mid' :=
        takes_bind (takes_accept _ _ _) (takes_bind hb (takes_pure _ _))
      exact ⟨a, _, _, rfl, htakes ha (hcomma _ _), .next hnext hu⟩
  obtain ⟨a, mid, bs, rfl, ha, hu⟩ := key
  exact takes_bind ha (takes_bind (hmore hu) (takes_pure _ _))

end

/-! ## Chains of operators -/

/-- An operator with the operand behind it, if there is an operator. -/
inductive Operation (operator? : Kind → Option MathOp) (R : Phrase Expr) :
    Phrase (Option (MathOp × Expr))
  | absent {ls} : Operation operator? R ls none ls
  | present {k v op ls e rest} : operator? k = some op → R ls e rest →
      Operation operator? R (⟨k, v⟩ :: ls) (some (op, e)) rest

section

variable {operator? : Kind → Option MathOp} {operand : Parse Expr} {R : Phrase Expr}

theorem operation_shrinks (hR : Consumes R) : Shrinks (Operation operator? R) := by
  rintro ls ⟨op, e⟩ rest ⟨⟩
  exact ((hR ‹_›).cons _).2

/-- The fold over the operations read so far is the chain read so far. -/
theorem chain_of_until {ms rest : List Lexeme} {ops : List (MathOp × Expr)}
    (h : Until (Operation operator? R) ms ops rest) :
    ∀ {ls : List Lexeme} {e : Expr}, Chain operator? R ls e ms →
      Chain operator? R ls (ops.foldl (fun left next => .math next.1 left next.2) e) rest := by
  induction h with
  | stop hstop =>
    cases hstop
    exact id
  | next hnext _ ih =>
    intro ls e hchain
    cases hnext with
    | present hk he => exact ih (.next hchain hk he)

variable (hoperand : Sound operand R) (hR : Consumes R)
include hoperand

theorem operation?_sound :
    Sound (operation? (takeMeaning? operator?) operand) (Operation operator? R) := by
  intro s r s' h
  obtain ⟨o, mid, ho, h₁⟩ := bind_ok.mp h
  rcases takeMeaning?_ok ho with ⟨rfl, rfl⟩ | ⟨k, v, op, rfl, hk, hl⟩
  · obtain ⟨rfl, rfl⟩ := pure_ok.mp h₁
    exact .absent
  · obtain ⟨e, t, he, h₂⟩ := bind_ok.mp h₁
    obtain ⟨rfl, rfl⟩ := pure_ok.mp h₂
    rw [hl]
    exact .present hk (hoperand he)

include hR

theorem leftAssociative_sound :
    Sound (leftAssociative .math (takeMeaning? operator?) operand) (Chain operator? R) := by
  intro s e s' h
  obtain ⟨first, mid, hfirst, h₁⟩ := bind_ok.mp h
  obtain ⟨ops, t, hops, h₂⟩ := bind_ok.mp h₁
  obtain ⟨rfl, rfl⟩ := pure_ok.mp h₂
  exact chain_of_until (many_sound (operation?_sound hoperand) (operation_shrinks hR) hops)
    (.first (hoperand hfirst))

/-- A chain runs through as long as what follows an operand may follow it; an operator of the
chain always may. -/
theorem takes_leftAssociative {F : List Lexeme → Prop}
    (htakes : ∀ {ls e rest}, R ls e rest → F rest → Takes operand ls e rest)
    (hop : ∀ {k v ls op}, operator? k = some op → F (⟨k, v⟩ :: ls))
    {ls rest : List Lexeme} {e : Expr} (h : Chain operator? R ls e rest) (hf : F rest)
    (hk : Meaningless operator? rest) :
    Takes (leftAssociative .math (takeMeaning? operator?) operand) ls e rest := by
  have hmore : ∀ {ms ops}, Until (Takes (operation? (takeMeaning? operator?) operand)) ms ops rest →
      Takes (many (operation? (takeMeaning? operator?) operand)) ms ops rest :=
    fun hu => takes_many (operation?_sound hoperand) (operation_shrinks hR) hu
  have hstop : Takes (operation? (takeMeaning? operator?) operand) rest none rest :=
    takes_bind (takes_takeMeaning?_miss hk) (takes_pure _ _)
  -- The chain grows to the right, so the operations behind it come as an accumulator.
  have key : ∀ {mid : List Lexeme}, Chain operator? R ls e mid → F mid →
      ∀ ops, Until (Takes (operation? (takeMeaning? operator?) operand)) mid ops rest →
        ∃ first mid' ops', Takes operand ls first mid' ∧
          Until (Takes (operation? (takeMeaning? operator?) operand)) mid' ops' rest ∧
          ops.foldl (fun left next => Expr.math next.1 left next.2) e =
            ops'.foldl (fun left next => Expr.math next.1 left next.2) first := by
    clear h
    intro mid hc
    induction hc with
    | first he => exact fun hfm ops hu => ⟨_, _, ops, htakes he hfm, hu, rfl⟩
    | @next ls left k v mid op right mid' _ hk he ih =>
      intro hfm ops hu
      have hnext : Takes (operation? (takeMeaning? operator?) operand) (⟨k, v⟩ :: mid)
          (some (op, right)) mid' :=
        takes_bind (takes_takeMeaning? hk _ _) (takes_bind (htakes he hfm) (takes_pure _ _))
      exact ih (hop hk) _ (.next hnext hu)
  obtain ⟨first, mid, ops, hfirst, hu, heq⟩ := key h hf [] (.stop hstop)
  have hret := takes_pure (ops.foldl (fun left next => Expr.math next.1 left next.2) first) rest
  rw [← heq] at hret
  refine takes_bind hfirst (takes_bind (hmore hu) ?_)
  rw [← heq]
  exact takes_pure _ _

end

/-! ## Blocks -/

/-- Wherever `ls` stands to be read, `p` succeeds with `a` and leaves `rest`, up to the line
ends at its front. -/
def TakesToLine (p : Parse α) : Phrase α := fun ls a rest =>
  ∃ left, Takes p ls a left ∧ dropNewlines left = dropNewlines rest

/-- What stands on the next line is no `else`. -/
def NoElse (ls : List Lexeme) : Prop :=
  headKind? (dropNewlines ls) ≠ some .kwElse

/-- What `R` reads never starts with a line end, with the end of a block or with `else`. -/
def StartsLine (R : Phrase α) : Prop :=
  ∀ ⦃ls a rest⦄, R ls a rest → ∀ k ∈ [Kind.newline, .dedent, .kwElse], headKind? ls ≠ some k

theorem Takes.toLine {p : Parse α} {ls rest : List Lexeme} {a : α} (h : Takes p ls a rest) :
    TakesToLine p ls a rest :=
  ⟨rest, h, rfl⟩

theorem noElse_of_newlines {ls rest : List Lexeme} (h : Newlines ls rest) :
    NoElse ls ↔ NoElse rest := by
  rw [NoElse, NoElse, dropNewlines_of_newlines h]

section

variable {item : Parse α} {R : Phrase α}

theorem lines_noElse (hstart : StartsLine R) {ls rest : List Lexeme} {as : List α}
    (h : Lines R ls as rest) : NoElse ls := by
  cases h with
  | done hn =>
    rw [noElse_of_newlines hn, NoElse, dropNewlines_of_head (by simp [headKind?])]
    simp [headKind?]
  | next hn ha _ =>
    rw [noElse_of_newlines hn, NoElse, dropNewlines_of_head (hstart ha _ (by simp))]
    exact hstart ha _ (by simp)

/-- An item of a block, unless the block ends. -/
inductive Line (R : Phrase α) : Phrase (Option α)
  | done {ls v rest} : Newlines ls (⟨.dedent, v⟩ :: rest) → Line R ls none rest
  | next {ls start a rest} : Newlines ls start → R start a rest → Line R ls (some a) rest

theorem line_shrinks (hR : Consumes R) : Shrinks (Line R) := by
  rintro ls a rest ⟨⟩
  rename_i hn ha
  exact ((hR ha).of_suffix hn.suffix).2

theorem lines_of_until {ls rest : List Lexeme} {as : List α} (h : Until (Line R) ls as rest) :
    Lines R ls as rest := by
  induction h with
  | stop hstop =>
    cases hstop with
    | done hn => exact .done hn
  | next hnext _ ih =>
    cases hnext with
    | next hn ha => exact .next hn ha ih

theorem line?_sound (hitem : Sound item R) : Sound (line? item) (Line R) := by
  intro s r s' h
  obtain ⟨_, t, ht, h₁⟩ := bind_ok.mp h
  have hn := skipNewlines_newlines ht
  obtain ⟨b, u, hb, h₂⟩ := bind_ok.mp h₁
  rcases accept_ok hb with ⟨rfl, rfl, -⟩ | ⟨v, rfl, hl⟩
  · obtain ⟨a, w, ha, h₃⟩ := bind_ok.mp h₂
    obtain ⟨rfl, rfl⟩ := pure_ok.mp h₃
    exact .next hn (hitem ha)
  · obtain ⟨rfl, rfl⟩ := pure_ok.mp h₂
    rw [hl] at hn
    exact .done hn

theorem toParse_after (first : Parse Unit) (g : Gather α) :
    (g.after first).toParse = (first >>= fun _ => g.toParse) := by
  funext s
  show _ = EStateM.bind first _ s
  unfold Gather.toParse Gather.after EStateM.bind
  cases first s <;> rfl

/-- A block is opened, and then read by repetition. -/
theorem block_eq (item : Parse α) :
    block item = (do skipNewlines; discard (expect .indent); many (line? item)) := by
  have hopen := toParse_after (do skipNewlines; discard (expect .indent)) (gather (line? item))
  rwa [bind_assoc] at hopen

theorem block_sound (hitem : Sound item R) (hR : Consumes R) : Sound (block item) (Block R) := by
  intro s as s' h
  rw [block_eq] at h
  obtain ⟨_, t, ht, h₁⟩ := bind_ok.mp h
  obtain ⟨_, mid, hmid, h₂⟩ := bind_ok.mp h₁
  have hn := skipNewlines_newlines ht
  obtain ⟨v, hv⟩ := discard_expect_ok hmid
  rw [hv] at hn
  exact .mk hn (lines_of_until (many_sound (line?_sound hitem) (line_shrinks hR) h₂))

/-- Behind an item the lines may go on with any number of empty ones, which the parser has
read already if it had to look past them. -/
theorem until_of_lines (hstart : StartsLine R)
    (htakes : ∀ {ls a rest}, R ls a rest → NoElse rest → TakesToLine item ls a rest)
    {ls rest : List Lexeme} {as : List α} (h : Lines R ls as rest) :
    ∀ ms, dropNewlines ms = dropNewlines ls → Until (Takes (line? item)) ms as rest := by
  induction h with
  | @done ls v rest hn =>
    intro ms hms
    rw [dropNewlines_eq hn (by simp [headKind?])] at hms
    have hskip := takes_skipNewlines ms
    rw [hms] at hskip
    exact .stop (takes_bind hskip (takes_bind (takes_accept _ _ _) (takes_pure _ _)))
  | @next ls start a mid as rest hn ha hl ih =>
    intro ms hms
    rw [dropNewlines_eq hn (hstart ha _ (by simp))] at hms
    have hskip := takes_skipNewlines ms
    rw [hms] at hskip
    obtain ⟨left, hleft, hmid⟩ := htakes ha (lines_noElse hstart hl)
    have hmiss : Takes (accept .dedent) start false start :=
      takes_accept_miss (hstart ha _ (by simp))
    exact .next (takes_bind hskip (takes_bind hmiss (takes_bind hleft (takes_pure _ _))))
      (ih left hmid)

theorem takes_block (hitem : Sound item R) (hR : Consumes R) (hstart : StartsLine R)
    (htakes : ∀ {ls a rest}, R ls a rest → NoElse rest → TakesToLine item ls a rest)
    {ls rest : List Lexeme} {as : List α} (h : Block R ls as rest) :
    Takes (block item) ls as rest := by
  obtain @⟨ls, v, mid, as, rest, hn, hl⟩ := h
  have hmany := takes_many (line?_sound hitem) (line_shrinks hR)
    (until_of_lines hstart htakes hl mid rfl)
  have hskip := takes_skipNewlines ls
  rw [dropNewlines_eq hn (by simp [headKind?])] at hskip
  rw [block_eq]
  exact takes_bind hskip (takes_bind (takes_expect _ _ _) hmany)

/-- A block begins on the first line that is not empty. -/
theorem block_dropNewlines {ls rest : List Lexeme} {as : List α} (h : Block R ls as rest) :
    headKind? (dropNewlines ls) = some .indent ∧ Block R (dropNewlines ls) as rest := by
  obtain ⟨hn, hl⟩ := h
  rw [dropNewlines_eq hn (by simp [headKind?])]
  exact ⟨rfl, .mk .none hl⟩

end

end Offside.Parse
