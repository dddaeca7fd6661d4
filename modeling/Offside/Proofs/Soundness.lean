import Offside.Proofs.Repetition
import Offside.Proofs.Levels

/-!
# What the parser accepts is in the grammar

Every production that succeeds has read a phrase of the grammar. The productions take what
stands one level deeper as an argument, so each lemma assumes soundness of that
(`SoundNested`), and `nested_sound` closes the circle by recursion on the levels left.

The main statement is `program_sound`: what the parser returns within `n` levels of nesting
is derived within `n` levels.
-/

namespace Offside.Parse

open Grammar

/-! ## Expressions -/

section

variable {p : Parse Expr} {E : Phrase Expr} (hp : Sound p E) (hE : Consumes E)
include hp hE

theorem arguments_sound : Sound (arguments p) (Arguments E) := by
  intro s es s' h
  obtain ⟨b, t, hb, h₁⟩ := bind_ok.mp h
  rcases accept_ok hb with ⟨rfl, rfl, -⟩ | ⟨v, rfl, hl⟩
  · obtain ⟨values, u, hvalues, h₂⟩ := bind_ok.mp h₁
    obtain ⟨_, w, hw, h₃⟩ := bind_ok.mp h₂
    obtain ⟨rfl, rfl⟩ := pure_ok.mp h₃
    obtain ⟨v, hv⟩ := discard_expect_ok hw
    have hlist := commaSeparated_sound hp hE hvalues
    rw [hv] at hlist
    exact .some hlist
  · obtain ⟨rfl, rfl⟩ := pure_ok.mp h₁
    rw [hl]
    exact .none

/-- The call behind a receiver that has been read, or behind none. -/
theorem callOn_ok {receiver : Option String} {s s' : State} {c : Call}
    (h : callOn p receiver s = .ok c s') :
    ∃ v w mid es, s.lexemes = ⟨.word, v⟩ :: ⟨.leftParen, w⟩ :: mid ∧
      Arguments E mid es s'.lexemes ∧ c = ⟨receiver, v.getD "", es⟩ := by
  obtain ⟨x, t, hx, h₁⟩ := bind_ok.mp h
  obtain ⟨_, u, hu, h₂⟩ := bind_ok.mp h₁
  obtain ⟨es, w, hes, h₃⟩ := bind_ok.mp h₂
  obtain ⟨rfl, rfl⟩ := pure_ok.mp h₃
  obtain ⟨v, hv⟩ := discard_expect_ok hu
  have hword := word_sound hx
  rw [hv] at hword
  generalize s.lexemes = ls at hword ⊢
  cases hword
  exact ⟨_, _, _, _, rfl, arguments_sound hp hE hes, rfl⟩

theorem call?_sound {s s' : State} {r : Option Call} (h : call? p s = .ok r s') :
    (r = none ∧ s' = s) ∨ ∃ c, r = some c ∧ CallPhrase E s.lexemes c s'.lexemes := by
  obtain ⟨b, _, hb, h₁⟩ := bind_ok.mp h
  obtain ⟨-, rfl⟩ := nextAre_ok.mp hb
  split at h₁
  · obtain ⟨x, t, hx, h₂⟩ := bind_ok.mp h₁
    obtain ⟨_, u, hu, h₃⟩ := bind_ok.mp h₂
    obtain ⟨c, w, hc, h₄⟩ := bind_ok.mp h₃
    obtain ⟨rfl, rfl⟩ := pure_ok.mp h₄
    obtain ⟨d, hd⟩ := discard_expect_ok hu
    obtain ⟨v, v', mid, es, hmid, hes, rfl⟩ := callOn_ok hp hE hc
    have hword := word_sound hx
    rw [hd, hmid] at hword
    generalize State.lexemes _ = ls at hword ⊢
    cases hword
    exact Or.inr ⟨_, rfl, .onReceiver hes⟩
  · obtain ⟨b, _, hb, h₂⟩ := bind_ok.mp h₁
    obtain ⟨-, rfl⟩ := nextAre_ok.mp hb
    split at h₂
    · obtain ⟨c, w, hc, h₃⟩ := bind_ok.mp h₂
      obtain ⟨rfl, rfl⟩ := pure_ok.mp h₃
      obtain ⟨v, v', mid, es, hmid, hes, rfl⟩ := callOn_ok hp hE hc
      rw [hmid]
      exact Or.inr ⟨_, rfl, .alone hes⟩
    · obtain ⟨rfl, rfl⟩ := pure_ok.mp h₂
      exact Or.inl ⟨rfl, rfl⟩

omit hp hE in
theorem character_ok {s s' : State} {e : Expr} (h : character s = .ok e s') :
    ∃ v c cs, s.lexemes = ⟨.quotedCharacter, v⟩ :: s'.lexemes ∧ (v.getD "").toList = c :: cs ∧
      e = .character c := by
  obtain ⟨q, _, hq, h₁⟩ := bind_ok.mp h
  obtain ⟨-, rfl⟩ := look_ok.mp hq
  obtain ⟨t, u, ht, h₂⟩ := bind_ok.mp h₁
  cases hc : t.text.toList with
  | nil =>
    rw [hc] at h₂
    cases h₂
  | cons c cs =>
    rw [hc] at h₂
    obtain ⟨rfl, rfl⟩ := pure_ok.mp h₂
    exact ⟨t.value, c, cs, (expect_ok ht).2, hc, rfl⟩

theorem factor_sound : Sound (factor p) (Factor E) := by
  intro s e s' h
  obtain ⟨k, _, hk, h₁⟩ := bind_ok.mp h
  obtain ⟨-, rfl⟩ := nextKind?_ok.mp hk
  split at h₁
  · obtain ⟨t, u, ht, h₂⟩ := bind_ok.mp h₁
    obtain ⟨rfl, rfl⟩ := pure_ok.mp h₂
    rw [(expect_ok ht).2]
    exact .number
  · obtain ⟨t, u, ht, h₂⟩ := bind_ok.mp h₁
    obtain ⟨rfl, rfl⟩ := pure_ok.mp h₂
    rw [(expect_ok ht).2]
    exact .string
  · obtain ⟨v, c, cs, hl, hc, rfl⟩ := character_ok h₁
    rw [hl]
    exact .character hc
  · obtain ⟨_, t, ht, h₂⟩ := bind_ok.mp h₁
    obtain ⟨inner, u, hu, h₃⟩ := bind_ok.mp h₂
    obtain ⟨_, w, hw, h₄⟩ := bind_ok.mp h₃
    obtain ⟨rfl, rfl⟩ := pure_ok.mp h₄
    obtain ⟨v, hv⟩ := discard_expect_ok ht
    obtain ⟨v', hv'⟩ := discard_expect_ok hw
    have hinner := hp hu
    rw [hv'] at hinner
    rw [hv]
    exact .parens hinner
  · obtain ⟨_, t, ht, h₂⟩ := bind_ok.mp h₁
    obtain ⟨x, u, hx, h₃⟩ := bind_ok.mp h₂
    obtain ⟨_, w, hw, h₄⟩ := bind_ok.mp h₃
    obtain ⟨es, z, hes, h₅⟩ := bind_ok.mp h₄
    obtain ⟨rfl, rfl⟩ := pure_ok.mp h₅
    obtain ⟨v, hv⟩ := discard_expect_ok ht
    obtain ⟨v', hv'⟩ := discard_expect_ok hw
    have hword := word_sound hx
    rw [hv'] at hword
    rw [hv]
    generalize t.lexemes = ls at hword ⊢
    cases hword
    exact .new (arguments_sound hp hE hes)
  · obtain ⟨r, t, hr, h₂⟩ := bind_ok.mp h₁
    rcases call?_sound hp hE hr with ⟨rfl, rfl⟩ | ⟨c, rfl, hc⟩
    · obtain ⟨x, u, hx, h₃⟩ := bind_ok.mp h₂
      obtain ⟨rfl, rfl⟩ := pure_ok.mp h₃
      exact .var (word_sound hx)
    · obtain ⟨rfl, rfl⟩ := pure_ok.mp h₂
      exact .call hc
  · cases h₁

theorem sum_sound : Sound (sum p) (Sum E) := by
  have hfactor := factor_consumes hE
  exact leftAssociative_sound (leftAssociative_sound (factor_sound hp hE) hfactor)
    (chain_consumes hfactor)

omit hE in
theorem condition_sound : Sound (condition p) (Condition E) := by
  intro s e s' h
  obtain ⟨q, _, hq, h₁⟩ := bind_ok.mp h
  obtain ⟨-, rfl⟩ := look_ok.mp hq
  obtain ⟨left, t, hleft, h₂⟩ := bind_ok.mp h₁
  have hl := hp hleft
  obtain ⟨o, u, ho, h₃⟩ := bind_ok.mp h₂
  rcases takeMeaning?_ok ho with ⟨rfl, rfl⟩ | ⟨k, v, op, rfl, hk, hlex⟩
  · cases left with
    | call r m es =>
      obtain ⟨rfl, rfl⟩ := pure_ok.mp h₃
      exact .call hl
    | var x =>
      obtain ⟨rfl, rfl⟩ := pure_ok.mp h₃
      exact .var hl
    | _ => cases h₃
  · obtain ⟨right, w, hright, h₄⟩ := bind_ok.mp h₃
    obtain ⟨rfl, rfl⟩ := pure_ok.mp h₄
    rw [hlex] at hl
    exact .compare hl hk (hp hright)

end

/-! ## Statements -/

/-- Whatever can be opened is a phrase that can stand deeper. -/
structure SoundNested (nested : Nested) (inner : Deeper) : Prop where
  expression : Sound nested.expression inner.expression
  body : Sound nested.body inner.body
  methodBody : Sound nested.methodBody.toParse inner.methodBody
  elseIf : Sound nested.elseIf inner.elseIf

/-- What is left behind an `else` with a condition on a line of its own. -/
theorem behindElseLineIf?_some {tokens rest : List Token}
    (h : behindElseLineIf? tokens = some rest) :
    ∃ v w behind u, tokens.map Token.lexeme = ⟨.kwElse, v⟩ :: ⟨.newline, w⟩ :: behind ∧
      Newlines behind (⟨.kwIf, u⟩ :: rest.map Token.lexeme) := by
  rcases tokens with _ | ⟨first, _ | ⟨second, more⟩⟩
  · cases h
  · cases h
  · rw [behindElseLineIf?] at h
    split at h
    · rename_i hkinds
      rcases hdrop : more.dropWhile (fun t => t.kind == .newline) with _ | ⟨third, behind⟩
      · rw [hdrop] at h
        cases h
      · simp only [hdrop] at h
        split at h
        · rename_i hif
          cases h
          refine ⟨first.value, second.value, more.map Token.lexeme, third.value, ?_, ?_⟩
          · simp [Token.lexeme, hkinds.1, hkinds.2]
          · have hn := newlines_dropNewlines (more.map Token.lexeme)
            have heq : dropNewlines (more.map Token.lexeme) =
                (third :: rest).map Token.lexeme := by
              rw [← hdrop, dropNewlines, List.dropWhile_map]
              rfl
            rw [heq, List.map_cons] at hn
            rw [← hif]
            exact hn
        · cases h
    · cases h

/-- An arm on a line of its own, with the empty lines behind it. -/
inductive ElseArm (inner : Deeper) : Phrase (Option Arm)
  | absent {ls} : ElseArm inner ls none ls
  | present {v w behind u start a mid rest} : Newlines behind (⟨.kwIf, u⟩ :: start) →
      Guarded inner start a mid → Newlines mid rest →
      ElseArm inner (⟨.kwElse, v⟩ :: ⟨.newline, w⟩ :: behind) (some a) rest

/-- What may stand behind the arms, with the form that its derivation takes. -/
inductive Alternative (inner : Deeper) : Phrase Otherwise
  | nothing {ls} : Alternative inner ls .nothing ls
  | elseIf {v w start s rest} : inner.elseIf start s rest →
      Alternative inner (⟨.kwElse, v⟩ :: ⟨.kwIf, w⟩ :: start) (.single s) rest
  | block {v w behind start b rest} : Newlines behind start → inner.body start b rest →
      Alternative inner (⟨.kwElse, v⟩ :: ⟨.newline, w⟩ :: behind) (.block b) rest
  | line {v w behind start s rest} : Newlines behind start → Plain inner start s rest →
      Alternative inner (⟨.kwElse, v⟩ :: ⟨.newline, w⟩ :: behind) (.single s) rest

theorem elseArm_shrinks {inner : Deeper} (hi : inner.Consumes) : Shrinks (ElseArm inner) := by
  rintro ls a rest ⟨⟩
  rename_i hn' ha hn
  have hguarded := (guarded_consumes hi ha).trans_suffix hn.suffix
  exact ((((hguarded.cons _).of_suffix hn'.suffix).cons _).cons _).2

/-- Arms on lines of their own, put one into the `else` of the other. -/
theorem conditional_ofArms {inner : Deeper} {ms ts rest : List Lexeme} {arms : List Arm}
    (harms : Until (ElseArm inner) ms arms ts) {o : Otherwise} (ho : Alternative inner ts o rest) :
    ∀ {ls mid : List Lexeme} {first : Arm}, Guarded inner ls first mid → Newlines mid ms →
      Conditional inner ls (Stmt.ofArms first arms o) rest := by
  induction harms with
  | stop hstop =>
    cases hstop
    intro ls mid first hfirst hn
    cases ho with
    | nothing => exact .alone hfirst hn
    | elseIf h => exact .elseIf hfirst hn h
    | block hb h => exact .elseBlock hfirst hn hb h
    | line hb h => exact .elseLine hfirst hn hb h
  | next hnext _ ih =>
    intro ls mid first hfirst hn
    cases hnext with
    | present hif ha hn' => exact .elseLineIf hfirst hn hif (ih ho ha hn')

section

variable {nested : Nested} {inner : Deeper} (hs : SoundNested nested inner) (hi : inner.Consumes)
include hs

theorem namedValue_sound (typeName : String) :
    Sound (namedValue nested typeName) (NamedValue inner.expression typeName) := by
  intro s d s' h
  obtain ⟨x, t, hx, h₁⟩ := bind_ok.mp h
  obtain ⟨value, u, hvalue, h₂⟩ := bind_ok.mp h₁
  obtain ⟨rfl, rfl⟩ := pure_ok.mp h₂
  have hword := word_sound hx
  have hopt := optional_accept_sound hs.expression .assign hvalue
  generalize t.lexemes = ts, u.lexemes = us at hopt hword ⊢
  cases hopt with
  | absent => exact .bare hword
  | present he => exact .valued hword he

theorem assignment_ok {s s' : State} {st : Stmt} (h : assignment nested s = .ok st s') :
    Plain inner s.lexemes st s'.lexemes := by
  obtain ⟨xs, t, hxs, h₁⟩ := bind_ok.mp h
  obtain ⟨_, u, hu, h₂⟩ := bind_ok.mp h₁
  obtain ⟨e, w, he, h₃⟩ := bind_ok.mp h₂
  obtain ⟨_, y, hy, h₄⟩ := bind_ok.mp h₃
  obtain ⟨_, z, hz, h₅⟩ := bind_ok.mp h₄
  obtain ⟨rfl, rfl⟩ := pure_ok.mp h₅
  obtain ⟨v, hv⟩ := discard_expect_ok hu
  have hlist := commaSeparated_sound word_sound word_consumes hxs
  rw [hv] at hlist
  rw [note_ok hz]
  exact .assign hlist (hs.expression he) (lineEnd_ok hy)

include hi

theorem varDecls_sound : Sound (varDecls nested) (VarDecls inner.expression) := by
  intro s ds s' h
  obtain ⟨x, t, hx, h₁⟩ := bind_ok.mp h
  obtain ⟨ds, u, hds, h₂⟩ := bind_ok.mp h₁
  obtain ⟨_, w, hw, h₃⟩ := bind_ok.mp h₂
  obtain ⟨rfl, rfl⟩ := pure_ok.mp h₃
  have hword := word_sound hx
  have hlist := commaSeparated_sound (namedValue_sound hs x)
    (namedValue_consumes hi.expression x) hds
  generalize s.lexemes = ls at hword ⊢
  cases hword
  exact .mk hlist (lineEnd_ok hw)

theorem callOrAssignment_ok {s s' : State} {st : Stmt}
    (h : callOrAssignment nested s = .ok st s') : Plain inner s.lexemes st s'.lexemes := by
  obtain ⟨r, t, hr, h₁⟩ := bind_ok.mp h
  rcases call?_sound hs.expression hi.expression hr with ⟨rfl, rfl⟩ | ⟨c, rfl, hc⟩
  · exact assignment_ok hs h₁
  · obtain ⟨_, u, hu, h₂⟩ := bind_ok.mp h₁
    obtain ⟨_, w, hw, h₃⟩ := bind_ok.mp h₂
    obtain ⟨rfl, rfl⟩ := pure_ok.mp h₃
    rw [note_ok hw]
    exact .call hc (lineEnd_ok hu)

omit hi in
theorem loop_ok {s s' : State} {st : Stmt} (h : loop nested s = .ok st s') (v : Option String) :
    Plain inner (⟨.kwLoop, v⟩ :: s.lexemes) st s'.lexemes := by
  obtain ⟨x, t, hx, h₁⟩ := bind_ok.mp h
  obtain ⟨c, u, hc, h₂⟩ := bind_ok.mp h₁
  obtain ⟨_, w, hw, h₃⟩ := bind_ok.mp h₂
  obtain ⟨b, z, hb, h₄⟩ := bind_ok.mp h₃
  obtain ⟨rfl, rfl⟩ := pure_ok.mp h₄
  obtain ⟨nl, hnl⟩ := discard_expect_ok hw
  have hcond := condition_sound hs.expression hc
  rw [hnl] at hcond
  obtain ⟨present, _, hpresent, h₅⟩ := bind_ok.mp hx
  obtain ⟨-, rfl⟩ := nextAre_ok.mp hpresent
  split at h₅
  · obtain ⟨name, y, hname, h₆⟩ := bind_ok.mp h₅
    obtain ⟨rfl, rfl⟩ := pure_ok.mp h₆
    obtain ⟨x, y', hword, h₇⟩ := bind_ok.mp hname
    obtain ⟨_, y'', heq, h₈⟩ := bind_ok.mp h₇
    obtain ⟨rfl, rfl⟩ := pure_ok.mp h₈
    obtain ⟨a, ha⟩ := discard_expect_ok heq
    have hw := word_sound hword
    rw [ha] at hw
    exact .loopIn hw hcond (hs.body hb)
  · obtain ⟨rfl, rfl⟩ := pure_ok.mp h₅
    exact .loop hcond (hs.body hb)

theorem plainStatement_sound : Sound (plainStatement nested) (Plain inner) := by
  intro s st s' h
  obtain ⟨k, _, hk, h₁⟩ := bind_ok.mp h
  obtain ⟨-, rfl⟩ := nextKind?_ok.mp hk
  split at h₁
  · obtain ⟨_, t, ht, h₂⟩ := bind_ok.mp h₁
    obtain ⟨v, hv⟩ := discard_expect_ok ht
    rw [hv]
    exact loop_ok hs h₂ v
  · obtain ⟨b, _, hb, h₂⟩ := bind_ok.mp h₁
    obtain ⟨-, rfl⟩ := nextAre_ok.mp hb
    split at h₂
    · cases h₂
    · exact callOrAssignment_ok hs hi h₂
  · cases h₁

omit hi in
theorem arm_ok {s s' : State} {a : Arm} (h : arm nested s = .ok a s') :
    ∃ mid, Guarded inner s.lexemes a mid ∧ Newlines mid s'.lexemes := by
  obtain ⟨c, t, hc, h₁⟩ := bind_ok.mp h
  obtain ⟨_, u, hu, h₂⟩ := bind_ok.mp h₁
  obtain ⟨b, w, hb, h₃⟩ := bind_ok.mp h₂
  obtain ⟨_, z, hz, h₄⟩ := bind_ok.mp h₃
  obtain ⟨rfl, rfl⟩ := pure_ok.mp h₄
  obtain ⟨v, hv⟩ := discard_expect_ok hu
  have hcond := condition_sound hs.expression hc
  rw [hv] at hcond
  exact ⟨w.lexemes, .mk hcond (hs.body hb), skipNewlines_newlines hz⟩

omit hi in
theorem elseArm_sound : Sound (optional acceptElseLineIf (arm nested)) (ElseArm inner) := by
  intro s r s' h
  obtain ⟨b, t, hb, h₁⟩ := bind_ok.mp h
  rw [acceptElseLineIf] at hb
  split at hb
  · rename_i rest hrest
    cases hb
    obtain ⟨a, u, ha, h₂⟩ := bind_ok.mp h₁
    obtain ⟨rfl, rfl⟩ := pure_ok.mp h₂
    obtain ⟨v, w, behind, x, hlex, hif⟩ := behindElseLineIf?_some hrest
    obtain ⟨mid, hguarded, hn⟩ := arm_ok hs ha
    rw [State.lexemes, hlex]
    exact .present hif hguarded hn
  · cases hb
    obtain ⟨rfl, rfl⟩ := pure_ok.mp h₁
    exact .absent

theorem otherwise_sound : Sound (otherwise nested) (Alternative inner) := by
  intro s o s' h
  obtain ⟨b, t, hb, h₁⟩ := bind_ok.mp h
  rcases accept_ok hb with ⟨rfl, rfl, -⟩ | ⟨v, rfl, hv⟩
  · obtain ⟨rfl, rfl⟩ := pure_ok.mp h₁
    exact .nothing
  · rw [hv]
    obtain ⟨b, u, hb, h₂⟩ := bind_ok.mp h₁
    rcases accept_ok hb with ⟨rfl, rfl, -⟩ | ⟨w, rfl, hw⟩
    · obtain ⟨_, y, hy, h₃⟩ := bind_ok.mp h₂
      obtain ⟨w, behind, hw, hn⟩ := newlines_ok hy
      rw [hw]
      obtain ⟨b, _, hb, h₄⟩ := bind_ok.mp h₃
      obtain ⟨-, rfl⟩ := nextAre_ok.mp hb
      split at h₄
      · obtain ⟨b, z, hb, h₅⟩ := bind_ok.mp h₄
        obtain ⟨rfl, rfl⟩ := pure_ok.mp h₅
        exact .block hn (hs.body hb)
      · obtain ⟨st, z, hst, h₅⟩ := bind_ok.mp h₄
        obtain ⟨rfl, rfl⟩ := pure_ok.mp h₅
        exact .line hn (plainStatement_sound hs hi hst)
    · obtain ⟨st, y, hst, h₃⟩ := bind_ok.mp h₂
      obtain ⟨rfl, rfl⟩ := pure_ok.mp h₃
      rw [hw]
      exact .elseIf (hs.elseIf hst)

theorem conditional_sound : Sound (conditional nested) (Conditional inner) := by
  intro s st s' h
  obtain ⟨first, t, hfirst, h₁⟩ := bind_ok.mp h
  obtain ⟨rest, u, hrest, h₂⟩ := bind_ok.mp h₁
  obtain ⟨o, w, ho, h₃⟩ := bind_ok.mp h₂
  obtain ⟨rfl, rfl⟩ := pure_ok.mp h₃
  obtain ⟨mid, hguarded, hn⟩ := arm_ok hs hfirst
  have harms := many_sound (elseArm_sound hs) (elseArm_shrinks hi) hrest
  exact conditional_ofArms harms (otherwise_sound hs hi ho) hguarded hn

theorem statement_sound : Sound (statement nested) (Statement inner) := by
  intro s st s' h
  obtain ⟨b, t, hb, h₁⟩ := bind_ok.mp h
  rcases accept_ok hb with ⟨rfl, rfl, -⟩ | ⟨v, rfl, hv⟩
  · exact .plain (plainStatement_sound hs hi h₁)
  · rw [hv]
    exact .cond (conditional_sound hs hi h₁)

theorem bodyItem_sound : Sound (bodyItem nested) (Item inner) := by
  intro s i s' h
  obtain ⟨b, _, hb, h₁⟩ := bind_ok.mp h
  obtain ⟨-, rfl⟩ := nextAre_ok.mp hb
  split at h₁
  · obtain ⟨ds, t, hds, h₂⟩ := bind_ok.mp h₁
    obtain ⟨rfl, rfl⟩ := pure_ok.mp h₂
    exact .locals (varDecls_sound hs hi hds)
  · obtain ⟨st, t, hst, h₂⟩ := bind_ok.mp h₁
    obtain ⟨rfl, rfl⟩ := pure_ok.mp h₂
    exact .statement (statement_sound hs hi hst)

end

/-- Whatever can be opened with so many levels left can stand deeper with as many left. -/
theorem nested_sound : ∀ n : Nat, SoundNested (nested n) (deeper n)
  | 0 => by
    constructor <;> intro s a s' h <;> cases h
  | n + 1 =>
    have hs := nested_sound n
    have hi := deeper_consumes n
    ⟨sum_sound hs.expression hi.expression,
      block_sound (statement_sound hs hi) (statement_consumes hi),
      block_sound (bodyItem_sound hs hi) (item_consumes hi), conditional_sound hs hi⟩

/-! ## Declarations -/

theorem parameter_sound : Sound parameter Parameter := by
  intro s d s' h
  obtain ⟨x, t, hx, h₁⟩ := bind_ok.mp h
  obtain ⟨y, u, hy, h₂⟩ := bind_ok.mp h₁
  obtain ⟨rfl, rfl⟩ := pure_ok.mp h₂
  have hword := word_sound hx
  have hword' := word_sound hy
  generalize s.lexemes = ls, t.lexemes = ts, u.lexemes = us at hword hword' ⊢
  cases hword
  cases hword'
  exact .mk

theorem parameterList_sound : Sound parameterList ParameterList := by
  intro s ds s' h
  obtain ⟨_, t, ht, h₁⟩ := bind_ok.mp h
  obtain ⟨ds, u, hds, h₂⟩ := bind_ok.mp h₁
  obtain ⟨_, w, hw, h₃⟩ := bind_ok.mp h₂
  obtain ⟨rfl, rfl⟩ := pure_ok.mp h₃
  obtain ⟨v, hv⟩ := discard_expect_ok ht
  obtain ⟨v', hv'⟩ := discard_expect_ok hw
  rw [hv]
  obtain ⟨b, _, hb, h₄⟩ := bind_ok.mp hds
  obtain ⟨-, rfl⟩ := nextAre_ok.mp hb
  split at h₄
  · have hlist := commaSeparated_sound parameter_sound parameter_consumes h₄
    rw [hv'] at hlist
    exact .some hlist
  · obtain ⟨rfl, rfl⟩ := pure_ok.mp h₄
    rw [hv']
    exact .none

theorem returned_sound : Sound returned Returned := by
  intro s r s' h
  obtain ⟨x, t, hx, h₁⟩ := bind_ok.mp h
  obtain ⟨y, u, hy, h₂⟩ := bind_ok.mp h₁
  obtain ⟨rfl, rfl⟩ := pure_ok.mp h₂
  have hword := word_sound hx
  generalize s.lexemes = ls at hword ⊢
  cases hword
  rcases take?_ok hy with ⟨rfl, rfl, -⟩ | ⟨tok, rfl, hk, hl⟩
  · exact .bare
  · rw [hl, Token.lexeme, hk]
    exact .named

theorem header_sound : Sound header Header := by
  intro s hd s' h
  obtain ⟨x, t, hx, h₁⟩ := bind_ok.mp h
  obtain ⟨ds, u, hds, h₂⟩ := bind_ok.mp h₁
  obtain ⟨b, w, hb, h₃⟩ := bind_ok.mp h₂
  have hword := word_sound hx
  have hparams := parameterList_sound hds
  rcases accept_ok hb with ⟨rfl, rfl, -⟩ | ⟨v, rfl, hv⟩
  · obtain ⟨_, _, hnone, h₄⟩ := bind_ok.mp h₃
    obtain ⟨rfl, rfl⟩ := pure_ok.mp hnone
    obtain ⟨_, z, hz, h₅⟩ := bind_ok.mp h₄
    obtain ⟨rfl, rfl⟩ := pure_ok.mp h₅
    exact .bare hword hparams (lineEnd_ok hz)
  · obtain ⟨rs, y, hrs, h₄⟩ := bind_ok.mp h₃
    obtain ⟨_, z, hz, h₅⟩ := bind_ok.mp h₄
    obtain ⟨rfl, rfl⟩ := pure_ok.mp h₅
    obtain ⟨b, _, hb', h₆⟩ := bind_ok.mp hrs
    obtain ⟨-, rfl⟩ := nextAre_ok.mp hb'
    rw [hv] at hparams
    split at h₆
    · have hlist := commaSeparated_sound returned_sound returned_consumes h₆
      exact .returning hword hparams hlist (lineEnd_ok hz)
    · cases h₆

theorem header?_ok {s s' : State} {r : Option MethodHeader} (h : header? s = .ok r s') :
    (r = none ∧ s' = s) ∨ ∃ hd, r = some hd ∧ Header s.lexemes hd s'.lexemes := by
  obtain ⟨b, _, hb, h₁⟩ := bind_ok.mp h
  obtain ⟨-, rfl⟩ := nextAre_ok.mp hb
  split at h₁
  · obtain ⟨hd, t, hhd, h₂⟩ := bind_ok.mp h₁
    obtain ⟨rfl, rfl⟩ := pure_ok.mp h₂
    exact Or.inr ⟨hd, rfl, header_sound hhd⟩
  · obtain ⟨rfl, rfl⟩ := pure_ok.mp h₁
    exact Or.inl ⟨rfl, rfl⟩

/-- A header behind empty lines, unless there is none. -/
inductive HeaderLine : Phrase (Option MethodHeader)
  | absent {ls rest} : Newlines ls rest → HeaderLine ls none rest
  | present {ls start h rest} : Newlines ls start → Header start h rest →
      HeaderLine ls (some h) rest

theorem headerLine_sound : Sound (do skipNewlines; header?) HeaderLine := by
  intro s r s' h
  obtain ⟨_, t, ht, h₁⟩ := bind_ok.mp h
  have hn := skipNewlines_newlines ht
  rcases header?_ok h₁ with ⟨rfl, rfl⟩ | ⟨hd, rfl, hhd⟩
  · exact .absent hn
  · exact .present hn hhd

theorem headerLine_shrinks : Shrinks HeaderLine := by
  rintro ls hd rest ⟨⟩
  rename_i hn hhd
  exact ((header_consumes hhd).of_suffix hn.suffix).2

theorem lines_of_headerLines {ls rest : List Lexeme} {v : Option String} {hs : List MethodHeader}
    (h : Until HeaderLine ls hs (⟨.dedent, v⟩ :: rest)) : Lines Header ls hs rest := by
  generalize hend : (⟨.dedent, v⟩ :: rest : List Lexeme) = stop at h
  induction h with
  | stop hstop =>
    cases hstop with
    | absent hn => exact .done (hend ▸ hn)
  | next hnext _ ih =>
    cases hnext with
    | present hn hhd => exact .next hn hhd (ih hend)

theorem interfaceDecl_sound : Sound interfaceDecl InterfaceDecl := by
  intro s i s' h
  obtain ⟨x, t, hx, h₁⟩ := bind_ok.mp h
  obtain ⟨_, u, hu, h₂⟩ := bind_ok.mp h₁
  obtain ⟨_, w, hw, h₃⟩ := bind_ok.mp h₂
  obtain ⟨hs, y, hhs, h₄⟩ := bind_ok.mp h₃
  obtain ⟨_, z, hz, h₅⟩ := bind_ok.mp h₄
  obtain ⟨_, z', hz', h₆⟩ := bind_ok.mp h₅
  obtain ⟨rfl, rfl⟩ := pure_ok.mp h₆
  have hword := word_sound hx
  obtain ⟨v, mid, hv, hn⟩ := newlines_ok hu
  obtain ⟨v', hv'⟩ := discard_expect_ok hw
  obtain ⟨d, hd⟩ := discard_expect_ok hz
  rw [hv] at hword
  rw [hv'] at hn
  rw [note_ok hz']
  have hlines := many_sound headerLine_sound headerLine_shrinks hhs
  rw [hd] at hlines
  exact .mk hword (.mk hn (lines_of_headerLines hlines))

section

variable {nested : Nested} {inner : Deeper} (hs : SoundNested nested inner) (hi : inner.Consumes)
include hs

theorem methodBody_ok {s s' : State} {b : MethodBody} (h : methodBody nested s = .ok b s') :
    ∃ items, inner.methodBody s.lexemes items s'.lexemes ∧ b = .ofItems items := by
  obtain ⟨items, t, hitems, h₁⟩ := bind_ok.mp h
  obtain ⟨rfl, rfl⟩ := pure_ok.mp h₁
  exact ⟨items, hs.methodBody hitems, rfl⟩

omit hs in
theorem accept_mark {kind : Kind} {s s' : State} {b : Bool} (h : accept kind s = .ok b s') :
    Mark kind s.lexemes b s'.lexemes := by
  rcases accept_ok h with ⟨rfl, rfl, -⟩ | ⟨v, rfl, hv⟩
  · exact .absent
  · rw [hv]
    exact .present

theorem method_ok {s s' : State} {m : Method} (h : method nested s = .ok m s') :
    ClassPart inner s.lexemes (.method m) s'.lexemes := by
  obtain ⟨isPrivate, t, hp, h₁⟩ := bind_ok.mp h
  obtain ⟨isShared, u, hsh, h₂⟩ := bind_ok.mp h₁
  obtain ⟨r, w, hr, h₃⟩ := bind_ok.mp h₂
  rcases header?_ok hr with ⟨rfl, rfl⟩ | ⟨hd, rfl, hhd⟩
  · obtain ⟨_, y, _, h₄⟩ := bind_ok.mp h₃
    cases h₄
  · obtain ⟨b, y, hb, h₄⟩ := bind_ok.mp h₃
    obtain ⟨rfl, rfl⟩ := pure_ok.mp h₄
    obtain ⟨items, hitems, rfl⟩ := methodBody_ok hs hb
    exact .method (accept_mark hp) (accept_mark hsh) hhd hitems

theorem constructor_ok {s s' : State} {c : Constructor} (h : constructor nested s = .ok c s')
    (v : Option String) :
    ClassPart inner (⟨.kwConstruct, v⟩ :: s.lexemes) (.constructor c) s'.lexemes := by
  obtain ⟨ds, t, hds, h₁⟩ := bind_ok.mp h
  obtain ⟨_, u, hu, h₂⟩ := bind_ok.mp h₁
  obtain ⟨b, w, hb, h₃⟩ := bind_ok.mp h₂
  obtain ⟨rfl, rfl⟩ := pure_ok.mp h₃
  obtain ⟨v, mid, hv, hn⟩ := newlines_ok hu
  obtain ⟨items, hitems, rfl⟩ := methodBody_ok hs hb
  have hparams := parameterList_sound hds
  rw [hv] at hparams
  exact .constructor hparams hn hitems

include hi

theorem classItem_sound : Sound (classItem nested) (ClassPart inner) := by
  intro s i s' h
  obtain ⟨k, _, hk, h₁⟩ := bind_ok.mp h
  obtain ⟨-, rfl⟩ := nextKind?_ok.mp hk
  split at h₁
  · obtain ⟨_, t, ht, h₂⟩ := bind_ok.mp h₁
    obtain ⟨c, u, hc, h₃⟩ := bind_ok.mp h₂
    obtain ⟨rfl, rfl⟩ := pure_ok.mp h₃
    obtain ⟨v, hv⟩ := discard_expect_ok ht
    rw [hv]
    exact constructor_ok hs hc v
  · obtain ⟨m, t, hm, h₂⟩ := bind_ok.mp h₁
    obtain ⟨rfl, rfl⟩ := pure_ok.mp h₂
    exact method_ok hs hm
  · obtain ⟨m, t, hm, h₂⟩ := bind_ok.mp h₁
    obtain ⟨rfl, rfl⟩ := pure_ok.mp h₂
    exact method_ok hs hm
  · obtain ⟨b, _, hb, h₂⟩ := bind_ok.mp h₁
    obtain ⟨-, rfl⟩ := nextAre_ok.mp hb
    split at h₂
    · obtain ⟨m, t, hm, h₃⟩ := bind_ok.mp h₂
      obtain ⟨rfl, rfl⟩ := pure_ok.mp h₃
      exact method_ok hs hm
    · obtain ⟨b, _, hb, h₃⟩ := bind_ok.mp h₂
      obtain ⟨-, rfl⟩ := nextAre_ok.mp hb
      split at h₃
      · obtain ⟨ds, t, hds, h₄⟩ := bind_ok.mp h₃
        obtain ⟨rfl, rfl⟩ := pure_ok.mp h₄
        exact .members (varDecls_sound hs hi hds)
      · obtain ⟨_, t, _, h₄⟩ := bind_ok.mp h₃
        cases h₄
  · cases h₁

omit hs hi in
theorem implemented_sound : Sound implemented Implemented := by
  intro s xs s' h
  obtain ⟨b, _, hb, h₁⟩ := bind_ok.mp h
  obtain ⟨-, rfl⟩ := nextAre_ok.mp hb
  split at h₁
  · obtain ⟨_, t, ht, h₂⟩ := bind_ok.mp h₁
    obtain ⟨v, hv⟩ := discard_expect_ok ht
    rw [hv]
    exact .some (commaSeparated_sound word_sound word_consumes h₂)
  · obtain ⟨rfl, rfl⟩ := pure_ok.mp h₁
    exact .none

theorem classDecl_sound : Sound (classDecl nested) (ClassDecl inner) := by
  intro s c s' h
  obtain ⟨x, t, hx, h₁⟩ := bind_ok.mp h
  obtain ⟨xs, u, hxs, h₂⟩ := bind_ok.mp h₁
  obtain ⟨_, w, hw, h₃⟩ := bind_ok.mp h₂
  obtain ⟨items, y, hitems, h₄⟩ := bind_ok.mp h₃
  obtain ⟨_, z, hz, h₅⟩ := bind_ok.mp h₄
  obtain ⟨rfl, rfl⟩ := pure_ok.mp h₅
  obtain ⟨v, mid, hv, hn⟩ := newlines_ok hw
  have himplemented := implemented_sound hxs
  rw [hv] at himplemented
  rw [note_ok hz]
  have hblock := block_sound (classItem_sound hs hi) (classPart_consumes hi) hitems
  refine .mk (word_sound hx) himplemented ?_
  obtain ⟨hn', hlines⟩ := hblock
  exact .mk (newlines_trans hn hn') hlines

end

/-- A declaration behind empty lines, unless the text ends there. -/
inductive DeclarationLine (inner : Deeper) : Phrase (Option Declaration)
  | done {ls} : Newlines ls [] → DeclarationLine inner ls none []
  | classDecl {ls v start c rest} : Newlines ls (⟨.kwClass, v⟩ :: start) →
      ClassDecl inner start c rest → DeclarationLine inner ls (some (.classDecl c)) rest
  | interfaceDecl {ls v start i rest} : Newlines ls (⟨.kwInterface, v⟩ :: start) →
      InterfaceDecl start i rest → DeclarationLine inner ls (some (.interfaceDecl i)) rest

theorem declarationLine_left {inner : Deeper} (hi : inner.Consumes) {ls rest : List Lexeme}
    {d : Declaration} (h : DeclarationLine inner ls (some d) rest) : Left ls rest := by
  cases h with
  | classDecl hn hc => exact ((classDecl_consumes hi hc).cons _).of_suffix hn.suffix
  | interfaceDecl hn hd => exact ((interfaceDecl_consumes hd).cons _).of_suffix hn.suffix

theorem declarationLine_shrinks {inner : Deeper} (hi : inner.Consumes) :
    Shrinks (DeclarationLine inner) :=
  fun _ _ _ h => (declarationLine_left hi h).2

theorem headKind?_none {ls : List Lexeme} (h : headKind? ls = none) : ls = [] := by
  cases ls with
  | nil => rfl
  | cons l ls => cases h

theorem declaration?_sound {nested : Nested} {inner : Deeper} (hs : SoundNested nested inner)
    (hi : inner.Consumes) : Sound (declaration? nested) (DeclarationLine inner) := by
  intro s r s' h
  obtain ⟨_, t, ht, h₁⟩ := bind_ok.mp h
  have hn := skipNewlines_newlines ht
  obtain ⟨k, _, hk, h₂⟩ := bind_ok.mp h₁
  obtain ⟨hend, rfl⟩ := nextKind?_ok.mp hk
  split at h₂
  · obtain ⟨rfl, rfl⟩ := pure_ok.mp h₂
    rw [headKind?_none hend.symm] at hn ⊢
    exact .done hn
  · obtain ⟨_, u, hu, h₃⟩ := bind_ok.mp h₂
    obtain ⟨c, w, hc, h₄⟩ := bind_ok.mp h₃
    obtain ⟨rfl, rfl⟩ := pure_ok.mp h₄
    obtain ⟨v, hv⟩ := discard_expect_ok hu
    rw [hv] at hn
    exact .classDecl hn (classDecl_sound hs hi hc)
  · obtain ⟨_, u, hu, h₃⟩ := bind_ok.mp h₂
    obtain ⟨i, w, hid, h₄⟩ := bind_ok.mp h₃
    obtain ⟨rfl, rfl⟩ := pure_ok.mp h₄
    obtain ⟨v, hv⟩ := discard_expect_ok hu
    rw [hv] at hn
    exact .interfaceDecl hn (interfaceDecl_sound hid)
  · cases h₂

/-- The parser reads declarations up to the end of the text, and no further. -/
theorem declarations_of_until {inner : Deeper} {ls rest : List Lexeme} {ds : List Declaration}
    (h : Until (DeclarationLine inner) ls ds rest) : Declarations inner ls ds := by
  induction h with
  | stop hstop =>
    cases hstop with
    | done hn => exact .done hn
  | next hnext _ ih =>
    cases hnext with
    | classDecl hn hc => exact .classDecl hn hc ih
    | interfaceDecl hn hd => exact .interfaceDecl hn hd ih

/-- What the parser returns within `n` levels of nesting is derived within `n` levels. -/
theorem program_sound {n : Nat} {s s' : State} {p : Program}
    (h : program (nested n) s = .ok p s') : Derives n s.lexemes p := by
  obtain ⟨ds, t, hds, h₁⟩ := bind_ok.mp h
  obtain ⟨rfl, rfl⟩ := pure_ok.mp h₁
  have hi := deeper_consumes n
  have hu := many_sound (declaration?_sound (nested_sound n) hi) (declarationLine_shrinks hi) hds
  exact ⟨ds, declarations_of_until hu, rfl⟩

end Offside.Parse
