import Offside.Proofs.Derivation

/-!
# Phrases with something else behind them

A derivation does not look at what stands behind its phrase, so that can be replaced
(`Swap`). What stands within a line is read the same way in front of everything (`Local`). The
end of a line may be the end of its block, which is not taken; if that is replaced, the line is
ended by a line end of its own (`LineEnd.swap`).
-/

namespace Offside.Grammar

variable {α : Type} {left new : List Lexeme}

/-- The second list is the first with `new` in the place of `left` at its end. -/
inductive Swap (left new : List Lexeme) : List Lexeme → List Lexeme → Prop
  | here : Swap left new left new
  | cons {l ls ls'} : Swap left new ls ls' → Swap left new (l :: ls) (l :: ls')

theorem Swap.exists_front {ls ls' : List Lexeme} (h : Swap left new ls ls') :
    ∃ front, ls = front ++ left ∧ ls' = front ++ new := by
  induction h with
  | here => exact ⟨[], rfl, rfl⟩
  | @cons l _ _ _ ih =>
    obtain ⟨front, rfl, rfl⟩ := ih
    exact ⟨l :: front, rfl, rfl⟩

/-- Whatever is put behind the phrase, it can be read. -/
def Local (R : Phrase α) : Prop :=
  ∀ ⦃ls a rest⦄, R ls a rest → ∀ ⦃left new rest'⦄, Swap left new rest rest' →
    ∃ ls', R ls' a rest' ∧ Swap left new ls ls'

theorem Newlines.swap {ls rest rest' : List Lexeme} (h : Newlines ls rest)
    (hswap : Swap left new rest rest') : ∃ ls', Newlines ls' rest' ∧ Swap left new ls ls' := by
  induction h with
  | none => exact ⟨rest', .none, hswap⟩
  | next _ ih =>
    obtain ⟨ls', hn, hswap'⟩ := ih hswap
    exact ⟨_, .next hn, .cons hswap'⟩

theorem LineEnd.swap {ls rest rest' : List Lexeme} (h : LineEnd ls rest)
    (hswap : Swap left new rest rest') :
    ∃ ls' new', LineEnd ls' rest' ∧ Swap left new' ls ls' := by
  cases h with
  | newline => exact ⟨_, new, .newline, .cons hswap⟩
  | dedent =>
    cases hswap with
    | here => exact ⟨⟨.newline, none⟩ :: new, _, .newline, .here⟩
    | cons hswap => exact ⟨_, new, .dedent, .cons hswap⟩

/-! ## Expressions -/

theorem word_local : Local Word := by
  rintro ls x rest ⟨⟩ left new rest' hswap
  exact ⟨_, .mk, .cons hswap⟩

theorem listed_local {item : Phrase α} (hitem : Local item) : Local (Listed item) := by
  intro ls as rest h left new rest' hswap
  induction h with
  | one ha =>
    obtain ⟨ls', ha', hswap'⟩ := hitem ha hswap
    exact ⟨ls', .one ha', hswap'⟩
  | more ha _ ih =>
    obtain ⟨mid', has', hmid⟩ := ih hswap
    obtain ⟨ls', ha', hswap'⟩ := hitem ha (.cons hmid)
    exact ⟨ls', .more ha' has', hswap'⟩

theorem chain_local {operator? : Kind → Option MathOp} {operand : Phrase Expr}
    (hoperand : Local operand) : Local (Chain operator? operand) := by
  intro ls e rest h
  induction h with
  | first he =>
    intro left new rest' hswap
    obtain ⟨ls', he', hswap'⟩ := hoperand he hswap
    exact ⟨ls', .first he', hswap'⟩
  | next _ hop he ih =>
    intro left new rest' hswap
    obtain ⟨mid', he', hmid⟩ := hoperand he hswap
    obtain ⟨ls', hleft, hswap'⟩ := ih (.cons hmid)
    exact ⟨ls', .next hleft hop he', hswap'⟩

section

variable {expression : Phrase Expr} (hE : Local expression)
include hE

theorem arguments_local : Local (Arguments expression) := by
  intro ls es rest h left new rest' hswap
  cases h with
  | none => exact ⟨_, .none, .cons hswap⟩
  | some hlist =>
    obtain ⟨ls', hlist', hswap'⟩ := listed_local hE hlist (.cons hswap)
    exact ⟨ls', .some hlist', hswap'⟩

theorem callPhrase_local : Local (CallPhrase expression) := by
  intro ls c rest h left new rest' hswap
  cases h with
  | alone ha =>
    obtain ⟨ls', ha', hswap'⟩ := arguments_local hE ha hswap
    exact ⟨_, .alone ha', .cons (.cons hswap')⟩
  | onReceiver ha =>
    obtain ⟨ls', ha', hswap'⟩ := arguments_local hE ha hswap
    exact ⟨_, .onReceiver ha', .cons (.cons (.cons (.cons hswap')))⟩

theorem factor_local : Local (Factor expression) := by
  intro ls e rest h left new rest' hswap
  cases h with
  | number => exact ⟨_, .number, .cons hswap⟩
  | string => exact ⟨_, .string, .cons hswap⟩
  | character hc => exact ⟨_, .character hc, .cons hswap⟩
  | parens he =>
    obtain ⟨ls', he', hswap'⟩ := hE he (.cons hswap)
    exact ⟨_, .parens he', .cons hswap'⟩
  | new ha =>
    obtain ⟨ls', ha', hswap'⟩ := arguments_local hE ha hswap
    exact ⟨_, .new ha', .cons (.cons (.cons hswap'))⟩
  | call hc =>
    obtain ⟨ls', hc', hswap'⟩ := callPhrase_local hE hc hswap
    exact ⟨ls', .call hc', hswap'⟩
  | var hx =>
    obtain ⟨ls', hx', hswap'⟩ := word_local hx hswap
    exact ⟨ls', .var hx', hswap'⟩

theorem sum_local : Local (Sum expression) :=
  chain_local (chain_local (factor_local hE))

theorem condition_local : Local (Condition expression) := by
  intro ls e rest h left new rest' hswap
  cases h with
  | compare hl hop hr =>
    obtain ⟨mid', hr', hmid⟩ := hE hr hswap
    obtain ⟨ls', hl', hswap'⟩ := hE hl (.cons hmid)
    exact ⟨ls', .compare hl' hop hr', hswap'⟩
  | call he =>
    obtain ⟨ls', he', hswap'⟩ := hE he hswap
    exact ⟨ls', .call he', hswap'⟩
  | var he =>
    obtain ⟨ls', he', hswap'⟩ := hE he hswap
    exact ⟨ls', .var he', hswap'⟩

end

theorem expression_local : ∀ n : Nat, Local (deeper n).expression
  | 0 => fun _ _ _ h => h.elim
  | n + 1 => sum_local (expression_local n)

end Offside.Grammar
