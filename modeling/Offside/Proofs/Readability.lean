import Mathlib.Data.List.Induction
import Mathlib.Data.Nat.Init
import Offside.Proofs.Spelling

/-!
# An expression can be told from its text

The parser has no notation for truth values, connectives and negations, so that they read back
cannot be said with its help. What can be said of all expressions is that no two of them are
written in the same way (`Expr.print_eq_iff`), if names are names and literals are literals
(`Expr.isLexical`).

The statement that carries the induction is about operands (`Expr.operand`): a text that starts
with an operand of a given level determines the operand and what stands behind it, as long as
nothing there goes on with it (`Expr.Told`). Operators group to the left, so an expression is
taken apart as a first operand and a list of operators with what follows each (`Expr.chain`): the
first operand can be told, then the first operator, the next operand, and so on. It is enough to
tell an expression at its own level (`Expr.told_of_own`): further out it is written in the same
way, and further in it stands in parentheses.
-/

namespace Offside

/-! ## Leaves -/

/-- Whether `name` is a name, and none of the words that values and connectives are written
with. -/
def isPlainName (name : String) : Bool :=
  isIdentifier name && !(["true", "false", "and", "or", "not"].contains name)

namespace Expr

mutual

/-- Whether the names of the expression are names, and its literals are written as literals. -/
def isLexical : Expr → Bool
  | number text => isNumeral text
  | string text => isStringBody false text.toList
  | character _ | boolean _ => true
  | var name => isPlainName name
  | call receiver method arguments =>
    receiver.all isPlainName && isPlainName method && allLexical arguments
  | math _ left right | compare _ left right | logic _ left right =>
    isLexical left && isLexical right
  | not operand => isLexical operand
  | new typeName arguments => isPlainName typeName && allLexical arguments

/-- Whether this holds of all the expressions. -/
def allLexical : List Expr → Bool
  | [] => true
  | e :: rest => isLexical e && allLexical rest

end

theorem isLexical_of_allLexical : ∀ {es : List Expr}, allLexical es = true →
    ∀ e ∈ es, e.isLexical = true
  | [], _, _, hmem => by cases hmem
  | a :: es, h, e, hmem => by
    rw [allLexical, Bool.and_eq_true] at h
    rcases List.mem_cons.mp hmem with rfl | hmem
    · exact h.1
    · exact isLexical_of_allLexical h.2 e hmem

end Expr

/-- A text is cut behind its characters of one sort in one way only. -/
theorem append_inj_of_all {p : Char → Bool} {u v r s : List Char} (hu : u.all p = true)
    (hv : v.all p = true) (hr : ∀ c ∈ r.head?, p c = false) (hs : ∀ c ∈ s.head?, p c = false)
    (h : u ++ r = v ++ s) : u = v ∧ r = s := by
  have hcut : ∀ {u r : List Char}, u.all p = true → (∀ c ∈ r.head?, p c = false) →
      (u ++ r).takeWhile p = u := by
    intro u r hu hr
    rw [List.takeWhile_append_of_pos (by simpa using hu)]
    rcases r with _ | ⟨c, r⟩
    · simp
    · rw [List.takeWhile_cons_of_neg (by simp [hr c rfl]), List.append_nil]
  have huv : u = v := by rw [← hcut hu hr, h, hcut hv hs]
  subst huv
  exact ⟨rfl, List.append_cancel_left h⟩

/-- The text of a string ends at the first quote without a backslash in front. -/
theorem stringBody_inj {r s : List Char} : ∀ {escaped : Bool} {u v : List Char},
    isStringBody escaped u = true → isStringBody escaped v = true →
    u ++ '"' :: r = v ++ '"' :: s → u = v ∧ r = s
  | _, [], [], _, _, h => ⟨rfl, List.tail_eq_of_cons_eq h⟩
  | escaped, [], c :: v, hu, hv, h => by
    obtain rfl : '"' = c := List.head_eq_of_cons_eq h
    cases escaped with
    | true => cases hu
    | false => cases hv
  | escaped, c :: u, [], hu, hv, h => by
    obtain rfl : c = '"' := List.head_eq_of_cons_eq h
    cases escaped with
    | true => cases hv
    | false => cases hu
  | escaped, c :: u, d :: v, hu, hv, h => by
    obtain rfl : c = d := List.head_eq_of_cons_eq h
    obtain ⟨escaped', hu', hv'⟩ : ∃ escaped', isStringBody escaped' u = true ∧
        isStringBody escaped' v = true := by
      rw [isStringBody] at hu hv
      split at hu
      · next hescaped => exact ⟨false, hu, by rwa [if_pos hescaped] at hv⟩
      · next hescaped =>
        rw [if_neg hescaped] at hv
        split at hu
        · next hc => exact ⟨true, hu, by rwa [if_pos hc] at hv⟩
        · next hc =>
          rw [if_neg hc] at hv
          rw [Bool.and_eq_true] at hu hv
          exact ⟨false, hu.2, hv.2⟩
    obtain ⟨rfl, rfl⟩ := stringBody_inj hu' hv' (List.tail_eq_of_cons_eq h)
    exact ⟨rfl, rfl⟩

theorem isPlainName_iff {x : String} : isPlainName x = true ↔
    isIdentifier x = true ∧ x ∉ ["true", "false", "and", "or", "not"] := by
  simp [isPlainName]

theorem all_of_isPlainName {x : String} (h : isPlainName x = true) :
    x.toList.all Unicode.isAlphanumeric = true := by
  have hx := (isPlainName_iff.mp h).1
  simp only [isIdentifier, Bool.and_eq_true] at hx
  exact hx.1.2

theorem ne_new_of_isPlainName {x : String} (h : isPlainName x = true) : x ≠ "new" := by
  rintro rfl
  cases h

/-! ## Operators between two operands -/

/-- An operator that stands between its two operands. -/
inductive Operator where
  /-- One on numbers. -/
  | math (op : MathOp)
  /-- One that compares. -/
  | compare (op : CompareOp)
  /-- A connective. -/
  | logic (op : LogicOp)

namespace Operator

/-- How tightly the operator binds. -/
def level : Operator → Nat
  | math .add | math .subtract => 5
  | math _ => 6
  | compare _ => 4
  | logic .and => 2
  | logic .or => 1

/-- How the operator is written. -/
def symbol : Operator → String
  | math op => op.symbol
  | compare op => op.symbol
  | logic op => op.symbol

/-- The operator with the spaces around it. -/
def sign (o : Operator) : List Char :=
  ' ' :: (o.symbol.toList ++ [' '])

/-- The expression that the operator makes of two. -/
def apply : Operator → Expr → Expr → Expr
  | math op => .math op
  | compare op => .compare op
  | logic op => .logic op

theorem symbol_injective : Function.Injective symbol := by
  intro o o' h
  rcases o with (_ | _ | _ | _ | _) | (_ | _ | _ | _ | _ | _) | (_ | _) <;>
    rcases o' with (_ | _ | _ | _ | _) | (_ | _ | _ | _ | _ | _) | (_ | _) <;>
      first | rfl | exact absurd h (by decide)

/-- An operator ends with the space behind it, so it can be told. -/
theorem sign_inj {o o' : Operator} {r r' : List Char} (h : o.sign ++ r = o'.sign ++ r') :
    o = o' ∧ r = r' := by
  have hspace : ∀ o : Operator, o.symbol.toList.all (· != ' ') = true := by
    rintro ((_ | _ | _ | _ | _) | (_ | _ | _ | _ | _ | _) | (_ | _)) <;> decide
  have htail : o.symbol.toList ++ ' ' :: r = o'.symbol.toList ++ ' ' :: r' := by
    simpa [sign] using h
  obtain ⟨hsymbol, hr⟩ := append_inj_of_all (hspace o) (hspace o') (by simp) (by simp) htail
  exact ⟨symbol_injective (String.toList_inj.mp hsymbol), List.tail_eq_of_cons_eq hr⟩

theorem level_ne (o : Operator) : o.level ≠ 0 ∧ o.level ≠ 3 ∧ o.level < 7 := by
  rcases o with (_ | _ | _ | _ | _) | _ | (_ | _) <;> simp [level]

end Operator

namespace Expr

theorem precedence_apply (o : Operator) (l r : Expr) : (o.apply l r).precedence = o.level := by
  rcases o with (_ | _ | _ | _ | _) | _ | (_ | _) <;> rfl

theorem isLexical_apply (o : Operator) (l r : Expr) :
    (o.apply l r).isLexical = (l.isLexical && r.isLexical) := by
  rcases o with _ | _ | _ <;> simp [Operator.apply, isLexical]

/-- An expression is made by an operator, is a negation, or binds tightest. -/
theorem exists_form (e : Expr) :
    (∃ o l r, e = Operator.apply o l r) ∨ (∃ a, e = not a) ∨ e.precedence = 7 := by
  cases e with
  | math op l r => exact .inl ⟨.math op, l, r, rfl⟩
  | compare op l r => exact .inl ⟨.compare op, l, r, rfl⟩
  | logic op l r => exact .inl ⟨.logic op, l, r, rfl⟩
  | not a => exact .inr (.inl ⟨a, rfl⟩)
  | _ => exact .inr (.inr rfl)

theorem exists_not_of_precedence {e : Expr} (h : e.precedence = 3) : ∃ a, e = not a := by
  rcases e.exists_form with ⟨o, l, r, rfl⟩ | hnot | hseven
  · rw [precedence_apply] at h
    exact absurd h o.level_ne.2.1
  · exact hnot
  · omega

theorem precedence_le (e : Expr) : e.precedence ≤ 7 := by
  rcases e.exists_form with ⟨o, l, r, rfl⟩ | ⟨a, rfl⟩ | hseven
  · rw [precedence_apply]
    exact Nat.le_of_lt o.level_ne.2.2
  · exact (by decide : 3 ≤ 7)
  · omega

/-! ## Operands -/

/-- The expression as it is written where it has to bind at `level` or more tightly. -/
def operand (level : Nat) (e : Expr) : List Char :=
  (parenthesize (decide (e.precedence < level)) e.print).toList

theorem operand_of_le {k : Nat} {e : Expr} (h : k ≤ e.precedence) :
    e.operand k = e.print.toList := by
  rw [operand, decide_eq_false (by omega)]
  rfl

theorem operand_of_lt {k : Nat} {e : Expr} (h : e.precedence < k) :
    e.operand k = '(' :: (e.operand 0 ++ [')']) := by
  rw [operand, decide_eq_true h, operand_of_le (Nat.zero_le _)]
  simp [parenthesize]

theorem operand_succ {k : Nat} {e : Expr} (h : e.precedence ≠ k) :
    e.operand (k + 1) = e.operand k := by
  rw [operand, operand]
  congr 2
  exact decide_eq_decide.mpr (by omega)

theorem print_apply (o : Operator) (l r : Expr) : (o.apply l r).print.toList =
    l.operand o.level ++ (o.sign ++ r.operand (o.level + 1)) := by
  have hlevel := precedence_apply o l r
  have hleft : ∀ k, needsParens l.precedence k false = decide (l.precedence < k) := by
    simp [needsParens]
  have hright : ∀ k, needsParens r.precedence k true = decide (r.precedence < k + 1) := by
    intro k
    rw [Bool.eq_iff_iff]
    simp [needsParens]
    omega
  rcases o with op | op | op <;> simp only [Operator.apply] at hlevel ⊢ <;> rw [print]
  · rw [hlevel, hleft, hright]
    simp [operand, Operator.sign, Operator.symbol]
  · have hfour : (Operator.compare op).level = 4 := rfl
    rw [hleft, hright, hfour]
    simp [operand, Operator.sign, Operator.symbol]
  · rw [hlevel, hleft, hright]
    simp [operand, Operator.sign, Operator.symbol]

theorem print_not (a : Expr) : (not a).print.toList = ['n', 'o', 't', ' '] ++ a.operand 3 := by
  simp [print, needsParens, operand]

/-! ## What follows an operand -/

/-- What stands behind does not go on with an operand that binds at `level` or more tightly. -/
inductive Follows (level : Nat) : List Char → Prop
  | nil : Follows level []
  | paren (rest) : Follows level (')' :: rest)
  | comma (rest) : Follows level (',' :: rest)
  | sign {o : Operator} (rest) : o.level < level → Follows level (o.sign ++ rest)

theorem Follows.mono {j k : Nat} {rest : List Char} (h : Follows j rest) (hjk : j ≤ k) :
    Follows k rest := by
  cases h with
  | nil => exact .nil
  | paren rest => exact .paren rest
  | comma rest => exact .comma rest
  | sign rest hlevel => exact .sign rest (by omega)

theorem Follows.head {k : Nat} {rest : List Char} (h : Follows k rest) :
    ∀ c ∈ rest.head?, c = ' ' ∨ c = ')' ∨ c = ',' := by
  cases h <;> simp [Operator.sign]

theorem Follows.level_lt {k : Nat} {o : Operator} {rest : List Char}
    (h : Follows k (o.sign ++ rest)) : o.level < k := by
  generalize htext : o.sign ++ rest = text at h
  cases h with
  | nil => simp [Operator.sign] at htext
  | paren => simp [Operator.sign] at htext
  | comma => simp [Operator.sign] at htext
  | sign _ hlevel => rwa [(Operator.sign_inj htext).1]

/-- A name ends where an operand ends. -/
theorem Follows.stops {k : Nat} {rest : List Char} (h : Follows k rest) {p : Char → Bool}
    (hspace : p ' ' = false) (hparen : p ')' = false) (hcomma : p ',' = false) :
    ∀ c ∈ rest.head?, p c = false := by
  intro c hc
  rcases h.head c hc with rfl | rfl | rfl
  · exact hspace
  · exact hparen
  · exact hcomma

/-- As an operand of `level` the expression can be told from its text, if what stands behind does
not go on with it. -/
def Told (level : Nat) (e : Expr) : Prop :=
  ∀ ⦃e' rest rest'⦄, e'.isLexical = true → Follows level rest → Follows level rest' →
    e.operand level ++ rest = e'.operand level ++ rest' → e = e' ∧ rest = rest'

/-! ## Texts in a row -/

/-- Texts that are told one by one are told in a row, if their end is none of them. -/
theorem flatMap_append_inj {α : Type} {text : α → List Char} {V : α → Prop}
    {N : List Char → Prop} (hnext : ∀ a r, V a → N (text a ++ r)) {r s : List Char}
    (hr : N r) (hs : N s) (hendr : ∀ a t, V a → text a ++ t ≠ r)
    (hends : ∀ a t, V a → text a ++ t ≠ s) : ∀ {as bs : List α}, (∀ a ∈ as, V a) →
    (∀ b ∈ bs, V b) → (∀ a ∈ as, ∀ b u v, V b → N u → N v → text a ++ u = text b ++ v →
      a = b ∧ u = v) → as.flatMap text ++ r = bs.flatMap text ++ s → as = bs ∧ r = s
  | [], [], _, _, _, h => ⟨rfl, h⟩
  | [], b :: bs, _, hbs, _, h => by
    rw [List.flatMap_cons, List.append_assoc] at h
    exact absurd h.symm (hendr b _ (hbs b List.mem_cons_self))
  | a :: as, [], has, _, _, h => by
    rw [List.flatMap_cons, List.append_assoc] at h
    exact absurd h (hends a _ (has a List.mem_cons_self))
  | a :: as, b :: bs, has, hbs, htold, h => by
    rw [List.forall_mem_cons] at has hbs htold
    have hgoes : ∀ {as : List α} {r}, (∀ a ∈ as, V a) → N r → N (as.flatMap text ++ r) := by
      intro as r has hr
      rcases as with _ | ⟨a, as⟩
      · exact hr
      · rw [List.flatMap_cons, List.append_assoc]
        exact hnext a _ (has a List.mem_cons_self)
    rw [List.flatMap_cons, List.flatMap_cons, List.append_assoc, List.append_assoc] at h
    obtain ⟨rfl, htail⟩ := htold.1 b _ _ hbs.1 (hgoes has.2 hr) (hgoes hbs.2 hs) h
    obtain ⟨rfl, rfl⟩ := flatMap_append_inj hnext hr hs hendr hends has.2 hbs.2 htold.2 htail
    exact ⟨rfl, rfl⟩

/-! ## Chains of operators -/

/-- Operators with what follows each, grouped to the left behind a first operand. -/
def chain (first : Expr) (steps : List (Operator × Expr)) : Expr :=
  steps.foldl (fun left step => step.1.apply left step.2) first

theorem chain_concat (first : Expr) (steps : List (Operator × Expr)) (o : Operator) (r : Expr) :
    chain first (steps ++ [(o, r)]) = o.apply (chain first steps) r := by
  simp [chain]

/-- An operator with its right operand, in writing. -/
def stepText (step : Operator × Expr) : List Char :=
  step.1.sign ++ step.2.operand (step.1.level + 1)

/-- `e` is a chain of the operators of `level`, behind a first operand that is none. -/
structure IsChain (level : Nat) (e first : Expr) (steps : List (Operator × Expr)) : Prop where
  eq : e = chain first steps
  first : first.precedence ≠ level
  steps : ∀ step ∈ steps, step.1.level = level

theorem IsChain.of_ne {k : Nat} {e : Expr} (h : e.precedence ≠ k) : IsChain k e e [] :=
  ⟨rfl, h, by simp⟩

theorem IsChain.next {k : Nat} {l first : Expr} {steps : List (Operator × Expr)}
    (h : IsChain k l first steps) {o : Operator} (ho : o.level = k) (r : Expr) :
    IsChain k (o.apply l r) first (steps ++ [(o, r)]) where
  eq := by rw [chain_concat, h.eq]
  first := h.first
  steps step hstep := by
    rcases List.mem_append.mp hstep with hstep | hstep
    · exact h.steps step hstep
    · rw [List.mem_singleton.mp hstep]
      exact ho

/-- The text of a chain: that of the first operand, and those of the steps in a row. -/
theorem IsChain.operand {k : Nat} {e first : Expr} {steps : List (Operator × Expr)}
    (h : IsChain k e first steps) :
    e.operand k = first.operand (k + 1) ++ steps.flatMap stepText := by
  obtain ⟨rfl, hfirst, hsteps⟩ := h
  induction steps using List.reverseRecOn with
  | nil => rw [operand_succ hfirst, List.flatMap_nil, List.append_nil]; rfl
  | append_singleton steps step ih =>
    obtain ⟨o, r⟩ := step
    have ho : o.level = k := hsteps (o, r) (by simp)
    have hleft := ih fun step hstep => hsteps step (List.mem_append_left _ hstep)
    rw [chain_concat, operand_of_le (Nat.le_of_eq (by rw [precedence_apply, ho])), print_apply, ho, hleft,
      List.flatMap_append, List.flatMap_singleton, stepText, ho, List.append_assoc]

theorem IsChain.isLexical {k : Nat} {e first : Expr} {steps : List (Operator × Expr)}
    (h : IsChain k e first steps) (he : e.isLexical = true) :
    first.isLexical = true ∧ ∀ step ∈ steps, step.2.isLexical = true := by
  obtain ⟨rfl, -, -⟩ := h
  induction steps using List.reverseRecOn with
  | nil => exact ⟨he, by simp⟩
  | append_singleton steps step ih =>
    obtain ⟨o, r⟩ := step
    rw [chain_concat, isLexical_apply, Bool.and_eq_true] at he
    obtain ⟨hfirst, hsteps⟩ := ih he.1
    refine ⟨hfirst, fun step hstep => ?_⟩
    rcases List.mem_append.mp hstep with hstep | hstep
    · exact hsteps step hstep
    · rw [List.mem_singleton.mp hstep]
      exact he.2

theorem exists_isChain_apply {k : Nat} (o : Operator) {l : Expr} (r : Expr)
    (h : ∃ first steps, IsChain k l first steps) :
    ∃ first steps, IsChain k (o.apply l r) first steps := by
  by_cases ho : o.level = k
  · obtain ⟨first, steps, h⟩ := h
    exact ⟨_, _, h.next ho r⟩
  · exact ⟨_, _, .of_ne (by rwa [precedence_apply])⟩

/-- Where operators stand between operands every expression is a chain. -/
theorem exists_isChain {k : Nat} (hk : k ≠ 3) (hk7 : k < 7) : ∀ e : Expr,
    ∃ first steps, IsChain k e first steps
  | math op l r => exists_isChain_apply (.math op) r (exists_isChain hk hk7 l)
  | compare op l r => exists_isChain_apply (.compare op) r (exists_isChain hk hk7 l)
  | logic op l r => exists_isChain_apply (.logic op) r (exists_isChain hk hk7 l)
  | not a => ⟨_, _, .of_ne (by simpa [precedence] using hk.symm)⟩
  | number _ | string _ | character _ | boolean _ | var _ | call _ _ _ | new _ _ =>
    ⟨_, _, .of_ne (by simp [precedence]; omega)⟩

/-- A chain is told if its operands are. -/
theorem IsChain.told {k : Nat} (hk : k ≠ 3) (hk7 : k < 7) {e first : Expr}
    {steps : List (Operator × Expr)} (h : IsChain k e first steps) (he : e.isLexical = true)
    (hfirst : Told (k + 1) first) (hsteps : ∀ step ∈ steps, Told (k + 1) step.2) : Told k e := by
  intro e' rest rest' he' hrest hrest' htext
  obtain ⟨first', steps', h'⟩ := exists_isChain hk hk7 e'
  have hlexical := h.isLexical he
  have hlexical' := h'.isLexical he'
  have hnext : ∀ (step : Operator × Expr) r, step.1.level = k →
      Follows (k + 1) (stepText step ++ r) := by
    intro step r hstep
    rw [stepText, List.append_assoc]
    exact .sign _ (by omega)
  have hgoes : ∀ {steps : List (Operator × Expr)} {rest}, (∀ step ∈ steps, step.1.level = k) →
      Follows k rest → Follows (k + 1) (steps.flatMap stepText ++ rest) := by
    intro steps rest hsteps hrest
    rcases steps with _ | ⟨step, steps⟩
    · exact hrest.mono (Nat.le_succ k)
    · rw [List.flatMap_cons, List.append_assoc]
      exact hnext step _ (hsteps step List.mem_cons_self)
  have hend : ∀ {rest}, Follows k rest → ∀ (step : Operator × Expr) t,
      step.1.level = k ∧ step.2.isLexical = true → stepText step ++ t ≠ rest := by
    rintro rest hrest step t ⟨hstep, -⟩ rfl
    rw [stepText, List.append_assoc] at hrest
    have := hrest.level_lt
    omega
  rw [h.operand, h'.operand, List.append_assoc, List.append_assoc] at htext
  obtain ⟨rfl, htail⟩ := hfirst hlexical'.1 (hgoes h.steps hrest) (hgoes h'.steps hrest') htext
  obtain ⟨rfl, rfl⟩ := flatMap_append_inj
    (V := fun step : Operator × Expr => step.1.level = k ∧ step.2.isLexical = true)
    (N := Follows (k + 1)) (fun step r hstep => hnext step r hstep.1)
    (hrest.mono (Nat.le_succ k)) (hrest'.mono (Nat.le_succ k)) (hend hrest) (hend hrest')
    (fun step hstep => ⟨h.steps step hstep, hlexical.2 step hstep⟩)
    (fun step hstep => ⟨h'.steps step hstep, hlexical'.2 step hstep⟩)
    (by
      rintro ⟨o, r⟩ hmem ⟨o', r'⟩ u v ⟨hlevel', hr'⟩ hu hv heq
      have hlevel := h.steps _ hmem
      simp only [stepText, List.append_assoc] at hlevel hlevel' heq
      obtain ⟨rfl, hoperand⟩ := Operator.sign_inj heq
      rw [hlevel] at hoperand
      obtain ⟨rfl, rfl⟩ := hsteps _ hmem hr' hu hv hoperand
      exact ⟨rfl, rfl⟩) htail
  exact ⟨by rw [h.eq, h'.eq], rfl⟩

/-! ## The first characters of an operand -/

/-- What a character can be the first one of. -/
inductive Lead where
  /-- Parentheses. -/
  | paren
  /-- A number. -/
  | numeral
  /-- A string. -/
  | quote
  /-- A character between apostrophes. -/
  | apostrophe
  /-- A word. -/
  | word
deriving DecidableEq

/-- What the character is the first one of. -/
def Lead.ofChar? (c : Char) : Option Lead :=
  if Unicode.isAlphabetic c then some .word
  else if c.isDigit || c == '.' then some .numeral
  else if c = '(' then some .paren
  else if c = '"' then some .quote
  else if c = '\'' then some .apostrophe
  else none

/-- What the expression starts with where it has to bind tightest. -/
def lead : Expr → Lead
  | number _ => .numeral
  | string _ => .quote
  | character _ => .apostrophe
  | boolean _ | var _ | call _ _ _ | new _ _ => .word
  | math _ _ _ | compare _ _ _ | logic _ _ _ | not _ => .paren

theorem lead_eq_paren {e : Expr} : e.lead = .paren ↔ e.precedence < 7 := by
  rcases e with _ | _ | _ | _ | _ | _ | ⟨_ | _ | _ | _ | _, _, _⟩ | _ | ⟨_ | _, _, _⟩ | _ | _ <;>
    simp [lead, precedence]

/-- The values of a call in their parentheses. -/
def argumentText (es : List Expr) : List Char :=
  '(' :: ((commaList (printAll es)).toList ++ [')'])

/-- What stands behind the word that an expression starts with. -/
inductive Tail where
  /-- Nothing. -/
  | nothing
  /-- The values of a call. -/
  | arguments (es : List Expr)
  /-- A method of the object that the word names, and the values of the call. -/
  | method (name : String) (es : List Expr)
  /-- The type of a new object, and the values that it is made of. -/
  | object (name : String) (es : List Expr)

namespace Tail

/-- The tail in writing. -/
def text : Tail → List Char
  | nothing => []
  | arguments es => argumentText es
  | method name es => '.' :: (name.toList ++ argumentText es)
  | object name es => ' ' :: (name.toList ++ argumentText es)

/-- The values in the tail. -/
def values : Tail → List Expr
  | nothing => []
  | arguments es | method _ es | object _ es => es

/-- Whether the names in the tail are names, and the values are lexical. -/
def isLexical : Tail → Bool
  | nothing => true
  | arguments es => allLexical es
  | method name es | object name es => isPlainName name && allLexical es

/-- Whether a tail follows the word: that of a new object and no other follows `new`. -/
def Fits (word : String) : Tail → Prop
  | object _ _ => word = "new"
  | _ => word ≠ "new"

end Tail

/-- The expression that starts with a word and goes on with a tail. -/
def ofWord (word : String) : Tail → Expr
  | .nothing => if word = "true" then boolean true
    else if word = "false" then boolean false else var word
  | .arguments es => call none word es
  | .method name es => call (some word) name es
  | .object name es => new name es

/-- `e` is made of a word and a tail. -/
structure IsWord (e : Expr) (word : String) (tail : Tail) : Prop where
  eq : e = ofWord word tail
  print : e.print.toList = word.toList ++ tail.text
  first : word.toList.head?.any Unicode.isAlphabetic = true
  all : word.toList.all Unicode.isAlphanumeric = true
  ne_not : word ≠ "not"
  lexical : tail.isLexical = true
  fits : tail.Fits word

theorem IsWord.of_isPlainName {e : Expr} {x : String} {tail : Tail} (hx : isPlainName x = true)
    (eq : e = ofWord x tail) (print : e.print.toList = x.toList ++ tail.text)
    (lexical : tail.isLexical = true) (fits : tail.Fits x) : IsWord e x tail := by
  obtain ⟨hid, hfree⟩ := isPlainName_iff.mp hx
  simp only [isIdentifier, Bool.and_eq_true] at hid
  exact ⟨eq, print, hid.1.1, hid.1.2, fun h => hfree (by simp [h]), lexical, fits⟩

/-- An expression that starts with a word is made of the word and a tail. -/
theorem exists_isWord {e : Expr} (h : e.lead = .word) (he : e.isLexical = true) :
    ∃ word tail, IsWord e word tail := by
  cases e with
  | boolean value =>
    cases value with
    | true => exact ⟨"true", .nothing, rfl, by simp [Expr.print, Tail.text], rfl, rfl, by decide,
        rfl, by simp [Tail.Fits]⟩
    | false => exact ⟨"false", .nothing, rfl, by simp [Expr.print, Tail.text], rfl, rfl, by decide,
        rfl, by simp [Tail.Fits]⟩
  | var name =>
    obtain ⟨-, hfree⟩ := isPlainName_iff.mp he
    simp only [List.mem_cons, not_or] at hfree
    refine ⟨name, .nothing, .of_isPlainName he ?_ ?_ rfl (ne_new_of_isPlainName he)⟩
    · simp [ofWord, hfree]
    · simp [Expr.print, Tail.text]
  | call receiver method es =>
    simp only [isLexical, Bool.and_eq_true] at he
    obtain ⟨⟨hreceiver, hmethod⟩, hes⟩ := he
    rcases receiver with _ | receiver
    · refine ⟨method, .arguments es, .of_isPlainName hmethod rfl ?_ hes
        (ne_new_of_isPlainName hmethod)⟩
      simp [Expr.print, Tail.text, argumentText]
    · refine ⟨receiver, .method method es, .of_isPlainName hreceiver rfl ?_ ?_
        (ne_new_of_isPlainName hreceiver)⟩
      · simp [Expr.print, Tail.text, argumentText]
      · simp [Tail.isLexical, hmethod, hes]
  | new name es =>
    refine ⟨"new", .object name es, rfl, ?_, rfl, rfl, by decide, he, rfl⟩
    simp [Expr.print, Tail.text, argumentText]
  | _ => cases h

/-- The first character of an expression says what it starts with. -/
theorem operand_lead {e : Expr} (he : e.isLexical = true) (rest : List Char) :
    ∃ c cs, e.operand 7 ++ rest = c :: cs ∧ Lead.ofChar? c = some e.lead := by
  by_cases hparen : e.lead = .paren
  · rw [operand_of_lt (lead_eq_paren.mp hparen), hparen]
    exact ⟨'(', _, rfl, rfl⟩
  rw [operand_of_le (by rw [lead_eq_paren] at hparen; omega)]
  by_cases hword : e.lead = .word
  · obtain ⟨word, tail, h⟩ := exists_isWord hword he
    rw [h.print, hword]
    have hfirst := h.first
    rcases hcs : word.toList with _ | ⟨c, cs⟩ <;> rw [hcs] at hfirst
    · cases hfirst
    · exact ⟨c, _, rfl, if_pos (by simpa using hfirst)⟩
  cases e with
  | number text =>
    obtain ⟨c, cs, hc, htext | htext⟩ := numeral_start he
    · refine ⟨c, cs ++ rest, by simp [print, htext], ?_⟩
      simp [Lead.ofChar?, not_isAlphabetic_of_isDigit hc, hc, lead]
    · exact ⟨'.', c :: cs ++ rest, by simp [print, htext], rfl⟩
  | string text => exact ⟨'"', text.toList ++ '"' :: rest, by simp [print], rfl⟩
  | character value => exact ⟨'\'', value :: '\'' :: rest, by simp [print], rfl⟩
  | boolean | var | call | new => exact absurd rfl hword
  | math | compare | logic | not => exact absurd rfl hparen

theorem lead_eq {e e' : Expr} (he : e.isLexical = true) (he' : e'.isLexical = true)
    {rest rest' : List Char} (h : e.operand 7 ++ rest = e'.operand 7 ++ rest') :
    e.lead = e'.lead := by
  obtain ⟨c, cs, htext, hc⟩ := operand_lead he rest
  obtain ⟨c', cs', htext', hc'⟩ := operand_lead he' rest'
  rw [htext, htext'] at h
  obtain rfl := List.head_eq_of_cons_eq h
  exact Option.some.inj (hc.symm.trans hc')

/-- A word ends where its tail starts, or what follows. -/
theorem Tail.stops (tail : Tail) {k : Nat} {rest : List Char} (hrest : Follows k rest) :
    ∀ c ∈ (tail.text ++ rest).head?, Unicode.isAlphanumeric c = false := by
  intro c hc
  cases tail with
  | nothing => exact hrest.stops rfl rfl rfl c hc
  | arguments | method | object =>
    obtain rfl := Option.some.inj hc
    rfl

theorem precedence_ofWord (word : String) (tail : Tail) : (ofWord word tail).precedence = 7 := by
  cases tail with
  | nothing => simp only [ofWord]; split_ifs <;> rfl
  | arguments | method | object => rfl

/-! ## The first operand of all -/

/-- Where an operand of `level` stands, the text starts with a negation or with an operand that
binds tightest. -/
def Starts (level : Nat) (text : List Char) : Prop :=
  (level ≤ 3 ∧ ∃ more, text = ['n', 'o', 't', ' '] ++ more) ∨
    ∃ (first : Expr) (more : List Char), first.isLexical = true ∧ Follows 7 more ∧
      text = first.operand 7 ++ more

/-- An operand in parentheses binds tightest, so only one without them is to be looked at. -/
theorem starts_of_bare {e : Expr} (he : e.isLexical = true) {k : Nat} (hk : k ≤ 7)
    {rest : List Char} (hrest : Follows 7 rest)
    (h : k ≤ e.precedence → e.precedence < 7 → Starts k (e.operand k ++ rest)) :
    Starts k (e.operand k ++ rest) := by
  by_cases hlt : e.precedence < k
  · refine .inr ⟨e, rest, he, hrest, ?_⟩
    rw [operand_of_lt hlt, operand_of_lt (Nat.lt_of_lt_of_le hlt hk)]
  by_cases hseven : e.precedence < 7
  · exact h (Nat.le_of_not_lt hlt) hseven
  · refine .inr ⟨e, rest, he, hrest, ?_⟩
    rw [operand_of_le (Nat.le_of_not_lt hlt), operand_of_le (Nat.le_of_not_lt hseven)]

theorem starts_apply {o : Operator} {l r : Expr} (he : (o.apply l r).isLexical = true)
    (hleft : l.isLexical = true → ∀ {k : Nat}, k ≤ 7 → ∀ {rest : List Char}, Follows 7 rest →
      Starts k (l.operand k ++ rest)) {k : Nat} (hk : k ≤ 7) {rest : List Char}
    (hrest : Follows 7 rest) : Starts k ((o.apply l r).operand k ++ rest) := by
  refine starts_of_bare he hk hrest fun hle _ => ?_
  rw [operand_of_le hle, print_apply, List.append_assoc, List.append_assoc]
  rw [precedence_apply] at hle
  rw [isLexical_apply, Bool.and_eq_true] at he
  have hlevel := o.level_ne.2.2
  rcases hleft he.1 (Nat.le_of_lt hlevel) (.sign (r.operand (o.level + 1) ++ rest) hlevel) with
    ⟨hthree, h⟩ | h
  · exact .inl ⟨Nat.le_trans hle hthree, h⟩
  · exact .inr h

/-- An operand starts as the leftmost of its own operands does. -/
theorem starts : ∀ {e : Expr}, e.isLexical = true → ∀ {k : Nat}, k ≤ 7 →
    ∀ {rest : List Char}, Follows 7 rest → Starts k (e.operand k ++ rest)
  | math op _ _, he, _, hk, _, hrest => starts_apply (o := .math op) he starts hk hrest
  | compare op _ _, he, _, hk, _, hrest => starts_apply (o := .compare op) he starts hk hrest
  | logic op _ _, he, _, hk, _, hrest => starts_apply (o := .logic op) he starts hk hrest
  | not a, he, _, hk, rest, hrest => starts_of_bare he hk hrest fun hle _ =>
    .inl ⟨hle, a.operand 3 ++ rest, by rw [operand_of_le hle, print_not, List.append_assoc]⟩
  | number _, he, _, hk, _, hrest | string _, he, _, hk, _, hrest
  | character _, he, _, hk, _, hrest | boolean _, he, _, hk, _, hrest
  | var _, he, _, hk, _, hrest | call _ _ _, he, _, hk, _, hrest
  | new _ _, he, _, hk, _, hrest =>
    starts_of_bare he hk hrest fun _ hlt => absurd hlt (Nat.lt_irrefl 7)

/-- The word of a negation stands only in front of a negation. -/
theorem operand_ne_not {e : Expr} (he : e.isLexical = true) {k : Nat} (hk : 3 < k) (hk7 : k ≤ 7)
    {rest : List Char} (hrest : Follows 7 rest) (more : List Char) :
    e.operand k ++ rest ≠ ['n', 'o', 't', ' '] ++ more := by
  rcases starts he hk7 hrest with ⟨hle, -⟩ | ⟨first, behind, hfirst, hbehind, h⟩
  · omega
  rw [h]
  intro htext
  have hlead : first.lead = .word := by
    obtain ⟨c, cs, hcs, hc⟩ := operand_lead hfirst behind
    rw [hcs] at htext
    obtain rfl := List.head_eq_of_cons_eq htext
    exact (Option.some.inj hc).symm
  obtain ⟨word, tail, hword⟩ := exists_isWord hlead hfirst
  rw [operand_of_le (by simp [hword.eq, precedence_ofWord]), hword.print, List.append_assoc] at htext
  obtain ⟨hnot, -⟩ := append_inj_of_all (v := "not".toList) (s := ' ' :: more) hword.all rfl
    (tail.stops hbehind) (by rintro _ ⟨⟩; rfl) htext
  exact hword.ne_not (String.toList_inj.mp hnot)

theorem operand_ne_close {e : Expr} (he : e.isLexical = true) {k : Nat} (hk : k ≤ 7)
    {rest : List Char} (hrest : Follows 7 rest) (more : List Char) :
    e.operand k ++ rest ≠ ')' :: more := by
  rcases starts he hk hrest with ⟨-, text, h⟩ | ⟨first, behind, hfirst, -, h⟩ <;> rw [h]
  · simp
  · obtain ⟨c, cs, hcs, hc⟩ := operand_lead hfirst behind
    rw [hcs]
    rintro ⟨⟩
    cases hc

/-! ## From one level to another -/

/-- Further out, an expression that needs no parentheses is written in the same way. -/
theorem Told.out {k : Nat} (hk7 : k < 7) {e : Expr} (he : e.isLexical = true)
    (hne : e.precedence ≠ k) (h : Told (k + 1) e) : Told k e := by
  by_cases hk : k = 3
  · subst hk
    intro e' rest rest' he' hrest hrest' htext
    by_cases hne' : e'.precedence = 3
    · obtain ⟨a, rfl⟩ := exists_not_of_precedence hne'
      rw [← operand_succ hne, operand_of_le (e := not a) (Nat.le_refl 3), print_not,
        List.append_assoc] at htext
      exact absurd htext (operand_ne_not he (by decide) (by decide) (hrest.mono (by decide)) _)
    · rw [← operand_succ hne, ← operand_succ hne'] at htext
      exact h he' (hrest.mono (by decide)) (hrest'.mono (by decide)) htext
  -- Where operators stand between operands it is a chain of itself alone, but what it is told from
  -- may be a longer one.
  · exact IsChain.told hk hk7 (.of_ne hne) he h (by simp)

/-- In parentheses an expression can be told if it can be told without. -/
theorem Told.parens {e : Expr} (he : e.isLexical = true) (hlt : e.precedence < 7)
    (h : Told 0 e) : Told 7 e := by
  intro e' rest rest' he' _ _ htext
  have hlt' : e'.precedence < 7 := by
    rw [← lead_eq_paren, ← lead_eq he he' htext]
    exact lead_eq_paren.mpr hlt
  rw [operand_of_lt hlt, operand_of_lt hlt'] at htext
  simp only [List.cons_append, List.append_assoc, List.nil_append] at htext
  obtain ⟨rfl, hrest⟩ := h he' (.paren rest) (.paren rest') (List.tail_eq_of_cons_eq htext)
  exact ⟨rfl, List.tail_eq_of_cons_eq hrest⟩

/-- An expression that can be told at its own level can be told everywhere. -/
theorem told_of_own {e : Expr} (he : e.isLexical = true) (h : Told e.precedence e) {k : Nat}
    (hk : k ≤ 7) : Told k e := by
  have hout : ∀ {j}, j ≤ e.precedence → Told j e := by
    intro j hj
    induction hj using Nat.decreasingInduction with
    | self => exact h
    | of_succ i hi ih => exact ih.out (Nat.lt_of_lt_of_le hi (precedence_le e)) he (by omega)
  rcases Nat.lt_or_ge e.precedence k with hlt | hle
  -- Further in it stands in parentheses: at level 0 in them, at level 7 with them, and from there
  -- outwards again.
  · have hseven := (hout (Nat.zero_le _)).parens he (Nat.lt_of_lt_of_le hlt hk)
    induction hk using Nat.decreasingInduction with
    | self => exact hseven
    | of_succ i hi ih => exact (ih (by omega)).out hi he (by omega)
  · exact hout hle

/-! ## Expressions without operands -/

/-- The values that the expression calls something with. -/
def values : Expr → List Expr
  | call _ _ es | new _ es => es
  | _ => []

theorem values_ofWord (word : String) (tail : Tail) : (ofWord word tail).values = tail.values := by
  cases tail with
  | nothing => simp only [ofWord]; split_ifs <;> rfl
  | arguments | method | object => rfl

/-- A value behind the first, in writing. -/
def itemText (e : Expr) : List Char :=
  ',' :: ' ' :: e.operand 0

theorem argumentText_nil : argumentText [] = ['(', ')'] :=
  rfl

theorem argumentText_cons (e : Expr) (es : List Expr) :
    argumentText (e :: es) = '(' :: (e.operand 0 ++ (es.flatMap itemText ++ [')'])) := by
  have hlist : ∀ (e : Expr) (es : List Expr),
      (commaList (printAll (e :: es))).toList = e.operand 0 ++ es.flatMap itemText := by
    intro e es
    induction es generalizing e with
    | nil => simp [printAll, commaList, operand_of_le]
    | cons a es ih =>
      have htail := ih a
      simp only [printAll, commaList] at htail
      simp [printAll, commaList, itemText, operand_of_le (Nat.zero_le _), htail]
  rw [argumentText, hlist, List.append_assoc]

theorem follows_items {es : List Expr} (rest : List Char) :
    Follows 0 (es.flatMap itemText ++ ')' :: rest) := by
  rcases es with _ | ⟨e, es⟩
  · exact .paren rest
  · exact .comma _

/-- Values in parentheses can be told if each of them can. -/
theorem arguments_told {es es' : List Expr} (h : ∀ e ∈ es, Told 0 e)
    (hes : allLexical es = true) (hes' : allLexical es' = true) {rest rest' : List Char}
    (htext : argumentText es ++ rest = argumentText es' ++ rest') : es = es' ∧ rest = rest' := by
  have hmono : ∀ {rest}, Follows 0 rest → Follows 7 rest := fun h => h.mono (Nat.zero_le 7)
  rcases es with _ | ⟨e, es⟩ <;> rcases es' with _ | ⟨e', es'⟩
  · exact ⟨rfl, List.append_cancel_left htext⟩
  · have he' := isLexical_of_allLexical hes' e' List.mem_cons_self
    rw [argumentText_nil, argumentText_cons] at htext
    simp only [List.cons_append, List.nil_append, List.append_assoc, List.cons.injEq,
      true_and] at htext
    exact absurd htext.symm (operand_ne_close he' (Nat.zero_le 7) (hmono (follows_items rest')) _)
  · have he := isLexical_of_allLexical hes e List.mem_cons_self
    rw [argumentText_nil, argumentText_cons] at htext
    simp only [List.cons_append, List.nil_append, List.append_assoc, List.cons.injEq,
      true_and] at htext
    exact absurd htext (operand_ne_close he (Nat.zero_le 7) (hmono (follows_items rest)) _)
  · rw [List.forall_mem_cons] at h
    have hlexical := isLexical_of_allLexical hes
    have hlexical' := isLexical_of_allLexical hes'
    rw [List.forall_mem_cons] at hlexical hlexical'
    rw [argumentText_cons, argumentText_cons] at htext
    simp only [List.cons_append, List.nil_append, List.append_assoc, List.cons.injEq,
      true_and] at htext
    obtain ⟨rfl, htail⟩ := h.1 hlexical'.1 (follows_items rest) (follows_items rest') htext
    obtain ⟨rfl, hrest⟩ := flatMap_append_inj (V := fun e : Expr => e.isLexical = true)
      (N := Follows 0) (fun _ _ _ => .comma _) (.paren rest) (.paren rest')
      (by simp [itemText]) (by simp [itemText]) hlexical.2 hlexical'.2
      (fun e he e' u v he' hu hv heq =>
        h.2 e he he' hu hv (by simpa [itemText] using heq)) htail
    exact ⟨rfl, List.tail_eq_of_cons_eq hrest⟩

/-- A name ends at the parenthesis behind it. -/
theorem applied_told {x x' : String} {es es' : List Expr} (h : ∀ e ∈ es, Told 0 e)
    (hx : (isPlainName x && allLexical es) = true) (hx' : (isPlainName x' && allLexical es') = true)
    {rest rest' : List Char} (htext : x.toList ++ argumentText es ++ rest =
      x'.toList ++ argumentText es' ++ rest') : x = x' ∧ es = es' ∧ rest = rest' := by
  rw [Bool.and_eq_true] at hx hx'
  rw [List.append_assoc, List.append_assoc] at htext
  have hstops : ∀ (es : List Expr) (rest : List Char), ∀ c ∈ (argumentText es ++ rest).head?,
      Unicode.isAlphanumeric c = false := by
    rintro es rest _ ⟨⟩
    rfl
  obtain ⟨hname, hrest⟩ := append_inj_of_all (all_of_isPlainName hx.1) (all_of_isPlainName hx'.1)
    (hstops es rest) (hstops es' rest') htext
  exact ⟨String.toList_inj.mp hname, arguments_told h hx.2 hx'.2 hrest⟩

/-- Behind the same word the tails can be told: only `new` is followed by a space of its own. -/
theorem Tail.told {word : String} {t t' : Tail} (h : ∀ e ∈ t.values, Told 0 e)
    (ht : t.isLexical = true) (ht' : t'.isLexical = true) (hfits : t.Fits word)
    (hfits' : t'.Fits word) {k : Nat} {rest rest' : List Char} (hrest : Follows k rest)
    (hrest' : Follows k rest') (htext : t.text ++ rest = t'.text ++ rest') :
    t = t' ∧ rest = rest' := by
  have hnothing : ∀ {rest : List Char}, Follows k rest → ∀ {c more}, c :: more = rest →
      c ≠ '(' ∧ c ≠ '.' := by
    rintro _ hrest c more rfl
    rcases hrest.head c rfl with rfl | rfl | rfl <;> decide
  cases t with
  | nothing =>
    cases t' with
    | nothing => exact ⟨rfl, htext⟩
    | arguments => exact absurd rfl (hnothing hrest htext.symm).1
    | method => exact absurd rfl (hnothing hrest htext.symm).2
    | object => exact absurd hfits' hfits
  | arguments es =>
    cases t' with
    | nothing => exact absurd rfl (hnothing hrest' htext).1
    | arguments es' =>
      obtain ⟨rfl, rfl⟩ := arguments_told h ht ht' htext
      exact ⟨rfl, rfl⟩
    | method | object => cases htext
  | method name es =>
    cases t' with
    | nothing => exact absurd rfl (hnothing hrest' htext).2
    | method name' es' =>
      obtain ⟨rfl, rfl, rfl⟩ := applied_told h ht ht' (List.tail_eq_of_cons_eq htext)
      exact ⟨rfl, rfl⟩
    | arguments | object => cases htext
  | object name es =>
    cases t' with
    | nothing => exact absurd hfits hfits'
    | object name' es' =>
      obtain ⟨rfl, rfl, rfl⟩ := applied_told h ht ht' (List.tail_eq_of_cons_eq htext)
      exact ⟨rfl, rfl⟩
    | arguments | method => cases htext

theorem told_atom {e : Expr} (he : e.isLexical = true) (hseven : e.precedence = 7)
    (h : ∀ a ∈ e.values, Told 0 a) : Told 7 e := by
  intro e' rest rest' he' hrest hrest' htext
  have hlead := lead_eq he he' htext
  have hseven' : 7 ≤ e'.precedence := by
    have hparen := (lead_eq_paren (e := e)).not.mpr (by omega)
    rw [hlead, lead_eq_paren] at hparen
    omega
  rw [operand_of_le (Nat.le_of_eq hseven.symm), operand_of_le hseven'] at htext
  by_cases hword : e.lead = .word
  · obtain ⟨word, tail, hw⟩ := exists_isWord hword he
    obtain ⟨word', tail', hw'⟩ := exists_isWord (hlead ▸ hword) he'
    rw [hw.print, hw'.print, List.append_assoc, List.append_assoc] at htext
    obtain ⟨hsame, htail⟩ := append_inj_of_all hw.all hw'.all (tail.stops hrest)
      (tail'.stops hrest') htext
    obtain rfl := String.toList_inj.mp hsame
    rw [hw.eq, values_ofWord] at h
    obtain ⟨rfl, rfl⟩ := Tail.told h hw.lexical hw'.lexical hw.fits hw'.fits hrest hrest' htail
    exact ⟨by rw [hw.eq, hw'.eq], rfl⟩
  cases e with
  | number text =>
    cases e' with
    | number text' =>
      simp only [isLexical, isNumeral, Bool.and_eq_true] at he he'
      obtain ⟨hsame, rfl⟩ := append_inj_of_all he.1.1 he'.1.1 (hrest.stops rfl rfl rfl)
        (hrest'.stops rfl rfl rfl) (by simpa [print] using htext)
      rw [String.toList_inj.mp hsame]
      exact ⟨rfl, rfl⟩
    | _ => cases hlead
  | string text =>
    cases e' with
    | string text' =>
      obtain ⟨hsame, rfl⟩ := stringBody_inj he he' (by simpa [print] using htext)
      rw [String.toList_inj.mp hsame]
      exact ⟨rfl, rfl⟩
    | _ => cases hlead
  | character value =>
    cases e' with
    | character value' =>
      obtain ⟨rfl, rfl⟩ : value = value' ∧ rest = rest' := by simpa [print] using htext
      exact ⟨rfl, rfl⟩
    | _ => cases hlead
  | boolean | var | call | new => exact absurd rfl hword
  | math | compare | logic | not =>
    exact absurd hseven (Nat.ne_of_lt (lead_eq_paren.mp rfl))

/-! ## All expressions -/

/-- The expression can be told wherever it stands, and so can its operands where it is taken
apart as a chain. -/
structure Readable (e : Expr) : Prop where
  told : ∀ ⦃k⦄, k ≤ 7 → Told k e
  operands : ∀ ⦃k⦄, k ≠ 3 → k < 7 → ∃ first steps, IsChain k e first steps ∧
    Told (k + 1) first ∧ ∀ step ∈ steps, Told (k + 1) step.2

/-- An expression that is no chain of operators is readable if it can be told at its own level. -/
theorem Readable.of_told {e : Expr} (he : e.isLexical = true) (h : Told e.precedence e)
    (hown : e.precedence = 3 ∨ e.precedence = 7) : Readable e where
  told _ hk := told_of_own he h hk
  operands k hk hk7 := ⟨e, [], .of_ne (by omega), told_of_own he h hk7, by simp⟩

theorem Readable.apply {o : Operator} {l r : Expr} (he : (o.apply l r).isLexical = true)
    (hl : Readable l) (hr : Readable r) : Readable (o.apply l r) := by
  obtain ⟨-, hthree, hseven⟩ := o.level_ne
  obtain ⟨first, steps, hchain, hfirst, hsteps⟩ := hl.operands hthree hseven
  have hnext := hchain.next rfl r
  have hsteps' : ∀ step ∈ steps ++ [(o, r)], Told (o.level + 1) step.2 := by
    intro step hstep
    rcases List.mem_append.mp hstep with hstep | hstep
    · exact hsteps step hstep
    · rw [List.mem_singleton.mp hstep]
      exact hr.told hseven
  have hown := hnext.told hthree hseven he hfirst hsteps'
  rw [← precedence_apply o l r] at hown
  refine ⟨fun k hk => told_of_own he hown hk, fun k _ hk7 => ?_⟩
  by_cases hk : o.level = k
  · subst hk
    exact ⟨first, _, hnext, hfirst, hsteps'⟩
  · exact ⟨_, [], .of_ne (by rwa [precedence_apply]), told_of_own he hown hk7, by simp⟩

/-- A negation is told by its word from everything else that stands at its level. -/
theorem Readable.not {a : Expr} (ha : a.isLexical = true) (h : Readable a) : Readable (not a) := by
  have hown : Told 3 (Expr.not a) := by
    intro e' rest rest' he' hrest hrest' htext
    rw [operand_of_le (e := .not a) (Nat.le_refl 3), print_not, List.append_assoc] at htext
    by_cases hthree : e'.precedence = 3
    · obtain ⟨a', rfl⟩ := exists_not_of_precedence hthree
      rw [operand_of_le (e := .not a') (Nat.le_refl 3), print_not, List.append_assoc] at htext
      obtain ⟨rfl, rfl⟩ := h.told (by decide) (show a'.isLexical = true from he') hrest
        hrest' (List.append_cancel_left htext)
      exact ⟨rfl, rfl⟩
    · rw [← operand_succ hthree] at htext
      exact absurd htext.symm
        (operand_ne_not he' (by decide) (by decide) (hrest'.mono (by decide)) _)
  exact .of_told ha hown (.inl rfl)

mutual

theorem readable : ∀ {e : Expr}, e.isLexical = true → Readable e
  | math op l r, he => by
    have hparts := Bool.and_eq_true_iff.mp he
    exact Readable.apply (o := .math op) he (readable hparts.1) (readable hparts.2)
  | compare op l r, he => by
    have hparts := Bool.and_eq_true_iff.mp he
    exact Readable.apply (o := .compare op) he (readable hparts.1) (readable hparts.2)
  | logic op l r, he => by
    have hparts := Bool.and_eq_true_iff.mp he
    exact Readable.apply (o := .logic op) he (readable hparts.1) (readable hparts.2)
  | not a, he => Readable.not he (readable he)
  | call _ _ es, he => .of_told he (told_atom he rfl fun e hmem =>
      (readableAll (Bool.and_eq_true_iff.mp he).2 e hmem).told (Nat.zero_le 7)) (.inr rfl)
  | new _ es, he => .of_told he (told_atom he rfl fun e hmem =>
      (readableAll (Bool.and_eq_true_iff.mp he).2 e hmem).told (Nat.zero_le 7)) (.inr rfl)
  | number _, he | string _, he | character _, he | boolean _, he | var _, he =>
    .of_told he (told_atom he rfl (by simp [values])) (.inr rfl)

theorem readableAll : ∀ {es : List Expr}, allLexical es = true → ∀ e ∈ es, Readable e
  | [], _ => List.forall_mem_nil _
  | _ :: _, h => by
    have hparts := Bool.and_eq_true_iff.mp h
    exact List.forall_mem_cons.mpr ⟨readable hparts.1, readableAll hparts.2⟩

end

/-- Two expressions are written in the same way only if they are the same. -/
theorem print_eq_iff {e e' : Expr} (he : e.isLexical = true) (he' : e'.isLexical = true) :
    e.print = e'.print ↔ e = e' := by
  refine ⟨fun h => ?_, congrArg print⟩
  refine ((readable he).told (Nat.zero_le 7) he' .nil .nil ?_).1
  rw [operand_of_le (Nat.zero_le _), operand_of_le (Nat.zero_le _), h]

/-- What a negation reaches over can be told: `not a == true and c()` is a connective, and with
parentheses behind its `not` it is a negation. -/
theorem print_not_and_iff :
    (logic .and (not (compare .equal (var "a") (boolean true))) (call none "c" [])).print =
        (not (logic .and (compare .equal (var "a") (boolean true)) (call none "c" []))).print ↔
      logic .and (not (compare .equal (var "a") (boolean true))) (call none "c" []) =
        not (logic .and (compare .equal (var "a") (boolean true)) (call none "c" [])) :=
  print_eq_iff (by decide) (by decide)

end Expr

end Offside
