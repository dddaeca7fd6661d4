import Offside.Proofs.Completeness
import Offside.Proofs.Lexemes
import Offside.Proofs.Nesting
import Offside.Proofs.Reread

/-!
# The grammar derives what is written

The lexemes of a program that can be written derive the program as it is read
(`derives_lexemes`), within as many levels as the written form opens, if every body that
should be read as one is there. What a phrase is derived from may have anything behind it, so
that the derivations of the parts are put together as they stand.

An expression is derived at every place where it needs no parentheses (`Expr.Derived`). An
open statement is derived together with the statement that it takes (`Stmt.Leads`), and so the
statements of a list from the last to the first.
-/

namespace Offside

open Grammar

theorem listed_separated {α : Type} {R : Phrase α} {g : α → List Lexeme} :
    ∀ {items : List α}, items ≠ [] → (∀ a ∈ items, ∀ K, R (g a ++ K) a K) →
      ∀ K, Listed R (separated (items.map g) ++ K) items K
  | [], hne, _, _ => absurd rfl hne
  | [a], _, h, K => .one (h a (by simp) K)
  | a :: b :: items, _, h, K => by
    have hrest := listed_separated (List.cons_ne_nil b items)
      (fun c hc => h c (List.mem_cons_of_mem a hc)) K
    have ha := h a (by simp) (⟨.comma, none⟩ :: (separated ((b :: items).map g) ++ K))
    simpa [separated] using Listed.more ha hrest

theorem listed_names {names : List String} (h : names ≠ []) (K : List Lexeme) :
    Listed Word (separated (names.map fun x => [nameLexeme x]) ++ K) names K :=
  listed_separated h (fun _ _ _ => .mk) K

/-- Where one more level is opened, there is a level to open. -/
theorem exists_room {a n : Nat} (h : a + 1 ≤ n) : ∃ m, n = m + 1 ∧ a ≤ m :=
  ⟨n - 1, by omega, by omega⟩

/-! ## Expressions -/

namespace Expr

theorem levels_of_needsParens_left {n k : Nat} {e : Expr} (h : Snug n k e)
    (hneeds : needsParens e.precedence k false = true) : e.levels ≤ n := by
  rcases h with h | ⟨h, -⟩
  · exact h
  · simp [needsParens] at hneeds
    omega

theorem levels_of_needsParens_right {n k : Nat} {e : Expr} (h : Snug n (k + 1) e)
    (hneeds : needsParens e.precedence k true = true) : e.levels ≤ n := by
  rcases h with h | ⟨h, -⟩
  · exact h
  · simp [needsParens] at hneeds
    omega

theorem le_precedence_of_left {k p : Nat} (h : needsParens p k false = false) : k ≤ p := by
  simpa [needsParens] using h

theorem lt_precedence_of_right {k p : Nat} (h : needsParens p k true = false) : k + 1 ≤ p := by
  simp [needsParens] at h
  omega

/-- Within `n` levels, the lexemes of the expression derive it wherever it binds tightly
enough. -/
structure Derived (n : Nat) (e : Expr) : Prop where
  sum : ∀ K, Sum (deeper n).expression (e.lexemes ++ K) e K
  term : 6 ≤ e.precedence → ∀ K, Term (deeper n).expression (e.lexemes ++ K) e K
  factor : 7 ≤ e.precedence → ∀ K, Factor (deeper n).expression (e.lexemes ++ K) e K

theorem Derived.of_factor {n : Nat} {e : Expr}
    (h : ∀ K, Factor (deeper n).expression (e.lexemes ++ K) e K) : Derived n e :=
  ⟨fun K => .first (.first (h K)), fun _ K => .first (h K), fun _ K => h K⟩

theorem expression_of_derived {n : Nat} {e : Expr}
    (he : ∀ {m}, e.innerLevels ≤ m → Derived m e) (hn : e.levels ≤ n) (K : List Lexeme) :
    (deeper n).expression (e.lexemes ++ K) e K := by
  obtain ⟨m, rfl, hm⟩ := exists_room hn
  exact (he hm).sum K

/-- An operand is derived in its parentheses, or without any where it needs none. -/
theorem reads_operand {n : Nat} {e : Expr} {R : Phrase Expr} {needed : Bool}
    (he : ∀ {m}, e.innerLevels ≤ m → Derived m e) (hparens : needed = true → e.levels ≤ n)
    (hfactor : ∀ {ls e rest}, Factor (deeper n).expression ls e rest → R ls e rest)
    (hbare : needed = false → ∀ K, R (e.lexemes ++ K) e K) (K : List Lexeme) :
    R (parenthesized needed e.lexemes ++ K) e K := by
  cases needed with
  | false => exact hbare rfl K
  | true =>
    have hinner := expression_of_derived he (hparens rfl) (⟨.rightParen, none⟩ :: K)
    simpa [parenthesized] using hfactor (Factor.parens hinner)

/-- A sum or a difference. -/
theorem derived_additive {n : Nat} {op : MathOp} {left right : Expr}
    (hop : MathOp.additive? op.kind = some op) (hcanonical : left.isCanonical = true)
    (hleft : ∀ {m}, left.innerLevels ≤ m → Derived m left)
    (hright : ∀ {m}, right.innerLevels ≤ m → Derived m right)
    (h : (math op left right).innerLevels ≤ n) : Derived n (math op left right) := by
  have hprec := precedence_additive hop left right
  rw [innerLevels_math, hprec] at h
  have hbare : needsParens left.precedence 5 false = false := by
    simpa [needsParens] using five_le_precedence hcanonical
  refine ⟨fun K => ?_, fun hlt => by omega, fun hlt => by omega⟩
  have hr := reads_operand (R := Term (deeper n).expression) hright
    (levels_of_needsParens_right h.2) .first
    (fun hneeds => (hright h.2.innerLevels_le).term (lt_precedence_of_right hneeds)) K
  have hl := (hleft h.1.innerLevels_le).sum
    (⟨op.kind, none⟩ :: (parenthesized (needsParens right.precedence 5 true) right.lexemes ++ K))
  simpa [lexemes, hprec, hbare, parenthesized, Grammar.Sum] using Chain.next hl hop hr

/-- A product, a quotient or a remainder. -/
theorem derived_multiplicative {n : Nat} {op : MathOp} {left right : Expr}
    (hop : MathOp.multiplicative? op.kind = some op)
    (hleft : ∀ {m}, left.innerLevels ≤ m → Derived m left)
    (hright : ∀ {m}, right.innerLevels ≤ m → Derived m right)
    (h : (math op left right).innerLevels ≤ n) : Derived n (math op left right) := by
  have hprec := precedence_multiplicative hop left right
  rw [innerLevels_math, hprec] at h
  have hterm : ∀ K, Term (deeper n).expression ((math op left right).lexemes ++ K)
      (math op left right) K := by
    intro K
    have hr := reads_operand (R := Factor (deeper n).expression) hright
      (levels_of_needsParens_right h.2) id
      (fun hneeds => (hright h.2.innerLevels_le).factor (lt_precedence_of_right hneeds)) K
    have hl := reads_operand (R := Term (deeper n).expression) hleft
      (levels_of_needsParens_left h.1) .first
      (fun hneeds => (hleft h.1.innerLevels_le).term (le_precedence_of_left hneeds))
      (⟨op.kind, none⟩ :: (parenthesized (needsParens right.precedence 6 true) right.lexemes ++ K))
    simpa [lexemes, hprec, Term] using Chain.next hl hop hr
  exact ⟨fun K => .first (hterm K), fun _ => hterm, fun hlt => by omega⟩

theorem derives_arguments {n : Nat} {es : List Expr}
    (h : ∀ e ∈ es, ∀ K, (deeper n).expression (e.lexemes ++ K) e K) (K : List Lexeme) :
    Arguments (deeper n).expression
      (separated (allLexemes es) ++ ⟨.rightParen, none⟩ :: K) es K := by
  rw [allLexemes_eq_map]
  rcases es with _ | ⟨e, es⟩
  · exact .none
  · exact .some (listed_separated (by simp) h _)

theorem derives_call {n : Nat} {c : Call}
    (h : ∀ e ∈ c.arguments, ∀ K, (deeper n).expression (e.lexemes ++ K) e K) (K : List Lexeme) :
    CallPhrase (deeper n).expression (c.toExpr.lexemes ++ K) c K := by
  obtain ⟨receiver, method, arguments⟩ := c
  have hargs := derives_arguments h K
  cases receiver with
  | none => simpa [Call.toExpr, lexemes] using CallPhrase.alone (v := some method) (w := none) hargs
  | some r =>
    simpa [Call.toExpr, lexemes] using
      CallPhrase.onReceiver (u := some r) (d := none) (v := some method) (w := none) hargs

mutual

theorem derived : ∀ {e : Expr} {n : Nat}, e.isCanonical = true → e.innerLevels ≤ n → Derived n e
  | number _, _, _, _ => .of_factor fun _ => .number
  | string _, _, _, _ => .of_factor fun _ => .string
  | character c, _, _, _ => .of_factor fun _ => .character (String.toList_singleton c)
  | var _, _, _, _ => .of_factor fun _ => .var .mk
  | call receiver method arguments, n, h, hn => by
    simp only [isCanonical, Bool.and_eq_true] at h
    exact .of_factor fun K => .call (derives_call (c := ⟨receiver, method, arguments⟩)
      (derivedAll h.2 hn) K)
  | new typeName arguments, n, h, hn => by
    simp only [isCanonical, Bool.and_eq_true] at h
    refine .of_factor fun K => ?_
    simpa [lexemes] using Factor.new (u := none) (v := some typeName) (w := none)
      (derives_arguments (derivedAll h.2 hn) K)
  | math op left right, n, h, hn => by
    simp only [isCanonical, Bool.and_eq_true] at h
    have hleft : ∀ {m}, left.innerLevels ≤ m → Derived m left := fun hm => derived h.1 hm
    have hright : ∀ {m}, right.innerLevels ≤ m → Derived m right := fun hm => derived h.2 hm
    cases op with
    | add => exact derived_additive rfl h.1 hleft hright hn
    | subtract => exact derived_additive rfl h.1 hleft hright hn
    | multiply => exact derived_multiplicative rfl hleft hright hn
    | divide => exact derived_multiplicative rfl hleft hright hn
    | modulo => exact derived_multiplicative rfl hleft hright hn

theorem derivedAll : ∀ {es : List Expr} {n : Nat}, allCanonical es = true →
    argumentLevels es ≤ n → ∀ e ∈ es, ∀ K, (deeper n).expression (e.lexemes ++ K) e K
  | [], _, _, _, _, hmem => by cases hmem
  | e :: rest, n, h, hn, e', hmem => by
    rw [allCanonical, Bool.and_eq_true] at h
    rw [argumentLevels, Nat.max_le] at hn
    rcases List.mem_cons.mp hmem with heq | hmem
    · exact heq ▸ expression_of_derived (fun hm => derived h.1 hm) hn.1
    · exact derivedAll h.2 hn.2 e' hmem

end

theorem derives_expression {n : Nat} {e : Expr} (h : e.isCanonical = true) (hn : e.levels ≤ n)
    (K : List Lexeme) : (deeper n).expression (e.lexemes ++ K) e K :=
  expression_of_derived (fun hm => derived h hm) hn K

theorem derives_condition {n : Nat} {c : Expr} (h : c.isCondition = true)
    (hn : c.conditionLevels ≤ n) (K : List Lexeme) :
    Condition (deeper n).expression (c.lexemes ++ K) c K := by
  cases c with
  | var x => exact .var (derives_expression (e := var x) h hn K)
  | call r m es => exact .call (derives_expression (e := call r m es) h hn K)
  | compare op left right =>
    simp only [isCondition, Bool.and_eq_true] at h
    rw [conditionLevels, Nat.max_le] at hn
    have hop : CompareOp.ofKind? op.kind = some op := by cases op <;> rfl
    simpa [lexemes] using
      Condition.compare (derives_expression h.1 hn.1 _) hop (derives_expression h.2 hn.2 K)
  | _ => cases h

end Expr

/-! ## Statements -/

namespace Stmt

/-- What can be read of the written statement with `L` behind it: the statement alone, or, if
it is open, the statement with the one that it takes from `L`. -/
inductive Leads (n : Nat) (s : Stmt) (L : List Lexeme) : Stmt → List Lexeme → Prop
  | closed : s.isOpen = false → Leads n s L s.reread L
  | taking {taken rest} : s.isOpen = true →
      Statement (deeper (n - s.holeDepth)) L taken rest → Leads n s L (fill taken s.reread) rest

/-- What can be read of the written `else` with `L` behind it. -/
inductive OtherwiseLeads (n : Nat) (o : Otherwise) (L : List Lexeme) :
    Otherwise → List Lexeme → Prop
  | closed : otherwiseOpen o = false → OtherwiseLeads n o L (rereadOtherwise o) L
  | taking {taken rest} : otherwiseOpen o = true →
      Statement (deeper (n - otherwiseDepth o)) L taken rest →
      OtherwiseLeads n o L (fillOtherwise taken (rereadOtherwise o)) rest

theorem leads_cond_iff {n : Nat} {c : Expr} {b : List Stmt} {o : Otherwise}
    {L rest : List Lexeme} {read : Stmt} : Leads n (cond c b o) L read rest ↔
      ∃ r, OtherwiseLeads n o L r rest ∧ read = cond c (rereadBody b) r := by
  constructor
  · rintro (h | ⟨h, hs⟩)
    · exact ⟨_, .closed h, rfl⟩
    · exact ⟨_, .taking h hs, rfl⟩
  · rintro ⟨r, h | ⟨h, hs⟩, rfl⟩
    · exact .closed h
    · exact .taking h hs

/-- A condition on the line of the `else` is one level deeper. -/
theorem otherwiseLeads_single_iff {n : Nat} {s : Stmt} (hs : s.isCond = true)
    {L rest : List Lexeme} {r : Otherwise} : OtherwiseLeads (n + 1) (.single s) L r rest ↔
      ∃ read, Leads n s L read rest ∧ r = .single read := by
  have hdepth : n + 1 - otherwiseDepth (.single s) = n - s.holeDepth := by
    rw [otherwiseDepth, hs, Bool.toNat_true]
    omega
  constructor
  · rintro (h | ⟨h, ht⟩)
    · exact ⟨_, .closed h, rfl⟩
    · exact ⟨_, .taking h (hdepth ▸ ht), rfl⟩
  · rintro ⟨t, h | ⟨h, ht⟩, rfl⟩
    · exact .closed h
    · exact .taking h (hdepth.symm ▸ ht)

theorem Leads.eq_of_closed {n : Nat} {s : Stmt} (hs : s.isOpen = false) {L rest : List Lexeme}
    {read : Stmt} (h : Leads n s L read rest) : read = s.reread ∧ rest = L := by
  cases h with
  | closed => exact ⟨rfl, rfl⟩
  | taking h => simp [hs] at h

theorem isOpen_of_not_isCond {s : Stmt} (h : s.isCond = false) : s.isOpen = false := by
  cases s with
  | cond => cases h
  | _ => rfl

theorem ofAssignment_of_not_isCall (targets : List String) {value : Expr}
    (h : value.isCall = false) : ofAssignment targets value = assign targets value := by
  cases value with
  | call => cases h
  | _ => rfl

/-- Behind an `else` at the end of its line stands any statement. -/
theorem derives_behind_else {D : Deeper} {ls L rest : List Lexeme} {a : Arm} {s : Stmt}
    {v w : Option String} (ha : Guarded D ls a (⟨.kwElse, v⟩ :: ⟨.newline, w⟩ :: L))
    (hs : Statement D L s rest) :
    Conditional D ls (cond a.condition a.body (.single s)) rest := by
  cases hs with
  | cond h => exact .elseLineIf ha .none .none h
  | plain h => exact .elseLine ha .none .none h

theorem ne_nil_of_areTargets {targets : List String} (h : areTargets targets = true) :
    targets ≠ [] := by
  rintro rfl
  cases h

theorem derives_assignment {n : Nat} {targets : List String} {value : Expr}
    (ht : areTargets targets = true) (hv : value.isCanonical = true) (hn : value.levels ≤ n)
    (L : List Lexeme) :
    Plain (deeper n) (targetLexemes targets ++ value.lexemes ++ [⟨.newline, none⟩] ++ L)
      (ofAssignment targets value) L := by
  have hnames := listed_names (ne_nil_of_areTargets ht)
    (⟨.assign, none⟩ :: (value.lexemes ++ ⟨.newline, none⟩ :: L))
  have hassign : Plain (deeper n) _ (ofAssignment targets value) L :=
    .assign hnames (Expr.derives_expression hv hn (⟨.newline, none⟩ :: L)) .newline
  simpa [targetLexemes] using hassign

/-- One line is derived with anything behind it. -/
theorem derives_simple {s : Stmt} {n : Nat} (hs : s.isSimple = true) (h : s.isCanonical = true)
    (hn : s.levels ≤ n) (L : List Lexeme) : Plain (deeper n) (s.lexemes ++ L) s L := by
  rcases s with ⟨targets, value⟩ | ⟨_ | targets, c⟩ | _ | _
  · simp only [isCanonical, Bool.and_eq_true, Bool.not_eq_true'] at h
    have hassign := derives_assignment h.1.1 h.1.2 hn L
    rw [ofAssignment_of_not_isCall targets h.2] at hassign
    exact hassign
  · simp only [isCanonical, Bool.and_eq_true, Call.toExpr, Expr.isCanonical] at h
    have hcall : Plain (deeper n) _ (call none c) L :=
      .call (Expr.derives_call (Expr.derivedAll h.2.2 hn) (⟨.newline, none⟩ :: L)) .newline
    simpa [lexemes] using hcall
  · simp only [isCanonical, Bool.and_eq_true, Option.all_some] at h
    exact derives_assignment h.1 h.2 hn L
  · cases hs
  · cases hs

theorem lexemes_of_isCond {s : Stmt} (h : s.isCond = true) :
    ∃ ls, s.lexemes = ⟨.kwIf, none⟩ :: ls := by
  cases s with
  | cond => exact ⟨_, rfl⟩
  | _ => cases h

theorem conditional_of_statement {D : Deeper} {ls rest : List Lexeme} {v : Option String}
    {s : Stmt} (h : Statement D (⟨.kwIf, v⟩ :: ls) s rest) : Conditional D ls s rest := by
  cases h with
  | cond h => exact h
  | plain h => rcases Parse.plain_head h with hk | hk <;> cases hk

theorem bodyLexemes_ne_nil : ∀ {body : List Stmt}, body ≠ [] → bodyLexemes body ≠ []
  | [], h => absurd rfl h
  | s :: rest, _ => by
    have hs : s.lexemes ≠ [] := by cases s <;> simp [lexemes]
    simp [bodyLexemes, hs]

/-- What is derived from the statements of a list, at the end of their block: the first of
them, with less room if it stands under conditions on lines of an `else`, and behind it the
others, as statements or as items that are statements. -/
def LinesLead (n above : Nat) (body : List Stmt) (K : List Lexeme) : Prop :=
  ∃ t ts mid, rereadBody body = t :: ts ∧
    Statement (deeper (n - above)) (bodyLexemes body ++ ⟨.dedent, none⟩ :: K) t mid ∧
    ∀ {α : Type} {R : Phrase α} {f : Stmt → α},
      (∀ {ls t rest}, Statement (deeper n) ls t rest → R ls (f t) rest) →
      Lines R mid (ts.map f) K

theorem LinesLead.block {n : Nat} {body : List Stmt} {K : List Lexeme} (hne : body ≠ [])
    (h : LinesLead n 0 body K) :
    (deeper (n + 1)).body (indented (bodyLexemes body) ++ K) (rereadBody body) K := by
  obtain ⟨t, ts, mid, hread, ht, hlines⟩ := h
  have hts : Lines (Statement (deeper n)) mid ts K := by simpa using hlines (f := id) id
  rw [hread, indented_append (bodyLexemes_ne_nil hne)]
  exact .mk .none (.next .none ht hts)

/-- A body is derived from the lines of its statements. -/
theorem derives_body {n : Nat} {body : List Stmt} (hne : body ≠ [])
    (h : ∀ m K, linesLevels 0 body ≤ m → LinesLead m 0 body K) (hn : linesLevels 0 body + 1 ≤ n)
    (K : List Lexeme) : (deeper n).body (indented (bodyLexemes body) ++ K) (rereadBody body) K := by
  obtain ⟨m, rfl, hm⟩ := exists_room hn
  exact (h m K hm).block hne

mutual

theorem derives_statement : ∀ {s : Stmt} {n : Nat}, s.isCanonical = true → s.isSolid = true →
    s.textLevels ≤ n → ∀ {L read rest}, Leads n s L read rest →
      Statement (deeper n) (s.lexemes ++ L) read rest
  | assign targets value, n, h, _, hn, L, read, rest, hL => by
    obtain ⟨rfl, rfl⟩ := hL.eq_of_closed rfl
    exact .plain (derives_simple rfl h hn rest)
  | call targets c, n, h, _, hn, L, read, rest, hL => by
    obtain ⟨rfl, rfl⟩ := hL.eq_of_closed rfl
    exact .plain (derives_simple rfl h hn rest)
  | loop v c body, n, h, hsolid, hn, L, read, rest, hL => by
    simp only [isCanonical, Bool.and_eq_true] at h
    simp only [isSolid, Bool.and_eq_true, Bool.not_eq_true', List.isEmpty_eq_false_iff] at hsolid
    rw [textLevels, Nat.max_le] at hn
    obtain ⟨rfl, rfl⟩ := hL.eq_of_closed rfl
    have hbody := derives_body hsolid.1
      (fun _ K hm => derives_lines hsolid.1 h.2 hsolid.2 hm K) hn.2 rest
    have hcondition := Expr.derives_condition h.1.2 hn.1
      (⟨.newline, none⟩ :: (indented (bodyLexemes body) ++ rest))
    cases v with
    | none =>
      exact .plain (by simpa [lexemes, reread] using Plain.loop (v := none) hcondition hbody)
    | some x =>
      exact .plain (by
        simpa [lexemes, reread] using
          Plain.loopIn (v := none) (u := none) (x := x) .mk hcondition hbody)
  | cond c body o, n, h, hsolid, hn, L, read, rest, hL => by
    simp only [isCanonical, Bool.and_eq_true] at h
    simp only [isSolid, Bool.and_eq_true, Bool.not_eq_true', List.isEmpty_eq_false_iff] at hsolid
    rw [textLevels, Nat.max_le, Nat.max_le] at hn
    obtain ⟨r, hr, rfl⟩ := leads_cond_iff.mp hL
    have hbody := derives_body hsolid.1.1
      (fun _ K hm => derives_lines hsolid.1.1 h.1.2 hsolid.1.2 hm K) hn.2.1
      (otherwiseLexemes o ++ L)
    have hcondition := Expr.derives_condition h.1.1 hn.1
      (⟨.newline, none⟩ :: (indented (bodyLexemes body) ++ (otherwiseLexemes o ++ L)))
    have hcond := derives_otherwise h.2 hsolid.2 hn.2.2 hr (.mk hcondition hbody)
    simpa [lexemes] using Statement.cond (v := none) hcond

theorem derives_otherwise : ∀ {o : Otherwise} {n : Nat}, otherwiseCanonical o = true →
    otherwiseSolid o = true → otherwiseTextLevels o ≤ n → ∀ {L r rest},
      OtherwiseLeads n o L r rest → ∀ {ls a}, Guarded (deeper n) ls a (otherwiseLexemes o ++ L) →
        Conditional (deeper n) ls (cond a.condition a.body r) rest
  | .nothing, n, _, _, _, L, r, rest, hr, ls, a, ha => by
    cases hr with
    | closed => exact .alone ha .none
    | taking h => cases h
  | .single s, n, h, hsolid, hn, L, r, rest, hr, ls, a, ha => by
    rw [otherwiseTextLevels] at hn
    cases hcond : s.isCond with
    | true =>
      rw [hcond, Bool.toNat_true] at hn
      obtain ⟨m, rfl, hm⟩ := exists_room hn
      obtain ⟨read, hread, rfl⟩ := (otherwiseLeads_single_iff hcond).mp hr
      obtain ⟨behind, hbehind⟩ := lexemes_of_isCond hcond
      have hs := derives_statement h hsolid hm hread
      rw [hbehind] at hs
      have ha' : Guarded (deeper (m + 1)) ls a
          (⟨.kwElse, none⟩ :: ⟨.kwIf, none⟩ :: (behind ++ L)) := by
        simpa [otherwiseLexemes, hcond, hbehind] using ha
      exact .elseIf ha' .none (conditional_of_statement hs)
    | false =>
      have hclosed := isOpen_of_not_isCond hcond
      cases hr with
      | taking h => simp [otherwiseOpen, hclosed] at h
      | closed =>
        have hs := derives_statement h hsolid (by simpa [hcond] using hn) (.closed hclosed (L := L))
        have ha' : Guarded (deeper n) ls a
            (⟨.kwElse, none⟩ :: ⟨.newline, none⟩ :: (s.lexemes ++ L)) := by
          simpa [otherwiseLexemes, hcond] using ha
        exact derives_behind_else ha' hs
  | .block body, n, h, hsolid, hn, L, r, rest, hr, ls, a, ha => by
    rw [otherwiseTextLevels] at hn
    rcases body with _ | ⟨s, body⟩
    · cases hr with
      | closed h => cases h
      | taking _ hs => exact derives_behind_else ha hs
    · cases hr with
      | taking h => cases h
      | closed =>
        have hbody := derives_body (by simp)
          (fun _ K hm => derives_lines (by simp) h hsolid hm K) hn L
        exact .elseBlock (by simpa [otherwiseLexemes] using ha) .none .none hbody

theorem derives_lines : ∀ {body : List Stmt} {n above : Nat}, body ≠ [] →
    allCanonical body = true → solidBody body = true → linesLevels above body ≤ n → ∀ K,
      LinesLead n above body K
  | [], _, _, hne, _, _, _, _ => absurd rfl hne
  | s :: rest, n, above, _, h, hsolid, hn, K => by
    rw [allCanonical, Bool.and_eq_true] at h
    simp only [solidBody, Bool.and_eq_true] at hsolid
    cases hopen : s.isOpen with
    | false =>
      rw [linesLevels_cons_closed hopen, Nat.max_le] at hn
      have hs := derives_statement h.1 hsolid.1.1 (Nat.le_sub_of_add_le' hn.1)
        (.closed hopen (L := bodyLexemes rest ++ ⟨.dedent, none⟩ :: K))
      rw [LinesLead, rereadBody_cons_closed hopen, bodyLexemes, List.append_assoc]
      refine ⟨_, _, _, rfl, hs, fun hR => ?_⟩
      rcases rest with _ | ⟨t, rest⟩
      · exact .done .none
      · obtain ⟨u, us, mid, hread, hu, hlines⟩ :=
          derives_lines (List.cons_ne_nil t rest) h.2 hsolid.2 hn.2 K
        rw [hread]
        exact .next .none (hR hu) (hlines hR)
    | true =>
      rw [linesLevels_cons_open hopen, Nat.max_le] at hn
      have hne : rest ≠ [] := by simpa [hopen] using hsolid.1.2
      obtain ⟨u, us, mid, hread, hu, hlines⟩ := derives_lines hne h.2 hsolid.2 hn.2 K
      rw [← Nat.sub_sub] at hu
      have hs := derives_statement h.1 hsolid.1.1 (Nat.le_sub_of_add_le' hn.1) (.taking hopen hu)
      rw [LinesLead, rereadBody_cons_open hopen hread, bodyLexemes, List.append_assoc]
      exact ⟨_, _, _, rfl, hs, hlines⟩

end

end Stmt

/-! ## Lines of declarations -/

theorem lines_flatMap {α β : Type} {R : Phrase α} {g : β → List Lexeme} {f : β → α}
    {L rest : List Lexeme} {as : List α} (hL : Lines R L as rest) :
    ∀ {items : List β}, (∀ b ∈ items, ∀ K, R (g b ++ K) (f b) K) →
      Lines R (items.flatMap g ++ L) (items.map f ++ as) rest
  | [], _ => hL
  | b :: items, h => by
    have hrest := lines_flatMap hL fun c (hc : c ∈ items) => h c (List.mem_cons_of_mem b hc)
    simpa using Lines.next .none (h b (by simp) _) hrest

theorem derives_varDecl {n : Nat} {d : VarDecl} (h : d.isCanonical = true) (hn : d.levels ≤ n)
    (K : List Lexeme) : VarDecls (deeper n).expression (d.lineLexemes ++ K) [d] K := by
  obtain ⟨typeName, name, initializer⟩ := d
  simp only [VarDecl.isCanonical, Bool.and_eq_true] at h
  cases initializer with
  | none => exact .mk (.one (.bare .mk)) .newline
  | some e =>
    have he := Expr.derives_expression h.2 hn (⟨.newline, none⟩ :: K)
    have hvalue : NamedValue (deeper n).expression typeName _ _ _ :=
      .valued (.mk (v := some name)) (v := none) he
    simpa [VarDecl.lineLexemes, VarDecl.lexemes] using
      VarDecls.mk (v := some typeName) (.one hvalue) .newline

theorem derives_parameters {ds : List VarDecl} (h : ∀ d ∈ ds, d.isParameter = true)
    (K : List Lexeme) : ParameterList (parameterLexemes ds ++ K) ds K := by
  rcases ds with _ | ⟨d, ds⟩
  · exact .none
  · have hlist := listed_separated (R := Parameter) (g := VarDecl.lexemes) (List.cons_ne_nil d ds)
      (fun a ha K => by
        obtain ⟨typeName, name, initializer⟩ := a
        have hparameter := h _ ha
        simp only [VarDecl.isParameter, Bool.and_eq_true, Option.isNone_iff_eq_none] at hparameter
        rw [hparameter.2]
        exact .mk) (⟨.rightParen, none⟩ :: K)
    simpa [parameterLexemes] using ParameterList.some (v := none) hlist

theorem derives_returned (r : ReturnDecl) (K : List Lexeme) : Returned (r.lexemes ++ K) r K := by
  obtain ⟨typeName, name⟩ := r
  cases name with
  | none => exact .bare
  | some => exact .named

theorem derives_header {h : MethodHeader} (hcanonical : h.isCanonical = true)
    (K : List Lexeme) : Header (h.lexemes ++ K) h K := by
  obtain ⟨name, parameters, returns⟩ := h
  simp only [MethodHeader.isCanonical, Bool.and_eq_true, List.all_eq_true] at hcanonical
  have hparameters := derives_parameters hcanonical.1.2
  rcases returns with _ | ⟨r, rs⟩
  · simpa [MethodHeader.lexemes] using
      Header.bare (.mk (v := some name)) (hparameters (⟨.newline, none⟩ :: K)) .newline
  · have hreturns := listed_separated (List.cons_ne_nil r rs) (fun r _ K => derives_returned r K)
      (⟨.newline, none⟩ :: K)
    simpa [MethodHeader.lexemes] using
      Header.returning (.mk (v := some name)) (hparameters _) (v := none) hreturns .newline

/-! ## Methods and classes -/

theorem MethodBody.ofItems_map (ds : List VarDecl) (ss : List Stmt) :
    MethodBody.ofItems (ds.map (fun d => .locals [d]) ++ ss.map .statement) = ⟨ds, ss⟩ := by
  simp [ofItems, BodyItem.declared, BodyItem.statement?, List.filterMap_map, List.flatMap_map,
    Function.comp_def]

theorem Class.ofItems_map (name : String) (interfaces : List String) (ds : List VarDecl)
    (ks : List Constructor) (ms : List Method) :
    Class.ofItems name interfaces
        (ds.map (fun d => .members [d]) ++ (ks.map .constructor ++ ms.map .method)) =
      ⟨name, interfaces, ks, ms, ds⟩ := by
  have hnone : ∀ {α β : Type} (as : List α), as.filterMap (fun _ => (none : Option β)) = [] :=
    fun as => List.filterMap_eq_nil_iff.mpr fun _ _ => rfl
  simp [ofItems, hnone, ClassItem.declared, ClassItem.constructor?, ClassItem.method?,
    List.filterMap_map, List.flatMap_map, Function.comp_def]

theorem Program.ofDeclarations_map (cs : List Class) (is : List Interface) :
    Program.ofDeclarations (is.map .interfaceDecl ++ cs.map .classDecl) = ⟨cs, is⟩ := by
  simp [ofDeclarations, Declaration.class?, Declaration.interface?, List.filterMap_map,
    Function.comp_def]

theorem MethodBody.lexemes_ne_nil {b : MethodBody} : b.lexemes ≠ [] ↔ b.isNonempty = true := by
  rcases b with ⟨_ | ⟨d, ds⟩, _ | ⟨s, ss⟩⟩
  · simp [lexemes, isNonempty, Stmt.bodyLexemes]
  · simpa [lexemes, isNonempty] using Stmt.bodyLexemes_ne_nil (List.cons_ne_nil s ss)
  · simp [lexemes, isNonempty, VarDecl.lineLexemes]
  · simp [lexemes, isNonempty, VarDecl.lineLexemes]

theorem derives_methodBody {n : Nat} {b : MethodBody} (h : b.isCanonical = true)
    (hsolid : b.isSolid = true) (hn : b.textLevels ≤ n) (K : List Lexeme) :
    ∃ items, MethodBody.ofItems items = b.reread ∧
      (deeper n).methodBody (indented b.lexemes ++ K) items K := by
  simp only [MethodBody.isCanonical, Bool.and_eq_true, List.all_eq_true] at h
  rw [MethodBody.isSolid, Bool.and_eq_true] at hsolid
  obtain ⟨m, rfl, hm⟩ := exists_room hn
  have hn' := Nat.max_le.mp hm
  have hstatements : Lines (Item (deeper m)) (Stmt.bodyLexemes b.statements ++ ⟨.dedent, none⟩ :: K)
      ((Stmt.rereadBody b.statements).map .statement) K := by
    cases hb : b.statements with
    | nil => exact .done .none
    | cons s ss =>
      rw [hb] at h hsolid hn'
      obtain ⟨t, ts, mid, hread, ht, hlines⟩ :=
        Stmt.derives_lines (List.cons_ne_nil s ss) h.2 hsolid.2 hn'.2 K
      rw [hread]
      exact .next .none (.statement ht) (hlines .statement)
  have hitems := lines_flatMap hstatements fun d hd K =>
    .locals (derives_varDecl (h.1 d hd) (largest_le.mp hn'.1 d hd) K)
  refine ⟨_, MethodBody.ofItems_map b.locals (Stmt.rereadBody b.statements), ?_⟩
  rw [indented_append (MethodBody.lexemes_ne_nil.mpr hsolid.1), MethodBody.lexemes,
    List.append_assoc]
  exact .mk .none hitems

theorem derives_constructor {n : Nat} {c : Constructor} (h : c.isCanonical = true)
    (hsolid : c.body.isSolid = true) (hn : c.body.textLevels ≤ n) (K : List Lexeme) :
    ClassPart (deeper n) (c.lexemes ++ K) (.constructor c.reread) K := by
  simp only [Constructor.isCanonical, Bool.and_eq_true, List.all_eq_true] at h
  obtain ⟨items, hitems, hbody⟩ := derives_methodBody h.2 hsolid hn K
  rw [Constructor.reread, ← hitems]
  have hparameters := derives_parameters h.1 (⟨.newline, none⟩ :: (indented c.body.lexemes ++ K))
  simpa [Constructor.lexemes] using ClassPart.constructor (v := none) hparameters .none hbody

theorem derives_mark (kind : Kind) (marked : Bool) {K : List Lexeme} :
    Mark kind ((if marked then [⟨kind, none⟩] else []) ++ K) marked K := by
  cases marked with
  | false => exact .absent
  | true => exact .present

theorem derives_method {n : Nat} {m : Method} (h : m.isCanonical = true)
    (hsolid : m.body.isSolid = true) (hn : m.body.textLevels ≤ n) (K : List Lexeme) :
    ClassPart (deeper n) (m.lexemes ++ K) (.method m.reread) K := by
  rw [Method.isCanonical, Bool.and_eq_true] at h
  obtain ⟨items, hitems, hbody⟩ := derives_methodBody h.2 hsolid hn K
  rw [Method.reread, ← hitems]
  have hheader := derives_header h.1 (indented m.body.lexemes ++ K)
  have hmethod := ClassPart.method (derives_mark .kwPrivate m.isPrivate)
    (derives_mark .kwShared m.isShared) hheader hbody
  simpa [Method.lexemes] using hmethod

theorem Class.partLexemes_ne_nil {c : Class} : c.partLexemes ≠ [] ↔ c.isNonempty = true := by
  rcases c with ⟨name, interfaces, _ | ⟨k, ks⟩, _ | ⟨m, ms⟩, _ | ⟨d, ds⟩⟩ <;>
    simp [partLexemes, isNonempty, VarDecl.lineLexemes, Constructor.lexemes, Method.lexemes,
      MethodHeader.lexemes]

theorem derives_parts {n : Nat} {c : Class} (h : c.isCanonical = true)
    (hsolid : c.isSolid = true) (hn : c.textLevels ≤ n) (K : List Lexeme) :
    ∃ items, Class.ofItems c.name c.interfaces items = c.reread ∧
      Block (ClassPart (deeper n)) (indented c.partLexemes ++ K) items K := by
  simp only [Class.isCanonical, Bool.and_eq_true, List.all_eq_true] at h
  simp only [Class.isSolid, Bool.and_eq_true, List.all_eq_true] at hsolid
  simp only [Class.textLevels, Nat.max_le, largest_le] at hn
  have hend : Lines (ClassPart (deeper n)) (⟨.dedent, none⟩ :: K) [] K := .done .none
  have hmethods := lines_flatMap hend fun m hm K =>
    derives_method (h.1.2 m hm) (hsolid.2 m hm) (hn.2.2 m hm) K
  have hconstructors := lines_flatMap hmethods fun k hk K =>
    derives_constructor (h.1.1.2 k hk) (hsolid.1.2 k hk) (hn.2.1 k hk) K
  have hparts := lines_flatMap hconstructors fun d hd K =>
    .members (derives_varDecl (h.2 d hd) (hn.1 d hd) K)
  have hitems := Class.ofItems_map c.name c.interfaces c.members
    (c.constructors.map Constructor.reread) (c.methods.map Method.reread)
  rw [List.map_map, List.map_map] at hitems
  rw [indented_append (Class.partLexemes_ne_nil.mpr hsolid.1.1), Class.partLexemes,
    List.append_assoc, List.append_assoc]
  exact ⟨_, hitems, .mk .none (by simpa [Function.comp_def] using hparts)⟩

theorem derives_implemented (names : List String) (K : List Lexeme) :
    Implemented ((if names.isEmpty then []
      else ⟨.kwImplements, none⟩ :: separated (names.map fun x => [nameLexeme x])) ++ K)
      names K := by
  cases names with
  | nil => exact .none
  | cons x xs => exact .some (listed_names (List.cons_ne_nil x xs) K)

/-- A class is derived behind its keyword. -/
theorem derives_class {n : Nat} {c : Class} (h : c.isCanonical = true)
    (hsolid : c.isSolid = true) (hn : c.textLevels ≤ n) (K : List Lexeme) :
    ∃ ls, c.lexemes ++ K = ⟨.kwClass, none⟩ :: ls ∧ ClassDecl (deeper n) ls c.reread K := by
  obtain ⟨items, hitems, hparts⟩ := derives_parts h hsolid hn K
  have himplemented := derives_implemented c.interfaces
    (⟨.newline, none⟩ :: (indented c.partLexemes ++ K))
  rw [← hitems]
  exact ⟨_, by simp [Class.lexemes], .mk (.mk (v := some c.name)) himplemented hparts⟩

/-- An interface is derived behind its keyword. -/
theorem derives_interface {i : Interface} (h : i.isCanonical = true) (hne : i.methods ≠ [])
    (K : List Lexeme) :
    ∃ ls, i.lexemes ++ K = ⟨.kwInterface, none⟩ :: ls ∧ InterfaceDecl ls i K := by
  simp only [Interface.isCanonical, Bool.and_eq_true, List.all_eq_true] at h
  have hend : Lines Header (⟨.dedent, none⟩ :: K) [] K := .done .none
  have hheaders := lines_flatMap hend fun m hm K => derives_header (h.2 m hm) K
  simp only [List.append_nil, List.map_id_fun', id_eq] at hheaders
  have hlines : i.methods.flatMap MethodHeader.lexemes ≠ [] := by
    obtain ⟨m, ms, hcons⟩ := List.exists_cons_of_ne_nil hne
    simp [hcons, MethodHeader.lexemes]
  have hblock : Block Header (indented (i.methods.flatMap MethodHeader.lexemes) ++ K)
      i.methods K := by
    rw [indented_append hlines]
    exact .mk .none hheaders
  exact ⟨_, by simp [Interface.lexemes], .mk (.mk (v := some i.name)) (v := none) hblock⟩

/-! ## Programs -/

theorem declarations_flatMap {D : Deeper} {α : Type} {g : α → List Lexeme} {f : α → Declaration}
    {L : List Lexeme} {ds : List Declaration} (hL : Declarations D L ds) :
    ∀ {items : List α},
      (∀ a ∈ items, ∀ {K ds}, Declarations D K ds → Declarations D (g a ++ K) (f a :: ds)) →
      Declarations D (items.flatMap g ++ L) (items.map f ++ ds)
  | [], _ => hL
  | a :: items, h => by
    have hrest := declarations_flatMap hL fun b (hb : b ∈ items) =>
      h b (List.mem_cons_of_mem a hb)
    simpa using h a (by simp) hrest

/-- The lexemes of a written program derive the program as it is read. -/
theorem derives_lexemes {n : Nat} {p : Program} (h : p.isCanonical = true)
    (hsolid : p.isSolid = true) (hn : p.textLevels ≤ n) : Derives n p.lexemes p.reread := by
  simp only [Program.isCanonical, Bool.and_eq_true, List.all_eq_true] at h
  simp only [Program.isSolid, Bool.and_eq_true, List.all_eq_true, Bool.not_eq_true',
    List.isEmpty_eq_false_iff] at hsolid
  rw [Program.textLevels, largest_le] at hn
  have hend : Declarations (deeper n) [] [] := .done .none
  have hclasses := declarations_flatMap hend (g := Class.lexemes)
    (f := fun c => .classDecl c.reread) fun c (hc : c ∈ p.classes) K ds hds => by
      obtain ⟨ls, hls, hclass⟩ := derives_class (h.1 c hc) (hsolid.1 c hc) (hn c hc) K
      exact hls ▸ .classDecl .none hclass hds
  have hinterfaces := declarations_flatMap hclasses (g := Interface.lexemes)
    (f := .interfaceDecl) fun i (hi : i ∈ p.interfaces) K ds hds => by
      obtain ⟨ls, hls, hinterface⟩ := derives_interface (h.2 i hi) (hsolid.2 i hi) K
      exact hls ▸ .interfaceDecl .none hinterface hds
  refine ⟨_, by simpa [Program.lexemes] using hinterfaces, ?_⟩
  have hprogram := Program.ofDeclarations_map (p.classes.map Class.reread) p.interfaces
  rw [List.map_map] at hprogram
  exact hprogram.symm

end Offside
