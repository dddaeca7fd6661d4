import Offside.Proofs.Written

/-!
# What is written is read in one way

Whatever the lexemes of a program that can be written derive, it is the program as it is
read, and the derivation needs the levels of the written form and something to read in every
body that should be one (`reread_of_derives`). With `derives_lexemes` this says exactly when a
written program is read, and as what.

Where nothing nests, the parser decides: it reads the one thing that is written. Bodies and
statements are taken apart along the tree. An open statement reads what stands behind it
(`Stmt.Leads`), so the statements of a list are taken apart from the first to the last, and
the first of them may stand under conditions on lines of an `else` that are not closed yet.
-/

namespace Offside

open Grammar Parse

/-! ## Where nothing goes on -/

/-- What stands here is no line end and opens no deeper line. -/
def Fresh (ls : List Lexeme) : Prop :=
  headKind? ls ≠ some .newline ∧ headKind? ls ≠ some .indent

theorem fresh_dedent (K : List Lexeme) : Fresh (⟨.dedent, none⟩ :: K) := by
  simp [Fresh, headKind?]

theorem newlines_eq {ls rest : List Lexeme} (h : Newlines ls rest)
    (hls : headKind? ls ≠ some .newline) : rest = ls := by
  cases h with
  | none => rfl
  | next => exact absurd rfl hls

theorem Fresh.newlines {ls rest : List Lexeme} (h : Fresh ls) (hn : Newlines ls rest) :
    rest = ls :=
  newlines_eq hn h.1

theorem Fresh.not_block {α : Type} {R : Phrase α} {ls rest : List Lexeme} {as : List α}
    (h : Fresh ls) : ¬Block R ls as rest := by
  rintro ⟨hn, -⟩
  cases h.newlines hn
  exact h.2 rfl

theorem Fresh.not_body {n : Nat} {ls rest : List Lexeme} {b : List Stmt} (h : Fresh ls) :
    ¬(deeper n).body ls b rest := by
  cases n with
  | zero => exact id
  | succ n => exact h.not_block

/-- A block that is read from written lines holds them up to its end. -/
theorem block_indented {α : Type} {R : Phrase α} {lines K rest : List Lexeme} {as : List α}
    (hK : Fresh K) (h : Block R (indented lines ++ K) as rest) :
    lines ≠ [] ∧ Lines R (lines ++ ⟨.dedent, none⟩ :: K) as rest := by
  rcases lines with _ | ⟨l, lines⟩
  · exact absurd h hK.not_block
  · refine ⟨List.cons_ne_nil l lines, ?_⟩
    rw [indented_append (List.cons_ne_nil l lines)] at h
    obtain ⟨hn, hlines⟩ := h
    cases newlines_eq hn (by simp [headKind?])
    exact hlines

theorem lines_end {α : Type} {R : Phrase α} (hstart : StartsLine R) {K rest : List Lexeme}
    {as : List α} (h : Lines R (⟨.dedent, none⟩ :: K) as rest) : as = [] ∧ rest = K := by
  cases h with
  | done hn =>
    cases newlines_eq hn (by simp [headKind?])
    exact ⟨rfl, rfl⟩
  | next hn ha _ =>
    cases newlines_eq hn (by simp [headKind?])
    exact absurd rfl (hstart ha .dedent (by simp))

theorem indented_head {lines K : List Lexeme} (hK : Fresh K) :
    headKind? (indented lines ++ K) ≠ some .newline := by
  rcases lines with _ | ⟨l, lines⟩
  · exact hK.1
  · simp [indented, headKind?]

theorem not_noElse {v : Option String} {ls : List Lexeme} : ¬NoElse (⟨.kwElse, v⟩ :: ls) :=
  fun h => h rfl

/-! ## What does not nest -/

theorem condition_unique {n : Nat} {c c' : Expr} {K rest : List Lexeme} {v : Option String}
    (hc : c.isCondition = true)
    (h : Condition (deeper n).expression (c.lexemes ++ ⟨.newline, none⟩ :: K) c'
      (⟨.newline, v⟩ :: rest)) : c' = c ∧ rest = K ∧ c.conditionLevels ≤ n := by
  have hreads := nested_reads (max n c.conditionLevels)
  have hwritten := Expr.derives_condition hc (Nat.le_max_right n _) (⟨.newline, none⟩ :: K)
  have hread := condition_mono (deeper_mono (Nat.le_max_left n c.conditionLevels)).expression h
  obtain ⟨rfl, heq⟩ :=
    (takes_header_condition hreads hread).unique (takes_header_condition hreads hwritten)
  exact ⟨rfl, (List.cons.inj heq).2, condition_levels (expression_levels n) trivial h⟩

theorem varDecl_unique {n : Nat} {d : VarDecl} {ds : List VarDecl} {K rest : List Lexeme}
    (hd : d.isCanonical = true) (h : VarDecls (deeper n).expression (d.lineLexemes ++ K) ds rest) :
    ds = [d] ∧ rest = K ∧ d.levels ≤ n := by
  have hreads := nested_reads (max n d.levels)
  have hwritten := derives_varDecl hd (Nat.le_max_right n d.levels) K
  have hread := varDecls_mono (deeper_mono (Nat.le_max_left n d.levels)).expression h
  obtain ⟨rfl, rfl⟩ := (takes_varDecls hreads hread).unique (takes_varDecls hreads hwritten)
  have hlevels := varDecls_levels (expression_levels n) (deeper_consumes n).expression trivial h
  exact ⟨rfl, rfl, hlevels d (by simp)⟩

theorem header_unique {hd hd' : MethodHeader} {K rest : List Lexeme}
    (hcanonical : hd.isCanonical = true) (h : Header (hd.lexemes ++ K) hd' rest) :
    hd' = hd ∧ rest = K :=
  (takes_header h).unique (takes_header (derives_header hcanonical K))

namespace Stmt

theorem simple_unique {n : Nat} {s s' : Stmt} {L rest : List Lexeme} (hs : s.isSimple = true)
    (h : s.isCanonical = true) (hread : Statement (deeper n) (s.lexemes ++ L) s' rest) :
    s' = s ∧ rest = L ∧ s.levels ≤ n := by
  have hwritten := derives_simple hs h (Nat.le_max_right n s.levels) L
  generalize hls : s.lexemes ++ L = ls at hread hwritten
  cases hread with
  | cond => rcases plain_head hwritten with hk | hk <;> cases hk
  | plain hplain =>
    have hreads := nested_reads (max n s.levels)
    have hmono := plain_mono (deeper_mono (Nat.le_max_left n s.levels)) hplain
    obtain ⟨rfl, rfl⟩ := (takes_plain hreads hmono).unique (takes_plain hreads hwritten)
    exact ⟨rfl, rfl, simple_levels (expression_levels n) (deeper_consumes n).expression hplain hs⟩

/-- How a written statement starts. -/
theorem lexemes_start {s : Stmt} (h : s.isCanonical = true) (L : List Lexeme) :
    starts [.word, .word] (s.lexemes ++ L) = false ∧
      ∃ k ∈ [Kind.kwIf, .kwLoop, .word], headKind? (s.lexemes ++ L) = some k := by
  cases hs : s.isSimple with
  | true =>
    have hread : Statement (deeper s.levels) (s.lexemes ++ L) s L :=
      .plain (derives_simple hs h (Nat.le_refl _) L)
    exact ⟨statement_not_locals hread, statement_head hread⟩
  | false =>
    rcases s with _ | _ | _ | _
    · cases hs
    · cases hs
    · simp [lexemes, headKind?, starts]
    · simp [lexemes, headKind?, starts]

theorem fresh_lexemes {s : Stmt} (h : s.isCanonical = true) (L : List Lexeme) :
    Fresh (s.lexemes ++ L) := by
  obtain ⟨-, k, hk, hhead⟩ := lexemes_start h L
  rw [Fresh, hhead]
  constructor <;> (rintro ⟨⟩; simp at hk)

/-! ## Bodies -/

theorem bodyLexemes_start {body : List Stmt} (h : allCanonical body = true) (K : List Lexeme) :
    Fresh (bodyLexemes body ++ ⟨.dedent, none⟩ :: K) ∧
      headKind? (bodyLexemes body ++ ⟨.dedent, none⟩ :: K) ≠ some .kwElse := by
  rcases body with _ | ⟨s, body⟩
  · simp [Fresh, bodyLexemes, headKind?]
  · rw [allCanonical, Bool.and_eq_true] at h
    rw [bodyLexemes, List.append_assoc]
    refine ⟨fresh_lexemes h.1 _, ?_⟩
    obtain ⟨-, k, hk, hhead⟩ := lexemes_start h.1 (bodyLexemes body ++ ⟨.dedent, none⟩ :: K)
    rw [hhead]
    rintro ⟨⟩
    simp at hk

/-- All that is derived from the statements of a list, at the end of their block, is the
statements as they are read: `f s` where the items are more than statements. The first of
them is given apart, as it may have less room. -/
def LinesForced (n above : Nat) (body : List Stmt) (K : List Lexeme) : Prop :=
  ∀ {α : Type} {R : Phrase α} {f : Stmt → α} {t mid as rest}, StartsLine R →
    (∀ {ls a rest}, R ls a rest → starts [.word, .word] ls = false →
      ∃ s, a = f s ∧ Statement (deeper n) ls s rest) →
    Statement (deeper (n - above)) (bodyLexemes body ++ ⟨.dedent, none⟩ :: K) t mid →
    Lines R mid as rest →
    solidBody body = true ∧ linesLevels above body ≤ n ∧
      ∃ ts, rereadBody body = t :: ts ∧ as = ts.map f ∧ rest = K

theorem lines_unique {n : Nat} {body : List Stmt} {K rest : List Lexeme} {α : Type}
    {R : Phrase α} {f : Stmt → α} {as : List α} (hbody : allCanonical body = true)
    (hforced : body ≠ [] → LinesForced n 0 body K) (hstart : StartsLine R)
    (hR : ∀ {ls a rest}, R ls a rest → starts [.word, .word] ls = false →
      ∃ s, a = f s ∧ Statement (deeper n) ls s rest)
    (h : Lines R (bodyLexemes body ++ ⟨.dedent, none⟩ :: K) as rest) :
    solidBody body = true ∧ linesLevels 0 body ≤ n ∧ as = (rereadBody body).map f ∧ rest = K := by
  rcases body with _ | ⟨s, body⟩
  · obtain ⟨rfl, rfl⟩ := lines_end hstart h
    exact ⟨rfl, Nat.zero_le n, rfl, rfl⟩
  · rw [allCanonical, Bool.and_eq_true] at hbody
    have hlexemes := lexemes_start hbody.1 (bodyLexemes body ++ ⟨.dedent, none⟩ :: K)
    have hfresh := fresh_lexemes hbody.1 (bodyLexemes body ++ ⟨.dedent, none⟩ :: K)
    rw [← List.append_assoc, ← bodyLexemes] at hlexemes hfresh
    obtain ⟨hstarts, k, hk, hhead⟩ := hlexemes
    cases h with
    | done hn =>
      rw [← hfresh.newlines hn] at hhead
      cases hhead
      simp at hk
    | next hn ha hlines =>
      cases hfresh.newlines hn
      obtain ⟨t, rfl, ht⟩ := hR ha hstarts
      obtain ⟨hsolid, hlevels, ts, hread, rfl, rfl⟩ :=
        hforced (List.cons_ne_nil s body) hstart hR ht hlines
      rw [hread]
      exact ⟨hsolid, hlevels, rfl, rfl⟩

theorem body_unique {n : Nat} {body b : List Stmt} {K rest : List Lexeme} (hK : Fresh K)
    (hbody : allCanonical body = true) (hforced : ∀ m, body ≠ [] → LinesForced m 0 body K)
    (h : (deeper n).body (indented (bodyLexemes body) ++ K) b rest) :
    body ≠ [] ∧ solidBody body = true ∧ linesLevels 0 body + 1 ≤ n ∧ b = rereadBody body ∧
      rest = K := by
  rcases n with _ | n
  · exact h.elim
  · obtain ⟨hne, hlines⟩ := block_indented hK h
    obtain ⟨hsolid, hlevels, rfl, rfl⟩ := lines_unique (f := id) hbody (hforced n)
      statement_startsLine (fun hs _ => ⟨_, rfl, hs⟩) hlines
    refine ⟨?_, hsolid, Nat.succ_le_succ hlevels, List.map_id _, rfl⟩
    rintro rfl
    exact hne rfl

/-! ## Statements -/

/-- What a condition goes on with behind the body it guards. -/
inductive Behind (D : Deeper) (mid : List Lexeme) : Otherwise → List Lexeme → Prop
  | nothing : Behind D mid .nothing mid
  | onLine {v w start t rest} : mid = ⟨.kwElse, v⟩ :: ⟨.kwIf, w⟩ :: start →
      D.elseIf start t rest → Behind D mid (.single t) rest
  | block {v w behind start b rest} : mid = ⟨.kwElse, v⟩ :: ⟨.newline, w⟩ :: behind →
      Newlines behind start → D.body start b rest → Behind D mid (.block b) rest
  | line {v w behind start t rest} : mid = ⟨.kwElse, v⟩ :: ⟨.newline, w⟩ :: behind →
      Newlines behind start → Statement D start t rest → Behind D mid (.single t) rest

theorem Behind.elseIf {D : Deeper} {v w : Option String} {L rest : List Lexeme} {r : Otherwise}
    (h : Behind D (⟨.kwElse, v⟩ :: ⟨.kwIf, w⟩ :: L) r rest) (hrest : NoElse rest) :
    ∃ t, D.elseIf L t rest ∧ r = .single t := by
  cases h with
  | nothing => exact absurd hrest not_noElse
  | onLine heq ht =>
    cases heq
    exact ⟨_, ht, rfl⟩
  | block heq => cases heq
  | line heq => cases heq

theorem Behind.lines {D : Deeper} {v w : Option String} {L rest : List Lexeme} {r : Otherwise}
    (h : Behind D (⟨.kwElse, v⟩ :: ⟨.newline, w⟩ :: L) r rest) (hrest : NoElse rest)
    (hL : headKind? L ≠ some .newline) :
    (∃ b, D.body L b rest ∧ r = .block b) ∨ ∃ t, Statement D L t rest ∧ r = .single t := by
  cases h with
  | nothing => exact absurd hrest not_noElse
  | onLine heq => cases heq
  | block heq hn hb =>
    cases heq
    cases newlines_eq hn hL
    exact Or.inl ⟨_, hb, rfl⟩
  | line heq hn ht =>
    cases heq
    cases newlines_eq hn hL
    exact Or.inr ⟨_, ht, rfl⟩

/-- Where only one guarded body is derived, a condition is that body and what it goes on
with. -/
theorem behind_of_conditional {D : Deeper} {ls mid rest : List Lexeme} {a : Arm} {s : Stmt}
    (hmid : headKind? mid ≠ some .newline)
    (hguard : ∀ {a' mid'}, Guarded D ls a' mid' → a' = a ∧ mid' = mid)
    (h : Conditional D ls s rest) :
    ∃ o, Behind D mid o rest ∧ s = cond a.condition a.body o := by
  cases h with
  | alone ha hn =>
    obtain ⟨rfl, rfl⟩ := hguard ha
    rw [newlines_eq hn hmid]
    exact ⟨_, .nothing, rfl⟩
  | elseIf ha hn hs =>
    obtain ⟨rfl, rfl⟩ := hguard ha
    exact ⟨_, .onLine (newlines_eq hn hmid).symm hs, rfl⟩
  | elseBlock ha hn hn' hb =>
    obtain ⟨rfl, rfl⟩ := hguard ha
    exact ⟨_, .block (newlines_eq hn hmid).symm hn' hb, rfl⟩
  | elseLineIf ha hn hn' hs =>
    obtain ⟨rfl, rfl⟩ := hguard ha
    exact ⟨_, .line (newlines_eq hn hmid).symm hn' (.cond hs), rfl⟩
  | elseLine ha hn hn' hs =>
    obtain ⟨rfl, rfl⟩ := hguard ha
    exact ⟨_, .line (newlines_eq hn hmid).symm hn' (.plain hs), rfl⟩

theorem guarded_of_conditional {D : Deeper} {ls rest : List Lexeme} {s : Stmt}
    (h : Conditional D ls s rest) : ∃ a mid, Guarded D ls a mid := by
  cases h <;> exact ⟨_, _, ‹Guarded _ _ _ _›⟩

theorem guarded_unique {n : Nat} {c : Expr} {body : List Stmt} {K mid : List Lexeme} {a : Arm}
    (hc : c.isCondition = true) (hK : Fresh K) (hbody : allCanonical body = true)
    (hforced : ∀ m, body ≠ [] → LinesForced m 0 body K)
    (h : Guarded (deeper n)
      (c.lexemes ++ ⟨.newline, none⟩ :: (indented (bodyLexemes body) ++ K)) a mid) :
    a = ⟨c, rereadBody body⟩ ∧ mid = K ∧ c.conditionLevels ≤ n ∧ body ≠ [] ∧
      solidBody body = true ∧ linesLevels 0 body + 1 ≤ n := by
  obtain ⟨hcondition, hb⟩ := h
  obtain ⟨rfl, rfl, hlevels⟩ := condition_unique hc hcondition
  obtain ⟨hne, hsolid, hbodyLevels, rfl, rfl⟩ := body_unique hK hbody hforced hb
  exact ⟨rfl, rfl, hlevels, hne, hsolid, hbodyLevels⟩

theorem fresh_otherwise {L : List Lexeme} (hL : Fresh L) (o : Otherwise) :
    Fresh (otherwiseLexemes o ++ L) := by
  cases o with
  | nothing => exact hL
  | single => simp [Fresh, otherwiseLexemes, headKind?]
  | block => simp [Fresh, otherwiseLexemes, headKind?]

/-- Written behind `loop`, a condition is not taken for a name that is assigned to. -/
theorem starts_condition {c : Expr} (hc : c.isCondition = true) (K : List Lexeme) :
    starts [.word, .assign] (c.lexemes ++ ⟨.newline, none⟩ :: K) = false :=
  condition_not_assigned (nested_reads c.conditionLevels)
    (Expr.derives_condition hc (Nat.le_refl _) (⟨.newline, none⟩ :: K))

theorem loop_cases {D : Deeper} {v : Option String} {ls rest : List Lexeme} {s : Stmt}
    (h : Statement D (⟨.kwLoop, v⟩ :: ls) s rest) :
    (∃ a, Guarded D ls a rest ∧ s = loop none a.condition a.body) ∨
      ∃ u w start a, ls = ⟨.word, u⟩ :: ⟨.assign, w⟩ :: start ∧ Guarded D start a rest ∧
        s = loop (some (u.getD "")) a.condition a.body := by
  cases h with
  | plain h =>
    cases h with
    | loop hc hb => exact Or.inl ⟨_, .mk hc hb, rfl⟩
    | loopIn hx hc hb =>
      cases hx
      exact Or.inr ⟨_, _, _, _, rfl, .mk hc hb, rfl⟩
    | call hc => cases hc
    | assign hx =>
      obtain ⟨u, k, w, more, hls, -⟩ := targets_start hx
      cases hls

/-- A written loop is read with its own condition and body. -/
theorem loop_unique {n : Nat} {v : Option String} {c : Expr} {body : List Stmt}
    {L mid : List Lexeme} {s : Stmt} (hc : c.isCondition = true) (hL : Fresh L)
    (hbody : allCanonical body = true) (hforced : ∀ m, body ≠ [] → LinesForced m 0 body L)
    (h : Statement (deeper n) ((loop v c body).lexemes ++ L) s mid) :
    s = loop v c (rereadBody body) ∧ mid = L ∧ c.conditionLevels ≤ n ∧ body ≠ [] ∧
      solidBody body = true ∧ linesLevels 0 body + 1 ≤ n := by
  cases v with
  | none =>
    simp only [lexemes, List.append_assoc, List.cons_append, List.nil_append] at h
    rcases loop_cases h with ⟨a, ha, rfl⟩ | ⟨u, w, start, a, hls, -⟩
    · obtain ⟨rfl, hrest⟩ := guarded_unique hc hL hbody hforced ha
      exact ⟨rfl, hrest⟩
    · have hstarts := starts_condition hc (indented (bodyLexemes body) ++ L)
      rw [hls] at hstarts
      simp [starts] at hstarts
  | some x =>
    simp only [lexemes, List.append_assoc, List.cons_append, List.nil_append] at h
    rcases loop_cases h with ⟨a, ⟨hcondition, -⟩, rfl⟩ | ⟨u, w, start, a, hls, ha, rfl⟩
    · have hstarts := condition_not_assigned (nested_reads n) hcondition
      simp [starts] at hstarts
    · cases hls
      obtain ⟨rfl, hrest⟩ := guarded_unique hc hL hbody hforced ha
      exact ⟨rfl, hrest⟩

theorem holeDepth_le : ∀ s : Stmt, s.holeDepth ≤ s.textLevels
  | assign _ _ | call _ _ | loop _ _ _ => Nat.zero_le _
  | cond c body .nothing | cond c body (.block _) => Nat.zero_le _
  | cond c body (.single s) => by
    have hs := holeDepth_le s
    simp only [holeDepth, otherwiseDepth, textLevels, otherwiseTextLevels]
    omega

mutual

/-- A written statement is read as itself, with the statement that it takes if it is open. -/
theorem leads_of_statement : ∀ {s : Stmt} {n : Nat}, s.isCanonical = true →
    ∀ {L a mid}, Fresh L → headKind? L ≠ some .kwElse → NoElse mid →
      Statement (deeper n) (s.lexemes ++ L) a mid →
      s.isSolid = true ∧ s.textLevels ≤ n ∧ Leads n s L a mid
  | assign _ _, n, h, L, a, mid, _, _, _, hread => by
    obtain ⟨rfl, rfl, hlevels⟩ := simple_unique rfl h hread
    exact ⟨rfl, hlevels, .closed rfl⟩
  | call _ _, n, h, L, a, mid, _, _, _, hread => by
    obtain ⟨rfl, rfl, hlevels⟩ := simple_unique rfl h hread
    exact ⟨rfl, hlevels, .closed rfl⟩
  | loop v c body, n, h, L, a, mid, hL, _, _, hread => by
    simp only [isCanonical, Bool.and_eq_true] at h
    obtain ⟨rfl, rfl, hcondition, hne, hsolid, hlevels⟩ := loop_unique h.1.2 hL h.2
      (fun m hne => lines_forced hne (Nat.zero_le m) h.2) hread
    refine ⟨?_, Nat.max_le.mpr ⟨hcondition, hlevels⟩, .closed rfl⟩
    simp [isSolid, hne, hsolid]
  | cond c body o, n, h, L, a, mid, hL, hElse, hmid, hread => by
    simp only [isCanonical, Bool.and_eq_true] at h
    simp only [lexemes, List.append_assoc, List.cons_append] at hread
    have hcond := conditional_of_statement hread
    have hfresh := fresh_otherwise hL o
    have hguard : ∀ {a mid}, Guarded (deeper n) _ a mid → _ := fun ha =>
      guarded_unique h.1.1 hfresh h.1.2 (fun m hne => lines_forced hne (Nat.zero_le m) h.1.2) ha
    obtain ⟨a', mid', ha'⟩ := guarded_of_conditional hcond
    obtain ⟨-, -, hcondition, hne, hsolid, hlevels⟩ := hguard ha'
    obtain ⟨r, hbehind, rfl⟩ := behind_of_conditional hfresh.1
      (fun ha => ⟨(hguard ha).1, (hguard ha).2.1⟩) hcond
    obtain ⟨hsolid', hlevels', hr⟩ :=
      leads_of_behind h.2 hL hElse (Nat.lt_of_lt_of_le (Nat.succ_pos _) hlevels) hmid hbehind
    refine ⟨?_, Nat.max_le.mpr ⟨hcondition, Nat.max_le.mpr ⟨hlevels, hlevels'⟩⟩, ?_⟩
    · simp [isSolid, hne, hsolid, hsolid']
    · exact leads_cond_iff.mpr ⟨r, hr, rfl⟩

theorem leads_of_behind : ∀ {o : Otherwise} {n : Nat}, otherwiseCanonical o = true →
    ∀ {L r mid}, Fresh L → headKind? L ≠ some .kwElse → 0 < n → NoElse mid →
      Behind (deeper n) (otherwiseLexemes o ++ L) r mid →
      otherwiseSolid o = true ∧ otherwiseTextLevels o ≤ n ∧ OtherwiseLeads n o L r mid
  | .nothing, n, _, L, r, mid, _, hElse, _, _, hr => by
    cases hr with
    | nothing => exact ⟨rfl, Nat.zero_le n, .closed rfl⟩
    | onLine heq => exact absurd (congrArg headKind? heq) hElse
    | block heq => exact absurd (congrArg headKind? heq) hElse
    | line heq => exact absurd (congrArg headKind? heq) hElse
  | .single s, n, h, L, r, mid, hL, hElse, _, hmid, hr => by
    cases hs : s.isCond with
    | true =>
      obtain ⟨ls, hls⟩ := lexemes_of_isCond hs
      simp only [otherwiseLexemes, hs, hls, if_true, List.cons_append, List.nil_append] at hr
      obtain ⟨t, ht, rfl⟩ := hr.elseIf hmid
      rcases n with _ | n
      · exact ht.elim
      · have hread : Statement (deeper n) (s.lexemes ++ L) t mid := by
          rw [hls]
          exact .cond ht
        obtain ⟨hsolid, hlevels, hleads⟩ := leads_of_statement h hL hElse hmid hread
        refine ⟨hsolid, ?_, (otherwiseLeads_single_iff hs).mpr ⟨t, hleads, rfl⟩⟩
        rw [otherwiseTextLevels, hs]
        exact Nat.succ_le_succ hlevels
    | false =>
      simp only [otherwiseLexemes, hs, Bool.false_eq_true, if_false, List.cons_append,
        List.nil_append] at hr
      have hfresh := fresh_lexemes h L
      rcases hr.lines hmid hfresh.1 with ⟨b, hb, -⟩ | ⟨t, ht, rfl⟩
      · exact absurd hb hfresh.not_body
      · obtain ⟨hsolid, hlevels, hleads⟩ := leads_of_statement h hL hElse hmid ht
        have hopen := isOpen_of_not_isCond hs
        obtain ⟨rfl, rfl⟩ := hleads.eq_of_closed hopen
        refine ⟨hsolid, ?_, .closed hopen⟩
        rw [otherwiseTextLevels, hs]
        exact hlevels
  | .block [], n, h, L, r, mid, hL, _, hn, hmid, hr => by
    -- Nothing is written under the `else`, so that it takes what stands behind it.
    rcases Behind.lines hr hmid hL.1 with ⟨b, hb, -⟩ | ⟨t, ht, rfl⟩
    · exact absurd hb hL.not_body
    · exact ⟨rfl, hn, .taking rfl ht⟩
  | .block (s :: body), n, h, L, r, mid, hL, _, _, hmid, hr => by
    rw [otherwiseLexemes, List.cons_append, List.cons_append] at hr
    rcases hr.lines hmid (indented_head hL) with ⟨b, hb, rfl⟩ | ⟨t, ht, -⟩
    · obtain ⟨-, hsolid, hlevels, rfl, rfl⟩ := body_unique hL h
        (fun m hne => lines_forced hne (Nat.zero_le m) h) hb
      exact ⟨hsolid, hlevels, .closed rfl⟩
    · rw [indented_append (bodyLexemes_ne_nil (List.cons_ne_nil s body))] at ht
      obtain ⟨k, hk, hkind⟩ := statement_head ht
      cases hkind
      simp at hk

theorem lines_forced : ∀ {body : List Stmt} {n above : Nat} {K : List Lexeme}, body ≠ [] →
    above ≤ n → allCanonical body = true → LinesForced n above body K
  | [], _, _, _, hne, _, _ => absurd rfl hne
  | s :: rest, n, above, K, _, habove, h => by
    intro hstart hR ht hlines
    -- What the first statement takes is read with less room, but the lines behind it are not.
    rw [allCanonical, Bool.and_eq_true] at h
    have hnext : Fresh (bodyLexemes rest ++ ⟨.dedent, none⟩ :: K) ∧
        headKind? (bodyLexemes rest ++ ⟨.dedent, none⟩ :: K) ≠ some .kwElse :=
      bodyLexemes_start h.2 K
    rw [bodyLexemes, List.append_assoc] at ht
    obtain ⟨hsolid, hlevels, hleads⟩ :=
      leads_of_statement h.1 hnext.1 hnext.2 (lines_noElse hstart hlines) ht
    have hroom : above + s.textLevels ≤ n := by omega
    cases hleads with
    | closed hopen =>
      obtain ⟨hsolid', hlevels', rfl, rfl⟩ := lines_unique h.2
        (fun hne => lines_forced hne (Nat.zero_le n) h.2) hstart hR hlines
      rw [linesLevels_cons_closed hopen, rereadBody_cons_closed hopen]
      refine ⟨?_, Nat.max_le.mpr ⟨hroom, hlevels'⟩, _, rfl, rfl, rfl⟩
      simp [solidBody, hsolid, hopen, hsolid']
    | taking hopen ht =>
      have hne : rest ≠ [] := by
        rintro rfl
        obtain ⟨k, hk, hhead⟩ := statement_head ht
        cases hhead
        simp at hk
      have hdepth := holeDepth_le s
      rw [Nat.sub_sub] at ht
      obtain ⟨hsolid', hlevels', ts, hread, rfl, rfl⟩ :=
        lines_forced hne (by omega) h.2 hstart hR ht hlines
      rw [linesLevels_cons_open hopen, rereadBody_cons_open hopen hread]
      refine ⟨?_, Nat.max_le.mpr ⟨hroom, hlevels'⟩, ts, rfl, rfl, rfl⟩
      simp [solidBody, hsolid, hne, hsolid']

end

end Stmt

/-! ## Lines of items -/

theorem fresh_flatMap {α : Type} {g : α → List Lexeme} {L : List Lexeme} (hL : Fresh L)
    (hg : ∀ a K, Fresh (g a ++ K)) (items : List α) : Fresh (items.flatMap g ++ L) := by
  rcases items with _ | ⟨a, items⟩
  · exact hL
  · rw [List.flatMap_cons, List.append_assoc]
    exact hg a _

/-- Lines that can be read in one way each are read in one way, and leave the lines behind
them. -/
theorem lines_flatMap_unique {α β : Type} {R : Phrase α} {g : β → List Lexeme} {f : β → α}
    {P : β → Prop} {L rest : List Lexeme} (hL : Fresh L)
    (hg : ∀ b K, Fresh (g b ++ K) ∧ headKind? (g b ++ K) ≠ some .dedent) :
    ∀ {items : List β} {as : List α},
      (∀ b ∈ items, ∀ K a rest, Fresh K → R (g b ++ K) a rest → a = f b ∧ rest = K ∧ P b) →
      Lines R (items.flatMap g ++ L) as rest →
      ∃ as', as = items.map f ++ as' ∧ Lines R L as' rest ∧ ∀ b ∈ items, P b
  | [], as, _, h => ⟨as, rfl, h, by simp⟩
  | b :: items, as, hR, h => by
    have hnext := fresh_flatMap hL (fun c K => (hg c K).1) items
    rw [List.flatMap_cons, List.append_assoc] at h
    obtain ⟨hfresh, hdedent⟩ := hg b (items.flatMap g ++ L)
    cases h with
    | done hn =>
      rw [← hfresh.newlines hn] at hdedent
      exact absurd rfl hdedent
    | next hn ha hlines =>
      cases hfresh.newlines hn
      obtain ⟨rfl, rfl, hb⟩ := hR b (by simp) _ _ _ hnext ha
      obtain ⟨as', rfl, hrest, hP⟩ := lines_flatMap_unique hL hg
        (fun c hc => hR c (List.mem_cons_of_mem b hc)) hlines
      exact ⟨as', rfl, hrest, List.forall_mem_cons.mpr ⟨hb, hP⟩⟩

theorem lineLexemes_append (d : VarDecl) (K : List Lexeme) :
    ∃ more, d.lineLexemes ++ K = nameLexeme d.typeName :: nameLexeme d.name :: more :=
  ⟨_, rfl⟩

theorem lineLexemes_start (d : VarDecl) (K : List Lexeme) :
    Fresh (d.lineLexemes ++ K) ∧ headKind? (d.lineLexemes ++ K) ≠ some .dedent := by
  obtain ⟨more, hmore⟩ := lineLexemes_append d K
  simp [hmore, Fresh, headKind?]

theorem local_unique {n : Nat} {d : VarDecl} (hd : d.isCanonical = true) {K rest : List Lexeme}
    {i : BodyItem} (h : Item (deeper n) (d.lineLexemes ++ K) i rest) :
    i = .locals [d] ∧ rest = K ∧ d.levels ≤ n := by
  generalize hls : d.lineLexemes ++ K = ls at h
  cases h with
  | locals h =>
    obtain ⟨rfl, hrest⟩ := varDecl_unique hd (hls ▸ h)
    exact ⟨rfl, hrest⟩
  | statement h =>
    have hstarts := statement_not_locals h
    obtain ⟨more, hmore⟩ := lineLexemes_append d K
    rw [← hls, hmore] at hstarts
    simp [starts] at hstarts

theorem methodBody_unique {n : Nat} {b : MethodBody} {K rest : List Lexeme}
    {items : List BodyItem} (hb : b.isCanonical = true) (hK : Fresh K)
    (h : (deeper n).methodBody (indented b.lexemes ++ K) items rest) :
    MethodBody.ofItems items = b.reread ∧ rest = K ∧ b.isSolid = true ∧ b.textLevels ≤ n := by
  rcases n with _ | n
  · exact h.elim
  · simp only [MethodBody.isCanonical, Bool.and_eq_true, List.all_eq_true] at hb
    obtain ⟨hne, hlines⟩ := block_indented hK h
    rw [MethodBody.lexemes, List.append_assoc] at hlines
    obtain ⟨items', rfl, hstatements, hlocals⟩ := lines_flatMap_unique
      (f := fun d => .locals [d]) (P := fun d => d.levels ≤ n)
      (Stmt.bodyLexemes_start hb.2 K).1 lineLexemes_start
      (fun d hd _ _ _ _ hi => local_unique (hb.1 d hd) hi) hlines
    obtain ⟨hsolid, hlevels, rfl, rfl⟩ := Stmt.lines_unique (f := .statement) hb.2
      (fun hne => Stmt.lines_forced hne (Nat.zero_le n) hb.2) item_startsLine
      (fun hi hstarts => by
        cases hi with
        | locals hd =>
          rw [varDecls_start hd] at hstarts
          cases hstarts
        | statement hs => exact ⟨_, rfl, hs⟩) hstatements
    refine ⟨MethodBody.ofItems_map _ _, rfl, ?_,
      Nat.succ_le_succ (Nat.max_le.mpr ⟨largest_le.mpr hlocals, hlevels⟩)⟩
    rw [MethodBody.isSolid, hsolid, Bool.and_true]
    exact MethodBody.lexemes_ne_nil.mp hne

/-! ## Classes and interfaces -/

theorem constructor_start (c : Constructor) (K : List Lexeme) :
    Fresh (c.lexemes ++ K) ∧ headKind? (c.lexemes ++ K) ≠ some .dedent := by
  simp [Constructor.lexemes, Fresh, headKind?]

theorem constructor_unique {n : Nat} {c : Constructor} (hc : c.isCanonical = true)
    {K rest : List Lexeme} (hK : Fresh K) {i : ClassItem}
    (h : ClassPart (deeper n) (c.lexemes ++ K) i rest) :
    i = .constructor c.reread ∧ rest = K ∧ c.body.isSolid = true ∧ c.body.textLevels ≤ n := by
  simp only [Constructor.isCanonical, Bool.and_eq_true, List.all_eq_true] at hc
  simp only [Constructor.lexemes, List.append_assoc, List.cons_append] at h
  have hwritten := derives_parameters hc.1 (⟨.newline, none⟩ :: (indented c.body.lexemes ++ K))
  cases h with
  | constructor hd hn hb =>
    obtain ⟨rfl, heq⟩ := (takes_parameterList hd).unique (takes_parameterList hwritten)
    cases heq
    cases newlines_eq hn (indented_head hK)
    obtain ⟨hitems, rfl, hsolid, hlevels⟩ := methodBody_unique hc.2 hK hb
    rw [hitems]
    exact ⟨rfl, rfl, hsolid, hlevels⟩
  | method hp hs hh =>
    obtain ⟨v, w, more, rfl⟩ := header_start hh
    cases hp
    cases hs
  | members h => cases h

theorem mark_unique {kind : Kind} {marked b : Bool} {K rest : List Lexeme}
    (hK : headKind? K ≠ some kind) (hrest : headKind? rest ≠ some kind)
    (h : Mark kind ((if marked then [⟨kind, none⟩] else []) ++ K) b rest) :
    b = marked ∧ rest = K := by
  cases marked with
  | false =>
    cases h with
    | absent => exact ⟨rfl, rfl⟩
    | present => exact absurd rfl hK
  | true =>
    cases h with
    | absent => exact absurd rfl hrest
    | present => exact ⟨rfl, rfl⟩

theorem header_lexemes_append (hd : MethodHeader) (K : List Lexeme) :
    ∃ more, hd.lexemes ++ K = nameLexeme hd.name :: ⟨.leftParen, none⟩ :: more :=
  ⟨_, rfl⟩

/-- How a written method starts: with a mark, or as its header does. -/
theorem method_start (m : Method) (K : List Lexeme) :
    (∃ k ∈ [Kind.kwPrivate, .kwShared, .word], headKind? (m.lexemes ++ K) = some k) ∧
      starts [.word, .word] (m.lexemes ++ K) = false := by
  obtain ⟨isPrivate, isShared, hd, b⟩ := m
  cases isPrivate <;> cases isShared <;>
    simp [Method.lexemes, MethodHeader.lexemes, parameterLexemes, headKind?, starts]

theorem method_fresh (m : Method) (K : List Lexeme) :
    Fresh (m.lexemes ++ K) ∧ headKind? (m.lexemes ++ K) ≠ some .dedent := by
  obtain ⟨⟨k, hk, hhead⟩, -⟩ := method_start m K
  rw [Fresh, hhead]
  refine ⟨⟨?_, ?_⟩, ?_⟩ <;> (rintro ⟨⟩; simp at hk)

theorem method_unique {n : Nat} {m : Method} (hm : m.isCanonical = true)
    {K rest : List Lexeme} (hK : Fresh K) {i : ClassItem}
    (h : ClassPart (deeper n) (m.lexemes ++ K) i rest) :
    i = .method m.reread ∧ rest = K ∧ m.body.isSolid = true ∧ m.body.textLevels ≤ n := by
  obtain ⟨⟨k, hk, hhead⟩, hstarts⟩ := method_start m K
  generalize hls : m.lexemes ++ K = ls at h hhead hstarts
  cases h with
  | constructor =>
    cases hhead
    simp at hk
  | members h =>
    rw [varDecls_start h] at hstarts
    cases hstarts
  | @method _ isPrivate start isShared behind _ _ _ _ hp hs hh hb =>
    rw [Method.isCanonical, Bool.and_eq_true] at hm
    simp only [Method.lexemes, List.append_assoc] at hls
    obtain ⟨more, hheader⟩ := header_lexemes_append m.header (indented m.body.lexemes ++ K)
    obtain ⟨v, w, more', hbehind⟩ := header_start hh
    have hstart : headKind? start ≠ some .kwPrivate := by
      cases hs with
      | absent => simp [hbehind, headKind?]
      | present => simp [headKind?]
    obtain ⟨rfl, rfl⟩ := mark_unique (by cases m.isShared <;> simp [hheader, headKind?]) hstart
      (hls ▸ hp)
    obtain ⟨rfl, rfl⟩ := mark_unique (by simp [hheader, headKind?])
      (by simp [hbehind, headKind?]) hs
    obtain ⟨rfl, rfl⟩ := header_unique hm.1 hh
    obtain ⟨hitems, rfl, hsolid, hlevels⟩ := methodBody_unique hm.2 hK hb
    rw [hitems]
    exact ⟨rfl, rfl, hsolid, hlevels⟩

theorem member_unique {n : Nat} {d : VarDecl} (hd : d.isCanonical = true) {K rest : List Lexeme}
    {i : ClassItem} (h : ClassPart (deeper n) (d.lineLexemes ++ K) i rest) :
    i = .members [d] ∧ rest = K ∧ d.levels ≤ n := by
  obtain ⟨more, hmore⟩ := lineLexemes_append d K
  generalize hls : d.lineLexemes ++ K = ls at h hmore
  cases h with
  | constructor => cases hmore
  | method hp hs hh =>
    obtain ⟨v, w, more', rfl⟩ := header_start hh
    subst hmore
    cases hp
    cases hs
  | members h =>
    obtain ⟨rfl, hrest⟩ := varDecl_unique hd (hls ▸ h)
    exact ⟨rfl, hrest⟩

theorem parts_unique {n : Nat} {c : Class} (hc : c.isCanonical = true) {K rest : List Lexeme}
    (hK : Fresh K) {items : List ClassItem}
    (h : Block (ClassPart (deeper n)) (indented c.partLexemes ++ K) items rest) :
    Class.ofItems c.name c.interfaces items = c.reread ∧ rest = K ∧ c.isSolid = true ∧
      c.textLevels ≤ n := by
  simp only [Class.isCanonical, Bool.and_eq_true, List.all_eq_true] at hc
  obtain ⟨hne, hlines⟩ := block_indented hK h
  rw [Class.partLexemes, List.append_assoc, List.append_assoc] at hlines
  have hmethods := fresh_flatMap (fresh_dedent K) (fun m K => (method_fresh m K).1) c.methods
  have hconstructors := fresh_flatMap hmethods (fun k K => (constructor_start k K).1) c.constructors
  obtain ⟨is, rfl, hlines, hmembers⟩ := lines_flatMap_unique (f := fun d => .members [d])
    (P := fun d => d.levels ≤ n) hconstructors lineLexemes_start
    (fun d hd _ _ _ _ hi => member_unique (hc.2 d hd) hi) hlines
  obtain ⟨is, rfl, hlines, hks⟩ := lines_flatMap_unique (f := fun k => .constructor k.reread)
    (P := fun k => k.body.isSolid = true ∧ k.body.textLevels ≤ n) hmethods constructor_start
    (fun k hk _ _ _ hK hi => constructor_unique (hc.1.1.2 k hk) hK hi) hlines
  obtain ⟨is, rfl, hlines, hms⟩ := lines_flatMap_unique (f := fun m => .method m.reread)
    (P := fun m => m.body.isSolid = true ∧ m.body.textLevels ≤ n) (fresh_dedent K) method_fresh
    (fun m hm _ _ _ hK hi => method_unique (hc.1.2 m hm) hK hi) hlines
  obtain ⟨rfl, rfl⟩ := lines_end classPart_startsLine hlines
  have hitems := Class.ofItems_map c.name c.interfaces c.members
    (c.constructors.map Constructor.reread) (c.methods.map Method.reread)
  rw [List.map_map, List.map_map] at hitems
  rw [List.append_nil]
  refine ⟨hitems, rfl, ?_, ?_⟩
  · simp only [Class.isSolid, Bool.and_eq_true, List.all_eq_true]
    exact ⟨⟨Class.partLexemes_ne_nil.mp hne, fun k hk => (hks k hk).1⟩, fun m hm => (hms m hm).1⟩
  · simp only [Class.textLevels, Nat.max_le, largest_le]
    exact ⟨hmembers, fun k hk => (hks k hk).2, fun m hm => (hms m hm).2⟩

/-- A class is read behind its keyword. -/
theorem class_unique {n : Nat} {c c' : Class} (hc : c.isCanonical = true)
    {ls K rest : List Lexeme} (hK : Fresh K) (hls : c.lexemes ++ K = ⟨.kwClass, none⟩ :: ls)
    (h : ClassDecl (deeper n) ls c' rest) :
    c' = c.reread ∧ rest = K ∧ c.isSolid = true ∧ c.textLevels ≤ n := by
  simp only [Class.lexemes, List.append_assoc, List.cons_append, List.cons.injEq, true_and] at hls
  subst hls
  obtain ⟨hx, hxs, hblock⟩ := h
  cases hx
  have hwritten := derives_implemented c.interfaces
    (⟨.newline, none⟩ :: (indented c.partLexemes ++ K))
  obtain ⟨rfl, heq⟩ := (takes_implemented hxs).unique (takes_implemented hwritten)
  cases heq
  exact parts_unique hc hK hblock

/-- An interface is read behind its keyword. -/
theorem interface_unique {i i' : Interface} (hi : i.isCanonical = true)
    {ls K rest : List Lexeme} (hK : Fresh K) (hls : i.lexemes ++ K = ⟨.kwInterface, none⟩ :: ls)
    (h : InterfaceDecl ls i' rest) : i' = i ∧ rest = K ∧ i.methods ≠ [] := by
  simp only [Interface.isCanonical, Bool.and_eq_true, List.all_eq_true] at hi
  simp only [Interface.lexemes, List.cons_append, List.cons.injEq, true_and] at hls
  subst hls
  obtain ⟨hx, hblock⟩ := h
  cases hx
  obtain ⟨hne, hlines⟩ := block_indented hK hblock
  obtain ⟨as, rfl, hlines, -⟩ := lines_flatMap_unique (f := id) (P := fun _ => True)
    (fresh_dedent K) (fun m K => by simp [MethodHeader.lexemes, Fresh, headKind?])
    (fun m hm _ _ _ _ hh => ⟨(header_unique (hi.2 m hm) hh).1, (header_unique (hi.2 m hm) hh).2,
      trivial⟩) hlines
  obtain ⟨rfl, rfl⟩ := lines_end header_startsLine hlines
  rw [List.map_id, List.append_nil]
  refine ⟨rfl, rfl, ?_⟩
  intro hnil
  simp [hnil] at hne

/-! ## Programs -/

theorem declarations_flatMap_unique {D : Deeper} {α : Type} {g : α → List Lexeme}
    {f : α → Declaration} {P : α → Prop} {L : List Lexeme} (hL : Fresh L)
    (hg : ∀ a K, Fresh (g a ++ K)) :
    ∀ {items : List α} {ds : List Declaration},
      (∀ a ∈ items, ∀ K ds, Fresh K → Declarations D (g a ++ K) ds →
        ∃ ds', ds = f a :: ds' ∧ Declarations D K ds' ∧ P a) →
      Declarations D (items.flatMap g ++ L) ds →
      ∃ ds', ds = items.map f ++ ds' ∧ Declarations D L ds' ∧ ∀ a ∈ items, P a
  | [], ds, _, h => ⟨ds, rfl, h, by simp⟩
  | a :: items, ds, hD, h => by
    rw [List.flatMap_cons, List.append_assoc] at h
    obtain ⟨ds', rfl, hrest, ha⟩ := hD a (by simp) _ _ (fresh_flatMap hL hg items) h
    obtain ⟨ds'', rfl, hL', hP⟩ := declarations_flatMap_unique hL hg
      (fun b hb => hD b (List.mem_cons_of_mem a hb)) hrest
    exact ⟨ds'', rfl, hL', List.forall_mem_cons.mpr ⟨ha, hP⟩⟩

theorem class_fresh (c : Class) (K : List Lexeme) : Fresh (c.lexemes ++ K) := by
  simp [Class.lexemes, Fresh, headKind?]

theorem interface_fresh (i : Interface) (K : List Lexeme) : Fresh (i.lexemes ++ K) := by
  simp [Interface.lexemes, Fresh, headKind?]

theorem declarations_class {n : Nat} {c : Class} (hc : c.isCanonical = true) {K : List Lexeme}
    {ds : List Declaration} (hK : Fresh K) (h : Declarations (deeper n) (c.lexemes ++ K) ds) :
    ∃ ds', ds = .classDecl c.reread :: ds' ∧ Declarations (deeper n) K ds' ∧
      c.isSolid = true ∧ c.textLevels ≤ n := by
  have hfresh := class_fresh c K
  obtain ⟨ls, hls⟩ : ∃ ls, c.lexemes ++ K = ⟨.kwClass, none⟩ :: ls := ⟨_, rfl⟩
  rw [hls] at h hfresh
  cases h with
  | done hn => cases hfresh.newlines hn
  | classDecl hn hclass hds =>
    cases hfresh.newlines hn
    obtain ⟨rfl, rfl, hsolid⟩ := class_unique hc hK hls hclass
    exact ⟨_, rfl, hds, hsolid⟩
  | interfaceDecl hn => cases hfresh.newlines hn

theorem declarations_interface {D : Deeper} {i : Interface} (hi : i.isCanonical = true)
    {K : List Lexeme} {ds : List Declaration} (hK : Fresh K)
    (h : Declarations D (i.lexemes ++ K) ds) :
    ∃ ds', ds = .interfaceDecl i :: ds' ∧ Declarations D K ds' ∧ i.methods ≠ [] := by
  have hfresh := interface_fresh i K
  obtain ⟨ls, hls⟩ : ∃ ls, i.lexemes ++ K = ⟨.kwInterface, none⟩ :: ls := ⟨_, rfl⟩
  rw [hls] at h hfresh
  cases h with
  | done hn => cases hfresh.newlines hn
  | classDecl hn => cases hfresh.newlines hn
  | interfaceDecl hn hinterface hds =>
    cases hfresh.newlines hn
    obtain ⟨rfl, rfl, hne⟩ := interface_unique hi hK hls hinterface
    exact ⟨_, rfl, hds, hne⟩

/-- Whatever the lexemes of a written program derive, it is the program as it is read. -/
theorem reread_of_derives {n : Nat} {p q : Program} (hp : p.isCanonical = true)
    (h : Derives n p.lexemes q) : p.isSolid = true ∧ p.textLevels ≤ n ∧ q = p.reread := by
  simp only [Program.isCanonical, Bool.and_eq_true, List.all_eq_true] at hp
  obtain ⟨ds, hds, rfl⟩ := h
  have hend : Fresh [] := by simp [Fresh, headKind?]
  rw [Program.lexemes, ← List.append_nil (p.classes.flatMap Class.lexemes)] at hds
  obtain ⟨ds, rfl, hds, his⟩ := declarations_flatMap_unique (f := .interfaceDecl)
    (P := fun i => i.methods ≠ []) (fresh_flatMap hend class_fresh p.classes) interface_fresh
    (fun i hi _ _ hK h => declarations_interface (hp.2 i hi) hK h) hds
  obtain ⟨ds, rfl, hds, hcs⟩ := declarations_flatMap_unique (f := fun c => .classDecl c.reread)
    (P := fun c => c.isSolid = true ∧ c.textLevels ≤ n) hend class_fresh
    (fun c hc _ _ hK h => declarations_class (hp.1 c hc) hK h) hds
  have hnil : ds = [] := by
    cases hds with
    | done => rfl
    | classDecl hn => cases hn
    | interfaceDecl hn => cases hn
  subst hnil
  have hprogram := Program.ofDeclarations_map (p.classes.map Class.reread) p.interfaces
  rw [List.map_map] at hprogram
  rw [List.append_nil]
  refine ⟨?_, largest_le.mpr fun c hc => (hcs c hc).2, hprogram⟩
  simp only [Program.isSolid, Bool.and_eq_true, List.all_eq_true, Bool.not_eq_true',
    List.isEmpty_eq_false_iff]
  exact ⟨fun c hc => (hcs c hc).1, his⟩

end Offside
