import Offside.Proofs.Comparison
import Offside.Source

/-!
# Levels of nesting

The productions count the levels of nesting that are open. `nested n` is what can be opened if
there are `n` levels left: it is defined by recursion on that number and does not look at the
count. Productions do the same with either (`Uniform.eq_nested`), and most proofs are about the
second. The reason is that a level is closed again on every way out of it, so that the count is
the same before and after (`Uniform.depth_restored`), while inside the level the count is one
more and the levels that are left are one less (`Parse.counts_within`).

It follows that the bound on the recursion of `Nested.productions` is never met: unrolled any
further, they do the same (`Uniform.unrolled_eq_productions`).
-/

namespace Offside

open Parse

/-- What can be opened if so many levels of nesting are left. -/
def nested : Nat → Nested
  | 0 => .closed
  | room + 1 => (nested room).above

theorem Comparison.nested (C : Comparison) : ∀ n : Nat,
    C.Opens (Offside.nested n) (Offside.nested n)
  | 0 => C.closed
  | n + 1 => (C.nested n).above

namespace Parse

variable {α β : Type} {levels : Nat}

/-- The state with so many levels open. -/
def State.withDepth (s : State) (depth : Nat) : State :=
  { s with depth := depth }

/-- The same outcome twice, with `depth` levels open in the first and `depth'` in the second. -/
inductive SameBut (depth depth' : Nat) :
    EStateM.Result Diagnostic State α → EStateM.Result Diagnostic State α → Prop
  | ok (a : α) (s : State) : s.depth = depth → SameBut depth depth' (.ok a s)
      (.ok a (s.withDepth depth'))
  | error (d : Diagnostic) (s : State) : s.depth = depth → SameBut depth depth' (.error d s)
      (.error d (s.withDepth depth'))

/-- Where there are so many levels left, `p` leaves as many open as it has found, and `q` does the
same whatever the count is. -/
def Counts (levels : Nat) (p q : Parse α) : Prop :=
  ∀ (s : State) (depth : Nat), maxNesting - s.depth = levels →
    SameBut s.depth depth (p s) (q (s.withDepth depth))

/-- The same of reading items. -/
def CountsAll (levels : Nat) (g g' : Gather α) : Prop :=
  ∀ (s : State) (depth : Nat), maxNesting - s.depth = levels →
    (g s).1 = (g' (s.withDepth depth)).1 ∧ SameBut s.depth depth (g s).2 (g' (s.withDepth depth)).2

/-! ## Parts that do not look at the count -/

theorem counts_bind {p q : Parse α} {f g : α → Parse β} (hp : Counts levels p q)
    (hf : ∀ a, Counts levels (f a) (g a)) : Counts levels (p >>= f) (q >>= g) := by
  intro s depth hs
  show SameBut s.depth depth (EStateM.bind p f s) (EStateM.bind q g (s.withDepth depth))
  have hend := hp s depth hs
  rw [EStateM.bind, EStateM.bind]
  generalize p s = r at hend ⊢
  generalize q (s.withDepth depth) = r' at hend ⊢
  cases hend with
  | error d mid hmid => exact .error d mid hmid
  | ok a mid hmid =>
    have hend := hf a mid depth (by rw [hmid, hs])
    rwa [hmid] at hend

theorem counts_pure (a : α) : Counts levels (pure a) (pure a) :=
  fun s _ _ => .ok a s rfl

theorem counts_look (view : Stream → α) : Counts levels (look view) (look view) :=
  fun s _ _ => .ok _ s rfl

theorem counts_unexpected (expected : List Kind) :
    Counts levels (unexpected expected : Parse α) (unexpected expected) :=
  fun s _ _ => .error _ s rfl

theorem counts_fail (cause : Cause) (position : Position) :
    Counts levels (fail cause position : Parse α) (fail cause position) :=
  fun s _ _ => .error _ s rfl

theorem counts_failHere (cause : Cause) :
    Counts levels (failHere cause : Parse α) (failHere cause) :=
  counts_bind (counts_look _) fun _ => counts_fail _ _

theorem counts_take? (kind : Kind) : Counts levels (take? kind) (take? kind) := by
  intro s depth _
  simp only [take?, State.withDepth]
  cases s.stream.take? kind with
  | none => exact .ok none s rfl
  | some r => exact .ok (some r.1) { s with stream := r.2 } rfl

theorem counts_accept (kind : Kind) : Counts levels (accept kind) (accept kind) :=
  counts_bind (counts_take? _) fun _ => counts_pure _

theorem counts_expect (kind : Kind) : Counts levels (expect kind) (expect kind) := by
  refine counts_bind (counts_take? _) fun t => ?_
  split
  · exact counts_pure _
  · exact counts_unexpected _

theorem counts_discard_expect (kind : Kind) :
    Counts levels (discard (expect kind)) (discard (expect kind)) := by
  have heq : discard (expect kind) = expect kind >>= fun _ => pure () := by
    show (fun _ => ()) <$> expect kind = _
    exact map_eq_pure_bind _ _
  rw [heq]
  exact counts_bind (counts_expect _) fun _ => counts_pure _

theorem counts_takeMeaning? (meaning? : Kind → Option α) :
    Counts levels (takeMeaning? meaning?) (takeMeaning? meaning?) := by
  rintro ⟨⟨_ | ⟨t, ts⟩, last⟩, events, open_⟩ depth -
  · exact .ok none _ rfl
  · simp only [takeMeaning?, State.withDepth]
    cases meaning? t.kind with
    | none => exact .ok none _ rfl
    | some a => exact .ok (some a) _ rfl

theorem counts_acceptElseLineIf : Counts levels acceptElseLineIf acceptElseLineIf := by
  intro s depth _
  simp only [acceptElseLineIf, State.withDepth]
  cases behindElseLineIf? s.stream.tokens with
  | none => exact .ok false s rfl
  | some rest => exact .ok true { s with stream := { s.stream with tokens := rest } } rfl

theorem counts_character : Counts levels character character := by
  refine counts_bind (counts_look _) fun start => counts_bind (counts_expect _) fun t => ?_
  split
  · exact counts_pure _
  · exact counts_fail _ _

theorem counts_condition {expression expression' : Parse Expr}
    (h : Counts levels expression expression') :
    Counts levels (condition expression) (condition expression') := by
  refine counts_bind (counts_look _) fun start => counts_bind h fun left =>
    counts_bind (counts_takeMeaning? _) fun op => ?_
  cases op with
  | some op => exact counts_bind h fun _ => counts_pure _
  | none =>
    cases left with
    | call => exact counts_pure _
    | var => exact counts_pure _
    | _ => exact counts_fail _ _

theorem counts_gatherUpTo {item? item?' : Parse (Option α)} (h : Counts levels item? item?') :
    ∀ rounds : Nat, CountsAll levels (gatherUpTo item? rounds) (gatherUpTo item?' rounds)
  | 0 => fun s _ _ => ⟨rfl, .ok () s rfl⟩
  | rounds + 1 => by
    intro s depth hs
    have hend := h s depth hs
    rw [gatherUpTo, gatherUpTo]
    generalize item? s = r at hend ⊢
    generalize item?' (s.withDepth depth) = r' at hend ⊢
    cases hend with
    | error d mid hmid => exact ⟨rfl, .error d mid hmid⟩
    | ok r mid hmid =>
      cases r with
      | none => exact ⟨rfl, .ok () mid hmid⟩
      | some a =>
        obtain ⟨hitems, hend⟩ := counts_gatherUpTo h rounds mid depth (by rw [hmid, hs])
        rw [hmid] at hend
        exact ⟨congrArg (a :: ·) hitems, hend⟩

theorem counts_after {first first' : Parse Unit} {g g' : Gather α}
    (hfirst : Counts levels first first') (h : CountsAll levels g g') :
    CountsAll levels (g.after first) (g'.after first') := by
  intro s depth hs
  have hend := hfirst s depth hs
  rw [Gather.after, Gather.after]
  generalize first s = r at hend ⊢
  generalize first' (s.withDepth depth) = r' at hend ⊢
  cases hend with
  | error d mid hmid => exact ⟨rfl, .error d mid hmid⟩
  | ok _ mid hmid =>
    obtain ⟨hitems, hend⟩ := h mid depth (by rw [hmid, hs])
    rw [hmid] at hend
    exact ⟨hitems, hend⟩

theorem counts_toParse {g g' : Gather α} (h : CountsAll levels g g') :
    Counts levels g.toParse g'.toParse := by
  intro s depth hs
  obtain ⟨hitems, hend⟩ := h s depth hs
  rw [Gather.toParse, Gather.toParse]
  generalize g s = r at hitems hend ⊢
  generalize g' (s.withDepth depth) = r' at hitems hend ⊢
  obtain ⟨items, ending⟩ := r
  obtain ⟨items', ending'⟩ := r'
  cases hitems
  cases hend with
  | ok _ mid hmid => exact .ok items mid hmid
  | error d mid hmid => exact .error d mid hmid

/-- Parsers that count, where so many levels are left, beside parsers that do not. -/
def counting (levels : Nat) : Comparison where
  Parsers := Counts levels
  Items := CountsAll levels
  pure := counts_pure
  bind := counts_bind
  nextKind? := counts_look _
  nextAre _ := counts_look _
  note _ := fun s _ _ => .ok () { s with events := _ } rfl
  unexpected := counts_unexpected
  failHere _ := counts_failHere _
  accept := counts_accept
  expect := counts_discard_expect
  text _ _ := counts_bind (counts_expect _) fun _ => counts_pure _
  value _ _ := counts_bind (counts_take? _) fun _ => counts_pure _
  takeMeaning? := counts_takeMeaning?
  skipNewlines := fun s _ _ => .ok () { s with stream := _ } rfl
  acceptElseLineIf := counts_acceptElseLineIf
  character := counts_character
  condition := counts_condition
  gather h := fun s depth hs => counts_gatherUpTo h _ s depth hs
  after := counts_after
  toParse := counts_toParse

/-! ## Levels of their own -/

theorem enterNesting_eq {s : State} (h : s.depth < maxNesting) :
    enterNesting s = .ok () (s.withDepth (s.depth + 1)) :=
  if_pos h

theorem enterNesting_tooDeep {s : State} (h : ¬s.depth < maxNesting) :
    enterNesting s = tooDeep s :=
  if_neg h

theorem within_apply (p : Parse α) (s : State) : within p s =
    match enterNesting s with
    | .ok () s => leaving (p s)
    | .error d s => .error d s := by
  show EStateM.bind enterNesting _ s = _
  unfold EStateM.bind
  cases enterNesting s <;> rfl

/-- Closing a level leaves the count as it was before the level was opened. -/
theorem SameBut.leaving {depth depth' : Nat} {r r' : EStateM.Result Diagnostic State α}
    (h : SameBut (depth + 1) depth' r r') : SameBut depth depth' (leaving r) r' := by
  cases h with
  | ok a s hs => exact .ok a s.leaveNesting (by rw [State.leaveNesting, hs, Nat.add_sub_cancel])
  | error d s hs =>
    exact .error d s.leaveNesting (by rw [State.leaveNesting, hs, Nat.add_sub_cancel])

/-- Within the level that is opened there is one level less left. -/
theorem counts_within {p q : Parse α} (h : Counts levels p q) :
    Counts (levels + 1) (within p) q := by
  intro s depth hs
  have hroom : s.depth < maxNesting := by omega
  have hend : SameBut (s.depth + 1) depth (p (s.withDepth (s.depth + 1))) (q (s.withDepth depth)) :=
    h (s.withDepth (s.depth + 1)) depth (by simp only [State.withDepth]; omega)
  rw [within_apply, enterNesting_eq hroom]
  exact hend.leaving

theorem countsAll_within {g g' : Gather α} (h : CountsAll levels g g') :
    CountsAll (levels + 1) g.within g' := by
  intro s depth hs
  have hroom : s.depth < maxNesting := by omega
  obtain ⟨hitems, hend⟩ :=
    h (s.withDepth (s.depth + 1)) depth (by simp only [State.withDepth]; omega)
  rw [Gather.within, Gather.after, enterNesting_eq hroom]
  exact ⟨hitems, hend.leaving⟩

/-- Without a level left nothing is opened. -/
theorem counts_within_tooDeep (p : Parse α) : Counts 0 (within p) tooDeep := by
  intro s depth hs
  rw [within_apply, enterNesting_tooDeep (by omega)]
  exact .error _ s rfl

theorem countsAll_within_tooDeep (g g' : Gather α) :
    CountsAll 0 g.within (g'.after tooDeep) := by
  intro s depth hs
  rw [Gather.within, Gather.after, enterNesting_tooDeep (by omega)]
  exact ⟨rfl, .error _ s rfl⟩

/-- What counts the levels opens what is left of them, as far as it is unrolled. -/
theorem unrolled_opens : ∀ times levels : Nat,
    (counting levels).Opens (.unrolled times) (nested (min times levels))
  | 0, levels => by
    rw [Nat.zero_min]
    exact (counting levels).closed
  | times + 1, 0 => by
    rw [Nat.min_zero]
    exact ⟨counts_within_tooDeep _, counts_within_tooDeep _,
      countsAll_within_tooDeep _ (gather (pure none)), counts_within_tooDeep _⟩
  | times + 1, levels + 1 => by
    have habove := (unrolled_opens times levels).above
    rw [Nat.succ_min_succ]
    exact ⟨counts_within habove.expression, counts_within habove.body,
      countsAll_within habove.methodBody, counts_within habove.elseIf⟩

end Parse

/-! ## Productions -/

/-- Of what can be opened, the production makes nothing but to open it. -/
def Uniform {α : Type} (production : Nested → Parse α) : Prop :=
  ∀ (C : Comparison) ⦃n n' : Nested⦄, C.Opens n n' → C.Parsers (production n) (production n')

theorem uniform_program : Uniform Parse.program :=
  fun _ _ _ h => h.program

section

variable {α : Type} {production : Nested → Parse α} (h : Uniform production)
include h

theorem Uniform.counts (times : Nat) (s : State) :
    SameBut s.depth s.depth (production (.unrolled times) s)
      (production (nested (min times (maxNesting - s.depth))) s) :=
  h (counting _) (unrolled_opens times _) s s.depth rfl

/-- A production that counts the levels does the same as one that has been given those that are
left, as far as it is unrolled. -/
theorem Uniform.unrolled_eq (times : Nat) (s : State) :
    production (.unrolled times) s =
      production (nested (min times (maxNesting - s.depth))) s := by
  have hend := h.counts times s
  generalize production (.unrolled times) s = r, production (nested _) s = r' at hend ⊢
  cases hend with
  | ok a s hs => rw [← hs]; rfl
  | error d s hs => rw [← hs]; rfl

theorem Uniform.eq_nested (s : State) :
    production .productions s = production (nested (maxNesting - s.depth)) s := by
  rw [Nested.productions, h.unrolled_eq, Nat.min_eq_right (Nat.sub_le _ _)]

/-- Unrolled any further than there can be levels, a production does the same. -/
theorem Uniform.unrolled_eq_productions (more : Nat) (s : State) :
    production (.unrolled (maxNesting + more)) s = production .productions s := by
  rw [h.unrolled_eq, Nat.min_eq_right (by omega), h.eq_nested]

/-- A run is one with the levels that are left. -/
theorem Parser.run_eq (p : Parser) : p.run production =
    match production (nested (maxNesting - p.depth)) p.state with
    | .ok a s => (.ok a, ⟨s⟩)
    | .error d s => (.error d, ⟨s⟩) := by
  rw [run, h.eq_nested]
  rfl

/-- Whatever a production returns, as many levels are open as before. -/
theorem Uniform.depth_restored (p : Parser) : (p.run production).2.depth = p.depth := by
  have hend : SameBut p.depth p.depth (production .productions p.state) _ :=
    h.counts maxNesting p.state
  rw [Parser.run]
  generalize production .productions p.state = r, production (nested _) p.state = r' at hend ⊢
  cases hend with
  | ok a s hs => exact hs
  | error d s hs => exact hs

end

/-! ## Whole lists of tokens -/

/-- The program that `tokens` are if there are so many levels of nesting. -/
def parseWithin (levels : Nat) (tokens : List Token) : Except Diagnostic Program :=
  match Parse.program (nested levels) ⟨Stream.ofList tokens, #[], 0⟩ with
  | .ok p _ => .ok p
  | .error d _ => .error d

theorem parseTokens_eq (tokens : List Token) :
    parseTokens tokens = parseWithin maxNesting tokens := by
  have hrun : Parse.program .productions ⟨Stream.ofList tokens, #[], 0⟩ =
      Parse.program (nested maxNesting) ⟨Stream.ofList tokens, #[], 0⟩ :=
    uniform_program.eq_nested _
  simp only [parseTokens, traceTokens, Parser.run, Parser.ofList, parseWithin, hrun]
  cases Parse.program (nested maxNesting) ⟨Stream.ofList tokens, #[], 0⟩ <;> rfl

end Offside
