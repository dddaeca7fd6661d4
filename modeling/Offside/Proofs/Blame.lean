import Offside.Proofs.Levels
import Offside.Proofs.Repetition

/-!
# What a failure blames

A parser only takes tokens from the front of its stream, also if it fails (`Stream.Leads`), and
what a failure says is true of the stream that it leaves (`Diagnostic.Blames`): its position is
where that stream stands, the token it found is the head. Two failures look back, that of a
character literal without a character and that of a condition that is none; they blame a place
that was passed on the way, the first one the place of such a literal. `Reads` says this of a
parser, whether it succeeds or not. It holds of the parts of productions (`Parse.reading`), and so
of every production (`Uniform.reads`).
-/

namespace Offside

/-- What is left of `s` when tokens have been taken from its front. -/
structure Stream.Leads (s left : Stream) : Prop where
  tokens : left.tokens <:+ s.tokens
  last : left.last = s.last

namespace Stream.Leads

theorem refl (s : Stream) : s.Leads s :=
  ⟨List.suffix_rfl, rfl⟩

theorem trans {s t u : Stream} (h : s.Leads t) (h' : t.Leads u) : s.Leads u :=
  ⟨h'.tokens.trans h.tokens, h'.last.trans h.last⟩

/-- A stream stands at a token of those it comes from, or at their end. -/
theorem position {s left : Stream} (h : s.Leads left) :
    left.position ∈ s.tokens.map Token.position ∨ left.position = s.last := by
  rw [Stream.position]
  split
  · exact .inr h.last
  · next t rest ht =>
    exact .inl (List.mem_map_of_mem (h.tokens.subset (ht ▸ List.mem_cons_self)))

end Stream.Leads

/-- The head is a character literal without a character. -/
def Stream.AtEmptyCharacter (s : Stream) : Prop :=
  ∃ t ∈ s.tokens.head?, t.kind = .quotedCharacter ∧ t.text.toList = []

/-- What the diagnostic says holds of the stream `left`, which the failure leaves, or of one that
was passed since `start`. -/
def Diagnostic.Blames (d : Diagnostic) (start left : Stream) : Prop :=
  match d.cause with
  | .unexpectedToken _ found =>
    d.position = left.position ∧ left.tokens.head?.map (fun t => t.kind.name) = some found
  | .prematureEnd _ => d.position = left.position ∧ left.tokens = []
  | .unterminatedCharacter =>
    ∃ passed, start.Leads passed ∧ (passed.Leads left ∧ passed.AtEmptyCharacter) ∧
      d.position = passed.position
  | .expectedBooleanExpression _ =>
    ∃ passed, start.Leads passed ∧ passed.Leads left ∧ d.position = passed.position
  | _ => d.position = left.position

namespace Parse

/-- How reading on from `at` can end, if `start` is where the diagnostic may look back to. -/
def Ends {α : Type} (start here : Stream) : EStateM.Result Diagnostic State α → Prop
  | .ok _ s' => here.Leads s'.stream
  | .error d s' => here.Leads s'.stream ∧ d.Blames start s'.stream

/-- Behind `start` the parser only takes tokens from the front, and if it fails the diagnostic
says why. -/
def Reads {α : Type} (start : Stream) (p : Parse α) : Prop :=
  ∀ s : State, start.Leads s.stream → Ends start s.stream (p s)

/-- The same of reading items. -/
def ReadsAll {α : Type} (start : Stream) (g : Gather α) : Prop :=
  ∀ s : State, start.Leads s.stream → Ends start s.stream (g s).2

end Parse

theorem Diagnostic.Blames.mono {d : Diagnostic} {start here left : Stream}
    (h : d.Blames here left) (hstart : start.Leads here) : d.Blames start left := by
  unfold Blames at h ⊢
  split at h
  case h_3 | h_4 =>
    obtain ⟨passed, hpassed, hleft, hp⟩ := h
    exact ⟨passed, hstart.trans hpassed, hleft, hp⟩
  all_goals exact h

/-- A diagnostic stands at a place that was passed. -/
theorem Diagnostic.Blames.position {d : Diagnostic} {start left : Stream} (h : d.Blames start left)
    (hleft : start.Leads left) : ∃ passed, start.Leads passed ∧ d.position = passed.position := by
  unfold Blames at h
  split at h
  case h_1 | h_2 => exact ⟨left, hleft, h.1⟩
  case h_3 | h_4 =>
    obtain ⟨passed, hpassed, -, hp⟩ := h
    exact ⟨passed, hpassed, hp⟩
  case h_5 => exact ⟨left, hleft, h⟩

namespace Parse

variable {α β : Type} {start : Stream}

/-! ## Sequences -/

theorem Ends.trans {here mid : Stream} {r : EStateM.Result Diagnostic State α}
    (h : Ends start mid r) (hmid : here.Leads mid) : Ends start here r := by
  cases r with
  | ok a s' => exact hmid.trans h
  | error d s' => exact ⟨hmid.trans h.1, h.2⟩

theorem Ends.mono {here mid : Stream} {r : EStateM.Result Diagnostic State α}
    (h : Ends mid here r) (hstart : start.Leads mid) : Ends start here r := by
  cases r with
  | ok a s' => exact h
  | error d s' => exact ⟨h.1, h.2.mono hstart⟩

theorem reads_bind {p : Parse α} {f : α → Parse β} (hp : Reads start p)
    (hf : ∀ a, Reads start (f a)) : Reads start (p >>= f) := by
  intro s hs
  have hend := hp s hs
  show Ends start s.stream (EStateM.bind p f s)
  rw [EStateM.bind]
  cases hr : p s with
  | ok a mid =>
    rw [hr] at hend
    exact (hf a mid (hs.trans hend)).trans hend
  | error d s' =>
    rw [hr] at hend
    exact hend

theorem reads_pure (a : α) : Reads start (pure a : Parse α) :=
  fun s _ => .refl s.stream

theorem reads_discard {p : Parse α} (hp : Reads start p) : Reads start (discard p) := by
  intro s hs
  have hend := hp s hs
  show Ends start s.stream (EStateM.map (fun _ => ()) p s)
  rw [EStateM.map]
  cases hr : p s with
  | ok a s' =>
    rw [hr] at hend
    exact hend
  | error d s' =>
    rw [hr] at hend
    exact hend

/-- Where the stream stands a diagnostic may look back to. -/
theorem reads_position_bind {f : Position → Parse β}
    (hf : ∀ here, Reads here (f here.position)) : Reads start (position >>= f) :=
  fun s hs => (hf s.stream s (.refl s.stream)).mono hs

/-! ## Looking ahead, failing, and taking tokens -/

theorem reads_look (view : Stream → α) : Reads start (look view) :=
  fun s _ => .refl s.stream

theorem reads_note (e : Event) : Reads start (note e) :=
  fun s _ => .refl s.stream

theorem reads_unexpected (expected : List Kind) : Reads start (unexpected expected : Parse α) := by
  intro s _
  refine ⟨.refl s.stream, ?_⟩
  rw [Stream.unexpected]
  split
  · next ht => exact ⟨rfl, ht⟩
  · next t rest ht => exact ⟨rfl, by rw [ht]; rfl⟩

theorem reads_failHere {cause : Cause} (h : cause.ShowsHere) :
    Reads start (failHere cause : Parse α) := by
  refine fun s _ => ⟨.refl s.stream, ?_⟩
  cases cause <;> first | rfl | exact h.elim

/-- A failure may blame the place that it remembers. -/
theorem reads_fail {cause : Cause}
    (h : ∀ left : Stream, start.Leads left → Diagnostic.Blames ⟨cause, start.position⟩ start left) :
    Reads start (fail cause start.position : Parse α) :=
  fun s hs => ⟨.refl s.stream, h s.stream hs⟩

theorem reads_take? (kind : Kind) : Reads start (take? kind) := by
  intro s _
  rw [take?]
  split
  · next t rest ht =>
    obtain ⟨htokens, hlast, -⟩ := Stream.take?_eq_some_iff.mp ht
    exact ⟨⟨[t], htokens.symm⟩, hlast⟩
  · exact .refl s.stream

theorem reads_accept (kind : Kind) : Reads start (accept kind) :=
  reads_bind (reads_take? kind) fun _ => reads_pure _

theorem reads_expect (kind : Kind) : Reads start (expect kind) := by
  refine reads_bind (reads_take? kind) fun r => ?_
  split
  · exact reads_pure _
  · exact reads_unexpected _

/-- Where a character literal without a character has been taken, it was the head. -/
theorem atEmptyCharacter_of_expect {s s' : State} {t : Token}
    (h : expect .quotedCharacter s = .ok t s') (ht : t.text.toList = []) :
    s.stream.AtEmptyCharacter := by
  obtain ⟨-, hlexemes⟩ := expect_ok h
  obtain ⟨u, rest, hu, hul, -⟩ := List.map_eq_cons_iff.mp hlexemes
  have hvalue : u.value = t.value := congrArg Lexeme.value hul
  exact ⟨u, by rw [hu]; rfl, congrArg Lexeme.kind hul, by rwa [Token.text, hvalue]⟩

theorem reads_takeMeaning? (meaning? : Kind → Option α) : Reads start (takeMeaning? meaning?) := by
  intro s _
  rw [takeMeaning?]
  split
  · exact .refl s.stream
  · next t rest ht =>
    split
    · exact ⟨⟨[t], ht.symm⟩, rfl⟩
    · exact .refl s.stream

theorem reads_skipNewlines : Reads start skipNewlines :=
  fun _ _ => ⟨List.dropWhile_suffix _, rfl⟩

/-! ## Repetition -/

theorem reads_gatherUpTo {item? : Parse (Option α)} (h : Reads start item?) :
    ∀ rounds : Nat, ReadsAll start (gatherUpTo item? rounds)
  | 0 => fun s _ => .refl s.stream
  | rounds + 1 => by
    intro s hs
    have hend := h s hs
    rw [gatherUpTo]
    cases hr : item? s with
    | error d s' =>
      rw [hr] at hend
      exact hend
    | ok r mid =>
      rw [hr] at hend
      cases r with
      | none => exact hend
      | some a => exact (reads_gatherUpTo h rounds mid (hs.trans hend)).trans hend

theorem reads_gather {item? : Parse (Option α)} (h : Reads start item?) :
    ReadsAll start (gather item?) :=
  fun s hs => reads_gatherUpTo h _ s hs

theorem reads_toParse {g : Gather α} (h : ReadsAll start g) : Reads start g.toParse := by
  intro s hs
  have hend := h s hs
  rw [Gather.toParse]
  rcases hg : g s with ⟨items, ending | ending⟩ <;> rw [hg] at hend <;> exact hend

theorem reads_after {first : Parse Unit} {g : Gather α} (hfirst : Reads start first)
    (h : ReadsAll start g) : ReadsAll start (g.after first) := by
  intro s hs
  have hend := hfirst s hs
  rw [Gather.after]
  cases hr : first s with
  | ok u mid =>
    rw [hr] at hend
    exact (h mid (hs.trans hend)).trans hend
  | error d s' =>
    rw [hr] at hend
    exact hend

/-! ## Productions -/

theorem behindElseLineIf?_suffix {tokens rest : List Token}
    (h : behindElseLineIf? tokens = some rest) : rest <:+ tokens := by
  unfold behindElseLineIf? at h
  split at h
  · next first second behind =>
    split at h
    · split at h
      · next third rest' hdrop =>
        split at h
        · cases h
          have hbehind : third :: rest <:+ behind := hdrop ▸ List.dropWhile_suffix _
          exact (List.suffix_cons third rest).trans
            (hbehind.trans ((List.suffix_cons second _).trans (List.suffix_cons first _)))
        · cases h
      · cases h
    · cases h
  · cases h

theorem reads_acceptElseLineIf : Reads start acceptElseLineIf := by
  intro s _
  rw [acceptElseLineIf]
  split
  · next rest hrest => exact ⟨behindElseLineIf?_suffix hrest, rfl⟩
  · exact .refl s.stream

/-- The literal that is blamed is the token that has been taken, so what is remembered is more
than where it stands. -/
theorem reads_character : Reads start character := by
  intro s hs
  have hends := reads_expect .quotedCharacter s (.refl s.stream)
  refine Ends.mono ?_ hs
  show Ends s.stream s.stream (EStateM.bind (expect .quotedCharacter) _ s)
  rw [EStateM.bind]
  cases hr : expect .quotedCharacter s with
  | error d s' =>
    rw [hr] at hends
    exact hends
  | ok t mid =>
    rw [hr] at hends
    dsimp only
    cases htext : t.text.toList with
    | cons c cs => exact hends
    | nil =>
      exact ⟨hends, s.stream, .refl s.stream, ⟨hends, atEmptyCharacter_of_expect hr htext⟩, rfl⟩

theorem reads_condition {expression : Parse Expr} (hE : ∀ start, Reads start expression) :
    Reads start (condition expression) := by
  refine reads_position_bind fun here => reads_bind (hE _) fun left =>
    reads_bind (reads_takeMeaning? _) fun op => ?_
  split
  · exact reads_bind (hE _) fun _ => reads_pure _
  split
  · exact reads_pure _
  · exact reads_pure _
  · exact reads_fail fun left hleft => ⟨here, .refl here, hleft, rfl⟩

/-- Parsers that only read on; there is nothing to compare them with. -/
def reading : Comparison where
  Parsers p _ := ∀ start, Reads start p
  Items g _ := ∀ start, ReadsAll start g
  pure a _ := reads_pure a
  bind hp hf _ := reads_bind (hp _) fun a => hf a _
  nextKind? _ := reads_look _
  nextAre _ _ := reads_look _
  note event _ := reads_note event
  unexpected expected _ := reads_unexpected expected
  failHere h _ := reads_failHere h
  accept kind _ := reads_accept kind
  expect kind _ := reads_discard (reads_expect kind)
  text kind _ _ := reads_bind (reads_expect kind) fun _ => reads_pure _
  value kind _ _ := reads_bind (reads_take? kind) fun _ => reads_pure _
  takeMeaning? meaning? _ := reads_takeMeaning? meaning?
  skipNewlines _ := reads_skipNewlines
  acceptElseLineIf _ := reads_acceptElseLineIf
  character _ := reads_character
  condition hE _ := reads_condition hE
  gather h start := reads_gather (h start)
  after hfirst h start := reads_after (hfirst start) (h start)
  toParse h start := reads_toParse (h start)

end Parse

/-- Every production only reads on, and its failures blame what they should. -/
theorem Uniform.reads {α : Type} {production : Nested → Parse α} (h : Uniform production)
    (levels : Nat) (start : Stream) : Parse.Reads start (production (nested levels)) :=
  h Parse.reading (Parse.reading.nested levels) start

/-- Why tokens are no program is said of one of them, or of their end. -/
theorem blames_of_parseTokens_error {tokens : List Token} {d : Diagnostic}
    (h : parseTokens tokens = .error d) : ∃ left, (Stream.ofList tokens).Leads left ∧
      d.Blames (Stream.ofList tokens) left := by
  have hends := uniform_program.reads maxNesting _ ⟨Stream.ofList tokens, #[], 0⟩ (.refl _)
  rw [parseTokens_eq, parseWithin] at h
  split at h
  · cases h
  · next d' s hrun =>
    cases h
    rw [hrun] at hends
    exact ⟨s.stream, hends⟩

end Offside
