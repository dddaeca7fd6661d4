import Offside.Proofs.Grammar

/-!
# Runs of parsers

What a successful run of a parser says about the lexemes it has taken, and how a run that
takes given lexemes is put together. For each of the basic parsers there is one lemma of
either kind: `x_ok` takes a successful run apart, and `takes_x` says that `x` runs through on
lexemes of a certain form (`Takes`). Neither events nor positions play a part in success.
-/

namespace Offside.Parse

open Grammar

variable {α β : Type}

/-- The lexemes still to be read. -/
def State.lexemes (s : State) : List Lexeme :=
  s.stream.tokens.map Token.lexeme

/-- Wherever `ls` stands to be read, `p` succeeds with `a` and leaves `rest`. -/
def Takes (p : Parse α) : Phrase α := fun ls a rest =>
  ∀ s : State, s.lexemes = ls → ∃ s', p s = .ok a s' ∧ s'.lexemes = rest

/-- Every success of `p` is a phrase of `R`. -/
def Sound (p : Parse α) (R : Phrase α) : Prop :=
  ∀ ⦃s a s'⦄, p s = .ok a s' → R s.lexemes a s'.lexemes

/-- A state that has the given lexemes still to be read. -/
def State.ofLexemes (ls : List Lexeme) : State :=
  ⟨⟨ls.map fun l => ⟨l.kind, Position.start, l.value⟩, Position.start⟩, #[], 0⟩

theorem State.lexemes_ofLexemes (ls : List Lexeme) : (State.ofLexemes ls).lexemes = ls := by
  simp [State.lexemes, State.ofLexemes, Function.comp_def, Token.lexeme]

/-- What a parser takes from given lexemes is determined by them. -/
theorem Takes.unique {p : Parse α} {ls rest rest' : List Lexeme} {a a' : α}
    (h : Takes p ls a rest) (h' : Takes p ls a' rest') : a = a' ∧ rest = rest' := by
  obtain ⟨s, hs, rfl⟩ := h _ (State.lexemes_ofLexemes ls)
  obtain ⟨s', hs', rfl⟩ := h' _ (State.lexemes_ofLexemes ls)
  rw [hs] at hs'
  cases hs'
  exact ⟨rfl, rfl⟩

/-! ## Sequences -/

theorem bind_ok {p : Parse α} {f : α → Parse β} {s s' : State} {b : β} :
    (p >>= f) s = .ok b s' ↔ ∃ a mid, p s = .ok a mid ∧ f a mid = .ok b s' := by
  show EStateM.bind p f s = _ ↔ _
  unfold EStateM.bind
  cases p s with
  | ok a mid =>
    constructor
    · exact fun h => ⟨a, mid, rfl, h⟩
    · rintro ⟨_, _, ⟨⟩, h⟩
      exact h
  | error d mid =>
    constructor
    · rintro ⟨⟩
    · rintro ⟨_, _, ⟨⟩, _⟩

theorem pure_ok {a b : α} {s s' : State} :
    (pure a : Parse α) s = .ok b s' ↔ a = b ∧ s = s' := by
  show EStateM.Result.ok a s = _ ↔ _
  simp

theorem discard_ok {p : Parse α} {s s' : State} {u : Unit} :
    (discard p) s = .ok u s' ↔ ∃ a, p s = .ok a s' := by
  show EStateM.map (fun _ => ()) p s = _ ↔ _
  unfold EStateM.map
  cases p s <;> simp

theorem takes_bind {p : Parse α} {f : α → Parse β} {ls mid rest : List Lexeme} {a : α} {b : β}
    (hp : Takes p ls a mid) (hf : Takes (f a) mid b rest) : Takes (p >>= f) ls b rest := by
  intro s hs
  obtain ⟨t, ht, htl⟩ := hp s hs
  obtain ⟨u, hu, hul⟩ := hf t htl
  exact ⟨u, bind_ok.mpr ⟨a, t, ht, hu⟩, hul⟩

theorem takes_pure (a : α) (ls : List Lexeme) : Takes (pure a) ls a ls :=
  fun s hs => ⟨s, rfl, hs⟩

theorem takes_note (e : Event) (ls : List Lexeme) : Takes (note e) ls () ls :=
  fun s hs => ⟨{ s with events := s.events.push e }, rfl, hs⟩

theorem note_ok {e : Event} {s s' : State} {u : Unit} (h : note e s = .ok u s') :
    s'.lexemes = s.lexemes := by
  cases h
  rfl

/-! ## Looking ahead -/

/-- Whether the lexemes begin with the given kinds. -/
def starts (kinds : List Kind) (ls : List Lexeme) : Bool :=
  (ls.take kinds.length).map Lexeme.kind == kinds

/-- The kind of the first lexeme. -/
def headKind? (ls : List Lexeme) : Option Kind :=
  ls.head?.map Lexeme.kind

theorem starts_of_headKind? {k : Kind} {ls : List Lexeme} (h : headKind? ls = some k) :
    starts [k] ls = true := by
  rcases ls with _ | ⟨l, ls⟩
  · cases h
  · simpa [starts, headKind?] using h

theorem starts_of_headKind?_ne {k : Kind} {ls : List Lexeme} (h : headKind? ls ≠ some k) :
    starts [k] ls = false := by
  rcases ls with _ | ⟨l, ls⟩
  · simp [starts]
  · simpa [starts, headKind?] using h

/-- Two names in a row are no name and a parenthesis. -/
theorem starts_word_other {ls : List Lexeme} (h : starts [.word, .word] ls = true) :
    starts [.word, .leftParen] ls = false := by
  rcases ls with _ | ⟨l, _ | ⟨l', ls⟩⟩
  · simp [starts]
  · simp [starts]
  · obtain ⟨-, hl⟩ : l.kind = .word ∧ l'.kind = .word := by simpa [starts] using h
    simp [starts, hl]

theorem startsWith_eq (s : State) (kinds : List Kind) :
    s.stream.startsWith kinds = starts kinds s.lexemes := by
  rw [Stream.startsWith, starts, State.lexemes, ← List.map_take, List.map_map]
  rfl

theorem look_ok {view : Stream → α} {s s' : State} {a : α} :
    look view s = .ok a s' ↔ a = view s.stream ∧ s' = s := by
  unfold look
  simp only [EStateM.Result.ok.injEq]
  exact and_congr eq_comm eq_comm

theorem nextAre_ok {kinds : List Kind} {s s' : State} {b : Bool} :
    nextAre kinds s = .ok b s' ↔ b = starts kinds s.lexemes ∧ s' = s := by
  rw [nextAre, look_ok, startsWith_eq]

theorem takes_nextAre (kinds : List Kind) (ls : List Lexeme) :
    Takes (nextAre kinds) ls (starts kinds ls) ls :=
  fun s hs => ⟨s, nextAre_ok.mpr ⟨by rw [hs], rfl⟩, hs⟩

theorem kind?_zero (s : State) : s.stream.kind? 0 = headKind? s.lexemes := by
  rw [Stream.kind?, Stream.peek?, headKind?, State.lexemes]
  cases s.stream.tokens <;> rfl

theorem nextKind?_ok {s s' : State} {k : Option Kind} :
    nextKind? s = .ok k s' ↔ k = headKind? s.lexemes ∧ s' = s := by
  rw [nextKind?, look_ok, kind?_zero]

theorem takes_nextKind? (ls : List Lexeme) : Takes nextKind? ls (headKind? ls) ls :=
  fun s hs => ⟨s, nextKind?_ok.mpr ⟨by rw [hs], rfl⟩, hs⟩

/-- The position that a parser looks up cannot decide whether it succeeds. -/
theorem takes_position_bind {f : Position → Parse β} {ls rest : List Lexeme} {b : β}
    (h : ∀ q, Takes (f q) ls b rest) : Takes (position >>= f) ls b rest := by
  intro s hs
  obtain ⟨t, ht, htl⟩ := h s.stream.position s hs
  exact ⟨t, bind_ok.mpr ⟨_, s, rfl, ht⟩, htl⟩

/-! ## Taking lexemes -/

theorem take?_ok {kind : Kind} {s s' : State} {r : Option Token} (h : take? kind s = .ok r s') :
    (r = none ∧ s' = s ∧ headKind? s.lexemes ≠ some kind) ∨
      ∃ t, r = some t ∧ t.kind = kind ∧ s.lexemes = t.lexeme :: s'.lexemes := by
  rcases s with ⟨⟨_ | ⟨t, ts⟩, last⟩, events, depth⟩
  · simp only [take?, Stream.take?] at h
    cases h
    exact Or.inl ⟨rfl, rfl, by simp [headKind?, State.lexemes]⟩
  · by_cases hk : t.kind = kind
    · simp only [take?, Stream.take?, hk, if_true] at h
      cases h
      exact Or.inr ⟨t, rfl, hk, rfl⟩
    · simp only [take?, Stream.take?, hk, if_false] at h
      cases h
      exact Or.inl ⟨rfl, rfl, by simpa [headKind?, State.lexemes, Token.lexeme] using hk⟩

theorem take?_hit {kind : Kind} {v : Option String} {rest : List Lexeme} (s : State)
    (hs : s.lexemes = ⟨kind, v⟩ :: rest) :
    ∃ t s', take? kind s = .ok (some t) s' ∧ t.lexeme = ⟨kind, v⟩ ∧ s'.lexemes = rest := by
  rcases s with ⟨⟨_ | ⟨t, ts⟩, last⟩, events, depth⟩
  · simp [State.lexemes] at hs
  · obtain ⟨ht, hts⟩ := List.cons.inj hs
    have hk : t.kind = kind := congrArg Lexeme.kind ht
    exact ⟨t, ⟨⟨ts, last⟩, events, depth⟩, by simp [take?, Stream.take?, hk], ht, hts⟩

theorem takes_take?_miss {kind : Kind} {ls : List Lexeme} (h : headKind? ls ≠ some kind) :
    Takes (take? kind) ls none ls := by
  intro s hs
  rcases s with ⟨⟨_ | ⟨t, ts⟩, last⟩, events, depth⟩
  · exact ⟨_, rfl, hs⟩
  · have hk : t.kind ≠ kind := by
      intro hk
      rw [← hs] at h
      exact h (congrArg some hk)
    exact ⟨⟨⟨t :: ts, last⟩, events, depth⟩, by simp [take?, Stream.take?, hk], hs⟩

theorem accept_ok {kind : Kind} {s s' : State} {b : Bool} (h : accept kind s = .ok b s') :
    (b = false ∧ s' = s ∧ headKind? s.lexemes ≠ some kind) ∨
      ∃ v, b = true ∧ s.lexemes = ⟨kind, v⟩ :: s'.lexemes := by
  obtain ⟨r, mid, hr, h⟩ := bind_ok.mp h
  obtain ⟨rfl, rfl⟩ := pure_ok.mp h
  rcases take?_ok hr with ⟨rfl, rfl, hk⟩ | ⟨t, rfl, rfl, hl⟩
  · exact Or.inl ⟨rfl, rfl, hk⟩
  · exact Or.inr ⟨t.value, rfl, hl⟩

theorem takes_accept (kind : Kind) (v : Option String) (rest : List Lexeme) :
    Takes (accept kind) (⟨kind, v⟩ :: rest) true rest := by
  intro s hs
  obtain ⟨t, s', ht, -, hl⟩ := take?_hit s hs
  exact ⟨s', bind_ok.mpr ⟨_, _, ht, rfl⟩, hl⟩

theorem takes_accept_miss {kind : Kind} {ls : List Lexeme} (h : headKind? ls ≠ some kind) :
    Takes (accept kind) ls false ls :=
  takes_bind (takes_take?_miss h) (takes_pure _ _)

theorem expect_ok {kind : Kind} {s s' : State} {t : Token} (h : expect kind s = .ok t s') :
    t.kind = kind ∧ s.lexemes = ⟨kind, t.value⟩ :: s'.lexemes := by
  obtain ⟨r, mid, hr, h⟩ := bind_ok.mp h
  rcases take?_ok hr with ⟨rfl, -, -⟩ | ⟨u, rfl, rfl, hl⟩
  · cases h
  · obtain ⟨rfl, rfl⟩ := pure_ok.mp h
    exact ⟨rfl, hl⟩

/-- The token is handed on, so the lemma is about what follows. -/
theorem takes_expect_bind {kind : Kind} {v : Option String} {ls rest : List Lexeme}
    {f : Token → Parse β} {b : β} (h : ∀ t, t.value = v → Takes (f t) ls b rest) :
    Takes (expect kind >>= f) (⟨kind, v⟩ :: ls) b rest := by
  intro s hs
  obtain ⟨t, s', ht, hv, hl⟩ := take?_hit s hs
  obtain ⟨u, hu, hul⟩ := h t (congrArg Lexeme.value hv) s' hl
  have hexpect : expect kind s = .ok t s' := bind_ok.mpr ⟨_, _, ht, rfl⟩
  exact ⟨u, bind_ok.mpr ⟨t, s', hexpect, hu⟩, hul⟩

theorem takes_expect (kind : Kind) (v : Option String) (rest : List Lexeme) :
    Takes (discard (expect kind)) (⟨kind, v⟩ :: rest) () rest := by
  intro s hs
  obtain ⟨t, s', ht, -, hl⟩ := take?_hit s hs
  exact ⟨s', discard_ok.mpr ⟨t, bind_ok.mpr ⟨_, _, ht, rfl⟩⟩, hl⟩

theorem discard_expect_ok {kind : Kind} {s s' : State} {u : Unit}
    (h : discard (expect kind) s = .ok u s') : ∃ v, s.lexemes = ⟨kind, v⟩ :: s'.lexemes := by
  obtain ⟨t, h⟩ := discard_ok.mp h
  exact ⟨t.value, (expect_ok h).2⟩

theorem word_sound : Sound word Word := by
  intro s x s' h
  obtain ⟨t, mid, ht, h⟩ := bind_ok.mp h
  obtain ⟨rfl, rfl⟩ := pure_ok.mp h
  rw [(expect_ok ht).2]
  exact .mk

theorem takes_word {ls rest : List Lexeme} {x : String} (h : Word ls x rest) :
    Takes word ls x rest := by
  obtain @⟨v, rest⟩ := h
  refine takes_expect_bind fun t ht => ?_
  rw [← ht]
  exact takes_pure _ _

theorem takeMeaning?_ok {meaning? : Kind → Option α} {s s' : State} {r : Option α}
    (h : takeMeaning? meaning? s = .ok r s') :
    (r = none ∧ s' = s) ∨
      ∃ k v a, r = some a ∧ meaning? k = some a ∧ s.lexemes = ⟨k, v⟩ :: s'.lexemes := by
  rcases s with ⟨⟨_ | ⟨t, ts⟩, last⟩, events, depth⟩
  · cases h
    exact Or.inl ⟨rfl, rfl⟩
  · cases hk : meaning? t.kind with
    | none =>
      simp only [takeMeaning?, hk] at h
      cases h
      exact Or.inl ⟨rfl, rfl⟩
    | some a =>
      simp only [takeMeaning?, hk] at h
      cases h
      exact Or.inr ⟨t.kind, t.value, a, rfl, hk, rfl⟩

theorem takes_takeMeaning? {meaning? : Kind → Option α} {k : Kind} {a : α}
    (h : meaning? k = some a) (v : Option String) (rest : List Lexeme) :
    Takes (takeMeaning? meaning?) (⟨k, v⟩ :: rest) (some a) rest := by
  intro s hs
  rcases s with ⟨⟨_ | ⟨t, ts⟩, last⟩, events, depth⟩
  · simp [State.lexemes] at hs
  · obtain ⟨ht, hts⟩ := List.cons.inj hs
    have hk : t.kind = k := congrArg Lexeme.kind ht
    exact ⟨⟨⟨ts, last⟩, events, depth⟩, by simp [takeMeaning?, hk, h], hts⟩

/-- None of the meanings `meaning?` gives belongs to the first lexeme. -/
def Meaningless (meaning? : Kind → Option α) (ls : List Lexeme) : Prop :=
  ∀ k, headKind? ls = some k → meaning? k = none

theorem takes_takeMeaning?_miss {meaning? : Kind → Option α} {ls : List Lexeme}
    (h : Meaningless meaning? ls) : Takes (takeMeaning? meaning?) ls none ls := by
  intro s hs
  rcases s with ⟨⟨_ | ⟨t, ts⟩, last⟩, events, depth⟩
  · exact ⟨_, rfl, hs⟩
  · have hk : meaning? t.kind = none := by
      rw [← hs] at h
      exact h t.kind rfl
    exact ⟨⟨⟨t :: ts, last⟩, events, depth⟩, by simp [takeMeaning?, hk], hs⟩

/-! ## Line ends -/

/-- What is left behind the line ends at the front. -/
def dropNewlines (ls : List Lexeme) : List Lexeme :=
  ls.dropWhile fun l => l.kind == .newline

theorem newlines_dropNewlines : ∀ ls : List Lexeme, Newlines ls (dropNewlines ls)
  | [] => .none
  | l :: ls => by
    rcases l with ⟨k, v⟩
    by_cases hk : k = .newline
    · subst hk
      exact .next (newlines_dropNewlines ls)
    · have : dropNewlines (⟨k, v⟩ :: ls) = ⟨k, v⟩ :: ls := by simp [dropNewlines, hk]
      rw [this]
      exact .none

theorem dropNewlines_of_newlines {ls rest : List Lexeme} (h : Newlines ls rest) :
    dropNewlines ls = dropNewlines rest := by
  induction h with
  | none => rfl
  | next _ ih => simpa [dropNewlines] using ih

theorem dropNewlines_of_head {ls : List Lexeme} (h : headKind? ls ≠ some .newline) :
    dropNewlines ls = ls := by
  rcases ls with _ | ⟨l, ls⟩
  · rfl
  · have hl : l.kind ≠ .newline := fun hl => h (congrArg some hl)
    simp [dropNewlines, hl]

theorem headKind?_dropNewlines (ls : List Lexeme) :
    headKind? (dropNewlines ls) ≠ some .newline := by
  induction ls with
  | nil => simp [dropNewlines, headKind?]
  | cons l ls ih =>
    by_cases hl : l.kind = .newline
    · simpa [dropNewlines, hl] using ih
    · simp [dropNewlines, hl, headKind?]

theorem dropNewlines_idem (ls : List Lexeme) :
    dropNewlines (dropNewlines ls) = dropNewlines ls :=
  dropNewlines_of_head (headKind?_dropNewlines ls)

/-- Line ends are taken up to something that is none. -/
theorem dropNewlines_eq {ls rest : List Lexeme} (h : Newlines ls rest)
    (hr : headKind? rest ≠ some .newline) : dropNewlines ls = rest := by
  rw [dropNewlines_of_newlines h, dropNewlines_of_head hr]

theorem takes_skipNewlines (ls : List Lexeme) : Takes skipNewlines ls () (dropNewlines ls) := by
  intro s hs
  refine ⟨_, rfl, ?_⟩
  rw [← hs, dropNewlines, State.lexemes, State.lexemes, List.dropWhile_map]
  rfl

theorem skipNewlines_ok {s s' : State} {u : Unit} (h : skipNewlines s = .ok u s') :
    s'.lexemes = dropNewlines s.lexemes := by
  obtain ⟨t, ht, hl⟩ := takes_skipNewlines s.lexemes s rfl
  rw [ht] at h
  cases h
  exact hl

theorem skipNewlines_newlines {s s' : State} {u : Unit} (h : skipNewlines s = .ok u s') :
    Newlines s.lexemes s'.lexemes := by
  rw [skipNewlines_ok h]
  exact newlines_dropNewlines _

theorem newlines_ok {s s' : State} {u : Unit} (h : newlines s = .ok u s') :
    ∃ v mid, s.lexemes = ⟨.newline, v⟩ :: mid ∧ Newlines mid s'.lexemes := by
  obtain ⟨_, mid, hmid, h⟩ := bind_ok.mp h
  obtain ⟨v, hv⟩ := discard_expect_ok hmid
  exact ⟨v, mid.lexemes, hv, skipNewlines_newlines h⟩

theorem takes_newlines (v : Option String) (ls : List Lexeme) :
    Takes newlines (⟨.newline, v⟩ :: ls) () (dropNewlines ls) :=
  takes_bind (takes_expect _ _ _) (takes_skipNewlines _)

theorem lineEnd_ok {s s' : State} {u : Unit} (h : lineEnd s = .ok u s') :
    LineEnd s.lexemes s'.lexemes := by
  obtain ⟨b, mid, hb, h₁⟩ := bind_ok.mp h
  rcases accept_ok hb with ⟨rfl, rfl, -⟩ | ⟨v, rfl, hl⟩
  · rw [if_neg Bool.false_ne_true] at h₁
    obtain ⟨b, _, hb, h₂⟩ := bind_ok.mp h₁
    obtain ⟨rfl, rfl⟩ := nextAre_ok.mp hb
    split at h₂
    · obtain ⟨-, rfl⟩ := pure_ok.mp h₂
      rcases hl : State.lexemes _ with _ | ⟨⟨k, v⟩, rest⟩
      · simp_all [starts]
      · obtain rfl : k = .dedent := by simp_all [starts]
        exact .dedent
    · cases h₂
  · obtain ⟨-, rfl⟩ := pure_ok.mp h₁
    rw [hl]
    exact .newline

theorem takes_lineEnd {ls rest : List Lexeme} (h : LineEnd ls rest) :
    Takes lineEnd ls () rest := by
  cases h with
  | newline => exact takes_bind (takes_accept _ _ _) (takes_pure _ _)
  | @dedent v rest =>
    refine takes_bind (takes_accept_miss (by simp [headKind?])) ?_
    refine takes_bind (takes_nextAre _ _) ?_
    have : starts [.dedent] (⟨.dedent, v⟩ :: rest) = true := by simp [starts]
    rw [this]
    exact takes_pure _ _

end Offside.Parse
