import Offside.Proofs.Congruence
import Offside.Proofs.Locality

/-!
# The order between kinds is not kept

A body is read as a list of items, and so are a class and a program. Each of them keeps its items
kind by kind, so their order matters only within a kind. What is moved are `Chunk`s: the lexemes
that one call of the production of an item takes, with the item. `Cut` says that a list of lexemes
consists of chunks, with nothing but empty lines between them, and `SameOrder` that two lists of
chunks differ only in the order between kinds.

A chunk that has all its line ends is read the same way wherever it stands (`Cut.reorder`). So
chunks that are moved are still read, one by one and as the same items, and the node made of them
is the same (`methodBody_reorder`, `classDecl_reorder`, `parseTokens_reorder`).
-/

namespace Offside.Grammar

open Parse

variable {α β : Type}

/-! ## Chunks -/

/-- The lexemes that a production takes for an item, with the item. -/
structure Chunk (α : Type) where
  /-- What is taken. -/
  lexemes : List Lexeme
  /-- What it is read as. -/
  item : α

/-- Chunks one after the other, each of which is read by `R` as its item in front of what
follows it. Empty lines may stand between them. -/
inductive Cut (R : Phrase α) : Phrase (List (Chunk α))
  | done {ls rest} : Newlines ls rest → Cut R ls [] rest
  | next {ls c more cs rest} : Newlines ls (c.lexemes ++ more) →
      R (c.lexemes ++ more) c.item more → Cut R more cs rest → Cut R ls (c :: cs) rest

/-- Chunks one after the other, however they are read. -/
abbrev AnyCut : Phrase (List (Chunk α)) :=
  Cut fun _ _ _ => True

/-- `ls` is `head`, and then the first block in it, which consists of chunks. -/
def Encloses (R : Phrase α) (head : List Lexeme) : Phrase (List (Chunk α)) := fun ls cs rest =>
  ∃ v w block, ls = head ++ ⟨.indent, v⟩ :: block ∧ (∀ l ∈ head, l.kind ≠ .indent) ∧
    Cut R block cs (⟨.dedent, w⟩ :: rest)

/-- The same chunks, of which those of one kind stand in the same order. -/
def SameOrder (kind : α → Nat) (cs cs' : List (Chunk α)) : Prop :=
  ∀ k, cs.filter (fun c => kind c.item = k) = cs'.filter fun c => kind c.item = k

section

variable {R S : Phrase α} {ls ls' rest rest' : List Lexeme} {cs cs' : List (Chunk α)}

theorem Cut.mono (h : Cut R ls cs rest) (hR : ∀ ⦃ls a rest⦄, R ls a rest → S ls a rest) :
    Cut S ls cs rest := by
  induction h with
  | done hn => exact .done hn
  | next hn ha _ ih => exact .next hn (hR ha) ih

theorem Encloses.forget {head : List Lexeme} (h : Encloses R head ls cs rest) :
    Encloses (fun _ _ _ => True) head ls cs rest := by
  obtain ⟨v, w, block, heq, hhead, hcs⟩ := h
  exact ⟨v, w, block, heq, hhead, hcs.mono fun _ _ _ _ => trivial⟩

/-- What is read as its item wherever it stands is read so also in another order. -/
theorem Cut.reorder (h : Cut R ls cs rest)
    (hR : ∀ c ∈ cs, ∀ more, R (c.lexemes ++ more) c.item more →
      ∀ behind, R (c.lexemes ++ behind) c.item behind)
    (hcs : cs' ⊆ cs) (h' : AnyCut ls' cs' rest') : Cut R ls' cs' rest' := by
  have hmoved : ∀ c ∈ cs, ∀ behind, R (c.lexemes ++ behind) c.item behind := by
    clear h' hcs
    induction h with
    | done => simp
    | next _ ha _ ih =>
      rw [List.forall_mem_cons] at hR ⊢
      exact ⟨hR.1 _ ha, ih hR.2⟩
  induction h' with
  | done hn => exact .done hn
  | next hn _ _ ih =>
    obtain ⟨hc, hcs⟩ := List.cons_subset.mp hcs
    exact .next hn (hmoved _ hc _) (ih hcs)

theorem Cut.lines {w : Option String} (h : Cut R ls cs (⟨.dedent, w⟩ :: rest)) :
    Lines R ls (cs.map Chunk.item) rest := by
  generalize hend : (⟨.dedent, w⟩ : Lexeme) :: rest = stop at h
  induction h with
  | done hn => exact .done (hend ▸ hn)
  | next hn ha _ ih => exact .next hn ha (ih hend)

/-- The items on the lines of a block are read of chunks. -/
theorem Lines.exists_cut (hR : Consumes R) {as : List α} (h : Lines R ls as rest) :
    ∃ cs w, Cut R ls cs (⟨.dedent, w⟩ :: rest) := by
  induction h with
  | @done _ w _ hn => exact ⟨[], w, .done hn⟩
  | @next _ _ a _ _ _ hn ha _ ih =>
    obtain ⟨cs, w, hcs⟩ := ih
    obtain ⟨front, rfl⟩ := (hR ha).1
    exact ⟨⟨front, a⟩ :: cs, w, .next hn ha hcs⟩

variable {kind : α → Nat}

theorem SameOrder.subset (h : SameOrder kind cs cs') : cs' ⊆ cs := by
  intro c hc
  have hfilter : c ∈ cs'.filter fun d => kind d.item = kind c.item :=
    List.mem_filter.mpr ⟨hc, by simp⟩
  rw [← h] at hfilter
  exact (List.mem_filter.mp hfilter).1

/-- What only the items of one kind contribute is the same. -/
theorem SameOrder.flatMap_eq (h : SameOrder kind cs cs') {k : Nat} {f : α → List β}
    (hf : ∀ a, kind a ≠ k → f a = []) :
    (cs.flatMap fun c => f c.item) = cs'.flatMap fun c => f c.item := by
  have hfilter : ∀ ds : List (Chunk α), ((ds.filter fun c => kind c.item = k).flatMap
      fun c => f c.item) = ds.flatMap fun c => f c.item := by
    intro ds
    induction ds with
    | nil => rfl
    | cons d ds ih =>
      by_cases hd : kind d.item = k
      · rw [List.filter_cons_of_pos (by simpa using hd), List.flatMap_cons, ih, List.flatMap_cons]
      · rw [List.filter_cons_of_neg (by simpa using hd), ih, List.flatMap_cons, hf _ hd,
          List.nil_append]
  rw [← hfilter, h, hfilter]

theorem SameOrder.filterMap_eq (h : SameOrder kind cs cs') {k : Nat} {f : α → Option β}
    (hf : ∀ a, kind a ≠ k → f a = none) :
    (cs.filterMap fun c => f c.item) = cs'.filterMap fun c => f c.item := by
  rw [List.filterMap_eq_flatMap_toList, List.filterMap_eq_flatMap_toList]
  refine h.flatMap_eq (k := k) (f := fun a => (f a).toList) fun a ha => ?_
  rw [hf a ha, Option.toList_none]

end

/-! ## The block of a body and of a class -/

/-- What the phrase takes starts no block. -/
def OpensNone (R : Phrase α) : Prop :=
  ∀ ⦃ls a rest⦄, R ls a rest → ∃ front, ls = front ++ rest ∧ ∀ l ∈ front, l.kind ≠ .indent

/-- What stands in front of the block of a body: empty lines. -/
def BodyHead : Phrase Unit := fun ls _ rest =>
  Newlines ls rest

theorem bodyHead_local : Local BodyHead :=
  fun _ _ _ h _ _ _ hswap => Newlines.swap h hswap

theorem bodyHead_opensNone : OpensNone BodyHead := by
  intro ls _ rest (h : Newlines ls rest)
  induction h with
  | none => exact ⟨[], rfl, by simp⟩
  | next _ ih =>
    obtain ⟨front, rfl, hfront⟩ := ih
    exact ⟨_ :: front, rfl, List.forall_mem_cons.mpr ⟨by simp, hfront⟩⟩

theorem word_opensNone : OpensNone Word := by
  rintro _ _ rest ⟨⟩
  exact ⟨[_], rfl, by simp⟩

theorem implemented_opensNone : OpensNone Implemented := by
  have hwords : OpensNone (Listed Word) := by
    intro ls xs rest h
    induction h with
    | one hx => exact word_opensNone hx
    | more hx _ ih =>
      cases hx
      obtain ⟨front, rfl, hfront⟩ := ih
      exact ⟨_ :: _ :: front, rfl, by simpa using hfront⟩
  intro ls xs rest h
  cases h with
  | none => exact ⟨[], rfl, by simp⟩
  | some h =>
    obtain ⟨front, rfl, hfront⟩ := hwords h
    exact ⟨_ :: front, rfl, by simpa using hfront⟩

/-- What stands in front of the block of a class, behind the keyword: the name, the interfaces and
the end of the line. -/
def ClassHead : Phrase (String × List String) := fun ls head rest =>
  ∃ start v mid, Word ls head.1 start ∧ Implemented start head.2 (⟨.newline, v⟩ :: mid) ∧
    Newlines mid rest

theorem classHead_opensNone : OpensNone ClassHead := by
  rintro ls ⟨x, xs⟩ rest ⟨start, v, mid, hx, hxs, hn⟩
  obtain ⟨name, rfl, hname⟩ := word_opensNone hx
  obtain ⟨names, rfl, hnames⟩ := implemented_opensNone hxs
  obtain ⟨front, rfl, hfront⟩ := bodyHead_opensNone (a := ()) hn
  refine ⟨name ++ names ++ ⟨.newline, v⟩ :: front, by simp, ?_⟩
  simp only [List.forall_mem_append, List.forall_mem_cons]
  exact ⟨⟨hname, hnames⟩, by simp, hfront⟩

theorem classHead_local : Local ClassHead := by
  rintro ls ⟨x, xs⟩ rest ⟨start, v, mid, hx, hxs, hn⟩ left new rest' hswap
  obtain ⟨mid', hn', hmid⟩ := hn.swap hswap
  obtain ⟨start', hxs', hstart⟩ := implemented_local hxs (.cons hmid)
  obtain ⟨ls', hx', hswap'⟩ := word_local hx hstart
  exact ⟨ls', ⟨start', v, mid', hx', hxs', hn'⟩, hswap'⟩

/-- A phrase that is read up to the first block is read so in front of every other block. -/
theorem reopen {R : Phrase α} (hlocal : Local R) (hnone : OpensNone R)
    {head block mid : List Lexeme} {a : α} {v w : Option String}
    (hhead : ∀ l ∈ head, l.kind ≠ .indent)
    (h : R (head ++ ⟨.indent, v⟩ :: block) a (⟨.indent, w⟩ :: mid)) (behind : List Lexeme) :
    R (head ++ behind) a behind := by
  have hfirst : ∀ {front : List Lexeme}, (∀ l ∈ front, l.kind ≠ .indent) →
      ∀ (u : Option String) (more : List Lexeme),
      (front ++ ⟨.indent, u⟩ :: more).dropWhile (fun l => l.kind ≠ .indent) =
        ⟨.indent, u⟩ :: more := by
    intro front hfront u more
    rw [List.dropWhile_append_of_pos (by simpa using hfront)]
    rfl
  obtain ⟨front, heq, hfront⟩ := hnone h
  have hblock := hfirst hhead v block
  rw [heq, hfirst hfront] at hblock
  rw [← hblock] at h
  exact hlocal.append h behind

/-- A block of chunks that have all their line ends is read chunk by chunk in another order too,
behind what is read in front of it. -/
theorem Encloses.reorder {item : Parse α} {R : Phrase α} (hitem : Sound item R)
    (hR : LineLocal R) {O : Phrase β} (hlocal : Local O) (hnone : OpensNone O)
    {head ls ls' mid rest rest' : List Lexeme} {cs cs' : List (Chunk α)} {b : β}
    {w : Option String} (hopen : O ls b (⟨.indent, w⟩ :: mid))
    (h : Encloses (Takes item) head ls cs rest) (hend : ∀ c ∈ cs, Ended c.lexemes)
    (hcs : cs' ⊆ cs) (h' : Encloses (fun _ _ _ => True) head ls' cs' rest') :
    ∃ v block, O ls' b (⟨.indent, v⟩ :: block) ∧ Lines R block (cs'.map Chunk.item) rest' := by
  obtain ⟨_, _, block, rfl, hhead, hblock⟩ := h
  obtain ⟨v, _, block', rfl, -, hblock'⟩ := h'
  have hread : Cut R block cs _ := hblock.mono fun _ _ _ ht => ht.sound hitem
  have hmoved := hread.reorder (fun c hc _ ha => hR.append ha (hend c hc)) hcs hblock'
  exact ⟨v, block', reopen hlocal hnone hhead hopen _, hmoved.lines⟩

end Offside.Grammar

namespace Offside

open Grammar

/-! ## What is made of the items -/

theorem MethodBody.ofItems_reorder {cs cs' : List (Chunk BodyItem)}
    (h : SameOrder BodyItem.ctorIdx cs cs') :
    MethodBody.ofItems (cs.map Chunk.item) = .ofItems (cs'.map Chunk.item) := by
  simp only [MethodBody.ofItems, List.flatMap_map, List.filterMap_map, Function.comp_def]
  rw [h.flatMap_eq (k := 0) (f := BodyItem.declared), h.filterMap_eq (k := 1)]
  · rintro (_ | _) hkind <;> first | rfl | exact absurd rfl hkind
  · rintro (_ | _) hkind <;> first | rfl | exact absurd rfl hkind

theorem Class.ofItems_reorder {cs cs' : List (Chunk ClassItem)}
    (h : SameOrder ClassItem.ctorIdx cs cs') (name : String) (interfaces : List String) :
    Class.ofItems name interfaces (cs.map Chunk.item) =
      .ofItems name interfaces (cs'.map Chunk.item) := by
  simp only [Class.ofItems, List.flatMap_map, List.filterMap_map, Function.comp_def]
  rw [h.filterMap_eq (k := 0) (f := ClassItem.constructor?),
    h.filterMap_eq (k := 1) (f := ClassItem.method?), h.flatMap_eq (k := 2)]
  · rintro (_ | _ | _) hkind <;> first | rfl | exact absurd rfl hkind
  · rintro (_ | _ | _) hkind <;> first | rfl | exact absurd rfl hkind
  · rintro (_ | _ | _) hkind <;> first | rfl | exact absurd rfl hkind

theorem Program.ofDeclarations_reorder {cs cs' : List (Chunk Declaration)}
    (h : SameOrder Declaration.ctorIdx cs cs') :
    Program.ofDeclarations (cs.map Chunk.item) = .ofDeclarations (cs'.map Chunk.item) := by
  simp only [Program.ofDeclarations, List.filterMap_map, Function.comp_def]
  rw [h.filterMap_eq (k := 0) (f := Declaration.class?), h.filterMap_eq (k := 1)]
  · rintro (_ | _) hkind <;> first | rfl | exact absurd rfl hkind
  · rintro (_ | _) hkind <;> first | rfl | exact absurd rfl hkind

end Offside

namespace Offside.Parse

open Grammar

variable {α β : Type}

/-! ## Every node consists of chunks -/

/-- What a parser that is blind to places takes in one run it takes wherever the same lexemes stand
to be read. -/
theorem sound_takes {p : Parse α} (h : Blind (fun _ _ => True) p) : Sound p (Takes p) := by
  intro s a s' hs t ht
  have htokens : List.Forall₂ (Token.Alike fun _ _ => True) s.stream.tokens t.stream.tokens := by
    have hlexemes : List.Forall₂ (· = ·) s.lexemes t.lexemes := by rw [ht, List.forall₂_eq_eq_eq]
    rw [State.lexemes, State.lexemes, List.forall₂_map_left_iff, List.forall₂_map_right_iff]
      at hlexemes
    exact hlexemes.imp fun _ _ heq => ⟨heq, trivial⟩
  have hend : EndsAlike _ (p s) (p t) := h ⟨htokens, trivial⟩
  rw [hs] at hend
  generalize hr : p t = r at hend
  cases hend with
  | ok _ hst => exact ⟨_, rfl, (lexemes_eq hst).symm⟩

theorem takes_of_run {α : Type} {p : Parse α} (hblind : Blind (fun _ _ => True) p)
    {ls rest : List Lexeme} {a : α}
    (h : ∃ s', p (State.ofLexemes ls) = .ok a s' ∧ s'.lexemes = rest) : Takes p ls a rest := by
  obtain ⟨s', hs, rfl⟩ := h
  have ht := sound_takes hblind hs
  rwa [State.lexemes_ofLexemes] at ht

/-- A block is the start of a block, chunks, and its end. -/
theorem block_encloses {item : Parse α} (hblind : Blind (fun _ _ => True) item)
    (hc : Consumes (Takes item)) {s s' : State} {as : List α} (h : block item s = .ok as s') :
    ∃ head cs, Encloses (Takes item) head s.lexemes cs s'.lexemes := by
  obtain @⟨_, v, _, _, _, hn, hl⟩ := block_sound (sound_takes hblind) hc h
  obtain ⟨head, heq, hhead⟩ := bodyHead_opensNone (a := ()) hn
  obtain ⟨cs, w, hcs⟩ := hl.exists_cut hc
  exact ⟨head, cs, v, w, _, heq, hhead, hcs⟩

/-- A production for an item that may be missing takes one. -/
def TakesSome (item? : Parse (Option α)) : Phrase α := fun ls a rest =>
  Takes item? ls (some a) rest

/-- A declaration behind empty lines. -/
def NextDeclaration (inner : Deeper) : Phrase Declaration := fun ls d rest =>
  DeclarationLine inner ls (some d) rest

/-- Declarations do not look at what stands behind them: each ends with the end of its block. -/
theorem nextDeclaration_local {inner : Deeper} (hi : inner.Local) :
    Local (NextDeclaration inner) := by
  intro ls d rest h left new rest' hswap
  cases h with
  | classDecl hn hc =>
    obtain ⟨start', hc', hstart⟩ := classDecl_local hi hc hswap
    obtain ⟨ls', hn', hswap'⟩ := hn.swap (.cons hstart)
    exact ⟨ls', .classDecl hn' hc', hswap'⟩
  | interfaceDecl hn hd =>
    obtain ⟨start', hd', hstart⟩ := interfaceDecl_local hd hswap
    obtain ⟨ls', hn', hswap'⟩ := hn.swap (.cons hstart)
    exact ⟨ls', .interfaceDecl hn' hd', hswap'⟩

theorem declarations_of_cut {inner : Deeper} {ls : List Lexeme} {cs : List (Chunk Declaration)}
    (h : Cut (NextDeclaration inner) ls cs []) :
    Declarations inner ls (cs.map Chunk.item) := by
  generalize hend : ([] : List Lexeme) = stop at h
  induction h with
  | done hn => exact .done (hend ▸ hn)
  | @next _ c _ _ _ hn hd _ ih =>
    refine Declarations.behind ?_ hn
    rw [List.map_cons]
    generalize c.item = d at hd
    cases hd with
    | classDecl hn hc => exact .classDecl hn hc (ih hend)
    | interfaceDecl hn hi => exact .interfaceDecl hn hi (ih hend)

theorem uniform_bodyItem : Uniform bodyItem :=
  fun _ _ _ h => h.bodyItem

theorem uniform_classItem : Uniform classItem :=
  fun _ _ _ h => h.classItem

theorem uniform_declaration? : Uniform declaration? :=
  fun _ _ _ h => h.declaration?

section

variable {room : Nat} {s s' : State}

theorem methodBody_encloses {body : MethodBody}
    (h : methodBody (nested (room + 1)) s = .ok body s') :
    ∃ head cs, Encloses (Takes (bodyItem (nested room))) head s.lexemes cs s'.lexemes := by
  obtain ⟨items, t, hitems, h₁⟩ := bind_ok.mp h
  obtain ⟨-, rfl⟩ := pure_ok.mp h₁
  have hi := deeper_consumes room
  exact block_encloses (uniform_bodyItem.blind room)
    (fun _ _ _ ht => item_consumes hi (ht.sound (bodyItem_sound (nested_sound room) hi))) hitems

theorem classDecl_encloses {c : Class} (h : classDecl (nested room) s = .ok c s') :
    ∃ head cs, Encloses (Takes (classItem (nested room))) head s.lexemes cs s'.lexemes := by
  obtain ⟨x, t, hx, h₁⟩ := bind_ok.mp h
  obtain ⟨xs, u, hxs, h₂⟩ := bind_ok.mp h₁
  obtain ⟨_, w, hw, h₃⟩ := bind_ok.mp h₂
  obtain ⟨items, y, hitems, h₄⟩ := bind_ok.mp h₃
  obtain ⟨_, z, hz, h₅⟩ := bind_ok.mp h₄
  obtain ⟨-, rfl⟩ := pure_ok.mp h₅
  obtain ⟨v, mid, hv, hn⟩ := newlines_ok hw
  have himplemented := implemented_sound hxs
  rw [hv] at himplemented
  have hopen : ClassHead s.lexemes (x, xs) w.lexemes :=
    ⟨_, _, _, word_sound hx, himplemented, hn⟩
  obtain ⟨front, hfront, hnone⟩ := classHead_opensNone hopen
  have hi := deeper_consumes room
  obtain ⟨head, cs, u', w', block, hblock, hhead, hcs⟩ :=
    block_encloses (uniform_classItem.blind room)
      (fun _ _ _ ht => classPart_consumes hi (ht.sound (classItem_sound (nested_sound room) hi)))
      hitems
  refine ⟨front ++ head, cs, u', w', block, ?_, ?_, by rwa [note_ok hz]⟩
  · rw [hfront, hblock, List.append_assoc]
  · exact List.forall_mem_append.mpr ⟨hnone, hhead⟩

/-- A program is chunks up to its end. -/
theorem declarations_cut {ds : List Declaration}
    (h : many (declaration? (nested room)) s = .ok ds s') :
    ∃ cs, Cut (TakesSome (declaration? (nested room))) s.lexemes cs [] := by
  have hsound := declaration?_sound (nested_sound room) (deeper_consumes room)
  have hu := many_sound (sound_takes (uniform_declaration?.blind room))
    (fun _ _ _ ht => declarationLine_shrinks (deeper_consumes room) (ht.sound hsound)) h
  clear h
  generalize s.lexemes = ls, s'.lexemes = stop at hu
  induction hu with
  | stop ht =>
    cases ht.sound hsound with
    | done hn => exact ⟨[], .done hn⟩
  | @next _ d _ _ _ ht _ ih =>
    obtain ⟨cs, hcs⟩ := ih
    obtain ⟨front, rfl⟩ := (declarationLine_left (deeper_consumes room) (ht.sound hsound)).1
    exact ⟨⟨front, d⟩ :: cs, .next .none ht hcs⟩

/-! ## Moved chunks -/

/-- Wherever the chunks of the first block behind `head` stand in another order that keeps the
order within each kind, the production reads `b` of it. -/
def ReadsInEveryOrder (node : Parse β) (kind : α → Nat) (head : List Lexeme)
    (cs : List (Chunk α)) (b : β) : Prop :=
  ∀ (cs' : List (Chunk α)) (t : State) (rest : List Lexeme), SameOrder kind cs cs' →
    Encloses (fun _ _ _ => True) head t.lexemes cs' rest →
    ∃ t', node t = .ok b t' ∧ t'.lexemes = rest

omit room in
/-- It is enough to read chunks that are moved in any way, if what is made of them does not depend
on the order between kinds. -/
theorem readsInEveryOrder_of_moved {node : Parse β} {kind : α → Nat} {head : List Lexeme}
    {cs : List (Chunk α)} {b : β} {R : Phrase α} (h : node s = .ok b s')
    (hcut : Encloses R head s.lexemes cs s'.lexemes) (make : List α → β)
    (hmake : ∀ {cs'}, SameOrder kind cs cs' →
      make (cs.map Chunk.item) = make (cs'.map Chunk.item))
    (hreads : ∀ (cs' : List (Chunk α)) (t : State) (rest : List Lexeme), cs' ⊆ cs →
      Encloses (fun _ _ _ => True) head t.lexemes cs' rest →
      ∃ t', node t = .ok (make (cs'.map Chunk.item)) t' ∧ t'.lexemes = rest) :
    b = make (cs.map Chunk.item) ∧ ReadsInEveryOrder node kind head cs b := by
  obtain ⟨u, hu, -⟩ := hreads cs s s'.lexemes (List.Subset.refl cs) hcut.forget
  rw [h] at hu
  cases hu
  refine ⟨rfl, fun cs' t rest hsame hlaid => ?_⟩
  rw [hmake hsame]
  exact hreads cs' t rest hsame.subset hlaid

theorem methodBody_reorder {body : MethodBody} {head : List Lexeme} {cs : List (Chunk BodyItem)}
    (h : methodBody (nested (room + 1)) s = .ok body s')
    (hcut : Encloses (Takes (bodyItem (nested room))) head s.lexemes cs s'.lexemes)
    (hend : ∀ c ∈ cs, Ended c.lexemes) :
    body = .ofItems (cs.map Chunk.item) ∧
      ReadsInEveryOrder (methodBody (nested (room + 1))) BodyItem.ctorIdx head cs body := by
  obtain ⟨items, ⟨hn, -⟩, -⟩ := methodBody_ok (nested_sound (room + 1)) h
  refine readsInEveryOrder_of_moved h hcut _ MethodBody.ofItems_reorder
    fun cs' t rest hcs hlaid => ?_
  obtain ⟨v, block, hopen, hlines⟩ := hcut.reorder
    (bodyItem_sound (nested_sound room) (deeper_consumes room)) (item_lineLocal (deeper_local room))
    bodyHead_local bodyHead_opensNone (b := ()) hn hend hcs hlaid
  exact takes_methodBody (nested_reads (room + 1)) (.mk hopen hlines) t rfl

theorem classDecl_reorder {c : Class} {head : List Lexeme} {cs : List (Chunk ClassItem)}
    (h : classDecl (nested room) s = .ok c s')
    (hcut : Encloses (Takes (classItem (nested room))) head s.lexemes cs s'.lexemes)
    (hend : ∀ d ∈ cs, Ended d.lexemes) :
    (∃ name interfaces, c = .ofItems name interfaces (cs.map Chunk.item)) ∧
      ReadsInEveryOrder (classDecl (nested room)) ClassItem.ctorIdx head cs c := by
  have hs := nested_sound room
  have hi := deeper_consumes room
  obtain @⟨_, x, _, xs, _, _, _, _, hx, hxs, ⟨hn, -⟩⟩ := classDecl_sound hs hi h
  obtain ⟨heq, hmoved⟩ := readsInEveryOrder_of_moved h hcut _
    (fun hsame => Class.ofItems_reorder hsame x xs) fun cs' t rest hcs hlaid => by
      obtain ⟨v, block, ⟨_, _, _, hx', hxs', hn'⟩, hlines⟩ :=
        hcut.reorder (classItem_sound hs hi) (classPart_lineLocal (deeper_local room))
          classHead_local classHead_opensNone (b := (x, xs)) ⟨_, _, _, hx, hxs, hn⟩ hend hcs hlaid
      exact takes_classDecl (nested_reads room) (.mk hx' hxs' (.mk hn' hlines)) t rfl
  exact ⟨⟨x, xs, heq⟩, hmoved⟩

end

end Offside.Parse

namespace Offside

open Grammar Parse

theorem parseTokens_cut {ts : List Token} {p : Program} (h : parseTokens ts = .ok p) :
    ∃ cs, Cut (TakesSome (declaration? (nested maxNesting))) (lexemesOf ts) cs [] := by
  rw [parseTokens_eq, parseWithin] at h
  split at h
  · next q s hrun =>
    obtain ⟨ds, t, hds, -⟩ := bind_ok.mp hrun
    exact declarations_cut hds
  · cases h

theorem parseTokens_reorder {ts : List Token} {p : Program} {cs : List (Chunk Declaration)}
    (h : parseTokens ts = .ok p)
    (hcut : Cut (TakesSome (declaration? (nested maxNesting))) (lexemesOf ts) cs []) :
    p = .ofDeclarations (cs.map Chunk.item) ∧
      ∀ (cs' : List (Chunk Declaration)) (ts' : List Token),
        SameOrder Declaration.ctorIdx cs cs' → AnyCut (lexemesOf ts') cs' [] →
        parseTokens ts' = .ok p := by
  have hsound := declaration?_sound (nested_sound maxNesting) (deeper_consumes maxNesting)
  have hread : Cut (NextDeclaration (deeper maxNesting)) (lexemesOf ts) cs [] :=
    hcut.mono fun _ _ _ (ht : Takes _ _ (some _) _) => ht.sound hsound
  have hreads : ∀ (cs' : List (Chunk Declaration)) (ts' : List Token), cs' ⊆ cs →
      AnyCut (lexemesOf ts') cs' [] →
      parseTokens ts' = .ok (.ofDeclarations (cs'.map Chunk.item)) := by
    intro cs' ts' hcs hlaid
    have hlocal := nextDeclaration_local (deeper_local maxNesting)
    have hmoved := hread.reorder (fun _ _ _ hc => hlocal.append hc) hcs hlaid
    exact parseTokens_of_derives ⟨_, declarations_of_cut hmoved, rfl⟩
  have hsame := hreads cs ts (List.Subset.refl cs) (hcut.mono fun _ _ _ _ => trivial)
  rw [h] at hsame
  cases hsame
  refine ⟨rfl, fun cs' ts' hsame hlaid => ?_⟩
  rw [Program.ofDeclarations_reorder hsame]
  exact hreads cs' ts' hsame.subset hlaid

/-! ## Bodies, classes and programs -/

/-- The order between kinds is immaterial. A body is chunks that are each read as one line of
declarations or as one statement, and its variables are those of the declarations, whatever stands
in the bodies of the statements; if the chunks have all their line ends, then they are the same
body in every other order that keeps the declarations and the statements in theirs. The same is
true of the members, constructors and methods of a class, and of the classes and interfaces of a
program, which always have all their line ends. -/
theorem order_between_kinds_immaterial :
    (∀ (room : Nat) (s s' : State) (body : MethodBody),
      methodBody (nested (room + 1)) s = .ok body s' →
      (∃ head cs, Encloses (Takes (bodyItem (nested room))) head s.lexemes cs s'.lexemes) ∧
      ∀ (head : List Lexeme) (cs : List (Chunk BodyItem)),
        Encloses (Takes (bodyItem (nested room))) head s.lexemes cs s'.lexemes →
        (∀ c ∈ cs, Ended c.lexemes) →
        body.locals = (cs.flatMap fun c => c.item.declared) ∧
        body.statements = (cs.filterMap fun c => c.item.statement?) ∧
        ReadsInEveryOrder (methodBody (nested (room + 1))) BodyItem.ctorIdx head cs body) ∧
    (∀ (room : Nat) (s s' : State) (c : Class), classDecl (nested room) s = .ok c s' →
      (∃ head cs, Encloses (Takes (classItem (nested room))) head s.lexemes cs s'.lexemes) ∧
      ∀ (head : List Lexeme) (cs : List (Chunk ClassItem)),
        Encloses (Takes (classItem (nested room))) head s.lexemes cs s'.lexemes →
        (∀ d ∈ cs, Ended d.lexemes) →
        c.members = (cs.flatMap fun d => d.item.declared) ∧
        c.constructors = (cs.filterMap fun d => d.item.constructor?) ∧
        c.methods = (cs.filterMap fun d => d.item.method?) ∧
        ReadsInEveryOrder (classDecl (nested room)) ClassItem.ctorIdx head cs c) ∧
    ∀ (ts : List Token) (p : Program), parseTokens ts = .ok p →
      (∃ cs, Cut (TakesSome (declaration? (nested maxNesting))) (lexemesOf ts) cs []) ∧
      ∀ cs : List (Chunk Declaration),
        Cut (TakesSome (declaration? (nested maxNesting))) (lexemesOf ts) cs [] →
        p.classes = (cs.filterMap fun d => d.item.class?) ∧
        p.interfaces = (cs.filterMap fun d => d.item.interface?) ∧
        ∀ (cs' : List (Chunk Declaration)) (ts' : List Token),
          SameOrder Declaration.ctorIdx cs cs' → AnyCut (lexemesOf ts') cs' [] →
          parseTokens ts' = .ok p := by
  refine ⟨?body, ?classDecl, ?program⟩
  case body =>
    intro room s s' body h
    refine ⟨methodBody_encloses h, fun head cs hcut hend => ?_⟩
    obtain ⟨rfl, hmoved⟩ := methodBody_reorder h hcut hend
    exact ⟨List.flatMap_map .., List.filterMap_map, hmoved⟩
  case classDecl =>
    intro room s s' c h
    refine ⟨classDecl_encloses h, fun head cs hcut hend => ?_⟩
    obtain ⟨⟨x, xs, rfl⟩, hmoved⟩ := classDecl_reorder h hcut hend
    exact ⟨List.flatMap_map .., List.filterMap_map, List.filterMap_map, hmoved⟩
  case program =>
    intro ts p h
    refine ⟨parseTokens_cut h, fun cs hcut => ?_⟩
    obtain ⟨rfl, hmoved⟩ := parseTokens_reorder h hcut
    exact ⟨List.filterMap_map, List.filterMap_map, hmoved⟩

/-- A line that declares a number. -/
def declarationChunk (name : String) : Chunk BodyItem :=
  ⟨[⟨.word, some "int"⟩, ⟨.word, some name⟩, ⟨.newline, none⟩], .locals [⟨"int", name, none⟩]⟩

/-- A condition with an empty body. -/
def conditionChunk : Chunk BodyItem :=
  ⟨[⟨.kwIf, none⟩, ⟨.word, some "x"⟩, ⟨.newline, none⟩, ⟨.indent, none⟩, ⟨.dedent, none⟩],
    .statement (.cond (.var "x") [] .nothing)⟩

/-- A line that declares a number as a member. -/
def memberChunk : Chunk ClassItem :=
  ⟨[⟨.word, some "int"⟩, ⟨.word, some "x"⟩, ⟨.newline, none⟩], .members [⟨"int", "x", none⟩]⟩

/-- A constructor with an empty body. -/
def constructorChunk : Chunk ClassItem :=
  ⟨[⟨.kwConstruct, none⟩, ⟨.leftParen, none⟩, ⟨.rightParen, none⟩, ⟨.newline, none⟩,
    ⟨.indent, none⟩, ⟨.dedent, none⟩], .constructor ⟨[], ⟨[], []⟩⟩⟩

/-- A class with an empty body. -/
def classChunk : Chunk Declaration :=
  ⟨[⟨.kwClass, none⟩, ⟨.word, some "A"⟩, ⟨.newline, none⟩, ⟨.indent, none⟩, ⟨.dedent, none⟩],
    .classDecl ⟨"A", [], [], [], []⟩⟩

/-- An interface without methods. -/
def interfaceChunk : Chunk Declaration :=
  ⟨[⟨.kwInterface, none⟩, ⟨.word, some "B"⟩, ⟨.newline, none⟩, ⟨.indent, none⟩, ⟨.dedent, none⟩],
    .interfaceDecl ⟨"B", []⟩⟩

/-- The start of a block, chunks, and the end of the block. -/
def enclosed {α : Type} (cs : List (Chunk α)) : List Lexeme :=
  ⟨.indent, none⟩ :: cs.flatMap Chunk.lexemes ++ [⟨.dedent, none⟩]

/-- The name of a class, and the end of its line. -/
def classLine : List Lexeme := [⟨.word, some "A"⟩, ⟨.newline, none⟩]

/-- The tokens of chunks that stand one behind the other. -/
def tokensOf {α : Type} (cs : List (Chunk α)) : List Token :=
  (State.ofLexemes (cs.flatMap Chunk.lexemes)).stream.tokens

/-- A condition in front of the declarations of its body instead of between them, a member in front
of a constructor instead of behind it, and so an interface and a class. -/
theorem order_between_kinds_immaterial_moved :
    (∃ body s' t', methodBody (nested 3) (State.ofLexemes (enclosed
        [declarationChunk "x", conditionChunk, declarationChunk "y"])) = .ok body s' ∧
      body.locals = [⟨"int", "x", none⟩, ⟨"int", "y", none⟩] ∧
      methodBody (nested 3) (State.ofLexemes (enclosed
        [conditionChunk, declarationChunk "x", declarationChunk "y"])) = .ok body t') ∧
    (∃ c s' t', classDecl (nested 3) (State.ofLexemes (classLine ++
        enclosed [constructorChunk, memberChunk])) = .ok c s' ∧
      c.members = [⟨"int", "x", none⟩] ∧
      classDecl (nested 3) (State.ofLexemes (classLine ++
        enclosed [memberChunk, constructorChunk])) = .ok c t') ∧
    ∃ p, parseTokens (tokensOf [classChunk, interfaceChunk]) = .ok p ∧
      p.interfaces = [⟨"B", []⟩] ∧ parseTokens (tokensOf [interfaceChunk, classChunk]) = .ok p := by
  obtain ⟨hbody, hclass, hprogram⟩ := order_between_kinds_immaterial
  refine ⟨?body, ?classDecl, ?program⟩
  case body =>
    have hitem := uniform_bodyItem.blind (R := fun _ _ => True) 2
    have hcut : Encloses (Takes (bodyItem (nested 2))) []
        (enclosed [declarationChunk "x", conditionChunk, declarationChunk "y"])
        [declarationChunk "x", conditionChunk, declarationChunk "y"] [] :=
      ⟨none, none, _, rfl, by simp, .next .none (takes_of_run hitem ⟨_, rfl, rfl⟩)
        (.next .none (takes_of_run hitem ⟨_, rfl, rfl⟩)
          (.next .none (takes_of_run hitem ⟨_, rfl, rfl⟩) (.done .none)))⟩
    have hend : ∀ c ∈ [declarationChunk "x", conditionChunk, declarationChunk "y"],
        Ended c.lexemes := by
      simp [Ended, declarationChunk, conditionChunk]
    have hmoved : SameOrder BodyItem.ctorIdx
        [declarationChunk "x", conditionChunk, declarationChunk "y"]
        [conditionChunk, declarationChunk "x", declarationChunk "y"] := by
      rintro (_ | _ | _) <;> rfl
    obtain ⟨-, hreads⟩ := hbody 2 (State.ofLexemes (enclosed
      [declarationChunk "x", conditionChunk, declarationChunk "y"])) _ _ rfl
    obtain ⟨hlocals, -, hreads⟩ := hreads [] _ hcut hend
    obtain ⟨t', ht, -⟩ := hreads _ (State.ofLexemes (enclosed
      [conditionChunk, declarationChunk "x", declarationChunk "y"])) [] hmoved
      ⟨none, none, _, rfl, by simp, .next .none trivial (.next .none trivial
        (.next .none trivial (.done .none)))⟩
    exact ⟨_, _, t', rfl, hlocals, ht⟩
  case classDecl =>
    have hitem := uniform_classItem.blind (R := fun _ _ => True) 3
    have hcut : Encloses (Takes (classItem (nested 3))) classLine
        (classLine ++ enclosed [constructorChunk, memberChunk])
        [constructorChunk, memberChunk] [] :=
      ⟨none, none, _, rfl, by simp [classLine], .next .none (takes_of_run hitem ⟨_, rfl, rfl⟩)
        (.next .none (takes_of_run hitem ⟨_, rfl, rfl⟩) (.done .none))⟩
    have hend : ∀ d ∈ [constructorChunk, memberChunk], Ended d.lexemes := by
      simp [Ended, constructorChunk, memberChunk]
    have hmoved : SameOrder ClassItem.ctorIdx [constructorChunk, memberChunk]
        [memberChunk, constructorChunk] := by
      rintro (_ | _ | _ | _) <;> rfl
    obtain ⟨-, hreads⟩ := hclass 3 (State.ofLexemes (classLine ++
      enclosed [constructorChunk, memberChunk])) _ _ rfl
    obtain ⟨hmembers, -, -, hreads⟩ := hreads classLine _ hcut hend
    obtain ⟨t', ht, -⟩ := hreads _ (State.ofLexemes (classLine ++
      enclosed [memberChunk, constructorChunk])) [] hmoved
      ⟨none, none, _, rfl, by simp [classLine], .next .none trivial (.next .none trivial
        (.done .none))⟩
    exact ⟨_, _, t', rfl, hmembers, ht⟩
  case program =>
    have hitem := uniform_declaration?.blind (R := fun _ _ => True) maxNesting
    have hcut : Cut (TakesSome (declaration? (nested maxNesting)))
        (lexemesOf (tokensOf [classChunk, interfaceChunk])) [classChunk, interfaceChunk] [] :=
      .next .none (takes_of_run hitem ⟨_, rfl, rfl⟩)
        (.next .none (takes_of_run hitem ⟨_, rfl, rfl⟩) (.done .none))
    have hmoved : SameOrder Declaration.ctorIdx [classChunk, interfaceChunk]
        [interfaceChunk, classChunk] := by
      rintro (_ | _ | _) <;> rfl
    obtain ⟨-, hreads⟩ := hprogram (tokensOf [classChunk, interfaceChunk]) _ rfl
    obtain ⟨-, hinterfaces, hreads⟩ := hreads _ hcut
    have ht := hreads _ (tokensOf [interfaceChunk, classChunk]) hmoved
      (.next .none trivial (.next .none trivial (.done .none)))
    exact ⟨_, rfl, hinterfaces, ht⟩

end Offside
