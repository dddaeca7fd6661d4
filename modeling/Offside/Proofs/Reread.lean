import Offside.Proofs.Canonical

/-!
# What a written program is read as

An `else` without a line under it goes on: what stands behind it, at the same depth, is read
as its statement. So a condition that ends in an empty `else` block (`Stmt.isOpen`) takes the
next statement of its list with it, and that statement may be open in turn. `Stmt.reread` is
the statement after this, `Stmt.isSolid` says when there is something to read in every other
body, and `Stmt.textLevels` counts the levels of the written form as it is read: a statement
that is taken stands as deep as the open `else` does (`Stmt.holeDepth`).

Where nothing is empty, nothing of this happens (`Program.reread_of_isFilled`), and where the
program is read as itself, no `else` was empty (`Program.isFilled_of_reread_eq`).
-/

namespace Offside

namespace Stmt

mutual

/-- Whether the written statement ends in an `else` with nothing under it. -/
def isOpen : Stmt → Bool
  | cond _ _ otherwise => otherwiseOpen otherwise
  | _ => false

/-- Whether the written `else` has nothing under it at its end. -/
def otherwiseOpen : Otherwise → Bool
  | .nothing => false
  | .single s => isOpen s
  | .block body => body.isEmpty

end

mutual

/-- How many conditions on the line of an `else` there are down to the open `else`. -/
def holeDepth : Stmt → Nat
  | cond _ _ otherwise => otherwiseDepth otherwise
  | _ => 0

/-- How many conditions on the line of an `else` there are down to the open `else`, from an
`else` on. -/
def otherwiseDepth : Otherwise → Nat
  | .single s => holeDepth s + s.isCond.toNat
  | _ => 0

end

mutual

/-- The open statement with `taken` behind its open `else`. -/
def fill (taken : Stmt) : Stmt → Stmt
  | cond condition body otherwise => cond condition body (fillOtherwise taken otherwise)
  | s => s

/-- What is done otherwise, with `taken` behind the open `else`. -/
def fillOtherwise (taken : Stmt) : Otherwise → Otherwise
  | .nothing => .nothing
  | .single s => .single (fill taken s)
  | .block _ => .single taken

end

mutual

/-- The statement as it is read when it is written. -/
def reread : Stmt → Stmt
  | cond condition body otherwise =>
    cond condition (rereadBody body) (rereadOtherwise otherwise)
  | loop variableName condition body => loop variableName condition (rereadBody body)
  | s => s

/-- The statements as they are read when they are written one after the other. -/
def rereadBody : List Stmt → List Stmt
  | [] => []
  | s :: rest =>
    match s.isOpen, rereadBody rest with
    | true, taken :: behind => fill taken (reread s) :: behind
    | _, behind => reread s :: behind

/-- What is done otherwise, as it is read when it is written. -/
def rereadOtherwise : Otherwise → Otherwise
  | .nothing => .nothing
  | .single s => .single (reread s)
  | .block body => .block (rereadBody body)

end

mutual

/-- Whether every body in the statement is read as a body: no body is empty, but for `else`
blocks with a statement to take behind them. -/
def isSolid : Stmt → Bool
  | assign _ _ | call _ _ => true
  | cond _ body otherwise => !body.isEmpty && solidBody body && otherwiseSolid otherwise
  | loop _ _ body => !body.isEmpty && solidBody body

/-- Whether every body in the statements is read as a body, with nothing behind the last. -/
def solidBody : List Stmt → Bool
  | [] => true
  | s :: rest => isSolid s && (!s.isOpen || !rest.isEmpty) && solidBody rest

/-- Whether every body behind the `else` is read as a body; an empty one is left open. -/
def otherwiseSolid : Otherwise → Bool
  | .nothing => true
  | .single s => isSolid s
  | .block body => solidBody body

end

mutual

/-- How many levels the written statement opens as it is read. -/
def textLevels : Stmt → Nat
  | cond condition body otherwise =>
    max condition.conditionLevels (max (linesLevels 0 body + 1) (otherwiseTextLevels otherwise))
  | loop _ condition body => max condition.conditionLevels (linesLevels 0 body + 1)
  | s => s.levels

/-- How many levels the written statements open as they are read, the first of them under
`above` conditions on lines of an `else`. -/
def linesLevels (above : Nat) : List Stmt → Nat
  | [] => 0
  | s :: rest =>
    max (above + textLevels s) (linesLevels (if s.isOpen then above + s.holeDepth else 0) rest)

/-- How many levels are opened behind the written `else`, as it is read. -/
def otherwiseTextLevels : Otherwise → Nat
  | .nothing => 0
  | .single s => textLevels s + s.isCond.toNat
  | .block body => linesLevels 0 body + 1

end

end Stmt

/-! ## Programs -/

/-- The body as it is read when it is written. -/
def MethodBody.reread (b : MethodBody) : MethodBody :=
  { b with statements := Stmt.rereadBody b.statements }

/-- Whether every body in it is read as a body, and there is something to read in itself. -/
def MethodBody.isSolid (b : MethodBody) : Bool :=
  b.isNonempty && Stmt.solidBody b.statements

/-- How many levels the written body opens as it is read, itself included. -/
def MethodBody.textLevels (b : MethodBody) : Nat :=
  max (largest VarDecl.levels b.locals) (Stmt.linesLevels 0 b.statements) + 1

/-- The constructor as it is read when it is written. -/
def Constructor.reread (c : Constructor) : Constructor :=
  { c with body := c.body.reread }

/-- The method as it is read when it is written. -/
def Method.reread (m : Method) : Method :=
  { m with body := m.body.reread }

/-- The class as it is read when it is written. -/
def Class.reread (c : Class) : Class :=
  { c with
    constructors := c.constructors.map Constructor.reread
    methods := c.methods.map Method.reread }

/-- Whether every body in it is read as a body, and there is something to read in itself. -/
def Class.isSolid (c : Class) : Bool :=
  c.isNonempty && c.constructors.all (fun k => k.body.isSolid) &&
    c.methods.all fun m => m.body.isSolid

/-- How many levels the written class opens as it is read. -/
def Class.textLevels (c : Class) : Nat :=
  max (largest VarDecl.levels c.members)
    (max (largest (fun k => k.body.textLevels) c.constructors)
      (largest (fun m => m.body.textLevels) c.methods))

/-- The program as it is read when it is written. -/
def Program.reread (p : Program) : Program :=
  { p with classes := p.classes.map Class.reread }

/-- Whether every class, interface and body of the written program is read as one: none is
empty, but for `else` blocks with a statement to take behind them. -/
def Program.isSolid (p : Program) : Bool :=
  p.classes.all Class.isSolid && p.interfaces.all fun i => !i.methods.isEmpty

/-- How many levels the written program opens as it is read. -/
def Program.textLevels (p : Program) : Nat :=
  largest Class.textLevels p.classes

/-! ## Where nothing is empty -/

namespace Stmt

theorem rereadBody_cons_closed {s : Stmt} (h : s.isOpen = false) (rest : List Stmt) :
    rereadBody (s :: rest) = s.reread :: rereadBody rest := by
  rw [rereadBody, h]

theorem rereadBody_cons_open {s taken : Stmt} {rest behind : List Stmt} (h : s.isOpen = true)
    (hrest : rereadBody rest = taken :: behind) :
    rereadBody (s :: rest) = fill taken s.reread :: behind := by
  rw [rereadBody, h, hrest]

theorem linesLevels_cons_closed {s : Stmt} (h : s.isOpen = false) (above : Nat)
    (rest : List Stmt) :
    linesLevels above (s :: rest) = max (above + s.textLevels) (linesLevels 0 rest) := by
  rw [linesLevels, h, if_neg (by simp)]

theorem linesLevels_cons_open {s : Stmt} (h : s.isOpen = true) (above : Nat)
    (rest : List Stmt) :
    linesLevels above (s :: rest) =
      max (above + s.textLevels) (linesLevels (above + s.holeDepth) rest) := by
  rw [linesLevels, if_pos h]

mutual

theorem isOpen_of_isFilled : ∀ {s : Stmt}, s.isFilled = true → s.isOpen = false
  | assign _ _, _ | call _ _, _ | loop _ _ _, _ => rfl
  | cond _ _ o, h => by
    rw [isFilled, Bool.and_eq_true] at h
    exact otherwiseOpen_of_otherwiseFilled h.2

theorem otherwiseOpen_of_otherwiseFilled :
    ∀ {o : Otherwise}, otherwiseFilled o = true → otherwiseOpen o = false
  | .nothing, _ => rfl
  | .single _, h => isOpen_of_isFilled h
  | .block body, h => by
    rw [otherwiseFilled, Bool.and_eq_true, Bool.not_eq_true'] at h
    exact h.1

end

mutual

/-- A statement without empty bodies is read as itself. -/
theorem reread_of_isFilled : ∀ {s : Stmt}, s.isFilled = true → s.reread = s
  | assign _ _, _ | call _ _, _ => rfl
  | cond c body o, h => by
    simp only [isFilled, Bool.and_eq_true] at h
    rw [reread, rereadBody_of_allFilled h.1.2, rereadOtherwise_of_otherwiseFilled h.2]
  | loop v c body, h => by
    simp only [isFilled, Bool.and_eq_true] at h
    rw [reread, rereadBody_of_allFilled h.2]

theorem rereadBody_of_allFilled :
    ∀ {body : List Stmt}, allFilled body = true → rereadBody body = body
  | [], _ => rfl
  | s :: rest, h => by
    rw [allFilled, Bool.and_eq_true] at h
    rw [rereadBody_cons_closed (isOpen_of_isFilled h.1), reread_of_isFilled h.1,
      rereadBody_of_allFilled h.2]

theorem rereadOtherwise_of_otherwiseFilled :
    ∀ {o : Otherwise}, otherwiseFilled o = true → rereadOtherwise o = o
  | .nothing, _ => rfl
  | .single _, h => by rw [rereadOtherwise, reread_of_isFilled h]
  | .block body, h => by
    rw [otherwiseFilled, Bool.and_eq_true] at h
    rw [rereadOtherwise, rereadBody_of_allFilled h.2]

end

mutual

theorem isSolid_of_isFilled : ∀ {s : Stmt}, s.isFilled = true → s.isSolid = true
  | assign _ _, _ | call _ _, _ => rfl
  | cond _ body o, h => by
    simp only [isFilled, Bool.and_eq_true] at h
    simp only [isSolid, Bool.and_eq_true]
    exact ⟨⟨h.1.1, solidBody_of_allFilled h.1.2⟩, otherwiseSolid_of_otherwiseFilled h.2⟩
  | loop _ _ body, h => by
    simp only [isFilled, Bool.and_eq_true] at h
    simp only [isSolid, Bool.and_eq_true]
    exact ⟨h.1, solidBody_of_allFilled h.2⟩

theorem solidBody_of_allFilled : ∀ {body : List Stmt}, allFilled body = true → solidBody body = true
  | [], _ => rfl
  | s :: rest, h => by
    rw [allFilled, Bool.and_eq_true] at h
    simp [solidBody, isSolid_of_isFilled h.1, isOpen_of_isFilled h.1, solidBody_of_allFilled h.2]

theorem otherwiseSolid_of_otherwiseFilled :
    ∀ {o : Otherwise}, otherwiseFilled o = true → otherwiseSolid o = true
  | .nothing, _ => rfl
  | .single _, h => isSolid_of_isFilled h
  | .block body, h => by
    rw [otherwiseFilled, Bool.and_eq_true] at h
    exact solidBody_of_allFilled h.2

end

mutual

/-- Where nothing is taken, nothing is deeper than it stands in the tree. -/
theorem textLevels_of_isFilled : ∀ {s : Stmt}, s.isFilled = true → s.textLevels = s.levels
  | assign _ _, _ | call _ _, _ => rfl
  | cond c body o, h => by
    simp only [isFilled, Bool.and_eq_true] at h
    rw [textLevels, levels, linesLevels_of_allFilled h.1.2,
      otherwiseTextLevels_of_otherwiseFilled h.2]
  | loop v c body, h => by
    simp only [isFilled, Bool.and_eq_true] at h
    rw [textLevels, levels, linesLevels_of_allFilled h.2]

theorem linesLevels_of_allFilled :
    ∀ {body : List Stmt}, allFilled body = true → linesLevels 0 body = bodyLevels body
  | [], _ => rfl
  | s :: rest, h => by
    rw [allFilled, Bool.and_eq_true] at h
    rw [linesLevels_cons_closed (isOpen_of_isFilled h.1), textLevels_of_isFilled h.1, bodyLevels,
      linesLevels_of_allFilled h.2, Nat.zero_add]

theorem otherwiseTextLevels_of_otherwiseFilled :
    ∀ {o : Otherwise}, otherwiseFilled o = true → otherwiseTextLevels o = otherwiseLevels o
  | .nothing, _ => rfl
  | .single _, h => by
    rw [otherwiseTextLevels, otherwiseLevels, textLevels_of_isFilled h]
  | .block body, h => by
    rw [otherwiseFilled, Bool.and_eq_true] at h
    rw [otherwiseTextLevels, otherwiseLevels, linesLevels_of_allFilled h.2]

end

/-! ## Where a program is read as itself -/

theorem rereadBody_ne_nil {body : List Stmt} (h : body ≠ []) : rereadBody body ≠ [] := by
  rcases body with _ | ⟨s, rest⟩
  · exact absurd rfl h
  · rw [rereadBody]
    split <;> simp

/-- Statements are taken, and none is added. -/
theorem length_rereadBody_le : ∀ body : List Stmt, (rereadBody body).length ≤ body.length
  | [] => Nat.le_refl 0
  | s :: rest => by
    have hrest := length_rereadBody_le rest
    rw [rereadBody]
    split
    · next taken behind hbehind =>
      rw [hbehind] at hrest
      simp only [List.length_cons] at hrest ⊢
      omega
    · simpa using hrest

/-- A statement that is taken is missing in its list. -/
theorem isOpen_of_rereadBody_eq {s : Stmt} {rest : List Stmt} (hrest : rest ≠ [])
    (h : rereadBody (s :: rest) = s :: rest) : s.isOpen = false := by
  cases hopen : s.isOpen with
  | false => rfl
  | true =>
    obtain ⟨taken, behind, hbehind⟩ := List.exists_cons_of_ne_nil (rereadBody_ne_nil hrest)
    have hle := length_rereadBody_le rest
    rw [rereadBody_cons_open hopen hbehind] at h
    have hlength := congrArg List.length h
    rw [hbehind] at hle
    simp only [List.length_cons] at hle hlength
    omega

mutual

/-- A closed statement that is read as itself has no empty body. -/
theorem isFilled_of_reread_eq : ∀ {s : Stmt}, s.isSolid = true → s.isOpen = false →
    s.reread = s → s.isFilled = true
  | assign _ _, _, _, _ | call _ _, _, _, _ => rfl
  | cond c body o, hsolid, hopen, h => by
    simp only [isSolid, Bool.and_eq_true] at hsolid
    simp only [reread, cond.injEq] at h
    simp only [isFilled, Bool.and_eq_true]
    exact ⟨⟨hsolid.1.1, allFilled_of_rereadBody_eq hsolid.1.2 h.2.1⟩,
      otherwiseFilled_of_rereadOtherwise_eq hsolid.2 hopen h.2.2⟩
  | loop v c body, hsolid, _, h => by
    simp only [isSolid, Bool.and_eq_true] at hsolid
    simp only [reread, loop.injEq] at h
    simp only [isFilled, Bool.and_eq_true]
    exact ⟨hsolid.1, allFilled_of_rereadBody_eq hsolid.2 h.2.2⟩

theorem allFilled_of_rereadBody_eq : ∀ {body : List Stmt}, solidBody body = true →
    rereadBody body = body → allFilled body = true
  | [], _, _ => rfl
  | s :: rest, hsolid, h => by
    simp only [solidBody, Bool.and_eq_true] at hsolid
    have hclosed : s.isOpen = false := by
      rcases rest with _ | ⟨t, rest⟩
      · simpa using hsolid.1.2
      · exact isOpen_of_rereadBody_eq (by simp) h
    rw [rereadBody_cons_closed hclosed, List.cons.injEq] at h
    simp only [allFilled, Bool.and_eq_true]
    exact ⟨isFilled_of_reread_eq hsolid.1.1 hclosed h.1,
      allFilled_of_rereadBody_eq hsolid.2 h.2⟩

theorem otherwiseFilled_of_rereadOtherwise_eq : ∀ {o : Otherwise}, otherwiseSolid o = true →
    otherwiseOpen o = false → rereadOtherwise o = o → otherwiseFilled o = true
  | .nothing, _, _, _ => rfl
  | .single s, hsolid, hopen, h => by
    rw [rereadOtherwise, Otherwise.single.injEq] at h
    exact isFilled_of_reread_eq hsolid hopen h
  | .block body, hsolid, hopen, h => by
    rw [rereadOtherwise, Otherwise.block.injEq] at h
    simp only [otherwiseFilled, Bool.and_eq_true, Bool.not_eq_true']
    exact ⟨hopen, allFilled_of_rereadBody_eq hsolid h⟩

end

end Stmt

/-! ## Programs that are read as themselves -/

theorem map_eq_self {α : Type} {f : α → α} {items : List α} :
    items.map f = items ↔ ∀ a ∈ items, f a = a := by
  have hid : items.map f = items.map id ↔ _ := List.map_inj_left
  rwa [List.map_id] at hid

theorem largest_congr {α : Type} {size size' : α → Nat} :
    ∀ {items : List α}, (∀ a ∈ items, size a = size' a) →
      largest size items = largest size' items
  | [], _ => rfl
  | a :: items, h => by
    have hrest : largest size items = largest size' items :=
      largest_congr fun b hb => h b (List.mem_cons_of_mem a hb)
    show max (size a) (largest size items) = max (size' a) (largest size' items)
    rw [h a (by simp), hrest]

namespace MethodBody

variable {b : MethodBody}

theorem reread_of_isFilled (h : b.isFilled = true) : b.reread = b := by
  rw [isFilled, Bool.and_eq_true] at h
  rw [reread, Stmt.rereadBody_of_allFilled h.2]

theorem isSolid_of_isFilled (h : b.isFilled = true) : b.isSolid = true := by
  rw [isFilled, Bool.and_eq_true] at h
  rw [isSolid, Bool.and_eq_true]
  exact ⟨h.1, Stmt.solidBody_of_allFilled h.2⟩

theorem textLevels_of_isFilled (h : b.isFilled = true) : b.textLevels = b.levels := by
  rw [isFilled, Bool.and_eq_true] at h
  rw [textLevels, levels, Stmt.linesLevels_of_allFilled h.2]

theorem isFilled_of_reread_eq (hsolid : b.isSolid = true) (h : b.reread = b) :
    b.isFilled = true := by
  rw [isSolid, Bool.and_eq_true] at hsolid
  rw [isFilled, Bool.and_eq_true]
  exact ⟨hsolid.1, Stmt.allFilled_of_rereadBody_eq hsolid.2 (congrArg statements h)⟩

end MethodBody

namespace Class

variable {c : Class}

theorem reread_of_isFilled (h : c.isFilled = true) : c.reread = c := by
  simp only [isFilled, Bool.and_eq_true, List.all_eq_true] at h
  have hconstructors : c.constructors.map Constructor.reread = c.constructors :=
    map_eq_self.mpr fun k hk => by
      rw [Constructor.reread, MethodBody.reread_of_isFilled (h.1.2 k hk)]
  have hmethods : c.methods.map Method.reread = c.methods :=
    map_eq_self.mpr fun m hm => by
      rw [Method.reread, MethodBody.reread_of_isFilled (h.2 m hm)]
  rw [reread, hconstructors, hmethods]

theorem isSolid_of_isFilled (h : c.isFilled = true) : c.isSolid = true := by
  simp only [isFilled, Bool.and_eq_true, List.all_eq_true] at h
  simp only [isSolid, Bool.and_eq_true, List.all_eq_true]
  exact ⟨⟨h.1.1, fun k hk => MethodBody.isSolid_of_isFilled (h.1.2 k hk)⟩,
    fun m hm => MethodBody.isSolid_of_isFilled (h.2 m hm)⟩

theorem textLevels_of_isFilled (h : c.isFilled = true) : c.textLevels = c.levels := by
  simp only [isFilled, Bool.and_eq_true, List.all_eq_true] at h
  rw [textLevels, levels,
    largest_congr fun k hk => MethodBody.textLevels_of_isFilled (h.1.2 k hk),
    largest_congr fun m hm => MethodBody.textLevels_of_isFilled (h.2 m hm)]

theorem isFilled_of_reread_eq (hsolid : c.isSolid = true) (h : c.reread = c) :
    c.isFilled = true := by
  simp only [isSolid, Bool.and_eq_true, List.all_eq_true] at hsolid
  simp only [isFilled, Bool.and_eq_true, List.all_eq_true]
  have hconstructors : c.constructors.map Constructor.reread = c.constructors :=
    congrArg constructors h
  have hmethods : c.methods.map Method.reread = c.methods := congrArg methods h
  refine ⟨⟨hsolid.1.1, fun k hk => ?_⟩, fun m hm => ?_⟩
  · have hk' := congrArg Constructor.body (map_eq_self.mp hconstructors k hk)
    exact MethodBody.isFilled_of_reread_eq (hsolid.1.2 k hk) hk'
  · have hm' := congrArg Method.body (map_eq_self.mp hmethods m hm)
    exact MethodBody.isFilled_of_reread_eq (hsolid.2 m hm) hm'

end Class

namespace Program

variable {p : Program}

/-- A program without empty bodies is read as itself. -/
theorem reread_of_isFilled (h : p.isFilled = true) : p.reread = p := by
  simp only [isFilled, Bool.and_eq_true, List.all_eq_true] at h
  have hclasses : p.classes.map Class.reread = p.classes :=
    map_eq_self.mpr fun c hc => Class.reread_of_isFilled (h.1 c hc)
  rw [reread, hclasses]

theorem isSolid_of_isFilled (h : p.isFilled = true) : p.isSolid = true := by
  simp only [isFilled, Bool.and_eq_true, List.all_eq_true] at h
  simp only [isSolid, Bool.and_eq_true, List.all_eq_true]
  exact ⟨fun c hc => Class.isSolid_of_isFilled (h.1 c hc), h.2⟩

theorem textLevels_of_isFilled (h : p.isFilled = true) : p.textLevels = p.levels := by
  simp only [isFilled, Bool.and_eq_true, List.all_eq_true] at h
  rw [textLevels, levels, largest_congr fun c hc => Class.textLevels_of_isFilled (h.1 c hc)]

/-- A program that is read as itself has no empty body. -/
theorem isFilled_of_reread_eq (hsolid : p.isSolid = true) (h : p.reread = p) :
    p.isFilled = true := by
  simp only [isSolid, Bool.and_eq_true, List.all_eq_true] at hsolid
  simp only [isFilled, Bool.and_eq_true, List.all_eq_true]
  have hclasses : p.classes.map Class.reread = p.classes := congrArg classes h
  exact ⟨fun c hc => Class.isFilled_of_reread_eq (hsolid.1 c hc)
    (map_eq_self.mp hclasses c hc), hsolid.2⟩

end Program

end Offside
