import Offside.Proofs.Canonical

/-!
# The names in a program

All names that a tree holds, each as often as it stands there: of what is declared, of types, of
what is assigned to, used and called. The texts of literals are none. In a tree that can be
written every one of them is an identifier (`Program.all_names`).
-/

namespace Offside

/-- A name that may be missing is an identifier if it is there. -/
theorem all_toList (name : Option String) :
    name.toList.all isIdentifier = name.all isIdentifier := by
  cases name <;> simp

/-! ## Expressions -/

namespace Expr

mutual

/-- The names in the expression. -/
def names : Expr → List String
  | number _ | string _ | character _ | boolean _ => []
  | var name => [name]
  | call receiver method arguments => receiver.toList ++ method :: allNames arguments
  | math _ left right | compare _ left right | logic _ left right => names left ++ names right
  | not operand => names operand
  | new typeName arguments => typeName :: allNames arguments

/-- The names in the expressions. -/
def allNames : List Expr → List String
  | [] => []
  | e :: rest => names e ++ allNames rest

end

mutual

theorem all_names : ∀ {e : Expr}, e.isCanonical = true → e.names.all isIdentifier = true
  | number _, _ | string _, _ | character _, _ => rfl
  | var _, h => by simpa [names, isCanonical] using h
  | call receiver _ arguments, h => by
    simp only [isCanonical, Bool.and_eq_true] at h
    simp [names, all_toList, h.1, all_allNames h.2]
  | math _ left right, h => by
    simp only [isCanonical, Bool.and_eq_true] at h
    simp [names, all_names h.1, all_names h.2]
  | new _ arguments, h => by
    simp only [isCanonical, Bool.and_eq_true] at h
    simp [names, h.1, all_allNames h.2]
  | boolean _, h | compare _ _ _, h | logic _ _ _, h | not _, h => by cases h

theorem all_allNames : ∀ {es : List Expr}, allCanonical es = true →
    (allNames es).all isIdentifier = true
  | [], _ => rfl
  | e :: rest, h => by
    simp only [allCanonical, Bool.and_eq_true] at h
    simp [allNames, all_names h.1, all_allNames h.2]

end

theorem all_names_of_isCondition {e : Expr} (h : e.isCondition = true) :
    e.names.all isIdentifier = true := by
  cases e with
  | var name => exact @all_names (.var name) h
  | call receiver method arguments => exact @all_names (.call receiver method arguments) h
  | compare op left right =>
    simp only [isCondition, Bool.and_eq_true] at h
    simp [names, all_names h.1, all_names h.2]
  | _ => cases h

end Expr

/-! ## Statements -/

namespace Stmt

mutual

/-- The names in the statement. -/
def names : Stmt → List String
  | assign targets value => targets ++ value.names
  | call targets c => targets.getD [] ++ c.toExpr.names
  | cond condition body otherwise => condition.names ++ bodyNames body ++ otherwiseNames otherwise
  | loop variableName condition body =>
    variableName.toList ++ condition.names ++ bodyNames body

/-- The names in the statements. -/
def bodyNames : List Stmt → List String
  | [] => []
  | s :: rest => names s ++ bodyNames rest

/-- The names in what is done otherwise. -/
def otherwiseNames : Otherwise → List String
  | .nothing => []
  | .single s => names s
  | .block body => bodyNames body

end

theorem all_targets {targets : Option (List String)} (h : targets.all areTargets = true) :
    (targets.getD []).all isIdentifier = true := by
  cases targets with
  | none => rfl
  | some names =>
    simp only [Option.all_some, areTargets, Bool.and_eq_true] at h
    exact h.2

mutual

theorem all_names : ∀ {s : Stmt}, s.isCanonical = true → s.names.all isIdentifier = true
  | assign _ _, h => by
    simp only [isCanonical, areTargets, Bool.and_eq_true] at h
    simp [names, h.1.1.2, Expr.all_names h.1.2]
  | call _ _, h => by
    simp only [isCanonical, Bool.and_eq_true] at h
    simp [names, all_targets h.1, Expr.all_names h.2]
  | cond _ body otherwise, h => by
    simp only [isCanonical, Bool.and_eq_true] at h
    simp [names, Expr.all_names_of_isCondition h.1.1, all_bodyNames h.1.2,
      all_otherwiseNames h.2]
  | loop _ _ body, h => by
    simp only [isCanonical, Bool.and_eq_true] at h
    simp [names, all_toList, h.1.1, Expr.all_names_of_isCondition h.1.2,
      all_bodyNames h.2]

theorem all_bodyNames : ∀ {body : List Stmt}, allCanonical body = true →
    (bodyNames body).all isIdentifier = true
  | [], _ => rfl
  | s :: rest, h => by
    simp only [allCanonical, Bool.and_eq_true] at h
    simp [bodyNames, all_names h.1, all_bodyNames h.2]

theorem all_otherwiseNames : ∀ {o : Otherwise}, otherwiseCanonical o = true →
    (otherwiseNames o).all isIdentifier = true
  | .nothing, _ => rfl
  | .single s, h => @all_names s h
  | .block body, h => @all_bodyNames body h

end

end Stmt

/-! ## Declarations -/

/-- The names in the declaration. -/
def VarDecl.names (d : VarDecl) : List String :=
  d.typeName :: d.name :: (d.initializer.map Expr.names).getD []

/-- The names in the returned value. -/
def ReturnDecl.names (r : ReturnDecl) : List String :=
  r.typeName :: r.name.toList

/-- The names in the header. -/
def MethodHeader.names (h : MethodHeader) : List String :=
  h.name :: (h.parameters.flatMap VarDecl.names ++ h.returns.flatMap ReturnDecl.names)

/-- The names in the interface. -/
def Interface.names (i : Interface) : List String :=
  i.name :: i.methods.flatMap MethodHeader.names

/-- The names in the body. -/
def MethodBody.names (b : MethodBody) : List String :=
  b.locals.flatMap VarDecl.names ++ Stmt.bodyNames b.statements

/-- The names in the constructor. -/
def Constructor.names (c : Constructor) : List String :=
  c.parameters.flatMap VarDecl.names ++ c.body.names

/-- The names in the method. -/
def Method.names (m : Method) : List String :=
  m.header.names ++ m.body.names

/-- The names in the class. -/
def Class.names (c : Class) : List String :=
  c.name :: (c.interfaces ++ c.constructors.flatMap Constructor.names ++
    c.methods.flatMap Method.names ++ c.members.flatMap VarDecl.names)

/-- The names in the program. -/
def Program.names (p : Program) : List String :=
  p.classes.flatMap Class.names ++ p.interfaces.flatMap Interface.names

/-- The names in a list are identifiers if those in each of its items are. -/
theorem all_flatMap_names {α : Type} {names : α → List String} {isCanonical : α → Bool}
    (h : ∀ a, isCanonical a = true → (names a).all isIdentifier = true) {items : List α}
    (hitems : items.all isCanonical = true) : (items.flatMap names).all isIdentifier = true := by
  rw [List.all_flatMap, List.all_eq_true]
  exact fun a ha => h a (List.all_eq_true.mp hitems a ha)

theorem VarDecl.all_names (d : VarDecl) (h : d.isCanonical = true) :
    d.names.all isIdentifier = true := by
  obtain ⟨typeName, name, _ | value⟩ := d
  · simpa [isCanonical, names] using h
  · simp only [isCanonical, Option.all_some, Bool.and_eq_true] at h
    simp [names, h.1, Expr.all_names h.2]

theorem VarDecl.all_names_of_isParameter (d : VarDecl) (h : d.isParameter = true) :
    d.names.all isIdentifier = true := by
  obtain ⟨typeName, name, _ | value⟩ := d
  · simpa [isParameter, names] using h
  · simp [isParameter] at h

theorem ReturnDecl.all_names (r : ReturnDecl) (h : r.isCanonical = true) :
    r.names.all isIdentifier = true := by
  simpa [names, isCanonical, all_toList] using h

theorem MethodHeader.all_names (h : MethodHeader) (hh : h.isCanonical = true) :
    h.names.all isIdentifier = true := by
  simp only [isCanonical, Bool.and_eq_true] at hh
  simp only [names, List.all_cons, List.all_append, Bool.and_eq_true]
  exact ⟨hh.1.1, all_flatMap_names VarDecl.all_names_of_isParameter hh.1.2,
    all_flatMap_names ReturnDecl.all_names hh.2⟩

theorem Interface.all_names (i : Interface) (h : i.isCanonical = true) :
    i.names.all isIdentifier = true := by
  simp only [isCanonical, Bool.and_eq_true] at h
  simp only [names, List.all_cons, Bool.and_eq_true]
  exact ⟨h.1, all_flatMap_names MethodHeader.all_names h.2⟩

theorem MethodBody.all_names (b : MethodBody) (h : b.isCanonical = true) :
    b.names.all isIdentifier = true := by
  simp only [isCanonical, Bool.and_eq_true] at h
  simp only [names, List.all_append, Bool.and_eq_true]
  exact ⟨all_flatMap_names VarDecl.all_names h.1, Stmt.all_bodyNames h.2⟩

theorem Constructor.all_names (c : Constructor) (h : c.isCanonical = true) :
    c.names.all isIdentifier = true := by
  simp only [isCanonical, Bool.and_eq_true] at h
  simp only [names, List.all_append, Bool.and_eq_true]
  exact ⟨all_flatMap_names VarDecl.all_names_of_isParameter h.1, c.body.all_names h.2⟩

theorem Method.all_names (m : Method) (h : m.isCanonical = true) :
    m.names.all isIdentifier = true := by
  simp only [isCanonical, Bool.and_eq_true] at h
  simp only [names, List.all_append, Bool.and_eq_true]
  exact ⟨m.header.all_names h.1, m.body.all_names h.2⟩

theorem Class.all_names (c : Class) (h : c.isCanonical = true) :
    c.names.all isIdentifier = true := by
  simp only [isCanonical, Bool.and_eq_true] at h
  obtain ⟨⟨⟨⟨hname, hinterfaces⟩, hconstructors⟩, hmethods⟩, hmembers⟩ := h
  simp only [names, List.all_cons, List.all_append, Bool.and_eq_true]
  exact ⟨hname, ⟨⟨hinterfaces, all_flatMap_names Constructor.all_names hconstructors⟩,
    all_flatMap_names Method.all_names hmethods⟩, all_flatMap_names VarDecl.all_names hmembers⟩

/-- Every name in a program that can be written is an identifier. -/
theorem Program.all_names {p : Program} (h : p.isCanonical = true) :
    p.names.all isIdentifier = true := by
  simp only [isCanonical, Bool.and_eq_true] at h
  simp only [names, List.all_append, Bool.and_eq_true]
  exact ⟨all_flatMap_names Class.all_names h.1, all_flatMap_names Interface.all_names h.2⟩

end Offside
