import Offside.Stmt.Basic

/-!
# Programs

A program declares classes and interfaces. A class holds members, constructors and methods,
in the order of each kind; how the kinds were mixed in the source is not kept.
-/

namespace Offside

/-- A typed name, with an initial value where one is written. -/
structure VarDecl where
  /-- The name of the type. -/
  typeName : String
  /-- The name that is declared. -/
  name : String
  /-- The initial value. -/
  initializer : Option Expr
deriving DecidableEq

/-- A returned value: its type, and a name where one is written. -/
structure ReturnDecl where
  /-- The name of the type. -/
  typeName : String
  /-- The name that is declared. -/
  name : Option String
deriving DecidableEq

/-- The first line of a method. -/
structure MethodHeader where
  /-- The name of the method. -/
  name : String
  /-- What it is called with. -/
  parameters : List VarDecl
  /-- What it returns. -/
  returns : List ReturnDecl
deriving DecidableEq

/-- A list of methods that a class can promise to have. -/
structure Interface where
  /-- The name of the interface. -/
  name : String
  /-- The methods it lists. -/
  methods : List MethodHeader
deriving DecidableEq

/-- The body of a method or constructor. -/
structure MethodBody where
  /-- The variables declared at the top level of the body. -/
  locals : List VarDecl
  /-- The statements, in order. -/
  statements : List Stmt
deriving DecidableEq

/-- How an object of a class is made. -/
structure Constructor where
  /-- What it is called with. -/
  parameters : List VarDecl
  /-- What it does. -/
  body : MethodBody
deriving DecidableEq

/-- A method with what it does. -/
structure Method where
  /-- Whether it is marked `private`. -/
  isPrivate : Bool
  /-- Whether it is marked `shared`. -/
  isShared : Bool
  /-- Its first line, without the marks. -/
  header : MethodHeader
  /-- What it does. -/
  body : MethodBody
deriving DecidableEq

/-- A class. -/
structure Class where
  /-- The name of the class. -/
  name : String
  /-- The interfaces it promises to implement. -/
  interfaces : List String
  /-- Its constructors. -/
  constructors : List Constructor
  /-- Its methods. -/
  methods : List Method
  /-- Its variables. -/
  members : List VarDecl
deriving DecidableEq

/-- A whole source text. -/
structure Program where
  /-- Its classes, in order. -/
  classes : List Class
  /-- Its interfaces, in order. -/
  interfaces : List Interface
deriving DecidableEq

end Offside
