import Offside.Program.Basic
import Offside.Stmt.Print

/-!
# Programs in writing

Interfaces come before classes, with an empty line between each two declarations. In a class
the members come first, then the constructors, then the methods, each one tab deep, with
locals and statements of a body two tabs deep.
-/

namespace Offside

/-- The declaration in writing. -/
def VarDecl.print (d : VarDecl) : String :=
  d.typeName ++ " " ++ d.name ++
    match d.initializer with
    | some value => " = " ++ value.print
    | none => ""

/-- The declaration in writing. -/
def ReturnDecl.print (d : ReturnDecl) : String :=
  d.typeName ++
    match d.name with
    | some name => " " ++ name
    | none => ""

/-- The header in writing, as a line. -/
def MethodHeader.print (h : MethodHeader) : String :=
  h.name ++ "(" ++ commaList (h.parameters.map VarDecl.print) ++ ")" ++
    (if h.returns.isEmpty then "" else ": " ++ commaList (h.returns.map ReturnDecl.print)) ++ "\n"

/-- The interface in writing. -/
def Interface.print (i : Interface) : String :=
  "interface " ++ i.name ++ "\n" ++
    String.join (i.methods.map fun h => indentation 1 ++ h.print)

/-- The body in writing: the locals, then the statements. -/
def MethodBody.print (b : MethodBody) : String :=
  String.join (b.locals.map fun d => indentation 2 ++ d.print ++ "\n") ++
    Stmt.printBlock 2 b.statements

/-- The constructor in writing. -/
def Constructor.print (c : Constructor) : String :=
  indentation 1 ++ "construct(" ++ commaList (c.parameters.map VarDecl.print) ++ ")\n" ++
    c.body.print

/-- The method in writing. -/
def Method.print (m : Method) : String :=
  indentation 1 ++ (if m.isPrivate then "private " else "") ++
    (if m.isShared then "shared " else "") ++ m.header.print ++ m.body.print

/-- The class in writing. -/
def Class.print (c : Class) : String :=
  "class " ++ c.name ++
    (if c.interfaces.isEmpty then "" else " implements " ++ commaList c.interfaces) ++ "\n" ++
    String.join (c.members.map fun d => indentation 1 ++ d.print ++ "\n") ++
    String.join (c.constructors.map Constructor.print) ++
    String.join (c.methods.map Method.print)

/-- The program in writing. -/
def Program.print (p : Program) : String :=
  "\n".intercalate (p.interfaces.map Interface.print ++ p.classes.map Class.print)

end Offside
