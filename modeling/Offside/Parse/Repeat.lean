import Offside.Parse.Basic

/-!
# Repetition

An item that may be missing is a parser for an `Option`: it returns `none` when there is no
further item. Reading such items until there are none (`Parse.gather`) keeps what was read
also if an item fails half-way. All repetition comes from it: lists, lists with commas, and
chains of operators that group to the left.

An item takes at least one token, so there are at most as many items as tokens; that number
bounds the rounds, with one more to see that there is no further item.
-/

namespace Offside

namespace Parse

variable {α β : Type}

/-- Items with how their reading ended. -/
abbrev Gather (α : Type) := State → List α × EStateM.Result Diagnostic State Unit

/-- Reads items until there are none, in at most so many rounds. -/
def gatherUpTo (item? : Parse (Option α)) : Nat → Gather α
  | 0, s => ([], .ok () s)
  | rounds + 1, s =>
    match item? s with
    | .ok none s => ([], .ok () s)
    | .ok (some a) s =>
      let (items, ending) := gatherUpTo item? rounds s
      (a :: items, ending)
    | .error d s => ([], .error d s)

/-- Reads items until there are none. -/
def gather (item? : Parse (Option α)) : Gather α :=
  fun s => gatherUpTo item? (s.stream.size + 1) s

/-- The items, unless their reading failed. -/
def Gather.toParse (g : Gather α) : Parse (List α) :=
  fun s =>
    match g s with
    | (items, .ok () s) => .ok items s
    | (_, .error d s) => .error d s

/-- Does something first; if that fails, there are no items. -/
def Gather.after (first : Parse Unit) (g : Gather α) : Gather α :=
  fun s =>
    match first s with
    | .ok () s => g s
    | .error d s => ([], .error d s)

/-- Reads items in a level of nesting of its own. -/
def Gather.within (g : Gather α) : Gather α :=
  Gather.after enterNesting fun s =>
    let (items, ending) := g s
    (items, leaving ending)

/-- All items until there are none. -/
def many (item? : Parse (Option α)) : Parse (List α) :=
  Gather.toParse (gather item?)

/-- The item, if `present` says that there is one. -/
def optional (present : Parse Bool) (item : Parse α) : Parse (Option α) := do
  if ← present then return some (← item) else return none

/-- One item or more, with a comma between each two. -/
def commaSeparated (item : Parse α) : Parse (List α) := do
  let first ← item
  let rest ← many (optional (accept .comma) item)
  return first :: rest

/-- What follows an operator, if there is an operator. -/
def operation? (operator? : Parse (Option β)) (operand : Parse α) : Parse (Option (β × α)) := do
  match ← operator? with
  | none => return none
  | some op => return some (op, ← operand)

/-- Operands with operators between them, grouped to the left. -/
def leftAssociative (combine : β → α → α → α) (operator? : Parse (Option β))
    (operand : Parse α) : Parse α := do
  let first ← operand
  let rest ← many (operation? operator? operand)
  return rest.foldl (fun left next => combine next.1 left next.2) first

/-- The item on the next line that is not blank, unless the block ends there. -/
def line? (item : Parse α) : Parse (Option α) := do
  skipNewlines
  if ← accept .dedent then return none else return some (← item)

/-- A block: deeper lines, with an item on each line that is not blank, to its end. -/
def gatherBlock (item : Parse α) : Gather α :=
  Gather.after (do skipNewlines; discard (expect .indent)) (gather (line? item))

/-- The items of a block. -/
def block (item : Parse α) : Parse (List α) :=
  Gather.toParse (gatherBlock item)

end Parse

end Offside
