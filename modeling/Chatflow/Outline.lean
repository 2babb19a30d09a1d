/-
# Outlines

An outline shows a document to people: an entry for each branch, parents before children, indented
by depth.  An entry that stands in a slot is labelled with the button it belongs to.
-/
import Chatflow.Document

namespace Chatflow.Outline

/-- A branch to be shown. -/
structure Entry where
  /-- How deep it stands. -/
  depth : Nat
  /-- The label of its slot. -/
  label : Option String
  /-- The branch. -/
  branch : Branch

/-- The label of a slot: `next` where continuations are not nested, else the title of the slot's
button. -/
def slotLabel (s : Step) (slot : Nat) : Option String :=
  if s.nests then s.buttons[slot]?.map (·.title) else some "next"

/-- The entries of a step's slots. -/
def entriesOf (depth : Nat) (s : Step) (slots : List Branch) : List Entry :=
  slots.zipIdx.map fun (b, slot) => ⟨depth, slotLabel s slot, b⟩

/-- What is shown of a branch itself. -/
def caption : Branch → String
  | .empty => "-"
  | .backReference target => Branch.backReferenceKey ++ " " ++ target
  | .step s _ => s.id ++ " " ++ s.type.name ++ " (node " ++ s.origin ++ ")"

/-- The label of an entry in brackets. -/
def bracketed : Option String → String
  | some label => "[" ++ label ++ "] "
  | none => ""

/-- Two spaces for each level. -/
def indent (depth : Nat) : String := String.ofList (List.replicate (2 * depth) ' ')

/-- The entry without what stands in its slots. -/
def Entry.line (e : Entry) : String :=
  indent e.depth ++ bracketed e.label ++ caption e.branch ++ "\n"

/-- The entries right below an entry. -/
def Entry.children (e : Entry) : List Entry :=
  match e.branch with
  | .step s slots => entriesOf (e.depth + 1) s slots
  | _ => []

/-- The number of branches that entries are about. -/
def totalSize (entries : List Entry) : Nat := Tree.sizeSlots (entries.map (·.branch))

theorem map_branch_entriesOf (depth : Nat) (s : Step) (slots : List Branch) :
    (entriesOf depth s slots).map (·.branch) = slots := by
  rw [entriesOf, List.map_map]
  exact List.zipIdx_map_fst 0 slots

theorem totalSize_children (e : Entry) : totalSize e.children < e.branch.size := by
  unfold Entry.children
  split
  · next s slots h =>
    rw [totalSize, map_branch_entriesOf, h, Tree.size]
    omega
  · simpa [totalSize, Tree.sizeSlots] using Tree.size_pos e.branch

/-- Writes entries and all that stands below them behind the text written so far. -/
def writeAll (written : String) : List Entry → String
  | [] => written
  | e :: rest => writeAll (written ++ e.line) (e.children ++ rest)
termination_by entries => totalSize entries
decreasing_by
  have := totalSize_children e
  simp [totalSize, Tree.sizeSlots] at *
  omega

/-- A line without the carriage return at its end. -/
def withoutReturn (line : List Char) : List Char :=
  if line.getLast? = some '\r' then line.dropLast else line

/-- The lines of a text: what stands before each line end, and what stands behind the last one
unless that is nothing. -/
def lines (text : String) : List String :=
  let pieces := text.toList.splitOn '\n'
  (pieces.dropLast.map withoutReturn ++ (pieces.getLast?.filter (· ≠ [])).toList).map String.ofList

end Outline

/-- The outline of a document. -/
def Document.outline (d : Document) : String :=
  if d.isEmpty then "(empty)\n" else Outline.writeAll "" [⟨0, none, d.root⟩]

end Chatflow
