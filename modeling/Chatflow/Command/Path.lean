/-
# Paths

A path is a text of names with slashes between them.  An empty name and a single dot stay where they
are, and two dots lead up.  What matters here is only how a path is taken apart into the directory
and the name of a file to be written; where it leads is for the machine to say.
-/

namespace Chatflow.Path

/-- Whether a piece of a path stays where it is. -/
def isIdle (piece : List Char) : Bool := piece = [] ∨ piece = ['.']

/-- Splits off how a path begins if not with a name: a slash leads to the root, and a dot to where
one is. -/
def beginning : List Char → List Char × List Char
  | '/' :: rest => (['/'], rest)
  | ['.'] => (['.'], [])
  | '.' :: '/' :: rest => (['.'], '/' :: rest)
  | cs => ([], cs)

/-- The pieces up to the last one that leads somewhere. -/
def trimEnd (pieces : List (List Char)) : List (List Char) :=
  (pieces.reverse.dropWhile isIdle).reverse

/-- The pieces of a path behind its beginning, up to the last one that leads somewhere. -/
def pieces (path : String) : List (List Char) :=
  trimEnd ((beginning path.toList).2.splitOn '/')

/-- The name of the file that a path is for, unless it leads to the root, stays where it is or leads
up. -/
def name? (path : String) : Option String :=
  ((pieces path).getLast?.filter (· ≠ ['.', '.'])).map String.ofList

/-- The path without its last name. -/
def withoutName (path : String) : String :=
  match pieces path with
  | [] => ""
  | ps => String.ofList ((beginning path.toList).1 ++
      ['/'].intercalate (trimEnd ps.dropLast))

/-- The directory of the file that a path is for. -/
def directory (path : String) : String :=
  if withoutName path = "" then "." else withoutName path

/-- A name below a directory. -/
def below (directory name : String) : String :=
  if directory.endsWith "/" then directory ++ name else directory ++ "/" ++ name

end Chatflow.Path
