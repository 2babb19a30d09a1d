/-
# A machine in memory

Files and directories by their places, and what has been printed.  A place is the list of names from
the root.  A path is walked name by name; each step must start in a directory, even one that stays
where it is.
-/
import Chatflow.Command.World

namespace Chatflow

/-- What a machine stores at a place. -/
inductive Machine.Entry where
  /-- A file. -/
  | file (content : ByteArray)
  /-- A directory. -/
  | directory

/-- A machine in memory. -/
structure Machine where
  /-- Where paths start that do not start at the root. -/
  workplace : List String
  /-- What is stored, by place; the root is always a directory. -/
  entries : List (List String × Machine.Entry)
  /-- What has been printed. -/
  printed : String := ""

namespace Machine

/-- What is stored at a place. -/
def entry? (m : Machine) (place : List String) : Option Entry :=
  match place with
  | [] => some .directory
  | _ => m.entries.lookup place

/-- Stores something at a place. -/
def store (place : List String) (e : Entry) :
    List (List String × Entry) → List (List String × Entry)
  | [] => [(place, e)]
  | (p, old) :: rest => if p = place then (p, e) :: rest else (p, old) :: store place e rest

/-- What is stored afterwards. -/
theorem lookup_store (place p : List String) (e : Entry) (entries : List (List String × Entry)) :
    (store place e entries).lookup p = if p = place then some e else entries.lookup p := by
  have distinct {q : List String} (h : ¬p = q) : (p == q) = false := by simpa using h
  induction entries with
  | nil => by_cases h : p = place <;> simp [store, h]
  | cons entry rest ih =>
    obtain ⟨q, old⟩ := entry
    by_cases hq : q = place
    · by_cases h : p = place <;> simp [store, List.lookup_cons, hq, h, distinct]
    · by_cases h : p = q
      · simp [store, hq, h]
      · simp [store, List.lookup_cons, hq, distinct h, ih]

/-- Where a single name leads from a place. -/
def step (place : List String) (name : String) : List String :=
  if name = "" ∨ name = "." then place
  else if name = ".." then place.dropLast
  else place ++ [name]

/-- Where names lead from a place. -/
def walk (m : Machine) (place : List String) : List String → Except World.Fault (List String)
  | [] => .ok place
  | name :: names =>
    match m.entry? place with
    | none => .error .missing
    | some (.file _) => .error .notDirectory
    | some .directory =>
      match m.entry? (step place name) with
      | none => .error .missing
      | some _ => m.walk (step place name) names

/-- Where a path starts. -/
def origin (m : Machine) (path : String) : List String :=
  if path.startsWith "/" then [] else m.workplace

/-- The names of a path. -/
def names (path : String) : List String := (path.toList.splitOn '/').map String.ofList

/-- Where a path leads. -/
def resolve (m : Machine) (path : String) : Except World.Fault (List String) :=
  if path = "" then .error .missing else m.walk (m.origin path) (names path)

/-- The path of a place from the root. -/
def pathOf (place : List String) : String := "/" ++ "/".intercalate place

/-- What is at a path. -/
def find (m : Machine) (path : String) : Except World.Fault World.Found := do
  match m.entry? (← m.resolve path) with
  | none => .error .missing
  | some (.file content) => return .file content.size
  | some .directory => return .directory

/-- The text of a file. -/
def read (m : Machine) (path : String) : Except World.Fault String := do
  match m.entry? (← m.resolve path) with
  | none => .error .missing
  | some .directory => .error .isDirectory
  | some (.file content) =>
    match String.fromUTF8? content with
    | none => .error .notText
    | some text => return text

/-- Makes or replaces a file. -/
def write (m : Machine) (path text : String) : Except World.Fault Machine := do
  let place ← m.walk (m.origin path) (names path).dropLast
  match m.entry? place with
  | none => .error .missing
  | some (.file _) => .error .notDirectory
  | some .directory =>
    let place := step place ((names path).getLastD "")
    match m.entry? place with
    | some .directory => .error .isDirectory
    | _ => return { m with entries := store place (.file text.toUTF8) m.entries }

/-- Commands run on a machine in memory, which has no addresses. -/
instance : World (StateM Machine) where
  find path := return (← get).find path
  canonical path := return ((← get).resolve path).map pathOf
  read path := return (← get).read path
  write path text := do
    match (← get).write path text with
    | .ok m =>
      set m
      return .ok ()
    | .error e => return .error e
  print text := modify fun m => { m with printed := m.printed ++ text }
  serve _ _ := return .error .noSuchAddress

end Machine

end Chatflow
