/-
# Reports

What the commands print about a compiled graph, about the schemas, and before they serve.
-/
import Chatflow.Config
import Chatflow.Digest
import Chatflow.Outline

namespace Chatflow.Report

/-- Lines with their line ends. -/
def unlines (ls : List String) : String := String.join (ls.map (· ++ "\n"))

/-- A text with blanks behind it up to a width. -/
def padded (width : Nat) (s : String) : String :=
  s ++ String.ofList (List.replicate (width - s.length) ' ')

/-! ### Checks -/

/-- A labelled value. -/
def entry (label value : String) : String := padded 17 (label ++ ":") ++ value

/-- How many ids there are, and which. -/
def listing (label : String) (ids : List String) : List String :=
  entry label (toString ids.length) :: ids.map ("  - " ++ ·)

/-- What the compiler noticed. -/
def diagnostics (d : Diagnostics) : List String :=
  [entry "Steps" (toString d.steps), entry "Back references" (toString d.backReferences)] ++
    listing "Dropped edges" d.droppedEdges.toList ++ listing "Unknown nodes" d.unknownNodes.toList

/-- The head of a report about a session. -/
def heading (s : Session) : List String :=
  ["botflow Check", "=============", entry "Root" s.root,
    entry "Nodes" (toString s.graph.nodeCount), entry "Edges" (toString s.graph.edgeCount), ""]

/-- The report about a compiled session. -/
def check (s : Session) (c : Compilation) (tree : Bool) : String :=
  unlines (heading s) ++
    if c.document.isEmpty then unlines ["Root node not in graph; document is empty."]
    else unlines (diagnostics c.diagnostics) ++
      if tree then unlines ["", "Outline:"] ++ c.document.outline else ""

/-- The report about a compiled session as JSON. -/
def checkJson (s : Session) (c : Compilation) (tree : Bool) : Json :=
  .obj ([("root", .str s.root), ("empty", .bool c.document.isEmpty),
      ("nodes", .ofNat s.graph.nodeCount), ("edges", .ofNat s.graph.edgeCount),
      ("diagnostics", .obj c.diagnostics.members)] ++
    if tree then [("outline", .ofStrings (Outline.lines c.document.outline))] else [])

/-! ### Digests -/

/-- The digest of a document. -/
def hash (c : Compilation) : String := unlines ["BLAKE3: " ++ c.document.digest]

/-- The digest of a document as JSON. -/
def hashJson (s : Session) (c : Compilation) : Json :=
  .obj [("algorithm", .str "blake3"), ("hash", .str c.document.digest), ("root", .str s.root)]

/-! ### Schemas -/

/-- What stands in the column for the buttons. -/
def buttonsColumn (s : Schema) : String :=
  match s.layout with
  | .document url => "(document: " ++ url ++ ")"
  | .leaf => "-"
  | .buttons _ | .action _ => ", ".intercalate s.titles

/-- A row of the table of schemas. -/
def row (type slots terminal buttons : String) : String :=
  padded 12 type ++ " " ++ padded 6 slots ++ " " ++ padded 9 terminal ++ " " ++ buttons

/-- The table of schemas. -/
def types (r : Registry) : String :=
  unlines (row "Type" "Slots" "Terminal" "Buttons" :: r.table.map fun (t, s) =>
    row t.name (toString s.slots) (toString s.terminal) (buttonsColumn s))

/-- The table of schemas as JSON. -/
def typesJson (r : Registry) : Json := .obj (r.table.map fun (t, s) => (t.name, s.toJson))

/-! ### Serving -/

/-- The name of a policy to people. -/
def policyTitle : CyclePolicy → String
  | .backReference => "BackReference"
  | .reject => "Reject"

/-- What is printed before a session is served. -/
def banner (server : Config.Server) (s : Session) : String :=
  unlines [
    "botflow Editing Server Starting...",
    "",
    "Configuration:",
    "  Host:   " ++ server.host,
    "  Port:   " ++ toString server.port,
    "  Root:   " ++ s.root,
    "  Policy: " ++ policyTitle s.compiler.policy,
    "",
    "Endpoints:",
    "  GET    /health             - Health check",
    "  GET    /graph              - Current nodes and edges",
    "  POST   /nodes              - Add a node",
    "  POST   /nodes/\x7bid\x7d/copy    - Copy a node",
    "  PUT    /nodes/\x7bid\x7d/data    - Replace node data",
    "  PUT    /nodes/\x7bid\x7d/position - Move a node",
    "  DELETE /nodes/\x7bid\x7d         - Delete a node and its edges",
    "  POST   /edges              - Connect two nodes",
    "  DELETE /edges/\x7bid\x7d         - Delete an edge",
    "  GET    /document           - Compiled document",
    "  GET    /diagnostics        - Compile diagnostics",
    "  PUT    /root               - Change the compile root",
    "",
    "Press Ctrl+C to stop",
    ""]

end Chatflow.Report
