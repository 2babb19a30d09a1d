/-
# Running commands

Every command first reads its settings.  A file that is not there means the default settings.  What
a command reads is checked before it is used, in the order path, size, text, and a file is written
only when there is something to write.  The first fault ends the command.
-/
import Chatflow.Command.Line
import Chatflow.Command.Path
import Chatflow.Command.Quoted
import Chatflow.Command.Report
import Chatflow.Command.World

namespace Chatflow

/-- The largest number of bytes of a settings file. -/
def Config.maxFileSize : Nat := 1048576

/-- The largest number of bytes of a snapshot file. -/
def Snapshot.maxFileSize : Nat := 10485760

namespace Command

/-- Work on a machine that can fail. -/
abbrev Work (m : Type → Type) := ExceptT Failure m

variable {m : Type → Type} [Monad m] [World m] {α ε : Type}

/-- Fails about files or addresses. -/
def fail (detail : String) : Work m α := throw ⟨.ioError, some detail⟩

/-- Uses the machine.  What it refuses is told behind what was tried. -/
def attempt (trying : String) (act : m (Except World.Fault α)) : Work m α := do
  match ← act with
  | .ok a => return a
  | .error e => fail (trying ++ ": " ++ e.message)

/-- Goes on with a result, or shows users why there is none. -/
def settle (failure : ε → Failure) : Except ε α → Work m α
  | .ok a => return a
  | .error e => throw (failure e)

/-- Prints a text. -/
def print (text : String) : Work m Unit := World.print (m := m) text

/-! ### Reading and writing -/

/-- Reads the settings. -/
def loadConfig (path : String) : Work m Config := do
  match ← World.find (m := m) path with
  | .error _ => return {}
  | .ok found =>
    if Config.maxFileSize < found.size then
      throw (Config.Fault.tooLarge found.size Config.maxFileSize).failure
    let text ← attempt "Read config" (World.read (m := m) path)
    settle Config.Fault.failure (Config.ofText text)

/-- Reads a graph. -/
def loadGraph (path : String) : Work m Graph := do
  let place ← attempt s!"Invalid file path '{path}'" (World.canonical (m := m) path)
  match ← World.find (m := m) place with
  | .ok (.file size) =>
    if Snapshot.maxFileSize < size then
      fail s!"File size {size} bytes exceeds maximum allowed {Snapshot.maxFileSize} bytes"
    let text ← attempt "Read file" (World.read (m := m) place)
    let snapshot ← settle Snapshot.Fault.failure (Snapshot.ofText text)
    settle Snapshot.Fault.failure (Graph.ofSnapshot snapshot)
  | _ => fail s!"Path '{path}' is not a regular file"

/-- Where a file is to be written.  Its directory must be there. -/
def outputPlace (path : String) : Work m String := do
  let directory := Path.directory path
  let place ← attempt s!"Invalid output directory '{directory}'"
    (World.canonical (m := m) directory)
  match ← World.find (m := m) place with
  | .ok .directory =>
    match Path.name? path with
    | some name => return Path.below place name
    | none => fail "Output path has no filename"
  | _ => fail s!"Output directory '{directory}' is not a valid directory"

/-- Writes a file. -/
def writeFile (place text : String) : Work m Unit :=
  attempt "Write file" (World.write (m := m) place text)

/-! ### The commands -/

/-- The settings with another root, if one is given. -/
def withRoot (c : Config) (root : Option String) : Config :=
  { c with compiling.root := root.getD c.compiling.root }

/-- A graph under edit and its compiled script. -/
def compiled (c : Config) (input : String) : Work m (Session × Compilation) := do
  let session ← settle TitleError.failure (c.session (← loadGraph input))
  return (session, ← settle CompileError.failure session.output)

/-- Writes a document to a file, or prints it. -/
def emit (text : String) : Option String → Work m Unit
  | none => print (text ++ "\n")
  | some output => do writeFile (← outputPlace output) text

/-- Prints a report as JSON or as text. -/
def report (json : Bool) (asJson : Json) (asText : String) : Work m Unit :=
  print (if json then asJson.pretty ++ "\n" else asText)

/-- Writes the starter graph.  A file that is there is replaced only by force. -/
def writeStarter (output : String) (force : Bool) : Work m Unit := do
  let place ← outputPlace output
  let isThere := (← World.find (m := m) place).isOk
  if isThere && !force then fail s!"'{output}' already exists. Use --force to overwrite."
  writeFile place Snapshot.starter.text
  print (s!"Initialized starter graph at {quoted place}\n")

/-- The graph that is served. -/
def servedGraph : Option String → Work m Graph
  | some input => loadGraph input
  | none => settle Snapshot.Fault.failure (Graph.ofSnapshot .starter)

/-- The settings with another address, if one is given. -/
def withAddress (c : Config) (host : Option String) (port : Option Nat) : Config :=
  { c with server := ⟨host.getD c.server.host, port.getD c.server.port⟩ }

/-- Serves a session at the address of the settings. -/
def serveSession (c : Config) (input : Option String) : Work m Unit := do
  let session ← settle TitleError.failure (c.session (← servedGraph input))
  print (Report.banner c.server session)
  attempt "Bind failed" (World.serve (m := m) s!"{c.server.host}:{c.server.port}" session)

/-- Runs a command under settings. -/
def runWith (c : Config) (json : Bool) : Command → Work m Unit
  | compile input root pretty output => do
    let (_, result) ← compiled (withRoot c root) input
    emit (if pretty then result.document.prettyText else result.document.text) output
  | check input root tree => do
    let (session, result) ← compiled (withRoot c root) input
    report json (Report.checkJson session result tree) (Report.check session result tree)
  | hash input root => do
    let (session, result) ← compiled (withRoot c root) input
    report json (Report.hashJson session result) (Report.hash result)
  | types => do
    let registry ← settle TitleError.failure c.registry
    report json (Report.typesJson registry) (Report.types registry)
  | init output force => writeStarter output force
  | serve input host port => serveSession (withAddress c host port) input

end Command

/-- Runs a command line. -/
def CommandLine.run {m : Type → Type} [Monad m] [World m] (line : CommandLine) :
    m (Except Failure Unit) :=
  ExceptT.run do Command.runWith (← Command.loadConfig line.config) line.json line.command

end Chatflow
