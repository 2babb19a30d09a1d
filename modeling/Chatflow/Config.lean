/-
# Settings

A settings file says how graphs are compiled, where the server listens, and which texts steps have
by default.  Every section and every key may be left out, and no others may be there.  The texts
for buttons must keep their number.
-/
import Chatflow.Session
import Chatflow.Toml.Reader

namespace Chatflow

/-- The section about compiling. -/
structure Config.Compiling where
  /-- The node that scripts start with. -/
  root : NodeId := Session.defaultRoot
  /-- What becomes of cycles. -/
  policy : CyclePolicy := .backReference
  /-- The largest number of steps. -/
  stepLimit : Nat := Compiler.defaultStepLimit
  /-- How the steps get their ids. -/
  scheme : IdScheme := .standard
deriving DecidableEq, Repr

/-- The section about the server. -/
structure Config.Server where
  /-- The address to listen at. -/
  host : String := "127.0.0.1"
  /-- The port to listen at. -/
  port : Nat := 8080
deriving DecidableEq, Repr

/-- The section about the texts of steps. -/
structure Config.Texts where
  /-- The address of documents that name none. -/
  documentUrl : Option String := none
  /-- The button titles of template steps. -/
  template : Option (List String) := none
  /-- The button titles of interactive steps. -/
  interactive : Option (List String) := none
  /-- The button titles of flow steps. -/
  flow : Option (List String) := none
  /-- The button titles of webhook steps. -/
  webhook : Option (List String) := none
deriving DecidableEq, Repr

/-- All settings. -/
structure Config where
  /-- How graphs are compiled. -/
  compiling : Config.Compiling := {}
  /-- Where the server listens. -/
  server : Config.Server := {}
  /-- Which texts steps have by default. -/
  texts : Config.Texts := {}
deriving DecidableEq, Repr, Inhabited

namespace Config

/-- Why settings cannot be used. -/
inductive Fault where
  /-- The text is not that of a settings file. -/
  | unreadable
  /-- The file is too large. -/
  | tooLarge (size limit : Nat)
  /-- Titles do not fit their node type. -/
  | titles (e : TitleError)
deriving DecidableEq, Repr

/-- What users see of settings that cannot be used. -/
def Fault.failure : Fault → Failure
  | unreadable => ⟨.configError, none⟩
  | tooLarge size limit =>
    ⟨.configError, some s!"Config file size {size} bytes exceeds maximum allowed {limit} bytes"⟩
  | titles e => e.failure

/-! ### Reading -/

/-- An entry of a section, or its default where it is left out. -/
def entry {α : Type} (sec : String → Option Toml.Value) (key : String) (default : α)
    (read : Toml.Value → Option α) : Option α :=
  match sec key with
  | none => some default
  | some v => read v

/-- An entry that must be there. -/
def required {α : Type} (sec : String → Option Toml.Value) (key : String)
    (read : Toml.Value → Option α) : Option α := (sec key).bind read

/-- Whether a value says nothing: an empty array or table. -/
def saysNothing : Json.Draft → Bool
  | .arr [] _ => true
  | .obj [] _ => true
  | _ => false

/-- Uses a decoder on a value. -/
def decoded {α : Type} (decode : Json.Decoder α) (v : Toml.Value) : Option α :=
  (decode Json.maxNesting v.toDraft).toOption

/-- Reads the section about compiling. -/
def readCompiling (v : Toml.Value) : Option Compiling := do
  let s ← v.section? ["root", "cycle_policy", "step_limit", "ids"]
  return {
    root := ← entry s "root" Session.defaultRoot Toml.Value.string?
    policy := ← entry s "cycle_policy" .backReference (decoded (CyclePolicy.decode saysNothing))
    stepLimit := ← entry s "step_limit" Compiler.defaultStepLimit (Toml.Value.below? UInt64.size)
    scheme := ← entry s "ids" .standard (decoded IdScheme.decode) }

/-- Reads the section about the server. -/
def readServer (v : Toml.Value) : Option Server := do
  let s ← v.section? ["host", "port"]
  return {
    host := ← entry s "host" ({} : Server).host Toml.Value.string?
    port := ← entry s "port" ({} : Server).port (Toml.Value.below? UInt16.size) }

/-- Reads the texts of document steps. -/
def readUrl (v : Toml.Value) : Option (Option String) := do
  let s ← v.section? ["default_url"]
  return some (← required s "default_url" Toml.Value.string?)

/-- Reads the texts of steps with buttons. -/
def readTitles (v : Toml.Value) : Option (Option (List String)) := do
  let s ← v.section? ["titles"]
  return some (← required s "titles" Toml.Value.strings?)

/-- Reads the section about texts. -/
def readTexts (v : Toml.Value) : Option Texts := do
  let s ← v.section? ["document", "template", "interactive", "flow", "webhook"]
  return {
    documentUrl := ← entry s "document" none readUrl
    template := ← entry s "template" none readTitles
    interactive := ← entry s "interactive" none readTitles
    flow := ← entry s "flow" none readTitles
    webhook := ← entry s "webhook" none readTitles }

/-- Reads all sections. -/
def readSections (v : Toml.Value) : Option Config := do
  let s ← v.section? ["compiler", "server", "registry"]
  return {
    compiling := ← entry s "compiler" {} readCompiling
    server := ← entry s "server" {} readServer
    texts := ← entry s "registry" {} readTexts }

/-- Reads a settings file. -/
def ofText (s : String) : Except Fault Config :=
  match (Toml.read? s).bind readSections with
  | some c => .ok c
  | none => .error .unreadable

/-! ### Using settings -/

/-- The titles given for node types, in the order in which they are set. -/
def Texts.titles (t : Texts) : List (NodeType × Option (List String)) :=
  [(.template, t.template), (.interactive, t.interactive), (.flow, t.flow), (.webhook, t.webhook)]

/-- Sets the titles of a type, if any are given. -/
def setTitles (r : Registry) (given : NodeType × Option (List String)) :
    Except TitleError Registry :=
  match given.2 with
  | none => .ok r
  | some titles => r.setTitles given.1 titles

/-- The standard schemas with the texts of the settings. -/
def registry (c : Config) : Except TitleError Registry :=
  let r := match c.texts.documentUrl with
    | none => Registry.standard
    | some url => Registry.standard.setDocumentUrl url
  c.texts.titles.foldlM setTitles r

/-- The compiler of the settings. -/
def compiler (c : Config) : Except TitleError Compiler :=
  c.registry.map fun registry => ⟨registry, c.compiling.policy, c.compiling.stepLimit⟩

/-- A session on a graph under the settings. -/
def session (c : Config) (g : Graph) : Except TitleError Session :=
  c.compiler.map fun compiler => .start compiler c.compiling.scheme g c.compiling.root

end Config

end Chatflow
