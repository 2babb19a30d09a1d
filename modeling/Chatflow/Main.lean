/-
# The program

Runs the command line on the real machine.
-/
import Chatflow.Command.Run

namespace Chatflow.World

/-- What an error of the machine means. -/
def Fault.ofError : IO.Error → Fault
  | .noFileOrDirectory .. => .missing
  | .inappropriateType _ code _ => if code = 21 then .isDirectory else .notDirectory
  | e => .other (toString e)

/-- Uses the machine. -/
def tried {α : Type} (act : IO α) : IO (Except Fault α) := do
  match ← act.toBaseIO with
  | .ok a => return .ok a
  | .error e => return .error (.ofError e)

/-- What the machine says of an entry. -/
def Found.ofMetadata (d : IO.FS.Metadata) : Found :=
  match d.type with
  | .file => .file d.byteSize.toNat
  | .dir => .directory
  | _ => .special

/-- The text of a file's bytes. -/
def textOf (content : Except Fault ByteArray) : Except Fault String := do
  match String.fromUTF8? (← content) with
  | some text => return text
  | none => .error .notText

/-- The path from the root to where a path leads.  If that is nowhere, opening it tells why. -/
def resolved (path : String) : IO String := do
  try
    return toString (← IO.FS.realPath path)
  catch e =>
    discard (IO.FS.Handle.mk path .read)
    throw e

/-- Commands run on the real machine, but nothing is served there. -/
instance : World IO where
  find path := tried do
    let found ← (← IO.FS.realPath path).metadata
    return .ofMetadata found
  canonical path := tried (resolved path)
  read path := return textOf (← tried (IO.FS.readBinFile path))
  write path text := tried (IO.FS.writeFile path text)
  print text := IO.print text
  serve _ _ := return .error (.other "Operation not supported (os error 95)")

end Chatflow.World

/-- Runs the program. -/
def main (arguments : List String) : IO UInt32 := do
  match Chatflow.CommandLine.ofArguments arguments with
  | .error .help =>
    IO.println Chatflow.CommandLine.synopsis
    return 0
  | .error .version =>
    IO.println Chatflow.CommandLine.versionLine
    return 0
  | .error .error =>
    IO.eprintln Chatflow.CommandLine.synopsis
    return 2
  | .ok line =>
    match ← line.run (m := IO) with
    | .ok () => return 0
    | .error e =>
      IO.eprintln ("Error: " ++ e.message?.getD e.kind.name)
      return 1
