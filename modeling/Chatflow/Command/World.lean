/-
# The world of the commands

Commands read and write files, print, and serve at an address.  What they need for that is a class
of monads, so that they run on a real machine and on one in memory alike.
-/
import Chatflow.Session

namespace Chatflow

/-- What a machine can refuse. -/
inductive World.Fault where
  /-- There is nothing at the path. -/
  | missing
  /-- The path leads through a file. -/
  | notDirectory
  /-- A directory is not read or written like a file. -/
  | isDirectory
  /-- The content is not UTF-8. -/
  | notText
  /-- The machine has not got the address. -/
  | noSuchAddress
  /-- Something else, in the machine's own words. -/
  | other (text : String)
deriving DecidableEq, Repr

/-- What the machine says. -/
def World.Fault.message : World.Fault → String
  | missing => "No such file or directory (os error 2)"
  | notDirectory => "Not a directory (os error 20)"
  | isDirectory => "Is a directory (os error 21)"
  | notText => "stream did not contain valid UTF-8"
  | noSuchAddress => "Cannot assign requested address (os error 99)"
  | other text => text

/-- What is found at a path. -/
inductive World.Found where
  /-- A file of this many bytes. -/
  | file (size : Nat)
  /-- A directory. -/
  | directory
  /-- Neither. -/
  | special
deriving DecidableEq, Repr

/-- The number of bytes that count against a limit. -/
def World.Found.size : World.Found → Nat
  | file size => size
  | directory | special => 0

/-- A machine that commands can run on. -/
class World (m : Type → Type) where
  /-- What is at a path. -/
  find (path : String) : m (Except World.Fault World.Found)
  /-- The path from the root, without detours, to where a path leads. -/
  canonical (path : String) : m (Except World.Fault String)
  /-- The text of a file. -/
  read (path : String) : m (Except World.Fault String)
  /-- Makes or replaces a file. -/
  write (path text : String) : m (Except World.Fault Unit)
  /-- Prints a text. -/
  print (text : String) : m Unit
  /-- Serves a session at an address until it is stopped. -/
  serve (address : String) (session : Session) : m (Except World.Fault Unit)

end Chatflow
