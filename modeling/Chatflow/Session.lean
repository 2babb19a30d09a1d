/-
# Editing sessions

A session is a graph under edit together with the compiled script of its root, which is made anew
after every change that could matter to it.  The revision counts these compilations.
-/
import Chatflow.Compile.Run
import Chatflow.Document
import Chatflow.Edit

namespace Chatflow

/-- An editing session. -/
structure Session where
  /-- How the graph is compiled. -/
  compiler : Compiler
  /-- How the steps get their ids. -/
  scheme : IdScheme
  /-- The graph. -/
  graph : Graph
  /-- The node that the script starts with. -/
  root : NodeId
  /-- The compiled script, or why there is none. -/
  output : Except CompileError Compilation
  /-- The number of compilations so far. -/
  revision : Counter

/-- A request to a session. -/
inductive Session.Request where
  /-- Change the graph. -/
  | edit (e : Edit)
  /-- Start the script with another node. -/
  | setRoot (root : NodeId)

namespace Session

/-- The root of a session where none is given. -/
def defaultRoot : NodeId := "1"

/-- Compiles a graph from a root, with ids from the start of a scheme. -/
def compile (compiler : Compiler) (scheme : IdScheme) (graph : Graph) (root : NodeId) :
    Except CompileError Compilation :=
  (compiler.runLists graph.nodeList graph.edges root scheme.source).result

/-- Makes the compiled script anew. -/
def recompile (s : Session) : Session :=
  { s with
    output := compile s.compiler s.scheme s.graph s.root
    revision := s.revision.next }

/-- Starts a session on a graph. -/
def start (compiler : Compiler) (scheme : IdScheme) (graph : Graph) (root : NodeId) : Session where
  compiler := compiler
  scheme := scheme
  graph := graph
  root := root
  output := compile compiler scheme graph root
  revision := 1

/-- Makes an edit.  If it fails the session stays as it was. -/
def edit (s : Session) (e : Edit) : Except EditError Receipt × Session :=
  match s.graph.apply e with
  | .error err => (.error err, s)
  | .ok (receipt, graph) =>
    let edited := { s with graph }
    (.ok receipt, if e.isStructural then edited.recompile else edited)

/-- Starts the script with another node, which need not be there. -/
def setRoot (s : Session) (root : NodeId) : Session := { s with root }.recompile

/-- Answers a request. -/
def respond (s : Session) : Request → Except EditError Receipt × Session
  | .edit e => s.edit e
  | .setRoot root => (.ok .done, s.setRoot root)

end Session

end Chatflow
