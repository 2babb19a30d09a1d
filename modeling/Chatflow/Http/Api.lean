/-
# The editing server

A request is first understood as a call, without a look at the session: its path, its method, the id
in its path, the type, length and content of its body are checked in this order, and the first
fault decides the answer.  Then the call is made on the session.
-/
import Chatflow.Http.Cors
import Chatflow.Http.MediaType
import Chatflow.Http.Route
import Chatflow.Session

namespace Chatflow.Http

/-- What a request asks of the session. -/
inductive Call where
  /-- Is the server there? -/
  | health
  /-- The graph. -/
  | graph
  /-- Add a node, perhaps at a place. -/
  | addNode (type : NodeType) (data : NodeData) (position : Option Position)
  /-- Delete a node. -/
  | deleteNode (id : NodeId)
  /-- Copy a node. -/
  | copyNode (id : NodeId)
  /-- Replace the data of a node. -/
  | setData (id : NodeId) (data : NodeData)
  /-- Move a node. -/
  | setPosition (id : NodeId) (position : Position)
  /-- Connect two nodes. -/
  | connect (source target : NodeId)
  /-- Delete an edge. -/
  | deleteEdge (id : EdgeId)
  /-- The compiled script. -/
  | document
  /-- What the compiler noticed. -/
  | diagnostics
  /-- Start the script with another node. -/
  | setRoot (root : NodeId)

/-- Why a request is not understood. -/
inductive Refusal where
  /-- The path is not known. -/
  | noRoute
  /-- The path is known, but not with this method. -/
  | wrongMethod
  /-- The id in the path is not text. -/
  | badPath
  /-- The body is not declared as JSON. -/
  | notJson
  /-- The body is too long. -/
  | tooLong
  /-- The body is not JSON. -/
  | malformed
  /-- The body has not the expected shape. -/
  | mismatched
deriving DecidableEq, Repr

/-- The status of the answer to a request that is not understood. -/
def Refusal.status : Refusal → Nat
  | noRoute => 404
  | wrongMethod => 405
  | badPath => 400
  | notJson => 415
  | tooLong => 413
  | malformed => 400
  | mismatched => 422

namespace Call

/-! ### Understanding requests -/

/-- The largest number of bytes of a body. -/
def maxBodySize : Nat := 2097152

/-- Decodes the body of a request. -/
def decodeBody {α : Type} (decode : Json.Decoder α) (r : Request) : Except Refusal α :=
  if !(r.contentType.any isJson) then .error .notJson
  else if maxBodySize < r.body.utf8ByteSize then .error .tooLong
  else match Json.Decoder.ofText decode r.body with
    | .ok a => .ok a
    | .error .malformed => .error .malformed
    | .error .mismatched => .error .mismatched

/-- Decodes the id in a path. -/
def decodeId (part : List Char) : Except Refusal String :=
  match unescape? part with
  | some id => .ok id
  | none => .error .badPath

/-- The parts of a request for a node while it is decoded. -/
structure NewNode where
  type : Option NodeType := none
  data : Option NodeData := none
  position : Option (Option Position) := none

/-- The fields of a request for a node. -/
def newNodeFields : List (Json.Decoder.Field NewNode) :=
  [⟨"type", (·.type.isSome), fun room d parts =>
      (Node.decodeType room d).map fun type => { parts with type := some type }⟩,
   ⟨"data", (·.data.isSome), fun room d parts =>
      (NodeData.decode room d).map fun data => { parts with data := some data }⟩,
   ⟨"position", (·.position.isSome), fun room d parts =>
      (Json.Decoder.orNull Position.decode room d).map fun position =>
        { parts with position := some position }⟩]

/-- Decodes a request for a node; data and place may be missing, and the place may be null. -/
def decodeNewNode : Json.Decoder Call :=
  Json.Decoder.record newNodeFields {} fun parts => do
    return addNode (← parts.type) (parts.data.getD .empty) (parts.position.getD none)

/-- The parts of a request for an edge while it is decoded. -/
structure NewEdge where
  source : Option NodeId := none
  target : Option NodeId := none

/-- The fields of a request for an edge. -/
def newEdgeFields : List (Json.Decoder.Field NewEdge) :=
  [⟨"source", (·.source.isSome), fun room d parts =>
      (Json.Decoder.string room d).map fun source => { parts with source := some source }⟩,
   ⟨"target", (·.target.isSome), fun room d parts =>
      (Json.Decoder.string room d).map fun target => { parts with target := some target }⟩]

/-- Decodes a request for an edge. -/
def decodeNewEdge : Json.Decoder Call :=
  Json.Decoder.record newEdgeFields {} fun parts => do
    return connect (← parts.source) (← parts.target)

/-- The fields of a request for another root. -/
def newRootFields : List (Json.Decoder.Field (Option NodeId)) :=
  [⟨"root", (·.isSome), fun room d _ => (Json.Decoder.string room d).map some⟩]

/-- Decodes a request for another root. -/
def decodeNewRoot : Json.Decoder Call :=
  Json.Decoder.record newRootFields none fun root => root.map setRoot

/-- The call of a request on a route. -/
def ofRoute (r : Request) : Route → Method → Except Refusal Call
  | .health, .get => .ok health
  | .graph, .get => .ok graph
  | .nodes, .post => decodeBody decodeNewNode r
  | .node id, .delete => (decodeId id).map deleteNode
  | .nodeCopy id, .post => (decodeId id).map copyNode
  | .nodeData id, .put => do
    let id ← decodeId id
    return setData id (← decodeBody NodeData.decode r)
  | .nodePosition id, .put => do
    let id ← decodeId id
    return setPosition id (← decodeBody Position.decode r)
  | .edges, .post => decodeBody decodeNewEdge r
  | .edge id, .delete => (decodeId id).map deleteEdge
  | .document, .get => .ok document
  | .diagnostics, .get => .ok diagnostics
  | .root, .put => decodeBody decodeNewRoot r
  | _, _ => .error .wrongMethod

/-- The method whose route answers: a request for the head alone is routed like one for the
whole. -/
def routedMethod : Method → Method
  | .head => .get
  | method => method

/-- The call of a request. -/
def ofRequest (r : Request) : Except Refusal Call :=
  match Route.ofTarget? r.target with
  | none => .error .noRoute
  | some route => ofRoute r route (routedMethod r.method)

/-! ### Making calls -/

/-- The version of the server. -/
def version : String := "0.3.1"

/-- The answer to a call that failed. -/
def failed (f : Failure) : Response :=
  .json f.kind.status
    (.obj [("success", .bool false), ("error", .str (f.message?.getD ""))])

/-- The member that tells the revision. -/
def revisionMember (s : Session) : String × Json := ("revision", .ofNat s.revision)

/-- The answer to a call that made something with an id. -/
def created (id : String) (s : Session) : Response :=
  .json 201 (.obj [("id", .str id), revisionMember s])

/-- The answer to a call that changed something. -/
def changed (s : Session) : Response :=
  .json 200 (.obj [("success", .bool true), revisionMember s])

/-- The answer to an edit, from its receipt and the session after it. -/
def receiptResponse (s : Session) : Receipt → Response
  | .node id => created id s
  | .edge id => created id s
  | .nodeDeleted existed edges =>
    .json 200 (.obj [("removed", .bool existed), ("edges_removed", .ofNat edges),
      revisionMember s])
  | .edgeDeleted existed => .json 200 (.obj [("removed", .bool existed), revisionMember s])
  | .done => changed s

/-- Makes an edit. -/
def makeEdit (s : Session) (e : Edit) : Response × Session :=
  match s.edit e with
  | (.ok receipt, s) => (receiptResponse s receipt, s)
  | (.error err, s) => (failed err.failure, s)

/-- Adds a node and moves it to its place, if it has one.  The answer is that to adding it. -/
def makeNode (s : Session) (type : NodeType) (data : NodeData) (position : Option Position) :
    Response × Session :=
  match s.edit (.addNode type data), position with
  | (.ok (.node id), s), some position =>
    match s.edit (.setPosition id position) with
    | (.ok _, moved) => (created id moved, moved)
    | (.error err, s) => (failed err.failure, s)
  | (.ok receipt, s), _ => (receiptResponse s receipt, s)
  | (.error err, s), _ => (failed err.failure, s)

/-- Makes a call on a session. -/
def make (s : Session) : Call → Response × Session
  | health => (.json 200 (.obj [("status", .str "ok"), ("version", .str version)]), s)
  | graph =>
    (.json 200 (.obj (("root", .str s.root) :: revisionMember s :: s.graph.snapshot.members)), s)
  | addNode type data position => makeNode s type data position
  | deleteNode id => makeEdit s (.deleteNode id)
  | copyNode id => makeEdit s (.copyNode id)
  | setData id data => makeEdit s (.setData id data)
  | setPosition id position => makeEdit s (.setPosition id position)
  | connect source target => makeEdit s (.connect source target)
  | deleteEdge id => makeEdit s (.deleteEdge id)
  | document =>
    (match s.output with
      | .ok c => { status := 200, body := some c.document.text }
      | .error e => failed e.failure, s)
  | diagnostics =>
    (match s.output with
      | .ok c => .json 200 (.obj (("root", .str s.root) :: revisionMember s ::
          ("empty", .bool c.document.isEmpty) :: c.diagnostics.members))
      | .error e => failed e.failure, s)
  | setRoot root =>
    let s := s.setRoot root
    (changed s, s)

end Call

/-- Answers a request on a known path or refuses it. -/
def answer (s : Session) (r : Request) : Response × Session :=
  match Call.ofRequest r with
  | .ok call => call.make s
  | .error refusal => (.bare refusal.status, s)

/-- Answers a request.  A browser that asks what it may send never reaches a route. -/
def respond (cors : Cors) (s : Session) (r : Request) : Response × Session :=
  if r.method = .options then (cors.preflight r.origin, s)
  else
    let (response, s) := answer s r
    let response := if r.method = .head then response.headOnly else response
    (cors.mark r.origin response, s)

end Chatflow.Http
