/-
# Requests that fail change nothing

Of a request that is not understood the session never hears.  One that is understood asks for one of
the calls of `Call.Understood`, and a call either fails, and then the session is as before, or
succeeds and tells the revision that the session has come to (`Call.Settled`).  Placing a new node
takes two edits, but the second cannot fail, since the first has just put the node there
(`Call.makeNode_of_ok`).

So a request that fails or only reads leaves no trace.  If all such requests are left out of a run,
the others get the very answers that they got, and the session ends where it ended
(`Http.respond_atomic`).
-/
import Mathlib.Data.List.Basic
import Chatflow.Http.Api
import Chatflow.Proofs.InPlace
import Chatflow.Proofs.Json.Decoding
import Chatflow.Proofs.Session

namespace Chatflow

/-! ### Adding a node -/

namespace Graph

/-- A new node is found under the id that was reported. -/
lemma node?_of_addNodeAt {g g' : Graph} {type : NodeType} {data : NodeData} {position : Position}
    {id : NodeId} (h : g.addNodeAt type data position = .ok (id, g')) :
    g'.node? id = some ⟨id, type, data, position⟩ := by
  rw [addNodeAt] at h
  split at h
  · simp at h
  · obtain ⟨rfl, rfl⟩ : _ = id ∧ _ = g' := by simpa using h
    rw [node?_put, if_pos rfl]

/-- A node that is there can be moved. -/
lemma exists_setPosition {g : Graph} {id : NodeId} {n : Node} (h : g.node? id = some n)
    (position : Position) :
    ∃ g', g.apply (.setPosition id position) = .ok (.done, g') ∧
      g'.node? id = some { n with position } := by
  refine ⟨_, by rw [apply, setPosition, modify, h]; rfl, ?_⟩
  rw [node?_insert, if_pos rfl]

end Graph

namespace Http

open Json (Decoder)

/-! ### Answers -/

/-- Whether the status tells of success. -/
def Response.Succeeded (r : Response) : Prop := 200 ≤ r.status ∧ r.status < 300

instance : DecidablePred Response.Succeeded := fun r =>
  inferInstanceAs (Decidable (200 ≤ r.status ∧ r.status < 300))

/-- The body is an object with a revision, which is this one. -/
def Response.TellsRevision (r : Response) (revision : Counter) : Prop :=
  ∃ members : Json.Members, r.body = some (Json.obj members).compact ∧
    members.get? "revision" = some (.ofNat revision)

/-! ### Understood requests -/

namespace Call

/-- The calls that are understood from requests of a method, with what their bodies were decoded
from. -/
inductive Understood : Method → Call → Prop where
  | health : Understood .get health
  | graph : Understood .get graph
  | addNode {d : Json.Draft} {parts : NewNode} {type : NodeType}
      (decoded : Decoder.recordParts newNodeFields {} Json.maxNesting d = .ok parts)
      (typed : parts.type = some type) :
      Understood .post (addNode type (parts.data.getD .empty) (parts.position.getD none))
  | deleteNode (id : NodeId) : Understood .delete (deleteNode id)
  | copyNode (id : NodeId) : Understood .post (copyNode id)
  | setData (id : NodeId) {d : Json.Draft} {data : NodeData}
      (decoded : NodeData.decode Json.maxNesting d = .ok data) : Understood .put (setData id data)
  | setPosition (id : NodeId) {d : Json.Draft} {position : Position}
      (decoded : Position.decode Json.maxNesting d = .ok position) :
      Understood .put (setPosition id position)
  | connect (source target : NodeId) : Understood .post (connect source target)
  | deleteEdge (id : EdgeId) : Understood .delete (deleteEdge id)
  | document : Understood .get document
  | diagnostics : Understood .get diagnostics
  | setRoot (root : NodeId) : Understood .put (setRoot root)

lemma exists_of_decodeBody {α : Type} {decode : Decoder α} {r : Request} {a : α}
    (h : decodeBody decode r = .ok a) : ∃ d, decode Json.maxNesting d = .ok a := by
  rw [decodeBody] at h
  split at h
  · simp at h
  · split at h
    · simp at h
    · split at h
      · next hdecode => exact Decoder.exists_of_ofText (by rw [hdecode, Except.ok.inj h])
      · simp at h
      · simp at h

lemma understood_of_ofRoute {r : Request} {route : Route} {m : Method} {call : Call}
    (h : ofRoute r route m = .ok call) : Understood m call := by
  unfold ofRoute at h
  -- one case a route, in the order of their declaration, and the last for all that does not fit
  split at h
  · exact Except.ok.inj h ▸ .health
  · exact Except.ok.inj h ▸ .graph
  · obtain ⟨d, hd⟩ := exists_of_decodeBody h
    obtain ⟨parts, hparts, hcomplete⟩ := Decoder.exists_of_record hd
    cases htype : parts.type with
    | none => simp [htype] at hcomplete
    | some type =>
      obtain rfl : _ = call := by simpa [htype] using hcomplete
      exact .addNode hparts htype
  · obtain ⟨id, -, rfl⟩ := Decoder.exists_of_map_eq_ok h
    exact .deleteNode id
  · obtain ⟨id, -, rfl⟩ := Decoder.exists_of_map_eq_ok h
    exact .copyNode id
  · obtain ⟨id, -, h⟩ := Decoder.exists_of_bind_eq_ok h
    obtain ⟨data, hdata, h⟩ := Decoder.exists_of_bind_eq_ok h
    obtain ⟨d, hd⟩ := exists_of_decodeBody hdata
    exact Except.ok.inj h ▸ .setData id hd
  · obtain ⟨id, -, h⟩ := Decoder.exists_of_bind_eq_ok h
    obtain ⟨position, hposition, h⟩ := Decoder.exists_of_bind_eq_ok h
    obtain ⟨d, hd⟩ := exists_of_decodeBody hposition
    exact Except.ok.inj h ▸ .setPosition id hd
  · obtain ⟨d, hd⟩ := exists_of_decodeBody h
    obtain ⟨parts, -, hcomplete⟩ := Decoder.exists_of_record hd
    cases hsource : parts.source with
    | none => simp [hsource] at hcomplete
    | some source =>
      cases htarget : parts.target with
      | none => simp [hsource, htarget] at hcomplete
      | some target =>
        obtain rfl : _ = call := by simpa [hsource, htarget] using hcomplete
        exact .connect source target
  · obtain ⟨id, -, rfl⟩ := Decoder.exists_of_map_eq_ok h
    exact .deleteEdge id
  · exact Except.ok.inj h ▸ .document
  · exact Except.ok.inj h ▸ .diagnostics
  · obtain ⟨d, hd⟩ := exists_of_decodeBody h
    obtain ⟨root, -, hcomplete⟩ := Decoder.exists_of_record hd
    cases root with
    | none => simp at hcomplete
    | some root =>
      obtain rfl : _ = call := by simpa using hcomplete
      exact .setRoot root
  · simp at h

lemma understood_of_ofRequest {r : Request} {call : Call} (h : ofRequest r = .ok call) :
    Understood (routedMethod r.method) call := by
  rw [ofRequest] at h
  split at h
  · simp at h
  · exact understood_of_ofRoute h

/-! ### Calls -/

/-- A call either failed and left the session as it was, or succeeded and tells the revision that
the session has come to. -/
def Settled (s : Session) (result : Response × Session) : Prop :=
  (¬ result.1.Succeeded ∧ result.2 = s) ∨
    (result.1.Succeeded ∧ result.1.TellsRevision result.2.revision)

lemma not_succeeded_failed (f : Failure) : ¬ (failed f).Succeeded := by
  have hkind : ∀ kind : ErrorKind, ¬ kind.status < 300 := by
    intro kind
    cases kind <;> decide
  exact fun h => hkind f.kind h.2

lemma succeeded_of_status {r : Response} (h : r.status = 200 ∨ r.status = 201) : r.Succeeded := by
  rcases h with h | h <;> simp [Response.Succeeded, h]

lemma settled_receiptResponse (s s' : Session) (receipt : Receipt) :
    Settled s (receiptResponse s' receipt, s') := by
  refine .inr ?_
  cases receipt with
  | node id => exact ⟨succeeded_of_status (.inr rfl), _, rfl, rfl⟩
  | edge id => exact ⟨succeeded_of_status (.inr rfl), _, rfl, rfl⟩
  | nodeDeleted existed edges => exact ⟨succeeded_of_status (.inl rfl), _, rfl, rfl⟩
  | edgeDeleted existed => exact ⟨succeeded_of_status (.inl rfl), _, rfl, rfl⟩
  | done => exact ⟨succeeded_of_status (.inl rfl), _, rfl, rfl⟩

variable {s : Session} {type : NodeType} {data : NodeData}

lemma settled_makeEdit (s : Session) (e : Edit) : Settled s (makeEdit s e) := by
  rw [makeEdit]
  cases h : s.graph.apply e with
  | error err =>
    rw [Session.edit_of_error h]
    exact .inl ⟨not_succeeded_failed _, rfl⟩
  | ok result =>
    rw [Session.edit_of_ok h]
    exact settled_receiptResponse s _ _

lemma makeNode_of_error {err : EditError} (h : s.graph.apply (.addNode type data) = .error err)
    (position : Option Position) :
    makeNode s type data position = (failed err.failure, s) := by
  unfold makeNode
  rw [Session.edit_of_error h]

/-- Where a node can be added, it is added at its place, if it has one. -/
lemma makeNode_of_ok {receipt : Receipt} {g : Graph}
    (h : s.graph.apply (.addNode type data) = .ok (receipt, g)) (position : Option Position) :
    ∃ id s', makeNode s type data position = (created id s', s') ∧
      s'.graph.node? id = some ⟨id, type, data, position.getD {}⟩ := by
  obtain ⟨⟨id, g'⟩, hadd, heq⟩ := Decoder.exists_of_map_eq_ok h
  obtain ⟨rfl, rfl⟩ := Prod.mk.inj heq
  have hnode := Graph.node?_of_addNodeAt hadd
  have hedit : s.edit (.addNode type data) = (.ok (.node id), { s with graph := g' }.recompile) :=
    Session.edit_of_ok h
  refine ⟨id, ?_⟩
  unfold makeNode
  rw [hedit]
  cases position with
  | none => exact ⟨_, rfl, hnode⟩
  | some position =>
    -- the graph that the second edit is made in has the node
    obtain ⟨moved, hmove, hmoved⟩ := Graph.exists_setPosition hnode position
    have hedit' := @Session.edit_of_ok { s with graph := g' }.recompile _ _ _ hmove
    simp only [hedit']
    exact ⟨_, rfl, hmoved⟩

lemma settled_makeNode (s : Session) (type : NodeType) (data : NodeData)
    (position : Option Position) : Settled s (makeNode s type data position) := by
  cases h : s.graph.apply (.addNode type data) with
  | error err =>
    rw [makeNode_of_error h]
    exact .inl ⟨not_succeeded_failed _, rfl⟩
  | ok result =>
    -- the node is there with its place, so moving it was no second chance to fail
    obtain ⟨id, s', hmake, -⟩ := makeNode_of_ok h position
    rw [hmake]
    exact settled_receiptResponse s s' (.node id)

/-- A call that was read by GET leaves the session alone, and every other is settled. -/
lemma settled_make {m : Method} {call : Call} (h : Understood m call) (s : Session) :
    if m = .get then (call.make s).2 = s else Settled s (call.make s) := by
  cases h with
  | health | graph | document | diagnostics => exact rfl
  | addNode decoded typed => exact settled_makeNode s _ _ _
  | setRoot root => exact .inr ⟨succeeded_of_status (.inl rfl), _, rfl, rfl⟩
  | deleteNode id => exact settled_makeEdit s _
  | copyNode id => exact settled_makeEdit s _
  | setData id decoded => exact settled_makeEdit s _
  | setPosition id decoded => exact settled_makeEdit s _
  | connect source target => exact settled_makeEdit s _
  | deleteEdge id => exact settled_makeEdit s _

end Call

/-! ### Requests -/

lemma Call.routedMethod_eq_get_iff {m : Method} :
    routedMethod m = .get ↔ m = .get ∨ m = .head := by
  cases m <;> simp [routedMethod]

variable {cors : Cors} {s : Session} {r : Request}

/-- The answer of the server is that of the route but for the marks of the origin and, where only
the head was asked for, the body. -/
lemma respond_of_ne_options (h : r.method ≠ .options) :
    (respond cors s r).1.status = (answer s r).1.status ∧
      (respond cors s r).2 = (answer s r).2 ∧
      (r.method ≠ .head → (respond cors s r).1.body = (answer s r).1.body) := by
  rw [respond, if_neg h]
  by_cases hhead : r.method = .head
  · simp [hhead, Cors.mark, Response.headOnly]
  · simp [hhead, Cors.mark]

/-- A request that is understood is not one that a browser asks what it may send with. -/
lemma Call.ne_options_of_ofRequest {call : Call} (h : Call.ofRequest r = .ok call) :
    r.method ≠ .options := by
  intro hm
  have hunderstood := Call.understood_of_ofRequest h
  rw [hm] at hunderstood
  cases hunderstood

/-- Of a request that is not understood the session never hears. -/
lemma snd_respond_of_refused {refusal : Refusal} (h : Call.ofRequest r = .error refusal) :
    (respond cors s r).2 = s := by
  by_cases hoptions : r.method = .options
  · rw [respond, if_pos hoptions]
  · rw [(respond_of_ne_options hoptions).2.1, answer, h]

/-- The methods that only read. -/
def readingMethods : List Method := [.get, .head, .options]

/-- A request that fails or only reads leaves the session as it was. -/
lemma respond_unchanged
    (h : r.method ∈ readingMethods ∨ ¬ (respond cors s r).1.Succeeded) :
    (respond cors s r).2 = s := by
  by_cases hoptions : r.method = .options
  · rw [respond, if_pos hoptions]
  obtain ⟨hstatus, hsession, -⟩ := @respond_of_ne_options cors s r hoptions
  rw [Response.Succeeded, hstatus] at h
  rw [hsession]
  rw [answer] at h ⊢
  cases hcall : Call.ofRequest r with
  | error refusal => rfl
  | ok call =>
    simp only [hcall] at h ⊢
    have hmake := Call.settled_make (Call.understood_of_ofRequest hcall) s
    split at hmake
    · exact hmake
    · next hget =>
      rcases hmake with ⟨-, hs⟩ | ⟨hsucceeded, -⟩
      · exact hs
      · -- it succeeded, so its method would have to be one that reads
        rcases h with hreads | hfailed
        · simp only [readingMethods, List.mem_cons, List.not_mem_nil, or_false] at hreads
          rw [Call.routedMethod_eq_get_iff] at hget
          tauto
        · exact absurd hsucceeded hfailed

lemma not_succeeded_refusal (refusal : Refusal) : ¬ (Response.bare refusal.status).Succeeded := by
  cases refusal <;> decide

/-- A request that changes something and succeeds is told the revision after it. -/
lemma respond_tellsRevision (hm : r.method ∉ readingMethods)
    (h : (respond cors s r).1.Succeeded) :
    (respond cors s r).1.TellsRevision (respond cors s r).2.revision := by
  simp only [readingMethods, List.mem_cons, List.not_mem_nil, or_false, not_or] at hm
  obtain ⟨hget, hhead, hoptions⟩ := hm
  obtain ⟨hstatus, hsession, hbody⟩ := @respond_of_ne_options cors s r hoptions
  rw [Response.Succeeded, hstatus] at h
  rw [Response.TellsRevision, hbody hhead, hsession]
  rw [answer] at h ⊢
  cases hcall : Call.ofRequest r with
  | error refusal =>
    rw [hcall] at h
    exact absurd h (not_succeeded_refusal refusal)
  | ok call =>
    simp only [hcall] at h ⊢
    have hmake := Call.settled_make (Call.understood_of_ofRequest hcall) s
    rw [if_neg (by simp [Call.routedMethod_eq_get_iff, hget, hhead])] at hmake
    rcases hmake with ⟨hfailed, -⟩ | ⟨-, htells⟩
    · exact absurd h hfailed
    · exact htells

/-- A request for a node at a place is answered with the id under which the node then stands there,
if a new id can be found at all. -/
lemma respond_addNode {type : NodeType} {data : NodeData} {position : Position}
    (hcall : Call.ofRequest r = .ok (.addNode type data (some position))) {receipt : Receipt}
    {g : Graph} (h : s.graph.apply (.addNode type data) = .ok (receipt, g)) :
    (respond cors s r).1.status = 201 ∧
      ∃ id, (respond cors s r).2.graph.node? id = some ⟨id, type, data, position⟩ := by
  obtain ⟨hstatus, hsession, -⟩ :=
    @respond_of_ne_options cors s r (Call.ne_options_of_ofRequest hcall)
  obtain ⟨id, s', hmake, hnode⟩ := Call.makeNode_of_ok h (some position)
  rw [hstatus, hsession, answer, hcall]
  simp only [Call.make, hmake]
  exact ⟨rfl, id, hnode⟩

/-! ### Runs -/

/-- The requests of a run with their answers, and the session after it. -/
def serve (cors : Cors) (s : Session) : List Request → List (Request × Response) × Session
  | [] => ([], s)
  | r :: rest =>
    let (answer, s) := respond cors s r
    let (exchanges, s) := serve cors s rest
    ((r, answer) :: exchanges, s)

lemma serve_cons (cors : Cors) (s : Session) (r : Request) (rest : List Request) :
    serve cors s (r :: rest) =
      ((r, (respond cors s r).1) :: (serve cors (respond cors s r).2 rest).1,
        (serve cors (respond cors s r).2 rest).2) := rfl

/-- Whether a request was one that changes something and succeeded. -/
def counts (exchange : Request × Response) : Bool :=
  exchange.1.method ∉ readingMethods ∧ exchange.2.Succeeded

/-- Without the requests that fail or only read a run goes the same way. -/
lemma serve_filter_counts (cors : Cors) (s : Session) (requests : List Request) :
    let run := serve cors s requests
    serve cors s ((run.1.filter counts).map Prod.fst) = (run.1.filter counts, run.2) := by
  induction requests generalizing s with
  | nil => rfl
  | cons r rest ih =>
    simp only [serve_cons] at ih ⊢
    by_cases hcounts : counts (r, (respond cors s r).1)
    · rw [List.filter_cons_of_pos hcounts, List.map_cons, serve_cons, ih]
    · rw [List.filter_cons_of_neg hcounts]
      have hs : (respond cors s r).2 = s := by
        refine respond_unchanged ?_
        simp only [counts, decide_eq_true_eq] at hcounts
        tauto
      rw [hs]
      exact ih s

/-- A request that fails or only reads leaves the session as it was, so that a run goes the same way
without all such requests; one that changes something and succeeds is told the revision after it;
a new node is never there without its place; and no edit of a session or of a graph, made in place,
is left half done by its error. -/
theorem respond_atomic (cors : Cors) (s : Session) :
    (∀ r : Request, r.method ∈ readingMethods ∨ ¬ (respond cors s r).1.Succeeded →
      (respond cors s r).2 = s) ∧
    (∀ requests, let run := serve cors s requests
      serve cors s ((run.1.filter counts).map Prod.fst) = (run.1.filter counts, run.2)) ∧
    (∀ r : Request, r.method ∉ readingMethods → (respond cors s r).1.Succeeded →
      (respond cors s r).1.TellsRevision (respond cors s r).2.revision) ∧
    (∀ r type data position receipt g,
      Call.ofRequest r = .ok (.addNode type data (some position)) →
        s.graph.apply (.addNode type data) = .ok (receipt, g) →
          (respond cors s r).1.status = 201 ∧
            ∃ id, (respond cors s r).2.graph.node? id = some ⟨id, type, data, position⟩) ∧
    (∀ q err s', s.respond q = (.error err, s') → s' = s) ∧
    ∀ e g err g', (InPlace.ofEdit e).runOn g = (.error err, g') → g' = g := by
  refine ⟨fun r h => respond_unchanged h, serve_filter_counts cors s,
    fun r hm h => respond_tellsRevision hm h, ?_, fun q err s' h => Session.eq_of_respond_error h,
    fun e g err g' h => InPlace.eq_of_runOn_ofEdit_error h⟩
  intro r type data position receipt g hcall h
  exact respond_addNode hcall h

end Http

end Chatflow
