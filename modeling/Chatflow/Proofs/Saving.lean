/-
# What can be saved of an edited graph

Places come into a graph in two ways.  One that is read has been rounded to what a double can hold,
so it is read back as it is.  One that is computed, for a copy, is just the other place moved, and
beyond `2 ^ 53` that may lie between two doubles: the copy is saved at a place at which it is not
loaded (`Http.not_loadedFrom_farOut`).  Data comes in with fewer containers around it than it is
saved in: 127 levels may nest in the body of a request (`Http.Call.decodeBody_data`), and 124 in a
saved text.

All that the server does to a session comes to requests (`Http.exists_after_serve`), and these bring
into the graph only what the calls bring.  So it can be said exactly which graphs under edit can be
saved: in whatever way one has come about, it is loaded as it was just if it is savable
(`Http.loadedFrom_serve_iff`).
-/
import Chatflow.Proofs.Contents
import Chatflow.Proofs.Places
import Chatflow.Proofs.Reload
import Chatflow.Proofs.Server

namespace Chatflow

open Json (Decoder)

namespace Http

/-! ### Calls -/

namespace Call

/-- The call brings only data and places of these kinds. -/
def Brings (D : NodeData → Prop) (Q : Position → Prop) : Call → Prop
  | addNode _ data position => D data ∧ Q {} ∧ ∀ p ∈ position, Q p
  | copyNode id => (Edit.copyNode id).Brings D Q
  | setData _ data => D data
  | setPosition _ position => Q position
  | _ => True

/-- All numbers in the data of the call are integers of sixty-four bits. -/
def DataWhole : Call → Prop
  | addNode _ data _ | setData _ data => data.toJson.Whole
  | _ => True

variable {D : NodeData → Prop} {Q : Position → Prop}

lemma snd_makeEdit (s : Session) (e : Edit) : (makeEdit s e).2 = s.after [.edit e] := by
  show _ = (s.edit e).2
  rw [makeEdit]
  rcases s.edit e with ⟨_ | receipt, s'⟩ <;> rfl

/-- Adding a node is one request to the session, or two if it is moved to its place. -/
lemma snd_makeNode (s : Session) (type : NodeType) (data : NodeData) (position : Option Position) :
    (makeNode s type data position).2 = s.after [.edit (.addNode type data)] ∨
      ∃ id, ∃ p ∈ position, (makeNode s type data position).2
        = s.after [.edit (.addNode type data), .edit (.setPosition id p)] := by
  have hadd : s.after [.edit (.addNode type data)] = (s.edit (.addNode type data)).2 := rfl
  have hmove : ∀ id p, s.after [.edit (.addNode type data), .edit (.setPosition id p)]
      = ((s.edit (.addNode type data)).2.edit (.setPosition id p)).2 := fun _ _ => rfl
  simp only [hadd, hmove]
  unfold makeNode
  rcases s.edit (.addNode type data) with ⟨_ | receipt, s'⟩
  · exact .inl rfl
  · cases position with
    | none => cases receipt <;> exact .inl rfl
    | some p =>
      cases receipt with
      | node id =>
        refine .inr ⟨id, p, rfl, ?_⟩
        rcases h : s'.edit (.setPosition id p) with ⟨_ | _, moved⟩ <;> simp [h]
      | _ => exact .inl rfl

/-- What the server does to a session for a call comes to requests, and these bring what the call
brings. -/
lemma exists_after_make {call : Call} (h : call.Brings D Q) (s : Session) :
    ∃ requests, (call.make s).2 = s.after requests ∧
      ∀ e ∈ requests.flatMap (·.edit?.toList), e.Brings D Q := by
  have hedit : ∀ e : Edit, e.Brings D Q → ∃ requests, (makeEdit s e).2 = s.after requests ∧
      ∀ e ∈ requests.flatMap (·.edit?.toList), e.Brings D Q := by
    intro e he
    exact ⟨[.edit e], snd_makeEdit s e, by simpa [Session.Request.edit?] using he⟩
  cases call with
  | health | graph | document | diagnostics => exact ⟨[], rfl, by simp⟩
  | setRoot root => exact ⟨[.setRoot root], rfl, by simp [Session.Request.edit?]⟩
  | addNode type data position =>
    obtain ⟨hdata, hdefault, hposition⟩ := h
    rcases snd_makeNode s type data position with hmake | ⟨id, p, hp, hmake⟩
    · exact ⟨_, hmake, by simpa [Session.Request.edit?] using ⟨hdata, hdefault⟩⟩
    · exact ⟨_, hmake, by
        simpa [Session.Request.edit?] using ⟨⟨hdata, hdefault⟩, hposition p hp⟩⟩
  | deleteNode id => exact hedit _ trivial
  | copyNode id => exact hedit _ h
  | setData id data => exact hedit _ h
  | setPosition id position => exact hedit _ h
  | connect source target => exact hedit _ trivial
  | deleteEdge id => exact hedit _ trivial

/-- Data in the body of a request may nest at most 127 levels. -/
lemma decodeBody_data {r : Request} {data : NodeData} (htype : r.contentType.any isJson)
    (hbody : r.body = data.toJson.compact) (hsize : r.body.utf8ByteSize ≤ maxBodySize)
    (hwhole : data.toJson.Whole) :
    decodeBody NodeData.decode r
      = if data.toJson.nesting ≤ 127 then .ok data else .error .malformed := by
  have htext : Decoder.ofText NodeData.decode r.body
      = if data.toJson.nesting ≤ 127 then .ok data else .error .malformed := by
    rw [hbody, Json.compact, Decoder.ofText_write _ Json.Style.blank_compact hwhole]
    exact NodeData.decode_toDraft data 127
  rw [decodeBody, htype, if_neg (by simp), if_neg (Nat.not_lt.2 hsize), htext]
  by_cases h : data.toJson.nesting ≤ 127
  · rw [if_pos h, if_pos h]
  · rw [if_neg h, if_neg h]

lemma steady_of_newNode {room : Nat} {d : Json.Draft} {parts : NewNode}
    (h : Decoder.recordParts newNodeFields {} room d = .ok parts) :
    ∀ p ∈ parts.position.getD none, p.Steady := by
  have hsteady : ∀ position ∈ parts.position, ∀ p ∈ position, p.Steady := by
    refine Decoder.recordParts_induct
      (P := fun parts : NewNode => ∀ position ∈ parts.position, ∀ p ∈ position, p.Steady)
      h (by simp) ?_
    simp only [newNodeFields, List.forall_mem_cons]
    refine ⟨Decoder.Field.keeps_map fun _ _ _ _ _ hold => hold,
      Decoder.Field.keeps_map fun _ _ _ _ _ hold => hold, Decoder.Field.keeps_map ?_, by simp⟩
    intro room d position parts hposition _ position' heq p hp
    obtain rfl : position = position' := by simpa using heq
    unfold Decoder.orNull at hposition
    split at hposition
    · simp [← Except.ok.inj hposition] at hp
    · obtain ⟨q, hq, rfl⟩ := Decoder.exists_of_map_eq_ok hposition
      exact Option.some.inj hp ▸ Position.steady_of_decode hq
  cases hposition : parts.position with
  | none => simp
  | some position => simpa using hsteady position hposition

/-- A place that a request brings has been read, so only a copy can stand at one that is not read
back as it is. -/
lemma brings_of_understood {m : Method} {call : Call} (h : Understood m call)
    (hdata : call.DataWhole) (hsteady : ∀ p, Position.Steady p → Q p)
    (hcopy : ∀ id, call = copyNode id → call.Brings (·.toJson.Whole) Q) :
    call.Brings (·.toJson.Whole) Q := by
  cases h with
  | addNode decoded typed =>
    exact ⟨hdata, hsteady _ Position.steady_default,
      fun p hp => hsteady p (steady_of_newNode decoded p hp)⟩
  | copyNode id => exact hcopy id rfl
  | setData id decoded => exact hdata
  | setPosition id decoded => exact hsteady _ (Position.steady_of_decode decoded)
  | _ => trivial

end Call

/-! ### Runs of the server -/

variable {D : NodeData → Prop} {Q : Position → Prop}

/-- What the server does to a session in a run comes to requests, and these bring what the calls
bring. -/
lemma exists_after_serve (cors : Cors) (s : Session) {requests : List Request}
    (h : ∀ r ∈ requests, ∀ call, Call.ofRequest r = .ok call → call.Brings D Q) :
    ∃ qs, (serve cors s requests).2 = s.after qs ∧
      ∀ e ∈ qs.flatMap (·.edit?.toList), e.Brings D Q := by
  induction requests generalizing s with
  | nil => exact ⟨[], rfl, by simp⟩
  | cons r rest ih =>
    have hstep : ∃ qs, (respond cors s r).2 = s.after qs ∧
        ∀ e ∈ qs.flatMap (·.edit?.toList), e.Brings D Q := by
      by_cases hoptions : r.method = .options
      · refine ⟨[], ?_, by simp⟩
        rw [respond, if_pos hoptions]
        rfl
      · rw [(respond_of_ne_options hoptions).2.1, answer]
        cases hcall : Call.ofRequest r with
        | error refusal => exact ⟨[], rfl, by simp⟩
        | ok call => exact Call.exists_after_make (h r List.mem_cons_self call hcall) s
    obtain ⟨qs, hqs, hbrings⟩ := hstep
    -- what the request comes to, and behind that what the rest of the run comes to
    obtain ⟨more, hmore, hbrings'⟩ := ih (respond cors s r).2
      fun r' hr' => h r' (List.mem_cons_of_mem r hr')
    refine ⟨qs ++ more, ?_, fun e he => ?_⟩
    · rw [serve_cons, hmore, Session.after_append, hqs]
    · rw [List.flatMap_append, List.mem_append] at he
      exact he.elim (hbrings e) (hbrings' e)

/-- Every request of the run that is understood brings data whose numbers are integers of sixty-four
bits. -/
def BodiesWhole (requests : List Request) : Prop :=
  ∀ r ∈ requests, ∀ call, Call.ofRequest r = .ok call → call.DataWhole

section

variable {text : String} {saved : Snapshot} {g : Graph} {requests : List Request}

/-- After a run on an imported graph the graph is well formed, and all its data and places are such
as the snapshot and the calls bring. -/
lemma every_serve (hread : Snapshot.ofText text = .ok saved)
    (himport : Graph.ofSnapshot saved = .ok g) (hsaved : ∀ n ∈ saved.nodes, n.data.toJson.Whole)
    (hrequests : BodiesWhole requests) (hsteady : ∀ p, Position.Steady p → Q p)
    (hcopy : ∀ r ∈ requests, ∀ id, Call.ofRequest r = .ok (.copyNode id) →
      (Call.copyNode id).Brings (·.toJson.Whole) Q)
    (compiler : Compiler) (scheme : IdScheme) (root : NodeId) (cors : Cors) :
    let s := (serve cors (.start compiler scheme g root) requests).2
    s.graph.WellFormed ∧ s.revision ≤ Counter.maximum ∧
      ∀ n ∈ s.graph.nodeList, n.data.toJson.Whole ∧ Q n.position := by
  have hbrings : ∀ r ∈ requests, ∀ call, Call.ofRequest r = .ok call →
      call.Brings (·.toJson.Whole) Q := by
    intro r hr call hcall
    refine Call.brings_of_understood (Call.understood_of_ofRequest hcall)
      (hrequests r hr call hcall) hsteady ?_
    rintro id rfl
    exact hcopy r hr id hcall
  obtain ⟨qs, hqs, hedits⟩ :=
    exists_after_serve cors (.start compiler scheme g root) hbrings
  have hwell : (g.after (qs.flatMap (·.edit?.toList))).WellFormed :=
    Graph.after_induct (fun _ _ _ hg => hg.change)
      (Graph.wellFormed_of_initial (.imported himport)) _
  have hevery : (g.after (qs.flatMap (·.edit?.toList))).Every (·.toJson.Whole) Q := by
    refine Graph.Every.after (Graph.every_of_ofSnapshot himport fun n hn => ?_) hedits
    exact ⟨hsaved n hn, hsteady _ (Snapshot.steady_of_ofText hread n hn)⟩
  intro s
  have hgraph : s.graph = g.after (qs.flatMap (·.edit?.toList)) := by
    rw [show s = _ from hqs, Session.graph_after]
    rfl
  refine ⟨hgraph ▸ hwell, ?_, fun n hn => ?_⟩
  · rw [show s = _ from hqs]
    exact Session.revision_after_le (show 1 ≤ Counter.maximum by decide) qs
  · rw [hgraph] at hn
    exact hevery n.id n (hwell.node?_eq_some_iff.2 ⟨hn, rfl⟩)

/-- The answer to a request for the graph has the snapshot in it, behind the root and the
revision. -/
lemma body_graph {cors : Cors} {s : Session} {r : Request} (hget : r.method = .get)
    (hcall : Call.ofRequest r = .ok .graph) :
    (respond cors s r).1.body = some ((Json.obj ([("root", .str s.root), Call.revisionMember s] ++
      s.graph.snapshot.members)).write .compact) := by
  rw [(respond_of_ne_options (by simp [hget])).2.2 (by simp [hget]), answer, hcall]
  rfl

/-- After any requests to a session on an imported graph, all numbers in data being integers of
sixty-four bits, both the text of the snapshot and the body with the graph are loaded as the graph
just if the data of every node nests at most 124 levels and every place is read back as it is; and
without copies every place is. -/
theorem loadedFrom_serve_iff (hread : Snapshot.ofText text = .ok saved)
    (himport : Graph.ofSnapshot saved = .ok g) (hsaved : ∀ n ∈ saved.nodes, n.data.toJson.Whole)
    (hrequests : BodiesWhole requests) (compiler : Compiler) (scheme : IdScheme) (root : NodeId)
    (cors : Cors) :
    let s := (serve cors (.start compiler scheme g root) requests).2
    (s.graph.LoadedFrom s.graph.snapshot.text ↔ s.graph.Savable) ∧
      (∀ r : Request, r.method = .get → Call.ofRequest r = .ok .graph →
        ∃ body, (respond cors s r).1.body = some body ∧
          (s.graph.LoadedFrom body ↔ s.graph.Savable)) ∧
      ((∀ r ∈ requests, ∀ id, Call.ofRequest r ≠ .ok (.copyNode id)) →
        ∀ n ∈ s.graph.nodeList, n.position.Steady) := by
  intro s
  -- a copy may be at a place that is not steady, but it is in range
  obtain ⟨hwell, hrevision, hevery⟩ := every_serve (Q := Position.InRange) hread himport hsaved
    hrequests (fun _ hp => hp.inRange) (fun _ _ _ _ p _ => Position.inRange_offset p _ _)
    compiler scheme root cors
  have hdata : ∀ n ∈ s.graph.nodeList, n.data.toJson.Whole := fun n hn => (hevery n hn).1
  have hplaces : ∀ n ∈ s.graph.nodeList, n.position.InRange := fun n hn => (hevery n hn).2
  refine ⟨Graph.loadedFrom_text_iff hwell hdata hplaces,
    fun r hget hcall => ⟨_, body_graph hget hcall, ?_⟩, fun hcopy => ?_⟩
  · refine Graph.loadedFrom_write_iff Json.Style.blank_compact ?_ ?_ hwell hdata hplaces
    · simp [Call.revisionMember]
    · have hmax : s.revision ≤ 0xFFFFFFFFFFFFFFFF := hrevision
      have hwhole : (s.revision : Int) ≤ 0xFFFFFFFFFFFFFFFF := by exact_mod_cast hmax
      simp only [Call.revisionMember, Json.MembersWhole, Json.Whole, Json.ofNat,
        Json.Number.IsWhole, and_true, true_and]
      exact ⟨by omega, hwhole⟩
  · have hsteady := every_serve (Q := Position.Steady) hread himport hsaved hrequests
      (fun _ hp => hp) (fun r hr id hcall => absurd hcall (hcopy r hr id)) compiler scheme root cors
    exact fun n hn => (hsteady.2.2 n hn).2

end

/-- A request for a copy of the node `1`. -/
def copyRequest : Request := { method := .post, target := "/nodes/1/copy" }

lemma bodiesWhole_copyRequest : BodiesWhole [copyRequest] := by
  intro r hr call hcall
  obtain rfl := List.mem_singleton.1 hr
  obtain rfl := Except.ok.inj (show Except.ok (.copyNode "1") = Except.ok call from hcall)
  trivial

/-- After the request the copy is there under the next id. -/
lemma graph_serve_copyRequest {g : Graph} {n : Node} (hn : g.node? "1" = some n)
    (hlt : g.lastNode < Counter.maximum)
    (hfree : ¬ g.hasNode (Graph.nodeName (g.lastNode + 1))) (compiler : Compiler)
    (scheme : IdScheme) (root : NodeId) (cors : Cors) :
    (serve cors (.start compiler scheme g root) [copyRequest]).2.graph
      = Graph.put { g with lastNode := g.lastNode + 1 } { n with
          id := Graph.nodeName (g.lastNode + 1), position := n.position.offset 250 150 } := by
  have hcopy : g.apply (.copyNode "1") = .ok (.node (Graph.nodeName (g.lastNode + 1)),
      Graph.put { g with lastNode := g.lastNode + 1 } { n with
        id := Graph.nodeName (g.lastNode + 1), position := n.position.offset 250 150 }) := by
    simp only [Graph.apply, Graph.copyNode, hn, Graph.addNodeAt, Graph.nextNode?_eq hlt hfree]
    rfl
  have hserve : (serve cors (.start compiler scheme g root) [copyRequest]).2
      = (Call.makeEdit (.start compiler scheme g root) (.copyNode "1")).2 := rfl
  rw [hserve, Call.snd_makeEdit, Session.graph_after]
  show g.edited (.copyNode "1") = _
  rw [Graph.edited, hcopy]

/-- What a fresh editor opens with is loaded again after its document was copied. -/
theorem loadedFrom_starter : ∃ g, Graph.ofSnapshot .starter = .ok g ∧
    let s := (serve (.listed []) (.start {} .standard g "1") [copyRequest]).2
    s.graph.nodeList.map (·.id) = ["1", "2", "3"] ∧
      s.graph.LoadedFrom s.graph.snapshot.text ∧
      ∃ body, (respond (.listed []) s { method := .get, target := "/graph" }).1.body = some body ∧
        s.graph.LoadedFrom body := by
  have hsaved : ∀ n ∈ Snapshot.starter.nodes, n.data.toJson.Whole := by
    simp [Snapshot.starter, NodeData.titled, NodeData.insert, NodeData.empty, NodeData.toJson,
      Json.Members.insert, Json.Whole, Json.MembersWhole]
  have hread : Snapshot.ofText Snapshot.starter.text = .ok .starter :=
    Snapshot.ofText_text_of_steady hsaved
      (by simp [Snapshot.starter, NodeData.titled, NodeData.insert, NodeData.empty, NodeData.toJson,
        Json.Members.insert, Json.nesting, Json.membersNesting])
      (by decide)
  refine ⟨_, rfl, ?_⟩
  intro s
  have hgraph : s.graph = _ :=
    graph_serve_copyRequest rfl (by decide) (by decide) {} .standard "1" (.listed [])
  obtain ⟨htext, hbody, -⟩ := loadedFrom_serve_iff hread rfl hsaved bodiesWhole_copyRequest {}
    .standard "1" (.listed [])
  have hnodes : s.graph.nodeList = [
      { id := "1", type := .document, data := .titled "Node 1", position := ⟨100, 100⟩ },
      { id := "2", type := .template, data := .titled "Node 2", position := ⟨400, 100⟩ },
      { id := "3", type := .document, data := .titled "Node 1", position := ⟨350, 250⟩ }] := by
    rw [hgraph]
    rfl
  have hsavable : s.graph.Savable := by
    rw [Graph.Savable, hnodes]
    decide
  obtain ⟨body, heq, hloaded⟩ := hbody { method := .get, target := "/graph" } rfl rfl
  exact ⟨by rw [hnodes]; rfl, htext.2 hsavable, body, heq, hloaded.2 hsavable⟩

/-- A node so far out that a copy of it stands between two doubles. -/
def farOut : Snapshot where
  nodes := [{ id := "1", type := .flow, position := ⟨0x40000000000000, 0⟩ }]

/-- The copy of a node that was read is not always read back where it is. -/
theorem not_loadedFrom_farOut : ∃ g, Snapshot.ofText farOut.text = .ok farOut ∧
    Graph.ofSnapshot farOut = .ok g ∧ (∀ n ∈ farOut.nodes, n.data.toJson.Whole) ∧
    BodiesWhole [copyRequest] ∧
    let s := (serve (.listed []) (.start {} .standard g "1") [copyRequest]).2
    s.graph.node? "2" = some { id := "2", type := .flow, position := ⟨0x400000000000FA, 150⟩ } ∧
      ¬ s.graph.LoadedFrom s.graph.snapshot.text := by
  have hsaved : ∀ n ∈ farOut.nodes, n.data.toJson.Whole := by
    simp [farOut, NodeData.empty, NodeData.toJson, Json.Whole, Json.MembersWhole]
  have hread : Snapshot.ofText farOut.text = .ok farOut :=
    Snapshot.ofText_text_of_steady hsaved (by simp [farOut, NodeData.empty, NodeData.toJson,
      Json.nesting, Json.membersNesting]) (by decide)
  refine ⟨_, hread, rfl, hsaved, bodiesWhole_copyRequest, ?_⟩
  intro s
  have hgraph : s.graph = _ :=
    graph_serve_copyRequest rfl (by decide) (by decide) {} .standard "1" (.listed [])
  have hnode : s.graph.node? "2"
      = some { id := "2", type := .flow, position := ⟨0x400000000000FA, 150⟩ } := by
    rw [hgraph]
    rfl
  refine ⟨hnode, fun hloaded => ?_⟩
  obtain ⟨hwell, -, hevery⟩ := every_serve (Q := Position.InRange) hread rfl hsaved
    bodiesWhole_copyRequest (fun _ hp => hp.inRange)
    (fun _ _ _ _ p _ => Position.inRange_offset p _ _) {} .standard "1" (.listed [])
  have hsavable : s.graph.Savable := (Graph.loadedFrom_text_iff hwell
    (fun n hn => (hevery n hn).1) fun n hn => (hevery n hn).2).1 hloaded
  have hsteady := (hsavable _ (hwell.node?_eq_some_iff.1 hnode).1).2
  exact absurd hsteady (by decide)

end Http

end Chatflow
