/-
# The revision stands for the script

A session is told of edits and of other roots by its users directly or by requests to the server, in
any order (`Http.Event`).  When the script is made anew is a matter of what was asked for and of
whether it succeeded (`Renewal`): always for another root and for a deletion, also of something that
is not there, never for a move or a mere look, and for everything else if it succeeds.  With every
new script the revision grows by one, and without one nothing changes but the places of nodes
(`Session.RenewedIf`); this is shown of edits, of calls and of events (`Http.Event.renewedIf_next`).

So as long as the counter is below its maximum, a revision that is seen twice in a run means that
nothing has been renewed in between: the root, the script, the edges and the nodes up to their
places are the same (`Http.revision_run`).
-/
import Chatflow.Proofs.Saving

namespace Chatflow

/-! ### When the script is made anew -/

/-- When a request has the script made anew. -/
inductive Renewal where
  | always
  | onSuccess
  | never
deriving DecidableEq, Repr

/-- Whether the script was made anew, once it is known whether the request has succeeded. -/
def Renewal.takesPlace : Renewal → Bool → Bool
  | always, _ => true
  | onSuccess, succeeded => succeeded
  | never, _ => false

/-- When an edit has the script made anew. -/
def Edit.renewal : Edit → Renewal
  | deleteNode _ | deleteEdge _ => .always
  | addNode _ _ | copyNode _ | connect _ _ | setData _ _ => .onSuccess
  | setPosition _ _ => .never

/-- When a request to a session has the script made anew. -/
def Session.Request.renewal : Session.Request → Renewal
  | setRoot _ => .always
  | edit e => e.renewal

/-- When a call has the script made anew. -/
def Http.Call.renewal : Http.Call → Renewal
  | setRoot _ | deleteNode _ | deleteEdge _ => .always
  | addNode _ _ _ | copyNode _ | connect _ _ | setData _ _ => .onSuccess
  | setPosition _ _ | health | graph | document | diagnostics => .never

/-! ### Sessions that differ in places -/

namespace Session

variable {s s' s'' : Session}

/-- The same root, the same script or the same reason for having none, the same edges in the same
order and the same nodes up to their places. -/
structure SameButPlaces (s s' : Session) : Prop where
  root_eq : s.root = s'.root
  output_eq : s.output = s'.output
  edges_eq : s.graph.edges = s'.graph.edges
  node?_eq : ∀ id, (s.graph.node? id).map Node.unplaced = (s'.graph.node? id).map Node.unplaced

namespace SameButPlaces

lemma refl (s : Session) : s.SameButPlaces s := ⟨rfl, rfl, rfl, fun _ => rfl⟩

lemma symm (h : s.SameButPlaces s') : s'.SameButPlaces s :=
  ⟨h.root_eq.symm, h.output_eq.symm, h.edges_eq.symm, fun id => (h.node?_eq id).symm⟩

lemma trans (h : s.SameButPlaces s') (h' : s'.SameButPlaces s'') : s.SameButPlaces s'' :=
  ⟨h.root_eq.trans h'.root_eq, h.output_eq.trans h'.output_eq, h.edges_eq.trans h'.edges_eq,
    fun id => (h.node?_eq id).trans (h'.node?_eq id)⟩

end SameButPlaces

/-- What has become of a session when its script was made anew just if `renewed`. -/
structure RenewedIf (renewed : Bool) (s s' : Session) : Prop where
  revision_eq : s'.revision = if renewed then s.revision.next else s.revision
  sameButPlaces : ¬ renewed → s.SameButPlaces s'

namespace RenewedIf

lemma refl (s : Session) : RenewedIf false s s := ⟨rfl, fun _ => .refl s⟩

/-- What is done without making the script anew does not matter. -/
lemma trans {renewed : Bool} (h : RenewedIf renewed s s') (h' : RenewedIf false s' s'') :
    RenewedIf renewed s s'' :=
  ⟨h'.revision_eq.trans h.revision_eq,
    fun hrenewed => (h.sameButPlaces hrenewed).trans (h'.sameButPlaces (by simp))⟩

/-- The revision does not decrease, and grows by one at most. -/
lemma le_revision {renewed : Bool} (h : RenewedIf renewed s s')
    (hs : s.revision ≤ Counter.maximum) :
    s.revision ≤ s'.revision ∧ s'.revision ≤ Counter.maximum := by
  rw [h.revision_eq]
  cases renewed with
  | false => exact ⟨le_rfl, hs⟩
  | true => exact ⟨Counter.le_next hs, Counter.next_le_maximum _⟩

end RenewedIf

/-! ### Requests to a session -/

/-- The script is made anew by an edit that succeeds, as deletions always do, unless it is a
move. -/
lemma takesPlace_edit (s : Session) (e : Edit) :
    e.renewal.takesPlace (s.edit e).1.isOk = (e.isStructural && (s.edit e).1.isOk) := by
  cases e <;> rfl

lemma renewedIf_edit (s : Session) (e : Edit) :
    RenewedIf (e.renewal.takesPlace (s.edit e).1.isOk) s (s.edit e).2 := by
  rw [takesPlace_edit]
  cases happly : s.graph.apply e with
  | error err =>
    rw [edit_of_error happly, show Except.isOk (.error err : Except EditError Receipt) = false
      from rfl, Bool.and_false]
    exact .refl s
  | ok result =>
    rw [edit_of_ok happly, show Except.isOk (.ok result.1 : Except EditError Receipt) = true
      from rfl, Bool.and_true]
    cases e with
    | setPosition id position =>
      obtain ⟨graph, hmove, rfl⟩ := Json.Decoder.exists_of_map_eq_ok happly
      exact ⟨rfl, fun _ => ⟨rfl, rfl, (Graph.edges_of_setPosition hmove).symm,
        fun other => (Graph.node?_of_setPosition hmove other).symm⟩⟩
    | _ => exact ⟨rfl, fun h => absurd rfl h⟩

lemma renewedIf_respond (s : Session) (q : Request) :
    RenewedIf (q.renewal.takesPlace (s.respond q).1.isOk) s (s.respond q).2 := by
  cases q with
  | setRoot root => exact ⟨rfl, fun h => absurd rfl h⟩
  | edit e => exact renewedIf_edit s e

end Session

namespace Http

/-! ### Calls -/

namespace Call

variable {s : Session}

/-- The successes of calls that were made as edits are those of the edits. -/
lemma succeeded_makeEdit (s : Session) (e : Edit) :
    (makeEdit s e).1.Succeeded ↔ (s.edit e).1.isOk := by
  rw [makeEdit]
  cases h : s.graph.apply e with
  | error err =>
    rw [Session.edit_of_error h]
    exact iff_of_false (not_succeeded_failed _) (by simp [Except.isOk, Except.toBool])
  | ok result =>
    rw [Session.edit_of_ok h]
    refine iff_of_true ?_ rfl
    cases result.1 with
    | node id | edge id => exact succeeded_of_status (.inr rfl)
    | nodeDeleted existed edges | edgeDeleted existed | done => exact succeeded_of_status (.inl rfl)

lemma renewedIf_makeEdit (s : Session) (e : Edit) :
    s.RenewedIf (e.renewal.takesPlace (decide (makeEdit s e).1.Succeeded)) (makeEdit s e).2 := by
  rw [decide_eq_decide.2 (succeeded_makeEdit s e), Bool.decide_coe, snd_makeEdit]
  exact Session.renewedIf_edit s e

/-- A new node is moved to its place without the script being made anew once more. -/
lemma renewedIf_makeNode (s : Session) (type : NodeType) (data : NodeData)
    (position : Option Position) :
    s.RenewedIf (decide (makeNode s type data position).1.Succeeded)
      (makeNode s type data position).2 := by
  cases happly : s.graph.apply (.addNode type data) with
  | error err =>
    rw [makeNode_of_error happly, decide_eq_false (not_succeeded_failed _)]
    exact .refl s
  | ok result =>
    have hadd : s.RenewedIf true (s.after [.edit (.addNode type data)]) := by
      have hok : (s.edit (.addNode type data)).1.isOk = true := by
        rw [Session.edit_of_ok happly]
        rfl
      exact hok ▸ Session.renewedIf_edit s (.addNode type data)
    obtain ⟨id, s', hmake, -⟩ := makeNode_of_ok happly position
    have hsucceeded : (makeNode s type data position).1.Succeeded := by
      rw [hmake]
      exact succeeded_of_status (.inr rfl)
    rw [decide_eq_true hsucceeded]
    rcases snd_makeNode s type data position with hsnd | ⟨id, p, -, hsnd⟩
    · exact hsnd ▸ hadd
    · exact hsnd ▸ hadd.trans (Session.renewedIf_edit _ (.setPosition id p))

lemma renewedIf_make (s : Session) (call : Call) :
    s.RenewedIf (call.renewal.takesPlace (decide (call.make s).1.Succeeded)) (call.make s).2 := by
  cases call with
  | health | graph | document | diagnostics => exact .refl s
  | setRoot root => exact ⟨rfl, fun h => absurd rfl h⟩
  | addNode type data position => exact renewedIf_makeNode s type data position
  | deleteNode id => exact renewedIf_makeEdit s (.deleteNode id)
  | copyNode id => exact renewedIf_makeEdit s (.copyNode id)
  | setData id data => exact renewedIf_makeEdit s (.setData id data)
  | setPosition id position => exact renewedIf_makeEdit s (.setPosition id position)
  | connect source target => exact renewedIf_makeEdit s (.connect source target)
  | deleteEdge id => exact renewedIf_makeEdit s (.deleteEdge id)

end Call

/-! ### Events -/

/-- Something that happens to the session of a server. -/
inductive Event where
  /-- A request made to the session itself. -/
  | direct (q : Session.Request)
  /-- A request made to the server. -/
  | request (r : Request)

/-- What comes back. -/
inductive Answer where
  /-- An answer of the session. -/
  | direct (a : Except EditError Receipt)
  /-- An answer of the server. -/
  | response (r : Response)

/-- Whether the answer tells of success. -/
def Answer.succeeded : Answer → Bool
  | direct a => a.isOk
  | response r => r.Succeeded

namespace Event

/-- When an event has the script made anew; a request that is not understood never does. -/
def renewal : Event → Renewal
  | direct q => q.renewal
  | request r =>
    match Call.ofRequest r with
    | .ok call => call.renewal
    | .error _ => .never

/-- Lets the event happen. -/
def happen (cors : Cors) (s : Session) : Event → Answer × Session
  | direct q => (.direct (s.respond q).1, (s.respond q).2)
  | request r => (.response (respond cors s r).1, (respond cors s r).2)

/-- The session after the event. -/
def next (cors : Cors) (s : Session) (e : Event) : Session := (e.happen cors s).2

lemma renewedIf_next (cors : Cors) (s : Session) (e : Event) :
    s.RenewedIf (e.renewal.takesPlace (e.happen cors s).1.succeeded) (next cors s e) := by
  cases e with
  | direct q => exact Session.renewedIf_respond s q
  | request r =>
    show s.RenewedIf (Renewal.takesPlace _ (decide (respond cors s r).1.Succeeded))
      (respond cors s r).2
    rw [renewal]
    cases hcall : Call.ofRequest r with
    | error refusal =>
      rw [snd_respond_of_refused hcall]
      exact .refl s
    | ok call =>
      obtain ⟨hstatus, hsession, -⟩ :=
        @respond_of_ne_options cors s r (Call.ne_options_of_ofRequest hcall)
      have hanswer : answer s r = call.make s := by rw [answer, hcall]
      have hsucceeded : (respond cors s r).1.Succeeded ↔ (call.make s).1.Succeeded := by
        rw [Response.Succeeded, Response.Succeeded, hstatus, hanswer]
      rw [decide_eq_decide.2 hsucceeded, hsession, hanswer]
      exact Call.renewedIf_make s call

end Event

/-! ### Runs -/

/-- The session after events, which happen one after the other. -/
def afterEvents (cors : Cors) (s : Session) (events : List Event) : Session :=
  events.foldl (Event.next cors) s

variable {cors : Cors} {s : Session}

lemma afterEvents_append (cors : Cors) (s : Session) (events more : List Event) :
    afterEvents cors s (events ++ more) = afterEvents cors (afterEvents cors s events) more :=
  List.foldl_append

lemma le_revision_afterEvents (hs : s.revision ≤ Counter.maximum) (events : List Event) :
    s.revision ≤ (afterEvents cors s events).revision ∧
      (afterEvents cors s events).revision ≤ Counter.maximum := by
  induction events generalizing s with
  | nil => exact ⟨le_rfl, hs⟩
  | cons e rest ih =>
    obtain ⟨hle, hmax⟩ := (e.renewedIf_next cors s).le_revision hs
    obtain ⟨hle', hmax'⟩ := ih hmax
    exact ⟨hle.trans hle', hmax'⟩

/-- With the revision, root, script, edges and nodes up to places have stayed the same. -/
lemma sameButPlaces_afterEvents (hs : s.revision < Counter.maximum) {events : List Event}
    (h : (afterEvents cors s events).revision = s.revision) :
    s.SameButPlaces (afterEvents cors s events) := by
  induction events generalizing s with
  | nil => exact .refl s
  | cons e rest ih =>
    have hstep := e.renewedIf_next cors s
    obtain ⟨hle, hmax⟩ := hstep.le_revision hs.le
    have hrest : (afterEvents cors (Event.next cors s e) rest).revision = s.revision := h
    -- the revision stands still, so there was no renewal in this step
    have hsame : (Event.next cors s e).revision = s.revision :=
      le_antisymm (hrest ▸ (le_revision_afterEvents hmax rest).1) hle
    have hnot : ¬ e.renewal.takesPlace (e.happen cors s).1.succeeded := by
      intro hrenewed
      have hnext := hstep.revision_eq
      rw [if_pos hrenewed, Counter.next_of_lt hs] at hnext
      exact Nat.succ_ne_self _ (hnext.symm.trans hsame)
    exact (hstep.sameButPlaces hnot).trans (ih (hsame ▸ hs) (hrest.trans hsame.symm))

/-- In whatever order requests come to a session and to its server, below the maximum of the counter
the revision grows by one with every renewal, that is for another root, for a deletion and for the
success of whatever else is no move, and stays for all the rest; it never decreases; and at two
moments of one revision, the root, the script, the edges and the nodes up to their places are the
same. -/
theorem revision_run (cors : Cors) (c : Compiler) (scheme : IdScheme) (graph : Graph)
    (root : NodeId) (events : List Event) :
    let moment k := afterEvents cors (.start c scheme graph root) (events.take k)
    (∀ k e, events[k]? = some e → (moment k).revision < Counter.maximum →
      (moment (k + 1)).revision = (moment k).revision +
        if e.renewal.takesPlace (e.happen cors (moment k)).1.succeeded then 1 else 0) ∧
    (∀ k l, k ≤ l → (moment k).revision ≤ (moment l).revision) ∧
    ∀ k l, (moment k).revision = (moment l).revision → (moment k).revision < Counter.maximum →
      (moment k).SameButPlaces (moment l) := by
  intro moment
  have hstart : (Session.start c scheme graph root).revision ≤ Counter.maximum := by
    show 1 ≤ Counter.maximum
    decide
  have hmax : ∀ k, (moment k).revision ≤ Counter.maximum :=
    fun k => (le_revision_afterEvents hstart _).2
  have hlater : ∀ k l, k ≤ l → moment l = afterEvents cors (moment k) ((events.take l).drop k) := by
    intro k l hkl
    rw [← afterEvents_append, ← Nat.min_eq_left hkl, ← List.take_take, Nat.min_eq_left hkl,
      List.take_append_drop]
  refine ⟨fun k e he hlt => ?_, fun k l hkl => ?_, fun k l heq hlt => ?_⟩
  · have hnext : moment (k + 1) = Event.next cors (moment k) e := by
      show afterEvents cors _ (events.take (k + 1)) = _
      rw [List.take_add_one, he, Option.toList_some, afterEvents_append]
      rfl
    rw [hnext, (e.renewedIf_next cors (moment k)).revision_eq, Counter.next_of_lt hlt]
    split <;> rfl
  · rw [hlater k l hkl]
    exact (le_revision_afterEvents (hmax k) _).1
  · rcases Nat.le_total k l with hkl | hlk
    · rw [hlater k l hkl] at heq ⊢
      exact sameButPlaces_afterEvents hlt heq.symm
    · rw [heq] at hlt
      rw [hlater l k hlk] at heq ⊢
      exact (sameButPlaces_afterEvents hlt heq).symm

end Http

end Chatflow
