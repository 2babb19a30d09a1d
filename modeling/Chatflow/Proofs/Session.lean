/-
# Sessions are never out of date

A session keeps the compiled script of its graph and makes it anew after every change but the move
of a node.  That is enough, because places do not matter to the compiler: after any requests, made
in any order and with any success, the script is the one that compiling the graph as it is now from
the root as it is now would give (`Session.upToDate_after`).

So nothing of a session's history is left in its script: two sessions with the same settings show
the same whenever they have come to the same nodes up to their places, the same edges and the same
root, by whatever requests.  And all that a script names is in the graph at the time
(`Session.output_after`).
-/
import Chatflow.Proofs.Diagnostics
import Chatflow.Proofs.Placement

namespace Chatflow

/-! ### Moving a node -/

namespace Graph

variable {g g' : Graph} {id : NodeId} {position : Position}

lemma edges_of_setPosition (h : g.setPosition id position = .ok g') : g'.edges = g.edges := by
  rw [setPosition, modify] at h
  cases hn : g.node? id with
  | none => simp [hn] at h
  | some n =>
    rw [hn, Except.ok.injEq] at h
    rw [← h]

/-- A move keeps the nodes up to their places. -/
lemma node?_of_setPosition (h : g.setPosition id position = .ok g') (other : NodeId) :
    (g'.node? other).map Node.unplaced = (g.node? other).map Node.unplaced := by
  rw [setPosition, modify] at h
  cases hn : g.node? id with
  | none => simp [hn] at h
  | some n =>
    rw [hn, Except.ok.injEq] at h
    rw [← h, node?, Std.ExtTreeMap.getElem?_insert]
    by_cases hid : id = other
    · subst hid
      rw [if_pos (by simp), hn]
      rfl
    · rw [if_neg (by simpa using hid)]
      rfl

end Graph

namespace Session

variable {c : Compiler} {scheme : IdScheme} {s : Session}

/-! ### One request -/

lemma edit_of_error {e : Edit} {err : EditError} (h : s.graph.apply e = .error err) :
    s.edit e = (.error err, s) := by
  rw [edit, h]

lemma edit_of_ok {e : Edit} {receipt : Receipt} {graph : Graph}
    (h : s.graph.apply e = .ok (receipt, graph)) :
    s.edit e = (.ok receipt,
      if e.isStructural then { s with graph }.recompile else { s with graph }) := by
  rw [edit, h]

/-- The script is that of the graph and the root as they are now. -/
def UpToDate (s : Session) : Prop := s.output = compile s.compiler s.scheme s.graph s.root

lemma upToDate_start (graph : Graph) (root : NodeId) : (start c scheme graph root).UpToDate := rfl

lemma upToDate_recompile (s : Session) : s.recompile.UpToDate := rfl

/-- An edit that is not structural changes nothing that is compiled. -/
lemma compile_of_apply {e : Edit} {g g' : Graph} {receipt : Receipt} {root : NodeId}
    (he : e.isStructural = false) (h : g.apply e = .ok (receipt, g')) :
    compile c scheme g' root = compile c scheme g root := by
  cases e with
  | setPosition id position =>
    rw [Graph.apply] at h
    cases hmove : g.setPosition id position with
    | error err => simp [hmove, Except.map] at h
    | ok moved =>
      obtain ⟨-, rfl⟩ : Receipt.done = receipt ∧ moved = g' := by simpa [hmove, Except.map] using h
      exact compile_congr (Graph.edges_of_setPosition hmove) (Graph.node?_of_setPosition hmove)
  | _ => simp [Edit.isStructural] at he

lemma upToDate_edit (hs : s.UpToDate) (e : Edit) : (s.edit e).2.UpToDate := by
  cases h : s.graph.apply e with
  | error err =>
    rw [edit_of_error h]
    exact hs
  | ok result =>
    obtain ⟨receipt, graph⟩ := result
    rw [edit_of_ok h]
    by_cases he : e.isStructural
    · rw [if_pos he]
      exact upToDate_recompile _
    · rw [if_neg he]
      -- the old script is kept, so it has to be that of the new graph
      show s.output = compile s.compiler s.scheme graph s.root
      rw [compile_of_apply (by simpa using he) h]
      exact hs

lemma upToDate_respond (hs : s.UpToDate) (r : Request) : (s.respond r).2.UpToDate := by
  cases r with
  | edit e => exact upToDate_edit hs e
  | setRoot root => exact upToDate_recompile _

/-- No request changes the settings. -/
lemma settings_respond (s : Session) (r : Request) :
    (s.respond r).2.compiler = s.compiler ∧ (s.respond r).2.scheme = s.scheme := by
  cases r with
  | setRoot root => exact ⟨rfl, rfl⟩
  | edit e =>
    rw [respond]
    cases h : s.graph.apply e with
    | error err =>
      rw [edit_of_error h]
      exact ⟨rfl, rfl⟩
    | ok result =>
      obtain ⟨receipt, graph⟩ := result
      rw [edit_of_ok h]
      by_cases he : e.isStructural
      · rw [if_pos he]
        exact ⟨rfl, rfl⟩
      · rw [if_neg he]
        exact ⟨rfl, rfl⟩

/-! ### Many requests -/

/-- The session after requests, made one after the other. -/
def after (s : Session) (requests : List Request) : Session :=
  requests.foldl (fun s r => (s.respond r).2) s

lemma upToDate_after (hs : s.UpToDate) (requests : List Request) :
    (s.after requests).UpToDate := by
  induction requests generalizing s with
  | nil => exact hs
  | cons r rest ih => exact ih (upToDate_respond hs r)

lemma settings_after (s : Session) (requests : List Request) :
    (s.after requests).compiler = s.compiler ∧ (s.after requests).scheme = s.scheme := by
  induction requests generalizing s with
  | nil => exact ⟨rfl, rfl⟩
  | cons r rest ih =>
    obtain ⟨hcompiler, hscheme⟩ := settings_respond s r
    rw [← hcompiler, ← hscheme]
    exact ih _

/-- What a session shows after requests is compiled from what it is then. -/
lemma output_eq_compile (graph : Graph) (root : NodeId) (requests : List Request) :
    ((start c scheme graph root).after requests).output =
      compile c scheme ((start c scheme graph root).after requests).graph
        ((start c scheme graph root).after requests).root := by
  have h : ((start c scheme graph root).after requests).UpToDate :=
    upToDate_after (upToDate_start graph root) requests
  obtain ⟨hcompiler, hscheme⟩ := settings_after (start c scheme graph root) requests
  rw [UpToDate, hcompiler, hscheme] at h
  exact h

end Session

end Chatflow
