/-
# What an import accepts and what it changes

A snapshot is accepted just if it is valid: its nodes have different ids, its edges have different
ids, and every end of an edge is among its nodes (`Snapshot.Valid`).  What is said of any other
snapshot is its first fault (`Snapshot.FirstFault`): the first node that repeats an id, or if there
is none, the first edge behind which the snapshot is no longer valid, and of that edge its id before
its source and its source before its target.

An accepted snapshot loses nothing but the order of its nodes, which are listed by their ids from
then on.  Ids are compared code point by code point, and that is the order of their bytes in UTF-8
(`utf8_lt_of_lt`).  As the compiler looks nodes up by their ids and edges in their order, it makes
the same of the lists of the snapshot as of the imported graph (`Graph.ofSnapshot_exact`).
-/
import Mathlib.Data.List.Induction
import Mathlib.Tactic.SplitIfs
import Chatflow.Proofs.Reachable
import Chatflow.Proofs.Reload

namespace Chatflow

/-! ### The order of bytes -/

/-- The bytes of a text in UTF-8. -/
def utf8 (s : String) : List UInt8 := s.toByteArray.data.toList

lemma utf8_eq_flatMap (s : String) : utf8 s = s.toList.flatMap String.utf8EncodeChar := by
  rw [utf8, ← String.utf8Encode_toList, List.utf8Encode, List.toList_data_toByteArray]

lemma ofNat_cons_lt_iff {m n : Nat} (hm : m < 256) (hn : n < 256) {xs ys : List UInt8} :
    UInt8.ofNat m :: xs < UInt8.ofNat n :: ys ↔ m < n ∨ m = n ∧ xs < ys := by
  have heq : UInt8.ofNat m = UInt8.ofNat n ↔ m = n := by
    rw [← UInt8.toNat_inj, UInt8.toNat_ofNat_of_lt' hm, UInt8.toNat_ofNat_of_lt' hn]
  rw [List.cons_lt_cons_iff, UInt8.ofNat_lt_iff_lt hm hn, heq]

/-- The bytes of two characters tell which is less, whatever follows them. -/
lemma utf8EncodeChar_append_lt {c d : Char} (h : c < d) (xs ys : List UInt8) :
    String.utf8EncodeChar c ++ xs < String.utf8EncodeChar d ++ ys := by
  have hlt : c.val.toNat < d.val.toNat := h
  have hd : d.val.toNat < 0x110000 := by
    rcases d.valid with hd | ⟨-, hd⟩ <;> omega
  rw [String.utf8EncodeChar, String.utf8EncodeChar]
  generalize c.val.toNat = m at hlt
  generalize d.val.toNat = n at hlt hd
  -- the bytes behind the first are digits to the base 64
  have h4096 : ∀ k : Nat, k / 4096 = k / 64 / 64 := fun k => by omega
  have h262144 : ∀ k : Nat, k / 262144 = k / 64 / 64 / 64 := fun k => by omega
  simp only [h4096, h262144]
  split_ifs
  all_goals
    simp (disch := omega) only [List.cons_append, List.nil_append, ofNat_cons_lt_iff]
    omega

/-- Texts are in the order of their bytes. -/
lemma utf8_lt_of_lt {s t : String} (h : s < t) : utf8 s < utf8 t := by
  rw [utf8_eq_flatMap, utf8_eq_flatMap]
  rw [String.lt_iff] at h
  generalize s.toList = cs at h ⊢
  generalize t.toList = ds at h ⊢
  induction cs generalizing ds with
  | nil =>
    cases ds with
    | nil => simp at h
    | cons d ds =>
      obtain ⟨b, bs, hd⟩ := List.exists_cons_of_ne_nil (String.utf8EncodeChar_ne_nil (c := d))
      rw [List.flatMap_nil, List.flatMap_cons, hd]
      exact List.nil_lt_cons _ _
  | cons c cs ih =>
    cases ds with
    | nil => simp at h
    | cons d ds =>
      rw [List.flatMap_cons, List.flatMap_cons]
      rcases List.cons_lt_cons_iff.1 h with hlt | ⟨rfl, hlt⟩
      · exact utf8EncodeChar_append_lt hlt _ _
      · exact List.append_left_lt (ih ds hlt)

/-! ### Faults -/

namespace Snapshot

/-- The snapshot describes a graph: no id is there twice, and no edge ends where there is no
node. -/
structure Valid (s : Snapshot) : Prop where
  nodup_nodes : (s.nodes.map (·.id)).Nodup
  nodup_edges : (s.edges.map (·.id)).Nodup
  source_mem : ∀ e ∈ s.edges, e.source ∈ s.nodes.map (·.id)
  target_mem : ∀ e ∈ s.edges, e.target ∈ s.nodes.map (·.id)

/-- The fault that comes first in a snapshot, and how it is told: all was sound before. -/
inductive FirstFault (s : Snapshot) : Fault → String → Prop where
  /-- A node has the id of one before it. -/
  | duplicateNode {before after : List Node} {n : Node} (split : s.nodes = before ++ n :: after)
    (sound : (before.map (·.id)).Nodup) (repeated : n.id ∈ before.map (·.id)) :
    FirstFault s (.duplicateNode n.id) s!"duplicate node id '{n.id}'"
  /-- An edge has the id of one before it. -/
  | duplicateEdge {before after : List Edge} {e : Edge} (split : s.edges = before ++ e :: after)
    (sound : Valid ⟨s.nodes, before⟩) (repeated : e.id ∈ before.map (·.id)) :
    FirstFault s (.duplicateEdge e.id) s!"duplicate edge id '{e.id}'"
  /-- An edge with a new id has a source that is not there. -/
  | missingSource {before after : List Edge} {e : Edge} (split : s.edges = before ++ e :: after)
    (sound : Valid ⟨s.nodes, before⟩) (new : e.id ∉ before.map (·.id))
    (missing : e.source ∉ s.nodes.map (·.id)) :
    FirstFault s (.missingNode e.id e.source)
      s!"edge '{e.id}' references missing node '{e.source}'"
  /-- An edge with a new id has a source that is there, and a target that is not. -/
  | missingTarget {before after : List Edge} {e : Edge} (split : s.edges = before ++ e :: after)
    (sound : Valid ⟨s.nodes, before⟩) (new : e.id ∉ before.map (·.id))
    (found : e.source ∈ s.nodes.map (·.id)) (missing : e.target ∉ s.nodes.map (·.id)) :
    FirstFault s (.missingNode e.id e.target)
      s!"edge '{e.id}' references missing node '{e.target}'"

lemma FirstFault.failure_eq {s : Snapshot} {f : Fault} {text : String} (h : s.FirstFault f text) :
    f.failure = ⟨.invalidSnapshot, some text⟩ := by
  cases h <;> rfl

/-- What holds at the start of a list and not at its end fails first at some item. -/
lemma exists_first_failure {α : Type} {P : List α → Prop} (start : P []) {xs : List α}
    (h : ¬ P xs) :
    ∃ before x after, xs = before ++ x :: after ∧ P before ∧ ¬ P (before ++ [x]) := by
  induction xs using List.reverseRecOn with
  | nil => exact absurd start h
  | append_singleton xs x ih =>
    by_cases hxs : P xs
    · exact ⟨xs, x, [], rfl, hxs, h⟩
    · obtain ⟨before, y, after, rfl, hbefore, hy⟩ := ih hxs
      exact ⟨before, y, after ++ [x], by simp, hbefore, hy⟩

/-- A valid snapshot stays valid with an edge of a new id between its nodes. -/
lemma Valid.concat {nodes : List Node} {edges : List Edge} {e : Edge} (h : Valid ⟨nodes, edges⟩)
    (new : e.id ∉ edges.map (·.id)) (source : e.source ∈ nodes.map (·.id))
    (target : e.target ∈ nodes.map (·.id)) : Valid ⟨nodes, edges ++ [e]⟩ := by
  refine ⟨h.nodup_nodes, ?_, fun e' he' => ?_, fun e' he' => ?_⟩
  · rw [List.map_append, List.map_singleton, ← List.concat_eq_append]
    exact h.nodup_edges.concat new
  · rcases List.mem_append.1 he' with he' | he'
    · exact h.source_mem e' he'
    · exact List.mem_singleton.1 he' ▸ source
  · rcases List.mem_append.1 he' with he' | he'
    · exact h.target_mem e' he'
    · exact List.mem_singleton.1 he' ▸ target

/-- A snapshot that is not valid has a first fault. -/
lemma exists_firstFault {s : Snapshot} (h : ¬ s.Valid) : ∃ f text, s.FirstFault f text := by
  by_cases hnodes : (s.nodes.map (·.id)).Nodup
  · have hnone : Valid ⟨s.nodes, []⟩ := ⟨hnodes, List.nodup_nil, by simp, by simp⟩
    obtain ⟨before, e, after, hsplit, hbefore, he⟩ :=
      exists_first_failure (P := fun edges => Valid ⟨s.nodes, edges⟩) hnone h
    by_cases hid : e.id ∈ before.map (·.id)
    · exact ⟨_, _, .duplicateEdge hsplit hbefore hid⟩
    by_cases hsource : e.source ∈ s.nodes.map (·.id)
    · by_cases htarget : e.target ∈ s.nodes.map (·.id)
      · exact absurd (hbefore.concat hid hsource htarget) he
      · exact ⟨_, _, .missingTarget hsplit hbefore hid hsource htarget⟩
    · exact ⟨_, _, .missingSource hsplit hbefore hid hsource⟩
  · obtain ⟨before, n, after, hsplit, hbefore, hn⟩ :=
      exists_first_failure (P := fun nodes : List Node => (nodes.map (·.id)).Nodup) List.nodup_nil
        hnodes
    refine ⟨_, _, .duplicateNode hsplit hbefore ?_⟩
    by_contra hid
    rw [List.map_append, List.map_singleton, ← List.concat_eq_append] at hn
    exact hn (hbefore.concat hid)

end Snapshot

namespace Graph

open Snapshot (Valid FirstFault)

variable {g g₁ g' : Graph} {s : Snapshot}

/-! ### The import, part by part -/

lemma node?_empty (id : NodeId) : empty.node? id = none := by simp [node?, empty]

/-- An import goes on from where it has come to. -/
lemma importNodes_append {nodes : List Node} (h : g.importNodes nodes = .ok g₁)
    (more : List Node) : g.importNodes (nodes ++ more) = g₁.importNodes more := by
  induction nodes generalizing g with
  | nil =>
    obtain rfl := Except.ok.inj h
    rfl
  | cons n rest ih =>
    rw [importNodes] at h
    rw [List.cons_append, importNodes]
    split at h
    · simp at h
    · next hnew =>
      rw [if_neg hnew]
      exact ih h

/-- Edges of different new ids between nodes that are there are imported, and count as seen for
those behind them. -/
lemma exists_importEdges_append {seen : Std.ExtTreeSet EdgeId} {added edges : List Edge}
    (hnodup : (edges.map (·.id)).Nodup) (hnew : ∀ e ∈ edges, e.id ∉ seen)
    (hsource : ∀ e ∈ edges, g.hasNode e.source) (htarget : ∀ e ∈ edges, g.hasNode e.target)
    (more : List Edge) :
    ∃ (g' : Graph) (seen' : Std.ExtTreeSet EdgeId) (added' : List Edge),
      g.importEdges seen added (edges ++ more) = g'.importEdges seen' added' more ∧
        g'.nodes = g.nodes ∧ ∀ id, id ∈ seen' ↔ id ∈ seen ∨ id ∈ edges.map (·.id) := by
  induction edges generalizing g seen added with
  | nil => exact ⟨g, seen, added, rfl, rfl, by simp⟩
  | cons e rest ih =>
    rw [List.map_cons, List.nodup_cons] at hnodup
    rw [List.forall_mem_cons] at hnew hsource htarget
    obtain ⟨he, hrest⟩ := hnodup
    have hunseen : seen.contains e.id = false := by
      simpa [← Std.ExtTreeSet.contains_iff_mem] using hnew.1
    have hnew' : ∀ f ∈ rest, f.id ∉ seen.insert e.id := by
      intro f hf hmem
      rw [Std.ExtTreeSet.mem_insert, Std.compare_eq_iff_eq] at hmem
      rcases hmem with hid | hmem
      · exact he (hid ▸ List.mem_map_of_mem hf)
      · exact hnew.2 f hf hmem
    rw [List.cons_append, importEdges, hunseen, hsource.1, htarget.1]
    obtain ⟨g', seen', added', himport, hnodes, hseen⟩ :=
      @ih { g with lastEdge := max g.lastEdge (edgeNumber e.id) } _ (e :: added) hrest hnew'
        hsource.2 htarget.2
    refine ⟨g', seen', added', himport, hnodes, fun id => ?_⟩
    rw [hseen, Std.ExtTreeSet.mem_insert, Std.compare_eq_iff_eq, List.map_cons, List.mem_cons,
      eq_comm]
    tauto

/-- As long as a snapshot is valid, its import goes on to the edges behind. -/
lemma exists_ofSnapshot_append {nodes : List Node} {before : List Edge}
    (h : Valid ⟨nodes, before⟩) (after : List Edge) :
    ∃ (g : Graph) (seen : Std.ExtTreeSet EdgeId) (added : List Edge),
      ofSnapshot ⟨nodes, before ++ after⟩ = g.importEdges seen added after ∧
        (∀ id, g.hasNode id ↔ id ∈ nodes.map (·.id)) ∧
        ∀ id, id ∈ seen ↔ id ∈ before.map (·.id) := by
  obtain ⟨g₁, hnodes, -, hnode⟩ :=
    @exists_importNodes empty nodes h.nodup_nodes (by simp [hasNode, empty])
  have hhas : ∀ id, g₁.hasNode id ↔ id ∈ nodes.map (·.id) := by
    intro id
    rw [hasNode_iff, Option.isSome_iff_exists]
    simp only [hnode, node?_empty]
    simp
  obtain ⟨g, seen, added, himport, hsame, hseen⟩ :=
    @exists_importEdges_append g₁ ∅ [] before h.nodup_edges (by simp)
      (fun e he => (hhas _).2 (h.source_mem e he)) (fun e he => (hhas _).2 (h.target_mem e he))
      after
  refine ⟨g, seen, added, ?_, fun id => ?_, fun id => by simpa using hseen id⟩
  · rw [ofSnapshot, hnodes]
    exact himport
  · rw [hasNode, hsame]
    exact hhas id

/-- A valid snapshot is accepted. -/
lemma exists_ofSnapshot (h : s.Valid) : ∃ g, ofSnapshot s = .ok g := by
  obtain ⟨g, seen, added, himport, -⟩ := @exists_ofSnapshot_append s.nodes s.edges h []
  rw [List.append_nil] at himport
  exact ⟨_, himport⟩

/-- A snapshot is refused for its first fault. -/
lemma ofSnapshot_of_firstFault {f : Snapshot.Fault} {text : String} (h : s.FirstFault f text) :
    ofSnapshot s = .error f := by
  obtain ⟨nodes, edges⟩ := s
  cases h with
  | @duplicateNode before after n split sound repeated =>
    obtain rfl : nodes = before ++ n :: after := split
    obtain ⟨g₁, hbefore, -, hnode⟩ :=
      @exists_importNodes empty before sound (by simp [hasNode, empty])
    have hhas : g₁.hasNode n.id := by
      obtain ⟨m, hm, hid⟩ := List.mem_map.1 repeated
      exact hasNode_of_node? ((hnode n.id m).2 (.inl ⟨hm, hid⟩))
    rw [ofSnapshot, importNodes_append hbefore, importNodes, if_pos hhas]
    rfl
  | @duplicateEdge before after e split sound repeated =>
    obtain rfl : edges = before ++ e :: after := split
    obtain ⟨g, seen, added, himport, -, hseen⟩ := exists_ofSnapshot_append sound (e :: after)
    rw [himport, importEdges, Std.ExtTreeSet.contains_iff_mem.2 ((hseen e.id).2 repeated)]
    rfl
  | @missingSource before after e split sound new missing =>
    obtain rfl : edges = before ++ e :: after := split
    obtain ⟨g, seen, added, himport, hhas, hseen⟩ := exists_ofSnapshot_append sound (e :: after)
    have hunseen : seen.contains e.id = false := by
      simpa [← Std.ExtTreeSet.contains_iff_mem] using mt (hseen e.id).1 new
    have hsource : g.hasNode e.source = false := by simpa using mt (hhas e.source).1 missing
    rw [himport, importEdges, hunseen, hsource]
    rfl
  | @missingTarget before after e split sound new found missing =>
    obtain rfl : edges = before ++ e :: after := split
    obtain ⟨g, seen, added, himport, hhas, hseen⟩ := exists_ofSnapshot_append sound (e :: after)
    have hunseen : seen.contains e.id = false := by
      simpa [← Std.ExtTreeSet.contains_iff_mem] using mt (hseen e.id).1 new
    have htarget : g.hasNode e.target = false := by simpa using mt (hhas e.target).1 missing
    rw [himport, importEdges, hunseen, (hhas e.source).2 found, htarget]
    rfl

lemma valid_of_ofSnapshot (h : ofSnapshot s = .ok g) : s.Valid := by
  by_contra hs
  obtain ⟨f, text, hf⟩ := Snapshot.exists_firstFault hs
  simp [ofSnapshot_of_firstFault hf] at h

/-! ### The imported graph -/

lemma wellFormed_of_ofSnapshot (h : ofSnapshot s = .ok g) : g.WellFormed :=
  wellFormed_of_initial (.imported h)

/-- The nodes of the imported graph are those of the snapshot. -/
lemma nodeList_perm_of_ofSnapshot (h : ofSnapshot s = .ok g) : g.nodeList.Perm s.nodes := by
  have hs := valid_of_ofSnapshot h
  have hg := wellFormed_of_ofSnapshot h
  obtain ⟨g₁, hnodes, hedges⟩ := importNodes_of_ofSnapshot h
  obtain ⟨g₂, hnodes', -, hnode⟩ :=
    @exists_importNodes empty s.nodes hs.nodup_nodes (by simp [hasNode, empty])
  obtain rfl := Except.ok.inj (hnodes.symm.trans hnodes')
  refine (List.perm_ext_iff_of_nodup hg.nodup_nodes.of_map hs.nodup_nodes.of_map).2 fun n => ?_
  have hlookup : g.node? n.id = g₁.node? n.id := by
    rw [node?, (of_importEdges hedges).1]
    rfl
  have hn : g₁.node? n.id = some n ↔ n ∈ s.nodes := by
    rw [hnode, node?_empty]
    simp
  rw [← hn, ← hlookup, hg.node?_eq_some_iff]
  simp

/-- Nodes are listed by the bytes of their ids. -/
lemma WellFormed.pairwise_nodeList (hg : g.WellFormed) :
    g.nodeList.Pairwise fun m n => utf8 m.id < utf8 n.id := by
  rw [nodeList, List.pairwise_map]
  refine Std.ExtTreeMap.ordered_keys_toList.imp_of_mem fun {p q} hp hq hlt => ?_
  rw [hg.id_eq (Std.ExtTreeMap.mem_toList_iff_getElem?_eq_some.1 hp),
    hg.id_eq (Std.ExtTreeMap.mem_toList_iff_getElem?_eq_some.1 hq)]
  exact utf8_lt_of_lt (compareOfLessAndEq_eq_lt.1 hlt)

/-- An exported graph is imported as it was. -/
lemma WellFormed.exists_ofSnapshot_snapshot (hg : g.WellFormed) :
    ∃ g', ofSnapshot g.snapshot = .ok g' ∧ g'.nodes = g.nodes ∧ g'.edges = g.edges := by
  obtain ⟨g', himport, hlist, hedges⟩ := hg.exists_ofSnapshot (f := id) fun _ => rfl
  rw [List.map_id] at himport hlist
  have hg' := wellFormed_of_ofSnapshot himport
  refine ⟨g', himport, Std.ExtTreeMap.ext_getElem? fun id => Option.ext fun n => ?_, hedges⟩
  have hnode : g'.node? id = some n ↔ g.node? id = some n := by
    rw [hg'.node?_eq_some_iff, hg.node?_eq_some_iff, hlist]
  exact hnode

end Graph

/-- The order of nodes with distinct ids has no part in an index. -/
lemma GraphIndex.ofLists_of_perm {nodes nodes' : List Node} (hnodup : (nodes.map (·.id)).Nodup)
    (hperm : nodes'.Perm nodes) (edges : List Edge) :
    ofLists nodes' edges = ofLists nodes edges := by
  have hnode : ∀ id, (ofLists nodes' edges).node? id = (ofLists nodes edges).node? id :=
    node?_of_perm hnodup hperm
  have hnodes : indexNodes nodes' = indexNodes nodes :=
    Std.ExtTreeMap.ext_getElem? fun id => hnode id
  simp only [ofLists, hnodes]

namespace Graph

open Snapshot (Valid FirstFault)

/-- A snapshot is accepted just if it is valid, and else refused for its first fault; the graph that
is imported has the edges in their order and the nodes by the bytes of their ids, is imported again
as it is, and is compiled as the lists of the snapshot are; and so every graph under edit is
imported as it was exported. -/
theorem ofSnapshot_exact (s : Snapshot) :
    ((∃ g, ofSnapshot s = .ok g) ↔ s.Valid) ∧
    (∀ f, ofSnapshot s = .error f ↔ ∃ text, s.FirstFault f text) ∧
    (∀ f text, s.FirstFault f text → f.failure = ⟨.invalidSnapshot, some text⟩) ∧
    (∀ g, ofSnapshot s = .ok g →
      g.snapshot.edges = s.edges ∧ g.snapshot.nodes.Perm s.nodes ∧
      g.snapshot.nodes.Pairwise (fun m n => utf8 m.id < utf8 n.id) ∧
      (∃ g', ofSnapshot g.snapshot = .ok g' ∧ g'.snapshot = g.snapshot) ∧
      ∀ {γ : Type} [IdGenerator γ] (c : Compiler) (root : NodeId) (generator : γ),
        c.runLists s.nodes s.edges root generator
          = c.runLists g.nodeList g.edges root generator) ∧
    ∀ g : Graph, g.Initial → ∀ edits, ∃ g', ofSnapshot (g.after edits).snapshot = .ok g' ∧
      g'.nodes = (g.after edits).nodes ∧ g'.edges = (g.after edits).edges := by
  refine ⟨⟨fun ⟨g, h⟩ => valid_of_ofSnapshot h, exists_ofSnapshot⟩, fun f => ⟨fun h => ?_, ?_⟩,
    fun f text hf => hf.failure_eq, fun g h => ?_, fun g h edits => ?_⟩
  · -- it is not accepted, so it has a first fault, which must be the one that is told
    have hs : ¬ s.Valid := by
      intro hs
      obtain ⟨g, hg⟩ := exists_ofSnapshot hs
      simp [hg] at h
    obtain ⟨f', text, hf'⟩ := Snapshot.exists_firstFault hs
    obtain rfl := Except.error.inj (h.symm.trans (ofSnapshot_of_firstFault hf'))
    exact ⟨text, hf'⟩
  · rintro ⟨text, hf⟩
    exact ofSnapshot_of_firstFault hf
  · have hg := wellFormed_of_ofSnapshot h
    obtain ⟨g', himport, hnodes, hedges⟩ := hg.exists_ofSnapshot_snapshot
    refine ⟨(of_ofSnapshot h).2, nodeList_perm_of_ofSnapshot h, hg.pairwise_nodeList,
      ⟨g', himport, ?_⟩, fun c root generator => ?_⟩
    · rw [snapshot, snapshot, nodeList, nodeList, hnodes, hedges]
    · rw [Compiler.runLists, Compiler.runLists, (of_ofSnapshot h).2,
        GraphIndex.ofLists_of_perm (valid_of_ofSnapshot h).nodup_nodes
          (nodeList_perm_of_ofSnapshot h)]
  · exact (after_induct (fun _ _ _ hg => hg.change) (wellFormed_of_initial h)
      edits).exists_ofSnapshot_snapshot

end Graph

end Chatflow
