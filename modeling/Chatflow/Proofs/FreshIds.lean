/-
# New ids are new

Both counters of a graph are ahead of all numbers whose names are in it (`Graph.Counted`): a saved
id raises them to the number it is read as, a new id to its own, and nothing lowers them.  That is
enough because a written number is read as that number (`Counter.ofId_nodeName`,
`Graph.edgeNumber_edgeName`).  An id that is not the name of a number, say with leading zeros, with
a sign or with too many digits, may be read as anything, since it is never given out.

So as long as a counter is below its maximum, the next number is that of no id in the graph, nor of
any id that was there before, be it saved, given out or gone by now, and the search for an unused id
ends where it begins (`Graph.fresh_after`).
-/
import Mathlib.Data.List.TakeWhile
import Mathlib.Logic.Function.Iterate
import Chatflow.Proofs.Integrity

namespace Chatflow

/-! ### Numbers and names -/

namespace Counter

variable {name : Nat → String} {used : List String} {n m : Nat}

lemma next_le_maximum (n : Nat) : next n ≤ maximum := Nat.min_le_right _ _

lemma le_next (h : n ≤ maximum) : n ≤ next n := Nat.le_min.2 ⟨Nat.le_succ n, h⟩

/-- There is no number just if every number that the search comes to is in use. -/
lemma firstUnused?_eq_none_iff :
    firstUnused? name used n = none ↔ ∀ k, name (next^[k + 1] n) ∈ used := by
  fun_induction firstUnused? name used n with
  | case1 n hfree => simpa using ⟨0, hfree⟩
  | case2 n hused hlt ih =>
    rw [ih]
    constructor
    · rintro h (_ | k)
      · exact not_not.1 hused
      · exact h k
    · exact fun h k => h (k + 1)
  | case3 n hused hge =>
    -- from here on the counter stands still
    have hnext : next n = maximum := Nat.min_eq_right (Nat.le_succ_of_le (Nat.not_lt.1 hge))
    have hstop : next maximum = maximum := Nat.min_eq_right (Nat.le_succ _)
    have hiterate : ∀ k, next^[k + 1] n = next n := by
      intro k
      rw [Function.iterate_succ_apply, hnext]
      exact Function.iterate_fixed hstop k
    simpa [hiterate] using hused

/-- If the first number is not in use, the search ends with it. -/
lemma firstUnused?_of_notMem (h : name (next n) ∉ used) :
    firstUnused? name used n = some (next n) := by
  rw [firstUnused?, if_pos h]

/-- A search only goes up, and not beyond the maximum. -/
lemma le_of_firstUnused? (hn : n ≤ maximum) (h : firstUnused? name used n = some m) :
    n ≤ m ∧ m ≤ maximum := by
  fun_induction firstUnused? name used n with
  | case1 n hfree =>
    obtain rfl := Option.some.inj h
    exact ⟨le_next hn, next_le_maximum n⟩
  | case2 n hused hlt ih =>
    obtain ⟨hle, hmax⟩ := ih (next_le_maximum n) h
    exact ⟨Nat.le_trans (le_next hn) hle, hmax⟩
  | case3 n hused hge => simp at h

lemma ofDigits_le_maximum (digits : List Char) : ofDigits digits ≤ maximum := by
  rw [ofDigits]
  split
  · next h => exact h.2.2
  · exact Nat.zero_le _

lemma ofId_le_maximum (id : String) : ofId id ≤ maximum := by
  rw [ofId]
  split
  · exact ofDigits_le_maximum _
  · exact ofDigits_le_maximum _

/-- The digits of a number are read as that number. -/
lemma ofDigits_toDigits (hn : n ≤ maximum) : ofDigits (Nat.toDigits 10 n) = n := by
  have hdigits : ∀ c ∈ Nat.toDigits 10 n, c.isDigit :=
    fun c hc => Nat.isDigit_of_mem_toDigits (by decide) (by decide) hc
  rw [ofDigits, Nat.ofDigitChars_ten_toDigits,
    if_pos ⟨Nat.toDigits_ne_nil, List.all_eq_true.2 hdigits, hn⟩]

/-- A number that is written is read as that number. -/
lemma ofId_nodeName (hn : n ≤ maximum) : ofId (Graph.nodeName n) = n := by
  have hlist : (Graph.nodeName n).toList = Nat.toDigits 10 n := Nat.toList_repr
  rw [ofId, hlist]
  split
  · next digits h =>
    -- a digit comes first, not a sign
    have hplus : '+' ∈ Nat.toDigits 10 n := by simp [h]
    exact absurd (Nat.isDigit_of_mem_toDigits (by decide) (by decide) hplus) (by decide)
  · exact ofDigits_toDigits hn

end Counter

namespace Graph

variable {g g' : Graph}

/-- The number of a new edge is read off its id. -/
lemma edgeNumber_edgeName {n : Nat} (hn : n ≤ Counter.maximum) : edgeNumber (edgeName n) = n := by
  have hlist : (edgeName n).toList = 'e' :: Nat.toDigits 10 n := by
    rw [edgeName, String.toList_append]
    exact congrArg _ Nat.toList_repr
  have hdrop : (edgeName n).toList.dropWhile (· == 'e') = Nat.toDigits 10 n := by
    rw [hlist, List.dropWhile_cons_of_pos (by decide)]
    refine List.dropWhile_eq_self_iff.2 fun h he => ?_
    have hdigit : (Nat.toDigits 10 n)[0].isDigit :=
      Nat.isDigit_of_mem_toDigits (by decide) (by decide) (List.getElem_mem h)
    rw [beq_iff_eq.1 he] at hdigit
    exact absurd hdigit (by decide)
  rw [edgeNumber, hdrop, ← Nat.repr_eq_ofList_toDigits]
  exact Counter.ofId_nodeName hn

lemma nodeName_inj {m n : Nat} (hm : m ≤ Counter.maximum) (hn : n ≤ Counter.maximum)
    (h : nodeName m = nodeName n) : m = n := by
  rw [← Counter.ofId_nodeName hm, h, Counter.ofId_nodeName hn]

lemma edgeName_inj {m n : Nat} (hm : m ≤ Counter.maximum) (hn : n ≤ Counter.maximum)
    (h : edgeName m = edgeName n) : m = n := by
  rw [← edgeNumber_edgeName hm, h, edgeNumber_edgeName hn]

/-! ### Counters that are ahead -/

/-- No id in the graph is that of a number beyond the counters. -/
structure Counted (g : Graph) : Prop where
  lastNode_le : g.lastNode ≤ Counter.maximum
  lastEdge_le : g.lastEdge ≤ Counter.maximum
  le_lastNode : ∀ n ≤ Counter.maximum, g.hasNode (nodeName n) → n ≤ g.lastNode
  le_lastEdge : ∀ n ≤ Counter.maximum, edgeName n ∈ g.edges.map (·.id) → n ≤ g.lastEdge

lemma counted_empty : empty.Counted where
  lastNode_le := Nat.zero_le _
  lastEdge_le := Nat.zero_le _
  le_lastNode n hn h := by simp [empty, hasNode] at h
  le_lastEdge n hn h := by simp [empty] at h

/-- A counter that is raised to the number of a node is still ahead with that node. -/
lemma Counted.put (hg : g.Counted) {n : Node} {number : Nat} (hle : g.lastNode ≤ number)
    (hmax : number ≤ Counter.maximum)
    (hn : ∀ k ≤ Counter.maximum, n.id = nodeName k → k ≤ number) :
    ({ g with lastNode := number }.put n).Counted where
  lastNode_le := hmax
  lastEdge_le := hg.lastEdge_le
  le_lastNode k hk h := by
    rcases (hasNode_put { g with lastNode := number } n _).1 h with h | h
    · exact hn k hk h
    · exact Nat.le_trans (hg.le_lastNode k hk h) hle
  le_lastEdge := hg.le_lastEdge

/-- A counter that is raised to the number of an edge is still ahead with that edge. -/
lemma Counted.concat (hg : g.Counted) {e : Edge} {number : Nat} (hle : g.lastEdge ≤ number)
    (hmax : number ≤ Counter.maximum)
    (he : ∀ k ≤ Counter.maximum, e.id = edgeName k → k ≤ number) :
    Counted { g with edges := g.edges ++ [e], lastEdge := number } where
  lastNode_le := hg.lastNode_le
  lastEdge_le := hmax
  le_lastNode := hg.le_lastNode
  le_lastEdge k hk h := by
    rw [List.map_append, List.mem_append, List.map_singleton, List.mem_singleton] at h
    rcases h with h | h
    · exact Nat.le_trans (hg.le_lastEdge k hk h) hle
    · exact he k hk h.symm

/-- Nothing that is taken away gets ahead of the counters. -/
lemma Counted.of_subset (hg : g.Counted) (hlastNode : g'.lastNode = g.lastNode)
    (hlastEdge : g'.lastEdge = g.lastEdge) (hnodes : ∀ id, g'.hasNode id → g.hasNode id)
    (hedges : g'.edges ⊆ g.edges) : g'.Counted where
  lastNode_le := hlastNode ▸ hg.lastNode_le
  lastEdge_le := hlastEdge ▸ hg.lastEdge_le
  le_lastNode k hk h := hlastNode ▸ hg.le_lastNode k hk (hnodes _ h)
  le_lastEdge k hk h := hlastEdge ▸ hg.le_lastEdge k hk (List.map_subset _ hedges h)

/-- Deleting a node leaves the counters alone and adds no edge. -/
lemma counters_deleteNode (g : Graph) (id : NodeId) :
    (g.deleteNode id).2.lastNode = g.lastNode ∧ (g.deleteNode id).2.lastEdge = g.lastEdge ∧
      (g.deleteNode id).2.edges ⊆ g.edges := by
  rw [deleteNode]
  split
  · exact ⟨rfl, rfl, List.filter_subset_self _⟩
  · exact ⟨rfl, rfl, List.Subset.refl _⟩

/-- No change gets ahead of the counters, and none sets them back. -/
lemma Counted.change (hg : g.Counted) {r : Receipt} (h : g.Change r g') :
    g'.Counted ∧ g.lastNode ≤ g'.lastNode ∧ g.lastEdge ≤ g'.lastEdge := by
  cases h with
  | addNode free named =>
    obtain ⟨hle, hmax⟩ := Counter.le_of_firstUnused? hg.lastNode_le free
    refine ⟨hg.put hle hmax fun k hk hname => ?_, hle, Nat.le_refl _⟩
    exact Nat.le_of_eq (nodeName_inj hk hmax (hname.symm.trans named))
  | deleteNode id =>
    obtain ⟨hnode, hedge, hedges⟩ := counters_deleteNode g id
    have hnodes : ∀ other, (g.deleteNode id).2.hasNode other → g.hasNode other :=
      fun other h => ((hasNode_deleteNode g id other).1 h).2
    exact ⟨hg.of_subset hnode hedge hnodes hedges, hnode.ge, hedge.ge⟩
  | deleteEdge id =>
    exact ⟨hg.of_subset rfl rfl (fun _ h => h) (List.filter_subset_self _), Nat.le_refl _,
      Nat.le_refl _⟩
  | connect free named source target =>
    obtain ⟨hle, hmax⟩ := Counter.le_of_firstUnused? hg.lastEdge_le free
    refine ⟨hg.concat hle hmax fun k hk hname => ?_, Nat.le_refl _, hle⟩
    exact Nat.le_of_eq (edgeName_inj hk hmax (hname.symm.trans named))
  | @modify id n n' found same =>
    refine ⟨hg.of_subset rfl rfl (fun other h => ?_) (List.Subset.refl _), Nat.le_refl _,
      Nat.le_refl _⟩
    -- the node that is replaced was there
    rw [hasNode_iff, node?_insert] at h
    split at h
    · next hid => exact hid ▸ hasNode_of_node? found
    · exact (hasNode_iff g other).2 h

/-- Every graph to start from has its counters ahead. -/
lemma counted_of_initial (h : g.Initial) : g.Counted := by
  cases h with
  | empty => exact counted_empty
  | imported accepted =>
    refine ofSnapshot_induct counted_empty (fun g n hg => ?_) (fun g e hg _ _ _ => ?_) accepted
    · have hmax : max g.lastNode (Counter.ofId n.id) ≤ Counter.maximum :=
        Nat.max_le.2 ⟨hg.lastNode_le, Counter.ofId_le_maximum _⟩
      refine hg.put (Nat.le_max_left _ _) hmax fun k hk hname => ?_
      rw [hname, Counter.ofId_nodeName hk]
      exact Nat.le_max_right _ _
    · have hmax : max g.lastEdge (edgeNumber e.id) ≤ Counter.maximum :=
        Nat.max_le.2 ⟨hg.lastEdge_le, Counter.ofId_le_maximum _⟩
      refine hg.concat (Nat.le_max_left _ _) hmax fun k hk hname => ?_
      rw [hname, edgeNumber_edgeName hk]
      exact Nat.le_max_right _ _

/-- Edits keep the counters ahead and never set them back. -/
lemma Counted.after (hg : g.Counted) (edits : List Edit) :
    (g.after edits).Counted ∧ g.lastNode ≤ (g.after edits).lastNode ∧
      g.lastEdge ≤ (g.after edits).lastEdge := by
  refine after_induct (P := fun g' => g'.Counted ∧ g.lastNode ≤ g'.lastNode ∧
    g.lastEdge ≤ g'.lastEdge) ?_ ⟨hg, Nat.le_refl _, Nat.le_refl _⟩ edits
  rintro g₁ r g₂ ⟨hg₁, hnode, hedge⟩ hchange
  obtain ⟨hg₂, hnode', hedge'⟩ := hg₁.change hchange
  exact ⟨hg₂, Nat.le_trans hnode hnode', Nat.le_trans hedge hedge'⟩

/-! ### What has been in a graph -/

lemma hasNode_of_importNodes {nodes : List Node} (h : g.importNodes nodes = .ok g') :
    (∀ id, g.hasNode id → g'.hasNode id) ∧ ∀ n ∈ nodes, g'.hasNode n.id := by
  induction nodes generalizing g with
  | nil =>
    obtain rfl := Except.ok.inj h
    exact ⟨fun _ hid => hid, by simp⟩
  | cons n rest ih =>
    rw [importNodes] at h
    split at h
    · simp at h
    · obtain ⟨hstays, hrest⟩ := ih h
      have hput : ∀ id, n.id = id ∨ g.hasNode id → g'.hasNode id :=
        fun id hid => hstays id ((hasNode_put _ n id).2 hid)
      refine ⟨fun id hid => hput id (.inr hid), fun m hm => ?_⟩
      rcases List.mem_cons.1 hm with rfl | hm
      · exact hput _ (.inl rfl)
      · exact hrest m hm

lemma of_importEdges {seen : Std.ExtTreeSet EdgeId} {added edges : List Edge}
    (h : g.importEdges seen added edges = .ok g') :
    g'.nodes = g.nodes ∧ g'.edges = g.edges ++ added.reverse ++ edges := by
  induction edges generalizing g seen added with
  | nil =>
    obtain rfl := Except.ok.inj h
    exact ⟨rfl, (List.append_nil _).symm⟩
  | cons e rest ih =>
    rw [importEdges] at h
    split at h
    · simp at h
    · split at h
      · simp at h
      · split at h
        · simp at h
        · obtain ⟨hnodes, hedges⟩ := ih h
          exact ⟨hnodes, by simpa using hedges⟩

/-- What was saved is there after the import. -/
lemma of_ofSnapshot {s : Snapshot} (h : ofSnapshot s = .ok g) :
    (∀ n ∈ s.nodes, g.hasNode n.id) ∧ g.edges = s.edges := by
  obtain ⟨g₁, hnodes, hedges⟩ := importNodes_of_ofSnapshot h
  have hnone : g₁.edges = [] :=
    importNodes_induct (P := fun g => g.edges = []) (fun _ _ hg => hg) rfl hnodes
  obtain ⟨hsame, hadded⟩ := of_importEdges hedges
  refine ⟨fun n hn => ?_, by simpa [hnone] using hadded⟩
  rw [hasNode, hsame]
  exact (hasNode_of_importNodes hnodes).2 n hn

/-- A new node is there under the id that is reported. -/
lemma hasNode_of_apply {e : Edit} {id : NodeId} (h : g.apply e = .ok (.node id, g')) :
    g'.hasNode id := by
  cases change_of_apply h with
  | addNode free named => exact (hasNode_put _ _ _).2 (.inl rfl)

/-- A new edge is there under the id that is reported. -/
lemma mem_edges_of_apply {e : Edit} {id : EdgeId} (h : g.apply e = .ok (.edge id, g')) :
    ∃ e ∈ g'.edges, e.id = id := by
  cases change_of_apply h with
  | connect free named source target =>
    exact ⟨_, List.mem_append_right _ (List.mem_singleton_self _), rfl⟩

lemma after_concat_of_apply {before : List Edit} {e : Edit} {r : Receipt}
    (h : (g.after before).apply e = .ok (r, g')) : g.after (before ++ [e]) = g' := by
  rw [after_append]
  show edited (g.after before) e = g'
  rw [edited, h]

/-- At the moment or at any time before there was no node of that id, neither saved nor added, and
no edit has reported it. -/
structure NewNode (g : Graph) (edits : List Edit) (id : NodeId) : Prop where
  not_there : ∀ before, before <+: edits → ¬ (g.after before).hasNode id
  not_reported : ∀ before e g', before ++ [e] <+: edits →
    (g.after before).apply e ≠ .ok (.node id, g')
  not_saved : ∀ s, ofSnapshot s = .ok g → ∀ n ∈ s.nodes, n.id ≠ id

/-- At the moment or at any time before there was no edge of that id, neither saved nor added, and
no edit has reported it. -/
structure NewEdge (g : Graph) (edits : List Edit) (id : EdgeId) : Prop where
  not_there : ∀ before, before <+: edits → ∀ e ∈ (g.after before).edges, e.id ≠ id
  not_reported : ∀ before e g', before ++ [e] <+: edits →
    (g.after before).apply e ≠ .ok (.edge id, g')
  not_saved : ∀ s, ofSnapshot s = .ok g → ∀ e ∈ s.edges, e.id ≠ id

/-- A number beyond the counter is that of a new node. -/
lemma Counted.newNode (hg : g.Counted) {edits : List Edit} {number : Nat}
    (hmax : number ≤ Counter.maximum) (hlt : (g.after edits).lastNode < number) :
    g.NewNode edits (nodeName number) := by
  have hthere : ∀ before, before <+: edits → ¬ (g.after before).hasNode (nodeName number) := by
    rintro before ⟨rest, rfl⟩ h
    -- the counter was ahead then, and it has not gone back since
    obtain ⟨hbefore, -⟩ := hg.after before
    obtain ⟨-, hrest, -⟩ := hbefore.after rest
    rw [after_append] at hlt
    exact absurd (hbefore.le_lastNode number hmax h) (Nat.not_le.2 (Nat.lt_of_le_of_lt hrest hlt))
  refine ⟨hthere, fun before e g' hprefix h => ?_, fun s hs n hn h => ?_⟩
  · refine hthere (before ++ [e]) hprefix ?_
    rw [after_concat_of_apply h]
    exact hasNode_of_apply h
  · exact hthere [] List.nil_prefix (h ▸ (of_ofSnapshot hs).1 n hn)

/-- A number beyond the counter is that of a new edge. -/
lemma Counted.newEdge (hg : g.Counted) {edits : List Edit} {number : Nat}
    (hmax : number ≤ Counter.maximum) (hlt : (g.after edits).lastEdge < number) :
    g.NewEdge edits (edgeName number) := by
  have hthere : ∀ before, before <+: edits →
      ∀ e ∈ (g.after before).edges, e.id ≠ edgeName number := by
    rintro before ⟨rest, rfl⟩ e he h
    obtain ⟨hbefore, -⟩ := hg.after before
    obtain ⟨-, -, hrest⟩ := hbefore.after rest
    rw [after_append] at hlt
    have hle := hbefore.le_lastEdge number hmax (h ▸ List.mem_map_of_mem he)
    exact absurd hle (Nat.not_le.2 (Nat.lt_of_le_of_lt hrest hlt))
  refine ⟨hthere, fun before e g' hprefix h => ?_, fun s hs e he => ?_⟩
  · obtain ⟨e', he', hid⟩ := mem_edges_of_apply h
    refine hthere (before ++ [e]) hprefix e' ?_ hid
    rwa [after_concat_of_apply h]
  · refine hthere [] List.nil_prefix e ?_
    show e ∈ g.edges
    rwa [(of_ofSnapshot hs).2]

/-! ### New ids -/

/-- Unless the next node is there already, the search for its number ends at once. -/
lemma nextNode?_eq (hlt : g.lastNode < Counter.maximum)
    (h : ¬ g.hasNode (nodeName (g.lastNode + 1))) : g.nextNode? = some (g.lastNode + 1) := by
  rw [nextNode?, Counter.firstUnused?_of_notMem, Counter.next_of_lt hlt]
  rwa [Counter.next_of_lt hlt, mem_keys_iff]

/-- Unless the next edge is there already, the search for its number ends at once. -/
lemma nextEdge?_eq (hlt : g.lastEdge < Counter.maximum)
    (h : ∀ e ∈ g.edges, e.id ≠ edgeName (g.lastEdge + 1)) :
    g.nextEdge? = some (g.lastEdge + 1) := by
  rw [nextEdge?, Counter.firstUnused?_of_notMem, Counter.next_of_lt hlt]
  rw [Counter.next_of_lt hlt, List.mem_map]
  rintro ⟨e, he, hid⟩
  exact h e he hid

/-- As long as its counter is below the maximum, a graph has a number for a new node. -/
lemma Counted.nextNode?_eq (hg : g.Counted) (hlt : g.lastNode < Counter.maximum) :
    g.nextNode? = some (g.lastNode + 1) :=
  Graph.nextNode?_eq hlt fun hthere => Nat.not_succ_le_self _ (hg.le_lastNode _ hlt hthere)

/-- As long as its counter is below the maximum, a graph has a number for a new edge. -/
lemma Counted.nextEdge?_eq (hg : g.Counted) (hlt : g.lastEdge < Counter.maximum) :
    g.nextEdge? = some (g.lastEdge + 1) :=
  Graph.nextEdge?_eq hlt fun _ he hid =>
    Nat.not_succ_le_self _ (hg.le_lastEdge _ hlt (hid ▸ List.mem_map_of_mem he))

lemma addNodeAt_of_nextNode? {number : Counter} (h : g.nextNode? = some number) (type : NodeType)
    (data : NodeData) (position : Position) :
    ∃ g', g.addNodeAt type data position = .ok (nodeName number, g') := by
  rw [addNodeAt, h]
  exact ⟨_, rfl⟩

lemma copyNode_of_nextNode? {number : Counter} (h : g.nextNode? = some number) {id : NodeId}
    (hid : g.hasNode id) : ∃ g', g.copyNode id = .ok (nodeName number, g') := by
  obtain ⟨n, hn⟩ := Option.isSome_iff_exists.1 ((hasNode_iff g id).1 hid)
  rw [copyNode, hn]
  exact addNodeAt_of_nextNode? h _ _ _

lemma connect_of_nextEdge? {number : Counter} (h : g.nextEdge? = some number)
    {source target : NodeId} (hsource : g.hasNode source) (htarget : g.hasNode target) :
    ∃ g', g.connect source target = .ok (edgeName number, g') := by
  rw [connect, if_neg (by simp [hsource]), if_neg (by simp [htarget]), h]
  exact ⟨_, rfl⟩

/-- As long as a counter is below its maximum, the search for a new id ends where it begins, with
the number after the counter; a node that is added or copied gets this number as its id, an edge the
number behind an `e`, and that id has not been used before, by whatever way the graph came to be. -/
theorem fresh_after (h : g.Initial) (edits : List Edit) :
    ((g.after edits).lastNode < Counter.maximum →
      let id := toString ((g.after edits).lastNode + 1)
      g.NewNode edits id ∧ (g.after edits).nextNode? = some ((g.after edits).lastNode + 1) ∧
        (∀ type data, ∃ g', (g.after edits).apply (.addNode type data) = .ok (.node id, g')) ∧
        ∀ original, (g.after edits).hasNode original →
          ∃ g', (g.after edits).apply (.copyNode original) = .ok (.node id, g')) ∧
    ((g.after edits).lastEdge < Counter.maximum →
      let id := "e" ++ toString ((g.after edits).lastEdge + 1)
      g.NewEdge edits id ∧ (g.after edits).nextEdge? = some ((g.after edits).lastEdge + 1) ∧
        ∀ source target, (g.after edits).hasNode source → (g.after edits).hasNode target →
          ∃ g', (g.after edits).apply (.connect source target) = .ok (.edge id, g')) := by
  have hg := counted_of_initial h
  constructor
  · intro hlt id
    have hnew : g.NewNode edits id := hg.newNode hlt (Nat.lt_succ_self _)
    have hnext := nextNode?_eq hlt (hnew.not_there edits List.prefix_rfl)
    refine ⟨hnew, hnext, fun type data => ?_, fun original horiginal => ?_⟩
    · obtain ⟨g', hadd⟩ := addNodeAt_of_nextNode? hnext type data {}
      exact ⟨g', by rw [apply, hadd]; rfl⟩
    · obtain ⟨g', hcopy⟩ := copyNode_of_nextNode? hnext horiginal
      exact ⟨g', by rw [apply, hcopy]; rfl⟩
  · intro hlt id
    have hnew : g.NewEdge edits id := hg.newEdge hlt (Nat.lt_succ_self _)
    have hnext := nextEdge?_eq hlt (hnew.not_there edits List.prefix_rfl)
    refine ⟨hnew, hnext, fun source target hsource htarget => ?_⟩
    obtain ⟨g', hconnect⟩ := connect_of_nextEdge? hnext hsource htarget
    exact ⟨g', by rw [apply, hconnect]; rfl⟩

/-- The saved ids `007` and `ee7` count, so that the next are `8` and `e8`, also when the node is
gone and its edge with it. -/
theorem fresh_saved : ∃ g, ofSnapshot saved = .ok g ∧
    g.NewNode [.deleteNode "007"] (nodeName 8) ∧ g.NewEdge [.deleteNode "007"] (edgeName 8) := by
  refine ⟨_, rfl, ?_⟩
  obtain ⟨hnode, hedge⟩ := fresh_after (.imported (s := saved) rfl) [.deleteNode "007"]
  exact ⟨(hnode (by decide)).1, (hedge (by decide)).1⟩

end Graph

end Chatflow
