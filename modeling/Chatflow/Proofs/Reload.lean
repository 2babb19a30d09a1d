/-
# Saved graphs are loaded again

The snapshot of a well-formed graph is accepted, and gives the same nodes and the same edges
(`Graph.WellFormed.exists_ofSnapshot`).  So what is lost of a graph when it is saved and loaded is
what is lost of its snapshot in the text, and just the graphs of `Graph.Savable` come back as they
were (`Graph.loadedFrom_write_iff`).
-/
import Chatflow.Proofs.FreshIds
import Chatflow.Proofs.SavedText

namespace Chatflow.Graph

/-! ### Importing what was exported -/

section

variable {g g' : Graph}

/-- A graph with the nodes of another, but for what a function makes of them, lists them in the same
order. -/
lemma nodeList_eq_map {f : Node → Node} (h : ∀ id, g'.node? id = (g.node? id).map f) :
    g'.nodeList = g.nodeList.map f := by
  have hnodes : g'.nodes = g.nodes.map fun _ n => f n :=
    Std.ExtTreeMap.ext_getElem? fun id => by
      rw [Std.ExtTreeMap.getElem?_map]
      exact h id
  rw [nodeList, nodeList, hnodes, Std.ExtTreeMap.toList_map, List.map_map, List.map_map]
  rfl

/-- Nodes of different new ids are imported. -/
lemma exists_importNodes {nodes : List Node} (hnodup : (nodes.map (·.id)).Nodup)
    (hnew : ∀ n ∈ nodes, ¬ g.hasNode n.id) :
    ∃ g', g.importNodes nodes = .ok g' ∧ g'.edges = g.edges ∧
      ∀ id n, g'.node? id = some n ↔ (n ∈ nodes ∧ n.id = id) ∨ g.node? id = some n := by
  induction nodes generalizing g with
  | nil => exact ⟨g, rfl, rfl, by simp⟩
  | cons m rest ih =>
    rw [List.map_cons, List.nodup_cons] at hnodup
    obtain ⟨hm, hrest⟩ := hnodup
    have hnew' : ∀ n ∈ rest, ¬ (g.withNode m).hasNode n.id := by
      intro n hn hhas
      rw [withNode, hasNode_put] at hhas
      rcases hhas with hid | hhas
      · exact hm (hid ▸ List.mem_map_of_mem hn)
      · exact hnew n (List.mem_cons_of_mem m hn) hhas
    obtain ⟨g', himport, hedges, hnodes⟩ := ih hrest hnew'
    refine ⟨g', ?_, hedges, fun id n => ?_⟩
    · rw [importNodes, if_neg (hnew m List.mem_cons_self)]
      exact himport
    · have hput : (g.withNode m).node? id = if m.id = id then some m else g.node? id :=
        node?_put _ m id
      rw [hnodes, hput]
      by_cases hid : m.id = id
      · -- the only node under this id is the one put there
        have hfree : g.node? id = none := by
          rw [← Option.not_isSome_iff_eq_none, ← hasNode_iff, ← hid]
          exact hnew m List.mem_cons_self
        rw [if_pos hid, hfree]
        constructor
        · rintro (⟨hn, rfl⟩ | hn)
          · exact .inl ⟨List.mem_cons_of_mem m hn, rfl⟩
          · exact .inl ⟨Option.some.inj hn ▸ List.mem_cons_self, Option.some.inj hn ▸ hid⟩
        · rintro (⟨hn, rfl⟩ | hn)
          · rcases List.mem_cons.1 hn with rfl | hn
            · exact .inr rfl
            · exact .inl ⟨hn, rfl⟩
          · simp at hn
      · rw [if_neg hid]
        have hcons : n ∈ m :: rest ∧ n.id = id ↔ n ∈ rest ∧ n.id = id := by
          rw [List.mem_cons]
          constructor
          · rintro ⟨rfl | hn, rfl⟩
            · exact absurd rfl hid
            · exact ⟨hn, rfl⟩
          · rintro ⟨hn, rfl⟩
            exact ⟨.inr hn, rfl⟩
        rw [hcons]

/-- Edges of different new ids between nodes that are there are imported. -/
lemma exists_importEdges {seen : Std.ExtTreeSet EdgeId} {added edges : List Edge}
    (hnodup : (edges.map (·.id)).Nodup) (hnew : ∀ e ∈ edges, e.id ∉ seen)
    (hsource : ∀ e ∈ edges, g.hasNode e.source) (htarget : ∀ e ∈ edges, g.hasNode e.target) :
    ∃ g', g.importEdges seen added edges = .ok g' := by
  induction edges generalizing g seen added with
  | nil => exact ⟨_, rfl⟩
  | cons e rest ih =>
    rw [List.map_cons, List.nodup_cons] at hnodup
    obtain ⟨he, hrest⟩ := hnodup
    have hunused : seen.contains e.id = false := by
      simpa [← Std.ExtTreeSet.contains_iff_mem] using hnew e List.mem_cons_self
    rw [importEdges, hunused, hsource e List.mem_cons_self, htarget e List.mem_cons_self]
    refine ih hrest (fun f hf hmem => ?_) (fun f hf => hsource f (List.mem_cons_of_mem e hf))
      fun f hf => htarget f (List.mem_cons_of_mem e hf)
    rw [Std.ExtTreeSet.mem_insert, Std.compare_eq_iff_eq] at hmem
    rcases hmem with hid | hmem
    · exact he (hid ▸ List.mem_map_of_mem hf)
    · exact hnew f (List.mem_cons_of_mem e hf) hmem

/-- The snapshot of a well-formed graph, its nodes changed by a function that keeps their ids, is
imported with the nodes and the edges in their order. -/
lemma WellFormed.exists_ofSnapshot (hg : g.WellFormed) {f : Node → Node}
    (hf : ∀ n, (f n).id = n.id) :
    ∃ g', ofSnapshot ⟨g.nodeList.map f, g.edges⟩ = .ok g' ∧
      g'.nodeList = g.nodeList.map f ∧ g'.edges = g.edges := by
  have hids : (g.nodeList.map f).map (·.id) = g.nodeList.map (·.id) := by
    rw [List.map_map]
    exact List.map_congr_left fun n _ => hf n
  obtain ⟨g₁, hnodes, hnone, hnode⟩ := @exists_importNodes empty (g.nodeList.map f)
    (hids ▸ hg.nodup_nodes) (by simp [hasNode, empty])
  -- there was nothing before, so what is imported is all there is
  have hmap : ∀ id, g₁.node? id = (g.node? id).map f := by
    intro id
    refine Option.ext fun m => ?_
    rw [hnode, Option.map_eq_some_iff]
    constructor
    · rintro (⟨hm, rfl⟩ | hm)
      · obtain ⟨n, hn, rfl⟩ := List.mem_map.1 hm
        exact ⟨n, hg.node?_eq_some_iff.2 ⟨hn, (hf n).symm⟩, rfl⟩
      · simp [node?, empty] at hm
    · rintro ⟨n, hn, rfl⟩
      obtain ⟨hmem, rfl⟩ := hg.node?_eq_some_iff.1 hn
      exact .inl ⟨List.mem_map_of_mem hmem, hf n⟩
  have hhas : ∀ id, g.hasNode id → g₁.hasNode id := by
    intro id h
    rw [hasNode_iff] at h ⊢
    rw [hmap, Option.isSome_map]
    exact h
  obtain ⟨g', hedges⟩ := @exists_importEdges g₁ ∅ [] g.edges hg.nodup_edges (by simp)
    (fun e he => hhas _ (hg.hasNode_source e he)) (fun e he => hhas _ (hg.hasNode_target e he))
  obtain ⟨hsame, hall⟩ := of_importEdges hedges
  refine ⟨g', ?_, ?_, by simpa [hnone, empty] using hall⟩
  · rw [ofSnapshot, hnodes]
    exact hedges
  · rw [nodeList, hsame]
    exact nodeList_eq_map hmap

end

/-! ### Saving and loading -/

/-- The text is accepted and gives the nodes and the edges of the graph, in their order. -/
def LoadedFrom (g : Graph) (text : String) : Prop :=
  ∃ saved g', Snapshot.ofText text = .ok saved ∧ ofSnapshot saved = .ok g' ∧
    g'.nodeList = g.nodeList ∧ g'.edges = g.edges

/-- The data of every node nests at most 124 levels, and every place is read back as it is. -/
def Savable (g : Graph) : Prop :=
  ∀ n ∈ g.nodeList, n.data.toJson.nesting ≤ 124 ∧ n.position.Steady

/-- A graph is loaded from a text in which it is written just if it is savable. -/
lemma loadedFrom_write_iff {g : Graph} {style : Json.Style} (hstyle : style.Blank)
    {extra : Json.Members} (hextra : ∀ m ∈ extra, m.1 ≠ "nodes" ∧ m.1 ≠ "edges")
    (hwhole : Json.MembersWhole extra) (hg : g.WellFormed)
    (hdata : ∀ n ∈ g.nodeList, n.data.toJson.Whole)
    (hplaces : ∀ n ∈ g.nodeList, n.position.InRange) :
    g.LoadedFrom ((Json.obj (extra ++ g.snapshot.members)).write style) ↔ g.Savable := by
  have htext := @Snapshot.ofText_write style hstyle g.snapshot extra hextra hwhole hdata hplaces
  by_cases hnesting : ∀ n ∈ g.snapshot.nodes, n.data.toJson.nesting ≤ 124
  · rw [if_pos hnesting] at htext
    obtain ⟨g', himport, hnodes, hedges⟩ := @WellFormed.exists_ofSnapshot g hg Node.reread
      fun _ => rfl
    -- the text is accepted in any case, but the nodes may come back at other places
    have hloaded : g.LoadedFrom ((Json.obj (extra ++ g.snapshot.members)).write style) ↔
        g.nodeList.map Node.reread = g.nodeList := by
      constructor
      · rintro ⟨saved, g'', hread, himport', hnodes', -⟩
        obtain rfl := Except.ok.inj (htext.symm.trans hread)
        obtain rfl := Except.ok.inj (himport.symm.trans himport')
        rw [← hnodes, hnodes']
      · intro hsame
        exact ⟨_, g', htext, himport, hnodes.trans hsame, hedges⟩
    rw [hloaded, Node.map_reread_eq_iff]
    exact ⟨fun hsteady n hn => ⟨hnesting n hn, hsteady n hn⟩,
      fun hsavable n hn => (hsavable n hn).2⟩
  · rw [if_neg hnesting] at htext
    constructor
    · rintro ⟨saved, g', hread, -⟩
      simp [htext] at hread
    · exact fun hsavable => absurd (fun n hn => (hsavable n hn).1) hnesting

lemma loadedFrom_text_iff {g : Graph} (hg : g.WellFormed)
    (hdata : ∀ n ∈ g.nodeList, n.data.toJson.Whole)
    (hplaces : ∀ n ∈ g.nodeList, n.position.InRange) :
    g.LoadedFrom g.snapshot.text ↔ g.Savable :=
  @loadedFrom_write_iff g _ Json.Style.blank_pretty [] (by simp) trivial hg hdata hplaces

end Chatflow.Graph
