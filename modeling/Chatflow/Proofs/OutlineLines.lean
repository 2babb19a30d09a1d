/-
# How many lines an outline has

An outline is cut into lines again where it is shown as a list.  Every entry ends its line, and
titles and ids are shown as they are, so an entry comes to one line more than it has line feeds in
its texts (`Outline.length_lines_join`).  Hence the lines of the outline of a compiled script are
the places in its tree just if no step has a line feed in its id, in its origin or in the title of
a button that nests a continuation (`Compiler.lines_outline_iff`): all of these are shown, and what
else is shown is one of them.
-/
import Chatflow.Command.Report
import Chatflow.Proofs.Outline
import Chatflow.Proofs.StepIds
import Chatflow.Proofs.Written

namespace Chatflow

namespace Outline

/-! ### Cutting a text into lines -/

/-- The number of line feeds in a text. -/
def lineFeeds (text : String) : Nat := text.toList.count '\n'

lemma lineFeeds_append (a b : String) : lineFeeds (a ++ b) = lineFeeds a + lineFeeds b := by
  rw [lineFeeds, String.toList_append, List.count_append]
  rfl

lemma lineFeeds_eq_zero_iff {text : String} : lineFeeds text = 0 ↔ '\n' ∉ text.toList :=
  List.count_eq_zero

/-- A text falls into one piece more than it has separators. -/
lemma length_splitOn (c : Char) (cs : List Char) : (cs.splitOn c).length = cs.count c + 1 := by
  induction cs with
  | nil => rfl
  | cons d rest ih =>
    rw [List.splitOn_cons_eq_if_modifyHead, List.count_cons]
    split
    · rw [List.length_cons, ih]
    · rw [List.length_modifyHead, ih]

/-- The pieces of texts that each end in a line feed are their pieces one after the other, and
nothing behind the last line feed. -/
lemma splitOn_flatMap_concat (texts : List (List Char)) :
    (texts.flatMap (· ++ ['\n'])).splitOn '\n' = texts.flatMap (·.splitOn '\n') ++ [[]] := by
  induction texts with
  | nil => rfl
  | cons cs rest ih =>
    rw [List.flatMap_cons, List.append_assoc, List.singleton_append,
      List.splitOn_append_cons_self, ih, List.flatMap_cons, List.append_assoc]

/-- The lines of entries that are each written with a line end. -/
lemma lines_join (entries : List String) :
    lines (String.join (entries.map (· ++ "\n")))
      = (entries.flatMap fun e => e.toList.splitOn '\n').map
          fun piece => String.ofList (withoutReturn piece) := by
  have htext : (String.join (entries.map (· ++ "\n"))).toList
      = (entries.map String.toList).flatMap (· ++ ['\n']) := by
    rw [String.toList_join, List.flatMap_map, List.flatMap_map]
    exact List.flatMap_congr fun e _ => String.toList_append
  -- nothing stands behind the last line end, and so there is no line for it
  have hlast : (Option.filter (fun x : List Char => decide (x ≠ [])) (some [])).toList = [] := rfl
  rw [lines, htext, splitOn_flatMap_concat, List.flatMap_map, List.dropLast_concat,
    List.getLast?_concat, hlast, List.append_nil, List.map_map]
  rfl

/-- Each entry comes to a line, and to one more for every line feed in it. -/
lemma length_lines_join (entries : List String) :
    (lines (String.join (entries.map (· ++ "\n")))).length
      = entries.length + lineFeeds (String.join entries) := by
  rw [lines_join, List.length_map]
  induction entries with
  | nil => rfl
  | cons e rest ih =>
    have hpieces : (e.toList.splitOn '\n').length = lineFeeds e + 1 := length_splitOn _ _
    rw [List.flatMap_cons, List.length_append, ih, hpieces, String.join_cons, lineFeeds_append,
      List.length_cons]
    omega

/-- Entries without line feeds are the lines. -/
lemma lines_join_of_forall {entries : List String} (h : ∀ e ∈ entries, '\n' ∉ e.toList) :
    lines (String.join (entries.map (· ++ "\n")))
      = entries.map fun e => String.ofList (withoutReturn e.toList) := by
  have hpieces : (entries.flatMap fun e => e.toList.splitOn '\n')
      = entries.flatMap fun e => [e.toList] :=
    List.flatMap_congr fun e he => List.splitOn_eq_singleton (h e he)
  rw [lines_join, hpieces, List.map_flatMap]
  exact List.flatMap_pure_eq_map _ _

/-! ### The texts of an entry -/

/-- The texts in the caption of a branch: of a step its id and its origin, of a marker where it
leads. -/
def texts : Branch → List String
  | .step s _ => [s.id, s.origin]
  | .backReference target => [target]
  | .empty => []

/-- The texts that the entry of a place shows as they are. -/
def textsAt (t : Branch) (address : List Nat) : List String :=
  (labelAt t address).toList ++ (t.at? address).toList.flatMap texts

/-- The line of a place, if it is one. -/
def lineAt (t : Branch) (address : List Nat) : String :=
  String.ofList (withoutReturn (entryAt t address).toList)

lemma lineFeeds_name (t : NodeType) : lineFeeds t.name = 0 := by cases t <;> rfl

/-- All line feeds of an entry are in its texts. -/
lemma lineFeeds_entryAt (t : Branch) (address : List Nat) :
    lineFeeds (entryAt t address) = lineFeeds (String.join (textsAt t address)) := by
  have hindent : lineFeeds (String.ofList (List.replicate (2 * address.length) ' ')) = 0 := by
    rw [lineFeeds, String.toList_ofList, List.count_replicate]
    rfl
  have hlabel : lineFeeds ((labelAt t address).elim "" fun label => "[" ++ label ++ "] ")
      = lineFeeds (String.join (labelAt t address).toList) := by
    cases labelAt t address with
    | none => rfl
    | some label =>
      simp only [Option.elim_some, lineFeeds_append, Option.toList_some, String.join_cons]
      exact Nat.zero_add _
  have hcaption : lineFeeds (captionAt t address)
      = lineFeeds (String.join ((t.at? address).toList.flatMap texts)) := by
    rw [captionAt]
    cases t.at? address with
    | none => rfl
    | some b =>
      rw [Option.toList_some, List.flatMap_singleton]
      cases b with
      | empty => rfl
      | backReference target =>
        simp only [texts, lineFeeds_append, String.join_cons]
        exact Nat.zero_add _
      | step s slots =>
        simp only [texts, lineFeeds_append, lineFeeds_name, String.join_cons]
        rfl
  rw [entryAt, lineFeeds_append, lineFeeds_append, hindent, hlabel, hcaption, Nat.zero_add,
    ← lineFeeds_append, ← String.join_append, textsAt]

lemma lineFeeds_join_eq_zero_iff {texts : List String} :
    lineFeeds (String.join texts) = 0 ↔ ∀ text ∈ texts, '\n' ∉ text.toList := by
  induction texts with
  | nil => simp [lineFeeds]
  | cons text rest ih =>
    rw [String.join_cons, lineFeeds_append, Nat.add_eq_zero_iff, ih, lineFeeds_eq_zero_iff,
      List.forall_mem_cons]

/-! ### The lines of a tree -/

variable {t : Branch}

lemma lineFeeds_entries (t : Branch) (addresses : List (List Nat)) :
    lineFeeds (String.join (addresses.map (entryAt t)))
      = lineFeeds (String.join (addresses.flatMap (textsAt t))) := by
  induction addresses with
  | nil => rfl
  | cons address rest ih =>
    rw [List.map_cons, List.flatMap_cons, String.join_cons, String.join_append, lineFeeds_append,
      lineFeeds_append, lineFeeds_entryAt, ih]

/-- An outline has a line for every place, and one more for every line feed in a text that it
shows. -/
lemma length_lines_outline (h : t.isEmpty = false) :
    (lines (Document.mk t).outline).length
      = t.addresses.length + lineFeeds (String.join (t.addresses.flatMap (textsAt t))) := by
  rw [Document.outline_of_isEmpty_eq_false h, length_lines_join, List.length_map,
    lineFeeds_entries]

/-- The lines are the places just if no text that is shown has a line feed. -/
lemma lines_eq_iff_textsAt (h : t.isEmpty = false) :
    lines (Document.mk t).outline = t.addresses.map (lineAt t) ↔
      ∀ address ∈ t.addresses, ∀ text ∈ textsAt t address, '\n' ∉ text.toList := by
  constructor
  · intro hlines address haddress text htext
    have hlength := length_lines_outline h
    rw [hlines, List.length_map, Nat.left_eq_add, lineFeeds_join_eq_zero_iff] at hlength
    exact hlength text (List.mem_flatMap.2 ⟨address, haddress, htext⟩)
  · intro htexts
    rw [Document.outline_of_isEmpty_eq_false h, lines_join_of_forall, List.map_map]
    · rfl
    · intro entry hentry
      obtain ⟨address, haddress, rfl⟩ := List.mem_map.1 hentry
      rw [← lineFeeds_eq_zero_iff, lineFeeds_entryAt, lineFeeds_join_eq_zero_iff]
      exact htexts address haddress

end Outline

/-- Nothing that an outline shows of the step has a line feed: not its id, not its origin, and not
the titles of buttons in which continuations are nested. -/
structure Step.OnOneLine (s : Step) : Prop where
  id : '\n' ∉ s.id.toList
  origin : '\n' ∉ s.origin.toList
  title : Field.nextNode ∉ s.fields → ∀ b ∈ s.buttons, '\n' ∉ b.title.toList

namespace Compiler

open Outline

variable {γ : Type} [IdGenerator γ] {c : Compiler} {nodes : List Node} {edges : List Edge}
  {root : NodeId} {generator : γ} {comp : Compilation}

/-- A marker shows the origin of a step. -/
lemma exists_origin_eq (h : (c.runLists nodes edges root generator).result = .ok comp)
    {address : List Nat} {target : NodeId}
    (hat : comp.root.at? address = some (.backReference target)) :
    ∃ above s slots, comp.root.at? above = some (.step s slots) ∧ s.origin = target := by
  cases hroot : (GraphIndex.ofLists nodes edges).node? root with
  | none =>
    rw [runLists, run_of_absent hroot] at h
    obtain rfl := Except.ok.inj h
    simpa using (Tree.eq_of_at?_of_slots_eq_nil rfl hat).2
  | some n =>
    obtain rfl := GraphIndex.id_eq _ hroot
    have hunfolds := unfolds_of_map_origin hroot (map_origin_of_run hroot h)
    obtain ⟨above, below, s, slots, -, -, hs, horigin⟩ :=
      hunfolds.origin_of_backReference address target hat
    exact ⟨above, s, slots, hs, horigin⟩

/-- Every text that is shown of a compiled tree is one of a step. -/
lemma forall_textsAt_iff (h : (c.runLists nodes edges root generator).result = .ok comp) :
    (∀ address ∈ comp.root.addresses, ∀ text ∈ textsAt comp.root address, '\n' ∉ text.toList) ↔
      ∀ address s slots, comp.root.at? address = some (.step s slots) → s.OnOneLine := by
  constructor
  · intro htexts address s slots hs
    have hown : ∀ text ∈ [s.id, s.origin], '\n' ∉ text.toList := by
      intro text htext
      refine htexts address (Tree.mem_addresses_iff.2 ⟨_, hs⟩) text (List.mem_append_right _ ?_)
      rw [hs]
      simpa [texts] using htext
    refine ⟨hown _ (by simp), hown _ (by simp), fun hnested b hb => ?_⟩
    -- the layout has a slot for the button, and its entry shows the title
    obtain ⟨slot, hlt, rfl⟩ := List.mem_iff_getElem.1 hb
    have hslots : slots.length = s.buttons.length := by
      cases (laidOut_of_run h).at? hs with
      | step laidOut _ =>
        rw [laidOut.slots_eq, laidOut.length_buttons, Layout.slots_eq_length_titles]
    have hbelow : slots[slot]? = some slots[slot] := List.getElem?_eq_getElem (hslots ▸ hlt)
    have hat : comp.root.at? (address ++ [slot]) = some slots[slot] :=
      Tree.at?_concat_eq_some_iff.2 ⟨s, slots, hs, hbelow⟩
    have hlabel : labelAt comp.root (address ++ [slot]) = some s.buttons[slot].title := by
      rw [labelAt_concat hs, slotLabel_eq, if_neg hnested, List.getElem?_eq_getElem hlt]
      rfl
    refine htexts _ (Tree.mem_addresses_iff.2 ⟨_, hat⟩) _ (List.mem_append_left _ ?_)
    rw [hlabel]
    simp
  · intro hsteps address haddress text htext
    rcases List.mem_append.1 htext with hlabel | hcaption
    · obtain ⟨above, slot, s, slots, rfl, hs, hslot⟩ :=
        exists_of_labelAt (Option.mem_toList.1 hlabel)
      rw [slotLabel_eq] at hslot
      split at hslot
      · obtain rfl := Option.some.inj hslot
        decide
      · next hnested =>
        obtain ⟨b, hb, rfl⟩ := Option.map_eq_some_iff.1 hslot
        exact (hsteps above s slots hs).title hnested b (List.mem_of_getElem? hb)
    · obtain ⟨b, hb, htext⟩ := List.mem_flatMap.1 hcaption
      have hat := Option.mem_toList.1 hb
      cases b with
      | empty => simp [texts] at htext
      | backReference target =>
        obtain rfl : text = target := by simpa [texts] using htext
        obtain ⟨above, s, slots, hs, horigin⟩ := exists_origin_eq h hat
        exact horigin ▸ (hsteps above s slots hs).origin
      | step s slots =>
        have hs := hsteps address s slots hat
        rcases List.mem_pair.1 htext with rfl | rfl
        · exact hs.id
        · exact hs.origin

/-- The compilation of a menu whose first button leads back to it. -/
lemma exists_run_loop {n : Node} (hn : (GraphIndex.ofLists [n] menuEdges).node? "a" = some n)
    (hplan : plan {} (.ofLists [n] menuEdges) [] n = .step n [.backReference "a", .empty]) :
    ∃ comp, (runLists {} [n] menuEdges "a" IdScheme.standard.source).result = .ok comp ∧
      comp.root = .step (makeStep {} (.ofLists [n] menuEdges) n "id_1")
        [.backReference "a", .empty] := by
  rw [runLists, run_eq_build hn, hplan, build_step,
    Build.bind_of_ok (openStep_of_not_le (by decide)), List.mapM_cons, List.mapM_cons,
    List.mapM_nil, build_backReference, build_empty, pure_bind, pure_bind, bind_assoc,
    Build.bind_of_ok (leadBack_backReference rfl _ _)]
  exact ⟨_, rfl, rfl⟩

/-- The list that a report has for the outline of a compiled script has one line for every place in
the tree, and one more for every line feed in a text that is shown.  It has just the places, in
their order, if and only if no step has a text with a line feed. -/
theorem lines_outline_iff (h : (c.runLists nodes edges root generator).result = .ok comp)
    (hroot : comp.root.isEmpty = false) (session : Session) :
    ∃ shown : List String,
      (Report.checkJson session comp true).get? "outline" = some (.ofStrings shown) ∧
      shown.length = comp.root.addresses.length
        + lineFeeds (String.join (comp.root.addresses.flatMap (textsAt comp.root))) ∧
      (shown = comp.root.addresses.map (lineAt comp.root) ↔
        ∀ address s slots, comp.root.at? address = some (.step s slots) → s.OnOneLine) := by
  refine ⟨lines comp.document.outline, rfl, length_lines_outline hroot, ?_⟩
  rw [← forall_textsAt_iff h]
  exact lines_eq_iff_textsAt hroot

theorem lines_outline_menu : ∃ comp,
    (runLists {} [menu] menuEdges "a" IdScheme.standard.source).result = .ok comp ∧
      comp.root.isEmpty = false ∧ ∀ session, ∃ shown : List String,
        (Report.checkJson session comp true).get? "outline" = some (.ofStrings shown) ∧
        shown = comp.root.addresses.map (lineAt comp.root) ∧
        shown = ["id_1 Template (node a)", "  [Yes] $ref a", "  [No] -"] := by
  obtain ⟨comp, h, hcomp⟩ := exists_run_loop (n := menu) rfl (plan_menu .backReference)
  have hstep : makeStep {} (.ofLists [menu] menuEdges) menu "id_1"
      = ⟨"id_1", "a", .template, false, (Layout.buttons []).fields, none, none,
          [⟨"id1", "Yes"⟩, ⟨"id2", "No"⟩]⟩ := rfl
  rw [hstep] at hcomp
  have hroot : comp.root.isEmpty = false := by rw [hcomp]; rfl
  have hsteps : ∀ address s slots, comp.root.at? address = some (.step s slots) →
      s.OnOneLine := by
    intro address s slots hs
    rw [hcomp] at hs
    rcases address with _ | ⟨slot, below⟩
    · obtain ⟨rfl, rfl⟩ := Tree.step.inj (Option.some.inj hs)
      exact ⟨by decide, by decide, by decide⟩
    · -- neither the marker nor the empty slot has a step in it
      rcases slot with _ | _ | slot
      · have hmarker : (Tree.backReference "a").at? below = some (.step s slots) := hs
        simpa using (Tree.eq_of_at?_of_slots_eq_nil rfl hmarker).2
      · have hempty : Tree.empty.at? below = some (.step s slots) := hs
        simpa using (Tree.eq_of_at?_of_slots_eq_nil rfl hempty).2
      · simp [Tree.at?_cons, Tree.slots] at hs
  refine ⟨comp, h, hroot, fun session => ?_⟩
  obtain ⟨shown, hshown, -, hlines⟩ := lines_outline_iff h hroot session
  have heq := hlines.2 hsteps
  refine ⟨shown, hshown, heq, ?_⟩
  rw [heq, hcomp]
  cbv

/-- The menu, called by a title of two lines. -/
def twoLineMenu : Node := { menu with data := .titled "Main\nmenu" }

lemma plan_twoLineMenu :
    plan {} (.ofLists [twoLineMenu] menuEdges) [] twoLineMenu
      = .step twoLineMenu [.backReference "a", .empty] := by
  rw [plan_eq, show targets {} (.ofLists [twoLineMenu] menuEdges) twoLineMenu = [some "a", none]
    from rfl, List.map_cons, planSlot_of_mem (by decide) (by decide)]
  rfl

/-- The outline of the menu has a line more than there are places in the tree. -/
theorem lines_outline_twoLineMenu : ∃ comp,
    (runLists {} [twoLineMenu] menuEdges "a" IdScheme.standard.source).result = .ok comp ∧
      comp.root.isEmpty = false ∧ comp.root.addresses = [[], [0], [1]] ∧
      lines comp.document.outline
        = ["id_1 Template (node a)", "  [Main", "menu] $ref a", "  [No] -"] := by
  obtain ⟨comp, h, hcomp⟩ := exists_run_loop (n := twoLineMenu) rfl plan_twoLineMenu
  have hstep : makeStep {} (.ofLists [twoLineMenu] menuEdges) twoLineMenu "id_1"
      = ⟨"id_1", "a", .template, false, (Layout.buttons []).fields, none, none,
          [⟨"id1", "Main\nmenu"⟩, ⟨"id2", "No"⟩]⟩ := rfl
  rw [hstep] at hcomp
  refine ⟨comp, h, ?_, ?_, ?_⟩
  · rw [hcomp]; rfl
  · rw [hcomp, Tree.addresses_step]
    simp
  · rw [Compilation.document, hcomp]
    cbv

end Compiler

end Chatflow
