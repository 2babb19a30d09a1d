/-
# What renaming leaves as it is

A schema says three things: the shape of steps, which is the number of slots, the fields and whether
the bot ends; the titles of their buttons; and the address of documents that name none.  Nothing
else is in it (`Schema.eq_of_parts_eq`).  So a registry after a renaming is known from its parts
(`Registry.Renames`): all shapes as they were, and all words but those that were given.

Registries are edited in place (`Registry.Edit.inPlace`).  Setting titles looks at a row before it
writes it, and behind that nothing can fail.  So titles that do not fit the slots leave the registry
alone, and titles that fit are a renaming, whatever was registered before
(`Registry.make_setTitles_eq_ok_iff`).  Setting the address writes a row for documents without a look
at the one that is there.  That is a renaming just if documents had the shape of documents
(`Registry.renames_setDocumentUrl_iff`); otherwise they have it from then on.

The shape of a type after a run of edits is the last that an edit gave it (`Registry.shape_after`).
Titles give none, so they can be left out of every run, and the address gives documents one that
differs from theirs only if another was registered.
-/
import Chatflow.Proofs.Rewording

namespace Chatflow

/-! ### The parts of a schema -/

namespace Layout

/-- Whether steps of the layout have buttons, be their number zero. -/
def HasButtons : Layout → Prop
  | buttons _ | action _ => True
  | document _ | leaf => False

/-- The address of documents that name none. -/
def address? : Layout → Option String
  | document url => some url
  | buttons _ | action _ | leaf => none

end Layout

namespace Schema

/-- What a schema says apart from words. -/
structure Shape where
  /-- How many continuations a step has. -/
  slots : Nat
  /-- The fields that a step writes, in their order. -/
  fields : List Field
  /-- Whether the bot ends at such a step. -/
  terminal : Bool
deriving DecidableEq

/-- The shape of documents that end the bot. -/
def Shape.document : Shape := ⟨0, [.id, .botTerminate, .customType, .documentUrl], true⟩

/-- What the schema says apart from words. -/
def shape (s : Schema) : Shape := ⟨s.slots, s.fields, s.terminal⟩

/-- The address of documents that name none. -/
def address? (s : Schema) : Option String := s.layout.address?

variable {s s' : Schema}

/-- There is nothing in a schema but its shape, its titles and its address. -/
lemma eq_of_parts_eq (hshape : s.shape = s'.shape) (htitles : s.titles = s'.titles)
    (haddress : s.address? = s'.address?) : s = s' := by
  obtain ⟨layout, terminal⟩ := s
  obtain ⟨layout', terminal'⟩ := s'
  obtain ⟨-, hfields, rfl⟩ := Shape.mk.inj hshape
  suffices layout = layout' by rw [this]
  -- the fields tell the layouts apart, and each has no more than its words
  cases layout <;> cases layout' <;>
    simp_all [Schema.fields, Schema.titles, Schema.address?, Layout.fields, Layout.titles,
      Layout.address?]

/-- Schemas with the shape of documents are those of documents. -/
lemma shape_eq_document_iff : s.shape = .document ↔ ∃ url, s = .ofLayout (.document url) := by
  constructor
  · intro h
    obtain ⟨layout, terminal⟩ := s
    obtain ⟨-, hfields, hterminal⟩ := Shape.mk.inj h
    cases layout with
    | document url => exact ⟨url, congrArg (Schema.mk (.document url)) hterminal⟩
    | buttons titles => simp [Schema.fields, Layout.fields] at hfields
    | action title => simp [Schema.fields, Layout.fields] at hfields
    | leaf => simp [Schema.fields, Layout.fields] at hfields
  · rintro ⟨url, rfl⟩
    rfl

/-- Titles that fit keep the shape. -/
lemma shape_reword {titles : List String} (h : titles.length = s.slots) :
    (s.reword none (some titles)).shape = s.shape := by
  have hslots : (s.layout.reword none (some titles)).slots = s.layout.slots := by
    refine Layout.slots_reword fun given hgiven => ?_
    obtain rfl := Option.some.inj hgiven
    exact h
  simp only [shape, reword, Schema.slots, Schema.fields, hslots, Layout.fields_reword]

end Schema

namespace Layout

variable {l : Layout} {titles : List String}

/-- Titles that fit become the titles. -/
lemma titles_reword (h : titles.length = l.slots) (hbuttons : l.HasButtons) :
    (l.reword none (some titles)).titles = titles := by
  cases l with
  | buttons old => rfl
  | action old =>
    obtain ⟨title, rfl⟩ := List.length_eq_one_iff.1 h
    rfl
  | document old => exact hbuttons.elim
  | leaf => exact hbuttons.elim

/-- Titles say nothing of the address. -/
lemma address?_reword : (l.reword none (some titles)).address? = l.address? := by
  cases l <;> rfl

end Layout

/-! ### What edits give -/

namespace Registry

namespace Edit

/-- The titles that the edit gives a type when it renames. -/
def titles? (t : NodeType) : Edit → Option (List String)
  | setTitles type titles => if t = type then some titles else none
  | register _ _ | setDocumentUrl _ => none

/-- The address that the edit gives a type when it renames. -/
def address? (t : NodeType) : Edit → Option String
  | setDocumentUrl url => if t = .document then some url else none
  | register _ _ | setTitles _ _ => none

/-- The shape that the edit gives a type. -/
def shape? (t : NodeType) : Edit → Option Schema.Shape
  | register type s => if t = type then some s.shape else none
  | setTitles _ _ => none
  | setDocumentUrl _ => if t = .document then some .document else none

end Edit

/-- One registry is the other after the renaming: it has the words that the edit gives, and all else
is as it was. -/
structure Renames (e : Edit) (r r' : Registry) : Prop where
  shape_eq : ∀ t, (r'.schema t).shape = (r.schema t).shape
  titles_eq : ∀ t, (r'.schema t).titles = (e.titles? t).getD (r.schema t).titles
  address_eq : ∀ t, (r'.schema t).address? = (e.address? t).or (r.schema t).address?

variable {r r' r'' : Registry} {type t : NodeType} {titles : List String} {url : String}

/-- A renaming leaves no choice. -/
lemma Renames.unique {e : Edit} (h : Renames e r r') (h' : Renames e r r'') : r' = r'' := by
  obtain ⟨schema⟩ := r'
  obtain ⟨schema'⟩ := r''
  congr 1
  funext t
  refine Schema.eq_of_parts_eq ?_ ?_ ?_
  · exact (h.shape_eq t).trans (h'.shape_eq t).symm
  · exact (h.titles_eq t).trans (h'.titles_eq t).symm
  · exact (h.address_eq t).trans (h'.address_eq t).symm

/-! ### Setting titles -/

/-- Titles that fail have changed nothing. -/
lemma make_setTitles (r : Registry) (type : NodeType) (titles : List String) :
    r.make (.setTitles type titles) = match r.setTitles type titles with
      | .ok r' => (.ok (), r')
      | .error err => (.error err, r) := by
  have hget : ∀ rest : Registry → ExceptT TitleError (StateM Registry) Unit,
      (get >>= rest).run.run r = (rest r).run.run r := fun rest => rfl
  rw [make, Edit.inPlace, hget, setTitles]
  dsimp only
  cases retitle type (r.schema type).layout titles <;> rfl

/-- A layout with buttons takes titles in the number of its slots, also none if it has none. -/
lemma retitle_of_hasButtons {l : Layout} (h : l.HasButtons) :
    retitle type l titles = if titles.length = l.slots then .ok (l.reword none (some titles))
      else .error (.wrongCount type l.slots titles.length) := by
  cases l with
  | buttons old => rfl
  | action old =>
    have hpos : 0 < (Layout.action old).slots := Nat.one_pos
    exact retitle_eq type hpos titles
  | document old => exact h.elim
  | leaf => exact h.elim

lemma retitle_of_not_hasButtons {l : Layout} (h : ¬ l.HasButtons) :
    retitle type l titles = .error (.noButtons type) := by
  cases l with
  | buttons old => exact absurd trivial h
  | action old => exact absurd trivial h
  | document old => rfl
  | leaf => rfl

/-- The titles fit the type: it has buttons, and as many slots as there are titles. -/
def Fits (r : Registry) (type : NodeType) (titles : List String) : Prop :=
  (r.schema type).layout.HasButtons ∧ titles.length = (r.schema type).slots

/-- Titles that fit are put into the row. -/
lemma setTitles_of_fits (h : r.Fits type titles) :
    r.setTitles type titles
      = .ok (r.register type ((r.schema type).reword none (some titles))) := by
  have hlength : titles.length = (r.schema type).layout.slots := h.2
  rw [setTitles, retitle_of_hasButtons h.1, if_pos hlength]
  rfl

/-- Titles that do not fit are refused. -/
lemma exists_setTitles_eq_error (h : ¬ r.Fits type titles) :
    ∃ err, r.setTitles type titles = .error err := by
  rw [setTitles]
  by_cases hbuttons : (r.schema type).layout.HasButtons
  · have hlength : titles.length ≠ (r.schema type).layout.slots := fun hlength =>
      h ⟨hbuttons, hlength⟩
    rw [retitle_of_hasButtons hbuttons, if_neg hlength]
    exact ⟨_, rfl⟩
  · rw [retitle_of_not_hasButtons hbuttons]
    exact ⟨_, rfl⟩

/-- Titles that fit are a renaming, whatever the row was before. -/
lemma renames_register (h : r.Fits type titles) :
    Renames (.setTitles type titles) r
      (r.register type ((r.schema type).reword none (some titles))) where
  shape_eq t := by
    rw [schema_register]
    split
    · next ht => rw [ht, Schema.shape_reword h.2]
    · rfl
  titles_eq t := by
    rw [schema_register, Edit.titles?]
    split
    · exact Layout.titles_reword h.2 h.1
    · rfl
  address_eq t := by
    rw [schema_register]
    split
    · next ht =>
      rw [ht]
      exact Layout.address?_reword
    · rfl

/-- Titles are taken just if they fit, and then they are a renaming. -/
lemma make_setTitles_eq_ok_iff :
    r.make (.setTitles type titles) = (.ok (), r') ↔
      r.Fits type titles ∧ Renames (.setTitles type titles) r r' := by
  rw [make_setTitles]
  by_cases hfits : r.Fits type titles
  · rw [setTitles_of_fits hfits]
    constructor
    · intro h
      obtain rfl := (Prod.mk.inj h).2
      exact ⟨hfits, renames_register hfits⟩
    · intro h
      rw [h.2.unique (renames_register hfits)]
  · obtain ⟨err, herr⟩ := exists_setTitles_eq_error hfits
    simp [herr, hfits]

/-- Titles that do not fit fail, and then nothing has changed. -/
lemma make_setTitles_eq_error_iff :
    (∃ err, r.make (.setTitles type titles) = (.error err, r')) ↔
      ¬ r.Fits type titles ∧ r' = r := by
  rw [make_setTitles]
  by_cases hfits : r.Fits type titles
  · simp [setTitles_of_fits hfits, hfits]
  · obtain ⟨err, herr⟩ := exists_setTitles_eq_error hfits
    simp [herr, hfits, eq_comm]

/-! ### Setting the address -/

/-- Documents have the address from then on, and no other row is touched. -/
lemma schema_setDocumentUrl (r : Registry) (url : String) (t : NodeType) :
    (r.setDocumentUrl url).schema t
      = if t = .document then .ofLayout (.document url) else r.schema t := rfl

/-- Setting the address is a renaming just if documents had the shape of documents. -/
lemma renames_setDocumentUrl_iff :
    Renames (.setDocumentUrl url) r (r.setDocumentUrl url) ↔
      (r.schema .document).shape = .document := by
  constructor
  · intro h
    exact (h.shape_eq .document).symm
  · intro h
    obtain ⟨old, hold⟩ := Schema.shape_eq_document_iff.1 h
    refine ⟨fun t => ?_, fun t => ?_, fun t => ?_⟩
    all_goals
      rw [schema_setDocumentUrl]
      by_cases ht : t = .document
      · simp only [ht, hold, if_pos]
        rfl
      · simp [ht, Edit.titles?, Edit.address?]

/-! ### Runs -/

/-- An edit gives a type the shape that is told, or leaves it its own. -/
lemma shape_make (r : Registry) (e : Edit) (t : NodeType) :
    ((r.make e).2.schema t).shape = (e.shape? t).getD (r.schema t).shape := by
  cases e with
  | register type s =>
    show ((r.register type s).schema t).shape = _
    rw [schema_register, Edit.shape?]
    split <;> rfl
  | setTitles type titles =>
    by_cases hfits : r.Fits type titles
    · have hmake := make_setTitles_eq_ok_iff.2 ⟨hfits, renames_register hfits⟩
      rw [hmake]
      exact (renames_register hfits).shape_eq t
    · obtain ⟨err, herr⟩ := make_setTitles_eq_error_iff.2 ⟨hfits, rfl⟩
      rw [herr]
      rfl
  | setDocumentUrl url =>
    show ((r.setDocumentUrl url).schema t).shape = _
    rw [schema_setDocumentUrl, Edit.shape?]
    split <;> rfl

/-- After a run of edits a type has the shape that the last edit with one gave it. -/
lemma shape_after (r : Registry) (edits : List Edit) (t : NodeType) :
    ((r.after edits).schema t).shape
      = (edits.filterMap (·.shape? t)).getLast?.getD (r.schema t).shape := by
  induction edits generalizing r with
  | nil => rfl
  | cons e rest ih =>
    have hstep := shape_make r e t
    show (((r.make e).2.after rest).schema t).shape = _
    rw [ih, hstep, List.filterMap_cons]
    cases e.shape? t with
    | none => rfl
    | some shape => simp [List.getLast?_cons]

/-- The last shape that the edits gave documents, if they gave them any, is that of documents. -/
lemma shape_document_after_iff (edits : List Edit) :
    ((standard.after edits).schema .document).shape = .document ↔
      ∀ shape, (edits.filterMap (·.shape? .document)).getLast? = some shape →
        shape = .document := by
  rw [shape_after]
  cases (edits.filterMap (·.shape? .document)).getLast? with
  | none => exact iff_of_true rfl (by simp)
  | some last => simp

/-- Whatever was done to the standard schemas before: titles are taken just if the type has buttons
and as many slots as there are titles; titles that are taken change the titles of the type and
nothing else; titles that are refused change nothing.  Setting the address always succeeds, leaves
all other types alone and gives documents the shape of documents.  So it changes the address and
nothing else just if they had that shape: if the last shape that they were given, if any, is this
one. -/
theorem renames_after (edits : List Edit) :
    let r := standard.after edits
    (∀ type titles,
      ((∃ r', r.make (.setTitles type titles) = (.ok (), r')) ↔
        (r.schema type).layout.HasButtons ∧ titles.length = (r.schema type).slots) ∧
      (∀ r', r.make (.setTitles type titles) = (.ok (), r') →
        Renames (.setTitles type titles) r r') ∧
      ∀ err r', r.make (.setTitles type titles) = (.error err, r') → r' = r) ∧
    (∀ url, ∃ r', r.make (.setDocumentUrl url) = (.ok (), r') ∧
      (∀ t, t ≠ .document → r'.schema t = r.schema t) ∧
      (r'.schema .document).shape = .document ∧
      (Renames (.setDocumentUrl url) r r' ↔ (r.schema .document).shape = .document)) ∧
    ((r.schema .document).shape = .document ↔
      ∀ shape, (edits.filterMap (·.shape? .document)).getLast? = some shape →
        shape = .document) := by
  intro r
  refine ⟨fun type titles => ⟨?_, fun r' h => ?_, fun err r' h => ?_⟩, fun url => ?_,
    shape_document_after_iff edits⟩
  · constructor
    · rintro ⟨r', h⟩
      exact (make_setTitles_eq_ok_iff.1 h).1
    · intro hfits
      exact ⟨_, make_setTitles_eq_ok_iff.2 ⟨hfits, renames_register hfits⟩⟩
  · exact (make_setTitles_eq_ok_iff.1 h).2
  · exact (make_setTitles_eq_error_iff.1 ⟨err, h⟩).2
  · refine ⟨r.setDocumentUrl url, rfl, fun t ht => ?_, rfl, renames_setDocumentUrl_iff⟩
    rw [schema_setDocumentUrl, if_neg ht]

/-- Documents behind which the bot goes on. -/
def passingDocuments : Registry :=
  standard.after [.register .document ⟨.document "https://a.example", false⟩]

/-- Setting the address makes them end the bot. -/
theorem terminal_setDocumentUrl :
    (passingDocuments.make (.setDocumentUrl "https://b.example")).1 = .ok () ∧
      (passingDocuments.schema .document).terminal = false ∧
      ((passingDocuments.make (.setDocumentUrl "https://b.example")).2.schema
        .document).terminal = true :=
  ⟨rfl, rfl, rfl⟩

end Registry

end Chatflow
