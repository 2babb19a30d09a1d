/-
# Edits of disjoint parts in any order

Clients that edit at the same time are served one request after the other, in an order that none of
them knows.  What they get and where the session ends depends on that order in general.  It does not
for those who only delete edges and delete, move and fill nodes, as long as no two of them name the
same node (`Http.afterEvents_interleaved`).

Edits of different nodes commute (`Session.edit_comm`), be they made directly or by requests
(`Http.commute_of_apart`).  That neighbours in a run commute is enough for any two runs in which
everyone does the same (`Interleaving.Agree.of_own_eq`): what comes first in one of them can be
moved to the front of the other.
-/
import Mathlib.Data.List.Forall2
import Chatflow.Proofs.LocalEdits

namespace Chatflow

/-! ### Runs of many -/

namespace Interleaving

variable {ι α σ β : Type} [DecidableEq ι]

/-- What is one's own among what all do or get. -/
def own (i : ι) (run : List (ι × α)) : List α := (run.filter (·.1 = i)).map Prod.snd

/-- What is done in a run with the states in which it is done. -/
def moments (next : σ → α → σ) (s : σ) : List (ι × α) → List (ι × α × σ)
  | [] => []
  | x :: rest => (x.1, x.2, s) :: moments next (next s x.2) rest

variable {i j : ι} {a b : α} {run run' run'' before rest : List (ι × α)}

@[simp] lemma own_cons (i j : ι) (a : α) (rest : List (ι × α)) :
    own i ((j, a) :: rest) = if j = i then a :: own i rest else own i rest := by
  by_cases h : j = i
  · rw [own, List.filter_cons_of_pos (by simpa using h), List.map_cons, ← own, if_pos h]
  · rw [own, List.filter_cons_of_neg (by simpa using h), ← own, if_neg h]

lemma own_append (i : ι) (run rest : List (ι × α)) :
    own i (run ++ rest) = own i run ++ own i rest := by
  rw [own, List.filter_append, List.map_append, ← own, ← own]

lemma mem_own_iff : a ∈ own i run ↔ (i, a) ∈ run := by
  simp [own]

lemma mem_own_cons {x : ι × α} (h : a ∈ own i rest) : a ∈ own i (x :: rest) :=
  mem_own_iff.2 (List.mem_cons_of_mem x (mem_own_iff.1 h))

/-- Before the first that one does there are only others. -/
lemma exists_split {more : List α} (h : own i run = a :: more) :
    ∃ before rest, run = before ++ (i, a) :: rest ∧ own i before = [] := by
  obtain ⟨⟨j, b⟩, tail, hfilter, hb, -⟩ := List.map_eq_cons_iff.1 h
  obtain ⟨before, rest, rfl, hbefore, hj, -⟩ := List.filter_eq_cons_iff.1 hfilter
  obtain ⟨rfl, rfl⟩ : j = i ∧ b = a := ⟨by simpa using hj, hb⟩
  exact ⟨before, rest, rfl, List.map_eq_nil_iff.2 (List.filter_eq_nil_iff.2 hbefore)⟩

variable {next : σ → α → σ} {view : α × σ → β} {P : σ → Prop} {s : σ}

/-- What everyone does in a run is what they do at its moments. -/
lemma map_own_moments (next : σ → α → σ) (i : ι) (s : σ) (run : List (ι × α)) :
    (own i (moments next s run)).map Prod.fst = own i run := by
  induction run generalizing s with
  | nil => rfl
  | cons x rest ih =>
    obtain ⟨j, a⟩ := x
    rw [moments, own_cons, own_cons]
    split
    · rw [List.map_cons, ih]
    · exact ih _

/-- Two runs end in the same state, and everyone sees the same in both. -/
structure Agree (next : σ → α → σ) (view : α × σ → β) (s : σ) (run run' : List (ι × α)) :
    Prop where
  foldl_eq : (run.map Prod.snd).foldl next s = (run'.map Prod.snd).foldl next s
  view_eq : ∀ i, (own i (moments next s run)).map view = (own i (moments next s run')).map view

/-- The order of two actions does not matter, and who takes the one does not see the other. -/
structure Commute (P : σ → Prop) (next : σ → α → σ) (view : α × σ → β) (a b : α) : Prop where
  next_eq : ∀ s, P s → next (next s a) b = next (next s b) a
  view_eq : ∀ s, P s → view (a, next s b) = view (a, s)

namespace Agree

lemma refl (s : σ) (run : List (ι × α)) : Agree next view s run run := ⟨rfl, fun _ => rfl⟩

lemma trans (h : Agree next view s run run') (h' : Agree next view s run' run'') :
    Agree next view s run run'' :=
  ⟨h.foldl_eq.trans h'.foldl_eq, fun i => (h.view_eq i).trans (h'.view_eq i)⟩

lemma symm (h : Agree next view s run run') : Agree next view s run' run :=
  ⟨h.foldl_eq.symm, fun i => (h.view_eq i).symm⟩

lemma cons (j : ι) (a : α) (h : Agree next view (next s a) run run') :
    Agree next view s ((j, a) :: run) ((j, a) :: run') := by
  refine ⟨h.foldl_eq, fun i => ?_⟩
  rw [moments, moments, own_cons, own_cons]
  split
  · rw [List.map_cons, List.map_cons, h.view_eq]
  · exact h.view_eq i

/-- Neighbours that commute may be swapped, unless one and the same does both. -/
lemma swap (hs : P s) (hne : i ≠ j) (h : Commute P next view a b) (h' : Commute P next view b a)
    (rest : List (ι × α)) :
    Agree next view s ((i, a) :: (j, b) :: rest) ((j, b) :: (i, a) :: rest) := by
  have hnext := h.next_eq s hs
  refine ⟨?_, fun k => ?_⟩
  · simp only [List.map_cons, List.foldl_cons, hnext]
  · simp only [moments, own_cons, hnext]
    by_cases hi : i = k
    · have hj : j ≠ k := fun hj => hne (hi.trans hj.symm)
      simp only [hi, hj, if_true, if_false, List.map_cons, h.view_eq s hs]
    · by_cases hj : j = k
      · simp only [hi, hj, if_true, if_false, List.map_cons, h'.view_eq s hs]
      · simp only [hi, hj, if_false]

/-- What commutes with all that others do before it may come first. -/
lemma move (hP : ∀ s a, P s → P (next s a)) (hs : P s) (hbefore : own i before = [])
    (h : ∀ j, ∀ b ∈ own j before, Commute P next view b a ∧ Commute P next view a b)
    (rest : List (ι × α)) :
    Agree next view s (before ++ (i, a) :: rest) ((i, a) :: (before ++ rest)) := by
  induction before generalizing s with
  | nil => exact .refl s _
  | cons y before ih =>
    obtain ⟨j, b⟩ := y
    have hne : j ≠ i := by
      rintro rfl
      simp at hbefore
    rw [own_cons, if_neg hne] at hbefore
    obtain ⟨hba, hab⟩ := h j b (by simp)
    have htail := ih (hP s b hs) hbefore fun k c hc => h k c (mem_own_cons hc)
    exact (htail.cons j b).trans (swap hs hne hba hab _)

/-- Runs in which everyone does the same agree if what different ones do commutes. -/
lemma of_own_eq (hP : ∀ s a, P s → P (next s a)) (hs : P s)
    (hcommute : ∀ i j, i ≠ j → ∀ a ∈ own i run, ∀ b ∈ own j run, Commute P next view a b)
    (hown : ∀ i, own i run = own i run') : Agree next view s run run' := by
  induction run generalizing s run' with
  | nil =>
    cases run' with
    | nil => exact .refl s []
    | cons y rest => simpa [own] using hown y.1
  | cons x run ih =>
    obtain ⟨i, a⟩ := x
    have hfirst : own i run' = a :: own i run := by rw [← hown, own_cons, if_pos rfl]
    obtain ⟨before, rest, rfl, hbefore⟩ := exists_split hfirst
    -- behind the first action everyone has the same left to do in both runs
    have hown' : ∀ k, own k run = own k (before ++ rest) := by
      intro k
      have hk := hown k
      rw [own_append] at hk ⊢
      by_cases hik : i = k
      · subst hik
        simpa [hbefore] using hk
      · simpa [hik] using hk
    have hrest : Agree next view (next s a) run (before ++ rest) := by
      refine ih (hP s a hs) (fun k l hkl b hb c hc => ?_) hown'
      exact hcommute k l hkl b (mem_own_cons hb) c (mem_own_cons hc)
    refine (hrest.cons i a).trans (symm (move hP hs hbefore (fun k b hb => ?_) rest))
    have hne : k ≠ i := by
      rintro rfl
      simp [hbefore] at hb
    have hb' : b ∈ own k ((i, a) :: run) := by
      refine mem_own_cons ?_
      rw [hown', own_append]
      exact List.mem_append_left _ hb
    have ha : a ∈ own i ((i, a) :: run) := by simp
    exact ⟨hcommute k i hne b hb' a ha, hcommute i k hne.symm a ha b hb'⟩

end Agree

end Interleaving

namespace Http

open Interleaving (own moments)

variable {cors : Cors} {s s' : Session}

/-! ### Events that are edits -/

namespace Call

/-- The edit that a call comes to; adding a node may take two. -/
def edit? : Call → Option Edit
  | deleteNode id => some (.deleteNode id)
  | copyNode id => some (.copyNode id)
  | setData id data => some (.setData id data)
  | setPosition id position => some (.setPosition id position)
  | connect source target => some (.connect source target)
  | deleteEdge id => some (.deleteEdge id)
  | health | graph | addNode _ _ _ | document | diagnostics | setRoot _ => none

/-- The answer to an edit, from what came of it and the session after it. -/
def editResponse (s : Session) : Except EditError Receipt → Response
  | .ok receipt => receiptResponse s receipt
  | .error err => failed err.failure

lemma makeEdit_eq (s : Session) (e : Edit) :
    makeEdit s e = (editResponse (s.edit e).2 (s.edit e).1, (s.edit e).2) := by
  rw [makeEdit]
  rcases s.edit e with ⟨_ | receipt, s'⟩ <;> rfl

lemma make_of_edit? {call : Call} {f : Edit} (h : call.edit? = some f) (s : Session) :
    call.make s = makeEdit s f := by
  cases call with
  | health | graph | addNode | document | diagnostics | setRoot => simp [edit?] at h
  | _ => exact Option.some.inj h ▸ rfl

/-- An edit is not asked for by asking for the head of an answer. -/
lemma ne_head_of_edit? {r : Request} {call : Call} (hcall : ofRequest r = .ok call) {f : Edit}
    (h : call.edit? = some f) : r.method ≠ .head := by
  intro hm
  have hunderstood := understood_of_ofRequest hcall
  rw [hm, routedMethod] at hunderstood
  cases hunderstood <;> simp [edit?] at h

end Call

/-- A request for an edit is answered by what came of it. -/
lemma respond_of_edit? {r : Request} {call : Call} (hcall : Call.ofRequest r = .ok call) {f : Edit}
    (h : call.edit? = some f) (cors : Cors) (s : Session) :
    respond cors s r =
      (cors.mark r.origin (Call.editResponse (s.edit f).2 (s.edit f).1), (s.edit f).2) := by
  rw [respond, if_neg (Call.ne_options_of_ofRequest hcall), answer, hcall]
  simp only [Call.make_of_edit? h, Call.makeEdit_eq, if_neg (Call.ne_head_of_edit? hcall h)]

/-- Two answers to an edit that tell the same but for edges: errors are the same, and so is what is
told of nodes.  They may differ in the revision, in the number of edges that were deleted with a
node, and in whether there was an edge to delete. -/
inductive Answer.Alike (cors : Cors) : Answer → Answer → Prop where
  | direct {a a' : Except EditError Receipt}
      (same : a.map Receipt.withoutEdges = a'.map Receipt.withoutEdges) :
      Alike cors (.direct a) (.direct a')
  | response {origin : Option String} {s s' : Session} {a a' : Except EditError Receipt}
      (same : a.map Receipt.withoutEdges = a'.map Receipt.withoutEdges) :
      Alike cors (.response (cors.mark origin (Call.editResponse s a)))
        (.response (cors.mark origin (Call.editResponse s' a')))

namespace Event

/-- The edit that an event comes to. -/
def edit? : Event → Option Edit
  | direct q => q.edit?
  | request r =>
    match Call.ofRequest r with
    | .ok call => call.edit?
    | .error _ => none

/-- The event is a local edit. -/
def IsLocal (e : Event) : Prop := ∃ f ∈ e.edit?, f.isLocal

/-- The two events do not name the same node. -/
def Apart (e e' : Event) : Prop := ∀ f ∈ e.edit?, ∀ f' ∈ e'.edit?, f.Apart f'

variable {e e' : Event} {f : Edit}

/-- An event that is an edit does to the session what the edit does. -/
lemma next_of_edit? (h : e.edit? = some f) (cors : Cors) (s : Session) :
    next cors s e = (s.edit f).2 := by
  cases e with
  | direct q =>
    cases q with
    | edit e' => exact Option.some.inj h ▸ rfl
    | setRoot root => simp [edit?, Session.Request.edit?] at h
  | request r =>
    rw [edit?] at h
    split at h
    · rename_i hcall
      rw [next, happen, respond_of_edit? hcall h]
    · simp at h

/-- Where an edit has the same outcome it gets the same answer, but for edges. -/
lemma alike_happen (h : e.edit? = some f) (hsame : s.graph.outcome f = s'.graph.outcome f)
    (cors : Cors) : Answer.Alike cors (e.happen cors s).1 (e.happen cors s').1 := by
  rw [← Session.map_edit, ← Session.map_edit] at hsame
  cases e with
  | direct q =>
    cases q with
    | edit e' =>
      obtain rfl : e' = f := Option.some.inj h
      exact .direct hsame
    | setRoot root => simp [edit?, Session.Request.edit?] at h
  | request r =>
    rw [edit?] at h
    split at h
    · rename_i hcall
      rw [happen, happen, respond_of_edit? hcall h, respond_of_edit? hcall h]
      exact .response hsame
    · simp at h

/-- No event leaves a session out of date. -/
lemma upToDate_next (hs : s.UpToDate) (cors : Cors) (e : Event) : (next cors s e).UpToDate := by
  cases e with
  | direct q => exact Session.upToDate_respond hs q
  | request r =>
    have hbrings : ∀ r' ∈ [r], ∀ call, Call.ofRequest r' = .ok call →
        call.Brings (fun _ => True) (fun _ => True) := by
      intro r' _ call _
      cases call <;> simp [Call.Brings, Edit.Brings]
    obtain ⟨qs, hqs, -⟩ := exists_after_serve cors s hbrings
    have hsession : (respond cors s r).2 = s.after qs := hqs
    rw [next, happen, hsession]
    exact Session.upToDate_after hs qs

end Event

/-! ### Events in any order -/

lemma upToDate_afterEvents (hs : s.UpToDate) (cors : Cors) (events : List Event) :
    (afterEvents cors s events).UpToDate := by
  induction events generalizing s with
  | nil => exact hs
  | cons e rest ih => exact ih (e.upToDate_next hs cors)

/-- What an event and the session it comes to have to do with its answer, but for edges. -/
def gist (m : Event × Session) : Event × Option (Except EditError Receipt) :=
  (m.1, m.1.edit?.map m.2.graph.outcome)

/-- Local edits of different nodes commute, whether they are made directly or by requests. -/
lemma commute_of_apart {e e' : Event} (he : e.IsLocal) (he' : e'.IsLocal) (h : e.Apart e')
    (cors : Cors) :
    Interleaving.Commute Session.UpToDate (Event.next cors) gist e e' := by
  obtain ⟨f, hf, hlocal⟩ := he
  obtain ⟨f', hf', hlocal'⟩ := he'
  refine ⟨fun s hs => ?_, fun s _ => ?_⟩
  · simp only [Event.next_of_edit? hf, Event.next_of_edit? hf']
    exact Session.edit_comm hs hlocal hlocal' (h f hf f' hf')
  · rw [gist, gist, Event.next_of_edit? hf', show e.edit? = some f from hf]
    simp only [Option.map_some, Session.outcome_edit hlocal hlocal' (h f hf f' hf')]

section

variable {ι : Type} [DecidableEq ι]

/-- The answers that one gets in a run, in order. -/
def answersTo (i : ι) (cors : Cors) (s : Session) (run : List (ι × Event)) : List Answer :=
  (own i (moments (Event.next cors) s run)).map fun m => (m.1.happen cors m.2).1

/-- Answers to the same events are alike if the events had the same outcomes. -/
lemma alike_answersTo {i : ι} {run run' : List (ι × Event)} (hlocal : ∀ e ∈ own i run, e.IsLocal)
    (h : (own i (moments (Event.next cors) s run)).map gist
      = (own i (moments (Event.next cors) s run')).map gist) :
    List.Forall₂ (Answer.Alike cors) (answersTo i cors s run) (answersTo i cors s run') := by
  rw [← List.forall₂_eq_eq_eq, List.forall₂_map_left_iff, List.forall₂_map_right_iff] at h
  rw [answersTo, answersTo, List.forall₂_map_left_iff, List.forall₂_map_right_iff]
  have hevents : ∀ m ∈ own i (moments (Event.next cors) s run), m.1.IsLocal := by
    intro m hm
    refine hlocal m.1 ?_
    rw [← Interleaving.map_own_moments (Event.next cors) i s run]
    exact List.mem_map_of_mem hm
  refine ((List.forall₂_and_left _ _).2 ⟨hevents, h⟩).imp ?_
  rintro ⟨e, s₁⟩ ⟨e', s₂⟩ ⟨⟨f, hf, -⟩, hsame⟩
  obtain ⟨rfl, hsame⟩ := Prod.mk.inj hsame
  rw [show e.edit? = some f from hf] at hsame
  exact Event.alike_happen hf (Option.some.inj hsame) cors

/-- Clients that only delete edges and delete, move and fill nodes, no two of them the same node,
are served in any order that keeps everyone's own: the session ends the same, with its graph,
revision and script, and everyone gets the same answers but for edges. -/
theorem afterEvents_interleaved (cors : Cors) (c : Compiler) (scheme : IdScheme) (graph : Graph)
    (root : NodeId) (history : List Event) {programs : ι → List Event}
    (hlocal : ∀ i, ∀ e ∈ programs i, e.IsLocal)
    (hapart : ∀ i j, i ≠ j → ∀ e ∈ programs i, ∀ e' ∈ programs j, e.Apart e')
    {run run' : List (ι × Event)} (hrun : ∀ i, own i run = programs i)
    (hrun' : ∀ i, own i run' = programs i) :
    let s := afterEvents cors (.start c scheme graph root) history
    afterEvents cors s (run.map Prod.snd) = afterEvents cors s (run'.map Prod.snd) ∧
      ∀ i, List.Forall₂ (Answer.Alike cors) (answersTo i cors s run) (answersTo i cors s run') := by
  intro s
  have hs : s.UpToDate := upToDate_afterEvents (Session.upToDate_start graph root) cors history
  have hagree : Interleaving.Agree (Event.next cors) gist s run run' := by
    refine .of_own_eq (P := Session.UpToDate) (fun s e hs => e.upToDate_next hs cors) hs ?_
      fun i => (hrun i).trans (hrun' i).symm
    intro i j hij e he e' he'
    rw [hrun] at he he'
    exact commute_of_apart (hlocal i e he) (hlocal j e' he') (hapart i j hij e he e' he') cors
  refine ⟨hagree.foldl_eq, fun i => alike_answersTo (fun e he => ?_) (hagree.view_eq i)⟩
  exact hlocal i e (hrun i ▸ he)

end

/-- One client deletes a node with both edges of the graph, by a request; the other deletes one of
these edges and fills the other node. -/
def twoPrograms : Bool → List Event
  | true => [.request { method := .delete, target := "/nodes/x" }]
  | false => [.direct (.edit (.deleteEdge "ee7")), .direct (.edit (.setData "007" .empty))]

/-- The edge is deleted by the one client or by the other. -/
theorem afterEvents_twoPrograms : ∃ g, Graph.ofSnapshot Graph.saved = .ok g ∧
    let s := afterEvents .anyone (.start {} .standard g "x") [.direct (.setRoot "007")]
    let deletion := Event.request { method := .delete, target := "/nodes/x" }
    let disconnection := Event.direct (.edit (.deleteEdge "ee7"))
    let filling := Event.direct (.edit (.setData "007" .empty))
    let run := [(true, deletion), (false, disconnection), (false, filling)]
    let run' := [(false, disconnection), (true, deletion), (false, filling)]
    afterEvents .anyone s (run.map Prod.snd) = afterEvents .anyone s (run'.map Prod.snd) ∧
      List.Forall₂ (Answer.Alike .anyone) (answersTo true .anyone s run)
        (answersTo true .anyone s run') := by
  have hedits : ∀ i, ∀ e ∈ twoPrograms i,
      ∃ f, e.edit? = some f ∧ f.isLocal ∧ ∀ id, f.node? = some id → (id = "x" ↔ i = true) := by
    intro i e he
    cases i with
    | true =>
      obtain rfl := List.mem_singleton.1 he
      exact ⟨.deleteNode "x", rfl, rfl, by simp [Edit.node?]⟩
    | false =>
      rcases List.mem_pair.1 he with rfl | rfl
      · exact ⟨.deleteEdge "ee7", rfl, rfl, by simp [Edit.node?]⟩
      · exact ⟨.setData "007" .empty, rfl, rfl, by simp [Edit.node?]⟩
  have hlocal : ∀ i, ∀ e ∈ twoPrograms i, e.IsLocal := by
    intro i e he
    obtain ⟨f, hf, hlocal, -⟩ := hedits i e he
    exact ⟨f, hf, hlocal⟩
  have hapart : ∀ i j, i ≠ j → ∀ e ∈ twoPrograms i, ∀ e' ∈ twoPrograms j, e.Apart e' := by
    intro i j hij e he e' he' f hf f' hf' id hid hid'
    obtain ⟨_, heq, -, hx⟩ := hedits i e he
    obtain ⟨_, heq', -, hx'⟩ := hedits j e' he'
    obtain rfl := Option.some.inj (heq.symm.trans hf)
    obtain rfl := Option.some.inj (heq'.symm.trans hf')
    exact hij (Bool.eq_iff_iff.2 ((hx id hid).symm.trans (hx' id hid')))
  refine ⟨_, rfl, ?_⟩
  intro s deletion disconnection filling run run'
  have hrun : ∀ i, own i run = twoPrograms i := by
    rintro (_ | _) <;> rfl
  have hrun' : ∀ i, own i run' = twoPrograms i := by
    rintro (_ | _) <;> rfl
  obtain ⟨hend, hanswers⟩ := afterEvents_interleaved .anyone {} .standard _ "x"
    [.direct (.setRoot "007")] hlocal hapart hrun hrun'
  exact ⟨hend, hanswers true⟩

end Http

end Chatflow
