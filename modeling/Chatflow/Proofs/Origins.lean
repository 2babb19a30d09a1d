/-
# Which origins are named

The setting lists entries between commas, perhaps with white space around them (`Cors.Lists`), and
an entry is usable if it is not blank and its bytes can stand in a header (`Cors.Usable`).  The rule
is that an origin is granted if it is a usable entry, or if there is none, if it is a local one
(`Cors.Grants`).

Settings are cut at the commas, trimmed and sifted (`Cors.mem_entries_iff`), but an empty text has
no bytes that could not stand in a header, and so a blank entry is not sifted out.  Where one is
listed the server names the empty origin, and local origins are no longer named where all entries
are blank or cannot be used.  Everywhere else it follows the rule
(`Cors.allowOrigin_iff_grants`).
-/
import Chatflow.Http.Api
import Chatflow.Proofs.Import

namespace Chatflow

namespace Http

/-! ### Header values -/

/-- A byte that can stand in a header: a tab, or one that is not a control character. -/
def IsHeaderByte (b : UInt8) : Prop := b = 9 ∨ 32 ≤ b ∧ b ≠ 127

lemma isHeaderByte_ofNat_iff {n : Nat} (h : n < 256) :
    IsHeaderByte (UInt8.ofNat n) ↔ n = 9 ∨ 32 ≤ n ∧ n ≠ 127 := by
  have heq : ∀ m < 256, UInt8.ofNat n = UInt8.ofNat m ↔ n = m := fun m hm => by
    rw [← UInt8.toNat_inj, UInt8.toNat_ofNat_of_lt' h, UInt8.toNat_ofNat_of_lt' hm]
  have hle : (32 : UInt8) ≤ UInt8.ofNat n ↔ 32 ≤ n := UInt8.ofNat_le_iff_le (by decide) h
  rw [IsHeaderByte, hle]
  exact or_congr (heq 9 (by decide)) (and_congr_right' (not_congr (heq 127 (by decide))))

/-- A character can stand in a header just if all its bytes can. -/
lemma isHeaderChar_iff (c : Char) :
    isHeaderChar c = true ↔ ∀ b ∈ String.utf8EncodeChar c, IsHeaderByte b := by
  have hc : c.val.toNat < 0x110000 := by
    rcases c.valid with hc | ⟨-, hc⟩ <;> omega
  have htab : c = '\t' ↔ c.val.toNat = 9 := by
    rw [Char.ext_iff, ← UInt32.toNat_inj]
    rfl
  rw [isHeaderChar, decide_eq_true_iff, htab, String.utf8EncodeChar, Char.toNat]
  generalize c.val.toNat = n at hc
  have hbeyond : ∀ m < 256, 128 ≤ m → IsHeaderByte (UInt8.ofNat m) := fun m hm hle =>
    (isHeaderByte_ofNat_iff hm).2 (by omega)
  split_ifs with hascii
  · rw [List.forall_mem_singleton, isHeaderByte_ofNat_iff (by omega)]
  -- the bytes of a character beyond ASCII are all beyond ASCII
  all_goals
    refine iff_of_true (by omega) ?_
    simp (disch := omega) only [List.forall_mem_cons, hbeyond, List.not_mem_nil, false_imp_iff,
      implies_true, and_true]

/-- A text is a header value just if all its bytes can stand in a header. -/
lemma isHeaderValue_iff (s : String) :
    isHeaderValue s = true ↔ ∀ b ∈ utf8 s, IsHeaderByte b := by
  simp only [isHeaderValue, List.all_eq_true, isHeaderChar_iff, utf8_eq_flatMap, List.mem_flatMap]
  constructor
  · rintro h b ⟨c, hc, hb⟩
    exact h c hc b hb
  · intro h c hc b hb
    exact h b ⟨c, hc, hb⟩

namespace Cors

/-! ### Trimming -/

/-- The numbers of all characters that are white space. -/
def whiteSpace : List Nat :=
  [9, 10, 11, 12, 13, 0x20, 0x85, 0xa0, 0x1680, 0x2000, 0x2001, 0x2002, 0x2003, 0x2004, 0x2005,
    0x2006, 0x2007, 0x2008, 0x2009, 0x200a, 0x2028, 0x2029, 0x202f, 0x205f, 0x3000]

/-- The text is the core with nothing but white space before and behind it, and the core neither
starts nor ends with white space. -/
def Trims (text core : List Char) : Prop :=
  ∃ left right, text = left ++ core ++ right ∧ (∀ c ∈ left ++ right, c.toNat ∈ whiteSpace) ∧
    (∀ c, core.head? = some c → c.toNat ∉ whiteSpace) ∧
    ∀ c, core.getLast? = some c → c.toNat ∉ whiteSpace

lemma isSpace_iff {c : Char} : isSpace c = true ↔ c.toNat ∈ whiteSpace := by
  simp only [isSpace, decide_eq_true_iff, whiteSpace, List.mem_cons, List.not_mem_nil, or_false]
  omega

lemma isSpace_eq_false_iff {c : Char} : isSpace c = false ↔ c.toNat ∉ whiteSpace := by
  rw [← isSpace_iff, Bool.not_eq_true]

lemma head?_dropWhile {p : Char → Bool} {cs : List Char} {c : Char}
    (h : (cs.dropWhile p).head? = some c) : p c = false := by
  have hnot := List.head?_dropWhile_not p cs
  rwa [h] at hnot

lemma dropWhile_append {p : Char → Bool} {left rest : List Char} (hleft : ∀ c ∈ left, p c)
    (hrest : ∀ c, rest.head? = some c → p c = false) : (left ++ rest).dropWhile p = rest := by
  rw [List.dropWhile_append_of_pos hleft]
  cases rest with
  | nil => rfl
  | cons c cs => rw [List.dropWhile_cons_of_neg (by simp [hrest c rfl])]

/-- Trimming leaves the core of a text. -/
lemma trims_trim (text : List Char) : Trims text (trim text) := by
  let rest := text.dropWhile isSpace
  have hrest : rest = trim text ++ (rest.reverse.takeWhile isSpace).reverse := by
    rw [trim, ← List.reverse_append, List.takeWhile_append_dropWhile, List.reverse_reverse]
  refine ⟨text.takeWhile isSpace, (rest.reverse.takeWhile isSpace).reverse, ?_, ?_, ?_, ?_⟩
  · rw [List.append_assoc, ← hrest, List.takeWhile_append_dropWhile]
  · intro c hc
    rcases List.mem_append.1 hc with hc | hc
    · exact isSpace_iff.1 (List.mem_takeWhile_imp hc)
    · exact isSpace_iff.1 (List.mem_takeWhile_imp (List.mem_reverse.1 hc))
  · intro c hc
    have hhead : rest.head? = some c := by rw [hrest, List.head?_append, hc, Option.some_or]
    exact isSpace_eq_false_iff.1 (head?_dropWhile hhead)
  · intro c hc
    rw [trim, List.getLast?_reverse] at hc
    exact isSpace_eq_false_iff.1 (head?_dropWhile hc)

/-- A text has one core. -/
lemma trim_of_trims {text core : List Char} (h : Trims text core) : trim text = core := by
  obtain ⟨left, right, rfl, hspace, hhead, hlast⟩ := h
  simp only [← isSpace_iff] at hspace
  simp only [← isSpace_eq_false_iff] at hhead hlast
  have hleft : ∀ c ∈ left, isSpace c := fun c hc => hspace c (List.mem_append_left right hc)
  have hright : ∀ c ∈ right, isSpace c := fun c hc => hspace c (List.mem_append_right left hc)
  rw [trim]
  cases core with
  | nil =>
    have hall : ∀ c ∈ left ++ [] ++ right, isSpace c := by simpa using hspace
    rw [List.dropWhile_eq_nil_iff.2 hall]
    rfl
  | cons c cs =>
    have hfront : (left ++ (c :: cs ++ right)).dropWhile isSpace = c :: cs ++ right :=
      dropWhile_append hleft fun d hd => hhead d (by simpa using hd)
    have hback : (right.reverse ++ (c :: cs).reverse).dropWhile isSpace = (c :: cs).reverse :=
      dropWhile_append (fun d hd => hright d (List.mem_reverse.1 hd)) fun d hd =>
        hlast d (by rwa [List.head?_reverse] at hd)
    rw [List.append_assoc, hfront, List.reverse_append, hback, List.reverse_reverse]

lemma trims_iff {text core : List Char} : Trims text core ↔ trim text = core :=
  ⟨trim_of_trims, fun h => h ▸ trims_trim text⟩

/-! ### Entries -/

/-- No piece of a text has the separator in it. -/
lemma notMem_of_mem_splitOn {c : Char} {cs piece : List Char} (h : piece ∈ cs.splitOn c) :
    c ∉ piece := by
  induction cs generalizing piece with
  | nil =>
    obtain rfl := List.mem_singleton.1 h
    simp
  | cons d rest ih =>
    rw [List.splitOn_cons_eq_if_modifyHead] at h
    split at h
    · rcases List.mem_cons.1 h with rfl | h
      · simp
      · exact ih h
    · next hd =>
      obtain ⟨first, others, hsplit⟩ := List.exists_cons_of_ne_nil (List.splitOn_ne_nil c rest)
      rw [hsplit] at h ih
      rw [List.modifyHead_cons] at h
      rcases List.mem_cons.1 h with rfl | h
      · have hfirst := ih List.mem_cons_self
        rw [List.mem_cons, not_or]
        exact ⟨fun hc => hd (beq_iff_eq.2 hc.symm), hfirst⟩
      · exact ih (List.mem_cons_of_mem first h)

/-- The entry stands between two commas of the setting, or between a comma and an end of it, but for
white space: the setting is pieces without commas put together with commas, and one of them is
trimmed to the entry. -/
def Lists (setting entry : String) : Prop :=
  ∃ pieces : List (List Char), [','].intercalate pieces = setting.toList ∧
    (∀ piece ∈ pieces, ',' ∉ piece) ∧ ∃ piece ∈ pieces, Trims piece entry.toList

/-- What is listed is found by cutting the setting and trimming the pieces. -/
lemma lists_iff {setting entry : String} :
    Lists setting entry ↔ entry.toList ∈ (setting.toList.splitOn ',').map trim := by
  rw [List.mem_map]
  constructor
  · rintro ⟨pieces, hjoin, hpieces, piece, hpiece, htrims⟩
    refine ⟨piece, ?_, trim_of_trims htrims⟩
    rwa [← hjoin, List.splitOn_intercalate ',' hpieces (List.ne_nil_of_mem hpiece)]
  · rintro ⟨piece, hpiece, htrim⟩
    exact ⟨setting.toList.splitOn ',', List.intercalate_splitOn ',',
      fun _ => notMem_of_mem_splitOn, piece, hpiece, trims_iff.2 htrim⟩

instance (setting entry : String) : Decidable (Lists setting entry) :=
  decidable_of_iff _ lists_iff.symm

/-- The entry is listed in the setting, is not blank, and its bytes can stand in a header. -/
structure Usable (setting entry : String) : Prop where
  listed : Lists setting entry
  ne_blank : entry ≠ ""
  header : ∀ b ∈ utf8 entry, IsHeaderByte b

/-- The entries of a setting are the usable ones and the blank one, if it is listed. -/
lemma mem_entries_iff {setting entry : String} :
    entry ∈ entries setting ↔ Usable setting entry ∨ entry = "" ∧ Lists setting "" := by
  have hmem : entry ∈ entries setting ↔ Lists setting entry ∧ isHeaderValue entry = true := by
    rw [entries, List.mem_filter, lists_iff, List.mem_map, List.mem_map]
    simp only [← String.toList_inj, String.toList_ofList]
  rw [hmem, isHeaderValue_iff]
  constructor
  · rintro ⟨hlists, hheader⟩
    by_cases hblank : entry = ""
    · exact .inr ⟨hblank, hblank ▸ hlists⟩
    · exact .inl ⟨hlists, hblank, hheader⟩
  · rintro (husable | ⟨rfl, hblank⟩)
    · exact ⟨husable.listed, husable.header⟩
    · exact ⟨hblank, fun b hb => absurd hb (List.not_mem_nil)⟩

lemma entries_eq_nil_iff {setting : String} :
    entries setting = [] ↔ ¬ Lists setting "" ∧ ∀ entry, ¬ Usable setting entry := by
  simp only [List.eq_nil_iff_forall_not_mem, mem_entries_iff, not_or, not_and]
  constructor
  · intro h
    exact ⟨(h "").2 rfl, fun entry => (h entry).1⟩
  · rintro ⟨hblank, hnone⟩ entry
    exact ⟨hnone entry, fun _ => hblank⟩

/-! ### Origins -/

/-- The rule: an origin is granted if it is a usable entry of the setting, or if there is no usable
entry or no setting, if it is local. -/
def Grants (setting : Option String) (origin : String) : Prop :=
  (∃ text ∈ setting, Usable text origin) ∨
    (¬ ∃ text ∈ setting, ∃ entry, Usable text entry) ∧ origin ∈ localOrigins

/-- A setting without a star gives the entries to compare origins with, or the local origins if it
has no entry. -/
lemma exists_ofSetting {setting : Option String} (hstar : ∀ text ∈ setting, ¬ Lists text "*") :
    ∃ origins, ofSetting setting = listed origins ∧ ∀ origin, origin ∈ origins ↔
      (∃ text ∈ setting, origin ∈ entries text) ∨
        (∀ text ∈ setting, entries text = []) ∧ origin ∈ localOrigins := by
  cases setting with
  | none => exact ⟨localOrigins, rfl, by simp⟩
  | some text =>
    have hne : text ≠ "*" := by
      rintro rfl
      exact hstar "*" rfl (by decide)
    rw [ofSetting, if_neg hne]
    cases hentries : entries text with
    | nil => exact ⟨localOrigins, rfl, by simp [hentries]⟩
    | cons first rest => exact ⟨first :: rest, rfl, by simp [hentries]⟩

/-- Every answer names the origin that is allowed for its request, also that to a browser that asks
what it may send. -/
lemma allowOrigin_respond (cors : Cors) (s : Session) (r : Request) :
    (respond cors s r).1.allowOrigin = cors.allowedOrigin r.origin := by
  rw [respond]
  split <;> rfl

lemma allowedOrigin_listed (origins : List String) (origin : String) :
    (listed origins).allowedOrigin (some origin)
      = if origin ∈ origins then some origin else none := by
  rw [allowedOrigin, Option.filter_some]
  simp only [List.contains_eq_mem, decide_eq_true_eq]

section

variable {setting : Option String} {r : Request} {origin : String}

/-- The answer to a request with an origin names that origin or none. -/
lemma allowOrigin_eq_or (hstar : ∀ text ∈ setting, ¬ Lists text "*") (s : Session)
    (horigin : r.origin = some origin) :
    (respond (.ofSetting setting) s r).1.allowOrigin = some origin ∨
      (respond (.ofSetting setting) s r).1.allowOrigin = none := by
  obtain ⟨origins, hcors, -⟩ := exists_ofSetting hstar
  rw [allowOrigin_respond, hcors, horigin, allowedOrigin_listed]
  split
  · exact .inl rfl
  · exact .inr rfl

/-- An origin is named if it is an entry, usable or blank, or if there is no entry, if it is
local. -/
lemma allowOrigin_eq_some_iff (hstar : ∀ text ∈ setting, ¬ Lists text "*") (s : Session)
    (horigin : r.origin = some origin) :
    (respond (.ofSetting setting) s r).1.allowOrigin = some origin ↔
      (∃ text ∈ setting, Usable text origin ∨ origin = "" ∧ Lists text "") ∨
        (∀ text ∈ setting, ¬ Lists text "" ∧ ∀ entry, ¬ Usable text entry) ∧
          origin ∈ localOrigins := by
  obtain ⟨origins, hcors, hmem⟩ := exists_ofSetting hstar
  simp only [mem_entries_iff, entries_eq_nil_iff] at hmem
  rw [allowOrigin_respond, hcors, horigin, allowedOrigin_listed, ← hmem]
  split
  · next h => exact iff_of_true rfl h
  · next h => exact iff_of_false (by simp) h

/-- The answer to a request with an origin names that origin or none.  It names it just if the rule
grants it, with two exceptions where a blank entry is listed: the empty origin is named though it is
not granted, and local ones, of which there are four, are not named though they are granted if there
is no usable entry. -/
theorem allowOrigin_iff_grants (hstar : ∀ text ∈ setting, ¬ Lists text "*") (s : Session)
    (horigin : r.origin = some origin) :
    let named := (respond (.ofSetting setting) s r).1.allowOrigin
    (named = some origin ∨ named = none) ∧
      ((named = some origin ↔ Grants setting origin) ↔
        ¬ ∃ text ∈ setting, Lists text "" ∧
          (origin = "" ∨ origin ∈ localOrigins ∧ ∀ entry, ¬ Usable text entry)) ∧
      localOrigins = ["http://localhost:3000", "http://localhost:5173", "http://127.0.0.1:3000",
        "http://127.0.0.1:5173"] := by
  refine ⟨allowOrigin_eq_or hstar s horigin, ?_, rfl⟩
  rw [allowOrigin_eq_some_iff hstar s horigin, Grants]
  cases setting with
  | none => simp
  | some text =>
    simp only [Option.mem_some_iff, exists_eq_left', forall_eq', not_exists]
    by_cases hblank : Lists text ""
    · rcases eq_or_ne origin "" with rfl | hne
      · have hlocal : "" ∉ localOrigins := by decide
        have hunusable : ¬ Usable text "" := fun h => h.ne_blank rfl
        simp [hblank, hlocal, hunusable]
      · by_cases husable : Usable text origin
        · have hsome : ¬ ∀ entry, ¬ Usable text entry := fun hnone => hnone origin husable
          simp [hblank, husable, hne, hsome]
        · simp [hblank, husable, hne, and_comm]
    · simp [hblank]

end

/-- A request of a page. -/
def pageRequest (origin : String) : Request where
  method := .get
  target := "/health"
  origin := some origin

/-- An entry with white space around it, a blank one, and one with a control character. -/
def mixedSetting : String := " http://a.example ,,http://b.example\x7f"

theorem allowOrigin_mixedSetting :
    ¬ Lists mixedSetting "*" ∧ Lists mixedSetting "" ∧
      ∀ s, (respond (.ofSetting (some mixedSetting)) s
        (pageRequest "http://a.example")).1.allowOrigin = some "http://a.example" := by
  have hstar : ¬ Lists mixedSetting "*" := by decide
  have husable : Usable mixedSetting "http://a.example" :=
    ⟨by decide, by decide, (isHeaderValue_iff _).1 (by decide)⟩
  have hnone : ∀ text ∈ some mixedSetting, ¬ Lists text "*" := by
    rintro text ⟨⟩
    exact hstar
  refine ⟨hstar, by decide, fun s => ?_⟩
  obtain ⟨-, hnamed, -⟩ := allowOrigin_iff_grants hnone s (r := pageRequest "http://a.example") rfl
  refine (hnamed.2 ?_).2 (.inl ⟨mixedSetting, rfl, husable⟩)
  rintro ⟨text, -, -, hempty | ⟨hlocal, -⟩⟩
  · exact absurd hempty (by decide)
  · exact absurd hlocal (by decide)

/-- A lone comma lists two blank entries and none that is usable.  So a local origin is granted, but
it is not named. -/
theorem allowOrigin_comma :
    Grants (some ",") "http://localhost:3000" ∧
      ∀ s, (respond (.ofSetting (some ",")) s
        (pageRequest "http://localhost:3000")).1.allowOrigin = none := by
  constructor
  · refine .inr ⟨?_, by decide⟩
    rintro ⟨text, ⟨⟩, entry, husable⟩
    have hentry : entry.toList ∈ (",".toList.splitOn ',').map trim := lists_iff.1 husable.listed
    have hpieces : (",".toList.splitOn ',').map trim = [[], []] := by decide
    rw [hpieces] at hentry
    exact husable.ne_blank (String.toList_eq_nil_iff.1 (by simpa using hentry))
  · intro s
    rw [allowOrigin_respond]
    decide

end Cors

end Http

end Chatflow
