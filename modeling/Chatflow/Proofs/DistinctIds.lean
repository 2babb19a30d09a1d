/-
# Schemes do not repeat an id

The ids of a scheme can be given number by number (`IdScheme.stepId`): behind the stem stands the
start plus the number, as a word, or the digits of a scrambled word.  The first `2 ^ 64` of them are
all different (`IdScheme.nodup_ids`), and after that a scheme starts again.

For scrambled ids nothing may be lost on the way from the number to the digits.  A word is
scrambled by adding to it bitwise what is left of it after a shift to the right, which can be undone
from the highest bit down (`Word.xor_shiftRight_inj`), and by multiplying with an odd word, which
has an inverse (`Word.mul_inj`); and thirteen digits of base 36 hold any word
(`IdScheme.base36Value_base36Digits`).  So the words that are scrambled do not repeat, scrambling
only puts the words in another order, and each can be read off its id (`IdScheme.ids_distinct`).
-/
import Mathlib.Data.FinEnum
import Mathlib.Data.List.Nodup
import Mathlib.Data.Nat.Bitwise
import Chatflow.Proofs.FreshIds
import Chatflow.IdScheme

namespace Chatflow

/-! ### Drawing -/

namespace IdGenerator

variable {γ : Type} [IdGenerator γ]

/-- The first ids that are drawn from a state. -/
def ids : Nat → γ → List String
  | 0, _ => []
  | count + 1, g => (next g).1 :: ids count (next g).2

/-- The state after so many ids were drawn. -/
def after : Nat → γ → γ
  | 0, g => g
  | count + 1, g => after count (next g).2

lemma length_ids (count : Nat) (g : γ) : (ids count g).length = count := by
  induction count generalizing g with
  | zero => rfl
  | succ count ih => rw [ids, List.length_cons, ih]

lemma ids_add (m n : Nat) (g : γ) : ids (m + n) g = ids m g ++ ids n (after m g) := by
  induction m generalizing g with
  | zero => simp [ids, after]
  | succ m ih => simp only [Nat.succ_add, ids, after, ih, List.cons_append]

lemma after_add (m n : Nat) (g : γ) : after (m + n) g = after n (after m g) := by
  induction m generalizing g with
  | zero => simp [after]
  | succ m ih => simp only [Nat.succ_add, after, ih]

end IdGenerator

/-! ### Words -/

namespace Word

/-- A number that is a shift of itself to the right is zero. -/
lemma eq_zero_of_shiftRight_eq {n k : Nat} (hk : 0 < k) (h : n >>> k = n) : n = 0 := by
  rw [Nat.shiftRight_eq_div_pow] at h
  by_contra hn
  have hpow : 1 < 2 ^ k := Nat.one_lt_two_pow hk.ne'
  exact absurd h (Nat.div_lt_self (Nat.pos_of_ne_zero hn) hpow).ne

/-- Adding a word bitwise to what is left of it after a shift can be undone. -/
lemma xor_shiftRight_inj {x y k : UInt64} (hk : 0 < k.toNat % 64)
    (h : x ^^^ (x >>> k) = y ^^^ (y >>> k)) : x = y := by
  have hnat := congrArg UInt64.toNat h
  simp only [UInt64.toNat_xor, UInt64.toNat_shiftRight] at hnat
  -- the words differ in the bits in which their shifts differ
  have hdiff : (x.toNat ^^^ y.toNat) >>> (k.toNat % 64) = x.toNat ^^^ y.toNat :=
    calc (x.toNat ^^^ y.toNat) >>> (k.toNat % 64)
        = x.toNat >>> (k.toNat % 64) ^^^ y.toNat >>> (k.toNat % 64) :=
          Nat.shiftRight_xor_distrib
      _ = x.toNat ^^^ (x.toNat ^^^ x.toNat >>> (k.toNat % 64)) ^^^ y.toNat >>> (k.toNat % 64) := by
          rw [Nat.xor_xor_cancel_left]
      _ = x.toNat ^^^ y.toNat := by rw [hnat, ← Nat.xor_assoc, Nat.xor_xor_cancel_right]
  exact UInt64.toNat.inj (Nat.xor_eq_zero_iff.1 (eq_zero_of_shiftRight_eq hk hdiff))

/-- Multiplying with a word that has an inverse can be undone. -/
lemma mul_inj {x y a b : UInt64} (hab : a * b = 1) (h : x * a = y * a) : x = y := by
  have hmul := congrArg (· * b) h
  simpa only [UInt64.mul_assoc, hab, UInt64.mul_one] using hmul

/-- Different numbers are different words, as long as they fit. -/
lemma ofNat_inj {m n : Nat} (hm : m < UInt64.size) (hn : n < UInt64.size)
    (h : UInt64.ofNat m = UInt64.ofNat n) : m = n := by
  rw [← UInt64.toNat_ofNat_of_lt' hm, h, UInt64.toNat_ofNat_of_lt' hn]

end Word

namespace IdScheme

/-- Scrambling keeps words apart. -/
lemma scramble_inj {x y : UInt64} (h : scramble x = scramble y) : x = y := by
  have h₁ := Word.xor_shiftRight_inj (by decide) h
  have h₂ := Word.xor_shiftRight_inj (by decide)
    (Word.mul_inj (b := 0x319642B2D24D8EC3) (by decide) h₁)
  exact Word.xor_shiftRight_inj (by decide)
    (Word.mul_inj (b := 0x96DE1B173F119089) (by decide) h₂)

/-- So it only puts the words in another order. -/
lemma scramble_bijective : Function.Bijective scramble :=
  Finite.injective_iff_bijective.1 fun _ _ => scramble_inj

/-- The states that are scrambled differ with the word of their number. -/
lemma ofNat_eq_of_state_eq {seed : UInt64} {m n : Nat}
    (h : seed + UInt64.ofNat m * gamma = seed + UInt64.ofNat n * gamma) :
    UInt64.ofNat m = UInt64.ofNat n :=
  Word.mul_inj (b := 0xF1DE83E19937733D) (by decide) ((UInt64.add_right_inj seed).1 h)

/-! ### Digits -/

/-- The number that digits of base 36 stand for. -/
def base36Value (digits : List Char) : Nat :=
  digits.foldl (fun n c => 36 * n + base36.idxOf c) 0

lemma idxOf_base36Digit : ∀ n < 36, base36.idxOf (base36Digit n) = n := by decide

/-- The last digits of a number stand for its remainder. -/
lemma base36Value_base36Digits (count n : Nat) :
    base36Value (base36Digits count n) = n % 36 ^ count := by
  induction count generalizing n with
  | zero => simp [base36Digits, base36Value, Nat.mod_one]
  | succ count ih =>
    rw [base36Digits, base36Value, List.foldl_append, ← base36Value, ih, List.foldl_cons,
      List.foldl_nil, idxOf_base36Digit _ (Nat.mod_lt _ (by decide)), Nat.pow_succ', Nat.mod_mul,
      Nat.add_comm]

/-- Thirteen digits stand for the whole word. -/
lemma base36Value_of_word (word : UInt64) :
    base36Value (base36Digits 13 word.toNat) = word.toNat := by
  rw [base36Value_base36Digits]
  exact Nat.mod_eq_of_lt (Nat.lt_trans word.toNat_lt (by decide))

/-- The digit of a number below 36 stands in the table at the index of the number. -/
lemma getElem?_base36 {n : Nat} (h : n < 36) : base36[n]? = some (base36Digit n) := by
  have hlength : n < base36.length := h
  rw [base36Digit, List.getD_eq_getElem _ _ hlength, List.getElem?_eq_getElem hlength]

/-- The digits of a number place by place, the last place being worth one. -/
lemma base36Digits_eq_map (count n : Nat) :
    base36Digits count n
      = (List.range count).map fun place => base36Digit (n / 36 ^ (count - 1 - place) % 36) := by
  induction count generalizing n with
  | zero => rfl
  | succ count ih =>
    rw [base36Digits, ih, List.range_succ, List.map_append, List.map_singleton]
    congr 1
    · refine List.map_congr_left fun place hplace => ?_
      -- without its last digit the number has lost one power in every place
      have hpower : count + 1 - 1 - place = count - 1 - place + 1 := by
        have hlt := List.mem_range.1 hplace
        omega
      rw [hpower, Nat.pow_succ', Nat.div_div_eq_div_mul]
    · simp

/-- The id is the stem with thirteen digits that stand for the word; they are looked up in the table
place by place, at indexes that are in it. -/
def Spells (id : String) (word : UInt64) : Prop :=
  ∃ digits : List Char, id = "id_" ++ String.ofList digits ∧ digits.length = 13 ∧
    base36Value digits = word.toNat ∧
    ∀ place < 13, word.toNat / 36 ^ (12 - place) % 36 < base36.length ∧
      digits[place]? = base36[word.toNat / 36 ^ (12 - place) % 36]?

lemma spells_seededId (word : UInt64) : Spells (seededId word) word := by
  refine ⟨base36Digits 13 word.toNat, rfl, ?_, base36Value_of_word word, fun place hplace => ?_⟩
  · rw [base36Digits_eq_map, List.length_map, List.length_range]
  · have hindex : word.toNat / 36 ^ (12 - place) % 36 < 36 := Nat.mod_lt _ (by decide)
    refine ⟨hindex, ?_⟩
    rw [base36Digits_eq_map, List.getElem?_map, List.getElem?_range hplace,
      getElem?_base36 hindex]
    rfl

/-- Words written in digits are kept apart. -/
lemma seededId_inj {x y : UInt64} (h : seededId x = seededId y) : x = y := by
  have hdigits : base36Digits 13 x.toNat = base36Digits 13 y.toNat := by
    have hlist := congrArg String.toList h
    simpa only [seededId, String.toList_append, List.append_cancel_left_eq, String.toList_ofList]
      using hlist
  have hvalue := congrArg base36Value hdigits
  rw [base36Value_of_word, base36Value_of_word] at hvalue
  exact UInt64.toNat.inj hvalue

/-! ### The ids of a scheme -/

/-- The id of the step with a number, the first having the number zero. -/
def stepId (s : IdScheme) (number : Nat) : String :=
  match s with
  | sequential stem start => stem ++ toString (start + UInt64.ofNat number).toNat
  | seeded seed => seededId (scramble (seed + UInt64.ofNat (number + 1) * gamma))

/-- The scheme that goes on where the first id of a scheme was drawn. -/
def rest : IdScheme → IdScheme
  | sequential stem start => sequential stem (start + 1)
  | seeded seed => seeded (seed + gamma)

lemma next_source (s : IdScheme) : IdGenerator.next s.source = (s.stepId 0, s.rest.source) := by
  cases s with
  | sequential stem start => simp [IdGenerator.next, Source.next, source, stepId, rest]
  | seeded seed => simp [IdGenerator.next, Source.next, source, stepId, rest]

lemma stepId_rest (s : IdScheme) (number : Nat) : s.rest.stepId number = s.stepId (number + 1) := by
  cases s with
  | sequential stem start =>
    have hword : start + 1 + UInt64.ofNat number = start + UInt64.ofNat (number + 1) := by
      rw [UInt64.ofNat_add, UInt64.add_assoc, UInt64.add_comm 1]
      rfl
    rw [rest, stepId, stepId, hword]
  | seeded seed =>
    have hword : seed + gamma + UInt64.ofNat (number + 1) * gamma
        = seed + UInt64.ofNat (number + 1 + 1) * gamma := by
      rw [UInt64.ofNat_add (number + 1), UInt64.add_mul, UInt64.add_assoc, UInt64.add_comm gamma,
        show UInt64.ofNat 1 = 1 from rfl, UInt64.one_mul]
    rw [rest, stepId, stepId, hword]

/-- The ids of a scheme are drawn number by number. -/
lemma ids_source (s : IdScheme) (count : Nat) :
    IdGenerator.ids count s.source = (List.range count).map s.stepId := by
  induction count generalizing s with
  | zero => rfl
  | succ count ih =>
    rw [IdGenerator.ids, next_source, ih, List.range_succ_eq_map, List.map_cons, List.map_map]
    exact congrArg (List.cons _) (List.map_congr_left fun number _ => stepId_rest s number)

/-- Different numbers have different ids, as long as they are words. -/
lemma stepId_inj {s : IdScheme} {m n : Nat} (hm : m < UInt64.size) (hn : n < UInt64.size)
    (h : s.stepId m = s.stepId n) : m = n := by
  cases s with
  | sequential stem start =>
    have htext := (String.append_right_inj stem).1 h
    have hle : ∀ w : UInt64, w.toNat ≤ Counter.maximum := fun w => Nat.le_of_lt_succ w.toNat_lt
    have hsum := UInt64.toNat.inj (Graph.nodeName_inj (hle _) (hle _) htext)
    exact Word.ofNat_inj hm hn ((UInt64.add_right_inj start).1 hsum)
  | seeded seed =>
    have hnumber := ofNat_eq_of_state_eq (scramble_inj (seededId_inj h))
    rw [UInt64.ofNat_add, UInt64.ofNat_add] at hnumber
    exact Word.ofNat_inj hm hn ((UInt64.add_left_inj _).1 hnumber)

/-- A scheme gives no id twice before it has given as many as there are words. -/
lemma nodup_ids (s : IdScheme) {count : Nat} (h : count ≤ UInt64.size) :
    (IdGenerator.ids count s.source).Nodup := by
  rw [ids_source]
  refine List.Nodup.map_on (fun m hm n hn => ?_) List.nodup_range
  rw [List.mem_range] at hm hn
  exact stepId_inj (Nat.lt_of_lt_of_le hm h) (Nat.lt_of_lt_of_le hn h)

/-- As many ids as there are words can be drawn from a scheme without one coming twice.  If they are
seeded, the id of every number spells the scrambled state of that number.  A word is scrambled by
two rounds, each with a shift and a multiplication, and by a last shift, which is one to one on
words; states are the odd `gamma` apart, and none comes twice before all words have been states. -/
theorem ids_distinct :
    (∀ s : IdScheme, (IdGenerator.ids UInt64.size s.source).length = UInt64.size ∧
      (IdGenerator.ids UInt64.size s.source).Nodup) ∧
    (∀ seed count number id, (IdGenerator.ids count (seeded seed).source)[number]? = some id →
      Spells id (scramble (seed + UInt64.ofNat (number + 1) * gamma))) ∧
    (∀ z, scramble z =
      let x := (z ^^^ (z >>> 30)) * 0xBF58476D1CE4E5B9
      let y := (x ^^^ (x >>> 27)) * 0x94D049BB133111EB
      y ^^^ (y >>> 31)) ∧
    Function.Bijective scramble ∧
    gamma = 0x9E3779B97F4A7C15 ∧
    ∀ seed m n, m < UInt64.size → n < UInt64.size →
      seed + UInt64.ofNat m * gamma = seed + UInt64.ofNat n * gamma → m = n := by
  refine ⟨fun s => ⟨IdGenerator.length_ids _ _, nodup_ids s (Nat.le_refl _)⟩, ?_, fun z => rfl,
    scramble_bijective, rfl, fun seed m n hm hn h => Word.ofNat_inj hm hn (ofNat_eq_of_state_eq h)⟩
  intro seed count number id hid
  rw [ids_source, List.getElem?_map] at hid
  obtain ⟨k, hk, rfl⟩ := Option.map_eq_some_iff.1 hid
  obtain ⟨hlt, rfl⟩ := List.getElem?_eq_some_iff.1 hk
  rw [List.getElem_range]
  exact spells_seededId _

end IdScheme

end Chatflow
