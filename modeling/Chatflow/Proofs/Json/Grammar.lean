/-
# The grammar of tokens

What a token looks like is said here without a scanner: `NumeralText`, `LiteralText` and `TokenText`
are the productions of JSON for numbers, for the inside of string literals and for tokens, and
`Spaced` puts any white space around them.  The scanner reads a text of this form token by token as
long as no number runs into another (`ofText_of_spaced`), and every text in which it finds no fault
is of this form (`spaced_of_ofText`).
-/
import Mathlib.Data.List.Chain
import Mathlib.Data.List.TakeWhile
import Chatflow.Proofs.Json.Scanning

namespace Chatflow.Json.Token

/-! ### Numbers -/

/-- One or more decimal digits. -/
def IsDigits (cs : List Char) : Prop := cs ≠ [] ∧ ∀ c ∈ cs, c.isDigit

/-- The text of a fraction, if there is one, with its digits. -/
inductive FractionText : List Char → List Char → Prop where
  | absent : FractionText [] []
  | digits {ds : List Char} (digits : IsDigits ds) : FractionText ('.' :: ds) ds

/-- The text of a sign that may be left out, and whether it is a minus. -/
inductive SignText : List Char → Bool → Prop where
  | absent : SignText [] false
  | plus : SignText ['+'] false
  | minus : SignText ['-'] true

/-- The text of an exponent, if there is one, with its value. -/
inductive ExponentText : List Char → Option Int → Prop where
  | absent : ExponentText [] none
  | power {letter : Char} {sign ds : List Char} {negative : Bool}
    (letter_eq : letter = 'e' ∨ letter = 'E') (sign_text : SignText sign negative)
    (digits : IsDigits ds) :
    ExponentText (letter :: (sign ++ ds))
      (some (if negative then -(exponentValue ds : Int) else exponentValue ds))

/-- The text of a number.  A zero in front stands alone. -/
inductive NumeralText : List Char → Numeral → Prop where
  | mk {minus fraction exponent : List Char} {n : Numeral}
    (minus_eq : minus = if n.negative then ['-'] else [])
    (whole : IsDigits n.whole) (zero : n.whole.head? = some '0' → n.whole.length = 1)
    (fraction_text : FractionText fraction n.fraction)
    (exponent_text : ExponentText exponent n.exponent) :
    NumeralText (minus ++ (n.whole ++ (fraction ++ exponent))) n

lemma append_of_digits {cs ds rest : List Char} (h : digits cs = (ds, rest)) :
    cs = ds ++ rest ∧ ∀ c ∈ ds, c.isDigit := by
  obtain ⟨rfl, rfl⟩ := Prod.mk.inj h
  exact ⟨List.takeWhile_append_dropWhile.symm, fun c hc => List.mem_takeWhile_imp hc⟩

lemma IsDigits.exists_cons {ds : List Char} (h : IsDigits ds) :
    ∃ d rest, ds = d :: rest ∧ d.isDigit := by
  obtain ⟨d, rest, rfl⟩ := List.exists_cons_of_ne_nil h.1
  exact ⟨d, rest, rfl, h.2 d List.mem_cons_self⟩

section

variable {rest : List Char}

lemma scanSign_append {sign ds : List Char} {negative : Bool} (h : SignText sign negative)
    (hds : IsDigits ds) : scanSign (sign ++ (ds ++ rest)) = (negative, ds ++ rest) := by
  obtain ⟨d, ds', rfl, hd⟩ := hds.exists_cons
  cases h with
  | absent =>
    rw [List.nil_append, List.cons_append]
    unfold scanSign
    split
    · next heq =>
      obtain ⟨rfl, -⟩ := List.cons.inj heq
      exact absurd hd (by decide)
    · next heq =>
      obtain ⟨rfl, -⟩ := List.cons.inj heq
      exact absurd hd (by decide)
    · rfl
  | plus => rfl
  | minus => rfl

lemma scanExponent_append {text : List Char} {e : Option Int} (h : ExponentText text e)
    (hrest : Stops rest) : scanExponent (text ++ rest) = some (e, rest) := by
  cases h with
  | absent => exact scanExponent_of_stops hrest
  | @power letter sign ds negative hletter hsign hds =>
    have hpower : scanPower ((sign ++ ds) ++ rest)
        = some (if negative then -(exponentValue ds : Int) else exponentValue ds, rest) := by
      rw [List.append_assoc]
      simp only [scanPower, scanSign_append hsign hds,
        digits_append hds.2 (hrest.isDigit_head?)]
      obtain ⟨d, ds', rfl, -⟩ := hds.exists_cons
      rfl
    rcases hletter with rfl | rfl
    all_goals rw [List.cons_append, scanExponent, hpower, Option.map_some]

/-- Behind the point or the digits before it no digit and no point follows. -/
lemma head?_exponent {text : List Char} {e : Option Int} (h : ExponentText text e)
    (hrest : Stops rest) : ∀ c ∈ (text ++ rest).head?, c.isDigit = false ∧ c ≠ '.' := by
  intro c hc
  cases h with
  | absent =>
    refine ⟨hrest.isDigit_head? c hc, ?_⟩
    rintro rfl
    exact absurd (hrest '.' hc) (by decide)
  | power hletter =>
    obtain rfl : _ = c := Option.some.inj hc
    rcases hletter with rfl | rfl <;> exact ⟨by decide, by decide⟩

lemma scanFraction_append {text ds : List Char} (h : FractionText text ds)
    (hrest : ∀ c ∈ rest.head?, c.isDigit = false ∧ c ≠ '.') :
    scanFraction (text ++ rest) = some (ds, rest) := by
  cases h with
  | absent =>
    rw [List.nil_append]
    unfold scanFraction
    split
    · exact absurd rfl (hrest '.' rfl).2
    · rfl
  | digits hds =>
    rw [List.cons_append, scanFraction, digits_append hds.2 fun c hc => (hrest c hc).1]
    obtain ⟨d, ds', rfl, -⟩ := hds.exists_cons
    rfl

lemma scanMinus_append {minus ds : List Char} {negative : Bool}
    (h : minus = if negative then ['-'] else []) (hds : IsDigits ds) :
    scanMinus (minus ++ (ds ++ rest)) = (negative, ds ++ rest) := by
  obtain ⟨d, ds', rfl, hd⟩ := hds.exists_cons
  cases negative with
  | true =>
    rw [h]
    rfl
  | false =>
    rw [h]
    unfold scanMinus
    split
    · next heq =>
      obtain ⟨rfl, -⟩ := List.cons.inj heq
      exact absurd hd (by decide)
    · rfl

/-- A number is read wherever nothing makes it longer. -/
lemma scanNumeral_append {text : List Char} {n : Numeral} (h : NumeralText text n)
    (hrest : Stops rest) : scanNumeral (text ++ rest) = some (n, rest) := by
  obtain @⟨minus, fraction, exponent, ⟨negative, whole, f, e⟩, hminus, hwhole, hzero, hfraction,
    hexponent⟩ := h
  have hdigits : ∀ c ∈ (fraction ++ (exponent ++ rest)).head?, c.isDigit = false := by
    intro c hc
    cases hfraction with
    | absent => exact (head?_exponent hexponent hrest c hc).1
    | digits =>
      obtain rfl : '.' = c := Option.some.inj hc
      decide
  have hvalid : ¬ (whole = [] ∨ (whole.head? = some '0' ∧ whole.length ≠ 1)) := by
    rintro (hnil | ⟨hhead, hlength⟩)
    · exact hwhole.1 hnil
    · exact hlength (hzero hhead)
  simp only [List.append_assoc, scanNumeral, scanMinus_append hminus hwhole,
    digits_append hwhole.2 hdigits, if_neg hvalid, scanFraction_append hfraction (head?_exponent hexponent hrest),
    Option.bind_eq_bind, Option.bind_some, scanExponent_append hexponent hrest]

/-! What is read as part of a number is such a part. -/

lemma signText_of_scanSign {cs : List Char} {negative : Bool}
    (h : scanSign cs = (negative, rest)) : ∃ sign, cs = sign ++ rest ∧ SignText sign negative := by
  unfold scanSign at h
  split at h <;> obtain ⟨rfl, rfl⟩ := Prod.mk.inj h
  · exact ⟨['-'], rfl, .minus⟩
  · exact ⟨['+'], rfl, .plus⟩
  · exact ⟨[], rfl, .absent⟩

lemma exponentText_of_scanPower {cs : List Char} {e : Int} (h : scanPower cs = some (e, rest))
    {letter : Char} (hletter : letter = 'e' ∨ letter = 'E') :
    ∃ text, letter :: cs = text ++ rest ∧ ExponentText text (some e) := by
  rcases hscan : scanSign cs with ⟨negative, r⟩
  obtain ⟨sign, rfl, hsign⟩ := signText_of_scanSign hscan
  simp only [scanPower, hscan] at h
  split at h
  · simp at h
  · next ds rest' hds hdigits =>
    obtain ⟨rfl, hall⟩ := append_of_digits hdigits
    obtain ⟨rfl, rfl⟩ := Prod.mk.inj (Option.some.inj h)
    exact ⟨letter :: (sign ++ ds), by simp, .power hletter hsign ⟨hds, hall⟩⟩

lemma exponentText_of_scanExponent {cs : List Char} {e : Option Int}
    (h : scanExponent cs = some (e, rest)) : ∃ text, cs = text ++ rest ∧ ExponentText text e := by
  unfold scanExponent at h
  split at h
  · obtain ⟨⟨e', r⟩, hpower, heq⟩ := Option.map_eq_some_iff.1 h
    obtain ⟨rfl, rfl⟩ := Prod.mk.inj heq
    exact exponentText_of_scanPower hpower (.inl rfl)
  · obtain ⟨⟨e', r⟩, hpower, heq⟩ := Option.map_eq_some_iff.1 h
    obtain ⟨rfl, rfl⟩ := Prod.mk.inj heq
    exact exponentText_of_scanPower hpower (.inr rfl)
  · obtain ⟨rfl, rfl⟩ := Prod.mk.inj (Option.some.inj h)
    exact ⟨[], rfl, .absent⟩

lemma fractionText_of_scanFraction {cs ds : List Char} (h : scanFraction cs = some (ds, rest)) :
    ∃ text, cs = text ++ rest ∧ FractionText text ds := by
  unfold scanFraction at h
  split at h
  · split at h
    · simp at h
    · next ds' rest' hds hdigits =>
      obtain ⟨rfl, hall⟩ := append_of_digits hdigits
      obtain ⟨rfl, rfl⟩ := Prod.mk.inj (Option.some.inj h)
      exact ⟨'.' :: ds', rfl, .digits ⟨hds, hall⟩⟩
  · obtain ⟨rfl, rfl⟩ := Prod.mk.inj (Option.some.inj h)
    exact ⟨[], rfl, .absent⟩

lemma append_of_scanMinus {cs : List Char} {negative : Bool}
    (h : scanMinus cs = (negative, rest)) : cs = (if negative then ['-'] else []) ++ rest := by
  unfold scanMinus at h
  split at h <;> obtain ⟨rfl, rfl⟩ := Prod.mk.inj h <;> rfl

/-- What is read as a number is the text of one. -/
lemma numeralText_of_scanNumeral {cs : List Char} {n : Numeral}
    (h : scanNumeral cs = some (n, rest)) : ∃ text, cs = text ++ rest ∧ NumeralText text n := by
  rcases hscan : scanMinus cs with ⟨negative, r⟩
  rcases hdigits : digits r with ⟨whole, r'⟩
  obtain rfl := append_of_scanMinus hscan
  obtain ⟨rfl, hall⟩ := append_of_digits hdigits
  simp only [scanNumeral, hscan, hdigits] at h
  split at h
  · simp at h
  · next hvalid =>
    simp only [Option.bind_eq_bind, Option.bind_eq_some_iff, Option.some.injEq] at h
    obtain ⟨⟨f, r⟩, hfraction, ⟨e, r'⟩, hexponent, heq⟩ := h
    obtain ⟨rfl, rfl⟩ := Prod.mk.inj heq
    obtain ⟨fraction, rfl, hf⟩ := fractionText_of_scanFraction hfraction
    obtain ⟨exponent, rfl, he⟩ := exponentText_of_scanExponent hexponent
    rw [not_or] at hvalid
    refine ⟨_, ?_, .mk rfl ⟨hvalid.1, hall⟩ (fun hhead => ?_) hf he⟩
    · simp only [List.append_assoc]
    · exact not_not.1 fun hlength => hvalid.2 ⟨hhead, hlength⟩

end

/-! ### Strings -/

/-- The text of a piece of the inside of a string literal. -/
inductive UnitText : List Char → Unit → Prop where
  | literal {c : Char} (quote : c ≠ '"') (backslash : c ≠ '\\') (control : ¬ c.toNat < 32) :
    UnitText [c] (.char c)
  | escape {c d : Char} (escape : escape? c = some d) : UnitText ['\\', c] (.char d)
  | word {a b c d : Char} {w : Nat} (word : hexWord? a b c d = some w) :
    UnitText ['\\', 'u', a, b, c, d] (.ofWord w)

/-- The text of the inside of a string literal. -/
inductive LiteralText : List Char → List Unit → Prop where
  | nil : LiteralText [] []
  | cons {cs rest : List Char} {u : Unit} {units : List Unit} (head : UnitText cs u)
    (tail : LiteralText rest units) : LiteralText (cs ++ rest) (u :: units)

lemma scanUnits_append {cs : List Char} {u : Unit} (h : UnitText cs u) (before : List Unit)
    (rest : List Char) : scanUnits before (cs ++ rest) = scanUnits (u :: before) rest := by
  cases h with
  | literal hquote hbackslash hcontrol =>
    exact scanUnits_of_literal hquote hbackslash hcontrol before rest
  | escape hescape =>
    unfold escape? at hescape
    split at hescape
    case h_9 => simp at hescape
    all_goals
      obtain rfl := Option.some.inj hescape
      simp [scanUnits, escape?]
  | word hword => simp [scanUnits, hword]

/-- A literal is read up to its closing quote. -/
lemma scanUnits_of_literalText {cs : List Char} {units : List Unit} (h : LiteralText cs units)
    (before : List Unit) (rest : List Char) :
    scanUnits before (cs ++ '"' :: rest) = some (units.reverse ++ before, rest) := by
  induction h generalizing before with
  | nil => simp [scanUnits]
  | cons head tail ih => rw [List.append_assoc, scanUnits_append head, ih]; simp

/-- What is read up to a closing quote is a literal. -/
lemma literalText_of_scanUnits {before units : List Unit} {cs rest : List Char}
    (h : scanUnits before cs = some (units, rest)) :
    ∃ text us, cs = text ++ '"' :: rest ∧ units = us.reverse ++ before ∧ LiteralText text us := by
  fun_induction scanUnits before cs with
  | case1 => simp at h
  | case2 before rest' =>
    obtain ⟨rfl, rfl⟩ := Prod.mk.inj (Option.some.inj h)
    exact ⟨[], [], rfl, rfl, .nil⟩
  | case3 => simp at h
  | case4 before a b c d rest' w hword ih =>
    obtain ⟨text, us, rfl, rfl, htext⟩ := ih h
    exact ⟨_, .ofWord w :: us, rfl, by simp, .cons (.word hword) htext⟩
  | case5 => simp at h
  | case6 before c rest' _ d hescape ih =>
    obtain ⟨text, us, rfl, rfl, htext⟩ := ih h
    exact ⟨_, .char d :: us, rfl, by simp, .cons (.escape hescape) htext⟩
  | case7 => simp at h
  | case8 before c rest' hquote _ _ hliteral ih =>
    obtain ⟨text, us, rfl, rfl, htext⟩ := ih h
    rw [not_or] at hliteral
    exact ⟨_, .char c :: us, rfl, by simp, .cons (.literal hquote hliteral.2 hliteral.1) htext⟩

/-! ### Tokens -/

/-- The text of a token. -/
inductive TokenText : List Char → Token → Prop where
  | openArray : TokenText ['['] .openArray
  | closeArray : TokenText [']'] .closeArray
  | openObject : TokenText ['\x7b'] .openObject
  | closeObject : TokenText ['\x7d'] .closeObject
  | comma : TokenText [','] .comma
  | colon : TokenText [':'] .colon
  | null : TokenText ['n', 'u', 'l', 'l'] .null
  | true : TokenText ['t', 'r', 'u', 'e'] (.bool true)
  | false : TokenText ['f', 'a', 'l', 's', 'e'] (.bool false)
  | num {cs : List Char} {n : Numeral} (text : NumeralText cs n) : TokenText cs (.num n.number?)
  | str {cs : List Char} {units : List Unit} (text : LiteralText cs units) :
    TokenText ('"' :: (cs ++ ['"'])) (.str (textOfUnits? units.reverse))

/-- Whether a token is a number. -/
def isNum : Token → Bool
  | .num _ => true
  | _ => false

section

variable {cs rest : List Char} {t : Token}

/-- A token is read wherever it stands, a number where nothing makes it longer. -/
lemma scan_append (h : TokenText cs t) (hrest : t.isNum → Stops rest) :
    scan (cs ++ rest) = some (t, rest) := by
  cases h with
  | num text => exact scan_of_scanNumeral (scanNumeral_append text (hrest rfl))
  | str text =>
    rw [List.cons_append, List.append_assoc, List.singleton_append, scan,
      scanUnits_of_literalText text, Option.map_some, List.append_nil]
  | _ => rfl

/-- What is read as a token is the text of one. -/
lemma tokenText_of_scan (h : scan cs = some (t, rest)) :
    ∃ text, cs = text ++ rest ∧ TokenText text t := by
  unfold scan at h
  split at h
  case h_10 r =>
    obtain ⟨⟨units, r'⟩, hunits, heq⟩ := Option.map_eq_some_iff.1 h
    obtain ⟨rfl, rfl⟩ := Prod.mk.inj heq
    obtain ⟨text, us, rfl, rfl, htext⟩ := literalText_of_scanUnits hunits
    rw [List.append_nil]
    exact ⟨_, by simp, .str htext⟩
  case h_11 =>
    obtain ⟨⟨n, r'⟩, hnumeral, heq⟩ := Option.map_eq_some_iff.1 h
    obtain ⟨rfl, rfl⟩ := Prod.mk.inj heq
    obtain ⟨text, rfl, htext⟩ := numeralText_of_scanNumeral hnumeral
    exact ⟨text, rfl, .num htext⟩
  all_goals obtain ⟨rfl, rfl⟩ := Prod.mk.inj (Option.some.inj h)
  · exact ⟨_, rfl, .openArray⟩
  · exact ⟨_, rfl, .closeArray⟩
  · exact ⟨_, rfl, .openObject⟩
  · exact ⟨_, rfl, .closeObject⟩
  · exact ⟨_, rfl, .comma⟩
  · exact ⟨_, rfl, .colon⟩
  · exact ⟨_, rfl, .null⟩
  · exact ⟨_, rfl, .true⟩
  · exact ⟨_, rfl, .false⟩

/-- A number is made longer only by another number. -/
lemma stops_of_tokenText (h : TokenText cs t) (ht : t.isNum = false) (rest : List Char) :
    Stops (cs ++ rest) := by
  cases h with
  | num text => simp [isNum] at ht
  | _ => exact stops_cons (by decide) _

end

/-! ### Rows of tokens -/

/-- What can stand between tokens. -/
def whiteSpace : List Char := [' ', '\n', '\t', '\r']

/-- Text of tokens one after the other, with white space around them. -/
inductive Spaced : List Char → List Token → Prop where
  | nil {spaces : List Char} (spaces_blank : ∀ c ∈ spaces, c ∈ whiteSpace) : Spaced spaces []
  | cons {spaces cs rest : List Char} {t : Token} {ts : List Token}
    (spaces_blank : ∀ c ∈ spaces, c ∈ whiteSpace) (head : TokenText cs t) (tail : Spaced rest ts) :
    Spaced (spaces ++ (cs ++ rest)) (t :: ts)

/-- No number comes right behind a number. -/
def Apart (ts : List Token) : Prop := ts.IsChain fun t u => t.isNum → u.isNum = false

lemma isSpace_iff {c : Char} : isSpace c = true ↔ c ∈ whiteSpace := by simp [isSpace, whiteSpace]

lemma stops_of_space {spaces : List Char} (h : ∀ c ∈ spaces, c ∈ whiteSpace) : Stops spaces := by
  intro c hc
  have hspace := h c (List.mem_of_mem_head? hc)
  simp only [whiteSpace, List.mem_cons, List.not_mem_nil, or_false] at hspace
  rcases hspace with rfl | rfl | rfl | rfl <;> decide

lemma Spaced.stops {cs : List Char} {ts : List Token} (h : Spaced cs ts)
    (hts : ∀ t ∈ ts.head?, t.isNum = false) : Stops cs := by
  cases h with
  | nil hspaces => exact stops_of_space hspaces
  | cons hspaces head tail =>
    exact (stops_of_space hspaces).append (stops_of_tokenText head (hts _ rfl) _)

/-- Tokens are read one by one, with whatever white space around them, if no number runs into
another. -/
lemma scanAll_of_spaced {cs : List Char} {ts : List Token} (h : Spaced cs ts) (hts : Apart ts)
    (before : List Token) : scanAll before cs = before.reverse ++ ts := by
  induction h generalizing before with
  | nil hspaces =>
    have hall := scanAll_append_of_space (fun c hc => isSpace_iff.2 (hspaces c hc)) before []
    rw [List.append_nil] at hall
    rw [hall, scanAll_nil, List.append_nil]
  | @cons spaces cs rest t ts hspaces head tail ih =>
    obtain ⟨hnext, hts⟩ := List.isChain_cons.1 hts
    have hscan : scan (cs ++ rest) = some (t, rest) :=
      scan_append head fun ht => tail.stops fun u hu => hnext u hu ht
    have hskip := scanAll_append_of_space (fun c hc => isSpace_iff.2 (hspaces c hc)) before
    rw [hskip, scanAll_of_scan hscan, ih hts, List.reverse_cons, List.append_assoc]
    rfl

lemma ofText_of_spaced {s : String} {ts : List Token} (h : Spaced s.toList ts) (hts : Apart ts) :
    ofText s = ts := scanAll_of_spaced h hts []

/-- What is read without a fault is a row of tokens. -/
lemma spaced_of_scanAll (before : List Token) (cs : List Char) :
    ∃ ts, scanAll before cs = before.reverse ++ ts ∧ (.fault ∉ ts → Spaced cs ts) := by
  fun_induction scanAll before cs with
  | case1 before cs hs =>
    refine ⟨[], (List.append_nil _).symm, fun _ => .nil ?_⟩
    simpa [List.dropWhile_eq_nil_iff, isSpace_iff] using hs
  | case2 before cs c rest hs ht => exact ⟨[.fault], by simp, fun h => by simp at h⟩
  | case3 before cs c rest hs t rest' ht ih =>
    obtain ⟨text, hrest, htext⟩ := tokenText_of_scan ht
    obtain ⟨ts, hts, hspaced⟩ := ih
    have hcs : cs = cs.takeWhile isSpace ++ (text ++ rest') := by
      rw [← hrest, ← hs, List.takeWhile_append_dropWhile]
    refine ⟨t :: ts, by rw [hts]; simp, fun hfault => ?_⟩
    rw [hcs]
    exact .cons (fun c hc => isSpace_iff.1 (List.mem_takeWhile_imp hc)) htext
      (hspaced fun hmem => hfault (List.mem_cons_of_mem t hmem))

lemma spaced_of_ofText {s : String} (h : .fault ∉ ofText s) : Spaced s.toList (ofText s) := by
  obtain ⟨ts, hts, hspaced⟩ := spaced_of_scanAll [] s.toList
  have hts : ofText s = ts := hts
  rw [hts] at h ⊢
  exact hspaced h

end Chatflow.Json.Token
