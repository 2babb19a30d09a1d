/-
# Media types

A media type is a type and a subtype of token characters with a slash between them.  What stands
behind the last plus sign of the subtype is its suffix.  Parameters may follow, each behind a
semicolon.  A body is taken for JSON if its type is `application` and its subtype or suffix `json`,
in letters of either case.
-/

namespace Chatflow.Http

/-- A character of tokens. -/
def isTokenChar (c : Char) : Bool :=
  c.isAlphanum ∨ c ∈ ['!', '#', '$', '%', '&', '\'', '*', '+', '-', '.', '^', '_', '\x60', '|', '~']

/-- A character that may stand in a quoted parameter value. -/
def isQuotedChar (c : Char) : Bool := 32 ≤ c.toNat ∧ c.toNat < 127

/-- Splits off the token in front. -/
def splitToken (cs : List Char) : List Char × List Char :=
  (cs.takeWhile isTokenChar, cs.dropWhile isTokenChar)

/-- Reads a quoted parameter value behind its opening quote: at least one character, then a quote
and blanks. -/
def quotedValue? (cs : List Char) : Option (List Char) :=
  let inside := cs.takeWhile fun c => isQuotedChar c ∧ c ≠ '"'
  match inside, cs.drop inside.length with
  | [], _ => none
  | _, '"' :: rest => some (rest.dropWhile (· = ' '))
  | _, _ => none

/-- Reads the value of a parameter. -/
def parameterValue? (cs : List Char) : Option (List Char) :=
  match cs with
  | '"' :: rest => quotedValue? rest
  | cs => match splitToken cs with
    | ([], ';' :: _) => none
    | (_, rest) => some rest

/-- Whether a text behind a media type is a row of parameters, each behind a semicolon.  At most
`count` are read. -/
def areParameters (count : Nat) (cs : List Char) : Bool :=
  match count, cs with
  | _, [] => true
  | 0, _ => false
  | count + 1, ';' :: rest =>
    match rest.dropWhile (· = ' ') with
    | [] => true
    | cs => match splitToken cs with
      | (_ :: _, '=' :: rest) => match parameterValue? rest with
        | some rest => areParameters count rest
        | none => false
      | _ => false
  | _, _ => false

/-- Splits a subtype at its last plus sign that does not come first: the part before it, and the
suffix behind it. -/
def splitSuffix (subtype : List Char) : List Char × Option (List Char) :=
  let suffix := (subtype.reverse.takeWhile (· ≠ '+')).reverse
  let stem := subtype.take (subtype.length - suffix.length - 1)
  if suffix.length < subtype.length ∧ stem ≠ [] then (stem, some suffix) else (subtype, none)

/-- Whether a body of this media type is taken for JSON. -/
def isJson (contentType : String) : Bool :=
  match splitToken contentType.toList with
  | (type, '/' :: rest) =>
    let (subtype, parameters) := splitToken rest
    let (stem, suffix) := splitSuffix (subtype.map Char.toLower)
    subtype ≠ [] ∧ areParameters parameters.length parameters ∧
      type.map Char.toLower = "application".toList ∧
      (stem = "json".toList ∨ suffix = some "json".toList)
  | _ => false

end Chatflow.Http
