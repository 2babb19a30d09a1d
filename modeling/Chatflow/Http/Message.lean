/-
# Requests and answers

The parts of HTTP messages that the editing server looks at and gives.
-/
import Chatflow.Json.Writer

namespace Chatflow.Http

/-- The method of a request. -/
inductive Method where
  | get
  | head
  | post
  | put
  | delete
  | options
  /-- A method that no route answers to. -/
  | other (name : String)
deriving DecidableEq, Repr

/-- The method of a name. -/
def Method.ofName (s : String) : Method :=
  match s with
  | "GET" => get
  | "HEAD" => head
  | "POST" => post
  | "PUT" => put
  | "DELETE" => delete
  | "OPTIONS" => options
  | name => other name

/-- A request. -/
structure Request where
  /-- The method. -/
  method : Method
  /-- The path, perhaps with a query or a fragment. -/
  target : String
  /-- The media type of the body, if it is given. -/
  contentType : Option String := none
  /-- The origin of the page that sent the request, if it is given. -/
  origin : Option String := none
  /-- The body. -/
  body : String := ""

/-- An answer. -/
structure Response where
  /-- The status. -/
  status : Nat
  /-- The JSON text of the body, if the answer has one. -/
  body : Option String := none
  /-- The origin that may read the answer. -/
  allowOrigin : Option String := none
  /-- The methods that may be used. -/
  allowMethods : Option String := none
  /-- The headers that may be sent. -/
  allowHeaders : Option String := none
deriving DecidableEq, Repr

namespace Response

/-- An answer with a JSON value. -/
def json (status : Nat) (j : Json) : Response := { status, body := some j.compact }

/-- An answer without body. -/
def bare (status : Nat) : Response := { status }

/-- The answer without the text of its body, as for requests that ask for the head alone. -/
def headOnly (r : Response) : Response := { r with body := r.body.map fun _ => "" }

end Response

/-! ### Header values -/

/-- A character that may stand in a header value. -/
def isHeaderChar (c : Char) : Bool := c = '\t' ∨ (32 ≤ c.toNat ∧ c.toNat ≠ 127)

/-- Whether a text can be a header value. -/
def isHeaderValue (s : String) : Bool := s.toList.all isHeaderChar

/-- A header value as text.  Values with characters beyond ASCII are not text. -/
def headerText? (s : String) : Option String :=
  if s.toList.all fun c => isHeaderChar c ∧ c.toNat < 128 then some s else none

end Chatflow.Http
