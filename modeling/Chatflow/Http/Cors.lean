/-
# Origins

Browsers let the pages of one origin read the answers of a server at another only if the server
names that origin.  The server names the origin of a request if it is in a list, which is set from
outside: a star for everyone, or origins separated by commas.  Where no origin is listed those of
local development servers are.
-/
import Chatflow.Http.Message

namespace Chatflow.Http

/-- Who may read answers. -/
inductive Cors where
  /-- Pages of any origin. -/
  | anyone
  /-- Pages of these origins. -/
  | listed (origins : List String)
deriving DecidableEq, Repr

namespace Cors

/-- The origins that may read answers where none is listed. -/
def localOrigins : List String :=
  ["http://localhost:3000", "http://localhost:5173", "http://127.0.0.1:3000",
    "http://127.0.0.1:5173"]

/-- White space around an entry. -/
def isSpace (c : Char) : Bool :=
  (9 ≤ c.toNat ∧ c.toNat ≤ 13) ∨ (0x2000 ≤ c.toNat ∧ c.toNat ≤ 0x200a) ∨
    c.toNat ∈ [0x20, 0x85, 0xa0, 0x1680, 0x2028, 0x2029, 0x202f, 0x205f, 0x3000]

/-- A text without the white space at its ends. -/
def trim (cs : List Char) : List Char :=
  ((cs.dropWhile isSpace).reverse.dropWhile isSpace).reverse

/-- The entries of a setting that can be origins. -/
def entries (setting : String) : List String :=
  ((setting.toList.splitOn ',').map fun cs => String.ofList (trim cs)).filter isHeaderValue

/-- Who may read answers under a setting, or where there is none. -/
def ofSetting : Option String → Cors
  | none => listed localOrigins
  | some setting =>
    if setting = "*" then anyone
    else match entries setting with
      | [] => listed localOrigins
      | origins => listed origins

/-- The origin named in the answer to a request. -/
def allowedOrigin (cors : Cors) (origin : Option String) : Option String :=
  match cors with
  | anyone => some "*"
  | listed origins => origin.filter (origins.contains ·)

/-- Names the origin in an answer. -/
def mark (cors : Cors) (origin : Option String) (r : Response) : Response :=
  { r with allowOrigin := cors.allowedOrigin origin }

/-- The answer to a browser that asks what it may send. -/
def preflight (cors : Cors) (origin : Option String) : Response where
  status := 200
  allowOrigin := cors.allowedOrigin origin
  allowMethods := some (match cors with
    | anyone => "*"
    | listed _ => "GET,POST,PUT,DELETE,OPTIONS")
  allowHeaders := some (match cors with
    | anyone => "*"
    | listed _ => "content-type")

end Cors

end Chatflow.Http
