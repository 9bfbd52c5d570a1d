import MapReplica.Text.Blank
import MapReplica.Text.Utf8

/-!
# Requests over HTTP

Headers given as `name=value`, and the answers to requests. A header name consists
of token characters and is kept in lower case; a later value of a name replaces an
earlier one.
-/

namespace MapReplica.Http

/-- A header: its name in lower case and its value. -/
structure Header where
  name : String
  value : String
  deriving DecidableEq, Repr

/-- Why a pair is no header. -/
inductive HeaderFault where
  | noEquals (pair : String)
  | invalidName (name : String)
  | invalidValue (name : String)
  deriving DecidableEq, Repr

/-- The wording of a fault. -/
def HeaderFault.message : HeaderFault → String
  | .noEquals pair => "header '" ++ pair ++ "' is not in key=value form"
  | .invalidName name => "invalid header name '" ++ name ++ "': invalid HTTP header name"
  | .invalidValue name => "invalid header value for '" ++ name ++ "': failed to parse header value"

/-- The characters of header names. -/
def isTokenChar (c : Char) : Bool :=
  c.isAlphanum || "!#$%&'*+-.^_`|~".toList.contains c

/-- The characters of header values: a tab and everything that is no control character. -/
def isValueChar (c : Char) : Bool :=
  c == '\t' || (0x20 ≤ c.toNat && c.toNat != 0x7F)

/-- The greatest length of a header name. -/
def longestName : Nat := 65535

/-- The header that a pair gives. -/
def Header.ofPair (pair : String) : Except HeaderFault Header :=
  let text := pair.toList
  if !text.contains '=' then .error (.noEquals pair)
  else
    let before := text.takeWhile (· != '=')
    let name := Text.trim before
    let value := Text.trim (text.drop (before.length + 1))
    if name.isEmpty || !name.all isTokenChar || longestName < name.length then
      .error (.invalidName (String.ofList before))
    else
      let name := String.ofList (name.map Char.toLower)
      if value.all isValueChar then .ok ⟨name, String.ofList value⟩ else .error (.invalidValue name)

/-- Headers with one more, which replaces that of the same name. -/
def insert (headers : List Header) (header : Header) : List Header :=
  headers.filter (·.name != header.name) ++ [header]

/-- The headers that pairs give. -/
def headersOf (pairs : List String) : Except HeaderFault (List Header) :=
  pairs.foldlM (fun headers pair => (Header.ofPair pair).map (insert headers)) []

/-- An answer to a request: its status, the body as far as it came, and whether it came to its end. -/
structure Response where
  status : Nat
  body : Bytes
  complete : Bool
  deriving DecidableEq, Repr

/-- Whether a status means success. -/
def isSuccess (status : Nat) : Bool :=
  200 ≤ status && status < 300

/-- Why a request got no answer. -/
inductive Fault where
  | unreachable (message : String)
  | broken (message : String)
  deriving DecidableEq, Repr

end MapReplica.Http
