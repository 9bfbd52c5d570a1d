import MapReplica.Url

/-!
# Addresses of databases

A database is given by an absolute url. User, password and path have to be text once
they are decoded, and some members of the query have to be of their kind. Whether the
scheme is that of a database is not asked.
-/

namespace MapReplica.Database

/-- The ways to protect a connection. -/
def protections : List String :=
  ["disable", "allow", "prefer", "require", "verify-ca", "verify-full"]

/-- Whether a text is a number of at most `bound`. -/
def isNumber (bound : Nat) (text : List Char) : Bool :=
  (Number.read bound text).toBool

/-- Whether a text is the address of a host. -/
def isHostAddress (text : List Char) : Bool :=
  Url.isPlainAddress text || Url.isLongAddress text

/-- Whether a member of the query is of its kind. -/
def isParameter (name : String) (value : List Char) : Bool :=
  if name = "sslmode" ∨ name = "ssl-mode" then
    protections.contains (String.ofList (value.map Char.toLower))
  else if name = "port" then isNumber 65535 value
  else if name = "statement-cache-capacity" then isNumber Number.max64 value
  else if name = "hostaddr" then isHostAddress value
  else true

/-- The text that a part of a query stands for; a plus sign is a blank. -/
def decodePart (part : List Char) : List Char :=
  Utf8.decodeLossy (Url.percentDecode (part.map fun c => if c = '+' then ' ' else c))

/-- The members of a query. -/
def parameters (query : List Char) : List (String × List Char) :=
  ((query.splitOn '&').filter fun member => !member.isEmpty).map fun member =>
    let name := member.takeWhile (· != '=')
    (String.ofList (decodePart name), decodePart (member.drop (name.length + 1)))

/-- Why a text is no address of a database. -/
inductive AddressFault where
  | noUrl
  | notText
  | malformedParameter (name : String)
  deriving DecidableEq, Repr

/-- The wording of a fault. -/
def AddressFault.message : AddressFault → String
  | .noUrl => "error with configuration: no absolute url"
  | .notText => "error with configuration: invalid utf-8 sequence"
  | .malformedParameter name => "error with configuration: malformed value of " ++ name

/-- Whether a part of a url is text once it is decoded. -/
def isTextPart (part : List Char) : Bool :=
  (Utf8.decode? (Url.percentDecode part)).isSome

/-- Checks that a text is the address of a database. -/
def checkAddress (text : String) : Except AddressFault Unit :=
  match Url.parse? text with
  | none => .error .noUrl
  | some url =>
      if !(isTextPart url.user && isTextPart url.password && isTextPart url.path) then .error .notText
      else
        match (parameters (url.query.getD [])).find? fun (name, value) => !isParameter name value with
        | some (name, _) => .error (.malformedParameter name)
        | none => .ok ()

end MapReplica.Database
