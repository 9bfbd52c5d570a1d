import MapReplica.Environment
import MapReplica.Text.Utf8
import MapReplica.Text.Word

/-!
# Environment files

A file of lines `NAME=value` gives values to names that have none yet, in the order
of its lines. A value may stand in quotes, and inside them a line feed belongs to the
value. Outside of single quotes a backslash makes the next character a plain one, and
`$NAME` or `${NAME}` stands for the value of a name. A `#` at the front of a line or
behind a blank begins a comment. Reading stops at the first line that is malformed;
what stands above it counts.
-/

namespace MapReplica.Environment

/-! ## Lines -/

/-- Where a place in a line lies: between quotes, behind a blank or a backslash, or in a comment. -/
inductive Place where
  | plain
  | blank
  | escape
  | weak
  | weakEscape
  | strong
  | strongEscape
  | comment
  deriving DecidableEq, Repr

/-- The place behind a character outside of quotes. -/
def Place.outside (c : Char) : Place :=
  if c = '\\' then .escape
  else if c = '"' then .weak
  else if c = '\'' then .strong
  else .plain

/-- The place behind a character. -/
def Place.next : Place → Char → Place
  | .plain, c => if Text.isBlank c && c != '\n' && c != '\r' then .blank else outside c
  | .blank, c => if c = '#' then .comment else outside c
  | .escape, _ => .plain
  | .weak, c => if c = '\\' then .weakEscape else if c = '"' then .plain else .weak
  | .weakEscape, _ => .weak
  | .strong, c => if c = '\\' then .strongEscape else if c = '\'' then .plain else .strong
  | .strongEscape, _ => .strong
  | .comment, c => if c = '\n' then .plain else .comment

/--
The lines of a text without their comments; `line` is what was read of the first one,
the last character first. A line feed between quotes does not end a line, and a last
line that is not complete is dropped.
-/
def fileLines (place : Place) (line : List Char) : List Char → List (List Char)
  | [] => if (place = .plain ∧ line ≠ []) ∨ place = .comment then [line.reverse] else []
  | c :: rest =>
      let next :=
        if c = '#' ∧ place = .plain ∧ line.all Text.isBlank then .comment else place.next c
      if c = '\n' ∧ next = .plain then line.reverse :: fileLines .plain [] rest
      else if next = .comment then fileLines next line rest
      else fileLines next (c :: line) rest

/-! ## Values -/

/-- How the next character of a value counts. -/
inductive ValueMode where
  | plain
  | escaped
  | strong
  /-- In the name of a value, in braces or not; the last letter comes first. -/
  | name (braced : Bool) (letters : List Char)
  /-- Behind the blank that ends a value. -/
  | ended

/-- The character that an escaped one stands for. -/
def unescape? (c : Char) : Option Char :=
  if ['\\', '\'', '"', '$', ' '].contains c then some c
  else if c = 'n' then some '\n'
  else none

/-- Reads a value; `quoted` tells whether a double quote is open. -/
def readValue (lookup : List Char → List Char) (quoted : Bool) : ValueMode → List Char → Option (List Char)
  | .name true _, [] => none
  | .strong, [] => none
  | .name false letters, [] => if quoted then none else some (lookup letters.reverse)
  | _, [] => if quoted then none else some []
  | .ended, c :: rest =>
      if c = ' ' ∨ c = '\t' then readValue lookup quoted .ended rest
      else if c = '#' then some []
      else none
  | .escaped, c :: rest => do
      let c ← unescape? c
      let rest ← readValue lookup quoted .plain rest
      return c :: rest
  | .strong, c :: rest =>
      if c = '\'' then readValue lookup quoted .plain rest
      else (readValue lookup quoted .strong rest).map (c :: ·)
  | .name true letters, c :: rest =>
      if c = '}' then (readValue lookup quoted .plain rest).map (lookup letters.reverse ++ ·)
      else readValue lookup quoted (.name true (c :: letters)) rest
  | .name false letters, c :: rest =>
      if Text.isWordChar c then readValue lookup quoted (.name false (c :: letters)) rest
      else if c = '{' ∧ letters = [] then readValue lookup quoted (.name true []) rest
      else if c = '$' then
        (readValue lookup quoted (.name false []) rest).map (lookup letters.reverse ++ ·)
      else (readValue lookup quoted .plain rest).map (lookup letters.reverse ++ c :: ·)
  | .plain, c :: rest =>
      if c = '$' then readValue lookup quoted (.name false []) rest
      else if c = '\\' then readValue lookup quoted .escaped rest
      else if c = '"' then readValue lookup (!quoted) .plain rest
      else if quoted then (readValue lookup quoted .plain rest).map (c :: ·)
      else if c = '\'' then readValue lookup quoted .strong rest
      else if c = ' ' ∨ c = '\t' then readValue lookup quoted .ended rest
      else (readValue lookup quoted .plain rest).map (c :: ·)

/-! ## Entries -/

/-- What a line says. -/
inductive FileLine where
  | empty
  | entry (name value : String)
  | malformed

/-- The characters that may begin a name. -/
def beginsName (c : Char) : Bool :=
  c.isAlpha || c == '_'

/-- The characters that a name consists of. -/
def continuesName (c : Char) : Bool :=
  c.isAlphanum || c == '_' || c == '.'

/-- The name at the front of a text, and what stands behind it without leading blanks. -/
def readName (text : List Char) : Option (List Char × List Char) :=
  if text.head?.any beginsName then
    some (text.takeWhile continuesName, Text.trimStart (text.dropWhile continuesName))
  else none

/-- The name and the written value of a line; `export` may stand in front of the name. -/
def readAssignment (text : List Char) : Option (List Char × List Char) := do
  match ← readName text with
  | (name, '=' :: value) => some (name, Text.trimStart value)
  | (name, rest) =>
      if name = "export".toList then
        match ← readName rest with
        | (name, '=' :: value) => some (name, Text.trimStart value)
        | _ => none
      else none

/-- Reads a line. -/
def readLine (environment : Environment) (line : List Char) : FileLine :=
  let text := Text.trim line
  if text = [] ∨ text.head? = some '#' then .empty
  else
    let lookup (name : List Char) := ((environment.value? (String.ofList name)).getD "").toList
    match readAssignment text with
    | none => .malformed
    | some (name, value) =>
        if value.head? = some '#' then .entry (String.ofList name) ""
        else
          match readValue lookup false .plain value with
          | none => .malformed
          | some value => .entry (String.ofList name) (String.ofList value)

/-- The environment with the entries of lines, up to the first malformed one. -/
def withLines (environment : Environment) : List (List Char) → Environment
  | [] => environment
  | line :: rest =>
      match readLine environment line with
      | .empty => environment.withLines rest
      | .malformed => environment
      | .entry name value => (environment.withDefault name value).withLines rest

/-! ## Octets -/

/-- Splits octets behind each line feed; `line` is what was read of the first line, the last octet first. -/
def octetLines (line : Bytes) : Bytes → List Bytes
  | [] => [line.reverse]
  | b :: rest => if b = 10 then (b :: line).reverse :: octetLines [] rest else octetLines (b :: line) rest

/-- The lines at the front of a file that are text, as characters. -/
def readableText (content : Bytes) : List Char :=
  let lines := (octetLines [] content).map Utf8.decode?
  ((lines.takeWhile Option.isSome).filterMap id).flatMap String.toList

/-- The mark at the front of a file that says that it is in UTF-8. -/
def byteOrderMark : Char := Char.ofNat 0xFEFF

/-- The environment with the entries of a file. -/
def withFile (environment : Environment) (content : Bytes) : Environment :=
  let text := readableText content
  let text := if text.head? = some byteOrderMark then text.tail else text
  environment.withLines (fileLines .plain [] text)

end MapReplica.Environment
