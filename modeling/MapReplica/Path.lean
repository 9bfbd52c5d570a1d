/-!
# Paths

A path is kept as it is written. Joining follows the rule of file systems: an
absolute part replaces everything before it, any other part is put behind one
slash. `components` reads the parts of a path, and `resolve` follows `.` and `..`
by the names alone.
-/

namespace MapReplica

/-- A path of a file or directory, as it is written. -/
structure Path where
  text : String
  deriving DecidableEq, Repr, Inhabited

namespace Path

/-- A part of a path. A dot shows only at the front of a relative path. -/
inductive Component where
  | root
  | here
  | up
  | name (text : String)
  deriving DecidableEq, Repr

/-- Whether a text starts at the root. -/
def startsAtRoot (text : List Char) : Bool :=
  text.head? == some '/'

/-- Whether a path starts at the root. -/
def isAbsolute (path : Path) : Bool :=
  startsAtRoot path.text.toList

/-- The path of a part below a base; an absolute part stands for itself. -/
def join (base : Path) (part : String) : Path :=
  if startsAtRoot part.toList then ⟨part⟩
  else if base.text.toList.getLast?.all (· == '/') then ⟨base.text ++ part⟩
  else ⟨base.text ++ "/" ++ part⟩

/-- The component that a segment between slashes is; empty segments and dots are none. -/
def segment? (segment : List Char) : Option Component :=
  if segment = [] ∨ segment = ['.'] then none
  else if segment = ['.', '.'] then some .up
  else some (.name (String.ofList segment))

/-- The components of a text. -/
def componentsOf (text : List Char) : List Component :=
  let segments := text.splitOn '/'
  let front :=
    if startsAtRoot text then [.root]
    else if segments.head? == some ['.'] then [.here]
    else []
  front ++ segments.filterMap segment?

/-- The components of a path. -/
def components (path : Path) : List Component :=
  componentsOf path.text.toList

/-- The written form of a component. -/
def Component.text : Component → String
  | .root => ""
  | .here => "."
  | .up => ".."
  | .name text => text

/-- The path with the given components. -/
def ofComponents : List Component → Path
  | [.root] => ⟨"/"⟩
  | components => ⟨"/".intercalate (components.map Component.text)⟩

/-- The directory that holds the last component; the root and the empty path have none. -/
def parent? (path : Path) : Option Path :=
  match path.components.reverse with
  | [] => none
  | .root :: _ => none
  | _ :: outer => some (ofComponents outer.reverse)

/-- A path and the directories on the way to it, from the outside in. -/
def ancestry (path : Path) : List Path :=
  let components := path.components
  (List.range components.length).map fun n => ofComponents (components.take (n + 1))

/-- Goes one component further from a place given by names from the root, the last first. -/
def descend (place : List String) : Component → List String
  | .root => []
  | .here => place
  | .up => place.tail
  | .name text => text :: place

/--
The names from the root that a path leads to once dots are followed, for a path that
starts at `place`, given by its names from the root.
-/
def resolveFrom (place : List String) (path : Path) : List String :=
  (path.components.foldl descend place.reverse).reverse

/-- The names that a path leads to, with the dots followed. -/
def resolve (path : Path) : List String :=
  resolveFrom [] path

end Path

end MapReplica
