import MapReplica.Number.Numeral
import MapReplica.Text.Word

/-!
# Filters of messages

A filter is a list of directives with commas between them. A directive is a level, a
target, or a target, a span in square brackets with its fields in braces, and a level
behind an equals sign, of which all but one may be missing. Blank directives count as none.
-/

namespace MapReplica.Logging

/-- The names of the levels in directives. -/
def directiveLevels : List String := ["trace", "debug", "info", "warn", "error", "off"]

/-- Whether a text is a level: its name in any case, its number from zero to five, or nothing. -/
def isDirectiveLevel (text : List Char) : Bool :=
  let named := directiveLevels.contains (String.ofList (text.map Char.toLower))
  let numbered := match Number.read Number.max64 text with
    | .ok n => decide (n ≤ 5)
    | .error _ => false
  text.isEmpty || named || numbered

/-- Which part of a directive the next character belongs to. -/
inductive DirectivePart where
  | start
  | levelOrTarget
  | span
  /-- In a field; `empty` tells whether nothing of it was read. -/
  | field (empty : Bool)
  | behindFields
  | behindSpan

/-- Whether a target or level may begin with a character. -/
def beginsTarget (c : Char) : Bool :=
  c == '-' || c == ':' || c == '_' || Text.isWordChar c

/-- Whether the rest of a directive is well formed. -/
def acceptsDirective : DirectivePart → List Char → Bool
  | .levelOrTarget, [] => true
  | .behindSpan, [] => true
  | _, [] => false
  | .start, c :: rest =>
      if c = '[' then acceptsDirective .span rest
      else beginsTarget c && acceptsDirective .levelOrTarget rest
  | .levelOrTarget, c :: rest =>
      if c = '=' then isDirectiveLevel rest
      else if c = '[' then acceptsDirective .span rest
      else acceptsDirective .levelOrTarget rest
  | .span, c :: rest =>
      if c = ']' then acceptsDirective .behindSpan rest
      else if c = '{' then acceptsDirective (.field true) rest
      else acceptsDirective .span rest
  | .field empty, c :: rest =>
      if c = '}' then !empty && acceptsDirective .behindFields rest
      else acceptsDirective (.field false) rest
  | .behindFields, c :: rest => c = ']' && acceptsDirective .behindSpan rest
  | .behindSpan, c :: rest => c = '=' && isDirectiveLevel rest

/-- Whether a directive is blank or well formed. -/
def isDirective (text : List Char) : Bool :=
  let text := Text.trim text
  text.isEmpty || acceptsDirective .start text

/-- Whether all directives of a filter are well formed. -/
def isFilter (text : String) : Bool :=
  (text.toList.splitOn ',').all isDirective

end MapReplica.Logging
