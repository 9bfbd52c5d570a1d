import MapReplica.Text.Blank

/-!
# Letters and digits

The characters that words consist of: the letters and digits of ASCII, and every
character beyond ASCII that is no blank.
-/

namespace MapReplica.Text

/-- The characters that words consist of. -/
def isWordChar (c : Char) : Bool :=
  c.isAlphanum || (0x80 ≤ c.toNat && !isBlank c)

end MapReplica.Text
