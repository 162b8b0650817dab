import Infill.Text.Utf8

/-!
# Delimiters

The pair of texts between which a placeholder stands.  A pair asked for with an empty side is the
default pair; pairs that together exceed a size limit cannot be searched for.
-/

set_option autoImplicit false

namespace Infill.Template

/-- The texts that open and close a placeholder. -/
structure Delimiters where
  opening : Text
  closing : Text
  deriving DecidableEq, Repr

namespace Delimiters

/-- Two braces on either side. -/
def default : Delimiters := ⟨['\x7b', '\x7b'], ['\x7d', '\x7d']⟩

/-- The pair asked for; if either side is empty, the default pair. -/
def ofPair (opening closing : Text) : Delimiters :=
  if opening.isEmpty || closing.isEmpty then default else ⟨opening, closing⟩

/-- The size, in bytes, that a search may take up. -/
def searchLimit : Nat := 10485760

/-- What one byte of a delimiter takes up in a search. -/
def searchCost : Nat := 32

/-- Whether a search for the pair stays within the size limit.  Only the bytes of the delimiters are counted.
The search also has a fixed number of states for the text between them, so that pairs within a few bytes of the
limit may be refused although they count as fitting here. -/
def fits (d : Delimiters) : Bool :=
  decide (searchCost * ((Utf8.encode d.opening).length + (Utf8.encode d.closing).length) ≤ searchLimit)

end Delimiters
end Infill.Template
