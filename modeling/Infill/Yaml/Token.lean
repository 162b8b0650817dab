import Infill.Text.Utf8

/-!
# Tokens of YAML

What a stream is made of, and what can be wrong with one.
-/

set_option autoImplicit false

namespace Infill.Yaml

/-- How a scalar is written. -/
inductive Style where
  | plain
  | quoted
  | block
  deriving DecidableEq, Repr

/-- A piece of a stream.  Starts and ends of block collections have no characters of their own. -/
inductive Token where
  | streamEnd
  | version (major minor : Nat)
  | tagHandle (handle : Text) (stem : Bytes)
  | documentStart
  | documentEnd
  | blockSequenceStart
  | blockMappingStart
  | blockEnd
  | flowSequenceStart
  | flowSequenceEnd
  | flowMappingStart
  | flowMappingEnd
  | blockItem
  | flowComma
  | key
  | value
  | alias (name : Text)
  | anchor (name : Text)
  | tag (handle : Text) (suffix : Bytes)
  | scalar (text : Text) (style : Style)
  deriving DecidableEq, Repr

/-- What was met in place of YAML. -/
inductive Fault where
  | controlCharacter
  | colonMissing
  | itemOutOfPlace
  | keyOutOfPlace
  | valueOutOfPlace
  | strangeCharacter
  | badDirective
  | badAnchor
  | badTag
  | badEscape
  | badBlockHeader
  | tabInIndentation
  | quoteNotClosed
  | colonInFlow
  | strangeToken
  | unknownAnchor
  | unknownHandle
  | severalDocuments
  deriving DecidableEq, Repr

namespace Fault

/-- The wording of a fault. -/
def message : Fault → String
  | controlCharacter => "a control character is not allowed"
  | colonMissing => "a key is not followed by a colon"
  | itemOutOfPlace => "a sequence entry is not allowed here"
  | keyOutOfPlace => "a key is not allowed here"
  | valueOutOfPlace => "a value is not allowed here"
  | strangeCharacter => "a character cannot start any token"
  | badDirective => "a directive is malformed"
  | badAnchor => "an anchor or an alias is malformed"
  | badTag => "a tag is malformed"
  | badEscape => "an escape sequence is malformed"
  | badBlockHeader => "the header of a block scalar is malformed"
  | tabInIndentation => "a tab stands where indentation is expected"
  | quoteNotClosed => "a quoted scalar is not closed"
  | colonInFlow => "a colon is not expected in this plain scalar"
  | strangeToken => "the structure of the document is malformed"
  | unknownAnchor => "an alias names an unknown anchor"
  | unknownHandle => "a tag has an undefined handle"
  | severalDocuments => "there is more than one document"

end Fault
end Infill.Yaml
