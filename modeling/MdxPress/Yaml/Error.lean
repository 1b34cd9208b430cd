import MdxPress.Text.Basic

/-!
# YAML errors

Why a text is no YAML, or no YAML that a value can hold, and why a value cannot be written.
-/

namespace MdxPress.Yaml

/-- The causes of failure. -/
inductive Error where
  /-- A control character, which no document may hold. -/
  | controlCharacter
  /-- A character that begins nothing. -/
  | strayCharacter
  /-- A key that its line does not follow up with a colon. -/
  | missingColon
  /-- A sequence entry, a key or a value where none may begin. -/
  | misplacedIndicator
  | badDirective
  | badAnchor
  | badTag
  | undefinedTagHandle
  /-- The line that begins a block scalar holds something else. -/
  | badBlockHeader
  /-- A tab where an indentation of spaces is expected. -/
  | tabIndentation
  /-- A quoted scalar that does not end, or not in its document. -/
  | unclosedQuote
  | badEscape
  /-- A colon inside a plain scalar of a flow collection. -/
  | plainColon
  /-- The scanner did not get on; never the case. -/
  | stuck
  /-- Collections that do not nest, or parts that make no node. -/
  | misplacedPart
  | unknownAlias
  | recursiveAlias
  /-- Aliases that would repeat too much. -/
  | tooManyAliases
  | tooDeep
  | duplicateKey
  | integerRange
  /-- A scalar that does not fit the type its tag gives. -/
  | tagMismatch
  | severalDocuments
  /-- A tagged value right inside another, or as the key of a mapping with no other entry: neither
  can be written. -/
  | nestedTags
  deriving DecidableEq, Repr

/-- An error in words. -/
def Error.message : Error → Text
  | .controlCharacter => "control characters are not allowed".toList
  | .strayCharacter => "found a character that cannot start any token".toList
  | .missingColon => "could not find the colon of a key".toList
  | .misplacedIndicator => "an indicator is not allowed in this context".toList
  | .badDirective => "found a directive that cannot be read".toList
  | .badAnchor => "found an anchor or alias without a name".toList
  | .badTag => "found a tag that cannot be read".toList
  | .undefinedTagHandle => "found an undefined tag handle".toList
  | .badBlockHeader => "did not find a comment or line break behind a block indicator".toList
  | .tabIndentation => "found a tab where an indentation space is expected".toList
  | .unclosedQuote => "found the end of the document inside a quoted scalar".toList
  | .badEscape => "found an escape that cannot be read".toList
  | .plainColon => "found an unexpected colon".toList
  | .stuck => "could not go on".toList
  | .misplacedPart => "did not find the expected part of a collection".toList
  | .unknownAlias => "unknown anchor".toList
  | .recursiveAlias => "an alias refers to the node that holds it".toList
  | .tooManyAliases => "repetition limit exceeded".toList
  | .tooDeep => "recursion limit exceeded".toList
  | .duplicateKey => "duplicate entry".toList
  | .integerRange => "integer out of range".toList
  | .tagMismatch => "scalar does not fit its tag".toList
  | .severalDocuments => "more than one document".toList
  | .nestedTags => "a tagged value cannot hold a tagged value".toList

end MdxPress.Yaml
