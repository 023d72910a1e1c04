/-!
# Faults of configuration documents

Why a text is not one well-formed document with a usable value.
-/

namespace MappingSweep
namespace Yaml

inductive Fault where
  | forbiddenCharacter
  | keyWithoutValue
  | entryNotAllowed
  | keyNotAllowed
  | valueNotAllowed
  | strayCharacter
  | directive
  | anchorName
  | tag
  | blockHeader
  | tabIndent
  | unclosedQuote
  | escape
  | documentMarker
  | colonInFlow
  | grammar
  | undefinedHandle
  | unknownAnchor
  | tooManyAliases
  | tooDeep
  | scalarType
  | wideInteger
  | duplicateKey
  | severalDocuments
deriving DecidableEq, Repr

namespace Fault

def message : Fault → String
  | forbiddenCharacter => "a control character is not allowed"
  | keyWithoutValue => "a simple key is not followed by a colon"
  | entryNotAllowed => "a sequence entry is not allowed here"
  | keyNotAllowed => "a mapping key is not allowed here"
  | valueNotAllowed => "a mapping value is not allowed here"
  | strayCharacter => "a character cannot start any token"
  | directive => "a directive is malformed"
  | anchorName => "an anchor or alias name is malformed"
  | tag => "a tag is malformed"
  | blockHeader => "the header of a block scalar is malformed"
  | tabIndent => "a tab stands where indentation is expected"
  | unclosedQuote => "a quoted scalar is not closed"
  | escape => "an escape in a quoted scalar is malformed"
  | documentMarker => "a document marker stands inside a quoted scalar"
  | colonInFlow => "a colon stands before a flow indicator"
  | grammar => "the structure of the document is malformed"
  | undefinedHandle => "a tag handle is not defined"
  | unknownAnchor => "an alias has no anchor"
  | tooManyAliases => "aliases repeat too much content"
  | tooDeep => "the document is nested too deeply"
  | scalarType => "a scalar does not fit its tag"
  | wideInteger => "an integer does not fit in 64 bits"
  | duplicateKey => "a mapping has two equal keys"
  | severalDocuments => "there is more than one document"

end Fault
end Yaml
end MappingSweep
