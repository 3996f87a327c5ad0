/-
# ConfigDrive.Yaml.ReadError — why a text is not one YAML value.

The causes are listed by the stage that finds them: characters, tokens, the structure of documents, and
the value that a document stands for.
-/

namespace ConfigDrive.Yaml

/-- Why a text cannot be read as one YAML value. -/
inductive ReadError
  /-- A character that YAML text may not hold. -/
  | controlCharacter
  /-- A tab where only spaces may indent. -/
  | tabInIndentation
  /-- A text that had to be a key, by its position, is not followed by a colon. -/
  | missingColon
  /-- A block sequence entry where none may stand. -/
  | entryNotAllowed
  /-- An explicit key where none may stand. -/
  | keyNotAllowed
  /-- A mapping value where none may stand. -/
  | valueNotAllowed
  /-- A character that begins no token. -/
  | unexpectedCharacter
  /-- A colon inside a flow collection that is neither part of a text nor set off from it. -/
  | unexpectedColon
  | badDirective
  | badAnchor
  | badTag
  /-- An unknown or unfinished escape in a double-quoted text. -/
  | badEscape
  /-- A quoted text that is not closed. -/
  | unclosedQuote
  /-- The header of a literal or folded text is malformed. -/
  | badBlockHeader
  /-- A directive is given twice or names another version of YAML. -/
  | unusableDirective
  /-- A tag whose handle no directive declares. -/
  | undeclaredHandle
  /-- A token that cannot stand at its place. -/
  | unexpectedToken
  /-- An alias without an anchor before it. -/
  | unknownAlias
  | moreThanOneDocument
  /-- A mapping has the same key twice. -/
  | duplicateKey
  /-- An integer that needs more than 64 bits, but not more than 128. -/
  | integerTooWide
  /-- A text does not fit the tag that is put on it. -/
  | misfitTag
  /-- Collections are nested too deeply. -/
  | tooDeep
  /-- Aliases expand too often. -/
  | tooManyAliases
  deriving DecidableEq, Repr

end ConfigDrive.Yaml
