/-!
# Faults

Why an operation gives no result. The causes are those of the documented language's own operations,
since documented libraries, settings and patterns are written by users and every one of them can be
of the wrong kind.
-/

namespace KeywordDocs

inductive Fault where
  | wrongKind
  | badValue
  | missingKey
  | outOfRange
  | missingAttribute
  | unboundName
  | malformedSource
  | badIndentation
  | mixedIndentation
  | endless
  | unsupported
  | badPattern
  | malformedJson
  | missingFile
  | isDirectory
  | notDirectory
  | alreadyExists
  | accessDenied
  | sameFile
  | fileSystem
  | badTransfer
  | badBase64
  | undecodable
  | unencodable
  | unknownEncoding
  | overflow
  | divisionByZero
  | unmetExpectation
  deriving DecidableEq

end KeywordDocs
