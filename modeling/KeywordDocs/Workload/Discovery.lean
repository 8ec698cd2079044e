import KeywordDocs.Discovery.Source
import KeywordDocs.Workload.Source

/-!
# Discovery Workload

Finds the keywords of generated sources, by loading them or, where that is not possible, by reading
how they are written.
-/

namespace KeywordDocs.Workload

open Highlight

def discovered (source : String) : Highlighting Library := do
  return (← Discovery.discover none
    { stem := "lib", isModule := true, text := source, around := fun _ => none }).2

def keywordNames (lib : Library) : Json := .arr (lib.keywordNames.map Value.toJson)

def loaded (keywords : Nat) : Highlighting Json := do
  return keywordNames (← discovered (Recipe.source { keywords }))

def functionCount : Nat := 4

def unloadable (keywords : Nat) : Highlighting Json := do
  let lib ← discovered (Recipe.source { keywords, isImportable := false })
  let functions ← discovered (functionSource functionCount)
  return .arr [.int lib.keywords.length, .int functions.keywords.length, keywordNames lib]

end KeywordDocs.Workload
