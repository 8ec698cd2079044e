import KeywordDocs.Site.SearchIndex

/-!
# Generated Cards

Cards of libraries for a site of any size. Authors, maintainers, licences and groups take turns, so
that a dashboard has something to filter by.
-/

namespace KeywordDocs.Workload

open Site

def numbered (word : String) (n : Nat) : Value := .str (word ++ Number.ofInt n)

def card (keywords i : Nat) : Card :=
  let n := Number.ofInt i
  { name := some (numbered "Lib" i)
    url := .str ("Lib" ++ n ++ "/index.html")
    keywords := some ((List.range keywords).map fun (k : Nat) => some {
      name := .str ("Kw " ++ n ++ " " ++ Number.ofInt k)
      doc := "Doc for " ++ Number.ofInt k })
    description := .str ("Library number " ++ n ++ " for benchmarking")
    version := .str ("1." ++ n ++ ".0")
    keywordCount := .int keywords
    author := numbered "Author" (i % 3)
    maintainer := numbered "Maint" (i % 2)
    license := .str (if i % 2 = 0 then "MIT" else "Apache-2.0")
    robotFramework := .str "5.0"
    python := numbered "3." (8 + i % 4)
    group := if i % 5 = 0 then .none else numbered "Group" (i % 4) }

def cards (libraries keywords : Nat) : List Card := (List.range libraries).map (card keywords)

end KeywordDocs.Workload
