import KeywordDocs.Highlight.Classed
import KeywordDocs.Markup.Markdown
import KeywordDocs.Workload.Source

/-!
# Rendering Workload

Renders the sample document with both renderers, and one small text with each of the parts that a
renderer is made of.
-/

namespace KeywordDocs.Workload

open Highlight Markup

def renderedLength (copies : Nat) : Highlighting Nat := do
  return (← document none (repeated copies sampleDocument)).length

def renderedParts : List String := [ Markup.inline "**b** *i* `c` [l](u) ~~d~~ ++u++",
  table ["| a | b |", "| --- | --- |", "| 1 | 2 |"],
  escape "<tag> & \"q\" 'a'",
  protect "foo_bar and `already` baz_qux",
  classifiedLine "*** Settings ***",
  classifiedLine "    Log    $\x7bv\x7d    # c",
  classifiedLine "    Set    name=\"v\"    42"]

def rendering (processor : String → String) (copies : Nat) : Highlighting Json := do
  let own ← renderedLength copies
  let other ← markdownDocument processor none sampleDocument
  return .arr [.int own, .int other.length, .arr (renderedParts.map .str)]

end KeywordDocs.Workload
