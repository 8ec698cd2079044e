import KeywordDocs.Number.Written
import KeywordDocs.Text.Search

/-!
# Generated Sources

Sources of libraries of any size. The keywords take turns in six forms, with parameters with and without
types, defaults of every kind, enumerations, and variadic parameters.
-/

namespace KeywordDocs.Workload

open Text

def sampleDocument : String := "
# Heading One
## Heading Two
### Heading Three
#### Heading Four
##### Heading Five
###### Heading Six

This is a paragraph with **bold**, __strong__, *italic*, _emph_, ++under++,
~~strike~~, and `inline code` plus a [link](https://example.com).
An identifier_like_token should be protected. ``half** fix.

- bullet one with `code`
- bullet two with **bold**
- bullet three

paragraph following list breaks it.

| Col A | Col B | Col C |
| ----- | ----- | ----- |
| a1    | b1    | c1    |
| a2    | b2    | c2    |

text right after table.

---

```robot
*** Settings ***
Library    Collections
Resource   common.resource

*** Test Cases ***
My Test Case
    [Documentation]    Example test    # trailing comment
    $\x7bvalue\x7d=    Set Variable    42
    @\x7bitems\x7d=    Create List    a    b    c
    &\x7bmap\x7d=    Create Dictionary    k=v    name=$\x7bvalue\x7d
    Log    message    level=INFO    # a comment
    FOR    $\x7bi\x7d    IN RANGE    3
        Log    $\x7bi\x7d
    END
    IF    $\x7bvalue\x7d > 0
        Log To Console    positive
    ELSE
        Fail    negative
    END
    Unknown Keyword    arg1    arg2=foo
```

```python
def foo(x: int) -> int:
    return x * 2
```

```weirdlang
nothing to highlight here but still rendered
```

![Alt Text](https://example.com/img.png)
! [spaced alt](https://example.com/img2.png)

Final paragraph with <html> & \"quotes\" to escape.
"

def repeated (n : Nat) (s : String) : String := String.join (List.replicate n s)

structure Recipe where
  keywords : Nat
  isRich : Bool := true
  isImportable : Bool := true
  hasEnumerations : Bool := true
  hasVariadic : Bool := true

variable (r : Recipe) (i : Nat)

def shortDocument : String := "Short description.\n\n- item\n- item2\n"

structure Heading where
  mark : String
  signature : String

def usualHeading : Heading := ⟨"@keyword", "value: Any, default=None, sz: int = 0) -> str"⟩

def Recipe.heading : Heading :=
  let mark (words : String) := "@keyword('" ++ words ++ " " ++ Number.ofInt i ++ "')"
  match i % 6 with
  | 0 => ⟨"@keyword", "name: str, count: int = 3, flag: bool = True, " ++
      "data: Optional[Dict[str, int]] = None) -> List[str]"⟩
  | 1 =>
    if r.hasEnumerations then
      ⟨mark "Named Keyword", "color: Color = Color.RED, mode: Mode = Mode.FAST, *extra: Color, " ++
        "limit: int = 10, style: Mode = Mode.SLOW) -> Dict[str, Any]"⟩
    else usualHeading
  | 2 => ⟨"@keyword()", "a: int | str | None, b: typing.List[int], c: Tuple[int, str] = (), " ++
      "d=[], e=\x7b\x7d, f=dict(), g=enum.auto(), h=Color.GREEN) -> int | None"⟩
  | 3 =>
    if r.hasVariadic then
      ⟨"@keyword", "*args: str, key: str = 'x', other: float = 1.5) -> None"⟩
    else usualHeading
  | 4 => ⟨mark "Run", "path: 'strpath', ratio: float = 0.5, " ++
      "items: List[Union[int, str]] = [], cb=None)"⟩
  | _ => usualHeading

def Recipe.keywordLines : List String :=
  let h := r.heading i
  ["    " ++ h.mark, "    def do_thing_" ++ Number.ofInt i ++ "(self, " ++ h.signature ++ ":",
    "        '''" ++ (if r.isRich then sampleDocument else shortDocument) ++ "'''",
    "        return None",
    ""]

def enumerationLines : List String := [ "class Color(enum.Enum):", "    RED = 'red'",
  "    GREEN = 'green'",
  "    BLUE = 42",
  "",
  "class Mode(enum.Enum):",
  "    FAST = 1",
  "    SLOW = 2",
  ""]

def Recipe.source : String :=
  unlines ([ "\"\"\"Synthetic library module docstring.\"\"\"",
    "from robot.api.deco import keyword",
    "from typing import List, Dict, Optional, Tuple, Any, Union",
    "import enum",
    "import typing"] ++
    (if r.isImportable then [] else ["import nonexistent_dependency_xyz  # will fail"]) ++ [
    "",
    "VERSION = '9.9.9'",
    "ROBOT_LIBRARY_VERSION = '9.9.9'",
    "ROBOT_LIBRARY_SCOPE = 'GLOBAL'",
    ""] ++
    (if r.hasEnumerations then enumerationLines else []) ++ [
    "class SyntheticLib:",
    "    \"\"\"Synthetic library class.",
    "",
    "    Provides many keywords for benchmarking the docgen parser.",
    "    \"\"\"",
    "    ROBOT_LIBRARY_VERSION = VERSION",
    "    ROBOT_LIBRARY_SCOPE = 'GLOBAL'",
    ""] ++
    (List.range r.keywords).flatMap r.keywordLines ++ [
    "    def _private(self):",
    "        return 1",
    ""])

def functionLines : List String :=
  let n := Number.ofInt i
  let (mark, signature) := if i % 2 = 0 then
      ("@keyword", "a: int, b: str = 'x', c: Optional[List[int]] = None, d: int | str = 0" ++
        ") -> Dict[str, int]")
    else
      ("@keyword('Module Named " ++ n ++ "')",
        "a: typing.List[int], b: Tuple[int, str] = ()) -> None")
  [mark, "def mod_kw_" ++ n ++ "(" ++ signature ++ ":",
    "    '''Docstring for " ++ n ++ " with **bold** and `code`.'''",
    "    return None",
    ""]

def functionSource (functions : Nat) : String :=
  unlines ([ "\"\"\"Module-level synthetic library.\"\"\"", "from robot.api.deco import keyword",
    "from typing import List, Optional, Dict, Tuple",
    "import typing",
    "ROBOT_LIBRARY_VERSION = '1.2.3'",
    "ROBOT_LIBRARY_SCOPE = 'SUITE'",
    ""] ++ (List.range functions).flatMap functionLines)

end KeywordDocs.Workload
