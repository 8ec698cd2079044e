import KeywordDocs.Highlight.Variables

/-!
# Test Code in Colour

What a line of test code is decides how it is coloured: comments, section headers and titles as a whole,
settings by their name, and steps, the indented lines, by their keyword, variables and arguments.
-/

namespace KeywordDocs.Highlight

open Text

variable (config : Option Json) (line : List Char)

inductive LineKind where
  | comment
  | sectionHeader
  | setting (indent : List Char) (name : String) (rest : List Char)
  | title
  | step (indent content : List Char)
  | other

def settingRest? (name : String) (line : List Char) : Option (List Char) :=
  let body := trimChars line
  if body = name.toList then some []
  else
    match dropPrefix? name.toList body with
    | some (' ' :: _) => dropPrefix? name.toList (trimLeftChars line)
    | _ => none

def isIndented : Bool := "    ".toList.isPrefixOf line || ['\t'].isPrefixOf line

def classify : LineKind :=
  let body := trimChars line
  if ['#'].isPrefixOf body then .comment
  else if ['*', '*', '*'].isPrefixOf body then .sectionHeader
  else
    match (longestFirst settingNames).findSome? fun name =>
        (settingRest? name line).map fun rest => (name, rest) with
    | some (name, rest) => .setting (line.takeWhile isBlank) name rest
    | none =>
      if !isIndented line && !body.isEmpty && !(['['].isPrefixOf line) then .title
      else if isIndented line then
        .step (line.takeWhile fun c => c == ' ' || c == '\t')
          (line.dropWhile fun c => c == ' ' || c == '\t')
      else .other

def startsWithVariable (content : List Char) : Bool :=
  variableSigns.any fun sign => [sign, '\x7b'].isPrefixOf content

def endsName : List Char → Bool
  | [] => true
  | c :: _ => c == ' '

def leadingKeyword (names : List String) (content : List Char) : Option (String × List Char) :=
  names.findSome? fun name => ((dropPrefix? name.toList content).filter endsName).map fun rest => (name, rest)

def keywordInk (name : String) : Ink :=
  if controlWords.contains name then .control else .keyword

def highlightStep (indent content : List Char) : Highlighting (List Char) := do
  let names ← knownNames config
  learn controlWords
  if startsWithVariable content then
    return indent ++ (← highlightVariables config content)
  match leadingKeyword (longestFirst (names ++ controlWords)) content with
  | some (name, rest) =>
    if name.isEmpty then
      return indent ++ (← highlightVariables config content)
    let start := indent ++ (keywordInk name).span name.toList
    if rest.isEmpty then return start
    return start ++ ' ' :: (← highlightVariables config rest)
  | none => return indent ++ (← highlightVariables config content)

def highlightEscaped : Highlighting (List Char) :=
  match classify line with
  | .comment => return Ink.comment.span line
  | .sectionHeader => return Ink.sectionHeader.span line
  | .setting indent name rest => return indent ++ Ink.setting.span name.toList ++ rest
  | .title => return Ink.title.span line
  | .step indent content => highlightStep config indent content
  | .other => highlightVariables config line

def highlightLine (line : String) : Highlighting String :=
  if line.isEmpty then return ""
  else return String.ofList (← highlightEscaped config (Markup.escape line).toList)

def highlightCode (code : String) : Highlighting String := do
  if code.isEmpty then return ""
  let lines ← (lines (trimRight code)).mapM (highlightLine config)
  return trimRight (unlines lines)

def brighten (s : String) : String := replace "#00f" "#ffe400" (replace "#00F" "#ffe400" s)

def unwrapped (s : String) : String :=
  replace "</pre></div>" "" (replace "<div class=\"highlight\"><pre>" "" s)

def listing (language code : String) : Highlighting String := do
  if language = "robot" then highlightCode config code
  else
    let shade := (← get).shade
    return trimRight (brighten (unwrapped (shade language (trimRight code))))

end KeywordDocs.Highlight
