import KeywordDocs.Markup.Document
import KeywordDocs.Page.Markdown
import KeywordDocs.Page.Template

/-!
# Library Pages

The page of a library: the template with its placeholders filled in.
-/

namespace KeywordDocs.Page

open Text Markup Highlight

variable (config : Json) (k : Keyword) (name : String)

def keywordId : String :=
  replace " " "-" (lower name)

def nameText : Value → Except Fault String
  | .str s => .ok s
  | _ => .error .missingAttribute

structure ShownMember where
  name : String
  value : String
  isText : Bool

structure ShownParameter where
  name : String
  type : String
  default : Option String
  members : Option (List ShownMember)

structure ShownKeyword where
  name : String
  parameters : List ShownParameter
  returns : Option String

def shownMember (m : EnumMember) : ShownMember :=
  match m.value with
  | .str s => ⟨m.name.display, s, true⟩
  | v => ⟨m.name.display, v.display, false⟩

def shownParameter (p : Parameter) : Except Fault ShownParameter := do
  let (name, type) ← p.pair
  let info ← lookupName k.enums name
  return ⟨name.display, type.display, ← shownDefault k name info,
    info.map fun info => info.members.map shownMember⟩

def shownKeyword : Except Fault ShownKeyword := do
  return ⟨← nameText k.name, ← k.parameters.mapM (shownParameter k),
    if showsReturnType k then some k.returnType else none⟩

def memberLines (m : ShownMember) : List String :=
  ["                <div class=\"enum-member\">",
    "                  <span class=\"enum-member-name\"><code>" ++ m.name ++ "</code></span>",
    "                  <span class=\"enum-member-separator\">=</span>",
    "                  <span class=\"enum-member-value\"><code>" ++
      (if m.isText then "\"" ++ m.value ++ "\"" else m.value) ++ "</code></span>",
    "                </div>"]

def enumLines (members : List ShownMember) : List String :=
  ["            <div class=\"enum-container\">", "              <div class=\"enum-header\">",
    "                <span class=\"enum-label\">Allowed values</span>",
    "                <span class=\"enum-count\">" ++ Number.ofInt members.length ++
      " options</span>",
    "              </div>",
    "              <div class=\"enum-members-grid\">"] ++
  members.flatMap memberLines ++
  ["              </div>", "            </div>"]

def defaultLines (default : Option String) : List String :=
  (default.map fun s =>
    "               <span class=\"badge badge-default\">default: " ++ s ++ "</span>").toList

def argumentLines (p : ShownParameter) : List String :=
  ["          <div class=\"argument-item\">", "            <div class=\"argument-header\">",
    "              <span class=\"arg-name\">" ++ p.name ++ "</span>",
    "              <span class=\"arg-separator\">:</span>",
    "              <span class=\"arg-type\">" ++ p.type ++ "</span>"] ++
  defaultLines p.default ++
  ["            </div>"] ++
  (p.members.map enumLines).getD [] ++
  ["          </div>"]

def argumentsLines (ps : List ShownParameter) : List String :=
  if ps.isEmpty then []
  else ["      <div class=\"args\">", "        <h4>Arguments</h4>",
      "        <div class=\"arguments-list-container\">"] ++ ps.flatMap argumentLines ++
    ["        </div>", "      </div>"]

def returnLines (type : String) : List String :=
  ["      <div class=\"return-type\">", "        <h4>Return Type</h4>",
    "        <span class=\"arg-type\">" ++ type ++ "</span>",
    "      </div>"]

def overviewLines (s : ShownKeyword) : List String :=
  if s.parameters.isEmpty && s.returns.isNone then
    ["    <div style=\"margin-bottom: 1rem;\"></div>"]
  else ["    <div class=\"kw-overview\">"] ++ argumentsLines s.parameters ++
    (s.returns.map returnLines).getD [] ++ ["    </div>"]

def brokenImage : Recogniser (List Char) := fun _ cs => do
  let rest ← dropPrefix? "!<a href=\"".toList cs
  let (target, rest) ← filledUpTo '"' rest
  let rest ← dropPrefix? ['>'] rest
  match rest.span (· ≠ '<') with
  | ([], _) => none
  | (label, rest) =>
    let _ ← dropPrefix? "</a>".toList rest
    return ("<img alt=\"".toList ++ replaceAll entities label ++ "\" src=\"".toList ++ target ++
      "\" />".toList, 10 + target.length + 2 + label.length + 4)

def mendImages (s : String) : String :=
  String.ofList (replaceFinds brokenImage s.toList)

def docLines : List String :=
  if k.description.isEmpty then []
  else
    ["    <div class=\"kw-docs\">", "      <h4>Documentation</h4>",
      "      <div class=\"kwdoc doc\">",
      "        " ++ mendImages k.description,
      "      </div>",
      "    </div>"]

def contentLines (id : String) (s : ShownKeyword) (docs : List String) : List String :=
  ["  <div class=\"keyword-name\">",
    "    <h2><a class=\"kw-name\" href=\"#" ++ id ++ "\">" ++ s.name ++ "</a></h2>",
    "  </div>",
    "  <div class=\"keyword-content\">"] ++ overviewLines s ++ docs ++ ["  </div>"]

def sectionLines (id : String) (s : ShownKeyword) (docs : List String) : List String :=
  ("<div class=\"keyword-container\" id=\"" ++ id ++ "\">") :: contentLines id s docs ++ ["</div>"]

def keywordSection : Except Fault String := do
  let s ← shownKeyword k
  return unlines (sectionLines (keywordId s.name) s (docLines k))

def keywordLink : Except Fault String := do
  let name ← nameText k.name
  return "<li><a href=\"#" ++ keywordId name ++ "\">" ++ name ++ "</a></li>"

def setting? (key : String) : Option Json :=
  (config.field? key).filter Json.isTruthy

def metaFields : List (String × String) :=
  [("author", "Author"), ("maintainer", "Maintainer"), ("license", "License"),
    ("robot_framework", "Robot Framework"), ("python", "Python")]

def libraryMeta : String :=
  let parts := metaFields.filterMap fun (key, label) => (setting? config key).map fun v =>
    "<span><strong>" ++ label ++ ":</strong> " ++ v.display ++ "</span>"
  if parts.isEmpty then ""
  else "<div class=\"hero-meta meta-grid\">" ++ String.join parts ++ "</div>"

def websiteIcon : String :=
  r#"<svg height="18" aria-hidden="true" viewBox="0 0 24 24" width="18" fill="currentColor"><path d="M12 2a10 10 0 1 0 10 10A10.011 10.011 0 0 0 12 2Zm6.93 9H16.2a17.459 17.459 0 0 0-1.18-4.495A7.953 7.953 0 0 1 18.93 11Zm-7.93 8a15.417 15.417 0 0 1-1.458-4h2.916A15.417 15.417 0 0 1 11 19Zm-1.458-6a13.7 13.7 0 0 1 0-2h2.916a13.7 13.7 0 0 1 0 2Zm-3.25-2a13.116 13.116 0 0 1 .4-2h2.365a13.472 13.472 0 0 0 0 4H6.692a13.116 13.116 0 0 1-.4-2Zm4.708-6a15.417 15.417 0 0 1 1.458 4h-2.916A15.417 15.417 0 0 1 11 5Zm-2.02.505A17.459 17.459 0 0 0 7.8 11H5.07A7.953 7.953 0 0 1 8.98 5.505ZM5.07 13H7.8a17.459 17.459 0 0 0 1.18 4.495A7.953 7.953 0 0 1 5.07 13Zm9.95 4.495c.42-1.282.728-2.64.892-3.995h2.188a7.953 7.953 0 0 1-3.08 3.995Z"></path></svg>"#

def repositoryIcon : String :=
  r#"<svg height="18" aria-hidden="true" viewBox="0 0 24 24" width="18" data-view-component="true" class="octicon octicon-mark-github v-align-middle"><path fill="currentColor" d="M12 1C5.923 1 1 5.923 1 12c0 4.867 3.149 8.979 7.521 10.436.55.096.756-.233.756-.522 0-.262-.013-1.128-.013-2.049-2.764.509-3.479-.674-3.699-1.292-.124-.317-.66-1.293-1.127-1.554-.385-.207-.936-.715-.014-.729.866-.014 1.485.797 1.691 1.128.99 1.663 2.571 1.196 3.204.907.096-.715.385-1.196.701-1.471-2.448-.275-5.005-1.224-5.005-5.432 0-1.196.426-2.186 1.128-2.956-.111-.275-.496-1.402.11-2.915 0 0 .921-.288 3.024 1.128a10.193 10.193 0 0 1 2.75-.371c.936 0 1.871.123 2.75.371 2.104-1.43 3.025-1.128 3.025-1.128.605 1.513.221 2.64.111 2.915.701.77 1.127 1.747 1.127 2.956 0 4.222-2.571 5.157-5.019 5.432.399.344.743 1.004.743 2.035 0 1.471-.014 2.654-.014 3.025 0 .289.206.632.756.522C19.851 20.979 23 16.854 23 12c0-6.077-4.922-11-11-11Z"></path></svg>"#

def supportIcon : String :=
  r#"<svg height="18" aria-hidden="true" viewBox="0 0 24 24" width="18" fill="currentColor"><path d="M19.25 4H4.75A2.75 2.75 0 0 0 2 6.75v10.5A2.75 2.75 0 0 0 4.75 20h14.5A2.75 2.75 0 0 0 22 17.25V6.75A2.75 2.75 0 0 0 19.25 4Zm0 1.5c.129 0 .252.027.363.076L12 11.14 4.387 5.076A1.25 1.25 0 0 1 4.75 5.5Zm0 13H4.75A1.25 1.25 0 0 1 3.5 17.25V7.46l7.87 6.04a.75.75 0 0 0 .88 0l7.87-6.04v9.79A1.25 1.25 0 0 1 19.25 18.5Z"></path></svg>"#

def websiteButton (url : Json) : String :=
  "<a class=\"btn btn-primary\" href=\"" ++ url.display ++
    "\" target=\"_blank\" rel=\"noopener noreferrer\">" ++ websiteIcon ++
    "<span>Library Website</span></a>"

def repositoryButton (url : Json) : String :=
  "<a class=\"btn btn-ghost\" href=\"" ++ url.display ++
    "\" target=\"_blank\" rel=\"noopener noreferrer\">" ++ repositoryIcon ++
    "<span>View on GitHub</span></a>"

def supportButton (address : Json) : String :=
  "<a class=\"btn btn-ghost\" href=\"mailto:" ++ address.display ++ "\">" ++ supportIcon ++
    "<span>Contact Support</span></a>"

def heroActions : String :=
  let buttons := ((setting? config "library_url").map websiteButton).toList ++
    ((setting? config "github_url").map repositoryButton).toList ++
    ((setting? config "support_email").map supportButton).toList
  if buttons.isEmpty then "" else "<div class=\"hero-actions\">" ++ String.join buttons ++ "</div>"

def issueButton : Except Fault String :=
  match setting? config "github_url" with
  | none => .ok ""
  | some (.str url) =>
    .ok ("<p style=\"margin-top: 1rem;\"><a class=\"btn btn-primary\" href=\"" ++
      trimRightOf (· == '/') url ++
      "/issues/new\" target=\"_blank\" rel=\"noopener noreferrer\">Open an Issue on GitHub</a></p>")
  | some _ => .error .missingAttribute

def sampleUsage : String :=
  unlines ["*** Settings ***", "Library    " ++ name, "", "*** Test Cases ***", "Example",
    "    [Documentation]    Demonstrates using " ++ name,
    "    # add your keyword calls here"]

def introduction (body : String) : String :=
  "<section class=\"keyword-container intro-section\">" ++
    "<div class=\"keyword-name\"><h2>Introduction</h2></div>" ++
    "<div class=\"kw-overview\"><div class=\"kw-docs\"><div class=\"intro-content\">" ++ body ++
    "</div></div></div></section>"

def introSection (highlighting : Bool) (description : Value) : Highlighting String := do
  if !description.isTruthy then return ""
  if !highlighting then return introduction description.display
  match description with
  | .str s => return introduction (← document none s)
  | _ => throw .missingAttribute

def fillingText (v : Value) : Except Fault String :=
  if !v.isTruthy then .ok ""
  else match v with
    | .str s => .ok s
    | _ => .error .wrongKind

def placeholder : String :=
  "\x7b\x7b" ++ name ++ "\x7d\x7d"

def fillings (lib : Library) (now : String) (highlighting : Bool) :
  Highlighting (List (String × Value)) := do
  let links ← (lib.keywords.mapM fun k => return (← keywordLink k, ← keywordSection k) :
    Except Fault _)
  let intro ← introSection highlighting lib.description
  let issues ← issueButton config
  let name := shownName config lib
  let sample := sampleUsage name.display
  let sample ← if highlighting then highlightCode (some config) sample else pure sample
  let indent := "\n        "
  return [("LIBRARY_NAME", name), ("VERSION", lib.version), ("SCOPE", lib.scope),
    ("KEYWORD_COUNT", .str (Number.ofInt lib.keywords.length)),
    ("KEYWORD_LIST", .str (join indent (links.map (·.1)))), ("INTRO_SECTION", .str intro),
    ("KEYWORDS_SECTION", .str (join indent (links.map (·.2)))), ("LAST_UPDATE", .str now),
    ("LIBRARY_META", .str (libraryMeta config)), ("HERO_ACTIONS", .str (heroActions config)),
    ("SAMPLE_USAGE", .str sample), ("GITHUB_ISSUE_BUTTON", .str issues)]

def fill (template : String) (values : List (String × Value)) : Except Fault String :=
  values.foldlM (fun text (name, v) => do
    return replace (placeholder name) (← fillingText v) text) template

def html (template : String) (config : Json) (lib : Library) (now : String)
  (highlighting : Bool) : Highlighting String := do
  fill template (← fillings config lib now highlighting)

end KeywordDocs.Page
