import KeywordDocs.Page.Html

/-!
# Filters

A list of choices by which the libraries of a dashboard can be narrowed down.
-/

namespace KeywordDocs.Site

open Text

def filterKeys : List (String × String) :=
  [("Author", "author"), ("Maintainer", "maintainer"), ("License", "license"),
    ("RF Version", "rf_version"), ("Python", "python")]

def isVersionLabel (label : String) : Bool := label == "RF Version" || label == "Python"

def filterOption (option : Value) : Except Fault String := do
  let text ← Page.nameText option
  return "<option value=\"" ++ lower text ++ "\">" ++ text ++ "</option>"

def filterHtml (label id : String) (options : List Value) : Except Fault String := do
  if options.isEmpty then return ""
  let options ← options.mapM filterOption
  let key := (filterKeys.lookup label).getD (replace " " "_" (lower label))
  let all := if isVersionLabel label then "All Versions" else "All " ++ label ++ "s"
  let allKey := if isVersionLabel label then "all_versions" else "all_" ++ key ++ "s"
  return "<div class=\"filter-group\">
        <label class=\"filter-label\" data-i18n=\"" ++ key ++ "\">" ++ label ++ "</label>
        <select id=\"" ++ id ++ "\" class=\"filter-select\">
            <option value=\"\" data-i18n=\"" ++ allKey ++ "\">" ++ all ++ "</option>
            " ++ String.join options ++ "
        </select>
    </div>"

end KeywordDocs.Site
