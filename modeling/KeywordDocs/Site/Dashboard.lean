import KeywordDocs.Json.Writer
import KeywordDocs.Site.SearchIndex
import KeywordDocs.Value.Arithmetic
import KeywordDocs.Value.Order

/-!
# The Dashboard

The page that lists the libraries of a site as cards, with statistics and the choices of the filters.
-/

namespace KeywordDocs.Site

open Text

variable (cards : List Card) (v : Value) (c : Card)

inductive DashboardField where
  | siteName
  | siteDescription
  | totalLibraries
  | totalKeywords
  | groupStatistics
  | libraries
  | lastUpdated
  | authors
  | maintainers
  | licenses
  | robotFrameworks
  | pythons
  deriving DecidableEq

def dashboardTemplate : List (String ⊕ DashboardField) :=
  List.map (Sum.map (untabbed ∘ String.ofList ∘ spelledOut) id) [.inl "<!DOCTYPEө<ƅ charĺĀUTF-8śՀ.0śԵ	Մ	Պ	<ǧ>",
    .inr .siteName,
    .inl r#" - Ү</ǧĔ<Ƅ relĀǥsheet"Ƀasĺs/ǥ.cssċЖ<ȣ>
ώǅ"ƺ<ՋϷʧǅ-logo" /ƺ<h1>"#,
    .inr .siteName,
    .inl r#"</h1>
ʠώȣ-ǟśώϥԑ18˓18ևϥԾ_ʔ"Ǵ·ĀȐ ʔ...ӧĔΒҧʧҧ">ɐˉʠώџ"ƺ<svgɺʕƲն"ȇ<Ț cxĀ12" cyĀ12" rĀ10ŜȚȇ<ˀ2ǽ12" x2Ā22" y2Ā12Ŝƃ>
Ņ<ʗM12 2a˝0Ō 4 10 ˝0Ō-4 10 ˝0Ō-4-10 ˝0Ō 4-10z˕ăƹƺ<ȷƪџċѹen">Englishӡes">Españolӡfr">Fĵçais</Ȭ>
ѹde">Deutschӡzh">中文ӡja">日本語ӡpt">Pİuguêsӡru">Русскийӡit">Itęanoӡko">한국어</Ȭ>
Ϯɐ	</ȣĔ
	Ρʸ-ʷċώʸɋ"ƺ<h2 ʹĀʸ_ǧ">Ү</h2ƺ<p>"#,
    .inr .siteDescription,
    .inl r#"</p>ӎʸ-Ɠs"ƺԭ"#,
    .inr .totalLibraries,
    .inl r#"ȆЫƓ-Ǘεʿ">ʳɐˉăԭ"#,
    .inr .totalKeywords,
    .inl r#"ȆЫƓ-Ǘεtotal_ʔ">ǀ ʄɐˉă"#,
    .inr .groupStatistics,
    .inl r#"ӎɯʷśώɯwrapperԑ20˓20ևȡ-ȶԾ_ʿ"Ǵ·ĀȐ ʿ...ӧ>
ˉΒ˲ʧ˲εno_ʿ_fƌ">No ʿ fƌ.Ȇӎѡśώѡɋ"ȇ<h3ɺѡ-ǧεʵ_ʿ">AvailŪ ʳ</h3>Ыȣ-ʊ"ƺώƙ-Ⱥ"ƪƙ-ȺśЪƙ-ĚŠʧƙ˽ Ҫεʿ">ʳ˟	Ъƙ-ǒsŠʧƙ˽ӹ>
ΑăώƑ-ʊʨ<ǗœĀɤ-ƑʧƑ-ǗεƑ_by">Sİ by:</ǗĔǲȷƪɤ-ƑʧƑ-ȷ"ƺѹƆ-ascεƑ_Ɔ_asc">ŨǶ</Ȭƺѹʔ-ųεƑ_ʔ_ų">KȞ Ǌ (ų)</ȬƺϮˉЪѭʧѭʨ<ո">
		ǲԆĔ	ԝ		ƹȇѺɠ">ȋsμ	<svgɺɠΜօ>
Ъњʧњ"ȇѺȝ_as">Ȋ asμ	<svgɺȝΜօĔˉˉ
ΒυʧυҬ">ЫУċЪҝʧҝӹ>ǴνУ˚">/μ<ƒƪУ-ƆʧУ-ƆŜƒȇȆЫˬʩƒƪˬ-ʿ">μνˬ˚">•μ<ƒƪˬ-ʔŜƒĔˉŅ<ȗƪϢʧϢεŮ_to_ǒs">ĂBackřƽs˟ˉ
ΒǒȴʧǒȴҬ">ɐ
Βϧʧϧ"ȇ"#,
    .inr .libraries,
    .inl r#"
ˉʠ	ɐ	
	<Ƞ>
Ѻgenerğd_by">Ȍtǌɑշ"#,
    .inr .siteName,
    .inl " · <span data-i18n=\"last_updated\">Last updated</span>: ",
    .inr .lastUpdated,
    .inl "
	</footer>
	
	<script>
		// Filter data for dynamic injection
		window.filterData = \x7b",
    .inl "
			authors: ",
    .inr .authors,
    .inl ",
			maintainers: ",
    .inr .maintainers,
    .inl ",
			licenses: ",
    .inr .licenses,
    .inl ",
			robotFrameworks: ",
    .inr .robotFrameworks,
    .inl ",
			pythons: ",
    .inr .pythons,
    .inl "
		\x7d",
    .inl r#";
	ˠ	<script srcĀasĺs/app.js">ˠЕ
"#]

def iconAttributes : String :=
  r#"width="16" height="16" viewBox="0 0 24 24" fill="none" stroke="currentColor" stroke-width="2" stroke-linecap="round" stroke-linejoin="round""#

structure MetaItem where
  shapes : List String
  key : String
  label : String

def authorItem : MetaItem where
  shapes := ["<path d=\"M20 21v-2a4 4 0 0 0-4-4H8a4 4 0 0 0-4 4v2\"></path>",
    "<circle cx=\"12\" cy=\"7\" r=\"4\"></circle>"]
  key := "author"
  label := "Author"

def maintainerItem : MetaItem where
  shapes := ["<path d=\"M16 21v-2a4 4 0 0 0-4-4H6a4 4 0 0 0-4 4v2\"></path>",
    "<circle cx=\"9\" cy=\"7\" r=\"4\"></circle>",
    "<path d=\"M22 21v-2a4 4 0 0 0-3-3.87\"></path>",
    "<path d=\"M16 3.13a4 4 0 0 1 0 7.75\"></path>"]
  key := "maintainer"
  label := "Maintainer"

def licenseItem : MetaItem where
  shapes := [r#"<rect x="3" y="11" width="18" height="11" rx="2" ry="2"></rect>"#,
    "<path d=\"M7 11V7a5 5 0 0 1 10 0v4\"></path>"]
  key := "license"
  label := "License"

def frameworkItem : MetaItem where
  shapes := ["<path d=\"M12 2L2 7l10 5 10-5-10-5z\"></path>", "<path d=\"M2 17l10 5 10-5\"></path>",
    "<path d=\"M2 12l10 5 10-5\"></path>"]
  key := "rf_version"
  label := "RF Version"

def pythonItem : MetaItem where
  shapes := ["<path d=\"M13 2L3 14h9l-1 8 10-12h-9l1-8z\"></path>"]
  key := "python"
  label := "Python"

def metaItem (item : MetaItem) (value : Value) : List String :=
  if !value.isTruthy then []
  else
    let shapes := String.join (item.shapes.map fun s => "                        " ++ s ++ "\n")
    ["
                <div class=\"library-meta-item\">
                    <svg " ++ iconAttributes ++ ">
" ++ shapes ++ "                    </svg>
                    <span class=\"meta-label\" data-i18n=\"" ++ item.key ++ "\">" ++ item.label ++ ":</span>
                    <span class=\"meta-value\">" ++ value.display ++ "</span>
                </div>
            "]

def metaItems : List String :=
  metaItem authorItem c.author ++ metaItem maintainerItem c.maintainer ++
    metaItem licenseItem c.license ++ metaItem frameworkItem c.robotFramework ++
    metaItem pythonItem c.python

def metaHtml (items : List String) : String :=
  if items.isEmpty then ""
  else r#"
                <div class="library-meta-header collapsed" onclick="this.classList.toggle('collapsed'); this.nextElementSibling.classList.toggle('collapsed');">
                    <span class="meta-toggle">
                        <svg class="meta-toggle-icon" "# ++ iconAttributes ++ ">
                            <polyline points=\"6 9 12 15 18 9\"></polyline>
                        </svg>
                        <span data-i18n=\"metadata\">Metadata</span>
                    </span>
                </div>
                <div class=\"library-meta-list collapsed\">" ++ String.join items ++ "</div>
            "

def searchText : Except Fault String :=
  if !v.isTruthy then .ok "" else (Page.nameText v).map lower

def whenGiven (f : String → String) : String :=
  if v.isTruthy then f v.display else ""

def isOne : Bool :=
  v.same (.int 1)

def cardHtml : Except Fault String := do
  let name := c.name.getD (.str "Unknown")
  let shown := (← Page.nameText name)
  let description ← searchText c.description
  let author ← searchText c.author
  let maintainer ← searchText c.maintainer
  let license ← searchText c.license
  let framework ← searchText c.robotFramework
  let python ← searchText c.python
  let group ← searchText c.group
  let count := c.keywordCount.display
  let version := whenGiven c.version fun s =>
    "<span class=\"badge\"><span data-i18n=\"version\">Version</span>: " ++ s ++ "</span>"
  let badge := whenGiven c.group fun s => "<span class=\"badge badge-group\">" ++ s ++ "</span>"
  let descriptionHtml := whenGiven c.description fun s =>
    "<div class=\"library-description\">" ++ s ++ "</div>"
  return "
            <div class=\"library-card\" 
                 data-library-name=\"" ++ lower shown ++ "\" 
                 data-library-description=\"" ++ description ++ "\" 
                 data-description-text=\"" ++ whenGiven c.description id ++ "\"
                 data-keyword-count=\"" ++ count ++ "\"
                 data-author=\"" ++ author ++ "\"
                 data-maintainer=\"" ++ maintainer ++ "\"
                 data-license=\"" ++ license ++ "\"
                 data-robot-framework=\"" ++ framework ++ "\"
                 data-python=\"" ++ python ++ "\"
                 data-group=\"" ++ group ++ "\">
                <h2>
                    <a href=\"" ++ c.url.display ++ "\">" ++ shown ++ "</a>
                </h2>
                <div class=\"library-badges\">
                    " ++ version ++ "
                    " ++ badge ++ "
                </div>
                " ++ descriptionHtml ++ r#"
                <div class="library-stats">
                    <svg width="18" height="18" viewBox="0 0 24 24" fill="none" stroke="currentColor" stroke-width="2" stroke-linecap="round" stroke-linejoin="round">
                        <path d="M4 19.5A2.5 2.5 0 0 1 6.5 17H20"></path>
                        <path d="M6.5 2H20v20H6.5A2.5 2.5 0 0 1 4 19.5v-15A2.5 2.5 0 0 1 6.5 2z"></path>
                    </svg>
                    <span data-i18n-keyword-count=""# ++ count ++ "\">" ++ count ++ " keyword" ++ (if isOne c.keywordCount then "" else "s") ++ "</span>
                </div>
                " ++ metaHtml (metaItems c) ++ "
            </div>
        "

def groupName : Except Fault String :=
  if !c.group.isTruthy then .ok "" else (Page.nameText c.group).map trim

def groupNames : Except Fault (List String) := do
  return ((← cards.mapM groupName).filter fun s => !s.isEmpty).eraseDups

def groupStatistics (count : Nat) : String :=
  if count = 0 then ""
  else "
            <div class=\"stat-card\">
                <div class=\"stat-value\">" ++ Number.ofInt count ++ "</div>
                <div class=\"stat-label\" data-i18n=\"groups\">Groups</div>
            </div>
        "

def filterProperties : List (DashboardField × (Card → Value)) :=
  [(.authors, (·.author)), (.maintainers, (·.maintainer)), (.licenses, (·.license)),
    (.robotFrameworks, (·.robotFramework)), (.pythons, (·.python))]

def distinctValues (property : Card → Value) : Except Fault (List Value) :=
  Value.distinct ((cards.map property).filter Value.isTruthy)

def filterChoices (values : List Value) : Except Fault String := do
  return (Json.arr ((← Value.sort values).map Value.toJson)).compact

def siteText (site : Json) (key missing : String) : String :=
  match site.field? key with
  | some v => v.display
  | none => missing

def dashboardHtml (site : Json) (now : String) : Except Fault String := do
  let keywords ← Value.total (cards.map (·.keywordCount))
  let groups ← groupNames cards
  let values ← filterProperties.mapM fun (field, property) =>
    return (field, ← distinctValues cards property)
  let choices ← values.mapM fun (field, vs) => return (field, ← filterChoices vs)
  let libraries ← cards.mapM cardHtml
  let field : DashboardField → String
    | .siteName => siteText site "name" "Robot Framework Libraries"
    | .siteDescription => siteText site "description" "Documentation for Robot Framework libraries"
    | .totalLibraries => Number.ofInt cards.length
    | .totalKeywords => keywords.display
    | .groupStatistics => groupStatistics groups.length
    | .libraries => String.join libraries
    | .lastUpdated => now
    | f => (choices.lookup f).getD ""
  return String.join (dashboardTemplate.map fun
    | .inl text => text
    | .inr f => field f)

end KeywordDocs.Site
