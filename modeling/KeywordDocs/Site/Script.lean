import KeywordDocs.Text.Indent

/-!
# The Scripts

What a dashboard does in a browser: searching, filtering, sorting, grouping and exporting.
-/

namespace KeywordDocs.Site

open Text

def translationKeys : List String :=
  listed ' ' "site_name dashboard_title site_description libraries library total_keywords
search_keywords search_libraries no_libraries_found available_libraries sort_by sort_name_asc
sort_keywords_desc export_as filters clear_all author maintainer license rf_version python version
all_authors all_maintainers all_licenses all_versions generated_by last_updated keyword keywords
groups back_to_groups metadata"

def translations : List (String × String) :=
  [("en", "|Ү||ʳ|ɤ|ǀ ʄ|Ȑ ʔšȐ ʿšNo ʿ fƌ.|AvailŪ ʳ|Sİ by:|ŨǶ|KȞ Ǌ (ų)|Ȋ as|ȋs|CleěAll|Ȉ:|ˣ:|ɖ:|RF ɘ˞ɘ|All Ȉs|All ˣs
All ɖs|All ɘs|Ȍtǌ|Last Ȼd|ɢ|ʔ|ƽs|ĂBackřƽs|ȍta"),
   ("es", "|PanelŒDɩación||Bʽs|bʽ|PʆClĠ ǀes|BuscěpʆclĠšBuscěbʽsšNo ĹencĮraron bʽs.|Bʽsɂibles|OrdeněpoȮbreǶ
CantidadŒpʆclԅiěToӕcia:|VersiónδVersiónɶlos ƻesɶlos ˤeƕdĞlĞƾciaƕdĞlĞɘes|GenѬctuęzación|palabra clĠ|pʆclĠ
ɔĂVolĿĈɔȍtos"),
   ("fr", "|TŪauŒBįŒDɩǂ||Bͻs|bͻ|Mʖ TotauxЩmʖ...ЩbͻsšAucune bͻ trouvée.|Bͻsɂibles|TriĦpaȮǶ|NombreŒmʖ (ų)|ȊĦcomme
Filtreƕut Effacer|Auteur:|MĘteneur:|ƾce:|ɘδɘ|Tous les Auteurƕus les MĘteneurƕutes les ƾceƕutes les ɘs
Généré par|DernièĶmiĹà jour|mot-clé|mʖ|ƽes|ĂRetour aux ǒes|Métadonnées"),
   ("de", "|Dokumĥǂs-Dʈ||Σ|BiblioĽk|Gesamt-˥örļ|˥örtĦsuchenšΣ suchenšKeine Σ gefunden.|VerfügbaĶΣ|Sİieren nach:|ŨǶ
˥İanzahl (abst)|Ȋieren als|ȋ|AlĭLöschen|ƻ:|Wartung:|Lizenz:|RF-ɘ˞ɘ|Alĭƻen|AlĭWartungen|AlĭLizenzen
Alĭɘen|Erstellt von|Zuletzt aktuęsiert|˥İ|˥örļ|Gruppen|ĂZurück zu Gruppen|ȍten"),
   ("zh", "|文档仪表板||库|库|总Ń|搜索Ńš搜索库š未找到库。|可用库|排序方式:|名称Ƕ|Ń数量 (降序)|导出为|筛选器|清除全部|作者:|维护者:|许可证:|RF 版本˞版本ŀ作者ŀ维护者ŀ许可证ŀ版本
由生成|最后更新|Ń|Ń|分组|Ă返回分组|元数据"),
   ("ja", "|ドキュメントダッシュボード||ǰ|ǰ|総Ǭ数|Ǭββが見つかりません。|利用可能なǰ|並び替え:|名前Ƕ|Ǭ数 (降順)|エクスポート|フィルター|すべてクリア|作成者:|Ǯ:|ǯ:|RF ǭ˞ǭǩ作成者
すべてのǮǩǯǩǭ|生成元|最終更新|Ǭ|Ǭ|グループ|Ăグループに戻る|メタデータ"),
   ("pt", "|PĘelŒDɩação||Bʽs|bʽ|ǀŒPȓs-chĠ|Pesquisěpȓs-chĠšPesquisěbʽsšNenhuma bʽ encĮrada.|Bʽsɂíveis|OrdeněpoȮeǶ
CĮėmŒpȓs-chԅěTuӕça:|VersãoδVersãoɶos ƻesɶos ˤeƕdĞĞƾçaƕdĞĞVersões|GѬtuęzação|pȓ-chĠ|pȓs-chĠ|Grupos
ĂVoltěpara ɔȍdos"),
   ("ru", "|Панель Документации||Бʟи|бʟа|łго Кǫых Слā|ПоискϓšПоиск бʟšБʟи не найдены.|Доступные Бʟи|Сΐпо:|Имя (А–Я)
Количествоϓ (убыв)|Экспΐкак|Фильтры|Очистить ł|Автор:|αий:|Лицензия:|ƝияδƝия|ł Авторы|ł αие|ł Лицензии
ł Ɲии|Создано|Последнее обнāление|кǫое слāо|кǫые слāа|Группы|ĂНазад к группам|Метаданные"),
   ("it", "|Dʈ Dɩazione||Lȥe|lȥa|ParoĭChiĠ ǀi|Cerca ωšCerca lȥešNessuna lȥa trovata.|Lȥeɂibili|Ordina peȮeǶ
CĮeggio ω (disc)|Espİa come|Filtri|Cancella Tutto|ƻe:|Manutĥore:|ƾza:|ɘeδɘe|Tutti gli ƻi
Tutti i Manutĥori|Tutte ĭƾze|Tutte ĭɘi|Ȍto da|Ultimo aggiorƆnto|parola chiĠ|ω|Gruppi|ĂTorna ai gruppi
ȍti"),
   ("ko", "|문서 대시보드||Ǳ|Ǳ|총 ń|ń 검색šǱ 검색šǱ를 찾을 수 없습니다.|사용 가능한 Ǳ|정렬 기준:|이름Ƕ|ń 수 (내림차순)|내보내기|필터|모두 지우기|작성자:|Ɵ자:|ƞ:
RF 버전˞버전ƛ작성자ƛƟ자ƛƞƛ버전|생성자|마지막 업데이트|ń|ń|그룹|Ă그룹으로 돌아가기|메타데이터")]

def translation (language : String × String) : String :=
  let entries := translationKeys.zip (listed '|' (String.ofList (spelledOut language.2)))
  "    " ++ language.1 ++ ": \x7b\n" ++
    join ",\n" (entries.map fun e => "        " ++ e.1 ++ ": '" ++ e.2 ++ "'") ++ "\n    \x7d"

def visibleCards : String := "țɴCĜƐͽs.ȟ(ŰŎŰ.ǥ.ɞƦ'ƈɿɴCĜϩşalert('No ʿřȝŝ˸ņ"

def cardFields : String := "ɴҴțƆĆŰЏh2 a')?ΞƯ'ʁɳĆŰЏ.ǃ')?Ξ.replace('ɘ: Č'Ўʔӏɢ-Ǌɉ0'ʁȔӏȔЎ˰ӏ˰ЎɥӏɥЎrfɘӏЅЎȭӏȭɉ';ňGet d˨Ǻdataˑ ǐ, fĚŮřɟ Ɩ
țd˨ӏd˨-Ɩ')ɼЏ.ɤ-d˨')?Ξ?ƴ()Ư'ɏ"

def csvRow : String := r#"țeǡCSVĆ(val)ǹż!val) ɮ''ʁstrĆStrħ(valɊstr˜',')Śstr˜'"')Śstr˜'\n')şɮ'"' + str.replace(/"/g, '""') + '"č~
ɮstr;
~ɏȜs.push([
eǡCSV(ƆθɳθʔθȔθ˰θɥθrfɘθȭθd˨)
]Ɍ,'))ȅ"#

def script : String :=
  "// Dashboard JavaScript
// Translation dictionary
const translations = \x7b\n" ++ join ",\n" (translations.map translation) ++ layOut 4 (r#"
~;
ňT˵ ʎˊtʙPė(ƀ˘tĆt˵s[ƀҢǳTʙ ɟsǼʹˑ (skipŔt˵ʤ)
ʋѿս·s
ʋѿ[ʹ-·ӈĬĆelҏi18n-·ԫ.·ӭȬ ɟs
ʋѿȬսɢ Ǌĉ ɤ Ɠs
ʋѿ[ʹ-ɢ-ǊӈǊΖelҏi18n-ɢ-Ǌ'), 10)ʁɢTextĆǊƧ1 ? t.ɢ : t.ʔ;
elΞĆ`$^Ǌ~ $^ɢText~`ȅǳStoĶʕ˺
ӪʕČƀƱ
		ϗʕ on pėƫ
ʋѾDOMɒLoadedČʎ(ş		ƵǤ ʕ˺ŗɝřEnglishƣϻӸʕɉen'ʁΨӘџɿΨşΨʮϻ;
tʙPė(ϻĎȿLĨenƩʕ șs
Ψԙϻш;
tʙPė(ϻĎƵ-rĤerΚĉƭƇʕ (Ǌs Ɩ)ƢҶϦШŞđIf ɜlyĉsideĈǒ ƙ, refreshƭȣ ƅĊoƢɜũƧђŊϜş҇ϜƱ~
~)җɤɇϒ (ɠ ɤ Űs)ɁΉӘȡ-ȶ˖ˁӘ˲˖ψӘϧ');ƣբňũƨǒžǣƣɜũōĚ'; đ'Ě' | 'ǒs' | ђƣң đnormęzģǒ Ĭŗnull
ǳSİ ʿ ʎˊѷByʪψԐņͽѤ^ƢƑByǷƆ-asc'˘ƆAĆaҏΫЎƆBĆbҏΫɉčȱƬA.ǘeCompare(ƆB)λƑByǷʔ-ų'˘ǊAΖaԧțǊBΖbԧɮǊB - ǊA; đDeϪĄɮ0ȅă
Ƶ-appĤ ƑģŰs
ɤҴψκŰĎ~)җƑ ʌɁƑȑӘɤ-ƑɿƑȑ) ^ЬƑ˺ ҺǠSİӸƑɿǠSİşƑȑʮǠSİŦňPrǏ natī ʌ ƋħƮ disŪd via ƙ ǣ
ƑȑѾmousedownη) ^ӬТŞ~ʢƑȑԙđDisŪ ƑĉļacƗƮ showħΚӬТŞƵĺřƁ Ǡǻřavoid visual șɁǤdӸƑɿǤdşƑȑʮǤdŦ˸țƑǁш;
ѷǁ);ňSĠřά
ӪƑČƑǁ)ȅȿIȩ Ƒ (uĹǠ˺ŗɝĊƬ A-Z)
ѷȑ.ǨƱǳȋ ʿ ʎˊȟʳ(ʪψԐȿGet ȟǻsɁȟȈԁȔԋȟˣԁ˰ԋȟɖԁɥԋȟϛԁЅԋȟȎԁȭ')?.ǨƯ')ΟŞԇɁЁƐȟȈŚȟˣŚȟɖŚȟϛŚȟȎʁǇĖӘρɿǇĖ) ^
ǇĖԴ~
ȿGetɇ ǜɁΊĆΉ ? Ή.Ǩƴ()ϖ : 'čȿȋ ɤ ŰsƣɴƼĆ0;
ɤҴđȉȶ mŬƣɦȐĆtrue;ƢΊ.ϦțɤŨӏΫЎɤD˨ӏɤ-d˨ɉčɦȐĆɤŨ˜Ί)ŚɤD˨˜ΊƱ	ȿȉȟ ɦɁŰȈӗȔӺˣӗ˰ӺɖӗɥӺϛӗЅӺȎӗȭɉ')ϖɏțɦȈĆ!ȟȈɼȈƧȟȈ;
țɦˣĆ!ȟˣɼˣƧȟˣʁɦɖĆ!ȟɖɼɖƧȟɖʁɦϛĆ!ȟϛɼϛƧȟϛʁɦȎĆ!ȟȎɼȎƧȟȎ;
ňȉǒ mŬƮĉ ǒ-ʿ ƙɁŰƽӗǒɉ')Ο˗ɦƽĆ(
ɜũƦђ ||
!Ϝ ||
(ϜǷξ'Ŋ!Űƽ) ||
(ϜƧŰƽ)
Ď	ȿShow ŰŔit ɦ Ě criļiaƢɦȐŊɦȈŊɦˣŊɦɖŊɦϛŊɦȎŊɦƽşŰѓ'čɴƼ++ͲŰӁȽȿShow/hide no Ȱs messėƢɴƼƧ0şˁӆȾćˁӠ~
ǪϗɠɁֆşƵǤ Ǡ ȟ Һղ	ņ՜đSĠřάƢտȽǳվլşΧՉϹӁҁ~ƱǳBuild ɠ ʷ ŧˊ͵sʲ(ʪwǕ.˪) ɮ''ƸɁ˪ĆwǕ.˪ʁ͵ɕ(Ǘ, ʍ, Ȭs)ǹż!ȬsŚȬϩ) ɮ'';
țĚLabelĆǗ˜'ɘ') ? 'All ɘs' : `All $^Ǘ~s`ʁȬsɕȬs.map(optŎǴ`<ȬǻĀ$^optϖ~">$^opt~</Ȭ>`
)Ɍŝɮ`ǴΡȟ-ǒʨ<ǗœĀ$^ʍ~ʧȟ-Ǘ">$^Ǘ~</Ǘĕȷƪ$^ʍ~ʧȟ-ȷ"ƺѹ">$^ĚLabel~</Ȭ>
$^Ȭsŧ~
ăϮˉŅ`;
~Ƹ
ɮ`Ыɠ-ӣɠɋśЪρʧρŠҬεǇ_Ě">CleěAll˟ΑΡȟȴʨ$^͵ŧ('Ȉ˼ȔϕȔұˣ˼˰ϕ˰ұɖ˼ɥϕɥұRF ɘ˼ЅϕrƉFʘұȎ˼ȭϕȭs)~ǴҘ`ŦǳBuild ȝ ʷ ŧ
ʎ buildȊʲ(şɮ`Ыȝ-ӣϠʨԣcsv">CSV˟ԣeƚ">Eƚ˟ԣpdf">PDF˟ƠҘ`җȟϒˊӵ˘ֆ˘ղ՜żտȽȿվΧsʬʍΗȷӷɊȷşȷՉҁϹӁ~Ʊԇˊҽ(şżϹ˘ЁƐΧs.some(ʍŎ^
țȷӷĎɮȷŊȷ.ǨȅϹԴ~ĄȿUpdğ Ǉ ȗ on ȟ ș
լşΧѾșČҽĎȽҽ()җɠ ȺɁɠʴӘѭ');ƣɠѩɀɠʴşɠʴԔʀĚow ɠցɠʲҌjĢ ɠ ʷɁɠɕ͵sՎɠŧ;
ɠՂɠՈȟϒ
ӵՔɠʴԻ
ɠʲɍŞɠѩɠʴӠȽ~
ǳIȩ ȟ applicǂ
ҁ
//Ǹ ƽħƨƙ ȺǸɁ˹Әƙ-ĚŠ˖όӘƙ-ǒsŠ˖ƙTǚElӘƙ-Ⱥ˖˭Әǒȴ˖ϣӘυ˖ϿRootӘҝ˖ϿŨӘУ-Ɔ˖ѯӘˬ-ʿ˖ѝӘˬ-ʔ˖ǒBackĖӘϢ˖χsӑ.ѡ-ʏȣ-ʊŝɁg˄Ć^~;
ˊŲuteG˄(ʪͽsԐƣφƐfalse;

ɤҴțrawƽӗǒɉ')ƴ˗ɢƼΖŰԧƣĬ;ƣǗ;Ƣ!rawƽşĬōξčǗōUnǒed'ͲĬĆrawƽϖ;ňConĿtřTitĭCaseƩɞ
ǗĆrawƽǴ	.split(/\s+/)
.ȟ(Boolean)
.map(wįŎwį.charAt(0).toUpperCase() + wį.slice(1))
Ɍ ŝƠφƐtrueŦƢ!ЀşЀ =ćǗ,
ɤƼ: 0,
ɢƼ: 0,
~;ŉЀ.ɤƼ += 1;
Ѐ.ɢƼ += ɢƼȅňIf noƬd ǒĸhideŗdisŪ ǒģƙ ȺƢ!φsŊƙTǚElşƙTǚElӁ~
ΰШ(ʪ˭˙ɁĬƐҶȟ(kŎkƦ'ξ˖φƐĬs.ȧ > 0;
ƣźō'ʁˆƐt˵s[ϻҢƢφsşĬѤͺa].Ǘ.ǘeCompare(ͺb].Ǘ)ĎĬsʬĬΗŽĆЀԖ
	Օ	ԏ
	Ց	ź +ʂώΩ ˫" ǋǒ-ĬĀ$^Ĭ~śէ	<ոśպ	ƹ>
ν˫-ƅśռ	μʠ	ΑƠ`ȅ~
Ƣͺ'ξ']˘ŽĆͺ'ξ']Ԗ
Օԏ
Ցź +ʂ	ΡΩ ˫ ˫-unǒed" ǋǒ-ĬĀξċէ<ոċպƹ>
ν˫-ƅċռμ	ɐΑŅ`;ŉ˭Ȁɕź;

˭ѿ.˫')ʬŰǹŰӰ^ɁĬӏǒ-Ĭɿ!Ĭ˙ҸĬĎ~)ȅΰ҇ĬʪϣŚ!Ѐ˙țŽĆЀ;

ϿŨΞĆŽ.ǗʁˆĆt˵s[ϻҢżѯşѯΞĆ`$^Ž.ɤƼ~ $^ˆ.ʿƯʿ'~`Ŧżѝ˘ɢTextĆўƧ1Ǵ? (ˆ.ɢƯɢ')
: (ˆ.ʔƯʔŝŅѝΞĆ`$^ў~ $^ɢText~`ŦΰʛƙşɜũĆƙ;
Ƣ˹ŊόşđHɡt "ʳ" Ɗĉ flat ƙ,ƨ"ƽs"ƩbothňĽΚ oĿƙŐƭǒ-ʿ sub-ʸ.
˹Ѩ'ҪČƙǷĚŝόѨ
'Ҫ',
vХŚӌ
ƱƢ˭ş˭ѓvХ ? 'ŷΛ~
ƢψşψѓƙǷĚ'Śӌ ? 'ŷΛ~
Ƣϣşϣѓӌ ? 'ŵΛ~
ňVisuĚyĉdicğ disŪd ʊƮ showħΚƢχsşχsѨ'јČvХƱňPersĨ ɜϳ ǣ
ըƙՇƢƙǷĚ'şңŉҁΰϽ(ʪҶȧ˙ңƢˁşˁӠ~
ʛ'ǒsŝΰҸĬşϜĆĬ;
҇ĬĎʛђĎΰŮToƽs(şң
ʛ'ǒsŝŁϗǒħ
ŲuteG˄(ɊҶϦШ(ƱƢ˹Ŋόş˹Ӱʛ'Ě')ĎόӰϽ()ƱƢϿRootşϿRootԬżǒBackĖşǒBackĖԬǳȊϒˊȝToCSV(ş"# ++ visibleCards ++ "խ" ++ cardFields ++ "// Escape CSV values
" ++ csvRow ++ r#"ăɁcsvɒĆȜsɌ\ԪƖ/csvւcsvյEƚ(ş"# ++ visibleCards ++ "đȌte Eƚ-ŲatibĭCSV wĩϰpropĦEƚ Ƌħ
խ" ++ cardFields ++ csvRow ++ r#"ȿAddϰEƚ ŲatibilityɁcsvɒō\ufeff' + ȜsɌ\Ԫapplicǂ/vnd.ms-eƚւxlsxյPDF(ş"# ++ visibleCards ++ r#"đCreğĈǛ-friĤly ɳɁΈĆwǕ.Ƌ('Č'_blankɿ!Έşalert('PleaĹĚow popupsřȝ ĞPDFŝ˸ăɁsiteŨӑ.ʸɋ h2')?ΞƯҮ';
țȝDğĆƇDğ().toLocaleStrħ()Ƹƣźɒ ʂ<!DOCTYPE źĕźĕȢǲǧ>ʳ Ȋ - $^siteŨ~</ǧĕǥĔƠůćςArial, sans-serif;
ɫ: 2Ē;ʡ333Ŧh1 ^ʡȁ;
ȕʫ2˃#ȁ;
ɫʫ1ĒŦtŪϑ;ɸʉ: ʉ;
Ȩ-ľ: 2ĒŦth, tdćѪ#ddd;
˳2px;
ήƂŦthć˧-ə#ȁ;
əwhite;
τboldŦtr:nth-child(evenş˧-ə#f9f9f9Ŧ.ƅ ^ʡ666;
σ9em;Ћ2ĒŦǲ/ǥȇЖŅ<h1>$^siteŨ~</h1>
Ρƅ">Ȋed: $^ȝDğ~ | ǀ ʳ: $^ɴCĜs.ȧ~ɐ<tŪĔǲtȢ		ǲtrƺǲth>LǓy ŨˡɘˡʄˡȈˡˣˡɖˡRF ɘˡȎˡD˨</th>ǴŇtrȇŇtȢ<tůƺ`Ƹ
"# ++ cardFields ++ r#"țeǡHtmlĆ(Ɩ)ΗՏ;
~ɏźɒ +ʂ	<trĔǲtdϚƆӀɳӀʔӀȔӀ˰ӀɥӀrfɘӀȭӀd˨)~</tdƺŇtrȇ`;ʢźɒ +ʂŇtůƺŇtŪȇЕă`Ƹ
Έ.ʋ.write(źɒĎΈ.ʋ.closeŞȿWaitƩɛĊƫ,Řn triggĦǛ
ĺɗ(()ǹΈ.ǛŞ~, 250ƱǳȊ ʌϒňȊ ȷϒňȊ ȺϒɁȝʴӘњ');ƣȝѩɀȝʴşȝʴԔʀĚow ȝցȝʲҌjĢ ȝ ʷɁȝɕbuildȊՎȝŧ;
ȝՂȝՈȝ ȗ handlersɁȝOpƗĖƐȝʲѿ.љŝȝOpƗĖsʬbtnǹbtnԔțŶatĆthisҏȝŝƠɀŶatǷcsv'şȝToCSV()λŶatǷeƚ'şȝToEƚ()λŶatǷpdf') ^
ȝToPDFŞȽ~ՔȝʴԻ
ȝʲɍŞȝѩȝʴӠȽ~
ɀΉ) ^Ьȶ ǜ ҺǠȐӸȶɿǠȐşΉʮǠȐ՛Ή.ӛsհȶ ǜ ՆȶԶȶ'Ʊ	ņƵ-get Űs aftĦƑž(in caĹDOM șd)
բ	ȿApply ɠ (which Ȧesɇ)
ҁ~);ƤˊeǡHtml(Ɩ˘Տҗɢɇĉ ȣɁѰӘϥ˖ҔӘҧŝǳTrack ĬboĜʥon ǣƣҼ;ƣқɀѰşletɇɗƸЬɢɇ ҺǠKȞȐӸɢ_ȶɿǠKȞȐşѰʮǠKȞȐ;ňTriggerɇřshow Ȱs
țǏĆƇEvĥ('ǖČ^ bubbles: true ~ĎѰ.ӛɢSհɢɇ Նɢ_ȶԶɢ_ȶ'Ʊ	ņǇɗ(ȶɗ)ɏżǜ.ȧƧ0մ˸	ȿDebounceɇ
ȶɗĆĺɗ(()ǹđLoadŐɇ ǔƩʔ Ɗ
fetch('asĺs/ɯǔ.json')Ǵ	.Ľn(responseŎresponse.json())
.Ľn(ǔǹʀȶ ʔɁȰƐǔ.ȟ(ſǹżſ.ƘǷɢ'şɮſ.ɢϖ˜ǜƱɮfalse;
~).slice(0, 10); đLimitř10 ȰsƩʌ
ŅņɜRǎƐȰs;
Ҽ; Ƶĺ ȷion
ӤĎ~)
.cŬ(errorǹconsole.error('Ӈ:ČerrorĎկϞԕ">ӇȆčқҼȅŅ~, 200)ȅȿKeyboĜʥonœɇ ǖ
ѰѾĬdownηʪҔӟŚɜRǎϩş˸ŅɁ˷ƐҔѿ.Ѷŝ	ȿArrow down - moveřnext ȰЊArrowDown'şТŞϫʃ(҆ + 1) % ˷s.ȧ;
ȻHɡt(˷sĎȵToH˯(˷s[҆]ƱŅ
đArrow up - moveřprevious ȰЊArrowUp'şТ(Ɋ҆ <= 0şϫʃ˷s.ȧ - 1Ͳ҆--;
~աEntĦ- Ƌ ȷģȰЊEnļ'Ŋ҆ >= 0şТ˗ȷedIĻĆ˷s[҆]ʁƄĆȷedIĻЏaɿƄşwǕ.locǂ.hrefĆƄ.hrefŦ~ʢʯʌƮ ǈžıside
ʋѾǈηʪѰ.ɚs(e.ȹ)Ŋ!Ҕ.ɚs(e.ȹ)şҔӠҼ;
ȽȿGlobal ĬboĜ shİcuts
ʋѾĬdownηşđPress '/'řǑ ɢɇ (ƊӲ)Њ/'Ŋ!e.shiftˢctrlˢƅˢaltKey˘οĆʋ.οʁϤĆοŊ(
ο.tagŨǷINPUT'Ś
ο.tagŨǷTEXTAREA'Ś
ο.isɒEditŪ
);Ǵ
ʀǑӲƢ!ϤşТŞѰ.ǑŞѰ.ȷŞ~ƤǳPress 'Eǡ'řcloĹʌƨblurɇЊEǡ'şʯʌŔƋƢҔӟմ~ňAlways blurɇ ǖŔit's ǑedƢʋ.οƧѰşѰ.blur(ƱȽă
ʎ ȻHɡt(˷sş˷sʬ(ſ, ǔ)ǹżǔƧ҆şſ˛.add('h˯')Ͳſ˛ɍ('h˯'Ʊ~ƱăˊȵToH˯(ɟşżɟ) ^
ɟ.ȵIntoũ(^ behavior: 'smoothČǄ: 'nearest' ~Ʊ~ƤˊӤşżȰϩşկəvar(--muted)ԕ Ѯ;">No ʔ fƌȆčҼ;
˸ņҔӆҔȀɕȰs.map(ſŎ`ЫѶʩaɃ$^ſ.url~ʧέ"Ϛſ.ɢ)~</a>
ΡΫ"Ϛſ.ɤ)~Ҙ`)ɌŝņƵĺ ȷionƮ ƇȰȲɞed
Ҽ;ŉ//Ǹ PersĨƨreǤϳ ǣ acrossʥonǸ
ňWhen usĦǈsĈɤ Ű Ƅ, ķembĦɜϳ/ǒɁɤLinkƐʋѿ.Ω h2 aŝɤԼըƁՇ~)ȅňOnƫ, ǐ reǤ persĨĥϳ (for dirĢ visĪ / Ƈtabs)
try ^Ɂ˂RawӸƙ_ǣɿ˂Raw˘˂ĆJSON.parse(˂RawɊ˂Ŋ˂՝˂ &&
˂.ӌ &&
˂ʭ &&
ͺ˂ʭ]
şҸ˂եňThen, ifʥng ŮǺa ɤ pė, oĿrideǼƁ ʸ ǣ (one-time)
try ^ɁʾRawӸƁ_ǣɿʾRaw˘ʾĆJSON.parse(ʾRawĎάɍЗƁ_ǣŝƢʾŊʾ՝ʾ &&
ʾ.ӌ &&
ʾʭ &&
ͺʾʭ]
şҸʾե~Ď"#)

def searchScript : String := "// Search functionality
// This file is loaded by dashboard pages for search functionality
"

end KeywordDocs.Site
