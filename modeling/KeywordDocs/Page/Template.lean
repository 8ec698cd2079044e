import KeywordDocs.Text.Indent

/-!
# The Page Template

The page every library is shown in. Names in double braces stand for what differs from library to
library.
-/

namespace KeywordDocs.Page

open Text

def pageFront : String := layOut 2 "<!docƘө	<ƅ charĺĀutf-8ċՀċԵՄՊ<ǧ>Ө</ǧĕǥ>
" ++ styleRules 2 r#"ă։Ƥ	ջŁźćȵ-behavior: smoothֈΔǅԞ7ʰlogo imgː36Ĳʐ36ĲѫժΔtagƃЍ8ҕŁˮΘŵǵ1.2ƍσ9ɬˮ aѻɫʫ0.1ķɸȖҳŁˮ aʱə$(Ɩ)ӦƜͿъ˧ȃ
πϺϼΓͰ-Ƃ: ŭ
҅z-ǔ: 31ԉȘƥͿʱҚͿ svgː24Ĳʐ24Ĳѫ.layıΘŷҲ260ĳЄmin-ʐƶ
ʞćӴɫ: calc(1.25Ǝ+ 10Ĵ 1.5ȯƷәto Ȗ,э95),э7))Ҿʐƶγƶѧσ9ƍίˈфƥІъ˴fixed
ľŤѠȖŤі˾5)ˌ25ˋ0
Чƈ
ίɪфƥІ.Ȓ ^ˋ1
Чŭ
ʞ h2Ѝ9ƷԠ12em
ЙȨŤЉ ^Ћ1ǿЉ ulҋ΅Ȩť2ţŋ
Љ liΙ.1ǝ
Љ aѻΆ12ǝ
Ҝ
Љ aʱϺƜɢƳҋ΅Ȩ:ˎ 0
ϡ6ķѧǊer-reĺ: ɢ-ǔҫΙҫ.Ȥъҟć҅ʺǄ
ЙΆ45Ӌ0.5ƷȕҳЂ4
Ӛ5)
ί˧ Πȕ-ǉ Πǉ Πˈą1ȳҫ + lićϨ1ƷҟҐǊer(ɢ-ǔ) ". "
Ǌer-incķĥ: ɢ-ǔ
ϡ2ҕɪť9
҂)
ҟȄԘҟ:Ǒ-ɴԒ6)
ıƃ-offĺ: 2Ĳҟ.Ȓˏəѵ7)
їҟ.Ȓ::beforećҚɯboxćϨ6Ͱ-Ƃ: -5pxƥɯbox ǖϑΓ5Ӌ6pxӜӉ8)
Ϻϡʰɯbox ǖ:ǑԒ4Ǿ˲ѻѮΓ4ǝŉmĘć˳.75Ǝ2.4Ǝ3ɬ.ŹΘŷҲɧ0, 1.8fr) ɧ0, 1.2fr)ǵ2ķЋ2.2ķ҈ƥŹ h2ćʻ: 2.2ƍѢ4ɬ.Ź ԥɬ.Ź-ǃs ^Ԋ5ţ
Ȩť8ķŌ.2ʰǃЍ7ƍѳ5ƷՍ9)
ϟӳ4Ǿǃ.primary ^ӦҚǃ.ǃ-ɝ ^҉ѳ6ƍȨ-Ƃť4ƍі34,197,94ď15)ɸəǞ34,197,94ď3)ʡ4ade80
ћҜ
Ђ4
ҙƜŹ-acƗs ^Ԋ8ƍѢ7ʰbtn ^Юҹɹ4ķΓ5Ɏ9ƍҙϡƷȕҳѦƈ
ύnowrapƥbtn-primaryćԎľ Ƃ, #ȁ, #0ea5e9 45%, #0369a1 Ţӳ4)ʡ0b1120
ϝ10ĳ30ĳѵ4Ǿbtn-ghostćӚ75)ɸə$(ȕ)
Ғbtnʱҩ-1Ĵ
ϝ12ĳ35ĳѵ5)
Ѧƈƥbtn-ghostԌ)
Ϻȕ-ҚŹ-ƅЍ8ƍϟ)ҿ^Ԋ5ʚ
Ϩ3ţҿƒ ^Юŵɹ2ţ҈
ϟ)ҿȸćϺќƜʼćϸ1.2ƍԎľ, ѵ2),ѐ)ӜԜ˳Ǝ1ȯ2ķ҉Ɯʼɋ ^ϯjustify-ɛ: ϋ҈
Ѣ4ƷҒʼ-ǧ ^҉Ԡ14em
Қʼ-ƀԃ72ķΓ1ǝ.4ƍՍ85)ŉprećӉ95)
ϸ0.ȂΆ9ʚ
ѣȕҡ҂)
σ78ƍЂ5ƥɢ-ʷćӚ9)
ϸ1ķӜ˳ȯ1ƍσ92ƍԜȨʫ1.ʰɢ-Ɔ h2ΙϏ1ƍҚkw-oĿƙϱ1ķЋ1ƍʺŷɹ8ʰĝs,
.ȱ-Ƙ,
.ɣ ^Ӝϸ0.ȂΆ8ƷӉ75Ǿĝs h4,
.ȱ-Ƙ h4,
.ɣ h4Ιŋ.4ƍσ78ƍѱ08em
Ӄ
ҒʇsƳ-ʷ ^ԡ7ʰʇ-ſդӄƥʇ-ſʱӉ8ӳ3ǾʇɋԞƷϾƥĝ-Ɔԃ8ƍќі15,76,204ď15)Γ3Ӌ6ĲѪǞ15,76,204ď3)
Қĝ˚ѻϡƷτ400ƥĝ-ƘԃȂѪǞ255,255,255ď2)
ѳ6ƍҙЙӚ5)
Ҝ
Ђ4ƥȱ-Ƙ .ĝ-Ƙ ^҉ѳ6ƍЂ4ƥŴ-ǨsҋȨ:ˎą5ǝ
΅ɵŢƥŴ-ʷդϨʰŴɋćԿ
Ѣ6Ʒɫʫ0ǿӿƜŴ-Ǘ ^҉ќїԠ05emƥŴ-ǊЍ7ҕ҂)Γ1Ɏ4ƍΤѵ1)
ϸ4ĲѪѵ2)
Јȴ ^Թ20ϘťƷЈԞţΓɎ6ƷӚ8)
Ѫѵ15)
ϸ6Ĳӄ
҂)҉ЈԌ5ӳ3)
ҩ-1Ĵ
Ј-ƆćїќЈ-Ɔ űćҷ΅πїќЈ˚ѻτ300
Ј-ǨćϺτ400
Ј-Ǩ űӮ1)Γ1Ɏ3Ʒϸ4ĲѪѵ2)
Ϻτ400ŉ@Ӗ.Ŵ-memberȴӞ
~Ąɷ^
σ92ƍϺ~
ɷűԃ78ƍΤѵ08)
ѳ3Ʒϸ4pxЌι-tŪϑɸʉ: separğɸspacħŤЃȕ: 2˃$(ȕ)
ϸ0ǿЦ
Ӊ75)
ϝ2ĳ8ĳǞ˾2)ЌŘadҍĽadӮ1)Ќ thҍthϐ6Ɏ8ƷήƂ
ќїӿӴϡţЌ thͱҍthͱˏǟȃЌ tdҍtdϐ6ǝ.8ƷӿӴϺϡ8ķЌ tdͱҍtdͱˏǟȃЌ ʜͱ tdҍʜͱ tdˏȖȃЌ ʜȄҍʜȄӮ05)Ąɷimgι imgć;Ţ
ʐŭ
ϸ0.ţӜЃʺǄ
ϝ4ĳ12ĳǞ˾3Ǿű-Ǆćі15, 23, 42,ą6)Ӝϸ8ĲЃѣƜű-Ǆ preΙ
˳ƍ҂)ҊЂ6
Ϻύpre
ѣϸ0
πҷŁՅϡҕήȘ
ԎȖ,Ҡ,ѐ)ŉ@Ӗ.ՃӞ
ʞ֊ϑ
~ŉ@Ѳ1024pxş.Ճ ^ҲЄʞ֊ϑŉmĘć˳.25ȯ4Ǝ2ǿ~ŉ@Ѳ64Ēşȣϐ7ʚŉˮъƜŹ ^ҲЄƜŹ h2 ^Ϗ7ƍ~Ą"# ++ layOut 2 r#"ŇǥĔЖ	<ȣĔώǅ">ЫlogoʩՋϷ Logośˉ<ġ>
ǲh1>˦NAME~~</h1>
Ρtagƃ">Ϸ ɤ ʋǂҘɐ<navȇ<aɃ#intro">OĿƙ</aĕaɃ#ʔ">ʄ</aĔŇnavĕȗɺͿ"ƪͿ" aria-ǗĀTǚ menu"ȇ<svg ձʩˀ3ǽ12ϔ12˔<ˀ3ǽ6ϔ6Ŝƃ>
<ˀ3ǽ18ϔ18˔Ņƹƺ˟Ňȣ>

ΡІ"ƪІ">ɐ
Ρlayı"ƺ<asideȇӼGettžStarted</h2ĕulĔǲli><aɃ#intro">IntroducƗ</a></liƺŇulĔˉ
Ӽʄ</h2>
Ρɯboxʨ<ǖ ƘĀƖ"ƪϥ" ·ĀȐ ʔ…ċΑ<ulɺɢƳ"ƪɢƳʨ"#

def pageMiddle : String := layOut 2 r#"
ǲ/ulĔˉ	Ňaside>

<mĘȇ<ɰƪintroʧŹʩġĔǲh2>Ө</h2ƺņΡŹ-ǃsʨ	<!-- νǃ primary">Ϸ LǓyɑ -->
νǃ">ɘ ^^VERSION~~ɑ
νǃ">Scope ^^SCOPE~~ɑ
νǃ">^^KEYWORD_COUNT~~ ʄμ	ɐ^^HERO_ACTIONS~~
˦META~~
ΑΡʼʨΡʼɋʨ	Ρʼ-ǧ">SampĭUsėɐΡʼ-ƀ">RƉɐ	Α<preɺʕ-rƉ"><ű>^^SAMPLE_USAGE~~</ű></pre>
Α		Ňɰ>

^^INTRO_SECTION~Ł<ɰƪʔ">Ǵ"#

def pageBack : String := layOut 2 "
		Ňɰ>

<ɰɺɢ-ӣɢ-Ɔʨ<h2>NeģHelp?</h2>
ΑΡkw-oĿƙʨΡɣʨ	<pƺƠFƌŏissueŗhĠĈfeatuĶɭƩthis ɤ? Letƭ˰s know by ƋħĈnew
GitHub issue. PleaĹȦe environmĥ detailsƨrelevant log ıputřhelp us Əoduceƭproblem.ǴŇp>
^^GITHUB_ISSUE_BUTTON~~
	ΑΑ		ŇɰĔŇmĘ>
ʠ
<ȠƺȌtǌշӨ · Last Ȼd: ^^LAST_UPDATE~~
ŇȠ>

<scriptƺțΉӘϥ˖ͼӘɢƳ˖˱ӘͿ˖ɱӑaside˖ϭӘІŝˊȶʄ(˘ļmĆ(Ή.ǨƯ')ϖƴ˗ĥrieƐͼѿli');ƣɦĆ0;

ĥriesʬ(ĥry)ΗƖĆĥryΞΟ˗hitĆƖ˜ļmĎĥryѨ'ȤČ!hitɊhit) ɦ++ȅƣˁĆͼЏ.˲ɿ!ɦŊļmʪˁşˁӐliŝˁ.ǆŨō˲čͼκˁƱˁΞōNo ʔ fƌ'λˁşˁɍŞ~Ą
ʎ ȺSidebar(şżӅ˘isActīĆɱӟʁȣHǍӑȣ').offĺHǍƸɀ!isActīşđOpen ɱ - ĺ up ǥs ǐ
ɱѓ'Ǆёvisibilityōɴёɪō1ёposiƗōfixedёľĆȣHǍ + 'pxёƂō0ёwŻō28ĒёmaxWŻō85vwёhǍĆ`calc(ƶ - $^ȣHǍ~Ĵ`;
Ϭzʃ'26ёթ'ƸȿEnsuĶɱ starts off-screen
ϬՙăȿUĹҞřensuĶtĵsiƗŕappliģbefoĶchangžˈ
Ҟ(()ǹҞ(()ǹϬˈōΎ0)ёȼTĵsŶōΎ0)čɱӆϭӆ~Ď~)Ͳʯɱ
ϬթёՙɱӠϭӠ~ĄΰΦ(şżӅşϬթёՙ~
ɱӠϭӠ~
ƢΉŊͼşsӥǖ',ɇʄĎsӥĬupČ(Ǐ)ǹżǏ.ĬǷEǡ'şΉʮ'čȶʄŞΉ.blur(Ʊ~ƱƢ˱ŊɱŊϭş˱ӓȺSidebarĎϭӓΦ)ɏʯɱƮ ǈžonĈƄ (mobiĭƊ)ɁɱLinkƐɱѿa');
ɱԼżӅşΦŞȽ~ƱƢͼ˘ɢLinkƐͼѿa[href" ++ "^" ++ layOut 2 r#"Ā#"]ŝ
Ņʎ ѥŸʪŸşɢҵƄӠƄɍҭ')ȅ˸
ɢҵżƄ.ŸƧŸşƄӆƄ.ĺҭČ'true')ͲƄӠƄɍҭŝȽΰҖ(˘ŸĆwǕ.locǂ.Ÿ;
ѥŸƱ
wǕѾŸșČҖĎ
ɢԼѥƄ.ŸĎ~)ȅ
ϗȒ ǣ onƫ
Җ();Ƥˠ	Е
"#

def pageTemplate : String :=
  pageFront ++ "\x7b\x7bKEYWORD_LIST\x7d\x7d" ++ pageMiddle ++ "\x7b\x7bKEYWORDS_SECTION\x7d\x7d" ++ pageBack

end KeywordDocs.Page
