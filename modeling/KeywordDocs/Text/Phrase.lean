import KeywordDocs.Text.Search

/-!
# Phrases

Long texts that never change, such as pages, style sheets, scripts and documentation, are kept with a letter
for every recurrent phrase.
-/

namespace KeywordDocs.Text

def spelled (place? : Char → Option Nat) (phrases : Array (List Char)) (cs : List Char) : List Char :=
  cs.flatMap fun c => ((place? c).bind (phrases[·]?)).getD [c]

def inFull (place? : Char → Option Nat) (phrases : List String) : Array (List Char) :=
  phrases.foldl (fun full phrase =>
    full.push (spelled place? full (phrase.toList.map fun c => if c = '\\' then '\n' else c))) #[]

def phrasePlace? (c : Char) : Option Nat :=
  if c.toNat < 0x100 then none else some (c.toNat - if c.toNat < 0x300 then 0x100 else 0x170)

def phrases : Array (List Char) :=
  inFull phrasePlace? (listed '@' r#"="@ов@← @			@\~\@ 0.@ = @ ^\@ a @ in@ to@">\@', @';\@);\@,0.@.\\
// @0px@: 1@>\	@>\<@Btn@age@ain@ali@all@ar @ard@arg@as @ate@ave@div@ect@ed @end@ent@er @ing@ist@ith
its@ive@key@le @ont@ord@ort@out@px\@px @px)@ran@re @rem@s, @se @set@tem@ter@the@top@ver@|所有@~\\@Все
关键字@키워드@	ă@ă\@		</@\đ@\Ł@ && @ 0 0@ 0 1@Ć'@ => @ an @ and@ be @ de @ for@ if @ is @ of @ or @ Ľ@Ċ 
 || @"Ĕ@"></@'Ď@(Ď@)ć@-btn@...|@100%@5ķ@: 0\@:ą@;Ą@HTML@Name@View@able@any @atch@auto@back@body@cĜ
code@comp@desc@enum@flex@form@grid@hash@hero@html@idth@if (@info@ħ @iĻ@lang@last@left@line@link@meta
name@new @none@obot@only@open@ound@ķ\@ķ @repr@sĆ@sİ@span@stat@sync@s|To@text@tion@type@view@xcel
|모든 @Ł.@Верс@라이선스@유지보수@	Ņ@\The @\ż@\let @Ą		@\Ɯ@ !== @ === @Ő @œ @ idĀ@ load@ Ɔ@Ř @ when@Ś'@) -> @)Ŧ
-icon@-lĨ@.trim@đRe@100vh@5ƍ@;\ă@</svg@>\ă@Autor@Count@Group@Licen@This @Total@Value@aƗ@badge@block
bĵd@class@clear@click@color@count@data-@ģby@eight@esult@evĥ@first@focus@group@ibrar@index@indow
input@label@local@must @oggle@print@query@Ǝ0@rgba(@right@sĠd@scape@space@Ɠe@store@style@that @title
value@|すべての@~\		\@лючев@キーワード@バージョン@メンテナー@ライセンス@ライブラリ@라이브러리@Ơ<@		ň@\Ơ@\gap: @ (A–Z)@Ƨ'@ =====@Ŏ^\
 from @ Ǩ@ wĩ @" y1Ā@)ƥ@.Ʒ@.inner@38bdf8@7Ʒ@: ƈ@:hoĿ@;\~Ď@</ġ>@ƺ	@Author@Check @Expİ@Filļ@Genera
Metada@Python@Return@Search@SelĢ@actī@alavra@author@bįer@bottom@button@cenļ@change@circle@const 
csvRow@expİ@eywį@filļ@fooļ@global@head>\@header@hidden@ibreri@includ@length@mĝin@nitial@objĢ@ompile
opƗ@python@r:|Nom@Ǝ1.@rǎ@return@s aĶ@s ease@s-ŷ@scroll@search@selĢ@strong@tĝet@tǚ@updğ@webkit@~\~Ď
~ else@	ǳ@		Ƣ@\ț@ Dispon@ hrefĀ@ module@ number@ Ȫ@ ȶ@ strħ@')Ư@);Ƣ@-ȣ@.join('@.ķove@ţą@Ƹ	\@Ȇ\@</ƒ>
CĮĥ@Elemĥ@Grupos|@ŧĆ@ƾse@Timeı@Version@ǉ: @cĮĘ@cĮĥ@currĥ@default@display@elemĥ@ȟs@ighligh@kȞ@kw-docs
lǓy@license@mŬes@minmax(@ntĘer@ocumĥ@opacity@paddħ@ķŉ@request@ȱ @ȶ-@secƗ@sidebar@source @Ŀsion
visible@wŻ: @|Todos @\.kwdoc @\ȕ-@ǵ0.@ ǆĀ@ ɝ@ŚŰ@" stroke@$(accĥ@'Ɋ@đOnly @;Ɂ@= `\Ņ@IndexĆ@KȞs
absolute@alabrĞ@ĝumĥ@ashboĜ@collapse@cĮrols@dɩ@dropdown@ȟId@funcƗ@ȣ .@hǍ: @instance@iļŪ@iļator@ɢs
ƀuė@ots-clés@path dĀ@ramework@ĵslğ@Ǝ1ķ@ĺũ(@tů tr@ttribute@Łaside@иблиотек@		ɐ@\ə#@\~Ďņ@ ʇ@ŕempty
 navigati@ specifie@"ɺ@śƠ@ċǲ@şż!@-Ȗ: @.forEach(@.ǒKey@.ǨĆ@đCloĹ@ţƥ@Ȅć@Coɨ@LǓies@TǚĖ@availŪ@characļ
coɨ@dʈ@ǋi18n@ɞ: @fĮ-size@Ź-Ű@iblioteca@ƁStğ@lǓies@ƃ x1Ā@noRǎs@persĨed@ĳsolid @roupStats@Ɠ-Ű@tForƽ
Ľ same @tĵsŶ@	ʠ@\ʎ @\ɪ: @\z-ǔ: @ą3ȳ@ą75ǝ@ ^ɸ@ćɵ@ aʝ@ ǣmĥ@" hǍĀ@Ŝƃ>\@Ŝpath>\@')ʁ@()ʁ@şț@) ȱ;\
-separator@.ǆLĨ@.Ȧes(@15.3 15.3 @:|Ȏ:|@</ȗ>\@</script>\@</thĕth>@KeyŊ!e.@Maiɨ@Mantenedor@Schlüsselw
^^LIBRARY_@Ůgrƌ@escripƗ@expression@ȟData@ǒ-Ű@ǒ-ƅ@ǒsGrid@ȣ nav@ɡted@maiɨ@menuTǚ@no-Ȱs@ɫē@posiƗ: @ĵslǂ
ƍǪ.@ȰIĻ@ȱŦ@ƙAllĖ@ preference@ƭgīn @Č'ȟ-@-ȺŠ@0, 0, 0,ą@0.2ȳ, @ƷȨ@:Ɓ-child@;\Ⱦć@ȏƭ@attr(x, 'y'@buildȋ
dicƗary @ŵ-shrink@@@g˄[@ibliothèque@ɢLĨ@ɤCĜ@max-ɵ@menu-Ⱥ@@@@@min-ɵ@ɫŤ@ɫť@placeholder@ǛWǕ@ȶInput
ȶQuery@@ˈ: @@tʙX(@tĵsparĥ@ортирāать @		ˉ@ă<ġƪ@\Ά@ŉʏ@ !impİant\@ĆparseInt(@ǹț@ćʺ@ćȨ: 0@ ǒ Űs@' : 'ƈč
-ȺƲ@.Ƒ-ȷ@.Ɩɒ@.toLowerCase@0.15ȳ, @<ġɺ@@BiblioĽken@˧: @box-shadow: @closeSidebar@ȟȑ@ƀȑor@ɤ-Ű@ɤ-ƅ@ɤ-Ɔ
ǘStorė@Ȱ-ǧ@Ɩ-ęgn: @tĵsiƗ: @~\ˊ@Сопрāождающ@を検索šǰ@\max-ʐ@ RF˞@" ʹĀ@'řcȫ @Čʎ(e@),\eǡCSV(@,ɷ.doc
.appĤChild(@;\Ⱦ ż@ɑǴ@<ƒɺ@__unǒed__@Ȓɓ@ȕȃ\@Ǉ-ɠ@fĮ-family: @ʻť@fĮ-wǍ: @ǒ-conƖ@hasŨdƽ@ȣCĮrol@ʿGrid
paroĭchiĠ@quivalĥř@Ǣ-between@ƙƽsĖ@white-Ǣ: @		Ρ@\ʻē.@ ^Γ@ːŢ@ ʎęty@ кǫых слā@" x2Ā21" y2Ā@Č˪.@Ο()
đIȩize @Ē, 1fr))\gap@147,197,253ď@>$^eǡHtml(@RƉFʘ@ȒƽKey@Υ0 @ə#ef4444@ə$(muted@ȝ-Ȭs@σ8@ǒ-ŮŠ@ǒConƖEl
isInputFocused@ɢ-ȶ@ȧ > 0ş@ʿ-ŷ@Ȩ-ľť@s.ȧƧ0@scĤžįer@ȷedRǎ@ɱ.ǥ.@ɱOĿlay@	ŇȷĔ	@\ʺŵ\@ UTF-8 BOMƩ@ćȨ-ľ: 
ĈűɆ @ ʸ ƙ@(x, B)\or ...``@A2.5 2.5 0Ō @ȏ whethĦ@RƉ Fʘ@ȕ-radius: @ǇȋsĖ@ə$(Ɩ)\@ɜLanguė@cursor: poinļ
enļƽsũ@ŵ-wrap: wrap@ǒBreadcrumb@ͺĬ]@hasActīȋ@ƃ-ʐ1.@Ȩēǝ\@ɧ0, 1fr)\@rƉ-fʘ@ɱ-oĿlay@Ľ Ųilǂ@ƜŴ-member
Ɯtoc-ɰ@Ƣe.ĬǷ@\Ȩʫ@ĄɷtŪ@ćσ@ɉ'ʁ@.ǜȑor('@А@Б@В@Г@Д@</ůĕ/ź>\@</Ȣ<ůĔ@IĻ('ʸ_@И@ϟ)\@К@Л@М@Н@О@П@Р@С
e.prǏDefault@ǒ-breadcrumb@Ф@iewǷǒs'@oĿflow: Ȥ@poinļ-Ǐs: @rĤerƽCĜs@|RecherchĦdes @ǲȗƪ@\		ώ@\ƵǤ Ɓ @Э
\ʺinƃ-@Я@а@б@в@г@д@е@ж@з@и@й@к@л@м@н@о@п@р@с@т@у@ˍ-in-ı@х@ц@ч@Će.ȹ.Ǩ@щ@Θƈ\@ы@ь@ Ǟ15,23,42ď@ю@я
 Ǟ15,23,42,1)@čϬ@'ǒ-ʿ'@.ǥ.ɞĆ@6Ĳʐ16Ĳ@appeaĵceȃ\@ΤǞ@əɾ)\@ʊ-disŪd@ȝ-ȬŠ@ȝ˽@τ500\@τ600\@ǒMetaʄ@Ž.ɢƼ@ʕ-ȷor
ƂŤǟŤ@ʿ-ɰ@Ȩʫ0.@oĿflow-x: ŭ\@s.Ƒ((a, b)Ŏ@ĺActīKȞ(@Ɩ-decorǂ: @\oĿflow-y: ŭ\@˛.Ⱥ(@ʲĆnull;\@ȕē˃@ʺǄŉ
erado por|Última a@ɠ˽@fĮ-ǥ: itęc@ǒMetaʳ@ɢȐInput@letļ-spacħť@media (;@Ά2ǝ.@ƏesĥǂŖ@Ǟ56,189,248ď@ɯȰ-ſ
Ƒʳ(Ƒ@sys.breakpointhook@Ņ<ȬǻĀ@		<ƒ ʹĀ@ćЙ@ affĢƬ lookup@ variŪsĐNOTE: @.addEvĥLĨener('@.ǜȑorAll('
ə#10b981ƥ@ȟʳŞ@ς$(mono@ς$(sans@is eϊ``@˴relatī\@ϫIndex@ȻƽConƖ(@\ęgn-ſs: Ș@\σȂ@\ϡƷ@ćlĨ-ǥȃ\@şđCreğŐĉ
ι-tŪ @ĐA tuple, asĉ ``@.getAʝ('ǋ@::beforećɛ: @ǉą2ȳƥ@ϟǾ@Ĭ=func]ưǨ\@ɢȐRǎs@ƍЙ@ȻActīFromHash@;\Ǫϗ@ɐ	ˉă
ϸ999Ĳ@їƜ@ɜRǎƐ[];\@ʺinƃ-Ǆ@У-root@ɭAnimǂFrame@~\ņ.ɢƳ a@ ѵ15)@ē˃$(ȕ)\@]Śt˵s.en;\@ϜĆnull;@Ůdrop-ȟ: blur(
box-sizħ: ȕ-box@ŵ-direcƗ: column@ϥ-Ȱs@ɯȰ-ɤ @ΌtʙY(@ƙ˽-Ȓ@Ąņ.ɢƳ li@" ǥĀɞȃ;@Aʝ('aria-ɜ@Dɩǂ Dʈ
al scopeƨvice-Ŀsa@ęgn-ſs: ŵ-start@s)~\$^͵ŧ('@\ŷ-Ļplğ-columns: @ē˃Ώ\@CĜsʬŰǹ@LinksʬƄǹ@ObjĢ.Ĭs(g˄).@ΤΏ\
enļƽʳũ(@ŵ҈@from άɁ@ĳѵ1)\@ϫʃ-1@ȻClearȋsButton@\˴sticky\ľŤ@ƥŹ-ƅ.ƅ-ŷ @)~</tdĕtdϚ@ѓ'ƈč@ʋ.getɓById('
Ɩ-Όuppercase@ίĚą2ȳ@wǕȀWŻ <= 1024@˛.add('Ȓŝ@Errorƫħɇ ǔ@]')ʬelΗ@і2,6,23ď@pdğsřthis Ͷ@ǝ.6ƍϸ@ƙƧђ@Łʏϥ 
\ʠ		\ώ@ĆŰҏ@Ćʋ.creğɓ('@ĆʋЏ@ recursīlyŘˑs@ѾǈČ@Ҥ8Ĵ\@do|ƻ:|ˤ:|ƾ@Ѳ768pxş@Ć(Űҏ@Ćӂ@Τƃar-gradiĥ(@˧:э
dispŬEvĥ(ǏƱņ@\ȕҡ@ IfɻŕgīnŐƭ@ ^Ҳ1fr@˛.ɚs('Ȓ')@˛ɍ('Ȓŝ@</Ȭ>\ѹ@і239,68,68ď@ʷ"ƺώ@ɞKȞRǎs(Ȱs@earchInputѾ
ɸəɾ-soft)\@"ǴŭŲleteĀoff"\Ņ@˦NAME~~ Dɩǂ@ źĕź ƀĀen"ĕȢ	@ά.ĺЗ@\ʏџ ȷ@ƢɜVХş@Ćt[Ĭ];\ȽǳTʙ @ćΤѵ@Ʋć˴ʅ\Ƃ: @ӓ()Ŏ
\Ҧǵ1ƍ@Ŕnot already typħĉŏǖ@)ɸəѵ@ȕ-ǟҡ@iȩizeȋs(ɠʲ@\Йσ9ƍ@Ćʋ.getɓById(ʍ@Ćά.getЗ@εǒs">ƽs</ȗ@ɉ')Ο˗Ű
ʱѦunderƃ@Ρtoc-ɰʩh2>@IĻ(`ʸ_ȟ_$^ʍ~`@ȏ TrueŔbool(x)ŕTrueƩ@ȕ-Ȗҡ@ѴanĉtegerĐ>>> @Ć(ӂȟ-
https://docs.rƉfʘ.org/img/@ć҂)\σ@ϑ\΄ŭ\Ǫ.@Ġ (ų)|Ȋěcomo|Filtros|Limp@Ț cxĀ11" cyĀ11" rĀ8ŜȚ@ȿȉif ūȟȲȒ
\.˅ .Ɠ-Ǩćʻ: 2@҈\justify-ɛ: @ϯϾɹ@')?.ǨƯ')Ο˗@ʱӚ9@Ȅ ^Ӧ@Τradial-gradiĥ(Ț at @țkwWįĆўƧ1@Śͽϩ˙
"ȇ<svgɺȶƲ" wŻĀ@ćıƃ: 2˃ѵ@ćΌrotğ(180degǾȝ-@ӓʎ(ş@; ήȘ; σ9ķ;@ʁlibWįĆŽ.ɤƼƧ1@ʺҹɹ@ćїѦƈ\@Ѿșηş@ϼ\ӄ\
Ͷɚħƭɜ scope's @ϝ18ĳ4Ēэ9)\@ǲʗm21 21-4.35-4.35˕Ņ@ćԗ@ЙЧƈ\z-ǔ@Ӄ\ѱ@ϯҦɹ@:Ǒćıƃȃɸї@<ȗɺљ" ǋȝĀ@ʒ, *[,ɻ=obj, ғ
pѻȨ-ľŤ;40@Ӝϸ12Ĳ@ҏɢ-Ǌɉ0Č10Ď@\ʏҧ::-ȼ-ȵbar@ʏҧ .Ѷ@n˖blobĆƇBlob([csvɒ], ^ Ƙ: '@ɿt[Ĭ]ƦundefinedŊt[Ĭ]Ʀ''şel
ӰŮToƽs()Ʊ@Ρ˅">ЫƓ-Ǩ">@is exhausted, itŕȱedĉsteadŖraisžSľ@ʓ[,ɻ])\\ͳnext ſǺĽ @@ɫ-ľē.2ţɸľҡ@ίĚˍ\Ӕ
xĉƭʒĐIfƭʒʤ, ɮ@ѓЁs ? 'ǄΛ@<ƅ http-equivĀX-UA-Compatible" ɛĀIE=edgeċ@Čǜ)ͲάɍЗ@ćҚΪ-ʏƅ-Ⱥ@ː1єίˈą2ȳ\
\ʺŷҲrepeat(ŭ-fill, ɧ@ ^γ0ˋ0\Ȩ-ľŤЦƥ@ӆȾćƵmove ʷǺDOM@ҵƄӰ^\@ΘŷҲrepeat(ŭ-fit, ɧ@" ǴǆĀɯǖ" Ǵʹ-·Āȶ@ʺŵԉϋ
<ƅƬĀƙpİ" ɛĀwŻ=device-wŻ, iȩ-scale=1@ svgː18Ĳʐ18ĲїͷŤƜ@ʲĆĻpDiv.ǐɓChild;\ʿSecƗ.insertBefore(@ͿćѫˮъƜlayı
<ƅƬĀȌtor" ɛĀϷ Dɩǂ Parserċ@Ƞˏľҡ˳.2Ǝ2.4ȯ6ƍ@to άƢǜ.ϦӪ@_ǣČJSON.strħify(ǣ)Ď~ cŬ (eşđIgnoĶstorė errorsĄ
ʲ, ӂϧ'));Ǵ\ϗ@ʮ'čάɍӽĎȽ@<Ƅ relĀicon"ɃԂrf_favicon.pngċ@img srcĀԂЅ-dark.svg" altĀ@ϸ3pxĄԨ-thumb@ҙȕҡӚ
ʲ˗ĻpDivӐġŝĻpDivȀɕ@ġӐġŝġΞĆƖ;\ɮġȀŧ
:rootć--bg: #0f172a\--bg-alt: #020617\--Ű: #020617\--accĥ: #ȁ\--accĥ@Ơ? (ˆs.ɢƯɢ')\: (ˆs.ʔƯʔŝŅ
 ui-monoǢ, Menlo, Monaco, Consolaĸ"Liberǂ Mono", "CouriĦNew", monoǢ\
(A, B, ...))``, mayőgīn asƭȹĊ\check agĘst. ƿ҄@)ƸǳShow ʷ (it's already ɴ since we don't add ʉd ǆ)\
Ơ? (ˆs.ɤƯɤ')\: (ˆs.ʿƯʿŝŅ@ʷ ^Ћ1ǿ΅ҷπƜ@@@ˈōΎ-Ţ)ёȼTĵsŶōΎ-Ţ)č@(ĝ1, ĝ2, *ĝĸ*[, ғ\WĩĈsħĭʒʣ, ɮĪ 
;ňTriggerɇřshow ȰsɁǏĆƇEvĥ('ǖČ^ bubbles: true ~Ď@Χԙțȟǁш;\@.vХŊҶϦϽ()λ\@ϸ8pxӜӉ9)\Ϻ@Ц\ίmax-hǍˍ, ɪ ˿Ȩ-ľˍ\
ԢӉ95)\Υ0ŋ @\ȻHɡt(˷sĎȵToH˯(˷s[҆]Ʊ	ȿ@ͽƐψ ? Array.from(ψѿ.Ω')) : [];\
-soft:Ҡ\--ȕ: #1e293b\--Ɩ: #e5e7eb\--muted: #9ca3af\--mono: "SF Mono",@ćӉ6)Ӝϸ0ǿΆȂ
ʭƱ~\~ cŬ (eşđFail silĥlyŔάŕunʵŗJSONŕinvędĄ@te˻ɲinƭconƖŖȡsƨǘs.\ơɲmayőaɈ Əesĥž
	ǲh2>ν˫-ǧ">$^Ž.Ǘ~ɑ</h2>\Ρɤ-Ɠsʨ	@try ^Ɂǣ =ćƙ: ɜũ,\ǒKey: Ϝ,\~;\Ӫ@tĵsiƗōˈфёȼTĵsiƗōˈф
ȣ h1 ^Ϗ0ͰŤѱ08em\Ӄʡf4f6ff@--sans: sysĻ-ui, -apple-sysĻ, BƄMacSysĻFĮ, "Segoe UI", sans-serifŉ*ćҥ
ΧsʬʍΗΧӷɊΧ@țȜƐ['LǓy Ũ,ɘ,ʄ,Ȉ,ˣ,ɖ,RF ɘ,Ȏ,D˨']Ƹ\@ΜԸїȨ-Ƃť2ʰ@ҔӆҔȀɕ'<ġ ǥĀ˳.5ʚ; @ӥǖη˘ǜшƴ()ϖɏđSĠ 
ƙBoxĀ0 0 24 24" fillĀƈɽĀɜColorɽ-wŻĀ2ɽ-ƃcapĀrƌɽ-ƃjoinĀrƌ@ǠȋĆά.getӽɊǠȋşΧʮǠȋŦ@՞σ9ƍ҃)\@şҔӠҔȀɕ'čҼ;\қ
ŝƄ.ǥ.visibilityōȤčʋ.ůκƄĎƄ.ǈŞʋ.ůɍChild(Ƅ);ƤˊȝTo@" wŻĀ16˓16" ձ
 <aɃhttps://gĩub.com/deekshĩ-poojary98/rƉfʘ-docgen" ȹĀ_blank" relĀnoƋĦnoreferrer">Ϸ DocGen</a> · 
svg wŻĀ18˓18" ձ@ſ. The\ɝ ɢ-ƊʣʦsŏȪřɮif\Ľ providģʒʤ.\Wĩ twoŗmoreʣĸȱƭ
ăǲʗM4 19.5ϵ6.5 17H20˕<ʗM6.5 2H20v20H6.5ϵ4 19.5v-15ϵ6.5 2z˕		Ơ
\ůΙ\҃)\Ԏľ, #1e293b 0, #020617 45%, #000 Ţ)\ϺЂ6\
ăǲƒ><ȸ>$^Ž.ɤƼ~</ȸ> $^libWį~ɑ\<ƒ>•ɑ\<ƒ><ȸ>$^ў~</ȸ> $^kwWį~μ		@[ʹӈĬĆelҏi18nԫΞӭ@Cleěɠ ȗɁϹӘρɿϹşϹԔ
ȟǁşά.ĺӽ, ȟǁ)ͲάɍӽƱҁ~Ď@Րգ@Ʈ ʿ aĶɴӬ˸țʿSecƗӑ.ѡɿ!ʿSecƗ˙		ɀ!
;charĺ=utf-8;' ~)ʁƄӐa˖urlĆURL.creğObjĢURL(blobĎƄ.ĺAʝ('hrefČurlĎƄ.ĺAʝ('downloadČ'ʿ-ȝ.@Ւի
\orϲĞȱǌ cȫ().ơȡs ǙbeĈͶand ǘs canőūmappħ,\ɝħĊƭɜ ȡsƨǘs.\If Ɗ ȡsŕgīn, ǘsɻsřit.
նʨ	<polyƃ pointsĀ6 9 12 15 18 9ŜpolyƃĔƠƹƺŇȗ@ΧƐ['ȟ-Ȕ˼˰˼ɥ˼Ѕ˼ȭ'];\լ@" ձʩԆ>\ԝƹȇ<ǖ ǴƘĀƖ" ǴidĀ
ŉaԘŁaӻŉȣ ^Ҿz-ǔ: 30\Ҥ16Ĵ\әto ǟ,э95),э8))\ӿΆ9Ǝ2ƍԿ@րփ
ć˴fixedΕľ: 70ĲƂŤɵ280Ĳ;85vw\ʐcalc(ƶ - 70Ĵˌ26\ΌΎ-Ţ)ΕΥ2pxŌ0ĳǞ˾3)\әto Ȗ,э98),э95))ΕӴʞ.ȒćΌΎ0)ΕƜІćѫmĘ"#)

def spelledOut (s : String) : List Char :=
  spelled phrasePlace? phrases s.toList

end KeywordDocs.Text
