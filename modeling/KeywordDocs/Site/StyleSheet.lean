import KeywordDocs.Text.Indent

/-!
# The Style Sheet

How a dashboard looks.
-/

namespace KeywordDocs.Site

open Text

def styleSheet : String := styleRules 4 "/* Dʈ Styles - MŬžLǓy Design */
։Ąջmin-ʐƶֈǵ2ķΔǅԞȂŵēΔǅ .ǅ-logoćʐ32Ĳɵŭ
ѫʏȣ-ǟΘҹǵ1ķΔџć҅ԗţΔџ .ʕӯ0.6ƍԟē
ɵ1є~
ӫϐɎ7Ɏ5Ǝ2ƍ՞ϡƷ҃)
ϼ
ԲѕɵŭĄӫՠ3һ~
ӫԍӍ^
ʺҹ
҅΄400Ĳɵ400ĲӍ.ȶӯ0.Ȃԟē
ɵ18Ĳʐ18ĲӍǖϑΓ6ķˎ.6Ǝ2ǿճԲӍǖՠ3һӍǖ::·ѻϡţΔҧć˴ʅ
ľ: calc(Ţ +ąţ)
Ѡmax-ʐ45ĒѧӉ98)Ԧϝ12ĳ32ĳǞ0,0,0ď4),ŋŌһɞȃˌ100
Ҥ20ĴΓţΔҧ.Ȓćѫԩϐ875ʚ
Ѣ2Ʒϸ8ĲԚȕҳӚ5)
Կǵ1ɬԩͱ ^Ћ0ŉԩȄ,
ԩ.h˯Ӯ15ӳ3)
ΌΎ2ĴΔҧ .έԘќσ9ƷҜ
Ђ4
ίǉą2ȳ
ŵēŉԩȄ .έ ^ʡ60d5faΔҧ .Ϋѻϡƍԗ3Ȃύnowrap
ͷ: 0Δҧ .ΫҐ'📚'҉ɪť7ŉ/* ScrollběstylħƩʌ */Ԩː6pxĄԨ-trackćӚ5)
ՌӮ3)
ՌȄӮ5)ŉժƥʸ-ʷć;1400ĲȨ: 0 ŭ
˳.75Ǝ2.4Ǝ3ɬ.ʸɋ ^Ћ2.ʰʸɋ h2ćʻ: 2ǿѢƷϺќә135deg, $(Ɩ) 0%, ɾ) Ţ)
-ȼ-˧-clip: Ɩ
-ȼ-Ɩ-fill-əΏ
˧-clip: Ɩƥʸɋ ԥķϏ0ʰʸ-ƓsԽ20Ϙē.ţЋ2.ʰ˅ćӚ7)Ԧ˳ǿӔίĚˍƥ˅Ԍ)Ӧҩ-2Ĵ
ϝ8ĳ24һ~
Ԉǿτ700
їѢƷƃ-ʐ1ƥ˅ .Ɠ-ǗЍ9ҕԠ05emƥɯʷ ^Ћ2ƍ҅;60Ēƥɯwrapperć҅ʺҹƥȶӯ1ƍԟēƥɯǖϑΓ75ʚą75Ǝ2.Ȃϸ1ĒӜӉ9)
Ϻσ9Ʒ҃)
ԲƜɯǖՠ4һƜɯǖ::·ćҒѶć˳ȯ2ƷѢȂӚ7)
ϸ1ĒӜȕ-Ƃ: 4˃ɾ)
ӄ
Ҥ8ĴϯҰǵ1ɬ.ѶԌ)
ΌΎ4Ĵ
ϝ4ĳ12һƜҨ^ɸƂ-ҀɯȰ-ɢˏƂ-ҚȰƲćͷŤϨ12ƷҚҨ.ȰƲćҀȰ-ɛćŵēԡʰέԘќʻēƍίґҨ.έćҀέӻƥȰ-d˨ ^ӶЂ5
Ϩ2ʰѶ .ΫѻϡƷϨ2ʰȰ-ƘćҜ҉Ά2ɎƷϸ4ĲΤѵ1)
їћϨ2Ʒɵfit-ɛƥҨ.Ȱ-Ƙćі16,185,129ď1)
Ҁѡϱ3ɬ.ƙ-Ⱥ ^ЮŵԉȘΓ1ƷҙӚ8)ӜƜƙ˽ć҅πҷЙϡƍћΆ3ɎȂҙϼ
ί˧ ˿ґҪӮ16)
Қǒȴϱ1ķԹ26Ϙē.ʰ˫-ǧΙŋ.5ǝϏ3ƍќϺϼƥ˫Ȅ .˫-ǧćҚ˫-ƅ ^Ҋϟ)Ԋ4ķ҈ƥ˫-ƅ ȸćїŁ
.υϱ1ƍѢţϯϾԉϋɹ7ʰУԞ3ţҊҒҝć΅πҷїϼҊƜУ-ƆćϺћƜˬЍ8ҕԗ3ʰϢćՍ85)
ЙϡķΓ3ɎȂϼ
ί˧ ˿ȕ-ǉ ˿ґϢʱ˧:ѐӦҚѡɋćԿЋ1ǿϾǵ1ɬ.ȣ-ʊΘҹǵ1ǿϾƥѡ-ǧ ^ϏƷќϺȨŤԗ7ʰѡ-ǧҐ''
ɵ4Ĳʐ24ĲΤɾ)
ϸ2pxƥƑ-ʊԞʰƑ-Ǘ ^ӶћŁΝ,
.ѭ,
.њϐɎȂճћԚӔʐŭ
Ђ5
ҥƥј Ν,
.ј .ѭ,
.ј .њćcursor: not-Ěowedˋ0.6
ЧŭŉΝć΄18Ēƥѭ,
.њԞƷѕ-ȼ-ѕ-moz-ѕήƂ
΄11ĒŉΝ:Ǒ,
.ѭ:Ǒ,
.њՠ3һŁΝȄ,
.ѭȄ,
.њԍӉ95ǾѭՁѭ .ɠծѭ.Ȓ .ɠΜԓʊԞƷ҅Ɯњ .ȝծњ.Ȓ .ȝΜԓՖϠΘŵɹȂ՟Ͼƥȝ-ʷ:not(.ʉd) .Ϡ ^γ50Ēˋ1
Ϩʰȝ-ʷ.ʉd .ϠԺљϐ75ȯƷճћԚӔƜљԍ˧:Ҡ
їϝ4ĳ12ĳѵ2ǾљԢ˧:Ҡ
їΥ0ŋ 3һƜɠ-ՖɠɋΘŵԉŵ-Ĥ
ѢȂΆ5ǝƥρŠϐ4ǝ.Ȃϸ6pxӜӢ1)
ϞҊћԚ҃ǾρŠʱӢ2)ɸϞƥȟȴԽ18Ϙť7ţγ500Ĳ՟ɪē
Ϩʰɠ-ʷ.ʉd .ȟȴԺȟ-ǒ ^ԡ37ʰȟ-ǗЍ8ƍћЙԠ05emƥȟ-ȷϐɎȂճԚӔƜȟ-ȷՠ3һƜȟ-ȷԍƜϧ ^Թ34Ϙ: 2ɬ.Ω ^Ԧɫ: 2ƍӚ7)
Բ҅ЦƥΩҐ''
˴ʅ
ľŤѠʐ3Ĳә90deg, ɾ), Ώ)ˋ0
ίɪˍƥΩԌ)Ӧҩ-4Ĵ
ϝ12ĳ32pxҠƥΩȄ::befoĶ^ˋ1ƥΩ h2ΙŌǝϏȂќƜΩ h2 aćϺѦƈ
ίґΩ h2 aʱҚɤ-ǃs ^Ԋ3Ͱť25ǝˎƥǃ-ǒˏəǞϙ4)
іϙ15)ʡbfdbfeƥΪѻϡͰ:ˎ
ѫ.ɤ-d˨ѻЃЂ6
σ9ʰɤ-Ɠsϱ1ǿԱԗţӶћƜɤ-ƓsՁΪɋϱ1.2ƷԱԿ
ϼ
user-ȷȃ
ίґΪɋȄԷԞţҊћҒΪɋȄ .ƅ-ȺԷƲԸҚΪɋ.ʉd .ƅΜćΌrotğ(-90degǾΪƳ ^ԡȂϨ7ţγ500Ĳ՟ɪēƥΪƳ.ʉdԺΪ-ſԞ75ҕϡʰΪ-ſ svgː1єїͷŤɪť8Ą
.Ϊ-ſ .ƅ-ǗćћϺ΄8ĒƥΪ-ſ .ƅ-ǨćҒǃ ^҉Ά3ɎȂҙѪѵ3)
Τѵ1)
əɾ)Юҹɹ2Ͱ-ǟťƷћӄƥǃȄӮ2ӳ5Ǿ˲ćɫ: 2ƍήȘ
Йɞȃ
Ѯƥ˲.ȒćѫՅȨ-ľ: 3ƍήȘӶŁȠ aԘŁȠ aӻŉ@Ӗȣ ^ӱ˳ƍǪʏȣ-ǟϑӱǪʏџϑ
ęgn-self: ŵ-ĤƤӫϑ
ǪʏϥԄʸ-ʷć˳ȯ5Ǝ2˶ʸ-ƓsӞǵ1ķƤԈ˶ϧӞǵ1.5˶ʸɋ h2 ^Ϗ75˶ѡ-ǧ ^Ϗ25˶ѡɋćҦ
Ұ
Ǫ.ȣ-ʊϑӱǪ.Ƒ-ʊϑ
ǪΝԄњԄϠćҦ
Ǫ.љϑ
Ǫ.ȟȴӞ
~Ą"

end KeywordDocs.Site
