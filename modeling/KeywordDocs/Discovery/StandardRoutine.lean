import KeywordDocs.Text.Phrase

/-!
# Routines of the Language as Keywords

A library can have a routine of the language itself among its attributes, and then it is a keyword like
the others.
-/

namespace KeywordDocs.Discovery

def standardRoutines : List (String × List String × String) :=
  [("abs", ["x", "/"], "ͳʅǻŖĽʣ."), ("aiter", ["async_iterable", "/"], "ȏŏAƔIļatorœŏAƔIļŪɆ."),
   ("all", ["iterable", "/"], "ӾĚǻs ԳTrue."),
   ("anext", ["*args"], "aƔ anext(aԯaƔ ʓ. ӝaƔ
ʓ ԮAƔIļǂ."),
   ("any", ["iterable", "/"], "ӾūԳFalse."),
   ("ascii", ["obj", "/"], r#"ȏŏASCII-Ɗ ѴanɆĐAs Ə(), ɮaɈ ɚħĈǛŪ Ѵan
Ȫ, but eǡƭnon-ASCII ʶsĉŘɈ ȱǌ
Ə() usž\\x, \\uŗ\\U eǡs. ƿgenerğs aɈ similar
to Ǧȱǌ Ə()ĉ Ȏ 2."#),
   ("bin", ["number", "/"], "ͳbinary Ԁbin(2796202)
'0b1010101010101010101010'"),
   ("breakpoint", ["*args"], "breakpoint(*ĝĸ**kws)

CĚ Ѹ(*ĝĸ**kws).  Ѹ() Ǚaccept
whğĿʣȲpassedĐByɻ, this drops youĉtoƭpdb debugger."),
   ("callable", ["obj", "/"], "϶ĽɆŕcĚŪ (i.e., some kindŖʎ)ĐNote ǦǆeȲcĚŪ, aȲʑsŖǆesǼa
__cĚ__() method."),
   ("chr", ["i", "/"], "ȏĈUniűɈŖone ʶǼįinal i; 0 <= i <= 0x10ffff."),
   ("compile", ["source", "filename", "mode", "flags=0", "dont_inherit=False", "optimize=-1", "*", "_feature_version=-1"], "Cȫ ɲintoϲǦcanőexecutǌ exec()ŗeval().
ơɲű may ƏesĥĈȎɄ,˒ŗ˩.ơfileƆ willőusedƩrun-time error messės.ơmode Ǚbe 'execζaɄ, 'sħleζa
sħĭ(inļȒ)˒,ŗ'evalζan ˩.ơflagsʣ,Ŕpresĥ, ʊ which future˒sĉfluence
Ї ofƭű.ơdĮ_inheritʣ,Ŕtrue, sľs Їĉheritħ
Ľ effĢsŖūfuture˒sĉ effĢĉƭű cĚħ
cȫ;ŔabsĥŗfalseŘse˒s doĉfluence Ї,
in addiƗřūfeatures explicitlyʦd."),
   ("delattr", ["obj", "name", "/"], "DeletesŘƬdˑ from˻ȪĐdelʹ) ҄del x.y``"),
   ("dir", ["*args"], "dir([Ȫ]ưlĨ ofɈs

If cĚģwĩıŏʇ, ȱŘƬsĉƭɜ scope.
Else, ȱŏalphabetizģlĨŖƆs Ųrisž(some of)Řˑs
of˻Ȫ,ƨofˑs reachŪǺit.
IfŘɆ suppliesĈmethodƬd __dir__, it willőused; oĽrwise
Ľɻ dir() logicŕusedƨȱs:
 ƩaɄɆ:ŘɄ'sˑs.
 œĈǆɆ:  Īˑs,ŐӒ
   ŖĪ bases.
 ƩūoĽrɆ: ĪˑĸĪ ǆ'sˑs,Ő
   ӒŖĪ ǆ's baĹǆes."),
   ("divmod", ["x", "y", "/"], "ͳtupĭ(x//y, x%y).  Invariant: ġ*y + mod == x."),
   ("eval", ["source", "globals=None", "locals=None", "/"], "Evaluaզa Ȏ ˩ք"),
   ("exec", ["source", "globals=None", "locals=None", "/", "*", "closure=None"], "ExecuզoneŗmoĶȎ˒sքơclosuĶǙbeĈtupleŖcellvars,ƨcan Ɗőused
when ɲisϲrequiržexactly Ǧmūcellvars."),
   ("format", ["value", "format_spec=", "/"], "ȏǻ.__Ŷat__(Ŷat_spec)

Ŷat_specɻsĊƭemptyɈ.
SeeƭFormat Specificǂ Mini-Languė ɰŖhelp('FORMATTING')œ
details."),
   ("getattr", ["*args"], "getattr(Ȫ,Ƭ[,ɻ]ưǨ

Get aƬdˑǺanɆ; getʹ)ŕeϊx.y.
When aɻʣŕgīn, itŕȱedƮŘˑ doesn't
exĨ; wĩı it,ŏexcepƗŕraisedĉ Ǧcase."),
   ("globals", [], "ͳԛȡѽUӊ*will*Ѽsĉƭɜ
globү."),
   ("hasattr", ["obj", "name", "/"], "϶ĽɆ hĞanˑ wĩ˻ƆĐƿis done by cĚžgetattr(obj,Ƭ)ƨcŬžAʝError."),
   ("hash", ["obj", "/"], "ͳŸǻœ˻ȪĐTwoɆs ǦŲaĶequal Ǚalso hĠ ˇŸǻ, butŘ
reĿseŕnot necessarily true."),
   ("hex", ["number", "/"], "ͳhexadecimal Ԁhex(12648430)
'0xc0ffee'"),
   ("id", ["obj", "/"], "ͳidĥityŖanɆĐƿis guaĵteedĊőunique among simultaneously exĨħɆs.
(CȎ usesŘɆ's memory address.)"),
   ("input", ["prompt=", "/"], "Read aɈǺstandĜ ǖ.  The trailžnewƃŕstripped.
ơpromptɈ,Ŕgīn,ŕǛedřstandĜ ıput wĩı a
trailžnewƃ befoĶreadžǖĐIfƭusĦhĪ EOF (*nix: Ctrl-D, WǕs: Ctrl-Z+ȏ), raiĹEOFError.
On *nix sysĻĸreadƃŕusedŔʵ."),
   ("isinstance", ["obj", "class_or_tuple", "/"], "϶anɆ isŏʑŖa ǆŗofĈsubǆŘreofҎisʑ(x, Փisʑ(x, A)ŗisʑϴ etc."),
   ("issubclass", ["cls", "class_or_tuple", "/"], "϶'cls'ŕderīdǺanothĦǆ orŕˇǆҎissubǆ(x, Փissubǆ(x, A)ŗissubǆϴ."),
   ("iter", ["*args"], "iļ(ʒưʓ
iļ(cĚŪ, sĥinelưʓ

GetŏʓǺanɆ.  Inƭǐ Ŷ,Řʣ must
supply Ī own ʓ,ŗbeĈsequence.
Inƭsecond Ŷ,ƭcĚŪŕcĚģuntil it ȱsƭsĥinel."),
   ("len", ["obj", "/"], "ȏŘɅŖſsĉĈʷ."),
   ("locals", [], "ȏĈԛǘѽWheĽrŗnot uӊwillѼsĉ
Ľ locүŕ*implemĥǂ depĤĥ*ƨnot
coĿǌ ūŮwĜs Ųatibility guaĵtees."),
   ("max", ["*args"], "max(Ԥmax՚biggest չlĝestʣ."),
   ("min", ["*args"], "min(Ԥmin՚smĚest չsmĚestʣ."),
   ("next", ["*args"], "next(ԯʓ.ӝʓ
ԮIļǂ."),
   ("oct", ["number", "/"], "ͳoctal Ԁoct(342391)
'0o1234567'"),
   ("ord", ["c", "/"], "ͳUniű ű pointœĈone-ʶɈ."),
   ("pow", ["base", "exp", "mod=None"], "Eϊbase**expǼ2ʣsŗbase**exp % modǼ3ʣs

Some Ƙĸsuch asĉtĸaĶŪřuseĈmoĶefficiĥ algorĩmƮ
invokģusħƭthreeʣ Ŷ."),
   ("print", ["*args", "sep=\\ \\", "end=\\n", "file=None", "flush=False"], "PrintsŘǻsĊĈstream, orřsys.stdı byɻĐsep
 Ɉĉsertģbetweenǻs,ɻĈǢ.
Ĥ
 Ɉ appĤģafļƭƁǻ,ɻĈnewƃ.
file
 Ĉfile-likeɆ (stream);ɻsĊƭɜ sys.stdı.
flush
  wheĽrĊœcibly flushƭstream."),
   ("repr", ["obj", "/"], "ͳcanonicalɈ ѴĽɆĐFor mūȪ ƘĸȦžmost builtinĸeval(Ə(obj)) == obj."),
   ("round", ["number", "ndigits=None"], "Rƌ aɅĊĈgīn precisionĉ decimal digĪ.
ơȱǻŕanĉtegerŔndigĪŕomittedŗNone.  OĽrwise
Ľ ȱǻ hĞˇƘ asŘɅ.  ndigĪ mayőnegatī."),
   ("setattr", ["obj", "name", "value", "/"], "SetsŘƬdˑ on˻ȪĊŘʦdǻĐĺʹ, v) ҄x.yĆv``"),
   ("sorted", ["iterable", "/", "*", "key=None", "reverse=False"], "ȏĈƇlĨ ɚžĚ ſsǺĽ ʒĉ aϪĐA custom Ĭ ʎ canősuppliedřcustomizeƭƑ įer,ŐŘ
reĿĹflag canőĺřɭƭȰĉ deϪ."),
   ("sum", ["iterable", "/", "start=0"], "ͳsumŖa 'start'ǻ (ɝ: 0) plusŏʒ ofɅs

Whenƭʒʤ, ȱƭstartǻ.
ƿʎŕintĤģspecificĚyƩuseǼnumericǻsƨmay
rejĢ non-numeric Ƙs."),
   ("vars", ["*args"], "vars([Ȫ]ưdicƗary

Wĩıʣĸeϊǘs().
Wĩŏʇ, eϊȪ.__dict__.")]

def standardRoutine? (name : String) : Option (List String × String) :=
  (standardRoutines.lookup name).map (Prod.map id (String.ofList ∘ Text.spelledOut))

end KeywordDocs.Discovery
