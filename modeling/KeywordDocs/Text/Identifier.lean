import KeywordDocs.Text.Blank

/-!
# Identifier Characters

Which characters an identifier may start with and go on with.
-/

namespace KeywordDocs.Text

variable (c : Char)

def identifierStartRanges : List (Nat × Nat) :=
  rangesFrom 0 (numbers "GoalafagwcBecRpflpeiacaFaecbeccahacccactcDecFijGjcBldahBoCuBafdBuBqBkbcDuc
   aqbiblcdaracBdBeDkmazBgkbfagvfakaeayyikgxcfsBpChCbeataijqpfhdbdvcgcaedearaobccpblajffbdvcgcbcbcb
   BgdcaucricccvcgcbceeataqbyamhdbdvcgcbceeaBfbccqasacfeccdebcacbebecelxaCbhcccwcpeaBbcdadbBfafhccc
   wcjceeaBgbcbqbsicccBodaragcjczfgrexcicadgChBvcaogChbcacecxcacjcaladecawdBhaCmhcBjBceEmBqvarffdea
   ebicfmnasBlcagadBqcMucddgcacddBocddBgcddgcacddocCecddCoBmprDhdfeXvdqczgCwekirosprpmccqBzBkafaCqD
   kiBocagCrlBeByBddemBrfzCdwkCaDfaDqBushCdBdoblBrBbBjBqclBjdiiBqdcBqdcfcbeagHjCnKrdfdBldfdhcacacac
   BedCacgcaeccgeddffmgccgEnaoarmDyafadjcadfhacacacpddgefasBoDZcIuhdebnBlcagadCdiarwkgcgcgcgcgcgcgc
   gVfcBaiiedefDhhccDlcdgBqcDpsBfBxpTtJTnCnBGUeCqBtdKieplbvBurBedDbBoidDydClgbcacezpcccdcwBeBzpBxCl
   feacbmBblwBaBciBuBdarecjlecBoycchvweaeBxcaebdedacazcdkicnfdfdfkgcgcBqcnhEkBeQNrnwfBwMNdObdEbBngn
   egacjcmcecacbcbcEdBiFihIjtCldCbBpjEqacaeacacacacEvBlzhzmCddBeefdfdfdcBklczcscbcodnBjEsCsCaKiBceB
   wBwBfoBdgBllBddBjfhceBrGbtBjfBjfBnjBznkcocgcbckcocgcbCqLykvlhzfcBpciCsfdacBrcbeadwlwkBeCoscblvlz
   CtCdhbCnaqdcccBcBrBceBcBkhcBbBcCblvlsorEhCuCeByoByoBjNlBphbDbBclajvBrrBvuBcwnCaCgbdaoBsBhyBbBjBe
   adajBieanBvpdwacaBkrcyDhgcacdcocjiBuBnhdbdvcgcbceeataneGdCatdvcBfBvvbcaHdBuBqdBlBvvaCiBqoaCuBaBm
   gHeBrEnClBghdadhcbcxqacaDrhdBmracaBdalBniawamBtuatCuKeicBksaByBdEjgcbcBlwaBafcbcBfpaMqsHiaDcBJlD
   zEgsHnDXlDsqBPeFZuWkMUcVwiBesDasBdtBvrdBgugsBAnClEzCwgaCpmCnbcaBdJBzjBVpBriNFsdcgcbcLeBucsdjPfDK
   vEcgmeiijIWlDgcCscbdadbddclcacgcCmcddhcgcBbcdcecaegcNbdycycBecycBecycBecycBecychCSzBeSoBslgraMkB
   dtBrBWvgcdcbcocHoCiCpiaBUjdcBacbcadacjcdcacahafacacacccbcadacacacacacbcaddcgcdcdcacjcqgccecqGObC
   LFbBhGDsiIndINppLBkEPkUvCFzHHy")

def identifierTailRanges : List (Nat × Nat) :=
  rangesFrom 0 (numbers "HbaWnEhyaJseKgBscacbcbcaCvkBxBehaDygdfdbcddjyaBfBaDokqjBiikazdciccceBscCjh
   BrxcBgCdccrcglbdjscCfacgdbdckalbdjpadcCfacefbdceavleamcCfachccccvbdjlfccCfacgdbdciclbdjtaCieeccd
   kapjreCeacgcccdibmbdjscCfacgcccdibmbdjrdCebcgcccdkalbdjscCtaffcachhjdbCkachnhcjDkacjmfdjClbhjmac
   acafbBytcbgkcBjkaDxtcjndfcccdgedolcoBBcckiBJtdBdcBebBfbCnBfkadjBicckFoaEplflljEzkCjeCgjcBcdkhjxn
   cpByeBwqmjsincBfmdjBtnBxtjjhjEpccufahadcHrClWebuaEumfaelEOdcFmaDtBfVjfEcbBSNejCsafjBhbDdbKnaeafa
   yefaDgbBzrljhrokBdhBamBtdBwnqjmaljBwnnajbdjBicBzaccdbgbcaBqegbJdhcbdjBDZhaBCkprpebzcHljBmaDrbXia
   ItaFueLijCAqccbgdBpcfaGkbWcdjjOgbFykBydEtcCcoBgkdbldBukiaBujhcBlncjgbBtancBxnjdclDflhaGflgjhdCeb
   cgdbdckalbdgeeHlrkjfaDetnjIggdiBcbDfqqjDemjjDgofjJjoGkjCtfcbddcacbnjEqgdgeaBdjBpgcdjakkBvpPqhchr
   jCfvcnEtfeacbcgcajjBxecbcejjMsdBCOojDjjBneCigBajBNaacCcidDeambBDAybGZaBtdwUxeefjhdgBfdFtcCCoBxTt
   CcfBxjapaxecoCAjgcqdgcbceKcgkjNtaCknCFngEgggjHBbjBSVGxJf")

def isIdentifierStart : Bool :=
  if c.toNat < 128 then c.isAlpha || c == '_' else inRanges identifierStartRanges c

def isIdentifierPart : Bool :=
  if c.toNat < 128 then c.isAlphanum || c == '_'
  else inRanges identifierStartRanges c || inRanges identifierTailRanges c

def isIdentifier : List Char → Bool
  | [] => false
  | c :: cs => isIdentifierStart c && cs.all isIdentifierPart

def symbolStartRanges : List (Nat × Nat) := [(6277, 6278), (8472, 8472), (8494, 8494)]

def wordTailRanges : List (Nat × Nat) :=
  rangesFrom 0 (numbers "GwbgadcBAyaBCojFfjHrjPxjEpjffEfjEpjEpjdfEhmEmjjgEajEbgisEgjCqaBdjDmaBdjCtt
   KjjCtjBBstBRgjhjxjLpjEzkGkjhjHbjDjjFfjhjBOhaefhjHrpBqaBBzChDbvYhBdCBiaLuaBHjdFjjBfhcoBhjBooBRSbj
   TzfFzjBnjHrjxjDjjPrjBELpfPrbEnacacacacacacacaFqjFdbNwBsCodsbNeBaBldOrjBKhhBagBoiCyexfGfbdpdBtCni
   CbbBfcCyeEbhzhBqgMtfBxjLjBeGdjBrdEjgFfBdEzjCjjFpjitJsjNfjEpjOljDzjDzlQfsDqjBDfBcIujCtjUpuBCGajDj
   jFfjcgBEtwBLZmtEfyBQsBxDNdjQhjCFeiEzjBEmCgcccdCzBscoBLbmEDgj")

def digitRanges : List (Nat × Nat) :=
  rangesFrom 0 (numbers "BwjCIpjFfjHrjPxjEpjEpjEpjEpjEpjEpjEpjEpjEpjDtjEpjCtjKtjCtjCTrjBnjLpjEzjGljh
   jHbjDjjFfjhjCAEpjBAdjBnjHrjxjDjjPrjBFMdjCCljDFzjBFhjEzjCjjFpjKtjNfjEpjOljDzjDzjQhjDzjBDfjJnjCtjBD
   BjjDjjFfjBPBxBxDNdjQhjCKljHBbj")

def isAsciiWord : Bool := c.isAlphanum || c == '_'

def isWord : Bool :=
  if c.toNat < 128 then isAsciiWord c
  else inRanges identifierStartRanges c && !inRanges symbolStartRanges c || inRanges wordTailRanges c

def isDigit : Bool :=
  if c.toNat < 128 then c.isDigit else inRanges digitRanges c

def digitValue : Nat :=
  match digitRanges.find? fun r => r.1 ≤ c.toNat && c.toNat ≤ r.2 with
  | some r => (c.toNat - r.1) % 10
  | none => 0

def isWordAt : Option Char → Bool
  | some c => isWord c
  | none => false

def atBoundary (before after : Option Char) : Bool := isWordAt before != isWordAt after

end KeywordDocs.Text
