import KeywordDocs.Text.Blank

/-!
# Letter Case

Lower, upper and title case of texts in every script.
-/

namespace KeywordDocs.Text

variable (c : Char) (s : String)

structure CaseRun where
  first : Nat
  last : Nat
  stride : Nat
  shift : Int

def CaseRun.image? (r : CaseRun) (n : Nat) : Option Nat :=
  if r.first ≤ n ∧ n ≤ r.last ∧ (n - r.first) % r.stride = 0 then some (n + r.shift).toNat else none

def runsFrom (last : Nat) : List Nat → List CaseRun
  | gap :: size :: shift :: rest =>
    let first := last + gap
    let moved : Int := shift / 2
    ⟨first, first + size / 2, size % 2 + 1, if shift % 2 = 0 then moved else -moved⟩ ::
      runsFrom (first + size / 2) rest
  | _ => []

def lowerRuns : List CaseRun :=
  runsFrom 0 (numbers "CnByCmDyBsCmcmCmBiDpcejcdBdcdDlccaJjbjceaQebfccaPwbacccPubacdaGcbaPobaPqbacca
   PubaPycaQgbaQcbaceaQgbaQkcaQmbjccaQubaccaQudaccaQubacccQsbfccaQwbaceaciaebaccaebaccaebBhcdBhcdaeb
   fccaHnbaEjbCzccaKbcBhciaBFYkbaccaMpbaBFYedaccaPbbaFibaFmbrcLefceacjaIyhaCyceCwcaEyccEwcBgCmcqCmBk
   aqjBtcgaErdaccapbacdeKbbBeGebCkCmBxCnckEbccaBebzcdHhcdCwDsEHeCwVMucaVMugaVMuBBvGcEKZobkqDGtDgIXld
   eIXlMjLlckaWNvcHhckorjkrlorjorjkrmnrjorzorjorjorjcrbcFtbatmgGrbatmcrbcHtncrbcIrbapmcJxbcJtbatLmaW
   GheaYUxbaYLphaCeBuBeBguacBFnByCaCSvDqDsBxaccaBFUlbaLHlbaBFTfdjccaBFXhbaBFUxbaBFXnbaBFXlcacdacjcBF
   ZzbHpcjfcfacBTYkDlcuCbcFgzceErclfccaEANxbrcfaccaEVCjdfceBlccaEVEnbaEVFjbaEVFbbaEVEhbaEVEncaEVArba
   EVCnbaEVAxbaCTkbBdccaDtbaEVElbaEARxbfchacgfcBdacBHAiByCmBVaDaDcFhCsDcGbuDacBcDacmDaccDaCQdDwEyENm
   CkCmBGJxCkCmBULlCoCq")

def upperRuns : List CaseRun :=
  runsFrom 0 (numbers "GzaCFeEuaRxDaaXdCsaddaddadBnadNbaGmEvaCloaEvbaEleaDrbaEfBaaGrbaGfeaHlJHraSNdb
   aSNbbaSMjbaSMfbaSMfbaSMhbaSLtbaSHnbaEAIuUlaEpLfaVIh") ++
  lowerRuns.map fun r => ⟨(r.first + r.shift).toNat, (r.last + r.shift).toNat, r.stride, -r.shift⟩

def imagesFrom (last : Nat) : List Nat → List (Nat × List Nat)
  | gap :: x :: y :: z :: rest => (last + gap, [x, y, z].filter (· ≠ 0)) :: imagesFrom (last + gap) rest
  | _ => []

def upperExpansions : List (Nat × List Nat) :=
  imagesFrom 0 (numbers "IpDfDfaEcBAyDaaGlCwBEaaQaBJlBDwBDpBgBJxBDwBDpSdBZhCAkaJMtCuBFlabDgBDwabDjBD
   yabDlBDyabCnBBaaHaBJxBEhacBJxBEhBDocBJxBEhBDpcBJxBEhBGcDoMAkBJlabBJdBJlabBIsBJlacBJdBGcabBJdBGcBJ
   lfBJdBJlagMBaBJlabBJjBJlabBIvBJlacBJjBGcabBJjBGcBJlfBJjBJlagBJlBDwBDobBJlBDwBDpdBJlBGcabBJlBDwBGc
   lBJxBDwBDobBJxBDwBDpbBJtBEhacBJxBGcabBJxBDwBGclMCwBJlabBKbBJlabBJbBJlacBKbBGcabBKbBGcBJlfBKbBJlaD
   EYmCsCsabCsCvabCsCyabCsCsCvbCsCsCybDfDgabDfDganBZwBZyabBZwBZhabBZwBZnabCAgBZyabBZwBZpa") ++
  [(8064, 7944), (8072, 7944), (8080, 7976), (8088, 7976), (8096, 8040), (8104, 8040)].flatMap fun r =>
    (List.range 8).map fun n => (r.1 + n, [r.2 + n, 921])

def titleExceptions : List (Nat × List Nat) :=
  imagesFrom 0 (numbers "IpDfElaIvRlaabRlaabRlaabRoaabRoaabRoaabRraabRraabRraaBlTeaabTeaabTeaaBJgBZh
   CCgaJXrMAkBGfabMAmaabBIsBGfadBJdBGcBGffMAmaagMBaBGfabMBcaabBIvBGfadBJjBGcBGffMBcaaBmMCwBGfabMCyaa
   bBJbBGfadBKbBGcBGffMCyaaDEYmCsDyabCsEbabCsEeabCsDyEbbCsDyEebDfEmabDfEmanBZwCBuabBZwCBdabBZwCBjabC
   AgCBuabBZwCBla") ++
  [(4304, 43, 0), (4349, 3, 0), (8064, 8, 8), (8072, 8, 0), (8080, 8, 8), (8088, 8, 0), (8096, 8, 8),
   (8104, 8, 0)].flatMap fun r => (List.range' r.1 r.2.1).map fun n => (n, [n + r.2.2])

def casedRanges : List (Nat × Nat) :=
  rangesFrom 0 (numbers "CnzhzBwalafagwcBecHmcdfHzcBjibBfeDtaBrddbddcahacccactcDecFijGjcBlkBoEFgBlc
   agadBqdcZxDhdfDFviiBqdcCnHjCnKrdfdBldfdhcacacacBedCacgcaeccgeddffmgccgEnaoarmDyafadjcaeehacacacd
   cffaddgefasBfebBFmBzCRvIuhdebnBlcagaBTWdBttBdFdDxedcCggbcaceBcbccBFqBqcmiDbBEAjgneBNuzhzBTuDbDtB
   jfBjEnkcocgcbckcocgcbRkadccBpciBVaByoByELaClBGIrClBMLlDgcCscbdadbddclcacgcCmcddhcgcBbcdcecaegcNb
   dycycBecycBecycBecycBecychCSzjctDTiCpDAbzhzhz")

def caseIgnorableRanges : List (Nat × Nat) :=
  rangesFrom 0 (numbers "BnahamaBkacaCuafacafadbTkHjfbfakbcaJsgIaagaByBscacbcbcaBtamflkcaBkaluraDyh
   cjcdBiacaBfBaDokChkfadazxBscBtaibhhBqCfCeacafhfaeglboaqaChafdjavbBbadbCgafbfbdceaBfbeambCgafecbf
   avbxfcaChadacdjaibmbBfaCkanaBzaeaCeaccgccdibmbBeaChadahagbvbBdbCgbfdjavbBeaCvaiccaDnadgmiDvadika
   cfCxbBcacacaCencecbgkcBjkaDzdcfcbdbBabfcrdoadbhaqaDraXlcBKlcBebBfbBfbCnbcgjadkeagaBueCaaCobBjaEp
   cfbkahcImbdaChacgcacadhhjdaBoajBeBydBxacecagaBpinbBhddbccCfacbeaccChhdbCnfDfccmcgfahaebBzCkoaBjD
   wReaccmcococobnejbladadeByecjcaoarmCaBgEJsbEkcEwaqaDtBfBwaScaBldeegaDqfDqcBQBvaBWdfKlaDvdcjcaBdd
   DdbpBhDbaycEacebjaeafaBabgaFwbBbroaBnhBakBvcBxadddbsawbCpfdbdbnajaBkamaCaaccdbgbcaBcapbgbcaDxekc
   EsadafaBDZtaFsqWcpeanpBjadaGoaiahamaBkacaBwaBubCqawcTuaItaFueBNqfcBpciWlccbgdBpcfaGkbWcdOybFykBy
   dEuaCdoBqadblcByddbdafalaBzcBlechClanbCbilddaDscdacbhaGfaehwbCgbeaBmgeeHohdccayaDhfcafbcbJfdhbcb
   BcbDihdacbEdacadfcaDycddceKaicbJxbcafaFpddbfaBhjBpfddjakfdcBvmcbPrgcfcaDfvdgcbcbEtfeacbcgcaCvbea
   caNkbIBciUSueCigkdBNwaCmqCnbcbYGqdcgcbEUhbcdGYvBtdwUzckpdgBfdFtcCYeCcfBxjapaxecoCAjgcqdgcbceKcnO
   faCkdCFxgEghEBgeBSXXqaBfDrEzJf")

def isCased : Bool :=
  if c.toNat < 128 then c.isAlpha else inRanges casedRanges c

def isCaseIgnorable : Bool := inRanges caseIgnorableRanges c

def applyRuns (runs : List CaseRun) (c : Char) : Char :=
  match runs.findSome? (·.image? c.toNat) with
  | some n => Char.ofNat n
  | none => c

def lowerChar : List Char :=
  if c.toNat < 128 then [c.toLower]
  else if c.toNat = 304 then [Char.ofNat 105, Char.ofNat 775]
  else [applyRuns lowerRuns c]

def upperChar : List Char :=
  if c.toNat < 128 then [c.toUpper]
  else match upperExpansions.lookup c.toNat with
    | some ns => ns.map Char.ofNat
    | none => [applyRuns upperRuns c]

def titleChar : List Char :=
  if c.toNat < 128 then [c.toUpper]
  else match titleExceptions.lookup c.toNat with
    | some ns => ns.map Char.ofNat
    | none => upperChar c

def nearestIsCased (cs : List Char) : Bool :=
  match cs.dropWhile isCaseIgnorable with
  | c :: _ => isCased c
  | [] => false

def lowerWithin (before : List Char) (c : Char) (after : List Char) : List Char :=
  if c.toNat = 931 then
    if nearestIsCased before && !nearestIsCased after then [Char.ofNat 962] else [Char.ofNat 963]
  else lowerChar c

def lowerFrom (before : List Char) : List Char → List Char
  | [] => []
  | c :: cs => lowerWithin before c cs ++ lowerFrom (c :: before) cs

def titleFrom (before : List Char) : List Char → List Char
  | [] => []
  | c :: cs =>
    (if (before.head?.map isCased).getD false then lowerWithin before c cs else titleChar c) ++
      titleFrom (c :: before) cs

def lower : String := String.ofList (lowerFrom [] s.toList)

def upper : String := String.ofList (s.toList.flatMap upperChar)

def title : String := String.ofList (titleFrom [] s.toList)

end KeywordDocs.Text
