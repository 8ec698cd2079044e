import KeywordDocs.Text.Identifier

/-!
# Quoted Literals

A text as a quoted literal of the documented language.
-/

namespace KeywordDocs.Text

def symbolRanges : List (Nat × Nat) :=
  rangesFrom 0 (numbers "GficbcgcacbceyaBgaRrdnnggcacqEoafaeagbEjaFkagbIbfBqbdcBvacadadaBtbsjmaccCx
   dDzakalaubcnIzdfbBxoBgaBqaImblaFajcaEraEsbExacfErkEvifaHvajgsjEtaCxaqalbGkwdflkcacacdCuaCfhcfcmE
   ifDbbDoaXpikkujDzaXxbBtbDbcCubGcccdvjhkLyaebFxBhBfbEzgcfraGaqkkEwdCieClbCnhmaBCsaccmcococobsxjod
   scjsaekcosBgBddccBcbcdcblacbhfcacacarbfegdcqBqcfZmBakwCRrdBfcEaIwfpgEjaFoDpBjzcDknIfBblgdeyqagbg
   cDobeaDnaFtpBhBjBdBecSlJTpClBGUjCcCebKkcDtdlaEmfjwkbEabGcdfjChdDjbBpccaBybBwaDumrbEvdycDxbrbEcap
   bEyaBEAgaFhqGafIlrEyaBrfrjxcdxeccscdfacacacacacacacaFbolgBbdcaBbkEtgcgobJzcfBseiCczcmeaBwBsIvBaB
   ldEuaBxaPzaBCqiyiBoiCyexfeaBgaEvbdpdBtCniiiBlcBecBpaBjlCpgzhzhBadngMtfNpBeBvaEijBriBtdCigEugftDi
   bcdExdBxbDcdfaoaccctCqfEeaQcelbcaEbaJrwEccBdmCzaEzfJsaGtiDecGaaDphDgccePzevsebYwbHsBxoaBRteEJdbW
   DwbFeaCoifbwgBEtBaMqaBDBmadaHCbElCjJllBmdChgcxbiBdfCiwCneaFztnDikyBGjaBaaBgaBaaBgaBaaBgaBaaBgaBa
   aCjTrCedBzhcncgCOqaQqaCEyiFnbBEgCpCzCiQtbKlBrfDvnodococBklGrCfBcoBrfiibpfFzBLvgpemeElnDkilfaqlfC
   djjhBnjBddbDbNbnndeeeegkBcekgfljhhjgkFqcCc")

def isPrintable (c : Char) : Bool :=
  if c.toNat < 128 then 32 ≤ c.toNat && c.toNat < 127 else isIdentifierPart c || inRanges symbolRanges c

def hexDigit (n : Nat) : Char :=
  if n < 10 then Char.ofNat (48 + n) else Char.ofNat (87 + n)

def hexDigits : Nat → Nat → List Char
  | 0, _ => []
  | width + 1, n => hexDigits width (n / 16) ++ [hexDigit (n % 16)]

def quoteMark (cs : List Char) : Char :=
  if cs.contains '\'' && !cs.contains '"' then '"' else '\''

def quoteChar (mark c : Char) : List Char :=
  if c == mark || c == '\\' then ['\\', c]
  else if c == '\n' then ['\\', 'n']
  else if c == '\r' then ['\\', 'r']
  else if c == '\t' then ['\\', 't']
  else if isPrintable c then [c]
  else if c.toNat < 256 then '\\' :: 'x' :: hexDigits 2 c.toNat
  else if c.toNat < 65536 then '\\' :: 'u' :: hexDigits 4 c.toNat
  else '\\' :: 'U' :: hexDigits 8 c.toNat

def quote (s : String) : String :=
  let mark := quoteMark s.toList
  String.ofList (mark :: s.toList.flatMap (quoteChar mark) ++ [mark])

def quoteByte (mark : Char) (b : UInt8) : List Char :=
  let c := Char.ofNat b.toNat
  if b.toNat < 128 then quoteChar mark c else '\\' :: 'x' :: hexDigits 2 b.toNat

def quoteBytes (bs : List UInt8) : String :=
  let mark := quoteMark (bs.map fun b => Char.ofNat b.toNat)
  String.ofList ('b' :: mark :: bs.flatMap (quoteByte mark) ++ [mark])

end KeywordDocs.Text
