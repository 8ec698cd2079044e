import KeywordDocs.Digest.Hash
import KeywordDocs.Files.Encoding
import KeywordDocs.Json.Reader
import KeywordDocs.Pattern.Reader
import KeywordDocs.Samples.Basic
import KeywordDocs.Samples.Kinds
import KeywordDocs.Text.Base64
import KeywordDocs.Value.Template

/-!
# A Library for Texts

Changing, checking and taking apart texts.
-/

namespace KeywordDocs.Samples

open Text Files

def removeWhitespace (text mode : Value) : Except Fault Value :=
  match mode with
  | .str "all" => do
    return .str (String.ofList ((← textArgument text).toList.filter fun c => !isBlank c))
  | .str "leading" => do return .str (trimLeft (← textFor text))
  | .str "trailing" => do return .str (trimRight (← textFor text))
  | .str "both" => do return .str (trim (← textFor text))
  | _ => .ok text

def digitRuns : List Char → List Char → List (List Char)
  | run, [] => if run.isEmpty then [] else [run.reverse]
  | run, c :: cs =>
    if isDigit c then digitRuns (c :: run) cs
    else if run.isEmpty then digitRuns [] cs
    else run.reverse :: digitRuns [] cs

def mostDigits : Nat := 4300

def extractNumbers (text : Value) : Except Fault Value := do
  let runs := digitRuns [] (← textArgument text).toList
  if runs.any fun run => mostDigits < run.length then .error .badValue
  return .list (runs.map fun run => .int (run.foldl (fun n c => n * 10 + digitValue c) 0 : Nat))

def findAll (pattern text : String) : Except Fault (List Value) := do
  let m ← Matcher.read pattern
  return (m.all text).map fun f => .str (String.ofList f.text)

def emailPattern : String := "\\b[A-Za-z0-9._%+-]+@[A-Za-z0-9.-]+\\.[A-Z|a-z]\x7b2,\x7d\\b"

def urlPattern : String :=
  "^https?://(?:[-\\w.])+(?:[:\\d]+)?(?:/(?:[\\w/_.])*(?:\\?(?:[\\w&=%.])*)?(?:#(?:\\w)*)?)?$"

def isUrl (text : String) : Except Fault Bool := do
  return ((← Matcher.read urlPattern).matchStart text).isSome

def stars (n : Int) : String := String.ofList (List.replicate n.toNat '*')

def maskText (text visible : Value) : Except Fault Value := do
  let n ← size text
  if !(← visible.less (.int n)) then return .str (stars n)
  let shown ← intArgument visible
  let s ← textArgument text
  return .str (String.ofList (upTo shown s.toList) ++ stars (n - shown))

def digestNamed? (name : String) : Option (List UInt8 → List UInt8) :=
  match lower name with
  | "md5" => some Digest.md5
  | "sha1" | "sha-1" => some Digest.sha1
  | "sha224" | "sha-224" | "sha2-224" => some Digest.sha224
  | "sha256" | "sha-256" | "sha2-256" => some Digest.sha256
  | "sha384" | "sha-384" | "sha2-384" => some Digest.sha384
  | "sha512" | "sha-512" | "sha2-512" => some Digest.sha512
  | _ => none

def hashText (text algorithm : Value) : Except Fault Value := do
  match digestNamed? (← textArgument algorithm) with
  | none => .error .badValue
  | some digest => return .str (Digest.hex (digest (← textFor text).toUTF8.toList))

def decodeText (encoded : Value) : Except Fault Value := do
  let bytes ← Base64.decode (← textArgument encoded)
  return .str (← (Encoding.utf8 false).decode bytes)

def replaceMatches (text pattern replacement caseSensitive : Value) : Except Fault Value := do
  let m ← Matcher.read (← textArgument pattern) !caseSensitive.isTruthy
  let template ← textArgument replacement
  let _ ← Pattern.readTemplate m.groupCount template
  return .str (← m.replaceWith template (← textArgument text))

def wordsUpTo : Nat → Nat → List Char → List (List Char)
  | 0, _, _ => []
  | fuel + 1, left, cs =>
    match trimLeftChars cs with
    | [] => []
    | rest =>
      if left = 0 then [trimRightChars rest]
      else
        let (word, after) := rest.span fun c => !isBlank c
        word :: wordsUpTo fuel (left - 1) after

def partsUpTo (sep : List Char) : Nat → List Char → List (List Char)
  | 0, cs => [cs]
  | left + 1, cs =>
    match splitAtFirst sep cs with
    | some (part, rest) => part :: partsUpTo sep left rest
    | none => [cs]

def splitText (text : String) (separator : Option String) (cuts : Nat) : Except Fault (List String) :=
  match separator with
  | none => .ok ((wordsUpTo (text.length + 1) cuts text.toList).map String.ofList)
  | some sep =>
    if sep.isEmpty then .error .badValue
    else .ok ((partsUpTo sep.toList (min cuts text.length) text.toList).map String.ofList)

def mostCuts : Int := 9223372036854775807

def splitString (text separator maxSplit : Value) : Except Fault Value := do
  let s ← textFor text
  if ← maxSplit.less (.int 0) then .error .wrongKind
  let cuts ← intArgument maxSplit
  if mostCuts < cuts then .error .overflow
  let sep ← match separator with
    | .none => pure none
    | other => (textArgument other).map some
  return .list ((← splitText s sep cuts.toNat).map .str)

def joinTexts (separator : String) (texts : List String) : String := join separator texts

def joinStrings (strings separator : Value) : Except Fault Value := do
  let sep ← textFor separator
  let texts ← (← items strings).mapM textArgument
  return .str (joinTexts sep texts)

def countOccurrences (text part caseSensitive : Value) : Except Fault Value := do
  if caseSensitive.isTruthy then
    match text with
    | .list vs | .tuple vs => return .int (vs.filter fun v => v.alike part).length
    | _ => return .int (count (← textArgument' text part) (← textFor text))
  else
    let s := lower (← textFor text)
    return .int (count (lower (← textFor part)) s)
where
  textArgument' (text part : Value) : Except Fault String := do
    let _ ← textFor text
    textArgument part

def truncateText (text limit ending : Value) : Except Fault Value := do
  let n ← size text
  if !(← limit.less (.int n)) then return text
  let cut ← limit.subtract (.int (← size ending))
  let s ← textArgument text
  let e ← textArgument ending
  return .str (String.ofList (upTo (← intArgument cut) s.toList) ++ e)

def centred (width : Int) (fill : Char) (cs : List Char) : List Char :=
  let missing := (width - cs.length).toNat
  -- An odd rest goes to the left if the width is odd as well.
  let left := missing / 2 + (if missing % 2 = 1 && width % 2 = 1 then 1 else 0)
  List.replicate left fill ++ cs ++ List.replicate (missing - left) fill

def padText (text width padding align : Value) : Except Fault Value :=
  let filled (f : Int → Char → List Char → List Char) : Except Fault Value := do
    let s ← textFor text
    let n ← intArgument width
    match (← textArgument padding).toList with
    | [fill] => return .str (String.ofList (f n fill s.toList))
    | _ => .error .wrongKind
  let missing (n : Int) (fill : Char) (cs : List Char) := List.replicate (n - cs.length).toNat fill
  match align with
  | .str "left" => filled fun n fill cs => cs ++ missing n fill cs
  | .str "right" => filled fun n fill cs => missing n fill cs ++ cs
  | .str "center" => filled centred
  | _ => .ok text

def reversed : Value → Except Fault Value
  | .str s => .ok (.str (String.ofList s.toList.reverse))
  | .list vs => .ok (.list vs.reverse)
  | .tuple vs => .ok (.tuple vs.reverse)
  | _ => .error .wrongKind

def withoutRepeats (texts : List String) : List String :=
  texts.foldl (fun seen s => if seen.contains s then seen else seen ++ [s]) []

def removeDuplicates (text separator : Value) : Except Fault Value := do
  let s ← textFor text
  match separator with
  | .none => .error .missingAttribute
  | other =>
    let sep ← textArgument other
    let parts ← splitText s (some sep) s.length
    return .str (joinTexts sep (withoutRepeats parts))

def isPhoneNumber (phone country : Value) : Except Fault Value := do
  let digits := (← textArgument phone).toList.filter isDigit
  if country.asText? = some "US" then
    return .bool (digits.length = 10 || (digits.length = 11 && digits.head? = some '1'))
  return .bool (10 ≤ digits.length)

def objectRest (inner : Bool) : List Char → Option (List Char)
  | [] => none
  | c :: cs =>
    if c = '{' then if inner then none else (objectRest true cs).map (c :: ·)
    else if c = '}' then if inner then (objectRest false cs).map (c :: ·) else some [c]
    else (objectRest inner cs).map (c :: ·)

def embeddedObject? : List Char → Option (List Char)
  | [] => none
  | c :: cs =>
    if c = '{' then ((objectRest false cs).map (c :: ·)).or (embeddedObject? cs)
    else embeddedObject? cs

def extractJson (text : String) : Option Json :=
  (embeddedObject? text.toList).bind fun cs => (Json.read (String.ofList cs)).toOption

def drawCharacters (alphabet : List Char) (n : Nat) : Playing String := do
  let k := (← get).drawn
  modify fun scene => { scene with drawn := k + n }
  return String.ofList ((List.range n).map fun i => alphabet.getD (7 * (k + i) % alphabet.length) ' ')

def letters (low high : Char) : List Char :=
  (List.range (high.toNat + 1 - low.toNat)).map fun i => Char.ofNat (low.toNat + i)

def alphabetOf (upperCase lowerCase digits special : Bool) : List Char :=
  let chosen := (if upperCase then letters 'A' 'Z' else []) ++
    (if lowerCase then letters 'a' 'z' else []) ++ (if digits then letters '0' '9' else []) ++
    (if special then "!@#$%^&*".toList else [])
  if chosen.isEmpty then letters 'a' 'z' ++ letters 'A' 'Z' ++ letters '0' '9' else chosen

def strings : SampleLibrary where
  initial := [("_cache", .dict [])]
  keywords := [ keyword1 "capitalize_words" (.required "text") fun t =>
      outcome do return .str (title (← textFor t)),
    keyword2 "remove_whitespace" (.required "text") (.optional "mode" (.str "all")) fun t m =>
      outcome (removeWhitespace t m),
    keyword1 "extract_numbers" (.required "text") fun t => outcome (extractNumbers t),
    keyword1 "extract_emails" (.required "text") fun t =>
      outcome do return .list (← findAll emailPattern (← textArgument t)),
    keyword1 "validate_url" (.required "url") fun u =>
      outcome do return .bool (← isUrl (← textArgument u)),
    keyword2 "mask_sensitive_data" (.required "text") (.optional "visible_chars" (.int 4))
      fun t n => outcome (maskText t n),
    keyword2 "hash_string" (.required "text") (.optional "algorithm" (.str "sha256"))
      fun t a => outcome (hashText t a),
    keyword1 "encode_base64" (.required "text") fun t =>
      outcome do return .str (Base64.encode (← textFor t).toUTF8.toList),
    keyword1 "decode_base64" (.required "encoded_text") fun t => outcome (decodeText t),
    keyword4 "replace_pattern" (.required "text") (.required "pattern") (.required "replacement")
      (.optional "case_sensitive" (.bool true)) fun t p r c => outcome (replaceMatches t p r c),
    keyword3 "split_string" (.required "text") (.optional "separator" .none)
      (.optional "max_split" (.int (-1))) fun t s n => outcome (splitString t s n),
    keyword2 "join_strings" (.required "strings") (.optional "separator" (.str " "))
      fun ts s => outcome (joinStrings ts s),
    keyword2 "format_template" (.required "template") (.others "kwargs") fun t values =>
      outcome do
        let named := match values with
          | .dict entries => entries.map fun (k, v) => (k.display, v)
          | _ => []
        return .str (← fillTemplate (← textFor t) named),
    keyword3 "count_occurrences" (.required "text") (.required "substring")
      (.optional "case_sensitive" (.bool true)) fun t p c => outcome (countOccurrences t p c),
    keyword3 "truncate_string" (.required "text") (.required "max_length")
      (.optional "suffix" (.str "...")) fun t n e => outcome (truncateText t n e),
    keyword4 "pad_string" (.required "text") (.required "width") (.optional "padding" (.str " "))
      (.optional "align" (.str "left")) fun t w p a => outcome (padText t w p a),
    keyword1 "reverse_string" (.required "text") fun t => outcome (reversed t),
    keyword2 "remove_duplicates" (.required "text") (.optional "separator" (.str " "))
      fun t s => outcome (removeDuplicates t s),
    keyword2 "validate_phone_number" (.required "phone") (.optional "country" (.str "US"))
      fun p c => outcome (isPhoneNumber p c),
    keyword1 "extract_json_from_text" (.required "text") fun t =>
      outcome do return ((extractJson (← textArgument t)).map Value.ofJson).getD .none,
    { name := "generate_random_string"
      formals := [.optional "length" (.int 10), .optional "include_uppercase" (.bool true),
        .optional "include_lowercase" (.bool true), .optional "include_digits" (.bool true),
        .optional "include_special" (.bool false)]
      body := fun
        | [n, u, l, d, s] => do
          let n ← outcome (intArgument n)
          return .str (← drawCharacters
            (alphabetOf u.isTruthy l.isTruthy d.isTruthy s.isTruthy) n.toNat)
        | _ => throw .wrongKind }]

end KeywordDocs.Samples
