import KeywordDocs.Json.Reader
import KeywordDocs.Json.Writer
import Mathlib.Data.List.TakeDrop

/-!
# Written Values Read Back

What is written on one line is read as the value it was written for, if no object has a key twice. It stands
in front of a rest that does not continue a number, all that the layout puts there.
-/

namespace KeywordDocs.Json

open List Text Number
open String (toList_append)

/-- Nothing at the front that would belong to a number before it. -/
def EndsNumber (rest : List Char) : Prop := ∀ c ∈ rest.head?, c.isDigit = false ∧ c ≠ '.' ∧ c ≠ 'e' ∧ c ≠ 'E'

variable {cs ds rest : List Char} {n : Nat}

lemma natOfDigits_eq (ds : List Char) : natOfDigits ds = Nat.ofDigitChars 10 ds 0 := by
  unfold natOfDigits Nat.ofDigitChars
  congr 1
  funext n c
  rw [Nat.mul_comm]
  rfl

lemma natOfDigits_digitsOf (n : Nat) : natOfDigits (digitsOf n) = n := by
  rw [natOfDigits_eq, digitsOf, Nat.ofDigitChars_ten_toDigits]

lemma isDigit_digitsOf {c : Char} (h : c ∈ digitsOf n) : c.isDigit = true :=
  Nat.isDigit_of_mem_toDigits (by decide) (by decide) h

/-- A number is not written with zeros in front. -/
lemma head_digitsOf (hn : n ≠ 0) : ∃ c ds, digitsOf n = c :: ds ∧ c ≠ '0' := by
  induction n using Nat.strongRecOn with
  | ind n ih =>
    by_cases hlt : n < 10
    · have hdigit : ∀ n < 10, n ≠ 0 → n.digitChar ≠ '0' := by decide
      exact ⟨n.digitChar, [], Nat.toDigits_of_lt_base hlt, hdigit n hlt hn⟩
    · rcases ih (n / 10) (by omega) (by omega) with ⟨c, ds, hds, hc⟩
      refine ⟨c, ds ++ [(n % 10).digitChar], ?_, hc⟩
      exact (Nat.toDigits_of_base_le (by decide) (by omega)).trans (congrArg (· ++ _) hds)

lemma digitRun_cons (c : Char) (cs : List Char) : digitRun (c :: cs) =
  if c.isDigit = true then (c :: (digitRun cs).1, (digitRun cs).2) else ([], c :: cs) := by
  simp only [digitRun, span_eq_takeWhile_dropWhile, takeWhile_cons, dropWhile_cons]
  split <;> rfl

lemma digitRun_of_digits (h : ∀ c ∈ ds, c.isDigit = true) : digitRun ds = (ds, []) := by
  induction ds with
  | nil => rfl
  | cons c ds ih =>
    rcases forall_mem_cons.mp h with ⟨hc, hds⟩
    rw [digitRun_cons, if_pos hc, ih hds]

lemma digitRun_append (hrest : EndsNumber rest) (cs : List Char) :
  digitRun (cs ++ rest) = ((digitRun cs).1, (digitRun cs).2 ++ rest) := by
  induction cs with
  | nil =>
    cases rest with
    | nil => rfl
    | cons c rest =>
      rw [nil_append, digitRun_cons, if_neg (Bool.eq_false_iff.mp (hrest c rfl).1)]
      rfl
  | cons c cs ih =>
    rw [cons_append, digitRun_cons, digitRun_cons, ih]
    split <;> rfl

lemma readSign_append (h : cs ≠ []) (rest : List Char) :
  readSign (cs ++ rest) = ((readSign cs).1, (readSign cs).2 ++ rest) := by
  cases cs with
  | nil => cases h rfl
  | cons c cs =>
    by_cases hc : c = '-'
    · rw [hc]
      rfl
    · have hnot := fun cs => readSign.eq_2 (c :: cs) fun r heq => hc (cons.inj heq).1
      rw [cons_append, hnot, hnot]
      rfl

lemma readWhole_append (h : cs ≠ []) (hrest : EndsNumber rest) :
  readWhole (cs ++ rest) = ((readWhole cs).1, (readWhole cs).2 ++ rest) := by
  cases cs with
  | nil => cases h rfl
  | cons c cs =>
    by_cases hc : c = '0'
    · rw [hc]
      rfl
    · have hnot := fun cs => readWhole.eq_2 (c :: cs) fun r heq => hc (cons.inj heq).1
      rw [cons_append, hnot, hnot]
      exact digitRun_append hrest (c :: cs)

lemma readFraction_append (hrest : EndsNumber rest) (cs : List Char) :
  readFraction (cs ++ rest) = ((readFraction cs).1, (readFraction cs).2 ++ rest) := by
  cases cs with
  | nil => exact readFraction.eq_2 rest fun r heq => (hrest '.' (by rw [heq]; rfl)).2.1 rfl
  | cons c cs =>
    by_cases hc : c = '.'
    · rw [hc, cons_append, readFraction, readFraction, digitRun_append hrest]
      rcases digitRun cs with ⟨_ | ⟨d, ds⟩, r⟩ <;> rfl
    · have hnot := fun cs => readFraction.eq_2 (c :: cs) fun r heq => hc (cons.inj heq).1
      rw [cons_append, hnot, hnot]
      rfl

lemma readExponentSign_append (h : cs ≠ []) (rest : List Char) : readExponentSign (cs ++ rest) =
  ((readExponentSign cs).1, (readExponentSign cs).2.1, (readExponentSign cs).2.2 ++ rest) := by
  cases cs with
  | nil => cases h rfl
  | cons c cs =>
    by_cases hplus : c = '+'
    · rw [hplus]
      rfl
    · by_cases hminus : c = '-'
      · rw [hminus]
        rfl
      · have hnot := fun cs => readExponentSign.eq_3 (c :: cs) (fun r heq => hplus (cons.inj heq).1)
          fun r heq => hminus (cons.inj heq).1
        rw [cons_append, hnot, hnot]
        rfl

lemma readExponent_none (hrest : EndsNumber rest) : readExponent rest = none := by
  cases rest with
  | nil => rfl
  | cons c rest =>
    rcases hrest c rfl with ⟨-, -, he, hE⟩
    simp [readExponent, he, hE]

lemma readExponent_append {e : Int} (h : readExponent cs = some (e, n, [])) (hrest : EndsNumber rest) :
  readExponent (cs ++ rest) = some (e, n, rest) := by
  cases cs with
  | nil => cases h
  | cons c cs =>
    rw [readExponent] at h
    rw [cons_append, readExponent]
    split at h
    case isFalse => cases h
    case isTrue hc =>
      have hne : cs ≠ [] := by
        rintro rfl
        cases h
      simp only [if_pos hc, readExponentSign_append hne, digitRun_append hrest]
      rcases hdigits : digitRun (readExponentSign cs).2.2 with ⟨_ | ⟨d, ds⟩, r⟩
      all_goals
        simp only [hdigits] at h
        cases h
      rfl

/-- A number that makes up a whole text is read in the same way in front of what ends numbers. -/
lemma readNumber_append {v : Json} {p : Nat} (h : readNumber 0 cs = .ok (v, p, []))
  (hrest : EndsNumber rest) (start : Nat) :
  ∃ p', readNumber start (cs ++ rest) = .ok (v, p', rest) := by
  have hcs : cs ≠ [] := by
    rintro rfl
    cases h
  have hsign := readSign_append hcs rest
  unfold readNumber at h ⊢
  rcases hbody : readSign cs with ⟨negative, body⟩
  rw [hbody] at h hsign
  have hne : body ≠ [] := by
    rintro rfl
    cases h
  have hwhole := readWhole_append hne hrest
  rcases hdigits : readWhole body with ⟨_ | ⟨d, ds⟩, r⟩
  · simp only [hdigits] at h
    cases h
  · have hfraction := readFraction_append hrest r
    rcases hplaces : readFraction r with ⟨fs, r'⟩
    rw [hdigits] at hwhole
    rw [hplaces] at hfraction
    simp only [hdigits, hplaces] at h
    simp only [hsign, hwhole, hfraction]
    cases hexponent : readExponent r' with
    | some x =>
      rcases x with ⟨e, n, r''⟩
      simp only [hexponent] at h
      cases h
      rw [readExponent_append hexponent hrest]
      exact ⟨_, rfl⟩
    | none =>
      simp only [hexponent] at h
      -- Without an exponent, nothing is left of the text behind the fraction.
      have hnil : r' = [] := by split at h <;> cases h <;> rfl
      rw [hnil, nil_append, readExponent_none hrest]
      split at h
      case isTrue hempty =>
        cases h
        exact ⟨_, if_pos hempty⟩
      case isFalse hempty =>
        cases h
        exact ⟨_, if_neg hempty⟩

lemma exists_digit_of_readNumber {start : Nat} {r : Step Json} (h : readNumber start cs = .ok r) :
  ∃ c tail, c.isDigit = true ∧ (cs = c :: tail ∨ cs = '-' :: c :: tail) := by
  have hwhole : (readWhole (readSign cs).2).1 ≠ [] := by
    intro hnil
    unfold readNumber at h
    rcases hds : readWhole (readSign cs).2 with ⟨ds, r⟩
    simp only [hds] at h hnil
    rw [hnil] at h
    cases h
  have hdigit : ∃ c tail, c.isDigit = true ∧ (readSign cs).2 = c :: tail := by
    cases hbody : (readSign cs).2 with
    | nil =>
      rw [hbody] at hwhole
      cases hwhole rfl
    | cons c tail =>
      refine ⟨c, tail, Bool.not_eq_false _ ▸ fun hc => hwhole ?_, rfl⟩
      rw [hbody, readWhole.eq_2 _ (fun r heq => by rw [(cons.inj heq).1] at hc; cases hc), digitRun_cons,
        if_neg (Bool.eq_false_iff.mp hc)]
  rcases hdigit with ⟨c, tail, hc, hbody⟩
  refine ⟨c, tail, hc, ?_⟩
  unfold readSign at hbody
  split at hbody
  case h_1 r => exact .inr (congrArg _ hbody)
  case h_2 => exact .inl hbody

lemma readSign_ofInt (n : Int) : readSign (ofInt n).toList = (decide (n < 0), digitsOf n.natAbs) := by
  unfold ofInt
  split
  case isTrue hneg =>
    rw [String.toList_ofList, decide_eq_true hneg]
    rfl
  case isFalse hneg =>
    rw [String.toList_ofList, decide_eq_false hneg]
    refine readSign.eq_2 _ fun r heq => ?_
    exact absurd (isDigit_digitsOf (heq ▸ mem_cons_self)) (by decide)

lemma readWhole_digitsOf (n : Nat) : readWhole (digitsOf n) = (digitsOf n, []) := by
  by_cases hn : n = 0
  · rw [hn]
    rfl
  · rcases head_digitsOf hn with ⟨c, ds, hds, hc⟩
    rw [readWhole.eq_2 _ fun r heq => hc (cons.inj (hds.symm.trans heq)).1]
    exact digitRun_of_digits fun c hc => isDigit_digitsOf hc

lemma readNumber_ofInt (n : Int) : ∃ p, readNumber 0 (ofInt n).toList = .ok (.int n, p, []) := by
  have hvalue := natOfDigits_digitsOf n.natAbs
  have hwhole := readWhole_digitsOf n.natAbs
  unfold readNumber
  simp only [readSign_ofInt, hwhole]
  cases hds : digitsOf n.natAbs with
  | nil => cases Nat.toDigits_ne_nil hds
  | cons c ds =>
    rw [hds] at hvalue
    refine ⟨_, congrArg Except.ok (Prod.ext (congrArg Json.int ?_) rfl)⟩
    simp only [decide_eq_true_eq]
    split <;> omega

variable (start pos : Nat) (acc : List Char)

lemma hexValue?_hexDigit (n : Nat) (h : n < 16) : hexValue? (hexDigit n) = some n := by
  revert n
  decide

lemma hexUnit?_hexDigits {n : Nat} (h : n < 65536) : ∃ a b c d,
  hexDigits 4 n = [a, b, c, d] ∧ hexUnit? a b c d = some n := by
  refine ⟨_, _, _, _, rfl, ?_⟩
  simp only [hexUnit?, hexValue?_hexDigit _ (Nat.mod_lt _ (by decide : 16 > 0))]
  show some _ = some n
  congr 1
  omega

/-- An escape of four digits that is no first half of a pair is read by itself. -/
lemma readString_unit {n : Nat} (h : n < 65536) (hhigh : ¬ (55296 ≤ n ∧ n ≤ 56319)) (hrest : rest ≠ []) :
  readString start pos acc (unitEscape n ++ rest) =
    readString start (pos + 6) (charOfUnit n :: acc) rest := by
  rcases hexUnit?_hexDigits h with ⟨a, b, c, d, hdigits, hunit⟩
  rw [unitEscape, hdigits]
  cases rest with
  | nil => cases hrest rfl
  | cons x cs =>
    by_cases hpair : ∃ e f g h cs', x = '\\' ∧ cs = 'u' :: e :: f :: g :: h :: cs'
    · rcases hpair with ⟨e, f, g, h, cs', rfl, rfl⟩
      have hno : ¬ (55296 ≤ n ∧ n ≤ 56319 ∧ (!cs'.isEmpty) = true) := fun hall => hhigh ⟨hall.1, hall.2.1⟩
      rw [cons_append, cons_append, cons_append, cons_append, cons_append, cons_append, nil_append,
        readString.eq_3, hunit]
      exact if_neg hno
    · refine (readString.eq_4 _ _ _ _ _ _ _ _ _ fun e f g h cs' hx hcs => ?_).trans ?_
      · exact hpair ⟨e, f, g, h, cs', hx, hcs⟩
      · rw [hunit]

lemma readString_pair {m : Nat} (h : m < 1048576) (hrest : rest ≠ []) :
  readString start pos acc (unitEscape (55296 + m / 1024) ++ unitEscape (56320 + m % 1024) ++ rest) =
    readString start (pos + 12) (Char.ofNat (65536 + m) :: acc) rest := by
  rcases hexUnit?_hexDigits (n := 55296 + m / 1024) (by omega) with ⟨a, b, c, d, hdigits, hunit⟩
  rcases hexUnit?_hexDigits (n := 56320 + m % 1024) (by omega) with ⟨e, f, g, k, hdigits', hunit'⟩
  have hhigh : 55296 ≤ 55296 + m / 1024 ∧ 55296 + m / 1024 ≤ 56319 ∧ (!rest.isEmpty) = true :=
    ⟨by omega, by omega, by simp [hrest]⟩
  have hlow : 56320 ≤ 56320 + m % 1024 ∧ 56320 + m % 1024 ≤ 57343 := by omega
  have hsum : 65536 + (55296 + m / 1024 - 55296) * 1024 + (56320 + m % 1024 - 56320) = 65536 + m := by omega
  rw [unitEscape, unitEscape, hdigits, hdigits']
  refine (readString.eq_3 start pos acc a b c d e f g k rest).trans ?_
  simp only [hunit, hunit', if_pos hhigh, if_pos hlow, hsum]

lemma readString_escapeChar (c : Char) (hrest : rest ≠ []) :
  ∃ pos', readString start pos acc (escapeChar c ++ rest) = readString start pos' (c :: acc) rest := by
  have hshort : ∀ letter, letter ≠ 'u' → shortEscape? letter = some c →
      ∃ pos', readString start pos acc (['\\', letter] ++ rest) = readString start pos' (c :: acc) rest := by
    intro letter hu he
    refine ⟨pos + 2, (readString.eq_7 _ _ _ _ _ (fun _ _ _ _ _ _ _ _ _ h => absurd h hu)
      (fun _ _ _ _ _ _ h => absurd h hu) hu).trans ?_⟩
    rw [he]
    rfl
  have hchar : Char.ofNat c.toNat = c := Char.ofNat_toNat c
  have hvalid : c.toNat < 55296 ∨ 57343 < c.toNat ∧ c.toNat < 1114112 := c.valid
  unfold escapeChar
  split
  case isTrue h => exact hshort '"' (by decide) (by rw [h]; rfl)
  case isFalse hquote =>
    split
    case isTrue h => exact hshort '\\' (by decide) (by rw [h]; rfl)
    case isFalse hslash =>
      split
      case isTrue h => exact hshort 'n' (by decide) (h ▸ rfl)
      split
      case isTrue h => exact hshort 'r' (by decide) (h ▸ rfl)
      split
      case isTrue h => exact hshort 't' (by decide) (h ▸ rfl)
      split
      case isTrue h => exact hshort 'f' (by decide) (congrArg some (h ▸ hchar))
      split
      case isTrue h => exact hshort 'b' (by decide) (congrArg some (h ▸ hchar))
      split
      case isTrue h =>
        refine ⟨pos + 1, (readString.eq_8 _ _ _ _ _ hquote (fun _ _ _ _ _ _ _ _ _ h => absurd h hslash)
          (fun _ _ _ _ _ _ h => absurd h hslash) (fun _ h => absurd h hslash)
          (fun h => absurd h hslash) (fun _ _ h => absurd h hslash)).trans ?_⟩
        rw [if_neg (by omega)]
        rfl
      split
      case isTrue h =>
        refine ⟨pos + 6, (readString_unit start pos acc h (by omega) hrest).trans ?_⟩
        rw [charOfUnit, if_neg (by omega), hchar]
      case isFalse h =>
        refine ⟨pos + 12, (readString_pair start pos acc (m := c.toNat - 65536) (by omega) hrest).trans ?_⟩
        rw [Nat.add_sub_cancel' (by omega), hchar]

lemma readString_escaped (s rest : List Char) :
  ∃ pos', readString start pos acc (s.flatMap escapeChar ++ '"' :: rest) =
    .ok (String.ofList (acc.reverse ++ s), pos', rest) := by
  induction s generalizing pos acc with
  | nil => exact ⟨pos + 1, by rw [append_nil]; exact readString.eq_2 start pos acc rest⟩
  | cons c s ih =>
    rw [flatMap_cons, append_assoc]
    rcases readString_escapeChar start pos acc c
      (append_ne_nil_of_right_ne_nil (s.flatMap escapeChar) (cons_ne_nil '"' rest)) with ⟨pos', hread⟩
    rcases ih pos' (c :: acc) with ⟨pos'', hrest⟩
    refine ⟨pos'', (hread.trans hrest).trans ?_⟩
    rw [reverse_cons, append_assoc, singleton_append]

variable {fuel : Nat} {v : Json} {items : List Json} {members : List (String × Json)}

/-- Reading the value back in front of any rest, with as much fuel as it has characters. -/
def ReadsBack (v : Json) : Prop :=
  ∀ (fuel pos : Nat) (rest : List Char), (compact v).toList.length ≤ fuel → EndsNumber rest →
    ∃ pos', readValue fuel pos ((compact v).toList ++ rest) = .ok (v, pos', rest)

/-- No object has a key twice, at any depth, and every floating-point number is one whose own text is read as
that number. -/
inductive Recoverable : Json → Prop
  | null : Recoverable .null
  | bool (b : Bool) : Recoverable (.bool b)
  | int (n : Int) : Recoverable (.int n)
  | float (x : Float) {p : Nat} (h : readNumber 0 (compact (.float x)).toList = .ok (.float x, p, [])) :
    Recoverable (.float x)
  | str (s : String) : Recoverable (.str s)
  | arr {items : List Json} (h : ∀ v ∈ items, Recoverable v) : Recoverable (.arr items)
  | obj {members : List (String × Json)} (keys : (members.map Prod.fst).Nodup)
      (values : ∀ m ∈ members, Recoverable m.2) : Recoverable (.obj members)

/-- What a value starts with: no blank and no closing bracket, so that it can follow an opening one. -/
def StartsValue (cs : List Char) : Prop := ∃ c tail, cs = c :: tail ∧ isSpace c = false ∧ c ≠ ']' ∧ c ≠ '}'

lemma startsValue_of_readValue {cs : List Char} {r : Step Json} (h : readValue fuel pos cs = .ok r) :
  StartsValue cs := by
  cases fuel with
  | zero => cases h
  | succ fuel =>
    cases cs with
    | nil => cases h
    | cons c cs =>
      refine ⟨c, cs, rfl, Bool.eq_false_iff.mpr fun hspace => ?_, ?_, ?_⟩
      · simp only [isSpace, Bool.or_eq_true, decide_eq_true_eq] at hspace
        rcases hspace with ((rfl | rfl) | rfl) | rfl <;> cases h
      · rintro rfl
        cases h
      · rintro rfl
        cases h

lemma ReadsBack.starts (h : ReadsBack v) : StartsValue (compact v).toList := by
  rcases h _ 0 [] (Nat.le_refl _) (by rintro c ⟨⟩) with ⟨pos, hread⟩
  rw [append_nil] at hread
  exact startsValue_of_readValue 0 hread

lemma toList_quoted (s : String) : (quoted s).toList = '"' :: (s.toList.flatMap escapeChar ++ ['"']) := by
  rw [quoted, String.toList_ofList]
  rfl

lemma skipSpace_of_not {c : Char} (h : isSpace c = false) (cs : List Char) :
  skipSpace pos (c :: cs) = (pos, c :: cs) := by
  rw [skipSpace, h]
  rfl

lemma skipSpace_blank {c : Char} (h : isSpace c = false) (cs : List Char) :
  skipSpace pos (' ' :: c :: cs) = (pos + 1, c :: cs) := by
  exact skipSpace_of_not (pos + 1) h cs

lemma readValue_string (s : String) (hfuel : 0 < fuel) :
  ∃ pos', readValue fuel pos ((quoted s).toList ++ rest) = .ok (.str s, pos', rest) := by
  obtain ⟨fuel, rfl⟩ := Nat.exists_eq_add_one.mpr (Nat.zero_lt_of_lt hfuel)
  rcases readString_escaped pos (pos + 1) [] s.toList rest with ⟨pos', hread⟩
  refine ⟨pos', ?_⟩
  rw [toList_quoted, cons_append, append_assoc, singleton_append, readValue]
  simp only [hread, bind, Except.bind, reverse_nil, nil_append, String.ofList_toList]
  rfl

/-- Whether a text of two characters or more starts as a number does. -/
def startsNumeral : List Char → Bool
  | c :: d :: _ => c.isDigit || (c = '-' && d.isDigit)
  | _ => true

lemma startsNumeral_namedValues : ∀ e ∈ namedValues, startsNumeral e.1.toList = false := by decide

lemma readScalar_numeral {cs : List Char}
  (hcs : ∃ c tail, c.isDigit = true ∧ (cs = c :: tail ∨ cs = '-' :: c :: tail)) :
  readScalar pos cs = readNumber pos cs := by
  have hnone : (namedValues.find? fun e => e.1.toList.isPrefixOf cs) = none := by
    refine find?_eq_none.mpr fun e he hfront => ?_
    have hnot := startsNumeral_namedValues e he
    rcases isPrefixOf_iff_prefix.mp hfront with ⟨more, hmore⟩
    rcases htext : e.1.toList with _ | ⟨a, _ | ⟨b, tl⟩⟩
    · rw [htext] at hnot
      cases hnot
    · rw [htext] at hnot
      cases hnot
    · rw [htext] at hnot hmore
      rcases Bool.or_eq_false_iff.mp hnot with ⟨ha, hb⟩
      rcases hcs with ⟨c, tail, hc, rfl | rfl⟩
      · cases hmore
        rw [hc] at ha
        cases ha
      · cases hmore
        rw [hc] at hb
        cases hb
  rw [readScalar, hnone]

lemma readValue_numeral {cs : List Char}
  (hcs : ∃ c tail, c.isDigit = true ∧ (cs = c :: tail ∨ cs = '-' :: c :: tail)) :
  readValue (fuel + 1) pos cs = readNumber pos cs := by
  rw [← readScalar_numeral pos hcs]
  rcases hcs with ⟨c, tail, hc, rfl | rfl⟩
  · rw [readValue]
    · exact cons_ne_nil c tail
    all_goals
      intro rest heq
      rw [(cons.inj heq).1] at hc
      cases hc
  · rfl

lemma readsBack_of_readNumber {p : Nat} (h : readNumber 0 (compact v).toList = .ok (v, p, [])) :
  ReadsBack v := by
  intro fuel pos rest hfuel hrest
  rcases exists_digit_of_readNumber h with ⟨c, tail, hc, hcs⟩
  have hpos : 0 < (compact v).toList.length := by
    rcases hcs with hcs | hcs <;> rw [hcs] <;> exact Nat.succ_pos _
  obtain ⟨fuel, rfl⟩ := Nat.exists_eq_succ_of_ne_zero (n := fuel) (by omega)
  rcases readNumber_append h hrest pos with ⟨pos', hread⟩
  refine ⟨pos', (readValue_numeral pos ⟨c, tail ++ rest, hc, ?_⟩).trans hread⟩
  exact hcs.imp (congrArg (· ++ rest)) (congrArg (· ++ rest))

lemma StartsValue.append {cs : List Char} (h : StartsValue cs) (more : List Char) :
  StartsValue (cs ++ more) := by
  rcases h with ⟨c, tail, rfl, hc⟩
  exact ⟨c, tail ++ more, rfl, hc⟩

lemma toList_compactItems_cons (v w : Json) (items : List Json) :
  (compactItems (v :: w :: items)).toList =
    (compact v).toList ++ ',' :: ' ' :: (compactItems (w :: items)).toList := by
  rw [compactItems, toList_append, toList_append, append_assoc]
  · rfl
  · exact fun h => by cases h

lemma startsValue_compactItems (hv : ReadsBack v) (items : List Json) :
  StartsValue (compactItems (v :: items)).toList := by
  cases items with
  | nil => rw [compactItems]; exact hv.starts
  | cons w items =>
    rw [toList_compactItems_cons]
    exact hv.starts.append _

lemma toList_compactMembers_cons (k : String) (v : Json) (m : String × Json)
  (members : List (String × Json)) :
  (compactMembers ((k, v) :: m :: members)).toList = (quoted k).toList ++
    ':' :: ' ' :: ((compact v).toList ++ ',' :: ' ' :: (compactMembers (m :: members)).toList) := by
  rw [compactMembers, toList_append, toList_append, toList_append,
    toList_append, append_assoc, append_assoc, append_assoc]
  · rfl
  · exact fun h => by cases h

lemma toList_compactMembers_single (k : String) (v : Json) :
  (compactMembers [(k, v)]).toList = (quoted k).toList ++ ':' :: ' ' :: (compact v).toList := by
  rw [compactMembers, toList_append, toList_append, append_assoc]
  rfl

lemma endsNumber_cons {c : Char} (hc : c = ',' ∨ c = ']' ∨ c = '}') (rest : List Char) :
  EndsNumber (c :: rest) := by
  rintro a ⟨⟩
  rcases hc with rfl | rfl | rfl <;> decide

lemma readItems_compact (hread : ∀ v ∈ items, ReadsBack v) (hne : items ≠ []) (fuel pos : Nat)
  (acc : List Json) (rest : List Char) (hfuel : (compactItems items).toList.length < fuel) :
  ∃ pos', readItems fuel pos acc ((compactItems items).toList ++ ']' :: rest) =
    .ok (.arr (acc.reverse ++ items), pos', rest) := by
  induction items generalizing fuel pos acc with
  | nil => cases hne rfl
  | cons v items ih =>
    rcases forall_mem_cons.mp hread with ⟨hv, hitems⟩
    obtain ⟨fuel, rfl⟩ := Nat.exists_eq_add_one.mpr (Nat.zero_lt_of_lt hfuel)
    cases items with
    | nil =>
      rw [compactItems] at hfuel ⊢
      rcases hv fuel pos (']' :: rest) (by omega) (endsNumber_cons (.inr (.inl rfl)) rest)
        with ⟨pos', hvalue⟩
      refine ⟨pos' + 1, ?_⟩
      rw [readItems, hvalue]
      simp only [bind, Except.bind, skipSpace_of_not pos' (c := ']') rfl, reverse_cons]
      rfl
    | cons w items =>
      rw [toList_compactItems_cons, length_append, length_cons, length_cons] at hfuel
      rw [toList_compactItems_cons, append_assoc, cons_append, cons_append]
      rcases hv fuel pos (',' :: ' ' :: ((compactItems (w :: items)).toList ++ ']' :: rest)) (by omega)
        (endsNumber_cons (.inl rfl) _) with ⟨pos', hvalue⟩
      rcases ih hitems (cons_ne_nil w items) fuel (pos' + 1 + 1) (v :: acc) (by omega) with ⟨pos'', hmore⟩
      refine ⟨pos'', ?_⟩
      rcases startsValue_compactItems (hitems w mem_cons_self) items with ⟨c, tail, htail, hspace, -⟩
      rw [readItems, hvalue]
      rw [htail] at hmore ⊢
      simp only [bind, Except.bind, skipSpace_of_not pos' (c := ',') rfl, cons_append,
        skipSpace_blank (pos' + 1) hspace]
      rw [cons_append, reverse_cons, append_assoc] at hmore
      exact hmore

lemma startsQuote_compactMembers (m : String × Json) (members : List (String × Json)) :
  ∃ tail, (compactMembers (m :: members)).toList = '"' :: tail := by
  rcases m with ⟨k, v⟩
  cases members with
  | nil => rw [toList_compactMembers_single, toList_quoted]; exact ⟨_, rfl⟩
  | cons m members => rw [toList_compactMembers_cons, toList_quoted]; exact ⟨_, rfl⟩

lemma setMember_of_not_mem {k : String} (v : Json) (h : k ∉ members.map Prod.fst) :
  setMember k v members = members ++ [(k, v)] := by
  induction members with
  | nil => rfl
  | cons m members ih =>
    rw [map_cons, mem_cons, not_or] at h
    rw [setMember, if_neg (Ne.symm h.1), ih h.2]
    rfl

/-- One member: its key, and its value in front of what comes next. -/
lemma readMembers_step {k : String} (hv : ReadsBack v) {c : Char} (hc : c = ',' ∨ c = '}')
  (fuel pos : Nat) (acc : List (String × Json)) (rest : List Char)
  (hfuel : (compact v).toList.length ≤ fuel) :
  ∃ pos', readMembers (fuel + 1) pos acc
      ((quoted k).toList ++ ':' :: ' ' :: ((compact v).toList ++ c :: rest)) =
    if c = '}' then .ok (.obj (setMember k v acc), pos' + 1, rest)
    else readMembers fuel (skipSpace (pos' + 1) rest).1 (setMember k v acc)
      (skipSpace (pos' + 1) rest).2 := by
  rcases readString_escaped pos (pos + 1) [] k.toList (':' :: ' ' :: ((compact v).toList ++ c :: rest))
    with ⟨p, hkey⟩
  rcases hv.starts with ⟨a, tail, htail, hspace, -⟩
  rcases hv fuel (p + 1 + 1) (c :: rest) hfuel (endsNumber_cons (hc.imp id .inr) rest) with ⟨p', hvalue⟩
  refine ⟨p', ?_⟩
  rw [toList_quoted, cons_append, append_assoc, singleton_append, readMembers]
  rw [htail, cons_append] at hkey hvalue ⊢
  simp only [hkey, bind, Except.bind, reverse_nil, nil_append, String.ofList_toList,
    skipSpace_of_not p (c := ':') rfl, skipSpace_blank (p + 1) hspace, hvalue]
  rcases hc with rfl | rfl
  · rfl
  · rfl

lemma readMembers_compact (hread : ∀ m ∈ members, ReadsBack m.2) (hne : members ≠ []) (fuel pos : Nat)
  (acc : List (String × Json)) (hkeys : ((acc ++ members).map Prod.fst).Nodup) (rest : List Char)
  (hfuel : (compactMembers members).toList.length < fuel) :
  ∃ pos', readMembers fuel pos acc ((compactMembers members).toList ++ '}' :: rest) =
    .ok (.obj (acc ++ members), pos', rest) := by
  induction members generalizing fuel pos acc with
  | nil => cases hne rfl
  | cons m members ih =>
    rcases m with ⟨k, v⟩
    rcases forall_mem_cons.mp hread with ⟨hfirst, hmembers⟩
    have hv : ReadsBack v := hfirst
    obtain ⟨fuel, rfl⟩ := Nat.exists_eq_add_one.mpr (Nat.zero_lt_of_lt hfuel)
    have hset : setMember k v acc = acc ++ [(k, v)] := by
      refine setMember_of_not_mem v fun hmem => ?_
      rw [map_append, nodup_append] at hkeys
      exact hkeys.2.2 k hmem k mem_cons_self rfl
    cases members with
    | nil =>
      rw [toList_compactMembers_single] at hfuel ⊢
      rw [append_assoc, cons_append, cons_append]
      rcases readMembers_step (k := k) hv (c := '}') (.inr rfl) fuel pos acc rest (by
        simp only [length_append, length_cons] at hfuel
        omega) with ⟨p, hstep⟩
      exact ⟨p + 1, by rw [hstep, hset]; rfl⟩
    | cons m members =>
      rw [toList_compactMembers_cons] at hfuel ⊢
      simp only [length_append, length_cons] at hfuel
      rw [append_assoc, cons_append, cons_append, append_assoc, cons_append, cons_append]
      rcases readMembers_step (k := k) hv (c := ',') (.inl rfl) fuel pos acc
        (' ' :: ((compactMembers (m :: members)).toList ++ '}' :: rest)) (by omega) with ⟨p, hstep⟩
      rcases ih hmembers (cons_ne_nil m members) fuel (p + 1 + 1) (acc ++ [(k, v)])
        (by rw [append_assoc]; exact hkeys) (by omega) with ⟨p', hmore⟩
      rcases startsQuote_compactMembers m members with ⟨tail, htail⟩
      rw [htail, cons_append] at hstep hmore ⊢
      rw [skipSpace_blank (p + 1) (c := '"') rfl, hset] at hstep
      rw [append_assoc] at hmore
      exact ⟨p', hstep.trans hmore⟩

lemma toList_compact_arr (items : List Json) :
  (compact (.arr items)).toList = '[' :: ((compactItems items).toList ++ [']']) := by
  rw [compact, toList_append, toList_append]
  rfl

lemma toList_compact_obj (members : List (String × Json)) :
  (compact (.obj members)).toList = '{' :: ((compactMembers members).toList ++ ['}']) := by
  rw [compact, toList_append, toList_append]
  rfl

lemma readsBack_arr (hread : ∀ v ∈ items, ReadsBack v) : ReadsBack (.arr items) := by
  intro fuel pos rest hfuel hrest
  rw [toList_compact_arr, length_cons, length_append] at hfuel
  obtain ⟨fuel, rfl⟩ := Nat.exists_eq_add_one.mpr (Nat.zero_lt_of_lt hfuel)
  rw [toList_compact_arr, cons_append, append_assoc, singleton_append]
  cases items with
  | nil => exact ⟨pos + 2, rfl⟩
  | cons v items =>
    rcases readItems_compact hread (cons_ne_nil v items) fuel (pos + 1) [] rest (by
      rw [length_singleton] at hfuel
      omega) with ⟨pos', hitems⟩
    rcases startsValue_compactItems (hread v mem_cons_self) items with ⟨c, tail, htail, hspace, hclose, -⟩
    refine ⟨pos', ?_⟩
    rw [htail, cons_append] at hitems ⊢
    rw [readValue, skipSpace_of_not (pos + 1) hspace]
    simp only
    split
    case h_1 heq => cases hclose (cons.inj heq).1
    case h_2 => exact hitems

lemma readsBack_obj (hkeys : (members.map Prod.fst).Nodup) (hread : ∀ m ∈ members, ReadsBack m.2) :
  ReadsBack (.obj members) := by
  intro fuel pos rest hfuel hrest
  rw [toList_compact_obj, length_cons, length_append] at hfuel
  obtain ⟨fuel, rfl⟩ := Nat.exists_eq_add_one.mpr (Nat.zero_lt_of_lt hfuel)
  rw [toList_compact_obj, cons_append, append_assoc, singleton_append]
  cases members with
  | nil => exact ⟨pos + 2, rfl⟩
  | cons m members =>
    rcases readMembers_compact hread (cons_ne_nil m members) fuel (pos + 1) [] hkeys rest (by
      rw [length_singleton] at hfuel
      omega) with ⟨pos', hmembers⟩
    rcases startsQuote_compactMembers m members with ⟨tail, htail⟩
    refine ⟨pos', ?_⟩
    rw [htail, cons_append] at hmembers ⊢
    exact hmembers

/-- What is written on one line is read back, whatever stands behind it. -/
lemma Recoverable.readsBack (h : Recoverable v) : ReadsBack v := by
  induction h with
  | arr _ ih => exact readsBack_arr ih
  | obj keys _ ih => exact readsBack_obj keys ih
  | int n =>
    rcases readNumber_ofInt n with ⟨p, hread⟩
    exact readsBack_of_readNumber hread
  | float x hread => exact readsBack_of_readNumber hread
  | null =>
    intro fuel pos rest hfuel _
    obtain ⟨fuel, rfl⟩ := Nat.exists_eq_add_one.mpr (Nat.zero_lt_of_lt hfuel)
    exact ⟨pos + 4, rfl⟩
  | bool b =>
    intro fuel pos rest hfuel _
    cases b
    all_goals
      obtain ⟨fuel, rfl⟩ := Nat.exists_eq_add_one.mpr (Nat.zero_lt_of_lt hfuel)
      exact ⟨_, rfl⟩
  | str s =>
    intro fuel pos rest hfuel _
    rw [compact, toList_quoted, length_cons] at hfuel
    exact readValue_string pos s (by omega)

lemma read_compact (h : Recoverable (.obj members)) : read (compact (.obj members)) = .ok (.obj members) := by
  rcases h.readsBack (2 * (compact (.obj members)).toList.length + 2) 0 [] (by omega) (by rintro c ⟨⟩)
    with ⟨pos, hread⟩
  rw [append_nil] at hread
  unfold read
  simp only [toList_compact_obj] at hread ⊢
  simp only [skipSpace_of_not 0 (c := '{') rfl, hread, bind, Except.bind]
  rfl

end KeywordDocs.Json
