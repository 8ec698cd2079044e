import KeywordDocs.Proofs.Markup.Inline
import KeywordDocs.Proofs.Text.Measures

/-!
# Coloured Texts are Nested Stretches

Colouring goes through markers: what is found is taken out of the text, a marker stands in its place, and at
the end coloured stretches replace the markers.
-/

namespace KeywordDocs.Highlight

open Text Markup
open Markup (tag)
open List hiding replace

variable {c : Char} {family : String} {marks : Marks}

/-- Characters as escaping leaves them: they have no meaning in markup. -/
def isSafe (c : Char) : Bool := isInert c && c ≠ '\''

class Textual (p : Char → Bool) : Prop where
  lt : p '<' = false
  word : ∀ c, isAsciiWord c → p c

instance : Textual isSafe where
  lt := rfl
  word c hc := by
    have hne : ∀ d : Char, isAsciiWord d = false → c ≠ d := by
      rintro d hd rfl
      rw [hd] at hc
      cases hc
    simp [isSafe, isInert, hne '<' rfl, hne '>' rfl, hne '"' rfl, hne '\'' rfl]

abbrev Only (p : Char → Bool) (cs : List Char) : Prop := ∀ c ∈ cs, p c

abbrev Safe : List Char → Prop := Only isSafe

variable {p : Char → Bool} {cs a b : List Char} {P : List Char → Prop}

lemma Only.of_subset (h : Only p b) (hab : a ⊆ b) : Only p a := fun c hc => h c (hab hc)

lemma Only.not_mem (h : Only p cs) (hc : p c = false) : c ∉ cs := by
  intro hmem
  rw [h c hmem] at hc
  cases hc

/-- How many stretches are open before and after a tag. -/
inductive Turn : List Char → Nat → Nat → Prop where
  | opening (ink : Ink) (d : Nat) : Turn ("<span style=\"" ++ ink.style ++ "\">").toList d (d + 1)
  | closing (d : Nat) : Turn "</span>".toList (d + 1) d

lemma Turn.tag {t : List Char} {d e : Nat} (h : Turn t d e) : InkTag t := by
  cases h with
  | opening ink => exact .opening ink
  | closing => exact .closing

/-- Texts of characters of one class and of tags of coloured stretches. Before the text `d` stretches
are open and after it `e`; a stretch is closed only if one is open. -/
inductive Nested (p : Char → Bool) : Nat → Nat → List Char → Prop where
  | nil (d : Nat) : Nested p d d []
  | char {d e : Nat} {c : Char} {cs : List Char} (hc : p c) (h : Nested p d e cs) :
      Nested p d e (c :: cs)
  | tag {d d' e : Nat} {t cs : List Char} (ht : Turn t d d') (h : Nested p d' e cs) :
      Nested p d e (t ++ cs)

/-- Texts of safe characters and of tags of coloured stretches. -/
abbrev Spans : Nat → Nat → List Char → Prop := Nested isSafe

/-- Tags open and close within the text, at any depth. -/
def Enclosed (p : Char → Bool) (cs : List Char) : Prop := ∀ d, Nested p d d cs

abbrev Closed : List Char → Prop := Enclosed isSafe

lemma Nested.append {d e f : Nat} (ha : Nested p d e a) (hb : Nested p e f b) :
  Nested p d f (a ++ b) := by
  induction ha with
  | nil => exact hb
  | char hc _ ih => exact .char hc (ih hb)
  | tag ht _ ih =>
    rw [append_assoc]
    exact .tag ht (ih hb)

lemma Spans.woven {d e : Nat} (h : Spans d e cs) : Woven InkTag cs := by
  induction h with
  | nil => exact .nil
  | char hc _ ih => exact .char _ _ (Bool.and_eq_true_iff.mp hc).1 ih
  | tag ht _ ih => exact .tag _ _ ht.tag ih

lemma Only.closed (h : Only p cs) : Enclosed p cs := by
  intro d
  induction cs with
  | nil => exact .nil d
  | cons c cs ih => exact .char (forall_mem_cons.mp h).1 (ih (forall_mem_cons.mp h).2)

lemma Enclosed.append (ha : Enclosed p a) (hb : Enclosed p b) : Enclosed p (a ++ b) := fun d =>
  (ha d).append (hb d)

lemma span_closed (ink : Ink) (h : Enclosed p cs) : Enclosed p (ink.span cs) := by
  intro d
  rw [Ink.span, append_assoc]
  have hclosing := Nested.tag (p := p) (.closing d) (.nil d)
  exact .tag (.opening ink d) ((h (d + 1)).append hclosing)

lemma marker_safe (h : Safe family.toList) (n : Nat) : Safe (marker family n) := by
  have hdigits : Safe (Number.digitsOf n) := by
    intro c hc
    have hdigit : c.isDigit := Nat.isDigit_of_mem_toDigits (by decide) (by decide) hc
    have hne : ∀ d : Char, d.isDigit = false → c ≠ d := by
      rintro d hd rfl
      rw [hd] at hdigit
      cases hdigit
    simp [isSafe, isInert, hne '<' (by decide), hne '>' (by decide), hne '"' (by decide),
      hne '\'' (by decide)]
  simp only [marker, String.toList_append, forall_mem_append]
  exact ⟨⟨⟨⟨by decide, h⟩, by decide⟩, hdigits⟩, by decide⟩

lemma marker_head (family : String) (n : Nat) : ∃ rest, marker family n = '_' :: rest := by
  rw [marker, String.toList_append, String.toList_append]
  exact ⟨_, rfl⟩

def Sound (marks : Marks) : Prop := ∀ m ∈ marks, (∃ rest, m.1 = '_' :: rest) ∧ Safe m.1 ∧ Closed m.2

lemma Sound.append {marks marks' : Marks} (h : Sound marks) (h' : Sound marks') :
  Sound (marks ++ marks') :=
  forall_mem_append.mpr ⟨h, h'⟩

lemma numbered_sound (hfamily : Safe family.toList) (n : Nat)
  {found : List (List Char)} (h : ∀ a ∈ found, Closed a) : Sound (numbered family n found) := by
  intro m hm
  rcases mem_map.mp hm with ⟨⟨a, i⟩, ha, rfl⟩
  exact ⟨marker_head family i, marker_safe hfamily i, h a (fst_mem_of_mem_zipIdx ha)⟩

lemma markPieces_safe (family : String) (hfamily : Safe family.toList)
  {ps : List (Piece (List Char))} (n : Nat)
  (h : ∀ p ∈ ps, (∃ c, isSafe c ∧ p = .plain c) ∨ ∃ a, P a ∧ p = .found a) :
  Safe (markPieces family n ps).1 ∧ ∀ a ∈ (markPieces family n ps).2, P a := by
  induction ps generalizing n with
  | nil => exact ⟨forall_mem_nil _, forall_mem_nil _⟩
  | cons p ps ih =>
    have hrest := fun n => ih n fun q hq => h q (mem_cons_of_mem p hq)
    rcases h p mem_cons_self with ⟨c, hc, rfl⟩ | ⟨a, ha, rfl⟩
    · exact ⟨forall_mem_cons.mpr ⟨hc, (hrest n).1⟩, (hrest n).2⟩
    · exact ⟨forall_mem_append.mpr ⟨marker_safe hfamily n, (hrest (n + 1)).1⟩,
        forall_mem_cons.mpr ⟨ha, (hrest (n + 1)).2⟩⟩

lemma scan_safe {r : Recogniser (List Char)} (hcs : Safe cs)
  (hr : ∀ before rest a n, Safe rest → r before rest = some (a, n) → P a) :
  ∀ p ∈ scan r cs, (∃ c, isSafe c ∧ p = .plain c) ∨ ∃ a, P a ∧ p = .found a := by
  intro p hp
  rcases mem_scanFrom r none 0 cs p hp with ⟨c, hc, rfl⟩ | ⟨a, b, rest, n, rfl, hrest, hfound⟩
  · exact .inl ⟨c, hcs c hc, rfl⟩
  · exact .inr ⟨a, hr b rest a n (fun c hc => hcs c (hrest.subset hc)) hfound, rfl⟩

variable {before : Option Char} {n : Nat}

lemma reference_eq_some {sign : Char} {cs a : List Char}
  (h : reference sign before cs = some (a, n)) :
  ∃ body rest, a = sign :: '\x7b' :: body ++ ['\x7d'] ∧ cs = a ++ rest ∧ n = a.length ∧ '\x7d' ∉ body := by
  unfold reference at h
  split at h
  case h_2 => cases h
  case h_1 c rest =>
    split at h
    case isFalse => cases h
    case isTrue hsign =>
      split at h
      case h_2 => cases h
      case h_1 d name e after hspan =>
        cases h
        exact ⟨d :: name, after, by rw [hsign], by simp [(span_ne_eq hspan).1], by simp, (span_ne_eq hspan).2⟩

lemma markVariables_sound {cs : List Char} (h : Safe cs) :
  Safe (markVariables cs).1 ∧ Sound (markVariables cs).2 := by
  -- One step of the fold marks the references of one sign in what the steps before it have left.
  refine List.foldlRecOn (motive := fun s : List Char × Marks => Safe s.1 ∧ Sound s.2) variableSigns
    _ ⟨h, forall_mem_nil _⟩ fun s hs sign _ => ?_
  have hpieces := markPieces_safe "VAR" (by decide) s.2.length
    (scan_safe (r := reference sign) (P := Safe) hs.1 fun _ _ _ _ hrest ha => by
      rcases reference_eq_some ha with ⟨_, _, -, rfl, -, -⟩
      exact (forall_mem_append.mp hrest).1)
  refine ⟨hpieces.1, hs.2.append (numbered_sound (by decide) _ fun a ha => ?_)⟩
  rcases mem_map.mp ha with ⟨b, hb, rfl⟩
  exact span_closed _ (Only.closed (hpieces.2 b hb))

lemma splitAtWord_eq_some {name : List Char} {cs front rest : List Char}
  (h : splitAtWord name before cs = some (front, rest)) : cs = front ++ name ++ rest ∧
    atBoundary (front.getLast?.or before) (name ++ rest).head? ∧ endsWord rest := by
  fun_induction splitAtWord name before cs generalizing front
  case case1 before cs here after hhere =>
    cases h
    unfold here at hhere
    split at hhere
    case isTrue hboundary =>
      rcases Option.filter_eq_some_iff.mp hhere with ⟨hdrop, hends⟩
      have hcs := dropPrefix?_eq_some hdrop
      exact ⟨hcs, by rwa [hcs] at hboundary, hends⟩
    case isFalse => cases hhere
  case case2 => cases h
  case case3 before c cs here hhere ih =>
    rcases Option.map_eq_some_iff.mp h with ⟨⟨front', rest'⟩, hsplit, hpair⟩
    cases hpair
    rcases ih hsplit with ⟨rfl, hboundary, hends⟩
    refine ⟨rfl, ?_, hends⟩
    rw [getLast?_cons]
    cases hlast : front'.getLast? <;> simpa [hlast] using hboundary

lemma markKeyword_cases (names : List String) (cs : List Char) :
  markKeyword names cs = (cs, []) ∨ ∃ name ∈ names, ∃ front rest,
    splitAtWord name.toList none cs = some (front, rest) ∧ markKeyword names cs =
      (front ++ marker "KW" 0 ++ rest, [(marker "KW" 0, Ink.keyword.span name.toList)]) := by
  unfold markKeyword
  split
  · exact .inl rfl
  · split
    case h_2 => exact .inl rfl
    case h_1 name front rest hfound =>
      rcases exists_of_findSome?_eq_some hfound with ⟨name', hname, hsplit⟩
      rcases Option.map_eq_some_iff.mp hsplit with ⟨⟨front', rest'⟩, hsplit, hpair⟩
      cases hpair
      exact .inr ⟨name, hname, front, rest, hsplit, rfl⟩

lemma markKeyword_of_none {names : List String} {cs : List Char}
  (h : ∀ name ∈ names, splitAtWord name.toList none cs = none) : markKeyword names cs = (cs, []) := by
  rcases markKeyword_cases names cs with heq | ⟨name, hname, front, rest, hsplit, -⟩
  · exact heq
  · rw [h name hname] at hsplit
    cases hsplit

lemma markKeyword_sound (names : List String) {cs : List Char} (h : Safe cs) :
  Safe (markKeyword names cs).1 ∧ Sound (markKeyword names cs).2 := by
  have hmarker : Safe (marker "KW" 0) := marker_safe (by decide) 0
  rcases markKeyword_cases names cs with heq | ⟨name, -, front, rest, hsplit, heq⟩
  · rw [heq]
    exact ⟨h, forall_mem_nil _⟩
  · rw [(splitAtWord_eq_some hsplit).1] at h
    replace h := (forall_mem_append.mp h).imp_left forall_mem_append.mp
    rw [heq]
    refine ⟨?_, forall_mem_singleton.mpr
      ⟨marker_head "KW" 0, hmarker, span_closed _ (Only.closed h.1.2)⟩⟩
    exact forall_mem_append.mpr ⟨forall_mem_append.mpr ⟨h.1.1, hmarker⟩, h.2⟩

lemma markerAt?_eq_some {cs value : List Char}
  (h : markerAt? family cs = some value) : ∃ d ds rest, (∀ c ∈ d :: ds, isDigit c) ∧
    value = ("__" ++ family ++ "_MARKER_").toList ++ d :: ds ++ ['_', '_'] ∧ cs = value ++ rest := by
  rcases Option.bind_eq_some_iff.mp h with ⟨rest, hrest, h⟩
  rw [span_eq_takeWhile_dropWhile] at h
  split at h
  case h_2 => cases h
  case h_1 d ds after hspan =>
    cases h
    injection hspan with htake hdrop
    refine ⟨d, ds, after, fun c hc => mem_takeWhile_imp (htake ▸ hc), rfl, ?_⟩
    rw [dropPrefix?_eq_some hrest, ← takeWhile_append_dropWhile (p := isDigit) (l := rest), htake, hdrop]
    simp

lemma quotedAt?_eq_none {quote : Char} {cs : List Char} (h : quote ∉ cs) :
  quotedAt? quote cs = none := by
  unfold quotedAt?
  split
  case h_1 c cs =>
    rw [if_neg]
    rintro rfl
    exact h mem_cons_self
  case h_2 => rfl

lemma argumentValue?_eq_some {cs value : List Char} (hcs : Safe cs)
  (h : argumentValue? cs = some value) :
  (∃ family ∈ ["VAR", "KW"], markerAt? family cs = some value) ∨
    value = cs.takeWhile (fun c => !isBlank c && c ≠ '<') ∧ value ≠ [] := by
  have hquotes : quotedAt? '"' cs = none ∧ quotedAt? '\'' cs = none :=
    ⟨quotedAt?_eq_none (hcs.not_mem rfl), quotedAt?_eq_none (hcs.not_mem rfl)⟩
  -- The alternatives in the order in which they are tried.
  simp only [argumentValue?, Option.orElse_eq_orElse, Option.orElse_eq_or, Option.or_eq_some_iff,
    hquotes, reduceCtorEq, false_or, true_and] at h
  rcases h with h | ⟨-, h | ⟨-, h⟩⟩
  · exact .inl ⟨"VAR", by simp, h⟩
  · exact .inl ⟨"KW", by simp, h⟩
  · split at h
    · cases h
    case h_2 hne =>
      cases h
      exact .inr ⟨rfl, hne⟩

lemma namedArgument_eq_some {cs name value : List Char}
  (h : namedArgument before cs = some ((name, value), n)) : isWordAt before = false ∧
    ∃ gap gap' rest, cs = name ++ (gap ++ '=' :: (gap' ++ rest)) ∧ name ≠ [] ∧
      gap.all isBlank ∧ gap'.all isBlank ∧ (∀ c ∈ name, isAsciiWord c) ∧ argumentValue? rest = some value ∧
      n = name.length + gap.length + 1 + gap'.length + value.length := by
  rcases Option.bind_eq_some_iff.mp h with ⟨first, hfirst, h⟩
  rcases Option.bind_eq_some_iff.mp h with ⟨⟨⟩, hguard, h⟩
  have hname : cs.takeWhile isAsciiWord ++ cs.drop (cs.takeWhile isAsciiWord).length = cs :=
    prefix_iff_eq_append.mp (List.takeWhile_prefix isAsciiWord)
  dsimp only at h
  rw [span_eq_takeWhile_dropWhile] at h
  split at h
  case h_2 => cases h
  case h_1 gap rest hspan =>
    injection hspan with htake hdrop
    rw [span_eq_takeWhile_dropWhile] at h
    rcases Option.bind_eq_some_iff.mp h with ⟨value', hvalue, h⟩
    cases h
    have hword : isWordAt before = false := by
      cases hb : isWordAt before with
      | false => rfl
      | true =>
        rw [hb] at hguard
        cases hguard
    refine ⟨hword, gap, _, _, ?_, fun hnil => ?_, htake ▸ all_takeWhile, all_takeWhile,
      fun c hc => mem_takeWhile_imp hc, hvalue, rfl⟩
    · rw [takeWhile_append_dropWhile, ← hdrop, ← htake, takeWhile_append_dropWhile, hname]
    · rw [hnil] at hfirst
      cases hfirst

lemma lookup_closed (hmarks : Sound marks) {value : List Char}
  (hvalue : Safe value) : Closed ((marks.lookup value).getD value) := by
  induction marks with
  | nil => exact hvalue.closed
  | cons m marks ih =>
    rw [lookup_cons]
    split
    · exact (hmarks m mem_cons_self).2.2
    · exact ih fun m' hm' => hmarks m' (mem_cons_of_mem m hm')

lemma namedArgument_safe {cs name value : List Char} (hcs : Safe cs)
  (h : namedArgument before cs = some ((name, value), n)) :
  Safe name ∧ Safe value := by
  rcases namedArgument_eq_some h with ⟨-, gap, gap', rest, rfl, -, -, -, -, hvalue, -⟩
  have hparts := forall_mem_append.mp hcs
  have hrest : Safe rest := fun c hc => hparts.2 c (by simp [hc])
  refine ⟨fun c hc => hparts.1 c (by simp [hc]), fun c hc => hrest c ?_⟩
  rcases argumentValue?_eq_some hrest hvalue with ⟨family, -, hmarker⟩ | ⟨rfl, -⟩
  · rcases markerAt?_eq_some hmarker with ⟨_, _, rest', -, -, rfl⟩
    exact mem_append_left _ hc
  · exact (List.takeWhile_prefix _).subset hc

lemma markArguments_sound (hmarks : Sound marks) {cs : List Char} (h : Safe cs) :
  Safe (markArguments marks cs).1 ∧ Sound (markArguments marks cs).2 := by
  -- The value of an argument may be a marker; what that stands for is shown in its place.
  have hpieces := markPieces_safe "ARG" (P := Closed) (by decide) 0
    (scan_safe (r := fun before cs =>
      (namedArgument before cs).map fun found => (argumentSpan marks found.1, found.2)) h
      fun before rest a n hrest ha => by
        rcases Option.map_eq_some_iff.mp ha with ⟨⟨⟨name, value⟩, n'⟩, hfound, hpair⟩
        cases hpair
        rcases namedArgument_safe hrest hfound with ⟨hname, hvalue⟩
        exact (span_closed .argument hname.closed).append fun d =>
          .char (by decide) (lookup_closed hmarks hvalue d))
  exact ⟨hpieces.1, numbered_sound (by decide) 0 hpieces.2⟩

variable {d e : Nat}

lemma Nested.stretches {motive : Nat → Nat → List Char → Prop}
  (last : ∀ d part, Only p part → motive d d part)
  (tag : ∀ {d d' e part t cs}, Only p part → Turn t d d' → motive d' e cs →
    motive d e (part ++ (t ++ cs))) {cs : List Char} (h : Nested p d e cs) :
  motive d e cs := by
  -- The stretch before the next tag is gathered character by character.
  have hall : ∀ part, Only p part → motive d e (part ++ cs) := by
    induction h with
    | nil d =>
      intro part hpart
      rw [append_nil]
      exact last d part hpart
    | @char d e c cs hc _ ih =>
      intro part hpart
      rw [append_cons]
      exact ih (part ++ [c])
        (forall_mem_append.mpr ⟨hpart, forall_mem_singleton.mpr hc⟩)
    | tag ht _ ih => exact fun part hpart => tag hpart ht (ih [] (forall_mem_nil _))
  exact hall [] (forall_mem_nil _)

lemma Turn.body {t : List Char} (h : Turn t d e) :
  ∃ c body, t = '<' :: c :: body ++ ['>'] ∧ '>' ∉ c :: body :=
  spanTag_body (spanTag_of_inkTag t h.tag)

lemma Spans.replaceChars {old new : List Char} (hhead : ∃ rest, old = '_' :: rest)
  (hold : Safe old) (hnew : Closed new) {cs : List Char} (h : Spans d e cs) :
  Spans d e (replaceChars old new cs) := by
  rcases hhead with ⟨rest, hhead⟩
  have hne : old ≠ [] := hhead ▸ cons_ne_nil _ _
  have hstretch : ∀ d part, Safe part → Spans d d (Text.replaceChars old new part) := by
    intro d part hpart
    refine replaceChars_induction hne (motive := fun cs out => Safe cs → Spans d d out)
      (fun _ => .nil d) (fun c cs out _ ih hcs => ?_) (fun cs out ih hcs => ?_) part hpart
    · exact .char (hcs c mem_cons_self) (ih fun c' hc' => hcs c' (mem_cons_of_mem c hc'))
    · exact (hnew d).append (ih (forall_mem_append.mp hcs).2)
  refine h.stretches (motive := fun d e cs => Spans d e (Text.replaceChars old new cs)) hstretch
    fun {d d' e part t cs} hpart ht ih => ?_
  -- A marker is not found in a tag because its first character is not.
  have hself : Text.replaceChars old new t = t := by
    refine replaceChars_eq_self hne t fun rest' hrest' hstarts => ?_
    rw [hhead] at hstarts
    exact inkTag_avoids t ht.tag (hrest'.subset (hstarts.subset mem_cons_self))
  rcases ht.body with ⟨c, body, hbody, -⟩
  rw [hbody, replaceChars_append_tag hne (hold.not_mem rfl) (hold.not_mem rfl), ← hbody, hself]
  exact (hstretch d part hpart).append (.tag ht ih)

lemma unmark_spans (hmarks : Sound marks) {cs : List Char} (h : Spans d e cs) :
  Spans d e (unmark marks cs) := by
  induction marks generalizing cs with
  | nil => exact h
  | cons m marks ih =>
    rcases hmarks m mem_cons_self with ⟨hhead, hsafe, hclosed⟩
    exact ih (fun m' hm' => hmarks m' (mem_cons_of_mem m hm'))
      (h.replaceChars hhead hsafe hclosed)

variable {part : List Char}

lemma stretches_map_plain {α : Type} (acc cs : List Char) (ps : List (Piece α)) :
  stretches acc (cs.map .plain ++ ps) = stretches (cs.reverse ++ acc) ps := by
  induction cs generalizing acc with
  | nil => rfl
  | cons c cs ih =>
    rw [map_cons, cons_append, stretches, ih, reverse_cons, append_assoc]
    rfl

lemma pieces_run (hlt : '<' ∉ part) : pieces tag part = [.inl part] := by
  have hscan : scan tag part = part.map .plain := by
    refine scan_of_none fun b rest hrest => ?_
    cases rest with
    | nil => rfl
    | cons c rest => exact tag_eq_none (fun hc => hlt (hc ▸ hrest.subset mem_cons_self)) b rest
  have hstretches := stretches_map_plain (α := List Char) [] part []
  rw [append_nil, append_nil] at hstretches
  rw [pieces, hscan, hstretches]
  simp [stretches]

lemma pieces_tag (hlt : '<' ∉ part) {body : List Char} (hbody : '>' ∉ c :: body)
  (cs : List Char) : pieces tag (part ++ ('<' :: c :: body ++ ['>'] ++ cs)) =
    .inl part :: .inr ('<' :: c :: body ++ ['>']) :: pieces tag cs := by
  have hfound : tag none ('<' :: (c :: body ++ '>' :: cs)) =
      some ('<' :: c :: body ++ ['>'], body.length + 3) := by
    unfold tag
    simp only [span_ne_append_cons hbody cs]
  rcases scanFrom_append_of_none tag none part ('<' :: (c :: body ++ '>' :: cs))
    fun d hd b rest => tag_eq_none (fun hd' => hlt (hd' ▸ hd)) b rest with ⟨before, hpart⟩
  rcases scanFrom_covered tag (some '<') (body.length + 3 - 1)
    (c :: body ++ '>' :: cs) with ⟨before', hcovered⟩
  have hdrop : (c :: body ++ '>' :: cs).drop (body.length + 3 - 1) = cs := by
    rw [show c :: body ++ '>' :: cs = (c :: body ++ ['>']) ++ cs by simp, drop_left' (by simp)]
  rw [show '<' :: c :: body ++ ['>'] ++ cs = '<' :: (c :: body ++ '>' :: cs) by simp, pieces, scan,
    hpart, stretches_map_plain, tag_blind.scanFrom_eq before none, scanFrom, hfound]
  dsimp only
  rw [hcovered, hdrop, tag_blind.scanFrom_eq before' none, stretches]
  simp [pieces, scan]

lemma highlightComments_run (hlt : '<' ∉ part) :
  highlightComments part = highlightComment Ink.comment.span part := by
  have hhead : part.head? ≠ some '<' := fun h => hlt (mem_of_mem_head? h)
  rw [highlightComments, pieces_run hlt]
  simp [hhead]

lemma highlightComments_tag (hlt : '<' ∉ part) {body : List Char}
  (hbody : '>' ∉ c :: body) (cs : List Char) :
  highlightComments (part ++ ('<' :: c :: body ++ ['>'] ++ cs)) =
    highlightComment Ink.comment.span part ++ ('<' :: c :: body ++ ['>'] ++ highlightComments cs) := by
  have hhead : part.head? ≠ some '<' := fun h => hlt (mem_of_mem_head? h)
  rw [highlightComments, pieces_tag hlt hbody, flatMap_cons, flatMap_cons, ← highlightComments]
  simp [hhead]

lemma splitComment_eq_some {cs front comment rest : List Char}
  (h : splitComment cs = some (front, comment, rest)) :
  cs = front ++ comment ++ rest ∧ comment.head? = some '#' ∧ (rest = [] ∨ rest = ['\n']) := by
  induction cs generalizing front with
  | nil => cases h
  | cons c cs ih =>
    rw [splitComment, span_eq_takeWhile_dropWhile] at h
    dsimp only at h
    split at h
    case isTrue hcond =>
      cases h
      simp only [Bool.and_eq_true, Bool.or_eq_true, decide_eq_true_eq] at hcond
      rcases hcond with ⟨rfl, hrest⟩
      exact ⟨by rw [nil_append, takeWhile_append_dropWhile], rfl, hrest⟩
    case isFalse =>
      rcases Option.map_eq_some_iff.mp h with ⟨⟨front', comment', rest'⟩, hsplit, hpair⟩
      cases hpair
      rcases ih hsplit with ⟨rfl, hcomment⟩
      exact ⟨rfl, hcomment⟩

lemma highlightComment_closed (h : Only p part) :
  Enclosed p (highlightComment Ink.comment.span part) := by
  unfold highlightComment
  split
  case h_2 => exact h.closed
  case h_1 front comment rest hsplit =>
    rw [(splitComment_eq_some hsplit).1] at h
    rcases (forall_mem_append.mp h).imp_left forall_mem_append.mp with ⟨⟨h1, h2⟩, h3⟩
    exact ((Only.closed h1).append (span_closed _ (Only.closed h2))).append (Only.closed h3)

lemma Nested.highlightComments [Textual p] {d e : Nat} {cs : List Char} (h : Nested p d e cs) :
  Nested p d e (highlightComments cs) := by
  refine h.stretches (motive := fun d e cs => Nested p d e (Highlight.highlightComments cs))
    (fun d part hpart => ?_) fun {d d' e part t cs} hpart ht ih => ?_
  · rw [highlightComments_run (hpart.not_mem Textual.lt)]
    exact highlightComment_closed hpart d
  · rcases ht.body with ⟨c, body, rfl, hbody⟩
    rw [highlightComments_tag (hpart.not_mem Textual.lt) hbody]
    exact (highlightComment_closed hpart d).append (.tag ht ih)

variable (names : List String) {text : List Char}

/-- The text in which named arguments are sought, with markers for variables and for a keyword. -/
def marked (text : List Char) : List Char := (markKeyword names (markVariables text).1).1

/-- The markers of a text but those of named arguments. -/
def marksBefore (text : List Char) : Marks :=
  (markVariables text).2 ++ (markKeyword names (markVariables text).1).2

def marksIn (text : List Char) : Marks :=
  marksBefore names text ++ (markArguments (marksBefore names text) (marked names text)).2

/-- The text in colour but for its comments. -/
def unmarked (text : List Char) : List Char :=
  unmark (marksIn names text) (markArguments (marksBefore names text) (marked names text)).1

lemma unmarked_closed (h : Safe text) : Closed (unmarked names text) := by
  have hvariables := markVariables_sound h
  have hkeyword := markKeyword_sound names hvariables.1
  have hmarks := hvariables.2.append hkeyword.2
  have harguments := markArguments_sound hmarks hkeyword.1
  exact fun d => unmark_spans (hmarks.append harguments.2) (harguments.1.closed d)

lemma highlightVariablesWith_unmarked (text : List Char) :
  highlightVariablesWith names text = highlightComments (unmarked names text) :=
  rfl

lemma highlightVariablesWith_closed (h : Safe text) : Closed (highlightVariablesWith names text) :=
  fun d => (unmarked_closed names h d).highlightComments

end KeywordDocs.Highlight
