import KeywordDocs.Markup.Markdown
import KeywordDocs.Proofs.Highlight.Markers

/-!
# Identifiers between Backticks

Protecting the identifiers of a text twice changes nothing more: a name between backticks is inside of them,
and what comes after it stays on its side.
-/

namespace KeywordDocs.Markup

open Text List
open Highlight (isWord_of_isAsciiWord)

variable {c : Char} {a b cs w : List Char} {before : Option Char} {outside : Bool}

lemma cut_induction (p : Char → Bool) {motive : List Char → Prop}
  (last : ∀ a, (∀ c ∈ a, p c) → motive a)
  (cut : ∀ a c b, (∀ d ∈ a, p d) → p c = false → motive b → motive (a ++ c :: b))
  (cs : List Char) : motive cs := by
  rw [← takeWhile_append_dropWhile (p := p) (l := cs)]
  have hfront : ∀ d ∈ cs.takeWhile p, p d := fun d hd => mem_takeWhile_imp hd
  cases hrest : cs.dropWhile p with
  | nil =>
    rw [append_nil]
    exact last _ hfront
  | cons c b =>
    have hc : p c = false := by
      have hhead := head?_dropWhile_not p cs
      rw [hrest] at hhead
      simpa using hhead
    have hlength : b.length < cs.length := by
      have hle := (dropWhile_suffix (l := cs) p).length_le
      rw [hrest, length_cons] at hle
      omega
    exact cut _ c b hfront hc (cut_induction p last cut b)
termination_by cs.length

lemma identifier_congr {before' : Option Char} (h : isWordAt before = isWordAt before') :
  identifier before cs = identifier before' cs := by
  simp only [identifier, h]

lemma identifier_eq_some {new : List Char} {n : Nat} (h : identifier before cs = some (new, n)) :
  ∃ name rest, cs = name ++ rest ∧ name ≠ [] ∧ isWordAt before = false ∧
    isWordAt rest.head? = false ∧ new = '`' :: name ++ ['`'] ∧ n = name.length := by
  simp only [identifier] at h
  split at h
  · rename_i hfound
    simp only [Bool.and_eq_true, Bool.not_eq_true'] at hfound
    obtain ⟨⟨hmem, hbefore⟩, hafter⟩ := hfound
    simp only [Option.some.injEq, Prod.mk.injEq] at h
    refine ⟨_, _, (prefix_iff_eq_append.mp (List.takeWhile_prefix isAsciiWord)).symm, fun hnil => ?_,
      hbefore, hafter, h.1.symm, h.2.symm⟩
    rw [hnil] at hmem
    exact Bool.false_ne_true hmem
  · cases h

lemma identifier_append_cons (hc : isWord c = false) (a b : List Char) :
  identifier before (a ++ c :: b) = identifier before a := by
  have hascii : isAsciiWord c = false := by
    cases hword : isAsciiWord c with
    | false => rfl
    | true => rw [← hc, isWord_of_isAsciiWord hword]
  have hname : (a ++ c :: b).takeWhile isAsciiWord = a.takeWhile isAsciiWord := by
    rw [takeWhile_append, takeWhile_cons_of_neg (by rw [hascii]; exact Bool.false_ne_true), append_nil]
    split
    · rename_i hall
      exact ((List.takeWhile_prefix isAsciiWord).eq_of_length hall).symm
    · rfl
  have hafter : isWordAt ((a ++ c :: b).drop (a.takeWhile isAsciiWord).length).head? =
      isWordAt (a.drop (a.takeWhile isAsciiWord).length).head? := by
    rw [drop_append_of_le_length (List.takeWhile_prefix isAsciiWord).length_le]
    cases a.drop (a.takeWhile isAsciiWord).length with
    | nil => exact hc
    | cons d rest => rfl
  simp only [identifier, hname, hafter]

lemma scanFrom_before {before' : Option Char} (h : isWordAt before = isWordAt before')
  (cs : List Char) : scanFrom identifier before 0 cs = scanFrom identifier before' 0 cs := by
  cases cs with
  | nil => rfl
  | cons c cs => rw [scanFrom, scanFrom, identifier_congr h]

lemma scanFrom_cut (hc : isWord c = false) (before : Option Char) (k : Nat) (a b : List Char)
  (hk : k ≤ a.length) : scanFrom identifier before k (a ++ c :: b) =
    scanFrom identifier before k a ++ .plain c :: scan identifier b := by
  induction a generalizing before k with
  | nil =>
    obtain rfl : k = 0 := Nat.le_zero.mp hk
    have hnone : identifier before (c :: b) = none := identifier_append_cons hc [] b
    rw [nil_append, scanFrom, scanFrom, nil_append, hnone]
    have hsame : isWordAt (some c) = isWordAt none := hc
    exact congrArg (Piece.plain c :: ·) (scanFrom_before hsame b)
  | cons d a ih =>
    cases k with
    | succ k =>
      rw [cons_append, scanFrom, scanFrom]
      exact ih _ _ (Nat.le_of_succ_le_succ hk)
    | zero =>
      rw [cons_append, scanFrom, scanFrom, ← cons_append, identifier_append_cons hc]
      cases hfind : identifier before (d :: a) with
      | none => exact congrArg (Piece.plain d :: ·) (ih _ 0 (Nat.zero_le _))
      | some found =>
        rcases identifier_eq_some hfind with ⟨name, rest, hsplit, -, -, -, -, hn⟩
        refine congrArg (Piece.found found.1 :: ·) (ih _ _ ?_)
        have hlength := congrArg length hsplit
        rw [length_append, length_cons] at hlength
        omega

lemma replaceFinds_cut (hc : isWord c = false) (a b : List Char) :
  replaceFinds identifier (a ++ c :: b) = replaceFinds identifier a ++ c :: replaceFinds identifier b := by
  rw [replaceFinds, scan, scanFrom_cut hc none 0 a b (Nat.zero_le _), flatMap_append, flatMap_cons]
  rfl

lemma scanFrom_word (hbefore : isWordAt before) (hw : ∀ c ∈ w, isWord c) :
  scanFrom identifier before 0 w = w.map .plain := by
  induction w generalizing before with
  | nil => rfl
  | cons c w ih =>
    have hnone : identifier before (c :: w) = none := by simp [identifier, hbefore]
    rw [forall_mem_cons] at hw
    rw [scanFrom, hnone, map_cons]
    exact congrArg (Piece.plain c :: ·) (ih hw.1 hw.2)

lemma replaceFinds_word (hw : ∀ c ∈ w, isWord c) :
  replaceFinds identifier w = w ∨ replaceFinds identifier w = '`' :: w ++ ['`'] := by
  cases w with
  | nil => exact .inl rfl
  | cons c w =>
    rw [replaceFinds, scan, scanFrom]
    cases hfind : identifier none (c :: w) with
    | none =>
      left
      rw [forall_mem_cons] at hw
      dsimp only
      rw [scanFrom_word (show isWordAt (some c) from hw.1) hw.2, flatMap_cons, flatMap_map]
      exact congrArg (c :: ·) (flatMap_singleton' w)
    | some found =>
      right
      rcases identifier_eq_some hfind with ⟨name, rest, hsplit, -, -, hafter, hnew, hn⟩
      -- The rest begins with no word character, but it has no others.
      obtain rfl : rest = [] := by
        cases rest with
        | nil => rfl
        | cons d rest =>
          rw [head?_cons, isWordAt, hw d (by rw [hsplit]; simp)] at hafter
          cases Bool.false_ne_true hafter.symm
      rw [append_nil] at hsplit
      rcases scanFrom_covered (r := identifier) (some c) (found.2 - 1) w with ⟨before', hcovered⟩
      dsimp only
      rw [hcovered, hn, ← hsplit, length_cons, Nat.add_sub_cancel, drop_length, flatMap_cons,
        Piece.expand, id, hnew, ← hsplit]
      exact append_nil _

/-- A text without its backticks. -/
def unticked (cs : List Char) : List Char := cs.filter (· ≠ '`')

/-- Places that follow an odd number of backticks. -/
def Inside (front : List Char) : Prop := front.count '`' % 2 = 1

structure Ticked (cs out : List Char) : Prop where
  same : unticked out = unticked cs
  pairs : out.count '`' % 2 = cs.count '`' % 2

lemma Ticked.refl (cs : List Char) : Ticked cs cs := ⟨rfl, rfl⟩

lemma Ticked.append {a' b' : List Char} (ha : Ticked a a') (hb : Ticked b b') :
  Ticked (a ++ b) (a' ++ b') where
  same := by rw [unticked, unticked, filter_append, filter_append, ← unticked, ← unticked, ← unticked,
    ← unticked, ha.same, hb.same]
  pairs := by
    rw [count_append, count_append]
    have := ha.pairs
    have := hb.pairs
    omega

lemma Ticked.cons {b' : List Char} (hb : Ticked b b') (c : Char) : Ticked (c :: b) (c :: b') :=
  (Ticked.refl [c]).append hb

lemma Ticked.around (w : List Char) : Ticked w ('`' :: w ++ ['`']) where
  same := by
    rw [unticked, cons_append, filter_cons_of_neg (by decide), filter_append]
    exact append_nil _
  pairs := by
    rw [cons_append, count_cons_self, count_append, count_singleton_self]
    omega

lemma replaceFinds_ticked (cs : List Char) : Ticked cs (replaceFinds identifier cs) := by
  have hword : ∀ w : List Char, (∀ c ∈ w, isWord c) → Ticked w (replaceFinds identifier w) := by
    intro w hw
    rcases replaceFinds_word hw with hsame | hticked
    · rw [hsame]
      exact .refl w
    · rw [hticked]
      exact .around w
  induction cs using cut_induction isWord with
  | last w hw => exact hword w hw
  | cut w c b hw hc ih =>
    rw [replaceFinds_cut hc]
    exact (hword w hw).append (ih.cons c)

def protectFrom (outside : Bool) (cs : List Char) : List Char :=
  joinBackticks (mapOutside (replaceFinds identifier) outside (splitAtChar '`' cs))

lemma protectFrom_plain (h : '`' ∉ a) :
  protectFrom outside a = if outside then replaceFinds identifier a else a := by
  rw [protectFrom, splitAtChar_of_not_mem h]
  rfl

lemma protectFrom_plain_append (h : '`' ∉ a) (b : List Char) :
  protectFrom outside (a ++ '`' :: b) =
    (if outside then replaceFinds identifier a else a) ++ '`' :: protectFrom (!outside) b := by
  rw [protectFrom, protectFrom, splitAtChar_append_cons, splitAtChar_of_not_mem h]
  cases hb : splitAtChar '`' b with
  | nil => cases (splitAtChar_ne_nil _ _) hb
  | cons part rest => rfl

lemma not_mem_iff_ne : (∀ c ∈ a, (c ≠ '`' : Bool)) ↔ '`' ∉ a := by
  simp only [decide_eq_true_eq]
  exact ⟨fun h hmem => h _ hmem rfl, fun h c hc heq => h (heq ▸ hc)⟩

lemma tick_induction {motive : List Char → Prop} (last : ∀ a, '`' ∉ a → motive a)
  (tick : ∀ a b, '`' ∉ a → motive b → motive (a ++ '`' :: b)) (cs : List Char) : motive cs := by
  induction cs using cut_induction (· ≠ '`') with
  | last a ha => exact last a (not_mem_iff_ne.mp ha)
  | cut a c b ha hc ih =>
    obtain rfl : c = '`' := by simpa using hc
    exact tick a b (not_mem_iff_ne.mp ha) ih

lemma protectFrom_append (a b : List Char) : protectFrom outside (a ++ '`' :: b) =
  protectFrom outside a ++ '`' :: protectFrom (outside ^^ decide (a.count '`' % 2 = 0)) b := by
  induction a using tick_induction generalizing outside with
  | last a ha =>
    rw [protectFrom_plain_append ha, protectFrom_plain ha, count_eq_zero.mpr ha]
    simp
  | tick a a' ha ih =>
    have hturn : (!outside ^^ decide (a'.count '`' % 2 = 0)) =
        (outside ^^ decide ((a ++ '`' :: a').count '`' % 2 = 0)) := by
      rw [count_append, count_eq_zero.mpr ha, count_cons_self]
      rcases Nat.mod_two_eq_zero_or_one (a'.count '`') with h | h <;> simp [Nat.add_mod, h]
    rw [append_assoc, cons_append, protectFrom_plain_append ha, ih, hturn, protectFrom_plain_append ha,
      append_assoc, cons_append]

lemma protectFrom_cut (hc : isWord c = false) (hne : c ≠ '`') (ha : '`' ∉ a) (b : List Char) :
  protectFrom true (a ++ c :: b) = replaceFinds identifier a ++ c :: protectFrom true b := by
  have hfront : ∀ w : List Char, '`' ∉ w → '`' ∉ a ++ c :: w := fun w hw hmem => by
    rcases mem_append.mp hmem with h | h
    · exact ha h
    · exact (mem_cons.mp h).elim (fun h => hne h.symm) hw
  by_cases hb : '`' ∈ b
  · rcases eq_append_cons_of_mem hb with ⟨w, rest, rfl, hw⟩
    rw [← cons_append, ← append_assoc, protectFrom_plain_append (hfront w hw),
      protectFrom_plain_append hw, if_pos rfl, if_pos rfl, replaceFinds_cut hc]
    simp
  · rw [protectFrom_plain (hfront b hb), protectFrom_plain hb, if_pos rfl, if_pos rfl, replaceFinds_cut hc]

lemma protectFrom_nil : protectFrom outside [] = [] := by
  cases outside <;> rfl

lemma protectFrom_replaceFinds (h : '`' ∉ cs) :
  protectFrom true (replaceFinds identifier cs) = replaceFinds identifier cs := by
  induction cs using cut_induction isWord with
  | last w hw =>
    rcases replaceFinds_word hw with hsame | hticked
    · rw [hsame, protectFrom_plain h, if_pos rfl, hsame]
    · rw [hticked, cons_append, ← nil_append ('`' :: _), protectFrom_plain_append not_mem_nil,
        protectFrom_plain_append h, protectFrom_nil]
      rfl
  | cut w c b hw hc ih =>
    have hw' : '`' ∉ w := fun hmem => h (mem_append_left _ hmem)
    have hne : c ≠ '`' := fun heq => h (by simp [heq])
    have hrest := ih fun hmem => h (by simp [hmem])
    rw [replaceFinds_cut hc]
    rcases replaceFinds_word hw with hsame | hticked
    · rw [hsame, protectFrom_cut hc hne hw', hrest, hsame]
    · rw [hticked, cons_append, cons_append, append_assoc, ← nil_append ('`' :: _), singleton_append,
        protectFrom_plain_append not_mem_nil, protectFrom_plain_append hw', Bool.not_true, Bool.not_false,
        ← nil_append (c :: _), protectFrom_cut hc hne not_mem_nil, hrest]
      rfl

lemma protectFrom_protectFrom (cs : List Char) :
  protectFrom outside (protectFrom outside cs) = protectFrom outside cs := by
  induction cs using tick_induction generalizing outside with
  | last a ha =>
    rw [protectFrom_plain ha]
    cases outside with
    | false => exact protectFrom_plain ha
    | true => exact protectFrom_replaceFinds ha
  | tick a b ha ih =>
    rw [protectFrom_plain_append ha]
    cases outside with
    | false => exact (protectFrom_plain_append ha _).trans (by rw [ih])
    | true =>
      have heven : (replaceFinds identifier a).count '`' % 2 = 0 := by
        rw [(replaceFinds_ticked a).pairs, count_eq_zero.mpr ha]
      rw [if_pos rfl, protectFrom_append, protectFrom_replaceFinds ha, heven]
      simp [ih]

lemma protectFrom_ticked (cs : List Char) : Ticked cs (protectFrom outside cs) := by
  have hplain : ∀ (outside : Bool) (a : List Char),
      Ticked a (if outside then replaceFinds identifier a else a) := fun outside a => by
    cases outside with
    | false => exact .refl a
    | true => exact replaceFinds_ticked a
  induction cs using tick_induction generalizing outside with
  | last a ha =>
    rw [protectFrom_plain ha]
    exact hplain outside a
  | tick a b ha ih =>
    rw [protectFrom_plain_append ha]
    exact (hplain outside a).append (ih.cons '`')

lemma protectChars_inside {front stretch : List Char} (hfront : Inside front) (hstretch : '`' ∉ stretch)
  (back : List Char) : ∃ back', protectChars (front ++ (stretch ++ back)) =
    protectChars front ++ (stretch ++ back') ∧ Ticked back back' := by
  rcases exists_last '`' front with hnone | ⟨a, w, hw, rfl⟩
  · rw [Inside, count_eq_zero.mpr hnone] at hfront
    cases hfront
  · have heven : a.count '`' % 2 = 0 := by
      rw [Inside, count_append, count_cons_self, count_eq_zero.mpr hw] at hfront
      omega
    have hfrom : ∀ cs : List Char, protectChars (a ++ '`' :: cs) =
        protectFrom true a ++ '`' :: protectFrom false cs := fun cs => by
      rw [show protectChars _ = protectFrom true _ from rfl, protectFrom_append, heven]
      rfl
    have hinner : '`' ∉ w ++ stretch := fun hmem => (mem_append.mp hmem).elim hw hstretch
    rw [append_assoc, cons_append, ← append_assoc w, hfrom, hfrom, protectFrom_plain hw]
    by_cases hback : '`' ∈ back
    · rcases eq_append_cons_of_mem hback with ⟨u, v, rfl, hu⟩
      have hu' : '`' ∉ w ++ stretch ++ u := fun hmem => (mem_append.mp hmem).elim hinner hu
      refine ⟨u ++ '`' :: protectFrom true v, ?_, (Ticked.refl u).append ((protectFrom_ticked v).cons _)⟩
      rw [← append_assoc _ u, protectFrom_plain_append hu']
      simp
    · have hall : '`' ∉ w ++ stretch ++ back := fun hmem => (mem_append.mp hmem).elim hinner hback
      refine ⟨back, ?_, .refl back⟩
      rw [protectFrom_plain hall]
      simp

/-- Protecting identifiers is idempotent and adds backticks only. A stretch that follows an odd number
of backticks comes out unchanged, after what becomes of the text before it, and still follows an
odd number of backticks. -/
theorem protect_settles (text : String) : protect (protect text) = protect text ∧
  unticked (protect text).toList = unticked text.toList ∧
  ∀ front stretch back, text.toList = front ++ (stretch ++ back) → Inside front → '`' ∉ stretch →
    ∃ back', (protect text).toList = protectChars front ++ (stretch ++ back') ∧
      Inside (protectChars front) ∧ unticked (protectChars front) = unticked front ∧
      unticked back' = unticked back := by
  rw [protect, protect, String.toList_ofList]
  refine ⟨congrArg String.ofList (protectFrom_protectFrom text.toList),
    (protectFrom_ticked text.toList).same, fun front stretch back htext hfront hstretch => ?_⟩
  rcases protectChars_inside hfront hstretch back with ⟨back', hprotect, hback⟩
  have hticked : Ticked front (protectChars front) := protectFrom_ticked front
  exact ⟨back', by rw [htext, hprotect], hticked.pairs.trans hfront, hticked.same, hback.same⟩

end KeywordDocs.Markup
