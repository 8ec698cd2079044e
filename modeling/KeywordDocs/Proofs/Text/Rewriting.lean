import KeywordDocs.Text.Blank
import KeywordDocs.Text.Scan
import KeywordDocs.Text.Search
import Mathlib.Data.List.Infix
import Mathlib.Data.List.TakeDrop
import Mathlib.Data.List.TakeWhile

/-!
# Rewriting, Stretch by Stretch

Scanning and replacing walk over a text with a count of characters that the last find still covers. That makes
them structural recursions, but a text is naturally put together from stretches, and the count may reach
across a cut.
-/

namespace KeywordDocs.Text

open List

universe u

-- There are finitely many characters, but a statement about those in a list is decided along the list.
instance decidableCharsOfList (p : Char → Prop) [DecidablePred p] (cs : List Char) :
  Decidable (∀ c ∈ cs, p c) :=
  List.decidableBAll p cs

instance decidableCharsOfOption (p : Char → Prop) [DecidablePred p] (c? : Option Char) :
  Decidable (∀ c ∈ c?, p c) :=
  Option.decidableForallMem c?

variable {α : Type u} (r : Recogniser α)

lemma scanFrom_covered (before : Option Char) (k : Nat) (cs : List Char) :
  ∃ before', scanFrom r before k cs = scanFrom r before' 0 (cs.drop k) := by
  induction cs generalizing before k with
  | nil => exact ⟨before, by simp only [drop_nil, scanFrom]⟩
  | cons c cs ih =>
    cases k with
    | zero => exact ⟨before, rfl⟩
    | succ k =>
      rcases ih (some c) k with ⟨before', h⟩
      exact ⟨before', by rw [scanFrom, h, drop_succ_cons]⟩

lemma scanFrom_append_of_none (before : Option Char) (pre cs : List Char)
  (hpre : ∀ c ∈ pre, ∀ b rest, r b (c :: rest) = none) :
  ∃ before', scanFrom r before 0 (pre ++ cs) = pre.map .plain ++ scanFrom r before' 0 cs := by
  induction pre generalizing before with
  | nil => exact ⟨before, rfl⟩
  | cons c pre ih =>
    rcases ih (some c) fun d hd => hpre d (mem_cons_of_mem c hd) with ⟨before', h⟩
    refine ⟨before', ?_⟩
    rw [cons_append, scanFrom, hpre c mem_cons_self before (pre ++ cs)]
    simp only [h, map_cons, cons_append]

lemma mem_scanFrom (before : Option Char) (k : Nat) (cs : List Char) (p : Piece α)
  (hp : p ∈ scanFrom r before k cs) :
  (∃ c ∈ cs, p = .plain c) ∨ ∃ a b rest n, p = .found a ∧ rest <:+ cs ∧ r b rest = some (a, n) := by
  induction cs generalizing before k with
  | nil => simp [scanFrom] at hp
  | cons c cs ih =>
    -- What a smaller scan yields is also a piece of the whole text.
    have later : ∀ b k, p ∈ scanFrom r b k cs → (∃ d ∈ c :: cs, p = .plain d) ∨
          ∃ a b rest n, p = .found a ∧ rest <:+ c :: cs ∧ r b rest = some (a, n) := by
      intro b k h
      rcases ih b k h with ⟨d, hd, rfl⟩ | ⟨a, b', rest, n, rfl, hrest, hr⟩
      · exact .inl ⟨d, mem_cons_of_mem c hd, rfl⟩
      · exact .inr ⟨a, b', rest, n, rfl, hrest.trans (suffix_cons c cs), hr⟩
    cases k with
    | succ k => exact later _ _ hp
    | zero =>
      rw [scanFrom] at hp
      cases hr : r before (c :: cs) with
      | none =>
        rw [hr] at hp
        rcases mem_cons.mp hp with rfl | hp
        · exact .inl ⟨c, mem_cons_self, rfl⟩
        · exact later _ _ hp
      | some found =>
        rw [hr] at hp
        rcases mem_cons.mp hp with rfl | hp
        · exact .inr ⟨found.1, before, c :: cs, found.2, rfl, suffix_refl _, hr⟩
        · exact later _ _ hp

variable {old new : List Char} {c : Char}

lemma isPrefixOf_append_cons (hc : c ∉ old) (a b : List Char) :
  old.isPrefixOf (a ++ c :: b) = old.isPrefixOf a := by
  induction a generalizing old with
  | nil =>
    cases old with
    | nil => rfl
    | cons o old =>
      have hoc : o ≠ c := fun h => hc (h ▸ mem_cons_self)
      simp [List.isPrefixOf, hoc]
  | cons x a ih =>
    cases old with
    | nil => rfl
    | cons o old =>
      have hold : c ∉ old := fun h => hc (mem_cons_of_mem o h)
      simp only [cons_append, List.isPrefixOf, ih hold]

lemma infix_append_cons_iff (hc : c ∉ old) (a b : List Char) :
  old <:+: a ++ c :: b ↔ old <:+: a ∨ old <:+: b := by
  have hfront : ∀ a : List Char, old <+: a ++ c :: b ↔ old <+: a := fun a => by
    rw [← isPrefixOf_iff_prefix, isPrefixOf_append_cons hc, isPrefixOf_iff_prefix]
  induction a with
  | nil =>
    have hnil := hfront []
    rw [nil_append] at hnil ⊢
    rw [infix_cons_iff, hnil, prefix_nil, infix_nil]
  | cons d a ih =>
    have hhere := hfront (d :: a)
    rw [cons_append] at hhere ⊢
    rw [infix_cons_iff, infix_cons_iff, hhere, or_assoc]
    exact or_congr_right ih

lemma replaceFrom_append_cons (hc : c ∉ old) (a b : List Char) (k : Nat) (hk : k ≤ a.length) :
  replaceFrom old new k (a ++ c :: b) = replaceFrom old new k a ++ replaceFrom old new 0 (c :: b) := by
  induction a generalizing k with
  | nil =>
    have hk0 : k = 0 := by simpa using hk
    subst hk0
    rfl
  | cons x a ih =>
    cases k with
    | succ k => exact ih k (by simpa using hk)
    | zero =>
      have step : ∀ l, replaceFrom old new 0 (x :: l) = if old.isPrefixOf (x :: l)
          then new ++ replaceFrom old new (old.length - 1) l
          else x :: replaceFrom old new 0 l := fun l => by rw [replaceFrom]
      have hfront := isPrefixOf_append_cons hc (x :: a) b
      rw [cons_append] at hfront ⊢
      rw [step, step, hfront]
      -- An occurrence at the front ends before the cut, so what it covers is within `a`.
      by_cases hold : old.isPrefixOf (x :: a)
      · have hlen : old.length ≤ a.length + 1 :=
          (List.isPrefixOf_iff_prefix.mp hold).length_le
        rw [if_pos hold, if_pos hold, ih (old.length - 1) (by omega), append_assoc]
      · rw [if_neg hold, if_neg hold, ih 0 (Nat.zero_le _), cons_append]

lemma replaceChars_append_cons (new : List Char) (hold : old ≠ []) (hc : c ∉ old)
  (a b : List Char) :
  replaceChars old new (a ++ c :: b) = replaceChars old new a ++ c :: replaceChars old new b := by
  have hempty : old.isEmpty = false := by simpa using hold
  have hstarts : old.isPrefixOf (c :: b) = false := by
    cases old with
    | nil => cases hold rfl
    | cons o old =>
      have hoc : o ≠ c := fun h => hc (h ▸ mem_cons_self)
      simp [List.isPrefixOf, hoc]
  simp only [replaceChars, hempty, Bool.false_eq_true, if_false]
  rw [replaceFrom_append_cons hc a b 0 (Nat.zero_le _), replaceFrom, hstarts]
  rfl

lemma replaceChars_append_tag (hold : old ≠ []) (hlt : '<' ∉ old) (hgt : '>' ∉ old)
  (run body cs : List Char) :
  replaceChars old new (run ++ ('<' :: body ++ ['>'] ++ cs)) =
    replaceChars old new run ++ (replaceChars old new ('<' :: body ++ ['>']) ++
      replaceChars old new cs) := by
  have hempty : old.isEmpty = false := by simpa using hold
  have hnil : replaceChars old new [] = [] := by simp [replaceChars, hempty, replaceFrom]
  have hopen := fun a b => replaceChars_append_cons new hold hlt a b
  have hclose := fun a b => replaceChars_append_cons new hold hgt a b
  rw [show run ++ ('<' :: body ++ ['>'] ++ cs) = run ++ '<' :: (body ++ '>' :: cs) by simp, hopen,
    hclose, show '<' :: body ++ ['>'] = [] ++ '<' :: (body ++ '>' :: []) by simp, hopen, hclose]
  simp [hnil]

lemma replaceChars_eq_self (hold : old ≠ []) (cs : List Char)
  (h : ∀ rest, rest <:+ cs → ¬ old <+: rest) : replaceChars old new cs = cs := by
  have hempty : old.isEmpty = false := by simpa using hold
  simp only [replaceChars, hempty, Bool.false_eq_true, if_false]
  induction cs with
  | nil => rfl
  | cons x cs ih =>
    have hx : ¬ old.isPrefixOf (x :: cs) := fun hp => h _ (suffix_refl _) (List.isPrefixOf_iff_prefix.mp hp)
    rw [replaceFrom, if_neg hx, ih fun rest hrest => h rest (hrest.trans (suffix_cons x cs))]

lemma dropPrefix?_append (p rest : List Char) : dropPrefix? p (p ++ rest) = some rest := by
  induction p with
  | nil => rfl
  | cons x p ih => rw [cons_append, dropPrefix?, if_pos rfl, ih]

lemma dropPrefix?_eq_some {p cs rest : List Char} (h : dropPrefix? p cs = some rest) :
  cs = p ++ rest := by
  induction p generalizing cs with
  | nil =>
    rw [dropPrefix?, Option.some.injEq] at h
    exact h
  | cons x p ih =>
    cases cs with
    | nil => simp [dropPrefix?] at h
    | cons c cs =>
      rw [dropPrefix?] at h
      split at h
      case isTrue hxc => rw [hxc, ih h, cons_append]
      case isFalse => cases h

lemma dropPrefix?_eq_none {p cs : List Char} (h : ¬ p <+: cs) : dropPrefix? p cs = none :=
  Option.eq_none_iff_forall_ne_some.mpr fun rest hrest => h ⟨rest, (dropPrefix?_eq_some hrest).symm⟩

lemma span_ne_eq {stop d : Char} {cs a b : List Char} (h : cs.span (· ≠ stop) = (a, d :: b)) :
  cs = a ++ stop :: b ∧ stop ∉ a := by
  rw [span_eq_takeWhile_dropWhile] at h
  injection h with ha hb
  -- The walk stops at the first character that is not passed, which can only be `stop`.
  have hd : d = stop := by
    have hhead := head?_dropWhile_not (fun c => decide (c ≠ stop)) cs
    rw [hb] at hhead
    simpa using hhead
  refine ⟨?_, fun hmem => ?_⟩
  · rw [← hd, ← ha, ← hb, takeWhile_append_dropWhile]
  · have hne := mem_takeWhile_imp (ha ▸ hmem)
    simp at hne

lemma span_ne_append_cons {stop : Char} {a : List Char} (ha : stop ∉ a) (b : List Char) :
  (a ++ stop :: b).span (· ≠ stop) = (a, stop :: b) := by
  have hne : ∀ c ∈ a, decide (c ≠ stop) := fun c hc => decide_eq_true fun h => ha (h ▸ hc)
  rw [span_eq_takeWhile_dropWhile, takeWhile_append_of_pos hne, dropWhile_append_of_pos hne]
  simp

lemma not_mem_splitAtChar {sep : Char} {cs part : List Char} (h : part ∈ splitAtChar sep cs) :
  sep ∉ part := by
  induction cs generalizing part with
  | nil =>
    rw [splitAtChar, mem_singleton] at h
    rw [h]
    exact not_mem_nil
  | cons c cs ih =>
    rw [splitAtChar] at h
    split at h
    · rcases mem_cons.mp h with rfl | h
      · exact not_mem_nil
      · exact ih h
    case isFalse hc =>
      -- A character that does not separate goes to the front of the first stretch.
      have hfirst : ∀ first, sep ∉ first → sep ∉ c :: first := by
        intro first hfirst hmem
        rcases mem_cons.mp hmem with heq | hmem
        · exact hc heq.symm
        · exact hfirst hmem
      split at h
      · rw [mem_singleton] at h
        rw [h]
        exact hfirst [] not_mem_nil
      case h_2 first rest hsplit =>
        rcases mem_cons.mp h with rfl | h
        · exact hfirst first (ih (hsplit ▸ mem_cons_self))
        · exact ih (hsplit ▸ mem_cons_of_mem first h)

lemma dropEndWhile_concat {α : Type u} (p : α → Bool) (l : List α) (a : α) :
  dropEndWhile p (l ++ [a]) = if p a then dropEndWhile p l else l ++ [a] := by
  simp only [dropEndWhile, reverse_append, reverse_cons, reverse_nil, nil_append,
    singleton_append, dropWhile_cons]
  split <;> simp

lemma dropEndWhile_isPrefix {α : Type u} (p : α → Bool) (l : List α) : dropEndWhile p l <+: l := by
  have h := reverse_prefix.mpr (dropWhile_suffix (l := l.reverse) p)
  rwa [reverse_reverse] at h

lemma dropEndWhile_subset {α : Type u} (p : α → Bool) (l : List α) : dropEndWhile p l ⊆ l :=
  (dropEndWhile_isPrefix p l).subset

lemma trimChars_subset (cs : List Char) : trimChars cs ⊆ cs := by
  intro c hc
  exact (dropWhile_suffix _).subset (dropEndWhile_subset isBlank _ hc)

lemma containsChars_iff {part cs : List Char} : containsChars part cs ↔ part <:+: cs := by
  induction cs with
  | nil => rw [containsChars, List.isEmpty_iff, infix_nil]
  | cons c cs ih => rw [containsChars, Bool.or_eq_true, isPrefixOf_iff_prefix, ih, infix_cons_iff]

variable {r : Recogniser α} {cs : List Char}

lemma scanFrom_of_none (before : Option Char) (h : ∀ b rest, rest <:+ cs → r b rest = none) :
  scanFrom r before 0 cs = cs.map .plain := by
  induction cs generalizing before with
  | nil => rfl
  | cons c cs ih =>
    rw [scanFrom, h before _ (suffix_refl _), map_cons]
    dsimp only
    rw [ih (some c) fun b rest hrest => h b rest (hrest.trans (suffix_cons c cs))]

lemma scan_of_none (h : ∀ b rest, rest <:+ cs → r b rest = none) : scan r cs = cs.map .plain :=
  scanFrom_of_none none h

lemma scanFrom_congr {r' : Recogniser α} (before : Option Char) (k : Nat)
  (h : ∀ b rest, rest <:+ cs → r b rest = r' b rest) :
  scanFrom r before k cs = scanFrom r' before k cs := by
  induction cs generalizing before k with
  | nil => rw [scanFrom, scanFrom]
  | cons c cs ih =>
    have hrest := fun b k => ih b k fun b' rest hrest => h b' rest (hrest.trans (suffix_cons c cs))
    cases k with
    | succ k => exact hrest (some c) k
    | zero =>
      rw [scanFrom, scanFrom, h before _ (suffix_refl _)]
      cases r' before (c :: cs) with
      | none => exact congrArg (.plain c :: ·) (hrest (some c) 0)
      | some found => exact congrArg (.found found.1 :: ·) (hrest (some c) (found.2 - 1))

lemma replaceFinds_of_none {r : Recogniser (List Char)} {cs : List Char}
  (h : ∀ b rest, rest <:+ cs → r b rest = none) : replaceFinds r cs = cs := by
  rw [replaceFinds, scan_of_none h, flatMap_map]
  exact flatMap_singleton' cs

lemma foldl_replaceFinds {rs : List (Recogniser (List Char))} {cs : List Char}
  (h : ∀ r ∈ rs, replaceFinds r cs = cs) : rs.foldl (fun cs r => replaceFinds r cs) cs = cs := by
  induction rs with
  | nil => rfl
  | cons r rs ih =>
    rw [foldl_cons, h r mem_cons_self]
    exact ih fun r' hr' => h r' (mem_cons_of_mem r hr')

lemma replaceFinds_congr {r r' : Recogniser (List Char)} {cs : List Char}
  (h : ∀ b rest, rest <:+ cs → r b rest = r' b rest) : replaceFinds r cs = replaceFinds r' cs := by
  rw [replaceFinds, replaceFinds, scan, scan, scanFrom_congr none 0 h]

/-- Recognisers that do not look back. -/
def Blind {α : Type u} (r : Recogniser α) : Prop := ∀ b b' cs, r b cs = r b' cs

variable {r : Recogniser (List Char)}

lemma Blind.scanFrom_eq {r : Recogniser α} (hr : Blind r) (b b' : Option Char) (cs : List Char) :
  scanFrom r b 0 cs = scanFrom r b' 0 cs := by
  cases cs with
  | nil => rfl
  | cons c cs => rw [scanFrom, scanFrom, hr b b']

lemma replaceFinds_nil : replaceFinds r [] = [] := rfl

lemma scan_cons {r : Recogniser α} (hr : Blind r) {cs : List Char}
  (h : r none (c :: cs) = none) : scan r (c :: cs) = .plain c :: scan r cs := by
  rw [scan, scanFrom, h]
  dsimp only
  rw [hr.scanFrom_eq (some c) none, scan]

lemma scan_found {r : Recogniser α} (hr : Blind r) {found rest : List Char} {x : α}
  (hne : found ≠ []) (h : r none (found ++ rest) = some (x, found.length)) :
  scan r (found ++ rest) = .found x :: scan r rest := by
  cases found with
  | nil => cases hne rfl
  | cons c found =>
    rw [cons_append] at h ⊢
    rcases scanFrom_covered r (some c) found.length (found ++ rest) with ⟨b, hcovered⟩
    rw [scan, scanFrom, h]
    dsimp only
    rw [length_cons, Nat.add_sub_cancel, hcovered, drop_left, hr.scanFrom_eq b none, scan]

lemma replaceFinds_cons (hr : Blind r) {cs : List Char}
  (h : r none (c :: cs) = none) : replaceFinds r (c :: cs) = c :: replaceFinds r cs := by
  rw [replaceFinds, scan_cons hr h]
  rfl

lemma replaceFinds_found (hr : Blind r) {found out rest : List Char} (hne : found ≠ [])
  (h : r none (found ++ rest) = some (out, found.length)) :
  replaceFinds r (found ++ rest) = out ++ replaceFinds r rest := by
  rw [replaceFinds, scan_found hr hne h]
  rfl

lemma replaceFinds_front (hr : Blind r) {front cs : List Char}
  (h : ∀ c rest, c :: rest <:+ front → r none (c :: rest ++ cs) = none) :
  replaceFinds r (front ++ cs) = front ++ replaceFinds r cs := by
  induction front with
  | nil => rfl
  | cons c front ih =>
    have hc : r none (c :: (front ++ cs)) = none := h c front (suffix_refl _)
    rw [cons_append, replaceFinds_cons hr hc,
      ih fun d rest hrest => h d rest (hrest.trans (suffix_cons c front)), cons_append]

/-- Whatever follows, `cs` becomes `out`. -/
def Turns (r : Recogniser (List Char)) (cs out : List Char) : Prop :=
  ∀ rest, replaceFinds r (cs ++ rest) = out ++ replaceFinds r rest

namespace Turns

variable {a a' b b' : List Char}

lemma eq (h : Turns r a a') : replaceFinds r a = a' := by
  have hall := h []
  rwa [append_nil, replaceFinds_nil, append_nil] at hall

lemma nil : Turns r [] [] := fun _ => rfl

lemma append (ha : Turns r a a') (hb : Turns r b b') : Turns r (a ++ b) (a' ++ b') := by
  intro rest
  rw [append_assoc, ha, hb, append_assoc]

lemma char (hr : Blind r) (h : ∀ rest, r none (c :: rest) = none) : Turns r [c] [c] :=
  fun rest => replaceFinds_cons hr (h rest)

lemma found (hr : Blind r) (hne : a ≠ []) (h : ∀ rest, r none (a ++ rest) = some (a', a.length)) :
  Turns r a a' :=
  fun rest => replaceFinds_found hr hne (h rest)

lemma flatMap {α : Type u} {l : List α} {f g : α → List Char}
  (h : ∀ x ∈ l, Turns r (f x) (g x)) : Turns r (l.flatMap f) (l.flatMap g) := by
  induction l with
  | nil => exact nil
  | cons x l ih =>
    rw [flatMap_cons, flatMap_cons]
    exact (h x mem_cons_self).append (ih fun y hy => h y (mem_cons_of_mem x hy))

lemma intercalate {sep sep' : List Char} (hsep : Turns r sep sep') {α : Type u} {l : List α}
  {f g : α → List Char} (h : ∀ x ∈ l, Turns r (f x) (g x)) :
  Turns r (List.intercalate sep (l.map f)) (List.intercalate sep' (l.map g)) := by
  induction l with
  | nil => exact nil
  | cons x l ih =>
    have hx := h x mem_cons_self
    have hrest := ih fun y hy => h y (mem_cons_of_mem x hy)
    cases l with
    | nil =>
      rw [map_singleton, map_singleton, intercalate_singleton, intercalate_singleton]
      exact hx
    | cons y l =>
      rw [map_cons, map_cons, map_cons, map_cons, intercalate_cons_cons, intercalate_cons_cons]
      exact (hx.append hsep).append hrest

end Turns

variable {start : List Char}

def noEnd (start cs : List Char) : Bool :=
  cs.tails.all fun s => s.isEmpty || !(start.isPrefixOf s || s.isPrefixOf start)

/-- Whatever follows, `start` begins nowhere within `cs`. -/
def Shuns (start cs : List Char) : Prop := ∀ s, s <:+ cs → s ≠ [] → ∀ rest, ¬ start <+: s ++ rest

namespace Shuns

lemma nil : Shuns start [] := fun _ hs hne => absurd (suffix_nil.mp hs) hne

lemma append {a b : List Char} (ha : Shuns start a) (hb : Shuns start b) : Shuns start (a ++ b) := by
  rintro s ⟨front, hsplit⟩ hne rest
  rcases append_eq_append_iff.mp hsplit with ⟨a', rfl, rfl⟩ | ⟨b', -, hb'⟩
  · cases a' with
    | nil => exact hb b (suffix_refl b) hne rest
    | cons c a' =>
      rw [append_assoc]
      exact ha (c :: a') (suffix_append _ _) (cons_ne_nil c a') (b ++ rest)
  · exact hb s ⟨b', hb'.symm⟩ hne rest

lemma flatMap {α : Type u} {l : List α} {f : α → List Char} (h : ∀ x ∈ l, Shuns start (f x)) :
  Shuns start (l.flatMap f) := by
  induction l with
  | nil => exact nil
  | cons x l ih =>
    rw [flatMap_cons]
    exact (h x mem_cons_self).append (ih fun y hy => h y (mem_cons_of_mem x hy))

lemma of_not_mem (h : c ∉ cs) : Shuns (c :: start) cs := by
  intro s hs hne rest hstarts
  cases s with
  | nil => exact hne rfl
  | cons d s =>
    rw [cons_append, cons_prefix_cons] at hstarts
    exact h (hs.subset (hstarts.1 ▸ mem_cons_self))

lemma of_noEnd (h : noEnd start cs) : Shuns start cs := by
  intro s hs hne rest hstarts
  have hempty : s.isEmpty = false := by simpa using hne
  have hs' := all_eq_true.mp h s ((mem_tails s cs).mpr hs)
  rw [hempty, Bool.false_or, Bool.not_eq_true', Bool.or_eq_false_iff] at hs'
  rcases prefix_or_prefix_of_prefix hstarts (prefix_append s rest) with hp | hp
  · rw [List.isPrefixOf_iff_prefix.mpr hp] at hs'
    cases hs'.1
  · rw [List.isPrefixOf_iff_prefix.mpr hp] at hs'
    cases hs'.2

lemma of_prefix {more : List Char} (h : Shuns start cs) : Shuns (start ++ more) cs :=
  fun s hs hne rest hstarts => h s hs hne rest ((prefix_append start more).trans hstarts)

end Shuns

def Needs {α : Type u} (r : Recogniser α) (start : List Char) : Prop := ∀ b cs, ¬ start <+: cs → r b cs = none

lemma Turns.of_shuns {r : Recogniser (List Char)} (hr : Blind r) (hneeds : Needs r start)
  (h : Shuns start cs) : Turns r cs cs := fun rest =>
  replaceFinds_front hr fun c s hs => hneeds none _ (h (c :: s) hs (cons_ne_nil c s) rest)

variable {r : Recogniser α}

def Yields (r : Recogniser α) (cs : List Char) (found : List α) : Prop :=
  ∀ rest, finds r (cs ++ rest) = found ++ finds r rest

namespace Yields

variable {a b : List Char} {x y : List α}

lemma eq (h : Yields r a x) : finds r a = x := by
  have hall := h []
  rwa [append_nil, show finds r [] = [] from rfl, append_nil] at hall

lemma nil : Yields r [] [] := fun _ => rfl

lemma append (ha : Yields r a x) (hb : Yields r b y) : Yields r (a ++ b) (x ++ y) := by
  intro rest
  rw [append_assoc, ha, hb, append_assoc]

lemma flatMap {β : Type u} {l : List β} {f : β → List Char} {g : β → List α}
  (h : ∀ z ∈ l, Yields r (f z) (g z)) : Yields r (l.flatMap f) (l.flatMap g) := by
  induction l with
  | nil => exact nil
  | cons z l ih =>
    rw [flatMap_cons, flatMap_cons]
    exact (h z mem_cons_self).append (ih fun y hy => h y (mem_cons_of_mem z hy))

lemma found (hr : Blind r) (hne : a ≠ []) {z : α}
  (h : ∀ rest, r none (a ++ rest) = some (z, a.length)) : Yields r a [z] := by
  intro rest
  rw [finds, scan_found hr hne (h rest)]
  rfl

lemma none (hr : Blind r) (h : ∀ s, s <:+ a → s ≠ [] → ∀ rest, r none (s ++ rest) = none) :
  Yields r a [] := by
  intro rest
  induction a with
  | nil => rfl
  | cons c a ih =>
    have hc : r .none (c :: (a ++ rest)) = .none := h (c :: a) (suffix_refl _) (cons_ne_nil c a) rest
    rw [cons_append, finds, scan_cons hr hc]
    exact ih fun s hs => h s (hs.trans (suffix_cons c a))

lemma of_scan (hr : Blind r)
  (h : ∀ rest, scan r (a ++ rest) = scan r a ++ scanFrom r a.getLast? 0 rest) :
  Yields r a (finds r a) := by
  intro rest
  rw [finds, h, filterMap_append, hr.scanFrom_eq _ .none]
  rfl

end Yields

def fixed (old new : List Char) : Recogniser (List Char) := fun _ cs =>
  if old.isPrefixOf cs then some (new, old.length) else none

lemma fixed_blind (old new : List Char) : Blind (fixed old new) := fun _ _ _ => rfl

lemma fixed_append (old new rest : List Char) (b : Option Char) :
  fixed old new b (old ++ rest) = some (new, old.length) :=
  if_pos (List.isPrefixOf_iff_prefix.mpr (prefix_append old rest))

lemma fixed_eq_none {cs : List Char} (h : ¬ old <+: cs) (b : Option Char) :
  fixed old new b cs = none :=
  if_neg fun hp => h (List.isPrefixOf_iff_prefix.mp hp)

lemma replaceFrom_covered (old new : List Char) (k : Nat) (cs : List Char) :
  replaceFrom old new k cs = replaceFrom old new 0 (cs.drop k) := by
  induction cs generalizing k with
  | nil => rw [drop_nil, replaceFrom, replaceFrom]
  | cons c cs ih =>
    cases k with
    | zero => rfl
    | succ k => rw [replaceFrom, ih, drop_succ_cons]

lemma replaceChars_eq_replaceFinds (hold : old ≠ []) (new cs : List Char) :
  replaceChars old new cs = replaceFinds (fixed old new) cs := by
  have hempty : old.isEmpty = false := by simpa using hold
  have hlen : 0 < old.length := length_pos_iff.mpr hold
  rw [replaceChars, hempty, if_neg Bool.false_ne_true]
  -- Both walks are at the same place of the text at every step.
  induction hn : cs.length using Nat.strong_induction_on generalizing cs with
  | _ n ih =>
    cases cs with
    | nil => rw [replaceFrom, replaceFinds_nil]
    | cons c cs =>
      by_cases hp : old <+: c :: cs
      · rcases hp with ⟨rest, hrest⟩
        have hdrop : cs.drop (old.length - 1) = rest := by
          have h : (old ++ rest).drop old.length = rest := drop_left
          rw [hrest] at h
          rw [← h, show old.length = old.length - 1 + 1 by omega, drop_succ_cons, Nat.add_sub_cancel]
        have hlt : rest.length < n := by
          have h := congrArg List.length hrest
          rw [length_append] at h
          omega
        rw [replaceFrom, if_pos (List.isPrefixOf_iff_prefix.mpr ⟨rest, hrest⟩),
          replaceFrom_covered, hdrop, ih _ hlt rest rfl, ← hrest,
          replaceFinds_found (fixed_blind old new) hold (fixed_append old new rest none)]
      · have hlt : cs.length < n := by
          rw [← hn]
          exact Nat.lt_succ_self _
        rw [replaceFrom, if_neg fun h => hp (List.isPrefixOf_iff_prefix.mp h), ih _ hlt cs rfl,
          replaceFinds_cons (fixed_blind old new) (fixed_eq_none hp none)]

end KeywordDocs.Text
