import KeywordDocs.Proofs.Text.Lines
import Mathlib.Data.List.Count

/-!
# Rewriting and Measures

Whether a rewriting changes a text can be told from a measure, such as its length or how often a character
occurs in it: if every find becomes smaller, then in a text that keeps its measure nothing was found.
-/

namespace KeywordDocs.Text

open List

variable {f : Char → List Char} {motive : List Char → List Char → Prop} {x : Char}

def Fits {α : Type} (r : Recogniser α) : Prop := ∀ cs a n, r none cs = some (a, n) → 0 < n ∧ n ≤ cs.length

lemma Fits.nil {α : Type} {r : Recogniser α} (h : Fits r) : r none [] = none := by
  cases hfind : r none [] with
  | none => rfl
  | some found =>
    rcases h [] found.1 found.2 hfind with ⟨hpos, hle⟩
    cases (Nat.lt_irrefl 0) (hpos.trans_le hle)

variable {r : Recogniser (List Char)}

lemma Blind.replaceFinds_of_none (hr : Blind r) {cs : List Char}
  (h : ∀ rest, rest <:+ cs → r none rest = none) : replaceFinds r cs = cs :=
  Text.replaceFinds_of_none fun b rest hrest => (hr b none rest).trans (h rest hrest)

lemma replaceFinds_induction (hr : Blind r) (hfit : Fits r) (nil : motive [] [])
  (char : ∀ c cs out, r none (c :: cs) = none → motive cs out → motive (c :: cs) (c :: out))
  (found : ∀ s new cs out, s ≠ [] → r none (s ++ cs) = some (new, s.length) → motive cs out →
    motive (s ++ cs) (new ++ out)) (cs : List Char) : motive cs (replaceFinds r cs) := by
  induction hn : cs.length using Nat.strong_induction_on generalizing cs with
  | _ n ih =>
    cases cs with
    | nil => exact nil
    | cons c cs =>
      cases hfind : r none (c :: cs) with
      | none =>
        rw [replaceFinds_cons hr hfind]
        exact char c cs _ hfind (ih cs.length (by rw [← hn]; exact Nat.lt_succ_self _) cs rfl)
      | some find =>
        rcases find with ⟨new, k⟩
        rcases hfit _ _ _ hfind with ⟨hpos, hle⟩
        have hlength : ((c :: cs).take k).length = k := length_take_of_le hle
        have hsplit : (c :: cs).take k ++ (c :: cs).drop k = c :: cs := take_append_drop k _
        have hne : (c :: cs).take k ≠ [] := by
          rw [← length_pos_iff, hlength]
          exact hpos
        have hfound : r none ((c :: cs).take k ++ (c :: cs).drop k) =
            some (new, ((c :: cs).take k).length) := by rw [hsplit, hfind, hlength]
        have hrest := ih ((c :: cs).drop k).length
          (by rw [← hn, length_drop]; exact Nat.sub_lt (Nat.succ_pos _) hpos) _ rfl
        have hstep := found _ new _ _ hne hfound hrest
        rwa [← replaceFinds_found hr hne hfound, hsplit] at hstep

lemma replaceFinds_append (hr : Blind r) (hfit : Fits r) {a cs : List Char}
  (h : ∀ s, s ≠ [] → s <:+ a → r none (s ++ cs) = r none s) :
  replaceFinds r (a ++ cs) = replaceFinds r a ++ replaceFinds r cs := by
  refine replaceFinds_induction hr hfit (motive := fun a out => (∀ s, s ≠ [] → s <:+ a →
    r none (s ++ cs) = r none s) → replaceFinds r (a ++ cs) = out ++ replaceFinds r cs) (fun _ => rfl)
    (fun c a out hnone ih h => ?_) (fun s new a out hs hfound ih h => ?_) a h
  · have hc := (h (c :: a) (cons_ne_nil c a) (suffix_refl _)).trans hnone
    rw [cons_append, cons_append, ← ih fun s hs hsuffix => h s hs (hsuffix.trans (suffix_cons c a))]
    exact replaceFinds_cons hr hc
  · have hwhole : r none (s ++ (a ++ cs)) = some (new, s.length) := by
      rw [← append_assoc, h _ (append_ne_nil_of_left_ne_nil hs a) (suffix_refl _), hfound]
    rw [append_assoc, replaceFinds_found hr hs hwhole, append_assoc,
      ih fun t ht hsuffix => h t ht (hsuffix.trans (suffix_append s a))]

lemma replaceFinds_sublist (hr : Blind r) (hfit : Fits r)
  (h : ∀ s cs new, r none (s ++ cs) = some (new, s.length) → new.Sublist s) (cs : List Char) :
  (replaceFinds r cs).Sublist cs :=
  replaceFinds_induction hr hfit (motive := fun cs out => out.Sublist cs) .slnil
    (fun c _ _ _ ih => ih.cons_cons c) (fun s new cs _ _ hfind ih => (h s cs new hfind).append ih) cs

lemma count_replaceFinds (hr : Blind r) (hfit : Fits r)
  (h : ∀ s cs new, r none (s ++ cs) = some (new, s.length) → new.count x < s.count x)
  (cs : List Char) : (replaceFinds r cs).count x ≤ cs.count x ∧
    ((replaceFinds r cs).count x = cs.count x → ∀ rest, rest <:+ cs → r none rest = none) := by
  refine replaceFinds_induction hr hfit (motive := fun cs out => out.count x ≤ cs.count x ∧
    (out.count x = cs.count x → ∀ rest, rest <:+ cs → r none rest = none)) ?_ ?_ ?_ cs
  · refine ⟨le_rfl, fun _ rest hrest => ?_⟩
    rw [suffix_nil.mp hrest]
    exact hfit.nil
  · rintro c cs out hfind ⟨hle, hnone⟩
    rw [count_cons, count_cons]
    refine ⟨by omega, fun heq rest hrest => ?_⟩
    rcases suffix_cons_iff.mp hrest with rfl | hrest
    · exact hfind
    · exact hnone (by omega) rest hrest
  · rintro s new cs out - hfind ⟨hle, -⟩
    have hless := h s cs new hfind
    rw [count_append, count_append]
    exact ⟨by omega, fun heq => absurd heq (by omega)⟩

lemma count_replaceFinds_le (hr : Blind r) (hfit : Fits r)
  (h : ∀ s cs new, r none (s ++ cs) = some (new, s.length) → new.count x ≤ s.count x)
  (cs : List Char) : (replaceFinds r cs).count x ≤ cs.count x := by
  refine replaceFinds_induction hr hfit (motive := fun cs out => out.count x ≤ cs.count x) le_rfl ?_ ?_ cs
  · intro c cs out _ hle
    rw [count_cons, count_cons]
    omega
  · intro s new cs out _ hfind hle
    have hnew := h s cs new hfind
    rw [count_append, count_append]
    omega

variable {old new : List Char}

lemma fixed_eq_some {b : Option Char} {cs out : List Char} {n : Nat}
  (h : fixed old new b cs = some (out, n)) : old <+: cs ∧ out = new ∧ n = old.length := by
  rw [fixed] at h
  split at h
  case isTrue hp =>
    cases h
    exact ⟨List.isPrefixOf_iff_prefix.mp hp, rfl, rfl⟩
  case isFalse => cases h

lemma fixed_fits (hold : old ≠ []) : Fits (fixed old new) := by
  intro cs out n h
  rcases fixed_eq_some h with ⟨hp, -, rfl⟩
  exact ⟨length_pos_iff.mpr hold, hp.length_le⟩

lemma fixed_found {s cs out : List Char} (h : fixed old new none (s ++ cs) = some (out, s.length)) :
  s = old ∧ out = new := by
  rcases fixed_eq_some h with ⟨hp, hout, hlength⟩
  have hs : old <+: s := prefix_of_prefix_length_le hp (prefix_append s cs) hlength.ge
  exact ⟨(hs.eq_of_length hlength.symm).symm, hout⟩

lemma replaceChars_induction (hold : old ≠ []) (nil : motive [] [])
  (char : ∀ c cs out, ¬ old <+: c :: cs → motive cs out → motive (c :: cs) (c :: out))
  (found : ∀ cs out, motive cs out → motive (old ++ cs) (new ++ out)) (cs : List Char) :
  motive cs (replaceChars old new cs) := by
  rw [replaceChars_eq_replaceFinds hold]
  refine replaceFinds_induction (fixed_blind old new) (fixed_fits hold) nil
    (fun c cs out hfind ih => char c cs out (fun hp => ?_) ih) (fun s out cs rest _ hfind ih => ?_) cs
  · rcases hp with ⟨rest, hrest⟩
    rw [← hrest, fixed_append] at hfind
    cases hfind
  · rcases fixed_found hfind with ⟨rfl, rfl⟩
    exact found cs rest ih

lemma not_mem_replaceChars (hold : old ≠ []) (hnew : x ∉ new) {cs : List Char}
  (h : x ∉ cs) : x ∉ replaceChars old new cs := by
  refine replaceChars_induction hold (motive := fun cs out => x ∉ cs → x ∉ out) (fun hx => hx)
    (fun c cs out _ ih hx => ?_) (fun cs out ih hx => ?_) cs h
  · rw [mem_cons, not_or] at hx ⊢
    exact ⟨hx.1, ih hx.2⟩
  · rw [mem_append, not_or] at hx ⊢
    exact ⟨hnew, ih hx.2⟩

lemma count_replaceChars (hold : old ≠ []) (hx : new.count x = old.count x)
  (cs : List Char) : (replaceChars old new cs).count x = cs.count x := by
  refine replaceChars_induction hold (motive := fun cs out => out.count x = cs.count x) rfl
    (fun c cs out _ ih => ?_) (fun cs out ih => ?_) cs
  · rw [count_cons, count_cons, ih]
  · rw [count_append, count_append, hx, ih]

lemma length_replaceChars (hold : old ≠ []) (hlonger : old.length < new.length) (cs : List Char) :
  cs.length ≤ (replaceChars old new cs).length ∧
    ((replaceChars old new cs).length = cs.length → ¬ old <:+: cs) := by
  refine replaceChars_induction hold (motive := fun cs out => cs.length ≤ out.length ∧
    (out.length = cs.length → ¬ old <:+: cs)) ?_ ?_ ?_ cs
  · exact ⟨le_rfl, fun _ h => hold (infix_nil.mp h)⟩
  · rintro c cs out hnot ⟨hle, hnone⟩
    rw [length_cons, length_cons]
    refine ⟨by omega, fun heq h => ?_⟩
    rcases infix_cons_iff.mp h with h | h
    · exact hnot h
    · exact hnone (by omega) h
  · rintro cs out ⟨hle, -⟩
    rw [length_append, length_append]
    exact ⟨by omega, fun heq => absurd heq (by omega)⟩

lemma Tight.replaceChars {cs : List Char} (h : Tight cs) (hold : old ≠ []) (hne : new ≠ [])
  (hnew : Tight new) : Tight (replaceChars old new cs) := by
  have hends : (KeywordDocs.Text.replaceChars old new cs = [] → cs = []) ∧
      (∀ c ∈ (KeywordDocs.Text.replaceChars old new cs).head?, c ∈ cs.head? ∨ c ∈ new.head?) ∧
      ∀ c ∈ (KeywordDocs.Text.replaceChars old new cs).getLast?, c ∈ cs.getLast? ∨ c ∈ new.getLast? := by
    refine replaceChars_induction hold (motive := fun cs out => (out = [] → cs = []) ∧
      (∀ c ∈ out.head?, c ∈ cs.head? ∨ c ∈ new.head?) ∧
      ∀ c ∈ out.getLast?, c ∈ cs.getLast? ∨ c ∈ new.getLast?) ?_ ?_ ?_ cs
    · exact ⟨id, nofun, nofun⟩
    · rintro d cs out - ⟨hnil, -, hlast⟩
      refine ⟨nofun, fun c hc => .inl hc, fun c hc => ?_⟩
      cases out with
      | nil =>
        rw [hnil rfl]
        exact .inl hc
      | cons e out =>
        cases cs with
        | nil =>
          rw [getLast?_cons_cons] at hc
          exact (hlast c hc).imp_left nofun
        | cons f cs =>
          rw [getLast?_cons_cons] at hc ⊢
          exact hlast c hc
    · rintro cs out ⟨hnil, -, hlast⟩
      refine ⟨fun hout => absurd (append_eq_nil_iff.mp hout).1 hne, fun c hc => ?_, fun c hc => ?_⟩
      · rw [head?_append_of_ne_nil _ hne] at hc
        exact .inr hc
      · cases out with
        | nil =>
          rw [append_nil] at hc
          exact .inr hc
        | cons e out =>
          rw [getLast?_append_of_ne_nil _ (cons_ne_nil e out)] at hc
          cases cs with
          | nil => exact (hlast c hc).imp_left nofun
          | cons f cs =>
            rw [getLast?_append_of_ne_nil _ (cons_ne_nil f cs)]
            exact hlast c hc
  exact ⟨fun c hc => (hends.2.1 c hc).elim (h.head c) (hnew.head c),
    fun c hc => (hends.2.2 c hc).elim (h.last c) (hnew.last c)⟩

lemma Tight.flatMap (hne : ∀ c, f c ≠ [])
  (hf : ∀ c, isBlank c = false → Tight (f c)) {line : List Char}
  (h : Tight line) : Tight (line.flatMap f) := by
  constructor
  · intro d hd
    cases line with
    | nil => cases hd
    | cons c line =>
      rw [flatMap_cons, head?_append_of_ne_nil _ (hne c)] at hd
      exact (hf c (h.head c rfl)).head d hd
  · intro d hd
    rcases eq_nil_or_concat line with rfl | ⟨front, c, hline⟩
    · cases hd
    · rw [concat_eq_append] at hline
      subst hline
      rw [flatMap_append, flatMap_singleton, getLast?_append_of_ne_nil _ (hne c)] at hd
      exact (hf c (h.last c (by simp))).last d hd

lemma prefix_of_prefix_flatMap {p cs : List Char}
  (hf : ∀ c, f c = [c] ∨ (f c).head? = some '&') (hp : '&' ∉ p) (h : p <+: cs.flatMap f) :
  p <+: cs := by
  induction p generalizing cs with
  | nil => exact nil_prefix
  | cons x p ih =>
    have hx : x ≠ '&' := fun hx => hp (hx ▸ mem_cons_self)
    cases cs with
    | nil => cases (cons_ne_nil x p) (prefix_nil.mp h)
    | cons c cs =>
      rw [flatMap_cons] at h
      rcases hf c with hc | hc
      · rw [hc, singleton_append, cons_prefix_cons] at h
        rw [cons_prefix_cons]
        exact ⟨h.1, ih (fun hmem => hp (mem_cons_of_mem x hmem)) h.2⟩
      · cases hword : f c with
        | nil =>
          rw [hword] at hc
          cases hc
        | cons d word =>
          rw [hword] at hc h
          cases hc
          rw [cons_append, cons_prefix_cons] at h
          cases hx h.1

lemma replaceChars_flatMap {old new : List Char} {f g : Char → List Char} (hold : old ≠ [])
  (hamp : '&' ∉ old.tail) (hf : ∀ c, f c = [c] ∨ (f c).head? = some '&')
  (hplain : old.flatMap f = old) (hnew : new.flatMap g = new)
  (hcase : ∀ c, f c = old ∧ g c = new ∨ f c = g c ∧ (f c = [c] ∨ Shuns old (f c)))
  (cs : List Char) :
  replaceChars old new (cs.flatMap f) = (replaceChars old new cs).flatMap g := by
  have hblind := fixed_blind old new
  refine replaceChars_induction hold (motive := fun cs out =>
    replaceChars old new (cs.flatMap f) = out.flatMap g) ?_ ?_ ?_ cs
  · rw [flatMap_nil, flatMap_nil, replaceChars_eq_replaceFinds hold, replaceFinds_nil]
  · intro c cs out hnot ih
    rw [replaceChars_eq_replaceFinds hold] at ih ⊢
    rw [flatMap_cons, flatMap_cons, ← ih]
    rcases hcase c with ⟨hc, hg⟩ | ⟨hc, hsame | hshuns⟩
    · rw [hc, hg]
      exact Turns.found hblind hold (fun rest => fixed_append old new rest none) _
    · rw [← hc, hsame]
      refine replaceFinds_cons hblind (fixed_eq_none (fun hp => hnot ?_) none)
      -- The first character is not rewritten, so only the rest of an occurrence is to be traced back.
      cases old with
      | nil => cases hold rfl
      | cons o old =>
        rw [cons_prefix_cons] at hp ⊢
        exact ⟨hp.1, prefix_of_prefix_flatMap hf hamp hp.2⟩
    · rw [← hc]
      exact Turns.of_shuns hblind (fun b s hs => fixed_eq_none hs b) hshuns _
  · intro cs out ih
    rw [replaceChars_eq_replaceFinds hold] at ih ⊢
    rw [flatMap_append, flatMap_append, hplain, hnew, ← ih]
    exact replaceFinds_found hblind hold (fixed_append old new _ none)

variable {d : Char} {part cs : List Char}

lemma countFrom_covered (part covered rest : List Char) :
  countFrom part covered.length (covered ++ rest) = countFrom part 0 rest := by
  induction covered with
  | nil => rfl
  | cons c covered ih => exact ih

lemma countFrom_found (d : Char) (part rest : List Char) :
  countFrom (d :: part) 0 (d :: part ++ rest) = countFrom (d :: part) 0 rest + 1 := by
  have hprefix : (d :: part).isPrefixOf (d :: (part ++ rest)) :=
    isPrefixOf_iff_prefix.mpr (prefix_append (d :: part) rest)
  rw [cons_append, countFrom, if_pos hprefix]
  exact congrArg (· + 1) (countFrom_covered (d :: part) part rest)

lemma countFrom_char {c : Char} (h : ¬ part <+: c :: cs) :
  countFrom part 0 (c :: cs) = countFrom part 0 cs := by
  rw [countFrom, if_neg fun hp => h (List.isPrefixOf_iff_prefix.mp hp)]

lemma countFrom_front {front : List Char} (hd : d ∉ front) (rest : List Char) :
  countFrom (d :: part) 0 (front ++ rest) = countFrom (d :: part) 0 rest := by
  induction front with
  | nil => rfl
  | cons c front ih =>
    have hne : ¬ d :: part <+: c :: (front ++ rest) := fun hp =>
      hd ((cons_prefix_cons.mp hp).1 ▸ mem_cons_self)
    rw [cons_append, countFrom_char hne, ih fun hc => hd (mem_cons_of_mem c hc)]

lemma countFrom_pos_iff : 0 < countFrom (d :: part) 0 cs ↔ d :: part <:+: cs := by
  induction cs with
  | nil => simp [countFrom]
  | cons c cs ih =>
    rw [infix_cons_iff]
    by_cases hp : d :: part <+: c :: cs
    · rcases hp with ⟨rest, hrest⟩
      rw [← hrest, countFrom_found]
      exact ⟨fun _ => .inl (prefix_append _ rest), fun _ => Nat.succ_pos _⟩
    · rw [countFrom_char hp, ih]
      exact ⟨.inr, fun h => h.resolve_left hp⟩

lemma two_le_countFrom_iff : 2 ≤ countFrom (d :: part) 0 cs ↔
  ∃ body, d :: part ++ (body ++ d :: part) <:+: cs := by
  induction cs with
  | nil => simp [countFrom]
  | cons c cs ih =>
    by_cases hp : d :: part <+: c :: cs
    · rcases hp with ⟨rest, hrest⟩
      rw [← hrest, countFrom_found]
      have hpos : 2 ≤ countFrom (d :: part) 0 rest + 1 ↔ d :: part <:+: rest := by
        rw [← countFrom_pos_iff]
        omega
      rw [hpos]
      constructor
      · rintro ⟨body, after, rfl⟩
        exact ⟨body, [], after, by simp⟩
      · rintro ⟨body, front, after, hsplit⟩
        have hlate : front ++ (d :: part ++ body) ++ (d :: part ++ after) = d :: part ++ rest := by
          rw [← hsplit]
          simp
        -- The first occurrence ends no later than the one that the second follows.
        have hfirst : d :: part <+: front ++ (d :: part ++ body) :=
          prefix_of_prefix_length_le ⟨rest, hlate.symm⟩ (prefix_append _ _) (by simp; omega)
        rcases hfirst with ⟨m, hm⟩
        rw [← hm, append_assoc] at hlate
        exact ⟨m, after, by rw [← append_cancel_left hlate, append_assoc]⟩
    · rw [countFrom_char hp, ih]
      refine exists_congr fun body => ?_
      rw [infix_cons_iff]
      exact ⟨.inr, fun h => h.resolve_left fun hlong => hp ((prefix_append _ _).trans hlong)⟩

end KeywordDocs.Text
