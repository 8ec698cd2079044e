import KeywordDocs.Proofs.Page.Export
import KeywordDocs.Proofs.Text.Measures

/-!
# Stripping Markup

For a page in Markdown, entities are decoded and then spans and tags removed. Then no tag is left
(`withoutTags_tagFree`), although what stood on both sides of one is joined: an angle bracket stays only if it
is closed at once or not at all.
-/

namespace KeywordDocs.Page

open Text Markup List

variable {cs body rest p a b : List Char} {x : Char}

lemma tag_eq_some {b : Option Char} {t : List Char} {n : Nat} (h : tag b cs = some (t, n)) :
  ∃ body rest, body ≠ [] ∧ '>' ∉ body ∧ t = '<' :: (body ++ ['>']) ∧ n = t.length ∧
    cs = '<' :: (body ++ '>' :: rest) := by
  unfold tag at h
  split at h
  case h_1 inner =>
    split at h
    case h_1 c body d rest heq =>
      rcases span_ne_eq heq with ⟨rfl, hbody⟩
      cases h
      exact ⟨c :: body, rest, cons_ne_nil c body, hbody, rfl, by simp, rfl⟩
    case h_2 => cases h
  case h_2 => cases h

lemma tag_append (hne : body ≠ []) (hbody : '>' ∉ body) (b : Option Char) (rest : List Char) :
  tag b ('<' :: (body ++ '>' :: rest)) = some ('<' :: (body ++ ['>']), body.length + 2) := by
  cases body with
  | nil => cases hne rfl
  | cons c body =>
    have hspan := span_ne_append_cons hbody rest
    unfold tag
    simp only [hspan]
    rfl

lemma infix_of_infix_append (hx : x ∉ b) (h : p ++ [x] <:+: a ++ b) : p ++ [x] <:+: a := by
  rcases h with ⟨front, after, hsplit⟩
  rcases append_eq_append_iff.mp hsplit with ⟨a', rfl, -⟩ | ⟨c, hc, hb⟩
  · exact ⟨front, a', rfl⟩
  · rcases eq_nil_or_concat c with rfl | ⟨c', y, rfl⟩
    · exact ⟨front, [], by rw [hc, append_nil, append_nil]⟩
    · have hxy : x = y := by simpa using congrArg List.getLast? hc
      exact absurd (by rw [hb, hxy]; simp) hx

lemma infix_of_append_infix (hx : x ∉ a) (h : x :: p <:+: a ++ b) : x :: p <:+: b := by
  rw [← reverse_infix, reverse_cons, reverse_append] at h
  rw [← reverse_infix, reverse_cons]
  exact infix_of_infix_append (fun hmem => hx (mem_reverse.mp hmem)) h

/-- No tag starts anywhere. -/
def TagFree (cs : List Char) : Prop := ∀ rest, rest <:+ cs → tag none rest = none

lemma tagFree_iff : TagFree cs ↔ ∀ body, body ≠ [] → '>' ∉ body → ¬ '<' :: (body ++ ['>']) <:+: cs := by
  constructor
  · rintro h body hne hbody ⟨front, after, hcs⟩
    have hsuffix : '<' :: (body ++ '>' :: after) <:+ cs := ⟨front, by rw [← hcs]; simp⟩
    have hnone := h _ hsuffix
    rw [tag_append hne hbody] at hnone
    cases hnone
  · rintro h rest ⟨front, hcs⟩
    cases htag : tag none rest with
    | none => rfl
    | some found =>
      rcases tag_eq_some htag with ⟨body, after, hne, hbody, -, -, rfl⟩
      refine absurd ⟨front, after, ?_⟩ (h body hne hbody)
      rw [← hcs]
      simp

lemma TagFree.of_part {t : List Char} (h : TagFree cs) (ht : t <:+: cs) : TagFree t :=
  tagFree_iff.mpr fun body hne hbody hpart => tagFree_iff.mp h body hne hbody (hpart.trans ht)

lemma TagFree.cons {c : Char} (h : TagFree cs) (hc : tag none (c :: cs) = none) :
  TagFree (c :: cs) := by
  intro rest hrest
  rcases suffix_cons_iff.mp hrest with rfl | hrest
  · exact hc
  · exact h rest hrest

lemma tag_eq_none_of_sublist {c : Char} {out : List Char} (hsub : out.Sublist cs)
  (hhead : cs.head? = some '>' → out.head? = some '>') (h : tag none (c :: cs) = none) :
  tag none (c :: out) = none := by
  cases htag : tag none (c :: out) with
  | none => rfl
  | some found =>
    rcases tag_eq_some htag with ⟨body, after, hne, hbody, -, -, hout⟩
    injection hout with hc hout
    subst hc
    have hclosed : '>' ∈ cs := hsub.subset (by rw [hout]; simp)
    rcases eq_append_cons_of_mem hclosed with ⟨front, back, rfl, hfront⟩
    cases front with
    | nil =>
      cases body with
      | nil => cases hne rfl
      | cons d body =>
        have hd : d = '>' := by
          rw [hout] at hhead
          simpa using hhead rfl
        cases hbody (hd ▸ mem_cons_self)
    | cons d front =>
      rw [tag_append (cons_ne_nil d front) hfront none back] at h
      cases h

lemma tagFree_around {a b : List Char} (ha : '<' ∉ a) (hb : '>' ∉ b) :
  TagFree (a ++ (cs ++ b)) ↔ TagFree cs := by
  have hplain : ∀ {t u : List Char}, '<' ∉ t → TagFree u → TagFree (t ++ u) := by
    intro t u ht hu
    induction t with
    | nil => exact hu
    | cons c t ih =>
      refine (ih fun h => ht (mem_cons_of_mem c h)).cons ?_
      exact tag_eq_none (fun hc => ht (hc ▸ mem_cons_self)) none _
  refine ⟨fun h => h.of_part ⟨a, b, append_assoc a cs b⟩, fun h => hplain ha ?_⟩
  -- A tag that starts in the text also ends there, since what follows has no closing bracket.
  refine tagFree_iff.mpr fun body hne hbody hpart => tagFree_iff.mp h body hne hbody ?_
  rw [← cons_append] at hpart ⊢
  exact infix_of_infix_append hb hpart

variable {s new : List Char} {n : Nat}

lemma tagRemoval_found (h : tagRemoval none (s ++ rest) = some (new, s.length)) :
  new = [] ∧ ∃ body, body ≠ [] ∧ '>' ∉ body ∧ s = '<' :: (body ++ ['>']) := by
  rcases Option.map_eq_some_iff.mp h with ⟨found, htag, hfound⟩
  rcases tag_eq_some htag with ⟨body, after, hne, hbody, htext, hlength, hcs⟩
  injection hfound with hnew hn
  refine ⟨hnew.symm, body, hne, hbody, ?_⟩
  have hstart : found.1 <+: s ++ rest := by
    rw [hcs, htext]
    exact ⟨after, by simp⟩
  have heq := prefix_of_prefix_length_le hstart (prefix_append s rest) (by omega)
  rw [← htext, heq.eq_of_length (by omega)]

lemma tagRemoval_fits : Fits tagRemoval := by
  intro cs new n h
  rcases Option.map_eq_some_iff.mp h with ⟨found, htag, hfound⟩
  rcases tag_eq_some htag with ⟨body, after, -, -, htext, hlength, rfl⟩
  injection hfound with hnew hn
  rw [← hn, hlength, htext]
  simp

lemma withoutTags_tagFree (cs : List Char) : TagFree (withoutTags cs) := by
  have hwalk : TagFree (replaceFinds tagRemoval cs) ∧ (replaceFinds tagRemoval cs).Sublist cs ∧
      (cs.head? = some '>' → (replaceFinds tagRemoval cs).head? = some '>') := by
    refine replaceFinds_induction tagRemoval_blind tagRemoval_fits (motive := fun cs out =>
      TagFree out ∧ out.Sublist cs ∧ (cs.head? = some '>' → out.head? = some '>')) ?_ ?_ ?_ cs
    · exact ⟨fun rest hrest => by rw [suffix_nil.mp hrest]; rfl, .slnil, fun h => by cases h⟩
    · rintro c cs out hnone ⟨hfree, hsub, hhead⟩
      exact ⟨hfree.cons (tag_eq_none_of_sublist hsub hhead (Option.map_eq_none_iff.mp hnone)),
        hsub.cons_cons c, id⟩
    · rintro s new cs out hne hfind ⟨hfree, hsub, -⟩
      rcases tagRemoval_found hfind with ⟨rfl, body, -, -, rfl⟩
      exact ⟨hfree, hsub.trans (sublist_append_right _ _), fun h => absurd h (by simp)⟩
  exact hwalk.1

lemma withoutTags_of_tagFree (h : TagFree cs) : withoutTags cs = cs := by
  refine replaceFinds_of_none fun b rest hrest => ?_
  rw [tag_blind b none, h rest hrest, Option.map_none]

lemma splitAtFirst_eq_some {sep cs a b : List Char} (h : splitAtFirst sep cs = some (a, b)) :
  cs = a ++ (sep ++ b) := by
  induction cs generalizing a with
  | nil =>
    rcases Option.map_eq_some_iff.mp h with ⟨rest, hrest, hab⟩
    cases hab
    rw [nil_append]
    exact dropPrefix?_eq_some hrest
  | cons c cs ih =>
    rw [splitAtFirst] at h
    split at h
    case h_1 rest hrest =>
      cases h
      rw [nil_append]
      exact dropPrefix?_eq_some hrest
    case h_2 =>
      rcases Option.map_eq_some_iff.mp h with ⟨found, hfound, hab⟩
      cases hab
      rw [ih hfound, cons_append]

lemma openTag?_eq_some {start cs rest : List Char} (h : openTag? start cs = some (rest, n)) :
  ∃ attributes, '>' ∉ attributes ∧ cs = start ++ (attributes ++ '>' :: rest) ∧
    n = start.length + attributes.length + 1 := by
  rcases Option.bind_eq_some_iff.mp h with ⟨after, hafter, h⟩
  split at h
  case h_1 attributes d rest' hspan =>
    rcases span_ne_eq hspan with ⟨rfl, hattributes⟩
    cases h
    exact ⟨attributes, hattributes, dropPrefix?_eq_some hafter, rfl⟩
  case h_2 => cases h

lemma spanContent_eq_some {b : Option Char} {body : List Char}
  (h : spanContent b cs = some (body, n)) : ∃ attributes after, '>' ∉ attributes ∧
    cs = "<span".toList ++ (attributes ++ '>' :: (body ++ ("</span>".toList ++ after))) ∧
    n = ("<span".toList ++ (attributes ++ '>' :: (body ++ "</span>".toList))).length := by
  rcases Option.bind_eq_some_iff.mp h with ⟨opening, hopening, h⟩
  rcases Option.bind_eq_some_iff.mp h with ⟨split, hsplit, h⟩
  cases h
  rcases openTag?_eq_some hopening with ⟨attributes, hattributes, hcs, hn⟩
  refine ⟨attributes, split.2, hattributes, ?_, ?_⟩
  · rw [hcs, splitAtFirst_eq_some hsplit]
  · rw [hn]
    simp
    omega

lemma spanContent_fits : Fits spanContent := by
  intro cs body n h
  rcases spanContent_eq_some h with ⟨attributes, after, -, rfl, rfl⟩
  simp

lemma spanContent_found {s rest body : List Char}
  (h : spanContent none (s ++ rest) = some (body, s.length)) : ∃ attributes,
    s = "<span".toList ++ (attributes ++ '>' :: (body ++ "</span>".toList)) := by
  rcases spanContent_eq_some h with ⟨attributes, after, -, hcs, hlength⟩
  refine ⟨attributes, ?_⟩
  have hwhole : "<span".toList ++ (attributes ++ '>' :: (body ++ "</span>".toList)) <+: s ++ rest :=
    ⟨after, by rw [hcs]; simp⟩
  have hstart := prefix_of_prefix_length_le hwhole (prefix_append s rest) hlength.ge
  exact (hstart.eq_of_length hlength.symm).symm

lemma emptyLines_eq_some {b : Option Char} {new : List Char} (h : emptyLines b cs = some (new, n)) :
  3 ≤ n ∧ n ≤ cs.length ∧ new = ['\n', '\n'] ∧ cs.take n = List.replicate n '\n' := by
  rw [emptyLines] at h
  split at h
  case isTrue hrun =>
    cases h
    have hstart := takeWhile_prefix (l := cs) fun c => decide (c = '\n')
    refine ⟨hrun, hstart.length_le, rfl, ?_⟩
    rw [prefix_iff_eq_take.mp hstart |>.symm]
    exact eq_replicate_iff.mpr ⟨rfl, fun c hc => by simpa using mem_takeWhile_imp hc⟩
  case isFalse => cases h

lemma emptyLines_fits : Fits emptyLines := by
  intro cs new n h
  rcases emptyLines_eq_some h with ⟨hrun, hle, -, -⟩
  exact ⟨by omega, hle⟩

lemma emptyLines_found (h : emptyLines none (s ++ rest) = some (new, s.length)) :
  new = ['\n', '\n'] ∧ 3 ≤ s.length ∧ s = List.replicate s.length '\n' := by
  rcases emptyLines_eq_some h with ⟨hrun, -, hnew, htake⟩
  rw [take_left] at htake
  exact ⟨hnew, hrun, htake⟩

lemma emptyLines_shortens (h : emptyLines none (s ++ rest) = some (new, s.length)) :
  new.Sublist s := by
  rcases emptyLines_found h with ⟨rfl, hrun, hs⟩
  rw [hs]
  exact (replicate_sublist_replicate '\n').mpr (Nat.le_of_succ_le hrun)

variable {table : List (String × String)}

lemma spanContent_blind : Blind spanContent := fun _ _ _ => rfl

lemma unspanned_sublist (cs : List Char) : (replaceFinds spanContent cs).Sublist cs := by
  refine replaceFinds_sublist spanContent_blind spanContent_fits (fun s rest body h => ?_) cs
  rcases spanContent_found h with ⟨attributes, rfl⟩
  have hbody : body.Sublist ('>' :: (body ++ "</span>".toList)) := (sublist_append_left _ _).cons _
  exact hbody.trans ((sublist_append_right _ _).trans (sublist_append_right _ _))

lemma withoutTags_sublist (cs : List Char) : (withoutTags cs).Sublist cs := by
  refine replaceFinds_sublist tagRemoval_blind tagRemoval_fits (fun s rest new h => ?_) cs
  rw [(tagRemoval_found h).1]
  exact nil_sublist s

lemma joined_sublist (cs : List Char) : (replaceFinds emptyLines cs).Sublist cs :=
  replaceFinds_sublist emptyLines_blind emptyLines_fits (fun _ _ _ => emptyLines_shortens) cs

lemma trimChars_within (cs : List Char) : trimChars cs <:+: cs := by
  have hright : ∀ l : List Char, trimRightChars l <+: l := fun l =>
    reverse_suffix.mp (by
      rw [trimRightChars, dropEndWhile, reverse_reverse]
      exact dropWhile_suffix _)
  exact (hright _).isInfix.trans (dropWhile_suffix _).isInfix

lemma tagFree_of_count (h : (withoutTags (replaceFinds spanContent cs)).count '<' = cs.count '<') :
  TagFree cs ∧ withoutTags (replaceFinds spanContent cs) = cs := by
  have hspans := (unspanned_sublist cs).count_le '<'
  have htags := (withoutTags_sublist (replaceFinds spanContent cs)).count_le '<'
  have hspan : replaceFinds spanContent cs = cs := by
    refine spanContent_blind.replaceFinds_of_none ((count_replaceFinds spanContent_blind
      spanContent_fits (x := '<') (fun s rest body hfind => ?_) cs).2 (by omega))
    rcases spanContent_found hfind with ⟨attributes, rfl⟩
    simp only [count_append, count_cons]
    have hopening : "<span".toList.count '<' = 1 := by decide
    omega
  rw [hspan] at h ⊢
  have hfree : TagFree cs := by
    have hnone := (count_replaceFinds tagRemoval_blind tagRemoval_fits (x := '<') ?_ cs).2 h
    · exact fun rest hrest => Option.map_eq_none_iff.mp (hnone rest hrest)
    · intro s rest new hfind
      rcases tagRemoval_found hfind with ⟨rfl, body, -, -, rfl⟩
      simp
  exact ⟨hfree, withoutTags_of_tagFree hfree⟩

lemma joined_of_count (h : (replaceFinds emptyLines cs).count '\n' = cs.count '\n') :
  ∀ rest, rest <:+ cs → emptyLines none rest = none := by
  refine (count_replaceFinds emptyLines_blind emptyLines_fits (fun s rest new hfind => ?_) cs).2 h
  rcases emptyLines_found hfind with ⟨rfl, hrun, hs⟩
  rw [hs, count_replicate_self]
  exact hrun

def Loses (table : List (String × String)) : Prop := ∀ e ∈ table, e.2.toList.count ';' < e.1.toList.count ';'

instance (table : List (String × String)) : Decidable (Loses table) :=
  inferInstanceAs (Decidable (∀ e ∈ table, _))

lemma Loses.ne_nil {e : String × String} (h : Loses table) (he : e ∈ table) : e.1.toList ≠ [] := fun hnil => by
  have hless := h e he
  rw [hnil] at hless
  cases hless

lemma count_decode (h : Loses table) (cs : List Char) :
  (decode table cs).count ';' ≤ cs.count ';' ∧ ((decode table cs).count ';' = cs.count ';' →
    decode table cs = cs ∧ ∀ e ∈ table, ¬ e.1.toList <:+: cs) := by
  induction table generalizing cs with
  | nil => exact ⟨le_rfl, fun _ => ⟨rfl, forall_mem_nil _⟩⟩
  | cons e table ih =>
    have hne := h.ne_nil mem_cons_self
    have hstep := count_replaceFinds (fixed_blind e.1.toList e.2.toList) (fixed_fits hne) (x := ';')
      (fun s rest new hfind => by
        rcases fixed_found hfind with ⟨rfl, rfl⟩
        exact h e mem_cons_self) cs
    rw [← replaceChars_eq_replaceFinds hne] at hstep
    have hrest := ih (fun e' he' => h e' (mem_cons_of_mem e he'))
      (replaceChars e.1.toList e.2.toList cs)
    refine ⟨hrest.1.trans hstep.1, fun heq => ?_⟩
    have heq' : (decode table (replaceChars e.1.toList e.2.toList cs)).count ';' = cs.count ';' := heq
    have hnone := hstep.2 (by omega)
    have hsame : replaceChars e.1.toList e.2.toList cs = cs := by
      rw [replaceChars_eq_replaceFinds hne]
      exact (fixed_blind _ _).replaceFinds_of_none hnone
    rw [hsame] at hrest heq'
    rcases hrest.2 heq' with ⟨hdecode, hentities⟩
    refine ⟨by rw [decode, foldl_cons, hsame]; exact hdecode, forall_mem_cons.mpr ⟨?_, hentities⟩⟩
    rintro ⟨front, after, hcs⟩
    have hfound := hnone (e.1.toList ++ after) ⟨front, by rw [← hcs, append_assoc]⟩
    rw [fixed_append] at hfound
    cases hfound

lemma decode_eq_self (h : Loses table) (hcs : ∀ e ∈ table, ¬ e.1.toList <:+: cs) :
  decode table cs = cs := by
  induction table with
  | nil => rfl
  | cons e table ih =>
    have hne := h.ne_nil mem_cons_self
    have hsame : replaceChars e.1.toList e.2.toList cs = cs :=
      replaceChars_eq_self hne cs fun rest hrest hp => hcs e mem_cons_self (hp.isInfix.trans hrest.isInfix)
    rw [decode, foldl_cons, hsame]
    exact ih (fun e' he' => h e' (mem_cons_of_mem e he'))
      fun e' he' => hcs e' (mem_cons_of_mem e he')

variable {start : List Char}

lemma tag_ne_none {x : Char} {w : List Char} (hx : x ≠ '>') (hw : '>' ∈ w) (b : Option Char) :
  tag b ('<' :: x :: w) ≠ none := by
  rcases eq_append_cons_of_mem hw with ⟨front, back, rfl, hfront⟩
  have hbody : '>' ∉ x :: front := fun hmem => (mem_cons.mp hmem).elim (fun h => hx h.symm) hfront
  have htag := tag_append (cons_ne_nil x front) hbody b back
  rw [cons_append] at htag
  rw [htag]
  exact nofun

lemma tag_ne_none_of_prefix (h : tag none start ≠ none) (hp : start <+: cs) :
  tag none cs ≠ none := by
  rcases hp with ⟨rest, rfl⟩
  cases htag : tag none start with
  | none => cases h htag
  | some found =>
    rcases tag_eq_some htag with ⟨body, after, hne, hbody, -, -, rfl⟩
    have happend := tag_append hne hbody none (after ++ rest)
    rw [cons_append, append_assoc, cons_append, happend]
    exact nofun

lemma openTag?_of_tagFree {x : Char} (hx : x ≠ '>') (h : tag none cs = none) :
  openTag? ('<' :: x :: start) cs = none := by
  cases hopen : openTag? ('<' :: x :: start) cs with
  | none => rfl
  | some found =>
    rcases openTag?_eq_some hopen with ⟨attributes, -, rfl, -⟩
    cases (tag_ne_none hx (by simp) none) h

lemma unspanned_of_tagFree (h : TagFree cs) : withoutTags (replaceFinds spanContent cs) = cs := by
  have hspan : replaceFinds spanContent cs = cs := by
    refine replaceFinds_of_none fun b rest hrest => ?_
    have hopening : openTag? "<span".toList rest = none :=
      openTag?_of_tagFree (x := 's') (by decide) (h rest hrest)
    rw [spanContent, hopening]
    rfl
  rw [hspan, withoutTags_of_tagFree h]

lemma linkAt?_closed {before : Nat} {found : List Char × Nat} (h : linkAt? cs before = some found) :
  '>' ∈ cs := by
  rcases Option.bind_eq_some_iff.mp h with ⟨rest, hrest, h⟩
  have hsuffix : rest <:+ cs := by
    have hdrop := dropPrefix?_eq_some hrest
    exact List.IsSuffix.trans ⟨_, hdrop.symm⟩ (drop_suffix before cs)
  split at h
  case h_1 target d rest' htarget =>
    split at h
    case h_1 attributes d' label hattributes =>
      refine hsuffix.subset ?_
      rw [(span_ne_eq htarget).1, (span_ne_eq hattributes).1]
      simp
    case h_2 => cases h
  case h_2 => cases h

lemma linkElement_of_tagFree (b : Option Char) (h : tag none cs = none) : linkElement b cs = none := by
  cases hlink : linkElement b cs with
  | none => rfl
  | some found =>
    rcases Option.bind_eq_some_iff.mp hlink with ⟨rest, hrest, hlink⟩
    rcases exists_of_findSome?_eq_some hlink with ⟨k, -, hk⟩
    have hclosed := linkAt?_closed hk
    obtain rfl : cs = '<' :: 'a' :: rest := dropPrefix?_eq_some hrest
    have hrest' : '>' ∈ rest := by simpa using hclosed
    cases (tag_ne_none (by decide) hrest' none) h

lemma headingElement_of_tagFree (b : Option Char) (h : tag none cs = none) :
  headingElement b cs = none := by
  unfold headingElement
  split
  case h_1 d rest => cases (tag_ne_none (x := 'h') (by decide) (by simp) none) h
  case h_2 => rfl

lemma elements_need_tag : ∀ r ∈ elementRecognisers.tail, ∀ b cs, tag none cs = none → r b cs = none := by
  intro r hr b cs hcs
  have hneeds : ∀ start : List Char, tag none start ≠ none → ¬ start <+: cs := fun start hstart hp =>
    tag_ne_none_of_prefix hstart hp hcs
  simp only [elementRecognisers, tail_cons, mem_cons, not_mem_nil, or_false] at hr
  rcases hr with rfl | rfl | rfl | rfl | rfl | rfl | rfl | rfl | rfl | rfl | rfl
  · exact enclosedLine_needs b cs (hneeds _ (by decide))
  · exact enclosedLine_needs b cs (hneeds _ (by decide))
  · exact enclosedLine_needs b cs (hneeds _ (by decide))
  · exact enclosedLine_needs b cs (hneeds _ (by decide))
  · exact enclosed_needs b cs (hneeds _ (by decide))
  · exact enclosed_needs b cs (hneeds _ (by decide))
  · exact enclosed_needs b cs (hneeds _ (by decide))
  · exact enclosed_needs b cs (hneeds _ (by decide))
  · have hopening : openTag? "<table".toList cs = none :=
      openTag?_of_tagFree (x := 't') (by decide) hcs
    rw [tableElement, hopening]
    rfl
  · exact linkElement_of_tagFree b hcs
  · exact headingElement_of_tagFree b hcs

lemma elements_tagFree (h : TagFree cs) :
  elementRecognisers.tail.foldl (fun cs r => replaceFinds r cs) cs = cs :=
  foldl_replaceFinds fun r hr => replaceFinds_of_none fun b rest hrest =>
    elements_need_tag r hr b rest (h rest hrest)

variable {c : Char}

lemma TagFree.joined (h : TagFree cs) : TagFree (replaceFinds emptyLines cs) := by
  have hwalk : (TagFree cs → TagFree (replaceFinds emptyLines cs)) ∧ (replaceFinds emptyLines cs).Sublist cs ∧
      (cs.head? = some '>' → (replaceFinds emptyLines cs).head? = some '>') := by
    refine replaceFinds_induction emptyLines_blind emptyLines_fits (motive := fun cs out =>
      (TagFree cs → TagFree out) ∧ out.Sublist cs ∧
        (cs.head? = some '>' → out.head? = some '>')) ⟨id, .slnil, id⟩ ?_ ?_ cs
    · rintro c cs out - ⟨hfree, hsub, hhead⟩
      refine ⟨fun h => ?_, hsub.cons_cons c, id⟩
      exact (hfree (h.of_part (suffix_cons c cs).isInfix)).cons
        (tag_eq_none_of_sublist hsub hhead (h _ (suffix_refl _)))
    · rintro s new cs out hne hfind ⟨hfree, hsub, -⟩
      rcases emptyLines_found hfind with ⟨rfl, -, hs⟩
      have hfeed : ∀ {l : List Char}, TagFree l → TagFree ('\n' :: l) := fun hl =>
        hl.cons (tag_eq_none (by decide) none _)
      refine ⟨fun h => hfeed (hfeed (hfree (h.of_part (suffix_append s cs).isInfix))),
        List.Sublist.append (emptyLines_shortens hfind) hsub, ?_⟩
      cases s with
      | nil => cases hne rfl
      | cons d s =>
        have hd : d = '\n' := by simpa [replicate_succ] using congrArg List.head? hs
        subst hd
        intro h
        cases h
  exact hwalk.1 h

def feeds (cs : List Char) : Nat := (cs.takeWhile (· = '\n')).length

lemma feeds_cons (c : Char) (cs : List Char) :
  feeds (c :: cs) = if c = '\n' then feeds cs + 1 else 0 := by
  by_cases hc : c = '\n' <;> simp [feeds, hc]

lemma feeds_replicate (n : Nat) (cs : List Char) :
  feeds (List.replicate n '\n' ++ cs) = n + feeds cs := by
  induction n with
  | zero => simp
  | succ n ih =>
    rw [replicate_succ, cons_append, feeds_cons, if_pos rfl, ih]
    omega

lemma emptyLines_eq (b : Option Char) (cs : List Char) :
  emptyLines b cs = if 3 ≤ feeds cs then some (['\n', '\n'], feeds cs) else none := rfl

lemma feeds_within (h : ['\n', '\n', '\n'] <:+: c :: cs) :
  3 ≤ feeds (c :: cs) ∨ ['\n', '\n', '\n'] <:+: cs := by
  rcases infix_cons_iff.mp h with ⟨rest, hrest⟩ | hrest
  · refine .inl ?_
    rw [← hrest]
    exact (feeds_replicate 3 rest).symm ▸ Nat.le_add_right 3 _
  · exact .inr hrest

lemma joined_feeds (cs : List Char) : ¬ ['\n', '\n', '\n'] <:+: replaceFinds emptyLines cs := by
  have hwalk : ¬ ['\n', '\n', '\n'] <:+: replaceFinds emptyLines cs ∧
      feeds (replaceFinds emptyLines cs) ≤ feeds cs := by
    refine replaceFinds_induction emptyLines_blind emptyLines_fits (motive := fun cs out =>
      ¬ ['\n', '\n', '\n'] <:+: out ∧ feeds out ≤ feeds cs) ⟨by simp, le_rfl⟩ ?_ ?_ cs
    · rintro c cs out hnone ⟨hout, hle⟩
      have hfew : ¬ 3 ≤ feeds (c :: cs) := fun h => by
        rw [emptyLines_eq, if_pos h] at hnone
        cases hnone
      have hstep : feeds (c :: out) ≤ feeds (c :: cs) := by
        rw [feeds_cons, feeds_cons]
        split <;> omega
      exact ⟨fun h => (feeds_within h).elim (fun hfront => hfew (hfront.trans hstep)) hout, hstep⟩
    · rintro s new cs out - hfind ⟨hout, hle⟩
      rcases emptyLines_found hfind with ⟨rfl, hrun, hs⟩
      have hfeeds : feeds (s ++ cs) = s.length + feeds cs := by rw [hs, feeds_replicate, length_replicate]
      -- A find takes the whole run, so no line feed comes after it.
      have hafter : feeds out = 0 := by
        rw [emptyLines_eq] at hfind
        split at hfind
        · injection hfind with hfind
          have hlength := (Prod.mk.inj hfind).2
          omega
        · cases hfind
      have hone : feeds ('\n' :: out) = 1 := by rw [feeds_cons, if_pos rfl, hafter]
      have htwo : feeds ('\n' :: '\n' :: out) = 2 := by rw [feeds_cons, if_pos rfl, hone]
      change ¬ ['\n', '\n', '\n'] <:+: '\n' :: '\n' :: out ∧ feeds ('\n' :: '\n' :: out) ≤ _
      refine ⟨fun h => ?_, by omega⟩
      rcases feeds_within h with hfront | h
      · omega
      · rcases feeds_within h with hfront | h
        · omega
        · exact hout h
  exact hwalk.1

/-- What comes out of the conversion to Markdown has no tags, no three line feeds in a row and no white
space at its ends. -/
theorem toMarkdown_tidy (s : String) :
  (¬ ∃ body, body ≠ [] ∧ '>' ∉ body ∧ '<' :: (body ++ ['>']) <:+: (toMarkdown s).toList) ∧
    ¬ ['\n', '\n', '\n'] <:+: (toMarkdown s).toList ∧ Tight (toMarkdown s).toList := by
  rw [toMarkdown, String.toList_ofList]
  generalize elementRecognisers.foldl (fun cs r => replaceFinds r cs) s.toList = cs
  have hpart := trimChars_within (replaceFinds emptyLines (stripMarkup cs))
  have hfree : TagFree (replaceFinds emptyLines (stripMarkup cs)) := (withoutTags_tagFree _).joined
  refine ⟨?_, fun h => joined_feeds _ (h.trans hpart), trimChars_tight _⟩
  rintro ⟨body, hne, hbody, htag⟩
  exact tagFree_iff.mp (hfree.of_part hpart) body hne hbody htag

end KeywordDocs.Page
