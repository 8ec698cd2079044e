import KeywordDocs.Proofs.Markup.Signs

/-!
# Targets of Links

When a link keeps its target. Links are sought last, and addresses have the marks of emphasis too: a target is
rendered like any other text before it becomes the value of an attribute (`inline_link`).
-/

namespace KeywordDocs.Markup

open Text
open List hiding count

variable {x : Char}

variable {e : Emphasis} {cs : List Char}

lemma mark_eq_cons (he : e ∈ emphases) : ∃ d part, e.mark.toList = d :: part ∧ isBare d := by
  have hmem : e ∈ lineMarks := mem_append_left _ he
  cases hmark : e.mark.toList with
  | nil => cases (mark_ne_nil ⟨e, hmem⟩) hmark
  | cons d part => exact ⟨d, part, rfl, mark_bare ⟨e, hmem⟩ d (by rw [hmark]; exact mem_cons_self)⟩

lemma between_blind (e : Emphasis) : Blind (between e) := enclosedLine_blind

lemma between_mark (e : Emphasis) (rest : List Char) : between e none (e.mark.toList ++ rest) =
  (upTo e.mark.toList rest).map fun body =>
    (element e.element body, e.mark.length + body.length + e.mark.length) := by
  rw [between, enclosedLine, dropPrefix?_append, Option.bind_eq_bind, Option.bind_some]
  cases upTo e.mark.toList rest with
  | none => rfl
  | some body => rfl

lemma between_eq_some {new : List Char} {n : Nat} (h : between e none cs = some (new, n)) :
  ∃ body rest, cs = e.mark.toList ++ (body ++ e.mark.toList) ++ rest ∧ new = element e.element body ∧
    n = (e.mark.toList ++ (body ++ e.mark.toList)).length := by
  rcases Option.bind_eq_some_iff.mp h with ⟨after, hafter, h⟩
  rcases Option.bind_eq_some_iff.mp h with ⟨body, hbody, h⟩
  rcases upTo_eq_some hbody with ⟨rest, hrest⟩
  cases h
  refine ⟨body, rest, ?_, rfl, ?_⟩
  · simp only [dropPrefix?_eq_some hafter, hrest, append_assoc]
  · rw [length_append, length_append, String.length_toList, Nat.add_assoc]

lemma between_fits (he : e ∈ emphases) : Fits (between e) := by
  intro cs new n h
  rcases mark_eq_cons he with ⟨d, part, hmark, -⟩
  rcases between_eq_some h with ⟨body, rest, rfl, -, rfl⟩
  rw [hmark]
  simp

lemma between_found {s new : List Char} (h : between e none (s ++ cs) = some (new, s.length)) :
  ∃ body, s = e.mark.toList ++ (body ++ e.mark.toList) ∧ new = element e.element body := by
  rcases between_eq_some h with ⟨body, rest, hsplit, rfl, hlength⟩
  exact ⟨body, (append_inj hsplit hlength).1, rfl⟩

lemma count_element (he : e ∈ emphases) (hx : isBare x) (body : List Char) :
  (element e.element body).count x = body.count x := by
  have hall : ∀ e ∈ emphases, ("<" ++ e.element ++ ">").toList.all (fun c => !isBare c) ∧
      ("</" ++ e.element ++ ">").toList.all (fun c => !isBare c) := by decide
  have hnone : ∀ cs : List Char, cs.all (fun c => !isBare c) → cs.count x = 0 := fun cs hcs =>
    count_eq_zero.mpr (not_mem_of_unbare hx hcs)
  rw [element, count_append, count_append, hnone _ (hall e he).1, hnone _ (hall e he).2]
  omega

lemma count_between_le (he : e ∈ emphases) (hx : isBare x) (cs : List Char) :
  (replaceFinds (between e) cs).count x ≤ cs.count x := by
  refine count_replaceFinds_le (between_blind e) (between_fits he) (fun s rest new h => ?_) cs
  rcases between_found h with ⟨body, rfl, rfl⟩
  rw [count_element he hx]
  simp only [count_append]
  omega

lemma between_none_of_count (he : e ∈ emphases) {d : Char} {part : List Char}
  (hmark : e.mark.toList = d :: part) (hd : isBare d)
  (h : (replaceFinds (between e) cs).count d = cs.count d) :
  ∀ rest, rest <:+ cs → between e none rest = none := by
  refine (count_replaceFinds (between_blind e) (between_fits he) (fun s rest new h => ?_) cs).2 h
  rcases between_found h with ⟨body, rfl, rfl⟩
  rw [count_element he hd, hmark]
  simp [count_append]
  omega

lemma upTo_ne_none {mark : List Char} (hline : '\n' ∉ cs) (h : mark <:+: cs) (hne : mark ≠ []) :
  upTo mark cs ≠ none := by
  induction cs with
  | nil => cases hne (infix_nil.mp h)
  | cons c cs ih =>
    have hc : c ≠ '\n' := fun hc => hline (hc ▸ mem_cons_self)
    rw [upTo, if_neg hc]
    split
    · exact Option.some_ne_none _
    case isFalse hp =>
      have hrest := (infix_cons_iff.mp h).resolve_left fun hstart =>
        hp (List.isPrefixOf_iff_prefix.mpr hstart)
      intro hnone
      exact ih (fun hmem => hline (mem_cons_of_mem c hmem)) hrest (Option.map_eq_none_iff.mp hnone)

lemma between_eq_none_iff (he : e ∈ emphases) (hline : '\n' ∉ cs) :
  (∀ rest, rest <:+ cs → between e none rest = none) ↔ countFrom e.mark.toList 0 cs ≤ 1 := by
  rcases mark_eq_cons he with ⟨d, part, hmark, -⟩
  have htwice : 2 ≤ countFrom e.mark.toList 0 cs ↔
      ∃ body, e.mark.toList ++ (body ++ e.mark.toList) <:+: cs := by
    rw [hmark]
    exact two_le_countFrom_iff
  constructor
  · intro hnone
    refine Nat.le_of_not_lt fun hless => ?_
    rcases htwice.mp hless with ⟨body, front, after, hsplit⟩
    have hsuffix : e.mark.toList ++ (body ++ (e.mark.toList ++ after)) <:+ cs := ⟨front, by simp [← hsplit]⟩
    have hfound := hnone _ hsuffix
    rw [between_mark, Option.map_eq_none_iff] at hfound
    refine upTo_ne_none (fun hmem => hline ?_) ⟨body, after, append_assoc _ _ _⟩ (by simp [hmark]) hfound
    exact hsuffix.subset (mem_append_right _ hmem)
  · intro hle rest hrest
    cases hfound : between e none rest with
    | none => rfl
    | some found =>
      rcases between_eq_some hfound with ⟨body, after, rfl, -⟩
      have htwo := htwice.mpr ⟨body, (prefix_append _ after).isInfix.trans hrest.isInfix⟩
      omega

lemma between_eq_self_iff (he : e ∈ emphases) (hline : '\n' ∉ cs) :
  replaceFinds (between e) cs = cs ↔ countFrom e.mark.toList 0 cs ≤ 1 := by
  rw [← between_eq_none_iff he hline]
  constructor
  · intro h
    rcases mark_eq_cons he with ⟨d, part, hmark, hd⟩
    exact between_none_of_count he hmark hd (by rw [h])
  · exact (between_blind e).replaceFinds_of_none

variable {es : List Emphasis} {front : List Char} {c : Char}

def stages (es : List Emphasis) (cs : List Char) : List Char :=
  es.foldl (fun cs e => replaceFinds (between e) cs) cs

def emphasised (cs : List Char) : List Char := stages emphases cs

lemma count_stages_le (hes : ∀ e ∈ es, e ∈ emphases) (hx : isBare x)
  (cs : List Char) : (stages es cs).count x ≤ cs.count x := by
  induction es generalizing cs with
  | nil => exact Nat.le_refl _
  | cons e es ih =>
    have hrest := ih (fun e' he' => hes e' (mem_cons_of_mem e he')) (replaceFinds (between e) cs)
    exact hrest.trans (count_between_le (hes e mem_cons_self) hx cs)

lemma stages_eq_self_iff (hes : ∀ e ∈ es, e ∈ emphases) :
  stages es cs = cs ↔ ∀ e ∈ es, replaceFinds (between e) cs = cs := by
  induction es with
  | nil => exact ⟨fun _ e he => absurd he not_mem_nil, fun _ => rfl⟩
  | cons e es ih =>
    have he := hes e mem_cons_self
    have hrest : ∀ e' ∈ es, e' ∈ emphases := fun e' he' => hes e' (mem_cons_of_mem e he')
    have hstep : stages (e :: es) cs = stages es (replaceFinds (between e) cs) := rfl
    rw [hstep, forall_mem_cons]
    constructor
    · intro h
      rcases mark_eq_cons he with ⟨d, part, hmark, hd⟩
      have hlast := count_stages_le hrest hd (replaceFinds (between e) cs)
      have hfirst := count_between_le he hd cs
      rw [h] at hlast
      have hself : replaceFinds (between e) cs = cs := (between_blind e).replaceFinds_of_none
        (between_none_of_count he hmark hd (Nat.le_antisymm hfirst hlast))
      rw [hself] at h
      exact ⟨hself, (ih hrest).mp h⟩
    · rintro ⟨hself, hall⟩
      rw [hself]
      exact (ih hrest).mpr hall

lemma upTo_concat {mark : List Char} (hc : c ∉ mark) (hne : mark ≠ []) (cs : List Char) :
  upTo mark (cs ++ [c]) = upTo mark cs := by
  induction cs with
  | nil =>
    have hp : mark.isPrefixOf [c] = false := by
      cases mark with
      | nil => cases hne rfl
      | cons d mark => exact isPrefixOf_append_cons hc [] []
    simp [upTo, hp]
  | cons d cs ih =>
    have hp : mark.isPrefixOf (d :: (cs ++ [c])) = mark.isPrefixOf (d :: cs) :=
      isPrefixOf_append_cons hc (d :: cs) []
    rw [cons_append, upTo, upTo, ih, hp]

lemma between_concat (he : e ∈ emphases) (hc : c ∉ e.mark.toList) (cs : List Char) :
  between e none (cs ++ [c]) = between e none cs := by
  rcases mark_eq_cons he with ⟨d, part, hmark, -⟩
  by_cases hp : e.mark.toList <+: cs
  · rcases hp with ⟨rest, rfl⟩
    rw [append_assoc, between_mark, between_mark, upTo_concat hc (by simp [hmark])]
  · have hp' : ¬ e.mark.toList <+: cs ++ [c] := fun h => hp (by
      rwa [← isPrefixOf_iff_prefix, isPrefixOf_append_cons hc, isPrefixOf_iff_prefix] at h)
    rw [between, enclosedLine_needs none _ hp, enclosedLine_needs none _ hp']

lemma between_inside (he : e ∈ emphases) (hfront : ∀ d ∈ front, d ∉ e.mark.toList)
  (hc : c ∉ e.mark.toList) (cs : List Char) :
  replaceFinds (between e) (front ++ (cs ++ [c])) = front ++ (replaceFinds (between e) cs ++ [c]) := by
  rcases mark_eq_cons he with ⟨d, part, hmark, -⟩
  have hneeds : Needs (between e) (d :: part) := by
    rw [← hmark]
    exact enclosedLine_needs
  have hd : d ∈ e.mark.toList := by
    rw [hmark]
    exact mem_cons_self
  have hlast : replaceFinds (between e) [c] = [c] :=
    replaceFinds_of_not_mem hneeds fun h => hc (mem_singleton.mp h ▸ hd)
  have hturns : Turns (between e) front front :=
    Turns.of_shuns (between_blind e) hneeds (Shuns.of_not_mem fun h => hfront d h hd)
  rw [hturns, replaceFinds_append (between_blind e) (between_fits he) fun s _ _ => between_concat he hc s,
    hlast]

lemma stages_inside (hes : ∀ e ∈ es, e ∈ emphases)
  (hfront : ∀ e ∈ es, ∀ d ∈ front, d ∉ e.mark.toList) (hc : ∀ e ∈ es, c ∉ e.mark.toList)
  (cs : List Char) : stages es (front ++ (cs ++ [c])) = front ++ (stages es cs ++ [c]) := by
  induction es generalizing cs with
  | nil => rfl
  | cons e es ih =>
    have hstep : ∀ cs, stages (e :: es) cs = stages es (replaceFinds (between e) cs) := fun _ => rfl
    rw [hstep, hstep, between_inside (hes e mem_cons_self) (hfront e mem_cons_self) (hc e mem_cons_self)]
    exact ih (fun e' he' => hes e' (mem_cons_of_mem e he'))
      (fun e' he' => hfront e' (mem_cons_of_mem e he'))
      (fun e' he' => hc e' (mem_cons_of_mem e he')) _

lemma between_eq_nil_iff (he : e ∈ emphases) : replaceFinds (between e) cs = [] ↔ cs = [] := by
  refine ⟨replaceFinds_induction (between_blind e) (between_fits he)
    (motive := fun cs out => out = [] → cs = []) (fun _ => rfl) ?_ ?_ cs, fun h => by rw [h]; rfl⟩
  · intro c cs out _ _ h
    cases h
  · intro s new cs out _ hfound _ h
    rcases between_found hfound with ⟨body, -, rfl⟩
    simp [element] at h

lemma stages_eq_nil_iff (hes : ∀ e ∈ es, e ∈ emphases) : stages es cs = [] ↔ cs = [] := by
  induction es generalizing cs with
  | nil => exact Iff.rfl
  | cons e es ih =>
    have hstep : stages (e :: es) cs = stages es (replaceFinds (between e) cs) := rfl
    rw [hstep, ih fun e' he' => hes e' (mem_cons_of_mem e he')]
    exact between_eq_nil_iff (hes e mem_cons_self)

variable {label target : List Char}

/-- Letters, digits and spaces. -/
def isLabelChar (c : Char) : Bool := c.isAlphanum || c == ' '

def isTargetChar (c : Char) : Bool := c.isAlphanum || ":/.?=%#~_-+@".toList.contains c

def linkSource (label target : List Char) : List Char := '[' :: (label ++ ']' :: '(' :: (target ++ [')']))

def anchor (label target : List Char) : List Char :=
  "<a href=\"".toList ++ target ++ "\">".toList ++ label ++ "</a>".toList

lemma filledUpTo_append {stop : Char} {cs : List Char} (hne : cs ≠ []) (hstop : stop ∉ cs)
  (rest : List Char) : filledUpTo stop (cs ++ stop :: rest) = some (cs, rest) := by
  rw [filledUpTo, span_ne_append_cons hstop]
  cases cs with
  | nil => cases hne rfl
  | cons c cs => rfl

lemma filledUpTo_stop (stop : Char) (rest : List Char) : filledUpTo stop (stop :: rest) = none := by
  have hspan : (stop :: rest).span (· ≠ stop) = ([], stop :: rest) := span_ne_append_cons not_mem_nil rest
  rw [filledUpTo, hspan]

lemma linkParts_linkSource (hlabel : label ≠ []) (htarget : target ≠ []) (hsquare : ']' ∉ label)
  (hround : ')' ∉ target) : linkParts (linkSource label target) = some (label, target) := by
  simp only [linkSource, linkParts, filledUpTo_append hlabel hsquare, filledUpTo_append htarget hround,
    Option.bind_eq_bind, Option.bind_some, Option.pure_def]

lemma linkParts_linkSource_eq_none (h : label = [] ∨ target = []) (hsquare : ']' ∉ label) :
  linkParts (linkSource label target) = none := by
  by_cases hlabel : label = []
  · subst hlabel
    simp only [linkSource, linkParts, nil_append, filledUpTo_stop, Option.bind_eq_bind, Option.bind_none]
  · obtain rfl := h.resolve_left hlabel
    simp only [linkSource, linkParts, nil_append, filledUpTo_append hlabel hsquare, filledUpTo_stop,
      Option.bind_eq_bind, Option.bind_some, Option.bind_none]

lemma replaceFinds_link (hlabel : '[' ∉ label) (hsquare : ']' ∉ label) (htarget : '[' ∉ target)
  (hround : ')' ∉ target) : replaceFinds link (linkSource label target) =
    if label = [] ∨ target = [] then linkSource label target else anchor label target := by
  have hblind : Blind link := fun _ _ _ => rfl
  split
  case isTrue h =>
    have hnone : link none (linkSource label target) = none := by
      rw [link, linkParts_linkSource_eq_none h hsquare]
      rfl
    have hrest : '[' ∉ label ++ ']' :: '(' :: (target ++ [')']) := by simp [hlabel, htarget]
    rw [linkSource] at hnone ⊢
    rw [replaceFinds_cons hblind hnone, replaceFinds_of_not_mem link_needs hrest]
  case isFalse h =>
    rw [not_or] at h
    have hfound : link none (linkSource label target ++ []) =
        some (anchor label target, (linkSource label target).length) := by
      have hlength : (linkSource label target).length = label.length + target.length + 4 := by
        simp [linkSource]
        omega
      rw [append_nil, link, linkParts_linkSource h.1 h.2 hsquare hround, hlength]
      rfl
    have hall := replaceFinds_found hblind (cons_ne_nil _ _) hfound
    rwa [append_nil, replaceFinds_nil, append_nil] at hall

lemma not_mem_emphasised {cs : List Char} (hx : isBare x) (h : x ∉ cs) : x ∉ emphasised cs := by
  have hle := count_stages_le (fun e he => he) hx cs
  rw [count_eq_zero.mpr h] at hle
  exact count_eq_zero.mp (Nat.le_zero.mp hle)

lemma emphasised_linkSource (hlabel : ∀ c ∈ label, isLabelChar c) (target : List Char) :
  emphasised (linkSource label target) = linkSource label (emphasised target) := by
  have hsource : ∀ t, linkSource label t = '[' :: (label ++ [']', '(']) ++ (t ++ [')']) := fun t => by
    simp [linkSource]
  have hmarks : ∀ e ∈ emphases, ∀ d ∈ e.mark.toList,
      isLabelChar d = false ∧ d ≠ '[' ∧ d ≠ ']' ∧ d ≠ '(' ∧ d ≠ ')' := by decide
  rw [hsource, hsource]
  refine stages_inside (fun e he => he) (fun e he d hd hmem => ?_) (fun e he hmem => ?_) target
  · rcases hmarks e he d hmem with ⟨hletter, hopening, hclosing, hround, -⟩
    have hnot : d ∉ label := fun hin => by
      rw [hlabel d hin] at hletter
      cases hletter
    simp [hnot, hopening, hclosing, hround] at hd
  · exact (hmarks e he ')' hmem).2.2.2.2 rfl

lemma inline_link {label url : String} (hlabel : ∀ c ∈ label.toList, isLabelChar c)
  (hurl : ∀ c ∈ url.toList, isTargetChar c) :
  (inline ("[" ++ label ++ "](" ++ url ++ ")")).toList =
    if label = "" ∨ url = "" then linkSource label.toList (emphasised url.toList)
    else anchor label.toList (emphasised url.toList) := by
  have hsource : ("[" ++ label ++ "](" ++ url ++ ")").toList = linkSource label.toList url.toList := by
    simp [linkSource]
  have hlabels : ∀ c, isLabelChar c = false → c ∉ label.toList := fun c hc hmem => by
    rw [hlabel c hmem] at hc
    cases hc
  have hurls : ∀ c, isTargetChar c = false → c ∉ url.toList := fun c hc hmem => by
    rw [hurl c hmem] at hc
    cases hc
  have hescape : (escape ("[" ++ label ++ "](" ++ url ++ ")")).toList =
      linkSource label.toList url.toList := by
    have hkeys : ∀ e ∈ entities, isLabelChar e.1 = false ∧ isTargetChar e.1 = false ∧ e.1 ≠ '[' ∧
        e.1 ≠ ']' ∧ e.1 ≠ '(' ∧ e.1 ≠ ')' := by decide
    rw [escape, String.toList_ofList, hsource]
    refine replaceAll_eq_self fun e he => ?_
    rcases hkeys e he with ⟨hlabel, htarget, hopening, hclosing, hround, hend⟩
    simp [linkSource, hlabels _ hlabel, hurls _ htarget, hopening, hclosing, hround, hend]
  have hgone : ∀ c, isBare c → isTargetChar c = false → c ∉ emphasised url.toList :=
    fun c hc hnot => not_mem_emphasised hc (hurls c hnot)
  have htick : '`' ∉ linkSource label.toList (emphasised url.toList) := by
    simp [linkSource, hlabels '`' rfl, hgone '`' rfl rfl]
  have hempty : emphasised url.toList = [] ↔ url = "" := by
    rw [emphasised, stages_eq_nil_iff fun e he => he, String.toList_eq_nil_iff]
  have hstages : emphases.foldl (fun cs e => replaceFinds (between e) cs)
      (linkSource label.toList url.toList) = linkSource label.toList (emphasised url.toList) :=
    emphasised_linkSource hlabel url.toList
  rw [inline, String.toList_ofList, hescape, inlineRecognisers, foldl_append, foldl_map,
    hstages, foldl_cons, foldl_cons, foldl_nil, replaceFinds_of_not_mem codeSpan_needs htick,
    replaceFinds_link (hlabels '[' rfl) (hlabels ']' rfl) (hgone '[' rfl rfl) (hgone ')' rfl rfl)]
  simp only [hempty, String.toList_eq_nil_iff]

lemma emphasised_eq_self_iff {url : String} (hurl : ∀ c ∈ url.toList, isTargetChar c) :
  emphasised url.toList = url.toList ↔
    count "_" url ≤ 1 ∧ count "++" url ≤ 1 ∧ count "~~" url ≤ 1 := by
  have hline : '\n' ∉ url.toList := fun h => absurd (hurl '\n' h) (by decide)
  have hstar : '*' ∉ url.toList := fun h => absurd (hurl '*' h) (by decide)
  have hmarks : emphasised url.toList = url.toList ↔
      ∀ e ∈ emphases, countFrom e.mark.toList 0 url.toList ≤ 1 := by
    rw [emphasised, stages_eq_self_iff fun e he => he]
    exact forall₂_congr fun e he => between_eq_self_iff he hline
  have hstars : ∀ part, countFrom ('*' :: part) 0 url.toList = 0 := by
    intro part
    have hfront : countFrom ('*' :: part) 0 (url.toList ++ []) = countFrom ('*' :: part) 0 [] :=
      countFrom_front hstar []
    rwa [append_nil] at hfront
  -- Two double underscores would be two underscores.
  have hdouble : countFrom ['_'] 0 url.toList ≤ 1 → countFrom ['_', '_'] 0 url.toList ≤ 1 := by
    intro hle
    refine Nat.le_of_not_lt fun hless => ?_
    rcases two_le_countFrom_iff.mp hless with ⟨body, hbody⟩
    have hsingle : 2 ≤ countFrom ['_'] 0 url.toList :=
      two_le_countFrom_iff.mpr ⟨'_' :: body, List.IsInfix.trans ⟨[], ['_'], by simp⟩ hbody⟩
    omega
  have hcount : ∀ mark : String, mark.isEmpty = false →
      count mark url = countFrom mark.toList 0 url.toList := fun mark hmark => by
    rw [count, hmark, if_neg Bool.false_ne_true]
  rw [hmarks, hcount "_" rfl, hcount "++" rfl, hcount "~~" rfl]
  constructor
  · intro h
    exact ⟨h ⟨"_", "em"⟩ (by decide), h ⟨"++", "u"⟩ (by decide), h ⟨"~~", "del"⟩ (by decide)⟩
  · rintro ⟨hunder, hplus, htilde⟩ e he
    simp only [emphases, mem_cons, not_mem_nil, or_false] at he
    rcases he with rfl | rfl | rfl | rfl | rfl | rfl
    · exact (hstars ['*']).trans_le (Nat.zero_le 1)
    · exact hdouble hunder
    · exact (hstars []).trans_le (Nat.zero_le 1)
    · exact hunder
    · exact hplus
    · exact htilde

lemma anchor_inj {target' : List Char} (h : anchor label target = anchor label target') :
  target = target' := by
  exact append_cancel_left (append_cancel_right (append_cancel_right (append_cancel_right h)))

/-- A link keeps its target exactly if label and target are not empty and no mark of emphasis is in the
target twice: not two underscores, nor two pairs of plus signs or of tildes. -/
theorem inline_link_eq_iff (label url : String) (hlabel : ∀ c ∈ label.toList, isLabelChar c = true)
  (hurl : ∀ c ∈ url.toList, isTargetChar c = true) :
  inline ("[" ++ label ++ "](" ++ url ++ ")") = "<a href=\"" ++ url ++ "\">" ++ label ++ "</a>" ↔
    label ≠ "" ∧ url ≠ "" ∧ count "_" url ≤ 1 ∧ count "++" url ≤ 1 ∧ count "~~" url ≤ 1 := by
  have hjoined : ∀ a b c : String, (a ++ url ++ b ++ label ++ c).toList =
      a.toList ++ url.toList ++ b.toList ++ label.toList ++ c.toList := fun a b c => by
    simp only [String.toList_append]
  have hanchor : ("<a href=\"" ++ url ++ "\">" ++ label ++ "</a>").toList =
      anchor label.toList url.toList := hjoined _ _ _
  rw [← String.toList_inj, hanchor, inline_link hlabel hurl, ← emphasised_eq_self_iff hurl]
  by_cases hempty : label = "" ∨ url = ""
  · rw [if_pos hempty]
    refine ⟨fun h => ?_, fun h => absurd hempty (not_or.mpr ⟨h.1, h.2.1⟩)⟩
    exact absurd (cons.inj h).1 (by decide)
  · rw [if_neg hempty]
    rw [not_or] at hempty
    exact ⟨fun h => ⟨hempty.1, hempty.2, anchor_inj h⟩, fun h => by rw [h.2.2]⟩

-- One underscore in an address is kept, and two of them are taken for emphasis.
theorem inline_link_eq_iff_underscores :
  inline ("[" ++ "my docs" ++ "](" ++ "https://a.b/c_d?e=1" ++ ")") =
      "<a href=\"" ++ "https://a.b/c_d?e=1" ++ "\">" ++ "my docs" ++ "</a>" ∧
    inline ("[" ++ "a" ++ "](" ++ "x_b_c" ++ ")") ≠ "<a href=\"" ++ "x_b_c" ++ "\">" ++ "a" ++ "</a>" ∧
    inline ("[" ++ "a" ++ "](" ++ "x_b_c" ++ ")") = "<a href=\"x<em>b</em>c\">a</a>" := by
  have hkept := inline_link_eq_iff "my docs" "https://a.b/c_d?e=1" (by decide) (by decide)
  have hlost := inline_link_eq_iff "a" "x_b_c" (by decide) (by decide)
  exact ⟨hkept.mpr (by decide), fun h => absurd (hlost.mp h) (by decide), by decide +kernel⟩

end KeywordDocs.Markup
