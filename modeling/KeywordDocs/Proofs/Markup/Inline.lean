import KeywordDocs.Markup.Document
import KeywordDocs.Proofs.Markup.Weave

/-!
# Lines and Tables are Woven of Tags

Escaping makes any text plain, and inline markup puts tags into it. Each stage finds something between marks,
whose characters are in no tag, so what stands between them is woven of tags if the whole text is. No stage
looks back, so a text without the beginning of a mark is left alone.
-/

namespace KeywordDocs.Markup

open Text List

variable (s : String)

section Escape

variable {table : List (Char × String)} {d : Char} {cs : List Char}

lemma mem_replaceChar {c : Char} {new cs : List Char} (h : d ∈ replaceChar c new cs) :
  d ∈ new ∨ d ∈ cs ∧ d ≠ c := by
  rw [replaceChar, mem_flatMap] at h
  rcases h with ⟨e, he, hd⟩
  split at hd
  · exact .inl hd
  case isFalse hec =>
    rw [mem_singleton] at hd
    exact .inr ⟨hd ▸ he, hd ▸ hec⟩

lemma replaceAll_not_mem_of_not_mem (hnew : ∀ e ∈ table, d ∉ e.2.toList) (hcs : d ∉ cs) :
  d ∉ replaceAll table cs := by
  unfold replaceAll
  induction table generalizing cs with
  | nil => exact hcs
  | cons e table ih =>
    refine ih (fun e' he' => hnew e' (mem_cons_of_mem e he')) fun h => ?_
    rcases mem_replaceChar h with h | h
    · exact hnew e mem_cons_self h
    · exact hcs h.1

lemma replaceAll_not_mem (hnew : ∀ e ∈ table, d ∉ e.2.toList) (hd : d ∈ table.map Prod.fst)
  (cs : List Char) : d ∉ replaceAll table cs := by
  induction table generalizing cs with
  | nil => cases hd
  | cons e table ih =>
    have hrest : ∀ e' ∈ table, d ∉ e'.2.toList := fun e' he' => hnew e' (mem_cons_of_mem e he')
    have hstep : replaceAll (e :: table) cs = replaceAll table (replaceChar e.1 e.2.toList cs) := rfl
    rw [hstep]
    -- The replacement of the character itself removes it, and the later ones do not bring it back.
    rcases mem_cons.mp hd with rfl | hd
    · refine replaceAll_not_mem_of_not_mem hrest fun h => ?_
      rcases mem_replaceChar h with h | h
      · exact hnew e mem_cons_self h
      · exact h.2 rfl
    · exact ih hrest hd _

lemma replaceChar_eq_self {c : Char} (h : c ∉ cs) (new : List Char) :
  replaceChar c new cs = cs := by
  unfold replaceChar
  induction cs with
  | nil => rfl
  | cons e cs ih =>
    have hne : e ≠ c := fun hec => h (hec ▸ mem_cons_self)
    rw [flatMap_cons, if_neg hne, ih fun hc => h (mem_cons_of_mem e hc)]
    rfl

lemma replaceAll_eq_self (h : ∀ e ∈ table, e.1 ∉ cs) : replaceAll table cs = cs := by
  induction table with
  | nil => rfl
  | cons e table ih =>
    have hstep : replaceAll (e :: table) cs = replaceAll table (replaceChar e.1 e.2.toList cs) := rfl
    rw [hstep, replaceChar_eq_self (h e mem_cons_self)]
    exact ih fun e' he' => h e' (mem_cons_of_mem e he')

def Removes (table : List (Char × String)) (d : Char) : Prop :=
  d ∈ table.map Prod.fst ∧ ∀ e ∈ table, d ∉ e.2.toList

instance (table : List (Char × String)) (d : Char) : Decidable (Removes table d) :=
  inferInstanceAs (Decidable (_ ∧ _))

lemma replaceAll_plain (hlt : Removes table '<') (hgt : Removes table '>')
  (hquote : Removes table '"') (cs : List Char) : Plain (replaceAll table cs) := by
  intro c hc
  have hgone : ∀ d, Removes table d → c ≠ d := by
    rintro d hd rfl
    exact replaceAll_not_mem hd.2 hd.1 cs hc
  simp [isInert, hgone '<' hlt, hgone '>' hgt, hgone '"' hquote]

end Escape

lemma escape_plain : Plain (escape s).toList := by
  rw [escape, String.toList_ofList]
  exact replaceAll_plain (by decide) (by decide) (by decide) _

lemma escapeCode_plain : Plain (escapeCode s).toList := by
  rw [escapeCode, String.toList_ofList]
  exact replaceAll_plain (by decide) (by decide) (by decide) _

lemma upTo_eq_some {mark cs body : List Char} (h : upTo mark cs = some body) :
  ∃ rest, cs = body ++ mark ++ rest := by
  induction cs generalizing body with
  | nil => cases h
  | cons c cs ih =>
    rw [upTo] at h
    split at h
    case isTrue hmark =>
      rcases isPrefixOf_iff_prefix.mp hmark with ⟨rest, hrest⟩
      cases h
      exact ⟨rest, by rw [nil_append, hrest]⟩
    case isFalse =>
      split at h
      · cases h
      · rcases Option.map_eq_some_iff.mp h with ⟨body', hbody, rfl⟩
        rcases ih hbody with ⟨rest, rfl⟩
        exact ⟨rest, by simp only [cons_append]⟩

lemma filledUpTo_eq_some {stop : Char} {cs body rest : List Char}
  (h : filledUpTo stop cs = some (body, rest)) : cs = body ++ stop :: rest := by
  rw [filledUpTo] at h
  split at h
  case h_2 => cases h
  case h_1 c body' d rest' heq =>
    cases h
    exact (span_ne_eq heq).1

lemma linkParts_eq_some {cs label target : List Char} (h : linkParts cs = some (label, target)) :
  ∃ rest, cs = '[' :: (label ++ ']' :: '(' :: (target ++ ')' :: rest)) := by
  unfold linkParts at h
  split at h
  case h_2 => cases h
  case h_1 cs =>
    rcases Option.bind_eq_some_iff.mp h with ⟨⟨label', rest⟩, hlabel, h⟩
    dsimp only at h
    split at h
    case h_2 => cases h
    case h_1 rest =>
      rcases Option.bind_eq_some_iff.mp h with ⟨⟨target', rest'⟩, htarget, h⟩
      cases h
      exact ⟨rest', by rw [filledUpTo_eq_some hlabel, filledUpTo_eq_some htarget]⟩

variable {cs : List Char}

lemma Woven.of_marked {T : List Char → Prop} (hT : Opens T) {opening closing body rest : List Char}
  (hopening : Plain opening) (hclosing : Plain closing) (hne : closing ≠ [])
  (havoids : ∀ c ∈ closing, Avoids T c) (h : Woven T (opening ++ (body ++ closing ++ rest))) :
  Woven T body ∧ Woven T rest := by
  have hinner := h.of_append_plain hT hopening
  cases closing with
  | nil => cases hne rfl
  | cons m ms =>
    rw [append_assoc, cons_append] at hinner
    rcases hinner.cut (havoids m mem_cons_self) with ⟨hbody, hrest⟩
    exact ⟨hbody, hrest.of_append_plain hT fun c hc => hclosing c (mem_cons_of_mem m hc)⟩

lemma emphases_tags : ∀ e ∈ emphases, e.mark.toList ≠ [] ∧ Plain e.mark.toList ∧
  (∀ s ∈ inlineTags, (s.toList.all fun c => !e.mark.toList.contains c)) ∧
  "<" ++ e.element ++ ">" ∈ inlineTags ∧ "</" ++ e.element ++ ">" ∈ inlineTags := by
  decide

lemma element_woven {name : String} {body : List Char}
  (hopening : "<" ++ name ++ ">" ∈ inlineTags) (hclosing : "</" ++ name ++ ">" ∈ inlineTags)
  (h : Woven InlineTag body) : Woven InlineTag (element name body) :=
  ((Woven.single ⟨_, hopening, rfl⟩).append h).append (.single ⟨_, hclosing, rfl⟩)

lemma between_woven {e : Emphasis} (he : e ∈ emphases) (h : Woven InlineTag cs) :
  Woven InlineTag (replaceFinds (between e) cs) := by
  rcases emphases_tags e he with ⟨hne, hplain, hmark, hopening, hclosing⟩
  have havoids : ∀ c ∈ e.mark.toList, Avoids InlineTag c := by
    intro c hc
    refine Listed.avoids fun s hs hmem => ?_
    simpa [hc] using all_eq_true.mp (hmark s hs) c hmem
  refine h.replaceFinds (fun t ht => ht) inlineTag_opens ?_
  intro before c cs new n hfound
  rcases Option.bind_eq_some_iff.mp hfound with ⟨rest, hrest, hfound⟩
  rcases Option.bind_eq_some_iff.mp hfound with ⟨body, hbody, hfound⟩
  cases hfound
  have htext := dropPrefix?_eq_some hrest
  rcases upTo_eq_some hbody with ⟨rest', rfl⟩
  have hlen : e.mark.length = e.mark.toList.length := rfl
  -- A find starts with the mark, is not empty, and leaves a woven text inside and after it.
  refine ⟨?_, ?_, fun hwoven => ?_⟩
  · cases hm : e.mark.toList with
    | nil => cases hne hm
    | cons m ms =>
      rw [hm, cons_append] at htext
      rw [(cons.inj htext).1]
      exact havoids m (hm ▸ mem_cons_self)
  · have hpos := length_pos_iff.mpr hne
    omega
  · rw [htext] at hwoven ⊢
    rcases hwoven.of_marked inlineTag_opens hplain hplain hne havoids with ⟨hinner, hafter⟩
    refine ⟨element_woven hopening hclosing hinner, ?_⟩
    rw [← append_assoc, ← append_assoc, drop_left' (by simp [hlen, Nat.add_assoc])]
    exact hafter

lemma codeSpan_woven (h : Woven InlineTag cs) : Woven InlineTag (replaceFinds codeSpan cs) := by
  refine h.replaceFinds (fun t ht => ht) inlineTag_opens ?_
  intro before c cs new n hfound
  have hmark : Avoids InlineTag '`' := Listed.avoids (by decide)
  unfold codeSpan at hfound
  split at hfound
  case h_2 => cases hfound
  case h_1 cs' heq =>
    rcases cons.inj heq with ⟨rfl, rfl⟩
    rcases Option.bind_eq_some_iff.mp hfound with ⟨⟨body, rest⟩, hbody, hfound⟩
    cases hfound
    have htext := filledUpTo_eq_some hbody
    refine ⟨hmark, by omega, fun hwoven => ?_⟩
    rw [htext] at hwoven ⊢
    rcases (hwoven.tail inlineTag_opens (by decide)).cut hmark with ⟨hinner, hafter⟩
    refine ⟨element_woven (by decide) (by decide) hinner, ?_⟩
    rw [show '`' :: (body ++ '`' :: rest) = ('`' :: body ++ ['`']) ++ rest by simp, drop_left' (by simp)]
    exact hafter

lemma link_woven (h : Woven InlineTag cs) : Woven PageTag (replaceFinds link cs) := by
  refine h.replaceFinds pageTag_of_inlineTag inlineTag_opens ?_
  intro before c cs new n hfound
  rcases Option.bind_eq_some_iff.mp hfound with ⟨⟨label, target⟩, hparts, hfound⟩
  cases hfound
  rcases linkParts_eq_some hparts with ⟨rest, htext⟩
  rcases cons.inj htext with ⟨rfl, rfl⟩
  refine ⟨Listed.avoids (by decide), by omega, fun hwoven => ?_⟩
  -- The text is cut at the brackets one after another: label, target, and what follows the link.
  have hlabelled := hwoven.tail inlineTag_opens (by decide)
  rcases hlabelled.cut (Listed.avoids (by decide)) with ⟨hlabel, hafter⟩
  rcases (hafter.tail inlineTag_opens (by decide)).cut (Listed.avoids (by decide)) with
    ⟨htarget, hrest⟩
  refine ⟨?_, ?_⟩
  · exact ((Woven.single (.valued .target target htarget)).append
      (hlabel.mono pageTag_of_inlineTag)).append (.single (.fixed _ ⟨"</a>", by decide, rfl⟩))
  · rw [show '[' :: (label ++ ']' :: '(' :: (target ++ ')' :: rest)) =
      ('[' :: label ++ ']' :: '(' :: target ++ [')']) ++ rest by simp, drop_left' (by simp; omega)]
    exact hrest

lemma inline_woven : Woven PageTag (inline s).toList := by
  -- Emphasis only adds tags of its own, so its stages can follow one another.
  have hemphases : ∀ (es : List Emphasis) (cs : List Char), (∀ e ∈ es, e ∈ emphases) → Woven InlineTag cs →
      Woven InlineTag ((es.map between).foldl (fun cs r => replaceFinds r cs) cs) := by
    intro es
    induction es with
    | nil => exact fun cs _ h => h
    | cons e es ih =>
      intro cs hes h
      exact ih _ (fun e' he' => hes e' (mem_cons_of_mem e he'))
        (between_woven (hes e mem_cons_self) h)
  have hbefore := hemphases emphases _ (fun e he => he) (escape_plain s).woven
  rw [inline, String.toList_ofList, inlineRecognisers, foldl_append, foldl_cons, foldl_cons, foldl_nil]
  exact link_woven (codeSpan_woven hbefore)

variable {T : List Char → Prop}

lemma unlines_woven {ls : List String} (h : ∀ l ∈ ls, Woven T l.toList) :
  Woven T (unlines ls).toList := by
  unfold unlines
  induction ls with
  | nil => exact .nil
  | cons l ls ih =>
    have hrest := ih fun l' hl' => h l' (mem_cons_of_mem l hl')
    cases ls with
    | nil => exact h l mem_cons_self
    | cons l' ls =>
      rw [join, String.toList_append, String.toList_append]
      · exact ((h l mem_cons_self).append (.char '\n' [] (by decide) .nil)).append hrest
      · exact cons_ne_nil l' ls

lemma fixed_woven {s : String} (h : s ∈ fixedTags := by decide) : Woven PageTag s.toList :=
  .single (.fixed _ ⟨s, h, rfl⟩)

lemma page_element_woven {opening body closing : String} (hopening : opening ∈ fixedTags)
  (hclosing : closing ∈ fixedTags) (h : Woven PageTag body.toList) :
  Woven PageTag (opening ++ body ++ closing).toList := by
  rw [String.toList_append, String.toList_append]
  exact ((fixed_woven hopening).append h).append (fixed_woven hclosing)

lemma row_woven {tag : String} (hopening : "<" ++ tag ++ ">" ∈ fixedTags)
  (hclosing : "</" ++ tag ++ ">" ∈ fixedTags) {line l : String} (hl : l ∈ row tag line) :
  Woven PageTag l.toList := by
  rcases mem_map.mp hl with ⟨cell, _, rfl⟩
  have h := page_element_woven hopening hclosing (inline_woven cell)
  rwa [← String.append_assoc, ← String.append_assoc] at h

lemma tableLine_woven {index : Nat} {line l : String} (hl : l ∈ tableLine index line) :
  Woven PageTag l.toList := by
  -- A table writes some of its tags directly after one another.
  have hhead : Woven PageTag "<thead><tr>".toList :=
    Woven.append (fixed_woven (s := "<thead>")) (fixed_woven (s := "<tr>"))
  have hbody : Woven PageTag "</tr></thead><tbody>".toList :=
    Woven.append (fixed_woven (s := "</tr>")) (Woven.append
      (fixed_woven (s := "</thead>")) (fixed_woven (s := "<tbody>")))
  unfold tableLine at hl
  split at hl
  · cases hl
  · split at hl
    · rw [mem_append, mem_append, mem_singleton, mem_singleton] at hl
      rcases hl with (rfl | hl) | rfl
      · exact hhead
      · exact row_woven (by decide) (by decide) hl
      · exact hbody
    · rw [mem_append, mem_append, mem_singleton, mem_singleton] at hl
      rcases hl with (rfl | hl) | rfl
      · exact fixed_woven
      · exact row_woven (by decide) (by decide) hl
      · exact fixed_woven

lemma table_woven (lines : List String) : Woven PageTag (table lines).toList := by
  unfold table
  split
  · exact .nil
  · refine unlines_woven fun l hl => ?_
    rw [mem_append, mem_append, mem_singleton, mem_singleton] at hl
    rcases hl with (rfl | hl) | rfl
    · exact fixed_woven
    · rcases mem_flatMap.mp hl with ⟨⟨line, index⟩, _, hl⟩
      exact tableLine_woven hl
    · exact Woven.append (fixed_woven (s := "</tbody>"))
        (fixed_woven (s := "</table>"))

variable {c : Char} {body rest : List Char} {opening closing : String} {f : List Char → List Char}

lemma tag_eq_none (hc : c ≠ '<') (b : Option Char) (cs : List Char) : tag b (c :: cs) = none := by
  unfold tag
  simp [hc]

lemma tag_blind : Blind tag := by
  intro b b' cs
  cases cs with
  | nil => rfl
  | cons c cs =>
    by_cases hc : c = '<'
    · subst hc
      rfl
    · rw [tag_eq_none hc, tag_eq_none hc]

lemma tag_needs : Needs tag ['<'] := by
  intro b cs h
  cases cs with
  | nil => rfl
  | cons c cs => exact tag_eq_none (fun hc => h (by rw [hc]; exact ⟨cs, rfl⟩)) b cs

lemma enclosed_blind : Blind (enclosed opening closing f) := fun _ _ _ => rfl

lemma enclosedLine_blind : Blind (enclosedLine opening closing f) := fun _ _ _ => rfl

lemma enclosed_needs : Needs (enclosed opening closing f) opening.toList := by
  intro b cs h
  rw [enclosed, dropPrefix?_eq_none h]
  rfl

lemma enclosedLine_needs : Needs (enclosedLine opening closing f) opening.toList := by
  intro b cs h
  rw [enclosedLine, dropPrefix?_eq_none h]
  rfl

lemma splitAtFirst_append {sep : List Char} (hsep : sep ≠ []) (h : Shuns sep body)
  (rest : List Char) : splitAtFirst sep (body ++ (sep ++ rest)) = some (body, rest) := by
  induction body with
  | nil =>
    cases sep with
    | nil => cases hsep rfl
    | cons c sep => rw [nil_append, cons_append, splitAtFirst, ← cons_append, dropPrefix?_append]
  | cons c body ih =>
    have hnone := dropPrefix?_eq_none (h (c :: body) (suffix_refl _) (cons_ne_nil c body) (sep ++ rest))
    have hrest := ih fun s hs => h s (hs.trans (suffix_cons c body))
    rw [cons_append] at hnone
    rw [cons_append, splitAtFirst, hnone]
    dsimp only
    rw [hrest]
    rfl

lemma enclosed_append (hclosing : closing.toList ≠ []) (h : Shuns closing.toList body)
  (rest : List Char) :
  enclosed opening closing f none (opening.toList ++ (body ++ closing.toList) ++ rest) =
    some (f body, (opening.toList ++ (body ++ closing.toList)).length) := by
  rw [enclosed, append_assoc, dropPrefix?_append, Option.bind_eq_bind, Option.bind_some,
    append_assoc, splitAtFirst_append hclosing h]
  simp [String.length_toList, Nat.add_assoc]

lemma enclosed_turns (hopening : opening.toList ≠ []) (hclosing : closing.toList ≠ [])
  (h : Shuns closing.toList body) :
  Turns (enclosed opening closing f) (opening.toList ++ (body ++ closing.toList)) (f body) :=
  Turns.found enclosed_blind (by simp [hopening]) (enclosed_append hclosing h)

lemma enclosed_yields (hopening : opening.toList ≠ []) (hclosing : closing.toList ≠ [])
  (h : Shuns closing.toList body) :
  Yields (enclosed opening closing f) (opening.toList ++ (body ++ closing.toList)) [f body] :=
  Yields.found enclosed_blind (by simp [hopening]) (enclosed_append hclosing h)

lemma codeSpan_eq_none (hc : c ≠ '`') (b : Option Char) (cs : List Char) :
  codeSpan b (c :: cs) = none := by
  unfold codeSpan
  simp [hc]

lemma linkParts_eq_none (hc : c ≠ '[') (cs : List Char) : linkParts (c :: cs) = none := by
  unfold linkParts
  simp [hc]

lemma codeSpan_needs : Needs codeSpan ['`'] := by
  intro b cs h
  cases cs with
  | nil => rfl
  | cons c cs => exact codeSpan_eq_none (fun hc => h (by rw [hc]; exact ⟨cs, rfl⟩)) b cs

lemma link_needs : Needs link ['['] := by
  intro b cs h
  cases cs with
  | nil => rfl
  | cons c cs =>
    rw [link, linkParts_eq_none fun hc => h (by rw [hc]; exact ⟨cs, rfl⟩)]
    rfl

lemma replaceFinds_of_not_mem {r : Recogniser (List Char)} {c : Char} {start : List Char}
  (hneeds : Needs r (c :: start)) (h : c ∉ cs) : replaceFinds r cs = cs := by
  refine replaceFinds_of_none fun b rest hrest => hneeds b rest fun hstarts => h ?_
  exact hrest.subset (hstarts.subset mem_cons_self)

def markChars : List Char :=
  ['&', '<', '>', '"', '\'', '*', '_', '+', '~', '`', '[']

lemma inlineRecognisers_need : ∀ r ∈ inlineRecognisers,
  ∃ c start, markChars.contains c ∧ Needs r (c :: start) := by
  have hmarks : ∀ e ∈ emphases, ∃ c start, markChars.contains c ∧ e.mark.toList = c :: start := by
    have hall : emphases.all (fun e => e.mark.toList.head?.any markChars.contains) := by decide
    intro e he
    have hhead := all_eq_true.mp hall e he
    cases hmark : e.mark.toList with
    | nil =>
      rw [hmark] at hhead
      cases hhead
    | cons c start =>
      rw [hmark] at hhead
      exact ⟨c, start, hhead, rfl⟩
  intro r hr
  rcases mem_append.mp hr with hr | hr
  · rcases mem_map.mp hr with ⟨e, he, rfl⟩
    rcases hmarks e he with ⟨c, start, hc, hmark⟩
    exact ⟨c, start, hc, hmark ▸ enclosedLine_needs⟩
  · rcases mem_cons.mp hr with rfl | hr
    · exact ⟨'`', [], rfl, codeSpan_needs⟩
    · obtain rfl := mem_singleton.mp hr
      exact ⟨'[', [], rfl, link_needs⟩

lemma inline_eq_self {s : String} (h : ∀ c, markChars.contains c → c ∉ s.toList) :
  inline s = s := by
  have hescape : (escape s).toList = s.toList := by
    have hentities : entities.all (fun e => markChars.contains e.1) := rfl
    rw [escape, String.toList_ofList]
    exact replaceAll_eq_self fun e he => h e.1 (all_eq_true.mp hentities e he)
  have hnone : ∀ r ∈ inlineRecognisers, replaceFinds r s.toList = s.toList := fun r hr => by
    rcases inlineRecognisers_need r hr with ⟨c, start, hc, hneeds⟩
    exact replaceFinds_of_not_mem hneeds (h c hc)
  rw [inline, hescape, foldl_replaceFinds hnone, String.ofList_toList]

end KeywordDocs.Markup
