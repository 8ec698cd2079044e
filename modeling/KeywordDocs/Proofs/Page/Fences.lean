import KeywordDocs.Proofs.Highlight.Listing
import KeywordDocs.Proofs.Markup.Entities
import KeywordDocs.Proofs.Page.Stripping

/-!
# Fenced Code on Both Pages

Code between fences of no known language is shown escaped on a page, of which Markdown is made again. What
gets lost is one shade of blue, entities and tags in the code, and all but one of the empty lines in a row.
-/

namespace KeywordDocs.Page

open Text Markup Highlight
open String (ofList toList_append ofList_toList)
open List hiding replace

variable {x : Char}

variable {code : String} {config : Option Json} {v : Vocabulary}

/-- Code of no language in a documentation text. -/
def fenced (code : String) : String := unlines ["```text", code, "```"]

/-- Fenced code as it is marked up, with the code itself as `body`. -/
def fencedMarkup (body : String) : String := unlines [codeOpening "text", body, codeClosing]

def fence (cs : List Char) : List Char :=
  ['`', '`', '`', 't', 'e', 'x', 't'] ++ '\n' :: (cs ++ '\n' :: ['`', '`', '`'])

lemma unlines_three (a b c : String) :
  (unlines [a, b, c]).toList = a.toList ++ '\n' :: (b.toList ++ '\n' :: c.toList) := by
  have hjoin : unlines [a, b, c] = a ++ "\n" ++ (b ++ "\n" ++ c) := rfl
  rw [hjoin, toList_append, toList_append, toList_append, toList_append, append_assoc, append_assoc]
  rfl

lemma fenced_toList (code : String) : (fenced code).toList = fence code.toList := by
  have hopen : "```text".toList = ['`', '`', '`', 't', 'e', 'x', 't'] := by decide
  have hclose : "```".toList = ['`', '`', '`'] := by decide
  rw [fenced, unlines_three, hopen, hclose, fence]

lemma fence_tight (cs : List Char) : Tight (fence cs) := by
  have hlast : (fence cs).getLast? = some '`' := by
    rw [fence, getLast?_append, getLast?_cons, getLast?_append, getLast?_cons]
    rfl
  constructor
  · rintro c ⟨rfl⟩
    decide
  · intro c hc
    rw [hlast] at hc
    cases hc
    decide

lemma lines_fenced (code : String) : lines (fenced code) = "```text" :: (lines code ++ ["```"]) := by
  have hopen : (splitAtChar '\n' ['`', '`', '`', 't', 'e', 'x', 't']).map ofList =
      ["```text"] := by decide
  have hclose : (splitAtChar '\n' ['`', '`', '`']).map ofList = ["```"] := by decide
  rw [lines, fenced_toList, fence, splitAtChar_append_cons, splitAtChar_append_cons, map_append,
    map_append, hopen, hclose, lines, singleton_append]

lemma fragments_fenced (h : ∀ line ∈ lines code, isFence line = false) :
  fragments (fenced code) = [.codeOpen "text", .code "text" (lines code), .codeClose] := by
  have hempty : (fenced code).isEmpty = false := by
    cases hempty : (fenced code).isEmpty with
    | false => rfl
    | true =>
      have hnil : (fenced code).toList = [] := by simpa using hempty
      rw [fenced_toList] at hnil
      cases hnil
  have htrim : trim (fenced code) = fenced code := by
    rw [trim, fenced_toList, (fence_tight _).trimChars_eq, ← fenced_toList, ofList_toList]
  have hcode : (lines code).all (fun l => !isFence l) :=
    all_eq_true.mpr fun line hline => by rw [h line hline, Bool.not_false]
  have hwalk : ∀ st : Reading, st.fence = some "text" → st.table = none → st.inList = false →
      st.walk (lines code ++ ["```"]) = [.code "text" (lines code), .codeClose] := by
    intro st hfence htable hlist
    cases hlines : lines code with
    | nil => cases (splitAtChar_ne_nil _ _) (map_eq_nil_iff.mp hlines)
    | cons first rest =>
      rw [hlines, all_cons, Bool.and_eq_true] at hcode
      have hfirst : ¬ isFence first := by simpa using hcode.1
      rw [cons_append, Reading.walk_code hfence hfirst, takeWhile_append_of_pos (all_eq_true.mp hcode.2),
        dropWhile_append_of_pos (all_eq_true.mp hcode.2)]
      have hclose : isFence "```" := by decide
      simp only [takeWhile_cons, dropWhile_cons, hclose, Bool.not_true,
        Bool.false_eq_true, if_false, append_nil]
      rw [Reading.walk_closing hfence hclose, Reading.walk, Reading.finish]
      simp only [Reading.closeTable, Reading.closeList, htable, hlist]
      rfl
  have hopen : fenceLanguage (trimRight "```text") = "text" := by decide
  rw [fragments, hempty, if_neg Bool.false_ne_true, htrim, lines_fenced,
    Reading.walk_opening rfl (by decide), hopen, hwalk _ rfl rfl rfl]

lemma outcome_fenced (h : ∀ line ∈ lines code, isFence line = false) (htight : Tight code.toList) :
  outcome (document config (fenced code)) v =
    (.ok (fencedMarkup (trimRight (brighten (unwrapped (v.shade "text" code))))), v) := by
  have htrim : trimRight (unlines (lines code)) = code := by
    rw [unlines_lines, trimRight, htight.trimRightChars_eq, ofList_toList]
  have hlisting : outcome (listing config "text" (unlines (lines code))) v =
      (.ok (trimRight (brighten (unwrapped (v.shade "text" code)))), v) := by
    rw [listing, if_neg (by decide), htrim]
    rfl
  have hlines : outcome (documentLines config (fenced code)) v =
      (.ok [codeOpening "text", trimRight (brighten (unwrapped (v.shade "text" code))),
        codeClosing], v) := by
    rw [documentLines, fragments_fenced h, mapM_cons, mapM_cons, mapM_cons, mapM_nil]
    simp only [Fragment.render, pure_bind, bind_assoc]
    rw [outcome_bind, hlisting]
    rfl
  rw [document, outcome_map, hlines]
  rfl

variable {cs : List Char}

def bright (cs : List Char) : List Char :=
  replaceChars "#00f".toList "#ffe400".toList (replaceChars "#00F".toList "#ffe400".toList cs)

lemma brighten_toList (s : String) : (brighten s).toList = bright s.toList := by
  have hreplace : ∀ old new t : String, (replace old new t).toList =
      replaceChars old.toList new.toList t.toList := fun _ _ _ => String.toList_ofList
  rw [brighten, hreplace, hreplace, bright]

lemma bright_escaped (cs : List Char) :
  bright (cs.flatMap (written codeEntities)) = (bright cs).flatMap (written codeEntities) := by
  have hupper : ∀ ds : List Char, replaceChars "#00F".toList "#ffe400".toList
      (ds.flatMap (written codeEntities)) =
        (replaceChars "#00F".toList "#ffe400".toList ds).flatMap (written codeEntities) :=
    replaceChars_written_literal (by decide) (by decide) (by decide) (by decide) (by decide)
  have hlower : ∀ ds : List Char, replaceChars "#00f".toList "#ffe400".toList
      (ds.flatMap (written codeEntities)) =
        (replaceChars "#00f".toList "#ffe400".toList ds).flatMap (written codeEntities) :=
    replaceChars_written_literal (by decide) (by decide) (by decide) (by decide) (by decide)
  rw [bright, hupper, hlower, ← bright]

lemma bright_tight (h : Tight cs) : Tight (bright cs) := by
  have hnew : Tight "#ffe400".toList := ⟨by decide, by decide⟩
  exact (h.replaceChars (by decide) (by decide) hnew).replaceChars (by decide) (by decide) hnew

lemma count_bright (hx : x ∉ "#00Fffe4".toList) (cs : List Char) :
  (bright cs).count x = cs.count x := by
  have hzero : ∀ w : List Char, w ⊆ "#00Fffe4".toList → w.count x = 0 := fun w hw =>
    count_eq_zero.mpr fun h => hx (hw h)
  have hnew := hzero "#ffe400".toList (by decide)
  rw [bright, count_replaceChars (by decide) (hnew.trans (hzero _ (by decide)).symm),
    count_replaceChars (by decide) (hnew.trans (hzero _ (by decide)).symm)]

lemma not_mem_bright (hx : x ∉ "#00Fffe4".toList) : x ∉ bright cs ↔ x ∉ cs := by
  rw [← count_eq_zero, count_bright hx, count_eq_zero]

lemma bright_eq_self_iff :
  bright cs = cs ↔ ¬ "#00F".toList <:+: cs ∧ ¬ "#00f".toList <:+: cs := by
  have hself : ∀ {old new ds : List Char}, old ≠ [] → ¬ old <:+: ds → replaceChars old new ds = ds :=
    fun hold hds => replaceChars_eq_self hold _ fun rest hrest hp => hds (hp.isInfix.trans hrest.isInfix)
  have hlonger : ∀ old : String, old.toList ≠ [] → old.toList.length < "#ffe400".toList.length →
      ∀ ds : List Char, ds.length ≤ (replaceChars old.toList "#ffe400".toList ds).length ∧
        ((replaceChars old.toList "#ffe400".toList ds).length = ds.length → ¬ old.toList <:+: ds) :=
    fun old => length_replaceChars
  constructor
  · intro h
    have hlength := congrArg List.length h
    have hupper := hlonger "#00F" (by decide) (by decide) cs
    have hlower := hlonger "#00f" (by decide) (by decide)
      (replaceChars "#00F".toList "#ffe400".toList cs)
    have hnone := hupper.2 (le_antisymm (hlower.1.trans hlength.le) hupper.1)
    rw [bright, hself (by decide) hnone] at hlength
    rw [hself (by decide) hnone] at hlower
    exact ⟨hnone, hlower.2 hlength⟩
  · rintro ⟨hupper, hlower⟩
    rw [bright, hself (by decide) hupper, hself (by decide) hlower]

def padded (cs : List Char) : List Char := '\n' :: (cs ++ ['\n'])

lemma trimChars_padded (h : Tight cs) : trimChars (padded cs) = cs := by
  have hleft : trimLeftChars (padded cs) = trimLeftChars (cs ++ ['\n']) := dropWhile_cons_of_pos (by decide)
  cases cs with
  | nil => decide
  | cons c cs =>
    have hstart : trimLeftChars (c :: cs ++ ['\n']) = c :: cs ++ ['\n'] :=
      dropWhile_cons_of_neg (by rw [h.head c rfl]; exact Bool.false_ne_true)
    have hblank : isBlank '\n' := by decide
    rw [trimChars, hleft, hstart, trimRightChars, dropEndWhile_concat, hblank, if_pos rfl,
      ← trimRightChars, h.trimRightChars_eq]

lemma codeElement_fencedMarkup {body : List Char} (h : '<' ∉ body) :
  replaceFinds codeElement (fencedMarkup (ofList body)).toList =
    fence (trimChars (stripMarkup (padded body))) := by
  have hopen : (codeOpening "text").toList =
      "<div class=\"code-block\"><pre class=\"language-".toList ++ (['t', 'e', 'x', 't'] ++ ['"', '>']) := by
    decide
  have hmarkup : (fencedMarkup (ofList body)).toList =
      "<div class=\"code-block\"><pre class=\"language-".toList ++
        (['t', 'e', 'x', 't'] ++ '"' :: '>' :: (padded body ++ ("</pre></div>".toList ++ []))) := by
    have hbody : (ofList body).toList = body := String.toList_ofList
    rw [fencedMarkup, unlines_three, hopen, codeClosing, hbody]
    simp only [padded, append_assoc, cons_append, nil_append, append_nil]
  have hshuns : Shuns "</pre></div>".toList (padded body) := by
    have hclose : "</pre></div>".toList = '<' :: "/pre></div>".toList := by decide
    rw [hclose]
    exact Shuns.of_not_mem (by simpa [padded] using h)
  have hspan : (['t', 'e', 'x', 't'] ++ '"' :: '>' :: (padded body ++ ("</pre></div>".toList ++ []))).span
      (· ≠ '"') = (['t', 'e', 'x', 't'], '"' :: '>' :: (padded body ++ ("</pre></div>".toList ++ []))) :=
    span_ne_append_cons (by decide) _
  have hsplit := splitAtFirst_append (by decide) hshuns []
  have hfound : codeElement none ((fencedMarkup (ofList body)).toList ++ []) =
      some (fence (trimChars (stripMarkup (padded body))), (fencedMarkup (ofList body)).toList.length) := by
    rw [append_nil, hmarkup, codeElement]
    simp only [dropPrefix?_append, Option.bind_eq_bind, Option.bind_some, hspan, hsplit]
    have hticks : "```".toList = ['`', '`', '`'] := by decide
    have hend : "\n```".toList = ['\n', '`', '`', '`'] := by decide
    have hclose : "</pre></div>".toList.length = 12 := by decide
    refine congrArg some (Prod.ext ?_ ?_)
    · rw [hticks, hend, fence]
      simp only [cons_append, nil_append]
    · simp only [length_append, length_cons, length_nil, hclose]
      omega
  have hne : (fencedMarkup (ofList body)).toList ≠ [] := by
    rw [hmarkup]
    exact append_ne_nil_of_left_ne_nil (by decide) _
  have hall := replaceFinds_found (fun _ _ _ => rfl) hne hfound
  rwa [append_nil, replaceFinds_nil, append_nil] at hall

lemma padded_tagFree : TagFree (padded cs) ↔ TagFree cs :=
  tagFree_around (a := ['\n']) (b := ['\n']) (by decide) (by decide)

lemma fence_tagFree : TagFree (fence cs) ↔ TagFree cs := by
  have hfence : fence cs = ['`', '`', '`', 't', 'e', 'x', 't', '\n'] ++ (cs ++ ['\n', '`', '`', '`']) := rfl
  rw [hfence, tagFree_around (by decide) (by decide)]

lemma foldl_elements (cs : List Char) : elementRecognisers.foldl (fun cs r => replaceFinds r cs) cs =
  elementRecognisers.tail.foldl (fun cs r => replaceFinds r cs) (replaceFinds codeElement cs) := by
  rw [elementRecognisers, foldl_cons, tail_cons]

lemma toMarkdown_fencedMarkup {body : List Char} (h : '<' ∉ body) :
  (toMarkdown (fencedMarkup (ofList body))).toList =
    trimChars (replaceFinds emptyLines (stripMarkup (fence (trimChars (stripMarkup (padded body)))))) := by
  have hfree : TagFree (fence (trimChars (stripMarkup (padded body)))) :=
    fence_tagFree.mpr ((withoutTags_tagFree _).of_part (trimChars_within _))
  rw [toMarkdown, foldl_elements, codeElement_fencedMarkup h, elements_tagFree hfree, String.toList_ofList]

variable {code : List Char}

/-- Code that Markdown pages keep: nothing in it reads as an entity or a tag, there is at most one
empty line in a row, and it has neither apostrophes nor the dark colour. -/
structure Durable (cs : List Char) : Prop where
  apostrophe : '\'' ∉ cs
  entities : ∀ e ∈ markdownEntities, ¬ e.1.toList <:+: cs
  tags : ∀ body, body ≠ [] → '>' ∉ body → ¬ '<' :: (body ++ ['>']) <:+: cs
  emptyLines : ¬ ['\n', '\n', '\n'] <:+: cs
  colours : ¬ "#00F".toList <:+: cs ∧ ¬ "#00f".toList <:+: cs

def extracted (cs : List Char) : List Char :=
  trimChars (stripMarkup (padded (cs.flatMap (written codeEntities))))

def settled (cs : List Char) : List Char := trimChars (replaceFinds emptyLines (stripMarkup (fence cs)))

lemma stripMarkup_sublist (cs : List Char) : (stripMarkup cs).Sublist (decode markdownEntities cs) :=
  (withoutTags_sublist _).trans (unspanned_sublist _)

lemma settled_sublist (cs : List Char) :
  (settled cs).Sublist (replaceFinds emptyLines (stripMarkup (fence cs))) :=
  (trimChars_within _).sublist

lemma count_fence (x : Char) (cs : List Char) :
  (fence cs).count x = (fence []).count x + cs.count x := by
  simp only [fence, count_append, count_cons, count_nil]
  omega

lemma count_padded (x : Char) (cs : List Char) :
  (padded cs).count x = (padded []).count x + cs.count x := by
  simp only [padded, count_append, count_cons, count_nil]
  omega

lemma fence_inj {a b : List Char} (h : fence a = fence b) : a = b :=
  append_cancel_right (cons.inj (append_cancel_left h)).2

lemma mem_fence (h : x ∈ cs) : x ∈ fence cs := by simp [fence, h]

lemma infix_fence (cs : List Char) : cs <:+: fence cs :=
  ⟨['`', '`', '`', 't', 'e', 'x', 't', '\n'], ['\n', '`', '`', '`'], by simp [fence]⟩

lemma not_mem_decode {table : List (String × String)}
  (htable : ∀ e ∈ table, e.1.toList ≠ [] ∧ x ∉ e.2.toList) {cs : List Char} (h : x ∉ cs) :
  x ∉ decode table cs := by
  induction table generalizing cs with
  | nil => exact h
  | cons e table ih =>
    rcases htable e mem_cons_self with ⟨hne, hnew⟩
    exact ih (fun e' he' => htable e' (mem_cons_of_mem e he')) (not_mem_replaceChars hne hnew h)

lemma padded_escaped (cs : List Char) : padded (cs.flatMap (written codeEntities)) =
  (padded cs).flatMap (written codeEntities) := by
  have hfeed : written codeEntities '\n' = ['\n'] := by decide
  rw [padded, padded, flatMap_cons, flatMap_append, flatMap_singleton, hfeed, singleton_append]

lemma extracted_eq (cs : List Char) : extracted cs = trimChars (withoutTags (replaceFinds spanContent
  ((decode literalEntities (padded cs)).flatMap (written [('\'', "&#39;")])))) := by
  rw [extracted, stripMarkup, padded_escaped, decode_escaped]

lemma extracted_sublist (cs : List Char) : (extracted cs).Sublist
  ((decode literalEntities (padded cs)).flatMap (written [('\'', "&#39;")])) := by
  rw [extracted_eq]
  exact (trimChars_within _).sublist.trans ((withoutTags_sublist _).trans (unspanned_sublist _))

lemma settled_apostrophe (cs : List Char) : '\'' ∉ settled (extracted cs) := by
  have hwritten : '\'' ∉ (decode literalEntities (padded cs)).flatMap (written [('\'', "&#39;")]) := by
    rw [← replaceAll_eq_flatMap]
    exact replaceAll_not_mem (by decide) (by decide) _
  have hfence : '\'' ∉ fence (extracted cs) := by
    have hextracted := fun h => hwritten ((extracted_sublist cs).subset h)
    rw [← count_eq_zero, count_fence, count_eq_zero.mpr hextracted]
    decide
  have hdecoded : '\'' ∉ decode markdownEntities (fence (extracted cs)) := not_mem_decode (by decide) hfence
  intro h
  exact hdecoded ((stripMarkup_sublist _).subset ((joined_sublist _).subset ((settled_sublist _).subset h)))

lemma extracted_of_not_mem (h : '\'' ∉ cs) : extracted cs =
  trimChars (withoutTags (replaceFinds spanContent (decode literalEntities (padded cs)))) := by
  have hpadded : '\'' ∉ padded cs := by
    rw [← count_eq_zero, count_padded, count_eq_zero.mpr h]
    decide
  have hdecoded : '\'' ∉ decode literalEntities (padded cs) := not_mem_decode (by decide) hpadded
  rw [extracted_eq, ← replaceAll_eq_flatMap, replaceAll_eq_self]
  intro e he
  rw [mem_singleton.mp he]
  exact hdecoded

lemma emptyLines_eq_none_iff : emptyLines none cs = none ↔ ¬ ['\n', '\n', '\n'] <+: cs := by
  constructor
  · rintro h ⟨rest, rfl⟩
    cases h
  · intro h
    cases hfind : emptyLines none cs with
    | none => rfl
    | some found =>
      rcases emptyLines_eq_some hfind with ⟨hrun, -, -, htake⟩
      have hthree : cs.take 3 = ['\n', '\n', '\n'] := by
        rw [← Nat.min_eq_left hrun, ← take_take, htake, take_replicate, Nat.min_eq_left hrun]
        rfl
      cases h (hthree ▸ take_prefix 3 cs)

lemma joined_eq_self (h : ¬ ['\n', '\n', '\n'] <:+: cs) : replaceFinds emptyLines cs = cs :=
  emptyLines_blind.replaceFinds_of_none fun _ hrest =>
    emptyLines_eq_none_iff.mpr fun hp => h (hp.isInfix.trans hrest.isInfix)

lemma infix_of_infix_fence (h : Tight cs) (hfence : ['\n', '\n', '\n'] <:+: fence cs) :
  ['\n', '\n', '\n'] <:+: cs := by
  have hblank : isBlank '\n' ≠ false := by decide
  have hsplit : fence cs = ['`', '`', '`', 't', 'e', 'x', 't'] ++ (padded cs ++ ['`', '`', '`']) := by
    simp [fence, padded]
  rw [hsplit, ← append_assoc] at hfence
  have hfront : ['\n', '\n', '\n'] <:+: ['`', '`', '`', 't', 'e', 'x', 't'] ++ padded cs :=
    infix_of_infix_append (p := ['\n', '\n']) (by decide) hfence
  have hpadded : ['\n', '\n', '\n'] <:+: padded cs := infix_of_append_infix (by decide) hfront
  rcases infix_cons_iff.mp hpadded with hp | hpart
  · have hp' := (cons_prefix_cons.mp hp).2
    cases cs with
    | nil => exact absurd hp'.length_le (by simp)
    | cons c cs => cases ((cons_prefix_cons.mp hp').1 ▸ hblank) (h.head c rfl)
  · rcases infix_concat_iff.mp hpart with hs | hpart
    · rcases hs with ⟨front, hfront⟩
      have hcs : front ++ ['\n', '\n'] = cs := append_cancel_right (by rw [append_assoc]; exact hfront)
      cases hblank (h.last '\n' (by rw [← hcs]; simp))
    · exact hpart

lemma entity_within {e : String × String} (he : e ∈ markdownEntities)
  (h : e.1.toList <:+: fence cs ∨ e.1.toList <:+: padded cs) : e.1.toList <:+: cs := by
  have hwords : ∀ e ∈ markdownEntities, '\n' ∉ e.1.toList ∧ '&' ∈ e.1.toList := by decide
  rcases hwords e he with ⟨hfeed, hamp⟩
  have hnot : ∀ t : List Char, '&' ∉ t → ¬ e.1.toList <:+: t := fun t ht hpart => ht (hpart.subset hamp)
  have hcut := infix_append_cons_iff hfeed
  rcases h with h | h
  · rcases (hcut _ _).mp h with h | h
    · cases (hnot _ (by decide)) h
    · exact ((hcut _ _).mp h).resolve_right (hnot _ (by decide))
  · rcases (hcut [] _).mp h with h | h
    · cases (hnot _ (by decide)) h
    · exact ((hcut _ _).mp h).resolve_right (hnot _ (by decide))

lemma settled_of_durable (htight : Tight cs) (h : Durable cs) : settled cs = fence cs := by
  have hdecode : decode markdownEntities (fence cs) = fence cs :=
    decode_eq_self (by decide) fun e he hpart => h.entities e he (entity_within he (.inl hpart))
  have hjoin : replaceFinds emptyLines (fence cs) = fence cs :=
    joined_eq_self fun hpart => h.emptyLines (infix_of_infix_fence htight hpart)
  rw [settled, stripMarkup, hdecode, unspanned_of_tagFree (fence_tagFree.mpr (tagFree_iff.mpr h.tags)),
    hjoin, (fence_tight cs).trimChars_eq]

lemma extracted_of_durable (htight : Tight cs) (h : Durable cs) : extracted cs = cs := by
  have hdecode : decode literalEntities (padded cs) = padded cs := by
    refine decode_eq_self (by decide) fun e he hpart => ?_
    have he' : e ∈ markdownEntities := mem_of_mem_drop he
    exact h.entities e he' (entity_within he' (.inr hpart))
  rw [extracted_of_not_mem h.apostrophe, hdecode,
    unspanned_of_tagFree (padded_tagFree.mpr (tagFree_iff.mpr h.tags)), trimChars_padded htight]

lemma settled_count_le (x : Char) (cs : List Char) :
  (settled cs).count x ≤ (stripMarkup (fence cs)).count x :=
  ((settled_sublist cs).trans (joined_sublist _)).count_le x

lemma entities_of_count (hapostrophe : '\'' ∉ cs)
  (h : cs.count ';' ≤ (settled (extracted cs)).count ';') :
  decode literalEntities (padded cs) = padded cs ∧
    decode markdownEntities (fence (extracted cs)) = fence (extracted cs) ∧
    ∀ e ∈ markdownEntities, ¬ e.1.toList <:+: fence (extracted cs) := by
  have hliteral : Loses literalEntities := by decide
  have hmarkdown : Loses markdownEntities := by decide
  have hcode := count_decode hliteral (padded cs)
  have hpage := count_decode hmarkdown (fence (extracted cs))
  have hpadded : (padded cs).count ';' = cs.count ';' := (count_padded ';' cs).trans (Nat.zero_add _)
  have hfence : (fence (extracted cs)).count ';' = (extracted cs).count ';' :=
    (count_fence ';' _).trans (Nat.zero_add _)
  have hextracted : (extracted cs).count ';' ≤ (decode literalEntities (padded cs)).count ';' := by
    rw [extracted_of_not_mem hapostrophe]
    exact ((trimChars_within _).sublist.trans
      ((withoutTags_sublist _).trans (unspanned_sublist _))).count_le ';'
  have hstripped := (stripMarkup_sublist (fence (extracted cs))).count_le ';'
  have hsettled := settled_count_le ';' (extracted cs)
  exact ⟨(hcode.2 (by omega)).1, hpage.2 (by omega)⟩

lemma tags_of_count (hapostrophe : '\'' ∉ cs) (htight : Tight cs)
  (hcode : decode literalEntities (padded cs) = padded cs)
  (hpage : decode markdownEntities (fence (extracted cs)) = fence (extracted cs))
  (h : cs.count '<' ≤ (settled (extracted cs)).count '<') : extracted cs = cs ∧ TagFree cs := by
  have hextracted := extracted_of_not_mem hapostrophe
  rw [hcode] at hextracted
  have hfence : (fence (extracted cs)).count '<' = (extracted cs).count '<' :=
    (count_fence '<' _).trans (Nat.zero_add _)
  have hpadded : (padded cs).count '<' = cs.count '<' := (count_padded '<' cs).trans (Nat.zero_add _)
  have hsettled := settled_count_le '<' (extracted cs)
  have hstripped := (stripMarkup_sublist (fence (extracted cs))).count_le '<'
  rw [hpage] at hstripped
  have htrimmed : (extracted cs).count '<' ≤
      (withoutTags (replaceFinds spanContent (padded cs))).count '<' := by
    rw [hextracted]
    exact (trimChars_within _).sublist.count_le '<'
  have hspanned := ((withoutTags_sublist _).trans (unspanned_sublist (padded cs))).count_le '<'
  have hkept : (withoutTags (replaceFinds spanContent (padded cs))).count '<' =
      (padded cs).count '<' := by omega
  rcases tagFree_of_count hkept with ⟨hfree, hsame⟩
  rw [hsame, trimChars_padded htight] at hextracted
  exact ⟨hextracted, padded_tagFree.mp hfree⟩

lemma durable_of_settled (htight : Tight cs) (h : settled (extracted (bright cs)) = fence cs) :
  Durable cs := by
  have hcount : ∀ x, (settled (extracted (bright cs))).count x = (fence []).count x + cs.count x :=
    fun x => by rw [h, count_fence]
  have hapostrophe : '\'' ∉ cs := fun hmem => settled_apostrophe (bright cs) (h ▸ mem_fence hmem)
  have hbright : '\'' ∉ bright cs := (not_mem_bright (by decide)).mpr hapostrophe
  rcases entities_of_count hbright (by rw [hcount, count_bright (by decide)]; omega) with
    ⟨hcode, hpage, hentities⟩
  rcases tags_of_count hbright (bright_tight htight) hcode hpage
    (by rw [hcount, count_bright (by decide)]; omega) with ⟨hextracted, htags⟩
  rw [hextracted] at h hcount hpage hentities
  -- What is left to be lost are empty lines.
  have hstrip : stripMarkup (fence (bright cs)) = fence (bright cs) := by
    rw [stripMarkup, hpage, unspanned_of_tagFree (fence_tagFree.mpr htags)]
  have hnone : ∀ rest, rest <:+ fence (bright cs) → emptyLines none rest = none := by
    refine joined_of_count ?_
    have hjoined := (joined_sublist (fence (bright cs))).count_le '\n'
    have hsettled := (settled_sublist (bright cs)).count_le '\n'
    rw [hcount, hstrip] at hsettled
    rw [count_fence, count_bright (by decide)] at hjoined ⊢
    omega
  rw [settled, hstrip, emptyLines_blind.replaceFinds_of_none hnone, (fence_tight _).trimChars_eq] at h
  have hsame : bright cs = cs := fence_inj h
  rw [hsame] at hentities htags hnone
  exact {
    apostrophe := hapostrophe
    entities := fun e he hpart => hentities e he (hpart.trans (infix_fence cs))
    tags := tagFree_iff.mp htags
    emptyLines := fun hpart => by
      rcases hpart.trans (infix_fence cs) with ⟨front, after, hsplit⟩
      rw [append_assoc] at hsplit
      exact emptyLines_eq_none_iff.mp (hnone _ ⟨front, hsplit⟩) (prefix_append _ after)
    colours := bright_eq_self_iff.mp hsame }

lemma settled_eq_iff (htight : Tight cs) :
  settled (extracted (bright cs)) = fence cs ↔ Durable cs := by
  refine ⟨durable_of_settled htight, fun h => ?_⟩
  rw [bright_eq_self_iff.mpr h.colours, extracted_of_durable htight h, settled_of_durable htight h]

variable {code : String} {v : Vocabulary}

lemma written_tight (c : Char) (h : isBlank c = false) : Tight (written codeEntities c) := by
  by_cases hc : c ∈ codeEntities.map Prod.fst
  · have hkeys : ∀ k ∈ codeEntities.map Prod.fst, (∀ d ∈ (written codeEntities k).head?, isBlank d = false) ∧
          ∀ d ∈ (written codeEntities k).getLast?, isBlank d = false := by decide
    exact ⟨(hkeys c hc).1, (hkeys c hc).2⟩
  · rw [written_of_not_key hc]
    refine ⟨?_, ?_⟩ <;>
    · rintro d ⟨rfl⟩
      exact h

lemma written_ne_nil (c : Char) : written codeEntities c ≠ [] := by
  by_cases hc : c ∈ codeEntities.map Prod.fst
  · have hkeys : ∀ k ∈ codeEntities.map Prod.fst, written codeEntities k ≠ [] := by decide
    exact hkeys c hc
  · rw [written_of_not_key hc]
    exact cons_ne_nil c []

lemma listing_escaped (htight : Tight code.toList) :
  trimRight (brighten (unwrapped (escapeCode code))) = escapeCode (brighten code) := by
  have hunwrapped : unwrapped (escapeCode code) = escapeCode code :=
    unwrapped_eq_self ((escapeCode_plain code).woven)
  have hchars : (brighten (escapeCode code)).toList = (escapeCode (brighten code)).toList := by
    rw [brighten_toList, escapeCode_toList, bright_escaped, escapeCode_toList, brighten_toList]
  have htrim : Tight (escapeCode (brighten code)).toList := by
    rw [escapeCode_toList, brighten_toList]
    exact (bright_tight htight).flatMap written_ne_nil written_tight
  rw [hunwrapped, trimRight, hchars, htrim.trimRightChars_eq, ofList_toList]

/-- Fenced code of no language, on pages and in Markdown. Pages show the code as long as it does not
mention the dark colour, which is made bright in code as well; Markdown has it back exactly if
nothing of it is lost on the way. -/
theorem fenced_shown_iff (config : Option Json) (hfence : ∀ line ∈ lines code, isFence line = false)
  (htight : Tight code.toList) (hshade : v.shade "text" code = escapeCode code) :
  outcome (document config (fenced code)) v =
      (.ok (fencedMarkup (escapeCode (brighten code))), v) ∧
    (shown (escapeCode (brighten code)).toList = code.toList ↔
      ¬ "#00F".toList <:+: code.toList ∧ ¬ "#00f".toList <:+: code.toList) ∧
    (toMarkdown (fencedMarkup (escapeCode (brighten code))) = fenced code ↔
      Durable code.toList) := by
  refine ⟨?_, ?_, ?_⟩
  · rw [outcome_fenced hfence htight, hshade, listing_escaped htight]
  · rw [escapeCode_toList, shown_escaped, brighten_toList, bright_eq_self_iff]
  · have hplain : '<' ∉ (escapeCode (brighten code)).toList := fun h => by
      have hinert := escapeCode_plain (brighten code) '<' h
      revert hinert
      decide
    have hmarkdown := toMarkdown_fencedMarkup hplain
    rw [String.ofList_toList, escapeCode_toList, brighten_toList] at hmarkdown
    rw [← settled_eq_iff htight, ← String.toList_inj, hmarkdown, fenced_toList]
    rfl

theorem fenced_shown_iff_comparison :
  ({} : Vocabulary).shade "text" "a < \"b\" && c" = escapeCode "a < \"b\" && c" ∧
    toMarkdown (fencedMarkup (escapeCode (brighten "a < \"b\" && c"))) =
      fenced "a < \"b\" && c" ∧
    ({} : Vocabulary).shade "text" "it's" = escapeCode "it's" ∧
    toMarkdown (fencedMarkup (escapeCode (brighten "it's"))) ≠ fenced "it's" := by
  have hkept : ({} : Vocabulary).shade "text" "a < \"b\" && c" = escapeCode "a < \"b\" && c" := by
    decide +kernel
  have hlost : ({} : Vocabulary).shade "text" "it's" = escapeCode "it's" := by decide +kernel
  have hcode := fenced_shown_iff none (by decide +kernel)
    ⟨by decide +kernel, by decide +kernel⟩ hkept
  have hword := fenced_shown_iff none (by decide +kernel)
    ⟨by decide +kernel, by decide +kernel⟩ hlost
  refine ⟨hkept, hcode.2.2.mpr ?_, hlost, fun h => ?_⟩
  · exact {
      apostrophe := by decide +kernel
      entities := by decide +kernel
      tags := fun body _ _ hpart => by
        have hclosed : '>' ∈ "a < \"b\" && c".toList := hpart.subset (by simp)
        exact absurd hclosed (by decide +kernel)
      emptyLines := by decide +kernel
      colours := by decide +kernel }
  · exact absurd (hword.2.2.mp h).apostrophe (by decide +kernel)

end KeywordDocs.Page
