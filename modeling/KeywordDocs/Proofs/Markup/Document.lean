import KeywordDocs.Proofs.Highlight.Listing
import KeywordDocs.Proofs.Markup.Nesting
import Mathlib.Tactic.IntervalCases

/-!
# Rendered Documentation

For every documentation text, whatever the highlighter remembers, the lines of its page are balanced: a list
or a piece of fenced code that is opened is closed, and nothing stands where it must not.
-/

namespace KeywordDocs.Markup

open Text Highlight List
open String (toList_append)

variable {config : Option Json} {v : Vocabulary} {line : String} {f : Fragment} {fs : List Fragment}

/-- The fronts of the lines that matter for the nesting of lists and fenced code. -/
def partFronts : List (String × Part) :=
  [("<ul>", .listOpen), ("</ul>", .listClose), ("<div class=\"code-block\"><pre", .codeOpen),
    ("</pre></div>", .codeClose), ("<li>", .item), ("<p>", .paragraph), ("<h1>", .heading),
    ("<h2>", .heading), ("<h3>", .heading), ("<h4>", .heading), ("<h5>", .heading),
    ("<h6>", .heading)]

def partOf (line : String) : Part :=
  ((partFronts.find? fun front => startsWith front.1 line).map Prod.snd).getD .other

lemma partFronts_prefixFree :
  ∀ a ∈ partFronts, ∀ b ∈ partFronts, a.1.toList <+: b.1.toList → a = b := by
  decide +kernel

lemma partOf_eq {front line : String} {part : Part} (hmem : (front, part) ∈ partFronts)
  (h : front.toList <+: line.toList) : partOf line = part := by
  have hstart : startsWith front line := isPrefixOf_iff_prefix.mpr h
  unfold partOf
  cases hfound : partFronts.find? fun front => startsWith front.1 line with
  | none => exact absurd hstart (by simpa using find?_eq_none.mp hfound _ hmem)
  | some other =>
    have hotherStart := find?_some hfound
    have hother : other.1.toList <+: line.toList := isPrefixOf_iff_prefix.mp hotherStart
    have hin := mem_of_find?_eq_some hfound
    -- Both are fronts of the line, so one of them is a front of the other.
    have heq : other = (front, part) := by
      rcases prefix_or_prefix_of_prefix hother h with hp | hp
      · exact partFronts_prefixFree _ hin _ hmem hp
      · exact (partFronts_prefixFree _ hmem _ hin hp).symm
    rw [heq]
    rfl

lemma partOf_other (h : ∀ front ∈ partFronts, ¬ front.1.toList <+: line.toList) :
  partOf line = .other := by
  have hnone : (partFronts.find? fun front => startsWith front.1 line) = none := by
    refine find?_eq_none.mpr fun front hfront hstart => ?_
    exact h front hfront (List.isPrefixOf_iff_prefix.mp hstart)
  rw [partOf, hnone]
  rfl

lemma partOf_other_of_prefix {s line : String} (h : s.toList <+: line.toList)
  (hfronts : ∀ front ∈ partFronts, ¬ front.1.toList <+: s.toList ∧ ¬ s.toList <+: front.1.toList) :
  partOf line = .other := by
  refine partOf_other fun front hfront hstarts => ?_
  rcases prefix_or_prefix_of_prefix hstarts h with hp | hp
  · exact (hfronts front hfront).1 hp
  · exact (hfronts front hfront).2 hp

lemma partOf_code (h : Woven SpanTag line.toList) : partOf line = .other := by
  refine partOf_other fun front hfront hstarts => ?_
  -- An angle bracket in code is followed by the name of a coloured stretch, and in no front it is.
  have hfronts : ∀ front ∈ partFronts, ∃ rest, front.1.toList = '<' :: rest ∧ 2 ≤ rest.length ∧
      ¬ ['s'] <+: rest ∧ ¬ ['/', 's'] <+: rest := by
    intro front hfront
    refine ⟨front.1.toList.tail, ?_⟩
    revert front
    decide
  rcases hfronts front hfront with ⟨rest, hrest, hlen, hs, hslash⟩
  rcases hstarts with ⟨after, hafter⟩
  rw [hrest] at hafter
  rw [← hafter] at h
  exact (spanTag_front h (suffix_refl _) hlen).elim hs hslash

/-- What a fragment becomes: a line that is the same part, woven of the tags of a page unless it
names a language. -/
structure Fragment.Shows (f : Fragment) (line : String) : Prop where
  part : partOf line = f.part
  opening : ∀ language, f = .codeOpen language → line = codeOpening language
  woven : f.part ≠ .codeOpen → Woven PageTag line.toList

lemma Fragment.Shows.of_woven (h : Woven PageTag line.toList) (hf : f.part ≠ .codeOpen := by decide)
    (hpart : partOf line = f.part := by decide) : f.Shows line where
  part := hpart
  opening language heq := by
    subst heq
    cases hf rfl
  woven _ := h

lemma Fragment.Shows.of_element {p : Part} (hpart : f.part = p) (hp : p ≠ .codeOpen)
  {opening closing : String} (hfront : (opening, p) ∈ partFronts)
  (hopening : opening ∈ fixedTags) (hclosing : closing ∈ fixedTags) (text : String) :
  f.Shows (opening ++ inline text ++ closing) := by
  refine .of_woven (page_element_woven hopening hclosing (inline_woven text)) (hpart ▸ hp) ?_
  rw [hpart]
  refine partOf_eq hfront ?_
  rw [toList_append, toList_append, append_assoc]
  exact prefix_append _ _

lemma table_part (lines : List String) : partOf (table lines) = .other := by
  unfold table
  split
  · exact partOf_other (by decide)
  · have hrest : ∀ ls : List String, ls ≠ [] → unlines (["<table class=\"doc-table\">"] ++ ls) =
          "<table class=\"doc-table\">" ++ "\n" ++ unlines ls := by
      intro ls hls
      cases ls with
      | nil => cases hls rfl
      | cons l ls => rfl
    rw [append_assoc, hrest _ (by simp)]
    refine partOf_other_of_prefix (s := "<table") ?_ (by decide)
    have hliteral : "<table".toList <+: "<table class=\"doc-table\">".toList := by decide
    rw [toList_append, toList_append, append_assoc]
    exact hliteral.trans (prefix_append _ _)

lemma codeOpening_toList (language : String) : (codeOpening language).toList =
  Attribute.language.opening.toList ++ language.toList ++ "\">".toList := by
  unfold codeOpening
  rw [toList_append]
  rw [toList_append]
  rfl

lemma render_yields (hf : f.WellFormed) :
  Yields config (f.render config) v fun line => Colours v.shade → f.Shows line := by
  cases f with
  | listOpen => exact .pure fun _ => .of_woven fixed_woven
  | listClose => exact .pure fun _ => .of_woven fixed_woven
  | codeOpen language =>
    have hfront : "<div class=\"code-block\"><pre".toList <+: (codeOpening language).toList := by
      have hliteral : "<div class=\"code-block\"><pre".toList <+:
          Attribute.language.opening.toList := by decide
      rw [codeOpening_toList, append_assoc]
      exact hliteral.trans (prefix_append _ _)
    refine .pure fun _ => ⟨partOf_eq (by decide : (_, Part.codeOpen) ∈ partFronts) hfront, ?_, ?_⟩
    · intro language' heq
      cases heq
      rfl
    · exact fun hne => absurd rfl hne
  | codeClose =>
    refine .pure fun _ => .of_woven ?_
    exact Woven.append (fixed_woven (s := "</pre>"))
      (fixed_woven (s := "</div>"))
  | code language lines =>
    refine (listing_yields language (unlines lines)).mono fun line hline hv => ?_
    exact .of_woven ((hline hv).mono pageTag_of_spanTag) nofun (partOf_code (hline hv))
  | heading level text =>
    rcases hf with ⟨hpos, hle⟩
    have htag : ("<" ++ ("h" ++ Number.ofInt level) ++ ">", Part.heading) ∈ partFronts ∧
        "<" ++ ("h" ++ Number.ofInt level) ++ ">" ∈ fixedTags ∧
        "</" ++ ("h" ++ Number.ofInt level) ++ ">" ∈ fixedTags := by
      interval_cases level <;> decide
    have hshows := Fragment.Shows.of_element (f := .heading level text) (p := .heading) rfl
      (by decide) htag.1 htag.2.1 htag.2.2 text
    rw [← String.append_assoc, ← String.append_assoc] at hshows
    exact .pure fun _ => hshows
  | item text =>
    exact .pure fun _ => .of_element (p := .item) rfl (by decide) (by decide) (by decide) (by decide) text
  | paragraph text =>
    exact .pure fun _ =>
      .of_element (p := .paragraph) rfl (by decide) (by decide) (by decide) (by decide) text
  | rule => exact .pure fun _ => .of_woven fixed_woven
  | gap => exact .pure fun _ => .of_woven fixed_woven
  | table lines => exact .pure fun _ => .of_woven (table_woven lines) nofun (table_part lines)

lemma documentLines_yields (config : Option Json) (content : String) :
  Yields config (documentLines config content) v
    fun lines => Colours v.shade → List.Forall₂ Fragment.Shows (fragments content) lines := by
  have hlines : Yields config (documentLines config content) v fun lines => List.Forall₂
      (fun f line => Colours v.shade → f.Shows line) (fragments content) lines := by
    refine Yields.mapM fun f hf v' hkept => ?_
    rw [← hkept.shade]
    exact render_yields (fragments_wellFormed content f hf)
  exact hlines.mono fun lines hall hv => hall.imp fun f line hline => hline hv

lemma document_yields (config : Option Json) (content : String) :
  Yields config (document config content) v fun page => Colours v.shade → ∃ lines,
    List.Forall₂ Fragment.Shows (fragments content) lines ∧ page = unlines lines :=
  (documentLines_yields config content).bind fun lines _ _ hlines => .pure fun hv => ⟨lines, hlines hv, rfl⟩

lemma map_partOf {lines : List String}
  (h : List.Forall₂ Fragment.Shows fs lines) : lines.map partOf = fs.map Fragment.part := by
  induction h with
  | nil => rfl
  | cons hf _ ih => rw [map_cons, map_cons, hf.part, ih]

/-- The lines of a page are balanced: every list and every piece of fenced code that is opened is
closed, no list opens or closes in fenced code, items are in lists, and headings and paragraphs
are in neither. There is a page whenever all names in use are texts. -/
theorem documentLines_balanced (config : Option Json) (content : String) (v : Vocabulary)
  (hv : Colours v.shade) :
  (Named config v → ∃ lines, (outcome (documentLines config content) v).1 = .ok lines) ∧
    ∀ lines, (outcome (documentLines config content) v).1 = .ok lines →
      BlockBalanced (lines.map partOf) := by
  have hyields := documentLines_yields config content (v := v)
  refine ⟨hyields.total, fun lines hlines => ?_⟩
  rw [map_partOf (hyields.result lines hlines hv)]
  exact fragments_balanced content

/-- Fenced code in a list: the list stays open around it. -/
theorem documentLines_balanced_fence_in_list : Colours ({} : Vocabulary).shade ∧
    BlockBalanced (["<ul>", "<li>a</li>", "<div class=\"code-block\"><pre class=\"language-text\">",
      "&lt;ul&gt;", "</pre></div>", "<li>b</li>", "</ul>", "<p>c</p>"].map partOf) :=
  ⟨standardShader_colours,
    (documentLines_balanced none "- a\n```\n<ul>\n```\n- b\nc" {} standardShader_colours).2 _
      (by decide +kernel)⟩

lemma quote_not_mem_language {language value a b : List Char} (hline : '\n' ∉ language)
  (hvalue : '"' ∉ value)
  (h : language ++ '"' :: '>' :: '\n' :: a = value ++ '"' :: '>' :: '\n' :: b) :
  '"' ∉ language := by
  intro hmem
  rcases eq_append_cons_of_mem hmem with ⟨front, after, rfl, hfront⟩
  rw [append_assoc, cons_append] at h
  have htail := (append_cons_inj hfront hvalue h).2
  cases after with
  | nil => exact absurd (cons.inj htail).1 (by decide)
  | cons c after =>
    have hnext := (cons.inj htail).2
    cases after with
    | nil => exact absurd (cons.inj hnext).1 (by decide)
    | cons d after =>
      have hd : d = '\n' := (cons.inj hnext).1
      exact hline (by simp [hd])

lemma codeOpening_woven_iff {language : String} (hline : '\n' ∉ language.toList)
  (rest : List Char) :
  Woven PageTag ((codeOpening language).toList ++ '\n' :: rest) ↔
    Plain language.toList ∧ Woven PageTag rest := by
  have htext : (codeOpening language).toList ++ '\n' :: rest =
      Attribute.language.opening.toList ++ (language.toList ++ '"' :: '>' :: '\n' :: rest) := by
    rw [codeOpening_toList]
    simp
  constructor
  · intro h
    rw [htext] at h
    -- The text starts with the front of a tag that opens fenced code, so it is read as such a tag.
    generalize hl : Attribute.language.opening.toList ++
      (language.toList ++ '"' :: '>' :: '\n' :: rest) = l at h
    cases h with
    | nil => cases (append_ne_nil_of_left_ne_nil (by decide) _) hl
    | char c cs hc h =>
      have hhead := congrArg List.head? hl
      rw [head?_append_of_ne_nil _ (by decide), head?_cons] at hhead
      have hlt : some '<' = some c := hhead
      cases (isInert_ne_lt hc) (Option.some.inj hlt).symm
    | tag t cs ht h =>
      cases ht with
      | fixed t ht =>
        rcases ht with ⟨s, hs, rfl⟩
        have heq := tagHeads_inj Attribute.language.opening_mem (fixedTags_subset hs) hl
        cases Attribute.language.opening_not_fixed (heq ▸ hs)
      | valued f value hvalue =>
        rw [append_assoc, append_assoc] at hl
        obtain rfl : Attribute.language = f :=
          Attribute.opening_inj (tagHeads_inj Attribute.language.opening_mem f.opening_mem hl)
        have hvalues : language.toList ++ '"' :: '>' :: '\n' :: rest =
            value ++ '"' :: '>' :: '\n' :: cs := by
          have hcancel := append_cancel_left hl
          simpa [Attribute.closing] using hcancel
        have hquote : '"' ∉ language.toList := quote_not_mem_language hline
          hvalue.quote_not_mem hvalues
        rcases append_cons_inj hquote hvalue.quote_not_mem hvalues with ⟨hlanguage, hrest⟩
        simp only [List.cons.injEq, true_and] at hrest
        rw [hlanguage, hrest]
        exact ⟨hvalue, h⟩
  · rintro ⟨hplain, hrest⟩
    rw [htext]
    have htag := Woven.tag _ rest (PageTag.valued .language language.toList hplain) hrest
    simpa [Attribute.closing] using htag

lemma getLast?_ne_codeOpen (h : BlockBalanced (fs.map Fragment.part))
  (language : String) : fs.getLast? ≠ some (.codeOpen language) := by
  intro hlast
  rcases getLast?_eq_some_iff.mp hlast with ⟨front, rfl⟩
  rw [BlockBalanced, map_append, Nest.run_append] at h
  rcases Option.bind_eq_some_iff.mp h with ⟨n, -, hstep⟩
  have hcode : (if n.inCode then none else some { n with inCode := true }) = some {} := by
    rw [map_singleton, Nest.run_cons] at hstep
    rcases Option.bind_eq_some_iff.mp hstep with ⟨m, hm, hend⟩
    cases hend
    exact hm
  split at hcode
  · cases hcode
  · injection hcode with hcode
    injection hcode with _ hinCode
    cases hinCode

lemma unlines_woven_iff {lines : List String}
  (h : List.Forall₂ Fragment.Shows fs lines) (hwell : ∀ f ∈ fs, f.WellFormed)
  (hlast : ∀ language, fs.getLast? ≠ some (.codeOpen language)) :
  Woven PageTag (unlines lines).toList ↔ ∀ language, .codeOpen language ∈ fs → Plain language.toList := by
  -- The induction is on the fragments. A line is followed by a line feed unless it is the last one,
  -- and the last one does not open fenced code.
  induction fs generalizing lines with
  | nil =>
    cases h
    exact ⟨fun _ _ hmem => (not_mem_nil hmem).elim, fun _ => .nil⟩
  | cons f fs ih =>
    rcases lines with _ | ⟨line, lines⟩
    · cases h
    rcases forall₂_cons.mp h with ⟨hf, hrest⟩
    cases fs with
    | nil =>
      cases hrest
      have hpart : f.part ≠ .codeOpen := by
        intro hpart
        cases f with
        | codeOpen language => cases (hlast language) rfl
        | _ => cases hpart
      refine ⟨fun _ language hmem => ?_, fun _ => hf.woven hpart⟩
      rw [mem_singleton] at hmem
      subst hmem
      cases hpart rfl
    | cons g fs =>
      rcases lines with _ | ⟨line', lines⟩
      · cases hrest
      have htail := ih hrest (fun f' hf' => hwell f' (mem_cons_of_mem f hf'))
        (fun language => by simpa using hlast language)
      have htext : (unlines (line :: line' :: lines)).toList =
          line.toList ++ '\n' :: (unlines (line' :: lines)).toList := by
        unfold unlines
        rw [join, toList_append, toList_append]
        · simp
        · exact cons_ne_nil _ _
      rw [htext]
      -- Only the line that opens fenced code needs what follows it to be read as a whole tag.
      by_cases hpart : f.part = .codeOpen
      · cases f with
        | codeOpen language =>
          rw [hf.opening language rfl, codeOpening_woven_iff (hwell _ mem_cons_self), htail]
          constructor
          · rintro ⟨hplain, hall⟩ language' hmem
            rcases mem_cons.mp hmem with heq | hmem
            · cases heq
              exact hplain
            · exact hall language' hmem
          · exact fun hall => ⟨hall language mem_cons_self,
              fun language' hmem => hall language' (mem_cons_of_mem _ hmem)⟩
        | _ => cases hpart
      · have hline := hf.woven hpart
        have hcut : Woven PageTag (line.toList ++ '\n' :: (unlines (line' :: lines)).toList) ↔
            Woven PageTag (unlines (line' :: lines)).toList :=
          ⟨fun h => (Woven.cancel pageTag_opens pageTag_prefixFree hline h).tail pageTag_opens
            (by decide), fun h => hline.append (.char '\n' _ (by decide) h)⟩
        rw [hcut, htail]
        constructor
        · intro hall language hmem
          rcases mem_cons.mp hmem with heq | hmem
          · subst heq
            cases hpart rfl
          · exact hall language hmem
        · exact fun hall language hmem => hall language (mem_cons_of_mem _ hmem)

/-- A page is woven of the tags of a page exactly if the languages that its fences name are plain.
There is a page whenever all names in use are texts. -/
theorem document_woven_iff (config : Option Json) (content : String) (v : Vocabulary)
  (hv : Colours v.shade) :
  (Named config v → ∃ page, (outcome (document config content) v).1 = .ok page) ∧
    ∀ page, (outcome (document config content) v).1 = .ok page → (Woven PageTag page.toList ↔
        ∀ language, .codeOpen language ∈ fragments content → Plain language.toList) := by
  have hyields := document_yields config content (v := v)
  refine ⟨hyields.total, fun page hpage => ?_⟩
  rcases hyields.result page hpage hv with ⟨lines, hlines, rfl⟩
  exact unlines_woven_iff hlines (fragments_wellFormed content)
    (getLast?_ne_codeOpen (fragments_balanced content))

/-- A language with a quotation mark ends its attribute: what follows it becomes a tag. The same code
under a plain language does not. -/
theorem document_woven_iff_quoted_language : Colours ({} : Vocabulary).shade ∧ ¬ Woven PageTag
      "<div class=\"code-block\"><pre class=\"language-x\"><b>\">\ncode\n</pre></div>".toList ∧
    Woven PageTag
      "<div class=\"code-block\"><pre class=\"language-x\">\n&lt;b&gt;\n</pre></div>".toList := by
  have hquoted := (document_woven_iff none "```x\"><b>\ncode\n```" {} standardShader_colours).2
    "<div class=\"code-block\"><pre class=\"language-x\"><b>\">\ncode\n</pre></div>"
    (by decide +kernel)
  have hplain := (document_woven_iff none "```x\n<b>\n```" {} standardShader_colours).2
    "<div class=\"code-block\"><pre class=\"language-x\">\n&lt;b&gt;\n</pre></div>"
    (by decide +kernel)
  have hfragments : fragments "```x\n<b>\n```" = [.codeOpen "x", .code "x" ["<b>"], .codeClose] := by
    decide +kernel
  refine ⟨standardShader_colours, fun hwoven => ?_, hplain.mpr fun language hmem => ?_⟩
  · exact absurd (hquoted.mp hwoven "x\"><b>" (by decide +kernel)) (by decide)
  · simp only [hfragments, mem_cons, Fragment.codeOpen.injEq, reduceCtorEq, not_mem_nil,
      or_false] at hmem
    rw [hmem]
    decide

end KeywordDocs.Markup
