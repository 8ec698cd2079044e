import KeywordDocs.Proofs.Highlight.Listing
import KeywordDocs.Proofs.Highlight.Markers
import KeywordDocs.Proofs.Markup.Signs

/-!
# What Coloured Lines Show

Tags aside, a coloured line should show the line as it was escaped. It shows a marker if and only if a
search has swallowed one (`highlightLine_leaks`).
-/

namespace KeywordDocs.Highlight

open Text Markup List
open Only (closed withoutTags)

variable {config : Option Json} {v : Vocabulary}

variable {d e : Nat} {part u : List Char} {p : Char → Bool} [Textual p]

lemma highlightComment_shows (h : Only p part) :
  (placeholder <:+: highlightComment Ink.comment.span part ↔ placeholder <:+: part) ∧
    withoutTags (highlightComment Ink.comment.span part) = part := by
  unfold highlightComment
  split
  case h_2 => exact ⟨.rfl, h.withoutTags⟩
  case h_1 front comment rest hsplit =>
    rcases splitComment_eq_some hsplit with ⟨rfl, hhead, hrest⟩
    rcases head?_eq_some_iff.mp hhead with ⟨body, rfl⟩
    constructor
    · have hend : ∀ a : List Char, placeholder <:+: a ++ rest ↔ placeholder <:+: a := by
        intro a
        rcases hrest with rfl | rfl
        · rw [append_nil]
        · rw [infix_append_cons_iff (by decide), or_iff_left (by decide)]
      have hnone : ¬ placeholder <:+: rest := fun hin => absurd ((hend []).mp hin) (by decide)
      rw [Ink.span, append_assoc, append_assoc, append_assoc,
        placeholder_infix_tag (.opening .comment), placeholder_infix_tag .closing, or_iff_left hnone, hend,
        infix_append_cons_iff (by decide), ← nil_append ('#' :: body),
        infix_append_cons_iff (by decide), or_iff_right (a := placeholder <:+: []) (by decide)]
    · rw [append_assoc] at h
      rcases forall_mem_append.mp h with ⟨hfront, h⟩
      rcases forall_mem_append.mp h with ⟨hcomment, hrest⟩
      have hbody := closed hcomment
      rw [append_assoc, ((closed hfront) 0).withoutTags_append,
        (span_closed .comment hbody 0).withoutTags_append, withoutTags_span _ hbody,
        withoutTags hfront, withoutTags hcomment, withoutTags hrest, append_assoc]

lemma highlightComments_shows (h : Nested p d e u) :
  (placeholder <:+: highlightComments u ↔ placeholder <:+: u) ∧
    withoutTags (highlightComments u) = withoutTags u := by
  refine h.stretches (motive := fun _ _ u => (placeholder <:+: highlightComments u ↔ placeholder <:+: u) ∧
    withoutTags (highlightComments u) = withoutTags u) ?_ ?_
  · intro _ part hpart
    rw [highlightComments_run (hpart.not_mem Textual.lt), hpart.withoutTags]
    exact highlightComment_shows hpart
  · intro d d' e part t cs hpart ht ih
    have hshows := highlightComment_shows hpart
    have hclosed := highlightComment_closed hpart
    have htag := fun a cs => placeholder_infix_tag ht.tag a cs
    have herased := fun cs => withoutTags_tag ht cs
    rcases ht.body with ⟨c, body, rfl, hbody⟩
    rw [highlightComments_tag (hpart.not_mem Textual.lt) hbody, htag, htag, hshows.1, ih.1,
      (hclosed 0).withoutTags_append, (hpart.closed 0).withoutTags_append, herased, herased, ih.2, hshows.2,
      hpart.withoutTags]
    exact ⟨.rfl, rfl⟩

lemma Nested.placeholder_withoutTags (h : Nested p d e u) :
  placeholder <:+: u → placeholder <:+: withoutTags u := by
  refine h.stretches (motive := fun _ _ u => placeholder <:+: u → placeholder <:+: withoutTags u) ?_ ?_
  · intro _ part hpart
    rw [hpart.withoutTags]
    exact id
  · intro d d' e part t cs hpart ht ih hin
    rw [(hpart.closed 0).withoutTags_append, withoutTags_tag ht, hpart.withoutTags]
    rcases (placeholder_infix_tag ht.tag _ _).mp hin with hin | hin
    · exact hin.trans (prefix_append _ _).isInfix
    · exact (ih hin).trans (suffix_append _ _).isInfix

variable {line : List Char} {r : Portions}

lemma placeholder_infix_append {cs : List Char} (h : ∀ c ∈ cs, c ∉ placeholder) (x : List Char) :
  placeholder <:+: cs ++ x ↔ placeholder <:+: x := by
  induction cs with
  | nil => rfl
  | cons c cs ih =>
    rw [forall_mem_cons] at h
    rw [← nil_append (c :: cs ++ x), cons_append, infix_append_cons_iff h.1, or_iff_right (by decide), ih h.2]

lemma placeholder_infix_blanks {cs : List Char} (h : cs.all isBlank) (x : List Char) :
  placeholder <:+: cs ++ x ↔ placeholder <:+: x := by
  refine placeholder_infix_append (fun c hc hin => ?_) x
  have hnone : ∀ c ∈ placeholder, isBlank c = false := by decide
  have hblank := all_eq_true.mp h c hc
  rw [hnone c hin] at hblank
  cases hblank

lemma placeholder_infix_span (ink : Ink) {a part : List Char} (ha : a.all isBlank)
  (hpart : ¬ placeholder <:+: part) (x : List Char) :
  placeholder <:+: a ++ (ink.span part ++ x) ↔ placeholder <:+: x := by
  have hnone : ¬ placeholder <:+: a := by
    rw [← append_nil a, placeholder_infix_blanks ha]
    decide
  rw [Ink.span, append_assoc, append_assoc, placeholder_infix_tag (.opening ink),
    or_iff_right hnone, placeholder_infix_tag .closing, or_iff_right hpart]

lemma withoutTags_around (ink : Ink) {a part x : List Char} (h : Safe (a ++ part ++ x)) :
  Closed (a ++ (ink.span part ++ x)) ∧ withoutTags (a ++ (ink.span part ++ x)) = a ++ part ++ x := by
  rcases forall_mem_append.mp h with ⟨h, hx⟩
  rcases forall_mem_append.mp h with ⟨ha, hpart⟩
  have hspan := span_closed ink (closed hpart)
  refine ⟨(closed ha).append (hspan.append (closed hx)), ?_⟩
  rw [(closed ha 0).withoutTags_append, (hspan 0).withoutTags_append,
    withoutTags_span ink (closed hpart), withoutTags ha, withoutTags hpart,
    withoutTags hx, append_assoc]

lemma Reads.placeholder_start (h : Reads line r) (hline : ¬ placeholder <:+: line) {x : List Char}
  (hx : r.text = [] → x = []) : placeholder <:+: r.start ++ x ↔ placeholder <:+: x := by
  have hwithin : ∀ a part b, line = a ++ part ++ b → ¬ placeholder <:+: part := fun a part b heq hin =>
    hline (hin.trans ⟨a, b, heq.symm⟩)
  cases h with
  | whole ink names =>
    obtain rfl := hx rfl
    simpa [Portions.start, paint] using placeholder_infix_span (a := []) ink rfl hline []
  | @setting name indent rest blanks names hname hindent hblanks heq =>
    obtain rfl := hx rfl
    have hrest := hwithin (indent ++ name.toList) rest blanks heq
    have hname := hwithin indent name.toList (rest ++ blanks) (by simp [heq])
    have hnil : ¬ placeholder <:+: [] := by decide
    simpa [Portions.start, paint, hrest, hnil] using placeholder_infix_span .setting hindent hname rest
  | searched indent content names hindent heq =>
    simpa [Portions.start, paint] using placeholder_infix_blanks hindent x
  | keyword ink indent name rest names hindent hne hends heq =>
    have hname := hwithin indent name rest heq
    have hblank : (if !rest.isEmpty then [' '] else []).all isBlank := by split <;> rfl
    have hspace := placeholder_infix_blanks hblank x
    simpa [Portions.start, paint] using (placeholder_infix_span ink hindent hname _).trans hspace

lemma Reads.erased_start (h : Reads line r) (hsafe : Safe line)
  (hlast : ∀ c ∈ line.getLast?, isBlank c = false) :
  Closed r.start ∧ ∃ front, line = front ++ r.text ∧
    withoutTags r.start = front ++ if r.spaced then [' '] else [] := by
  cases h with
  | whole ink names =>
    have h := withoutTags_around (a := []) (x := []) ink (by simpa using hsafe)
    exact ⟨by simpa [Portions.start, paint] using h.1, line, (append_nil line).symm,
      by simpa [Portions.start, paint] using h.2⟩
  | @setting name indent rest blanks names hname hindent hblanks heq =>
    have hnone : blanks = [] := by
      by_contra hne
      have hin := getLast_mem hne
      rw [heq, getLast?_append, getLast?_eq_some_getLast hne] at hlast
      have hblank := hlast _ rfl
      rw [all_eq_true.mp hblanks _ hin] at hblank
      cases hblank
    rw [hnone, append_nil] at heq
    have h := withoutTags_around .setting (heq ▸ hsafe)
    exact ⟨by simpa [Portions.start, paint] using h.1, line, (append_nil line).symm,
      by simpa [Portions.start, paint, heq] using h.2⟩
  | searched indent content names hindent heq =>
    have hindent : Safe indent := hsafe.of_subset (heq ▸ subset_append_left _ _)
    exact ⟨by simpa [Portions.start, paint] using hindent.closed, indent, heq,
      by simp [Portions.start, paint, hindent.withoutTags]⟩
  | keyword ink indent name rest names hindent hne hends heq =>
    have hname : Safe (indent ++ name) := hsafe.of_subset (heq ▸ subset_append_left _ _)
    have h := withoutTags_around (x := if !rest.isEmpty then [' '] else []) ink
      (forall_mem_append.mpr ⟨hname, by split <;> simp [isSafe, isInert]⟩)
    exact ⟨by simpa [Portions.start, paint] using h.1, indent ++ name, heq,
      by simpa [Portions.start, paint] using h.2⟩

lemma Reads.text_within (h : Reads line r) : r.text <:+: line := by
  cases h with
  | whole | setting => exact nil_infix
  | searched indent content names hindent heq => exact ⟨indent, [], by simp [heq]⟩
  | keyword ink indent name rest names hindent hne hends heq => exact ⟨indent ++ name, [], by simp [heq]⟩

variable {line : String}

lemma placeholder_infix_escape : placeholder <:+: (escape line).toList ↔ placeholder <:+: line.toList := by
  have hgeneral : ∀ cs a : List Char,
      placeholder <:+: a ++ cs.flatMap (written entities) ↔ placeholder <:+: a ++ cs := by
    intro cs
    induction cs with
    | nil => exact fun a => .rfl
    | cons c cs ih =>
      intro a
      rw [flatMap_cons]
      rcases written_entities c with ⟨e, he, rfl, hwritten⟩ | ⟨_, hwritten⟩
      · have hchars : ∀ e ∈ entities, e.1 ∉ placeholder ∧ e.2.toList.head? = some '&' ∧
          ∀ c ∈ e.2.toList, c ∉ placeholder := by decide
        rcases hchars e he with ⟨hkey, hhead, hentity⟩
        rcases head?_eq_some_iff.mp hhead with ⟨tail, htail⟩
        rw [htail] at hentity
        rw [hwritten, htail, cons_append, infix_append_cons_iff (by decide),
          placeholder_infix_append (forall_mem_cons.mp hentity).2, infix_append_cons_iff hkey]
        exact or_congr .rfl (ih [])
      · rw [hwritten, ← append_assoc, ih, append_assoc, singleton_append]
  rw [escape_toList]
  exact hgeneral line.toList []

lemma escape_last (h : ∀ c ∈ line.toList.getLast?, isBlank c = false) :
  ∀ c ∈ (escape line).toList.getLast?, isBlank c = false := by
  rw [escape_toList]
  rcases eq_nil_or_concat' line.toList with hnil | ⟨cs, c, hline⟩
  · rw [hnil]
    intro c hc
    cases hc
  · rw [hline, getLast?_append] at h
    have hc := h c rfl
    rw [hline, flatMap_append, flatMap_singleton, getLast?_append]
    rcases written_entities c with ⟨e, he, rfl, hwritten⟩ | ⟨_, hwritten⟩
    · have hlast : ∀ e ∈ entities, e.2.toList.getLast? = some ';' := by decide
      rw [hwritten, hlast e he]
      rintro _ ⟨⟩
      rfl
    · rw [hwritten]
      rintro _ ⟨⟩
      exact hc

variable {line : List Char}

lemma Reads.colour_leaks (h : Reads line r) (hsafe : Safe line) (hline : ¬ placeholder <:+: line) :
  placeholder <:+: r.colour ↔ Leaks (longestFirst r.names) r.text := by
  have hnil : r.text = [] → highlightVariablesWith (longestFirst r.names) r.text = [] := fun hnil => by
    rw [hnil, highlightVariablesWith_nil]
  have htext := hsafe.of_subset h.text_within.subset
  rw [Portions.colour, h.placeholder_start hline hnil, highlightVariablesWith_unmarked,
    (highlightComments_shows (unmarked_closed _ htext 0)).1,
    unmarked_leaks _ htext fun hin => hline (hin.trans h.text_within)]

lemma Reads.colour_erased (h : Reads line r) (hsafe : Safe line) (hline : ¬ placeholder <:+: line)
  (hlast : ∀ c ∈ line.getLast?, isBlank c = false) :
  withoutTags r.colour = line ↔ ¬ Leaks (longestFirst r.names) r.text ∧
    tighten (marked (longestFirst r.names) r.text) = marked (longestFirst r.names) r.text ∧
    r.spaced = false := by
  have htext := hsafe.of_subset h.text_within.subset
  have hclean : ¬ placeholder <:+: r.text := fun hin => hline (hin.trans h.text_within)
  have hclosed := unmarked_closed (longestFirst r.names) htext
  have hleaks := unmarked_leaks (longestFirst r.names) htext hclean
  rcases h.erased_start hsafe hlast with ⟨hstart, front, hfront, herased⟩
  have hshown : withoutTags r.colour = line ↔
      (if r.spaced then [' '] else []) ++ withoutTags (unmarked (longestFirst r.names) r.text) = r.text := by
    rw [Portions.colour, (hstart 0).withoutTags_append, herased, highlightVariablesWith_unmarked,
      (highlightComments_shows (hclosed 0)).2, hfront, append_assoc, append_right_inj]
  rw [hshown]
  by_cases hleak : Leaks (longestFirst r.names) r.text
  · refine iff_of_false (fun heq => hclean ?_) fun hnone => hnone.1 hleak
    rw [← heq]
    exact ((hclosed 0).placeholder_withoutTags (hleaks.mpr hleak)).trans (suffix_append _ _).isInfix
  · rcases unmarked_erased htext hclean hleak with ⟨hsame, hspaced⟩
    cases hspace : r.spaced with
    | false => simp [hsame, hleak]
    | true => simpa using hspaced

lemma highlightLine_colour (hv : Named config v) (line : String) : ∃ names, v.names? config = some names ∧
    (outcome (highlightLine config line) v).1 = .ok (String.ofList (readLine names line).colour) := by
  rcases buildNames_isSome hv with ⟨built, hbuilt⟩
  have hnames : ∃ names, v.names? config = some names := by
    rw [Vocabulary.names?, hbuilt, Option.or_some]
    exact ⟨_, rfl⟩
  rcases hnames with ⟨names, hnames⟩
  exact ⟨names, hnames, outcome_highlightLine hnames line⟩

def keeping (names : List String) : Vocabulary := { kept := some names }

lemma keeping_named (names : List String) : Named none (keeping names) := fun n hn => by
  cases hn

/-- A line in colour shows a marker just when a marker's text holds one. -/
theorem highlightLine_leaks (hv : Named config v) {line : String}
  (hline : ¬ placeholder <:+: line.toList) :
  ∃ names out, v.names? config = some names ∧ (outcome (highlightLine config line) v).1 = .ok out ∧
    (placeholder <:+: out.toList ↔
      Leaks (longestFirst (readLine names line).names) (readLine names line).text) := by
  rcases highlightLine_colour hv line with ⟨names, hnames, hout⟩
  refine ⟨names, _, hnames, hout, ?_⟩
  rw [String.toList_ofList]
  exact (readLine_reads names line).colour_leaks (escape_safe line)
    fun hin => hline (placeholder_infix_escape.mp hin)

/-- A variable inside of the value of a named argument. -/
theorem highlightLine_leaks_value : ∃ out,
  (outcome (highlightLine none "    Foo  url=http://$\x7bhost\x7d/") (keeping ["Open Page"])).1 = .ok out ∧
    placeholder <:+: out.toList := by
  have hstep : classify (escape "    Foo  url=http://$\x7bhost\x7d/").toList =
      .step "    ".toList "Foo  url=http://$\x7bhost\x7d/".toList :=
    classify_of_indented (by decide) (by decide) (by decide) (by decide)
  have hread : readLine ["Open Page"] _ = _ := readLine_unnamed hstep (by decide)
  have hkeyword : markKeyword (longestFirst (["Open Page"] ++ controlWords))
      (markVariables "Foo  url=http://$\x7bhost\x7d/".toList).1 = _ :=
    markKeyword_longestFirst (by decide +kernel)
  have hline : ¬ placeholder <:+: "    Foo  url=http://$\x7bhost\x7d/".toList := by decide
  rcases highlightLine_leaks (keeping_named _) hline with ⟨names, out, hnames, hout, hleaks⟩
  obtain rfl : ["Open Page"] = names := Option.some.inj hnames
  refine ⟨out, hout, hleaks.mpr ?_⟩
  -- The marker of the variable stands in the text of the argument's marker.
  rw [hread, Leaks, marksIn, marksBefore, marked, hkeyword]
  decide +kernel

/-- A line in colour shows the line just when no marker is shown, no blanks around an equals sign go
and no keyword with a text after it starts the line. -/
theorem highlightLine_erased (hv : Named config v) {line : String}
  (hline : ¬ placeholder <:+: line.toList) (hlast : ∀ c ∈ line.toList.getLast?, isBlank c = false) :
  ∃ names out, v.names? config = some names ∧ (outcome (highlightLine config line) v).1 = .ok out ∧
    (withoutTags out.toList = (escape line).toList ↔
      ¬ Leaks (longestFirst (readLine names line).names) (readLine names line).text ∧
        tighten (marked (longestFirst (readLine names line).names) (readLine names line).text) =
          marked (longestFirst (readLine names line).names) (readLine names line).text ∧
        (readLine names line).spaced = false) := by
  rcases highlightLine_colour hv line with ⟨names, hnames, hout⟩
  refine ⟨names, _, hnames, hout, ?_⟩
  rw [String.toList_ofList]
  exact (readLine_reads names line).colour_erased (escape_safe line)
    (fun hin => hline (placeholder_infix_escape.mp hin)) (escape_last hlast)

/-- A keyword with a text after it. -/
theorem highlightLine_erased_keyword : ∃ out,
  (outcome (highlightLine none "    Open Page    hello") (keeping ["Open Page"])).1 = .ok out ∧
    withoutTags out.toList ≠ (escape "    Open Page    hello").toList := by
  have hstep : classify (escape "    Open Page    hello").toList =
      .step "    ".toList "Open Page    hello".toList :=
    classify_of_indented (by decide) (by decide) (by decide) (by decide)
  have hkeyword : leadingKeyword (longestFirst (["Open Page"] ++ controlWords))
      "Open Page    hello".toList = some ("Open Page", "    hello".toList) :=
    findSome?_longestFirst_only (n := "Open Page") (by decide) (by decide) (by decide)
  have hline : ¬ placeholder <:+: "    Open Page    hello".toList := by decide
  rcases highlightLine_erased (keeping_named _) hline (by decide) with
    ⟨names, out, hnames, hout, herased⟩
  obtain rfl : ["Open Page"] = names := Option.some.inj hnames
  refine ⟨out, hout, fun hsame => ?_⟩
  have hspaced := (herased.mp hsame).2.2
  rw [readLine_step _ hstep, readStep, hkeyword] at hspaced
  exact absurd hspaced (by decide)

end KeywordDocs.Highlight
