import KeywordDocs.Proofs.Highlight.Lines

/-!
# Entities in Coloured Lines

A line is escaped before it is coloured, so searches look at entities as well as at code. Cutting a text keeps
its entities whole unless one lies across the cut (`Whole.start`).
-/

namespace KeywordDocs.Highlight

open Text Markup
open List hiding replace

variable {a b cs : List Char}

/-- Every `&` of the text starts an entity. -/
def Whole (cs : List Char) : Prop := ∀ a b, cs = a ++ '&' :: b → ∃ e ∈ entities, e.2.toList <+: '&' :: b

/-- The ways to cut an entity in two. -/
def cuts : List (List Char × List Char) :=
  entities.flatMap fun e => (List.range' 1 (e.2.length - 1)).map e.2.toList.splitAt

def Across (a b : List Char) : Prop := ∃ cut ∈ cuts, cut.1 <:+ a ∧ cut.2 <+: b

def inEntity (c : Char) : Bool := entities.any fun e => e.2.toList.contains c

lemma not_entity {e : Char × String} (he : e ∈ entities) {c : Char} (hc : inEntity c = false)
  {cs : List Char} : ¬ e.2.toList <+: '&' :: c :: cs := by
  intro h
  have hsecond : ∀ e ∈ entities, e.2.toList.tail.head?.any inEntity := by decide
  rcases (Option.any_eq_true _ _).mp (hsecond e he) with ⟨d, hd, hin⟩
  rcases head?_eq_some_iff.mp hd with ⟨tail, htail⟩
  cases hentity : e.2.toList with
  | nil => simp [hentity] at htail
  | cons x xs =>
    rw [hentity, tail_cons] at htail
    rw [hentity, htail, cons_prefix_cons, cons_prefix_cons] at h
    rw [← h.2.1, hin] at hc
    cases hc

lemma Whole.append (ha : Whole a) (hb : Whole b) : Whole (a ++ b) := by
  intro x y heq
  rcases append_eq_append_iff.mp heq with ⟨z, rfl, hb'⟩ | ⟨z, rfl, hz⟩
  · exact hb z y hb'
  · cases z with
    | nil => exact hb [] y (by simpa using hz.symm)
    | cons c z =>
      obtain ⟨rfl, rfl⟩ := cons.inj hz
      rcases ha x z rfl with ⟨e, he, hfront⟩
      exact ⟨e, he, hfront.trans (prefix_append ('&' :: z) b)⟩

lemma Whole.of_not_mem (h : '&' ∉ cs) : Whole cs := by
  rintro x y rfl
  simp at h

lemma Whole.end (h : Whole (a ++ b)) : Whole b := by
  rintro x y rfl
  exact h (a ++ x) y (append_assoc _ _ _).symm

lemma Whole.start (h : Whole (a ++ b)) (hcut : ¬ Across a b) : Whole a := by
  rintro x y rfl
  rcases h x (y ++ b) (by simp) with ⟨e, he, hfront⟩
  refine ⟨e, he, ?_⟩
  rcases prefix_or_prefix_of_prefix hfront (prefix_append ('&' :: y) b) with hshort | ⟨z, hz⟩
  · exact hshort
  · by_cases hnil : z = []
    · rw [← hz, hnil, append_nil]
    · refine absurd ⟨('&' :: y, z), ?_, suffix_append _ _, ?_⟩ hcut
      · have hlength : e.2.length = y.length + 1 + z.length := by
          rw [← String.length_toList, ← hz]
          simp only [length_append, length_cons]
        have hpos := length_pos_iff.mpr hnil
        refine mem_flatMap.mpr ⟨e, he, mem_map.mpr ⟨y.length + 1, ?_, ?_⟩⟩
        · rw [mem_range'_1]
          omega
        · rw [← hz]
          simp
      · rw [← hz] at hfront
        exact (prefix_append_right_inj ('&' :: y)).mp hfront

lemma not_across_of_head (h : ∀ c ∈ b.head?, inEntity c = false) : ¬ Across a b := by
  rintro ⟨cut, hcut, -, rest, rfl⟩
  have hne : ∀ cut ∈ cuts, cut.2.head?.any inEntity := by decide
  rcases (Option.any_eq_true _ _).mp (hne cut hcut) with ⟨c, hc, hin⟩
  rw [h c (mem_head?_append_of_mem_head? hc)] at hin
  cases hin

lemma not_across_of_last (h : ∀ c ∈ a.getLast?, inEntity c = false) : ¬ Across a b := by
  rintro ⟨cut, hcut, ⟨front, rfl⟩, -⟩
  have hne : ∀ cut ∈ cuts, cut.1.getLast?.any inEntity := by decide
  rcases (Option.any_eq_true _ _).mp (hne cut hcut) with ⟨c, hc, hin⟩
  rw [h c (mem_getLast?_append_of_mem_getLast? hc)] at hin
  cases hin

lemma whole_tag {t : List Char} (h : InkTag t) : Whole t := by
  refine .of_not_mem ?_
  cases h with
  | opening ink => cases ink <;> decide
  | closing => decide

lemma whole_span (ink : Ink) (h : Whole cs) : Whole (ink.span cs) :=
  ((whole_tag (.opening ink)).append h).append (whole_tag .closing)

lemma whole_escape (line : String) : Whole (escape line).toList := by
  rw [escape_toList]
  induction line.toList with
  | nil => exact .of_not_mem not_mem_nil
  | cons c cs ih =>
    refine Whole.append ?_ ih
    rcases written_entities c with ⟨e, he, rfl, hwritten⟩ | ⟨hc, hwritten⟩
    · rw [hwritten]
      have hone : ∀ e ∈ entities, e.2.toList.head? = some '&' ∧ '&' ∉ e.2.toList.tail := by decide
      rcases hone e he with ⟨hhead, htail⟩
      rcases head?_eq_some_iff.mp hhead with ⟨tail, heq⟩
      rw [heq, tail_cons] at htail
      intro x y hxy
      refine ⟨e, he, ?_⟩
      cases x with
      | nil => rw [hxy, nil_append]
      | cons d x =>
        rw [heq] at hxy
        obtain ⟨-, rfl⟩ := cons.inj hxy
        simp at htail
    · rw [hwritten]
      refine .of_not_mem fun hmem => hc ?_
      rw [← mem_singleton.mp hmem]
      decide

variable {marks : Marks} {text : List Char} {names : List String}

def Unhurt (marks : Marks) : Prop := ∀ m ∈ marks, (∃ l : Label, m.1 = l.text) ∧ Whole m.2

lemma Label.whole (l : Label) : Whole l.text :=
  .of_not_mem fun hmem => absurd (l.text_word _ hmem) (by decide)

lemma Label.not_across (l : Label) (a b : List Char) :
  ¬ Across a (l.text ++ b) ∧ ¬ Across (a ++ l.text) b := by
  have hlast : l.text.getLast? = some '_' := by
    rw [Label.text, marker, getLast?_append]
    rfl
  refine ⟨not_across_of_head fun c hc => ?_, not_across_of_last fun c hc => ?_⟩
  · rw [l.text_eq] at hc
    cases hc
    decide
  · rw [getLast?_append, hlast] at hc
    cases hc
    decide

lemma numbered_unhurt (family : Family) (n : Nat) {found : List (List Char)} (h : ∀ x ∈ found, Whole x) :
  Unhurt (numbered family.name n found) := by
  intro m hm
  rcases mem_map.mp hm with ⟨⟨x, i⟩, hx, rfl⟩
  exact ⟨⟨⟨family, i⟩, rfl⟩, h x (fst_mem_of_mem_zipIdx hx)⟩

lemma markPieces_whole {r : Recogniser (List Char)}
  (hr : ∀ b rest x n, rest <:+ text → Whole rest → r b rest = some (x, n) →
    (∀ a, ¬ Across a rest) ∧ Whole x) (family : Family) (n : Nat) (h : Whole text) :
  Whole (markPieces family.name n (scan r text)).1 ∧
    ∀ x ∈ (markPieces family.name n (scan r text)).2, Whole x := by
  -- The induction is on the text from the cursor on; `a` has been passed since the last find.
  have hall : ∀ cs, cs <:+ text → ∀ b k n a, Whole (a ++ cs.drop k) →
      Whole (a ++ (markPieces family.name n (scanFrom r b k cs)).1) ∧
        ∀ x ∈ (markPieces family.name n (scanFrom r b k cs)).2, Whole x := by
    intro cs
    induction cs with
    | nil =>
      intro _ b k n a ha
      rw [drop_nil] at ha
      exact ⟨ha, forall_mem_nil _⟩
    | cons c cs ih =>
      intro hcs b k n a ha
      replace ih := ih ((suffix_cons c cs).trans hcs)
      cases k with
      | succ k => exact ih (some c) k n a ha
      | zero =>
        rw [drop_zero] at ha
        rw [scanFrom]
        cases hfound : r b (c :: cs) with
        | none =>
          rw [append_cons] at ha
          have hrest := ih (some c) 0 n (a ++ [c]) ha
          rw [← append_cons] at hrest
          exact hrest
        | some found =>
          rcases hr b _ found.1 found.2 hcs ha.end hfound with ⟨hcut, hx⟩
          have hdrop : Whole ([] ++ cs.drop (found.2 - 1)) := by
            rw [← take_append_drop (found.2 - 1) cs] at ha
            exact (append_cons .. ▸ ha).end.end
          have hrest := ih (some c) (found.2 - 1) (n + 1) [] hdrop
          refine ⟨(ha.start (hcut a)).append (Whole.append (Label.whole ⟨family, n⟩) hrest.1), ?_⟩
          exact forall_mem_cons.mpr ⟨hx, hrest.2⟩
  exact hall text suffix_rfl none 0 n [] h

lemma markVariables_whole (h : Whole text) :
  Whole (markVariables text).1 ∧ Unhurt (markVariables text).2 := by
  refine List.foldlRecOn (motive := fun s : List Char × Marks => Whole s.1 ∧ Unhurt s.2) variableSigns
    _ ⟨h, forall_mem_nil _⟩ fun s hs sign hsign => ?_
  have hpieces := markPieces_whole (r := reference sign) (fun b rest x n _ hrest hfound => ?_) .reference
    s.2.length hs.1
  · refine ⟨hpieces.1, forall_mem_append.mpr ⟨hs.2, numbered_unhurt .reference _ fun x hx => ?_⟩⟩
    rcases mem_map.mp hx with ⟨y, hy, rfl⟩
    exact whole_span _ (hpieces.2 y hy)
  · rcases reference_eq_some hfound with ⟨body, rest, rfl, rfl, -⟩
    have hother : sign ≠ '&' := by
      rintro rfl
      rcases hrest [] _ rfl with ⟨e, he, hfront⟩
      exact not_entity he (by decide) hfront
    have hout : ∀ sign ∈ variableSigns, sign ≠ '&' → inEntity sign = false := by decide
    refine ⟨fun a => not_across_of_head fun c hc => ?_, hrest.start (not_across_of_last fun c hc => ?_)⟩
    · cases hc
      exact hout sign hsign hother
    · rw [getLast?_concat] at hc
      cases hc
      decide

/-- Names that have nothing to do with the parts of a cut entity. -/
def Uncut (name : List Char) : Prop :=
  ∀ cut ∈ cuts, ¬ (cut.2 <+: name ∨ name <+: cut.2) ∧ ¬ (cut.1 <:+ name ∨ name <:+ cut.1)

lemma markKeyword_whole (hnames : ∀ name ∈ names, Uncut name.toList) (h : Whole text) :
  Whole (markKeyword names text).1 ∧ Unhurt (markKeyword names text).2 := by
  rcases markKeyword_cases names text with heq | ⟨name, hname, front, rest, hsplit, heq⟩
  · rw [heq]
    exact ⟨h, forall_mem_nil _⟩
  · rw [(splitAtWord_eq_some hsplit).1] at h
    have hafter : ¬ Across (front ++ name.toList) rest := by
      rintro ⟨cut, hcut, hbefore, -⟩
      exact (hnames name hname cut hcut).2
        (suffix_or_suffix_of_suffix hbefore (suffix_append front name.toList))
    have hbefore : ¬ Across front name.toList := by
      rintro ⟨cut, hcut, -, hfront⟩
      exact (hnames name hname cut hcut).1 (.inl hfront)
    have hlabel := Label.whole ⟨.keyword, 0⟩
    have hname := h.start hafter
    rw [heq]
    refine ⟨((hname.start hbefore).append hlabel).append h.end, forall_mem_singleton.mpr ?_⟩
    exact ⟨⟨⟨.keyword, 0⟩, rfl⟩, whole_span _ hname.end⟩

lemma inEntity_of_isBlank {c : Char} (h : isBlank c) : inEntity c = false := by
  have hnone : ∀ e ∈ entities, ∀ c ∈ e.2.toList, isBlank c = false := by decide
  cases hin : inEntity c with
  | false => rfl
  | true =>
    rcases any_eq_true.mp hin with ⟨e, he, hc⟩
    rw [hnone e he c (contains_iff_mem.mp hc)] at h
    cases h

lemma not_across_of_name {name rest : List Char} {c : Char} (hname : ∀ c ∈ name, isAsciiWord c)
  (hc : inEntity c = false) (a : List Char) : ¬ Across a (name ++ c :: rest) := by
  rintro ⟨cut, hcut, -, hfront⟩
  have hends : ∀ cut ∈ cuts, ';' ∈ cut.2 ∧ ∀ c ∈ cut.2, inEntity c := by decide
  rcases hends cut hcut with ⟨hmem, hin⟩
  have hshort : ¬ cut.2 <+: name := fun hp => absurd (hname _ (hp.subset hmem)) (by decide)
  rcases prefix_or_prefix_of_prefix hfront (prefix_append name _) with hp | ⟨z, hz⟩
  · exact hshort hp
  rw [← hz] at hfront hin hshort
  cases z with
  | nil => exact hshort (by rw [append_nil])
  | cons d z =>
    have hhead := cons_prefix_cons.mp ((prefix_append_right_inj name).mp hfront)
    rw [← hhead.1, hin d (by simp)] at hc
    cases hc

lemma argumentValue?_whole {value : List Char} (hsafe : Safe cs) (h : Whole cs)
  (hvalue : argumentValue? cs = some value) : Whole value := by
  rcases argumentValue?_eq_some hsafe hvalue with ⟨family, hfamily, hmarker⟩ | ⟨rfl, -⟩
  · rcases markerAt?_eq_some hmarker with ⟨d, ds, rest, hdigits, rfl, -⟩
    refine ((Whole.of_not_mem ?_).append (.of_not_mem fun hmem => ?_)).append (.of_not_mem (by decide))
    · rcases mem_pair.mp hfamily with rfl | rfl <;> decide
    · cases hdigits _ hmem
  · rw [← takeWhile_append_dropWhile (l := cs) (p := fun c => !isBlank c && decide (c ≠ '<'))] at h
    refine h.start (not_across_of_head fun c hc => ?_)
    have hstop := head?_dropWhile_not (fun c => !isBlank c && decide (c ≠ '<')) cs
    rw [hc] at hstop
    rcases Bool.and_eq_false_iff.mp hstop with hblank | hlt
    · exact inEntity_of_isBlank (by simpa using hblank)
    · rw [show c = '<' by simpa using hlt]
      decide

lemma markArguments_whole (hmarks : Unhurt marks) (hsafe : Safe text) (h : Whole text) :
  Whole (markArguments marks text).1 ∧ Unhurt (markArguments marks text).2 := by
  have hpieces := markPieces_whole (r := fun before cs =>
    (namedArgument before cs).map fun found => (argumentSpan marks found.1, found.2))
    (fun b cs x n hcs hwhole hx => ?_) .argument 0 h
  · exact ⟨hpieces.1, numbered_unhurt .argument 0 hpieces.2⟩
  rcases Option.map_eq_some_iff.mp hx with ⟨⟨⟨name, value⟩, n'⟩, hfound, hpair⟩
  cases hpair
  rcases namedArgument_eq_some hfound with ⟨-, gap, gap', rest, rfl, -, hgap, -, hname, hvalue, -⟩
  have hend : rest <:+ name ++ (gap ++ '=' :: (gap' ++ rest)) := ⟨name ++ gap ++ '=' :: gap', by simp⟩
  have hvalue : Whole value := by
    refine argumentValue?_whole (hsafe.of_subset (hend.trans hcs).subset) ?_ hvalue
    rcases hend with ⟨front, hend⟩
    exact (hend ▸ hwhole).end
  refine ⟨fun a => ?_, (whole_span _ ?_).append (Whole.append (a := ['=']) (.of_not_mem (by decide)) ?_)⟩
  · cases gap with
    | nil => exact not_across_of_name hname (by decide) a
    | cons c gap =>
      rw [all_cons, Bool.and_eq_true] at hgap
      exact not_across_of_name hname (inEntity_of_isBlank hgap.1) a
  · exact .of_not_mem fun hmem => absurd (hname _ hmem) (by decide)
  · cases hlook : marks.lookup value with
    | none => exact hvalue
    | some shown =>
      rcases lookup_eq_some_iff.mp hlook with ⟨m₁, m₂, rfl, -⟩
      exact (hmarks (value, shown) (by simp)).2

lemma unmark_whole (hmarks : Unhurt marks) (h : Whole cs) : Whole (unmark marks cs) := by
  unfold unmark
  induction marks generalizing cs with
  | nil => exact h
  | cons m marks ih =>
    rcases forall_mem_cons.mp hmarks with ⟨⟨⟨l, hl⟩, hm⟩, hmarks⟩
    rw [foldl_cons, hl]
    refine ih hmarks ?_
    refine replaceChars_induction l.text_ne_nil
      (motive := fun cs out => ∀ a, Whole (a ++ cs) → Whole (a ++ out)) (fun a ha => ha)
      (fun c cs out _ ih a ha => ?_) (fun cs out ih a ha => ?_) cs [] h
    · rw [append_cons] at ha ⊢
      exact ih (a ++ [c]) ha
    · exact (ha.start (l.not_across a cs).1).append (hm.append (ih [] ha.end.end))

lemma unmarked_whole (hnames : ∀ name ∈ names, Uncut name.toList) (hsafe : Safe text)
  (h : Whole text) : Whole (unmarked names text) := by
  have hvariables := markVariables_whole h
  have hkeyword := markKeyword_whole hnames hvariables.1
  have hmarks := forall_mem_append.mpr ⟨hvariables.2, hkeyword.2⟩
  have harguments := markArguments_whole hmarks
    (markKeyword_sound names (markVariables_sound hsafe).1).1 hkeyword.1
  exact unmark_whole (forall_mem_append.mpr ⟨hmarks, harguments.2⟩) harguments.1

variable {d e : Nat} {part u : List Char}

/-- Whether a comment starts at the number sign of an entity. -/
def Clipped (u : List Char) : Prop :=
  ∃ part, .inl part ∈ pieces Markup.tag u ∧ ∃ split ∈ splitComment part, split.1.getLast? = some '&'

lemma highlightComment_whole (h : Whole part) : Whole (highlightComment Ink.comment.span part) ↔
    ∀ split ∈ splitComment part, split.1.getLast? ≠ some '&' := by
  unfold highlightComment
  split
  case h_2 hsplit =>
    rw [hsplit]
    exact iff_of_true h (by simp)
  case h_1 front comment rest hsplit =>
    rw [hsplit]
    rcases splitComment_eq_some hsplit with ⟨rfl, hhead, hrest⟩
    rcases head?_eq_some_iff.mp hhead with ⟨body, rfl⟩
    constructor
    · rintro hwhole _ ⟨⟩ hlast
      rcases getLast?_eq_some_iff.mp hlast with ⟨x, rfl⟩
      rcases hwhole x (Ink.comment.span ('#' :: body) ++ rest) (by simp) with ⟨e, he, hfront⟩
      exact not_entity he (c := '<') (by decide) hfront
    · intro hlast
      have hlast := hlast _ rfl
      have hcut : ¬ Across front ('#' :: body ++ rest) := by
        rintro ⟨cut, hcut, ⟨x, rfl⟩, hfront⟩
        have hamp : ∀ cut ∈ cuts, cut.2.isEmpty = false ∧
            (cut.2.head? = some '#' → cut.1.getLast? = some '&') := by decide
        rcases hamp cut hcut with ⟨hne, hamp⟩
        rcases exists_cons_of_ne_nil (isEmpty_eq_false_iff.mp hne) with ⟨c, y, hy⟩
        rw [hy, cons_append, cons_prefix_cons] at hfront
        have hlast' := hamp (by rw [hy, hfront.1, head?_cons])
        exact hlast (by rw [getLast?_append, hlast', Option.some_or])
      have hend : ¬ Across (front ++ '#' :: body) rest := by
        refine not_across_of_head fun c hc => ?_
        rcases hrest with rfl | rfl
        · cases hc
        · cases hc
          decide
      have hcomment := h.start hend
      rw [append_assoc] at h
      exact ((h.start hcut).append (whole_span _ hcomment.end)).append h.end.end

lemma highlightComments_whole (h : Spans d e u) (hu : Whole u) :
  Whole (highlightComments u) ↔ ¬ Clipped u := by
  refine h.stretches (motive := fun _ _ u => Whole u → (Whole (highlightComments u) ↔ ¬ Clipped u))
    ?_ ?_ hu
  · intro _ part hpart hu
    rw [highlightComments_run (hpart.not_mem rfl), highlightComment_whole hu, Clipped,
      pieces_run (hpart.not_mem rfl)]
    simp
  · intro d d' e part t cs hpart ht ih hu
    have hwhole := whole_tag ht.tag
    rcases ht.body with ⟨c, body, rfl, hbody⟩
    have hcut : ∀ a cs, ¬ Across a ('<' :: c :: body ++ ['>'] ++ cs) := fun a cs =>
      not_across_of_head fun c hc => by
        cases hc
        decide
    have hparts : ∀ a b, Whole (a ++ ('<' :: c :: body ++ ['>'] ++ b)) ↔ Whole a ∧ Whole b := fun a b =>
      ⟨fun h => ⟨h.start (hcut a b), h.end.end⟩, fun h => h.1.append (hwhole.append h.2)⟩
    rcases (hparts _ _).mp hu with ⟨hpart', hcs⟩
    rw [highlightComments_tag (hpart.not_mem rfl) hbody, hparts, highlightComment_whole hpart', ih hcs,
      Clipped, Clipped, pieces_tag (hpart.not_mem rfl) hbody]
    simp [or_and_right, exists_or]

variable {config : Option Json} {v : Vocabulary}

lemma Reads.whole_parts {line : List Char} {r : Portions} (h : Reads line r) (hline : Whole line) :
  Whole r.start ∧ Whole r.text := by
  have hblank : ∀ {cs : List Char}, cs.all isBlank → Whole cs := fun h =>
    .of_not_mem fun hmem => absurd (all_eq_true.mp h _ hmem) (by decide)
  cases h with
  | whole ink names =>
    exact ⟨by simpa [Portions.start, paint] using whole_span ink hline, .of_not_mem not_mem_nil⟩
  | @setting name indent rest blanks names hname hindent hblanks heq =>
    have hname : Whole name.toList := by
      have hnone : ∀ name ∈ settingNames, '&' ∉ name.toList := by decide
      exact .of_not_mem (hnone name hname)
    rw [heq] at hline
    have hrest := hline.start (not_across_of_head fun c hc =>
      inEntity_of_isBlank (all_eq_true.mp hblanks c (mem_of_mem_head? hc)))
    exact ⟨by simpa [Portions.start, paint] using
      (hblank hindent).append ((whole_span .setting hname).append hrest.end), .of_not_mem not_mem_nil⟩
  | searched indent content names hindent heq =>
    exact ⟨by simpa [Portions.start, paint] using hblank hindent, (heq ▸ hline).end⟩
  | keyword ink indent name rest names hindent hne hends heq =>
    rw [heq] at hline
    have hname := hline.start (not_across_of_head fun c hc => by
      rcases head?_eq_some_iff.mp hc with ⟨rest, rfl⟩
      rw [show c = ' ' by simpa [endsName] using hends]
      decide)
    have hspace : Whole (if !rest.isEmpty then [' '] else []) := .of_not_mem (by split <;> decide)
    exact ⟨by simpa [Portions.start, paint] using
      (hblank hindent).append ((whole_span ink hname.end).append hspace), hline.end⟩

lemma readLine_names (names : List String) (line : String) :
  (readLine names line).names ⊆ names ++ controlWords := by
  have hsub : names ⊆ names ++ controlWords := subset_append_left _ _
  unfold readLine
  split
  · exact hsub
  unfold readEscaped
  split
  case h_5 indent content _ =>
    unfold readStep
    split
    · exact List.Subset.refl _
    split
    · split <;> exact List.Subset.refl _
    · exact List.Subset.refl _
  all_goals exact hsub

/-- The entities of a coloured line are whole unless a comment starts inside of one. -/
theorem highlightLine_whole (hv : Named config v) (line : String)
  (huncut : ∀ names, v.names? config = some names → ∀ name ∈ names, Uncut name.toList) :
  ∃ names out, v.names? config = some names ∧ (outcome (highlightLine config line) v).1 = .ok out ∧
    (Whole out.toList ↔ ¬ Clipped
      (unmarked (longestFirst (readLine names line).names) (readLine names line).text)) := by
  rcases highlightLine_colour hv line with ⟨names, hnames, hout⟩
  refine ⟨names, _, hnames, hout, ?_⟩
  have hreads := readLine_reads names line
  have hsafe := (escape_safe line).of_subset hreads.text_within.subset
  rcases hreads.whole_parts (whole_escape line) with ⟨hstart, htext⟩
  have hall : ∀ name ∈ longestFirst (readLine names line).names, Uncut name.toList := by
    intro name hname
    have hcontrol : ∀ name ∈ controlWords, Uncut name.toList := by
      unfold Uncut
      decide
    rcases mem_append.mp (readLine_names names line (mem_longestFirst.mp hname)) with hmem | hmem
    · exact huncut names hnames name hmem
    · exact hcontrol name hmem
  rw [String.toList_ofList, Portions.colour, highlightVariablesWith_unmarked,
    ← highlightComments_whole ((unmarked_closed _ hsafe) 0) (unmarked_whole hall hsafe htext)]
  exact ⟨Whole.end, hstart.append⟩

/-- An apostrophe, in whose entity a comment starts. -/
theorem highlightLine_whole_apostrophe : ∃ out,
  (outcome (highlightLine none "    Foo  it's") (keeping ["Open Page"])).1 = .ok out ∧
    ¬ Whole out.toList := by
  have hstep : classify (escape "    Foo  it's").toList = .step "    ".toList "Foo  it&#x27;s".toList :=
    classify_of_indented (by decide) (by decide) (by decide) (by decide)
  have hread : readLine ["Open Page"] _ = _ := readLine_unnamed hstep (by decide)
  have hkeyword : markKeyword (longestFirst (["Open Page"] ++ controlWords))
      (markVariables "Foo  it&#x27;s".toList).1 = _ := markKeyword_longestFirst (by decide +kernel)
  have huncut : ∀ names, (keeping ["Open Page"]).names? none = some names →
      ∀ name ∈ names, Uncut name.toList := by
    rintro _ ⟨⟩
    unfold Uncut
    decide
  rcases highlightLine_whole (keeping_named _) "    Foo  it's" huncut with
    ⟨names, out, hnames, hout, hwhole⟩
  obtain rfl : ["Open Page"] = names := Option.some.inj hnames
  refine ⟨out, hout, fun h => hwhole.mp h ?_⟩
  -- Nothing is marked, so the comment is sought in the escaped text.
  have hplain : unmarked (longestFirst (["Open Page"] ++ controlWords)) "Foo  it&#x27;s".toList =
      "Foo  it&#x27;s".toList := by
    rw [unmarked, marksIn, marksBefore, marked, hkeyword]
    decide +kernel
  rw [hread, hplain, Clipped, pieces_run (by decide)]
  exact ⟨_, mem_cons_self, ("Foo  it&".toList, "#x27;s".toList, []), by decide, rfl⟩

end KeywordDocs.Highlight
