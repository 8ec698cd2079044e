import KeywordDocs.Proofs.Highlight.Leading

/-!
# Texts That Are Only Coloured

A text is only coloured, and no character lost or added, if no find of a search holds an earlier one and there
are no named arguments. Flat braces see to the first for variables, names without `_MARKER_` for keywords.
-/

namespace KeywordDocs.Highlight

open Text Markup List

variable {config : Option Json} {v : Vocabulary} {names : List String} {text : List Char}

def isLevel (c : Char) : Bool := !(['<', '>', '='].contains c)

lemma isLevel_iff {c : Char} : isLevel c ↔ c ∉ ['<', '>', '='] := by
  rw [isLevel, Bool.not_eq_true', contains_eq_mem, decide_eq_false_iff_not]

instance : Textual isLevel where
  lt := rfl
  word c hc := by
    refine isLevel_iff.mpr fun hmem => ?_
    have hnone : ∀ d ∈ ['<', '>', '='], isAsciiWord d = false := by decide
    rw [hnone c hmem] at hc
    cases hc

variable {T : Token → List Char} {ts : List Token} {sign : Char} {a n b : List Char}

lemma sign_ne : ∀ s ∈ variableSigns, s ≠ '\x7b' ∧ s ≠ '\x7d' := by decide

def Shown (T : Token → List Char) (ts : List Token) : Prop :=
  ∀ t ∈ ts, (∃ c, t = .char c ∧ T t = [c]) ∨ ∃ l s body, t = .label l ∧ s ∈ variableSigns ∧
    '\x7d' ∉ body ∧ T t = s :: '\x7b' :: (body ++ ['\x7d'])

lemma Flat.of_append {x y : List Char} (h : Flat (x ++ y)) : Flat y := fun a b c hy =>
  h (x ++ a) b c (by rw [hy, append_assoc])

lemma exists_chars {x : List Char} (hT : Shown T ts) (hx : '\x7b' ∉ x.tail)
  (hlast : ∀ c ∈ x.getLast?, c ∉ variableSigns) (h : ts.flatMap T = x ++ b) :
  ∃ B, ts = x.map .char ++ B := by
  induction x generalizing ts with
  | nil => exact ⟨ts, rfl⟩
  | cons c x ih =>
    cases ts with
    | nil => cases h
    | cons t ts =>
      rcases forall_mem_cons.mp hT with ⟨ht, hts⟩
      rw [flatMap_cons] at h
      rcases ht with ⟨c', rfl, hc⟩ | ⟨l, s, body, rfl, hs, -, hl⟩
      · rw [hc] at h
        have hrest : ∃ B, ts = x.map .char ++ B := by
          refine ih hts (fun hmem => hx (mem_of_mem_tail hmem)) (fun d hd => ?_) (cons.inj h).2
          refine hlast d ?_
          rw [getLast?_cons, show x.getLast? = some d from hd]
          rfl
        rcases hrest with ⟨B, rfl⟩
        exact ⟨B, by rw [(cons.inj h).1]; rfl⟩
      · rw [hl] at h
        rcases cons.inj h with ⟨rfl, hbrace⟩
        cases x with
        | nil => cases (hlast s rfl) hs
        | cons d x => cases hx (mem_cons.mpr (.inl (cons.inj hbrace).1))

lemma exists_label (hT : Shown T ts) (hflat : Flat (ts.flatMap T)) (hsought : Sought sign ts)
  (hsign : sign ∈ variableSigns) (hne : n ≠ []) (hopen : '\x7b' ∉ n) (hclose : '\x7d' ∉ n)
  (h : ts.flatMap T = a ++ (sign :: '\x7b' :: (n ++ '\x7d' :: b))) :
  ∃ A l B, ts = A ++ .label l :: B ∧ A.flatMap T = a ∧
    T (.label l) = sign :: '\x7b' :: (n ++ ['\x7d']) := by
  induction ts generalizing a with
  | nil => simp at h
  | cons t ts ih =>
    rcases forall_mem_cons.mp hT with ⟨ht, hts⟩
    rw [flatMap_cons] at h hflat
    have hrest : ∀ a', a = T t ++ a' → ts.flatMap T = a' ++ (sign :: '\x7b' :: (n ++ '\x7d' :: b)) →
        ∃ A l B, t :: ts = A ++ .label l :: B ∧ A.flatMap T = a ∧
          T (.label l) = sign :: '\x7b' :: (n ++ ['\x7d']) := by
      rintro a' rfl h
      rcases ih hts hflat.of_append (fun n h h' hrun =>
        hsought n h h' (hrun.trans (suffix_cons t ts).isInfix)) h with ⟨A, l, B, rfl, hA, hl⟩
      exact ⟨t :: A, l, B, rfl, by rw [flatMap_cons, hA], hl⟩
    rcases append_eq_append_iff.mp h with ⟨a', ha, h⟩ | ⟨y, hy, hocc⟩
    · exact hrest a' ha h
    -- The variable starts in what the first token shows, or right after it.
    cases y with
    | nil => exact hrest [] (by rw [hy, append_nil, append_nil]) hocc.symm
    | cons y₀ y =>
      obtain ⟨rfl, hbrace⟩ := cons.inj hocc
      rcases ht with ⟨c, rfl, hc⟩ | ⟨l, s, body, rfl, hs, hbody, hl⟩
      · -- A character: then the whole variable is made of characters, and it was left.
        rw [hc] at hy
        have hlength := congrArg List.length hy
        simp only [length_append, length_cons, length_nil] at hlength
        have ha : a = [] := length_eq_zero_iff.mp (by omega)
        have hy' : y = [] := length_eq_zero_iff.mp (by omega)
        rw [ha, hy'] at hy
        have hrun : ts.flatMap T = '\x7b' :: (n ++ ['\x7d']) ++ b := by
          rw [hy'] at hbrace
          simpa using hbrace.symm
        have hlast : ∀ c ∈ ('\x7b' :: (n ++ ['\x7d'])).getLast?, c ∉ variableSigns := by
          rw [← cons_append, getLast?_concat]
          rintro c ⟨rfl⟩
          decide
        rcases exists_chars hts (by simp [hopen]) hlast hrun with ⟨B, rfl⟩
        refine absurd ⟨[], B, ?_⟩ (hsought n hne hclose)
        simp [(cons.inj hy).1]
      · -- A marker: braces tell that the variable starts where the marker does.
        have hflat' : '\x7b' ∉ body := by
          refine hflat [s] body (ts.flatMap T) ?_ hbody
          simp [hl]
        rw [hl] at hy
        cases a with
        | nil =>
          rcases cons.inj hy with ⟨rfl, rfl⟩
          have hsame : n ++ '\x7d' :: b = body ++ '\x7d' :: ts.flatMap T := by simpa using hbrace
          rw [(append_cons_inj hclose hbody hsame).1]
          exact ⟨[], l, ts, rfl, rfl, hl⟩
        | cons a₀ a =>
          have hy := (cons.inj hy).2
          cases a with
          | nil => cases (sign_ne _ hsign).1 (cons.inj hy).1.symm
          | cons a₁ a =>
            have hy := (cons.inj hy).2
            cases y with
            | nil =>
              have hlast := congrArg List.getLast? hy
              simp at hlast
              cases (sign_ne _ hsign).2 hlast.symm
            | cons d y =>
              have hmem : '\x7b' ∈ body ++ ['\x7d'] := by
                rw [hy, (cons.inj hbrace).1]
                simp
              simp [hflat'] at hmem

lemma unmarked_eq_fill {ts₁ ts : List Token} {D N : Legend}
  (hvariables : markVariables text = (spell ts₁, marksOf D))
  (hmarked : markKeyword names (spell ts₁) = (spell ts, marksOf N))
  (h : Stage isLevel ts (D ++ N)) : unmarked names text = spell (fill (standsFor (D ++ N)) ts) := by
  rcases marked_eq hvariables hmarked with ⟨htext', hbefore⟩
  rw [unmarked, marksIn, htext', hbefore, markArguments_quiet _ (h.safe.not_mem rfl), append_nil,
    unmark_spell h.ordered h.clean]

variable {A B : List Token} {D N : Legend} {l : Label} {u cs : List Char}

lemma append_cons_cut {α : Type} {A B X f Y : List α} {x : α} (hx : x ∉ f)
  (h : A ++ x :: B = X ++ (f ++ Y)) : (∃ C, X = A ++ x :: C) ∨ ∃ C, Y = C ++ x :: B := by
  induction A generalizing X f with
  | nil =>
    cases X with
    | cons x' X => exact .inl ⟨X, by rw [(cons.inj h).1]; rfl⟩
    | nil =>
      cases f with
      | nil => exact .inr ⟨[], h.symm⟩
      | cons y f => cases hx (mem_cons.mpr (.inl (cons.inj h).1))
  | cons a A ih =>
    cases X with
    | cons x' X =>
      refine (ih hx (cons.inj h).2).imp_left (.imp fun C hC => ?_)
      rw [(cons.inj h).1, hC, cons_append]
    | nil =>
      cases f with
      | nil => exact .inr ⟨a :: A, h.symm⟩
      | cons y f =>
        have hf : x ∉ f := fun hmem => hx (mem_cons_of_mem y hmem)
        exact .inr ((ih (X := []) hf (cons.inj h).2).resolve_left (by simp))

lemma Faithful.keyword_around (h : Faithful isLevel text (A ++ .label l :: B) D)
  (hkeys : Numbered D) (hbare : Bare D) (hnames : ∀ name ∈ names, ¬ placeholder <:+: name.toList) :
  ∃ A' B' N, Faithful isLevel text (A' ++ .label l :: B') (D ++ N) ∧ Bare (D ++ N) ∧
    (A' = A ∨ B' = B) ∧ markKeyword names (spell (A ++ .label l :: B)) =
      (spell (A' ++ .label l :: B'), marksOf N) := by
  rcases exists_keyword names (A ++ .label l :: B) with
    hnone | ⟨name, hname, X, f, Y, hsplit, hf, hmarked⟩
  · exact ⟨A, B, [], by rwa [append_nil], by rwa [append_nil], .inl rfl, hnone⟩
  have hfree : ∀ l, .label l ∉ f := h.label_not_mem hsplit (hf ▸ hnames name hname)
  have hbare' : Bare (D ++ [(⟨.keyword, 0⟩, wrap .keyword f)]) := forall_mem_append.mpr
    ⟨hbare, forall_mem_singleton.mpr fun l hl => hfree l (label_mem_wrap.mp hl)⟩
  have hstep := (hsplit ▸ h).keyword_step fun e he => (hkeys e he).1
  rcases append_cons_cut (hfree l) hsplit with ⟨C, rfl⟩ | ⟨C, rfl⟩
  · rw [append_assoc, cons_append] at hstep hmarked
    exact ⟨A, _, _, hstep, hbare', .inl rfl, hmarked⟩
  · rw [← cons_append, ← append_assoc] at hstep hmarked
    exact ⟨_, B, _, hstep, hbare', .inr rfl, hmarked⟩

def shows (D : Legend) (t : Token) : List Char := withoutTags (spell (t.put (standsFor D)))

lemma Stage.flatMap_shows (h : Stage isLevel ts D) {x : List Token} (hx : x ⊆ ts) :
  x.flatMap (shows D) = withoutTags (spell (fill (standsFor D) x)) := by
  rw [fill, spell_flatMap]
  refine (withoutTags_flatMap (p := isLevel) fun t ht => ?_).2.symm
  have hclosed := h.closed_fill (x := [t]) (by simpa using hx ht)
  rwa [fill, flatMap_singleton] at hclosed

lemma Stage.shown (h : Stage isLevel ts D) (hkeys : Numbered D) : Shown (shows D) ts := by
  intro t ht
  cases t with
  | char c =>
    have hc : Only isLevel [c] := h.safe.of_subset (spell_subset (x := [.char c]) (by simpa using ht))
    exact .inl ⟨c, rfl, hc.withoutTags⟩
  | label l =>
    rcases (hkeys _ (h.known l ht).mem).2.2 with ⟨s, body, hs, hbody, -, hshows⟩
    exact .inr ⟨l, s, body, rfl, hs, hbody, hshows⟩

lemma Stage.shows_append (h : Stage isLevel ts D) (N : Legend) :
  ∀ t ∈ ts, shows (D ++ N) t = shows D t := by
  intro t ht
  cases t with
  | char c => rfl
  | label l => exact congrArg (fun x => withoutTags (spell x)) (standsFor_append_left (h.known l ht) N)

lemma highlightComments_append_tag {d d' d₁ d₂ : Nat} {t : List Char} (h : Nested isLevel d d' u)
  (ht : Turn t d₁ d₂) (cs : List Char) :
  highlightComments (u ++ (t ++ cs)) = highlightComments u ++ (t ++ highlightComments cs) := by
  rcases ht.body with ⟨c, body, rfl, hbody⟩
  refine h.stretches (motive := fun _ _ u => highlightComments (u ++ ('<' :: c :: body ++ ['>'] ++ cs)) =
    highlightComments u ++ ('<' :: c :: body ++ ['>'] ++ highlightComments cs)) ?_ ?_
  · intro _ part hpart
    rw [highlightComments_run (hpart.not_mem rfl), highlightComments_tag (hpart.not_mem rfl) hbody]
  · intro _ _ _ part t us hpart ht ih
    rcases ht.body with ⟨c', body', rfl, hbody'⟩
    rw [append_assoc, append_assoc, highlightComments_tag (hpart.not_mem rfl) hbody', ih,
      highlightComments_tag (hpart.not_mem rfl) hbody']
    simp only [append_assoc]

section

variable (htext : Only isLevel text) (hclean : ¬ placeholder <:+: text) (hflat : Flat text)
  (hnames : ∀ name ∈ names, ¬ placeholder <:+: name.toList)

include htext hclean hflat hnames

lemma unmarked_level :
  Enclosed isLevel (unmarked names text) ∧ withoutTags (unmarked names text) = text := by
  rcases exists_references htext hclean with ⟨ts₁, D, h₁, hkeys, hbare, -, hvariables⟩
  rcases h₁.keyword (fun e he => (hkeys e he).1) names with ⟨ts, N, h, -, hfree, hmarked⟩
  rw [unmarked_eq_fill hvariables hmarked h.toStage]
  exact ⟨h.closed_fill (List.Subset.refl ts), h.faithful (forall_mem_append.mpr ⟨hbare hflat, hfree hnames⟩)⟩

lemma unmarked_variable (hsign : sign ∈ variableSigns) (hne : n ≠ []) (hopen : '\x7b' ∉ n)
  (hclose : '\x7d' ∉ n) (h : text = a ++ (sign :: '\x7b' :: (n ++ '\x7d' :: b))) :
  ∃ u w, unmarked names text = u ++ (Ink.reference.span (sign :: '\x7b' :: (n ++ ['\x7d'])) ++ w) ∧
    Enclosed isLevel u ∧ withoutTags u = a := by
  rcases exists_references htext hclean with ⟨ts, D, hstage, hkeys, hbare, hsought, hvariables⟩
  have hbare := hbare hflat
  have hall : ts.flatMap (shows D) = text :=
    (hstage.flatMap_shows (List.Subset.refl ts)).trans (hstage.faithful hbare)
  rcases exists_label (hstage.shown hkeys) (hall ▸ hflat) (hsought sign hsign) hsign hne hopen hclose
    (hall.trans h) with ⟨A, l, B, rfl, hA, hl⟩
  have hmark : spell (standsFor D l) = Ink.reference.span (sign :: '\x7b' :: (n ++ ['\x7d'])) := by
    rcases (hkeys _ (hstage.known l (by simp)).mem).2.2 with ⟨s, body, -, -, hspell, hshows⟩
    rw [hspell, ← hshows]
    exact congrArg _ hl
  rcases hstage.keyword_around hkeys hbare hnames with ⟨A', B', N, hstage', hbare', hside, hmarked⟩
  refine ⟨spell (fill (standsFor (D ++ N)) A'), spell (fill (standsFor (D ++ N)) B'), ?_,
    hstage'.closed_fill (by simp), ?_⟩
  · rw [unmarked_eq_fill hvariables hmarked hstage'.toStage, ← hmark,
      ← standsFor_append_left (hstage.known l (by simp)) N, fill_append, spell_append]
    exact congrArg _ (spell_append _ _)
  · have hsame := hstage.shows_append N
    rw [← hstage'.flatMap_shows (by simp), ← hA]
    rcases hside with rfl | rfl
    · exact flatMap_congr fun t ht => hsame t (mem_append_left _ ht)
    · -- What follows is the same from the marker on, so what stands before it is as well.
      have hall' := (hstage'.flatMap_shows (List.Subset.refl _)).trans (hstage'.faithful hbare')
      rw [← hall, flatMap_append, flatMap_append,
        flatMap_congr fun t ht => hsame t (mem_append_right A ht)] at hall'
      exact append_cancel_right hall'

lemma highlightVariablesWith_variable (hsign : sign ∈ variableSigns) (hne : n ≠ [])
  (hn : ∀ c ∈ ['\x7b', '\x7d', '#'], c ∉ n)
  (h : text = a ++ (sign :: '\x7b' :: (n ++ '\x7d' :: b))) :
  ∃ front rest, highlightVariablesWith names text =
      front ++ (Ink.reference.span (sign :: '\x7b' :: (n ++ ['\x7d'])) ++ rest) ∧
    withoutTags front = a := by
  rcases unmarked_variable htext hclean hflat hnames hsign hne (hn _ (by decide)) (hn _ (by decide)) h with
    ⟨u, w, hunmarked, hu, hbefore⟩
  have hname : sign :: '\x7b' :: (n ++ ['\x7d']) ⊆ text := by
    rw [h]
    intro c hc
    simp only [mem_cons, mem_append] at hc ⊢
    tauto
  have hquiet : '#' ∉ sign :: '\x7b' :: (n ++ ['\x7d']) := by
    have hsigns : ∀ s ∈ variableSigns, '#' ≠ s := by decide
    simp [hn '#' (by decide), hsigns sign hsign]
  have hspan := htext.of_subset hname
  refine ⟨highlightComments u, highlightComments w, ?_, by rw [(highlightComments_shows (hu 0)).2, hbefore]⟩
  rw [highlightVariablesWith_unmarked, hunmarked, Ink.span, append_assoc, append_assoc,
    highlightComments_append_tag (hu 0) (.opening .reference 0),
    highlightComments_append_tag (hspan.closed 0) (.closing 0), highlightComments_run (hspan.not_mem rfl),
    highlightComment_quiet hquiet, append_assoc, append_assoc]

end

/-- In a text without angle brackets, equals signs and `_MARKER_`, in which no brace opens between one
that opens and the next one that closes, colouring adds tags and does nothing else. -/
theorem highlightVariables_lossless (hnames : v.names? config = some names)
  (hfree : ∀ name ∈ names, ¬ placeholder <:+: name.toList)
  (htext : ∀ c ∈ ['<', '>', '='], c ∉ text) (hclean : ¬ placeholder <:+: text) (hflat : Flat text) :
  ∃ out, (outcome (highlightVariables config text) v).1 = .ok out ∧ withoutTags out = text := by
  have hlevel : Only isLevel text := fun c hc => isLevel_iff.mpr fun hmem => htext c hmem hc
  have hplain := unmarked_level hlevel hclean hflat fun name hname => hfree name (mem_longestFirst.mp hname)
  rw [outcome_highlightVariables, hnames]
  refine ⟨_, rfl, ?_⟩
  rw [highlightVariablesWith_unmarked, (highlightComments_shows (hplain.1 0)).2, hplain.2]

lemma flat_of_count (h : text.count '\x7b' ≤ 1) : Flat text := by
  rintro a b c rfl - hmem
  have hpos := count_pos_iff.mpr hmem
  simp only [count_append, count_cons_self] at h
  omega

/-- A variable, a keyword, quotes and a comment. -/
theorem highlightVariables_lossless_quotes : Flat "Log  '$\x7bx\x7d'  # \"y\"".toList ∧
    ∃ out, (outcome (highlightVariables none "Log  '$\x7bx\x7d'  # \"y\"".toList) (keeping ["Log"])).1 =
      .ok out ∧ withoutTags out = "Log  '$\x7bx\x7d'  # \"y\"".toList := by
  have hflat : Flat "Log  '$\x7bx\x7d'  # \"y\"".toList := flat_of_count (by decide)
  refine ⟨hflat, ?_⟩
  exact highlightVariables_lossless rfl (by decide) (by decide) (by decide) hflat

variable {line : String} {indent content cs a b n : List Char} {x sign : Char}

lemma append_eq_append_cons {u w : List Char} (hx : x ∉ u) (h : u ++ w = a ++ x :: b) :
  ∃ a', a = u ++ a' ∧ w = a' ++ x :: b := by
  rcases append_eq_append_iff.mp h with hright | ⟨y, rfl, hy⟩
  · exact hright
  cases y with
  | nil => exact ⟨[], by simp, hy.symm⟩
  | cons x' y => exact absurd (by simp [(cons.inj hy).1]) hx

abbrev Sheer (c : Char) : Prop := ∀ e ∈ entities, e.1 ≠ c ∧ c ∉ e.2.toList

lemma Sheer.written (hx : Sheer x) : written entities x = [x] := by
  refine written_of_not_key fun hkey => ?_
  rcases mem_map.mp hkey with ⟨e, he, rfl⟩
  exact (hx e he).1 rfl

lemma Sheer.not_mem (hx : Sheer x) {c : Char} (hc : c ≠ x) : x ∉ Markup.written entities c := by
  rcases written_entities c with ⟨e, he, -, hwritten⟩ | ⟨-, hwritten⟩
  · exact hwritten ▸ (hx e he).2
  · rw [hwritten, mem_singleton]
    exact hc.symm

lemma exists_escaped (hx : Sheer x) (h : replaceAll entities cs = a ++ x :: b) :
  ∃ a' b', cs = a' ++ x :: b' ∧ replaceAll entities a' = a ∧ replaceAll entities b' = b := by
  simp only [replaceAll_eq_flatMap] at h ⊢
  induction cs generalizing a with
  | nil => simp at h
  | cons c cs ih =>
    rw [flatMap_cons] at h
    by_cases hc : c = x
    · subst hc
      rw [hx.written] at h
      cases a with
      | nil => exact ⟨[], cs, rfl, rfl, (cons.inj h).2⟩
      | cons d a =>
        rcases ih (cons.inj h).2 with ⟨a', b', rfl, ha, hb⟩
        refine ⟨c :: a', b', rfl, ?_, hb⟩
        rw [flatMap_cons, ha, hx.written, (cons.inj h).1, singleton_append]
    · rcases append_eq_append_cons (hx.not_mem hc) h with ⟨a', rfl, hrest⟩
      rcases ih hrest with ⟨a', b', rfl, rfl, hb⟩
      exact ⟨c :: a', b', rfl, flatMap_cons, hb⟩

lemma escaped_append (a b : List Char) :
  replaceAll entities (a ++ b) = replaceAll entities a ++ replaceAll entities b := by
  simp only [replaceAll_eq_flatMap, flatMap_append]

lemma escaped_cons (hx : Sheer x) (cs : List Char) :
  replaceAll entities (x :: cs) = x :: replaceAll entities cs := by
  simp only [replaceAll_eq_flatMap, flatMap_cons, hx.written, singleton_append]

lemma not_mem_escaped (hx : Sheer x) (h : x ∉ cs) : x ∉ replaceAll entities cs := by
  intro hmem
  rcases append_of_mem hmem with ⟨a, b, hab⟩
  rcases exists_escaped hx hab with ⟨a', b', rfl, -⟩
  exact h (by simp)

lemma hash_not_mem_escaped (h : '#' ∉ cs) (hquote : '\'' ∉ cs) : '#' ∉ replaceAll entities cs := by
  rw [replaceAll_eq_flatMap, mem_flatMap]
  rintro ⟨c, hc, hmem⟩
  rcases written_entities c with ⟨e, he, rfl, hwritten⟩ | ⟨-, hwritten⟩
  · have hone : ∀ e ∈ entities, '#' ∈ e.2.toList → e.1 = '\'' := by decide
    exact hquote (hone e he (hwritten ▸ hmem) ▸ hc)
  · rw [hwritten] at hmem
    exact h (mem_singleton.mp hmem ▸ hc)

lemma escaped_ne_nil (h : cs ≠ []) : replaceAll entities cs ≠ [] := by
  rcases exists_cons_of_ne_nil h with ⟨c, cs, rfl⟩
  have hentities : ∀ e ∈ entities, e.2.toList ≠ [] := by decide
  rw [replaceAll_eq_flatMap, flatMap_cons]
  rcases written_entities c with ⟨e, he, -, hwritten⟩ | ⟨-, hwritten⟩
  · rw [hwritten]
    exact append_ne_nil_of_left_ne_nil (hentities e he) _
  · rw [hwritten]
    exact cons_ne_nil _ _

lemma Flat.escaped (h : Flat cs) : Flat (replaceAll entities cs) := by
  intro a b c hsplit hclose hopen
  rcases exists_escaped (by decide) hsplit with ⟨a', rest, rfl, -, hrest⟩
  rcases exists_escaped (by decide) hrest with ⟨b', c', rfl, rfl, -⟩
  by_cases hclose' : '\x7d' ∈ b'
  · rcases append_of_mem hclose' with ⟨b₁, b₂, rfl⟩
    rw [escaped_append, escaped_cons (by decide)] at hclose
    exact hclose (by simp)
  · exact not_mem_escaped (by decide) (h a' b' c' rfl hclose') hopen

lemma only_level_escape (h : '=' ∉ line.toList) : Only isLevel (escape line).toList := by
  refine fun c hc => isLevel_iff.mpr fun hmem => ?_
  have hcases : ∀ d ∈ ['<', '>', '='], d = '=' ∨ isSafe d = false := by decide
  rcases hcases c hmem with rfl | hbad
  · rw [escape, String.toList_ofList] at hc
    exact not_mem_escaped (by decide) h hc
  · have hsafe := escape_safe line c hc
    rw [hbad] at hsafe
    cases hsafe

lemma colour_readStep_cases (names : List String) (indent content : List Char) :
  (∃ name ∈ names, ∃ rest, content = name.toList ++ rest ∧ endsName rest ∧
    (readStep names indent content).colour =
      indent ++ ((keywordInk name).span name.toList ++ afterName names rest)) ∨
  (readStep names indent content).colour =
    indent ++ highlightVariablesWith (longestFirst names) content := by
  cases hvariable : startsWithVariable content with
  | true =>
    refine .inr ?_
    rw [readStep, hvariable]
    simp [Portions.colour, Portions.start, paint]
  | false =>
    rcases colour_readStep names indent hvariable with
      ⟨name, hmem, rest, hcontent, ⟨-, rest', hcontent', hends⟩, -, hcolour⟩ | ⟨-, hcolour⟩
    · cases append_cancel_left (hcontent.symm.trans hcontent')
      exact .inl ⟨name, hmem, rest, hcontent, hends, hcolour⟩
    · exact .inr hcolour

lemma exists_after_name {name rest : List Char} (hname : '\x7b' ∉ name) (hends : endsName rest)
  (h : name ++ rest = a ++ (sign :: '\x7b' :: b)) :
  ∃ a', a = name ++ a' ∧ rest = a' ++ (sign :: '\x7b' :: b) := by
  rw [append_cons] at h
  rcases append_eq_append_cons hname h with ⟨a', ha, rfl⟩
  rcases eq_nil_or_concat' a' with rfl | ⟨a', s, rfl⟩
  · cases hends
  · rw [← append_assoc] at ha
    rcases append_inj' ha rfl with ⟨rfl, hs⟩
    cases hs
    exact ⟨a', rfl, by simp⟩

lemma colour_readStep_variable
  (hnames : ∀ name ∈ names, '\x7b' ∉ name.toList ∧ ¬ placeholder <:+: name.toList)
  (hindent : Only isLevel indent) (hlevel : Only isLevel content) (hclean : ¬ placeholder <:+: content)
  (hflat : Flat content) (hsign : sign ∈ variableSigns) (hne : n ≠ [])
  (hn : ∀ c ∈ ['\x7b', '\x7d', '#'], c ∉ n)
  (h : content = a ++ (sign :: '\x7b' :: (n ++ '\x7d' :: b))) :
  ∃ front rest, (readStep names indent content).colour =
      front ++ (Ink.reference.span (sign :: '\x7b' :: (n ++ ['\x7d'])) ++ rest) ∧
    (withoutTags front).filter (· != ' ') = (indent ++ a).filter (· != ' ') := by
  -- What follows a keyword, or the whole step, is a text with the variable.
  have hshown : ∀ text a', text <:+ content → text = a' ++ (sign :: '\x7b' :: (n ++ '\x7d' :: b)) →
      ∃ front rest, highlightVariablesWith (longestFirst names) text =
        front ++ (Ink.reference.span (sign :: '\x7b' :: (n ++ ['\x7d'])) ++ rest) ∧
        withoutTags front = a' := by
    rintro text a' ⟨z, rfl⟩ htext
    exact highlightVariablesWith_variable (forall_mem_append.mp hlevel).2
      (fun hin => hclean (hin.trans (suffix_append _ _).isInfix)) hflat.of_append
      (fun name hname => (hnames name (mem_longestFirst.mp hname)).2) hsign hne hn htext
  rcases colour_readStep_cases names indent content with
    ⟨name, hmem, rest, hname, hends, hcolour⟩ | hcolour
  · rcases exists_after_name (hnames name hmem).1 hends (hname.symm.trans h) with ⟨a', rfl, hrest⟩
    rcases hshown rest a' ⟨name.toList, hname.symm⟩ hrest with ⟨front, tail, hshows, hbefore⟩
    refine ⟨indent ++ ((keywordInk name).span name.toList ++ ' ' :: front), tail, ?_, ?_⟩
    · have hsome : rest.isEmpty = false := by rw [hrest]; simp
      rw [hcolour, afterName, hsome, hshows]
      simp
    · have hname' : Only isLevel name.toList := (forall_mem_append.mp (hname ▸ hlevel)).1
      rw [(hindent.closed 0).withoutTags_append, hindent.withoutTags,
        (span_closed _ hname'.closed 0).withoutTags_append, withoutTags_span _ hname'.closed,
        hname'.withoutTags, withoutTags_char (p := isLevel) rfl, hbefore]
      simp
  · rcases hshown content a (suffix_refl _) h with ⟨front, tail, hshows, hbefore⟩
    refine ⟨indent ++ front, tail, by rw [hcolour, hshows, append_assoc], ?_⟩
    rw [(hindent.closed 0).withoutTags_append, hindent.withoutTags, hbefore]

/-- In a step without equals signs and `_MARKER_`, in which no brace opens between one that opens and
the next one that closes, each variable with `$` or `@` is shown as a variable, unless there is an
apostrophe or a `#` in it. Before it stands what does in the line, except that there can be one more
space. There are no variables with `&`, because it is escaped. -/
theorem highlightLine_variable (hnames : v.names? config = some names)
  (hfree : ∀ name ∈ names, '\x7b' ∉ name.toList ∧ ¬ placeholder <:+: name.toList)
  (hstep : classify (escape line).toList = .step indent content)
  (hequals : '=' ∉ line.toList) (hclean : ¬ placeholder <:+: line.toList) (hflat : Flat line.toList)
  (hsign : sign ∈ ['$', '@']) (hne : n ≠ []) (hn : ∀ c ∈ ['\x7b', '\x7d', '#', '\''], c ∉ n)
  (hline : line.toList = a ++ (sign :: '\x7b' :: (n ++ '\x7d' :: b))) :
  ∃ front rest, (outcome (highlightLine config line) v).1 = .ok (String.ofList (front ++
      ("<span style=\"color: #9cdcfe;\">".toList ++ (sign :: '\x7b' :: (replaceAll entities n ++ ['\x7d'])) ++
        "</span>".toList ++ rest))) ∧
    (withoutTags front).filter (· != ' ') = (replaceAll entities a).filter (· != ' ') := by
  rcases classify_eq_step hstep with ⟨hindent, hwhole, -⟩
  have hsheer : Sheer sign ∧ sign ∈ variableSigns ∧ isBlank sign = false := by
    have hall : ∀ s ∈ ['$', '@'], Sheer s ∧ s ∈ variableSigns ∧ isBlank s = false := by decide
    exact hall sign hsign
  -- The line is escaped and its indent is split off.
  have hescape : (escape line).toList = replaceAll entities line.toList := String.toList_ofList
  have hsplit : indent ++ content = replaceAll entities a ++
      (sign :: '\x7b' :: (replaceAll entities n ++ '\x7d' :: replaceAll entities b)) := by
    rw [← hwhole, hescape, hline, escaped_append, escaped_cons hsheer.1, escaped_cons (by decide),
      escaped_append, escaped_cons (by decide)]
  have hlevel : Only isLevel (indent ++ content) := hwhole ▸ only_level_escape hequals
  have hclean' : ¬ placeholder <:+: indent ++ content := hwhole ▸ mt placeholder_infix_escape.mp hclean
  have hflat' : Flat (indent ++ content) := hwhole ▸ hescape ▸ hflat.escaped
  have hblank : sign ∉ indent := fun hmem => by
    have hbad := all_eq_true.mp hindent sign hmem
    rw [hsheer.2.2] at hbad
    cases hbad
  rcases append_eq_append_cons hblank hsplit with ⟨a₀, ha, hcontent⟩
  have hn' : ∀ c ∈ ['\x7b', '\x7d', '#'], c ∉ replaceAll entities n :=
    forall_mem_cons.mpr ⟨not_mem_escaped (by decide) (hn _ (by decide)),
      forall_mem_cons.mpr ⟨not_mem_escaped (by decide) (hn _ (by decide)),
        forall_mem_singleton.mpr (hash_not_mem_escaped (hn _ (by decide)) (hn _ (by decide)))⟩⟩
  have hcontrol : ∀ name ∈ controlWords, '\x7b' ∉ name.toList ∧ ¬ placeholder <:+: name.toList := by decide
  rw [outcome_highlightLine hnames, readLine_step names hstep, ha]
  rcases colour_readStep_variable (forall_mem_append.mpr ⟨hfree, hcontrol⟩)
    (forall_mem_append.mp hlevel).1 (forall_mem_append.mp hlevel).2
    (fun hin => hclean' (hin.trans (suffix_append _ _).isInfix)) hflat'.of_append hsheer.2.1
    (escaped_ne_nil hne) hn' hcontent with ⟨front, rest, hcolour, hbefore⟩
  exact ⟨front, rest, by rw [hcolour]; rfl, hbefore⟩

/-- A variable after a keyword and between apostrophes. -/
theorem highlightLine_variable_quoted :
  classify (escape "    Log    '$\x7bx\x7d'").toList = .step "    ".toList "Log    &#x27;$\x7bx\x7d&#x27;".toList ∧
    ∃ front rest, (outcome (highlightLine none "    Log    '$\x7bx\x7d'") (keeping ["Log"])).1 =
      .ok (String.ofList (front ++
        (Ink.reference.span ('$' :: '\x7b' :: (replaceAll entities ['x'] ++ ['\x7d'])) ++ rest))) ∧
    (withoutTags front).filter (· != ' ') =
      (replaceAll entities "    Log    '".toList).filter (· != ' ') := by
  have hstep : classify (escape "    Log    '$\x7bx\x7d'").toList =
      .step "    ".toList "Log    &#x27;$\x7bx\x7d&#x27;".toList :=
    classify_of_indented (by decide) (by decide) (by decide) (by decide)
  refine ⟨hstep, ?_⟩
  exact highlightLine_variable rfl (by decide) hstep (by decide) (by decide) (flat_of_count (by decide))
    (by decide) (by decide) (by decide) (b := ['\'']) rfl

end KeywordDocs.Highlight
