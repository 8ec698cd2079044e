import KeywordDocs.Proofs.Highlight.Reading

/-!
# Listings are Woven of Tags

Whatever code is shown in, it is woven of the tags of coloured stretches. For test code that is a fact about
the colouring of lines.
-/

namespace KeywordDocs.Highlight

open Text Markup
open List hiding replace

variable {config : Option Json} {v : Vocabulary} {s : String}

/-- Shaders that escape code and put coloured stretches into it, and nothing else. -/
def Colours (shade : Shader) : Prop := ∀ language code, Woven SpanTag (shade language code).toList

lemma Tone.span_woven (t : Tone) (cs : List Char) : Woven SpanTag (t.span cs).toList := by
  have hbody : Woven SpanTag (escapeCode (String.ofList cs)).toList := (escapeCode_plain _).woven
  have hstyle : ∀ style, t.style? = some style → Plain style.toList := by
    intro style h
    cases t <;> cases h <;> decide
  unfold Tone.span
  split
  · exact hbody
  case h_2 style hsome =>
    simp only [String.toList_append]
    have hopening := Woven.single (SpanTag.opening style.toList (hstyle style hsome))
    exact (hopening.append hbody).append (Woven.single .closing)

lemma tonedFrom_woven (n : Nat) (before : String) (cs : List Char) :
  Woven SpanTag (tonedFrom n before cs).toList := by
  induction n generalizing before cs with
  | zero => cases cs <;> exact .nil
  | succ n ih =>
    cases cs with
    | nil => exact .nil
    | cons c cs =>
      rw [tonedFrom]
      rcases stretchAt before c cs with ⟨tone, run, rest⟩
      simp only [String.toList_append]
      exact (tone.span_woven run).append (ih _ rest)

lemma standardShader_colours : Colours standardShader := by
  intro language code
  unfold standardShader
  split
  · exact tonedFrom_woven _ _ _
  · exact (escapeCode_plain _).woven

lemma trimRight_woven {T : List Char → Prop}
  (hT : ∀ t c, T t → t.getLast? = some c → isBlank c = false) (h : Woven T s.toList) :
  Woven T (trimRight s).toList := by
  rw [trimRight, String.toList_ofList]
  exact h.dropEndWhile hT

lemma spanTag_last {t : List Char} {c : Char} (h : SpanTag t) (hc : t.getLast? = some c) :
  isBlank c = false := by
  rcases spanTag_body h with ⟨d, body, rfl, -⟩
  rw [getLast?_concat, Option.some.injEq] at hc
  subst hc
  decide

lemma highlightVariables_yields {text : List Char} (h : Safe text) :
  Yields config (highlightVariables config text) v Closed :=
  knownNames_yields.bind fun names _ _ _ => .pure (highlightVariablesWith_closed (longestFirst names) h)

lemma highlightStep_yields {indent content : List Char} (hindent : Safe indent)
  (hcontent : Safe content) :
  Yields config (highlightStep config indent content) v Closed := by
  -- Three of the branches colour the whole content and differ in why they do.
  have hall : ∀ {v : Vocabulary}, Yields config
      (highlightVariables config content >>= fun cs => pure (indent ++ cs)) v Closed :=
    (highlightVariables_yields hcontent).bind fun cs _ _ hcs => .pure (hindent.closed.append hcs)
  unfold highlightStep
  refine knownNames_yields.bind fun names v₁ _ _ => (learn_yields _).bind fun _ v₂ _ _ => ?_
  split
  · exact hall
  · split
    case h_2 => exact hall
    case h_1 name rest hfound =>
      split
      · exact hall
      · rw [(leadingKeyword_eq_some hfound).1] at hcontent
        rcases forall_mem_append.mp hcontent with ⟨hname, hrest⟩
        have hstart := hindent.closed.append (span_closed (keywordInk name) (Only.closed hname))
        split
        · exact .pure hstart
        · exact (highlightVariables_yields hrest).bind fun cs _ _ hcs =>
            .pure (hstart.append fun d => .char (by decide) (hcs d))

lemma highlightEscaped_yields {line : List Char} (h : Safe line) :
  Yields config (highlightEscaped config line) v Closed := by
  unfold highlightEscaped
  split
  · exact .pure (span_closed _ h.closed)
  · exact .pure (span_closed _ h.closed)
  case h_3 indent name rest hkind =>
    rcases classify_eq_setting hkind with ⟨-, rfl, hrest⟩
    rcases settingRest?_eq_some hrest with ⟨blanks, -, hline⟩
    have hparts : Safe (line.takeWhile isBlank ++ name.toList ++ rest ++ blanks) := hline ▸ h
    simp only [forall_mem_append] at hparts
    rcases hparts with ⟨⟨⟨hindent, hname⟩, hrest⟩, -⟩
    exact .pure (((Only.closed hindent).append (span_closed _ (Only.closed hname))).append
      (Only.closed hrest))
  · exact .pure (span_closed _ h.closed)
  case h_5 indent content hkind =>
    rw [(classify_eq_step hkind).2.1] at h
    exact highlightStep_yields (forall_mem_append.mp h).1 (forall_mem_append.mp h).2
  · exact highlightVariables_yields h

lemma escape_safe (s : String) : Safe (escape s).toList := by
  have hquote : '\'' ∉ (escape s).toList := by
    have hremoves : Removes entities '\'' := by decide
    rw [escape, String.toList_ofList]
    exact replaceAll_not_mem hremoves.2 hremoves.1 s.toList
  intro c hc
  have hne : c ≠ '\'' := fun h => hquote (h ▸ hc)
  rw [isSafe, escape_plain s c hc, decide_eq_true hne, Bool.and_self]

lemma highlightLine_yields (line : String) :
  Yields config (highlightLine config line) v fun s => Closed s.toList := by
  unfold highlightLine
  split
  · exact .pure (Only.closed (forall_mem_nil _))
  · refine (highlightEscaped_yields (escape_safe line)).bind fun cs _ _ hcs => .pure ?_
    rwa [String.toList_ofList]

/-- A line in colour is made of safe characters and of tags of coloured stretches, which stand one in
the other and are all closed. -/
theorem highlightLine_spans (hv : Named config v) (line : String) :
  ∃ out, (outcome (highlightLine config line) v).1 = .ok out ∧ Spans 0 0 out.toList := by
  rcases (highlightLine_yields line).total hv with ⟨out, hout⟩
  exact ⟨out, hout, (highlightLine_yields line).result out hout 0⟩

/-- A step with a known name, a variable in a named argument and a comment. -/
theorem highlightLine_spans_step : Named none (.fresh (some [.str "Open Page"]) standardShader) ∧
    ∃ out, (outcome (highlightLine none "    Open Page  url=$\x7bhost\x7d  # it's <b>")
      (.fresh (some [.str "Open Page"]) standardShader)).1 = .ok out ∧ Spans 0 0 out.toList := by
  have hv : Named none (.fresh (some [.str "Open Page"]) standardShader) := by
    intro n hn
    rw [customNames, Option.bind_none, append_nil] at hn
    exact ⟨"Open Page", by rw [mem_singleton.mp hn]; rfl⟩
  exact ⟨hv, highlightLine_spans hv _⟩

lemma highlightCode_yields (code : String) :
  Yields config (highlightCode config code) v fun s => Woven InkTag s.toList := by
  unfold highlightCode
  split
  · exact .pure .nil
  · refine (Yields.mapM_forall fun line _ _ _ => highlightLine_yields line).bind
      fun ls _ _ hls => .pure ?_
    have hwoven := fun line hline => Spans.woven (hls line hline 0)
    exact trimRight_woven (fun t c ht => spanTag_last (spanTag_of_inkTag t ht)) (unlines_woven hwoven)

lemma spanTag_at {cs rest : List Char} (h : Woven SpanTag cs) (hrest : '<' :: rest <:+ cs) :
  ['s'] <+: rest ∨ ['/', 's'] <+: rest := by
  induction h with
  | nil => cases suffix_nil.mp hrest
  | char c cs hc _ ih =>
    rcases suffix_cons_iff.mp hrest with heq | hrest
    · cases (isInert_ne_lt hc) (cons.inj heq).1.symm
    · exact ih hrest
  | tag t cs ht _ ih =>
    have hstart : ∃ tail, t = '<' :: tail ∧ '<' ∉ tail ∧ (['s'] <+: tail ∨ ['/', 's'] <+: tail) := by
      cases ht with
      | opening style hstyle =>
        have hlt : '<' ∉ style := fun hc => absurd (hstyle '<' hc) (by decide)
        refine ⟨"span style=\"".toList ++ style ++ "\">".toList, by simp, by simp [hlt], .inl ?_⟩
        exact ⟨_, rfl⟩
      | closing => exact ⟨"/span>".toList, rfl, by decide, .inr ⟨_, rfl⟩⟩
    rcases hstart with ⟨tail, rfl, hlt, hstart⟩
    rw [cons_append] at hrest
    rcases suffix_cons_iff.mp hrest with heq | hrest
    · rw [(cons.inj heq).2]
      exact hstart.imp (·.trans (prefix_append _ _)) (·.trans (prefix_append _ _))
    · -- Inside of a tag there is no angle bracket, so the place is after it.
      have hafter : ∀ tail : List Char, '<' ∉ tail → '<' :: rest <:+ tail ++ cs → '<' :: rest <:+ cs := by
        intro tail
        induction tail with
        | nil => exact fun _ h => h
        | cons c tail ih =>
          intro hlt h
          rcases suffix_cons_iff.mp h with heq | h
          · cases hlt ((cons.inj heq).1 ▸ mem_cons_self)
          · exact ih (fun hc => hlt (mem_cons_of_mem c hc)) h
      exact ih (hafter tail hlt hrest)

lemma spanTag_front {cs front after : List Char} (h : Woven SpanTag cs)
  (hfront : '<' :: front ++ after <:+ cs) (hlen : 2 ≤ front.length) :
  ['s'] <+: front ∨ ['/', 's'] <+: front := by
  rw [cons_append] at hfront
  have hshort : ∀ start : List Char, start.length ≤ 2 → start <+: front ++ after → start <+: front :=
    fun start hstart hfound => prefix_of_prefix_length_le hfound (prefix_append _ _) (hstart.trans hlen)
  exact (spanTag_at h hfront).imp (hshort _ (by decide)) (hshort _ (by decide))

lemma replace_eq_self {old new s : String} (h : Woven SpanTag s.toList) {rest : List Char}
  (hold : old.toList = '<' :: rest) (hs : ¬ ['s'] <+: rest) (hslash : ¬ ['/', 's'] <+: rest)
  (hlen : 2 ≤ rest.length) : replace old new s = s := by
  rw [replace, replaceChars_eq_self (by rw [hold]; exact cons_ne_nil _ _), String.ofList_toList]
  intro suffix hsuffix hstarts
  rcases hstarts with ⟨after, rfl⟩
  rw [hold] at hsuffix
  exact (spanTag_front h hsuffix hlen).elim hs hslash

lemma unwrapped_eq_self (h : Woven SpanTag s.toList) : unwrapped s = s := by
  have hopening : replace "<div class=\"highlight\"><pre>" "" s = s :=
    replace_eq_self h rfl (by decide) (by decide) (by decide)
  rw [unwrapped, hopening]
  exact replace_eq_self h rfl (by decide) (by decide) (by decide)

lemma replaceChars_plain {old new cs : List Char} (hold : old ≠ []) (hnew : Plain new)
  (hcs : Plain cs) : Plain (replaceChars old new cs) := by
  have hempty : old.isEmpty = false := by simpa using hold
  -- Plain texts are those that are woven of no tags at all.
  have hwoven : Woven (fun _ => False) (replaceChars old new cs) := by
    rw [replaceChars, hempty]
    exact Woven.replaceFrom_of_plain hnew.woven 0 hcs
  intro c hc
  by_cases hinert : isInert c
  · exact hinert
  · cases (hwoven.not_mem (by simpa using hinert) fun t ht => ht.elim) hc

lemma recolour_woven {old new : String} (hne : old.toList ≠ []) (hold : Plain old.toList)
  (hnew : Plain new.toList)
  (hfixed : ∀ part ∈ ["<span style=", ">", "</span>"],
    replaceChars old.toList new.toList part.toList = part.toList)
  (h : Woven SpanTag s.toList) : Woven SpanTag (replace old new s).toList := by
  have hmissing : ∀ c, isInert c = false → c ∉ old.toList := by
    intro c hc hmem
    rw [hold c hmem] at hc
    cases hc
  rw [replace, String.toList_ofList]
  refine Woven.replaceChars hne (hmissing '<' rfl) (hmissing '>' rfl) hnew.woven (fun t ht => ?_) h
  rcases spanTag_body ht with ⟨c, body, hbody, -⟩
  refine ⟨⟨c :: body, hbody⟩, ?_⟩
  cases ht with
  | opening style hstyle =>
    -- The quotation marks cut the tag into two fixed parts and the style between them.
    have hquote := fun a b => replaceChars_append_cons new.toList hne (hmissing '"' rfl) a b
    rw [show "<span style=\"".toList ++ style ++ "\">".toList =
      "<span style=".toList ++ '"' :: (style ++ '"' :: ">".toList) by simp, hquote, hquote,
      hfixed _ (by decide), hfixed _ (by decide)]
    have htag := Woven.single (SpanTag.opening _ (replaceChars_plain hne hnew hstyle))
    rwa [show "<span style=\"".toList ++ replaceChars old.toList new.toList style ++ "\">".toList =
      "<span style=".toList ++ '"' :: (replaceChars old.toList new.toList style ++ '"' :: ">".toList)
      by simp] at htag
  | closing =>
    rw [hfixed _ (by decide)]
    exact Woven.single .closing

lemma brighten_woven (h : Woven SpanTag s.toList) : Woven SpanTag (brighten s).toList :=
  recolour_woven (by decide) (by decide) (by decide) (by decide)
    (recolour_woven (by decide) (by decide) (by decide) (by decide) h)

lemma listing_yields (language code : String) : Yields config (listing config language code) v
    fun s => Colours v.shade → Woven SpanTag s.toList := by
  unfold listing
  split
  · exact (highlightCode_yields code).mono fun s hs _ => hs.mono spanTag_of_inkTag
  · refine Yields.get.bind fun v' _ _ hv' => .pure fun hv => ?_
    have hshaded := hv language (trimRight code)
    rw [hv', unwrapped_eq_self hshaded]
    exact trimRight_woven (fun t c ht => spanTag_last ht) (brighten_woven hshaded)

end KeywordDocs.Highlight
