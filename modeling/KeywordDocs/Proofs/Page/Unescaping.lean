import KeywordDocs.Proofs.Highlight.Clipping
import KeywordDocs.Proofs.Page.Fences

/-!
# Escaping Undone

Reading the five entities of a text in turn undoes escaping (`unescaped`). The program has two other readers:
for Markdown entities are decoded and then tags removed, and for summaries tags go first. Neither undoes
escaping for every text; what is not undone is found by counting.
-/

namespace KeywordDocs.Page

open Text Markup List

/-- How a character is escaped: five of them as entities, all others as they are. -/
def coded : Char → List Char
  | '&' => "&amp;".toList
  | '<' => "&lt;".toList
  | '>' => "&gt;".toList
  | '"' => "&quot;".toList
  | '\'' => "&#x27;".toList
  | c => [c]

/-- A text with every one of the five entities read as its character, from left to right. -/
def unescaped (cs : List Char) : List Char := replaceFinds (entityOf entities) cs

lemma escape_eq_coded (s : String) : (escape s).toList = s.toList.flatMap coded := by
  have hchar : ∀ c, written entities c = coded c := by
    intro c
    by_cases hc : c ∈ entities.map Prod.fst
    · have hkeys : ∀ c ∈ entities.map Prod.fst, written entities c = coded c := by decide
      exact hkeys c hc
    · rw [written_of_not_key hc]
      unfold coded
      split
      case h_6 => rfl
      all_goals exact absurd (by decide) hc
  rw [escape_toList, funext hchar]

/-- Escaping is a code of single characters: it goes through concatenation, none of the characters that are
coded is left except for the `&` of an entity, and it is undone by reading the entities in turn. -/
theorem escape_coded (s t : String) :
  (escape s).toList = s.toList.flatMap coded ∧ escape (s ++ t) = escape s ++ escape t ∧
    (∀ c ∈ ['<', '>', '"', '\''], c ∉ (escape s).toList) ∧ Highlight.Whole (escape s).toList ∧
    unescaped (escape s).toList = s.toList := by
  refine ⟨escape_eq_coded s, ?_, fun c hc => ?_, Highlight.whole_escape s, ?_⟩
  · rw [← String.toList_inj, String.toList_append, escape_eq_coded, escape_eq_coded, escape_eq_coded,
      String.toList_append, flatMap_append]
  · have hcoded : ∀ c ∈ ['<', '>', '"', '\''],
        (∀ e ∈ entities, c ∉ e.2.toList) ∧ c ∈ entities.map Prod.fst := by decide
    rw [escape, String.toList_ofList]
    exact replaceAll_not_mem (hcoded c hc).1 (hcoded c hc).2 _
  · rw [escape_toList]
    exact replaceFinds_entityOf (.inl rfl) _

variable {table : List (String × String)}

variable {cs : List Char}

lemma flatMap_apostrophe (h : '\'' ∉ cs) (q : String) : cs.flatMap (written [('\'', q)]) = cs := by
  rw [← replaceAll_eq_flatMap]
  exact replaceAll_eq_self (forall_mem_singleton.mpr h)

lemma forall_spelled :
  (∀ e ∈ table.map Prod.fst, ¬ e.toList <:+: cs) ↔ ∀ e ∈ table, ¬ e.1.toList <:+: cs :=
  forall_mem_map (P := fun e : String => ¬ e.toList <:+: cs)

lemma literals_of_stripped (h : withoutTags (replaceFinds spanContent (decode literalEntities cs)) = cs) :
  (∀ e ∈ literalEntities, ¬ e.1.toList <:+: cs) ∧ TagFree cs := by
  have hdecode := count_decode (by decide : Loses literalEntities) cs
  have hstripped := ((withoutTags_sublist _).trans
    (unspanned_sublist (decode literalEntities cs))).count_le ';'
  rw [h] at hstripped
  rcases hdecode.2 (by omega) with ⟨hsame, hentities⟩
  rw [hsame] at h
  exact ⟨hentities, (tagFree_of_count (congrArg (List.count '<') h)).1⟩

/-- Stripping undoes the escaping of a text exactly if the text has no apostrophe, none of the entities
`&lt;`, `&gt;` and `&nbsp;`, and no tag. -/
theorem stripMarkup_escape_iff (s : String) : stripMarkup (escape s).toList = s.toList ↔
  '\'' ∉ s.toList ∧ (∀ e ∈ ["&lt;", "&gt;", "&nbsp;"], ¬ e.toList <:+: s.toList) ∧
    ¬ ∃ body, body ≠ [] ∧ '>' ∉ body ∧ '<' :: (body ++ ['>']) <:+: s.toList := by
  have hdecode : decode markdownEntities (escape s).toList =
      (decode literalEntities s.toList).flatMap (written [('\'', "&#x27;")]) := by
    rw [escape_toList]
    exact decode_written (markdownEntities.take 2) _ (by decide) (by decide) s.toList
  rw [stripMarkup, hdecode]
  have hplain : '\'' ∉ s.toList → (decode literalEntities s.toList).flatMap
      (written [('\'', "&#x27;")]) = decode literalEntities s.toList := fun h =>
    flatMap_apostrophe (not_mem_decode (by decide) h) _
  constructor
  · intro h
    -- Apostrophes are still escaped after decoding, and stripping only leaves characters out.
    have hapostrophe : '\'' ∉ s.toList := by
      rw [← h]
      intro hmem
      have hwritten := ((withoutTags_sublist _).trans (unspanned_sublist _)).subset hmem
      rw [← replaceAll_eq_flatMap] at hwritten
      exact replaceAll_not_mem (by decide) (by decide) _ hwritten
    rw [hplain hapostrophe] at h
    rcases literals_of_stripped h with ⟨hentities, hfree⟩
    refine ⟨hapostrophe, forall_spelled.mpr hentities, ?_⟩
    rintro ⟨body, hne, hbody, htag⟩
    exact tagFree_iff.mp hfree body hne hbody htag
  · rintro ⟨hapostrophe, hentities, htags⟩
    have hfree : TagFree s.toList := tagFree_iff.mpr fun body hne hbody htag => htags ⟨body, hne, hbody, htag⟩
    have hsame := decode_eq_self (by decide : Loses literalEntities) (forall_spelled.mp hentities)
    rw [hplain hapostrophe, hsame, unspanned_of_tagFree hfree]

variable {c : Char}

lemma count_dropWhile {p : Char → Bool} (hc : p c = false) (cs : List Char) :
  (cs.dropWhile p).count c = cs.count c := by
  have hsplit := congrArg (List.count c) (takeWhile_append_dropWhile (p := p) (l := cs))
  have hfront : (cs.takeWhile p).count c = 0 := count_eq_zero.mpr fun hmem => by
    rw [mem_takeWhile_imp hmem] at hc
    cases hc
  rw [count_append] at hsplit
  omega

lemma count_trimChars (hc : isBlank c = false) (cs : List Char) : (trimChars cs).count c = cs.count c := by
  rw [trimChars, trimRightChars, dropEndWhile, count_reverse, count_dropWhile hc, count_reverse,
    trimLeftChars, count_dropWhile hc]

def innerEntities : List (String × String) :=
  [("&lt;", "<"), ("&gt;", ">"), ("&quot;", "\"")]

lemma decode_summary (s : String) : decode summaryEntities (escape s).toList =
  replaceChars "&#39;".toList "'".toList
    ((decode innerEntities s.toList).flatMap (written [('\'', "&#x27;")])) := by
  have hlast : ∀ cs, decode summaryEntities cs =
      replaceChars "&#39;".toList "'".toList (decode (summaryEntities.take 5) cs) := fun _ => rfl
  have hinner : decode (summaryEntities.take 5) (s.toList.flatMap (written entities)) =
      (decode innerEntities s.toList).flatMap (written [('\'', "&#x27;")]) :=
    decode_written (summaryEntities.take 2) _ (by decide) (by decide) s.toList
  rw [escape_toList, hlast, hinner]

lemma count_decode_eq
  (h : ∀ e ∈ table, e.1.toList ≠ [] ∧ e.2.toList.count c = e.1.toList.count c) (cs : List Char) :
  (decode table cs).count c = cs.count c := by
  induction table generalizing cs with
  | nil => rfl
  | cons e table ih =>
    rcases h e mem_cons_self with ⟨hne, hcount⟩
    exact (ih (fun e' he' => h e' (mem_cons_of_mem e he')) _).trans (count_replaceChars hne hcount cs)

lemma count_flatMap_apostrophe (cs : List Char) :
  (cs.flatMap (written [('\'', "&#x27;")])).count 'x' = cs.count 'x' + cs.count '\'' := by
  induction cs with
  | nil => rfl
  | cons d cs ih =>
    rw [flatMap_cons, count_append, ih, count_cons, count_cons]
    by_cases hd : d = '\''
    · subst hd
      have hone : (written [('\'', "&#x27;")] '\'').count 'x' = 1 := by decide
      rw [hone]
      simp
      omega
    · have hsame : written [('\'', "&#x27;")] d = [d] := written_of_not_key (by simpa using hd)
      rw [hsame, count_singleton]
      simp [hd]
      omega

/-- The plain text of an escaped text is the text without white space at its ends exactly if the text
has no apostrophe and none of the entities `&lt;`, `&gt;`, `&quot;` and `&#39;`. -/
theorem plainText_escape_iff (s : String) : plainText (escape s) = trim s ↔
  '\'' ∉ s.toList ∧ ∀ e ∈ ["&lt;", "&gt;", "&quot;", "&#39;"], ¬ e.toList <:+: s.toList := by
  have htags : withoutTags (escape s).toList = (escape s).toList := by
    have hlt : '<' ∉ (escape s).toList := by
      rw [escape, String.toList_ofList]
      exact replaceAll_not_mem (by decide) (by decide) _
    refine withoutTags_of_tagFree (tagFree_iff.mpr fun body _ _ hpart => hlt ?_)
    exact hpart.subset mem_cons_self
  have hplain : '\'' ∉ s.toList → decode summaryEntities (escape s).toList =
      decode (summaryEntities.drop 2) s.toList := fun h => by
    rw [decode_summary, flatMap_apostrophe (not_mem_decode (by decide) h)]
    rfl
  have hloses : Loses (summaryEntities.drop 2) := by decide
  rw [plainText, trim, htags, String.ofList_inj]
  constructor
  · intro h
    have hcount : ∀ c, isBlank c = false → (decode summaryEntities (escape s).toList).count c =
        s.toList.count c := fun c hc => by
      rw [← count_trimChars hc, h, count_trimChars hc]
    -- Trimming hides where a text changed but not how often `x` is in it, and `&#x27;` has one.
    have hapostrophe : '\'' ∉ s.toList := by
      have hx := hcount 'x' (by decide)
      rw [decode_summary, count_replaceChars (by decide) (by decide), count_flatMap_apostrophe,
        count_decode_eq (by decide), count_decode_eq (by decide)] at hx
      exact count_eq_zero.mp (by omega)
    have hsemicolons := hcount ';' (by decide)
    rw [hplain hapostrophe] at hsemicolons
    exact ⟨hapostrophe, forall_spelled.mpr ((count_decode hloses _).2 hsemicolons).2⟩
  · rintro ⟨hapostrophe, hentities⟩
    rw [hplain hapostrophe, decode_eq_self hloses (forall_spelled.mp hentities)]

end KeywordDocs.Page
