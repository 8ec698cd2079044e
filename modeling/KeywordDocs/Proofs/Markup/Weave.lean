import KeywordDocs.Highlight.Variables
import KeywordDocs.Proofs.Text.Rewriting

/-!
# Texts Woven of Tags

Nothing in a page is markup but the tags that were put there: it is *woven* of a kind of tags, a sequence of
whole tags of that kind and of *inert* characters, others than angle brackets and quotation marks. Most tags
of a page are fixed texts; three kinds have an attribute with a value from the text.
-/

namespace KeywordDocs.Markup

open Text Highlight List

/-- Characters that neither start nor end a tag nor end the value of an attribute. -/
def isInert (c : Char) : Bool :=
  c ≠ '<' && c ≠ '>' && c ≠ '"'

/-- Texts without a meaning in markup. -/
def Plain (cs : List Char) : Prop := ∀ c ∈ cs, isInert c

instance (cs : List Char) : Decidable (Plain cs) := decidable_of_iff (cs.all isInert) all_eq_true

/-- Texts of inert characters and whole tags of the kind `T`. -/
inductive Woven (T : List Char → Prop) : List Char → Prop where
  | nil : Woven T []
  | char (c : Char) (cs : List Char) (hc : isInert c) (h : Woven T cs) : Woven T (c :: cs)
  | tag (t cs : List Char) (ht : T t) (h : Woven T cs) : Woven T (t ++ cs)

def Opens (T : List Char → Prop) : Prop := ∀ t, T t → ∃ rest, t = '<' :: rest

def Avoids (T : List Char → Prop) (c : Char) : Prop := ∀ t, T t → c ∉ t

def PrefixFree (T : List Char → Prop) : Prop := ∀ t u a b, T t → T u → t ++ a = u ++ b → t = u

namespace Plain

lemma nil : Plain [] := by
  intro c hc
  cases hc

lemma cons {c : Char} {cs : List Char} (hc : isInert c) (h : Plain cs) : Plain (c :: cs) := by
  intro d hd
  rcases mem_cons.mp hd with rfl | hd
  · exact hc
  · exact h d hd

lemma append {a b : List Char} (ha : Plain a) (hb : Plain b) : Plain (a ++ b) := by
  intro c hc
  rcases mem_append.mp hc with hc | hc
  · exact ha c hc
  · exact hb c hc

lemma woven {T : List Char → Prop} {cs : List Char} (h : Plain cs) : Woven T cs := by
  induction cs with
  | nil => exact .nil
  | cons c cs ih => exact .char c cs (h c mem_cons_self) (ih fun d hd => h d (mem_cons_of_mem c hd))

end Plain

lemma isInert_ne_lt {c : Char} (hc : isInert c) : c ≠ '<' := by
  rintro rfl
  exact absurd hc (by decide)

namespace Woven

variable {T T' : List Char → Prop} {a b cs old new : List Char} {c : Char}

lemma single {t : List Char} (ht : T t) : Woven T t := by
  have h := Woven.tag t [] ht .nil
  rwa [append_nil] at h

lemma append (ha : Woven T a) (hb : Woven T b) : Woven T (a ++ b) := by
  induction ha with
  | nil => exact hb
  | char c cs hc _ ih => exact .char c (cs ++ b) hc ih
  | tag t cs ht _ ih =>
    rw [append_assoc]
    exact .tag t (cs ++ b) ht ih

lemma mono (hTT : ∀ t, T t → T' t) (h : Woven T cs) : Woven T' cs := by
  induction h with
  | nil => exact .nil
  | char c cs hc _ ih => exact .char c cs hc ih
  | tag t cs ht _ ih => exact .tag t cs (hTT t ht) ih

lemma not_mem (hc : isInert c = false) (hT : Avoids T c) (h : Woven T cs) : c ∉ cs := by
  induction h with
  | nil => exact not_mem_nil
  | char d ds hd _ ih =>
    intro hmem
    rcases mem_cons.mp hmem with rfl | hmem
    · rw [hc] at hd
      cases hd
    · exact ih hmem
  | tag t ds ht _ ih =>
    intro hmem
    rcases mem_append.mp hmem with hmem | hmem
    · exact hT t ht hmem
    · exact ih hmem

lemma tail (hT : Opens T) (hc : isInert c) (h : Woven T (c :: cs)) : Woven T cs := by
  generalize hl : c :: cs = l at h
  induction h with
  | nil => cases hl
  | char d ds _ h _ =>
    cases hl
    exact h
  | tag t ds ht h ih =>
    rcases hT t ht with ⟨rest, rfl⟩
    rw [cons_append] at hl
    injection hl with hhead _
    cases (isInert_ne_lt hc) hhead

lemma of_append_plain (hT : Opens T) (ha : Plain a) (h : Woven T (a ++ b)) : Woven T b := by
  induction a with
  | nil => exact h
  | cons c a ih => exact ih (fun d hd => ha d (mem_cons_of_mem c hd)) (h.tail hT (ha c mem_cons_self))

lemma cut (hc : Avoids T c) (h : Woven T (a ++ c :: b)) : Woven T a ∧ Woven T b := by
  generalize hl : a ++ c :: b = l at h
  induction h generalizing a with
  | nil => simp at hl
  | char d ds hd h ih =>
    cases a with
    | nil =>
      cases hl
      exact ⟨.nil, h⟩
    | cons x a =>
      rw [cons_append] at hl
      injection hl with hx hl
      rcases ih hl with ⟨ha, hb⟩
      exact ⟨.char x a (hx ▸ hd) ha, hb⟩
  | tag t ds ht _ ih =>
    -- The tag ends before the cut, or the cut is at one of its characters.
    rcases append_eq_append_iff.mp hl with ⟨m, rfl, hm⟩ | ⟨m, rfl, rfl⟩
    · cases m with
      | nil =>
        rw [append_nil] at ht
        exact ⟨single ht, (ih (a := []) hm).2⟩
      | cons x m =>
        injection hm with hx _
        cases (hc _ ht) (mem_append_right a (hx ▸ mem_cons_self))
    · rcases ih rfl with ⟨ha, hb⟩
      exact ⟨.tag t m ht ha, hb⟩

lemma cancel (hT : Opens T) (hfree : PrefixFree T) (ha : Woven T a) (h : Woven T (a ++ b)) :
  Woven T b := by
  induction ha with
  | nil => exact h
  | char c cs hc _ ih => exact ih (h.tail hT hc)
  | tag t cs ht _ ih =>
    refine ih ?_
    rw [append_assoc] at h
    -- The whole text starts with an angle bracket, so it is read as a tag, and the same one.
    generalize hl : t ++ (cs ++ b) = l at h
    rcases hT t ht with ⟨rest, hrest⟩
    cases h with
    | nil => simp [hrest] at hl
    | char d ds hd h =>
      rw [hrest, cons_append] at hl
      injection hl with hhead _
      cases (isInert_ne_lt hd) hhead.symm
    | tag u ds hu h =>
      have htu : t = u := hfree t u _ _ ht hu hl
      subst htu
      rwa [append_cancel_left hl]

lemma of_concat (hc : ∀ t, T t → t.getLast? ≠ some c) {a : List Char} (h : Woven T (a ++ [c])) :
  Woven T a := by
  generalize hl : a ++ [c] = l at h
  induction h generalizing a with
  | nil => simp at hl
  | char d ds hd h ih =>
    cases a with
    | nil => exact .nil
    | cons x a =>
      rw [cons_append] at hl
      injection hl with hx hl
      exact .char x a (hx ▸ hd) (ih hl)
  | tag t ds ht h ih =>
    -- If nothing follows the tag, the character would be its last one.
    rcases eq_nil_or_concat ds with rfl | ⟨front, d, rfl⟩
    · rw [append_nil] at hl
      exact absurd (by rw [← hl, getLast?_concat]) (hc t ht)
    · rw [concat_eq_append, ← append_assoc] at hl
      rcases append_inj' hl rfl with ⟨rfl, hcd⟩
      exact .tag t front ht (ih (by rw [concat_eq_append, hcd]))

lemma dropEndWhile {p : Char → Bool} (hp : ∀ t c, T t → t.getLast? = some c → p c = false)
  (h : Woven T cs) : Woven T (Text.dropEndWhile p cs) := by
  -- The induction is on the length, because characters go away at the other end.
  induction hn : cs.length generalizing cs with
  | zero =>
    rw [length_eq_zero_iff] at hn
    subst hn
    exact .nil
  | succ n ih =>
    rcases eq_nil_or_concat cs with rfl | ⟨front, c, rfl⟩
    · simp at hn
    · rw [concat_eq_append] at h hn ⊢
      rw [dropEndWhile_concat]
      cases hpc : p c with
      | false => exact h
      | true =>
        refine ih (h.of_concat fun t ht hlast => ?_) (by simpa using hn)
        rw [hp t c ht hlast] at hpc
        cases hpc

lemma replaceFrom_of_plain (hnew : Woven T new) {run : List Char} (k : Nat) (hrun : Plain run) :
  Woven T (replaceFrom old new k run) := by
  induction run generalizing k with
  | nil => cases k <;> exact .nil
  | cons c run ih =>
    have hrest : Plain run := fun d hd => hrun d (mem_cons_of_mem c hd)
    cases k with
    | succ k => exact ih k hrest
    | zero =>
      rw [replaceFrom]
      split
      · exact hnew.append (ih _ hrest)
      · exact .char c _ (hrun c mem_cons_self) (ih 0 hrest)

lemma replaceChars (hold : old ≠ []) (hlt : '<' ∉ old) (hgt : '>' ∉ old) (hnew : Woven T' new)
  (htag : ∀ t, T t → (∃ body, t = '<' :: body ++ ['>']) ∧ Woven T' (Text.replaceChars old new t))
  (h : Woven T cs) : Woven T' (Text.replaceChars old new cs) := by
  have hempty : old.isEmpty = false := by simpa using hold
  have hstretch : ∀ run, Plain run → Woven T' (Text.replaceChars old new run) := by
    intro run hrun
    rw [Text.replaceChars, hempty]
    exact replaceFrom_of_plain hnew 0 hrun
  -- The stretch before the next tag is gathered character by character.
  have hrun : ∀ run, Plain run → Woven T' (Text.replaceChars old new (run ++ cs)) := by
    induction h with
    | nil =>
      intro run hrun
      rw [append_nil]
      exact hstretch run hrun
    | char c cs hc _ ih =>
      intro run hrun
      rw [show run ++ c :: cs = (run ++ [c]) ++ cs by simp]
      exact ih (run ++ [c]) (hrun.append (.cons hc .nil))
    | tag t cs ht _ ih =>
      intro run hrun
      rcases htag t ht with ⟨⟨body, rfl⟩, htag⟩
      have hrest := ih [] .nil
      rw [nil_append] at hrest
      rw [replaceChars_append_tag hold hlt hgt]
      exact (hstretch run hrun).append (htag.append hrest)
  exact hrun [] .nil

lemma replaceFinds {r : Recogniser (List Char)} (hTT : ∀ t, T t → T' t) (hopens : Opens T)
  (hr : ∀ before c cs new n, r before (c :: cs) = some (new, n) → Avoids T c ∧ 0 < n ∧
    (Woven T (c :: cs) → Woven T' new ∧ Woven T ((c :: cs).drop n)))
  (h : Woven T cs) : Woven T' (Text.replaceFinds r cs) := by
  -- What starts a find is in no tag, so tags are passed unchanged.
  have hnone : ∀ t, T t → ∀ c ∈ t, ∀ before cs, r before (c :: cs) = none := by
    intro t ht c hc before cs
    cases hfound : r before (c :: cs) with
    | none => rfl
    | some found => cases ((hr before c cs found.1 found.2 hfound).1 t ht) hc
  -- The induction is on the length, since a find can cover any number of characters.
  have hscan : ∀ (n : Nat) (before : Option Char) (cs : List Char), cs.length ≤ n → Woven T cs →
      Woven T' ((scanFrom r before 0 cs).flatMap (Piece.expand id)) := by
    intro n
    induction n with
    | zero =>
      intro before cs hn _
      rw [length_eq_zero_iff.mp (Nat.le_zero.mp hn)]
      exact .nil
    | succ n ih =>
      intro before cs hn h
      cases h with
      | nil => exact .nil
      | char c cs hc h =>
        rw [length_cons] at hn
        rw [scanFrom]
        cases hfound : r before (c :: cs) with
        | none => exact .char c _ hc (ih (some c) cs (by omega) h)
        | some found =>
          rcases hr before c cs found.1 found.2 hfound with ⟨_, hpos, hwoven⟩
          rcases hwoven (.char c cs hc h) with ⟨hnew, hrest⟩
          rcases scanFrom_covered r (some c) (found.2 - 1) cs with ⟨before', hcovered⟩
          have hdrop : (c :: cs).drop found.2 = cs.drop (found.2 - 1) := by
            rw [show found.2 = found.2 - 1 + 1 by omega, drop_succ_cons, Nat.add_sub_cancel]
          rw [hdrop] at hrest
          simp only [flatMap_cons, hcovered]
          exact hnew.append
            (ih before' _ (by rw [length_drop]; omega) hrest)
      | tag t cs ht h =>
        rcases hopens t ht with ⟨rest, hrest⟩
        rcases scanFrom_append_of_none r before t cs (hnone t ht) with ⟨before', hpassed⟩
        have hlen : cs.length ≤ n := by
          rw [hrest, length_append, length_cons] at hn
          omega
        rw [hpassed, flatMap_append]
        refine Woven.append ?_ (ih before' cs hlen h)
        rw [flatMap_map]
        simpa [Piece.expand] using single (hTT t ht)
  exact hscan cs.length none cs (Nat.le_refl _) h

end Woven

variable (t : List Char)

def Listed (tags : List String) (t : List Char) : Prop := ∃ s ∈ tags, t = s.toList

lemma Listed.opens {tags : List String} (h : ∀ s ∈ tags, s.toList.head? = some '<') :
  Opens (Listed tags) := by
  rintro t ⟨s, hs, rfl⟩
  have hhead := h s hs
  cases hl : s.toList with
  | nil => simp [hl] at hhead
  | cons c rest =>
    rw [hl, head?_cons, Option.some.injEq] at hhead
    exact ⟨rest, by rw [hhead]⟩

lemma Listed.avoids {tags : List String} {c : Char} (h : ∀ s ∈ tags, c ∉ s.toList) :
  Avoids (Listed tags) c := by
  rintro t ⟨s, hs, rfl⟩
  exact h s hs

/-- The tags of emphasis and code inside a line. -/
def inlineTags : List String :=
  ["<strong>", "</strong>", "<em>", "</em>", "<u>", "</u>", "<del>", "</del>", "<code>", "</code>"]

/-- The tags of emphasis and code inside a line. -/
abbrev InlineTag : List Char → Prop := Listed inlineTags

/-- The tags of coloured stretches. -/
inductive SpanTag : List Char → Prop where
  | opening (style : List Char) (h : Plain style) :
      SpanTag ("<span style=\"".toList ++ style ++ "\">".toList)
  | closing : SpanTag "</span>".toList

inductive InkTag : List Char → Prop where
  | opening (ink : Ink) : InkTag ("<span style=\"" ++ ink.style ++ "\">").toList
  | closing : InkTag "</span>".toList

/-- The attributes whose values depend on the text. -/
inductive Attribute where
  | style
  | target
  | language
  deriving DecidableEq

variable (f : Attribute)

namespace Attribute

/-- The tag up to the value. -/
def opening : Attribute → String
  | .style => "<span style=\""
  | .target => "<a href=\""
  | .language => "<div class=\"code-block\"><pre class=\"language-"

/-- What follows the value. -/
def closing : Attribute → String
  | .style | .target => "\">"
  | .language => "\">\n"

/-- The values that cannot end the attribute. -/
def Admits : Attribute → List Char → Prop
  | .style | .language => Plain
  | .target => Woven InlineTag

end Attribute

/-- The tags of a page without an attribute whose value depends on the text. -/
def fixedTags : List String :=
  inlineTags ++
    ["<h1>", "</h1>", "<h2>", "</h2>", "<h3>", "</h3>", "<h4>", "</h4>", "<h5>", "</h5>", "<h6>",
      "</h6>", "<p>", "</p>", "<ul>", "</ul>", "<li>", "</li>", "<hr>", "<br>",
      "<table class=\"doc-table\">", "</table>", "<thead>", "</thead>", "<tbody>", "</tbody>", "<tr>",
      "</tr>", "<th>", "</th>", "<td>", "</td>", "</a>", "</span>", "</pre>", "</div>"]

inductive PageTag : List Char → Prop where
  | fixed (t : List Char) (h : Listed fixedTags t) : PageTag t
  | valued (f : Attribute) (value : List Char) (h : f.Admits value) :
      PageTag (f.opening.toList ++ value ++ f.closing.toList)

lemma inlineTag_opens : Opens InlineTag := Listed.opens (by decide)

lemma pageTag_opens : Opens PageTag := by
  intro t ht
  cases ht with
  | fixed t h => exact Listed.opens (by decide) t h
  | valued f value h => cases f <;> exact ⟨_, rfl⟩

lemma pageTag_of_inlineTag (h : InlineTag t) : PageTag t := by
  rcases h with ⟨s, hs, rfl⟩
  exact .fixed _ ⟨s, mem_append_left _ hs, rfl⟩

lemma pageTag_of_spanTag (h : SpanTag t) : PageTag t := by
  cases h with
  | opening style h => exact .valued .style style h
  | closing => exact .fixed _ ⟨"</span>", by decide, rfl⟩

lemma spanTag_of_inkTag (h : InkTag t) : SpanTag t := by
  cases h with
  | opening ink =>
    have hstyle : Plain ink.style.toList := by cases ink <;> decide
    rw [String.toList_append, String.toList_append]
    exact .opening _ hstyle
  | closing => exact .closing

lemma spanTag_body {t : List Char} (h : SpanTag t) :
  ∃ c body, t = '<' :: (c :: body) ++ ['>'] ∧ '>' ∉ c :: body := by
  cases h with
  | opening style h =>
    refine ⟨'s', "pan style=\"".toList ++ style ++ ['"'], by simp, fun hmem => ?_⟩
    have hstyle : '>' ∉ style := fun hc => absurd (h '>' hc) (by decide)
    simp [hstyle] at hmem
  | closing => exact ⟨'/', "span".toList, rfl, by decide⟩

lemma inkTag_avoids : Avoids InkTag '_' := by
  intro t ht
  cases ht with
  | opening ink =>
    have hstyle : '_' ∉ ink.style.toList := by cases ink <;> decide
    simp [hstyle]
  | closing => decide

lemma Attribute.Admits.quote_not_mem {f : Attribute} {value : List Char} (h : f.Admits value) :
  '"' ∉ value := by
  cases f with
  | style => exact fun hmem => absurd (h '"' hmem) (by decide)
  | language => exact fun hmem => absurd (h '"' hmem) (by decide)
  | target => exact Woven.not_mem rfl (Listed.avoids (by decide)) h

lemma append_cons_inj {c : Char} {x y a b : List Char} (hx : c ∉ x) (hy : c ∉ y)
  (h : x ++ c :: a = y ++ c :: b) : x = y ∧ a = b := by
  induction x generalizing y with
  | nil =>
    cases y with
    | nil => exact ⟨rfl, (cons.inj h).2⟩
    | cons d y => cases hy ((cons.inj h).1 ▸ mem_cons_self)
  | cons d x ih =>
    cases y with
    | nil => cases hx ((cons.inj h).1 ▸ mem_cons_self)
    | cons e y =>
      rcases cons.inj h with ⟨hde, h⟩
      have hrest := ih (fun hc => hx (mem_cons_of_mem d hc))
        (fun hc => hy (mem_cons_of_mem e hc)) h
      exact ⟨by rw [hde, hrest.1], hrest.2⟩

lemma Attribute.closing_eq : ∃ rest, f.closing.toList = '"' :: rest := by
  cases f <;> exact ⟨_, rfl⟩

def tagHeads : List String :=
  fixedTags ++ [Attribute.style.opening, Attribute.target.opening, Attribute.language.opening]

-- All pairs are compared; there are few enough.
lemma tagHeads_prefixFree : ∀ s ∈ tagHeads, ∀ s' ∈ tagHeads, s.toList <+: s'.toList → s = s' := by
  decide +kernel

lemma tagHeads_inj {s s' : String} (hs : s ∈ tagHeads) (hs' : s' ∈ tagHeads) {a b : List Char}
  (h : s.toList ++ a = s'.toList ++ b) : s = s' := by
  have h1 : s.toList <+: s'.toList ++ b := ⟨a, h⟩
  rcases prefix_or_prefix_of_prefix h1 (prefix_append s'.toList b) with hp | hp
  · exact tagHeads_prefixFree s hs s' hs' hp
  · exact (tagHeads_prefixFree s' hs' s hs hp).symm

lemma Attribute.opening_mem : f.opening ∈ tagHeads := by
  cases f <;> decide

lemma Attribute.opening_not_fixed : f.opening ∉ fixedTags := by
  cases f <;> decide

lemma Attribute.opening_inj {f g : Attribute} (h : f.opening = g.opening) : f = g := by
  revert h
  cases f <;> cases g <;> decide

lemma fixedTags_subset {s : String} (hs : s ∈ fixedTags) : s ∈ tagHeads := mem_append_left _ hs

lemma pageTag_prefixFree : PrefixFree PageTag := by
  intro t u a b ht hu h
  cases ht with
  | fixed t ht =>
    rcases ht with ⟨s, hs, rfl⟩
    cases hu with
    | fixed u hu =>
      rcases hu with ⟨s', hs', rfl⟩
      rw [tagHeads_inj (fixedTags_subset hs) (fixedTags_subset hs') h]
    | valued g value' _ =>
      rw [append_assoc, append_assoc] at h
      have heq := tagHeads_inj (fixedTags_subset hs) g.opening_mem h
      cases g.opening_not_fixed (heq ▸ hs)
  | valued f value hvalue =>
    rw [append_assoc, append_assoc] at h
    cases hu with
    | fixed u hu =>
      rcases hu with ⟨s', hs', rfl⟩
      have heq := tagHeads_inj f.opening_mem (fixedTags_subset hs') h
      cases f.opening_not_fixed (heq ▸ hs')
    | valued g value' hvalue' =>
      rw [append_assoc, append_assoc] at h
      obtain rfl : f = g := Attribute.opening_inj (tagHeads_inj f.opening_mem g.opening_mem h)
      -- Neither value has a quotation mark, so both end at the first one.
      rcases f.closing_eq with ⟨rest, hclosing⟩
      have hvalues := append_cancel_left h
      rw [hclosing, cons_append, cons_append] at hvalues
      rw [(append_cons_inj hvalue.quote_not_mem hvalue'.quote_not_mem hvalues).1]

end KeywordDocs.Markup
