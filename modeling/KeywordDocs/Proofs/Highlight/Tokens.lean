import KeywordDocs.Proofs.Highlight.Colouring

/-!
# Marked Texts as Tokens

Markers, and later tags, are plain characters to the searches in a text that is being coloured, so what a
search finds could begin or end in the middle of one.
-/

namespace KeywordDocs.Highlight

open Text Markup List

inductive Family where
  | reference
  | keyword
  | argument
  deriving DecidableEq

/-- How a family is called in its markers. -/
def Family.name : Family → String
  | .reference => "VAR"
  | .keyword => "KW"
  | .argument => "ARG"

structure Label where
  family : Family
  number : Nat
  deriving DecidableEq

def Label.text (l : Label) : List Char := marker l.family.name l.number

/-- A character, or a marker as a whole. -/
inductive Token where
  | char (c : Char)
  | label (l : Label)

def Token.text : Token → List Char
  | .char c => [c]
  | .label l => l.text

def spell (ts : List Token) : List Char := ts.flatMap Token.text

lemma spell_cons (t : Token) (ts : List Token) : spell (t :: ts) = t.text ++ spell ts := flatMap_cons

lemma spell_append (a b : List Token) : spell (a ++ b) = spell a ++ spell b := flatMap_append

lemma spell_singleton (t : Token) : spell [t] = t.text := append_nil _

lemma spell_map_char (cs : List Char) : spell (cs.map .char) = cs := by
  rw [spell, flatMap_map]
  exact flatMap_singleton' cs

/-- What all markers have and no text that is coloured should have. -/
def placeholder : List Char := "_MARKER_".toList

lemma not_mem_placeholder : '<' ∉ placeholder := by decide

def Token.blot : Token → Char
  | .char c => c
  | .label _ => '<'

/-- No run of characters between markers holds the placeholder. -/
def Clean (ts : List Token) : Prop := ¬ placeholder <:+: ts.map Token.blot

variable {a b ts : List Token} {p cs : List Char}

lemma Clean.of_part (h : Clean b) (hab : a <:+: b) : Clean a := fun ha => h (ha.trans (hab.map Token.blot))

lemma clean_append_cons_iff {t : Token} (ht : t.blot ∉ placeholder) :
  Clean (a ++ t :: b) ↔ Clean a ∧ Clean b := by
  rw [Clean, map_append, map_cons, infix_append_cons_iff ht, not_or]
  rfl

lemma clean_map_char (h : ¬ placeholder <:+: cs) : Clean (cs.map .char) := by
  rw [Clean, map_map]
  rwa [show Token.blot ∘ Token.char = id from rfl, map_id]

structure Firm (cs : List Char) : Prop where
  inside : ¬ ['_', '_'] <:+: cs
  last : cs.getLast? ≠ some '_'

lemma Firm.tail {c d : Char} (h : Firm (c :: d :: cs)) : Firm (d :: cs) where
  inside hcs := h.inside (hcs.trans (suffix_cons _ _).isInfix)
  last hcs := h.last (by rwa [getLast?_cons_cons])

lemma Firm.shuns (h : Firm cs) : Shuns ['_', '_'] cs := by
  intro s hs hne rest hstarts
  cases s with
  | nil => exact hne rfl
  | cons x s =>
    rcases hs with ⟨front, rfl⟩
    rw [cons_append, cons_prefix_cons] at hstarts
    rcases hstarts with ⟨rfl, hstarts⟩
    cases s with
    | nil => exact h.last (getLast?_concat ..)
    | cons y s =>
      obtain rfl := (cons_prefix_cons.mp hstarts).1
      exact h.inside ⟨front, s, by simp⟩

lemma Label.text_eq_cons (l : Label) : ∃ rest, l.text = '_' :: '_' :: rest := by
  rw [Label.text, marker, String.toList_append, String.toList_append]
  exact ⟨_, rfl⟩

lemma Firm.front (hp : Firm p) (h : p <+: spell ts) : p <+: ts.map Token.blot := by
  induction ts generalizing p with
  | nil => exact h
  | cons t ts ih =>
    rw [spell_cons] at h
    cases p with
    | nil => exact nil_prefix
    | cons x p =>
      cases t with
      | char c =>
        rcases cons_prefix_cons.mp (show _ <+: c :: spell ts from h) with ⟨rfl, hrest⟩
        refine cons_prefix_cons.mpr ⟨rfl, ?_⟩
        cases p with
        | nil => exact nil_prefix
        | cons y p => exact ih hp.tail hrest
      | label l =>
        rcases l.text_eq_cons with ⟨rest, hrest⟩
        rw [Token.text, hrest, cons_append, cons_append] at h
        rcases cons_prefix_cons.mp h with ⟨rfl, hnext⟩
        cases p with
        | nil => cases hp.last rfl
        | cons y p =>
          obtain rfl := (cons_prefix_cons.mp hnext).1
          cases hp.inside ⟨[], p, rfl⟩

lemma Clean.not_front (h : Clean ts) (hp : Firm p) (hmarker : placeholder <:+: p) :
  ¬ p <+: spell ts := fun hfront =>
  h (hmarker.trans (hp.front hfront).isInfix)

variable {f : Family} {l : Label} {ds : List Char}

def markerBody (f : Family) (ds : List Char) : List Char := ("_" ++ f.name ++ "_MARKER_").toList ++ ds

lemma Label.text_eq (l : Label) :
  l.text = '_' :: (markerBody l.family (Number.digitsOf l.number) ++ ['_', '_']) := by
  cases hl : l.family <;> rw [Label.text, marker, hl] <;> rfl

lemma markerBody_eq_cons (f : Family) (ds : List Char) :
  markerBody f ds = '_' :: (markerBody f ds).tail := by
  cases f <;> rfl

lemma markerBody_firm (hne : ds ≠ []) (hds : '_' ∉ ds) : Firm (markerBody f ds) where
  inside := by
    have hname : ¬ ['_', '_'] <:+: ("_" ++ f.name ++ "_MARKER_").toList := by cases f <;> decide
    cases ds with
    | nil => cases hne rfl
    | cons d ds =>
      have hd : d ∉ ['_', '_'] := fun hmem => hds (by simp_all)
      rw [markerBody, infix_append_cons_iff hd]
      rintro (hbody | hbody)
      · exact hname hbody
      · exact hds (mem_cons_of_mem d (hbody.subset mem_cons_self))
  last hlast := by
    rw [markerBody, getLast?_append_of_ne_nil _ hne] at hlast
    exact hds (mem_of_mem_getLast? hlast)

lemma Clean.not_body (h : Clean ts) (hne : ds ≠ []) (hds : '_' ∉ ds) :
  ¬ markerBody f ds <+: spell ts ∧ ¬ (markerBody f ds).tail <+: spell ts := by
  have hfirm := markerBody_firm (f := f) hne hds
  have hmarker : placeholder <:+: (markerBody f ds).tail := by
    cases f
    · exact ⟨"VAR".toList, ds, rfl⟩
    · exact ⟨"KW".toList, ds, rfl⟩
    · exact ⟨"ARG".toList, ds, rfl⟩
  refine ⟨h.not_front hfirm (hmarker.trans (tail_suffix _).isInfix), h.not_front ?_ hmarker⟩
  cases f <;> exact hfirm.tail

lemma markerBody_inj {f' : Family} {ds' a b : List Char} (hds : '_' ∉ ds) (hds' : '_' ∉ ds')
  (h : markerBody f ds ++ '_' :: a = markerBody f' ds' ++ '_' :: b) : f = f' ∧ ds = ds' ∧ a = b := by
  obtain rfl : f = f' := by
    cases f <;> cases f' <;> first
      | rfl
      | exact absurd (cons.inj (cons.inj h).2).1 (by decide)
  rw [markerBody, markerBody, append_assoc, append_assoc, append_cancel_left_eq] at h
  exact ⟨rfl, append_cons_inj hds hds' h⟩

lemma digits_ne (n : Nat) : Number.digitsOf n ≠ [] ∧ '_' ∉ Number.digitsOf n :=
  ⟨Nat.toDigits_ne_nil, Nat.underscore_not_in_toDigits⟩

lemma eq_label_of_front (h : Clean ts) (hne : ds ≠ []) (hds : '_' ∉ ds)
  {rest : List Char} (hts : spell ts = '_' :: (markerBody f ds ++ '_' :: rest)) :
  ∃ l ts', ts = .label l :: ts' ∧ f = l.family ∧ ds = Number.digitsOf l.number ∧
    rest = '_' :: spell ts' := by
  cases ts with
  | nil => cases hts
  | cons t ts =>
    rw [spell_cons] at hts
    cases t with
    | char c =>
      have hbody : markerBody f ds <+: spell ts := ⟨_, (cons.inj hts).2.symm⟩
      cases (h.of_part (suffix_cons _ ts).isInfix |>.not_body hne hds).1 hbody
    | label l =>
      rw [Token.text, l.text_eq, cons_append, append_assoc] at hts
      have hparts := markerBody_inj (digits_ne _).2 hds (cons.inj hts).2
      exact ⟨l, ts, rfl, hparts.1.symm, hparts.2.1.symm, hparts.2.2.symm⟩

lemma Label.eq_of_front (h : Clean ts) (hts : l.text <+: spell ts) : ∃ ts', ts = .label l :: ts' := by
  rcases hts with ⟨rest, hts⟩
  rw [l.text_eq, cons_append, append_assoc] at hts
  rcases digits_ne l.number with ⟨hne, hds⟩
  rcases eq_label_of_front h hne hds hts.symm with ⟨l', ts', rfl, hfamily, hnumber, -⟩
  refine ⟨ts', ?_⟩
  obtain rfl : l = l' := by
    cases l
    cases l'
    have hnumber := congrArg (Nat.ofDigitChars 10 · 0) hnumber
    simp only [Number.digitsOf, Nat.ofDigitChars_ten_toDigits] at hnumber hfamily
    rw [hnumber, hfamily]
  rfl

variable {p : List Token} {σ : Label → List Token}

def Token.put (σ : Label → List Token) : Token → List Token
  | .char c => [.char c]
  | .label l => σ l

def fill (σ : Label → List Token) (ts : List Token) : List Token := ts.flatMap (Token.put σ)

def only (l : Label) (p : List Token) (l' : Label) : List Token :=
  if l' = l then p else [.label l']

lemma Clean.of_fill {a x r : List Token} (h : Clean (a ++ (fill σ x ++ r))) :
  Clean (a ++ (x ++ r)) := by
  induction x generalizing a with
  | nil => exact h
  | cons t x ih =>
    rw [fill, flatMap_cons, append_assoc] at h
    cases t with
    | char c =>
      rw [← append_assoc] at h
      have hx := ih h
      rwa [append_assoc] at hx
    | label l =>
      have hx : Clean ([] ++ (x ++ r)) := ih (h.of_part ⟨a ++ σ l, [], by simp [Token.put, fill]⟩)
      exact (clean_append_cons_iff (t := .label l) not_mem_placeholder).mpr ⟨h.of_part ⟨[], _, rfl⟩, hx⟩

lemma clean_of_fill (h : Clean (fill σ ts)) : Clean ts := by
  have hall : Clean ([] ++ (ts ++ [])) := Clean.of_fill (σ := σ) (by simpa using h)
  simpa using hall

lemma Label.text_ne_nil (l : Label) : l.text ≠ [] := by
  rw [l.text_eq]
  exact cons_ne_nil _ _

lemma replaceChars_spell (l : Label) (p : List Token) (h : Clean ts) :
  replaceChars l.text (spell p) (spell ts) = spell (fill (only l p) ts) := by
  have hblind := fixed_blind l.text (spell p)
  have hnone : ∀ cs, ¬ l.text <+: cs → fixed l.text (spell p) none cs = none := fun cs hcs =>
    fixed_eq_none hcs none
  have hneeds : Needs (fixed l.text (spell p)) ['_', '_'] := by
    refine fun b cs hcs => fixed_eq_none (fun hstarts => hcs (.trans ?_ hstarts)) b
    rcases l.text_eq_cons with ⟨rest, hrest⟩
    exact ⟨rest, hrest.symm⟩
  rw [replaceChars_eq_replaceFinds l.text_ne_nil]
  induction ts with
  | nil => rfl
  | cons t ts ih =>
    have hts : Clean ts := h.of_part (suffix_cons t ts).isInfix
    rw [spell_cons, fill, flatMap_cons, spell_append, ← fill, ← ih hts]
    cases t with
    | char c =>
      refine replaceFinds_cons hblind (hnone _ fun hstarts => ?_)
      rcases l.eq_of_front h hstarts with ⟨_, hlabel⟩
      cases hlabel
    | label l' =>
      by_cases hl : l' = l
      · rw [hl]
        refine (replaceFinds_found hblind l.text_ne_nil (fixed_append ..)).trans ?_
        simp [Token.put, only]
      · -- Another marker is passed; what could start in it would have to go on in the text.
        rcases digits_ne l.number with ⟨hne, hds⟩
        have hbody := hts.not_body (f := l.family) hne hds
        have hfirst : ¬ l.text <+: l'.text ++ spell ts := by
          intro hstarts
          rcases l.eq_of_front h hstarts with ⟨_, hlabel⟩
          cases hlabel
          exact hl rfl
        have hthird : ¬ l.text <+: '_' :: spell ts := by
          rw [l.text_eq, cons_prefix_cons]
          exact fun hstarts => hbody.1 ((prefix_append _ _).trans hstarts.2)
        have hsecond : ¬ l.text <+: '_' :: '_' :: spell ts := by
          rw [l.text_eq, cons_prefix_cons, markerBody_eq_cons, cons_append, cons_prefix_cons]
          exact fun hstarts => hbody.2 ((prefix_append _ _).trans hstarts.2.2)
        have hfirm := markerBody_firm (f := l'.family) (digits_ne l'.number).1 (digits_ne _).2
        have htext : l'.text ++ spell ts = '_' ::
            (markerBody l'.family (Number.digitsOf l'.number) ++ '_' :: '_' :: spell ts) := by
          rw [l'.text_eq, cons_append, append_assoc]
          rfl
        rw [htext] at hfirst
        rw [Token.text, htext, replaceFinds_cons hblind (hnone _ hfirst),
          Turns.of_shuns hblind hneeds hfirm.shuns, replaceFinds_cons hblind (hnone _ hsecond),
          replaceFinds_cons hblind (hnone _ hthird)]
        simp [spell, Token.put, only, hl, Token.text, l'.text_eq]

abbrev Legend := List (Label × List Token)

variable (D : Legend)

def marksOf : Marks := D.map fun e => (e.1.text, spell e.2)

def standsFor (l : Label) : List Token := (D.lookup l).getD [.label l]

abbrev Ordered : Prop := D.Pairwise fun e e' => Token.label e'.1 ∉ e.2

lemma fill_fill (σ τ : Label → List Token) (ts : List Token) :
  fill σ (fill τ ts) = fill (fun l => fill σ (τ l)) ts := by
  rw [fill, fill, flatMap_assoc]
  refine flatMap_congr fun t _ => ?_
  cases t with
  | char c => exact flatMap_singleton _ _
  | label l => rfl

lemma fill_eq_self (h : ∀ l, .label l ∈ ts → σ l = [.label l]) : fill σ ts = ts := by
  rw [fill, flatMap_congr (g := fun t => [t]) fun t ht => ?_, flatMap_singleton']
  cases t with
  | char c => rfl
  | label l => exact h l ht

lemma standsFor_cons (e : Label × List Token) (D : Legend) (l : Label) :
  standsFor (e :: D) l = if l = e.1 then e.2 else standsFor D l := by
  rw [standsFor, lookup_cons]
  by_cases h : l = e.1
  · rw [if_pos h, beq_iff_eq.mpr h]
    rfl
  · rw [if_neg h, beq_eq_false_iff_ne.mpr h]
    rfl

lemma standsFor_of_not_mem {D : Legend} {l : Label} (h : ∀ e ∈ D, e.1 ≠ l) :
  standsFor D l = [.label l] := by
  rw [standsFor, lookup_eq_none_iff.mpr fun e he => bne_iff_ne.mpr (h e he).symm]
  rfl

lemma unmark_spell {D : Legend} (hD : Ordered D) (h : Clean (fill (standsFor D) ts)) :
  unmark (marksOf D) (spell ts) = spell (fill (standsFor D) ts) := by
  induction D generalizing ts with
  | nil =>
    rw [fill_eq_self (σ := standsFor []) fun l _ => rfl]
    rfl
  | cons e D ih =>
    rcases pairwise_cons.mp hD with ⟨he, hD⟩
    -- What is put for the first label has no label that is replaced later.
    have hstep : fill (standsFor (e :: D)) ts = fill (standsFor D) (fill (only e.1 e.2) ts) := by
      have hput : standsFor (e :: D) = fun l => fill (standsFor D) (only e.1 e.2 l) := by
        funext l
        rw [standsFor_cons, only]
        split
        · refine (fill_eq_self fun l' hl' => standsFor_of_not_mem fun e' he' hkey => ?_).symm
          exact he e' he' (hkey ▸ hl')
        · exact (append_nil _).symm
      rw [fill_fill, hput]
    rw [hstep] at h ⊢
    rw [← ih hD h, ← replaceChars_spell _ _ (clean_of_fill (clean_of_fill h))]
    rfl

lemma placeholder_infix_spell (h : Clean ts) :
  placeholder <:+: spell ts ↔ ∃ l, .label l ∈ ts := by
  constructor
  · intro hin
    by_contra hnone
    -- Without labels the text is its characters.
    have hblot : spell ts = ts.map Token.blot := by
      rw [spell, map_eq_flatMap]
      refine flatMap_congr fun t ht => ?_
      cases t with
      | char c => rfl
      | label l => cases hnone ⟨l, ht⟩
    exact h (hblot ▸ hin)
  · rintro ⟨l, hl⟩
    rcases append_of_mem hl with ⟨a, b, rfl⟩
    have hmarker : placeholder <:+: l.text := by
      rw [Label.text, marker]
      cases l.family
      · exact ⟨"__VAR".toList, _, rfl⟩
      · exact ⟨"__KW".toList, _, rfl⟩
      · exact ⟨"__ARG".toList, _, rfl⟩
    refine hmarker.trans ⟨spell a, spell b, ?_⟩
    rw [spell_append, spell_cons, append_assoc]
    rfl

lemma Label.text_word (l : Label) : ∀ c ∈ l.text, isAsciiWord c := by
  have hdigits : ∀ c ∈ Number.digitsOf l.number, isAsciiWord c := by
    intro c hc
    have hdigit : c.isDigit := Nat.isDigit_of_mem_toDigits (by decide) (by decide) hc
    change (c.isAlpha || c.isDigit || c == '_')
    rw [hdigit, Bool.or_true, Bool.true_or]
  have hname : ∀ c ∈ ("__" ++ l.family.name ++ "_MARKER_").toList, isAsciiWord c := by
    cases l.family <;> decide
  rw [Label.text, marker, forall_mem_append, forall_mem_append]
  exact ⟨⟨hname, hdigits⟩, by decide⟩

lemma exists_cut {a b : List Char} (h : spell ts = a ++ b)
  (hcut : ∀ c ∈ a.getLast?, ∀ d ∈ b.head?, isAsciiWord c → isAsciiWord d = false) :
  ∃ A B, ts = A ++ B ∧ spell A = a ∧ spell B = b := by
  induction ts generalizing a with
  | nil =>
    rw [eq_comm] at h
    rcases append_eq_nil_iff.mp h with ⟨rfl, rfl⟩
    exact ⟨[], [], rfl, rfl, rfl⟩
  | cons t ts ih =>
    rw [spell_cons] at h
    -- The cut is in the first token or after it.
    rcases append_eq_append_iff.mp h with ⟨a', rfl, hts⟩ | ⟨b', htext, rfl⟩
    · rcases ih hts fun c hc =>
        hcut c (by rw [getLast?_append, hc]; rfl) with ⟨A, B, rfl, rfl, rfl⟩
      exact ⟨t :: A, B, rfl, rfl, rfl⟩
    · rcases eq_nil_or_concat a with rfl | ⟨front, x, rfl⟩
      · exact ⟨[], t :: ts, rfl, rfl, by rw [spell_cons, htext]; rfl⟩
      cases b' with
      | nil =>
        rw [append_nil] at htext
        exact ⟨[t], ts, rfl, by rw [spell_singleton, htext], rfl⟩
      | cons y b' =>
        rw [concat_eq_append] at htext hcut
        cases t with
        | char c =>
          have hlength := congrArg List.length htext
          simp [Token.text] at hlength
          omega
        | label l =>
          have hword := l.text_word
          rw [show l.text = _ from htext] at hword
          have hy := hcut x getLast?_concat y rfl (hword x (by simp))
          rw [hword y (by simp)] at hy
          cases hy

end KeywordDocs.Highlight
