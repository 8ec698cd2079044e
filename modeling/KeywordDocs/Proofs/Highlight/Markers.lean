import KeywordDocs.Proofs.Highlight.Tokens
import KeywordDocs.Proofs.Page.Stripping

/-!
# What Becomes of Markers

Variables, a keyword and named arguments are sought in turn in a text with markers for what was found before.
A find can swallow an earlier marker, which is then not replaced any more.
-/

namespace KeywordDocs.Highlight

open Text Markup List
open Page (tagRemoval tagRemoval_blind tag_append)

section Division

variable {α : Type} {r : Recogniser α} {family : Family} {h : List Char → List Char}

/-- A token that a search leaves, or what it finds and what is shown for it. -/
inductive Patch (α : Type) where
  | kept (t : Token)
  | found (f p : List Token) (a : α)

/-- What a part is before the search. -/
def Patch.source : Patch α → List Token
  | .kept t => [t]
  | .found f _ _ => f

/-- What a part is when the markers are replaced. -/
def Patch.shown (σ : Label → List Token) : Patch α → List Token
  | .kept t => t.put σ
  | .found _ p _ => p

def Patch.pieces {β : Type} (g : α → β) : Patch α → List (Piece β)
  | .kept t => t.text.map .plain
  | .found _ _ a => [.found (g a)]

open Patch (source shown)

def labelled (family : Family) : Nat → List (Patch α) → List Token
  | _, [] => []
  | n, .kept t :: d => t :: labelled family n d
  | n, .found _ _ _ :: d => .label ⟨family, n⟩ :: labelled family (n + 1) d

def entriesOf (family : Family) : Nat → List (Patch α) → Legend
  | _, [] => []
  | n, .kept _ :: d => entriesOf family n d
  | n, .found _ p _ :: d => (⟨family, n⟩, p) :: entriesOf family (n + 1) d

variable {d : List (Patch α)} {n : Nat}

lemma markPieces_plain (name : String) (n : Nat) (cs : List Char) (ps : List (Piece (List Char))) :
  markPieces name n (cs.map .plain ++ ps) = (cs ++ (markPieces name n ps).1, (markPieces name n ps).2) := by
  induction cs with
  | nil => rfl
  | cons c cs ih => exact congrArg (fun s : List Char × List (List Char) => (c :: s.1, s.2)) ih

variable (family) in
lemma markPieces_pieces {g : α → List Char} (n : Nat)
  (hd : ∀ f p a, .found f p a ∈ d → h (g a) = spell p) :
  (markPieces family.name n (d.flatMap (Patch.pieces g))).1 = spell (labelled family n d) ∧
    numbered family.name n ((markPieces family.name n (d.flatMap (Patch.pieces g))).2.map h) =
      marksOf (entriesOf family n d) := by
  induction d generalizing n with
  | nil => exact ⟨rfl, rfl⟩
  | cons part d ih =>
    have hrest := fun n => ih n fun f p a hfp => hd f p a (mem_cons_of_mem _ hfp)
    cases part with
    | kept t =>
      rw [flatMap_cons, Patch.pieces, markPieces_plain, labelled, spell_cons, (hrest n).1]
      exact ⟨rfl, (hrest n).2⟩
    | found f p a =>
      refine ⟨congrArg (marker family.name n ++ ·) (hrest (n + 1)).1, ?_⟩
      exact congrArg₂ (fun x y => (marker family.name n, x) :: y) (hd f p a mem_cons_self)
        (hrest (n + 1)).2

def Wordless (r : Recogniser α) : Prop :=
  ∀ b c cs, isAsciiWord b → isAsciiWord c → r (some b) (c :: cs) = none

lemma getLast?_or_cons (b : Option Char) (c : Char) (cs : List Char) :
  cs.getLast?.or (some c) = (c :: cs).getLast?.or b := by
  rw [getLast?_cons]
  cases cs.getLast? <;> rfl

lemma scanFrom_passed (b : Option Char) (a cs : List Char) :
  scanFrom r b a.length (a ++ cs) = scanFrom r (a.getLast?.or b) 0 cs := by
  induction a generalizing b with
  | nil => rfl
  | cons c a ih => rw [length_cons, cons_append, scanFrom, ih, getLast?_or_cons b]

lemma Token.text_eq_cons (t : Token) :
  ∃ c word, t.text = c :: word ∧ (word = [] ∨ ∀ d ∈ c :: word, isAsciiWord d) := by
  cases t with
  | char c => exact ⟨c, [], rfl, .inl rfl⟩
  | label l => exact ⟨'_', _, l.text_eq, .inr (l.text_eq ▸ l.text_word)⟩

lemma spell_ne_nil {ts : List Token} (h : ts ≠ []) : spell ts ≠ [] := by
  rcases exists_cons_of_ne_nil h with ⟨t, ts, rfl⟩
  rcases t.text_eq_cons with ⟨c, word, htext, -⟩
  rw [spell_cons, htext]
  exact cons_ne_nil _ _

lemma Wordless.scanFrom_token (hr : Wordless r) {t : Token} {b : Option Char} {cs : List Char}
  (h : r b (t.text ++ cs) = none) : scanFrom r b 0 (t.text ++ cs) =
    t.text.map .plain ++ scanFrom r (t.text.getLast?.or b) 0 cs := by
  have hpass : ∀ b word, (∀ d ∈ b :: word, isAsciiWord d) → scanFrom r (some b) 0 (word ++ cs) =
        word.map .plain ++ scanFrom r (word.getLast?.or (some b)) 0 cs := by
    intro b word
    induction word generalizing b with
    | nil => exact fun _ => rfl
    | cons c word ih =>
      intro hword
      rcases forall_mem_cons.mp hword with ⟨hb, hword⟩
      rw [cons_append, scanFrom, hr b c _ hb (hword c mem_cons_self), ← getLast?_or_cons]
      exact congrArg (.plain c :: ·) (ih c hword)
  rcases t.text_eq_cons with ⟨c, word, htext, hword⟩
  rw [htext, cons_append] at h ⊢
  rw [scanFrom, h, ← getLast?_or_cons]
  rcases hword with rfl | hword
  · rfl
  · exact congrArg (.plain c :: ·) (hpass c word hword)

variable {R : List Token → List Token → α → Prop} {A B ts : List Token}

/-- How a search divides the tokens `B` after the tokens `A`. -/
structure Division (r : Recogniser α) (R : List Token → List Token → α → Prop) (A B : List Token)
  (d : List (Patch α)) : Prop where
  whole : d.flatMap source = B
  found : ∀ f p a, .found f p a ∈ d → R f p a
  kept : ∀ d₁ t d₂, d = d₁ ++ .kept t :: d₂ → r (spell (A ++ d₁.flatMap source)).getLast?
    (spell (t :: d₂.flatMap source)) = none
  scanned : ∀ {β : Type} (g : α → β), scanFrom (fun b cs => (r b cs).map fun x => (g x.1, x.2))
    (spell A).getLast? 0 (spell B) = d.flatMap (Patch.pieces g)

lemma Division.nil : Division r R A [] [] where
  whole := rfl
  found _ _ _ h := by cases h
  kept _ _ _ h := by simp at h
  scanned _ := rfl

lemma Division.keep {t : Token} (hr : Wordless r) (hnone : r (spell A).getLast? (spell (t :: B)) = none)
  (h : Division r R (A ++ [t]) B d) : Division r R A (t :: B) (.kept t :: d) where
  whole := by
    rw [flatMap_cons, h.whole]
    rfl
  found f p a hmem := by
    rcases mem_cons.mp hmem with hmem | hmem
    · cases hmem
    · exact h.found f p a hmem
  kept d₁ t' d₂ hd := by
    rcases cons_eq_append_iff.mp hd with ⟨rfl, hcons⟩ | ⟨d₁, rfl, hcons⟩
    · cases hcons
      rw [h.whole, flatMap_nil, append_nil, hnone]
    · simpa [source] using h.kept d₁ t' d₂ hcons
  scanned g := by
    have hword : Wordless fun b cs => (r b cs).map fun x => (g x.1, x.2) := fun b c cs hb hc =>
      congrArg _ (hr b c cs hb hc)
    have hscan := h.scanned g
    rw [spell_append, getLast?_append, spell_singleton] at hscan
    rw [spell_cons] at hnone ⊢
    rw [hword.scanFrom_token (by rw [hnone, Option.map_none])]
    exact congrArg _ hscan

lemma Division.find {f p : List Token} {a : α} (hne : f ≠ [])
  (hfound : r (spell A).getLast? (spell (f ++ B)) = some (a, (spell f).length)) (hR : R f p a)
  (h : Division r R (A ++ f) B d) : Division r R A (f ++ B) (.found f p a :: d) where
  whole := by
    rw [flatMap_cons, h.whole]
    rfl
  found f' p' a' hmem := by
    rcases mem_cons.mp hmem with hmem | hmem
    · cases hmem
      exact hR
    · exact h.found f' p' a' hmem
  kept d₁ t' d₂ hd := by
    rcases cons_eq_append_iff.mp hd with ⟨rfl, hcons⟩ | ⟨d₁, rfl, hcons⟩
    · cases hcons
    · simpa [source] using h.kept d₁ t' d₂ hcons
  scanned g := by
    have hscan := h.scanned g
    rw [spell_append, getLast?_append] at hscan
    rw [spell_append] at hfound ⊢
    rcases exists_cons_of_ne_nil (spell_ne_nil hne) with ⟨c, word, hspell⟩
    rw [hspell, cons_append] at hfound ⊢
    rw [scanFrom, hfound, Option.map_some]
    dsimp only
    rw [length_cons, Nat.add_sub_cancel, scanFrom_passed, getLast?_or_cons _, ← hspell, hscan]
    rfl

lemma exists_division (hr : Wordless r)
  (hfind : ∀ A B a k, ts = A ++ B → r (spell A).getLast? (spell B) = some (a, k) →
    ∃ f p B', B = f ++ B' ∧ f ≠ [] ∧ k = (spell f).length ∧ R f p a) :
  ∃ d : List (Patch α), d.flatMap source = ts ∧ (∀ f p a, .found f p a ∈ d → R f p a) ∧
    (∀ d₁ t d₂, d = d₁ ++ .kept t :: d₂ → r (spell (d₁.flatMap source)).getLast?
      (spell (t :: d₂.flatMap source)) = none) ∧
    ∀ {β : Type} (g : α → β), scan (fun b cs => (r b cs).map fun x => (g x.1, x.2)) (spell ts) =
      d.flatMap (Patch.pieces g) := by
  -- The induction is on the length of the text from the cursor on; `A` is passed already.
  have hall : ∀ m A B, B.length ≤ m → ts = A ++ B → ∃ d, Division r R A B d := by
    intro m
    induction m with
    | zero =>
      intro A B hm _
      rw [length_eq_zero_iff.mp (Nat.le_zero.mp hm)]
      exact ⟨[], .nil⟩
    | succ m ih =>
      intro A B hm hts
      cases hfound : r (spell A).getLast? (spell B) with
      | none =>
        cases B with
        | nil => exact ⟨[], .nil⟩
        | cons t B =>
          rcases ih (A ++ [t]) B (Nat.le_of_succ_le_succ hm) (by simp [hts]) with ⟨d, hd⟩
          exact ⟨_, hd.keep hr hfound⟩
      | some found =>
        rcases hfind A B found.1 found.2 hts hfound with ⟨f, p, B', rfl, hne, hk, hfp⟩
        have hpos : 0 < f.length := length_pos_iff.mpr hne
        rcases ih (A ++ f) B' (by rw [length_append] at hm; omega) (by simp [hts]) with ⟨d, hd⟩
        exact ⟨_, hd.find hne (hk ▸ hfound) hfp⟩
  rcases hall ts.length [] ts le_rfl rfl with ⟨d, hd⟩
  exact ⟨d, hd.whole, hd.found, hd.kept, hd.scanned⟩

lemma source_kept (x : List Char) :
  (x.map (Patch.kept (α := α) ∘ .char)).flatMap source = x.map .char := by
  induction x with
  | nil => rfl
  | cons c x ih => exact congrArg (.char c :: ·) ih

lemma exists_kept {x : List Char} (h : x.map .char <:+: labelled family n d) :
  ∃ d₁ d₂, d = d₁ ++ (x.map (.kept ∘ .char) ++ d₂) := by
  have hfront : ∀ (x : List Char) n d B, labelled family n d = x.map .char ++ B →
      ∃ d₂ : List (Patch α), d = x.map (.kept ∘ .char) ++ d₂ := by
    intro x
    induction x with
    | nil => exact fun _ d _ _ => ⟨d, rfl⟩
    | cons c x ih =>
      intro n d B h
      cases d with
      | nil => cases h
      | cons part d =>
        cases part with
        | found f p a => cases (cons.inj h).1
        | kept t =>
          rcases ih n d B (cons.inj h).2 with ⟨d₂, rfl⟩
          exact ⟨d₂, by rw [(cons.inj h).1]; rfl⟩
  rcases h with ⟨A, B, h⟩
  induction A generalizing n d with
  | nil =>
    rcases hfront x n d B h.symm with ⟨d₂, hd⟩
    exact ⟨[], d₂, hd⟩
  | cons t A ih =>
    cases d with
    | nil => simp [labelled] at h
    | cons part d =>
      cases part with
      | kept t' =>
        rcases ih (cons.inj h).2 with ⟨d₁, d₂, rfl⟩
        exact ⟨_ :: d₁, d₂, rfl⟩
      | found f p a =>
        rcases ih (cons.inj h).2 with ⟨d₁, d₂, rfl⟩
        exact ⟨_ :: d₁, d₂, rfl⟩

lemma entriesOf_key : ∀ e ∈ entriesOf family n d,
  e.1.family = family ∧ n ≤ e.1.number ∧ e.1.number < n + (entriesOf family n d).length := by
  induction d generalizing n with
  | nil => exact forall_mem_nil _
  | cons part d ih =>
    cases part with
    | kept t => exact ih
    | found f p a =>
      rw [entriesOf, length_cons]
      refine forall_mem_cons.mpr
        ⟨⟨rfl, le_rfl, Nat.lt_add_of_pos_right (Nat.succ_pos _)⟩, fun e he => ?_⟩
      have hkey := ih e he
      exact ⟨hkey.1, by omega, by omega⟩

lemma mem_entriesOf {p : List Token} :
  (∃ l, (l, p) ∈ entriesOf family n d) ↔ ∃ f a, .found f p a ∈ d := by
  induction d generalizing n with
  | nil => simp [entriesOf]
  | cons part d ih =>
    cases part with
    | kept t => simp [entriesOf, ih]
    | found f q b =>
      simp only [entriesOf, mem_cons, Prod.mk.injEq, exists_or, ih, Patch.found.injEq]
      exact or_congr_left ⟨fun ⟨_, _, h⟩ => ⟨f, b, rfl, h, rfl⟩, fun ⟨_, _, _, h, _⟩ => ⟨_, rfl, h⟩⟩

lemma standsFor_entriesOf :
  ∀ e ∈ entriesOf family n d, standsFor (entriesOf family n d) e.1 = e.2 := by
  induction d generalizing n with
  | nil => exact forall_mem_nil _
  | cons part d ih =>
    cases part with
    | kept t => exact ih
    | found f p a =>
      refine forall_mem_cons.mpr ⟨by rw [entriesOf, standsFor_cons, if_pos rfl], fun e he => ?_⟩
      rw [entriesOf, standsFor_cons, if_neg, ih e he]
      rintro hkey
      have hnumber := (entriesOf_key e he).2.1
      rw [hkey] at hnumber
      cases (Nat.not_succ_le_self n) hnumber

lemma fill_labelled {σ : Label → List Token} (h : ∀ e ∈ entriesOf family n d, σ e.1 = e.2) :
  fill σ (labelled family n d) = d.flatMap (shown σ) := by
  induction d generalizing n with
  | nil => rfl
  | cons part d ih =>
    cases part with
    | kept t => exact congrArg (t.put σ ++ ·) (ih h)
    | found f p a =>
      rcases forall_mem_cons.mp h with ⟨hp, h⟩
      exact congrArg₂ (· ++ ·) hp (ih h)

lemma mem_labelled {t : Token} (h : t ∈ labelled family n d) :
  .kept t ∈ d ∨ ∃ e ∈ entriesOf family n d, t = .label e.1 := by
  induction d generalizing n with
  | nil => cases h
  | cons part d ih =>
    cases part with
    | kept t' =>
      rcases mem_cons.mp h with rfl | h
      · exact .inl mem_cons_self
      · exact (ih h).imp_left (mem_cons_of_mem _)
    | found f p a =>
      rcases mem_cons.mp h with rfl | h
      · exact .inr ⟨_, mem_cons_self, rfl⟩
      · refine (ih h).imp (mem_cons_of_mem _) ?_
        rintro ⟨e, he, rfl⟩
        exact ⟨e, mem_cons_of_mem _ he, rfl⟩

end Division

open Patch (source shown)

section Erasing

variable {d e : Nat} {a cs : List Char} {p : Char → Bool} [Textual p]

variable (p) in
lemma withoutTags_char {c : Char} (hc : p c) (cs : List Char) :
  withoutTags (c :: cs) = c :: withoutTags cs := by
  have hlt : c ≠ '<' := by
    rintro rfl
    rw [Textual.lt (p := p)] at hc
    cases hc
  exact replaceFinds_cons tagRemoval_blind (by rw [tagRemoval, tag_eq_none hlt, Option.map_none])

lemma withoutTags_tag {t : List Char} (ht : Turn t d e) (cs : List Char) :
  withoutTags (t ++ cs) = withoutTags cs := by
  rcases ht.body with ⟨c, body, rfl, hbody⟩
  have hfound : tagRemoval none ('<' :: c :: body ++ ['>'] ++ cs) =
      some ([], ('<' :: c :: body ++ ['>']).length) := by
    rw [tagRemoval, show '<' :: c :: body ++ ['>'] ++ cs = '<' :: (c :: body ++ '>' :: cs) by simp,
      tag_append (cons_ne_nil c body) hbody none cs]
    simp
  exact replaceFinds_found tagRemoval_blind (cons_ne_nil _ _) hfound

lemma Nested.withoutTags_append (h : Nested p d e a) (b : List Char) :
  withoutTags (a ++ b) = withoutTags a ++ withoutTags b := by
  induction h with
  | nil => rfl
  | char hc _ ih => rw [cons_append, withoutTags_char p hc, withoutTags_char p hc, ih, cons_append]
  | tag ht _ ih => rw [append_assoc, withoutTags_tag ht, withoutTags_tag ht, ih]

lemma Only.withoutTags (h : Only p cs) : withoutTags cs = cs := by
  induction cs with
  | nil => rfl
  | cons c cs ih =>
    rcases forall_mem_cons.mp h with ⟨hc, h⟩
    rw [withoutTags_char p hc, ih h]

lemma withoutTags_span (ink : Ink) (h : Enclosed p cs) :
  Markup.withoutTags (ink.span cs) = Markup.withoutTags cs := by
  have hclosing := withoutTags_tag (.closing 0) []
  rw [append_nil] at hclosing
  rw [Ink.span, append_assoc, withoutTags_tag (.opening ink 0), (h 0).withoutTags_append, hclosing]
  exact append_nil _

lemma withoutTags_flatMap {α : Type} {f : α → List Char} {l : List α}
  (h : ∀ x ∈ l, Enclosed p (f x)) : Enclosed p (l.flatMap f) ∧
    Markup.withoutTags (l.flatMap f) = l.flatMap fun x => Markup.withoutTags (f x) := by
  induction l with
  | nil => exact ⟨.nil, rfl⟩
  | cons x l ih =>
    rcases forall_mem_cons.mp h with ⟨hx, h⟩
    rw [flatMap_cons, flatMap_cons, (hx 0).withoutTags_append, (ih h).2]
    exact ⟨hx.append (ih h).1, rfl⟩

end Erasing

section Stages

variable {text : List Char} {ts x f y : List Token} {p : Char → Bool} [Textual p] {D : Legend}
  {σ : Label → List Token} {α : Type} {d : List (Patch α)} {l : Label} {family : Family} {n : Nat}
  {ink : Ink}

/-- The labels that have an entry. -/
def Keyed (D : Legend) (l : Label) : Prop := ∃ p, (l, p) ∈ D

lemma Keyed.lookup (h : Keyed D l) : D.lookup l = some (standsFor D l) := by
  cases hlook : D.lookup l with
  | none =>
    rcases h with ⟨p, hp⟩
    have hne := lookup_eq_none_iff.mp hlook _ hp
    simp at hne
  | some q => rw [standsFor, hlook, Option.getD_some]

lemma Keyed.mem (h : Keyed D l) : (l, standsFor D l) ∈ D := by
  rcases lookup_eq_some_iff.mp h.lookup with ⟨D₁, D₂, hD, -⟩
  have hmem : (l, standsFor D l) ∈ D₁ ++ (l, standsFor D l) :: D₂ := by simp
  rwa [← hD] at hmem

lemma standsFor_append_left (h : Keyed D l) (N : Legend) :
  standsFor (D ++ N) l = standsFor D l := by
  rw [standsFor, lookup_append, h.lookup, Option.some_or, Option.getD_some]

lemma standsFor_append_right (h : ¬ Keyed D l) (N : Legend) :
  standsFor (D ++ N) l = standsFor N l := by
  have hnone : D.lookup l = none := by
    refine lookup_eq_none_iff.mpr fun e he => bne_iff_ne.mpr fun hkey => h ⟨e.2, ?_⟩
    rwa [hkey]
  rw [standsFor, standsFor, lookup_append, hnone, Option.none_or]

lemma fill_append (σ : Label → List Token) (a b : List Token) :
  fill σ (a ++ b) = fill σ a ++ fill σ b :=
  flatMap_append

lemma exists_label_of_fill (h : .label l ∈ fill σ ts) :
  ∃ l', .label l' ∈ ts ∧ .label l ∈ σ l' := by
  rcases mem_flatMap.mp h with ⟨t, ht, hl⟩
  cases t with
  | char c => cases mem_singleton.mp hl
  | label l' => exact ⟨l', ht, hl⟩

lemma fill_bare (h : ∀ l, .label l ∉ ts) : fill σ ts = ts := fill_eq_self fun l hl => absurd hl (h l)

/-- What holds after each search, for the text with markers and what they stand for. -/
structure Stage (p : Char → Bool) (ts : List Token) (D : Legend) : Prop where
  safe : Only p (spell ts)
  clean : Clean (fill (standsFor D) ts)
  known : ∀ l, .label l ∈ ts → Keyed D l
  ordered : Ordered D
  inner : ∀ e ∈ D, Clean e.2 ∧ Enclosed p (spell e.2) ∧ ∀ l, .label l ∈ e.2 → Keyed D l
  /-- A marker that is swallowed by a find shows when the markers are replaced. -/
  leaks : ∀ e ∈ D, ∀ l, .label l ∈ e.2 → ∃ l', .label l' ∈ fill (standsFor D) ts

/-- What a marker may stand for in the place of what is found. -/
structure Swap (p : Char → Bool) (D : Legend) (f y : List Token) : Prop where
  known : ∀ l, .label l ∈ y → Keyed D l
  leaks : ∀ l, .label l ∈ fill (standsFor D) f → ∃ l', .label l' ∈ y
  clean : ∀ a r, Clean (a ++ (fill (standsFor D) f ++ r)) → Clean (a ++ (y ++ r))
  closed : Enclosed p (spell y)

omit [Textual p] in
lemma clean_shown (hswap : ∀ f y a, .found f y a ∈ d → Swap p D f y) {a : List Token}
  (h : Clean (a ++ fill (standsFor D) (d.flatMap source))) :
  Clean (a ++ d.flatMap (shown (standsFor D))) := by
  induction d generalizing a with
  | nil => exact h
  | cons part d ih =>
    rw [flatMap_cons, fill_append, ← append_assoc] at h
    have hrest := ih (fun f p a hfp => hswap f p a (mem_cons_of_mem _ hfp)) h
    rw [append_assoc] at hrest
    cases part with
    | kept t => simpa [source, Patch.shown, fill] using hrest
    | found f p b => exact (hswap f p b mem_cons_self).clean _ _ hrest

lemma spell_subset (h : x ⊆ ts) : spell x ⊆ spell ts := fun c hc => by
  rcases mem_flatMap.mp hc with ⟨t, ht, hc⟩
  exact mem_flatMap.mpr ⟨t, h ht, hc⟩

variable (p) in
lemma Label.text_only (l : Label) : Only p l.text := fun c hc => Textual.word c (l.text_word c hc)

lemma subset_of_mem (hd : d.flatMap source = ts) {part : Patch α} (h : part ∈ d) :
  part.source ⊆ ts := fun _ ht =>
  hd ▸ mem_flatMap.mpr ⟨part, h, ht⟩

lemma Stage.step (h : Stage p ts D) (hd : d.flatMap source = ts)
  (hfresh : ∀ l, Keyed D l → l.family = family → l.number < n)
  (hswap : ∀ f y a, .found f y a ∈ d → Swap p D f y) :
  Stage p (labelled family n d) (D ++ entriesOf family n d) ∧
    fill (standsFor (D ++ entriesOf family n d)) (labelled family n d) =
      d.flatMap (shown (standsFor D)) := by
  have hnew : ∀ e ∈ entriesOf family n d, ¬ Keyed D e.1 := by
    intro e he hknown
    have hkey := entriesOf_key e he
    cases (Nat.not_lt.mpr hkey.2.1) (hfresh e.1 hknown hkey.1)
  have hfound : ∀ e ∈ entriesOf family n d, ∃ f a, .found f e.2 a ∈ d := fun e he =>
    mem_entriesOf.mp ⟨e.1, he⟩
  have hmore : ∀ l, Keyed D l → Keyed (D ++ entriesOf family n d) l := fun l hl =>
    hl.imp fun p hp => mem_append_left _ hp
  have hkept : ∀ t, .kept t ∈ d → t ∈ ts := fun t ht => subset_of_mem hd ht (mem_singleton_self t)
  -- Old labels stand for what they stood for, and new ones for what was found.
  have hfill : fill (standsFor (D ++ entriesOf family n d)) (labelled family n d) =
      d.flatMap (shown (standsFor D)) := by
    rw [fill_labelled fun e he => by rw [standsFor_append_right (hnew e he), standsFor_entriesOf e he]]
    refine flatMap_congr fun part hpart => ?_
    cases part with
    | found f p a => rfl
    | kept t =>
      cases t with
      | char c => rfl
      | label l => exact standsFor_append_left (h.known l (hkept _ hpart)) _
  have hclean : Clean (d.flatMap (shown (standsFor D))) := clean_shown (a := []) hswap (hd ▸ h.clean)
  have hinner : ∀ e ∈ D ++ entriesOf family n d,
      Clean e.2 ∧ Enclosed p (spell e.2) ∧ ∀ l, .label l ∈ e.2 → Keyed D l := by
    refine forall_mem_append.mpr ⟨h.inner, fun e he => ?_⟩
    rcases hfound e he with ⟨f, a, hf⟩
    refine ⟨hclean.of_part ?_, (hswap f e.2 a hf).closed, (hswap f e.2 a hf).known⟩
    exact infix_of_mem_flatten (mem_map_of_mem (f := shown (standsFor D)) hf)
  refine ⟨⟨fun c hc => ?_, hfill ▸ hclean, fun l hl => ?_, ?_,
    fun e he => (hinner e he).imp_right (.imp_right fun hl l h => hmore l (hl l h)),
    fun e he l hl => ?_⟩, hfill⟩
  · rcases mem_flatMap.mp hc with ⟨t, ht, hc⟩
    rcases mem_labelled ht with ht | ⟨e, -, rfl⟩
    · exact h.safe c (mem_flatMap.mpr ⟨t, hkept t ht, hc⟩)
    · exact e.1.text_only p c hc
  · rcases mem_labelled hl with hl | ⟨e, he, hlabel⟩
    · exact hmore l (h.known l (hkept _ hl))
    · cases hlabel
      exact ⟨e.2, mem_append_right _ he⟩
  · refine pairwise_append.mpr ⟨h.ordered, pairwise_of_forall_mem_list ?_, ?_⟩
    · exact fun e he e' he' hl => hnew e' he' ((hinner e (mem_append_right _ he)).2.2 _ hl)
    · exact fun e he e' he' hl => hnew e' he' ((h.inner e he).2.2 _ hl)
  · rw [hfill]
    rcases mem_append.mp he with he | he
    · rcases h.leaks e he l hl with ⟨l', hl'⟩
      rw [← hd, fill, flatMap_assoc] at hl'
      rcases mem_flatMap.mp hl' with ⟨part, hpart, hl'⟩
      cases part with
      | kept t => exact ⟨l', mem_flatMap.mpr ⟨_, hpart, by simpa [source, Patch.shown] using hl'⟩⟩
      | found f p a =>
        rcases (hswap f p a hpart).leaks l' hl' with ⟨l'', hl''⟩
        exact ⟨l'', mem_flatMap.mpr ⟨_, hpart, hl''⟩⟩
    · rcases hfound e he with ⟨f, a, hf⟩
      exact ⟨l, mem_flatMap.mpr ⟨_, hf, hl⟩⟩

lemma spell_flatMap {β : Type} (l : List β) (g : β → List Token) :
  spell (l.flatMap g) = l.flatMap fun y => spell (g y) :=
  flatMap_assoc

lemma Stage.closed_fill (h : Stage p ts D) (hx : x ⊆ ts) : Enclosed p (spell (fill (standsFor D) x)) := by
  rw [fill, spell_flatMap]
  refine (withoutTags_flatMap fun t ht => ?_).1
  cases t with
  | char c => exact (h.safe.of_subset (spell_subset fun _ ht' => mem_singleton.mp ht' ▸ hx ht)).closed
  | label l => exact (h.inner _ (h.known l (hx ht)).mem).2.1

lemma Stage.erased_parts (h : Stage p ts D) (hd : d.flatMap source = ts)
  (hswap : ∀ f y a, .found f y a ∈ d → Swap p D f y) :
  withoutTags (spell (fill (standsFor D) ts)) =
      d.flatMap (fun part => withoutTags (spell (fill (standsFor D) part.source))) ∧
    withoutTags (spell (d.flatMap (shown (standsFor D)))) =
      d.flatMap (fun part => withoutTags (spell (part.shown (standsFor D)))) := by
  constructor
  · rw [← hd, fill, flatMap_assoc, spell_flatMap]
    exact (withoutTags_flatMap fun part hpart => h.closed_fill (subset_of_mem hd hpart)).2
  · rw [spell_flatMap]
    refine (withoutTags_flatMap (p := p) fun part hpart => ?_).2
    cases part with
    | found f p a => exact (hswap f p a hpart).closed
    | kept t =>
      have hclosed := h.closed_fill (subset_of_mem hd hpart)
      rwa [source, fill, flatMap_singleton] at hclosed

end Stages

section Wrapping

variable {text : List Char} {ts f : List Token} {D : Legend} {ink : Ink} {α : Type}
  {p : Char → Bool} [Textual p] {d : List (Patch α)} {family : Family} {n : Nat}

def wrap (ink : Ink) (f : List Token) : List Token :=
  ("<span style=\"" ++ ink.style ++ "\">").toList.map .char ++ (f ++ "</span>".toList.map .char)

lemma spell_wrap : spell (wrap ink f) = ink.span (spell f) := by
  rw [wrap, spell_append, spell_append, spell_map_char, spell_map_char, Ink.span, append_assoc]

lemma label_mem_wrap {l : Label} : .label l ∈ wrap ink f ↔ .label l ∈ f := by simp [wrap]

lemma placeholder_infix_tag {t : List Char} (ht : InkTag t) (a cs : List Char) :
  placeholder <:+: a ++ (t ++ cs) ↔ placeholder <:+: a ∨ placeholder <:+: cs := by
  have hin : ¬ placeholder <:+: t := fun hin =>
    inkTag_avoids t ht (hin.subset (show '_' ∈ placeholder by decide))
  rcases spanTag_body (spanTag_of_inkTag t ht) with ⟨c, body, rfl, -⟩
  have hbody : ¬ placeholder <:+: c :: body := fun hbody => hin (hbody.trans ⟨['<'], ['>'], rfl⟩)
  rw [show '<' :: (c :: body) ++ ['>'] ++ cs = '<' :: (c :: body ++ '>' :: cs) by simp,
    infix_append_cons_iff (by decide), infix_append_cons_iff (by decide), or_iff_right hbody]

lemma clean_wrap {a r : List Token} :
  Clean (a ++ (wrap ink f ++ r)) ↔ Clean a ∧ Clean f ∧ Clean r := by
  have hchars : ∀ cs : List Char, (cs.map Token.char).map Token.blot = cs := fun cs => by
    rw [map_map]
    exact map_id cs
  simp only [Clean, wrap, map_append, append_assoc, hchars,
    placeholder_infix_tag (.opening ink), placeholder_infix_tag .closing, not_or]

omit [Textual p] in
lemma Swap.wrap (h : Stage p ts D) (hf : f ⊆ ts) : Swap p D f (wrap ink f) where
  known l hl := h.known l (hf (label_mem_wrap.mp hl))
  leaks l hl := by
    rcases exists_label_of_fill hl with ⟨l', hl', -⟩
    exact ⟨l', label_mem_wrap.mpr hl'⟩
  clean a r hclean := by
    have hclean := hclean.of_fill
    exact clean_wrap.mpr ⟨hclean.of_part ⟨[], _, rfl⟩, hclean.of_part ⟨a, r, by simp⟩,
      hclean.of_part ⟨a ++ f, [], by simp⟩⟩
  closed := by
    rw [spell_wrap]
    exact span_closed ink (h.safe.of_subset (spell_subset hf)).closed

/-- No marker stands for a text with markers. -/
def Bare (D : Legend) : Prop := ∀ e ∈ D, ∀ l, .label l ∉ e.2

structure Faithful (p : Char → Bool) (text : List Char) (ts : List Token) (D : Legend) : Prop
  extends Stage p ts D where
  faithful : Bare D → withoutTags (spell (fill (standsFor D) ts)) = text

lemma Faithful.step (ink : Ink) (h : Faithful p text ts D) (hd : d.flatMap source = ts)
  (hfresh : ∀ l, Keyed D l → l.family = family → l.number < n)
  (hwrap : ∀ f y a, .found f y a ∈ d → y = wrap ink f) :
  Faithful p text (labelled family n d) (D ++ entriesOf family n d) := by
  have hswap : ∀ f y a, .found f y a ∈ d → Swap p D f y := by
    intro f y a hf
    rw [hwrap f y a hf]
    exact .wrap h.toStage (subset_of_mem hd hf)
  rcases h.toStage.step hd hfresh hswap with ⟨hstage, hfill⟩
  refine ⟨hstage, fun hbare => ?_⟩
  have hparts := h.toStage.erased_parts hd hswap
  rw [hfill, hparts.2, ← h.faithful fun e he => hbare e (mem_append_left _ he), hparts.1]
  refine flatMap_congr fun part hpart => ?_
  cases part with
  | kept t => rw [source, fill, flatMap_singleton, Patch.shown]
  | found f p a =>
    rcases mem_entriesOf.mpr ⟨f, a, hpart⟩ with ⟨l, hl⟩
    have hp : ∀ l, .label l ∉ p := hbare _ (mem_append_right _ hl)
    rw [hwrap f p a hpart] at hp ⊢
    have hf := h.toStage.closed_fill (subset_of_mem hd hpart)
    rw [source, Patch.shown, spell_wrap]
    rw [source] at hf
    rw [fill_bare fun l hl => hp l (label_mem_wrap.mpr hl)] at hf ⊢
    exact withoutTags_span ink hf

end Wrapping

section Searches

variable {text : List Char} {ts A f B : List Token} {D : Legend} {p : Char → Bool} [Textual p]
  {c sign : Char}

lemma ascii_of_isAsciiWord (h : isAsciiWord c) : c.toNat < 128 := by
  have hranges : ((65 ≤ c.toNat ∧ c.toNat ≤ 90 ∨ 97 ≤ c.toNat ∧ c.toNat ≤ 122) ∨
      48 ≤ c.toNat ∧ c.toNat ≤ 57) ∨ c = '_' := by
    change (decide (c.val ≥ 65 ∧ c.val ≤ 90) || decide (c.val ≥ 97) && decide (c.val ≤ 122) ||
      decide (c.val ≥ 48) && decide (c.val ≤ 57) || c == '_') at h
    simpa [UInt32.le_iff_toNat_le] using h
  rcases hranges with hrange | rfl
  · omega
  · decide

lemma isWord_of_isAsciiWord (h : isAsciiWord c) : isWord c := by
  rw [isWord, if_pos (ascii_of_isAsciiWord h), h]

lemma marksOf_append (D N : Legend) : marksOf (D ++ N) = marksOf D ++ marksOf N := map_append

/-- No brace opens between one that opens and the next one that closes. -/
def Flat (cs : List Char) : Prop := ∀ a b c, cs = a ++ '\x7b' :: (b ++ '\x7d' :: c) → '\x7d' ∉ b → '\x7b' ∉ b

def Braced (y : List Token) : Prop :=
  ∃ sign body, sign ∈ variableSigns ∧ '\x7d' ∉ body ∧
    spell y = Ink.reference.span (sign :: '\x7b' :: body ++ ['\x7d']) ∧
    withoutTags (spell y) = sign :: '\x7b' :: body ++ ['\x7d']

/-- No variable with this sign is left. -/
def Sought (sign : Char) (ts : List Token) : Prop :=
  ∀ n, n ≠ [] → '\x7d' ∉ n → ¬ (sign :: '\x7b' :: n ++ ['\x7d']).map .char <:+: ts

lemma reference_run {n : List Char} (hne : n ≠ []) (hn : '\x7d' ∉ n) (b : Option Char)
  (rest : List Char) : reference sign b (sign :: '\x7b' :: (n ++ '\x7d' :: rest)) ≠ none := by
  rcases exists_cons_of_ne_nil hne with ⟨c, n, rfl⟩
  rw [reference, if_pos rfl, span_ne_append_cons hn]
  exact Option.some_ne_none _

def Numbered (D : Legend) : Prop := ∀ e ∈ D, e.1.family = .reference ∧ e.1.number < D.length ∧ Braced e.2

lemma exists_first_label {m : List Token} {l : Label} (h : .label l ∈ m) :
  ∃ (x : List Char) (l' : Label) (m' : List Token), m = x.map .char ++ .label l' :: m' := by
  induction m with
  | nil => cases h
  | cons t m ih =>
    cases t with
    | label l' => exact ⟨[], l', m, rfl⟩
    | char c =>
      rcases ih (mem_of_ne_of_mem (by simp) h) with ⟨x, l', m', rfl⟩
      exact ⟨c :: x, l', m', rfl⟩

lemma Faithful.label_not_mem_variable (h : Faithful p text ts D) (hkeys : Numbered D) (hbare : Bare D)
  (hflat : Flat text) (hts : ts = A ++ (f ++ B)) {body : List Char}
  (hsign : sign ∈ variableSigns) (hf : spell f = sign :: '\x7b' :: body ++ ['\x7d'])
  (hbody : '\x7d' ∉ body) (l : Label) : .label l ∉ f := by
  intro hl
  rcases exists_first_label hl with ⟨x, l', m, rfl⟩
  have hmarker : '_' ∉ sign :: ['\x7b'] ∧ ∀ s ∈ variableSigns, '\x7d' ≠ s := by
    refine ⟨?_, by decide⟩
    have hall : ∀ s ∈ variableSigns, '_' ∉ s :: ['\x7b'] := by decide
    exact hall sign hsign
  -- The text before the marker starts with the sign and the brace of the variable.
  obtain ⟨tail, htail⟩ : ∃ tail, l'.text = '_' :: tail := ⟨_, l'.text_eq⟩
  rw [spell_append, spell_map_char, spell_cons, Token.text, htail] at hf
  obtain ⟨x, rfl⟩ : ∃ x', x = sign :: '\x7b' :: x' := by
    cases x with
    | nil => cases hmarker.1 (mem_cons.mpr (.inl (cons.inj hf).1))
    | cons c x =>
      cases x with
      | nil =>
        have hbrace := (cons.inj (cons.inj hf).2).1
        cases hmarker.1 (mem_cons.mpr (.inr (mem_singleton.mpr hbrace)))
      | cons c' x => exact ⟨x, by rw [(cons.inj hf).1, (cons.inj (cons.inj hf).2).1]⟩
  have hx : '\x7d' ∉ x := by
    have hrest : x ++ ('_' :: tail ++ spell m) = body ++ ['\x7d'] := (cons.inj (cons.inj hf).2).2
    have hfront := congrArg List.dropLast hrest
    rw [dropLast_append_of_ne_nil (by simp), dropLast_concat] at hfront
    exact fun hmem => hbody (hfront ▸ mem_append_left _ hmem)
  have hlabel : .label l' ∈ ts := by simp [hts]
  have hentry := (h.known l' hlabel).mem
  rcases (hkeys _ hentry).2.2 with ⟨sign', body', hsign', hbody', -, hshown⟩
  have hfront : (sign :: '\x7b' :: x).map .char ⊆ ts := fun t ht =>
    hts ▸ mem_append_right _ (mem_append_left _ (mem_append_left _ ht))
  have hchars : Only p (sign :: '\x7b' :: x) := by
    have hsafe := h.safe.of_subset (spell_subset hfront)
    rwa [spell_map_char] at hsafe
  have hsplit : ∀ X Y, X ⊆ ts → withoutTags (spell (fill (standsFor D) (X ++ Y))) =
      withoutTags (spell (fill (standsFor D) X)) ++ withoutTags (spell (fill (standsFor D) Y)) := by
    intro X Y hX
    rw [fill_append, spell_append, (h.closed_fill hX 0).withoutTags_append]
  have hplain : fill (standsFor D) ((sign :: '\x7b' :: x).map .char) = (sign :: '\x7b' :: x).map .char :=
    fill_bare (by simp)
  have hone : fill (standsFor D) [.label l'] = standsFor D l' := flatMap_singleton _ _
  have htext := h.faithful hbare
  rw [hts, hsplit A _ fun t ht => hts ▸ mem_append_left _ ht, append_assoc, hsplit _ _ hfront,
    cons_append, ← singleton_append (x := Token.label l'),
    hsplit [.label l'] _ (by simpa using hlabel), hplain, spell_map_char, hchars.withoutTags, hone,
    hshown] at htext
  refine hflat (withoutTags (spell (fill (standsFor D) A)) ++ [sign]) (x ++ sign' :: '\x7b' :: body')
    (withoutTags (spell (fill (standsFor D) (m ++ B)))) (by rw [← htext]; simp) ?_ (by simp)
  simp [hx, hmarker.2 sign' hsign', hbody']

lemma reference_wordless (hsign : sign ∈ variableSigns) : Wordless (reference sign) := by
  intro b c cs _ hc
  cases hfound : reference sign (some b) (c :: cs) with
  | none => rfl
  | some found =>
    rcases reference_eq_some hfound with ⟨body, rest, hbody, hcs, -, -⟩
    rw [hbody] at hcs
    rw [(cons.inj hcs).1] at hc
    have hnone : ∀ sign ∈ variableSigns, isAsciiWord sign = false := by decide
    rw [hnone sign hsign] at hc
    cases hc

/-- What a search for variables finds, and what is shown for it. -/
def ReferenceTo (sign : Char) (f y : List Token) (a : List Char) : Prop :=
  a = spell f ∧ y = wrap .reference f ∧ ∃ body, '\x7d' ∉ body ∧ a = sign :: '\x7b' :: body ++ ['\x7d']

lemma exists_referenceTo {a : List Char} {k : Nat} {b : Option Char}
  (h : reference sign b (spell B) = some (a, k)) :
  ∃ f y B', B = f ++ B' ∧ f ≠ [] ∧ k = (spell f).length ∧ ReferenceTo sign f y a := by
  rcases reference_eq_some h with ⟨body, rest, hbody, hB, rfl, hclosing⟩
  have hcut : ∀ c ∈ a.getLast?, ∀ d ∈ rest.head?, isAsciiWord c → isAsciiWord d = false := by
    intro c hc d _ hword
    rw [hbody, getLast?_concat] at hc
    cases hc
    cases hword
  rcases exists_cut hB hcut with ⟨f, B', rfl, rfl, -⟩
  refine ⟨f, _, B', rfl, ?_, rfl, rfl, rfl, body, hclosing, hbody⟩
  rintro rfl
  cases hbody

lemma Faithful.references (h : Faithful p text ts D) (hkeys : Numbered D)
  (hsign : sign ∈ variableSigns) : ∃ ts' D', Faithful p text ts' D' ∧ Numbered D' ∧
    (Flat text → Bare D → Bare D') ∧ Sought sign ts' ∧ (∀ s, Sought s ts → Sought s ts') ∧
    (markPieces "VAR" D.length (scan (reference sign) (spell ts))).1 = spell ts' ∧
    marksOf D ++ numbered "VAR" D.length
      ((markPieces "VAR" D.length (scan (reference sign) (spell ts))).2.map Ink.reference.span) =
        marksOf D' := by
  rcases exists_division (reference_wordless hsign) fun A B a k _ => exists_referenceTo with
    ⟨d, hd, hfound, hkept, hscan⟩
  have hmarks := markPieces_pieces .reference (h := Ink.reference.span) (g := id) D.length
    fun f y a hf => by rw [id, (hfound f y a hf).1, (hfound f y a hf).2.1, spell_wrap]
  have hsame : (fun b cs => (reference sign b cs).map fun x => (id x.1, x.2)) = reference sign :=
    funext fun b => funext fun cs => congrFun Option.map_id _
  have hfresh : ∀ l, Keyed D l → l.family = .reference → l.number < D.length := by
    rintro l ⟨y, hy⟩ -
    exact (hkeys _ hy).2.1
  rw [← hscan id, hsame] at hmarks
  refine ⟨_, _, h.step .reference hd hfresh fun f y a hf => (hfound f y a hf).2.1, ?_, ?_,
    fun n hne hn hrun => ?_, fun s hs n hne hn hrun => ?_, hmarks.1, ?_⟩
  · rw [Numbered, length_append]
    refine forall_mem_append.mpr ⟨fun e he => ?_, fun e he => ?_⟩
    · exact ⟨(hkeys e he).1, Nat.lt_add_right _ (hkeys e he).2.1, (hkeys e he).2.2⟩
    · rcases mem_entriesOf.mp ⟨e.1, he⟩ with ⟨f, a, hf⟩
      rcases hfound f e.2 a hf with ⟨rfl, hwrap, body, hbody, hspell⟩
      have honly : Only p (spell f) := h.safe.of_subset (spell_subset (subset_of_mem hd hf))
      have hshown : withoutTags (spell e.2) = spell f := by
        rw [hwrap, spell_wrap, withoutTags_span _ honly.closed, honly.withoutTags]
      refine ⟨(entriesOf_key e he).1, (entriesOf_key e he).2.2, sign, body, hsign, hbody, ?_, ?_⟩
      · rw [hwrap, spell_wrap, hspell]
      · rw [hshown, hspell]
  · refine fun hflat hbare => forall_mem_append.mpr ⟨hbare, fun e he l hl => ?_⟩
    rcases mem_entriesOf.mp ⟨e.1, he⟩ with ⟨f, a, hf⟩
    rcases hfound f e.2 a hf with ⟨rfl, hwrap, body, hbody, hspell⟩
    rcases append_of_mem hf with ⟨d₁, d₂, rfl⟩
    rw [flatMap_append, flatMap_cons] at hd
    rw [hwrap] at hl
    exact h.label_not_mem_variable hkeys hbare hflat hd.symm hsign hspell hbody l (label_mem_wrap.mp hl)
  · rcases exists_kept hrun with ⟨d₁, d₂, rfl⟩
    have hnone := hkept d₁ (.char sign) (('\x7b' :: n ++ ['\x7d']).map (.kept ∘ .char) ++ d₂) rfl
    rw [flatMap_append, source_kept, spell_cons, spell_append, spell_map_char] at hnone
    exact reference_run hne hn _ (spell (d₂.flatMap source)) (by simpa [Token.text] using hnone)
  · rcases exists_kept hrun with ⟨d₁, d₂, rfl⟩
    refine hs n hne hn ⟨d₁.flatMap source, d₂.flatMap source, ?_⟩
    rw [← hd, flatMap_append, flatMap_append, source_kept, append_assoc]
  · rw [marksOf_append]
    exact congrArg _ hmarks.2

lemma exists_references (htext : Only p text) (hclean : ¬ placeholder <:+: text) :
  ∃ ts D, Faithful p text ts D ∧ Numbered D ∧ (Flat text → Bare D) ∧
    (∀ sign ∈ variableSigns, Sought sign ts) ∧ markVariables text = (spell ts, marksOf D) := by
  have hall : ∀ signs ⊆ variableSigns, ∀ ts D, Faithful p text ts D → Numbered D → (Flat text → Bare D) →
      ∃ ts' D', Faithful p text ts' D' ∧ Numbered D' ∧ (Flat text → Bare D') ∧
        (∀ s, s ∈ signs ∨ Sought s ts → Sought s ts') ∧ signs.foldl (fun (state : List Char × Marks) sign =>
          ((markPieces "VAR" state.2.length (scan (reference sign) state.1)).1,
            state.2 ++ numbered "VAR" state.2.length
              ((markPieces "VAR" state.2.length (scan (reference sign) state.1)).2.map
                Ink.reference.span))) (spell ts, marksOf D) = (spell ts', marksOf D') := by
    intro signs
    induction signs with
    | nil =>
      refine fun _ ts D h hkeys hbare => ⟨ts, D, h, hkeys, hbare, fun s hs => ?_, rfl⟩
      exact hs.resolve_left not_mem_nil
    | cons sign signs ih =>
      intro hsigns ts D h hkeys hbare
      rcases cons_subset.mp hsigns with ⟨hsign, hsigns⟩
      rcases h.references hkeys hsign with
        ⟨ts', D', h', hkeys', hbare', hsought, hstill, htext', hmarks⟩
      have hlength : (marksOf D).length = D.length := length_map _
      rw [foldl_cons, hlength, htext', hmarks]
      rcases ih hsigns ts' D' h' hkeys' fun hflat => hbare' hflat (hbare hflat) with
        ⟨ts'', D'', h'', hkeys'', hbare'', hall, hrun⟩
      refine ⟨ts'', D'', h'', hkeys'', hbare'', fun s hs => hall s ?_, hrun⟩
      rcases hs with hs | hs
      · rcases mem_cons.mp hs with rfl | hs
        · exact .inr hsought
        · exact .inl hs
      · exact .inr (hstill s hs)
  have hstart : Faithful p text (text.map .char) [] := by
    have hbare : ∀ l, Token.label l ∉ text.map .char := by simp
    have hfill : fill (standsFor []) (text.map .char) = text.map .char := fill_bare hbare
    refine ⟨⟨?_, by rw [hfill]; exact clean_map_char hclean, fun l hl => absurd hl (hbare l), .nil,
      forall_mem_nil _, forall_mem_nil _⟩, fun _ => ?_⟩
    · rwa [spell_map_char]
    · rw [hfill, spell_map_char, htext.withoutTags]
  have hrun := hall variableSigns (List.Subset.refl _) _ _ hstart (forall_mem_nil _) fun _ => forall_mem_nil _
  rw [spell_map_char] at hrun
  rcases hrun with ⟨ts, D, h, hkeys, hbare, hsought, hrun⟩
  exact ⟨ts, D, h, hkeys, hbare, fun sign hsign => hsought sign (.inl hsign), hrun⟩

lemma labelled_kept {α : Type} {family : Family} {n : Nat} (A : List Token) (d : List (Patch α)) :
  labelled family n (A.map .kept ++ d) = A ++ labelled family n d ∧
    entriesOf family n (A.map .kept ++ d) = entriesOf family n d := by
  induction A with
  | nil => exact ⟨rfl, rfl⟩
  | cons t A ih => exact ⟨congrArg (t :: ·) ih.1, ih.2⟩

lemma Faithful.step_one {family : Family} (h : Faithful p text (A ++ (f ++ B)) D)
  (hfresh : ∀ e ∈ D, e.1.family ≠ family) (ink : Ink) :
  Faithful p text (A ++ .label ⟨family, 0⟩ :: B) (D ++ [(⟨family, 0⟩, wrap ink f)]) := by
  have hsource : ∀ C : List Token, (C.map (Patch.kept (α := Unit))).flatMap source = C := fun C => by
    rw [flatMap_map]
    exact flatMap_singleton' C
  have hstep : Faithful p text
      (labelled family 0 (A.map .kept ++ .found f (wrap ink f) () :: (B.map .kept ++ [])))
      (D ++ entriesOf family 0 (A.map .kept ++ .found f (wrap ink f) () :: (B.map .kept ++ []))) := by
    refine h.step ink ?_ ?_ fun f' p a hmem => ?_
    · rw [append_nil, flatMap_append, flatMap_cons, hsource, hsource, source]
    · rintro l ⟨p, hp⟩ hfamily
      cases (hfresh _ hp) hfamily
    · have hone : f' = f ∧ p = wrap ink f := by simpa using hmem
      rw [hone.1, hone.2]
  rwa [(labelled_kept A _).1, (labelled_kept A _).2, labelled, entriesOf, (labelled_kept B []).1,
    (labelled_kept B []).2, labelled, entriesOf, append_nil] at hstep

lemma exists_keyword (names : List String) (ts : List Token) :
  markKeyword names (spell ts) = (spell ts, []) ∨ ∃ name ∈ names, ∃ A f B, ts = A ++ (f ++ B) ∧
    spell f = name.toList ∧ markKeyword names (spell ts) =
      (spell (A ++ .label ⟨.keyword, 0⟩ :: B), marksOf [(⟨.keyword, 0⟩, wrap .keyword f)]) := by
  rcases markKeyword_cases names (spell ts) with hnone | ⟨name, hname, front, rest, hsplit, hmarked⟩
  · exact .inl hnone
  rcases splitAtWord_eq_some hsplit with ⟨hts, hboundary, hends⟩
  rw [append_assoc] at hts
  -- Names are found between the boundaries of words, so a name takes whole tokens.
  have hbefore : ∀ c ∈ front.getLast?, ∀ d ∈ (name.toList ++ rest).head?,
      isAsciiWord c → isAsciiWord d = false := by
    intro c hc d hd hword
    rw [hc, hd, Option.or_none] at hboundary
    cases hother : isAsciiWord d with
    | false => rfl
    | true =>
      have hdiffer : (isWord c != isWord d) := hboundary
      rw [isWord_of_isAsciiWord hword, isWord_of_isAsciiWord hother] at hdiffer
      cases hdiffer
  have hafter : ∀ c ∈ name.toList.getLast?, ∀ d ∈ rest.head?, isAsciiWord c → isAsciiWord d = false := by
    intro c _ d hd _
    rcases head?_eq_some_iff.mp hd with ⟨rest, rfl⟩
    exact Bool.not_eq_true' _ ▸ hends
  rcases exists_cut hts hbefore with ⟨A, B, rfl, rfl, hB⟩
  rcases exists_cut hB hafter with ⟨f, B, rfl, hf, rfl⟩
  refine .inr ⟨name, hname, A, f, B, rfl, hf, ?_⟩
  rw [hmarked, spell_append, spell_cons, append_assoc, ← hf, ← spell_wrap]
  rfl

omit [Textual p] in
lemma Stage.label_not_mem (h : Stage p ts D) (hts : ts = A ++ (f ++ B))
  (hf : ¬ placeholder <:+: spell f) (l : Label) : .label l ∉ f := fun hl =>
  hf ((placeholder_infix_spell ((clean_of_fill h.clean).of_part ⟨A, B, by simp [hts]⟩)).mpr ⟨l, hl⟩)

lemma Faithful.keyword_step (h : Faithful p text (A ++ (f ++ B)) D)
  (hkeys : ∀ e ∈ D, e.1.family = .reference) :
  Faithful p text (A ++ .label ⟨.keyword, 0⟩ :: B) (D ++ [(⟨.keyword, 0⟩, wrap .keyword f)]) :=
  h.step_one (fun e he hfamily => by cases (hkeys e he).symm.trans hfamily) .keyword

lemma Faithful.keyword (h : Faithful p text ts D) (hkeys : ∀ e ∈ D, e.1.family = .reference)
  (names : List String) : ∃ ts' N, Faithful p text ts' (D ++ N) ∧ (∀ e ∈ N, e.1.family = .keyword) ∧
    ((∀ name ∈ names, ¬ placeholder <:+: name.toList) → Bare N) ∧
    markKeyword names (spell ts) = (spell ts', marksOf N) := by
  rcases exists_keyword names ts with hnone | ⟨name, hname, A, f, B, rfl, hf, hmarked⟩
  · exact ⟨ts, [], by rwa [append_nil], forall_mem_nil _, fun _ => forall_mem_nil _, hnone⟩
  refine ⟨_, _, h.keyword_step hkeys, forall_mem_singleton.mpr rfl, fun hfree => ?_, hmarked⟩
  refine forall_mem_singleton.mpr fun l hl => ?_
  exact h.label_not_mem rfl (hf ▸ hfree name hname) l (label_mem_wrap.mp hl)

lemma not_word_of_blank (h : isBlank c) : isAsciiWord c = false := by
  cases hword : isAsciiWord c with
  | false => rfl
  | true =>
    have hall : ∀ n < 128, isAsciiWord (Char.ofNat n) → isBlank (Char.ofNat n) = false := by decide
    have hc := hall c.toNat (ascii_of_isAsciiWord hword)
    rw [Char.ofNat_toNat, h] at hc
    cases hc hword

lemma exists_value_cut {B : List Token} {value : List Char} (hclean : Clean B)
  (hsafe : Safe (spell B)) (h : argumentValue? (spell B) = some value) :
  ∃ W B', B = W ++ B' ∧ spell W = value := by
  rcases argumentValue?_eq_some hsafe h with ⟨name, hname, hmarker⟩ | ⟨rfl, -⟩
  · rcases markerAt?_eq_some hmarker with ⟨d, ds, rest, hdigits, hvalue, hB⟩
    have hds : '_' ∉ d :: ds := fun hmem => by cases hdigits _ hmem
    have hfront : ∃ f : Family, value = '_' :: (markerBody f (d :: ds) ++ ['_', '_']) := by
      rcases mem_pair.mp hname with rfl | rfl
      · exact ⟨.reference, hvalue⟩
      · exact ⟨.keyword, hvalue⟩
    rcases hfront with ⟨f, rfl⟩
    rw [cons_append, append_assoc] at hB
    rcases eq_label_of_front hclean (cons_ne_nil d ds) hds hB with ⟨l, ts', rfl, rfl, hnumber, -⟩
    refine ⟨[.label l], ts', rfl, ?_⟩
    rw [spell_singleton, Token.text, l.text_eq, ← hnumber]
  · have hB := (takeWhile_append_dropWhile (l := spell B) (p := fun c => !isBlank c && decide (c ≠ '<'))).symm
    have hcut : ∀ c ∈ ((spell B).takeWhile fun c => !isBlank c && decide (c ≠ '<')).getLast?,
        ∀ d ∈ ((spell B).dropWhile fun c => !isBlank c && decide (c ≠ '<')).head?,
          isAsciiWord c → isAsciiWord d = false := by
      intro c _ d hd _
      have hstop := head?_dropWhile_not (fun c => !isBlank c && decide (c ≠ '<')) (spell B)
      rw [hd] at hstop
      rcases Bool.and_eq_false_iff.mp hstop with hblank | hlt
      · exact not_word_of_blank (by simpa using hblank)
      · rw [show d = '<' by simpa using hlt]
        rfl
    rcases exists_cut hB hcut with ⟨W, B', rfl, hW, -⟩
    exact ⟨W, B', rfl, hW⟩

lemma eq_map_char {M : List Token} (h : ∀ c ∈ spell M, isAsciiWord c = false) :
  M = (spell M).map .char := by
  induction M with
  | nil => rfl
  | cons t M ih =>
    rw [spell_cons, forall_mem_append] at h
    rw [spell_cons, map_append, ← ih h.2]
    cases t with
    | char c => rfl
    | label l =>
      have hword := h.1 '_' (by rw [Token.text, l.text_eq]; exact mem_cons_self)
      cases hword

lemma lookup_marksOf (l : Label) : (marksOf D).lookup l.text = (D.lookup l).map spell := by
  induction D with
  | nil => rfl
  | cons e D ih =>
    rw [marksOf, map_cons, lookup_cons, lookup_cons]
    by_cases hkey : l = e.1
    · rw [hkey, beq_self_eq_true, beq_self_eq_true]
      rfl
    · have htext : l.text ≠ e.1.text := fun htext => by
        have hclean : Clean [.label e.1] := fun hin => absurd (show 8 ≤ 1 from hin.length_le) (by decide)
        rcases l.eq_of_front hclean (by rw [htext, spell_singleton]; exact prefix_rfl) with ⟨_, hl⟩
        exact hkey (by cases hl; rfl)
      rw [beq_false_of_ne hkey, beq_false_of_ne htext]
      exact ih

lemma exists_value {W : List Token} (hclean : Clean W) : ∃ V, (V = W ∨ V = fill (standsFor D) W) ∧
  ((marksOf D).lookup (spell W)).getD (spell W) = spell V := by
  cases hlook : (marksOf D).lookup (spell W) with
  | none => exact ⟨W, .inl rfl, rfl⟩
  | some v =>
    rcases lookup_eq_some_iff.mp hlook with ⟨m₁, m₂, hmarks, -⟩
    have hmem : (spell W, v) ∈ marksOf D := by
      rw [hmarks]
      simp
    rcases mem_map.mp hmem with ⟨e, he, hpair⟩
    have htext : e.1.text = spell W := congrArg Prod.fst hpair
    rcases e.1.eq_of_front hclean (htext ▸ prefix_rfl) with ⟨W', rfl⟩
    have hnil : W' = [] := by
      by_contra hne
      exact spell_ne_nil hne (by simpa [spell_cons, Token.text] using htext)
    subst hnil
    have hknows : Keyed D e.1 := ⟨e.2, he⟩
    rw [spell_singleton, Token.text, lookup_marksOf, hknows.lookup, Option.map_some] at hlook
    refine ⟨_, .inr rfl, ?_⟩
    rw [fill, flatMap_singleton, Token.put, Option.getD_some, ← Option.some.inj hlook]

inductive Argument (D : Legend) : List Token → List Token → List Char × List Char → Prop where
  | intro (N W V : List Token) (gap gap' : List Char) (hne : N ≠ [])
      (hword : ∀ c ∈ spell N, isAsciiWord c) (hvalue : V = W ∨ V = fill (standsFor D) W)
      (hshown : ((marksOf D).lookup (spell W)).getD (spell W) = spell V) :
      Argument D (N ++ ((gap ++ '=' :: gap').map .char ++ W)) (wrap .argument N ++ .char '=' :: V)
        (spell N, spell W)

lemma namedArgument_wordless : Wordless namedArgument := by
  intro b c cs hb _
  cases hfound : namedArgument (some b) (c :: cs) with
  | none => rfl
  | some found =>
    have hb' : isWord b = false := (namedArgument_eq_some hfound).1
    rw [isWord_of_isAsciiWord hb] at hb'
    cases hb'

lemma Stage.exists_argument (h : Stage isSafe ts D) (hts : ts = A ++ B) {a : List Char × List Char}
  {k : Nat} {b : Option Char} (hfind : namedArgument b (spell B) = some (a, k)) :
  ∃ f p B', B = f ++ B' ∧ f ≠ [] ∧ k = (spell f).length ∧ Argument D f p a := by
  rcases namedArgument_eq_some hfind with
    ⟨-, gap, gap', rest, hB, hne, hgap, hgap', hname, hvalue, hk⟩
  have hmid : ∀ c ∈ gap ++ '=' :: gap', isAsciiWord c = false := by
    refine forall_mem_append.mpr ⟨fun c hc => ?_, forall_mem_cons.mpr ⟨rfl, fun c hc => ?_⟩⟩
    · exact not_word_of_blank (all_eq_true.mp hgap c hc)
    · exact not_word_of_blank (all_eq_true.mp hgap' c hc)
  have hmid_ne : gap ++ '=' :: gap' ≠ [] := by simp
  rw [show gap ++ '=' :: (gap' ++ rest) = (gap ++ '=' :: gap') ++ rest by simp] at hB
  have hcut : ∀ c ∈ a.1.getLast?, ∀ d ∈ ((gap ++ '=' :: gap') ++ rest).head?,
      isAsciiWord c → isAsciiWord d = false := by
    intro c _ d hd _
    rw [head?_append_of_ne_nil _ hmid_ne] at hd
    exact hmid d (mem_of_mem_head? hd)
  have hcut' : ∀ c ∈ (gap ++ '=' :: gap').getLast?, ∀ d ∈ rest.head?,
      isAsciiWord c → isAsciiWord d = false := by
    intro c hc d _ hword
    rw [hmid c (mem_of_mem_getLast? hc)] at hword
    cases hword
  rcases exists_cut hB hcut with ⟨N, B, rfl, hN, hB⟩
  rcases exists_cut hB hcut' with ⟨M, B, rfl, hM, rfl⟩
  obtain rfl : M = (gap ++ '=' :: gap').map .char := hM ▸ eq_map_char (hM ▸ hmid)
  have hend : B <:+ ts := ⟨A ++ (N ++ (gap ++ '=' :: gap').map .char), by simp [hts]⟩
  have hclean : Clean B := (clean_of_fill h.clean).of_part hend.isInfix
  rcases exists_value_cut hclean (h.safe.of_subset (spell_subset hend.subset)) hvalue with ⟨W, B, rfl, hW⟩
  rcases exists_value (D := D) (hclean.of_part ⟨[], B, rfl⟩) with ⟨V, hV, hshown⟩
  have hne' : N ≠ [] := by
    rintro rfl
    exact hne hN.symm
  have hargument := Argument.intro N W V gap gap' hne' (hN ▸ hname) hV hshown
  rw [hN, hW] at hargument
  refine ⟨_, _, B, by simp, by simp [hne'], ?_, hargument⟩
  rw [hk, spell_append, spell_append, spell_map_char, hN, hW]
  simp only [length_append, length_cons]
  omega

lemma Stage.arguments (h : Stage isSafe ts D) : ∃ d : List (Patch (List Char × List Char)),
  d.flatMap source = ts ∧ (∀ f p a, .found f p a ∈ d → Argument D f p a) ∧
    ∀ {β : Type} (g : List Char × List Char → β),
      scan (fun b cs => (namedArgument b cs).map fun x => (g x.1, x.2)) (spell ts) =
        d.flatMap (Patch.pieces g) := by
  rcases exists_division namedArgument_wordless fun A B a k hts => h.exists_argument hts with
    ⟨d, hd, hfound, -, hscan⟩
  exact ⟨d, hd, hfound, hscan⟩

end Searches

section Arguments

variable {text : List Char} {ts f p : List Token} {D : Legend} {a : List Char × List Char}
  {α β : Type} {F G : α → List β} {l : List α}

lemma Argument.swap (harg : Argument D f p a) (h : Stage isSafe ts D) (hf : f ⊆ ts) : Swap isSafe D f p := by
  cases harg with
  | intro N W V gap gap' hne hword hvalue hshown =>
    have hN : N ⊆ ts := fun t ht => hf (by simp [ht])
    have hW : W ⊆ ts := fun t ht => hf (by simp [ht])
    have hmid : fill (standsFor D) ((gap ++ '=' :: gap').map .char) = (gap ++ '=' :: gap').map .char :=
      fill_bare (by simp)
    refine ⟨fun l hl => ?_, fun l hl => ?_, fun b r hclean => ?_, ?_⟩
    · rcases mem_append.mp hl with hl | hl
      · exact h.known l (hN (label_mem_wrap.mp hl))
      rcases mem_cons.mp hl with hl | hl
      · cases hl
      rcases hvalue with rfl | rfl
      · exact h.known l (hW hl)
      · rcases exists_label_of_fill hl with ⟨l', hl', hl⟩
        exact (h.inner _ (h.known l' (hW hl')).mem).2.2 l hl
    · rw [fill_append, fill_append, hmid] at hl
      rcases mem_append.mp hl with hl | hl
      · rcases exists_label_of_fill hl with ⟨l', hl', -⟩
        exact ⟨l', mem_append_left _ (label_mem_wrap.mpr hl')⟩
      have hl : .label l ∈ fill (standsFor D) W := by simpa using hl
      rcases hvalue with rfl | rfl
      · rcases exists_label_of_fill hl with ⟨l', hl', -⟩
        exact ⟨l', by simp [hl']⟩
      · exact ⟨l, by simp [hl]⟩
    · rw [fill_append, fill_append, hmid] at hclean
      rw [append_assoc]
      have hrest : Clean (V ++ r) := by
        have hvalue_clean : Clean ([] ++ (fill (standsFor D) W ++ r)) :=
          hclean.of_part
            ⟨b ++ (fill (standsFor D) N ++ (gap ++ '=' :: gap').map .char), [], by simp⟩
        rcases hvalue with rfl | rfl
        · exact hvalue_clean.of_fill
        · exact hvalue_clean
      have hname : Clean N := clean_of_fill (σ := standsFor D)
        (hclean.of_part ⟨b, _, by rw [append_assoc, append_assoc]⟩)
      refine clean_wrap.mpr ⟨hclean.of_part ⟨[], _, rfl⟩, hname, ?_⟩
      exact (clean_append_cons_iff (a := []) (t := .char '=') (by decide)).mpr
        ⟨hrest.of_part nil_infix, hrest⟩
    · rw [spell_append, spell_wrap, spell_cons]
      refine (span_closed .argument (h.safe.of_subset (spell_subset hN)).closed).append ?_
      refine Enclosed.append (a := ['=']) (Only.closed (by decide)) ?_
      rcases hvalue with rfl | rfl
      · exact (h.safe.of_subset (spell_subset hW)).closed
      · exact h.closed_fill hW

lemma Argument.erased (harg : Argument D f p a) (h : Stage isSafe ts D) (hf : f ⊆ ts)
  (hbare : ∀ l, .label l ∉ p) : ∃ n gap gap' v w, n ≠ [] ∧ (∀ c ∈ n, isAsciiWord c) ∧
    withoutTags (spell p) = n ++ '=' :: v ∧
    withoutTags (spell (fill (standsFor D) f)) = n ++ ((gap ++ '=' :: gap') ++ v) ∧
    a.1 ++ '=' :: a.2 = n ++ '=' :: w ∧ spell f = n ++ ((gap ++ '=' :: gap') ++ w) := by
  cases harg with
  | intro N W V gap gap' hne hword hvalue hshown =>
    have hN : N ⊆ ts := fun t ht => hf (by simp [ht])
    have hmid : (gap ++ '=' :: gap').map .char ⊆ ts := fun t ht =>
      hf (mem_append_right _ (mem_append_left _ ht))
    have hname : Safe (spell N) := h.safe.of_subset (spell_subset hN)
    have hgaps : Safe (gap ++ '=' :: gap') := by
      have hsafe := h.safe.of_subset (spell_subset hmid)
      rwa [spell_map_char] at hsafe
    have hfillN : fill (standsFor D) N = N := fill_bare fun l hl =>
      hbare l (mem_append_left _ (label_mem_wrap.mpr hl))
    have hfillM : fill (standsFor D) ((gap ++ '=' :: gap').map .char) = (gap ++ '=' :: gap').map .char :=
      fill_bare (by simp)
    have hfill : fill (standsFor D) W = V := by
      rcases hvalue with rfl | rfl
      · exact fill_bare fun l hl => hbare l (by simp [hl])
      · rfl
    refine ⟨spell N, gap, gap', withoutTags (spell V), spell W, spell_ne_nil hne, hword, ?_, ?_, rfl, ?_⟩
    · rw [spell_append, spell_wrap, spell_cons,
        (span_closed .argument hname.closed 0).withoutTags_append, withoutTags_span _ hname.closed,
        hname.withoutTags]
      exact congrArg _ (withoutTags_char isSafe (by decide) _)
    · rw [fill_append, fill_append, hfillN, hfillM, hfill, spell_append, spell_append, spell_map_char,
        (hname.closed 0).withoutTags_append, (hgaps.closed 0).withoutTags_append, hname.withoutTags,
        hgaps.withoutTags]
    · rw [spell_append, spell_append, spell_map_char]

lemma length_flatMap_le (h : ∀ x ∈ l, (F x).length ≤ (G x).length) :
  (l.flatMap F).length ≤ (l.flatMap G).length := by
  induction l with
  | nil => exact le_rfl
  | cons x l ih =>
    rcases forall_mem_cons.mp h with ⟨hx, h⟩
    rw [flatMap_cons, flatMap_cons, length_append, length_append]
    exact Nat.add_le_add hx (ih h)

lemma flatMap_eq_iff (h : ∀ x ∈ l, F x = G x ∨ (F x).length < (G x).length) :
  l.flatMap F = l.flatMap G ↔ ∀ x ∈ l, F x = G x := by
  refine ⟨fun heq => ?_, fun hall => flatMap_congr hall⟩
  induction l with
  | nil => exact forall_mem_nil _
  | cons x l ih =>
    rcases forall_mem_cons.mp h with ⟨hx, h⟩
    rw [flatMap_cons, flatMap_cons] at heq
    rcases hx with hx | hx
    · rw [hx, append_cancel_left_eq] at heq
      exact forall_mem_cons.mpr ⟨hx, ih h heq⟩
    · have hrest := length_flatMap_le fun y hy => (h y hy).elim (fun heq => heq ▸ le_rfl) Nat.le_of_lt
      have hlength := congrArg List.length heq
      rw [length_append, length_append] at hlength
      omega

lemma cons_flatMap_ne {b : β}
  (h : ∀ x ∈ l, F x = G x ∨ ∃ c y z, c ≠ b ∧ F x = c :: y ∧ G x = c :: z) :
  b :: l.flatMap F ≠ l.flatMap G := by
  have hshift : ∀ w y z : List β, b :: (w ++ y) = w ++ z → b :: y = z := by
    intro w y z
    induction w with
    | nil => exact id
    | cons c w ih =>
      intro heq
      obtain ⟨rfl, heq⟩ := cons.inj heq
      exact ih heq
  induction l with
  | nil => exact cons_ne_nil _ _
  | cons x l ih =>
    rcases forall_mem_cons.mp h with ⟨hx, h⟩
    rw [flatMap_cons, flatMap_cons]
    rcases hx with hx | ⟨c, y, z, hc, hF, hG⟩
    · rw [hx]
      exact fun heq => ih h (hshift _ _ _ heq)
    · rw [hF, hG]
      exact fun heq => hc (cons.inj heq).1.symm

end Arguments

variable {names : List String} {text : List Char} {ts : List Token} {D : Legend}

/-- The text without blanks around the equals signs of named arguments. -/
def tighten (cs : List Char) : List Char :=
  replaceFinds (fun before cs =>
    (namedArgument before cs).map fun found => (found.1.1 ++ '=' :: found.1.2, found.2)) cs

/-- Whether what a marker stands for has `_MARKER_` in it: an earlier marker that is not replaced. -/
def Leaks (names : List String) (text : List Char) : Prop := ∃ m ∈ marksIn names text, placeholder <:+: m.2

lemma Stage.leaks_iff (h : Stage isSafe ts D) : placeholder <:+: spell (fill (standsFor D) ts) ↔
  ∃ m ∈ marksOf D, placeholder <:+: m.2 := by
  rw [placeholder_infix_spell h.clean]
  constructor
  · rintro ⟨l, hl⟩
    rcases exists_label_of_fill hl with ⟨l', hl', hl⟩
    have hmem := (h.known l' hl').mem
    refine ⟨_, mem_map_of_mem hmem, ?_⟩
    exact (placeholder_infix_spell (h.inner _ hmem).1).mpr ⟨l, hl⟩
  · rintro ⟨m, hm, hleak⟩
    rcases mem_map.mp hm with ⟨e, he, rfl⟩
    rcases (placeholder_infix_spell (h.inner e he).1).mp hleak with ⟨l, hl⟩
    exact h.leaks e he l hl

lemma Stage.bare (h : Stage isSafe ts D) (hleaks : ¬ ∃ m ∈ marksOf D, placeholder <:+: m.2) : Bare D := by
  intro e he l hl
  exact hleaks ⟨_, mem_map_of_mem he, (placeholder_infix_spell (h.inner e he).1).mpr ⟨l, hl⟩⟩

def Patch.tight (part : Patch (List Char × List Char)) : List Char :=
  (part.pieces fun a => a.1 ++ '=' :: a.2).flatMap (Piece.expand id)

structure Searched (names : List String) (text : List Char) (ts : List Token) (D : Legend)
  (d : List (Patch (List Char × List Char))) : Prop where
  faithful : Faithful isSafe text ts D
  source : d.flatMap Patch.source = ts
  found : ∀ f p a, .found f p a ∈ d → Argument D f p a
  marked : marked names text = spell ts
  tight : tighten (spell ts) = d.flatMap Patch.tight
  stage : Stage isSafe (labelled .argument 0 d) (D ++ entriesOf .argument 0 d)
  marks : marksIn names text = marksOf (D ++ entriesOf .argument 0 d)
  filled : fill (standsFor (D ++ entriesOf .argument 0 d)) (labelled .argument 0 d) =
    d.flatMap (Patch.shown (standsFor D))
  shown : unmarked names text = spell (d.flatMap (Patch.shown (standsFor D)))

lemma marked_eq {ts₁ : List Token} {N : Legend}
  (hvariables : markVariables text = (spell ts₁, marksOf D))
  (hmarked : markKeyword names (spell ts₁) = (spell ts, marksOf N)) :
  marked names text = spell ts ∧ marksBefore names text = marksOf (D ++ N) := by
  rw [marked, marksBefore, hvariables, hmarked, marksOf_append]
  exact ⟨rfl, rfl⟩

lemma exists_searched (names : List String) (htext : Safe text) (hclean : ¬ placeholder <:+: text) :
  ∃ ts D d, Searched names text ts D d := by
  rcases exists_references htext hclean with ⟨ts₁, D₁, h₁, hkeys, -, -, hvariables⟩
  rcases h₁.keyword (fun e he => (hkeys e he).1) names with ⟨ts, N, h, hkeyword, -, hmarked⟩
  rcases h.toStage.arguments with ⟨d, hsource, hfound, hscan⟩
  rcases marked_eq hvariables hmarked with ⟨htext', hbefore⟩
  have hfresh : ∀ l, Keyed (D₁ ++ N) l → l.family = .argument → l.number < 0 := by
    rintro l ⟨p, hp⟩ hfamily
    rcases mem_append.mp hp with hp | hp
    · rw [(hkeys _ hp).1] at hfamily
      cases hfamily
    · rw [hkeyword _ hp] at hfamily
      cases hfamily
  rcases h.toStage.step hsource hfresh fun f p a hf =>
    (hfound f p a hf).swap h.toStage (subset_of_mem hsource hf) with ⟨hstage, hfilled⟩
  have hspan : ∀ f p a, .found f p a ∈ d → id (argumentSpan (marksOf (D₁ ++ N)) a) = spell p := by
    intro f p a hf
    cases hfound f p a hf with
    | intro N W V gap gap' hne hword hvalue hshown =>
      rw [spell_append, spell_wrap, spell_cons, id, argumentSpan, hshown]
      rfl
  have harguments := markPieces_pieces .argument (h := id) 0 hspan
  rw [← hscan, map_id] at harguments
  have hmarks : markArguments (marksOf (D₁ ++ N)) (spell ts) =
      (spell (labelled .argument 0 d), marksOf (entriesOf .argument 0 d)) :=
    Prod.ext harguments.1 harguments.2
  have hall : marksIn names text = marksOf (D₁ ++ N ++ entriesOf .argument 0 d) := by
    rw [marksIn, htext', hbefore, hmarks, ← marksOf_append]
  refine ⟨ts, D₁ ++ N, d, h, hsource, hfound, htext', ?_, hstage, hall, hfilled, ?_⟩
  · rw [tighten, replaceFinds, show scan _ (spell ts) = _ from hscan fun a => a.1 ++ '=' :: a.2,
      flatMap_assoc]
    rfl
  · rw [unmarked, htext', hbefore, hmarks, hall, unmark_spell hstage.ordered hstage.clean, hfilled]

lemma unmarked_leaks (names : List String) (htext : Safe text) (hclean : ¬ placeholder <:+: text) :
  placeholder <:+: unmarked names text ↔ Leaks names text := by
  rcases exists_searched names htext hclean with ⟨ts, D, d, h⟩
  rw [Leaks, h.marks, h.shown, ← h.filled]
  exact h.stage.leaks_iff

lemma unmarked_erased (htext : Safe text) (hclean : ¬ placeholder <:+: text)
  (hleaks : ¬ Leaks names text) :
  (withoutTags (unmarked names text) = text ↔ tighten (marked names text) = marked names text) ∧
    ' ' :: withoutTags (unmarked names text) ≠ text := by
  rcases exists_searched names htext hclean with ⟨ts, D, d, h⟩
  rw [Leaks, h.marks] at hleaks
  have hbare := h.stage.bare hleaks
  have hsub : ∀ part ∈ d, part.source ⊆ ts := fun part => subset_of_mem h.source
  have hparts := h.faithful.toStage.erased_parts h.source fun f p a hf =>
    (h.found f p a hf).swap h.faithful.toStage (hsub _ hf)
  rw [h.faithful.faithful fun e he => hbare e (mem_append_left _ he)] at hparts
  -- A part stays as it is, or loses blanks after its first letter.
  have hpart : ∀ part ∈ d, (withoutTags (spell (part.shown (standsFor D))) =
          withoutTags (spell (fill (standsFor D) part.source)) ∧ part.tight = spell part.source) ∨
        (withoutTags (spell (part.shown (standsFor D)))).length <
            (withoutTags (spell (fill (standsFor D) part.source))).length ∧
          part.tight.length < (spell part.source).length ∧
          ∃ c y z, c ≠ ' ' ∧ withoutTags (spell (part.shown (standsFor D))) = c :: y ∧
            withoutTags (spell (fill (standsFor D) part.source)) = c :: z := by
    intro part hmem
    cases part with
    | kept t =>
      refine .inl ⟨by rw [source, fill, flatMap_singleton, Patch.shown], ?_⟩
      rw [Patch.tight, Patch.pieces, flatMap_map, source, spell_singleton]
      exact flatMap_singleton' _
    | found f p a =>
      rcases mem_entriesOf.mpr ⟨f, a, hmem⟩ with ⟨l, hl⟩
      rcases (h.found f p a hmem).erased h.faithful.toStage (hsub _ hmem)
        (hbare _ (mem_append_right _ hl))
        with ⟨n, gap, gap', v, w, hne, hword, hafter, hbefore, htight, hsource⟩
      have htight : (Patch.found f p a).tight = n ++ '=' :: w := by
        rw [← htight]
        exact append_nil _
      rw [Patch.shown, source, hafter, hbefore, htight, hsource]
      by_cases hgaps : gap = [] ∧ gap' = []
      · exact .inl (by rw [hgaps.1, hgaps.2]; exact ⟨rfl, rfl⟩)
      · have hlength : 0 < gap.length + gap'.length := by
          by_contra hzero
          exact hgaps ⟨length_eq_zero_iff.mp (by omega), length_eq_zero_iff.mp (by omega)⟩
        rcases exists_cons_of_ne_nil hne with ⟨c, n, rfl⟩
        refine .inr ⟨?_, ?_, c, _, _, ?_, rfl, rfl⟩
        · simp only [length_append, length_cons]
          omega
        · simp only [length_append, length_cons]
          omega
        · rintro rfl
          cases hword ' ' mem_cons_self
  have hsource : spell ts = d.flatMap fun part => spell part.source :=
    (congrArg spell h.source).symm.trans (spell_flatMap d _)
  rw [h.marked, h.tight, h.shown, hparts.2, hparts.1, hsource, flatMap_eq_iff, flatMap_eq_iff]
  · refine ⟨forall₂_congr fun part hmem => ?_, cons_flatMap_ne fun part hmem => ?_⟩
    · rcases hpart part hmem with hsame | ⟨hless, hless', -⟩
      · exact iff_of_true hsame.1 hsame.2
      · exact iff_of_false (fun heq => hless.ne (congrArg _ heq)) fun heq => hless'.ne (congrArg _ heq)
    · exact (hpart part hmem).imp And.left fun hless => hless.2.2
  · exact fun part hmem => (hpart part hmem).imp And.right fun hless => hless.2.1
  · exact fun part hmem => (hpart part hmem).imp And.left And.left

end KeywordDocs.Highlight
