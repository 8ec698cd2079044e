import KeywordDocs.Proofs.Text.Rewriting
import KeywordDocs.Site.Navigation

/-!
# Where the Way Back Is Put

A page gets its link to the dashboard by insertion: one text is put in behind the first tag of some kind,
found in one of three ways, and every other character stays.
-/

namespace KeywordDocs.Site

open Text Markup List

variable {here? : List Char → Option Nat} {Tag : List Char → List Char → Prop}

/-- A page before and after `new` is put in directly behind the first tag. Tags are told by their
characters and by the text after them. A page without a tag is left unchanged. -/
inductive Inserted (Tag : List Char → List Char → Prop) (new : List Char) :
  List Char → List Char → Prop where
  | behind (front tag rest : List Char) (htag : Tag tag rest)
      (hfirst : ∀ front' tag' rest', front ++ (tag ++ rest) = front' ++ (tag' ++ rest') →
        Tag tag' rest' → front.length ≤ front'.length) :
      Inserted Tag new (front ++ (tag ++ rest)) (front ++ (tag ++ (new ++ rest)))
  | unchanged (page : List Char)
      (hnone : ∀ front tag rest, page = front ++ (tag ++ rest) → ¬ Tag tag rest) :
      Inserted Tag new page page

structure Recognises (here? : List Char → Option Nat) (Tag : List Char → List Char → Prop) :
  Prop where
  iff : ∀ cs n, here? cs = some n ↔ ∃ tag rest, cs = tag ++ rest ∧ tag.length = n ∧ Tag tag rest
  ne_nil : ∀ tag rest, Tag tag rest → tag ≠ []

lemma Inserted.cons {new page page' : List Char} (h : Inserted Tag new page page') {c : Char}
  (hnone : ∀ tag rest, c :: page = tag ++ rest → ¬ Tag tag rest) :
  Inserted Tag new (c :: page) (c :: page') := by
  cases h with
  | behind front tag rest htag hfirst =>
    refine .behind (c :: front) tag rest htag fun front' tag' rest' hsplit htag' => ?_
    cases front' with
    | nil => cases (hnone tag' rest' hsplit) htag'
    | cons d front' => exact Nat.succ_le_succ (hfirst front' tag' rest' (cons.inj hsplit).2 htag')
  | unchanged _ hrest =>
    refine .unchanged _ fun front tag rest hsplit => ?_
    cases front with
    | nil => exact hnone tag rest hsplit
    | cons d front => exact hrest front tag rest (cons.inj hsplit).2

lemma Inserted.ofList {new page page' : List Char} (h : Inserted Tag new page page') :
  Inserted Tag new page (String.ofList page').toList := by
  rwa [String.toList_ofList]

lemma insertAfter_cons {c : Char} {cs : List Char} (h : here? (c :: cs) = none) (new : List Char) :
  insertAfter here? new (c :: cs) = c :: insertAfter here? new cs := by
  rw [insertAfter, insertAfter, splitAround, h]
  cases splitAround here? cs <;> rfl

lemma Recognises.inserted (h : Recognises here? Tag) (new page : List Char) :
  Inserted Tag new page (insertAfter here? new page) := by
  induction page with
  | nil =>
    refine .unchanged [] fun front tag rest hsplit htag => h.ne_nil tag rest htag ?_
    exact (append_eq_nil_iff.mp (append_eq_nil_iff.mp hsplit.symm).2).1
  | cons c page ih =>
    cases hfind : here? (c :: page) with
    | none =>
      rw [insertAfter_cons hfind]
      refine ih.cons fun tag rest hsplit htag => ?_
      have hsome := (h.iff (c :: page) tag.length).mpr ⟨tag, rest, hsplit, rfl, htag⟩
      rw [hfind] at hsome
      cases hsome
    | some n =>
      rcases (h.iff (c :: page) n).mp hfind with ⟨tag, rest, hsplit, rfl, htag⟩
      rw [insertAfter, splitAround, hfind]
      dsimp only
      rw [hsplit, take_left, drop_left, nil_append, append_assoc]
      exact .behind [] tag rest htag fun _ _ _ _ _ => Nat.zero_le _

variable {cs rest : List Char} {n : Nat}

/-- Tags with any attributes; nothing but the bracket at the end closes them. -/
def IsTag (start : String) (tag : List Char) : Prop :=
  ∃ attributes, '>' ∉ attributes ∧ tag = start.toList ++ (attributes ++ ['>'])

lemma IsTag.ne_nil {start : String} {tag : List Char} (h : IsTag start tag) : tag ≠ [] := by
  rcases h with ⟨attributes, -, rfl⟩
  simp

lemma openTag?_eq_some_iff {start : String} : openTag? start.toList cs = some (rest, n) ↔
  ∃ tag, cs = tag ++ rest ∧ tag.length = n ∧ IsTag start tag := by
  constructor
  · intro h
    rcases Option.bind_eq_some_iff.mp h with ⟨inner, hstart, h⟩
    rcases hspan : inner.span (· ≠ '>') with ⟨attributes, _ | ⟨d, after⟩⟩
    · rw [hspan] at h
      cases h
    · rw [hspan] at h
      rcases span_ne_eq hspan with ⟨rfl, hattributes⟩
      injection h with h
      injection h with hrest hn
      subst hrest
      refine ⟨start.toList ++ (attributes ++ ['>']), ?_, ?_, attributes, hattributes, rfl⟩
      · rw [dropPrefix?_eq_some hstart]
        simp
      · rw [← hn]
        simp [Nat.add_assoc]
  · rintro ⟨tag, rfl, rfl, attributes, hattributes, rfl⟩
    have hinner : attributes ++ ['>'] ++ rest = attributes ++ '>' :: rest := by simp
    rw [openTag?, append_assoc, hinner, dropPrefix?_append]
    simp only [Option.bind_eq_bind, Option.bind_some]
    rw [span_ne_append_cons hattributes]
    simp [Nat.add_assoc]

lemma contains_iff {part s : String} : Text.contains part s ↔ part.toList <:+: s.toList := containsChars_iff

/-- An opening tag of navigation that is closed somewhere behind it. -/
def IsNavTag (tag rest : List Char) : Prop := IsTag "<nav" tag ∧ "</nav>".toList <:+: rest

lemma navOpening_recognises : Recognises navOpening IsNavTag where
  iff cs n := by
    rw [navOpening, Option.bind_eq_bind, Option.bind_eq_some_iff]
    constructor
    · rintro ⟨⟨rest, k⟩, htag, h⟩
      rcases openTag?_eq_some_iff.mp htag with ⟨tag, hsplit, hlength, htag⟩
      dsimp only at h
      split at h
      · rename_i hclosed
        exact ⟨tag, rest, hsplit, hlength.trans (Option.some.inj h), htag, containsChars_iff.mp hclosed⟩
      · cases h
    · rintro ⟨tag, rest, hsplit, hlength, htag, hclosed⟩
      refine ⟨(rest, n), openTag?_eq_some_iff.mpr ⟨tag, hsplit, hlength, htag⟩, ?_⟩
      exact if_pos (containsChars_iff.mpr hclosed)
  ne_nil _ _ h := h.1.ne_nil

lemma bodyOpening_recognises : Recognises bodyOpening fun tag _ => IsTag "<body" tag where
  iff cs n := by
    rw [bodyOpening, Option.map_eq_some_iff]
    constructor
    · rintro ⟨⟨rest, k⟩, htag, rfl⟩
      rcases openTag?_eq_some_iff.mp htag with ⟨tag, hsplit, hlength, htag⟩
      exact ⟨tag, rest, hsplit, hlength, htag⟩
    · rintro ⟨tag, rest, hsplit, hlength, htag⟩
      exact ⟨(rest, n), openTag?_eq_some_iff.mpr ⟨tag, hsplit, hlength, htag⟩, rfl⟩
  ne_nil _ _ h := h.ne_nil

lemma fixed_recognises (start : List Char) (n : Nat) (hne : start ≠ []) (hn : start.length = n) :
  Recognises (fun cs => if start.isPrefixOf cs then some n else none) fun tag _ => tag = start where
  iff cs m := by
    constructor
    · intro h
      split at h
      · rename_i hstart
        rcases isPrefixOf_iff_prefix.mp hstart with ⟨rest, hsplit⟩
        exact ⟨start, rest, hsplit.symm, hn.trans (Option.some.inj h), rfl⟩
      · cases h
    · rintro ⟨tag, rest, rfl, rfl, rfl⟩
      rw [if_pos (List.isPrefixOf_iff_prefix.mpr (prefix_append tag rest)), hn]
  ne_nil _ _ h := h ▸ hne

lemma readTemplate_literal {template : String} (groups : Nat) (h : '\\' ∉ template.toList) :
  Pattern.readTemplate groups template = .ok (template.toList.map .literal) := by
  rw [Pattern.readTemplate]
  generalize template.toList = cs at h
  induction cs with
  | nil => rfl
  | cons c cs ih =>
    rw [mem_cons, not_or] at h
    unfold Pattern.readTemplateFrom
    rw [if_pos (Ne.symm h.1), ih h.2]
    rfl

lemma expand_literal (groups : List (List Char)) (cs : List Char) :
  Pattern.expand groups (cs.map .literal) = cs := by
  rw [Pattern.expand, flatMap_map]
  exact flatMap_singleton' cs

lemma backslash_not_mem_navigationBar {url : String} (h : '\\' ∉ url.toList) :
  '\\' ∉ (navigationBar url).toList := by
  have hparts : ∀ a b : String, '\\' ∉ a.toList → '\\' ∉ b.toList → '\\' ∉ (a ++ url ++ b).toList := by
    intro a b ha hb
    simp [String.toList_append, ha, hb, h]
  exact hparts _ _ (by decide +kernel) (by decide +kernel)

/-- A text with one link in it, to this address: an element `a` and what stands around it. -/
def IsLink (url : String) (text : List Char) : Prop :=
  ∃ front attributes back : String, text = (front ++ "<a href=\"" ++ url ++
      ("\"" ++ attributes ++ ">← Back to Dashboard</a>" ++ back)).toList ∧
    ¬ "<a".toList <:+: front.toList ∧ '>' ∉ attributes.toList ∧ ¬ "<a".toList <:+: back.toList

lemma navigationLink_isLink (url : String) : IsLink url (navigationLink url).toList :=
  ⟨"", "", "", rfl, by decide, by decide, by decide⟩

lemma navigationBar_isLink (url : String) : IsLink url (navigationBar url).toList := by
  refine ⟨"<div class=\"dashboard-nav-container\" style=\"background: rgba(15,23,42,0.95); " ++
      "padding: 0.75rem 2rem; border-bottom: 1px solid var(--border);\">\n    ",
    " style=\"color: var(--accent); text-decoration: none; font-weight: 500;\"", "\n</div>",
    congrArg String.toList ?_, by decide +kernel, by decide +kernel, by decide +kernel⟩
  have hparts : ∀ {a a' b b' : String}, a = a' → b = b' → a ++ url ++ b = a' ++ url ++ b' := by
    rintro _ _ _ _ rfl rfl
    rfl
  exact hparts (by decide +kernel) (by decide +kernel)

/-- The page that comes of a page: a link behind the first opening tag of navigation if the page has a
header, otherwise one behind the body's tag, one without attributes if there is one. -/
inductive Navigated (url page page' : String) : Prop where
  | header (hheader : "<header".toList <:+: page.toList) {link : List Char} (hlink : IsLink url link)
      (h : Inserted IsNavTag link page.toList page'.toList)
  | body (hheader : ¬ "<header".toList <:+: page.toList) (hbody : "<body>".toList <:+: page.toList)
      {link : List Char} (hlink : IsLink url link)
      (h : Inserted (fun tag _ => tag = "<body>".toList) link page.toList page'.toList)
  | attributes (hheader : ¬ "<header".toList <:+: page.toList)
      (hbody : ¬ "<body>".toList <:+: page.toList) (hopen : "<body ".toList <:+: page.toList)
      {link : List Char} (hlink : IsLink url link)
      (h : Inserted (fun tag _ => IsTag "<body" tag) link page.toList page'.toList)
  | neither (hheader : ¬ "<header".toList <:+: page.toList)
      (hbody : ¬ "<body>".toList <:+: page.toList) (hopen : ¬ "<body ".toList <:+: page.toList)
      (h : page' = page)

/-- Navigation is put in as one text with a link at one place, and nothing else of the page changes. -/
theorem addNavigation_inserts (page url : String) (hurl : '\\' ∉ url.toList) :
  ∃ page', addNavigation page url = .ok page' ∧ Navigated url page page' := by
  rw [addNavigation]
  by_cases hheader : Text.contains "<header" page
  · rw [if_pos hheader]
    exact ⟨_, rfl, .header (contains_iff.mp hheader) (navigationLink_isLink url)
      (navOpening_recognises.inserted _ _).ofList⟩
  rw [if_neg hheader]
  rw [contains_iff] at hheader
  by_cases hbody : Text.contains "<body>" page
  · rw [if_pos hbody]
    refine ⟨_, rfl, .body hheader (contains_iff.mp hbody) (navigationBar_isLink url) ?_⟩
    exact ((fixed_recognises "<body>".toList 6 (by decide) (by decide)).inserted _ _).ofList
  rw [if_neg hbody]
  rw [contains_iff] at hbody
  by_cases hopen : Text.contains "<body " page
  · rw [if_pos hopen, readTemplate_literal 1 (backslash_not_mem_navigationBar hurl)]
    refine ⟨String.ofList (insertAfter bodyOpening (navigationBar url).toList page.toList), ?_,
      .attributes hheader hbody (contains_iff.mp hopen) (navigationBar_isLink url)
        (bodyOpening_recognises.inserted _ _).ofList⟩
    rw [insertAfter]
    cases splitAround bodyOpening page.toList with
    | none => simp
    | some found => simp [expand_literal]
  · rw [if_neg hopen]
    rw [contains_iff] at hopen
    exact ⟨page, rfl, .neither hheader hbody hopen rfl⟩

/-- A page without a header, whose body has attributes. -/
theorem addNavigation_inserts_attributes : '\\' ∉ "../index.html".toList ∧
  ∃ page', addNavigation "<html><body\nclass=\"a\" ><body ></html>" "../index.html" = .ok page' ∧
    Navigated "../index.html" "<html><body\nclass=\"a\" ><body ></html>" page' :=
  ⟨by decide, addNavigation_inserts _ _ (by decide)⟩

end KeywordDocs.Site
