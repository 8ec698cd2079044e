import KeywordDocs.Proofs.Page.Sections
import KeywordDocs.Proofs.Page.Unescaping

/-!
# Signatures as They Are Written

The name of a keyword, its parameters with types, defaults and allowed values, and what it returns come from
programs and are written into its section as they are, without escaping.
-/

namespace KeywordDocs.Page

open Text Markup
open List hiding replace

variable {s : String}

/-- The characters that have a meaning in markup. -/
def specials : List Char :=
  ['&', '<', '>', '"', '\'']

lemma escape_eq_self (h : ∀ c ∈ s.toList, c ∉ specials) : escape s = s := by
  rw [escape, replaceAll_eq_self, String.ofList_toList]
  intro e he hmem
  exact h _ hmem ((by decide : ∀ e ∈ entities, e.1 ∈ specials) e he)

lemma length_written (c : Char) :
  1 ≤ (written entities c).length ∧ ((written entities c).length = 1 → c ∉ specials) := by
  by_cases hc : c ∈ specials
  · have hlong : ∀ c ∈ specials, 1 < (written entities c).length := by decide
    have := hlong c hc
    exact ⟨by omega, by omega⟩
  · have hkey : c ∉ entities.map Prod.fst := hc
    rw [written_of_not_key hkey]
    exact ⟨Nat.le_refl 1, fun _ => hc⟩

lemma length_escape (s : String) : s.length ≤ (escape s).length ∧
  ((escape s).length = s.length → ∀ c ∈ s.toList, c ∉ specials) := by
  rw [← String.length_toList, ← String.length_toList, escape_toList]
  induction s.toList with
  | nil => exact ⟨Nat.le_refl 0, fun _ _ hc => absurd hc not_mem_nil⟩
  | cons c cs ih =>
    rw [flatMap_cons, length_append, length_cons, forall_mem_cons]
    have hfirst := length_written c
    exact ⟨by omega, fun h => ⟨hfirst.2 (by omega), ih.2 (by omega)⟩⟩

variable {f : String → String} {t l l' : String} {ts ts' a a' b b' : List String}

variable (f)

def ShownMember.map (m : ShownMember) : ShownMember := ⟨f m.name, f m.value, m.isText⟩

def ShownParameter.map (p : ShownParameter) : ShownParameter :=
  ⟨f p.name, f p.type, p.default.map f, p.members.map fun ms => ms.map (ShownMember.map f)⟩

/-- What is shown of a keyword, with every text rewritten. -/
def ShownKeyword.map (s : ShownKeyword) : ShownKeyword :=
  ⟨f s.name, s.parameters.map (ShownParameter.map f), s.returns.map f⟩

def extent (ls : List String) : Nat := (ls.map fun l => l.length + 1).sum

def weight (ts : List String) : Nat := (ts.map String.length).sum

/-- Lines grow by as much as the texts that they show. -/
def Grows (ts a b : List String) : Prop := extent b + weight ts = extent a + weight (ts.map f)

variable {f}

lemma Grows.nil : Grows f [] [] [] := rfl

lemma Grows.line (h : l'.length + t.length = l.length + (f t).length) (hrest : Grows f ts a b) :
  Grows f (t :: ts) (l :: a) (l' :: b) := by
  simp only [Grows, extent, weight, map_cons, sum_cons] at hrest ⊢
  omega

lemma Grows.filled {front back : String} (hrest : Grows f ts a b) :
  Grows f (t :: ts) ((front ++ t ++ back) :: a) ((front ++ f t ++ back) :: b) :=
  .line (by simp only [String.length_append]; omega) hrest

lemma Grows.fixed (hrest : Grows f ts a b) : Grows f ts (l :: a) (l :: b) := by
  simp only [Grows, extent, map_cons, sum_cons] at hrest ⊢
  omega

lemma Grows.append (h : Grows f ts a b) (h' : Grows f ts' a' b') :
  Grows f (ts ++ ts') (a ++ a') (b ++ b') := by
  simp only [Grows, extent, weight, map_append, sum_append] at h h' ⊢
  omega

lemma Grows.ended (h : Grows f ts a b) : Grows f ts (a ++ a') (b ++ a') := by
  simp only [Grows, extent, map_append, sum_append] at h ⊢
  omega

lemma Grows.flatMap {α : Type} {g texts : α → List String} {r : α → α}
  (h : ∀ x, Grows f (texts x) (g x) (g (r x))) (xs : List α) :
  Grows f (xs.flatMap texts) (xs.flatMap g) ((xs.map r).flatMap g) := by
  induction xs with
  | nil => exact .nil
  | cons x xs ih =>
    rw [flatMap_cons, flatMap_cons, map_cons, flatMap_cons]
    exact (h x).append ih

variable (f)

lemma memberLines_grows (m : ShownMember) : Grows f m.texts (memberLines m) (memberLines (m.map f)) := by
  refine .fixed <| .filled <| .fixed <| .line ?_ <| .fixed .nil
  cases hm : m.isText <;> simp [ShownMember.map, hm] <;> omega

lemma enumLines_grows (ms : List ShownMember) :
  Grows f (ms.flatMap ShownMember.texts) (enumLines ms) (enumLines (ms.map (ShownMember.map f))) := by
  rw [enumLines, enumLines, length_map]
  exact .ended <| .fixed <| .fixed <| .fixed <| .fixed <| .fixed <| .fixed <|
    .flatMap (memberLines_grows f) ms

lemma argumentLines_grows (p : ShownParameter) :
  Grows f p.texts (argumentLines p) (argumentLines (p.map f)) := by
  have hdefault : Grows f p.default.toList (defaultLines p.default) (defaultLines (p.map f).default) := by
    rw [ShownParameter.map]
    cases p.default with
    | none => exact .nil
    | some s => exact .filled .nil
  have hmembers : Grows f ((p.members.getD []).flatMap ShownMember.texts)
      ((p.members.map enumLines).getD []) (((p.map f).members.map enumLines).getD []) := by
    rw [ShownParameter.map]
    cases p.members with
    | none => exact .nil
    | some ms => exact enumLines_grows f ms
  rw [argumentLines, argumentLines]
  refine .ended (.append (.ended (.append ?_ hdefault)) hmembers)
  exact .fixed <| .fixed <| .filled <| .fixed <| .filled .nil

lemma argumentsLines_grows (ps : List ShownParameter) :
  Grows f (ps.flatMap ShownParameter.texts) (argumentsLines ps)
    (argumentsLines (ps.map (ShownParameter.map f))) := by
  rw [argumentsLines, argumentsLines, isEmpty_map]
  split
  case isTrue hempty =>
    rw [List.isEmpty_iff.mp hempty]
    exact .nil
  case isFalse => exact .ended <| .fixed <| .fixed <| .fixed <| .flatMap (argumentLines_grows f) ps

lemma overviewLines_grows (s : ShownKeyword) :
  Grows f (s.parameters.flatMap ShownParameter.texts ++ s.returns.toList) (overviewLines s)
    (overviewLines (s.map f)) := by
  have hreturns : Grows f s.returns.toList ((s.returns.map returnLines).getD [])
      (((s.map f).returns.map returnLines).getD []) := by
    rw [ShownKeyword.map]
    cases s.returns with
    | none => exact .nil
    | some type => exact .fixed <| .fixed <| .filled <| .fixed .nil
  have hsame : ((s.map f).parameters.isEmpty && (s.map f).returns.isNone) =
      (s.parameters.isEmpty && s.returns.isNone) := by
    rw [ShownKeyword.map, isEmpty_map, Option.isNone_map]
  rw [overviewLines, overviewLines, hsame]
  split
  case isTrue hempty =>
    rw [Bool.and_eq_true, List.isEmpty_iff, Option.isNone_iff_eq_none] at hempty
    rw [hempty.1, hempty.2]
    exact .fixed .nil
  case isFalse => exact .ended (.append (.fixed (argumentsLines_grows f s.parameters)) hreturns)

lemma sectionLines_grows (id : String) (s : ShownKeyword) (docs : List String) :
  Grows f s.texts (sectionLines id s docs) (sectionLines id (s.map f) docs) :=
  .fixed <| .ended <| .ended <| .ended <| .fixed <| .filled <| .fixed <| .fixed <| overviewLines_grows f s

variable {f}

lemma weight_eq_of_sections {id : String} {s : ShownKeyword} {docs : List String}
  (h : unlines (sectionLines id s docs) = unlines (sectionLines id (s.map f) docs)) :
  weight (s.texts.map f) = weight s.texts := by
  have hlength : ∀ line ls, (unlines (line :: ls)).length + 1 = extent (line :: ls) := by
    intro line ls
    rw [← String.length_toList, toList_unlines_cons, extent, map_cons, sum_cons]
    simp only [length_append, length_flatMap, length_cons, String.length_toList]
    omega
  have hgrows := sectionLines_grows f id s docs
  have hextent := congrArg (fun text => String.length text + 1) h
  simp only [sectionLines, cons_append, hlength] at hextent
  simp only [Grows, sectionLines, cons_append, hextent] at hgrows
  omega

lemma length_eq_of_weight_eq (h : weight (ts.map escape) = weight ts) :
  ∀ t ∈ ts, (escape t).length = t.length := by
  have hle : ∀ ts, weight ts ≤ weight (ts.map escape) := by
    intro ts
    induction ts with
    | nil => exact Nat.le_refl 0
    | cons t ts ih => exact Nat.add_le_add (length_escape t).1 ih
  -- No text is shorter after escaping, so none can make up for another that is longer.
  induction ts with
  | nil => exact fun _ ht => absurd ht not_mem_nil
  | cons t ts ih =>
    have hfirst := (length_escape t).1
    have hrest := hle ts
    simp only [weight, map_cons, sum_cons] at h hrest
    rw [forall_mem_cons]
    exact ⟨by omega, ih (by simp only [weight]; omega)⟩

variable {k : Keyword}

lemma ShownMember.map_eq_self {m : ShownMember} (h : ∀ t ∈ m.texts, f t = t) : m.map f = m := by
  rw [ShownMember.texts, forall_mem_cons, forall_mem_singleton] at h
  rw [ShownMember.map, h.1, h.2]

lemma ShownParameter.map_eq_self {p : ShownParameter} (h : ∀ t ∈ p.texts, f t = t) : p.map f = p := by
  simp only [ShownParameter.texts, forall_mem_append, forall_mem_cons, mem_flatMap] at h
  have hdefault : p.default.map f = p.default := by
    cases hd : p.default with
    | none => rfl
    | some s => rw [Option.map_some, h.1.2 s (by rw [hd]; exact mem_cons_self)]
  have hmembers : (p.members.map fun ms => ms.map (ShownMember.map f)) = p.members := by
    cases hm : p.members with
    | none => rfl
    | some ms =>
      have hsame : ∀ m ∈ ms, m.map f = m := fun m hmem =>
        m.map_eq_self fun t ht => h.2 t ⟨m, by rw [hm]; exact hmem, ht⟩
      rw [Option.map_some, map_congr_left hsame, map_id']
  rw [ShownParameter.map, h.1.1.1, h.1.1.2.1, hdefault, hmembers]

lemma ShownKeyword.map_eq_self {s : ShownKeyword} (h : ∀ t ∈ s.texts, f t = t) : s.map f = s := by
  simp only [ShownKeyword.texts, cons_append, forall_mem_append, forall_mem_cons, mem_flatMap] at h
  have hparameters : ∀ p ∈ s.parameters, p.map f = p := fun p hp =>
    p.map_eq_self fun t ht => h.2.1 t ⟨p, hp, ht⟩
  have hreturns : s.returns.map f = s.returns := by
    cases hr : s.returns with
    | none => rfl
    | some type => rw [Option.map_some, h.2.2 type (by rw [hr]; exact mem_cons_self)]
  rw [ShownKeyword.map, h.1, map_congr_left hparameters, map_id', hreturns]

/-- The section of a keyword with everything escaped that is shown besides the documentation. -/
def escapedSection (k : Keyword) : Except Fault String := do
  let s ← shownKeyword k
  return unlines (sectionLines (keywordId s.name) (s.map escape) (docLines k))

/-- What a section shows besides the documentation is escaped exactly if there is nothing to escape. -/
theorem keywordSection_eq_escaped_iff (k : Keyword) : keywordSection k = escapedSection k ↔
  ∀ s, shownKeyword k = .ok s → ∀ t ∈ s.texts, ∀ c ∈ t.toList, c ∉ specials := by
  rw [keywordSection, escapedSection]
  cases hshown : shownKeyword k with
  | error e =>
    have hfails : ∀ g : ShownKeyword → Except Fault String, .error e >>= g = .error e := fun _ => rfl
    rw [hfails, hfails]
    exact ⟨fun _ _ h => (nomatch h), fun _ => rfl⟩
  | ok s =>
    have hgoes : ∀ g : ShownKeyword → Except Fault String, .ok s >>= g = g s := fun _ => rfl
    rw [hgoes, hgoes]
    constructor
    · intro h s' hs'
      cases hs'
      have hweight := weight_eq_of_sections (Except.ok.inj h)
      exact fun t ht => (length_escape t).2 (length_eq_of_weight_eq hweight t ht)
    · intro h
      rw [s.map_eq_self fun t ht => escape_eq_self (h s rfl t ht)]

end KeywordDocs.Page
