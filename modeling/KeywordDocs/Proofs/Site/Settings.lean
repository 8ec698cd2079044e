import KeywordDocs.Page.Html
import KeywordDocs.Site.Settings
import Mathlib.Data.List.Basic
import Mathlib.Data.List.Nodup

/-!
# The Settings in Force

The settings of a library are merged in three passes over three sources. For one key that is the library's own
value if there is one, else the common one, else the site's (`member?_mergedMembers`).
-/

namespace KeywordDocs

namespace Json

variable {key : String} {members : List (String × Json)}

/-- Members of which no two have one key. -/
def Keyed (members : List (String × Json)) : Prop := (members.map Prod.fst).Nodup

instance (members : List (String × Json)) : Decidable (Keyed members) :=
  inferInstanceAs (Decidable (List.Nodup _))

@[simp]
lemma member?_nil (key : String) : member? key [] = none := rfl

lemma member?_cons (key : String) (m : String × Json) (members : List (String × Json)) :
  member? key (m :: members) = if key = m.1 then some m.2 else member? key members := by
  by_cases hkey : key = m.1
  · rw [if_pos hkey, member?, List.lookup_cons, beq_iff_eq.mpr hkey]
  · rw [if_neg hkey, member?, List.lookup_cons, beq_false_of_ne hkey]
    rfl

lemma member?_setMember (key k : String) (v : Json) (members : List (String × Json)) :
  member? key (setMember k v members) = if key = k then some v else member? key members := by
  induction members with
  | nil => rw [setMember, member?_cons]
  | cons m members ih =>
    rcases m with ⟨k', old⟩
    rw [setMember]
    by_cases hk : k' = k
    · -- The member is there already and gets another value.
      subst hk
      rw [if_pos rfl, member?_cons, member?_cons]
      by_cases hkey : key = k'
      · rw [if_pos hkey, if_pos hkey]
      · rw [if_neg hkey, if_neg hkey, if_neg hkey]
    · rw [if_neg hk, member?_cons, member?_cons, ih]
      by_cases hkey : key = k'
      · rw [if_pos hkey, if_neg fun h => hk (hkey.symm.trans h), if_pos hkey]
      · rw [if_neg hkey, if_neg hkey]

lemma member?_eq_none_iff : member? key members = none ↔ key ∉ members.map Prod.fst := by
  induction members with
  | nil => simp
  | cons m members ih =>
    rw [member?_cons, List.map_cons, List.mem_cons]
    by_cases hkey : key = m.1
    · simp [hkey]
    · simp [hkey, ih]

lemma member?_filter {keep : String × Json → Bool} (h : ∀ v, keep (key, v)) :
  member? key (members.filter keep) = member? key members := by
  induction members with
  | nil => rfl
  | cons m members ih =>
    rcases m with ⟨k, v⟩
    by_cases hkeep : keep (k, v)
    · rw [List.filter_cons_of_pos hkeep, member?_cons, member?_cons, ih]
    · have hkey : key ≠ k := by
        intro hsame
        subst hsame
        exact hkeep (h v)
      rw [List.filter_cons_of_neg hkeep, member?_cons, if_neg hkey, ih]

lemma member?_or_filter (key : String) (members : List (String × Json))
  (keep : String × Json → Bool) :
  (member? key members).or (member? key (members.filter keep)) = member? key members := by
  cases hmember : member? key members with
  | some v => rfl
  | none =>
    rw [Option.none_or]
    rw [member?_eq_none_iff] at hmember ⊢
    exact fun hmem => hmember ((List.filter_sublist.map Prod.fst).subset hmem)

lemma Keyed.tail {m : String × Json} (h : Keyed (m :: members)) : Keyed members := (List.nodup_cons.mp h).2

lemma Keyed.filter (h : Keyed members) (keep : String × Json → Bool) :
  Keyed (members.filter keep) :=
  h.sublist (List.filter_sublist.map Prod.fst)

end Json

namespace Site

open Json

variable {key : String} {v : Json} {common own top site base : List (String × Json)}

lemma member?_overlay (h : Keyed top) (base : List (String × Json)) (key : String) :
  member? key (overlay base top) = (member? key top).or (member? key base) := by
  induction top generalizing base with
  | nil => rfl
  | cons m top ih =>
    have hrest := ih h.tail (setMember m.1 m.2 base)
    rw [overlay, List.foldl_cons, ← overlay, hrest, member?_setMember, member?_cons]
    by_cases hkey : key = m.1
    · -- No later member has the key, so the value that is set first stays.
      have hnone : member? key top = none := member?_eq_none_iff.mpr (hkey ▸ (List.nodup_cons.mp h).1)
      rw [if_pos hkey, if_pos hkey, hnone]
      rfl
    · rw [if_neg hkey, if_neg hkey]

def fillKey (site members : List (String × Json)) (field : String) : List (String × Json) :=
  match member? field site, member? field members with
  | some v, none => setMember field v members
  | _, _ => members

lemma fillFrom_eq (site base : List (String × Json)) :
  fillFrom site base = siteFields.foldl (fillKey site) base := rfl

lemma member?_fillKey (site members : List (String × Json)) (field key : String) :
  member? key (fillKey site members field) =
    (member? key members).or (if key = field then member? key site else none) := by
  unfold fillKey
  by_cases hkey : key = field
  · subst hkey
    cases hsite : member? key site with
    | none => cases member? key members <;> simp
    | some v =>
      cases hmembers : member? key members with
      | none => simp [member?_setMember]
      | some w => simp [hmembers]
  · rw [if_neg hkey, Option.or_none]
    split
    · rw [member?_setMember, if_neg hkey]
    · rfl

lemma member?_fillFrom (site base : List (String × Json)) (key : String) :
  member? key (fillFrom site base) =
    (member? key base).or (if key ∈ siteFields then member? key site else none) := by
  have hfold : ∀ (fields : List String) (members : List (String × Json)),
      member? key (fields.foldl (fillKey site) members) =
        (member? key members).or (if key ∈ fields then member? key site else none) := by
    intro fields
    induction fields with
    | nil =>
      intro members
      simp
    | cons field fields ih =>
      intro members
      rw [List.foldl_cons, ih, member?_fillKey, Option.or_assoc]
      congr 1
      by_cases hfield : key = field
      · -- What the first of the fields does not fill the others do not fill either.
        by_cases hlater : key ∈ fields
        · rw [if_pos hfield, if_pos hlater, if_pos (List.mem_cons_of_mem _ hlater), Option.or_self]
        · rw [if_pos hfield, if_neg hlater, if_pos (hfield ▸ List.mem_cons_self), Option.or_none]
      · rw [if_neg hfield, Option.none_or]
        simp only [List.mem_cons, hfield, false_or]
  rw [fillFrom_eq, hfold]

/-- What the description of the site says about a key that libraries take from it. -/
def siteValue (common : List (String × Json)) (key : String) : Option Json :=
  match member? "site" common with
  | some (.obj site) => if key ∈ siteFields then member? key site else none
  | _ => none

/-- What the common settings and the site say about a key: the settings in force for a library that
does not have the key. -/
def inherited (common : List (String × Json)) (key : String) : Option Json :=
  (member? key common).or (siteValue common key)

def filled (common own : List (String × Json)) : List (String × Json) :=
  match member? "site" common with
  | some (.obj site) => fillFrom site (overlay common (own.filter fun m => m.2.isTruthy))
  | _ => overlay common (own.filter fun m => m.2.isTruthy)

lemma mergedMembers_eq (common own : List (String × Json)) : mergedMembers common own =
    if own.isEmpty then filled common own
    else match member? "site" common with
      | some site => setMember "site" site (overlay (filled common own) own)
      | none => overlay (filled common own) own := rfl

lemma member?_filled (h : Keyed own) (common : List (String × Json)) (key : String) :
  member? key (filled common own) =
    (member? key (own.filter fun m => m.2.isTruthy)).or (inherited common key) := by
  have hgiven := member?_overlay (h.filter fun m => m.2.isTruthy) common key
  unfold filled inherited siteValue
  split
  · rw [member?_fillFrom, hgiven, Option.or_assoc]
  · rw [hgiven, Option.or_none]

lemma site_not_mem_siteFields : "site" ∉ siteFields := by decide

lemma site_mergedMembers (h : Keyed own) (common : List (String × Json)) :
  member? "site" (mergedMembers common own) =
    (member? "site" common).or (member? "site" own) := by
  have hvalue : siteValue common "site" = none := by
    unfold siteValue
    split
    · rw [if_neg site_not_mem_siteFields]
    · rfl
  rw [mergedMembers_eq]
  cases hown : own with
  | nil =>
    have hkeyed : Keyed [] := List.nodup_nil
    rw [List.isEmpty_nil, if_pos rfl, member?_filled hkeyed, inherited, hvalue]
    rfl
  | cons m rest =>
    rw [List.isEmpty_cons, if_neg Bool.false_ne_true, ← hown]
    cases hsite : member? "site" common with
    | some site =>
      dsimp only
      rw [member?_setMember, if_pos rfl]
      rfl
    | none =>
      dsimp only
      -- The values that are not empty are among the library's own.
      rw [member?_overlay h, member?_filled h, inherited, hvalue, hsite, Option.or_none,
        Option.none_or, Option.or_none, member?_or_filter]

lemma member?_mergedMembers (h : Keyed own) (common : List (String × Json)) (hkey : key ≠ "site") :
  member? key (mergedMembers common own) = (member? key own).or (inherited common key) := by
  have hlast : member? key (overlay (filled common own) own) =
      (member? key own).or (inherited common key) := by
    rw [member?_overlay h, member?_filled h, ← Option.or_assoc, member?_or_filter]
  rw [mergedMembers_eq]
  cases hown : own with
  | nil =>
    have hkeyed : Keyed [] := List.nodup_nil
    rw [List.isEmpty_nil, if_pos rfl, member?_filled hkeyed]
    rfl
  | cons m rest =>
    rw [List.isEmpty_cons, if_neg Bool.false_ne_true, ← hown]
    cases member? "site" common with
    | none => exact hlast
    | some site =>
      dsimp only
      rw [member?_setMember, if_neg hkey, hlast]

def without (key : String) (members : List (String × Json)) : List (String × Json) :=
  members.filter fun m => m.1 ≠ key

lemma member?_without (key : String) (members : List (String × Json)) :
  member? key (without key members) = none := by
  rw [member?_eq_none_iff]
  intro hmem
  rcases List.mem_map.mp hmem with ⟨m, hm, hsame⟩
  have hother := List.of_mem_filter hm
  exact absurd hsame (by simpa using hother)

lemma member?_without_of_ne {other : String} (h : other ≠ key) (members : List (String × Json)) :
  member? other (without key members) = member? other members :=
  member?_filter fun _ => decide_eq_true h

/-- What an empty setting of a library does: it is in force, whatever is inherited, so that nothing is
shown for it. Without it the inherited value would be in force. The two cases are the same only if
the inherited value is that empty one, and what is shown is the same only if the inherited value is
empty or missing. All other settings are the same in both cases. -/
theorem empty_setting_hides (common : List (String × Json)) (hown : Keyed own) (hkey : key ≠ "site")
  (hset : member? key own = some v) (hempty : v.isTruthy = false) :
  ∃ merged merged', mergedSettings (.obj common) own = .ok (.obj merged) ∧
    mergedSettings (.obj common) (without key own) = .ok (.obj merged') ∧
    member? key merged = some v ∧ member? key merged' = inherited common key ∧
    (member? key merged = member? key merged' ↔ inherited common key = some v) ∧
    Page.setting? (.obj merged) key = none ∧
    Page.setting? (.obj merged') key = (inherited common key).filter isTruthy ∧
    ∀ other, other ≠ key → member? other merged = member? other merged' := by
  have hrest : Keyed (without key own) := hown.filter _
  have hwith : member? key (mergedMembers common own) = some v := by
    rw [member?_mergedMembers hown common hkey, hset]
    rfl
  have hwithout : member? key (mergedMembers common (without key own)) = inherited common key := by
    rw [member?_mergedMembers hrest common hkey, member?_without]
    rfl
  refine ⟨_, _, rfl, rfl, hwith, hwithout, ?_, ?_, ?_, fun other hother => ?_⟩
  · rw [hwith, hwithout]
    exact eq_comm
  · rw [Page.setting?, field?, hwith, Option.filter_some, hempty, if_neg Bool.false_ne_true]
  · rw [Page.setting?, field?, hwithout]
  · by_cases hsite : other = "site"
    · subst hsite
      rw [site_mergedMembers hown, site_mergedMembers hrest, member?_without_of_ne hother]
    · rw [member?_mergedMembers hown common hsite, member?_mergedMembers hrest common hsite,
        member?_without_of_ne hother]

/-- The settings of a site with an author. -/
def signedSite : List (String × Json) := [("site", .obj [("author", .str "Team")])]

/-- A library whose author is left empty. -/
def unsigned : List (String × Json) := [("source", .str "a.py"), ("author", .str "")]

/-- The author of the site is not shown. -/
theorem empty_setting_hides_author : ∃ merged merged',
  mergedSettings (.obj signedSite) unsigned = .ok (.obj merged) ∧
  mergedSettings (.obj signedSite) (without "author" unsigned) = .ok (.obj merged') ∧
  Page.setting? (.obj merged) "author" = none ∧
  Page.setting? (.obj merged') "author" = some (.str "Team") := by
  have hset : member? "author" unsigned = some (.str "") := rfl
  rcases empty_setting_hides signedSite (by decide) (by decide) hset rfl with
    ⟨merged, merged', hmerged, hmerged', -, -, -, hshown, hshown', -⟩
  exact ⟨merged, merged', hmerged, hmerged', hshown, hshown'⟩

end Site

end KeywordDocs
