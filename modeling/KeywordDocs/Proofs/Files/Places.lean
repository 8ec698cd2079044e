import KeywordDocs.Proofs.Files.Disk
import KeywordDocs.Proofs.Text.Lines

/-!
# Where Paths Lead

The place that a path leads to is that of its parts, step by step, from the root or from where relative paths
start (`Disk.leadsTo_toText`). So a plain name within a path leads one step on (`leadsTo_append`).
-/

namespace KeywordDocs.Files

open Text
open Path (ofText rootOf)
open String (toList_append empty_append)
open List hiding splitOn

variable {parts : List String} {s : String}

lemma splitFrom_singleton (sep : Char) (acc cs : List Char) :
  splitFrom [sep] 0 acc cs = (splitAtChar sep cs).modifyHead (acc.reverse ++ ·) := by
  induction cs generalizing acc with
  | nil => simp [splitFrom, splitAtChar]
  | cons c cs ih =>
    by_cases hc : c = sep
    · subst hc
      have hrest : splitFrom [c] 0 [] cs = splitAtChar c cs := by
        rw [ih]
        exact modifyHead_id ▸ rfl
      rw [splitFrom, if_pos (by simp), splitAtChar, if_pos rfl]
      show acc.reverse :: splitFrom [c] 0 [] cs = _
      rw [hrest]
      simp
    · rcases splitAtChar_cons_of_ne hc cs with ⟨first, rest, hsplit, hcons⟩
      rw [splitFrom, if_neg (by simpa using fun h => hc h.symm), ih, hcons, hsplit]
      simp

lemma splitOn_slash (s : String) : splitOn "/" s = (splitAtChar '/' s.toList).map String.ofList := by
  have hslash : "/".toList = ['/'] := by decide
  rw [splitOn, splitChars, hslash, splitFrom_singleton]
  cases hsplit : splitAtChar '/' s.toList <;> simp

lemma splitOn_slash_of_not_mem (h : '/' ∉ s.toList) : splitOn "/" s = [s] := by
  rw [splitOn_slash, splitAtChar_of_not_mem h, map_singleton, String.ofList_toList]

lemma splitOn_slash_append (a b : String) :
  splitOn "/" (a ++ "/" ++ b) = splitOn "/" a ++ splitOn "/" b := by
  have hslash : "/".toList = ['/'] := by decide
  rw [splitOn_slash, toList_append, toList_append, hslash, append_assoc,
    singleton_append, splitAtChar_append_cons, map_append, ← splitOn_slash, ← splitOn_slash]

lemma splitOn_join (h : ∀ part ∈ parts, '/' ∉ part.toList) :
  splitOn "/" (join "/" parts) = if parts = [] then [""] else parts := by
  induction parts with
  | nil => exact splitOn_slash_of_not_mem (by decide)
  | cons part parts ih =>
    rw [forall_mem_cons] at h
    rw [if_neg (cons_ne_nil _ _)]
    cases parts with
    | nil => exact splitOn_slash_of_not_mem h.1
    | cons next parts =>
      rw [join, splitOn_slash_append, splitOn_slash_of_not_mem h.1, ih h.2,
        if_neg (cons_ne_nil _ _), singleton_append]
      exact cons_ne_nil _ _

structure Path.Proper (p : Path) : Prop where
  root : p.root = "" ∨ p.root = "/" ∨ p.root = "//"
  slash : ∀ part ∈ p.parts, '/' ∉ part.toList
  filled : ∀ part ∈ p.parts, part ≠ ""

variable {p q : Path} {d : Disk}

lemma Path.ofText_proper (s : String) : (ofText s).Proper where
  root := by
    show rootOf s = "" ∨ rootOf s = "/" ∨ rootOf s = "//"
    unfold rootOf
    split
    · exact .inl rfl
    · split
      · exact .inr (.inr rfl)
      · exact .inr (.inl rfl)
  slash := by
    intro part hpart
    have hmem := mem_of_mem_filter hpart
    rw [splitOn_slash] at hmem
    rcases mem_map.mp hmem with ⟨cs, hcs, rfl⟩
    rw [String.toList_ofList]
    exact not_mem_splitAtChar hcs
  filled := by
    rintro part hpart rfl
    have hfilled := of_mem_filter hpart
    cases hfilled

lemma Path.Proper.append (hp : p.Proper) (hq : q.Proper) : (p.append q).Proper := by
  unfold Path.append
  split
  · exact hq
  · refine ⟨hp.root, fun part hpart => ?_, fun part hpart => ?_⟩
    · exact (mem_append.mp hpart).elim (hp.slash part) (hq.slash part)
    · exact (mem_append.mp hpart).elim (hp.filled part) (hq.filled part)

lemma startsWith_slash (s : String) : startsWith "/" s = (s.toList.head? == some '/') := by
  have hslash : "/".toList = ['/'] := by decide
  rw [startsWith, hslash]
  cases s.toList with
  | nil => rfl
  | cons c cs =>
    rw [isPrefixOf_cons_cons, isPrefixOf_nil_left, Bool.and_true, head?_cons, Option.some_beq_some]
    exact Bool.beq_comm

lemma startsWith_slash_append (s : String) : startsWith "/" ("/" ++ s) := by
  have hslash : "/".toList = ['/'] := by decide
  rw [startsWith_slash, toList_append, hslash]
  rfl

lemma startsWith_slash_join (hslash : ∀ part ∈ parts, '/' ∉ part.toList)
  (hfilled : ∀ part ∈ parts, part ≠ "") : startsWith "/" (join "/" parts) = false := by
  cases parts with
  | nil => decide
  | cons part parts =>
    rcases hhead : part.toList with _ | ⟨c, cs⟩
    · cases (hfilled part mem_cons_self) (String.toList_eq_nil_iff.mp hhead)
    · have hc : (some c == some '/') = false := by
        rw [beq_eq_false_iff_ne]
        rintro ⟨rfl⟩
        exact hslash part mem_cons_self (hhead ▸ mem_cons_self)
      rw [startsWith_slash, ← hc]
      cases parts with
      | nil => rw [join, hhead, head?_cons]
      | cons next parts =>
        rw [join, toList_append, toList_append, hhead, cons_append, cons_append, head?_cons]
        exact cons_ne_nil _ _

lemma foldl_step_splitOn_join (h : ∀ part ∈ parts, '/' ∉ part.toList) (start : Place) :
  (splitOn "/" (join "/" parts)).foldl Disk.step start = parts.foldl Disk.step start := by
  rw [splitOn_join h]
  split
  case isTrue hnil =>
    rw [hnil]
    rfl
  case isFalse => rfl

lemma splitOn_slash_cons (s : String) : splitOn "/" ("/" ++ s) = "" :: splitOn "/" s := by
  have hempty : "/" ++ s = "" ++ "/" ++ s := by rw [empty_append]
  rw [hempty, splitOn_slash_append, splitOn_slash_of_not_mem (by decide)]
  rfl

lemma foldl_step_splitOn_slash (s : String) (start : Place) :
  (splitOn "/" ("/" ++ s)).foldl Disk.step start = (splitOn "/" s).foldl Disk.step start := by
  rw [splitOn_slash_cons]
  rfl

lemma isEmpty_slash_append (s : String) : ("/" ++ s).isEmpty = false := by
  rw [Bool.eq_false_iff, ne_eq, String.isEmpty_iff, String.append_eq_empty_iff]
  exact fun h => absurd h.1 (by decide)

lemma Disk.leadsTo_toText (hp : p.Proper) :
  d.leadsTo p.toText = p.parts.foldl Disk.step (if p.root = "" then d.home else []) := by
  have hjoin := foldl_step_splitOn_join hp.slash
  rcases hp.root with hroot | hroot | hroot
  · rw [Path.toText, hroot, empty_append, if_pos rfl]
    split
    case isTrue hempty =>
      have hdot : d.leadsTo "." = d.home := by
        rw [leadsTo, splitOn_slash_of_not_mem (by decide)]
        rfl
      rw [hdot, ← hjoin, String.isEmpty_iff.mp hempty, splitOn_slash_of_not_mem (by decide)]
      rfl
    case isFalse => rw [leadsTo, startsWith_slash_join hp.slash hp.filled, hjoin, if_neg Bool.false_ne_true]
  · rw [Path.toText, hroot, isEmpty_slash_append, if_neg Bool.false_ne_true, leadsTo,
      startsWith_slash_append, if_pos rfl, foldl_step_splitOn_slash, hjoin, if_neg (by decide)]
  · have htwo : "//" ++ join "/" p.parts = "/" ++ ("/" ++ join "/" p.parts) := by
      rw [← String.append_assoc]
      rfl
    rw [Path.toText, hroot, htwo, isEmpty_slash_append, if_neg Bool.false_ne_true, leadsTo,
      startsWith_slash_append, if_pos rfl, foldl_step_splitOn_slash, foldl_step_splitOn_slash, hjoin,
      if_neg (by decide)]

structure Path.Normal (p : Path) : Prop extends Path.Proper p where
  dots : ∀ part ∈ p.parts, part ≠ "."

lemma Path.ofText_normal (s : String) : (ofText s).Normal where
  toProper := Path.ofText_proper s
  dots := by
    rintro part hpart rfl
    have hcounts := of_mem_filter hpart
    rw [Bool.and_eq_true] at hcounts
    cases (of_decide_eq_true hcounts.2) rfl

lemma Path.Normal.append (hp : p.Normal) (hq : q.Normal) : (p.append q).Normal := by
  refine ⟨hp.toProper.append hq.toProper, ?_⟩
  unfold Path.append
  split
  · exact hq.dots
  · exact fun part hpart => (mem_append.mp hpart).elim (hp.dots part) (hq.dots part)

lemma Path.Normal.of_subset {root : String} {parts : List String} (hp : p.Normal)
  (hroot : root = "" ∨ root = "/" ∨ root = "//") (hparts : parts ⊆ p.parts) :
  Path.Normal ⟨root, parts⟩ where
  root := hroot
  slash := fun part hpart => hp.slash part (hparts hpart)
  filled := fun part hpart => hp.filled part (hparts hpart)
  dots := fun part hpart => hp.dots part (hparts hpart)

lemma Path.Normal.filter_splitOn (hp : p.Normal) :
  ((splitOn "/" (join "/" p.parts)).filter fun part => !part.isEmpty && part ≠ ".") = p.parts := by
  rw [splitOn_join hp.slash]
  split
  case isTrue hnil =>
    rw [hnil]
    rfl
  case isFalse =>
    refine filter_eq_self.mpr fun part hpart => ?_
    rw [Bool.and_eq_true, Bool.not_eq_true', decide_eq_true_eq, Bool.eq_false_iff, ne_eq, String.isEmpty_iff]
    exact ⟨hp.filled part hpart, hp.dots part hpart⟩

lemma filter_splitOn_slash (s : String) :
  ((splitOn "/" ("/" ++ s)).filter fun part => !part.isEmpty && part ≠ ".") =
    (splitOn "/" s).filter fun part => !part.isEmpty && part ≠ "." := by
  rw [splitOn_slash_cons]
  rfl

lemma startsWith_append_append (a b s : String) : startsWith (a ++ b) (a ++ s) = startsWith b s := by
  rw [startsWith, startsWith, toList_append, toList_append, Bool.eq_iff_iff,
    isPrefixOf_iff_prefix, isPrefixOf_iff_prefix, prefix_append_right_inj]

lemma Path.ofText_toText (hp : p.Normal) : ofText p.toText = p := by
  rcases p with ⟨root, parts⟩
  have hstart : startsWith "/" (join "/" parts) = false := startsWith_slash_join hp.slash hp.filled
  have hparts : ((splitOn "/" (join "/" parts)).filter fun part => !part.isEmpty && part ≠ ".") = parts :=
    hp.filter_splitOn
  rcases hp.root with rfl | rfl | rfl
  · rw [toText, empty_append]
    split
    case isTrue hempty =>
      -- Only a path without parts has an empty text.
      rw [String.isEmpty_iff.mp hempty] at hparts
      rw [← hparts]
      decide
    case isFalse =>
      rw [ofText, rootOf, hstart, hparts]
      rfl
  · rw [toText, isEmpty_slash_append, if_neg Bool.false_ne_true, ofText, filter_splitOn_slash, hparts,
      rootOf, startsWith_slash_append]
    have htwo : startsWith "//" ("/" ++ join "/" parts) = false :=
      (startsWith_append_append "/" "/" _).trans hstart
    rw [htwo]
    rfl
  · have hsplit : "//" ++ join "/" parts = "/" ++ ("/" ++ join "/" parts) := by
      rw [← String.append_assoc]
      rfl
    have htwo : startsWith "//" ("/" ++ ("/" ++ join "/" parts)) :=
      (startsWith_append_append "/" "/" _).trans (startsWith_slash_append _)
    have hthree : startsWith "///" ("/" ++ ("/" ++ join "/" parts)) = false :=
      (startsWith_append_append "/" "//" _).trans ((startsWith_append_append "/" "/" _).trans hstart)
    rw [toText, hsplit, isEmpty_slash_append, if_neg Bool.false_ne_true, ofText, filter_splitOn_slash,
      filter_splitOn_slash, hparts, rootOf, startsWith_slash_append, htwo, hthree]
    rfl

variable {name name' : String}

/-- Names that lead one step on. -/
def PlainName (name : String) : Prop := ofText name = ⟨"", [name]⟩ ∧ name ≠ ".."

lemma PlainName.step_eq (h : PlainName name) (p : Place) : Disk.step p name = p ++ [name] := by
  have hparts := congrArg Path.parts h.1
  have hmem : name ∈ (ofText name).parts := hparts ▸ mem_singleton_self name
  have hkept := of_mem_filter hmem
  rw [Bool.and_eq_true, Bool.not_eq_true', decide_eq_true_eq] at hkept
  rw [Disk.step, hkept.1, Bool.false_or, decide_eq_false hkept.2, if_neg Bool.false_ne_true, if_neg h.2]

lemma leadsTo_append (hp : p.Proper) (h : PlainName name) :
  d.leadsTo (p.append (ofText name)).toText = d.leadsTo p.toText ++ [name] := by
  have hwithin : p.append (ofText name) = ⟨p.root, p.parts ++ [name]⟩ := by
    rw [h.1]
    rfl
  rw [Disk.leadsTo_toText (hp.append (Path.ofText_proper name)), Disk.leadsTo_toText hp, hwithin,
    foldl_append, foldl_cons, foldl_nil, h.step_eq]

end KeywordDocs.Files
