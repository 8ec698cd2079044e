import KeywordDocs.Proofs.Page.Stripping
import KeywordDocs.Proofs.Site.Search

/-!
# Summaries of Keywords

A summary is made in two steps: lines are combined until there is enough text, and the text is cut. Each
step has its own idea of what is enough.
-/

namespace KeywordDocs.Site

open Text Page List
open String (length_toList toList_append toList_ofList)

variable {s acc : String} {cs front : List Char}

def keptFront (front : List Char) : List Char :=
  trimRightChars (if Float.ofInt (lastBreak front) > Float.ofInt summaryLimit * 0.7 then
    front.take (lastBreak front).toNat else front)

lemma lastBreak_bounds (cs : List Char) : -1 ≤ lastBreak cs ∧ lastBreak cs < cs.length := by
  have hle := (List.takeWhile_prefix (l := cs.reverse) fun c => c ≠ ' ' && c ≠ '.' && c ≠ '\n').length_le
  rw [length_reverse] at hle
  rw [lastBreak]
  omega

lemma truncate_short (h : s.length ≤ 150) : truncate summaryLimit s = s := by
  rw [← length_toList] at h
  rw [truncate]
  dsimp only
  split
  · rename_i hempty
    rw [← String.toList_inj, isEmpty_iff.mp hempty]
    rfl
  · rw [if_pos (by rw [summaryLimit]; omega)]

lemma truncate_long (h : 150 < s.length) :
  truncate summaryLimit s = String.ofList (keptFront (s.toList.take 150)) ++ "..." := by
  rw [← length_toList] at h
  have hne : s.toList.isEmpty = false := by
    rw [isEmpty_eq_false_iff, ← length_pos_iff]
    omega
  have hfront : upToIndex (summaryLimit : Int) s.toList = s.toList.take 150 := rfl
  rw [truncate]
  dsimp only
  rw [if_neg (by rw [hne]; exact Bool.false_ne_true), if_neg (by rw [summaryLimit]; omega), hfront, keptFront]
  congr 3
  split
  · rename_i hbreak
    have hbounds := lastBreak_bounds (s.toList.take 150)
    -- Without a break the place is -1, which is not in the last three tenths.
    have hplace : 0 ≤ lastBreak (s.toList.take 150) := by
      rcases Int.lt_or_le (lastBreak (s.toList.take 150)) 0 with hneg | hpos
      · rw [show lastBreak (s.toList.take 150) = -1 by omega] at hbreak
        exact absurd hbreak (by decide)
      · exact hpos
    rw [length_take] at hbounds
    rw [upToIndex, if_pos hplace, take_take, Nat.min_eq_left (by omega)]
  · exact hfront

lemma keptFront_isPrefix (front : List Char) : keptFront front <+: front := by
  refine (dropEndWhile_isPrefix _ _).trans ?_
  split
  · exact take_prefix _ _
  · exact prefix_rfl

lemma isBlank_of_mem_getLast?_keptFront :
  ∀ c ∈ (keptFront front).getLast?, isBlank c = false := by
  intro c hc
  rw [keptFront, trimRightChars, dropEndWhile, getLast?_reverse] at hc
  have h := head?_dropWhile_not isBlank (if Float.ofInt (lastBreak front) >
    Float.ofInt summaryLimit * 0.7 then front.take (lastBreak front).toNat else front).reverse
  rw [hc] at h
  simpa using h

lemma truncate_ne_front (hfront : front.length = 150) : keptFront front ++ "...".toList ≠ front := by
  intro h
  -- The last character would be a full stop, and the cut would be made there.
  have hdots : front = keptFront front ++ ['.', '.'] ++ ['.'] := by
    rw [append_assoc]
    exact h.symm
  have hbreak : lastBreak front = 149 := by
    have hlast : (front.reverse.takeWhile fun c => c ≠ ' ' && c ≠ '.' && c ≠ '\n') = [] := by
      rw [hdots, reverse_append]
      rfl
    rw [lastBreak, hlast, hfront]
    rfl
  have hlength : (keptFront front ++ ['.', '.']).length = 149 := by
    have htotal := congrArg length hdots
    rw [length_append, hfront] at htotal
    simpa using htotal.symm
  have htake : front.take 149 = keptFront front ++ ['.', '.'] := by
    conv_lhs => rw [hdots]
    exact take_left' hlength
  have hkept : keptFront front = keptFront front ++ ['.', '.'] := by
    conv_lhs => rw [keptFront, hbreak, if_pos (by decide)]
    change trimRightChars (front.take 149) = _
    rw [htake, ← singleton_append, ← append_assoc, trimRightChars, dropEndWhile_concat]
    rfl
  have hshort := congrArg length hkept
  rw [length_append] at hshort
  exact absurd hshort (by simp)

/-- A line put behind the text before it. -/
def addLine (acc line : String) : String :=
  if acc.isEmpty then trim line else acc ++ " " ++ trim line

/-- Lines as one text. -/
def combined (ls : List String) : String := ls.foldl addLine ""

lemma combine_cons (line : String) (rest : List String) : combine acc (line :: rest) =
  if 150 ≤ (addLine acc line).length then addLine acc line else combine (addLine acc line) rest :=
  rfl

lemma combine_eq (acc : String) (ls : List String) : ∃ n ≤ ls.length,
  combine acc ls = (ls.take n).foldl addLine acc ∧ (n < ls.length → 0 < n ∧ 150 ≤ (combine acc ls).length) ∧
  ∀ m, 0 < m → m < n → ((ls.take m).foldl addLine acc).length < 150 := by
  induction ls generalizing acc with
  | nil => exact ⟨0, le_rfl, rfl, fun h => absurd h (Nat.lt_irrefl 0), fun _ _ h => absurd h (by omega)⟩
  | cons line rest ih =>
    rw [combine_cons]
    by_cases henough : 150 ≤ (addLine acc line).length
    · rw [if_pos henough]
      exact ⟨1, Nat.le_add_left 1 _, rfl, fun _ => ⟨Nat.one_pos, henough⟩, fun m hm h => by omega⟩
    · rw [if_neg henough]
      rcases ih (addLine acc line) with ⟨n, hn, hcombine, hstop, hbefore⟩
      refine ⟨n + 1, Nat.succ_le_succ hn, hcombine, fun h => ?_, fun m hm hlt => ?_⟩
      · exact ⟨Nat.succ_pos n, (hstop (Nat.lt_of_succ_lt_succ h)).2⟩
      · cases m with
        | zero => cases (Nat.lt_irrefl 0) hm
        | succ m =>
          rcases Nat.eq_zero_or_pos m with rfl | hpos
          · exact Nat.lt_of_not_le henough
          · exact hbefore m hpos (Nat.lt_of_succ_lt_succ hlt)

lemma foldl_addLine (hacc : acc ≠ "") {ls : List String} (hls : ls ≠ []) :
  ∃ more, (ls.foldl addLine acc).toList = acc.toList ++ ' ' :: more := by
  induction ls generalizing acc with
  | nil => cases hls rfl
  | cons line rest ih =>
    have hnext : (addLine acc line).toList = acc.toList ++ ' ' :: (trim line).toList := by
      rw [addLine, if_neg (by simpa using hacc), toList_append, toList_append, append_assoc]
      rfl
    cases rest with
    | nil => exact ⟨_, hnext⟩
    | cons line' rest =>
      have hne : addLine acc line ≠ "" := fun h => by
        rw [h] at hnext
        cases hacc' : acc.toList <;> rw [hacc'] at hnext <;> cases hnext
      rcases ih hne (cons_ne_nil line' rest) with ⟨more, hmore⟩
      refine ⟨(trim line).toList ++ ' ' :: more, ?_⟩
      rw [foldl_cons, hmore, hnext, append_assoc, cons_append]

lemma combine_start (ls : List String) : ∃ n ≤ ls.length, combine "" ls = combined (ls.take n) ∧
  (n < ls.length → 0 < n ∧ 150 ≤ (combine "" ls).length) ∧
  ∀ m, 0 < m → m < n → (combined (ls.take m)).length < 150 :=
  combine_eq "" ls

lemma combined_longer {ls : List String} {n m : Nat} (hne : combined (ls.take n) ≠ "") (hnm : n < m)
  (hm : m ≤ ls.length) :
  ∃ more, (combined (ls.take m)).toList = (combined (ls.take n)).toList ++ ' ' :: more := by
  have hsplit : ls.take m = ls.take n ++ (ls.drop n).take (m - n) := by
    rw [← take_add, Nat.add_sub_cancel' hnm.le]
  rw [hsplit, combined, foldl_append]
  refine foldl_addLine hne fun hnil => ?_
  have hlength := congrArg length hnil
  rw [length_take, length_drop, length_nil] at hlength
  omega

lemma combine_first (ls : List String) : ∃ n ≤ 3, combine "" (ls.take 3) = combined (ls.take n) ∧
  (n = 3 ∨ 150 ≤ (combine "" (ls.take 3)).length) := by
  rcases combine_start (ls.take 3) with ⟨n, hn, hcombine, hstop, -⟩
  rcases Nat.lt_or_eq_of_le hn with hlt | hall
  · have hle : n ≤ 3 := hn.trans (length_take_le _ _)
    refine ⟨n, hle, ?_, .inr (hstop hlt).2⟩
    rw [hcombine, take_take, Nat.min_eq_left hle]
  · rw [hall, take_length] at hcombine
    exact ⟨3, le_rfl, hcombine, .inl rfl⟩

lemma not_mem_combined {ls : List String} (hls : ∀ line ∈ ls, '\n' ∉ line.toList) :
  '\n' ∉ (combined ls).toList := by
  have hfold : ∀ acc : String, '\n' ∉ acc.toList → '\n' ∉ (ls.foldl addLine acc).toList := by
    induction ls with
    | nil => exact fun _ h => h
    | cons line rest ih =>
      rw [forall_mem_cons] at hls
      refine fun acc hacc => ih hls.2 _ ?_
      have htrim : '\n' ∉ (trim line).toList := fun h => by
        rw [trim, toList_ofList] at h
        exact hls.1 (trimChars_subset _ h)
      rw [addLine]
      split
      · exact htrim
      · simp [toList_append, hacc, htrim]
  exact hfold "" (by decide)

/-- The lines that a summary is made of. -/
def firstLines (description : String) : List String := (lines (plainText description)).take 3

/-- The summary that combining all of the first lines would give. -/
def wholeSummary (description : String) : String := truncate summaryLimit (combined (firstLines description))

lemma summary_eq (description : String) :
  summary description = truncate summaryLimit (combine "" (firstLines description)) := by
  rw [summary]
  split
  · rename_i hempty
    rw [String.isEmpty_iff.mp hempty]
    decide +kernel
  · rfl

/-- Stopping early changes a summary exactly if the lines up to some line that is not the last one make
150 characters. -/
theorem summary_eq_wholeSummary_iff (description : String) :
  summary description = wholeSummary description ↔
    ∀ n, 0 < n → n < (firstLines description).length →
      (combined ((firstLines description).take n)).length ≠ 150 := by
  rw [summary_eq, wholeSummary]
  generalize firstLines description = ls
  rcases combine_start ls with ⟨n, hn, hcombine, hstop, hbefore⟩
  rcases Nat.lt_or_eq_of_le hn with hlt | rfl
  · rcases hstop hlt with ⟨hpos, henough⟩
    rw [hcombine] at henough ⊢
    have hne : combined (ls.take n) ≠ "" := fun h => by
      rw [h] at henough
      exact absurd henough (by decide)
    have hlonger : ∀ m, n < m → m ≤ ls.length → 150 < (combined (ls.take m)).length := by
      intro m hnm hm
      rcases combined_longer hne hnm hm with ⟨more, hmore⟩
      rw [← String.length_toList, hmore, length_append, String.length_toList, length_cons]
      omega
    rcases combined_longer hne hlt le_rfl with ⟨more, hwhole⟩
    have hlong := hlonger ls.length hlt le_rfl
    rw [take_length] at hwhole hlong
    rw [truncate_long hlong, hwhole]
    rcases Nat.lt_or_eq_of_le henough with hmore | hexact
    · rw [truncate_long hmore, take_append_of_le_length (by rw [String.length_toList]; exact henough)]
      refine ⟨fun _ m hm hm' => ?_, fun _ => rfl⟩
      rcases Nat.lt_trichotomy m n with hmn | rfl | hmn
      · exact (hbefore m hm hmn).ne
      · exact hmore.ne'
      · exact (hlonger m hmn hm'.le).ne'
    · have hlength : (combined (ls.take n)).toList.length = 150 := String.length_toList.trans hexact.symm
      refine ⟨fun h => absurd ?_ (truncate_ne_front hlength), fun h => absurd hexact.symm (h n hpos hlt)⟩
      rw [truncate_short hexact.ge, take_left' hlength] at h
      have hlist := congrArg String.toList h
      rw [String.toList_append, String.toList_ofList] at hlist
      exact hlist.symm
  · rw [take_length] at hcombine
    exact ⟨fun _ m hm hlt => (hbefore m hm hlt).ne, fun _ => congrArg _ hcombine⟩

/-- A text without its tags. A tag is an opening angle bracket with all up to the first closing one, if
that does not follow at once; from left to right tags are left out and all else stays. -/
inductive Untagged : List Char → List Char → Prop where
  | nil : Untagged [] []
  | tag {body rest out : List Char} (hne : body ≠ []) (hbody : '>' ∉ body) (h : Untagged rest out) :
      Untagged ('<' :: (body ++ '>' :: rest)) out
  | char {c : Char} {rest out : List Char} (hnone : ∀ body after, body ≠ [] → '>' ∉ body →
      c :: rest ≠ '<' :: (body ++ '>' :: after)) (h : Untagged rest out) : Untagged (c :: rest) (c :: out)

/-- The plain text of a description: without tags, then with six entities decoded, one kind after
another, and without blanks at the ends. -/
def IsPlainText (description text : String) : Prop :=
  ∃ bare, Untagged description.toList bare ∧ text = String.ofList (trimChars
    ([("&nbsp;", " "), ("&amp;", "&"), ("&lt;", "<"), ("&gt;", ">"), ("&quot;", "\""), ("&#39;", "'")].foldl
      (fun cs entry => replaceChars entry.1.toList entry.2.toList cs) bare))

lemma withoutTags_untagged (cs : List Char) : Untagged cs (Markup.withoutTags cs) := by
  refine replaceFinds_induction tagRemoval_blind tagRemoval_fits (motive := Untagged) .nil ?_ ?_ cs
  · intro c rest out hnone h
    refine .char (fun body after hne hbody hcs => ?_) h
    rw [hcs, tagRemoval, tag_append hne hbody] at hnone
    cases hnone
  · intro found new rest out _ hfind h
    rcases tagRemoval_found hfind with ⟨rfl, body, hne, hbody, rfl⟩
    rw [cons_append, append_assoc]
    exact .tag hne hbody h

lemma plainText_isPlainText (description : String) : IsPlainText description (plainText description) :=
  ⟨_, withoutTags_untagged _, rfl⟩

/-- What a summary is of a description: one line of the first lines of its plain text, whole or cut. Lines
are left out only if there is enough text without them, and the text is cut only if it is too
long. -/
structure IsExcerpt (description doc : String) : Prop where
  oneLine : '\n' ∉ doc.toList
  length_le : doc.length ≤ 153
  taken : ∃ plain, IsPlainText description plain ∧ ∃ n ≤ 3, ∃ text,
    text = combined ((lines plain).take n) ∧ (n = 3 ∨ 150 ≤ text.length) ∧ (text.length ≤ 150 ∧ doc = text ∨
      150 < text.length ∧ ∃ front : List Char, doc.toList = front ++ "...".toList ∧
        front <+: text.toList ∧ front.length < text.length ∧ front.length ≤ 150 ∧
        ∀ c ∈ front.getLast?, isBlank c = false)

lemma summary_isExcerpt (description : String) : IsExcerpt description (summary description) := by
  rw [summary_eq]
  have hlines : ∀ line ∈ lines (plainText description), '\n' ∉ line.toList := by
    intro line hline
    rcases mem_map.mp hline with ⟨part, hpart, rfl⟩
    rw [toList_ofList]
    exact not_mem_splitAtChar hpart
  rcases combine_first (lines (plainText description)) with ⟨k, hk, htext, henough⟩
  rw [← firstLines] at htext henough
  generalize combine "" (firstLines description) = text at htext henough
  have hfeed : '\n' ∉ text.toList := by
    rw [htext]
    exact not_mem_combined fun line hline => hlines line (mem_of_mem_take hline)
  rcases Nat.lt_or_ge 150 text.length with hlong | hshort
  · have hstart := (keptFront_isPrefix (text.toList.take 150)).trans (List.take_prefix 150 text.toList)
    have hle : (keptFront (text.toList.take 150)).length ≤ 150 :=
      (keptFront_isPrefix _).length_le.trans (length_take_le _ _)
    have hdoc : (truncate summaryLimit text).toList =
        keptFront (text.toList.take 150) ++ "...".toList := by
      rw [truncate_long hlong, toList_append, toList_ofList]
    refine ⟨?_, ?_, _, plainText_isPlainText description, k, hk, text, htext, henough, .inr ⟨hlong, _, hdoc, hstart, ?_, hle,
      isBlank_of_mem_getLast?_keptFront⟩⟩
    · rw [hdoc]
      exact fun h => (mem_append.mp h).elim (fun h => hfeed (hstart.subset h)) (by decide)
    · rw [← length_toList, hdoc, length_append]
      exact Nat.add_le_add_right hle 3
    · exact Nat.lt_of_le_of_lt hle hlong
  · rw [truncate_short hshort]
    exact ⟨hfeed, hshort.trans (by decide), _, plainText_isPlainText description, k, hk, text, htext,
      henough, .inl ⟨hshort, rfl⟩⟩

lemma cardDescription_of_error {lib : Library} {own merged : Option Json} {f : Fault}
  (h : cardDescription lib own merged = .error f) :
  (∀ s, lib.description ≠ .str s) ∧ f = .missingAttribute := by
  simp only [cardDescription] at h
  split at h
  · cases h
  split at h
  · cases h
  split at h
  · cases h
  split at h
  · cases h
  · rename_i hother
    exact ⟨hother, (Except.error.inj h).symm⟩

/-- The card of a library has an entry for each keyword, in their order, with the keyword's name and an
excerpt of its description. There is a card if the description of the library is a text. -/
theorem collect_excerpts (lib : Library) (name : Value) (url : String) (own merged : Option Json) :
  (∃ card entries, Card.collect lib name url own merged = .ok card ∧
    card.keywords = some (entries.map some) ∧
    Forall₂ (fun k (e : KeywordSummary) => e.name = k.name ∧ IsExcerpt k.description e.doc)
      lib.keywords entries) ∨
  (∀ s, lib.description ≠ .str s) ∧
    Card.collect lib name url own merged = .error .missingAttribute := by
  cases hcard : Card.collect lib name url own merged with
  | ok card =>
    refine .inl ⟨card, lib.keywords.map fun k => ⟨k.name, summary k.description⟩, rfl, ?_, ?_⟩
    · rw [collect_keywords hcard, map_map]
      rfl
    · rw [forall₂_map_right_iff, forall₂_same]
      exact fun k _ => ⟨rfl, summary_isExcerpt k.description⟩
  | error f =>
    right
    cases hlibrary : cardDescription lib (own.filter Json.isTruthy) (merged.filter Json.isTruthy) with
    | ok description =>
      rw [Card.collect, hlibrary] at hcard
      cases hcard
    | error e =>
      rw [Card.collect, hlibrary] at hcard
      rcases cardDescription_of_error hlibrary with ⟨hne, rfl⟩
      exact ⟨hne, hcard.symm⟩

end KeywordDocs.Site
