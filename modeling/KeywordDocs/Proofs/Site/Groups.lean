import KeywordDocs.Proofs.Highlight.Outcome
import KeywordDocs.Proofs.Text.Lines
import KeywordDocs.Site.Dashboard
import Mathlib.Data.Finset.Card
import Mathlib.Data.List.DropRight

/-!
# Groups of Libraries

A dashboard says how many groups of libraries there are, with names as they are written, and each card says
which group its library belongs to, in lower case, which is what the dashboard groups by.
-/

namespace KeywordDocs.Site

open Text Highlight List
open Char (ofNat)

variable (texts : List String)

variable {c d : Char} {n : Nat} {before after cs front back : List Char}

lemma lowerRuns_apart : ∀ r ∈ lowerRuns, ∀ b ∈ blankRanges, 0 < b.1 ∧ (r.last < b.1 ∨ b.2 < r.first) ∧
    ((r.last : Int) + r.shift < b.1 ∨ (b.2 : Int) < r.first + r.shift) := by
  rw [lowerRuns, numbers_ofList]
  decide +kernel

lemma caseRanges_apart : ∀ r ∈ casedRanges ++ caseIgnorableRanges, ∀ b ∈ blankRanges,
  r.2 < b.1 ∨ b.2 < r.1 := by
  rw [casedRanges, caseIgnorableRanges, numbers_ofList, numbers_ofList]
  decide +kernel

lemma isBlank_iff : isBlank c ↔ ∃ b ∈ blankRanges, b.1 ≤ c.toNat ∧ c.toNat ≤ b.2 := by
  simp [isBlank, inRanges]

lemma isBlank_ofNat (h : ∀ b ∈ blankRanges, n < b.1 ∨ b.2 < n) : isBlank (ofNat n) = false := by
  by_cases hvalid : n.isValidChar
  · have hchar : ofNat n = Char.ofNatAux n hvalid := dif_pos hvalid
    rw [Bool.eq_false_iff, ne_eq, isBlank_iff, hchar]
    rintro ⟨b, hb, hfirst, hlast⟩
    have hn : (Char.ofNatAux n hvalid).toNat = n := rfl
    have hapart := h b hb
    omega
  · have hchar : ofNat n = ofNat 0 := dif_neg hvalid
    rw [hchar]
    decide

lemma ascii_blank (h : c.toNat < 128) : isBlank c.toLower = isBlank c ∧
  (isBlank c → c.toLower = c ∧ c.isAlpha = false) := by
  have hall : ∀ n < 128, isBlank (ofNat n).toLower = isBlank (ofNat n) ∧ (isBlank (ofNat n) →
        (ofNat n).toLower = ofNat n ∧ (ofNat n).isAlpha = false) := by
    decide
  have hc := hall c.toNat h
  rwa [Char.ofNat_toNat] at hc

lemma uncased_of_blank (h : isBlank c) : isCased c = false ∧ isCaseIgnorable c = false := by
  rcases isBlank_iff.mp h with ⟨b, hb, hfirst, hlast⟩
  have hranges : ∀ ranges ⊆ casedRanges ++ caseIgnorableRanges, inRanges ranges c = false := by
    intro ranges hsub
    rw [inRanges, any_eq_false]
    intro r hr
    have hapart := caseRanges_apart r (hsub hr) b hb
    simp only [Bool.and_eq_true, decide_eq_true_eq]
    omega
  refine ⟨?_, hranges _ (subset_append_right _ _)⟩
  unfold isCased
  split
  case isTrue hascii => exact ((ascii_blank hascii).2 h).2
  case isFalse => exact hranges _ (subset_append_left _ _)

lemma lowerWithin_of_blank (h : isBlank c) : lowerWithin before c after = [c] := by
  rcases isBlank_iff.mp h with ⟨b, hb, hfirst, hlast⟩
  have hcodes : ∀ b ∈ blankRanges, (b.2 < 931 ∨ 931 < b.1) ∧ (b.2 < 304 ∨ 304 < b.1) := by decide
  have hcode := hcodes b hb
  rw [lowerWithin, if_neg (by omega), lowerChar]
  split
  case isTrue hascii => rw [((ascii_blank hascii).2 h).1]
  case isFalse =>
    rw [if_neg (by omega), applyRuns]
    have hnone : lowerRuns.findSome? (·.image? c.toNat) = none := by
      rw [findSome?_eq_none_iff]
      intro r hr
      have hapart := (lowerRuns_apart r hr b hb).2.1
      exact if_neg (by omega)
    rw [hnone]

lemma lowerWithin_filled (h : isBlank c = false) : lowerWithin before c after ≠ [] ∧
  ∀ d ∈ lowerWithin before c after, isBlank d = false := by
  have hsingle : ∀ {d : Char}, isBlank d = false → [d] ≠ [] ∧ ∀ e ∈ [d], isBlank e = false :=
    fun hd => ⟨cons_ne_nil _ _, forall_mem_singleton.mpr hd⟩
  rw [lowerWithin, lowerChar]
  split
  · split
    · exact hsingle (by decide)
    · exact hsingle (by decide)
  · split
    case isTrue hascii => exact hsingle ((ascii_blank hascii).1.trans h)
    case isFalse =>
      split
      · exact ⟨cons_ne_nil _ _, by decide⟩
      · rw [applyRuns]
        refine hsingle ?_
        split
        case h_1 m hrun =>
          rcases exists_of_findSome?_eq_some hrun with ⟨r, hr, himage⟩
          refine isBlank_ofNat fun b hb => ?_
          have hapart := lowerRuns_apart r hr b hb
          rw [CaseRun.image?] at himage
          split at himage
          case isTrue hcovers =>
            cases himage
            omega
          case isFalse => cases himage
        case h_2 => exact h

lemma nearestIsCased_append (hback : ∀ c ∈ back, isBlank c) (cs : List Char) :
  nearestIsCased (cs ++ back) = nearestIsCased cs := by
  unfold nearestIsCased
  induction cs with
  | nil =>
    cases back with
    | nil => rfl
    | cons c back =>
      have hc := uncased_of_blank (hback c mem_cons_self)
      rw [nil_append, dropWhile_cons_of_neg (by rw [hc.2]; exact Bool.false_ne_true)]
      exact hc.1
  | cons c cs ih =>
    cases hc : isCaseIgnorable c with
    | true => rw [cons_append, dropWhile_cons_of_pos hc, dropWhile_cons_of_pos hc, ih]
    | false =>
      have hne : ¬ isCaseIgnorable c := by rw [hc]; exact Bool.false_ne_true
      rw [cons_append, dropWhile_cons_of_neg hne, dropWhile_cons_of_neg hne]

lemma lowerFrom_blanks (hback : ∀ c ∈ back, isBlank c) : lowerFrom before back = back := by
  induction back generalizing before with
  | nil => rfl
  | cons c back ih =>
    rw [forall_mem_cons] at hback
    rw [lowerFrom, lowerWithin_of_blank hback.1, ih hback.2, singleton_append]

lemma lowerFrom_around (cs : List Char) (hfront : ∀ c ∈ front, isBlank c)
  (hback : ∀ c ∈ back, isBlank c) :
  lowerFrom [] (front ++ (cs ++ back)) = front ++ (lowerFrom [] cs ++ back) := by
  have hcore : ∀ passed blanks, (∀ c ∈ blanks, isBlank c) →
      lowerFrom (passed ++ blanks) (cs ++ back) = lowerFrom passed cs ++ back := by
    induction cs with
    | nil => exact fun _ _ _ => lowerFrom_blanks hback
    | cons c cs ih =>
      intro passed blanks hblanks
      have hc : lowerWithin (passed ++ blanks) c (cs ++ back) = lowerWithin passed c cs := by
        rw [lowerWithin, nearestIsCased_append hblanks, nearestIsCased_append hback, lowerWithin]
      rw [cons_append, lowerFrom, hc, lowerFrom, append_assoc, ← cons_append, ih (c :: passed) _ hblanks]
  have hpassed : ∀ blanks, (∀ c ∈ blanks, isBlank c) →
      lowerFrom blanks (front ++ (cs ++ back)) = front ++ (lowerFrom [] cs ++ back) := by
    induction front with
    | nil => exact fun blanks hblanks => hcore [] blanks hblanks
    | cons c front ih =>
      intro blanks hblanks
      rw [forall_mem_cons] at hfront
      rw [cons_append, lowerFrom, lowerWithin_of_blank hfront.1, ih hfront.2 (c :: blanks)
        (forall_mem_cons.mpr ⟨hfront.1, hblanks⟩), singleton_append, cons_append]
  exact hpassed [] (forall_mem_nil _)

lemma lowerFrom_eq_nil_iff : lowerFrom before cs = [] ↔ cs = [] := by
  cases cs with
  | nil => exact Iff.rfl
  | cons c cs =>
    refine iff_of_false (fun h => ?_) (cons_ne_nil _ _)
    have hc := (append_eq_nil_iff.mp h).1
    cases hblank : isBlank c with
    | true => rw [lowerWithin_of_blank hblank] at hc; exact cons_ne_nil _ _ hc
    | false => exact (lowerWithin_filled hblank).1 hc

lemma getLast?_lowerFrom (h : ∀ c ∈ cs.getLast?, isBlank c = false) :
  ∀ c ∈ (lowerFrom before cs).getLast?, isBlank c = false := by
  induction cs generalizing before with
  | nil => exact fun c hc => absurd hc (Option.not_mem_none c)
  | cons c cs ih =>
    rw [lowerFrom, getLast?_append]
    cases cs with
    | nil =>
      intro d hd
      exact (lowerWithin_filled (h c rfl)).2 d (mem_of_getLast? hd)
    | cons e cs =>
      rw [getLast?_cons_cons] at h
      cases hlast : (lowerFrom (c :: before) (e :: cs)).getLast? with
      | none => cases (mt lowerFrom_eq_nil_iff.mp (cons_ne_nil _ _)) (getLast?_eq_none_iff.mp hlast)
      | some d =>
        rw [Option.some_or, ← hlast]
        exact ih h

lemma tight_lowerFrom (h : Tight cs) : Tight (lowerFrom before cs) := by
  refine ⟨?_, getLast?_lowerFrom h.last⟩
  cases cs with
  | nil => exact fun c hc => absurd hc (Option.not_mem_none c)
  | cons c cs =>
    have hfilled : lowerWithin before c cs ≠ [] ∧ _ := lowerWithin_filled (h.head c rfl)
    rw [lowerFrom, head?_append_of_ne_nil _ hfilled.1]
    exact fun d hd => hfilled.2 d (mem_of_head? hd)

lemma trim_lower (s : String) : trim (lower s) = lower (trim s) := by
  rw [trim, lower, lower, trim, String.toList_ofList, String.toList_ofList]
  congr 1
  have hparts : s.toList = s.toList.takeWhile isBlank ++ (trimChars s.toList ++
      (trimLeftChars s.toList).rtakeWhile isBlank) := by
    have hright : trimChars s.toList ++ _ = _ :=
      rdropWhile_append_rtakeWhile (p := isBlank) (l := trimLeftChars s.toList)
    rw [hright, trimLeftChars, takeWhile_append_dropWhile]
  have hfront : ∀ c ∈ s.toList.takeWhile isBlank, isBlank c := fun c hc => mem_takeWhile_imp hc
  have hback : ∀ c ∈ (trimLeftChars s.toList).rtakeWhile isBlank, isBlank c :=
    fun c hc => mem_rtakeWhile_imp hc
  have hlower := lowerFrom_around (trimChars s.toList) hfront hback
  rw [← hparts] at hlower
  by_cases hempty : trimChars s.toList = []
  · -- nothing but white space is left as it is
    rw [hempty, nil_append] at hparts
    rw [hempty, lowerFrom, nil_append, ← hparts] at hlower
    rw [hlower, hempty, lowerFrom]
  · rw [hlower]
    exact (tight_lowerFrom (trimChars_tight _)).trimChars_around (mt lowerFrom_eq_nil_iff.mp hempty)
      hfront hback

lemma lower_eq_empty_iff {s : String} : lower s = "" ↔ s = "" := by
  rw [lower, String.ofList_eq_empty_iff, lowerFrom_eq_nil_iff, String.toList_eq_nil_iff]

lemma nodup_eraseDups : texts.eraseDups.Nodup := by
  induction h : texts.length using Nat.strong_induction_on generalizing texts with
  | h n ih =>
    cases texts with
    | nil => exact nodup_nil
    | cons s texts =>
      subst h
      rw [eraseDups_cons, nodup_cons]
      refine ⟨?_, ih _ (Nat.lt_succ_of_le (length_filter_le _ _)) _ rfl⟩
      rw [mem_eraseDups, mem_filter]
      simp

/-- The number of values that are different and not empty after trimming. -/
def distinctCount : Nat := ((texts.map trim).toFinset.erase "").card

lemma length_distinct :
  ((texts.map trim).filter fun s => !s.isEmpty).eraseDups.length = distinctCount texts := by
  rw [← toFinset_card_of_nodup (nodup_eraseDups _), distinctCount]
  congr 1
  ext s
  simp [mem_eraseDups, and_comm]

lemma distinctCount_lower_iff : distinctCount texts = distinctCount (texts.map lower) ↔
    ∀ s ∈ texts, ∀ t ∈ texts, lower (trim s) = lower (trim t) → trim s = trim t := by
  have hvalues : (texts.map lower).map trim = (texts.map trim).map lower := by
    simp only [map_map, Function.comp_def, trim_lower]
  have himage : ((texts.map lower).map trim).toFinset.erase "" =
      ((texts.map trim).toFinset.erase "").image lower := by
    rw [hvalues]
    ext s
    simp only [Finset.mem_erase, Finset.mem_image, mem_toFinset, mem_map (l := texts.map trim)]
    constructor
    · rintro ⟨hs, t, ht, rfl⟩
      exact ⟨t, ⟨mt lower_eq_empty_iff.mpr hs, ht⟩, rfl⟩
    · rintro ⟨t, ⟨hne, ht⟩, rfl⟩
      exact ⟨mt lower_eq_empty_iff.mp hne, t, ht, rfl⟩
  rw [distinctCount, distinctCount, himage, eq_comm, Finset.card_image_iff]
  constructor
  · intro h s hs t ht hst
    have hnames : ∀ u ∈ texts, trim u ≠ "" → trim u ∈ (texts.map trim).toFinset.erase "" := fun u hu hne =>
      Finset.mem_erase.mpr ⟨hne, mem_toFinset.mpr (mem_map_of_mem hu)⟩
    have hempty : trim s = "" ↔ trim t = "" := by rw [← lower_eq_empty_iff, hst, lower_eq_empty_iff]
    by_cases hs' : trim s = ""
    · rw [hs', hempty.mp hs']
    · exact h (hnames s hs hs') (hnames t ht (mt hempty.mpr hs')) hst
  · intro h s hs t ht hst
    rcases mem_map.mp (mem_toFinset.mp (Finset.mem_of_mem_erase hs)) with ⟨s', hs', rfl⟩
    rcases mem_map.mp (mem_toFinset.mp (Finset.mem_of_mem_erase ht)) with ⟨t', ht', rfl⟩
    exact h s' hs' t' ht' hst

variable {c : Card} {cards : List Card} {site : Json} {now page text : String}

/-- The group of a library is not given, null or a text. -/
def HasGroup (c : Card) : Prop := c.group = .none ∨ ∃ s, c.group = .str s

/-- The name of a library's group as it is given; empty if there is none. -/
def groupText (c : Card) : String := c.group.text?.getD ""

/-- The text has another one in it. -/
def Shows (mark text : String) : Prop := ∃ opening rest, text = opening ++ mark ++ rest

lemma Shows.append {mark : String} (h : Shows mark text) (more : String) : Shows mark (text ++ more) := by
  rcases h with ⟨opening, rest, rfl⟩
  exact ⟨opening, rest ++ more, String.append_assoc⟩

lemma shows_between (front opening mark name mark' rest : String) :
  Shows (mark ++ name ++ mark') (front ++ (opening ++ mark) ++ name ++ (mark' ++ rest)) :=
  ⟨front ++ opening, rest, by simp only [String.append_assoc]⟩

lemma given_eq (h : HasGroup c) {f : String → String} (hf : f "" = "") :
  (if !c.group.isTruthy then .ok "" else (Page.nameText c.group).map f) = .ok (f (groupText c)) := by
  rw [groupText]
  rcases h with h | ⟨s, h⟩
  · rw [h]
    exact congrArg Except.ok hf.symm
  · rw [h]
    by_cases hs : s = ""
    · rw [hs]
      exact congrArg Except.ok hf.symm
    · rw [if_neg (by simp [Value.isTruthy, hs])]
      rfl

lemma groupNames_length (h : ∀ c ∈ cards, HasGroup c) {groups : List String}
  (hgroups : groupNames cards = .ok groups) : groups.length = distinctCount (cards.map groupText) := by
  rcases bind_eq_ok.mp hgroups with ⟨names, hnames, hgroups⟩
  have hall : cards.mapM groupName = .ok (cards.map fun c => trim (groupText c)) := by
    rw [mapM_eq_ok_iff, forall₂_map_right_iff, forall₂_same]
    exact fun c hc => given_eq (h c hc) rfl
  have hmap : names = (cards.map groupText).map trim := by
    rw [map_map, ← Except.ok.inj (hnames.symm.trans hall).symm]
    rfl
  rw [← Except.ok.inj hgroups, hmap, length_distinct]

lemma shows_group (hgroup : HasGroup c) (h : cardHtml c = .ok text) :
  Shows (" data-group=\"" ++ lower (groupText c) ++ "\">") text := by
  rcases bind_eq_ok.mp h with ⟨shown, -, h⟩
  rcases bind_eq_ok.mp h with ⟨description, -, h⟩
  rcases bind_eq_ok.mp h with ⟨author, -, h⟩
  rcases bind_eq_ok.mp h with ⟨maintainer, -, h⟩
  rcases bind_eq_ok.mp h with ⟨license, -, h⟩
  rcases bind_eq_ok.mp h with ⟨framework, -, h⟩
  rcases bind_eq_ok.mp h with ⟨python, -, h⟩
  rcases bind_eq_ok.mp h with ⟨group, hname, h⟩
  rw [searchText, given_eq hgroup rfl] at hname
  cases hname
  rw [← Except.ok.inj h]
  -- eighteen pieces of the card come after its group
  iterate 18 refine Shows.append ?_ _
  exact shows_between _ "\"\n                " _ _ _ "\n                <h2>\n                    <a href=\""

lemma dashboardHtml_eq_ok (h : dashboardHtml cards site now = .ok page) :
  ∃ groups texts field, groupNames cards = .ok groups ∧ cards.mapM cardHtml = .ok texts ∧
    field .groupStatistics = groupStatistics groups.length ∧ field .libraries = String.join texts ∧
    page = String.join (dashboardTemplate.map (Sum.elim id field)) := by
  rcases bind_eq_ok.mp h with ⟨keywords, -, h⟩
  rcases bind_eq_ok.mp h with ⟨groups, hgroups, h⟩
  rcases bind_eq_ok.mp h with ⟨values, -, h⟩
  rcases bind_eq_ok.mp h with ⟨choices, -, h⟩
  rcases bind_eq_ok.mp h with ⟨texts, htexts, h⟩
  extract_lets field at h
  refine ⟨groups, texts, field, hgroups, htexts, rfl, rfl, ?_⟩
  rw [← Except.ok.inj h]
  congr 2
  funext piece
  cases piece <;> rfl

/-- The number of groups on a dashboard counts the names as they are written, and the cards have them
in lower case. The two numbers are the same exactly if no two names differ in case only. A browser
takes the group of a card to end at the first quotation mark, so it cuts a name with one. -/
theorem groups_counted_iff (hgroups : ∀ c ∈ cards, HasGroup c)
  (h : dashboardHtml cards site now = .ok page) :
  ∃ (count : Nat) (field : DashboardField → String) (texts : List String),
    page = String.join (dashboardTemplate.map (Sum.elim id field)) ∧
    field .groupStatistics = (if count = 0 then "" else "
            <div class=\"stat-card\">
                <div class=\"stat-value\">" ++ Number.ofInt count ++ "</div>
                <div class=\"stat-label\" data-i18n=\"groups\">Groups</div>
            </div>
        ") ∧
    field .libraries = String.join texts ∧
    Forall₂ (fun c => Shows (" data-group=\"" ++ lower (groupText c) ++ "\">")) cards texts ∧
    count = distinctCount (cards.map groupText) ∧
    (count = distinctCount (cards.map fun c => lower (groupText c)) ↔
      ∀ c ∈ cards, ∀ d ∈ cards, lower (trim (groupText c)) = lower (trim (groupText d)) →
        trim (groupText c) = trim (groupText d)) := by
  rcases dashboardHtml_eq_ok h with ⟨groups, texts, field, hnames, htexts, hcount, hcards, hpage⟩
  refine ⟨groups.length, field, texts, hpage, hcount, hcards, ?_, groupNames_length hgroups hnames, ?_⟩
  · have hcard := (forall₂_and_left _ _).mpr ⟨hgroups, mapM_eq_ok_iff.mp htexts⟩
    exact hcard.imp fun c text hc => shows_group hc.1 hc.2
  · rw [groupNames_length hgroups hnames]
    have hiff := distinctCount_lower_iff (cards.map groupText)
    simp only [map_map, forall_mem_map] at hiff
    exact hiff

/-- A group that is written in two ways is counted twice, and the cards have one value. -/
theorem groups_counted_iff_twoCases :
  let cards : List Card := [{ group := .str "Core" }, { group := .str " core" }]
  (∀ c ∈ cards, HasGroup c) ∧ distinctCount (cards.map fun c => lower (groupText c)) = 1 ∧
    ∃ page, dashboardHtml cards .null "" = .ok page ∧ ∃ field : DashboardField → String,
      page = String.join (dashboardTemplate.map (Sum.elim id field)) ∧
      field .groupStatistics = groupStatistics 2 := by
  intro cards
  have hgroups : ∀ c ∈ cards, HasGroup c :=
    forall_mem_cons.mpr ⟨.inr ⟨_, rfl⟩, forall_mem_singleton.mpr (.inr ⟨_, rfl⟩)⟩
  have hok : (dashboardHtml cards .null "").isOk := by decide +kernel
  cases h : dashboardHtml cards .null "" with
  | error e => rw [h] at hok; cases hok
  | ok page =>
    rcases groups_counted_iff hgroups h with ⟨count, field, texts, hpage, hstat, -, -, hcount, -⟩
    have htwo : distinctCount (cards.map groupText) = 2 := by decide +kernel
    rw [hcount, htwo] at hstat
    exact ⟨hgroups, by decide +kernel, page, rfl, field, hpage, hstat⟩

end KeywordDocs.Site
