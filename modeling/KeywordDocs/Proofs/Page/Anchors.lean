import KeywordDocs.Proofs.Page.Filling

/-!
# Anchors of Keywords

The anchor of a keyword is its name in lower case with dashes for spaces. Lower case never makes a dash
(`mem_lower`), so the anchors of names without dashes differ if they do in lower case
(`lower_eq_of_keywordId_eq`).
-/

namespace KeywordDocs.Page

open Text Highlight
open String (toList_append)
open List hiding replace

variable {c d : Char} {before after cs : List Char}

lemma lowerRuns_above : ∀ r ∈ lowerRuns, (97 : Int) ≤ r.first + r.shift := by
  rw [lowerRuns, numbers_ofList]
  decide +kernel

lemma image?_above {r : CaseRun} {n m : Nat} (hr : (97 : Int) ≤ r.first + r.shift)
  (h : r.image? n = some m) : 97 ≤ m := by
  rw [CaseRun.image?] at h
  split at h
  case isTrue hcovers =>
    cases h
    omega
  case isFalse => cases h

lemma isUpper_iff (c : Char) : c.isUpper ↔ 65 ≤ c.toNat ∧ c.toNat ≤ 90 := decide_eq_true_iff

def AboveCapitals (c : Char) : Prop := c.toNat = 0 ∨ 97 ≤ c.toNat

lemma AboveCapitals.ofNat {n : Nat} (h : 97 ≤ n) : AboveCapitals (Char.ofNat n) := by
  by_cases hvalid : n.isValidChar
  · have hchar : Char.ofNat n = Char.ofNatAux n hvalid := dif_pos hvalid
    rw [hchar]
    exact .inr h
  · have hchar : Char.ofNat n = Char.ofNat 0 := dif_neg hvalid
    rw [hchar]
    exact .inl rfl

lemma toLower_of_ascii (h : c.toNat < 128) :
  (c.toLower = c ∧ c.isUpper = false) ∨ AboveCapitals c.toLower := by
  have hall : ∀ n < 128, ((Char.ofNat n).toLower = Char.ofNat n ∧ (Char.ofNat n).isUpper = false) ∨
      97 ≤ (Char.ofNat n).toLower.toNat := by
    decide
  have hc := hall c.toNat h
  rw [Char.ofNat_toNat] at hc
  exact hc.imp_right .inr

lemma mem_lowerWithin (h : d ∈ lowerWithin before c after) :
  (d = c ∧ c.isUpper = false) ∨ AboveCapitals d := by
  rw [lowerWithin, lowerChar] at h
  split at h
  · -- A sigma becomes one of two small ones.
    split at h
    · rw [mem_singleton.mp h]
      exact .inr (.ofNat (by decide))
    · rw [mem_singleton.mp h]
      exact .inr (.ofNat (by decide))
  · split at h
    case isTrue hascii =>
      rw [mem_singleton.mp h]
      exact toLower_of_ascii hascii
    case isFalse hother =>
      split at h
      · have hdotted : d = Char.ofNat 105 ∨ d = Char.ofNat 775 := by simpa using h
        rcases hdotted with rfl | rfl
        · exact .inr (.ofNat (by decide))
        · exact .inr (.ofNat (by decide))
      · rw [mem_singleton, applyRuns] at h
        cases hrun : lowerRuns.findSome? (·.image? c.toNat) with
        | none =>
          rw [hrun] at h
          subst h
          have hlarge : 128 ≤ d.toNat := Nat.le_of_not_lt hother
          exact .inr (.inr (by omega))
        | some n =>
          rw [hrun] at h
          subst h
          rcases exists_of_findSome?_eq_some hrun with ⟨r, hr, himage⟩
          exact .inr (.ofNat (image?_above (lowerRuns_above r hr) himage))

lemma mem_lowerFrom (h : d ∈ lowerFrom before cs) :
  (d ∈ cs ∧ d.isUpper = false) ∨ AboveCapitals d := by
  induction cs generalizing before with
  | nil => cases h
  | cons c cs ih =>
    rw [lowerFrom, mem_append] at h
    rcases h with hfirst | hrest
    · rcases mem_lowerWithin hfirst with ⟨rfl, hsmall⟩ | hother
      · exact .inl ⟨mem_cons_self, hsmall⟩
      · exact .inr hother
    · exact (ih hrest).imp_left fun h => ⟨mem_cons_of_mem c h.1, h.2⟩

lemma mem_lower {s : String} (h : d ∈ (lower s).toList) :
  d.isUpper = false ∧ (0 < d.toNat → d.toNat < 97 → d ∈ s.toList) := by
  rw [lower, String.toList_ofList] at h
  rcases mem_lowerFrom h with ⟨hmem, hsmall⟩ | habove
  · exact ⟨hsmall, fun _ _ => hmem⟩
  · rw [AboveCapitals] at habove
    refine ⟨?_, ?_⟩
    · rw [Bool.eq_false_iff, ne_eq, isUpper_iff]
      omega
    · intro hpos hlow
      omega

variable {a b name : String}

def dashed (c : Char) : Char :=
  if c = ' ' then '-' else c

def spaced (c : Char) : Char :=
  if c = '-' then ' ' else c

lemma spaced_dashed {c : Char} (h : c ≠ '-') : spaced (dashed c) = c := by
  rw [dashed]
  split
  case isTrue hspace =>
    rw [hspace]
    rfl
  case isFalse => exact if_neg h

lemma replaceChars_space (cs : List Char) : replaceChars [' '] ['-'] cs = cs.map dashed := by
  have hfrom : ∀ cs : List Char, replaceFrom [' '] ['-'] 0 cs = cs.map dashed := by
    intro cs
    induction cs with
    | nil => rfl
    | cons c cs ih =>
      rw [replaceFrom, map_cons, ← ih, dashed]
      by_cases hc : c = ' '
      · subst hc
        rfl
      · rw [if_neg hc, if_neg]
        simpa using fun h => hc h.symm
  exact hfrom cs

lemma toList_keywordId (name : String) : (keywordId name).toList = (lower name).toList.map dashed := by
  have hspace : " ".toList = [' '] := by decide
  have hdash : "-".toList = ['-'] := by decide
  rw [keywordId, replace, String.toList_ofList, hspace, hdash, replaceChars_space]

lemma isUpper_of_mem_keywordId {c : Char} (h : c ∈ (keywordId name).toList) : c.isUpper = false := by
  rw [toList_keywordId] at h
  rcases mem_map.mp h with ⟨d, hd, rfl⟩
  rw [dashed]
  split
  · decide
  · exact (mem_lower hd).1

lemma lower_eq_of_keywordId_eq (ha : '-' ∉ a.toList) (hb : '-' ∉ b.toList)
  (h : keywordId a = keywordId b) : lower a = lower b := by
  have hback : ∀ s : String, '-' ∉ s.toList → ((keywordId s).toList.map spaced) = (lower s).toList := by
    intro s hs
    have hid : ∀ c ∈ (lower s).toList, spaced (dashed c) = c := by
      intro c hc
      refine spaced_dashed ?_
      rintro rfl
      exact hs ((mem_lower hc).2 (by decide) (by decide))
    rw [toList_keywordId, map_map]
    exact (map_congr_left hid).trans (map_id _)
  rw [← String.toList_inj, ← hback a ha, ← hback b hb, h]

variable {texts : List (String × String)} {a b sep : List Char}

lemma fillInTurn_nil : fillInTurn texts [] = [] :=
  fillInTurn_eq_self fun e _ hoccurs => hole_ne_nil e.1 (infix_nil.mp hoccurs)

def Block (cs : List Char) : Prop := ∃ inner, cs = '<' :: (inner ++ ['>'])

lemma Block.append (ha : Block a) (hb : Block b) (sep : List Char) : Block (a ++ sep ++ b) := by
  rcases ha with ⟨inner, rfl⟩
  rcases hb with ⟨inner', rfl⟩
  exact ⟨inner ++ ['>'] ++ sep ++ '<' :: inner', by simp⟩

lemma Block.intercalate {items : List (List Char)} (h : ∀ item ∈ items, Block item) (hne : items ≠ [])
  (sep : List Char) : Block (List.intercalate sep items) := by
  induction items with
  | nil => cases hne rfl
  | cons item items ih =>
    rw [forall_mem_cons] at h
    cases items with
    | nil =>
      rw [intercalate_singleton]
      exact h.1
    | cons next items =>
      rw [intercalate_cons_cons]
      exact h.1.append (ih h.2 (cons_ne_nil _ _)) sep

section Holes

variable (hchars : ∀ e ∈ texts, e.1.toList.all isHoleChar)

include hchars

lemma not_mem_hole {c : Char} (hc : isHoleChar c = false) : ∀ e ∈ texts, c ∉ hole e.1 := by
  intro e he hmem
  rw [isHoleChar_of_mem (hchars e he) c hmem] at hc
  cases hc

lemma fillInTurn_front (hsep : ∀ c ∈ sep, isHoleChar c = false) (b : List Char) :
  fillInTurn texts (sep ++ b) = sep ++ fillInTurn texts b := by
  induction sep with
  | nil => rfl
  | cons c sep ih =>
    rw [forall_mem_cons] at hsep
    have hcut := fillInTurn_cut (not_mem_hole hchars hsep.1) [] (sep ++ b)
    rw [nil_append, fillInTurn_nil, nil_append, ih hsep.2] at hcut
    exact hcut

lemma fillInTurn_apart (hsep : ∀ c ∈ sep, isHoleChar c = false) (hne : sep ≠ []) (a b : List Char) :
  fillInTurn texts (a ++ (sep ++ b)) = fillInTurn texts a ++ (sep ++ fillInTurn texts b) := by
  cases sep with
  | nil => cases hne rfl
  | cons c sep =>
    rw [forall_mem_cons] at hsep
    rw [cons_append, fillInTurn_cut (not_mem_hole hchars hsep.1), fillInTurn_front hchars hsep.2, cons_append]

lemma fillInTurn_intercalate (hsep : ∀ c ∈ sep, isHoleChar c = false) (hne : sep ≠ [])
  (items : List (List Char)) :
  fillInTurn texts (List.intercalate sep items) = List.intercalate sep (items.map (fillInTurn texts)) := by
  induction items with
  | nil => exact fillInTurn_nil
  | cons item items ih =>
    cases items with
    | nil => rw [map_singleton, intercalate_singleton, intercalate_singleton]
    | cons next items =>
      rw [map_cons, map_cons, intercalate_cons_cons, intercalate_cons_cons, ← map_cons, ← ih,
        append_assoc, append_assoc, fillInTurn_apart hchars hsep hne]

lemma fillInTurn_block (h : Block cs) (a b : List Char) :
  fillInTurn texts (a ++ (cs ++ b)) = fillInTurn texts a ++ (fillInTurn texts cs ++ fillInTurn texts b) := by
  rcases h with ⟨inner, rfl⟩
  have hopen := not_mem_hole hchars (c := '<') (by decide)
  have hclose := not_mem_hole hchars (c := '>') (by decide)
  have hinner : ∀ b, fillInTurn texts ('<' :: (inner ++ '>' :: b)) =
      '<' :: (fillInTurn texts inner ++ '>' :: fillInTurn texts b) := by
    intro b
    have hcut := fillInTurn_cut hopen [] (inner ++ '>' :: b)
    rwa [nil_append, fillInTurn_nil, nil_append, fillInTurn_cut hclose] at hcut
  rw [hinner, fillInTurn_nil, cons_append, append_assoc, singleton_append,
    fillInTurn_cut hopen, fillInTurn_cut hclose]
  simp

lemma prefix_fillInTurn (hcapital : ∀ e ∈ texts, ∃ c ∈ e.1.toList, c.isUpper) {opening : List Char}
  (hopening : ∀ c ∈ opening, c.isUpper = false) (h : opening ++ ['>'] <+: cs) :
  opening ++ ['>'] <+: fillInTurn texts cs := by
  rcases h with ⟨rest, rfl⟩
  have hself : fillInTurn texts opening = opening := by
    refine fillInTurn_eq_self fun e he hoccurs => ?_
    rcases hcapital e he with ⟨c, hc, hupper⟩
    have hmem : c ∈ hole e.1 := by
      rw [hole_eq]
      exact mem_cons_of_mem _ (mem_cons_of_mem _ (mem_append_left _ hc))
    rw [hopening c (hoccurs.subset hmem)] at hupper
    cases hupper
  rw [append_assoc, singleton_append, fillInTurn_cut (not_mem_hole hchars (c := '>') (by decide)), hself]
  exact ⟨fillInTurn texts rest, by simp⟩

end Holes

variable {config : Json} {lib : Library} {items : List String} {tag closing : String}
  {now template page : String} {highlighting : Bool} {v : Vocabulary} {names : List String}

lemma isHoleChar_of_mem_indent : ∀ c ∈ indent.toList, isHoleChar c = false := by decide

lemma items_of_fillInTurn {n : String} (hnames : texts.map Prod.fst = pageHoles)
  (hmem : (n, join indent items) ∈ texts)
  (hblock : ∀ item ∈ items, Block item.toList) (hhole : hole n <:+: cs) :
  ∃ later, later ⊆ texts ∧
    List.intercalate indent.toList (items.map fun item => fillInTurn later item.toList) <:+:
      fillInTurn texts cs := by
  have hholes : ∀ e ∈ texts, e.1 ∈ pageHoles := fun e he => hnames ▸ mem_map_of_mem he
  have hbraceless : ∀ e ∈ texts, Braceless e.1 := fun e he =>
    (by decide : ∀ n ∈ pageHoles, Braceless n) _ (hholes e he)
  have hchars : ∀ e ∈ texts, e.1.toList.all isHoleChar := fun e he =>
    (by decide : ∀ n ∈ pageHoles, n.toList.all isHoleChar) _ (hholes e he)
  rcases append_of_mem hmem with ⟨earlier, later, rfl⟩
  refine ⟨later, fun e he => mem_append_right _ (mem_cons_of_mem _ he), ?_⟩
  rcases hhole with ⟨front, back, rfl⟩
  rw [forall_mem_append, forall_mem_cons] at hbraceless hchars
  have hearlier : ∀ e ∈ earlier, e.1 ≠ n := by
    have hdistinct : ((earlier ++ (n, join indent items) :: later).map Prod.fst).Nodup := hnames ▸ (by decide)
    rw [map_append, map_cons, nodup_append] at hdistinct
    intro e he
    exact hdistinct.2.2 e.1 (mem_map_of_mem he) n mem_cons_self
  -- The placeholder is still there when its turn comes, and what is filled in then is not.
  have hturn : fillInTurn (earlier ++ (n, join indent items) :: later) (front ++ hole n ++ back) =
      fillInTurn later (fillOnce [(n, join indent items)] (fillInTurn earlier front) ++
        ((join indent items).toList ++ fillOnce [(n, join indent items)] (fillInTurn earlier back))) := by
    have hlookup : [(n, join indent items)].lookup n = some (join indent items) := by
      rw [lookup_cons, beq_self_eq_true]
    have hfold : fillInTurn (earlier ++ (n, join indent items) :: later) (front ++ hole n ++ back) =
        fillInTurn ((n, join indent items) :: later) (fillInTurn earlier (front ++ hole n ++ back)) :=
      foldl_append
    rw [hfold, append_assoc, fillInTurn_hole hbraceless.1 hbraceless.2.1 hearlier, fillInTurn_cons,
      fillOnce_hole (forall_mem_singleton.mpr hbraceless.2.1) hbraceless.2.1, hlookup]
    rfl
  rw [hturn, toList_join]
  have hinner := fillInTurn_intercalate hchars.2.2 isHoleChar_of_mem_indent (by decide)
    (items.map String.toList)
  rw [map_map] at hinner
  cases items with
  | nil => exact nil_infix
  | cons item items =>
    have hwhole : Block (List.intercalate indent.toList ((item :: items).map String.toList)) :=
      Block.intercalate (forall_mem_map.mpr hblock) (cons_ne_nil _ _) _
    rw [fillInTurn_block hchars.2.2 hwhole, hinner, ← append_assoc]
    exact ⟨_, _, rfl⟩

/-- A tag up to its end, with the anchor of a keyword as the last value. -/
def anchored (tag name : String) : String :=
  tag ++ keywordId name ++ "\">"

/-- How the entry of a keyword in the list begins. -/
def linkOpening (name : String) : String :=
  anchored "<li><a href=\"#" name

/-- How the section of a keyword begins. -/
def sectionOpening (name : String) : String :=
  anchored "<div class=\"keyword-container\" id=\"" name

lemma anchored_fillInTurn {tag name : String} (hnames : ∀ e ∈ texts, e.1 ∈ pageHoles)
  (htag : tag.toList.all (fun c => !c.isUpper))
  (h : (anchored tag name).toList <+: cs) : (anchored tag name).toList <+: fillInTurn texts cs := by
  have hsplit : (anchored tag name).toList =
      tag.toList ++ (keywordId name).toList ++ ['"'] ++ ['>'] := by
    rw [anchored, toList_append, toList_append, append_assoc _ ['"']]
    rfl
  have hchars : ∀ e ∈ texts, e.1.toList.all isHoleChar := fun e he =>
    (by decide : ∀ n ∈ pageHoles, n.toList.all isHoleChar) _ (hnames e he)
  have hcapital : ∀ e ∈ texts, ∃ c ∈ e.1.toList, c.isUpper := fun e he => by
    have hany := (by decide : ∀ n ∈ pageHoles, n.toList.any Char.isUpper) _ (hnames e he)
    exact any_eq_true.mp hany
  rw [hsplit] at h ⊢
  refine prefix_fillInTurn hchars hcapital (fun c hc => ?_) h
  rcases mem_append.mp hc with hc | hc
  · rcases mem_append.mp hc with hc | hc
    · have hsmall := all_eq_true.mp htag c hc
      rwa [Bool.not_eq_true'] at hsmall
    · exact isUpper_of_mem_keywordId hc
  · rw [mem_singleton] at hc
    subst hc
    rfl

lemma opens_and_block {cs inner inner' : List Char} (htag : tag.toList = '<' :: inner)
  (hclosing : closing.toList = inner' ++ ['>']) :
  (anchored tag name).toList <+: (anchored tag name).toList ++ cs ++ closing.toList ∧
    Block ((anchored tag name).toList ++ cs ++ closing.toList) := by
  refine ⟨⟨cs ++ closing.toList, (append_assoc _ _ _).symm⟩, ?_⟩
  rw [anchored, toList_append, toList_append, htag, hclosing]
  exact ⟨inner ++ (keywordId name).toList ++ "\">".toList ++ cs ++ inner', by simp⟩

lemma keywordLink_eq_ok {k : Keyword} {name link : String} (hname : k.name = .str name)
  (h : keywordLink k = .ok link) : (linkOpening name).toList <+: link.toList ∧ Block link.toList := by
  rw [keywordLink, hname] at h
  cases h
  have hlink : ("<li><a href=\"#" ++ keywordId name ++ "\">" ++ name ++ "</a></li>").toList =
      (linkOpening name).toList ++ name.toList ++ "</a></li>".toList := by
    rw [toList_append, toList_append]
    rfl
  rw [hlink]
  exact opens_and_block rfl (show _ = "</a></li".toList ++ ['>'] from rfl)

lemma opens_and_block_lines {ls : List String} {inner inner' : List Char}
  (hfirst : ls.head? = some (anchored tag name)) (htag : tag.toList = '<' :: inner)
  (hclosing : closing.toList = inner' ++ ['>']) :
  (anchored tag name).toList <+: (unlines (ls ++ [closing])).toList ∧
    Block (unlines (ls ++ [closing])).toList := by
  rcases head?_eq_some_iff.mp hfirst with ⟨rest, rfl⟩
  rw [unlines, toList_join, map_append, map_singleton, intercalate_concat, map_cons,
    flatMap_cons, append_assoc (anchored tag name).toList]
  exact opens_and_block htag hclosing

lemma keywordSection_eq_ok {k : Keyword} {name text : String} (hname : k.name = .str name)
  (h : keywordSection k = .ok text) :
  (sectionOpening name).toList <+: text.toList ∧ Block text.toList := by
  rcases bind_eq_ok.mp h with ⟨s, hs, htext⟩
  rcases bind_eq_ok.mp hs with ⟨name', hname', hs⟩
  rcases bind_eq_ok.mp hs with ⟨ps, -, hs⟩
  rw [hname] at hname'
  cases hname'
  cases hs
  cases htext
  exact opens_and_block_lines rfl rfl (show _ = "</div".toList ++ ['>'] from rfl)

lemma filling_str (n s : String) : filling (n, .str s) = .ok (n, s) := by
  rw [filling, fillingText]
  split
  case isTrue hempty =>
    have hs : s = "" := by simpa [Value.isTruthy] using hempty
    rw [hs]
    rfl
  case isFalse => rfl

lemma pageTexts_items (h : (outcome (pageTexts config lib now highlighting) v).1 = .ok texts) :
  ∃ items, lib.keywords.mapM (fun k => do return (← keywordLink k, ← keywordSection k)) =
      (.ok items : Except Fault _) ∧
    ("KEYWORD_LIST", join indent (items.map Prod.fst)) ∈ texts ∧
    ("KEYWORDS_SECTION", join indent (items.map Prod.snd)) ∈ texts := by
  rcases pageTexts_eq_ok h with ⟨items, values, hitems, htexts, -, hlinks, hsections⟩
  exact ⟨items, hitems, (mem_mapM_iff htexts).mpr ⟨_, hlinks, filling_str _ _⟩,
    (mem_mapM_iff htexts).mpr ⟨_, hsections, filling_str _ _⟩⟩

/-- What is made for keywords stands on a page, one after another, each with its beginning. Where it
stands, other placeholders of the page may have been filled in it. -/
def Listed (make : Keyword → Except Fault String) (opening : String → String) (keywords : List Keyword)
  (names : List String) (page : List Char) : Prop :=
  ∃ items later, keywords.mapM make = .ok items ∧ (∀ e ∈ later, e.1 ∈ pageHoles) ∧
    List.Forall₂ (fun name item => (opening name).toList <+: fillInTurn later item.toList) names items ∧
    List.intercalate indent.toList (items.map fun item => fillInTurn later item.toList) <:+: page

lemma listed_of_fillInTurn {n tag : String} {make : Keyword → Except Fault String}
  {keywords : List Keyword} (hmake : keywords.mapM make = .ok items)
  (hnames : texts.map Prod.fst = pageHoles) (hmem : (n, join indent items) ∈ texts)
  (htag : tag.toList.all (fun c => !c.isUpper))
  (hitems : List.Forall₂ (fun name item => (anchored tag name).toList <+: item.toList ∧
    Block item.toList) names items)
  (hhole : hole n <:+: cs) : Listed make (anchored tag) keywords names (fillInTurn texts cs) := by
  have hblock : ∀ item ∈ items, Block item.toList := by
    intro item hitem
    rcases forall₂_exists_left hitems hitem with ⟨_, _, h⟩
    exact h.2
  rcases items_of_fillInTurn hnames hmem hblock hhole with ⟨later, hlater, hstand⟩
  have hholes : ∀ e ∈ later, e.1 ∈ pageHoles := fun e he => hnames ▸ mem_map_of_mem (hlater he)
  exact ⟨items, later, hmake, hholes, hitems.imp fun _ _ h => anchored_fillInTurn hholes htag h.1, hstand⟩

lemma forall₂_names {α : Type} {keywords : List Keyword} {items : List α} {R : Keyword → α → Prop}
  {S : String → α → Prop} (hnames : keywords.map Keyword.name = names.map Value.str)
  (h : List.Forall₂ R keywords items)
  (hstep : ∀ k name item, k.name = .str name → R k item → S name item) :
  List.Forall₂ S names items := by
  induction h generalizing names with
  | nil =>
    rw [map_nil, eq_comm, map_eq_nil_iff] at hnames
    rw [hnames]
    exact .nil
  | cons hfirst _ ih =>
    rw [map_cons, eq_comm, map_eq_cons_iff] at hnames
    rcases hnames with ⟨name, names, rfl, hname, hrest⟩
    exact .cons (hstep _ _ _ hname.symm hfirst) (ih hrest.symm)

lemma html_items (hpage : (outcome (html template config lib now highlighting) v).1 = .ok page)
  (hnames : lib.keywordNames = names.map Value.str) :
  (hole "KEYWORD_LIST" <:+: template.toList →
      Listed keywordLink linkOpening lib.keywords names page.toList) ∧
    (hole "KEYWORDS_SECTION" <:+: template.toList →
      Listed keywordSection sectionOpening lib.keywords names page.toList) := by
  rw [outcome_html] at hpage
  cases htexts : (outcome (pageTexts config lib now highlighting) v).1 with
  | error e =>
    rw [htexts] at hpage
    cases hpage
  | ok texts =>
    rw [htexts] at hpage
    cases hpage
    rw [String.toList_ofList]
    rcases pageTexts_items htexts with ⟨items, hitems, hlinks, hsections⟩
    have hpairs : List.Forall₂ (fun k item => keywordLink k = .ok item.1 ∧ keywordSection k = .ok item.2)
        lib.keywords items := by
      refine (mapM_eq_ok_iff.mp hitems).imp fun k item h => ?_
      rcases bind_eq_ok.mp h with ⟨link, hlink, h⟩
      rcases bind_eq_ok.mp h with ⟨text, htext, h⟩
      cases h
      exact ⟨hlink, htext⟩
    have hmade : List.Forall₂ (fun name item =>
        ((linkOpening name).toList <+: item.1.toList ∧ Block item.1.toList) ∧
          (sectionOpening name).toList <+: item.2.toList ∧ Block item.2.toList) names items := by
      exact forall₂_names hnames hpairs fun k name item hname h =>
        ⟨keywordLink_eq_ok hname h.1, keywordSection_eq_ok hname h.2⟩
    have hnamed := pageTexts_names htexts
    have hlist := mapM_eq_ok_iff.mpr (forall₂_map_right_iff.mpr (hpairs.imp fun _ _ h => h.1))
    have hsection := mapM_eq_ok_iff.mpr (forall₂_map_right_iff.mpr (hpairs.imp fun _ _ h => h.2))
    exact ⟨listed_of_fillInTurn hlist hnamed hlinks (by decide)
        (forall₂_map_right_iff.mpr (hmade.imp fun _ _ h => h.1)),
      listed_of_fillInTurn hsection hnamed hsections (by decide)
        (forall₂_map_right_iff.mpr (hmade.imp fun _ _ h => h.2))⟩

lemma holes_of_pageTemplate : hole "KEYWORD_LIST" <:+: pageTemplate.toList ∧
  hole "KEYWORDS_SECTION" <:+: pageTemplate.toList := by
  have hlist : hole "KEYWORD_LIST" = "\x7b\x7bKEYWORD_LIST\x7d\x7d".toList := rfl
  have hsections : hole "KEYWORDS_SECTION" = "\x7b\x7bKEYWORDS_SECTION\x7d\x7d".toList := rfl
  rw [pageTemplate, toList_append, toList_append, toList_append,
    toList_append, hlist, hsections]
  refine ⟨?_, ⟨_, _, rfl⟩⟩
  rw [append_assoc, append_assoc]
  exact ⟨_, _, rfl⟩

end KeywordDocs.Page
