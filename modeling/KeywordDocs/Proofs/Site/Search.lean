import KeywordDocs.Proofs.Page.Anchors
import KeywordDocs.Site.SearchIndex
import Mathlib.Data.List.Nodup

/-!
# Search Records and Keywords

The search of a site knows each keyword by a record, made from the card of its library. Where it leads to is
written on the library's page, which is made from the library itself.
-/

namespace KeywordDocs.Site

open Text Page Highlight List

/-- The fragment of an address: what follows its first `#`. -/
def fragment? (address : String) : Option String :=
  (address.toList.dropWhile (· ≠ '#')).tail?.map String.ofList

/-- The record of a keyword with this name has the address of a page with the keyword's anchor. The
anchor is the fragment of what comes of it exactly if the address of the page has no fragment itself. -/
structure LeadsTo (url name : String) (record : Json) : Prop where
  type : record.field? "type" = some (.str "keyword")
  keyword : record.field? "keyword" = some (.str name)
  fragment : fragment? (url ++ "#" ++ keywordId name) = some (keywordId name) ↔ '#' ∉ url.toList
  url : record.field? "url" = some (.str (url ++ "#" ++ keywordId name))

variable {lib : Library} {cardName : Value} {url : String} {own merged : Option Json} {card : Card}
  {records : List Json} {names : List String}

lemma collect_url (h : Card.collect lib cardName url own merged = .ok card) : card.url = .str url := by
  rcases bind_eq_ok.mp h with ⟨description, -, hcard⟩
  cases hcard
  rfl

lemma collect_keywords (h : Card.collect lib cardName url own merged = .ok card) :
  card.keywords = some (lib.keywords.map fun k => some ⟨k.name, summary k.description⟩) := by
  rcases bind_eq_ok.mp h with ⟨description, -, hcard⟩
  cases hcard
  rfl

lemma fragment?_append (url anchor : String) :
  fragment? (url ++ "#" ++ anchor) = some anchor ↔ '#' ∉ url.toList := by
  have htext : (url ++ "#" ++ anchor).toList = url.toList ++ '#' :: anchor.toList := by
    rw [String.toList_append, String.toList_append, append_assoc]
    rfl
  rw [fragment?, htext]
  constructor
  · intro h hmem
    -- After the first of two signs there is more than the anchor.
    rcases eq_append_cons_of_mem hmem with ⟨front, back, hurl, hfront⟩
    rw [hurl, append_assoc, dropWhile_append_of_pos fun c hc => by simpa using ne_of_mem_of_not_mem hc hfront,
      cons_append, dropWhile_cons_of_neg (by simp)] at h
    have hlength := congrArg String.length (Option.some.inj h)
    rw [String.length_ofList, length_append, length_cons, String.length_toList] at hlength
    omega
  · intro hmem
    rw [dropWhile_append_of_pos fun c hc => by simpa using ne_of_mem_of_not_mem hc hmem,
      dropWhile_cons_of_neg (by simp)]
    exact congrArg some String.ofList_toList

lemma nameText_eq_ok {value : Value} {name : String} (h : nameText value = .ok name) :
  value = .str name := by
  cases value with
  | str s =>
    cases h
    rfl
  | _ => cases h

lemma keywordRecord_eq_ok {k : Option KeywordSummary} {record : Json} (hurl : card.url = .str url)
  (h : keywordRecord card k = .ok record) :
  ∃ name, k.map KeywordSummary.name = some (.str name) ∧ LeadsTo url name record := by
  cases k with
  | none => cases h
  | some k =>
    rcases bind_eq_ok.mp h with ⟨name, hname, hrecord⟩
    cases hrecord
    refine ⟨name, congrArg some (nameText_eq_ok hname), ?_⟩
    rw [hurl]
    exact ⟨rfl, rfl, fragment?_append url _, rfl⟩

lemma cardRecords_eq_ok (h : cardRecords card = .ok records) :
  ∃ keywords found, card.keywords = some keywords ∧ keywords.mapM (keywordRecord card) = .ok found ∧
    records = libraryRecord card :: found := by
  rw [cardRecords] at h
  cases hkeywords : card.keywords with
  | none =>
    rw [hkeywords] at h
    cases h
  | some keywords =>
    rw [hkeywords] at h
    rcases bind_eq_ok.mp h with ⟨found, hfound, hall⟩
    cases hall
    exact ⟨keywords, found, rfl, hfound, rfl⟩

lemma url_of_mem_cardRecords {record : Json} (hrecords : cardRecords card = .ok records)
  (hurl : card.url = .str url) (h : record ∈ records) :
  ∃ fragment, record.field? "url" = some (.str (url ++ fragment)) ∧
    (fragment = "" ∨ ∃ anchor, fragment = "#" ++ anchor) := by
  rcases cardRecords_eq_ok hrecords with ⟨keywords, found, -, hfound, rfl⟩
  rcases mem_cons.mp h with rfl | hmem
  · refine ⟨"", ?_, .inl rfl⟩
    rw [String.append_empty, libraryRecord, hurl]
    rfl
  · rcases (mem_mapM_iff hfound).mp hmem with ⟨k, -, hrecord⟩
    rcases keywordRecord_eq_ok hurl hrecord with ⟨name, -, hleads⟩
    refine ⟨"#" ++ keywordId name, ?_, .inr ⟨_, rfl⟩⟩
    rw [← String.append_assoc]
    exact hleads.url

lemma cardRecords_of_names (hcard : Card.collect lib cardName url own merged = .ok card)
  (hnames : lib.keywordNames = names.map Value.str) :
  ∃ records, cardRecords card = .ok (libraryRecord card :: records) ∧
    List.Forall₂ (LeadsTo url) names records := by
  have hmade : ∃ records, (lib.keywords.map fun k => some ⟨k.name, summary k.description⟩).mapM
      (keywordRecord card) = .ok records := by
    refine mapM_succeeds_iff.mpr (forall_mem_map.mpr fun k hk => ?_)
    have hmem : k.name ∈ names.map Value.str := hnames ▸ mem_map_of_mem hk
    rcases mem_map.mp hmem with ⟨name, -, hname⟩
    rw [← hname]
    exact ⟨_, rfl⟩
  rcases hmade with ⟨records, hrecords⟩
  refine ⟨records, ?_, ?_⟩
  · rw [cardRecords, collect_keywords hcard]
    dsimp only
    rw [hrecords]
    rfl
  · refine forall₂_names hnames (forall₂_map_left_iff.mp (mapM_eq_ok_iff.mp hrecords)) ?_
    intro k name record hname hrecord
    rcases keywordRecord_eq_ok (collect_url hcard) hrecord with ⟨name', hsame, hleads⟩
    rw [Option.map_some, hname] at hsame
    cases hsame
    exact hleads

lemma searchIndex_of_cardRecords {before after : List Card} {earlier later : List (List Json)}
  (hcard : cardRecords card = .ok records)
  (hbefore : before.mapM cardRecords = .ok earlier) (hafter : after.mapM cardRecords = .ok later) :
  searchIndex (before ++ card :: after) = .ok (.arr (earlier.flatten ++ records ++ later.flatten)) := by
  rw [searchIndex, mapM_append, hbefore, mapM_cons, hcard, hafter]
  show Except.ok (Json.arr (earlier ++ records :: later).flatten) = _
  rw [flatten_append, flatten_cons, append_assoc]

lemma anchors_nodup (hdistinct : (names.map lower).Nodup) (hdash : ∀ name ∈ names, '-' ∉ name.toList) :
  (names.map keywordId).Nodup := by
  refine List.Nodup.map_on (fun a ha b hb hid => ?_) (List.Nodup.of_map lower hdistinct)
  exact inj_on_of_nodup_map hdistinct ha hb
    (lower_eq_of_keywordId_eq (hdash a ha) (hdash b hb) hid)

/-- Where the search leads. Let a library have keywords with names that differ in lower case and have no
dashes. The records of a site have one for the library and after it one for each keyword, in order.
Each of these has the address of the page with the anchor that is written on the page in the keyword's
entry in the list and at the keyword's section; it leads to the anchor exactly if the address of the
page has no `#`. Both places are in the order of the keywords too, and no two keywords have the same
anchor. -/
theorem search_leads_to_keywords {lib : Library} {names : List String} {cardName : Value}
  {url template now page : String} {own merged : Option Json} {card : Card} {config : Json}
  {highlighting : Bool} {v : Vocabulary} (hnames : lib.keywordNames = names.map Value.str)
  (hdistinct : (names.map lower).Nodup) (hdash : ∀ name ∈ names, '-' ∉ name.toList)
  (hlist : hole "KEYWORD_LIST" <:+: template.toList)
  (hsections : hole "KEYWORDS_SECTION" <:+: template.toList)
  (hcard : Card.collect lib cardName url own merged = .ok card)
  (hpage : (outcome (html template config lib now highlighting) v).1 = .ok page) :
  ∃ records, List.Forall₂ (LeadsTo url) names records ∧
    (libraryRecord card).field? "type" = some (.str "library") ∧
    (∀ before after earlier later, before.mapM cardRecords = .ok earlier →
      after.mapM cardRecords = .ok later →
      searchIndex (before ++ card :: after) =
        .ok (.arr (earlier.flatten ++ libraryRecord card :: records ++ later.flatten))) ∧
    Listed keywordLink linkOpening lib.keywords names page.toList ∧
    Listed keywordSection sectionOpening lib.keywords names page.toList ∧
    (names.map keywordId).Nodup := by
  rcases cardRecords_of_names hcard hnames with ⟨records, hrecords, hleads⟩
  rcases html_items hpage hnames with ⟨hlinks, hcontainers⟩
  refine ⟨records, hleads, rfl, ?_, hlinks hlist, hcontainers hsections, anchors_nodup hdistinct hdash⟩
  intro before after earlier later hbefore hafter
  exact searchIndex_of_cardRecords hrecords hbefore hafter

/-- Names that differ little, one of them with a placeholder in it. -/
def shelfNames : List String := ["Open \x7b\x7bVERSION\x7d\x7d", "Open Version", "OpenVersion"]

/-- A library of keywords with such names. -/
def shelf : Library where
  name := .str "Shelf"
  version := .str "1.0"
  scope := .str "TEST"
  description := .str ""
  keywords := shelfNames.map fun name => { name := .str name }

/-- The anchors stay when the placeholder in a name is filled. With a `#` in the address of the page no
record leads to its anchor. -/
theorem search_leads_to_keywords_shelf : ∃ card page records,
  Card.collect shelf (.str "Shelf") "C#/index.html" none none = .ok card ∧
  (outcome (html pageTemplate (.obj []) shelf "" false) {}).1 = .ok page ∧
  List.Forall₂ (LeadsTo "C#/index.html") shelfNames records ∧
  List.Forall₂ (fun name record => ∃ address, Json.field? "url" record = some (.str address) ∧
    fragment? address ≠ some (keywordId name)) shelfNames records ∧
  searchIndex [card] = .ok (.arr (libraryRecord card :: records)) ∧
  Listed keywordLink linkOpening shelf.keywords shelfNames page.toList ∧
  Listed keywordSection sectionOpening shelf.keywords shelfNames page.toList ∧
  (shelfNames.map keywordId).Nodup := by
  have hmade : ∃ page, (outcome (html pageTemplate (.obj []) shelf "" false) {}).1 = .ok page := by
    have htexts : (outcome (pageTexts (.obj []) shelf "" false) {}).1.isOk := by decide +kernel
    rw [outcome_html]
    cases h : (outcome (pageTexts (.obj []) shelf "" false) {}).1 with
    | error e =>
      rw [h] at htexts
      cases htexts
    | ok texts => exact ⟨_, rfl⟩
  have hcollected : ∃ card,
      Card.collect shelf (.str "Shelf") "C#/index.html" none none = .ok card := ⟨_, rfl⟩
  have hnames : shelf.keywordNames = shelfNames.map Value.str := rfl
  rcases hmade with ⟨page, hpage⟩
  rcases hcollected with ⟨card, hcard⟩
  rcases search_leads_to_keywords hnames (by decide +kernel) (by decide) holes_of_pageTemplate.1
    holes_of_pageTemplate.2 hcard hpage with ⟨records, hleads, -, hindex, hplaces⟩
  have hall := hindex [] [] [] [] rfl rfl
  rw [flatten_nil, nil_append, append_nil] at hall
  refine ⟨card, page, records, hcard, hpage, hleads, hleads.imp fun name record h => ?_, hall, hplaces⟩
  exact ⟨_, h.url, fun hfragment => h.fragment.mp hfragment (by decide)⟩

end KeywordDocs.Site
