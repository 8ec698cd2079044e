import KeywordDocs.Proofs.Command.Pages
import KeywordDocs.Proofs.Command.Ready
import KeywordDocs.Proofs.Site.Search

/-!
# Links to Pages

A dashboard and every record of its search index link to the pages of libraries. The address is made of the
last two parts of a page's path, whatever directory the pages are in.
-/

namespace KeywordDocs.Command

open Files Files.Disk Report Site List
open Files.Path (ofText toText)

section Addresses

variable {base page : Path} {front within : List String} {x y : String} {d : Disk}

lemma pageUrl_eq (h : page.parts = front ++ [x, y]) : pageUrl page = x ++ "/" ++ y := by
  have hcomponents : ∃ before, page.components = before ++ [x, y] := by
    rw [Path.components, h]
    split
    · exact ⟨page.root :: front, rfl⟩
    · exact ⟨front, rfl⟩
  rcases hcomponents with ⟨before, hbefore⟩
  have hlength : (before ++ [x, y]).length = before.length + 2 := length_append
  rw [pageUrl, hbefore, hlength, if_pos (Nat.le_add_left _ _), Nat.add_sub_cancel, drop_left]
  rfl

lemma ofText_pageUrl (hpage : page.Normal) (h : page.parts = front ++ [x, y]) :
  ofText (pageUrl page) = ⟨"", [x, y]⟩ := by
  have hnormal : Path.Normal ⟨"", [x, y]⟩ := hpage.of_subset (.inl rfl) (h ▸ subset_append_right _ _)
  have htext : toText ⟨"", [x, y]⟩ = x ++ "/" ++ y := by
    have hfilled : x ≠ "" := hnormal.filled x mem_cons_self
    simp [toText, Text.join, hfilled]
  rw [pageUrl_eq h, ← htext, Path.ofText_toText hnormal]

/-- Whether an address is read character for character: none of them ends the path, starts an escape or
stands for something else, and no blank is cut off at an end. -/
def isPlainAddress (url : String) : Bool :=
  (url.toList.all fun c => decide (32 ≤ c.toNat) && !(['#', '?', '%', ':', '\\'].contains c)) &&
    url.toList.head? != some ' ' && url.toList.getLast? != some ' '

/-- The path in an address, which ends before a query or a fragment. -/
def addressPath? (url : String) : Option String :=
  let path := String.ofList (url.toList.takeWhile fun c => !(['#', '?'].contains c))
  if isPlainAddress path then some path else none

/-- Pages that the path in their address leads to from a directory. -/
def Resolves (d : Disk) (base page : Path) : Prop :=
  ∃ path, addressPath? (pageUrl page) = some path ∧
    d.leadsTo (base.append (ofText path)).toText = d.leadsTo page.toText

lemma addressPath?_of_plain {url : String} (h : isPlainAddress url) : addressPath? url = some url := by
  have hwhole : (url.toList.takeWhile fun c => !(['#', '?'].contains c)) = url.toList := by
    rw [isPlainAddress, Bool.and_eq_true, Bool.and_eq_true, all_eq_true] at h
    refine takeWhile_eq_self_iff.mpr fun c hc => ?_
    have hplain := (Bool.and_eq_true_iff.mp (h.1.1 c hc)).2
    simp only [contains_cons, contains_nil, Bool.or_false, Bool.not_or, Bool.and_eq_true] at hplain ⊢
    exact ⟨hplain.1, hplain.2.1⟩
  rw [addressPath?, hwhole, String.ofList_toList]
  exact if_pos h

lemma resolves_iff_leadsTo {base page : Path} {d : Disk} (h : isPlainAddress (pageUrl page)) :
  Resolves d base page ↔
    d.leadsTo (base.append (ofText (pageUrl page))).toText = d.leadsTo page.toText := by
  rw [Resolves, addressPath?_of_plain h]
  exact ⟨fun ⟨_, hpath, hleads⟩ => Option.some.inj hpath ▸ hleads, fun hleads => ⟨_, rfl, hleads⟩⟩

lemma leadsTo_append_parts {p : Path} {more : List String} (hp : p.Normal)
  (hmore : Path.Normal ⟨p.root, p.parts ++ more⟩) :
  d.leadsTo (toText ⟨p.root, p.parts ++ more⟩) = more.foldl step (d.leadsTo p.toText) := by
  rw [leadsTo_toText hmore.toProper, leadsTo_toText hp.toProper, foldl_append]

lemma resolves_iff_steps (hbase : base.Normal) (hpage : page.Normal)
  (hplain : isPlainAddress (pageUrl page)) (h : page.parts = front ++ [x, y]) :
  Resolves d base page ↔ [x, y].foldl step (d.leadsTo base.toText) =
      [x, y].foldl step (d.leadsTo (toText ⟨page.root, front⟩)) := by
  rcases page with ⟨root, parts⟩
  obtain rfl : parts = front ++ [x, y] := h
  have hurl : base.append (ofText (pageUrl ⟨root, front ++ [x, y]⟩)) = ⟨base.root, base.parts ++ [x, y]⟩ := by
    rw [ofText_pageUrl hpage rfl]
    rfl
  have hlink : Path.Normal ⟨base.root, base.parts ++ [x, y]⟩ := by
    rw [← hurl]
    exact hbase.append (Path.ofText_normal _)
  have hfront : Path.Normal ⟨root, front⟩ := hpage.of_subset hpage.root (subset_append_left _ _)
  rw [resolves_iff_leadsTo hplain, hurl, leadsTo_append_parts hbase hlink, leadsTo_append_parts hfront hpage]

lemma exists_last_two {l : List String} (h : 2 ≤ l.length) : ∃ front x y, l = front ++ [x, y] := by
  have hlength : (l.drop (l.length - 2)).length = 2 := by
    rw [length_drop]
    omega
  rcases length_eq_two.mp hlength with ⟨x, y, hlast⟩
  exact ⟨l.take (l.length - 2), x, y, by rw [← hlast, take_append_drop]⟩

lemma step_of_plain {name : String} (hfilled : name ≠ "") (hdot : name ≠ ".") (hdots : name ≠ "..")
  (p : Place) : step p name = p ++ [name] := by
  rw [step, if_neg, if_neg hdots]
  rw [Bool.or_eq_true, String.isEmpty_iff, decide_eq_true_eq]
  exact fun h => h.elim hfilled hdot

lemma foldl_step_of_plain {p : Path} (hp : p.Normal) (hdots : ".." ∉ p.parts) (start : Place) :
  p.parts.foldl step start = start ++ p.parts := by
  have hsteps : ∀ parts ⊆ p.parts, ∀ start : Place, parts.foldl step start = start ++ parts := by
    intro parts
    induction parts with
    | nil =>
      intro _ start
      rw [foldl_nil, append_nil]
    | cons part parts ih =>
      intro hsubset start
      rcases cons_subset.mp hsubset with ⟨hpart, hrest⟩
      have hstep := step_of_plain (hp.filled part hpart) (hp.dots part hpart)
        (fun h => hdots (h ▸ hpart)) start
      rw [foldl_cons, hstep, ih hrest, append_assoc, singleton_append]
  exact hsteps p.parts (List.Subset.refl _) start

lemma resolves_iff (hbase : base.Normal) (hpage : page.Normal)
  (hplain : isPlainAddress (pageUrl page)) (h : page.parts = front ++ [x, y]) (hdots : ".." ∉ [x, y]) :
  Resolves d base page ↔ d.leadsTo (toText ⟨page.root, front⟩) = d.leadsTo base.toText := by
  have hlast : Path.Normal ⟨"", [x, y]⟩ := hpage.of_subset (.inl rfl) (h ▸ subset_append_right _ _)
  have hsteps : ∀ start, [x, y].foldl step start = start ++ [x, y] := foldl_step_of_plain hlast hdots
  rw [resolves_iff_steps hbase hpage hplain h, hsteps, hsteps, append_left_inj]
  exact eq_comm

lemma resolves_of_two (hbase : base.Normal)
  (hpage : Path.Normal ⟨base.root, base.parts ++ within⟩)
  (hplain : isPlainAddress (pageUrl ⟨base.root, base.parts ++ within⟩)) (h : within.length = 2) :
  Resolves d base ⟨base.root, base.parts ++ within⟩ := by
  rcases length_eq_two.mp h with ⟨x, y, rfl⟩
  exact (resolves_iff_steps hbase hpage hplain rfl).mpr rfl

lemma resolves_iff_two (hbase : base.Normal)
  (hpage : Path.Normal ⟨base.root, base.parts ++ within⟩)
  (hplain : isPlainAddress (pageUrl ⟨base.root, base.parts ++ within⟩))
  (hdots : ".." ∉ base.parts ++ within) (hlong : 2 ≤ (base.parts ++ within).length) :
  Resolves d base ⟨base.root, base.parts ++ within⟩ ↔ within.length = 2 := by
  refine ⟨fun hresolves => ?_, resolves_of_two hbase hpage hplain⟩
  rcases exists_last_two hlong with ⟨front, x, y, hparts⟩
  have hfront : Path.Normal ⟨base.root, front⟩ := hpage.of_subset hpage.root (hparts ▸ subset_append_left _ _)
  have hlast : ".." ∉ [x, y] := fun hmem => hdots (hparts ▸ mem_append_right _ hmem)
  have hplace := (resolves_iff hbase hpage hplain hparts hlast).mp hresolves
  have hbefore : ".." ∉ front := fun hmem => hdots (hparts ▸ mem_append_left _ hmem)
  have hbelow : ".." ∉ base.parts := fun hmem => hdots (mem_append_left _ hmem)
  rw [leadsTo_toText hfront.toProper, leadsTo_toText hbase.toProper, foldl_step_of_plain hfront hbefore,
    foldl_step_of_plain hbase hbelow, append_right_inj] at hplace
  have hsame : front = base.parts := hplace
  rw [hsame, append_cancel_left_eq] at hparts
  rw [hparts]
  rfl

end Addresses

variable {c : Conditions} {o : Options} {config : Json} {base : Path} {entry : Json} {entries : List Json}
  {d d' : Disk} {p : Place} {doc : Documented}

lemma LibraryTurn.isFile {r : Except Failure (String × Option Documented)}
  (h : LibraryTurn c o config base entry d r d') (hfile : IsFile d p) : IsFile d' p := by
  cases h with
  | failed e adds => exact hfile.of_adds adds
  | reported asks adds drafted => exact hfile.of_adds adds
  | written asks adds drafted within collected wrote =>
    exact ((hfile.of_adds adds).of_adds within).of_write wrote

lemma isFile_diskAfter (hfile : IsFile d p) : IsFile (diskAfter c o config base d entries) p := by
  induction entries generalizing c d with
  | nil => exact hfile
  | cons entry entries ih =>
    rw [diskAfter_cons]
    exact ih ((documentLibrary_turn c o config base entry d).isFile hfile)

lemma exists_turn_of_made
  (h : doc ∈ (librarySteps c o config base d entries).filterMap fun step => madeBy step.1) :
  ∃ entry ∈ entries, ∃ c' r d₁ d₂, LibraryTurn c' o config base entry d₁ r d₂ ∧ madeBy r = some doc ∧
    IsFile (diskAfter c o config base d entries) (d.leadsTo doc.path) := by
  induction entries generalizing c d with
  | nil => cases h
  | cons entry entries ih =>
    have hturn := documentLibrary_turn c o config base entry d
    rw [librarySteps, mem_filterMap] at h
    rcases h with ⟨step, hstep, hmade⟩
    rcases mem_cons.mp hstep with rfl | hlater
    · refine ⟨entry, mem_cons_self, _, _, _, _, hturn, hmade, ?_⟩
      rw [diskAfter_cons]
      exact isFile_diskAfter (hturn.page hmade)
    · rcases ih (mem_filterMap.mpr ⟨step, hlater, hmade⟩) with
        ⟨entry', hentry, c', r, d₁, d₂, hlaterTurn, hdoc, hfile⟩
      refine ⟨entry', mem_cons_of_mem _ hentry, c', r, d₁, d₂, hlaterTurn, hdoc, ?_⟩
      rw [diskAfter_cons, ← leadsTo_congr hturn.home]
      exact hfile

variable {t : Target} {order : PageOrder} {card : Card} {draft : Draft}

def Target.page (t : Target) (base : Path) (file : String) : Path := (t.folder base).append (ofText file)

/-- The parts of a page's path within the directory of all pages. -/
def Target.within (t : Target) (file : String) : List String := (ofText t.name).parts ++ (ofText file).parts

/-- Libraries whose name and file do not start at the root. -/
def Target.Relative (t : Target) (file : String) : Prop := (ofText t.name).root = "" ∧ (ofText file).root = ""

lemma base_normal (o : Options) : o.base.Normal := Path.ofText_normal _

lemma page_normal (hbase : base.Normal) (t : Target) (file : String) : (t.page base file).Normal :=
  (hbase.append (Path.ofText_normal _)).append (Path.ofText_normal _)

lemma page_of_relative {file : String} (h : t.Relative file) :
  t.page base file = ⟨base.root, base.parts ++ t.within file⟩ := by
  have hname : (ofText t.name).isAbsolute = false := by
    rw [Path.isAbsolute, h.1]
    rfl
  have hfile : (ofText file).isAbsolute = false := by
    rw [Path.isAbsolute, h.2]
    rfl
  rw [Target.page, Target.folder, Path.append, hfile, Path.append, hname, if_neg Bool.false_ne_true,
    if_neg Bool.false_ne_true, Target.within, append_assoc]

lemma page_of_orderOf (h : orderOf o config base entry = .ok (t, order)) :
  ∃ file, t.file = .str file ∧ order.path = (t.page base file).toText ∧
    order.format = t.format ∧ order.wantsCard = o.dashboard := by
  rcases (orderOf_eq_ok h).2 with ⟨file, hfile, rfl⟩
  exact ⟨file, hfile, path_order t o config base entry file, rfl, rfl⟩

lemma url_of_collectCard {made : Option Card} (h : collectCard order draft = .ok made)
  (hwants : order.wantsCard) (hhtml : isHtml order.format) :
  ∃ card, made = some card ∧ card.url = .str (pageUrl (ofText order.path)) := by
  rw [collectCard, hwants, hhtml, Bool.and_self, if_pos rfl] at h
  cases hcard : Card.collect draft.lib (cardName order.own draft.lib)
      (pageUrl (ofText order.path)) order.own (some draft.settings) with
  | error f =>
    rw [hcard] at h
    cases h
  | ok card =>
    rw [hcard] at h
    cases h
    exact ⟨card, rfl, collect_url hcard⟩

variable {disk d : Disk} {words : List String} {s : Session} {done : List Documented}

/-- The links of a run with a dashboard. Every library with an HTML page has a card with the page's
address, and every record of the search index has that address too. The page is a file at the end of
the run. Now let no character of the address have a meaning of its own in addresses. The link leads
to the page if the name and the file of the library have two parts together. Without steps back in the paths, it leads to it only then; and in general, for a page that does not
start at the directory as well, only if two steps back from the page is the directory. -/
theorem dashboard_links (hread : readOptions words = .ok o)
  (hplan : ended (plan c o) { disk } = (.ok (.many config entries), s)) (hdashboard : o.dashboard = true)
  (hdone : on (documentEntries c o config entries) s.disk = (.ok done, d)) :
  ∀ doc ∈ done, isHtml doc.format = true → ∃ entry ∈ entries, ∃ t file card,
    targetOf o entry = .ok t ∧ t.file = .str file ∧ doc.path = (t.page o.base file).toText ∧
    IsFile (runWords c words disk).2.disk (s.disk.leadsTo doc.path) ∧
    doc.card = some card ∧ card.url = .str (pageUrl (t.page o.base file)) ∧
    (∀ records, cardRecords card = .ok records → ∀ record ∈ records, ∃ fragment,
      record.field? "url" = some (.str (pageUrl (t.page o.base file) ++ fragment)) ∧
        (fragment = "" ∨ ∃ anchor, fragment = "#" ++ anchor)) ∧
    (isPlainAddress (pageUrl (t.page o.base file)) = true →
      (t.Relative file → (t.within file).length = 2 → Resolves s.disk o.base (t.page o.base file)) ∧
      (t.Relative file → ".." ∉ o.base.parts ++ t.within file →
        2 ≤ (o.base.parts ++ t.within file).length →
        (Resolves s.disk o.base (t.page o.base file) ↔ (t.within file).length = 2)) ∧
      (∀ front x y, (t.page o.base file).parts = front ++ [x, y] → ".." ∉ [x, y] →
        (Resolves s.disk o.base (t.page o.base file) ↔
          s.disk.leadsTo (Path.toText ⟨(t.page o.base file).root, front⟩) =
            s.disk.leadsTo o.base.toText))) := by
  intro doc hdoc hhtml
  have hbase := base_normal o
  rcases on_documentEntries_eq_ok hdone with ⟨hmade, hafter⟩
  rw [hmade] at hdoc
  rcases exists_turn_of_made hdoc with ⟨entry, hentry, c', r, d₁, d₂, hturn, hmadeBy, hfile⟩
  cases hturn with
  | failed e adds => cases hmadeBy
  | reported asks adds drafted => cases hmadeBy
  | @written t order draft made _ _ _ asks adds drafted within collected wrote =>
    cases hmadeBy
    rcases page_of_orderOf asks with ⟨file, hfileName, hpath, hformat, hwants⟩
    rcases url_of_collectCard collected (hwants.trans hdashboard) (hformat ▸ hhtml) with
      ⟨card, rfl, hurl⟩
    rw [hpath, Path.ofText_toText (page_normal hbase t file)] at hurl
    refine ⟨entry, hentry, t, file, card, (orderOf_eq_ok asks).1, hfileName, hpath, ?_, rfl, hurl,
      fun records hrecords record hrecord => url_of_mem_cardRecords hrecords hurl hrecord,
      fun hplain => ⟨fun hrelative htwo => ?_, fun hrelative hdots hlong => ?_,
      fun front x y => resolves_iff hbase (page_normal hbase t file) hplain⟩⟩
    · -- what follows the libraries leaves the page where it is
      rw [(runWords_many hread hplan).2, perform, on_bind (concludeMany_oblivious c o config), hdone]
      rw [hafter]
      exact (concludeMany_steady c o config done).keeps _ _ hfile
    · have hnormal := page_normal hbase t file
      rw [page_of_relative hrelative] at hnormal hplain ⊢
      exact resolves_of_two hbase hnormal hplain htwo
    · have hnormal := page_normal hbase t file
      rw [page_of_relative hrelative] at hnormal hplain ⊢
      exact resolves_iff_two hbase hnormal hplain hdots hlong

/-- A console without styles, and pages that show nothing but the name of their library. -/
def briefConsole : Conditions where
  styled := false
  template := "\x7b\x7bLIBRARY_NAME\x7d\x7d"
  now := ""

/-- The words that ask for a dashboard. -/
def linkedWords : List String := ["-c", "c.json", "--dashboard"]

/-- What these words ask for. -/
def linkedOptions : Options where
  config := some "c.json"
  dashboard := true

/-- A library whose page lies four steps below the directory of all pages. -/
def deepPage : Disk :=
  .ofFiles [] [("c.json", "\x7b\"site\": \x7b\x7d, \"libraries\": [\x7b\"source\": \"lib.py\", " ++
      "\"output_file\": \"v1/api/page.html\"\x7d]\x7d"),
    ("lib.py", "@keyword\ndef f():\n    pass\n")]

def deepPath : Path := ⟨"", ["output", "lib", "v1", "api", "page.html"]⟩

/-- The link to that page leads somewhere else. -/
theorem dashboard_links_deep_page : ∃ config entries s done d, ∃ t : Target, ∃ file,
  readOptions linkedWords = .ok linkedOptions ∧
  ended (plan briefConsole linkedOptions) { disk := deepPage } = (.ok (.many config entries), s) ∧
  on (documentEntries briefConsole linkedOptions config entries) s.disk = (.ok done, d) ∧
  (∃ doc ∈ done, doc.path = (t.page linkedOptions.base file).toText ∧
    IsFile (runWords briefConsole linkedWords deepPage).2.disk (s.disk.leadsTo doc.path)) ∧
  ¬ Resolves s.disk linkedOptions.base (t.page linkedOptions.base file) := by
  have hread : readOptions linkedWords = .ok linkedOptions := by decide +kernel
  have htest : plansMany (fun config entries s => decide (entries.length = 1) &&
      entries.all (fun entry => getsPage briefConsole linkedOptions config linkedOptions.base s.disk entry &&
        (orderOf linkedOptions config linkedOptions.base entry).toOption.all fun asked =>
          isHtml asked.1.format && decide (Path.ofText asked.2.path = deepPath)) &&
      decide (s.disk.leadsTo (Path.toText ⟨"", ["output", "lib", "v1"]⟩) ≠
        s.disk.leadsTo linkedOptions.base.toText))
      (ended (plan briefConsole linkedOptions) { disk := deepPage }) := by
    decide +kernel
  rcases exists_of_plansMany htest with ⟨config, entries, s, hplan, hrun⟩
  rw [Bool.and_eq_true, Bool.and_eq_true, decide_eq_true_eq, decide_eq_true_eq, all_eq_true] at hrun
  rcases hrun with ⟨⟨hone, hall⟩, hplaces⟩
  rcases length_eq_one_iff.mp hone with ⟨entry, rfl⟩
  have hentry := hall entry (mem_singleton_self entry)
  rw [Bool.and_eq_true] at hentry
  rcases on_documentLibrary_of_getsPage hentry.1 with
    ⟨t, order, doc, d, hasks, hmade, hpath, hformat⟩
  have hasked := hentry.2
  rw [hasks, Except.toOption, Option.all_some, Bool.and_eq_true, decide_eq_true_eq, ← hpath,
    ← hformat] at hasked
  have hsteps : librarySteps briefConsole linkedOptions config linkedOptions.base s.disk [entry] =
      [(.ok (t.name, some doc), d)] := by
    rw [librarySteps, hmade]
    rfl
  have hsucceed : allSucceed briefConsole linkedOptions config linkedOptions.base s.disk [entry] =
      true := by
    rw [allSucceed, hsteps]
    rfl
  have hdone := on_documentEntries hsucceed fun _ _ _ _ => .inl rfl
  rw [hsteps] at hdone
  have hdoc : doc ∈ [doc] := mem_singleton_self doc
  rcases dashboard_links hread hplan rfl hdone doc hdoc hasked.1 with
    ⟨entry', -, t', file, card, -, -, hpage, hfile, -, -, -, hresolves⟩
  have hdeep : t'.page linkedOptions.base file = deepPath := by
    rw [← hasked.2, hpage, Path.ofText_toText (page_normal (base_normal linkedOptions) t' file)]
  refine ⟨config, [entry], s, _, _, t', file, hread, hplan, hdone, ⟨doc, hdoc, hpage, hfile⟩, ?_⟩
  have hiff := (hresolves (hdeep ▸ by decide +kernel)).2.2 ["output", "lib", "v1"] "api" "page.html"
    (congrArg Path.parts hdeep) (by decide)
  rw [hiff, hdeep]
  exact hplaces

end KeywordDocs.Command
