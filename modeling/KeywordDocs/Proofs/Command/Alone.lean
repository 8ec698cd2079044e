import KeywordDocs.Proofs.Command.Settings
import KeywordDocs.Proofs.Command.Turns
import Mathlib.Algebra.GroupWithZero.Nat

/-!
# Libraries on Their Own

How a run over many libraries relates to a run over each. It works on one disk and with one interpreter, so a
library sees what was made and imported before its turn, and its own directory.
-/

namespace KeywordDocs.Command

open Files Files.Disk Report Discovery
open List hiding after

variable {c c' : Conditions} {o : Options} {config : Json} {base : Path} {entry : Json} {entries : List Json}
  {disk d d' : Disk} {files ways : List Place}

section

variable (c o config base disk)

def pagePlace? (entry : Json) : Option Place :=
  (orderOf o config base entry).toOption.map fun asked => disk.leadsTo asked.2.path

def pagePlaces (entries : List Json) : List Place := entries.filterMap (pagePlace? o config base disk)

def libraryWays (entry : Json) : List Place :=
  match orderOf o config base entry with
  | .ok (t, order) => disk.way (t.folder base) ++ disk.way (Path.ofText order.path).parent
  | .error _ => []

/-- The places on the ways to the directories that are made for libraries. -/
def directoryPlaces (entries : List Json) : List Place :=
  disk.way base ++ entries.flatMap (libraryWays o config base disk)

/-- A page that a library has on its own. -/
structure LonePage where
  target : Target
  order : PageOrder
  draft : Draft

def LonePage.documented (page : LonePage) : Documented where
  name := page.target.name
  path := page.order.path
  keywords := page.draft.lib.keywords.length
  format := page.target.format

def lonePage? (entry : Json) : Option LonePage :=
  match orderOf o config base entry with
  | .ok (target, order) =>
    match draftPage c order disk with
    | .ok (.inr draft) => some { target, order, draft }
    | _ => none
  | .error _ => none

def lonePages (entries : List Json) : List LonePage := entries.filterMap (lonePage? c o config base disk)

/-- A library whose page does not depend on some files and directories, among which are its own, nor on
what makes the conditions `c'` of its turn differ from `c`. -/
structure Undisturbed (files ways : List Place) (c' : Conditions) (entry : Json) : Prop where
  page : ∀ t order, orderOf o config base entry = .ok (t, order) → disk.leadsTo order.path ∈ files
  within : libraryWays o config base disk entry ⊆ ways
  same : ∀ t order, orderOf o config base entry = .ok (t, order) → ∀ d, Grown files ways disk d →
    draftPage c' order d = draftPage c order disk

/-- Libraries whose pages do not depend on the files that are written for all of them, nor on
directories that are made at some places, nor on the libraries that were taken up before. -/
def Apart (entries : List Json) (ways : List Place) : Prop :=
  ∀ before entry rest, entries = before ++ entry :: rest →
    ∀ t order, orderOf o config base entry = .ok (t, order) →
      ∀ d, Grown (pagePlaces o config base disk entries) ways disk d →
        draftPage (before.foldl .after c) order d = draftPage c order disk

end

variable {page : LonePage} {t : Target} {order : PageOrder}

lemma lonePage?_eq_some {draft : Draft} (hasks : orderOf o config base entry = .ok (t, order))
  (hdraft : draftPage c order disk = .ok (.inr draft)) :
  lonePage? c o config base disk entry = some ⟨t, order, draft⟩ := by
  rw [lonePage?, hasks]
  dsimp only
  rw [hdraft]

lemma lonePage?_eq_none {problem : Problem} (hasks : orderOf o config base entry = .ok (t, order))
  (hdraft : draftPage c order disk = .ok (.inl problem)) :
  lonePage? c o config base disk entry = none := by
  rw [lonePage?, hasks]
  dsimp only
  rw [hdraft]

lemma of_lonePage?_eq_some (h : lonePage? c o config base disk entry = some page) :
  orderOf o config base entry = .ok (page.target, page.order) ∧
    draftPage c page.order disk = .ok (.inr page.draft) := by
  unfold lonePage? at h
  split at h
  case h_1 hasks =>
    split at h
    case h_1 hdraft =>
      cases h
      exact ⟨hasks, hdraft⟩
    case h_2 => cases h
  case h_2 => cases h

lemma collectCard_eq_none {draft : Draft} {card : Option Site.Card} (hdashboard : o.dashboard = false)
  (hasks : orderOf o config base entry = .ok (t, order))
  (hcard : collectCard order draft = .ok card) : card = none := by
  rcases (orderOf_eq_ok hasks).2 with ⟨file, -, rfl⟩
  have hwants : (t.order o config base entry file).wantsCard = false := hdashboard
  rw [collectCard, hwants, Bool.false_and, if_neg Bool.false_ne_true] at hcard
  cases hcard
  rfl

lemma turn_alone {name : String} {made : Option Documented} (hdashboard : o.dashboard = false)
  (hundisturbed : Undisturbed c o config base disk files ways c' entry)
  (hgrown : Grown files ways disk d)
  (hturn : LibraryTurn c' o config base entry d (.ok (name, made)) d') :
  Grown files ways disk d' ∧ made = (lonePage? c o config base disk entry).map LonePage.documented ∧
    ∀ page, lonePage? c o config base disk entry = some page →
      d'.at? (disk.leadsTo page.order.path) = some (.file page.draft.text.toUTF8) := by
  have hways : ∀ {t : Target} {order : PageOrder}, orderOf o config base entry = .ok (t, order) →
      d.way (t.folder base) ⊆ ways ∧ d.way (Path.ofText order.path).parent ⊆ ways := by
    intro t order hasks
    have hwithin := hundisturbed.within
    rw [libraryWays, hasks] at hwithin
    rw [way_congr hgrown.home, way_congr hgrown.home]
    exact append_subset.mp hwithin
  cases hturn with
  | reported asks adds drafted =>
    have hafter := hgrown.adds adds (hways asks).1
    rw [hundisturbed.same _ _ asks _ hafter] at drafted
    rw [lonePage?_eq_none asks drafted]
    exact ⟨hafter, rfl, nofun⟩
  | @written t order draft card d₁ d₂ _ asks adds drafted within collected wrote =>
    have hfolder := hgrown.adds adds (hways asks).1
    have hparent := hfolder.adds within (hways asks).2
    rw [hundisturbed.same _ _ asks _ hfolder] at drafted
    rw [lonePage?_eq_some asks drafted, collectCard_eq_none hdashboard asks collected]
    refine ⟨hparent.write wrote (hundisturbed.page _ _ asks), rfl, ?_⟩
    rintro page ⟨⟩
    rw [at?_write wrote, leadsTo_congr hparent.home, if_pos rfl]

lemma lonePages_cons (entry : Json) (entries : List Json) :
  lonePages c o config base disk (entry :: entries) =
    (lonePage? c o config base disk entry).toList ++ lonePages c o config base disk entries := by
  rw [lonePages, lonePages, filterMap_cons]
  cases lonePage? c o config base disk entry <;> rfl

lemma pagePlace?_eq_some (h : lonePage? c o config base disk entry = some page) :
  pagePlace? o config base disk entry = some (disk.leadsTo page.order.path) := by
  rw [pagePlace?, (of_lonePage?_eq_some h).1]
  rfl

lemma undisturbed_later (h : ∀ before later rest, entry :: entries = before ++ later :: rest →
    Undisturbed c o config base disk files ways (before.foldl .after c') later)
  (before : List Json) (later : Json) (rest : List Json) (hsplit : entries = before ++ later :: rest) :
  Undisturbed c o config base disk files ways (before.foldl .after (c'.after entry)) later :=
  h (entry :: before) later rest (congrArg (entry :: ·) hsplit)

section

variable (hdashboard : o.dashboard = false)
  (hundisturbed : ∀ before entry rest, entries = before ++ entry :: rest →
    Undisturbed c o config base disk files ways (before.foldl .after c') entry)
  (hgrown : Grown files ways disk d) (hok : allSucceed c' o config base d entries)

include hdashboard hundisturbed hgrown hok

lemma made_alone : ((librarySteps c' o config base d entries).filterMap fun step => madeBy step.1) =
    (lonePages c o config base disk entries).map LonePage.documented := by
  induction entries generalizing c' d with
  | nil => rfl
  | cons entry entries ih =>
    rcases of_allSucceed_cons hok with ⟨name, made, d₁, hstep, hrest⟩
    have hturn := documentLibrary_turn c' o config base entry d
    rw [hstep] at hturn
    rcases turn_alone hdashboard (hundisturbed [] _ _ rfl) hgrown hturn with ⟨hafter, hmade, -⟩
    have hlater := ih (undisturbed_later hundisturbed) hafter hrest
    subst hmade
    rw [librarySteps, hstep, lonePages_cons, map_append, ← hlater, filterMap_cons]
    cases lonePage? c o config base disk entry <;> rfl

lemma file_alone {p : Place} {content : ByteArray}
  (hp : ∀ page ∈ lonePages c o config base disk entries, disk.leadsTo page.order.path ≠ p) :
  (diskAfter c' o config base d entries).at? p = some (.file content) ↔ d.at? p = some (.file content) := by
  refine file_diskAfter fun step hstep doc hdoc => ?_
  have hmem : doc ∈ (lonePages c o config base disk entries).map LonePage.documented := by
    rw [← made_alone hdashboard hundisturbed hgrown hok]
    exact mem_filterMap.mpr ⟨step, hstep, hdoc⟩
  rcases mem_map.mp hmem with ⟨page, hpage, rfl⟩
  rw [leadsTo_congr hgrown.home]
  exact hp page hpage

lemma page_alone (hdistinct : (pagePlaces o config base disk entries).Nodup)
  (hpage : page ∈ lonePages c o config base disk entries) :
  (diskAfter c' o config base d entries).at? (disk.leadsTo page.order.path) =
    some (.file page.draft.text.toUTF8) := by
  induction entries generalizing c' d with
  | nil => cases hpage
  | cons entry entries ih =>
    rcases of_allSucceed_cons hok with ⟨name, made, d₁, hstep, hrest⟩
    have hturn := documentLibrary_turn c' o config base entry d
    have hothers := undisturbed_later hundisturbed
    rw [hstep] at hturn
    rcases turn_alone hdashboard (hundisturbed [] _ _ rfl) hgrown hturn with ⟨hafter, -, hwrote⟩
    rw [diskAfter_cons, hstep]
    rw [lonePages_cons, mem_append, Option.mem_toList] at hpage
    rcases hpage with hfirst | hlater
    · rw [pagePlaces, filterMap_cons_some (pagePlace?_eq_some hfirst), nodup_cons] at hdistinct
      refine (file_alone hdashboard hothers hafter hrest fun later hmem hplace =>
        hdistinct.1 ?_).mpr (hwrote page hfirst)
      rcases mem_filterMap.mp hmem with ⟨other, hother, hlone⟩
      rw [← hplace]
      exact mem_filterMap.mpr ⟨other, hother, pagePlace?_eq_some hlone⟩
    · refine ih hothers hafter hrest (hdistinct.sublist ?_) hlater
      exact (sublist_cons_self entry entries).filterMap _

end

lemma Apart.undisturbed
  (h : Apart c o config base disk entries (directoryPlaces o config base disk entries))
  (before : List Json) (entry : Json) (rest : List Json) (hsplit : entries = before ++ entry :: rest) :
  Undisturbed c o config base disk (pagePlaces o config base disk entries)
    (directoryPlaces o config base disk entries) (before.foldl .after c) entry := by
  have hentry : entry ∈ entries := hsplit ▸ mem_append_right before mem_cons_self
  refine ⟨fun t order hasks => mem_filterMap.mpr ⟨entry, hentry, ?_⟩, fun p hp =>
    mem_append_right _ (mem_flatMap.mpr ⟨entry, hentry, hp⟩), h before entry rest hsplit⟩
  rw [pagePlace?, hasks]
  rfl

lemma makePage_alone {order : PageOrder} {page : PageDone}
  (h : on (makePage c order) disk = (.ok (some page), d)) :
  ∃ draft, draftPage c order disk = .ok (.inr draft) ∧
    d.at? (disk.leadsTo order.path) = some (.file draft.text.toUTF8) := by
  rw [on_makePage] at h
  cases hdraft : draftPage c order disk with
  | error e =>
    rw [hdraft] at h
    cases h
  | ok drafted =>
    rw [hdraft] at h
    cases drafted with
    | inl problem =>
      dsimp only at h
      rw [finishPage, on_bind fun _ => .pure none, (Speaks.report c problem).on_eq] at h
      cases h
    | inr draft =>
      refine ⟨draft, rfl, ?_⟩
      rcases on_finishPage c order draft disk with ⟨e, d', hfinish, -⟩ |
        ⟨card, d₂, d', hadds, -, hwrote, hfinish⟩
      · dsimp only at h
        rw [hfinish] at h
        cases h
      · dsimp only at h
        rw [hfinish] at h
        cases h
        rw [at?_write hwrote, leadsTo_congr hadds.home, if_pos rfl]

variable {words : List String} {s : Session}

lemma totalKeywords_documented (pages : List LonePage) :
  totalKeywords (pages.map LonePage.documented) =
    (pages.map fun page => page.draft.lib.keywords.length).sum := by
  rw [totalKeywords, foldl_map, sum_eq_foldl, foldl_map]
  rfl

lemma runWords_sequential (hread : readOptions words = .ok o) (hsequential : o.parallel = false)
  (hdashboard : o.dashboard = false) (hserve : o.serve = false)
  (hplan : ended (plan c o) { disk } = (.ok (.many config entries), s))
  (hok : allSucceed c o config o.base s.disk entries) {done : List Documented}
  (hdone : ((librarySteps c o config o.base s.disk entries).filterMap fun step => madeBy step.1) = done) :
  ∃ said, runWords c words disk = (.exit (exitCode done),
    { disk := diskAfter c o config o.base s.disk entries
      said := (if done.isEmpty then [] else librarySummary c o.base done).reverse ++ said }) := by
  have hall := on_documentAll hok
  rw [hdone] at hall
  rw [runWords_eq hread hplan, perform, ended_bind, documentEntries, hsequential, Bool.false_and,
    if_neg Bool.false_ne_true, (documentAll_oblivious c o config o.base entries).ended_eq, hall]
  dsimp only
  rw [ended_concludeMany hdashboard hserve]
  exact ⟨_, rfl⟩

/-- Many libraries and each of them on its own, if their pages have different places and do not depend
on what the run writes, makes and has imported. Every library that has a page on its own has the same one in the
end, all files at other places are as they were, what is told last is about these pages and about
the sum of their keywords, and the exit code says whether there are any. -/
theorem libraries_alone (hread : readOptions words = .ok o) (hsequential : o.parallel = false)
  (hdashboard : o.dashboard = false) (hserve : o.serve = false)
  (hplan : ended (plan c o) { disk } = (.ok (.many config entries), s))
  (hok : allSucceed c o config o.base s.disk entries = true)
  (hdistinct : (pagePlaces o config o.base disk entries).Nodup)
  (hapart : Apart c o config o.base disk entries (directoryPlaces o config o.base disk entries)) :
  (∀ entry ∈ entries, ∀ t order page d, orderOf o config o.base entry = .ok (t, order) →
    on (makePage c order) disk = (.ok (some page), d) →
      (runWords c words disk).2.disk.at? (disk.leadsTo order.path) =
        d.at? (disk.leadsTo order.path)) ∧
  (∀ page ∈ lonePages c o config o.base disk entries,
    (runWords c words disk).2.disk.at? (disk.leadsTo page.order.path) =
      some (.file page.draft.text.toUTF8)) ∧
  (∀ p, (∀ page ∈ lonePages c o config o.base disk entries, disk.leadsTo page.order.path ≠ p) →
    ∀ content, (runWords c words disk).2.disk.at? p = some (.file content) ↔
      disk.at? p = some (.file content)) ∧
  (∃ before, (runWords c words disk).2.outputs = before ++
    if (lonePages c o config o.base disk entries).isEmpty then []
    else librarySummary c o.base
      ((lonePages c o config o.base disk entries).map LonePage.documented)) ∧
  totalKeywords ((lonePages c o config o.base disk entries).map LonePage.documented) =
    ((lonePages c o config o.base disk entries).map
      fun page => page.draft.lib.keywords.length).sum ∧
  (runWords c words disk).1 =
    .exit (if (lonePages c o config o.base disk entries).isEmpty then 1 else 0) := by
  have hadds : Adds (disk.way o.base) disk s.disk := by
    have hends := plan_ends c o disk
    rw [hplan] at hends
    cases hends with
    | accepted _ _ hdisk =>
      rcases hdisk with hsame | hmade
      · rw [hsame]
        exact Adds.refl _ disk
      · exact ensureDirectory_adds hmade
  have hgrown : Grown (pagePlaces o config o.base disk entries)
      (directoryPlaces o config o.base disk entries) disk s.disk :=
    (Grown.refl _ _ disk).adds hadds (subset_append_left _ _)
  have hmade := made_alone hdashboard hapart.undisturbed hgrown hok
  have hpage : ∀ page ∈ lonePages c o config o.base disk entries, _ := fun page hmem =>
    page_alone hdashboard hapart.undisturbed hgrown hok hdistinct hmem
  rcases runWords_sequential hread hsequential hdashboard hserve hplan hok hmade with ⟨said, hrun⟩
  rw [hrun]
  refine ⟨fun entry hentry t order page d hasks halone => ?_, hpage, fun p hp content => ?_,
    ⟨said.reverse, ?_⟩, totalKeywords_documented _, ?_⟩
  · rcases makePage_alone halone with ⟨draft, hdraft, hcontent⟩
    rw [hcontent]
    exact hpage ⟨t, order, draft⟩
      (mem_filterMap.mpr ⟨entry, hentry, lonePage?_eq_some hasks hdraft⟩)
  · exact (file_alone hdashboard hapart.undisturbed hgrown hok hp).trans (hadds.file_iff content)
  · rw [Session.outputs, reverse_append, reverse_reverse, isEmpty_map]
  · rw [exitCode, isEmpty_map]

lemma draftPage_congr {order : PageOrder} {d : Disk} {text : String}
  (hdisk : disk.readText order.input = .ok text) (hd : d.readText order.input = .ok text)
  (haround : modulesIn d (Path.ofText order.input).parent =
    modulesIn disk (Path.ofText order.input).parent) :
  draftPage c order d = draftPage c order disk := by
  have hfile : SourceFile.onDisk d order.input = SourceFile.onDisk disk order.input := by
    rw [SourceFile.onDisk, SourceFile.onDisk, hdisk, hd, haround]
  rw [draftPage, draftPage, hfile]

variable (o config base disk) in
def standsApart (entries : List Json) (ways : List Place) : Bool :=
  (ways.all fun p => (disk.at? p).isSome) &&
    (pagePlaces o config base disk entries).all sourceFree &&
    entries.all fun entry =>
      (orderOf o config base entry).toOption.all fun asked =>
        (disk.readText asked.2.input).isOk &&
          !(pagePlaces o config base disk entries).contains (disk.leadsTo asked.2.input)

lemma apart_of_standsApart {ways : List Place} (h : standsApart o config base disk entries ways)
  (hforgets : ∀ (before : List Json) order, draftPage (before.foldl .after c) order = draftPage c order) :
  Apart c o config base disk entries ways := by
  rw [standsApart, Bool.and_eq_true, Bool.and_eq_true, all_eq_true, all_eq_true, all_eq_true] at h
  rcases h with ⟨⟨hways, hpages⟩, hsources⟩
  intro before entry rest hsplit t order hasks d hgrown
  rw [hforgets]
  have hsource := hsources entry (hsplit ▸ mem_append_right before mem_cons_self)
  rw [hasks, Except.toOption, Option.all_some, Bool.and_eq_true, Bool.not_eq_true',
    contains_eq_mem, decide_eq_false_iff_not] at hsource
  have hfiles := hgrown.only_files fun p hp hnone => by
    have hthere := hways p hp
    rw [hnone] at hthere
    cases hthere
  cases hread : disk.readText order.input with
  | error f =>
    rw [hread] at hsource
    cases hsource.1
  | ok text =>
    exact draftPage_congr hread (hfiles.readText_eq_ok hsource.2 hread)
      (hfiles.modulesIn_eq hpages _)

/-- The interpreter of `plainConsole` starts afresh for every library. -/
lemma plainConsole_forgets (before : List Json) (order : PageOrder) :
  draftPage (before.foldl .after plainConsole) order = draftPage plainConsole order := by
  have hafter : ∀ taken, draftPage (before.foldl .after { plainConsole with taken }) order =
      draftPage plainConsole order := by
    induction before with
    | nil => exact fun _ => rfl
    | cons entry before ih => exact fun taken => ih (taken ++ [entry])
  exact hafter []

/-- A site that was made before, with a library that has a keyword and one that has none. -/
def standingSite : Disk :=
  .ofFiles [] [("c.json",
      "\x7b\"site\": \x7b\x7d, \"libraries\": [\x7b\"source\": \"a.py\"\x7d, " ++
      "\x7b\"source\": \"b.py\"\x7d]\x7d"),
    ("a.py", "@keyword\ndef f():\n    pass\n"), ("b.py", "x = 1\n"),
    ("output/a/index.md", "old"), ("output/b/index.md", "old")]

theorem libraries_alone_standingSite : ∃ config entries s, readOptions manyWords = .ok manyOptions ∧
  ended (plan plainConsole manyOptions) { disk := standingSite } = (.ok (.many config entries), s) ∧
  (runWords plainConsole manyWords standingSite).1 = .exit 0 ∧
  (∀ page ∈ lonePages plainConsole manyOptions config manyOptions.base standingSite entries,
    (runWords plainConsole manyWords standingSite).2.disk.at?
      (standingSite.leadsTo page.order.path) = some (.file page.draft.text.toUTF8)) ∧
  (lonePages plainConsole manyOptions config manyOptions.base standingSite entries).length = 1 := by
  have hread : readOptions manyWords = .ok manyOptions := by decide +kernel
  have htest : plansMany (fun config entries s =>
      allSucceed plainConsole manyOptions config manyOptions.base s.disk entries &&
        decide (pagePlaces manyOptions config manyOptions.base standingSite entries).Nodup &&
        standsApart manyOptions config manyOptions.base standingSite entries
          (directoryPlaces manyOptions config manyOptions.base standingSite entries) &&
        decide ((lonePages plainConsole manyOptions config manyOptions.base standingSite
          entries).length = 1))
      (ended (plan plainConsole manyOptions) { disk := standingSite }) := by
    decide +kernel
  rcases exists_of_plansMany htest with ⟨config, entries, s, hplan, hrun⟩
  rw [Bool.and_eq_true, Bool.and_eq_true, Bool.and_eq_true, decide_eq_true_eq,
    decide_eq_true_eq] at hrun
  rcases hrun with ⟨⟨⟨hok, hdistinct⟩, hapart⟩, hone⟩
  rcases libraries_alone hread rfl rfl rfl hplan hok hdistinct
      (apart_of_standsApart hapart plainConsole_forgets) with
    ⟨-, hpages, -, -, -, hending⟩
  refine ⟨config, entries, s, hread, hplan, ?_, hpages, hone⟩
  rcases length_eq_one_iff.mp hone with ⟨page, hpage⟩
  rw [hending, hpage]
  rfl

/-- A library that imports the directory that is made for it. -/
def selfImport : Disk :=
  .ofFiles [] [("c.json", "\x7b\"site\": \x7b\x7d, \"libraries\": [\x7b\"source\": \"B.py\"\x7d]\x7d"),
    ("B.py", "from robot.api.deco import keyword\nimport pages.B\n\nclass B:\n    @keyword\n" ++
      "    def beta(self):\n        pass\n")]

/-- What `manyOptions` asks for, with another directory for the pages. -/
def pagesOptions : Options := { manyOptions with folder := some "pages" }

variable (c o config base disk) in
def changedBy (after : Disk) (entry : Json) : Bool :=
  match orderOf o config base entry with
  | .ok (_, order) =>
    match on (makePage c order) disk with
    | (.ok (some _), d) => decide (after.at? (disk.leadsTo order.path) ≠ d.at? (disk.leadsTo order.path))
    | _ => false
  | .error _ => false

lemma exists_of_changedBy {after : Disk} {entry : Json}
  (h : changedBy c o config base disk after entry) :
  ∃ t order page d, orderOf o config base entry = .ok (t, order) ∧
    on (makePage c order) disk = (.ok (some page), d) ∧
    after.at? (disk.leadsTo order.path) ≠ d.at? (disk.leadsTo order.path) := by
  unfold changedBy at h
  split at h
  case h_1 t order hasks =>
    split at h
    case h_1 page d hpage => exact ⟨t, order, page, d, hasks, hpage, of_decide_eq_true h⟩
    case h_2 => cases h
  case h_2 => cases h

def documentedWith (test : Disk → Bool) : Except Failure (List Documented) × Disk → Bool
  | (.ok _, after) => test after
  | (.error _, _) => false

lemma exists_of_documentedWith {test : Disk → Bool} {d : Disk}
  (h : documentedWith test (on (documentAll c o config base entries) d)) :
  allSucceed c o config base d entries ∧ test (diskAfter c o config base d entries) := by
  cases hok : allSucceed c o config base d entries with
  | true =>
    rw [on_documentAll hok] at h
    exact ⟨rfl, h⟩
  | false =>
    rcases on_documentAll_of_error hok with ⟨e, he⟩
    rcases hall : on (documentAll c o config base entries) d with ⟨r, d'⟩
    rw [hall] at h he
    cases he
    cases h

/-- It is not enough that no page depends on the files that are written: a directory that is made can be
imported. -/
theorem libraries_alone_selfImport : ∃ config entries s,
  readOptions (manyWords ++ ["-d", "pages"]) = .ok pagesOptions ∧
  pagesOptions.parallel = false ∧ pagesOptions.dashboard = false ∧ pagesOptions.serve = false ∧
  ended (plan plainConsole pagesOptions) { disk := selfImport } = (.ok (.many config entries), s) ∧
  allSucceed plainConsole pagesOptions config pagesOptions.base s.disk entries ∧
  (pagePlaces pagesOptions config pagesOptions.base selfImport entries).Nodup ∧
  Apart plainConsole pagesOptions config pagesOptions.base selfImport entries [] ∧
  ∃ entry ∈ entries, ∃ t order page d,
    orderOf pagesOptions config pagesOptions.base entry = .ok (t, order) ∧
    on (makePage plainConsole order) selfImport = (.ok (some page), d) ∧
    (runWords plainConsole (manyWords ++ ["-d", "pages"]) selfImport).2.disk.at?
      (selfImport.leadsTo order.path) ≠ d.at? (selfImport.leadsTo order.path) := by
  have hread : readOptions (manyWords ++ ["-d", "pages"]) = .ok pagesOptions := by decide +kernel
  have htest : plansMany (fun config entries s =>
      decide (pagePlaces pagesOptions config pagesOptions.base selfImport entries).Nodup &&
        standsApart pagesOptions config pagesOptions.base selfImport entries [] &&
        documentedWith (fun after => entries.any
            (changedBy plainConsole pagesOptions config pagesOptions.base selfImport after))
          (on (documentAll plainConsole pagesOptions config pagesOptions.base entries) s.disk))
      (ended (plan plainConsole pagesOptions) { disk := selfImport }) := by
    decide +kernel
  rcases exists_of_plansMany htest with ⟨config, entries, s, hplan, hrun⟩
  rw [Bool.and_eq_true, Bool.and_eq_true, decide_eq_true_eq] at hrun
  rcases hrun with ⟨⟨hdistinct, hapart⟩, hdocumented⟩
  rcases exists_of_documentedWith hdocumented with ⟨hok, hchanged⟩
  rcases any_eq_true.mp hchanged with ⟨entry, hentry, hdiffers⟩
  rcases runWords_sequential hread rfl rfl rfl hplan hok rfl with ⟨said, hafter⟩
  refine ⟨config, entries, s, hread, rfl, rfl, rfl, hplan, hok, hdistinct,
    apart_of_standsApart hapart plainConsole_forgets, entry, hentry, ?_⟩
  rw [hafter]
  exact exists_of_changedBy hdiffers

end KeywordDocs.Command
