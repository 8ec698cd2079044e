import KeywordDocs.Proofs.Command.Run
import KeywordDocs.Proofs.Command.Turns
import KeywordDocs.Proofs.Files.Places

/-!
# Pages That Stay

Every library that is documented writes its page, but nothing keeps two libraries from writing to the same
file.
-/

namespace KeywordDocs.Command

open Files Files.Disk List

variable {c : Conditions} {o : Options} {config : Json} {base : Path} {entries : List Json} {d start : Disk}

/-- What was made for the libraries, each with what stood at the page's place after its turn. -/
def pagesOf (c : Conditions) (o : Options) (config : Json) (base : Path) (d : Disk)
  (entries : List Json) : List (Documented × Option Entry) :=
  (librarySteps c o config base d entries).filterMap fun step =>
    (madeBy step.1).map fun doc => (doc, step.2.at? (step.2.leadsTo doc.path))

lemma map_fst_pagesOf (d : Disk) (entries : List Json) :
  (pagesOf c o config base d entries).map Prod.fst =
    (librarySteps c o config base d entries).filterMap fun step => madeBy step.1 := by
  rw [pagesOf, map_filterMap]
  refine filterMap_congr fun step _ => ?_
  cases madeBy step.1 <;> rfl

lemma pagesOf_cons_of_none {entry : Json}
  (h : madeBy (on (documentLibrary c o config base entry) d).1 = none) :
  pagesOf c o config base d (entry :: entries) =
    pagesOf (c.after entry) o config base (on (documentLibrary c o config base entry) d).2 entries := by
  rw [pagesOf, librarySteps, filterMap_cons_none]
  · rfl
  · rw [h]
    rfl

lemma pagesOf_cons_of_some {entry : Json} {doc : Documented}
  (h : madeBy (on (documentLibrary c o config base entry) d).1 = some doc) :
  pagesOf c o config base d (entry :: entries) =
    (doc, (on (documentLibrary c o config base entry) d).2.at? (d.leadsTo doc.path)) ::
      pagesOf (c.after entry) o config base (on (documentLibrary c o config base entry) d).2
        entries := by
  have hhome := (documentLibrary_turn c o config base entry d).home
  rw [pagesOf, librarySteps, filterMap_cons_some]
  · rfl
  · rw [h, Option.map_some, leadsTo_congr hhome]

lemma exists_content_of_mem_pagesOf {page : Documented × Option Entry}
  (h : page ∈ pagesOf c o config base d entries) : ∃ content, page.2 = some (.file content) := by
  induction entries generalizing c d with
  | nil => cases h
  | cons entry entries ih =>
    cases hmade : madeBy (on (documentLibrary c o config base entry) d).1 with
    | none =>
      rw [pagesOf_cons_of_none hmade] at h
      exact ih h
    | some doc =>
      rw [pagesOf_cons_of_some hmade] at h
      rcases mem_cons.mp h with rfl | hlater
      · exact (documentLibrary_turn c o config base entry d).page hmade
      · exact ih hlater

lemma file_diskAfter_of_pagesOf {content : ByteArray} {p : Place} (hp : d.at? p = some (.file content))
  (h : ∀ page ∈ pagesOf c o config base d entries, d.leadsTo page.1.path ≠ p) :
  (diskAfter c o config base d entries).at? p = some (.file content) := by
  refine (file_diskAfter fun step hstep doc hdoc => ?_).mpr hp
  refine h (doc, step.2.at? (step.2.leadsTo doc.path)) (mem_filterMap.mpr ⟨step, hstep, ?_⟩)
  rw [hdoc]
  rfl

lemma kept_iff_pairwise (hhome : d.home = start.home) :
  (∀ page ∈ pagesOf c o config base d entries,
    (diskAfter c o config base d entries).at? (start.leadsTo page.1.path) = page.2) ↔
  (pagesOf c o config base d entries).Pairwise fun a b =>
    start.leadsTo a.1.path = start.leadsTo b.1.path → a.2 = b.2 := by
  induction entries generalizing c d with
  | nil => exact ⟨fun _ => List.Pairwise.nil, fun _ => nofun⟩
  | cons entry entries ih =>
    have hturn := documentLibrary_turn c o config base entry d
    rw [diskAfter_cons]
    cases hmade : madeBy (on (documentLibrary c o config base entry) d).1 with
    | none =>
      rw [pagesOf_cons_of_none hmade]
      exact ih (hturn.home.trans hhome)
    | some doc =>
      rcases hturn.page hmade with ⟨content, hpage⟩
      have hlater := ih (c := c.after entry) (hturn.home.trans hhome)
      rw [pagesOf_cons_of_some hmade, forall_mem_cons, pairwise_cons, hpage, ← hlater]
      dsimp only
      rw [leadsTo_congr hhome] at hpage
      refine ⟨fun hkept => ⟨fun page hmem hplace => ?_, hkept.2⟩, fun hdiffer => ⟨?_, hdiffer.2⟩⟩
      · rw [← hkept.1, hplace]
        exact hkept.2 page hmem
      · -- the last page that was written to the place is there, and it is the same as the first
        by_cases hagain : ∃ page ∈ pagesOf (c.after entry) o config base
            (on (documentLibrary c o config base entry) d).2 entries,
            start.leadsTo page.1.path = start.leadsTo doc.path
        · rcases hagain with ⟨page, hmem, hplace⟩
          rw [← hplace, hdiffer.2 page hmem]
          exact (hdiffer.1 page hmem hplace.symm).symm
        · refine file_diskAfter_of_pagesOf hpage fun page hmem hplace => hagain ⟨page, hmem, ?_⟩
          rw [← hplace, leadsTo_congr (hturn.home.trans hhome)]

variable {entry : Json} {t u : Target} {order order' : PageOrder}

/-- Libraries with a plain name, and with a plain name for their file. -/
def Target.Plain (t : Target) : Prop := PlainName t.name ∧ ∃ file, t.file = .str file ∧ PlainName file

lemma toText_ne_empty (p : Path) : p.toText ≠ "" := by
  rw [Path.toText]
  split
  · decide
  case isFalse hfilled =>
    intro hempty
    rw [hempty] at hfilled
    exact hfilled rfl

lemma path_order (t : Target) (o : Options) (config : Json) (base : Path) (entry : Json)
  (file : String) :
  (t.order o config base entry file).path = ((t.folder base).append (Path.ofText file)).toText := by
  rw [PageOrder.path, Target.order, Option.filter_some, if_pos]
  · rfl
  · exact decide_eq_true (toText_ne_empty _)

lemma leadsTo_order (hbase : base.Proper) (h : orderOf o config base entry = .ok (t, order))
  (hplain : t.Plain) :
  ∃ file, t.file = .str file ∧ d.leadsTo order.path = d.leadsTo base.toText ++ [t.name, file] := by
  rcases (orderOf_eq_ok h).2 with ⟨file, hfile, rfl⟩
  rcases hplain with ⟨hname, file', hfile', hplain⟩
  rw [hfile] at hfile'
  cases hfile'
  refine ⟨file, hfile, ?_⟩
  rw [path_order, Target.folder, leadsTo_append (hbase.append (Path.ofText_proper t.name)) hplain,
    leadsTo_append hbase hname, append_assoc]
  rfl

lemma leadsTo_order_eq_iff {entry' : Json} (hbase : base.Proper)
  (h : orderOf o config base entry = .ok (t, order))
  (h' : orderOf o config base entry' = .ok (u, order')) (hplain : t.Plain) (hplain' : u.Plain) :
  d.leadsTo order.path = d.leadsTo order'.path ↔ t.name = u.name ∧ t.file = u.file := by
  rcases leadsTo_order (d := d) hbase h hplain with ⟨file, hfile, hplace⟩
  rcases leadsTo_order (d := d) hbase h' hplain' with ⟨file', hfile', hplace'⟩
  rw [hplace, hplace', hfile, hfile', append_cancel_left_eq, List.cons.injEq, List.cons.injEq, Json.str.injEq]
  exact ⟨fun hsame => ⟨hsame.1, hsame.2.1⟩, fun hsame => ⟨hsame.1, hsame.2, rfl⟩⟩

variable {disk d' : Disk} {words : List String} {s : Session} {done : List Documented}

/-- The pages of a run. Every library that is told of as documented has written its page. All these
pages are there in the end exactly if no two that differ were written to one place, and pages with
plain names and files are written to one place exactly if both are the same. -/
theorem pages_kept_iff (hread : readOptions words = .ok o)
  (hplan : ended (plan c o) { disk } = (.ok (.many config entries), s))
  (hdone : on (documentEntries c o config entries) s.disk = (.ok done, d')) :
  (o.dashboard = false → (runWords c words disk).2.disk = d') ∧
  done = (pagesOf c o config o.base s.disk entries).map Prod.fst ∧
  (∀ page ∈ pagesOf c o config o.base s.disk entries, ∃ content, page.2 = some (.file content)) ∧
  ((∀ page ∈ pagesOf c o config o.base s.disk entries,
      d'.at? (s.disk.leadsTo page.1.path) = page.2) ↔
    (pagesOf c o config o.base s.disk entries).Pairwise fun a b =>
      s.disk.leadsTo a.1.path = s.disk.leadsTo b.1.path → a.2 = b.2) ∧
  (∀ a ∈ entries, ∀ b ∈ entries, ∀ t u order order',
    orderOf o config o.base a = .ok (t, order) → orderOf o config o.base b = .ok (u, order') →
    t.Plain → u.Plain →
      (s.disk.leadsTo order.path = s.disk.leadsTo order'.path ↔ t.name = u.name ∧ t.file = u.file)) := by
  rcases on_documentEntries_eq_ok hdone with ⟨hmade, hafter⟩
  refine ⟨fun hdashboard => ?_, hmade.trans (map_fst_pagesOf _ _).symm,
    fun page hpage => exists_content_of_mem_pagesOf hpage, ?_, fun a _ b _ t u order order' ha hb => ?_⟩
  · have hconclude : ∃ code, on (concludeMany c o config done) d' = (.ok code, d') :=
      on_concludeMany hdashboard d'
    rcases hconclude with ⟨code, hcode⟩
    rw [(runWords_many hread hplan).2, perform, on_bind (concludeMany_oblivious c o config), hdone]
    dsimp only
    rw [hcode]
  · rw [hafter]
    exact kept_iff_pairwise rfl
  · exact leadsTo_order_eq_iff (Path.ofText_proper _) ha hb

/-- Two libraries whose sources have the same name. -/
def namesakes : Disk :=
  .ofFiles [] [("c.json",
      "\x7b\"site\": \x7b\x7d, \"libraries\": [\x7b\"source\": \"a/lib.py\"\x7d, " ++
      "\x7b\"source\": \"b/lib.py\"\x7d]\x7d"),
    ("a/lib.py", "@keyword\ndef f():\n    pass\n"), ("b/lib.py", "@keyword\ndef g():\n    pass\n")]

theorem pages_kept_iff_namesakes : ∃ config entries s done d',
  readOptions manyWords = .ok manyOptions ∧
  ended (plan plainConsole manyOptions) { disk := namesakes } = (.ok (.many config entries), s) ∧
  on (documentEntries plainConsole manyOptions config entries) s.disk = (.ok done, d') ∧
  done.length = 2 ∧
  ¬ ∀ page ∈ pagesOf plainConsole manyOptions config manyOptions.base s.disk entries,
    d'.at? (s.disk.leadsTo page.1.path) = page.2 := by
  have hread : readOptions manyWords = .ok manyOptions := by decide +kernel
  have htest : plansMany (fun config entries s =>
      allSucceed plainConsole manyOptions config manyOptions.base s.disk entries &&
        decide ((pagesOf plainConsole manyOptions config manyOptions.base s.disk entries).length = 2 ∧
          ¬ (pagesOf plainConsole manyOptions config manyOptions.base s.disk entries).Pairwise
            fun a b => s.disk.leadsTo a.1.path = s.disk.leadsTo b.1.path → a.2 = b.2))
      (ended (plan plainConsole manyOptions) { disk := namesakes }) := by
    decide +kernel
  rcases exists_of_plansMany htest with ⟨config, entries, s, hplan, hrun⟩
  rw [Bool.and_eq_true, decide_eq_true_eq] at hrun
  have hdone := on_documentEntries hrun.1 fun _ _ _ _ => .inl rfl
  rcases pages_kept_iff hread hplan hdone with ⟨-, htold, -, hkept, -⟩
  refine ⟨config, entries, s, _, _, hread, hplan, hdone, ?_, fun hall => hrun.2.2 (hkept.mp hall)⟩
  rw [htold, length_map]
  exact hrun.2.1

end KeywordDocs.Command
