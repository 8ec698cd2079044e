import KeywordDocs.Proofs.Command.Options
import KeywordDocs.Proofs.Command.Run

/-!
# Parallel Mode

A library that fails ends the run that documents one library after another, and is left out in parallel mode.
So for several libraries the two can only agree if none fails.
-/

namespace KeywordDocs.Command

open Files Report

variable {c : Conditions} {o : Options} {config : Json} {entries : List Json} {s s' : Session}

def Gives {α : Type} (m : Run α) (P : α → Prop) : Prop := ∀ s a s', ended m s = (.ok a, s') → P a

lemma Gives.pure {α : Type} {P : α → Prop} {a : α} (h : P a) : Gives (Pure.pure a) P := by
  rintro s _ s' ⟨⟩
  exact h

lemma Gives.bind {α β : Type} {m : Run α} {f : α → Run β} {P : β → Prop} (h : ∀ a, Gives (f a) P) :
  Gives (m >>= f) P := by
  intro s b s' hended
  rw [ended_bind] at hended
  rcases hm : ended m s with ⟨r, s₁⟩
  rw [hm] at hended
  cases r with
  | error e => cases hended
  | ok a => exact h a s₁ b s' hended

lemma planOne_gives (c : Conditions) (o : Options) (config : Json) :
  Gives (planOne c o config) fun task => ∀ config entries, task ≠ Task.many config entries := by
  refine Gives.bind fun verdict => ?_
  cases verdict with
  | rejected p => exact Gives.bind fun _ => .pure nofun
  | accepted =>
    refine Gives.bind fun _ => ?_
    unfold planInput
    split
    · exact Gives.bind fun _ => .pure nofun
    · exact .pure nofun

lemma wantsMany_of_plan (h : ended (plan c o) s = (.ok (.many config entries), s')) :
  o.wantsMany := by
  have hgives : o.wantsMany = false →
      Gives (plan c o) fun task => ∀ config entries, task ≠ Task.many config entries := by
    intro hone
    have hwith : ∀ config, Gives (plan.planWith c o config) fun task =>
        ∀ config entries, task ≠ Task.many config entries := by
      intro config
      rw [plan.planWith, hone, if_neg Bool.false_ne_true]
      exact planOne_gives c o config
    unfold plan
    split
    · split
      · exact Gives.bind fun _ => .pure nofun
      · exact hwith _
    · exact Gives.bind hwith
  cases hmany : o.wantsMany with
  | true => rfl
  | false => cases (hgives hmany s _ s' h config entries) rfl

lemma plan_inParallel (h : ended (plan c o) s = (.ok (.many config entries), s')) :
  ended (plan c (inParallel o)) s = (.ok (.many config entries), s') := by
  have hmany := wantsMany_of_plan h
  have hwith : plan.planWith c (inParallel o) = plan.planWith c o := by
    funext config
    have hmany' : (inParallel o).wantsMany := hmany
    rw [plan.planWith, plan.planWith, hmany, hmany', if_pos rfl, if_pos rfl]
    rfl
  have hplan : plan c (inParallel o) = plan c o := by
    unfold plan
    rw [hwith]
    rfl
  rw [hplan, h]

variable {d disk : Disk} {words : List String} {task : Task} {s : Session}

lemma librarySteps_inParallel (d : Disk) (entries : List Json) :
  librarySteps c (inParallel o) config (inParallel o).base d entries =
    librarySteps c o config o.base d entries := by
  induction entries generalizing c d with
  | nil => rfl
  | cons entry entries ih =>
    rw [librarySteps, librarySteps, ih]
    rfl

lemma allSucceed_inParallel (d : Disk) (entries : List Json) :
  allSucceed c (inParallel o) config (inParallel o).base d entries =
    allSucceed c o config o.base d entries := by
  rw [allSucceed, allSucceed, librarySteps_inParallel]

lemma diskAfter_inParallel (d : Disk) (entries : List Json) :
  diskAfter c (inParallel o) config (inParallel o).base d entries =
    diskAfter c o config o.base d entries := by
  induction entries generalizing c d with
  | nil => rfl
  | cons entry entries ih => exact ih _

lemma documentAll_inParallel (entries : List Json) :
  documentAll c (inParallel o) config (inParallel o).base entries =
    documentAll c o config o.base entries := by
  induction entries generalizing c with
  | nil => rfl
  | cons entry entries ih =>
    rw [documentAll, documentAll, ih]
    rfl

lemma on_perform_of_error (hseq : o.parallel = false)
  (h : allSucceed c o config o.base d entries = false) :
  ∃ e, (on (perform c o (.many config entries)) d).1 = .error e := by
  rcases on_documentAll_of_error h with ⟨e, he⟩
  refine ⟨e, ?_⟩
  rw [perform, on_bind (concludeMany_oblivious c o config), documentEntries, hseq, Bool.false_and,
    if_neg Bool.false_ne_true]
  rcases hall : on (documentAll c o config o.base entries) d with ⟨r, d'⟩
  rw [hall] at he
  cases he
  rfl

lemma on_perform_inParallel (config : Json) (d : Disk) (hmany : 1 < entries.length)
  (hdashboard : o.dashboard = false)
  (htell : TellsMade c o config o.base d entries)
  (hfailed : ∀ entry ∈ entries, ∀ e, Tellable c (failedOutcome entry e)) :
  ∃ code, (on (perform c (inParallel o) (.many config entries)) d).1 = .ok code := by
  have hparallel : (inParallel o).parallel && decide (1 < entries.length) := by
    rw [decide_eq_true hmany]
    rfl
  have hall : on (documentParallel c (inParallel o) config (inParallel o).base entries) d = _ :=
    on_documentParallel fun entry hentry step hmem => by
      rw [librarySteps_inParallel] at hmem
      cases hstep : step.1 with
      | ok result => exact tellable_of_ok entry (hstep ▸ htell step hmem)
      | error e => exact hfailed entry hentry e
  rw [perform, on_bind (concludeMany_oblivious c _ config), documentEntries, if_pos hparallel, hall]
  have hconclude : ∀ done d', ∃ code, on (concludeMany c (inParallel o) config done) d' = (.ok code, d') :=
    fun done d' => on_concludeMany hdashboard d'
  dsimp only
  rcases hconclude _ _ with ⟨code, hcode⟩
  rw [hcode]
  exact ⟨code, rfl⟩

lemma on_documentEntries_inParallel
  (h : entries.length ≤ 1 ∨ allSucceed c o config o.base d entries = true ∧
    TellsMade c o config o.base d entries) :
  on (documentEntries c (inParallel o) config entries) d = on (documentEntries c o config entries) d := by
  rcases h with hfew | ⟨hok, htell⟩
  · -- A single library is documented without parallel mode in any case.
    have hone : ∀ parallel, (parallel && decide (1 < entries.length)) = false := fun parallel => by
      rw [decide_eq_false (Nat.not_lt.mpr hfew), Bool.and_false]
    rw [documentEntries, documentEntries, hone, hone, if_neg Bool.false_ne_true,
      if_neg Bool.false_ne_true, documentAll_inParallel]
  · have hentries : on (documentEntries c (inParallel o) config entries) d = _ :=
      on_documentEntries ((allSucceed_inParallel _ _).trans hok)
        (by rwa [TellsMade, librarySteps_inParallel])
    rw [hentries, librarySteps_inParallel, diskAfter_inParallel, on_documentEntries hok htell]

/-- Runs in parallel mode and runs without it, under any conditions. If there is at most one library, or none
fails and the console can tell of all that are documented, both collect the same, leave the same disk and
end the same way. If one of several fails, the run without parallel mode ends with a failure; the run in
parallel mode does not, if the console can tell of all. -/
theorem parallel_agrees (hread : readOptions words = .ok o)
  (hplan : ended (plan c o) { disk } = (.ok (.many config entries), s)) :
  (entries.length ≤ 1 ∨ allSucceed c o config o.base s.disk entries = true ∧
      TellsMade c o config o.base s.disk entries →
    on (documentEntries c (inParallel o) config entries) s.disk =
        on (documentEntries c o config entries) s.disk ∧
      (runWords c ("--parallel" :: words) disk).1 = (runWords c words disk).1 ∧
      (runWords c ("--parallel" :: words) disk).2.disk = (runWords c words disk).2.disk) ∧
  (allSucceed c o config o.base s.disk entries = false → o.parallel = false → 1 < entries.length →
    o.dashboard = false →
    TellsMade c o config o.base s.disk entries → (∀ entry ∈ entries, ∀ e, Tellable c (failedOutcome entry e)) →
      (∃ e, (runWords c words disk).1 = .failed e) ∧
        ∃ code, (runWords c ("--parallel" :: words) disk).1 = .exit code) := by
  have hread' : readOptions ("--parallel" :: words) = .ok (inParallel o) := by
    rw [readOptions_parallel, hread]
    rfl
  rcases runWords_many hread hplan with ⟨hending, hdisk⟩
  rcases runWords_many hread' (plan_inParallel hplan) with ⟨hending', hdisk'⟩
  refine ⟨fun hagree => ?_, fun herror hseq hmany hdashboard htell hfailed => ?_⟩
  · have hentries := on_documentEntries_inParallel hagree
    have hperform : on (perform c (inParallel o) (.many config entries)) s.disk =
        on (perform c o (.many config entries)) s.disk := by
      rw [perform, perform, on_bind (concludeMany_oblivious c _ config),
        on_bind (concludeMany_oblivious c _ config), hentries]
      rfl
    rw [hending', hdisk', hending, hdisk, hperform]
    exact ⟨hentries, rfl, rfl⟩
  · rcases on_perform_of_error hseq herror with ⟨e, he⟩
    rcases on_perform_inParallel config s.disk hmany hdashboard htell hfailed with ⟨code, hcode⟩
    rw [hending, hending', he, hcode]
    exact ⟨⟨e, rfl⟩, code, rfl⟩

/-- Two libraries, the first of which has a keyword with a parameter that no page can show. -/
def twoLibraries : Disk :=
  .ofFiles [] [("c.json",
      "\x7b\"site\": \x7b\x7d, \"libraries\": [\x7b\"source\": \"a.py\"\x7d, " ++
      "\x7b\"source\": \"b.py\"\x7d]\x7d"),
    ("a.py", "@keyword\ndef f(x):\n    pass\n"), ("b.py", "@keyword\ndef f():\n    pass\n")]

theorem parallel_agrees_failing_library : ∃ config entries s, readOptions manyWords = .ok manyOptions ∧
  ended (plan plainConsole manyOptions) { disk := twoLibraries } = (.ok (.many config entries), s) ∧
    (∃ e, (runWords plainConsole manyWords twoLibraries).1 = .failed e) ∧
    ∃ code, (runWords plainConsole ("--parallel" :: manyWords) twoLibraries).1 = .exit code := by
  have hread : readOptions manyWords = .ok manyOptions := by decide +kernel
  have htest : plansMany (fun config entries s => decide (1 < entries.length) &&
      !allSucceed plainConsole manyOptions config manyOptions.base s.disk entries)
      (ended (plan plainConsole manyOptions) { disk := twoLibraries }) := by
    decide +kernel
  rcases exists_of_plansMany htest with ⟨config, entries, s, hplan, hfails⟩
  rw [Bool.and_eq_true, decide_eq_true_eq, Bool.not_eq_true'] at hfails
  have hmodes := (parallel_agrees hread hplan).2 hfails.2 rfl hfails.1 rfl
    (fun _ _ _ _ => .inl rfl) fun _ _ _ => .inl rfl
  exact ⟨config, entries, s, hread, hplan, hmodes⟩

end KeywordDocs.Command
