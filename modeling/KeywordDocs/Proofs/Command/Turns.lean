import KeywordDocs.Proofs.Command.Libraries

/-!
# What a Library Does to a Disk

The turn of one library among many. One that fails or is only reported leaves nothing but new directories
behind; one that is documented also writes a single file, its page (`documentLibrary_turn`).
-/

namespace KeywordDocs.Command

open Files Files.Disk Report

/-- The page that a library asks for. -/
def orderOf (o : Options) (config : Json) (base : Path) (entry : Json) :
  Except Failure (Target × PageOrder) := do
  let t ← targetOf o entry
  let file ← pathPart t.file
  return (t, t.order o config base entry file)

/-- The ways in which the turn of a library ends, and what is on the disk then. -/
inductive LibraryTurn (c : Conditions) (o : Options) (config : Json) (base : Path) (entry : Json)
  (d : Disk) : Except Failure (String × Option Documented) → Disk → Prop where
  | failed (e : Failure) {ways : List Place} {d' : Disk} (adds : Adds ways d d') :
      LibraryTurn c o config base entry d (.error e) d'
  | reported {t : Target} {order : PageOrder} {problem : Problem} {d' : Disk}
      (asks : orderOf o config base entry = .ok (t, order))
      (adds : Adds (d.way (t.folder base)) d d')
      (drafted : draftPage c order d' = .ok (.inl problem)) :
      LibraryTurn c o config base entry d (.ok (t.name, none)) d'
  | written {t : Target} {order : PageOrder} {draft : Draft} {card : Option Site.Card}
      {d₁ d₂ d' : Disk}
      (asks : orderOf o config base entry = .ok (t, order))
      (adds : Adds (d.way (t.folder base)) d d₁)
      (drafted : draftPage c order d₁ = .ok (.inr draft))
      (within : Adds (d.way (Path.ofText order.path).parent) d₁ d₂)
      (collected : collectCard order draft = .ok card)
      (wrote : d₂.writeText order.path draft.text = .ok d') :
      LibraryTurn c o config base entry d
        (.ok (t.name, some
          { name := t.name, path := order.path, keywords := draft.lib.keywords.length,
            format := t.format, card }))
        d'

variable {c : Conditions} {o : Options} {config : Json} {base : Path} {entry : Json} {t : Target}
  {order : PageOrder}

lemma orderOf_eq_ok (h : orderOf o config base entry = .ok (t, order)) :
  targetOf o entry = .ok t ∧
    ∃ file, t.file = .str file ∧ order = t.order o config base entry file := by
  rw [orderOf] at h
  cases htarget : targetOf o entry with
  | error e =>
    rw [htarget] at h
    cases h
  | ok t' =>
    rw [htarget] at h
    change (pathPart t'.file >>= _) = _ at h
    cases hfile : t'.file with
    | str file =>
      rw [hfile] at h
      cases h
      exact ⟨rfl, file, hfile, rfl⟩
    | _ =>
      rw [hfile] at h
      cases h

variable {d d' : Disk}

lemma on_ensureDirectory (p : Path) (d : Disk) :
  ∃ r d', on (ensureDirectory p) d = (r, d') ∧ Adds (d.way p) d d' := by
  rw [ensureDirectory, on_onDisk]
  cases hmade : d.ensureDirectory p with
  | error f => exact ⟨_, _, rfl, Adds.refl _ d⟩
  | ok d' => exact ⟨_, _, rfl, ensureDirectory_adds hmade⟩

lemma writePage_oblivious (order : PageOrder) (draft : Draft) (card : Option Site.Card) : Oblivious (do
    writeText order.path draft.text
    return some { path := order.path, keywords := draft.lib.keywords.length, card : PageDone }) :=
  (writeText_oblivious _ _).bind fun _ => .pure _

lemma on_finishPage (c : Conditions) (order : PageOrder) (draft : Draft) (d : Disk) :
  (∃ e d', on (finishPage c order (.inr draft)) d = (.error e, d') ∧
    Adds (d.way (Path.ofText order.path).parent) d d') ∨
  ∃ card d₂ d', Adds (d.way (Path.ofText order.path).parent) d d₂ ∧
    collectCard order draft = .ok card ∧ d₂.writeText order.path draft.text = .ok d' ∧
    on (finishPage c order (.inr draft)) d =
      (.ok (some { path := order.path, keywords := draft.lib.keywords.length, card }), d') := by
  have hwrite := writePage_oblivious order draft
  rcases on_ensureDirectory (Path.ofText order.path).parent d with ⟨r, d₂, hmade, hadds⟩
  rw [finishPage, on_bind fun _ => (Oblivious.orFail _).bind hwrite, hmade]
  cases r with
  | error e => exact .inl ⟨e, d₂, rfl, hadds⟩
  | ok u =>
    dsimp only
    rw [on_bind hwrite, on_orFail]
    cases hcard : collectCard order draft with
    | error e => exact .inl ⟨e, d₂, rfl, hadds⟩
    | ok card =>
      dsimp only
      rw [on_bind fun _ => .pure _, writeText, on_onDisk]
      cases hwrote : d₂.writeText order.path draft.text with
      | error f => exact .inl ⟨_, d₂, rfl, hadds⟩
      | ok d' => exact .inr ⟨card, d₂, d', hadds, rfl, hwrote, rfl⟩

lemma on_makePage (c : Conditions) (order : PageOrder) (d : Disk) :
  on (makePage c order) d = match draftPage c order d with
    | .ok r => on (finishPage c order r) d
    | .error e => (.error e, d) := by
  have hget := on_get (fun d => orFail (draftPage c order d) >>= finishPage c order) d
  rw [makePage, hget, on_bind (finishPage_oblivious c order), on_orFail]
  cases draftPage c order d <;> rfl

lemma makePage_turn {t : Target} {order : PageOrder} {d₁ : Disk}
  (hasks : orderOf o config base entry = .ok (t, order)) (hadds : Adds (d.way (t.folder base)) d d₁)
  {r : Except Failure (String × Option Documented) × Disk}
  (hr : on (recordPage c t order) d₁ = r) : LibraryTurn c o config base entry d r.1 r.2 := by
  rw [recordPage, on_bind fun _ => .pure _, on_makePage] at hr
  cases hdraft : draftPage c order d₁ with
  | error e =>
    rw [hdraft] at hr
    cases hr
    exact .failed e hadds
  | ok drafted =>
    rw [hdraft] at hr
    cases drafted with
    | inl problem =>
      dsimp only at hr
      rw [finishPage, on_bind fun _ => .pure none, (Speaks.report c problem).on_eq] at hr
      cases hr
      exact .reported hasks hadds hdraft
    | inr draft =>
      dsimp only at hr
      rcases on_finishPage c order draft d₁ with ⟨e, d', hfinish, hmore⟩ |
        ⟨card, d₂, d', hmore, hcard, hwrote, hfinish⟩
      · rw [hfinish] at hr
        cases hr
        exact .failed e ((hadds.mono (List.subset_append_left _ _)).trans
          (hmore.mono (List.subset_append_right _ _)))
      · rw [way_congr hadds.home] at hmore
        rw [hfinish] at hr
        cases hr
        exact .written hasks hadds hdraft hmore hcard hwrote

variable (c o config base entry)

lemma page_oblivious (t : Target) (file : String) :
  Oblivious (recordPage c t (t.order o config base entry file)) :=
  recordPage_oblivious c t _

lemma documentLibrary_turn (d : Disk) :
  LibraryTurn c o config base entry d (on (documentLibrary c o config base entry) d).1
    (on (documentLibrary c o config base entry) d).2 := by
  have hpage := page_oblivious c o config base entry
  have hfile : ∀ t : Target, Oblivious _ := fun t => (Oblivious.orFail (pathPart t.file)).bind (hpage t)
  rw [documentLibrary, on_bind fun t => (ensureDirectory_oblivious _).bind fun _ => hfile t, on_orFail]
  cases htarget : targetOf o entry with
  | error e => exact .failed e (Adds.refl [] d)
  | ok t =>
    rcases on_ensureDirectory (t.folder base) d with ⟨r, d₁, hmade, hadds⟩
    dsimp only
    rw [on_bind fun _ => hfile t, hmade]
    cases r with
    | error e => exact .failed e hadds
    | ok u =>
      dsimp only
      rw [on_bind (hpage t), on_orFail]
      cases hpart : pathPart t.file with
      | error e => exact .failed e hadds
      | ok file =>
        have hasks : orderOf o config base entry = .ok (t, t.order o config base entry file) := by
          rw [orderOf, htarget]
          show (pathPart t.file >>= _) = _
          rw [hpart]
          rfl
        exact makePage_turn hasks hadds rfl

variable {c o config base entry}

namespace LibraryTurn

variable {r : Except Failure (String × Option Documented)} {doc : Documented} {p : Place}

lemma home (h : LibraryTurn c o config base entry d r d') : d'.home = d.home := by
  cases h with
  | failed e adds => exact adds.home
  | reported asks adds drafted => exact adds.home
  | written asks adds drafted within collected wrote =>
    exact (home_write wrote).trans (within.home.trans adds.home)

lemma file_iff (h : LibraryTurn c o config base entry d r d')
  (hp : ∀ doc, madeBy r = some doc → d.leadsTo doc.path ≠ p) (content : ByteArray) :
  d'.at? p = some (.file content) ↔ d.at? p = some (.file content) := by
  cases h with
  | failed e adds => exact adds.file_iff content
  | reported asks adds drafted => exact adds.file_iff content
  | @written t order draft card d₁ d₂ _ asks adds drafted within collected wrote =>
    have hplace : d₂.leadsTo order.path = d.leadsTo order.path :=
      leadsTo_congr (within.home.trans adds.home) _
    rw [at?_write wrote, hplace, if_neg (hp _ rfl).symm, within.file_iff, adds.file_iff]

lemma page (h : LibraryTurn c o config base entry d r d') (hmade : madeBy r = some doc) :
  ∃ content, d'.at? (d.leadsTo doc.path) = some (.file content) := by
  cases h with
  | failed e adds => cases hmade
  | reported asks adds drafted => cases hmade
  | @written t order draft card d₁ d₂ _ asks adds drafted within collected wrote =>
    cases hmade
    refine ⟨draft.text.toUTF8, ?_⟩
    rw [at?_write wrote, leadsTo_congr (within.home.trans adds.home), if_pos rfl]

end LibraryTurn

variable {entries : List Json} {p : Place}

lemma diskAfter_cons (d : Disk) (entry : Json) (entries : List Json) :
  diskAfter c o config base d (entry :: entries) =
    diskAfter (c.after entry) o config base (on (documentLibrary c o config base entry) d).2 entries := rfl

lemma file_diskAfter {content : ByteArray}
  (hp : ∀ step ∈ librarySteps c o config base d entries, ∀ doc, madeBy step.1 = some doc →
    d.leadsTo doc.path ≠ p) :
  (diskAfter c o config base d entries).at? p = some (.file content) ↔ d.at? p = some (.file content) := by
  induction entries generalizing c d with
  | nil => exact Iff.rfl
  | cons entry entries ih =>
    have hturn := documentLibrary_turn c o config base entry d
    rw [librarySteps, List.forall_mem_cons] at hp
    rw [diskAfter_cons, ih, hturn.file_iff hp.1]
    intro step hstep doc hdoc
    rw [leadsTo_congr hturn.home]
    exact hp.2 step hstep doc hdoc

end KeywordDocs.Command
