import KeywordDocs.Proofs.Command.Turns
import KeywordDocs.Proofs.Page.Found

/-!
# Libraries That Get Their Page

Whether a library gets an HTML page can be told without making it: the sample of test code on it is
highlighted, which cannot fail if all names are texts.
-/

namespace KeywordDocs

namespace Page

open Highlight

lemma text?_isSome_iff {v : Value} : v.text?.isSome ↔ ∃ s, v = .str s := by
  constructor
  · intro h
    cases v with
    | str s => exact ⟨s, rfl⟩
    | _ => cases h
  · rintro ⟨s, rfl⟩
    rfl

instance (v : Value) : Decidable (Fills v) :=
  decidable_of_iff (v.isTruthy = false ∨ v.text?.isSome)
    (or_congr Iff.rfl text?_isSome_iff)

lemma paired_iff {p : Parameter} : Paired p ↔ p.pair.isOk := by
  rw [Paired]
  cases p.pair with
  | error f =>
    refine ⟨fun h => ?_, fun h => by cases h⟩
    rcases h with ⟨_, _, hpair⟩
    cases hpair
  | ok pair => exact ⟨fun _ => rfl, fun _ => ⟨pair.1, pair.2, rfl⟩⟩

instance (p : Parameter) : Decidable (Paired p) := decidable_of_iff _ paired_iff.symm

instance (lib : Library) : Decidable (AllPaired lib) :=
  inferInstanceAs (Decidable (∀ k ∈ lib.keywords, ∀ p ∈ k.parameters, Paired p))

instance (lib : Library) : Decidable (FitForPage lib) :=
  decidable_of_iff (Fills lib.description ∧ Fills lib.version ∧ Fills lib.scope ∧
      ∀ k ∈ lib.keywords, k.name.text?.isSome)
    ⟨fun h => ⟨h.1, h.2.1, h.2.2.1, fun k hk => text?_isSome_iff.mp (h.2.2.2 k hk)⟩,
      fun h => ⟨h.description, h.version, h.scope, fun k hk => text?_isSome_iff.mpr (h.names k hk)⟩⟩

lemma textSettings_iff {settings : Json} : TextSettings settings ↔
  (∀ name ∈ settings.field? "name", Fills (.ofJson name)) ∧
  (∀ url ∈ setting? settings "github_url", url.text?.isSome) ∧
  ∀ n ∈ customNames (some settings), n.text?.isSome := by
  constructor
  · intro h
    refine ⟨h.name, fun url hurl => ?_, fun n hn => ?_⟩
    · rcases h.repository url hurl with ⟨s, rfl⟩
      rfl
    · rcases h.keywords n hn with ⟨s, hs⟩
      rw [hs]
      rfl
  · rintro ⟨hname, hurl, hnames⟩
    refine ⟨hname, fun url hgiven => ?_, fun n hn => Option.isSome_iff_exists.mp (hnames n hn)⟩
    have htext := hurl url hgiven
    cases url with
    | str s => exact ⟨s, rfl⟩
    | _ => cases htext

instance (settings : Json) : Decidable (TextSettings settings) := decidable_of_iff _ textSettings_iff.symm

end Page

namespace Command

open Files Files.Disk Report Site Page Discovery Highlight

variable {c : Conditions} {order : PageOrder} {d : Disk}

def fitForOrder (order : PageOrder) (settings : Json) : Except Fault (Way × Library) → Bool
  | .ok (_, lib) => !lib.keywords.isEmpty &&
      decide (TextSettings settings ∧ FitForPage lib ∧ AllPaired lib) &&
      (collectCard order { lib, settings, text := "" }).isOk
  | .error _ => false

def draftable (c : Conditions) (order : PageOrder) (d : Disk) : Bool :=
  match mergedSettings order.config (ownMembers order.own) with
  | .ok (.obj members) =>
    match SourceFile.onDisk d order.input with
    | .ok file => !isMarkdown order.format &&
        fitForOrder order (.obj members) (c.find (.obj members) file).1
    | .error _ => false
  | _ => false

lemma draftPage_of_draftable (h : draftable c order d) :
  ∃ draft card, draftPage c order d = .ok (.inr draft) ∧ collectCard order draft = .ok card := by
  unfold draftable at h
  split at h
  case h_1 members hmerged =>
    split at h
    case h_1 file hfile =>
      rw [Bool.and_eq_true, Bool.not_eq_true'] at h
      rcases h with ⟨hformat, hfit⟩
      rcases hfound : c.find (.obj members) file with ⟨found, v⟩
      rw [hfound] at hfit
      cases found with
      | error f => cases hfit
      | ok found =>
        rcases found with ⟨way, lib⟩
        rw [fitForOrder, Bool.and_eq_true, Bool.and_eq_true, Bool.not_eq_true', decide_eq_true_eq] at hfit
        rcases hfit with ⟨⟨hkeywords, hsettings, hpage⟩, hcard⟩
        rcases discover_keyNames hfound with ⟨hname, hkey⟩
        rcases discover_eq_ok hfound with ⟨-, -, hattached, -⟩
        rcases (html_succeeds_iff c.template c.now hsettings hname hkey hattached).mpr hpage with
          ⟨text, htext⟩
        have hcontent : (StateT.run (pageContent c order.format (.obj members) lib).run v).1 = .ok text := by
          rw [pageContent, pageSettings]
          dsimp only
          rw [hformat, if_neg Bool.false_ne_true]
          exact htext
        have hdraft : draftPage c order d = .ok (.inr { lib, settings := .obj members, text }) := by
          simp only [draftPage, hmerged, hfile, hfound, hkeywords, hcontent, Except.mapError, bind,
            Except.bind, pure, Except.pure, Bool.false_eq_true, if_false]
        cases hcollect : collectCard order { lib, settings := .obj members, text := "" } with
        | error e =>
          rw [hcollect] at hcard
          cases hcard
        | ok card => exact ⟨_, card, hdraft, hcollect⟩
    case h_2 => cases h
  case h_2 => cases h

variable {o : Options} {config : Json} {base : Path} {entry : Json} {d₁ d₂ : Disk} {t : Target}
  {draft : Draft} {card : Option Card}

lemma writeText_isOk (d : Disk) (path text text' : String) :
  (d.writeText path text).isOk = (d.writeText path text').isOk := by
  rw [Disk.writeText, Disk.writeText, write, write]
  cases d.place path with
  | error f => rfl
  | ok p =>
    simp only [bind, Except.bind]
    cases d.at? p with
    | none => rfl
    | some e => cases e <;> rfl

lemma on_finishPage_of_ok (hparent : d₁.ensureDirectory (Path.ofText order.path).parent = .ok d₂)
  (hcard : collectCard order draft = .ok card)
  (hwrite : (d₂.writeText order.path "").isOk) :
  ∃ d', on (finishPage c order (.inr draft)) d₁ =
    (.ok (some { path := order.path, keywords := draft.lib.keywords.length, card }), d') := by
  have hnext := writePage_oblivious order draft
  rw [finishPage, on_bind fun _ => (Oblivious.orFail _).bind hnext, ensureDirectory, on_onDisk, hparent]
  dsimp only
  rw [on_bind hnext, on_orFail, hcard]
  dsimp only
  rw [on_bind fun _ => .pure _, Command.writeText, on_onDisk]
  rw [writeText_isOk d₂ order.path "" draft.text] at hwrite
  cases hwrote : d₂.writeText order.path draft.text with
  | error f =>
    rw [hwrote] at hwrite
    cases hwrite
  | ok d' => exact ⟨d', rfl⟩

lemma on_documentLibrary (hasks : orderOf o config base entry = .ok (t, order))
  (hfolder : d.ensureDirectory (t.folder base) = .ok d₁) :
  on (documentLibrary c o config base entry) d = on (recordPage c t order) d₁ := by
  rcases orderOf_eq_ok hasks with ⟨htarget, file, hfile, rfl⟩
  have hpage := page_oblivious c o config base entry
  have hnext : ∀ t : Target, Oblivious _ := fun t => (Oblivious.orFail (pathPart t.file)).bind (hpage t)
  have hpart : pathPart t.file = .ok file := by
    rw [hfile]
    rfl
  rw [documentLibrary, on_bind fun t => (ensureDirectory_oblivious _).bind fun _ => hnext t, on_orFail,
    htarget]
  dsimp only
  rw [on_bind fun _ => hnext t, ensureDirectory, on_onDisk, hfolder]
  dsimp only
  rw [on_bind (hpage t), on_orFail, hpart]

variable (c o config base) in
def getsPage (d : Disk) (entry : Json) : Bool :=
  match orderOf o config base entry with
  | .ok (t, order) =>
    match d.ensureDirectory (t.folder base) with
    | .ok d₁ =>
      match d₁.ensureDirectory (Path.ofText order.path).parent with
      | .ok d₂ => draftable c order d₁ && (d₂.writeText order.path "").isOk
      | .error _ => false
    | .error _ => false
  | .error _ => false

lemma on_documentLibrary_of_getsPage (h : getsPage c o config base d entry) :
  ∃ t order doc d', orderOf o config base entry = .ok (t, order) ∧
    on (documentLibrary c o config base entry) d = (.ok (t.name, some doc), d') ∧
    doc.path = order.path ∧ doc.format = t.format := by
  unfold getsPage at h
  split at h
  case h_1 t order hasks =>
    split at h
    case h_1 d₁ hfolder =>
      split at h
      case h_1 d₂ hparent =>
        rw [Bool.and_eq_true] at h
        rcases draftPage_of_draftable h.1 with ⟨draft, card, hdraft, hcard⟩
        rcases on_finishPage_of_ok (c := c) hparent hcard h.2 with ⟨d', hfinish⟩
        refine ⟨t, order, {
          name := t.name, path := order.path, keywords := draft.lib.keywords.length,
          format := t.format, card }, d', hasks, ?_, rfl, rfl⟩
        rw [on_documentLibrary hasks hfolder, recordPage, on_bind fun _ => .pure _, on_makePage, hdraft]
        dsimp only
        rw [hfinish]
        rfl
      case h_2 => cases h
    case h_2 => cases h
  case h_2 => cases h

end Command

end KeywordDocs
