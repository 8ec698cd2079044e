import KeywordDocs.Page.Html
import KeywordDocs.Proofs.Markup.Document

/-!
# When Pages Can Be Made

A page needs some of the values that come from programs to be texts and every parameter to be a name with a
type, and it can be made as soon as they are.
-/

namespace KeywordDocs.Page

open Text Markup Highlight

variable {α : Type} (template : String)

/-- A value that fills a placeholder: a text, or any value that counts as nothing. -/
def Fills (v : Value) : Prop := v.isTruthy = false ∨ ∃ s, v = .str s

/-- A parameter that is a name with a type. -/
def Paired (p : Parameter) : Prop := ∃ name type, p.pair = .ok (name, type)

/-- All parameters of a library are names with types. -/
def AllPaired (lib : Library) : Prop := ∀ k ∈ lib.keywords, ∀ p ∈ k.parameters, Paired p

/-- What a page of a library needs besides its parameters: values that fill a placeholder, and names
of keywords that are texts. -/
structure FitForPage (lib : Library) : Prop where
  description : Fills lib.description
  version : Fills lib.version
  scope : Fills lib.scope
  names : ∀ k ∈ lib.keywords, ∃ s, k.name = .str s

def KeyNames (k : Keyword) : Prop := ∀ p ∈ k.parameters, ∀ name type, p.pair = .ok (name, type) → isKey name

lemma fillingText_succeeds_iff (v : Value) : (∃ s, fillingText v = .ok s) ↔ Fills v := by
  unfold fillingText
  cases htruthy : v.isTruthy with
  | false => exact ⟨fun _ => .inl htruthy, fun _ => ⟨"", rfl⟩⟩
  | true =>
    constructor
    · rintro ⟨s, hs⟩
      cases v with
      | str t => exact .inr ⟨t, rfl⟩
      | _ => cases hs
    · rintro (hfalse | ⟨s, rfl⟩)
      · rw [htruthy] at hfalse
        cases hfalse
      · exact ⟨s, rfl⟩

lemma fill_cons (e : String × Value) (values : List (String × Value)) :
  fill template (e :: values) = (fillingText e.2 >>= fun s =>
    fill (replace (placeholder e.1) s template) values) := by
  rcases e with ⟨name, v⟩
  unfold fill
  rw [List.foldlM_cons]
  dsimp only
  cases fillingText v <;> rfl

lemma fill_succeeds_iff (values : List (String × Value)) :
  (∃ page, fill template values = .ok page) ↔ ∀ e ∈ values, Fills e.2 := by
  induction values generalizing template with
  | nil => exact ⟨fun _ _ he => (nomatch he), fun _ => ⟨template, rfl⟩⟩
  | cons e values ih =>
    rw [List.forall_mem_cons, ← fillingText_succeeds_iff, fill_cons]
    constructor
    · rintro ⟨page, hpage⟩
      rcases bind_eq_ok.mp hpage with ⟨s, hs, hrest⟩
      exact ⟨⟨s, hs⟩, (ih _).mp ⟨page, hrest⟩⟩
    · rintro ⟨⟨s, hs⟩, hrest⟩
      rcases (ih (replace (placeholder e.1) s template)).mpr hrest with ⟨page, hpage⟩
      exact ⟨page, bind_eq_ok.mpr ⟨s, hs, hpage⟩⟩

lemma descriptionLines_succeeds_iff (v : Value) :
  (∃ ls, descriptionLines v = .ok ls) ↔ Fills v := by
  rw [← fillingText_succeeds_iff]
  unfold descriptionLines fillingText
  cases v.isTruthy with
  | false => exact ⟨fun _ => ⟨"", rfl⟩, fun _ => ⟨[], rfl⟩⟩
  | true =>
    cases v with
    | str s => exact ⟨fun _ => ⟨s, rfl⟩, fun _ => ⟨_, rfl⟩⟩
    | _ => exact ⟨nofun, nofun⟩

lemma nameText_succeeds_iff (v : Value) : (∃ s, nameText v = .ok s) ↔ ∃ s, v = .str s := by
  constructor
  · rintro ⟨s, hs⟩
    cases v with
    | str t => exact ⟨t, rfl⟩
    | _ => cases hs
  · rintro ⟨s, rfl⟩
    exact ⟨s, rfl⟩

variable {k : Keyword} {p : Parameter}

lemma lookupName_succeeds (table : List (String × α)) {name : Value}
  (hname : isKey name) : ∃ entry, lookupName table name = .ok entry := by
  unfold lookupName
  cases table.isEmpty with
  | true => exact ⟨none, rfl⟩
  | false =>
    rw [hname]
    exact ⟨_, rfl⟩

lemma shownDefault_succeeds (k : Keyword) {name : Value} (info : Option EnumInfo)
  (hname : isKey name) : ∃ s, shownDefault k name info = .ok s := by
  unfold shownDefault
  split
  · exact ⟨_, rfl⟩
  · rcases lookupName_succeeds k.defaults hname with ⟨entry, hentry⟩
    exact ⟨_, bind_eq_ok.mpr ⟨entry, hentry, rfl⟩⟩

lemma parameter_succeeds_iff (hkey : KeyNames k) (hp : p ∈ k.parameters)
  {write : Value × Value → Option EnumInfo → Option String → Except Fault α}
  (hwrite : ∀ pair info shown, ∃ a, write pair info shown = .ok a) :
  (∃ a, (p.pair >>= fun pair => lookupName k.enums pair.1 >>= fun info =>
    shownDefault k pair.1 info >>= fun shown => write pair info shown) = .ok a) ↔ Paired p := by
  constructor
  · rintro ⟨a, ha⟩
    rcases bind_eq_ok.mp ha with ⟨⟨name, type⟩, hpair, -⟩
    exact ⟨name, type, hpair⟩
  · rintro ⟨name, type, hpair⟩
    have hname := hkey p hp name type hpair
    rcases lookupName_succeeds k.enums hname with ⟨info, hinfo⟩
    rcases shownDefault_succeeds k info hname with ⟨shown, hshown⟩
    rcases hwrite (name, type) info shown with ⟨a, ha⟩
    exact ⟨a, bind_eq_ok.mpr ⟨(name, type), hpair,
      bind_eq_ok.mpr ⟨info, hinfo, bind_eq_ok.mpr ⟨shown, hshown, ha⟩⟩⟩⟩

lemma parameterLines_succeeds_iff (hkey : KeyNames k) (hp : p ∈ k.parameters) :
  (∃ ls, parameterLines k p = .ok ls) ↔ Paired p := by
  refine parameter_succeeds_iff hkey hp fun pair info shown => ?_
  cases info <;> exact ⟨_, rfl⟩

lemma shownParameter_succeeds_iff (hkey : KeyNames k) (hp : p ∈ k.parameters) :
  (∃ s, shownParameter k p = .ok s) ↔ Paired p :=
  parameter_succeeds_iff hkey hp fun _ _ _ => ⟨_, rfl⟩

lemma parameters_succeeds_iff {α β : Type} {write : Parameter → Except Fault α} {none : β}
  {all : List α → β} (hwrite : ∀ p ∈ k.parameters, (∃ a, write p = .ok a) ↔ Paired p) :
  (∃ b, (if k.parameters.isEmpty then pure none else k.parameters.mapM write >>= fun ls =>
    pure (all ls) : Except Fault β) = .ok b) ↔ ∀ p ∈ k.parameters, Paired p := by
  cases hps : k.parameters with
  | nil => exact ⟨fun _ _ hp => (nomatch hp), fun _ => ⟨none, rfl⟩⟩
  | cons p ps =>
    rw [hps] at hwrite
    rw [List.isEmpty_cons, if_neg Bool.false_ne_true]
    constructor
    · rintro ⟨b, hb⟩ p' hp'
      rcases bind_eq_ok.mp hb with ⟨ls, hls, -⟩
      exact (hwrite p' hp').mp (mapM_succeeds_iff.mp ⟨ls, hls⟩ p' hp')
    · intro hpaired
      rcases mapM_succeeds_iff.mpr fun p' hp' => (hwrite p' hp').mpr (hpaired p' hp') with ⟨ls, hls⟩
      exact ⟨all ls, bind_eq_ok.mpr ⟨ls, hls, rfl⟩⟩

lemma keywordLines_succeeds_iff (hkey : KeyNames k) :
  (∃ ls, keywordLines k = .ok ls) ↔ ∀ p ∈ k.parameters, Paired p :=
  parameters_succeeds_iff fun _ hp => parameterLines_succeeds_iff hkey hp

lemma keywordSection_succeeds_iff (hkey : KeyNames k) :
  (∃ e, (do return (← keywordLink k, ← keywordSection k) : Except Fault _) = .ok e) ↔
    (∃ s, k.name = .str s) ∧ ∀ p ∈ k.parameters, Paired p := by
  have hshown : (∃ ps, k.parameters.mapM (shownParameter k) = .ok ps) ↔ ∀ p ∈ k.parameters, Paired p := by
    rw [mapM_succeeds_iff]
    exact forall₂_congr fun p hp => shownParameter_succeeds_iff hkey hp
  rw [← nameText_succeeds_iff, ← hshown]
  constructor
  · rintro ⟨e, he⟩
    rcases bind_eq_ok.mp he with ⟨link, -, he⟩
    rcases bind_eq_ok.mp he with ⟨sect, hsect, -⟩
    rcases bind_eq_ok.mp hsect with ⟨s, hs, -⟩
    rcases bind_eq_ok.mp hs with ⟨name, hname, hs⟩
    rcases bind_eq_ok.mp hs with ⟨ps, hps, -⟩
    exact ⟨⟨name, hname⟩, ps, hps⟩
  · rintro ⟨⟨name, hname⟩, ps, hps⟩
    have hlink : keywordLink k = .ok _ := bind_eq_ok.mpr ⟨name, hname, rfl⟩
    have hs : shownKeyword k = .ok _ := bind_eq_ok.mpr ⟨name, hname, bind_eq_ok.mpr ⟨ps, hps, rfl⟩⟩
    have hsect : keywordSection k = .ok _ := bind_eq_ok.mpr ⟨_, hs, rfl⟩
    exact ⟨_, bind_eq_ok.mpr ⟨_, hlink, bind_eq_ok.mpr ⟨_, hsect, rfl⟩⟩⟩

variable {settings : Json} {lib : Library} {description : Value}

lemma markdown_succeeds_iff (hkey : ∀ k ∈ lib.keywords, KeyNames k) :
  (∃ page, markdown settings lib = .ok page) ↔ Fills lib.description ∧ AllPaired lib := by
  have hkeywords : (∃ ls, lib.keywords.mapM keywordLines = .ok ls) ↔ AllPaired lib := by
    rw [mapM_succeeds_iff]
    exact forall₂_congr fun k hk => keywordLines_succeeds_iff (hkey k hk)
  rw [← descriptionLines_succeeds_iff, ← hkeywords]
  constructor
  · rintro ⟨page, hpage⟩
    rcases bind_eq_ok.mp hpage with ⟨description, hdescription, hpage⟩
    rcases bind_eq_ok.mp hpage with ⟨keywords, hkeywords, -⟩
    exact ⟨⟨description, hdescription⟩, keywords, hkeywords⟩
  · rintro ⟨⟨description, hdescription⟩, keywords, hkeywords⟩
    exact ⟨_, bind_eq_ok.mpr ⟨description, hdescription, bind_eq_ok.mpr ⟨keywords, hkeywords, rfl⟩⟩⟩

variable {config : Option Json} {v v' : Vocabulary}

lemma introSection_yields (h : Fills description) :
  Yields config (introSection true description) v fun _ => True := by
  unfold introSection
  cases htruthy : description.isTruthy with
  | false => exact .pure trivial
  | true =>
    rcases h with hfalse | ⟨s, rfl⟩
    · rw [htruthy] at hfalse
      cases hfalse
    · exact (document_yields none s).of_none.bind fun _ _ _ _ => .pure trivial

lemma fills_of_introSection {intro : String}
  (h : outcome (introSection true description) v = (.ok intro, v')) : Fills description := by
  unfold introSection at h
  cases htruthy : description.isTruthy with
  | false => exact .inl htruthy
  | true =>
    rw [htruthy] at h
    cases description with
    | str s => exact .inr ⟨s, rfl⟩
    | _ => cases h

/-- The settings that a page uses are texts: the name it shows, the address of the repository and the
keywords that are added. -/
structure TextSettings (settings : Json) : Prop where
  name : ∀ name, settings.field? "name" = some name → Fills (.ofJson name)
  repository : ∀ url, setting? settings "github_url" = some url → ∃ s, url = .str s
  keywords : ∀ n ∈ customNames (some settings), ∃ s, n.text? = some s

lemma TextSettings.shownName_fills (h : TextSettings settings) (hname : Fills lib.name) :
  Fills (shownName settings lib) := by
  unfold shownName
  split
  case h_1 name hfield => exact h.name name hfield
  case h_2 => exact hname

lemma TextSettings.issueButton_succeeds (h : TextSettings settings) :
  ∃ s, issueButton settings = .ok s := by
  unfold issueButton
  split
  · exact ⟨_, rfl⟩
  · exact ⟨_, rfl⟩
  case h_3 url hother hurl =>
    rcases h.repository url hurl with ⟨s, rfl⟩
    cases (hother s) rfl

lemma TextSettings.named (h : TextSettings settings) (hattached : v.attached = some lib.keywordNames)
  (hnames : ∀ k ∈ lib.keywords, ∃ s, k.name = .str s) : Named (some settings) v := by
  intro n hn
  rw [hattached, Option.getD_some, List.mem_append] at hn
  rcases hn with hn | hn
  · rcases List.mem_map.mp hn with ⟨k, hk, rfl⟩
    rcases hnames k hk with ⟨s, hs⟩
    exact ⟨s, by rw [hs]; rfl⟩
  · exact h.keywords n hn

lemma html_succeeds_iff (template now : String) (hsettings : TextSettings settings)
  (hname : Fills lib.name) (hkey : ∀ k ∈ lib.keywords, KeyNames k)
  (hattached : v.attached = some lib.keywordNames) :
  (∃ page, (outcome (html template settings lib now true) v).1 = .ok page) ↔
    FitForPage lib ∧ AllPaired lib := by
  have hkeywords : (∃ es, lib.keywords.mapM (fun k => do
      return (← keywordLink k, ← keywordSection k) : _ → Except Fault _) = .ok es) ↔
      ∀ k ∈ lib.keywords, (∃ s, k.name = .str s) ∧ ∀ p ∈ k.parameters, Paired p := by
    rw [mapM_succeeds_iff]
    exact forall₂_congr fun k hk => keywordSection_succeeds_iff (hkey k hk)
  constructor
  · rintro ⟨page, hpage⟩
    -- Every part of a page that was made was made itself.
    have hrun : outcome (html template settings lib now true) v = (.ok page, _) := Prod.ext hpage rfl
    rcases outcome_bind_eq_ok hrun with ⟨values, v₁, hvalues, hfill⟩
    rcases outcome_bind_eq_ok hvalues with ⟨es, v₂, hes, hvalues⟩
    rcases outcome_bind_eq_ok hvalues with ⟨intro, v₃, hintro, hvalues⟩
    rcases outcome_bind_eq_ok hvalues with ⟨issues, v₄, hissues, hvalues⟩
    rcases outcome_bind_eq_ok hvalues with ⟨sample, v₅, hsample, hvalues⟩
    cases hvalues
    have hfills := (fill_succeeds_iff template _).mp ⟨page, congrArg Prod.fst hfill⟩
    have hall := hkeywords.mp ⟨es, congrArg Prod.fst hes⟩
    refine ⟨⟨fills_of_introSection hintro, ?_, ?_, fun k hk => (hall k hk).1⟩, fun k hk => (hall k hk).2⟩
    · exact hfills ("VERSION", lib.version) (by simp)
    · exact hfills ("SCOPE", lib.scope) (by simp)
  · rintro ⟨⟨hdescription, hversion, hscope, hnames⟩, hpaired⟩
    rcases hkeywords.mpr fun k hk => ⟨hnames k hk, hpaired k hk⟩ with ⟨es, hes⟩
    rcases hsettings.issueButton_succeeds with ⟨issues, hissues⟩
    -- The parts that highlight need names that are texts, which the library and the settings have.
    have hyields : Yields (some settings) (html template settings lib now true) v fun _ => True := by
      have hvalues : Yields (some settings) (fillings settings lib now true) v
          fun values => ∀ e ∈ values, Fills e.2 := by
        refine (Yields.lift (Q := fun _ => True) hes trivial).bind fun es _ _ _ => ?_
        refine (introSection_yields hdescription).bind fun intro _ _ _ => ?_
        refine (Yields.lift (Q := fun _ => True) hissues trivial).bind fun issues _ _ _ => ?_
        refine (highlightCode_yields _).bind fun sample _ _ _ => .pure ?_
        have hshown := hsettings.shownName_fills hname
        have htext : ∀ s, Fills (.str s) := fun s => .inr ⟨s, rfl⟩
        simp [hshown, hversion, hscope, htext]
      refine hvalues.bind fun values _ _ hfills => ?_
      rcases (fill_succeeds_iff template values).mpr hfills with ⟨page, hpage⟩
      exact .lift hpage trivial
    exact hyields.total (hsettings.named hattached hnames)

end KeywordDocs.Page
