import KeywordDocs.Discovery.Source
import KeywordDocs.Proofs.Highlight.Lookups

/-!
# The Names a Highlighter Knows

The list of names that a highlighter keeps is built when it is first needed, and extended by those who get it.
Libraries are attached and replaced in the meantime, some of them halfway through discovery.
-/

namespace KeywordDocs.Discovery

open Source KeywordDocs.Module Highlight Markup
open Vocabulary (look names?)
open List hiding modify

variable {α β : Type} {config : Option Json} {v : Vocabulary} (file : SourceFile)

lemma renderFound_consults (resolve : Resolver) (methods : List (String × Function))
  (before : Option (List (String × Value))) (found : List Found) :
  Consults config (renderFound config resolve methods before found) := by
  induction found generalizing before with
  | nil => exact .pure []
  | cons f rest ih =>
    rw [renderFound]
    refine (docstring_consults _).bind fun description => ?_
    cases madeKeyword resolve methods before f with
    | none => exact .throw _
    | some k => exact (ih (some k.defaults)).bind fun ks => .pure _

lemma inspection_consults (program : List Stmt) (i : Inspection) :
  Consults config (i.library config program) := by
  unfold Inspection.library
  split
  · exact .throw _
  · exact (renderFound_consults _ _ _ _).bind fun ks => .pure _

lemma inspectedLibrary_consults (inspector : Inspector) (file : SourceFile)
  (source : Except Fault (List Stmt)) :
  Consults config (inspectedLibrary inspector config file source) := by
  cases source with
  | error e => exact .throw _
  | ok program =>
    rw [inspectedLibrary]
    cases if file.isModule then inspector file.around file.stem program else none with
    | none => exact .throw _
    | some i => exact inspection_consults program i

def Renews (config : Option Json) (m : Highlighting α) : Prop :=
  ∀ v, ∃ w, (w = v ∨ w.kept = none) ∧ ∃ done : List Lookup,
    (∀ l ∈ done, l.config = config) ∧ (outcome m v).2 = done.foldl look w

namespace Renews

variable {m : Highlighting α} {f : α → Highlighting β}

lemma of_consults (h : Consults config m) : Renews config m := fun v => ⟨v, .inl rfl, h v⟩

lemma bind (hm : Renews config m) (hf : ∀ a, Renews config (f a)) : Renews config (m >>= f) := by
  intro v
  have hfirst := hm v
  rw [outcome_bind]
  rcases hout : outcome m v with ⟨r, v'⟩
  rw [hout] at hfirst
  cases r with
  | error e => exact hfirst
  | ok a =>
    rcases hf a v' with ⟨w', rfl | hnone, hlater⟩
    · -- The lookups of the second part go on from where the first part stopped.
      exact hfirst.imp fun w hw => ⟨hw.1, Consulted.trans hw.2 hlater⟩
    · exact ⟨w', .inr hnone, hlater⟩

end Renews

lemma attach_renews (way : Way) (lib : Library) : Renews config (attach way lib) := fun v =>
  ⟨{ v with attached := some lib.keywordNames, kept := none }, .inr rfl, [], nofun, rfl⟩

lemma classLibrary_renews (names : Entries) (h : ClassHead) (body : List Stmt) :
  Renews config (classLibrary config names h body) := by
  have hattach : ∀ attached, Renews config (modify fun v =>
      { v with attached := attached, kept := none } : Highlighting PUnit) := fun attached v =>
    ⟨{ v with attached := attached, kept := none }, .inr rfl, [], nofun, rfl⟩
  unfold classLibrary
  exact (hattach _).bind fun _ => .of_consults <|
    (Consults.mapM fun km _ => (docstring_consults _).bind fun _ => .pure _).bind fun _ => .pure _

lemma writtenLibrary_renews (program : List Stmt) :
  Renews config (writtenLibrary config file program) := by
  unfold writtenLibrary
  dsimp only
  split
  · exact classLibrary_renews _ _ _
  · unfold writtenLibrary.liftExcept
    split
    · exact .of_consults (.pure _)
    · exact .of_consults (.throw _)

lemma discover_renews (inspector : Inspector) :
  Renews config (discover config file inspector) := by
  have htry : Renews config (tryCatch (do
      return some (← inspectedLibrary inspector config file (Program.read file.text)))
      fun _ => return none) :=
    .of_consults (.tryCatch ((inspectedLibrary_consults _ _ _).bind fun _ => .pure _) fun _ => .pure _)
  unfold discover
  refine htry.bind fun found => ?_
  cases found with
  | some lib => exact attach_renews _ lib
  | none =>
    cases Program.read file.text with
    | ok program => exact (writtenLibrary_renews file program).bind fun lib => attach_renews _ lib
    | error f => exact .of_consults (.throw f)

/-- The ways in which a highlighter is used. -/
inductive Use where
  | call (c : Call)
  /-- The names in use are asked for. -/
  | ask (config : Option Json)
  /-- Another library is attached, or none. -/
  | attach (names : Option (List Value))
  /-- The library of a source is discovered. -/
  | read (config : Option Json) (file : SourceFile) (inspector : Inspector)

namespace Use

/-- Using a highlighter for what it leaves behind. -/
def run : Use → Highlighting Unit
  | .call c => do let _ ← c.run
  | .ask config => do let _ ← knownNames config
  | .attach names => modify fun v => { v with attached := names }
  | .read config file inspector => do let _ ← discover config file inspector

/-- The names that the configuration of a use adds. -/
def customNames : Use → List Value
  | .call c => Highlight.customNames c.config
  | .ask config => Highlight.customNames config
  | .attach _ => []
  | .read config _ _ => Highlight.customNames config

/-- What is remembered after a use, whether it succeeds or not. -/
def step (v : Vocabulary) (u : Use) : Vocabulary := (outcome u.run v).2

lemma step_cases (v : Vocabulary) (u : Use) :
  ∃ w, (w.kept = v.kept ∨ w.kept = none) ∧ ∃ done : List Lookup,
    (∀ l ∈ done, Highlight.customNames l.config = u.customNames) ∧
    u.step v = done.foldl look w := by
  -- All uses but one come with a configuration.
  have hrenews : ∀ (config : Option Json) (m : Highlighting Unit), Renews config m →
      ∃ w, (w.kept = v.kept ∨ w.kept = none) ∧ ∃ done : List Lookup,
        (∀ l ∈ done, Highlight.customNames l.config = Highlight.customNames config) ∧
        (outcome m v).2 = done.foldl look w := by
    intro config m hm
    rcases hm v with ⟨w, hw, done, hdone, hstate⟩
    exact ⟨w, hw.imp_left (congrArg Vocabulary.kept), done,
      fun l hl => congrArg Highlight.customNames (hdone l hl), hstate⟩
  cases u with
  | call c =>
    exact hrenews c.config _ (.bind (.of_consults (.of_follows c.run_follows c.lookups_config))
      fun _ => .of_consults (.pure _))
  | ask config =>
    have hnames : Consults config (knownNames config) :=
      .of_follows (knownNames_follows config) (forall_mem_singleton.mpr rfl)
    exact hrenews config _ (.bind (.of_consults hnames) fun _ => .of_consults (.pure _))
  | attach names => exact ⟨{ v with attached := names }, .inl rfl, [], nofun, rfl⟩
  | read config file inspector =>
    exact hrenews config _ (.bind (discover_renews file inspector) fun _ => .of_consults (.pure _))

end Use

/-- What a highlighter remembers after some uses. -/
def after (v : Vocabulary) (uses : List Use) : Vocabulary := uses.foldl Use.step v

def Guarded (P : String → Prop) (v : Vocabulary) : Prop :=
  ∀ kept, v.kept = some kept → (∀ n ∈ standardNames, n ∈ kept) ∧ ∀ n ∈ kept, P n

section Invariant

variable {P : String → Prop} (hstandard : ∀ n ∈ standardNames, P n) (hcontrol : ∀ n ∈ controlWords, P n)

lemma guarded_of_none (h : v.kept = none) : Guarded P v := by
  intro kept hkept
  rw [h] at hkept
  cases hkept

lemma looks_attached (ls : List Lookup) (w : Vocabulary) :
  (ls.foldl look w).attached = w.attached := by
  induction ls generalizing w with
  | nil => rfl
  | cons l ls ih => exact ih (w.look l)

include hstandard

lemma names?_guarded (hattached : ∀ n, .str n ∈ v.attached.getD [] → P n)
  (hcustom : ∀ n, .str n ∈ customNames config → P n) (hv : Guarded P v) {names : List String}
  (h : v.names? config = some names) :
  (∀ n ∈ standardNames, n ∈ names) ∧ ∀ n ∈ names, P n := by
  rcases Option.or_eq_some_iff.mp h with hcurrent | ⟨-, hbuilt⟩
  · exact hv names (Option.filter_eq_some_iff.mp hcurrent).1
  · have hnames := (buildNames_eq_some hbuilt).2
    refine ⟨fun n hn => (hnames n).mpr (.inl hn), fun n hn => ?_⟩
    rcases (hnames n).mp hn with hn | hn | hn
    · exact hstandard n hn
    · exact hattached n hn
    · exact hcustom n hn

include hcontrol

lemma look_guarded (hattached : ∀ n, .str n ∈ v.attached.getD [] → P n) {l : Lookup}
  (hcustom : ∀ n, .str n ∈ customNames l.config → P n) (hv : Guarded P v) :
  Guarded P (v.look l) := by
  intro kept hkept
  rcases Option.map_eq_some_iff.mp hkept with ⟨names, hnames, rfl⟩
  have hguard := names?_guarded hstandard hattached hcustom hv hnames
  split
  · refine ⟨fun n hn => mem_append_left _ (hguard.1 n hn), fun n hn => ?_⟩
    exact (mem_append.mp hn).elim (hguard.2 n) (hcontrol n)
  · exact hguard

lemma looks_guarded {ls : List Lookup} (hcustom : ∀ l ∈ ls, ∀ n, .str n ∈ customNames l.config → P n)
  {w : Vocabulary} (hattached : ∀ n, .str n ∈ w.attached.getD [] → P n) (hw : Guarded P w) :
  Guarded P (ls.foldl look w) := by
  induction ls generalizing w with
  | nil => exact hw
  | cons l ls ih =>
    refine ih (fun l' hl' => hcustom l' (mem_cons_of_mem l hl')) (w := w.look l) hattached ?_
    exact look_guarded hstandard hcontrol hattached (hcustom l mem_cons_self) hw

lemma step_guarded (u : Use) (hattached : ∀ n, .str n ∈ (u.step v).attached.getD [] → P n)
  (hcustom : ∀ n, .str n ∈ u.customNames → P n) (hv : Guarded P v) : Guarded P (u.step v) := by
  rcases u.step_cases v with ⟨w, hw, done, hdone, hstate⟩
  rw [hstate, looks_attached] at hattached
  rw [hstate]
  refine looks_guarded hstandard hcontrol (fun l hl n hn => ?_) hattached ?_
  · rw [hdone l hl] at hn
    exact hcustom n hn
  · rcases hw with hsame | hnone
    · exact fun kept hkept => hv kept (hsame ▸ hkept)
    · exact guarded_of_none hnone

lemma after_guarded {uses : List Use}
  (hattached : ∀ earlier, earlier <+: uses → ∀ n, .str n ∈ (after v earlier).attached.getD [] → P n)
  (hcustom : ∀ u ∈ uses, ∀ n, .str n ∈ u.customNames → P n) (hv : Guarded P v) :
  Guarded P (after v uses) := by
  induction uses generalizing v with
  | nil => exact hv
  | cons u uses ih =>
    refine ih (v := u.step v) (fun earlier hearlier => ?_)
      (fun u' hu' => hcustom u' (mem_cons_of_mem u hu')) ?_
    · exact hattached (u :: earlier) ((prefix_cons_inj u).mpr hearlier)
    · refine step_guarded hstandard hcontrol u ?_ (hcustom u mem_cons_self) hv
      exact hattached [u] (prefix_append [u] uses)

end Invariant

/-- The names that a history accounts for: standard names, control words, names of libraries that were
attached at some time and names of configurations that were given at some time. -/
def Accounted (start : Vocabulary) (uses : List Use) (config : Option Json) (n : String) : Prop :=
  n ∈ standardNames ∨ n ∈ controlWords ∨
    (∃ earlier, earlier <+: uses ∧ .str n ∈ (after start earlier).attached.getD []) ∨
    ∃ given ∈ customNames config :: uses.map Use.customNames, .str n ∈ given

/-- Which names are known after any uses of a highlighter. There is an answer if and only if the names
of the attached library are texts. The answer has all standard names and all names of that library,
and no name that the history does not account for. -/
theorem knownNames_after (attached : Option (List Value)) (shade : Shader) (uses : List Use)
  (config : Option Json) (hconfig : ∀ n ∈ customNames config, ∃ s, n = .str s) :
  ((∃ names, (outcome (knownNames config) (after (.fresh attached shade) uses)).1 = .ok names) ↔
    ∀ n ∈ (after (.fresh attached shade) uses).attached.getD [], ∃ s, n = .str s) ∧
  ∀ names, (outcome (knownNames config) (after (.fresh attached shade) uses)).1 = .ok names →
    (∀ n ∈ standardNames, n ∈ names) ∧
    (∀ n ∈ (after (.fresh attached shade) uses).attached.getD [], ∃ s ∈ names, n = .str s) ∧
    ∀ n ∈ names, Accounted (.fresh attached shade) uses config n := by
  generalize hv : after (.fresh attached shade) uses = v
  have hresult : ∀ names, (outcome (knownNames config) v).1 = .ok names ↔
      v.names? config = some names := by
    intro names
    rw [outcome_knownNames]
    cases v.names? config <;> simp
  refine ⟨⟨?_, fun htexts => ?_⟩, fun names hnames => ?_⟩
  · rintro ⟨names, hnames⟩ n hn
    rcases exists_of_isKept (isKept_of_names? ((hresult names).mp hnames) n hn) with ⟨s, -, hs⟩
    exact ⟨s, hs⟩
  · rcases buildNames_isSome (named_of_texts htexts hconfig) with ⟨built, hbuilt⟩
    cases hcurrent : v.current? with
    | some names => exact ⟨names, (hresult names).mpr (by rw [Vocabulary.names?, hcurrent]; rfl)⟩
    | none => exact ⟨built, (hresult built).mpr (by rw [Vocabulary.names?, hcurrent, hbuilt]; rfl)⟩
  · rw [hresult] at hnames
    -- The invariant is used for the names that the history accounts for.
    have hguard : Guarded (Accounted (.fresh attached shade) uses config) v := by
      rw [← hv]
      exact after_guarded (fun n hn => .inl hn) (fun n hn => .inr (.inl hn))
        (fun earlier hearlier n hn => .inr (.inr (.inl ⟨earlier, hearlier, hn⟩)))
        (fun u hu n hn => .inr (.inr (.inr ⟨_, mem_cons_of_mem _ (mem_map_of_mem hu), hn⟩)))
        (guarded_of_none rfl)
    have hall := names?_guarded (fun n hn => .inl hn)
      (fun n hn => .inr (.inr (.inl ⟨uses, prefix_refl uses, hv ▸ hn⟩)))
      (fun n hn => .inr (.inr (.inr ⟨_, mem_cons_self, hn⟩))) hguard hnames
    exact ⟨hall.1, fun n hn => exists_of_isKept (isKept_of_names? hnames n hn), hall.2⟩

/-- A history in which a library is replaced after a step was coloured: the list that was built for
the first library has to give way. -/
def replacement : List Use :=
  [.attach (some [.str "First Word"]),
    .call ⟨.line, some (.obj [("custom_keywords", .arr [.str "Set Up"])]), "    First Word"⟩,
    .attach (some [.str "Second Word"])]

theorem knownNames_after_replacement :
  (∀ n ∈ customNames (some (.obj [("custom_keywords", .arr [.str "Tidy Up"])])), ∃ s, n = .str s) ∧
    ∃ names, (outcome (knownNames (some (.obj [("custom_keywords", .arr [.str "Tidy Up"])])))
        (after (.fresh none standardShader) replacement)).1 = .ok names ∧
      "Log" ∈ names ∧ "Second Word" ∈ names ∧
      ∀ n ∈ names, Accounted (.fresh none standardShader) replacement
        (some (.obj [("custom_keywords", .arr [.str "Tidy Up"])])) n := by
  have hconfig : ∀ n ∈ customNames (some (.obj [("custom_keywords", .arr [.str "Tidy Up"])])),
      ∃ s, n = .str s := by
    intro n hn
    rw [mem_singleton.mp hn]
    exact ⟨"Tidy Up", rfl⟩
  have hknown := knownNames_after none standardShader replacement _ hconfig
  have hattached : (after (.fresh none standardShader) replacement).attached =
      some [.str "Second Word"] := rfl
  rw [hattached, Option.getD_some] at hknown
  rcases hknown.1.mpr (forall_mem_singleton.mpr ⟨"Second Word", rfl⟩) with ⟨names, hnames⟩
  rcases hknown.2 names hnames with ⟨hstandard, hlibrary, haccounted⟩
  rcases hlibrary _ mem_cons_self with ⟨s, hs, heq⟩
  cases heq
  exact ⟨hconfig, names, hnames, hstandard "Log" (by decide), hs, haccounted⟩

end KeywordDocs.Discovery
