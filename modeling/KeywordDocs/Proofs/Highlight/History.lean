import KeywordDocs.Proofs.Highlight.Quiet

/-!
# Lines After a History

A highlighter remembers the names it was first asked for, and control words once it has coloured a step. The
configuration of a later call is not looked at any more.
-/

namespace KeywordDocs.Highlight

open Text Markup List
open Lookup (isStep)
open Call (lookups)
open Vocabulary (fresh look)

variable {attached : Option (List Value)} {shade : Shader} {config : Option Json} {v : Vocabulary}
  {calls : List Call} {l : Lookup} {names : List String}

/-- The names that a configuration adds are texts. -/
def TextNames (config : Option Json) : Prop := ∀ n ∈ customNames config, ∃ s, n = .str s

/-- What a highlighter remembers after some calls, whether they succeed or not. -/
def afterCalls (v : Vocabulary) (calls : List Call) : Vocabulary :=
  calls.foldl (fun v c => (outcome c.run v).2) v

lemma afterCalls_eq (h : ∀ l ∈ calls.flatMap lookups, (v.names? l.config).isSome) :
  afterCalls v calls = (calls.flatMap lookups).foldl look v := by
  unfold afterCalls
  induction calls generalizing v with
  | nil => rfl
  | cons c calls ih =>
    rw [flatMap_cons] at h ⊢
    have hfirst : ∀ l ∈ c.lookups, (v.names? l.config).isSome := fun l hl => h l (mem_append_left _ hl)
    rw [foldl_cons, c.run_follows.state_of_total hfirst, ih (names?_looks h), foldl_append]

lemma buildNames_cases (attached : List Value) : (∀ config, buildNames attached config = none) ∨
    ∀ config, TextNames config → ∃ names, buildNames attached config = some names := by
  by_cases htexts : ∀ n ∈ attached, ∃ s, n = .str s
  · exact .inr fun config hconfig =>
      buildNames_isSome (v := { attached := some attached }) (named_of_texts htexts hconfig)
  · refine .inl fun config => Option.eq_none_iff_forall_ne_some.mpr fun names hnames => htexts ?_
    exact fun n hn => (buildNames_eq_some hnames).1 n (mem_append_left _ hn)

lemma look_fresh (h : buildNames (attached.getD []) l.config = none) :
  (fresh attached shade).look l = .fresh attached shade := by
  have hnames : (fresh attached shade).names? l.config = none := h
  rw [look, hnames]
  rfl

lemma afterCalls_eq_fresh (h : ∀ config, buildNames (attached.getD []) config = none)
  (calls : List Call) :
  afterCalls (.fresh attached shade) calls = .fresh attached shade := by
  have hlooks : ∀ ls : List Lookup, ls.foldl look (.fresh attached shade) = .fresh attached shade := by
    intro ls
    induction ls with
    | nil => rfl
    | cons l ls ih => rw [foldl_cons, look_fresh (h l.config), ih]
  unfold afterCalls
  induction calls with
  | nil => rfl
  | cons c calls ih =>
    rcases c.run_follows.state (.fresh attached shade) with ⟨done, -, hstate, -⟩
    rw [foldl_cons, hstate, hlooks, ih]

def Knows (v : Vocabulary) (names : List String) : Prop := ∀ config, v.names? config = some names

def learned (ls : List Lookup) : List String := (ls.filter isStep).flatMap fun _ => controlWords

lemma knows_look (h : v.names? l.config = some names) :
  Knows (v.look l) (names ++ learned [l]) := by
  intro other
  rw [names?_look h other]
  cases hstep : l.isStep <;> simp [learned, hstep]

lemma knows_looks (h : v.names? l.config = some names) (ls : List Lookup) :
  Knows ((l :: ls).foldl look v) (names ++ learned (l :: ls)) := by
  induction ls generalizing v l names with
  | nil => exact knows_look h
  | cons l' ls ih =>
    have hrest := ih (l := l') (knows_look h l'.config)
    rw [append_assoc] at hrest
    have hlearned : learned [l] ++ learned (l' :: ls) = learned (l :: l' :: ls) := by
      rw [learned, learned, learned, ← flatMap_append, ← filter_append]
      rfl
    rw [hlearned] at hrest
    exact hrest

variable {ls : List Lookup}

/-- The one lookup that stands for a history. -/
def gist (ls : List Lookup) : Option Lookup := ls.head?.map fun l => ⟨l.config, ls.any isStep⟩

lemma learned_subset (ls : List Lookup) : learned ls ⊆ controlWords := by
  intro n hn
  rcases mem_flatMap.mp hn with ⟨_, -, hn⟩
  exact hn

lemma learned_eq_nil (h : ls.any isStep = false) : learned ls = [] := by
  have hfilter : ls.filter isStep = [] := by
    refine filter_eq_nil_iff.mpr fun l hl hstep => ?_
    rw [any_eq_true.mpr ⟨l, hl, hstep⟩] at h
    cases h
  rw [learned, hfilter]
  rfl

lemma learned_eq_append (h : ls.any isStep) :
  ∃ more, more ⊆ controlWords ∧ learned ls = controlWords ++ more := by
  cases hfilter : ls.filter isStep with
  | nil =>
    rcases any_eq_true.mp h with ⟨l, hl, hstep⟩
    cases (filter_eq_nil_iff.mp hfilter l hl) hstep
  | cons l rest =>
    refine ⟨rest.flatMap fun _ => controlWords, fun n hn => ?_, by rw [learned, hfilter]; rfl⟩
    rcases mem_flatMap.mp hn with ⟨_, -, hn⟩
    exact hn

lemma alike_learned (names : List String) (h : l.isStep = ls.any isStep)
  (more : List String) :
  Alike (names ++ learned ls ++ more) (names ++ learned [l] ++ more) := by
  cases hstep : ls.any isStep with
  | false =>
    rw [hstep] at h
    have hl : learned [l] = [] := learned_eq_nil (by simpa using h)
    rw [learned_eq_nil hstep, hl]
    exact fun _ => rfl
  | true =>
    rw [hstep] at h
    have hl : learned [l] = controlWords := by simp [learned, h]
    rcases learned_eq_append hstep with ⟨rest, hrest, hlearned⟩
    rw [hlearned, hl, ← append_assoc]
    exact alike_insert (List.Subset.trans hrest (subset_append_right _ _)) more

lemma highlightLine_gist (attached : Option (List Value)) (shade : Shader)
  (hcalls : ∀ c ∈ calls, TextNames c.config) (config : Option Json) (line : String) :
  (outcome (highlightLine config line) (afterCalls (.fresh attached shade) calls)).1 =
    (outcome (highlightLine config line) ((gist (calls.flatMap lookups)).elim
      (.fresh attached shade) (fresh attached shade).look)).1 := by
  rcases buildNames_cases (attached.getD []) with hnone | hsome
  · rw [afterCalls_eq_fresh hnone]
    cases gist (calls.flatMap lookups) with
    | none => rfl
    | some l => rw [Option.elim_some, look_fresh (hnone l.config)]
  · have hnames : ∀ l ∈ calls.flatMap lookups,
        ∃ names, buildNames (attached.getD []) l.config = some names := by
      intro l hl
      rcases mem_flatMap.mp hl with ⟨c, hc, hl⟩
      exact hsome l.config (c.lookups_config l hl ▸ hcalls c hc)
    have hfind : ∀ l ∈ calls.flatMap lookups,
        ((fresh attached shade).names? l.config).isSome := fun l hl =>
      Option.isSome_iff_exists.mpr (hnames l hl)
    rw [afterCalls_eq hfind]
    cases hlooks : calls.flatMap lookups with
    | nil => rfl
    | cons l ls =>
      rw [hlooks] at hnames
      rcases hnames l mem_cons_self with ⟨names, hl⟩
      have hlong := knows_looks (v := .fresh attached shade) hl ls config
      have hshort := knows_look (v := .fresh attached shade)
        (l := ⟨l.config, (l :: ls).any isStep⟩) hl config
      have halike := alike_learned names (l := ⟨l.config, (l :: ls).any isStep⟩) rfl
      refine highlightLine_congr hlong hshort ?_ (halike controlWords) line
      have h := halike []
      rwa [append_nil, append_nil] at h

/-- Lookups after which all lines look the same with a configuration as on a fresh highlighter: the
names are those of the configuration, and the control words are among them if they were added. -/
def Unnoticed (attached : Option (List Value)) (config : Option Json) (l : Lookup) : Prop :=
  buildNames (attached.getD []) l.config = buildNames (attached.getD []) config ∧
    (l.isStep → ∀ names, buildNames (attached.getD []) config = some names → controlWords ⊆ names)

lemma highlightLine_unnoticed (h : Unnoticed attached config l) (line : String) :
  (outcome (highlightLine config line) ((fresh attached shade).look l)).1 =
    (outcome (highlightLine config line) (.fresh attached shade)).1 := by
  cases hnames : buildNames (attached.getD []) config with
  | none => rw [look_fresh (h.1.trans hnames)]
  | some names =>
    have hsub : learned [l] ⊆ names := by
      cases hstep : l.isStep with
      | true => exact List.Subset.trans (learned_subset [l]) (h.2 hstep names hnames)
      | false => simp [learned, hstep]
    have hfresh : (fresh attached shade).names? config = some names := hnames
    exact highlightLine_congr (knows_look (v := .fresh attached shade) (h.1.trans hnames) config)
      hfresh (alike_append hsub) (alike_insert hsub controlWords) line

lemma mem_iff_of_same {v v' : Vocabulary} {names names' : List String}
  (hv : v.names? config = some names) (hv' : v'.names? config = some names')
  (h : ∀ line, (outcome (highlightLine config line) v).1 = (outcome (highlightLine config line) v').1)
  {n : String} (hn : Readable n) : n ∈ names ↔ n ∈ names' := by
  have hline := h (bracketed n)
  rw [outcome_bracketed hn, outcome_bracketed hn, hv, hv', Option.elim_some, Option.elim_some,
    Except.ok.injEq, String.ofList_inj] at hline
  rw [← bracketed_eq_iff hn names, ← bracketed_eq_iff hn names', hline]

/-- Readable names that are no control words. -/
structure Ordinary (n : String) : Prop where
  readable : Readable n
  notControl : n ∉ controlWords

/-- The names that a configuration adds are ordinary texts. -/
def OrdinaryNames (config : Option Json) : Prop := ∀ n ∈ customNames config, ∃ s, n = .str s ∧ Ordinary s

lemma OrdinaryNames.texts (h : OrdinaryNames config) : TextNames config := fun n hn =>
  (h n hn).imp fun _ hs => hs.1

lemma OrdinaryNames.ordinary (h : OrdinaryNames config) {n : String}
  (hn : .str n ∈ customNames config) : Ordinary n := by
  rcases h _ hn with ⟨s, hs, hordinary⟩
  cases hs
  exact hordinary

lemma controlWords_readable : ∀ w ∈ controlWords, Readable w := by decide +kernel

lemma unnoticed_of_same (shade : Shader) (hl : OrdinaryNames l.config)
  (hconfig : OrdinaryNames config)
  (h : ∀ line, (outcome (highlightLine config line) ((fresh attached shade).look l)).1 =
    (outcome (highlightLine config line) (.fresh attached shade)).1) :
  Unnoticed attached config l := by
  rcases buildNames_cases (attached.getD []) with hnone | hsome
  · exact ⟨(hnone _).trans (hnone _).symm, fun _ names hnames => nomatch (hnone _).symm.trans hnames⟩
  rcases hsome _ hl.texts with ⟨names, hnames⟩
  rcases hsome _ hconfig.texts with ⟨names', hnames'⟩
  have hfresh : (fresh attached shade).names? config = some names' := hnames'
  have hmem : ∀ n, Readable n → (n ∈ names ++ learned [l] ↔ n ∈ names') := fun n hn =>
    mem_iff_of_same (knows_look (v := .fresh attached shade) hnames config) hfresh h hn
  have hof := (buildNames_eq_some hnames).2
  have hof' := (buildNames_eq_some hnames').2
  refine ⟨?_, fun hstep other hother w hw => ?_⟩
  · rw [hnames, hnames', buildNames_inj hnames hnames' fun n => ⟨fun hn => ?_, fun hn => ?_⟩]
    · rcases (hof n).mp hn with hstandard | hattached | hcustom
      · exact (hof' n).mpr (.inl hstandard)
      · exact (hof' n).mpr (.inr (.inl hattached))
      · exact (hmem n (hl.ordinary hcustom).readable).mp (mem_append_left _ hn)
    · rcases (hof' n).mp hn with hstandard | hattached | hcustom
      · exact (hof n).mpr (.inl hstandard)
      · exact (hof n).mpr (.inr (.inl hattached))
      · -- An ordinary name is not one of those that a step adds.
        have hordinary := hconfig.ordinary hcustom
        rcases mem_append.mp ((hmem n hordinary.readable).mpr hn) with hn | hn
        · exact hn
        · cases hordinary.notControl (learned_subset _ hn)
  · rw [hnames', Option.some.injEq] at hother
    subst hother
    have hlearned : w ∈ learned [l] := by simpa [learned, hstep] using hw
    exact (hmem w (controlWords_readable w hw)).mp (mem_append_right _ hlearned)

lemma gist_config (h : l ∈ gist (calls.flatMap lookups)) :
  ∃ c ∈ calls, l.config = c.config := by
  rcases Option.map_eq_some_iff.mp h with ⟨first, hfirst, rfl⟩
  rcases mem_flatMap.mp (mem_of_mem_head? hfirst) with ⟨c, hc, hl⟩
  exact ⟨c, hc, c.lookups_config first hl⟩

/-- When a line looks the same with and without a history. A history has the effect of one lookup. If
that goes unnoticed every line looks the same, and if all names that were given are ordinary ones,
every line looks the same only then. -/
theorem highlightLine_afterCalls (attached : Option (List Value)) (shade : Shader)
  (calls : List Call) (config : Option Json) (hcalls : ∀ c ∈ calls, TextNames c.config) :
  (∀ line, (outcome (highlightLine config line) (afterCalls (.fresh attached shade) calls)).1 =
    (outcome (highlightLine config line) ((gist (calls.flatMap Call.lookups)).elim
      (.fresh attached shade) (Vocabulary.fresh attached shade).look)).1) ∧
  ((∀ l ∈ gist (calls.flatMap Call.lookups), Unnoticed attached config l) →
    ∀ line, (outcome (highlightLine config line) (afterCalls (.fresh attached shade) calls)).1 =
      (outcome (highlightLine config line) (.fresh attached shade)).1) ∧
  ((∀ c ∈ calls, OrdinaryNames c.config) → OrdinaryNames config →
    (∀ line, (outcome (highlightLine config line) (afterCalls (.fresh attached shade) calls)).1 =
      (outcome (highlightLine config line) (.fresh attached shade)).1) →
    ∀ l ∈ gist (calls.flatMap Call.lookups), Unnoticed attached config l) := by
  have hgist := highlightLine_gist attached shade hcalls config
  refine ⟨hgist, fun h line => ?_, fun hordinary hconfig hsame l hl => ?_⟩
  · rw [hgist]
    cases hl : gist (calls.flatMap Call.lookups) with
    | none => rfl
    | some l => exact highlightLine_unnoticed (h l hl) line
  · rcases gist_config hl with ⟨c, hc, hlc⟩
    refine unnoticed_of_same shade (hlc ▸ hordinary c hc) hconfig fun line => ?_
    rw [← hsame line, hgist, show gist (calls.flatMap Call.lookups) = some l from hl,
      Option.elim_some]

/-- A configuration that adds a name. -/
def addedWord : Option Json := some (.obj [("custom_keywords", .arr [.str "My Word"])])

/-- A name that a configuration adds is not seen if names were looked up without it before. -/
theorem highlightLine_afterCalls_added_word :
  (∀ c ∈ [(⟨.stretch, none, "x"⟩ : Call)], OrdinaryNames c.config) ∧ OrdinaryNames addedWord ∧
  ¬ ∀ line, (outcome (highlightLine addedWord line)
      (afterCalls (.fresh none standardShader) [⟨.stretch, none, "x"⟩])).1 =
    (outcome (highlightLine addedWord line) (.fresh none standardShader)).1 := by
  have hcalls : ∀ c ∈ [(⟨.stretch, none, "x"⟩ : Call)], OrdinaryNames c.config :=
    forall_mem_singleton.mpr (forall_mem_nil _)
  have hconfig : OrdinaryNames addedWord :=
    forall_mem_singleton.mpr ⟨"My Word", rfl, by decide +kernel, by decide⟩
  refine ⟨hcalls, hconfig, fun hsame => ?_⟩
  have hunnoticed := (highlightLine_afterCalls none standardShader _ addedWord
    fun c hc => (hcalls c hc).texts).2.2 hcalls hconfig hsame ⟨none, false⟩ rfl
  rcases buildNames_cases [] with hnone | hsome
  · exact absurd (hnone none) (by simp [buildNames, customNames])
  · rcases hsome none (forall_mem_nil _) with ⟨names, hnames⟩
    have hadded := hunnoticed.1.symm.trans hnames
    have hword : "My Word" ∈ names := ((buildNames_eq_some hadded).2 _).mpr
      (.inr (.inr mem_cons_self))
    rcases ((buildNames_eq_some hnames).2 _).mp hword with hstandard | hattached | hcustom
    · exact absurd hstandard (by decide)
    · cases hattached
    · cases hcustom

end KeywordDocs.Highlight
