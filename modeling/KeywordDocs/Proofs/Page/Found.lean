import KeywordDocs.Proofs.Discovery.Parameters
import KeywordDocs.Proofs.Page.Printing

/-!
# Pages of Found Libraries

A library that is found in a source is meant to be printed. Not every one can be; what inspection shows is
always fit for a page.
-/

namespace KeywordDocs.Page

open Source KeywordDocs.Module KeywordDocs.Signature Highlight Discovery List

variable {k : Keyword}

lemma text_pair_eq_ok {s : String} {name type : Value}
  (h : (Parameter.text s).pair = .ok (name, type)) :
  ∃ a b, s.toList = [a, b] ∧ name = .str (String.singleton a) := by
  rw [Parameter.pair] at h
  split at h
  case h_1 a b hs =>
    cases h
    exact ⟨a, b, hs, rfl⟩
  case h_2 => cases h

lemma text_paired {name rest : String} (h : Paired (.text (name ++ ": " ++ rest))) : name = "" := by
  rcases h with ⟨_, _, hpair⟩
  rcases text_pair_eq_ok hpair with ⟨a, b, hs, -⟩
  have hlength := congrArg List.length hs
  rw [String.toList_append, String.toList_append, length_append, length_append] at hlength
  have hcolon : ": ".toList.length = 2 := rfl
  have htwo : [a, b].length = 2 := rfl
  exact String.toList_eq_nil_iff.mp (eq_nil_of_length_eq_zero (by omega))

def ShownPair (p : Parameter) : Prop := ∃ name type, p = .entries [name, type] ∧ isKey name

lemma named_shownPair (name type : String) : ShownPair (.named name type) := ⟨.str name, .str type, rfl, rfl⟩

lemma ShownPair.paired {p : Parameter} (h : ShownPair p) : Paired p := by
  rcases h with ⟨name, type, rfl, -⟩
  exact ⟨name, type, rfl⟩

lemma keyNames_of_shownPair (h : ∀ p ∈ k.parameters, ShownPair p) : KeyNames k := by
  intro p hp name type hpair
  rcases h p hp with ⟨name', type', rfl, hkey⟩
  cases hpair
  exact hkey

lemma keyNames_of_text (h : ∀ p ∈ k.parameters, ∃ s, p = .text s) : KeyNames k := by
  intro p hp name type hpair
  rcases h p hp with ⟨s, rfl⟩
  rcases text_pair_eq_ok hpair with ⟨a, b, -, rfl⟩
  rfl

variable {resolve : Resolver} {methods : List (String × Function)} {before : Option (List (String × Value))}
  {ks : List Keyword}

lemma madeKeyword_fit {f : Found} {k : Keyword}
  (h : madeKeyword resolve methods before f = some k) :
  k.name = .str f.name ∧ ∀ p ∈ k.parameters, ShownPair p := by
  unfold madeKeyword at h
  split at h
  case h_1 m hm =>
    cases h
    refine ⟨rfl, fun p hp => ?_⟩
    rcases named_of_mem_keywordOf _ hp with ⟨name, type, rfl⟩
    exact named_shownPair name type
  case h_2 =>
    rcases Option.map_eq_some_iff.mp h with ⟨defaults, -, rfl⟩
    refine ⟨rfl, fun p hp => ?_⟩
    rcases mem_map.mp hp with ⟨a, -, rfl⟩
    exact ⟨.object "ArgInfo" a, .str "Any", rfl, rfl⟩

lemma made_fit {found : List Found} (h : Made resolve methods before found ks) :
  ∀ k ∈ ks, (∃ s, k.name = .str s) ∧ ∀ p ∈ k.parameters, ShownPair p := by
  induction h with
  | nil =>
    intro k hk
    cases hk
  | cons before f rest k ks description hk _ ih =>
    intro k' hk'
    rcases mem_cons.mp hk' with rfl | hk'
    · exact ⟨⟨f.name, (madeKeyword_fit hk).1⟩, (madeKeyword_fit hk).2⟩
    · exact ih k' hk'

lemma classMade_shownPair {body : List Stmt} (h : ClassMade resolve body ks) :
  ∀ k ∈ ks, ∀ p ∈ k.parameters, ShownPair p := by
  intro k hk p hp
  rcases forall₂_exists_left h hk with ⟨m, -, description, rfl⟩
  rcases named_of_mem_keywordOf m.1 hp with ⟨name, type, rfl⟩
  exact named_shownPair name type

/-- The text of a parameter with its type and a default. -/
def parameterText (type : String) (a : Param × Option Expr) : Parameter :=
  .text (a.1.name ++ ": " ++ type ++ a.2.elim "" fun e => " = " ++ (defaultText e).getD "None")

/-- A text shows a parameter with the type of its annotation and a default. -/
def Shows (a : Param × Option Expr) (t : Parameter) : Prop :=
  ∃ type, a.1.hint.elim (.ok "Any") functionType = .ok type ∧ t = parameterText type a

lemma parameterTexts_eq_ok {p : Parameters} {ps : List Parameter} (h : parameterTexts p = .ok ps) :
  List.Forall₂ (fun a t => Shows (a.1, functionDefault? p a.2) t)
    (p.positional.zipIdx.filter fun a => a.1.name ≠ "self") ps := by
  refine (mapM_eq_ok_iff.mp h).imp fun (a, i) t hat => ?_
  cases hhint : a.hint with
  | none =>
    simp only [hhint] at hat
    cases hat
    refine ⟨"Any", by rw [hhint]; rfl, ?_⟩
    unfold parameterText
    cases functionDefault? p i <;> rfl
  | some e =>
    simp only [hhint] at hat
    rcases bind_eq_ok.mp hat with ⟨type, htype, hat⟩
    cases hat
    refine ⟨type, by rw [hhint]; exact htype, ?_⟩
    unfold parameterText
    cases functionDefault? p i <;> rfl

lemma exists_shows {p : Parameters} {ps : List Parameter} (h : parameterTexts p = .ok ps) {a : Param}
  (ha : a ∈ p.positional) (hself : a.name ≠ "self") : ∃ d, ∃ t ∈ ps, Shows (a, d) t := by
  rcases getElem_of_mem ha with ⟨i, hi, hget⟩
  have hmem : (a, i) ∈ p.positional.zipIdx.filter fun a => a.1.name ≠ "self" := by
    refine mem_filter.mpr ⟨mk_mem_zipIdx_iff_getElem?.mpr ?_, decide_eq_true hself⟩
    rw [getElem?_eq_getElem hi, hget]
  rcases forall₂_exists_right (parameterTexts_eq_ok h) hmem with ⟨t, ht, hshows⟩
  exact ⟨functionDefault? p i, t, ht, hshows⟩

lemma Shows.text {a : Param × Option Expr} {t : Parameter} (h : Shows a t) :
  ∃ rest, t = .text (a.1.name ++ ": " ++ rest) := by
  rcases h with ⟨type, -, rfl⟩
  exact ⟨_, congrArg Parameter.text (String.append_assoc ..)⟩

lemma functionKeyword?_eq_ok {f : Function} {body : List Stmt} {r : Option Keyword}
  (h : functionKeyword? f body = .ok r) :
  (firstMarkedName f = none ∧ r = none) ∨ ((firstMarkedName f).isSome ∧
    ∃ k, r = some k ∧ parameterTexts f.parameters = .ok k.parameters) := by
  unfold functionKeyword? at h
  cases hname : firstMarkedName f with
  | none =>
    rw [hname] at h
    cases h
    exact .inl ⟨rfl, rfl⟩
  | some name =>
    rw [hname] at h
    rcases bind_eq_ok.mp h with ⟨ps, hps, h⟩
    refine .inr ⟨rfl, ?_⟩
    cases hreturns : f.returns with
    | none =>
      simp only [hreturns] at h
      cases h
      exact ⟨_, rfl, hps⟩
    | some e =>
      simp only [hreturns] at h
      rcases bind_eq_ok.mp h with ⟨type, -, h⟩
      cases h
      exact ⟨_, rfl, hps⟩

/-- The functions of a module that are its keywords. -/
def markedFunctions (program : List Stmt) : List Function :=
  ((program.filterMap plainFunction?).map Prod.fst).filter fun f => (firstMarkedName f).isSome

variable {stem : String} {names : Entries} {program : List Stmt} {lib : Library}

lemma moduleLibrary_made (h : functionLibrary stem names program = .ok lib) :
  List.Forall₂ (fun f k => parameterTexts f.parameters = .ok k.parameters) (markedFunctions program)
    lib.keywords := by
  rcases (functionLibrary_made h).2 with ⟨rs, hkeywords, hrs⟩
  rw [hkeywords, markedFunctions]
  clear hkeywords
  generalize program.filterMap plainFunction? = fs at hrs
  induction hrs with
  | nil => exact .nil
  | cons hread _ ih =>
    rw [map_cons, filter_cons]
    rcases functionKeyword?_eq_ok hread with ⟨hnone, rfl⟩ | ⟨hmarked, k, rfl, hps⟩
    · rw [if_neg (by rw [hnone]; exact Bool.false_ne_true)]
      exact ih
    · rw [if_pos hmarked]
      exact .cons hps ih

lemma moduleLibrary_paired (h : functionLibrary stem names program = .ok lib) :
  (AllPaired lib → ∀ f ∈ markedFunctions program, ∀ a ∈ f.parameters.positional,
      a.name ≠ "" → a.name = "self") ∧
    ((∀ f ∈ markedFunctions program, ∀ a ∈ f.parameters.positional, a.name = "self") →
      AllPaired lib) := by
  constructor
  · intro hpaired f hf a ha hne
    by_contra hself
    rcases forall₂_exists_right (moduleLibrary_made h) hf with ⟨k, hk, hps⟩
    -- The parameter has a text of its own, and that is too long to be a name with a type.
    rcases exists_shows hps ha hself with ⟨d, t, ht, hshows⟩
    rcases hshows.text with ⟨rest, rfl⟩
    exact hne (text_paired (hpaired k hk _ ht))
  · intro hself k hk p hp
    rcases forall₂_exists_left (moduleLibrary_made h) hk with ⟨f, hf, hps⟩
    have hnone : (f.parameters.positional.zipIdx.filter fun a => a.1.name ≠ "self") = [] := by
      refine filter_eq_nil_iff.mpr fun a ha => ?_
      simpa using hself f hf a.1 (fst_mem_of_mem_zipIdx ha)
    have hall := parameterTexts_eq_ok hps
    -- Without parameters there are no texts either.
    rw [hnone, forall₂_nil_left_iff] at hall
    rw [hall] at hp
    cases hp

lemma moduleLibrary_keyNames (h : functionLibrary stem names program = .ok lib) :
  ∀ k ∈ lib.keywords, KeyNames k := by
  intro k hk
  rcases forall₂_exists_left (moduleLibrary_made h) hk with ⟨f, -, hps⟩
  refine keyNames_of_text fun p hp => ?_
  rcases forall₂_exists_left (parameterTexts_eq_ok hps) hp with ⟨a, -, hshows⟩
  exact hshows.text.imp' _ fun _ => id

variable {config : Option Json} {file : SourceFile} {inspector : Inspector} {v v' : Vocabulary} {way : Way}

lemma discover_keyNames {loader : Loader}
  (h : outcome (discover config file inspector loader) v = (.ok (way, lib), v')) :
  Fills lib.name ∧ ∀ k ∈ lib.keywords, KeyNames k := by
  rcases discover_eq_ok h with ⟨program, -, -, ⟨-, i, v₁, v₂, -, hlib⟩ | ⟨-, hwritten⟩⟩
  · rcases inspection_library_eq_ok hlib with ⟨-, hname, -, -, -, hmade⟩
    exact ⟨.inr hname, fun k hk => keyNames_of_shownPair (made_fit hmade k hk).2⟩
  · cases hwritten with
    | ofClass names head body _ _ _ _ hlib =>
      rcases classLibrary_made hlib with ⟨hname, hmade⟩
      exact ⟨.inr ⟨_, hname⟩, fun k hk => keyNames_of_shownPair (classMade_shownPair hmade k hk)⟩
    | ofModule names _ _ hlib => exact ⟨.inr ⟨_, (functionLibrary_made hlib).1⟩, moduleLibrary_keyNames hlib⟩

lemma inspected_fit (h : outcome (discover config file inspector) v = (.ok (.inspected, lib), v')) :
  FitForPage lib ∧ AllPaired lib := by
  rcases discover_eq_ok h with ⟨program, -, -, ⟨-, i, v₁, v₂, -, hlib⟩ | ⟨hway, -⟩⟩
  · rcases inspection_library_eq_ok hlib with ⟨-, -, hversion, hscope, hdescription, hmade⟩
    have hfit := made_fit hmade
    exact ⟨⟨.inr hdescription, .inr hversion, .inr hscope, fun k hk => (hfit k hk).1⟩,
      fun k hk p hp => ((hfit k hk).2 p hp).paired⟩
  · cases hway

/-- When the library of a source has pages. A Markdown page can be made exactly if the description
fills a placeholder and all parameters are names with types; a page needs version, scope and the
names of the keywords as well. Of an inspected library both can always be made, and of a class
all parameters are names with types. A module has a page only if its functions have no parameters. -/
theorem discovered_pages_iff (config : Option Json) (file : SourceFile) (inspector : Inspector)
  (v v' : Vocabulary) (way : Way) (lib : Library)
  (hfound : outcome (discover config file inspector) v = (.ok (way, lib), v'))
  (settings : Json) (hsettings : TextSettings settings) (template now : String) :
  ((∃ page, markdown settings lib = .ok page) ↔ Fills lib.description ∧ AllPaired lib) ∧
  ((∃ page, (outcome (html template settings lib now true) v').1 = .ok page) ↔
    FitForPage lib ∧ AllPaired lib) ∧
  (way = .inspected → FitForPage lib ∧ AllPaired lib) ∧
  (way = .written → ∃ program, Program.read file.text = .ok program ∧
    ((soughtClass program).isSome → AllPaired lib) ∧
    (soughtClass program = none →
      (AllPaired lib → ∀ f ∈ markedFunctions program, ∀ a ∈ f.parameters.positional,
        a.name ≠ "" → a.name = "self") ∧
      ((∀ f ∈ markedFunctions program, ∀ a ∈ f.parameters.positional, a.name = "self") →
        AllPaired lib))) := by
  rcases discover_keyNames hfound with ⟨hname, hkey⟩
  rcases discover_eq_ok hfound with ⟨program, hread, hattached, hway⟩
  refine ⟨markdown_succeeds_iff hkey,
    html_succeeds_iff template now hsettings hname hkey hattached, ?_, ?_⟩
  · rintro rfl
    exact inspected_fit hfound
  · rintro rfl
    refine ⟨program, hread, ?_⟩
    rcases hway with ⟨hother, -⟩ | ⟨-, hwritten⟩
    · cases hother
    cases hwritten with
    | ofClass names head body _ _ _ hsought hlib =>
      refine ⟨fun _ k hk p hp => ?_, fun hnone => ?_⟩
      · exact (classMade_shownPair (classLibrary_made hlib).2 k hk p hp).paired
      · rw [hsought] at hnone
        cases hnone
    | ofModule names _ hsought hlib =>
      refine ⟨fun hsome => ?_, fun _ => moduleLibrary_paired hlib⟩
      rw [hsought] at hsome
      cases hsome

/-- A module with a marked function that has a parameter. -/
def oneParameter : SourceFile where
  stem := "lib"
  isModule := true
  text := "from robot.api.deco import keyword\n\n@keyword\ndef do_it(a):\n    pass\n"
  around := fun _ => none

/-- The library is found, and it has no page of either kind. -/
theorem discovered_pages_iff_one_parameter :
  ∃ lib v', outcome (discover none oneParameter) {} = (.ok (.written, lib), v') ∧
    TextSettings (.obj []) ∧ (¬ ∃ page, markdown (.obj []) lib = .ok page) ∧
    ¬ ∃ page, (outcome (html pageTemplate (.obj []) lib "" true) v').1 = .ok page := by
  have hsettings : TextSettings (.obj []) := ⟨nofun, nofun, nofun⟩
  have hmodule : ∀ file : SourceFile, isFound .written (outcome (discover none file) {}).1 →
      (match Program.read file.text with
        | .ok program => (soughtClass program).isNone && (markedFunctions program).any fun f =>
          f.parameters.positional.any fun a => a.name == "a"
        | .error _ => false) = true →
      ∃ lib v', outcome (discover none file) {} = (.ok (.written, lib), v') ∧
        TextSettings (.obj []) ∧ (¬ ∃ page, markdown (.obj []) lib = .ok page) ∧
        ¬ ∃ page, (outcome (html pageTemplate (.obj []) lib "" true) v').1 = .ok page := by
    intro file hfound hprogram
    rcases exists_of_isFound hfound with ⟨lib, hlib⟩
    have hrun : outcome (discover none file) {} = (.ok (.written, lib), _) := Prod.ext hlib rfl
    have hpages := discovered_pages_iff none file inspect {} _ .written lib hrun (.obj []) hsettings
      pageTemplate ""
    rcases hpages.2.2.2 rfl with ⟨program, hread, -, hnone⟩
    rw [hread, Bool.and_eq_true, Option.isNone_iff_eq_none, any_eq_true] at hprogram
    rcases hprogram with ⟨hsought, f, hf, hany⟩
    rcases any_eq_true.mp hany with ⟨a, ha, hname⟩
    have hunpaired : ¬ AllPaired lib := by
      intro hpaired
      have hself := (hnone hsought).1 hpaired f hf a ha
      rw [beq_iff_eq.mp hname] at hself
      exact absurd (hself (by decide)) (by decide)
    exact ⟨lib, _, hrun, hsettings, fun hpage => hunpaired (hpages.1.mp hpage).2,
      fun hpage => hunpaired (hpages.2.1.mp hpage).2⟩
  exact hmodule oneParameter (by decide +kernel) (by decide +kernel)

end KeywordDocs.Page
