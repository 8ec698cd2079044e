import KeywordDocs.Proofs.Highlight.Clipping
import KeywordDocs.Proofs.Highlight.Quiet

/-!
# The Keyword at the Start of a Step

A step that does not start with a variable is checked for a keyword at its start. Of the names after which the
text ends or goes on with a space, the longest is found (`leadingKeyword_cases`).
-/

namespace KeywordDocs.Highlight

open Text Markup

variable {config : Option Json} {v : Vocabulary} {names : List String} {content indent : List Char}

/-- Whether a text starts with a name, up to its end or to a space. -/
def Starts (content : List Char) (name : String) : Prop :=
  name ≠ "" ∧ ∃ rest, content = name.toList ++ rest ∧ endsName rest

lemma starts_iff {name : String} : Starts content name ↔
  name ≠ "" ∧ ((dropPrefix? name.toList content).filter endsName).isSome := by
  refine and_congr_right fun _ => ?_
  rw [Option.isSome_iff_exists]
  refine exists_congr fun rest => ?_
  rw [Option.filter_eq_some_iff]
  refine and_congr_left fun _ => ⟨?_, dropPrefix?_eq_some⟩
  rintro rfl
  exact dropPrefix?_append _ _

lemma leadingKeyword_cases (names : List String) (content : List Char) :
  (∃ name ∈ names, ∃ rest, leadingKeyword (longestFirst names) content = some (name, rest) ∧
    name ≠ "" ∧ content = name.toList ++ rest ∧ endsName rest ∧
    ∀ m ∈ names, Starts content m → m.length ≤ name.length) ∨
  (∀ m ∈ names, ¬ Starts content m) ∧ ∀ name rest,
    leadingKeyword (longestFirst names) content = some (name, rest) → name = "" := by
  have hfound := findSome?_eq_bind (fun name =>
    ((dropPrefix? name.toList content).filter endsName).map fun rest => (name, rest)) (longestFirst names)
  simp only [Option.isSome_map] at hfound
  rw [leadingKeyword, hfound]
  cases hfind : (longestFirst names).find? fun name =>
    ((dropPrefix? name.toList content).filter endsName).isSome with
  | none =>
    refine .inr ⟨fun m hm hstarts => ?_, fun name rest h => by cases h⟩
    exact List.find?_eq_none.mp hfind m (mem_longestFirst.mpr hm) (starts_iff.mp hstarts).2
  | some name =>
    have hsome : ((dropPrefix? name.toList content).filter endsName).isSome := by
      simpa using List.find?_some hfind
    rcases Option.isSome_iff_exists.mp hsome with ⟨rest, hrest⟩
    have hlongest : ∀ m ∈ names, Starts content m → m.length ≤ name.length := fun m hm hstarts =>
      length_le_of_find? hfind hm (starts_iff.mp hstarts).2
    rw [Option.bind_some, hrest, Option.map_some]
    by_cases hname : name = ""
    · refine .inr ⟨fun m hm hstarts => hstarts.1 ?_, fun name' rest' h => by cases h; exact hname⟩
      have hzero := hlongest m hm hstarts
      rw [hname] at hzero
      exact String.length_eq_zero_iff.mp (Nat.le_zero.mp hzero)
    · rcases Option.filter_eq_some_iff.mp hrest with ⟨hdrop, hends⟩
      exact .inl ⟨name, mem_longestFirst.mp (List.mem_of_find?_eq_some hfind), rest, rfl, hname,
        dropPrefix?_eq_some hdrop, hends, hlongest⟩

/-- What is shown after a keyword at the start: a space and the rest of the text in colour, if there is
a rest. -/
def afterName (names : List String) (rest : List Char) : List Char :=
  if rest.isEmpty then [] else ' ' :: highlightVariablesWith (longestFirst names) rest

lemma colour_readStep (names : List String) (indent : List Char)
  (hvariable : startsWithVariable content = false) :
  (∃ name ∈ names, ∃ rest, content = name.toList ++ rest ∧ Starts content name ∧
    (∀ m ∈ names, Starts content m → m.length ≤ name.length) ∧ (readStep names indent content).colour =
      indent ++ ((keywordInk name).span name.toList ++ afterName names rest)) ∨
  (∀ m ∈ names, ¬ Starts content m) ∧ (readStep names indent content).colour =
    indent ++ highlightVariablesWith (longestFirst names) content := by
  rcases leadingKeyword_cases names content with
    ⟨name, hmem, rest, hfound, hname, hcontent, hends, hlongest⟩ | ⟨hnone, hempty⟩
  · refine .inl ⟨name, hmem, rest, hcontent, ⟨hname, rest, hcontent, hends⟩, hlongest, ?_⟩
    have hname : name.isEmpty = false := by simpa using hname
    rw [readStep, hvariable, hfound]
    dsimp only
    rw [hname, afterName]
    cases rest with
    | nil => simp [Portions.colour, Portions.start, paint, highlightVariablesWith_nil]
    | cons c rest => simp [Portions.colour, Portions.start, paint]
  · have hwhole : readStep names indent content = ⟨[(none, indent)], false, names, content⟩ := by
      rw [readStep, hvariable, if_neg Bool.false_ne_true]
      split
      case h_1 name rest hfound => rw [hempty name rest hfound]; rfl
      case h_2 => rfl
    refine .inr ⟨hnone, ?_⟩
    rw [hwhole]
    simp [Portions.colour, Portions.start, paint]

lemma startsWithVariable_of_step {line : String}
  (h : classify (escape line).toList = .step indent content)
  (hvariable : ∀ sign ∈ ['$', '@'], ¬ [sign, '\x7b'] <+: content) :
  startsWithVariable content = false := by
  refine List.any_eq_false.mpr fun sign hsign hstarts => ?_
  rw [List.isPrefixOf_iff_prefix] at hstarts
  have hcases : sign ∈ ['$', '@'] ∨ sign = '&' := by simpa [variableSigns, or_assoc] using hsign
  rcases hcases with hsign | rfl
  · exact hvariable sign hsign hstarts
  · rcases hstarts with ⟨rest, rfl⟩
    have hwhole := whole_escape line
    rw [(classify_eq_step h).2.1] at hwhole
    rcases hwhole.end [] ('\x7b' :: rest) rfl with ⟨e, he, hfront⟩
    exact not_entity he (c := '\x7b') (by decide) hfront

/-- A step that does not start with a variable: if it starts with names, up to its end or to a space,
then the longest of them is shown as a keyword, and if not, then the step is coloured as any other
text is. -/
theorem highlightLine_leading {line : String} {indent : List Char}
  (hnames : v.names? config = some names)
  (hstep : classify (escape line).toList = .step indent content)
  (hvariable : ∀ sign ∈ ['$', '@'], ¬ [sign, '\x7b'] <+: content) :
  ∃ out, (outcome (highlightLine config line) v).1 = .ok (String.ofList (indent ++ out)) ∧
    ((∃ name ∈ names ++ controlWords, ∃ rest, content = name.toList ++ rest ∧ Starts content name ∧
        (∀ m ∈ names ++ controlWords, Starts content m → m.length ≤ name.length) ∧
        out = (keywordInk name).span name.toList ++ afterName (names ++ controlWords) rest) ∨
      (∀ m ∈ names ++ controlWords, ¬ Starts content m) ∧
        out = highlightVariablesWith (longestFirst (names ++ controlWords)) content) := by
  have hstarts := startsWithVariable_of_step hstep hvariable
  have hline := outcome_highlightLine hnames line
  rw [readLine_step names hstep] at hline
  rcases colour_readStep (names ++ controlWords) indent hstarts with
    ⟨name, hmem, rest, hcontent, hname, hlongest, hcolour⟩ | ⟨hnone, hcolour⟩
  · rw [hcolour] at hline
    exact ⟨_, hline, .inl ⟨name, hmem, rest, hcontent, hname, hlongest, rfl⟩⟩
  · rw [hcolour] at hline
    exact ⟨_, hline, .inr ⟨hnone, rfl⟩⟩

/-- Of two names that a step starts with, the longer one is shown. -/
theorem highlightLine_leading_longer :
  (outcome (highlightLine none "    Open Page    x") (keeping ["Open", "Open Page"])).1 =
    .ok (String.ofList ("    ".toList ++ (Ink.keyword.span "Open Page".toList ++
      afterName (["Open", "Open Page"] ++ controlWords) "    x".toList))) := by
  have hstep : classify (escape "    Open Page    x").toList =
      .step "    ".toList "Open Page    x".toList :=
    classify_of_indented (by decide) (by decide) (by decide) (by decide)
  have hstarts : Starts "Open Page    x".toList "Open Page" := starts_iff.mpr (by decide)
  have honly : ∀ m ∈ ["Open", "Open Page"] ++ controlWords, "Open Page".length ≤ m.length →
      Starts "Open Page    x".toList m → m = "Open Page" := by
    simp only [starts_iff]
    decide
  rcases highlightLine_leading (v := keeping ["Open", "Open Page"]) rfl hstep (by decide) with
    ⟨out, hout, ⟨name, hmem, rest, hrest, hname, hlongest, rfl⟩ | ⟨hnone, -⟩⟩
  · obtain rfl := honly name hmem (hlongest _ (by decide) hstarts) hname
    have hrest : "Open Page".toList ++ "    x".toList = "Open Page".toList ++ rest := hrest
    rwa [List.append_cancel_left hrest]
  · cases (hnone _ (by decide)) hstarts

lemma highlightVariablesWith_only {text front rest : List Char} {name : String} (h : Quiet text)
  (hname : name ∈ names) (hsplit : splitAtWord name.toList none text = some (front, rest))
  (honly : ∀ m ∈ names, m ≠ name → splitAtWord m.toList none text = none) :
  highlightVariablesWith (longestFirst names) text = front ++ Ink.keyword.span name.toList ++ rest := by
  rw [highlightVariablesWith_quiet _ h, findSome?_longestFirst_only hname (by rw [hsplit, Option.map_some])
    fun m hm hne => by rw [honly m hm hne, Option.map_none], Option.elim_some]

/-- A step that starts with no name up to a space, and is shown with a keyword at its start. -/
theorem highlightLine_leading_word :
  classify (escape "    Log.x").toList = .step "    ".toList "Log.x".toList ∧
    (∀ m ∈ ["Log"] ++ controlWords, ¬ Starts "Log.x".toList m) ∧
    (outcome (highlightLine none "    Log.x") (keeping ["Log"])).1 =
      .ok (String.ofList ("    ".toList ++ (Ink.keyword.span "Log".toList ++ ".x".toList))) := by
  have hstep : classify (escape "    Log.x").toList = .step "    ".toList "Log.x".toList :=
    classify_of_indented (by decide) (by decide) (by decide) (by decide)
  have hnone : ∀ m ∈ ["Log"] ++ controlWords, ¬ Starts "Log.x".toList m := by
    simp only [starts_iff]
    decide
  refine ⟨hstep, hnone, ?_⟩
  rw [outcome_highlightLine rfl, readLine_step _ hstep]
  have hvariable : startsWithVariable "Log.x".toList = false := rfl
  have hsplit : splitAtWord "Log".toList none "Log.x".toList = some ([], ".x".toList) := by decide +kernel
  rcases colour_readStep (["Log"] ++ controlWords) "    ".toList hvariable with
    ⟨name, hmem, _, _, hstarts, _⟩ | ⟨_, hcolour⟩
  · cases (hnone name hmem) hstarts
  · rw [hcolour, highlightVariablesWith_only (by decide) (by decide) hsplit (by decide +kernel)]
    rfl

end KeywordDocs.Highlight
