import KeywordDocs.Proofs.Highlight.Colouring
import KeywordDocs.Proofs.Highlight.Naming
import Mathlib.Data.List.DropRight

/-!
# How a Line is Read

A line of test code is divided before it is coloured: a front that is coloured or left as it is, part by part,
and a rest that is searched for variables, a keyword, named arguments and comments.
-/

namespace KeywordDocs.Highlight

open Text Markup List

variable {config : Option Json} {v : Vocabulary} {name : String} {names : List String}
  {line indent content : List Char}

/-- A line that is divided for colouring: parts that are coloured as a whole or left as they are,
whether a space is put after them, and the text that is searched with the known names. -/
structure Portions where
  front : List (Option Ink × List Char)
  spaced : Bool
  names : List String
  text : List Char

def paint (part : Option Ink × List Char) : List Char := part.1.elim part.2 fun ink => ink.span part.2

/-- What stands before the searched text. -/
def Portions.start (r : Portions) : List Char := r.front.flatMap paint ++ if r.spaced then [' '] else []

def Portions.colour (r : Portions) : List Char :=
  r.start ++ highlightVariablesWith (longestFirst r.names) r.text

def readStep (names : List String) (indent content : List Char) : Portions :=
  let whole := ⟨[(none, indent)], false, names, content⟩
  if startsWithVariable content then whole
  else match leadingKeyword (longestFirst names) content with
    | some (name, rest) =>
      if name.isEmpty then whole
      else ⟨[(none, indent), (some (keywordInk name), name.toList)], !rest.isEmpty, names, rest⟩
    | none => whole

def readEscaped (names : List String) (line : List Char) : Portions :=
  match classify line with
  | .comment => ⟨[(some .comment, line)], false, names, []⟩
  | .sectionHeader => ⟨[(some .sectionHeader, line)], false, names, []⟩
  | .setting indent name rest =>
    ⟨[(none, indent), (some .setting, name.toList), (none, rest)], false, names, []⟩
  | .title => ⟨[(some .title, line)], false, names, []⟩
  | .step indent content => readStep (names ++ controlWords) indent content
  | .other => ⟨[(none, [])], false, names, line⟩

def readLine (names : List String) (line : String) : Portions :=
  if line.isEmpty then ⟨[(none, [])], false, names, []⟩
  else readEscaped names (escape line).toList

/-- The ways in which a line is divided. -/
inductive Reads (line : List Char) : Portions → Prop where
  | whole (ink : Ink) (names : List String) : Reads line ⟨[(some ink, line)], false, names, []⟩
  | setting {name : String} (indent rest blanks : List Char) (names : List String)
      (hname : name ∈ settingNames) (hindent : indent.all isBlank)
      (hblanks : blanks.all isBlank)
      (hline : line = indent ++ name.toList ++ rest ++ blanks) :
      Reads line ⟨[(none, indent), (some .setting, name.toList), (none, rest)], false, names, []⟩
  | searched (indent content : List Char) (names : List String)
      (hindent : indent.all isBlank) (hline : line = indent ++ content) :
      Reads line ⟨[(none, indent)], false, names, content⟩
  | keyword (ink : Ink) (indent name rest : List Char) (names : List String)
      (hindent : indent.all isBlank) (hname : name ≠ []) (hends : endsName rest)
      (hline : line = indent ++ name ++ rest) :
      Reads line ⟨[(none, indent), (some ink, name)], !rest.isEmpty, names, rest⟩

lemma settingRest?_eq_some {line rest : List Char} (h : settingRest? name line = some rest) :
  ∃ blanks, blanks.all isBlank ∧ line = line.takeWhile isBlank ++ name.toList ++ rest ++ blanks := by
  have hline : line.takeWhile isBlank ++ trimLeftChars line = line := takeWhile_append_dropWhile
  unfold settingRest? at h
  dsimp only at h
  split at h
  case isTrue hbody =>
    cases h
    refine ⟨(trimLeftChars line).rtakeWhile isBlank, ?_, ?_⟩
    · exact all_eq_true.mpr fun c hc => mem_rtakeWhile_imp hc
    · have hright : trimChars line ++ _ = _ :=
        rdropWhile_append_rtakeWhile (p := isBlank) (l := trimLeftChars line)
      rw [append_nil, append_assoc, ← hbody, hright, hline]
  case isFalse =>
    split at h
    case h_2 => cases h
    case h_1 =>
      refine ⟨[], rfl, ?_⟩
      rw [append_nil, append_assoc, ← dropPrefix?_eq_some h, hline]

lemma leadingKeyword_eq_some {content rest : List Char}
  (h : leadingKeyword names content = some (name, rest)) :
  content = name.toList ++ rest ∧ endsName rest := by
  rcases exists_of_findSome?_eq_some h with ⟨name', _, hfound⟩
  rcases Option.map_eq_some_iff.mp hfound with ⟨rest', hrest, hpair⟩
  cases hpair
  exact (Option.filter_eq_some_iff.mp hrest).imp_left dropPrefix?_eq_some

lemma readStep_reads (names : List String) (hindent : indent.all isBlank)
  (hline : line = indent ++ content) :
  Reads line (readStep names indent content) := by
  have hwhole := Reads.searched indent content names hindent hline
  unfold readStep
  dsimp only
  split
  · exact hwhole
  · split
    case h_2 => exact hwhole
    case h_1 name rest hfound =>
      rcases leadingKeyword_eq_some hfound with ⟨hcontent, hends⟩
      split
      · exact hwhole
      case isFalse hname =>
        refine .keyword _ indent name.toList rest names hindent (fun hnil => hname ?_) hends ?_
        · rw [String.isEmpty_iff, ← String.toList_eq_nil_iff, hnil]
        · rw [hline, hcontent, append_assoc]

lemma classify_eq_setting {line indent rest : List Char}
  (h : classify line = .setting indent name rest) :
  name ∈ settingNames ∧ indent = line.takeWhile isBlank ∧ settingRest? name line = some rest := by
  unfold classify at h
  dsimp only at h
  split at h
  · cases h
  · split at h
    · cases h
    · split at h
      case h_1 name' rest' hfound =>
        cases h
        rcases exists_of_findSome?_eq_some hfound with ⟨name', hname, hsetting⟩
        rcases Option.map_eq_some_iff.mp hsetting with ⟨rest', hrest, hpair⟩
        cases hpair
        exact ⟨mem_longestFirst.mp hname, rfl, hrest⟩
      case h_2 =>
        split at h
        · cases h
        · split at h <;> cases h

lemma classify_eq_step (h : classify line = .step indent content) :
  indent.all isBlank ∧ line = indent ++ content ∧ isIndented line := by
  have hblank : ∀ c, (c == ' ' || c == '\t') → isBlank c := by
    intro c hc
    rcases Bool.or_eq_true_iff.mp hc with hc | hc
    · rw [eq_of_beq hc]
      rfl
    · rw [eq_of_beq hc]
      rfl
  unfold classify at h
  dsimp only at h
  split at h
  · cases h
  · split at h
    · cases h
    · split at h
      · cases h
      · split at h
        · cases h
        · split at h
          case isTrue hindented =>
            cases h
            refine ⟨all_eq_true.mpr fun c hc => hblank c ?_, takeWhile_append_dropWhile.symm, hindented⟩
            exact mem_takeWhile_imp (p := fun c => c == ' ' || c == '\t') hc
          case isFalse => cases h

lemma classify_of_indented {line : List Char} (hcomment : ['#'].isPrefixOf (trimChars line) = false)
  (hsection : ['*', '*', '*'].isPrefixOf (trimChars line) = false)
  (hsetting : ∀ name ∈ settingNames, settingRest? name line = none) (hindented : isIndented line) :
  classify line = .step (line.takeWhile fun c => c == ' ' || c == '\t')
    (line.dropWhile fun c => c == ' ' || c == '\t') := by
  have hnone : ((longestFirst settingNames).findSome? fun name =>
      (settingRest? name line).map fun rest => (name, rest)) = none :=
    findSome?_longestFirst_none fun name hname => by rw [hsetting name hname, Option.map_none]
  unfold classify
  dsimp only
  rw [hcomment, hsection, hnone, hindented]
  rfl

lemma readEscaped_reads (names : List String) (line : List Char) :
  Reads line (readEscaped names line) := by
  unfold readEscaped
  split
  case h_1 => exact .whole .comment names
  case h_2 => exact .whole .sectionHeader names
  case h_3 indent name rest hkind =>
    rcases classify_eq_setting hkind with ⟨hname, rfl, hrest⟩
    rcases settingRest?_eq_some hrest with ⟨blanks, hblanks, hline⟩
    exact .setting _ rest blanks names hname all_takeWhile hblanks hline
  case h_4 => exact .whole .title names
  case h_5 indent content hkind =>
    rcases classify_eq_step hkind with ⟨hindent, hline, -⟩
    exact readStep_reads _ hindent hline
  case h_6 => exact .searched [] line names rfl rfl

lemma readLine_reads (names : List String) (line : String) :
  Reads (escape line).toList (readLine names line) := by
  unfold readLine
  split
  case isTrue h =>
    rw [String.isEmpty_iff.mp h]
    exact .searched [] [] names rfl rfl
  case isFalse => exact readEscaped_reads names _

lemma readLine_step (names : List String) {line : String}
  (h : classify (escape line).toList = .step indent content) :
  readLine names line = readStep (names ++ controlWords) indent content := by
  have hline : line.isEmpty = false := by
    cases hempty : line.isEmpty with
    | false => rfl
    | true =>
      have hindented := (classify_eq_step h).2.2
      rw [String.isEmpty_iff.mp hempty] at hindented
      cases hindented
  rw [readLine, hline, readEscaped, h]
  rfl

lemma readLine_unnamed {line : String} (h : classify (escape line).toList = .step indent content)
  (hnone : ∀ name ∈ names ++ controlWords, (Text.dropPrefix? name.toList content).filter endsName = none) :
  readLine names line = ⟨[(none, indent)], false, names ++ controlWords, content⟩ := by
  have hkeyword : leadingKeyword (longestFirst (names ++ controlWords)) content = none :=
    findSome?_longestFirst_none fun name hname => by rw [hnone name hname, Option.map_none]
  rw [readLine_step names h, readStep, hkeyword]
  exact ite_self _

lemma markKeyword_longestFirst {cs : List Char}
  (h : ∀ name ∈ names, splitAtWord name.toList none cs = none) :
  markKeyword (longestFirst names) cs = (cs, []) :=
  markKeyword_of_none fun name hname => h name (mem_longestFirst.mp hname)

lemma highlightVariablesWith_nil (names : List String) : highlightVariablesWith names [] = [] := by
  have hvariables : markVariables [] = ([], []) := rfl
  rw [highlightVariablesWith, hvariables]
  dsimp only
  -- No word starts where there is no text.
  rw [markKeyword_of_none fun name _ => by rw [splitAtWord.eq_def]; rfl]
  rfl

lemma stepIn_eq_colour (names : List String) (indent content : List Char) :
  stepIn names indent content = (readStep names indent content).colour := by
  have hwhole : indent ++ highlightVariablesWith (longestFirst names) content =
      (⟨[(none, indent)], false, names, content⟩ : Portions).colour := by
    simp [Portions.colour, Portions.start, paint]
  unfold stepIn readStep
  dsimp only
  rw [hwhole]
  by_cases hvariable : startsWithVariable content
  · rw [if_pos hvariable, if_pos hvariable]
  · rw [if_neg hvariable, if_neg hvariable]
    cases leadingKeyword (longestFirst names) content with
    | none => rfl
    | some found =>
      dsimp only
      by_cases hname : found.1.isEmpty
      · rw [if_pos hname, if_pos hname]
      · rw [if_neg hname, if_neg hname]
        cases hrest : found.2 with
        | nil => simp [Portions.colour, Portions.start, paint, highlightVariablesWith_nil]
        | cons c rest => simp [Portions.colour, Portions.start, paint]

lemma outcome_highlightLine (h : v.names? config = some names) (line : String) :
  (outcome (highlightLine config line) v).1 = .ok (String.ofList (readLine names line).colour) := by
  unfold highlightLine readLine
  split
  · simp [outcome_pure, Portions.colour, Portions.start, paint, highlightVariablesWith_nil]
  · rw [outcome_map]
    unfold highlightEscaped readEscaped
    cases hkind : classify (escape line).toList with
    | step indent content =>
      rw [outcome_highlightStep, h]
      simp [stepIn_eq_colour, Except.map]
    | other =>
      dsimp only
      rw [outcome_highlightVariables, h]
      simp [Portions.colour, Portions.start, paint, Except.map]
    | comment | sectionHeader | title =>
      simp [outcome_pure, Portions.colour, Portions.start, paint, Except.map, highlightVariablesWith_nil]
    | setting indent name rest =>
      simp [outcome_pure, Portions.colour, Portions.start, paint, Except.map, highlightVariablesWith_nil]

end KeywordDocs.Highlight
