import KeywordDocs.Discovery.Source
import KeywordDocs.Proofs.Highlight.Outcome

/-!
# What Discovery Finds

A library is found by inspection, as a class or as a module of functions. Which one it is depends on the
source and on what inspection does, and all of them run in the memory of a highlighter.
-/

namespace KeywordDocs.Discovery

open Source KeywordDocs.Module Highlight List

variable {config : Option Json} {v v' : Vocabulary} {program : List Stmt} {lib : Library}
  {inspector : Inspector} {file : SourceFile}

inductive Made (resolve : Resolver) (methods : List (String × Function)) :
  Option (List (String × Value)) → List Found → List Keyword → Prop where
  | nil (before : Option (List (String × Value))) : Made resolve methods before [] []
  | cons (before : Option (List (String × Value))) (f : Found) (rest : List Found) (k : Keyword)
      (ks : List Keyword) (description : String)
      (hk : madeKeyword resolve methods before f = some k)
      (hrest : Made resolve methods (some k.defaults) rest ks) :
      Made resolve methods before (f :: rest)
        ({ k with description := description, lineNumber := f.line } :: ks)

lemma renderFound_made {resolve : Resolver} {methods : List (String × Function)}
  {before : Option (List (String × Value))} {found : List Found} {ks : List Keyword}
  (h : outcome (renderFound config resolve methods before found) v = (.ok ks, v')) :
  Made resolve methods before found ks := by
  induction found generalizing before v ks with
  | nil =>
    rw [renderFound, outcome_pure] at h
    cases h
    exact .nil before
  | cons f rest ih =>
    rw [renderFound] at h
    rcases outcome_bind_eq_ok h with ⟨description, v₁, -, h⟩
    cases hk : madeKeyword resolve methods before f with
    | none =>
      rw [hk] at h
      cases h
    | some k =>
      rw [hk] at h
      rcases outcome_bind_eq_ok h with ⟨ks', v₂, hrest, h⟩
      cases h
      exact .cons before f rest k ks' description hk (ih hrest)

lemma inspection_library_eq_ok {i : Inspection}
  (h : outcome (i.library config program) v = (.ok lib, v')) :
  i.keywords ≠ [] ∧ (∃ s, lib.name = .str s) ∧ (∃ s, lib.version = .str s) ∧
    (∃ s, lib.scope = .str s) ∧ (∃ s, lib.description = .str s) ∧
    Made (resolveAmong i.names) (methodMap program) none i.keywords lib.keywords := by
  unfold Inspection.library at h
  by_cases hempty : i.keywords.isEmpty
  · rw [if_pos hempty, outcome_throw] at h
    cases h
  · rw [if_neg hempty] at h
    rcases outcome_bind_eq_ok h with ⟨ks, v₁, hks, h⟩
    cases h
    refine ⟨fun hnil => hempty ?_, ⟨_, rfl⟩, ⟨_, rfl⟩, ⟨_, rfl⟩, ⟨_, rfl⟩, renderFound_made hks⟩
    rw [hnil, isEmpty_nil]

def ClassMade (resolve : Resolver) (body : List Stmt) (ks : List Keyword) : Prop :=
  List.Forall₂ (fun m k => ∃ description,
    k = { keywordOf resolve m.1 m.2.1 with description := description }) (markedMethods body) ks

lemma classLibrary_made {names : Entries} {h : ClassHead} {body : List Stmt}
  (hlib : outcome (classLibrary config names h body) v = (.ok lib, v')) :
  lib.name = .str h.name ∧ ClassMade (resolveAmong names) body lib.keywords := by
  unfold classLibrary at hlib
  rcases outcome_bind_eq_ok hlib with ⟨_, v₁, -, hlib⟩
  rcases outcome_bind_eq_ok hlib with ⟨ks, v₂, hks, hlib⟩
  cases hlib
  refine ⟨rfl, ?_⟩
  -- Every keyword is rendered together with the method it is made of.
  have hzip : ∀ (g : Value × Function × List Stmt → Keyword) (ms : List _),
      (ms.map g).zip ms = ms.map fun m => (g m, m) := by
    intro g ms
    induction ms with
    | nil => rfl
    | cons m ms ih => rw [map_cons, zip_cons_cons, ih, map_cons]
  have hmap := outcome_mapM_eq_ok hks
  rw [hzip, forall₂_map_left_iff] at hmap
  refine hmap.imp fun m k hk => ?_
  rcases hk with ⟨v₃, v₄, hk⟩
  rcases outcome_bind_eq_ok hk with ⟨description, v₅, -, hk⟩
  cases hk
  exact ⟨description, rfl⟩

lemma functionLibrary_made {stem : String} {names : Entries}
  (h : functionLibrary stem names program = .ok lib) :
  lib.name = .str stem ∧ ∃ rs, lib.keywords = rs.filterMap id ∧
    List.Forall₂ (fun f r => functionKeyword? f.1 f.2 = .ok r) (program.filterMap plainFunction?) rs := by
  rcases bind_eq_ok.mp h with ⟨rs, hrs, hlib⟩
  cases hlib
  exact ⟨rfl, rs, rfl, mapM_eq_ok_iff.mp hrs⟩

inductive WrittenAs (config : Option Json) (file : SourceFile) (program : List Stmt) :
  Library → Prop where
  | ofClass (names : Entries) (h : ClassHead) (body : List Stmt) (lib : Library) (v v' : Vocabulary)
      (hsought : soughtClass program = some (h, body))
      (hlib : outcome (classLibrary config names h body) v = (.ok lib, v')) :
      WrittenAs config file program lib
  | ofModule (names : Entries) (lib : Library) (hsought : soughtClass program = none)
      (hlib : functionLibrary file.stem names program = .ok lib) : WrittenAs config file program lib

lemma writtenLibrary_eq_ok {loader : Loader}
  (h : outcome (writtenLibrary config file program loader) v = (.ok lib, v')) :
  WrittenAs config file program lib := by
  unfold writtenLibrary at h
  dsimp only at h
  split at h
  case h_1 head body hsought => exact .ofClass _ head body lib v v' hsought h
  case h_2 hsought =>
    unfold writtenLibrary.liftExcept at h
    split at h
    case h_1 lib' hlib =>
      cases h
      exact .ofModule _ lib hsought hlib
    case h_2 => cases h

lemma inspectedLibrary_eq_ok {source : Except Fault (List Stmt)}
  (h : outcome (inspectedLibrary inspector config file source) v = (.ok lib, v')) :
  ∃ program i, source = .ok program ∧ inspector file.around file.stem program = some i ∧
    outcome (i.library config program) v = (.ok lib, v') := by
  cases source with
  | error e => cases h
  | ok program =>
    rw [inspectedLibrary] at h
    cases hmodule : file.isModule with
    | false =>
      rw [hmodule] at h
      cases h
    | true =>
      rw [hmodule, if_pos rfl] at h
      cases hi : inspector file.around file.stem program with
      | none =>
        rw [hi] at h
        cases h
      | some i =>
        rw [hi] at h
        exact ⟨program, i, rfl, hi, h⟩

def isFound (way : Way) : Except Fault (Way × Library) → Bool
  | .ok (w, _) => w = way
  | .error _ => false

lemma exists_of_isFound {way : Way} {r : Except Fault (Way × Library)} (h : isFound way r) :
  ∃ lib, r = .ok (way, lib) := by
  cases r with
  | error e => cases h
  | ok found =>
    rcases found with ⟨w, lib⟩
    obtain rfl : w = way := of_decide_eq_true h
    exact ⟨lib, rfl⟩

lemma discover_eq_ok {way : Way} {loader : Loader}
  (h : outcome (discover config file inspector loader) v = (.ok (way, lib), v')) :
  ∃ program, Program.read file.text = .ok program ∧ v'.attached = some lib.keywordNames ∧
    ((way = .inspected ∧ ∃ i v₁ v₂, inspector file.around file.stem program = some i ∧
        outcome (i.library config program) v₁ = (.ok lib, v₂)) ∨
      (way = .written ∧ WrittenAs config file program lib)) := by
  unfold discover at h
  rcases outcome_bind_eq_ok h with ⟨found, v₁, hfound, h⟩
  rw [outcome_tryCatch] at hfound
  -- Inspection is an attempt: what it leaves behind in the memory stays, whether it succeeds or not.
  cases found with
  | some lib' =>
    rcases outcome_bind_eq_ok h with ⟨_, v₂, hattach, h⟩
    cases h
    cases hattach
    have htry : outcome (do return some (← inspectedLibrary inspector config file
        (Program.read file.text))) v = (.ok (some lib), v₁) := by
      split at hfound
      case h_1 heq => rw [heq, hfound]
      case h_2 => cases hfound
    rcases outcome_bind_eq_ok htry with ⟨lib', v₂, hlib, hsome⟩
    cases hsome
    rcases inspectedLibrary_eq_ok hlib with ⟨program, i, hread, hi, hlib⟩
    exact ⟨program, hread, rfl, .inl ⟨rfl, i, v, v₁, hi, hlib⟩⟩
  | none =>
    cases hread : Program.read file.text with
    | error e =>
      rw [hread] at h
      cases h
    | ok program =>
      rw [hread] at h
      rcases outcome_bind_eq_ok h with ⟨lib', v₂, hlib, h⟩
      rcases outcome_bind_eq_ok h with ⟨_, v₃, hattach, h⟩
      cases h
      cases hattach
      exact ⟨program, rfl, rfl, .inr ⟨rfl, writtenLibrary_eq_ok hlib⟩⟩

lemma discover_congr {inspector other : Inspector} (hread : Program.read file.text = .ok program)
  (h : inspector file.around file.stem program = other file.around file.stem program) :
  discover config file inspector = discover config file other := by
  have hlibrary : inspectedLibrary inspector config file (Program.read file.text) =
      inspectedLibrary other config file (Program.read file.text) := by
    rw [hread, inspectedLibrary, inspectedLibrary, h]
  rw [discover, discover, hlibrary]

end KeywordDocs.Discovery
