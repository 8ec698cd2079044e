import KeywordDocs.Proofs.Discovery.Parameters
import Mathlib.Data.List.Perm.Basic

/-!
# Keywords of a Class

A class library should have one keyword for each marked method, with the method's own signature. This
module says when it does.
-/

namespace KeywordDocs.Discovery

open Source KeywordDocs.Module Highlight Text
open List hiding replace

variable (f : Function)

def classMethods (body : List Stmt) : List Function :=
  body.filterMap fun s =>
    match s with
    | .function f _ => some f
    | _ => none

/-- The marked methods of a class, asynchronous ones too. -/
def markedOnes (body : List Stmt) : List Function := (classMethods body).filter isMarked

/-- The name that a proper mark gives, if it gives one. A proper mark is one of `@keyword`,
`@keyword()`, `@keyword("Name")` and `@keyword(name="Name")`. -/
def properMark? : Expr → Option (Option String)
  | .name "keyword" => some none
  | .call (.name "keyword") [] [] => some none
  | .call (.name "keyword") [.constant (.str s) _] [] => if s = "" then none else some (some s)
  | .call (.name "keyword") [] [(some "name", .constant (.str s) _)] =>
    if s = "" then none else some (some s)
  | _ => none

/-- A function whose only decorator is a proper mark. -/
def hasProperMark : Bool :=
  match f.decorators with
  | [d] => (properMark? d).isSome
  | _ => false

/-- The name by which a method is called: the one its mark gives, or else the printable form of its
own name. -/
def callName : String :=
  match f.decorators.map properMark? with
  | [some (some s)] => s
  | _ => printableName f.name

lemma caseImages_ne_nil : ∀ e ∈ titleExceptions ++ upperExpansions, e.2 ≠ [] := by
  rw [titleExceptions, upperExpansions, numbers_ofList, numbers_ofList]
  decide +kernel

lemma map_lookup_ne_nil {table : List (Nat × List Nat)} (h : ∀ e ∈ table, e.2 ≠ []) {n : Nat}
  {ns : List Nat} (hns : table.lookup n = some ns) : ns.map Char.ofNat ≠ [] := by
  rcases lookup_eq_some_iff.mp hns with ⟨l₁, l₂, hl, -⟩
  rw [ne_eq, map_eq_nil_iff]
  exact h (n, ns) (by rw [hl]; simp)

lemma upperChar_ne_nil (c : Char) : upperChar c ≠ [] := by
  rw [upperChar]
  split
  · exact cons_ne_nil _ _
  · split
    case h_1 ns hns => exact map_lookup_ne_nil (forall_mem_append.mp caseImages_ne_nil).2 hns
    case h_2 => exact cons_ne_nil _ _

lemma titleChar_ne_nil (c : Char) : titleChar c ≠ [] := by
  rw [titleChar]
  split
  · exact cons_ne_nil _ _
  · split
    case h_1 ns hns => exact map_lookup_ne_nil (forall_mem_append.mp caseImages_ne_nil).1 hns
    case h_2 => exact upperChar_ne_nil c

lemma titledName_ne_empty {name : String} (h : name ≠ "") : titledName name ≠ "" := by
  have hchars : ∀ cs : List Char, cs ≠ [] → replaceChars "_".toList " ".toList cs ≠ [] := by
    intro cs hcs
    cases cs with
    | nil => cases hcs rfl
    | cons c cs =>
      show (if ['_'].isPrefixOf (c :: cs) then ' ' :: replaceFrom ['_'] [' '] 0 cs
        else c :: replaceFrom ['_'] [' '] 0 cs) ≠ []
      split <;> exact cons_ne_nil _ _
  have htitle : ∀ cs : List Char, cs ≠ [] → titleFrom [] cs ≠ [] := by
    intro cs hcs
    cases cs with
    | nil => cases hcs rfl
    | cons c cs => exact append_ne_nil_of_left_ne_nil (titleChar_ne_nil c) _
  have hne : name.toList ≠ [] := fun hnil => h (String.toList_eq_nil_iff.mp hnil)
  intro hempty
  have hlist := congrArg String.toList hempty
  rw [titledName, title, replace, String.toList_ofList, String.toList_ofList] at hlist
  exact htitle _ (hchars _ hne) hlist

lemma lastMarkedName_isSome {f : Function} (hproper : hasProperMark f)
  (hname : f.name ≠ "") : (lastMarkedName f).isSome := by
  unfold hasProperMark at hproper
  split at hproper
  case h_2 => cases hproper
  case h_1 d hdecorators =>
  rcases Option.isSome_iff_exists.mp hproper with ⟨given, hproper⟩
  -- A method has one mark only, so its last mark is that one.
  have hmark : ∀ (m : Marking) (n : String), Marking.of? d = some m → m.nameFor f.name = .str n →
      n ≠ "" → (lastMarkedName f).isSome := by
    intro m n hm hn hne
    have hlast : (f.decorators.filterMap Marking.of?).getLast? = some m := by
      rw [hdecorators, filterMap_cons, hm]
      rfl
    have htruthy : (Value.str n).isTruthy := decide_eq_true hne
    rw [lastMarkedName, hlast, Option.map_some, hn, Option.filter_some, if_pos htruthy]
    rfl
  have hplain : ∀ hof : Marking.of? d = some .plain, (lastMarkedName f).isSome := fun hof =>
    hmark .plain (titledName f.name) hof rfl (titledName_ne_empty hname)
  unfold properMark? at hproper
  split at hproper
  · exact hplain rfl
  · exact hplain rfl
  case h_3 s _ _ =>
    by_cases hs : s = ""
    · rw [if_pos hs] at hproper
      cases hproper
    · exact hmark (.named (.str s)) s rfl rfl hs
  · exact hplain rfl
  · cases hproper

/-- A program that is a class library: one class without base classes, no two methods of which are
called by the same name, and whose marked methods have one proper mark each. It is a library by a
marked method that is not asynchronous. -/
structure ClassLibrary (program : List Stmt) (head : ClassHead) (body : List Stmt) : Prop where
  onlyClass : Stmt.classes program = [(head, body)]
  noBases : head.bases.isEmpty
  names : ∀ f ∈ classMethods body, f.name ≠ ""
  distinct : ((classMethods body).map fun f => normalName (callName f)).Nodup
  marks : ∀ f ∈ markedOnes body, hasProperMark f
  library : isLibraryClass body

def classLibrary? (program : List Stmt) : Option (ClassHead × List Stmt) :=
  match Stmt.classes program with
  | [(head, body)] =>
    if head.bases.isEmpty ∧ (∀ f ∈ classMethods body, f.name ≠ "") ∧
        ((classMethods body).map fun f => normalName (callName f)).Nodup ∧
        (∀ f ∈ markedOnes body, hasProperMark f) ∧ isLibraryClass body
    then some (head, body) else none
  | _ => none

/-- The methods of a class that are not asynchronous. -/
def plainMethods (body : List Stmt) : List Function := (classMethods body).filter fun f => !f.isAsync

/-- The method that is filed under a name: the last one that is not asynchronous and whose mark gives
the name. -/
def filedMethod? (body : List Stmt) (name : String) : Option Function :=
  ((plainMethods body).filter fun f => (lastMarkedName f).bind Value.text? == some name).getLast?

variable {program : List Stmt} {head : ClassHead} {body : List Stmt}

lemma classLibrary_of_eq_some (h : classLibrary? program = some (head, body)) :
  ClassLibrary program head body := by
  unfold classLibrary? at h
  split at h
  case h_2 => cases h
  case h_1 head' body' hclasses =>
    split at h
    case isFalse => cases h
    case isTrue hproper =>
      cases h
      rcases hproper with ⟨hbases, hnames, hdistinct, hmarks, hlibrary⟩
      exact ⟨hclasses, hbases, hnames, hdistinct, hmarks, hlibrary⟩

lemma soughtClass_eq (h : ClassLibrary program head body) :
  soughtClass program = some (head, body) := by
  rw [soughtClass, h.onlyClass, find?_cons, h.library]

lemma plainMethods_eq (body : List Stmt) :
  plainMethods body = (body.filterMap plainFunction?).map Prod.fst := by
  unfold plainMethods classMethods
  induction body with
  | nil => rfl
  | cons s body ih =>
    cases s with
    | function f fb =>
      cases hasync : f.isAsync with
      | true => simp [plainFunction?, hasync, ih]
      | false => simp [plainFunction?, hasync, ih]
    | _ => exact ih

lemma markedMethods_eq (body : List Stmt) : (markedMethods body).map (fun m => m.2.1) =
    (plainMethods body).filter fun f => (lastMarkedName f).isSome := by
  rw [plainMethods_eq, markedMethods]
  induction body.filterMap plainFunction? with
  | nil => rfl
  | cons f fs ih =>
    cases hname : lastMarkedName f.1 with
    | none => simp [hname, ih]
    | some n => simp [hname, ih]

lemma filedMethods_eq (body : List Stmt) :
  filedMethods body = (plainMethods body).filterMap fun f =>
    ((lastMarkedName f).bind Value.text?).map fun n => (n, f) := by
  rw [plainMethods_eq, filedMethods, markedMethods, filterMap_filterMap, filterMap_map]
  congr 1
  funext f
  dsimp only [Function.comp]
  cases lastMarkedName f.1 <;> rfl

lemma lookup_reverse_filterMap (g : Function → Option String) (fs : List Function) (name : String) :
  (fs.filterMap fun f => (g f).map fun n => (n, f)).reverse.lookup name =
    (fs.filter fun f => g f == some name).getLast? := by
  induction fs with
  | nil => rfl
  | cons f fs ih =>
    cases hg : g f with
    | none => simp [hg, ih]
    | some n =>
      by_cases hn : n = name
      · subst hn
        simp [hg, ih, lookup_append, getLast?_cons]
      · have hother : List.lookup name [(n, f)] = none := by
          rw [lookup_cons, beq_false_of_ne (Ne.symm hn)]
          rfl
        simp [hg, ih, lookup_append, hn, hother]

lemma methodMap_lookup (h : ClassLibrary program head body) (name : String) :
  (methodMap program).lookup name = filedMethod? body name := by
  rw [methodMap, h.onlyClass, flatMap_singleton, filedMethods_eq, lookup_reverse_filterMap, filedMethod?]

lemma isMarked_of_lastMarkedName {f : Function} (h : (lastMarkedName f).isSome) : isMarked f := by
  rcases Option.isSome_iff_exists.mp h with ⟨n, hn⟩
  rcases Option.map_eq_some_iff.mp (Option.filter_eq_some_iff.mp hn).1 with ⟨m, hm, -⟩
  rcases mem_filterMap.mp (mem_of_getLast? hm) with ⟨d, hd, hof⟩
  exact any_eq_true.mpr ⟨d, hd, by rw [hof]; rfl⟩

lemma markedMethods_functions (h : ClassLibrary program head body) :
  (markedMethods body).map (fun m => m.2.1) = (markedOnes body).filter fun f => !f.isAsync := by
  rw [markedMethods_eq, plainMethods, markedOnes, filter_filter, filter_filter]
  refine filter_congr fun f hf => ?_
  -- A mark could give an empty name, and then the method would be left out; a proper one does not.
  have hsame : (lastMarkedName f).isSome = isMarked f := by
    refine Bool.eq_iff_iff.mpr ⟨isMarked_of_lastMarkedName, fun hmarked => ?_⟩
    have hproper := h.marks f (mem_filter.mpr ⟨hf, hmarked⟩)
    exact lastMarkedName_isSome hproper (h.names f hf)
  rw [hsame, Bool.and_comm]

variable {resolve : Resolver} {methods : List (String × Function)} {before : Option Function}

/-- A listed method meets a signature that is its own, given the method listed before it: that of the
method filed under its name, or no signature at all if it has none itself and the method before
it has no defaults. -/
def Meets (body : List Stmt) (before : Option Function) (found : Found) (f : Function) : Prop :=
  match filedMethod? body found.name with
  | some filed => visibleSignature filed = ownSignature f
  | none => found.arguments = [] ∧ ownSlots f.parameters = [] ∧ ownReturn f = "None" ∧
      ∃ g, before = some g ∧ ownDefaults g = []

/-- Every listed method meets a signature that is its own, given the method before the first. -/
def Joins (body : List Stmt) : Option Function → List Found → List Function → Prop
  | _, [], [] => True
  | before, found :: rest, f :: fs => Meets body before found f ∧ Joins body (some f) rest fs
  | _, _, _ => False

def keywordEntry (k : Keyword) : Value × SignatureParts := (k.name, keywordSignature k)

/-- A method by the name it is called and its own signature. -/
def ownEntry : Value × SignatureParts := (.str (callName f), ownSignature f)

lemma madeKeyword_entry_iff (hfiled : ∀ name, methods.lookup name = filedMethod? body name)
  {found : Found} {k : Keyword}
  (hk : madeKeyword resolve methods (before.map ownDefaults) found = some k) (f : Function) :
  keywordEntry k = ownEntry f ↔ found.name = callName f ∧ Meets body before found f := by
  unfold madeKeyword at hk
  unfold Meets
  rw [hfiled] at hk
  cases hmethod : filedMethod? body found.name with
  | some filed =>
    rw [hmethod] at hk
    cases hk
    rw [keywordEntry, ownEntry, Prod.mk.injEq, keywordOf_signature]
    exact and_congr_left' ⟨fun h => Value.str.inj h, congrArg Value.str⟩
  | none =>
    rw [hmethod] at hk
    rcases Option.map_eq_some_iff.mp hk with ⟨defaults, hdefaults, rfl⟩
    rcases Option.map_eq_some_iff.mp hdefaults with ⟨g, rfl, rfl⟩
    rw [keywordEntry, ownEntry, Prod.mk.injEq]
    refine and_congr ⟨fun h => Value.str.inj h, congrArg Value.str⟩ ?_
    constructor
    · intro hsignature
      rcases Prod.mk.inj hsignature with ⟨hparameters, hrest⟩
      rcases Prod.mk.inj hrest with ⟨hdefaults, hreturns⟩
      -- An argument as it is listed is not a text, and the name of a slot is one.
      have hnil : found.arguments = [] ∧ ownSlots f.parameters = [] := by
        cases hargs : found.arguments with
        | nil =>
          rw [hargs] at hparameters
          exact ⟨rfl, map_eq_nil_iff.mp hparameters.symm⟩
        | cons a args =>
          rw [hargs] at hparameters
          cases hslots : ownSlots f.parameters with
          | nil =>
            rw [hslots] at hparameters
            cases hparameters
          | cons s slots =>
            rw [hslots] at hparameters
            cases hparameters
      refine ⟨hnil.1, hnil.2, hreturns.symm, g, rfl, hdefaults.trans ?_⟩
      rw [ownDefaults, hnil.2]
      rfl
    · rintro ⟨hargs, hslots, hreturns, g', hg', hdefaults⟩
      cases hg'
      have hown : ownDefaults f = [] := by
        rw [ownDefaults, hslots]
        rfl
      rw [ownSignature, hslots, hown, hreturns, keywordSignature, hargs, hdefaults]
      rfl

lemma made_entries_iff (hfiled : ∀ name, methods.lookup name = filedMethod? body name)
  {found : List Found} {ks : List Keyword}
  (hmade : Made resolve methods (before.map ownDefaults) found ks) (ms : List Function) :
  ks.map keywordEntry = ms.map ownEntry ↔
    found.map Found.name = ms.map callName ∧ Joins body before found ms := by
  -- The induction is on what is listed; the method before the first is what is handed along.
  induction found generalizing before ks ms with
  | nil =>
    cases hmade
    cases ms with
    | nil => exact ⟨fun _ => ⟨rfl, trivial⟩, fun _ => rfl⟩
    | cons f ms => exact ⟨nofun, fun h => (nomatch h.1)⟩
  | cons found rest ih =>
    cases hmade with
    | cons _ _ _ k ks description hk hrest =>
      cases ms with
      | nil => exact ⟨nofun, fun h => (nomatch h.1)⟩
      | cons f ms =>
        have hstep := madeKeyword_entry_iff hfiled hk f
        -- Once the first keyword shows its method's signature, it hands on its defaults.
        have htail : keywordEntry k = ownEntry f → (ks.map keywordEntry = ms.map ownEntry ↔
            rest.map Found.name = ms.map callName ∧ Joins body (some f) rest ms) := by
          intro hentry
          have hdefaults : k.defaults = ownDefaults f := congrArg (fun e => e.2.2.1) hentry
          have hrest' : Made resolve methods ((some f).map ownDefaults) rest ks := by
            rw [Option.map_some, ← hdefaults]
            exact hrest
          exact ih hrest' ms
        rw [map_cons, map_cons, map_cons, map_cons, List.cons.injEq, List.cons.injEq]
        constructor
        · rintro ⟨hentry, hentries⟩
          rcases hstep.mp hentry with ⟨hname, hmeets⟩
          rcases (htail hentry).mp hentries with ⟨hnames, hjoins⟩
          exact ⟨⟨hname, hnames⟩, hmeets, hjoins⟩
        · rintro ⟨⟨hname, hnames⟩, hmeets, hjoins⟩
          have hentry := hstep.mpr ⟨hname, hmeets⟩
          exact ⟨hentry, (htail hentry).mpr ⟨hnames, hjoins⟩⟩

variable {value : Expr → Entity} {s : Subject} {ks : List Found}

def keywordsInOrder (value : Expr → Entity) (s : Subject) : Except Unit (List Found) :=
  match keywordsAmong (s.eligible value) with
  | .error e => .error e
  | .ok ks =>
    if ((s.eligible value).Pairwise fun a b => a.key ≤ b.key) ∧ (ks.Pairwise fun a b => a.name ≤ b.name) ∧
        (ks.Pairwise fun a b => lower a.name ≤ lower b.name)
    then .ok ks else .error ()

lemma keywords_of_inOrder (h : keywordsInOrder value s = .ok ks) : s.keywords value = .ok ks := by
  unfold keywordsInOrder at h
  split at h
  case h_1 => cases h
  case h_2 ks' hks =>
    split at h
    case isFalse => cases h
    case isTrue hordered =>
      cases h
      rcases hordered with ⟨hkeys, hnames, hlower⟩
      have hcandidates : s.candidates value = s.eligible value :=
        mergeSort_of_pairwise (hkeys.imp fun h => decide_eq_true h)
      have horder : orderFound ks = ks := by
        rw [orderFound, mergeSort_of_pairwise (hnames.imp fun h => decide_eq_true h)]
        exact mergeSort_of_pairwise (hlower.imp fun h => decide_eq_true h)
      rw [Subject.keywords, hcandidates, hks, Except.map, horder]

-- Sorting cannot be evaluated within a proof, but what is in order already need not be sorted.
lemma inspect_of_inOrder {around : Surroundings} {stem : String} {program : List Stmt}
  {i : Inspection} (h : inspectBy keywordsInOrder around stem program = some i) :
  inspect around stem program = some i := by
  unfold inspect inspectBy at *
  cases hload : load around stem program with
  | error e =>
    rw [hload] at h
    cases h
  | ok names =>
    rw [hload] at h
    rcases Option.bind_eq_some_iff.mp h with ⟨s, hs, h⟩
    refine Option.bind_eq_some_iff.mpr ⟨s, hs, ?_⟩
    dsimp only at h ⊢
    split at h
    case h_1 => cases h
    case h_2 found hfound =>
      rw [keywords_of_inOrder hfound]
      exact h

lemma perm_map_iff {α β : Type} (g : α → β) (bs : List β) (l : List α) :
  bs.Perm (l.map g) ↔ ∃ l' : List α, l'.Perm l ∧ bs = l'.map g := by
  constructor
  · intro hperm
    have himages : List.Forall₂ (fun b a => b = g a) (l.map g) l :=
      forall₂_map_left_iff.mpr (forall₂_same.mpr fun _ _ => rfl)
    rcases perm_comp_forall₂ hperm himages with ⟨l', hl', hperm'⟩
    refine ⟨l', hperm', ?_⟩
    rw [← forall₂_eq_eq_eq, forall₂_map_right_iff]
    exact hl'
  · rintro ⟨l', hperm, rfl⟩
    exact hperm.map g

lemma written_signatures_iff {resolve : Resolver} (h : ClassLibrary program head body)
  {ks : List Keyword} (hmade : ClassMade resolve body ks) :
  ks.map keywordSignature = (markedOnes body).map ownSignature ↔
    ∀ f ∈ markedOnes body, f.isAsync = false ∧ HidesNothing f.parameters := by
  have hvisible : ks.map keywordSignature =
      ((markedOnes body).filter fun f => !f.isAsync).map visibleSignature := by
    rw [← markedMethods_functions h, map_map, ← forall₂_eq_eq_eq, forall₂_map_left_iff, forall₂_map_right_iff]
    refine hmade.flip.imp fun k m hk => ?_
    rcases hk with ⟨description, rfl⟩
    exact keywordOf_signature resolve m.1 m.2.1
  rw [hvisible]
  constructor
  · intro heq
    -- No marked method is left out, because both lists have the same length.
    have hplain : ∀ f ∈ markedOnes body, (!f.isAsync) := by
      refine length_filter_eq_length_iff.mp ?_
      have hlength := congrArg List.length heq
      rwa [length_map, length_map] at hlength
    rw [filter_eq_self.mpr hplain, map_inj_left] at heq
    refine fun f hf => ⟨?_, (visibleSignature_eq_iff f).mp (heq f hf)⟩
    rw [← Bool.not_eq_true']
    exact hplain f hf
  · intro hall
    have hplain : ∀ f ∈ markedOnes body, (!f.isAsync) := by
      intro f hf
      rw [(hall f hf).1]
      rfl
    rw [filter_eq_self.mpr hplain]
    exact map_congr_left fun f hf => (visibleSignature_eq_iff f).mpr (hall f hf).2

/-- When a class library has its marked methods as keywords, each with its own signature. Read as it
is written it has them in order exactly if none of them is asynchronous or hides a parameter.
Inspected it has them, under the names by which they are called, exactly if the inspector lists
just the marked methods and each of them meets its own signature. -/
theorem class_keywords_iff (config : Option Json) (file : SourceFile) (inspector : Inspector)
  (v v' : Vocabulary) (way : Way) (lib : Library) (program : List Stmt) (head : ClassHead)
  (body : List Stmt) (hread : Program.read file.text = .ok program)
  (hclass : ClassLibrary program head body)
  (hfound : outcome (discover config file inspector) v = (.ok (way, lib), v')) :
  (way = .written → (lib.keywords.map keywordSignature = (markedOnes body).map ownSignature ↔
      ∀ f ∈ markedOnes body, f.isAsync = false ∧ HidesNothing f.parameters)) ∧
  (way = .inspected → ∃ i, inspector file.around file.stem program = some i ∧
    ((lib.keywords.map keywordEntry).Perm ((markedOnes body).map ownEntry) ↔
      ∃ ms : List Function, ms.Perm (markedOnes body) ∧ i.keywords.map Found.name = ms.map callName ∧
        Joins body none i.keywords ms)) := by
  rcases discover_eq_ok hfound with ⟨program', hread', -, hway⟩
  rw [hread] at hread'
  cases hread'
  constructor
  · rintro rfl
    rcases hway with ⟨hother, -⟩ | ⟨-, hwritten⟩
    · cases hother
    cases hwritten with
    | ofClass names head' body' _ _ _ hsought hlib =>
      rw [soughtClass_eq hclass] at hsought
      cases hsought
      exact written_signatures_iff hclass (classLibrary_made hlib).2
    | ofModule names _ hsought hlib =>
      rw [soughtClass_eq hclass] at hsought
      cases hsought
  · rintro rfl
    rcases hway with ⟨-, i, v₁, v₂, hi, hlib⟩ | ⟨hother, -⟩
    · refine ⟨i, hi, ?_⟩
      rcases inspection_library_eq_ok hlib with ⟨-, -, -, -, -, hmade⟩
      rw [perm_map_iff]
      refine exists_congr fun ms => and_congr_right fun _ => ?_
      have hstart : Made _ _ ((none : Option Function).map ownDefaults) _ _ := hmade
      exact made_entries_iff (methodMap_lookup hclass) hstart ms
    · cases hother

/-- A class with one marked method and one that is not. -/
def halfMarked : SourceFile where
  stem := "Lib"
  isModule := true
  text := "from robot.api.deco import keyword\nclass Lib:\n @keyword\n def f(self, a=1): pass\n" ++
    " def g(self): pass\n"
  around := fun _ => none

/-- The method that is not marked is a keyword all the same. -/
theorem class_keywords_iff_half_marked :
  ∃ program head body lib v', Program.read halfMarked.text = .ok program ∧
    ClassLibrary program head body ∧
    outcome (discover none halfMarked) {} = (.ok (.inspected, lib), v') ∧
    ¬ (lib.keywords.map keywordEntry).Perm ((markedOnes body).map ownEntry) := by
  have hcase : ∀ file : SourceFile,
      isFound .inspected (outcome (discover none file (inspectBy keywordsInOrder)) {}).1 →
      ((Program.read file.text).toOption.bind fun program => (classLibrary? program).bind fun c =>
        (inspectBy keywordsInOrder file.around file.stem program).map fun i =>
          (i.keywords.length, (markedOnes c.2).length)) = some (2, 1) →
      ∃ program head body lib v', Program.read file.text = .ok program ∧
        ClassLibrary program head body ∧
        outcome (discover none file) {} = (.ok (.inspected, lib), v') ∧
        ¬ (lib.keywords.map keywordEntry).Perm ((markedOnes body).map ownEntry) := by
    intro file hfound hcounts
    rcases Option.bind_eq_some_iff.mp hcounts with ⟨program, hread, hcounts⟩
    rcases Option.bind_eq_some_iff.mp hcounts with ⟨⟨head, body⟩, hclass, hcounts⟩
    rcases Option.map_eq_some_iff.mp hcounts with ⟨i, hi, hcounts⟩
    have hread : Program.read file.text = .ok program := by
      cases hsource : Program.read file.text with
      | error e =>
        rw [hsource] at hread
        cases hread
      | ok program' =>
        rw [hsource] at hread
        cases hread
        rfl
    have hinspect := inspect_of_inOrder hi
    rw [discover_congr hread (hi.trans hinspect.symm)] at hfound
    rcases exists_of_isFound hfound with ⟨lib, hlib⟩
    have hrun : outcome (discover none file) {} = (.ok (.inspected, lib), _) := Prod.ext hlib rfl
    have hclass := classLibrary_of_eq_some hclass
    refine ⟨program, head, body, lib, _, hread, hclass, hrun, fun hperm => ?_⟩
    rcases (class_keywords_iff none file inspect {} _ .inspected lib program head body hread hclass
      hrun).2 rfl with ⟨i', hi', hiff⟩
    rcases hiff.mp hperm with ⟨ms, hms, hnames, -⟩
    rw [hinspect, Option.some.injEq] at hi'
    rw [← hi'] at hnames
    -- Two keywords are listed and one method is marked.
    rw [Prod.mk.injEq] at hcounts
    have hlength := congrArg List.length hnames
    rw [length_map, length_map, hms.length_eq, hcounts.1, hcounts.2] at hlength
    cases hlength
  exact hcase halfMarked (by decide +kernel) (by decide +kernel)

end KeywordDocs.Discovery
