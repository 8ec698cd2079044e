import KeywordDocs.Markup.Markdown
import KeywordDocs.Proofs.Highlight.Outcome

/-!
# How Highlighting Uses its Memory

A highlighter's memory is read and written in one way only: names are looked up with a configuration, and a
step of test code adds the control words afterwards. A `Lookup` is one such access.
-/

namespace KeywordDocs.Highlight

open Text Markup
open List hiding replace

variable {α β : Type} {config : Option Json} {v : Vocabulary} {names : List String} {n : Value}
  (processor : String → String)

lemma mem_dropRepeats {n : String} {l : List String} : n ∈ dropRepeats l ↔ n ∈ l := by
  fun_induction dropRepeats l with
  | case1 a rest ih => rw [ih]; simp
  | case2 a b rest _ ih => rw [mem_cons, ih, mem_cons (a := n) (b := a)]
  | case3 => rfl

lemma mem_sortedNames {n : String} {l : List String} : n ∈ sortedNames l ↔ n ∈ l := by
  rw [sortedNames, mem_dropRepeats, mem_mergeSort]

lemma text?_eq_some_iff {s : String} : n.text? = some s ↔ n = .str s := by
  cases n <;> simp [Value.text?]

lemma named_of_texts (hattached : ∀ n ∈ v.attached.getD [], ∃ s, n = .str s)
  (hconfig : ∀ n ∈ customNames config, ∃ s, n = .str s) : Named config v := by
  intro n hn
  rcases mem_append.mp hn with hn | hn
  · exact (hattached n hn).imp fun s hs => text?_eq_some_iff.mpr hs
  · exact (hconfig n hn).imp fun s hs => text?_eq_some_iff.mpr hs

lemma mapM_text?_eq_some {l : List Value} {extra : List String}
  (h : l.mapM Value.text? = some extra) : l = extra.map .str := by
  induction l generalizing extra with
  | nil =>
    cases h
    rfl
  | cons n l ih =>
    rw [mapM_cons] at h
    rcases Option.bind_eq_some_iff.mp h with ⟨s, hs, h⟩
    rcases Option.bind_eq_some_iff.mp h with ⟨extra', hextra, h⟩
    cases h
    rw [text?_eq_some_iff.mp hs, ih hextra, map_cons]

lemma buildNames_eq_some {attached : List Value} {names : List String}
  (h : buildNames attached config = some names) :
  (∀ n ∈ attached ++ customNames config, ∃ s, n = .str s) ∧
    ∀ n, n ∈ names ↔ n ∈ standardNames ∨ .str n ∈ attached ∨ .str n ∈ customNames config := by
  rcases Option.map_eq_some_iff.mp h with ⟨extra, hextra, rfl⟩
  replace hextra := mapM_text?_eq_some hextra
  constructor
  · intro n hn
    rw [hextra] at hn
    rcases mem_map.mp hn with ⟨s, -, rfl⟩
    exact ⟨s, rfl⟩
  · intro n
    have hmem : n ∈ extra ↔ Value.str n ∈ attached ++ customNames config := by
      rw [hextra, mem_map]
      simp
    rw [mem_sortedNames, mem_append, hmem, mem_append]

/-- An access to the memory: names are looked up with a configuration, and for a step of test code
the control words are added to them. -/
structure Lookup where
  config : Option Json
  isStep : Bool

/-- The memory of a highlighter that has not been used yet. -/
def Vocabulary.fresh (attached : Option (List Value)) (shade : Shader) : Vocabulary where
  attached := attached
  shade := shade

/-- The names that are in use with a configuration: those kept, or else a list that can be built. -/
def Vocabulary.names? (v : Vocabulary) (config : Option Json) : Option (List String) :=
  v.current?.or (buildNames (v.attached.getD []) config)

/-- What a lookup does to the memory. -/
def Vocabulary.look (v : Vocabulary) (l : Lookup) : Vocabulary :=
  { v with kept := (v.names? l.config).map fun names =>
      if l.isStep then names ++ controlWords else names }

open Vocabulary (look names?)

lemma outcome_knownNames (config : Option Json) (v : Vocabulary) : outcome (knownNames config) v =
    ((v.names? config).elim (.error .wrongKind) .ok, v.look ⟨config, false⟩) := by
  -- A list that is current is the kept one, so writing it back changes nothing.
  have hcurrent : ∀ names, v.current? = some names → v.kept = some names := fun names h =>
    (Option.filter_eq_some_iff.mp h).1
  have hget : outcome (get : Highlighting Vocabulary) v = (.ok v, v) := rfl
  rw [knownNames, outcome_bind, hget]
  dsimp only
  unfold look names?
  cases hv : v.current? with
  | some names =>
    have hkept : v = { v with kept := some names } := by rw [← hcurrent names hv]
    exact congrArg (Except.ok names, ·) hkept
  | none => cases buildNames (v.attached.getD []) config <;> rfl

lemma isKept_of_names? (h : v.names? config = some names) :
  ∀ n ∈ v.attached.getD [], isKept names n := by
  rcases Option.or_eq_some_iff.mp h with hcurrent | ⟨-, hbuilt⟩
  · exact all_eq_true.mp (Option.filter_eq_some_iff.mp hcurrent).2
  · intro n hn
    have hnames := buildNames_eq_some hbuilt
    rcases hnames.1 n (mem_append_left _ hn) with ⟨s, rfl⟩
    exact contains_iff_mem.mpr ((hnames.2 s).mpr (.inr (.inl hn)))

lemma exists_of_isKept (h : isKept names n) : ∃ s ∈ names, n = .str s := by
  cases n with
  | str s => exact ⟨s, contains_iff_mem.mp h, rfl⟩
  | _ => cases h

lemma isKept_append {names more : List String} (h : isKept names n) :
  isKept (names ++ more) n := by
  cases n <;> simp_all [isKept]

lemma names?_look {l : Lookup} (h : v.names? l.config = some names) (other : Option Json) :
  (v.look l).names? other = some (if l.isStep then names ++ controlWords else names) := by
  have hkept := isKept_of_names? h
  have hall : ((v.look l).attached.getD []).all
      (isKept (if l.isStep then names ++ controlWords else names)) := by
    refine all_eq_true.mpr fun n hn => ?_
    split
    · exact isKept_append (hkept n hn)
    · exact hkept n hn
  have hlook : (v.look l).kept = some (if l.isStep then names ++ controlWords else names) := by
    rw [look, h, Option.map_some]
  rw [names?, Vocabulary.current?, hlook, Option.filter_some, if_pos hall, Option.some_or]

lemma look_look {l : Lookup} (h : v.names? l.config = some names) (other : Option Json) :
  (v.look l).look ⟨other, false⟩ = v.look l := by
  have hkept : (v.look l).kept = some (if l.isStep then names ++ controlWords else names) := by
    rw [look, h, Option.map_some]
  rw [look, names?_look h other, Option.map_some, if_neg Bool.false_ne_true, ← hkept]

lemma names?_looks {ls ls' : List Lookup} (h : ∀ l ∈ ls ++ ls', (v.names? l.config).isSome) :
  ∀ l ∈ ls', ((ls.foldl look v).names? l.config).isSome := by
  induction ls generalizing v with
  | nil => exact h
  | cons l ls ih =>
    refine ih fun l' hl' => ?_
    rcases Option.isSome_iff_exists.mp (h l mem_cons_self) with ⟨names, hnames⟩
    rw [names?_look hnames]
    rfl

/-- Names are looked up in this order, until there are none. -/
structure Follows (m : Highlighting α) (ls : List Lookup) : Prop where
  state : ∀ v, ∃ done, done <+: ls ∧ (outcome m v).2 = done.foldl look v ∧
    ∀ a, (outcome m v).1 = .ok a → done = ls
  total : ∀ v, (∀ l ∈ ls, (v.names? l.config).isSome) → ∃ a, (outcome m v).1 = .ok a

namespace Follows

variable {m : Highlighting α} {f : α → Highlighting β} {ls ls' : List Lookup}

lemma state_of_total (hm : Follows m ls) (h : ∀ l ∈ ls, (v.names? l.config).isSome) :
  (outcome m v).2 = ls.foldl look v := by
  rcases hm.state v with ⟨done, -, hstate, hok⟩
  rcases hm.total v h with ⟨a, ha⟩
  rw [hstate, hok a ha]

lemma pure (a : α) : Follows (Pure.pure a : Highlighting α) [] where
  state _ := ⟨[], nil_prefix, rfl, fun _ _ => rfl⟩
  total _ _ := ⟨a, rfl⟩

lemma bind (hm : Follows m ls) (hf : ∀ a, Follows (f a) ls') : Follows (m >>= f) (ls ++ ls') where
  state v := by
    rcases hm.state v with ⟨done, hdone, hstate, hok⟩
    rcases hout : outcome m v with ⟨r, v'⟩
    rw [hout] at hstate hok
    cases r with
    | error e =>
      rw [outcome_bind, hout]
      exact ⟨done, hdone.trans (prefix_append ls ls'), hstate, nofun⟩
    | ok a =>
      rw [outcome_bind, hout]
      obtain rfl := hok a rfl
      rcases (hf a).state v' with ⟨done', hdone', hstate', hok'⟩
      refine ⟨done ++ done', (prefix_append_right_inj done).mpr hdone', ?_, fun b hb => ?_⟩
      · rw [foldl_append, ← hstate]
        exact hstate'
      · rw [hok' b hb]
  total v h := by
    have hfirst : ∀ l ∈ ls, (v.names? l.config).isSome := fun l hl => h l (mem_append_left ls' hl)
    rcases hm.total v hfirst with ⟨a, ha⟩
    have hout : outcome m v = (.ok a, ls.foldl look v) := Prod.ext ha (hm.state_of_total hfirst)
    rw [outcome_bind, hout]
    exact (hf a).total _ (names?_looks h)

lemma map {g : α → β} (hm : Follows m ls) : Follows (m >>= fun a => Pure.pure (g a)) ls := by
  have h := hm.bind fun a => pure (g a)
  rwa [append_nil] at h

lemma mapM {f : α → Highlighting β} {looks : α → List Lookup} {l : List α}
  (h : ∀ a ∈ l, Follows (f a) (looks a)) : Follows (l.mapM f) (l.flatMap looks) := by
  induction l with
  | nil => exact pure []
  | cons a l ih =>
    rw [mapM_cons, flatMap_cons]
    exact (h a mem_cons_self).bind fun b => (ih fun a' ha' => h a' (mem_cons_of_mem a ha')).map

end Follows

def stepIn (names : List String) (indent content : List Char) : List Char :=
  let whole := indent ++ highlightVariablesWith (longestFirst names) content
  if startsWithVariable content then whole
  else match leadingKeyword (longestFirst names) content with
    | some (name, rest) =>
      let start := indent ++ (keywordInk name).span name.toList
      if name.isEmpty then whole
      else if rest.isEmpty then start
      else start ++ ' ' :: highlightVariablesWith (longestFirst names) rest
    | none => whole

variable (config)

lemma outcome_highlightVariables (text : List Char) (v : Vocabulary) :
  outcome (highlightVariables config text) v = ((v.names? config).elim (.error .wrongKind) fun names =>
      .ok (highlightVariablesWith (longestFirst names) text), v.look ⟨config, false⟩) := by
  rw [highlightVariables, outcome_bind, outcome_knownNames]
  cases v.names? config <;> rfl

lemma outcome_highlightStep (indent content : List Char) (v : Vocabulary) :
  outcome (highlightStep config indent content) v = ((v.names? config).elim (.error .wrongKind) fun names =>
      .ok (stepIn (names ++ controlWords) indent content), v.look ⟨config, true⟩) := by
  rw [highlightStep, outcome_bind, outcome_knownNames]
  cases hnames : v.names? config with
  | none => simp only [Option.elim_none, look, hnames, Option.map_none]
  | some names =>
    have hlearn : outcome (learn controlWords) (v.look ⟨config, false⟩) =
        (.ok (), v.look ⟨config, true⟩) := by
      simp only [look, hnames]
      rfl
    -- Colouring the rest leaves the memory as it is now.
    have hrest : ∀ text (g : List Char → List Char),
        outcome (highlightVariables config text >>= fun cs => pure (g cs)) (v.look ⟨config, true⟩) =
          (.ok (g (highlightVariablesWith (longestFirst (names ++ controlWords)) text)),
            v.look ⟨config, true⟩) := by
      intro text g
      rw [outcome_bind, outcome_highlightVariables, names?_look hnames, look_look hnames]
      rfl
    dsimp only [Option.elim_some]
    rw [outcome_bind, hlearn]
    dsimp only [stepIn]
    by_cases hvariable : startsWithVariable content
    · rw [if_pos hvariable, if_pos hvariable]
      exact hrest content _
    · rw [if_neg hvariable, if_neg hvariable]
      cases leadingKeyword (longestFirst (names ++ controlWords)) content with
      | none => exact hrest content _
      | some found =>
        dsimp only
        split
        · exact hrest content _
        · split
          · rfl
          · exact hrest _ _

lemma knownNames_follows : Follows (knownNames config) [⟨config, false⟩] where
  state v := by
    rw [outcome_knownNames]
    exact ⟨_, prefix_refl _, rfl, fun _ _ => rfl⟩
  total v h := by
    rcases Option.isSome_iff_exists.mp (h _ mem_cons_self) with ⟨names, hnames⟩
    exact ⟨names, by rw [outcome_knownNames, hnames]; rfl⟩

lemma highlightVariables_follows (text : List Char) :
  Follows (highlightVariables config text) [⟨config, false⟩] :=
  (knownNames_follows config).map

lemma highlightStep_follows (indent content : List Char) :
  Follows (highlightStep config indent content) [⟨config, true⟩] where
  state v := by
    rw [outcome_highlightStep]
    exact ⟨_, prefix_refl _, rfl, fun _ _ => rfl⟩
  total v h := by
    rcases Option.isSome_iff_exists.mp (h _ mem_cons_self) with ⟨names, hnames⟩
    exact ⟨_, by rw [outcome_highlightStep, hnames]; rfl⟩

/-- The lookups of a line by what it is: steps and lines of no known kind need names. -/
def LineKind.lookups : LineKind → List Lookup
  | .step _ _ => [⟨config, true⟩]
  | .other => [⟨config, false⟩]
  | _ => []

def lineLookups (line : String) : List Lookup :=
  if line.isEmpty then [] else (classify (escape line).toList).lookups config

def codeLookups (code : String) : List Lookup :=
  if code.isEmpty then [] else (lines (trimRight code)).flatMap (lineLookups config)

def listingLookups (language code : String) : List Lookup :=
  if language = "robot" then codeLookups config code else []

def fragmentLookups : Fragment → List Lookup
  | .code language ls => listingLookups config language (unlines ls)
  | _ => []

def documentLookups (content : String) : List Lookup := (fragments content).flatMap (fragmentLookups config)

lemma highlightEscaped_follows (line : List Char) :
  Follows (highlightEscaped config line) ((classify line).lookups config) := by
  unfold highlightEscaped
  cases classify line with
  | step indent content => exact highlightStep_follows config indent content
  | other => exact highlightVariables_follows config line
  | comment | sectionHeader | setting | title => exact .pure _

lemma highlightLine_follows (line : String) :
  Follows (highlightLine config line) (lineLookups config line) := by
  unfold highlightLine lineLookups
  split
  · exact .pure ""
  · exact (highlightEscaped_follows config _).map

lemma highlightCode_follows (code : String) :
  Follows (highlightCode config code) (codeLookups config code) := by
  unfold highlightCode codeLookups
  split
  · exact .pure ""
  · exact (Follows.mapM fun line _ => highlightLine_follows config line).map

lemma listing_follows (language code : String) :
  Follows (listing config language code) (listingLookups config language code) := by
  unfold listing listingLookups
  split
  · exact highlightCode_follows config code
  · exact ⟨fun _ => ⟨[], nil_prefix, rfl, fun _ _ => rfl⟩, fun _ _ => ⟨_, rfl⟩⟩

lemma render_follows (f : Fragment) : Follows (f.render config) (fragmentLookups config f) := by
  cases f with
  | code language ls => exact listing_follows config language _
  | _ => exact .pure _

lemma document_follows (content : String) :
  Follows (document config content) (documentLookups config content) := by
  exact (Follows.mapM fun f _ => render_follows config f).map

/-- What some lookups with the configuration can lead to. -/
def Consulted (v v' : Vocabulary) : Prop :=
  ∃ done : List Lookup, (∀ l ∈ done, l.config = config) ∧ v' = done.foldl look v

variable {config}

lemma Consulted.trans {v v' v'' : Vocabulary} (h : Consulted config v v')
  (h' : Consulted config v' v'') : Consulted config v v'' := by
  rcases h with ⟨done, hdone, rfl⟩
  rcases h' with ⟨done', hdone', rfl⟩
  exact ⟨done ++ done', forall_mem_append.mpr ⟨hdone, hdone'⟩, foldl_append.symm⟩

def Consults (config : Option Json) (m : Highlighting α) : Prop :=
  ∀ v, ∃ done : List Lookup, (∀ l ∈ done, l.config = config) ∧ (outcome m v).2 = done.foldl look v

namespace Consults

variable {m : Highlighting α} {f : α → Highlighting β}

lemma pure (a : α) : Consults config (Pure.pure a : Highlighting α) := fun _ => ⟨[], nofun, rfl⟩

lemma throw (e : Fault) : Consults config (MonadExcept.throw e : Highlighting α) := fun _ => ⟨[], nofun, rfl⟩

lemma bind (hm : Consults config m) (hf : ∀ a, Consults config (f a)) :
  Consults config (m >>= f) := by
  intro v
  have hfirst : Consulted config v (outcome m v).2 := hm v
  rw [outcome_bind]
  rcases hout : outcome m v with ⟨r, v'⟩
  rw [hout] at hfirst
  cases r with
  | error e => exact hfirst
  | ok a => exact hfirst.trans (hf a v')

lemma mapM {f : α → Highlighting β} {l : List α} (h : ∀ a ∈ l, Consults config (f a)) :
  Consults config (l.mapM f) := by
  induction l with
  | nil => exact pure []
  | cons a l ih =>
    rw [mapM_cons]
    exact (h a mem_cons_self).bind fun b =>
      (ih fun a' ha' => h a' (mem_cons_of_mem a ha')).bind fun bs => pure (b :: bs)

lemma tryCatch {f : Fault → Highlighting α} (hm : Consults config m)
  (hf : ∀ e, Consults config (f e)) : Consults config (MonadExcept.tryCatch m f) := by
  intro v
  have hfirst : Consulted config v (outcome m v).2 := hm v
  rw [outcome_tryCatch]
  rcases hout : outcome m v with ⟨r, v'⟩
  rw [hout] at hfirst
  cases r with
  | ok a => exact hfirst
  | error e => exact hfirst.trans (hf e v')

lemma of_follows {ls : List Lookup} (hm : Follows m ls) (hls : ∀ l ∈ ls, l.config = config) :
  Consults config m := by
  intro v
  rcases hm.state v with ⟨done, hdone, hstate, -⟩
  exact ⟨done, fun l hl => hls l (hdone.subset hl), hstate⟩

end Consults

lemma lineLookups_config {line : String} : ∀ l ∈ lineLookups config line, l.config = config := by
  intro l hl
  unfold lineLookups at hl
  split at hl
  · cases hl
  · cases hkind : classify (escape line).toList <;> simp_all [LineKind.lookups]

lemma codeLookups_config {code : String} : ∀ l ∈ codeLookups config code, l.config = config := by
  intro l hl
  unfold codeLookups at hl
  split at hl
  · cases hl
  · rcases mem_flatMap.mp hl with ⟨line, -, hl⟩
    exact lineLookups_config l hl

lemma listingLookups_config {language code : String} :
  ∀ l ∈ listingLookups config language code, l.config = config := by
  intro l hl
  unfold listingLookups at hl
  split at hl
  · exact codeLookups_config l hl
  · cases hl

lemma documentLookups_config {content : String} :
  ∀ l ∈ documentLookups config content, l.config = config := by
  intro l hl
  rcases mem_flatMap.mp hl with ⟨f, -, hl⟩
  cases f with
  | code language ls => exact listingLookups_config l hl
  | _ => cases hl

lemma document_consults (content : String) : Consults config (document config content) :=
  .of_follows (document_follows config content) documentLookups_config

lemma codeBlock_consults (language code : String) :
  Consults config (codeBlock config language code) :=
  (Consults.of_follows (listing_follows config _ _) listingLookups_config).bind fun _ => .pure _

lemma markdownPiece_consults (piece : List Char ⊕ (List Char × List Char)) :
  Consults config (markdownPiece processor config piece) := by
  cases piece with
  | inl text => exact .pure _
  | inr fenced =>
    unfold markdownPiece
    dsimp only
    split
    · exact .pure _
    · exact (codeBlock_consults _ _).bind fun _ => .pure _

lemma markdownDocument_consults (text : String) :
  Consults config (markdownDocument processor config text) := by
  unfold markdownDocument
  dsimp only
  split
  · exact .pure ""
  · exact (Consults.mapM fun piece _ => markdownPiece_consults processor piece).bind fun _ => .pure _

lemma docstring_consults (text : String) : Consults config (docstring config text) := by
  unfold docstring
  split
  · exact .pure ""
  · exact (markdownDocument_consults id text).bind fun _ => document_consults text

/-- What a highlighter is asked to colour. -/
inductive CallKind where
  | line
  | stretch
  | code
  | document

/-- A use of a highlighter that colours a text with a configuration. -/
structure Call where
  kind : CallKind
  config : Option Json
  text : String

variable (c : Call)

namespace Call

/-- Colouring what a call asks for. -/
def run : Highlighting String :=
  match c.kind with
  | .line => highlightLine c.config c.text
  | .stretch => do return String.ofList (← highlightVariables c.config c.text.toList)
  | .code => highlightCode c.config c.text
  | .document => document c.config c.text

def lookups : List Lookup :=
  match c.kind with
  | .line => lineLookups c.config c.text
  | .stretch => [⟨c.config, false⟩]
  | .code => codeLookups c.config c.text
  | .document => documentLookups c.config c.text

lemma run_follows : Follows c.run c.lookups := by
  rcases c with ⟨kind, config, text⟩
  cases kind with
  | line => exact highlightLine_follows config text
  | stretch => exact (highlightVariables_follows config text.toList).map
  | code => exact highlightCode_follows config text
  | document => exact document_follows config text

lemma lookups_config : ∀ l ∈ c.lookups, l.config = c.config := by
  rcases c with ⟨kind, config, text⟩
  cases kind with
  | line => exact lineLookups_config
  | stretch => exact forall_mem_singleton.mpr rfl
  | code => exact codeLookups_config
  | document => exact documentLookups_config

end Call

end KeywordDocs.Highlight
