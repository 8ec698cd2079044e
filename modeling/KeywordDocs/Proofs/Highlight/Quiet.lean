import KeywordDocs.Proofs.Highlight.Colouring
import KeywordDocs.Proofs.Highlight.Naming
import Mathlib.Data.List.DropRight

/-!
# Quiet Lines

Colouring a stretch of test code is a chain of searches with markers in between.
-/

namespace KeywordDocs.Highlight

open Text Markup
open List hiding dropPrefix?

/-- The characters that mean something in test code or in markup. -/
def loudChars : List Char :=
  ['&', '<', '>', '"', '\'', '\x7b', '=', '#']

/-- Texts without markup, variables, named arguments, comments and markers. -/
structure Quiet (cs : List Char) : Prop where
  chars : cs.all (fun c => !loudChars.contains c)
  marks : ¬ ['_', '_'] <:+: cs

namespace Quiet

variable {cs : List Char}

instance (cs : List Char) : Decidable (Quiet cs) :=
  decidable_of_iff (cs.all (fun c => !loudChars.contains c) ∧ ¬ ['_', '_'] <:+: cs)
    ⟨fun h => ⟨h.1, h.2⟩, fun h => ⟨h.1, h.2⟩⟩

lemma not_mem (h : Quiet cs) {c : Char} (hc : loudChars.contains c) : c ∉ cs := by
  intro hmem
  have hquiet := all_eq_true.mp h.chars c hmem
  rw [hc] at hquiet
  cases hquiet

lemma of_infix {part : List Char} (h : Quiet cs) (hpart : part <:+: cs) : Quiet part where
  chars := all_eq_true.mpr fun c hc => all_eq_true.mp h.chars c (hpart.subset hc)
  marks hmarks := h.marks (hmarks.trans hpart)

end Quiet

variable {cs : List Char}

lemma markPieces_map_plain (family : String) (n : Nat) (cs : List Char) :
  markPieces family n (cs.map .plain) = (cs, []) := by
  induction cs with
  | nil => rfl
  | cons c cs ih => rw [map_cons, markPieces, ih]

lemma markVariables_quiet (h : '\x7b' ∉ cs) : markVariables cs = (cs, []) := by
  have hscan : ∀ sign, scan (reference sign) cs = cs.map .plain := by
    refine fun sign => scan_of_none fun b rest hrest => ?_
    unfold reference
    split
    case h_1 => cases h (hrest.subset (by simp))
    case h_2 => rfl
  simp only [markVariables, variableSigns, foldl_cons, foldl_nil, hscan, markPieces_map_plain]
  rfl

lemma hasKeywordMarker_quiet (h : ¬ ['_', '_'] <:+: cs) : hasKeywordMarker cs = false := by
  induction cs with
  | nil => rfl
  | cons c cs ih =>
    have hstart : dropPrefix? "__KW_MARKER_".toList (c :: cs) = none := by
      refine Option.eq_none_iff_forall_ne_some.mpr fun rest hrest => h ?_
      rw [dropPrefix?_eq_some hrest]
      exact ⟨[], "KW_MARKER_".toList ++ rest, by simp⟩
    rw [hasKeywordMarker, hstart, ih fun hcs => h (hcs.trans (suffix_cons c cs).isInfix)]
    rfl

lemma markArguments_quiet (marks : Marks) (h : '=' ∉ cs) : markArguments marks cs = (cs, []) := by
  have hnone : ∀ b rest, rest <:+ cs → namedArgument b rest = none := by
    refine fun b rest hrest => Option.eq_none_iff_forall_ne_some.mpr fun found hfound => ?_
    rcases namedArgument_eq_some hfound with ⟨-, _, _, _, rfl, -⟩
    exact h (hrest.subset (by simp))
  unfold markArguments
  dsimp only
  rw [scan_of_none fun b rest hrest => by rw [hnone b rest hrest]; rfl, markPieces_map_plain]
  rfl

lemma unmark_keyword {front rest : List Char} (hfront : ¬ ['_', '_'] <:+: front)
  (hrest : ¬ ['_', '_'] <:+: rest) (shown : List Char) :
  unmark [(marker "KW" 0, shown)] (front ++ marker "KW" 0 ++ rest) = front ++ shown ++ rest := by
  have hmarker : marker "KW" 0 = '_' :: '_' :: 'K' :: "W_MARKER_0__".toList := by decide
  have hblind := fixed_blind (marker "KW" 0) shown
  have hne : marker "KW" 0 ≠ [] := by
    rw [hmarker]
    exact cons_ne_nil _ _
  -- A marker that started in the front would need two underscores there, or three in a row.
  have hbefore : ∀ c tail, c :: tail <:+ front →
      fixed (marker "KW" 0) shown none (c :: tail ++ (marker "KW" 0 ++ rest)) = none := by
    intro c tail htail
    refine fixed_eq_none (fun hstarts => ?_) none
    rw [hmarker, cons_append, cons_prefix_cons] at hstarts
    rcases hstarts with ⟨rfl, hstarts⟩
    cases tail with
    | nil => simp at hstarts
    | cons d tail =>
      rw [cons_append, cons_prefix_cons] at hstarts
      obtain rfl := hstarts.1
      exact hfront (List.IsInfix.trans ⟨[], tail, rfl⟩ htail.isInfix)
  have hafter : ∀ b tail, tail <:+ rest → fixed (marker "KW" 0) shown b tail = none := by
    refine fun b tail htail => fixed_eq_none (fun hstarts => hrest ?_) b
    rw [hmarker] at hstarts
    exact List.IsInfix.trans (List.IsInfix.trans ⟨[], _, rfl⟩ hstarts.isInfix) htail.isInfix
  rw [unmark, foldl_cons, foldl_nil, replaceChars_eq_replaceFinds hne, append_assoc,
    replaceFinds_front hblind hbefore,
    replaceFinds_found hblind hne (fixed_append _ shown rest none), replaceFinds_of_none hafter, append_assoc]

variable {part : List Char}

lemma splitComment_quiet (h : '#' ∉ part) : splitComment part = none := by
  induction part with
  | nil => rfl
  | cons c part ih =>
    have hc : c ≠ '#' := fun hc => h (hc ▸ mem_cons_self)
    rw [splitComment, ih fun hpart => h (mem_cons_of_mem c hpart)]
    simp [hc]

lemma highlightComment_quiet (h : '#' ∉ part) (wrap : List Char → List Char) :
  highlightComment wrap part = part := by
  rw [highlightComment, splitComment_quiet h]

lemma highlightComments_keyword {front name rest : List Char} (hfront : Quiet front)
  (hname : Quiet name) (hrest : Quiet rest) :
  highlightComments (front ++ Ink.keyword.span name ++ rest) = front ++ Ink.keyword.span name ++ rest := by
  have hspan : front ++ Ink.keyword.span name ++ rest =
      front ++ ('<' :: 's' :: "pan style=\"color: #4ec9b0; font-weight: bold;\"".toList ++ ['>'] ++
        (name ++ ('<' :: '/' :: "span".toList ++ ['>'] ++ rest))) := by
    simp only [Ink.span, append_assoc]
    rfl
  rw [hspan, highlightComments_tag (hfront.not_mem rfl) (by decide),
    highlightComments_tag (hname.not_mem rfl) (by decide), highlightComments_run (hrest.not_mem rfl)]
  simp only [highlightComment_quiet (hfront.not_mem rfl), highlightComment_quiet (hname.not_mem rfl),
    highlightComment_quiet (hrest.not_mem rfl)]

lemma highlightVariablesWith_quiet (names : List String) {text : List Char} (h : Quiet text) :
  highlightVariablesWith names text = ((names.findSome? fun name =>
      (splitAtWord name.toList none text).map fun split => (name, split)).elim text
        fun found => found.2.1 ++ Ink.keyword.span found.1.toList ++ found.2.2) := by
  have hvariables := markVariables_quiet (h.not_mem (c := '\x7b') rfl)
  have hequals : '=' ∉ text := h.not_mem rfl
  have hmarker : ∀ c ∈ marker "KW" 0, c ≠ '=' := by decide
  unfold highlightVariablesWith markKeyword
  rw [hvariables]
  dsimp only
  rw [hasKeywordMarker_quiet h.marks, if_neg Bool.false_ne_true]
  cases hfound : names.findSome? fun name =>
      (splitAtWord name.toList none text).map fun split => (name, split) with
  | none =>
    dsimp only
    rw [markArguments_quiet _ hequals]
    exact (highlightComments_run (h.not_mem rfl)).trans (highlightComment_quiet (h.not_mem rfl) _)
  | some found =>
    rcases found with ⟨name, front, rest⟩
    rcases exists_of_findSome?_eq_some hfound with ⟨name', _, hsplit⟩
    rcases Option.map_eq_some_iff.mp hsplit with ⟨split, hsplit, hpair⟩
    cases hpair
    have htext := (splitAtWord_eq_some hsplit).1
    have hfront : Quiet front := h.of_infix ⟨[], name.toList ++ rest, by simp [htext]⟩
    have hname : Quiet name.toList := h.of_infix ⟨front, rest, htext.symm⟩
    have hrest : Quiet rest := h.of_infix ⟨front ++ name.toList, [], by simp [htext]⟩
    have hmarked : '=' ∉ front ++ marker "KW" 0 ++ rest := by
      intro hmem
      rcases mem_append.mp hmem with hmem | hmem
      · rcases mem_append.mp hmem with hmem | hmem
        · exact hfront.not_mem rfl hmem
        · exact hmarker _ hmem rfl
      · exact hrest.not_mem rfl hmem
    dsimp only
    rw [markArguments_quiet _ hmarked]
    dsimp only
    rw [nil_append, append_nil, unmark_keyword hfront.marks hrest.marks, Option.elim_some]
    exact highlightComments_keyword hfront hname hrest

variable {config : Option Json} {v : Vocabulary} {n : String} {before : Option Char}

/-- Quiet names that start like a word. -/
structure Readable (n : String) : Prop where
  quiet : Quiet n.toList
  word : isWordAt n.toList.head?

instance (n : String) : Decidable (Readable n) :=
  decidable_of_iff (Quiet n.toList ∧ isWordAt n.toList.head?)
    ⟨fun h => ⟨h.1, h.2⟩, fun h => ⟨h.1, h.2⟩⟩

def bracketed (n : String) : String := "[ " ++ n

lemma bracketed_toList (n : String) : (bracketed n).toList = '[' :: ' ' :: n.toList := by
  rw [bracketed, String.toList_append]
  rfl

lemma bracketed_quiet (h : Readable n) : Quiet ('[' :: ' ' :: n.toList) where
  chars := by
    rw [all_cons, all_cons, h.quiet.chars]
    rfl
  marks hmarks := by
    rw [infix_cons_iff, infix_cons_iff] at hmarks
    rcases hmarks with hmarks | hmarks | hmarks
    · exact absurd (cons_prefix_cons.mp hmarks).1 (by decide)
    · exact absurd (cons_prefix_cons.mp hmarks).1 (by decide)
    · exact h.quiet.marks hmarks

lemma classify_bracket (cs : List Char) : classify ('[' :: cs) = .other := by
  have hbody : ∃ body, trimChars ('[' :: cs) = '[' :: body := by
    have hleft : trimLeftChars ('[' :: cs) = '[' :: cs := dropWhile_cons_of_neg (by decide)
    have hstart : dropEndWhile isBlank ('[' :: cs) <+: '[' :: cs := rdropWhile_prefix _ _
    rw [trimChars, trimRightChars, hleft]
    cases hend : dropEndWhile isBlank ('[' :: cs) with
    | nil =>
      have hall := rdropWhile_eq_nil_iff.mp hend '[' mem_cons_self
      exact absurd hall (by decide)
    | cons c body =>
      rw [hend, cons_prefix_cons] at hstart
      exact ⟨body, by rw [hstart.1]⟩
  have hnames : settingNames.all (fun name => name.toList.head?.any (· != '[')) := by decide
  rcases hbody with ⟨body, hbody⟩
  have hsetting : (longestFirst settingNames).findSome? (fun name =>
      (settingRest? name ('[' :: cs)).map fun rest => (name, rest)) = none := by
    refine findSome?_eq_none_iff.mpr fun name hname => ?_
    have hhead := all_eq_true.mp hnames name (mem_longestFirst.mp hname)
    unfold settingRest?
    rw [hbody]
    cases hchars : name.toList with
    | nil =>
      rw [hchars] at hhead
      cases hhead
    | cons c name' =>
      rw [hchars] at hhead
      have hc : c ≠ '[' := by simpa using hhead
      simp [dropPrefix?, hc, Ne.symm hc]
  unfold classify
  rw [hbody, hsetting]
  simp [isIndented, List.isPrefixOf]

lemma outcome_bracketed (h : Readable n) : (outcome (highlightLine config (bracketed n)) v).1 =
    (v.names? config).elim (.error .wrongKind) fun names =>
      .ok (String.ofList (highlightVariablesWith (longestFirst names) ('[' :: ' ' :: n.toList))) := by
  have hescape : (escape (bracketed n)).toList = '[' :: ' ' :: n.toList := by
    rw [escape, String.toList_ofList, bracketed_toList]
    refine replaceAll_eq_self fun e he => (bracketed_quiet h).not_mem ?_
    have hloud : entities.all (fun e => loudChars.contains e.1) := rfl
    exact all_eq_true.mp hloud e he
  have hne : (bracketed n).isEmpty = false := by
    refine Bool.eq_false_iff.mpr fun hempty => ?_
    have hnil := congrArg String.toList (String.isEmpty_iff.mp hempty)
    rw [bracketed_toList] at hnil
    cases hnil
  rw [highlightLine, hne, if_neg Bool.false_ne_true, hescape, highlightEscaped, classify_bracket,
    outcome_map, outcome_highlightVariables]
  cases v.names? config <;> rfl

lemma splitAtWord_cons {c : Char} (h : atBoundary before (some c) = false) (m cs : List Char) :
  splitAtWord m before (c :: cs) =
    (splitAtWord m (some c) cs).map fun split => (c :: split.1, split.2) := by
  have hhere : (if atBoundary before (c :: cs).head? then (dropPrefix? m (c :: cs)).filter endsWord
      else none) = none := if_neg (by rw [head?_cons, h]; exact Bool.false_ne_true)
  rw [splitAtWord.eq_def]
  dsimp only
  rw [hhere]

lemma splitAtWord_bracketed (m cs : List Char) :
  splitAtWord m none ('[' :: ' ' :: cs) =
    (splitAtWord m (some ' ') cs).map fun split => ('[' :: ' ' :: split.1, split.2) := by
  rw [splitAtWord_cons (by decide), splitAtWord_cons (by decide), Option.map_map]
  rfl

lemma splitAtWord_readable (h : Readable n) :
  splitAtWord n.toList (some ' ') n.toList = some ([], []) := by
  have hword : atBoundary (some ' ') n.toList.head? := by
    rw [atBoundary, h.word]
    rfl
  have hdrop := dropPrefix?_append n.toList []
  rw [append_nil] at hdrop
  unfold splitAtWord
  dsimp only
  rw [hword, if_pos rfl, hdrop]
  rfl

lemma Ink.span_inj {ink : Ink} {front a b rest : List Char} (hfront : '<' ∉ front) (ha : '<' ∉ a)
  (hb : '<' ∉ b) (h : front ++ (ink.span a ++ rest) = ink.span b) : a = b := by
  have hcons : ∀ cs, ink.span cs = '<' :: (ink.span cs).tail := fun cs => by cases ink <;> rfl
  have hnil : front = [] := by
    rw [hcons a, hcons b, cons_append] at h
    exact (append_cons_inj hfront (not_mem_nil) h).1
  subst hnil
  simp only [Ink.span, nil_append, append_assoc, append_cancel_left_eq] at h
  exact (append_cons_inj ha hb h).1

lemma eq_of_splitAtWord {m : String} {split : List Char × List Char}
  (h : splitAtWord m.toList before n.toList = some split) (hlength : n.length ≤ m.length) :
  m = n := by
  have htext := (splitAtWord_eq_some h).1
  rw [← String.length_toList, ← String.length_toList, htext] at hlength
  simp only [length_append] at hlength
  have hfront : split.1 = [] := length_eq_zero_iff.mp (by omega)
  have hrest : split.2 = [] := length_eq_zero_iff.mp (by omega)
  rw [hfront, hrest, nil_append, append_nil] at htext
  exact String.toList_inj.mp htext.symm

lemma bracketed_eq_iff (h : Readable n) (names : List String) :
  highlightVariablesWith (longestFirst names) ('[' :: ' ' :: n.toList) =
    '[' :: ' ' :: Ink.keyword.span n.toList ↔ n ∈ names := by
  have hquiet := bracketed_quiet h
  have hlt : '<' ∉ '[' :: ' ' :: n.toList := hquiet.not_mem rfl
  have hsplit : ∀ m : String, splitAtWord m.toList none ('[' :: ' ' :: n.toList) =
      (splitAtWord m.toList (some ' ') n.toList).map fun split => ('[' :: ' ' :: split.1, split.2) :=
    fun m => splitAtWord_bracketed m.toList n.toList
  rw [highlightVariablesWith_quiet _ hquiet]
  simp only [hsplit, Option.map_map]
  constructor
  · intro heq
    cases hfound : (longestFirst names).findSome? _ with
    | none =>
      -- Nothing is coloured then, so there would be a tag in the line itself.
      rw [hfound, Option.elim_none] at heq
      rw [heq] at hlt
      exact absurd (by simp [Ink.span]) hlt
    | some found =>
      rw [hfound, Option.elim_some] at heq
      rcases exists_of_findSome?_eq_some hfound with ⟨m, hm, hmap⟩
      rcases Option.map_eq_some_iff.mp hmap with ⟨split, hsome, rfl⟩
      have hparts := h.quiet
      rw [(splitAtWord_eq_some hsome).1] at hparts
      have hfront : Quiet split.1 := hparts.of_infix ⟨[], m.toList ++ split.2, by simp⟩
      have hname : Quiet m.toList := hparts.of_infix ⟨split.1, split.2, rfl⟩
      have hspan : split.1 ++ (Ink.keyword.span m.toList ++ split.2) = Ink.keyword.span n.toList := by
        simpa using heq
      have hmn := Ink.span_inj (hfront.not_mem rfl) (hname.not_mem rfl) (h.quiet.not_mem rfl) hspan
      rw [← String.toList_inj.mp hmn]
      exact mem_longestFirst.mp hm
  · intro hmem
    have hself := splitAtWord_readable h
    rw [findSome?_eq_bind]
    simp only [Option.isSome_map]
    cases hfound : (longestFirst names).find? fun m =>
        (splitAtWord m.toList (some ' ') n.toList).isSome with
    | none =>
      have hnone := find?_eq_none.mp hfound n (mem_longestFirst.mpr hmem)
      rw [hself] at hnone
      cases hnone rfl
    | some m =>
      -- The name itself is among those that are found, and none that is found is longer.
      have hlongest := length_le_of_find? hfound hmem (by rw [hself]; rfl)
      have hsplits := find?_some hfound
      rcases Option.isSome_iff_exists.mp hsplits with ⟨split, hsome⟩
      rw [eq_of_splitAtWord hsome hlongest, Option.bind_some, hself]
      simp

end KeywordDocs.Highlight
