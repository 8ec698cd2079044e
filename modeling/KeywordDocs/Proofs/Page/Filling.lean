import KeywordDocs.Proofs.Page.Printing

/-!
# Filling a Template in One Pass

The placeholders of a template are filled one after another, each in the whole text. So what is filled in
first is searched for the placeholders that come later.
-/

namespace KeywordDocs.Page

open Text Markup Highlight
open Option (elim_some elim_none)
open List hiding replace

variable (template : String)

def hole (name : String) : List Char := (placeholder name).toList

def Braceless (name : String) : Prop := '\x7b' ∉ name.toList ∧ '\x7d' ∉ name.toList

instance (name : String) : Decidable (Braceless name) := inferInstanceAs (Decidable (_ ∧ _))

/-- What is filled in at a place of a template. -/
def holeAt (texts : List (String × String)) : Recogniser (List Char) := fun before cs =>
  texts.findSome? fun e => fixed (hole e.1) e.2.toList before cs

/-- A template with its placeholders filled in one pass. -/
def fillOnce (texts : List (String × String)) (cs : List Char) : List Char := replaceFinds (holeAt texts) cs

/-- A template with its placeholders filled in one after another. -/
def fillInTurn (texts : List (String × String)) (cs : List Char) : List Char :=
  texts.foldl (fun cs e => replaceChars (hole e.1) e.2.toList cs) cs

variable {m n : String} {texts : List (String × String)} {cs : List Char}

lemma hole_eq (n : String) : hole n = '\x7b' :: '\x7b' :: (n.toList ++ ['\x7d', '\x7d']) := by
  rw [hole, placeholder, String.toList_append, String.toList_append]
  rfl

lemma hole_ne_nil (n : String) : hole n ≠ [] := by
  rw [hole_eq]
  exact cons_ne_nil _ _

lemma brace_not_mem (h : Braceless n) : '\x7b' ∉ n.toList ++ ['\x7d', '\x7d'] := by
  intro hmem
  rcases mem_append.mp hmem with hmem | hmem
  · exact h.1 hmem
  · exact absurd hmem (by decide)

lemma hole_prefix_iff (hm : Braceless m) (hn : Braceless n) (b : List Char) :
  hole m <+: hole n ++ b ↔ m = n := by
  refine ⟨fun h => ?_, fun h => h ▸ prefix_append _ _⟩
  rcases h with ⟨rest, hrest⟩
  simp only [hole_eq, cons_append, append_assoc, List.cons.injEq, true_and, nil_append] at hrest
  exact String.toList_inj.mp (append_cons_inj hm.2 hn.2 hrest).1

lemma not_prefix_within (hn : Braceless n) {s : List Char} (hs : s <:+ hole n) (hne : s ≠ [])
  (hproper : s ≠ hole n) (b : List Char) : ¬ hole m <+: s ++ b := by
  intro h
  rw [hole_eq] at hs hproper
  rcases suffix_cons_iff.mp hs with rfl | hs
  · exact hproper rfl
  rw [hole_eq] at h
  rcases suffix_cons_iff.mp hs with rfl | hs
  · -- The second brace would have to be the first character of the name, or the brace that ends it.
    rw [cons_append, cons_prefix_cons] at h
    have hmem : '\x7b' ∈ n.toList ++ ['\x7d', '\x7d'] ++ b := h.2.subset mem_cons_self
    cases hname : n.toList with
    | nil =>
      rw [hname] at h
      exact absurd (cons_prefix_cons.mp h.2).1 (by decide)
    | cons c name =>
      rw [hname, cons_append, cons_append, cons_prefix_cons] at h
      exact hn.1 (by rw [hname, ← h.2.1]; exact mem_cons_self)
  · cases s with
    | nil => exact hne rfl
    | cons c s =>
      rw [cons_append, cons_prefix_cons] at h
      exact brace_not_mem hn (hs.subset (h.1 ▸ mem_cons_self))

lemma prefix_append_hole (hm : Braceless m) (n : String) {s : List Char} (hs : s ≠ [])
  (b : List Char) : hole m <+: s ++ (hole n ++ b) ↔ hole m <+: s := by
  refine ⟨fun h => ?_, fun h => h.trans (prefix_append _ _)⟩
  rcases h with ⟨rest, hrest⟩
  rcases append_eq_append_iff.mp hrest with ⟨as, rfl, -⟩ | ⟨inside, hsplit, hover⟩
  · exact prefix_append _ _
  cases inside with
  | nil =>
    rw [append_nil] at hsplit
    exact hsplit ▸ prefix_refl _
  | cons c inside =>
    -- What reaches into the other placeholder begins with a brace, and it is not the first one.
    have hbrace := brace_not_mem hm
    rw [hole_eq n, cons_append, cons_append, cons_append, List.cons.injEq] at hover
    rcases hover with ⟨rfl, hover⟩
    rw [hole_eq] at hsplit
    cases s with
    | nil => cases hs rfl
    | cons d s =>
      rw [cons_append, List.cons.injEq] at hsplit
      cases s with
      | nil =>
        rw [nil_append, List.cons.injEq] at hsplit
        rw [← hsplit.2.2] at hover
        cases hname : m.toList ++ ['\x7d', '\x7d'] with
        | nil => simp at hname
        | cons e name =>
          rw [hname, cons_append, List.cons.injEq] at hover
          exact absurd (by rw [hname, hover.1]; exact mem_cons_self) hbrace
      | cons e s =>
        rw [cons_append, List.cons.injEq] at hsplit
        exact absurd (by rw [hsplit.2.2]; simp) hbrace

lemma holeAt_blind (texts : List (String × String)) : Blind (holeAt texts) := fun _ _ _ => rfl

lemma holeAt_eq_some {out : List Char} {k : Nat} (h : holeAt texts none cs = some (out, k)) :
  ∃ e ∈ texts, hole e.1 <+: cs ∧ out = e.2.toList ∧ k = (hole e.1).length := by
  rcases exists_of_findSome?_eq_some h with ⟨e, he, hfound⟩
  unfold fixed at hfound
  split at hfound
  case isTrue hstarts =>
    cases hfound
    exact ⟨e, he, isPrefixOf_iff_prefix.mp hstarts, rfl, rfl⟩
  case isFalse => cases hfound

lemma holeAt_eq_none (h : ∀ e ∈ texts, ¬ hole e.1 <+: cs) : holeAt texts none cs = none :=
  findSome?_eq_none_iff.mpr fun e he => fixed_eq_none (h e he) none

lemma holeAt_fits (texts : List (String × String)) :
  ∀ s out k, holeAt texts none s = some (out, k) → 0 < k ∧ k ≤ s.length := by
  intro s out k h
  rcases holeAt_eq_some h with ⟨e, -, hstarts, -, rfl⟩
  exact ⟨length_pos_iff.mpr (hole_ne_nil _), hstarts.length_le⟩

lemma holeAt_congr {cs cs' : List Char} (h : ∀ e ∈ texts, hole e.1 <+: cs ↔ hole e.1 <+: cs') :
  holeAt texts none cs = holeAt texts none cs' := by
  unfold holeAt
  induction texts with
  | nil => rfl
  | cons e texts ih =>
    have hfixed : fixed (hole e.1) e.2.toList none cs = fixed (hole e.1) e.2.toList none cs' := by
      unfold fixed
      simp only [List.isPrefixOf_iff_prefix, h e mem_cons_self]
    rw [findSome?_cons, findSome?_cons, hfixed, ih fun e' he' => h e' (mem_cons_of_mem e he')]

lemma holeAt_hole (htexts : ∀ e ∈ texts, Braceless e.1) (hn : Braceless n) (b : List Char) :
  holeAt texts none (hole n ++ b) = (texts.lookup n).map fun text => (text.toList, (hole n).length) := by
  induction texts with
  | nil => rfl
  | cons e texts ih =>
    have hrest := ih fun e' he' => htexts e' (mem_cons_of_mem e he')
    have hstarts := hole_prefix_iff (htexts e mem_cons_self) hn b
    rw [holeAt, findSome?_cons, ← holeAt]
    by_cases he : e.1 = n
    · subst he
      rw [fixed_append, lookup_cons, BEq.rfl]
      rfl
    · rw [fixed_eq_none fun h => he (hstarts.mp h), lookup_cons, beq_false_of_ne (Ne.symm he)]
      exact hrest

lemma fillOnce_nil : fillOnce texts [] = [] := rfl

lemma fillOnce_eq_self (h : ∀ e ∈ texts, ¬ hole e.1 <:+: cs) : fillOnce texts cs = cs := by
  refine replaceFinds_of_none fun b rest hrest => holeAt_eq_none fun e he hstarts => h e he ?_
  exact hstarts.isInfix.trans hrest.isInfix

lemma fillOnce_cut {c : Char} (hc : ∀ e ∈ texts, c ∉ hole e.1) (a b : List Char) :
  fillOnce texts (a ++ c :: b) = fillOnce texts a ++ c :: fillOnce texts b := by
  have hnone : holeAt texts none (c :: b) = none := by
    refine holeAt_eq_none fun e he hstarts => hc e he ?_
    rw [hole_eq, cons_prefix_cons] at hstarts
    rw [hole_eq, hstarts.1]
    exact mem_cons_self
  unfold fillOnce
  rw [replaceFinds_append (holeAt_blind texts) (holeAt_fits texts), replaceFinds_cons
    (holeAt_blind texts) hnone]
  intro s _ _
  refine holeAt_congr fun e he => ?_
  rw [← isPrefixOf_iff_prefix, ← isPrefixOf_iff_prefix, isPrefixOf_append_cons (hc e he)]

lemma fillOnce_hole (htexts : ∀ e ∈ texts, Braceless e.1) (hn : Braceless n) (a b : List Char) :
  fillOnce texts (a ++ (hole n ++ b)) =
    fillOnce texts a ++ (((texts.lookup n).elim (hole n) String.toList) ++ fillOnce texts b) := by
  have hfound := holeAt_hole htexts hn b
  unfold fillOnce
  rw [replaceFinds_append (holeAt_blind texts) (holeAt_fits texts)]
  · congr 1
    cases hlookup : texts.lookup n with
    | some text =>
      rw [hlookup] at hfound
      exact replaceFinds_found (holeAt_blind texts) (hole_ne_nil n) hfound
    | none =>
      rw [hlookup] at hfound
      refine replaceFinds_front (holeAt_blind texts) fun c rest hrest => ?_
      by_cases hwhole : c :: rest = hole n
      · rw [hwhole, hfound]
        rfl
      · exact holeAt_eq_none fun e _ => not_prefix_within hn hrest (cons_ne_nil c rest) hwhole b
  · intro s hs _
    exact holeAt_congr fun e he => prefix_append_hole (htexts e he) n hs b

lemma fillOnce_hole_self (htexts : ∀ e ∈ texts, Braceless e.1) (hn : Braceless n) :
  fillOnce texts (hole n) = (texts.lookup n).elim (hole n) String.toList := by
  have hall := fillOnce_hole htexts hn [] []
  rwa [append_nil, nil_append, fillOnce_nil, nil_append, append_nil] at hall

lemma fillInTurn_cons (e : String × String) (texts : List (String × String)) (cs : List Char) :
  fillInTurn (e :: texts) cs = fillInTurn texts (fillOnce [e] cs) := by
  have hsingle : ∀ b rest, fixed (hole e.1) e.2.toList b rest = holeAt [e] b rest := by
    intro b rest
    rw [holeAt, findSome?_cons]
    cases fixed (hole e.1) e.2.toList b rest <;> rfl
  have hstep : replaceChars (hole e.1) e.2.toList cs = fillOnce [e] cs := by
    rw [replaceChars_eq_replaceFinds (hole_ne_nil e.1), fillOnce]
    exact replaceFinds_congr fun b rest _ => hsingle b rest
  rw [fillInTurn, foldl_cons, hstep, fillInTurn]

lemma fillInTurn_eq_self (h : ∀ e ∈ texts, ¬ hole e.1 <:+: cs) : fillInTurn texts cs = cs := by
  induction texts with
  | nil => rfl
  | cons e texts ih =>
    rw [fillInTurn_cons, fillOnce_eq_self (forall_mem_singleton.mpr (h e mem_cons_self)),
      ih fun e' he' => h e' (mem_cons_of_mem e he')]

lemma fillInTurn_cut {c : Char} (hc : ∀ e ∈ texts, c ∉ hole e.1) (a b : List Char) :
  fillInTurn texts (a ++ c :: b) = fillInTurn texts a ++ c :: fillInTurn texts b := by
  induction texts generalizing a b with
  | nil => rfl
  | cons e texts ih =>
    rw [fillInTurn_cons, fillInTurn_cons, fillInTurn_cons,
      fillOnce_cut (forall_mem_singleton.mpr (hc e mem_cons_self)),
      ih fun e' he' => hc e' (mem_cons_of_mem e he')]

lemma fillInTurn_hole (htexts : ∀ e ∈ texts, Braceless e.1) (hn : Braceless n)
  (hmissing : ∀ e ∈ texts, e.1 ≠ n) (a b : List Char) :
  fillInTurn texts (a ++ (hole n ++ b)) = fillInTurn texts a ++ (hole n ++ fillInTurn texts b) := by
  induction texts generalizing a b with
  | nil => rfl
  | cons e texts ih =>
    have hlookup : [e].lookup n = none := by
      rw [lookup_cons, beq_false_of_ne (hmissing e mem_cons_self).symm]
      rfl
    rw [fillInTurn_cons, fillInTurn_cons, fillInTurn_cons,
      fillOnce_hole (forall_mem_singleton.mpr (htexts e mem_cons_self)) hn, hlookup,
      elim_none, ih (fun e' he' => htexts e' (mem_cons_of_mem e he'))
        fun e' he' => hmissing e' (mem_cons_of_mem e he')]

lemma fillOnce_cons_of_not {e : String × String} (h : ¬ hole e.1 <:+: cs) :
  fillOnce (e :: texts) cs = fillOnce texts cs := by
  refine replaceFinds_congr fun b rest hrest => ?_
  have hnone : fixed (hole e.1) e.2.toList b rest = none :=
    fixed_eq_none (fun hstarts => h (hstarts.isInfix.trans hrest.isInfix)) b
  rw [holeAt, findSome?_cons, hnone]
  rfl

lemma hole_induction (n : String) {P : List Char → Prop} (hfree : ∀ cs, ¬ hole n <:+: cs → P cs)
  (hsplit : ∀ a b, ¬ hole n <:+: a → P b → P (a ++ (hole n ++ b))) (cs : List Char) : P cs := by
  induction hlength : cs.length using Nat.strong_induction_on generalizing cs with
  | _ length ih =>
    have hpos : 0 < (hole n).length := length_pos_iff.mpr (hole_ne_nil n)
    -- Of all occurrences the one with the shortest text before it is the first.
    have hfirst : ∀ k a b, a.length = k → cs = a ++ (hole n ++ b) → P cs := by
      intro k
      induction k using Nat.strong_induction_on with
      | _ k ihk =>
        intro a b hk hcs
        by_cases ha : hole n <:+: a
        · rcases ha with ⟨a', b', rfl⟩
          refine ihk a'.length ?_ a' (b' ++ (hole n ++ b)) rfl (by rw [hcs]; simp)
          simp only [length_append] at hk
          omega
        · rw [hcs]
          refine hsplit a b ha (ih b.length ?_ b rfl)
          rw [hcs] at hlength
          simp only [length_append] at hlength
          omega
    by_cases h : hole n <:+: cs
    · rcases h with ⟨a, b, hab⟩
      exact hfirst a.length a b rfl (by rw [← hab, append_assoc])
    · exact hfree cs h

variable {e : String × String}

structure Distinct (texts : List (String × String)) : Prop where
  nodup : (texts.map Prod.fst).Nodup
  braceless : ∀ e ∈ texts, Braceless e.1

lemma Distinct.tail (h : Distinct (e :: texts)) : Distinct texts :=
  ⟨(nodup_cons.mp h.nodup).2, fun e' he' => h.braceless e' (mem_cons_of_mem e he')⟩

lemma Distinct.ne (h : Distinct (e :: texts)) : ∀ e' ∈ texts, e'.1 ≠ e.1 := fun _ he' hname =>
  (nodup_cons.mp h.nodup).1 (hname ▸ mem_map_of_mem he')

/-- Texts that the placeholders after them leave alone wherever the texts stand. -/
def Undisturbed : List (String × String) → Prop
  | [] => True
  | e :: later =>
    (∀ a b, fillOnce later (a ++ (e.2.toList ++ b)) =
      fillOnce later a ++ (e.2.toList ++ fillOnce later b)) ∧ Undisturbed later

lemma Distinct.lookup_eq_none (h : Distinct (e :: texts)) : texts.lookup e.1 = none := by
  refine lookup_eq_none_iff.mpr fun e' he' => ?_
  exact bne_iff_ne.mpr (h.ne e' he').symm

lemma fillOnce_fillOnce (h : Distinct (e :: texts)) (hundisturbed : Undisturbed (e :: texts))
  (cs : List Char) :
  fillOnce texts (fillOnce [e] cs) = fillOnce (e :: texts) cs := by
  have he := h.braceless e mem_cons_self
  have hsingle : ∀ e' ∈ [e], Braceless e'.1 := forall_mem_singleton.mpr he
  induction cs using hole_induction e.1 with
  | hfree cs hcs => rw [fillOnce_eq_self (forall_mem_singleton.mpr hcs), fillOnce_cons_of_not hcs]
  | hsplit a b ha ih =>
    rw [fillOnce_hole hsingle he, fillOnce_eq_self (forall_mem_singleton.mpr ha), lookup_cons_self,
      elim_some, hundisturbed.1, ih, fillOnce_hole h.braceless he, lookup_cons_self,
      fillOnce_cons_of_not ha, elim_some]

lemma fillInTurn_eq_iff (h : Distinct texts) :
  (∀ cs, fillInTurn texts cs = fillOnce texts cs) ↔ Undisturbed texts := by
  induction texts with
  | nil => exact ⟨fun _ => trivial, fun _ cs => (fillOnce_eq_self (forall_mem_nil _)).symm⟩
  | cons e texts ih =>
    have he := h.braceless e mem_cons_self
    have hrest := h.tail.braceless
    have hsingle : ∀ e' ∈ [e], Braceless e'.1 := forall_mem_singleton.mpr he
    constructor
    · intro hsame
      -- Without the first placeholder nothing is different; with it there are parts without it.
      have hlater : ∀ cs, fillInTurn texts cs = fillOnce texts cs := by
        intro cs
        induction cs using hole_induction e.1 with
        | hfree cs hcs =>
          have hcs' := hsame cs
          rwa [fillInTurn_cons, fillOnce_eq_self (forall_mem_singleton.mpr hcs),
            fillOnce_cons_of_not hcs] at hcs'
        | hsplit a b ha ihb =>
          have ha' := hsame a
          rw [fillInTurn_cons, fillOnce_eq_self (forall_mem_singleton.mpr ha), fillOnce_cons_of_not ha] at ha'
          rw [fillInTurn_hole hrest he h.ne, fillOnce_hole hrest he, h.lookup_eq_none,
            elim_none, ha', ihb]
      have hfree : ∀ a b, ¬ hole e.1 <:+: a → ¬ hole e.1 <:+: b → fillOnce texts (a ++ (e.2.toList ++ b)) =
            fillOnce texts a ++ (e.2.toList ++ fillOnce texts b) := by
        intro a b ha hb
        have hab := hsame (a ++ (hole e.1 ++ b))
        rwa [fillInTurn_cons, hlater, fillOnce_hole hsingle he,
          fillOnce_eq_self (forall_mem_singleton.mpr ha),
          fillOnce_eq_self (forall_mem_singleton.mpr hb), fillOnce_hole h.braceless he,
          lookup_cons_self, lookup_cons_self, fillOnce_cons_of_not ha, fillOnce_cons_of_not hb,
          elim_some] at hab
      -- Elsewhere the placeholder stays, so all that is around the text is what is free of it.
      have hstays : ∀ front cs, fillOnce texts (front ++ (hole e.1 ++ cs)) =
          fillOnce texts front ++ (hole e.1 ++ fillOnce texts cs) := by
        intro front cs
        rw [fillOnce_hole hrest he, h.lookup_eq_none, elim_none]
      refine ⟨fun a => ?_, (ih h.tail).mp hlater⟩
      induction a using hole_induction e.1 with
      | hfree a ha =>
        intro b
        induction b using hole_induction e.1 with
        | hfree b hb => exact hfree a b ha hb
        | hsplit b rest hb _ =>
          rw [← append_assoc e.2.toList, ← append_assoc a, hstays, hfree a b ha hb, hstays]
          simp only [append_assoc]
      | hsplit front a _ iha =>
        intro b
        rw [append_assoc, append_assoc, hstays, hstays, iha b]
        simp only [append_assoc]
    · intro hundisturbed cs
      rw [fillInTurn_cons, (ih h.tail).mpr hundisturbed.2, fillOnce_fillOnce h hundisturbed]

/-- Texts that the placeholders after them leave alone. -/
def Lasting : List (String × String) → Prop
  | [] => True
  | e :: later => fillInTurn later e.2.toList = e.2.toList ∧ Lasting later

/-- The characters that placeholders are made of. -/
def isHoleChar (c : Char) : Bool := c == '\x7b' || c == '\x7d' || c == '_' || c.isUpper

/-- Templates whose placeholders are set off: between characters that are in no placeholder there is a
placeholder or a text without one. -/
def SetOff (names : List String) (template : String) : Prop :=
  ∀ word ∈ template.toList.splitOnP (fun c => !isHoleChar c),
    (∃ n ∈ names, word = hole n) ∨ ∀ n ∈ names, ¬ hole n <:+: word

lemma eq_of_words {f g : List Char → List Char} {sep : Char → Bool}
  (hf : ∀ c, sep c → ∀ a b, f (a ++ c :: b) = f a ++ c :: f b)
  (hg : ∀ c, sep c → ∀ a b, g (a ++ c :: b) = g a ++ c :: g b) {cs : List Char}
  (h : ∀ word ∈ cs.splitOnP sep, f word = g word) : f cs = g cs := by
  induction hn : cs.length using Nat.strong_induction_on generalizing cs with
  | _ n ih =>
    have hfront : ∀ c ∈ cs.takeWhile (fun c => !sep c), sep c = false := fun c hc => by
      simpa using mem_takeWhile_imp hc
    have hsplit : cs.takeWhile (fun c => !sep c) ++ cs.dropWhile (fun c => !sep c) = cs :=
      takeWhile_append_dropWhile
    cases hrest : cs.dropWhile fun c => !sep c with
    | nil =>
      rw [hrest, append_nil] at hsplit
      rw [hsplit] at hfront
      refine h cs ?_
      rw [splitOnP_eq_singleton hfront]
      exact mem_singleton.mpr rfl
    | cons c rest =>
      have hc : sep c := by
        have hhead := head_dropWhile_not (l := cs) (fun c => !sep c) (by simp [hrest])
        simpa [hrest] using hhead
      rw [hrest] at hsplit
      rw [← hsplit, splitOnP_append_cons_of_forall_mem hfront c hc] at h
      have hlt : rest.length < n := by
        rw [← hn, ← hsplit, length_append, length_cons]
        omega
      rw [← hsplit, hf c hc, hg c hc, h _ mem_cons_self,
        ih _ hlt (fun word hword => h word (mem_cons_of_mem _ hword)) rfl]

lemma fillInTurn_hole_iff (h : Distinct texts) :
  (∀ e ∈ texts, fillInTurn texts (hole e.1) = e.2.toList) ↔ Lasting texts := by
  induction texts with
  | nil => exact ⟨fun _ => trivial, fun _ => forall_mem_nil _⟩
  | cons e texts ih =>
    have he := h.braceless e mem_cons_self
    have hsingle : ∀ e' ∈ [e], Braceless e'.1 := forall_mem_singleton.mpr he
    have hfirst : fillInTurn (e :: texts) (hole e.1) = fillInTurn texts e.2.toList := by
      rw [fillInTurn_cons, fillOnce_hole_self hsingle he, lookup_cons_self, elim_some]
    have hlater : ∀ e' ∈ texts, fillInTurn (e :: texts) (hole e'.1) = fillInTurn texts (hole e'.1) := by
      intro e' he'
      have hlookup : [e].lookup e'.1 = none :=
        lookup_eq_none_iff.mpr (forall_mem_singleton.mpr (bne_iff_ne.mpr (h.ne e' he')))
      rw [fillInTurn_cons, fillOnce_hole_self hsingle (h.tail.braceless e' he'), hlookup, elim_none]
    rw [forall_mem_cons, hfirst, Lasting, ← ih h.tail]
    refine and_congr_right fun _ => forall₂_congr fun e' he' => ?_
    rw [hlater e' he']

lemma Distinct.lookup_eq_some (h : Distinct texts) (he : e ∈ texts) :
  texts.lookup e.1 = some e.2 := by
  induction texts with
  | nil => cases he
  | cons e' texts ih =>
    rcases mem_cons.mp he with rfl | he
    · exact lookup_cons_self
    · rw [lookup_cons, beq_false_of_ne (h.ne e he), ih h.tail he]

lemma fillOnce_mem (h : Distinct texts) (he : e ∈ texts) :
  fillOnce texts (hole e.1) = e.2.toList := by
  rw [fillOnce_hole_self h.braceless (h.braceless e he), h.lookup_eq_some he, elim_some]

lemma isHoleChar_of_mem {n : String} (hn : n.toList.all isHoleChar) :
  ∀ c ∈ hole n, isHoleChar c := by
  intro c hc
  rw [hole_eq, mem_cons, mem_cons, mem_append] at hc
  rcases hc with rfl | rfl | hc | hc
  · rfl
  · rfl
  · exact all_eq_true.mp hn c hc
  · have hclosing : ['\x7d', '\x7d'].all isHoleChar := rfl
    exact all_eq_true.mp hclosing c hc

lemma fillInTurn_eq_iff_of_setOff (h : Distinct texts)
  (hchars : ∀ e ∈ texts, e.1.toList.all isHoleChar) :
  (∀ template, SetOff (texts.map Prod.fst) template →
    fillInTurn texts template.toList = fillOnce texts template.toList) ↔ Lasting texts := by
  have hsep : ∀ c, (!isHoleChar c) → ∀ e ∈ texts, c ∉ hole e.1 := by
    intro c hc e he hmem
    rw [isHoleChar_of_mem (hchars e he) c hmem] at hc
    cases hc
  rw [← fillInTurn_hole_iff h]
  constructor
  · intro hsame e he
    -- A template that is nothing but the placeholder is one of those.
    have hword : (hole e.1).splitOnP (fun c => !isHoleChar c) = [hole e.1] :=
      splitOnP_eq_singleton fun c hc => by rw [isHoleChar_of_mem (hchars e he) c hc]; rfl
    have hoff : SetOff (texts.map Prod.fst) (placeholder e.1) := by
      intro word hmem
      rw [← hole, hword, mem_singleton] at hmem
      exact .inl ⟨e.1, mem_map_of_mem he, hmem⟩
    rw [← fillOnce_mem h he]
    exact hsame _ hoff
  · intro hfilled template hoff
    refine eq_of_words (fun c hc => fillInTurn_cut (hsep c hc)) (fun c hc => fillOnce_cut (hsep c hc))
      fun word hword => ?_
    rcases hoff word hword with ⟨n, hn, rfl⟩ | hfree
    · rcases mem_map.mp hn with ⟨e, he, rfl⟩
      rw [hfilled e he, fillOnce_mem h he]
    · have hnone : ∀ e ∈ texts, ¬ hole e.1 <:+: word := fun e he =>
        hfree e.1 (mem_map_of_mem he)
      rw [fillInTurn_eq_self hnone, fillOnce_eq_self hnone]

lemma lasting_of_free (h : ∀ e ∈ texts, ∀ e' ∈ texts, ¬ hole e'.1 <:+: e.2.toList) :
  Lasting texts := by
  induction texts with
  | nil => trivial
  | cons e texts ih =>
    refine ⟨fillInTurn_eq_self fun e' he' => h e mem_cons_self e' (mem_cons_of_mem e he'),
      ih fun e₁ he₁ e₂ he₂ => h e₁ (mem_cons_of_mem e he₁) e₂ (mem_cons_of_mem e he₂)⟩

variable {config : Json} {lib : Library} {now : String} {highlighting : Bool} {v : Vocabulary}

/-- The names of the placeholders of a page, in the order of filling. -/
def pageHoles : List String :=
  ["LIBRARY_NAME", "VERSION", "SCOPE", "KEYWORD_COUNT", "KEYWORD_LIST", "INTRO_SECTION",
    "KEYWORDS_SECTION", "LAST_UPDATE", "LIBRARY_META", "HERO_ACTIONS", "SAMPLE_USAGE",
    "GITHUB_ISSUE_BUTTON"]

/-- A placeholder with the text that fills it. -/
def filling (e : String × Value) : Except Fault (String × String) := do
  return (e.1, ← fillingText e.2)

def pageTexts (config : Json) (lib : Library) (now : String) (highlighting : Bool) :
  Highlighting (List (String × String)) := do
  let values ← fillings config lib now highlighting
  (values.mapM filling : Except Fault _)

/-- The page of a library, filled in one pass. -/
def htmlOnce (config : Json) (lib : Library) (now : String)
  (highlighting : Bool) : Highlighting String := do
  return String.ofList (fillOnce (← pageTexts config lib now highlighting) template.toList)

lemma fill_eq (values : List (String × Value)) :
  fill template values = (values.mapM filling).map fun texts =>
    String.ofList (fillInTurn texts template.toList) := by
  induction values generalizing template with
  | nil => exact congrArg Except.ok (String.ofList_toList).symm
  | cons e values ih =>
    rw [fill_cons, mapM_cons, filling]
    cases fillingText e.2 with
    | error f => rfl
    | ok s =>
      have hrest := ih (replace (placeholder e.1) s template)
      rw [replace, String.toList_ofList] at hrest
      refine hrest.trans ?_
      cases values.mapM filling <;> rfl

lemma outcome_html : outcome (html template config lib now highlighting) v =
    ((outcome (pageTexts config lib now highlighting) v).1.map fun texts =>
      String.ofList (fillInTurn texts template.toList),
    (outcome (pageTexts config lib now highlighting) v).2) := by
  rw [html, pageTexts, outcome_bind, outcome_bind]
  rcases outcome (fillings config lib now highlighting) v with ⟨r, v'⟩
  cases r with
  | error e => rfl
  | ok values =>
    dsimp only
    rw [fill_eq]
    rfl

lemma names_of_mapM_filling {values : List (String × Value)}
  (h : values.mapM filling = .ok texts) : texts.map Prod.fst = values.map Prod.fst := by
  induction mapM_eq_ok_iff.mp h with
  | nil => rfl
  | cons he hrest ih =>
    rcases bind_eq_ok.mp he with ⟨s, -, hpair⟩
    cases hpair
    rw [map_cons, map_cons, ih (mapM_eq_ok_iff.mpr hrest)]

/-- What is between two entries of a list on a page. -/
def indent : String := "\n        "

section

variable (h : (outcome (pageTexts config lib now highlighting) v).1 = .ok texts)

include h

lemma pageTexts_eq_ok : ∃ (items : List (String × String)) (values : List (String × Value)),
    lib.keywords.mapM (fun k => do return (← keywordLink k, ← keywordSection k)) = .ok items ∧
    values.mapM filling = .ok texts ∧ values.map Prod.fst = pageHoles ∧
    ("KEYWORD_LIST", .str (join indent (items.map Prod.fst))) ∈ values ∧
    ("KEYWORDS_SECTION", .str (join indent (items.map Prod.snd))) ∈ values := by
  have hrun : outcome (pageTexts config lib now highlighting) v = (.ok texts, _) := Prod.ext h rfl
  rcases outcome_bind_eq_ok hrun with ⟨values, v₁, hvalues, htexts⟩
  rcases outcome_bind_eq_ok hvalues with ⟨items, v₂, hitems, hvalues⟩
  rcases outcome_bind_eq_ok hvalues with ⟨intro, v₃, -, hvalues⟩
  rcases outcome_bind_eq_ok hvalues with ⟨issues, v₄, -, hvalues⟩
  refine ⟨items, values, congrArg Prod.fst hitems, congrArg Prod.fst htexts, ?_⟩
  split at hvalues
  · rcases outcome_bind_eq_ok hvalues with ⟨sample, v₅, -, hvalues⟩
    cases hvalues
    exact ⟨rfl, by simp [indent], by simp [indent]⟩
  · cases hvalues
    exact ⟨rfl, by simp [indent], by simp [indent]⟩

lemma pageTexts_names : texts.map Prod.fst = pageHoles := by
  rcases pageTexts_eq_ok h with ⟨_, values, -, htexts, hnames, -⟩
  rw [names_of_mapM_filling htexts, hnames]

lemma pageTexts_distinct : Distinct texts ∧ ∀ e ∈ texts, e.1.toList.all isHoleChar := by
  have hnames := pageTexts_names h
  have hbraceless : ∀ n ∈ pageHoles, Braceless n := by decide
  have hchars : ∀ n ∈ pageHoles, n.toList.all isHoleChar := by decide
  have hmem : ∀ e ∈ texts, e.1 ∈ pageHoles := fun e he => hnames ▸ mem_map_of_mem he
  exact ⟨⟨hnames ▸ (by decide), fun e he => hbraceless _ (hmem e he)⟩, fun e he => hchars _ (hmem e he)⟩

end

lemma html_eq_iff : outcome (html template config lib now highlighting) v =
    outcome (htmlOnce template config lib now highlighting) v ↔
  ∀ texts, (outcome (pageTexts config lib now highlighting) v).1 = .ok texts →
    fillInTurn texts template.toList = fillOnce texts template.toList := by
  rw [outcome_html, htmlOnce, outcome_map, Prod.mk.injEq, and_iff_left rfl]
  cases (outcome (pageTexts config lib now highlighting) v).1 with
  | error f => exact ⟨fun _ => nofun, fun _ => rfl⟩
  | ok texts => simp [Except.map, String.ofList_inj]

/-- When the page of a library is its template filled in one pass. That is so for all templates if and
only if no text is disturbed by the placeholders after it wherever it stands, and for all templates
with placeholders that are set off if and only if no text is changed by the placeholders after it.
None is changed if none has a placeholder in it. -/
theorem html_eq_htmlOnce_iff (config : Json) (lib : Library) (now : String) (highlighting : Bool)
  (v : Vocabulary) :
  ((∀ template, outcome (html template config lib now highlighting) v =
      outcome (htmlOnce template config lib now highlighting) v) ↔
    ∀ texts, (outcome (pageTexts config lib now highlighting) v).1 = .ok texts →
      Undisturbed texts) ∧
  ((∀ template, SetOff pageHoles template →
      outcome (html template config lib now highlighting) v =
        outcome (htmlOnce template config lib now highlighting) v) ↔
    ∀ texts, (outcome (pageTexts config lib now highlighting) v).1 = .ok texts → Lasting texts) ∧
  ((∀ texts, (outcome (pageTexts config lib now highlighting) v).1 = .ok texts →
      ∀ e ∈ texts, ∀ n ∈ pageHoles, ¬ hole n <:+: e.2.toList) →
    ∀ template, SetOff pageHoles template →
      outcome (html template config lib now highlighting) v =
        outcome (htmlOnce template config lib now highlighting) v) := by
  simp only [html_eq_iff]
  have hsetOff : (∀ template, SetOff pageHoles template → ∀ texts,
      (outcome (pageTexts config lib now highlighting) v).1 = .ok texts →
        fillInTurn texts template.toList = fillOnce texts template.toList) ↔
      ∀ texts, (outcome (pageTexts config lib now highlighting) v).1 = .ok texts → Lasting texts := by
    refine ⟨fun h texts htexts => ?_, fun h template hoff texts htexts => ?_⟩
    all_goals rcases pageTexts_distinct htexts with ⟨hdistinct, hchars⟩
    · refine (fillInTurn_eq_iff_of_setOff hdistinct hchars).mp fun template hoff => ?_
      exact h template (pageTexts_names htexts ▸ hoff) texts htexts
    · exact (fillInTurn_eq_iff_of_setOff hdistinct hchars).mpr (h texts htexts) template
        ((pageTexts_names htexts).symm ▸ hoff)
  refine ⟨⟨fun h texts htexts => ?_, fun h template texts htexts => ?_⟩, hsetOff, fun hfree =>
    hsetOff.mpr fun texts htexts => lasting_of_free fun e he e' he' => ?_⟩
  · refine (fillInTurn_eq_iff (pageTexts_distinct htexts).1).mp fun cs => ?_
    have hcs := h (String.ofList cs) texts htexts
    rwa [String.toList_ofList] at hcs
  · exact (fillInTurn_eq_iff (pageTexts_distinct htexts).1).mpr (h texts htexts) template.toList
  · exact hfree texts htexts e he e'.1 (pageTexts_names htexts ▸ mem_map_of_mem he')

def namedVersion : Library where
  name := .str (placeholder "VERSION")
  version := .str "1.0"
  scope := .str "TEST"
  description := .str ""

/-- The name of a library is taken for a placeholder. -/
theorem html_eq_htmlOnce_iff_named_version :
  (outcome (html (placeholder "LIBRARY_NAME") (.obj []) namedVersion "" false) {}).1 = .ok "1.0" ∧
  ¬ ∀ template, SetOff pageHoles template →
    outcome (html template (.obj []) namedVersion "" false) {} =
      outcome (htmlOnce template (.obj []) namedVersion "" false) {} := by
  refine ⟨by decide +kernel, fun h => ?_⟩
  have hlasting := (html_eq_htmlOnce_iff (.obj []) namedVersion "" false {}).2.1.mp h _ rfl
  exact absurd hlasting.1 (by decide)

end KeywordDocs.Page
