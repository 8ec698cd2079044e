import KeywordDocs.Proofs.Markup.Entities

/-!
# Lines as Signs

Inline markup is made by eight rewritings of one text, each of which finds its marks in what the ones before
it made. So it has to be shown that none takes a part of a tag or an entity for something else.
-/

namespace KeywordDocs.Markup

open Text List

def codeMark : Emphasis := ⟨"`", "code"⟩

/-- The marks that come in pairs, in the order in which they are sought. -/
def lineMarks : List Emphasis := emphases ++ [codeMark]

/-- A mark that comes in pairs. -/
abbrev Mark := { e : Emphasis // e ∈ lineMarks }

/-- A character as it was written, or a mark that is shown as a tag. -/
inductive Sign where
  | char (c : Char)
  | opening (m : Mark)
  | closing (m : Mark)
  deriving DecidableEq

variable (a : List Sign) (g : Sign) (b : List Sign)

def Mark.signs (m : Mark) : List Sign := m.1.mark.toList.map .char

def Sign.source : Sign → List Char
  | .char c => [c]
  | .opening m | .closing m => m.1.mark.toList

def Sign.text : Sign → List Char
  | .char c => written entities c
  | .opening m => ("<" ++ m.1.element ++ ">").toList
  | .closing m => ("</" ++ m.1.element ++ ">").toList

/-- What is shown for some signs. -/
def texts (signs : List Sign) : List Char := signs.flatMap Sign.text

/-- A sign, or an end of a link to a target. -/
inductive Node where
  | sign (g : Sign)
  | linkStart (target : List Sign)
  | linkEnd (target : List Sign)

def Node.text : Node → List Char
  | .sign g => g.text
  | .linkStart target => "<a href=\"".toList ++ texts target ++ "\">".toList
  | .linkEnd _ => "</a>".toList

def Node.signs : Node → List Sign
  | .sign g => [g]
  | .linkStart _ => [.char '[']
  | .linkEnd target => .char ']' :: .char '(' :: (target ++ [.char ')'])

variable {c : Char} {signs : List Sign}

def isBare (c : Char) : Bool := ['*', '_', '+', '~', '`', '[', ']', '(', ')'].contains c

lemma texts_nil : texts [] = [] := rfl

lemma texts_cons (signs : List Sign) : texts (g :: signs) = g.text ++ texts signs := flatMap_cons

lemma texts_append : texts (a ++ b) = texts a ++ texts b := flatMap_append

lemma written_entities (c : Char) : (∃ e ∈ entities, e.1 = c ∧ written entities c = e.2.toList) ∨
  (c ∉ entities.map Prod.fst ∧ written entities c = [c]) := by
  by_cases hc : c ∈ entities.map Prod.fst
  · have hall : ∀ e ∈ entities, written entities e.1 = e.2.toList := by decide
    rcases mem_map.mp hc with ⟨e, he, rfl⟩
    exact .inl ⟨e, he, rfl, hall e he⟩
  · exact .inr ⟨hc, written_of_not_key hc⟩

lemma text_of_bare (hc : isBare c) : (Sign.char c).text = [c] := by
  rcases written_entities c with ⟨e, he, rfl, -⟩ | ⟨-, htext⟩
  · have hall : ∀ e ∈ entities, isBare e.1 = false := by decide
    rw [hall e he] at hc
    cases hc
  · exact htext

lemma texts_char (hc : isBare c) (signs : List Sign) :
  texts (.char c :: signs) = c :: texts signs := by
  rw [texts_cons, text_of_bare hc]
  rfl

lemma not_mem_of_unbare (hc : isBare c) {cs : List Char}
  (hcs : cs.all (fun x => !isBare x)) : c ∉ cs := by
  intro hmem
  have hnot := all_eq_true.mp hcs c hmem
  rw [hc] at hnot
  cases hnot

lemma not_mem_text_of_bare (hc : isBare c) {g : Sign} (hg : g ≠ .char c) : c ∉ g.text := by
  intro hmem
  cases g with
  | char d =>
    rcases written_entities d with ⟨e, he, rfl, htext⟩ | ⟨-, htext⟩
    · have hall : ∀ e ∈ entities, e.2.toList.all (fun x => !isBare x) := by decide
      rw [Sign.text, htext] at hmem
      exact not_mem_of_unbare hc (hall e he) hmem
    · rw [Sign.text, htext, mem_singleton] at hmem
      exact hg (hmem ▸ rfl)
  | opening m =>
    have hall : ∀ e ∈ lineMarks,
        ("<" ++ e.element ++ ">").toList.all (fun x => !isBare x) := by decide
    exact not_mem_of_unbare hc (hall m.1 m.2) hmem
  | closing m =>
    have hall : ∀ e ∈ lineMarks,
        ("</" ++ e.element ++ ">").toList.all (fun x => !isBare x) := by decide
    exact not_mem_of_unbare hc (hall m.1 m.2) hmem

lemma text_ne_nil : g.text ≠ [] := by
  cases g with
  | char c =>
    rcases written_entities c with ⟨e, he, -, htext⟩ | ⟨-, htext⟩
    · have hall : ∀ e ∈ entities, e.2.toList ≠ [] := by decide
      rw [Sign.text, htext]
      exact hall e he
    · rw [Sign.text, htext]
      exact cons_ne_nil c []
  | opening m => simp [Sign.text]
  | closing m => simp [Sign.text]

lemma eq_nil_of_texts (h : texts signs = []) : signs = [] := by
  cases signs with
  | nil => rfl
  | cons g signs =>
    rw [texts_cons, append_eq_nil_iff] at h
    cases (text_ne_nil g) h.1

lemma cut_texts (hc : isBare c) {a b : List Char} (h : texts signs = a ++ c :: b) :
  ∃ before after, signs = before ++ .char c :: after ∧ texts before = a ∧ texts after = b := by
  induction signs generalizing a with
  | nil =>
    have hlength := congrArg List.length h
    simp [texts] at hlength
  | cons g signs ih =>
    rw [texts_cons] at h
    by_cases hg : g = .char c
    · subst hg
      rw [text_of_bare hc] at h
      cases a with
      | nil => exact ⟨[], signs, rfl, rfl, (cons.inj h).2⟩
      | cons d a =>
        rcases cons.inj h with ⟨rfl, hrest⟩
        rcases ih hrest with ⟨before, after, rfl, rfl, rfl⟩
        exact ⟨.char c :: before, after, rfl, texts_char hc before, rfl⟩
    · -- The sign ends before the cut, because the character is not part of it.
      have hnot := not_mem_text_of_bare hc hg
      rcases append_eq_append_iff.mp h with ⟨a', rfl, hrest⟩ | ⟨m, htext, hrest⟩
      · rcases ih hrest with ⟨before, after, rfl, rfl, rfl⟩
        exact ⟨g :: before, after, rfl, texts_cons g before, rfl⟩
      · cases m with
        | nil =>
          rw [append_nil] at htext
          rcases ih (a := []) hrest.symm with ⟨before, after, rfl, hbefore, rfl⟩
          obtain rfl := eq_nil_of_texts hbefore
          exact ⟨[g], after, rfl, by rw [texts_cons, htext]; exact append_nil a, rfl⟩
        | cons d m =>
          obtain rfl := (cons.inj hrest).1
          rw [htext] at hnot
          cases hnot (mem_append_right a mem_cons_self)

lemma cut_head (hc : isBare c) {rest : List Char} (h : texts signs = c :: rest) :
  ∃ after, signs = .char c :: after ∧ texts after = rest := by
  rcases cut_texts (a := []) hc h with ⟨before, after, rfl, hbefore, hafter⟩
  obtain rfl := eq_nil_of_texts hbefore
  exact ⟨after, rfl, hafter⟩

lemma cut_front {mark rest : List Char} (hmark : ∀ c ∈ mark, isBare c)
  (h : texts signs = mark ++ rest) :
  ∃ after, signs = mark.map .char ++ after ∧ texts after = rest := by
  induction mark generalizing signs with
  | nil => exact ⟨signs, rfl, h⟩
  | cons c mark ih =>
    rcases cut_head (hmark c mem_cons_self) h with ⟨after, rfl, hafter⟩
    rcases ih (fun d hd => hmark d (mem_cons_of_mem c hd)) hafter with ⟨last, rfl, hlast⟩
    exact ⟨last, rfl, hlast⟩

lemma texts_of_bare {mark : List Char} (hmark : ∀ c ∈ mark, isBare c) :
  texts (mark.map .char) = mark := by
  induction mark with
  | nil => rfl
  | cons c mark ih =>
    rw [map_cons, texts_char (hmark c mem_cons_self), ih fun d hd => hmark d (mem_cons_of_mem c hd)]

/-- Where an element begins or ends. -/
inductive Edge where
  | start (element : String)
  | stop (element : String)
  deriving DecidableEq

/-- What begins or ends at a sign. -/
def Sign.edge? : Sign → Option Edge
  | .char _ => none
  | .opening m => some (.start m.1.element)
  | .closing m => some (.stop m.1.element)

/-- What begins and ends in some signs. -/
def edges (signs : List Sign) : List Edge := signs.filterMap Sign.edge?

/-- Edges of which those of an element are balanced: nothing ends that has not begun, and everything
that begins also ends. -/
structure Balanced (x : String) (w : List Edge) : Prop where
  ahead : ∀ p, p <+: w → p.count (.stop x) ≤ p.count (.start x)
  settled : w.count (.stop x) = w.count (.start x)

lemma edges_append : edges (a ++ b) = edges a ++ edges b := filterMap_append

lemma edges_cons (signs : List Sign) : edges (g :: signs) = edges [g] ++ edges signs := edges_append [g] signs

lemma edges_chars (cs : List Char) : edges (cs.map .char) = [] := by
  rw [edges, filterMap_eq_nil_iff]
  intro g hg
  rcases mem_map.mp hg with ⟨c, -, rfl⟩
  rfl

lemma Balanced.nil (x : String) : Balanced x [] := by
  refine ⟨fun p hp => ?_, rfl⟩
  rw [prefix_nil.mp hp]
  exact Nat.le_refl _

universe u

variable {α : Type u} {keep : Sign → α} {find : List Sign → List α → Prop} {out : List Sign}

/-- Signs are kept one by one, or found together. -/
inductive Rewrites (keep : Sign → α) (find : List Sign → List α → Prop) :
  List Sign → List α → Prop where
  | nil : Rewrites keep find [] []
  | keep (g : Sign) (signs : List Sign) (out : List α) (h : Rewrites keep find signs out) :
      Rewrites keep find (g :: signs) (keep g :: out)
  | found (a : List Sign) (b : List α) (signs : List Sign) (out : List α) (hfound : find a b)
      (h : Rewrites keep find signs out) : Rewrites keep find (a ++ signs) (b ++ out)

lemma rewrites_of_walk {r : Recogniser (List Char)} {text : α → List Char} {start : Char}
  (hr : Blind r) (hneeds : Needs r [start]) (hstart : isBare start)
  (hkeep : ∀ g, text (keep g) = g.text)
  (hfind : ∀ signs new n, r none (texts signs) = some (new, n) → ∃ a b rest, signs = a ++ rest ∧
    a ≠ [] ∧ n = (texts a).length ∧ new = b.flatMap text ∧ find a b) (signs : List Sign) :
  ∃ out, replaceFinds r (texts signs) = out.flatMap text ∧ Rewrites keep find signs out := by
  induction hn : signs.length using Nat.strong_induction_on generalizing signs with
  | _ n ih =>
    cases signs with
    | nil => exact ⟨[], rfl, .nil⟩
    | cons g signs =>
      cases hfound : r none (texts (g :: signs)) with
      | none =>
        rcases ih signs.length (by rw [← hn]; exact Nat.lt_succ_self _) signs rfl with
          ⟨out, hout, hrewrites⟩
        refine ⟨keep g :: out, ?_, .keep g signs out hrewrites⟩
        rw [flatMap_cons, hkeep, ← hout, texts_cons]
        refine replaceFinds_front hr fun c rest hsuffix => ?_
        -- A find could only begin with the sign itself, and there it does not.
        by_cases hg : g = .char start
        · subst hg
          rw [text_of_bare hstart] at hsuffix
          rcases suffix_cons_iff.mp hsuffix with heq | hnil
          · rw [heq, ← text_of_bare hstart, ← texts_cons]
            exact hfound
          · cases (cons_ne_nil c rest) (suffix_nil.mp hnil)
        · refine hneeds none _ fun hp => not_mem_text_of_bare hstart hg ?_
          rw [cons_append, cons_prefix_cons] at hp
          rw [hp.1]
          exact hsuffix.subset mem_cons_self
      | some found =>
        rcases found with ⟨new, k⟩
        rcases hfind _ _ _ hfound with ⟨a, b, rest, hsplit, ha, rfl, rfl, hab⟩
        have hlength : rest.length < n := by
          have hpos := length_pos_iff.mpr ha
          have hsum := congrArg List.length hsplit
          rw [length_append] at hsum
          omega
        rcases ih rest.length hlength rest rfl with ⟨out, hout, hrewrites⟩
        refine ⟨b ++ out, ?_, hsplit ▸ .found a b rest out hab hrewrites⟩
        rw [hsplit, texts_append] at hfound ⊢
        rw [flatMap_append, ← hout]
        exact replaceFinds_found hr (fun hnil => ha (eq_nil_of_texts hnil)) hfound

variable {m : Mark}

def PairOf (m : Mark) (a b : List Sign) : Prop :=
  ∃ body, a = m.signs ++ (body ++ m.signs) ∧ b = .opening m :: (body ++ [.closing m])

lemma mark_bare (m : Mark) : ∀ c ∈ m.1.mark.toList, isBare c := by
  have hall : ∀ e ∈ lineMarks, e.mark.toList.all isBare := by decide
  exact all_eq_true.mp (hall m.1 m.2)

lemma mark_ne_nil (m : Mark) : m.1.mark.toList ≠ [] := by
  have hall : ∀ e ∈ lineMarks, e.mark.toList ≠ [] := by decide
  exact hall m.1 m.2

lemma exists_pair {body rest : List Char}
  (h : texts signs = m.1.mark.toList ++ (body ++ (m.1.mark.toList ++ rest))) :
  ∃ a b after, signs = a ++ after ∧ a ≠ [] ∧
    m.1.mark.length + body.length + m.1.mark.length = (texts a).length ∧
    element m.1.element body = b.flatMap Sign.text ∧ PairOf m a b := by
  have hbare := mark_bare m
  have hmark : texts m.signs = m.1.mark.toList := texts_of_bare hbare
  rcases cut_front hbare h with ⟨after, rfl, hafter⟩
  -- The first character of the second mark cuts off what is between the marks.
  rcases hm : m.1.mark.toList with _ | ⟨c, cs⟩
  · cases (mark_ne_nil m) hm
  · rw [hm] at hafter
    rcases cut_texts (hbare c (by rw [hm]; exact mem_cons_self)) hafter with
      ⟨inner, last, rfl, rfl, hlast⟩
    rcases cut_front (fun d hd => hbare d (by rw [hm]; exact mem_cons_of_mem c hd)) hlast with
      ⟨last, rfl, -⟩
    refine ⟨m.signs ++ (inner ++ m.signs), .opening m :: (inner ++ [.closing m]), last, ?_, ?_, ?_, ?_,
      inner, rfl, rfl⟩
    · simp [Mark.signs, hm]
    · simp [Mark.signs, hm]
    · rw [texts_append, texts_append, hmark, length_append, length_append,
        String.length_toList, Nat.add_assoc]
    · rw [flatMap_cons, flatMap_append, flatMap_singleton, element, append_assoc]
      rfl

lemma between_rewrites (m : Mark) (signs : List Sign) :
  ∃ out, replaceFinds (between m.1) (texts signs) = texts out ∧ Rewrites id (PairOf m) signs out := by
  rcases hm : m.1.mark.toList with _ | ⟨c, cs⟩
  · cases (mark_ne_nil m) hm
  · have hneeds : Needs (between m.1) [c] := by
      intro b text hnot
      refine enclosedLine_needs b text fun hp => hnot ?_
      rw [hm] at hp
      exact List.IsPrefix.trans ⟨cs, rfl⟩ hp
    refine rewrites_of_walk enclosedLine_blind hneeds (mark_bare m c (by rw [hm]; exact mem_cons_self))
      (fun _ => rfl) (fun signs new n hfound => ?_) signs
    rcases Option.bind_eq_some_iff.mp hfound with ⟨rest, hrest, hfound⟩
    rcases Option.bind_eq_some_iff.mp hfound with ⟨body, hbody, hfound⟩
    rcases upTo_eq_some hbody with ⟨rest', hsplit⟩
    cases hfound
    have htext : texts signs = m.1.mark.toList ++ (body ++ (m.1.mark.toList ++ rest')) := by
      rw [dropPrefix?_eq_some hrest, hsplit, append_assoc]
    exact exists_pair htext

lemma codeSpan_rewrites (signs : List Sign) :
  ∃ out, replaceFinds codeSpan (texts signs) = texts out ∧
    Rewrites id (PairOf ⟨codeMark, by decide⟩) signs out := by
  have hblind : Blind codeSpan := by
    intro b b' cs
    cases cs with
    | nil => rfl
    | cons c cs =>
      by_cases hc : c = '`'
      · subst hc
        rfl
      · rw [codeSpan_eq_none hc, codeSpan_eq_none hc]
  refine rewrites_of_walk hblind codeSpan_needs (by decide) (fun _ => rfl) (fun signs new n hfound => ?_) signs
  unfold codeSpan at hfound
  split at hfound
  case h_2 => cases hfound
  case h_1 cs htexts =>
    rcases Option.bind_eq_some_iff.mp hfound with ⟨⟨body, rest⟩, hbody, hfound⟩
    cases hfound
    have htext : texts signs = "`".toList ++ (body ++ ("`".toList ++ rest)) := by
      rw [htexts, filledUpTo_eq_some hbody]
      rfl
    rcases exists_pair (m := ⟨codeMark, by decide⟩) htext with ⟨a, b, after, hsplit, ha, hlength, hb, hab⟩
    refine ⟨a, b, after, hsplit, ha, ?_, hb, hab⟩
    rw [← hlength]
    show body.length + 2 = 1 + body.length + 1
    omega

lemma Rewrites.source (h : Rewrites id (PairOf m) signs out) :
  out.flatMap Sign.source = signs.flatMap Sign.source := by
  have hmark : m.signs.flatMap Sign.source = m.1.mark.toList := by
    rw [Mark.signs, flatMap_map]
    exact flatMap_singleton' _
  induction h with
  | nil => rfl
  | keep g signs out _ ih => rw [flatMap_cons, flatMap_cons, ih, id]
  | found a b signs out hfound _ ih =>
    rcases hfound with ⟨body, rfl, rfl⟩
    simp only [flatMap_append, flatMap_cons, flatMap_nil, append_nil, hmark, ih]
    rfl

lemma edges_pair {a b : List Sign} (h : PairOf m a b) :
  ∃ w, edges a = w ∧ edges b = .start m.1.element :: (w ++ [.stop m.1.element]) := by
  rcases h with ⟨body, rfl, rfl⟩
  refine ⟨edges body, ?_, ?_⟩
  · rw [edges_append, edges_append, Mark.signs, edges_chars, nil_append, append_nil]
  · rw [edges_cons, edges_append]
    rfl

lemma Rewrites.count_edges (h : Rewrites id (PairOf m) signs out) (x : String) :
  (edges out).count (.start x) + (edges signs).count (.stop x) =
    (edges out).count (.stop x) + (edges signs).count (.start x) := by
  induction h with
  | nil => rfl
  | keep g signs out _ ih =>
    rw [edges_cons, edges_cons g signs]
    simp only [count_append, id]
    omega
  | found a b signs out hfound _ ih =>
    rcases edges_pair hfound with ⟨w, ha, hb⟩
    rw [edges_append, edges_append, ha, hb]
    by_cases hx : m.1.element = x
    · simp [count_append, hx]
      omega
    · simp [count_append, hx]
      omega

lemma prefix_append_cases {p a b : List Edge} (h : p <+: a ++ b) :
  p <+: a ∨ ∃ q, q <+: b ∧ p = a ++ q := by
  rcases prefix_or_prefix_of_prefix h (prefix_append a b) with hp | ⟨q, rfl⟩
  · exact .inl hp
  · exact .inr ⟨q, (prefix_append_right_inj a).mp h, rfl⟩

lemma Rewrites.exists_prefix (h : Rewrites id (PairOf m) signs out) {p : List Edge}
  (hp : p <+: edges out) : ∃ q, q <+: edges signs ∧ ∀ x,
    q.count (.start x) + p.count (.stop x) ≤ p.count (.start x) + q.count (.stop x) := by
  induction h generalizing p with
  | nil =>
    rw [prefix_nil.mp hp]
    exact ⟨[], nil_prefix, fun _ => Nat.le_refl _⟩
  | keep g signs out _ ih =>
    rw [edges_cons] at hp ⊢
    rcases prefix_append_cases hp with hp | ⟨p', hp', rfl⟩
    · exact ⟨p, hp.trans (prefix_append _ _), fun x => by omega⟩
    · rcases ih hp' with ⟨q, hq, hle⟩
      refine ⟨edges [g] ++ q, (prefix_append_right_inj _).mpr hq, fun x => ?_⟩
      have hx := hle x
      simp only [count_append, id]
      omega
  | found a b signs out hfound _ ih =>
    rcases edges_pair hfound with ⟨w, ha, hb⟩
    rw [edges_append, hb] at hp
    rw [edges_append, ha]
    -- One stops before the pair, between its marks, or after it.
    rcases prefix_append_cases hp with hp | ⟨p', hp', rfl⟩
    · rcases prefix_cons_iff.mp hp with rfl | ⟨p', rfl, hp'⟩
      · exact ⟨[], nil_prefix, fun _ => Nat.le_refl _⟩
      · rcases prefix_append_cases hp' with hinner | ⟨last, hlast, rfl⟩
        · refine ⟨p', hinner.trans (prefix_append _ _), fun x => ?_⟩
          simp [count_cons]
        · refine ⟨w, prefix_append _ _, fun x => ?_⟩
          have hle : last.count (.stop x) ≤ [Edge.stop m.1.element].count (.stop x) := hlast.sublist.count_le _
          by_cases hx : m.1.element = x
          · simp [hx] at hle ⊢
            omega
          · simp [hx] at hle ⊢
            omega
    · rcases ih hp' with ⟨q, hq, hle⟩
      refine ⟨w ++ q, (prefix_append_right_inj _).mpr hq, fun x => ?_⟩
      have hx := hle x
      by_cases hm : m.1.element = x
      · simp [count_append, hm]
        omega
      · simp [count_append, hm]
        omega

lemma Rewrites.balanced (h : Rewrites id (PairOf m) signs out) {x : String}
  (hsigns : Balanced x (edges signs)) : Balanced x (edges out) := by
  refine ⟨fun p hp => ?_, ?_⟩
  · rcases h.exists_prefix hp with ⟨q, hq, hle⟩
    have hbefore := hsigns.ahead q hq
    have hx := hle x
    omega
  · have hcount := h.count_edges x
    have hsettled := hsigns.settled
    omega

variable {nodes : List Node}

def LinkOf (b : List Node) : Prop :=
  ∃ label target, a = .char '[' :: (label ++ .char ']' :: .char '(' :: (target ++ [.char ')'])) ∧
    b = .linkStart target :: (label.map .sign ++ [.linkEnd target])

/-- Nodes in which the ends of links belong together, and with nothing but signs between them. -/
inductive Linked : List Node → Prop where
  | nil : Linked []
  | sign (g : Sign) (nodes : List Node) (h : Linked nodes) : Linked (.sign g :: nodes)
  | link (label target : List Sign) (nodes : List Node) (h : Linked nodes) :
      Linked (.linkStart target :: (label.map .sign ++ .linkEnd target :: nodes))

lemma Node.text_linkStart (target : List Sign) :
  (Node.linkStart target).text = "<a href=\"".toList ++ texts target ++ "\">".toList :=
  rfl

lemma Node.text_linkEnd (target : List Sign) : (Node.linkEnd target).text = "</a>".toList := rfl

lemma flatMap_text_signs (signs : List Sign) : (signs.map .sign).flatMap Node.text = texts signs :=
  flatMap_map _ _ _

lemma flatMap_signs_signs (signs : List Sign) : (signs.map .sign).flatMap Node.signs = signs := by
  rw [flatMap_map]
  exact flatMap_singleton' signs

lemma link_rewrites (signs : List Sign) :
  ∃ nodes : List Node, replaceFinds link (texts signs) = nodes.flatMap Node.text ∧
    Rewrites .sign LinkOf signs nodes := by
  have hkeep : ∀ g, (Node.sign g).text = g.text := fun _ => rfl
  refine rewrites_of_walk (fun _ _ _ => rfl) link_needs (by decide) hkeep
    (fun signs new n hfound => ?_) signs
  rcases Option.bind_eq_some_iff.mp hfound with ⟨⟨label, target⟩, hparts, hfound⟩
  cases hfound
  rcases linkParts_eq_some hparts with ⟨rest, htexts⟩
  -- The signs are cut at the brackets one after another.
  rcases cut_head (c := '[') (by decide) htexts with ⟨after, rfl, hlabel⟩
  rcases cut_texts (c := ']') (by decide) hlabel with ⟨label, after, rfl, rfl, hparen⟩
  rcases cut_head (c := '(') (by decide) hparen with ⟨after, rfl, htarget⟩
  rcases cut_texts (c := ')') (by decide) htarget with ⟨target, after, rfl, rfl, -⟩
  refine ⟨_, _, after, ?_, ?_, ?_, ?_, label, target, rfl, rfl⟩
  · simp
  · simp
  · rw [texts_char (by decide), texts_append, texts_char (by decide), texts_char (by decide),
      texts_append, texts_char (by decide), texts_nil]
    simp only [length_cons, length_append, length_nil]
    omega
  · rw [flatMap_cons, flatMap_append, flatMap_text_signs, flatMap_singleton,
      Node.text_linkStart, Node.text_linkEnd, ← append_assoc]

lemma Rewrites.linked (h : Rewrites .sign LinkOf signs nodes) :
  nodes.flatMap Node.signs = signs ∧ Linked nodes := by
  induction h with
  | nil => exact ⟨rfl, .nil⟩
  | keep g signs nodes _ ih => exact ⟨by rw [flatMap_cons, ih.1]; rfl, .sign g nodes ih.2⟩
  | found a b signs nodes hfound _ ih =>
    rcases hfound with ⟨label, target, rfl, rfl⟩
    refine ⟨?_, ?_⟩
    · rw [flatMap_append, ih.1, flatMap_cons, flatMap_append, flatMap_signs_signs, flatMap_singleton]
      simp [Node.signs]
    · rw [cons_append, append_assoc]
      exact .link label target nodes ih.2

/-- The readings of a line: its nodes are shown as the line is, they stand where it was written, and
the edges of every element are balanced in it. -/
structure LineReading (s : String) (nodes : List Node) : Prop where
  text : nodes.flatMap Node.text = (inline s).toList
  source : (nodes.flatMap Node.signs).flatMap Sign.source = s.toList
  linked : Linked nodes
  balanced : ∀ x, Balanced x (edges (nodes.flatMap Node.signs))

lemma inline_reading (s : String) : ∃ nodes, LineReading s nodes := by
  -- One stage for every mark keeps the source, and keeps all edges balanced.
  have hstages : ∀ (es : List Emphasis) (signs : List Sign), (∀ e ∈ es, e ∈ lineMarks) →
      signs.flatMap Sign.source = s.toList → (∀ x, Balanced x (edges signs)) →
      ∃ out, texts out = (es.map between).foldl (fun cs r => replaceFinds r cs) (texts signs) ∧
        out.flatMap Sign.source = s.toList ∧ ∀ x, Balanced x (edges out) := by
    intro es
    induction es with
    | nil => exact fun signs _ hsource hbalanced => ⟨signs, rfl, hsource, hbalanced⟩
    | cons e es ih =>
      intro signs hes hsource hbalanced
      rcases between_rewrites ⟨e, hes e mem_cons_self⟩ signs with ⟨next, htext, hrewrites⟩
      rw [map_cons, foldl_cons, htext]
      exact ih next (fun e' he' => hes e' (mem_cons_of_mem e he'))
        (hrewrites.source.trans hsource) fun x => hrewrites.balanced (hbalanced x)
  have hescape : (escape s).toList = texts (s.toList.map .char) := by
    rw [escape, String.toList_ofList, replaceAll_eq_flatMap, texts, flatMap_map]
    rfl
  have hsource : (s.toList.map Sign.char).flatMap Sign.source = s.toList := by
    rw [flatMap_map]
    exact flatMap_singleton' _
  have hplain : ∀ x, Balanced x (edges (s.toList.map .char)) := fun x => by
    rw [edges_chars]
    exact .nil x
  rcases hstages emphases _ (fun e he => mem_append_left _ he) hsource hplain with
    ⟨emphasised, htext, hsource, hbalanced⟩
  rcases codeSpan_rewrites emphasised with ⟨coded, hcode, hrewrites⟩
  rcases link_rewrites coded with ⟨nodes, hlink, hnodes⟩
  rcases hnodes.linked with ⟨hsigns, hlinked⟩
  refine ⟨nodes, ?_, ?_, hlinked, fun x => ?_⟩
  · rw [inline, String.toList_ofList, inlineRecognisers, foldl_append, hescape, ← htext,
      foldl_cons, foldl_cons, foldl_nil, hcode, hlink]
  · rw [hsigns, hrewrites.source, hsource]
  · rw [hsigns]
    exact hrewrites.balanced (hbalanced x)

end KeywordDocs.Markup
