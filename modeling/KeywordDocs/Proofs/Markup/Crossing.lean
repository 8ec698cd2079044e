import KeywordDocs.Proofs.Markup.Injection

/-!
# Elements That Cross

When the tags of a line close in the reverse order of opening. A pair of one kind of marks can begin inside of
a pair of another kind and end outside of it; and links are sought last, so their targets can hold tags.
-/

namespace KeywordDocs.Markup

open Text List

variable {c : Char} {cs : List Char} {st : List String} {e : Edge} {x : String}

/-- Texts whose tags close in the reverse order of opening, if the elements of a stack are already
open. No tag stands in the target of a link. -/
inductive Nests : List String → List Char → Prop where
  | nil : Nests [] []
  | char (c : Char) (cs : List Char) (st : List String) (hc : isInert c) (h : Nests st cs) :
      Nests st (c :: cs)
  | start (x : String) (cs : List Char) (st : List String) (hx : x ∈ lineElements) (ha : x ≠ "a")
      (h : Nests (x :: st) cs) : Nests st (("<" ++ x ++ ">").toList ++ cs)
  | link (target cs : List Char) (st : List String) (ht : Plain target) (h : Nests ("a" :: st) cs) :
      Nests st ("<a href=\"".toList ++ (target ++ ("\">".toList ++ cs)))
  | stop (x : String) (cs : List Char) (st : List String) (hx : x ∈ lineElements) (h : Nests st cs) :
      Nests (x :: st) (("</" ++ x ++ ">").toList ++ cs)

lemma edge_of_front {e' : Edge} (he : e ∈ lineEdges) (he' : e' ∈ lineEdges) {cs' : List Char}
  (h : e.head.toList ++ cs = e'.head.toList ++ cs') : e = e' ∧ cs = cs' := by
  obtain rfl := head_inj he he' (tagHeads_inj (head_mem he) (head_mem he') h)
  exact ⟨rfl, append_cancel_left h⟩

lemma Nests.front (he : e ∈ lineEdges) (h : Nests st (e.head.toList ++ cs)) :
  (∃ x, e = .start x ∧ x ≠ "a" ∧ Nests (x :: st) cs) ∨
    (∃ target rest, e = .start "a" ∧ Plain target ∧ cs = target ++ ("\">".toList ++ rest) ∧
      Nests ("a" :: st) rest) ∨
    ∃ x rest, e = .stop x ∧ st = x :: rest ∧ Nests rest cs := by
  rcases head_shape he with ⟨body, hhead, -⟩
  generalize htext : e.head.toList ++ cs = text at h
  cases h with
  | nil =>
    rw [hhead] at htext
    cases htext
  | char c rest st hc h =>
    rw [hhead, cons_append] at htext
    rw [← (cons.inj htext).1] at hc
    cases hc
  | start x rest st hx ha h =>
    rw [← head_start ha] at htext
    rcases edge_of_front he (start_mem hx) htext with ⟨rfl, rfl⟩
    exact .inl ⟨x, rfl, ha, h⟩
  | link target rest st ht h =>
    rw [← head_link] at htext
    rcases edge_of_front he (by decide) htext with ⟨rfl, rfl⟩
    exact .inr (.inl ⟨target, rest, rfl, ht, rfl, h⟩)
  | stop x rest st hx h =>
    rcases edge_of_front he (stop_mem hx) htext with ⟨rfl, rfl⟩
    exact .inr (.inr ⟨x, st, rfl, rfl, h⟩)

lemma nests_start_iff (hx : x ∈ lineElements) (ha : x ≠ "a") :
  Nests st (("<" ++ x ++ ">").toList ++ cs) ↔ Nests (x :: st) cs := by
  refine ⟨fun h => ?_, .start x cs st hx ha⟩
  rw [← head_start ha] at h
  rcases h.front (start_mem hx) with ⟨y, hy, -, h⟩ | ⟨target, rest, hy, -⟩ | ⟨y, rest, hy, -⟩
  · cases hy
    exact h
  · cases hy
    cases ha rfl
  · cases hy

lemma nests_stop_iff (hx : x ∈ lineElements) :
  Nests st (("</" ++ x ++ ">").toList ++ cs) ↔ ∃ rest, st = x :: rest ∧ Nests rest cs := by
  constructor
  · intro h
    rcases h.front (stop_mem hx) with ⟨y, hy, -⟩ | ⟨target, rest, hy, -⟩ | ⟨y, rest, hy, hst, h⟩
    · cases hy
    · cases hy
    · cases hy
      exact ⟨rest, hst, h⟩
  · rintro ⟨rest, rfl, h⟩
    exact .stop x cs rest hx h

lemma nests_link_iff {target : List Char} (hquote : '"' ∉ target) :
  Nests st ("<a href=\"".toList ++ (target ++ ("\">".toList ++ cs))) ↔
    Plain target ∧ Nests ("a" :: st) cs := by
  refine ⟨fun h => ?_, fun h => .link target cs st h.1 h.2⟩
  rw [← head_link] at h
  rcases h.front (by decide) with ⟨y, hy, hne, h⟩ | ⟨target', rest, -, hplain, htext, h⟩ | ⟨y, rest, hy, -⟩
  · cases hy
    cases hne rfl
  · -- Neither target has a quotation mark, so both end at the same one.
    have hquote' : '"' ∉ target' := fun hmem => absurd (hplain '"' hmem) (by decide)
    have hclosing : "\">".toList = ['"', '>'] := rfl
    rcases append_cons_inj hquote hquote' htext with ⟨rfl, hrest⟩
    cases hrest
    exact ⟨hplain, h⟩
  · cases hy

lemma nests_char_iff (hc : isInert c) : Nests st (c :: cs) ↔ Nests st cs := by
  refine ⟨fun h => ?_, .char c cs st hc⟩
  have hlt : ∀ e ∈ lineEdges, ∀ rest, c :: cs ≠ e.head.toList ++ rest := by
    intro e he rest htext
    rcases head_shape he with ⟨body, hhead, -⟩
    rw [hhead] at htext
    exact isInert_ne_lt hc (cons.inj htext).1
  generalize htext : c :: cs = text at h hlt
  cases h with
  | nil => cases htext
  | char d rest st hd h =>
    cases htext
    exact h
  | start x rest st hx ha h => exact absurd (by rw [head_start ha]) (hlt _ (start_mem hx) rest)
  | link target rest st ht h => cases (hlt (.start "a") (by decide) _) rfl
  | stop x rest st hx h => cases (hlt _ (stop_mem hx) rest) rfl

lemma nests_nil_iff : Nests st [] ↔ st = [] := by
  refine ⟨fun h => ?_, fun h => h ▸ .nil⟩
  generalize htext : ([] : List Char) = text at h
  cases h with
  | nil => rfl
  | char c cs st hc h => cases htext
  | start x cs st hx ha h => simp at htext
  | link target cs st ht h => cases htext
  | stop x cs st hx h => simp at htext

lemma nests_plain_iff {front : List Char} (hfront : Plain front) :
  Nests st (front ++ cs) ↔ Nests st cs := by
  induction front with
  | nil => exact Iff.rfl
  | cons c front ih =>
    rw [cons_append, nests_char_iff (hfront c mem_cons_self)]
    exact ih fun d hd => hfront d (mem_cons_of_mem c hd)

/-- What begins or ends outside of the targets of links. -/
def Node.edge? : Node → Option Edge
  | .sign g => g.edge?
  | .linkStart _ => some (.start "a")
  | .linkEnd _ => some (.stop "a")

open Node (edge? linkStart)

/-- Edges of which those that end do so in the reverse order of beginning, if the elements of a stack
have already begun. -/
def Closes : List String → List Edge → Prop
  | st, [] => st = []
  | st, .start x :: w => Closes (x :: st) w
  | [], .stop _ :: _ => False
  | y :: st, .stop x :: w => y = x ∧ Closes st w

lemma closes_start_iff {w : List Edge} : Closes st (.start x :: w) ↔ Closes (x :: st) w := Iff.rfl

lemma closes_stop_iff {w : List Edge} :
  Closes st (.stop x :: w) ↔ ∃ rest, st = x :: rest ∧ Closes rest w := by
  constructor
  · intro h
    cases st with
    | nil => exact False.elim h
    | cons y st => exact ⟨st, by rw [h.1], h.2⟩
  · rintro ⟨rest, rfl, h⟩
    exact ⟨rfl, h⟩

lemma plain_text_iff (g : Sign) : Plain g.text ↔ g.edge? = none := by
  constructor
  · intro h
    cases hedge : g.edge? with
    | none => rfl
    | some e =>
      rcases edge_mem hedge with ⟨he, htext⟩
      rcases head_shape he with ⟨body, hhead, -⟩
      rw [htext, hhead] at h
      exact absurd (h '<' mem_cons_self) (by decide)
  · intro h
    rcases text_cases g with ⟨e, he, htext⟩ | ⟨c, hc, -, htext⟩ | ⟨t, ht, htext⟩
    · have hall : ∀ e ∈ entities, Plain e.2.toList := by decide
      rw [htext]
      exact hall e he
    · rw [htext]
      exact Plain.nil.cons hc
    · have hall : ∀ t ∈ inlineTags, '<' ∈ t.toList := by decide
      cases (lt_not_mem_text h) (htext ▸ hall t ht)

lemma plain_texts_iff (signs : List Sign) : Plain (texts signs) ↔ edges signs = [] := by
  rw [edges, filterMap_eq_nil_iff]
  constructor
  · intro h g hg
    exact (plain_text_iff g).mp fun c hc => h c (mem_flatMap.mpr ⟨g, hg, hc⟩)
  · intro h c hc
    rcases mem_flatMap.mp hc with ⟨g, hg, hc⟩
    exact (plain_text_iff g).mpr (h g hg) c hc

lemma nests_nodes_iff (nodes : List Node) (st : List String) :
  Nests st (nodes.flatMap Node.text) ↔ (∀ target, .linkStart target ∈ nodes → edges target = []) ∧
      Closes st (nodes.filterMap edge?) := by
  induction nodes generalizing st with
  | nil =>
    have hnone : ∀ target, linkStart target ∈ ([] : List Node) → edges target = [] :=
      fun target h => absurd h not_mem_nil
    exact nests_nil_iff.trans ⟨fun h => ⟨hnone, h⟩, fun h => h.2⟩
  | cons node nodes ih =>
    rw [flatMap_cons]
    -- An end belongs to the top of the stack, whatever it is the end of.
    have hstop : ∀ x, (∃ rest, st = x :: rest ∧ Nests rest (nodes.flatMap Node.text)) ↔
        (∀ target, .linkStart target ∈ nodes → edges target = []) ∧
          Closes st (.stop x :: nodes.filterMap edge?) := by
      intro x
      rw [closes_stop_iff]
      constructor
      · rintro ⟨rest, hst, h⟩
        rcases (ih rest).mp h with ⟨htargets, hcloses⟩
        exact ⟨htargets, rest, hst, hcloses⟩
      · rintro ⟨htargets, rest, hst, hcloses⟩
        exact ⟨rest, hst, (ih rest).mpr ⟨htargets, hcloses⟩⟩
    cases node with
    | sign g =>
      have htargets : (∀ target, linkStart target ∈ Node.sign g :: nodes → edges target = []) ↔
          ∀ target, linkStart target ∈ nodes → edges target = [] := by simp
      rw [htargets]
      cases g with
      | char c => exact (nests_plain_iff ((plain_text_iff (.char c)).mpr rfl)).trans (ih st)
      | opening m =>
        rcases mark_element m with ⟨hmem, hne⟩
        exact (nests_start_iff hmem hne).trans (ih (m.1.element :: st))
      | closing m => exact (nests_stop_iff (mark_element m).1).trans (hstop m.1.element)
    | linkEnd target =>
      have htargets : (∀ t, linkStart t ∈ Node.linkEnd target :: nodes → edges t = []) ↔
          ∀ t, linkStart t ∈ nodes → edges t = [] := by simp
      rw [htargets]
      exact (nests_stop_iff (x := "a") (by decide)).trans (hstop "a")
    | linkStart target =>
      have htargets : (∀ t, linkStart t ∈ linkStart target :: nodes → edges t = []) ↔
          edges target = [] ∧ ∀ t, linkStart t ∈ nodes → edges t = [] := by simp
      rw [htargets, and_assoc, ← plain_texts_iff, Node.text_linkStart, append_assoc,
        append_assoc, nests_link_iff (quote_not_mem_texts target), ih ("a" :: st)]
      exact Iff.rfl

variable {y z : String} {a b c w : List Edge}

lemma Balanced.append (ha : Balanced x a) (hb : Balanced x b) : Balanced x (a ++ b) := by
  refine ⟨fun p hp => ?_, ?_⟩
  · rcases prefix_append_cases hp with hp | ⟨q, hq, rfl⟩
    · exact ha.ahead p hp
    · have hbefore := ha.settled
      have hafter := hb.ahead q hq
      rw [count_append, count_append]
      omega
  · rw [count_append, count_append, ha.settled, hb.settled]

lemma Balanced.of_append (hab : Balanced x (a ++ b)) (ha : Balanced x a) : Balanced x b := by
  have hcounts := ha.settled
  refine ⟨fun p hp => ?_, ?_⟩
  · have hfront := hab.ahead (a ++ p) ((prefix_append_right_inj a).mpr hp)
    rw [count_append, count_append] at hfront
    omega
  · have hwhole := hab.settled
    rw [count_append, count_append] at hwhole
    omega

lemma Balanced.wrap (hb : Balanced x b) (z : String) :
  Balanced x (.start z :: (b ++ [.stop z])) := by
  have hcounts := hb.settled
  refine ⟨fun p hp => ?_, ?_⟩
  · rcases prefix_cons_iff.mp hp with rfl | ⟨q, rfl, hq⟩
    · exact Nat.le_refl _
    · rcases prefix_append_cases hq with hq | ⟨r, hr, rfl⟩
      · have hinner := hb.ahead q hq
        rw [count_cons, count_cons]
        simp
        omega
      · have hlast : r.count (.stop x) ≤ [Edge.stop z].count (.stop x) := hr.sublist.count_le _
        by_cases hz : z = x
        · simp [hz, count_append] at hlast ⊢
          omega
        · simp [hz, count_append] at hlast ⊢
          omega
  · by_cases hz : z = x
    · simp [hz, count_append, hcounts]
    · simp [hz, count_append, hcounts]

lemma ahead_or_return (x : String) (w : List Edge) :
  (∀ p, p <+: w → p.count (.stop x) ≤ p.count (.start x)) ∨
    ∃ b c, w = b ++ .stop x :: c ∧ Balanced x b := by
  induction w using List.reverseRecOn with
  | nil =>
    refine .inl fun p hp => ?_
    rw [prefix_nil.mp hp]
    exact Nat.le_refl _
  | append_singleton w e ih =>
    rcases ih with hahead | ⟨b, c, rfl, hb⟩
    · by_cases hreturn : e = .stop x ∧ w.count (.stop x) = w.count (.start x)
      · rcases hreturn with ⟨rfl, hsettled⟩
        exact .inr ⟨w, [], rfl, hahead, hsettled⟩
      · refine .inl fun p hp => ?_
        have hw := hahead w (prefix_refl w)
        rcases prefix_append_cases hp with hp | ⟨q, hq, rfl⟩
        · exact hahead p hp
        · have hlast : q.count (.stop x) ≤ [e].count (.stop x) := hq.sublist.count_le _
          by_cases he : e = .stop x
          · have hne : w.count (.stop x) ≠ w.count (.start x) := fun hc => hreturn ⟨he, hc⟩
            simp [he, count_append] at hlast ⊢
            omega
          · simp [he, count_append] at hlast ⊢
            omega
    · exact .inr ⟨b, c ++ [e], by simp, hb⟩

lemma exists_return (h : Balanced x (.start x :: w)) :
  ∃ b c, w = b ++ .stop x :: c ∧ Balanced x b := by
  rcases ahead_or_return x w with hahead | hreturn
  · have hle := hahead w (prefix_refl w)
    have hsettled := h.settled
    simp at hsettled
    omega
  · exact hreturn

lemma not_balanced_past_return (hb : Balanced x b) (c : List Edge) :
  ¬ Balanced x (b ++ .stop x :: c) := by
  intro h
  have hcounts := hb.settled
  have hle := h.ahead (b ++ [.stop x]) ⟨c, by simp⟩
  simp [count_append] at hle
  omega

lemma return_unique {b' c' : List Edge} (hb : Balanced x b) (hb' : Balanced x b')
  (h : b ++ .stop x :: c = b' ++ .stop x :: c') : b = b' := by
  rcases append_eq_append_iff.mp h with ⟨m, rfl, hrest⟩ | ⟨m, rfl, hrest⟩
  · cases m with
    | nil => exact (append_nil b).symm
    | cons e m =>
      rw [← (cons.inj hrest).1] at hb'
      cases (not_balanced_past_return hb m) hb'
  · cases m with
    | nil => exact append_nil b'
    | cons e m =>
      rw [← (cons.inj hrest).1] at hb
      cases (not_balanced_past_return hb' m) hb

/-- Edges among which every element encloses whole elements. -/
def Whole (w : List Edge) : Prop :=
  ∀ x a b c, w = a ++ .start x :: (b ++ .stop x :: c) → Balanced x b → ∀ y, Balanced y b

lemma Whole.of_append {u w v : List Edge} (h : Whole (u ++ (w ++ v))) : Whole w := by
  rintro x a b c rfl hb
  exact h x (u ++ a) b (c ++ v) (by simp) hb

lemma Closes.exists_after {a w : List Edge} (h : Closes st (a ++ w)) : ∃ st', Closes st' w := by
  induction a generalizing st with
  | nil => exact ⟨st, h⟩
  | cons e a ih =>
    cases e with
    | start x => exact ih (closes_start_iff.mp h)
    | stop x =>
      cases st with
      | nil => exact False.elim h
      | cons y st => exact ih h.2

lemma Closes.returns {x : String} (h : Closes (x :: st) w) :
  ∃ b c, w = b ++ .stop x :: c ∧ (∀ y, Balanced y b) ∧ Closes st c := by
  induction hn : w.length using Nat.strong_induction_on generalizing x st w with
  | _ n ih =>
    cases w with
    | nil => cases h
    | cons e w =>
      cases e with
      | stop z =>
        rcases h with ⟨rfl, h⟩
        exact ⟨[], w, rfl, .nil, h⟩
      | start z =>
        -- What begins here ends first, and then the element on top of the stack does.
        rcases ih w.length (by rw [← hn]; exact Nat.lt_succ_self _) (closes_start_iff.mp h) rfl with
          ⟨b, c, rfl, hb, hc⟩
        have hlength : c.length < n := by
          rw [← hn]
          simp
          omega
        rcases ih c.length hlength hc rfl with ⟨b', c', rfl, hb', hc'⟩
        refine ⟨.start z :: (b ++ [.stop z]) ++ b', c', by simp, fun y => ?_, hc'⟩
        exact ((hb y).wrap z).append (hb' y)

lemma Closes.whole (h : Closes st w) : Whole w := by
  rintro x a b c rfl hb
  rcases h.exists_after with ⟨st', h⟩
  rcases (closes_start_iff.mp h).returns with ⟨b', c', hsplit, hb', -⟩
  rw [return_unique hb (hb' x) hsplit]
  exact hb'

lemma closes_of_whole {w v : List Edge} (hw : Whole w) (hbalanced : ∀ x, Balanced x w)
  (hv : Closes st v) : Closes st (w ++ v) := by
  induction hn : w.length using Nat.strong_induction_on generalizing st w v with
  | _ n ih =>
    cases w with
    | nil => exact hv
    | cons e w =>
      cases e with
      | stop x =>
        have hle := (hbalanced x).ahead [.stop x] (prefix_append [.stop x] w)
        simp at hle
      | start x =>
        rcases exists_return (hbalanced x) with ⟨b, c, rfl, hb⟩
        have hinner := hw x [] b c rfl hb
        have hblock : Edge.start x :: (b ++ .stop x :: c) = .start x :: (b ++ [.stop x]) ++ c := by simp
        have hlength : b.length < n ∧ c.length < n := by
          rw [← hn]
          simp
          omega
        have hwhole : Whole (.start x :: (b ++ [.stop x]) ++ (c ++ [])) := by rwa [append_nil, ← hblock]
        have hafter : ∀ y, Balanced y c := fun y => by
          have hy := hbalanced y
          rw [hblock] at hy
          exact hy.of_append ((hinner y).wrap x)
        rw [cons_append, append_assoc, cons_append]
        have hclosed : Closes st (c ++ v) := ih c.length hlength.2 hwhole.of_append hafter hv rfl
        have hstop : Closes (x :: st) (.stop x :: (c ++ v)) := ⟨rfl, hclosed⟩
        exact closes_start_iff.mpr (ih b.length hlength.1
          (Whole.of_append (u := [.start x]) (v := .stop x :: c) hw) hinner hstop rfl)

lemma closes_iff_whole (hw : ∀ x, Balanced x w) : Closes [] w ↔ Whole w := by
  refine ⟨Closes.whole, fun h => ?_⟩
  have hcloses : Closes [] (w ++ []) := closes_of_whole h hw rfl
  rwa [append_nil] at hcloses

variable {s : String} {w' : List Edge} {nodes : List Node}

def Edge.element : Edge → String
  | .start x | .stop x => x

lemma Balanced.of_filter (h : Balanced x w)
  (hfilter : w.filter (·.element = x) = w'.filter (·.element = x)) : Balanced x w' := by
  have hcount : ∀ (p : List Edge) (e : Edge), e.element = x →
      (p.filter (·.element = x)).count e = p.count e := fun p e he =>
    count_filter (by simpa using he)
  refine ⟨fun p hp => ?_, ?_⟩
  · have hfiltered : p.filter (·.element = x) <+: w.filter (·.element = x) := by
      rw [hfilter]
      exact hp.filter _
    rcases prefix_filter_iff.mp hfiltered with ⟨q, hq, heq⟩
    rw [← hcount p (.stop x) rfl, ← hcount p (.start x) rfl, heq, hcount q (.stop x) rfl,
      hcount q (.start x) rfl]
    exact h.ahead q hq
  · rw [← hcount w' (.stop x) rfl, ← hcount w' (.start x) rfl, ← hfilter, hcount w (.stop x) rfl,
      hcount w (.start x) rfl]
    exact h.settled

lemma balanced_of_absent (h : ∀ e ∈ w, e.element ≠ x) : Balanced x w := by
  refine (Balanced.nil x).of_filter ?_
  rw [filter_nil, eq_comm, filter_eq_nil_iff]
  exact fun e he => by simpa using h e he

lemma filterMap_edge_sign (g : Sign) (nodes : List Node) :
  (Node.sign g :: nodes).filterMap edge? = edges [g] ++ nodes.filterMap edge? :=
  filterMap_append (l := [Node.sign g])

lemma filterMap_edge_link (label target : List Sign) (nodes : List Node) :
  (linkStart target :: (label.map .sign ++ .linkEnd target :: nodes)).filterMap edge? =
    .start "a" :: (edges label ++ [.stop "a"]) ++ nodes.filterMap edge? := by
  have hlabel : (label.map Node.sign).filterMap edge? = edges label := filterMap_map
  have hstart : (linkStart target).edge? = some (.start "a") := rfl
  have hstop : (Node.linkEnd target).edge? = some (.stop "a") := rfl
  rw [filterMap_cons_some hstart, filterMap_append, hlabel, filterMap_cons_some hstop]
  simp

lemma Linked.balanced_links (h : Linked nodes) : Balanced "a" (nodes.filterMap edge?) := by
  have hsigns : ∀ signs, Balanced "a" (edges signs) := by
    intro signs
    refine balanced_of_absent fun e he => ?_
    rcases mem_filterMap.mp he with ⟨g, -, hg⟩
    cases g with
    | char c => cases hg
    | opening m =>
      cases hg
      exact (mark_element m).2
    | closing m =>
      cases hg
      exact (mark_element m).2
  induction h with
  | nil => exact .nil "a"
  | sign g nodes _ ih =>
    rw [filterMap_edge_sign]
    exact (hsigns [g]).append ih
  | link label target nodes _ ih =>
    rw [filterMap_edge_link]
    exact ((hsigns label).wrap "a").append ih

lemma Linked.filter_edges (h : Linked nodes)
  (htargets : ∀ target, .linkStart target ∈ nodes → edges target = []) (hx : x ≠ "a") :
  (nodes.filterMap edge?).filter (·.element = x) =
    (edges (nodes.flatMap Node.signs)).filter (·.element = x) := by
  induction h with
  | nil => rfl
  | sign g nodes _ ih =>
    have hsigns : (Node.sign g :: nodes).flatMap Node.signs = g :: nodes.flatMap Node.signs := rfl
    rw [filterMap_edge_sign, hsigns, edges_cons g (nodes.flatMap _), filter_append,
      filter_append, ih fun t ht => htargets t (mem_cons_of_mem _ ht)]
  | link label target nodes _ ih =>
    have hrest := ih fun t ht => htargets t (by simp [ht])
    have htarget := htargets target mem_cons_self
    rw [filterMap_edge_link, edges_link, htarget]
    have hstart : (Edge.start "a").element ≠ x := hx.symm
    have hstop : (Edge.stop "a").element ≠ x := hx.symm
    simp [hstart, hstop, hrest]

lemma LineReading.balanced_edges (h : LineReading s nodes)
  (htargets : ∀ target, .linkStart target ∈ nodes → edges target = []) (x : String) :
  Balanced x (nodes.filterMap edge?) := by
  by_cases hx : x = "a"
  · subst hx
    exact h.linked.balanced_links
  · exact (h.balanced x).of_filter (h.linked.filter_edges htargets hx).symm

/-- The tags of a line close in the reverse order of opening exactly if no target of a link holds a tag
and every element encloses whole elements. -/
theorem inline_nests_iff (s : String) :
  (∃ nodes, LineReading s nodes) ∧ ∀ nodes, LineReading s nodes → (Nests [] (inline s).toList ↔
      (∀ target, .linkStart target ∈ nodes → edges target = []) ∧
        Whole (nodes.filterMap Node.edge?)) := by
  refine ⟨inline_reading s, fun nodes hreading => ?_⟩
  rw [← hreading.text, nests_nodes_iff]
  constructor
  · rintro ⟨htargets, hcloses⟩
    exact ⟨htargets, (closes_iff_whole (hreading.balanced_edges htargets)).mp hcloses⟩
  · rintro ⟨htargets, hwhole⟩
    exact ⟨htargets, (closes_iff_whole (hreading.balanced_edges htargets)).mpr hwhole⟩

-- Two pairs of marks that cross: the strong text ends inside of the emphasis.
theorem inline_nests_iff_crossed : inline "**a *b** c*" = "<strong>a <em>b</strong> c</em>" ∧
    ¬ Nests [] (inline "**a *b** c*").toList ∧
    ∃ nodes, LineReading "**a *b** c*" nodes ∧
      ¬ ((∀ target, .linkStart target ∈ nodes → edges target = []) ∧
        Whole (nodes.filterMap Node.edge?)) := by
  have hline : inline "**a *b** c*" = "<strong>a <em>b</strong> c</em>" := by decide +kernel
  have hcrossed : ¬ Nests [] (inline "**a *b** c*").toList := by
    have htext : (inline "**a *b** c*").toList = ("<" ++ "strong" ++ ">").toList ++ ("a ".toList ++
        (("<" ++ "em" ++ ">").toList ++ ("b".toList ++ (("</" ++ "strong" ++ ">").toList ++
          " c</em>".toList)))) := by decide +kernel
    rw [htext, nests_start_iff (by decide) (by decide), nests_plain_iff (by decide),
      nests_start_iff (by decide) (by decide), nests_plain_iff (by decide), nests_stop_iff (by decide)]
    rintro ⟨rest, hst, -⟩
    exact absurd (cons.inj hst).1 (by decide)
  rcases inline_nests_iff "**a *b** c*" with ⟨⟨nodes, hreading⟩, hiff⟩
  exact ⟨hline, hcrossed, nodes, hreading, fun h => hcrossed ((hiff nodes hreading).mpr h)⟩

end KeywordDocs.Markup
