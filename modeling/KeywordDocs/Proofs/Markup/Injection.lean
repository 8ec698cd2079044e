import KeywordDocs.Proofs.Markup.Signs

/-!
# Nothing Written Becomes Markup

An angle bracket, a quotation mark or an ampersand in the markup of a line is never one that was written: it
is part of a tag or an entity that rendering put there, in its proper place (`Belongs`).
-/

namespace KeywordDocs.Markup

open Text
open List hiding count

variable (signs : List Sign)

variable {target t before after : List Char} {e : Char × String}

/-- The tags of a line: those of emphasis and code, and links to any target that cannot end its
attribute. -/
inductive LineTag : List Char → Prop where
  | fixed (t : List Char) (h : Listed ("</a>" :: inlineTags) t) : LineTag t
  | link (target : List Char) (h : '"' ∉ target) :
      LineTag ("<a href=\"".toList ++ target ++ "\">".toList)

/-- What is before and after a quotation mark that opens or closes the target of a link. -/
def Delimits (before after : List Char) : Prop :=
  ∃ target, '"' ∉ target ∧ ("<a href=".toList <:+ before ∧ target ++ "\">".toList <+: after ∨
      "<a href=\"".toList ++ target <:+ before ∧ ">".toList <+: after)

/-- What a character of a line is part of, between what is before and what is after it. -/
structure Belongs (before : List Char) (c : Char) (after : List Char) : Prop where
  opens : c = '<' → ∃ t, LineTag t ∧ t <+: c :: after
  closes : c = '>' → ∃ t, LineTag t ∧ t <:+ before ++ [c]
  delimits : c = '"' → Delimits before after
  escapes : c = '&' → ∃ e ∈ entities, e.2.toList <+: c :: after

def AllBelong (before : List Char) : List Char → List Char → Prop
  | [], _ => True
  | c :: cs, after => Belongs before c (cs ++ after) ∧ AllBelong (before ++ [c]) cs after

lemma belongs_of_inert {c : Char} (hc : isInert c) (hamp : c ≠ '&')
  (before after : List Char) : Belongs before c after := by
  refine ⟨?_, ?_, ?_, fun h => absurd h hamp⟩
  all_goals
    rintro rfl
    cases hc

lemma belongs_lt (ht : LineTag t) (h : t <+: '<' :: after) : Belongs before '<' after := by
  refine ⟨fun _ => ⟨t, ht, h⟩, ?_, ?_, ?_⟩
  all_goals exact fun h => absurd h (by decide)

lemma belongs_gt (ht : LineTag t) (h : t <:+ before ++ ['>']) : Belongs before '>' after := by
  refine ⟨?_, fun _ => ⟨t, ht, h⟩, ?_, ?_⟩
  all_goals exact fun h => absurd h (by decide)

lemma belongs_quote {before after : List Char} (h : Delimits before after) :
  Belongs before '"' after := by
  refine ⟨?_, ?_, fun _ => h, ?_⟩
  all_goals exact fun h => absurd h (by decide)

lemma belongs_amp {before after : List Char} (he : e ∈ entities)
  (h : e.2.toList <+: '&' :: after) : Belongs before '&' after := by
  refine ⟨?_, ?_, ?_, fun _ => ⟨e, he, h⟩⟩
  all_goals exact fun h => absurd h (by decide)

lemma AllBelong.append {before a b after : List Char} (ha : AllBelong before a (b ++ after))
  (hb : AllBelong (before ++ a) b after) : AllBelong before (a ++ b) after := by
  induction a generalizing before with
  | nil => rwa [append_nil] at hb
  | cons c a ih =>
    rw [cons_append]
    refine ⟨?_, ih ha.2 ?_⟩
    · rw [append_assoc]
      exact ha.1
    · rwa [append_assoc]

lemma AllBelong.split {before cs after a b : List Char} {c : Char} (h : AllBelong before cs after)
  (hsplit : cs = a ++ c :: b) : Belongs (before ++ a) c (b ++ after) := by
  induction a generalizing before cs with
  | nil =>
    subst hsplit
    rw [append_nil]
    exact h.1
  | cons d a ih =>
    subst hsplit
    have hbelongs := ih h.2 rfl
    rwa [append_assoc] at hbelongs

lemma allBelong_plain {cs : List Char} (hcs : Plain cs) (hamp : '&' ∉ cs)
  (before after : List Char) : AllBelong before cs after := by
  induction cs generalizing before with
  | nil => exact trivial
  | cons c cs ih =>
    refine ⟨belongs_of_inert (hcs c mem_cons_self) ?_ _ _,
      ih (fun d hd => hcs d (mem_cons_of_mem c hd)) (fun h => hamp (mem_cons_of_mem c h)) _⟩
    rintro rfl
    exact hamp mem_cons_self

lemma allBelong_tag {body : List Char} (ht : LineTag ('<' :: (body ++ ['>']))) (hbody : Plain body)
  (hamp : '&' ∉ body) (before after : List Char) :
  AllBelong before ('<' :: (body ++ ['>'])) after := by
  refine ⟨belongs_lt ht (prefix_append _ after),
    .append (allBelong_plain hbody hamp _ _) ⟨belongs_gt ht ⟨before, ?_⟩, trivial⟩⟩
  simp

lemma allBelong_entity (he : e ∈ entities) (before after : List Char) :
  AllBelong before e.2.toList after := by
  have hall : ∀ e ∈ entities, ∃ name, e.2.toList = '&' :: name ∧ Plain name ∧ '&' ∉ name := by
    have hlist : ∀ e ∈ entities, e.2.toList.head? = some '&' ∧ Plain e.2.toList.tail ∧
        '&' ∉ e.2.toList.tail := by decide
    intro e he
    rcases hlist e he with ⟨hhead, hplain, hamp⟩
    exact ⟨e.2.toList.tail, (cons_head?_tail hhead).symm, hplain, hamp⟩
  rcases hall e he with ⟨name, htext, hplain, hamp⟩
  rw [htext]
  refine ⟨belongs_amp he ?_, allBelong_plain hplain hamp _ _⟩
  rw [htext]
  exact prefix_append _ after

lemma text_cases (g : Sign) : (∃ e ∈ entities, g.text = e.2.toList) ∨
  (∃ c, isInert c ∧ c ≠ '&' ∧ g.text = [c]) ∨ ∃ t ∈ inlineTags, g.text = t.toList := by
  cases g with
  | char c =>
    rcases written_entities c with ⟨e, he, -, htext⟩ | ⟨hkey, htext⟩
    · exact .inl ⟨e, he, htext⟩
    · have hne : ∀ d ∈ entities.map Prod.fst, c ≠ d := fun d hd hc => hkey (hc ▸ hd)
      have hinert : isInert c := by
        simp [isInert, hne '<' (by decide), hne '>' (by decide), hne '"' (by decide)]
      exact .inr (.inl ⟨c, hinert, hne '&' (by decide), htext⟩)
  | opening m =>
    have hall : ∀ e ∈ lineMarks, "<" ++ e.element ++ ">" ∈ inlineTags := by decide
    exact .inr (.inr ⟨_, hall m.1 m.2, rfl⟩)
  | closing m =>
    have hall : ∀ e ∈ lineMarks, "</" ++ e.element ++ ">" ∈ inlineTags := by decide
    exact .inr (.inr ⟨_, hall m.1 m.2, rfl⟩)

lemma listed_body {t : String} (ht : t ∈ "</a>" :: inlineTags) :
  ∃ body, t.toList = '<' :: (body ++ ['>']) ∧ Plain body ∧ '&' ∉ body := by
  have hall : ∀ t ∈ "</a>" :: inlineTags, t.toList = '<' :: (t.toList.tail.dropLast ++ ['>']) ∧
      Plain t.toList.tail.dropLast ∧ '&' ∉ t.toList.tail.dropLast := by decide
  exact ⟨_, hall t ht⟩

lemma allBelong_listed {t : String} (ht : t ∈ "</a>" :: inlineTags) (before after : List Char) :
  AllBelong before t.toList after := by
  rcases listed_body ht with ⟨body, htext, hbody, hamp⟩
  have htag : LineTag t.toList := .fixed _ ⟨t, ht, rfl⟩
  rw [htext] at htag ⊢
  exact allBelong_tag htag hbody hamp before after

lemma allBelong_texts (before after : List Char) : AllBelong before (texts signs) after := by
  induction signs generalizing before with
  | nil => exact trivial
  | cons g signs ih =>
    refine .append ?_ (ih _)
    rcases text_cases g with ⟨e, he, htext⟩ | ⟨c, hc, hamp, htext⟩ | ⟨t, ht, htext⟩
    · rw [htext]
      exact allBelong_entity he _ _
    · rw [htext]
      exact ⟨belongs_of_inert hc hamp _ _, trivial⟩
    · rw [htext]
      exact allBelong_listed (mem_cons_of_mem _ ht) _ _

lemma quote_not_mem_texts : '"' ∉ texts signs := by
  intro hmem
  rcases mem_flatMap.mp hmem with ⟨g, -, hg⟩
  rcases text_cases g with ⟨e, he, htext⟩ | ⟨c, hc, -, htext⟩ | ⟨t, ht, htext⟩
  · have hall : ∀ e ∈ entities, '"' ∉ e.2.toList := by decide
    exact hall e he (htext ▸ hg)
  · rw [htext, mem_singleton] at hg
    subst hg
    cases hc
  · have hall : ∀ t ∈ inlineTags, '"' ∉ t.toList := by decide
    exact hall t ht (htext ▸ hg)

lemma delimits_opening (hquote : '"' ∉ target) (before after : List Char) :
  Delimits (before ++ "<a href=".toList) (target ++ ("\">".toList ++ after)) := by
  refine ⟨target, hquote, .inl ⟨suffix_append _ _, ?_⟩⟩
  rw [← append_assoc]
  exact prefix_append _ after

lemma delimits_closing (hquote : '"' ∉ target) (before after : List Char) :
  Delimits (before ++ ("<a href=\"".toList ++ target)) (">".toList ++ after) :=
  ⟨target, hquote, .inr ⟨suffix_append _ _, prefix_append _ _⟩⟩

lemma allBelong_link (hquote : '"' ∉ target)
  (htarget : ∀ before after, AllBelong before target after) (before after : List Char) :
  AllBelong before ("<a href=\"".toList ++ target ++ "\">".toList) after := by
  have htag : LineTag ("<a href=\"".toList ++ target ++ "\">".toList) := .link target hquote
  -- The characters of the tag that mean something are taken out one by one.
  have hfront : "<a href=".toList = '<' :: "a href=".toList := rfl
  have hopening : "<a href=\"".toList = "<a href=".toList ++ ['"'] := rfl
  have hclosing : "\">".toList = ['"', '>'] := rfl
  have hname : ∀ rest, AllBelong (before ++ ['<']) "a href=".toList rest := fun rest =>
    allBelong_plain (by decide) (by decide) _ _
  refine .append (.append ?_ (htarget _ _)) ?_
  · rw [hopening, hfront, cons_append]
    refine ⟨belongs_lt htag ⟨after, ?_⟩, .append (hname _) ⟨belongs_quote ?_, trivial⟩⟩
    · rw [hopening, hfront]
      simp only [append_assoc, cons_append]
    · rw [append_assoc, singleton_append, ← hfront, nil_append]
      exact delimits_opening hquote before after
  · rw [hclosing]
    refine ⟨belongs_quote (delimits_closing hquote before after), belongs_gt htag ⟨before, ?_⟩, trivial⟩
    rw [hclosing]
    simp only [append_assoc, singleton_append]

lemma allBelong_nodes (nodes : List Node) (before after : List Char) :
  AllBelong before (nodes.flatMap Node.text) after := by
  induction nodes generalizing before with
  | nil => exact trivial
  | cons node nodes ih =>
    refine .append ?_ (ih _)
    cases node with
    | sign g =>
      have htexts : (Node.sign g).text = texts [g] := (flatMap_singleton _ _).symm
      rw [htexts]
      exact allBelong_texts [g] _ _
    | linkEnd target => exact allBelong_listed (t := "</a>") (by decide) _ _
    | linkStart target => exact allBelong_link (quote_not_mem_texts target) (allBelong_texts target) _ _

variable {e e' : Edge} {x : String} {nodes : List Node}

def lineElements : List String := ["strong", "em", "u", "del", "code", "a"]

def lineEdges : List Edge := lineElements.flatMap fun x => [.start x, .stop x]

lemma start_mem (hx : x ∈ lineElements) : Edge.start x ∈ lineEdges := mem_flatMap.mpr ⟨x, hx, mem_cons_self⟩

lemma stop_mem (hx : x ∈ lineElements) : Edge.stop x ∈ lineEdges :=
  mem_flatMap.mpr ⟨x, hx, mem_cons_of_mem _ mem_cons_self⟩

lemma mark_element (m : Mark) : m.1.element ∈ lineElements ∧ m.1.element ≠ "a" := by
  have hall : ∀ e ∈ lineMarks, e.element ∈ lineElements ∧ e.element ≠ "a" := by decide
  exact hall m.1 m.2

def Edge.head : Edge → String
  | .start x => if x = "a" then Attribute.target.opening else "<" ++ x ++ ">"
  | .stop x => "</" ++ x ++ ">"

lemma head_start (hx : x ≠ "a") : (Edge.start x).head = "<" ++ x ++ ">" := if_neg hx

lemma head_stop (x : String) : (Edge.stop x).head = "</" ++ x ++ ">" := rfl

lemma head_link : (Edge.start "a").head = "<a href=\"" :=
  rfl

lemma head_mem (he : e ∈ lineEdges) : e.head ∈ tagHeads := by
  have hall : ∀ e ∈ lineEdges, e.head ∈ tagHeads := by decide
  exact hall e he

lemma head_inj (he : e ∈ lineEdges) (he' : e' ∈ lineEdges) (h : e.head = e'.head) : e = e' := by
  have hall : ∀ e ∈ lineEdges, ∀ e' ∈ lineEdges, e.head = e'.head → e = e' := by decide
  exact hall e he e' he' h

lemma head_shape (he : e ∈ lineEdges) : ∃ body, e.head.toList = '<' :: body ∧ '<' ∉ body := by
  have hall : ∀ e ∈ lineEdges, e.head.toList.head? = some '<' ∧ '<' ∉ e.head.toList.tail := by decide
  exact ⟨_, (cons_head?_tail (hall e he).1).symm, (hall e he).2⟩

lemma countFrom_head (he : e ∈ lineEdges) (he' : e' ∈ lineEdges) (rest : List Char) :
  countFrom e.head.toList 0 (e'.head.toList ++ rest) = [e'].count e + countFrom e.head.toList 0 rest := by
  rcases head_shape he with ⟨body, hhead, -⟩
  by_cases heq : e' = e
  · subst heq
    rw [hhead, countFrom_found, count_singleton_self, Nat.add_comm]
  · rcases head_shape he' with ⟨body', hhead', hbody'⟩
    have hmiss : ¬ e.head.toList <+: e'.head.toList ++ rest := by
      rintro ⟨after, hafter⟩
      exact heq (head_inj he' he (tagHeads_inj (head_mem he) (head_mem he') hafter).symm)
    rw [hhead', cons_append] at hmiss ⊢
    rw [countFrom_char hmiss, hhead, countFrom_front hbody', count_singleton,
      if_neg (by simpa using heq), Nat.zero_add]

lemma edge_mem {g : Sign} (h : g.edge? = some e) : e ∈ lineEdges ∧ g.text = e.head.toList := by
  cases g with
  | char c => cases h
  | opening m =>
    rcases mark_element m with ⟨hmem, hne⟩
    cases h
    rw [head_start hne]
    exact ⟨start_mem hmem, rfl⟩
  | closing m =>
    cases h
    exact ⟨stop_mem (mark_element m).1, rfl⟩

lemma lt_not_mem_text {g : Sign} (h : g.edge? = none) : '<' ∉ g.text := by
  cases g with
  | char c =>
    intro hmem
    rcases written_entities c with ⟨e, he, -, htext⟩ | ⟨hkey, htext⟩
    · have hall : ∀ e ∈ entities, '<' ∉ e.2.toList := by decide
      exact hall e he (htext ▸ hmem)
    · rw [Sign.text, htext, mem_singleton] at hmem
      exact hkey (hmem ▸ by decide)
  | opening m => cases h
  | closing m => cases h

lemma countFrom_sign (he : e ∈ lineEdges) (g : Sign) (rest : List Char) :
  countFrom e.head.toList 0 (g.text ++ rest) = (edges [g]).count e + countFrom e.head.toList 0 rest := by
  cases hedge : g.edge? with
  | none =>
    rcases head_shape he with ⟨body, hhead, -⟩
    rw [edges, filterMap_cons_none hedge, hhead, countFrom_front (lt_not_mem_text hedge)]
    exact (Nat.zero_add _).symm
  | some e' =>
    rcases edge_mem hedge with ⟨he', htext⟩
    rw [edges, filterMap_cons_some hedge, htext]
    exact countFrom_head he he' rest

lemma countFrom_texts (he : e ∈ lineEdges) (signs : List Sign) (rest : List Char) :
  countFrom e.head.toList 0 (texts signs ++ rest) =
    (edges signs).count e + countFrom e.head.toList 0 rest := by
  induction signs with
  | nil => exact (Nat.zero_add _).symm
  | cons g signs ih =>
    rw [texts_cons, append_assoc, countFrom_sign he, ih, edges_cons g signs, count_append, Nat.add_assoc]

/-- What begins and ends where a node is shown. -/
def Node.edges : Node → List Edge
  | .sign g => Markup.edges [g]
  | .linkStart target => .start "a" :: Markup.edges target
  | .linkEnd _ => [.stop "a"]

lemma countFrom_nodes (he : e ∈ lineEdges) (nodes : List Node) (rest : List Char) :
  countFrom e.head.toList 0 (nodes.flatMap Node.text ++ rest) =
    (nodes.flatMap Node.edges).count e + countFrom e.head.toList 0 rest := by
  induction nodes with
  | nil => exact (Nat.zero_add _).symm
  | cons node nodes ih =>
    rw [flatMap_cons, flatMap_cons, append_assoc, count_append, Nat.add_assoc, ← ih]
    generalize nodes.flatMap Node.text ++ rest = rest
    cases node with
    | sign g => exact countFrom_sign he g rest
    | linkEnd target =>
      have hstop : Edge.stop "a" ∈ lineEdges := by decide
      exact countFrom_head he hstop rest
    | linkStart target =>
      rcases head_shape he with ⟨body, hhead, -⟩
      have hclosing : '<' ∉ "\">".toList := by decide
      rw [Node.text_linkStart, ← head_link, append_assoc, append_assoc,
        countFrom_head he (by decide), countFrom_texts he, hhead, countFrom_front hclosing,
        ← Nat.add_assoc, ← count_append]
      rfl

lemma flatMap_edges_signs : (signs.map .sign).flatMap Node.edges = edges signs := by
  induction signs with
  | nil => rfl
  | cons g signs ih => rw [map_cons, flatMap_cons, ih, edges_cons g signs, Node.edges]

lemma edges_link (label target : List Sign) (nodes : List Node) :
  edges ((Node.linkStart target :: (label.map .sign ++ .linkEnd target :: nodes)).flatMap Node.signs) =
    edges label ++ (edges target ++ edges (nodes.flatMap Node.signs)) := by
  have hstop : edges (Node.linkEnd target).signs = edges target := by
    rw [Node.signs, edges_cons, edges_cons _ (target ++ _), edges_append]
    exact append_nil (edges target)
  rw [flatMap_cons, flatMap_append, flatMap_signs_signs, flatMap_cons, edges_append,
    edges_append, edges_append, hstop]
  rfl

lemma Linked.count_edges (h : Linked nodes) (x : String) :
  (nodes.flatMap Node.edges).count (.start x) + (edges (nodes.flatMap Node.signs)).count (.stop x) =
    (nodes.flatMap Node.edges).count (.stop x) +
      (edges (nodes.flatMap Node.signs)).count (.start x) := by
  induction h with
  | nil => rfl
  | sign g nodes _ ih =>
    have hsigns : (Node.sign g :: nodes).flatMap Node.signs = g :: nodes.flatMap Node.signs := rfl
    rw [flatMap_cons, hsigns, edges_cons]
    simp only [count_append, Node.edges]
    omega
  | link label target nodes _ ih =>
    rw [edges_link, flatMap_cons, flatMap_append, flatMap_edges_signs, flatMap_cons]
    simp only [count_append, Node.edges, count_cons, count_nil]
    by_cases hx : "a" = x
    · simp [hx]
      omega
    · simp [hx]
      omega

lemma LineReading.count_head {s : String} (h : LineReading s nodes) (he : e ∈ lineEdges) :
  count e.head (inline s) = (nodes.flatMap Node.edges).count e := by
  have hnonempty : ∀ e ∈ lineEdges, e.head.isEmpty = false := by decide
  have hnodes := countFrom_nodes he nodes []
  rw [append_nil, h.text] at hnodes
  rw [count, hnonempty e he, if_neg Bool.false_ne_true, hnodes]
  rfl

/-- Nothing that is written in a line becomes markup by itself. Every angle bracket is at an end of one
of the tags of a line, every quotation mark delimits the target of a link and every ampersand begins
an entity; and each element is opened as often as it is closed. -/
theorem inline_injectionFree (s : String) :
  (∀ before c after, (inline s).toList = before ++ c :: after → Belongs before c after) ∧
    (∀ x ∈ ["strong", "em", "u", "del", "code"],
      count ("<" ++ x ++ ">") (inline s) = count ("</" ++ x ++ ">") (inline s)) ∧
    count "<a href=\"" (inline s) = count "</a>" (inline s) := by
  rcases inline_reading s with ⟨nodes, hreading⟩
  have heven : ∀ x ∈ lineElements,
      count (Edge.start x).head (inline s) = count (Edge.stop x).head (inline s) := by
    intro x hx
    have hedges := hreading.linked.count_edges x
    have hsettled := (hreading.balanced x).settled
    rw [hreading.count_head (start_mem hx), hreading.count_head (stop_mem hx)]
    omega
  refine ⟨?_, ?_, ?_⟩
  · intro before c after hsplit
    rw [← hreading.text] at hsplit
    have hbelongs := (allBelong_nodes nodes [] []).split hsplit
    rwa [append_nil] at hbelongs
  · intro x hx
    have hother : ∀ x ∈ ["strong", "em", "u", "del", "code"], x ∈ lineElements ∧ x ≠ "a" := by decide
    rcases hother x hx with ⟨hmem, hne⟩
    have hcounts := heven x hmem
    rwa [head_start hne, head_stop] at hcounts
  · have hcounts := heven "a" (by decide)
    rwa [head_link, head_stop] at hcounts

-- A tag inside the target of a link is still one whole tag.
theorem inline_injectionFree_target :
  (inline "[a](x_b_c)").toList = "<a href=\"x".toList ++ '<' :: "em>b</em>c\">a</a>".toList ∧
    Belongs "<a href=\"x".toList '<' "em>b</em>c\">a</a>".toList ∧
    count ("<" ++ "em" ++ ">") (inline "[a](x_b_c)") =
      count ("</" ++ "em" ++ ">") (inline "[a](x_b_c)") := by
  have hline : (inline "[a](x_b_c)").toList =
      "<a href=\"x".toList ++ '<' :: "em>b</em>c\">a</a>".toList := by decide +kernel
  rcases inline_injectionFree "[a](x_b_c)" with ⟨hbelongs, hcounts, -⟩
  exact ⟨hline, hbelongs _ _ _ hline, hcounts "em" (by decide)⟩

end KeywordDocs.Markup
