import KeywordDocs.Page.Markdown
import KeywordDocs.Proofs.Highlight.Outcome
import KeywordDocs.Proofs.Markup.Prose
import Mathlib.Tactic.IntervalCases

/-!
# Prose as Markup and Back

A description is kept as markup and converted back for a page in Markdown. For documents of prose this loses
nothing but empty lines.
-/

namespace KeywordDocs.Page

open Text Markup Highlight List
open Fragment (render)
open String (ofList toList_ofList)

def around (ends : List Char × List Char) (p : List Char) : List Char := ends.1 ++ (p ++ ends.2)

/-- What is written around each part of a page. -/
structure Layout where
  text : List Char × List Char
  heading : Nat → List Char × List Char
  list : List Char × List Char
  item : List Char × List Char
  gap : List Char

namespace Layout

/-- The items of a list, each on a line of its own. -/
def items (l : Layout) (ps : List (List Char)) : List Char :=
  '\n' :: ps.flatMap fun p => around l.item p ++ ['\n']

def write (l : Layout) : Block → List Char
  | .text p => around l.text p
  | .heading level p => around (l.heading level) p
  | .list ps => around l.list (l.items ps)
  | .gap => l.gap

def page (l : Layout) (blocks : List Block) : List Char := List.intercalate ['\n'] (blocks.map l.write)

def pieces (l : Layout) : List (List Char) :=
  [l.text.1, l.text.2, l.list.1, l.list.2, l.item.1, l.item.2, l.gap, ['\n']] ++
    (List.range' 1 6).flatMap fun level => [(l.heading level).1, (l.heading level).2]

def html : Layout where
  text := ("<p>".toList, "</p>".toList)
  heading level := (("<" ++ ("h" ++ Number.ofInt level) ++ ">").toList,
    ("</" ++ ("h" ++ Number.ofInt level) ++ ">").toList)
  list := ("<ul>".toList, "</ul>".toList)
  item := ("<li>".toList, "</li>".toList)
  gap := "<br>".toList

def markdown : Layout where
  text := ([], ['\n', '\n'])
  heading level := (List.replicate level '#' ++ [' '], ['\n'])
  list := ([], [])
  item := (['-', ' '], ['\n'])
  gap := []

end Layout

variable {config : Option Json} {p : List Char}

lemma ofList_around (opening closing : String) (p : List Char) :
  ofList (around (opening.toList, closing.toList) p) =
    opening ++ ofList p ++ closing := by
  rw [around, String.ofList_append, String.ofList_append, String.ofList_toList, String.ofList_toList,
    String.append_assoc]

def htmlLines : Block → List (List Char)
  | .text p => [around Layout.html.text p]
  | .heading level p => [around (Layout.html.heading level) p]
  | .list ps => Layout.html.list.1 :: ps.map (around Layout.html.item) ++ [Layout.html.list.2]
  | .gap => [Layout.html.gap]

lemma render_item (h : Prose p) : render config (.item (ofList p)) =
  pure (ofList (around Layout.html.item p)) := by
  rw [render, inline_prose h, Layout.html, ofList_around]

lemma render_block {b : Block} (h : b.Plain) :
  b.fragments.mapM (render config) = pure ((htmlLines b).map ofList) := by
  cases b with
  | text p =>
    have hrender : render config (.paragraph (ofList p)) = pure (ofList (around Layout.html.text p)) := by
      rw [render, inline_prose h, Layout.html, ofList_around]
    rw [Block.fragments, mapM_cons, hrender, pure_bind, mapM_nil, pure_bind]
    rfl
  | heading level p =>
    have hrender : render config (.heading level (ofList p)) =
        pure (ofList (around (Layout.html.heading level) p)) := by
      rw [render, inline_prose h.2.2, Layout.html, ofList_around]
      simp only [String.append_assoc]
    rw [Block.fragments, mapM_cons, hrender, pure_bind, mapM_nil, pure_bind]
    rfl
  | list ps =>
    have hitems : (ps.map fun p => Fragment.item (ofList p)).mapM (render config) =
        pure ((ps.map (around Layout.html.item)).map ofList) := by
      induction ps with
      | nil => rfl
      | cons p ps ih =>
        rcases forall_mem_cons.mp h with ⟨hp, hps⟩
        rw [map_cons, mapM_cons, render_item hp, pure_bind, ih hps, pure_bind]
        rfl
    rw [Block.fragments, mapM_append, mapM_cons, hitems]
    simp [render, htmlLines, Layout.html]
  | gap => rfl

lemma documentLines_prose {blocks : List Block} (h : ∀ b ∈ blocks, b.Plain) :
  (blocks.flatMap Block.fragments).mapM (render config) = pure ((blocks.flatMap htmlLines).map ofList) := by
  induction blocks with
  | nil => rfl
  | cons b blocks ih =>
    rcases forall_mem_cons.mp h with ⟨hb, hblocks⟩
    rw [flatMap_cons, mapM_append, render_block hb, pure_bind, ih hblocks, pure_bind,
      flatMap_cons, map_append]

lemma htmlLines_ne_nil (b : Block) : htmlLines b ≠ [] := by
  cases b <;> exact cons_ne_nil _ _

lemma intercalate_htmlLines (b : Block) :
  List.intercalate ['\n'] (htmlLines b) = Layout.html.write b := by
  cases b with
  | text p => exact intercalate_singleton
  | heading level p => exact intercalate_singleton
  | list ps =>
    rw [htmlLines, intercalate_concat, flatMap_cons, flatMap_map]
    simp [Layout.write, Layout.items, around]
  | gap => exact intercalate_singleton

lemma outcome_document_prose {content : String} (h : ProseDocument content) :
  ∃ blocks : List Block, (∀ b ∈ blocks, b.Plain) ∧
    filledLines content.toList = blocks.flatMap Block.lines ∧ ∀ config v,
      outcome (document config content) v = (.ok (ofList (Layout.html.page blocks)), v) := by
  rcases fragments_prose h with ⟨blocks, hplain, hfragments, hlines⟩
  refine ⟨blocks, hplain, hlines, fun config v => ?_⟩
  have hpage : unlines ((blocks.flatMap htmlLines).map ofList) = ofList (Layout.html.page blocks) := by
    rw [← String.toList_inj, toList_unlines, toList_ofList, Layout.page,
      intercalate_flatMap fun b _ => htmlLines_ne_nil b]
    simp only [intercalate_htmlLines]
  rw [document, documentLines, hfragments, documentLines_prose hplain, pure_bind, hpage, outcome_pure]

structure Carries (r : Recogniser (List Char)) (l l' : Layout) : Prop where
  text : ∀ p, Prose p → Turns r (around l.text p) (around l'.text p)
  heading : ∀ level p, 1 ≤ level → level ≤ 6 → Prose p →
    Turns r (around (l.heading level) p) (around (l'.heading level) p)
  list : ∀ ps, (∀ p ∈ ps, Prose p) → Turns r (around l.list (l.items ps)) (around l'.list (l'.items ps))
  gap : Turns r l.gap l'.gap
  newline : Turns r ['\n'] ['\n']

variable {r : Recogniser (List Char)} {l l' : Layout} {start : List Char} {blocks : List Block}

lemma Carries.page (h : Carries r l l') (hblocks : ∀ b ∈ blocks, b.Plain) :
  replaceFinds r (l.page blocks) = l'.page blocks := by
  refine (Turns.intercalate h.newline fun b hb => ?_).eq
  have hplain := hblocks b hb
  cases b with
  | text p => exact h.text p hplain
  | heading level p => exact h.heading level p hplain.1 hplain.2.1 hplain.2.2
  | list ps => exact h.list ps hplain
  | gap => exact h.gap

lemma items_turns (hnewline : Turns r ['\n'] ['\n'])
  (hitem : ∀ p, Prose p → Turns r (around l.item p) (around l'.item p)) {ps : List (List Char)}
  (hps : ∀ p ∈ ps, Prose p) : Turns r (l.items ps) (l'.items ps) :=
  hnewline.append (Turns.flatMap fun p hp => (hitem p (hps p hp)).append hnewline)

lemma shuns_prose (hstart : start.head?.any (fun c => !isProseChar c)) (h : Prose p) :
  Shuns start p := by
  cases start with
  | nil => cases hstart
  | cons c start =>
    have hc : isProseChar c = false := by simpa using hstart
    exact Shuns.of_not_mem (h.not_mem hc)

lemma pieces_shuns (h : l.pieces.all (noEnd start)) : ∀ t ∈ l.pieces, Shuns start t :=
  fun t ht => Shuns.of_noEnd (all_eq_true.mp h t ht)

lemma heading_mem_pieces (l : Layout) {level : Nat} (hpos : 1 ≤ level) (hle : level ≤ 6) :
  (l.heading level).1 ∈ l.pieces ∧ (l.heading level).2 ∈ l.pieces := by
  have hlevel : level ∈ List.range' 1 6 := mem_range'_1.mpr ⟨hpos, by omega⟩
  constructor <;>
    exact mem_append_right _ (mem_flatMap.mpr ⟨level, hlevel, by simp⟩)

lemma Carries.leaves (hr : Blind r) (hneeds : Needs r start)
  (hstart : start.head?.any (fun c => !isProseChar c))
  (h : l.pieces.all (noEnd start)) : Carries r l l := by
  have hpiece : ∀ t ∈ l.pieces, Turns r t t := fun t ht => .of_shuns hr hneeds (pieces_shuns h t ht)
  have hprose : ∀ p, Prose p → Turns r p p := fun p hp => .of_shuns hr hneeds (shuns_prose hstart hp)
  have hnewline : Turns r ['\n'] ['\n'] := hpiece _ (by simp [Layout.pieces])
  refine ⟨fun p hp => ?_, fun level p hpos hle hp => ?_, fun ps hps => ?_, ?_, hnewline⟩
  · exact (hpiece _ (by simp [Layout.pieces])).append
      ((hprose p hp).append (hpiece _ (by simp [Layout.pieces])))
  · rcases heading_mem_pieces l hpos hle with ⟨hfront, hback⟩
    exact (hpiece _ hfront).append ((hprose p hp).append (hpiece _ hback))
  · refine (hpiece _ (by simp [Layout.pieces])).append
      (Turns.append (items_turns hnewline (fun p hp => ?_) hps) (hpiece _ (by simp [Layout.pieces])))
    exact (hpiece _ (by simp [Layout.pieces])).append
      ((hprose p hp).append (hpiece _ (by simp [Layout.pieces])))
  · exact hpiece _ (by simp [Layout.pieces])

variable {ps : List (List Char)}

lemma openTag?_eq_none {start cs : List Char} (h : ¬ start <+: cs) : openTag? start cs = none := by
  rw [openTag?, dropPrefix?_eq_none h]
  rfl

lemma codeElement_needs :
  Needs codeElement "<div class=\"code-block\"><pre class=\"language-".toList := by
  intro b cs h
  rw [codeElement, dropPrefix?_eq_none h]
  rfl

lemma tableElement_needs : Needs tableElement "<table".toList := by
  intro b cs h
  rw [tableElement, openTag?_eq_none h]
  rfl

lemma linkElement_needs : Needs linkElement "<a".toList := by
  intro b cs h
  rw [linkElement, dropPrefix?_eq_none h]
  rfl

lemma spanContent_needs : Needs spanContent "<span".toList := by
  intro b cs h
  rw [spanContent, openTag?_eq_none h]
  rfl

lemma headingElement_needs : Needs headingElement "<h".toList := by
  intro b cs h
  unfold headingElement
  split
  · cases h ⟨_, rfl⟩
  · rfl

lemma headingElement_blind : Blind headingElement := by
  intro b b' cs
  unfold headingElement
  split <;> rfl

lemma upToHeadingEnd_append {d : Char} (hd : isLevel d) (hmark : '<' ∉ p)
  (hline : '\n' ∉ p) (rest : List Char) :
  upToHeadingEnd (p ++ '<' :: '/' :: 'h' :: d :: '>' :: rest) = some p := by
  induction p with
  | nil => exact if_pos hd
  | cons c p ih =>
    have hc : c ≠ '<' := fun hc => hmark (hc ▸ mem_cons_self)
    have hfeed : c ≠ '\n' := fun hc => hline (hc ▸ mem_cons_self)
    have hrest := ih (fun h => hmark (mem_cons_of_mem c h))
      fun h => hline (mem_cons_of_mem c h)
    rw [cons_append, upToHeadingEnd]
    split
    case h_1 heq => cases hc (cons.inj heq).1
    case h_2 => rw [if_neg hfeed, hrest, Option.map_some]

lemma html_heading {level : Nat} (hpos : 1 ≤ level) (hle : level ≤ 6) :
  ∃ d, isLevel d ∧ d.toNat - 48 = level ∧
    Layout.html.heading level = (['<', 'h', d, '>'], ['<', '/', 'h', d, '>']) := by
  refine ⟨Char.ofNat (48 + level), ?_⟩
  interval_cases level <;> decide

def textsDone : Layout := { Layout.html with text := Layout.markdown.text }

def listsDone : Layout := { textsDone with list := Layout.markdown.list }

def itemsDone : Layout := { listsDone with item := Layout.markdown.item }

def headingsDone : Layout := { itemsDone with heading := Layout.markdown.heading }

lemma texts_carried :
  Carries (enclosed "<p>" "</p>" fun body => body ++ ['\n', '\n']) Layout.html textsDone := by
  have hrest : Carries (enclosed "<p>" "</p>" fun body => body ++ ['\n', '\n'])
      { Layout.html with text := ([], []) } { Layout.html with text := ([], []) } :=
    .leaves enclosed_blind enclosed_needs (by decide) (by decide)
  refine ⟨fun p hp => ?_, hrest.heading, hrest.list, hrest.gap, hrest.newline⟩
  exact enclosed_turns (by decide) (by decide) (shuns_prose (by decide) hp)

lemma lists_carried : Carries (enclosed "<ul>" "</ul>" id) textsDone listsDone := by
  have hrest : Carries (enclosed "<ul>" "</ul>" id)
      { textsDone with list := ([], []) } { textsDone with list := ([], []) } :=
    .leaves enclosed_blind enclosed_needs (by decide) (by decide)
  refine ⟨hrest.text, hrest.heading, fun ps hps => ?_, hrest.gap, hrest.newline⟩
  have hpiece : ∀ t ∈ textsDone.pieces.drop 4, Shuns "</ul>".toList t :=
    fun t ht => Shuns.of_noEnd (all_eq_true.mp (by decide) t ht)
  have hitems : Shuns "</ul>".toList (textsDone.items ps) := by
    refine (hpiece ['\n'] (by decide)).append (Shuns.flatMap fun p hp => ?_)
    exact ((hpiece _ (by decide)).append ((shuns_prose (by decide) (hps p hp)).append
      (hpiece _ (by decide)))).append (hpiece ['\n'] (by decide))
  have hlist : around listsDone.list (listsDone.items ps) = id (textsDone.items ps) := by
    show [] ++ (textsDone.items ps ++ []) = _
    rw [append_nil]
    rfl
  rw [hlist]
  exact enclosed_turns (by decide) (by decide) hitems

lemma items_carried : Carries (enclosed "<li>" "</li>" fun body => "- ".toList ++ body ++ ['\n'])
    listsDone itemsDone := by
  have hrest : Carries (enclosed "<li>" "</li>" fun body => "- ".toList ++ body ++ ['\n'])
      { listsDone with item := ([], []) } { listsDone with item := ([], []) } :=
    .leaves enclosed_blind enclosed_needs (by decide) (by decide)
  refine ⟨hrest.text, hrest.heading, fun ps hps => ?_, hrest.gap, hrest.newline⟩
  refine Turns.nil.append (Turns.append (items_turns hrest.newline (fun p hp => ?_) hps) Turns.nil)
  have hitem : around itemsDone.item p = "- ".toList ++ p ++ ['\n'] := (append_assoc _ _ _).symm
  exact enclosed_turns (by decide) (by decide) (shuns_prose (by decide) hp)

lemma headings_carried : Carries headingElement itemsDone headingsDone := by
  have hrest : Carries headingElement { itemsDone with heading := fun _ => ([], []) }
      { itemsDone with heading := fun _ => ([], []) } :=
    .leaves headingElement_blind headingElement_needs (by decide) (by decide)
  refine ⟨hrest.text, fun level p hpos hle hp => ?_, hrest.list, hrest.gap, hrest.newline⟩
  rcases html_heading hpos hle with ⟨d, hd, hlevel, htags⟩
  have hbody : ∀ rest, upToHeadingEnd (p ++ '<' :: '/' :: 'h' :: d :: '>' :: rest) = some p :=
    upToHeadingEnd_append hd (hp.not_mem (by decide)) (hp.not_mem (by decide))
  have hfound : around (itemsDone.heading level) p =
      '<' :: 'h' :: d :: '>' :: (p ++ ['<', '/', 'h', d, '>']) :=
    congrArg (fun ends => around ends p) htags
  have hresult : around (headingsDone.heading level) p =
      List.replicate (d.toNat - 48) '#' ++ ' ' :: p ++ ['\n'] := by
    simp [around, headingsDone, Layout.markdown, hlevel]
  rw [hfound, hresult]
  refine Turns.found headingElement_blind (cons_ne_nil _ _) fun rest => ?_
  simp [headingElement, hd, hbody]

def tagRemoval : Recogniser (List Char) := fun before cs => (tag before cs).map fun found => ([], found.2)

lemma tagRemoval_blind : Blind tagRemoval := fun b b' cs => by rw [tagRemoval, tagRemoval, tag_blind b b']

lemma tagRemoval_needs : Needs tagRemoval ['<'] := fun b cs h => by
  rw [tagRemoval, tag_needs b cs h, Option.map_none]

lemma gaps_carried : Carries tagRemoval headingsDone Layout.markdown := by
  have hrest : Carries tagRemoval Layout.markdown Layout.markdown :=
    .leaves tagRemoval_blind tagRemoval_needs (by decide) (by decide)
  refine ⟨hrest.text, hrest.heading, hrest.list, ?_, hrest.newline⟩
  exact Turns.found tagRemoval_blind (by decide) fun rest => rfl

lemma decode_page (hblocks : ∀ b ∈ blocks, b.Plain) :
  decode markdownEntities (headingsDone.page blocks) = headingsDone.page blocks := by
  have hcheck : markdownEntities.all (fun entry =>
      entry.1.toList.head?.any (fun c => !isProseChar c) &&
        headingsDone.pieces.all (noEnd entry.1.toList)) := by decide
  have hentry : ∀ entry ∈ markdownEntities, replaceChars entry.1.toList entry.2.toList
      (headingsDone.page blocks) = headingsDone.page blocks := by
    intro entry hentry
    rcases Bool.and_eq_true_iff.mp (all_eq_true.mp hcheck entry hentry) with ⟨hstart, hpieces⟩
    have hne : entry.1.toList ≠ [] := by
      intro hnil
      rw [hnil] at hstart
      cases hstart
    rw [replaceChars_eq_replaceFinds hne]
    exact (Carries.leaves (fixed_blind _ _) (fun b cs h => fixed_eq_none h b) hstart hpieces).page
      hblocks
  have hfold : ∀ table : List (String × String), (∀ entry ∈ table, entry ∈ markdownEntities) →
      decode table (headingsDone.page blocks) = headingsDone.page blocks := by
    intro table htable
    induction table with
    | nil => rfl
    | cons entry table ih =>
      rw [decode, foldl_cons, hentry entry (htable entry mem_cons_self)]
      exact ih fun e he => htable e (mem_cons_of_mem entry he)
  exact hfold markdownEntities fun _ h => h

lemma stripMarkup_page (hblocks : ∀ b ∈ blocks, b.Plain) :
  stripMarkup (headingsDone.page blocks) = Layout.markdown.page blocks := by
  have hspan : Carries spanContent headingsDone headingsDone :=
    .leaves (fun _ _ _ => rfl) spanContent_needs (by decide) (by decide)
  rw [stripMarkup, decode_page hblocks, hspan.page hblocks]
  exact gaps_carried.page hblocks

lemma toMarkdown_page (hblocks : ∀ b ∈ blocks, b.Plain) :
  toMarkdown (ofList (Layout.html.page blocks)) =
    ofList (trimChars (replaceFinds emptyLines (Layout.markdown.page blocks))) := by
  have hcode : Carries codeElement Layout.html Layout.html :=
    .leaves (fun _ _ _ => rfl) codeElement_needs (by decide) (by decide)
  have hline : ∀ opening closing f, (opening.toList.head?.any fun c => !isProseChar c) →
      Layout.html.pieces.all (noEnd opening.toList) →
      replaceFinds (enclosedLine opening closing f) (Layout.html.page blocks) =
        Layout.html.page blocks := fun opening closing f hstart hpieces =>
    (Carries.leaves enclosedLine_blind enclosedLine_needs hstart hpieces).page hblocks
  have hordered : Carries (enclosed "<ol>" "</ol>" id) listsDone listsDone :=
    .leaves enclosed_blind enclosed_needs (by decide) (by decide)
  have htable : Carries tableElement itemsDone itemsDone :=
    .leaves (fun _ _ _ => rfl) tableElement_needs (by decide) (by decide)
  have hlink : Carries linkElement itemsDone itemsDone :=
    .leaves (fun _ _ _ => rfl) linkElement_needs (by decide) (by decide)
  rw [toMarkdown, toList_ofList]
  simp only [elementRecognisers, foldl_cons, foldl_nil]
  rw [hcode.page hblocks, hline "<code>" _ _ (by decide) (by decide),
    hline "<strong>" _ _ (by decide) (by decide), hline "<em>" _ _ (by decide) (by decide),
    hline "<i>" _ _ (by decide) (by decide), texts_carried.page hblocks,
    lists_carried.page hblocks, hordered.page hblocks, items_carried.page hblocks,
    htable.page hblocks, hlink.page hblocks, headings_carried.page hblocks, stripMarkup_page hblocks]

variable {line : List Char}

lemma emptyLines_blind : Blind emptyLines := fun _ _ _ => rfl

lemma filledLines_emptyLines (front cs : List Char) :
  filledLines (front ++ replaceFinds emptyLines cs) = filledLines (front ++ cs) := by
  -- The walk goes on after a character or after a whole run of line feeds.
  induction hn : cs.length using Nat.strong_induction_on generalizing front cs with
  | _ n ih =>
    cases cs with
    | nil => rfl
    | cons c cs =>
      by_cases hrun : 3 ≤ ((c :: cs).takeWhile (· = '\n')).length
      · have hsplit := takeWhile_append_dropWhile (p := (· = '\n')) (l := c :: cs)
        generalize (c :: cs).dropWhile (· = '\n') = rest at hsplit
        generalize hfeeds : (c :: cs).takeWhile (· = '\n') = feeds at hsplit hrun
        have hfound : emptyLines none (feeds ++ rest) = some (['\n', '\n'], feeds.length) := by
          rw [hsplit, emptyLines, hfeeds]
          exact if_pos hrun
        have hne : feeds ≠ [] := by
          rintro rfl
          cases hrun
        have hall : ∀ d ∈ feeds, d = '\n' := fun d hd => by
          rw [← hfeeds] at hd
          simpa using mem_takeWhile_imp hd
        have hlt : rest.length < n := by
          rw [← hn, ← hsplit, length_append]
          have hpos := length_pos_iff.mpr hne
          omega
        have hrest := ih rest.length hlt [] rest rfl
        rw [nil_append, nil_append] at hrest
        rw [← hsplit, replaceFinds_found emptyLines_blind hne hfound,
          filledLines_feeds (by simp) (by simp), filledLines_feeds hne hall, hrest]
      · have hnone : emptyLines none (c :: cs) = none := if_neg hrun
        have hrest := ih cs.length (by rw [← hn]; exact Nat.lt_succ_self _) (front ++ [c]) cs rfl
        rw [replaceFinds_cons emptyLines_blind hnone]
        rwa [append_assoc, append_assoc] at hrest

lemma filledLines_proseLine (h : ProseLine line) (hne : line ≠ []) (rest : List Char) :
  filledLines (line ++ '\n' :: rest) = line :: filledLines rest := by
  have hblank : line.all isBlank = false := by
    rw [h.tight.all_isBlank]
    simpa using hne
  rw [filledLines_append, filledLines_line hblank h.newline_not_mem, singleton_append]

lemma filledLines_items {ps : List (List Char)} (h : ∀ p ∈ ps, Prose p) :
  filledLines (Layout.markdown.items ps) = ps.map fun p => '-' :: ' ' :: p := by
  rw [Layout.items, filledLines_newline]
  induction ps with
  | nil => rfl
  | cons p ps ih =>
    rcases forall_mem_cons.mp h with ⟨hp, hps⟩
    have htext : (p :: ps).flatMap (fun p => around Layout.markdown.item p ++ ['\n']) =
        ('-' :: ' ' :: p) ++ '\n' :: '\n' ::
          ps.flatMap fun p => around Layout.markdown.item p ++ ['\n'] := by
      simp [Layout.markdown, around]
    rw [htext, filledLines_proseLine (.item hp) (cons_ne_nil _ _), filledLines_newline, ih hps, map_cons]

lemma filledLines_write {b : Block} (h : b.Plain) :
  filledLines (Layout.markdown.write b) = b.lines := by
  cases b with
  | text p => exact filledLines_proseLine (.text h) h.ne_nil ['\n']
  | heading level p =>
    have hwrite : Layout.markdown.write (.heading level p) =
        (List.replicate level '#' ++ ' ' :: p) ++ '\n' :: [] := by
      simp [Layout.write, Layout.markdown, around]
    rw [hwrite, filledLines_proseLine (.heading level h.1 h.2.1 h.2.2) (by simp)]
    rfl
  | list ps =>
    have hwrite : Layout.markdown.write (.list ps) = Layout.markdown.items ps := append_nil _
    rw [hwrite, filledLines_items h]
    rfl
  | gap => rfl

lemma filledLines_markdown (hblocks : ∀ b ∈ blocks, b.Plain) :
  filledLines (Layout.markdown.page blocks) = blocks.flatMap Block.lines := by
  rw [Layout.page, filledLines_intercalate, flatMap_map]
  induction blocks with
  | nil => rfl
  | cons b blocks ih =>
    rcases forall_mem_cons.mp hblocks with ⟨hb, hrest⟩
    rw [flatMap_cons, flatMap_cons, filledLines_write hb, ih hrest]

lemma filter_lines (s : String) :
  (lines s).filter (fun line => !isBlankText line) = (filledLines s.toList).map ofList := by
  rw [lines, filter_map, filledLines]
  congr 2
  funext line
  rw [Function.comp_apply, isBlankText, toList_ofList]

/-- A document of prose is the same in Markdown, line by line, except for empty lines: its markup is
there whatever the highlighter knows, and the lines with content of the markup in Markdown are
those of the document, in order. -/
theorem toMarkdown_document {content : String} (h : ProseDocument content) :
  ∃ html, (∀ config v, outcome (document config content) v = (.ok html, v)) ∧
    (lines (toMarkdown html)).filter (fun line => !isBlankText line) =
      (lines content).filter (fun line => !isBlankText line) := by
  rcases outcome_document_prose h with ⟨blocks, hblocks, hlines, hdocument⟩
  refine ⟨_, hdocument, ?_⟩
  have hkept := filledLines_emptyLines [] (Layout.markdown.page blocks)
  rw [nil_append, nil_append, filledLines_markdown hblocks] at hkept
  have htight : ∀ line ∈ filledLines (replaceFinds emptyLines (Layout.markdown.page blocks)),
      Tight line := by
    rw [hkept]
    intro line hline
    rcases mem_flatMap.mp hline with ⟨b, hb, hline⟩
    exact ((hblocks b hb).proseLine line hline).tight
  rw [filter_lines, filter_lines, toMarkdown_page hblocks, String.toList_ofList,
    filledLines_trimChars htight, hkept, hlines]

/-- A document with everything that prose can have. -/
def guide : String := "# Guide\nRead this first, please.\n\n- one\n- two: 2\n\n- three\n## Notes\n\nThe end."

/-- Headings, paragraphs and items come back; the empty line in the list does not matter. -/
theorem toMarkdown_document_guide : ∃ html,
  (∀ config v, outcome (document config guide) v = (.ok html, v)) ∧
    (lines (toMarkdown html)).filter (fun line => !isBlankText line) =
      ["# Guide", "Read this first, please.", "- one", "- two: 2", "- three", "## Notes",
        "The end."] := by
  have hguide : ProseDocument guide := ⟨by decide, by decide, by decide⟩
  rcases toMarkdown_document hguide with ⟨html, hdocument, hlines⟩
  exact ⟨html, hdocument, hlines.trans (by decide)⟩

end KeywordDocs.Page
