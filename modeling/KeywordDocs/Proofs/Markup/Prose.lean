import KeywordDocs.Proofs.Markup.Inline
import KeywordDocs.Proofs.Markup.Nesting
import KeywordDocs.Proofs.Text.Lines

/-!
# Documents of Prose

Documents of paragraphs, items and headings of prose, with empty lines between them. Prose is text without
marks, so no line of such a document can be taken for something else.
-/

namespace KeywordDocs.Markup

open Text
open String (ofList toList_ofList)
open List hiding dropPrefix?

variable {c : Char} {p line : List Char}

/-- Letters, digits, spaces and punctuation. -/
def isProseChar (c : Char) : Bool := c.isAlphanum || [' ', ',', '.', ';', ':'].contains c

/-- Texts of letters, digits, spaces and punctuation that start with a letter and do not end with a
space. -/
structure Prose (p : List Char) : Prop where
  start : p.head?.any Char.isAlpha
  chars : p.all isProseChar
  last : p.getLast? ≠ some ' '

instance (p : List Char) : Decidable (Prose p) :=
  decidable_of_iff (p.head?.any Char.isAlpha ∧ p.all isProseChar ∧
    p.getLast? ≠ some ' ') ⟨fun h => ⟨h.1, h.2.1, h.2.2⟩, fun h => ⟨h.start, h.chars, h.last⟩⟩

lemma isBlank_of_isAlphanum (h : c.isAlphanum) : isBlank c = false := by
  have hval : c.val.toNat = c.toNat := rfl
  change (decide (c.val ≥ 'A'.val ∧ c.val ≤ 'Z'.val) || (c.val ≥ 'a'.val && c.val ≤ 'z'.val) ||
    (c.val ≥ '0'.val && c.val ≤ '9'.val)) at h
  have hbounds : ('A'.val.toNat, 'Z'.val.toNat, 'a'.val.toNat, 'z'.val.toNat, '0'.val.toNat,
    '9'.val.toNat) = (65, 90, 97, 122, 48, 57) := rfl
  simp only [Prod.mk.injEq] at hbounds
  simp only [Bool.or_eq_true, Bool.and_eq_true, decide_eq_true_eq, ge_iff_le,
    UInt32.le_iff_toNat_le, hval] at h
  simp only [isBlank, inRanges, blankRanges, any_cons, any_nil, Bool.or_eq_false_iff,
    Bool.and_eq_false_iff, decide_eq_false_iff_not, and_true]
  omega

lemma isBlank_of_isProseChar (h : isProseChar c) (hspace : c ≠ ' ') : isBlank c = false := by
  rcases Bool.or_eq_true _ _ ▸ h with halnum | hmark
  · exact isBlank_of_isAlphanum halnum
  · have hmarks : ∀ d ∈ [' ', ',', '.', ';', ':'], d ≠ ' ' → isBlank d = false := by decide
    exact hmarks c (contains_iff_mem.mp hmark) hspace

lemma Prose.not_mem (h : Prose p) (hc : isProseChar c = false) : c ∉ p := by
  intro hmem
  rw [all_eq_true.mp h.chars c hmem] at hc
  cases hc

lemma Prose.exists_cons (h : Prose p) : ∃ c cs, p = c :: cs ∧ c.isAlpha := by
  have hstart := h.start
  cases p with
  | nil => cases hstart
  | cons c cs => exact ⟨c, cs, rfl, hstart⟩

lemma Prose.ne_nil (h : Prose p) : p ≠ [] := by
  rcases h.exists_cons with ⟨c, cs, rfl, -⟩
  exact cons_ne_nil c cs

lemma Prose.getLast (h : Prose p) : ∀ c ∈ p.getLast?, isBlank c = false := by
  intro c hc
  refine isBlank_of_isProseChar (all_eq_true.mp h.chars c (mem_of_mem_getLast? hc)) ?_
  exact fun hspace => h.last (hspace ▸ hc)

lemma inline_prose (h : Prose p) : inline (ofList p) = ofList p := by
  have hmarks : ∀ c ∈ markChars, isProseChar c = false := by decide
  refine inline_eq_self fun c hc => ?_
  rw [toList_ofList]
  exact h.not_mem (hmarks c (contains_iff_mem.mp hc))

/-- Lines of prose: empty ones, paragraphs, items and headings. -/
inductive ProseLine : List Char → Prop where
  | empty : ProseLine []
  | text {p : List Char} (h : Prose p) : ProseLine p
  | item {p : List Char} (h : Prose p) : ProseLine ('-' :: ' ' :: p)
  | heading {p : List Char} (level : Nat) (hpos : 1 ≤ level) (hle : level ≤ 6) (h : Prose p) :
      ProseLine (List.replicate level '#' ++ ' ' :: p)

lemma proseLine_iff : ProseLine line ↔ line = [] ∨ Prose line ∨
  (∃ p ∈ dropPrefix? ['-', ' '] line, Prose p) ∨
    ∃ level ∈ List.range' 1 6, ∃ p ∈ dropPrefix? (List.replicate level '#' ++ [' ']) line, Prose p := by
  constructor
  · intro h
    cases h with
    | empty => exact .inl rfl
    | text h => exact .inr (.inl h)
    | @item p h => exact .inr (.inr (.inl ⟨p, rfl, h⟩))
    | @heading p level hpos hle h =>
      have hp := dropPrefix?_append (List.replicate level '#' ++ [' ']) p
      rw [append_assoc] at hp
      exact .inr (.inr (.inr ⟨level, mem_range'_1.mpr ⟨hpos, by omega⟩, p, hp, h⟩))
  · rintro (rfl | h | ⟨p, hp, h⟩ | ⟨level, hlevel, p, hp, h⟩)
    · exact .empty
    · exact .text h
    · rw [dropPrefix?_eq_some hp]
      exact .item h
    · rw [dropPrefix?_eq_some hp, append_assoc]
      rw [mem_range'_1] at hlevel
      exact .heading level hlevel.1 (by omega) h

instance (line : List Char) : Decidable (ProseLine line) := decidable_of_iff' _ proseLine_iff

lemma ProseLine.tight (h : ProseLine line) : Tight line := by
  have hends : ∀ front p : List Char, Prose p → front ++ p = line →
      (∀ c ∈ line.head?, isBlank c = false) → Tight line := by
    rintro front p hp rfl hhead
    refine ⟨hhead, fun c hc => hp.getLast c ?_⟩
    have hlast := getLast?_eq_some_getLast hp.ne_nil
    rwa [getLast?_append, hlast, Option.some_or, ← hlast] at hc
  cases h with
  | empty => exact ⟨nofun, nofun⟩
  | text h =>
    refine hends [] _ h rfl ?_
    rcases h.exists_cons with ⟨c, cs, rfl, hc⟩
    rintro d ⟨rfl⟩
    exact isBlank_of_isAlphanum (by rw [Char.isAlphanum, hc]; rfl)
  | item h =>
    refine hends ['-', ' '] _ h rfl ?_
    rintro d ⟨rfl⟩
    decide
  | @heading p level hpos hle h =>
    refine hends (List.replicate level '#' ++ [' ']) _ h (by simp) ?_
    cases level with
    | zero => cases hpos
    | succ level =>
      rintro d ⟨rfl⟩
      decide

lemma ProseLine.newline_not_mem (h : ProseLine line) : '\n' ∉ line := by
  cases h with
  | empty => exact not_mem_nil
  | text h => exact h.not_mem (by decide)
  | item h => simpa using h.not_mem (c := '\n') (by decide)
  | heading level hpos hle h => simpa using h.not_mem (c := '\n') (by decide)

/-- Documents of lines of prose that start and end with a line that is not blank. -/
structure ProseDocument (content : String) : Prop where
  lines : ∀ line ∈ Text.lines content, ProseLine line.toList
  first : ∀ line ∈ (Text.lines content).head?, isBlankText line = false
  last : ∀ line ∈ (Text.lines content).getLast?, isBlankText line = false

lemma Prose.head_ne (h : Prose p) {c : Char} (hc : c.isAlpha = false) : p.head? ≠ some c := by
  rcases h.exists_cons with ⟨d, cs, rfl, hd⟩
  rintro ⟨rfl⟩
  rw [hd] at hc
  cases hc

lemma heading?_of_head (h : line.head? ≠ some '#') : heading? line = none := by
  have hnone : line.takeWhile (· = '#') = [] := by
    cases line with
    | nil => rfl
    | cons c line => exact takeWhile_cons_of_neg fun hc => h (by simpa using hc)
  rw [heading?, hnone]
  rfl

lemma shape_text (h : Prose p) : shape (ofList p) = .paragraph (ofList p) := by
  have htrim : trimChars p = p := (ProseLine.text h).tight.trimChars_eq
  have hheading : heading? p = none := heading?_of_head (h.head_ne rfl)
  rcases h.exists_cons with ⟨c, cs, rfl, hc⟩
  have hdash : c ≠ '-' := fun hc' => h.head_ne (c := '-') rfl (by rw [hc']; rfl)
  have hstar : c ≠ '*' := fun hc' => h.head_ne (c := '*') rfl (by rw [hc']; rfl)
  simp [shape, htrim, hheading, startsWith, hdash, hdash.symm, hstar.symm]

lemma shape_item (h : Prose p) :
  shape (ofList ('-' :: ' ' :: p)) = .item (ofList p) := by
  have htrim : trimChars ('-' :: ' ' :: p) = '-' :: ' ' :: p := (ProseLine.item h).tight.trimChars_eq
  have hheading : heading? ('-' :: ' ' :: p) = none := heading?_of_head (by simp)
  simp [shape, htrim, hheading, startsWith]

lemma shape_heading_line {level : Nat} (hpos : 1 ≤ level) (hle : level ≤ 6) (h : Prose p) :
  shape (ofList (List.replicate level '#' ++ ' ' :: p)) = .heading level (ofList p) := by
  have htrim := (ProseLine.heading level hpos hle h).tight.trimChars_eq
  have hlevel : (List.replicate level '#' ++ ' ' :: p).takeWhile (· = '#') = List.replicate level '#' := by
    rw [takeWhile_append_of_pos (by simp), takeWhile_cons_of_neg (by decide), append_nil]
  have hheading : heading? (List.replicate level '#' ++ ' ' :: p) = some (level, ofList p) := by
    rw [heading?, hlevel, length_replicate]
    simp [hpos, hle]
  rw [shape, toList_ofList, htrim, hheading]

lemma ProseLine.plain (h : ProseLine line) :
  ¬ isFence (ofList line) ∧ ¬ isTableLine (ofList line) := by
  have hhead : line.head? ≠ some '`' ∧ line.head? ≠ some '|' := by
    cases h with
    | empty => exact ⟨nofun, nofun⟩
    | text h => exact ⟨h.head_ne rfl, h.head_ne rfl⟩
    | item h => exact ⟨by simp, by simp⟩
    | heading level hpos hle h =>
      cases level with
      | zero => cases hpos
      | succ level => exact ⟨by simp [replicate_succ], by simp [replicate_succ]⟩
  cases line with
  | nil => exact ⟨by decide, by decide⟩
  | cons c line =>
    have hc : c ≠ '`' ∧ c ≠ '|' := by simpa using hhead
    simp [isFence, startsWith, isTableLine, hc.1.symm, hc.2]

inductive Block where
  | text (p : List Char)
  | heading (level : Nat) (p : List Char)
  | list (items : List (List Char))
  | gap

namespace Block

def fragments : Block → List Fragment
  | .text p => [.paragraph (ofList p)]
  | .heading level p => [.heading level (ofList p)]
  | .list items => .listOpen :: items.map (fun p => .item (ofList p)) ++ [.listClose]
  | .gap => [.gap]

def lines : Block → List (List Char)
  | .text p => [p]
  | .heading level p => [List.replicate level '#' ++ ' ' :: p]
  | .list items => items.map fun p => '-' :: ' ' :: p
  | .gap => []

def Plain : Block → Prop
  | .text p => Prose p
  | .heading level p => 1 ≤ level ∧ level ≤ 6 ∧ Prose p
  | .list items => ∀ p ∈ items, Prose p
  | .gap => True

lemma Plain.proseLine {b : Block} (h : b.Plain) : ∀ line ∈ b.lines, ProseLine line := by
  cases b with
  | text p => exact forall_mem_singleton.mpr (.text h)
  | heading level p => exact forall_mem_singleton.mpr (.heading level h.1 h.2.1 h.2.2)
  | list items => exact forall_mem_map.mpr fun p hp => .item (h p hp)
  | gap => exact forall_mem_nil _

end Block

namespace Reading

variable {st : Reading} {ls : List (List Char)}

def listStart (st : Reading) : List Fragment :=
  if st.inList then [.listOpen] else []

structure Continues (st : Reading) (ls : List (List Char)) (blocks : List Block) : Prop where
  plain : ∀ b ∈ blocks, b.Plain
  opened : st.inList → ∃ items rest, blocks = .list items :: rest
  walk : st.listStart ++ st.walk (ls.map ofList) = blocks.flatMap Block.fragments
  lines : ls.filter (fun line => !line.isEmpty) = blocks.flatMap Block.lines

lemma walk_proseLine {line : List Char} (hfence : st.fence = none) (htable : st.table = none)
  (h : ProseLine line) (rest : List String) :
  st.walk (ofList line :: rest) = (st.step (ofList line) rest).1 ++
    (st.step (ofList line) rest).2.walk rest := by
  have htrim : trimRight (ofList line) = ofList line := by
    rw [trimRight, toList_ofList, h.tight.trimRightChars_eq]
  have hclosed : st.tableClosed = st := by simp [tableClosed, htable]
  have hclose : st.closeTable = [] := by rw [closeTable, htable]
  rw [walk_step hfence (by rw [htrim]; exact h.plain.1) (by rw [htrim]; exact h.plain.2), htrim,
    hclosed, hclose, nil_append]

variable {next : Reading} {blocks : List Block}

lemma Continues.close (h : next.Continues ls blocks) (hnext : next.inList = false) {b : Block}
  (hb : b.Plain) {f : Fragment} (hfragments : b.fragments = [f]) (hlines : b.lines = [line])
  (hline : line ≠ []) (hwalk : st.walk ((line :: ls).map ofList) =
    st.closeList ++ [f] ++ next.walk (ls.map ofList)) :
  ∃ blocks', st.Continues (line :: ls) blocks' := by
  have hrest := h.walk
  rw [listStart, hnext, if_neg Bool.false_ne_true, nil_append] at hrest
  have hkept : (line :: ls).filter (fun line => !line.isEmpty) = (b :: blocks).flatMap Block.lines := by
    rw [filter_cons_of_pos (by simpa using hline), h.lines, flatMap_cons, hlines]
    rfl
  have hplain : ∀ b' ∈ b :: blocks, b'.Plain := forall_mem_cons.mpr ⟨hb, h.plain⟩
  cases hlist : st.inList with
  | false =>
    refine ⟨b :: blocks, hplain, fun hopen => ?_, ?_, hkept⟩
    · rw [hlist] at hopen
      cases hopen
    · rw [hwalk, listStart, closeList, hlist, hrest, flatMap_cons, hfragments]
      rfl
  | true =>
    refine ⟨.list [] :: b :: blocks, forall_mem_cons.mpr ⟨forall_mem_nil _, hplain⟩,
      fun _ => ⟨[], _, rfl⟩, ?_, hkept⟩
    rw [hwalk, listStart, closeList, hlist, hrest, flatMap_cons, flatMap_cons, hfragments]
    rfl

lemma Continues.item (h : next.Continues ls blocks) (hnext : next.inList) (hp : Prose p)
  (hwalk : st.walk (('-' :: ' ' :: p) :: ls |>.map ofList) =
    (if st.inList then [] else [.listOpen]) ++ [.item (ofList p)] ++
      next.walk (ls.map ofList)) :
  ∃ blocks', st.Continues (('-' :: ' ' :: p) :: ls) blocks' := by
  rcases h.opened hnext with ⟨items, rest, rfl⟩
  rcases forall_mem_cons.mp h.plain with ⟨hitems, hplain⟩
  have hrest : next.walk (ls.map ofList) = items.map (fun p => .item (ofList p)) ++
      .listClose :: rest.flatMap Block.fragments := by
    simpa [listStart, hnext, Block.fragments] using h.walk
  refine ⟨.list (p :: items) :: rest, forall_mem_cons.mpr ⟨forall_mem_cons.mpr ⟨hp, hitems⟩, hplain⟩,
    fun _ => ⟨p :: items, rest, rfl⟩, ?_, ?_⟩
  · rw [hwalk, hrest, listStart]
    cases st.inList <;> simp [Block.fragments]
  · rw [filter_cons_of_pos (by rfl), h.lines, flatMap_cons, flatMap_cons]
    rfl

lemma Continues.skip (h : next.Continues ls blocks) (hnext : next.inList = st.inList)
  (hwalk : st.walk (([] :: ls).map ofList) = st.gapAt (ls.map ofList) ++ next.walk (ls.map ofList)) :
  ∃ blocks', st.Continues ([] :: ls) blocks' := by
  have hrest := h.walk
  rw [listStart, hnext, ← listStart] at hrest
  have hkept : ([] :: ls).filter (fun line => !line.isEmpty) = blocks.flatMap Block.lines := h.lines
  by_cases hgap : st.gapAt (ls.map ofList) = []
  · refine ⟨blocks, h.plain, fun hopen => h.opened (hnext.trans hopen), ?_, hkept⟩
    rw [hwalk, hgap, nil_append, hrest]
  · -- A gap is left outside of lists only.
    unfold gapAt at hgap hwalk
    dsimp only at hgap hwalk
    split at hgap
    case isFalse => cases hgap rfl
    case isTrue hcond =>
      have hlist : st.inList = false := by
        simp only [Bool.and_eq_true, Bool.not_eq_true'] at hcond
        exact hcond.1.1.1.1
      rw [if_pos hcond] at hwalk
      refine ⟨.gap :: blocks, forall_mem_cons.mpr ⟨trivial, h.plain⟩, fun hopen => ?_, ?_, hkept⟩
      · rw [hlist] at hopen
        cases hopen
      · rw [listStart, hlist, if_neg Bool.false_ne_true, nil_append] at hrest ⊢
        rw [hwalk, hrest, flatMap_cons]
        rfl

lemma walk_prose (st : Reading) (hfence : st.fence = none) (htable : st.table = none)
  (h : ∀ line ∈ ls, ProseLine line) : ∃ blocks, st.Continues ls blocks := by
  -- The induction is on the lines, from any state: each kind of line goes on with its own next state.
  induction ls generalizing st with
  | nil =>
    have hwalk : st.walk [] = st.closeList := by
      rw [walk, finish, hfence, closeTable, htable]
      rfl
    cases hlist : st.inList with
    | false =>
      refine ⟨[], forall_mem_nil _, fun hopen => ?_, ?_, rfl⟩
      · rw [hlist] at hopen
        cases hopen
      · rw [map_nil, hwalk, listStart, closeList, hlist]
        rfl
    | true =>
      refine ⟨[.list []], forall_mem_singleton.mpr (forall_mem_nil _), fun _ => ⟨[], [], rfl⟩, ?_, rfl⟩
      rw [map_nil, hwalk, listStart, closeList, hlist]
      rfl
  | cons line ls ih =>
    rcases forall_mem_cons.mp h with ⟨hline, hls⟩
    have hwalk := walk_proseLine hfence htable hline (ls.map ofList)
    cases hline with
    | empty =>
      let next : Reading := { st with afterContent := false, afterParagraph := false, afterTable := false }
      rcases ih next hfence htable hls with ⟨blocks, hblocks⟩
      exact hblocks.skip rfl hwalk
    | text hp =>
      let next : Reading :=
        { st with
          inList := false, afterContent := true, afterParagraph := true, afterTable := false }
      rcases ih next hfence htable hls with ⟨blocks, hblocks⟩
      rw [step, shape_text hp] at hwalk
      exact hblocks.close rfl (b := .text line) hp rfl rfl hp.ne_nil hwalk
    | @item p hp =>
      let next : Reading := { st with inList := true, afterContent := true }
      rcases ih next hfence htable hls with ⟨blocks, hblocks⟩
      rw [step, shape_item hp] at hwalk
      exact hblocks.item rfl hp hwalk
    | @heading p level hpos hle hp =>
      let next : Reading := { st with inList := false, afterContent := true, afterParagraph := false }
      rcases ih next hfence htable hls with ⟨blocks, hblocks⟩
      rw [step, shape_heading_line hpos hle hp] at hwalk
      exact hblocks.close rfl (b := .heading level p) ⟨hpos, hle, hp⟩ rfl rfl (by simp) hwalk

end Reading

variable {content : String}

lemma ProseDocument.proseLine (h : ProseDocument content) :
  ∀ line ∈ splitAtChar '\n' content.toList, ProseLine line := by
  intro line hline
  have hprose := h.lines (ofList line) (mem_map_of_mem hline)
  rwa [toList_ofList] at hprose

lemma ProseDocument.tight (h : ProseDocument content) : Tight content.toList := by
  have hfilled : ∀ line : List Char, isBlankText (ofList line) = false → line ≠ [] := by
    rintro line hblank rfl
    cases hblank
  have hne := splitAtChar_ne_nil '\n' content.toList
  constructor
  · have hhead := head?_eq_some_head hne
    have hfirst := hfilled _ (h.first _ (by rw [Text.lines, head?_map, hhead]; rfl))
    rw [head?_of_splitAtChar hhead hfirst]
    exact (h.proseLine _ (List.head_mem hne)).tight.head
  · have hend := getLast?_eq_some_getLast hne
    have hlast := hfilled _ (h.last _ (by rw [Text.lines, getLast?_map, hend]; rfl))
    rw [getLast?_of_splitAtChar hend hlast]
    exact (h.proseLine _ (getLast_mem hne)).tight.last

lemma fragments_prose (h : ProseDocument content) : ∃ blocks : List Block,
  (∀ b ∈ blocks, b.Plain) ∧ fragments content = blocks.flatMap Block.fragments ∧
    filledLines content.toList = blocks.flatMap Block.lines := by
  rcases Reading.walk_prose {} rfl rfl h.proseLine with ⟨blocks, hblocks⟩
  refine ⟨blocks, hblocks.plain, ?_, ?_⟩
  · have hempty : content.isEmpty = false := by
      cases hempty : content.isEmpty with
      | false => rfl
      | true =>
        obtain rfl : content = "" := by simpa using hempty
        cases h.first "" rfl
    rw [fragments, hempty, if_neg Bool.false_ne_true, trim, h.tight.trimChars_eq, String.ofList_toList]
    exact hblocks.walk
  · rw [← hblocks.lines, filledLines]
    exact filter_congr fun line hline => by rw [(h.proseLine line hline).tight.all_isBlank]

end KeywordDocs.Markup
