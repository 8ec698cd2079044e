import KeywordDocs.Page.Markdown
import KeywordDocs.Proofs.Markup.Inline
import KeywordDocs.Proofs.Text.Measures

/-!
# Entities Written and Read

Reading all entities of escaped code in one pass (`shown`) gives back what was escaped. Markdown pages are
made by another reader, which decodes one entity after another in the whole text.
-/

namespace KeywordDocs.Markup

open Text List
open Page (decode)

variable {es : List (String × String)} (cs : List Char)

variable {table : List (Char × String)} {c : Char}

/-- A character as a table of entities writes it. -/
def written (table : List (Char × String)) (c : Char) : List Char := replaceAll table [c]

lemma replaceAll_eq_flatMap (table : List (Char × String)) (cs : List Char) :
  replaceAll table cs = cs.flatMap (written table) := by
  induction table generalizing cs with
  | nil => exact (flatMap_singleton' cs).symm
  | cons e table ih =>
    have hstep : ∀ ds, replaceAll (e :: table) ds =
        (replaceChar e.1 e.2.toList ds).flatMap (written table) := fun ds => ih _
    have hchar : written (e :: table) = fun d =>
        (if d = e.1 then e.2.toList else [d]).flatMap (written table) := by
      funext d
      rw [written, hstep, replaceChar, flatMap_singleton]
    rw [hstep, replaceChar, flatMap_assoc, hchar]

lemma written_of_not_key (h : c ∉ table.map Prod.fst) : written table c = [c] := by
  refine replaceAll_eq_self fun e he hmem => h ?_
  rw [← mem_singleton.mp hmem]
  exact mem_map_of_mem he

lemma escapeCode_toList (s : String) :
  (escapeCode s).toList = s.toList.flatMap (written codeEntities) := by
  rw [escapeCode, String.toList_ofList, replaceAll_eq_flatMap]

lemma escape_toList (s : String) : (escape s).toList = s.toList.flatMap (written entities) := by
  rw [escape, String.toList_ofList, replaceAll_eq_flatMap]

def entity : Recogniser (List Char) := fun before cs =>
  codeEntities.findSome? fun e => fixed e.2.toList [e.1] before cs

/-- What a text with the entities of code shows. -/
def shown : List Char := replaceFinds entity cs

def entityOf (table : List (Char × String)) : Recogniser (List Char) := fun before cs =>
  table.findSome? fun e => fixed e.2.toList [e.1] before cs

lemma entityOf_turns {table : List (Char × String)} (h : table = entities ∨ table = codeEntities)
  (c : Char) : Turns (entityOf table) (written table c) [c] := by
  have hblind : Blind (entityOf table) := fun _ _ _ => rfl
  by_cases hc : c ∈ table.map Prod.fst
  · have hkeys : c = '&' ∨ c = '<' ∨ c = '>' ∨ c = '"' ∨ c = '\'' := by
      rcases h with rfl | rfl <;> simpa [entities, codeEntities] using hc
    rcases h with rfl | rfl <;> rcases hkeys with rfl | rfl | rfl | rfl | rfl <;>
      exact Turns.found hblind (by decide) fun rest => rfl
  · rw [written_of_not_key hc]
    refine Turns.char hblind fun rest => findSome?_eq_none_iff.mpr fun e he => ?_
    have hstart : '&' ∈ table.map Prod.fst ∧ ∀ e ∈ table, e.2.toList.head? = some '&' := by
      rcases h with rfl | rfl <;> decide
    refine fixed_eq_none (fun hp => hc ?_) none
    rcases head?_eq_some_iff.mp (hstart.2 e he) with ⟨word, hword⟩
    rw [hword, cons_prefix_cons] at hp
    exact hp.1 ▸ hstart.1

lemma replaceFinds_entityOf {table : List (Char × String)} (h : table = entities ∨ table = codeEntities)
  (cs : List Char) : replaceFinds (entityOf table) (cs.flatMap (written table)) = cs := by
  have hturns : Turns (entityOf table) (cs.flatMap (written table)) (cs.flatMap fun c => [c]) :=
    Turns.flatMap fun c _ => entityOf_turns h c
  rw [hturns.eq, flatMap_singleton']

lemma shown_escaped : shown (cs.flatMap (written codeEntities)) = cs := replaceFinds_entityOf (.inr rfl) cs

variable {old new : List Char} {table' : List (Char × String)}

def Undoes (old new : List Char) (table table' : List (Char × String)) : Prop :=
  (∀ c ∈ table'.map Prod.fst, c ∈ table.map Prod.fst) ∧ ∀ c ∈ table.map Prod.fst,
    (written table c).head? = some '&' ∧ (written table c = old ∧ written table' c = new ∨
        written table c = written table' c ∧ noEnd old (written table c))

instance (old new : List Char) (table table' : List (Char × String)) :
  Decidable (Undoes old new table table') :=
  inferInstanceAs (Decidable (_ ∧ _))

lemma Undoes.other (h : Undoes old new table table') {c : Char} (hc : c ∉ table.map Prod.fst) :
  written table c = [c] ∧ written table' c = [c] :=
  ⟨written_of_not_key hc, written_of_not_key fun hc' => hc (h.1 c hc')⟩

lemma replaceChars_written (h : Undoes old new table table') (hold : old.head? = some '&')
  (hamp : '&' ∈ table.map Prod.fst) (cs : List Char) :
  replaceChars old new (cs.flatMap (written table)) = cs.flatMap (written table') := by
  have hne : old ≠ [] := by
    rintro rfl
    cases hold
  have hneeds : Needs (fixed old new) old := fun b s hs => fixed_eq_none hs b
  rw [replaceChars_eq_replaceFinds hne]
  refine (Turns.flatMap fun c _ => ?_).eq
  by_cases hc : c ∈ table.map Prod.fst
  · rcases (h.2 c hc).2 with ⟨hfound, hnew⟩ | ⟨hsame, hend⟩
    · rw [hfound, hnew]
      exact Turns.found (fixed_blind old new) hne fun rest => fixed_append old new rest none
    · rw [← hsame]
      exact Turns.of_shuns (fixed_blind old new) hneeds (.of_noEnd hend)
  · rcases h.other hc with ⟨hword, hword'⟩
    rw [hword, hword']
    refine Turns.of_shuns (fixed_blind old new) hneeds ?_
    cases old with
    | nil => cases hne rfl
    | cons o old =>
      cases hold
      exact Shuns.of_not_mem fun hmem => hc (mem_singleton.mp hmem ▸ hamp)

lemma replaceChars_written_literal (h : Undoes old new table table') (hold : old ≠ [])
  (hamp : '&' ∉ old.tail) (hplain : old.flatMap (written table) = old)
  (hnew : new.flatMap (written table') = new) (cs : List Char) :
  replaceChars old new (cs.flatMap (written table)) =
    (replaceChars old new cs).flatMap (written table') := by
  refine replaceChars_flatMap hold hamp (fun c => ?_) hplain hnew (fun c => ?_) cs
  · by_cases hc : c ∈ table.map Prod.fst
    · exact .inr (h.2 c hc).1
    · exact .inl (h.other hc).1
  · by_cases hc : c ∈ table.map Prod.fst
    · exact (h.2 c hc).2.imp_right fun hsame => ⟨hsame.1, .inr (.of_noEnd hsame.2)⟩
    · rcases h.other hc with ⟨hword, hword'⟩
      exact .inr ⟨hword.trans hword'.symm, .inl hword⟩

/-- A table without the entity that is decoded. -/
def without (e : String × String) (table : List (Char × String)) : List (Char × String) :=
  table.filter fun x => x.2 ≠ e.1

/-- A table without all entities that are decoded. -/
def left (es : List (String × String)) (table : List (Char × String)) : List (Char × String) :=
  es.foldl (fun table e => without e table) table

def decodesFirst : List (String × String) → List (Char × String) → Bool
  | [], _ => true
  | e :: es, table => decide (Undoes e.1.toList e.2.toList table (without e table)) &&
    e.1.toList.head? == some '&' && (table.map Prod.fst).contains '&' &&
    decodesFirst es (without e table)

def decodesThen : List (String × String) → List (Char × String) → Bool
  | [], _ => true
  | e :: es, table => decide (Undoes e.1.toList e.2.toList table (without e table)) &&
    !e.1.toList.isEmpty && !e.1.toList.tail.contains '&' &&
    e.1.toList.flatMap (written table) == e.1.toList &&
    e.2.toList.flatMap (written (without e table)) == e.2.toList && decodesThen es (without e table)

lemma decode_first (h : decodesFirst es table) (cs : List Char) :
  decode es (cs.flatMap (written table)) = cs.flatMap (written (left es table)) := by
  induction es generalizing table with
  | nil => rfl
  | cons e es ih =>
    simp only [decodesFirst, Bool.and_eq_true, decide_eq_true_eq, beq_iff_eq, contains_iff_mem] at h
    obtain ⟨⟨⟨hundoes, hhead⟩, hamp⟩, hrest⟩ := h
    exact (congrArg (decode es) (replaceChars_written hundoes hhead hamp cs)).trans (ih hrest)

lemma decode_then (h : decodesThen es table)
  (cs : List Char) : decode es (cs.flatMap (written table)) =
    (decode es cs).flatMap (written (left es table)) := by
  induction es generalizing table cs with
  | nil => rfl
  | cons e es ih =>
    simp only [decodesThen, Bool.and_eq_true, decide_eq_true_eq, beq_iff_eq, Bool.not_eq_true',
      List.isEmpty_eq_false_iff, contains_eq_mem, decide_eq_false_iff_not] at h
    obtain ⟨⟨⟨⟨⟨hundoes, hne⟩, hamp⟩, hplain⟩, hnew⟩, hrest⟩ := h
    exact (congrArg (decode es)
      (replaceChars_written_literal hundoes hne hamp hplain hnew cs)).trans (ih hrest _)

lemma decode_written (first rest : List (String × String)) (hfirst : decodesFirst first table)
  (hrest : decodesThen rest (left first table)) (cs : List Char) :
  decode (first ++ rest) (cs.flatMap (written table)) =
    (decode rest cs).flatMap (written (left rest (left first table))) := by
  rw [decode, foldl_append, ← decode_then hrest, ← decode_first hfirst]
  rfl

def literalEntities : List (String × String) := Page.markdownEntities.drop 2

lemma decode_escaped : decode Page.markdownEntities (cs.flatMap (written codeEntities)) =
    (decode literalEntities cs).flatMap (written [('\'', "&#39;")]) :=
  decode_written (Page.markdownEntities.take 2) _ (by decide) (by decide) cs

end KeywordDocs.Markup
