import KeywordDocs.Proofs.Markup.Fencing

/-!
# Blocks in Turn

Whether the blocks of a documentation text are shown in order. `blocksInTurn` reads a text block by block: a
fence with its code, a table, or a single line. The reader of blocks goes line by line.
-/

namespace KeywordDocs.Markup

open Text List

/-- Whether a fragment shows lines. The others frame lists and set blocks apart. -/
def Fragment.isBlock : Fragment → Bool
  | .listOpen | .listClose | .gap => false
  | _ => true

def shownBlocks (fs : List Fragment) : List Fragment := fs.filter Fragment.isBlock

/-- The fragment of a line that is a block by itself; a blank line is none. -/
def LineShape.block : LineShape → List Fragment
  | .heading level text => [.heading level text]
  | .rule => [.rule]
  | .item text => [.item text]
  | .blank => []
  | .paragraph text => [.paragraph text]

def inTable (line : String) : Bool := isTableLine (trimRight line)

/-- The code of a fence; no lines make no fragment. -/
def codeRun (language : String) (run : List String) : List Fragment :=
  if run.isEmpty then [] else [.code language run]

def blocksInTurn : List String → List Fragment
  | [] => []
  | line :: rest =>
    if isFence line then
      .codeOpen (fenceLanguage line) ::
        (codeRun (fenceLanguage line) (rest.takeWhile fun l => !isFence l) ++
          .codeClose :: blocksInTurn (rest.dropWhile fun l => !isFence l).tail)
    else if inTable line then
      .table ((line :: rest.takeWhile inTable).map trimRight) ::
        blocksInTurn (rest.dropWhile inTable)
    else (shape (trimRight line)).block ++ blocksInTurn rest
termination_by ls => ls.length
decreasing_by
  · have h := (dropWhile_sublist (l := rest) fun l => !isFence l).length_le
    simp only [length_tail, length_cons]
    omega
  · have h := (dropWhile_sublist (l := rest) inTable).length_le
    simp only [length_cons]
    omega
  · exact Nat.lt_succ_self _

/-- Whether, outside of code, a line of a table stands right before a fence. -/
def tableMeetsFence : Bool → List String → Bool
  | _, [] => false
  | inCode, line :: rest =>
    if isFence line then tableMeetsFence (!inCode) rest
    else !inCode && inTable line && rest.head?.any isFence || tableMeetsFence inCode rest

/-- The fragments of blocks, and what is shown instead: up to a table that a fence follows they are
the same; then comes the fence, and the table later, with more lines. -/
def Displaced (blocks shown : List Fragment) : Prop :=
  ∃ before table language after moved more rest,
    blocks = before ++ .table table :: .codeOpen language :: after ∧
      shown = before ++ .codeOpen language :: (moved ++ .table (table ++ more) :: rest)

lemma Displaced.ne {blocks shown : List Fragment} (h : Displaced blocks shown) :
  shown ≠ blocks := by
  rcases h with ⟨before, table, language, after, moved, more, rest, rfl, rfl⟩
  intro heq
  cases (cons.inj (append_cancel_left heq)).1

def InTurn (meets : Bool) (blocks shown : List Fragment) : Prop :=
  if meets then Displaced blocks shown else shown = blocks

lemma InTurn.append {meets : Bool} {blocks shown : List Fragment} (h : InTurn meets blocks shown)
  (front : List Fragment) : InTurn meets (front ++ blocks) (front ++ shown) := by
  cases meets with
  | false => exact congrArg (front ++ ·) h
  | true =>
    rcases h with ⟨before, table, language, after, moved, more, rest, rfl, rfl⟩
    exact ⟨front ++ before, table, language, after, moved, more, rest, by simp, by simp⟩

def ShowsLater (table : List String) (fs : List Fragment) : Prop :=
  ∃ moved more rest, fs = moved ++ .table (table ++ more) :: rest

lemma ShowsLater.cons {table : List String} {fs : List Fragment} (h : ShowsLater table fs)
  (f : Fragment) : ShowsLater table (f :: fs) := by
  rcases h with ⟨moved, more, rest, rfl⟩
  exact ⟨f :: moved, more, rest, rfl⟩

lemma shownBlocks_cons {f : Fragment} (h : f.isBlock) (fs : List Fragment) :
  shownBlocks (f :: fs) = f :: shownBlocks fs := filter_cons_of_pos h

lemma shownBlocks_append (a b : List Fragment) :
  shownBlocks (a ++ b) = shownBlocks a ++ shownBlocks b := filter_append a b

variable {line : String} {rest : List String}

lemma isFence_of_inTable (h : inTable line) : isFence line = false := by
  rw [← isFence_trimRight]
  cases hfence : isFence (trimRight line) with
  | false => rfl
  | true =>
    rcases isFence_iff.mp hfence with ⟨cs, hcs⟩
    rw [inTable, isTableLine, hcs] at h
    cases h

lemma tableMeetsFence_code (ls : List String) :
  tableMeetsFence true ls = tableMeetsFence false (ls.dropWhile fun l => !isFence l).tail := by
  induction ls with
  | nil => rfl
  | cons line ls ih =>
    rw [tableMeetsFence]
    cases hline : isFence line with
    | true =>
      rw [if_pos rfl, dropWhile_cons_of_neg (by simp [hline])]
      rfl
    | false =>
      rw [if_neg Bool.false_ne_true, dropWhile_cons_of_pos (by simp [hline]), ← ih]
      rfl

lemma tableMeetsFence_table (hline : inTable line) :
  tableMeetsFence false (line :: rest) = ((rest.dropWhile inTable).head?.any isFence ||
    tableMeetsFence false (rest.dropWhile inTable)) := by
  induction rest generalizing line with
  | nil =>
    rw [tableMeetsFence, isFence_of_inTable hline, if_neg Bool.false_ne_true, hline]
    rfl
  | cons next rest ih =>
    rw [tableMeetsFence, isFence_of_inTable hline, if_neg Bool.false_ne_true, hline]
    cases hnext : inTable next with
    | true =>
      rw [dropWhile_cons_of_pos hnext, ← ih hnext, head?_cons, Option.any_some, isFence_of_inTable hnext]
      rfl
    | false =>
      rw [dropWhile_cons_of_neg (by simp [hnext])]
      rfl

namespace Reading

variable {st : Reading} {ls table : List String}

lemma step_table (line : String) (rest : List String) :
  (st.step line rest).2.table = st.table := by
  rw [step]
  cases shape line <;> rfl

lemma closeList_blocks : shownBlocks st.closeList = [] := by
  rw [closeList]
  split <;> rfl

lemma step_blocks (line : String) (rest : List String) :
  shownBlocks (st.step line rest).1 = (shape line).block := by
  rw [step]
  cases shape line with
  | heading level text =>
    dsimp only
    rw [shownBlocks_append, closeList_blocks]
    rfl
  | rule => rfl
  | item text =>
    dsimp only
    rw [shownBlocks_append]
    cases st.inList <;> rfl
  | blank =>
    dsimp only
    rw [gapAt]
    split <;> rfl
  | paragraph text =>
    dsimp only
    rw [shownBlocks_append, closeList_blocks]
    rfl

lemma walk_fenced {language : String} (hfence : st.fence = some language) :
  st.walk ls = codeRun language (ls.takeWhile fun l => !isFence l) ++
    .codeClose :: { st with fence := none }.walk (ls.dropWhile fun l => !isFence l).tail := by
  have hclosing : ∀ ls : List String, (∀ l ∈ ls.head?, isFence l) →
      st.walk ls = .codeClose :: { st with fence := none }.walk ls.tail := by
    intro ls hls
    cases ls with
    | nil =>
      rw [tail_nil, walk, walk, finish, finish, hfence]
      rfl
    | cons line ls => exact walk_closing hfence (hls line rfl)
  cases ls with
  | nil => exact hclosing [] (by simp)
  | cons line ls =>
    cases hline : isFence line with
    | true =>
      rw [takeWhile_cons_of_neg (by simp [hline]), dropWhile_cons_of_neg (by simp [hline])]
      exact hclosing _ (by simp [hline])
    | false =>
      rw [walk_code hfence (by simp [hline]), takeWhile_cons_of_pos (by simp [hline]),
        dropWhile_cons_of_pos (by simp [hline]), hclosing]
      · rfl
      · intro l hl
        have h := head?_dropWhile_not (fun l => !isFence l) ls
        rw [Option.mem_def.mp hl] at h
        simpa using h

lemma walk_tables (hfence : st.fence = none) (htable : st.table = some table) :
  st.walk ls = { st with table := some (table ++ (ls.takeWhile inTable).map trimRight) }.walk
    (ls.dropWhile inTable) := by
  induction ls generalizing st table with
  | nil => rw [takeWhile_nil, map_nil, append_nil, dropWhile_nil, ← htable]
  | cons line ls ih =>
    cases hline : inTable line with
    | false =>
      rw [takeWhile_cons_of_neg (by simp [hline]), dropWhile_cons_of_neg (by simp [hline]),
        map_nil, append_nil, ← htable]
    | true =>
      have hplain : ¬ isFence (trimRight line) := by
        rw [isFence_trimRight, isFence_of_inTable hline]
        exact Bool.false_ne_true
      rw [walk_table hfence hplain hline, htable, Option.getD_some, takeWhile_cons_of_pos hline,
        dropWhile_cons_of_pos hline, @ih { st with table := some (table ++ [trimRight line]) } _ hfence rfl]
      simp

lemma walk_tableClosed (hfence : st.fence = none) (htable : st.table = some table)
  (hls : ∀ l ∈ ls.head?, isFence l = false ∧ inTable l = false) :
  st.walk ls = .table table :: st.tableClosed.walk ls := by
  have hclosed : st.tableClosed = { st with table := none, afterTable := true } := by
    rw [tableClosed, htable]
    rfl
  cases ls with
  | nil =>
    rw [walk, walk, finish, finish, hclosed, hfence, closeTable, htable]
    rfl
  | cons line ls =>
    rcases hls line rfl with ⟨hline, htable'⟩
    have hplain : ¬ isFence (trimRight line) := by
      rw [isFence_trimRight, hline]
      exact Bool.false_ne_true
    have hbar : ¬ isTableLine (trimRight line) := by
      rw [← inTable, htable']
      exact Bool.false_ne_true
    have hagain : st.tableClosed.tableClosed = st.tableClosed := by
      rw [hclosed]
      rfl
    rw [walk_step hfence hplain hbar, walk_step (by rw [hclosed]; exact hfence) hplain hbar, hagain,
      closeTable, htable, closeTable, hclosed]
    rfl

lemma walk_showsLater (st : Reading) (ls : List String) : ∀ table, st.table = some table →
  ShowsLater table (shownBlocks (st.walk ls)) := by
  -- Lines of code and fences leave the table open, and its own lines make it longer.
  induction st, ls using Reading.walk.induct with
  | case1 st =>
    intro table htable
    refine ⟨shownBlocks (if st.fence.isSome then [.codeClose] else []), [], [], ?_⟩
    rw [walk, finish, shownBlocks_append, shownBlocks_append, closeList_blocks, closeTable, htable,
      append_nil, append_nil]
    rfl
  | case2 st raw rest language hfence hraw ih =>
    intro table htable
    rw [walk_closing hfence hraw, shownBlocks_cons rfl]
    exact (ih table htable).cons _
  | case3 st raw rest language hfence hraw ih =>
    intro table htable
    rw [walk_code hfence hraw, shownBlocks_cons rfl]
    exact (ih table htable).cons _
  | case4 st raw rest hfence line hline ih =>
    intro table htable
    rw [walk_opening hfence hline, shownBlocks_cons rfl]
    exact (ih table htable).cons _
  | case5 st raw rest hfence line hline hbar ih =>
    intro table htable
    rcases ih (table ++ [line]) (by rw [htable]; rfl) with ⟨moved, more, after, h⟩
    exact ⟨moved, line :: more, after, by rw [walk_table hfence hline hbar, h]; simp⟩
  | case6 st raw rest hfence line hline hbar out next hstep ih =>
    intro table htable
    refine ⟨[], [], shownBlocks (out ++ next.walk rest), ?_⟩
    have hout : out = (st.tableClosed.step line rest).1 := congrArg Prod.fst hstep.symm
    have hnext : next = (st.tableClosed.step line rest).2 := congrArg Prod.snd hstep.symm
    rw [walk_step hfence hline hbar, ← hout, ← hnext, append_assoc, shownBlocks_append, closeTable,
      htable, append_nil]
    rfl

lemma walk_inTurn (hfence : st.fence = none) (htable : st.table = none) (ls : List String) :
  InTurn (tableMeetsFence false ls) (blocksInTurn ls) (shownBlocks (st.walk ls)) := by
  induction ls using blocksInTurn.induct generalizing st with
  | case1 =>
    rw [tableMeetsFence, walk, finish, hfence, shownBlocks_append, shownBlocks_append, closeTable,
      htable, closeList_blocks, blocksInTurn]
    rfl
  | case2 line rest hline ih =>
    rw [tableMeetsFence, if_pos hline, Bool.not_false, tableMeetsFence_code, blocksInTurn,
      if_pos hline, walk_opening hfence (isFence_trimRight.trans hline), fenceLanguage_trimRight hline,
      walk_fenced rfl, shownBlocks_cons rfl, shownBlocks_append, shownBlocks_cons rfl]
    have hcode : shownBlocks (codeRun (fenceLanguage line) (rest.takeWhile fun l => !isFence l)) =
        codeRun (fenceLanguage line) (rest.takeWhile fun l => !isFence l) := by
      rw [codeRun]
      split <;> rfl
    rw [hcode]
    exact ((@ih { st with fence := none } rfl htable).append [.codeClose]).append
      (_ :: codeRun _ _)
  | case3 line rest hline hbar ih =>
    have hrun : st.walk (line :: rest) = { st with
        table := some ((line :: rest.takeWhile inTable).map trimRight) }.walk
          (rest.dropWhile inTable) := by
      rw [walk_table hfence (by rwa [isFence_trimRight]) hbar, htable]
      exact @walk_tables _ _ [trimRight line] hfence rfl
    rw [hrun, tableMeetsFence_table hbar, blocksInTurn, if_neg hline, if_pos hbar]
    generalize (line :: rest.takeWhile inTable).map trimRight = table
    have hhead : ∀ l ∈ (rest.dropWhile inTable).head?, inTable l = false := by
      intro l hl
      have h := head?_dropWhile_not inTable rest
      rwa [Option.mem_def.mp hl] at h
    generalize rest.dropWhile inTable = after at ih hhead
    -- The table is still open; a fence is the only line that can come before it.
    cases hmeets : after.head?.any isFence with
    | false =>
      have hplain : ∀ l ∈ after.head?, isFence l = false ∧ inTable l = false := fun l hl =>
        ⟨by rwa [Option.mem_def.mp hl, Option.any_some] at hmeets, hhead l hl⟩
      rw [@walk_tableClosed { st with table := some table } _ _ hfence rfl hplain,
        shownBlocks_cons rfl, Bool.false_or]
      exact (@ih (tableClosed { st with table := some table }) hfence rfl).append [.table table]
    | true =>
      cases after with
      | nil => cases hmeets
      | cons fence after =>
        rw [head?_cons, Option.any_some] at hmeets
        have hopening := @walk_opening { st with table := some table } _ after hfence
          (isFence_trimRight.trans hmeets)
        rw [hopening, fenceLanguage_trimRight hmeets, shownBlocks_cons rfl, blocksInTurn,
          if_pos hmeets, Bool.true_or]
        rcases walk_showsLater { st with table := some table, fence := some (fenceLanguage fence) }
          after table rfl with ⟨moved, more, later, hlater⟩
        rw [hlater]
        exact ⟨[], table, fenceLanguage fence, _, moved, more, later, rfl, rfl⟩
  | case4 line rest hline hbar ih =>
    have hplain : ¬ isFence (trimRight line) := by rwa [isFence_trimRight]
    have hopen : st.tableClosed = st := by
      rw [tableClosed, htable]
      rfl
    have hclose : st.closeTable = [] := by rw [closeTable, htable]
    have hmeets : tableMeetsFence false (line :: rest) = tableMeetsFence false rest := by
      rw [tableMeetsFence, if_neg hline, eq_false_of_ne_true hbar]
      rfl
    rw [hmeets, blocksInTurn, if_neg hline, if_neg hbar, walk_step hfence hplain hbar,
      hclose, nil_append, shownBlocks_append, hopen, step_blocks]
    exact (ih (by rw [step_fence, hfence]) (by rw [step_table, htable])).append _

end Reading

/-- The blocks of a text are shown one after another exactly if no table meets a fence. -/
theorem fragments_inTurn_iff (content : String) :
  (shownBlocks (fragments content) = blocksInTurn (lines (trim content)) ↔
      tableMeetsFence false (lines (trim content)) = false) ∧
    (tableMeetsFence false (lines (trim content)) = true →
      Displaced (blocksInTurn (lines (trim content))) (shownBlocks (fragments content))) := by
  rw [fragments_eq_walk]
  generalize lines (trim content) = ls
  have h : InTurn (tableMeetsFence false ls) (blocksInTurn ls) (shownBlocks (Reading.walk {} ls)) :=
    Reading.walk_inTurn rfl rfl ls
  cases hmeets : tableMeetsFence false ls with
  | true =>
    rw [hmeets] at h
    exact ⟨⟨fun heq => absurd heq (Displaced.ne h), fun hfalse => by cases hfalse⟩, fun _ => h⟩
  | false =>
    rw [hmeets] at h
    exact ⟨⟨fun _ => rfl, fun _ => h⟩, fun htrue => by cases htrue⟩

end KeywordDocs.Markup
