import KeywordDocs.Command.Options
import Mathlib.Data.List.Basic
import Mathlib.Tactic.SplitIfs

/-!
# A Switch before a Command Line

A command line that starts with a switch is read as the rest of it, with the switch on: no option changes or
looks at what another one has set.
-/

namespace KeywordDocs.Command

open Text

variable {w : Word} {word : String}

def inParallel (o : Options) : Options := { o with parallel := true }

def Reading.inParallel (r : Reading) : Reading := { r with options := Command.inParallel r.options }

/-- Options that leave parallel mode alone: they do the same to the others whether it is on or not. -/
def Effect.Apart : Effect → Prop
  | .help => True
  | .switch set => ∀ o, set (inParallel o) = inParallel (set o)
  | .text set | .oneOf _ set => ∀ s o, set s (inParallel o) = inParallel (set s o)
  | .number set => ∀ n o, set n (inParallel o) = inParallel (set n o)

variable {c : Choice} {o : Options} {r r' : Reading}

lemma choices_apart : ∀ c ∈ choices, c.effect.Apart := by
  intro c hc
  simp only [choices, List.mem_cons, List.not_mem_nil, or_false] at hc
  rcases hc with rfl | rfl | rfl | rfl | rfl | rfl | rfl | rfl | rfl | rfl | rfl | rfl <;>
    simp [Effect.Apart, inParallel]

lemma apply_inParallel (hc : c.effect.Apart) (value : String) (o : Options) :
  c.apply value (inParallel o) = (c.apply value o).map inParallel := by
  rcases c with ⟨names, effect⟩
  cases effect with
  | help => rfl
  | switch set => rfl
  | text set => exact congrArg Except.ok (hc value o)
  | number set =>
    unfold Choice.apply
    dsimp only
    cases Number.readInt? value with
    | none => rfl
    | some n => exact congrArg Except.ok (hc n o)
  | oneOf values set =>
    unfold Choice.apply
    dsimp only
    split
    · exact congrArg Except.ok (hc value o)
    · rfl

lemma applyJoined_inParallel (hc : c.effect.Apart) (isShort : Bool) (cs : List Char) (o : Options) :
  applyJoined c isShort cs (inParallel o) = (applyJoined c isShort cs o).map inParallel := by
  cases cs with
  | nil =>
    rcases c with ⟨names, effect⟩
    cases effect with
    | switch set => exact congrArg Except.ok (hc o)
    | _ => rfl
  | cons ch rest =>
    unfold applyJoined
    dsimp only
    split
    · split <;> rfl
    · exact apply_inParallel hc _ o

lemma bind_inParallel {changed changed' : Except Refusal Options}
  (h : changed' = changed.map inParallel) (r : Reading) :
  (do return { r.inParallel with options := ← changed' } : Except Refusal Reading) =
    (do return { r with options := ← changed } : Except Refusal Reading).map Reading.inParallel := by
  rw [h]
  cases changed <;> rfl

lemma readOption_inParallel (hc : c.effect.Apart) (name : String) (value : Option String) :
  readOption r.inParallel c name value = (readOption r c name value).map Reading.inParallel := by
  have hjoined : ∀ value : String, applyJoined c (!startsWith "--" name) value.toList
      r.inParallel.options = (applyJoined c (!startsWith "--" name) value.toList r.options).map
        inParallel := fun value => applyJoined_inParallel hc _ _ _
  have hvalue : ∀ value : String, c.apply value r.inParallel.options =
      (c.apply value r.options).map inParallel := fun value => apply_inParallel hc value _
  rcases c with ⟨names, effect⟩
  cases value with
  | none =>
    cases effect with
    | switch set =>
      have hset : set (inParallel r.options) = inParallel (set r.options) := hc r.options
      show Except.ok { r.inParallel with options := set (inParallel r.options) } = _
      rw [hset]
      rfl
    | _ => rfl
  | some value =>
    cases effect with
    | help =>
      unfold readOption
      dsimp only
      split
      · rfl
      · exact bind_inParallel (hjoined value) r
    | switch set =>
      unfold readOption
      dsimp only
      split
      · rfl
      · exact bind_inParallel (hjoined value) r
    | _ => exact bind_inParallel (hvalue value) r

/-- The option that waits for its value leaves parallel mode alone. -/
def Reading.Apart (r : Reading) : Prop := ∀ c, r.pending = some c → c.effect.Apart

/-- A word that leaves parallel mode alone. -/
def Word.Apart (w : Word) : Prop := ∀ c name value, w = .option c name value → c.effect.Apart

lemma readWord_inParallel (hr : r.Apart) (hw : w.Apart) :
  readWord r.inParallel w = (readWord r w).map Reading.inParallel := by
  rcases r with ⟨options, pending, awaitsInput, hasJustInput, unknown⟩
  cases pending with
  | some c =>
    cases w with
    | value v =>
      exact bind_inParallel (apply_inParallel (hr c rfl) v options)
        ⟨options, none, awaitsInput, hasJustInput, unknown⟩
    | _ => rfl
  | none =>
    cases w with
    | option c name value =>
      exact readOption_inParallel (r := ⟨options, none, awaitsInput, false, unknown⟩)
        (hw c name value rfl) name value
    | stray s => rfl
    | value s => cases awaitsInput <;> rfl
    | mark => cases awaitsInput <;> cases hasJustInput <;> rfl

lemma bind_pending {changed : Except Refusal Options}
  (h : (do return { r with options := ← changed } : Except Refusal Reading) = .ok r') :
  r'.pending = r.pending := by
  cases changed with
  | error e => cases h
  | ok o =>
    cases h
    rfl

lemma readOption_pending {name : String} {value : Option String}
  (h : readOption r c name value = .ok r') : r'.pending = r.pending ∨ r'.pending = some c := by
  rcases c with ⟨names, effect⟩
  cases value with
  | none =>
    cases effect with
    | help => cases h
    | switch set =>
      cases h
      exact .inl rfl
    | _ =>
      cases h
      exact .inr rfl
  | some value =>
    cases effect with
    | help =>
      unfold readOption at h
      dsimp only at h
      split at h
      · cases h
      · exact .inl (bind_pending h)
    | switch set =>
      unfold readOption at h
      dsimp only at h
      split at h
      · cases h
      · exact .inl (bind_pending h)
    | _ => exact .inl (bind_pending h)

lemma readWord_apart (hw : w.Apart) (h : readWord r w = .ok r') : r'.Apart := by
  rcases r with ⟨options, pending, awaitsInput, hasJustInput, unknown⟩
  have hnone : r'.pending = none → r'.Apart := fun hnone c hc => by
    rw [hnone] at hc
    cases hc
  cases pending with
  | some c =>
    cases w with
    | value v => exact hnone (bind_pending (r := ⟨options, none, awaitsInput, hasJustInput, unknown⟩) h)
    | _ => cases h
  | none =>
    cases w with
    | option c name value =>
      rcases readOption_pending h with hpending | hpending
      · exact hnone hpending
      · intro c' hc'
        rw [hpending] at hc'
        cases hc'
        exact hw c name value rfl
    | stray s =>
      cases h
      exact hnone rfl
    | value s =>
      cases awaitsInput <;>
      · cases h
        exact hnone rfl
    | mark =>
      cases awaitsInput <;> cases hasJustInput <;>
      · cases h
        exact hnone rfl

lemma foldlM_inParallel {words : List Word} (hr : r.Apart) (hwords : ∀ w ∈ words, w.Apart) :
  words.foldlM readWord r.inParallel = (words.foldlM readWord r).map Reading.inParallel := by
  induction words generalizing r with
  | nil => rfl
  | cons w words ih =>
    rw [List.forall_mem_cons] at hwords
    rw [List.foldlM_cons, List.foldlM_cons, readWord_inParallel hr hwords.1]
    cases hread : readWord r w with
    | error e => rfl
    | ok r' => exact ih (readWord_apart hwords.1 hread) hwords.2

lemma mem_named {n : String × Choice} (h : n ∈ named) : n.2.effect.Apart := by
  rcases List.mem_flatMap.mp h with ⟨c, hc, hn⟩
  rcases List.mem_map.mp hn with ⟨name, -, rfl⟩
  exact choices_apart c hc

lemma lookup_named {c : Choice} (h : named.lookup word = some c) : c.effect.Apart := by
  rcases List.lookup_eq_some_iff.mp h with ⟨before, after, hnamed, -⟩
  exact mem_named (n := (word, c)) (by rw [hnamed]; simp)

lemma mem_meanings {word name : String} {c : Choice} {value : Option String}
  (h : (name, c, value) ∈ meanings word) : c.effect.Apart := by
  unfold meanings at h
  split at h
  · rcases List.mem_map.mp h with ⟨n, hn, heq⟩
    cases heq
    exact mem_named (List.mem_of_mem_filter hn)
  · rcases List.mem_filterMap.mp h with ⟨n, hn, heq⟩
    split_ifs at heq
    · cases heq
      exact mem_named hn
    · cases heq
      exact mem_named hn

lemma classify_apart (h : classify word = .ok w) : w.Apart := by
  rintro c name value rfl
  unfold classify at h
  split at h
  · cases h
  · split at h
    case h_1 hlookup =>
      cases h
      exact lookup_named hlookup
    case h_2 =>
      dsimp only at h
      split at h
      case h_1 hlookup =>
        cases h
        exact lookup_named hlookup
      case h_2 =>
        split at h
        case h_1 hmeanings =>
          cases h
          exact mem_meanings (by rw [hmeanings]; exact List.mem_singleton_self _)
        case h_2 => split at h <;> cases h
        case h_3 => cases h

lemma classifyAll_apart {words : List String} {ws : List Word} (h : classifyAll words = .ok ws) :
  ∀ w ∈ ws, w.Apart := by
  induction words generalizing ws with
  | nil =>
    cases h
    exact List.forall_mem_nil _
  | cons word words ih =>
    rw [classifyAll] at h
    split at h
    · cases h
      refine List.forall_mem_cons.mpr ⟨nofun, fun w hw => ?_⟩
      rcases List.mem_map.mp hw with ⟨value, -, rfl⟩
      exact nofun
    · cases hword : classify word with
      | error e =>
        rw [hword] at h
        cases h
      | ok w =>
        cases hwords : classifyAll words with
        | error e =>
          rw [hword, hwords] at h
          cases h
        | ok rest =>
          rw [hword, hwords] at h
          cases h
          exact List.forall_mem_cons.mpr ⟨classify_apart hword, ih hwords⟩

lemma readOptions_parallel (words : List String) :
  readOptions ("--parallel" :: words) = (readOptions words).map inParallel := by
  have hswitch : classify "--parallel" = .ok (.option
      ⟨["--parallel"], .switch fun o => { o with parallel := true }⟩ "--parallel" none) := rfl
  have hall : classifyAll ("--parallel" :: words) = (classifyAll words).map (.option
      ⟨["--parallel"], .switch fun o => { o with parallel := true }⟩ "--parallel" none :: ·) := by
    rw [classifyAll, if_neg (by decide), hswitch]
    cases classifyAll words <;> rfl
  rw [readOptions, readOptions, hall]
  cases hwords : classifyAll words with
  | error e => rfl
  | ok ws =>
    have hfirst : (Word.option ⟨["--parallel"], .switch fun o => { o with parallel := true }⟩
        "--parallel" none :: ws).foldlM readWord {} =
          (ws.foldlM readWord {}).map Reading.inParallel :=
      foldlM_inParallel (r := {}) nofun (classifyAll_apart hwords)
    simp only [Except.map, bind, Except.bind, hfirst]
    cases ws.foldlM readWord {} with
    | error e => rfl
    | ok r =>
      rcases r with ⟨options, pending, awaitsInput, hasJustInput, unknown⟩
      cases pending with
      | some c => rfl
      | none => cases unknown <;> rfl

end KeywordDocs.Command
