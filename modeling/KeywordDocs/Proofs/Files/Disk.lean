import KeywordDocs.Files.Disk
import Mathlib.Data.List.Basic
import Mathlib.Data.List.Infix
import Mathlib.Tactic.SplitIfs

/-!
# Disks That Grow

What a run can do to a disk. A path leads to a place that depends on its text and on where relative paths
start, not on what else there is (`place_eq_ok`).
-/

namespace KeywordDocs.Files.Disk

open Text
open List hiding splitOn

instance : DecidableEq Entry
  | .file a, .file b =>
    match ByteArray.instDecidableEq a b with
    | .isTrue h => .isTrue (congrArg Entry.file h)
    | .isFalse h => .isFalse fun hsame => h (Entry.file.inj hsame)
  | .file _, .directory => .isFalse Entry.noConfusion
  | .directory, .file _ => .isFalse Entry.noConfusion
  | .directory, .directory => .isTrue rfl

variable {d d' : Disk} {p q : Place} {e : Entry}

lemma lookup_setEntry (p q : Place) (e : Entry) (entries : List (Place × Entry)) :
  (setEntry p e entries).lookup q = if q = p then some e else entries.lookup q := by
  have hcons : ∀ (r : Place) (old : Entry) (rest : List (Place × Entry)),
      ((r, old) :: rest).lookup q = if q = r then some old else rest.lookup q := by
    intro r old rest
    by_cases hq : q = r
    · rw [if_pos hq, lookup_cons, beq_iff_eq.mpr hq]
    · rw [if_neg hq, lookup_cons, beq_false_of_ne hq]
  induction entries with
  | nil => exact hcons p e []
  | cons entry entries ih =>
    rcases entry with ⟨r, old⟩
    rw [setEntry]
    by_cases hr : r = p
    · rw [if_pos hr, hcons, hcons, hr]
      by_cases hq : q = p
      · rw [if_pos hq, if_pos hq]
      · rw [if_neg hq, if_neg hq, if_neg hq]
    · rw [if_neg hr, hcons, hcons, ih]
      by_cases hq : q = r
      · rw [if_pos hq, if_neg (fun h => hr (hq.symm.trans h)), if_pos hq]
      · rw [if_neg hq, if_neg hq]

@[simp]
lemma at?_root (d : Disk) : d.at? [] = some .directory := rfl

lemma at?_put (d : Disk) (hp : p ≠ []) (e : Entry) (q : Place) :
  (d.put p e).at? q = if q = p then some e else d.at? q := by
  cases q with
  | nil => rw [at?_root, if_neg (fun h => hp h.symm), at?_root]
  | cons name q =>
    simp only [at?, put, isEmpty_cons, Bool.false_eq_true, if_false]
    exact lookup_setEntry p (name :: q) e d.entries

@[simp]
lemma home_put (d : Disk) (p : Place) (e : Entry) : (d.put p e).home = d.home := rfl

variable {path : String} {steps : List String}

def step (p : Place) (name : String) : Place :=
  if name.isEmpty || name = "." then p else if name = ".." then p.dropLast else p ++ [name]

/-- The place a path leads to if every step starts from a directory. -/
def leadsTo (d : Disk) (path : String) : Place :=
  (splitOn "/" path).foldl step (if startsWith "/" path then [] else d.home)

lemma walk_of_directory (hp : d.at? p = some .directory) (name : String) (steps : List String) :
  d.walk p (name :: steps) = d.walk (step p name) steps := by
  rw [walk, hp, step]
  dsimp only
  split_ifs <;> rfl

lemma walk_ne_ok (hp : d.at? p ≠ some .directory) (name : String) (steps : List String) :
  d.walk p (name :: steps) ≠ .ok q := by
  intro h
  rw [walk] at h
  split at h
  · exact hp ‹_›
  · cases h
  · cases h

lemma walk_eq_ok (h : d.walk p steps = .ok q) : steps.foldl step p = q := by
  induction steps generalizing p with
  | nil =>
    cases h
    rfl
  | cons name steps ih =>
    by_cases hp : d.at? p = some .directory
    · rw [walk_of_directory hp] at h
      exact ih h
    · cases (walk_ne_ok hp name steps) h

lemma walk_mono (h : ∀ p, d.at? p = some .directory → d'.at? p = some .directory)
  (hwalk : d.walk p steps = .ok q) : d'.walk p steps = .ok q := by
  induction steps generalizing p with
  | nil => exact hwalk
  | cons name steps ih =>
    by_cases hp : d.at? p = some .directory
    · rw [walk_of_directory hp] at hwalk
      rw [walk_of_directory (h p hp)]
      exact ih hwalk
    · cases (walk_ne_ok hp name steps) hwalk

lemma place_eq_ok (h : d.place path = .ok p) : d.leadsTo path = p := by
  rw [place] at h
  split at h
  · cases h
  · exact walk_eq_ok h

lemma place_mono (hhome : d'.home = d.home)
  (h : ∀ p, d.at? p = some .directory → d'.at? p = some .directory) (hplace : d.place path = .ok p) :
  d'.place path = .ok p := by
  rw [place] at hplace ⊢
  split at hplace
  · cases hplace
  case isFalse hfilled =>
    rw [if_neg hfilled, hhome]
    exact walk_mono h hplace

lemma leadsTo_congr (h : d'.home = d.home) (path : String) : d'.leadsTo path = d.leadsTo path := by
  rw [leadsTo, leadsTo, h]

variable {d'' : Disk} {ways ways' : List Place}

/-- Nothing is new but directories, where nothing was. -/
structure Adds (ways : List Place) (d d' : Disk) : Prop where
  home : d'.home = d.home
  entry : ∀ p, d'.at? p = d.at? p ∨ p ∈ ways ∧ d.at? p = none ∧ d'.at? p = some .directory

namespace Adds

lemma refl (ways : List Place) (d : Disk) : Adds ways d d := ⟨rfl, fun _ => .inl rfl⟩

lemma mono (h : Adds ways d d') (hways : ways ⊆ ways') : Adds ways' d d' :=
  ⟨h.home, fun p => (h.entry p).imp_right fun hp => ⟨hways hp.1, hp.2⟩⟩

lemma trans (h : Adds ways d d') (h' : Adds ways d' d'') : Adds ways d d'' := by
  refine ⟨h'.home.trans h.home, fun p => ?_⟩
  rcases h.entry p with hp | ⟨hmem, hnone, hp⟩
  · rcases h'.entry p with hp' | ⟨hmem, hnone, hp'⟩
    · exact .inl (hp'.trans hp)
    · exact .inr ⟨hmem, hp.symm.trans hnone, hp'⟩
  · rcases h'.entry p with hp' | ⟨-, hnone', -⟩
    · exact .inr ⟨hmem, hnone, hp'.trans hp⟩
    · rw [hp] at hnone'
      cases hnone'

lemma file_iff (h : Adds ways d d') (content : ByteArray) :
  d'.at? p = some (.file content) ↔ d.at? p = some (.file content) := by
  rcases h.entry p with hsame | ⟨-, hnone, hmade⟩
  · rw [hsame]
  · rw [hnone, hmade]
    exact ⟨nofun, nofun⟩

end Adds

lemma makeDirectory_eq_ok {path : String} (h : d.makeDirectory path = .ok d') :
  d.at? (d.leadsTo path) = none ∧ d.leadsTo path ≠ [] ∧ d' = d.put (d.leadsTo path) .directory := by
  rw [makeDirectory] at h
  cases hplace : d.place path with
  | error f =>
    rw [hplace] at h
    cases h
  | ok p =>
    rw [hplace] at h
    obtain rfl := place_eq_ok hplace
    simp only [bind, Except.bind] at h
    split at h
    case h_1 => cases h
    case h_2 hnone =>
      cases h
      refine ⟨hnone, fun hroot => ?_, rfl⟩
      rw [hroot, at?_root] at hnone
      cases hnone

lemma allowDirectory_adds {path : String} (h : d.allowDirectory path = .ok d') :
  Adds [d.leadsTo path] d d' := by
  rw [allowDirectory] at h
  split at h
  case h_1 made hmade =>
    cases h
    rcases makeDirectory_eq_ok hmade with ⟨hnone, hne, rfl⟩
    refine ⟨rfl, fun p => ?_⟩
    rw [at?_put d hne]
    by_cases hp : p = d.leadsTo path
    · exact .inr ⟨mem_singleton.mpr hp, hp ▸ hnone, if_pos hp⟩
    · exact .inl (if_neg hp)
  case h_2 =>
    split at h
    · cases h
      exact Adds.refl _ d
    · cases h

/-- The places on the way to a directory, with that of the directory itself. -/
def way (d : Disk) (p : Path) : List Place :=
  p.parts.reverse.tails.map fun rest => d.leadsTo (Path.toText ⟨p.root, rest.reverse⟩)

lemma way_congr (h : d'.home = d.home) (p : Path) : d'.way p = d.way p :=
  map_congr_left fun _ _ => leadsTo_congr h _

lemma ensureParts_adds {root : String} {parts : List String} (h : d.ensureParts root parts = .ok d') :
  Adds (parts.tails.map fun rest => d.leadsTo (Path.toText ⟨root, rest.reverse⟩)) d d' := by
  induction parts generalizing d' with
  | nil => exact (allowDirectory_adds h).mono (by simp)
  | cons part before ih =>
    have hlast : ∀ {d₁ : Disk}, d₁.home = d.home →
        d₁.allowDirectory (Path.toText ⟨root, (part :: before).reverse⟩) = .ok d' →
        Adds ((part :: before).tails.map fun rest => d.leadsTo (Path.toText ⟨root, rest.reverse⟩))
          d₁ d' := by
      intro d₁ hhome hallow
      refine (allowDirectory_adds hallow).mono ?_
      rw [leadsTo_congr hhome, tails_cons, map_cons]
      exact cons_subset_cons _ (nil_subset _)
    rw [ensureParts] at h
    split at h
    · cases hbefore : d.ensureParts root before with
      | error f =>
        rw [hbefore] at h
        cases h
      | ok d₁ =>
        rw [hbefore] at h
        refine ((ih hbefore).mono ?_).trans (hlast (ih hbefore).home h)
        rw [tails_cons, map_cons]
        exact subset_cons_self _ _
    · exact hlast rfl h

lemma ensureDirectory_adds {p : Path} (h : d.ensureDirectory p = .ok d') : Adds (d.way p) d d' :=
  ensureParts_adds h

variable {content : ByteArray}

lemma write_eq_ok (h : d.write path content = .ok d') :
  d.at? (d.leadsTo path) ≠ some .directory ∧ d' = d.put (d.leadsTo path) (.file content) := by
  rw [write] at h
  cases hplace : d.place path with
  | error f =>
    rw [hplace] at h
    cases h
  | ok p =>
    rw [hplace] at h
    obtain rfl := place_eq_ok hplace
    simp only [bind, Except.bind] at h
    split at h
    case h_1 => cases h
    case h_2 hfile =>
      cases h
      exact ⟨hfile, rfl⟩

lemma at?_write (h : d.write path content = .ok d') (p : Place) :
  d'.at? p = if p = d.leadsTo path then some (.file content) else d.at? p := by
  rcases write_eq_ok h with ⟨hfile, rfl⟩
  refine at?_put d (fun hroot => hfile ?_) _ p
  rw [hroot, at?_root]

lemma home_write (h : d.write path content = .ok d') : d'.home = d.home := by rw [(write_eq_ok h).2, home_put]

end KeywordDocs.Files.Disk
