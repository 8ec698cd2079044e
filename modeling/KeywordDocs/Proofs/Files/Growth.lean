import KeywordDocs.Discovery.Source
import KeywordDocs.Proofs.Files.Places

/-!
# Disks That Grow by Files

How a disk differs from an earlier one when files were written at some places and directories made on some
ways to them (`Disk.Grown`). Making more of them keeps it so (`Grown.adds`, `Grown.write`).
-/

namespace KeywordDocs.Files

open Text Discovery
open List hiding splitOn

variable {text : String}

namespace Disk

variable {d : Disk} {path : String}

lemma entry_eq_ok_iff {e : Entry} :
  d.entry path = .ok e ↔ ∃ p, d.place path = .ok p ∧ d.at? p = some e := by
  rw [entry]
  cases d.place path with
  | error f => simp [bind, Except.bind]
  | ok p =>
    simp only [bind, Except.bind, Except.ok.injEq, exists_eq_left']
    cases d.at? p <;> simp [pure, Except.pure]

lemma isDirectory_iff :
  d.isDirectory path ↔ ∃ p, d.place path = .ok p ∧ d.at? p = some .directory := by
  rw [← entry_eq_ok_iff, isDirectory]
  split
  case h_1 h => exact ⟨fun _ => h, fun _ => rfl⟩
  case h_2 h => exact ⟨nofun, fun hd => absurd hd h⟩

lemma readText_eq_ok_iff : d.readText path = .ok text ↔ ∃ content, d.entry path = .ok (.file content) ∧
    (String.fromUTF8? content).map uniformNewlines = some text := by
  rw [readText, read]
  cases d.entry path with
  | error f => simp [bind, Except.bind]
  | ok e =>
    cases e with
    | directory => simp [bind, Except.bind]
    | file content =>
      simp only [bind, Except.bind, pure, Except.pure, Except.ok.injEq, Entry.file.injEq,
        exists_eq_left']
      cases String.fromUTF8? content <;> simp

variable {d' : Disk} {parts : List String}

lemma makeDirectory_of_isDirectory (h : d.isDirectory path) :
  d.makeDirectory path = .error .alreadyExists := by
  rcases isDirectory_iff.mp h with ⟨p, hplace, hentry⟩
  simp only [makeDirectory, hplace, bind, Except.bind, hentry]

lemma allowDirectory_of_isDirectory (h : d.isDirectory path) : d.allowDirectory path = .ok d := by
  simp only [allowDirectory, makeDirectory_of_isDirectory h, h, if_true]

lemma isDirectory_of_makeDirectory (h : d.makeDirectory path = .ok d') : d'.isDirectory path := by
  rcases makeDirectory_eq_ok h with ⟨hnone, hne, rfl⟩
  cases hplace : d.place path with
  | error f =>
    rw [makeDirectory, hplace] at h
    cases h
  | ok p =>
    obtain rfl := place_eq_ok hplace
    -- The new directory is not on the way to itself, so the path leads where it led.
    refine isDirectory_iff.mpr ⟨_, place_mono (home_put _ _ _) (fun q hq => ?_) hplace, ?_⟩
    · have hother : q ≠ d.leadsTo path := by
        rintro rfl
        rw [hnone] at hq
        cases hq
      rw [at?_put d hne, if_neg hother, hq]
    · rw [at?_put d hne, if_pos rfl]

lemma isDirectory_of_allowDirectory (h : d.allowDirectory path = .ok d') :
  d'.isDirectory path := by
  rw [allowDirectory] at h
  split at h
  case h_1 made hmade =>
    cases h
    exact isDirectory_of_makeDirectory hmade
  case h_2 =>
    split at h
    case isTrue hdirectory =>
      cases h
      exact hdirectory
    case isFalse => cases h

lemma ensureParts_of_isDirectory {root : String}
  (h : d.isDirectory (Path.toText ⟨root, parts.reverse⟩)) :
  d.ensureParts root parts = .ok d := by
  cases parts with
  | nil => exact allowDirectory_of_isDirectory h
  | cons part before =>
    rw [ensureParts, makeDirectory_of_isDirectory h]
    exact allowDirectory_of_isDirectory h

lemma isDirectory_of_ensureParts {root : String} (h : d.ensureParts root parts = .ok d') :
  d'.isDirectory (Path.toText ⟨root, parts.reverse⟩) := by
  cases parts with
  | nil => exact isDirectory_of_allowDirectory h
  | cons part before =>
    rw [ensureParts] at h
    split at h
    · cases hbefore : d.ensureParts root before with
      | error f =>
        rw [hbefore] at h
        cases h
      | ok d₁ =>
        rw [hbefore] at h
        exact isDirectory_of_allowDirectory h
    · exact isDirectory_of_allowDirectory h

lemma ensureDirectory_eq_self_iff {p : Path} (h : d.ensureDirectory p = .ok d') :
  d' = d ↔ d.isDirectory p.toText := by
  have hmade := isDirectory_of_ensureParts h
  rw [reverse_reverse] at hmade
  constructor
  · rintro rfl
    exact hmade
  · intro hstands
    have hself : d.ensureDirectory p = .ok d :=
      ensureParts_of_isDirectory (by rw [reverse_reverse]; exact hstands)
    rw [h] at hself
    exact Except.ok.inj hself

/-- Disks that differ from an earlier one by files at some places, none of which was a directory, and
by directories at others, where there was nothing. -/
structure Grown (files ways : List Place) (start d : Disk) : Prop where
  home : d.home = start.home
  entry : ∀ p, d.at? p = start.at? p ∨
    (p ∈ files ∧ start.at? p ≠ some .directory ∧ ∃ content, d.at? p = some (.file content)) ∨
    p ∈ ways ∧ start.at? p = none ∧ d.at? p = some .directory

namespace Grown

variable {files ways ways' : List Place} {start : Disk} {p q : Place} {content : ByteArray}

lemma refl (files ways : List Place) (d : Disk) : Grown files ways d d := ⟨rfl, fun _ => .inl rfl⟩

section

variable (h : Grown files ways start d)

include h

lemma adds (hadds : Adds ways' d d') (hways : ways' ⊆ ways) : Grown files ways start d' := by
  refine ⟨hadds.home.trans h.home, fun p => ?_⟩
  rcases hadds.entry p with hsame | ⟨hmem, hnone, hmade⟩
  · rw [hsame]
    exact h.entry p
  · rcases h.entry p with hp | ⟨-, -, content, hp⟩ | ⟨-, -, hp⟩
    · exact .inr (.inr ⟨hways hmem, hp.symm.trans hnone, hmade⟩)
    · rw [hp] at hnone
      cases hnone
    · rw [hp] at hnone
      cases hnone

lemma write (hwrote : d.write path content = .ok d') (hpath : start.leadsTo path ∈ files) :
  Grown files ways start d' := by
  rw [← leadsTo_congr h.home] at hpath
  refine ⟨(home_write hwrote).trans h.home, fun p => ?_⟩
  rw [at?_write hwrote]
  split
  case isTrue hp =>
    subst hp
    refine .inr (.inl ⟨hpath, fun hdirectory => (write_eq_ok hwrote).1 ?_, content, rfl⟩)
    rcases h.entry (d.leadsTo path) with hsame | ⟨-, hfile, -⟩ | ⟨-, hnone, -⟩
    · exact hsame.trans hdirectory
    · cases hfile hdirectory
    · rw [hnone] at hdirectory
      cases hdirectory
  case isFalse => exact h.entry p

lemma at?_of_directory (hp : start.at? p = some .directory) : d.at? p = some .directory := by
  rcases h.entry p with hsame | ⟨-, hfile, -⟩ | ⟨-, hnone, -⟩
  · exact hsame.trans hp
  · cases hfile hp
  · rw [hnone] at hp
    cases hp

lemma at?_of_file (hp : start.at? p = some (.file content)) (hfiles : p ∉ files) :
  d.at? p = some (.file content) := by
  rcases h.entry p with hsame | ⟨hmem, -⟩ | ⟨-, hnone, -⟩
  · exact hsame.trans hp
  · cases hfiles hmem
  · rw [hnone] at hp
    cases hp

lemma readText_eq_ok (hpath : start.leadsTo path ∉ files) (hread : start.readText path = .ok text) :
  d.readText path = .ok text := by
  rcases Disk.readText_eq_ok_iff.mp hread with ⟨content, hentry, htext⟩
  rcases Disk.entry_eq_ok_iff.mp hentry with ⟨p, hplace, hp⟩
  obtain rfl := place_eq_ok hplace
  have hplace' := place_mono h.home (fun _ => h.at?_of_directory) hplace
  refine Disk.readText_eq_ok_iff.mpr ⟨content, Disk.entry_eq_ok_iff.mpr ⟨_, hplace', ?_⟩, htext⟩
  exact h.at?_of_file hp hpath

lemma only_files (hways : ∀ p ∈ ways, start.at? p ≠ none) : Grown files [] start d := by
  refine ⟨h.home, fun p => ?_⟩
  rcases h.entry p with hsame | hfile | ⟨hmem, hnone, -⟩
  · exact .inl hsame
  · exact .inr (.inl hfile)
  · cases (hways p hmem) hnone

end

section

variable (h : Grown files [] start d)

include h

lemma directory_iff (p : Place) : d.at? p = some .directory ↔ start.at? p = some .directory := by
  rcases h.entry p with hsame | ⟨-, hfile, content, hp⟩ | ⟨hmem, -⟩
  · rw [hsame]
  · rw [hp]
    exact ⟨nofun, fun hdirectory => absurd hdirectory hfile⟩
  · cases hmem

lemma at?_of_not_mem (hp : p ∉ files) : d.at? p = start.at? p := by
  rcases h.entry p with hsame | ⟨hmem, -⟩ | ⟨hmem, -⟩
  · exact hsame
  · cases hp hmem
  · cases hmem

lemma place_eq_ok_iff (path : String) : d.place path = .ok p ↔ start.place path = .ok p :=
  ⟨place_mono h.home.symm fun p => (h.directory_iff p).mp, place_mono h.home fun p => (h.directory_iff p).mpr⟩

lemma entry_eq_ok_iff (hpath : start.leadsTo path ∉ files) {e : Entry} :
  d.entry path = .ok e ↔ start.entry path = .ok e := by
  rw [Disk.entry_eq_ok_iff, Disk.entry_eq_ok_iff]
  refine exists_congr fun p => ?_
  rw [h.place_eq_ok_iff]
  refine and_congr_right fun hplace => ?_
  rw [h.at?_of_not_mem (place_eq_ok hplace ▸ hpath)]

lemma isDirectory_eq (path : String) : d.isDirectory path = start.isDirectory path := by
  rw [Bool.eq_iff_iff, isDirectory_iff, isDirectory_iff]
  refine exists_congr fun p => ?_
  rw [h.place_eq_ok_iff, h.directory_iff]

lemma readText_eq_ok_iff (hpath : start.leadsTo path ∉ files) :
  d.readText path = .ok text ↔ start.readText path = .ok text := by
  rw [Disk.readText_eq_ok_iff, Disk.readText_eq_ok_iff]
  refine exists_congr fun content => ?_
  rw [h.entry_eq_ok_iff hpath]

end

end Grown

lemma step_source (p : Place) (name : String) : step p (name ++ ".py") = p ++ [name ++ ".py"] := by
  have hending : ".py".toList.length = 3 := by decide
  have hlong : ∀ x : String, x.toList.length ≤ 2 → name ++ ".py" ≠ x := by
    rintro x hx rfl
    rw [String.toList_append, length_append] at hx
    omega
  rw [step, if_neg, if_neg (hlong ".." (by decide))]
  rw [Bool.or_eq_true, String.isEmpty_iff, decide_eq_true_eq]
  exact fun h => h.elim (hlong "" (by decide)) (hlong "." (by decide))

lemma leadsTo_source (d : Disk) (s : String) :
  ∃ q name, d.leadsTo (s ++ ".py") = q ++ [name ++ ".py"] := by
  have hending : '/' ∉ ".py".toList := by decide
  have hslash : "/".toList = ['/'] := by decide
  have hlast : ∀ name : String, '/' ∉ name.toList → splitOn "/" (name ++ ".py") = [name ++ ".py"] := by
    intro name hname
    refine splitOn_slash_of_not_mem ?_
    rw [String.toList_append, mem_append]
    exact fun h => h.elim hname hending
  rcases exists_last '/' s.toList with hs | ⟨a, w, hw, hs⟩
  · rw [leadsTo, hlast s hs, foldl_cons, foldl_nil]
    exact ⟨_, s, step_source _ s⟩
  · have hparts : s ++ ".py" = String.ofList a ++ "/" ++ (String.ofList w ++ ".py") := by
      rw [← String.toList_inj]
      simp only [String.toList_append, String.toList_ofList, hslash, hs, append_assoc,
        cons_append, nil_append]
    rw [leadsTo, hparts, splitOn_slash_append, hlast _ (by rwa [String.toList_ofList]),
      foldl_append, foldl_cons, foldl_nil]
    exact ⟨_, String.ofList w, step_source _ _⟩

end Disk

def sourceFree (p : Place) : Bool := p.getLast?.all fun name => !endsWith ".py" name

lemma sourceFree_source (q : Place) (name : String) : sourceFree (q ++ [name ++ ".py"]) = false := by
  have hending : endsWith ".py" (name ++ ".py") := by
    rw [endsWith, String.toList_append, isSuffixOf_iff_suffix]
    exact suffix_append _ _
  rw [sourceFree, getLast?_concat, Option.all_some, hending]
  rfl

namespace Disk.Grown

variable {files : List Place} {start d : Disk}

lemma toOption_congr {x y : Except Fault String} (h : ∀ text, x = .ok text ↔ y = .ok text) :
  x.toOption = y.toOption := by
  cases x with
  | ok text => rw [(h text).mp rfl]
  | error f =>
    cases y with
    | ok text => cases (h text).mpr rfl
    | error f' => rfl

lemma modulesIn_apply (disk : Disk) (folder : Path) (parts : List String) :
  modulesIn disk folder parts =
    (((disk.readText ((folder.append { parts }).toText ++ "/__init__.py")).toOption.or
      (disk.readText ((folder.append { parts }).toText ++ ".py")).toOption).map some).or
      (if disk.isDirectory (folder.append { parts }).toText then some none else none) := by
  rw [modulesIn]
  cases disk.readText ((folder.append { parts }).toText ++ "/__init__.py") with
  | ok text => rfl
  | error f =>
    cases disk.readText ((folder.append { parts }).toText ++ ".py") <;> rfl

lemma modulesIn_eq (h : Grown files [] start d) (hfiles : ∀ p ∈ files, sourceFree p)
  (folder : Path) : modulesIn d folder = modulesIn start folder := by
  have hread : ∀ s, (d.readText (s ++ ".py")).toOption = (start.readText (s ++ ".py")).toOption := by
    intro s
    refine toOption_congr fun text => h.readText_eq_ok_iff fun hmem => ?_
    rcases leadsTo_source start s with ⟨q, name, hplace⟩
    have hfree := hfiles _ hmem
    rw [hplace, sourceFree_source] at hfree
    cases hfree
  funext parts
  have hinit : ∀ s : String, s ++ "/__init__.py" = s ++ "/__init__" ++ ".py" := by
    intro s
    rw [String.append_assoc]
    rfl
  rw [modulesIn_apply, modulesIn_apply, hinit, hread, hread, h.isDirectory_eq]

end Disk.Grown

end KeywordDocs.Files
