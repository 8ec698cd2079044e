import KeywordDocs.Proofs.Json.RoundTrip
import KeywordDocs.Proofs.Text.Rewriting
import KeywordDocs.Samples.Strings

/-!
# Objects in Texts

An object is looked for by its braces: the first opening one from which on others are closed at once, up to
the one that closes it, with those in strings counted. So a written object is found whole, and read back, if
and only if its braces are an outer pair with pairs next to each other inside. Otherwise another text is read
in its place, or none.
-/

namespace KeywordDocs.Samples

open List Json

variable {inner : Bool} {cs front back found r : List Char} {c : Char} {n : Nat}
  {members : List (String × Json)} {before after : String}

def isBrace (c : Char) : Bool := c = '{' || c = '}'

def braces (cs : List Char) : List Char := cs.filter isBrace

/-- So many pairs of braces, one next to the other. -/
def pairs (n : Nat) : List Char := (replicate n ['{', '}']).flatten

lemma objectRest_eq_none (h : ∀ c ∈ back, isBrace c = false) (inner : Bool) :
  objectRest inner back = none := by
  induction back with
  | nil => rfl
  | cons c back ih =>
    rcases forall_mem_cons.mp h with ⟨hc, hback⟩
    rcases Bool.or_eq_false_iff.mp hc with ⟨hopen, hclose⟩
    rw [objectRest, if_neg (of_decide_eq_false hopen), if_neg (of_decide_eq_false hclose), ih hback]
    rfl

lemma objectRest_append (h : ∀ c ∈ back, isBrace c = false) (inner : Bool) (cs : List Char) :
  objectRest inner (cs ++ back) = objectRest inner cs := by
  induction cs generalizing inner with
  | nil => exact objectRest_eq_none h inner
  | cons c cs ih => rw [cons_append, objectRest, objectRest, ih, ih, ih]

lemma embeddedObject?_behind (h : ∀ c ∈ front, isBrace c = false) (cs : List Char) :
  embeddedObject? (front ++ cs) = embeddedObject? cs := by
  induction front with
  | nil => rfl
  | cons c front ih =>
    rcases forall_mem_cons.mp h with ⟨hc, hfront⟩
    rcases Bool.or_eq_false_iff.mp hc with ⟨hopen, -⟩
    rw [cons_append, embeddedObject?, if_neg (of_decide_eq_false hopen), ih hfront]

lemma embeddedObject?_append (h : ∀ c ∈ back, isBrace c = false) (cs : List Char) :
  embeddedObject? (cs ++ back) = embeddedObject? cs := by
  induction cs with
  | nil =>
    have hnone := embeddedObject?_behind h []
    rw [append_nil] at hnone
    exact hnone
  | cons c cs ih => rw [cons_append, embeddedObject?, embeddedObject?, ih, objectRest_append h]

lemma pairs_succ (n : Nat) : pairs (n + 1) = '{' :: '}' :: pairs n := by
  rw [pairs, replicate_succ, flatten_cons]
  rfl

def closing (inner : Bool) : List Char :=
  if inner then ['}'] else []

lemma braces_cons (c : Char) (cs : List Char) :
  braces (c :: cs) = if isBrace c = true then c :: braces cs else braces cs := by
  rw [braces, filter_cons]
  rfl

lemma braces_of_objectRest (h : objectRest inner cs = some r) :
  r <+: cs ∧ ∃ n, braces r = closing inner ++ (pairs n ++ ['}']) := by
  induction cs generalizing inner r with
  | nil => cases h
  | cons c cs ih =>
    rw [objectRest] at h
    split at h
    case isTrue hopen =>
      cases inner with
      | true => cases h
      | false =>
        rcases Option.map_eq_some_iff.mp h with ⟨r, hr, rfl⟩
        rcases ih hr with ⟨hfront, n, hbraces⟩
        refine ⟨cons_prefix_cons.mpr ⟨rfl, hfront⟩, n + 1, ?_⟩
        rw [braces_cons, hopen, hbraces, pairs_succ]
        rfl
    case isFalse hopen =>
      split at h
      case isTrue hclose =>
        cases inner with
        | true =>
          rcases Option.map_eq_some_iff.mp h with ⟨r, hr, rfl⟩
          rcases ih hr with ⟨hfront, n, hbraces⟩
          refine ⟨cons_prefix_cons.mpr ⟨rfl, hfront⟩, n, ?_⟩
          rw [braces_cons, hclose, hbraces]
          rfl
        | false =>
          cases h
          refine ⟨cons_prefix_cons.mpr ⟨rfl, nil_prefix⟩, 0, ?_⟩
          rw [hclose]
          rfl
      case isFalse hclose =>
        rcases Option.map_eq_some_iff.mp h with ⟨r, hr, rfl⟩
        rcases ih hr with ⟨hfront, n, hbraces⟩
        refine ⟨cons_prefix_cons.mpr ⟨rfl, hfront⟩, n, ?_⟩
        have hother : isBrace c = false :=
          Bool.or_eq_false_iff.mpr ⟨decide_eq_false hopen, decide_eq_false hclose⟩
        rw [braces_cons, hother, if_neg Bool.false_ne_true, hbraces]

lemma getLast?_of_braces (hlast : (c :: cs).getLast? = some '}') (h : braces cs ≠ []) :
  cs.getLast? = some '}' := by
  cases cs with
  | nil => cases h rfl
  | cons d cs => rwa [getLast?_cons_cons] at hlast

lemma objectRest_of_braces (h : braces cs = closing inner ++ (pairs n ++ ['}']))
  (hlast : cs.getLast? = some '}') : objectRest inner cs = some cs := by
  induction cs generalizing inner n with
  | nil => cases hlast
  | cons c cs ih =>
    rw [objectRest]
    rw [braces_cons] at h
    split
    case isTrue hopen =>
      rw [hopen] at h
      cases inner with
      | true => cases h
      | false =>
        cases n with
        | zero => cases h
        | succ n =>
          rw [pairs_succ] at h
          have hbraces : braces cs = closing true ++ (pairs n ++ ['}']) := (cons.inj h).2
          have hne : braces cs ≠ [] := by rw [hbraces]; exact cons_ne_nil _ _
          rw [ih hbraces (getLast?_of_braces hlast hne)]
          rfl
    case isFalse hopen =>
      split
      case isTrue hclose =>
        rw [hclose] at h
        cases inner with
        | true =>
          have hbraces : braces cs = closing false ++ (pairs n ++ ['}']) := (cons.inj h).2
          have hne : braces cs ≠ [] := by
            rw [hbraces]
            exact append_ne_nil_of_right_ne_nil _ (append_ne_nil_of_right_ne_nil _ (cons_ne_nil _ _))
          rw [ih hbraces (getLast?_of_braces hlast hne)]
          rfl
        | false =>
          cases n with
          | succ n =>
            rw [pairs_succ] at h
            cases h
          | zero =>
            -- The last brace is closed here, so that nothing can follow it.
            have hbraces : braces cs = [] := (cons.inj h).2
            cases cs with
            | nil => rfl
            | cons d cs =>
              rw [getLast?_cons_cons] at hlast
              have hmem := mem_filter.mpr ⟨mem_of_getLast? hlast, (rfl : isBrace '}' = true)⟩
              exact absurd hmem (by rw [show filter isBrace (d :: cs) = [] from hbraces]; exact not_mem_nil)
      case isFalse hclose =>
        have hother : isBrace c = false :=
          Bool.or_eq_false_iff.mpr ⟨decide_eq_false hopen, decide_eq_false hclose⟩
        rw [hother, if_neg Bool.false_ne_true] at h
        have hne : braces cs ≠ [] := by
          rw [h]
          exact append_ne_nil_of_right_ne_nil _ (append_ne_nil_of_right_ne_nil _ (cons_ne_nil _ _))
        rw [ih h (getLast?_of_braces hlast hne)]
        rfl

lemma embeddedObject?_within (h : embeddedObject? cs = some found) : found <:+: cs := by
  induction cs with
  | nil => cases h
  | cons c cs ih =>
    rw [embeddedObject?] at h
    split at h
    case isTrue hopen =>
      cases hrest : objectRest false cs with
      | some r =>
        rw [hrest] at h
        cases h
        exact (cons_prefix_cons.mpr ⟨rfl, (braces_of_objectRest hrest).1⟩).isInfix
      | none =>
        rw [hrest] at h
        exact (ih h).trans (suffix_cons c cs).isInfix
    case isFalse => exact (ih h).trans (suffix_cons c cs).isInfix

lemma flat_iff (hcs : cs.getLast? = some '}') :
  embeddedObject? ('{' :: cs) = some ('{' :: cs) ↔ ∃ n, braces ('{' :: cs) = '{' :: (pairs n ++ ['}']) := by
  have hcons : braces ('{' :: cs) = '{' :: braces cs := rfl
  rw [hcons]
  constructor
  · intro h
    rw [embeddedObject?, if_pos rfl] at h
    cases hrest : objectRest false cs with
    | some r =>
      rw [hrest] at h
      cases h
      rcases (braces_of_objectRest hrest).2 with ⟨n, hbraces⟩
      exact ⟨n, congrArg _ hbraces⟩
    | none =>
      rw [hrest] at h
      have hlength := (embeddedObject?_within h).length_le
      rw [length_cons] at hlength
      omega
  · rintro ⟨n, h⟩
    have hbraces : braces cs = closing false ++ (pairs n ++ ['}']) := (cons.inj h).2
    rw [embeddedObject?, if_pos rfl, objectRest_of_braces hbraces hcs]
    rfl

/-- The text that is read in place of a written object with no braces around it is that object if, and only
if, its braces are an outer pair with pairs next to each other inside: nothing in it is nested deeper,
and no brace stands in a string but in such pairs. The object is then recovered. -/
theorem recovered_if_flat (h : Recoverable (.obj members))
  (hbefore : ∀ c ∈ before.toList, isBrace c = false) (hafter : ∀ c ∈ after.toList, isBrace c = false) :
  (embeddedObject? (before ++ compact (.obj members) ++ after).toList =
      some (compact (.obj members)).toList ↔
    ∃ n, braces (compact (.obj members)).toList = '{' :: (pairs n ++ ['}'])) ∧
  ((∃ n, braces (compact (.obj members)).toList = '{' :: (pairs n ++ ['}'])) →
    strings.call "extract_json_from_text" [.str (before ++ compact (.obj members) ++ after)] [] =
      outcome (.ok (Value.ofJson (.obj members)))) := by
  have hfound : embeddedObject? (before ++ compact (.obj members) ++ after).toList =
        some (compact (.obj members)).toList ↔
      ∃ n, braces (compact (.obj members)).toList = '{' :: (pairs n ++ ['}']) := by
    rw [String.toList_append, String.toList_append, embeddedObject?_append hafter,
      embeddedObject?_behind hbefore, toList_compact_obj]
    exact flat_iff getLast?_concat
  refine ⟨hfound, fun hflat => ?_⟩
  have hextract : extractJson (before ++ compact (.obj members) ++ after) = some (.obj members) := by
    rw [extractJson, hfound.mpr hflat, Option.bind_some, String.ofList_toList, read_compact h]
    rfl
  have hcall : strings.call "extract_json_from_text" [.str (before ++ compact (.obj members) ++ after)] [] =
      outcome (.ok (((extractJson (before ++ compact (.obj members) ++ after)).map Value.ofJson).getD
        .none)) := rfl
  rw [hcall, hextract]
  rfl

theorem recovered_if_flat_nested :
  let flat : List (String × Json) := [("a", .obj [("b", .float 0.5)]), ("c", .str "\x7b\x7d")]
  let deep : List (String × Json) := [("a", .obj [("b", .obj [])])]
  strings.call "extract_json_from_text" [.str ("x: " ++ compact (.obj flat) ++ ".")] [] =
      outcome (.ok (Value.ofJson (.obj flat))) ∧
    embeddedObject? ("x: " ++ compact (.obj deep) ++ ".").toList ≠ some (compact (.obj deep)).toList := by
  intro flat deep
  have hbefore : ∀ c ∈ "x: ".toList, isBrace c = false := by decide
  have hafter : ∀ c ∈ ".".toList, isBrace c = false := by decide
  have hflat : Recoverable (.obj flat) := .obj (by decide) (forall_mem_cons.mpr
    ⟨.obj (by decide) (forall_mem_singleton.mpr (.float 0.5 (p := 3) rfl)), forall_mem_singleton.mpr (.str _)⟩)
  have hdeep : Recoverable (.obj deep) := .obj (by decide) (forall_mem_singleton.mpr
    (.obj (by decide) (forall_mem_singleton.mpr (.obj nodup_nil (forall_mem_nil _)))))
  refine ⟨(recovered_if_flat hflat hbefore hafter).2 ⟨2, by decide +kernel⟩, fun hfound => ?_⟩
  rcases (recovered_if_flat hdeep hbefore hafter).1.mp hfound with ⟨n, hn⟩
  have hbraces : braces (compact (.obj deep)).toList = ['{', '{', '{', '}', '}', '}'] := by decide +kernel
  rw [hbraces] at hn
  rcases n with _ | n
  · cases hn
  · rw [pairs_succ] at hn
    cases hn

end KeywordDocs.Samples
