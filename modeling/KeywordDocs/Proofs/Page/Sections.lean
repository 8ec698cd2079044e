import KeywordDocs.Proofs.Page.Anchors

/-!
# Sections of Keywords

The section of a keyword is one element with everything about it. Its tags are read with a stack of open
elements (`Reader.step`), and one that closes another element than the last one opened is refused.
-/

namespace KeywordDocs.Page

open Text Markup Highlight
open Option (bind_some)
open String (toList_append ofList toList_ofList)
open List hiding replace

variable {α : Type}

variable {p : List Char → Bool} {st st' : List String} {cs v inner : List Char}

/-- The name of the element that a tag opens, by what is between the brackets of the tag. -/
def elementName (inner : List Char) : String :=
  ofList ((inner.takeWhile fun c => !isBlank c && c != '/').map Char.toLower)

/-- Whether a name is that of an element without content, or does not begin with a letter as in a
comment. -/
def isVoid (name : String) : Bool := ["img", "br", "hr"].contains name || !name.toList.head?.any Char.isAlpha

/-- The elements that are open after a tag, if it may stand there. -/
def afterTag (st : List String) : List Char → Option (List String)
  | '/' :: inner => if st.head? = some (elementName inner) then some st.tail else none
  | inner => some (if isVoid (elementName inner) then st else elementName inner :: st)

/-- How far markup is read. -/
structure Reader where
  /-- The open elements, the last one first. -/
  opened : List String
  /-- What is read of a tag that is not closed, the last character first. -/
  tag : Option (List Char) := none
  deriving DecidableEq

variable {r r' : Reader}

/-- The reader after one more character, if tags must satisfy `p`. -/
def Reader.step (p : List Char → Bool) (r : Reader) (c : Char) : Option Reader :=
  match r.tag with
  | none => some { r with tag := if c = '<' then some [] else none }
  | some inner =>
    if c ≠ '>' then some { r with tag := some (c :: inner) }
    else if p inner.reverse then (afterTag r.opened inner.reverse).map fun st => ⟨st, none⟩
    else none

def Reader.run (p : List Char → Bool) (r : Reader) (cs : List Char) : Option Reader :=
  cs.foldlM (Reader.step p) r

/-- Markup whose elements are closed in the reverse order of opening, with tags that satisfy `p`. -/
def NestedWith (p : List Char → Bool) (cs : List Char) : Prop := Reader.run p ⟨[], none⟩ cs = some ⟨[], none⟩

instance (p : List Char → Bool) (cs : List Char) : Decidable (NestedWith p cs) :=
  inferInstanceAs (Decidable (_ = _))

/-- Markup whose elements are closed in the reverse order of opening. -/
abbrev Nested (cs : List Char) : Prop := NestedWith (fun _ => true) cs

lemma run_append (r : Reader) (a b : List Char) :
  r.run p (a ++ b) = (r.run p a).bind fun r => r.run p b :=
  foldlM_append

lemma run_cons (r : Reader) (c : Char) (cs : List Char) :
  r.run p (c :: cs) = (r.step p c).bind fun r => r.run p cs :=
  foldlM_cons

lemma run_text (hv : '<' ∉ v) (st : List String) : Reader.run p ⟨st, none⟩ v = some ⟨st, none⟩ := by
  induction v with
  | nil => rfl
  | cons c v ih =>
    rw [mem_cons, not_or] at hv
    have hstep : Reader.step p ⟨st, none⟩ c = some ⟨st, none⟩ := by simp [Reader.step, Ne.symm hv.1]
    rw [run_cons, hstep]
    exact ih hv.2

lemma run_inner (hv : '>' ∉ v) (st : List String) (inner : List Char) :
  Reader.run p ⟨st, some inner⟩ v = some ⟨st, some (v.reverse ++ inner)⟩ := by
  induction v generalizing inner with
  | nil => rfl
  | cons c v ih =>
    rw [mem_cons, not_or] at hv
    have hstep : Reader.step p ⟨st, some inner⟩ c = some ⟨st, some (c :: inner)⟩ := if_pos (Ne.symm hv.1)
    rw [run_cons, hstep, reverse_cons, append_assoc]
    exact ih hv.2 (c :: inner)

lemma run_tag (hinner : '>' ∉ inner) (st : List String) (cs : List Char) :
  Reader.run p ⟨st, none⟩ ('<' :: (inner ++ '>' :: cs)) = if p inner then
    (afterTag st inner).bind fun st => Reader.run p ⟨st, none⟩ cs else none := by
  have hopen : Reader.step p ⟨st, none⟩ '<' = some ⟨st, some []⟩ := rfl
  rw [run_cons, hopen, bind_some, run_append, run_inner hinner, bind_some, append_nil, run_cons]
  have hclose : Reader.step p ⟨st, some inner.reverse⟩ '>' =
      if p inner then (afterTag st inner).map fun st => ⟨st, none⟩ else none := by
    simp [Reader.step]
  rw [hclose]
  cases p inner with
  | false => rfl
  | true => cases afterTag st inner <;> rfl

lemma exists_tag (h : Reader.run p ⟨st, none⟩ ('<' :: cs) = some ⟨st', none⟩) :
  ∃ inner rest, '>' ∉ inner ∧ cs = inner ++ '>' :: rest := by
  by_cases hclosed : '>' ∈ cs
  · rcases eq_append_cons_of_mem hclosed with ⟨inner, rest, hcs, hinner⟩
    exact ⟨inner, rest, hinner, hcs⟩
  · have hopen : Reader.step p ⟨st, none⟩ '<' = some ⟨st, some []⟩ := rfl
    rw [run_cons, hopen, bind_some, run_inner hclosed] at h
    cases h

lemma afterTag_append (h : afterTag st inner = some st') (below : List String) :
  afterTag (st ++ below) inner = some (st' ++ below) := by
  unfold afterTag at h ⊢
  split at h
  case h_1 inner =>
    split at h
    case isTrue hhead =>
      rcases head?_eq_some_iff.mp hhead with ⟨rest, rfl⟩
      cases h
      exact if_pos rfl
    case isFalse => cases h
  case h_2 =>
    cases h
    split <;> rfl

lemma step_below {c : Char} (h : r.step p c = some r') (below : List String) :
  Reader.step p ⟨r.opened ++ below, r.tag⟩ c = some ⟨r'.opened ++ below, r'.tag⟩ := by
  unfold Reader.step at h ⊢
  cases htag : r.tag with
  | none =>
    rw [htag] at h
    cases h
    rfl
  | some inner =>
    rw [htag] at h
    dsimp only at h ⊢
    split at h
    case isTrue hc =>
      cases h
      exact if_pos hc
    case isFalse hc =>
      split at h
      case isTrue hp =>
        rcases Option.map_eq_some_iff.mp h with ⟨st, hst, rfl⟩
        rw [if_neg hc, if_pos hp, afterTag_append hst below]
        rfl
      case isFalse => cases h

lemma run_below (h : r.run p cs = some r') (below : List String) :
  Reader.run p ⟨r.opened ++ below, r.tag⟩ cs = some ⟨r'.opened ++ below, r'.tag⟩ := by
  induction cs generalizing r with
  | nil =>
    cases h
    rfl
  | cons c cs ih =>
    rw [run_cons] at h ⊢
    rcases Option.bind_eq_some_iff.mp h with ⟨next, hnext, hrest⟩
    rw [step_below hnext]
    exact ih hrest

lemma NestedWith.run (h : NestedWith p cs) (st : List String) :
  Reader.run p ⟨st, none⟩ cs = some ⟨st, none⟩ :=
  run_below h st

lemma NestedWith.append {a b : List Char} (ha : NestedWith p a) (hb : NestedWith p b) :
  NestedWith p (a ++ b) := by
  rw [NestedWith, run_append, ha]
  exact hb

lemma afterTag_attributes (name : List Char) {x : String}
  (hname : name.all (fun c => !isBlank c && c != '/'))
  (hx : ofList (name.map Char.toLower) = x) (attributes : List Char) (st : List String) :
  afterTag st (name ++ ' ' :: attributes) = some (if isVoid x then st else x :: st) := by
  have hstop : (' ' :: attributes).takeWhile (fun c => !isBlank c && c != '/') = [] := rfl
  have helement : elementName (name ++ ' ' :: attributes) = x := by
    rw [elementName, takeWhile_append_of_pos (all_eq_true.mp hname), hstop, append_nil, hx]
  unfold afterTag
  split
  case h_1 inner heq =>
    cases name with
    | nil => cases heq
    | cons c name =>
      rw [cons_append, cons.injEq] at heq
      rw [heq.1] at hname
      cases hname
  case h_2 => rw [helement]

variable {b : Option Char} {new target label rest : List Char} {n : Nat}

def linkFront : List Char :=
  "a href=\"".toList

def imageLink (target label rest : List Char) : List Char :=
  '!' :: '<' :: (linkFront ++ target ++ ['"'] ++ '>' :: (label ++ '<' :: (['/', 'a'] ++ '>' :: rest)))

lemma imageLink_append (target label rest : List Char) :
  imageLink target label rest = imageLink target label [] ++ rest := by
  simp [imageLink]

def imageInner (target label : List Char) : List Char :=
  ['i', 'm', 'g'] ++ ' ' :: ("alt=\"".toList ++ replaceAll entities label ++ "\" src=\"".toList ++
    target ++ "\" /".toList)

lemma filledUpTo_not_mem {stop : Char} {body : List Char} (h : filledUpTo stop cs = some (body, rest)) :
  stop ∉ body := by
  rw [filledUpTo] at h
  split at h
  case h_1 heq =>
    cases h
    exact (span_ne_eq heq).2
  case h_2 => cases h

lemma brokenImage_eq_some (h : brokenImage b cs = some (new, n)) :
  ∃ target label rest, '"' ∉ target ∧ '<' ∉ label ∧ cs = imageLink target label rest ∧
    new = '<' :: (imageInner target label ++ ['>']) ∧ n = (imageLink target label []).length := by
  rcases Option.bind_eq_some_iff.mp h with ⟨after, hafter, h⟩
  rcases Option.bind_eq_some_iff.mp h with ⟨found, htarget, h⟩
  rcases Option.bind_eq_some_iff.mp h with ⟨inside, hinside, h⟩
  split at h
  case h_1 => cases h
  case h_2 label closing hne hspan =>
    rcases Option.bind_eq_some_iff.mp h with ⟨rest, hrest, h⟩
    cases h
    have hclosing : closing = '<' :: (['/', 'a'] ++ '>' :: rest) := dropPrefix?_eq_some hrest
    have hcs : cs = '!' :: '<' :: (linkFront ++ after) := dropPrefix?_eq_some hafter
    have hquote : inside = label ++ closing := by
      rw [hclosing] at hspan ⊢
      exact (span_ne_eq hspan).1
    have hlabel : '<' ∉ label := by
      rw [hclosing] at hspan
      exact (span_ne_eq hspan).2
    have hfront : linkFront.length = 8 := rfl
    refine ⟨found.1, label, rest, filledUpTo_not_mem htarget, hlabel, ?_,
      (append_assoc _ "\" /".toList ['>']).symm, ?_⟩
    · rw [hcs, filledUpTo_eq_some htarget, dropPrefix?_eq_some hinside, hquote, hclosing, imageLink]
      simp
    · simp [imageLink, hfront]
      omega

lemma brokenImage_blind : Blind brokenImage := fun _ _ _ => rfl

lemma brokenImage_needs : Needs brokenImage ['!', '<'] := by
  intro b cs hcs
  cases h : brokenImage b cs with
  | none => rfl
  | some found =>
    rcases brokenImage_eq_some h with ⟨target, label, rest, -, -, rfl, -, -⟩
    cases hcs ⟨_, rfl⟩

/-- Tags without a bracket in them whose quotation marks are in pairs. -/
def isTidy (inner : List Char) : Bool :=
  !inner.contains '<' && inner.count '"' % 2 == 0

lemma run_imageLink (htarget : '"' ∉ target) (hlabel : '<' ∉ label)
  (h : Reader.run isTidy ⟨st, none⟩ (imageLink target label rest) = some ⟨st', none⟩) :
  '>' ∉ target ∧ Reader.run isTidy ⟨st, none⟩ rest = some ⟨st', none⟩ := by
  have hmark : Reader.step isTidy ⟨st, none⟩ '!' = some ⟨st, none⟩ := rfl
  rw [imageLink, run_cons, hmark, bind_some] at h
  have hfront : linkFront.count '"' = 1 := rfl
  -- A target with a bracket would end the tag there, with the only quotation mark before the target.
  have hopen : '>' ∉ target := by
    intro hmem
    rcases eq_append_cons_of_mem hmem with ⟨front, back, rfl, hclosed⟩
    have hquote : '"' ∉ front := fun hq => htarget (mem_append_left _ hq)
    have hinner : '>' ∉ linkFront ++ front := not_mem_append (by decide) hclosed
    have htidy : isTidy (linkFront ++ front) = false := by
      simp [isTidy, count_append, hfront, count_eq_zero.mpr hquote]
    have hsplit : linkFront ++ (front ++ '>' :: back) ++ ['"'] ++ '>' :: (label ++ '<' ::
        (['/', 'a'] ++ '>' :: rest)) = linkFront ++ front ++ '>' :: (back ++ ['"'] ++ '>' ::
          (label ++ '<' :: (['/', 'a'] ++ '>' :: rest))) := by simp
    rw [hsplit, run_tag hinner, htidy] at h
    cases h
  refine ⟨hopen, ?_⟩
  have hinner : '>' ∉ linkFront ++ target ++ ['"'] :=
    not_mem_append (not_mem_append (by decide) hopen) (by decide)
  have hafter : afterTag st (linkFront ++ target ++ ['"']) = some ("a" :: st) := by
    have hlink : linkFront ++ target ++ ['"'] = ['a'] ++ ' ' :: ("href=\"".toList ++ target ++ ['"']) :=
      rfl
    rw [hlink, afterTag_attributes ['a'] (by decide) (by decide : _ = "a")]
    rfl
  have hclose : Reader.run isTidy ⟨"a" :: st, none⟩ ('<' :: (['/', 'a'] ++ '>' :: rest)) =
      Reader.run isTidy ⟨st, none⟩ rest := by
    rfl
  rw [run_tag hinner, hafter] at h
  split at h
  · rw [bind_some, run_append, run_text hlabel, bind_some, hclose] at h
    exact h
  · cases h

lemma run_image (htarget : '>' ∉ target) (label : List Char) (st : List String) (cs : List Char) :
  Reader.run (fun _ => true) ⟨st, none⟩ ('<' :: (imageInner target label ++ '>' :: cs)) =
    Reader.run (fun _ => true) ⟨st, none⟩ cs := by
  have hlabel : '>' ∉ replaceAll entities label := replaceAll_not_mem (by decide) (by decide) label
  have hinner : '>' ∉ imageInner target label :=
    not_mem_append (by decide) (not_mem_cons_of_ne_of_not_mem (by decide) (not_mem_append (not_mem_append
      (not_mem_append (not_mem_append (by decide) hlabel) (by decide)) htarget) (by decide)))
  rw [run_tag hinner, imageInner, afterTag_attributes _ (by decide) (by decide : _ = "img")]
  rfl

lemma shuns_tag {inner : List Char} (h : '<' ∉ inner) : Shuns ['!', '<'] ('<' :: (inner ++ ['>'])) := by
  have hcons : ∀ {c : Char} {l : List Char}, (∀ rest, ¬ ['!', '<'] <+: c :: (l ++ rest)) →
      Shuns ['!', '<'] l → Shuns ['!', '<'] (c :: l) := by
    intro c l hc hl s hs hne rest
    rcases suffix_cons_iff.mp hs with rfl | hs
    · exact hc rest
    · exact hl s hs hne rest
  have hinner : Shuns ['!', '<'] (inner ++ ['>']) := by
    induction inner with
    | nil => exact .of_not_mem (by decide)
    | cons c inner ih =>
      rw [mem_cons, not_or] at h
      refine hcons (fun rest hstarts => ?_) (ih h.2)
      have hsecond := (cons_prefix_cons.mp hstarts).2
      cases inner with
      | nil => exact absurd (cons_prefix_cons.mp hsecond).1 (by decide)
      | cons d inner => exact h.2 ((cons_prefix_cons.mp hsecond).1 ▸ mem_cons_self)
  exact hcons (fun rest hstarts => absurd (cons_prefix_cons.mp hstarts).1 (by decide)) hinner

lemma run_mended (h : Reader.run isTidy ⟨st, none⟩ cs = some ⟨st', none⟩) :
  Reader.run (fun _ => true) ⟨st, none⟩ (replaceFinds brokenImage cs) = some ⟨st', none⟩ := by
  -- The markup is read in steps: a link that becomes an image, a tag, or a character of text.
  induction hn : cs.length using Nat.strong_induction_on generalizing cs st with
  | _ n ih =>
    cases hfind : brokenImage none cs with
    | some found =>
      rcases found with ⟨new, k⟩
      rcases brokenImage_eq_some hfind with ⟨target, label, rest, hquote, hlabel, rfl, rfl, rfl⟩
      rcases run_imageLink hquote hlabel h with ⟨htarget, hrest⟩
      have hne : imageLink target label [] ≠ [] := cons_ne_nil _ _
      rw [imageLink_append] at hfind hn ⊢
      rw [replaceFinds_found brokenImage_blind hne hfind, cons_append, append_assoc, singleton_append,
        run_image htarget]
      exact ih rest.length (by rw [← hn, imageLink]; simp; omega) hrest rfl
    | none =>
      cases cs with
      | nil => exact h
      | cons c cs =>
        by_cases hc : c = '<'
        · subst hc
          rcases exists_tag h with ⟨inner, rest, hinner, rfl⟩
          rw [run_tag hinner] at h
          split at h
          case isFalse => cases h
          case isTrue htidy =>
            rcases Option.bind_eq_some_iff.mp h with ⟨next, hnext, hrest⟩
            have hbracket : '<' ∉ inner := by
              intro hmem
              simp [isTidy, hmem] at htidy
            have hpass : replaceFinds brokenImage ('<' :: (inner ++ '>' :: rest)) =
                '<' :: (inner ++ '>' :: replaceFinds brokenImage rest) := by
              have hturns := Turns.of_shuns brokenImage_blind brokenImage_needs (shuns_tag hbracket) rest
              simpa using hturns
            rw [hpass, run_tag hinner, if_pos rfl, hnext, bind_some]
            exact ih rest.length (by rw [← hn]; simp; omega) hrest rfl
        · have hstep : ∀ p, Reader.step p ⟨st, none⟩ c = some ⟨st, none⟩ := fun p => by
            simp [Reader.step, hc]
          rw [run_cons, hstep, bind_some] at h
          rw [replaceFinds_cons brokenImage_blind hfind, run_cons, hstep, bind_some]
          exact ih cs.length (by rw [← hn]; exact Nat.lt_succ_self _) h rfl

lemma nested_mendImages {s : String} (h : NestedWith isTidy s.toList) :
  Nested (mendImages s).toList := by
  rw [mendImages, toList_ofList]
  exact run_mended h

/-- A find that begins in one tag and ends in another leaves an element open. -/
theorem mendImages_not_nested : Nested "<a title='!<a href=\"x'>y\">z</a>".toList ∧
  ¬ Nested (mendImages "<a title='!<a href=\"x'>y\">z</a>").toList := by
  decide +kernel

variable {a b c : List String} {l v : String} {ls ls' : List String} {front back : List Char}

/-- Lines that lead from the open elements `a` to the open elements `b`. -/
def Takes (a ls b : List String) : Prop :=
  Reader.run (fun _ => true) ⟨a, none⟩ (ls.flatMap fun l => '\n' :: l.toList) = some ⟨b, none⟩

abbrev Moves (a : List String) (cs : List Char) (b : List String) : Prop :=
  Reader.run (fun _ => true) ⟨a, none⟩ cs = some ⟨b, none⟩

lemma Moves.append {cs cs' : List Char} (h : Moves a cs b) (h' : Moves b cs' c) : Moves a (cs ++ cs') c := by
  rw [Moves, run_append, h]
  exact h'

lemma Takes.nil : Takes a [] a := rfl

lemma Takes.append (h : Takes a ls b) (h' : Takes b ls' c) : Takes a (ls ++ ls') c := by
  rw [Takes, flatMap_append, run_append, h]
  exact h'

lemma Takes.cons (h : Moves a l.toList b) (h' : Takes b ls c) : Takes a (l :: ls) c := by
  rw [Takes, flatMap_cons, run_append]
  exact Option.bind_eq_some_iff.mpr ⟨_, h, h'⟩

lemma Takes.fixed (b : List String) (h : Takes b ls c) (hfront : Moves a front b := by decide) :
    Takes a (ofList front :: ls) c :=
  .cons (toList_ofList ▸ hfront) h

lemma Takes.filled (b d : List String) (hv : '<' ∉ v.toList) (h : Takes d ls c)
  (hfront : Moves a front b := by decide) (hback : Moves b back d := by decide) :
    Takes a ((ofList front ++ v ++ ofList back) :: ls) c := by
  refine .cons ?_ h
  rw [toList_append, toList_append, toList_ofList, toList_ofList]
  exact (hfront.append (run_text hv b)).append hback

lemma Takes.flatMap {f : α → List String} {l : List α} (h : ∀ x ∈ l, Takes a (f x) a) :
  Takes a (l.flatMap f) a := by
  induction l with
  | nil => exact .nil
  | cons x l ih => exact (h x mem_cons_self).append (ih fun y hy => h y (mem_cons_of_mem x hy))

lemma Takes.below (h : Takes a ls b) (st : List String) : Takes (a ++ st) ls (b ++ st) := run_below h st

lemma not_mem_ofInt (n : Nat) : '<' ∉ (Number.ofInt n).toList := by
  have hdigits : (Number.ofInt n).toList = Nat.toDigits 10 n := by
    rw [Number.ofInt, if_neg (by omega), toList_ofList]
    rfl
  rw [hdigits]
  intro h
  exact absurd (Nat.isDigit_of_mem_toDigits (by decide) (by decide) h) (by decide)

def ShownMember.texts (m : ShownMember) : List String := [m.name, m.value]

def ShownParameter.texts (p : ShownParameter) : List String :=
  [p.name, p.type] ++ p.default.toList ++ (p.members.getD []).flatMap ShownMember.texts

/-- What a shown keyword says. -/
def ShownKeyword.texts (s : ShownKeyword) : List String :=
  s.name :: s.parameters.flatMap ShownParameter.texts ++ s.returns.toList

lemma memberLines_takes {m : ShownMember} (h : ∀ t ∈ m.texts, '<' ∉ t.toList) :
  Takes [] (memberLines m) [] := by
  have hname : '<' ∉ m.name.toList := h _ mem_cons_self
  have hvalue : '<' ∉ (if m.isText then "\"" ++ m.value ++ "\"" else m.value).toList := by
    have hraw : '<' ∉ m.value.toList := h _ (mem_cons_of_mem _ mem_cons_self)
    split
    · rw [toList_append, toList_append]
      exact not_mem_append (not_mem_append (by decide) hraw) (by decide)
    · exact hraw
  exact .fixed ["div"] <|
    .filled ["code", "span", "div"] ["div"] hname <|
    .fixed ["div"] <|
    .filled ["code", "span", "div"] ["div"] hvalue <|
    .fixed [] .nil

lemma enumLines_takes {members : List ShownMember}
  (h : ∀ m ∈ members, ∀ t ∈ m.texts, '<' ∉ t.toList) : Takes [] (enumLines members) [] := by
  have hmembers : Takes ["div", "div"] (members.flatMap memberLines) ["div", "div"] :=
    .flatMap fun m hm => (memberLines_takes (h m hm)).below _
  refine Takes.append (b := ["div", "div"]) ?_ (.fixed ["div"] <| .fixed [] .nil)
  exact .fixed ["div"] <| .fixed ["div", "div"] <|
    .fixed ["div", "div"] <|
    .filled ["span", "div", "div"] ["div", "div"] (not_mem_ofInt _) <|
    .fixed ["div"] <| .fixed ["div", "div"] hmembers

lemma argumentLines_takes {p : ShownParameter} (h : ∀ t ∈ p.texts, '<' ∉ t.toList) :
  Takes [] (argumentLines p) [] := by
  have hname : '<' ∉ p.name.toList := h _ (by simp [ShownParameter.texts])
  have htype : '<' ∉ p.type.toList := h _ (by simp [ShownParameter.texts])
  have hdefault : Takes ["div", "div"] (defaultLines p.default) ["div", "div"] := by
    cases hd : p.default with
    | none => exact .nil
    | some s =>
      have hs : '<' ∉ s.toList := h s (by simp [ShownParameter.texts, hd])
      exact .filled ["span", "div", "div"] ["div", "div"] hs .nil
  have hvalues : Takes ["div"] ((p.members.map enumLines).getD []) ["div"] := by
    cases hm : p.members with
    | none => exact .nil
    | some members =>
      refine (enumLines_takes fun m hmem t ht => h t ?_).below ["div"]
      rw [ShownParameter.texts, hm]
      exact mem_append_right _ (mem_flatMap.mpr ⟨m, hmem, ht⟩)
  refine .append (.append (.append (.append ?_ hdefault) (.fixed ["div"] .nil)) hvalues)
    (.fixed [] .nil)
  exact .fixed ["div"] <| .fixed ["div", "div"] <|
    .filled ["span", "div", "div"] ["div", "div"] hname <|
    .fixed ["div", "div"] <|
    .filled ["span", "div", "div"] ["div", "div"] htype .nil

lemma overviewLines_takes {s : ShownKeyword} (h : ∀ t ∈ s.texts, '<' ∉ t.toList) :
  Takes [] (overviewLines s) [] := by
  have harguments : Takes ["div"] (argumentsLines s.parameters) ["div"] := by
    have hitems : Takes ["div", "div", "div"] (s.parameters.flatMap argumentLines)
        ["div", "div", "div"] := by
      refine .flatMap fun p hp => (argumentLines_takes fun t ht => h t ?_).below _
      exact mem_cons_of_mem _ (mem_append_left _ (mem_flatMap.mpr ⟨p, hp, ht⟩))
    rw [argumentsLines]
    split
    · exact .nil
    · refine Takes.append (b := ["div", "div", "div"]) ?_
        (.fixed ["div", "div"] <| .fixed ["div"] .nil)
      exact .fixed ["div", "div"] <| .fixed ["div", "div"] <|
        .fixed ["div", "div", "div"] hitems
  have hreturns : Takes ["div"] ((s.returns.map returnLines).getD []) ["div"] := by
    cases hr : s.returns with
    | none => exact .nil
    | some type =>
      have htype : '<' ∉ type.toList := h type (by simp [ShownKeyword.texts, hr])
      exact .fixed ["div", "div"] <| .fixed ["div", "div"] <|
        .filled ["span", "div", "div"] ["div", "div"] htype <|
        .fixed ["div"] .nil
  rw [overviewLines]
  split
  · exact .fixed [] .nil
  · exact .append (.append (.fixed ["div"] harguments) hreturns) (.fixed [] .nil)

lemma docLines_takes {k : Keyword} (h : k.description = "" ∨ NestedWith isTidy k.description.toList) :
  Takes [] (docLines k) [] := by
  rw [docLines]
  split
  · exact .nil
  case isFalse hne =>
    have hnested : Nested (mendImages k.description).toList :=
      nested_mendImages (h.resolve_left fun hempty => hne (by rw [hempty]; rfl))
    have hdoc : Moves ["div", "div"] ("        " ++ mendImages k.description).toList ["div", "div"] := by
      rw [toList_append]
      exact Moves.append (run_text (by decide) _) (hnested.run _)
    exact .fixed ["div"] <| .fixed ["div"] <| .fixed ["div", "div"] <|
      .cons hdoc <| .fixed ["div"] <| .fixed [] .nil

lemma Moves.attribute (n : Nat) (name : List Char) {x : String} (hbefore : Moves a (front.take n) b)
  (htag : front.drop n = '<' :: (name ++ ' ' :: front.drop (n + name.length + 2)))
  (hname : name.all (fun c => !isBlank c && c != '/'))
  (hx : ofList (name.map Char.toLower) = x) (hopen : '>' ∉ front.drop (n + 1))
  (hv : '>' ∉ v.toList) :
  Moves a (ofList front ++ v ++ "\">").toList (if isVoid x then b else x :: b) := by
  have htext : (ofList front ++ v ++ "\">").toList = front.take n ++
      '<' :: (name ++ ' ' :: (front.drop (n + name.length + 2) ++ (v.toList ++ ['"'])) ++ ['>']) := by
    have hend : "\">".toList = ['"', '>'] := rfl
    nth_rewrite 1 [← take_append_drop n front]
    rw [htag]
    simp
  have hinner : '>' ∉ name ++ ' ' :: (front.drop (n + name.length + 2) ++ (v.toList ++ ['"'])) := by
    have hdrop : front.drop (n + 1) = name ++ ' ' :: front.drop (n + name.length + 2) := by
      rw [← drop_drop, htag]
      rfl
    rw [hdrop] at hopen
    simpa [hv] using hopen
  rw [htext]
  refine hbefore.append ?_
  rw [Moves, run_tag hinner, afterTag_attributes name hname hx]
  rfl

lemma contentLines_takes {id : String} {s : ShownKeyword} {docs : List String} (hid : '>' ∉ id.toList)
  (h : ∀ t ∈ s.texts, '<' ∉ t.toList) (hdocs : Takes [] docs []) :
  Takes [] (contentLines id s docs) [] := by
  have hlink : Moves ["div"] ("    <h2><a class=\"kw-name\" href=\"#" ++ id ++ "\">").toList
      ["a", "h2", "div"] :=
    .attribute 8 ['a'] (by decide) (by decide) (by decide) rfl (by decide) hid
  have hname : '<' ∉ s.name.toList := h _ mem_cons_self
  have hheading : Moves ["div"] ("    <h2><a class=\"kw-name\" href=\"#" ++ id ++ "\">" ++ s.name ++
      "</a></h2>").toList ["div"] := by
    rw [toList_append, toList_append]
    exact (hlink.append (run_text hname _)).append (by decide)
  refine .append (.append ?_ (hdocs.below ["div"])) (.fixed [] .nil)
  exact .fixed ["div"] <| .cons hheading <| .fixed [] <|
    .fixed ["div"] ((overviewLines_takes h).below ["div"])

lemma toList_sectionLines (name : String) (s : ShownKeyword) (docs : List String) :
  (unlines (sectionLines (keywordId name) s docs)).toList = (sectionOpening name).toList ++
    (((contentLines (keywordId name) s docs).flatMap fun l => '\n' :: l.toList) ++ ['\n']) ++
      "</div>".toList := by
  rw [sectionLines, cons_append, toList_unlines_cons, flatMap_append, flatMap_singleton]
  simp only [append_assoc, singleton_append]
  rfl

variable {k : Keyword} {table : List (String × α)}

/-- Keywords with names that are texts and with parameters that are pairs of a name and a type, where
nothing that is shown besides the description can be taken for a tag. -/
structure Unmarked (k : Keyword) : Prop where
  name : ∃ s, k.name = .str s ∧ '<' ∉ s.toList ∧ '>' ∉ s.toList
  parameters : ∀ p ∈ k.parameters, ∃ name type, p.pair = .ok (name, type) ∧ isKey name ∧
    '<' ∉ name.display.toList ∧ '<' ∉ type.display.toList
  defaults : ∀ d ∈ k.defaults, '<' ∉ d.2.display.toList
  enumDefaults : ∀ e ∈ k.enums, ∀ v ∈ e.2.default, '<' ∉ v.display.toList
  members : ∀ e ∈ k.enums, ∀ m ∈ e.2.members, '<' ∉ m.name.display.toList ∧ '<' ∉ m.value.display.toList
  returns : '<' ∉ k.returnType.toList

lemma lookup_mem {n : String} {a : α}
  (h : table.lookup n = some a) : (n, a) ∈ table := by
  rcases lookup_eq_some_iff.mp h with ⟨front, back, rfl, -⟩
  exact mem_append_right _ mem_cons_self

lemma lookupName_mem {name : Value} {a : α}
  (h : lookupName table name = .ok (some a)) : ∃ n, (n, a) ∈ table := by
  rw [lookupName] at h
  split at h
  · cases h
  · split at h
    · cases h
    · rcases Option.bind_eq_some_iff.mp (Except.ok.inj h) with ⟨n, -, hlookup⟩
      exact ⟨n, lookup_mem hlookup⟩

lemma Unmarked.shownDefault (h : Unmarked k) {name : Value} {info : Option EnumInfo} {s : String}
  (hinfo : lookupName k.enums name = .ok info) (hs : shownDefault k name info = .ok (some s)) :
  '<' ∉ s.toList := by
  rw [Page.shownDefault] at hs
  split at hs
  case h_1 v hv =>
    cases hs
    rcases Option.bind_eq_some_iff.mp (Option.filter_eq_some_iff.mp hv).1 with ⟨e, rfl, he⟩
    rcases lookupName_mem hinfo with ⟨n, hn⟩
    exact h.enumDefaults _ hn v he
  case h_2 =>
    rcases bind_eq_ok.mp hs with ⟨entry, hentry, hs⟩
    rcases Option.map_eq_some_iff.mp (Except.ok.inj hs) with ⟨v, rfl, rfl⟩
    rcases lookupName_mem hentry with ⟨n, hn⟩
    exact h.defaults _ hn

lemma shownMember_texts {m : EnumMember} (h : '<' ∉ m.name.display.toList ∧ '<' ∉ m.value.display.toList) :
  ∀ t ∈ (shownMember m).texts, '<' ∉ t.toList := by
  have htexts : (shownMember m).texts = [m.name.display, m.value.display] := by
    rw [shownMember]
    split
    case h_1 s hs =>
      rw [hs]
      rfl
    case h_2 => rfl
  rw [htexts, forall_mem_cons, forall_mem_singleton]
  exact h

lemma Unmarked.shownParameter (h : Unmarked k) {p : Parameter} (hp : p ∈ k.parameters) :
  ∃ s, shownParameter k p = .ok s ∧ ∀ t ∈ s.texts, '<' ∉ t.toList := by
  rcases h.parameters p hp with ⟨name, type, hpair, hkey, hname, htype⟩
  rcases lookupName_succeeds k.enums hkey with ⟨info, hinfo⟩
  rcases shownDefault_succeeds k info hkey with ⟨shown, hshown⟩
  refine ⟨_, bind_eq_ok.mpr ⟨_, hpair, bind_eq_ok.mpr ⟨info, hinfo,
    bind_eq_ok.mpr ⟨shown, hshown, rfl⟩⟩⟩, fun t ht => ?_⟩
  rcases mem_append.mp ht with ht | ht
  · rcases mem_append.mp ht with ht | ht
    · have hpairs : t = name.display ∨ t = type.display := by simpa using ht
      rcases hpairs with rfl | rfl
      · exact hname
      · exact htype
    · rw [Option.mem_toList] at ht
      subst ht
      exact h.shownDefault hinfo hshown
  · cases info with
    | none => cases ht
    | some e =>
      rcases lookupName_mem hinfo with ⟨n, hn⟩
      rcases mem_flatMap.mp ht with ⟨m', hm', ht⟩
      rcases mem_map.mp hm' with ⟨m, hm, rfl⟩
      exact shownMember_texts (h.members _ hn m hm) t ht

lemma Unmarked.shownKeyword (h : Unmarked k) :
  ∃ s, shownKeyword k = .ok s ∧ k.name = .str s.name ∧ ∀ t ∈ s.texts, '<' ∉ t.toList := by
  rcases h.name with ⟨name, hname, hopen, -⟩
  rcases mapM_succeeds_iff.mpr fun p hp => (h.shownParameter hp).imp fun _ => And.left with ⟨ps, hps⟩
  refine ⟨_, bind_eq_ok.mpr ⟨name, by rw [hname]; rfl, bind_eq_ok.mpr ⟨ps, hps, rfl⟩⟩, hname, ?_⟩
  rintro t (_ | ⟨_, ht⟩)
  · exact hopen
  · rcases mem_append.mp ht with ht | ht
    · rcases mem_flatMap.mp ht with ⟨s, hs, ht⟩
      rcases (mem_mapM_iff hps).mp hs with ⟨p, hp, hshown⟩
      rcases h.shownParameter hp with ⟨s', hs', htexts⟩
      rw [hs'] at hshown
      cases hshown
      exact htexts t ht
    · rw [Option.mem_toList] at ht
      split at ht
      · cases ht
        exact h.returns
      · cases ht

lemma not_mem_keywordId {name : String} (h : '>' ∉ name.toList) : '>' ∉ (keywordId name).toList := by
  rw [toList_keywordId]
  intro hmem
  rcases mem_map.mp hmem with ⟨d, hd, hdashed⟩
  rw [dashed] at hdashed
  split at hdashed
  · cases hdashed
  · subst hdashed
    exact h ((mem_lower hd).2 (by decide) (by decide))

/-- The section of a keyword: one element that contains everything. -/
def IsSection (k : Keyword) (text : String) : Prop :=
  ∃ name inner, k.name = .str name ∧ Nested inner ∧
    text.toList = (sectionOpening name).toList ++ inner ++ "</div>".toList

lemma keywordSection_isSection (h : Unmarked k)
  (hdescription : k.description = "" ∨ NestedWith isTidy k.description.toList) :
  ∃ text, keywordSection k = .ok text ∧ IsSection k text ∧ Nested text.toList := by
  rcases h.shownKeyword with ⟨s, hs, hname, htexts⟩
  have hid : '>' ∉ (keywordId s.name).toList := by
    rcases h.name with ⟨name, hname', -, hclose⟩
    rw [hname] at hname'
    cases hname'
    exact not_mem_keywordId hclose
  refine ⟨_, bind_eq_ok.mpr ⟨s, hs, rfl⟩, ?_⟩
  rw [IsSection, toList_sectionLines]
  have hinner : Nested (((contentLines (keywordId s.name) s (docLines k)).flatMap fun l =>
      '\n' :: l.toList) ++ ['\n']) :=
    NestedWith.append (contentLines_takes hid htexts (docLines_takes hdescription)) (by decide)
  refine ⟨⟨s.name, _, hname, hinner, rfl⟩, ?_⟩
  have hopen : Moves [] (sectionOpening s.name).toList ["div"] :=
    .attribute 0 ['d', 'i', 'v'] rfl (by decide) (by decide) rfl (by decide) hid
  exact (hopen.append (hinner.run _)).append (by decide)

lemma nested_intercalate {sep : List Char} {items : List (List Char)} (hsep : '<' ∉ sep)
  (h : ∀ item ∈ items, Nested item) : Nested (List.intercalate sep items) := by
  induction items with
  | nil => exact (rfl : Nested [])
  | cons item items ih =>
    rw [forall_mem_cons] at h
    cases items with
    | nil =>
      rw [intercalate_singleton]
      exact h.1
    | cons next items =>
      rw [intercalate_cons_cons]
      exact (h.1.append (run_text hsep [])).append (ih h.2)

/-- The sections of keywords can be written, one for each keyword in their order, and what is filled in
for them is nested, if nothing that is shown besides descriptions has an angle bracket and the
descriptions are nested markup with tidy tags. -/
theorem keywordSections_nested {lib : Library} (h : ∀ k ∈ lib.keywords, Unmarked k ∧
  (k.description = "" ∨ NestedWith isTidy k.description.toList)) :
  ∃ texts, List.Forall₂ (fun k text => keywordSection k = .ok text ∧ IsSection k text)
      lib.keywords texts ∧ Nested (join indent texts).toList ∧
    ∀ config now highlighting v fillings,
      (outcome (pageTexts config lib now highlighting) v).1 = .ok fillings →
        ("KEYWORDS_SECTION", join indent texts) ∈ fillings := by
  have hsection : ∀ k ∈ lib.keywords, ∃ text, keywordSection k = .ok text ∧ IsSection k text ∧
      Nested text.toList := fun k hk => keywordSection_isSection (h k hk).1 (h k hk).2
  rcases mapM_succeeds_iff.mpr fun k hk => (hsection k hk).imp fun _ => And.left with ⟨texts, htexts⟩
  have hall : List.Forall₂ (fun k text => keywordSection k = .ok text ∧ IsSection k text ∧
      Nested text.toList) lib.keywords texts := by
    refine ((forall₂_and_left _ _).mpr ⟨hsection, mapM_eq_ok_iff.mp htexts⟩).imp ?_
    rintro k text ⟨⟨text', htext', hnested⟩, htext⟩
    rw [htext] at htext'
    cases htext'
    exact ⟨htext, hnested⟩
  refine ⟨texts, hall.imp fun _ _ h => ⟨h.1, h.2.1⟩, ?_, ?_⟩
  · rw [toList_join]
    refine nested_intercalate (by decide) (forall_mem_map.mpr fun text hmem => ?_)
    rcases forall₂_exists_left hall hmem with ⟨_, _, htext⟩
    exact htext.2.2
  · intro config now highlighting v fillings hfillings
    rcases pageTexts_items hfillings with ⟨items, hitems, -, hmem⟩
    -- The page makes links and sections in one pass; the sections are those found above.
    have hsame : lib.keywords.mapM keywordSection = .ok (items.map Prod.snd) := by
      refine mapM_eq_ok_iff.mpr (forall₂_map_right_iff.mpr ((mapM_eq_ok_iff.mp hitems).imp ?_))
      intro k item hitem
      rcases bind_eq_ok.mp hitem with ⟨link, -, hitem⟩
      rcases bind_eq_ok.mp hitem with ⟨text, htext, hitem⟩
      cases hitem
      exact htext
    rw [htexts] at hsame
    rw [Except.ok.inj hsame]
    exact hmem

/-- A library with a keyword that has everything a section can show, an image among it. -/
def paintLibrary : Library where
  name := .str "Paint"
  version := .str "1.0"
  scope := .str "GLOBAL"
  description := .str ""
  keywords := [{
    name := .str "Paint Wall"
    description := "<p>Like <b>this</b>:<br>!<a href=\"wall.png\">a wall</a></p>"
    parameters := [.named "colour" "Colour", .named "coats" "int"]
    returnType := "bool"
    enums := [("colour", ⟨.str "Colour", [⟨.str "RED", .str "red"⟩], some (.str "RED")⟩)]
    defaults := [("coats", .int 2)] }]

lemma paintLibrary_fits : ∀ k ∈ paintLibrary.keywords, Unmarked k ∧
  (k.description = "" ∨ NestedWith isTidy k.description.toList) := by
  refine forall_mem_singleton.mpr ⟨⟨⟨_, rfl, by decide, by decide⟩, ?_, ?_, ?_, ?_, by decide⟩,
    .inr (by decide)⟩
  · refine forall_mem_cons.mpr ⟨⟨_, _, rfl, rfl, by decide, by decide⟩, ?_⟩
    exact forall_mem_singleton.mpr ⟨_, _, rfl, rfl, by decide, by decide⟩
  · exact forall_mem_singleton.mpr (by decide)
  · refine forall_mem_singleton.mpr fun v hv => ?_
    cases hv
    decide
  · exact forall_mem_singleton.mpr (forall_mem_singleton.mpr (by decide))

theorem keywordSections_nested_paint : ∃ texts, List.Forall₂ (fun k text =>
  keywordSection k = .ok text ∧ IsSection k text) paintLibrary.keywords texts ∧
    Nested (join indent texts).toList := by
  rcases keywordSections_nested paintLibrary_fits with ⟨texts, hsections, hnested, -⟩
  exact ⟨texts, hsections, hnested⟩

end KeywordDocs.Page
