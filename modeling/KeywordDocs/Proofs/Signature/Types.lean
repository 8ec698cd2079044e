import KeywordDocs.Signature.Annotation

/-!
# Types of Functions and Methods

How the two printers of types relate, and when the one for functions comes to an end.
-/

namespace KeywordDocs.Signature

open Source Text

variable {b : Bool} {op : BinaryOp} {e l r base index : Expr} {items : List Expr}

mutual

/-- The type of a function's parameter with at most so many calls within one another. -/
def typeWithin : Nat → Expr → Option String
  | 0, _ => none
  | _ + 1, .name id => some id
  | _ + 1, .constant v _ => some v.display
  | n + 1, .subscript (.name id) index => do return id ++ "[" ++ (← partsWithin n index) ++ "]"
  | n + 1, .subscript (.attribute (.name id) field) index => do
    return id ++ "." ++ field ++ "[" ++ (← partsWithin n index) ++ "]"
  | _ + 1, .attribute (.name id) field => some (id ++ "." ++ field)
  | n + 1, .binary op left right => do return join " | " (← membersWithin n (.binary op left right))
  | _ + 1, _ => some "Any"

def partsWithin : Nat → Expr → Option String
  | 0, _ => none
  | n + 1, .tuple items => do return join ", " (← items.mapM (typeWithin n))
  | n + 1, e => typeWithin n e

def membersWithin : Nat → Expr → Option (List String)
  | 0, _ => none
  | n + 1, .binary .bitOr left right => do
    return (← membersWithin n left) ++ (← membersWithin n right)
  | n + 1, e => do return [← typeWithin n e]

end

def placeWithin (inSubscript : Bool) (n : Nat) (e : Expr) : Option String :=
  if inSubscript then partsWithin n e else typeWithin n e

/-- Expressions that are shown with a subscript. -/
inductive IsBase : Expr → Prop where
  | name (id : String) : IsBase (.name id)
  | dotted (id field : String) : IsBase (.attribute (.name id) field)

/-- The expressions that are visited from an expression: the members of a union, and what stands in a
subscript of a base, item by item if it is a tuple. -/
inductive Visits : Bool → Expr → Expr → Prop where
  | here (inSubscript : Bool) (e : Expr) : Visits inSubscript e e
  | left {l x : Expr} (inSubscript : Bool) (r : Expr) (h : Visits false l x) :
      Visits inSubscript (.binary .bitOr l r) x
  | right {r x : Expr} (inSubscript : Bool) (l : Expr) (h : Visits false r x) :
      Visits inSubscript (.binary .bitOr l r) x
  | index {base index x : Expr} (inSubscript : Bool) (hbase : IsBase base)
      (h : Visits true index x) : Visits inSubscript (.subscript base index) x
  | item {item x : Expr} {items : List Expr} (hitem : item ∈ items) (h : Visits false item x) :
      Visits true (.tuple items) x

/-- An operator that is no union is visited. -/
def Loops (inSubscript : Bool) (e : Expr) : Prop :=
  ∃ op l r, op ≠ .bitOr ∧ Visits inSubscript e (.binary op l r)

theorem loops_union_iff : Loops b (.binary .bitOr l r) ↔ Loops false l ∨ Loops false r := by
  constructor
  · rintro ⟨op, l', r', hop, h⟩
    cases h with
    | here => cases hop rfl
    | left _ _ h => exact .inl ⟨op, l', r', hop, h⟩
    | right _ _ h => exact .inr ⟨op, l', r', hop, h⟩
  · rintro (⟨op, l', r', hop, h⟩ | ⟨op, l', r', hop, h⟩)
    · exact ⟨op, l', r', hop, .left b r h⟩
    · exact ⟨op, l', r', hop, .right b l h⟩

theorem loops_subscript_iff (hbase : IsBase base) :
  Loops b (.subscript base index) ↔ Loops true index := by
  constructor
  · rintro ⟨op, l, r, hop, h⟩
    cases h with
    | index _ _ h => exact ⟨op, l, r, hop, h⟩
  · rintro ⟨op, l, r, hop, h⟩
    exact ⟨op, l, r, hop, .index b hbase h⟩

theorem loops_tuple_iff : Loops true (.tuple items) ↔ ∃ e ∈ items, Loops false e := by
  constructor
  · rintro ⟨op, l, r, hop, h⟩
    cases h with
    | item hitem h => exact ⟨_, hitem, op, l, r, hop, h⟩
  · rintro ⟨e, hitem, op, l, r, hop, h⟩
    exact ⟨op, l, r, hop, .item hitem h⟩

theorem not_loops (hop : ∀ op l r, e ≠ .binary op l r)
  (hsubscript : ∀ base index, IsBase base → e ≠ .subscript base index)
  (htuple : b → ∀ items, e ≠ .tuple items) : ¬ Loops b e := by
  rintro ⟨op, l, r, -, h⟩
  cases h with
  | here => exact hop op l r rfl
  | left _ r' _ => exact hop .bitOr _ r' rfl
  | right _ l' _ => exact hop .bitOr l' _ rfl
  | index _ hbase _ => exact hsubscript _ _ hbase rfl
  | item _ _ => exact htuple rfl _ rfl

variable {α β : Type} {f g : Nat → Option α} {x : Except Fault α} {P Q : Prop}

/-- A result that is found with enough fuel, unless `P` holds and no fuel is enough. -/
def Settles (f : Nat → Option α) (x : Except Fault α) (P : Prop) : Prop :=
  (∃ a, x = .ok a ∧ ¬ P ∧ ∃ d, ∀ n, d ≤ n → f n = some a) ∨ (x = .error .endless ∧ P ∧ ∀ n, f n = none)

namespace Settles

theorem congr (h : Settles f x P) (hPQ : P ↔ Q) : Settles f x Q := propext hPQ ▸ h

theorem call (h : Settles f x P) (hzero : g 0 = none) (hsucc : ∀ n, g (n + 1) = f n) : Settles g x P := by
  rcases h with ⟨a, hx, hP, d, hf⟩ | ⟨hx, hP, hf⟩
  · refine .inl ⟨a, hx, hP, d + 1, fun n hn => ?_⟩
    cases n with
    | zero => omega
    | succ n => rw [hsucc, hf n (by omega)]
  · refine .inr ⟨hx, hP, fun n => ?_⟩
    cases n with
    | zero => exact hzero
    | succ n => rw [hsucc, hf n]

theorem inner (h : Settles f x P) (hsucc : ∀ n, f (n + 1) = g n) : Settles g x P := by
  rcases h with ⟨a, hx, hP, d, hf⟩ | ⟨hx, hP, hf⟩
  · exact .inl ⟨a, hx, hP, d, fun n hn => by rw [← hsucc, hf (n + 1) (by omega)]⟩
  · exact .inr ⟨hx, hP, fun n => by rw [← hsucc, hf]⟩

theorem pure {a : α} (hsucc : ∀ n, f (n + 1) = some a) (hP : ¬ P) : Settles f (.ok a) P := by
  refine .inl ⟨a, rfl, hP, 1, fun n hn => ?_⟩
  cases n with
  | zero => omega
  | succ n => exact hsucc n

theorem bind {k : α → Nat → Option β} {y : α → Except Fault β} (h : Settles f x P)
  (hk : ∀ a, Settles (k a) (y a) Q) : Settles (fun n => f n >>= fun a => k a n) (x >>= y) (P ∨ Q) := by
  rcases h with ⟨a, rfl, hP, d, hf⟩ | ⟨rfl, hP, hf⟩
  · rcases hk a with ⟨c, hy, hQ, d', hka⟩ | ⟨hy, hQ, hka⟩
    · refine .inl ⟨c, hy, fun h => h.elim hP hQ, max d d', fun n hn => ?_⟩
      show (f n >>= fun a => k a n) = some c
      rw [hf n (by omega)]
      exact hka n (by omega)
    · refine .inr ⟨hy, .inr hQ, fun n => ?_⟩
      show (f n >>= fun a => k a n) = none
      -- At a low limit the first part may have another result; the second has no end with that either.
      cases f n with
      | none => rfl
      | some a' =>
        rcases hk a' with ⟨_, _, hQ', _⟩ | ⟨_, _, hka'⟩
        · cases hQ' hQ
        · exact hka' n
  · refine .inr ⟨rfl, .inl hP, fun n => ?_⟩
    show (f n >>= fun a => k a n) = none
    rw [hf n]
    rfl

theorem map (h : Settles f x P) (k : α → β) :
  Settles (fun n => f n >>= fun a => some (k a)) (x >>= fun a => .ok (k a)) P :=
  (h.bind (Q := False) fun _ => pure (fun _ => rfl) id).congr (or_iff_left id)

end Settles

theorem join_append (sep : String) {ss ts : List String} (hs : ss ≠ []) (ht : ts ≠ []) :
  join sep (ss ++ ts) = join sep ss ++ sep ++ join sep ts := by
  induction ss with
  | nil => cases hs rfl
  | cons s ss ih =>
    cases ss with
    | nil =>
      cases ts with
      | nil => cases ht rfl
      | cons t ts => rfl
    | cons s' ss =>
      show s ++ sep ++ join sep (s' :: ss ++ ts) = s ++ sep ++ join sep (s' :: ss) ++ sep ++ join sep ts
      rw [ih (List.cons_ne_nil _ _)]
      simp only [String.append_assoc]

theorem membersWithin_succ (h : ∀ l r, e ≠ .binary .bitOr l r) (n : Nat) :
  membersWithin (n + 1) e = typeWithin n e >>= fun t => some [t] := by
  rw [membersWithin.eq_3]
  · rfl
  · exact h

theorem typeWithin_operator (hop : op ≠ .bitOr) (n : Nat) : typeWithin n (.binary op l r) = none := by
  have hboth : typeWithin n (.binary op l r) = none ∧ membersWithin n (.binary op l r) = none := by
    induction n with
    | zero => exact ⟨rfl, rfl⟩
    | succ n ih =>
      have hmembers := membersWithin_succ (e := .binary op l r) (fun _ _ he => hop (by cases he; rfl)) n
      rw [hmembers, ih.1]
      refine ⟨?_, rfl⟩
      show (membersWithin n (.binary op l r) >>= _) = none
      rw [ih.2]
      rfl
  exact hboth.1

theorem partsWithin_succ (h : ∀ items, e ≠ .tuple items) (n : Nat) :
  partsWithin (n + 1) e = typeWithin n e := by
  rw [partsWithin.eq_3]
  exact h

theorem membersWithin_ne_nil {n : Nat} {ts : List String} (h : membersWithin n e = some ts) :
  ts ≠ [] := by
  induction n generalizing e ts with
  | zero => cases h
  | succ n ih =>
    by_cases hunion : ∃ l r, e = .binary .bitOr l r
    · rcases hunion with ⟨l, r, rfl⟩
      rcases Option.bind_eq_some_iff.mp h with ⟨ls, hls, h⟩
      rcases Option.bind_eq_some_iff.mp h with ⟨rs, -, h⟩
      cases h
      exact List.append_ne_nil_of_left_ne_nil (ih hls) _
    · rw [membersWithin_succ fun l r he => hunion ⟨l, r, he⟩] at h
      rcases Option.bind_eq_some_iff.mp h with ⟨t, -, h⟩
      cases h
      exact List.cons_ne_nil _ _

namespace Settles

variable {x y : Except Fault String}

theorem members (h : Settles (fun n => typeWithin n e) x P) :
  Settles (fun n => membersWithin n e >>= fun ts => some (join " | " ts)) x P := by
  by_cases hunion : ∃ l r, e = .binary .bitOr l r
  · rcases hunion with ⟨l, r, rfl⟩
    exact h.inner fun _ => rfl
  · refine h.call rfl fun n => ?_
    rw [membersWithin_succ fun l r he => hunion ⟨l, r, he⟩]
    cases typeWithin n e <;> rfl

theorem union (hl : Settles (fun n => typeWithin n l) x P) (hr : Settles (fun n => typeWithin n r) y Q) :
  Settles (fun n => typeWithin n (.binary .bitOr l r))
    (x >>= fun s => y >>= fun t => .ok (s ++ " | " ++ t)) (P ∨ Q) := by
  have hjoined := hl.members.bind fun s => hr.members.map fun t => s ++ " | " ++ t
  refine (hjoined.call (g := fun n =>
    membersWithin n (.binary .bitOr l r) >>= fun ts => some (join " | " ts)) rfl fun n => ?_).call
    rfl fun _ => rfl
  show ((membersWithin n l >>= fun ls => membersWithin n r >>= fun rs => some (ls ++ rs)) >>=
    fun ts => some (join " | " ts)) = _
  cases hls : membersWithin n l with
  | none => rfl
  | some ls =>
    cases hrs : membersWithin n r with
    | none => rfl
    | some rs => exact congrArg some (join_append _ (membersWithin_ne_nil hls) (membersWithin_ne_nil hrs))

theorem place (b : Bool) (h : Settles (fun n => typeWithin n e) x P)
  (htuple : ∀ items, e ≠ .tuple items) : Settles (fun n => placeWithin b n e) x P := by
  cases b with
  | false => exact h
  | true => exact h.call rfl (partsWithin_succ htuple)

theorem leaf (b : Bool) {t : String} (htype : ∀ n, typeWithin (n + 1) e = some t)
  (hop : ∀ op l r, e ≠ .binary op l r)
  (hsubscript : ∀ base index, IsBase base → e ≠ .subscript base index)
  (htuple : ∀ items, e ≠ .tuple items) : Settles (fun n => placeWithin b n e) (.ok t) (Loops b e) :=
  .place b (.pure htype (not_loops hop hsubscript fun _ => htuple)) htuple

theorem subscript (b : Bool) (hbase : IsBase base) (h : Settles (fun n => placeWithin true n index) x
  (Loops true index)) (k : String → String) (htype : ∀ n, typeWithin (n + 1) (.subscript base index) =
    partsWithin n index >>= fun t => some (k t)) :
  Settles (fun n => placeWithin b n (.subscript base index)) (x >>= fun t => .ok (k t))
    (Loops b (.subscript base index)) :=
  .place b (((h.map k).call rfl htype).congr (loops_subscript_iff hbase).symm) (by simp)

end Settles

theorem functionTypeAt_settles (b : Bool) (e : Expr) :
  Settles (fun n => placeWithin b n e) (functionTypeAt b e) (Loops b e) := by
  refine functionTypeAt.induct
    (fun b e => Settles (fun n => placeWithin b n e) (functionTypeAt b e) (Loops b e))
    (fun items => Settles (fun n => items.mapM (typeWithin n)) (functionTypes items)
      (∃ e ∈ items, Loops false e))
    ?name ?constant ?subscript ?dottedSubscript ?dotted ?union ?operator ?items ?tuple ?other ?nil
    ?cons b e
  case name => exact fun b id => .leaf b (fun _ => rfl) (by simp) (by simp) (by simp)
  case constant => exact fun b v marked => .leaf b (fun _ => rfl) (by simp) (by simp) (by simp)
  case subscript => exact fun b id index ih => .subscript b (.name id) ih _ fun _ => rfl
  case dottedSubscript => exact fun b id field index ih => .subscript b (.dotted id field) ih _ fun _ => rfl
  case dotted => exact fun b id field => .leaf b (fun _ => rfl) (by simp) (by simp) (by simp)
  case union => exact fun b l r ihl ihr => .place b ((ihl.union ihr).congr loops_union_iff.symm) (by simp)
  case operator =>
    intro b op l r hop
    refine .place b (.inr ⟨?_, ⟨op, l, r, hop, .here b _⟩, typeWithin_operator hop⟩) (by simp)
    rw [functionTypeAt]
    exact hop
  case items => exact fun items ih => ((ih.map (join ", ")).call rfl fun _ => rfl).congr loops_tuple_iff.symm
  case tuple =>
    intro b items hb
    cases b with
    | true => cases hb rfl
    | false => exact .pure (fun _ => rfl) (not_loops (by simp) (by simp) (by simp))
  case other =>
    intro e b hname hconstant hsubscript hdotted hattribute _ hbinary htuple
    have htype : functionTypeAt b e = .ok "Any" := by rw [functionTypeAt] <;> assumption
    rw [htype]
    refine .leaf b (fun n => ?_) hbinary ?_ htuple
    · rw [typeWithin] <;> assumption
    · intro base index hbase
      cases hbase with
      | name id => exact hsubscript id index
      | dotted id field => exact hdotted id field index
  case nil => exact .pure (fun _ => rfl) (by simp)
  case cons =>
    intro e rest ih ihs
    simp only [List.mapM_cons]
    exact (ih.bind fun t => ihs.map (t :: ·)).congr (by simp)

/-- Annotations of names, dotted names, literals, subscripts of bases and unions. -/
inductive IsAnnotation : Expr → Prop where
  | name (id : String) : IsAnnotation (.name id)
  | dotted (id field : String) : IsAnnotation (.attribute (.name id) field)
  | literal (v : Value) (marked : Bool) : IsAnnotation (.constant v marked)
  | subscript {base index : Expr} (hbase : IsBase base) (hindex : IsAnnotation index) :
      IsAnnotation (.subscript base index)
  | items {base : Expr} {items : List Expr} (hbase : IsBase base)
      (hitems : ∀ e ∈ items, IsAnnotation e) : IsAnnotation (.subscript base (.tuple items))
  | union {l r : Expr} (hl : IsAnnotation l) (hr : IsAnnotation r) :
      IsAnnotation (.binary .bitOr l r)

theorem methodType_dotted (id field : String) :
  methodType (.attribute (.name id) field) = id ++ "." ++ field := by
  show id ++ "" ++ "." ++ field = id ++ "." ++ field
  rw [String.append_empty]

theorem IsAnnotation.ne_tuple {e : Expr} (h : IsAnnotation e) (items : List Expr) :
  e ≠ .tuple items := by
  rintro rfl
  cases h

theorem functionTypes_eq {items : List Expr}
  (h : ∀ e ∈ items, functionTypeAt false e = .ok (methodType e)) :
  functionTypes items = .ok (methodTypes items) := by
  induction items with
  | nil => rfl
  | cons e rest ih =>
    rw [List.forall_mem_cons] at h
    rw [functionTypes, h.1, ih h.2]
    rfl

theorem functionTypeAt_eq_methodType {e : Expr} (h : IsAnnotation e) (b : Bool) :
  functionTypeAt b e = .ok (methodType e) := by
  induction h generalizing b with
  | name | literal => rfl
  | dotted id field => rw [methodType_dotted, functionTypeAt]
  | subscript hbase hindex ih =>
    rw [methodType.eq_4 _ _ hindex.ne_tuple]
    cases hbase with
    | name id =>
      rw [functionTypeAt, ih]
      rfl
    | dotted id field =>
      rw [functionTypeAt, ih, methodType_dotted]
      rfl
  | items hbase _ ih =>
    rw [methodType]
    have hitems := functionTypes_eq fun e he => ih e he false
    cases hbase with
    | name id =>
      rw [functionTypeAt, functionTypeAt, hitems]
      rfl
    | dotted id field =>
      rw [functionTypeAt, functionTypeAt, hitems, methodType_dotted]
      rfl
  | union _ _ ihl ihr =>
    rw [functionTypeAt, ihl, ihr, methodType]
    rfl

/-- The two printers show an annotation as the same text, and the recursion comes to it. -/
theorem types_agree {e : Expr} (h : IsAnnotation e) :
  functionType e = .ok (methodType e) ∧ ∃ n, typeWithin n e = some (methodType e) := by
  have htype := functionTypeAt_eq_methodType h false
  rcases functionTypeAt_settles false e with ⟨t, ht, -, d, hd⟩ | ⟨hendless, -⟩
  · rw [htype] at ht
    cases ht
    exact ⟨htype, d, hd d (Nat.le_refl d)⟩
  · rw [htype] at hendless
    cases hendless

/-- A union within a subscript within a subscript. -/
def nestedAnnotation : Expr :=
  .subscript (.name "dict") (.tuple [.name "str", .subscript (.attribute (.name "typing") "List")
    (.binary .bitOr (.name "int") (.constant .none false))])

theorem types_agree_nested : IsAnnotation nestedAnnotation ∧
  functionType nestedAnnotation = .ok "dict[str, typing.List[int | None]]" ∧
  methodType nestedAnnotation = "dict[str, typing.List[int | None]]" := by
  have hunion : IsAnnotation (.binary .bitOr (.name "int") (.constant .none false)) :=
    .union (.name _) (.literal _ _)
  have hnested : IsAnnotation nestedAnnotation := by
    refine .items (.name _) (List.forall_mem_cons.mpr ⟨.name _, List.forall_mem_singleton.mpr ?_⟩)
    exact .subscript (.dotted _ _) hunion
  have htext : methodType nestedAnnotation = "dict[str, typing.List[int | None]]" := by decide
  exact ⟨hnested, htext ▸ (types_agree hnested).1, htext⟩

/-- The recursion for a type has no end, at whatever depth it is given up, exactly if an operator that
is no union is visited; and exactly otherwise it comes to a text. -/
theorem types_end_iff (e : Expr) : ((∀ n, typeWithin n e = none) ↔ Loops false e) ∧
    (functionType e = .error .endless ↔ Loops false e) ∧
    ((∃ t, functionType e = .ok t ∧ ∃ d, ∀ n, d ≤ n → typeWithin n e = some t) ↔
      ¬ Loops false e) := by
  rcases functionTypeAt_settles false e with ⟨t, ht, hloops, d, hd⟩ | ⟨ht, hloops, hnone⟩
  · refine ⟨iff_of_false (fun hnone => ?_) hloops, iff_of_false (fun h => ?_) hloops,
      iff_of_true ⟨t, ht, d, hd⟩ hloops⟩
    · have hsome : typeWithin d e = some t := hd d (Nat.le_refl d)
      rw [hnone d] at hsome
      cases hsome
    · rw [functionType, ht] at h
      cases h
  · refine ⟨iff_of_true hnone hloops, iff_of_true ht hloops, iff_of_false ?_ (not_not_intro hloops)⟩
    rintro ⟨t, h, -⟩
    rw [functionType, ht] at h
    cases h

end KeywordDocs.Signature
