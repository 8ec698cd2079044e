import KeywordDocs.Highlight.Vocabulary
import Mathlib.Data.List.Forall2

/-!
# Outcomes of Highlighting

What a highlighter gives depends on what it was used for before.
-/

namespace KeywordDocs.Highlight

open List

variable {α β : Type} {config : Option Json} {v : Vocabulary} {f : α → Except Fault β} {b : β}
  {R : α → β → Prop} {l : List α} {bs : List β} {a : α}

lemma bind_eq_ok {m : Except Fault α} : m >>= f = .ok b ↔ ∃ a, m = .ok a ∧ f a = .ok b := by
  cases m with
  | error e =>
    refine ⟨nofun, ?_⟩
    rintro ⟨a, ha, -⟩
    cases ha
  | ok a =>
    refine ⟨fun h => ⟨a, rfl, h⟩, ?_⟩
    rintro ⟨_, ha, h⟩
    cases ha
    exact h

lemma mapM_eq_ok_iff : l.mapM f = .ok bs ↔ List.Forall₂ (fun a b => f a = .ok b) l bs := by
  induction l generalizing bs with
  | nil =>
    rw [mapM_nil, forall₂_nil_left_iff]
    exact ⟨fun h => by cases h; rfl, fun h => by rw [h]; rfl⟩
  | cons a l ih =>
    rw [mapM_cons, bind_eq_ok, forall₂_cons_left_iff]
    constructor
    · rintro ⟨b, hb, h⟩
      rcases bind_eq_ok.mp h with ⟨bs', hbs, h⟩
      cases h
      exact ⟨b, bs', hb, ih.mp hbs, rfl⟩
    · rintro ⟨b, bs', hb, hbs, rfl⟩
      exact ⟨b, hb, bind_eq_ok.mpr ⟨bs', ih.mpr hbs, rfl⟩⟩

lemma mapM_succeeds_iff : (∃ bs, l.mapM f = .ok bs) ↔ ∀ a ∈ l, ∃ b, f a = .ok b := by
  induction l with
  | nil => exact ⟨fun _ _ ha => (nomatch ha), fun _ => ⟨[], rfl⟩⟩
  | cons a l ih =>
    rw [forall_mem_cons, ← ih]
    constructor
    · rintro ⟨bs, hbs⟩
      rcases forall₂_cons_left_iff.mp (mapM_eq_ok_iff.mp hbs) with ⟨b, bs', hb, hbs', -⟩
      exact ⟨⟨b, hb⟩, bs', mapM_eq_ok_iff.mpr hbs'⟩
    · rintro ⟨⟨b, hb⟩, bs, hbs⟩
      exact ⟨b :: bs, mapM_eq_ok_iff.mpr (.cons hb (mapM_eq_ok_iff.mp hbs))⟩

lemma forall₂_exists_right (h : List.Forall₂ R l bs) (ha : a ∈ l) : ∃ b ∈ bs, R a b := by
  induction h with
  | nil => cases ha
  | cons hab _ ih =>
    rcases mem_cons.mp ha with rfl | ha
    · exact ⟨_, mem_cons_self, hab⟩
    · rcases ih ha with ⟨b, hb, hR⟩
      exact ⟨b, mem_cons_of_mem _ hb, hR⟩

lemma forall₂_exists_left (h : List.Forall₂ R l bs) {b : β} (hb : b ∈ bs) : ∃ a ∈ l, R a b :=
  forall₂_exists_right h.flip hb

lemma mem_mapM_iff (h : l.mapM f = .ok bs) : b ∈ bs ↔ ∃ a ∈ l, f a = .ok b := by
  have hall := mapM_eq_ok_iff.mp h
  refine ⟨fun hb => forall₂_exists_left hall hb, ?_⟩
  rintro ⟨a, ha, hb⟩
  rcases forall₂_exists_right hall ha with ⟨b', hb', hf⟩
  rw [hb] at hf
  cases hf
  exact hb'

/-- The result of a computation, and what is remembered after it. -/
def outcome (m : Highlighting α) (v : Vocabulary) : Except Fault α × Vocabulary :=
  StateT.run (ExceptT.run m) v

lemma outcome_pure (a : α) : outcome (pure a) v = (.ok a, v) := rfl

lemma outcome_throw (f : Fault) : outcome (throw f : Highlighting α) v = (.error f, v) := rfl

lemma outcome_bind (m : Highlighting α) (f : α → Highlighting β) (v : Vocabulary) :
  outcome (m >>= f) v = match outcome m v with
    | (.ok a, v') => outcome (f a) v'
    | (.error e, v') => (.error e, v') := by
  show (ExceptT.bindCont f (outcome m v).1 : StateM Vocabulary (Except Fault β)).run
    (outcome m v).2 = _
  rcases outcome m v with ⟨r, v'⟩
  cases r <;> rfl

lemma outcome_map (m : Highlighting α) (g : α → β) (v : Vocabulary) :
  outcome (m >>= fun a => pure (g a)) v = ((outcome m v).1.map g, (outcome m v).2) := by
  rw [outcome_bind]
  rcases outcome m v with ⟨r, v'⟩
  cases r <;> rfl

lemma outcome_bind_eq_ok {m : Highlighting α} {f : α → Highlighting β} {v' : Vocabulary}
  (h : outcome (m >>= f) v = (.ok b, v')) :
  ∃ a v₁, outcome m v = (.ok a, v₁) ∧ outcome (f a) v₁ = (.ok b, v') := by
  rw [outcome_bind] at h
  rcases hm : outcome m v with ⟨r, v₁⟩
  rw [hm] at h
  cases r with
  | error e => cases h
  | ok a => exact ⟨a, v₁, rfl, h⟩

lemma outcome_tryCatch (m : Highlighting α) (f : Fault → Highlighting α) (v : Vocabulary) :
  outcome (tryCatch m f) v = match outcome m v with
    | (.ok a, v') => (.ok a, v')
    | (.error e, v') => outcome (f e) v' := by
  rcases hm : outcome m v with ⟨r, v'⟩
  have hrun : m v = (r, v') := hm
  simp only [outcome, tryCatch, tryCatchThe, MonadExceptOf.tryCatch, ExceptT.tryCatch,
    ExceptT.run_mk, StateT.run, bind, StateT.bind, hrun]
  cases r <;> rfl

lemma outcome_mapM_eq_ok {f : α → Highlighting β} {v' : Vocabulary}
  (h : outcome (l.mapM f) v = (.ok bs, v')) :
  List.Forall₂ (fun a b => ∃ v₁ v₂, outcome (f a) v₁ = (.ok b, v₂)) l bs := by
  induction l generalizing v bs with
  | nil =>
    rw [mapM_nil, outcome_pure] at h
    cases h
    exact .nil
  | cons a l ih =>
    rw [mapM_cons] at h
    rcases outcome_bind_eq_ok h with ⟨b, v₁, hb, h⟩
    rcases outcome_bind_eq_ok h with ⟨bs', v₂, hbs, h⟩
    cases h
    exact .cons ⟨v, v₁, hb⟩ (ih hbs)

/-- All names in use are texts: those of the attached library and those a configuration adds. -/
def Named (config : Option Json) (v : Vocabulary) : Prop :=
  ∀ n ∈ v.attached.getD [] ++ customNames config, ∃ s, n.text? = some s

structure Kept (v v' : Vocabulary) : Prop where
  attached : v'.attached = v.attached
  shade : v'.shade = v.shade

lemma Kept.refl (v : Vocabulary) : Kept v v := ⟨rfl, rfl⟩

lemma Kept.trans {v₁ v₂ v₃ : Vocabulary} (h : Kept v₁ v₂) (h' : Kept v₂ v₃) : Kept v₁ v₃ :=
  ⟨h'.attached.trans h.attached, h'.shade.trans h.shade⟩

lemma Kept.named {v v' : Vocabulary} (h : Kept v v') (hv : Named config v) : Named config v' := by
  intro n hn
  rw [h.attached] at hn
  exact hv n hn

structure Yields (config : Option Json) (m : Highlighting α) (v : Vocabulary) (Q : α → Prop) :
  Prop where
  kept : Kept v (outcome m v).2
  result : ∀ a, (outcome m v).1 = .ok a → Q a
  total : Named config v → ∃ a, (outcome m v).1 = .ok a

namespace Yields

variable {m : Highlighting α} {f : α → Highlighting β} {Q Q' : α → Prop} {R : β → Prop}

lemma pure (h : Q a) : Yields config (Pure.pure a) v Q where
  kept := Kept.refl v
  result := by
    intro b hb
    cases hb
    exact h
  total _ := ⟨a, rfl⟩

lemma get : Yields config (MonadState.get : Highlighting Vocabulary) v fun v' => v' = v where
  kept := Kept.refl v
  result := by
    intro v' hv'
    cases hv'
    rfl
  total _ := ⟨v, rfl⟩

lemma lift {e : Except Fault α} (he : e = .ok a) (h : Q a) : Yields config (liftM e) v Q := by
  subst he
  exact pure h

lemma of_none (h : Yields none m v Q) : Yields config m v Q where
  kept := h.kept
  result := h.result
  total hv := h.total fun n hn => hv n (mem_append_left _ (by
    rwa [customNames, Option.bind_none, append_nil] at hn))

lemma mono (h : Yields config m v Q) (hQ : ∀ a, Q a → Q' a) : Yields config m v Q' where
  kept := h.kept
  result a ha := hQ a (h.result a ha)
  total := h.total

lemma bind (hm : Yields config m v Q)
  (hf : ∀ a v', Kept v v' → Q a → Yields config (f a) v' R) : Yields config (m >>= f) v R := by
  -- Either the first part fails and the whole with it, or the second part starts from what it leaves.
  rcases hout : outcome m v with ⟨r, v'⟩
  have hkept : Kept v v' := by
    have h := hm.kept
    rwa [hout] at h
  cases r with
  | error e =>
    have hbind : outcome (m >>= f) v = (.error e, v') := by rw [outcome_bind, hout]
    refine ⟨by rw [hbind]; exact hkept, fun b hb => ?_, fun hv => ?_⟩
    · rw [hbind] at hb
      cases hb
    · rcases hm.total hv with ⟨a, ha⟩
      rw [hout] at ha
      cases ha
  | ok a =>
    have hbind : outcome (m >>= f) v = outcome (f a) v' := by rw [outcome_bind, hout]
    have hfa := hf a v' hkept (hm.result a (by rw [hout]))
    refine ⟨?_, fun b hb => ?_, fun hv => ?_⟩
    · rw [hbind]
      exact hkept.trans hfa.kept
    · rw [hbind] at hb
      exact hfa.result b hb
    · rw [hbind]
      exact hfa.total (hkept.named hv)

lemma mapM {f : α → Highlighting β} {S : α → β → Prop} {l : List α}
  (h : ∀ a ∈ l, ∀ v', Kept v v' → Yields config (f a) v' (S a)) :
  Yields config (l.mapM f) v fun bs => List.Forall₂ S l bs := by
  induction l generalizing v with
  | nil =>
    rw [mapM_nil]
    exact pure List.Forall₂.nil
  | cons a l ih =>
    rw [mapM_cons]
    refine (h a mem_cons_self v (Kept.refl v)).bind fun b v' hkept hb => ?_
    have hrest := ih fun a' ha' v'' hkept' => h a' (mem_cons_of_mem a ha') v'' (hkept.trans hkept')
    exact hrest.bind fun bs _ _ hbs => pure (List.Forall₂.cons hb hbs)

lemma mapM_forall {f : α → Highlighting β} {l : List α}
  (h : ∀ a ∈ l, ∀ v', Kept v v' → Yields config (f a) v' R) :
  Yields config (l.mapM f) v fun bs => ∀ b ∈ bs, R b := by
  refine (mapM h).mono fun bs hbs b hb => ?_
  rcases forall₂_exists_left hbs hb with ⟨_, -, hR⟩
  exact hR

end Yields

lemma buildNames_isSome (hv : Named config v) :
  ∃ names, buildNames (v.attached.getD []) config = some names := by
  have hmap : ∀ l : List Value, (∀ n ∈ l, ∃ s, n.text? = some s) →
      ∃ extra, l.mapM Value.text? = some extra := by
    intro l
    induction l with
    | nil => exact fun _ => ⟨[], rfl⟩
    | cons n l ih =>
      intro hl
      rcases hl n mem_cons_self with ⟨s, hs⟩
      rcases ih fun n' hn' => hl n' (mem_cons_of_mem n hn') with ⟨extra, hextra⟩
      exact ⟨s :: extra, by simp [mapM_cons, hs, hextra]⟩
  rcases hmap _ hv with ⟨extra, hextra⟩
  exact ⟨_, by rw [buildNames, hextra, Option.map_some]⟩

lemma knownNames_yields : Yields config (knownNames config) v fun _ => True := by
  refine Yields.get.bind fun v' v₁ hkept heq => ?_
  subst heq
  -- The kept list is used, a new one is built, or none can be built.
  cases v'.current? with
  | some names => exact .pure trivial
  | none =>
    -- What is written back differs from the memory in the kept list only.
    have hset : ∀ kept, Yields config (set { v' with kept := kept } : Highlighting PUnit) v₁
        fun _ => True := fun kept =>
      ⟨⟨hkept.attached.symm, hkept.shade.symm⟩, fun _ _ => trivial, fun _ => ⟨⟨⟩, rfl⟩⟩
    cases hbuilt : buildNames (v'.attached.getD []) config with
    | some names => exact (hset _).bind fun _ _ _ _ => .pure trivial
    | none =>
      refine (hset none).bind fun _ v₂ hkept' _ => ⟨Kept.refl v₂, nofun, fun hv => ?_⟩
      rw [← hkept.attached, ← hkept'.attached] at hbuilt
      rcases buildNames_isSome hv with ⟨names, hnames⟩
      rw [hbuilt] at hnames
      cases hnames

lemma learn_yields (names : List String) : Yields config (learn names) v fun _ => True :=
  ⟨⟨rfl, rfl⟩, fun _ _ => trivial, fun _ => ⟨(), rfl⟩⟩

end KeywordDocs.Highlight
