import Mathlib.Data.List.Forall2
import Mathlib.Data.Option.Basic

/-! Computations that can fail: what one that succeeded has done, step by step. -/
namespace DeviceLink

variable {ε α β σ : Type}

theorem find?_name_eq_some {α : Type} {all : List α} {name : α → String}
    (hname : ∀ a, (all.find? fun b => name b = name a) = some a) {s : String} {a : α} :
    (all.find? fun b => name b = s) = some a ↔ s = name a := by
  constructor
  · intro h
    have hfound := List.find?_some h
    exact (of_decide_eq_true hfound).symm
  · rintro rfl
    exact hname a

theorem bind_eq_ok {x : Except ε α} {f : α → Except ε β} {b : β} :
    x >>= f = .ok b ↔ ∃ a, x = .ok a ∧ f a = .ok b := by
  cases x with
  | error e =>
    constructor
    · intro h
      cases h
    · rintro ⟨a, ha, -⟩
      cases ha
  | ok a =>
    constructor
    · intro h
      exact ⟨a, rfl, h⟩
    · rintro ⟨a', ha, h⟩
      cases ha
      exact h

theorem bind_eq_error {x : Except ε α} {f : α → Except ε β} {e : ε} :
    x >>= f = .error e ↔ x = .error e ∨ ∃ a, x = .ok a ∧ f a = .error e := by
  cases x with
  | error e' =>
    constructor
    · rintro ⟨⟩
      exact .inl rfl
    · rintro (⟨⟨⟩⟩ | ⟨a, ha, -⟩)
      · rfl
      · cases ha
  | ok a =>
    constructor
    · intro h
      exact .inr ⟨a, rfl, h⟩
    · rintro (h | ⟨a', ha, h⟩)
      · cases h
      · cases ha
        exact h

theorem map_eq_ok {x : Except ε α} {f : α → β} {b : β} :
    x.map f = .ok b ↔ ∃ a, x = .ok a ∧ f a = b := by
  cases x with
  | error e =>
    constructor
    · intro h
      cases h
    · rintro ⟨a, ha, -⟩
      cases ha
  | ok a =>
    constructor
    · intro h
      exact ⟨a, rfl, Except.ok.inj h⟩
    · rintro ⟨a', ha, rfl⟩
      cases ha
      rfl

theorem mapError_eq_ok {ε' : Type} {x : Except ε α} {f : ε → ε'} {a : α} :
    x.mapError f = .ok a ↔ x = .ok a := by
  cases x with
  | error e => exact iff_of_false nofun nofun
  | ok a' => exact ⟨fun h => congrArg _ (Except.ok.inj h), fun h => congrArg _ (Except.ok.inj h)⟩

theorem forM_eq_ok {f : α → Except ε Unit} {l : List α} :
    l.forM f = .ok () ↔ ∀ a ∈ l, f a = .ok () := by
  induction l with
  | nil =>
    constructor
    · intro _ a ha
      cases ha
    · exact fun _ => rfl
  | cons a l ih =>
    rw [List.forall_mem_cons, ← ih]
    constructor
    · intro h
      obtain ⟨⟨⟩, ha, hl⟩ := bind_eq_ok.mp h
      exact ⟨ha, hl⟩
    · rintro ⟨ha, hl⟩
      exact bind_eq_ok.mpr ⟨(), ha, hl⟩

/-- All elements have results, one each. -/
theorem mapM_eq_ok {f : α → Except ε β} {l : List α} {l' : List β} :
    l.mapM f = .ok l' ↔ List.Forall₂ (fun a b => f a = .ok b) l l' := by
  induction l generalizing l' with
  | nil =>
    rw [List.forall₂_nil_left_iff]
    constructor
    · rintro ⟨⟩
      rfl
    · rintro rfl
      rfl
  | cons a l ih =>
    rw [List.mapM_cons, List.forall₂_cons_left_iff]
    constructor
    · intro h
      obtain ⟨b, hb, h⟩ := bind_eq_ok.mp h
      obtain ⟨rest, hrest, h⟩ := bind_eq_ok.mp h
      cases h
      exact ⟨b, rest, hb, ih.mp hrest, rfl⟩
    · rintro ⟨b, rest, hb, hrest, rfl⟩
      exact bind_eq_ok.mpr ⟨b, hb, bind_eq_ok.mpr ⟨rest, ih.mpr hrest, rfl⟩⟩

theorem exists_forall₂ {R : α → β → Prop} {l : List α} (h : ∀ a ∈ l, ∃ b, R a b) :
    ∃ l', List.Forall₂ R l l' := by
  induction l with
  | nil => exact ⟨[], .nil⟩
  | cons a l ih =>
    obtain ⟨b, hb⟩ := h a List.mem_cons_self
    obtain ⟨l', hl'⟩ := ih fun a ha => h a (List.mem_cons_of_mem _ ha)
    exact ⟨b :: l', .cons hb hl'⟩

/-- A list holds the data of another, element for element. -/
theorem forall₂_eq_iff {f : α → β} {l : List β} {l' : List α} :
    List.Forall₂ (fun x a => x = f a) l l' ↔ l = l'.map f := by
  rw [← List.forall₂_map_right_iff (R := Eq), List.forall₂_eq_eq_eq]

theorem exists_eq_map {f : α → β} {l : List β} (h : ∀ b ∈ l, ∃ a, b = f a) :
    ∃ l' : List α, l = l'.map f := by
  obtain ⟨l', hl'⟩ := exists_forall₂ h
  exact ⟨l', forall₂_eq_iff.mp hl'⟩

theorem forall_of_forall₂ {R : α → β → Prop} {p : α → Prop} {l : List α} {l' : List β}
    (h : List.Forall₂ R l l') (hp : ∀ a b, R a b → p a) : ∀ a ∈ l, p a :=
  ((List.forall₂_and_left l l').mp (h.imp fun a b hab => ⟨hp a b hab, hab⟩)).1

theorem optionMapM_eq_ok {f : α → Except ε β} {o : Option α} {slot : Option β} :
    o.mapM f = .ok slot ↔ Option.Rel (fun a b => f a = .ok b) o slot := by
  cases o with
  | none =>
    have hnone : (none : Option α).mapM f = .ok none := rfl
    rw [hnone]
    cases slot <;> simp
  | some a =>
    have hsome : (some a).mapM f = (f a).map some := by
      rw [Option.mapM_some]
      cases f a <;> rfl
    rw [hsome, map_eq_ok]
    cases slot <;> simp

theorem mapM_of_forall_ok {f : α → Except ε β} {g : α → β} {l : List α}
    (h : ∀ a ∈ l, f a = .ok (g a)) : l.mapM f = .ok (l.map g) := by
  induction l with
  | nil => rfl
  | cons a l ih =>
    have ha := h a List.mem_cons_self
    have hrest := ih fun a ha => h a (List.mem_cons_of_mem _ ha)
    rw [List.mapM_cons, ha, hrest]
    rfl

theorem mapM_map_of_forall_ok {γ : Type} {f : β → Except ε γ} {g : α → β} {h : α → γ} {l : List α}
    (hl : ∀ a ∈ l, f (g a) = .ok (h a)) : (l.map g).mapM f = .ok (l.map h) := by
  rw [List.mapM_map]
  exact mapM_of_forall_ok hl

/-- What every element is brought back from, all elements are. -/
theorem mapM_map_of_inverse {f : β → Except ε α} {g : α → β} (hg : ∀ a, f (g a) = .ok a)
    (l : List α) : (l.map g).mapM f = .ok l := by
  have hall := mapM_map_of_forall_ok (h := id) (l := l) fun a _ => hg a
  rwa [List.map_id] at hall

/-- The results of some elements, when the others have none. -/
theorem mapM_filter_of_forall_ok {p : α → Bool} {f : α → Except ε β} {g : α → Option β} {l : List α}
    (hl : ∀ a ∈ l, p a = false ∧ g a = none ∨ p a = true ∧ ∃ b, f a = .ok b ∧ g a = some b) :
    (l.filter p).mapM f = .ok (l.filterMap g) := by
  induction l with
  | nil => rfl
  | cons a l ih =>
    have hrest := ih fun a ha => hl a (List.mem_cons_of_mem _ ha)
    rcases hl a List.mem_cons_self with ⟨hp, hg⟩ | ⟨hp, b, hf, hg⟩
    · rw [List.filter_cons_of_neg (by simp [hp]), List.filterMap_cons_none hg, hrest]
    · rw [List.filter_cons_of_pos hp, List.filterMap_cons_some hg]
      rw [List.mapM_cons, hf, hrest]
      rfl

/-- What one step keeps, of the elements so far and the state, holds after all elements. -/
theorem invariant_of_foldlM {f : σ → α → Except ε σ} {I : List α → σ → Prop}
    (hstep : ∀ {done state a state'},
      I done state → f state a = .ok state' → I (done ++ [a]) state')
    {l done : List α} {state state' : σ} (hstart : I done state)
    (h : l.foldlM f state = .ok state') : I (done ++ l) state' := by
  induction l generalizing done state with
  | nil =>
    cases h
    rw [List.append_nil]
    exact hstart
  | cons a l ih =>
    rw [List.foldlM_cons] at h
    obtain ⟨state₁, ha, h⟩ := bind_eq_ok.mp h
    have hrest := ih (hstep hstart ha) h
    rwa [List.append_assoc, List.singleton_append] at hrest

/-- A fold that fails does so at one of the elements. -/
theorem exists_error_of_foldlM {f : σ → α → Except ε σ} {l : List α} {state : σ} {e : ε}
    (h : l.foldlM f state = .error e) : ∃ a ∈ l, ∃ state', f state' a = .error e := by
  induction l generalizing state with
  | nil => cases h
  | cons a l ih =>
    rw [List.foldlM_cons] at h
    rcases bind_eq_error.mp h with ha | ⟨state', -, hl⟩
    · exact ⟨a, List.mem_cons_self, state, ha⟩
    · obtain ⟨b, hb, hstate⟩ := ih hl
      exact ⟨b, List.mem_cons_of_mem _ hb, hstate⟩

section Succeeds

def Succeeds (x : Except ε α) : Prop := ∃ a, x = .ok a

theorem succeeds_ok (a : α) : Succeeds (.ok a : Except ε α) := ⟨a, rfl⟩

theorem not_succeeds_error (e : ε) : ¬ Succeeds (.error e : Except ε α) := by
  rintro ⟨a, ha⟩
  cases ha

theorem succeeds_ite {p : Prop} [Decidable p] {e : ε} {x : Except ε α} :
    Succeeds (if p then .error e else x) ↔ ¬ p ∧ Succeeds x := by
  by_cases hp : p
  · rw [if_pos hp]
    exact iff_of_false (not_succeeds_error e) fun h => h.1 hp
  · rw [if_neg hp]
    exact (and_iff_right hp).symm

theorem succeeds_bind {x : Except ε α} {f : α → Except ε β} :
    Succeeds (x >>= f) ↔ ∃ a, x = .ok a ∧ Succeeds (f a) := by
  constructor
  · rintro ⟨b, hb⟩
    obtain ⟨a, ha, hf⟩ := bind_eq_ok.mp hb
    exact ⟨a, ha, b, hf⟩
  · rintro ⟨a, ha, b, hf⟩
    exact ⟨b, bind_eq_ok.mpr ⟨a, ha, hf⟩⟩

theorem succeeds_bind_unit {x : Except ε Unit} {f : Unit → Except ε β} :
    Succeeds (x >>= f) ↔ x = .ok () ∧ Succeeds (f ()) := by
  rw [succeeds_bind]
  constructor
  · rintro ⟨⟨⟩, hx, hf⟩
    exact ⟨hx, hf⟩
  · rintro ⟨hx, hf⟩
    exact ⟨(), hx, hf⟩

theorem succeeds_bind_ok {x : Except ε α} {f : α → β} :
    Succeeds (x >>= fun a => .ok (f a)) ↔ Succeeds x := by
  rw [succeeds_bind]
  constructor
  · rintro ⟨a, ha, -⟩
    exact ⟨a, ha⟩
  · rintro ⟨a, ha⟩
    exact ⟨a, ha, succeeds_ok _⟩

/-- A fold succeeds when each step does, if that depends on the element alone. -/
theorem succeeds_foldlM {f : σ → α → Except ε σ} {p : α → Prop}
    (hstep : ∀ state a, Succeeds (f state a) ↔ p a) (l : List α) (state : σ) :
    Succeeds (l.foldlM f state) ↔ ∀ a ∈ l, p a := by
  induction l generalizing state with
  | nil =>
    constructor
    · intro _ a ha
      cases ha
    · exact fun _ => succeeds_ok state
  | cons a l ih =>
    rw [List.foldlM_cons, succeeds_bind, List.forall_mem_cons]
    constructor
    · rintro ⟨state', ha, hl⟩
      exact ⟨(hstep state a).mp ⟨state', ha⟩, (ih state').mp hl⟩
    · rintro ⟨ha, hl⟩
      obtain ⟨state', hstate⟩ := (hstep state a).mpr ha
      exact ⟨state', hstate, (ih state').mpr hl⟩

end Succeeds

end DeviceLink
