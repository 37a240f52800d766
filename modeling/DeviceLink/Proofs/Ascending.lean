import DeviceLink.Ascending
import Mathlib.Data.List.Induction
import Mathlib.Data.List.Perm.Basic
import Mathlib.Order.Defs.Unbundled

/-! Association lists: what their operations do to look-ups, to order and to the entries. -/
namespace DeviceLink.Ascending

variable {κ α : Type} [LT κ] [DecidableEq κ] [DecidableRel (α := κ) (· < ·)]

@[simp] theorem find?_insert (k k' : κ) (v : α) (l : List (κ × α)) :
    find? k' (insert k v l) = if k' = k then some v else find? k' l := by
  induction l with
  | nil => simp [insert, find?]
  | cons e rest ih =>
    obtain ⟨k₁, v₁⟩ := e
    by_cases hlt : k < k₁
    · by_cases hk : k' = k <;> simp [insert, hlt, find?, hk]
    · by_cases heq : k = k₁
      · subst heq
        by_cases hk : k' = k <;> simp [insert, hlt, find?, hk]
      · by_cases hk : k' = k
        · rw [if_pos hk] at ih ⊢
          have hne : k' ≠ k₁ := fun h => heq (hk.symm.trans h)
          simpa [insert, hlt, heq, find?, hne] using ih
        · rw [if_neg hk] at ih ⊢
          simp [insert, hlt, heq, find?, ih]

omit [LT κ] [DecidableRel (α := κ) (· < ·)] in
@[simp] theorem find?_erase (k k' : κ) (l : List (κ × α)) :
    find? k' (erase k l) = if k' = k then none else find? k' l := by
  induction l with
  | nil => simp [erase, find?]
  | cons e rest ih =>
    obtain ⟨k₁, v₁⟩ := e
    unfold erase at ih ⊢
    by_cases h : k₁ = k
    · subst h
      by_cases hk : k' = k₁ <;> simp [hk, find?] at ih ⊢ <;> exact ih
    · by_cases hk : k' = k₁
      · subst hk
        simp [h, find?]
      · simp only [ne_eq, h, not_false_eq_true, decide_true, List.filter_cons_of_pos, find?, hk,
          if_false]
        exact ih

omit [LT κ] [DecidableRel (α := κ) (· < ·)] in
theorem mem_of_find? {k : κ} {v : α} {l : List (κ × α)} (h : find? k l = some v) :
    (k, v) ∈ l := by
  induction l with
  | nil => simp [find?] at h
  | cons e rest ih =>
    obtain ⟨k₁, v₁⟩ := e
    unfold find? at h
    split_ifs at h with hk
    · have : v₁ = v := Option.some.inj h
      simp [hk, this]
    · exact List.mem_cons_of_mem _ (ih h)

omit [LT κ] [DecidableRel (α := κ) (· < ·)] in
/-- Where no key stands twice, a look-up finds exactly the entries. -/
theorem find?_eq_some_iff {k : κ} {v : α} {l : List (κ × α)} (h : (l.map Prod.fst).Nodup) :
    find? k l = some v ↔ (k, v) ∈ l := by
  refine ⟨mem_of_find?, fun hm => ?_⟩
  induction l with
  | nil => simp at hm
  | cons e rest ih =>
    obtain ⟨k₁, v₁⟩ := e
    simp only [List.map_cons, List.nodup_cons] at h
    rcases List.mem_cons.mp hm with heq | hr
    · obtain ⟨rfl, rfl⟩ := Prod.mk.inj heq
      simp [find?]
    · have hne : k ≠ k₁ := by
        intro heq
        exact h.1 (heq ▸ List.mem_map_of_mem (f := Prod.fst) hr)
      simpa [find?, hne] using ih h.2 hr

omit [LT κ] [DecidableRel (α := κ) (· < ·)] in
theorem find?_eq_none_iff {k : κ} {l : List (κ × α)} :
    find? k l = none ↔ k ∉ l.map Prod.fst := by
  induction l with
  | nil => simp [find?]
  | cons e rest ih =>
    by_cases hk : k = e.1 <;> simp [find?, hk, ih]

omit [LT κ] [DecidableRel (α := κ) (· < ·)] in
theorem find?_map {β : Type} (f : α → β) (k : κ) (l : List (κ × α)) :
    find? k (l.map fun e => (e.1, f e.2)) = (find? k l).map f := by
  induction l with
  | nil => rfl
  | cons e rest ih =>
    by_cases hk : k = e.1
    · simp [find?, hk]
    · simp [find?, hk, ih]

omit [LT κ] [DecidableRel (α := κ) (· < ·)] in
/-- Keys may be renamed as long as they stay apart. -/
theorem find?_map_of_injective {κ' β : Type} [DecidableEq κ'] {g : κ → κ'}
    (hg : Function.Injective g) (f : α → β) (k : κ) (l : List (κ × α)) :
    find? (g k) (l.map fun e => (g e.1, f e.2)) = (find? k l).map f := by
  induction l with
  | nil => rfl
  | cons e rest ih =>
    by_cases hk : k = e.1
    · simp [find?, hk]
    · simp [find?, hk, hg.eq_iff, ih]

omit [LT κ] [DecidableRel (α := κ) (· < ·)] in
theorem find?_append (k : κ) (l l' : List (κ × α)) :
    find? k (l ++ l') = (find? k l).or (find? k l') := by
  induction l with
  | nil => rfl
  | cons e rest ih =>
    by_cases hk : k = e.1
    · simp [find?, hk]
    · simp [find?, hk, ih]

omit [LT κ] [DecidableRel (α := κ) (· < ·)] in
theorem find?_reverse {l : List (κ × α)} (h : (l.map Prod.fst).Nodup) (k : κ) :
    find? k l.reverse = find? k l := by
  have hreverse : (l.reverse.map Prod.fst).Nodup :=
    ((List.reverse_perm l).map Prod.fst).nodup_iff.mpr h
  apply Option.ext
  intro v
  rw [find?_eq_some_iff hreverse, find?_eq_some_iff h, List.mem_reverse]

theorem ofList_concat (l : List (κ × α)) (e : κ × α) :
    ofList (l ++ [e]) = insert e.1 e.2 (ofList l) := by
  rw [ofList, List.foldl_append]
  rfl

/-- When entries are put in order, the last of those with equal keys counts. -/
theorem find?_ofList (k : κ) (l : List (κ × α)) : find? k (ofList l) = find? k l.reverse := by
  induction l using List.reverseRecOn with
  | nil => rfl
  | append_singleton l e ih =>
    rw [ofList_concat, find?_insert, ih, List.reverse_concat, find?]

/-- Where no key stands twice, putting the entries in order changes no look-up. -/
theorem find?_ofList_of_nodup {l : List (κ × α)} (h : (l.map Prod.fst).Nodup) (k : κ) :
    find? k (ofList l) = find? k l := by
  rw [find?_ofList, find?_reverse h]

theorem mem_keys_ofList {k : κ} {l : List (κ × α)} :
    k ∈ (ofList l).map Prod.fst ↔ k ∈ l.map Prod.fst := by
  rw [← not_iff_not, ← find?_eq_none_iff, find?_ofList, find?_eq_none_iff, List.map_reverse,
    List.mem_reverse]

/-- A new key adds one entry and changes no other. -/
theorem insert_perm {k : κ} (v : α) {l : List (κ × α)} (h : k ∉ l.map Prod.fst) :
    (insert k v l).Perm ((k, v) :: l) := by
  induction l with
  | nil => exact List.Perm.refl _
  | cons e rest ih =>
    simp only [List.map_cons, List.mem_cons, not_or] at h
    simp only [insert]
    split_ifs with hlt
    · exact List.Perm.refl _
    · exact absurd ‹k = e.1› h.1
    · exact ((ih h.2).cons e).trans (List.Perm.swap _ _ _)

/-- Where no key stands twice, no entry is lost when they are put in order. -/
theorem ofList_perm {l : List (κ × α)} (h : (l.map Prod.fst).Nodup) : (ofList l).Perm l := by
  have hall : ∀ acc : List (κ × α), ((l ++ acc).map Prod.fst).Nodup →
      (l.foldl (fun acc e => insert e.1 e.2 acc) acc).Perm (l ++ acc) := by
    clear h
    induction l with
    | nil => exact fun acc _ => List.Perm.refl acc
    | cons e rest ih =>
      intro acc hacc
      have hmiddle : (rest ++ e :: acc).Perm (e :: rest ++ acc) := List.perm_middle
      have hnodup : ((rest ++ e :: acc).map Prod.fst).Nodup :=
        (hmiddle.map Prod.fst).nodup_iff.mpr hacc
      have hnew : e.1 ∉ acc.map Prod.fst := by
        rw [List.cons_append, List.map_cons, List.nodup_cons, List.map_append] at hacc
        exact fun hmem => hacc.1 (List.mem_append_right _ hmem)
      have hinsert := insert_perm e.2 hnew
      have hnext := ih (insert e.1 e.2 acc)
        (((hinsert.append_left rest).map Prod.fst).nodup_iff.mpr hnodup)
      exact (hnext.trans (hinsert.append_left rest)).trans hmiddle
  have hperm := hall [] (by rwa [List.append_nil])
  rwa [List.append_nil] at hperm

omit [LT κ] [DecidableRel (α := κ) (· < ·)] in
/-- Erasing a key takes out its one entry. -/
theorem erase_perm {k : κ} {v : α} {l l' : List (κ × α)} (h : l.Perm ((k, v) :: l'))
    (hk : k ∉ l'.map Prod.fst) : (erase k l).Perm l' := by
  have hl' : l'.filter (fun e => decide (e.1 ≠ k)) = l' := by
    apply List.filter_eq_self.mpr
    intro e he
    have : e.1 ≠ k := fun heq => hk (heq ▸ List.mem_map_of_mem he)
    simp [this]
  have hf := h.filter (fun e => decide (e.1 ≠ k))
  simpa only [erase, List.filter_cons, ne_eq, not_true_eq_false, decide_false, Bool.false_eq_true,
    if_false, hl'] using hf

omit [LT κ] [DecidableRel (α := κ) (· < ·)] in
theorem perm_cons_erase {k : κ} {v : α} {l : List (κ × α)} (h : (l.map Prod.fst).Nodup)
    (hv : find? k l = some v) : l.Perm ((k, v) :: erase k l) := by
  obtain ⟨l₁, l₂, rfl⟩ := List.append_of_mem (mem_of_find? hv)
  have hmid : (l₁ ++ (k, v) :: l₂).Perm ((k, v) :: (l₁ ++ l₂)) := List.perm_middle
  have hk : k ∉ (l₁ ++ l₂).map Prod.fst := (List.nodup_cons.mp ((hmid.map Prod.fst).nodup h)).1
  exact hmid.trans ((erase_perm hmid hk).symm.cons _)

section Order

omit [DecidableEq κ] [DecidableRel (α := κ) (· < ·)] in
@[simp] theorem sorted_nil : Sorted ([] : List (κ × α)) := List.Pairwise.nil

omit [DecidableEq κ] [DecidableRel (α := κ) (· < ·)] in
theorem sorted_cons {e : κ × α} {l : List (κ × α)} :
    Sorted (e :: l) ↔ (∀ e' ∈ l, e.1 < e'.1) ∧ Sorted l := List.pairwise_cons

private theorem insert_of_forall_lt [Std.Asymm (α := κ) (· < ·)] {k : κ} (v : α) {l : List (κ × α)}
    (h : ∀ e ∈ l, e.1 < k) : insert k v l = l ++ [(k, v)] := by
  induction l with
  | nil => rfl
  | cons e rest ih =>
    have hlt : e.1 < k := h e List.mem_cons_self
    have hne : k ≠ e.1 := by
      intro heq
      rw [← heq] at hlt
      exact Std.Asymm.asymm k k hlt hlt
    rw [insert, if_neg (Std.Asymm.asymm _ _ hlt), if_neg hne,
      ih fun e he => h e (List.mem_cons_of_mem _ he)]
    rfl

private theorem foldl_insert_of_sorted [Std.Asymm (α := κ) (· < ·)] {l acc : List (κ × α)}
    (h : Sorted (acc ++ l)) : l.foldl (fun acc e => insert e.1 e.2 acc) acc = acc ++ l := by
  induction l generalizing acc with
  | nil => rw [List.append_nil, List.foldl_nil]
  | cons e rest ih =>
    have hlt : ∀ e' ∈ acc, e'.1 < e.1 := by
      intro e' he'
      exact (List.pairwise_append.mp h).2.2 e' he' e List.mem_cons_self
    have happend : acc ++ [e] ++ rest = acc ++ e :: rest := by
      rw [List.append_assoc, List.singleton_append]
    have hsorted : Sorted (acc ++ [e] ++ rest) := happend ▸ h
    rw [List.foldl_cons, insert_of_forall_lt e.2 hlt, ih hsorted, happend]

theorem Sorted.ofList_eq [Std.Asymm (α := κ) (· < ·)] {l : List (κ × α)} (h : Sorted l) :
    ofList l = l := by
  have hnil : Sorted ([] ++ l) := h
  exact foldl_insert_of_sorted hnil

omit [DecidableRel (α := κ) (· < ·)] in
theorem Sorted.erase {l : List (κ × α)} (h : Sorted l) (k : κ) : Sorted (erase k l) :=
  List.Pairwise.filter _ h

omit [DecidableEq κ] [DecidableRel (α := κ) (· < ·)] in
theorem Sorted.nodup [Std.Irrefl (α := κ) (· < ·)] {l : List (κ × α)} (h : Sorted l) :
    (l.map Prod.fst).Nodup := by
  have hp : (l.map Prod.fst).Pairwise (· < ·) := List.pairwise_map.mpr h
  refine hp.imp ?_
  rintro a b hab rfl
  exact Std.Irrefl.irrefl a hab

omit [DecidableEq κ] [DecidableRel (α := κ) (· < ·)] in
/-- Ascending entries are determined by what they are, whatever the order they came in. -/
theorem Sorted.eq_of_perm [Std.Asymm (α := κ) (· < ·)] {l l' : List (κ × α)} (h : Sorted l)
    (h' : Sorted l') (hperm : l.Perm l') : l = l' :=
  hperm.eq_of_pairwise (fun _ _ _ _ hlt hgt => absurd hgt (Std.Asymm.asymm _ _ hlt)) h h'

theorem mem_insert {k : κ} {v : α} {l : List (κ × α)} {e : κ × α} (h : e ∈ insert k v l) :
    e = (k, v) ∨ e ∈ l := by
  induction l with
  | nil => simpa [insert] using h
  | cons e' rest ih =>
    simp only [insert] at h
    split_ifs at h with hlt heq
    · exact List.mem_cons.mp h
    · rcases List.mem_cons.mp h with h | h
      · exact Or.inl h
      · exact Or.inr (List.mem_cons_of_mem _ h)
    · rcases List.mem_cons.mp h with h | h
      · exact Or.inr (h ▸ List.mem_cons_self)
      · exact (ih h).imp id (List.mem_cons_of_mem _)

theorem mem_ofList {l : List (κ × α)} {e : κ × α} (h : e ∈ ofList l) : e ∈ l := by
  have hall : ∀ acc, e ∈ l.foldl (fun acc e => insert e.1 e.2 acc) acc → e ∈ acc ∨ e ∈ l := by
    clear h
    induction l with
    | nil => exact fun acc hmem => Or.inl hmem
    | cons e' rest ih =>
      intro acc hmem
      rcases ih _ hmem with hacc | hrest
      · rcases mem_insert hacc with rfl | hacc
        · exact Or.inr List.mem_cons_self
        · exact Or.inl hacc
      · exact Or.inr (List.mem_cons_of_mem _ hrest)
  exact (hall [] h).resolve_left List.not_mem_nil

variable [IsTrans κ (· < ·)] [Std.Trichotomous (α := κ) (· < ·)]

theorem Sorted.insert {l : List (κ × α)} (h : Sorted l) (k : κ) (v : α) :
    Sorted (insert k v l) := by
  induction l with
  | nil => exact List.pairwise_singleton _ _
  | cons e rest ih =>
    obtain ⟨hlo, hr⟩ := sorted_cons.mp h
    simp only [Ascending.insert]
    split_ifs with hlt heq
    · refine sorted_cons.mpr ⟨fun e' he' => ?_, h⟩
      rcases List.mem_cons.mp he' with rfl | he'
      · exact hlt
      · exact IsTrans.trans _ _ _ hlt (hlo e' he')
    · exact sorted_cons.mpr ⟨fun e' he' => by simpa [heq] using hlo e' he', hr⟩
    · refine sorted_cons.mpr ⟨fun e' he' => ?_, ih hr⟩
      rcases mem_insert he' with rfl | he'
      · by_contra hge
        exact heq (Std.Trichotomous.trichotomous k e.1 hlt hge)
      · exact hlo e' he'

theorem sorted_ofList (l : List (κ × α)) : Sorted (ofList l) := by
  have hall : ∀ acc : List (κ × α), Sorted acc →
      Sorted (l.foldl (fun acc e => Ascending.insert e.1 e.2 acc) acc) := by
    induction l with
    | nil => exact fun acc hacc => hacc
    | cons e rest ih => exact fun acc hacc => ih _ (hacc.insert e.1 e.2)
  exact hall [] sorted_nil

omit [Std.Trichotomous (α := κ) (· < ·)] in
theorem Sorted.insert_perm_erase [Std.Irrefl (α := κ) (· < ·)] {l : List (κ × α)} (h : Sorted l)
    (k : κ) (v : α) : (Ascending.insert k v l).Perm ((k, v) :: Ascending.erase k l) := by
  have herase : ∀ l : List (κ × α), (∀ e ∈ l, k < e.1) → Ascending.erase k l = l := by
    refine fun l hl => List.filter_eq_self.mpr fun e he => decide_eq_true fun heq => ?_
    exact Std.Irrefl.irrefl k (heq ▸ hl e he)
  induction l with
  | nil => exact List.Perm.refl _
  | cons e rest ih =>
    obtain ⟨hlo, hr⟩ := sorted_cons.mp h
    simp only [Ascending.insert]
    split_ifs with hlt heq
    · rw [herase (e :: rest)]
      rintro e' he'
      rcases List.mem_cons.mp he' with rfl | he'
      · exact hlt
      · exact IsTrans.trans _ _ _ hlt (hlo e' he')
    · have hrest := herase rest fun e' he' => heq ▸ hlo e' he'
      simp only [Ascending.erase] at hrest ⊢
      rw [List.filter_cons_of_neg (by simp [heq]), hrest]
    · have hne : e.1 ≠ k := Ne.symm heq
      rw [Ascending.erase, List.filter_cons_of_pos (by simp [hne])]
      exact ((ih hr).cons e).trans (List.Perm.swap _ _ _)

end Order
end DeviceLink.Ascending
