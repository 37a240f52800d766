import DeviceLink.Proofs.Text.Numeral
import DeviceLink.Store.Disk
import Mathlib.Algebra.GroupWithZero.Nat

/-! File numbers: each is read back from the name of its file, and an index lists them in order. -/
namespace DeviceLink.Store

open Text

/-- A name with a number: the stem and the digits of the number, perhaps with a plus sign or zeros
before them. -/
def Numbered (name : String) (n : Nat) : Prop :=
  ∃ sign digits, (sign = [] ∨ sign = ['+']) ∧ name.toList = Entry.stem.toList ++ (sign ++ digits) ∧
    Spells 10 DecimalDigit digits n ∧ n < limit64

theorem Numbered.lt {name : String} {n : Nat} (h : Numbered name n) : n < limit64 := by
  obtain ⟨-, -, -, -, -, hlt⟩ := h
  exact hlt

namespace Entry

private theorem isPrefixOf?_eq_some {l s t : List Char} :
    l.isPrefixOf? s = some t ↔ s = l ++ t := by
  induction l generalizing s with
  | nil =>
    have hall : [].isPrefixOf? s = some s := by cases s <;> rfl
    rw [hall, Option.some.injEq, List.nil_append]
  | cons c l ih =>
    cases s with
    | nil =>
      have hnone : (c :: l).isPrefixOf? [] = none := rfl
      simp [hnone]
    | cons c' s =>
      show (if c == c' then l.isPrefixOf? s else none) = some t ↔ _
      by_cases hc : c = c'
      · simp [hc, ih]
      · simp [hc, Ne.symm hc]

theorem number?_eq_some_iff {name : String} {n : Nat} :
    number? name = some n ↔ Numbered name n := by
  unfold number? Numbered
  rw [Option.bind_eq_some_iff]
  simp only [isPrefixOf?_eq_some, natural?_iff]
  constructor
  · intro h
    obtain ⟨t, hname, sign, digits, hsign, rfl, hdigits⟩ := h
    exact ⟨sign, digits, hsign, hname, hdigits⟩
  · intro h
    obtain ⟨sign, digits, hsign, hname, hdigits⟩ := h
    exact ⟨_, hname, sign, digits, hsign, rfl, hdigits⟩

theorem toList_fileName (n : Nat) :
    (fileName n).toList = stem.toList ++ Text.decimal n := by
  rw [fileName, String.toList_append, String.toList_ofList]

theorem numbered_fileName {n : Nat} (h : n < limit64) : Numbered (fileName n) n :=
  ⟨[], decimal n, Or.inl rfl, toList_fileName n, spells_decimal n, h⟩

/-- A number below the limit is read back from the name of its file. -/
theorem number?_fileName {n : Nat} (h : n < limit64) : number? (fileName n) = some n :=
  number?_eq_some_iff.mpr (numbered_fileName h)

theorem fileName_injective {m n : Nat} (h : fileName m = fileName n) : m = n := by
  have hlist := congrArg String.toList h
  rw [toList_fileName, toList_fileName] at hlist
  exact Text.decimal_injective (List.append_cancel_left hlist)

theorem le_iff (a b : Entry) :
    le a b = true ↔ a.number < b.number ∨ a.number = b.number ∧ a.size ≤ b.size := by
  simp [le]

theorem le_trans (a b c : Entry) (hab : le a b = true) (hbc : le b c = true) : le a c = true := by
  rw [le_iff] at hab hbc ⊢
  omega

theorem le_total (a b : Entry) : (le a b || le b a) = true := by
  rw [Bool.or_eq_true, le_iff, le_iff]
  omega

theorem le_antisymm {a b : Entry} (hab : le a b = true) (hba : le b a = true) : a = b := by
  rw [le_iff] at hab hba
  obtain ⟨m, p⟩ := a
  obtain ⟨n, q⟩ := b
  have hnumber : m = n := by
    simp only at hab hba
    omega
  have hsize : p = q := by
    simp only at hab hba
    omega
  rw [hnumber, hsize]

theorem mergeSort_eq {l l' : List Entry} (hperm : l.Perm l')
    (hsorted : l'.Pairwise fun a b => a.number < b.number) : l.mergeSort le = l' := by
  have hle : l'.Pairwise fun a b => le a b = true :=
    hsorted.imp fun h => (le_iff _ _).mpr (Or.inl h)
  have hsort := List.pairwise_mergeSort le_trans le_total l
  exact ((List.mergeSort_perm l le).trans hperm).eq_of_pairwise
    (fun _ _ _ _ => le_antisymm) hsort hle

theorem total_cons (e : Entry) (l : List Entry) : total (e :: l) = e.size + total l := rfl

theorem total_eq_sum (l : List Entry) : total l = (l.map size).sum := by
  induction l with
  | nil => rfl
  | cons e l ih => rw [total_cons, ih, List.map_cons, List.sum_cons]

theorem total_concat (l : List Entry) (e : Entry) : total (l ++ [e]) = total l + e.size := by
  induction l with
  | nil => exact Nat.add_comm _ _
  | cons f l ih =>
    rw [List.cons_append, total_cons, total_cons, ih]
    omega

theorem total_perm {l l' : List Entry} (h : l.Perm l') : total l = total l' := by
  induction h with
  | nil => rfl
  | cons e _ ih => rw [total_cons, total_cons, ih]
  | swap e f l =>
    rw [total_cons, total_cons, total_cons, total_cons]
    omega
  | trans _ _ ih ih' => exact ih.trans ih'

end Entry
end DeviceLink.Store
