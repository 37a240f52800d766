import DeviceLink.Text.Utf8
import Mathlib.Data.List.DropRight

/-! White space at the ends of a text: what is left without it. -/
namespace DeviceLink.Text

/-- What is left of a text when the white space at its ends is gone. -/
def Trimmed (s t : List Char) : Prop :=
  ∃ before after, s = before ++ t ++ after ∧ (∀ c ∈ before, isWhiteSpace c = true) ∧
    (∀ c ∈ after, isWhiteSpace c = true) ∧
    ∀ h : t ≠ [], isWhiteSpace (t.head h) = false ∧ isWhiteSpace (t.getLast h) = false

section Trimming

variable {s t : List Char}

theorem dropWhile_eq_self (h : ∀ h : t ≠ [], isWhiteSpace (t.head h) = false) :
    t.dropWhile isWhiteSpace = t := by
  cases t with
  | nil => rfl
  | cons c t =>
    have hc : isWhiteSpace c = false := h (List.cons_ne_nil c t)
    simp [hc]

theorem trim_of_trimmed (h : Trimmed s t) : trim s = t := by
  obtain ⟨before, after, rfl, hbefore, hafter, hends⟩ := h
  have hafter' : ∀ c ∈ after.reverse, isWhiteSpace c = true := by simpa using hafter
  have hlast : ∀ h : t.reverse ≠ [], isWhiteSpace (t.reverse.head h) = false := by
    intro h
    rw [List.head_reverse]
    exact (hends _).2
  unfold trim
  rw [List.append_assoc, List.dropWhile_append_of_pos hbefore]
  by_cases ht : t = []
  · subst ht
    have hnil : after.dropWhile isWhiteSpace = [] := List.dropWhile_eq_nil_iff.mpr hafter
    simp [hnil]
  · have hstart : ∀ h : t ++ after ≠ [], isWhiteSpace ((t ++ after).head h) = false := by
      intro h
      rw [List.head_append_of_ne_nil ht]
      exact (hends ht).1
    rw [dropWhile_eq_self hstart, List.reverse_append, List.dropWhile_append_of_pos hafter',
      dropWhile_eq_self hlast, List.reverse_reverse]

theorem trimmed_trim (s : List Char) : Trimmed s (trim s) := by
  have hsplit := List.takeWhile_append_dropWhile (p := isWhiteSpace) (l := s)
  have hstart := fun h => List.head_dropWhile_not isWhiteSpace (l := s) h
  have hlast := List.rdropWhile_last_not isWhiteSpace (s.dropWhile isWhiteSpace)
  have hafter : ∀ c ∈ (s.dropWhile isWhiteSpace).rtakeWhile isWhiteSpace, isWhiteSpace c = true :=
    fun c hc => List.mem_rtakeWhile_imp hc
  have hrest : (s.dropWhile isWhiteSpace).rdropWhile isWhiteSpace ++
      (s.dropWhile isWhiteSpace).rtakeWhile isWhiteSpace = s.dropWhile isWhiteSpace :=
    List.rdropWhile_append_rtakeWhile
  have htrim : trim s = (s.dropWhile isWhiteSpace).rdropWhile isWhiteSpace := rfl
  rw [← htrim] at hlast hrest
  refine ⟨s.takeWhile isWhiteSpace, _, ?_, fun c hc => List.mem_takeWhile_imp hc, hafter, ?_⟩
  · rw [List.append_assoc, hrest, hsplit]
  · intro h
    generalize trim s = t at hrest hlast h
    generalize List.rtakeWhile _ _ = after at hrest
    rw [← hrest] at hstart
    have hhead := hstart (by simp [h])
    rw [List.head_append_of_ne_nil h] at hhead
    exact ⟨hhead, by simpa using hlast h⟩

theorem trimmed_iff : Trimmed s t ↔ trim s = t := by
  constructor
  · exact trim_of_trimmed
  · rintro rfl
    exact trimmed_trim s

end Trimming
end DeviceLink.Text
