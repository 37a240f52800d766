import DeviceLink.Parameter
import DeviceLink.Proofs.Ascending
import DeviceLink.Proofs.Result

/-! Tables of parameters: what the entries of a table say, and tables made of entries. -/
namespace DeviceLink

theorem ParameterName.ofToken?_token (n : ParameterName) : ofToken? n.token = some n := by
  cases n <;> decide

theorem ParameterName.ofToken?_eq_some {token : String} {n : ParameterName} :
    ofToken? token = some n ↔ token = n.token := find?_name_eq_some ofToken?_token

theorem ParameterName.token_injective : Function.Injective token := by
  intro a b h
  have hsome : some a = some b := by
    rw [← ofToken?_token a, ← ofToken?_token b, h]
  exact Option.some.inj hsome

theorem parameterValue?_eq_find? (parameters : List (ParameterName × String))
    (n : ParameterName) : parameterValue? parameters n = Ascending.find? n parameters := by
  induction parameters with
  | nil => rfl
  | cons p rest ih =>
    unfold parameterValue? at ih ⊢
    by_cases hn : n = p.1
    · simp [Ascending.find?, hn]
    · simp [Ascending.find?, hn, Ne.symm hn, ih]

/-- The last value of a name is there when the first one is. -/
theorem isSome_parameterValue?_reverse (parameters : List (ParameterName × String))
    (n : ParameterName) :
    (parameterValue? parameters.reverse n).isSome ↔ (parameterValue? parameters n).isSome := by
  rw [parameterValue?_eq_find?, parameterValue?_eq_find?, ← not_iff_not]
  simp only [Option.not_isSome_iff_eq_none, Ascending.find?_eq_none_iff, List.map_reverse,
    List.mem_reverse]

namespace ParameterTable

def map (f : String → String) (t : ParameterTable) : ParameterTable :=
  ⟨fun n => (t.value? n).map f⟩

section Entries

variable {t : ParameterTable} {n : ParameterName} {v : String}

theorem mem_entries : (n, v) ∈ t.entries ↔ t.value? n = some v := by
  unfold entries
  rw [List.mem_filterMap]
  constructor
  · rintro ⟨n', -, h⟩
    obtain ⟨v', hv', heq⟩ := Option.map_eq_some_iff.mp h
    cases heq
    exact hv'
  · intro h
    exact ⟨n, ParameterName.mem_all n, by rw [h, Option.map_some]⟩

theorem nodup_entries (t : ParameterTable) : (t.entries.map Prod.fst).Nodup := by
  have hall : ParameterName.all.Nodup := by decide
  apply List.pairwise_map.mpr
  apply List.pairwise_filterMap.mpr
  refine hall.imp ?_
  intro a b hab x hx y hy
  obtain ⟨-, -, rfl⟩ := Option.map_eq_some_iff.mp hx
  obtain ⟨-, -, rfl⟩ := Option.map_eq_some_iff.mp hy
  exact hab

end Entries

theorem ofList_concat (l : List (ParameterName × String)) (e : ParameterName × String) :
    ofList (l ++ [e]) = (ofList l).insert e.1 e.2 := by
  rw [ofList, List.foldl_append]
  rfl

/-- In a table that is made of a list, the last value of a name counts. -/
theorem value?_ofList (l : List (ParameterName × String)) (n : ParameterName) :
    (ofList l).value? n = Ascending.find? n l.reverse := by
  induction l using List.reverseRecOn with
  | nil => rfl
  | append_singleton l e ih =>
    rw [ofList_concat, List.reverse_concat, Ascending.find?, ← ih]
    rfl

/-- The entries of a table in any order make the table again. -/
theorem ofList_eq {t : ParameterTable} {l : List (ParameterName × String)}
    (h : l.Perm t.entries) : ofList l = t := by
  have hnodup : (l.map Prod.fst).Nodup := (h.map Prod.fst).nodup_iff.mpr t.nodup_entries
  apply ParameterTable.ext
  intro n
  rw [value?_ofList, Ascending.find?_reverse hnodup]
  apply Option.ext
  intro v
  rw [Ascending.find?_eq_some_iff hnodup, h.mem_iff, mem_entries]

theorem entries_map (f : String → String) (t : ParameterTable) :
    (t.map f).entries = t.entries.map fun e => (e.1, f e.2) := by
  unfold entries map
  rw [List.map_filterMap]
  apply List.filterMap_congr
  intro n _
  simp only [Option.map_map]
  rfl

end ParameterTable
end DeviceLink
