import DeviceLink.Proofs.Double.Finite
import DeviceLink.Proofs.Json.Ordered

/-! What is read can be written: numbers that are read are whole numbers of 64 bits or finite
doubles, and no value has more containers in each other than the reader has room for. -/
namespace DeviceLink.Json

open Text Double

section Numbers

variable {m : Nat} {e : Int} {x : Double}

theorem gather_lt (l : List Nat) (h : m < limit64) : (Literal.gather m l).1 < limit64 := by
  induction l generalizing m with
  | nil => exact h
  | cons d l ih =>
    rw [Literal.gather]
    split_ifs with hfits
    · exact ih hfits
    · exact h

theorem isFinite_ofNat {n : Nat} (h : n * twoTo 1074 < overflow) :
    (Double.ofNat n).isFinite = true :=
  isFinite_ofRatio Nat.one_pos (h.trans_eq (Nat.one_mul overflow).symm)

/-- The powers of ten by which the reader divides are finite, and one at least. -/
theorem power_bounds (hlo : 0 ≤ e) (hhi : e ≤ 308) :
    (ofDecimal 1 e).isFinite = true ∧ twoTo 1074 ≤ (ofDecimal 1 e).ratio.1 := by
  have hlast : tenTo 308 * twoTo 1074 < overflow := by decide +kernel
  have hle : tenTo e.toNat ≤ tenTo 308 := tenTo_le (by omega)
  have hfinite : (Double.ofNat (tenTo e.toNat)).isFinite = true :=
    isFinite_ofNat (Nat.lt_of_le_of_lt (Nat.mul_le_mul_right _ hle) hlast)
  rw [ofDecimal_one hlo hhi]
  exact ⟨hfinite, le_ratio_ofNat (tenTo_pos _) hfinite⟩

theorem isFinite_scaled? (hm : m < limit64) (h : Literal.scaled? m e = some x) :
    x.isFinite = true := by
  have hsignificand : (Double.ofNat m).isFinite = true := by
    have hlimit : limit64 * twoTo 1074 < overflow := by decide +kernel
    exact isFinite_ofNat (Nat.lt_of_le_of_lt (Nat.mul_le_mul_right _ hm.le) hlimit)
  unfold Literal.scaled? at h
  dsimp only at h
  split_ifs at h with hlarge hzero hlo hinfinite hone htwo
  · rw [← Option.some.inj h]
    exact isFinite_of_isZero hzero
  · rw [← Option.some.inj h]
    exact isFinite_of_not_isInfinite (Bool.eq_false_iff.mpr hinfinite)
  · rw [← Option.some.inj h]
    exact isFinite_div hsignificand (power_bounds (by omega) (by omega)).2
  · rw [← Option.some.inj h]
    have hfirst := isFinite_div hsignificand (power_bounds (e := 308) (by omega) (by omega)).2
    exact isFinite_div hfirst (power_bounds (by omega) (by omega)).2
  · rw [← Option.some.inj h]
    decide

private theorem isFinite_magnitude? {l : Literal} (h : l.magnitude? = some x) :
    x.isFinite = true := by
  have hwhole := gather_lt l.whole (show 0 < limit64 by decide)
  have hall := gather_lt (l.fraction.getD []) hwhole
  unfold Literal.magnitude? at h
  dsimp only at h
  split at h
  · exact isFinite_scaled? hall h
  · split at h
    · exact isFinite_scaled? hall h
    · split_ifs at h
      cases h
      decide

private theorem legible_of_number? {l : Literal} {negative : Bool} {n : Number} (room : Nat)
    (h : l.number? negative = some n) : Legible room (.number n) := by
  have hwhole := gather_lt l.whole (show 0 < limit64 by decide)
  unfold Literal.number? at h
  dsimp only at h
  split_ifs at h with hinteger hnegative
  · obtain ⟨-, -, -, hrange⟩ := hinteger
    obtain ⟨-, hle⟩ := hrange.resolve_left (by simp [hnegative])
    rw [← Option.some.inj h]
    apply Legible.integer
    · exact Int.neg_le_neg (Int.ofNat_le.mpr hle)
    · unfold limit64
      omega
  · rw [← Option.some.inj h]
    apply Legible.integer
    · unfold limit63
      omega
    · exact Int.ofNat_lt.mpr hwhole
  · obtain ⟨x, hx, rfl⟩ := Option.map_eq_some_iff.mp h
    exact .double (isFinite_withSign negative (isFinite_magnitude? hx))

end Numbers

section Values

theorem legible_of_readNumber {negative : Bool} {s t : Octets} {n : Number} (room : Nat)
    (h : readNumber negative s = .ok (n, t)) : Legible room (.number n) := by
  unfold readNumber at h
  obtain ⟨⟨l, s₁⟩, -, h⟩ := bind_eq_ok.mp h
  dsimp only at h
  split at h
  · rename_i n' hnumber
    cases h
    exact legible_of_number? room hnumber
  · cases h

private theorem legible_of_readScalar {room : Nat} {s t : Octets} {v : Json}
    (h : readScalar s = .ok (v, t)) : Legible room v := by
  cases s with
  | nil => cases h
  | cons b s =>
    unfold readScalar at h
    dsimp only at h
    split_ifs at h <;> obtain ⟨r, hr, h⟩ := bind_eq_ok.mp h <;> cases h
    · exact .null
    · exact .bool true
    · exact .bool false
    · exact legible_of_readNumber room hr
    · exact legible_of_readNumber room hr
    · exact .string _

/-- Every value is read with no more containers in each other than there is room for. -/
theorem legible_of_readValue {room : Nat} {s t : Octets} {v : Json}
    (h : readValue room s = .ok (v, t)) : Legible room v :=
  invariant_of_readValue (I := Legible) legible_of_readScalar .array (fun _ => .object) h

theorem legible_of_parse {s : Octets} {v : Json} (h : parse s = .ok v) : Legible maxDepth v := by
  obtain ⟨t, hread, -⟩ := readValue_of_parse h
  exact legible_of_readValue hread

end Values

section Room

theorem readItems_mono {α : Type} {item item' : Reader α}
    (hitem : ∀ {s r}, item s = .ok r → item' s = .ok r) {fuel : Nat} {first : Bool} {s : Octets}
    {r : List α × Octets} (h : readItems item fuel first s = .ok r) :
    readItems item' fuel first s = .ok r := by
  induction fuel generalizing first s r with
  | zero => cases h
  | succ fuel ih =>
    obtain ⟨⟨more, s₁⟩, hmore, h⟩ := bind_eq_ok.mp h
    refine bind_eq_ok.mpr ⟨_, hmore, ?_⟩
    cases more with
    | false => exact h
    | true =>
      obtain ⟨⟨a, s₂⟩, ha, h⟩ := bind_eq_ok.mp h
      obtain ⟨⟨rest, s₃⟩, hrest, h⟩ := bind_eq_ok.mp h
      exact bind_eq_ok.mpr ⟨_, hitem ha, bind_eq_ok.mpr ⟨_, ih hrest, h⟩⟩

private theorem readMembers_mono {σ : Type} {member member' : String → σ → Reader σ}
    (hmember : ∀ {name state s r}, member name state s = .ok r → member' name state s = .ok r)
    {fuel : Nat} {first : Bool} {state : σ} {s : Octets} {r : σ × Octets}
    (h : readMembers member fuel first state s = .ok r) :
    readMembers member' fuel first state s = .ok r := by
  induction fuel generalizing first state s r with
  | zero => cases h
  | succ fuel ih =>
    obtain ⟨⟨more, s₁⟩, hmore, h⟩ := bind_eq_ok.mp h
    refine bind_eq_ok.mpr ⟨_, hmore, ?_⟩
    cases more with
    | false => exact h
    | true =>
      cases s₁ with
      | nil => cases h
      | cons b s₁ =>
        dsimp only at h ⊢
        rw [if_pos rfl] at h ⊢
        split_ifs at h ⊢
        obtain ⟨⟨name, s₂⟩, hname, h⟩ := bind_eq_ok.mp h
        obtain ⟨⟨state₁, s₃⟩, hread, h⟩ := bind_eq_ok.mp h
        exact bind_eq_ok.mpr ⟨_, hname, bind_eq_ok.mpr ⟨_, hmember hread, ih h⟩⟩

/-- What is read is read alike with more room. -/
theorem readValue_mono {room : Nat} {s : Octets} {r : Json × Octets}
    (h : readValue room s = .ok r) : readValue (room + 1) s = .ok r := by
  induction room generalizing s r with
  | zero =>
    unfold readValue at h ⊢
    split at h
    · cases h
    · split_ifs at h with hneither
      obtain ⟨hitems, hmembers⟩ := not_or.mp hneither
      simp only [*, if_false]
  | succ room ih =>
    have hmember : ∀ {name acc s r}, readValue.readMember room name acc s = .ok r →
        readValue.readMember (room + 1) name acc s = .ok r := by
      intro name acc s r hread
      unfold readValue.readMember at hread ⊢
      obtain ⟨s₂, hcolon, hread⟩ := bind_eq_ok.mp hread
      obtain ⟨⟨v, s₃⟩, hv, hread⟩ := bind_eq_ok.mp hread
      exact bind_eq_ok.mpr ⟨_, hcolon, bind_eq_ok.mpr ⟨_, ih hv, hread⟩⟩
    rw [readValue] at h ⊢
    split at h
    · cases h
    · split_ifs at h with hitems hmembers
      · obtain ⟨⟨items, s₁⟩, hread, h⟩ := bind_eq_ok.mp h
        simp only [*, if_true]
        exact bind_eq_ok.mpr ⟨_, readItems_mono ih hread, h⟩
      · obtain ⟨⟨members, s₁⟩, hread, h⟩ := bind_eq_ok.mp h
        simp only [*, if_true]
        exact bind_eq_ok.mpr ⟨_, readMembers_mono hmember hread, h⟩
      · simp only [*, if_false]

/-- A value that is in order is legible where it is so after its text is read. -/
theorem legible_of_reread {room room' : Nat} {v : Json} (h : Legible room v) (ho : Ordered v)
    (hreread : Legible room' v.reread) : Legible room' v := by
  induction h generalizing room' with
  | null => exact .null
  | bool b => exact .bool b
  | integer hlo hhi => exact .integer hlo hhi
  | double hfinite => exact .double hfinite
  | string s => exact .string s
  | array hitems ih =>
    rw [reread_array] at hreread
    cases ho with
    | array hordered =>
      cases hreread with
      | array h => exact .array fun v hv => ih v hv (hordered v hv) (List.forall_mem_map.mp h v hv)
  | @object room members hmembers ih =>
    cases ho with
    | object hsorted hordered =>
      have hsorted' : Ascending.Sorted (members.map fun m => (m.1, m.2.reread)) :=
        List.pairwise_map.mpr hsorted
      rw [reread_object, hsorted'.ofList_eq] at hreread
      cases hreread with
      | object h =>
        exact .object fun m hm => ih m hm (hordered m hm) (List.forall_mem_map.mp h m hm)

/-- The text of a value that is nested deeper than the reader has room for is refused. -/
theorem not_parse_deep {v : Json} (h : Legible (maxDepth + 1) v) (ho : Ordered v)
    (hdeep : ¬ Legible maxDepth v) (v' : Json) : parse v.encode ≠ .ok v' := by
  intro hparse
  obtain ⟨t, hread, -⟩ := readValue_of_parse hparse
  have hmono := readValue_mono hread
  have hwhole := readValue_legible h ends_nil
  rw [List.append_nil] at hwhole
  rw [encode, text, encode_ofList, hwhole] at hmono
  have hsame : v.reread = v' := congrArg Prod.fst (Except.ok.inj hmono)
  exact hdeep (legible_of_reread h ho (hsame ▸ legible_of_readValue hread))

end Room

end DeviceLink.Json
