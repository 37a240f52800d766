import DeviceLink.Proofs.Text.Utf8

/-! UTF-8 read strictly: what is read without fault is what is written for the text. -/
namespace DeviceLink.Text

theorem tail_bounds {b : UInt8} (h : isTail b = true) : 128 ≤ b.toNat ∧ b.toNat ≤ 191 := by
  unfold isTail at h
  rw [Bool.and_eq_true, decide_eq_true_eq, decide_eq_true_eq, UInt8.le_iff_toNat_le,
    UInt8.le_iff_toNat_le] at h
  exact h

/-- What `follows` demands of two octets, as numbers. -/
theorem follows_bounds {a b : UInt8} (h : follows a b = true) :
    194 ≤ a.toNat ∧ a.toNat ≤ 244 ∧ 128 ≤ b.toNat ∧ b.toNat ≤ 191 ∧
      (a.toNat = 224 → 160 ≤ b.toNat) ∧ (a.toNat = 237 → b.toNat ≤ 159) ∧
      (a.toNat = 240 → 144 ≤ b.toNat) ∧ (a.toNat = 244 → b.toNat ≤ 143) := by
  unfold follows isTail at h
  simp only [UInt8.lt_iff_toNat_lt, UInt8.le_iff_toNat_le, ← UInt8.toNat_inj, UInt8.reduceToNat,
    Bool.or_eq_true, decide_eq_true_eq] at h
  split_ifs at h with h₀ h₁ h₂ h₃ h₄ <;>
    rw [Bool.and_eq_true, decide_eq_true_eq, decide_eq_true_eq] at h <;> omega

theorem toNat_charOfNat {n : Nat} (h : n < 55296 ∨ 57343 < n ∧ n < 1114112) :
    (Char.ofNat n).toNat = n := by
  unfold Char.ofNat
  rw [dif_pos h]
  rfl

theorem encodeChar_ofNat_two {n : Nat} (h : 128 ≤ n ∧ n < 2048) :
    String.utf8EncodeChar (Char.ofNat n) =
      [UInt8.ofNat (n / 64 % 32 + 192), UInt8.ofNat (n % 64 + 128)] := by
  have hval : (Char.ofNat n).val.toNat = n := toNat_charOfNat (by omega)
  unfold String.utf8EncodeChar
  simp only [hval]
  rw [if_neg (by omega), if_pos (by omega)]

theorem encodeChar_ofNat_three {n : Nat} (h : 2048 ≤ n ∧ n < 65536)
    (hsurrogate : n < 55296 ∨ 57343 < n) : String.utf8EncodeChar (Char.ofNat n) =
      [UInt8.ofNat (n / 4096 % 16 + 224), UInt8.ofNat (n / 64 % 64 + 128),
        UInt8.ofNat (n % 64 + 128)] := by
  have hval : (Char.ofNat n).val.toNat = n := toNat_charOfNat (by omega)
  unfold String.utf8EncodeChar
  simp only [hval]
  rw [if_neg (by omega), if_neg (by omega), if_pos (by omega)]

private theorem encodeChar_ofNat_four {n : Nat} (h : 65536 ≤ n ∧ n < 1114112) :
    String.utf8EncodeChar (Char.ofNat n) =
      [UInt8.ofNat (n / 262144 % 8 + 240), UInt8.ofNat (n / 4096 % 64 + 128),
        UInt8.ofNat (n / 64 % 64 + 128), UInt8.ofNat (n % 64 + 128)] := by
  have hval : (Char.ofNat n).val.toNat = n := toNat_charOfNat (by omega)
  unfold String.utf8EncodeChar
  simp only [hval]
  rw [if_neg (by omega), if_neg (by omega), if_neg (by omega)]

/-- A unit without fault is a character in its octets. -/
theorem encodeChar_of_unit {a : UInt8} {t : Octets} {c : Char} {n : Nat}
    (h : unit a t = (some c, n)) : ∃ u v, t = u ++ v ∧ u.length = n ∧
      String.utf8EncodeChar c = a :: u := by
  unfold unit at h
  split_ifs at h with hone htwo hthree
  · obtain ⟨hc, rfl⟩ := Prod.mk.inj h
    have ha : a.toNat < 128 := UInt8.lt_iff_toNat_lt.mp hone
    have hnat : (Char.ofNat a.toNat).toNat = a.toNat := toNat_charOfNat (by omega)
    refine ⟨[], t, rfl, rfl, ?_⟩
    rw [← Option.some.inj hc, encodeChar_of_lt (by omega), hnat, octet_eq rfl]
  · have ha : a.toNat < 224 := UInt8.lt_iff_toNat_lt.mp htwo
    rcases t with _ | ⟨b, t⟩
    · simp at h
    cases hb : follows a b with
    | false => simp [hb] at h
    | true =>
      simp only [hb, Bool.not_true, Bool.false_eq_true, if_false] at h
      obtain ⟨hc, rfl⟩ := Prod.mk.inj h
      have hbounds := follows_bounds hb
      unfold tailBits at hc
      refine ⟨[b], t, rfl, rfl, ?_⟩
      rw [← Option.some.inj hc, encodeChar_ofNat_two (by omega), octet_eq (b := a) (by omega),
        octet_eq (b := b) (by omega)]
  · have ha : a.toNat < 240 := UInt8.lt_iff_toNat_lt.mp hthree
    have ha' : 224 ≤ a.toNat := by
      rw [UInt8.lt_iff_toNat_lt] at htwo
      exact Nat.le_of_not_lt htwo
    rcases t with _ | ⟨b, t⟩
    · simp at h
    cases hb : follows a b with
    | false => simp [hb] at h
    | true =>
      rcases t with _ | ⟨x, t⟩
      · simp [hb] at h
      cases hx : isTail x with
      | false => simp [hb, hx] at h
      | true =>
        simp only [hb, hx, Bool.not_true, Bool.false_eq_true, if_false] at h
        obtain ⟨hc, rfl⟩ := Prod.mk.inj h
        have hbounds := follows_bounds hb
        have htail := tail_bounds hx
        unfold tailBits at hc
        refine ⟨[b, x], t, rfl, rfl, ?_⟩
        rw [← Option.some.inj hc, encodeChar_ofNat_three (by omega) (by omega),
          octet_eq (b := a) (by omega), octet_eq (b := b) (by omega), octet_eq (b := x) (by omega)]
  · have ha : 240 ≤ a.toNat := by
      rw [UInt8.lt_iff_toNat_lt] at hthree
      exact Nat.le_of_not_lt hthree
    rcases t with _ | ⟨b, t⟩
    · simp at h
    cases hb : follows a b with
    | false => simp [hb] at h
    | true =>
      rcases t with _ | ⟨x, t⟩
      · simp [hb] at h
      cases hx : isTail x with
      | false => simp [hb, hx] at h
      | true =>
        rcases t with _ | ⟨y, t⟩
        · simp [hb, hx] at h
        cases hy : isTail y with
        | false => simp [hb, hx, hy] at h
        | true =>
          simp only [hb, hx, hy, Bool.not_true, Bool.false_eq_true, if_false] at h
          obtain ⟨hc, rfl⟩ := Prod.mk.inj h
          have hbounds := follows_bounds hb
          have htail := tail_bounds hx
          have htail' := tail_bounds hy
          unfold tailBits at hc
          refine ⟨[b, x, y], t, rfl, rfl, ?_⟩
          rw [← Option.some.inj hc, encodeChar_ofNat_four (by omega),
            octet_eq (b := a) (by omega), octet_eq (b := b) (by omega),
            octet_eq (b := x) (by omega), octet_eq (b := y) (by omega)]

theorem eq_map_some_of_mapM_id {α : Type} {l : List (Option α)} {l' : List α}
    (h : l.mapM id = some l') : l = l'.map some := by
  induction l generalizing l' with
  | nil =>
    rw [List.mapM_nil] at h
    obtain rfl : [] = l' := Option.some.inj h
    rfl
  | cons a l ih =>
    rw [List.mapM_cons] at h
    obtain ⟨x, hx, h⟩ := Option.bind_eq_some_iff.mp h
    obtain ⟨xs, hxs, h⟩ := Option.bind_eq_some_iff.mp h
    obtain rfl : x :: xs = l' := Option.some.inj h
    have ha : a = some x := hx
    rw [ha, ih hxs, List.map_cons]

/-- Octets without fault are what is written for their characters. -/
theorem octets_of_scan {l : List Char} {o : Octets} (h : scanFrom 0 o = l.map some) :
    octets l = o := by
  induction l generalizing o with
  | nil =>
    cases o with
    | nil => rfl
    | cons a t => cases h
  | cons c l ih =>
    cases o with
    | nil => cases h
    | cons a t =>
      obtain ⟨hc, hrest⟩ := List.cons.inj h
      obtain ⟨u, v, rfl, hu, hencode⟩ :=
        encodeChar_of_unit (n := (unit a t).2) (Prod.ext hc rfl)
      rw [← hu, scanFrom_append] at hrest
      rw [octets_cons, hencode, ih hrest, List.cons_append]

theorem decode?_eq_some_iff {o : Octets} {s : String} : decode? o = some s ↔ encode s = o := by
  constructor
  · intro h
    obtain ⟨l, hl, rfl⟩ := Option.map_eq_some_iff.mp h
    rw [encode_ofList]
    exact octets_of_scan (eq_map_some_of_mapM_id hl)
  · rintro rfl
    exact decode?_encode s

end DeviceLink.Text
