import DeviceLink.Proofs.Text.Utf8
import DeviceLink.Text.Base64

/-! Base64: what is written is the standard form, every content is read back from what is written
for it, and nothing else is read. -/
namespace DeviceLink.Text.Base64

theorem value?_symbol {n : Nat} (h : n < 64) : value? (symbol n) = some n := by
  have hall : ∀ n < 64, value? (symbol n) = some n := by decide
  exact hall n h

theorem ne_pad_of_value? {c : Char} {n : Nat} (h : value? c = some n) : c ≠ '=' := by
  rintro rfl
  have hnone : value? '=' = none := by decide
  rw [hnone] at h
  cases h

private theorem decode?_group {p q r s : Char} {rest : List Char} {a b c d : Nat} {more : Octets}
    (hp : value? p = some a) (hq : value? q = some b) (hr : value? r = some c)
    (hs : value? s = some d) (hmore : decode? rest = some more) :
    decode? (p :: q :: r :: s :: rest) =
      some (UInt8.ofNat (a * 4 + b / 16) :: UInt8.ofNat (b % 16 * 16 + c / 4) ::
        UInt8.ofNat (c % 4 * 64 + d) :: more) := by
  rw [decode?]
  · simp only [hp, hq, hr, hs, hmore, Option.bind_some, bind]
  · intro h
    exact absurd h (ne_pad_of_value? hr)
  · intro h
    exact absurd h (ne_pad_of_value? hs)

/-- Octets are put back together from the numbers of six bits that they were cut into. -/
@[simp] theorem decode?_encode (content : Octets) : decode? (encode content) = some content := by
  induction content using encode.induct with
  | case1 => rfl
  | case2 a =>
    have ha : a.toNat < 256 := a.toNat_lt
    have hspare : a.toNat % 4 * 16 % 16 = 0 := by omega
    rw [encode, decode?, lastOctet?, value?_symbol (by omega), value?_symbol (by omega)]
    simp only [Option.bind_some, bind, if_pos hspare]
    rw [octet_eq (b := a) (by omega)]
  | case3 a b =>
    have ha : a.toNat < 256 := a.toNat_lt
    have hb : b.toNat < 256 := b.toNat_lt
    have hspare : b.toNat % 16 * 4 % 4 = 0 := by omega
    have hne : symbol (b.toNat % 16 * 4) ≠ '=' := ne_pad_of_value? (value?_symbol (by omega))
    rw [encode, decode?, lastOctets?, value?_symbol (by omega), value?_symbol (by omega),
      value?_symbol (by omega)]
    · simp only [Option.bind_some, bind, if_pos hspare]
      rw [octet_eq (b := a) (by omega), octet_eq (b := b) (by omega)]
    · exact hne
  | case4 a b c rest ih =>
    have ha : a.toNat < 256 := a.toNat_lt
    have hb : b.toNat < 256 := b.toNat_lt
    have hc : c.toNat < 256 := c.toNat_lt
    rw [encode, decode?_group (value?_symbol (by omega)) (value?_symbol (by omega))
      (value?_symbol (by omega)) (value?_symbol (by omega)) ih, octet_eq (b := a) (by omega),
      octet_eq (b := b) (by omega), octet_eq (b := c) (by omega)]

section Canonical

/-- Every symbol stands for one number, and no other symbol does. -/
theorem symbol_of_value? {c : Char} {n : Nat} (h : value? c = some n) : n < 64 ∧ symbol n = c := by
  have hall : ∀ k < 128, (value? (Char.ofNat k)).all fun n =>
      decide (n < 64 ∧ symbol n = Char.ofNat k) := by decide
  by_cases hc : c.toNat < 128
  · have hk := hall c.toNat hc
    rw [Char.ofNat_toNat, h] at hk
    exact of_decide_eq_true hk
  · have hnone : value? c = none := by
      unfold value?
      simp only [Bool.and_eq_true, decide_eq_true_eq]
      rw [if_neg (by omega), if_neg (by omega), if_neg (by omega), if_neg (by omega),
        if_neg (by omega)]
    rw [hnone] at h
    cases h

/-- What is read is what would be written: no other text is read as the same content. -/
theorem encode_of_decode? {text : List Char} {content : Octets} (h : decode? text = some content) :
    encode content = text := by
  have hoctet : ∀ n < 256, (UInt8.ofNat n).toNat = n := fun n hn =>
    UInt8.toNat_ofNat_of_lt' hn
  induction text using decode?.induct generalizing content with
  | case1 =>
    cases h
    rfl
  | case2 p q =>
    obtain ⟨a, ha, hq⟩ := Option.bind_eq_some_iff.mp h
    obtain ⟨b, hb, hr⟩ := Option.bind_eq_some_iff.mp hq
    obtain ⟨hlta, rfl⟩ := symbol_of_value? ha
    obtain ⟨hltb, rfl⟩ := symbol_of_value? hb
    split_ifs at hr with hspare
    cases hr
    have hfirst : (a * 4 + b / 16) / 4 = a := by omega
    have hsecond : (a * 4 + b / 16) % 4 * 16 = b := by omega
    rw [encode, hoctet _ (by omega), hfirst, hsecond]
  | case3 p q r hpad =>
    rw [decode?] at h
    · obtain ⟨a, ha, hq⟩ := Option.bind_eq_some_iff.mp h
      obtain ⟨b, hb, hr⟩ := Option.bind_eq_some_iff.mp hq
      obtain ⟨c, hc, hs⟩ := Option.bind_eq_some_iff.mp hr
      obtain ⟨hlta, rfl⟩ := symbol_of_value? ha
      obtain ⟨hltb, rfl⟩ := symbol_of_value? hb
      obtain ⟨hltc, rfl⟩ := symbol_of_value? hc
      split_ifs at hs with hspare
      cases hs
      have hfirst : (a * 4 + b / 16) / 4 = a := by omega
      have hsecond : (a * 4 + b / 16) % 4 * 16 + (b % 16 * 16 + c / 4) / 16 = b := by omega
      have hthird : (b % 16 * 16 + c / 4) % 16 * 4 = c := by omega
      rw [encode, hoctet _ (by omega), hoctet _ (by omega), hfirst, hsecond, hthird]
    · exact hpad
  | case4 p q r s rest hpads hpad ih =>
    rw [decode?] at h
    · obtain ⟨a, ha, hq⟩ := Option.bind_eq_some_iff.mp h
      obtain ⟨b, hb, hr⟩ := Option.bind_eq_some_iff.mp hq
      obtain ⟨c, hc, hs⟩ := Option.bind_eq_some_iff.mp hr
      obtain ⟨d, hd, hrest⟩ := Option.bind_eq_some_iff.mp hs
      obtain ⟨more, hmore, hcontent⟩ := Option.bind_eq_some_iff.mp hrest
      obtain ⟨hlta, rfl⟩ := symbol_of_value? ha
      obtain ⟨hltb, rfl⟩ := symbol_of_value? hb
      obtain ⟨hltc, rfl⟩ := symbol_of_value? hc
      obtain ⟨hltd, rfl⟩ := symbol_of_value? hd
      cases hcontent
      have hfirst : (a * 4 + b / 16) / 4 = a := by omega
      have hsecond : (a * 4 + b / 16) % 4 * 16 + (b % 16 * 16 + c / 4) / 16 = b := by omega
      have hthird : (b % 16 * 16 + c / 4) % 16 * 4 + (c % 4 * 64 + d) / 64 = c := by omega
      have hfourth : (c % 4 * 64 + d) % 64 = d := by omega
      rw [encode, hoctet _ (by omega), hoctet _ (by omega), hoctet _ (by omega), hfirst, hsecond,
        hthird, hfourth, ih hmore]
    · exact hpads
    · exact hpad
  | case5 text hnil htwo hone hgroup =>
    rw [decode?] at h
    · cases h
    · exact hnil
    · exact htwo
    · exact hone
    · exact hgroup

end Canonical

section Standard

def alphabet : List Char :=
  "ABCDEFGHIJKLMNOPQRSTUVWXYZabcdefghijklmnopqrstuvwxyz0123456789+/".toList

/-- The number that digits of a base stand for, behind the digits of a number. -/
def number (base start : Nat) (digits : List Nat) : Nat :=
  digits.foldl (fun n d => n * base + d) start

/-- Text is content in padded standard base64, `pads` pads standing behind the symbols of `digits`:
both fill the same number of groups, and with a zero for each pad they are the same number. -/
structure IsStandard (content : Octets) (text : List Char) (digits : List Nat) (pads : Nat) :
    Prop where
  digit_lt : ∀ d ∈ digits, d < 64
  pads_lt : pads < 3
  spelled : text = digits.map (fun d => alphabet.getD d '=') ++ List.replicate pads '='
  groups : ∃ n, content.length + pads = 3 * n ∧ text.length = 4 * n
  same : number 256 0 (content.map UInt8.toNat ++ List.replicate pads 0) =
    number 64 0 (digits ++ List.replicate pads 0)

theorem getD_alphabet {n : Nat} (h : n < 64) : alphabet.getD n '=' = symbol n := by
  have hall : ∀ n < 64, alphabet.getD n '=' = symbol n := by decide +kernel
  exact hall n h

def sextets : Octets → List Nat
  | [] => []
  | [a] => [a.toNat / 4, a.toNat % 4 * 16]
  | [a, b] => [a.toNat / 4, a.toNat % 4 * 16 + b.toNat / 16, b.toNat % 16 * 4]
  | a :: b :: c :: rest =>
    a.toNat / 4 :: (a.toNat % 4 * 16 + b.toNat / 16) :: (b.toNat % 16 * 4 + c.toNat / 64) ::
      c.toNat % 64 :: sextets rest

def padding : Octets → Nat
  | [] => 0
  | [_] => 2
  | [_, _] => 1
  | _ :: _ :: _ :: rest => padding rest

theorem encode_eq (content : Octets) :
    encode content = (sextets content).map symbol ++ List.replicate (padding content) '=' := by
  induction content using encode.induct with
  | case1 | case2 | case3 => rfl
  | case4 a b c rest ih =>
    rw [encode, ih]
    rfl

theorem sextets_lt (content : Octets) : ∀ d ∈ sextets content, d < 64 := by
  induction content using sextets.induct with
  | case1 => exact List.forall_mem_nil _
  | case2 a =>
    have ha : a.toNat < 256 := a.toNat_lt
    simp only [sextets, List.forall_mem_cons]
    exact ⟨by omega, by omega, List.forall_mem_nil _⟩
  | case3 a b =>
    have ha : a.toNat < 256 := a.toNat_lt
    have hb : b.toNat < 256 := b.toNat_lt
    simp only [sextets, List.forall_mem_cons]
    exact ⟨by omega, by omega, by omega, List.forall_mem_nil _⟩
  | case4 a b c rest ih =>
    have ha : a.toNat < 256 := a.toNat_lt
    have hb : b.toNat < 256 := b.toNat_lt
    have hc : c.toNat < 256 := c.toNat_lt
    simp only [sextets, List.forall_mem_cons]
    exact ⟨by omega, by omega, by omega, by omega, ih⟩

theorem padding_lt (content : Octets) : padding content < 3 := by
  induction content using padding.induct with
  | case1 | case2 | case3 => simp only [padding, Nat.reduceLT]
  | case4 a b c rest ih => exact ih

theorem groups_encode (content : Octets) :
    ∃ n, content.length + padding content = 3 * n ∧ (encode content).length = 4 * n := by
  induction content using encode.induct with
  | case1 => exact ⟨0, rfl, rfl⟩
  | case2 a => exact ⟨1, rfl, rfl⟩
  | case3 a b => exact ⟨1, rfl, rfl⟩
  | case4 a b c rest ih =>
    obtain ⟨n, hcontent, hlength⟩ := ih
    refine ⟨n + 1, ?_, ?_⟩
    · rw [padding, List.length_cons, List.length_cons, List.length_cons]
      omega
    · rw [encode, List.length_cons, List.length_cons, List.length_cons, List.length_cons]
      omega

/-- Groups are added to the number so far, which three octets and four symbols shift alike. -/
theorem number_sextets (content : Octets) (start : Nat) :
    number 256 start (content.map UInt8.toNat ++ List.replicate (padding content) 0) =
      number 64 start (sextets content ++ List.replicate (padding content) 0) := by
  induction content using sextets.induct generalizing start with
  | case1 => rfl
  | case2 a =>
    show ((start * 256 + a.toNat) * 256 + 0) * 256 + 0 =
      (((start * 64 + a.toNat / 4) * 64 + a.toNat % 4 * 16) * 64 + 0) * 64 + 0
    omega
  | case3 a b =>
    show ((start * 256 + a.toNat) * 256 + b.toNat) * 256 + 0 =
      (((start * 64 + a.toNat / 4) * 64 + (a.toNat % 4 * 16 + b.toNat / 16)) * 64 +
        b.toNat % 16 * 4) * 64 + 0
    omega
  | case4 a b c rest ih =>
    have hgroup : ((start * 256 + a.toNat) * 256 + b.toNat) * 256 + c.toNat =
        (((start * 64 + a.toNat / 4) * 64 + (a.toNat % 4 * 16 + b.toNat / 16)) * 64 +
          (b.toNat % 16 * 4 + c.toNat / 64)) * 64 + c.toNat % 64 := by
      omega
    have hrest := ih (((start * 256 + a.toNat) * 256 + b.toNat) * 256 + c.toNat)
    simp only [number, sextets, padding, List.map_cons, List.cons_append, List.foldl_cons]
      at hrest ⊢
    rw [hrest, hgroup]

theorem isStandard_encode (content : Octets) :
    IsStandard content (encode content) (sextets content) (padding content) where
  digit_lt := sextets_lt content
  pads_lt := padding_lt content
  spelled := by
    have hmap : (sextets content).map (fun d => alphabet.getD d '=') =
        (sextets content).map symbol :=
      List.map_congr_left fun d hd => getD_alphabet (sextets_lt content d hd)
    rw [hmap]
    exact encode_eq content
  groups := groups_encode content
  same := number_sextets content 0

end Standard

end DeviceLink.Text.Base64
