import DeviceLink.Proofs.Json.Ordered
import DeviceLink.Proofs.Text.Decode
import Mathlib.Data.List.TakeWhile

/-! Quoted texts: a string that is read from a text is that text without its quotes only if the text
is a plain literal, for every escape and every blank is lost. -/
namespace DeviceLink

namespace Text

def unquoted (s : Octets) : Octets := s.filter (· ≠ 0x22)

theorem unquoted_append (s t : Octets) : unquoted (s ++ t) = unquoted s ++ unquoted t :=
  List.filter_append s t

theorem unquoted_of_notMem {s : Octets} (h : 0x22 ∉ s) : unquoted s = s := by
  refine List.filter_eq_self.mpr fun b hb => decide_eq_true ?_
  rintro rfl
  exact h hb

private theorem quote_notMem_encodeChar {c : Char} (h : c ≠ '"') :
    0x22 ∉ String.utf8EncodeChar c := by
  by_cases hascii : c.toNat < 128
  · rw [encodeChar_of_lt hascii, List.mem_singleton]
    intro heq
    have hnat : c.toNat = '"'.toNat := by
      rw [← toNat_ofNat (show c.toNat < 256 by omega), ← heq]
      rfl
    exact h (Char.toNat_inj.mp hnat)
  · exact fun hmem => absurd (le_of_mem_encodeChar (Nat.le_of_not_lt hascii) hmem) (by decide)

/-- Quotes are octets of their own, so they may be removed before or after a text is written. -/
theorem unquoted_octets (l : List Char) : unquoted (octets l) = octets (l.filter (· != '"')) := by
  induction l with
  | nil => rfl
  | cons c l ih =>
    rw [octets_cons, unquoted_append, ih]
    by_cases hc : c = '"'
    · subst hc
      rfl
    · have hkeep : (c :: l).filter (· != '"') = c :: l.filter (· != '"') :=
        List.filter_cons_of_pos (bne_iff_ne.mpr hc)
      rw [unquoted_of_notMem (quote_notMem_encodeChar hc), hkeep, octets_cons]

theorem unquoted_encode (s : String) : unquoted (encode s) = encode (removeQuotes s) := by
  rw [removeQuotes, encode_ofList]
  exact unquoted_octets s.toList

theorem encode_inj {s t : String} : encode s = encode t ↔ s = t := by
  constructor
  · intro h
    have hdecode := decode?_encode s
    rw [h, decode?_encode] at hdecode
    exact (Option.some.inj hdecode).symm
  · exact congrArg encode

theorem length_encodeChar_le (c : Char) : (String.utf8EncodeChar c).length ≤ 4 := by
  unfold String.utf8EncodeChar
  dsimp only
  split_ifs <;> simp

end Text

namespace Json

open Text

section Strings

variable {s t : Octets} {c : Char}

theorem quote_of_hexValue? {b : UInt8} {n : Nat} (h : hexValue? b = some n) : b ≠ 0x22 := by
  rintro rfl
  have hnone : hexValue? 0x22 = none := by decide
  cases hnone.symm.trans h

theorem readHex4_spec {n : Nat} (h : readHex4 s = .ok (n, t)) :
    ∃ u, s = u ++ t ∧ (unquoted u).length = 4 := by
  unfold readHex4 at h
  split at h
  · rename_i a b c d s
    split at h
    · rename_i ha hb hc hd
      cases h
      refine ⟨[a, b, c, d], rfl, ?_⟩
      simp [unquoted, quote_of_hexValue? ha, quote_of_hexValue? hb, quote_of_hexValue? hc,
        quote_of_hexValue? hd]
    · cases h
  · cases h

private theorem readLowSurrogate_spec {high : Nat} (h : readLowSurrogate high s = .ok (c, t)) :
    ∃ u, s = u ++ t := by
  unfold readLowSurrogate at h
  split at h
  · cases h
  · split_ifs at h
    split at h
    · cases h
    · split_ifs at h
      obtain ⟨⟨low, s₁⟩, hlow, hrest⟩ := bind_eq_ok.mp h
      obtain ⟨u, hu, -⟩ := readHex4_spec hlow
      dsimp only at hrest
      split_ifs at hrest
      have ht : s₁ = t := (Prod.mk.inj (Except.ok.inj hrest)).2
      exact ⟨_ :: _ :: u, by rw [hu, ht]; rfl⟩

/-- An escape has as many octets besides quotes as its character, even without its backslash. -/
theorem readEscape_spec (h : readEscape s = .ok (c, t)) : ∃ u, s = u ++ t ∧
    (unquoted (String.utf8EncodeChar c)).length ≤ (unquoted u).length := by
  unfold readEscape at h
  split at h
  · cases h
  · rename_i b s
    split_ifs at h with hself hb hf hn hr ht hu
    · cases h
      refine ⟨[b], rfl, ?_⟩
      rcases hself with rfl | rfl | rfl <;> decide
    · cases h
      exact ⟨[b], rfl, by rw [hb]; decide⟩
    · cases h
      exact ⟨[b], rfl, by rw [hf]; decide⟩
    · cases h
      exact ⟨[b], rfl, by rw [hn]; decide⟩
    · cases h
      exact ⟨[b], rfl, by rw [hr]; decide⟩
    · cases h
      exact ⟨[b], rfl, by rw [ht]; decide⟩
    · -- Four digits are as many octets as any character has.
      obtain ⟨⟨n, s₁⟩, hhex, hrest⟩ := bind_eq_ok.mp h
      obtain ⟨u, hs, hlength⟩ := readHex4_spec hhex
      have hchar : (unquoted (String.utf8EncodeChar c)).length ≤ 4 :=
        (List.length_filter_le _ _).trans (length_encodeChar_le c)
      have htail : ∃ u', s₁ = u' ++ t := by
        dsimp only at hrest
        split_ifs at hrest
        · cases hrest
          exact ⟨[], rfl⟩
        · exact readLowSurrogate_spec hrest
      obtain ⟨u', hs₁⟩ := htail
      refine ⟨b :: u ++ u', by rw [hs, hs₁]; simp, ?_⟩
      rw [List.cons_append, ← List.singleton_append, unquoted_append, unquoted_append,
        List.length_append, List.length_append]
      omega

/-- What is read of a string are the octets up to its closing quote, or fewer besides quotes. -/
theorem readBody_spec {fuel : Nat} {body r : Octets} (h : readBody fuel body s = .ok (r, t)) :
    ∃ u, s = u ++ 0x22 :: t ∧ (r = body.reverse ++ u ∨
      (unquoted r).length < (unquoted (body.reverse ++ u)).length) := by
  induction fuel generalizing body s with
  | zero => cases h
  | succ fuel ih =>
    cases s with
    | nil => cases h
    | cons b s =>
      rw [readBody] at h
      split_ifs at h with hquote hescape hcontrol
      · cases h
        exact ⟨[], by rw [hquote]; rfl, Or.inl (List.append_nil _).symm⟩
      · obtain ⟨⟨c, s₁⟩, hc, hrest⟩ := bind_eq_ok.mp h
        obtain ⟨e, hs, hle⟩ := readEscape_spec hc
        obtain ⟨u, hs₁, hread⟩ := ih hrest
        refine ⟨b :: (e ++ u), by rw [hs, hs₁]; simp, Or.inr ?_⟩
        -- The backslash is what the escape has more than its character.
        have hbackslash : (unquoted (body.reverse ++ b :: (e ++ u))).length =
            (unquoted body.reverse).length + (1 + ((unquoted e).length + (unquoted u).length)) := by
          rw [hescape, ← List.singleton_append, unquoted_append, unquoted_append, unquoted_append,
            List.length_append, List.length_append, List.length_append]
          rfl
        rw [List.reverse_append, List.reverse_reverse, List.append_assoc] at hread
        have hcount : (unquoted (body.reverse ++ (String.utf8EncodeChar c ++ u))).length =
            (unquoted body.reverse).length +
              ((unquoted (String.utf8EncodeChar c)).length + (unquoted u).length) := by
          rw [unquoted_append, unquoted_append, List.length_append, List.length_append]
        rw [hbackslash]
        rcases hread with rfl | hlt
        · omega
        · omega
      · obtain ⟨u, hs, hread⟩ := ih h
        refine ⟨b :: u, by rw [hs]; rfl, ?_⟩
        simpa using hread

theorem readString_spec {text : String} (h : readString s = .ok (text, t)) :
    ∃ u, s = u ++ 0x22 :: t ∧
      (Text.encode text = u ∨ (unquoted (Text.encode text)).length < (unquoted u).length) := by
  obtain ⟨⟨r, s₁⟩, hbody, hrest⟩ := bind_eq_ok.mp h
  obtain ⟨u, hs, hread⟩ := readBody_spec hbody
  dsimp only at hrest
  split at hrest
  · rename_i decoded hdecode
    cases hrest
    rw [decode?_eq_some_iff.mp hdecode]
    exact ⟨u, hs, hread⟩
  · cases hrest

end Strings

section Values

variable {s t : Octets} {text : String}

theorem readScalar_string (h : readScalar s = .ok (.string text, t)) :
    ∃ s', s = 0x22 :: s' ∧ readString s' = .ok (text, t) := by
  cases s with
  | nil => cases h
  | cons b s =>
    unfold readScalar at h
    dsimp only at h
    split_ifs at h with hnull htrue hfalse hminus hdigit hquote <;>
      obtain ⟨r, hr, h⟩ := bind_eq_ok.mp h <;> cases h
    exact ⟨s, by rw [hquote], hr⟩

theorem readValue_string {room : Nat} (h : readValue room s = .ok (.string text, t)) :
    ∃ s', skipBlanks s = 0x22 :: s' ∧ readString s' = .ok (text, t) := by
  cases room with
  | zero =>
    unfold readValue at h
    split at h
    · cases h
    · rename_i b s' hskip
      split_ifs at h
      rw [hskip]
      exact readScalar_string h
  | succ room =>
    unfold readValue at h
    split at h
    · cases h
    · rename_i b s' hskip
      split_ifs at h
      · obtain ⟨r, -, h⟩ := bind_eq_ok.mp h
        cases h
      · obtain ⟨r, -, h⟩ := bind_eq_ok.mp h
        cases h
      · rw [hskip]
        exact readScalar_string h

end Values

theorem unquoted_of_blank {s : Octets} (h : ∀ b ∈ s, isBlank b = true) : unquoted s = s :=
  unquoted_of_notMem fun hmem => absurd (h _ hmem) (by decide)

/-- A text that is read as a string stands between two quotes, with white space around them. -/
theorem parse_string_spec {s : Octets} {text : String} (h : parse s = .ok (.string text)) :
    ∃ before u after, s = before ++ 0x22 :: (u ++ 0x22 :: after) ∧
      (∀ b ∈ before, isBlank b = true) ∧ (∀ b ∈ after, isBlank b = true) ∧
      (Text.encode text = u ∨ (unquoted (Text.encode text)).length < (unquoted u).length) := by
  obtain ⟨t, hread, hblank⟩ := readValue_of_parse h
  obtain ⟨s', hskip, hstring⟩ := readValue_string hread
  obtain ⟨u, hu, hlength⟩ := readString_spec hstring
  refine ⟨s.takeWhile isBlank, u, t, ?_, List.all_eq_true.mp List.all_takeWhile,
    List.dropWhile_eq_nil_iff.mp hblank, hlength⟩
  rw [← hu, ← hskip]
  exact List.takeWhile_append_dropWhile.symm

/-- Quotes apart, a string is as long as its text only where the text is the string between two
quotes. -/
theorem removeQuotes_eq_iff {c text : String} (h : parse (Text.encode c) = .ok (.string text)) :
    removeQuotes text = removeQuotes c ↔ c = "\"" ++ text ++ "\"" := by
  constructor
  · intro heq
    obtain ⟨before, u, after, hc, hbefore, hafter, hlength⟩ := parse_string_spec h
    have hsame : unquoted (Text.encode text) = unquoted (Text.encode c) := by
      rw [unquoted_encode, unquoted_encode, heq]
    have hcount : (unquoted (Text.encode c)).length =
        before.length + ((unquoted u).length + after.length) := by
      have hquote : ∀ t, unquoted (0x22 :: t) = unquoted t := fun _ => rfl
      rw [hc, unquoted_append, hquote, unquoted_append, hquote, unquoted_of_blank hbefore,
        unquoted_of_blank hafter, List.length_append, List.length_append]
    rw [hsame] at hlength
    obtain rfl := hlength.resolve_right (by omega)
    rw [← hsame] at hcount
    have hnone : before = [] ∧ after = [] :=
      ⟨List.length_eq_zero_iff.mp (by omega), List.length_eq_zero_iff.mp (by omega)⟩
    rw [hnone.1, hnone.2] at hc
    apply encode_inj.mp
    rw [hc, Text.encode, Text.encode, String.toList_append, String.toList_append]
    simp
    rfl
  · intro heq
    rw [heq, removeQuotes, removeQuotes, String.toList_append, String.toList_append]
    simp

end Json

end DeviceLink
