import DeviceLink.Proofs.Codec.FeedFormat
import DeviceLink.Proofs.Interpretation

/-! Readings of one value: what their values can be read as once they have been sent. -/
namespace DeviceLink.Data

section Values

variable {v : String}

private theorem texts_canonical (h : ¬ Value.IsFiniteDouble v) :
    Texts (Value.toJson v).reread [Value.canonical v] := by
  by_cases hdouble : Value.kind v = .double
  · rw [Value.toJson_of_not_finite hdouble h,
      Value.canonical_of_kind (by simp [hdouble]) (by simp [hdouble])]
    exact .string v
  · have hordered := Value.ordered_toJson hdouble
    have hreread : (Value.toJson v).reread = Value.toJson v := by
      rw [(Value.whole_toJson hdouble 0).reread_eq, hordered.arranged_eq]
    have hvalue := Value.ofJson?_toJson hdouble
    rw [hreread]
    refine (ofJson?_iff_texts fun items harray => ?_).mp ⟨_, hvalue, rfl⟩
    rw [harray] at hvalue
    cases hvalue

/-- Whatever a value can be read as, it can be read as when it comes back; only doubles cannot be
read in base 16 any more. The latter is about the spelling of doubles: `1e+16` is no number in
base 16, which `1e16` would be. -/
theorem exists_texts_toJson (v : String) : ∃ w, Texts (Value.toJson v).reread [w] ∧
    Value.Keeps v w ∧
    (¬ Value.IsFiniteDouble v → ∀ n, Value.hex? v = some n → Value.hex? w = some n) ∧
    (Value.IsFiniteDouble v → Value.hex? w = none) := by
  by_cases h : Value.IsFiniteDouble v
  · obtain ⟨x, hx⟩ := Value.toJson_of_finite h
    refine ⟨(Json.number (.double (Json.readBack x))).text, ?_, Value.keeps_of_double h.1 _,
      fun hnot => absurd h hnot, fun _ => ?_⟩
    · rw [hx]
      exact .number _
    · rw [Value.hex?, Json.text, String.toList_ofList]
      exact congrArg (Text.below? limit64) (Double.hexDigits?_text _)
  · exact ⟨Value.canonical v, texts_canonical h, Value.keeps_canonical v,
      fun _ n => Value.hex?_canonical, fun hfinite => absurd hfinite h⟩

end Values

section Groups

variable {r : Reading} {groups : Groups}

theorem groups_of_single (h : [r].foldlM addReading [] = .ok groups) :
    r.reference ≠ timestampName ∧ groups = [(r.timestamp, Ascending.insert r.reference
      (readingValue r) [(timestampName, .ofNat r.timestamp.toNat)])] := by
  rw [List.foldlM_cons] at h
  obtain ⟨groups', hadd, hrest⟩ := bind_eq_ok.mp h
  cases hrest
  exact addReading_ok hadd

private theorem filter_insert_time {name : String} (h : name ≠ timestampName) (v t : Json) :
    (Ascending.insert name v [(timestampName, t)]).filter (fun m => m.1 ≠ timestampName) =
      [(name, v)] := by
  unfold Ascending.insert
  split_ifs <;> simp [Ascending.insert, h]

private theorem groupReads_single {w : String} (hname : r.reference ≠ timestampName)
    (htexts : Texts (readingValue r).reread [w]) :
    GroupReads (.object ((Ascending.insert r.reference (readingValue r)
      [(timestampName, .ofNat r.timestamp.toNat)]).map fun m => (m.1, m.2.reread)))
        [.single r.reference w r.timestamp] := by
  have hsorted : Ascending.Sorted (Ascending.insert r.reference (readingValue r)
      [(timestampName, .ofNat r.timestamp.toNat)]) :=
    Ascending.Sorted.insert (List.pairwise_singleton _ _) _ _
  refine ⟨_, r.timestamp.toNat, rfl, r.timestamp.toNat_lt, ?_, ?_, ?_⟩
  · rw [Ascending.find?_map, Ascending.find?_insert, if_neg (Ne.symm hname)]
    rfl
  · exact List.pairwise_map.mpr (hsorted.imp Text.encode_lt)
  · have hfilter : (fun m : String × Json => decide (m.1 ≠ timestampName)) ∘
        (fun m : String × Json => (m.1, m.2.reread)) = fun m => decide (m.1 ≠ timestampName) := rfl
    rw [List.filter_map, hfilter, filter_insert_time hname]
    exact .cons ⟨rfl, UInt64.ofNat_toNat.symm, htexts⟩ .nil

end Groups

variable {key : String} {r : Reading} {e : Envelope}

theorem exists_single_reread (hsingle : r.isMulti = false)
    (h : (Area.data.make key (.feedValues [r])).value = some e) {w : String}
    (htexts : Texts (Value.toJson r.value).reread [w]) :
    (Area.data.parseAs .feedValues e).value =
      some (.feedValues [.single r.reference w r.timestamp]) := by
  obtain ⟨groups, hfold, he⟩ := make_feedValues h
  have hgrouped := grouped_of_foldlM hfold
  have htype : Topic.messageType e.channel = .feedValues := by
    rw [he]
    exact Area.messageType_of_schema (t := .feedValues) (by decide) _ _
  have hjson : Payload.json e = .ok (groupsJson groups).reread := by
    rw [he]
    exact json_groupsJson hgrouped _
  obtain ⟨hname, hgroups⟩ := groups_of_single hfold
  have hvalue : readingValue r = Value.toJson r.value := by
    rw [readingValue, hsingle]
    rfl
  rw [← hvalue] at htexts
  have hparts : List.Forall₂ GroupReads
      (groups.map fun g => .object (g.2.map fun m => (m.1, m.2.reread)))
      [[.single r.reference w r.timestamp]] := by
    rw [hgroups]
    exact .cons (groupReads_single hname htexts) .nil
  rw [reread_groupsJson hgrouped] at hjson
  rw [parse_feedValues_eq_some htype, readFeedValues_eq_ok_iff htype]
  exact ⟨_, _, hjson, hparts, rfl⟩

/-- A reading of one value that is sent alone comes back as one reading of the same feed and time.
Its value can be read as the truth value, number or location that it could be read as before, and
in base 16 too, unless it is written as a finite double: then it comes back as a decimal, and this
cannot be read in base 16 where, as `Double.Layout.json` assumes, exponents have a sign. -/
theorem single_value_returns (hsingle : r.isMulti = false)
    (h : (Area.data.make key (.feedValues [r])).value = some e) :
    ∃ r' : Reading, (Area.data.parseAs .feedValues e).value = some (.feedValues [r']) ∧
      r'.isMulti = false ∧ r'.reference = r.reference ∧ r'.timestamp = r.timestamp ∧
      (∀ b, r.bool? = some b → r'.bool? = some b) ∧
      (∀ n, r.uint? = some n → r'.uint? = some n) ∧
      (∀ n, r.int? = some n → r'.int? = some n) ∧
      (∀ l, r.location? = some l → r'.location? = some l) ∧
      (¬ Value.IsFiniteDouble r.value → ∀ n, r.hex? = some n → r'.hex? = some n) ∧
      (Value.IsFiniteDouble r.value → r'.hex? = none) := by
  obtain ⟨w, htexts, hkeeps, hhex, hdouble⟩ := exists_texts_toJson r.value
  exact ⟨.single r.reference w r.timestamp, exists_single_reread hsingle h htexts, rfl, rfl, rfl,
    hkeeps.bool, hkeeps.uint, hkeeps.int, hkeeps.location, hhex, hdouble⟩

theorem single_value_returns_zeros :
    ∃ e, (Area.data.make "a/b" (.feedValues [.single "T" "0010" 5])).value = some e ∧
      ∃ r' : Reading, (Area.data.parseAs .feedValues e).value = some (.feedValues [r']) ∧
        r'.uint? = some 10 ∧ r'.hex? = some 16 := by
  have hmake : (Area.data.make "a/b" (.feedValues [.single "T" "0010" 5])).value.isSome = true :=
    rfl
  obtain ⟨e, he⟩ := Option.isSome_iff_exists.mp hmake
  obtain ⟨r', hparse, -, -, -, -, huint, -, -, hhex, -⟩ := single_value_returns rfl he
  have hkind : ¬ Value.IsFiniteDouble "0010" := fun h => absurd h.1 (by decide)
  exact ⟨e, he, r', hparse, huint 10 (by decide), hhex hkind 16 (by decide)⟩

/-- A numeral with an exponent can be read in base 16 before it is sent, but not when it comes
back. -/
theorem exponent_not_hex_when_read :
    ∃ e r', (Area.data.make "D" (.feedValues [.single "A" "1e3" 1])).value = some e ∧
      (Area.data.parseAs .feedValues e).value = some (.feedValues [r']) ∧
      (Reading.single "A" "1e3" 1).hex? = some 483 ∧ r'.hex? = none := by
  have hmake : (Area.data.make "D" (.feedValues [.single "A" "1e3" 1])).value.isSome = true := rfl
  have hdouble : (Value.double? "1e3").map Double.isFinite = some true := by decide +kernel
  have hfinite : Value.IsFiniteDouble "1e3" := ⟨by decide, Option.map_eq_some_iff.mp hdouble⟩
  obtain ⟨e, he⟩ := Option.isSome_iff_exists.mp hmake
  obtain ⟨w, htexts, -, -, hhex⟩ := exists_texts_toJson "1e3"
  exact ⟨e, _, he, exists_single_reread rfl he htexts, by decide, hhex hfinite⟩

end DeviceLink.Data
