import DeviceLink.Topic
import Mathlib.Data.List.Basic
import Mathlib.Data.List.TakeWhile

/-! Channels are taken apart into what they were put together from; only keys have slashes. -/
namespace DeviceLink

theorem Direction.slash_notMem (d : Direction) : '/' ∉ d.token.toList := by
  cases d <;> decide

theorem Direction.ofToken?_token (d : Direction) : ofToken? d.token = some d := by
  cases d <;> decide

theorem Direction.token_of_ofToken? {token : String} {d : Direction}
    (h : ofToken? token = some d) : d.token = token := by
  unfold ofToken? at h
  have hfound := List.find?_some h
  exact of_decide_eq_true hfound

namespace MessageType

theorem slash_notMem (t : MessageType) : '/' ∉ t.token.toList := by
  cases t <;> simp [token]

-- Four answers share the token of their request; one of each pair is received.
private theorem exists_received {t : MessageType} (h : t ≠ .unknown) :
    ∃ t' ∈ received, t'.token = t.token := by
  cases t with
  | unknown => exact absurd rfl h
  | fileListResponse => exact ⟨.fileListRequest, by decide, rfl⟩
  | detailsSynchronizationRequest => exact ⟨.detailsSynchronizationResponse, by decide, rfl⟩
  | childrenSynchronizationRequest => exact ⟨.childrenSynchronizationResponse, by decide, rfl⟩
  | registeredDevicesRequest => exact ⟨.registeredDevicesResponse, by decide, rfl⟩
  | _ => exact ⟨_, by decide, rfl⟩

/-- A token is read as a kind that has it, though perhaps not as the kind it was written for. -/
theorem ofToken_spec {t : MessageType} (h : t ≠ .unknown) :
    ofToken t.token ∈ received ∧ (ofToken t.token).token = t.token := by
  obtain ⟨t', hmem, htoken⟩ := exists_received h
  have hsome : (received.find? fun t' => t'.token = t.token).isSome := by
    rw [List.find?_isSome]
    exact ⟨t', hmem, decide_eq_true htoken⟩
  obtain ⟨found, hfound⟩ := Option.isSome_iff_exists.mp hsome
  have hof : ofToken t.token = found := by
    unfold ofToken
    rw [hfound, Option.getD_some]
  rw [hof]
  have htoken' := List.find?_some hfound
  exact ⟨List.mem_of_find?_eq_some hfound, of_decide_eq_true htoken'⟩

theorem token_ofToken {token : String} (h : ofToken token ≠ .unknown) :
    (ofToken token).token = token := by
  unfold ofToken at h ⊢
  cases hfind : received.find? fun t => t.token = token with
  | none =>
    rw [hfind] at h
    exact absurd rfl h
  | some t =>
    have hfound := List.find?_some hfind
    exact of_decide_eq_true hfound

theorem ofToken_ne_unknown {t : MessageType} (h : t ≠ .unknown) : ofToken t.token ≠ .unknown := by
  intro heq
  have hmem := (ofToken_spec h).1
  rw [heq] at hmem
  exact absurd hmem (by decide)

end MessageType

namespace Topic

section Segments

variable {l r : List Char}

theorem bne_slash (h : '/' ∉ l) : ∀ c ∈ l, (c != '/') = true :=
  fun _ hc => bne_iff_ne.mpr fun heq => h (heq ▸ hc)

theorem firstSegment_append (h : '/' ∉ l) : firstSegment (l ++ '/' :: r) = l := by
  rw [firstSegment, List.takeWhile_append_of_pos (bne_slash h)]
  exact List.append_nil l

theorem dropWhile_segment (h : '/' ∉ l) :
    (l ++ '/' :: r).dropWhile (· != '/') = '/' :: r := by
  rw [List.dropWhile_append_of_pos (bne_slash h)]
  rfl

theorem reverse_segments (l r : List Char) :
    (l ++ '/' :: r).reverse = r.reverse ++ '/' :: l.reverse := by
  rw [List.reverse_append, List.reverse_cons, List.append_assoc, List.singleton_append]

theorem lastSegment_append (h : '/' ∉ r) : lastSegment (l ++ '/' :: r) = r := by
  have hr : '/' ∉ r.reverse := fun hmem => h (List.mem_reverse.mp hmem)
  have hfirst := firstSegment_append (r := l.reverse) hr
  unfold firstSegment at hfirst
  rw [lastSegment, reverse_segments, hfirst, List.reverse_reverse]

theorem middle_append (hl : '/' ∉ l) (hr : '/' ∉ r) (k : List Char) :
    middle (l ++ '/' :: (k ++ '/' :: r)) = k := by
  have hr' : '/' ∉ r.reverse := fun hmem => hr (List.mem_reverse.mp hmem)
  rw [middle, dropWhile_segment hl]
  simp only [reverse_segments, dropWhile_segment hr', List.drop_succ_cons, List.drop_zero,
    List.reverse_reverse]

/-- Two slashes mark off what stands before the first, between the two ends, and after the last. -/
theorem exists_segments (h : 2 ≤ l.count '/') :
    ∃ a k b, l = a ++ '/' :: (k ++ '/' :: b) ∧ '/' ∉ a ∧ '/' ∉ b := by
  have hmem : '/' ∈ l := List.count_pos_iff.mp (by omega)
  obtain ⟨a, rest, rfl, ha⟩ := List.eq_append_cons_of_mem hmem
  have hcount : 0 < rest.count '/' := by
    rw [List.count_append, List.count_eq_zero_of_not_mem ha, List.count_cons_self] at h
    omega
  have hmem' : '/' ∈ rest.reverse := List.mem_reverse.mpr (List.count_pos_iff.mp hcount)
  obtain ⟨b, k, hrest, hb⟩ := List.eq_append_cons_of_mem hmem'
  have hrest' : rest = k.reverse ++ '/' :: b.reverse := by
    rw [← reverse_segments, ← hrest, List.reverse_reverse]
  exact ⟨a, k.reverse, b.reverse, by rw [hrest'], ha, fun h => hb (List.mem_reverse.mp h)⟩

theorem segments_of_notMem (h : '/' ∉ l) : segments l = [l] := by
  induction l with
  | nil => rfl
  | cons c l ih =>
    obtain ⟨hc, hl⟩ := not_or.mp (mt List.mem_cons.mpr h)
    rw [segments, if_neg (Ne.symm hc), ih hl]

private theorem segments_ne_nil (l : List Char) : segments l ≠ [] := by
  cases l with
  | nil => exact List.cons_ne_nil _ _
  | cons c l =>
    rw [segments]
    split_ifs
    · exact List.cons_ne_nil _ _
    · split <;> exact List.cons_ne_nil _ _

theorem segments_append (l r : List Char) :
    segments (l ++ '/' :: r) = segments l ++ segments r := by
  induction l with
  | nil => rfl
  | cons c l ih =>
    rw [List.cons_append, segments, segments, ih]
    split_ifs
    · rfl
    · obtain ⟨s, others, hs⟩ := List.exists_cons_of_ne_nil (segments_ne_nil l)
      rw [hs]
      rfl

/-- The last of all segments is what stands after the last slash. -/
theorem getLastD_segments (l : List Char) : (segments l).getLastD [] = lastSegment l := by
  by_cases h : '/' ∈ l
  · have hmem : '/' ∈ l.reverse := List.mem_reverse.mpr h
    obtain ⟨b, a, hl, hb⟩ := List.eq_append_cons_of_mem hmem
    have hb' : '/' ∉ b.reverse := fun h => hb (List.mem_reverse.mp h)
    have hl' : l = a.reverse ++ '/' :: b.reverse := by
      rw [← reverse_segments, ← hl, List.reverse_reverse]
    rw [hl', segments_append, segments_of_notMem hb', lastSegment_append hb',
      List.getLastD_concat]
  · have hall : ∀ c ∈ l.reverse, (c != '/') = true :=
      bne_slash fun hmem => h (List.mem_reverse.mp hmem)
    rw [segments_of_notMem h, lastSegment, List.takeWhile_eq_self_iff.mpr hall,
      List.reverse_reverse]
    rfl

end Segments

theorem toList_channel (d : Direction) (key : String) (t : MessageType) :
    (channel d key t).toList =
      d.token.toList ++ '/' :: (key.toList ++ '/' :: t.token.toList) := by
  unfold channel
  simp only [String.toList_append, List.append_assoc]
  rfl

theorem toList_wildcard (d : Direction) (key : String) :
    (wildcard d key).toList = d.token.toList ++ '/' :: (key.toList ++ '/' :: ['+']) := by
  unfold wildcard
  simp only [String.toList_append, List.append_assoc]
  rfl

variable (d : Direction) (key : String) (t : MessageType)

@[simp] theorem direction?_channel : direction? (channel d key t) = some d := by
  rw [direction?, toList_channel, firstSegment_append d.slash_notMem, String.ofList_toList,
    d.ofToken?_token]

@[simp] theorem direction?_wildcard : direction? (wildcard d key) = some d := by
  rw [direction?, toList_wildcard, firstSegment_append d.slash_notMem, String.ofList_toList,
    d.ofToken?_token]

@[simp] theorem messageType_channel :
    messageType (channel d key t) = .ofToken t.token := by
  have hsplit : d.token.toList ++ '/' :: (key.toList ++ '/' :: t.token.toList) =
      (d.token.toList ++ '/' :: key.toList) ++ '/' :: t.token.toList := by
    rw [List.append_assoc, List.cons_append]
  rw [messageType, toList_channel, hsplit, lastSegment_append t.slash_notMem,
    String.ofList_toList]

@[simp] theorem messageType_wildcard : messageType (wildcard d key) = .unknown := by
  have hsplit : d.token.toList ++ '/' :: (key.toList ++ '/' :: ['+']) =
      (d.token.toList ++ '/' :: key.toList) ++ '/' :: ['+'] := by
    rw [List.append_assoc, List.cons_append]
  have hplus : '/' ∉ ['+'] := by decide
  rw [messageType, toList_wildcard, hsplit, lastSegment_append hplus]
  decide

/-- Any key is found again, whatever slashes it has. -/
@[simp] theorem deviceKey_channel : deviceKey (channel d key t) = key := by
  rw [deviceKey, toList_channel, middle_append d.slash_notMem t.slash_notMem,
    String.ofList_toList]

@[simp] theorem deviceKey_wildcard : deviceKey (wildcard d key) = key := by
  have hplus : '/' ∉ ['+'] := by decide
  rw [deviceKey, toList_wildcard, middle_append d.slash_notMem hplus, String.ofList_toList]

theorem channel_ofToken {t : MessageType} (h : t ≠ .unknown) :
    channel d key (.ofToken t.token) = channel d key t := by
  unfold channel
  rw [(MessageType.ofToken_spec h).2]

end Topic
end DeviceLink
