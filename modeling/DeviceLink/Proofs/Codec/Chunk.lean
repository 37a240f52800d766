import DeviceLink.Proofs.Codec.Area
import DeviceLink.Proofs.Codec.Subdevice

/-! Chunks of files: frames and their parts determine each other, and a gateway passes on every
octet of a frame. -/
namespace DeviceLink.FileChunk

/-- A chunk that a frame can be put together from: both hashes have their size, and there is
data. -/
structure Framed (c : FileChunk) : Prop where
  previous : c.previousHash.length = 32
  current : c.currentHash.length = 32
  data : c.data ≠ []

section Frames

variable {f : Octets}

theorem ofFrame_of_le (h : f.length ≤ 64) : ofFrame f = empty := if_pos h

theorem ofFrame_of_lt (h : 64 < f.length) : ofFrame f =
    ⟨f.take 32, (f.drop 32).take (f.length - 64), (f.drop 32).drop (f.length - 64)⟩ := by
  have hshort : ¬ f.length ≤ 2 * hashSize := by
    unfold hashSize
    omega
  have hrest : (f.drop 32).length - 32 = f.length - 64 := by
    rw [List.length_drop]
    omega
  rw [ofFrame, if_neg hshort]
  simp only [hashSize, hrest]

theorem framed_ofFrame (h : 64 < f.length) : Framed (ofFrame f) := by
  rw [ofFrame_of_lt h]
  constructor
  · simp only [List.length_take]
    omega
  · simp only [List.length_drop]
    omega
  · have hpos : 0 < ((f.drop 32).take (f.length - 64)).length := by
      simp only [List.length_take, List.length_drop]
      omega
    exact List.ne_nil_of_length_pos hpos

/-- The parts of a frame, put together, are the frame. -/
theorem frame_ofFrame (h : 64 < f.length) : (ofFrame f).frame = f := by
  rw [ofFrame_of_lt h, frame, List.append_assoc, List.take_append_drop, List.take_append_drop]

end Frames

section Parts

variable {c : FileChunk}

private theorem length_frame (h : Framed c) : c.frame.length = 64 + c.data.length := by
  have hprevious := h.previous
  have hcurrent := h.current
  simp only [frame, List.length_append]
  omega

/-- A frame falls into the parts that it was put together from. -/
theorem ofFrame_frame (h : Framed c) : ofFrame c.frame = c := by
  have hdata : 0 < c.data.length := List.length_pos_of_ne_nil h.data
  have hlength := length_frame h
  have hsize : c.frame.length - 64 = c.data.length := by omega
  have hassoc : c.frame = c.previousHash ++ (c.data ++ c.currentHash) := List.append_assoc _ _ _
  rw [ofFrame_of_lt (by omega), hsize, hassoc, List.take_left' h.previous,
    List.drop_left' h.previous, List.take_left, List.drop_left]

end Parts

/-- A gateway passes on every frame of a subdevice, and its parts are read at the other side. -/
theorem read_through_gateway {gateway key : String} (hgateway : gateway ≠ "") (hkey : key ≠ "")
    (d : Direction) (f : Octets) :
    ∃ w u, (Area.gatewaySubdevice.make gateway (.gatewaySubdevice
        ⟨Topic.channel d key .fileBinaryResponse, f⟩)).value = some w ∧
      Subdevice.parse w = ⟨[u], []⟩ ∧
      Area.fileManagement.parseAs .fileBinaryResponse u =
        ⟨some (.fileBinaryResponse (ofFrame f)), []⟩ := by
  have ht : MessageType.fileBinaryResponse ∈ Subdevice.types := by decide
  have hchunk : .ofToken MessageType.fileBinaryResponse.token = MessageType.fileBinaryResponse :=
    (Subdevice.ofToken_eq_chunk_iff ht).mpr rfl
  have hcarriable : Subdevice.Carriable (.ofToken MessageType.fileBinaryResponse.token) f :=
    Or.inl hchunk
  obtain ⟨arrived, hback, harrives⟩ := Subdevice.contentOfJson_contentToJson hcarriable
  rw [harrives.chunk hchunk] at hback
  have htype : Area.fileManagement.messageType
      (Topic.channel .deviceToPlatform key .fileBinaryResponse) = .fileBinaryResponse :=
    (Topic.messageType_channel _ _ _).trans hchunk
  have hreader : Area.fileManagement.reader? .fileBinaryResponse =
      some fun e => .ok (.fileBinaryResponse (ofFrame e.content)) := rfl
  have hread : Area.fileManagement.readAs .fileBinaryResponse
      ⟨Topic.channel .deviceToPlatform key .fileBinaryResponse, f⟩ =
        .ok (.fileBinaryResponse (ofFrame f)) :=
    Area.readAs_eq (e := ⟨_, f⟩) htype hreader
  refine ⟨_, _, Area.make_eq_some.mpr (Subdevice.wrap_channel hgateway hkey ht),
    Subdevice.parse_carried_alone hkey ht hcarriable hback, ?_⟩
  rw [Area.parseAs, hread]
  rfl

/-- Nothing is lost between frames and their parts. A frame of more than 64 octets falls into two
hashes with data between them, which make up that frame again, and a shorter one into nothing; two
hashes of 32 octets with data between them come back from their frame. The same parts are read when
a gateway has passed the frame on. -/
theorem framing_lossless :
    (∀ f : Octets, 64 < f.length → Framed (ofFrame f) ∧ (ofFrame f).frame = f) ∧
      (∀ f : Octets, f.length ≤ 64 → ofFrame f = ⟨[], [], []⟩) ∧
      (∀ c, Framed c → ofFrame c.frame = c) ∧
      ∀ gateway key, gateway ≠ "" → key ≠ "" → ∀ d f, ∃ w u,
        (Area.gatewaySubdevice.make gateway (.gatewaySubdevice
          ⟨Topic.channel d key .fileBinaryResponse, f⟩)).value = some w ∧
        Subdevice.parse w = ⟨[u], []⟩ ∧
        Area.fileManagement.parseAs .fileBinaryResponse u =
          ⟨some (.fileBinaryResponse (ofFrame f)), []⟩ := by
  refine ⟨?_, fun f => ofFrame_of_le, fun c => ofFrame_frame, ?_⟩
  · intro f h
    exact ⟨framed_ofFrame h, frame_ofFrame h⟩
  · intro gateway key hgateway hkey
    exact read_through_gateway hgateway hkey

theorem framing_lossless_shortest :
    let c : FileChunk := ⟨List.replicate 32 1, [2], List.replicate 32 3⟩
    Framed c ∧ 64 < c.frame.length ∧ ofFrame c.frame = c ∧ (ofFrame c.frame).frame = c.frame ∧
      ofFrame (c.frame.drop 1) = ⟨[], [], []⟩ ∧
      ∃ w u, (Area.gatewaySubdevice.make "GW" (.gatewaySubdevice
          ⟨Topic.channel .platformToDevice "a/b" .fileBinaryResponse, c.frame⟩)).value = some w ∧
        Subdevice.parse w = ⟨[u], []⟩ ∧
        Area.fileManagement.parseAs .fileBinaryResponse u =
          ⟨some (.fileBinaryResponse c), []⟩ := by
  intro c
  have hframed : Framed c := ⟨rfl, rfl, List.cons_ne_nil _ _⟩
  have hlong : 64 < c.frame.length := by decide
  have hshort : (c.frame.drop 1).length ≤ 64 := by decide
  obtain ⟨hparts, hnone, hback, hpassed⟩ := framing_lossless
  have hgateway := hpassed "GW" "a/b" (by decide) (by decide) .platformToDevice c.frame
  rw [hback c hframed] at hgateway
  exact ⟨hframed, hlong, hback c hframed, (hparts _ hlong).2, hnone _ hshort, hgateway⟩

end DeviceLink.FileChunk
