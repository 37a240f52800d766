import DeviceLink.Envelope
import DeviceLink.Proofs.Json.Record
import DeviceLink.Proofs.Text.Base64

/-! Envelopes in their stored form: any content and any channel are read back. -/
namespace DeviceLink.Envelope

open Json

theorem acceptContent_encode (content : Octets) :
    acceptContent (String.ofList (Text.Base64.encode content)) = .ok content := by
  unfold acceptContent
  rw [String.toList_ofList, Text.Base64.decode?_encode]

theorem stored_readsBack (room : Nat) (e : Envelope) : stored.ReadsBack (room + 1) e := by
  apply Shape.ReadsBack.refine
  · apply Shape.readsBack_record
    · show ["content", "channel"].Nodup
      decide
    · refine ⟨?_, Shape.readsBack_text room e.channel, trivial⟩
      exact (Shape.readsBack_text room _).refine (acceptContent_encode e.content)
  · rfl

theorem parse_stored (e : Envelope) : stored.parse (Text.encode (stored.render e)) = .ok e :=
  (stored_readsBack 126 e).parse_render

end DeviceLink.Envelope
