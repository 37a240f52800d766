import DeviceLink.Codec.Area
import DeviceLink.Proofs.Codec.Payload

/-! What an area has done when it made or read a message. -/
namespace DeviceLink.Area

variable {a : Area}

theorem report_eq_some {α : Type} {verb : String} {type : MessageType} {r : Except CodecError α}
    {v : α} : (a.report verb type r).value = some v ↔ r = .ok v := by
  cases r with
  | error cause =>
    constructor
    · intro h
      cases h
    · intro h
      cases h
  | ok v' =>
    constructor
    · intro h
      exact congrArg Except.ok (Option.some.inj h)
    · intro h
      exact congrArg some (Except.ok.inj h)

theorem isSome_report {α : Type} {a : Area} {verb : String} {type : MessageType}
    {r : Except CodecError α} : (a.report verb type r).value.isSome ↔ Succeeds r := by
  rw [Option.isSome_iff_exists]
  exact exists_congr fun _ => report_eq_some

theorem make_eq_some {key : String} {m : Message} {e : Envelope} :
    (a.make key m).value = some e ↔ a.write key m = .ok e := report_eq_some

theorem parse_eq_some {e : Envelope} {m : Message} :
    (a.parse e).value = some m ↔ a.read e = .ok m := report_eq_some

/-- Areas that send one device's messages, each on a channel of its kind. -/
def Keyed (a : Area) : Prop := a ≠ .platformStatus ∧ a ≠ .gatewaySubdevice

instance (a : Area) : Decidable a.Keyed := inferInstanceAs (Decidable (_ ∧ _))

theorem write_eq_ok (ha : a.Keyed) {key : String} {m : Message} {e : Envelope} :
    a.write key m = .ok e ↔ key ≠ "" ∧ ∃ text, a.payload m = .ok text ∧
      e = .ofText (Topic.channel a.outgoing key m.type) text := by
  have hwrite : a.write key m = (Payload.require "device key" key >>= fun _ =>
      a.payload m >>= fun text => .ok (.ofText (Topic.channel a.outgoing key m.type) text)) := by
    obtain ⟨hstatus, hgateway⟩ := ha
    cases a with
    | platformStatus => exact absurd rfl hstatus
    | gatewaySubdevice => exact absurd rfl hgateway
    | _ => rfl
  rw [hwrite]
  constructor
  · intro h
    obtain ⟨⟨⟩, hkey, h⟩ := bind_eq_ok.mp h
    obtain ⟨text, htext, h⟩ := bind_eq_ok.mp h
    exact ⟨Payload.require_eq_ok.mp hkey, text, htext, (Except.ok.inj h).symm⟩
  · rintro ⟨hkey, text, htext, rfl⟩
    rw [Payload.require_eq_ok.mpr hkey, htext]
    rfl

theorem of_make (ha : a.Keyed) {key : String} {m : Message} {e : Envelope}
    (h : (a.make key m).value = some e) :
    key ≠ "" ∧ ∃ text, a.payload m = .ok text ∧
      e = ⟨Topic.channel a.outgoing key m.type, Text.encode text⟩ :=
  (write_eq_ok ha).mp (make_eq_some.mp h)

section Reader

variable {t : MessageType} {e : Envelope} {read : Envelope → Except CodecError Message}

theorem readAs_eq (htype : a.messageType e.channel = t) (hreader : a.reader? t = some read) :
    a.readAs t e = read e := by
  rw [readAs]
  simp only [htype, ne_eq, not_true_eq_false, if_false, hreader]

theorem readAs_of_ne (h : a.messageType e.channel ≠ t) :
    a.readAs t e = .error (.typeMismatch t (a.messageType e.channel)) := if_pos h

theorem read_eq (h : a.reader? (a.messageType e.channel) = some read) : a.read e = read e :=
  readAs_eq rfl h

theorem parseAs_eq_some (hreader : a.reader? t = some read) {m : Message} :
    (a.parseAs t e).value = some m ↔ a.messageType e.channel = t ∧ read e = .ok m := by
  refine report_eq_some.trans ?_
  by_cases htype : a.messageType e.channel = t
  · rw [readAs_eq htype hreader, and_iff_right htype]
  · rw [readAs_of_ne htype]
    exact iff_of_false nofun fun h => htype h.1

end Reader

theorem parse_congr {channel : String} {content content' : Octets}
    (h : a.read ⟨channel, content⟩ = a.read ⟨channel, content'⟩) :
    a.parse ⟨channel, content⟩ = a.parse ⟨channel, content'⟩ := by
  have hparse : ∀ e, a.parse e = a.report "parse" (a.messageType e.channel) (a.read e) :=
    fun _ => rfl
  rw [hparse, hparse, h]

theorem parse_value {channel : String} {content : Octets} {t : MessageType}
    {read : Envelope → Except CodecError Message} {m : Message} (htype : a.messageType channel = t)
    (hreader : a.reader? t = some read) (hread : read ⟨channel, content⟩ = .ok m) :
    (a.parse ⟨channel, content⟩).value = some m := by
  subst htype
  rw [parse_eq_some, read_eq hreader, hread]

end DeviceLink.Area
