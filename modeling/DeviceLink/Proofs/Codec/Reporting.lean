import DeviceLink.Cli.Run
import DeviceLink.Proofs.Codec.Area

/-! Reports: each failure of an area is reported once, and a success is not reported. -/
namespace DeviceLink

namespace Area

/-- An entry that reports an error of an area, by the area's name. -/
def IsReport (a : Area) (entry : LogEntry) : Prop :=
  entry.level = .error ∧ entry.details = [("protocol", .text a.name)]

/-- A result is not reported, and the lack of one is reported once. -/
def Reports {α : Type} (a : Area) (r : Logged (Option α)) : Prop :=
  match r.value with
  | some _ => r.log = []
  | none => ∃ entry, a.IsReport entry ∧ r.log = [entry]

theorem isReport_failure (a : Area) (verb : String) (type : MessageType) (cause : CodecError) :
    a.IsReport (a.failure verb type cause) := ⟨rfl, rfl⟩

theorem reports_report {α : Type} (a : Area) (verb : String) (type : MessageType)
    (r : Except CodecError α) : a.Reports (a.report verb type r) := by
  cases r with
  | error cause => exact ⟨_, a.isReport_failure verb type cause, rfl⟩
  | ok v => exact rfl

/-- Of many results, those that are there are kept in order, and each of the others is reported. -/
theorem forall₂_report {α β : Type} (a : Area) (verb : String) (type : MessageType)
    (f : α → Except CodecError β) (l : List α) :
    List.Forall₂ (fun x y => f x = .ok y) (l.filter fun x => (f x).isOk)
        ((l.map fun x => a.report verb type (f x)).filterMap Logged.value) ∧
      List.Forall₂ (fun x entry => (∃ cause, f x = .error cause) ∧ a.IsReport entry)
        (l.filter fun x => !(f x).isOk)
        ((l.map fun x => a.report verb type (f x)).flatMap Logged.log) := by
  induction l with
  | nil => exact ⟨.nil, .nil⟩
  | cons x l ih =>
    obtain ⟨hkept, hdropped⟩ := ih
    cases hx : f x with
    | error cause =>
      have hreport := a.isReport_failure verb type cause
      have hkeep : (x :: l).filter (fun x => (f x).isOk) = l.filter fun x => (f x).isOk := by
        rw [List.filter_cons, hx]
        rfl
      have hdrop : (x :: l).filter (fun x => !(f x).isOk) = x :: l.filter fun x => !(f x).isOk := by
        rw [List.filter_cons, hx]
        rfl
      rw [hkeep, hdrop, List.map_cons, hx]
      exact ⟨hkept, .cons ⟨⟨cause, hx⟩, hreport⟩ hdropped⟩
    | ok y =>
      have hkeep : (x :: l).filter (fun x => (f x).isOk) = x :: l.filter fun x => (f x).isOk := by
        rw [List.filter_cons, hx]
        rfl
      have hdrop : (x :: l).filter (fun x => !(f x).isOk) = l.filter fun x => !(f x).isOk := by
        rw [List.filter_cons, hx]
        rfl
      rw [hkeep, hdrop, List.map_cons, hx]
      exact ⟨.cons hx hkept, hdropped⟩

end Area

namespace Subdevice

/-- An envelope that cannot be taken apart is reported once and gives nothing; of one that can,
each element is kept or reported. -/
def Reported (e : Envelope) : Prop :=
  match elements e with
  | .error _ => (parse e).value = [] ∧
    ∃ entry, Area.gatewaySubdevice.IsReport entry ∧ (parse e).log = [entry]
  | .ok (direction, items) =>
    let content := unwrap direction (Topic.messageType e.channel)
    List.Forall₂ (fun item u => content item = .ok u) (items.filter fun item => (content item).isOk)
        (parse e).value ∧
      List.Forall₂ (fun item entry => (∃ cause, content item = .error cause) ∧
          Area.gatewaySubdevice.IsReport entry)
        (items.filter fun item => !(content item).isOk) (parse e).log

theorem reported (e : Envelope) : Reported e := by
  unfold Reported parse
  cases elements e with
  | error cause => exact ⟨rfl, _, Area.isReport_failure _ _ _ cause, rfl⟩
  | ok r => exact Area.gatewaySubdevice.forall₂_report "parse" _ _ r.2

end Subdevice

/-- A payload that is checked on its own gives its error to the caller, and nothing is reported.
`Payload.validated` has no log at all: schemas are values, not documents to be compiled when a check
is set up, and a failed compilation is all that could be reported there. -/
theorem Cli.validate_unreported (e : Envelope) :
    (run (.validate e)).value.isOk = (Payload.validated e).isOk ∧ (run (.validate e)).log = [] := by
  have hrun : run (.validate e) = ⟨validate e, []⟩ := rfl
  rw [hrun]
  refine ⟨?_, rfl⟩
  unfold validate
  cases Payload.validated e with
  | error cause => rfl
  | ok v => rfl

namespace Area

/-- Whatever is made or read, a failure is reported once and a success not at all; of an envelope
of a gateway this holds element by element. A payload that is checked on its own is not
reported. -/
theorem failures_reported_once :
    (∀ (a : Area) key m, a.Reports (a.make key m)) ∧
    (∀ (a : Area) e, a.Reports (a.parse e)) ∧
    (∀ (a : Area) t e, a.Reports (a.parseAs t e)) ∧
    (∀ e, Subdevice.Reported e) ∧
    ∀ e, (Cli.run (.validate e)).value.isOk = (Payload.validated e).isOk ∧
      (Cli.run (.validate e)).log = [] := by
  refine ⟨?_, ?_, ?_, ?_, ?_⟩
  · exact fun a key m => a.reports_report "serialize" m.type (a.write key m)
  · exact fun a e => a.reports_report "parse" _ (a.read e)
  · exact fun a t e => a.reports_report "parse" t (a.readAs t e)
  · exact Subdevice.reported
  · exact Cli.validate_unreported

end Area

end DeviceLink
