import DeviceLink.Cli.Run
import DeviceLink.Proofs.Topic

/-! The command line: for which requests the channel of their answer is shown. -/
namespace DeviceLink.Cli

section Arguments

variable {argument : String} {c : Char} {s : List Char}

theorem switched?_eq_none (hargument : argument.toList = c :: s) (hc : c ≠ '-')
    (verb : Option Verb) (known on : List Switch) : switched? verb known on argument = none := by
  unfold switched?
  rw [hargument]
  split
  · rename_i heq
    exact absurd (List.cons.inj heq).1 hc
  · rename_i heq
    exact absurd (List.cons.inj heq).1 hc
  · rfl

theorem read_responseChannel (hargument : argument.toList = c :: s) (hc : c ≠ '-') :
    read ["response-channel", argument] = .ok (.responseChannel argument, false) := by
  have hname : switched? none [.verbose, .help, .version] [] "response-channel" = none :=
    switched?_eq_none (s := "esponse-channel".toList) rfl (by decide) _ _ _
  have hvalue := switched?_eq_none hargument hc (some .responseChannel)
    Verb.responseChannel.switches []
  have hdashes : argument ≠ "--" := by
    intro heq
    rw [heq] at hargument
    exact hc (List.cons.inj hargument).1.symm
  have hvalues : readValues .responseChannel [argument] [] [] = .ok ([], [argument]) := by
    unfold readValues
    rw [if_neg hdashes, hvalue]
    rfl
  have hverb : Verb.ofName? "response-channel" = some .responseChannel := by decide
  unfold read readFrom
  rw [if_neg (by decide), hname]
  dsimp only
  rw [if_neg (by decide), hverb]
  dsimp only
  rw [hvalues]
  rfl

end Arguments

/-- The areas in which the answer to a request is looked up. -/
def answeringAreas : List Area := deviceAreas ++ gatewayAreas

/-- The kind of the first answer that one of the areas names. -/
def answer? (t : MessageType) : Option MessageType :=
  answeringAreas.findSome? fun a => a.responseType? t

theorem answer?_eq_some {a : Area} {t r : MessageType} (h : a.responseType? t = some r) :
    answer? t = some r := by
  unfold Area.responseType? at h
  split at h <;> cases h <;> rfl

theorem answer?_eq_none {t : MessageType} (h : ∀ a : Area, a.responseType? t = none) :
    answer? t = none := List.findSome?_eq_none_iff.mpr fun a _ => h a

/-- Answers come on channels of the device, but for the gateway's own. -/
theorem incoming_of_answers {a : Area} {t r : MessageType} (h : a.responseType? t = some r)
    (ha : a ≠ .gatewaySubdevice) : a.incoming = .platformToDevice := by
  cases a with
  | gatewaySubdevice => exact absurd rfl ha
  | gatewayRegistration => cases h
  | _ => rfl

/-- A token that is read as another kind is read as an answer, which nothing answers. -/
theorem answer?_ofToken {t : MessageType} (h : MessageType.ofToken t.token ≠ t) :
    answer? (.ofToken t.token) = none := by
  revert h
  cases t <;> decide

/-- The area of the gateway itself comes after those that answer the same requests. -/
theorem findSome?_responseChannel (t : MessageType) (key : String) :
    (answeringAreas.findSome? fun a => a.responseChannel? t key) =
      (answer? t).map (Topic.channel .platformToDevice key) := by
  cases t <;> rfl

theorem message_noResponse_ofToken (t : MessageType) :
    (Failure.noResponse (.ofToken t.token)).message = (Failure.noResponse t).message := by
  have hdisplay : (MessageType.ofToken t.token).display = t.display := by
    cases t <;> decide
  exact congrArg (fun s => "'" ++ s ++ "' requests do not expect a response") hdisplay

/-- The command shows the answer to the kind that the token is read as, whatever the direction. -/
theorem responseChannel_channel (d : Direction) (key : String) (t : MessageType) :
    responseChannel (Topic.channel d key t) =
      match answer? (.ofToken t.token) with
      | some r => .ok [Topic.channel .platformToDevice key r]
      | none => .error (.noResponse (.ofToken t.token)) := by
  have hfind := findSome?_responseChannel (.ofToken t.token) key
  unfold answeringAreas at hfind
  unfold responseChannel
  simp only [Topic.messageType_channel, Topic.deviceKey_channel, hfind]
  cases answer? (.ofToken t.token) <;> rfl

def shown : Except Failure (List String) → Outcome
  | .ok l => ⟨0, lines l, ""⟩
  | .error failure => ⟨1, "", "Error: " ++ failure.message ++ "\n"⟩

private theorem outcome_eq_shown {arguments : List String} {command : Command} {verbose : Bool}
    {r : Except Failure (List String)} (hread : read arguments = .ok (command, verbose))
    (hrun : run command = ⟨r, []⟩) (logging : Bool) : outcome logging arguments = shown r := by
  have hlog : ∀ p : LogEntry → Bool,
      (if logging then lines (([].filter p).map logLine) else "") = "" := by
    intro p
    cases logging <;> rfl
  unfold outcome
  rw [hread]
  dsimp only
  rw [hrun, hlog]
  cases r with
  | ok l => rfl
  | error failure => simp only [shown, String.empty_append]

private theorem outcome_responseChannel (logging : Bool) (d : Direction) (key : String)
    (t : MessageType) : outcome logging ["response-channel", Topic.channel d key t] =
      shown (responseChannel (Topic.channel d key t)) := by
  obtain ⟨c, s, htoken, hc⟩ : ∃ c s, d.token.toList = c :: s ∧ c ≠ '-' := by
    cases d <;> exact ⟨_, _, rfl, by decide⟩
  have hchannel : (Topic.channel d key t).toList =
      c :: (s ++ '/' :: (key.toList ++ '/' :: t.token.toList)) := by
    rw [Topic.toList_channel, htoken, List.cons_append]
  exact outcome_eq_shown (read_responseChannel hchannel hc) rfl logging

/-- The channel of the answer is shown for every request whose token is read back as its own kind;
it is that of the device, also where a gateway asks. A request whose token is read as its answer is
said to have none, as are all kinds that nothing answers. -/
theorem answer_channel_shown (logging : Bool) (d : Direction) (key : String) (t : MessageType) :
    (∀ a : Area, a ≠ .gatewaySubdevice → ∀ c, a.responseChannel? t key = some c →
      MessageType.ofToken t.token = t →
        outcome logging ["response-channel", Topic.channel d key t] = ⟨0, lines [c], ""⟩) ∧
    (∀ r, Area.gatewaySubdevice.responseType? t = some r → MessageType.ofToken t.token = t →
      outcome logging ["response-channel", Topic.channel d key t] =
        ⟨0, lines [Topic.channel .platformToDevice key r], ""⟩) ∧
    ((∀ a : Area, a.responseType? t = none) ∨ MessageType.ofToken t.token ≠ t →
      outcome logging ["response-channel", Topic.channel d key t] =
        ⟨1, "", "Error: " ++ (Failure.noResponse t).message ++ "\n"⟩) := by
  rw [outcome_responseChannel, responseChannel_channel]
  refine ⟨?_, ?_, ?_⟩
  · intro a ha c hc htoken
    obtain ⟨r, hr, rfl⟩ := Option.map_eq_some_iff.mp hc
    rw [htoken, answer?_eq_some hr, incoming_of_answers hr ha]
    rfl
  · intro r hr htoken
    rw [htoken, answer?_eq_some hr]
    rfl
  · intro h
    have hnone : answer? (.ofToken t.token) = none := by
      by_cases htoken : MessageType.ofToken t.token = t
      · rw [htoken]
        exact answer?_eq_none (h.resolve_right (not_not_intro htoken))
      · exact answer?_ofToken htoken
    rw [hnone]
    dsimp only
    rw [shown, message_noResponse_ofToken]

theorem answer_channel_shown_slash :
    (Area.data ≠ .gatewaySubdevice ∧
      Area.data.responseChannel? .pullParameters "a/b" = some "p2d/a/b/parameters" ∧
      MessageType.ofToken MessageType.pullParameters.token = .pullParameters ∧
      outcome true ["response-channel", Topic.channel .deviceToPlatform "a/b" .pullParameters] =
        ⟨0, lines ["p2d/a/b/parameters"], ""⟩) ∧
    (Area.gatewaySubdevice.responseType? .pullParameters = some .parameterSync ∧
      outcome false ["response-channel", Topic.channel .gatewayToPlatform "a/b" .pullParameters] =
        ⟨0, lines [Topic.channel .platformToDevice "a/b" .parameterSync], ""⟩) ∧
    MessageType.ofToken MessageType.childrenSynchronizationRequest.token ≠
        .childrenSynchronizationRequest ∧
      outcome false ["response-channel",
          Topic.channel .deviceToPlatform "a/b" .childrenSynchronizationRequest] =
        ⟨1, "", "Error: " ++ (Failure.noResponse .childrenSynchronizationRequest).message ++
          "\n"⟩ := by
  have hother : Area.data ≠ .gatewaySubdevice := by decide
  have hchannel : Area.data.responseChannel? .pullParameters "a/b" =
      some "p2d/a/b/parameters" := by decide
  have htoken : MessageType.ofToken MessageType.pullParameters.token = .pullParameters := by decide
  have hanswer : Area.gatewaySubdevice.responseType? .pullParameters = some .parameterSync := rfl
  have hshared : MessageType.ofToken MessageType.childrenSynchronizationRequest.token ≠
      .childrenSynchronizationRequest := by decide
  obtain ⟨hdevice, -, -⟩ := answer_channel_shown true .deviceToPlatform "a/b" .pullParameters
  obtain ⟨-, hgateway, -⟩ := answer_channel_shown false .gatewayToPlatform "a/b" .pullParameters
  obtain ⟨-, -, hnone⟩ :=
    answer_channel_shown false .deviceToPlatform "a/b" .childrenSynchronizationRequest
  exact ⟨⟨hother, hchannel, htoken, hdevice _ hother _ hchannel htoken⟩,
    ⟨hanswer, hgateway _ hanswer htoken⟩, hshared, hnone (Or.inr hshared)⟩

/-- The answer to a request for details has a channel, which is not shown; that of a gateway's
request for parameters is shown as if a device had asked. -/
theorem answer_channels_missed :
    (Area.data ∈ deviceAreas ∧
      Area.data.responseChannel? .detailsSynchronizationRequest "D" =
        some "p2d/D/details_synchronization" ∧
      outcome false ["response-channel", "d2p/D/details_synchronization"] =
        ⟨1, "", "Error: 'details_synchronization' requests do not expect a response\n"⟩) ∧
    Area.gatewaySubdevice ∈ gatewayAreas ∧
      Area.gatewaySubdevice.responseChannel? .pullParameters "D" = some "p2g/D/parameters" ∧
      outcome false ["response-channel", "g2p/D/pull_parameters"] =
        ⟨0, "p2d/D/parameters\n", ""⟩ := by
  decide

end DeviceLink.Cli
