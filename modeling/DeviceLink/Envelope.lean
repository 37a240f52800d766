import DeviceLink.Json.Shape
import DeviceLink.Text.Base64

/-! The unit of exchange: a channel with raw content. -/
namespace DeviceLink

/-- Content that travels on a channel. -/
structure Envelope where
  channel : String
  content : Octets
  deriving DecidableEq, Repr

namespace Envelope

def ofText (channel text : String) : Envelope := ⟨channel, Text.encode text⟩

/-- The content as text, with U+FFFD for what is not UTF-8. -/
def text (e : Envelope) : String := Text.decodeLossy e.content

def display (e : Envelope) : String := e.channel ++ " -> " ++ e.text

def acceptContent (s : String) : Except Json.ReadError Octets :=
  match Text.Base64.decode? s.toList with
  | some content => .ok content
  | none => .error .notBase64

/-- The stored form of an envelope, its content in base64. -/
def stored : Json.Shape Envelope :=
  .refine
    (.record (.required "content"
      (.refine .text acceptContent fun content => String.ofList (Text.Base64.encode content))
      (.required "channel" .text .nil)))
    (fun (content, channel, ()) => .ok ⟨channel, content⟩)
    fun e => (e.content, e.channel, ())

end Envelope
end DeviceLink
