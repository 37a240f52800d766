import DeviceLink.Text.Visible

/-! Quoted text for people: what cannot be seen is written as an escape. -/
namespace DeviceLink.Text

/-- A character between quotes: a short escape where there is one, the code point in hexadecimal
digits for what does not stand on its own, and all else as it is. -/
def spelled (c : Char) : List Char :=
  if c = '"' then ['\\', '"']
  else if c = '\\' then ['\\', '\\']
  else if c = '\n' then ['\\', 'n']
  else if c = '\r' then ['\\', 'r']
  else if c = '\t' then ['\\', 't']
  else if c.toNat = 0 then ['\\', '0']
  else if isVisible c then [c]
  else '\\' :: 'u' :: '\x7b' :: (Nat.toDigits 16 c.toNat ++ ['\x7d'])

def quoted (s : String) : String :=
  String.ofList ('"' :: (s.toList.flatMap spelled ++ ['"']))

end DeviceLink.Text
