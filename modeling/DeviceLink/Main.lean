import DeviceLink.Cli.Run

/-! The command line. -/

def main (arguments : List String) : IO UInt32 := do
  let o := DeviceLink.Cli.outcome true arguments
  (← IO.getStdout).putStr o.output
  (← IO.getStderr).putStr o.errors
  return UInt32.ofNat o.code
