/-
The command line: reads settings from standard input, as a TOML document, and says which remote device a session under
them connects to and which devices may send input to the focused display. Wrong settings end it with an error.
-/
import InputRelay.Config.Load
import InputRelay.Toml.Document

open InputRelay

/-- the bytes up to the end of a stream -/
partial def readToEnd (input : IO.FS.Stream) (sofar : ByteArray) : IO ByteArray := do
  let bytes ← input.read 65536
  if bytes.isEmpty then return sofar else readToEnd input (sofar ++ bytes)

/-- what a session under these settings does -/
def summary (settings : Config.Settings) (remote : Net.Endpoint) : List String :=
  let flag (name : String) (on : Bool) : String := name ++ (if on then " on" else " off")
  let p := settings.input
  ["remote device at " ++ remote.text,
    ", ".intercalate [flag "dpad" p.dpad, flag "navigation touchpad" p.navigationTouchpad,
      flag "keyboard" p.keyboard, flag "mouse" p.mouse],
    flag "focus tracking" p.tracksFocus]

def main : IO UInt32 := do
  let document ← readToEnd (← IO.getStdin) ByteArray.empty
  let loaded := do
    let settings ← Config.load Toml.parse? "standard input" (.content document)
    return summary settings (← settings.network.endpoint)
  match loaded with
  | .ok lines =>
    for line in lines do IO.println line
    return 0
  | .error e =>
    IO.eprintln e.message
    return 1
