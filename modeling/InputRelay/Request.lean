/-
What the router is asked to do: pass on what a device reports, to a display or to whichever has the focus, or ask a
display to go back or home.
-/
import InputRelay.Raw

namespace InputRelay

/-- one piece of work for the router -/
inductive Request where
  | event (device : Device) (e : RawEvent) (target : Option Display)
  | back (d : Display)
  | home (d : Display)
deriving DecidableEq, Repr

end InputRelay
