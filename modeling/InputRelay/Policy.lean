/-
Which devices may send input to the focused display. A touchscreen always names its display, so the policy says nothing
about it. Focus is worth tracking as soon as one device may use it.
-/
import InputRelay.Device

namespace InputRelay

/-- the devices whose untargeted input goes to the focused display -/
structure Policy where
  dpad : Bool
  navigationTouchpad : Bool
  keyboard : Bool
  mouse : Bool
deriving DecidableEq, Repr

namespace Policy

/-- no device may -/
def closed : Policy := ⟨false, false, false, false⟩

/-- whether any device may -/
def tracksFocus (p : Policy) : Bool := p.dpad || p.navigationTouchpad || p.keyboard || p.mouse

/-- whether a device may; `none` for one that never asks -/
def allows (p : Policy) : Device → Option Bool
  | .touchscreen => none
  | .navigationTouchpad => some p.navigationTouchpad
  | .mouse => some p.mouse
  | .keyboard => some p.keyboard
  | .dpad => some p.dpad

theorem tracksFocus_of_allows {p : Policy} {d : Device} (h : p.allows d = some true) : p.tracksFocus = true := by
  cases d <;> simp_all [allows, tracksFocus]

end Policy

end InputRelay
