/-
The kinds of input device, with the byte that names each on the wire.
-/
namespace InputRelay

/-- a kind of input device -/
inductive Device where
  | touchscreen
  | navigationTouchpad
  | mouse
  | keyboard
  | dpad
deriving DecidableEq, Repr

namespace Device

/-- the byte that names the device on the wire -/
def code : Device → UInt8
  | touchscreen => 1
  | navigationTouchpad => 2
  | mouse => 3
  | keyboard => 4
  | dpad => 5

/-- the device that a byte names -/
def ofCode? (b : UInt8) : Option Device :=
  if b = 1 then some touchscreen
  else if b = 2 then some navigationTouchpad
  else if b = 3 then some mouse
  else if b = 4 then some keyboard
  else if b = 5 then some dpad
  else none

/-- the device's name in reports -/
def name : Device → String
  | touchscreen => "Touchscreen"
  | navigationTouchpad => "NavigationTouchpad"
  | mouse => "Mouse"
  | keyboard => "Keyboard"
  | dpad => "Dpad"

theorem ofCode?_code (d : Device) : ofCode? d.code = some d := by cases d <;> rfl

theorem code_of_ofCode? {b : UInt8} {d : Device} (h : ofCode? b = some d) : d.code = b := by
  simp only [ofCode?] at h
  repeat' split at h
  all_goals simp_all [code]
  all_goals subst h; rfl

end Device

end InputRelay
