/-
What the local devices report before it is routed: key events and motion events. A motion event carries its pointers in
index order, the button and the two scroll axes whether or not its action uses them.
-/
import InputRelay.Codes
import InputRelay.Device
import InputRelay.Display
import InputRelay.Single

namespace InputRelay

/-- one finger or cursor of a motion event -/
structure Pointer where
  id : Int32
  x : Single
  y : Single
  pressure : Single
deriving DecidableEq, Repr

/-- a key went down or up -/
structure Keystroke where
  action : Int32
  keyCode : Int32
  time : Int64
deriving DecidableEq, Repr

/-- a touch, hover, button or scroll of a pointing device -/
structure Motion where
  action : Int32
  button : Int32
  time : Int64
  pointers : List Pointer
  hscroll : Single
  vscroll : Single
deriving DecidableEq, Repr

namespace Motion

/-- a touch frame -/
def touch (action : Int32) (time : Int64) (pointers : List Pointer) : Motion :=
  ⟨action, 0, time, pointers, .zero, .zero⟩

/-- a cursor at a place, pressing nothing -/
def hover (action : Int32) (time : Int64) (x y : Single) : Motion :=
  ⟨action, 0, time, [⟨0, x, y, .zero⟩], .zero, .zero⟩

/-- a mouse button pressed or released -/
def press (action button : Int32) (time : Int64) : Motion :=
  ⟨action, button, time, [⟨0, .zero, .zero, .zero⟩], .zero, .zero⟩

/-- a turn of the scroll wheel -/
def wheel (time : Int64) (hscroll vscroll : Single) : Motion :=
  ⟨MotionAction.scroll, 0, time, [⟨0, .zero, .zero, .zero⟩], hscroll, vscroll⟩

/-- what happened, without the pointer number -/
def maskedAction (e : Motion) : Int32 := e.action &&& MotionAction.mask

/-- the first pointer's place, or zero -/
def x (e : Motion) : Single := (e.pointers.head?.map Pointer.x).getD .zero

def y (e : Motion) : Single := (e.pointers.head?.map Pointer.y).getD .zero

/-- how far a scroll axis moved; there are two such axes -/
def axisValue (e : Motion) (axis : Int32) : Single :=
  if axis = Axis.horizontal then e.hscroll else if axis = Axis.vertical then e.vscroll else .zero

end Motion

/-- an event as a device reports it -/
inductive RawEvent where
  | key (e : Keystroke)
  | motion (e : Motion)
deriving DecidableEq, Repr

end InputRelay
