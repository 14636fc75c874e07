/-
What travels to a remote display: a request to go home, or one input message. A message names its display, the device
it came from and a time, and has one of five bodies. The kind of message (`MessageType`) is read off the event, and a
byte names each kind on the wire. Floats stay bit patterns throughout.
-/
import InputRelay.Device
import InputRelay.Display
import InputRelay.Single

namespace InputRelay.Wire

/-- the kinds of message -/
inductive MessageType where
  | home
  | keyEvent
  | touchEvent
  | mouseButton
  | mouseRelative
  | mouseScroll
deriving DecidableEq, Repr

namespace MessageType

/-- the byte that names the kind on the wire -/
def code : MessageType → UInt8
  | home => 0x10
  | keyEvent => 0x40
  | touchEvent => 0x41
  | mouseButton => 0x42
  | mouseRelative => 0x43
  | mouseScroll => 0x44

/-- the kind that a byte names -/
def ofCode? (b : UInt8) : Option MessageType :=
  if b = 0x10 then some home
  else if b = 0x40 then some keyEvent
  else if b = 0x41 then some touchEvent
  else if b = 0x42 then some mouseButton
  else if b = 0x43 then some mouseRelative
  else if b = 0x44 then some mouseScroll
  else none

/-- the kind's name in reports -/
def name : MessageType → String
  | home => "Home"
  | keyEvent => "KeyEvent"
  | touchEvent => "TouchEvent"
  | mouseButton => "MouseButton"
  | mouseRelative => "MouseRelative"
  | mouseScroll => "MouseScroll"

theorem ofCode?_code (t : MessageType) : ofCode? t.code = some t := by cases t <;> rfl

theorem code_of_ofCode? {b : UInt8} {t : MessageType} (h : ofCode? b = some t) : t.code = b := by
  simp only [ofCode?] at h
  repeat' split at h
  all_goals simp_all [code]
  all_goals subst h; rfl

end MessageType

/-- what an input message says, by kind -/
inductive Body where
  | key (action keyCode : Int32)
  | touch (pointer action : Int32) (x y pressure : Single)
  | mouseButton (action button : Int32)
  | mouseRelative (x y : Single)
  | mouseScroll (x y : Single)
deriving DecidableEq, Repr

def Body.messageType : Body → MessageType
  | key .. => .keyEvent
  | touch .. => .touchEvent
  | mouseButton .. => .mouseButton
  | mouseRelative .. => .mouseRelative
  | mouseScroll .. => .mouseScroll

/-- one input for one display -/
structure Input where
  display : Display
  device : Device
  time : Int64
  body : Body
deriving DecidableEq, Repr

/-- what travels to a remote display -/
inductive Event where
  | home (display : Display)
  | input (message : Input)
deriving DecidableEq, Repr

namespace Event

def messageType : Event → MessageType
  | home _ => .home
  | input m => m.body.messageType

/-- where the event goes -/
def display : Event → Display
  | home d => d
  | input m => m.display

def isInput : Event → Bool
  | home _ => false
  | input _ => true

end Event

end InputRelay.Wire
