/-
What the router makes of one request. An event for a display goes to that display; one for none goes to the focused
display, if focus is tracked and the policy lets the device use it. Then it is translated:
- a key event becomes one key message with the recorded time;
- a touch (touchscreen or navigation touchpad) becomes one message per pointer, in order, all with the low byte of the
  action and the recorded time, and gives its display the focus first;
- a mouse motion becomes a button, a position or a scroll message, or nothing, stamped when it is sent;
- back becomes the press and the release of the back key, stamped when sent; home a home message; both take the focus.
`plan` settles all of it from the state at the moment of the call: the display, whether it takes the focus, and the
messages but for the time of sending. Nothing that happens later can change a plan.
-/
import InputRelay.Focus
import InputRelay.Policy
import InputRelay.Request
import InputRelay.Wire.Event

namespace InputRelay.Router

open Wire (Body Event Input)

/-- why the router cannot handle an event -/
inductive Fault where
  | motionFrom (device : Device)
  | untargetedFrom (device : Device)
deriving DecidableEq, Repr

def Fault.message : Fault → String
  | motionFrom device => "route got motion event from invalid device type " ++ device.name
  | untargetedFrom device => "route_to_focused_display got invalid device type " ++ device.name

/-- the time that a message carries: the event's own, or that of sending -/
inductive Stamp where
  | recorded (time : Int64)
  | sending
deriving DecidableEq, Repr

/-- a message but for its display and the time of sending -/
inductive Draft where
  | home
  | input (device : Device) (stamp : Stamp) (body : Body)
deriving DecidableEq, Repr

namespace Draft

/-- whether the message carries the time of sending -/
def stampedOnSending : Draft → Bool
  | input _ .sending _ => true
  | _ => false

/-- the message, for a display and a time of sending -/
def event (display : Display) (now : Int64) : Draft → Event
  | home => .home display
  | input device (.recorded time) body => .input ⟨display, device, time, body⟩
  | input device .sending body => .input ⟨display, device, now, body⟩

end Draft

/-- messages for one display, which may take the focus first -/
structure Plan where
  display : Display
  takesFocus : Bool
  drafts : List Draft
deriving DecidableEq, Repr

/-- the plan's messages at a time of sending -/
def Plan.events (p : Plan) (now : Int64) : List Event := p.drafts.map (Draft.event p.display now)

/-- what the router makes of a request -/
inductive Decision where
  | send (plan : Plan)
  | drop
  | refuse (fault : Fault)
deriving DecidableEq, Repr

/-- the message of one pointer of a touch -/
def touchDraft (device : Device) (e : Motion) (p : Pointer) : Draft :=
  .input device (.recorded e.time) (.touch p.id e.maskedAction p.x p.y p.pressure)

/-- what a mouse motion says; the whole action counts here, not only its low byte -/
def mouseBody? (e : Motion) : Option Body :=
  if e.action = MotionAction.buttonPress ∨ e.action = MotionAction.buttonRelease then
    some (.mouseButton e.action e.button)
  else if e.action = MotionAction.hoverEnter ∨ e.action = MotionAction.hoverExit
      ∨ e.action = MotionAction.hoverMove then
    some (.mouseRelative e.x e.y)
  else if e.action = MotionAction.scroll then
    some (.mouseScroll (e.axisValue Axis.horizontal).clampUnit (e.axisValue Axis.vertical).clampUnit)
  else none

/-- the plan for an event on a known display -/
def target (device : Device) (e : RawEvent) (display : Display) : Decision :=
  match e with
  | .key k => .send ⟨display, false, [.input device (.recorded k.time) (.key k.action k.keyCode)]⟩
  | .motion m =>
    match device with
    | .touchscreen | .navigationTouchpad => .send ⟨display, true, m.pointers.map (touchDraft device m)⟩
    | .mouse => .send ⟨display, false, (mouseBody? m).toList.map (.input .mouse .sending)⟩
    | .keyboard | .dpad => .refuse (.motionFrom device)

/-- the plan for an event on whichever display has the focus -/
def targetFocused (focus : Snapshot) (policy : Policy) (device : Device) (e : RawEvent) : Decision :=
  match focus.target with
  | none => .drop
  | some display =>
    match policy.allows device with
    | some true => target device e display
    | some false => .drop
    | none => .refuse (.untargetedFrom device)

def back (display : Display) : Plan :=
  ⟨display, true, [.input .dpad .sending (.key KeyAction.down KeyCode.back),
    .input .dpad .sending (.key KeyAction.up KeyCode.back)]⟩

def home (display : Display) : Plan := ⟨display, true, [.home]⟩

/-- what the router makes of a request, as focus and policy stand -/
def plan (focus : Snapshot) (policy : Policy) : Request → Decision
  | .event device e (some display) => target device e display
  | .event device e none => targetFocused focus policy device e
  | .back display => .send (back display)
  | .home display => .send (home display)

end InputRelay.Router
