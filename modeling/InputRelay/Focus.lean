/-
Who has the focus. The registry holds the focused display, whether focus is tracked, the displays that may take the
focus by themselves (ascending) and the listeners to tell (in the order they registered; one that registered twice is
told twice). `apply` makes one change and says which round of notifications it calls for:
- a change of the focused display calls for one while focus is tracked;
- switching tracking on calls for one, with the display that has the focus already;
- nothing else does.
A round is fixed when the change is made: its display and its listeners do not follow later changes. Delivering it is
no part of the registry.
-/
import InputRelay.Display

namespace InputRelay

/-- someone who is told of focus changes, known by name -/
structure Listener where
  name : String
deriving DecidableEq, Repr

/-- the focus and whether it is tracked, at one moment -/
structure Snapshot where
  focused : Display
  tracking : Bool
deriving DecidableEq, Repr

/-- the display that untargeted input goes to -/
def Snapshot.target (s : Snapshot) : Option Display :=
  if s.tracking && s.focused.isValid then some s.focused else none

/-- a round of notifications: every listener is told of the display, in order -/
structure Round where
  display : Display
  listeners : List Listener
deriving DecidableEq, Repr

/-- the state of the focus -/
structure Registry where
  focused : Display
  tracking : Bool
  focusable : List Display
  listeners : List Listener
deriving DecidableEq, Repr

/-- a change to the registry -/
inductive FocusCall where
  | addDisplay (d : Display)
  | removeDisplay (d : Display)
  | setFocus (d : Display)
  | setTracking (on : Bool)
  | addListener (l : Listener)
  | removeListener (l : Listener)
deriving DecidableEq, Repr

namespace Registry

/-- nothing focused, nothing tracked, nobody listening -/
def empty : Registry := ⟨.invalid, false, [], []⟩

def snapshot (r : Registry) : Snapshot := ⟨r.focused, r.tracking⟩

/-- the round that tells every listener of the focused display -/
def round (r : Registry) : Round := ⟨r.focused, r.listeners⟩

/-- gives a display the focus -/
def moveFocus (r : Registry) (d : Display) : Registry × Option Round :=
  if d = r.focused then (r, none)
  else
    let moved := { r with focused := d }
    (moved, if r.tracking then some moved.round else none)

/-- the display that takes over when the focused one goes: the least that is left -/
def successor (focusable : List Display) : Display := focusable.head?.getD .invalid

/-- the first display added takes the focus -/
def addDisplay (r : Registry) (d : Display) : Registry × Option Round :=
  let added := { r with focusable := Display.insert d r.focusable }
  if r.focusable.isEmpty then added.moveFocus d else (added, none)

def removeDisplay (r : Registry) (d : Display) : Registry × Option Round :=
  let left := Display.remove d r.focusable
  let removed := { r with focusable := left }
  if d = r.focused then removed.moveFocus (successor left) else (removed, none)

def setTracking (r : Registry) (on : Bool) : Registry × Option Round :=
  if on = r.tracking then (r, none)
  else
    let switched := { r with tracking := on }
    (switched, if on then some switched.round else none)

/-- one change, and the round it calls for -/
def apply (r : Registry) : FocusCall → Registry × Option Round
  | .addDisplay d => r.addDisplay d
  | .removeDisplay d => r.removeDisplay d
  | .setFocus d => r.moveFocus d
  | .setTracking on => r.setTracking on
  | .addListener l => ({ r with listeners := r.listeners ++ [l] }, none)
  | .removeListener l => ({ r with listeners := r.listeners.filter (· ≠ l) }, none)

/-- the state after one change -/
def after (r : Registry) (c : FocusCall) : Registry := (r.apply c).1

end Registry

end InputRelay
