/-
Where requests wait for the router. Every successful start opens a channel of its own, numbered from zero. Requests go
to the channel of the start in effect, and whoever holds that channel's receiver takes them out in order. A stop ends
the start in effect, and its channel still gives up what it holds. A channel whose receiver is gone takes nothing more,
but its start stays in effect until it is stopped.
-/
import InputRelay.Request

namespace InputRelay.Capture

/-- why the source refuses -/
inductive SourceError where
  | alreadyStarted
  | notRunning
deriving DecidableEq, Repr

def SourceError.message : SourceError → String
  | alreadyStarted => "input source has already been started"
  | notRunning => "input source is not running"

/-- the channel of one start: what waits in it, and whether its receiver is still held -/
structure Channel where
  waiting : List Request
  held : Bool
deriving DecidableEq, Repr

/-- all channels so far, and the one that input goes to -/
structure Source where
  channels : List Channel
  running : Option Nat
deriving DecidableEq, Repr

/-- what a look into a channel gives -/
inductive Reception where
  | request (r : Request)
  | empty
  | disconnected
  | noReceiver
deriving DecidableEq, Repr

namespace Source

def new : Source := ⟨[], none⟩

/-- the channel whose receiver is held under a slot -/
def receiver? (s : Source) (slot : Nat) : Option Channel :=
  match s.channels[slot]? with
  | some c => if c.held then some c else none
  | none => none

def setChannel (s : Source) (slot : Nat) (c : Channel) : Source :=
  { s with channels := s.channels.set slot c }

/-- opens a channel, unless a start is in effect -/
def start (s : Source) : Except SourceError (Nat × Source) :=
  match s.running with
  | some _ => .error .alreadyStarted
  | none => .ok (s.channels.length, ⟨s.channels ++ [⟨[], true⟩], some s.channels.length⟩)

def stop (s : Source) : Source := { s with running := none }

/-- puts a request into the channel of the start in effect -/
def inject (s : Source) (r : Request) : Except SourceError Source :=
  match s.running with
  | none => .error .notRunning
  | some slot =>
    match s.receiver? slot with
    | none => .error .notRunning
    | some c => .ok (s.setChannel slot { c with waiting := c.waiting ++ [r] })

/-- takes the oldest request out of a channel -/
def receive (s : Source) (slot : Nat) : Reception × Source :=
  match s.receiver? slot with
  | none => (.noReceiver, s)
  | some c =>
    match c.waiting with
    | r :: rest => (.request r, s.setChannel slot { c with waiting := rest })
    | [] => (if s.running = some slot then .empty else .disconnected, s)

/-- lets go of a channel's receiver, with all that waits -/
def dropReceiver (s : Source) (slot : Nat) : Bool × Source :=
  match s.receiver? slot with
  | none => (false, s)
  | some _ => (true, s.setChannel slot ⟨[], false⟩)

/-- takes everything out of a channel and lets go of its receiver -/
def drain (s : Source) (slot : Nat) : Option (List Request × Source) :=
  match s.receiver? slot with
  | none => none
  | some c => some (c.waiting, s.setChannel slot ⟨[], false⟩)

end Source

end InputRelay.Capture
