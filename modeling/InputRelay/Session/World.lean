/-
The state of one session: focus registry, policy, capture source and frame sink, with a log of what happened and what
the listeners keep in mind. The log is complete and in the order in which things happen: a change asked of the registry
is `entered`, with the state it finds, and `left` when its round is over; a listener is `told`, with what it can see,
and `finished` when it has done what it does; a message is `sent`; a request is `dispatched` when its last message is
sent, with the focus and the policy that it met.
-/
import InputRelay.Capture
import InputRelay.FrameSink
import InputRelay.Router

namespace InputRelay.Session

open Wire (Event FrameError MessageType)

/-- what the program itself reports of its faults -/
inductive Notice where
  | refused (fault : Router.Fault)
  | unframed (type : MessageType) (error : FrameError)
  | closed (type : MessageType) (display : Display)
deriving DecidableEq, Repr

/-- how grave a notice is -/
inductive Level where
  | warning
  | error
deriving DecidableEq, Repr

def Notice.level : Notice → Level
  | refused _ => .error
  | unframed .. => .error
  | closed .. => .warning

def Notice.message : Notice → String
  | refused fault => fault.message
  | unframed type error => "failed to encode " ++ type.name ++ ": " ++ error.message
  | closed type display => "transport closed; dropping " ++ type.name ++ " for " ++ display.text

/-- the answer to a call -/
inductive Answer where
  | done
  | started (slot : Nat)
  | refused (error : Capture.SourceError)
  | queued
  | received (what : Capture.Reception)
  | dropped (held : Bool)
  | routed (count : Nat)
  | noReceiver
  | stillRunning
deriving DecidableEq, Repr

/-- what happened -/
inductive Entry where
  | entered (call : FocusCall) (before : Registry)
  | left
  | told (listener : Listener) (display : Display) (seen : Snapshot) (policy : Policy)
  | finished (listener : Listener)
  | sent (event : Event) (stampedOnSending : Bool) (delivery : Delivery) (issued : UInt64)
  | dispatched (request : Request) (focus : Snapshot) (policy : Policy)
  | noticed (notice : Notice)
  | answered (answer : Answer)
deriving DecidableEq, Repr

/-- a session, with what its listeners keep in mind -/
structure World (μ : Type) where
  registry : Registry
  policy : Policy
  source : Capture.Source
  sink : FrameSink
  reads : Nat
  log : List Entry
  memory : μ

/-- what a listener can see of a session -/
structure View (μ : Type) where
  snapshot : Snapshot
  focusable : List Display
  policy : Policy
  issued : UInt64
  memory : μ

/-- what is reported of an event that the sink took -/
def notices (e : Event) : Delivery → List Notice
  | .queued _ => []
  | .closed => [.closed e.messageType e.display]
  | .unframed error => [.unframed e.messageType error]

namespace World

variable {μ : Type}

/-- tracking is off, whatever the policy -/
def bare (policy : Policy) (memory : μ) : World μ :=
  ⟨.empty, policy, .new, .new, 0, [], memory⟩

/-- tracking is as the policy wants it -/
def new (policy : Policy) (memory : μ) : World μ :=
  { bare policy memory with registry := Registry.empty.after (.setTracking policy.tracksFocus) }

def view (w : World μ) : View μ :=
  ⟨w.registry.snapshot, w.registry.focusable, w.policy, w.sink.issued, w.memory⟩

def record (w : World μ) (e : Entry) : World μ := { w with log := w.log ++ [e] }

/-- notes that a listener is told of a display, and what it can see then -/
def tell (w : World μ) (l : Listener) (d : Display) : World μ := w.record (.told l d w.registry.snapshot w.policy)

/-- hands one message to the sink -/
def send (display : Display) (now : Int64) (w : World μ) (d : Router.Draft) : World μ :=
  let e := d.event display now
  let (delivery, sink) := w.sink.send e
  { w with
    sink
    log := w.log ++ (notices e delivery).map .noticed ++ [.sent e d.stampedOnSending delivery sink.issued] }

end World

end InputRelay.Session
