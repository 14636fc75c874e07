/-
How a session answers its calls. A change to the registry takes effect at once; then the round it calls for is
delivered, listener by listener, before the call returns. A listener may make calls of its own, and each of them is
answered in full, rounds and all, before the listener goes on.

Calls inside rounds inside calls may nest without end, so `perform` takes the depth to which it follows them: listeners
that are told at depth zero make no calls. What is said of `perform` for every depth holds of all nesting that ends.
-/
import InputRelay.Session.Call

namespace InputRelay.Session

variable {μ : Type}

/-- how one listener is told of a display -/
abbrev Tell (μ : Type) := Listener → Display → World μ → World μ

/-- tells every listener of a round, in order -/
def deliver (tell : Tell μ) (round : Option Round) (w : World μ) : World μ :=
  match round with
  | none => w
  | some r => r.listeners.foldl (fun w l => tell l r.display w) w

/-- makes one change to the registry and delivers its round -/
def change (tell : Tell μ) (c : FocusCall) (w : World μ) : World μ :=
  let (registry, round) := w.registry.apply c
  (deliver tell round { w.record (.entered c w.registry) with registry }).record .left

/-- gives the plan's display the focus if it takes it, then sends its messages one after the other -/
def carryOut (clock : Nat → Int64) (tell : Tell μ) (p : Router.Plan) (w : World μ) : World μ :=
  let w := if p.takesFocus then change tell (.setFocus p.display) w else w
  p.drafts.foldl (World.send p.display (clock w.reads)) { w with reads := w.reads + 1 }

/-- routes one request -/
def dispatch (clock : Nat → Int64) (tell : Tell μ) (r : Request) (w : World μ) : World μ :=
  let routed :=
    match Router.plan w.registry.snapshot w.policy r with
    | .drop => w
    | .refuse fault => w.record (.noticed (.refused fault))
    | .send p => carryOut clock tell p w
  routed.record (.dispatched r w.registry.snapshot w.policy)

/-- routes all that waits in a channel -/
def pump (clock : Nat → Int64) (tell : Tell μ) (slot : Nat) (w : World μ) : World μ × Answer :=
  if w.source.running = some slot then (w, .stillRunning)
  else
    match w.source.drain slot with
    | none => (w, .noReceiver)
    | some (requests, source) =>
      (requests.foldl (fun w r => dispatch clock tell r w) { w with source }, .routed requests.length)

/-- answers one call -/
def answer (clock : Nat → Int64) (tell : Tell μ) : Call → World μ → World μ × Answer
  | .focus c, w => (change tell c w, .done)
  | .replacePolicy policy, w => ({ w with policy }, .done)
  | .updatePolicy policy, w => (change tell (.setTracking policy.tracksFocus) { w with policy }, .done)
  | .dispatch r, w => (dispatch clock tell r w, .done)
  | .start, w =>
    match w.source.start with
    | .ok (slot, source) => ({ w with source }, .started slot)
    | .error e => (w, .refused e)
  | .stop, w => ({ w with source := w.source.stop }, .done)
  | .inject r, w =>
    match w.source.inject r with
    | .ok source => ({ w with source }, .queued)
    | .error e => (w, .refused e)
  | .receive slot, w =>
    let (what, source) := w.source.receive slot
    ({ w with source }, .received what)
  | .dropReceiver slot, w =>
    let (held, source) := w.source.dropReceiver slot
    ({ w with source }, .dropped held)
  | .pump slot, w => pump clock tell slot w
  | .closeSink, w => ({ w with sink := w.sink.close }, .done)

/-- runs a listener's program, with an answer to each of its calls -/
def Callback.run (perform : Call → World μ → World μ × Answer) : Callback μ → World μ → World μ
  | .done, w => w
  | .look next, w => run perform (next w.view) w
  | .keep memory next, w => run perform next { w with memory }
  | .call c next, w =>
    let (w, a) := perform c w
    run perform (next a) (w.record (.answered a))

/-- tells a listener of a display, and follows what it does to a depth -/
def tell (s : Surroundings μ) : Nat → Tell μ
  | 0, l, d, w => (w.tell l d).record (.finished l)
  | depth + 1, l, d, w =>
    ((s.callback l d).run (answer s.clock (tell s depth)) (w.tell l d)).record (.finished l)

/-- answers one call, following what listeners do to a depth -/
def perform (s : Surroundings μ) (depth : Nat) (c : Call) (w : World μ) : World μ × Answer :=
  answer s.clock (tell s depth) c w

/-- makes calls one after the other -/
def run (s : Surroundings μ) (depth : Nat) (cs : List Call) (w : World μ) : World μ :=
  cs.foldl (fun w c => (perform s depth c w).1) w

end InputRelay.Session
