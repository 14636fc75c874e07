/-
Scripted sessions: a list of steps, carried out one after the other, with a report after each. A listener's script is a
list of reactions; each says of which display it waits to be told, how often it acts, and what it does then. Told of a
display, a listener goes through its reactions in order. One that is waiting for this display and not used up is counted
as used and then carried out at once, so what it causes may use up others before their turn comes.
-/
import InputRelay.Session.Run

namespace InputRelay.Scenario

open Session

/-- one step of a scripted session -/
inductive Step where
  | pass
  | call (c : Call)
  | listen (name : String) (asks : Bool) (reactions : List (Option Display × Nat × List Step))

/-- what a listener does when told of a display: of which one, how often, and what -/
abbrev Reaction := Option Display × Nat × List Step

/-- a listener's script: whether it asks for the focus when told, and its reactions as far as they are not used up -/
structure Script where
  asks : Bool
  reactions : List Reaction

/-- the scripts of all listeners, by name -/
abbrev Scripts := List (String × Script)

namespace Scripts

def find? (s : Scripts) (name : String) : Option Script := s.lookup name

/-- a name keeps the script that it had first -/
def install (s : Scripts) (name : String) (script : Script) : Scripts :=
  match s.find? name with
  | some _ => s
  | none => s ++ [(name, script)]

def replace (s : Scripts) (name : String) (script : Script) : Scripts :=
  s.map fun entry => if entry.1 = name then (name, script) else entry

/-- counts one use of a listener's reaction, if it waits for the display and is not used up -/
def use? (s : Scripts) (name : String) (index : Nat) (d : Display) : Option (List Step × Scripts) :=
  match s.find? name with
  | none => none
  | some script =>
    match script.reactions[index]? with
    | some (waits, times + 1, steps) =>
      if waits = none ∨ waits = some d then
        some (steps, s.replace name { script with reactions := script.reactions.set index (waits, times, steps) })
      else none
    | _ => none

end Scripts

/-- carries out steps inside a callback, then goes on -/
def actThen (next : Callback Scripts) : List Step → Callback Scripts
  | [] => next
  | .pass :: rest => actThen next rest
  | .call c :: rest => .call c fun _ => actThen next rest
  | .listen name asks reactions :: rest =>
    .look fun v => .keep (v.memory.install name ⟨asks, reactions⟩)
      (.call (.focus (.addListener ⟨name⟩)) fun _ => actThen next rest)

/-- goes through a listener's reactions -/
def react (l : Listener) (d : Display) : List Nat → Callback Scripts
  | [] => .done
  | index :: rest => .look fun v =>
    match v.memory.use? l.name index d with
    | none => react l d rest
    | some (steps, scripts) => .keep scripts (actThen (react l d rest) steps)

/-- what a scripted listener does when told of a display -/
def callback (l : Listener) (d : Display) : Callback Scripts :=
  .look fun v =>
    match v.memory.find? l.name with
    | none => .done
    | some script => react l d (List.range script.reactions.length)

/-! ## Depth of nesting -/

mutual
/-- how often the reactions that a step brings can act, all told -/
def Step.uses : Step → Nat
  | .pass => 0
  | .call _ => 0
  | .listen _ _ reactions => reactionUses reactions

def reactionUses : List (Option Display × Nat × List Step) → Nat
  | [] => 0
  | (_, times, steps) :: rest => times + stepUses steps + reactionUses rest

def stepUses : List Step → Nat
  | [] => 0
  | s :: rest => s.uses + stepUses rest
end

/-! ## Reports -/

/-- what is reported of an entry of the log -/
inductive Line where
  | sent (event : Wire.Event) (stampedOnSending : Bool) (delivery : Delivery) (issued : UInt64)
  | told (name : String) (display : Display) (seen : Option Snapshot)
  | noticed (level : Level) (message : String)
  | nested (answer : Answer)
deriving DecidableEq, Repr

/-- a listener reports what it sees only if it asks; a call inside a callback only if it has an answer -/
def line? (scripts : Scripts) : Entry → Option Line
  | .entered .. => none
  | .left => none
  | .finished _ => none
  | .dispatched .. => none
  | .told l d seen _ =>
    some (.told l.name d (if (scripts.find? l.name).any Script.asks then some seen else none))
  | .sent event stamped delivery issued => some (.sent event stamped delivery issued)
  | .noticed n => some (.noticed n.level n.message)
  | .answered .done => none
  | .answered a => some (.nested a)

/-- one step's answer, what happened during it, and the state after it -/
structure Report where
  answer : Answer
  lines : List Line
  registry : Registry
  policy : Policy
deriving DecidableEq, Repr

/-- carries out one step; the log starts anew with each -/
def step (s : Surroundings Scripts) (depth : Nat) (st : Step) (w : World Scripts) : World Scripts × Report :=
  let w := { w with log := [] }
  let (w, answer) :=
    match st with
    | .pass => (w, .done)
    | .call c => perform s depth c w
    | .listen name asks reactions =>
      perform s depth (.focus (.addListener ⟨name⟩))
        { w with memory := w.memory.install name ⟨asks, reactions⟩ }
  (w, ⟨answer, w.log.filterMap (line? w.memory), w.registry, w.policy⟩)

def reports (s : Surroundings Scripts) (depth : Nat) : List Step → World Scripts → List Report
  | [], _ => []
  | st :: rest, w =>
    let (w, report) := step s depth st w
    report :: reports s depth rest w

/-- carries out a scripted session. The depth chosen for its calls is one more than the number of uses of all its
reactions. -/
def play (clock : Nat → Int64) (steps : List Step) (w : World Scripts) : List Report :=
  reports ⟨clock, callback⟩ (stepUses steps + 1) steps w

end InputRelay.Scenario
