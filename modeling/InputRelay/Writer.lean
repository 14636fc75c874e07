/-
The writer puts queued frames on the connection. It writes each frame in as many pieces as the other end takes, and
flushes when it has written a frame and nothing else is queued. More frames may be queued while it flushes. When nothing
is queued and nothing more can come it flushes once more and is done. The first write or flush that fails ends it there;
so does a write that takes nothing.

`serve` is the writer; `transmit` puts a frame sink in front of it, which gets one batch of events at the start and one
at each flush.
-/
import InputRelay.FrameSink

namespace InputRelay.Writer

/-- why the connection failed -/
inductive Fault where
  | refused (text : String)
  | nothingTaken
deriving DecidableEq, Repr

def Fault.message : Fault → String
  | refused text => "write to remote device failed: " ++ text
  | nothingTaken => "write to remote device failed: write zero"

/-- the other end of the connection: what it does with the n-th write of so many bytes, and with the n-th flush -/
structure Peer where
  write : Nat → Nat → Except String Nat
  flush : Nat → Except String Unit

/-- one call to the other end -/
inductive Step where
  | wrote (count : Nat)
  | writeFailed
  | flushed
  | flushFailed
deriving DecidableEq, Repr

/-- the calls so far and the bytes taken by them -/
structure Progress where
  writes : Nat
  flushes : Nat
  taken : List UInt8
  trace : List Step
deriving DecidableEq, Repr

def Progress.start : Progress := ⟨0, 0, [], []⟩

/-- writes bytes in as many pieces as it takes -/
def writeAll (peer : Peer) (bs : List UInt8) (p : Progress) : Progress × Option Fault :=
  if bs = [] then (p, none)
  else
    match peer.write p.writes bs.length with
    | .error text => ({ p with writes := p.writes + 1, trace := p.trace ++ [.writeFailed] }, some (.refused text))
    | .ok offered =>
      let count := min offered bs.length
      let p := { p with
        writes := p.writes + 1
        taken := p.taken ++ bs.take count
        trace := p.trace ++ [.wrote count] }
      if count = 0 then (p, some .nothingTaken) else writeAll peer (bs.drop count) p
termination_by bs.length
decreasing_by simp only [List.length_drop]; omega

def flush (peer : Peer) (p : Progress) : Progress × Option Fault :=
  match peer.flush p.flushes with
  | .error text => ({ p with flushes := p.flushes + 1, trace := p.trace ++ [.flushFailed] }, some (.refused text))
  | .ok () => ({ p with flushes := p.flushes + 1, trace := p.trace ++ [.flushed] }, none)

/-- how the writer ended: what it did, why it stopped short, and the batches that never came -/
structure Outcome where
  progress : Progress
  fault : Option Fault
  pending : List (List (List UInt8))
deriving DecidableEq, Repr

/-- writes what is queued; a batch of frames comes in at each flush, and an empty one is the last -/
def serve (peer : Peer) (queue : List (List UInt8)) (batches : List (List (List UInt8))) (p : Progress) : Outcome :=
  match queue with
  | [] =>
    let (p, fault) := flush peer p
    ⟨p, fault, batches⟩
  | frame :: rest =>
    match writeAll peer frame p with
    | (p, some fault) => ⟨p, some fault, batches⟩
    | (p, none) =>
      if rest ≠ [] then serve peer rest batches p
      else
        match flush peer p with
        | (p, some fault) => ⟨p, some fault, batches⟩
        | (p, none) =>
          match batches with
          | [] => serve peer [] [] p
          | batch :: later => serve peer batch later p
termination_by (batches.length, queue.length)

/-! ## Events in, bytes out -/

/-- the frames of each batch of events, numbered on from a sink -/
def frameBatches (sink : FrameSink) : List (List Wire.Event) → List (List (List UInt8))
  | [] => []
  | batch :: later =>
    let after := sink.sendAll batch
    after.queued.drop sink.queued.length :: frameBatches after later

/-- how a transmission ended, and the sink after the last batch that it was given -/
structure Transmission where
  outcome : Outcome
  sink : FrameSink
deriving DecidableEq, Repr

/-- sends events through a new sink, and more at each flush, and writes the frames -/
def transmit (peer : Peer) (events : List Wire.Event) (later : List (List Wire.Event)) : Transmission :=
  let first := FrameSink.new.sendAll events
  let outcome := serve peer first.queued (frameBatches first later) .start
  ⟨outcome, first.sendAll (later.take (later.length - outcome.pending.length)).flatten⟩

/-- a peer that takes so many bytes at a time and fails at one write and at one flush, counted from one -/
def scripted (chunk failWrite failFlush : Option Nat) : Peer where
  write n offered :=
    if failWrite = some (n + 1) then .error "peer went away"
    else .ok (match chunk with | some c => min c offered | none => offered)
  flush n := if failFlush = some (n + 1) then .error "flush timed out" else .ok ()

end InputRelay.Writer
