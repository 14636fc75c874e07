/-
Where the router's events leave: each is framed under the next sequence number and queued for the writer. An event takes
its number before it is framed, and keeps it when the writer is gone and the frame has nowhere to go.
-/
import InputRelay.Sequence
import InputRelay.Wire.Frame

namespace InputRelay

open Wire (Event FrameError)

/-- the numbering, the frames queued so far, and whether someone still takes them -/
structure FrameSink where
  sequence : Sequence
  queued : List (List UInt8)
  connected : Bool
deriving DecidableEq, Repr

/-- what became of an event -/
inductive Delivery where
  | queued (frame : List UInt8)
  | closed
  | unframed (error : FrameError)
deriving DecidableEq, Repr

namespace FrameSink

def new : FrameSink := ⟨.start, [], true⟩

/-- how many events have taken a number -/
def issued (s : FrameSink) : UInt64 := s.sequence.issued

/-- frames an event and queues the frame -/
def send (s : FrameSink) (e : Event) : Delivery × FrameSink :=
  let (number, sequence) := s.sequence.next
  match Wire.encode e number with
  | .error err => (.unframed err, { s with sequence })
  | .ok frame =>
    if s.connected then (.queued frame, { s with sequence, queued := s.queued ++ [frame] })
    else (.closed, { s with sequence })

def sendAll (s : FrameSink) (es : List Event) : FrameSink := es.foldl (fun s e => (s.send e).2) s

/-- the taker of the frames goes away -/
def close (s : FrameSink) : FrameSink := { s with connected := false }

end FrameSink

end InputRelay
