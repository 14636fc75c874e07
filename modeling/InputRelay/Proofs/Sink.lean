/-
What the frame sink makes of events. Framing never fails, so every event takes its number, and its frame is queued unless
the taker is gone (`send_eq`). While someone takes them, the frames queued are those of the events
sent, in order, numbered on from the sink's own number (`sendAll_queued`).
-/
import InputRelay.FrameSink
import InputRelay.Proofs.Wire.Frames

namespace InputRelay.FrameSink

open Wire (Event framesFrom)

theorem send_eq (s : FrameSink) (e : Event) :
    s.send e =
      if s.connected then (.queued (e.frame s.issued), ⟨⟨s.issued + 1⟩, s.queued ++ [e.frame s.issued], s.connected⟩)
      else (.closed, ⟨⟨s.issued + 1⟩, s.queued, s.connected⟩) := by
  simp only [send, Sequence.next, Wire.encode_eq]
  rfl

@[simp] theorem send_sequence (s : FrameSink) (e : Event) : (s.send e).2.sequence = ⟨s.issued + 1⟩ := by
  rw [send_eq]
  split_ifs <;> rfl

@[simp] theorem send_issued (s : FrameSink) (e : Event) : (s.send e).2.issued = s.issued + 1 := by
  rw [issued, send_sequence]

@[simp] theorem send_connected (s : FrameSink) (e : Event) : (s.send e).2.connected = s.connected := by
  rw [send_eq]
  split_ifs <;> rfl

theorem send_queued {s : FrameSink} (e : Event) (h : s.connected = true) :
    (s.send e).2.queued = s.queued ++ [e.frame s.issued] := by
  rw [send_eq, if_pos h]

theorem sendAll_append (s : FrameSink) (es es' : List Event) : s.sendAll (es ++ es') = (s.sendAll es).sendAll es' := by
  simp only [sendAll, List.foldl_append]

theorem sendAll_connected (s : FrameSink) (es : List Event) : (s.sendAll es).connected = s.connected := by
  induction es generalizing s with
  | nil => rfl
  | cons e es ih => exact (ih _).trans (send_connected s e)

/-- every event takes one number -/
theorem sendAll_issued (s : FrameSink) (es : List Event) :
    (s.sendAll es).issued = s.issued + UInt64.ofNat es.length := by
  induction es generalizing s with
  | nil => exact (UInt64.add_zero s.issued).symm
  | cons e es ih =>
    calc ((s.send e).2.sendAll es).issued
        = (s.send e).2.issued + UInt64.ofNat es.length := ih _
      _ = s.issued + UInt64.ofNat (es.length + 1) := by rw [send_issued, Wire.succ_add_ofNat]

/-- the frames queued for events sent while someone takes them -/
theorem sendAll_queued {s : FrameSink} (es : List Event) (h : s.connected = true) :
    (s.sendAll es).queued = s.queued ++ framesFrom s.issued es := by
  induction es generalizing s with
  | nil => simp [sendAll, framesFrom]
  | cons e es ih =>
    have hes := ih (s := (s.send e).2) (by rw [send_connected, h])
    rw [send_issued, send_queued e h, List.append_assoc] at hes
    exact hes

end InputRelay.FrameSink
