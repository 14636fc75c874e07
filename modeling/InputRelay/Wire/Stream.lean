/-
Reading a whole byte stream: frame after frame from the front, each where the one before it ended, until the bytes are
used up or one cannot be read. `read` gives the frames with their offsets and, if it had to stop, the offset and the
reason.
-/
import InputRelay.Wire.Frame

namespace InputRelay.Wire.Stream

/-- one frame of a stream -/
structure Item where
  offset : Nat
  number : UInt64
  event : Event
  size : Nat
deriving DecidableEq, Repr

/-- what a stream holds: its frames, and where and why reading stopped short -/
structure Reading where
  items : List Item
  stop : Option (Nat × FrameError)
deriving DecidableEq, Repr

/-- the frame at the front of some bytes, with its sequence number -/
def next (bs : List UInt8) : Except FrameError (UInt64 × Event × Nat) := do
  let header ← decodeHeader bs
  let (event, size) ← decode bs
  return (header.number, event, size)

theorem size_of_next {bs : List UInt8} {number : UInt64} {e : Event} {size : Nat}
    (h : next bs = .ok (number, e, size)) : 20 ≤ size ∧ size ≤ bs.length := by
  simp only [next, bind, Except.bind, pure, Except.pure] at h
  split at h
  · cases h
  · split at h
    · cases h
    · rename_i hd
      simp only [Except.ok.injEq, Prod.mk.injEq] at h
      obtain ⟨_, rfl, rfl⟩ := h
      exact decode_size hd

/-- reads on from bytes that stand at an offset -/
def readFrom (offset : Nat) (bs : List UInt8) : Reading :=
  if bs = [] then ⟨[], none⟩
  else
    match _h : next bs with
    | .error e => ⟨[], some (offset, e)⟩
    | .ok (number, event, size) =>
      let rest := readFrom (offset + size) (bs.drop size)
      ⟨⟨offset, number, event, size⟩ :: rest.items, rest.stop⟩
termination_by bs.length
decreasing_by
  have := size_of_next _h
  simp only [List.length_drop]
  omega

def read (bs : List UInt8) : Reading := readFrom 0 bs

end InputRelay.Wire.Stream
