/-
Frames cut short. A frame that has lost bytes at its end is never read as an event: it lacks a header, or payload that its
header announces (`fault_of_cut`). So if some frames one after the other are cut at any byte, a reader gets the events of
those that are whole, from the first on, each under its own number. Then it ends well if the cut was between two frames, and
otherwise it finds the one fault, where the cut frame begins (`readFrom_cut`).
-/
import InputRelay.Proofs.Wire.Reading

namespace InputRelay.Wire

/-! ## One frame -/

/-- what is wrong with an event's frame that is cut to so many bytes -/
def Event.cutFault (e : Event) (size : Nat) : FrameError :=
  if size < headerSize then .insufficientData headerSize size
  else .payloadLengthMismatch e.payload.length (size - headerSize)

/-- enough bytes of a frame are a sound header that announces the payload -/
theorem headed_of_frame_prefix {e : Event} {number : UInt64} {b : List UInt8} (h : b <+: e.frame number)
    (hl : headerSize ≤ b.length) : Headed b e.messageType ∧ declared b = e.payload.length := by
  have hframe := decodeHeader_frame e number []
  rw [List.append_nil] at hframe
  obtain ⟨hheaded, hsays⟩ := headed_of_decodeHeader hframe
  refine ⟨(headed_of_isPrefix h hl).1 hheaded, ?_⟩
  rw [← declared_of_isPrefix h hl]
  exact (congrArg Header.payloadLength hsays).symm

/-- a frame that is cut short has a fault -/
theorem fault_of_cut {e : Event} {number : UInt64} {b : List UInt8} (h : b <+: e.frame number)
    (hl : b.length < (e.frame number).length) : Fault b (e.cutFault b.length) := by
  unfold Event.cutFault
  split_ifs with hshort
  · exact .short hshort
  · obtain ⟨hheaded, hdeclared⟩ := headed_of_frame_prefix h (Nat.not_lt.1 hshort)
    rw [length_frame] at hl
    have hcut : b.length < 16 + declared b := by
      rw [hdeclared]
      exact hl
    have hfault := Fault.cut hheaded hcut
    rwa [hdeclared] at hfault

namespace Stream

/-- reading stops at bytes with a fault -/
theorem readFrom_of_fault (offset : Nat) {b : List UInt8} {err : FrameError} (hne : b ≠ []) (h : Fault b err) :
    readFrom offset b = ⟨[], some (offset, err)⟩ :=
  readFrom_of_error offset hne (next_eq_error_iff.2 (decode_of_fault h))

/-! ## Frames one after the other -/

/-- how many of some frames, from the first on, are whole within so many bytes -/
def wholeWithin : List (List UInt8) → Nat → Nat
  | [], _ => 0
  | frame :: rest, size => if frame.length ≤ size then wholeWithin rest (size - frame.length) + 1 else 0

/-- frames cut at any byte are the whole ones, and less than the next one -/
theorem split_whole (frames : List (List UInt8)) {bs : List UInt8} (h : bs <+: frames.flatten) :
    ∃ cut, bs = (frames.take (wholeWithin frames bs.length)).flatten ++ cut ∧
      (cut = [] ∨ ∃ frame, frames[wholeWithin frames bs.length]? = some frame ∧ cut <+: frame ∧
        cut.length < frame.length) := by
  induction frames generalizing bs with
  | nil =>
    obtain rfl : bs = [] := List.prefix_nil.1 h
    exact ⟨[], rfl, Or.inl rfl⟩
  | cons frame frames ih =>
    rw [List.flatten_cons] at h
    by_cases hfit : frame.length ≤ bs.length
    · obtain ⟨rest, rfl⟩ := List.prefix_of_prefix_length_le (List.prefix_append _ _) h hfit
      obtain ⟨cut, hcut, hnext⟩ := ih ((List.prefix_append_right_inj _).1 h)
      have hleft : (frame ++ rest).length - frame.length = rest.length := by simp
      rw [wholeWithin, if_pos hfit, hleft, List.take_succ_cons, List.flatten_cons]
      refine ⟨cut, ?_, hnext⟩
      rw [List.append_assoc, ← hcut]
    · rw [wholeWithin, if_neg hfit]
      have hcut : bs <+: frame := List.prefix_of_prefix_length_le h (List.prefix_append _ _) (by omega)
      exact ⟨bs, rfl, Or.inr ⟨frame, rfl, hcut, Nat.lt_of_not_le hfit⟩⟩

theorem framesFrom_take (number : UInt64) (es : List Event) (m : Nat) :
    framesFrom number (es.take m) = (framesFrom number es).take m := by
  induction es generalizing number m with
  | nil => simp [framesFrom]
  | cons e es ih =>
    cases m with
    | zero => rfl
    | succ m => rw [List.take_succ_cons, framesFrom, framesFrom, List.take_succ_cons, ih]

/-- every frame is that of the event in its place -/
theorem event_of_frame {number : UInt64} {es : List Event} {k : Nat} {frame : List UInt8}
    (h : (framesFrom number es)[k]? = some frame) : ∃ e n, es[k]? = some e ∧ frame = e.frame n := by
  induction es generalizing number k with
  | nil => simp [framesFrom] at h
  | cons e es ih =>
    cases k with
    | zero => exact ⟨e, number, rfl, (Option.some.inj h).symm⟩
    | succ k => exact ih h

/-- frames cut at any byte are read as far as they are whole, and then there is the fault of the cut one, if any -/
theorem readFrom_cut (offset : Nat) (number : UInt64) (es : List Event) {bs : List UInt8}
    (h : bs <+: (framesFrom number es).flatten) :
    let whole := wholeWithin (framesFrom number es) bs.length
    let size := ((framesFrom number es).take whole).flatten.length
    ∃ stop, readFrom offset bs = ⟨itemsFrom offset number (es.take whole), stop⟩ ∧
      (bs.length = size → stop = none) ∧
      (bs.length ≠ size → ∃ e, es[whole]? = some e ∧ stop = some (offset + size, e.cutFault (bs.length - size))) := by
  intro whole size
  obtain ⟨cut, hbs, hcut⟩ := split_whole (framesFrom number es) h
  have hlength : bs.length = size + cut.length := (congrArg List.length hbs).trans List.length_append
  have hread := readFrom_frames offset number (es.take whole) cut
  rw [framesFrom_take, ← hbs] at hread
  by_cases hnil : cut = []
  · rw [hnil, readFrom_nil, List.append_nil] at hread
    rw [hnil] at hlength
    exact ⟨none, hread, fun _ => rfl, fun hne => absurd hlength hne⟩
  · obtain ⟨frame, hframe, hpart, hshort⟩ := hcut.resolve_left hnil
    obtain ⟨e, n, he, rfl⟩ := event_of_frame hframe
    rw [readFrom_of_fault _ hnil (fault_of_cut hpart hshort), List.append_nil] at hread
    have hrest : bs.length - size = cut.length := by omega
    refine ⟨_, hread, fun heq => ?_, fun _ => ⟨e, he, by rw [hrest]⟩⟩
    have hpos : 0 < cut.length := List.length_pos_iff.2 hnil
    omega

end Stream

end InputRelay.Wire
