/-
Frames one after the other. `framesFrom n es` are the frames of some events, numbered on from `n`; `itemsFrom` is what a
reader makes of them. Reading frames in front of any bytes gives their items and then goes on with those bytes
(`readFrom_frames`), so frames alone are read to the last byte (`read_frames`). The time of an input stands at one place of
its frame, and nothing else in the frame depends on it (`frame_at`).
-/
import InputRelay.Proofs.Wire.RoundTrip
import InputRelay.Wire.Stream

namespace InputRelay.Wire

/-- the frames of some events, numbered on from a sequence number -/
def framesFrom : UInt64 → List Event → List (List UInt8)
  | _, [] => []
  | number, e :: es => e.frame number :: framesFrom (number + 1) es

/-- numbering on from the next number -/
theorem succ_add_ofNat (n : UInt64) (k : Nat) : n + 1 + UInt64.ofNat k = n + UInt64.ofNat (k + 1) := by
  rw [UInt64.add_assoc, UInt64.add_comm 1, UInt64.ofNat_add]
  rfl

theorem framesFrom_append (number : UInt64) (es es' : List Event) :
    framesFrom number (es ++ es') = framesFrom number es ++ framesFrom (number + UInt64.ofNat es.length) es' := by
  induction es generalizing number with
  | nil =>
    have h0 : number + UInt64.ofNat 0 = number := UInt64.add_zero number
    rw [List.length_nil, h0]
    rfl
  | cons e es ih =>
    rw [List.cons_append, framesFrom, ih, succ_add_ofNat]
    rfl

/-- the frame of an input, with zeros for the bytes of its time -/
def timeless (frame : List UInt8) : List UInt8 := frame.take 21 ++ (ofInt64 0 ++ frame.drop 29)

/-- the bytes in front of an input's time, and those behind it, are the same at all times -/
theorem frame_at (m : Input) (number : UInt64) :
    ∃ front : List UInt8, front.length = 21 ∧
      ∀ time, Event.frame (.input { m with time }) number = front ++ (ofInt64 time ++ m.body.bytes) := by
  let e : Event := .input m
  refine ⟨[protocolVersion, m.body.messageType.code, 0, 0] ++ (BigEndian.bytes 4 e.messageType.needs ++
    (BigEndian.bytes 8 number.toNat ++ (ofInt32 m.display.id ++ [m.device.code]))), ?_, fun time => ?_⟩
  · simp [BigEndian.length_bytes]
  · rw [Event.frame, length_payload]
    simp only [Event.payload, List.append_assoc]
    rfl

/-- without the bytes of its time, an input has the frame that it has at time zero -/
theorem timeless_frame (m : Input) (number : UInt64) :
    timeless (Event.frame (.input m) number) = Event.frame (.input { m with time := 0 }) number := by
  obtain ⟨front, hfront, hframe⟩ := frame_at m number
  have htime : (front ++ ofInt64 m.time).length = 29 := by rw [List.length_append, hfront, length_ofInt64]
  have hsame : Event.frame (.input m) number = front ++ (ofInt64 m.time ++ m.body.bytes) := hframe m.time
  have hbehind : (Event.frame (.input m) number).drop 29 = m.body.bytes := by
    rw [hsame, ← List.append_assoc, List.drop_left' htime]
  rw [timeless, hbehind, hsame, List.take_left' hfront, hframe]

namespace Stream

/-- the items of some events, numbered on from a sequence number, from an offset on -/
def itemsFrom : Nat → UInt64 → List Event → List Item
  | _, _, [] => []
  | offset, number, e :: es =>
    ⟨offset, number, e, (e.frame number).length⟩ :: itemsFrom (offset + (e.frame number).length) (number + 1) es

theorem next_frame (e : Event) (number : UInt64) (rest : List UInt8) :
    next (e.frame number ++ rest) = .ok (number, e, (e.frame number).length) := by
  simp only [next, decodeHeader_frame, decode_frame, bind, Except.bind, pure, Except.pure]

theorem readFrom_nil (offset : Nat) : readFrom offset [] = ⟨[], none⟩ := by
  rw [readFrom, if_pos rfl]

/-- a readable front gives one item, and reading goes on behind it -/
theorem readFrom_of_next {bs : List UInt8} {number : UInt64} {e : Event} {size : Nat} (offset : Nat)
    (h : next bs = .ok (number, e, size)) :
    readFrom offset bs = ⟨⟨offset, number, e, size⟩ :: (readFrom (offset + size) (bs.drop size)).items,
      (readFrom (offset + size) (bs.drop size)).stop⟩ := by
  have hne : bs ≠ [] := by
    rintro rfl
    have := size_of_next h
    simp only [List.length_nil] at this
    omega
  rw [readFrom, if_neg hne]
  split
  · rename_i heq
    rw [h] at heq
    cases heq
  · rename_i heq
    rw [h] at heq
    cases heq
    rfl

/-- reading stops at bytes with no frame in front -/
theorem readFrom_of_error {bs : List UInt8} {err : FrameError} (offset : Nat) (hne : bs ≠ []) (h : next bs = .error err) :
    readFrom offset bs = ⟨[], some (offset, err)⟩ := by
  rw [readFrom, if_neg hne]
  split
  · rename_i heq
    rw [h] at heq
    cases heq
    rfl
  · rename_i heq
    rw [h] at heq
    cases heq

/-- frames in front of any bytes are read first -/
theorem readFrom_frames (offset : Nat) (number : UInt64) (es : List Event) (rest : List UInt8) :
    readFrom offset ((framesFrom number es).flatten ++ rest) =
      ⟨itemsFrom offset number es ++ (readFrom (offset + (framesFrom number es).flatten.length) rest).items,
        (readFrom (offset + (framesFrom number es).flatten.length) rest).stop⟩ := by
  induction es generalizing offset number with
  | nil => simp [framesFrom, itemsFrom]
  | cons e es ih =>
    rw [framesFrom, List.flatten_cons, List.append_assoc, readFrom_of_next offset (next_frame e number _),
      List.drop_left, ih, List.length_append, Nat.add_assoc]
    rfl

/-- frames are read to the last byte -/
theorem read_frames (number : UInt64) (es : List Event) :
    read (framesFrom number es).flatten = ⟨itemsFrom 0 number es, none⟩ := by
  have h := readFrom_frames 0 number es []
  rw [List.append_nil, readFrom_nil] at h
  rw [read, h, List.append_nil]

theorem itemsFrom_map (offset : Nat) (number : UInt64) (es : List Event) :
    (itemsFrom offset number es).map (fun i => (i.number, i.event)) =
      es.mapIdx fun k e => (number + UInt64.ofNat k, e) := by
  induction es generalizing offset number with
  | nil => rfl
  | cons e es ih =>
    have h0 : number + UInt64.ofNat 0 = number := UInt64.add_zero number
    rw [itemsFrom, List.map_cons, ih, List.mapIdx_cons, h0]
    simp only [succ_add_ofNat]

theorem itemsFrom_size (offset : Nat) (number : UInt64) (es : List Event) :
    ((itemsFrom offset number es).map Item.size).sum = (framesFrom number es).flatten.length := by
  induction es generalizing offset number with
  | nil => rfl
  | cons e es ih => simp [itemsFrom, framesFrom, ih]

end Stream

end InputRelay.Wire
