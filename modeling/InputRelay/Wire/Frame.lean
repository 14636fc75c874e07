/-
One event as bytes. A frame is a header of sixteen bytes and a payload:

  version 1 · kind 1 · reserved 2 · payload length 4 · sequence number 8 · payload

A payload starts with the display id (4); an input goes on with the device (1), the time (8) and its body. All numbers
are written most significant byte first. The reserved bytes are written as zero and not looked at when reading; nor are
payload bytes beyond those the kind needs. `encode` writes a frame, `decodeHeader` and `decode` read one from the front
of any bytes. `decode` counts the bytes that its frame takes, at least twenty (`decode_size`).
-/
import InputRelay.BigEndian
import InputRelay.Wire.Error

namespace InputRelay.Wire

/-- the version of the format that both ends speak -/
def protocolVersion : UInt8 := 1

/-- bytes before the payload -/
def headerSize : Nat := 16

/-- what the front of a frame says about the rest -/
structure Header where
  version : UInt8
  type : MessageType
  payloadLength : Nat
  number : UInt64
deriving DecidableEq, Repr

/-! ## Writing -/

def ofInt32 (n : Int32) : List UInt8 := BigEndian.bytes 4 n.toUInt32.toNat

def ofInt64 (n : Int64) : List UInt8 := BigEndian.bytes 8 n.toUInt64.toNat

def ofSingle (x : Single) : List UInt8 := BigEndian.bytes 4 x.bits.toNat

def Body.bytes : Body → List UInt8
  | key action keyCode => ofInt32 action ++ ofInt32 keyCode
  | touch pointer action x y pressure =>
    ofInt32 pointer ++ ofInt32 action ++ ofSingle x ++ ofSingle y ++ ofSingle pressure
  | mouseButton action button => ofInt32 action ++ ofInt32 button
  | mouseRelative x y => ofSingle x ++ ofSingle y
  | mouseScroll x y => ofSingle x ++ ofSingle y

def Event.payload : Event → List UInt8
  | home d => ofInt32 d.id
  | input m => ofInt32 m.display.id ++ m.device.code :: ofInt64 m.time ++ m.body.bytes

/-- the frame of an event under a sequence number -/
def encode (e : Event) (number : UInt64) : Except FrameError (List UInt8) :=
  let payload := e.payload
  if payload.length < UInt32.size then
    .ok (protocolVersion :: e.messageType.code :: 0 :: 0 ::
      BigEndian.bytes 4 payload.length ++ BigEndian.bytes 8 number.toNat ++ payload)
  else .error (.malformedPayload (.tooLarge payload.length))

/-! ## Reading -/

/-- some bytes out of the middle, if they are all there -/
def field (bs : List UInt8) (start count : Nat) : Except FrameError (List UInt8) :=
  if start + count ≤ bs.length then .ok ((bs.drop start).take count)
  else .error (.insufficientData (start + count) bs.length)

/-- all bytes from a place on, if it is among them or at their end -/
def tail (bs : List UInt8) (start : Nat) : Except FrameError (List UInt8) := field bs start (bs.length - start)

def word (bs : List UInt8) (start count : Nat) : Except FrameError Nat :=
  (field bs start count).map BigEndian.number

def int32 (bs : List UInt8) (start : Nat) : Except FrameError Int32 :=
  (word bs start 4).map fun n => (UInt32.ofNat n).toInt32

def int64 (bs : List UInt8) (start : Nat) : Except FrameError Int64 :=
  (word bs start 8).map fun n => (UInt64.ofNat n).toInt64

def single (bs : List UInt8) (start : Nat) : Except FrameError Single :=
  (word bs start 4).map fun n => ⟨UInt32.ofNat n⟩

/-- refuses to read a part from too few bytes -/
def need (part : Part) (bs : List UInt8) : Except FrameError Unit :=
  if bs.length < part.size then .error (.malformedPayload (.tooShort part bs.length)) else .ok ()

def decodeHeader (bs : List UInt8) : Except FrameError Header := do
  if bs.length < headerSize then throw (.insufficientData headerSize bs.length)
  let version := UInt8.ofNat (← word bs 0 1)
  if version ≠ protocolVersion then throw (.unsupportedVersion version)
  let code := UInt8.ofNat (← word bs 1 1)
  let some type := MessageType.ofCode? code | throw (.unknownMessageType code)
  let payloadLength ← word bs 4 4
  let number ← word bs 8 8
  return ⟨version, type, payloadLength, .ofNat number⟩

def decodeBody (type : MessageType) (bs : List UInt8) : Except FrameError Body := do
  match type with
  | .home => throw (.malformedPayload .homeBody)
  | .keyEvent =>
    need (.body .keyEvent) bs
    return .key (← int32 bs 0) (← int32 bs 4)
  | .touchEvent =>
    need (.body .touchEvent) bs
    return .touch (← int32 bs 0) (← int32 bs 4) (← single bs 8) (← single bs 12) (← single bs 16)
  | .mouseButton =>
    need (.body .mouseButton) bs
    return .mouseButton (← int32 bs 0) (← int32 bs 4)
  | .mouseRelative =>
    need (.body .mouseRelative) bs
    return .mouseRelative (← single bs 0) (← single bs 4)
  | .mouseScroll =>
    need (.body .mouseScroll) bs
    return .mouseScroll (← single bs 0) (← single bs 4)

def decodePayload (type : MessageType) (bs : List UInt8) : Except FrameError Event := do
  need .displayId bs
  let display : Display := ⟨← int32 bs 0⟩
  if type = .home then return .home display
  need .inputFields bs
  let code := UInt8.ofNat (← word bs 4 1)
  let some device := Device.ofCode? code | throw (.malformedPayload (.unknownDevice code))
  let time ← int64 bs 5
  let body ← decodeBody type (← tail bs Part.inputFields.size)
  return .input ⟨display, device, time, body⟩

/-- the event at the front of some bytes, and how many of them its frame takes -/
def decode (bs : List UInt8) : Except FrameError (Event × Nat) := do
  let header ← decodeHeader bs
  let size := headerSize + header.payloadLength
  if bs.length < size then throw (.payloadLengthMismatch header.payloadLength (bs.length - headerSize))
  let event ← decodePayload header.type (← field bs headerSize header.payloadLength)
  return (event, size)

/-! ## Size of a frame -/

theorem displayId_le_of_decodePayload {type : MessageType} {bs : List UInt8} {e : Event}
    (h : decodePayload type bs = .ok e) : 4 ≤ bs.length := by
  by_cases hl : bs.length < 4
  · simp [decodePayload, need, Part.size, hl, bind, Except.bind] at h
  · omega

theorem length_of_field {bs part : List UInt8} {start count : Nat} (h : field bs start count = .ok part) :
    start + count ≤ bs.length ∧ part.length = count := by
  unfold field at h
  split at h
  · cases h
    rw [List.length_take, List.length_drop]
    omega
  · cases h

theorem decode_size {bs : List UInt8} {e : Event} {size : Nat} (h : decode bs = .ok (e, size)) :
    20 ≤ size ∧ size ≤ bs.length := by
  simp only [decode, bind, Except.bind, pure, Except.pure, throw, throwThe, MonadExceptOf.throw] at h
  split at h
  · cases h
  · split at h
    · cases h
    · split at h
      · cases h
      · rename_i hpayload
        split at h
        · cases h
        · rename_i hevent
          obtain ⟨hall, hcount⟩ := length_of_field hpayload
          have hdisplay := displayId_le_of_decodePayload hevent
          cases h
          unfold headerSize at *
          omega

end InputRelay.Wire
