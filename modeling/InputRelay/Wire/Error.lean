/-
What can be wrong with the bytes of a frame, and how each fault is worded. A payload that is too short is reported by
the part that it ran out in: the display id, the fields all inputs share, or the body of one kind of message.
-/
import InputRelay.Text.Digit
import InputRelay.Wire.Event

namespace InputRelay.Wire

/-- a part of a payload -/
inductive Part where
  | displayId
  | inputFields
  | body (type : MessageType)
deriving DecidableEq, Repr

namespace Part

/-- how many bytes the part needs; `inputFields` is counted from the start of the payload -/
def size : Part → Nat
  | displayId => 4
  | inputFields => 13
  | body .touchEvent => 20
  | body .home => 0
  | body _ => 8

def name : Part → String
  | displayId => "display id"
  | inputFields => "input prefix"
  | body t => t.name

end Part

/-- why a payload of the announced length is no event, or an event has no payload -/
inductive Malformed where
  | tooShort (part : Part) (got : Nat)
  | unknownDevice (code : UInt8)
  | homeBody
  | tooLarge (size : Nat)
deriving DecidableEq, Repr

def Malformed.message : Malformed → String
  | tooShort part got => part.name ++ ": need " ++ part.size.repr ++ " bytes, got " ++ got.repr
  | unknownDevice code => "unknown device type: " ++ code.toNat.repr
  | homeBody => "home frame has no input body"
  | tooLarge size => "payload of " ++ size.repr ++ " bytes too large"

/-- why bytes are no frame -/
inductive FrameError where
  | insufficientData (needed available : Nat)
  | unsupportedVersion (version : UInt8)
  | unknownMessageType (code : UInt8)
  | payloadLengthMismatch (declared available : Nat)
  | malformedPayload (cause : Malformed)
deriving DecidableEq, Repr

def FrameError.message : FrameError → String
  | insufficientData needed available =>
    "insufficient data: need at least " ++ needed.repr ++ " bytes, got " ++ available.repr
  | unsupportedVersion version => "unsupported protocol version: " ++ version.toNat.repr
  | unknownMessageType code => "unknown message type: 0x" ++ Text.hexByte code
  | payloadLengthMismatch declared available =>
    "payload length mismatch: header says " ++ declared.repr ++ ", available is " ++ available.repr
  | malformedPayload cause => "malformed payload: " ++ cause.message

end InputRelay.Wire
