/-
Reading undoes writing. A frame stands in front of any other bytes; reading it gives the event that was written, bit by
bit, the bytes that the frame takes, and a header that announces them (`decode_encode`). The proof follows the format:
body, payload, header, frame. Writing never fails, so `Event.frame` names its result.
-/
import InputRelay.Proofs.Wire.Fields

namespace InputRelay.Wire

/-! ## Bodies -/

theorem need_of_le (part : Part) (bs : List UInt8) (h : part.size ≤ bs.length) : need part bs = .ok () :=
  if_neg (by omega)

/-- a body has all the bytes that its kind needs -/
theorem need_bodyBytes (b : Body) (rest : List UInt8) : need (.body b.messageType) (b.bytes ++ rest) = .ok () :=
  need_of_le _ _ (by rw [List.length_append, length_bodyBytes]; omega)

theorem int32_pair (m n : Int32) (rest : List UInt8) :
    int32 (ofInt32 m ++ (ofInt32 n ++ rest)) 0 = .ok m ∧ int32 (ofInt32 m ++ (ofInt32 n ++ rest)) 4 = .ok n := by
  constructor
  · exact int32_at [] _ m
  · simpa using int32_at (ofInt32 m) rest n

theorem single_pair (x y : Single) (rest : List UInt8) :
    single (ofSingle x ++ (ofSingle y ++ rest)) 0 = .ok x ∧ single (ofSingle x ++ (ofSingle y ++ rest)) 4 = .ok y := by
  constructor
  · exact single_at [] _ x
  · simpa using single_at (ofSingle x) rest y

theorem decodeBody_bytes (b : Body) (rest : List UInt8) : decodeBody b.messageType (b.bytes ++ rest) = .ok b := by
  have hn := need_bodyBytes b rest
  cases b with
  | key action keyCode =>
    obtain ⟨h0, h4⟩ := int32_pair action keyCode rest
    simp only [Body.messageType, Body.bytes, List.append_assoc] at hn ⊢
    simp [decodeBody, hn, h0, h4, bind, Except.bind, pure, Except.pure]
  | touch pointer action x y pressure =>
    set floats := ofSingle x ++ (ofSingle y ++ (ofSingle pressure ++ rest)) with hf
    obtain ⟨h0, h4⟩ := int32_pair pointer action floats
    have h8 : single (ofInt32 pointer ++ (ofInt32 action ++ floats)) 8 = .ok x := by
      simpa using single_at (ofInt32 pointer ++ ofInt32 action) _ x
    have h12 : single (ofInt32 pointer ++ (ofInt32 action ++ floats)) 12 = .ok y := by
      simpa using single_at (ofInt32 pointer ++ ofInt32 action ++ ofSingle x) _ y
    have h16 : single (ofInt32 pointer ++ (ofInt32 action ++ floats)) 16 = .ok pressure := by
      simpa using single_at (ofInt32 pointer ++ ofInt32 action ++ ofSingle x ++ ofSingle y) rest pressure
    simp only [Body.messageType, Body.bytes, List.append_assoc, ← hf] at hn ⊢
    simp [decodeBody, hn, h0, h4, h8, h12, h16, bind, Except.bind, pure, Except.pure]
  | mouseButton action button =>
    obtain ⟨h0, h4⟩ := int32_pair action button rest
    simp only [Body.messageType, Body.bytes, List.append_assoc] at hn ⊢
    simp [decodeBody, hn, h0, h4, bind, Except.bind, pure, Except.pure]
  | mouseRelative x y =>
    obtain ⟨h0, h4⟩ := single_pair x y rest
    simp only [Body.messageType, Body.bytes, List.append_assoc] at hn ⊢
    simp [decodeBody, hn, h0, h4, bind, Except.bind, pure, Except.pure]
  | mouseScroll x y =>
    obtain ⟨h0, h4⟩ := single_pair x y rest
    simp only [Body.messageType, Body.bytes, List.append_assoc] at hn ⊢
    simp [decodeBody, hn, h0, h4, bind, Except.bind, pure, Except.pure]

/-! ## Payloads -/

/-- the payload bytes that a kind of message needs -/
def MessageType.needs : MessageType → Nat
  | home => Part.displayId.size
  | t => Part.inputFields.size + (Part.body t).size

theorem Body.messageType_ne_home (b : Body) : b.messageType ≠ .home := by
  cases b <;> simp [Body.messageType]

theorem length_payload (e : Event) : e.payload.length = e.messageType.needs := by
  cases e with
  | home d => simp [Event.payload, Event.messageType, MessageType.needs, Part.size]
  | input m =>
    obtain ⟨display, device, time, body⟩ := m
    have hb := length_bodyBytes body
    simp only [Event.payload, Event.messageType, List.length_append, List.length_cons, length_ofInt32, length_ofInt64, hb]
    cases body <;> rfl

theorem needs_lt (t : MessageType) : 4 ≤ t.needs ∧ t.needs < 34 := by cases t <;> decide

theorem decodePayload_payload (e : Event) (rest : List UInt8) :
    decodePayload e.messageType (e.payload ++ rest) = .ok e := by
  cases e with
  | home d =>
    have hn : need .displayId (ofInt32 d.id ++ rest) = .ok () := need_of_le _ _ (by simp [Part.size])
    have h0 := int32_at [] rest d.id
    simp only [List.nil_append, List.length_nil] at h0
    simp [decodePayload, Event.payload, Event.messageType, hn, h0, bind, Except.bind, pure, Except.pure]
  | input m =>
    obtain ⟨display, device, time, body⟩ := m
    set bs := ofInt32 display.id ++ (device.code :: (ofInt64 time ++ (body.bytes ++ rest))) with hbs
    have hp : (Event.input ⟨display, device, time, body⟩).payload ++ rest = bs := by simp [Event.payload, hbs]
    have hl : 13 ≤ bs.length := by simp [hbs]; omega
    have hd : need .displayId bs = .ok () := need_of_le _ _ (by simp only [Part.size]; omega)
    have hi : need .inputFields bs = .ok () := need_of_le _ _ (by simp only [Part.size]; omega)
    have h0 : int32 bs 0 = .ok display.id := int32_at [] _ display.id
    have h4 : word bs 4 1 = .ok device.code.toNat := word_byte (by simp [hbs])
    have h5 : int64 bs 5 = .ok time := by
      simpa [hbs] using int64_at (ofInt32 display.id ++ [device.code]) (body.bytes ++ rest) time
    have h13 : tail bs Part.inputFields.size = .ok (body.bytes ++ rest) := by
      have hsplit : bs = (ofInt32 display.id ++ (device.code :: ofInt64 time)) ++ (body.bytes ++ rest) := by simp [hbs]
      have hdrop : bs.drop Part.inputFields.size = body.bytes ++ rest := by
        rw [hsplit]
        exact List.drop_left' (by simp [Part.size])
      rw [tail_ok (by simpa only [Part.size] using hl), hdrop]
    rw [hp]
    simp [decodePayload, Event.messageType, hd, hi, h0, h4, h5, h13, Body.messageType_ne_home, Device.ofCode?_code,
      decodeBody_bytes, bind, Except.bind, pure, Except.pure]

/-! ## Frames -/

/-- the frame of an event under a sequence number -/
def Event.frame (e : Event) (number : UInt64) : List UInt8 :=
  [protocolVersion, e.messageType.code, 0, 0] ++
    (BigEndian.bytes 4 e.payload.length ++ (BigEndian.bytes 8 number.toNat ++ e.payload))

/-- writing never fails -/
theorem encode_eq (e : Event) (number : UInt64) : encode e number = .ok (e.frame number) := by
  have h : e.payload.length < UInt32.size := by
    have := needs_lt e.messageType
    rw [length_payload, UInt32.size]
    omega
  simp only [encode, if_pos h, Event.frame, List.cons_append, List.nil_append, List.append_assoc]

theorem length_frame (e : Event) (number : UInt64) : (e.frame number).length = headerSize + e.payload.length := by
  simp only [Event.frame, List.length_append, List.length_cons, List.length_nil, BigEndian.length_bytes, headerSize]
  omega

theorem decodeHeader_frame (e : Event) (number : UInt64) (rest : List UInt8) :
    decodeHeader (e.frame number ++ rest) = .ok ⟨protocolVersion, e.messageType, e.payload.length, number⟩ := by
  set bs := e.frame number ++ rest with hbs
  have hl : ¬ bs.length < headerSize := by
    rw [hbs, List.length_append, length_frame]
    omega
  have hp : e.payload.length % 256 ^ 4 = e.payload.length := by
    have := needs_lt e.messageType
    rw [length_payload]
    omega
  have hs : number.toNat % 256 ^ 8 = number.toNat := Nat.mod_eq_of_lt number.toNat_lt
  have h0 : word bs 0 1 = .ok protocolVersion.toNat := word_byte rfl
  have h1 : word bs 1 1 = .ok e.messageType.code.toNat := word_byte rfl
  have h4 : word bs 4 4 = .ok e.payload.length := by
    have := word_at [protocolVersion, e.messageType.code, 0, 0] (BigEndian.bytes 8 number.toNat ++ (e.payload ++ rest)) 4
      e.payload.length
    rw [hp] at this
    simpa [hbs, Event.frame] using this
  have h8 : word bs 8 8 = .ok number.toNat := by
    have := word_at ([protocolVersion, e.messageType.code, 0, 0] ++ BigEndian.bytes 4 e.payload.length) (e.payload ++ rest)
      8 number.toNat
    rw [hs] at this
    simpa [hbs, Event.frame] using this
  simp [decodeHeader, hl, h0, h1, h4, h8, MessageType.ofCode?_code, bind, Except.bind, pure, Except.pure]

theorem drop_frame (e : Event) (number : UInt64) (rest : List UInt8) :
    (e.frame number ++ rest).drop headerSize = e.payload ++ rest := by
  have hsplit : e.frame number ++ rest = ([protocolVersion, e.messageType.code, 0, 0] ++
      BigEndian.bytes 4 e.payload.length ++ BigEndian.bytes 8 number.toNat) ++ (e.payload ++ rest) := by
    simp [Event.frame]
  rw [hsplit]
  exact List.drop_left' (by simp [headerSize])

theorem decode_frame (e : Event) (number : UInt64) (rest : List UInt8) :
    decode (e.frame number ++ rest) = .ok (e, (e.frame number).length) := by
  have hl : ¬ (e.frame number ++ rest).length < headerSize + e.payload.length := by
    rw [List.length_append, length_frame]
    omega
  have hp : field (e.frame number ++ rest) headerSize e.payload.length = .ok (e.payload ++ []) := by
    rw [field_ok (Nat.not_lt.1 hl), drop_frame, List.append_nil, List.take_left]
  simp only [decode, decodeHeader_frame, bind, Except.bind, pure, Except.pure, hl, if_false, hp, decodePayload_payload,
    length_frame]

/-- **Reading undoes writing.** Every event under every sequence number has a frame. In front of any bytes, it is read as
that event, with every float bit as it was, and takes its own bytes; its header announces the kind, the number, and all
bytes behind the header. -/
theorem decode_encode (e : Event) (number : UInt64) (rest : List UInt8) :
    ∃ frame, encode e number = .ok frame ∧ headerSize ≤ frame.length ∧
      decode (frame ++ rest) = .ok (e, frame.length) ∧
      decodeHeader (frame ++ rest) = .ok ⟨protocolVersion, e.messageType, frame.length - headerSize, number⟩ := by
  have hl := length_frame e number
  refine ⟨e.frame number, encode_eq e number, by omega, decode_frame e number rest, ?_⟩
  rw [decodeHeader_frame, hl, Nat.add_sub_cancel_left]

end InputRelay.Wire
