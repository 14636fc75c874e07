/-
Writing what was read. The readers lose nothing that a kind of message needs: each field is written as the bytes it was
read from (`ofInt32_of_int32` and its kin), and so are bodies and payloads (`payload_of_decodePayload`). What reading does
not keep are the reserved bytes and the payload beyond what the kind needs. A frame is canonical if the first are zero and
there is none of the second; just the canonical frames are written as they were read (`frame_of_decode`).
-/
import InputRelay.Proofs.Wire.Acceptance

namespace InputRelay.Wire

/-! ## Fields -/

/-- the bytes in the middle of others are the number they spell, as it is written -/
theorem bytes_slice {bs : List UInt8} {start count : Nat} (h : start + count ≤ bs.length) :
    BigEndian.bytes count (BigEndian.number ((bs.drop start).take count)) = (bs.drop start).take count := by
  have hlength : ((bs.drop start).take count).length = count := by
    rw [List.length_take, List.length_drop]
    omega
  have hbytes := BigEndian.bytes_number ((bs.drop start).take count)
  rwa [hlength] at hbytes

theorem number_slice_lt (bs : List UInt8) (start count : Nat) :
    BigEndian.number ((bs.drop start).take count) < 256 ^ count :=
  (BigEndian.number_lt _).trans_le (Nat.pow_le_pow_right (by omega) (List.length_take_le count _))

/-- a field is read from the bytes that its number is written as -/
theorem bytes_of_read {α : Type} {f : Nat → α} {bs : List UInt8} {start count : Nat} {x : α}
    (h : (word bs start count).map f = .ok x) :
    ∃ n, f n = x ∧ n < 256 ^ count ∧ BigEndian.bytes count n = (bs.drop start).take count := by
  by_cases hl : start + count ≤ bs.length
  · rw [word_ok hl] at h
    exact ⟨_, Except.ok.inj h, number_slice_lt bs start count, bytes_slice hl⟩
  · simp [word, field, hl, Except.map] at h

theorem ofInt32_of_int32 {bs : List UInt8} {i : Nat} {n : Int32} (h : int32 bs i = .ok n) :
    ofInt32 n = (bs.drop i).take 4 := by
  obtain ⟨m, rfl, hlt, hbytes⟩ := bytes_of_read h
  rw [ofInt32, UInt32.toUInt32_toInt32, UInt32.toNat_ofNat_of_lt' hlt, hbytes]

theorem ofInt64_of_int64 {bs : List UInt8} {i : Nat} {n : Int64} (h : int64 bs i = .ok n) :
    ofInt64 n = (bs.drop i).take 8 := by
  obtain ⟨m, rfl, hlt, hbytes⟩ := bytes_of_read h
  rw [ofInt64, UInt64.toUInt64_toInt64, UInt64.toNat_ofNat_of_lt' hlt, hbytes]

theorem ofSingle_of_single {bs : List UInt8} {i : Nat} {x : Single} (h : single bs i = .ok x) :
    ofSingle x = (bs.drop i).take 4 := by
  obtain ⟨m, rfl, hlt, hbytes⟩ := bytes_of_read h
  rw [ofSingle, UInt32.toNat_ofNat_of_lt' hlt, hbytes]

/-! ## Bodies and payloads -/

/-- a reader that gives a result has one from each of its steps -/
theorem ok_of_bind {α β : Type} {x : Except FrameError α} {f : α → Except FrameError β} {b : β}
    (h : x >>= f = .ok b) : ∃ a, x = .ok a ∧ f a = .ok b := by
  cases x with
  | error err => cases h
  | ok a => exact ⟨a, rfl, h⟩

/-- two fields one behind the other -/
theorem take_fields (bs : List UInt8) (i m n : Nat) :
    (bs.drop i).take m ++ (bs.drop (i + m)).take n = (bs.drop i).take (m + n) := by
  rw [List.take_add, List.drop_drop]

/-- a body is written as the bytes it was read from -/
theorem bytes_of_decodeBody {t : MessageType} {bs : List UInt8} {body : Body} (h : decodeBody t bs = .ok body) :
    body.messageType = t ∧ body.bytes = bs.take (Part.body t).size := by
  cases t with
  | home => cases h
  | keyEvent =>
    obtain ⟨-, -, h⟩ := ok_of_bind h
    obtain ⟨action, h0, h⟩ := ok_of_bind h
    obtain ⟨keyCode, h4, h⟩ := ok_of_bind h
    cases h
    refine ⟨rfl, ?_⟩
    rw [Body.bytes, ofInt32_of_int32 h0, ofInt32_of_int32 h4]
    exact take_fields bs 0 4 4
  | touchEvent =>
    obtain ⟨-, -, h⟩ := ok_of_bind h
    obtain ⟨pointer, h0, h⟩ := ok_of_bind h
    obtain ⟨action, h4, h⟩ := ok_of_bind h
    obtain ⟨x, h8, h⟩ := ok_of_bind h
    obtain ⟨y, h12, h⟩ := ok_of_bind h
    obtain ⟨pressure, h16, h⟩ := ok_of_bind h
    cases h
    refine ⟨rfl, ?_⟩
    rw [Body.bytes, ofInt32_of_int32 h0, ofInt32_of_int32 h4, ofSingle_of_single h8, ofSingle_of_single h12,
      ofSingle_of_single h16, take_fields bs 0 4 4, take_fields bs 0 8 4, take_fields bs 0 12 4]
    exact take_fields bs 0 16 4
  | mouseButton =>
    obtain ⟨-, -, h⟩ := ok_of_bind h
    obtain ⟨action, h0, h⟩ := ok_of_bind h
    obtain ⟨button, h4, h⟩ := ok_of_bind h
    cases h
    refine ⟨rfl, ?_⟩
    rw [Body.bytes, ofInt32_of_int32 h0, ofInt32_of_int32 h4]
    exact take_fields bs 0 4 4
  | mouseRelative | mouseScroll =>
    obtain ⟨-, -, h⟩ := ok_of_bind h
    obtain ⟨x, h0, h⟩ := ok_of_bind h
    obtain ⟨y, h4, h⟩ := ok_of_bind h
    cases h
    refine ⟨rfl, ?_⟩
    rw [Body.bytes, ofSingle_of_single h0, ofSingle_of_single h4]
    exact take_fields bs 0 4 4

/-- a byte that names a device is written as it was read -/
theorem code_of_word {bs : List UInt8} {i n : Nat} {device : Device} (h : word bs i 1 = .ok n)
    (hd : Device.ofCode? (UInt8.ofNat n) = some device) : [device.code] = (bs.drop i).take 1 := by
  have hread : (word bs i 1).map id = .ok n := by rw [h]; rfl
  obtain ⟨m, rfl, -, hbytes⟩ := bytes_of_read hread
  rw [Device.code_of_ofCode? hd, ← hbytes]
  rfl

theorem drop_of_tail {bs rest : List UInt8} {start : Nat} (h : tail bs start = .ok rest) : rest = bs.drop start := by
  have hall := (length_of_field h).1
  rw [tail_ok (by omega)] at h
  cases h
  rfl

/-- a payload is written as the bytes it was read from, as far as its kind needs them -/
theorem payload_of_decodePayload {t : MessageType} {p : List UInt8} {e : Event} (h : decodePayload t p = .ok e) :
    e.messageType = t ∧ e.payload = p.take t.needs := by
  obtain ⟨-, -, h⟩ := ok_of_bind h
  obtain ⟨display, h0, h⟩ := ok_of_bind h
  by_cases ht : t = .home
  · subst ht
    cases h
    exact ⟨rfl, ofInt32_of_int32 h0⟩
  rw [if_neg ht] at h
  obtain ⟨-, -, h⟩ := ok_of_bind h
  obtain ⟨code, h4, h⟩ := ok_of_bind h
  cases hd : Device.ofCode? (UInt8.ofNat code) with
  | none =>
    simp only [hd] at h
    cases h
  | some device =>
    simp only [hd] at h
    obtain ⟨time, h5, h⟩ := ok_of_bind h
    obtain ⟨rest, h13, h⟩ := ok_of_bind h
    obtain ⟨body, hread, h⟩ := ok_of_bind h
    cases h
    obtain ⟨hkind, hbody⟩ := bytes_of_decodeBody hread
    rw [drop_of_tail h13] at hbody
    have hneeds : t.needs = 13 + (Part.body t).size := by cases t <;> first | rfl | exact absurd rfl ht
    refine ⟨hkind, ?_⟩
    calc (Event.input ⟨⟨display⟩, device, time, body⟩).payload
        = ofInt32 display ++ ([device.code] ++ ofInt64 time) ++ body.bytes := by simp [Event.payload]
      _ = (p.drop 0).take 4 ++ ((p.drop 4).take 1 ++ (p.drop 5).take 8) ++ (p.drop 13).take (Part.body t).size := by
        rw [ofInt32_of_int32 h0, code_of_word h4 hd, ofInt64_of_int64 h5, hbody]
        rfl
      _ = p.take t.needs := by rw [take_fields p 4 1 8, take_fields p 0 4 9, take_fields p 0 13, hneeds]; rfl

/-! ## Frames -/

theorem take_four {b : List UInt8} {w x y z : UInt8} (h0 : b[0]? = some w) (h1 : b[1]? = some x) (h2 : b[2]? = some y)
    (h3 : b[3]? = some z) : b.take 4 = [w, x, y, z] := by
  simp [List.take_add_one, h0, h1, h2, h3]

/-- bytes that are read as an event are a whole frame of its kind -/
theorem whole_of_decode {b : List UInt8} {e : Event} {n : Nat} (h : decode b = .ok (e, n)) :
    Whole b e.messageType ∧ decodePayload e.messageType (announced b) = .ok e ∧ n = 16 + declared b := by
  have hsound : ∀ err, ¬ Fault b err := by
    intro err hf
    rw [decode_of_fault hf] at h
    cases h
  have hlong : 16 ≤ b.length := Nat.not_lt.1 fun hl => hsound _ (.short hl)
  obtain ⟨t, ht⟩ := (headed_or_fault hlong).resolve_right fun ⟨err, hf⟩ => hsound err hf
  have hw : Whole b t := ⟨ht, Nat.not_lt.1 fun hl => hsound _ (.cut ht hl)⟩
  rw [decode_whole hw] at h
  cases hp : decodePayload t (announced b) with
  | error err =>
    rw [hp] at h
    cases h
  | ok e' =>
    rw [hp] at h
    cases h
    obtain ⟨rfl, -⟩ := payload_of_decodePayload hp
    exact ⟨hw, hp, rfl⟩

/-- the bytes of a frame: four of the header, the payload's length, the sequence number, the payload -/
theorem take_frame (b : List UInt8) :
    b.take (16 + declared b) = b.take 4 ++ ((b.drop 4).take 4 ++ ((b.drop 8).take 8 ++ announced b)) := by
  have hrest : (b.drop 4).take 4 ++ ((b.drop 8).take 8 ++ announced b) = (b.drop 4).take (12 + declared b) := by
    rw [announced, take_fields b 8 8, take_fields b 4 4, ← Nat.add_assoc]
  have hsum : 16 + declared b = 4 + (12 + declared b) := by omega
  rw [hrest, hsum, List.take_add]

/-- just the frames with zero reserved bytes and no surplus payload are written as they were read -/
theorem frame_of_decode {b : List UInt8} {e : Event} (hw : Whole b e.messageType)
    (h : decodePayload e.messageType (announced b) = .ok e) :
    e.frame (numbered b) = b.take (16 + declared b) ↔
      b[2]? = some 0 ∧ b[3]? = some 0 ∧ declared b = e.messageType.needs := by
  have hpresent := hw.present
  constructor
  · intro heq
    have hbyte : ∀ i, i < 4 → b[i]? = (e.frame (numbered b))[i]? := by
      intro i hi
      rw [heq, List.getElem?_take_of_lt (by omega)]
    have hlength := congrArg List.length heq
    rw [length_frame, length_payload, List.length_take, headerSize] at hlength
    exact ⟨hbyte 2 (by omega), hbyte 3 (by omega), by omega⟩
  · rintro ⟨h2, h3, hneeds⟩
    have hpayload : e.payload = announced b := by
      rw [(payload_of_decodePayload h).2, List.take_of_length_le]
      rw [hw.length_announced, hneeds]
    have hnumber : (numbered b).toNat = BigEndian.number ((b.drop 8).take 8) :=
      UInt64.toNat_ofNat_of_lt' (number_slice_lt b 8 8)
    rw [take_frame, take_four hw.version hw.kind h2 h3, Event.frame, hpayload, hw.length_announced, hnumber, declared,
      bytes_slice (by omega), bytes_slice (by omega)]

/-- the payload that a kind needs is no more than a frame of it announces -/
theorem needs_le_declared {b : List UInt8} {e : Event} (hw : Whole b e.messageType)
    (h : decodePayload e.messageType (announced b) = .ok e) : e.messageType.needs ≤ declared b := by
  have hlength := congrArg List.length (payload_of_decodePayload h).2
  rw [length_payload, List.length_take, hw.length_announced] at hlength
  omega

/-! ## Main result -/

/-- the payload length of a frame without surplus, by kind -/
theorem needs_eq (t : MessageType) :
    t.needs = match t with
      | .home => 4
      | .touchEvent => 33
      | _ => 21 := by
  cases t <;> rfl

/-- **Writing undoes reading on canonical frames, and only there.** Take any bytes that are read as an event. The header
names the event's kind, and the event is written under the header's number. What is written are just the bytes that were
read if both reserved bytes are zero and the payload has the length that the kind needs, and otherwise it is something
else. In any case it is no longer than what was read, and it is read as the same event, with every float bit as it was,
under the same number. -/
theorem encode_decode {b : List UInt8} {e : Event} {n : Nat} (h : decode b = .ok (e, n)) :
    ∃ header frame, decodeHeader b = .ok header ∧ e.messageType = header.type ∧
      encode e header.number = .ok frame ∧
      (frame = b.take n ↔ b[2]? = some 0 ∧ b[3]? = some 0 ∧
        header.payloadLength = match e.messageType with
          | .home => 4
          | .touchEvent => 33
          | _ => 21) ∧
      frame.length ≤ n ∧ decode frame = .ok (e, frame.length) ∧
      decodeHeader frame = .ok { header with payloadLength := frame.length - headerSize } := by
  obtain ⟨hw, hp, rfl⟩ := whole_of_decode h
  set number := numbered b with hnumber
  have hread := decode_frame e number []
  have hheader := decodeHeader_frame e number []
  rw [List.append_nil] at hread hheader
  have hlength : (e.frame number).length = headerSize + e.messageType.needs := by rw [length_frame, length_payload]
  refine ⟨_, _, hw.decodeHeader_eq, rfl, encode_eq e number, ?_, ?_, hread, ?_⟩
  · rw [frame_of_decode hw hp, needs_eq]
  · have := needs_le_declared hw hp
    rw [hlength, headerSize]
    omega
  · rw [hheader, length_payload, hlength, Nat.add_sub_cancel_left]

/-- a scroll of a quiet NaN and a negative zero, with a reserved byte set and one byte of surplus payload: it is written
without both, and read back all the same -/
theorem encode_decode_surplus :
    let b : List UInt8 :=
      [1, 0x44, 0, 9, 0, 0, 0, 22, 0, 0, 0, 0, 0, 0, 0, 7, 0, 0, 0, 5, 3, 0, 0, 0, 0, 0, 0, 0, 2, 0x7f, 0xc0, 0, 1,
        0x80, 0, 0, 0, 0xee, 0x10]
    let e : Event := .input ⟨⟨5⟩, .mouse, 2, .mouseScroll ⟨0x7fc00001⟩ ⟨0x80000000⟩⟩
    decode b = .ok (e, 38) ∧
    ∃ frame, encode e 7 = .ok frame ∧ frame ≠ b.take 38 ∧ frame.length ≤ 38 ∧ decode frame = .ok (e, frame.length) := by
  intro b e
  have hread : decode b = .ok (e, 38) := by decide +kernel
  obtain ⟨header, frame, hheader, -, hwrite, hsame, hlength, hagain, -⟩ := encode_decode hread
  have hannounced : decodeHeader b = .ok ⟨1, .mouseScroll, 22, 7⟩ := by decide +kernel
  rw [hannounced] at hheader
  cases hheader
  exact ⟨hread, frame, hwrite, fun heq => absurd (hsame.1 heq).2.1 (by decide), hlength, hagain⟩

end InputRelay.Wire
