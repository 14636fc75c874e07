/-
Fields inside byte strings: what the readers of a frame give on bytes whose parts are known, and what they look at.
- A field written after any bytes and before any others is read back at its place (`int32_at`, `int64_at`, `single_at`);
- a field that is all there is the number its bytes spell (`word_ok`), a single byte is itself (`word_byte`), and what
  starts among the bytes is there to its end (`tail_ok`);
- a reader looks at its own bytes and at nothing else (`field_congr` and its kin).
-/
import InputRelay.Proofs.BigEndian
import InputRelay.Wire.Frame

namespace InputRelay.Wire

/-! ## Sizes -/

@[simp] theorem length_ofInt32 (n : Int32) : (ofInt32 n).length = 4 := BigEndian.length_bytes _ _

@[simp] theorem length_ofInt64 (n : Int64) : (ofInt64 n).length = 8 := BigEndian.length_bytes _ _

@[simp] theorem length_ofSingle (x : Single) : (ofSingle x).length = 4 := BigEndian.length_bytes _ _

/-- the bytes of a body, by kind -/
theorem length_bodyBytes (b : Body) : b.bytes.length = (Part.body b.messageType).size := by
  cases b <;> simp [Body.bytes, Body.messageType, Part.size]

/-! ## Fields at a place -/

theorem field_at (a part c : List UInt8) : field (a ++ (part ++ c)) a.length part.length = .ok part := by
  unfold field
  rw [if_pos (by simp)]
  simp

theorem field_ok {bs : List UInt8} {start count : Nat} (h : start + count ≤ bs.length) :
    field bs start count = .ok ((bs.drop start).take count) := by
  unfold field
  exact if_pos h

/-- what starts among some bytes, or right behind them, is all there to its end -/
theorem tail_ok {bs : List UInt8} {start : Nat} (h : start ≤ bs.length) : tail bs start = .ok (bs.drop start) := by
  unfold tail
  rw [field_ok (by omega), ← List.length_drop, List.take_length]

theorem word_ok {bs : List UInt8} {start count : Nat} (h : start + count ≤ bs.length) :
    word bs start count = .ok (BigEndian.number ((bs.drop start).take count)) := by
  unfold word
  rw [field_ok h]
  rfl

/-- a field of one byte is that byte -/
theorem word_byte {bs : List UInt8} {i : Nat} {x : UInt8} (h : bs[i]? = some x) : word bs i 1 = .ok x.toNat := by
  obtain ⟨hi, rfl⟩ := List.getElem?_eq_some_iff.1 h
  rw [word_ok (by omega), List.drop_eq_getElem_cons hi, List.take_succ_cons, List.take_zero, BigEndian.number_cons]
  simp [BigEndian.number]

theorem word_at (a c : List UInt8) (width n : Nat) :
    word (a ++ (BigEndian.bytes width n ++ c)) a.length width = .ok (n % 256 ^ width) := by
  have h := field_at a (BigEndian.bytes width n) c
  rw [BigEndian.length_bytes] at h
  unfold word
  rw [h, ← BigEndian.number_bytes]
  rfl

theorem int32_at (a c : List UInt8) (n : Int32) : int32 (a ++ (ofInt32 n ++ c)) a.length = .ok n := by
  have hn : n.toUInt32.toNat % 256 ^ 4 = n.toUInt32.toNat := Nat.mod_eq_of_lt n.toUInt32.toNat_lt
  unfold int32 ofInt32
  rw [word_at, hn]
  simp [Except.map]

theorem int64_at (a c : List UInt8) (n : Int64) : int64 (a ++ (ofInt64 n ++ c)) a.length = .ok n := by
  have hn : n.toUInt64.toNat % 256 ^ 8 = n.toUInt64.toNat := Nat.mod_eq_of_lt n.toUInt64.toNat_lt
  unfold int64 ofInt64
  rw [word_at, hn]
  simp [Except.map]

/-- a float is read back bit by bit, whatever its bits stand for -/
theorem single_at (a c : List UInt8) (x : Single) : single (a ++ (ofSingle x ++ c)) a.length = .ok x := by
  have hx : x.bits.toNat % 256 ^ 4 = x.bits.toNat := Nat.mod_eq_of_lt x.bits.toNat_lt
  unfold single ofSingle
  rw [word_at, hx]
  simp [Except.map]

/-! ## What a reader looks at -/

theorem field_congr {b b' : List UInt8} {start count : Nat} (h : start + count ≤ b.length)
    (h' : start + count ≤ b'.length) (hb : ∀ i, start ≤ i → i < start + count → b'[i]? = b[i]?) :
    field b' start count = field b start count := by
  rw [field_ok h, field_ok h']
  congr 1
  apply List.ext_getElem?
  intro i
  by_cases hi : i < count
  · rw [List.getElem?_take_of_lt hi, List.getElem?_take_of_lt hi, List.getElem?_drop, List.getElem?_drop]
    exact hb _ (by omega) (by omega)
  · rw [List.getElem?_take_eq_none (by omega), List.getElem?_take_eq_none (by omega)]

theorem need_congr {b b' : List UInt8} (part : Part) (hl : b'.length = b.length) : need part b' = need part b := by
  unfold need
  rw [hl]

end InputRelay.Wire
