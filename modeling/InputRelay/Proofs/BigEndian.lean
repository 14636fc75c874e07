/-
Writing and reading numbers undo each other: what `bytes` writes is read as the number, but for what does not fit
(`number_bytes`), and every byte string is written back as it was read (`bytes_number`).
-/
import Mathlib.Tactic
import InputRelay.BigEndian

namespace InputRelay.BigEndian

/-- the leading byte as a digit -/
theorem bytes_succ (width n : Nat) : bytes (width + 1) n = UInt8.ofNat (n / 256 ^ width) :: bytes width n := by
  have h : (256 : Nat) ^ width = 2 ^ (8 * width) := Nat.pow_mul 2 8 width |>.symm
  rw [bytes, Nat.shiftRight_eq_div_pow, h]

@[simp] theorem length_bytes (width n : Nat) : (bytes width n).length = width := by
  induction width with
  | zero => rfl
  | succ w ih => simp [bytes_succ, ih]

private theorem foldl_digits (bs : List UInt8) (n : Nat) :
    bs.foldl (fun n b => 256 * n + b.toNat) n =
      256 ^ bs.length * n + bs.foldl (fun n b => 256 * n + b.toNat) 0 := by
  induction bs generalizing n with
  | nil => simp
  | cons b bs ih =>
    have h := ih (256 * n + b.toNat)
    have h' := ih b.toNat
    simp only [List.foldl_cons, Nat.mul_zero, Nat.zero_add]
    rw [h, h', List.length_cons, Nat.pow_succ, Nat.mul_add, Nat.mul_assoc, Nat.add_assoc]

theorem number_cons (b : UInt8) (bs : List UInt8) : number (b :: bs) = 256 ^ bs.length * b.toNat + number bs := by
  simp only [number, List.foldl_cons, Nat.mul_zero, Nat.zero_add]
  exact foldl_digits bs b.toNat

theorem number_lt (bs : List UInt8) : number bs < 256 ^ bs.length := by
  induction bs with
  | nil => simp [number]
  | cons b bs ih =>
    have hb := b.toNat_lt
    rw [number_cons, List.length_cons, Nat.pow_succ]
    calc 256 ^ bs.length * b.toNat + number bs
        < 256 ^ bs.length * b.toNat + 256 ^ bs.length := by omega
      _ = 256 ^ bs.length * (b.toNat + 1) := by rw [Nat.mul_succ]
      _ ≤ 256 ^ bs.length * 256 := Nat.mul_le_mul_left _ (by omega)

theorem number_bytes (width n : Nat) : number (bytes width n) = n % 256 ^ width := by
  induction width with
  | zero => simp [bytes, number, Nat.mod_one]
  | succ w ih =>
    have h : (UInt8.ofNat (n / 256 ^ w)).toNat = n / 256 ^ w % 256 := by simp
    rw [bytes_succ, number_cons, ih, h, length_bytes, Nat.pow_succ, Nat.mod_mul, Nat.add_comm]

theorem bytes_number (bs : List UInt8) : bytes bs.length (number bs) = bs := by
  have step : ∀ (w : Nat) (n m : Nat), bytes w (256 ^ w * n + m) = bytes w m := by
    intro w
    induction w with
    | zero => intro n m; rfl
    | succ w ih =>
      intro n m
      have e : 256 ^ (w + 1) * n + m = 256 ^ w * (256 * n) + m := by rw [Nat.pow_succ, Nat.mul_assoc]
      have hd : UInt8.ofNat ((256 ^ (w + 1) * n + m) / 256 ^ w) = UInt8.ofNat (m / 256 ^ w) := by
        rw [e, Nat.mul_add_div (Nat.pow_pos (by omega))]
        apply UInt8.toNat_inj.mp
        simp only [UInt8.toNat_ofNat']
        omega
      rw [bytes_succ, bytes_succ, hd, e, ih]
  induction bs with
  | nil => rfl
  | cons b bs ih =>
    have hlt := number_lt bs
    have hd : UInt8.ofNat ((256 ^ bs.length * b.toNat + number bs) / 256 ^ bs.length) = b := by
      rw [Nat.mul_add_div (Nat.pow_pos (by omega)), Nat.div_eq_of_lt hlt, Nat.add_zero]
      exact UInt8.ofNat_toNat
    rw [number_cons, List.length_cons, bytes_succ, hd, step, ih]

end InputRelay.BigEndian
