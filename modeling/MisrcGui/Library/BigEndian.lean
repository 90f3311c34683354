import Mathlib.Tactic.Ring

/-! Numbers as bytes, most significant first. -/
namespace Library.BigEndian

def encode : ℕ → ℕ → List UInt8
  | 0, _ => []
  | width + 1, value => UInt8.ofNat (value / 256 ^ width) :: encode width value

def decode : List UInt8 → ℕ
  | [] => 0
  | byte :: rest => byte.toNat * 256 ^ rest.length + decode rest

@[simp] theorem length_encode (width value : ℕ) : (encode width value).length = width := by
  induction width with
  | zero => rfl
  | succ width ih => rw [encode, List.length_cons, ih]

theorem decode_lt (bytes : List UInt8) : decode bytes < 256 ^ bytes.length := by
  induction bytes with
  | nil => exact Nat.one_pos
  | cons byte rest ih =>
    have bound : byte.toNat + 1 ≤ 256 := byte.toNat_lt
    have scaled := Nat.mul_le_mul_right (256 ^ rest.length) bound
    rw [decode, List.length_cons, Nat.pow_succ]
    rw [Nat.add_mul, Nat.one_mul] at scaled
    omega

theorem decode_encode (width value : ℕ) : decode (encode width value) = value % 256 ^ width := by
  induction width with
  | zero => simp [encode, decode, Nat.mod_one]
  | succ width ih =>
    have split : value % 256 ^ (width + 1) =
        value % 256 ^ width + 256 ^ width * (value / 256 ^ width % 256) := by
      rw [Nat.pow_succ, Nat.mod_mul]
    rw [encode, decode, ih, length_encode, UInt8.toNat_ofNat', split, Nat.mul_comm, Nat.add_comm]

theorem encode_add_mul (width high low : ℕ) :
    encode width (high * 256 ^ width + low) = encode width low := by
  induction width generalizing high with
  | zero => rfl
  | succ width ih =>
    have split : high * 256 ^ (width + 1) + low = high * 256 * 256 ^ width + low := by
      rw [Nat.pow_succ]
      ring
    have positive : 0 < 256 ^ width := Nat.pow_pos (by decide)
    rw [encode, encode, split, ih]
    congr 1
    apply UInt8.toNat_inj.mp
    rw [UInt8.toNat_ofNat', UInt8.toNat_ofNat', Nat.mul_comm, Nat.mul_add_div positive]
    omega

theorem encode_decode (bytes : List UInt8) : encode bytes.length (decode bytes) = bytes := by
  induction bytes with
  | nil => rfl
  | cons byte rest ih =>
    have positive : 0 < 256 ^ rest.length := Nat.pow_pos (by decide)
    rw [List.length_cons, encode, decode, encode_add_mul, ih, Nat.mul_comm,
      Nat.mul_add_div positive, Nat.div_eq_of_lt (decode_lt rest), Nat.add_zero,
      UInt8.ofNat_toNat]

end Library.BigEndian
