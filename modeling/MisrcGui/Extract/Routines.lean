import Mathlib.Tactic.Ring

/-! The sample extraction loops of `extract.c` in plain C. All of them are one loop: they
differ in the width of the input words, in the channels they write, whether they pad, in
the width of their samples, and in the peak levels they keep. -/
namespace MisrcGui.Extract.Routines

/-- What tells the loops apart. `wide` words have 32 bits. -/
structure Routine where
  wide : Bool := true
  outA : Bool := false
  outB : Bool := false
  pad : Bool := false
  dword : Bool := false
  peakA : Bool := false
  peakB : Bool := false
deriving DecidableEq

/-- Where a routine writes: `clip`, `aux`, the two outputs, and `peak_level`. -/
structure Sink where
  clipA : Nat
  clipB : Nat
  aux : List UInt8
  outA : List Int
  outB : List Int
  peakA : Nat
  peakB : Nat
deriving DecidableEq

/-! Words in memory from `in`. -/

def word16 (memory : Nat → UInt8) (i : Nat) : BitVec 16 :=
  (memory (2 * i + 1)).toBitVec ++ (memory (2 * i)).toBitVec

def word32 (memory : Nat → UInt8) (i : Nat) : BitVec 32 :=
  (memory (4 * i + 3)).toBitVec ++ (memory (4 * i + 2)).toBitVec ++
    (memory (4 * i + 1)).toBitVec ++ (memory (4 * i)).toBitVec

/-- `in[i]`, promoted. -/
def word (wide : Bool) (memory : Nat → UInt8) (i : Nat) : BitVec 32 :=
  if wide then word32 memory i else (word16 memory i).setWidth 32

/-- `in[i] & MASK_1`. -/
def rawA (w : BitVec 32) : BitVec 32 := w &&& 0xFFF#32

/-- `(in[i] & MASK_2) >> 20`. -/
def rawB (w : BitVec 32) : BitVec 32 := (w &&& 0xFFF00000#32) >>> 20

/-- `(in[i] & MASK_AUX) >> 12`, with `MASK_AUXS` for narrow words. -/
def auxOf (wide : Bool) (w : BitVec 32) : UInt8 :=
  ⟨((w &&& if wide then 0xFF000#32 else 0xF000#32) >>> 12).setWidth 8⟩

/-- A sample in a cell of 16 or 32 bits. -/
def store (dword : Bool) (x : Int) : Int :=
  if dword then (BitVec.ofInt 32 x).toInt else (BitVec.ofInt 16 x).toInt

/-- `2047 - (int16_t)raw`; the loops for 32 bits without a peak level cast to `int32_t`. -/
def sample (dword peaked : Bool) (raw : BitVec 32) : Int :=
  2047 - if dword && !peaked then raw.toInt else (raw.setWidth 16).toInt

/-- One channel's cell, and its peak level. With a peak level the sample is stored first and
padded in its cell. -/
def lane (pad dword peaked : Bool) (raw : BitVec 32) (peak : Nat) : Int × Nat :=
  let x := sample dword peaked raw
  if peaked then
    let cell := store dword x
    (if pad then store dword (cell <<< (4 : Nat)) else cell,
      if peak < cell.natAbs then cell.natAbs % 2 ^ 16 else peak)
  else (store dword (if pad then x <<< (4 : Nat) else x), peak)

/-- `clip[c] += (in[i] >> bit) & 1`. -/
def addClip (clip : Nat) (w : BitVec 32) (bit : Nat) : Nat :=
  (clip + ((w >>> bit) &&& 1#32).toNat) % 2 ^ 64

def body (r : Routine) (w : BitVec 32) (s : Sink) : Sink :=
  let a := lane r.pad r.dword r.peakA (rawA w) s.peakA
  let b := lane r.pad r.dword r.peakB (rawB w) s.peakB
  { clipA := if r.outA then addClip s.clipA w 12 else s.clipA
    clipB := if r.outB then addClip s.clipB w 13 else s.clipB
    aux := s.aux ++ [auxOf r.wide w]
    outA := if r.outA then s.outA ++ [a.1] else s.outA
    outB := if r.outB then s.outB ++ [b.1] else s.outB
    peakA := if r.peakA then a.2 else s.peakA
    peakB := if r.peakB then b.2 else s.peakB }

/-- The first `len` turns. -/
def loop (r : Routine) (memory : Nat → UInt8) : Nat → Sink → Sink
  | 0, s => s
  | len + 1, s => body r (word r.wide memory len) (loop r memory len s)

/-- A call with counters and peak levels as the caller left them. -/
def extract (r : Routine) (memory : Nat → UInt8) (len clipA clipB peakA peakB : Nat) : Sink :=
  loop r memory len
    { clipA, clipB, aux := [], outA := [], outB := []
      peakA := if r.peakA then 0 else peakA
      peakB := if r.peakB then 0 else peakB }

/-- The number in word `i` of the input. -/
def value (wide : Bool) (memory : Nat → UInt8) (i : Nat) : Nat := (word wide memory i).toNat

def sampleA (n : Nat) : Int := 2047 - (n % 4096 : Nat)

def sampleB (n : Nat) : Int := 2047 - (n / 2 ^ 20 : Nat)

def scale (pad : Bool) : Int := if pad then 16 else 1

def peakOf (samples : List Int) : Nat := (samples.map Int.natAbs).foldr max 0

def reference (r : Routine) (memory : Nat → UInt8) (len clipA clipB peakA peakB : Nat) : Sink :=
  let words := (List.range len).map (value r.wide memory)
  { clipA := if r.outA then (clipA + (words.map (· / 2 ^ 12 % 2)).sum) % 2 ^ 64 else clipA
    clipB := if r.outB then (clipB + (words.map (· / 2 ^ 13 % 2)).sum) % 2 ^ 64 else clipB
    aux := words.map fun n => UInt8.ofNat (n / 2 ^ 12 % if r.wide then 256 else 16)
    outA := if r.outA then words.map fun n => scale r.pad * sampleA n else []
    outB := if r.outB then words.map fun n => scale r.pad * sampleB n else []
    peakA := if r.peakA then peakOf (words.map sampleA) else peakA
    peakB := if r.peakB then peakOf (words.map sampleB) else peakB }

theorem toNat_rawA (w : BitVec 32) : (rawA w).toNat = w.toNat % 4096 := by
  rw [rawA, BitVec.toNat_and]
  exact Nat.and_two_pow_sub_one_eq_mod w.toNat 12

theorem toNat_rawB (w : BitVec 32) : (rawB w).toNat = w.toNat / 2 ^ 20 := by
  rw [rawB, BitVec.toNat_ushiftRight, BitVec.toNat_and, Nat.shiftRight_and_distrib]
  have mask := Nat.and_two_pow_sub_one_eq_mod (w.toNat >>> 20) 12
  rw [Nat.shiftRight_eq_div_pow] at mask ⊢
  have small : w.toNat / 2 ^ 20 < 2 ^ 12 := by
    have := w.isLt
    omega
  rw [Nat.mod_eq_of_lt small] at mask
  exact mask

theorem auxOf_eq (wide : Bool) (w : BitVec 32) :
    auxOf wide w = UInt8.ofNat (w.toNat / 2 ^ 12 % if wide then 256 else 16) := by
  apply UInt8.toNat.inj
  change (((w &&& if wide then 0xFF000#32 else 0xF000#32) >>> 12).setWidth 8).toNat = _
  rw [BitVec.toNat_setWidth, BitVec.toNat_ushiftRight, BitVec.toNat_and,
    Nat.shiftRight_and_distrib, UInt8.toNat_ofNat', Nat.shiftRight_eq_div_pow w.toNat]
  cases wide with
  | true =>
    have mask := Nat.and_two_pow_sub_one_eq_mod (w.toNat / 2 ^ 12) 8
    change (w.toNat / 2 ^ 12 &&& 2 ^ 8 - 1) % 2 ^ 8 = w.toNat / 2 ^ 12 % 256 % 2 ^ 8
    rw [mask]
  | false =>
    have mask := Nat.and_two_pow_sub_one_eq_mod (w.toNat / 2 ^ 12) 4
    change (w.toNat / 2 ^ 12 &&& 2 ^ 4 - 1) % 2 ^ 8 = w.toNat / 2 ^ 12 % 16 % 2 ^ 8
    rw [mask]

theorem addClip_eq (clip : Nat) (w : BitVec 32) (bit : Nat) :
    addClip clip w bit = (clip + w.toNat / 2 ^ bit % 2) % 2 ^ 64 := by
  have mask := Nat.and_two_pow_sub_one_eq_mod (w.toNat / 2 ^ bit) 1
  rw [addClip, BitVec.toNat_and, BitVec.toNat_ushiftRight, Nat.shiftRight_eq_div_pow]
  change (clip + (w.toNat / 2 ^ bit &&& 2 ^ 1 - 1)) % 2 ^ 64 = _
  rw [mask]

theorem store_eq (dword : Bool) {x : Int} (low : -2 ^ 15 ≤ x) (high : x < 2 ^ 15) :
    store dword x = x := by
  rw [store]
  split
  · rw [BitVec.toInt_ofInt]
    exact Int.bmod_eq_of_le (by omega) (by omega)
  · rw [BitVec.toInt_ofInt]
    exact Int.bmod_eq_of_le (by omega) (by omega)

theorem sample_eq (dword peaked : Bool) {raw : BitVec 32} (small : raw.toNat < 4096) :
    sample dword peaked raw = 2047 - (raw.toNat : Int) := by
  have narrow : (raw.setWidth 16).toInt = raw.toNat := by
    rw [BitVec.toInt_eq_toNat_of_lt] <;> rw [BitVec.toNat_setWidth, Nat.mod_eq_of_lt] <;> omega
  have plain : raw.toInt = raw.toNat := BitVec.toInt_eq_toNat_of_lt (by omega)
  rw [sample]
  split
  · rw [plain]
  · rw [narrow]

theorem lane_eq (pad dword peaked : Bool) {raw : BitVec 32} (peak : Nat)
    (small : raw.toNat < 4096) :
    lane pad dword peaked raw peak = (scale pad * (2047 - (raw.toNat : Int)),
      if peaked then max peak (2047 - (raw.toNat : Int)).natAbs else peak) := by
  have shift (x : Int) : x <<< (4 : Nat) = 16 * x := by
    rw [Int.shiftLeft_eq]
    ring
  rw [lane, sample_eq dword peaked small]
  generalize bound : 2047 - (raw.toNat : Int) = x
  have plain : store dword x = x := store_eq dword (by omega) (by omega)
  have padded : store dword (16 * x) = 16 * x := store_eq dword (by omega) (by omega)
  cases peaked with
  | true =>
    simp only [if_true, plain, shift, padded]
    congr 1
    · cases pad <;> simp [scale]
    · split_ifs <;> omega
  | false =>
    simp only [Bool.false_eq_true, if_false, shift]
    congr 1
    cases pad <;> simp [scale, plain, padded]

theorem peakOf_append (samples : List Int) (x : Int) :
    peakOf (samples ++ [x]) = max (peakOf samples) x.natAbs := by
  induction samples with
  | nil => exact Nat.max_comm _ _
  | cons first samples ih =>
    change max first.natAbs (peakOf (samples ++ [x])) = max (max first.natAbs (peakOf samples)) _
    rw [ih, Nat.max_assoc]

theorem extract_eq (r : Routine) (memory : Nat → UInt8) (len clipA clipB peakA peakB : Nat)
    (sizeA : clipA < 2 ^ 64) (sizeB : clipB < 2 ^ 64) :
    extract r memory len clipA clipB peakA peakB =
      reference r memory len clipA clipB peakA peakB := by
  rw [extract]
  induction len with
  | zero =>
    simp only [loop, reference, List.range_zero, List.map_nil, List.sum_nil, Nat.add_zero,
      Nat.mod_eq_of_lt sizeA, Nat.mod_eq_of_lt sizeB, ite_self]
    rfl
  | succ len ih =>
    have smallA : (rawA (word r.wide memory len)).toNat < 4096 := by
      rw [toNat_rawA]
      exact Nat.mod_lt _ (by decide)
    have smallB : (rawB (word r.wide memory len)).toNat < 4096 := by
      rw [toNat_rawB]
      have := (word r.wide memory len).isLt
      omega
    have lastA := lane_eq r.pad r.dword r.peakA
      (reference r memory len clipA clipB peakA peakB).peakA smallA
    have lastB := lane_eq r.pad r.dword r.peakB
      (reference r memory len clipA clipB peakA peakB).peakB smallB
    rw [toNat_rawA, ← value] at lastA
    rw [toNat_rawB, ← value] at lastB
    rw [loop, ih, body, lastA, lastB, auxOf_eq, addClip_eq, addClip_eq, ← value]
    simp only [reference, List.range_succ, List.map_append, List.map_cons, List.map_nil,
      List.sum_append, List.sum_singleton, peakOf_append, sampleA, sampleB]
    congr 1
    · cases r.outA
      · rfl
      · simp only [if_true, Nat.mod_add_mod, Nat.add_assoc]
    · cases r.outB
      · rfl
      · simp only [if_true, Nat.mod_add_mod, Nat.add_assoc]
    · cases r.outA <;> rfl
    · cases r.outB <;> rfl
    · cases r.peakA <;> rfl
    · cases r.peakB <;> rfl

end MisrcGui.Extract.Routines
