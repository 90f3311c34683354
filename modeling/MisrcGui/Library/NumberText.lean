import Mathlib.Data.Int.Log
import Mathlib.Data.List.TakeWhile
import Mathlib.Data.Rat.Floor

/-! Numbers as C prints and reads them: `%u`, `%.7g` and `strtod`, over bytes. A
binary floating point number is a sign with a rational magnitude; `roundBinary`
rounds to the nearest one of a precision, ties to even. -/
namespace Library.NumberText

def isDigit (c : UInt8) : Bool := 48 ≤ c && c ≤ 57

/-- `%u`. -/
def decimal (n : Nat) : List UInt8 := (Nat.toDigits 10 n).map fun c => UInt8.ofNat c.toNat

def digitsValue (digits : List UInt8) : Nat :=
  digits.foldl (fun value c => 10 * value + (c.toNat - 48)) 0

def roundEven (q : ℚ) : Int :=
  let below := ⌊q⌋
  if q - below < 1 / 2 then below
  else if 1 / 2 < q - below then below + 1
  else if below % 2 = 0 then below
  else below + 1

/-- The exponent of the last bit of a number with `precision` bits. -/
def lastBit (precision : Nat) (least : Int) (q : ℚ) : Int :=
  max (Int.log 2 q - (precision - 1 : Nat)) least

def roundBinary (precision : Nat) (least : Int) (q : ℚ) : ℚ :=
  let unit : ℚ := 2 ^ lastBit precision least q
  roundEven (q / unit) * unit

structure Signed where
  negative : Bool
  magnitude : ℚ
deriving DecidableEq

def Signed.value (x : Signed) : ℚ := if x.negative then -x.magnitude else x.magnitude

def toDouble (q : ℚ) : ℚ := roundBinary 53 (-1074) q

/-- `(float)` of a finite `double`. -/
def toSingle (x : Signed) : Signed := ⟨x.negative, roundBinary 24 (-149) x.magnitude⟩

/-- The seven digits of `%.7g` as an integer, and the decimal exponent of the first. -/
def sevenDigits (magnitude : ℚ) : Nat × Int :=
  let exponent := Int.log 10 magnitude
  let digits := (roundEven (magnitude * 10 ^ (6 - exponent))).toNat
  if digits = 10 ^ 7 then (10 ^ 6, exponent + 1) else (digits, exponent)

def zero : UInt8 := 48
def point : UInt8 := 46
def minus : UInt8 := 45
def plus : UInt8 := 43
def letterE : UInt8 := 101

def stripZeros (digits : List UInt8) : List UInt8 :=
  (digits.reverse.dropWhile (· == zero)).reverse

def withPoint (whole fraction : List UInt8) : List UInt8 :=
  if fraction = [] then whole else whole ++ point :: fraction

def printExponent (exponent : Int) : List UInt8 :=
  let digits := decimal exponent.natAbs
  (if exponent < 0 then minus else plus) ::
    (List.replicate (2 - digits.length) zero ++ digits)

def printMagnitude (magnitude : ℚ) : List UInt8 :=
  if magnitude = 0 then [zero]
  else
    let (digits, exponent) := sevenDigits magnitude
    let digits := stripZeros (decimal digits)
    if exponent < -4 ∨ 7 ≤ exponent then
      withPoint (digits.take 1) (digits.drop 1) ++ letterE :: printExponent exponent
    else if exponent < 0 then
      withPoint [zero] (List.replicate (-exponent - 1).toNat zero ++ digits)
    else
      let whole := (exponent + 1).toNat
      withPoint (digits.take whole ++ List.replicate (whole - digits.length) zero)
        (digits.drop whole)

/-- `%.7g` of a finite value. -/
def print7g (x : Signed) : List UInt8 :=
  (if x.negative then [minus] else []) ++ printMagnitude x.magnitude

def isSpace (c : UInt8) : Bool := c == 32 || (9 ≤ c && c ≤ 13)

def readSign : List UInt8 → Bool × List UInt8
  | [] => (false, [])
  | c :: rest =>
    if c = minus then (true, rest) else if c = plus then (false, rest) else (false, c :: rest)

def readExponent : List UInt8 → Option Int
  | [] => some 0
  | c :: rest =>
    if c = 101 ∨ c = 69 then
      let (negative, digits) := readSign rest
      if digits ≠ [] ∧ digits.all isDigit then
        let exponent : Int := digitsValue digits
        some (if negative then -exponent else exponent)
      else none
    else none

def readFraction (text : List UInt8) : List UInt8 × List UInt8 :=
  match text with
  | c :: rest => if c = point then rest.span isDigit else ([], c :: rest)
  | [] => ([], [])

/-- `strtod` on a text that it must read to its end without a range error: decimal
numbers only, since the callers refuse what is not finite. -/
def strtod (text : List UInt8) : Option Signed :=
  let (negative, text) := readSign (text.dropWhile isSpace)
  let (whole, text) := text.span isDigit
  let (fraction, text) := readFraction text
  if whole ++ fraction = [] then none
  else
    match readExponent text with
    | none => none
    | some exponent =>
      let exact : ℚ := digitsValue (whole ++ fraction) * 10 ^ (exponent - fraction.length)
      let magnitude := toDouble exact
      if magnitude ≥ 2 ^ 1024 ∨ exact ≠ 0 ∧ magnitude < 2 ^ (-1022 : Int) then none
      else some ⟨negative, magnitude⟩

theorem decimal_small {n : Nat} (small : n < 10) : decimal n = [UInt8.ofNat (48 + n)] := by
  rw [decimal, Nat.toDigits_of_lt_base small]
  decide +revert

theorem decimal_large {n : Nat} (large : 10 ≤ n) :
    decimal n = decimal (n / 10) ++ [UInt8.ofNat (48 + n % 10)] := by
  have last := decimal_small (n := n % 10) (Nat.mod_lt _ (by decide))
  rw [decimal, Nat.toDigits_of_base_le (by decide) large, List.map_append, ← last]
  rw [decimal, decimal, Nat.toDigits_of_lt_base (Nat.mod_lt _ (by decide))]

theorem decimal_induction {motive : Nat → Prop} (small : ∀ n < 10, motive n)
    (large : ∀ n, 10 ≤ n → motive (n / 10) → motive n) (n : Nat) : motive n := by
  induction n using Nat.strongRecOn with
  | ind n ih =>
    by_cases one : n < 10
    · exact small n one
    · exact large n (by omega) (ih (n / 10) (by omega))

theorem toNat_digit {d : Nat} (h : d < 10) : (UInt8.ofNat (48 + d)).toNat = 48 + d := by
  rw [UInt8.toNat_ofNat']
  omega

theorem isDigit_ofNat : ∀ d < 10, isDigit (UInt8.ofNat (48 + d)) = true := by
  decide

variable {c : UInt8} (n : Nat)

theorem decimal_isDigit : ∀ c ∈ decimal n, isDigit c := by
  induction n using decimal_induction with
  | small n one =>
    rw [decimal_small one]
    intro c listed
    rw [List.mem_singleton.mp listed]
    exact isDigit_ofNat n one
  | large n more ih =>
    rw [decimal_large more]
    intro c listed
    rcases List.mem_append.mp listed with early | last
    · exact ih c early
    · rw [List.mem_singleton.mp last]
      exact isDigit_ofNat _ (Nat.mod_lt _ (by decide))

theorem decimal_ne_nil : decimal n ≠ [] := by
  rw [decimal, Ne, List.map_eq_nil_iff]
  exact Nat.toDigits_ne_nil

theorem digitsValue_decimal : digitsValue (decimal n) = n := by
  induction n using decimal_induction with
  | small n one =>
    rw [decimal_small one, digitsValue, List.foldl_cons, List.foldl_nil, toNat_digit one]
    omega
  | large n more ih =>
    have digit := toNat_digit (Nat.mod_lt n (show 0 < 10 by decide))
    rw [decimal_large more, digitsValue, List.foldl_append, ← digitsValue, ih, List.foldl_cons,
      List.foldl_nil, digit]
    omega

theorem length_decimal {k : Nat} (positive : 0 < k) (bound : n < 10 ^ k) :
    (decimal n).length ≤ k := by
  rw [decimal, List.length_map]
  exact (Nat.length_toDigits_le_iff (by decide) positive).mpr bound

theorem roundEven_intCast (z : Int) : roundEven z = z := by
  simp [roundEven]

/-- An integer of at most `precision` bits is kept. -/
theorem roundBinary_natCast {precision : Nat} {least : Int} (low : least ≤ 0) {n : Nat}
    (fits : n < 2 ^ precision) : roundBinary precision least n = n := by
  have unit : lastBit precision least n ≤ 0 := by
    have log : Nat.log 2 n ≤ precision - 1 := by
      by_cases none : n = 0
      · simp [none]
      · have := Nat.log_lt_of_lt_pow none fits
        omega
    rw [lastBit, Int.log_natCast]
    omega
  obtain ⟨k, shift⟩ : ∃ k : Nat, lastBit precision least n = -(k : Int) :=
    ⟨(lastBit precision least n).natAbs, by omega⟩
  have whole : (n : ℚ) / 2 ^ lastBit precision least (n : ℚ) = ((n * 2 ^ k : Int) : ℚ) := by
    rw [shift, zpow_neg, zpow_natCast, div_inv_eq_mul]
    push_cast
    rfl
  rw [roundBinary, whole, roundEven_intCast, ← whole]
  exact div_mul_cancel₀ _ (zpow_ne_zero _ (by norm_num))

theorem isDigit_bounds (digit : isDigit c) : 48 ≤ c.toNat ∧ c.toNat ≤ 57 := by
  rw [isDigit, Bool.and_eq_true, decide_eq_true_eq, decide_eq_true_eq, UInt8.le_iff_toNat_le,
    UInt8.le_iff_toNat_le] at digit
  exact digit

theorem isSpace_digit (digit : isDigit c) : isSpace c = false := by
  have bounds := isDigit_bounds digit
  rw [isSpace, Bool.or_eq_false_iff, Bool.and_eq_false_iff]
  refine ⟨beq_eq_false_iff_ne.mpr ?_, .inr (decide_eq_false ?_)⟩
  · rintro rfl
    exact absurd bounds.1 (by decide)
  · rw [UInt8.le_iff_toNat_le, show (13 : UInt8).toNat = 13 from rfl]
    omega

theorem digit_ne (digit : isDigit c) {other : UInt8} (outside : isDigit other = false) :
    c ≠ other := by
  rintro rfl
  rw [digit] at outside
  contradiction

theorem span_digits {digits : List UInt8} (all : ∀ c ∈ digits, isDigit c) :
    digits.span isDigit = (digits, []) := by
  rw [List.span_eq_takeWhile_dropWhile, List.takeWhile_eq_self_iff.mpr all,
    List.dropWhile_eq_nil_iff.mpr all]

theorem readSign_digits {digits : List UInt8} (all : ∀ c ∈ digits, isDigit c) :
    readSign (digits.dropWhile isSpace) = (false, digits) := by
  cases digits with
  | nil => rfl
  | cons c rest =>
    have digit := all c List.mem_cons_self
    rw [List.dropWhile_cons_of_neg (by simp [isSpace_digit digit]), readSign,
      if_neg (digit_ne digit rfl), if_neg (digit_ne digit rfl)]

/-- The nearest double to what `%u` prints. -/
theorem strtod_whole :
    strtod (decimal n) =
      if toDouble n ≥ 2 ^ 1024 ∨ (n : ℚ) ≠ 0 ∧ toDouble n < 2 ^ (-1022 : Int) then none
      else some ⟨false, toDouble n⟩ := by
  have all := decimal_isDigit n
  have exact : (digitsValue (decimal n ++ []) : ℚ) *
      10 ^ ((0 : Int) - (([] : List UInt8).length : Int)) = n := by
    rw [List.append_nil, digitsValue_decimal]
    simp
  rw [strtod, readSign_digits all]
  simp only [span_digits all, readFraction, readExponent]
  rw [if_neg (by simpa using decimal_ne_nil n), exact]

/-- What `%u` prints is read back as the same number. -/
theorem strtod_decimal {n : Nat} (fits : n < 2 ^ 53) : strtod (decimal n) = some ⟨false, n⟩ := by
  have kept : toDouble (n : ℚ) = n := roundBinary_natCast (by decide) fits
  have small : (n : ℚ) < 2 ^ 1024 := by
    have larger : (2 : ℚ) ^ 53 < 2 ^ 1024 := pow_lt_pow_right₀ (by norm_num) (by norm_num)
    exact lt_trans (by exact_mod_cast fits) larger
  have normal : ¬((n : ℚ) ≠ 0 ∧ (n : ℚ) < 2 ^ (-1022 : Int)) := by
    rintro ⟨some, tiny⟩
    have one : (1 : ℚ) ≤ n := by
      have : 1 ≤ n := Nat.one_le_iff_ne_zero.mpr (by exact_mod_cast some)
      exact_mod_cast this
    have less : (2 : ℚ) ^ (-1022 : Int) ≤ 1 := zpow_le_one_of_nonpos₀ (by norm_num) (by norm_num)
    exact absurd (tiny.trans_le less) (not_lt.mpr one)
  rw [strtod_whole, kept, if_neg]
  rintro (huge | tiny)
  · exact absurd huge (not_le.mpr small)
  · exact normal tiny

theorem roundEven_le (q : ℚ) : (roundEven q : ℚ) ≤ q + 1 := by
  have below : (⌊q⌋ : ℚ) ≤ q := Int.floor_le q
  rw [roundEven]
  split
  · linarith
  · split
    · push_cast
      linarith
    · split
      · linarith
      · push_cast
        linarith

theorem roundEven_error (q : ℚ) : |(roundEven q : ℚ) - q| ≤ 1 / 2 := by
  have below : (⌊q⌋ : ℚ) ≤ q := Int.floor_le q
  have above : q < ⌊q⌋ + 1 := Int.lt_floor_add_one q
  rw [roundEven, abs_le]
  split
  · constructor <;> linarith
  · split
    · push_cast
      constructor <;> linarith
    · split
      · constructor <;> linarith
      · push_cast
        constructor <;> linarith

theorem roundEven_near {q : ℚ} {z : Int} (near : |q - z| < 1 / 2) : roundEven q = z := by
  have error := abs_le.mp (roundEven_error q)
  have distance := abs_lt.mp near
  have below : (roundEven q : ℚ) < z + 1 := by linarith
  have above : (z : ℚ) < roundEven q + 1 := by linarith
  have less : roundEven q < z + 1 := by exact_mod_cast below
  have more : z < roundEven q + 1 := by exact_mod_cast above
  omega

/-- The nearest double of a normal number is off by at most a part in `2 ^ 53`. -/
theorem toDouble_error {q : ℚ} (normal : (2 : ℚ) ^ (-1022 : Int) ≤ q) :
    |toDouble q - q| ≤ q * 2 ^ (-53 : Int) := by
  have positive : 0 < q := lt_of_lt_of_le (zpow_pos (by norm_num) _) normal
  have low : -1022 ≤ Int.log 2 q := by
    have bound := (Int.zpow_le_iff_le_log (by norm_num : 1 < 2) positive).mp
      (by exact_mod_cast normal : ((2 : ℕ) : ℚ) ^ (-1022 : Int) ≤ q)
    exact bound
  have last : lastBit 53 (-1074) q = Int.log 2 q - 52 := by
    rw [lastBit]
    omega
  rw [toDouble, roundBinary, last]
  have unit : (0 : ℚ) < 2 ^ (Int.log 2 q - 52) := zpow_pos (by norm_num) _
  have near := roundEven_error (q / 2 ^ (Int.log 2 q - 52))
  have scaled : (roundEven (q / 2 ^ (Int.log 2 q - 52)) : ℚ) * 2 ^ (Int.log 2 q - 52) - q =
      ((roundEven (q / 2 ^ (Int.log 2 q - 52)) : ℚ) - q / 2 ^ (Int.log 2 q - 52)) *
        2 ^ (Int.log 2 q - 52) := by
    rw [sub_mul, div_mul_cancel₀ _ unit.ne']
  have leading : (2 : ℚ) ^ Int.log 2 q ≤ q := by
    have bound := Int.zpow_log_le_self (by norm_num : 1 < 2) positive
    exact_mod_cast bound
  have half : 1 / 2 * (2 : ℚ) ^ (Int.log 2 q - 52) = 2 ^ Int.log 2 q * 2 ^ (-53 : Int) := by
    rw [← zpow_add₀ (by norm_num), sub_eq_add_neg, zpow_add₀ (by norm_num), zpow_add₀ (by norm_num)]
    norm_num
    ring
  calc |(roundEven (q / 2 ^ (Int.log 2 q - 52)) : ℚ) * 2 ^ (Int.log 2 q - 52) - q|
      = |(roundEven (q / 2 ^ (Int.log 2 q - 52)) : ℚ) - q / 2 ^ (Int.log 2 q - 52)| *
          2 ^ (Int.log 2 q - 52) := by rw [scaled, abs_mul, abs_of_pos unit]
    _ ≤ 1 / 2 * 2 ^ (Int.log 2 q - 52) := mul_le_mul_of_nonneg_right near unit.le
    _ = 2 ^ Int.log 2 q * 2 ^ (-53 : Int) := half
    _ ≤ q * 2 ^ (-53 : Int) := mul_le_mul_of_nonneg_right leading (zpow_nonneg (by norm_num) _)

theorem toDouble_bounds {q : ℚ} (normal : (2 : ℚ) ^ (-1022 : Int) ≤ q) :
    q / 2 ≤ toDouble q ∧ toDouble q ≤ 2 * q := by
  have positive : 0 < q := lt_of_lt_of_le (zpow_pos (by norm_num) _) normal
  obtain ⟨below, above⟩ := abs_le.mp (toDouble_error normal)
  have small : (2 : ℚ) ^ (-53 : Int) ≤ 1 / 2 := by norm_num
  have part := mul_le_mul_of_nonneg_left small positive.le
  generalize (2 : ℚ) ^ (-53 : Int) = unit at *
  constructor <;> linarith

theorem strtod_point {whole fraction : List UInt8} {q : ℚ} (digits : ∀ c ∈ whole, isDigit c)
    (rest : ∀ c ∈ fraction, isDigit c) (some : whole ≠ [])
    (exact : (digitsValue (whole ++ fraction) : ℚ) * 10 ^ (0 - (fraction.length : Int)) = q) :
    strtod (whole ++ point :: fraction) =
      if toDouble q ≥ 2 ^ 1024 ∨ q ≠ 0 ∧ toDouble q < 2 ^ (-1022 : Int) then none
      else Option.some ⟨false, toDouble q⟩ := by
  have sign : readSign ((whole ++ point :: fraction).dropWhile isSpace) =
      (false, whole ++ point :: fraction) := by
    cases whole with
    | nil => exact absurd rfl some
    | cons c whole =>
      have digit := digits c List.mem_cons_self
      rw [List.cons_append, List.dropWhile_cons_of_neg (by simp [isSpace_digit digit]), readSign,
        if_neg (digit_ne digit rfl), if_neg (digit_ne digit rfl)]
  have split : (whole ++ point :: fraction).span isDigit = (whole, point :: fraction) := by
    rw [List.span_eq_takeWhile_dropWhile, List.takeWhile_append_of_pos digits,
      List.dropWhile_append_of_pos digits, List.takeWhile_cons_of_neg (by decide),
      List.dropWhile_cons_of_neg (by decide), List.append_nil]
  rw [strtod, sign]
  dsimp only
  rw [split]
  simp only [readFraction, if_true, span_digits rest, readExponent]
  rw [if_neg (by simp [some]), exact]

theorem toDouble_inRange {q : ℚ} (low : 1 / 10 ≤ q) (high : q ≤ 10 ^ 50) :
    ¬(toDouble q ≥ 2 ^ 1024 ∨ q ≠ 0 ∧ toDouble q < 2 ^ (-1022 : Int)) := by
  have tiny : (2 : ℚ) ^ (-1022 : Int) ≤ 2 ^ (-5 : Int) :=
    zpow_le_zpow_right₀ (by norm_num) (by norm_num)
  have small : (2 : ℚ) ^ (-5 : Int) = 1 / 32 := by norm_num
  have large : (2 : ℚ) * 10 ^ 50 < 2 ^ 200 := by norm_num
  have larger : (2 : ℚ) ^ 200 ≤ 2 ^ 1024 := pow_le_pow_right₀ (by norm_num) (by norm_num)
  rw [small] at tiny
  obtain ⟨below, above⟩ := toDouble_bounds (q := q) (by linarith)
  generalize (2 : ℚ) ^ 1024 = top at *
  generalize (2 : ℚ) ^ (-1022 : Int) = bottom at *
  rintro (overflow | ⟨-, under⟩)
  · linarith
  · linarith

theorem length_stripZeros (digits : List UInt8) : (stripZeros digits).length ≤ digits.length := by
  rw [stripZeros, List.length_reverse]
  exact (List.length_dropWhile_le _ _).trans_eq List.length_reverse

theorem length_withPoint (whole fraction : List UInt8) :
    (withPoint whole fraction).length ≤ whole.length + fraction.length + 1 := by
  rw [withPoint]
  split
  · omega
  · rw [List.length_append, List.length_cons]
    omega

def isNumeral (c : UInt8) : Bool :=
  isDigit c || c == point || c == minus || c == plus || c == letterE

theorem decimal_isNumeral : ∀ c ∈ decimal n, isNumeral c := by
  intro c listed
  rw [isNumeral, decimal_isDigit n c listed]
  rfl

theorem stripZeros_subset (digits : List UInt8) : stripZeros digits ⊆ digits := by
  intro c listed
  rw [stripZeros, List.mem_reverse] at listed
  exact List.mem_reverse.mp ((List.dropWhile_sublist _).subset listed)

theorem replicate_isNumeral : ∀ c ∈ List.replicate n zero, isNumeral c := by
  intro c listed
  rw [List.eq_of_mem_replicate listed]
  rfl

theorem singleton_isNumeral (numeral : isNumeral c) : ∀ d ∈ [c], isNumeral d := by
  intro d listed
  rw [List.mem_singleton.mp listed]
  exact numeral

theorem append_isNumeral {first rest : List UInt8} (left : ∀ c ∈ first, isNumeral c)
    (right : ∀ c ∈ rest, isNumeral c) : ∀ c ∈ first ++ rest, isNumeral c := by
  intro c listed
  exact (List.mem_append.mp listed).elim (left c) (right c)

theorem withPoint_isNumeral {whole fraction : List UInt8} (left : ∀ c ∈ whole, isNumeral c)
    (right : ∀ c ∈ fraction, isNumeral c) : ∀ c ∈ withPoint whole fraction, isNumeral c := by
  rw [withPoint]
  split
  · exact left
  · refine append_isNumeral left fun c listed => ?_
    rcases List.mem_cons.mp listed with sign | inside
    · rw [sign]
      rfl
    · exact right c inside

theorem printExponent_isNumeral (exponent : Int) : ∀ c ∈ printExponent exponent, isNumeral c := by
  rw [printExponent]
  intro c listed
  rcases List.mem_cons.mp listed with sign | digits
  · rw [sign]
    split <;> rfl
  · exact append_isNumeral (replicate_isNumeral _) (decimal_isNumeral _) c digits

theorem printMagnitude_isNumeral (magnitude : ℚ) :
    ∀ c ∈ printMagnitude magnitude, isNumeral c := by
  have digits (n : Nat) : ∀ c ∈ stripZeros (decimal n), isNumeral c := fun c listed =>
    decimal_isNumeral n c (stripZeros_subset _ listed)
  have early (n k : Nat) : ∀ c ∈ (stripZeros (decimal n)).take k, isNumeral c := fun c listed =>
    digits n c (List.mem_of_mem_take listed)
  have late (n k : Nat) : ∀ c ∈ (stripZeros (decimal n)).drop k, isNumeral c := fun c listed =>
    digits n c (List.mem_of_mem_drop listed)
  have letter : ∀ c ∈ [letterE], isNumeral c := singleton_isNumeral rfl
  rw [printMagnitude]
  split
  · exact singleton_isNumeral rfl
  · dsimp only
    split
    · rw [List.append_cons]
      exact append_isNumeral
        (append_isNumeral (withPoint_isNumeral (early _ _) (late _ _)) letter)
        (printExponent_isNumeral _)
    · split
      · exact withPoint_isNumeral (singleton_isNumeral rfl)
          (append_isNumeral (replicate_isNumeral _) (digits _))
      · exact withPoint_isNumeral (append_isNumeral (early _ _) (replicate_isNumeral _))
          (late _ _)

theorem print7g_isNumeral (x : Signed) : ∀ c ∈ print7g x, isNumeral c := by
  rw [print7g]
  refine append_isNumeral ?_ (printMagnitude_isNumeral _)
  split
  · exact singleton_isNumeral rfl
  · exact nofun

theorem isNumeral_bounds (numeral : isNumeral c) : 43 ≤ c.toNat ∧ c.toNat ≤ 101 := by
  rw [isNumeral, Bool.or_eq_true, Bool.or_eq_true, Bool.or_eq_true, Bool.or_eq_true] at numeral
  rcases numeral with (((digit | same) | same) | same) | same
  · have := isDigit_bounds digit
    omega
  all_goals
    rw [eq_of_beq same]
    decide

theorem sevenDigits_bounds {q : ℚ} {k : Nat} (low : (10 : ℚ) ^ (-(k : Int)) ≤ q)
    (high : q < 10 ^ (k : Int)) :
    (sevenDigits q).1 < 10 ^ 8 ∧ (sevenDigits q).2.natAbs ≤ k + 1 := by
  have positive : 0 < q := lt_of_lt_of_le (zpow_pos (by norm_num) _) low
  have above : -(k : Int) ≤ Int.log 10 q :=
    (Int.zpow_le_iff_le_log (by norm_num) positive).mp (by exact_mod_cast low)
  have below : Int.log 10 q < k :=
    (Int.lt_zpow_iff_log_lt (by norm_num) positive).mp (by exact_mod_cast high)
  have scaled : q * 10 ^ (6 - Int.log 10 q) < 10 ^ 7 := by
    have next : q < (10 : ℚ) ^ (Int.log 10 q + 1) := by
      exact_mod_cast Int.lt_zpow_succ_log_self (by norm_num) q
    calc q * 10 ^ (6 - Int.log 10 q)
        < 10 ^ (Int.log 10 q + 1) * 10 ^ (6 - Int.log 10 q) :=
          mul_lt_mul_of_pos_right next (zpow_pos (by norm_num) _)
      _ = 10 ^ (7 : Int) := by
          rw [← zpow_add₀ (by norm_num)]
          congr 1
          omega
      _ = 10 ^ 7 := by norm_num
  have rounded : roundEven (q * 10 ^ (6 - Int.log 10 q)) < 10 ^ 7 + 1 := by
    have := roundEven_le (q * 10 ^ (6 - Int.log 10 q))
    exact_mod_cast this.trans_lt (add_lt_add_left scaled 1)
  rw [sevenDigits]
  split
  · exact ⟨by norm_num, by dsimp only; omega⟩
  · exact ⟨by omega, by dsimp only; omega⟩

theorem length_printExponent {exponent : Int} (bound : exponent.natAbs < 10 ^ 3) :
    (printExponent exponent).length ≤ 6 := by
  have digits := length_decimal exponent.natAbs (k := 3) (by decide) bound
  rw [printExponent, List.length_cons, List.length_append, List.length_replicate]
  omega

/-- `%.7g` needs little room. -/
theorem length_print7g {x : Signed} {k : Nat} (small : k + 1 < 10 ^ 3)
    (inside : x.magnitude = 0 ∨
      (10 : ℚ) ^ (-(k : Int)) ≤ x.magnitude ∧ x.magnitude < 10 ^ (k : Int)) :
    (print7g x).length ≤ 30 := by
  have sign : (if x.negative then [minus] else []).length ≤ 1 := by
    split <;> simp
  have magnitude : (printMagnitude x.magnitude).length ≤ 29 := by
    rw [printMagnitude]
    by_cases none : x.magnitude = 0
    · rw [if_pos none]
      decide
    · rw [if_neg none]
      obtain ⟨low, high⟩ := inside.resolve_left none
      obtain ⟨few, near⟩ := sevenDigits_bounds low high
      have digits := (length_stripZeros (decimal (sevenDigits x.magnitude).1)).trans
        (length_decimal _ (by decide) few)
      dsimp only
      split
      · have exponent := length_printExponent
          (show (sevenDigits x.magnitude).2.natAbs < 10 ^ 3 by omega)
        have mantissa := length_withPoint
          ((stripZeros (decimal (sevenDigits x.magnitude).1)).take 1)
          ((stripZeros (decimal (sevenDigits x.magnitude).1)).drop 1)
        rw [List.length_append, List.length_cons]
        rw [List.length_take, List.length_drop] at mantissa
        omega
      · split
        · have fraction := length_withPoint [zero]
            (List.replicate (-(sevenDigits x.magnitude).2 - 1).toNat zero ++
              stripZeros (decimal (sevenDigits x.magnitude).1))
          rw [List.length_append, List.length_replicate, List.length_singleton] at fraction
          omega
        · have fraction := length_withPoint
            ((stripZeros (decimal (sevenDigits x.magnitude).1)).take
                ((sevenDigits x.magnitude).2 + 1).toNat ++
              List.replicate (((sevenDigits x.magnitude).2 + 1).toNat -
                (stripZeros (decimal (sevenDigits x.magnitude).1)).length) zero)
            ((stripZeros (decimal (sevenDigits x.magnitude).1)).drop
              ((sevenDigits x.magnitude).2 + 1).toNat)
          rw [List.length_append, List.length_replicate, List.length_take,
            List.length_drop] at fraction
          omega
  rw [print7g, List.length_append]
  omega

/-- `%d`. -/
def printInt (z : Int) : List UInt8 := (if z < 0 then [minus] else []) ++ decimal z.natAbs

def atoi (text : List UInt8) : Int :=
  let (negative, text) := readSign (text.dropWhile isSpace)
  let value : Int := digitsValue (text.takeWhile isDigit)
  if negative then -value else value

theorem takeWhile_decimal {rest : List UInt8}
    (ended : ∀ c, rest.head? = some c → isDigit c = false) :
    (decimal n ++ rest).takeWhile isDigit = decimal n := by
  rw [List.takeWhile_append_of_pos (decimal_isDigit n)]
  cases rest with
  | nil => rw [List.takeWhile_nil, List.append_nil]
  | cons c rest =>
    rw [List.takeWhile_cons_of_neg (by rw [ended c rfl]; nofun), List.append_nil]

/-- What `%d` prints is read back in front of anything but a digit. -/
theorem atoi_printInt (z : Int) {rest : List UInt8}
    (ended : ∀ c, rest.head? = some c → isDigit c = false) :
    atoi (printInt z ++ rest) = z := by
  have digits := takeWhile_decimal z.natAbs ended
  by_cases negative : z < 0
  · have space : isSpace minus = false := by decide
    rw [atoi, printInt, if_pos negative, List.singleton_append, List.cons_append,
      List.dropWhile_cons_of_neg (by rw [space]; nofun), readSign, if_pos rfl]
    dsimp only
    rw [digits, digitsValue_decimal]
    simp only [if_true]
    omega
  · rw [atoi, printInt, if_neg negative, List.nil_append]
    cases shape : decimal z.natAbs with
    | nil => exact absurd shape (decimal_ne_nil _)
    | cons c more =>
      have digit : isDigit c := decimal_isDigit z.natAbs c (shape ▸ List.mem_cons_self)
      rw [List.cons_append, List.dropWhile_cons_of_neg (by simp [isSpace_digit digit]), readSign,
        if_neg (digit_ne digit rfl), if_neg (digit_ne digit rfl), ← List.cons_append, ← shape]
      dsimp only
      rw [digits, digitsValue_decimal]
      simp only [Bool.false_eq_true, if_false]
      omega

theorem length_printInt {z : Int} {k : Nat} (positive : 0 < k) (bound : z.natAbs < 10 ^ k) :
    (printInt z).length ≤ k + 1 := by
  have digits := length_decimal z.natAbs positive bound
  rw [printInt, List.length_append]
  split
  · rw [List.length_singleton]
    omega
  · rw [List.length_nil]
    omega

theorem printInt_isNumeral (z : Int) : ∀ c ∈ printInt z, isNumeral c := by
  apply append_isNumeral
  · split
    · exact singleton_isNumeral (by decide)
    · exact nofun
  · exact decimal_isNumeral _

/-- `%.*f` of a finite value. -/
def printFixed (digits : Nat) (x : Signed) : List UInt8 :=
  let scaled := (roundEven (x.magnitude * 10 ^ digits)).toNat
  let fraction := decimal (scaled % 10 ^ digits)
  (if x.negative then [minus] else []) ++ decimal (scaled / 10 ^ digits) ++
    point :: (List.replicate (digits - fraction.length) zero ++ fraction)

theorem printFixed_isNumeral (digits : Nat) (x : Signed) :
    ∀ c ∈ printFixed digits x, isNumeral c := by
  have sign : ∀ c ∈ (if x.negative then [minus] else []), isNumeral c := by
    cases x.negative
    · exact nofun
    · exact singleton_isNumeral (by decide)
  apply append_isNumeral
  · exact append_isNumeral sign (decimal_isNumeral _)
  · apply append_isNumeral (singleton_isNumeral (by decide) : ∀ c ∈ [point], isNumeral c)
    exact append_isNumeral (replicate_isNumeral _) (decimal_isNumeral _)

theorem length_printFixed {x : Signed} {digits k : Nat} (positive : 0 < digits) (room : 0 < k)
    (small : x.magnitude * 10 ^ digits + 1 < 10 ^ k) :
    (printFixed digits x).length ≤ k + digits + 2 := by
  have scaled : (roundEven (x.magnitude * 10 ^ digits)).toNat < 10 ^ k := by
    have near := lt_of_le_of_lt (roundEven_le (x.magnitude * 10 ^ digits)) small
    have whole : roundEven (x.magnitude * 10 ^ digits) < ((10 ^ k : Nat) : Int) := by
      exact_mod_cast near
    have : 0 < 10 ^ k := Nat.pow_pos (by decide)
    omega
  have whole := length_decimal ((roundEven (x.magnitude * 10 ^ digits)).toNat / 10 ^ digits) room
    (lt_of_le_of_lt (Nat.div_le_self _ _) scaled)
  have fraction := length_decimal ((roundEven (x.magnitude * 10 ^ digits)).toNat % 10 ^ digits)
    positive (Nat.mod_lt _ (by positivity))
  have sign : (if x.negative then [minus] else []).length ≤ 1 := by
    split <;> decide
  simp only [printFixed, List.length_append, List.length_cons, List.length_replicate]
  omega

/-- `strtol` to base 10, on a system whose `long` has 64 bits. -/
def strtol (text : List UInt8) : Int := max (-2 ^ 63) (min (atoi text) (2 ^ 63 - 1))

/-- `atoi` with the width of an `int`. -/
def atoiInt (text : List UInt8) : Int := Int.bmod (strtol text) (2 ^ 32)

/-- `strtoull` and `strtoul`, which negate modulo their width. -/
def strtoull (text : List UInt8) : Int :=
  if (atoi text).natAbs < 2 ^ 64 then atoi text % 2 ^ 64 else 2 ^ 64 - 1

theorem atoi_printed (z : Int) : atoi (printInt z) = z := by
  have back : atoi (printInt z ++ []) = z := atoi_printInt z nofun
  rw [List.append_nil] at back
  exact back

theorem strtol_printInt {z : Int} (low : -2 ^ 63 ≤ z) (high : z < 2 ^ 63) :
    strtol (printInt z) = z := by
  rw [strtol, atoi_printed]
  omega

theorem atoiInt_printInt {z : Int} (low : -2 ^ 31 ≤ z) (high : z < 2 ^ 31) :
    atoiInt (printInt z) = z := by
  rw [atoiInt, strtol_printInt (by omega) (by omega)]
  exact Int.bmod_eq_of_le (by omega) (by omega)

theorem strtoull_printInt {z : Int} (low : 0 ≤ z) (high : z < 2 ^ 64) :
    strtoull (printInt z) = z := by
  rw [strtoull, atoi_printed, if_pos (by omega)]
  omega

theorem atoiInt_decimal {n : Nat} (small : n < 2 ^ 31) : atoiInt (decimal n) = n := by
  have same : printInt n = decimal n := by
    rw [printInt, if_neg (by omega)]
    rfl
  rw [← same]
  exact atoiInt_printInt (by omega) (by omega)

end Library.NumberText
