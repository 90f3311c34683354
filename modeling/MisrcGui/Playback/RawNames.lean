import Mathlib.Data.Bool.AllAny
import MisrcGui.Playback.RawOpen
import MisrcGui.Record.AutoNames

/-! What the player reads from the name of a raw recording. -/
namespace MisrcGui.Playback.RawNames
open Library NumberText RateHint RawOpen
open Record.AutoNames hiding Text
open Library.Percent (ascii)

theorem fileName_append {front tail : Text} (plain : ∀ c ∈ tail, c ≠ slash ∧ c ≠ backslash) :
    fileName (front ++ tail) = fileName front ++ tail := by
  rw [fileName, List.reverse_append,
    List.takeWhile_append_of_pos fun c member =>
      decide_eq_true (plain c (List.mem_reverse.mp member)),
    List.reverse_append, List.reverse_reverse, fileName]

theorem extEquals_append {front ext : Text} {e : String} (some : front ≠ []) (named : ext ≠ [])
    (plain : ∀ c ∈ ext, c ≠ point) :
    extEquals (front ++ point :: ext) e = (ext.map toLower == (ascii e).map toLower) := by
  have after : ((front ++ point :: ext).reverse.takeWhile (· ≠ point)).reverse = ext := by
    rw [List.reverse_append, List.reverse_cons, List.append_assoc,
      List.takeWhile_append_of_pos fun c member =>
        decide_eq_true (plain c (List.mem_reverse.mp member)),
      List.singleton_append, List.takeWhile_cons_of_neg (by simp), List.append_nil,
      List.reverse_reverse]
  have longer : ext.length + 1 < (front ++ point :: ext).length := by
    have := List.length_pos_of_ne_nil some
    rw [List.length_append, List.length_cons]
    omega
  rw [extEquals, after]
  simp only [longer, named, decide_true, ne_eq, not_false_eq_true, Bool.true_and]

def formatOf (bits : Nat) (directNative : Bool) : Format :=
  if directNative then (if bits = 8 then .u8 else .u16) else if bits = 8 then .s8 else .s16

theorem sniffFormat_raw {path : Text} (front : Text) {last : UInt8} {bits : Nat}
    {directNative : Bool} {file : List UInt8}
    (ends : path = front ++ last :: point :: rawExtForBits bits directNative)
    (plain : last ≠ slash ∧ last ≠ backslash) (headerless : NoMagic file) :
    sniffFormat path file = .ok (formatOf bits directNative) := by
  have letters : ∀ c ∈ point :: rawExtForBits bits directNative, c ≠ slash ∧ c ≠ backslash := by
    rw [rawExtForBits]
    split <;> split <;> exact List.all_iff_forall_prop.mp (by decide)
  have pointless : ∀ c ∈ rawExtForBits bits directNative, c ≠ point := by
    rw [rawExtForBits]
    split <;> split <;> exact List.all_iff_forall_prop.mp (by decide)
  have named : rawExtForBits bits directNative ≠ [] := by
    rw [rawExtForBits]
    split <;> split <;> decide
  have name : fileName path =
      (fileName front ++ [last]) ++ point :: rawExtForBits bits directNative := by
    rw [ends, fileName_append, List.append_assoc]
    · rfl
    · intro c member
      rcases List.mem_cons.mp member with same | inside
      · rw [same]
        exact plain
      · exact letters c inside
  have found : (extensions.find? fun entry => entry.1.any fun e =>
      (rawExtForBits bits directNative).map toLower == (ascii e).map toLower).map Prod.snd =
        some (formatOf bits directNative) := by
    rw [rawExtForBits, formatOf]
    split <;> split <;> decide
  have matched : (fun entry : List String × Format => entry.1.any (extEquals (fileName path))) =
      fun entry => entry.1.any fun e =>
        (rawExtForBits bits directNative).map toLower == (ascii e).map toLower := by
    funext entry
    congr 1
    funext e
    rw [name, extEquals_append (by simp) named pointless]
  rw [sniffFormat]
  dsimp only
  rw [headerless "fLaC" (by decide), headerless "OggS" (by decide), headerless "ID3" (by decide),
    headerless "RIFF" (by decide), matched]
  obtain ⟨entry, first, format⟩ := Option.map_eq_some_iff.mp found
  rw [first]
  simp only [Bool.false_eq_true, if_false, Bool.false_and]
  exact congrArg Except.ok format

def number (khz : Nat) : Text :=
  if mspsOf khz - ⌊mspsOf khz⌋ < toDouble (1 / 1000000) then decimal ⌊mspsOf khz⌋.toNat
  else decimal (tenths khz / 10) ++ point :: decimal (tenths khz % 10)

theorem formatMspsFromKhz_number (khz : Nat) : formatMspsFromKhz khz = number khz ++ msps := by
  rw [formatMspsFromKhz, number]
  split
  · rfl
  · rw [List.append_assoc, List.append_assoc]
    rfl

theorem normal_of_le {q : ℚ} (low : 1 / 10 ^ 10 ≤ q) : (2 : ℚ) ^ (-1022 : Int) ≤ q := by
  have tiny : (2 : ℚ) ^ (-1022 : Int) ≤ 2 ^ (-40 : Int) :=
    zpow_le_zpow_right₀ (by norm_num) (by norm_num)
  have small : (2 : ℚ) ^ (-40 : Int) ≤ 1 / 10 ^ 10 := by norm_num
  exact tiny.trans (small.trans low)

theorem mspsOf_nonneg (khz : Nat) : 0 ≤ mspsOf khz := by
  by_cases none : khz = 0
  · have kept : toDouble ((0 : Nat) : ℚ) = (0 : Nat) := roundBinary_natCast (by decide) (by decide)
    rw [Nat.cast_zero] at kept
    rw [mspsOf, none, Nat.cast_zero, zero_div, kept]
  · have positive : (1 : ℚ) ≤ khz := by
      have : 1 ≤ khz := Nat.one_le_iff_ne_zero.mpr none
      exact_mod_cast this
    have bounds := toDouble_bounds (q := (khz : ℚ) / 1000) (normal_of_le (by linarith))
    rw [mspsOf]
    linarith

theorem tenths_whole {khz : Nat}
    (whole : mspsOf khz - ⌊mspsOf khz⌋ < toDouble (1 / 1000000)) :
    tenths khz = 10 * ⌊mspsOf khz⌋.toNat := by
  have positive := Int.floor_nonneg.mpr (mspsOf_nonneg khz)
  have below := Int.floor_le (mspsOf khz)
  have bound := (toDouble_bounds (q := 1 / 1000000) (normal_of_le (by norm_num))).2
  have near : roundEven (10 * mspsOf khz) = 10 * ⌊mspsOf khz⌋ := by
    apply roundEven_near
    push_cast
    rw [abs_lt]
    constructor <;> linarith
  rw [tenths, near]
  omega

theorem strtod_number (khz : Nat) :
    strtod (number khz) =
      if toDouble (tenths khz / 10) ≥ 2 ^ 1024 ∨
        (tenths khz / 10 : ℚ) ≠ 0 ∧ toDouble (tenths khz / 10) < 2 ^ (-1022 : Int) then none
      else some ⟨false, toDouble (tenths khz / 10)⟩ := by
  rw [number]
  split
  · next whole =>
    have same : ((tenths khz : ℚ) / 10) = (⌊mspsOf khz⌋.toNat : ℚ) := by
      rw [tenths_whole whole]
      push_cast
      ring
    rw [same]
    exact strtod_whole _
  · have digit : decimal (tenths khz % 10) = [UInt8.ofNat (48 + tenths khz % 10)] :=
      decimal_small (Nat.mod_lt _ (by decide))
    have value : (digitsValue (decimal (tenths khz / 10) ++ decimal (tenths khz % 10)) : ℚ) *
        10 ^ (0 - ((decimal (tenths khz % 10)).length : Int)) = tenths khz / 10 := by
      have joined : digitsValue (decimal (tenths khz / 10) ++ decimal (tenths khz % 10)) =
          tenths khz := by
        rw [digit, digitsValue, List.foldl_append, ← digitsValue, digitsValue_decimal,
          List.foldl_cons, List.foldl_nil, toNat_digit (Nat.mod_lt _ (by decide))]
        omega
      rw [joined, digit]
      norm_num
      ring
    exact strtod_point (decimal_isDigit _) (decimal_isDigit _) (decimal_ne_nil _) value

theorem runValue_number_some {khz : Nat} {v : ℚ} (read : runValue (number khz) = some v) :
    v = toDouble (tenths khz / 10) ∧ 0 < v := by
  rw [runValue, Option.ite_none_right_eq_some, strtod_number] at read
  obtain ⟨-, read⟩ := read
  split at read
  · next value taken =>
    rw [Option.ite_none_right_eq_some] at read
    obtain ⟨positive, same⟩ := read
    rw [Option.ite_none_left_eq_some, Option.some_inj] at taken
    rw [← taken.2] at positive same
    exact ⟨(Option.some.inj same).symm, (Option.some.inj same).subst positive⟩
  · contradiction

theorem length_number {khz : Nat} (few : tenths khz ≤ 10 ^ 30) : (number khz).length < 64 := by
  rw [number]
  split
  · next whole =>
    rw [tenths_whole whole] at few
    have digits := length_decimal ⌊mspsOf khz⌋.toNat (k := 31) (by decide) (by omega)
    omega
  · have digits := length_decimal (tenths khz / 10) (k := 31) (by decide) (by omega)
    have digit := length_decimal (tenths khz % 10) (k := 1) (by decide) (Nat.mod_lt _ (by decide))
    rw [List.length_append, List.length_cons]
    omega

theorem runValue_number {khz : Nat} (positive : 0 < tenths khz) (few : tenths khz ≤ 10 ^ 30) :
    runValue (number khz) = some (toDouble (tenths khz / 10)) := by
  have one : (1 : ℚ) ≤ tenths khz := by exact_mod_cast positive
  have bound : (tenths khz : ℚ) ≤ 10 ^ 30 := by exact_mod_cast few
  have low : (1 : ℚ) / 10 ≤ tenths khz / 10 := by linarith
  have above := toDouble_bounds (normal_of_le (le_trans (by norm_num) low))
  rw [runValue, if_pos (length_number few), strtod_number,
    if_neg (toDouble_inRange low (by linarith))]
  exact if_pos (show 0 < toDouble (tenths khz / 10) by linarith)

theorem extractMspsHint_rate (khz : Nat) {ext : Text}
    (plain : extractMspsHint (ascii "sps" ++ ext) = none) :
    extractMspsHint (formatMspsFromKhz khz ++ ext) = runValue (number khz) := by
  rw [formatMspsFromKhz_number, List.append_assoc]
  have unit : msps.tail ++ ext = ascii "sps" ++ ext := rfl
  rw [number]
  split
  · rw [extractMspsHint_digits (decimal_ne_nil _) (decimal_isDigit _),
      scan_msps (decimal_ne_nil _), unit, plain, Option.or_none]
  · rw [List.append_assoc, extractMspsHint_digits (decimal_ne_nil _) (decimal_isDigit _),
      scan_point (decimal_ne_nil _) (decimal_isDigit _), scan_msps (by simp), unit, plain,
      Option.or_none]

theorem tenths_eq {p khz : Nat} (fits : khz * 1000 < 2 ^ 32) (positive : 0 < p)
    (resolved : toDouble (toDouble (p / 10) * 1000000) = khz * 1000) : 100 * p = khz := by
  have one : (1 : ℚ) ≤ p := by exact_mod_cast positive
  have bound : (khz : ℚ) * 1000 < 2 ^ 32 := by exact_mod_cast fits
  have first : (2 : ℚ) ^ (-1022 : Int) ≤ p / 10 := normal_of_le (by linarith)
  have half := toDouble_bounds first
  have second : (2 : ℚ) ^ (-1022 : Int) ≤ toDouble (p / 10) * 1000000 :=
    normal_of_le (by linarith)
  have size := toDouble_bounds second
  have errorFirst := abs_le.mp (toDouble_error first)
  have errorSecond := abs_le.mp (toDouble_error second)
  have unit : (2 : ℚ) ^ (-53 : Int) ≤ 1 / 10 ^ 15 := by norm_num
  have some : (0 : ℚ) < 2 ^ (-53 : Int) := zpow_pos (by norm_num) _
  rw [resolved] at errorSecond size
  generalize (2 : ℚ) ^ (-53 : Int) = u at *
  generalize toDouble (p / 10) = x at *
  have small : (p : ℚ) / 10 * u ≤ p / 10 * (1 / 10 ^ 15) :=
    mul_le_mul_of_nonneg_left unit (by linarith)
  have smaller : x * 1000000 * u ≤ x * 1000000 * (1 / 10 ^ 15) :=
    mul_le_mul_of_nonneg_left unit (by linarith)
  have less : (khz : ℚ) < 100 * p + 1 := by norm_num at *; linarith
  have more : (100 * p : ℚ) < khz + 1 := by norm_num at *; linarith
  have less : khz < 100 * p + 1 := by exact_mod_cast less
  have more : 100 * p < khz + 1 := by exact_mod_cast more
  omega

theorem separates_underscore : Separates underscore := by
  refine ⟨by decide, by decide, by decide⟩

theorem separates_slash : Separates slash := by
  refine ⟨by decide, by decide, by decide⟩

theorem scan_unitless {text : Text} {run : Text} {seenDot : Bool}
    (plain : ∀ c ∈ text, toLower c ≠ 109) : scan run seenDot text = none := by
  induction text generalizing run seenDot with
  | nil => rfl
  | cons c text ih =>
    have next : ∀ run seenDot, scan run seenDot text = none := fun run seenDot =>
      ih fun d member => plain d (List.mem_cons_of_mem _ member)
    have unit : startsMsps (c :: text) = false := by
      have other : (109 == toLower c) = false :=
        beq_eq_false_iff_ne.mpr (plain c List.mem_cons_self).symm
      rw [startsMsps, List.map_cons]
      change ((109 == toLower c) && _) = false
      rw [other, Bool.false_and]
    rw [scan, unit]
    simp only [next, Bool.false_eq_true, if_false, ite_self]

theorem rfBitsForRaw_cases (requested : Nat) :
    rfBitsForRaw requested = 8 ∨ rfBitsForRaw requested = 16 := by
  rw [rfBitsForRaw]
  split <;> simp

theorem extractMspsHint_rfName {i : Fin 2} {base tag rate ext : Text} {bits : Nat}
    (free : extractMspsHint base = none) (width : bits = 8 ∨ bits = 16)
    (plain : ∀ c ∈ ext, toLower c ≠ 109) :
    extractMspsHint (rfName i base tag rate ext bits) =
      (extractMspsHint tag).or
        (if rate ≠ [] then extractMspsHint (rate ++ point :: ext) else none) := by
  have front : extractMspsHint
      (if tag ≠ [] then base ++ underscore :: tag else letter i ++ underscore :: base) =
        extractMspsHint tag := by
    split
    · rw [extractMspsHint_append separates_underscore, free, Option.none_or]
    · next empty =>
      have unnamed : extractMspsHint (letter i) = none := by
        rw [letter]
        split <;> decide
      rw [extractMspsHint_append separates_underscore, free, unnamed, not_not.mp empty]
      rfl
  have depth (rest : Text) (unitless : ∀ c ∈ rest, toLower c ≠ 109) :
      extractMspsHint (decimal bits ++ ascii "-bit" ++ rest) = none := by
    refine scan_unitless fun c member => ?_
    rcases List.mem_append.mp member with inside | inside
    · clear member
      revert c
      rcases width with rfl | rfl <;> exact List.all_iff_forall_prop.mp (by decide)
    · exact unitless c inside
  rw [rfName]
  split
  · rw [List.append_assoc, List.cons_append, extractMspsHint_append separates_underscore,
      extractMspsHint_append separates_underscore, front]
    have clear := depth [] nofun
    rw [List.append_nil] at clear
    rw [clear, Option.or_none]
  · rw [List.append_assoc, List.cons_append, extractMspsHint_append separates_underscore, front,
      depth]
    intro c member
    rcases List.mem_cons.mp member with same | inside
    · rw [same]
      decide
    · exact plain c inside

theorem rfName_ends (i : Fin 2) (base tag ext : Text) (bits : Nat) (c : Record.AutoNames.Channel) :
    ∃ front last, rfName i base tag (rateTag c) ext bits = front ++ last :: point :: ext ∧
      last ≠ slash ∧ last ≠ backslash := by
  rw [rfName]
  split
  · next rated =>
    have timed : rateTag c = number c.resampleKhz ++ msps := by
      rw [rateTag, ite_ne_right_iff] at rated
      rw [rateTag, if_pos rated.1, formatMspsFromKhz_number]
    have unit : msps = ascii "msp" ++ [115] := by decide
    generalize (if tag ≠ [] then base ++ underscore :: tag else letter i ++ underscore :: base) ++
      underscore :: (decimal bits ++ ascii "-bit") = middle
    refine ⟨middle ++ underscore :: (number c.resampleKhz ++ ascii "msp"), 115, ?_, by decide,
      by decide⟩
    rw [timed, unit]
    simp only [List.append_assoc, List.cons_append, List.nil_append]
  · have unit : ascii "-bit" = ascii "-bi" ++ [116] := by decide
    generalize (if tag ≠ [] then base ++ underscore :: tag else letter i ++ underscore :: base) =
      front
    refine ⟨front ++ underscore :: (decimal bits ++ ascii "-bi"), 116, ?_, by decide, by decide⟩
    rw [unit]
    simp only [List.append_assoc, List.cons_append, List.nil_append]

theorem padded_digits (width n : Nat) : ∀ c ∈ padded width n, toLower c ≠ 109 := by
  intro c member
  have digit : isDigit c := by
    rcases List.mem_append.mp member with zeros | digits
    · rw [List.eq_of_mem_replicate zeros]
      decide
    · exact decimal_isDigit n c digits
  have bounds := isDigit_bounds digit
  have letterA : (65 : UInt8).toNat = 65 := rfl
  intro letter
  rw [toLower, if_neg (by rw [UInt8.le_iff_toNat_le, letterA]; omega)] at letter
  rw [letter] at bounds
  exact absurd bounds.2 (by decide)

theorem buildSystemTimestamp_unitless (clock : Option Clock) :
    ∀ c ∈ buildSystemTimestamp clock, toLower c ≠ 109 := by
  cases clock with
  | none => exact nofun
  | some t =>
    have dot : toLower point ≠ 109 := by decide
    have line : toLower underscore ≠ 109 := by decide
    intro c
    rw [buildSystemTimestamp]
    simp only [List.mem_append, List.mem_cons]
    rintro (((((part | rfl | part) | rfl | part) | rfl | part) | rfl | part) | rfl | part) <;>
      first
        | exact padded_digits _ _ c part
        | assumption

theorem baseName_free {s : Settings} {clock : Option Clock}
    (free : extractMspsHint s.outputBaseName = none)
    (short : (baseName s clock).length < maxFilenameLen) :
    extractMspsHint (baseName s clock) = none := by
  have given : extractMspsHint
      (if s.outputBaseName = [] then ascii "capture" else s.outputBaseName) = none := by
    split
    · decide
    · exact free
  rw [baseName] at short ⊢
  split at short
  · next stamped =>
    rw [if_pos stamped]
    rw [List.length_take] at short
    rw [List.take_of_length_le (by omega), extractMspsHint_append separates_underscore, given,
      Option.none_or]
    exact scan_unitless (buildSystemTimestamp_unitless clock)
  · next plain =>
    rw [if_neg plain]
    exact given

theorem applyAutoNames_rf {s : Settings} {clock : Option Clock} {available : Fin 2 → Bool}
    {names : Names} (named : applyAutoNames s clock available = some names) (i : Fin 2)
    (on : (s.channel i).capture) :
    names.rf i = rfNameOf s (baseName s clock) (directChannelEligible s available) i ∧
      (names.rf i).length < maxFilenameLen := by
  have used {text name : Text} (formatted : formatName true text = some name) :
      name = text ∧ name.length < maxFilenameLen := by
    rw [formatName] at formatted
    split at formatted
    · next fits => exact ⟨(Option.some.inj formatted).symm, Option.some.inj formatted ▸ fits⟩
    · contradiction
  rw [applyAutoNames] at named
  obtain ⟨a, first, named⟩ := Option.bind_eq_some_iff.mp named
  obtain ⟨b, second, named⟩ := Option.bind_eq_some_iff.mp named
  obtain ⟨audio4, -, named⟩ := Option.bind_eq_some_iff.mp named
  obtain ⟨audio12, -, named⟩ := Option.bind_eq_some_iff.mp named
  obtain ⟨audio34, -, named⟩ := Option.bind_eq_some_iff.mp named
  obtain ⟨ch1, -, named⟩ := Option.bind_eq_some_iff.mp named
  obtain ⟨ch2, -, named⟩ := Option.bind_eq_some_iff.mp named
  obtain ⟨ch3, -, named⟩ := Option.bind_eq_some_iff.mp named
  obtain ⟨ch4, -, named⟩ := Option.bind_eq_some_iff.mp named
  rw [← Option.some.inj named]
  match i with
  | 0 =>
    rw [on] at first
    exact used first
  | 1 =>
    rw [on] at second
    exact used second

/-- The player takes the file for samples of this width, sign and rate. -/
def Plays (path : Text) (file : List UInt8) (bits : Nat) (directNative : Bool) (khz : Nat) : Prop :=
  ∃ format info, sniffFormat path file = .ok format ∧ RawOpen.rawOpen path format file = .ok info ∧
    format = formatOf bits directNative ∧ info.format = format ∧ info.bits = bits ∧
    info.realSampleRateHz = khz * 1000

/-- What the path says about the rate: its first hint when the folder or the tag has one, else
the tenths of a MHz in the rate tag of a resampled channel. -/
def Tells (folder : Text) (c : Record.AutoNames.Channel) (khz : Nat) : Prop :=
  match (extractMspsHint folder).or (extractMspsHint (sanitizeTag c.tag)) with
  | some v => toDouble (v * 1000000) = khz * 1000
  | none => c.enableResample ∧ 100 * tenths c.resampleKhz = khz ∧
      toDouble (toDouble (khz / 1000) * 1000000) = khz * 1000

/-- A raw file plays where there is a sample and the first hint of its path is the rate. -/
theorem plays_raw {path : Text} {file : List UInt8} {bits khz : Nat} {directNative : Bool}
    (sniffed : sniffFormat path file = .ok (formatOf bits directNative))
    (width : bits = 8 ∨ bits = 16) :
    Plays path file bits directNative khz ↔
      bits / 8 ≤ file.length ∧
        ∃ v, extractMspsHint path = some v ∧ toDouble (v * 1000000) = khz * 1000 := by
  have depth : rawBits (formatOf bits directNative) = bits := by
    rw [formatOf]
    rcases width with rfl | rfl <;> cases directNative <;> rfl
  have samples : file.length / (bits / 8) = 0 ↔ ¬bits / 8 ≤ file.length := by
    rw [Nat.div_eq_zero_iff]
    omega
  have opened : RawOpen.rawOpen path (formatOf bits directNative) file =
      (extractMspsHint path).elim (.error (ascii "raw " ++ rawKind (formatOf bits directNative) ++
          ascii " audio has no header, so the sample rate is unknowable: rename the file " ++
          ascii "with the rate (e.g. ..._8-bit_20msps.u8) - the <n>msps hint is required"))
        fun v => withSamples path ⟨formatOf bits directNative, bits, 0, file.length,
          file.length / (bits / 8), toDouble (v * 1000000), khzOf v⟩ := by
    have headerless : formatOf bits directNative ≠ .wav ∧ formatOf bits directNative ≠ .lds := by
      rw [formatOf]
      rcases width with rfl | rfl <;> cases directNative <;> decide
    generalize formatOf bits directNative = format at headerless depth
    rw [← depth]
    cases format <;> first
      | (unfold RawOpen.rawOpen; cases extractMspsHint path <;> rfl)
      | exact absurd rfl headerless.1
      | exact absurd rfl headerless.2
  rw [Plays]
  constructor
  · rintro ⟨format, info, same, read, -, -, -, rate⟩
    rw [sniffed, Except.ok.injEq] at same
    rw [← same, opened] at read
    rcases hint : extractMspsHint path with _ | v
    · rw [hint] at read
      contradiction
    · rw [hint, Option.elim, withSamples] at read
      split at read
      · contradiction
      · next some =>
        rw [Except.ok.injEq] at read
        rw [← read] at rate
        exact ⟨not_not.mp fun few => some (samples.mpr few), v, rfl, rate⟩
  · rintro ⟨some, v, hint, rate⟩
    refine ⟨_, ⟨formatOf bits directNative, bits, 0, file.length, file.length / (bits / 8),
      toDouble (v * 1000000), khzOf v⟩, sniffed, ?_, rfl, rfl, rfl, rate⟩
    rw [opened, hint]
    exact if_neg fun none => samples.mp none some

theorem writtenKhz_bounds {captureKhz : Nat} (c : Record.AutoNames.Channel)
    (rate : captureKhz * 1000 < 2 ^ 32) :
    0 < writtenKhz captureKhz c ∧ writtenKhz captureKhz c * 1000 < 2 ^ 32 := by
  rw [writtenKhz]
  split <;> split <;> omega

theorem rateTag_tells {c : Record.AutoNames.Channel} {ext : Text} {khz : Nat}
    (bounds : 0 < khz ∧ khz * 1000 < 2 ^ 32) (plain : ∀ d ∈ ext, toLower d ≠ 109) :
    (∃ v, (if rateTag c ≠ [] then extractMspsHint (rateTag c ++ point :: ext) else none) = some v ∧
        toDouble (v * 1000000) = khz * 1000) ↔
      c.enableResample ∧ 100 * tenths c.resampleKhz = khz ∧
        toDouble (toDouble (khz / 1000) * 1000000) = khz * 1000 := by
  have rated : rateTag c ≠ [] ↔ c.enableResample := by
    rw [rateTag, ite_ne_right_iff, formatMspsFromKhz_number]
    refine and_iff_left (List.append_ne_nil_of_right_ne_nil _ (by decide))
  by_cases on : c.enableResample
  · have clear : extractMspsHint (ascii "sps" ++ point :: ext) = none := by
      refine scan_unitless fun d member => ?_
      rcases List.mem_append.mp member with unit | inside
      · clear member
        revert d
        exact List.all_iff_forall_prop.mp (by decide)
      · rcases List.mem_cons.mp inside with same | inside
        · rw [same]
          decide
        · exact plain d inside
    rw [if_pos (rated.mpr on), rateTag, if_pos on, extractMspsHint_rate _ clear]
    constructor
    · rintro ⟨v, read, resolved⟩
      obtain ⟨value, positive⟩ := runValue_number_some read
      have some : 0 < tenths c.resampleKhz := by
        refine Nat.pos_of_ne_zero fun none => ?_
        have zero : toDouble ((0 : Nat) : ℚ) = (0 : Nat) :=
          roundBinary_natCast (by decide) (by decide)
        rw [value, none, Nat.cast_zero, zero_div, ← Nat.cast_zero, zero] at positive
        exact absurd positive (by decide)
      rw [value] at resolved
      have same := tenths_eq bounds.2 some resolved
      have mhz : (khz : ℚ) / 1000 = tenths c.resampleKhz / 10 := by
        rw [← same]
        push_cast
        ring
      rw [mhz]
      exact ⟨on, same, resolved⟩
    · rintro ⟨-, same, resolved⟩
      have mhz : (khz : ℚ) / 1000 = tenths c.resampleKhz / 10 := by
        rw [← same]
        push_cast
        ring
      rw [mhz] at resolved
      exact ⟨_, runValue_number (by omega) (by omega), resolved⟩
  · rw [if_neg (mt rated.mp on)]
    constructor
    · rintro ⟨v, read, -⟩
      contradiction
    · exact fun told => absurd told.1 on

/-- The player makes of a raw recording what the recorder wrote exactly when the file holds a
sample and its path tells the rate. -/
theorem plays_iff (s : Settings) (clock : Option Clock) (available : Fin 2 → Bool) (names : Names)
    (folder : Text) (file : List UInt8) (i : Fin 2) (captureKhz : Nat)
    (named : applyAutoNames s clock available = some names) (raw : s.useFlac = false)
    (on : (s.channel i).capture) (free : extractMspsHint s.outputBaseName = none)
    (headerless : NoMagic file) (rate : captureKhz * 1000 < 2 ^ 32) :
    Plays (folder ++ slash :: names.rf i) file (rfBitsForRaw (s.channel i).bits)
        (directChannelEligible s available i) (writtenKhz captureKhz (s.channel i)) ↔
      rfBitsForRaw (s.channel i).bits / 8 ≤ file.length ∧
        Tells folder (s.channel i) (writtenKhz captureKhz (s.channel i)) := by
  obtain ⟨name, short⟩ := applyAutoNames_rf named i on
  have width := rfBitsForRaw_cases (s.channel i).bits
  rw [rfNameOf, if_neg (by rw [raw]; decide)] at name
  have base : extractMspsHint (baseName s clock) = none := by
    refine baseName_free free (Nat.lt_of_le_of_lt ?_ short)
    rw [name, rfName]
    split <;> split <;> simp only [List.length_append, List.length_cons] <;> omega
  have plain : ∀ c ∈ rawExtForBits (rfBitsForRaw (s.channel i).bits)
      (directChannelEligible s available i), toLower c ≠ 109 := by
    rw [rawExtForBits]
    split <;> split <;> exact List.all_iff_forall_prop.mp (by decide)
  have hint : extractMspsHint (folder ++ slash :: names.rf i) =
      (extractMspsHint folder).or (extractMspsHint (names.rf i)) :=
    extractMspsHint_append separates_slash
  rw [name, extractMspsHint_rfName base width plain, ← Option.or_assoc] at hint
  obtain ⟨front, last, ends, unslashed⟩ := rfName_ends i (baseName s clock)
    (sanitizeTag (s.channel i).tag)
    (rawExtForBits (rfBitsForRaw (s.channel i).bits) (directChannelEligible s available i))
    (rfBitsForRaw (s.channel i).bits) (s.channel i)
  have sniffed : sniffFormat (folder ++ slash :: names.rf i) file =
      .ok (formatOf (rfBitsForRaw (s.channel i).bits) (directChannelEligible s available i)) := by
    refine sniffFormat_raw (folder ++ slash :: front) ?_ unslashed headerless
    rw [name, ends, List.append_assoc]
    rfl
  rw [plays_raw sniffed width, name, hint, Tells]
  refine and_congr_right fun _ => ?_
  cases (extractMspsHint folder).or (extractMspsHint (sanitizeTag (s.channel i).tag)) with
  | some v => simp only [Option.some_or, Option.some.injEq, exists_eq_left']
  | none =>
    rw [Option.none_or]
    exact rateTag_tells (writtenKhz_bounds (s.channel i) rate) plain

def onlyA (c : Record.AutoNames.Channel) : Settings :=
  let off : AudioOutput := ⟨false, []⟩
  { outputBaseName := ascii "tape"
    appendTimestamp := false
    useFlac := false
    channel := ![c, { c with capture := false, enableResample := false }]
    audio4 := off
    audio12 := off
    audio34 := off
    audio1 := fun _ => off }

/-- A channel resampled to 20 MHz. -/
theorem plays_iff_twenty :
    ∃ names, applyAutoNames (onlyA ⟨true, 16, true, 20000, []⟩) none (fun _ => false) = some names ∧
      Plays (ascii "out" ++ slash :: names.rf 0) [0, 0] 16 false 20000 := by
  have mhz : mspsOf 20000 = 20 := by
    have kept : toDouble ((20 : Nat) : ℚ) = (20 : Nat) :=
      roundBinary_natCast (by decide) (by decide)
    rw [mspsOf]
    norm_num at kept ⊢
    exact kept
  have rate : formatMspsFromKhz 20000 = ascii "20msps" := by
    have tiny := (toDouble_bounds (q := 1 / 1000000) (normal_of_le (by norm_num))).1
    rw [formatMspsFromKhz, mhz, if_pos]
    · decide +kernel
    · norm_num at tiny ⊢
      linarith
  have named : ∃ names, applyAutoNames (onlyA ⟨true, 16, true, 20000, []⟩) none (fun _ => false) =
      some names := by
    have name : rfNameOf (onlyA ⟨true, 16, true, 20000, []⟩) (ascii "tape") (fun _ => false) 0 =
        ascii "rfA_tape_16-bit_20msps.s16" := by
      change rfName 0 (ascii "tape") [] (formatMspsFromKhz 20000) (ascii "s16") 16 = _
      rw [rate]
      decide +kernel
    have first : formatName true
        (rfNameOf (onlyA ⟨true, 16, true, 20000, []⟩) (ascii "tape") (fun _ => false) 0) =
          some (ascii "rfA_tape_16-bit_20msps.s16") := by
      rw [name]
      rfl
    exact ⟨_, Option.bind_eq_some_iff.mpr ⟨_, first, rfl⟩⟩
  obtain ⟨names, named⟩ := named
  refine ⟨names, named, ?_⟩
  have plays := plays_iff (onlyA ⟨true, 16, true, 20000, []⟩) none (fun _ => false) names
    (ascii "out") [0, 0] 0 40000 named rfl rfl (by decide)
    (by intro magic member; revert magic; decide) (by decide)
  refine plays.mpr ⟨by decide, ?_⟩
  have same : tenths 20000 = 200 := by
    rw [tenths, mhz]
    have whole := roundEven_intCast 200
    norm_num at whole ⊢
    rw [whole]
    rfl
  have kept (n : Nat) (fits : n < 2 ^ 53) : toDouble n = n := roundBinary_natCast (by decide) fits
  have value : toDouble (toDouble ((20000 : Nat) / 1000) * 1000000) = (20000 : Nat) * 1000 := by
    have small := kept 20 (by decide)
    have large := kept 20000000 (by decide)
    norm_num at small large ⊢
    rw [small]
    norm_num
    exact large
  exact ⟨rfl, by change 100 * tenths 20000 = 20000; rw [same], value⟩

/-- Without resampling the name has no rate. -/
theorem plays_not_full_rate :
    ¬∀ (s : Settings) (clock : Option Clock) (available : Fin 2 → Bool) (names : Names)
      (folder : Text) (file : List UInt8) (i : Fin 2) (captureKhz : Nat),
      applyAutoNames s clock available = some names → s.useFlac = false →
        (s.channel i).capture → extractMspsHint s.outputBaseName = none →
          (∀ j, extractMspsHint (s.channel j).tag = none) → extractMspsHint folder = none →
            NoMagic file → file ≠ [] → captureKhz * 1000 < 2 ^ 32 →
              Plays (folder ++ slash :: names.rf i) file (rfBitsForRaw (s.channel i).bits)
                (directChannelEligible s available i) (writtenKhz captureKhz (s.channel i)) := by
  intro claim
  obtain ⟨names, named⟩ : ∃ names, applyAutoNames (onlyA ⟨true, 8, false, 0, []⟩) none
      (fun _ => false) = some names := ⟨_, rfl⟩
  have rf : (applyAutoNames (onlyA ⟨true, 8, false, 0, []⟩) none fun _ => false).map
      (fun names => names.rf 0) = some (ascii "rfA_tape_8-bit.s8") := by decide +kernel
  rw [named, Option.map_some, Option.some_inj] at rf
  obtain ⟨format, info, sniffed, read, -⟩ := claim (onlyA ⟨true, 8, false, 0, []⟩) none
    (fun _ => false) names (ascii "out") [0] 0 40000 named rfl rfl (by decide) (by decide)
    (by decide) (by intro magic member; revert magic; decide) nofun (by decide)
  rw [rf] at sniffed read
  have known : sniffFormat (ascii "out" ++ slash :: ascii "rfA_tape_8-bit.s8") [0] = .ok .s8 := by
    decide +kernel
  rw [known, Except.ok.injEq] at sniffed
  have hint : extractMspsHint (ascii "out" ++ slash :: ascii "rfA_tape_8-bit.s8") = none := by
    decide +kernel
  rw [← sniffed] at read
  simp only [RawOpen.rawOpen, hint] at read
  contradiction

end MisrcGui.Playback.RawNames
