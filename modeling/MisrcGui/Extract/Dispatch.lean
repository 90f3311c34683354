import MisrcGui.Extract.Routines

/-! The loops by name, and the table of `get_conv_function` that chooses among them. -/
namespace MisrcGui.Extract.Dispatch
open Routines

def extractXS : Routine := { wide := false }
def extractX : Routine := {}
def extractXPeak : Routine := { peakA := true, peakB := true }

def extractS : Routine := { wide := false, outA := true }
def extractA : Routine := { outA := true }
def extractAPeak : Routine := { outA := true, peakA := true }
def extractB : Routine := { outB := true }
def extractBPeak : Routine := { outB := true, peakB := true }
def extractAB : Routine := { outA := true, outB := true }
def extractABPeak : Routine := { outA := true, outB := true, peakA := true, peakB := true }

def extractSP : Routine := { extractS with pad := true }
def extractAP : Routine := { extractA with pad := true }
def extractAPPeak : Routine := { extractAPeak with pad := true }
def extractBP : Routine := { extractB with pad := true }
def extractBPPeak : Routine := { extractBPeak with pad := true }
def extractABP : Routine := { extractAB with pad := true }
def extractABPPeak : Routine := { extractABPeak with pad := true }

def extractA32 : Routine := { extractA with dword := true }
def extractAPeak32 : Routine := { extractAPeak with dword := true }
def extractB32 : Routine := { extractB with dword := true }
def extractBPeak32 : Routine := { extractBPeak with dword := true }
def extractAB32 : Routine := { extractAB with dword := true }
def extractABPeak32 : Routine := { extractABPeak with dword := true }

def extractAP32 : Routine := { extractAP with dword := true }
def extractAPPeak32 : Routine := { extractAPPeak with dword := true }
def extractBP32 : Routine := { extractBP with dword := true }
def extractBPPeak32 : Routine := { extractBPPeak with dword := true }
def extractABP32 : Routine := { extractABP with dword := true }
def extractABPPeak32 : Routine := { extractABPPeak with dword := true }

def extractS32 : Routine := { extractS with dword := true }
def extractSP32 : Routine := { extractSP with dword := true }

/-- The arguments of `get_conv_function`; `outA` and `outB` say whether the pointer is there. -/
structure Options where
  single : Bool
  pad : Bool
  dword : Bool
  peakLevel : Bool
  outA : Bool
  outB : Bool
deriving DecidableEq

/-- The table of the plain C loops, without the processor's variants. -/
def getConvFunction (o : Options) : Routine :=
  let peakLevel := o.peakLevel && !o.single
  if !o.outA && !o.outB then
    if o.single then extractXS
    else if peakLevel then extractXPeak
    else extractX
  else if peakLevel then
    if !o.dword then
      if o.pad then
        if !o.outA then extractBPPeak else if !o.outB then extractAPPeak else extractABPPeak
      else
        if !o.outA then extractBPeak else if !o.outB then extractAPeak else extractABPeak
    else
      if o.pad then
        if !o.outA then extractBPPeak32 else if !o.outB then extractAPPeak32
        else extractABPPeak32
      else
        if !o.outA then extractBPeak32 else if !o.outB then extractAPeak32 else extractABPeak32
  else
    if !o.dword then
      if o.pad then
        if o.single then extractSP
        else if !o.outA then extractBP else if !o.outB then extractAP else extractABP
      else
        if o.single then extractS
        else if !o.outA then extractB else if !o.outB then extractA else extractAB
    else
      if o.pad then
        if !o.outA then extractBP32 else if !o.outB then extractAP32 else extractABP32
      else
        if !o.outA then extractB32 else if !o.outB then extractA32 else extractAB32

/-- What the options ask for. A single channel comes in narrow words as channel A; peak levels
are kept of the channels that are output, or of both when none is. -/
def wanted (o : Options) : Routine where
  wide := !o.single
  outA := o.outA
  outB := o.outB && !o.single
  pad := o.pad
  dword := o.dword
  peakA := o.peakLevel && !o.single && (o.outA || !o.outB)
  peakB := o.peakLevel && !o.single && (o.outB || !o.outA)

/-- A call of the chosen function, with counters and peak levels as they were. -/
def convert (o : Options) (memory : Nat → UInt8) (len : Nat) (clipA clipB : UInt64)
    (peakA peakB : UInt16) : Sink :=
  extract (getConvFunction o) memory len clipA.toNat clipB.toNat peakA.toNat peakB.toNat

def Agrees (o : Options) (memory : Nat → UInt8) (len : Nat) (clipA clipB : UInt64)
    (peakA peakB : UInt16) : Prop :=
  convert o memory len clipA clipB peakA peakB =
    reference (wanted o) memory len clipA.toNat clipB.toNat peakA.toNat peakB.toNat

/-- Not a single channel into cells of 32 bits, nor one without the pointer for channel A. -/
def Supported (o : Options) : Prop :=
  o.single = false ∨ (o.outA = false ∧ o.outB = false) ∨ (o.outA = true ∧ o.dword = false)

instance : DecidablePred Supported := fun _ => inferInstanceAs (Decidable (_ ∨ _ ∨ _))

/-- Two results over the same words, where both options output something. -/
structure Overlap (o other : Options) (r s : Sink) : Prop where
  aux : r.aux = s.aux
  outA : (wanted o).outA → (wanted other).outA →
    r.outA.map (scale other.pad * ·) = s.outA.map (scale o.pad * ·) ∧ r.clipA = s.clipA
  outB : (wanted o).outB → (wanted other).outB →
    r.outB.map (scale other.pad * ·) = s.outB.map (scale o.pad * ·) ∧ r.clipB = s.clipB
  peakA : (wanted o).peakA → (wanted other).peakA → r.peakA = s.peakA
  peakB : (wanted o).peakB → (wanted other).peakB → r.peakB = s.peakB

/-- On every input the chosen function does what the options ask for, and so the same as any
supported combination of options where their outputs overlap. -/
def Correct (o : Options) : Prop :=
  ∀ memory len clipA clipB peakA peakB, Agrees o memory len clipA clipB peakA peakB ∧
    ∀ other, Supported other → other.single = o.single →
      Overlap o other (convert o memory len clipA clipB peakA peakB)
        (convert other memory len clipA clipB peakA peakB)

variable {o other : Options} {memory : Nat → UInt8} {len : Nat} {clipA clipB : UInt64}
  {peakA peakB : UInt16}

theorem convert_eq (o : Options) (memory : Nat → UInt8) (len : Nat) (clipA clipB : UInt64)
    (peakA peakB : UInt16) :
    convert o memory len clipA clipB peakA peakB =
      reference (getConvFunction o) memory len clipA.toNat clipB.toNat peakA.toNat
        peakB.toNat :=
  extract_eq _ _ _ _ _ _ _ clipA.toNat_lt clipB.toNat_lt

theorem getConvFunction_wanted (supported : Supported o) :
    (getConvFunction o).wide = (wanted o).wide ∧ (getConvFunction o).outA = (wanted o).outA ∧
      (getConvFunction o).outB = (wanted o).outB ∧
      (getConvFunction o).peakA = (wanted o).peakA ∧
      (getConvFunction o).peakB = (wanted o).peakB ∧
      ((wanted o).outA ∨ (wanted o).outB → (getConvFunction o).pad = (wanted o).pad) := by
  obtain ⟨single, pad, dword, peakLevel, outA, outB⟩ := o
  revert single pad dword peakLevel outA outB
  decide

theorem reference_congr {r s : Routine} (wide : r.wide = s.wide) (outA : r.outA = s.outA)
    (outB : r.outB = s.outB) (peakA : r.peakA = s.peakA) (peakB : r.peakB = s.peakB)
    (pad : s.outA ∨ s.outB → r.pad = s.pad) (clipA clipB peakA' peakB' : Nat) :
    reference r memory len clipA clipB peakA' peakB' =
      reference s memory len clipA clipB peakA' peakB' := by
  rw [reference, reference, wide, outA, outB, peakA, peakB]
  cases a : s.outA with
  | true => rw [pad (.inl a)]
  | false =>
    cases b : s.outB with
    | true => rw [pad (.inr b)]
    | false => rfl

theorem agrees_of_supported (supported : Supported o) :
    Agrees o memory len clipA clipB peakA peakB := by
  obtain ⟨wide, outA, outB, peakA', peakB', pad⟩ := getConvFunction_wanted supported
  rw [Agrees, convert_eq]
  exact reference_congr wide outA outB peakA' peakB' pad _ _ _ _

theorem overlap_of_agrees (same : other.single = o.single)
    (agrees : Agrees o memory len clipA clipB peakA peakB)
    (agrees' : Agrees other memory len clipA clipB peakA peakB) :
    Overlap o other (convert o memory len clipA clipB peakA peakB)
      (convert other memory len clipA clipB peakA peakB) := by
  have wide : (wanted other).wide = (wanted o).wide := by rw [wanted, wanted, same]
  rw [agrees, agrees']
  refine ⟨?_, ?_, ?_, ?_, ?_⟩
  · rw [reference, reference, wide]
  · intro a a'
    rw [reference, reference, wide]
    simp only [a, a', if_true, List.map_map, and_true]
    refine List.map_congr_left fun n _ => ?_
    exact mul_left_comm _ _ _
  · intro b b'
    rw [reference, reference, wide]
    simp only [b, b', if_true, List.map_map, and_true]
    refine List.map_congr_left fun n _ => ?_
    exact mul_left_comm _ _ _
  · intro a a'
    rw [reference, reference, wide]
    simp only [a, a', if_true]
  · intro b b'
    rw [reference, reference, wide]
    simp only [b, b', if_true]

/-- A byte in the third place, which is not of the first narrow word. -/
def third : Nat → UInt8 := fun i => if i = 2 then 15 else 0

theorem disagrees (unsupported : ¬Supported o) : ¬Agrees o third 1 0 0 0 0 := by
  obtain ⟨single, pad, dword, peakLevel, outA, outB⟩ := o
  rw [Agrees]
  revert single pad dword peakLevel outA outB
  decide +kernel

/-- The chosen function is right on every input exactly for the supported options. -/
theorem correct_iff (o : Options) : Correct o ↔ Supported o := by
  constructor
  · intro correct
    by_contra unsupported
    exact disagrees unsupported (correct third 1 0 0 0 0).1
  · intro supported memory len clipA clipB peakA peakB
    refine ⟨agrees_of_supported supported, fun other supported' same => ?_⟩
    exact overlap_of_agrees same (agrees_of_supported supported) (agrees_of_supported supported')

/-- A single channel into cells of 32 bits is read in words of 32 bits. -/
theorem single_dword_misread :
    ¬∀ (o : Options) (memory : Nat → UInt8) (len : Nat) (clipA clipB : UInt64)
      (peakA peakB : UInt16), (o.single → o.outB = false) →
        Agrees o memory len clipA clipB peakA peakB := by
  intro claim
  have agrees := claim ⟨true, false, true, false, true, false⟩ third 1 0 0 0 0 fun _ => rfl
  rw [Agrees] at agrees
  revert agrees
  decide +kernel

end MisrcGui.Extract.Dispatch
