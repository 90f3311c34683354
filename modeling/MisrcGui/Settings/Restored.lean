import MisrcGui.Settings.Loading

/-! What `gui_settings_load` restores of a file that `gui_settings_save` has written. -/
namespace MisrcGui.Settings.Restored
open Library.NumberText Library.Percent Library.Terminated ValueText Document SavedFile Loading
open Net.MonitorSettings (CString Single)

/-- The field has the same value; floating-point fields are left out. -/
def Agree (p s : GuiSettings) : Entry → Prop
  | .flag f => s.flag f = p.flag f
  | .number n => s.number n = p.number n
  | .text t => s.text t = p.text t
  | .real _ => True

/-- A step from `s` to `next` that gives these fields the values of `p`, and no others. -/
structure Sets (p s next : GuiSettings) (fields : List Entry) : Prop where
  set : ∀ e ∈ fields, Agree p next e
  kept : ∀ q, ∀ e ∉ fields, Agree q s e → Agree q next e

variable {p s : GuiSettings}

theorem sets_one {next : GuiSettings} {e : Entry} (set : Agree p next e)
    (kept : ∀ q, ∀ other, other ≠ e → Agree q s other → Agree q next other) :
    Sets p s next [e] where
  set := by
    intro other listed
    rw [List.mem_singleton.mp listed]
    exact set
  kept := fun q other outside => kept q other fun same => outside (List.mem_singleton.mpr same)

theorem sets_flag (f : FlagField) : Sets p s (setFlag s f (p.flag f)) [.flag f] := by
  apply sets_one
  · exact Function.update_self _ _ _
  intro q e other same
  cases e with
  | flag g =>
    have differ : g ≠ f := fun same => other (congrArg Entry.flag same)
    exact (Function.update_of_ne differ _ _).trans same
  | number | text | real => exact same

theorem sets_number (n : NumberField) : Sets p s (setNumber s n (p.number n)) [.number n] := by
  apply sets_one
  · exact Function.update_self _ _ _
  intro q e other same
  cases e with
  | flag | text | real => exact same
  | number m =>
    have differ : m ≠ n := fun same => other (congrArg Entry.number same)
    exact (Function.update_of_ne differ _ _).trans same

theorem sets_text (t : TextField) : Sets p s (setText s t (p.text t)) [.text t] := by
  apply sets_one
  · exact Function.update_self _ _ _
  intro q e other same
  cases e with
  | flag | number | real => exact same
  | text u =>
    have differ : u ≠ t := fun same => other (congrArg Entry.text same)
    exact (Function.update_of_ne differ _ _).trans same

theorem sets_real (r : RealField) (x : Single) : Sets p s (setReal s r x) [.real r] := by
  apply sets_one
  · trivial
  intro q e other same
  cases e with
  | flag | number | text => exact same
  | real r => trivial

theorem Sets.trans {next last : GuiSettings} {first second : List Entry}
    (one : Sets p s next first) (two : Sets p next last second) :
    Sets p s last (first ++ second) where
  set := by
    intro e listed
    by_cases later : e ∈ second
    · exact two.set e later
    · exact two.kept p e later (one.set e ((List.mem_append.mp listed).resolve_right later))
  kept := by
    intro q e other same
    rw [List.mem_append, not_or] at other
    exact two.kept q e other.2 (one.kept q e other.1 same)

theorem cString_ext {size : Nat} {a b : CString size} (same : a.bytes = b.bytes) : a = b := by
  cases a
  cases b
  cases same
  rfl

theorem takeWhile_terminated {size : Nat} (text : CString size) :
    text.bytes.takeWhile (· != 0) = text.bytes := by
  rw [List.takeWhile_eq_self_iff]
  intro c listed
  exact bne_iff_ne.mpr fun zero => text.terminated (zero ▸ listed)

theorem loadString_written (t : TextField) (text : CString t.size) :
    loadString t ⟨text.bytes, false⟩ = some text := by
  have fits : (text.bytes.takeWhile (· != 0)).length < t.size := by
    rw [takeWhile_terminated]
    exact text.fits
  rw [loadString, if_neg Bool.false_ne_true, copyString]
  dsimp only
  rw [dif_pos fits]
  exact congrArg some (cString_ext (takeWhile_terminated text))

theorem readsTrue_written (on : Bool) :
    readsTrue ⟨ascii (if on then "true" else "false"), false⟩ = on := by
  cases on <;> decide

theorem enabledText_written (on : Bool) :
    enabledText ⟨ascii (if on then "true" else "false"), false⟩ = on := by
  cases on <;> decide +kernel

theorem wrap_val {width : Width} (value : width.Value) : wrap width value.val = value := by
  obtain ⟨z, low, high⟩ := value
  apply Subtype.ext
  show width.low + (z - width.low) % (width.bound - width.low) = z
  rw [Int.emod_eq_of_lt (by omega) (by omega)]
  omega

def InRange (z : Int) : NumberField → Prop
  | .rfPreviewBudgetPercent => z ∈ budgets
  | .rfBitsA | .rfBitsB => z = 8 ∨ z = 12 ∨ z = 16
  | .dddDecimation => z = 1 ∨ z = 2
  | .uiScalePercent => sanitizePercent z = z
  | .waveformScaleMode | .genTapeFormat | .netMode => 0 ≤ z ∧ z ≤ 4
  | .memoryBudgetGb => 1 ≤ z ∧ z ≤ 16
  | .videoSystem => 0 ≤ z ∧ z ≤ 3
  | .netServerPort | .netClientPort => 1 ≤ z ∧ z ≤ 65535
  | _ => True

theorem wholeNumber_printInt (z : Int) : wholeNumber (printInt z) = some z := by
  have digits := decimal_isDigit z.natAbs
  have filled := decimal_ne_nil z.natAbs
  have rest : (readSign ((printInt z).dropWhile isSpace)).2 = decimal z.natAbs := by
    rw [printInt]
    by_cases negative : z < 0
    · rw [if_pos negative, List.singleton_append, List.dropWhile_cons_of_neg (by decide), readSign,
        if_pos rfl]
    · rw [if_neg negative, List.nil_append]
      cases shape : decimal z.natAbs with
      | nil => exact absurd shape filled
      | cons c more =>
        have digit : isDigit c := digits c (shape ▸ List.mem_cons_self)
        rw [List.dropWhile_cons_of_neg (by rw [isSpace_digit digit]; exact Bool.false_ne_true),
          readSign, if_neg (digit_ne digit rfl), if_neg (digit_ne digit rfl)]
  have all : (decimal z.natAbs).all isDigit := List.all_eq_true.mpr digits
  rw [wholeNumber, rest, if_pos ⟨filled, all⟩, atoi_printed]

theorem strtol_written {width : Width} (fits : width ≠ .uint64) (value : width.Value) :
    strtol (printInt value.val) = value.val := by
  obtain ⟨z, low, high⟩ := value
  show strtol (printInt z) = z
  apply strtol_printInt
  · cases width <;> simp only [Width.low] at low <;> omega
  · cases width with
    | uint64 => exact absurd rfl fits
    | _ =>
      simp only [Width.bound] at high
      omega

theorem atoiInt_written {width : Width} (small : width = .int32 ∨ width = .uint8)
    (value : width.Value) : atoiInt (printInt value.val) = value.val := by
  obtain ⟨z, low, high⟩ := value
  rcases small with rfl | rfl
  · exact atoiInt_printInt low high
  · simp only [Width.low, Width.bound] at low high
    show atoiInt (printInt z) = z
    exact atoiInt_printInt (by omega) (by omega)

theorem strtoull_written {width : Width} (positive : width ≠ .int32) (value : width.Value) :
    strtoull (printInt value.val) = value.val := by
  obtain ⟨z, low, high⟩ := value
  show strtoull (printInt z) = z
  apply strtoull_printInt
  · cases width with
    | int32 => exact absurd rfl positive
    | _ => exact low
  · cases width <;> simp only [Width.bound] at high <;> omega

theorem wrapped {width : Width} {value : width.Value} {z : Int} (same : z = value.val) :
    wrap width z = value := by
  rw [same]
  exact wrap_val value

theorem portOf_written (value : Width.uint16.Value) (port : 1 ≤ value.val ∧ value.val ≤ 65535) :
    portOf (printInt value.val) = value.val := by
  rw [portOf, strtol_written (by decide)]
  exact if_neg (by omega)

theorem takeNumber_written (n : NumberField) (old value : n.width.Value)
    (loaded : n ≠ .sampleCount) (inRange : InRange value.val n) :
    takeNumber n old (printInt value.val) = value := by
  cases n with
  | sampleCount => exact absurd rfl loaded
  | rfPreviewBudgetPercent =>
    show (if atoiInt (printInt value.val) ∈ budgets then wrap .int32 (atoiInt (printInt value.val))
      else old) = value
    rw [atoiInt_written (.inl rfl) value]
    exact (if_pos inRange).trans (wrap_val value)
  | dddDecimation =>
    have factor : wrap .uint8 (atoiInt (printInt value.val)) = value :=
      wrapped (atoiInt_written (.inr rfl) value)
    show (if (wrap .uint8 (atoiInt (printInt value.val))).val = 1 ∨
      (wrap .uint8 (atoiInt (printInt value.val))).val = 2
      then wrap .uint8 (atoiInt (printInt value.val)) else old) = value
    rw [factor]
    exact if_pos inRange
  | uiScalePercent =>
    apply wrapped
    rw [parsePercent, wholeNumber_printInt]
    exact (if_pos value.property).trans inRange
  | waveformScaleMode | netMode =>
    have bounds : 0 ≤ value.val ∧ value.val ≤ 4 := inRange
    apply wrapped
    rw [atoiInt_written (.inl rfl) value]
    exact if_neg (by omega)
  | memoryBudgetGb =>
    have bounds : 1 ≤ value.val ∧ value.val ≤ 16 := inRange
    apply wrapped
    rw [strtol_written (by decide) value]
    have least : (if value.val < 1 then 4 else value.val) = value.val := if_neg (by omega)
    exact (if_neg (by rw [least]; omega)).trans least
  | updateLastCheckUnixS | rtlsdrFreqHz | rtlsdrSampleRateHz =>
    exact wrapped (strtoull_written (by decide) value)
  | videoSystem =>
    show (if 0 ≤ atoiInt (printInt value.val) ∧ atoiInt (printInt value.val) ≤ 3
      then wrap .int32 (atoiInt (printInt value.val)) else old) = value
    rw [atoiInt_written (.inl rfl) value]
    exact (if_pos inRange).trans (wrap_val value)
  | genTapeFormat =>
    show (if 0 ≤ atoiInt (printInt value.val) ∧ atoiInt (printInt value.val) ≤ 4
      then wrap .int32 (atoiInt (printInt value.val)) else old) = value
    rw [atoiInt_written (.inl rfl) value]
    exact (if_pos inRange).trans (wrap_val value)
  | netServerPort | netClientPort => exact wrapped (portOf_written value inRange)
  | rfBitsA | rfBitsB => exact wrapped (atoiInt_written (.inr rfl) value)
  | deviceIndex | resampleQualityA | resampleQualityB | flacLevel | flacThreads | rtlsdrGainMode |
    rtlsdrGainTenthsDb | demodMode | demodBandwidthHz | demodOutputPair =>
    exact wrapped (atoiInt_written (.inl rfl) value)

def fieldsOf : LoadStep → List Entry
  | .flag f => [.flag f]
  | .number n => [.number n]
  | .real r => [.real r]
  | .text t => [.text t]
  | .namePart t => [.text t]
  | .baseName => [.text .outputBaseName]
  | .levelText => [.text .levelAutostopLevelStr]
  | .cxadcModes => [.flag .cxadcTenbitModeA, .flag .cxadcTenbitModeB]
  | .waveformScale => [.number .waveformScaleMode]
  | .localSaveEnabled => [.flag .monitorLocalSaveEnabled]

structure Accepted (reader : NumberReader) (ddd : Bool) (p : GuiSettings) : Prop where
  numbers : ∀ n, .number n ∈ saveOrder ddd → InRange (p.number n).val n
  base : timestampPrefix (p.text .outputBaseName).bytes = 0
  level : normalizeLevel reader (p.text .levelAutostopLevelStr) = p.text .levelAutostopLevelStr

structure Holds (content : Text) (ddd : Bool) (p : GuiSettings) : Prop where
  written : ∀ e ∈ saveOrder ddd,
    findValue content (ascii e.key) = .ok (some ⟨(e.written p).bytes, false⟩)
  legacy : findValue content cxadcLegacyKey = .ok none

variable {reader : NumberReader} {content : Text} {ddd : Bool}

theorem whenFound_written (holds : Holds content ddd p) {e : Entry} (listed : e ∈ saveOrder ddd)
    (use : Found → GuiSettings → GuiSettings) :
    whenFound content e.key use s = .ok (use ⟨(e.written p).bytes, false⟩ s) := by
  rw [whenFound, holds.written e listed]
  rfl

theorem stripTimestamp_none {size : Nat} {text : CString size}
    (none : timestampPrefix text.bytes = 0) : stripTimestamp text = text := by
  apply cString_ext
  show text.bytes.drop (timestampPrefix text.bytes) = text.bytes
  rw [none, List.drop_zero]

theorem storeText_written (t : TextField) :
    storeText t ⟨(p.text t).bytes, false⟩ s = setText s t (p.text t) := by
  rw [storeText, loadString_written]
  rfl

theorem storePart_written (t : TextField) :
    storePart t ⟨(p.text t).bytes, false⟩ s = setText s t (p.text t) := by
  rw [storePart, loadString_written]

theorem setText_twice (t : TextField) (text : CString t.size) :
    setText (setText s t text) t text = setText s t text := by
  simp only [setText, Function.update_idem]

theorem setText_text (t : TextField) (text : CString t.size) : (setText s t text).text t = text :=
  Function.update_self _ _ _

theorem storeBaseName_written (none : timestampPrefix (p.text .outputBaseName).bytes = 0) :
    storeBaseName ⟨(p.text .outputBaseName).bytes, false⟩ s =
      setText s .outputBaseName (p.text .outputBaseName) := by
  simp only [storeBaseName, storePart_written, setText_text, stripTimestamp_none none,
    setText_twice]

theorem storeLevel_written
    (normal : normalizeLevel reader (p.text .levelAutostopLevelStr) =
      p.text .levelAutostopLevelStr) :
    storeLevel reader ⟨(p.text .levelAutostopLevelStr).bytes, false⟩ s =
      setText s .levelAutostopLevelStr (p.text .levelAutostopLevelStr) := by
  simp only [storeLevel, storeText_written, setText_text]
  exact (congrArg _ normal).trans (setText_twice _ _)

theorem storeNumber_written {n : NumberField} (loaded : n ≠ .sampleCount)
    (inRange : InRange (p.number n).val n) :
    storeNumber n ⟨printInt (p.number n).val, false⟩ s = setNumber s n (p.number n) := by
  rw [storeNumber, takeNumber_written n _ _ loaded inRange]

theorem flag_written (holds : Holds content ddd p) {f : FlagField}
    (listed : .flag f ∈ saveOrder ddd) : findValue content (ascii f.key) =
      .ok (some ⟨ascii (if p.flag f then "true" else "false"), false⟩) :=
  holds.written (.flag f) listed

theorem number_written (holds : Holds content ddd p) {n : NumberField}
    (listed : .number n ∈ saveOrder ddd) : findValue content (ascii n.key) =
      .ok (some ⟨printInt (p.number n).val, false⟩) :=
  holds.written (.number n) listed

theorem loadModes_written (holds : Holds content ddd p)
    (a : .flag .cxadcTenbitModeA ∈ saveOrder ddd) (b : .flag .cxadcTenbitModeB ∈ saveOrder ddd) :
    loadModes content s =
      .ok (setModes s (p.flag .cxadcTenbitModeA) (p.flag .cxadcTenbitModeB)) := by
  simp only [loadModes, holds.legacy, flag_written holds a, flag_written holds b, ok_bind]
  rw [if_neg (fun none => Option.some_ne_none _ none.2.1)]
  simp only [Option.elim, readsTrue_written]
  rfl

theorem loadScale_written (holds : Holds content ddd p)
    (listed : .number .waveformScaleMode ∈ saveOrder ddd)
    (inRange : InRange (p.number .waveformScaleMode).val .waveformScaleMode) :
    loadScale content s = .ok (setNumber s .waveformScaleMode (p.number .waveformScaleMode)) := by
  simp only [loadScale, number_written holds listed, ok_bind]
  exact congrArg Except.ok (storeNumber_written nofun inRange)

theorem run_sets (holds : Holds content ddd p) (accepted : Accepted reader ddd p) {step : LoadStep}
    (listed : ∀ e ∈ fieldsOf step, e ∈ saveOrder ddd) (loaded : step ≠ .number .sampleCount) :
    ∃ next, step.run reader content s = .ok next ∧ Sets p s next (fieldsOf step) := by
  cases step with
  | flag f =>
    have here := listed (.flag f) List.mem_cons_self
    refine ⟨setFlag s f (p.flag f), ?_, sets_flag f⟩
    show whenFound content f.key (fun found s => setFlag s f (readsTrue found)) s = _
    refine (whenFound_written holds here _).trans ?_
    exact congrArg (fun on => Except.ok (setFlag s f on)) (readsTrue_written (p.flag f))
  | number n =>
    have here := listed (.number n) List.mem_cons_self
    have number : n ≠ .sampleCount := fun same => loaded (same ▸ rfl)
    refine ⟨setNumber s n (p.number n), ?_, sets_number n⟩
    refine (whenFound_written holds here _).trans ?_
    exact congrArg Except.ok (storeNumber_written number (accepted.numbers n here))
  | real r =>
    have here := listed (.real r) List.mem_cons_self
    refine ⟨setReal s r (takeReal reader r (printReal r.digits (p.real r))), ?_, sets_real r _⟩
    show whenFound content r.key
      (fun found s => setReal s r (takeReal reader r found.bytes)) s = _
    exact whenFound_written holds here _
  | text t =>
    have here := listed (.text t) List.mem_cons_self
    refine ⟨setText s t (p.text t), ?_, sets_text t⟩
    exact (whenFound_written holds here _).trans (congrArg Except.ok (storeText_written t))
  | namePart t =>
    have here := listed (.text t) List.mem_cons_self
    refine ⟨setText s t (p.text t), ?_, sets_text t⟩
    exact (whenFound_written holds here _).trans (congrArg Except.ok (storePart_written t))
  | baseName =>
    have here := listed (.text .outputBaseName) List.mem_cons_self
    refine ⟨setText s .outputBaseName (p.text .outputBaseName), ?_, sets_text _⟩
    refine (whenFound_written holds here _).trans ?_
    exact congrArg Except.ok (storeBaseName_written accepted.base)
  | levelText =>
    have here := listed (.text .levelAutostopLevelStr) List.mem_cons_self
    refine ⟨setText s .levelAutostopLevelStr (p.text .levelAutostopLevelStr), ?_, sets_text _⟩
    refine (whenFound_written holds here _).trans ?_
    exact congrArg Except.ok (storeLevel_written accepted.level)
  | cxadcModes =>
    refine ⟨setModes s (p.flag .cxadcTenbitModeA) (p.flag .cxadcTenbitModeB), ?_,
      (sets_flag _).trans (sets_flag _)⟩
    exact loadModes_written holds (listed (.flag .cxadcTenbitModeA) List.mem_cons_self)
      (listed (.flag .cxadcTenbitModeB) (List.mem_cons_of_mem _ List.mem_cons_self))
  | waveformScale =>
    have here := listed (.number .waveformScaleMode) List.mem_cons_self
    refine ⟨setNumber s .waveformScaleMode (p.number .waveformScaleMode), ?_, sets_number _⟩
    exact loadScale_written holds here (accepted.numbers .waveformScaleMode here)
  | localSaveEnabled =>
    have here := listed (.flag .monitorLocalSaveEnabled) List.mem_cons_self
    refine ⟨setFlag s .monitorLocalSaveEnabled (p.flag .monitorLocalSaveEnabled), ?_,
      sets_flag _⟩
    show whenFound content FlagField.monitorLocalSaveEnabled.key
      (fun found s => setFlag s .monitorLocalSaveEnabled (enabledText found)) s = _
    refine (whenFound_written holds here _).trans ?_
    exact congrArg (fun on => Except.ok (setFlag s .monitorLocalSaveEnabled on))
      (enabledText_written (p.flag .monitorLocalSaveEnabled))

theorem Sets.refl : Sets p s s [] := ⟨nofun, fun _ _ _ same => same⟩

theorem steps_set (holds : Holds content ddd p) (accepted : Accepted reader ddd p)
    (steps : List LoadStep)
    (listed : ∀ step ∈ steps, (∀ e ∈ fieldsOf step, e ∈ saveOrder ddd) ∧
      step ≠ .number .sampleCount) :
    ∃ last, steps.foldlM (fun s step => step.run reader content s) s = .ok last ∧
      Sets p s last (steps.flatMap fieldsOf) := by
  induction steps generalizing s with
  | nil => exact ⟨s, rfl, Sets.refl⟩
  | cons step rest ih =>
    obtain ⟨fields, loaded⟩ := listed step List.mem_cons_self
    obtain ⟨next, ran, one⟩ := run_sets (s := s) holds accepted fields loaded
    obtain ⟨last, others, two⟩ := ih fun other later => listed other (List.mem_cons_of_mem _ later)
    refine ⟨last, ?_, one.trans two⟩
    rw [List.foldlM_cons, ran]
    exact others

def neverRead : List Entry :=
  [.number .sampleCount, .text .captureTime, .text .auxFilename, .text .rawFilename,
    .flag .padLowerBits, .flag .showPeakLevels, .flag .suppressClipA, .flag .suppressClipB]

theorem steps_checked : ∀ ddd : Bool,
    (∀ step ∈ loadSteps ddd, (∀ e ∈ fieldsOf step, e ∈ saveOrder ddd) ∧
      step ≠ .number .sampleCount) ∧
    (∀ e ∈ saveOrder ddd, e ∈ neverRead ∨ e ∈ (loadSteps ddd).flatMap fieldsOf) ∧
    ∀ e ∈ neverRead, e ∉ (loadSteps ddd).flatMap fieldsOf := by
  decide +kernel

end MisrcGui.Settings.Restored
