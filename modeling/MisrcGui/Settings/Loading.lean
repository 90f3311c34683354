import MisrcGui.Settings.SavedFile

/-! `gui_settings_load`. What the C library makes of a decimal number is a parameter; the
floating-point fields are stored as it reads them. -/
namespace MisrcGui.Settings.Loading
open Library.NumberText Library.Percent Library.Terminated ValueText SavedFile
open Net.MonitorSettings (CString Single)

inductive Double where
  | finite (x : Signed)
  | infinity (negative : Bool)
  | nan

/-- `(float)atof`, and `strtod` with the length of what it has read. -/
structure NumberReader where
  atof : Text → Single
  strtod : Text → Double × Nat

def setFlag (s : GuiSettings) (f : FlagField) (on : Bool) : GuiSettings :=
  { s with flag := Function.update s.flag f on }

def setNumber (s : GuiSettings) (n : NumberField) (value : n.width.Value) :
    GuiSettings :=
  { s with number := Function.update s.number n value }

def setText (s : GuiSettings) (t : TextField) (text : CString t.size) : GuiSettings :=
  { s with text := Function.update s.text t text }

def setReal (s : GuiSettings) (r : RealField) (x : Single) : GuiSettings :=
  { s with real := Function.update s.real r x }

theorem not_mem_upTo (bytes : Text) : 0 ∉ bytes.takeWhile (· != 0) := by
  intro listed
  exact absurd (List.mem_takeWhile_imp listed) (by decide)

theorem size_pos (t : TextField) : 0 < t.size := by
  cases t <;> decide

/-- `snprintf` with `%s` into an array. -/
def cString (size : Nat) (room : 0 < size) (bytes : Text) : CString size where
  bytes := (bytes.takeWhile (· != 0)).take (size - 1)
  fits := lt_of_le_of_lt (List.length_take_le _ _) (Nat.sub_lt room Nat.one_pos)
  terminated := fun listed => not_mem_upTo bytes (List.mem_of_mem_take listed)

def copyString (size : Nat) (bytes : Text) : Option (CString size) :=
  let text := bytes.takeWhile (· != 0)
  if fits : text.length < size then some ⟨text, fits, not_mem_upTo bytes⟩ else none

def emptyText (t : TextField) : CString t.size := ⟨[], size_pos t, nofun⟩

def loadString (t : TextField) (found : Found) : Option (CString t.size) :=
  if found.tooLong then none else copyString t.size found.bytes

/-- `strip_timestamp_prefix_inplace` takes so many bytes away. -/
def timestampPrefix (text : Text) : Nat :=
  let dotted (positions : List Nat) (length : Nat) : Bool :=
    positions.all (fun i => text[i]? = some point) && text[length - 1]? = some 95
  if text.length ≤ 18 then 0
  else if text.length > 20 && dotted [4, 7, 13, 16] 20 && text[10]? = some 95 then 20
  else if dotted [2, 5, 11, 14] 18 && text[8]? = some 95 then 18
  else 0

def stripTimestamp {size : Nat} (text : CString size) : CString size where
  bytes := text.bytes.drop (timestampPrefix text.bytes)
  fits := lt_of_le_of_lt (List.drop_sublist _ _).length_le text.fits
  terminated := fun listed => text.terminated (List.mem_of_mem_drop listed)

def wrap (width : Width) (z : Int) : width.Value :=
  ⟨width.low + (z - width.low) % (width.bound - width.low), by
    have positive : 0 < width.bound - width.low := by cases width <;> decide
    have low := Int.emod_nonneg (z - width.low) (ne_of_gt positive)
    have high := Int.emod_lt_of_pos (z - width.low) positive
    omega⟩

/-- `GUI_UI_SCALE_MAX_PERCENT` on a desktop. -/
def maxPercent : Int := 200

def defaultPercent : Int := 100

def sanitizePercent (percent : Int) : Int :=
  if percent = 75 then percent
  else if 80 ≤ percent ∧ percent ≤ maxPercent ∧ percent % 10 = 0 then percent
  else defaultPercent

/-- The number that a text is as a whole, as `strtol` reports it by its end pointer. -/
def wholeNumber (text : Text) : Option Int :=
  let digits := (readSign (text.dropWhile isSpace)).2
  if digits ≠ [] ∧ digits.all isDigit then some (atoi text) else none

def parsePercent (text : Text) : Int :=
  match wholeNumber text with
  | none => defaultPercent
  | some z => if -2 ^ 31 ≤ z ∧ z < 2 ^ 31 then sanitizePercent z else defaultPercent

def budgets : List Int := [50, 75, 100, 150, 200, 300]

def portOf (text : Text) : Int :=
  let p := strtol text
  if p < 1 ∨ 65535 < p then 8080 else p

def takeNumber (n : NumberField) (old : n.width.Value) (text : Text) : n.width.Value :=
  match n with
  | .rfPreviewBudgetPercent =>
    if atoiInt text ∈ budgets then wrap .int32 (atoiInt text) else old
  | .dddDecimation =>
    let factor := wrap .uint8 (atoiInt text)
    if factor.val = 1 ∨ factor.val = 2 then factor else old
  | .uiScalePercent => wrap .int32 (parsePercent text)
  | .waveformScaleMode =>
    let mode := atoiInt text
    wrap .int32 (if mode < 0 ∨ 4 < mode then 0 else mode)
  | .memoryBudgetGb =>
    let gb := strtol text
    let gb := if gb < 1 then 4 else gb
    wrap .uint32 (if 16 < gb then 16 else gb)
  | .updateLastCheckUnixS => wrap .uint64 (strtoull text)
  | .rtlsdrFreqHz => wrap .uint64 (strtoull text)
  | .rtlsdrSampleRateHz => wrap .uint32 (strtoull text)
  | .videoSystem =>
    let sys := atoiInt text
    if 0 ≤ sys ∧ sys ≤ 3 then wrap .int32 sys else old
  | .genTapeFormat =>
    let format := atoiInt text
    if 0 ≤ format ∧ format ≤ 4 then wrap .int32 format else old
  | .netMode =>
    let mode := atoiInt text
    wrap .int32 (if mode < 0 ∨ 4 < mode then 0 else mode)
  | .netServerPort => wrap .uint16 (portOf text)
  | .netClientPort => wrap .uint16 (portOf text)
  | n => wrap n.width (atoiInt text)

variable (reader : NumberReader)

def tenth : ℚ := toDouble (1 / 10)

def eightTenths : ℚ := toDouble (8 / 10)

def Double.below (v : Double) (q : ℚ) : Bool :=
  match v with
  | .finite x => x.value < q
  | .infinity negative => negative
  | .nan => false

def Double.above (v : Double) (q : ℚ) : Bool :=
  match v with
  | .finite x => q < x.value
  | .infinity negative => !negative
  | .nan => false

/-- `%.2f`. -/
def Double.print : Double → Text
  | .finite x => printFixed 2 x
  | .infinity negative => (if negative then [minus] else []) ++ ascii "inf"
  | .nan => ascii "nan"

def normalizeLevel (buf : CString 16) : CString 16 :=
  let (v, stop) := reader.strtod buf.bytes
  let percent := strtol buf.bytes
  -- an older file has a whole percentage
  let legacy := point ∉ buf.bytes ∧ stop ≠ 0 ∧ stop = buf.bytes.length ∧ 1 ≤ percent ∧ percent ≤ 99
  let v := if legacy then .finite ⟨false, toDouble (percent / 100)⟩ else v
  let v := if v.below tenth then .finite ⟨false, tenth⟩ else v
  let v := if v.above eightTenths then .finite ⟨false, eightTenths⟩ else v
  let digits := stripZeros (v.print.take 15)
  let digits := if digits.getLast? = some point then digits.dropLast else digits
  cString 16 (Nat.succ_pos 15) (if digits = [] then ascii "0.1" else digits)

/-- `0.1f`. -/
def tenthSingle : ℚ := (toSingle ⟨false, 1 / 10⟩).magnitude

def aboveTenth : Single → Bool
  | .finite x _ => tenthSingle < x.value
  | .infinity negative => !negative
  | .nan _ => false

def takeReal (r : RealField) (text : Text) : Single :=
  let x := reader.atof text
  match r with
  | .levelAutostopVpp | .levelAutostopVppHsdaoh =>
    if aboveTenth x then x else Single.ofDouble ⟨false, 2⟩
  | _ => x

def readsTrue (found : Found) : Bool := found.bytes = ascii "true"

inductive LoadStep where
  | flag (f : FlagField)
  | number (n : NumberField)
  | real (r : RealField)
  | text (t : TextField)
  /-- A part of the file names: one that is too long leaves no output path. -/
  | namePart (t : TextField)
  | baseName
  | levelText
  | cxadcModes
  | waveformScale
  | localSaveEnabled
deriving DecidableEq

/-- `settings->f = ...` for a key that is found. -/
def whenFound (content : Text) (key : String) (use : Found → GuiSettings → GuiSettings)
    (s : GuiSettings) : Checked GuiSettings := do
  match ← findValue content (ascii key) with
  | none => return s
  | some found => return use found s

def loadFlag (content : Text) (f : FlagField) : GuiSettings → Checked GuiSettings :=
  whenFound content f.key fun found s => setFlag s f (readsTrue found)

def clearPath (s : GuiSettings) : GuiSettings := setText s .outputPath (emptyText .outputPath)

def storeText (t : TextField) (found : Found) (s : GuiSettings) : GuiSettings :=
  setText s t ((loadString t found).getD (emptyText t))

def storePart (t : TextField) (found : Found) (s : GuiSettings) : GuiSettings :=
  match loadString t found with
  | some text => setText s t text
  | none => clearPath (setText s t (emptyText t))

def storeBaseName (found : Found) (s : GuiSettings) : GuiSettings :=
  let s := storePart .outputBaseName found s
  setText s .outputBaseName (stripTimestamp (s.text .outputBaseName))

def storeLevel (found : Found) (s : GuiSettings) : GuiSettings :=
  let s := storeText .levelAutostopLevelStr found s
  setText s .levelAutostopLevelStr (normalizeLevel reader (s.text .levelAutostopLevelStr))

def setModes (s : GuiSettings) (a b : Bool) : GuiSettings :=
  setFlag (setFlag s .cxadcTenbitModeA a) .cxadcTenbitModeB b

def loadModes (content : Text) (s : GuiSettings) : Checked GuiSettings := do
  let both ← findValue content cxadcLegacyKey
  let a ← findValue content (ascii FlagField.cxadcTenbitModeA.key)
  let b ← findValue content (ascii FlagField.cxadcTenbitModeB.key)
  if both = none ∧ a = none ∧ b = none then return setModes s false false
  else
    let s := both.elim s fun found => setModes s (readsTrue found) (readsTrue found)
    let s := a.elim s fun found => setFlag s .cxadcTenbitModeA (readsTrue found)
    return b.elim s fun found => setFlag s .cxadcTenbitModeB (readsTrue found)

def storeNumber (n : NumberField) (found : Found) (s : GuiSettings) : GuiSettings :=
  setNumber s n (takeNumber n (s.number n) found.bytes)

def loadScale (content : Text) (s : GuiSettings) : Checked GuiSettings := do
  match ← findValue content (ascii NumberField.waveformScaleMode.key) with
  | some found => return storeNumber .waveformScaleMode found s
  | none =>
    whenFound content "waveform_scale_mv" (fun found s =>
      setNumber s .waveformScaleMode (wrap .int32 (if readsTrue found then 4 else 0))) s

def enabledText (found : Found) : Bool :=
  (ascii "true").isPrefixOf found.bytes || atoiInt found.bytes = 1

def LoadStep.run (content : Text) : LoadStep → GuiSettings → Checked GuiSettings
  | .flag f => loadFlag content f
  | .number n => whenFound content n.key (storeNumber n)
  | .real r => whenFound content r.key fun found s => setReal s r (takeReal reader r found.bytes)
  | .text t => whenFound content t.key (storeText t)
  | .namePart t => whenFound content t.key (storePart t)
  | .baseName => whenFound content TextField.outputBaseName.key storeBaseName
  | .levelText => whenFound content TextField.levelAutostopLevelStr.key (storeLevel reader)
  | .cxadcModes => loadModes content
  | .waveformScale => loadScale content
  | .localSaveEnabled =>
    whenFound content FlagField.monitorLocalSaveEnabled.key fun found s =>
      setFlag s .monitorLocalSaveEnabled (enabledText found)

/-- In the order of the source, up to the option for the DomesDay Duplicator. -/
def firstSteps : List LoadStep :=
  [.number .deviceIndex, .text .outputPath, .flag .autoNamesEnabled, .baseName,
    .flag .appendTimestampOnCaptureStart, .number .rfPreviewBudgetPercent, .number .rfBitsA,
    .number .rfBitsB, .cxadcModes, .namePart .rfTagA, .namePart .rfTagB, .text .outputFilenameA,
    .text .outputFilenameB, .flag .captureA, .flag .captureB, .flag .useFlac, .flag .flac12bit,
    .flag .flacVerification, .number .flacThreads, .flag .flacAffinityEnabled,
    .text .flacAffinityCpuList, .number .flacLevel, .flag .enableResampleA, .flag .enableResampleB,
    .real .resampleRateA, .real .resampleRateB, .number .resampleQualityA,
    .number .resampleQualityB, .real .resampleGainA]

def lastSteps : List LoadStep :=
  [.real .resampleGainB, .flag .overwriteFiles, .flag .showGrid, .real .timeScale,
    .real .amplitudeScale, .number .uiScalePercent, .waveformScale, .flag .discoverSimpleCapture,
    .flag .showCorePinningInSettings, .number .memoryBudgetGb, .number .updateLastCheckUnixS,
    .text .updateLastReleaseTag, .flag .updateAvailableCached, .flag .reduce8bitA,
    .flag .reduce8bitB, .text .audio4chFilename, .text .audio2ch12Filename,
    .text .audio2ch34Filename, .text .audio1ch1Filename, .text .audio1ch2Filename,
    .text .audio1ch3Filename, .text .audio1ch4Filename, .namePart .audio1ch1Label,
    .namePart .audio1ch2Label, .namePart .audio1ch3Label, .namePart .audio1ch4Label,
    .namePart .audioTag4ch, .namePart .audioTag2ch12, .namePart .audioTag2ch34,
    .flag .enableAudio4ch, .flag .enableAudio2ch12, .flag .enableAudio2ch34,
    .flag .audioMonitorPlayback, .flag .audioMonitorCh34, .flag .misrcMode,
    .flag .misrcV15V25AbSwap, .flag .stopOnDropout, .flag .levelAutostopEnabled, .levelText,
    .text .levelAutostopDurationStr, .real .levelAutostopVpp, .real .levelAutostopVppHsdaoh,
    .text .ingestProject, .text .ingestTapeId, .text .ingestTapeFormat, .text .ingestTapeSize,
    .text .ingestTapeSpeed, .text .ingestTapeCondition, .text .ingestOperator,
    .text .ingestLocation, .text .ingestNotes, .flag .enableAudio1ch1, .flag .enableAudio1ch2,
    .flag .enableAudio1ch3, .flag .enableAudio1ch4, .text .playbackFileA, .text .playbackFileB,
    .text .playbackAudioFile, .number .rtlsdrFreqHz, .number .rtlsdrGainMode,
    .number .rtlsdrGainTenthsDb, .number .rtlsdrSampleRateHz, .flag .rtlsdrAgc,
    .flag .rtlsdrOffsetCorr, .number .demodMode, .number .demodBandwidthHz, .real .demodSquelch,
    .real .demodVolume, .number .demodOutputPair, .number .videoSystem, .number .genTapeFormat,
    .number .netMode, .number .netServerPort, .text .netServerPortStr, .text .netClientHost,
    .number .netClientPort, .text .netClientPortStr, .localSaveEnabled,
    .text .monitorLocalSavePath]

def loadSteps (ddd : Bool) : List LoadStep :=
  firstSteps ++ (if ddd then [.number .dddDecimation] else []) ++ lastSteps

/-- `gui_settings_init_defaults`, of the integers. -/
def defaultNumber (cores : Nat) : NumberField → Int
  | .rfPreviewBudgetPercent => if 12 ≤ cores then 300 else if 6 ≤ cores then 200 else 100
  | .rfBitsA | .rfBitsB => 16
  | .resampleQualityA | .resampleQualityB => 3
  | .dddDecimation => 1
  | .flacLevel => 8
  | .flacThreads => min cores 8
  | .uiScalePercent => defaultPercent
  | .memoryBudgetGb => 4
  | .rtlsdrFreqHz => 100000000
  | .rtlsdrSampleRateHz => 2400000
  | .netServerPort | .netClientPort => 8080
  | _ => 0

def defaultText (desktop : Text) : TextField → Text
  | .outputPath => desktop
  | .outputBaseName => ascii "capture"
  | .outputFilenameA => ascii "rfA_capture.flac"
  | .outputFilenameB => ascii "rfB_capture.flac"
  | .auxFilename => ascii "aux_data.bin"
  | .rawFilename => ascii "raw_data.bin"
  | .audio4chFilename => ascii "quad_4ch.wav"
  | .audio2ch12Filename => ascii "stereo_ch1_ch2.wav"
  | .audio2ch34Filename => ascii "stereo_ch3_ch4.wav"
  | .audio1ch1Filename => ascii "audio_ch1.wav"
  | .audio1ch2Filename => ascii "audio_ch2.wav"
  | .audio1ch3Filename => ascii "audio_ch3.wav"
  | .audio1ch4Filename => ascii "audio_ch4.wav"
  | .levelAutostopLevelStr => ascii "0.2"
  | .levelAutostopDurationStr => ascii "30"
  | .netServerPortStr | .netClientPortStr => ascii "8080"
  | _ => []

def defaultReal : RealField → ℚ
  | .resampleRateA | .resampleRateB => 4000
  | .levelAutostopVpp | .levelAutostopVppHsdaoh => 2
  | .timeScale | .amplitudeScale | .demodVolume => 1
  | .resampleGainA | .resampleGainB | .demodSquelch => 0

def defaultFlags : List FlagField :=
  [.captureA, .captureB, .autoNamesEnabled, .showPeakLevels, .useFlac, .misrcMode, .showGrid,
    .rtlsdrAgc]

def initDefaults (desktop : Text) (cores : Nat) : GuiSettings where
  flag := fun f => defaultFlags.contains f
  number := fun n => wrap n.width (defaultNumber cores n)
  text := fun t => (copyString t.size (defaultText desktop t)).getD (emptyText t)
  real := fun r => Single.ofDouble ⟨false, defaultReal r⟩

def syncPort (t : TextField) (n : NumberField) (s : GuiSettings) : GuiSettings :=
  if (s.text t).bytes = [] then
    setText s t (cString t.size (size_pos t) (printInt (s.number n).val))
  else s

def settleBits (n : NumberField) (reduce : FlagField) (s : GuiSettings) : GuiSettings :=
  if (s.number n).val = 8 ∨ (s.number n).val = 12 ∨ (s.number n).val = 16 then s
  else
    setNumber s n (wrap n.width (if s.flag reduce then 8
      else if s.flag .useFlac && s.flag .flac12bit then 12 else 16))

def nameBase (s : GuiSettings) : GuiSettings :=
  if (s.text .outputBaseName).bytes = [] then
    setText s .outputBaseName (cString maxFilenameLen (by decide) (ascii "capture"))
  else s

/-- `derive` are the names of `gui_settings_refresh_auto_names`. -/
def finishLoad (derive : GuiSettings → GuiSettings) (s : GuiSettings) : GuiSettings :=
  let s := syncPort .netServerPortStr .netServerPort s
  let s := syncPort .netClientPortStr .netClientPort s
  let s := settleBits .rfBitsA .reduce8bitA s
  let s := settleBits .rfBitsB .reduce8bitB s
  let s := nameBase s
  if s.flag .autoNamesEnabled then derive s else s

def sizeLimit : Nat := 262144

def mark : Text := [0xef, 0xbb, 0xbf]

def withoutMark (file : Text) : Text := if mark.isPrefixOf file then file.drop 3 else file

/-- `gui_settings_load` of a file with these bytes. -/
def load (derive : GuiSettings → GuiSettings) (ddd : Bool) (defaults : GuiSettings) (file : Text) :
    Checked GuiSettings := do
  if file.length = 0 ∨ sizeLimit < file.length then return defaults
  else
    let content := withoutMark file
    let s ← (loadSteps ddd).foldlM (fun s step => step.run reader content s) defaults
    return finishLoad derive s

end MisrcGui.Settings.Loading
