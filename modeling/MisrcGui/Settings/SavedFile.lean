import MisrcGui.Net.MonitorSettings
import MisrcGui.Settings.Document

/-! The settings and the file that `gui_settings_save` writes of them. -/
namespace MisrcGui.Settings.SavedFile
open Library.NumberText Library.Percent Library.Terminated ValueText Document
open Net.MonitorSettings (CString Single)

def maxFilenameLen : Nat := 256

/-- The fields of type `bool`. -/
inductive FlagField where
  | autoNamesEnabled | appendTimestampOnCaptureStart | cxadcTenbitModeA | cxadcTenbitModeB
  | captureA | captureB | overwriteFiles | enableAudio4ch | enableAudio2ch12 | enableAudio2ch34
  | audioMonitorPlayback | audioMonitorCh34 | misrcMode | misrcV15V25AbSwap | stopOnDropout
  | levelAutostopEnabled | enableAudio1ch1 | enableAudio1ch2 | enableAudio1ch3 | enableAudio1ch4
  | padLowerBits | showPeakLevels | suppressClipA | suppressClipB | reduce8bitA | reduce8bitB
  | enableResampleA | enableResampleB | useFlac | flac12bit | flacVerification
  | flacAffinityEnabled | showGrid | discoverSimpleCapture | showCorePinningInSettings
  | updateAvailableCached | rtlsdrAgc | rtlsdrOffsetCorr | monitorLocalSaveEnabled
deriving DecidableEq

inductive NumberField where
  | deviceIndex | rfPreviewBudgetPercent | rfBitsA | rfBitsB | sampleCount | resampleQualityA
  | resampleQualityB | dddDecimation | flacLevel | flacThreads | waveformScaleMode | uiScalePercent
  | memoryBudgetGb | updateLastCheckUnixS | rtlsdrFreqHz | rtlsdrGainMode | rtlsdrGainTenthsDb
  | rtlsdrSampleRateHz | demodMode | demodBandwidthHz | demodOutputPair | videoSystem
  | genTapeFormat | netMode | netServerPort | netClientPort
deriving DecidableEq

inductive TextField where
  | outputPath | outputBaseName | rfTagA | rfTagB | outputFilenameA | outputFilenameB | captureTime
  | auxFilename | rawFilename | audio4chFilename | audio2ch12Filename | audio2ch34Filename
  | audio1ch1Filename | audio1ch2Filename | audio1ch3Filename | audio1ch4Filename | audio1ch1Label
  | audio1ch2Label | audio1ch3Label | audio1ch4Label | audioTag4ch | audioTag2ch12 | audioTag2ch34
  | levelAutostopLevelStr | levelAutostopDurationStr | ingestProject | ingestTapeId
  | ingestTapeFormat | ingestTapeSize | ingestTapeSpeed | ingestTapeCondition | ingestOperator
  | ingestLocation | ingestNotes | flacAffinityCpuList | updateLastReleaseTag | netServerPortStr
  | netClientHost | netClientPortStr | monitorLocalSavePath | playbackFileA | playbackFileB
  | playbackAudioFile
deriving DecidableEq

/-- The fields of type `float`. -/
inductive RealField where
  | levelAutostopVpp | levelAutostopVppHsdaoh | resampleRateA | resampleRateB | resampleGainA
  | resampleGainB | timeScale | amplitudeScale | demodSquelch | demodVolume
deriving DecidableEq

def FlagField.key : FlagField → String
  | .autoNamesEnabled => "auto_names_enabled"
  | .appendTimestampOnCaptureStart => "append_timestamp_on_capture_start"
  | .cxadcTenbitModeA => "cxadc_tenbit_mode_a"
  | .cxadcTenbitModeB => "cxadc_tenbit_mode_b"
  | .captureA => "capture_a"
  | .captureB => "capture_b"
  | .overwriteFiles => "overwrite_files"
  | .enableAudio4ch => "enable_audio_4ch"
  | .enableAudio2ch12 => "enable_audio_2ch_12"
  | .enableAudio2ch34 => "enable_audio_2ch_34"
  | .audioMonitorPlayback => "audio_monitor_playback"
  | .audioMonitorCh34 => "audio_monitor_ch34"
  | .misrcMode => "misrc_mode"
  | .misrcV15V25AbSwap => "misrc_v15_v25_ab_swap"
  | .stopOnDropout => "stop_on_dropout"
  | .levelAutostopEnabled => "level_autostop_enabled"
  | .enableAudio1ch1 => "enable_audio_1ch_1"
  | .enableAudio1ch2 => "enable_audio_1ch_2"
  | .enableAudio1ch3 => "enable_audio_1ch_3"
  | .enableAudio1ch4 => "enable_audio_1ch_4"
  | .padLowerBits => "pad_lower_bits"
  | .showPeakLevels => "show_peak_levels"
  | .suppressClipA => "suppress_clip_a"
  | .suppressClipB => "suppress_clip_b"
  | .reduce8bitA => "reduce_8bit_a"
  | .reduce8bitB => "reduce_8bit_b"
  | .enableResampleA => "enable_resample_a"
  | .enableResampleB => "enable_resample_b"
  | .useFlac => "use_flac"
  | .flac12bit => "flac_12bit"
  | .flacVerification => "flac_verification"
  | .flacAffinityEnabled => "flac_affinity_enabled"
  | .showGrid => "show_grid"
  | .discoverSimpleCapture => "discover_simple_capture"
  | .showCorePinningInSettings => "show_core_pinning_in_settings"
  | .updateAvailableCached => "update_available_cached"
  | .rtlsdrAgc => "rtlsdr_agc"
  | .rtlsdrOffsetCorr => "rtlsdr_offset_corr"
  | .monitorLocalSaveEnabled => "monitor_local_save_enabled"

def NumberField.key : NumberField → String
  | .deviceIndex => "device_index"
  | .rfPreviewBudgetPercent => "rf_preview_budget_percent"
  | .rfBitsA => "rf_bits_a"
  | .rfBitsB => "rf_bits_b"
  | .sampleCount => "sample_count"
  | .resampleQualityA => "resample_quality_a"
  | .resampleQualityB => "resample_quality_b"
  | .dddDecimation => "ddd_decimation"
  | .flacLevel => "flac_level"
  | .flacThreads => "flac_threads"
  | .waveformScaleMode => "waveform_scale_mode"
  | .uiScalePercent => "ui_scale_percent"
  | .memoryBudgetGb => "memory_budget_gb"
  | .updateLastCheckUnixS => "update_last_check_unix_s"
  | .rtlsdrFreqHz => "rtlsdr_freq_hz"
  | .rtlsdrGainMode => "rtlsdr_gain_mode"
  | .rtlsdrGainTenthsDb => "rtlsdr_gain_tenths_db"
  | .rtlsdrSampleRateHz => "rtlsdr_sample_rate_hz"
  | .demodMode => "demod_mode"
  | .demodBandwidthHz => "demod_bandwidth_hz"
  | .demodOutputPair => "demod_output_pair"
  | .videoSystem => "video_system"
  | .genTapeFormat => "gen_tape_format"
  | .netMode => "net_mode"
  | .netServerPort => "net_server_port"
  | .netClientPort => "net_client_port"

def TextField.key : TextField → String
  | .outputPath => "output_path"
  | .outputBaseName => "output_base_name"
  | .rfTagA => "rf_tag_a"
  | .rfTagB => "rf_tag_b"
  | .outputFilenameA => "output_filename_a"
  | .outputFilenameB => "output_filename_b"
  | .captureTime => "capture_time"
  | .auxFilename => "aux_filename"
  | .rawFilename => "raw_filename"
  | .audio4chFilename => "audio_4ch_filename"
  | .audio2ch12Filename => "audio_2ch_12_filename"
  | .audio2ch34Filename => "audio_2ch_34_filename"
  | .audio1ch1Filename => "audio_1ch_1_filename"
  | .audio1ch2Filename => "audio_1ch_2_filename"
  | .audio1ch3Filename => "audio_1ch_3_filename"
  | .audio1ch4Filename => "audio_1ch_4_filename"
  | .audio1ch1Label => "audio_1ch_1_label"
  | .audio1ch2Label => "audio_1ch_2_label"
  | .audio1ch3Label => "audio_1ch_3_label"
  | .audio1ch4Label => "audio_1ch_4_label"
  | .audioTag4ch => "audio_tag_4ch"
  | .audioTag2ch12 => "audio_tag_2ch_12"
  | .audioTag2ch34 => "audio_tag_2ch_34"
  | .levelAutostopLevelStr => "level_autostop_level_str"
  | .levelAutostopDurationStr => "level_autostop_duration_str"
  | .ingestProject => "ingest_project"
  | .ingestTapeId => "ingest_tape_id"
  | .ingestTapeFormat => "ingest_tape_format"
  | .ingestTapeSize => "ingest_tape_size"
  | .ingestTapeSpeed => "ingest_tape_speed"
  | .ingestTapeCondition => "ingest_tape_condition"
  | .ingestOperator => "ingest_operator"
  | .ingestLocation => "ingest_location"
  | .ingestNotes => "ingest_notes"
  | .flacAffinityCpuList => "flac_affinity_cpu_list"
  | .updateLastReleaseTag => "update_last_release_tag"
  | .netServerPortStr => "net_server_port_str"
  | .netClientHost => "net_client_host"
  | .netClientPortStr => "net_client_port_str"
  | .monitorLocalSavePath => "monitor_local_save_path"
  | .playbackFileA => "playback_file_a"
  | .playbackFileB => "playback_file_b"
  | .playbackAudioFile => "playback_audio_file"

def RealField.key : RealField → String
  | .levelAutostopVpp => "level_autostop_vpp"
  | .levelAutostopVppHsdaoh => "level_autostop_vpp_hsdaoh"
  | .resampleRateA => "resample_rate_a"
  | .resampleRateB => "resample_rate_b"
  | .resampleGainA => "resample_gain_a"
  | .resampleGainB => "resample_gain_b"
  | .timeScale => "time_scale"
  | .amplitudeScale => "amplitude_scale"
  | .demodSquelch => "demod_squelch"
  | .demodVolume => "demod_volume"

inductive Width where
  | int32
  | uint8
  | uint16
  | uint32
  | uint64
deriving DecidableEq

def Width.low : Width → Int
  | .int32 => -2 ^ 31
  | _ => 0

def Width.bound : Width → Int
  | .int32 => 2 ^ 31
  | .uint8 => 2 ^ 8
  | .uint16 => 2 ^ 16
  | .uint32 => 2 ^ 32
  | .uint64 => 2 ^ 64

abbrev Width.Value (width : Width) : Type := {z : Int // width.low ≤ z ∧ z < width.bound}

def NumberField.width : NumberField → Width
  | .deviceIndex | .rfPreviewBudgetPercent | .resampleQualityA | .resampleQualityB | .flacLevel
  | .flacThreads | .waveformScaleMode | .uiScalePercent | .rtlsdrGainMode | .rtlsdrGainTenthsDb
  | .demodMode | .demodBandwidthHz | .demodOutputPair | .videoSystem | .genTapeFormat | .netMode =>
    .int32
  | .rfBitsA | .rfBitsB | .dddDecimation =>
    .uint8
  | .sampleCount | .updateLastCheckUnixS | .rtlsdrFreqHz =>
    .uint64
  | .memoryBudgetGb | .rtlsdrSampleRateHz =>
    .uint32
  | .netServerPort | .netClientPort =>
    .uint16

def TextField.size : TextField → Nat
  | .outputPath | .monitorLocalSavePath | .playbackFileA | .playbackFileB | .playbackAudioFile =>
    filePathMax
  | .outputBaseName | .outputFilenameA | .outputFilenameB | .auxFilename | .rawFilename
  | .audio4chFilename | .audio2ch12Filename | .audio2ch34Filename | .audio1ch1Filename
  | .audio1ch2Filename | .audio1ch3Filename | .audio1ch4Filename | .ingestNotes =>
    maxFilenameLen
  | .rfTagA | .rfTagB | .captureTime | .audio1ch1Label | .audio1ch2Label | .audio1ch3Label
  | .audio1ch4Label | .audioTag4ch | .audioTag2ch12 | .audioTag2ch34 =>
    32
  | .levelAutostopLevelStr | .levelAutostopDurationStr | .netServerPortStr | .netClientPortStr =>
    16
  | .ingestProject | .ingestTapeId | .ingestTapeFormat | .ingestTapeSize | .ingestTapeSpeed
  | .ingestTapeCondition | .ingestOperator | .ingestLocation | .netClientHost =>
    128
  | .flacAffinityCpuList | .updateLastReleaseTag =>
    64

def RealField.digits : RealField → Nat
  | .levelAutostopVpp | .levelAutostopVppHsdaoh | .demodSquelch | .demodVolume =>
    3
  | .resampleRateA | .resampleRateB | .resampleGainA | .resampleGainB =>
    1
  | .timeScale | .amplitudeScale =>
    2

/-- `gui_settings_t`, the fields that the file has. -/
structure GuiSettings where
  flag : FlagField → Bool
  number : (n : NumberField) → n.width.Value
  text : (t : TextField) → CString t.size
  real : RealField → Single

inductive Entry where
  | flag (f : FlagField)
  | number (n : NumberField)
  | text (t : TextField)
  | real (r : RealField)
deriving DecidableEq

def Entry.key : Entry → String
  | .flag f => f.key
  | .number n => n.key
  | .text t => t.key
  | .real r => r.key

def firstEntries : List Entry :=
  [.number .deviceIndex, .text .outputPath, .flag .autoNamesEnabled, .text .outputBaseName,
    .flag .appendTimestampOnCaptureStart, .number .rfPreviewBudgetPercent, .number .rfBitsA,
    .number .rfBitsB, .flag .cxadcTenbitModeA, .flag .cxadcTenbitModeB, .text .rfTagA,
    .text .rfTagB, .text .outputFilenameA, .text .outputFilenameB, .flag .captureA,
    .flag .captureB, .number .sampleCount, .text .captureTime, .flag .overwriteFiles,
    .text .auxFilename, .text .rawFilename, .text .audio4chFilename, .text .audio2ch12Filename,
    .text .audio2ch34Filename, .text .audio1ch1Filename, .text .audio1ch2Filename,
    .text .audio1ch3Filename, .text .audio1ch4Filename, .text .audio1ch1Label,
    .text .audio1ch2Label, .text .audio1ch3Label, .text .audio1ch4Label, .text .audioTag4ch,
    .text .audioTag2ch12, .text .audioTag2ch34, .flag .enableAudio4ch, .flag .enableAudio2ch12,
    .flag .enableAudio2ch34, .flag .audioMonitorPlayback, .flag .audioMonitorCh34,
    .flag .misrcMode, .flag .misrcV15V25AbSwap, .flag .stopOnDropout, .flag .levelAutostopEnabled,
    .text .levelAutostopLevelStr, .text .levelAutostopDurationStr, .real .levelAutostopVpp,
    .real .levelAutostopVppHsdaoh, .text .ingestProject, .text .ingestTapeId,
    .text .ingestTapeFormat, .text .ingestTapeSize, .text .ingestTapeSpeed,
    .text .ingestTapeCondition, .text .ingestOperator, .text .ingestLocation, .text .ingestNotes,
    .flag .enableAudio1ch1, .flag .enableAudio1ch2, .flag .enableAudio1ch3, .flag .enableAudio1ch4,
    .flag .padLowerBits, .flag .showPeakLevels, .flag .suppressClipA, .flag .suppressClipB,
    .flag .reduce8bitA, .flag .reduce8bitB, .flag .enableResampleA, .flag .enableResampleB,
    .real .resampleRateA, .real .resampleRateB, .number .resampleQualityA,
    .number .resampleQualityB, .real .resampleGainA, .real .resampleGainB]

def lastEntries : List Entry :=
  [.flag .useFlac, .flag .flac12bit, .number .flacLevel, .flag .flacVerification,
    .number .flacThreads, .flag .flacAffinityEnabled, .text .flacAffinityCpuList,
    .number .waveformScaleMode, .flag .enableResampleA, .flag .enableResampleB,
    .real .resampleRateA, .real .resampleRateB, .number .resampleQualityA,
    .number .resampleQualityB, .real .resampleGainA, .real .resampleGainB, .flag .overwriteFiles,
    .flag .showGrid, .real .timeScale, .real .amplitudeScale, .number .uiScalePercent,
    .flag .discoverSimpleCapture, .flag .showCorePinningInSettings, .number .memoryBudgetGb,
    .number .updateLastCheckUnixS, .text .updateLastReleaseTag, .flag .updateAvailableCached,
    .number .rtlsdrFreqHz, .number .rtlsdrGainMode, .number .rtlsdrGainTenthsDb,
    .number .rtlsdrSampleRateHz, .flag .rtlsdrAgc, .flag .rtlsdrOffsetCorr, .number .demodMode,
    .number .demodBandwidthHz, .real .demodSquelch, .real .demodVolume, .number .demodOutputPair,
    .number .videoSystem, .number .genTapeFormat, .number .netMode, .number .netServerPort,
    .text .netServerPortStr, .text .netClientHost, .number .netClientPort, .text .netClientPortStr,
    .text .monitorLocalSavePath, .flag .monitorLocalSaveEnabled, .text .playbackFileA,
    .text .playbackFileB, .text .playbackAudioFile]

/-- The order of the file; `ddd` is `ENABLE_DDD`. Some fields have two lines. -/
def saveOrder (ddd : Bool) : List Entry :=
  firstEntries ++ (if ddd then [.number .dddDecimation] else []) ++ lastEntries

def printReal (digits : Nat) : Single → Text
  | .finite x _ => printFixed digits x
  | .infinity negative => (if negative then [minus] else []) ++ ascii "inf"
  | .nan negative => (if negative then [minus] else []) ++ ascii "nan"

def Entry.written (s : GuiSettings) : Entry → Written
  | .flag f => .literal (ascii (if s.flag f then "true" else "false"))
  | .number n => .literal (printInt (s.number n).val)
  | .text t => .string (s.text t).bytes
  | .real r => .literal (printReal r.digits (s.real r))

def Entry.member (s : GuiSettings) (e : Entry) : Member := ⟨ascii e.key, e.written s⟩

/-- The fields of `gui_monitor_settings_copy` that the file has. -/
def monitored : List Entry :=
  [.flag .captureA, .flag .captureB, .flag .autoNamesEnabled,
    .flag .appendTimestampOnCaptureStart, .flag .overwriteFiles, .flag .stopOnDropout,
    .flag .useFlac, .flag .flacVerification, .flag .enableResampleA, .flag .enableResampleB,
    .flag .enableAudio4ch, .flag .enableAudio2ch12, .flag .enableAudio2ch34, .flag .misrcMode,
    .flag .misrcV15V25AbSwap, .flag .audioMonitorPlayback, .flag .audioMonitorCh34,
    .flag .levelAutostopEnabled, .flag .enableAudio1ch1, .flag .enableAudio1ch2,
    .flag .enableAudio1ch3, .flag .enableAudio1ch4, .number .rfBitsA, .number .rfBitsB,
    .number .flacLevel, .number .flacThreads, .number .resampleQualityA, .number .resampleQualityB,
    .number .rfPreviewBudgetPercent, .real .resampleRateA, .real .resampleRateB,
    .real .resampleGainA, .real .resampleGainB, .real .levelAutostopVpp,
    .real .levelAutostopVppHsdaoh, .text .outputBaseName, .text .outputFilenameA,
    .text .outputFilenameB, .text .captureTime, .text .audio4chFilename, .text .audio2ch12Filename,
    .text .audio2ch34Filename, .text .levelAutostopLevelStr, .text .levelAutostopDurationStr,
    .text .ingestProject, .text .ingestTapeId, .text .ingestTapeFormat, .text .ingestTapeSize,
    .text .ingestTapeSpeed, .text .ingestTapeCondition, .text .ingestOperator,
    .text .ingestLocation, .text .ingestNotes, .text .rfTagA, .text .rfTagB, .text .audio1ch1Label,
    .text .audio1ch1Filename, .text .audio1ch2Label, .text .audio1ch2Filename,
    .text .audio1ch3Label, .text .audio1ch3Filename, .text .audio1ch4Label,
    .text .audio1ch4Filename, .text .audioTag4ch, .text .audioTag2ch12, .text .audioTag2ch34]

def copyMonitored (dst src : GuiSettings) : GuiSettings where
  flag := fun f => if .flag f ∈ monitored then src.flag f else dst.flag f
  number := fun n => if .number n ∈ monitored then src.number n else dst.number n
  text := fun t => if .text t ∈ monitored then src.text t else dst.text t
  real := fun r => if .real r ∈ monitored then src.real r else dst.real r

/-- What is written: a monitor client keeps the local profile, when there is one. -/
def persisted (profile : Option GuiSettings) (s : GuiSettings) : GuiSettings :=
  match profile with
  | some profile => if (s.number .netMode).val = 4 then copyMonitored s profile else s
  | none => s

/-- `gui_settings_save`. -/
def savedText (ddd : Bool) (profile : Option GuiSettings) (s : GuiSettings) : Text :=
  document (version :: (saveOrder ddd).map (Entry.member (persisted profile s)))

def cxadcLegacyKey : Text := ascii "cxadc_tenbit_mode"

def keyCode (e : Entry) : Nat := (ascii e.key).foldl (fun n c => 256 * n + c.toNat) 1

def Entry.spelling : (e : Entry) → Spelling e.key
  | .flag f => by cases f <;> exact ⟨_, rfl⟩
  | .number n => by cases n <;> exact ⟨_, rfl⟩
  | .text t => by cases t <;> exact ⟨_, rfl⟩
  | .real r => by cases r <;> exact ⟨_, rfl⟩

theorem keyCode_eq (e : Entry) :
    keyCode e = e.spelling.bytes.foldl (fun n c => 256 * n + c.toNat) 1 := by
  rw [keyCode, e.spelling.ascii_eq]

/-- The facts about the keys, evaluated on their spellings. -/
theorem spellings_checked :
    (∀ e ∈ saveOrder true, (e.spelling.bytes.all fun c => c != 0 && c != quote) ∧
      e.spelling.bytes ≠ versionKey ∧ e.spelling.bytes ≠ cxadcLegacyKey) ∧
    (saveOrder true).Pairwise fun e other =>
      e.spelling.bytes.foldl (fun n c => 256 * n + c.toNat) 1 =
        other.spelling.bytes.foldl (fun n c => 256 * n + c.toNat) 1 → e = other := by
  decide +kernel

theorem keys_checked :
    (∀ e ∈ saveOrder true, ((ascii e.key).all fun c => c != 0 && c != quote) ∧
      ascii e.key ≠ versionKey ∧ ascii e.key ≠ cxadcLegacyKey) ∧
    ∀ e ∈ saveOrder true, ∀ other ∈ saveOrder true, keyCode e = keyCode other → e = other := by
  refine ⟨fun e listed => ?_, fun e here other there same => ?_⟩
  · rw [e.spelling.ascii_eq]
    exact spellings_checked.1 e listed
  · rw [keyCode_eq, keyCode_eq] at same
    refine spellings_checked.2.forall_of_forall_of_flip (fun _ _ _ => rfl) ?_ here there same
    exact spellings_checked.2.imp fun apart same => (apart (Eq.symm same)).symm

theorem saveOrder_subset (ddd : Bool) : saveOrder ddd ⊆ saveOrder true := by
  cases ddd with
  | true => exact List.Subset.refl _
  | false =>
    intro e listed
    rw [saveOrder, List.mem_append, List.mem_append] at listed ⊢
    rcases listed with (first | none) | last
    · exact .inl (.inl first)
    · exact absurd none nofun
    · exact .inr last

theorem key_injective {ddd : Bool} {e other : Entry} (here : e ∈ saveOrder ddd)
    (there : other ∈ saveOrder ddd) (same : ascii e.key = ascii other.key) : e = other := by
  apply keys_checked.2 e (saveOrder_subset ddd here) other (saveOrder_subset ddd there)
  rw [keyCode, keyCode, same]

theorem plainByte_numeral {c : UInt8} (numeral : isNumeral c) : plainByte c := by
  simp only [isNumeral, Bool.or_eq_true, beq_iff_eq] at numeral
  rcases numeral with (((digit | rfl) | rfl) | rfl) | rfl
  · have bounds := isDigit_bounds digit
    have other (d : UInt8) (out : d.toNat < 48 ∨ 57 < d.toNat) : (c == d) = false := by
      rw [beq_eq_false_iff_ne]
      rintro rfl
      omega
    simp only [plainByte, isWhite, isBlank, bne, other 0 (by decide), other comma (by decide),
      other closeBrace (by decide), other quote (by decide), other space (by decide),
      other tab (by decide), other carriageReturn (by decide), other newline (by decide)]
    rfl
  · decide
  · decide
  · decide
  · decide

theorem all_plain {text : Text} (numeral : ∀ c ∈ text, isNumeral c) : text.all plainByte :=
  List.all_eq_true.mpr fun c listed => plainByte_numeral (numeral c listed)

theorem length_number {width : Width} (z : width.Value) : (printInt z.val).length ≤ 21 := by
  apply length_printInt (by decide)
  obtain ⟨z, low, high⟩ := z
  cases width <;> simp only [Width.low, Width.bound] at low high <;> dsimp only <;> omega

theorem printInt_sound (width : Width) (z : width.Value) :
    Written.Sound (.literal (printInt z.val)) := by
  have filled : printInt z.val ≠ [] := by
    rw [printInt]
    exact List.append_ne_nil_of_right_ne_nil _ (decimal_ne_nil _)
  refine ⟨filled, all_plain (printInt_isNumeral z.val), ?_⟩
  exact lt_of_le_of_lt (length_number z) (by decide)

theorem printReal_sound (r : RealField) (x : Single) :
    Written.Sound (.literal (printReal r.digits x)) := by
  cases x with
  | infinity negative =>
    show Written.Sound (.literal ((if negative then [minus] else []) ++ ascii "inf"))
    cases negative <;> exact ⟨by decide, by decide, by decide⟩
  | nan negative =>
    show Written.Sound (.literal ((if negative then [minus] else []) ++ ascii "nan"))
    cases negative <;> exact ⟨by decide, by decide, by decide⟩
  | finite x inside =>
    have digits : 0 < r.digits ∧ r.digits ≤ 3 := by cases r <;> decide
    have small : x.magnitude < 2 ^ 128 := by
      rcases inside with zero | ⟨-, high⟩
      · rw [zero]
        positivity
      · exact high
    have scale : (10 : ℚ) ^ r.digits ≤ 10 ^ 3 := pow_le_pow_right₀ (by norm_num) digits.2
    have bound : x.magnitude * 10 ^ r.digits + 1 < 10 ^ 42 := by
      have product : x.magnitude * 10 ^ r.digits ≤ 2 ^ 128 * 10 ^ 3 :=
        mul_le_mul (le_of_lt small) scale (by positivity) (by positivity)
      exact lt_of_le_of_lt (add_le_add_left product 1) (by norm_num)
    have length := length_printFixed digits.1 (by decide) bound
    have filled : printFixed r.digits x ≠ [] := by
      simp only [printFixed]
      exact List.append_ne_nil_of_right_ne_nil _ (List.cons_ne_nil _ _)
    refine ⟨filled, all_plain (printFixed_isNumeral r.digits x), ?_⟩
    show (printFixed r.digits x).length < filePathMax
    unfold filePathMax
    omega

theorem size_le (t : TextField) : t.size ≤ filePathMax := by
  cases t <;> decide

theorem member_sound (s : GuiSettings) {ddd : Bool} {e : Entry} (listed : e ∈ saveOrder ddd) :
    (e.member s).Sound where
  key := (keys_checked.1 e (saveOrder_subset ddd listed)).1
  written := by
    cases e with
    | flag f =>
      show Written.Sound (.literal (ascii (if s.flag f then "true" else "false")))
      cases s.flag f <;> exact ⟨by decide, by decide, by decide⟩
    | number n => exact printInt_sound n.width (s.number n)
    | text t => exact ⟨(s.text t).terminated, lt_of_lt_of_le (s.text t).fits (size_le t)⟩
    | real r => exact printReal_sound r (s.real r)

theorem find_member {ddd : Bool} (s : GuiSettings) {e : Entry} (listed : e ∈ saveOrder ddd) :
    (version :: (saveOrder ddd).map (Entry.member s)).find? (fun m => m.key = ascii e.key) =
      some (e.member s) := by
  have other : version.key ≠ ascii e.key :=
    Ne.symm (keys_checked.1 e (saveOrder_subset ddd listed)).2.1
  rw [List.find?_cons, decide_eq_false other, List.find?_map]
  cases found : (saveOrder ddd).find?
      ((fun m : Member => m.key = ascii e.key) ∘ Entry.member s) with
  | none =>
    exact absurd (decide_eq_true rfl) (List.find?_eq_none.mp found e listed)
  | some first =>
    have here := List.mem_of_find?_eq_some found
    have kept := List.find?_some found
    have same : ascii first.key = ascii e.key := of_decide_eq_true kept
    rw [key_injective here listed same]
    rfl

theorem members_sound (s : GuiSettings) (ddd : Bool) :
    ∀ m ∈ (saveOrder ddd).map (Entry.member s), m.Sound := by
  intro m inside
  obtain ⟨e, listed, rfl⟩ := List.mem_map.mp inside
  exact member_sound s listed

theorem findValue_saved (profile : Option GuiSettings) (s : GuiSettings) {ddd : Bool} {e : Entry}
    (listed : e ∈ saveOrder ddd) : findValue (savedText ddd profile s) (ascii e.key) =
      .ok (some ⟨(e.written (persisted profile s)).bytes, false⟩) := by
  rw [savedText, findValue_document (members_sound _ ddd), find_member _ listed]
  rfl

theorem findValue_legacy (profile : Option GuiSettings) (s : GuiSettings) (ddd : Bool) :
    findValue (savedText ddd profile s) cxadcLegacyKey = .ok none := by
  have absent : (version :: (saveOrder ddd).map (Entry.member (persisted profile s))).find?
      (fun m => m.key = cxadcLegacyKey) = none := by
    rw [List.find?_eq_none]
    intro m inside found
    have same : m.key = cxadcLegacyKey := of_decide_eq_true found
    rcases List.mem_cons.mp inside with rfl | inside
    · exact absurd same (by decide +kernel)
    · obtain ⟨e, listed, rfl⟩ := List.mem_map.mp inside
      exact (keys_checked.1 e (saveOrder_subset ddd listed)).2.2 same
  rw [savedText, findValue_document (members_sound _ ddd), absent]
  rfl

/-- Every lookup finds what was written under its key, whatever the strings hold; and on any text
a lookup ends, reads up to the terminator at most and keeps to its buffer. -/
theorem settings_survive (ddd : Bool) (profile : Option GuiSettings) (s : GuiSettings) :
    (∀ e ∈ saveOrder ddd, findValue (savedText ddd profile s) (ascii e.key) =
        .ok (some ⟨(e.written (persisted profile s)).bytes, false⟩)) ∧
      ∀ content key, ∃ r, findValue content key = .ok r ∧ Fits r :=
  ⟨fun _ listed => findValue_saved profile s listed, findValue_ok⟩

end MisrcGui.Settings.SavedFile
