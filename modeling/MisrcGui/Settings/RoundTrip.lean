import MisrcGui.Settings.Restored

/-! `gui_settings_save` followed by `gui_settings_load`. -/
namespace MisrcGui.Settings.RoundTrip
open Library.NumberText Library.Percent Library.Terminated ValueText Document SavedFile Loading
open Restored
open Net.MonitorSettings (CString Single)

variable {p s : GuiSettings} {reader : NumberReader} {ddd : Bool}

theorem length_escapeByte (c : UInt8) : (Document.escapeByte c).length ≤ 6 := by
  unfold Document.escapeByte
  split
  · exact (by decide : 2 ≤ 6)
  · split
    · exact Nat.le_refl 6
    · exact (by decide : 1 ≤ 6)

theorem length_escape (value : Text) : (escape value).length ≤ 6 * value.length := by
  induction value with
  | nil => exact Nat.le_refl 0
  | cons c rest ih =>
    have one := length_escapeByte c
    have step : escape (c :: rest) = Document.escapeByte c ++ escape rest := List.flatMap_cons
    rw [step, List.length_append, List.length_cons]
    omega

def roomFor : Entry → Nat
  | .flag _ => 5
  | .number _ => 21
  | .text t => 6 * t.size + 2
  | .real _ => filePathMax

theorem length_written (s : GuiSettings) (e : Entry) : (e.written s).text.length ≤ roomFor e := by
  cases e with
  | flag f =>
    show (ascii (if s.flag f then "true" else "false")).length ≤ 5
    cases s.flag f <;> decide
  | number n => exact length_number (s.number n)
  | text t =>
    have text := length_escape (s.text t).bytes
    have fits := (s.text t).fits
    show (quote :: (escape (s.text t).bytes ++ [quote])).length ≤ 6 * t.size + 2
    rw [List.length_cons, List.length_append, List.length_singleton]
    omega
  | real r => exact Nat.le_of_lt (printReal_sound r (s.real r)).2.2

def roomForLine (e : Entry) : Nat := (ascii e.key).length + roomFor e + 8

theorem length_line (s : GuiSettings) (e : Entry) (comma : Bool) :
    ((e.member s).line comma).length ≤ roomForLine e := by
  have value := length_written s e
  have mark : (ascii (if comma then ",\n" else "\n")).length ≤ 2 := by
    cases comma <;> decide
  have opened : (ascii "  \"").length = 3 := by decide
  have closed : (ascii "\": ").length = 3 := by decide
  simp only [Member.line, Member.front, Entry.member, List.length_append, roomForLine]
  omega

theorem length_membersText (s : GuiSettings) (entries : List Entry) :
    (membersText (entries.map (Entry.member s))).length ≤ (entries.map roomForLine).sum := by
  induction entries with
  | nil => exact Nat.le_refl 0
  | cons e rest ih =>
    rw [List.map_cons, List.map_cons, List.sum_cons]
    cases rest with
    | nil => exact le_trans (length_line s e false) (Nat.le_add_right _ _)
    | cons next more =>
      have first := length_line s e true
      have step : membersText (e.member s :: (next :: more).map (Entry.member s)) =
          (e.member s).line true ++ membersText ((next :: more).map (Entry.member s)) := rfl
      rw [step, List.length_append]
      omega

theorem rooms_checked : ∀ ddd : Bool,
    ((saveOrder ddd).map roomForLine).sum + 100 ≤ sizeLimit := by
  have spelled : roomForLine = fun e => e.spelling.chars.length + roomFor e + 8 := by
    funext e
    rw [roomForLine, e.spelling.ascii_eq, Spelling.bytes, List.length_map]
  rw [spelled]
  decide +kernel

theorem length_savedText (ddd : Bool) (profile : Option GuiSettings) (s : GuiSettings) :
    (savedText ddd profile s).length ≤ sizeLimit := by
  have rooms := rooms_checked ddd
  have members := length_membersText (persisted profile s) (saveOrder ddd)
  have first : (version.line true).length ≤ 40 := by decide
  have opened : (ascii "\x7b\n").length = 2 := by decide
  have closed : (ascii "\x7d\n").length = 2 := by decide
  obtain ⟨m, rest, shape⟩ : ∃ m rest, (saveOrder ddd).map (Entry.member (persisted profile s)) =
      m :: rest := ⟨_, _, rfl⟩
  have step : membersText (version :: m :: rest) = version.line true ++ membersText (m :: rest) :=
    rfl
  rw [shape] at members
  rw [savedText, document, shape, step, List.length_append, List.length_append, List.length_append]
  omega

theorem savedText_ne_nil (ddd : Bool) (profile : Option GuiSettings) (s : GuiSettings) :
    (savedText ddd profile s).length ≠ 0 := nofun

theorem withoutMark_saved (ddd : Bool) (profile : Option GuiSettings) (s : GuiSettings) :
    withoutMark (savedText ddd profile s) = savedText ddd profile s :=
  if_neg Bool.false_ne_true

theorem holds_saved (ddd : Bool) (profile : Option GuiSettings) (s : GuiSettings) :
    Holds (savedText ddd profile s) ddd (persisted profile s) where
  written := fun _ listed => findValue_saved profile s listed
  legacy := findValue_legacy profile s ddd

def syncPorts (s : GuiSettings) : GuiSettings :=
  syncPort .netClientPortStr .netClientPort (syncPort .netServerPortStr .netServerPort s)

theorem setText_agree {t : TextField} (text : CString t.size) {e : Entry} (same : Agree p s e) :
    Agree (setText p t text) (setText s t text) e := by
  by_cases here : e = .text t
  · subst here
    exact (setText_text t text).trans (setText_text t text).symm
  · cases e with
    | flag f => exact same
    | number n => exact same
    | text u =>
      have differ : u ≠ t := fun same => here (same ▸ rfl)
      have kept (q : GuiSettings) : (setText q t text).text u = q.text u :=
        Function.update_of_ne differ _ _
      exact (kept s).trans (same.trans (kept p).symm)
    | real r => trivial

theorem syncPort_agree {t : TextField} {n : NumberField} (text : Agree p s (.text t))
    (number : Agree p s (.number n)) {e : Entry} (same : Agree p s e) :
    Agree (syncPort t n p) (syncPort t n s) e := by
  have sameText : s.text t = p.text t := text
  have sameNumber : s.number n = p.number n := number
  rw [syncPort, syncPort, sameText, sameNumber]
  by_cases none : (p.text t).bytes = []
  · rw [if_pos none, if_pos none]
    exact setText_agree _ same
  · rw [if_neg none, if_neg none]
    exact same

theorem syncPort_flag (t : TextField) (n : NumberField) : (syncPort t n s).flag = s.flag := by
  unfold syncPort
  split <;> rfl

theorem syncPort_number (t : TextField) (n : NumberField) :
    (syncPort t n s).number = s.number := by
  unfold syncPort
  split <;> rfl

theorem syncPort_other {t u : TextField} (differ : u ≠ t) (n : NumberField) :
    (syncPort t n s).text u = s.text u := by
  unfold syncPort
  split
  · exact Function.update_of_ne differ _ _
  · rfl

theorem syncPorts_flag : (syncPorts s).flag = s.flag :=
  (syncPort_flag _ _).trans (syncPort_flag _ _)

theorem syncPorts_number : (syncPorts s).number = s.number :=
  (syncPort_number _ _).trans (syncPort_number _ _)

theorem syncPorts_base : (syncPorts s).text .outputBaseName = s.text .outputBaseName :=
  (syncPort_other (by decide) _).trans (syncPort_other (by decide) _)

structure PortsAgree (p s : GuiSettings) : Prop where
  serverText : Agree p s (.text .netServerPortStr)
  server : Agree p s (.number .netServerPort)
  clientText : Agree p s (.text .netClientPortStr)
  client : Agree p s (.number .netClientPort)

theorem syncPorts_agree (ports : PortsAgree p s) {e : Entry} (same : Agree p s e) :
    Agree (syncPorts p) (syncPorts s) e := by
  have keeps {e : Entry} (same : Agree p s e) :
      Agree (syncPort .netServerPortStr .netServerPort p)
        (syncPort .netServerPortStr .netServerPort s) e :=
    syncPort_agree ports.serverText ports.server same
  exact syncPort_agree (keeps ports.clientText) (keeps ports.client) (keeps same)

theorem settleBits_settled {n : NumberField} {reduce : FlagField}
    (depth : (s.number n).val = 8 ∨ (s.number n).val = 12 ∨ (s.number n).val = 16) :
    settleBits n reduce s = s := if_pos depth

structure Settled (s : GuiSettings) : Prop where
  bitsA : InRange (s.number .rfBitsA).val .rfBitsA
  bitsB : InRange (s.number .rfBitsB).val .rfBitsB
  named : (s.text .outputBaseName).bytes ≠ []
  manual : s.flag .autoNamesEnabled = false

theorem finishLoad_settled (settled : Settled s) (derive : GuiSettings → GuiSettings) :
    finishLoad derive s = syncPorts s := by
  have depthA : InRange ((syncPorts s).number .rfBitsA).val .rfBitsA := by
    rw [syncPorts_number]
    exact settled.bitsA
  have depthB : InRange ((syncPorts s).number .rfBitsB).val .rfBitsB := by
    rw [syncPorts_number]
    exact settled.bitsB
  have named : ((syncPorts s).text .outputBaseName).bytes ≠ [] := by
    rw [syncPorts_base]
    exact settled.named
  have manual : ¬ (syncPorts s).flag .autoNamesEnabled = true := by
    rw [syncPorts_flag, settled.manual]
    exact Bool.false_ne_true
  have steps : nameBase (settleBits .rfBitsB .reduce8bitB
      (settleBits .rfBitsA .reduce8bitA (syncPorts s))) = syncPorts s := by
    rw [settleBits_settled depthA, settleBits_settled depthB]
    exact if_neg named
  have last {t : GuiSettings} (same : t = syncPorts s) :
      (if t.flag .autoNamesEnabled then derive t else t) = syncPorts s := by
    rw [same]
    exact if_neg manual
  exact last steps

theorem kept_checked : ∀ ddd : Bool, ∀ e ∈ [Entry.number .rfBitsA, .number .rfBitsB,
    .text .outputBaseName, .flag .autoNamesEnabled, .text .netServerPortStr,
    .number .netServerPort, .text .netClientPortStr, .number .netClientPort],
    e ∈ saveOrder ddd ∧ e ∉ neverRead := by
  decide +kernel

section
variable {defaults last : GuiSettings}

theorem sets_back (sets : Sets p defaults last ((loadSteps ddd).flatMap fieldsOf)) {e : Entry}
    (listed : e ∈ saveOrder ddd) (read : e ∉ neverRead) : Agree p last e :=
  sets.set e (((steps_checked ddd).2.1 e listed).resolve_left read)

theorem sets_settled (sets : Sets p defaults last ((loadSteps ddd).flatMap fieldsOf))
    (accepted : Accepted reader ddd p) (manual : p.flag .autoNamesEnabled = false)
    (named : (p.text .outputBaseName).bytes ≠ []) : Settled last := by
  have kept {e : Entry} (listed : e ∈ saveOrder ddd ∧ e ∉ neverRead) : Agree p last e :=
    sets_back sets listed.1 listed.2
  have bitsA := kept_checked ddd (.number .rfBitsA) (by decide)
  have bitsB := kept_checked ddd (.number .rfBitsB) (by decide)
  have sameA : last.number .rfBitsA = p.number .rfBitsA := kept bitsA
  have sameB : last.number .rfBitsB = p.number .rfBitsB := kept bitsB
  have sameBase : last.text .outputBaseName = p.text .outputBaseName :=
    kept (kept_checked ddd (.text .outputBaseName) (by decide))
  have sameAuto : last.flag .autoNamesEnabled = p.flag .autoNamesEnabled :=
    kept (kept_checked ddd (.flag .autoNamesEnabled) (by decide))
  refine ⟨?_, ?_, ?_, sameAuto.trans manual⟩
  · rw [sameA]
    exact accepted.numbers .rfBitsA bitsA.1
  · rw [sameB]
    exact accepted.numbers .rfBitsB bitsB.1
  · rw [sameBase]
    exact named

theorem sets_ports (sets : Sets p defaults last ((loadSteps ddd).flatMap fieldsOf)) :
    PortsAgree p last := by
  have kept {e : Entry} (listed : e ∈ saveOrder ddd ∧ e ∉ neverRead) : Agree p last e :=
    sets_back sets listed.1 listed.2
  have listed := kept_checked ddd
  exact ⟨kept (listed (.text .netServerPortStr) (by decide)),
    kept (listed (.number .netServerPort) (by decide)),
    kept (listed (.text .netClientPortStr) (by decide)),
    kept (listed (.number .netClientPort) (by decide))⟩

theorem load_saved (profile : Option GuiSettings) (s defaults : GuiSettings)
    (derive : GuiSettings → GuiSettings)
    (accepted : Accepted reader ddd (persisted profile s))
    (manual : (persisted profile s).flag .autoNamesEnabled = false)
    (named : ((persisted profile s).text .outputBaseName).bytes ≠ []) :
    ∃ last, load reader derive ddd defaults (savedText ddd profile s) = .ok (syncPorts last) ∧
      Sets (persisted profile s) defaults last ((loadSteps ddd).flatMap fieldsOf) := by
  obtain ⟨last, ran, sets⟩ := steps_set (s := defaults) (holds_saved ddd profile s) accepted
    (loadSteps ddd) (steps_checked ddd).1
  have size : ¬ ((savedText ddd profile s).length = 0 ∨
      sizeLimit < (savedText ddd profile s).length) :=
    not_or.mpr ⟨savedText_ne_nil ddd profile s, Nat.not_lt.mpr (length_savedText ddd profile s)⟩
  refine ⟨last, ?_, sets⟩
  rw [load, if_neg size, withoutMark_saved]
  dsimp only
  rw [ran]
  exact congrArg Except.ok (finishLoad_settled (sets_settled sets accepted manual named) derive)

/-- Every field that is looked up comes back as it was saved, an empty port string as the number. -/
theorem saved_comes_back (profile : Option GuiSettings) (s : GuiSettings)
    (derive : GuiSettings → GuiSettings) (desktop : Text) (cores : Nat)
    (accepted : Accepted reader ddd (persisted profile s))
    (manual : (persisted profile s).flag .autoNamesEnabled = false)
    (named : ((persisted profile s).text .outputBaseName).bytes ≠ []) :
    ∃ loaded, load reader derive ddd (initDefaults desktop cores) (savedText ddd profile s) =
        .ok loaded ∧
      ∀ e ∈ saveOrder ddd, e ∉ neverRead → Agree (syncPorts (persisted profile s)) loaded e := by
  obtain ⟨last, loaded, sets⟩ := load_saved profile s (initDefaults desktop cores) derive accepted
    manual named
  refine ⟨syncPorts last, loaded, ?_⟩
  intro e listed read
  exact syncPorts_agree (sets_ports sets) (sets_back sets listed read)

end

def decimalReader : NumberReader where
  atof := fun text =>
    Single.ofDouble ((Library.NumberText.strtod text).getD ⟨false, 0⟩)
  strtod := fun text =>
    match Library.NumberText.strtod text with
    | some x => (.finite x, text.length)
    | none => (.finite ⟨false, 0⟩, 0)

/-- Manual names, no text for the port of the server and a limit of one sample. -/
def manualSettings : GuiSettings :=
  setNumber (setText (setFlag (initDefaults (ascii "/home") 4) .autoNamesEnabled false)
    .netServerPortStr (emptyText .netServerPortStr)) .sampleCount (wrap .uint64 1)

theorem manualSettings_inRange (n : NumberField) : InRange (manualSettings.number n).val n := by
  cases n <;> first | trivial | (unfold InRange; decide)

theorem manualSettings_accepted (ddd : Bool) : Accepted decimalReader ddd manualSettings where
  numbers := fun n _ => manualSettings_inRange n
  base := by decide +kernel
  level := by
    apply cString_ext
    decide +kernel

theorem saved_comes_back_manual :
    ∃ loaded, load decimalReader id true (initDefaults (ascii "/root") 8)
        (savedText true none manualSettings) = .ok loaded ∧
      ∀ e ∈ saveOrder true, e ∉ neverRead → Agree (syncPorts manualSettings) loaded e :=
  saved_comes_back none manualSettings id (ascii "/root") 8
    (manualSettings_accepted true) (by decide) (by decide)

/-- The empty text of a port comes back as the number, and the limit does not come back. -/
theorem port_text_filled :
    (Accepted decimalReader true manualSettings ∧
      manualSettings.flag .autoNamesEnabled = false ∧
      (manualSettings.text .outputBaseName).bytes ≠ [] ∧
      (savedText true none manualSettings).length ≤ sizeLimit ∧
      (manualSettings.text .netServerPortStr).bytes = [] ∧
      (manualSettings.number .sampleCount).val = 1) ∧
    ∃ loaded, load decimalReader id true (initDefaults (ascii "/root") 8)
        (savedText true none manualSettings) = .ok loaded ∧
      (loaded.text .netServerPortStr).bytes = ascii "8080" ∧
      (loaded.number .sampleCount).val = 0 := by
  have accepted := manualSettings_accepted true
  have manual : manualSettings.flag .autoNamesEnabled = false := by decide
  have named : (manualSettings.text .outputBaseName).bytes ≠ [] := by decide
  refine ⟨⟨accepted, manual, named, length_savedText true none manualSettings, rfl, rfl⟩, ?_⟩
  obtain ⟨last, loaded, sets⟩ := load_saved none manualSettings
    (initDefaults (ascii "/root") 8) id accepted manual named
  refine ⟨syncPorts last, loaded, ?_, ?_⟩
  · have port := kept_checked true (.text .netServerPortStr) (by decide)
    have filled : (syncPorts last).text .netServerPortStr =
        (syncPorts manualSettings).text .netServerPortStr :=
      syncPorts_agree (sets_ports sets) (sets_back sets port.1 port.2)
    rw [filled]
    decide +kernel
  · have unread := (steps_checked true).2.2 (.number .sampleCount) (by decide)
    have kept : last.number .sampleCount = (initDefaults (ascii "/root") 8).number .sampleCount :=
      sets.kept (initDefaults (ascii "/root") 8) _ unread rfl
    rw [syncPorts_number, kept]
    rfl

end MisrcGui.Settings.RoundTrip
