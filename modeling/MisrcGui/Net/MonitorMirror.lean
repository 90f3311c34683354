import MisrcGui.Library.Machine
import MisrcGui.Net.MonitorSettings

/-! The monitor client's mirror of the server's settings: what
`gui_monitor_client_sync_main` adopts from a snapshot and what it queues. -/
namespace MisrcGui.Net.MonitorMirror
open Library MonitorSettings
open Library.Percent (escape unreserved)

structure Slot (i : Field) where
  value : (desc i).kind.Value
  last : Text

abbrev Mirror := (i : Field) → Slot i

structure Request where
  key : Text
  value : Text
  sent : Bool
deriving DecidableEq

/-- `g_cfg_client` with the client's settings; `send` is there while
`send_pending` is set. -/
structure Client where
  mirror : Mirror
  initialized : Bool
  received : Option Text
  send : Option Request

def own (i : Field) (slot : Slot i) : Option Text := get i slot.value

def find (name : Text) : Option Field :=
  (List.finRange fields.length).find? fun i => key i == name

/-- A first snapshot is adopted; later ones only where there is no unsent local edit. -/
def adoptField (first : Bool) (i : Field) (slot : Slot i) (decoded : Text) : Slot i :=
  let unedited := match own i slot with
    | none => true
    | some text => text == slot.last
  { value := if first || unedited then (set i decoded).getD slot.value else slot.value
    last := decoded }

def applyLine (first : Bool) (mirror : Mirror) (line : Text × Text) : Mirror :=
  match urlDecode valueCap line.2 with
  | none => mirror
  | some decoded =>
    match find line.1 with
    | none => mirror
    | some i =>
      if localAudio (desc i).key then mirror
      else Function.update mirror i (adoptField first i (mirror i) decoded)

def applySnapshot (first : Bool) (mirror : Mirror) (snapshot : Text) : Mirror :=
  (readLines snapshot).foldl (applyLine first) mirror

def receive (client : Client) : Client :=
  match client.received, client.send with
  | some snapshot, none =>
    { client with
      mirror := applySnapshot (!client.initialized) client.mirror snapshot
      received := none
      initialized := true }
  | _, _ => client

def edited (mirror : Mirror) (i : Field) : Bool :=
  match own i (mirror i) with
  | none => false
  | some text => text != (mirror i).last

def queueEdit (client : Client) : Client :=
  match synced.find? (edited client.mirror) with
  | none => client
  | some i =>
    let text := (own i (client.mirror i)).getD []
    { client with
      mirror := Function.update client.mirror i { client.mirror i with last := text }
      send := some ⟨key i, text, false⟩ }

def syncMain (connected : Bool) (client : Client) : Client :=
  let client := receive client
  if !client.initialized || !connected then client
  else if client.send.isSome then client
  else queueEdit client

variable {mirror : Mirror} {client : Client}

variable {s : Settings} (i : Field)

theorem own_eq (slot : Slot i) : own i slot = some (print (desc i).kind slot.value) :=
  get_eq i slot.value

theorem adoptField_eq (first : Bool) (i : Field) (slot : Slot i) (decoded : Text) :
    adoptField first i slot decoded =
      ⟨if first || print (desc i).kind slot.value == slot.last then
        (set i decoded).getD slot.value else slot.value, decoded⟩ := by
  rw [adoptField, own_eq]

theorem edited_eq (mirror : Mirror) (i : Field) :
    edited mirror i = (print (desc i).kind (mirror i).value != (mirror i).last) := by
  rw [edited, own_eq]

theorem find_key : find (key i) = some i := by
  cases found : find (key i) with
  | none =>
    have refused := List.find?_eq_none.mp found i (List.mem_finRange i)
    exact absurd (beq_self_eq_true (key i)) refused
  | some j =>
    have searched : (List.finRange fields.length).find? (fun k => key k == key i) = some j := found
    have same := List.find?_some searched
    rw [key_injective (eq_of_beq same)]

theorem not_localAudio {i : Field} (listed : i ∈ synced) : localAudio (desc i).key = false := by
  simpa [synced] using listed

def adopt (first : Bool) (s : Settings) (i : Field) (slot : Slot i) : Slot i :=
  match urlDecode valueCap (escape unreserved (print (desc i).kind (s i))) with
  | none => slot
  | some decoded => adoptField first i slot decoded

theorem applyLine_key (first : Bool) (s : Settings) {i : Field} (listed : i ∈ synced) :
    applyLine first mirror (key i, escape unreserved (print (desc i).kind (s i))) =
      Function.update mirror i (adopt first s i (mirror i)) := by
  rw [applyLine, adopt]
  dsimp only
  cases urlDecode valueCap (escape unreserved (print (desc i).kind (s i))) with
  | none => exact (Function.update_eq_self i mirror).symm
  | some decoded =>
    dsimp only
    rw [find_key]
    dsimp only
    rw [not_localAudio listed]
    rfl

theorem foldl_update {ι : Type*} [DecidableEq ι] {α : ι → Type*} (f : (i : ι) → α i → α i)
    {order : List ι} (nodup : order.Nodup) (values : (i : ι) → α i) (j : ι) :
    order.foldl (fun values i => Function.update values i (f i (values i))) values j =
      if j ∈ order then f j (values j) else values j := by
  induction order generalizing values with
  | nil => rfl
  | cons i rest ih =>
    obtain ⟨fresh, nodup⟩ := List.nodup_cons.mp nodup
    rw [List.foldl_cons, ih nodup]
    by_cases same : j = i
    · subst same
      rw [if_neg fresh, if_pos List.mem_cons_self, Function.update_self]
    · rw [Function.update_of_ne same]
      simp only [List.mem_cons, same, false_or]

theorem applySnapshot_wire (first : Bool) (s : Settings) (mirror : Mirror) :
    applySnapshot first mirror (wire s) = fun i =>
      if i ∈ synced then adopt first s i (mirror i) else mirror i := by
  funext j
  rw [applySnapshot, readLines_wire, List.foldl_map, ← foldl_update (adopt first s) synced_nodup]
  refine congrFun (List.foldl_ext _ _ _ fun mirror i listed => ?_) j
  exact applyLine_key first s listed

theorem printFlag_other (text : Text) : ∃ on, printFlag on ≠ text := by
  by_cases same : printFlag true = text
  · exact ⟨false, fun other => absurd (same.trans other.symm) (by decide)⟩
  · exact ⟨true, same⟩

theorem decimal_other {width : Nat} (positive : 0 < width) (text : Text) :
    ∃ n : Fin (2 ^ width), NumberText.decimal n.val ≠ text := by
  have two : 1 < 2 ^ width := Nat.one_lt_two_pow (by omega)
  have differ : NumberText.decimal 0 ≠ NumberText.decimal 1 := by decide
  by_cases same : NumberText.decimal 0 = text
  · exact ⟨⟨1, two⟩, fun other => differ (same.trans other.symm)⟩
  · exact ⟨⟨0, by omega⟩, same⟩

theorem print_other (kind : Kind) (room : ∀ size, kind = .S size → 1 < size) (text : Text) :
    ∃ value, print kind value ≠ text := by
  cases kind with
  | B => exact printFlag_other text
  | I8 => exact decimal_other (by decide) text
  | I32 | U => exact decimal_other (by decide) text
  | F =>
    by_cases same : printSingle (.infinity false) = text
    · exact ⟨.infinity true, fun other => absurd (same.trans other.symm) (by decide)⟩
    · exact ⟨.infinity false, same⟩
  | S size =>
    have two := room size rfl
    by_cases same : ([] : Text) = text
    · refine ⟨⟨[32], two, by decide⟩, fun other => ?_⟩
      exact List.cons_ne_nil _ _ (same.trans other.symm).symm
    · exact ⟨⟨[], Nat.zero_lt_of_lt two, by simp⟩, same⟩

/-- Nothing is queued, and each synced field reads as the text recorded for it. -/
structure Quiet (client : Client) : Prop where
  empty : client.send = none
  agreed : client.initialized → ∀ i ∈ synced,
    own i (client.mirror i) = some (client.mirror i).last

inductive Action where
  | deliver
  | sync (connected : Bool)

/-- The worker delivers the server's snapshot, which does not change, and the main
thread synchronises. -/
def step (s : Settings) (client : Client) : Action → Option Client
  | .deliver =>
    match client.send, pack s with
    | none, some snapshot => some { client with received := some snapshot }
    | _, _ => none
  | .sync connected => some (syncMain connected client)

def fresh (mirror : Mirror) : Client := ⟨mirror, false, none, none⟩

/-- The client holds nothing but the server's values, once it has a snapshot. -/
structure Adopted (s : Settings) (client : Client) : Prop where
  empty : client.send = none
  delivered : ∀ snapshot ∈ client.received, snapshot = wire s
  agreed : client.initialized → ∀ i ∈ synced,
    print (desc i).kind (client.mirror i).value = print (desc i).kind (s i) ∧
      (client.mirror i).last = print (desc i).kind (s i)

theorem Adopted.quiet (adopted : Adopted s client) : Quiet client where
  empty := adopted.empty
  agreed := by
    intro started i listed
    obtain ⟨value, last⟩ := adopted.agreed started i listed
    rw [own_eq, value, last]

theorem adopt_admitted {i : Field} (admitted : Admitted (desc i) (desc i).kind (s i))
    {first : Bool} {slot : Slot i}
    (unedited : first = true ∨ print (desc i).kind slot.value = slot.last) :
    print (desc i).kind (adopt first s i slot).value = print (desc i).kind (s i) ∧
      (adopt first s i slot).last = print (desc i).kind (s i) := by
  obtain ⟨value, stored, same⟩ := (set_print_iff _ _).mpr admitted
  have takes : (first || (print (desc i).kind slot.value == slot.last)) = true := by
    rcases unedited with rfl | equal
    · rfl
    · rw [equal, beq_self_eq_true, Bool.or_true]
  rw [adopt, urlDecode_print i (s i) admitted]
  dsimp only
  rw [adoptField_eq, if_pos takes, MonitorSettings.set, stored]
  exact ⟨same, rfl⟩

theorem receive_some {snapshot : Text} (box : client.received = some snapshot)
    (empty : client.send = none) :
    receive client =
      ⟨applySnapshot (!client.initialized) client.mirror snapshot, true, none, none⟩ := by
  simp only [receive, box, empty]

theorem receive_adopted (admitted : ∀ i ∈ synced, Admitted (desc i) (desc i).kind (s i))
    (adopted : Adopted s client) : Adopted s (receive client) := by
  cases box : client.received with
  | none =>
    rw [receive, box]
    exact adopted
  | some snapshot =>
    have content := adopted.delivered snapshot box
    rw [receive_some box adopted.empty, content, applySnapshot_wire]
    refine ⟨rfl, nofun, fun _ i listed => ?_⟩
    dsimp only
    rw [if_pos listed]
    refine adopt_admitted (admitted i listed) ?_
    cases started : client.initialized with
    | false => exact .inl rfl
    | true =>
      obtain ⟨value, last⟩ := adopted.agreed started i listed
      exact .inr (value.trans last.symm)

theorem queueEdit_quiet (started : client.initialized) (quiet : Quiet client) :
    queueEdit client = client := by
  have none : synced.find? (edited client.mirror) = none := by
    refine List.find?_eq_none.mpr fun i listed => ?_
    rw [edited, quiet.agreed started i listed]
    simp
  rw [queueEdit, none]

theorem syncMain_adopted (admitted : ∀ i ∈ synced, Admitted (desc i) (desc i).kind (s i))
    (connected : Bool) (adopted : Adopted s client) : Adopted s (syncMain connected client) := by
  have received := receive_adopted admitted adopted
  rw [syncMain]
  split
  · exact received
  · rename_i active
    rw [received.empty, if_neg (by decide)]
    have started : (receive client).initialized := by
      by_contra waiting
      exact active (by simp [waiting])
    rw [queueEdit_quiet started received.quiet]
    exact received

theorem step_adopted {next : Client} {action : Action}
    (admitted : ∀ i ∈ synced, Admitted (desc i) (desc i).kind (s i)) (adopted : Adopted s client)
    (h : step s client action = some next) : Adopted s next := by
  cases action with
  | deliver =>
    simp only [step, adopted.empty, pack_eq] at h
    cases h
    exact ⟨rfl, fun snapshot same => (Option.some.inj same).symm, adopted.agreed⟩
  | sync connected =>
    cases h
    exact syncMain_adopted admitted connected adopted

theorem first_snapshot (s : Settings) (mirror : Mirror) :
    Machine.run (step s) (fresh mirror) [.deliver, .sync false] =
      some ⟨applySnapshot true mirror (wire s), true, none, none⟩ := by
  simp only [Machine.run_cons, step, fresh, pack_eq, Option.bind_some, Machine.run_nil, syncMain,
    receive, Bool.not_false, Bool.or_true, if_true]

/-- If a field agrees after the first snapshot whatever the client held before, the
server's value is admitted. -/
theorem admitted_of_agrees {i : Field} (room : ∀ size, (desc i).kind = .S size → 1 < size)
    (agrees : ∀ slot : Slot i,
      print (desc i).kind (adopt true s i slot).value = (adopt true s i slot).last) :
    Admitted (desc i) (desc i).kind (s i) := by
  rw [← set_print_iff]
  cases decoded : urlDecode valueCap (escape unreserved (print (desc i).kind (s i))) with
  | none =>
    -- The line is skipped, so a local edit stays one.
    have kept (slot : Slot i) : adopt true s i slot = slot := by rw [adopt, decoded]
    obtain ⟨value, other⟩ := print_other (desc i).kind room []
    have agree := agrees ⟨value, []⟩
    rw [kept] at agree
    exact absurd agree other
  | some text =>
    have same : text = print (desc i).kind (s i) := by
      rw [urlDecode_escape] at decoded
      split at decoded
      · exact (Option.some.inj decoded).symm
      · contradiction
    subst same
    have taken (slot : Slot i) : adopt true s i slot =
        ⟨(set i (print (desc i).kind (s i))).getD slot.value, print (desc i).kind (s i)⟩ := by
      rw [adopt, decoded]
      rfl
    cases stored : set i (print (desc i).kind (s i)) with
    | none =>
      -- The text is recorded, and the client keeps its own value.
      obtain ⟨value, other⟩ := print_other (desc i).kind room (print (desc i).kind (s i))
      have agree := agrees ⟨value, []⟩
      rw [taken, stored] at agree
      exact absurd agree other
    | some value =>
      have agree := agrees ⟨s i, []⟩
      rw [taken, stored] at agree
      exact ⟨value, stored, agree⟩

theorem sizes_checked :
    fields.all fun d => match d.kind with | .S size => decide (1 < size) | _ => true := by
  decide +kernel

theorem size_room (size : Nat) (kind : (desc i).kind = .S size) : 1 < size := by
  have checked := List.all_eq_true.mp sizes_checked (desc i) (desc_mem i)
  rw [kind] at checked
  exact of_decide_eq_true checked

theorem admitted_of_quiet {i : Field} (listed : i ∈ synced)
    (quiet : ∀ (mirror : Mirror) (schedule : List Action) (last : Client),
      Machine.run (step s) (fresh mirror) schedule = some last → Quiet last) :
    Admitted (desc i) (desc i).kind (s i) := by
  refine admitted_of_agrees (size_room i) fun slot => ?_
  -- What the client holds in the other fields does not matter.
  let mirror : Mirror := Function.update (fun j => ⟨s j, []⟩) i slot
  have agreed := (quiet mirror _ _ (first_snapshot s mirror)).agreed rfl i listed
  dsimp only at agreed
  rw [applySnapshot_wire, own_eq] at agreed
  dsimp only at agreed
  rw [if_pos listed, show mirror i = slot from Function.update_self i slot _] at agreed
  exact Option.some.inj agreed

/-- A client that has applied a first snapshot never queues a request, if and only if
the server's validator admits every synced value the server holds. -/
theorem first_sync_adopts (s : Settings) :
    (∀ (mirror : Mirror) (schedule : List Action) (last : Client),
      Machine.run (step s) (fresh mirror) schedule = some last → Quiet last) ↔
      ∀ i ∈ synced, Admitted (desc i) (desc i).kind (s i) := by
  constructor
  · intro quiet i listed
    exact admitted_of_quiet listed quiet
  · intro admitted mirror schedule last h
    have start : Adopted s (fresh mirror) := ⟨rfl, nofun, nofun⟩
    have kept : Adopted s last := Machine.run_invariant (Adopted s)
      (fun _ _ _ adopted taken => step_adopted admitted adopted taken) start h
    exact kept.quiet

/-! The defaults of `gui_settings_init_defaults` on a machine with `cores` cores;
0 stands for an unknown number. -/

def defaultFlag (key : String) : Bool :=
  key ∈ ["capture_a", "capture_b", "auto_names_enabled", "use_flac", "misrc_mode"]

def defaultInt (cores : Nat) (key : String) : Nat :=
  if key = "rf_preview_budget_percent" then
    if cores ≥ 12 then 300 else if cores ≥ 6 then 200 else 100
  else if key = "flac_level" then 8
  else if key = "flac_threads" then if cores ≥ 8 then 8 else cores
  else if key = "resample_quality_a" ∨ key = "resample_quality_b" then 3
  else 0

def defaultMagnitude (key : String) : Nat :=
  if key = "resample_rate_a" ∨ key = "resample_rate_b" then 4000
  else if key = "level_autostop_vpp" ∨ key = "level_autostop_vpp_hsdaoh" then 2
  else 0

def defaultString (key : String) : String :=
  ([("output_base_name", "capture"), ("output_filename_a", "rfA_capture.flac"),
    ("output_filename_b", "rfB_capture.flac"), ("audio_4ch_filename", "quad_4ch.wav"),
    ("audio_2ch_12_filename", "stereo_ch1_ch2.wav"),
    ("audio_2ch_34_filename", "stereo_ch3_ch4.wav"), ("level_autostop_level_str", "0.2"),
    ("level_autostop_duration_str", "30"), ("audio_file_0", "audio_ch1.wav"),
    ("audio_file_1", "audio_ch2.wav"), ("audio_file_2", "audio_ch3.wav"),
    ("audio_file_3", "audio_ch4.wav")].lookup key).getD ""

def CString.ofText (size : Nat) (positive : 0 < size) (text : Text) : CString size :=
  if fits : text.length < size ∧ 0 ∉ text then ⟨text, fits.1, fits.2⟩
  else ⟨[], positive, List.not_mem_nil⟩

def initDefaults (cores : Nat) : Settings := fun i =>
  match (desc i).kind, size_room i with
  | .B, _ => defaultFlag (desc i).key
  | .I8, _ => (16 : Fin (2 ^ 8))
  | .I32, _ => Fin.ofNat (2 ^ 32) (defaultInt cores (desc i).key)
  | .U, _ => Fin.ofNat (2 ^ 32) (defaultInt cores (desc i).key)
  | .F, _ => Single.ofDouble ⟨false, defaultMagnitude (desc i).key⟩
  | .S size, room => CString.ofText size (Nat.zero_lt_of_lt (room size rfl))
      (Percent.ascii (defaultString (desc i).key))

def flacThreads : Field := ⟨25, by decide⟩

theorem defaults_pushed :
    ¬∀ (s : Settings) (mirror : Mirror) (schedule : List Action) (last : Client),
      Machine.run (step s) (fresh mirror) schedule = some last → Quiet last := by
  intro claim
  have listed : flacThreads ∈ synced := by
    rw [synced, List.mem_filter]
    exact ⟨List.mem_finRange _, by decide⟩
  have admitted : InRange (desc flacThreads) 0 :=
    admitted_of_quiet listed (claim (initDefaults 0))
  have low : (1 : ℚ) ≤ (0 : Nat) := admitted.1
  norm_num at low

end MisrcGui.Net.MonitorMirror
