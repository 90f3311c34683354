import MisrcGui.Playback.LengthCache

/-! The cache over whole runs: what a lookup finds is what was stored last under its key, whatever
fails, and whichever keys share a file. -/
namespace MisrcGui.Playback.LengthCache
open Library
open Library.Layout (field)
open Library.Percent (ascii)

@[simp] theorem length_cachePut32 (value : UInt32) : (cachePut32 value).length = 4 := by
  rw [cachePut32, List.length_reverse, BigEndian.length_encode]

@[simp] theorem length_cachePut64 (value : UInt64) : (cachePut64 value).length = 8 := by
  rw [cachePut64, List.length_reverse, BigEndian.length_encode]

@[simp] theorem cacheGet32_put32 (value : UInt32) : cacheGet32 (cachePut32 value) = value := by
  rw [cacheGet32, cachePut32, List.reverse_reverse, BigEndian.decode_encode,
    Nat.mod_eq_of_lt (show value.toNat < 256 ^ 4 from value.toNat_lt), UInt32.ofNat_toNat]

@[simp] theorem cacheGet64_put64 (value : UInt64) : cacheGet64 (cachePut64 value) = value := by
  rw [cacheGet64, cachePut64, List.reverse_reverse, BigEndian.decode_encode,
    Nat.mod_eq_of_lt (show value.toNat < 256 ^ 8 from value.toNat_lt), UInt64.ofNat_toNat]

theorem cachePut32_injective : Function.Injective cachePut32 :=
  Function.LeftInverse.injective cacheGet32_put32

theorem cachePut64_injective : Function.Injective cachePut64 :=
  Function.LeftInverse.injective cacheGet64_put64

theorem cacheEncodeKey_injective : Function.Injective cacheEncodeKey := by
  intro first second same
  obtain ⟨size, same⟩ := List.append_inj same (by simp)
  obtain ⟨device, same⟩ := List.append_inj same (by simp)
  obtain ⟨id, same⟩ := List.append_inj same (by simp)
  obtain ⟨seconds, same⟩ := List.append_inj same (by simp)
  obtain ⟨nanoseconds, same⟩ := List.append_inj same (by simp)
  obtain ⟨head, same⟩ := List.append_inj same (by simp)
  obtain ⟨tail, same⟩ := List.append_inj same (by simp)
  obtain ⟨headHash, tailHash⟩ := List.append_inj (List.append_cancel_left same) (by simp)
  have seconds := congrArg UInt64.toInt64 (cachePut64_injective seconds)
  rw [Int64.toInt64_toUInt64, Int64.toInt64_toUInt64] at seconds
  cases first
  cases second
  congr
  · exact cachePut64_injective size
  · exact cachePut64_injective device
  · exact cachePut64_injective id
  · exact cachePut32_injective nanoseconds
  · exact cachePut32_injective head
  · exact cachePut32_injective tail
  · exact cachePut64_injective headHash
  · exact cachePut64_injective tailHash

@[simp] theorem length_cacheEncodeKey (key : Key) : (cacheEncodeKey key).length = 64 := by
  simp [cacheEncodeKey]

theorem length_recordBody (key : Key) (samples : UInt64) :
    (recordBody key samples).length = 88 := by
  have magic : recordMagic.length = 8 := by decide
  simp [recordBody, magic]

theorem length_recordOf (key : Key) (samples : UInt64) :
    (recordOf key samples).length = cacheRecordBytes := by
  rw [recordOf, List.length_append, length_recordBody, length_cachePut64]
  rfl

theorem field_between (front part rest : Bytes) :
    field (front ++ (part ++ rest)) front.length part.length = part := by
  rw [field, List.drop_left, List.take_left]

theorem record_key (key : Key) (samples : UInt64) :
    field (recordOf key samples) 16 64 = cacheEncodeKey key := by
  have between := field_between (recordMagic ++ (cachePut32 cacheVersion ++
    cachePut32 (UInt32.ofNat cacheRecordBytes))) (cacheEncodeKey key)
      (cachePut64 samples ++ cachePut64 (cacheHash (recordBody key samples)))
  have magic : recordMagic.length = 8 := by decide
  simp only [List.length_append, length_cachePut32, length_cacheEncodeKey, magic] at between
  rw [← between]
  simp only [recordOf, recordBody, List.append_assoc]

theorem record_samples (key : Key) (samples : UInt64) :
    field (recordOf key samples) 80 8 = cachePut64 samples := by
  have between := field_between (recordMagic ++ (cachePut32 cacheVersion ++
    (cachePut32 (UInt32.ofNat cacheRecordBytes) ++ cacheEncodeKey key))) (cachePut64 samples)
      (cachePut64 (cacheHash (recordBody key samples)))
  have magic : recordMagic.length = 8 := by decide
  simp only [List.length_append, length_cachePut32, length_cachePut64, length_cacheEncodeKey,
    magic] at between
  rw [← between]
  simp only [recordOf, recordBody, List.append_assoc]

theorem recordSamples_own {key other : Key} {samples found : UInt64}
    (h : recordSamples key (recordOf other samples) = some found) :
    key = other ∧ found = samples := by
  unfold recordSamples at h
  rw [record_key, record_samples, cacheGet64_put64] at h
  split at h
  · cases h
  · rename_i passed
    simp only [Bool.or_eq_true, decide_eq_true_eq, not_or, not_not] at passed
    have same := cacheEncodeKey_injective passed.1.2
    dsimp only at h
    by_cases zero : samples = 0
    · rw [if_pos zero] at h
      cases h
    · rw [if_neg zero] at h
      exact ⟨same.symm, (Option.some.inj h).symm⟩

theorem cut_record (key : Key) (samples : UInt64) {hash : Bytes} (eight : hash.length = 8) :
    Layout.cut (recordBody key samples ++ hash) 0 [8, 4, 4, 64, 8, 8] =
      [recordMagic, cachePut32 cacheVersion, cachePut32 (UInt32.ofNat cacheRecordBytes),
        cacheEncodeKey key, cachePut64 samples, hash] := by
  have magic : recordMagic.length = 8 := by decide
  have layout := Layout.cut_flatten [] [recordMagic, cachePut32 cacheVersion,
    cachePut32 (UInt32.ofNat cacheRecordBytes), cacheEncodeKey key, cachePut64 samples, hash]
  simp only [List.map_cons, List.map_nil, magic, length_cachePut32, length_cachePut64,
    length_cacheEncodeKey, eight] at layout
  refine Eq.trans ?_ layout
  simp [recordBody]

theorem recordSamples_self (key : Key) {samples : UInt64} (some : samples ≠ 0) :
    recordSamples key (recordOf key samples) = .some samples := by
  have layout := cut_record key samples (length_cachePut64 (cacheHash (recordBody key samples)))
  rw [← recordOf] at layout
  simp only [Layout.cut, List.cons.injEq, Nat.reduceAdd] at layout
  obtain ⟨first, version, bytes, -, -, hash, -⟩ := layout
  have body : (recordOf key samples).take 88 = recordBody key samples := by
    rw [recordOf, ← length_recordBody key samples, List.take_left]
  unfold recordSamples
  rw [first, version, bytes, record_key, hash, body, record_samples, cacheGet32_put32,
    cacheGet32_put32, cacheGet64_put64, cacheGet64_put64, if_neg (by simp only [ne_eq,
      not_true_eq_false, decide_false, Bool.or_self, Bool.false_eq_true, not_false_eq_true])]
  exact if_neg some

section paths
variable {directory : Option Path} {key other : Key} {path : Path}

theorem length_hex16 (value : UInt64) : (hex16 value).length = 16 := by
  rw [hex16, List.length_map, List.length_range]

theorem cachePath_some (h : cachePath directory key = some path) :
    ∃ base, directory = some base ∧ path.length = base.length + 21 := by
  unfold cachePath at h
  split at h
  · cases directory with
    | none => cases h
    | some base =>
      refine ⟨base, rfl, ?_⟩
      rw [Option.bind_some] at h
      dsimp only at h
      split at h
      · have slash : (ascii "/").length = 1 := by decide
        have bin : (ascii ".bin").length = 4 := by decide
        cases h
        simp [length_hex16, slash, bin]
      · cases h
  · cases h

theorem temporaryPath_ne {record : Path} (h : cachePath directory key = some path)
    (entry : cachePath directory other = some record) (pid : Nat) (sequence : UInt64) :
    temporaryPath path pid sequence ≠ record := by
  intro same
  obtain ⟨base, rfl, length⟩ := cachePath_some h
  obtain ⟨base', same', length'⟩ := cachePath_some entry
  cases same'
  have longer : path.length < (temporaryPath path pid sequence).length := by
    have hyphen : (ascii "-").length = 1 := by decide
    rw [temporaryPath]
    simp only [List.length_append, hyphen]
    omega
  rw [same] at longer
  omega

end paths

section publish
variable {conditions : Conditions} {files : Files} {temporary path : Path} {record : Bytes}

theorem writeLoop_full {results : List WriteResult} {total : Nat}
    (h : (writeLoop results total).2 = true) : cacheRecordBytes ≤ (writeLoop results total).1 := by
  induction results generalizing total with
  | nil => exact of_decide_eq_true h
  | cons result rest ih =>
    unfold writeLoop at h ⊢
    by_cases more : total < cacheRecordBytes
    · rw [if_pos more] at h ⊢
      cases result with
      | interrupted => exact ih h
      | failed => cases h
      | wrote count =>
        dsimp only at h ⊢
        by_cases none : count = 0
        · rw [if_pos none] at h
          cases h
        · rw [if_neg none] at h ⊢
          exact ih h
    · rw [if_neg more]
      exact Nat.le_of_not_lt more

theorem cacheWriteRecord_cases (conditions : Conditions) (files : Files) (temporary : Path)
    (record : Bytes) :
    cacheWriteRecord conditions files temporary record = (files, false, false) ∨
      ∃ total ok, cacheWriteRecord conditions files temporary record =
        (Function.update files temporary (some (.regular (record.take total))), ok, true) ∧
        (ok = true → cacheRecordBytes ≤ total) := by
  unfold cacheWriteRecord
  split
  · refine .inr ⟨_, _, rfl, fun ok => ?_⟩
    rw [Bool.and_eq_true, Bool.and_eq_true] at ok
    exact writeLoop_full ok.1.1
  · exact .inl rfl

theorem cacheRemoveTemporary_other {entry : Path} (other : temporary ≠ entry) :
    cacheRemoveTemporary conditions files temporary entry = files entry := by
  unfold cacheRemoveTemporary
  split
  · exact Function.update_of_ne other.symm _ _
  · rfl

/-- A store that succeeds leaves the whole record at its path; one that fails changes nothing but
its temporary file, and neither touches any other. -/
theorem publish_files (whole : record.length = cacheRecordBytes) {entry : Path}
    (other : temporary ≠ entry) :
    (publish conditions files temporary path record).1 entry =
      if (publish conditions files temporary path record).2 = true ∧ entry = path then
        some (.regular record)
      else files entry := by
  have kept (node : Option Node) : Function.update files temporary node entry = files entry :=
    Function.update_of_ne other.symm _ _
  unfold publish
  rcases cacheWriteRecord_cases conditions files temporary record with
    same | ⟨total, ok, same, full⟩
  · rw [same]
    exact (if_neg nofun).symm
  rw [same]
  cases ok with
  | false =>
    dsimp only
    rw [cacheRemoveTemporary_other other, kept, if_neg (fun ⟨no, _⟩ => Bool.false_ne_true no)]
  | true =>
    rw [List.take_of_length_le (by rw [whole]; exact full rfl)]
    dsimp only
    unfold cacheReplace
    split
    · dsimp only
      by_cases here : entry = path
      · rw [if_pos ⟨rfl, here⟩, here, Renames.rename_target (by rw [Function.update_self]; rfl),
          Function.update_self]
      · rw [if_neg (fun both => here both.2), Renames.rename_other other.symm here, kept]
    · dsimp only
      rw [cacheRemoveTemporary_other other, kept, if_neg (fun ⟨no, _⟩ => Bool.false_ne_true no)]

end publish

/-- With `restart` another process goes on with the files. -/
inductive Operation where
  | store (key : Key) (samples : UInt64) (conditions : Conditions)
  | lookup (key : Key) (readable : Bool)
  | restart (pid : Nat)

inductive Event where
  | stored (key : Key) (samples : UInt64) (ok : Bool)
  | found (key : Key) (result : Option UInt64)
  | restarted
deriving DecidableEq

def step (directory : Option Path) (state : State) : Operation → State × Event
  | .store key samples conditions =>
    let (state, ok) := guiPlaybackLengthCacheStore directory conditions state key samples
    (state, .stored key samples ok)
  | .lookup key readable =>
    (state, .found key (guiPlaybackLengthCacheLookup directory state.files key readable))
  | .restart pid => ({ state with pid, sequence := 0 }, .restarted)

def run (directory : Option Path) (state : State) (operations : List Operation) :
    State × List Event :=
  operations.foldl (fun (state, events) operation =>
    let (state, event) := step directory state operation
    (state, events ++ [event])) (state, [])

def lastStored (events : List Event) (key : Key) : Option UInt64 :=
  events.foldl (fun last event =>
    match event with
    | .stored other samples true => if other = key then some samples else last
    | _ => last) none

def Faithful (events : List Event) : Prop :=
  ∀ i key samples, events[i]? = some (.found key (some samples)) →
    lastStored (events.take i) key = some samples

structure Start (directory : Option Path) where
  state : State
  misses : ∀ key, guiPlaybackLengthCacheLookup directory state.files key true = none

section runs
variable {directory : Option Path} {state : State} {key other : Key} {samples found : UInt64}
  {conditions : Conditions} {events : List Event}

theorem cacheReadRecord_eq_some {files : Files} {path : Path} {readable : Bool} {bytes : Bytes} :
    cacheReadRecord files path readable = some bytes ↔
      files path = some (.regular bytes) ∧ bytes.length = cacheRecordBytes ∧ readable = true := by
  unfold cacheReadRecord
  cases files path with
  | none => simp
  | some node =>
    cases node with
    | regular held =>
      constructor
      · intro read
        obtain ⟨fits, same⟩ := Option.ite_none_right_eq_some.mp read
        cases same
        rw [Bool.and_eq_true, decide_eq_true_eq] at fits
        exact ⟨rfl, fits⟩
      · rintro ⟨same, fits⟩
        cases same
        exact if_pos (by rw [Bool.and_eq_true, decide_eq_true_eq]; exact fits)
    | directory => simp
    | special => simp

theorem lookup_eq_some {files : Files} {readable : Bool} :
    guiPlaybackLengthCacheLookup directory files key readable = some found ↔
      ∃ path bytes, cachePath directory key = some path ∧ files path = some (.regular bytes) ∧
        bytes.length = cacheRecordBytes ∧ readable = true ∧
        recordSamples key bytes = some found := by
  unfold guiPlaybackLengthCacheLookup
  constructor
  · intro h
    obtain ⟨path, named, h⟩ := Option.bind_eq_some_iff.mp h
    obtain ⟨bytes, read, answer⟩ := Option.bind_eq_some_iff.mp h
    obtain ⟨held, length, readable⟩ := cacheReadRecord_eq_some.mp read
    exact ⟨path, bytes, named, held, length, readable, answer⟩
  · rintro ⟨path, bytes, named, held, length, readable, answer⟩
    have read := cacheReadRecord_eq_some.mpr ⟨held, length, readable⟩
    have rest := Option.bind_eq_some_iff.mpr ⟨bytes, read, answer⟩
    exact Option.bind_eq_some_iff.mpr ⟨path, named, rest⟩

/-- A store fails without a change of the files, or it publishes the record of its key. -/
theorem store_cases (directory : Option Path) (conditions : Conditions) (state : State) (key : Key)
    (samples : UInt64) :
    ((guiPlaybackLengthCacheStore directory conditions state key samples).1.files = state.files ∧
      (guiPlaybackLengthCacheStore directory conditions state key samples).2 = false) ∨
    ∃ path, samples ≠ 0 ∧ cachePath directory key = some path ∧
      ((guiPlaybackLengthCacheStore directory conditions state key samples).1.files,
        (guiPlaybackLengthCacheStore directory conditions state key samples).2) =
        publish conditions state.files (temporaryPath path state.pid state.sequence) path
          (recordOf key samples) := by
  unfold guiPlaybackLengthCacheStore
  by_cases zero : samples = 0
  · rw [if_pos zero]
    exact .inl ⟨rfl, rfl⟩
  rw [if_neg zero]
  cases named : cachePath directory key with
  | none => exact .inl ⟨rfl, rfl⟩
  | some path =>
    dsimp only
    by_cases unmade : (!conditions.directoryMade) = true
    · rw [if_pos unmade]
      exact .inl ⟨rfl, rfl⟩
    rw [if_neg unmade]
    by_cases fits : (temporaryPath path state.pid state.sequence).length < cachePathCap
    · rw [if_pos fits]
      exact .inr ⟨path, zero, rfl, rfl⟩
    · rw [if_neg fits]
      exact .inl ⟨rfl, rfl⟩

theorem store_records (conditions : Conditions) (state : State) (key : Key) (samples : UInt64)
    {entry : Path} (listed : cachePath directory other = some entry) :
    (guiPlaybackLengthCacheStore directory conditions state key samples).1.files entry =
      if (guiPlaybackLengthCacheStore directory conditions state key samples).2 = true ∧
          cachePath directory key = some entry then
        some (.regular (recordOf key samples))
      else state.files entry := by
  rcases store_cases directory conditions state key samples with
    ⟨files, failed⟩ | ⟨path, _, named, published⟩
  · rw [files, failed, if_neg fun ⟨no, _⟩ => Bool.false_ne_true no]
  · have apart := temporaryPath_ne named listed state.pid state.sequence
    have files := congrArg Prod.fst published
    have ok := congrArg Prod.snd published
    dsimp only at files ok
    rw [files, ok, publish_files (length_recordOf key samples) apart, named]
    simp only [Option.some.injEq, eq_comm]

theorem store_samples
    (ok : (guiPlaybackLengthCacheStore directory conditions state key samples).2 = true) :
    samples ≠ 0 ∧ ∃ path, cachePath directory key = some path := by
  rcases store_cases directory conditions state key samples with
    ⟨_, failed⟩ | ⟨path, some, named, _⟩
  · rw [failed] at ok
    cases ok
  · exact ⟨some, path, named⟩

theorem lookup_record {files : Files} {path : Path} (named : cachePath directory key = some path)
    (held : files path = some (.regular (recordOf other samples))) (nonzero : samples ≠ 0) :
    guiPlaybackLengthCacheLookup directory files key true =
      if other = key then some samples else none := by
  by_cases same : other = key
  · subst same
    rw [if_pos rfl, lookup_eq_some]
    exact ⟨path, _, named, held, length_recordOf .., rfl, recordSamples_self _ nonzero⟩
  · rw [if_neg same]
    apply Option.eq_none_iff_forall_ne_some.mpr
    intro found hit
    obtain ⟨_, bytes, listed, here, _, _, own⟩ := lookup_eq_some.mp hit
    cases named.symm.trans listed
    cases held.symm.trans here
    exact same (recordSamples_own own).1.symm

/-- A cache without files. -/
instance : Inhabited (Start directory) where
  default := {
    state := ⟨fun _ => none, 0, 0⟩
    misses := fun key => by
      cases hit : guiPlaybackLengthCacheLookup directory (fun _ => none) key true with
      | none => rfl
      | some found =>
        obtain ⟨_, _, _, held, _⟩ := lookup_eq_some.mp hit
        cases held }

def Answers (directory : Option Path) (files : Files) (events : List Event) : Prop :=
  ∀ key found, guiPlaybackLengthCacheLookup directory files key true = some found →
    lastStored events key = some found

theorem lastStored_snoc (event : Event) : lastStored (events ++ [event]) key =
    match event with
    | .stored other samples true => if other = key then some samples else lastStored events key
    | _ => lastStored events key := by
  rw [lastStored, List.foldl_append]
  rfl

theorem step_answers (operation : Operation) (answers : Answers directory state.files events) :
    Answers directory (step directory state operation).1.files
      (events ++ [(step directory state operation).2]) := by
  intro other found hit
  rw [lastStored_snoc]
  cases operation with
  | lookup | restart => exact answers other found hit
  | store key samples conditions =>
    obtain ⟨entry, bytes, listed, held, length, _, answer⟩ := lookup_eq_some.mp hit
    have records := store_records conditions state key samples listed
    dsimp only [step] at held ⊢
    rw [records] at held
    split at held
    · rename_i published
      cases held
      obtain ⟨rfl, rfl⟩ := recordSamples_own answer
      rw [published.1]
      exact if_pos rfl
    · rename_i unpublished
      have before := answers other found
        (lookup_eq_some.mpr ⟨entry, bytes, listed, held, length, rfl, answer⟩)
      cases ok : (guiPlaybackLengthCacheStore directory conditions state key samples).2 with
      | false => exact before
      | true =>
        refine (if_neg ?_).trans before
        rintro rfl
        exact unpublished ⟨ok, listed⟩

theorem run_snoc (operations : List Operation) (operation : Operation) :
    run directory state (operations ++ [operation]) =
      ((step directory (run directory state operations).1 operation).1,
        (run directory state operations).2 ++
          [(step directory (run directory state operations).1 operation).2]) := by
  rw [run, List.foldl_append]
  rfl

theorem run_answers (start : Start directory) (operations : List Operation) :
    Answers directory (run directory start.state operations).1.files
      (run directory start.state operations).2 := by
  induction operations using List.reverseRecOn with
  | nil =>
    intro key found hit
    have miss : guiPlaybackLengthCacheLookup directory start.state.files key true = none :=
      start.misses key
    rw [show (run directory start.state []).1.files = start.state.files from rfl, miss] at hit
    cases hit
  | append_singleton operations operation ih =>
    rw [run_snoc]
    exact step_answers operation ih

/-- The last record that was published at a path. -/
def lastAt (directory : Option Path) (events : List Event) (path : Path) : Option (Key × UInt64) :=
  events.foldl (fun last event =>
    match event with
    | .stored key samples true =>
      if cachePath directory key = some path then some (key, samples) else last
    | _ => last) none

theorem lastAt_snoc (event : Event) {path : Path} :
    lastAt directory (events ++ [event]) path =
      match event with
      | .stored key samples true =>
        if cachePath directory key = some path then some (key, samples)
        else lastAt directory events path
      | _ => lastAt directory events path := by
  rw [lastAt, List.foldl_append]
  rfl

end runs

/-- Every lookup of a run finds nothing, or what was stored last under its key. -/
theorem length_cache_faithful (directory : Option Path) (start : Start directory)
    (operations : List Operation) : Faithful (run directory start.state operations).2 := by
  induction operations using List.reverseRecOn with
  | nil => exact fun i key samples found => by cases found
  | append_singleton operations operation ih =>
    have answers := run_answers start operations
    rw [run_snoc]
    generalize run directory start.state operations = reached at answers ih
    obtain ⟨state, events⟩ := reached
    intro i key samples found
    rcases Nat.lt_or_ge i events.length with inside | last
    · rw [List.getElem?_append_left inside] at found
      rw [List.take_append_of_le_length inside.le]
      exact ih i key samples found
    · have here : i = events.length := by
        have bound := (List.getElem?_eq_some_iff.mp found).1
        rw [List.length_append, List.length_singleton] at bound
        exact Nat.le_antisymm (Nat.le_of_lt_succ bound) last
      subst here
      rw [List.getElem?_concat_length] at found
      rw [List.take_left]
      cases operation with
      | store | restart => cases Option.some.inj found
      | lookup key' readable =>
        have event := Option.some.inj found
        injection event with same hit
        subst same
        obtain ⟨path, bytes, named, held, length, _, answer⟩ := lookup_eq_some.mp hit
        exact answers _ _ (lookup_eq_some.mpr ⟨path, bytes, named, held, length, rfl, answer⟩)

/-- A lookup finds the count that was stored last under its key, exactly until another key with
the same file name has been stored. -/
theorem lookup_run (directory : Option Path) (start : Start directory)
    (operations : List Operation) (key : Key) :
    guiPlaybackLengthCacheLookup directory (run directory start.state operations).1.files key true =
      (cachePath directory key).bind fun path =>
        (lastAt directory (run directory start.state operations).2 path).bind
          fun (other, samples) => if other = key then some samples else none := by
  cases named : cachePath directory key with
  | none =>
    rw [guiPlaybackLengthCacheLookup, named]
    rfl
  | some path =>
    rw [Option.bind_some]
    induction operations using List.reverseRecOn with
    | nil => exact start.misses key
    | append_singleton operations operation ih =>
      rw [run_snoc]
      generalize run directory start.state operations = reached at ih
      obtain ⟨state, events⟩ := reached
      dsimp only at ih ⊢
      rw [lastAt_snoc]
      cases operation with
      | lookup | restart => exact ih
      | store other samples conditions =>
        have records := store_records conditions state other samples named
        dsimp only [step]
        generalize stored :
          guiPlaybackLengthCacheStore directory conditions state other samples = after at records
        obtain ⟨later, ok⟩ := after
        have kept (same : later.files path = state.files path) :
            guiPlaybackLengthCacheLookup directory later.files key true =
              guiPlaybackLengthCacheLookup directory state.files key true := by
          simp only [guiPlaybackLengthCacheLookup, named, Option.bind_eq_bind, Option.bind_some,
            cacheReadRecord, same]
        cases ok with
        | false => exact (kept (records.trans (if_neg fun both => nomatch both.1))).trans ih
        | true =>
          dsimp only
          by_cases here : cachePath directory other = some path
          · rw [if_pos here]
            refine lookup_record named (records.trans (if_pos ⟨rfl, here⟩)) ?_
            exact (store_samples (congrArg Prod.snd stored)).1
          · rw [if_neg here]
            exact (kept (records.trans (if_neg fun both => here both.2))).trans ih

end MisrcGui.Playback.LengthCache
