import MisrcGui.Library.Machine
import MisrcGui.LocalSave.Receiver

/-! A commit that fails leaves every file as it was, unless it has replaced one. -/
namespace MisrcGui.LocalSave
open Library
open Renames (Moves perform undo rename)

section

variable {files next : Fin maxFiles → SavedFile} {disk after : Disk}

structure WellNamed (files : Fin maxFiles → SavedFile) (disk : Disk) : Prop where
  named : ∀ id, (files id).wasOpened = true →
    (files id).incompletePath = (files id).finalPath ++ partialSuffix
  present : ∀ id, (files id).wasOpened = true → (disk (files id).incompletePath).isSome = true
  distinct : ∀ one other, (files one).wasOpened = true → (files other).wasOpened = true →
    (files one).incompletePath = (files other).incompletePath → one = other

/-- Two records of a file agree on whether it was opened and, if so, on its names. -/
structure SavedFile.SameNames (file other : SavedFile) : Prop where
  opened : file.wasOpened = other.wasOpened
  incomplete : other.wasOpened = true → file.incompletePath = other.incompletePath
  final : other.wasOpened = true → file.finalPath = other.finalPath

theorem WellNamed.congr (well : WellNamed files disk)
    (same : ∀ id, (next id).SameNames (files id))
    (kept : ∀ path, (disk path).isSome = true → (after path).isSome = true) :
    WellNamed next after := by
  constructor
  · intro id opened
    rw [(same id).opened] at opened
    rw [(same id).incomplete opened, (same id).final opened]
    exact well.named id opened
  · intro id opened
    rw [(same id).opened] at opened
    rw [(same id).incomplete opened]
    exact kept _ (well.present id opened)
  · intro one other first second equal
    rw [(same one).opened] at first
    rw [(same other).opened] at second
    rw [(same one).incomplete first, (same other).incomplete second] at equal
    exact well.distinct one other first second equal

theorem sameNames_update {id : Fin maxFiles} {file : SavedFile}
    (same : file.SameNames (files id)) (other : Fin maxFiles) :
    (Function.update files id file other).SameNames (files other) := by
  by_cases here : other = id
  · subst here
    rw [Function.update_self]
    exact same
  · rw [Function.update_of_ne here]
    exact ⟨rfl, fun _ => rfl, fun _ => rfl⟩

theorem isSome_update {path : Path} {content : Bytes} {other : Path}
    (taken : (disk other).isSome = true) :
    (Function.update disk path (some content) other).isSome = true := by
  by_cases here : other = path
  · subst here
    rw [Function.update_self]
    rfl
  · rw [Function.update_of_ne here]
    exact taken

theorem WellNamed.open (well : WellNamed files disk) {id : Fin maxFiles} {file : SavedFile}
    (named : file.incompletePath = file.finalPath ++ partialSuffix)
    (free : pathExists disk file.incompletePath = false) :
    WellNamed (Function.update files id file)
      (Function.update disk file.incompletePath (some [])) := by
  have other_path {other : Fin maxFiles} (opened : (files other).wasOpened = true) :
      (files other).incompletePath ≠ file.incompletePath := by
    intro same
    have present := well.present other opened
    rw [same] at present
    rw [pathExists] at free
    simp [free] at present
  constructor
  · intro other opened
    by_cases here : other = id
    · subst here
      rw [Function.update_self]
      exact named
    · rw [Function.update_of_ne here] at opened ⊢
      exact well.named other opened
  · intro other opened
    by_cases here : other = id
    · subst here
      rw [Function.update_self, Function.update_self]
      rfl
    · rw [Function.update_of_ne here] at opened ⊢
      exact isSome_update (well.present other opened)
  · intro one other first second equal
    by_cases here : one = id
    · by_cases there : other = id
      · rw [here, there]
      · rw [Function.update_of_ne there] at second equal
        rw [here, Function.update_self] at equal
        exact absurd equal.symm (other_path second)
    · rw [Function.update_of_ne here] at first equal
      by_cases there : other = id
      · rw [there, Function.update_self] at equal
        exact absurd equal (other_path first)
      · rw [Function.update_of_ne there] at second equal
        exact well.distinct one other first second equal

end

variable {faults : Faults} {session : Session}

abbrev Session.Well (session : Session) : Prop := WellNamed session.receiver.files session.disk

theorem openFile_well (well : session.Well) (id : Fin maxFiles) (name : Bytes) :
    (openFile faults session id name).1.Well := by
  simp only [openFile]
  split
  · exact well
  · next closed =>
    have unopened : (session.file id).wasOpened = false := by
      simp only [Bool.or_eq_true, not_or, Bool.not_eq_true] at closed
      exact closed.1.1.1.1.2
    have rename (file : SavedFile) (still : file.wasOpened = (session.file id).wasOpened) :
        (session.withFile id file).Well := by
      apply well.congr _ fun _ taken => taken
      apply sameNames_update
      refine ⟨still, fun opened => ?_, fun opened => ?_⟩
      · rw [Session.file] at unopened
        simp [unopened] at opened
      · rw [Session.file] at unopened
        simp [unopened] at opened
    split
    · exact rename _ rfl
    · split
      · exact rename _ rfl
      · split
        · exact rename _ rfl
        · next free =>
          split
          · exact rename _ rfl
          · simp only [Bool.or_eq_true, not_or, Bool.not_eq_true] at free
            exact WellNamed.open well rfl free.1

theorem Session.Well.touch (well : session.Well) {id : Fin maxFiles} {file : SavedFile}
    {disk : Disk} (same : file.SameNames (session.file id))
    (kept : ∀ path, (session.disk path).isSome = true → (disk path).isSome = true) :
    ({ session.withFile id file with disk } : Session).Well :=
  well.congr (sameNames_update same) kept

theorem writeFile_well (well : session.Well) (id : Fin maxFiles) (offset : Nat) (data : Bytes)
    (flushNow : Bool) : (writeFile faults session id offset data flushNow).1.Well := by
  simp only [writeFile]
  split
  · exact well
  · split
    · exact well
    · split
      · exact well.touch ⟨rfl, fun _ => rfl, fun _ => rfl⟩ fun _ => isSome_update
      · exact well.touch ⟨rfl, fun _ => rfl, fun _ => rfl⟩ fun _ => isSome_update

theorem seekFile_well (well : session.Well) (id : Fin maxFiles) (offset : Nat) :
    (seekFile faults session id offset).1.Well := by
  simp only [seekFile]
  split
  · exact well
  · exact well.touch ⟨rfl, fun _ => rfl, fun _ => rfl⟩ fun _ taken => taken

theorem closeFile_well (well : session.Well) (id : Fin maxFiles) :
    (closeFile faults session id).1.Well := by
  simp only [closeFile]
  split
  · exact well
  · exact well.touch ⟨rfl, fun _ => rfl, fun _ => rfl⟩ fun _ taken => taken

theorem abortFiles_well (well : session.Well) : (abortFiles session).Well := by
  apply well.congr _ fun _ taken => taken
  intro id
  exact ⟨rfl, fun _ => rfl, fun _ => rfl⟩

theorem applyType_well (faults : Faults) (well : session.Well) (id : Fin maxFiles) {frame : Frame}
    (before : frame.type ≠ .commit) : (applyType faults session id frame).1.Well := by
  simp only [applyType]
  split
  · exact openFile_well well id _
  · exact writeFile_well well id _ _ _
  · exact writeFile_well well id _ _ _
  · exact well
  · split
    · exact seekFile_well well id _
    · exact well
  · split
    · exact closeFile_well well id
    · exact well
  · next commit => exact absurd commit before
  · exact abortFiles_well well
  · exact well

theorem receiverApply_well (well : session.Well) {frame : Frame}
    (before : frame.type ≠ .commit) : (receiverApply faults session frame).1.Well := by
  unfold receiverApply
  split
  · next inside =>
    split
    · exact well
    · split
      · exact well
      · have applied := applyType_well faults well ⟨frame.fileId, inside⟩ before
        split
        · next after same =>
          rw [same] at applied
          split
          · exact applied
          · exact applied
        · next after same =>
          rw [same] at applied
          exact applied
  · exact well

/-- Frames arrive, and other programs change any file but the partial ones. -/
inductive SessionAction where
  | frame (faults : Faults) (frame : Frame)
  | others (disk : Disk)

def sparesPartials (session : Session) (disk : Disk) : Bool :=
  (openedFiles session.receiver).all fun id =>
    decide (disk (session.file id).incompletePath =
      session.disk (session.file id).incompletePath)

def sessionStep (session : Session) : SessionAction → Option Session
  | .frame faults frame =>
    if frame.type = .commit then none else some (receiverApply faults session frame).1
  | .others disk => if sparesPartials session disk then some { session with disk } else none

theorem mem_openedFiles {receiver : Receiver} {id : Fin maxFiles} :
    id ∈ openedFiles receiver ↔ (receiver.files id).wasOpened = true := by
  simp [openedFiles]

theorem sessionStep_well (well : session.Well) {action : SessionAction} {next : Session}
    (h : sessionStep session action = some next) : next.Well := by
  cases action with
  | frame faults frame =>
    simp only [sessionStep] at h
    split at h
    · contradiction
    · next before =>
      cases h
      exact receiverApply_well well before
  | others disk =>
    simp only [sessionStep] at h
    split at h
    · next spared =>
      cases h
      refine ⟨well.named, ?_, well.distinct⟩
      intro id opened
      have same := of_decide_eq_true (List.all_eq_true.mp spared id (mem_openedFiles.mpr opened))
      change (disk (session.file id).incompletePath).isSome = true
      rw [same]
      exact well.present id opened
    · contradiction

theorem receiverInit_well (directory : Path) (overwrite : Bool) (disk : Disk) :
    (⟨receiverInit directory overwrite, disk⟩ : Session).Well :=
  ⟨nofun, nofun, nofun⟩

def movesOf (files : Fin maxFiles → SavedFile) (ids : List (Fin maxFiles)) : Moves Path :=
  ids.map fun id => ((files id).incompletePath, (files id).finalPath)

theorem tryRename_of_taken {disk : Disk} {source target : Path}
    (taken : (disk source).isSome = true) :
    tryRename false disk source target = some (rename disk source target) := by
  have present : (disk source).isNone = false := by
    rw [← Option.not_isSome, taken]
    rfl
  simp [tryRename, present]

theorem tryRename_getD (disk : Disk) (source target : Path) :
    (tryRename false disk source target).getD disk = rename disk source target := by
  by_cases taken : (disk source).isSome = true
  · rw [tryRename_of_taken taken, Option.getD_some]
  · have missing : disk source = none := by simpa using taken
    simp [tryRename, missing, Renames.rename_of_none missing]

section

variable {files : Fin maxFiles → SavedFile} (restores : ∀ id, faults.restore id = false)

include restores in
theorem rollback_eq (disk : Disk) (done : List (Fin maxFiles)) :
    done.foldl (fun disk earlier =>
      (tryRename (faults.restore earlier) disk (files earlier).finalPath
        (files earlier).incompletePath).getD disk) disk = undo disk (movesOf files done) := by
  induction done generalizing disk with
  | nil => rfl
  | cons id done ih =>
    rw [List.foldl_cons, restores, tryRename_getD, ih]
    rfl

include restores in
theorem commitRenames_eq (done : List (Fin maxFiles)) {ids : List (Fin maxFiles)} {disk : Disk}
    (distinct : (ids.map fun id => (files id).incompletePath).Nodup)
    (taken : ∀ id ∈ ids, (disk (files id).incompletePath).isSome = true) :
    commitRenames faults files done ids disk =
      if ids.all fun id => !faults.rename id then (perform disk (movesOf files ids), true)
      else
        (undo (perform disk (movesOf files (ids.takeWhile fun id => !faults.rename id)))
          (movesOf files (done ++ ids.takeWhile fun id => !faults.rename id)), false) := by
  induction ids generalizing done disk with
  | nil => rfl
  | cons id ids ih =>
    obtain ⟨new, distinct⟩ := List.nodup_cons.mp distinct
    cases failed : faults.rename id with
    | true =>
      have stopped : tryRename true disk (files id).incompletePath (files id).finalPath = none :=
        rfl
      simp only [commitRenames, failed, stopped, List.all_cons, Bool.not_true, Bool.false_and, Bool.false_eq_true, if_false, List.takeWhile_cons,
        List.append_nil, rollback_eq restores]
      rfl
    | false =>
      have here := taken id (List.mem_cons_self ..)
      have still : ∀ other ∈ ids, (rename disk (files id).incompletePath (files id).finalPath
          (files other).incompletePath).isSome = true := by
        intro other member
        apply Renames.rename_isSome _ (taken other (List.mem_cons_of_mem _ member))
        intro same
        apply new
        exact List.mem_map.mpr ⟨other, member, same⟩
      rw [commitRenames, failed, tryRename_of_taken here]
      dsimp only
      rw [ih _ distinct still]
      simp only [List.all_cons, failed, Bool.not_false, Bool.true_and, List.takeWhile_cons,
        if_true, List.append_assoc, List.cons_append, List.nil_append]
      rfl

end

def Atomic (session : Session) (outcome : Session × Bool) : Prop :=
  ∀ id, (session.file id).wasOpened = true →
    if outcome.2 then
      outcome.1.disk (session.file id).finalPath =
          session.disk (session.file id).incompletePath ∧
        outcome.1.disk (session.file id).incompletePath = none
    else
      outcome.1.disk (session.file id).finalPath = session.disk (session.file id).finalPath ∧
        outcome.1.disk (session.file id).incompletePath =
          session.disk (session.file id).incompletePath

def movedFiles (faults : Faults) (session : Session) : List (Fin maxFiles) :=
  (openedFiles session.receiver).takeWhile fun id => !faults.rename id

def renamesAll (faults : Faults) (session : Session) : Bool :=
  (openedFiles session.receiver).all fun id => !faults.rename id

def NamesApart (session : Session) : Prop :=
  ∀ one ∈ openedFiles session.receiver, ∀ other ∈ openedFiles session.receiver,
    (session.file one).finalPath ≠ (session.file other).incompletePath

instance (session : Session) : Decidable (NamesApart session) :=
  inferInstanceAs (Decidable (∀ one ∈ openedFiles session.receiver,
    ∀ other ∈ openedFiles session.receiver,
      (session.file one).finalPath ≠ (session.file other).incompletePath))

/-- The commit is refused; or every rename goes through, with names apart; or none of those
that do, before one fails, replaces a file. -/
def ReplacesNothing (faults : Faults) (session : Session) : Prop :=
  refusesCommit session = true ∨
    renamesAll faults session = true ∧ NamesApart session ∨
      renamesAll faults session = false ∧
        ∀ id ∈ movedFiles faults session, session.disk (session.file id).finalPath = none

theorem moves_proper (well : session.Well) {ids : List (Fin maxFiles)} (distinct : ids.Nodup)
    (opened : ∀ id ∈ ids, (session.file id).wasOpened = true) :
    (Renames.sources (movesOf session.receiver.files ids)).Nodup ∧
      (Renames.targets (movesOf session.receiver.files ids)).Nodup ∧
      (∀ move ∈ movesOf session.receiver.files ids, (session.disk move.1).isSome = true) ∧
      ∀ move ∈ movesOf session.receiver.files ids, move.1 ≠ move.2 := by
  have source : Renames.sources (movesOf session.receiver.files ids) =
      ids.map fun id => (session.file id).incompletePath := by
    simp [Renames.sources, movesOf, Function.comp_def, Session.file]
  have target : Renames.targets (movesOf session.receiver.files ids) =
      ids.map fun id => (session.file id).finalPath := by
    simp [Renames.targets, movesOf, Function.comp_def, Session.file]
  refine ⟨?_, ?_, ?_, ?_⟩
  · rw [source]
    apply distinct.map_on
    intro one first other second same
    exact well.distinct one other (opened one first) (opened other second) same
  · rw [target]
    apply distinct.map_on
    intro one first other second same
    apply well.distinct one other (opened one first) (opened other second)
    rw [well.named one (opened one first), well.named other (opened other second)]
    exact congrArg (· ++ partialSuffix) same
  · intro move member
    obtain ⟨id, here, rfl⟩ := List.mem_map.mp member
    exact well.present id (opened id here)
  · intro move member
    obtain ⟨id, here, rfl⟩ := List.mem_map.mp member
    have named := well.named id (opened id here)
    intro same
    dsimp only at same
    rw [named] at same
    have size := congrArg List.length same
    simp [partialSuffix] at size

theorem commitFiles_eq (well : session.Well) (restores : ∀ id, faults.restore id = false)
    (accepted : refusesCommit session = false) :
    (commitFiles faults session).1.disk =
        (if renamesAll faults session then
          perform session.disk (movesOf session.receiver.files (openedFiles session.receiver))
        else
          undo (perform session.disk
              (movesOf session.receiver.files (movedFiles faults session)))
            (movesOf session.receiver.files (movedFiles faults session))) ∧
      (commitFiles faults session).2 = renamesAll faults session := by
  have distinct : (openedFiles session.receiver).Nodup := (List.nodup_finRange _).filter _
  have opened : ∀ id ∈ openedFiles session.receiver, (session.file id).wasOpened = true :=
    fun id member => mem_openedFiles.mp member
  have sources := (moves_proper well distinct opened).1
  rw [Renames.sources, movesOf, List.map_map] at sources
  have renames := commitRenames_eq restores [] sources
    (fun id member => well.present id (opened id member))
  simp only [commitFiles, accepted, Bool.false_eq_true, if_false, renames, List.nil_append,
    renamesAll, movedFiles]
  split
  · next every => simp [every]
  · next some => simp [some]

/-- When every rename goes through, the files arrive exactly if their names are apart. -/
theorem atomic_of_renamed (well : session.Well) {after : Session}
    (disk : after.disk =
      perform session.disk (movesOf session.receiver.files (openedFiles session.receiver))) :
    Atomic session (after, true) ↔ NamesApart session := by
  have distinct : (openedFiles session.receiver).Nodup := (List.nodup_finRange _).filter _
  obtain ⟨sources, targets, taken, _⟩ := moves_proper well distinct fun id member =>
    mem_openedFiles.mp member
  constructor
  · intro atomic one first other second same
    have arrived := (atomic one (mem_openedFiles.mp first)).1
    have gone := (atomic other (mem_openedFiles.mp second)).2
    rw [same] at arrived
    have present := well.present one (mem_openedFiles.mp first)
    change (session.disk (session.file one).incompletePath).isSome = true at present
    rw [← arrived, gone] at present
    contradiction
  · intro apart id opened
    have independent : Renames.Independent
        (movesOf session.receiver.files (openedFiles session.receiver)) := by
      refine ⟨sources, targets, ?_⟩
      intro path left right
      simp only [Renames.sources, Renames.targets, movesOf, List.map_map, List.mem_map] at left right
      obtain ⟨other, second, rfl⟩ := left
      obtain ⟨one, first, same⟩ := right
      exact apart one first other second same
    have carried := Renames.perform_independent independent taken _
      (List.mem_map_of_mem (mem_openedFiles.mpr opened))
    rw [← disk] at carried
    exact carried

/-- When a rename fails, the disk is as before exactly if no earlier one has replaced a file. -/
theorem atomic_of_failed (well : session.Well) {after : Session}
    (disk : after.disk =
      undo (perform session.disk (movesOf session.receiver.files (movedFiles faults session)))
        (movesOf session.receiver.files (movedFiles faults session))) :
    Atomic session (after, false) ↔
      ∀ id ∈ movedFiles faults session, session.disk (session.file id).finalPath = none := by
  have inside : ∀ id ∈ movedFiles faults session, (session.file id).wasOpened = true :=
    fun id member => mem_openedFiles.mp ((List.takeWhile_prefix _).subset member)
  have distinct : (movedFiles faults session).Nodup :=
    ((List.nodup_finRange _).filter _).sublist (List.takeWhile_prefix _).sublist
  obtain ⟨sources, targets, taken, different⟩ := moves_proper well distinct inside
  constructor
  · intro atomic id member
    by_contra replaced
    have clobbered : (session.disk (session.file id).finalPath).isSome = true := by
      simpa [Option.isSome_iff_ne_none] using replaced
    have paths : ∀ move ∈ movesOf session.receiver.files (movedFiles faults session),
        move.1 ∈ (Renames.sources (movesOf session.receiver.files (movedFiles faults session)) ++
          Renames.targets (movesOf session.receiver.files
            (movedFiles faults session))).toFinset ∧
        move.2 ∈ (Renames.sources (movesOf session.receiver.files (movedFiles faults session)) ++
          Renames.targets (movesOf session.receiver.files
            (movedFiles faults session))).toFinset ∧ move.1 ≠ move.2 := by
      intro move here
      refine ⟨?_, ?_, different move here⟩
      · exact List.mem_toFinset.mpr (List.mem_append_left _ (List.mem_map_of_mem here))
      · exact List.mem_toFinset.mpr (List.mem_append_right _ (List.mem_map_of_mem here))
    obtain ⟨path, here, changed⟩ := Renames.undo_perform_lost sources targets paths taken
      (List.mem_map_of_mem member) clobbered
    apply changed
    rw [← disk]
    cases List.mem_append.mp (List.mem_toFinset.mp here) with
    | inl source =>
      simp only [Renames.sources, movesOf, List.map_map, List.mem_map] at source
      obtain ⟨other, there, rfl⟩ := source
      exact (atomic other (inside other there)).2
    | inr target =>
      simp only [Renames.targets, movesOf, List.map_map, List.mem_map] at target
      obtain ⟨other, there, rfl⟩ := target
      exact (atomic other (inside other there)).1
  · intro free id _
    have restored : after.disk = session.disk := by
      rw [disk]
      apply Renames.undo_perform sources targets taken
      intro move member
      obtain ⟨other, here, rfl⟩ := List.mem_map.mp member
      exact free other here
    change after.disk _ = _ ∧ after.disk _ = _
    rw [restored]
    exact ⟨rfl, rfl⟩

theorem atomic_iff_of_well (well : session.Well)
    (restores : ∀ id, faults.restore id = false) :
    Atomic session (commitFiles faults session) ↔ ReplacesNothing faults session := by
  cases refused : refusesCommit session with
  | true =>
    have unchanged : commitFiles faults session = (session, false) := by
      rw [commitFiles, refused]
      rfl
    rw [unchanged]
    exact ⟨fun _ => Or.inl refused, fun _ _ _ => ⟨rfl, rfl⟩⟩
  | false =>
    obtain ⟨disk, committed⟩ := commitFiles_eq well restores refused
    cases outcome : commitFiles faults session with
    | mk after success =>
      rw [outcome] at disk committed
      dsimp only at disk committed
      cases every : renamesAll faults session with
      | true =>
        rw [every, if_pos rfl] at disk
        rw [committed, every, atomic_of_renamed well disk]
        simp [ReplacesNothing, refused, every]
      | false =>
        rw [every, if_neg Bool.false_ne_true] at disk
        rw [committed, every, atomic_of_failed well disk]
        simp [ReplacesNothing, refused, every]

/-- After any session of a receiver, with roll-back renames that succeed, a commit moves all
files or leaves everything as it was exactly if it replaces no file for nothing. -/
theorem commit_atomic_iff {directory : Path} {overwrite : Bool} {disk : Disk}
    {schedule : List SessionAction} {session : Session}
    (h : Machine.run sessionStep ⟨receiverInit directory overwrite, disk⟩ schedule =
      some session) (restores : ∀ id, faults.restore id = false) :
    Atomic session (commitFiles faults session) ↔ ReplacesNothing faults session := by
  have well := Machine.run_invariant Session.Well
    (fun _ _ _ before taken => sessionStep_well before taken)
    (receiverInit_well directory overwrite disk) h
  exact atomic_iff_of_well well restores

def savedFile (id : Nat) (name : UInt8) : List SessionAction :=
  [.frame noFaults ⟨.open, id, 0, [name], crc32 [name]⟩,
    .frame noFaults ⟨.write, id, 0, [7], crc32 [7]⟩, .frame noFaults ⟨.close, id, 0, [], 0⟩]

def firstFile : Fin maxFiles := ⟨0, maxFiles_pos⟩
def secondFile : Fin maxFiles := ⟨1, one_lt_maxFiles⟩

def savedTwo : List SessionAction := savedFile firstFile 97 ++ savedFile secondFile 98

theorem commit_atomic_iff_two_files :
    ∃ session, Machine.run sessionStep ⟨receiverInit [47, 100] false, fun _ => none⟩ savedTwo =
        some session ∧
      (session.file secondFile).wasClosed = true ∧
        Atomic session (commitFiles noFaults session) := by
  have runs : (Machine.run sessionStep ⟨receiverInit [47, 100] false, fun _ => none⟩
      savedTwo).any (fun session =>
        (session.file secondFile).wasClosed && renamesAll noFaults session &&
          decide (NamesApart session)) = true := by
    decide +kernel
  obtain ⟨session, h, facts⟩ := (Option.any_eq_true _ _).mp runs
  simp only [Bool.and_eq_true, decide_eq_true_eq] at facts
  refine ⟨session, h, facts.1.1, ?_⟩
  exact (commit_atomic_iff h fun _ => rfl).mpr (Or.inr (Or.inl ⟨facts.1.2, facts.2⟩))

def earlierDisk : Disk := fun path => if path = [47, 100, 47, 97] then some [1] else none

def secondFails : Faults := { noFaults with rename := fun id => decide (id = secondFile) }

/-- The first file replaces the earlier one, and the second cannot be renamed. -/
theorem replaced_file_lost :
    ∃ session, Machine.run sessionStep ⟨receiverInit [47, 100] true, earlierDisk⟩ savedTwo =
        some session ∧ ¬Atomic session (commitFiles secondFails session) := by
  have runs : (Machine.run sessionStep ⟨receiverInit [47, 100] true, earlierDisk⟩ savedTwo).any
      (fun session =>
        let outcome := commitFiles secondFails session
        (session.file firstFile).wasOpened && !outcome.2 &&
          outcome.1.disk (session.file firstFile).finalPath !=
            session.disk (session.file firstFile).finalPath) = true := by
    decide +kernel
  obtain ⟨session, h, facts⟩ := (Option.any_eq_true _ _).mp runs
  simp only [Bool.and_eq_true, Bool.not_eq_true', bne_iff_ne] at facts
  refine ⟨session, h, ?_⟩
  intro atomic
  have kept := atomic firstFile facts.1.1
  rw [facts.1.2] at kept
  exact facts.2 kept.1

end MisrcGui.LocalSave
