import MisrcGui.Library.Machine
import MisrcGui.Update.Install

/-! Update attempts one after the other. The payload folder, the target and the archived
binaries outlive each of them. -/
namespace MisrcGui.Update.InstallRuns
open Library Renames Install
open Library.Percent (ascii)

structure Report where
  attempt : Attempt
  before : Disk
  after : Disk
  ending : Ending

/-- `archived` says where each binary that an update archived stands now. -/
structure State where
  disk : Disk
  archived : List (Text × Node)
  reports : List Report

def targetOf (platform : Platform) (a : Attempt) : Option Text :=
  match plan platform a with
  | .error _ => none
  | .ok p => targetPath platform p

/-- An archived binary may itself be the target of an update, and then moves on. -/
def follow (target archive : Text) (entry : Text × Node) : Text × Node :=
  if entry.1 = target then (archive, entry.2) else entry

def archivedBy (platform : Platform) (state : State) (a : Attempt) : Ending → List (Text × Node)
  | .installed archive | .stranded archive _ =>
    match targetOf platform a with
    | none => state.archived
    | some target => (state.disk target).toList.map (fun node => (archive, node)) ++
        state.archived.map (follow target archive)
  | _ => state.archived

def step (platform : Platform) (state : State) (a : Attempt) : Option State :=
  let result := installAsset platform a state.disk
  some {
    disk := result.1
    archived := archivedBy platform state a result.2
    reports := ⟨a, state.disk, result.1, result.2⟩ :: state.reports }

def Intact (disk : Disk) (archived : List (Text × Node)) : Prop :=
  ∀ entry ∈ archived, disk entry.1 = some entry.2

structure Sound (platform : Platform) (report : Report) : Prop where
  installed : report.ending.returns →
    ∃ target old, targetOf platform report.attempt = some target ∧
      report.before target = some old ∧ report.after report.ending.archivePath = some old ∧
      ∃ entry ∈ payload platform report.attempt, report.after target = some entry.2
  failed : report.ending.returns = false →
    ∀ target, targetOf platform report.attempt = some target →
      report.after target = report.before target ∨
        ∃ archive download, report.ending = .stranded archive download

def written (platform : Platform) (a : Attempt) (p : Plan) : List Text :=
  (payload platform a).map fun entry => inPayload p.updatesDir entry.1

local instance lawfulText : LawfulBEq Text := inferInstance

/-- The payload folder shows no file but those that this extraction writes. -/
def noLeftovers (platform : Platform) (a : Attempt) (p : Plan) (disk : Disk) : Bool :=
  if platform = .macos then (disk (inPayload p.updatesDir appName)).isNone
  else a.listing.all fun name =>
    !isFile disk (inPayload p.updatesDir name) ||
      decide (inPayload p.updatesDir name ∈ written platform a p)

def archiveFree (platform : Platform) (a : Attempt) (p : Plan) (disk : Disk)
    (archived : List (Text × Node)) : Bool :=
  match targetPath platform p with
  | none => true
  | some target => match buildArchivePath target a.currentVersion with
    | none => true
    | some archive => decide (archive ∉ written platform a p) &&
        (decide (archive ∉ archived.map Prod.fst) ||
          !(disk target).any fun moved => (disk archive).all (replaces platform moved))

/-- Neither the download nor the extraction writes over the target or an archived binary,
and an extraction that succeeds finds neither a leftover nor a taken archive path. -/
def undisturbed (platform : Platform) (state : State) (a : Attempt) : Bool :=
  match plan platform a with
  | .error _ => true
  | .ok p =>
    let owned := (targetPath platform p).toList ++ state.archived.map Prod.fst
    let fetched := fetch a p state.disk
    (a.fetched.isNone || decide (p.download ∉ owned)) &&
      match extractReady platform a p fetched with
      | .error _ => true
      | .ok () => (written platform a p).all (fun path => decide (path ∉ owned)) &&
          (decide (a.extractRc ≠ 0) || noLeftovers platform a p fetched &&
            archiveFree platform a p fetched state.archived)

variable {platform : Platform} {a : Attempt} {p : Plan} {disk next : Disk} {state last : State}
  {archived : List (Text × Node)} {target archive staged : Text} {node : Node}

theorem Intact.congr (intact : Intact disk archived)
    (same : ∀ path ∈ archived.map Prod.fst, next path = disk path) : Intact next archived := by
  intro entry member
  rw [same entry.1 (List.mem_map_of_mem member)]
  exact intact entry member

theorem replaceTarget_cases (platform : Platform) (a : Attempt) (p : Plan) (staged : Text)
    (disk : Disk) :
    (∃ status, replaceTarget platform a p staged disk = (disk, .refused status)) ∨
    ∃ target archive node, targetPath platform p = some target ∧
      buildArchivePath target a.currentVersion = some archive ∧ disk target = some node ∧
      (∀ existing, disk archive = some existing → replaces platform node existing) ∧
      ((∃ new, rename disk target archive staged = some new ∧
          replaceTarget platform a p staged disk =
            (rename (rename disk target archive) staged target, .installed archive)) ∨
        replaceTarget platform a p staged disk =
          (rename (rename disk target archive) archive target, .restored p.download) ∨
        replaceTarget platform a p staged disk =
          (rename disk target archive, .stranded archive p.download)) := by
  unfold replaceTarget
  cases aim : targetPath platform p with
  | none => exact .inl ⟨_, rfl⟩
  | some target =>
    cases built : buildArchivePath target a.currentVersion with
    | none => exact .inl ⟨_, by dsimp only; rw [built]⟩
    | some archive =>
      dsimp only
      rw [built]
      dsimp only
      cases archives : moveTo platform disk target archive a.archives with
      | none => exact .inl ⟨_, rfl⟩
      | some archived =>
        obtain ⟨node, there, replaceable, rfl⟩ := moveTo_some archives
        refine .inr ⟨target, archive, node, rfl, built, there, replaceable, ?_⟩
        dsimp only
        cases installs : moveTo platform (rename disk target archive) staged target a.installs with
        | some installed =>
          obtain ⟨new, found, -, rfl⟩ := moveTo_some installs
          exact .inl ⟨new, found, rfl⟩
        | none =>
          dsimp only
          cases restores : moveTo platform (rename disk target archive) archive target
              a.restores with
          | some restored =>
            obtain ⟨-, -, -, rfl⟩ := moveTo_some restores
            exact .inr (.inl rfl)
          | none => exact .inr (.inr rfl)

theorem Intact.carried (intact : Intact disk archived) (there : disk target = some node)
    (free : archive ∉ archived.map Prod.fst) :
    Intact (rename disk target archive)
      ((archive, node) :: archived.map (follow target archive)) := by
  have taken : (disk target).isSome := by rw [there]; rfl
  intro entry member
  rcases List.mem_cons.mp member with rfl | later
  · rw [rename_target taken, there]
  · obtain ⟨old, listed, rfl⟩ := List.mem_map.mp later
    unfold follow
    by_cases here : old.1 = target
    · rw [if_pos here]
      dsimp only
      rw [rename_target taken, ← here, intact old listed]
    · rw [if_neg here, rename_other here, intact old listed]
      intro same
      exact free (same ▸ List.mem_map_of_mem listed)

theorem carried_path {path : Text} (apart : archive ≠ target)
    (member : path ∈ ((archive, node) :: archived.map (follow target archive)).map Prod.fst) :
    path ≠ target ∧ (path = archive ∨ path ∈ archived.map Prod.fst) := by
  obtain ⟨entry, listed, rfl⟩ := List.mem_map.mp member
  rcases List.mem_cons.mp listed with rfl | later
  · exact ⟨apart, .inl rfl⟩
  · obtain ⟨old, earlier, rfl⟩ := List.mem_map.mp later
    unfold follow
    by_cases here : old.1 = target
    · rw [if_pos here]
      exact ⟨apart, .inl rfl⟩
    · rw [if_neg here]
      exact ⟨here, .inr (List.mem_map_of_mem earlier)⟩

section

variable (intact : Intact disk archived) (there : disk target = some node)
  (apart : archive ≠ target) (free : archive ∉ archived.map Prod.fst)

include intact there free in
theorem restored_intact :
    rename (rename disk target archive) archive target target = some node ∧
      Intact (rename (rename disk target archive) archive target) archived := by
  have taken : (disk target).isSome := by rw [there]; rfl
  have moved : (rename disk target archive archive).isSome := by rwa [rename_target taken]
  have back : rename (rename disk target archive) archive target target = some node := by
    rw [rename_target moved, rename_target taken, there]
  refine ⟨back, fun entry member => ?_⟩
  by_cases here : entry.1 = target
  · rw [here, back, ← there, ← here, intact entry member]
  · have other : entry.1 ≠ archive := by
      intro same
      exact free (same ▸ List.mem_map_of_mem member)
    rw [rename_other other here, rename_other here other, intact entry member]

include intact there apart free in
theorem installed_intact {new : Node} (found : rename disk target archive staged = some new)
    (fresh : staged ≠ archive) (other : staged ∉ archived.map Prod.fst) :
    let installed := rename (rename disk target archive) staged target
    disk staged = some new ∧ installed target = some new ∧ installed archive = some node ∧
      Intact installed ((archive, node) :: archived.map (follow target archive)) := by
  have taken : (disk target).isSome := by rw [there]; rfl
  have present : (rename disk target archive staged).isSome := by rw [found]; rfl
  have still : staged ≠ target := by
    rintro rfl
    rw [rename_source apart.symm] at found
    contradiction
  have carried := intact.carried there free
  have kept : ∀ path ∈ ((archive, node) :: archived.map (follow target archive)).map Prod.fst,
      rename (rename disk target archive) staged target path =
        rename disk target archive path := by
    intro path member
    obtain ⟨away, place⟩ := carried_path apart member
    apply rename_other _ away
    rintro rfl
    rcases place with same | earlier
    · exact fresh same
    · exact other earlier
  refine ⟨?_, ?_, ?_, carried.congr kept⟩
  · rw [← found, rename_other still fresh]
  · rw [rename_target present, found]
  · rw [kept archive (by simp), rename_target taken, there]

end

def owned (platform : Platform) (p : Plan) (archived : List (Text × Node)) : List Text :=
  (targetPath platform p).toList ++ archived.map Prod.fst

theorem targetOf_plan (planned : plan platform a = .ok p) :
    targetOf platform a = targetPath platform p := by
  unfold targetOf
  rw [planned]

theorem target_owned (aim : targetPath platform p = some target) :
    target ∈ owned platform p archived := by
  unfold owned
  rw [aim]
  exact List.mem_cons_self ..

theorem archived_owned {path : Text} (member : path ∈ archived.map Prod.fst) :
    path ∈ owned platform p archived := List.mem_append_right _ member

theorem refused_sound {status : Text} (intact : Intact disk archived)
    (planned : plan platform a = .ok p)
    (same : ∀ path ∈ owned platform p archived, next path = disk path) :
    Intact next archived ∧ Sound platform ⟨a, disk, next, .refused status⟩ := by
  refine ⟨intact.congr fun path member => same path (archived_owned member), nofun, ?_⟩
  intro _ target aim
  rw [targetOf_plan planned] at aim
  exact .inl (same target (target_owned aim))

theorem stage_written {fetched : Disk} (clean : noLeftovers platform a p fetched)
    (staged_ok : stage platform a p (extract platform a p fetched) = .ok staged)
    {new : Node} (there : extract platform a p fetched staged = some new) :
    staged ∈ written platform a p ∧ ∃ entry ∈ payload platform a, new = entry.2 := by
  unfold stage at staged_ok
  unfold noLeftovers at clean
  by_cases mac : platform = .macos
  · rw [if_pos mac] at staged_ok clean
    dsimp only at staged_ok
    split at staged_ok
    · contradiction
    · split at staged_ok
      · contradiction
      · cases staged_ok
        rw [Option.isNone_iff_eq_none] at clean
        unfold extract written payload at *
        rw [if_pos mac] at there ⊢
        cases found : a.unpacked.find? fun entry => entry.1 = appName with
        | none =>
          rw [found] at there
          exact absurd (clean.symm.trans there) (by simp)
        | some entry =>
          have name : entry.1 = appName := by simpa using List.find?_some found
          rw [found, Option.toList_some, List.foldl_cons, List.foldl_nil, unpack, name,
            Function.update_self, if_pos mac, clean, copyInto] at there
          · refine ⟨by simp [name], entry, by simp, ?_⟩
            exact (Option.some.inj there).symm
          · simp
          · simp
          · simp
  · rw [if_neg mac] at staged_ok clean
    split at staged_ok
    · contradiction
    · split at staged_ok
      · contradiction
      · rename_i first
        cases staged_ok
        obtain ⟨name, listed, place, isfile⟩ := firstFileInDir_some first
        have wrote : staged ∈ written platform a p := by
          by_contra absent
          have unchanged : extract platform a p fetched staged = fetched staged := by
            apply extract_other
            intro entry member same
            exact absent (List.mem_map.mpr ⟨entry, member, same⟩)
          have shown := List.all_eq_true.mp clean name listed
          rw [← place, Bool.or_eq_true, decide_eq_true_eq] at shown
          rcases shown with missing | written
          · unfold isFile at isfile missing
            rw [unchanged] at isfile
            rw [isfile] at missing
            contradiction
          · exact absent written
        obtain ⟨entry, member, same⟩ := List.mem_map.mp wrote
        have found : ∃ last ∈ payload platform a,
            extract platform a p fetched staged = some last.2 :=
          foldl_unpack_written mac ⟨entry, member, same⟩
        obtain ⟨last, among, stands⟩ := found
        refine ⟨wrote, last, among, ?_⟩
        rw [stands] at there
        exact (Option.some.inj there).symm

theorem stage_ne_archive {fetched : Disk} (clean : noLeftovers platform a p fetched)
    (staged_ok : stage platform a p (extract platform a p fetched) = .ok staged)
    (built : buildArchivePath target a.currentVersion = some archive)
    (unwritten : archive ∉ written platform a p) : staged ≠ archive := by
  rintro rfl
  cases there : extract platform a p fetched staged with
  | some node => exact unwritten (stage_written clean staged_ok there).1
  | none =>
    unfold stage at staged_ok
    split at staged_ok
    · dsimp only at staged_ok
      split at staged_ok
      · contradiction
      · split at staged_ok
        · contradiction
        · cases staged_ok
          exact buildArchivePath_ne_app built rfl
    · split at staged_ok
      · contradiction
      · split at staged_ok
        · contradiction
        · rename_i first
          cases staged_ok
          obtain ⟨-, -, -, isfile⟩ := firstFileInDir_some first
          rw [isFile, there] at isfile
          contradiction

theorem archivedBy_plan (planned : plan platform a = .ok p)
    (aim : targetPath platform p = some target) (there : state.disk target = some node)
    {ending : Ending} (moved : ending = .installed archive ∨
      ∃ download, ending = .stranded archive download) :
    archivedBy platform state a ending =
      (archive, node) :: state.archived.map (follow target archive) := by
  have known : targetOf platform a = some target := (targetOf_plan planned).trans aim
  rcases moved with rfl | ⟨download, rfl⟩ <;>
  · dsimp only [archivedBy]
    rw [known]
    dsimp only
    rw [there]
    rfl

/-- The old binary was allowed to move onto the archive path: nothing archived is there. -/
theorem archive_free (free : archiveFree platform a p disk archived)
    (aim : targetPath platform p = some target)
    (built : buildArchivePath target a.currentVersion = some archive)
    (there : disk target = some node) : archive ∉ written platform a p ∧
      ((∀ existing, disk archive = some existing → replaces platform node existing) →
        archive ∉ archived.map Prod.fst) := by
  unfold archiveFree at free
  rw [aim] at free
  dsimp only at free
  rw [built] at free
  simp only [Bool.and_eq_true, decide_eq_true_eq, Bool.or_eq_true, there, Option.any_some,
    Bool.not_eq_true', Option.all_eq_false] at free
  refine ⟨free.1, fun replaceable => ?_⟩
  rcases free.2 with absent | ⟨existing, taken, refused⟩
  · exact absent
  · rw [replaceable existing taken] at refused
    contradiction

theorem replaceTarget_sound (intact : Intact state.disk state.archived)
    (planned : plan platform a = .ok p)
    (same : ∀ path ∈ owned platform p state.archived, disk path = state.disk path)
    (away : ∀ path ∈ written platform a p, path ∉ owned platform p state.archived)
    (free : ∀ {target archive node}, targetPath platform p = some target →
      buildArchivePath target a.currentVersion = some archive → disk target = some node →
      (∀ existing, disk archive = some existing → replaces platform node existing) →
        staged ≠ archive ∧ archive ∉ state.archived.map Prod.fst)
    (wrote : ∀ {new}, disk staged = some new →
      staged ∈ written platform a p ∧ ∃ entry ∈ payload platform a, new = entry.2) :
    let result := replaceTarget platform a p staged disk
    Intact result.1 (archivedBy platform state a result.2) ∧
      Sound platform ⟨a, state.disk, result.1, result.2⟩ := by
  dsimp only
  rcases replaceTarget_cases platform a p staged disk with
    ⟨status, ended⟩ | ⟨target, archive, node, aim, built, there, replaceable, ends⟩
  · rw [ended]
    exact refused_sound intact planned same
  · have apart := buildArchivePath_ne built
    obtain ⟨fresh, unarchived⟩ := free aim built there replaceable
    have old : state.disk target = some node := by rw [← same target (target_owned aim), there]
    have held : Intact disk state.archived :=
      intact.congr fun path member => same path (archived_owned member)
    have known : targetOf platform a = some target := (targetOf_plan planned).trans aim
    rcases ends with ⟨new, found, ended⟩ | ended | ended
    · have other : staged ∉ state.archived.map Prod.fst := by
        intro member
        have still : staged ≠ target := by
          rintro rfl
          rw [rename_source apart.symm] at found
          contradiction
        rw [rename_other still fresh] at found
        exact away staged (wrote found).1 (archived_owned member)
      obtain ⟨present, placed, kept, intact⟩ := installed_intact held there apart unarchived found
        fresh other
      obtain ⟨entry, member, rfl⟩ := (wrote present).2
      rw [ended]
      dsimp only
      rw [archivedBy_plan planned aim old (.inl rfl)]
      exact ⟨intact, fun _ => ⟨target, node, known, old, kept, entry, member, placed⟩, nofun⟩
    · obtain ⟨back, intact⟩ := restored_intact held there unarchived
      rw [ended]
      refine ⟨intact, nofun, fun _ path aimed => .inl ?_⟩
      cases known.symm.trans aimed
      exact back.trans old.symm
    · rw [ended]
      dsimp only
      rw [archivedBy_plan planned aim old (.inr ⟨_, rfl⟩)]
      exact ⟨held.carried there unarchived, nofun, fun _ _ _ => .inr ⟨_, _, rfl⟩⟩

theorem installAsset_sound (intact : Intact state.disk state.archived)
    (allowed : undisturbed platform state a) :
    let result := installAsset platform a state.disk
    Intact result.1 (archivedBy platform state a result.2) ∧
      Sound platform ⟨a, state.disk, result.1, result.2⟩ := by
  unfold installAsset
  unfold undisturbed at allowed
  cases planned : plan platform a with
  | error status =>
    refine ⟨intact, nofun, fun _ target aim => .inl rfl⟩
  | ok p =>
    rw [planned] at allowed
    dsimp only at allowed ⊢
    rw [← owned, Bool.and_eq_true, Bool.or_eq_true, decide_eq_true_eq] at allowed
    obtain ⟨download, rest⟩ := allowed
    have first : ∀ path ∈ owned platform p state.archived,
        fetch a p state.disk path = state.disk path := by
      intro path member
      apply fetch_other
      rintro some rfl
      rcases download with none | apart
      · rw [Option.isNone_iff_eq_none] at none
        rw [none] at some
        contradiction
      · exact apart member
    cases ready : extractReady platform a p (fetch a p state.disk) with
    | error status => exact refused_sound intact planned first
    | ok _ =>
      rw [ready] at rest
      dsimp only at rest ⊢
      rw [Bool.and_eq_true, Bool.or_eq_true, decide_eq_true_eq, Bool.and_eq_true] at rest
      obtain ⟨apart, rest⟩ := rest
      have away : ∀ path ∈ written platform a p, path ∉ owned platform p state.archived := by
        intro path member
        exact of_decide_eq_true (List.all_eq_true.mp apart path member)
      have second : ∀ path ∈ owned platform p state.archived,
          extract platform a p (fetch a p state.disk) path = state.disk path := by
        intro path member
        rw [← first path member]
        apply extract_other
        rintro entry listed rfl
        exact away _ (List.mem_map_of_mem listed) member
      cases staged_ok : stage platform a p (extract platform a p (fetch a p state.disk)) with
      | error status => exact refused_sound intact planned second
      | ok staged =>
        have succeeded : a.extractRc = 0 := by
          by_contra failed
          unfold stage at staged_ok
          rw [if_pos failed, if_pos failed] at staged_ok
          split at staged_ok <;> contradiction
        obtain ⟨clean, vacant⟩ := rest.resolve_left (not_not_intro succeeded)
        apply replaceTarget_sound intact planned second away
        · intro target archive node aim built there replaceable
          rw [second target (target_owned aim), ← first target (target_owned aim)] at there
          obtain ⟨unwritten, vacated⟩ := archive_free vacant aim built there
          have unchanged : extract platform a p (fetch a p state.disk) archive =
              fetch a p state.disk archive := by
            apply extract_other
            rintro entry listed rfl
            exact unwritten (List.mem_map_of_mem listed)
          rw [unchanged] at replaceable
          exact ⟨stage_ne_archive clean staged_ok built unwritten, vacated replaceable⟩
        · intro new there
          exact stage_written clean staged_ok there

theorem step_inv (h : step platform state a = some last)
    (allowed : undisturbed platform state a)
    (inv : Intact state.disk state.archived ∧ ∀ report ∈ state.reports, Sound platform report) :
    Intact last.disk last.archived ∧ ∀ report ∈ last.reports, Sound platform report := by
  obtain ⟨intact, sound⟩ := installAsset_sound inv.1 allowed
  cases h
  refine ⟨intact, fun report member => ?_⟩
  rcases List.mem_cons.mp member with rfl | earlier
  · exact sound
  · exact inv.2 report earlier

/-- Attempts that nothing disturbs install their own asset or change nothing, and leave
every archived binary as it was. -/
theorem installs_sound (platform : Platform) (disk : Disk) (archived : List (Text × Node))
    (attempts : List Attempt) (last : State) (intact : Intact disk archived)
    (h : Machine.run (Machine.guarded (undisturbed platform) (step platform))
      ⟨disk, archived, []⟩ attempts = some last) :
    Intact last.disk last.archived ∧ ∀ report ∈ last.reports, Sound platform report := by
  have start : Intact disk archived ∧ ∀ report ∈ [], Sound platform report := by
    refine ⟨intact, fun report member => ?_⟩
    cases member
  refine Machine.run_invariant
    (fun state => Intact state.disk state.archived ∧ ∀ report ∈ state.reports,
      Sound platform report) (fun state a next inv taken => ?_) start h
  obtain ⟨allowed, moved⟩ := Machine.guarded_eq_some.mp taken
  exact step_inv moved allowed inv

/-! An application image at `/m`, updated from release archives with one file each. -/

def image (version : UInt8) : Node := .file [version]

def onDisk (version : UInt8) : Disk :=
  fun path => if path = ascii "/m" then some (image version) else none

def update (older newer : UInt8) (name : String) (listing : List String) : Attempt where
  assetUrl := ascii "https://h/a"
  assetName := ascii "a"
  currentVersion := [older]
  executable := some (ascii "/m")
  updatesDir := some (ascii "/u")
  fetched := some [newer]
  curlRc := 0
  dirsReady := true
  systemDir := none
  mountRc := 0
  unpacked := [(ascii name, image newer)]
  extractRc := 0
  listing := listing.map ascii
  archives := true
  installs := true
  restores := true

def blocked (attempt : Attempt) : Attempt := { attempt with archives := false }

theorem onDisk_intact (version : UInt8) : Intact (onDisk version) [] := by
  intro entry member
  cases member

/-- Two updates, each from the version the one before it installed. -/
theorem installs_sound_twice : ∃ last,
    Machine.run (Machine.guarded (undisturbed .linux) (step .linux)) ⟨onDisk 49, [], []⟩
      [update 49 50 "x" [".", "x"], update 50 51 "y" ["..", "y"]] = some last ∧
    last.archived.length = 2 ∧ last.disk (ascii "/m") = some (image 51) ∧
    Intact last.disk last.archived ∧ ∀ report ∈ last.reports, Sound .linux report := by
  have ran : (Machine.run (Machine.guarded (undisturbed .linux) (step .linux))
      ⟨onDisk 49, [], []⟩
        [update 49 50 "x" [".", "x"], update 50 51 "y" ["..", "y"]]).map
        (fun last => (last.archived.length, last.disk (ascii "/m"))) =
          some (2, some (image 51)) := by decide +kernel
  obtain ⟨last, reached, shape⟩ := Option.map_eq_some_iff.mp ran
  rw [Prod.mk.injEq] at shape
  exact ⟨last, reached, shape.1, shape.2,
    installs_sound .linux (onDisk 49) [] _ last (onDisk_intact 49) reached⟩

/-- Two updates of the same running version: the second archives over the first. Or an
update that cannot archive the old binary, and another asset after it. -/
theorem archive_lost_and_leftover_installed :
    (¬∀ (platform : Platform) (disk : Disk) (archived : List (Text × Node))
      (attempts : List Attempt) (last : State), Intact disk archived →
        Machine.run (step platform) ⟨disk, archived, []⟩ attempts = some last →
          Intact last.disk last.archived) ∧
    ¬∀ (platform : Platform) (disk : Disk) (archived : List (Text × Node))
      (attempts : List Attempt) (last : State), Intact disk archived →
        Machine.run (step platform) ⟨disk, archived, []⟩ attempts = some last →
          ∀ report ∈ last.reports, Sound platform report := by
  constructor
  · intro claim
    have ran : (Machine.run (step .linux) ⟨onDisk 49, [], []⟩
        [update 49 50 "x" ["x"], update 49 51 "y" ["y"]]).map
          (fun last => last.archived.map fun entry => (entry.2, last.disk entry.1)) =
            some [(image 50, some (image 50)), (image 49, some (image 50))] := by
      decide +kernel
    obtain ⟨last, reached, shape⟩ := Option.map_eq_some_iff.mp ran
    have intact := claim .linux _ _ _ last (onDisk_intact 49) reached
    have lost : (image 49, some (image 50)) ∈
        last.archived.map fun entry => (entry.2, last.disk entry.1) := by
      rw [shape]
      simp
    obtain ⟨entry, member, same⟩ := List.mem_map.mp lost
    rw [intact entry member, Prod.mk.injEq] at same
    rw [same.1] at same
    exact absurd same.2 (by decide)
  · intro claim
    have ran : (Machine.run (step .linux) ⟨onDisk 49, [], []⟩
        [blocked (update 49 50 "x" ["x"]), update 49 51 "y" ["x", "y"]]).map
          (fun last => last.reports.map fun report =>
            (report.ending.returns, report.after (ascii "/m"))) =
            some [(true, some (image 50)), (false, some (image 49))] := by
      decide +kernel
    have attempts : (Machine.run (step .linux) ⟨onDisk 49, [], []⟩
        [blocked (update 49 50 "x" ["x"]), update 49 51 "y" ["x", "y"]]).map
          (fun last => last.reports.map fun report =>
            (targetOf .linux report.attempt, payload .linux report.attempt)) =
            some [(some (ascii "/m"), [(ascii "y", image 51)]),
              (some (ascii "/m"), [(ascii "x", image 50)])] := by
      decide +kernel
    obtain ⟨last, reached, shape⟩ := Option.map_eq_some_iff.mp ran
    rw [reached, Option.map_some, Option.some.injEq] at attempts
    have sound := claim .linux _ _ _ last (onDisk_intact 49) reached
    cases reports : last.reports with
    | nil =>
      rw [reports] at shape
      contradiction
    | cons report earlier =>
      rw [reports, List.map_cons, List.cons.injEq, Prod.mk.injEq] at shape attempts
      obtain ⟨⟨returns, stands⟩, -⟩ := shape
      obtain ⟨⟨aim, brought⟩, -⟩ := attempts
      obtain ⟨target, -, known, -, -, entry, listed, there⟩ :=
        (sound report (by rw [reports]; exact List.mem_cons_self ..)).installed returns
      cases aim.symm.trans known
      rw [brought, List.mem_singleton] at listed
      rw [stands, listed] at there
      exact absurd there (by decide)

end MisrcGui.Update.InstallRuns
