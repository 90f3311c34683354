import MisrcGui.Record.AffinityGrammar

/-! The whole run of the CPU list parser. -/
namespace MisrcGui.Record.AffinityList
open Library
open Library.NumberText (isDigit isSpace digitsValue)
open Library.Terminated (Checked loop)

def addRanges (ranges : List (Nat × Nat)) (set : Finset Nat) : Finset Nat :=
  ranges.foldl (fun set range => setCpus range set) set

theorem mem_insertAll (cpus : List Nat) (set : Finset Nat) (cpu : Nat) :
    cpu ∈ cpus.foldl (fun set cpu => insert cpu set) set ↔ cpu ∈ set ∨ cpu ∈ cpus := by
  induction cpus generalizing set with
  | nil => simp
  | cons first cpus ih =>
    rw [List.foldl_cons, ih, Finset.mem_insert, List.mem_cons]
    tauto

theorem mem_setCpus (range : Nat × Nat) (set : Finset Nat) (cpu : Nat) :
    cpu ∈ setCpus range set ↔ cpu ∈ set ∨ range.1 ≤ cpu ∧ cpu ≤ range.2 := by
  rw [setCpus, mem_insertAll, List.mem_range'_1]
  exact or_congr_right (by omega)

theorem mem_addRanges (ranges : List (Nat × Nat)) (set : Finset Nat) (cpu : Nat) :
    cpu ∈ addRanges ranges set ↔ cpu ∈ set ∨ Covers ranges cpu := by
  induction ranges generalizing set with
  | nil => simp [addRanges, Covers]
  | cons range ranges ih =>
    show cpu ∈ addRanges ranges (setCpus range set) ↔ _
    rw [ih, mem_setCpus]
    simp only [Covers, List.mem_cons, exists_eq_or_imp]
    tauto

section rounds
variable {system : System} {scan next : Scan} {set : Finset Nat} {text rest : Text}

theorem IsList.begins {ranges : List (Nat × Nat)} (isList : IsList text ranges) :
    Begins text ranges := by
  induction isList with
  | last before item after => exact .item before item
  | more before item after _ ih => exact .more before item after ih

theorem IsList.pad {ranges : List (Nat × Nat)} {spaces : Text} (blank : Spaces spaces)
    (isList : IsList text ranges) : IsList (spaces ++ text) ranges := by
  have both {before : Text} (more : Spaces before) : Spaces (spaces ++ before) := fun c inside =>
    (List.mem_append.mp inside).elim (blank c) (more c)
  cases isList with
  | last before item after =>
    rw [← List.append_assoc]
    exact .last (both before) item after
  | more before item after later =>
    rw [← List.append_assoc]
    exact .more (both before) item after later

theorem Begins.pad {ranges : List (Nat × Nat)} {spaces : Text} (blank : Spaces spaces)
    (begins : Begins text ranges) : Begins (spaces ++ text) ranges := by
  have both {before : Text} (more : Spaces before) : Spaces (spaces ++ before) := fun c inside =>
    (List.mem_append.mp inside).elim (blank c) (more c)
  cases begins with
  | none => exact .none _
  | item before item =>
    rw [← List.append_assoc]
    exact .item (both before) item
  | more before item after later =>
    rw [← List.append_assoc]
    exact .more (both before) item after later

/-- What the end of a run says of the text and the set that it started with. -/
def Explains (system : System) (scan : Scan) (scanEnd : ScanEnd) : Prop :=
  match scanEnd.outcome with
  | .ok parsedAny =>
    (skipSpace scan.text = [] ∧ scanEnd.set = scan.set ∧ parsedAny = scan.parsedAny) ∨
      ∃ ranges, IsList scan.text ranges ∧ (∀ range ∈ ranges, Within system range) ∧
        scanEnd.set = addRanges ranges scan.set ∧ parsedAny = true
  | .error _ => ∃ ranges, Begins scan.text ranges ∧ (∀ range ∈ ranges, Within system range) ∧
      scanEnd.set = addRanges ranges scan.set

def TakesItem (system : System) (scan next : Scan) : Prop :=
  ∃ before item after rest range, Spaces before ∧ IsItem item range ∧ Spaces after ∧
    Within system range ∧ scan.text = before ++ (item ++ (after ++ comma :: rest)) ∧
    skipSpace rest ≠ [] ∧ next = ⟨skipSpace rest, setCpus range scan.set, true⟩

theorem behindItem_cases (system : System) {before item after : Text} {range : Nat × Nat}
    (blank : Spaces before) (isItem : IsItem item range) (behind : Spaces after)
    (within : Within system range) (split : scan.text = before ++ (item ++ (after ++ rest))) :
    (∃ next, behindItem (setCpus range scan.set) rest = .inl next ∧ TakesItem system scan next) ∨
      ∃ scanEnd, behindItem (setCpus range scan.set) rest = .inr scanEnd ∧
        Explains system scan scanEnd := by
  have one : ∀ other ∈ [range], Within system other := fun other inside => by
    rwa [List.mem_singleton.mp inside]
  have front : Begins scan.text [range] := split ▸ .item blank isItem
  obtain ⟨more, moreBlank, moreSplit⟩ := skipSpace_split rest
  have both : Spaces (after ++ more) := fun c inside =>
    (List.mem_append.mp inside).elim (behind c) (moreBlank c)
  unfold behindItem
  cases here : skipSpace rest with
  | nil =>
    rw [here, List.append_nil] at moreSplit
    refine .inr ⟨_, rfl, .inr ⟨[range], ?_, one, rfl, rfl⟩⟩
    rw [split, moreSplit]
    exact .last blank isItem both
  | cons c tail =>
    dsimp only
    by_cases other : c ≠ comma
    · rw [if_pos other]
      exact .inr ⟨_, rfl, [range], front, one, rfl⟩
    rw [if_neg other]
    by_cases trailing : skipSpace tail = []
    · rw [if_pos trailing]
      exact .inr ⟨_, rfl, [range], front, one, rfl⟩
    rw [if_neg trailing]
    refine .inl ⟨_, rfl, before, item, after ++ more, tail, range, blank, isItem, both, within, ?_,
      trailing, rfl⟩
    rw [split, moreSplit, here, not_not.mp other, List.append_assoc]

theorem scanRound_cases (system : System) (scan : Scan) :
    (∃ next, scanRound system scan = .inl next ∧ TakesItem system scan next) ∨
      ∃ scanEnd, scanRound system scan = .inr scanEnd ∧ Explains system scan scanEnd := by
  have nothing : ∀ range ∈ ([] : List (Nat × Nat)), Within system range := nofun
  obtain ⟨before, blank, split⟩ := skipSpace_split scan.text
  unfold scanRound
  cases here : skipSpace scan.text with
  | nil => exact .inr ⟨_, rfl, .inl ⟨here, rfl, rfl⟩⟩
  | cons c tail =>
    dsimp only
    by_cases digit : isDigit c = true
    · rw [if_pos digit]
      cases taken : takeItem system (c :: tail) with
      | error error => exact .inr ⟨_, rfl, [], .none _, nothing, rfl⟩
      | ok result =>
        obtain ⟨range, rest⟩ := result
        have first : startsDigit (c :: tail) = true := digit
        obtain ⟨item, after, isItem, behind, itemSplit, within⟩ := takeItem_split first taken
        rw [here, itemSplit] at split
        exact behindItem_cases system blank isItem behind within split
    · rw [if_neg digit]
      exact .inr ⟨_, rfl, [], .none _, nothing, rfl⟩

theorem TakesItem.shorter (takes : TakesItem system scan next) :
    next.text.length < scan.text.length := by
  obtain ⟨before, item, after, rest, range, _, _, _, _, split, _, rfl⟩ := takes
  have length : (skipSpace rest).length ≤ rest.length := List.length_dropWhile_le ..
  rw [split]
  simp only [List.length_append, List.length_cons]
  omega

theorem TakesItem.explains {scanEnd : ScanEnd} (takes : TakesItem system scan next)
    (later : Explains system next scanEnd) : Explains system scan scanEnd := by
  obtain ⟨before, item, after, rest, range, blank, isItem, behind, within, split, more, rfl⟩ :=
    takes
  obtain ⟨spaces, spacesBlank, restSplit⟩ := skipSpace_split rest
  have all {ranges : List (Nat × Nat)} (each : ∀ range ∈ ranges, Within system range) :
      ∀ other ∈ range :: ranges, Within system other := List.forall_mem_cons.mpr ⟨within, each⟩
  unfold Explains at later ⊢
  rw [split]
  cases outcome : scanEnd.outcome with
  | error error =>
    rw [outcome] at later
    obtain ⟨ranges, begins, each, same⟩ := later
    refine ⟨range :: ranges, .more blank isItem behind ?_, all each, same⟩
    rw [restSplit]
    exact begins.pad spacesBlank
  | ok parsedAny =>
    rw [outcome] at later
    rcases later with ⟨none, _, _⟩ | ⟨ranges, isList, each, same, any⟩
    · exact absurd ((skipSpace_idem rest).symm.trans none) more
    · refine .inr ⟨range :: ranges, .more blank isItem behind ?_, all each, same, any⟩
      rw [restSplit]
      exact isList.pad spacesBlank

theorem scan_explained (system : System) (scan : Scan) {rounds : Nat}
    (enough : scan.text.length < rounds) :
    ∃ scanEnd, loop (fun scan => .ok (scanRound system scan)) rounds scan = .ok scanEnd ∧
      Explains system scan scanEnd := by
  induction rounds generalizing scan with
  | zero => omega
  | succ rounds ih =>
    rcases scanRound_cases system scan with ⟨next, round, takes⟩ | ⟨scanEnd, round, explains⟩
    · have shorter := takes.shorter
      obtain ⟨scanEnd, ran, later⟩ := ih next (by omega)
      refine ⟨scanEnd, ?_, takes.explains later⟩
      rw [Terminated.loop_step (congrArg Except.ok round)]
      exact ran
    · exact ⟨scanEnd, Terminated.loop_stop (congrArg Except.ok round) rounds, explains⟩

theorem IsList.skipSpace_ne_nil {ranges : List (Nat × Nat)} (isList : IsList text ranges) :
    skipSpace text ≠ [] := by
  cases isList with
  | last blank isItem _ =>
    rw [skipSpace_append blank, (isItem.starts _).2]
    exact List.append_ne_nil_of_left_ne_nil isItem.ne_nil _
  | more blank isItem _ _ =>
    rw [skipSpace_append blank, (isItem.starts _).2]
    exact List.append_ne_nil_of_left_ne_nil isItem.ne_nil _

theorem behindItem_congr {behind : Text} (same : skipSpace behind = skipSpace rest)
    (set : Finset Nat) : behindItem set behind = behindItem set rest := by
  unfold behindItem
  rw [same]

theorem scanRound_item {item other : Text} {range : Nat × Nat} (isItem : IsItem item range)
    (within : Within system range) (ends : EndsItem rest) (same : skipSpace other = item ++ rest)
    (set : Finset Nat) (parsedAny : Bool) :
    scanRound system ⟨other, set, parsedAny⟩ = behindItem (setCpus range set) rest := by
  obtain ⟨behind, taken, ending⟩ := takeItem_item isItem within ends
  have starts := (isItem.starts rest).1
  unfold scanRound
  dsimp only
  rw [same]
  cases here : item ++ rest with
  | nil =>
    rw [here] at starts
    cases starts
  | cons c tail =>
    rw [here] at starts taken
    dsimp only
    rw [if_pos (show isDigit c = true from starts), taken]
    exact behindItem_congr ending _

theorem scan_list {ranges : List (Nat × Nat)} (isList : IsList text ranges)
    (within : ∀ range ∈ ranges, Within system range) (other : Text)
    (same : skipSpace other = skipSpace text) (set : Finset Nat) (parsedAny : Bool) :
    Terminated.Ends (fun scan => .ok (scanRound system scan)) ⟨other, set, parsedAny⟩
      ⟨addRanges ranges set, .ok true⟩ := by
  induction isList generalizing other set parsedAny with
  | @last before item after range blank isItem behind =>
    have single := within range List.mem_cons_self
    rw [skipSpace_append blank, (isItem.starts after).2] at same
    apply Terminated.Ends.stop
    rw [scanRound_item isItem single (endsItem_last behind) same]
    unfold behindItem
    rw [skipSpace_spaces behind]
    rfl
  | @more before item after rest range ranges blank isItem behind later ih =>
    obtain ⟨first, others⟩ := List.forall_mem_cons.mp within
    rw [skipSpace_append blank, (isItem.starts _).2] at same
    refine .step ?_ (ih others (skipSpace rest) (skipSpace_idem rest) (setCpus range set) true)
    rw [scanRound_item isItem first (endsItem_comma behind rest) same]
    unfold behindItem
    rw [skipSpace_append behind, skipSpace_comma]
    dsimp only
    rw [if_neg (not_not.mpr rfl), if_neg later.skipSpace_ne_nil]

end rounds

section finish
variable {system : System} {scanEnd : ScanEnd} {set : Finset Nat} {text : Text}
  {ranges : List (Nat × Nat)}

theorem finish_set (system : System) (scanEnd : ScanEnd) :
    (finish system scanEnd).set = scanEnd.set := by
  unfold finish
  split
  · rfl
  · split <;> rfl

theorem finish_passes (passed : (finish system scanEnd).error = none) :
    scanEnd.outcome = .ok true ∧ unavailable system scanEnd.set = none := by
  unfold finish at passed
  cases outcome : scanEnd.outcome with
  | error error =>
    rw [outcome] at passed
    cases passed
  | ok parsedAny =>
    rw [outcome] at passed
    dsimp only at passed
    by_cases empty : (!parsedAny || decide (cpuCountSet scanEnd.set = 0)) = true
    · rw [if_pos empty] at passed
      cases passed
    · rw [if_neg empty] at passed
      simp only [Bool.or_eq_true, Bool.not_eq_true', decide_eq_true_eq, not_or,
        Bool.not_eq_false] at empty
      exact ⟨by rw [empty.1], Option.map_eq_none_iff.mp passed⟩

theorem unavailable_eq_none_iff : unavailable system set = none ↔
    ∀ allowed, system.allowed = some allowed → ∀ cpu < cpuSetsize, cpu ∈ set → cpu ∈ allowed := by
  unfold unavailable
  cases system.allowed with
  | none => simp
  | some allowed => simp

theorem IsList.ordered (isList : IsList text ranges) : ∀ range ∈ ranges, range.1 ≤ range.2 := by
  induction isList with
  | last _ isItem _ => exact fun range inside => List.mem_singleton.mp inside ▸ isItem.ordered
  | more _ isItem _ _ ih => exact List.forall_mem_cons.mpr ⟨isItem.ordered, ih⟩

theorem IsList.ne_nil (isList : IsList text ranges) : ranges ≠ [] := by
  cases isList <;> exact List.cons_ne_nil _ _

theorem covers_lt {cpu : Nat} (within : ∀ range ∈ ranges, Within system range)
    (covers : Covers ranges cpu) : cpu < cpuSetsize := by
  obtain ⟨range, inside, _, below⟩ := covers
  exact lt_of_le_of_lt below (within range inside).2

theorem mem_addRanges_empty (ranges : List (Nat × Nat)) (cpu : Nat) :
    cpu ∈ addRanges ranges ∅ ↔ Covers ranges cpu := by
  rw [mem_addRanges]
  exact or_iff_right (Finset.notMem_empty cpu)

theorem finish_listed (listed : Listed system text ranges) :
    finish system ⟨addRanges ranges ∅, .ok true⟩ = ⟨addRanges ranges ∅, none⟩ := by
  have available : unavailable system (addRanges ranges ∅) = none := by
    rw [unavailable_eq_none_iff]
    intro allowed mask cpu _ inside
    exact listed.available allowed mask cpu ((mem_addRanges_empty ranges cpu).mp inside)
  have counted : cpuCountSet (addRanges ranges ∅) ≠ 0 := by
    obtain ⟨range, inside⟩ := List.exists_mem_of_ne_nil _ listed.isList.ne_nil
    have covers : Covers ranges range.2 :=
      ⟨range, inside, listed.isList.ordered range inside, Nat.le_refl _⟩
    apply Nat.ne_of_gt
    rw [cpuCountSet, List.length_pos_iff_exists_mem]
    refine ⟨range.2, List.mem_filter.mpr ⟨List.mem_range.mpr ?_, decide_eq_true ?_⟩⟩
    · exact covers_lt listed.within covers
    · exact (mem_addRanges_empty ranges _).mpr covers
  unfold finish
  dsimp only
  rw [available, if_neg (by simpa using counted)]
  rfl

end finish

/-- The parser accepts the lists of its grammar within the limits whose CPUs the process may use,
and sets just the CPUs that they list. A refused list leaves those of its first items in the set,
but an empty text leaves the set alone. -/
theorem affinity_list_exact (system : System) (cpuList : Text) (target : Finset Nat) :
    ∃ parsed, parseAffinityCpuList system cpuList target = .ok parsed ∧
      (parsed.error = none ↔ ∃ ranges, Listed system cpuList ranges) ∧
      (∀ ranges, Listed system cpuList ranges → ∀ cpu, cpu ∈ parsed.set ↔ Covers ranges cpu) ∧
      (parsed.error ≠ none → (cpuList = [] ∧ parsed.set = target) ∨
        ∃ ranges, Begins cpuList ranges ∧ (∀ range ∈ ranges, Within system range) ∧
          ∀ cpu, cpu ∈ parsed.set ↔ Covers ranges cpu) := by
  by_cases empty : cpuList = []
  · subst empty
    have unlisted : ¬∃ ranges, Listed system [] ranges := fun ⟨ranges, listed⟩ =>
      listed.isList.skipSpace_ne_nil rfl
    exact ⟨_, if_pos rfl, iff_of_false nofun unlisted,
      fun ranges listed => absurd ⟨ranges, listed⟩ unlisted, fun _ => .inl ⟨rfl, rfl⟩⟩
  obtain ⟨scanEnd, ran, explains⟩ := scan_explained system ⟨cpuList, ∅, false⟩
    (Nat.lt_succ_self cpuList.length)
  have parses : parseAffinityCpuList system cpuList target = .ok (finish system scanEnd) := by
    rw [parseAffinityCpuList, if_neg empty, ran]
    rfl
  have accepts (ranges : List (Nat × Nat)) (listed : Listed system cpuList ranges) :
      finish system scanEnd = ⟨addRanges ranges ∅, none⟩ := by
    have ends := scan_list listed.isList listed.within cpuList rfl ∅ false
    have same := Terminated.loop_eq_of_ends ends ⟨scanEnd, ran⟩
    rw [ran] at same
    rw [Except.ok.inj same]
    exact finish_listed listed
  refine ⟨_, parses, ⟨fun passed => ?_, fun ⟨ranges, listed⟩ => ?_⟩, fun ranges listed cpu => ?_,
    fun _ => .inr ?_⟩
  · obtain ⟨outcome, available⟩ := finish_passes passed
    unfold Explains at explains
    rw [outcome] at explains
    rcases explains with ⟨_, _, none⟩ | ⟨ranges, isList, within, set, _⟩
    · cases none
    · refine ⟨ranges, isList, within, fun allowed mask cpu covers => ?_⟩
      have inside : cpu ∈ scanEnd.set := by
        rw [set]
        exact (mem_addRanges_empty ranges cpu).mpr covers
      exact unavailable_eq_none_iff.mp available allowed mask cpu (covers_lt within covers) inside
  · rw [accepts ranges listed]
  · rw [accepts ranges listed]
    exact mem_addRanges_empty ranges cpu
  · rw [finish_set]
    unfold Explains at explains
    split at explains
    · rcases explains with ⟨_, set, _⟩ | ⟨ranges, isList, within, set, _⟩
      · refine ⟨[], .none _, nofun, fun cpu => ?_⟩
        rw [set]
        exact mem_addRanges_empty [] cpu
      · refine ⟨ranges, isList.begins, within, fun cpu => ?_⟩
        rw [set]
        exact mem_addRanges_empty ranges cpu
    · obtain ⟨ranges, begins, within, set⟩ := explains
      refine ⟨ranges, begins, within, fun cpu => ?_⟩
      rw [set]
      exact mem_addRanges_empty ranges cpu

/-- `1,x` leaves its first CPU in the set, and `3` is refused where the process may use another
CPU only. -/
theorem refused_lists :
    parseAffinityCpuList ⟨8, none⟩ [49, comma, 120] ∅ = .ok ⟨{1}, some (.near 120)⟩ ∧
      IsList [51] [(3, 3)] ∧ Within ⟨8, some {0}⟩ (3, 3) ∧
      parseAffinityCpuList ⟨8, some {0}⟩ [51] ∅ = .ok ⟨{3}, some (.notAvailable 3)⟩ := by
  have three : Digits [51] := ⟨List.cons_ne_nil _ _, fun c inside => by
    rw [List.mem_singleton.mp inside]
    rfl⟩
  have list : IsList ([] ++ ([51] ++ [])) [(3, 3)] := .last nofun (.number three) nofun
  have index : (3 : Int) ≤ 8 - 1 := by omega
  have setsize : 3 < 1024 := by omega
  exact ⟨by decide +kernel, list, ⟨index, setsize⟩, by decide +kernel⟩

end MisrcGui.Record.AffinityList
