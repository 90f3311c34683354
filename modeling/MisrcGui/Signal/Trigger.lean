import MisrcGui.Library.Runs

/-! The search for horizontal sync pulses (`gui_trigger.c`). What is read or written outside of an
array has no outcome. -/
namespace MisrcGui.Signal.Trigger
open Library.Runs

def cvbsHsyncMinWidth : ℕ := 100

def cvbsHsyncMaxWidth : ℕ := 280

/-- What the search takes of `cvbs_levels_t`. -/
structure CvbsLevels where
  range : Int16
  syncThreshold : Int16

/-- The loop that measures a pulse, with so many samples left. -/
def pulseEnd (buf : List Int16) (threshold : Int16) : ℕ → ℕ → Option ℕ
  | 0, finish => some finish
  | left + 1, finish => do
    if (← buf[finish]?) ≤ threshold then pulseEnd buf threshold left (finish + 1)
    else return finish

/-- A round of the loop: the index behind it, and the end of a pulse of the right width. -/
def round (buf : List Int16) (count : ℕ) (threshold : Int16) (i : ℕ) :
    Option (ℕ × Option ℕ) := do
  if (← buf[i - 1]?) > threshold then
    if (← buf[i]?) ≤ threshold then
      let finish ← pulseEnd buf threshold (count - i) i
      let width := finish - i
      return (finish + 1,
        if cvbsHsyncMinWidth ≤ width ∧ width ≤ cvbsHsyncMaxWidth then some finish else none)
  return (i + 1, none)

/-- `out_positions[found] = end`, within `max_count`. -/
def record (positions : List ℕ) (maxCount found finish : ℕ) : Option (List ℕ) :=
  if found < maxCount then
    if found < positions.length then some (positions.set found finish) else none
  else some positions

/-- The loop of `find_hsyncs_internal`, for at most so many rounds. -/
def scan (buf : List Int16) (count : ℕ) (threshold : Int16) (limit maxCount : ℕ) :
    ℕ → ℕ → ℕ → Option (List ℕ) → Option (Int × Option (List ℕ))
  | 0, _, _, _ => none
  | rounds + 1, i, found, out =>
    if i < limit then do
      let (next, hsync) ← round buf count threshold i
      match hsync, out with
      | none, _ => scan buf count threshold limit maxCount rounds next found out
      | some finish, none => return (finish, none)
      | some finish, some positions =>
        scan buf count threshold limit maxCount rounds next (found + 1)
          (some (← record positions maxCount found finish))
    else return (if out.isSome then found else -1, out)

/-- The first index of the search. -/
def scanStart (minIndex : UInt64) : UInt64 := if minIndex > 1 then minIndex else 1

def findHsyncsInternal (buf : List Int16) (count minIndex : UInt64) (threshold : Int16)
    (out : Option (List ℕ)) (maxCount : UInt64) : Option (Int × Option (List ℕ)) :=
  let start := (scanStart minIndex).toNat
  let limit := (count - UInt64.ofNat cvbsHsyncMaxWidth).toNat
  scan buf count.toNat threshold limit maxCount.toNat (limit - start + 1) start 0 out

/-- `trigger_find_cvbs_hsync`, with the levels of the buffer. -/
def triggerFindCvbsHsync (levels : CvbsLevels) (buf : Option (List Int16))
    (count minIndex : UInt64) : Option Int := do
  let some buf := buf | return -1
  if count.toNat < cvbsHsyncMaxWidth + 2 ∨ levels.range < 100 then return -1
  return (← findHsyncsInternal buf count minIndex levels.syncThreshold none 0).1

/-- `trigger_find_all_cvbs_hsyncs`, with the levels of the buffer. -/
def triggerFindAllCvbsHsyncs (levels : CvbsLevels) (buf : Option (List Int16)) (count : UInt64)
    (out : Option (List ℕ)) (maxCount : UInt64) : Option (Int × Option (List ℕ)) := do
  let some buf := buf | return (-1, out)
  if count.toNat < cvbsHsyncMaxWidth + 2 ∨ out = none ∨ maxCount = 0 ∨ levels.range < 100 then
    return (-1, out)
  findHsyncsInternal buf count 1 levels.syncThreshold out maxCount

/-- The sample is at or below the threshold. -/
def Low (buf : List Int16) (threshold : Int16) (place : ℕ) : Prop :=
  ∃ sample, buf[place]? = some sample ∧ sample ≤ threshold

def WidthAllowed (first last : ℕ) : Prop :=
  cvbsHsyncMinWidth ≤ last - first ∧ last - first ≤ cvbsHsyncMaxWidth

instance (first last : ℕ) : Decidable (WidthAllowed first last) :=
  inferInstanceAs (Decidable (_ ∧ _))

variable {buf : List Int16} {count : ℕ} {threshold : Int16}

theorem low_iff {place : ℕ} {sample : Int16} (there : buf[place]? = some sample) :
    Low buf threshold place ↔ sample ≤ threshold := by
  unfold Low
  rw [there]
  simp

theorem pulseEnd_spec (threshold : Int16) (left finish : ℕ)
    (inside : finish + left ≤ buf.length) :
    ∃ last, pulseEnd buf threshold left finish = some last ∧ finish ≤ last ∧
      last ≤ finish + left ∧ (∀ place, finish ≤ place → place < last → Low buf threshold place) ∧
      (last < finish + left → ¬Low buf threshold last) := by
  induction left generalizing finish with
  | zero =>
    exact ⟨finish, rfl, Nat.le_refl _, Nat.le_refl _,
      fun place above below => absurd above (by omega), fun more => absurd more (Nat.lt_irrefl _)⟩
  | succ left ih =>
    have there := List.getElem?_eq_getElem (l := buf) (i := finish) (by omega)
    simp only [pulseEnd, there, Option.bind_eq_bind, Option.bind_some]
    by_cases low : buf[finish] ≤ threshold
    · rw [if_pos low]
      obtain ⟨last, eq, above, below, holds, stops⟩ := ih (finish + 1) (by omega)
      refine ⟨last, eq, by omega, by omega, fun place from_ upTo => ?_, fun more => ?_⟩
      · rcases Nat.eq_or_lt_of_le from_ with rfl | later
        · exact (low_iff there).mpr low
        · exact holds place later upTo
      · exact stops (by omega)
    · rw [if_neg low]
      refine ⟨finish, rfl, Nat.le_refl _, by omega, fun place above below => ?_, fun _ => ?_⟩
      · omega
      · rwa [low_iff there]

/-- A round passes one sample at which no run starts, or the run that starts there. -/
theorem round_cases (threshold : Int16) (held : count ≤ buf.length) {i : ℕ} (positive : 0 < i)
    (below : i < count) :
    (round buf count threshold i = some (i + 1, none) ∧
      ∀ last, ¬Run (Low buf threshold) count i last) ∨
    ∃ last, Run (Low buf threshold) count i last ∧ round buf count threshold i =
      some (last + 1, if WidthAllowed i last then some last else none) := by
  have here := List.getElem?_eq_getElem (l := buf) (i := i) (by omega)
  have before := List.getElem?_eq_getElem (l := buf) (i := i - 1) (by omega)
  simp only [round, before, here, Option.bind_eq_bind, Option.bind_some]
  by_cases falls : buf[i - 1] > threshold ∧ buf[i] ≤ threshold
  · right
    have room : i + (count - i) ≤ buf.length := by omega
    obtain ⟨last, measured, above, inside, holds, stops⟩ :=
      pulseEnd_spec threshold (count - i) i room
    refine ⟨last, ⟨?_, by omega, holds, ?_, ?_⟩, ?_⟩
    · rcases Nat.eq_or_lt_of_le above with rfl | some
      · exact absurd ((low_iff here).mpr falls.2) (stops (by omega))
      · exact some
    · intro place next
      have same : place = i - 1 := by omega
      rw [same, low_iff before]
      exact Int16.not_le.mpr falls.1
    · exact fun more => stops (by omega)
    · rw [if_pos falls.1, if_pos falls.2, measured]
      rfl
  · left
    refine ⟨?_, fun last run => falls ⟨?_, ?_⟩⟩
    · by_cases high : buf[i - 1] > threshold
      · rw [if_pos high, if_neg fun low => falls ⟨high, low⟩]
        rfl
      · rw [if_neg high]
        rfl
    · have high := run.before (i - 1) (by omega)
      rw [low_iff before] at high
      exact Int16.not_le.mp high
    · exact (low_iff here).mp (run.holds i (Nat.le_refl i) run.some)

/-- The array of positions behind the writes of `ends`, with so much room. -/
def filled (front rest : List ℕ) (room : ℕ) (ends : List ℕ) : List ℕ :=
  front ++ ends.take room ++ rest.drop (ends.take room).length

/-- What the search for the first pulse returns. -/
def firstOf (ends : List ℕ) : Int := (ends.head?.map Int.ofNat).getD (-1)

theorem record_eq (last : ℕ) {maxCount found : ℕ} {front rest : List ℕ}
    (written : front.length = min found maxCount) (room : maxCount ≤ (front ++ rest).length) :
    ∃ front' rest', record (front ++ rest) maxCount found last = some (front' ++ rest') ∧
      front'.length = min (found + 1) maxCount ∧ maxCount ≤ (front' ++ rest').length ∧
      ∀ ends, filled front' rest' (maxCount - (found + 1)) ends =
        filled front rest (maxCount - found) (last :: ends) := by
  unfold record
  by_cases more : found < maxCount
  · rw [List.length_append] at room
    cases rest with
    | nil =>
      rw [List.length_nil] at room
      omega
    | cons old rest =>
      rw [List.length_cons] at room
      have place : found = front.length := by omega
      refine ⟨front ++ [last], rest, ?_, ?_, ?_, fun ends => ?_⟩
      · rw [if_pos more, if_pos (by rw [List.length_append, List.length_cons]; omega), place]
        simp
      · rw [List.length_append, List.length_singleton]
        omega
      · rw [List.length_append, List.length_append, List.length_singleton]
        omega
      · have one : maxCount - found = maxCount - (found + 1) + 1 := by omega
        unfold filled
        rw [one, List.take_succ_cons, List.length_cons, List.drop_succ_cons]
        simp
  · rw [if_neg more]
    refine ⟨front, rest, rfl, by omega, room, fun ends => ?_⟩
    have full : maxCount - found = 0 := by omega
    have full' : maxCount - (found + 1) = 0 := by omega
    rw [full, full']
    rfl

/-- The loop from an index on, by induction on its rounds. -/
theorem scan_eq (threshold : Int16) (held : count ≤ buf.length) {limit : ℕ} (within : limit ≤ count)
    {rounds i : ℕ} (enough : limit - i < rounds) (positive : 0 < i) :
    ∃ ends, Ends (Low buf threshold) count WidthAllowed i limit ends ∧
      (∀ maxCount found front rest, front.length = min found maxCount →
        maxCount ≤ (front ++ rest).length →
        scan buf count threshold limit maxCount rounds i found (some (front ++ rest)) =
          some (((found + ends.length : ℕ) : Int),
            some (filled front rest (maxCount - found) ends))) ∧
      ∀ maxCount found, scan buf count threshold limit maxCount rounds i found none =
        some (firstOf ends, none) := by
  induction rounds generalizing i with
  | zero => omega
  | succ rounds ih =>
    simp only [scan]
    by_cases below : i < limit
    · simp only [if_pos below]
      rcases round_cases threshold held positive (by omega) with
        ⟨stays, none⟩ | ⟨last, run, passes⟩
      · obtain ⟨ends, exact, all, first⟩ := ih (i := i + 1) (by omega) (Nat.succ_pos i)
        rw [stays]
        exact ⟨ends, exact.skip none, all, first⟩
      · have more := run.some
        obtain ⟨ends, exact, all, first⟩ := ih (i := last + 1) (by omega) (Nat.succ_pos last)
        rw [passes]
        by_cases allowed : WidthAllowed i last
        · rw [if_pos allowed]
          refine ⟨last :: ends, exact.cons run below allowed, ?_, fun _ _ => rfl⟩
          intro maxCount found front rest written room
          obtain ⟨front', rest', recorded, written', room', same⟩ :=
            record_eq last written room
          simp only [Option.bind_eq_bind, Option.bind_some, recorded]
          rw [all maxCount (found + 1) front' rest' written' room', same, List.length_cons,
            Nat.add_right_comm]
          rfl
        · rw [if_neg allowed]
          exact ⟨ends, exact.pass run allowed, all, first⟩
    · simp only [if_neg below]
      refine ⟨[], .nil (Nat.le_of_not_lt below), ?_, fun _ _ => rfl⟩
      intro maxCount found front rest _ _
      simp [filled]

section search
variable {count minIndex : UInt64}

theorem scanStart_pos (minIndex : UInt64) : 0 < (scanStart minIndex).toNat := by
  unfold scanStart
  split
  · rename_i more
    exact Nat.zero_lt_of_lt (UInt64.lt_iff_toNat_lt.mp more)
  · decide

theorem limit_eq (long : cvbsHsyncMaxWidth + 2 ≤ count.toNat) :
    (count - UInt64.ofNat cvbsHsyncMaxWidth).toNat = count.toNat - cvbsHsyncMaxWidth := by
  apply UInt64.toNat_sub_of_le
  apply UInt64.le_iff_toNat_le.mpr
  exact Nat.le_of_add_right_le long

/-- What a buffer gives that is long enough for the search. -/
structure Scanned (buf : List Int16) (count minIndex : UInt64) (threshold : Int16)
    (ends : List ℕ) : Prop where
  all : ∀ (maxCount : UInt64) (positions : List ℕ), maxCount.toNat ≤ positions.length →
    findHsyncsInternal buf count minIndex threshold (some positions) maxCount =
      some ((ends.length : Int), some (ends.take maxCount.toNat ++
        positions.drop (ends.take maxCount.toNat).length))
  first : findHsyncsInternal buf count minIndex threshold none 0 = some (firstOf ends, none)

theorem scanned (held : count.toNat ≤ buf.length) (long : cvbsHsyncMaxWidth + 2 ≤ count.toNat)
    (threshold : Int16) (minIndex : UInt64) :
    ∃ ends, Ends (Low buf threshold) count.toNat WidthAllowed (scanStart minIndex).toNat
        (count.toNat - cvbsHsyncMaxWidth) ends ∧ Scanned buf count minIndex threshold ends := by
  have within : (count - UInt64.ofNat cvbsHsyncMaxWidth).toNat ≤ count.toNat := by
    rw [limit_eq long]
    exact Nat.sub_le _ _
  obtain ⟨ends, exact, all, first⟩ := scan_eq threshold held within
    (Nat.lt_succ_self _) (scanStart_pos minIndex)
  rw [limit_eq long] at exact
  refine ⟨ends, exact, fun maxCount positions room => ?_, first 0 0⟩
  have shown := all maxCount.toNat 0 [] positions (Nat.zero_min _).symm room
  rwa [List.nil_append, Nat.zero_add, Nat.sub_zero] at shown

/-- The search finds the ends of the allowed runs below the threshold that start in its window,
and stores as many as there is room for. The search for the first one gives their head. -/
theorem hsyncs_exact (held : count.toNat ≤ buf.length) (threshold : Int16) (minIndex : UInt64) :
    ∃ ends, Ends (Low buf threshold) count.toNat WidthAllowed (scanStart minIndex).toNat
        (count.toNat - cvbsHsyncMaxWidth) ends ∧
      (cvbsHsyncMaxWidth + 2 ≤ count.toNat → Scanned buf count minIndex threshold ends) ∧
      ∀ levels : CvbsLevels, levels.syncThreshold = threshold → ¬levels.range < 100 →
        triggerFindCvbsHsync levels (some buf) count minIndex = some (firstOf ends) ∧
        (minIndex = 1 → ∀ (maxCount : UInt64) (positions : List ℕ), maxCount ≠ 0 →
          maxCount.toNat ≤ positions.length →
          triggerFindAllCvbsHsyncs levels (some buf) count (some positions) maxCount =
            some (if cvbsHsyncMaxWidth + 2 ≤ count.toNat then (ends.length : Int) else -1,
              some (ends.take maxCount.toNat ++
                positions.drop (ends.take maxCount.toNat).length))) := by
  by_cases long : cvbsHsyncMaxWidth + 2 ≤ count.toNat
  · obtain ⟨ends, exact, found⟩ := scanned held long threshold minIndex
    refine ⟨ends, exact, fun _ => found, ?_⟩
    rintro levels rfl strong
    have ready : ¬(count.toNat < cvbsHsyncMaxWidth + 2 ∨ levels.range < 100) :=
      not_or.mpr ⟨Nat.not_lt.mpr long, strong⟩
    refine ⟨?_, ?_⟩
    · simp only [triggerFindCvbsHsync, if_neg ready, found.first]
      rfl
    · rintro rfl maxCount positions nonzero room
      have ready : ¬(count.toNat < cvbsHsyncMaxWidth + 2 ∨ Option.some positions = none ∨
          maxCount = 0 ∨ levels.range < 100) :=
        fun refused => refused.elim (Nat.not_lt.mpr long) (by simp [nonzero, strong])
      simp only [triggerFindAllCvbsHsyncs, if_neg ready, found.all maxCount positions room,
        if_pos long]
  · refine ⟨[], .nil ?_, fun enough => absurd enough long, ?_⟩
    · have := scanStart_pos minIndex
      omega
    · rintro levels rfl strong
      have short : count.toNat < cvbsHsyncMaxWidth + 2 := Nat.not_le.mp long
      refine ⟨?_, fun _ maxCount positions _ _ => ?_⟩
      · simp only [triggerFindCvbsHsync, if_pos (Or.inl short)]
        rfl
      · simp only [triggerFindAllCvbsHsyncs, if_pos (Or.inl short), if_neg long]
        simp

end search

def pulse : List Int16 :=
  List.replicate 5 100 ++ List.replicate 150 0 ++ List.replicate 300 100

theorem hsyncs_exact_pulse :
    ∃ ends, Ends (Low pulse 50) 455 WidthAllowed 1 175 ends ∧ Scanned pulse 455 0 50 ends := by
  have held : (455 : UInt64).toNat ≤ pulse.length := by decide +kernel
  obtain ⟨ends, exact, found, -⟩ := hsyncs_exact held 50 0
  exact ⟨ends, exact, found (by decide)⟩

end MisrcGui.Signal.Trigger
