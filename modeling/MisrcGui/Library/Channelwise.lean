import MisrcGui.Library.CheckedMemory
import MisrcGui.Library.Interleave

/-! Loops over several memories at once, as one loop for each of them; and the loop that gathers
pieces of a block into a memory of its own. -/
namespace Library.Channelwise
open Library.Layout (field)
open Library.Terminated (Checked ok_bind)
open Library.CheckedMemory

variable {A B Index Value : Type}

theorem bind_eq_ok {x : Checked A} {f : A → Checked B} {b : B} :
    (x >>= f) = .ok b ↔ ∃ a, x = .ok a ∧ f a = .ok b := by
  cases x with
  | error fault =>
    constructor
    · intro ran
      cases ran
    · rintro ⟨a, none, _⟩
      cases none
  | ok a =>
    rw [ok_bind]
    constructor
    · exact fun ran => ⟨a, rfl, ran⟩
    · rintro ⟨_, same, ran⟩
      rw [Except.ok.inj same]
      exact ran

theorem foldlM_cons_eq_ok {step : B → A → Checked B} {a : A} {rest : List A} {b last : B} :
    (a :: rest).foldlM step b = .ok last ↔
      ∃ next, step b a = .ok next ∧ rest.foldlM step next = .ok last := by
  rw [List.foldlM_cons, bind_eq_ok]

theorem foldlM_update_iff [DecidableEq Index] (work : Index → Value → Checked Value)
    {list : List Index} (once : list.Nodup) {memories last : Index → Value} :
    list.foldlM (fun memories i => do
        let filled ← work i (memories i)
        return Function.update memories i filled) memories = .ok last ↔
      (∀ i ∈ list, work i (memories i) = .ok (last i)) ∧ ∀ i ∉ list, last i = memories i := by
  induction list generalizing memories with
  | nil =>
    constructor
    · intro ran
      rw [← Except.ok.inj ran]
      exact ⟨fun i inside => absurd inside List.not_mem_nil, fun _ _ => rfl⟩
    · rintro ⟨_, kept⟩
      exact congrArg Except.ok (funext fun i => (kept i List.not_mem_nil).symm)
  | cons i rest ih =>
    obtain ⟨absent, once⟩ := List.nodup_cons.mp once
    have other {j : Index} (inside : j ∈ rest) (filled : Value) :
        Function.update memories i filled j = memories j := by
      apply Function.update_of_ne
      rintro rfl
      exact absent inside
    rw [foldlM_cons_eq_ok]
    constructor
    · rintro ⟨next, first, ran⟩
      obtain ⟨filled, worked, updated⟩ := bind_eq_ok.mp first
      cases Except.ok.inj updated
      obtain ⟨others, kept⟩ := (ih once).mp ran
      refine ⟨fun j inside => ?_, fun j outside => ?_⟩
      · rcases List.mem_cons.mp inside with rfl | later
        · rw [worked, kept j absent, Function.update_self]
        · rw [← others j later, other later]
      · rw [List.mem_cons, not_or] at outside
        rw [kept j outside.2, Function.update_of_ne outside.1]
    · rintro ⟨worked, kept⟩
      refine ⟨Function.update memories i (last i), ?_, (ih once).mpr ⟨fun j inside => ?_,
        fun j outside => ?_⟩⟩
      · rw [worked i List.mem_cons_self]
        rfl
      · rw [other inside]
        exact worked j (List.mem_cons_of_mem i inside)
      · by_cases here : j = i
        · subst here
          rw [Function.update_self]
        · rw [Function.update_of_ne here]
          exact kept j fun inside => (List.mem_cons.mp inside).elim here outside

theorem foldlM_each {step : (Index → Value) → A → Checked (Index → Value)}
    (each : Index → Value → A → Checked Value)
    (apart : ∀ memories a next,
      step memories a = .ok next ↔ ∀ i, each i (memories i) a = .ok (next i))
    {list : List A} {memories last : Index → Value} :
    list.foldlM step memories = .ok last ↔
      ∀ i, list.foldlM (each i) (memories i) = .ok (last i) := by
  induction list generalizing memories with
  | nil =>
    constructor
    · intro ran i
      rw [← Except.ok.inj ran]
      rfl
    · exact fun all => congrArg Except.ok (funext fun i => Except.ok.inj (all i))
  | cons a rest ih =>
    simp only [foldlM_cons_eq_ok, apart, ih, Classical.skolem, forall_and]

theorem readAt_eq_ok {block piece : List UInt8} {offset count : ℕ} :
    readAt block offset count = .ok piece ↔
      offset + count ≤ block.length ∧ piece = field block offset count := by
  unfold readAt
  split
  · next inside => exact ⟨fun ran => ⟨inside, (Except.ok.inj ran).symm⟩, fun ran => by rw [ran.2]⟩
  · next outside => exact ⟨nofun, fun ran => absurd ran.1 outside⟩

theorem writeAt_eq_ok {memory piece last : List UInt8} {offset : ℕ} :
    writeAt memory offset piece = .ok last ↔
      offset + piece.length ≤ memory.length ∧
        last = memory.take offset ++ piece ++ memory.drop (offset + piece.length) := by
  unfold writeAt
  split
  · next inside => exact ⟨fun ran => ⟨inside, (Except.ok.inj ran).symm⟩, fun ran => by rw [ran.2]⟩
  · next outside => exact ⟨nofun, fun ran => absurd ran.1 outside⟩

/-- A loop that gathers pieces of `w` bytes of a block, the next piece behind the last one. -/
theorem foldlM_gather_iff {block memory last : List UInt8} {place : ℕ → ℕ} {w count : ℕ} :
    (List.range count).foldlM (fun memory i => do
        let piece ← readAt block (place i) w
        writeAt memory (w * i) piece) memory = .ok last ↔
      (∀ i < count, place i + w ≤ block.length) ∧ w * count ≤ memory.length ∧
        last = ((List.range count).flatMap fun i => field block (place i) w) ++
          memory.drop (w * count) := by
  induction count generalizing last with
  | zero =>
    simp only [List.range_zero, List.flatMap_nil, List.nil_append, Nat.mul_zero, List.drop_zero]
    constructor
    · intro ran
      exact ⟨fun i none => absurd none (Nat.not_lt_zero i), Nat.zero_le _, (Except.ok.inj ran).symm⟩
    · rintro ⟨_, _, rfl⟩
      rfl
  | succ count ih =>
    have front (bytes : List UInt8) : w * count ≤ memory.length →
        (∀ i < count, place i + w ≤ block.length) →
        bytes = ((List.range count).flatMap fun i => field block (place i) w) ++
          memory.drop (w * count) →
        bytes.length = memory.length ∧ bytes.take (w * count) =
            ((List.range count).flatMap fun i => field block (place i) w) ∧
          bytes.drop (w * count + w) = memory.drop (w * count + w) := by
      rintro room inside rfl
      have gathered : ((List.range count).flatMap fun i => field block (place i) w).length =
          w * count := Interleave.length_uniform fun i small => Layout.length_field (inside i small)
      refine ⟨?_, List.take_left' gathered, ?_⟩
      · rw [List.length_append, gathered, List.length_drop]
        omega
      · rw [← List.drop_drop, List.drop_left' gathered, List.drop_drop]
    rw [List.range_succ, List.foldlM_append, bind_eq_ok]
    simp only [foldlM_cons_eq_ok, ih, bind_eq_ok, readAt_eq_ok, writeAt_eq_ok]
    constructor
    · rintro ⟨before, ⟨inside, room, gathered⟩, next, ⟨_, ⟨here, rfl⟩, fits, grown⟩, ran⟩
      obtain ⟨length, taken, dropped⟩ := front before room inside gathered
      have piece := Layout.length_field here
      rw [piece, length] at fits
      refine ⟨fun i small => ?_, fits, ?_⟩
      · rcases Nat.lt_succ_iff_lt_or_eq.mp small with small | rfl
        · exact inside i small
        · exact here
      · rw [← Except.ok.inj ran, grown, piece, taken, dropped, List.flatMap_append,
          List.flatMap_singleton, Nat.mul_succ]
    · rintro ⟨inside, room, rfl⟩
      rw [Nat.mul_succ] at room
      have others : ∀ i < count, place i + w ≤ block.length :=
        fun i small => inside i (Nat.lt_succ_of_lt small)
      have here := inside count (Nat.lt_succ_self count)
      obtain ⟨length, taken, dropped⟩ := front _ (by omega) others rfl
      refine ⟨_, ⟨others, by omega, rfl⟩, _, ⟨_, ⟨here, rfl⟩, ?_, rfl⟩, ?_⟩
      · rw [Layout.length_field here, length]
        exact room
      · rw [Layout.length_field here, taken, dropped, List.flatMap_append,
          List.flatMap_singleton, Nat.mul_succ]
        rfl

end Library.Channelwise
