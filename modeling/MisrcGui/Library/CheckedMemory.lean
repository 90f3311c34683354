import MisrcGui.Library.Layout
import MisrcGui.Library.Terminated

/-! Reads and writes of a block of memory, where an access outside of it is a fault. -/
namespace Library.CheckedMemory
open Library.Layout (field length_field)
open Library.Terminated (Checked)

def readAt (memory : List UInt8) (offset count : Nat) : Checked (List UInt8) :=
  if offset + count ≤ memory.length then .ok (field memory offset count) else .error .read

def writeAt (memory : List UInt8) (offset : Nat) (bytes : List UInt8) : Checked (List UInt8) :=
  if offset + bytes.length ≤ memory.length then
    .ok (memory.take offset ++ bytes ++ memory.drop (offset + bytes.length))
  else .error .write

variable {memory bytes next : List UInt8} {offset count : Nat}

theorem readAt_inside (inside : offset + count ≤ memory.length) :
    readAt memory offset count = .ok (field memory offset count) := if_pos inside

theorem length_readAt (read : readAt memory offset count = .ok bytes) : bytes.length = count := by
  unfold readAt at read
  split at read
  · rename_i inside
    rw [← Except.ok.inj read]
    exact length_field inside
  · contradiction

theorem writeAt_inside (inside : offset + bytes.length ≤ memory.length) :
    writeAt memory offset bytes =
      .ok (memory.take offset ++ bytes ++ memory.drop (offset + bytes.length)) := if_pos inside

theorem length_writeAt (written : writeAt memory offset bytes = .ok next) :
    next.length = memory.length := by
  unfold writeAt at written
  split at written
  · rename_i inside
    rw [← Except.ok.inj written, List.length_append, List.length_append, List.length_take,
      List.length_drop]
    omega
  · contradiction

theorem writeAt_nil (some : bytes ≠ []) : writeAt [] offset bytes = .error .write := by
  apply if_neg
  have := List.length_pos_iff.mpr some
  rw [List.length_nil]
  omega

theorem readAt_between (front bytes back : List UInt8) :
    readAt (front ++ bytes ++ back) front.length bytes.length = .ok bytes := by
  rw [readAt_inside (by simp only [List.length_append]; omega), field, List.append_assoc,
    List.drop_left, List.take_left]

theorem writeAt_between (front back : List UInt8) {old : List UInt8}
    (size : old.length = bytes.length) :
    writeAt (front ++ old ++ back) front.length bytes = .ok (front ++ bytes ++ back) := by
  rw [writeAt_inside (by simp only [List.length_append]; omega), ← size, ← List.length_append,
    List.drop_left, List.append_assoc front old, List.take_left]

section loops

variable {A B State : Type}

theorem foldlM_ok (Invariant : State → Prop) {body : State → A → Checked State} {list : List A}
    (kept : ∀ state, Invariant state → ∀ a ∈ list,
      ∃ next, body state a = .ok next ∧ Invariant next) {state : State} (start : Invariant state) :
    ∃ last, list.foldlM body state = .ok last ∧ Invariant last := by
  induction list generalizing state with
  | nil => exact ⟨state, rfl, start⟩
  | cons a rest ih =>
    obtain ⟨next, ran, invariant⟩ := kept state start a List.mem_cons_self
    obtain ⟨last, others, final⟩ :=
      ih (fun state holds other later => kept state holds other (List.mem_cons_of_mem a later))
        invariant
    refine ⟨last, ?_, final⟩
    rw [List.foldlM_cons, ran]
    exact others

theorem foldlM_invariant (Invariant : State → Prop) {body : State → A → Checked State}
    {list : List A} (kept : ∀ state a next, Invariant state → body state a = .ok next →
      Invariant next) {state last : State} (start : Invariant state)
    (ran : list.foldlM body state = .ok last) : Invariant last := by
  induction list generalizing state with
  | nil => exact Except.ok.inj ran ▸ start
  | cons a rest ih =>
    rw [List.foldlM_cons] at ran
    cases first : body state a with
    | error fault =>
      rw [first] at ran
      contradiction
    | ok next =>
      rw [first] at ran
      exact ih (kept state a next start first) ran

theorem mapM_ok {f : A → Checked B} {list : List A} (each : ∀ a ∈ list, ∃ b, f a = .ok b) :
    ∃ results, list.mapM f = .ok results := by
  induction list with
  | nil => exact ⟨[], rfl⟩
  | cons a rest ih =>
    obtain ⟨b, first⟩ := each a List.mem_cons_self
    obtain ⟨others, later⟩ := ih fun other listed => each other (List.mem_cons_of_mem a listed)
    refine ⟨b :: others, ?_⟩
    rw [List.mapM_cons, first, Library.Terminated.ok_bind, later]
    rfl

theorem mapM_each {f : A → Checked B} {list : List A} {results : List B}
    (ran : list.mapM f = .ok results) : List.Forall₂ (fun a b => f a = .ok b) list results := by
  induction list generalizing results with
  | nil =>
    cases Except.ok.inj ran
    exact .nil
  | cons a rest ih =>
    rw [List.mapM_cons] at ran
    cases first : f a with
    | error fault =>
      rw [first] at ran
      contradiction
    | ok b =>
      cases later : rest.mapM f with
      | error fault =>
        rw [first, later] at ran
        contradiction
      | ok others =>
        rw [first, later] at ran
        cases Except.ok.inj ran
        exact .cons first (ih later)

theorem mem_right {R : A → B → Prop} {list : List A} {results : List B}
    (all : List.Forall₂ R list results) {b : B} (inside : b ∈ results) : ∃ a ∈ list, R a b := by
  induction all with
  | nil => contradiction
  | cons first _ ih =>
    rcases List.mem_cons.mp inside with rfl | later
    · exact ⟨_, List.mem_cons_self, first⟩
    · obtain ⟨a, listed, related⟩ := ih later
      exact ⟨a, List.mem_cons_of_mem _ listed, related⟩

end loops

end Library.CheckedMemory
