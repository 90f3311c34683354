import Mathlib.Data.Finset.Card

/-! Moves of entries in a store, and what undoing them restores. A move that finds its target
taken destroys an entry, so the number of entries tells whether anything was lost. -/
namespace Library.Renames

variable {Path Content : Type*} [DecidableEq Path]

abbrev Store (Path Content : Type*) := Path → Option Content

def rename (store : Store Path Content) (source target : Path) : Store Path Content :=
  if (store source).isSome then
    Function.update (Function.update store source none) target (store source)
  else store

abbrev Moves (Path : Type*) := List (Path × Path)

def sources (moves : Moves Path) : List Path := moves.map Prod.fst

def targets (moves : Moves Path) : List Path := moves.map Prod.snd

def perform (store : Store Path Content) (moves : Moves Path) : Store Path Content :=
  moves.foldl (fun store move => rename store move.1 move.2) store

def undo (store : Store Path Content) (moves : Moves Path) : Store Path Content :=
  moves.foldl (fun store move => rename store move.2 move.1) store

def population (store : Store Path Content) (paths : Finset Path) : ℕ :=
  (paths.filter fun path => (store path).isSome).card

variable {store : Store Path Content} {source target path : Path}

theorem rename_of_none (h : store source = none) : rename store source target = store := by
  simp [rename, h]

theorem rename_target (taken : (store source).isSome) :
    rename store source target target = store source := by
  rw [rename, if_pos taken, Function.update_self]

theorem rename_source (apart : source ≠ target) : rename store source target source = none := by
  by_cases taken : (store source).isSome
  · rw [rename, if_pos taken, Function.update_of_ne apart, Function.update_self]
  · rw [rename, if_neg taken]
    simpa using taken

theorem rename_other (fromSource : path ≠ source) (fromTarget : path ≠ target) :
    rename store source target path = store path := by
  by_cases taken : (store source).isSome
  · rw [rename, if_pos taken, Function.update_of_ne fromTarget, Function.update_of_ne fromSource]
  · rw [rename, if_neg taken]

theorem rename_isSome (apart : path ≠ source) (taken : (store path).isSome) :
    (rename store source target path).isSome := by
  by_cases same : path = target
  · by_cases moved : (store source).isSome
    · rw [same, rename_target moved]
      exact moved
    · rw [rename, if_neg moved]
      exact taken
  · rw [rename_other apart same]
    exact taken

theorem filter_rename {paths : Finset Path} (inside : target ∈ paths) (apart : source ≠ target)
    (taken : (store source).isSome) :
    (paths.filter fun path => (rename store source target path).isSome) =
      insert target ((paths.filter fun path => (store path).isSome).erase source) := by
  ext path
  by_cases here : path = source
  · subst here
    simp [rename_source apart, apart]
  · by_cases there : path = target
    · subst there
      simp [inside, rename_target taken, taken]
    · simp [rename_other here there, here, there]

omit [DecidableEq Path] in
theorem population_congr {other : Store Path Content} {paths : Finset Path}
    (same : ∀ path ∈ paths, other path = store path) :
    population other paths = population store paths := by
  unfold population
  congr 1
  apply Finset.filter_congr
  intro path member
  rw [same path member]

theorem population_rename_le {paths : Finset Path} (left : source ∈ paths)
    (right : target ∈ paths) (apart : source ≠ target) :
    population (rename store source target) paths ≤ population store paths := by
  by_cases taken : (store source).isSome
  · unfold population
    rw [filter_rename right apart taken]
    have member : source ∈ paths.filter fun path => (store path).isSome := by
      simp [left, taken]
    have bound := Finset.card_insert_le target
      ((paths.filter fun path => (store path).isSome).erase source)
    rw [Finset.card_erase_of_mem member] at bound
    have positive := Finset.card_pos.mpr ⟨source, member⟩
    omega
  · rw [rename, if_neg taken]

theorem population_rename_lt {paths : Finset Path} (left : source ∈ paths)
    (right : target ∈ paths) (apart : source ≠ target) (taken : (store source).isSome)
    (clobbered : (store target).isSome) :
    population (rename store source target) paths < population store paths := by
  unfold population
  rw [filter_rename right apart taken]
  have member : source ∈ paths.filter fun path => (store path).isSome := by
    simp [left, taken]
  have there : target ∈ (paths.filter fun path => (store path).isSome).erase source := by
    simp [right, clobbered, apart.symm]
  rw [Finset.insert_eq_of_mem there, Finset.card_erase_of_mem member]
  have positive := Finset.card_pos.mpr ⟨source, member⟩
  omega

variable {moves : Moves Path}

theorem undo_eq (store : Store Path Content) (moves : Moves Path) :
    undo store moves = perform store (moves.map Prod.swap) := by
  unfold undo perform
  rw [List.foldl_map]
  rfl

omit [DecidableEq Path] in
@[simp] theorem sources_swap : sources (moves.map Prod.swap) = targets moves := by
  simp [sources, targets, Function.comp_def]

omit [DecidableEq Path] in
@[simp] theorem targets_swap : targets (moves.map Prod.swap) = sources moves := by
  simp [sources, targets, Function.comp_def]

theorem perform_append (store : Store Path Content) (first rest : Moves Path) :
    perform store (first ++ rest) = perform (perform store first) rest :=
  List.foldl_append

theorem perform_cons (store : Store Path Content) (move : Path × Path) (rest : Moves Path) :
    perform store (move :: rest) = perform (rename store move.1 move.2) rest := rfl

theorem perform_isSome (apart : path ∉ sources moves) (taken : (store path).isSome) :
    (perform store moves path).isSome := by
  induction moves generalizing store with
  | nil => exact taken
  | cons move moves ih =>
    simp only [sources, List.map_cons, List.mem_cons, not_or] at apart
    exact ih apart.2 (rename_isSome apart.1 taken)

theorem perform_other (left : path ∉ sources moves) (right : path ∉ targets moves) :
    perform store moves path = store path := by
  induction moves generalizing store with
  | nil => rfl
  | cons move moves ih =>
    simp only [sources, targets, List.map_cons, List.mem_cons, not_or] at left right
    apply Eq.trans (ih left.2 right.2)
    exact rename_other left.1 right.1

structure Independent (moves : Moves Path) : Prop where
  sources : (sources moves).Nodup
  targets : (targets moves).Nodup
  apart : ∀ path ∈ Renames.sources moves, path ∉ Renames.targets moves

omit [DecidableEq Path] in
theorem Independent.swap (independent : Independent moves) :
    Independent (moves.map Prod.swap) := by
  refine ⟨?_, ?_, ?_⟩
  · rw [sources_swap]
    exact independent.targets
  · rw [targets_swap]
    exact independent.sources
  · rw [sources_swap, targets_swap]
    intro path member other
    exact independent.apart path other member

omit [DecidableEq Path] in
theorem Independent.tail {move : Path × Path} (independent : Independent (move :: moves)) :
    Independent moves where
  sources := (List.nodup_cons.mp independent.sources).2
  targets := (List.nodup_cons.mp independent.targets).2
  apart path member other :=
    independent.apart path (List.mem_cons_of_mem _ member) (List.mem_cons_of_mem _ other)

theorem perform_independent (independent : Independent moves)
    (taken : ∀ move ∈ moves, (store move.1).isSome) :
    ∀ move ∈ moves, perform store moves move.2 = store move.1 ∧
      perform store moves move.1 = none := by
  induction moves generalizing store with
  | nil => nofun
  | cons head moves ih =>
    have head_source := (List.nodup_cons.mp independent.sources).1
    have head_target := (List.nodup_cons.mp independent.targets).1
    have apart := independent.apart
    simp only [sources, targets, List.map_cons, List.mem_cons, not_or] at apart
    have different : head.1 ≠ head.2 := (apart head.1 (Or.inl rfl)).1
    have source_target := (apart head.1 (Or.inl rfl)).2
    have target_source : head.2 ∉ sources moves := by
      intro member
      exact (apart head.2 (Or.inr member)).1 rfl
    have here : (store head.1).isSome := taken head (List.mem_cons_self ..)
    change ∀ move ∈ head :: moves,
      perform (rename store head.1 head.2) moves move.2 = store move.1 ∧
        perform (rename store head.1 head.2) moves move.1 = none
    have unchanged : ∀ move ∈ moves, rename store head.1 head.2 move.1 = store move.1 := by
      intro move member
      have source : move.1 ∈ sources moves := List.mem_map_of_mem member
      apply rename_other
      · intro same
        rw [same] at source
        exact head_source source
      · intro same
        rw [same] at source
        exact target_source source
    intro move member
    cases List.mem_cons.mp member with
    | inl same =>
      subst same
      constructor
      · rw [perform_other target_source head_target, rename_target here]
      · rw [perform_other head_source source_target, rename_source different]
    | inr later =>
      have still : ∀ move ∈ moves, (rename store head.1 head.2 move.1).isSome := by
        intro move member
        rw [unchanged move member]
        exact taken move (List.mem_cons_of_mem _ member)
      have carried := ih independent.tail still move later
      rw [unchanged move later] at carried
      exact carried

theorem undo_perform (distinct : (sources moves).Nodup) (apart : (targets moves).Nodup)
    (taken : ∀ move ∈ moves, (store move.1).isSome)
    (free : ∀ move ∈ moves, store move.2 = none) :
    undo (perform store moves) moves = store := by
  have independent : Independent moves := by
    refine ⟨distinct, apart, ?_⟩
    intro path left right
    obtain ⟨one, oneMember, rfl⟩ := List.mem_map.mp left
    obtain ⟨other, otherMember, same⟩ := List.mem_map.mp right
    have full := taken one oneMember
    rw [← same, free other otherMember] at full
    contradiction
  have carried := perform_independent independent taken
  have moved : ∀ move ∈ moves.map Prod.swap, (perform store moves move.1).isSome := by
    intro move member
    obtain ⟨one, oneMember, rfl⟩ := List.mem_map.mp member
    rw [Prod.fst_swap, (carried one oneMember).1]
    exact taken one oneMember
  have back := perform_independent independent.swap moved
  rw [undo_eq]
  funext path
  by_cases left : path ∈ sources moves
  · obtain ⟨move, member, rfl⟩ := List.mem_map.mp left
    have restored := (back move.swap (List.mem_map_of_mem member)).1
    rw [Prod.snd_swap, Prod.fst_swap] at restored
    rw [restored, (carried move member).1]
  · by_cases right : path ∈ targets moves
    · obtain ⟨move, member, rfl⟩ := List.mem_map.mp right
      have emptied := (back move.swap (List.mem_map_of_mem member)).2
      rw [Prod.fst_swap] at emptied
      rw [emptied, free move member]
    · rw [perform_other (by rwa [sources_swap]) (by rwa [targets_swap]),
        perform_other left right]

theorem population_perform_le {paths : Finset Path}
    (inside : ∀ move ∈ moves, move.1 ∈ paths ∧ move.2 ∈ paths ∧ move.1 ≠ move.2) :
    population (perform store moves) paths ≤ population store paths := by
  induction moves generalizing store with
  | nil => exact Nat.le_refl _
  | cons move moves ih =>
    obtain ⟨left, right, apart⟩ := inside move (List.mem_cons_self ..)
    apply Nat.le_trans (ih fun other member => inside other (List.mem_cons_of_mem _ member))
    exact population_rename_le left right apart

theorem population_perform_lt {paths : Finset Path} {first rest : Moves Path}
    {move : Path × Path} (shape : moves = first ++ move :: rest)
    (inside : ∀ move ∈ moves, move.1 ∈ paths ∧ move.2 ∈ paths ∧ move.1 ≠ move.2)
    (taken : (perform store first move.1).isSome)
    (clobbered : (perform store first move.2).isSome) :
    population (perform store moves) paths < population store paths := by
  subst shape
  have here := inside move (List.mem_append_right _ (List.mem_cons_self ..))
  have earlier : population (perform store first) paths ≤ population store paths :=
    population_perform_le fun other member => inside other (List.mem_append_left _ member)
  have lost := population_rename_lt here.1 here.2.1 here.2.2 taken clobbered
  have later : population (perform (rename (perform store first) move.1 move.2) rest) paths ≤
      population (rename (perform store first) move.1 move.2) paths :=
    population_perform_le fun other member =>
      inside other (List.mem_append_right _ (List.mem_cons_of_mem _ member))
  rw [perform_append]
  exact Nat.lt_of_le_of_lt later (Nat.lt_of_lt_of_le lost earlier)

section

variable {paths : Finset Path} (distinct : (sources moves).Nodup) (apart : (targets moves).Nodup)
  (inside : ∀ move ∈ moves, move.1 ∈ paths ∧ move.2 ∈ paths ∧ move.1 ≠ move.2)
  (taken : ∀ move ∈ moves, (store move.1).isSome)

include distinct in
omit [DecidableEq Path] in
theorem source_not_before {first rest : Moves Path} {move : Path × Path}
    (shape : moves = first ++ move :: rest) : ∀ other ∈ move :: rest,
      other.1 ∉ sources first := by
  subst shape
  intro other member before
  rw [sources, List.map_append, List.nodup_append] at distinct
  exact distinct.2.2 other.1 before other.1 (List.mem_map_of_mem member) rfl

include distinct taken in
theorem taken_before {first rest : Moves Path} {move : Path × Path}
    (shape : moves = first ++ move :: rest) : ∀ other ∈ move :: rest,
      (perform store first other.1).isSome := by
  intro other member
  apply perform_isSome (source_not_before distinct shape other member)
  apply taken
  rw [shape]
  exact List.mem_append_right _ member

include distinct inside taken in
theorem lost_in_perform {first rest : Moves Path} {move : Path × Path}
    (shape : moves = first ++ move :: rest) (clobbered : (perform store first move.2).isSome) :
    population (undo (perform store moves) moves) paths < population store paths := by
  have full := taken_before distinct taken shape move (List.mem_cons_self ..)
  have lost := population_perform_lt shape inside full clobbered
  rw [undo_eq]
  apply Nat.lt_of_le_of_lt _ lost
  apply population_perform_le
  intro other swapped
  obtain ⟨one, oneMember, rfl⟩ := List.mem_map.mp swapped
  have facts := inside one oneMember
  exact ⟨facts.2.1, facts.1, facts.2.2.symm⟩

include distinct apart inside taken in
theorem population_undo_lt {move : Path × Path} (member : move ∈ moves)
    (clobbered : (store move.2).isSome) :
    population (undo (perform store moves) moves) paths < population store paths := by
  obtain ⟨first, rest, shape⟩ := List.append_of_mem member
  by_cases still : (perform store first move.2).isSome
  · exact lost_in_perform distinct inside taken shape still
  · -- an earlier move has taken the entry away, from a source that is this target
    have emptied : move.2 ∈ sources first := by
      by_contra untouched
      exact still (perform_isSome untouched clobbered)
    obtain ⟨earlier, earlierMember, same⟩ := List.mem_map.mp emptied
    obtain ⟨before, between, split⟩ := List.append_of_mem earlierMember
    have whole : moves = before ++ earlier :: (between ++ move :: rest) := by
      rw [shape, split, List.append_assoc, List.cons_append]
    by_cases met : (perform store before earlier.2).isSome
    · exact lost_in_perform distinct inside taken whole met
    · -- its own target was free, so both are taken when it is undone
      have full {front back : Moves Path} {turn : Path × Path}
          (split : moves = front ++ turn :: back) := taken_before distinct taken split
      have there : (perform store moves earlier.2).isSome := by
        rw [whole, perform_append, perform_cons]
        apply perform_isSome
        · intro later
          obtain ⟨other, otherMember, clash⟩ := List.mem_map.mp later
          apply met
          rw [← clash]
          exact full whole other (List.mem_cons_of_mem _ otherMember)
        · rw [rename_target (full whole earlier (List.mem_cons_self ..))]
          exact full whole earlier (List.mem_cons_self ..)
      have here : (perform store moves move.2).isSome := by
        rw [shape, perform_append, perform_cons]
        apply perform_isSome
        · intro later
          obtain ⟨other, otherMember, clash⟩ := List.mem_map.mp later
          apply source_not_before distinct shape other (List.mem_cons_of_mem _ otherMember)
          rw [clash]
          exact emptied
        · rw [rename_target (full shape move (List.mem_cons_self ..))]
          exact full shape move (List.mem_cons_self ..)
      have backwards : moves.map Prod.swap =
          before.map Prod.swap ++ earlier.swap :: (between ++ move :: rest).map Prod.swap := by
        rw [whole, List.map_append, List.map_cons]
      have swapped : (sources (moves.map Prod.swap)).Nodup := by
        rw [sources_swap]
        exact apart
      have kept := source_not_before swapped backwards
      have lost : population (perform (perform store moves) (moves.map Prod.swap)) paths <
          population (perform store moves) paths := by
        apply population_perform_lt backwards
        · intro other swap
          obtain ⟨one, oneMember, rfl⟩ := List.mem_map.mp swap
          have facts := inside one oneMember
          exact ⟨facts.2.1, facts.1, facts.2.2.symm⟩
        · exact perform_isSome (kept earlier.swap (List.mem_cons_self ..)) there
        · rw [Prod.snd_swap, same]
          apply perform_isSome _ here
          apply kept move.swap
          apply List.mem_cons_of_mem
          apply List.mem_map_of_mem
          exact List.mem_append_right _ (List.mem_cons_self ..)
      rw [undo_eq]
      exact Nat.lt_of_lt_of_le lost (population_perform_le inside)

include distinct apart inside taken in
theorem undo_perform_lost {move : Path × Path} (member : move ∈ moves)
    (clobbered : (store move.2).isSome) :
    ∃ path ∈ paths, undo (perform store moves) moves path ≠ store path := by
  by_contra! same
  have lost := population_undo_lt distinct apart inside taken member clobbered
  rw [population_congr same] at lost
  exact Nat.lt_irrefl _ lost

end

end Library.Renames
