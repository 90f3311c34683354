import Mathlib.Data.List.Basic

/-! A line covered by consecutive pieces, newest first. A piece that is not marked continues
the label of the piece before it, so the marked pieces alone tell the label everywhere. -/
namespace Library.Boundaries

variable {Label : Type*}

structure Piece (Label : Type*) where
  start : ℕ
  length : ℕ
  label : Label
  marked : Bool

structure Mark (Label : Type*) where
  position : ℕ
  label : Label
deriving DecidableEq

def Piece.mark (piece : Piece Label) : Mark Label := ⟨piece.start, piece.label⟩

@[simp] theorem Piece.mark_position (piece : Piece Label) :
    piece.mark.position = piece.start := rfl

def Piece.Meets (piece : Piece Label) (first last : ℕ) : Prop :=
  piece.start < last ∧ first < piece.start + piece.length

def frontier (origin : ℕ) : List (Piece Label) → ℕ
  | [] => origin
  | piece :: _ => piece.start + piece.length

def Tiles (origin : ℕ) : List (Piece Label) → Prop
  | [] => True
  | piece :: older =>
    piece.start = frontier origin older ∧ 0 < piece.length ∧
      (piece.marked = false → older.head?.map Piece.label = some piece.label) ∧
        Tiles origin older

def Sharp : List (Piece Label) → Prop
  | [] => True
  | piece :: older =>
    (piece.marked = true → older.head?.map Piece.label ≠ some piece.label) ∧ Sharp older

def IsMark (pieces : List (Piece Label)) (mark : Mark Label) : Prop :=
  ∃ piece ∈ pieces, piece.marked = true ∧ piece.mark = mark

variable {origin : ℕ} {pieces : List (Piece Label)}

theorem IsMark.cons {mark : Mark Label} (piece : Piece Label) (h : IsMark pieces mark) :
    IsMark (piece :: pieces) mark := by
  obtain ⟨source, member, facts⟩ := h
  exact ⟨source, List.mem_cons_of_mem _ member, facts⟩

theorem isMark_cons {piece : Piece Label} {mark : Mark Label} :
    IsMark (piece :: pieces) mark ↔
      piece.marked = true ∧ piece.mark = mark ∨ IsMark pieces mark := by
  simp [IsMark]

theorem origin_le_frontier (tiles : Tiles origin pieces) : origin ≤ frontier origin pieces := by
  induction pieces with
  | nil => exact Nat.le_refl origin
  | cons newest older ih =>
    obtain ⟨start, _, _, rest⟩ := tiles
    have grown := ih rest
    rw [frontier, start]
    omega

theorem tiles_bounds (tiles : Tiles origin pieces) {piece : Piece Label}
    (member : piece ∈ pieces) :
    origin ≤ piece.start ∧ 0 < piece.length ∧
      piece.start + piece.length ≤ frontier origin pieces := by
  induction pieces with
  | nil => contradiction
  | cons newest older ih =>
    obtain ⟨start, positive, _, rest⟩ := tiles
    have grown := origin_le_frontier rest
    rw [frontier]
    cases List.mem_cons.mp member with
    | inl same =>
      subst same
      omega
    | inr earlier =>
      have bounds := ih rest earlier
      omega

theorem tiles_cover (tiles : Tiles origin pieces) {point : ℕ} (first : origin ≤ point)
    (last : point < frontier origin pieces) :
    ∃ piece ∈ pieces, piece.start ≤ point ∧ point < piece.start + piece.length := by
  induction pieces with
  | nil => exact absurd first (Nat.not_le.mpr last)
  | cons newest older ih =>
    obtain ⟨start, _, _, rest⟩ := tiles
    by_cases inside : newest.start ≤ point
    · exact ⟨newest, List.mem_cons_self, inside, last⟩
    · obtain ⟨piece, member, here⟩ := ih rest (by omega)
      exact ⟨piece, List.mem_cons_of_mem _ member, here⟩

/-- Two pieces are the same, or one ends before the other starts. -/
theorem tiles_ordered (tiles : Tiles origin pieces) {left right : Piece Label}
    (hleft : left ∈ pieces) (hright : right ∈ pieces) :
    left = right ∨ left.start + left.length ≤ right.start ∨
      right.start + right.length ≤ left.start := by
  induction pieces with
  | nil => contradiction
  | cons newest older ih =>
    obtain ⟨start, _, _, rest⟩ := tiles
    cases List.mem_cons.mp hleft with
    | inl newestLeft =>
      cases List.mem_cons.mp hright with
      | inl newestRight => exact .inl (newestLeft.trans newestRight.symm)
      | inr olderRight =>
        have bounds := tiles_bounds rest olderRight
        subst newestLeft
        omega
    | inr olderLeft =>
      cases List.mem_cons.mp hright with
      | inl newestRight =>
        have bounds := tiles_bounds rest olderLeft
        subst newestRight
        omega
      | inr olderRight => exact ih rest olderLeft olderRight

theorem tiles_apart (tiles : Tiles origin pieces) {left right : Piece Label}
    (hleft : left ∈ pieces) (hright : right ∈ pieces) (before : left.start < right.start) :
    left.start + left.length ≤ right.start := by
  rcases tiles_ordered tiles hleft hright with rfl | first | second
  · exact absurd before (Nat.lt_irrefl _)
  · exact first
  · omega

theorem tiles_same (tiles : Tiles origin pieces) {left right : Piece Label}
    (hleft : left ∈ pieces) (hright : right ∈ pieces) (same : left.start = right.start) :
    left = right := by
  have positive := (tiles_bounds tiles hleft).2.1
  have positive' := (tiles_bounds tiles hright).2.1
  rcases tiles_ordered tiles hleft hright with equal | first | second
  · exact equal
  · omega
  · omega

theorem mark_bounds (tiles : Tiles origin pieces) {mark : Mark Label}
    (marked : IsMark pieces mark) :
    origin ≤ mark.position ∧ mark.position < frontier origin pieces := by
  obtain ⟨piece, member, _, rfl⟩ := marked
  have bounds := tiles_bounds tiles member
  rw [Piece.mark_position]
  omega

theorem mark_unique (tiles : Tiles origin pieces) {left right : Mark Label}
    (hleft : IsMark pieces left) (hright : IsMark pieces right)
    (same : left.position = right.position) : left = right := by
  obtain ⟨piece, member, _, rfl⟩ := hleft
  obtain ⟨other, hother, _, rfl⟩ := hright
  rw [tiles_same tiles member hother same]

theorem label_governed (tiles : Tiles origin pieces) {piece : Piece Label}
    (member : piece ∈ pieces) :
    ∃ mark, IsMark pieces mark ∧ mark.position ≤ piece.start ∧ mark.label = piece.label ∧
      ∀ other, IsMark pieces other → other.position ≤ piece.start →
        other.position ≤ mark.position := by
  induction pieces generalizing piece with
  | nil => contradiction
  | cons newest older ih =>
    obtain ⟨start, positive, continues, rest⟩ := tiles
    by_cases marked : newest.marked = true
    · cases List.mem_cons.mp member with
      | inl same =>
        subst same
        refine ⟨piece.mark, ⟨piece, member, marked, rfl⟩, Nat.le_refl _, rfl, ?_⟩
        intro other _ below
        exact below
      | inr earlier =>
        obtain ⟨mark, governs, below, label, latest⟩ := ih rest earlier
        refine ⟨mark, governs.cons newest, below, label, ?_⟩
        intro other isMark otherBelow
        cases isMark_cons.mp isMark with
        | inl newestMark =>
          have bounds := tiles_bounds rest earlier
          rw [← newestMark.2, Piece.mark_position] at otherBelow
          omega
        | inr olderMark => exact latest other olderMark otherBelow
    · have unmarked : newest.marked = false := by simpa using marked
      have same : ∀ other, IsMark (newest :: older) other → IsMark older other := by
        intro other isMark
        exact (isMark_cons.mp isMark).resolve_left fun newestMark => marked newestMark.1
      cases List.mem_cons.mp member with
      | inl newestPiece =>
        -- the piece before it has the same label, and its mark governs this one too
        obtain ⟨head, tail, rfl⟩ : ∃ head tail, older = head :: tail := by
          cases older with
          | nil => exact absurd (continues unmarked) (by simp)
          | cons head tail => exact ⟨head, tail, rfl⟩
        have equal : head.label = newest.label := by simpa using continues unmarked
        obtain ⟨mark, governs, below, label, latest⟩ := ih rest List.mem_cons_self
        have bounds := tiles_bounds rest (List.mem_cons_self (a := head))
        subst newestPiece
        refine ⟨mark, governs.cons piece, by omega, label.trans equal, ?_⟩
        intro other isMark _
        have older := same other isMark
        obtain ⟨source, hsource, _, rfl⟩ := older
        apply latest _ (same _ isMark)
        cases List.mem_cons.mp hsource with
        | inl head => exact Nat.le_of_eq (congrArg Piece.start head)
        | inr deeper =>
          have apart := tiles_bounds rest.2.2.2 deeper
          have adjacent := rest.1
          rw [Piece.mark_position]
          omega
      | inr earlier =>
        obtain ⟨mark, governs, below, label, latest⟩ := ih rest earlier
        refine ⟨mark, governs.cons newest, below, label, ?_⟩
        intro other isMark otherBelow
        exact latest other (same other isMark) otherBelow

/-- What a reader may conclude: with no mark between the one it holds and the end of a range,
every piece that meets the range carries the label it holds. -/
theorem label_of_mark (tiles : Tiles origin pieces) {mark : Mark Label} {first last : ℕ}
    (held : IsMark pieces mark) (before : mark.position ≤ first)
    (latest : ∀ other, IsMark pieces other → other.position < last →
      other.position ≤ mark.position)
    {piece : Piece Label} (member : piece ∈ pieces) (meets : piece.Meets first last) :
    piece.label = mark.label := by
  obtain ⟨governor, governs, below, label, newest⟩ := label_governed tiles member
  have bounded := latest governor governs (Nat.lt_of_le_of_lt below meets.1)
  by_cases reached : mark.position ≤ piece.start
  · have equal := Nat.le_antisymm bounded (newest mark held reached)
    rw [← label, mark_unique tiles governs held equal]
  · -- the piece ends where the mark begins, before the range
    obtain ⟨source, hsource, _, rfl⟩ := held
    have apart := tiles_apart tiles member hsource (Nat.not_le.mp reached)
    have overlap := meets.2
    rw [Piece.mark_position] at before
    omega

theorem mark_splits (tiles : Tiles origin pieces) (sharp : Sharp pieces) {mark : Mark Label}
    {first last : ℕ} (held : IsMark pieces mark) (start : origin ≤ first)
    (after : first < mark.position) (inside : mark.position < last) :
    ∃ left ∈ pieces, ∃ right ∈ pieces, left.Meets first last ∧ right.Meets first last ∧
      left.label ≠ right.label := by
  induction pieces with
  | nil => exact absurd held (by simp [IsMark])
  | cons newest older ih =>
    obtain ⟨adjacent, positive, _, rest⟩ := tiles
    obtain ⟨differs, sharper⟩ := sharp
    cases isMark_cons.mp held with
    | inl newestMark =>
      obtain ⟨marked, rfl⟩ := newestMark
      rw [Piece.mark_position] at after inside
      cases older with
      | nil =>
        rw [frontier] at adjacent
        omega
      | cons head tail =>
        rw [frontier] at adjacent
        have bounds := tiles_bounds rest (List.mem_cons_self (a := head))
        refine ⟨head, by simp, newest, by simp, ?_, ?_, ?_⟩
        · exact ⟨by omega, by omega⟩
        · exact ⟨inside, by omega⟩
        · intro same
          exact differs marked (congrArg some same)
    | inr olderMark =>
      obtain ⟨left, hleft, right, hright, facts⟩ := ih rest sharper olderMark
      exact ⟨left, List.mem_cons_of_mem _ hleft, right, List.mem_cons_of_mem _ hright, facts⟩

end Library.Boundaries
