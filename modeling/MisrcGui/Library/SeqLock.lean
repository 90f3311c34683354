import Mathlib.Data.Nat.ModEq
import MisrcGui.Library.Machine

/-! Sequence locks. One writer raises a counter, stores the cells of a record one by one
and raises the counter again. A reader loads the counter, every cell and the counter once
more, and keeps what it loaded when both loads gave the same even value. The counter wraps. -/
namespace Library.SeqLock

/-- The cells in the order in which they are stored and loaded, all of them in both. -/
structure Layout (Cell : Type*) where
  modulus : Nat
  stores : List Cell
  loads : List Cell
  even : 2 ∣ modulus
  stored : ∀ cell, cell ∈ stores
  loaded : ∀ cell, cell ∈ loads

inductive Writer (Cell Value : Type*) where
  | idle
  | storing (record : Cell → Value) (rest : List Cell)

/-- A reader with its locals. `begun` is ghost: the records whose publication had begun at
the load of `before`. -/
inductive Place (Cell Value : Type*) where
  | outside
  | opening (after : Nat) (values : Cell → Value)
  | loading (before : Nat) (values : Cell → Value) (rest : List Cell) (begun : Nat)
  | returned (values : Cell → Value)

/-- `published` is ghost: every record whose publication has begun, newest first. -/
structure State (Reader Cell Value : Type*) where
  counter : Nat
  cells : Cell → Value
  writer : Writer Cell Value
  reader : Reader → Place Cell Value
  published : List (Cell → Value)

inductive Action (Reader Cell Value : Type*) where
  | publish (record : Cell → Value)
  | store
  | call (reader : Reader) (after : Nat) (values : Cell → Value)
  | load (reader : Reader)

def again (before after : Nat) : Bool := before != after || after % 2 != 0

variable {Reader Cell Value : Type*}

def initial (origin : Cell → Value) : State Reader Cell Value :=
  ⟨0, origin, .idle, fun _ => .outside, []⟩

section Step

variable [DecidableEq Reader] [DecidableEq Cell] (layout : Layout Cell)

def State.place (state : State Reader Cell Value) (reader : Reader)
    (place : Place Cell Value) : State Reader Cell Value :=
  { state with reader := Function.update state.reader reader place }

/-- A reader's next load. An odd counter skips the cells, and the loop condition is then
evaluated with the `after` of the attempt before, or with what a fresh call found there. -/
def loadStep (state : State Reader Cell Value) (reader : Reader) :
    Option (State Reader Cell Value) :=
  match state.reader reader with
  | .opening after values =>
    if state.counter % 2 ≠ 0 then
      some (state.place reader
        (if again state.counter after then .opening after values else .returned values))
    else
      some (state.place reader
        (.loading state.counter values layout.loads state.published.length))
  | .loading before values (cell :: rest) begun =>
    some (state.place reader
      (.loading before (Function.update values cell (state.cells cell)) rest begun))
  | .loading before values [] _ =>
    some (state.place reader
      (if again before state.counter then .opening state.counter values
      else .returned values))
  | _ => none

def step (state : State Reader Cell Value) :
    Action Reader Cell Value → Option (State Reader Cell Value)
  | .publish record =>
    match state.writer with
    | .idle =>
      some { state with
        counter := (state.counter + 1) % layout.modulus
        writer := .storing record layout.stores
        published := record :: state.published }
    | _ => none
  | .store =>
    match state.writer with
    | .storing record (cell :: rest) =>
      some { state with
        cells := Function.update state.cells cell (record cell)
        writer := .storing record rest }
    | .storing _ [] =>
      some { state with
        counter := (state.counter + 1) % layout.modulus
        writer := .idle }
    | .idle => none
  | .call reader after values =>
    match state.reader reader with
    | .outside | .returned _ => some (state.place reader (.opening after values))
    | _ => none
  | .load reader => loadStep layout state reader

/-- Fewer publications than half the counter's values begin between a reader's two loads of
the counter. -/
def unlapped (state : State Reader Cell Value) : Action Reader Cell Value → Bool
  | .load reader =>
    match state.reader reader with
    | .loading _ _ [] begun => state.published.length - begun < layout.modulus / 2
    | _ => true
  | _ => true

end Step

def State.raises (state : State Reader Cell Value) : Nat :=
  match state.writer with
  | .idle => 2 * state.published.length
  | .storing _ _ => 2 * state.published.length - 1

/-- What the cells hold: the newest record, but for the cells still to be stored. -/
def Settled (origin : Cell → Value) (state : State Reader Cell Value) : Prop :=
  match state.writer with
  | .idle => state.cells = state.published.headD origin
  | .storing record rest =>
    state.published.head? = some record ∧ ∀ cell, cell ∉ rest → state.cells cell = record cell

/-- What a reader's locals hold: as long as the counter has not been raised since the load
of `before`, the cells loaded are the cells there. -/
def Reading (layout : Layout Cell) (origin : Cell → Value)
    (state : State Reader Cell Value) : Place Cell Value → Prop
  | .loading before values rest begun =>
    before = 2 * begun % layout.modulus ∧ 2 * begun ≤ state.raises ∧
      (state.raises = 2 * begun → ∀ cell, cell ∉ rest → values cell = state.cells cell)
  | .returned values => values = origin ∨ values ∈ state.published
  | _ => True

structure Inv (layout : Layout Cell) (origin : Cell → Value)
    (state : State Reader Cell Value) : Prop where
  counted : state.counter = state.raises % layout.modulus
  settled : Settled origin state
  reading : ∀ reader, Reading layout origin state (state.reader reader)

variable {layout : Layout Cell} {origin : Cell → Value}
  {state next : State Reader Cell Value}

theorem initial_inv : Inv layout origin (initial origin : State Reader Cell Value) where
  counted := (Nat.zero_mod _).symm
  settled := rfl
  reading := fun _ => trivial

theorem again_of_odd {before after : Nat} (odd : before % 2 ≠ 0) :
    again before after = true := by
  unfold again
  by_cases same : before = after
  · subst same
    simpa using odd
  · simp [same]

theorem again_eq_false {before after : Nat} :
    again before after = false ↔ before = after ∧ after % 2 = 0 := by
  simp [again]

theorem Inv.parity (inv : Inv layout origin state) : state.counter % 2 = state.raises % 2 := by
  rw [inv.counted, Nat.mod_mod_of_dvd _ layout.even]

theorem Inv.idle_of_even (inv : Inv layout origin state) (even : state.counter % 2 = 0) :
    state.raises = 2 * state.published.length ∧
      state.cells = state.published.headD origin := by
  have settled := inv.settled
  have parity := inv.parity
  rw [even] at parity
  cases writer : state.writer with
  | idle =>
    rw [Settled, writer] at settled
    exact ⟨by rw [State.raises, writer], settled⟩
  | storing record rest =>
    rw [Settled, writer] at settled
    have begun : state.published ≠ [] := by
      intro empty
      rw [empty] at settled
      cases settled.1
    have some := List.length_pos_iff.mpr begun
    rw [State.raises, writer] at parity
    dsimp only at parity
    omega

theorem Inv.raises_eq (inv : Inv layout origin state) {begun : Nat}
    (before : 2 * begun ≤ state.raises)
    (few : state.published.length - begun < layout.modulus / 2)
    (same : 2 * begun % layout.modulus = state.counter) : state.raises = 2 * begun := by
  have most : state.raises ≤ 2 * state.published.length := by
    unfold State.raises
    split <;> omega
  have congruent : 2 * begun ≡ state.raises [MOD layout.modulus] := by
    rw [Nat.ModEq, same, inv.counted]
  have divides := (Nat.modEq_iff_dvd' before).mp congruent
  have short : state.raises - 2 * begun < layout.modulus := by omega
  have none := Nat.eq_zero_of_dvd_of_lt divides short
  omega

theorem newest_mem {α : Type*} (values : List α) (oldest : α) :
    values.headD oldest = oldest ∨ values.headD oldest ∈ values := by
  cases values with
  | nil => exact .inl rfl
  | cons newest older => exact .inr (List.mem_cons_self ..)

theorem Inv.loaded (inv : Inv layout origin state) {reader : Reader} {before begun : Nat}
    {values : Cell → Value} (place : state.reader reader = .loading before values [] begun)
    (few : state.published.length - begun < layout.modulus / 2)
    (done : again before state.counter = false) :
    values = origin ∨ values ∈ state.published := by
  have reading := inv.reading reader
  rw [place] at reading
  obtain ⟨opened, since, agrees⟩ := reading
  obtain ⟨same, even⟩ := again_eq_false.mp done
  have still := inv.raises_eq since few (opened.symm.trans same)
  have whole : values = state.published.headD origin := by
    rw [← (inv.idle_of_even even).2]
    funext cell
    exact agrees still cell List.not_mem_nil
  rw [whole]
  exact newest_mem _ _

theorem Reading.raise {place : Place Cell Value} (reading : Reading layout origin state place)
    (more : state.raises < next.raises)
    (kept : ∀ record ∈ state.published, record ∈ next.published) :
    Reading layout origin next place := by
  cases place with
  | loading before values rest begun =>
    obtain ⟨opened, since, -⟩ := reading
    exact ⟨opened, by omega, fun same => by omega⟩
  | returned values => exact reading.imp id (kept values)
  | _ => trivial

theorem Reading.store {place : Place Cell Value} (reading : Reading layout origin state place)
    (raises : next.raises = state.raises) (odd : state.raises % 2 = 1)
    (published : next.published = state.published) :
    Reading layout origin next place := by
  cases place with
  | loading before values rest begun =>
    obtain ⟨opened, since, -⟩ := reading
    exact ⟨opened, by omega, fun same => by omega⟩
  | returned values =>
    rw [Reading, published]
    exact reading
  | _ => trivial

variable [DecidableEq Reader]

@[simp] theorem place_self (state : State Reader Cell Value) (reader : Reader)
    (place : Place Cell Value) : (state.place reader place).reader reader = place :=
  Function.update_self ..

theorem place_of_ne (state : State Reader Cell Value) {reader other : Reader}
    (apart : other ≠ reader) (place : Place Cell Value) :
    (state.place reader place).reader other = state.reader other :=
  Function.update_of_ne apart ..

theorem Inv.place (inv : Inv layout origin state) {reader : Reader} {place : Place Cell Value}
    (reading : Reading layout origin state place) :
    Inv layout origin (state.place reader place) where
  __ := inv
  reading := by
    intro other
    by_cases own : other = reader
    · subst own
      rw [place_self]
      cases place <;> exact reading
    · have others := inv.reading other
      rw [place_of_ne state own]
      cases held : state.reader other <;> rw [held] at others <;> exact others

variable [DecidableEq Cell]

theorem Inv.publish (inv : Inv layout origin state) {record : Cell → Value}
    (taken : step layout state (.publish record) = some next) : Inv layout origin next := by
  unfold step at taken
  dsimp only at taken
  split at taken
  · rename_i idle
    cases taken
    have raises : state.raises = 2 * state.published.length := by
      rw [State.raises, idle]
    have more : 2 * (record :: state.published).length - 1 = state.raises + 1 := by
      rw [raises, List.length_cons]
      omega
    constructor
    · change (state.counter + 1) % layout.modulus = _
      rw [inv.counted, Nat.mod_add_mod]
      exact congrArg (· % layout.modulus) more.symm
    · exact ⟨rfl, fun cell missing => absurd (layout.stored cell) missing⟩
    · intro reader
      apply (inv.reading reader).raise
      · exact Nat.lt_of_lt_of_eq (Nat.lt_succ_self _) more.symm
      · intro older member
        exact List.mem_cons_of_mem _ member
  · cases taken

theorem Inv.store (inv : Inv layout origin state)
    (taken : step layout state .store = some next) : Inv layout origin next := by
  have settled := inv.settled
  unfold step at taken
  dsimp only at taken
  split at taken
  · rename_i record cell rest writer
    cases taken
    rw [Settled, writer] at settled
    have begun : state.published ≠ [] := by
      intro empty
      rw [empty] at settled
      cases settled.1
    have some := List.length_pos_iff.mpr begun
    have raises : state.raises = 2 * state.published.length - 1 := by
      rw [State.raises, writer]
    constructor
    · exact inv.counted.trans (by rw [raises]; rfl)
    · refine ⟨settled.1, ?_⟩
      intro other missing
      dsimp only
      by_cases own : other = cell
      · rw [own, Function.update_self]
      · rw [Function.update_of_ne own]
        apply settled.2
        simp [own, missing]
    · intro reader
      exact (inv.reading reader).store raises.symm (by omega) rfl
  · rename_i record writer
    cases taken
    rw [Settled, writer] at settled
    have raises : state.raises = 2 * state.published.length - 1 := by
      rw [State.raises, writer]
    obtain ⟨newest, whole⟩ := settled
    obtain ⟨older, published⟩ := List.head?_eq_some_iff.mp newest
    have more : 2 * state.published.length = state.raises + 1 := by
      rw [raises, published, List.length_cons]
      omega
    constructor
    · change (state.counter + 1) % layout.modulus = _
      rw [inv.counted, Nat.mod_add_mod]
      exact congrArg (· % layout.modulus) more.symm
    · change state.cells = state.published.headD origin
      rw [published, List.headD_cons]
      funext cell
      exact whole cell List.not_mem_nil
    · intro reader
      apply (inv.reading reader).raise
      · exact Nat.lt_of_lt_of_eq (Nat.lt_succ_self _) more.symm
      · intro older member
        exact member
  · cases taken

theorem Inv.load (inv : Inv layout origin state) {reader : Reader}
    (few : unlapped layout state (.load reader) = true)
    (taken : loadStep layout state reader = some next) : Inv layout origin next := by
  have reading := inv.reading reader
  unfold loadStep at taken
  split at taken
  · rename_i after values place
    split at taken
    · rename_i odd
      cases taken
      rw [again_of_odd odd]
      exact inv.place trivial
    · rename_i even
      cases taken
      have idle := inv.idle_of_even (by omega)
      apply inv.place
      refine ⟨by rw [inv.counted, idle.1], by rw [idle.1], ?_⟩
      intro same cell missing
      exact absurd (layout.loaded cell) missing
  · rename_i before values cell rest begun place
    cases taken
    rw [place] at reading
    obtain ⟨opened, since, agrees⟩ := reading
    apply inv.place
    refine ⟨opened, since, ?_⟩
    intro same other missing
    by_cases own : other = cell
    · rw [own, Function.update_self]
    · rw [Function.update_of_ne own]
      apply agrees same
      simp [own, missing]
  · rename_i before values begun place
    cases taken
    rw [unlapped, place] at few
    have short := of_decide_eq_true few
    apply inv.place
    split
    · trivial
    · rename_i done
      exact inv.loaded place short (Bool.eq_false_iff.mpr done)
  · cases taken

theorem step_inv (inv : Inv layout origin state) {action : Action Reader Cell Value}
    (few : unlapped layout state action = true)
    (taken : step layout state action = some next) : Inv layout origin next := by
  cases action with
  | publish record => exact inv.publish taken
  | store => exact inv.store taken
  | call reader after values =>
    unfold step at taken
    dsimp only at taken
    split at taken <;> cases taken
    all_goals exact inv.place trivial
  | load reader => exact inv.load few taken

omit [DecidableEq Reader] [DecidableEq Cell] in
theorem Inv.returned (inv : Inv layout origin state) {reader : Reader} {values : Cell → Value}
    (place : state.reader reader = .returned values) :
    values = origin ∨ values ∈ state.published := by
  have reading := inv.reading reader
  rw [place] at reading
  exact reading

end Library.SeqLock
