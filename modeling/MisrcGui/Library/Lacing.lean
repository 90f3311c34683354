import MisrcGui.Library.Scanner

/-! Packets in cells of bounded size. A packet is cut into full cells and one shorter cell,
which may be empty; a shorter cell is what ends a packet. -/
namespace Library.Lacing

variable {Symbol : Type*} {full : ℕ}

def cut (full : ℕ) : ℕ → List Symbol → List (List Symbol)
  | 0, packet => [packet]
  | count + 1, packet => packet.take full :: cut full count (packet.drop full)

def cells (full : ℕ) (packet : List Symbol) : List (List Symbol) :=
  cut full (packet.length / full) packet

def assemble (full : ℕ) : List Symbol → List (List Symbol) → List (List Symbol) × List Symbol
  | carry, [] => ([], carry)
  | carry, cell :: rest =>
    if cell.length = full then assemble full (carry ++ cell) rest
    else ((carry ++ cell) :: (assemble full [] rest).1, (assemble full [] rest).2)

variable {carry cell packet : List Symbol}

theorem assemble_full (h : cell.length = full) (rest : List (List Symbol)) :
    assemble full carry (cell :: rest) = assemble full (carry ++ cell) rest := by
  rw [assemble, if_pos h]

theorem assemble_short (h : cell.length ≠ full) (rest : List (List Symbol)) :
    assemble full carry (cell :: rest) =
      ((carry ++ cell) :: (assemble full [] rest).1, (assemble full [] rest).2) := by
  rw [assemble, if_neg h]

theorem assemble_cut {count : ℕ} (whole : full * count ≤ packet.length)
    (short : packet.length < full * (count + 1)) (rest : List (List Symbol)) :
    assemble full carry (cut full count packet ++ rest) =
      ((carry ++ packet) :: (assemble full [] rest).1, (assemble full [] rest).2) := by
  induction count generalizing carry packet with
  | zero =>
    rw [cut, List.singleton_append, assemble_short (by omega)]
  | succ count ih =>
    have shape : full * (count + 1) = full * count + full := Nat.mul_succ full count
    have next : full * (count + 1 + 1) = full * (count + 1) + full := Nat.mul_succ full _
    have first : (packet.take full).length = full := by
      rw [List.length_take]
      omega
    rw [cut, List.cons_append, assemble_full first,
      ih (by rw [List.length_drop]; omega) (by rw [List.length_drop]; omega),
      List.append_assoc, List.take_append_drop]

theorem length_cut (count : ℕ) (packet : List Symbol) :
    (cut full count packet).length = count + 1 := by
  induction count generalizing packet with
  | zero => rfl
  | succ count ih => rw [cut, List.length_cons, ih]

theorem length_cells (packet : List Symbol) :
    (cells full packet).length = packet.length / full + 1 :=
  length_cut _ packet

theorem cut_le {count : ℕ} (short : packet.length < full * (count + 1))
    (member : cell ∈ cut full count packet) :
    cell.length ≤ full := by
  induction count generalizing packet with
  | zero =>
    rw [List.mem_singleton.mp member]
    omega
  | succ count ih =>
    have next : full * (count + 1 + 1) = full * (count + 1) + full := Nat.mul_succ full _
    rcases List.mem_cons.mp member with rfl | later
    · exact List.length_take_le _ _
    · have grow : full ≤ full * (count + 1) := Nat.le_mul_of_pos_right full count.succ_pos
      apply ih _ later
      rw [List.length_drop]
      omega

theorem short_of_div (positive : 0 < full) (size : ℕ) : size < full * (size / full + 1) := by
  rw [Nat.mul_succ]
  have split := Nat.div_add_mod size full
  have small := Nat.mod_lt size positive
  omega

theorem cells_le (positive : 0 < full) (member : cell ∈ cells full packet) : cell.length ≤ full :=
  cut_le (short_of_div positive packet.length) member

theorem assemble_cells (positive : 0 < full) (carry packet : List Symbol)
    (rest : List (List Symbol)) :
    assemble full carry (cells full packet ++ rest) =
      ((carry ++ packet) :: (assemble full [] rest).1, (assemble full [] rest).2) := by
  apply assemble_cut
  · exact Nat.mul_div_le packet.length full
  · exact short_of_div positive packet.length

theorem assemble_flatMap (positive : 0 < full) (packets : List (List Symbol)) :
    assemble full [] (packets.flatMap (cells full)) = (packets, []) := by
  induction packets with
  | nil => rfl
  | cons packet rest ih =>
    rw [List.flatMap_cons, assemble_cells positive, ih, List.nil_append]

theorem assemble_append (carry : List Symbol) (front rest : List (List Symbol)) :
    assemble full carry (front ++ rest) =
      ((assemble full carry front).1 ++ (assemble full (assemble full carry front).2 rest).1,
        (assemble full (assemble full carry front).2 rest).2) := by
  induction front generalizing carry with
  | nil => rfl
  | cons cell front ih =>
    by_cases h : cell.length = full
    · rw [List.cons_append, assemble_full h, assemble_full h, ih]
    · rw [List.cons_append, assemble_short h, assemble_short h, ih]
      rfl

theorem length_assemble (carry : List Symbol) (cells : List (List Symbol)) :
    (assemble full carry cells).1.length = cells.countP fun cell => cell.length ≠ full := by
  induction cells generalizing carry with
  | nil => rfl
  | cons cell rest ih =>
    by_cases h : cell.length = full
    · rw [assemble_full h, ih, List.countP_cons_of_neg (by simp [h])]
    · rw [assemble_short h, List.length_cons, ih, List.countP_cons_of_pos (by simp [h])]

theorem assemble_front {packets : List (List Symbol)} {front rest : List (List Symbol)}
    (h : (assemble full [] (front ++ rest)).1 = packets) :
    (assemble full [] front).1 = packets.take (front.countP fun cell => cell.length ≠ full) := by
  rw [assemble_append] at h
  rw [← h, ← length_assemble, List.take_left]

/-- Whether a stream stops inside a packet, given whether it started inside one. -/
def leavesOpen (full : ℕ) (start : Bool) (cells : List (List Symbol)) : Bool :=
  cells.foldl (fun _ cell => cell.length = full) start

theorem carry_of_closed {start : Bool} {cells : List (List Symbol)}
    (closed : start = false → carry = []) (h : leavesOpen full start cells = false) :
    (assemble full carry cells).2 = [] := by
  induction cells generalizing carry start with
  | nil => exact closed h
  | cons cell rest ih =>
    by_cases ends : cell.length = full
    · rw [assemble_full ends]
      apply ih _ h
      simp [ends]
    · rw [assemble_short ends]
      exact ih (fun _ => rfl) h

theorem assemble_all_full {cells : List (List Symbol)} (h : ∀ cell ∈ cells, cell.length = full) :
    assemble full carry cells = ([], carry ++ cells.flatten) := by
  induction cells generalizing carry with
  | nil => simp [assemble]
  | cons cell rest ih =>
    rw [assemble_full (h cell List.mem_cons_self),
      ih fun other member => h other (List.mem_cons_of_mem _ member)]
    simp

theorem countP_lt (positive : 0 < full) {packets : List (List Symbol)}
    {front rest : List (List Symbol)} (nonempty : rest ≠ [])
    (h : assemble full [] (front ++ rest) = (packets, [])) :
    (front.countP fun cell => cell.length ≠ full) < packets.length := by
  have total : (front ++ rest).countP (fun cell => cell.length ≠ full) = packets.length := by
    rw [← length_assemble [] (front ++ rest), h]
  rw [List.countP_append] at total
  have later : 0 < rest.countP fun cell => cell.length ≠ full := by
    by_contra none
    have all : ∀ cell ∈ rest, cell.length = full := by
      simpa [List.countP_pos_iff] using none
    rw [assemble_append, assemble_all_full all] at h
    obtain ⟨cell, others, rfl⟩ := List.exists_cons_of_ne_nil nonempty
    have carried := congrArg (fun outcome => outcome.2.length) h
    have size := all cell List.mem_cons_self
    simp only [List.length_append, List.flatten_cons, size, List.length_nil] at carried
    omega
  omega

theorem carry_prefix {cells packets : List (List Symbol)}
    (h : assemble full carry cells = (packets, [])) (carried : carry ≠ []) :
    ∃ packet ∈ packets, carry <+: packet := by
  induction cells generalizing carry with
  | nil => exact absurd (congrArg Prod.snd h) carried
  | cons cell rest ih =>
    by_cases ends : cell.length = full
    · rw [assemble_full ends] at h
      obtain ⟨packet, member, longer⟩ := ih h (by simp [carried])
      exact ⟨packet, member, (List.prefix_append carry cell).trans longer⟩
    · rw [assemble_short ends] at h
      have first : (carry ++ cell) :: (assemble full [] rest).1 = packets := congrArg Prod.fst h
      exact ⟨carry ++ cell, by rw [← first]; exact List.mem_cons_self, List.prefix_append _ _⟩

section
variable {State : Type*} (bound : ℕ) (tooLarge : State → State)
  (handle : State → List Symbol → Except State State)

/-- One cell: refused when the packet would outgrow the buffer, else carried on or, with the
packet that it ends, handled. -/
def step (full : ℕ) (state : State × List Symbol) (cell : List Symbol) :
    Except (State × List Symbol) (State × List Symbol) :=
  if bound < state.2.length + cell.length then .error (tooLarge state.1, state.2)
  else if cell.length = full then .ok (state.1, state.2 ++ cell)
  else
    match handle state.1 (state.2 ++ cell) with
    | .ok next => .ok (next, [])
    | .error failed => .error (failed, state.2 ++ cell)

variable {bound tooLarge handle} {state : State}

theorem step_taken (room : (carry ++ cell).length ≤ bound) (ends : cell.length = full) :
    step bound tooLarge handle full (state, carry) cell = .ok (state, carry ++ cell) := by
  rw [List.length_append] at room
  unfold step
  rw [if_neg (Nat.not_lt.mpr room), if_pos ends]

theorem step_ends {next : State} (room : (carry ++ cell).length ≤ bound)
    (ends : cell.length ≠ full) (handled : handle state (carry ++ cell) = .ok next) :
    step bound tooLarge handle full (state, carry) cell = .ok (next, []) := by
  rw [List.length_append] at room
  unfold step
  rw [if_neg (Nat.not_lt.mpr room), if_neg ends, handled]

theorem step_ok {after : State × List Symbol}
    (h : step bound tooLarge handle full (state, carry) cell = .ok after) :
    (carry ++ cell).length ≤ bound ∧
      (cell.length = full ∧ after = (state, carry ++ cell) ∨
        cell.length ≠ full ∧ ∃ next, after = (next, [])) := by
  unfold step at h
  split at h
  · exact absurd h nofun
  · rename_i room
    rw [List.length_append]
    refine ⟨Nat.not_lt.mp room, ?_⟩
    split at h
    · rename_i ends
      cases h
      exact .inl ⟨ends, rfl⟩
    · rename_i ends
      split at h
      · rename_i next handled
        cases h
        exact .inr ⟨ends, next, rfl⟩
      · exact absurd h nofun

theorem scan_step {last : State} {cells : List (List Symbol)} {later packets : List (List Symbol)}
    (h : assemble full carry (cells ++ later) = (packets, []))
    (fits : ∀ packet ∈ packets, packet.length ≤ bound)
    (handled : Scanner.scan handle state (assemble full carry cells).1 = (last, true)) :
    Scanner.scan (step bound tooLarge handle full) (state, carry) cells =
      ((last, (assemble full carry cells).2), true) := by
  induction cells generalizing state carry packets with
  | nil =>
    cases handled
    rfl
  | cons cell rest ih =>
    by_cases ends : cell.length = full
    · rw [List.cons_append, assemble_full ends] at h
      have room : (carry ++ cell).length ≤ bound := by
        by_cases empty : carry ++ cell = []
        · simp [empty]
        · obtain ⟨packet, member, longer⟩ := carry_prefix h empty
          exact Nat.le_trans longer.length_le (fits packet member)
      rw [assemble_full ends] at handled ⊢
      rw [Scanner.scan_ok _ (step_taken room ends)]
      exact ih h fits handled
    · rw [List.cons_append, assemble_short ends] at h
      rw [assemble_short ends] at handled ⊢
      have split : packets = (carry ++ cell) :: (assemble full [] (rest ++ later)).1 :=
        (congrArg Prod.fst h).symm
      have room : (carry ++ cell).length ≤ bound :=
        fits _ (by rw [split]; exact List.mem_cons_self)
      cases outcome : handle state (carry ++ cell) with
      | error failed =>
        rw [Scanner.scan_error _ outcome] at handled
        exact absurd (congrArg Prod.snd handled) Bool.false_ne_true
      | ok next =>
        rw [Scanner.scan_ok _ outcome] at handled
        rw [Scanner.scan_ok _ (step_ends room ends outcome)]
        have closed : (assemble full [] (rest ++ later)).2 = [] := congrArg Prod.snd h
        exact ih (Prod.ext rfl closed)
          (fun packet member => fits packet (by rw [split]; exact List.mem_cons_of_mem _ member))
          handled

theorem scan_step_carry {last : State} {left : List Symbol} {cells : List (List Symbol)}
    (h : Scanner.scan (step bound tooLarge handle full) (state, carry) cells =
      ((last, left), true)) : left = (assemble full carry cells).2 := by
  induction cells generalizing state carry with
  | nil =>
    cases h
    rfl
  | cons cell rest ih =>
    cases outcome : step bound tooLarge handle full (state, carry) cell with
    | error failed =>
      rw [Scanner.scan_error _ outcome] at h
      exact absurd (congrArg Prod.snd h) Bool.false_ne_true
    | ok next =>
      rw [Scanner.scan_ok _ outcome] at h
      obtain ⟨-, ⟨ends, rfl⟩ | ⟨ends, after, rfl⟩⟩ := step_ok outcome
      · rw [assemble_full ends]
        exact ih h
      · rw [assemble_short ends]
        exact ih h

theorem scan_step_invariant (Kept : State → Prop)
    (large : ∀ state, Kept state → Kept (tooLarge state)) {cells : List (List Symbol)}
    (handled : ∀ packet ∈ (assemble full carry cells).1, ∀ state, Kept state →
      Kept (Scanner.reached (handle state packet))) (start : Kept state) :
    Kept (Scanner.scan (step bound tooLarge handle full) (state, carry) cells).1.1 := by
  induction cells generalizing state carry with
  | nil => exact start
  | cons cell rest ih =>
    by_cases room : bound < carry.length + cell.length
    · have refused : step bound tooLarge handle full (state, carry) cell =
          .error (tooLarge state, carry) := if_pos room
      rw [Scanner.scan_error _ refused]
      exact large state start
    · have fits : (carry ++ cell).length ≤ bound := by
        rw [List.length_append]
        exact Nat.not_lt.mp room
      by_cases ends : cell.length = full
      · rw [assemble_full ends] at handled
        rw [Scanner.scan_ok _ (step_taken fits ends)]
        exact ih handled start
      · rw [assemble_short ends] at handled
        have first := handled _ List.mem_cons_self state start
        cases outcome : handle state (carry ++ cell) with
        | ok next =>
          rw [outcome] at first
          rw [Scanner.scan_ok _ (step_ends fits ends outcome)]
          exact ih (fun packet member => handled packet (List.mem_cons_of_mem _ member)) first
        | error failed =>
          have refused : step bound tooLarge handle full (state, carry) cell =
              .error (failed, carry ++ cell) := by
            unfold step
            rw [if_neg room, if_neg ends, outcome]
          rw [outcome] at first
          rw [Scanner.scan_error _ refused]
          exact first

theorem scan_step_failed (Failed : State → Prop) (large : ∀ state, Failed (tooLarge state))
    (unhandled : ∀ state packet failed, handle state packet = .error failed → Failed failed)
    {last : State} {left : List Symbol} {cells : List (List Symbol)}
    (h : Scanner.scan (step bound tooLarge handle full) (state, carry) cells =
      ((last, left), false)) : Failed last := by
  induction cells generalizing state carry with
  | nil => exact absurd (congrArg Prod.snd h) nofun
  | cons cell rest ih =>
    cases outcome : step bound tooLarge handle full (state, carry) cell with
    | ok next =>
      rw [Scanner.scan_ok _ outcome] at h
      exact ih h
    | error failed =>
      rw [Scanner.scan_error _ outcome] at h
      cases h
      unfold step at outcome
      split at outcome
      · cases outcome
        exact large state
      · split at outcome
        · exact absurd outcome nofun
        · split at outcome
          · exact absurd outcome nofun
          · next handled =>
            cases outcome
            exact unhandled _ _ _ handled

theorem scan_step_too_long {cells : List (List Symbol)} {later packets : List (List Symbol)}
    (h : assemble full carry (cells ++ later) = (packets, []))
    (long : ∃ packet ∈ (assemble full carry cells).1, bound < packet.length) :
    (Scanner.scan (step bound tooLarge handle full) (state, carry) cells).2 = false := by
  induction cells generalizing state carry packets with
  | nil =>
    obtain ⟨packet, member, -⟩ := long
    exact absurd member List.not_mem_nil
  | cons cell rest ih =>
    cases outcome : step bound tooLarge handle full (state, carry) cell with
    | error failed => rw [Scanner.scan_error _ outcome]
    | ok next =>
      rw [Scanner.scan_ok _ outcome]
      obtain ⟨room, ⟨ends, rfl⟩ | ⟨ends, after, rfl⟩⟩ := step_ok outcome
      · rw [List.cons_append, assemble_full ends] at h
        rw [assemble_full ends] at long
        exact ih h long
      · rw [List.cons_append, assemble_short ends] at h
        rw [assemble_short ends] at long
        obtain ⟨packet, member, tooLong⟩ := long
        have closed : (assemble full [] (rest ++ later)).2 = [] := congrArg Prod.snd h
        apply ih (Prod.ext rfl closed)
        rcases List.mem_cons.mp member with rfl | inside
        · exact absurd tooLong (Nat.not_lt.mpr room)
        · exact ⟨packet, inside, tooLong⟩

end

end Library.Lacing
