import Mathlib.Data.Int.Bitwise
import MisrcGui.Library.Machine

/-! The capture loop of `gui_cxadc.c`: a read of each card, truncated to the shorter one,
becomes a block of words in which sample by sample of the two cards are paired. -/
namespace MisrcGui.Cxadc
open Library

inductive Card where
  | a
  | b
deriving DecidableEq

instance Card.decidableForall (holds : Card → Prop) [DecidablePred holds] :
    Decidable (∀ card, holds card) :=
  decidable_of_iff (holds .a ∧ holds .b)
    ⟨fun both card => by cases card <;> simp [both], fun all => ⟨all .a, all .b⟩⟩

structure Config where
  cardCount : Nat
  tenbitMode : Card → Bool

def Config.inputBytesPerSample (config : Config) (card : Card) : Nat :=
  if config.tenbitMode card then 2 else 1

def decodeSample8bit (sample : UInt8) : Int := (sample.toNat - 128) * 16

def decodeSampleTenbit (lo hi : UInt8) : Int :=
  ((lo.toNat ||| hi.toNat <<< 8 : Nat) - 32768 : Int) >>> 4

/-- A sample is clamped to twelve bits and stored from the top down. -/
def encodeRawSample (sampleA sampleB : Int) : UInt32 :=
  let clamp (sample : Int) : Int := max (-2048) (min 2047 sample)
  let channel (sample : Int) : UInt32 := .ofNat ((2047 - clamp sample).toNat &&& 0xFFF)
  channel sampleA ||| channel sampleB <<< 20

/-- The sample `i` of a card's buffer. -/
def sampleAt (config : Config) (card : Card) (buffer : List UInt8) (i : Nat) : Int :=
  if config.tenbitMode card then
    let idx := i * 2
    decodeSampleTenbit (buffer.getD idx 0) (buffer.getD (idx + 1) 0)
  else decodeSample8bit (buffer.getD i 0)

def wordAt (config : Config) (buffer : Card → List UInt8) (i : Nat) : UInt32 :=
  encodeRawSample (sampleAt config .a (buffer .a) i)
    (if config.cardCount > 1 then sampleAt config .b (buffer .b) i else 0)

/-- A result of `cxadc_read_card`. -/
inductive Read where
  | error
  | bytes (data : List UInt8)
deriving DecidableEq

/-- What an iteration meets: a read of each card, the second if it is made, and room in the
ring. -/
structure Iteration where
  read : Card → Read
  room : Bool

/-- The words that an iteration makes; those of a block without room are dropped. -/
structure Block where
  written : Bool
  words : List UInt32
deriving DecidableEq

/-- `stream` is ghost: all the bytes read from a card. -/
structure State where
  stream : Card → List UInt8
  blocks : List Block
  stopped : Bool

def initial : State := ⟨fun _ => [], [], false⟩

/-- What is in `BUF_CAPTURE_RF`. -/
def State.captureRf (state : State) : List UInt32 :=
  (state.blocks.filter Block.written).flatMap Block.words

def State.receive (state : State) (card : Card) (data : List UInt8) : State :=
  { state with stream := Function.update state.stream card (state.stream card ++ data) }

def State.emit (config : Config) (state : State) (buffer : Card → List UInt8)
    (outputSamples : Nat) (room : Bool) : State :=
  { state with
    blocks := state.blocks ++ [⟨room, (List.range outputSamples).map (wordAt config buffer)⟩] }

/-- Where two cards are captured, the rest of an iteration behind the read of card A. -/
def readSecond (config : Config) (state : State) (dataA : List UInt8) (outputSamples : Nat)
    (iteration : Iteration) : State :=
  match iteration.read .b with
  | .error => { state with stopped := true }
  | .bytes dataB =>
    let state := state.receive .b dataB
    if dataB.length = 0 then state
    else
      let outputSamples := min outputSamples (dataB.length / config.inputBytesPerSample .b)
      if outputSamples = 0 then state
      else
        let buffer : Card → List UInt8
          | .a => dataA
          | .b => dataB
        state.emit config buffer outputSamples iteration.room

/-- An iteration of `cxadc_capture_thread`; a failed read ends it. -/
def step (config : Config) (state : State) (iteration : Iteration) : Option State :=
  if state.stopped then none
  else
    match iteration.read .a with
    | .error => some { state with stopped := true }
    | .bytes dataA =>
      let state := state.receive .a dataA
      let outputSamples := dataA.length / config.inputBytesPerSample .a
      if outputSamples = 0 then some state
      else if config.cardCount > 1 then
        some (readSecond config state dataA outputSamples iteration)
      else some (state.emit config (fun _ => dataA) outputSamples iteration.room)

/-- Word by word, written or dropped with its block, the samples of both cards with the same
index since the first read, each from its place in the card's stream, none left out: a thread
that runs has passed on every sample it has read. -/
def Lockstep (config : Config) (state : State) : Prop :=
  ∃ count, state.blocks.flatMap Block.words =
      (List.range count).map (wordAt config state.stream) ∧
    (state.stopped = false →
      ∀ card, (state.stream card).length / config.inputBytesPerSample card = count)

/-- A read of the card holds this many samples, and nothing else. -/
def holds (config : Config) (card : Card) (data : List UInt8) (count : Nat) : Bool :=
  data.length == count * config.inputBytesPerSample card

/-- Card A delivers whole samples, and if any, then card B as many or an error. -/
def balanced (config : Config) (_ : State) (iteration : Iteration) : Bool :=
  match iteration.read .a with
  | .error => true
  | .bytes dataA =>
    let count := dataA.length / config.inputBytesPerSample .a
    holds config .a dataA count &&
      match iteration.read .b with
      | .error => true
      | .bytes dataB => count == 0 || holds config .b dataB count

variable {config : Config} {card : Card} {before after : List UInt8} {i count : Nat}

theorem inputBytesPerSample_pos (config : Config) (card : Card) :
    0 < config.inputBytesPerSample card := by
  unfold Config.inputBytesPerSample
  split <;> decide

theorem sampleAt_left (inside : i < count)
    (enough : count * config.inputBytesPerSample card ≤ before.length) :
    sampleAt config card (before ++ after) i = sampleAt config card before i := by
  unfold sampleAt
  rw [Config.inputBytesPerSample] at enough
  split at enough
  · rename_i tenbit
    dsimp only
    rw [if_pos tenbit, if_pos tenbit, List.getD_append _ _ _ _ (by omega),
      List.getD_append _ _ _ _ (by omega)]
  · rename_i eightbit
    rw [if_neg eightbit, if_neg eightbit, List.getD_append _ _ _ _ (by omega)]

theorem sampleAt_right (whole : before.length = count * config.inputBytesPerSample card) :
    sampleAt config card (before ++ after) (count + i) = sampleAt config card after i := by
  unfold sampleAt
  rw [Config.inputBytesPerSample] at whole
  split at whole
  · rename_i tenbit
    dsimp only
    rw [if_pos tenbit, if_pos tenbit, List.getD_append_right _ _ _ _ (by omega),
      List.getD_append_right _ _ _ _ (by omega)]
    rw [show (count + i) * 2 - before.length = i * 2 by omega,
      show (count + i) * 2 + 1 - before.length = i * 2 + 1 by omega]
  · rename_i eightbit
    rw [if_neg eightbit, if_neg eightbit, List.getD_append_right _ _ _ _ (by omega),
      show count + i - before.length = i by omega]

variable {state next : State}

/-- A running thread has read nothing but the samples of its words. -/
structure Inv (config : Config) (state : State) (count : Nat) : Prop where
  words : state.blocks.flatMap Block.words =
    (List.range count).map (wordAt config state.stream)
  enough : ∀ card, count * config.inputBytesPerSample card ≤ (state.stream card).length
  all : state.stopped = false →
    ∀ card, (state.stream card).length = count * config.inputBytesPerSample card

theorem Inv.lockstep (inv : Inv config state count) : Lockstep config state := by
  refine ⟨count, inv.words, ?_⟩
  intro running card
  rw [inv.all running card, Nat.mul_div_cancel _ (inputBytesPerSample_pos config card)]

theorem initial_inv : Inv config initial 0 where
  words := rfl
  enough := by simp
  all := by simp [initial]

theorem wordAt_left {stream chunk : Card → List UInt8} (inside : i < count)
    (enough : ∀ card, count * config.inputBytesPerSample card ≤ (stream card).length) :
    wordAt config (fun card => stream card ++ chunk card) i = wordAt config stream i := by
  unfold wordAt
  rw [sampleAt_left inside (enough .a), sampleAt_left inside (enough .b)]

theorem wordAt_right {stream chunk : Card → List UInt8}
    (whole : ∀ card, (stream card).length = count * config.inputBytesPerSample card) :
    wordAt config (fun card => stream card ++ chunk card) (count + i) =
      wordAt config chunk i := by
  unfold wordAt
  rw [sampleAt_right (whole .a), sampleAt_right (whole .b)]

theorem Inv.stop (inv : Inv config state count) (chunk : Card → List UInt8) :
    Inv config { state with
      stream := fun card => state.stream card ++ chunk card
      stopped := true } count where
  words := by
    rw [inv.words]
    apply List.map_congr_left
    intro i member
    exact (wordAt_left (List.mem_range.mp member) inv.enough).symm
  enough := by
    intro card
    rw [List.length_append]
    exact Nat.le_add_right_of_le (inv.enough card)
  all := nofun

theorem Inv.emit (inv : Inv config state count) (running : state.stopped = false)
    {chunk : Card → List UInt8} {more : Nat} (room : Bool)
    (whole : ∀ card, (chunk card).length = more * config.inputBytesPerSample card) :
    Inv config ({ state with stream := fun card => state.stream card ++ chunk card }.emit
      config chunk more room) (count + more) := by
  have length (card : Card) : (state.stream card ++ chunk card).length =
      (count + more) * config.inputBytesPerSample card := by
    rw [List.length_append, inv.all running card, whole card, Nat.add_mul]
  constructor
  · rw [State.emit, List.range_add, List.map_append, List.flatMap_append, inv.words,
      List.map_map]
    congr 1
    · apply List.map_congr_left
      intro i member
      exact (wordAt_left (List.mem_range.mp member) inv.enough).symm
    · rw [List.flatMap_singleton]
      apply List.map_congr_left
      intro i _
      exact (wordAt_right (inv.all running)).symm
  · exact fun card => Nat.le_of_eq (length card).symm
  · exact fun _ => length

def chunkOf (dataA dataB : List UInt8) : Card → List UInt8
  | .a => dataA
  | .b => dataB

theorem receive_a (state : State) (dataA : List UInt8) :
    state.receive .a dataA =
      { state with stream := fun card => state.stream card ++ chunkOf dataA [] card } := by
  rw [State.receive]
  congr 1
  funext card
  cases card <;> simp [chunkOf]

theorem receive_b (state : State) (dataA dataB : List UInt8) :
    (state.receive .a dataA).receive .b dataB =
      { state with stream := fun card => state.stream card ++ chunkOf dataA dataB card } := by
  rw [State.receive, State.receive]
  congr 1
  funext card
  cases card <;> simp [chunkOf]

theorem receive_nil (state : State) (card : Card) : state.receive card [] = state := by
  rw [State.receive, List.append_nil, Function.update_eq_self]

theorem holds_eq {data : List UInt8} :
    holds config card data count = true ↔
      data.length = count * config.inputBytesPerSample card :=
  beq_iff_eq

theorem Inv.readSecond (inv : Inv config state count) (running : state.stopped = false)
    {dataA : List UInt8} {more : Nat} {iteration : Iteration} (some : more ≠ 0)
    (wholeA : dataA.length = more * config.inputBytesPerSample .a)
    (wholeB : ∀ dataB, iteration.read .b = .bytes dataB →
      dataB.length = more * config.inputBytesPerSample .b) :
    ∃ last, Inv config (readSecond config (state.receive .a dataA) dataA more iteration) last := by
  unfold Cxadc.readSecond
  cases second : iteration.read .b with
  | error =>
    rw [receive_a]
    exact ⟨count, inv.stop _⟩
  | bytes dataB =>
    have length := wholeB dataB second
    have positive : 0 < dataB.length := by
      rw [length]
      exact Nat.mul_pos (Nat.pos_of_ne_zero some) (inputBytesPerSample_pos config .b)
    dsimp only
    rw [if_neg (Nat.ne_of_gt positive), length,
      Nat.mul_div_cancel _ (inputBytesPerSample_pos config .b), Nat.min_self, if_neg some,
      receive_b]
    refine ⟨count + more, inv.emit running iteration.room ?_⟩
    intro card
    cases card with
    | a => exact wholeA
    | b => exact length

theorem Inv.step (inv : Inv config state count) (two : config.cardCount > 1)
    {iteration : Iteration} (even : balanced config state iteration = true)
    (taken : step config state iteration = some next) : ∃ last, Inv config next last := by
  unfold Cxadc.step at taken
  unfold balanced at even
  cases running : state.stopped with
  | true =>
    rw [if_pos running] at taken
    cases taken
  | false =>
    rw [if_neg (Bool.eq_false_iff.mp running)] at taken
    cases first : iteration.read .a with
    | error =>
      rw [first] at taken
      cases taken
      have stopped := inv.stop fun _ => []
      simp only [List.append_nil] at stopped
      exact ⟨count, stopped⟩
    | bytes dataA =>
      rw [first] at taken even
      obtain ⟨wholeA, wholeB⟩ := Bool.and_eq_true_iff.mp even
      rw [holds_eq] at wholeA
      dsimp only at taken
      rw [if_pos two] at taken
      generalize dataA.length / config.inputBytesPerSample .a = more at wholeA wholeB taken
      by_cases none : more = 0
      · rw [if_pos none] at taken
        cases taken
        rw [none, Nat.zero_mul] at wholeA
        rw [List.eq_nil_of_length_eq_zero wholeA, receive_nil]
        exact ⟨count, inv⟩
      · rw [if_neg none] at taken
        cases taken
        apply inv.readSecond running none wholeA
        intro dataB second
        rw [second] at wholeB
        exact holds_eq.mp (by simpa [none] using wholeB)

/-- In a run whose iterations are balanced the two cards stay in lockstep. -/
theorem cards_in_lockstep {config : Config} (two : config.cardCount > 1)
    {schedule : List Iteration} {last : State}
    (h : Machine.run (Machine.guarded (balanced config) (step config)) initial schedule =
      some last) : Lockstep config last := by
  have kept := Machine.run_invariant (fun state => ∃ count, Inv config state count)
    (fun _ _ _ inv taken => inv.choose_spec.step two (Machine.guarded_eq_some.mp taken).1
      (Machine.guarded_eq_some.mp taken).2)
    ⟨0, initial_inv⟩ h
  exact kept.choose_spec.lockstep

def pair (dataA dataB : List UInt8) (room : Bool) : Iteration :=
  ⟨fun card => .bytes (chunkOf dataA dataB card), room⟩

def twoCards (tenbitMode : Bool) : Config := ⟨2, fun _ => tenbitMode⟩

/-- Card B is empty once, and then its first sample is paired with the second of card A. -/
theorem empty_read_shifts :
    ¬∀ (config : Config), config.cardCount > 1 → ∀ schedule last,
      Machine.run (step config) initial schedule = some last → Lockstep config last := by
  intro claim
  obtain ⟨count, words, counted⟩ := claim (twoCards false) (by decide)
    [pair [1] [] true, pair [2] [5, 6] true] _ rfl
  have two : 2 = count := counted rfl .a
  subst two
  have lengths := congrArg List.length words
  cases lengths

/-- Three blocks in the ten-bit mode, the second without room. -/
theorem cards_in_lockstep_tenbit :
    ∃ last, Machine.run (Machine.guarded (balanced (twoCards true)) (step (twoCards true)))
        initial [pair [0, 128] [16, 128] true, pair [1, 2] [3, 4] false,
          pair [32, 128, 48, 128] [0, 0, 255, 255] true] = some last ∧
      last.captureRf = [0x7fe007ff, 0xfff007fd, 0x000007fc] ∧
      Lockstep (twoCards true) last := by
  have runs : (Machine.run (Machine.guarded (balanced (twoCards true)) (step (twoCards true)))
      initial [pair [0, 128] [16, 128] true, pair [1, 2] [3, 4] false,
        pair [32, 128, 48, 128] [0, 0, 255, 255] true]).any
      (fun last => decide (last.captureRf = [0x7fe007ff, 0xfff007fd, 0x000007fc])) = true := by
    decide +kernel
  obtain ⟨last, ran, words⟩ := (Option.any_eq_true _ _).mp runs
  exact ⟨last, ran, of_decide_eq_true words, cards_in_lockstep (by decide) ran⟩

end MisrcGui.Cxadc
