import MisrcGui.Library.Machine
import MisrcGui.Ring.RingBuffer

/-! One producer and one consumer on one ring, each atomic access of `head` and
`tail` a step. `rb_write_ptr`, `rb_write_finished` and `rb_put` load both
indices; `rb_read_finished` moves them back by the size in two separate steps. -/
namespace MisrcGui.Ring.Interleaving
open Library

variable {Cell : Type}

/-- A pointer that `rb_write_ptr` or `rb_read_ptr` returned for a size. -/
structure Grant where
  pointer : Nat
  size : Nat
deriving DecidableEq

inductive WriteCall (Cell : Type) where
  | put (data : List Cell)
  | writePtr (size : Nat)
  | writeFinished (size : Nat)

/-- `wraps` is the number of wraps of the head that its load saw. -/
inductive Producer (Cell : Type) where
  | ready (grant : Option Grant)
  | headLoaded (call : WriteCall Cell) (grant : Option Grant) (head wraps : Nat)
  | copying (data : List Cell) (tail : Nat)
  | advancing (pointer size : Nat)

/-- The steps of `rb_read_ptr` and `rb_read_finished`. In the latter the loads
of `tail` and `head` are unordered; only the consumer moves the head, so one
order stands for both. -/
inductive Consumer where
  | ready (grant : Option Grant)
  | headLoaded (size head : Nat)
  | tailLoaded (size tail : Nat)
  | advancing (size : Nat)
  | testing
  | headWrapping
  | tailWrapping
deriving DecidableEq

/-- `committed`, `released`, the wrap counts and `lost` are ghost: all bytes
committed, how many of them were released, how often each index has wrapped,
and whether a commit inside its grant was refused. -/
structure State (Cell : Type) where
  ring : RingBuffer Cell
  producer : Producer Cell
  consumer : Consumer
  committed : List Cell
  released : Nat
  headWraps : Nat
  tailWraps : Nat
  lost : Bool

def initial (buffer : Nat → Cell) : State Cell :=
  ⟨⟨buffer, 0, 0⟩, .ready none, .ready none, [], 0, 0, 0, false⟩

inductive Action (Cell : Type) where
  | call (call : WriteCall Cell)
  | fill (data : List Cell)
  | produce
  | readPtr (size : Nat)
  | readFinished (size : Nat)
  | consume

/-- A commit is made within the grant of the write call just before it. -/
def withinGrant (grant : Option Grant) : WriteCall Cell → Bool
  | .writeFinished size => grant.any fun granted => decide (size ≤ granted.size)
  | _ => true

/-- The tail load of a write call and the tests on the loaded pair. -/
def decideCall (geometry : Geometry) (state : State Cell) (grant : Option Grant)
    (head : Nat) : WriteCall Cell → State Cell
  | .writePtr size =>
    let granted : Option Grant :=
      if admitsWrite geometry head state.ring.tail size then some ⟨state.ring.tail, size⟩
      else none
    { state with producer := .ready granted }
  | .writeFinished size =>
    if admitsWrite geometry head state.ring.tail size then
      { state with producer := .advancing ((grant.map Grant.pointer).getD 0) size }
    else { state with producer := .ready none, lost := true }
  | .put data =>
    if admitsWrite geometry head state.ring.tail data.length then
      { state with producer := .copying data state.ring.tail }
    else { state with producer := .ready none }

def produce (geometry : Geometry) (state : State Cell) : Option (State Cell) :=
  match state.producer with
  | .ready _ => none
  | .headLoaded call grant head _ => some (decideCall geometry state grant head call)
  | .copying data tail =>
    some { state with
      ring := copyIn geometry state.ring tail data
      producer := .advancing tail data.length }
  | .advancing pointer size =>
    some { state with
      ring := { state.ring with tail := state.ring.tail + size }
      producer := .ready none
      committed := state.committed ++ copyOut geometry state.ring pointer size }

def consume (geometry : Geometry) (state : State Cell) : Option (State Cell) :=
  match state.consumer with
  | .ready _ => none
  | .headLoaded size head =>
    let granted : Option Grant :=
      if admitsRead geometry head state.ring.tail size then some ⟨head, size⟩ else none
    some { state with consumer := .ready granted }
  | .tailLoaded size tail =>
    let next : Consumer :=
      if wordSub tail state.ring.head < size then .ready none else .advancing size
    some { state with consumer := next }
  | .advancing size =>
    some { state with
      ring := { state.ring with head := state.ring.head + size }
      consumer := .testing
      released := state.released + size }
  | .testing =>
    let next : Consumer :=
      if geometry.size ≤ state.ring.head then .headWrapping else .ready none
    some { state with consumer := next }
  | .headWrapping =>
    some { state with
      ring := { state.ring with head := state.ring.head - geometry.size }
      consumer := .tailWrapping
      headWraps := state.headWraps + 1 }
  | .tailWrapping =>
    some { state with
      ring := { state.ring with tail := state.ring.tail - geometry.size }
      consumer := .ready none
      tailWraps := state.tailWraps + 1 }

def step (geometry : Geometry) (state : State Cell) : Action Cell → Option (State Cell)
  | .call call =>
    match state.producer with
    | .ready grant =>
      if withinGrant grant call then
        some { state with
          producer := .headLoaded call grant state.ring.head state.headWraps }
      else none
    | _ => none
  | .fill data =>
    match state.producer with
    | .ready (some grant) =>
      if data.length ≤ grant.size then
        some { state with ring := copyIn geometry state.ring grant.pointer data }
      else none
    | _ => none
  | .produce => produce geometry state
  | .readPtr size =>
    match state.consumer with
    | .ready _ => some { state with consumer := .headLoaded size state.ring.head }
    | _ => none
  | .readFinished size =>
    match state.consumer with
    | .ready _ => some { state with consumer := .tailLoaded size state.ring.tail }
    | _ => none
  | .consume => consume geometry state

/-- The tail load of a write call sees as many wraps as its head load saw: the
loaded pair is not torn by the consumer's two wrap steps. -/
def untorn (state : State Cell) : Action Cell → Bool
  | .produce =>
    match state.producer with
    | .headLoaded _ _ _ wraps => wraps == state.tailWraps
    | _ => true
  | _ => true

def unread (state : State Cell) : Nat := state.committed.length - state.released

/-- No commit within its grant is refused, and between its calls the consumer
finds exactly the committed bytes it has not released, at any granted pointer. -/
def CommitsKept (geometry : Geometry) (state : State Cell) : Prop :=
  state.lost = false ∧
    ∀ grant, state.consumer = .ready grant →
      contents geometry state.ring = state.committed.drop state.released ∧
      ∀ granted ∈ grant, copyOut geometry state.ring granted.pointer granted.size =
        (state.committed.drop state.released).take granted.size

end MisrcGui.Ring.Interleaving
