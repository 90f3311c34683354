import Mathlib.Data.List.TakeWhile

/-! Pointers into a terminated text, and loops that move them. What C leaves undefined is a
fault: a read behind the terminator, a write behind the end of a buffer; so is a loop that does
not end. -/
namespace Library.Terminated

inductive Fault where
  | read
  | write
  | endless
deriving DecidableEq

abbrev Checked := Except Fault

/-- A pointer has the text before it that is left, or it has left the terminator behind. -/
inductive Pointer where
  | inside (rest : List UInt8)
  | beyond
deriving DecidableEq

open Pointer (inside)

@[simp] theorem ok_bind {A B : Type} (a : A) (f : A → Checked B) : (Except.ok a >>= f) = f a := rfl

theorem pure_eq_ok {A : Type} (a : A) : (pure a : Checked A) = .ok a := rfl

def Pointer.rest : Pointer → List UInt8
  | .inside rest => rest
  | .beyond => []

/-- `*p`. -/
def Pointer.load : Pointer → Checked UInt8
  | .inside [] => .ok 0
  | .inside (c :: _) => .ok c
  | .beyond => .error .read

/-- `p + 1`. -/
def Pointer.next : Pointer → Pointer
  | .inside (_ :: rest) => .inside rest
  | _ => .beyond

/-- `*p++`. -/
def Pointer.fetch (p : Pointer) : Checked (UInt8 × Pointer) := do
  let c ← p.load
  return (c, p.next)

/-- `p + n`. -/
def Pointer.forward : Nat → Pointer → Pointer
  | 0, p => p
  | n + 1, p => p.next.forward n

def Pointer.strlen : Pointer → Checked Nat
  | .inside rest => .ok rest.length
  | .beyond => .error .read

def Pointer.upTo (p q : Pointer) : List UInt8 := p.rest.take (p.rest.length - q.rest.length)

/-- Writes behind what a buffer of `cap` bytes holds. -/
def store (cap : Nat) (held bytes : List UInt8) : Checked (List UInt8) :=
  if held.length + bytes.length ≤ cap then .ok (held ++ bytes) else .error .write

section loops

variable {State Result : Type} (body : State → Checked (State ⊕ Result))

def loop : Nat → State → Checked Result
  | 0, _ => .error .endless
  | rounds + 1, s => do
    match ← body s with
    | .inl s => loop rounds s
    | .inr r => return r

inductive Ends : State → Result → Prop where
  | stop {s : State} {r : Result} (last : body s = .ok (.inr r)) : Ends s r
  | step {s next : State} {r : Result} (round : body s = .ok (.inl next)) (later : Ends next r) :
    Ends s r

variable {body}

theorem loop_step {s next : State} (round : body s = .ok (.inl next)) (rounds : Nat) :
    loop body (rounds + 1) s = loop body rounds next := by
  rw [loop, round]
  rfl

theorem loop_stop {s : State} {r : Result} (last : body s = .ok (.inr r)) (rounds : Nat) :
    loop body (rounds + 1) s = .ok r := by
  rw [loop, last]
  rfl

theorem loop_of_measure (measure : State → Nat) (inv : State → Prop) {post : Result → Prop}
    (round : ∀ s, inv s →
      (∃ next, body s = .ok (.inl next) ∧ inv next ∧ measure next < measure s) ∨
        ∃ r, body s = .ok (.inr r) ∧ post r)
    {rounds : Nat} {s : State} (start : inv s) (enough : measure s < rounds) :
    ∃ r, loop body rounds s = .ok r ∧ post r := by
  induction rounds generalizing s with
  | zero => omega
  | succ rounds ih =>
    rcases round s start with ⟨next, ran, kept, smaller⟩ | ⟨r, ran, result⟩
    · rw [loop_step ran]
      exact ih kept (by omega)
    · exact ⟨r, loop_stop ran rounds, result⟩

theorem loop_eq_of_ends {rounds : Nat} {s : State} {r : Result} (ends : Ends body s r)
    (enough : ∃ other, loop body rounds s = .ok other) : loop body rounds s = .ok r := by
  induction ends generalizing rounds with
  | stop last =>
    cases rounds with
    | zero =>
      obtain ⟨other, none⟩ := enough
      cases none
    | succ rounds => exact loop_stop last rounds
  | step round later ih =>
    cases rounds with
    | zero =>
      obtain ⟨other, none⟩ := enough
      cases none
    | succ rounds =>
      rw [loop_step round] at enough ⊢
      exact ih enough

end loops

def scanBody (test : UInt8 → Bool) (p : Pointer) : Checked (Pointer ⊕ Pointer) := do
  let c ← p.load
  return if test c then .inl p.next else .inr p

/-- `while (test(*p)) p++`. -/
def scan (test : UInt8 → Bool) (p : Pointer) : Checked Pointer :=
  loop (scanBody test) (p.rest.length + 1) p

theorem scan_inside {test : UInt8 → Bool} (stops : test 0 = false) (text : List UInt8) :
    scan test (inside text) = .ok (inside (text.dropWhile test)) := by
  show loop (scanBody test) (text.length + 1) (inside text) = _
  induction text with
  | nil =>
    apply loop_stop
    show Except.ok (if test 0 then _ else _) = _
    rw [if_neg (by rw [stops]; exact Bool.false_ne_true)]
    rfl
  | cons c text ih =>
    cases here : test c with
    | true =>
      have round : scanBody test (inside (c :: text)) = .ok (.inl (inside text)) :=
        congrArg Except.ok (if_pos here)
      rw [loop_step round, List.dropWhile_cons_of_pos here]
      exact ih
    | false =>
      have last : scanBody test (inside (c :: text)) = .ok (.inr (inside (c :: text))) :=
        congrArg Except.ok (if_neg (by rw [here]; exact Bool.false_ne_true))
      rw [loop_stop last, List.dropWhile_cons_of_neg (by rw [here]; exact Bool.false_ne_true)]

theorem upTo_append (front rest : List UInt8) :
    (inside (front ++ rest)).upTo (inside rest) = front := by
  show (front ++ rest).take ((front ++ rest).length - rest.length) = front
  rw [List.length_append, Nat.add_sub_cancel, List.take_left]

end Library.Terminated
