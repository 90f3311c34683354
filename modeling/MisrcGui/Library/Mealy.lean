import Mathlib.Data.List.Basic

/-! Deterministic machines that answer every operation. One machine refines another
when related states give equal answers and stay related. -/
namespace Library.Mealy

variable {State Abstract Operation Reply : Type*}

def run (step : State → Operation → State × Reply) :
    State → List Operation → State × List Reply
  | state, [] => (state, [])
  | state, operation :: rest =>
    let (next, reply) := step state operation
    let (last, replies) := run step next rest
    (last, reply :: replies)

@[simp] theorem run_cons (step : State → Operation → State × Reply) (state : State)
    (operation : Operation) (rest : List Operation) :
    run step state (operation :: rest) =
      ((run step (step state operation).1 rest).1,
        (step state operation).2 :: (run step (step state operation).1 rest).2) := rfl

theorem run_refines {step : State → Operation → State × Reply}
    {spec : Abstract → Operation → Abstract × Reply} (Related : State → Abstract → Prop)
    (matched : ∀ state abstract operation, Related state abstract →
      Related (step state operation).1 (spec abstract operation).1 ∧
        (step state operation).2 = (spec abstract operation).2)
    (operations : List Operation) {state : State} {abstract : Abstract}
    (start : Related state abstract) :
    Related (run step state operations).1 (run spec abstract operations).1 ∧
      (run step state operations).2 = (run spec abstract operations).2 := by
  induction operations generalizing state abstract with
  | nil => exact ⟨start, rfl⟩
  | cons operation rest ih =>
    have first := matched state abstract operation start
    have later := ih first.1
    refine ⟨later.1, ?_⟩
    rw [run_cons, run_cons, first.2, later.2]

end Library.Mealy
