import Mathlib.Data.List.Induction

/-! Locks that only a replug opens. A key that was locked may be granted again after an
observation in which it is absent and a later one in which it is present. -/
namespace Library.Lockout

inductive Phase where
  | free
  | waitDisappearance
  | waitReappearance
deriving DecidableEq

inductive Event (Key : Type*) where
  | locked (key : Key)
  | observed (present : Key → Bool)
  | granted (key : Key)

variable {Key : Type*}

def Phase.observe (present : Bool) : Phase → Phase
  | .free => .free
  | .waitDisappearance => if present then .waitDisappearance else .waitReappearance
  | .waitReappearance => if present then .free else .waitReappearance

def SeenGone (key : Key) (history : List (Event Key)) : Prop :=
  ∃ before gone after, history = before ++ .observed gone :: after ∧ gone key = false

def SeenGoneAndBack (key : Key) (history : List (Event Key)) : Prop :=
  ∃ before back after,
    history = before ++ .observed back :: after ∧ SeenGone key before ∧ back key = true

/-- Between a lock and a later grant of its key, the key was seen absent and then present. -/
def Kept (history : List (Event Key)) : Prop :=
  ∀ before key between after,
    history = before ++ .locked key :: (between ++ .granted key :: after) →
      SeenGoneAndBack key between

theorem SeenGone.snoc {key : Key} {history : List (Event Key)} (event : Event Key)
    (h : SeenGone key history) : SeenGone key (history ++ [event]) := by
  obtain ⟨before, gone, after, rfl, absent⟩ := h
  exact ⟨before, gone, after ++ [event], by simp, absent⟩

theorem SeenGoneAndBack.snoc {key : Key} {history : List (Event Key)} (event : Event Key)
    (h : SeenGoneAndBack key history) : SeenGoneAndBack key (history ++ [event]) := by
  obtain ⟨before, back, after, rfl, gone, present⟩ := h
  exact ⟨before, back, after ++ [event], by simp, gone, present⟩

theorem Kept.nil : Kept ([] : List (Event Key)) := by
  intro before key between after h
  simp at h

variable [DecidableEq Key]

def advance (key : Key) (phase : Phase) : Event Key → Phase
  | .locked other => if other = key then .waitDisappearance else phase
  | .observed present => phase.observe (present key)
  | .granted _ => phase

def phaseOf (key : Key) (history : List (Event Key)) : Phase :=
  history.foldl (advance key) .free

@[simp] theorem phaseOf_snoc (key : Key) (history : List (Event Key)) (event : Event Key) :
    phaseOf key (history ++ [event]) = advance key (phaseOf key history) event := by
  simp [phaseOf]

def Explained (key : Key) (since : List (Event Key)) : Phase → Prop
  | .free => SeenGoneAndBack key since
  | .waitDisappearance => True
  | .waitReappearance => SeenGone key since

theorem Explained.advance {key : Key} {since : List (Event Key)} {phase : Phase}
    (event : Event Key) (h : Explained key since phase) :
    Explained key (since ++ [event]) (advance key phase event) := by
  have kept : Explained key (since ++ [event]) phase := by
    cases phase with
    | free => exact SeenGoneAndBack.snoc event h
    | waitDisappearance => trivial
    | waitReappearance => exact SeenGone.snoc event h
  cases event with
  | locked other =>
    by_cases same : other = key
    · simp [Lockout.advance, same, Explained]
    · simpa [Lockout.advance, same] using kept
  | granted other => exact kept
  | observed present =>
    cases phase with
    | free => exact kept
    | waitDisappearance =>
      cases seen : present key with
      | true => simp [Lockout.advance, Phase.observe, seen, Explained]
      | false =>
        simp only [Lockout.advance, Phase.observe, seen]
        exact ⟨since, present, [], rfl, seen⟩
    | waitReappearance =>
      cases seen : present key with
      | true =>
        simp only [Lockout.advance, Phase.observe, seen, if_true]
        exact ⟨since, present, [], rfl, h, seen⟩
      | false =>
        simp only [Lockout.advance, Phase.observe, seen]
        exact kept

theorem explained_since (key : Key) (before since : List (Event Key)) :
    Explained key since (phaseOf key (before ++ .locked key :: since)) := by
  induction since using List.reverseRecOn with
  | nil => simp [advance, Explained]
  | append_singleton since event ih =>
    rw [← List.cons_append, ← List.append_assoc, phaseOf_snoc]
    exact ih.advance event

theorem Kept.snoc {history : List (Event Key)} {event : Event Key} (kept : Kept history)
    (free : ∀ key, event = .granted key → phaseOf key history = .free) :
    Kept (history ++ [event]) := by
  intro before key between after h
  rcases List.eq_nil_or_concat after with rfl | ⟨after, newest, rfl⟩
  · have split : history ++ [event] = (before ++ .locked key :: between) ++ [.granted key] := by
      simpa using h
    obtain ⟨rfl, last⟩ := List.append_inj' split rfl
    have explained := explained_since key before between
    rw [free key (by simpa using last)] at explained
    exact explained
  · have split : history ++ [event] =
        (before ++ .locked key :: (between ++ .granted key :: after)) ++ [newest] := by
      simpa using h
    exact kept _ _ _ _ (List.append_inj' split rfl).1

end Library.Lockout
