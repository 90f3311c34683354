import Mathlib.Data.List.Nodup

/-! Linked lists whose nodes are known by an identity: the part that starts at a node,
and what is left of it when nodes are appended or the front is freed. -/
namespace Library.Chain

variable {β : Type*} {id : Nat} {chain front later : List (Nat × β)}

def ids (chain : List (Nat × β)) : List Nat := chain.map Prod.fst

def suffix (id : Nat) (chain : List (Nat × β)) : List (Nat × β) :=
  chain.dropWhile fun node => node.1 != id

@[simp] theorem ids_nil : ids ([] : List (Nat × β)) = [] := rfl

@[simp] theorem ids_cons (node : Nat × β) (rest : List (Nat × β)) :
    ids (node :: rest) = node.1 :: ids rest := rfl

@[simp] theorem ids_append : ids (front ++ later) = ids front ++ ids later := List.map_append

theorem mem_ids {node : Nat × β} (listed : node ∈ chain) : node.1 ∈ ids chain :=
  List.mem_map_of_mem listed

theorem suffix_cons (node : Nat × β) (rest : List (Nat × β)) :
    suffix id (node :: rest) = if node.1 = id then node :: rest else suffix id rest := by
  rw [suffix, List.dropWhile_cons]
  by_cases same : node.1 = id <;> simp [same, suffix]

theorem suffix_append (listed : id ∈ ids front) : suffix id (front ++ later) =
    suffix id front ++ later := by
  induction front with
  | nil => nomatch listed
  | cons node front ih =>
    rw [List.cons_append, suffix_cons, suffix_cons]
    split
    · rfl
    · rename_i other
      rw [ids_cons] at listed
      exact ih ((List.mem_cons.mp listed).resolve_left fun same => other same.symm)

theorem suffix_append_right (absent : id ∉ ids front) :
    suffix id (front ++ later) = suffix id later := by
  induction front with
  | nil => rfl
  | cons node front ih =>
    rw [ids_cons, List.mem_cons, not_or] at absent
    rw [List.cons_append, suffix_cons, if_neg (Ne.symm absent.1)]
    exact ih absent.2

theorem suffix_of_mem (listed : id ∈ ids chain) :
    ∃ content rest, suffix id chain = (id, content) :: rest ∧
      ∃ front, chain = front ++ (id, content) :: rest := by
  induction chain with
  | nil => nomatch listed
  | cons node rest ih =>
    rw [suffix_cons]
    split
    · rename_i same
      subst same
      exact ⟨node.2, rest, rfl, [], rfl⟩
    · rename_i other
      rw [ids_cons] at listed
      obtain ⟨content, later, found, front, split⟩ :=
        ih ((List.mem_cons.mp listed).resolve_left fun same => other same.symm)
      exact ⟨content, later, found, node :: front, by rw [split]; rfl⟩

theorem suffix_next {node next : Nat × β} {rest : List (Nat × β)} (distinct : (ids chain).Nodup)
    (found : suffix id chain = node :: next :: rest) :
    suffix next.1 chain = next :: rest := by
  have tail : node :: next :: rest <:+ chain := by
    rw [← found]
    exact List.dropWhile_suffix _
  obtain ⟨front, rfl⟩ := tail
  rw [ids_append, List.nodup_append] at distinct
  obtain ⟨-, inner, apart⟩ := distinct
  have away : next.1 ∉ ids (front ++ [node]) := by
    rw [ids_append, List.mem_append]
    rintro (early | same)
    · exact apart _ early next.1 (by simp) rfl
    · simp only [ids_cons, List.nodup_cons, List.mem_cons] at inner
      simp only [ids_cons, ids_nil, List.mem_singleton] at same
      exact inner.1 (.inl same.symm)
  have regroup : front ++ node :: next :: rest = (front ++ [node]) ++ next :: rest := by simp
  rw [regroup, suffix_append_right away, suffix_cons, if_pos rfl]

theorem mem_ids_of_suffix {node : Nat × β} {rest : List (Nat × β)}
    (found : suffix id chain = node :: rest) : ∀ later ∈ node :: rest, later.1 ∈ ids chain := by
  intro later listed
  rw [← found] at listed
  exact mem_ids ((List.dropWhile_suffix _).subset listed)

end Library.Chain
