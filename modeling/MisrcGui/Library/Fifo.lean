import MisrcGui.Library.Machine
import Mathlib.Data.List.Basic

/-! The abstract first-in first-out channel, and merges of several histories.
A refinement of `step` delivers a prefix of what was sent, in sending order. -/
namespace Library.Fifo
open Machine

variable {Item Index : Type*}

structure Channel (Item : Type*) where
  queue : List Item
  sent : List Item
  received : List Item

inductive Event (Item : Type*) where
  | send (items : List Item)
  | receive (count : Nat)

def empty : Channel Item := ⟨[], [], []⟩

def step (channel : Channel Item) : Event Item → Option (Channel Item)
  | .send items => some ⟨channel.queue ++ items, channel.sent ++ items, channel.received⟩
  | .receive count =>
    if count ≤ channel.queue.length then
      some ⟨channel.queue.drop count, channel.sent,
        channel.received ++ channel.queue.take count⟩
    else none

theorem run_send (queue sent received items : List Item) :
    run step ⟨queue, sent, received⟩ [.send items] =
      some ⟨queue ++ items, sent ++ items, received⟩ := rfl

theorem run_receive (block rest sent received : List Item) :
    run step ⟨block ++ rest, sent, received⟩ [.receive block.length] =
      some ⟨rest, sent, received ++ block⟩ := by
  simp [step]

def Conserved (channel : Channel Item) : Prop :=
  channel.sent = channel.received ++ channel.queue

theorem step_conserved {channel next : Channel Item} {event : Event Item}
    (kept : Conserved channel) (h : step channel event = some next) : Conserved next := by
  unfold Conserved at kept ⊢
  cases event with
  | send items =>
    cases h
    simp [kept]
  | receive count =>
    simp only [step] at h
    split at h
    · cases h
      simp [kept, List.append_assoc]
    · contradiction

theorem run_conserved {channel next : Channel Item} {events : List (Event Item)}
    (kept : Conserved channel) (h : run step channel events = some next) :
    Conserved next :=
  run_invariant Conserved (fun _ _ _ => step_conserved) kept h

theorem run_prefix {channel next : Channel Item} {events : List (Event Item)}
    (kept : Conserved channel) (h : run step channel events = some next) :
    next.received <+: next.sent := by
  have conserved := run_conserved kept h
  unfold Conserved at conserved
  exact ⟨next.queue, conserved.symm⟩

/-! One order merges several histories when each history is what the order
keeps of its own index. -/

def own [DecidableEq Index] (index : Index) (order : List (Index × Item)) : List Item :=
  (order.filter fun entry => entry.1 = index).map Prod.snd

def Merges [DecidableEq Index] (order : List (Index × Item))
    (history : Index → List Item) : Prop :=
  ∀ index, own index order = history index

theorem mem_of_merges [DecidableEq Index] {order : List (Index × Item)}
    {history : Index → List Item} (merges : Merges order history)
    {entry : Index × Item} (h : entry ∈ order) : entry.2 ∈ history entry.1 := by
  rw [← merges entry.1]
  exact List.mem_map.mpr ⟨entry, List.mem_filter.mpr ⟨h, by simp⟩, rfl⟩

end Library.Fifo
