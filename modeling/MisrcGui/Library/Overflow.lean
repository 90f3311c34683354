import MisrcGui.Library.Fifo
import Mathlib.Data.List.Perm.Basic

/-! A channel with a primary queue and an overflow queue. Whichever queue an item
takes, nothing is lost or repeated. The order is kept when the primary queue takes
items only while the overflow is empty and is emptied before the overflow is read. -/
namespace Library.Overflow
open Machine

variable {Item : Type*}

structure Channel (Item : Type*) where
  primary : List Item
  overflow : List Item
  sent : List Item
  received : List Item

inductive Event (Item : Type*) where
  | send (items : List Item)
  | spill (items : List Item)
  | receive (count : Nat)
  | unspill (count : Nat)

def step (channel : Channel Item) : Event Item → Option (Channel Item)
  | .send items =>
    some { channel with
      primary := channel.primary ++ items
      sent := channel.sent ++ items }
  | .spill items =>
    some { channel with
      overflow := channel.overflow ++ items
      sent := channel.sent ++ items }
  | .receive count =>
    if count ≤ channel.primary.length then
      some { channel with
        primary := channel.primary.drop count
        received := channel.received ++ channel.primary.take count }
    else none
  | .unspill count =>
    if count ≤ channel.overflow.length then
      some { channel with
        overflow := channel.overflow.drop count
        received := channel.received ++ channel.overflow.take count }
    else none

def ordered (channel : Channel Item) : Event Item → Bool
  | .send _ => channel.overflow.isEmpty
  | .unspill _ => channel.primary.isEmpty
  | _ => true

def Conserved (channel : Channel Item) : Prop :=
  channel.sent.Perm (channel.received ++ (channel.primary ++ channel.overflow))

def queue (channel : Channel Item) : Fifo.Channel Item where
  queue := channel.primary ++ channel.overflow
  sent := channel.sent
  received := channel.received

variable {channel next : Channel Item} {event : Event Item}

theorem step_queue (first : ordered channel event) (h : step channel event = some next) :
    ∃ events, run Fifo.step (queue channel) events = some (queue next) := by
  cases event with
  | send items =>
    have drained : channel.overflow = [] := List.isEmpty_iff.mp first
    cases h
    refine ⟨[.send items], ?_⟩
    rw [queue, Fifo.run_send]
    simp [queue, drained]
  | spill items =>
    cases h
    refine ⟨[.send items], ?_⟩
    rw [queue, Fifo.run_send]
    simp [queue, List.append_assoc]
  | receive count =>
    simp only [step] at h
    by_cases enough : count ≤ channel.primary.length
    · rw [if_pos enough] at h
      cases h
      refine ⟨[.receive count], ?_⟩
      have room : count ≤ (channel.primary ++ channel.overflow).length := by
        rw [List.length_append]
        omega
      simp only [queue, run_cons, run_nil, Fifo.step, if_pos room, Option.bind_some,
        List.drop_append_of_le_length enough, List.take_append_of_le_length enough]
    · rw [if_neg enough] at h
      contradiction
  | unspill count =>
    have emptied : channel.primary = [] := List.isEmpty_iff.mp first
    simp only [step] at h
    by_cases enough : count ≤ channel.overflow.length
    · rw [if_pos enough] at h
      cases h
      refine ⟨[.receive count], ?_⟩
      simp [queue, emptied, Fifo.step, enough]
    · rw [if_neg enough] at h
      contradiction

end Library.Overflow
