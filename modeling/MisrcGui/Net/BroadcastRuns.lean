import MisrcGui.Net.BroadcastRead
import MisrcGui.Net.BroadcastPush

/-! Every run of the fanout: what each step keeps, and what holds in every state. -/
namespace MisrcGui.Net.Broadcast
open Library
open Library.Chain (ids suffix)

variable {α : Type*} {f next : Fanout α} {s t : Sub α} {maxBytes : Nat}

theorem find_some {id : Nat} (found : find f id = some s) : s ∈ f.subs ∧ s.id = id := by
  have searched : f.subs.find? (fun s => s.id == id) = some s := found
  have same := List.find?_some searched
  exact ⟨List.mem_of_find?_eq_some searched, eq_of_beq same⟩

theorem find_none {id : Nat} (absent : find f id = none) : id ∉ f.subs.map Sub.id := by
  intro listed
  obtain ⟨s, member, rfl⟩ := List.mem_map.mp listed
  exact List.find?_eq_none.mp absent s member (beq_self_eq_true _)

theorem subscribe_inv {id : Nat} (inv : Inv maxBytes f) (fresh : id ∉ f.subs.map Sub.id) :
    Inv maxBytes (subscribe f id) := by
  rw [subscribe]
  split
  · exact inv
  · refine ⟨⟨inv.frame.distinct, inv.frame.allocated, inv.frame.bytes, ?_, ?_⟩, fun s listed => ?_,
      inv.bounded⟩
    · exact List.nodup_cons.mpr ⟨fresh, inv.frame.subs⟩
    · exact congrArg (· + 1) inv.frame.counted
    · rcases List.mem_cons.mp listed with rfl | member
      · exact ⟨nofun, nofun, fun _ _ => rfl, fun _ _ => rfl, List.nil_prefix⟩
      · exact inv.ok s member

theorem length_without {id : Nat} (distinct : (f.subs.map Sub.id).Nodup) :
    (f.subs.filter fun s => s.id != id).length =
      if f.subs.any fun s => s.id == id then f.subs.length - 1 else f.subs.length := by
  have erased : (f.subs.filter fun s => s.id != id).map Sub.id = (f.subs.map Sub.id).erase id := by
    rw [distinct.erase_eq_filter, List.filter_map]
    rfl
  have member : id ∈ f.subs.map Sub.id ↔ (f.subs.any fun s => s.id == id) = true := by
    rw [List.mem_map, List.any_eq_true]
    exact exists_congr fun s => and_congr_right fun _ => beq_iff_eq.symm
  rw [← List.length_map Sub.id, erased, List.length_erase, List.length_map]
  exact if_congr member rfl rfl

theorem unsubscribe_inv (inv : Inv maxBytes f) (id : Nat) : Inv maxBytes (unsubscribe f id) := by
  let left : Fanout α := { f with
    subs := f.subs.filter fun s => s.id != id
    subscribers := if f.subs.any fun s => s.id == id then f.subscribers - 1 else f.subscribers }
  have frame : Frame left := by
    refine ⟨inv.frame.distinct, inv.frame.allocated, inv.frame.bytes, ?_, ?_⟩
    · exact inv.frame.subs.sublist (List.filter_sublist.map Sub.id)
    · dsimp only [left]
      rw [length_without inv.frame.subs, inv.frame.counted]
  have ok : ∀ s ∈ left.subs, Ok left.queue left.shutdown s :=
    fun s listed => inv.ok s (List.mem_of_mem_filter listed)
  exact ⟨frame.trim, fun s listed => (ok s listed).trim listed,
    Nat.le_trans (trim_bytes left) inv.bounded⟩

theorem shutdown_inv (inv : Inv maxBytes f) : Inv maxBytes { f with shutdown := true } where
  frame := ⟨inv.frame.distinct, inv.frame.allocated, inv.frame.bytes, inv.frame.subs,
    inv.frame.counted⟩
  ok := by
    intro s listed
    obtain ⟨cursor, dropped, start, -, part⟩ := inv.ok s listed
    exact ⟨cursor, dropped, start, nofun, part⟩
  bounded := inv.bounded

theorem return_inv {bytes : List α} (inv : Inv maxBytes f) (listed : s ∈ f.subs)
    (held : copied s = bytes) : Inv maxBytes (finish f s bytes) :=
  finish_inv inv.frame (fun t member _ => inv.ok t member) inv.bounded
    ((inv.ok s listed).ofCall held 0)

theorem copied_idle (idle : s.call = none) : copied s = [] := by
  rw [copied, idle]

theorem copied_call {cap : Nat} {bytes : List α} (call : s.call = some (cap, bytes)) :
    copied s = bytes := by
  rw [copied, call]

def pushed : Action α → List α
  | .push data _ => data
  | _ => []

def reader : Action α → Option Nat
  | .read id _ _ | .wake id | .expire id => some id
  | _ => none

/-- What a step does: a read that stops there returns, and one that goes on copies. -/
inductive Taken (maxBytes : Nat) (f : Fanout α) : Action α → Fanout α → Prop where
  | subscribe (id : Nat) (fresh : id ∉ f.subs.map Sub.id) :
      Taken maxBytes f (.subscribe id) (Broadcast.subscribe f id)
  | unsubscribe (id : Nat) : Taken maxBytes f (.unsubscribe id) (Broadcast.unsubscribe f id)
  | push (data : List α) (allocated : Bool) :
      Taken maxBytes f (.push data allocated) (Broadcast.push maxBytes (note f data) data allocated)
  | absent (id cap : Nat) (waits : Bool) (none : id ∉ f.subs.map Sub.id) :
      Taken maxBytes f (.read id cap waits) f
  | returns {action : Action α} (s : Sub α) (listed : s ∈ f.subs)
      (reads : reader action = some s.id) : Taken maxBytes f action (finish f s (copied s))
  | goes {action : Action α} (s : Sub α) (cap : Nat) (waits : Bool) (listed : s ∈ f.subs)
      (reads : reader action = some s.id) {next : Fanout α}
      (h : stretch f s cap (copied s) waits = some next) : Taken maxBytes f action next
  | shutdown : Taken maxBytes f .shutdown { f with shutdown := true }

theorem quiet_of_reads {action : Action α} {id : Nat} (reads : reader action = some id) :
    pushed action = [] := by
  cases action <;> first | rfl | contradiction

theorem step_cases {action : Action α} (h : step maxBytes f action = some next) :
    Taken maxBytes f action next := by
  cases action with
  | subscribe id =>
    simp only [step] at h
    split at h
    · contradiction
    · rename_i absent
      cases h
      exact .subscribe id (find_none (Option.not_isSome_iff_eq_none.mp absent))
  | unsubscribe id =>
    simp only [step] at h
    split at h
    · contradiction
    · cases h
      exact .unsubscribe id
  | push data allocated =>
    cases h
    exact .push data allocated
  | read id cap waits =>
    simp only [step] at h
    split at h
    · rename_i absent
      cases h
      exact .absent id cap waits (find_none absent)
    · rename_i s found
      obtain ⟨listed, rfl⟩ := find_some found
      split at h
      · contradiction
      · rename_i idle
        rw [← copied_idle (Option.not_isSome_iff_eq_none.mp idle)] at h
        split at h
        · cases h
          exact .returns s listed rfl
        · exact .goes s cap waits listed rfl h
  | wake id =>
    simp only [step] at h
    split at h
    · rename_i s found
      obtain ⟨listed, rfl⟩ := find_some found
      split at h
      · rename_i cap bytes call
        rw [← copied_call call] at h
        exact .goes s cap true listed rfl h
      · contradiction
    · contradiction
  | expire id =>
    simp only [step] at h
    split at h
    · rename_i s found
      obtain ⟨listed, rfl⟩ := find_some found
      split at h
      · rename_i cap bytes call
        rw [← copied_call call] at h
        cases h
        exact .returns s listed rfl
      · contradiction
    · contradiction
  | shutdown =>
    cases h
    exact .shutdown

theorem step_inv {action : Action α} (inv : Inv maxBytes f)
    (h : step maxBytes f action = some next) : Inv maxBytes next := by
  cases step_cases h with
  | subscribe id fresh => exact subscribe_inv inv fresh
  | unsubscribe id => exact unsubscribe_inv inv id
  | push data allocated => exact push_inv inv
  | absent => exact inv
  | returns s listed reads => exact return_inv inv listed rfl
  | goes s cap waits listed reads h => exact stretch_inv inv listed rfl h
  | shutdown => exact shutdown_inv inv

/-- A dropped subscriber stays dropped, and a read that ends when it is dropped or the
fanout is shut down fails. -/
def Follows (f : Fanout α) (s t : Sub α) : Prop :=
  (s.overflowed → t.overflowed) ∧ (t.results = s.results ∨
    ∃ result, t.results = s.results ++ [result] ∧ (s.overflowed ∨ f.shutdown → result = none))

theorem follows_refl (f : Fanout α) (s : Sub α) : Follows f s s := ⟨id, .inl rfl⟩

theorem follows_of_mem (frame : Frame f) (left : s ∈ f.subs) (right : t ∈ f.subs)
    (same : t.id = s.id) : Follows f s t := by
  rw [eq_of_id frame right left same]
  exact follows_refl f s

theorem follows_store {f' : Fanout α} {s' : Sub α} (frame : Frame f) (listed : s ∈ f.subs)
    (others : ∀ t ∈ f'.subs, t.id ≠ s.id → t ∈ f.subs) (id : s'.id = s.id)
    (mine : Follows f s s') :
    ∀ u ∈ f.subs, ∀ t ∈ (store f' s').subs, t.id = u.id → Follows f u t := by
  intro u member t after same
  rcases mem_store after with rfl | ⟨later, other⟩
  · rw [eq_of_id frame member listed (same.symm.trans id)]
    exact mine
  · rw [id] at other
    exact follows_of_mem frame member (others t later other) same

theorem follows_finish {f' : Fanout α} {s' : Sub α} (shutdown : f'.shutdown = f.shutdown)
    (overflowed : s'.overflowed = s.overflowed) (results : s'.results = s.results)
    (bytes : List α) : Follows f s { s' with
      call := none
      results := s'.results ++ [if f'.shutdown || s'.overflowed then none else some bytes] } := by
  refine ⟨fun dropped => overflowed.trans dropped,
    .inr ⟨_, congrArg (· ++ _) results, fun failed => ?_⟩⟩
  rw [shutdown, overflowed]
  refine if_pos ?_
  rcases failed with dropped | off
  · rw [dropped, Bool.or_true]
  · rw [off, Bool.true_or]

theorem finish_follows (frame : Frame f) (listed : s ∈ f.subs) (bytes : List α) :
    ∀ u ∈ f.subs, ∀ t ∈ (finish f s bytes).subs, t.id = u.id → Follows f u t :=
  follows_store frame listed (fun _ member _ => member) rfl (follows_finish rfl rfl rfl bytes)

theorem stop_follows {f' : Fanout α} {s' : Sub α} {cap : Nat} {bytes : List α} {waits : Bool}
    (frame : Frame f) (listed : s ∈ f.subs) (others : ∀ t ∈ f'.subs, t.id ≠ s.id → t ∈ f.subs)
    (shutdown : f'.shutdown = f.shutdown) (same : s' = { s with cur := s'.cur, off := s'.off }) :
    ∀ u ∈ f.subs, ∀ t ∈ (if cap = 0 ∨ waits = false then finish f' s' bytes
      else store f' { s' with call := some (cap, bytes) }).subs, t.id = u.id → Follows f u t := by
  have id : s'.id = s.id := by rw [same]
  have overflowed : s'.overflowed = s.overflowed := by rw [same]
  have results : s'.results = s.results := by rw [same]
  split
  · exact follows_store frame listed others id (follows_finish shutdown overflowed results bytes)
  · exact follows_store frame listed others id
      ⟨fun dropped => overflowed.trans dropped, .inl results⟩

theorem stretch_follows {bytes : List α} {cap : Nat} {waits : Bool} (inv : Inv maxBytes f)
    (listed : s ∈ f.subs) (h : stretch f s cap bytes waits = some next) :
    ∀ u ∈ f.subs, ∀ t ∈ next.subs, t.id = u.id → Follows f u t := by
  cases stretch_cases inv listed h with
  | fails => exact finish_follows inv.frame listed []
  | stops f' s' cap bytes' alive loop =>
    exact stop_follows inv.frame listed loop.others loop.shutdown loop.same

theorem enqueue_subs {data : List α} {allocated : Bool}
    (listed : t ∈ (enqueue maxBytes (note f data) data allocated).subs) :
    ∃ s ∈ f.subs, t.id = s.id ∧ t.results = s.results ∧ (s.overflowed → t.overflowed) := by
  by_cases queued : Queued maxBytes data allocated
  · rw [enqueue_queued queued] at listed
    obtain ⟨s, member, rfl⟩ := List.mem_map.mp listed
    refine ⟨s, member, ?_⟩
    rw [awaiting]
    split <;> exact ⟨rfl, rfl, id⟩
  · rw [enqueue_refused queued] at listed
    obtain ⟨s, member, rfl⟩ := List.mem_map.mp listed
    exact ⟨s, member, rfl, rfl, fun _ => rfl⟩

theorem push_follows {data : List α} {allocated : Bool} (inv : Inv maxBytes f) :
    ∀ s ∈ f.subs, ∀ t ∈ (push maxBytes (note f data) data allocated).subs, t.id = s.id →
      Follows f s t := by
  have noted : ∀ s ∈ f.subs, ∀ t ∈ (note f data).subs, t.id = s.id → Follows f s t := by
    intro s listed t after same
    obtain ⟨u, member, rfl⟩ := List.mem_map.mp after
    obtain rfl : u = s := eq_of_id inv.frame member listed same
    exact ⟨id, .inl rfl⟩
  by_cases content : data = []
  · rw [push, if_pos content]
    exact noted
  by_cases running : f.shutdown ∨ f.subscribers = 0
  · have early : (note f data).shutdown ∨ (note f data).subscribers = 0 := running
    rw [push, if_neg content, if_pos early]
    exact noted
  have loop : Evicted maxBytes _ (push maxBytes (note f data) data allocated) :=
    push_evicts inv content running
  intro s listed t after same
  obtain ⟨u, member, origin⟩ := loop.subs t after
  have id : u.id = t.id := by
    rcases origin with rfl | ⟨rfl, -⟩ <;> rfl
  have dropped : u.overflowed → t.overflowed := by
    rcases origin with rfl | ⟨rfl, -⟩
    · exact fun dropped => dropped
    · exact fun _ => rfl
  have results : t.results = u.results := by
    rcases origin with rfl | ⟨rfl, -⟩ <;> rfl
  obtain ⟨v, origin', early⟩ := enqueue_subs member
  obtain rfl : v = s := eq_of_id inv.frame origin' listed (early.1.symm.trans (id.trans same))
  exact ⟨fun first => dropped (early.2.2 first), .inl (results.trans early.2.1)⟩

theorem step_follows {action : Action α} (inv : Inv maxBytes f)
    (h : step maxBytes f action = some next) :
    ∀ s ∈ f.subs, ∀ t ∈ next.subs, t.id = s.id → Follows f s t := by
  have still : ∀ s ∈ f.subs, ∀ t ∈ f.subs, t.id = s.id → Follows f s t :=
    fun s listed t member same => follows_of_mem inv.frame listed member same
  cases step_cases h with
  | subscribe id fresh =>
    rw [subscribe]
    split
    · exact still
    · intro s listed t after same
      rcases List.mem_cons.mp after with rfl | member
      · exact absurd (List.mem_map.mpr ⟨s, listed, same.symm⟩) fresh
      · exact still s listed t member same
  | unsubscribe id =>
    exact fun s listed t after same => still s listed t (List.mem_of_mem_filter after) same
  | push data allocated => exact push_follows inv
  | absent => exact still
  | returns s listed reads => exact finish_follows inv.frame listed _
  | goes s cap waits listed reads h => exact stretch_follows inv listed h
  | shutdown => exact still

def Turn (s t : Sub α) : Prop :=
  (t.call.isSome ∧ t.results = s.results) ∨
    (t.call = none ∧ ∃ result, t.results = s.results ++ [result])

inductive Origin (f : Fanout α) (action : Action α) (t : Sub α) : Prop where
  | fresh (subscribed : action = .subscribe t.id) (sent : t.sent = []) (results : t.results = [])
  | kept (s : Sub α) (listed : s ∈ f.subs) (id : t.id = s.id)
      (sent : t.sent = s.sent ++ pushed action) (results : t.results = s.results)
      (idle : reader action ≠ some t.id)
  | turn (s : Sub α) (listed : s ∈ f.subs) (id : t.id = s.id) (sent : t.sent = s.sent)
      (reads : reader action = some t.id) (turn : Turn s t)

theorem origin_self {action : Action α} (quiet : pushed action = []) (listed : t ∈ f.subs)
    (idle : reader action ≠ some t.id) : Origin f action t := by
  refine .kept t listed rfl ?_ rfl idle
  rw [quiet, List.append_nil]

theorem stretch_origin {action : Action α} {bytes : List α} {cap : Nat} {waits : Bool}
    (inv : Inv maxBytes f) (listed : s ∈ f.subs) (reads : reader action = some s.id)
    (h : stretch f s cap bytes waits = some next) : ∀ t ∈ next.subs, Origin f action t := by
  have apart {t : Sub α} (member : t ∈ f.subs) (other : t.id ≠ s.id) : Origin f action t :=
    origin_self (quiet_of_reads reads) member fun same => other (Option.some.inj (same.symm.trans reads))
  have ends {f' : Fanout α} {s' : Sub α} {bytes : List α} (id : s'.id = s.id)
      (sent : s'.sent = s.sent) (results : s'.results = s.results)
      (others : ∀ t ∈ f'.subs, t.id ≠ s.id → t ∈ f.subs) :
      ∀ t ∈ (finish f' s' bytes).subs, Origin f action t := by
    intro t after
    rcases mem_store after with rfl | ⟨member, other⟩
    · exact .turn s listed id sent (id ▸ reads) (.inr ⟨rfl, _, congrArg (· ++ _) results⟩)
    · rw [id] at other
      exact apart (others t member other) other
  have stops {f' : Fanout α} {s' : Sub α} {cap : Nat} {bytes : List α} (id : s'.id = s.id)
      (sent : s'.sent = s.sent) (results : s'.results = s.results)
      (others : ∀ t ∈ f'.subs, t.id ≠ s.id → t ∈ f.subs) :
      ∀ t ∈ (if cap = 0 ∨ waits = false then finish f' s' bytes
        else store f' { s' with call := some (cap, bytes) }).subs, Origin f action t := by
    split
    · exact ends id sent results others
    · intro t after
      rcases mem_store after with rfl | ⟨member, other⟩
      · exact .turn s listed id sent (id ▸ reads) (.inl ⟨rfl, results⟩)
      · rw [id] at other
        exact apart (others t member other) other
  cases stretch_cases inv listed h with
  | fails => exact ends rfl rfl rfl fun _ member _ => member
  | stops f' s' cap bytes' alive loop =>
    exact stops (by rw [loop.same]) (by rw [loop.same]) (by rw [loop.same]) loop.others

theorem finish_origin {action : Action α} {bytes : List α} (listed : s ∈ f.subs)
    (reads : reader action = some s.id) : ∀ t ∈ (finish f s bytes).subs, Origin f action t := by
  intro t after
  rcases mem_store after with rfl | ⟨member, other⟩
  · exact .turn s listed rfl rfl reads (.inr ⟨rfl, _, rfl⟩)
  · exact origin_self (quiet_of_reads reads) member fun same =>
      other (Option.some.inj (same.symm.trans reads))

theorem push_origin {data : List α} {allocated : Bool} (inv : Inv maxBytes f) :
    ∀ t ∈ (push maxBytes (note f data) data allocated).subs,
      ∃ s ∈ f.subs, t.id = s.id ∧ t.sent = s.sent ++ data ∧ t.results = s.results := by
  have noted : ∀ t ∈ (note f data).subs,
      ∃ s ∈ f.subs, t.id = s.id ∧ t.sent = s.sent ++ data ∧ t.results = s.results := by
    intro t after
    obtain ⟨s, listed, rfl⟩ := List.mem_map.mp after
    exact ⟨s, listed, rfl, rfl, rfl⟩
  by_cases content : data = []
  · rw [push, if_pos content]
    exact noted
  by_cases running : f.shutdown ∨ f.subscribers = 0
  · have early : (note f data).shutdown ∨ (note f data).subscribers = 0 := running
    rw [push, if_neg content, if_pos early]
    exact noted
  intro t after
  have loop : Evicted maxBytes _ (push maxBytes (note f data) data allocated) :=
    push_evicts inv content running
  obtain ⟨u, member, origin⟩ := loop.subs t after
  have same : t.id = u.id ∧ t.sent = u.sent ∧ t.results = u.results := by
    rcases origin with rfl | ⟨rfl, -⟩ <;> exact ⟨rfl, rfl, rfl⟩
  rw [same.1, same.2.1, same.2.2]
  by_cases queued : Queued maxBytes data allocated
  · rw [enqueue_queued queued] at member
    obtain ⟨s, listed, rfl⟩ := List.mem_map.mp member
    refine ⟨s, listed, ?_⟩
    rw [awaiting]
    split <;> exact ⟨rfl, rfl, rfl⟩
  · rw [enqueue_refused queued] at member
    obtain ⟨s, listed, rfl⟩ := List.mem_map.mp member
    exact ⟨s, listed, rfl, rfl, rfl⟩

theorem step_origin {action : Action α} (inv : Inv maxBytes f)
    (h : step maxBytes f action = some next) : ∀ t ∈ next.subs, Origin f action t := by
  cases step_cases h with
  | subscribe id fresh =>
    rw [subscribe]
    split
    · exact fun t member => origin_self rfl member nofun
    · intro t after
      rcases List.mem_cons.mp after with rfl | member
      · exact .fresh rfl rfl rfl
      · exact origin_self rfl member nofun
  | unsubscribe id =>
    exact fun t after => origin_self rfl (List.mem_of_mem_filter after) nofun
  | push data allocated =>
    intro t after
    obtain ⟨s, listed, id, sent, results⟩ := push_origin inv t after
    exact .kept s listed id sent results nofun
  | absent id cap waits none =>
    refine fun t member => origin_self rfl member fun same => none ?_
    rw [Option.some.inj same]
    exact List.mem_map_of_mem member
  | returns s listed reads => exact finish_origin listed reads
  | goes s cap waits listed reads h => exact stretch_origin inv listed reads h
  | shutdown => exact fun t member => origin_self rfl member nofun

/-- What holds of the fanout in a reachable state, and of its next step. -/
structure Sound (maxBytes : Nat) (f : Fanout α) : Prop where
  gapless : ∀ s ∈ f.subs, returned s ++ copied s <+: s.sent
  cursors : ∀ s ∈ f.subs, ∀ chunk, s.cur = some chunk → chunk ∈ ids f.queue
  proceeds : ∀ s ∈ f.subs, ∀ cap bytes waits, (stretch f s cap bytes waits).isSome
  bytes : f.queuedBytes = size f.queue
  bounded : f.queuedBytes ≤ maxBytes
  fails : ∀ action next, step maxBytes f action = some next → (f.shutdown → next.shutdown) ∧
    ∀ s ∈ f.subs, ∀ t ∈ next.subs, t.id = s.id → Follows f s t
  drops : ∀ data allocated next, step maxBytes f (.push data allocated) = some next →
    ∀ s ∈ f.subs, s.overflowed = false → ∀ t ∈ next.subs, t.id = s.id → t.overflowed = true →
      ¬Queued maxBytes data allocated ∨
        maxBytes < size (suffix (s.cur.getD f.allocations) (f.queue ++ [(f.allocations, data)]))

theorem stretch_proceeds (inv : Inv maxBytes f) (listed : s ∈ f.subs) (cap : Nat) (bytes : List α)
    (waits : Bool) : (stretch f s cap bytes waits).isSome := by
  rw [stretch]
  split
  · rfl
  · dsimp only
    split
    · rfl
    · rename_i chunk place
      obtain ⟨content, rest, found, -⟩ := Chain.suffix_of_mem ((inv.ok s listed).cursor chunk place)
      rw [found]
      rfl

theorem shutdown_stays {action : Action α} (h : step maxBytes f action = some next)
    (off : f.shutdown = true) : next.shutdown = true := by
  cases step_cases h with
  | subscribe id fresh =>
    rw [subscribe, if_pos off]
    exact off
  | push data allocated =>
    have early : (note f data).shutdown ∨ (note f data).subscribers = 0 := .inl off
    rw [push, if_pos early, ite_self]
    exact off
  | goes s cap waits listed reads h =>
    rw [stretch, off, Bool.true_or, if_pos rfl] at h
    cases h
    exact off
  | shutdown => rfl
  | unsubscribe | absent | returns => exact off

theorem Inv.sound (inv : Inv maxBytes f) : Sound maxBytes f where
  gapless := fun s listed => (inv.ok s listed).part
  cursors := fun s listed => (inv.ok s listed).cursor
  proceeds := fun s listed => stretch_proceeds inv listed
  bytes := inv.frame.bytes
  bounded := inv.bounded
  fails := fun action next h => ⟨shutdown_stays h, step_follows inv h⟩
  drops := by
    intro data allocated next h s listed live t after same dropped
    cases h
    exact push_drops inv listed live after same dropped

/-- Every reachable state of the fanout is sound. -/
theorem broadcast (schedule : List (Action α)) (last : Fanout α)
    (h : Machine.run (step maxBytes) init schedule = some last) : Sound maxBytes last :=
  Inv.sound (Machine.run_invariant (Inv maxBytes) (fun _ _ _ inv taken => step_inv inv taken)
    init_inv h)

/-- Two subscribers; the first is dropped, and the second waits in a call. -/
theorem broadcast_slow :
    Sound 4 (⟨[], 3, [⟨2, none, 0, false, some (2, [4, 5, 6]), [], [4, 5, 6]⟩,
      ⟨1, none, 2, true, none, [some [1, 2], none], [1, 2, 3, 4, 5, 6]⟩], 2, 0, false⟩ :
        Fanout Nat) :=
  broadcast [.subscribe 1, .push [1, 2, 3] true, .subscribe 2, .read 1 2 false, .push [4, 5] true,
    .read 2 5 true, .push [6] true, .wake 2, .read 1 1 false] _ (by decide +kernel)

end MisrcGui.Net.Broadcast
