import MisrcGui.Net.Broadcast

/-! Pushing to the fanout: the new chunk and the overflow loop. -/
namespace MisrcGui.Net.Broadcast
open Library
open Library.Chain (ids suffix)

variable {α : Type*} {f next : Fanout α} {s t : Sub α} {maxBytes : Nat}

theorem Ok.drop {queue : List (Chunk α)} {shutdown : Bool} (ok : Ok queue shutdown s) :
    Ok queue shutdown (drop s) where
  cursor := nofun
  dropped := fun _ => rfl
  start := nofun
  whole := nofun
  part := ok.part

theorem Frame.mapSubs (frame : Frame f) {g : Sub α → Sub α} (same : ∀ s, (g s).id = s.id) :
    Frame { f with subs := f.subs.map g } where
  __ := frame
  subs := by
    rw [List.map_map]
    have ids : Sub.id ∘ g = Sub.id := funext same
    rw [ids]
    exact frame.subs
  counted := by
    rw [List.length_map]
    exact frame.counted

theorem size_chunksFrom_drop (queue : List (Chunk α)) (s : Sub α) :
    size (chunksFrom queue (drop s)) = 0 := rfl

/-- What the overflow loop does: it ends within the bound, and drops only subscribers
with more than that before them. -/
structure Evicted (maxBytes : Nat) (f g : Fanout α) : Prop where
  frame : Frame g
  ok : ∀ s ∈ g.subs, Ok g.queue g.shutdown s
  bounded : g.queuedBytes ≤ maxBytes
  shutdown : g.shutdown = f.shutdown
  subs : ∀ t ∈ g.subs, ∃ s ∈ f.subs, t = s ∨
    (t = drop s ∧ maxBytes < size (chunksFrom f.queue s))

theorem evicted_self (frame : Frame f) (ok : ∀ s ∈ f.subs, Ok f.queue f.shutdown s)
    (bounded : f.queuedBytes ≤ maxBytes) : Evicted maxBytes f f :=
  ⟨frame, ok, bounded, rfl, fun t listed => ⟨t, listed, .inl rfl⟩⟩

theorem trim_shortens {head : Chunk α} {rest : List (Chunk α)} (queue : f.queue = head :: rest)
    (unused : inUse f.subs head.1 = false) : (trim f).queue.length < f.queue.length := by
  obtain ⟨front, split, -, -, first⟩ := trim_spec f
  cases front with
  | nil =>
    have used := first head (by rw [← List.nil_append (trim f).queue, ← split, queue]; rfl)
    rw [unused] at used
    contradiction
  | cons chunk front =>
    rw [split, List.length_append, List.length_cons]
    omega

theorem evict_spec (fuel : Nat) (frame : Frame f) (ok : ∀ s ∈ f.subs, Ok f.queue f.shutdown s)
    (trimmed : ∀ head ∈ f.queue.head?, inUse f.subs head.1) (enough : f.queue.length ≤ fuel) :
    Evicted maxBytes f (evict maxBytes fuel f) := by
  induction fuel generalizing f with
  | zero =>
    have empty : f.queue = [] := List.length_eq_zero_iff.mp (Nat.le_zero.mp enough)
    refine evicted_self frame ok ?_
    rw [frame.bytes, empty]
    exact Nat.zero_le _
  | succ fuel ih =>
    rw [evict]
    split
    · rename_i empty
      refine evicted_self frame ok ?_
      rw [frame.bytes, empty]
      exact Nat.zero_le _
    · rename_i head rest queue
      split
      · rename_i fits
        exact evicted_self frame ok fits
      · rename_i exceeds
        have used : inUse f.subs head.1 = true := trimmed head (by rw [queue]; rfl)
        rw [used, Bool.not_true, if_neg Bool.false_ne_true]
        let dropped : Fanout α := { f with
          subs := f.subs.map fun s => if s.cur = some head.1 then drop s else s }
        have frame' : Frame dropped := frame.mapSubs fun s => by split <;> rfl
        have ok' : ∀ s ∈ dropped.subs, Ok dropped.queue dropped.shutdown s := by
          intro s listed
          obtain ⟨t, member, rfl⟩ := List.mem_map.mp listed
          split
          · exact (ok t member).drop
          · exact ok t member
        have unused : inUse dropped.subs head.1 = false := by
          refine List.any_eq_false.mpr fun s listed => ?_
          obtain ⟨t, member, rfl⟩ := List.mem_map.mp listed
          split
          · exact Bool.false_ne_true
          · rename_i elsewhere
            rw [beq_iff_eq]
            exact elsewhere
        have shorter := trim_shortens (f := dropped) queue unused
        obtain ⟨-, -, -, -, first⟩ := trim_spec dropped
        have later : Evicted maxBytes (trim dropped) (evict maxBytes fuel (trim dropped)) := by
          refine ih frame'.trim (fun s listed => (ok' s listed).trim listed) first ?_
          have : dropped.queue.length ≤ fuel + 1 := enough
          omega
        refine ⟨later.frame, later.ok, later.bounded, later.shutdown, fun t listed => ?_⟩
        obtain ⟨s', member', origin⟩ := later.subs t listed
        obtain ⟨s, member, rfl⟩ := List.mem_map.mp member'
        refine ⟨s, member, ?_⟩
        by_cases place : s.cur = some head.1
        · rw [if_pos place] at origin
          have ahead : maxBytes < size (chunksFrom f.queue s) := by
            simp only [chunksFrom, place]
            rw [queue, Chain.suffix_cons, if_pos rfl, ← queue, ← frame.bytes]
            omega
          rcases origin with same | ⟨-, more⟩
          · exact .inr ⟨same, ahead⟩
          · rw [size_chunksFrom_drop] at more
            exact absurd more (Nat.not_lt_zero _)
        · rw [if_neg place] at origin member'
          have kept := chunksFrom_trim (f := dropped) (s := s) member'
          rw [kept] at origin
          exact origin

def Queued (maxBytes : Nat) (data : List α) (allocated : Bool) : Prop :=
  data.length ≤ maxBytes ∧ data.length ≤ sizeMax - chunkHeader ∧ allocated

/-- A subscriber as the push finds it, with its cursor at the new chunk if it had read
everything. -/
def awaiting (f : Fanout α) (data : List α) (s : Sub α) : Sub α :=
  if !s.overflowed && s.cur.isNone then
    { s with cur := some f.allocations, sent := s.sent ++ data }
  else { s with sent := s.sent ++ data }

theorem awaiting_ok {data : List α} (frame : Frame f) (ok : Ok f.queue f.shutdown s) :
    Ok (f.queue ++ [(f.allocations, data)]) f.shutdown (awaiting f data s) := by
  have fresh : f.allocations ∉ ids f.queue := fun listed =>
    absurd (frame.allocated _ listed) (Nat.lt_irrefl _)
  have newest : suffix f.allocations (f.queue ++ [(f.allocations, data)]) =
      [(f.allocations, data)] := by
    rw [Chain.suffix_append_right fresh, Chain.suffix_cons, if_pos rfl]
  have part : returned s ++ copied s <+: s.sent ++ data :=
    ok.part.trans (List.prefix_append _ _)
  rw [awaiting]
  split
  · rename_i waiting
    simp only [Bool.and_eq_true, Bool.not_eq_true', Option.isNone_iff_eq_none] at waiting
    refine ⟨?_, ?_, nofun, fun live running => ?_, part⟩
    · intro chunk place
      cases place
      simp
    · intro dropped
      have dropped : s.overflowed = true := dropped
      rw [waiting.1] at dropped
      contradiction
    · have whole := ok.whole waiting.1 running
      have before : remaining f.queue s = [] := by
        rw [remaining, chunksFrom, waiting.2]
      rw [before, List.append_nil] at whole
      change returned s ++ copied s ++ remaining _ _ = s.sent ++ data
      rw [whole, remaining, chunksFrom]
      dsimp only
      rw [newest]
      dsimp only
      rw [ok.start waiting.2 waiting.1, List.drop_zero, List.flatMap_nil, List.append_nil]
  · rename_i busy
    refine ⟨fun chunk place => ?_, ok.dropped, ok.start, fun live running => ?_, part⟩
    · rw [Chain.ids_append, List.mem_append]
      exact .inl (ok.cursor chunk place)
    · have live : s.overflowed = false := live
      have whole := ok.whole live running
      change returned s ++ copied s ++ remaining _ _ = s.sent ++ data
      have reading : s.cur ≠ none := fun place => by simp [live, place] at busy
      obtain ⟨chunk, place⟩ := Option.ne_none_iff_exists'.mp reading
      have listed := ok.cursor chunk place
      obtain ⟨content, rest, found, -⟩ := Chain.suffix_of_mem listed
      have ahead : chunksFrom f.queue s = (chunk, content) :: rest := by
        simp only [chunksFrom, place]
        exact found
      have longer : chunksFrom (f.queue ++ [(f.allocations, data)])
          { s with sent := s.sent ++ data } =
            (chunk, content) :: (rest ++ [(f.allocations, data)]) := by
        simp only [chunksFrom, place]
        rw [Chain.suffix_append listed, found]
        rfl
      rw [remaining, longer]
      rw [remaining, ahead] at whole
      dsimp only at whole ⊢
      rw [List.flatMap_append, List.flatMap_cons, List.flatMap_nil, List.append_nil, ← whole]
      simp only [List.append_assoc]

theorem enqueue_queued {data : List α} {allocated : Bool}
    (queued : Queued maxBytes data allocated) :
    enqueue maxBytes (note f data) data allocated =
      ⟨f.queue ++ [(f.allocations, data)], f.allocations + 1, f.subs.map (awaiting f data),
        f.subscribers, f.queuedBytes + data.length, f.shutdown⟩ := by
  unfold Queued at queued
  rw [enqueue, if_pos queued]
  dsimp only [note]
  rw [List.map_map]
  rfl

theorem enqueue_refused {data : List α} {allocated : Bool}
    (refused : ¬Queued maxBytes data allocated) :
    enqueue maxBytes (note f data) data allocated =
      { f with subs := f.subs.map fun s => drop { s with sent := s.sent ++ data } } := by
  unfold Queued at refused
  rw [enqueue, if_neg refused]
  dsimp only [note]
  rw [List.map_map]
  rfl

theorem awaiting_id (f : Fanout α) (data : List α) (s : Sub α) : (awaiting f data s).id = s.id := by
  rw [awaiting]
  split <;> rfl

theorem enqueue_frame {data : List α} {allocated : Bool} (frame : Frame f) :
    Frame (enqueue maxBytes (note f data) data allocated) := by
  by_cases queued : Queued maxBytes data allocated
  · rw [enqueue_queued queued]
    have fresh : f.allocations ∉ ids f.queue := fun listed =>
      absurd (frame.allocated _ listed) (Nat.lt_irrefl _)
    obtain ⟨-, -, -, subs, counted⟩ := frame.mapSubs (g := awaiting f data) (awaiting_id f data)
    refine ⟨?_, fun chunk listed => ?_, ?_, subs, counted⟩
    · rw [Chain.ids_append, List.nodup_append]
      refine ⟨frame.distinct, List.nodup_singleton _, fun a old b new => ?_⟩
      rw [List.mem_singleton.mp new]
      rintro rfl
      exact fresh old
    · rw [Chain.ids_append, List.mem_append] at listed
      rcases listed with old | new
      · exact Nat.lt_succ_of_lt (frame.allocated chunk old)
      · rw [List.mem_singleton.mp new]
        exact Nat.lt_succ_self _
    · dsimp only
      rw [size_append, ← frame.bytes, size_cons, size_nil]
      rfl
  · rw [enqueue_refused queued]
    exact frame.mapSubs fun _ => rfl

theorem enqueue_ok {data : List α} {allocated : Bool} (frame : Frame f)
    (ok : ∀ s ∈ f.subs, Ok f.queue f.shutdown s) :
    ∀ s ∈ (enqueue maxBytes (note f data) data allocated).subs,
      Ok (enqueue maxBytes (note f data) data allocated).queue
        (enqueue maxBytes (note f data) data allocated).shutdown s := by
  by_cases queued : Queued maxBytes data allocated
  · rw [enqueue_queued queued]
    intro t listed
    obtain ⟨s, member, rfl⟩ := List.mem_map.mp listed
    exact awaiting_ok frame (ok s member)
  · rw [enqueue_refused queued]
    intro t listed
    obtain ⟨s, member, rfl⟩ := List.mem_map.mp listed
    exact ⟨nofun, fun _ => rfl, nofun, nofun, (ok s member).part.trans (List.prefix_append _ _)⟩

theorem push_evicts {data : List α} {allocated : Bool} (inv : Inv maxBytes f) (content : data ≠ [])
    (running : ¬(f.shutdown ∨ f.subscribers = 0)) :
    Evicted maxBytes (trim (enqueue maxBytes (note f data) data allocated))
      (push maxBytes (note f data) data allocated) := by
  have frame : Frame (enqueue maxBytes (note f data) data allocated) := enqueue_frame inv.frame
  have ok : ∀ s ∈ (enqueue maxBytes (note f data) data allocated).subs, Ok _ _ s :=
    enqueue_ok inv.frame inv.ok
  obtain ⟨-, -, -, -, first⟩ := trim_spec (enqueue maxBytes (note f data) data allocated)
  have same : ¬((note f data).shutdown ∨ (note f data).subscribers = 0) := running
  rw [push, if_neg content, if_neg same]
  exact evict_spec _ frame.trim (fun s listed => (ok s listed).trim listed) first (Nat.le_refl _)

theorem note_inv {data : List α} (inv : Inv maxBytes f)
    (unread : data = [] ∨ f.shutdown ∨ f.subscribers = 0) : Inv maxBytes (note f data) where
  frame := inv.frame.mapSubs fun _ => rfl
  ok := by
    intro t listed
    obtain ⟨s, member, rfl⟩ := List.mem_map.mp listed
    obtain ⟨cursor, dropped, start, whole, part⟩ := inv.ok s member
    refine ⟨cursor, dropped, start, fun live on => ?_, part.trans (List.prefix_append _ _)⟩
    rcases unread with rfl | off | none
    · change returned s ++ copied s ++ remaining f.queue s = s.sent ++ []
      rw [List.append_nil]
      exact whole live on
    · have on : f.shutdown = false := on
      rw [on] at off
      contradiction
    · rw [inv.frame.counted, List.length_eq_zero_iff] at none
      rw [none] at member
      nomatch member
  bounded := inv.bounded

theorem push_inv {data : List α} {allocated : Bool} (inv : Inv maxBytes f) :
    Inv maxBytes (push maxBytes (note f data) data allocated) := by
  by_cases content : data = []
  · rw [push, if_pos content]
    exact note_inv inv (.inl content)
  · by_cases running : f.shutdown ∨ f.subscribers = 0
    · have same : (note f data).shutdown ∨ (note f data).subscribers = 0 := running
      rw [push, if_neg content, if_pos same]
      exact note_inv inv (.inr running)
    · have loop : Evicted maxBytes _ (push maxBytes (note f data) data allocated) :=
        push_evicts inv content running
      exact ⟨loop.frame, loop.ok, loop.bounded⟩

theorem eq_of_id (frame : Frame f) (left : s ∈ f.subs) (right : t ∈ f.subs) (same : s.id = t.id) :
    s = t :=
  List.inj_on_of_nodup_map frame.subs left right same

/-- A push drops a subscriber only with more than the bound from its current chunk to
the newest one, or when the new chunk could not be queued. -/
theorem push_drops {data : List α} {allocated : Bool} (inv : Inv maxBytes f) (listed : s ∈ f.subs)
    (live : s.overflowed = false) (after : t ∈ (push maxBytes (note f data) data allocated).subs)
    (same : t.id = s.id) (dropped : t.overflowed = true) :
    ¬Queued maxBytes data allocated ∨
      maxBytes < size (suffix (s.cur.getD f.allocations) (f.queue ++ [(f.allocations, data)])) := by
  have unchanged (early : push maxBytes (note f data) data allocated = note f data) : False := by
    rw [early] at after
    obtain ⟨u, member, rfl⟩ := List.mem_map.mp after
    have found : u = s := eq_of_id inv.frame member listed same
    subst found
    have dropped : u.overflowed = true := dropped
    rw [live] at dropped
    contradiction
  by_cases content : data = []
  · exact (unchanged (by rw [push, if_pos content])).elim
  by_cases running : f.shutdown ∨ f.subscribers = 0
  · have early : (note f data).shutdown ∨ (note f data).subscribers = 0 := running
    exact (unchanged (by rw [push, if_neg content, if_pos early])).elim
  by_cases queued : Queued maxBytes data allocated
  · right
    have loop : Evicted maxBytes _ (push maxBytes (note f data) data allocated) :=
      push_evicts inv content running
    obtain ⟨u, member, origin⟩ := loop.subs t after
    rw [trim_subs] at member
    have ahead := chunksFrom_trim member
    have found := member
    rw [enqueue_queued queued] at found
    obtain ⟨v, origin', rfl⟩ := List.mem_map.mp found
    have id : (awaiting f data v).id = t.id := by
      rcases origin with rfl | ⟨rfl, -⟩ <;> rfl
    obtain rfl : v = s := by
      refine eq_of_id inv.frame origin' listed ?_
      rw [← awaiting_id f data v, id, same]
    have cur : (awaiting f data v).cur = some (v.cur.getD f.allocations) ∧
        (awaiting f data v).overflowed = false := by
      rw [awaiting]
      cases v.cur <;> simp [live]
    rcases origin with rfl | ⟨-, more⟩
    · rw [cur.2] at dropped
      contradiction
    · rw [ahead, enqueue_queued queued] at more
      simpa only [chunksFrom, cur.1] using more
  · exact .inl queued

end MisrcGui.Net.Broadcast
