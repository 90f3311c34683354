import MisrcGui.Net.Broadcast

/-! Reading from the fanout: what the copying loop does for one subscriber. -/
namespace MisrcGui.Net.Broadcast
open Library
open Library.Chain (ids suffix)

variable {α : Type*} {f next : Fanout α} {s t : Sub α} {maxBytes : Nat}

/-- What the copying loop does for a subscriber; the others are left as they are. -/
structure Copied (f : Fanout α) (s : Sub α) (bytes : List α) (f' : Fanout α) (s' : Sub α)
    (bytes' : List α) : Prop where
  frame : Frame f'
  subs : f'.subs.map Sub.id = f.subs.map Sub.id
  others : ∀ t ∈ f'.subs, t.id ≠ s.id → t ∈ f.subs
  ok : ∀ t ∈ f'.subs, t.id ≠ s.id → Ok f'.queue f'.shutdown t
  shutdown : f'.shutdown = f.shutdown
  bounded : f'.queuedBytes ≤ f.queuedBytes
  same : s' = { s with cur := s'.cur, off := s'.off }
  cursor : ∀ chunk, s'.cur = some chunk → chunk ∈ ids f'.queue
  start : s'.cur = none → s'.off = 0
  content : bytes' ++ remaining f'.queue s' = bytes ++ remaining f.queue s

theorem ahead_cons {queue rest : List (Chunk α)} {chunk : Chunk α}
    (ahead : chunksFrom queue s = chunk :: rest) : s.cur = some chunk.1 ∧
      ((ids queue).Nodup → suffix chunk.1 queue = chunk :: rest ∧
        ∀ advanced : Sub α, advanced.cur = rest.head?.map Prod.fst →
          chunksFrom queue advanced = rest) := by
  cases place : s.cur with
  | none => simp [chunksFrom, place] at ahead
  | some first =>
    simp only [chunksFrom, place] at ahead
    have same : chunk.1 = first := by
      have head := List.head?_dropWhile_not (fun node : Chunk α => node.1 != first) queue
      rw [← suffix, ahead] at head
      simpa using head
    subst same
    refine ⟨rfl, fun distinct => ⟨ahead, fun advanced next => ?_⟩⟩
    cases rest with
    | nil => simp only [chunksFrom, next, List.head?_nil, Option.map_none]
    | cons later rest =>
      simp only [chunksFrom, next, List.head?_cons, Option.map_some]
      exact Chain.suffix_next distinct ahead

theorem copyLoop_spec (chunks : List (Chunk α)) (cap : Nat) (bytes : List α) (frame : Frame f)
    (there : s.id ∈ f.subs.map Sub.id)
    (ok : ∀ t ∈ f.subs, t.id ≠ s.id → Ok f.queue f.shutdown t)
    (cursor : ∀ chunk, s.cur = some chunk → chunk ∈ ids f.queue)
    (start : s.cur = none → s.off = 0) (ahead : chunksFrom f.queue s = chunks) :
    Copied f s bytes (copyLoop f s cap bytes chunks).1 (copyLoop f s cap bytes chunks).2.1
      (copyLoop f s cap bytes chunks).2.2.2 := by
  induction chunks generalizing f s cap bytes with
  | nil =>
    exact ⟨frame, rfl, fun t listed _ => listed, ok, rfl, Nat.le_refl _, rfl, cursor, start, rfl⟩
  | cons chunk rest ih =>
    have content : remaining f.queue s = chunk.2.drop s.off ++ rest.flatMap Prod.snd := by
      rw [remaining, ahead]
    obtain ⟨place, following⟩ := ahead_cons ahead
    rw [copyLoop]
    dsimp only
    split
    · rename_i full
      refine ⟨frame.store _, store_ids f _, fun t listed other => mem_store_other listed other,
        fun t listed other => ok t (mem_store_other listed other) other, rfl, Nat.le_refl _, rfl,
        cursor, ?_, ?_⟩
      · intro none
        rw [place] at none
        cases none
      · have moved : remaining f.queue
            { s with off := s.off + ((chunk.2.drop s.off).take cap).length } =
              chunk.2.drop (s.off + ((chunk.2.drop s.off).take cap).length) ++
                rest.flatMap Prod.snd := by
          have same : chunksFrom f.queue
              { s with off := s.off + ((chunk.2.drop s.off).take cap).length } = chunk :: rest :=
            ahead
          rw [remaining, same]
        rw [store_queue, moved, content, full, ← List.drop_drop, List.append_assoc,
          ← List.append_assoc _ (List.drop cap _), List.take_append_drop]
    · rename_i short
      have piece : (chunk.2.drop s.off).take cap = chunk.2.drop s.off := by
        refine List.take_of_length_le ?_
        rw [List.length_take] at short
        omega
      rw [piece]
      let advanced : Sub α := { s with cur := rest.head?.map Prod.fst, off := 0 }
      have stored : advanced ∈ (store f advanced).subs := store_mem there
      have listed (chunk : Nat) (found : advanced.cur = some chunk) : chunk ∈ ids f.queue := by
        obtain ⟨next, first, rfl⟩ := Option.map_eq_some_iff.mp found
        refine Chain.mem_ids_of_suffix (following frame.distinct).1 next ?_
        exact List.mem_cons_of_mem _ (List.mem_of_head? first)
      have before : chunksFrom f.queue advanced = rest := (following frame.distinct).2 advanced rfl
      have others : ∀ t ∈ (store f advanced).subs, t.id ≠ s.id →
          Ok (store f advanced).queue (store f advanced).shutdown t :=
        fun t listed other => ok t (mem_store_other listed other) other
      have loop : Copied (trim (store f advanced)) advanced (bytes ++ chunk.2.drop s.off) _ _ _ :=
        ih (cap - (chunk.2.drop s.off).length) (bytes ++ chunk.2.drop s.off)
          (frame.store advanced).trim (by rw [trim_subs, store_ids]; exact there)
          (fun t listed other => (others t listed other).trim listed)
          (fun chunk place => cursor_trim stored place (listed chunk place)) (fun _ => rfl)
          ((chunksFrom_trim stored).trans before)
      refine ⟨loop.frame, ?_, fun t listed other => ?_, loop.ok, loop.shutdown, ?_, ?_, loop.cursor,
        loop.start, ?_⟩
      · rw [loop.subs, trim_subs, store_ids]
      · exact mem_store_other (loop.others t listed other) other
      · exact Nat.le_trans loop.bounded (trim_bytes _)
      · exact loop.same
      · rw [loop.content, remaining_trim stored, content, List.append_assoc]
        congr 2
        rw [remaining, store_queue, before]
        cases rest with
        | nil => rfl
        | cons later rest => exact congrArg (· ++ _) List.drop_zero

theorem store_inv (frame : Frame f) (ok : ∀ t ∈ f.subs, t.id ≠ s.id → Ok f.queue f.shutdown t)
    (bounded : f.queuedBytes ≤ maxBytes) (mine : Ok f.queue f.shutdown s) :
    Inv maxBytes (store f s) where
  frame := frame.store s
  ok := by
    intro t listed
    rcases mem_store listed with rfl | ⟨member, other⟩
    · exact mine
    · exact ok t member other
  bounded := bounded

theorem returned_append (s : Sub α) (result : Option (List α)) (call : Option (Nat × List α)) :
    returned { s with call := call, results := s.results ++ [result] } =
      returned s ++ result.getD [] := by
  rw [returned, returned, List.filterMap_append, List.flatten_append]
  cases result <;> simp

theorem finish_inv {bytes : List α} (frame : Frame f)
    (ok : ∀ t ∈ f.subs, t.id ≠ s.id → Ok f.queue f.shutdown t)
    (bounded : f.queuedBytes ≤ maxBytes)
    (mine : Ok f.queue f.shutdown { s with call := some (0, bytes) }) :
    Inv maxBytes (finish f s bytes) := by
  rw [finish]
  refine store_inv frame ok bounded
    ⟨mine.cursor, mine.dropped, mine.start, fun live running => ?_, ?_⟩
  · have whole := mine.whole live running
    have fine : (f.shutdown || s.overflowed) = false := by
      rw [running, Bool.false_or]
      exact live
    rw [returned_append, fine]
    rw [copied, List.append_nil]
    exact whole
  · rw [returned_append]
    refine List.IsPrefix.trans ?_ mine.part
    rw [copied, List.append_nil]
    refine List.prefix_append_right_inj _ |>.mpr ?_
    split
    · exact List.nil_prefix
    · exact List.prefix_rfl

theorem Ok.ofCall {queue : List (Chunk α)} {shutdown : Bool} {bytes : List α}
    (ok : Ok queue shutdown s) (held : copied s = bytes) (cap : Nat) :
    Ok queue shutdown { s with call := some (cap, bytes) } where
  __ := ok
  whole := by
    subst held
    exact ok.whole
  part := by
    subst held
    exact ok.part

theorem stop_inv {bytes : List α} {cap : Nat} {waits : Bool} (frame : Frame f)
    (ok : ∀ t ∈ f.subs, t.id ≠ s.id → Ok f.queue f.shutdown t)
    (bounded : f.queuedBytes ≤ maxBytes)
    (mine : ∀ cap, Ok f.queue f.shutdown { s with call := some (cap, bytes) }) :
    Inv maxBytes (if cap = 0 ∨ waits = false then finish f s bytes
      else store f { s with call := some (cap, bytes) }) := by
  split
  · exact finish_inv frame ok bounded (mine 0)
  · exact store_inv frame ok bounded (mine cap)

theorem Copied.ok_call {bytes bytes' : List α} {f' : Fanout α} {s' : Sub α}
    (loop : Copied f s bytes f' s' bytes') (mine : Ok f.queue f.shutdown s)
    (held : copied s = bytes) (alive : f.shutdown = false ∧ s.overflowed = false) (cap : Nat) :
    Ok f'.queue f'.shutdown { s' with call := some (cap, bytes') } := by
  have flag : s'.overflowed = s.overflowed := by rw [loop.same]
  have sent : s'.sent = s.sent := by rw [loop.same]
  have results : returned s' = returned s := by
    rw [loop.same]
    rfl
  have whole : returned s ++ bytes' ++ remaining f'.queue s' = s.sent := by
    rw [List.append_assoc, loop.content, ← List.append_assoc, ← held]
    exact mine.whole alive.2 alive.1
  refine ⟨loop.cursor, fun dropped => ?_, fun none _ => loop.start none, fun _ _ => ?_, ?_⟩
  · have dropped : s'.overflowed = true := dropped
    rw [flag, alive.2] at dropped
    contradiction
  · change returned s' ++ bytes' ++ remaining f'.queue s' = s'.sent
    rw [results, sent]
    exact whole
  · change returned s' ++ bytes' <+: s'.sent
    rw [results, sent, ← whole]
    exact List.prefix_append _ _

/-- A stretch fails, or copies what there is and stops. -/
inductive Stretched (f : Fanout α) (s : Sub α) (bytes : List α) (waits : Bool) :
    Fanout α → Prop where
  | fails (failed : f.shutdown ∨ s.overflowed) : Stretched f s bytes waits (finish f s [])
  | stops (f' : Fanout α) (s' : Sub α) (cap : Nat) (bytes' : List α)
      (alive : f.shutdown = false ∧ s.overflowed = false) (loop : Copied f s bytes f' s' bytes') :
      Stretched f s bytes waits (if cap = 0 ∨ waits = false then finish f' s' bytes'
        else store f' { s' with call := some (cap, bytes') })

theorem stretch_cases {bytes : List α} {cap : Nat} {waits : Bool} (inv : Inv maxBytes f)
    (listed : s ∈ f.subs) (h : stretch f s cap bytes waits = some next) :
    Stretched f s bytes waits next := by
  have mine := inv.ok s listed
  have others : ∀ t ∈ f.subs, t.id ≠ s.id → Ok f.queue f.shutdown t :=
    fun t member _ => inv.ok t member
  rw [stretch] at h
  split at h
  · rename_i failed
    cases h
    exact .fails (Bool.or_eq_true _ _ ▸ failed)
  · rename_i alive
    simp only [Bool.or_eq_true, not_or, Bool.not_eq_true] at alive
    have start (none : s.cur = none) : s.off = 0 := mine.start none alive.2
    dsimp only at h
    split at h
    · cases h
      exact .stops f s cap bytes alive ⟨inv.frame, rfl, fun t member _ => member, others, rfl,
        Nat.le_refl _, rfl, mine.cursor, start, rfl⟩
    · rename_i chunk place
      split at h
      · contradiction
      · cases h
        exact .stops _ _ _ _ alive (copyLoop_spec (suffix chunk f.queue) cap bytes inv.frame
          (List.mem_map_of_mem listed) others mine.cursor start (by rw [chunksFrom, place]))

theorem stretch_inv {bytes : List α} {cap : Nat} {waits : Bool} (inv : Inv maxBytes f)
    (listed : s ∈ f.subs) (held : copied s = bytes)
    (h : stretch f s cap bytes waits = some next) : Inv maxBytes next := by
  have mine := inv.ok s listed
  cases stretch_cases inv listed h with
  | fails failed =>
    refine finish_inv inv.frame (fun t member _ => inv.ok t member) inv.bounded
      ⟨mine.cursor, mine.dropped, mine.start, fun live running => ?_, ?_⟩
    · have live : s.overflowed = false := live
      simp [live, running] at failed
    · refine List.IsPrefix.trans ?_ mine.part
      rw [copied, List.append_nil]
      exact List.prefix_append _ _
  | stops f' s' cap bytes' alive loop =>
    have id : s'.id = s.id := by rw [loop.same]
    exact stop_inv loop.frame (fun t member other => loop.ok t member (id ▸ other))
      (Nat.le_trans loop.bounded inv.bounded) fun cap => loop.ok_call mine held alive cap

end MisrcGui.Net.Broadcast
