import MisrcGui.Audio.MonitorQueues

/-! What the live-monitor queues return: order, whole frames and freshness. -/
namespace MisrcGui.Audio.MonitorQueues
open Library
open Library.Layout (units)
open Library.DropQueue (contents)

variable {Cell : Type} {v : Variant} {sh : Shared} {s next : Side Cell} {i : Nat} {c : Call Cell}
  {tag : Tag} {cells data : List Cell}

@[simp] theorem frames_nil (v : Variant) (tag : Tag) : frames v tag ([] : List Cell) = [] := by
  rw [frames, Layout.units_nil, List.map_nil]

theorem frames_append (whole : v.unit ∣ cells.length) (later : List Cell) :
    frames v tag (cells ++ later) = frames v tag cells ++ frames v tag later := by
  rw [frames, Layout.units_append whole, List.map_append]
  rfl

theorem dvd_whole (v : Variant) (cells : List Cell) :
    v.unit ∣ (cells.take (cells.length - cells.length % v.unit)).length := by
  rw [List.length_take, Nat.min_eq_left (Nat.sub_le _ _)]
  exact Nat.dvd_sub_mod _

def queued (v : Variant) (s : Side Cell) : List (Tag × List Cell) :=
  frames v s.queue.tag (contents v.capacity s.queue.ring)

def returned (v : Variant) (s : Side Cell) : List (Tag × List Cell) :=
  s.results.flatMap fun r => frames v r.tag r.out

def pending (v : Variant) : Pop Cell → List (Tag × List Cell)
  | .taken tag out | .released tag out | .checked tag out _ => frames v tag out
  | _ => []

def Within : Stage → Prop
  | .guarded _ | .settled _ | .leaving => True
  | _ => False

def Settled : Stage → Prop
  | .settled _ => True
  | _ => False

def PopWithin : Pop Cell → Prop
  | .guarded _ _ | .located _ _ | .tagged _ _ | .taken _ _ | .leaving => True
  | _ => False

/-- What the callback has in hand is whole frames, and generations only grow. -/
def PopOk (v : Variant) (sh : Shared) : Pop Cell → Prop
  | .tagged tag _ => v.generations → tag.2 ≤ sh.generation
  | .taken tag out | .released tag out =>
    v.unit ∣ out.length ∧ (v.generations → tag.2 ≤ sh.generation)
  | .checked tag out first => v.unit ∣ out.length ∧ v.generations ∧ first.1 = tag.1 ∧
      tag.2 ≤ first.2 ∧ first.2 ≤ sh.generation
  | _ => True

/-- A return is made of whole frames, and its tag was current at the first load of the last
check; its generation still was at the last load. -/
def Fresh (v : Variant) (r : Result Cell) : Prop :=
  v.unit ∣ r.out.length ∧ r.first.1 = r.tag.1 ∧
    (v.generations → r.first.2 = r.tag.2 ∧ r.last.2 = r.tag.2)

structure Inv (v : Variant) (sh : Shared) (s : Side Cell) : Prop where
  bounded : s.queue.ring.count ≤ v.capacity
  whole : v.unit ∣ s.queue.ring.count
  held : ∀ (i : Nat) (c : Call Cell), s.calls[i]? = some c → Within c.stage →
    s.guard = some (some i)
  tags : ∀ (i : Nat) (c : Call Cell), s.calls[i]? = some c → Settled c.stage →
    s.queue.tag = c.tag
  popHeld : PopWithin s.pop → s.guard = some none
  order : ∃ left, s.accepted = left ++ queued v s ∧
    (returned v s ++ pending v s.pop).Sublist left
  pop : PopOk v sh s.pop
  fresh : ∀ r ∈ s.results, Fresh v r

theorem empty_inv [Inhabited Cell] : Inv v sh (empty : Side Cell) where
  bounded := Nat.zero_le _
  whole := Nat.dvd_zero _
  held := nofun
  tags := nofun
  popHeld := False.elim
  order := ⟨[], (frames_nil v _).symm, List.nil_sublist _⟩
  pop := trivial
  fresh := nofun

theorem Inv.control {later : Shared} (inv : Inv v sh s) (grows : sh.generation ≤ later.generation) :
    Inv v later s where
  __ := inv
  pop := by
    have ok := inv.pop
    cases place : s.pop with
    | tagged tag max =>
      rw [place] at ok
      exact fun has => Nat.le_trans (ok has) grows
    | taken | released =>
      rw [place] at ok
      exact ⟨ok.1, fun has => Nat.le_trans (ok.2 has) grows⟩
    | checked tag out first =>
      rw [place] at ok
      exact ⟨ok.1, ok.2.1, ok.2.2.1, ok.2.2.2.1, Nat.le_trans ok.2.2.2.2 grows⟩
    | _ => trivial

theorem calls_set {c' d : Call Cell} {j : Nat} (found : (s.calls.set i c')[j]? = some d) :
    j = i ∧ d = c' ∨ j ≠ i ∧ s.calls[j]? = some d := by
  rw [List.getElem?_set] at found
  split at found
  · rename_i same
    split at found
    · cases found
      exact .inl ⟨same.symm, rfl⟩
    · contradiction
  · rename_i other
    exact .inr ⟨Ne.symm other, found⟩

theorem Inv.stage (inv : Inv v sh s) (there : s.calls[i]? = some c) (stage : Stage)
    (within : Within stage → Within c.stage) (settled : Settled stage → Settled c.stage) :
    Inv v sh (setStage s i c stage) where
  __ := inv
  held := by
    intro j d found inside
    rcases calls_set found with ⟨rfl, rfl⟩ | ⟨-, other⟩
    · exact inv.held j c there (within inside)
    · exact inv.held j d other inside
  tags := by
    intro j d found inside
    rcases calls_set found with ⟨rfl, rfl⟩ | ⟨-, other⟩
    · exact inv.tags j c there (settled inside)
    · exact inv.tags j d other inside

theorem Inv.newCall (inv : Inv v sh s) (call : Call Cell) (apart : ¬Within call.stage)
    (unsettled : ¬Settled call.stage) : Inv v sh { s with calls := s.calls ++ [call] } where
  __ := inv
  held := by
    intro j d found inside
    rw [List.getElem?_append] at found
    split at found
    · exact inv.held j d found inside
    · have listed := List.mem_singleton.mp (List.mem_of_getElem? found)
      rw [listed] at inside
      exact absurd inside apart
  tags := by
    intro j d found inside
    rw [List.getElem?_append] at found
    split at found
    · exact inv.tags j d found inside
    · have listed := List.mem_singleton.mp (List.mem_of_getElem? found)
      rw [listed] at inside
      exact absurd inside unsettled

theorem Inv.alone (inv : Inv v sh s) (there : s.calls[i]? = some c) (inside : Within c.stage)
    {j : Nat} {d : Call Cell} (found : s.calls[j]? = some d) (other : Within d.stage) : j = i := by
  have mine := inv.held i c there inside
  rw [inv.held j d found other] at mine
  exact Option.some.inj (Option.some.inj mine)

theorem Inv.popOutside (inv : Inv v sh s) (there : s.calls[i]? = some c)
    (inside : Within c.stage) : ¬PopWithin s.pop := by
  intro other
  have mine := inv.held i c there inside
  rw [inv.popHeld other] at mine
  nomatch Option.some.inj mine

theorem queued_retag (q : Queue Cell) (tag : Tag) : ∃ gone,
    frames v q.tag (contents v.capacity q.ring) =
      gone ++ frames v (retag q tag).tag (contents v.capacity (retag q tag).ring) := by
  rw [retag]
  split
  · exact ⟨[], rfl⟩
  · refine ⟨frames v q.tag (contents v.capacity q.ring), ?_⟩
    rw [DropQueue.contents_clear, frames_nil, List.append_nil]

theorem count_retag (q : Queue Cell) (tag : Tag) :
    (retag q tag).ring.count = q.ring.count ∨ (retag q tag).ring.count = 0 := by
  rw [retag]
  split
  · exact .inl rfl
  · exact .inr rfl

theorem retag_tag (q : Queue Cell) (tag : Tag) : (retag q tag).tag = tag := by
  rw [retag]
  split
  · assumption
  · rfl

theorem Inv.acquire (inv : Inv v sh s) (free : s.guard = none) (stage : Stage)
    (unsettled : ¬Settled stage) :
    Inv v sh { setStage s i c stage with guard := some (some i) } where
  __ := inv
  held := by
    intro j d found inside
    rcases calls_set found with ⟨rfl, -⟩ | ⟨-, other⟩
    · rfl
    · have holds := inv.held j d other inside
      rw [free] at holds
      nomatch holds
  tags := by
    intro j d found inside
    rcases calls_set found with ⟨-, rfl⟩ | ⟨-, other⟩
    · exact absurd inside unsettled
    · exact inv.tags j d other inside
  popHeld := by
    intro inside
    have holds := inv.popHeld inside
    rw [free] at holds
    nomatch holds

theorem Inv.release (inv : Inv v sh s) (there : s.calls[i]? = some c) (inside : Within c.stage) :
    Inv v sh { setStage s i c .done with guard := none } where
  __ := inv
  held := by
    intro j d found holds
    rcases calls_set found with ⟨-, rfl⟩ | ⟨apart, other⟩
    · exact holds.elim
    · exact absurd (inv.alone there inside other holds) apart
  tags := by
    intro j d found settled
    rcases calls_set found with ⟨-, rfl⟩ | ⟨-, other⟩
    · exact settled.elim
    · exact inv.tags j d other settled
  popHeld := fun other => absurd other (inv.popOutside there inside)

theorem Inv.settle (inv : Inv v sh s) (there : s.calls[i]? = some c) (inside : Within c.stage)
    (loads : List Load) :
    Inv v sh { setStage s i c (.settled loads) with queue := retag s.queue c.tag } where
  bounded := by
    rcases count_retag s.queue c.tag with same | none
    · exact Nat.le_trans (Nat.le_of_eq same) inv.bounded
    · exact Nat.le_trans (Nat.le_of_eq none) (Nat.zero_le _)
  whole := by
    change v.unit ∣ (retag s.queue c.tag).ring.count
    rcases count_retag s.queue c.tag with same | none
    · rw [same]
      exact inv.whole
    · rw [none]
      exact Nat.dvd_zero _
  held := by
    intro j d found holds
    rcases calls_set found with ⟨rfl, -⟩ | ⟨-, other⟩
    · exact inv.held j c there inside
    · exact inv.held j d other holds
  tags := by
    intro j d found settled
    rcases calls_set found with ⟨-, rfl⟩ | ⟨apart, other⟩
    · exact retag_tag _ _
    · refine absurd (inv.alone there inside other ?_) apart
      cases place : d.stage with
      | settled => trivial
      | _ =>
        rw [place] at settled
        exact settled.elim
  __ := inv
  order := by
    obtain ⟨left, split, sub⟩ := inv.order
    obtain ⟨gone, emptied⟩ := queued_retag (v := v) s.queue c.tag
    refine ⟨left ++ gone, ?_, sub.trans (List.sublist_append_left _ _)⟩
    rw [List.append_assoc]
    exact split.trans (congrArg (left ++ ·) emptied)

theorem Inv.put (inv : Inv v sh s) (there : s.calls[i]? = some c) (settled : Settled c.stage)
    (inside : Within c.stage) (whole : v.unit ∣ data.length) :
    Inv v sh { setStage s i c .leaving with
      queue := { s.queue with ring := DropQueue.put v.capacity s.queue.ring data }
      accepted := s.accepted ++ frames v c.tag data } := by
  have tag : s.queue.tag = c.tag := inv.tags i c there settled
  have count : (DropQueue.put v.capacity s.queue.ring data).count =
      min v.capacity (s.queue.ring.count + data.length) := DropQueue.count_put inv.bounded
  have sum : v.unit ∣ s.queue.ring.count + data.length := Nat.dvd_add inv.whole whole
  refine ⟨?_, ?_, fun j d found holds => ?_, fun j d found settled => ?_, inv.popHeld, ?_, inv.pop,
    inv.fresh⟩
  · exact Nat.le_trans (Nat.le_of_eq count) (Nat.min_le_left _ _)
  · change v.unit ∣ (DropQueue.put v.capacity s.queue.ring data).count
    rw [count]
    rcases Nat.le_total v.capacity (s.queue.ring.count + data.length) with full | fits
    · rw [Nat.min_eq_left full]
      exact v.whole
    · rw [Nat.min_eq_right fits]
      exact sum
  · rcases calls_set found with ⟨rfl, -⟩ | ⟨-, other⟩
    · exact inv.held j c there inside
    · exact inv.held j d other holds
  · rcases calls_set found with ⟨-, rfl⟩ | ⟨-, other⟩
    · exact settled.elim
    · exact inv.tags j d other settled
  · obtain ⟨left, split, sub⟩ := inv.order
    let drop := s.queue.ring.count + data.length - v.capacity
    let all := contents v.capacity s.queue.ring ++ data
    have aligned : v.unit ∣ (all.take drop).length := by
      rw [List.length_take, List.length_append, DropQueue.length_contents,
        Nat.min_eq_left (Nat.sub_le _ _)]
      exact Nat.dvd_sub sum v.whole
    have before : v.unit ∣ (contents v.capacity s.queue.ring).length := by
      rw [DropQueue.length_contents]
      exact inv.whole
    have both : frames v s.queue.tag (contents v.capacity s.queue.ring) ++ frames v c.tag data =
        frames v s.queue.tag (all.take drop) ++ frames v s.queue.tag (all.drop drop) := by
      rw [← tag, ← frames_append before, ← frames_append aligned, List.take_append_drop]
    refine ⟨left ++ frames v s.queue.tag (all.take drop), ?_,
      sub.trans (List.sublist_append_left _ _)⟩
    change s.accepted ++ frames v c.tag data =
      left ++ frames v s.queue.tag (all.take drop) ++
        frames v s.queue.tag (contents v.capacity (DropQueue.put v.capacity s.queue.ring data))
    rw [DropQueue.contents_put inv.bounded, split, List.append_assoc, List.append_assoc]
    exact congrArg (left ++ ·) both

theorem advance_inv (inv : Inv v sh s) (there : s.calls[i]? = some c)
    (h : advance v sh s i c = some next) : Inv v sh next := by
  rw [advance] at h
  split at h
  · rename_i load rest place
    cases h
    refine inv.stage there _ (fun inside => ?_) (fun settled => ?_)
    · split at inside <;> exact inside.elim
    · split at settled <;> exact settled.elim
  · split at h
    · cases h
      exact inv.stage there .done False.elim False.elim
    · rename_i free
      cases h
      exact inv.acquire (Option.not_isSome_iff_eq_none.mp free) _ id
  · rename_i load rest place
    cases h
    refine inv.stage there _ (fun _ => ?_) (fun settled => ?_)
    · rw [place]
      trivial
    · split at settled <;> exact settled.elim
  · rename_i place
    cases h
    exact inv.settle there (by rw [place]; trivial) outer
  · rename_i load rest place
    cases h
    refine inv.stage there _ (fun _ => ?_) (fun _ => ?_)
    · rw [place]
      trivial
    · rw [place]
      trivial
  · rename_i place
    cases h
    exact inv.put there (by rw [place]; trivial) (by rw [place]; trivial) (dvd_whole v c.data)
  · rename_i place
    cases h
    exact inv.release there (by rw [place]; trivial)
  · contradiction

theorem Inv.popStep (inv : Inv v sh s) (guard : Option (Option Nat)) (pop : Pop Cell)
    (held : ∀ (i : Nat) (c : Call Cell), s.calls[i]? = some c → Within c.stage →
      guard = some (some i))
    (within : PopWithin pop → guard = some none)
    (same : (pending v pop).Sublist (pending v s.pop)) (ok : PopOk v sh pop) :
    Inv v sh { s with guard := guard, pop := pop } where
  __ := inv
  held := held
  popHeld := within
  order := by
    obtain ⟨left, split, sub⟩ := inv.order
    exact ⟨left, split, ((List.Sublist.refl _).append same).trans sub⟩
  pop := ok

theorem Inv.popAlone (inv : Inv v sh s) (inside : PopWithin s.pop) (there : s.calls[i]? = some c) :
    ¬Within c.stage := fun other => inv.popOutside there other inside

theorem Inv.take {max n : Nat} (inv : Inv v sh s) (place : s.pop = .tagged tag max)
    (inside : n ≤ (retag s.queue tag).ring.count) (whole : v.unit ∣ n) :
    Inv v sh { s with
      queue := { retag s.queue tag with
        ring := (DropQueue.take v.capacity (retag s.queue tag).ring n).2 }
      pop := .taken tag (DropQueue.take v.capacity (retag s.queue tag).ring n).1 } := by
  have within : PopWithin s.pop := by
    rw [place]
    trivial
  have before : v.unit ∣ (retag s.queue tag).ring.count := by
    rcases count_retag s.queue tag with same | none
    · rw [same]
      exact inv.whole
    · rw [none]
      exact Nat.dvd_zero _
  have length : (DropQueue.take v.capacity (retag s.queue tag).ring n).1.length = n :=
    Circular.slice_length _ _ _ _
  have known : v.generations → tag.2 ≤ sh.generation := by
    have ok := inv.pop
    rwa [place] at ok
  refine ⟨?_, Nat.dvd_sub before whole, inv.held, fun j d found settled => ?_,
    fun _ => inv.popHeld within, ?_, ⟨by rw [length]; exact whole, known⟩, inv.fresh⟩
  · refine Nat.le_trans (Nat.sub_le _ _) ?_
    rcases count_retag s.queue tag with same | none
    · exact Nat.le_trans (Nat.le_of_eq same) inv.bounded
    · exact Nat.le_trans (Nat.le_of_eq none) (Nat.zero_le _)
  · refine absurd ?_ (inv.popAlone within found)
    cases stage : d.stage with
    | settled => trivial
    | _ =>
      rw [stage] at settled
      exact settled.elim
  · obtain ⟨left, split, sub⟩ := inv.order
    obtain ⟨gone, emptied⟩ := queued_retag (v := v) s.queue tag
    have parts : (DropQueue.take v.capacity (retag s.queue tag).ring n).1 ++
        contents v.capacity (DropQueue.take v.capacity (retag s.queue tag).ring n).2 =
          contents v.capacity (retag s.queue tag).ring := DropQueue.contents_take inside
    have out : v.unit ∣ (DropQueue.take v.capacity (retag s.queue tag).ring n).1.length := by
      rw [length]
      exact whole
    rw [← parts, frames_append out, retag_tag] at emptied
    have none : pending v (.tagged tag max : Pop Cell) = [] := rfl
    rw [place, none, List.append_nil] at sub
    refine ⟨left ++ gone ++ frames v tag (DropQueue.take v.capacity (retag s.queue tag).ring n).1,
      ?_, (sub.trans (List.sublist_append_left _ _)).append (List.Sublist.refl _)⟩
    rw [queued] at split ⊢
    dsimp only
    rw [split, emptied, retag_tag]
    simp only [List.append_assoc]

theorem Inv.returns {r : Result Cell} (inv : Inv v sh s)
    (held : pending v s.pop = frames v r.tag r.out) (fresh : Fresh v r) :
    Inv v sh (returns s r) where
  __ := inv
  popHeld := False.elim
  order := by
    obtain ⟨left, split, sub⟩ := inv.order
    refine ⟨left, split, ?_⟩
    have all : returned v (MonitorQueues.returns s r) = returned v s ++ frames v r.tag r.out := by
      rw [returned, MonitorQueues.returns]
      dsimp only
      split
      · rename_i none
        rw [none, frames_nil, List.append_nil]
        rfl
      · rw [List.flatMap_append, List.flatMap_cons, List.flatMap_nil, List.append_nil]
        rfl
    have idle : pending v (MonitorQueues.returns s r).pop = [] := rfl
    rw [all, ← held, idle, List.append_nil]
    exact sub
  pop := trivial
  fresh := by
    intro result listed
    have listed : result ∈ if r.out = [] then s.results else s.results ++ [r] := listed
    split at listed
    · exact inv.fresh result listed
    · rcases List.mem_append.mp listed with before | now
      · exact inv.fresh result before
      · rw [List.mem_singleton.mp now]
        exact fresh

theorem popNext_inv (inv : Inv v sh s) (h : popNext v sh s = some next) : Inv v sh next := by
  have ok := inv.pop
  rw [popNext] at h
  split at h
  · contradiction
  · split at h
    · cases h
      exact inv.popStep s.guard .idle inv.held False.elim (List.nil_sublist _) trivial
    · rename_i free
      have free := Option.not_isSome_iff_eq_none.mp free
      cases h
      refine inv.popStep _ _ (fun i c found inside => ?_) (fun _ => rfl) (List.nil_sublist _)
        trivial
      have holds := inv.held i c found inside
      rw [free] at holds
      nomatch holds
  · rename_i epoch max place
    have mine : s.guard = some none := inv.popHeld (by rw [place]; trivial)
    split at h
    · cases h
      exact inv.popStep s.guard _ inv.held (fun _ => mine) (List.nil_sublist _) trivial
    · rename_i single
      cases h
      refine inv.popStep s.guard _ inv.held (fun _ => mine) ?_ ?_
      · split <;> exact List.nil_sublist _
      · split
        · exact fun has => absurd has single
        · trivial
  · rename_i epoch max place
    cases h
    exact inv.popStep s.guard _ inv.held (fun _ => inv.popHeld (by rw [place]; trivial))
      (List.nil_sublist _) fun _ => Nat.le_refl _
  · rename_i tag max place
    cases h
    exact inv.take place (Nat.le_trans (Nat.sub_le _ _) (Nat.min_le_left _ _)) (Nat.dvd_sub_mod _)
  · rename_i tag out place
    cases h
    rw [place] at ok
    refine inv.popStep none _ (fun i c found inside => ?_) False.elim ?_ ok
    · exact absurd inside (inv.popAlone (by rw [place]; trivial) found)
    · rw [place]
      exact List.Sublist.refl _
  · rename_i place
    cases h
    refine inv.popStep none _ (fun i c found inside => ?_) False.elim (List.nil_sublist _) trivial
    exact absurd inside (inv.popAlone (by rw [place]; trivial) found)
  · rename_i tag out place
    rw [place] at ok
    dsimp only at h
    split at h
    · cases h
      exact inv.popStep s.guard .idle inv.held False.elim (List.nil_sublist _) trivial
    · rename_i current
      rw [not_not] at current
      split at h
      · rename_i has
        cases h
        refine inv.popStep s.guard _ inv.held False.elim ?_
          ⟨ok.1, has, current.symm, ok.2 has, Nat.le_refl _⟩
        rw [place]
        exact List.Sublist.refl _
      · rename_i single
        cases h
        exact inv.returns (by rw [place, pending])
          ⟨ok.1, current.symm, fun has => absurd has single⟩
  · rename_i tag out first place
    rw [place] at ok
    split at h
    · cases h
      exact inv.popStep s.guard .idle inv.held False.elim (List.nil_sublist _) trivial
    · rename_i current
      rw [not_not] at current
      cases h
      obtain ⟨whole, -, epoch, before, after⟩ := ok
      refine inv.returns (by rw [place, pending]) ⟨whole, epoch, fun _ => ⟨?_, current.symm⟩⟩
      change first.2 = tag.2
      omega

theorem turn_inv {t : Turn} (inv : Inv v sh s) (h : turn v sh s t = some next) : Inv v sh next := by
  cases t with
  | push i =>
    obtain ⟨c, there, taken⟩ := Option.bind_eq_some_iff.mp h
    exact advance_inv inv there taken
  | pop => exact popNext_inv inv h

theorem beginPop_inv {epoch max : Nat} (inv : Inv v sh s) (h : beginPop s epoch max = some next) :
    Inv v sh next := by
  rw [beginPop] at h
  split at h
  · cases h
    exact inv.popStep s.guard _ inv.held False.elim (List.nil_sublist _) trivial
  · contradiction

def ofEpoch (epoch : Nat) (all : List (Tag × List Cell)) : List (Tag × List Cell) :=
  all.filter fun frame => frame.1.1 == epoch

/-- What a queue returns: of each epoch the accepted frames in order, without some that have
left the queue, which they do from its front; whole frames that were accepted under their
tag; and freshness. -/
structure Sound (v : Variant) (s : Side Cell) : Prop where
  order : ∀ epoch, ∃ left, ofEpoch epoch s.accepted = left ++ ofEpoch epoch (queued v s) ∧
    (ofEpoch epoch (returned v s)).Sublist left
  accepted : ∀ r ∈ s.results, ∀ frame ∈ frames v r.tag r.out, frame ∈ s.accepted
  fresh : ∀ r ∈ s.results, Fresh v r

theorem Inv.sound (inv : Inv v sh s) : Sound v s where
  order := by
    intro epoch
    obtain ⟨left, split, sub⟩ := inv.order
    refine ⟨ofEpoch epoch left, ?_, ((List.sublist_append_left _ _).trans sub).filter _⟩
    rw [split, ofEpoch, List.filter_append]
    rfl
  accepted := by
    intro r listed frame member
    obtain ⟨left, split, sub⟩ := inv.order
    have there : frame ∈ returned v s := List.mem_flatMap.mpr ⟨r, listed, member⟩
    rw [split]
    exact List.mem_append_left _ (sub.subset (List.mem_append_left _ there))
  fresh := inv.fresh

def SystemInv (s : System) : Prop := Inv playQ s.shared s.legacy ∧ Inv hifiQ s.shared s.hifi

theorem init_inv : SystemInv init := ⟨empty_inv, empty_inv⟩

theorem step_inv {s next : System} {action : Action} (inv : SystemInv s)
    (h : step s action = some next) : SystemInv next := by
  obtain ⟨legacy, hifi⟩ := inv
  have control {later : Shared} (grows : s.shared.generation ≤ later.generation) :
      SystemInv { s with shared := later } := ⟨legacy.control grows, hifi.control grows⟩
  have waiting {Cell : Type} {call : Call Cell} {stopped : Prop} [Decidable stopped]
      (stage : call.stage = if stopped then .done else .outside outer) :
      ¬Within call.stage ∧ ¬Settled call.stage := by
    rw [stage]
    split <;> exact ⟨id, id⟩
  cases action with
  | invalidate | exchange | enable | activate =>
    cases h
    exact control (Nat.le_refl _)
  | newGeneration =>
    cases h
    exact control (Nat.le_succ _)
  | pushLegacy samples epoch =>
    cases h
    have apart : ¬Within (playQPushSamplesForEpoch s.shared samples epoch).stage ∧
        ¬Settled (playQPushSamplesForEpoch s.shared samples epoch).stage := waiting rfl
    exact ⟨legacy.newCall _ apart.1 apart.2, hifi⟩
  | pushHifi source frames =>
    cases h
    have apart : ¬Within (guiAudioPushHifi s.shared source frames).stage ∧
        ¬Settled (guiAudioPushHifi s.shared source frames).stage := waiting rfl
    exact ⟨legacy, hifi.newCall _ apart.1 apart.2⟩
  | popLegacy maxCount =>
    obtain ⟨side, taken, rfl⟩ := Option.map_eq_some_iff.mp h
    exact ⟨beginPop_inv legacy taken, hifi⟩
  | popHifi maxFrames =>
    obtain ⟨side, taken, rfl⟩ := Option.map_eq_some_iff.mp h
    exact ⟨legacy, beginPop_inv hifi taken⟩
  | giveUp =>
    simp only [step] at h
    split at h
    · cases h
      exact ⟨legacy, hifi.popStep s.hifi.guard .idle hifi.held False.elim (List.nil_sublist _)
        trivial⟩
    · contradiction
  | legacy t =>
    obtain ⟨side, taken, rfl⟩ := Option.map_eq_some_iff.mp h
    exact ⟨turn_inv legacy taken, hifi⟩
  | hifi t =>
    obtain ⟨side, taken, rfl⟩ := Option.map_eq_some_iff.mp h
    exact ⟨legacy, turn_inv hifi taken⟩

/-- Both queues are sound in every reachable state. -/
theorem queues_sound (schedule : List Action) (last : System)
    (h : Machine.run step init schedule = some last) :
    Sound playQ last.legacy ∧ Sound hifiQ last.hifi := by
  have inv : SystemInv last :=
    Machine.run_invariant SystemInv (fun _ _ _ inv taken => step_inv inv taken) init_inv h
  exact ⟨inv.1.sound, inv.2.sound⟩

def pushed (i turns : Nat) : List Action := List.replicate turns (.legacy (.push i))

def popped (turns : Nat) : List Action := List.replicate turns (.legacy .pop)

/-- A push of three samples and a pop, with an invalidation between the two loads of the
pop's last check. -/
def lateInvalidation : List Action :=
  [.enable true, .activate true, .pushLegacy [5, 6, 7] 1] ++ pushed 0 13 ++ [.popLegacy 8] ++
    popped 6 ++ [.invalidate] ++ popped 1

theorem epoch_passed : ∃ schedule last, Machine.run step init schedule = some last ∧
    ∃ r ∈ last.legacy.results, r.out ≠ [] ∧ r.last.1 ≠ r.tag.1 := by
  have runs : ∃ last, Machine.run step init lateInvalidation = some last :=
    Option.isSome_iff_exists.mp (by decide +kernel)
  have results : (Machine.run step init lateInvalidation).map (fun last =>
      last.legacy.results.map fun r => (r.tag, r.out, r.last)) =
        some [((1, 1), [5, 6], (2, 1))] := by decide +kernel
  obtain ⟨last, run⟩ := runs
  rw [run, Option.map_some, Option.some_inj, List.map_eq_singleton_iff] at results
  obtain ⟨r, only, shown⟩ := results
  have tag : r.tag = (1, 1) := congrArg Prod.fst shown
  have out : r.out = [5, 6] := congrArg (fun shape => shape.2.1) shown
  have late : r.last = (2, 1) := congrArg (fun shape => shape.2.2) shown
  refine ⟨lateInvalidation, last, run, r, by rw [only]; exact List.mem_singleton_self r, ?_, ?_⟩
  · rw [out]
    decide
  · rw [tag, late]
    decide

/-- Pushes of two generations and of a second epoch, for both queues. -/
def changes : List Action :=
  [.enable true, .activate true, .pushLegacy [1, 2, 3, 4] 1] ++ pushed 0 13 ++ [.popLegacy 2] ++
    popped 7 ++ [.newGeneration, .pushLegacy [5, 6] 1] ++ pushed 1 13 ++ [.popLegacy 8] ++
    popped 7 ++ [.exchange 7, .invalidate, .pushHifi 7 [(8, 9)]] ++
    List.replicate 12 (.hifi (.push 0)) ++ [.popHifi 4] ++ List.replicate 5 (.hifi .pop)

theorem queues_sound_changes : ∃ last, Machine.run step init changes = some last ∧
    last.legacy.results.map Result.out = [[1, 2], [5, 6]] ∧
    last.hifi.results.map Result.out = [[(8, 9)]] ∧
    Sound playQ last.legacy ∧ Sound hifiQ last.hifi := by
  have runs : ∃ last, Machine.run step init changes = some last :=
    Option.isSome_iff_exists.mp (by decide +kernel)
  have results : (Machine.run step init changes).map (fun last =>
      (last.legacy.results.map Result.out, last.hifi.results.map Result.out)) =
        some ([[1, 2], [5, 6]], [[(8, 9)]]) := by decide +kernel
  obtain ⟨last, run⟩ := runs
  rw [run, Option.map_some, Option.some_inj, Prod.mk.injEq] at results
  exact ⟨last, run, results.1, results.2, queues_sound changes last run⟩

end MisrcGui.Audio.MonitorQueues
