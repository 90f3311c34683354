import MisrcGui.Net.Ingest

/-! Frame alignment from the pushes to the client's ring. -/
namespace MisrcGui.Net.Ingest
open Library
open Library.Layout (units)
open Broadcast (returned)

variable {maxBytes frame : Nat} {pushed bytes more data : List UInt8}

def Stretch (frame : Nat) (pushed bytes : List UInt8) : Prop :=
  ∃ before after, pushed = before ++ (bytes ++ after) ∧ frame ∣ before.length

theorem Stretch.nil : Stretch frame pushed [] := ⟨[], pushed, rfl, Nat.dvd_zero _⟩

theorem Stretch.push (stretch : Stretch frame pushed bytes) (data : List UInt8) :
    Stretch frame (pushed ++ data) bytes := by
  obtain ⟨before, after, rfl, aligned⟩ := stretch
  exact ⟨before, after ++ data, by simp only [List.append_assoc], aligned⟩

theorem Stretch.front (stretch : Stretch frame pushed (bytes ++ more)) :
    Stretch frame pushed bytes := by
  obtain ⟨before, after, rfl, aligned⟩ := stretch
  exact ⟨before, more ++ after, by rw [List.append_assoc], aligned⟩

theorem Stretch.prefix_of (stretch : Stretch frame pushed more) (early : bytes <+: more) :
    Stretch frame pushed bytes := by
  obtain ⟨rest, rfl⟩ := early
  exact stretch.front

theorem Stretch.later (stretch : Stretch frame pushed (bytes ++ more))
    (whole : frame ∣ bytes.length) : Stretch frame pushed more := by
  obtain ⟨before, after, rfl, aligned⟩ := stretch
  refine ⟨before ++ bytes, after, by simp only [List.append_assoc], ?_⟩
  rw [List.length_append]
  exact Nat.dvd_add aligned whole

theorem Stretch.units_sublist (stretch : Stretch frame pushed bytes)
    (whole : frame ∣ bytes.length) : (units frame bytes).Sublist (units frame pushed) := by
  obtain ⟨before, after, rfl, aligned⟩ := stretch
  rw [Layout.units_append aligned, Layout.units_append whole]
  exact (List.sublist_append_left _ _).trans (List.sublist_append_right _ _)

theorem bodyOffset_greeting (rest : List UInt8) :
    bodyOffset (greeting ++ rest) = some greeting.length := by
  rfl

theorem bodyOffset_early : ∀ n < greeting.length, bodyOffset (greeting.take n) = none := by
  decide +kernel

/-- What has come of a stream that begins with the greeting: its end is found when all
of it has come. -/
theorem bodyOffset_of_prefix {hbuf sent : List UInt8}
    (front : sent.take greeting.length <+: greeting) (come : hbuf <+: sent) {offset : Nat}
    (found : bodyOffset hbuf = some offset) :
    offset = greeting.length ∧ hbuf = greeting ++ hbuf.drop greeting.length := by
  have early : hbuf.take greeting.length <+: greeting :=
    (come.take greeting.length).trans front
  by_cases short : hbuf.length < greeting.length
  · have part : hbuf <+: greeting := by
      rwa [List.take_of_length_le (Nat.le_of_lt short)] at early
    rw [List.prefix_iff_eq_take.mp part, bodyOffset_early _ short] at found
    contradiction
  · have whole : hbuf.take greeting.length = greeting := by
      refine early.eq_of_length ?_
      rw [List.length_take]
      omega
    have split : hbuf = greeting ++ hbuf.drop greeting.length := by
      conv_lhs => rw [← List.take_append_drop greeting.length hbuf, whole]
    rw [split, bodyOffset_greeting] at found
    exact ⟨(Option.some.inj found).symm, split⟩

def body (c : Connection) : List UInt8 := c.sent.drop greeting.length

def left : Place → List UInt8
  | .send rest => rest
  | _ => []

def Reads : Place → Prop
  | .read | .wait | .send _ | .probe => True
  | _ => False

structure ConnOk (frame : Nat) (f : Broadcast.Fanout UInt8) (pushed : List UInt8) (id : Nat)
    (c : Connection) : Prop where
  front : c.sent.take greeting.length <+: greeting
  start : c.place = .greet → c.sent = []
  greeted : c.place ≠ .greet → c.broken = false → greeting.length ≤ c.sent.length
  silent : c.place = .subscribe → body c = []
  carried : Stretch frame pushed (body c ++ left c.place)
  linked : Reads c.place → ∀ sub ∈ f.subs, sub.id = id → returned sub = body c ++ left c.place
  whole : frame ∣ c.committed.length
  order : (units frame c.committed).Sublist (units frame pushed)

/-- The pump holds the bytes that it has received and not used; after the greeting it has
used whole frames, unless a frame is larger than `inbuf`. -/
def PumpOk (frame : Nat) (conns : List Connection) : Pump → Prop
  | .apart => True
  | .headers id hbuf => ∃ c, conns[id]? = some c ∧ hbuf <+: c.sent ∧ c.received = hbuf.length ∧
      c.committed = []
  | .body id inbuf => ∃ c used, conns[id]? = some c ∧ greeting ++ used ++ inbuf <+: c.sent ∧
      c.received = (greeting ++ used ++ inbuf).length ∧ inbuf.length ≤ inbufSize ∧
      (frame ≤ inbufSize →
        frame ∣ used.length ∧ (units frame c.committed).Sublist (units frame used)) ∧
      (inbufSize < frame → c.committed = [])

structure Inv (maxBytes frame : Nat) (s : System) : Prop where
  fanout : Broadcast.Inv maxBytes s.fanout
  whole : frame ∣ s.pushed.length
  subs : ∀ sub ∈ s.fanout.subs, ∃ before, s.pushed = before ++ sub.sent ∧ frame ∣ before.length
  conns : ∀ id c, s.conns[id]? = some c → ConnOk frame s.fanout s.pushed id c
  pump : PumpOk frame s.conns s.pump
  ringWhole : frame ∣ s.ring.length
  ring : ∀ unit ∈ units frame s.ring, unit ∈ units frame s.pushed

variable {s next : System} {c : Connection} {id : Nat} {f f' : Broadcast.Fanout UInt8}

theorem init_inv : Inv maxBytes frame init where
  fanout := Broadcast.init_inv
  whole := Nat.dvd_zero _
  subs := nofun
  conns := nofun
  pump := trivial
  ringWhole := Nat.dvd_zero _
  ring := by
    have none : units frame init.ring = [] := Layout.units_nil frame
    rw [none]
    exact nofun

theorem accepted_ok : ConnOk frame f pushed id accepted where
  front := List.nil_prefix
  start := fun _ => rfl
  greeted := fun other => absurd rfl other
  silent := fun _ => rfl
  carried := Stretch.nil
  linked := False.elim
  whole := Nat.dvd_zero _
  order := by
    rw [accepted, Layout.units_nil]
    exact List.nil_sublist _

/-! Operations on the fanout, as a connection that does not take part sees them. -/

variable {action : Broadcast.Action UInt8}

theorem subs_step (inv : Broadcast.Inv maxBytes f) (whole : frame ∣ pushed.length)
    (subs : ∀ sub ∈ f.subs, ∃ before, pushed = before ++ sub.sent ∧ frame ∣ before.length)
    (taken : Broadcast.step maxBytes f action = some f') :
    ∀ sub ∈ f'.subs, ∃ before,
      pushed ++ Broadcast.pushed action = before ++ sub.sent ∧ frame ∣ before.length := by
  intro sub listed
  rcases Broadcast.step_origin inv taken sub listed with
    ⟨subscribed, sent, -⟩ | ⟨old, member, -, sent, -, -⟩ | ⟨old, member, -, sent, reads, -⟩
  · refine ⟨pushed, ?_, whole⟩
    rw [subscribed, sent]
    rfl
  · obtain ⟨before, rfl, aligned⟩ := subs old member
    exact ⟨before, by rw [sent, List.append_assoc], aligned⟩
  · obtain ⟨before, rfl, aligned⟩ := subs old member
    refine ⟨before, ?_, aligned⟩
    have quiet : Broadcast.pushed action = [] := by
      cases action with
      | push => nomatch reads
      | _ => rfl
    rw [sent, quiet, List.append_nil]

theorem linked_step (inv : Broadcast.Inv maxBytes f)
    (taken : Broadcast.step maxBytes f action = some f') (fresh : action ≠ .subscribe id)
    (idle : Broadcast.reader action ≠ some id)
    (linked : ∀ sub ∈ f.subs, sub.id = id → returned sub = bytes) :
    ∀ sub ∈ f'.subs, sub.id = id → returned sub = bytes := by
  rintro sub listed rfl
  rcases Broadcast.step_origin inv taken sub listed with
    ⟨subscribed, -, -⟩ | ⟨old, member, same, -, results, -⟩ | ⟨old, member, -, -, reads, -⟩
  · exact absurd subscribed fresh
  · rw [returned, results]
    exact linked old member same.symm
  · exact absurd reads idle

theorem ConnOk.elsewhere (ok : ConnOk frame f pushed id c) (inv : Broadcast.Inv maxBytes f)
    (whole : frame ∣ pushed.length) (taken : Broadcast.step maxBytes f action = some f')
    (fresh : action ≠ .subscribe id) (idle : Broadcast.reader action ≠ some id) :
    ConnOk frame f' (pushed ++ Broadcast.pushed action) id c where
  __ := ok
  carried := ok.carried.push _
  linked := fun reads => linked_step inv taken fresh idle (ok.linked reads)
  order := ok.order.trans (Layout.units_sublist whole _)

theorem PumpOk.extend {conns : List Connection} {pump : Pump} {c' : Connection}
    (ok : PumpOk frame conns pump) (there : conns[id]? = some c) (sent : c.sent <+: c'.sent)
    (received : c'.received = c.received) (committed : c'.committed = c.committed) :
    PumpOk frame (conns.set id c') pump := by
  have inside : id < conns.length := (List.getElem?_eq_some_iff.mp there).1
  cases pump with
  | apart => trivial
  | headers conn hbuf =>
    obtain ⟨d, found, come, count, none⟩ := ok
    by_cases same : id = conn
    · subst same
      obtain rfl : c = d := Option.some.inj (there.symm.trans found)
      exact ⟨c', List.getElem?_set_self inside, come.trans sent, received.trans count,
        committed.trans none⟩
    · exact ⟨d, (List.getElem?_set_ne same).trans found, come, count, none⟩
  | body conn inbuf =>
    obtain ⟨d, used, found, come, count, small, order, large⟩ := ok
    by_cases same : id = conn
    · subst same
      obtain rfl : c = d := Option.some.inj (there.symm.trans found)
      refine ⟨c', used, List.getElem?_set_self inside, come.trans sent, received.trans count, small,
        ?_⟩
      rw [committed]
      exact ⟨order, large⟩
    · exact ⟨d, used, (List.getElem?_set_ne same).trans found, come, count, small, order, large⟩

theorem PumpOk.accept {conns : List Connection} {pump : Pump} (ok : PumpOk frame conns pump)
    (c : Connection) : PumpOk frame (conns ++ [c]) pump := by
  have kept {id : Nat} {d : Connection} (found : conns[id]? = some d) :
      (conns ++ [c])[id]? = some d := by
    rw [List.getElem?_append_left (List.getElem?_eq_some_iff.mp found).1]
    exact found
  cases pump with
  | apart => trivial
  | headers conn hbuf =>
    obtain ⟨d, found, rest⟩ := ok
    exact ⟨d, kept found, rest⟩
  | body conn inbuf =>
    obtain ⟨d, used, found, rest⟩ := ok
    exact ⟨d, used, kept found, rest⟩

theorem conns_set (ok : ∀ id c, s.conns[id]? = some c → ConnOk frame f pushed id c)
    {c' : Connection} (mine : ConnOk frame f pushed id c') :
    ∀ i d, (s.conns.set id c')[i]? = some d → ConnOk frame f pushed i d := by
  intro i d found
  rw [List.getElem?_set] at found
  split at found
  · rename_i same
    subst same
    split at found
    · cases found
      exact mine
    · contradiction
  · exact ok i d found

theorem conns_accept (ok : ∀ id c, s.conns[id]? = some c → ConnOk frame f pushed id c) :
    ∀ i d, (s.conns ++ [accepted])[i]? = some d → ConnOk frame f pushed i d := by
  intro i d found
  rw [List.getElem?_append] at found
  split at found
  · exact ok i d found
  · have listed := List.mem_of_getElem? found
    rw [List.mem_singleton] at listed
    rw [listed]
    exact accepted_ok

theorem Inv.set (inv : Inv maxBytes frame s) {c' : Connection} (there : s.conns[id]? = some c)
    (sent : c.sent <+: c'.sent) (received : c'.received = c.received)
    (committed : c'.committed = c.committed) (mine : ConnOk frame s.fanout s.pushed id c') :
    Inv maxBytes frame (setConn s id c') where
  __ := inv
  conns := conns_set inv.conns mine
  pump := inv.pump.extend there sent received committed

def subject : Broadcast.Action UInt8 → Option Nat
  | .subscribe id | .unsubscribe id | .read id _ _ | .wake id | .expire id => some id
  | _ => none

theorem apart_of_subject {other : Nat} (about : subject action = some id) (apart : other ≠ id) :
    Broadcast.pushed action = [] ∧ action ≠ .subscribe other ∧
      Broadcast.reader action ≠ some other := by
  cases action with
  | push => nomatch about
  | shutdown => nomatch about
  | subscribe i =>
    refine ⟨rfl, fun same => ?_, nofun⟩
    cases same
    exact apart (Option.some.inj about)
  | unsubscribe i => exact ⟨rfl, nofun, nofun⟩
  | read i | wake i | expire i =>
    exact ⟨rfl, nofun, fun same => apart (Option.some.inj (same.symm.trans about))⟩

theorem Inv.operate {place : Broadcast.Fanout UInt8 → Place} (inv : Inv maxBytes frame s)
    (there : s.conns[id]? = some c) (about : subject action = some id)
    (mine : ∀ f, Broadcast.step maxBytes s.fanout action = some f →
      ConnOk frame f s.pushed id { c with place := place f })
    (h : onFanout maxBytes s id c action place = some next) : Inv maxBytes frame next := by
  obtain ⟨f, taken, rfl⟩ := Option.map_eq_some_iff.mp h
  have kept : s.pushed ++ Broadcast.pushed action = s.pushed := by
    rw [(apart_of_subject about (Nat.succ_ne_self id)).1, List.append_nil]
  refine ⟨Broadcast.step_inv inv.fanout taken, inv.whole, ?_, ?_,
    inv.pump.extend there List.prefix_rfl rfl rfl, inv.ringWhole, inv.ring⟩
  · have subs := subs_step inv.fanout inv.whole inv.subs taken
    rwa [kept] at subs
  · intro i d found
    rcases eq_or_ne i id with rfl | other
    · have inside : i < s.conns.length := (List.getElem?_eq_some_iff.mp there).1
      have found : (s.conns.set i { c with place := place f })[i]? = some d := found
      rw [List.getElem?_set_self inside] at found
      cases found
      exact mine f taken
    · have found : (s.conns.set id { c with place := place f })[i]? = some d := found
      rw [List.getElem?_set_ne other.symm] at found
      obtain ⟨-, fresh, idle⟩ := apart_of_subject about other
      have ok := (inv.conns i d found).elsewhere inv.fanout inv.whole taken fresh idle
      rwa [kept] at ok

theorem afterRead_place (f : Broadcast.Fanout UInt8) (id : Nat) :
    afterRead f id ≠ .greet ∧ afterRead f id ≠ .subscribe := by
  rw [afterRead]
  split
  · exact ⟨nofun, nofun⟩
  · split
    · exact ⟨nofun, nofun⟩
    · split <;> exact ⟨nofun, nofun⟩

theorem read_ok (inv : Inv maxBytes frame s) (ok : ConnOk frame s.fanout s.pushed id c)
    (reads : Reads c.place) (none : left c.place = [])
    (reader : Broadcast.reader action = some id)
    (taken : Broadcast.step maxBytes s.fanout action = some f) :
    ConnOk frame f s.pushed id { c with place := afterRead f id } := by
  have quiet : Broadcast.pushed action = [] := by
    cases action with
    | push => nomatch reader
    | _ => rfl
  have later := Broadcast.step_inv inv.fanout taken
  have ok_carried := ok.carried
  have subs := subs_step inv.fanout inv.whole inv.subs taken
  rw [quiet, List.append_nil] at subs
  have linked : ∀ sub ∈ f.subs, sub.id = id →
      returned sub = body c ++ left (afterRead f id) := by
    rintro sub listed rfl
    have found : Broadcast.find f sub.id = some sub := by
      cases search : Broadcast.find f sub.id with
      | none => exact absurd (List.mem_map_of_mem listed) (Broadcast.find_none search)
      | some other =>
        obtain ⟨member, same⟩ := Broadcast.find_some search
        rw [Broadcast.eq_of_id later.frame member listed same]
    rcases Broadcast.step_origin inv.fanout taken sub listed with
      ⟨subscribed, -, -⟩ | ⟨-, -, -, -, -, idle⟩ | ⟨old, member, same, -, -, turn⟩
    · rw [subscribed] at reader
      nomatch reader
    · exact absurd reader idle
    · have before := ok.linked reads old member same.symm
      rw [none, List.append_nil] at before
      simp only [afterRead, found]
      rcases turn with ⟨waiting, results⟩ | ⟨idle, result, results⟩
      · rw [if_pos waiting, returned, results]
        exact before.trans (List.append_nil _).symm
      · rw [idle, results, List.getLast?_concat, returned, results, List.filterMap_append,
          List.flatten_append, ← before, returned]
        cases result with
        | none => rfl
        | some bytes =>
          cases bytes with
          | nil => rfl
          | cons b bytes => exact congrArg (_ ++ ·) (List.append_nil _)
  refine ⟨ok.front, ?_, ?_, ?_, ?_, fun _ => linked, ok.whole, ok.order⟩
  · intro same
    exact absurd same (afterRead_place f id).1
  · intro _ intact
    refine ok.greeted (fun same => ?_) intact
    rw [same] at reads
    exact reads
  · intro same
    exact absurd same (afterRead_place f id).2
  · change Stretch frame s.pushed (body c ++ left (afterRead f id))
    cases search : Broadcast.find f id with
    | none =>
      rw [afterRead, search]
      rw [none] at ok_carried
      exact ok_carried
    | some sub =>
      obtain ⟨listed, same⟩ := Broadcast.find_some search
      obtain ⟨before, split, aligned⟩ := subs sub listed
      rw [← linked sub listed same]
      obtain ⟨rest, sent⟩ := (later.ok sub listed).part
      refine ⟨before, Broadcast.copied sub ++ rest, ?_, aligned⟩
      rw [split, ← sent, List.append_assoc]

theorem subscribe_ok (inv : Inv maxBytes frame s) (ok : ConnOk frame s.fanout s.pushed id c)
    (place : c.place = .subscribe)
    (taken : Broadcast.step maxBytes s.fanout (.subscribe id) = some f) :
    ConnOk frame f s.pushed id { c with place := .read } := by
  have silent : body c = [] := ok.silent place
  have absent : Broadcast.find s.fanout id = none := by
    simp only [Broadcast.step] at taken
    split at taken
    · contradiction
    · rename_i absent
      exact Option.not_isSome_iff_eq_none.mp absent
  refine ⟨ok.front, by simp, fun _ => ok.greeted (by rw [place]; simp), by simp, ?_, fun _ => ?_,
    ok.whole, ok.order⟩
  · have carried := ok.carried
    rwa [place] at carried
  · rintro sub listed rfl
    change returned sub = body c ++ []
    rw [silent, returned]
    rcases Broadcast.step_origin inv.fanout taken sub listed with
      ⟨-, -, results⟩ | ⟨old, member, same, -⟩ | ⟨old, member, same, -⟩
    · rw [results]
      rfl
    · rw [same] at absent
      exact absurd (List.mem_map_of_mem member) (Broadcast.find_none absent)
    · rw [same] at absent
      exact absurd (List.mem_map_of_mem member) (Broadcast.find_none absent)

theorem ConnOk.rest {place : Place} (ok : ConnOk frame s.fanout s.pushed id c) (broken : Bool)
    (from_ : c.place ≠ .greet) (kept : broken = false → c.broken = false)
    (greet : place ≠ .greet) (subscribe : place ≠ .subscribe) (reads : ¬Reads place)
    (none : left place = []) :
    ConnOk frame f s.pushed id { c with place := place, broken := broken } where
  __ := ok
  start := fun same => absurd same greet
  greeted := fun _ intact => ok.greeted from_ (kept intact)
  silent := fun same => absurd same subscribe
  carried := by
    rw [none, List.append_nil]
    exact ok.carried.front
  linked := fun reading => absurd reading reads

theorem handle_inv {turn : Turn} (inv : Inv maxBytes frame s) (there : s.conns[id]? = some c)
    (h : handle maxBytes s id c turn = some next) : Inv maxBytes frame next := by
  have ok := inv.conns id c there
  cases turn with
  | greet n =>
    simp only [handle] at h
    split at h
    · rename_i place
      cases h
      have fresh : c.sent = [] := ok.start place
      have none : (greeting.take n).drop greeting.length = [] :=
        List.drop_eq_nil_of_le (List.length_take_le' _ _)
      refine inv.set there (by rw [fresh]; exact List.nil_prefix) rfl rfl
        ⟨?_, nofun, fun _ intact => ?_, fun _ => none, ?_, False.elim, ok.whole, ok.order⟩
      · exact (List.take_prefix _ _).trans (List.take_prefix _ _)
      · have intact : decide (n < greeting.length) = false := intact
        rw [decide_eq_false_iff_not] at intact
        change greeting.length ≤ (greeting.take n).length
        rw [List.length_take]
        omega
      · change Stretch frame s.pushed ((greeting.take n).drop greeting.length ++ [])
        rw [none]
        exact .nil
    · contradiction
  | subscribe =>
    simp only [handle] at h
    split at h
    · rename_i place
      exact inv.operate there rfl (fun f taken => subscribe_ok inv ok place taken) h
    · contradiction
  | read | wake | expire =>
    simp only [handle] at h
    split at h
    · rename_i place
      exact inv.operate there rfl
        (fun f taken => read_ok inv ok (by rw [place]; trivial) (by rw [place]; rfl) rfl taken) h
    · contradiction
  | send n =>
    simp only [handle] at h
    split at h
    · rename_i rest place
      split at h
      · contradiction
      · rename_i sendable
        rw [not_or, Bool.not_eq_true] at sendable
        cases h
        have whole : greeting.length ≤ c.sent.length :=
          ok.greeted (by rw [place]; nofun) sendable.1
        have after : left (if rest.drop n = [] then .read else .send (rest.drop n)) =
            rest.drop n := by
          split
          · rename_i none
            exact none.symm
          · rfl
        have same : (c.sent ++ rest.take n).drop greeting.length ++
            left (if rest.drop n = [] then .read else .send (rest.drop n)) =
              body c ++ left c.place := by
          rw [after, List.drop_append_of_le_length whole, List.append_assoc, List.take_append_drop,
            place]
          rfl
        refine inv.set there (List.prefix_append _ _) rfl rfl
          ⟨?_, ?_, fun _ _ => ?_, ?_, ?_, fun _ sub listed id => ?_, ok.whole, ok.order⟩
        · change (c.sent ++ rest.take n).take greeting.length <+: greeting
          rw [List.take_append_of_le_length whole]
          exact ok.front
        · intro place
          split at place <;> contradiction
        · exact whole.trans (List.prefix_append _ _).length_le
        · intro place
          split at place <;> contradiction
        · change Stretch frame s.pushed ((c.sent ++ rest.take n).drop greeting.length ++ left _)
          rw [same]
          exact ok.carried
        · change returned sub = (c.sent ++ rest.take n).drop greeting.length ++ left _
          rw [same]
          exact ok.linked (by rw [place]; trivial) sub listed id
    · contradiction
  | fail =>
    simp only [handle] at h
    split at h
    · rename_i rest place
      cases h
      refine inv.set there List.prefix_rfl rfl rfl
        (ok.rest true (by rw [place]; nofun) nofun nofun nofun False.elim rfl)
    · contradiction
  | probe closed =>
    simp only [handle] at h
    split at h
    · rename_i place
      cases h
      have greeted : c.place ≠ .greet := by
        rw [place]
        nofun
      have rest : left c.place = [] := by
        rw [place]
        rfl
      cases closed with
      | true =>
        exact inv.set there List.prefix_rfl rfl rfl
          (ok.rest c.broken greeted (fun intact => intact) nofun nofun False.elim rfl)
      | false =>
        have carried := ok.carried
        have linked := ok.linked (by rw [place]; trivial)
        rw [rest] at carried linked
        exact inv.set there List.prefix_rfl rfl rfl
          ⟨ok.front, nofun, fun _ => ok.greeted greeted, nofun, carried, fun _ => linked, ok.whole,
            ok.order⟩
    · contradiction
  | unsubscribe =>
    simp only [handle] at h
    split at h
    · rename_i place
      refine inv.operate there rfl (fun f taken => ?_) h
      exact ok.rest c.broken (by rw [place]; nofun) (fun intact => intact) nofun nofun False.elim
        rfl
    · contradiction

theorem Inv.pushes {data : List UInt8} {allocated : Bool} (inv : Inv maxBytes frame s)
    (whole : frame ∣ data.length)
    (taken : Broadcast.step maxBytes s.fanout (.push data allocated) = some f) :
    Inv maxBytes frame { s with fanout := f, pushed := s.pushed ++ data } where
  fanout := Broadcast.step_inv inv.fanout taken
  whole := by
    change frame ∣ (s.pushed ++ data).length
    rw [List.length_append]
    exact Nat.dvd_add inv.whole whole
  subs := subs_step inv.fanout inv.whole inv.subs taken
  conns := fun id c found => (inv.conns id c found).elsewhere inv.fanout inv.whole taken nofun nofun
  __ := inv
  ring := fun unit listed => (Layout.units_sublist inv.whole data).subset (inv.ring unit listed)

theorem ConnOk.client (ok : ConnOk frame f pushed id c) (received : Nat) {committed : List UInt8}
    (whole : frame ∣ committed.length)
    (order : (units frame committed).Sublist (units frame pushed)) :
    ConnOk frame f pushed id { c with received := received, committed := committed } where
  __ := ok
  whole := whole
  order := order

theorem dvd_taken (frame : Nat) (inbuf : List UInt8) :
    frame ∣ (inbuf.take (inbuf.length / frame * frame)).length := by
  rw [List.length_take, Nat.min_eq_left (Nat.div_mul_le_self _ _)]
  exact Nat.dvd_mul_left _ _

theorem frame_le (frame : Nat) {inbuf : List UInt8} (some : inbuf.length / frame * frame ≠ 0) :
    frame ≤ inbuf.length := by
  by_contra large
  rw [Nat.div_eq_of_lt (Nat.lt_of_not_le large), Nat.zero_mul] at some
  exact some rfl

theorem ConnOk.stretch {used inbuf : List UInt8} (ok : ConnOk frame f pushed id c)
    (come : greeting ++ used ++ inbuf <+: c.sent) : Stretch frame pushed (used ++ inbuf) := by
  refine ok.carried.front.prefix_of ?_
  obtain ⟨more, sent⟩ := come
  refine ⟨more, ?_⟩
  rw [body, ← sent]
  simp only [List.append_assoc, List.drop_left]

/-- The whole frames of `inbuf` follow those used before. -/
theorem commit_inv {used inbuf : List UInt8} {room : Bool} {received : Nat}
    (inv : Inv maxBytes frame s) (there : s.conns[id]? = some c)
    (come : greeting ++ used ++ inbuf <+: c.sent)
    (count : received = (greeting ++ used ++ inbuf).length) (small : inbuf.length ≤ inbufSize)
    (full : inbuf.length / frame * frame ≠ 0)
    (order : frame ≤ inbufSize →
      frame ∣ used.length ∧ (units frame c.committed).Sublist (units frame used)) :
    Inv maxBytes frame (commit frame s id { c with received := received } inbuf room) := by
  have ok := inv.conns id c there
  have inside : id < s.conns.length := (List.getElem?_eq_some_iff.mp there).1
  have fits : frame ≤ inbufSize := (frame_le frame full).trans small
  obtain ⟨whole, before⟩ := order fits
  let aligned := inbuf.length / frame * frame
  have takenWhole : frame ∣ (inbuf.take aligned).length := dvd_taken frame inbuf
  have usedWhole : frame ∣ (used ++ inbuf.take aligned).length := by
    rw [List.length_append]
    exact Nat.dvd_add whole takenWhole
  have stretch : Stretch frame s.pushed (used ++ inbuf.take aligned) :=
    (ok.stretch come).prefix_of ((List.prefix_append_right_inj _).mpr (List.take_prefix _ _))
  have taken := (stretch.later whole).units_sublist takenWhole
  let frames := if room then inbuf.take aligned else []
  have framesWhole : frame ∣ frames.length := by
    dsimp only [frames]
    split
    · exact takenWhole
    · exact Nat.dvd_zero _
  have framesSub : (units frame frames).Sublist (units frame (inbuf.take aligned)) := by
    dsimp only [frames]
    split
    · exact List.Sublist.refl _
    · rw [Layout.units_nil]
      exact List.nil_sublist _
  have committed : frame ∣ (c.committed ++ frames).length ∧
      (units frame (c.committed ++ frames)).Sublist (units frame (used ++ inbuf.take aligned)) := by
    rw [List.length_append, Layout.units_append ok.whole, Layout.units_append whole]
    exact ⟨Nat.dvd_add ok.whole framesWhole, before.append framesSub⟩
  refine ⟨inv.fanout, inv.whole, inv.subs, ?_, ?_, ?_, ?_⟩
  · exact conns_set inv.conns (ok.client received committed.1
      (committed.2.trans (stretch.units_sublist usedWhole)))
  · have regroup : greeting ++ (used ++ inbuf.take aligned) ++ inbuf.drop aligned =
        greeting ++ used ++ inbuf := by
      rw [← List.append_assoc, List.append_assoc (greeting ++ used), List.take_append_drop]
    refine ⟨_, used ++ inbuf.take aligned, List.getElem?_set_self inside, ?_, ?_, ?_,
      fun _ => ⟨usedWhole, committed.2⟩, fun large => absurd fits (Nat.not_le_of_lt large)⟩
    · rw [regroup]
      exact come
    · rw [regroup]
      exact count
    · rw [List.length_drop]
      omega
  · change frame ∣ (s.ring ++ frames).length
    rw [List.length_append]
    exact Nat.dvd_add inv.ringWhole framesWhole
  · intro unit listed
    have listed : unit ∈ units frame (s.ring ++ frames) := listed
    rw [Layout.units_append inv.ringWhole, List.mem_append] at listed
    rcases listed with old | new
    · exact inv.ring unit old
    · exact taken.subset (framesSub.subset new)

theorem come_more {sent held : List UInt8} (come : held <+: sent) (n : Nat) :
    held ++ (sent.drop held.length).take n <+: sent := by
  obtain ⟨rest, rfl⟩ := come
  rw [List.drop_left]
  exact (List.prefix_append_right_inj _).mpr (List.take_prefix _ _)

theorem Inv.hold (inv : Inv maxBytes frame s) (there : s.conns[id]? = some c) (received : Nat)
    {pump : Pump} (ok : PumpOk frame (s.conns.set id { c with received := received }) pump) :
    Inv maxBytes frame { setConn s id { c with received := received } with pump := pump } where
  __ := inv
  conns := by
    have ok := inv.conns id c there
    exact conns_set inv.conns (ok.client received ok.whole ok.order)
  pump := ok

theorem receive_inv {n : Nat} {room : Bool} (inv : Inv maxBytes frame s)
    (h : receive frame s n room = some next) : Inv maxBytes frame next := by
  have pumped := inv.pump
  cases place : s.pump with
  | apart =>
    rw [receive, place] at h
    contradiction
  | headers id hbuf =>
    rw [place] at pumped
    obtain ⟨c, there, come, count, none⟩ := pumped
    have inside : id < s.conns.length := (List.getElem?_eq_some_iff.mp there).1
    simp only [receive, place, there, Option.bind_some, count] at h
    have more := come_more come (min n (hbufSize - 1 - hbuf.length))
    generalize piece : (c.sent.drop hbuf.length).take (min n (hbufSize - 1 - hbuf.length)) =
      bytes at h more
    split at h
    · contradiction
    · rename_i some
      split at h
      · cases h
        exact inv.hold there _
          ⟨_, List.getElem?_set_self inside, more, (List.length_append).symm, none⟩
      · rename_i offset found
        cases h
        obtain ⟨rfl, split⟩ := bodyOffset_of_prefix (inv.conns id c there).front more found
        have short : (hbuf ++ bytes).length ≤ inbufSize := by
          have positive := List.length_pos_of_ne_nil some
          rw [← piece, List.length_take] at positive
          rw [← piece, List.length_append, List.length_take]
          rw [hbufSize] at positive ⊢
          rw [inbufSize]
          omega
        have carry : ((hbuf ++ bytes).drop greeting.length).take inbufSize =
            (hbuf ++ bytes).drop greeting.length := by
          refine List.take_of_length_le ?_
          rw [List.length_drop]
          omega
        refine inv.hold there _ ⟨_, [], List.getElem?_set_self inside, ?_, ?_, ?_,
          fun _ => ⟨Nat.dvd_zero _, ?_⟩, fun _ => none⟩
        · rw [carry, List.append_nil, ← split]
          exact more
        · rw [carry, List.append_nil, ← split]
          exact List.length_append.symm
        · exact List.length_take_le _ _
        · have none : c.committed = [] := none
          change (units frame c.committed).Sublist _
          rw [none]
  | body id inbuf =>
    rw [place] at pumped
    obtain ⟨c, used, there, come, count, small, order, large⟩ := pumped
    have inside : id < s.conns.length := (List.getElem?_eq_some_iff.mp there).1
    simp only [receive, place, there, Option.bind_some, count] at h
    have more := come_more come (min n (inbufSize - inbuf.length))
    generalize piece : (c.sent.drop (greeting ++ used ++ inbuf).length).take
      (min n (inbufSize - inbuf.length)) = bytes at h more
    have fits : (inbuf ++ bytes).length ≤ inbufSize := by
      rw [← piece, List.length_append, List.length_take]
      omega
    rw [List.append_assoc _ inbuf] at more
    have total : (greeting ++ used ++ inbuf).length + bytes.length =
        (greeting ++ used ++ (inbuf ++ bytes)).length := by
      simp only [List.length_append, Nat.add_assoc]
    split at h
    · contradiction
    · split at h
      · cases h
        exact inv.hold there _
          ⟨_, used, List.getElem?_set_self inside, more, total, fits, order, large⟩
      · rename_i full
        cases h
        exact commit_inv inv there more total fits full order

theorem flush_inv {room : Bool} (positive : 0 < frame) (inv : Inv maxBytes frame s)
    (h : flush frame s room = some next) : Inv maxBytes frame next := by
  have pumped := inv.pump
  cases place : s.pump with
  | apart | headers =>
    rw [flush, place] at h
    contradiction
  | body id inbuf =>
    rw [place] at pumped
    obtain ⟨c, used, there, come, count, small, order, large⟩ := pumped
    simp only [flush, place, there, Option.bind_some] at h
    split at h
    · contradiction
    · rename_i filled
      split at h
      · rename_i none
        cases h
        have large' : inbufSize < frame := by
          by_contra fits
          have one : 1 ≤ inbuf.length / frame := (Nat.one_le_div_iff positive).mpr (by omega)
          have := Nat.mul_pos one positive
          omega
        have regroup : greeting ++ (used ++ inbuf) ++ [] = greeting ++ used ++ inbuf := by
          rw [List.append_nil, List.append_assoc]
        refine ⟨inv.fanout, inv.whole, inv.subs, inv.conns, ?_, inv.ringWhole, inv.ring⟩
        refine ⟨c, used ++ inbuf, there, ?_, ?_, Nat.zero_le _,
          fun fits => absurd fits (Nat.not_le_of_lt large'), large⟩
        · rw [regroup]
          exact come
        · rw [regroup]
          exact count
      · rename_i full
        cases h
        exact commit_inv inv there come count small full order

theorem accept_inv (inv : Inv maxBytes frame s) :
    Inv maxBytes frame { s with conns := s.conns ++ [accepted] } where
  __ := inv
  conns := conns_accept inv.conns
  pump := inv.pump.accept accepted

theorem step_inv {action : Action} (positive : 0 < frame) (inv : Inv maxBytes frame s)
    (h : step maxBytes frame s action = some next) : Inv maxBytes frame next := by
  cases action with
  | push data allocated =>
    simp only [step] at h
    split at h
    · rename_i whole
      obtain ⟨f, taken, rfl⟩ := Option.map_eq_some_iff.mp h
      exact inv.pushes (Nat.dvd_of_mod_eq_zero whole) taken
    · contradiction
  | shutdown =>
    rw [step] at h
    obtain ⟨f, taken, rfl⟩ := Option.map_eq_some_iff.mp h
    have subs := subs_step inv.fanout inv.whole inv.subs taken
    have conns := fun id c found =>
      (inv.conns id c found).elsewhere inv.fanout inv.whole taken nofun nofun
    have quiet : Broadcast.pushed (.shutdown : Broadcast.Action UInt8) = [] := rfl
    rw [quiet, List.append_nil] at subs conns
    exact ⟨Broadcast.step_inv inv.fanout taken, inv.whole, subs, conns, inv.pump, inv.ringWhole,
      inv.ring⟩
  | accept =>
    cases h
    exact accept_inv inv
  | handler id turn =>
    obtain ⟨c, there, taken⟩ := Option.bind_eq_some_iff.mp h
    exact handle_inv inv there taken
  | connect =>
    simp only [step] at h
    split at h
    · cases h
      have kept := accept_inv inv
      refine ⟨kept.fanout, kept.whole, kept.subs, kept.conns, ?_, kept.ringWhole, kept.ring⟩
      exact ⟨accepted, List.getElem?_concat_length, List.nil_prefix, rfl, rfl⟩
    · contradiction
  | receive n room => exact receive_inv inv h
  | flush room => exact flush_inv positive inv h
  | leave =>
    cases h
    exact ⟨inv.fanout, inv.whole, inv.subs, inv.conns, trivial, inv.ringWhole, inv.ring⟩

/-- What the client commits is whole frames of the pushed stream, and those of each
connection are in order. -/
structure Aligned (frame : Nat) (s : System) : Prop where
  frames : frame ∣ s.ring.length ∧ ∀ unit ∈ units frame s.ring, unit ∈ units frame s.pushed
  order : ∀ c ∈ s.conns,
    frame ∣ c.committed.length ∧ (units frame c.committed).Sublist (units frame s.pushed)

theorem frameBytes_pos (configured : Int) : 0 < frameBytes configured := by
  rw [frameBytes]
  split <;> omega

theorem ingest_aligned (configured : Int) (maxBytes : Nat) (schedule : List Action) (last : System)
    (h : Machine.run (step maxBytes (frameBytes configured)) init schedule = some last) :
    Aligned (frameBytes configured) last := by
  have inv : Inv maxBytes (frameBytes configured) last :=
    Machine.run_invariant (Inv maxBytes (frameBytes configured))
      (fun _ _ _ inv taken => step_inv (frameBytes_pos configured) inv taken) init_inv h
  refine ⟨⟨inv.ringWhole, inv.ring⟩, fun c listed => ?_⟩
  obtain ⟨id, there⟩ := List.mem_iff_getElem?.mp listed
  exact ⟨(inv.conns id c there).whole, (inv.conns id c there).order⟩

/-- The second of two connections; its bytes are cut within frames, the ring is full once,
and the client connects again. -/
theorem ingest_aligned_again :
    Aligned 4 ⟨⟨[], 2, [⟨1, none, 0, false, none,
        [some [1, 2, 3, 4, 5], some [6, 7, 8, 9, 10, 11, 12]],
        [1, 2, 3, 4, 5, 6, 7, 8, 9, 10, 11, 12]⟩], 1, 0, false⟩,
      [1, 2, 3, 4, 5, 6, 7, 8, 9, 10, 11, 12],
      [accepted, ⟨.unsubscribe, true, greeting ++ [1, 2, 3, 4, 5, 6, 7, 8, 9, 10, 11], 70,
        [1, 2, 3, 4]⟩, accepted],
      .headers 2 [], [1, 2, 3, 4]⟩ :=
  ingest_aligned 0 100 [.accept, .connect, .handler 1 (.greet 100), .handler 1 .subscribe,
    .push [1, 2, 3, 4, 5, 6, 7, 8] true, .handler 1 (.read 5 false), .handler 1 (.send 5),
    .receive 62 true, .push [9, 10, 11, 12] true, .handler 1 (.read 9 false), .handler 1 (.send 6),
    .receive 3 true, .receive 9 false, .leave, .handler 1 .fail, .connect] _ (by decide +kernel)

end MisrcGui.Net.Ingest
