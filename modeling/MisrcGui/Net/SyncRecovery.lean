import MisrcGui.Net.SettingsSync

/-! When the settings synchronisation recovers: an invariant of every uncontested run. -/
namespace MisrcGui.Net.SyncRecovery
open Library MonitorSettings SettingsSync
open MonitorMirror hiding Action step
open Library.Percent (ascii escape unreserved not_mem_escape)

variable {i : Field} {text value : Text} {s : Settings} {state next : State} {action : Action}

theorem admits_iff : admits i text ↔
    clean text ∧ ∃ v, set i text = some v ∧ print (desc i).kind v = text := by
  rw [admits, Bool.and_eq_true]
  refine and_congr_right fun _ => ?_
  cases set i text with
  | none => simp
  | some v => simp

theorem admits_tame (admitted : admits i text) : tame i text := by
  obtain ⟨neat, v, stored, same⟩ := admits_iff.mp admitted
  rw [tame, neat, stored, Bool.true_and]
  dsimp only
  rw [same]
  exact admitted

theorem length_textOf (s : Settings) (i : Field) : (textOf s i).length < valueCap :=
  lt_of_le_of_lt (length_print _ (s i)) (room_lt i)

theorem length_admits (admitted : admits i text) : text.length < valueCap := by
  obtain ⟨-, v, -, rfl⟩ := admits_iff.mp admitted
  exact lt_of_le_of_lt (length_print _ v) (room_lt i)

theorem urlDecode_clean {cap : Nat} (neat : clean text) (short : text.length < cap) :
    urlDecode cap (escape unreserved text) = some text := by
  rw [urlDecode_escape]
  exact if_pos ⟨neat, short⟩

/-! The request of the client. -/

theorem setQuery_eq (i : Field) (short : value.length < valueCap) :
    setQuery (key i) value = some (ascii "key=" ++ escape unreserved (key i) ++
      ampersand :: (ascii "value=" ++ escape unreserved value)) := by
  have name : urlEncode (keyCap * 3 + 1) [] (key i) = some (escape unreserved (key i)) := by
    have room := (key_clean i).2
    exact urlEncode_eq (by rw [List.length_nil]; unfold keyCap at *; omega)
  have content : urlEncode encodedCap [] value = some (escape unreserved value) :=
    urlEncode_eq (by rw [List.length_nil, encodedCap]; omega)
  rw [setQuery, name, content]
  rfl

theorem splitOn_query (i : Field) (value : Text) :
    (ascii "key=" ++ escape unreserved (key i) ++
      ampersand :: (ascii "value=" ++ escape unreserved value)).splitOn ampersand =
      [ascii "key=" ++ escape unreserved (key i), ascii "value=" ++ escape unreserved value] := by
  have reserved (text : Text) : ampersand ∉ escape unreserved text :=
    not_mem_escape rfl (by decide) (by decide) text
  have first : ampersand ∉ ascii "key=" ++ escape unreserved (key i) := by
    intro listed
    rcases List.mem_append.mp listed with name | content
    · exact absurd name (by decide)
    · exact reserved _ content
  have second : ampersand ∉ ascii "value=" ++ escape unreserved value := by
    intro listed
    rcases List.mem_append.mp listed with name | content
    · exact absurd name (by decide)
    · exact reserved _ content
  rw [List.splitOn_append_cons_self, List.splitOn_eq_singleton first,
    List.splitOn_eq_singleton second]
  rfl

theorem queryNamed_key (i : Field) (value : Text) :
    queryNamed keyCap (ascii "key=" ++ escape unreserved (key i) ++
      ampersand :: (ascii "value=" ++ escape unreserved value)) (ascii "key") = some (key i) := by
  rw [queryNamed, splitOn_query, List.find?_cons_of_pos]
  · exact urlDecode_clean (key_clean i).1 (key_clean i).2
  · rw [List.isPrefixOf_iff_prefix]
    exact List.prefix_append _ _

theorem queryNamed_value (i : Field) (neat : clean value) (short : value.length < valueCap) :
    queryNamed valueCap (ascii "key=" ++ escape unreserved (key i) ++
      ampersand :: (ascii "value=" ++ escape unreserved value)) (ascii "value") = some value := by
  rw [queryNamed, splitOn_query, List.find?_cons_of_neg, List.find?_cons_of_pos]
  · exact urlDecode_clean neat short
  · rw [List.isPrefixOf_iff_prefix]
    exact List.prefix_append _ _
  · exact Bool.false_ne_true

variable {server : Server} {v : (desc i).kind.Value} {mirror : Mirror}

theorem handleSet_accepts (listed : i ∈ synced) (admitted : admits i value)
    (empty : server.pending = none) (stopped : server.recording = false) :
    handleSet server ((setQuery (key i) value).getD []) =
      ({ server with pending := some (key i, value) }, true) := by
  obtain ⟨neat, v, stored, -⟩ := admits_iff.mp admitted
  rw [setQuery_eq i (length_admits admitted), Option.getD_some, handleSet, queryNamed_key,
    queryNamed_value i neat (length_admits admitted)]
  dsimp only
  rw [find_key]
  dsimp only
  rw [stored, not_localAudio listed, stopped, empty]
  rfl

theorem handleSet_cases (server : Server) (query : Text) :
    handleSet server query = (server, false) ∨ server.pending = none ∧ server.recording = false ∧
      ∃ update, handleSet server query = ({ server with pending := some update }, true) := by
  rw [handleSet]
  split
  · split
    · exact .inl rfl
    · split
      · exact .inl rfl
      · rename_i unblocked
        split
        · exact .inl rfl
        · rename_i free
          simp only [Bool.or_eq_true, not_or, Bool.not_eq_true] at unblocked
          exact .inr ⟨by simpa using free, unblocked.2, _, rfl⟩
  · exact .inl rfl

theorem handleSet_own (listed : i ∈ synced) (admitted : admits i value) :
    handleSet server ((setQuery (key i) value).getD []) = (server, false) ∨
      server.pending = none ∧ server.recording = false ∧
        handleSet server ((setQuery (key i) value).getD []) =
          ({ server with pending := some (key i, value) }, true) := by
  rcases handleSet_cases server ((setQuery (key i) value).getD []) with same | ⟨empty, stopped, -⟩
  · exact .inl same
  · exact .inr ⟨empty, stopped, handleSet_accepts listed admitted empty stopped⟩

/-! The server applies and publishes. -/

theorem store_admits (admitted : admits i value) :
    ∃ v, print (desc i).kind v = value ∧ store s (key i) value = Function.update s i v := by
  obtain ⟨-, v, stored, same⟩ := admits_iff.mp admitted
  refine ⟨v, same, ?_⟩
  rw [store, find_key]
  dsimp only
  rw [stored]

theorem textOf_update_self : textOf (Function.update s i v) i = print (desc i).kind v := by
  rw [textOf, Function.update_self]

theorem textOf_update_of_ne {j : Field} (other : j ≠ i) :
    textOf (Function.update s i v) j = textOf s j := by
  rw [textOf, Function.update_of_ne other]
  rfl

theorem applyUpdate_eq (server : Server) (update : Option (Text × Text)) :
    applyUpdate server update =
      ⟨updated server update, wire (updated server update), server.pending, server.recording⟩ := by
  rw [applyUpdate, pack_eq]
  rfl

theorem echoed_wire (listed : i ∈ synced) (sent : Bool) (same : textOf s i = value) :
    echoed ⟨key i, value, sent⟩ (wire s) := by
  have short : value.length < valueCap := same ▸ length_textOf s i
  have encoded : urlEncode encodedCap [] value = some (escape unreserved value) :=
    urlEncode_eq (by rw [List.length_nil, encodedCap]; omega)
  rw [echoed, encoded]
  refine decide_eq_true ?_
  have line : line s i = key i ++ equals :: escape unreserved value ++ [newline] := by
    rw [line, ← same]
    rfl
  rw [← line, wire]
  obtain ⟨before, after, split⟩ := List.append_of_mem listed
  rw [split, List.flatMap_append, List.flatMap_cons]
  exact ⟨_, _, List.append_assoc _ _ _⟩

/-! The invariant of uncontested runs. -/

def Published (snapshot : Text) : Prop :=
  ∃ s, snapshot = wire s ∧ ∀ i ∈ synced, tame i (textOf s i)

def Shown (server : Server) (i : Field) (value : Text) : Prop :=
  textOf server.settings i = value ∧ ∃ s, server.snapshot = wire s ∧ textOf s i = value

def Carried (state : State) : Prop :=
  ∀ name value, outstanding state = some (name, value) →
    state.server.pending = some (name, value) ∨
      (state.main = .polling (some (name, value)) ∧ state.server.recording = false) ∨
        ∃ i ∈ synced, name = key i ∧ Shown state.server i value

structure Inv (state : State) : Prop where
  own : ∀ i ∈ synced, admits i (mirrorText state.client.mirror i)
  held : ∀ i ∈ synced, tame i (textOf state.server.settings i)
  snapshot : Published state.server.snapshot
  received : ∀ text ∈ state.client.received, Published text
  fetched : ∀ text, state.worker = .fetched text → Published text
  mailbox : tameUpdate state.server.pending
  taken : ∀ update, state.main = .polling update → tameUpdate update
  asked : ∀ name value, state.worker = .requesting name value →
    state.client.send = some ⟨name, value, false⟩
  answered : ∀ name value ok, state.worker = .answered name value ok →
    state.client.send = some ⟨name, value, false⟩
  sending : ∀ request ∈ state.client.send, state.client.initialized ∧
    ∃ i ∈ synced, request.key = key i ∧ admits i request.value
  carried : Carried state

theorem initial_inv (mirror : Mirror) (s : Settings) (recording : Bool)
    (own : ∀ i ∈ synced, admits i (mirrorText mirror i))
    (held : ∀ i ∈ synced, tame i (textOf s i)) : Inv (initial mirror s recording) where
  own := own
  held := held
  snapshot := ⟨s, by rw [initial, pack_eq]; rfl, held⟩
  received := nofun
  fetched := nofun
  mailbox := rfl
  taken := nofun
  asked := nofun
  answered := nofun
  sending := nofun
  carried := nofun

/-! What the client's main thread does to the mirror. -/

theorem adopt_admits {first : Bool} {slot : Slot i}
    (own : admits i (print (desc i).kind slot.value)) (held : tame i (textOf s i)) :
    admits i (print (desc i).kind (adopt first s i slot).value) := by
  rw [tame, Bool.and_eq_true] at held
  rw [adopt]
  split
  · exact own
  · rename_i decoded read
    have same : decoded = textOf s i := by
      rw [← textOf, urlDecode_clean held.1 (length_textOf s i)] at read
      exact (Option.some.inj read).symm
    rw [adoptField_eq, same]
    dsimp only
    split
    · have safe := held.2
      cases stored : set i (textOf s i) with
      | none => exact own
      | some v =>
        rw [stored] at safe
        exact safe
    · exact own

/-- After a snapshot the text recorded is the server's, and a field that agrees with
it stays as it is. -/
theorem adopt_tame (first : Bool) (slot : Slot i)
    (held : tame i (textOf s i)) :
    (adopt first s i slot).last = textOf s i ∧
      (admits i (textOf s i) → print (desc i).kind slot.value = textOf s i →
        print (desc i).kind (adopt first s i slot).value = textOf s i) := by
  rw [tame, Bool.and_eq_true] at held
  rw [adopt, ← textOf, urlDecode_clean held.1 (length_textOf s i)]
  dsimp only
  rw [adoptField_eq]
  refine ⟨rfl, fun admitted same => ?_⟩
  obtain ⟨-, v, stored, prints⟩ := admits_iff.mp admitted
  dsimp only
  split
  · rw [stored]
    exact prints
  · exact same

theorem queueEdit_mirror (client : Client) (j : Field) :
    mirrorText (queueEdit client).mirror j = mirrorText client.mirror j := by
  rw [queueEdit]
  split
  · rfl
  · rename_i i found
    rw [mirrorText]
    dsimp only
    by_cases same : j = i
    · subst same
      rw [Function.update_self]
      rfl
    · rw [Function.update_of_ne same]
      rfl

theorem receive_spec (client : Client) :
    receive client = client ∨ ∃ snapshot, client.received = some snapshot ∧ client.send = none ∧
      receive client =
        ⟨applySnapshot (!client.initialized) client.mirror snapshot, true, none, none⟩ := by
  cases box : client.received with
  | none =>
    left
    rw [receive, box]
  | some snapshot =>
    cases busy : client.send with
    | some request =>
      left
      simp only [receive, box, busy]
    | none => exact .inr ⟨snapshot, rfl, rfl, receive_some box busy⟩

theorem queueEdit_cases (client : Client) :
    (queueEdit client = client ∧ ∀ i ∈ synced, ¬edited client.mirror i) ∨
      ∃ i ∈ synced, edited client.mirror i ∧ queueEdit client = ⟨Function.update client.mirror i
          { client.mirror i with last := mirrorText client.mirror i },
        client.initialized, client.received, some ⟨key i, mirrorText client.mirror i, false⟩⟩ := by
  cases found : synced.find? (edited client.mirror) with
  | none =>
    left
    rw [queueEdit, found]
    exact ⟨rfl, List.find?_eq_none.mp found⟩
  | some i =>
    right
    refine ⟨i, List.mem_of_find?_eq_some found, List.find?_some found, ?_⟩
    rw [queueEdit, found]
    dsimp only
    rw [own_eq]
    rfl

/-- What `gui_monitor_client_sync_main` does, in two steps. -/
theorem syncMain_cases (connected : Bool) (client : Client) :
    syncMain connected client = receive client ∨
      ((receive client).initialized ∧ (receive client).send = none ∧
        syncMain connected client = queueEdit (receive client)) := by
  rw [syncMain]
  split
  · exact .inl rfl
  · rename_i active
    split
    · exact .inl rfl
    · rename_i empty
      simp only [Bool.or_eq_true, Bool.not_eq_true', not_or, Bool.not_eq_false] at active
      exact .inr ⟨active.1, by simpa using empty, rfl⟩

theorem applySnapshot_own {first : Bool} {snapshot : Text} (published : Published snapshot)
    (own : ∀ i ∈ synced, admits i (mirrorText mirror i)) :
    ∀ i ∈ synced, admits i (mirrorText (applySnapshot first mirror snapshot) i) := by
  obtain ⟨s, rfl, held⟩ := published
  intro i listed
  rw [mirrorText, applySnapshot_wire]
  dsimp only
  rw [if_pos listed]
  exact adopt_admits (own i listed) (held i listed)

structure Sound (client : Client) : Prop where
  own : ∀ i ∈ synced, admits i (mirrorText client.mirror i)
  received : ∀ text ∈ client.received, Published text
  sending : ∀ request ∈ client.send, client.initialized ∧
    ∃ i ∈ synced, request.key = key i ∧ admits i request.value

theorem receive_sound {client : Client} (sound : Sound client) : Sound (receive client) := by
  rcases receive_spec client with same | ⟨snapshot, box, -, taken⟩
  · rw [same]
    exact sound
  · rw [taken]
    exact ⟨applySnapshot_own (sound.received snapshot box) sound.own, nofun, nofun⟩

theorem queueEdit_sound {client : Client} (started : client.initialized) (sound : Sound client) :
    Sound (queueEdit client) := by
  rcases queueEdit_cases client with ⟨same, -⟩ | ⟨i, listed, -, queued⟩
  · rw [same]
    exact sound
  · refine ⟨fun j member => ?_, ?_, ?_⟩
    · rw [queueEdit_mirror]
      exact sound.own j member
    · rw [queued]
      exact sound.received
    · rw [queued]
      intro request same
      obtain rfl := Option.some.inj same
      exact ⟨started, i, listed, rfl, sound.own i listed⟩

theorem syncMain_send (connected : Bool) (client : Client) :
    (client.send ≠ none → syncMain connected client = client) ∧
      (client.send = none →
        ∀ request ∈ (syncMain connected client).send, request.sent = false) := by
  have alone : client.send ≠ none → receive client = client := by
    intro busy
    rcases receive_spec client with same | ⟨-, -, empty, -⟩
    · exact same
    · exact absurd empty busy
  have still : client.send = none → (receive client).send = none := by
    intro empty
    rcases receive_spec client with same | ⟨_, -, -, taken⟩
    · rw [same]
      exact empty
    · rw [taken]
  rcases syncMain_cases connected client with same | ⟨started, empty, queued⟩
  · rw [same]
    refine ⟨alone, fun empty => ?_⟩
    rw [still empty]
    exact nofun
  · refine ⟨fun busy => absurd ?_ busy, fun _ => ?_⟩
    · rw [alone busy] at empty
      exact empty
    · rw [queued]
      rcases queueEdit_cases (receive client) with ⟨same, -⟩ | ⟨i, -, -, edit⟩
      · rw [same, empty]
        exact nofun
      · rw [edit]
        intro request member
        obtain rfl := Option.some.inj member
        rfl

theorem syncMain_sound {client : Client} (connected : Bool) (sound : Sound client) :
    Sound (syncMain connected client) := by
  have received := receive_sound sound
  rcases syncMain_cases connected client with same | ⟨started, -, queued⟩
  · rw [same]
    exact received
  · rw [queued]
    exact queueEdit_sound started received

/-! The steps. -/

theorem Inv.sound (inv : Inv state) : Sound state.client := ⟨inv.own, inv.received, inv.sending⟩

theorem Inv.clientSide (inv : Inv state) (sound : Sound next.client)
    (server : next.server = state.server) (main : next.main = state.main)
    (fetched : ∀ text, next.worker = .fetched text → Published text)
    (asked : ∀ name value, next.worker = .requesting name value →
      next.client.send = some ⟨name, value, false⟩)
    (answered : ∀ name value ok, next.worker = .answered name value ok →
      next.client.send = some ⟨name, value, false⟩)
    (waiting : ∀ update ∈ outstanding next, update ∈ outstanding state) : Inv next where
  __ := sound
  held := by rw [server]; exact inv.held
  snapshot := by rw [server]; exact inv.snapshot
  fetched := fetched
  mailbox := by rw [server]; exact inv.mailbox
  taken := by rw [main]; exact inv.taken
  asked := asked
  answered := answered
  carried := by
    intro name value same
    rw [server, main]
    exact inv.carried name value (waiting _ same)

/-- What is outstanding depends on the update and on whether it has just been
accepted. -/
theorem outstanding_some {update : Text × Text} :
    outstanding state = some update ↔ ∃ sent, state.client.send = some ⟨update.1, update.2, sent⟩ ∧
      (sent = true ∨ state.worker = .answered update.1 update.2 true) := by
  rw [outstanding]
  cases state.client.send with
  | none => simp
  | some request =>
    obtain ⟨name, value, sent⟩ := request
    simp only [Bool.or_eq_true, decide_eq_true_eq, Option.some.injEq, Request.mk.injEq]
    constructor
    · intro same
      split at same
      · rename_i either
        obtain rfl := Option.some.inj same
        exact ⟨sent, ⟨rfl, rfl, rfl⟩, either⟩
      · contradiction
    · rintro ⟨_, ⟨rfl, rfl, rfl⟩, either⟩
      rw [if_pos either]

/-- The worker's last section clears the update and hands the snapshot on, or leaves
the update waiting. -/
theorem storeResponse_cases (client : Client) (response : Text) :
    (storeResponse client response).mirror = client.mirror ∧
      (storeResponse client response).initialized = client.initialized ∧
        (((storeResponse client response).send = none ∧
            (storeResponse client response).received = some response) ∨
          (storeResponse client response = client ∧ client.send ≠ none)) := by
  rw [storeResponse]
  cases box : client.send with
  | none => exact ⟨rfl, rfl, .inl ⟨rfl, rfl⟩⟩
  | some request =>
    dsimp only
    split
    · exact ⟨rfl, rfl, .inl ⟨rfl, rfl⟩⟩
    · exact ⟨rfl, rfl, .inr ⟨rfl, nofun⟩⟩

theorem outstanding_worker (worker : Worker)
    (other : ∀ name value, worker ≠ .answered name value true) :
    ∀ update ∈ outstanding { state with worker := worker }, update ∈ outstanding state := by
  intro update same
  obtain ⟨sent, send, either⟩ := outstanding_some.mp same
  exact outstanding_some.mpr ⟨sent, send, either.imp_right fun answer => absurd answer (other _ _)⟩

theorem mirrorText_edit (mirror : Mirror) (i j : Field) (value : (desc i).kind.Value) :
    (j ≠ i → mirrorText (editField mirror i value) j = mirrorText mirror j) ∧
      mirrorText (editField mirror i value) i = print (desc i).kind value := by
  refine ⟨fun other => ?_, ?_⟩
  · rw [mirrorText, editField, Function.update_of_ne other]
    rfl
  · rw [mirrorText, editField, Function.update_self]

theorem clientStep_inv (inv : Inv state) (allowed : uncontested state action)
    (h : clientStep state action = some next) : Inv next := by
  cases action with
  | edit i value =>
    cases h
    refine inv.clientSide ⟨fun j listed => ?_, inv.received, inv.sending⟩ rfl rfl inv.fetched
      inv.asked inv.answered fun update same => same
    obtain ⟨elsewhere, there⟩ := mirrorText_edit state.client.mirror i j value
    dsimp only
    by_cases same : j = i
    · subst same
      rw [there]
      simpa [uncontested, listed] using allowed
    · rw [elsewhere same]
      exact inv.own j listed
  | sync connected =>
    cases h
    have sound := syncMain_sound connected inv.sound
    obtain ⟨alone, unsent⟩ := syncMain_send connected state.client
    by_cases busy : state.client.send = none
    · refine inv.clientSide sound rfl rfl inv.fetched ?_ ?_ ?_
      · intro name value place
        exact absurd (inv.asked name value place) (by rw [busy]; nofun)
      · intro name value ok place
        exact absurd (inv.answered name value ok place) (by rw [busy]; nofun)
      · intro update same
        obtain ⟨sent, send, either⟩ := outstanding_some.mp same
        rcases either with rfl | place
        · exact absurd (unsent busy _ send) Bool.true_eq_false.mp
        · exact absurd (inv.answered _ _ true place) (by rw [busy]; nofun)
    · rw [alone busy]
      exact inv
  | look =>
    cases place : state.worker <;> simp only [clientStep, place] at h <;> try contradiction
    split at h
    · rename_i name value send
      split at h
      · cases h
        refine inv.clientSide inv.sound rfl rfl nofun ?_ nofun (outstanding_worker _ nofun)
        intro name' value' same
        cases same
        exact send
      · cases h
        exact inv.clientSide inv.sound rfl rfl nofun nofun nofun (outstanding_worker _ nofun)
    · cases h
      exact inv.clientSide inv.sound rfl rfl nofun nofun nofun (outstanding_worker _ nofun)
  | mark =>
    cases place : state.worker <;> simp only [clientStep, place] at h <;> try contradiction
    rename_i name value ok
    have send := inv.answered name value ok place
    obtain ⟨started, i, listed, named, admitted⟩ := inv.sending _ send
    cases h
    cases ok with
    | false =>
      exact inv.clientSide inv.sound rfl rfl nofun nofun nofun (outstanding_worker _ nofun)
    | true =>
      have marked : markSent state.client name value =
          { state.client with send := some ⟨name, value, true⟩ } := by
        rw [markSent, send]
        exact if_pos ⟨rfl, rfl⟩
      simp only [if_true, marked]
      refine inv.clientSide ⟨inv.own, inv.received, ?_⟩ rfl rfl nofun nofun nofun ?_
      · intro request same
        obtain rfl := Option.some.inj same
        exact ⟨started, i, listed, named, admitted⟩
      · intro update same
        obtain ⟨sent, send', -⟩ := outstanding_some.mp same
        cases send'
        exact outstanding_some.mpr ⟨false, send, .inr place⟩
  | skip | poll =>
    simp only [clientStep] at h
    split at h
    · rename_i place
      cases h
      exact inv.clientSide inv.sound rfl rfl nofun nofun nofun (outstanding_worker _ nofun)
    · contradiction
  | keep =>
    cases place : state.worker <;> simp only [clientStep, place] at h <;> try contradiction
    rename_i response
    have published := inv.fetched response place
    cases h
    obtain ⟨mirror, started, cases⟩ := storeResponse_cases state.client response
    rcases cases with ⟨gone, box⟩ | ⟨same, busy⟩
    · refine inv.clientSide ⟨?_, ?_, ?_⟩ rfl rfl nofun nofun nofun ?_
      · rw [mirror]
        exact inv.own
      · rw [box]
        intro text same
        obtain rfl := Option.some.inj same
        exact published
      · rw [gone]
        exact nofun
      · intro update same
        obtain ⟨sent, send, -⟩ := outstanding_some.mp same
        exact absurd (gone.symm.trans send) nofun
    · rw [same]
      exact inv.clientSide inv.sound rfl rfl nofun nofun nofun (outstanding_worker _ nofun)
  | serve | lose | take | apply | record | serverEdit | otherSet => cases h

theorem tameUpdate_own (listed : i ∈ synced) (admitted : admits i value) :
    tameUpdate (some (key i, value)) := by
  obtain ⟨-, v, stored, same⟩ := admits_iff.mp admitted
  rw [tameUpdate, find_key]
  dsimp only
  rw [stored, decide_eq_true listed]
  dsimp only
  rw [same]
  exact admits_tame admitted

theorem requestStep_inv (inv : Inv state) (h : requestStep state action = some next) :
    Inv next := by
  cases action with
  | serve =>
    cases place : state.worker <;> simp only [requestStep, place] at h <;> try contradiction
    · rename_i name value
      have send := inv.asked name value place
      obtain ⟨started, i, listed, named, admitted⟩ := inv.sending _ send
      dsimp only at named admitted
      subst named
      cases h
      rcases handleSet_own listed admitted with same | ⟨empty, stopped, accepted⟩
      · rw [same]
        refine inv.clientSide inv.sound rfl rfl nofun nofun ?_ (outstanding_worker _ nofun)
        intro name' value' ok same
        cases same
        exact send
      · rw [accepted]
        refine ⟨inv.own, inv.held, inv.snapshot, inv.received, nofun,
          tameUpdate_own listed admitted, inv.taken, nofun, ?_, inv.sending, ?_⟩
        · intro name' value' ok same
          cases same
          exact send
        · intro name' value' same
          obtain ⟨sent, send', -⟩ := outstanding_some.mp same
          have request := Option.some.inj (send.symm.trans send')
          cases request
          exact .inl rfl
    · cases h
      refine inv.clientSide inv.sound rfl rfl ?_ nofun nofun (outstanding_worker _ nofun)
      intro text same
      cases same
      exact inv.snapshot
  | lose arrived =>
    cases place : state.worker <;> simp only [requestStep, place] at h <;> try contradiction
    · rename_i name value
      have send := inv.asked name value place
      obtain ⟨started, i, listed, named, admitted⟩ := inv.sending _ send
      dsimp only at named admitted
      subst named
      cases h
      have answer : ∀ name' value' ok,
          Worker.answered (key i) value false = .answered name' value' ok →
            state.client.send = some ⟨name', value', false⟩ := by
        intro name' value' ok same
        cases same
        exact send
      have none : ∀ (server : Server) update, outstanding { state with
          server := server, worker := .answered (key i) value false } ≠ some update := by
        intro server update same
        obtain ⟨sent, send', either⟩ := outstanding_some.mp same
        rcases either with rfl | place
        · exact absurd (send.symm.trans send') (by simp)
        · simp at place
      cases arrived with
      | false =>
        exact inv.clientSide inv.sound rfl rfl nofun nofun answer (outstanding_worker _ nofun)
      | true =>
        rw [if_pos rfl]
        rcases handleSet_own listed admitted with same | ⟨empty, stopped, accepted⟩
        · rw [same]
          exact inv.clientSide inv.sound rfl rfl nofun nofun answer (outstanding_worker _ nofun)
        · rw [accepted]
          exact ⟨inv.own, inv.held, inv.snapshot, inv.received, nofun,
            tameUpdate_own listed admitted, inv.taken, nofun, answer, inv.sending,
            fun name' value' same => absurd same (none _ _)⟩
    · cases h
      exact inv.clientSide inv.sound rfl rfl nofun nofun nofun (outstanding_worker _ nofun)
  | edit | sync | look | mark | skip | poll | keep => cases h
  | take | apply | record | serverEdit | otherSet => cases h

/-! The server. -/

theorem Inv.serverSide (inv : Inv state) (client : next.client = state.client)
    (worker : next.worker = state.worker)
    (held : ∀ i ∈ synced, tame i (textOf next.server.settings i))
    (snapshot : Published next.server.snapshot) (mailbox : tameUpdate next.server.pending)
    (taken : ∀ update, next.main = .polling update → tameUpdate update)
    (carried : ∀ name value, outstanding state = some (name, value) →
      next.server.pending = some (name, value) ∨
        (next.main = .polling (some (name, value)) ∧ next.server.recording = false) ∨
          ∃ i ∈ synced, name = key i ∧ Shown next.server i value) : Inv next where
  own := by rw [client]; exact inv.own
  held := held
  snapshot := snapshot
  received := by rw [client]; exact inv.received
  fetched := by rw [worker]; exact inv.fetched
  mailbox := mailbox
  taken := taken
  asked := by rw [worker, client]; exact inv.asked
  answered := by rw [worker, client]; exact inv.answered
  sending := by rw [client]; exact inv.sending
  carried := by
    intro name value same
    refine carried name value ?_
    obtain ⟨sent, send, either⟩ := outstanding_some.mp same
    rw [client] at send
    rw [worker] at either
    exact outstanding_some.mpr ⟨sent, send, either⟩

/-- An outstanding update that is neither in the slot nor taken is an applied one, and
what keeps its echo keeps it shown. -/
theorem keepsEcho_shown {settings : Settings} {name : Text}
    (kept : keepsEcho state settings) (waits : outstanding state = some (name, value))
    (named : name = key i) (away : ¬(state.server.pending = some (name, value) ∨
      state.main = .polling (some (name, value)))) : textOf settings i = value := by
  have settled : applied state = some (name, value) := by
    rw [applied, waits]
    exact if_neg away
  rw [keepsEcho, settled] at kept
  dsimp only at kept
  rw [named, find_key] at kept
  exact eq_of_beq kept

theorem updated_tame {update : Option (Text × Text)}
    (held : ∀ i ∈ synced, tame i (textOf server.settings i)) (taken : tameUpdate update) :
    ∀ i ∈ synced, tame i (textOf (updated server update) i) := by
  cases update with
  | none => exact held
  | some update =>
    obtain ⟨name, value⟩ := update
    rw [updated]
    split
    · exact held
    · rw [store]
      rw [tameUpdate] at taken
      cases found : find name with
      | none => exact held
      | some i =>
        rw [found] at taken
        dsimp only at taken ⊢
        cases stored : set i value with
        | none => exact held
        | some v =>
          rw [stored] at taken
          dsimp only at taken ⊢
          intro j listed
          by_cases same : j = i
          · subst same
            rw [textOf_update_self]
            simpa [listed] using taken
          · rw [textOf_update_of_ne same]
            exact held j listed

/-- The update of the client shows, where the field has its value already or no
recording stands in the way. -/
theorem updated_shows (admitted : admits i value)
    (there : server.recording = false ∨ textOf server.settings i = value) :
    textOf (updated server (some (key i, value))) i = value := by
  obtain ⟨v, prints, stored⟩ := store_admits (s := server.settings) admitted
  rw [updated]
  split
  · rename_i recording
    rcases there with stopped | same
    · rw [stopped] at recording
      contradiction
    · exact same
  · rw [stored, textOf_update_self]
    exact prints

theorem handleSet_mailbox (server : Server) (query : Text) :
    (handleSet server query).1 = { server with pending := (handleSet server query).1.pending } ∧
      (server.pending ≠ none → (handleSet server query).1 = server) := by
  rcases handleSet_cases server query with same | ⟨empty, -, update, accepted⟩
  · rw [same]
    exact ⟨rfl, fun _ => rfl⟩
  · rw [accepted]
    exact ⟨rfl, fun busy => absurd empty busy⟩

theorem serverStep_inv (inv : Inv state) (allowed : uncontested state action)
    (h : serverStep state action = some next) : Inv next := by
  cases action with
  | take =>
    simp only [serverStep] at h
    split at h
    · rename_i idle
      cases h
      refine inv.serverSide rfl rfl inv.held inv.snapshot rfl ?_ fun name value waits => ?_
      · intro update same
        cases same
        exact inv.mailbox
      · rcases inv.carried name value waits with slot | ⟨polling, -⟩ | shown
        · right
          left
          dsimp only
          rw [slot]
          refine ⟨rfl, ?_⟩
          simpa [uncontested, slot, waits] using allowed
        · rw [idle] at polling
          contradiction
        · exact .inr (.inr shown)
    · contradiction
  | apply =>
    cases place : state.main with
    | idle => simp [serverStep, place] at h
    | polling update =>
      simp only [serverStep, place] at h
      cases h
      have tamed := updated_tame inv.held (inv.taken update place)
      refine inv.serverSide rfl rfl ?_ ?_ ?_ nofun fun name value waits => ?_
      · rw [applyUpdate_eq]
        exact tamed
      · rw [applyUpdate_eq]
        exact ⟨_, rfl, tamed⟩
      · rw [applyUpdate_eq]
        exact inv.mailbox
      · rw [applyUpdate_eq]
        simp only [uncontested, place] at allowed
        obtain ⟨sent, send, -⟩ := outstanding_some.mp waits
        obtain ⟨-, i, listed, named, admitted⟩ := inv.sending _ send
        dsimp only at named admitted
        subst named
        by_cases slot : state.server.pending = some (key i, value)
        · exact .inl slot
        · have visible : textOf (updated state.server update) i = value := by
            by_cases ours : update = some (key i, value)
            · subst ours
              refine updated_shows admitted ?_
              rcases inv.carried _ _ waits with slot' | ⟨-, stopped⟩ | ⟨j, -, named, shown⟩
              · exact absurd slot' slot
              · exact .inl stopped
              · rw [key_injective named]
                exact .inr shown.1
            · refine keepsEcho_shown allowed waits rfl ?_
              rw [place]
              simp [slot, ours]
          exact .inr (.inr ⟨i, listed, rfl, visible, _, rfl, visible⟩)
  | record on =>
    simp only [serverStep] at h
    split at h
    · rename_i idle
      cases h
      refine inv.serverSide rfl rfl inv.held inv.snapshot inv.mailbox inv.taken ?_
      intro name value waits
      rcases inv.carried name value waits with slot | ⟨polling, -⟩ | shown
      · exact .inl slot
      · rw [idle] at polling
        contradiction
      · exact .inr (.inr shown)
    · contradiction
  | serverEdit i value =>
    simp only [serverStep] at h
    split at h
    · rename_i idle
      cases h
      rw [uncontested, Bool.and_eq_true] at allowed
      refine inv.serverSide rfl rfl ?_ inv.snapshot inv.mailbox inv.taken ?_
      · intro j listed
        dsimp only
        by_cases same : j = i
        · subst same
          rw [textOf_update_self]
          simpa [listed] using allowed.1
        · rw [textOf_update_of_ne same]
          exact inv.held j listed
      · intro name text waits
        by_cases slot : state.server.pending = some (name, text)
        · exact .inl slot
        · right
          right
          rcases inv.carried name text waits with slot' | ⟨polling, -⟩ | ⟨j, listed, named, shown⟩
          · exact absurd slot' slot
          · rw [idle] at polling
            contradiction
          · refine ⟨j, listed, named, ?_, shown.2⟩
            refine keepsEcho_shown allowed.2 waits named ?_
            rw [idle]
            simp [slot]
    · contradiction
  | otherSet query =>
    simp only [serverStep] at h
    cases h
    obtain ⟨only, busy⟩ := handleSet_mailbox state.server query
    refine inv.serverSide rfl rfl ?_ ?_ allowed inv.taken fun name value waits => ?_
    · rw [only]
      exact inv.held
    · rw [only]
      exact inv.snapshot
    · rcases inv.carried name value waits with slot | polling | ⟨i, listed, named, shown⟩
      · left
        dsimp only
        rw [busy (by rw [slot]; nofun)]
        exact slot
      · right
        left
        rw [only]
        exact polling
      · right
        right
        refine ⟨i, listed, named, ?_⟩
        rw [only]
        exact shown
  | edit | sync | look | serve | lose | mark | skip | poll | keep => cases h

theorem step_inv (inv : Inv state) (allowed : uncontested state action)
    (h : step state action = some next) : Inv next := by
  cases action with
  | serve =>
    have taken : requestStep state .serve = some next := h
    exact requestStep_inv inv taken
  | lose arrived =>
    have taken : requestStep state (.lose arrived) = some next := h
    exact requestStep_inv inv taken
  | take | apply | record on | serverEdit i value | otherSet query =>
    exact serverStep_inv inv allowed h
  | edit i value | sync connected | look | mark | skip | poll | keep =>
    exact clientStep_inv inv allowed h

/-! The continuation. -/

/-- The steps of a continuation are uncontested ones, so that the invariant holds
along it. -/
def quiet (state : State) (action : Action) : Bool := calm state action && uncontested state action

abbrev Settles (state : State) (Goal : State → Prop) : Prop :=
  Machine.CanReach (Machine.guarded quiet step) state Goal

variable {Goal : State → Prop}

theorem Settles.then (action : Action) (calmly : calm state action)
    (allowed : uncontested state action) (taken : step state action = some next)
    (later : Settles next Goal) : Settles state Goal := by
  refine Machine.CanReach.after (Machine.guarded_eq_some.mpr ⟨?_, taken⟩) later
  rw [quiet, calmly, allowed]
  rfl

theorem Settles.inv (inv : Inv state) (path : Settles state Goal) :
    Settles state fun last => Inv last ∧ Goal last := by
  refine Machine.CanReach.preserving Inv (fun state action next inv h => ?_) inv path
  obtain ⟨allowed, taken⟩ := Machine.guarded_eq_some.mp h
  rw [quiet, Bool.and_eq_true] at allowed
  exact step_inv inv allowed.2 taken

theorem keepsEcho_free {settings : Settings}
    (travels : ∀ update, outstanding state = some update →
      state.server.pending = some update ∨ state.main = .polling (some update)) :
    keepsEcho state settings := by
  have settled : applied state = none := by
    rw [applied]
    cases waits : outstanding state with
    | none => rfl
    | some update => exact if_pos (travels update waits)
  rw [keepsEcho, settled]

theorem worker_rests (state : State) : Settles state fun last => last.worker = .idle := by
  have choosing (client : Client) (server : Server) (main : Main) :
      Settles ⟨client, .choosing, server, main⟩ fun last => last.worker = .idle :=
    .then .skip rfl rfl rfl (.now rfl)
  have answered (client : Client) (server : Server) (main : Main) (name value : Text) (ok : Bool) :
      Settles ⟨client, .answered name value ok, server, main⟩ fun last => last.worker = .idle :=
    .then .mark rfl rfl rfl (choosing _ server main)
  have fetched (client : Client) (server : Server) (main : Main) (text : Text) :
      Settles ⟨client, .fetched text, server, main⟩ fun last => last.worker = .idle :=
    .then .keep rfl rfl rfl (.now rfl)
  obtain ⟨client, worker, server, main⟩ := state
  cases worker with
  | idle => exact .now rfl
  | requesting name value => exact .then .serve rfl rfl rfl (answered _ _ _ _ _ _)
  | answered name value ok => exact answered _ _ _ _ _ _
  | choosing => exact choosing _ _ _
  | fetching => exact .then .serve rfl rfl rfl (fetched _ _ _ _)
  | fetched text => exact fetched _ _ _ _

/-- The server is idle, has published its settings and accepts updates. -/
def resting (client : Client) (s : Settings) : State :=
  ⟨client, .idle, ⟨s, wire s, none, false⟩, .idle⟩

theorem server_rests (place : state.worker = .idle)
    (travels : ∀ update, outstanding state = some update → state.server.pending = some update) :
    Settles state fun last => ∃ s, last = resting state.client s := by
  have idle (client : Client) (server : Server)
      (travels : ∀ update, outstanding ⟨client, .idle, server, .idle⟩ = some update →
        server.pending = some update) :
      Settles ⟨client, .idle, server, .idle⟩ fun last => ∃ s, last = resting client s := by
    refine .then (.record false) rfl rfl rfl (.then .take rfl ?_ rfl (.then .apply rfl ?_ rfl ?_))
    · rfl
    · exact keepsEcho_free fun update waits => .inr (congrArg Main.polling (travels update waits))
    · refine .now ⟨updated { server with pending := none, recording := false } server.pending, ?_⟩
      dsimp only
      rw [applyUpdate_eq]
      rfl
  obtain ⟨client, worker, server, main⟩ := state
  dsimp only at place
  subst place
  cases main with
  | idle => exact idle client server travels
  | polling update =>
    refine .then .apply rfl (keepsEcho_free fun update waits => .inl (travels update waits)) rfl ?_
    exact idle client _ travels

theorem worker_polls {client : Client} {main : Main}
    (unsent : ∀ request ∈ client.send, request.sent = true) :
    Settles ⟨client, .idle, server, main⟩ fun last =>
      last = ⟨storeResponse client server.snapshot, .idle, server, main⟩ := by
  have look : step ⟨client, .idle, server, main⟩ .look =
      some ⟨client, .choosing, server, main⟩ := by
    simp only [step, clientStep]
    split
    · rename_i name value send
      exact absurd (unsent _ send) Bool.false_ne_true
    · rfl
  exact .then .look rfl rfl look (.then .poll rfl rfl rfl (.then .serve rfl rfl rfl
    (.then .keep rfl rfl rfl (.now rfl))))

theorem echo_clears (inv : Inv state) (place : state.worker = .idle) {request : Request}
    (send : state.client.send = some request) (sent : request.sent = true)
    (listed : i ∈ synced) (named : request.key = key i)
    (shown : Shown state.server i request.value) :
    Settles state fun last => last.worker = .idle ∧ last.client.send = none := by
  obtain ⟨client, worker, server, main⟩ := state
  obtain ⟨name, value, sent'⟩ := request
  dsimp only at place send sent named shown
  subst place sent named
  refine (worker_polls ?_).trans ?_
  · intro request same
    obtain rfl := Option.some.inj (send.symm.trans same)
    rfl
  · rintro _ rfl
    refine .now ⟨rfl, ?_⟩
    obtain ⟨-, s, published, same⟩ := shown
    dsimp only
    rw [storeResponse, send]
    dsimp only
    rw [published, echoed_wire listed true same]
    rfl

theorem sent_clears (inv : Inv state) (place : state.worker = .idle) {request : Request}
    (send : state.client.send = some request) (sent : request.sent = true) :
    Settles state fun last => last.worker = .idle ∧ last.client.send = none := by
  obtain ⟨name, value, sent'⟩ := request
  dsimp only at sent
  subst sent
  have waits : outstanding state = some (name, value) :=
    outstanding_some.mpr ⟨true, send, .inl rfl⟩
  have mailed {state : State} (inv : Inv state) (place : state.worker = .idle)
      (send : state.client.send = some ⟨name, value, true⟩)
      (slot : state.server.pending = some (name, value)) :
      Settles state fun last => last.worker = .idle ∧ last.client.send = none := by
    have waits : outstanding state = some (name, value) :=
      outstanding_some.mpr ⟨true, send, .inl rfl⟩
    refine ((server_rests place ?_).inv inv).trans ?_
    · intro update same
      rw [waits] at same
      rw [slot]
      exact same
    · rintro _ ⟨inv, s, rfl⟩
      have waits : outstanding (resting state.client s) = some (name, value) :=
        outstanding_some.mpr ⟨true, send, .inl rfl⟩
      rcases inv.carried name value waits with slot | ⟨polling, -⟩ | ⟨i, listed, named, shown⟩
      · nomatch slot
      · nomatch polling
      · exact echo_clears inv rfl send rfl listed named shown
  rcases inv.carried name value waits with slot | ⟨polling, stopped⟩ | ⟨i, listed, named, shown⟩
  · exact mailed inv place send slot
  · have applies : step state .apply = some { state with
        server := applyUpdate state.server (some (name, value)), main := .idle } := by
      simp only [step, serverStep, polling]
    have allowed : uncontested state .apply := by
      rw [uncontested, polling]
      refine keepsEcho_free fun update same => ?_
      rw [waits] at same
      right
      rw [polling]
      exact congrArg Main.polling same
    have inv := step_inv inv allowed applies
    refine .then .apply rfl allowed applies ?_
    rcases inv.carried name value (outstanding_some.mpr ⟨true, send, .inl rfl⟩) with
      slot | ⟨polling, -⟩ | ⟨i, listed, named, shown⟩
    · exact mailed inv place send slot
    · nomatch polling
    · exact echo_clears inv place send rfl listed named shown
  · exact echo_clears inv place send rfl listed named shown

/-- From a server at rest, an update of the client is carried out: the server takes the
value, publishes it, and the client sees it. -/
theorem update_lands {initialized : Bool} {received : Option Text} (listed : i ∈ synced)
    (admitted : admits i value) :
    ∃ v, print (desc i).kind v = value ∧
      Settles (resting ⟨mirror, initialized, received, some ⟨key i, value, false⟩⟩ s) fun last =>
        last = resting ⟨mirror, initialized, some (wire (Function.update s i v)), none⟩
          (Function.update s i v) := by
  obtain ⟨v, prints, stored⟩ := store_admits (s := s) admitted
  refine ⟨v, prints, ?_⟩
  let client (sent : Bool) : Client := ⟨mirror, initialized, received, some ⟨key i, value, sent⟩⟩
  let slot : Server := ⟨s, wire s, some (key i, value), false⟩
  have look : step (resting (client false) s) .look =
      some ⟨client false, .requesting (key i) value, ⟨s, wire s, none, false⟩, .idle⟩ := by
    simp only [step, clientStep, resting, client]
    rw [setQuery_eq i (length_admits admitted)]
    rfl
  have serve : step ⟨client false, .requesting (key i) value, ⟨s, wire s, none, false⟩, .idle⟩
      .serve = some ⟨client false, .answered (key i) value true, slot, .idle⟩ := by
    simp only [step, requestStep]
    rw [handleSet_accepts listed admitted rfl rfl]
  have mark : step ⟨client false, .answered (key i) value true, slot, .idle⟩ .mark =
      some ⟨client true, .choosing, slot, .idle⟩ := by
    simp only [step, clientStep, client, markSent, if_true, and_self]
  have applies : step ⟨client true, .idle, { slot with pending := none },
      .polling (some (key i, value))⟩ .apply =
        some (resting (client true) (Function.update s i v)) := by
    simp only [step, serverStep]
    rw [applyUpdate_eq, updated]
    dsimp only [slot]
    rw [if_neg Bool.false_ne_true, stored]
    rfl
  have allowed : uncontested ⟨client true, .idle, { slot with pending := none },
      .polling (some (key i, value))⟩ .apply := by
    refine keepsEcho_free fun update same => .inr ?_
    obtain ⟨sent, send, -⟩ := outstanding_some.mp same
    have request := Option.some.inj send
    simp only [Request.mk.injEq] at request
    rw [request.1, request.2.1]
  refine .then .look rfl rfl look (.then .serve rfl rfl serve (.then .mark rfl rfl mark
    (.then .skip rfl rfl rfl (.then .take rfl rfl rfl (.then .apply rfl allowed applies ?_)))))
  refine (worker_polls ?_).trans ?_
  · intro request same
    cases same
    rfl
  · rintro _ rfl
    refine .now ?_
    dsimp only
    rw [storeResponse]
    dsimp only [client]
    rw [echoed_wire listed true (textOf_update_self.trans prints)]
    rfl

/-- Nothing waits to be sent, and the client holds what the server at rest has
published. -/
def Polled (state : State) : Prop :=
  ∃ mirror initialized s, state = resting ⟨mirror, initialized, some (wire s), none⟩ s

theorem polls (inv : Inv state) : Settles state fun last => Inv last ∧ Polled last := by
  have empty {state : State} (place : state.worker = .idle) (send : state.client.send = none) :
      Settles state Polled := by
    refine (server_rests place ?_).trans ?_
    · intro update waits
      obtain ⟨sent, send', -⟩ := outstanding_some.mp waits
      exact absurd (send.symm.trans send') nofun
    · rintro _ ⟨s, rfl⟩
      refine (worker_polls ?_).trans ?_
      · rw [send]
        exact nofun
      · rintro _ rfl
        refine .now ⟨state.client.mirror, state.client.initialized, s, ?_⟩
        dsimp only [resting]
        rw [storeResponse, send]
  refine Settles.inv inv (((worker_rests state).inv inv).trans ?_)
  rintro state ⟨inv, place⟩
  cases send : state.client.send with
  | none => exact empty place send
  | some request =>
    obtain ⟨name, value, sent⟩ := request
    cases sent with
    | true =>
      exact (sent_clears inv place send rfl).trans fun last ⟨place, send⟩ => empty place send
    | false =>
      have waits : outstanding state = none := by
        refine Option.eq_none_iff_forall_ne_some.mpr fun update same => ?_
        obtain ⟨sent, send', either⟩ := outstanding_some.mp same
        rcases either with rfl | answer
        · exact absurd (send.symm.trans send') (by simp)
        · exact absurd (place.symm.trans answer) nofun
      refine ((server_rests place ?_).inv inv).trans ?_
      · rw [waits]
        exact nofun
      · rintro _ ⟨inv, s, rfl⟩
        obtain ⟨-, i, listed, named, admitted⟩ := inv.sending _ send
        dsimp only at named admitted
        have whole : state.client =
            ⟨state.client.mirror, state.client.initialized, state.client.received,
              some ⟨key i, value, false⟩⟩ := by
          rw [← named, ← send]
        rw [whole]
        obtain ⟨v, -, lands⟩ := update_lands listed admitted
        exact lands.trans fun last same => .now ⟨_, _, _, same⟩

/-! Each synchronisation of a polled client brings one more field together. -/

def differing (state : State) : List Field :=
  synced.filter fun i => mirrorText state.client.mirror i != textOf state.server.settings i

theorem length_filter_lt {α : Type*} {p q : α → Bool} {order : List α} {a : α}
    (narrower : ∀ b ∈ order, q b → p b) (member : a ∈ order) (was : p a) (gone : ¬q a) :
    (order.filter q).length < (order.filter p).length := by
  have nested : order.filter q = (order.filter p).filter q := by
    rw [List.filter_filter]
    refine List.filter_congr fun b listed => ?_
    cases kept : q b with
    | false => rfl
    | true => rw [narrower b listed kept, Bool.and_true]
  rw [nested]
  exact List.length_filter_lt_length_iff_exists.mpr ⟨a, List.mem_filter.mpr ⟨member, was⟩, gone⟩

theorem sync_polled (initialized : Bool) (own : ∀ i ∈ synced, admits i (mirrorText mirror i))
    (held : ∀ i ∈ synced, tame i (textOf s i)) :
    ∃ adopted : Mirror,
      syncMain true ⟨mirror, initialized, some (wire s), none⟩ =
        queueEdit ⟨adopted, true, none, none⟩ ∧
      ∀ i ∈ synced, admits i (mirrorText adopted i) ∧ (adopted i).last = textOf s i ∧
        (mirrorText mirror i = textOf s i → mirrorText adopted i = textOf s i) := by
  refine ⟨applySnapshot (!initialized) mirror (wire s), ?_, fun i listed => ?_⟩
  · rw [syncMain, receive_some rfl rfl]
    rfl
  · obtain ⟨last, stays⟩ := adopt_tame (!initialized) (mirror i) (held i listed)
    refine ⟨applySnapshot_own ⟨s, rfl, held⟩ own i listed, ?_, fun same => ?_⟩
    · rw [applySnapshot_wire]
      dsimp only
      rw [if_pos listed]
      exact last
    · rw [mirrorText, applySnapshot_wire]
      dsimp only
      rw [if_pos listed]
      exact stays (same ▸ own i listed) same

theorem polled_nearer (inv : Inv state) (polled : Polled state) :
    Settles state InSync ∨ Settles state fun last =>
      (Inv last ∧ Polled last) ∧ (differing last).length < (differing state).length := by
  obtain ⟨mirror, initialized, s, rfl⟩ := polled
  have own : ∀ i ∈ synced, admits i (mirrorText mirror i) := inv.own
  have held : ∀ i ∈ synced, tame i (textOf s i) := inv.held
  obtain ⟨adopted, main, agreed⟩ := sync_polled initialized own held
  have sync : step (resting ⟨mirror, initialized, some (wire s), none⟩ s) (.sync true) =
      some (resting (queueEdit ⟨adopted, true, none, none⟩) s) := by
    rw [← main]
    rfl
  rcases queueEdit_cases ⟨adopted, true, none, none⟩ with
    ⟨same, settled⟩ | ⟨i, listed, differs, queued⟩
  · left
    rw [same] at sync
    refine .then (.sync true) rfl rfl sync (.now ⟨rfl, fun i listed => ?_⟩)
    have unedited := settled i listed
    rw [edited_eq, (agreed i listed).2.1] at unedited
    have same : mirrorText adopted i = textOf s i := by
      rw [mirrorText]
      simpa using unedited
    exact same
  · right
    rw [queued] at sync
    obtain ⟨admitted, last, -⟩ := agreed i listed
    obtain ⟨v, prints, lands⟩ := update_lands (s := s) listed admitted
    have mirrored (j : Field) : mirrorText (Function.update adopted i
        { adopted i with last := mirrorText adopted i }) j = mirrorText adopted j := by
      have kept := queueEdit_mirror ⟨adopted, true, none, none⟩ j
      rw [queued] at kept
      exact kept
    refine (Settles.inv inv (.then (.sync true) rfl rfl sync lands)).trans ?_
    rintro _ ⟨inv, rfl⟩
    refine .now ⟨⟨inv, _, _, _, rfl⟩, length_filter_lt (fun j member apart => ?_) listed ?_ ?_⟩
    · dsimp only [resting] at apart ⊢
      rw [mirrored, bne_iff_ne] at apart
      rw [bne_iff_ne]
      by_cases same : j = i
      · subst same
        exact absurd (textOf_update_self.trans prints).symm apart
      · rw [textOf_update_of_ne same] at apart
        exact fun equal => apart ((agreed j member).2.2 equal)
    · dsimp only [resting]
      rw [bne_iff_ne]
      rw [edited_eq, bne_iff_ne, last] at differs
      exact fun equal => differs ((agreed i listed).2.2 equal)
    · dsimp only [resting]
      rw [mirrored, bne_iff_ne, not_not]
      exact (textOf_update_self.trans prints).symm

theorem recovers_of_inv (inv : Inv state) : Recovers state := by
  have settled : Settles state InSync := by
    refine (polls inv).trans fun ready start => ?_
    have path : Settles ready fun last => Settles last InSync :=
      Machine.CanReach.descend (fun state => Inv state ∧ Polled state) _
        (fun state => (differing state).length) (fun _ known => polled_nearer known.1 known.2) start
    exact path.trans fun _ goal => goal
  refine settled.relax fun state action allowed => ?_
  rw [quiet, Bool.and_eq_true] at allowed
  exact allowed.1

/-- From every state of an uncontested run, the client and the server come to hold the
same values. -/
theorem sync_recovers (mirror : Mirror) (s : Settings) (recording : Bool)
    (own : ∀ i ∈ synced, admits i (mirrorText mirror i))
    (held : ∀ i ∈ synced, tame i (textOf s i)) (schedule : List Action) (last : State)
    (h : Machine.run (Machine.guarded uncontested step) (initial mirror s recording) schedule =
      some last) : Recovers last := by
  refine recovers_of_inv (Machine.run_invariant Inv (fun state action next inv taken => ?_)
    (initial_inv mirror s recording own held) h)
  obtain ⟨allowed, moved⟩ := Machine.guarded_eq_some.mp taken
  exact step_inv inv allowed moved

/-! An update that the server's validator refuses waits for ever. -/

theorem handleSet_refuses (neat : clean value) (short : value.length < valueCap)
    (refused : MonitorSettings.set i value = none) :
    handleSet server ((setQuery (key i) value).getD []) = (server, false) := by
  rw [setQuery_eq i short, Option.getD_some, handleSet, queryNamed_key,
    queryNamed_value i neat short]
  dsimp only
  rw [find_key]
  dsimp only
  rw [refused, Option.isNone_none, Bool.or_true, Bool.true_or, if_pos rfl]

/-- The update waits, and no request with another one is on its way. -/
structure Waits (i : Field) (value : Text) (state : State) : Prop where
  send : state.client.send = some ⟨key i, value, false⟩
  asked : ∀ name text, state.worker = .requesting name text → name = key i ∧ text = value
  answered : ∀ name text ok, state.worker = .answered name text ok → ok = false

theorem step_waits (neat : clean value) (short : value.length < valueCap)
    (refused : MonitorSettings.set i value = none) (waits : Waits i value state)
    (calmly : calm state action) (h : step state action = some next) : Waits i value next := by
  obtain ⟨send, asked, answered⟩ := waits
  cases action with
  | edit | lose | serverEdit | otherSet => exact absurd calmly Bool.false_ne_true
  | sync connected =>
    cases h
    have alone : syncMain connected state.client = state.client :=
      (syncMain_send connected state.client).1 (by rw [send]; nofun)
    rw [alone]
    exact ⟨send, asked, answered⟩
  | look =>
    cases place : state.worker <;> simp only [step, clientStep, place, send] at h <;>
      try contradiction
    split at h
    · cases h
      refine ⟨send, ?_, nofun⟩
      intro name text same
      cases same
      exact ⟨rfl, rfl⟩
    · cases h
      exact ⟨send, nofun, nofun⟩
  | serve =>
    cases place : state.worker <;> simp only [step, requestStep, place] at h <;> try contradiction
    · rename_i name text
      obtain ⟨rfl, rfl⟩ := asked name text place
      rw [handleSet_refuses neat short refused] at h
      cases h
      refine ⟨send, nofun, ?_⟩
      intro name' text' ok same
      cases same
      rfl
    · cases h
      exact ⟨send, nofun, nofun⟩
  | mark =>
    cases place : state.worker <;> simp only [step, clientStep, place] at h <;> try contradiction
    rename_i name text ok
    obtain rfl := answered name text ok place
    cases h
    exact ⟨send, nofun, nofun⟩
  | skip | poll =>
    simp only [step, clientStep] at h
    split at h
    · cases h
      exact ⟨send, nofun, nofun⟩
    · contradiction
  | keep =>
    cases place : state.worker <;> simp only [step, clientStep, place] at h <;> try contradiction
    cases h
    refine ⟨?_, nofun, nofun⟩
    dsimp only
    rw [storeResponse, send]
    exact send
  | take | record on =>
    simp only [step, serverStep] at h
    split at h
    · cases h
      exact ⟨send, asked, answered⟩
    · contradiction
  | apply =>
    cases place : state.main <;> simp only [step, serverStep, place] at h <;> try contradiction
    cases h
    exact ⟨send, asked, answered⟩

theorem refused_forever (neat : clean value) (short : value.length < valueCap)
    (refused : MonitorSettings.set i value = none) (waits : Waits i value state) :
    ¬Recovers state := by
  rintro ⟨schedule, last, ran, empty, -⟩
  have still : Waits i value last := by
    refine Machine.run_invariant (Waits i value) (fun state action next waits taken => ?_) waits ran
    obtain ⟨calmly, moved⟩ := Machine.guarded_eq_some.mp taken
    exact step_waits neat short refused waits calmly moved
  rw [still.send] at empty
  nomatch empty

theorem edit_queued (agreed : ∀ j ∈ synced, mirrorText mirror j = (mirror j).last)
    (listed : i ∈ synced) (differs : print (desc i).kind v ≠ (mirror i).last) :
    (queueEdit ⟨editField mirror i v, true, none, none⟩).send =
      some ⟨key i, print (desc i).kind v, false⟩ := by
  have kept (j : Field) : (editField mirror i v j).last = (mirror j).last := by
    rw [editField]
    by_cases same : j = i
    · subst same
      rw [Function.update_self]
    · rw [Function.update_of_ne same]
  rcases queueEdit_cases ⟨editField mirror i v, true, none, none⟩ with
    ⟨-, settled⟩ | ⟨j, member, apart, queued⟩
  · have unedited := settled i listed
    rw [edited_eq, kept, bne_iff_ne, not_not, ← mirrorText,
      (mirrorText_edit mirror i i v).2] at unedited
    exact absurd unedited differs
  · rw [queued]
    rw [edited_eq, kept, bne_iff_ne, ← mirrorText] at apart
    by_cases same : j = i
    · subst same
      rw [(mirrorText_edit mirror j j v).2]
    · rw [(mirrorText_edit mirror i j v).1 same] at apart
      exact absurd (agreed j member) apart

theorem initial_eq (mirror : Mirror) (s : Settings) :
    initial mirror s false = resting (fresh mirror) s := by
  rw [initial, pack_eq]
  rfl

theorem defaults_admitted : ∀ i ∈ synced, admits i (textOf (initDefaults 8) i) := by
  decide +kernel

def ofDefaults : Mirror := fun i => ⟨initDefaults 8 i, []⟩

/-- A client of a server with the same values, whose user sets the automatic number of
threads, which the server does not accept. -/
theorem automatic_threads_refused :
    ¬∀ (mirror : Mirror) (s : Settings) (recording : Bool) (schedule : List Action) (last : State),
      Machine.run step (initial mirror s recording) schedule = some last → Recovers last := by
  intro claim
  let s : Settings := initDefaults 8
  have own : ∀ i ∈ synced, admits i (mirrorText ofDefaults i) := defaults_admitted
  have held : ∀ i ∈ synced, tame i (textOf s i) :=
    fun i listed => admits_tame (defaults_admitted i listed)
  obtain ⟨adopted, main, agreed⟩ := sync_polled false own held
  have agrees : ∀ j ∈ synced, mirrorText adopted j = (adopted j).last := by
    intro j listed
    obtain ⟨-, last, stays⟩ := agreed j listed
    rw [last]
    exact stays rfl
  have first : syncMain true ⟨ofDefaults, false, some (wire s), none⟩ =
      ⟨adopted, true, none, none⟩ := by
    rw [main]
    refine queueEdit_quiet rfl ⟨rfl, fun _ j listed => ?_⟩
    rw [own_eq]
    exact congrArg some (agrees j listed)
  have listed : flacThreads ∈ synced := by
    rw [synced, List.mem_filter]
    exact ⟨List.mem_finRange _, by decide⟩
  let zero : (desc flacThreads).kind.Value := (0 : Fin (2 ^ 32))
  have differs : print (desc flacThreads).kind zero ≠ (adopted flacThreads).last := by
    rw [(agreed flacThreads listed).2.1]
    decide +kernel
  have queued := edit_queued agrees listed differs
  have reached : Machine.run step (initial ofDefaults s false) [.look, .poll, .serve, .keep,
      .sync true, .edit flacThreads zero, .sync true] =
        some (resting (queueEdit ⟨editField adopted flacThreads zero, true, none, none⟩) s) := by
    have polled : Machine.run step (resting (fresh ofDefaults) s) [.look, .poll, .serve, .keep] =
        some (resting ⟨ofDefaults, false, some (wire s), none⟩ s) := rfl
    have adopts : step (resting ⟨ofDefaults, false, some (wire s), none⟩ s) (.sync true) =
        some (resting ⟨adopted, true, none, none⟩ s) := by
      rw [← first]
      rfl
    have edits : Machine.run step (resting ⟨adopted, true, none, none⟩ s)
        [.edit flacThreads zero, .sync true] =
          some (resting (queueEdit ⟨editField adopted flacThreads zero, true, none, none⟩) s) := rfl
    have run := Machine.run_append step (resting (fresh ofDefaults) s) [.look, .poll, .serve, .keep]
      [.sync true, .edit flacThreads zero, .sync true]
    rw [polled, Option.bind_some, Machine.run_cons, adopts, Option.bind_some, edits] at run
    rw [initial_eq]
    exact run
  have waits : Waits flacThreads (print (desc flacThreads).kind zero)
      (resting (queueEdit ⟨editField adopted flacThreads zero, true, none, none⟩) s) := by
    refine ⟨queued, fun name text place => ?_, fun name text ok place => ?_⟩
    · cases place
    · cases place
  refine refused_forever ?_ ?_ ?_ waits (claim _ _ _ _ _ reached)
  · decide +kernel
  · decide +kernel
  · decide +kernel

def fourThreads : (desc flacThreads).kind.Value := ⟨4, by decide⟩

/-- An edit before the first snapshot, and a recording after it. -/
theorem sync_recovers_edited :
    ∃ last, Machine.run (Machine.guarded uncontested step)
        (initial ofDefaults (initDefaults 8) false)
        [.edit flacThreads fourThreads, .look, .poll, .serve, .keep, .sync true,
          .record true] = some last ∧ Recovers last := by
  have ran : (Machine.run (Machine.guarded uncontested step)
      (initial ofDefaults (initDefaults 8) false)
      [.edit flacThreads fourThreads, .look, .poll, .serve, .keep, .sync true,
        .record true]).isSome := by decide +kernel
  obtain ⟨last, reached⟩ := Option.isSome_iff_exists.mp ran
  exact ⟨last, reached, sync_recovers ofDefaults (initDefaults 8) false defaults_admitted
    (fun i listed => admits_tame (defaults_admitted i listed)) _ last reached⟩

end MisrcGui.Net.SyncRecovery
