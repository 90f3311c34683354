import MisrcGui.Library.Machine
import MisrcGui.LocalSave.Receiver

/-! The file proxy of a recording that is saved at the client, `monitor_local_save_proxy.c`,
against a plain local file. Every message is applied by the receiver when it is sent; the
sender worker turns `MLS_WRITE` into `MLS_WRITE_STREAM`. -/
namespace MisrcGui.LocalSave
open Library
open SparseFile (pwrite)

def cacheSize : Nat := maxPayload

/-- `proxy_t`; `cache` holds the buffered bytes. -/
structure Proxy where
  id : Fin maxFiles
  pos : Nat
  fileSize : Nat
  bufferedOffset : Nat
  cache : Bytes

inductive Whence where
  | set
  | cur
  | «end»
  | other

structure LocalFile where
  content : Bytes
  position : Nat

/-- What a proxy writes to, and the answers so far: the proxy's, and those of a local file. -/
structure Saving where
  proxy : Proxy
  session : Session
  localFile : LocalFile
  closed : Bool
  answers : List (Int × Int)

structure Remote where
  proxy : Proxy
  session : Session

def sendFrame (session : Session) (frame : Frame) : Option Session :=
  match receiverApply noFaults session frame with
  | (session, true) => some session
  | (_, false) => none

def flushProxy (remote : Remote) : Option Remote :=
  let proxy := remote.proxy
  if proxy.cache = [] then some remote
  else
    (sendFrame remote.session
      ⟨.writeStream, proxy.id, proxy.bufferedOffset, proxy.cache, crc32 proxy.cache⟩).map
        fun session => ⟨{ proxy with cache := [] }, session⟩

/-- The front of the loop in `mls_proxy_write`: buffered bytes that do not end at the position,
or that fill the cache, are sent. -/
def makeRoom (remote : Remote) : Option Remote :=
  let proxy := remote.proxy
  if proxy.cache ≠ [] ∧ proxy.bufferedOffset + proxy.cache.length ≠ proxy.pos ∨
      proxy.cache.length = cacheSize then
    flushProxy remote
  else some remote

def bufferBytes (proxy : Proxy) (data : Bytes) : Proxy :=
  let pos := proxy.pos + data.length
  { proxy with
    bufferedOffset := if proxy.cache = [] then proxy.pos else proxy.bufferedOffset
    cache := proxy.cache ++ data
    pos
    fileSize := if pos > proxy.fileSize then pos else proxy.fileSize }

/-- The loop of `mls_proxy_write`, and the bytes it has not taken. -/
def writeLoop : Nat → Remote → Bytes → Option (Remote × Bytes)
  | 0, remote, data => some (remote, data)
  | fuel + 1, remote, data =>
    if data = [] then some (remote, [])
    else
      (makeRoom remote).bind fun remote =>
        let take := min data.length (cacheSize - remote.proxy.cache.length)
        writeLoop fuel { remote with proxy := bufferBytes remote.proxy (data.take take) }
          (data.drop take)

/-- `mls_proxy_seek` behind its flush, on 64-bit words. -/
def seekTarget (proxy : Proxy) (offset : Int) (whence : Whence) : Option Nat :=
  let base : Option Nat :=
    match whence with
    | .set => some 0
    | .cur => some proxy.pos
    | .end => some proxy.fileSize
    | .other => none
  base.bind fun base =>
    if offset < 0 ∧ offset.natAbs > base ∨
        offset ≥ 0 ∧ offset.natAbs > (int64Max + 2 ^ 64 - base) % 2 ^ 64 then none
    else some (if offset < 0 then base - offset.natAbs else base + offset.natAbs)

def tellPosition (position : Nat) : Int := if position ≤ int64Max then position else -1

/-- `fseeko`: a target that is negative or does not fit is refused. -/
def LocalFile.target (file : LocalFile) (offset : Int) (whence : Whence) : Option Int :=
  let base : Option Int :=
    match whence with
    | .set => some 0
    | .cur => some file.position
    | .end => some file.content.length
    | .other => none
  base.bind fun base =>
    if base + offset < 0 ∨ base + offset > int64Max then none else some (base + offset)

def LocalFile.write (file : LocalFile) (data : Bytes) : LocalFile :=
  ⟨pwrite 0 file.content file.position data, file.position + data.length⟩

inductive FileAction where
  | write (data : Bytes)
  | seek (offset : Int) (whence : Whence)
  | flush
  | tell
  | close

/-- A call on the proxy and the same call on the local file; none when a send fails. -/
def fileStep (saving : Saving) : FileAction → Option Saving
  | .write data =>
    if saving.closed then none
    else
      (writeLoop data.length ⟨saving.proxy, saving.session⟩ data).map fun (remote, rest) =>
        { saving with
          proxy := remote.proxy
          session := remote.session
          localFile := saving.localFile.write data
          answers := ((data.length - rest.length : Nat), data.length) :: saving.answers }
  | .seek offset whence =>
    if saving.closed then none
    else
      (flushProxy ⟨saving.proxy, saving.session⟩).map fun remote =>
        let target := seekTarget remote.proxy offset whence
        let localTarget := saving.localFile.target offset whence
        { saving with
          proxy := { remote.proxy with pos := target.getD remote.proxy.pos }
          session := remote.session
          localFile :=
            { saving.localFile with
              position := (localTarget.map Int.toNat).getD saving.localFile.position }
          answers :=
            (if target.isSome then 0 else -1, if localTarget.isSome then 0 else -1) ::
              saving.answers }
  | .flush =>
    if saving.closed then none
    else
      (flushProxy ⟨saving.proxy, saving.session⟩).map fun remote =>
        { saving with
          proxy := remote.proxy
          session := remote.session
          answers := (0, 0) :: saving.answers }
  | .tell =>
    if saving.closed then none
    else
      some { saving with
        answers :=
          (tellPosition saving.proxy.pos, tellPosition saving.localFile.position) ::
            saving.answers }
  | .close =>
    if saving.closed then none
    else
      (flushProxy ⟨saving.proxy, saving.session⟩).bind fun remote =>
        (sendFrame remote.session ⟨.close, remote.proxy.id, 0, [], 0⟩).map fun session =>
          { saving with
            proxy := remote.proxy
            session
            closed := true
            answers := (0, 0) :: saving.answers }

/-- `mls_proxy_open` for a new file, and a local file opened for writing. -/
def openProxy (session : Session) (id : Fin maxFiles) (name : Bytes) : Option Saving :=
  (sendFrame session ⟨.open, id, 0, name, crc32 name⟩).map fun session =>
    ⟨⟨id, 0, 0, 0, []⟩, session, ⟨[], 0⟩, false, []⟩

variable {session : Session} {id : Fin maxFiles} {proxy : Proxy}

theorem sendFrame_some {next : Session} {frame : Frame} (h : sendFrame session frame = some next) :
    receiverApply noFaults session frame = (next, true) := by
  unfold sendFrame at h
  split at h
  · next applied =>
    cases h
    exact applied
  · contradiction

theorem receiverApply_some {next : Session} {faults : Faults} {frame : Frame} (id : Fin maxFiles)
    (here : frame.fileId = id) (kept : frame.type ≠ .abort)
    (h : receiverApply faults session frame = (next, true)) :
    applyType faults session id frame = (next, true) := by
  unfold receiverApply at h
  rw [dif_pos (here ▸ id.isLt)] at h
  split at h
  · cases h
  · split at h
    · cases h
    · split at h
      · next after same =>
        cases h
        rw [← same]
        congr 1
        exact Fin.ext here.symm
      · cases h

/-- The file is open, its stream stands where the next write continues, and what has been
written to it is on the disk. -/
structure Streaming (session : Session) (id : Fin maxFiles) (received : Bytes) : Prop where
  stream : (session.file id).stream = some (session.file id).nextOffset
  content : session.disk (session.file id).incompletePath = some received

theorem sendFrame_write {next : Session} {received data : Bytes} {offset : Nat} {crc : UInt32}
    (streaming : Streaming session id received)
    (h : sendFrame session ⟨.writeStream, id, offset, data, crc⟩ = some next) :
    Streaming next id (pwrite 0 received offset data) ∧ offset + data.length ≤ int64Max := by
  have written := receiverApply_some id rfl (fun kind => by cases kind) (sendFrame_some h)
  have stands : positioned noFaults (session.file id) offset = some offset := by
    unfold positioned
    by_cases same : offset = (session.file id).nextOffset
    · rw [if_pos same, streaming.stream, ← same]
    · rw [if_neg same, streaming.stream]
      rfl
  have whole : noFaults.shortWrite = none := rfl
  simp only [applyType, writeFile, stands, whole, Option.getD_none, List.take_length,
    Nat.lt_irrefl, if_false, streaming.content, Option.getD_some] at written
  split at written
  · cases written
  · next fits =>
    cases written
    simp only [Bool.or_eq_true, decide_eq_true_eq, not_or] at fits
    refine ⟨⟨?_, ?_⟩, by omega⟩
    · simp [Session.file, Session.withFile]
    · simp [Session.file, Session.withFile]

theorem sendFrame_open {next : Session} {name : Bytes} {crc : UInt32}
    (fresh : (session.file id).nextOffset = 0)
    (h : sendFrame session ⟨.open, id, 0, name, crc⟩ = some next) : Streaming next id [] := by
  have opened := receiverApply_some id rfl (fun kind => by cases kind) (sendFrame_some h)
  simp only [applyType, openFile] at opened
  split at opened
  · cases opened
  · split at opened
    · cases opened
    · split at opened
      · cases opened
      · split at opened
        · cases opened
        · split at opened
          · cases opened
          · cases opened
            refine ⟨?_, ?_⟩
            · simp [Session.file, Session.withFile] at fresh ⊢
              exact fresh.symm
            · simp [Session.file, Session.withFile]

theorem sendFrame_close {next : Session} {received : Bytes}
    (content : session.disk (session.file id).incompletePath = some received)
    (h : sendFrame session ⟨.close, id, 0, [], 0⟩ = some next) :
    next.disk (next.file id).incompletePath = some received ∧
      (next.file id).wasClosed = true := by
  have closed := receiverApply_some id rfl (fun kind => by cases kind) (sendFrame_some h)
  simp only [applyType, closeFile, List.isEmpty_nil, if_true] at closed
  split at closed
  · cases closed
  · cases closed
    refine ⟨?_, ?_⟩
    · simpa [Session.file, Session.withFile] using content
    · simp [Session.file, Session.withFile, noFaults]

/-- Over what the receiver has, the buffered bytes make the local file. -/
structure Mirrors (proxy : Proxy) (session : Session) (file : LocalFile) : Prop where
  content : ∃ received, Streaming session proxy.id received ∧
    file.content = pwrite 0 received proxy.bufferedOffset proxy.cache
  position : file.position = proxy.pos
  size : file.content.length = proxy.fileSize
  cached : proxy.cache.length ≤ cacheSize
  behind : proxy.cache ≠ [] → proxy.bufferedOffset + proxy.cache.length = proxy.pos
  bound : proxy.cache = [] → proxy.pos ≤ int64Max
  sizeBound : proxy.fileSize ≤ max int64Max proxy.pos

theorem flushProxy_mirrors {remote after : Remote} {file : LocalFile}
    (mirrors : Mirrors remote.proxy remote.session file)
    (h : flushProxy remote = some after) :
    Mirrors after.proxy after.session file ∧ after.proxy = { remote.proxy with cache := [] } := by
  simp only [flushProxy] at h
  split at h
  · next empty =>
    cases h
    refine ⟨mirrors, ?_⟩
    rw [← empty]
  · next some =>
    obtain ⟨session, sent, rfl⟩ := Option.map_eq_some_iff.mp h
    obtain ⟨received, streaming, overlaid⟩ := mirrors.content
    obtain ⟨written, inside⟩ := sendFrame_write streaming sent
    rw [mirrors.behind some] at inside
    refine ⟨⟨⟨_, written, overlaid⟩, mirrors.position, mirrors.size, Nat.zero_le _, ?_, ?_,
      mirrors.sizeBound⟩, rfl⟩
    · intro none
      exact absurd rfl none
    · exact fun _ => inside

theorem makeRoom_mirrors {remote after : Remote} {file : LocalFile}
    (mirrors : Mirrors remote.proxy remote.session file) (h : makeRoom remote = some after) :
    Mirrors after.proxy after.session file ∧ after.proxy.cache.length < cacheSize := by
  simp only [makeRoom] at h
  split at h
  · obtain ⟨kept, same⟩ := flushProxy_mirrors mirrors h
    refine ⟨kept, ?_⟩
    rw [same]
    exact Nat.zero_lt_of_ne_zero (by decide : cacheSize ≠ 0)
  · next room =>
    cases h
    have cached := mirrors.cached
    exact ⟨mirrors, by omega⟩

theorem bufferBytes_mirrors {file : LocalFile} (mirrors : Mirrors proxy session file)
    {data : Bytes} (some : data ≠ []) (room : proxy.cache.length + data.length ≤ cacheSize) :
    Mirrors (bufferBytes proxy data) session (file.write data) := by
  obtain ⟨received, streaming, overlaid⟩ := mirrors.content
  have size := mirrors.size
  have grown : (pwrite 0 file.content file.position data).length =
      (bufferBytes proxy data).fileSize := by
    rw [SparseFile.length_pwrite_of_ne_nil some, mirrors.position]
    simp only [bufferBytes]
    split <;> omega
  refine ⟨⟨received, streaming, ?_⟩, ?_, grown, ?_, ?_, ?_, ?_⟩
  · change pwrite 0 file.content file.position data = _
    rw [overlaid, mirrors.position]
    by_cases empty : proxy.cache = []
    · simp [bufferBytes, empty]
    · rw [← mirrors.behind empty, SparseFile.pwrite_append]
      simp [bufferBytes, empty]
  · change file.position + data.length = proxy.pos + data.length
    rw [mirrors.position]
  · simpa [bufferBytes] using room
  · intro _
    by_cases empty : proxy.cache = []
    · simp [bufferBytes, empty]
    · have behind := mirrors.behind empty
      simp only [bufferBytes, empty, if_false, List.length_append]
      omega
  · intro none
    simp [bufferBytes, some] at none
  · have bound := mirrors.sizeBound
    simp only [bufferBytes]
    split <;> omega

theorem writeLoop_mirrors {fuel : Nat} {remote after : Remote} {data rest : Bytes}
    {file : LocalFile} (mirrors : Mirrors remote.proxy remote.session file)
    (enough : data.length ≤ fuel) (h : writeLoop fuel remote data = some (after, rest)) :
    Mirrors after.proxy after.session (file.write data) ∧ rest = [] := by
  induction fuel generalizing remote data file with
  | zero =>
    cases List.eq_nil_of_length_eq_zero (Nat.le_zero.mp enough)
    cases h
    exact ⟨mirrors, rfl⟩
  | succ fuel ih =>
    rw [writeLoop] at h
    split at h
    · next none =>
      subst none
      cases h
      exact ⟨mirrors, rfl⟩
    · next some =>
      obtain ⟨roomy, made, later⟩ := Option.bind_eq_some_iff.mp h
      obtain ⟨kept, room⟩ := makeRoom_mirrors mirrors made
      have positive := List.length_pos_of_ne_nil some
      have least : 0 < min data.length (cacheSize - roomy.proxy.cache.length) := by omega
      have taken : (data.take (min data.length (cacheSize - roomy.proxy.cache.length))).length =
          min data.length (cacheSize - roomy.proxy.cache.length) := by
        rw [List.length_take]
        omega
      have front : data.take (min data.length (cacheSize - roomy.proxy.cache.length)) ≠ [] :=
        List.ne_nil_of_length_pos (by omega)
      have buffered := bufferBytes_mirrors kept front (by omega)
      have fewer : (data.drop
          (min data.length (cacheSize - roomy.proxy.cache.length))).length ≤ fuel := by
        rw [List.length_drop]
        omega
      have whole : (file.write
          (data.take (min data.length (cacheSize - roomy.proxy.cache.length)))).write
            (data.drop (min data.length (cacheSize - roomy.proxy.cache.length))) =
              file.write data := by
        simp only [LocalFile.write, SparseFile.pwrite_append, List.take_append_drop, Nat.add_assoc,
          ← List.length_append]
      rw [← whole]
      exact ih buffered fewer later

theorem seekTarget_eq {file : LocalFile} (mirrors : Mirrors proxy session file)
    (empty : proxy.cache = []) (offset : Int) (whence : Whence) :
    file.target offset whence = (seekTarget proxy offset whence).map fun target : Nat =>
      (target : Int) := by
  have inside := mirrors.bound empty
  have bound := mirrors.sizeBound
  have position := mirrors.position
  have size := mirrors.size
  have reach (base : Nat) (low : base ≤ int64Max) :
      (if (base : Int) + offset < 0 ∨ (base : Int) + offset > int64Max then none
        else some ((base : Int) + offset)) =
      Option.map (fun target : Nat => (target : Int))
        (if offset < 0 ∧ offset.natAbs > base ∨
            offset ≥ 0 ∧ offset.natAbs > (int64Max + 2 ^ 64 - base) % 2 ^ 64 then none
          else some (if offset < 0 then base - offset.natAbs else base + offset.natAbs)) := by
    have small : (int64Max + 2 ^ 64 - base) % 2 ^ 64 = int64Max - base := by
      unfold int64Max at low ⊢
      omega
    rw [small]
    by_cases outside : (base : Int) + offset < 0 ∨ (base : Int) + offset > int64Max
    · rw [if_pos outside, if_pos (by omega)]
      rfl
    · rw [if_neg outside, if_neg (by omega), Option.map_some]
      congr 1
      split <;> omega
  cases whence with
  | set => exact reach 0 (Nat.zero_le _)
  | cur =>
    simp only [LocalFile.target, seekTarget, Option.bind_some, position]
    exact reach proxy.pos inside
  | «end» =>
    simp only [LocalFile.target, seekTarget, Option.bind_some, size]
    exact reach proxy.fileSize (by omega)
  | other => rfl

theorem seekTarget_le {file : LocalFile} (mirrors : Mirrors proxy session file)
    (empty : proxy.cache = []) {offset : Int} {whence : Whence} {target : Nat}
    (h : seekTarget proxy offset whence = some target) :
    target ≤ int64Max := by
  have same := seekTarget_eq mirrors empty offset whence
  rw [h, Option.map_some] at same
  unfold LocalFile.target at same
  obtain ⟨base, _, inside⟩ := Option.bind_eq_some_iff.mp same
  split at inside
  · contradiction
  · have equal := Option.some.inj inside
    omega

theorem Mirrors.seek_none {file : LocalFile} (mirrors : Mirrors proxy session file) :
    Mirrors { proxy with pos := (none : Option Nat).getD proxy.pos } session
      { file with
        position := (((none : Option Nat).map fun target : Nat => (target : Int)).map
          Int.toNat).getD file.position } :=
  mirrors

theorem Mirrors.seek_some {file : LocalFile} (mirrors : Mirrors proxy session file)
    (empty : proxy.cache = []) {target : Nat} (inside : target ≤ int64Max) :
    Mirrors { proxy with pos := (some target).getD proxy.pos } session
      { file with
        position := (((some target).map fun target : Nat => (target : Int)).map
          Int.toNat).getD file.position } := by
  have bound := mirrors.bound empty
  have size := mirrors.sizeBound
  refine { mirrors with
    position := rfl
    behind := fun buffered => absurd empty buffered
    bound := fun _ => inside
    sizeBound := ?_ }
  dsimp only
  omega

/-- While the proxy is open it mirrors the local file; closed, the receiver has it. -/
structure Faithful (saving : Saving) : Prop where
  mirrors : saving.closed = false →
    Mirrors saving.proxy saving.session saving.localFile
  delivered : saving.closed = true →
    saving.session.disk (saving.session.file saving.proxy.id).incompletePath =
      some saving.localFile.content
  answers : ∀ answer ∈ saving.answers, answer.1 = answer.2

theorem answers_cons {answers : List (Int × Int)} {left right : Int} (same : left = right)
    (older : ∀ answer ∈ answers, answer.1 = answer.2) :
    ∀ answer ∈ (left, right) :: answers, answer.1 = answer.2 := by
  intro answer member
  cases List.mem_cons.mp member with
  | inl newest => rw [newest, same]
  | inr rest => exact older answer rest

theorem Mirrors.arrived {file : LocalFile} (mirrors : Mirrors proxy session file)
    (empty : proxy.cache = []) :
    session.disk (session.file proxy.id).incompletePath = some file.content := by
  obtain ⟨received, streaming, overlaid⟩ := mirrors.content
  rw [overlaid, empty, SparseFile.pwrite_nil]
  exact streaming.content

theorem fileStep_faithful {saving next : Saving} (faithful : Faithful saving)
    {action : FileAction} (h : fileStep saving action = some next) : Faithful next := by
  cases standing : saving.closed with
  | true => cases action <;> simp [fileStep, standing] at h
  | false =>
    have mirrors := faithful.mirrors standing
    have answers := faithful.answers
    cases action with
    | write data =>
      simp only [fileStep, standing, Bool.false_eq_true, if_false] at h
      obtain ⟨⟨remote, rest⟩, written, rfl⟩ := Option.map_eq_some_iff.mp h
      obtain ⟨kept, rfl⟩ := writeLoop_mirrors mirrors (Nat.le_refl _) written
      refine ⟨fun _ => kept, fun closed => ?_, answers_cons rfl answers⟩
      exact absurd closed Bool.false_ne_true
    | seek offset whence =>
      simp only [fileStep, standing, Bool.false_eq_true, if_false] at h
      obtain ⟨remote, flushed, rfl⟩ := Option.map_eq_some_iff.mp h
      obtain ⟨kept, same⟩ := flushProxy_mirrors mirrors flushed
      have empty : remote.proxy.cache = [] := by rw [same]
      have agreed := seekTarget_eq kept empty offset whence
      refine ⟨fun _ => ?_, fun closed => ?_, answers_cons ?_ answers⟩
      · dsimp only
        rw [agreed]
        cases sought : seekTarget remote.proxy offset whence with
        | none => exact kept.seek_none
        | some target =>
          exact kept.seek_some empty (seekTarget_le kept empty sought)
      · exact absurd closed Bool.false_ne_true
      · rw [agreed, Option.isSome_map]
    | flush =>
      simp only [fileStep, standing, Bool.false_eq_true, if_false] at h
      obtain ⟨remote, flushed, rfl⟩ := Option.map_eq_some_iff.mp h
      refine ⟨fun _ => (flushProxy_mirrors mirrors flushed).1, fun closed => ?_,
        answers_cons rfl answers⟩
      exact absurd closed Bool.false_ne_true
    | tell =>
      simp only [fileStep, standing, Bool.false_eq_true, if_false, Option.some.injEq] at h
      subst h
      refine ⟨fun _ => mirrors, fun closed => ?_, answers_cons ?_ answers⟩
      · exact absurd closed Bool.false_ne_true
      · rw [mirrors.position]
    | close =>
      simp only [fileStep, standing, Bool.false_eq_true, if_false] at h
      obtain ⟨remote, flushed, closing⟩ := Option.bind_eq_some_iff.mp h
      obtain ⟨session, sent, rfl⟩ := Option.map_eq_some_iff.mp closing
      obtain ⟨kept, same⟩ := flushProxy_mirrors mirrors flushed
      have empty : remote.proxy.cache = [] := by rw [same]
      refine ⟨fun unfinished => ?_, fun _ => ?_, answers_cons rfl answers⟩
      · exact absurd unfinished.symm Bool.false_ne_true
      · exact (sendFrame_close (kept.arrived empty) sent).1

theorem run_faithful {saving final : Saving} {actions : List FileAction}
    (faithful : Faithful saving) (h : Machine.run fileStep saving actions = some final) :
    Faithful final :=
  Machine.run_invariant Faithful (fun _ _ _ kept taken => fileStep_faithful kept taken) faithful h

theorem openProxy_faithful {name : Bytes} {opened : Saving} (unused : session.file id = noFile)
    (h : openProxy session id name = some opened) : Faithful opened := by
  obtain ⟨after, sent, rfl⟩ := Option.map_eq_some_iff.mp h
  have fresh : (session.file id).nextOffset = 0 := by rw [unused, noFile]
  have streaming := sendFrame_open fresh sent
  refine ⟨fun _ => ?_, fun closed => absurd closed Bool.false_ne_true, by simp⟩
  refine ⟨⟨[], streaming, rfl⟩, rfl, rfl, Nat.zero_le _, ?_, ?_, Nat.zero_le _⟩
  · intro buffered
    exact absurd rfl buffered
  · exact fun _ => Nat.zero_le _

/-- The proxy with its receiver refines a plain file: after any calls every answer is the local
file's, what the receiver has is the local file up to the bytes still buffered, and once the
buffer has been sent or the stream is closed it is the local file. -/
theorem proxy_refines_file {session : Session} {id : Fin maxFiles} {name : Bytes}
    {opened final : Saving} {actions : List FileAction} (unused : session.file id = noFile)
    (start : openProxy session id name = some opened)
    (h : Machine.run fileStep opened actions = some final) :
    (∀ answer ∈ final.answers, answer.1 = answer.2) ∧
      ∃ received,
        final.session.disk (final.session.file final.proxy.id).incompletePath = some received ∧
        final.localFile.content =
          (if final.closed then received
            else pwrite 0 received final.proxy.bufferedOffset final.proxy.cache) ∧
        (final.proxy.cache = [] → final.localFile.content = received) := by
  have faithful := run_faithful (openProxy_faithful unused start) h
  refine ⟨faithful.answers, ?_⟩
  cases standing : final.closed with
  | true => exact ⟨_, faithful.delivered standing, rfl, fun _ => rfl⟩
  | false =>
    obtain ⟨received, streaming, overlaid⟩ := (faithful.mirrors standing).content
    refine ⟨received, streaming.content, overlaid, fun empty => ?_⟩
    rw [overlaid, empty, SparseFile.pwrite_nil]

/-- A stream that is patched in front, continued behind its end and closed. -/
def patchedStream : List FileAction :=
  [.write [1, 2, 3], .seek 1 .set, .write [9], .tell, .seek 2 .end, .write [7], .seek (-9) .cur,
    .tell, .flush, .close]

def emptyClient : Session := ⟨receiverInit [slashByte, 100] true, fun _ => none⟩

def onlyFile : Fin maxFiles := ⟨0, maxFiles_pos⟩

theorem proxy_refines_file_patched :
    ∃ opened final, openProxy emptyClient onlyFile [97] = some opened ∧
      Machine.run fileStep opened patchedStream = some final ∧
      final.localFile.content = [1, 9, 3, 0, 0, 7] ∧
      ∃ received,
        final.session.disk (final.session.file final.proxy.id).incompletePath = some received ∧
        final.localFile.content = received := by
  have runs : ((openProxy emptyClient onlyFile [97]).any fun opened =>
      (Machine.run fileStep opened patchedStream).any fun final =>
        final.closed && final.localFile.content == [1, 9, 3, 0, 0, 7]) = true := by
    decide +kernel
  obtain ⟨opened, start, ran⟩ := (Option.any_eq_true _ _).mp runs
  obtain ⟨final, last, reached⟩ := (Option.any_eq_true _ _).mp ran
  simp only [Bool.and_eq_true, beq_iff_eq] at reached
  obtain ⟨_, received, stored, same, _⟩ := proxy_refines_file rfl start last
  rw [reached.1, if_pos rfl] at same
  exact ⟨opened, final, start, last, reached.2, received, stored, same⟩

end MisrcGui.LocalSave
