import MisrcGui.Library.Layout
import MisrcGui.Library.Percent
import MisrcGui.Net.BroadcastRuns

/-! The mirrored stream of `gui_net.c` from the server's fanout to the client's ring: the
handler of each connection, the bytes in transit, and the pump of the client. -/
namespace MisrcGui.Net.Ingest
open Library
open Library.Layout (units)

def greeting : List UInt8 :=
  Percent.ascii "HTTP/1.0 200 OK\r\nContent-Type: application/octet-stream\r\n\r\n"

/-- Where the stream handler of `server_handle_request` is; `send` has the bytes that
`net_send_all` has left. -/
inductive Place where
  | greet
  | subscribe
  | read
  | wait
  | send (rest : List UInt8)
  | probe
  | unsubscribe
  | done
deriving DecidableEq

/-- A connection and its handler: all bytes sent, how many the client has received, and
what the client has committed of them. A send that fails breaks it for good. -/
structure Connection where
  place : Place
  broken : Bool
  sent : List UInt8
  received : Nat
  committed : List UInt8
deriving DecidableEq

/-- `client_pump_thread`, with the connection it reads and `hbuf` or `inbuf`. -/
inductive Pump where
  | apart
  | headers (conn : Nat) (hbuf : List UInt8)
  | body (conn : Nat) (inbuf : List UInt8)
deriving DecidableEq

/-- A connection is known by its index, and so is its subscription. -/
structure System where
  fanout : Broadcast.Fanout UInt8
  pushed : List UInt8
  conns : List Connection
  pump : Pump
  ring : List UInt8
deriving DecidableEq

def init : System := ⟨Broadcast.init, [], [], .apart, []⟩

def accepted : Connection := ⟨.greet, false, [], 0, []⟩

def setConn (s : System) (id : Nat) (c : Connection) : System :=
  { s with conns := s.conns.set id c }

/-- `pc->frame_bytes`. -/
def frameBytes (configured : Int) : Nat := if 0 < configured then configured.toNat else 4

def hbufSize : Nat := 1024
def inbufSize : Nat := 128 * 1024

/-- The offset after the first `"\r\n\r\n"` of a string that ends at its first zero. -/
def bodyOffset : List UInt8 → Option Nat
  | [] => none
  | c :: rest =>
    if c = 0 then none
    else if (c :: rest).take 4 = [13, 10, 13, 10] then some 4
    else (bodyOffset rest).map (· + 1)

/-- The whole frames of `inbuf` go to the ring, if it has room, and out of `inbuf`. -/
def commit (frame : Nat) (s : System) (id : Nat) (c : Connection) (inbuf : List UInt8)
    (room : Bool) : System :=
  let aligned := inbuf.length / frame * frame
  let frames := if room then inbuf.take aligned else []
  { s with
    conns := s.conns.set id { c with committed := c.committed ++ frames }
    pump := .body id (inbuf.drop aligned)
    ring := s.ring ++ frames }

/-- One `recv` that returns `n` bytes or fewer, and what the pump does with them. -/
def receive (frame : Nat) (s : System) (n : Nat) (room : Bool) : Option System :=
  match s.pump with
  | .apart => none
  | .headers id hbuf =>
    s.conns[id]?.bind fun c =>
      let piece := (c.sent.drop c.received).take (min n (hbufSize - 1 - hbuf.length))
      let c := { c with received := c.received + piece.length }
      let hbuf := hbuf ++ piece
      if piece = [] then none
      else match bodyOffset hbuf with
        | none => some { setConn s id c with pump := .headers id hbuf }
        | some offset =>
          some { setConn s id c with pump := .body id ((hbuf.drop offset).take inbufSize) }
  | .body id inbuf =>
    s.conns[id]?.bind fun c =>
      let piece := (c.sent.drop c.received).take (min n (inbufSize - inbuf.length))
      let c := { c with received := c.received + piece.length }
      let inbuf := inbuf ++ piece
      if piece = [] then none
      else if inbuf.length / frame * frame = 0 then
        some { setConn s id c with pump := .body id inbuf }
      else some (commit frame s id c inbuf room)

/-- The body loop at a full `inbuf`. -/
def flush (frame : Nat) (s : System) (room : Bool) : Option System :=
  match s.pump with
  | .body id inbuf =>
    s.conns[id]?.bind fun c =>
      if inbuf.length < inbufSize then none
      else if inbuf.length / frame * frame = 0 then some { s with pump := .body id [] }
      else some (commit frame s id c inbuf room)
  | _ => none

/-- Where a handler goes when `net_fanout_read` has returned, if it has. -/
def afterRead (f : Broadcast.Fanout UInt8) (id : Nat) : Place :=
  match Broadcast.find f id with
  | none => .unsubscribe
  | some sub =>
    if sub.call.isSome then .wait
    else match sub.results.getLast? with
      | some (some []) => .probe
      | some (some bytes) => .send bytes
      | _ => .unsubscribe

def onFanout (maxBytes : Nat) (s : System) (id : Nat) (c : Connection)
    (action : Broadcast.Action UInt8) (place : Broadcast.Fanout UInt8 → Place) : Option System :=
  (Broadcast.step maxBytes s.fanout action).map fun f =>
    { setConn s id { c with place := place f } with fanout := f }

/-- The steps of a handler. `net_fanout_read` may have any capacity; a wait in it ends when
it is woken or its time is up. -/
inductive Turn where
  | greet (sent : Nat)
  | subscribe
  | read (cap : Nat) (waits : Bool)
  | wake
  | expire
  | send (n : Nat)
  | fail
  | probe (closed : Bool)
  | unsubscribe

def handle (maxBytes : Nat) (s : System) (id : Nat) (c : Connection) : Turn → Option System
  | .greet n =>
    if c.place = .greet then
      some (setConn s id { c with
        place := .subscribe
        broken := n < greeting.length
        sent := greeting.take n })
    else none
  | .subscribe =>
    if c.place = .subscribe then onFanout maxBytes s id c (.subscribe id) fun _ => .read else none
  | .read cap waits =>
    if c.place = .read then onFanout maxBytes s id c (.read id cap waits) (afterRead · id) else none
  | .wake =>
    if c.place = .wait then onFanout maxBytes s id c (.wake id) (afterRead · id) else none
  | .expire =>
    if c.place = .wait then onFanout maxBytes s id c (.expire id) (afterRead · id) else none
  | .send n =>
    match c.place with
    | .send rest =>
      if c.broken ∨ n = 0 then none
      else
        let left := rest.drop n
        some (setConn s id { c with
          place := if left = [] then .read else .send left
          sent := c.sent ++ rest.take n })
    | _ => none
  | .fail =>
    match c.place with
    | .send _ => some (setConn s id { c with place := .unsubscribe, broken := true })
    | _ => none
  | .probe closed =>
    if c.place = .probe then
      some (setConn s id { c with place := if closed then .unsubscribe else .read })
    else none
  | .unsubscribe =>
    if c.place = .unsubscribe then onFanout maxBytes s id c (.unsubscribe id) fun _ => .done
    else none

/-- `accept` is another client's connection. The pump leaves a connection when its `recv`
fails or returns 0, when `hbuf` is full, or when it is stopped. -/
inductive Action where
  | push (data : List UInt8) (allocated : Bool)
  | shutdown
  | accept
  | handler (id : Nat) (turn : Turn)
  | connect
  | receive (n : Nat) (room : Bool)
  | flush (room : Bool)
  | leave

def step (maxBytes frame : Nat) (s : System) : Action → Option System
  | .push data allocated =>
    if data.length % frame = 0 then
      (Broadcast.step maxBytes s.fanout (.push data allocated)).map fun f =>
        { s with fanout := f, pushed := s.pushed ++ data }
    else none
  | .shutdown =>
    (Broadcast.step maxBytes s.fanout .shutdown).map fun f => { s with fanout := f }
  | .accept => some { s with conns := s.conns ++ [accepted] }
  | .handler id turn => s.conns[id]?.bind fun c => handle maxBytes s id c turn
  | .connect =>
    if s.pump = .apart then
      some { s with conns := s.conns ++ [accepted], pump := .headers s.conns.length [] }
    else none
  | .receive n room => receive frame s n room
  | .flush room => flush frame s room
  | .leave => some { s with pump := .apart }

end MisrcGui.Net.Ingest
