import Mathlib.Data.PNat.Basic
import Defib.Framework.StreamContract
import Defib.Host.Recv

/-!
# Byte-stream transports

`MockTransport`, `Rfc2217Transport` and `SocketTransport` of `src/defib/transport/`, as far as they
receive: `read`, `unread` and `bytes_waiting`, and `recv_packet` on a transport with a `_port`.

Bytes come in at any time.  What comes in while a call waits, and what the port or the kernel
answers it, is a script of the call; `none` says that the call does not follow its script, because
it returns earlier or waits for longer.  Times are in milliseconds.
-/

namespace Defib

/-- What `read` raises.  All but the last two are a `TransportTimeout`. -/
inductive ReadError
  /-- "No data available". -/
  | noData
  /-- "No data available (wanted `size` bytes)". -/
  | wanted (size : ℕ)
  /-- "Read timeout (`timeout`s)". -/
  | readTimeout (timeout : Option ℤ)
  /-- "Socket read error: `e`". -/
  | readError (e : String)
  /-- "Socket closed by remote end". -/
  | closed
  deriving DecidableEq, Repr

abbrev ReadResult := Except ReadError (List UInt8)

/-! ## The mock -/

structure MockTransport where
  rxBuffer : List UInt8
  closed : Bool
  deriving DecidableEq, Repr

namespace MockTransport

def new : MockTransport := ⟨[], false⟩

def enqueueRx (t : MockTransport) (data : List UInt8) : MockTransport :=
  { t with rxBuffer := t.rxBuffer ++ data }

/-- The end of `read`: up to `size` bytes off the front. -/
def take (t : MockTransport) (size : ℕ) : ReadResult × MockTransport :=
  (.ok (t.rxBuffer.take (min size t.rxBuffer.length)),
    { t with rxBuffer := t.rxBuffer.drop (min size t.rxBuffer.length) })

/-- `asleep` is enqueued during the `asyncio.sleep`, if there is one. -/
def read (t : MockTransport) (size : ℕ) (timeout : Option ℤ) (asleep : List UInt8) :
    Option (ReadResult × MockTransport) :=
  if t.closed then
    if asleep = [] then some (.ok [], t) else none
  else if t.rxBuffer = [] then
    match timeout with
    | none => if asleep = [] then some (.error (.wanted size), t) else none
    | some timeout =>
        if timeout ≤ 0 then
          if asleep = [] then some (.error .noData, t) else none
        else if asleep = [] then some (.error (.wanted size), t)
        else some ((t.enqueueRx asleep).take size)
  else if asleep = [] then some (t.take size) else none

def unread (t : MockTransport) (data : List UInt8) : MockTransport :=
  { t with rxBuffer := data ++ t.rxBuffer }

def bytesWaiting (t : MockTransport) : ℕ := t.rxBuffer.length

inductive Event
  | enqueueRx (data : List UInt8)
  | read (n : ℕ+) (timeout : Option ℤ) (asleep : List UInt8)
  | unread (data : List UInt8)
  | bytesWaiting

def step (t : MockTransport) : Event → Option (MockTransport × List (Seen UInt8 ReadError))
  | .enqueueRx data => some (t.enqueueRx data, [.arrived data])
  | .read n timeout asleep =>
      (t.read n timeout asleep).map fun r => (r.2, [.arrived asleep, .read n r.1])
  | .unread data => some (t.unread data, [.unread data])
  | .bytesWaiting => some (t, [.waiting t.bytesWaiting])

end MockTransport

/-! ## RFC 2217 -/

/-- One call of `port.read`: what comes in before it returns, how many bytes it returns, which may
be more than it was asked for, and whether the deadline of the caller has passed by then. -/
structure Poll where
  arrivals : List UInt8
  count : ℕ
  late : Bool

/-- What comes in during a call that reads the port this often. -/
def arrivals (polls : List Poll) : List UInt8 := polls.flatMap Poll.arrivals

/-- `port.read`, on the receive buffer of the port. -/
def portRead (port : List UInt8) (poll : Poll) : List UInt8 × List UInt8 :=
  ((port ++ poll.arrivals).take poll.count, (port ++ poll.arrivals).drop poll.count)

/-- One `port.read` after the other: what each returns, and what the port has left. -/
def portReads (port : List UInt8) : List Poll → List (List UInt8) × List UInt8
  | [] => ([], port)
  | poll :: polls =>
      ((portRead port poll).1 :: (portReads (portRead port poll).2 polls).1,
        (portReads (portRead port poll).2 polls).2)

/-- `port` is the receive buffer of `_port`, and `portBuf` its entry of `_port_buffers`. -/
structure Rfc2217Transport where
  port : List UInt8
  buf : List UInt8
  portBuf : List UInt8
  deriving DecidableEq, Repr

namespace Rfc2217Transport

def new : Rfc2217Transport := ⟨[], [], []⟩

/-- One `port.read` of the loop of `read`, which has `buf` so far: what the port returns beyond
`size` bytes is kept in `_buf`. -/
def poll (size : ℕ) (buf : List UInt8) (t : Rfc2217Transport) (poll : Poll) :
    List UInt8 × Rfc2217Transport :=
  let remaining := size - buf.length
  let (chunk, port) := portRead t.port poll
  if remaining < chunk.length then
    (buf ++ chunk.take remaining, { t with port := port, buf := t.buf ++ chunk.drop remaining })
  else (buf ++ chunk, { t with port := port })

/-- The `while` loop of `read`. -/
def readLoop (size : ℕ) (timeout : Option ℤ) :
    List UInt8 → Rfc2217Transport → List Poll → Option (ReadResult × Rfc2217Transport)
  | buf, t, [] => if size ≤ buf.length then some (.ok buf, t) else none
  | buf, t, p :: polls =>
      if size ≤ buf.length then none
      else
        let (buf, t) := poll size buf t p
        if size ≤ buf.length ∨ timeout = none ∨ p.late = false then
          readLoop size timeout buf t polls
        -- the deadline has passed: no further poll
        else if polls ≠ [] then none
        else if buf ≠ [] then some (.ok buf, t)
        else some (.error (.readTimeout timeout), t)

def read (t : Rfc2217Transport) (size : ℕ) (timeout : Option ℤ) (polls : List Poll) :
    Option (ReadResult × Rfc2217Transport) :=
  let take := min size t.buf.length
  readLoop size timeout (t.buf.take take) { t with buf := t.buf.drop take } polls

def unread (t : Rfc2217Transport) (data : List UInt8) : Rfc2217Transport :=
  { t with buf := data ++ t.buf }

def bytesWaiting (t : Rfc2217Transport) : ℕ := t.buf.length + t.port.length

/-- `recv_packet`, which is `_recv_packet_sync` on `_port`: the packet, unless it times out, and the
bytes it walked.  A deadline that has `expired` at the start leaves everything as it was. -/
def recvPacket (t : Rfc2217Transport) (expired : Bool) (polls : List Poll) :
    Option (Option (UInt8 × List UInt8) × List UInt8 × Rfc2217Transport) :=
  let reads := (portReads t.port polls).1
  let t' := { t with port := (portReads t.port polls).2 }
  if expired then
    if polls = [] then some (none, [], t) else none
  else match recvPacketSync t.portBuf reads with
    | none => some (none, t.portBuf ++ reads.flatten, { t' with portBuf := [] })
    | some r =>
        if r.reads = [] then
          some (some r.pkt, (t.portBuf ++ reads.flatten).rdrop r.leftover.length,
            { t' with portBuf := r.leftover })
        else none

inductive Event
  | arrive (data : List UInt8)
  | read (n : ℕ+) (timeout : Option ℤ) (polls : List Poll)
  | unread (data : List UInt8)
  | bytesWaiting
  | recvPacket (expired : Bool) (polls : List Poll)

def step (t : Rfc2217Transport) : Event → Option (Rfc2217Transport × List (Seen UInt8 ReadError))
  | .arrive data => some ({ t with port := t.port ++ data }, [.arrived data])
  | .read n timeout polls =>
      (t.read n timeout polls).map fun r => (r.2, [.arrived (arrivals polls), .read n r.1])
  | .unread data => some (t.unread data, [.unread data])
  | .bytesWaiting => some (t, [.waiting t.bytesWaiting])
  | .recvPacket expired polls =>
      (t.recvPacket expired polls).map fun r => (r.2.2, [.arrived (arrivals polls), .took r.2.1])

end Rfc2217Transport

/-! ## Sockets -/

/-- What `sock_recv` comes back with: up to `count` bytes, and at least one of those that are there,
or an exception. -/
inductive SockRecv
  | data (count : ℕ)
  | timeout
  | error (e : String)

/-- `received` is the receive queue of the kernel. -/
structure SocketTransport where
  received : List UInt8
  buf : List UInt8
  deriving DecidableEq, Repr

namespace SocketTransport

def new : SocketTransport := ⟨[], []⟩

/-- `arrivals` come in while `sock_recv` waits, if it is called. -/
def read (t : SocketTransport) (size : ℕ) (timeout : Option ℤ) (arrivals : List UInt8)
    (recv : SockRecv) : Option (ReadResult × SocketTransport) :=
  if t.buf ≠ [] then
    if arrivals = [] then some (.ok (t.buf.take size), { t with buf := t.buf.drop size }) else none
  else
    let received := t.received ++ arrivals
    match recv with
    | .timeout => some (.error (.readTimeout timeout), { t with received := received })
    | .error e => some (.error (.readError e), { t with received := received })
    | .data count =>
        let data := received.take (min size (max count 1))
        let t := { t with received := received.drop (min size (max count 1)) }
        if data = [] then some (.error .closed, t) else some (.ok data, t)

def bytesWaiting (t : SocketTransport) : ℕ := t.buf.length

inductive Event
  | arrive (data : List UInt8)
  | read (n : ℕ+) (timeout : Option ℤ) (arrivals : List UInt8) (recv : SockRecv)
  | bytesWaiting

def step (t : SocketTransport) : Event → Option (SocketTransport × List (Seen UInt8 ReadError))
  | .arrive data => some ({ t with received := t.received ++ data }, [.arrived data])
  | .read n timeout arrivals recv =>
      (t.read n timeout arrivals recv).map fun r => (r.2, [.arrived arrivals, .read n r.1])
  | .bytesWaiting => some (t, [.waiting t.bytesWaiting])

end SocketTransport

end Defib
