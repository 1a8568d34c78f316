import Defib.Framework.RingBuffer
import Defib.Wire.ProtoRecv

/-!
# The software receive FIFO

`soft_rx` of `agent/protocol.c`: a ring into which `soft_rx_drain` empties the receive FIFO of the
UART, and from which `soft_rx_get` and the read loop of `proto_recv` take bytes.

Words arrive at any time.  The events of a run are therefore the arrivals, the calls, and the parts
of a call between which words may arrive: a turn of the loop of `soft_rx_drain`, and what
`soft_rx_get` does behind it.
-/

namespace Defib

/-- `sizeof(soft_rx)`. -/
def softRxSize : ℕ := 72 * 1024

/-- A word in the receive FIFO: a byte, or a break or framing error. -/
inductive RxWord
  | byte (b : UInt8)
  | lineError
  deriving DecidableEq, Repr

/-- The byte of a word. -/
def RxWord.byte? : RxWord → Option UInt8
  | byte b => some b
  | lineError => none

/-- `soft_rx` with `soft_rx_head` and `soft_rx_tail`, and the receive FIFO.  The FIFO does not
overrun here: that is a line error as well. -/
structure SoftRx where
  ring : RingBuffer UInt8
  fifo : List RxWord

/-- `uart_getc_safe`. -/
def uartGetcSafe : List RxWord → Fetch × List RxWord
  | [] => (.empty, [])
  | .byte b :: fifo => (.byte b, fifo)
  | .lineError :: fifo => (.lineError, fifo)

namespace SoftRx

/-- When the agent starts. -/
def start : SoftRx := ⟨⟨fun _ => 0, 0, 0⟩, []⟩

variable (s : SoftRx)

/-- `uart_readable`. -/
def uartReadable : Bool := !s.fifo.isEmpty

/-- A turn of the loop of `soft_rx_drain`. -/
def drainTurn : SoftRx :=
  match uartGetcSafe s.fifo with
  | (.byte b, fifo) => ⟨s.ring.push softRxSize b, fifo⟩
  | (.lineError, fifo) => ⟨s.ring, fifo⟩
  | (.empty, fifo) => ⟨s.ring, fifo⟩

/-- The loop of `soft_rx_drain`. -/
def drainLoop : ℕ → SoftRx → SoftRx
  | 0, s => s
  | fuel + 1, s => if s.uartReadable then drainLoop fuel s.drainTurn else s

/-- `soft_rx_drain`, while no word arrives: every turn takes a word. -/
def softRxDrain : SoftRx := drainLoop s.fifo.length s

/-- `soft_rx_get`, behind `soft_rx_drain`. -/
def take : Option UInt8 × SoftRx :=
  ((s.ring.pop softRxSize).1, ⟨(s.ring.pop softRxSize).2, s.fifo⟩)

/-- `soft_rx_get`, while no word arrives. -/
def softRxGet : Option UInt8 × SoftRx := s.softRxDrain.take

/-- A byte fetch of `proto_recv`: the ring first, the UART when it is empty. -/
def protoFetch : Fetch × SoftRx :=
  match s.ring.pop softRxSize with
  | (some b, ring) => (.byte b, ⟨ring, s.fifo⟩)
  | (none, ring) => ((uartGetcSafe s.fifo).1, ⟨ring, (uartGetcSafe s.fifo).2⟩)

end SoftRx

/-- The byte of a fetch. -/
def Fetch.byte? : Fetch → Option UInt8
  | byte b => some b
  | lineError => none
  | empty => none

/-- What happens next. -/
inductive RxEvent
  | arrive (w : RxWord)
  | turn
  | drain
  | take
  | get
  | fetch
  deriving DecidableEq

/-- What an event does: the byte that is fetched, and the state behind it. -/
def SoftRx.step (s : SoftRx) : RxEvent → Option UInt8 × SoftRx
  | .arrive w => (none, ⟨s.ring, s.fifo ++ [w]⟩)
  | .turn => (none, s.drainTurn)
  | .drain => (none, s.softRxDrain)
  | .take => s.take
  | .get => s.softRxGet
  | .fetch => (s.protoFetch.1.byte?, s.protoFetch.2)

/-- A run: the bytes fetched, and the state behind it. -/
def SoftRx.run : SoftRx → List RxEvent → List UInt8 × SoftRx
  | s, [] => ([], s)
  | s, e :: es => ((s.step e).1.toList ++ ((s.step e).2.run es).1, ((s.step e).2.run es).2)

/-- The byte that arrives. -/
def RxEvent.arrived : RxEvent → Option UInt8
  | arrive w => w.byte?
  | _ => none

/-- The bytes that arrive in a run. -/
def arrivedBytes (es : List RxEvent) : List UInt8 := es.filterMap RxEvent.arrived

end Defib
