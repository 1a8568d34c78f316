import Defib.Capture.Format

/-!
# Recording and replaying

A `RecordingTransport` notes what goes through it, and a `ReplayTransport` serves what was noted.
The inner transport of a recording is any one that can push bytes back: what is pushed back is read
again before anything else, and what is read and how much of it is up to the transport.
-/

namespace Defib

/-! ## The inner transport -/

/-- What an inner transport does on a read: it raises, or returns at most so many bytes. -/
inductive InnerRead
  | raises
  | returns (count : ℕ)
  deriving DecidableEq, Repr

/-- An inner transport: the bytes pushed back, those that come from the device, and those of them
that were delivered. -/
structure InnerTransport where
  pushed : List UInt8
  incoming : List UInt8
  delivered : List UInt8
  deriving DecidableEq, Repr

namespace InnerTransport

/-- `read`; pushed-back bytes first. -/
def read (t : InnerTransport) (size : ℕ) : InnerRead → Option (List UInt8) × InnerTransport
  | .raises => (none, t)
  | .returns count =>
      let data := (t.pushed ++ t.incoming).take (min size count)
      let fresh := data.length - t.pushed.length
      (some data,
        ⟨t.pushed.drop data.length, t.incoming.drop fresh, t.delivered ++ t.incoming.take fresh⟩)

/-- `unread`. -/
def unread (t : InnerTransport) (data : List UInt8) : InnerTransport :=
  { t with pushed := data ++ t.pushed }

end InnerTransport

/-! ## Recording -/

/-- `RecordingTransport`. -/
structure RecordingTransport where
  inner : InnerTransport
  capture : CaptureFile
  deriving DecidableEq, Repr

namespace RecordingTransport

/-- `read`; the time is looked at when the bytes are there. -/
def read (r : RecordingTransport) (size time : ℕ) (turn : InnerRead) :
    Option (List UInt8) × RecordingTransport :=
  match r.inner.read size turn with
  | (none, inner) => (none, { r with inner })
  | (some data, inner) =>
      if data = [] then (some data, { r with inner })
      else (some data, ⟨inner, r.capture.addRx time data⟩)

/-- `write`; it is recorded before it is made, and however it ends. -/
def write (r : RecordingTransport) (data : List UInt8) (time : ℕ) : RecordingTransport :=
  { r with capture := r.capture.addTx time data }

/-- `unread`. -/
def unread (r : RecordingTransport) (data : List UInt8) : RecordingTransport :=
  { r with inner := r.inner.unread data }

end RecordingTransport

/-- A call made through the recording, with the time it is made at. -/
inductive RecordedCall
  | read (size time : ℕ) (turn : InnerRead)
  | write (data : List UInt8) (time : ℕ)
  /-- The last `count` bytes that were read are pushed back. -/
  | unread (count : ℕ)
  deriving DecidableEq, Repr

/-- A program and the transport it records with: the bytes it has read and not pushed back, and
those it has written. -/
structure Recording where
  transport : RecordingTransport
  consumed : List UInt8
  written : List UInt8
  deriving DecidableEq, Repr

namespace Recording

/-- A new recording of what a device sends. -/
def new (baudrate : ℕ) (chip : Text) (incoming : List UInt8) : Recording :=
  ⟨⟨⟨[], incoming, []⟩, .new baudrate chip⟩, [], []⟩

/-- One call. -/
def step (s : Recording) : RecordedCall → Recording
  | .read size time turn =>
      match s.transport.read size time turn with
      | (none, transport) => { s with transport }
      | (some data, transport) => { s with transport, consumed := s.consumed ++ data }
  | .write data time =>
      { s with transport := s.transport.write data time, written := s.written ++ data }
  | .unread count =>
      let kept := s.consumed.length - count
      { s with
        transport := s.transport.unread (s.consumed.drop kept)
        consumed := s.consumed.take kept }

/-- A sequence of calls. -/
def run (s : Recording) (calls : List RecordedCall) : Recording := calls.foldl step s

end Recording

/-! ## Replaying -/

/-- `ReplayTransport`. -/
structure ReplayTransport where
  rxBuffer : List UInt8
  txLog : List (List UInt8)
  closed : Bool
  deriving DecidableEq, Repr

namespace CaptureFile

/-- The bytes of the records of one direction. -/
def dataOf (d : Direction) (rs : List CaptureRecord) : List UInt8 :=
  (rs.filter fun r => r.direction = d).flatMap CaptureRecord.data

end CaptureFile

namespace ReplayTransport

/-- `ReplayTransport(capture)`. -/
def new (capture : CaptureFile) : ReplayTransport :=
  ⟨CaptureFile.dataOf .rx capture.records, [], false⟩

/-- `read`; without bytes it raises. -/
def read (r : ReplayTransport) (size : ℕ) : Option (List UInt8) × ReplayTransport :=
  if r.closed then (some [], r)
  else if r.rxBuffer = [] then (none, r)
  else (some (r.rxBuffer.take size), { r with rxBuffer := r.rxBuffer.drop size })

/-- What a sequence of reads returns. -/
def reads (r : ReplayTransport) : List ℕ → List UInt8
  | [] => []
  | size :: sizes =>
      let (data, r) := r.read size
      data.getD [] ++ reads r sizes

end ReplayTransport

end Defib
