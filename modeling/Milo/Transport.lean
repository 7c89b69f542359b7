import Milo.Engine.Link

namespace Milo.Transport

open Milo.Lib Milo.Rust Milo.Engine.Link

-- The trait MiloTransport, over a state T of the transport and of whatever is at
-- its other end.
structure MiloTransport (T : Type) where
  readFrame : T → Except Fault (Except LinkError Frame) × T
  writeFrame : T → Frame → Except LinkError Unit × T

-- EmbeddedIoTransport::read_frame. Its read_exact_bytes waits where the std
-- read_exact reports the end of the input, and fills the whole buffer else.
def embeddedReadFrame (build : Build) (input : List Bytes) : Reading :=
  match readExact input 5 with
  | some ([opcode, b0, b1, b2, b3], rest) =>
      let len := fromBeBytes b0 b1 b2 b3
      match build.zeroes len with
      | .error fault => { result := none, allocated := none, rest := rest, fault := some fault }
      | .ok _ =>
          match readExact rest len with
          | none => { result := none, allocated := some len, rest := [] }
          | some (payload, rest) =>
              { result := some (.ok { opcode := opcode, payload := payload })
                allocated := some len
                rest := rest }
  | _ => { result := none, allocated := none, rest := [] }

-- No frame within the bound is too long for a buffer.
theorem zeroes_of_le (build : Build) {len : Nat} (h : len ≤ MAX_FRAME_LEN) :
    build.zeroes len = .ok (Vector.replicate len 0) := by
  have hwide : 2 ^ 31 ≤ 2 ^ (build.width - 1) :=
    Nat.pow_le_pow_right (by decide) (Nat.sub_le_sub_right build.wide 1)
  unfold MAX_FRAME_LEN at h
  exact if_pos (by omega)

-- What one socket read into the 4096-byte chunk can return.
structure Chunk where
  bytes : Bytes
  pos : 0 < bytes.length
  le : bytes.length ≤ 4096
deriving DecidableEq, Repr

inductive Accept where
  | client
  | wouldBlock
  | failed (text : String)
deriving DecidableEq, Repr

inductive Receive where
  | closed
  | data (chunk : Chunk)
  | idle
  | failed (text : String)
deriving DecidableEq, Repr

-- The outside world of the TCP server: what its calls of accept, read and write
-- will return, in order. When a list is used up nobody connects, nobody sends and
-- every write succeeds.
structure Network where
  accepts : List Accept
  receives : List Receive
  sends : List (Except String Unit)
deriving DecidableEq

def Network.accept (n : Network) : Accept × Network :=
  match n.accepts with
  | [] => (.wouldBlock, n)
  | outcome :: accepts => (outcome, { n with accepts := accepts })

def Network.receive (n : Network) : Receive × Network :=
  match n.receives with
  | [] => (.idle, n)
  | outcome :: receives => (outcome, { n with receives := receives })

def Network.send (n : Network) : Except String Unit × Network :=
  match n.sends with
  | [] => (.ok (), n)
  | outcome :: sends => (outcome, { n with sends := sends })

-- A client's stream is known by the number of clients accepted before it.
structure TcpServerTransport where
  client : Option Nat
  buf : Bytes
  accepted : Nat
  network : Network
deriving DecidableEq

namespace TcpServerTransport

def bind (network : Network) : TcpServerTransport :=
  { client := none, buf := [], accepted := 0, network := network }

def dropClient (t : TcpServerTransport) (network : Network) : TcpServerTransport :=
  { t with client := none, buf := [], network := network }

def ensureClient (t : TcpServerTransport) : Except LinkError Unit × TcpServerTransport :=
  match t.client with
  | some _ => (.ok (), t)
  | none =>
      match t.network.accept with
      | (.client, network) =>
          (.ok (), { client := some t.accepted, buf := [], accepted := t.accepted + 1, network := network })
      | (.wouldBlock, network) => (.error (.io "no client"), { t with network := network })
      | (.failed text, network) => (.error (.io text), { t with network := network })

def takeFrame (t : TcpServerTransport) : Option Frame × TcpServerTransport :=
  match bufferHead t.buf with
  | .short => (none, t)
  | .oversized => (none, t.dropClient t.network)
  | .frame frame rest => (some frame, { t with buf := rest })

-- The match on the outcome of stream.read.
def readSocket (t : TcpServerTransport) : Except LinkError Frame × TcpServerTransport :=
  match t.network.receive with
  | (.closed, network) => (.error .connectionClosed, t.dropClient network)
  | (.data chunk, network) =>
      match takeFrame { t with buf := t.buf ++ chunk.bytes, network := network } with
      | (some frame, t) => (.ok frame, t)
      | (none, t) => (.error (.io "partial frame"), t)
  | (.idle, network) => (.error (.io "idle"), { t with network := network })
  | (.failed text, network) => (.error (.io text), t.dropClient network)

def readFrame (t : TcpServerTransport) : Except Fault (Except LinkError Frame) × TcpServerTransport :=
  match t.ensureClient with
  | (.error e, t) => (.ok (.error e), t)
  | (.ok (), t) =>
      match t.takeFrame with
      | (some frame, t) => (.ok (.ok frame), t)
      | (none, t) =>
          match t.client with
          -- expect("client checked above")
          | none => (.error .panic, t)
          | some _ => (.ok t.readSocket.1, t.readSocket.2)

def writeFrame (t : TcpServerTransport) (_frame : Frame) :
    Except LinkError Unit × TcpServerTransport :=
  match t.client with
  | none => (.error .connectionClosed, t)
  | some _ =>
      match t.network.send with
      | (.ok (), network) => (.ok (), { t with network := network })
      | (.error text, network) => (.error (.io text), t.dropClient network)

def transport : MiloTransport TcpServerTransport where
  readFrame := readFrame
  writeFrame := writeFrame

end TcpServerTransport

-- One connection that stays up, for statements about what is said over it: what its
-- reads will return, idle time-outs included, and what has been written to it.
structure Connection where
  incoming : List (Except LinkError Frame)
  outgoing : List Frame

namespace Connection

def readFrame (c : Connection) : Except Fault (Except LinkError Frame) × Connection :=
  match c.incoming with
  | [] => (.ok (.error (.io "idle")), c)
  | outcome :: incoming => (.ok outcome, { c with incoming := incoming })

-- The frames among what will be read.
def incomingFrames (c : Connection) : List Frame :=
  c.incoming.filterMap fun outcome => outcome.toOption

theorem readFrame_ok {c t : Connection} {frame : Frame}
    (h : c.readFrame = (.ok (.ok frame), t)) :
    c.incomingFrames = frame :: t.incomingFrames ∧ t.outgoing = c.outgoing := by
  obtain ⟨incoming, outgoing⟩ := c
  cases incoming with
  | nil => cases h
  | cons outcome incoming => cases h; exact ⟨rfl, rfl⟩

theorem readFrame_error {c t : Connection} {e : LinkError}
    (h : c.readFrame = (.ok (.error e), t)) :
    c.incomingFrames = t.incomingFrames ∧ t.outgoing = c.outgoing := by
  obtain ⟨incoming, outgoing⟩ := c
  cases incoming with
  | nil => cases h; exact ⟨rfl, rfl⟩
  | cons outcome incoming => cases h; exact ⟨rfl, rfl⟩

def writeFrame (c : Connection) (frame : Frame) : Except LinkError Unit × Connection :=
  (.ok (), { c with outgoing := c.outgoing ++ [frame] })

def transport : MiloTransport Connection where
  readFrame := readFrame
  writeFrame := writeFrame

end Connection

-- One turn of the parser loop of the Pico over the frames it has handed on so far
-- and its buffer.
def picoParse (s : List Frame × Bytes) : Flow (List Frame × Bytes) (List Frame × Bytes) :=
  match bufferHead s.2 with
  | .oversized => .done (s.1, [])
  | .short => .done s
  | .frame frame rest => .next (s.1 ++ [frame], rest)

-- What one USB read can return.
structure Packet where
  bytes : Bytes
  pos : 0 < bytes.length
  le : bytes.length ≤ 64
deriving DecidableEq, Repr

-- The frames that the Pico handles after one USB read, and its buffer then.
def picoReceive (frameBuf : Bytes) (packet : Packet) : List Frame × Bytes :=
  let frameBuf := frameBuf ++ packet.bytes
  (loopFuel picoParse (frameBuf.length + 1) ([], frameBuf)).getD ([], frameBuf)

theorem picoParse_next_lt {s s' : List Frame × Bytes} (h : picoParse s = .next s') :
    s'.2.length < s.2.length := by
  unfold picoParse at h
  split at h
  · cases h
  · cases h
  · rename_i hb
    obtain rfl := Flow.next.inj h
    exact bufferHead_rest_lt hb

-- The fuel of picoReceive always suffices.
theorem picoParse_ends (s : List Frame × Bytes) :
    ∃ s', loopFuel picoParse (s.2.length + 1) s = some s' :=
  loopFuel_isSome_of_measure picoParse (·.2.length) (fun _ _ => picoParse_next_lt) _ _
    (Nat.lt_succ_self _)

end Milo.Transport
