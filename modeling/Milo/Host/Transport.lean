import Milo.Engine.Link.Stream

namespace Milo.Host

open Milo.Lib Milo.Engine.Link

-- What the reading end of a host's link meets next: bytes come in, a wait ends early
-- without any, the time of the running call runs out, or the other end hangs up.
inductive Arrival where
  | data (bytes : Bytes) (pos : 0 < bytes.length)
  | nothing
  | deadline
  | closed

-- The exceptions of read_frame; that of a serial port which is gone is pyserial's.
inductive HangUp where
  | connectionError (text : String)
  | serialException
deriving DecidableEq, Repr

inductive ReadError where
  | timeoutError (text : String)
  | hungUp (hangUp : HangUp)
deriving DecidableEq, Repr

-- The loop that the readers of the three transports share: it collects n bytes.
-- After the last arrival nothing comes in any more.
def readExact (timedOut : Nat → String) (hangUp : HangUp) (n : Nat) :
    Bytes → List Arrival → Except ReadError Bytes × List Arrival
  | buf, [] =>
      if n ≤ buf.length then (.ok buf, []) else (.error (.timeoutError (timedOut buf.length)), [])
  | buf, arrival :: arrivals =>
      if n ≤ buf.length then (.ok buf, arrival :: arrivals)
      else
        match arrival with
        | .nothing => readExact timedOut hangUp n buf arrivals
        | .deadline => (.error (.timeoutError (timedOut buf.length)), arrivals)
        | .closed => (.error (.hungUp hangUp), .closed :: arrivals)
        | .data bytes _ =>
            if hlt : n - buf.length < bytes.length then
              (.ok (buf ++ bytes.take (n - buf.length)),
                .data (bytes.drop (n - buf.length)) (by rw [List.length_drop]; omega) :: arrivals)
            else readExact timedOut hangUp n (buf ++ bytes) arrivals

-- The header and then the payload that it announces.
def readFrame (headerTimedOut : Nat → String) (payloadTimedOut : Nat → Nat → String)
    (hangUp : HangUp) (arrivals : List Arrival) : Except ReadError Frame × List Arrival :=
  match readExact headerTimedOut hangUp 5 [] arrivals with
  | (.ok [opcode, b0, b1, b2, b3], arrivals) =>
      let plen := fromBeBytes b0 b1 b2 b3
      match readExact (payloadTimedOut plen) hangUp plen [] arrivals with
      | (.ok payload, arrivals) => (.ok { opcode := opcode, payload := payload }, arrivals)
      | (.error e, arrivals) => (.error e, arrivals)
  | (.ok _, arrivals) => (.error (.hungUp hangUp), arrivals)
  | (.error e, arrivals) => (.error e, arrivals)

def SerialTransport.readFrame : List Arrival → Except ReadError Frame × List Arrival :=
  Host.readFrame (fun got => s!"header timeout ({got}/5 bytes)")
    (fun plen got => s!"payload timeout ({got}/{plen})") .serialException

def TcpTransport.readFrame : List Arrival → Except ReadError Frame × List Arrival :=
  Host.readFrame (fun _ => "timed out") (fun _ _ => "timed out") (.connectionError "connection closed")

def SubprocessTransport.readFrame : List Arrival → Except ReadError Frame × List Arrival :=
  Host.readFrame (fun got => s!"subprocess read timeout ({got}/5 bytes)")
    (fun plen got => s!"subprocess read timeout ({got}/{plen} bytes)")
    (.connectionError "subprocess closed stdout")

inductive HostTransport where
  | serial
  | tcp
  | subprocess

def HostTransport.readFrame : HostTransport → List Arrival → Except ReadError Frame × List Arrival
  | .serial => SerialTransport.readFrame
  | .tcp => TcpTransport.readFrame
  | .subprocess => SubprocessTransport.readFrame

-- struct.pack(">BI", opcode, n), which raises struct.error for numbers out of range.
def packHeader (opcode n : Nat) : Option Bytes :=
  if opcode < 2 ^ 8 ∧ n < 2 ^ 32 then
    some [UInt8.ofNat opcode, UInt8.ofNat (n / 2 ^ 24), UInt8.ofNat (n / 2 ^ 16),
      UInt8.ofNat (n / 2 ^ 8), UInt8.ofNat n]
  else none

-- The bytes that write_frame of each of the transports sends.
def encodeFrame (opcode : Nat) (payload : Bytes) : Option Bytes :=
  (packHeader opcode payload.length).map (· ++ payload)

theorem encodeFrame_eq_serialize (frame : Frame) (h : frame.payload.length ≤ U32_MAX) :
    encodeFrame frame.opcode.toNat frame.payload = some frame.serialize := by
  unfold U32_MAX at h
  have hopcode := frame.opcode.toNat_lt
  have hfits : frame.payload.length < 2 ^ 32 := by omega
  have hbytes := toBeBytes_toNat (UInt32.ofNat frame.payload.length)
  rw [UInt32.toNat_ofNat_of_lt' hfits] at hbytes
  have hheader : toBeBytes (UInt32.ofNat frame.payload.length) =
      [UInt8.ofNat (frame.payload.length / 2 ^ 24), UInt8.ofNat (frame.payload.length / 2 ^ 16),
        UInt8.ofNat (frame.payload.length / 2 ^ 8), UInt8.ofNat frame.payload.length] := by
    apply List.map_injective_iff.mpr (fun _ _ => UInt8.toNat_inj.mp)
    rw [hbytes]
    simp
  simp only [encodeFrame, packHeader, if_pos (And.intro hopcode hfits), Option.map_some,
    Frame.serialize, hheader, UInt8.ofNat_toNat, List.cons_append]

end Milo.Host
