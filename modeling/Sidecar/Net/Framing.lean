import Sidecar.Framework.BigEndian
import Sidecar.Model.Primitives

/-! Frames of the publisher's wire format: four bytes of length and the payload. -/

namespace Sidecar.Net

inductive TransportError where
  | connectionRefused (reason : String)
  | messageTooLarge (size max : Nat)
  deriving DecidableEq

def TransportError.message : TransportError → String
  | connectionRefused reason => "connection refused: " ++ reason
  | messageTooLarge size max => "message too large: " ++ toString size ++ " > " ++ toString max

structure LengthPrefixCodec where
  maxMessageSize : Nat := 4 * 1024 * 1024
  deriving DecidableEq

namespace LengthPrefixCodec

variable (codec : LengthPrefixCodec)

/-- The length is written as a `u32`. -/
def encode (payload : Bytes) : Except TransportError Bytes :=
  if codec.maxMessageSize < payload.length then
    .error (.messageTooLarge payload.length codec.maxMessageSize)
  else .ok (BigEndian.toBytes 4 payload.length ++ payload)

def decodeLength (header : Bytes) : Except TransportError Nat :=
  let len := BigEndian.ofBytes header
  if codec.maxMessageSize < len then .error (.messageTooLarge len codec.maxMessageSize) else .ok len

/-- `decode_frame`: the outcome and the buffer afterwards. Only a whole frame is taken out. -/
def decodeFrame (buf : Bytes) : Except TransportError (Option Bytes) × Bytes :=
  if buf.length < 4 then (.ok none, buf)
  else
    let len := BigEndian.ofBytes (buf.take 4)
    if codec.maxMessageSize < len then
      (.error (.messageTooLarge len codec.maxMessageSize), buf)
    else if buf.length < 4 + len then (.ok none, buf)
    else (.ok (some ((buf.drop 4).take len)), (buf.drop 4).drop len)

end LengthPrefixCodec

/-- How a stream ends: the peer closes it or takes it back, or the connection is gone. -/
inductive StreamEnd where
  | finished
  | reset
  | connectionLost
  deriving DecidableEq

/-- A unidirectional stream: the bytes that can be read from it, and what comes after them. -/
structure UniStream where
  bytes : Bytes
  ending : StreamEnd := .finished
  deriving DecidableEq

inductive ReadExactError where
  | finishedEarly (read : Nat)
  | readError
  | connectionLost
  deriving DecidableEq

/-- Reads that many bytes, or hits the end of the stream on the way. -/
def UniStream.readExact (stream : UniStream) (count : Nat) :
    Except ReadExactError (Bytes × UniStream) :=
  if count ≤ stream.bytes.length then
    .ok (stream.bytes.take count, { stream with bytes := stream.bytes.drop count })
  else
    match stream.ending with
    | .finished => .error (.finishedEarly stream.bytes.length)
    | .reset => .error .readError
    | .connectionLost => .error .connectionLost

/-- The payload of a well-formed stream: a whole header, an admissible length, and at least as
many bytes as announced. -/
def UniStream.payload (codec : LengthPrefixCodec) (stream : UniStream) : Option Bytes :=
  let announced := BigEndian.ofBytes (stream.bytes.take 4)
  if 4 ≤ stream.bytes.length ∧ announced ≤ codec.maxMessageSize ∧
      4 + announced ≤ stream.bytes.length then
    some ((stream.bytes.drop 4).take announced)
  else none

/-- The header announces more than the codec takes. -/
def UniStream.oversized (codec : LengthPrefixCodec) (stream : UniStream) : Bool :=
  4 ≤ stream.bytes.length && codec.maxMessageSize < BigEndian.ofBytes (stream.bytes.take 4)

/-- What the peer's codec writes is well-formed. -/
theorem payload_encode {codec : LengthPrefixCodec} {payload frame : Bytes}
    (h : codec.encode payload = .ok frame) (hlength : payload.length < 2 ^ 32) (ending : StreamEnd) :
    UniStream.payload codec ⟨frame, ending⟩ = some payload := by
  unfold LengthPrefixCodec.encode at h
  split_ifs at h with hsize
  have hheader : BigEndian.ofBytes (BigEndian.toBytes 4 payload.length) = payload.length := by
    have hwidth : (256 : Nat) ^ 4 = 2 ^ 32 := by decide
    exact BigEndian.ofBytes_toBytes_of_lt (by rw [hwidth]; exact hlength)
  have htake : frame.take 4 = BigEndian.toBytes 4 payload.length := by
    rw [← Except.ok.inj h, List.take_left' (BigEndian.length_toBytes 4 _)]
  have hdrop : frame.drop 4 = payload := by
    rw [← Except.ok.inj h, List.drop_left' (BigEndian.length_toBytes 4 _)]
  have hframe : frame.length = 4 + payload.length := by
    rw [← Except.ok.inj h, List.length_append, BigEndian.length_toBytes]
  simp only [UniStream.payload, htake, hheader, hdrop, hframe]
  rw [if_pos ⟨by omega, by omega, by omega⟩, List.take_length]

end Sidecar.Net
