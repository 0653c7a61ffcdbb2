import Sidecar.Framework.Last
import Sidecar.Net.Framing

/-! The receive path of the publisher's connection: `recv` of the QUIC client, and the loop that
hands its messages on. -/

namespace Sidecar.Net

/-- What becomes of one accepted stream. -/
inductive StreamOutcome where
  | message (payload : Bytes)
  | dropped
  | disconnected
  | failed (err : TransportError)
  deriving DecidableEq

/-- Of the errors of a read, only a lost connection is more than the end of the stream. -/
def StreamOutcome.ofReadError : ReadExactError → StreamOutcome
  | .connectionLost => .disconnected
  | .finishedEarly _ => .dropped
  | .readError => .dropped

/-- `recv` after `accept_uni`. A length that the codec does not take leaves the function. -/
def receiveStream (codec : LengthPrefixCodec) (stream : UniStream) : StreamOutcome :=
  match stream.readExact 4 with
  | .error err => .ofReadError err
  | .ok (header, rest) =>
    match codec.decodeLength header with
    | .error err => .failed err
    | .ok len =>
      match rest.readExact len with
      | .ok (payload, _) => .message payload
      | .error err => .ofReadError err

structure QuicClient where
  codec : LengthPrefixCodec := {}
  maxRetries : Nat := 0
  deriving DecidableEq

/-- The connection, by its stable id, and the flag that others look at. -/
structure ClientState where
  connection : Option Nat := none
  connected : Bool := false
  deriving DecidableEq

/-- Clears the connection unless another one took its place. -/
def ClientState.markDisconnected (st : ClientState) (expected : Option Nat) : ClientState :=
  match expected, st.connection with
  | some id, some conn => if conn = id then {} else st
  | some _, none => st
  | none, _ => {}

/-- What the network brings: a stream, an error of `accept_uni`, and the outcome of
`connect_with_retry` when there is no connection. -/
inductive Incoming where
  | stream (accepted : UniStream)
  | acceptFailed
  | connected (id : Nat)
  | refused
  deriving DecidableEq

inductive RecvOutcome where
  | ok (payload : Bytes) (st : ClientState) (rest : List Incoming)
  | error (err : TransportError) (st : ClientState) (rest : List Incoming)
  | waiting (st : ClientState)
  deriving DecidableEq

/-- No limit is a limit of `u32::MAX` attempts. -/
def QuicClient.attempts (client : QuicClient) : Nat :=
  if client.maxRetries = 0 then 2 ^ 32 - 1 else client.maxRetries

/-- `recv` takes from the network until it has a message or an error. Without a connection it
waits for one. -/
def recv (client : QuicClient) : ClientState → List Incoming → RecvOutcome
  | st, [] => .waiting st
  | st, event :: rest =>
    match st.connection, event with
    | none, .connected id => recv client ⟨some id, true⟩ rest
    | none, .refused =>
      .error (.connectionRefused ("failed after " ++ toString client.attempts ++ " attempts")) st
        rest
    | some _, .stream stream =>
      match receiveStream client.codec stream with
      | .message payload => .ok payload st rest
      | .dropped => recv client st rest
      | .disconnected => recv client (st.markDisconnected st.connection) rest
      | .failed err => .error err st rest
    | some _, .acceptFailed => recv client (st.markDisconnected st.connection) rest
    | _, _ => recv client st rest

/-- What the loop has handed to `handle_publisher_message`, and the error that ended it. -/
structure Received where
  handed : List Bytes
  state : ClientState
  stopped : Option TransportError
  deriving DecidableEq

def Received.push (received : Received) (payload : Bytes) : Received :=
  { received with handed := payload :: received.handed }

theorem recv_rest_lt {client : QuicClient} {st st' : ClientState} {events rest : List Incoming}
    {payload : Bytes} (h : recv client st events = .ok payload st' rest) :
    rest.length < events.length := by
  induction events generalizing st with
  | nil => simp [recv] at h
  | cons event events ih =>
    have hlater : ∀ {s : ClientState}, recv client s events = .ok payload st' rest →
        rest.length < (event :: events).length :=
      fun hs => Nat.lt_succ_of_lt (ih hs)
    unfold recv at h
    split at h
    · exact hlater h
    · simp at h
    · split at h
      · obtain ⟨-, -, hrest⟩ := RecvOutcome.ok.inj h
        rw [hrest]
        exact Nat.lt_succ_self _
      · exact hlater h
      · exact hlater h
      · simp at h
    · exact hlater h
    · exact hlater h

/-- The loop of `spawn_publisher_connection`: every message goes to a task of its own, and the
first error ends the loop. -/
def receiveLoop (client : QuicClient) (st : ClientState) (events : List Incoming) : Received :=
  match h : recv client st events with
  | .ok payload st' rest =>
    have := recv_rest_lt h
    (receiveLoop client st' rest).push payload
  | .error err st' _ => ⟨[], st', some err⟩
  | .waiting st' => ⟨[], st', none⟩
termination_by events.length

/-- What the loop does with an outcome of `recv`. -/
def RecvOutcome.continueWith (loop : ClientState → List Incoming → Received) :
    RecvOutcome → Received
  | .ok payload st rest => (loop st rest).push payload
  | .error err st _ => ⟨[], st, some err⟩
  | .waiting st => ⟨[], st, none⟩

theorem receiveLoop_eq (client : QuicClient) (st : ClientState) (events : List Incoming) :
    receiveLoop client st events =
      (recv client st events).continueWith (receiveLoop client) := by
  rw [receiveLoop]
  split <;> simp_all [RecvOutcome.continueWith]

section Streams

variable {client : QuicClient} {st : ClientState}

theorem readExact_ok {stream : UniStream} {count : Nat} (h : count ≤ stream.bytes.length) :
    stream.readExact count =
      .ok (stream.bytes.take count, { stream with bytes := stream.bytes.drop count }) := by
  rw [UniStream.readExact, if_pos h]

/-- Too few bytes end the stream, and not more than that. -/
theorem readExact_short {stream : UniStream} (hending : stream.ending ≠ .connectionLost)
    {count : Nat} (h : stream.bytes.length < count) :
    ∃ err, stream.readExact count = .error err ∧ StreamOutcome.ofReadError err = .dropped := by
  unfold UniStream.readExact
  rw [if_neg (Nat.not_le_of_lt h)]
  cases hcase : stream.ending with
  | finished => exact ⟨_, rfl, rfl⟩
  | reset => exact ⟨_, rfl, rfl⟩
  | connectionLost => exact absurd hcase hending

theorem receiveStream_oversized {codec : LengthPrefixCodec} {stream : UniStream}
    (h : stream.oversized codec = true) :
    receiveStream codec stream = .failed (.messageTooLarge
      (BigEndian.ofBytes (stream.bytes.take 4)) codec.maxMessageSize) := by
  simp only [UniStream.oversized, Bool.and_eq_true, decide_eq_true_eq] at h
  simp only [receiveStream, readExact_ok h.1, LengthPrefixCodec.decodeLength, if_pos h.2]

theorem receiveStream_payload {codec : LengthPrefixCodec} {stream : UniStream} {payload : Bytes}
    (h : stream.payload codec = some payload) : receiveStream codec stream = .message payload := by
  simp only [UniStream.payload] at h
  split_ifs at h with hgood
  obtain ⟨hheader, hsize, hbody⟩ := hgood
  have hrest : BigEndian.ofBytes (stream.bytes.take 4) ≤ (stream.bytes.drop 4).length := by
    rw [List.length_drop]
    omega
  simp only [receiveStream, readExact_ok hheader, LengthPrefixCodec.decodeLength,
    if_neg (Nat.not_lt.mpr hsize)]
  rw [@readExact_ok { stream with bytes := stream.bytes.drop 4 } _ hrest]
  exact congrArg StreamOutcome.message (Option.some.inj h)

theorem receiveStream_dropped {codec : LengthPrefixCodec} {stream : UniStream}
    (hending : stream.ending ≠ .connectionLost) (hsize : stream.oversized codec = false)
    (h : stream.payload codec = none) : receiveStream codec stream = .dropped := by
  by_cases hheader : 4 ≤ stream.bytes.length
  · have hlen : ¬codec.maxMessageSize < BigEndian.ofBytes (stream.bytes.take 4) := by
      simpa [UniStream.oversized, hheader] using hsize
    have hshort : (stream.bytes.drop 4).length < BigEndian.ofBytes (stream.bytes.take 4) := by
      simp only [UniStream.payload] at h
      split_ifs at h with hgood
      rw [List.length_drop]
      by_contra hlong
      exact hgood ⟨hheader, by omega, by omega⟩
    obtain ⟨err, herr, hdropped⟩ := @readExact_short
      { stream with bytes := stream.bytes.drop 4 } hending _ hshort
    simp only [receiveStream, readExact_ok hheader, LengthPrefixCodec.decodeLength, if_neg hlen]
    rw [herr]
    exact hdropped
  · obtain ⟨err, herr, hdropped⟩ := readExact_short hending (Nat.lt_of_not_le hheader)
    simp only [receiveStream]
    rw [herr]
    exact hdropped

/-- One stream of a connection that stays up, as the loop takes it. -/
theorem receiveLoop_stream (hup : st.connection.isSome) {stream : UniStream}
    (hending : stream.ending ≠ .connectionLost) (events : List Incoming) :
    receiveLoop client st (.stream stream :: events) =
      if stream.oversized client.codec then
        ⟨[], st, some (.messageTooLarge (BigEndian.ofBytes (stream.bytes.take 4))
          client.codec.maxMessageSize)⟩
      else (stream.payload client.codec).elim (receiveLoop client st events)
        (receiveLoop client st events).push := by
  obtain ⟨id, hid⟩ := Option.isSome_iff_exists.mp hup
  rw [receiveLoop_eq]
  simp only [recv, hid]
  cases hsize : stream.oversized client.codec with
  | true =>
    rw [receiveStream_oversized hsize]
    rfl
  | false =>
    cases hpayload : stream.payload client.codec with
    | none =>
      rw [receiveStream_dropped hending hsize hpayload]
      exact (receiveLoop_eq client st events).symm
    | some payload =>
      rw [receiveStream_payload hpayload]
      rfl

/-- The loop hands on the payloads up to the first oversized stream. -/
theorem handed_streams (hup : st.connection.isSome) {streams : List UniStream}
    (hending : ∀ stream ∈ streams, stream.ending ≠ .connectionLost) :
    (receiveLoop client st (streams.map .stream)).handed =
      (streams.takeWhile (fun stream => !stream.oversized client.codec)).filterMap
        (UniStream.payload client.codec) := by
  induction streams with
  | nil =>
    rw [List.map_nil, receiveLoop_eq]
    rfl
  | cons stream streams ih =>
    have hrest := ih (fun s hs => hending s (List.mem_cons_of_mem _ hs))
    rw [List.map_cons, receiveLoop_stream hup (hending stream List.mem_cons_self),
      List.takeWhile_cons]
    cases hsize : stream.oversized client.codec with
    | true => simp
    | false =>
      simp only [Bool.not_false, if_true, Bool.false_eq_true, if_false, List.filterMap_cons]
      cases stream.payload client.codec with
      | none => exact hrest
      | some payload => exact congrArg (List.cons payload) hrest

theorem payload_of_oversized {codec : LengthPrefixCodec} {stream : UniStream}
    (h : stream.oversized codec = true) : stream.payload codec = none := by
  simp only [UniStream.oversized, Bool.and_eq_true, decide_eq_true_eq] at h
  simp only [UniStream.payload]
  rw [if_neg]
  intro hgood
  omega

end Streams

section Survival

variable {client : QuicClient}

/-- Everything but an oversized stream and the refusal of all attempts to connect. -/
def Incoming.benign (codec : LengthPrefixCodec) : Incoming → Bool
  | .stream s => !s.oversized codec
  | .refused => false
  | .acceptFailed => true
  | .connected _ => true

theorem oversized_of_failed {codec : LengthPrefixCodec} {stream : UniStream} {err : TransportError}
    (h : receiveStream codec stream = .failed err) : stream.oversized codec = true := by
  have hread : ∀ err', StreamOutcome.ofReadError err' ≠ .failed err := by
    intro err'
    cases err' <;> simp [StreamOutcome.ofReadError]
  by_cases hheader : 4 ≤ stream.bytes.length
  · by_cases hsize : codec.maxMessageSize < BigEndian.ofBytes (stream.bytes.take 4)
    · simp [UniStream.oversized, hheader, hsize]
    · simp only [receiveStream, readExact_ok hheader, LengthPrefixCodec.decodeLength,
        if_neg hsize] at h
      split at h
      · simp at h
      · exact absurd h (hread _)
  · simp only [receiveStream, UniStream.readExact, if_neg hheader] at h
    cases hcase : stream.ending <;> simp [hcase, StreamOutcome.ofReadError] at h

theorem recv_benign {events : List Incoming} (h : ∀ event ∈ events, event.benign client.codec)
    (st : ClientState) :
    (∃ payload st' rest, recv client st events = .ok payload st' rest ∧ rest <:+ events) ∨
      ∃ st', recv client st events = .waiting st' := by
  induction events generalizing st with
  | nil => exact Or.inr ⟨st, rfl⟩
  | cons event events ih =>
    have hlater : ∀ s, (∃ payload st' rest, recv client s events = .ok payload st' rest ∧
        rest <:+ event :: events) ∨ ∃ st', recv client s events = .waiting st' := by
      intro s
      rcases ih (fun e he => h e (List.mem_cons_of_mem _ he)) s with hok | hwait
      · obtain ⟨payload, st', rest, hrecv, hsuffix⟩ := hok
        exact Or.inl ⟨payload, st', rest, hrecv, hsuffix.trans (List.suffix_cons _ _)⟩
      · exact Or.inr hwait
    have hevent := h event List.mem_cons_self
    unfold recv
    split
    · exact hlater _
    · simp [Incoming.benign] at hevent
    · next stream _ =>
      split
      · exact Or.inl ⟨_, _, _, rfl, List.suffix_cons _ _⟩
      · exact hlater _
      · exact hlater _
      · next err herr =>
        simp [Incoming.benign, oversized_of_failed herr] at hevent
    · exact hlater _
    · exact hlater _

/-- Truncated and reset streams, lost connections and reconnects never end the loop. -/
theorem receiveLoop_survives {events : List Incoming}
    (h : ∀ event ∈ events, event.benign client.codec) (st : ClientState) :
    (receiveLoop client st events).stopped = none := by
  induction hn : events.length using Nat.strong_induction_on generalizing events st with
  | _ n ih =>
    rw [receiveLoop_eq]
    rcases recv_benign h st with ⟨payload, st', rest, hrecv, hsuffix⟩ | ⟨st', hrecv⟩
    · have hlt : rest.length < n := by
        rw [← hn]
        exact recv_rest_lt hrecv
      rw [hrecv]
      exact ih rest.length hlt (fun e he => h e (hsuffix.subset he)) st' rfl
    · rw [hrecv]
      rfl

end Survival

/-- On a connection that stays up, the loop hands on the payloads of all well-formed streams
exactly when none of them comes after a stream that announces more than the codec takes: every
other malformed stream costs itself only. -/
theorem receive_loop_hands_all_iff (client : QuicClient) {st : ClientState}
    (hup : st.connection.isSome) (streams : List UniStream)
    (hending : ∀ stream ∈ streams, stream.ending ≠ .connectionLost) :
    (receiveLoop client st (streams.map .stream)).handed =
        streams.filterMap (UniStream.payload client.codec) ↔
      ∀ before stream after, streams = before ++ stream :: after →
        stream.oversized client.codec = true →
        after.filterMap (UniStream.payload client.codec) = [] := by
  rw [handed_streams hup hending]
  exact filterMap_takeWhile_iff (fun _ hsize => payload_of_oversized hsize) streams

/-- A truncated header, a truncated payload and a reset among two messages. -/
def noisyStreams : List UniStream :=
  [⟨[0, 0, 0, 2, 7, 8], .finished⟩, ⟨[0, 0], .finished⟩, ⟨[0, 0, 0, 5, 1], .finished⟩,
    ⟨[0, 0, 0, 9], .reset⟩, ⟨[0, 0, 0, 1, 9], .finished⟩]

theorem receive_loop_hands_all_noisy :
    (receiveLoop {} ⟨some 0, true⟩ (noisyStreams.map .stream)).handed = [[7, 8], [9]] := by
  have hiff := @receive_loop_hands_all_iff {} ⟨some 0, true⟩ rfl noisyStreams (by decide)
  refine (hiff.mpr ?_).trans (by decide)
  intro before stream after hstreams hsize
  have hnone : ∀ stream ∈ noisyStreams,
      stream.oversized ({} : QuicClient).codec = false := by decide
  have hmem : stream ∈ noisyStreams := by rw [hstreams]; simp
  rw [hnone stream hmem] at hsize
  simp at hsize

/-- A stream that announces 4 MiB and one byte, then a message. -/
def oversizedFirst : List UniStream :=
  [⟨[0, 64, 0, 1], .finished⟩, ⟨[0, 0, 0, 1, 9], .finished⟩]

/-- The message after the oversized stream is never handed on, and the client still counts as
connected. -/
theorem oversized_stream_ends_loop :
    let received := receiveLoop {} ⟨some 0, true⟩ (oversizedFirst.map .stream)
    received.handed = [] ∧ received.stopped = some (.messageTooLarge 4194305 4194304) ∧
      received.state.connected = true ∧
      oversizedFirst.filterMap (UniStream.payload ({} : QuicClient).codec) = [[9]] := by
  have hloop : receiveLoop {} ⟨some 0, true⟩ (oversizedFirst.map .stream) =
      ⟨[], ⟨some 0, true⟩, some (.messageTooLarge 4194305 4194304)⟩ := by
    rw [oversizedFirst, List.map_cons, receiveLoop_stream rfl (by decide)]
    decide
  intro received
  have hreceived : received = _ := hloop
  rw [hreceived]
  exact ⟨rfl, rfl, rfl, by decide⟩

end Sidecar.Net
