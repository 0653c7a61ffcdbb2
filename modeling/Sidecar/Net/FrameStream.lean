import Sidecar.Framework.Chunks
import Sidecar.Net.Framing

/-! Frames in a byte stream that arrives in pieces: `decode_frame` against `encode`. -/

namespace Sidecar.Net

namespace LengthPrefixCodec

variable {codec : LengthPrefixCodec}

/-- Everything `decode_frame` can do with a buffer. -/
inductive FrameEffect (codec : LengthPrefixCodec) (buf : Bytes) :
    Except TransportError (Option Bytes) × Bytes → Prop
  | noHeader (h : buf.length < 4) : FrameEffect codec buf (.ok none, buf)
  | oversized (hheader : 4 ≤ buf.length)
      (h : codec.maxMessageSize < BigEndian.ofBytes (buf.take 4)) :
      FrameEffect codec buf
        (.error (.messageTooLarge (BigEndian.ofBytes (buf.take 4)) codec.maxMessageSize), buf)
  | noPayload (hheader : 4 ≤ buf.length)
      (hsize : BigEndian.ofBytes (buf.take 4) ≤ codec.maxMessageSize)
      (h : buf.length < 4 + BigEndian.ofBytes (buf.take 4)) :
      FrameEffect codec buf (.ok none, buf)
  | frame (hheader : 4 ≤ buf.length)
      (hsize : BigEndian.ofBytes (buf.take 4) ≤ codec.maxMessageSize)
      (h : 4 + BigEndian.ofBytes (buf.take 4) ≤ buf.length) :
      FrameEffect codec buf
        (.ok (some ((buf.drop 4).take (BigEndian.ofBytes (buf.take 4)))),
          (buf.drop 4).drop (BigEndian.ofBytes (buf.take 4)))

theorem decodeFrame_effect (codec : LengthPrefixCodec) (buf : Bytes) :
    FrameEffect codec buf (codec.decodeFrame buf) := by
  simp only [decodeFrame]
  split_ifs with hheader hsize hpayload
  · exact .noHeader hheader
  · exact .oversized (by omega) hsize
  · exact .noPayload (by omega) (by omega) hpayload
  · exact .frame (by omega) (by omega) (by omega)

/-- A frame is taken out of a buffer by its header and its length. -/
theorem decodeFrame_frame {buf : Bytes} (hheader : 4 ≤ buf.length)
    (hsize : BigEndian.ofBytes (buf.take 4) ≤ codec.maxMessageSize)
    (h : 4 + BigEndian.ofBytes (buf.take 4) ≤ buf.length) :
    codec.decodeFrame buf = (.ok (some ((buf.drop 4).take (BigEndian.ofBytes (buf.take 4)))),
      (buf.drop 4).drop (BigEndian.ofBytes (buf.take 4))) := by
  simp only [decodeFrame]
  rw [if_neg (by omega), if_neg (by omega), if_neg (by omega)]

theorem decodeFrame_oversized {buf : Bytes} (hheader : 4 ≤ buf.length)
    (h : codec.maxMessageSize < BigEndian.ofBytes (buf.take 4)) :
    codec.decodeFrame buf =
      (.error (.messageTooLarge (BigEndian.ofBytes (buf.take 4)) codec.maxMessageSize), buf) := by
  simp only [decodeFrame]
  rw [if_neg (by omega), if_pos h]

theorem decodeFrame_short {buf : Bytes} (hheader : 4 ≤ buf.length)
    (hsize : BigEndian.ofBytes (buf.take 4) ≤ codec.maxMessageSize)
    (h : buf.length < 4 + BigEndian.ofBytes (buf.take 4)) :
    codec.decodeFrame buf = (.ok none, buf) := by
  simp only [decodeFrame]
  rw [if_neg (by omega), if_neg (by omega), if_pos h]

theorem decodeFrame_keeps {buf rest : Bytes} (h : codec.decodeFrame buf = (.ok none, rest)) :
    rest = buf := by
  have heffect := decodeFrame_effect codec buf
  rw [h] at heffect
  cases heffect <;> rfl

theorem decodeFrame_shorter {buf rest item : Bytes}
    (h : codec.decodeFrame buf = (.ok (some item), rest)) : rest.length < buf.length := by
  have heffect := decodeFrame_effect codec buf
  rw [h] at heffect
  cases heffect with
  | frame hheader hsize h =>
    simp only [List.length_drop]
    omega

theorem decodeFrame_item_append {buf rest item : Bytes} (more : Bytes)
    (h : codec.decodeFrame buf = (.ok (some item), rest)) :
    codec.decodeFrame (buf ++ more) = (.ok (some item), rest ++ more) := by
  have heffect := decodeFrame_effect codec buf
  rw [h] at heffect
  cases heffect with
  | frame hheader hsize hlength =>
    have htake : (buf ++ more).take 4 = buf.take 4 := List.take_append_of_le_length hheader
    have hdrop : (buf ++ more).drop 4 = buf.drop 4 ++ more := List.drop_append_of_le_length hheader
    have hpayload : BigEndian.ofBytes (buf.take 4) ≤ (buf.drop 4).length := by
      rw [List.length_drop]
      omega
    rw [decodeFrame_frame (by simp only [List.length_append]; omega) (by rwa [htake])
      (by rw [htake, List.length_append]; omega), htake, hdrop,
      List.take_append_of_le_length hpayload, List.drop_append_of_le_length hpayload]

theorem decodeFrame_error_append {buf rest : Bytes} {err : TransportError} (more : Bytes)
    (h : codec.decodeFrame buf = (.error err, rest)) :
    codec.decodeFrame (buf ++ more) = (.error err, rest ++ more) := by
  have heffect := decodeFrame_effect codec buf
  rw [h] at heffect
  cases heffect with
  | oversized hheader hsize =>
    have htake : (buf ++ more).take 4 = buf.take 4 := List.take_append_of_le_length hheader
    rw [decodeFrame_oversized (by rw [List.length_append]; omega) (by rwa [htake]), htake]

/-- `decode_frame` as a decoder of a stream. -/
def decoder (codec : LengthPrefixCodec) : Decoder UInt8 Bytes TransportError where
  decode := codec.decodeFrame
  shorter := decodeFrame_shorter
  keeps := decodeFrame_keeps
  item_append := decodeFrame_item_append
  error_append := decodeFrame_error_append

/-- An encoded frame at the front of a buffer is taken out as its payload. -/
theorem decodeFrame_encode {payload frame : Bytes} (h : codec.encode payload = .ok frame)
    (hlength : payload.length < 2 ^ 32) (more : Bytes) :
    codec.decodeFrame (frame ++ more) = (.ok (some payload), more) := by
  unfold encode at h
  split_ifs at h with hsize
  have hframe := (Except.ok.inj h).symm
  have hheader : BigEndian.ofBytes (BigEndian.toBytes 4 payload.length) = payload.length := by
    have hwidth : (256 : Nat) ^ 4 = 2 ^ 32 := by decide
    exact BigEndian.ofBytes_toBytes_of_lt (by rw [hwidth]; exact hlength)
  have hwidth := BigEndian.length_toBytes 4 payload.length
  have htake : (frame ++ more).take 4 = BigEndian.toBytes 4 payload.length := by
    rw [hframe, List.append_assoc, List.take_left' hwidth]
  have hdrop : (frame ++ more).drop 4 = payload ++ more := by
    rw [hframe, List.append_assoc, List.drop_left' hwidth]
  have htotal : (frame ++ more).length = 4 + payload.length + more.length := by
    rw [hframe, List.length_append, List.length_append, hwidth]
  rw [decodeFrame_frame (by omega) (by rw [htake, hheader]; omega)
    (by rw [htake, hheader]; omega), htake, hheader, hdrop, List.take_left, List.drop_left]

/-- Whole frames are taken out one by one, and nothing is left. -/
theorem drain_frames {payloads frames : List Bytes}
    (hencode : payloads.map codec.encode = frames.map .ok)
    (hlength : ∀ payload ∈ payloads, payload.length < 2 ^ 32) :
    codec.decoder.drain frames.flatten = ⟨payloads, [], none⟩ := by
  induction payloads generalizing frames with
  | nil =>
    obtain rfl : frames = [] := by simpa using hencode.symm
    have hempty : codec.decoder.decode [] = (.ok none, []) := rfl
    rw [List.flatten_nil, Decoder.drain_none hempty]
  | cons payload payloads ih =>
    cases frames with
    | nil => simp at hencode
    | cons frame frames =>
      obtain ⟨hframe, hrest⟩ := List.cons.inj hencode
      have hdecode : codec.decoder.decode (frame ++ frames.flatten) =
          (.ok (some payload), frames.flatten) :=
        decodeFrame_encode hframe (hlength payload List.mem_cons_self) frames.flatten
      have hlater := ih hrest (fun p hp => hlength p (List.mem_cons_of_mem _ hp))
      rw [List.flatten_cons, Decoder.drain_item hdecode, hlater]
      rfl

theorem encode_ok {payload : Bytes} (h : payload.length ≤ codec.maxMessageSize) :
    codec.encode payload = .ok (BigEndian.toBytes 4 payload.length ++ payload) := by
  rw [encode, if_neg (by omega)]

end LengthPrefixCodec

/-- `decode_length` and `decode_frame` read a header alike: they reject the same lengths with the
same error, and a frame is as long as announced. -/
structure HeadersAgree (codec : LengthPrefixCodec) (header : Bytes) : Prop where
  rejected : ∀ err rest, codec.decodeLength header = .error err →
    codec.decodeFrame (header ++ rest) = (.error err, header ++ rest)
  waits : ∀ len rest, codec.decodeLength header = .ok len → rest.length < len →
    codec.decodeFrame (header ++ rest) = (.ok none, header ++ rest)
  framed : ∀ len rest, codec.decodeLength header = .ok len → len ≤ rest.length →
    codec.decodeFrame (header ++ rest) = (.ok (some (rest.take len)), rest.drop len)

theorem headersAgree (codec : LengthPrefixCodec) {header : Bytes} (h : header.length = 4) :
    HeadersAgree codec header := by
  have htake : ∀ rest : Bytes, (header ++ rest).take 4 = header := fun _ => List.take_left' h
  have hdrop : ∀ rest : Bytes, (header ++ rest).drop 4 = rest := fun _ => List.drop_left' h
  have hlength : ∀ rest : Bytes, (header ++ rest).length = 4 + rest.length := by
    intro rest
    rw [List.length_append, h]
  have hread : ∀ len, codec.decodeLength header = .ok len →
      len = BigEndian.ofBytes header ∧ BigEndian.ofBytes header ≤ codec.maxMessageSize := by
    intro len hlen
    simp only [LengthPrefixCodec.decodeLength] at hlen
    split_ifs at hlen with hsize
    exact ⟨(Except.ok.inj hlen).symm, by omega⟩
  refine ⟨?_, ?_, ?_⟩
  · intro err rest herr
    simp only [LengthPrefixCodec.decodeLength] at herr
    split_ifs at herr with hsize
    have hrejected := @LengthPrefixCodec.decodeFrame_oversized codec (header ++ rest)
      (by rw [hlength]; omega) (by rwa [htake])
    rw [hrejected, htake, ← Except.error.inj herr]
  · intro len rest hlen hshort
    obtain ⟨rfl, hsize⟩ := hread len hlen
    exact LengthPrefixCodec.decodeFrame_short (by rw [hlength]; omega) (by rwa [htake])
      (by rw [htake, hlength]; omega)
  · intro len rest hlen hlong
    obtain ⟨rfl, hsize⟩ := hread len hlen
    have hframe := @LengthPrefixCodec.decodeFrame_frame codec (header ++ rest)
      (by rw [hlength]; omega) (by rwa [htake]) (by rw [htake, hlength]; omega)
    rw [hframe, htake, hdrop]

/-- Whatever list of payloads is encoded and however the bytes are cut, decoding after every
chunk gives the payloads in order, without an error and with nothing left; a request for more
leaves the buffer alone, and a header means the same to `decode_length` and `decode_frame`. -/
theorem frames_round_trip (codec : LengthPrefixCodec) (hmax : codec.maxMessageSize < 2 ^ 32)
    (payloads : List Bytes) (hsize : ∀ payload ∈ payloads, payload.length ≤ codec.maxMessageSize) :
    (∃ frames : List Bytes, payloads.map codec.encode = frames.map .ok ∧
      ∀ chunks : List Bytes, chunks.flatten = frames.flatten →
        codec.decoder.feed [] chunks = ⟨payloads, [], none⟩) ∧
    (∀ buf rest, codec.decodeFrame buf = (.ok none, rest) → rest = buf) ∧
    ∀ header : Bytes, header.length = 4 → HeadersAgree codec header := by
  have hencode : payloads.map codec.encode =
      (payloads.map (fun p => BigEndian.toBytes 4 p.length ++ p)).map .ok := by
    rw [List.map_map]
    exact List.map_congr_left (fun p hp => LengthPrefixCodec.encode_ok (hsize p hp))
  have hlength : ∀ payload ∈ payloads, payload.length < 2 ^ 32 :=
    fun p hp => Nat.lt_of_le_of_lt (hsize p hp) hmax
  refine ⟨⟨_, hencode, ?_⟩, fun buf rest => LengthPrefixCodec.decodeFrame_keeps,
    fun header h => headersAgree codec h⟩
  intro chunks hchunks
  have hwhole := LengthPrefixCodec.drain_frames hencode hlength
  rw [← hchunks] at hwhole
  have hfed := @Decoder.feed_eq_drain _ _ _ codec.decoder chunks [] rfl
    (by rw [List.nil_append, hwhole])
  rwa [List.nil_append, hwhole] at hfed

/-- Two messages and an empty one, cut inside a header and inside a payload. -/
theorem frames_round_trip_cut :
    (LengthPrefixCodec.mk 16).decoder.feed [] [[0, 0], [0, 2, 7, 8, 0, 0, 0, 0, 0], [0, 0, 1], [9]] =
      ⟨[[7, 8], [], [9]], [], none⟩ := by
  obtain ⟨⟨frames, hencode, hfed⟩, -⟩ :=
    frames_round_trip (LengthPrefixCodec.mk 16) (by decide) [[7, 8], [], [9]] (by decide)
  have hframes : frames = [[0, 0, 0, 2, 7, 8], [0, 0, 0, 0], [0, 0, 0, 1, 9]] := by
    have hknown : ([[7, 8], [], [9]] : List Bytes).map (LengthPrefixCodec.mk 16).encode =
        [[0, 0, 0, 2, 7, 8], [0, 0, 0, 0], [0, 0, 0, 1, 9]].map .ok := by decide
    exact (List.map_injective_iff.mpr (fun _ _ => Except.ok.inj) (hknown.symm.trans hencode)).symm
  exact hfed _ (by rw [hframes]; rfl)

end Sidecar.Net
