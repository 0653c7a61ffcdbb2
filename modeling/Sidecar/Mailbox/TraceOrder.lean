import Sidecar.Simulation.Exported

namespace Sidecar.Mailbox

section Hex

theorem hexDecode_cons {a b : UInt8} {rest data : Bytes}
    (h : hexDecode (a :: b :: rest) = some data) :
    ∃ hi lo tail, hexVal a = some hi ∧ hexVal b = some lo ∧ hexDecode rest = some tail ∧
      data = (hi * 16 + lo) :: tail := by
  simp only [hexDecode, bind, Option.bind_eq_some_iff] at h
  obtain ⟨hi, hhi, lo, hlo, tail, htail, hdata⟩ := h
  exact ⟨hi, lo, tail, hhi, hlo, htail, (Option.some.inj hdata).symm⟩

theorem hexDecode_length {text data : Bytes} (h : hexDecode text = some data) :
    text.length = 2 * data.length := by
  induction text using hexDecode.induct generalizing data with
  | case1 =>
    obtain rfl := Option.some.inj h
    rfl
  | case2 a => simp [hexDecode] at h
  | case3 a b rest ih =>
    obtain ⟨hi, lo, tail, -, -, htail, rfl⟩ := hexDecode_cons h
    have hlen := ih htail
    simp only [List.length_cons]
    omega

/-- The bytes at the front are decoded from the text at the front. -/
theorem hexDecode_take {text data : Bytes} (h : hexDecode text = some data) (n : Nat) :
    hexDecode (text.take (2 * n)) = some (data.take n) := by
  induction n generalizing text data with
  | zero => simp [hexDecode]
  | succ n ih =>
    match text with
    | [] =>
      obtain rfl := Option.some.inj h
      simp [hexDecode]
    | [_] => simp [hexDecode] at h
    | a :: b :: rest =>
      obtain ⟨hi, lo, tail, hhi, hlo, htail, rfl⟩ := hexDecode_cons h
      have htake : (a :: b :: rest).take (2 * (n + 1)) = a :: b :: rest.take (2 * n) := by
        rw [Nat.mul_add, List.take_succ_cons, List.take_succ_cons]
      rw [htake, hexDecode, hhi, hlo, ih htail]
      rfl

/-- `x` is no hex digit, so hex text has no `0x` in front. -/
theorem trimStartHex_of_hex {text data : Bytes} {n : Nat}
    (h : hexDecode (text.take (n + 2)) = some data) : trimStartHex text = text := by
  match text with
  | [] => rfl
  | [_] => rfl
  | a :: b :: rest =>
    rw [List.take_succ_cons, List.take_succ_cons] at h
    obtain ⟨hi, lo, tail, -, hlo, -, -⟩ := hexDecode_cons h
    have hx : hexVal 120 = none := by decide
    have hb : b ≠ 120 := by
      rintro rfl
      simp [hx] at hlo
    rw [trimStartHex, if_neg (fun hx => hb hx.2)]

/-- Where the text has at most one `0x` in front, both ways to remove it agree. -/
theorem trimStartHex_eq_strip {input : Bytes}
    (h : trimStartHex (stripStartHex input) = stripStartHex input) :
    trimStartHex input = stripStartHex input := by
  match input with
  | [] => rfl
  | [_] => rfl
  | a :: b :: rest =>
    by_cases hx : a = 48 ∧ b = 120
    · rw [stripStartHex, if_pos hx] at h ⊢
      rw [trimStartHex, if_pos hx, h]
    · rw [stripStartHex, if_neg hx] at h ⊢
      exact h

theorem length_stripStartHex (input : Bytes) : (stripStartHex input).length ≤ input.length := by
  match input with
  | [] => exact le_rfl
  | [_] => exact le_rfl
  | a :: b :: rest =>
    rw [stripStartHex]
    split_ifs
    · simp only [List.length_cons]
      omega
    · exact le_rfl

/-- A selector leaves one way only to read the rest. -/
theorem trimStartHex_of_selector {input selector : Bytes}
    (h : calldataSelector input = some selector) : trimStartHex input = stripStartHex input := by
  simp only [calldataSelector] at h
  split_ifs at h
  exact trimStartHex_eq_strip (trimStartHex_of_hex (n := 6) h)

/-- The selector is the first four bytes of the calldata. -/
theorem calldataSelector_iff {input data selector : Bytes} (hlen : selector.length = 4)
    (h : hexDecode (stripStartHex input) = some data) :
    calldataSelector input = some selector ↔ data.take 4 = selector := by
  have hbody := hexDecode_length h
  have htake := hexDecode_take h 4
  simp only [calldataSelector]
  split_ifs with hshort
  · constructor
    · intro hn
      simp at hn
    · intro hs
      have hdata := congrArg List.length hs
      rw [List.length_take, hlen] at hdata
      omega
  · rw [htake, Option.some.injEq]

end Hex

/-- What is known of the generated bindings: selectors are four bytes and differ, and calldata that
decodes holds arguments after the selector. -/
structure Abi.Correct (abi : Abi) : Prop where
  writeSelector_length : abi.writeSelector.length = 4
  readSelector_length : abi.readSelector.length = 4
  selectors_differ : abi.writeSelector ≠ abi.readSelector
  write_arguments : ∀ data message, abi.decodeWriteMessage data = some message → 4 < data.length
  read_arguments : ∀ data header, abi.decodeReadMessage data = some header → 4 < data.length

/-- The bytes a frame was called with. -/
def calldata (node : Value) : Option Bytes :=
  hexDecode (stripStartHex (InstanceId.asBytes (node.strField "input")))

section Frames

variable (abi : Abi) (mailboxAddress : Address) (localChainId : ChainId)

/-- The frame is a call of the mailbox contract with this selector and calldata. -/
structure IsMailboxCall (selector : Bytes) (node : Value) (data : Bytes) : Prop where
  toMailbox : abi.parseAddress (node.strField "to") = some mailboxAddress
  calldata_eq : calldata node = some data
  selector_eq : data.take 4 = selector

/-- The frame writes this message, to a chain whose id fits in 64 bits. -/
def WritesMessage (node : Value) (call : MailboxCall) : Prop :=
  ∃ data message, IsMailboxCall abi mailboxAddress abi.writeSelector node data ∧
    (abi.parseAddress (node.strField "from")).isSome = true ∧
    abi.decodeWriteMessage data = some message ∧ message.header.chainDest.toNat ≤ u64Max ∧
    call =
      { callType := .write
        sourceChain := localChainId
        destChain := message.header.chainDest.toNat
        sender := message.header.sender
        receiver := message.header.receiver
        label := message.header.label
        data := message.payload
        sessionId := message.header.sessionId
        reverted := reverted node }

/-- The frame reads a message of a chain whose id fits in 64 bits. -/
def ReadsMessage (node : Value) (call : MailboxCall) : Prop :=
  ∃ data header, IsMailboxCall abi mailboxAddress abi.readSelector node data ∧
    abi.decodeReadMessage data = some header ∧ header.chainSrc.toNat ≤ u64Max ∧
    call =
      { callType := .read
        sourceChain := header.chainSrc.toNat
        destChain := localChainId
        sender := header.sender
        receiver := header.receiver
        label := header.label
        data := []
        sessionId := header.sessionId
        reverted := reverted node }

variable {abi mailboxAddress localChainId} {node : Value} {data selector : Bytes}

theorem chainIdOfWord_iff {word : U256} {chainId : ChainId} :
    chainIdOfWord word = some chainId ↔ word.toNat ≤ u64Max ∧ word.toNat = chainId := by
  unfold chainIdOfWord
  split_ifs with h
  · simp [h]
  · simp [h]

theorem callsMailbox_of_isMailboxCall (hlen : selector.length = 4) (hargs : 4 < data.length)
    (h : IsMailboxCall abi mailboxAddress selector node data) :
    callsMailbox abi mailboxAddress selector node = true := by
  have hbody := hexDecode_length h.calldata_eq
  have hstrip := length_stripStartHex (InstanceId.asBytes (node.strField "input"))
  have hinput : 10 ≤ (InstanceId.asBytes (node.strField "input")).length := by omega
  have hselector := (calldataSelector_iff hlen h.calldata_eq).mpr h.selector_eq
  simp [callsMailbox, h.toMailbox, hinput, hselector]

theorem isMailboxCall_of_decoded (hlen : selector.length = 4)
    (h : callsMailbox abi mailboxAddress selector node = true)
    (hdata : hexDecode (trimStartHex (InstanceId.asBytes (node.strField "input"))) = some data) :
    IsMailboxCall abi mailboxAddress selector node data := by
  simp only [callsMailbox, Bool.and_eq_true, beq_iff_eq, decide_eq_true_eq] at h
  obtain ⟨⟨hto, -⟩, hselector⟩ := h
  rw [trimStartHex_of_selector hselector] at hdata
  exact ⟨hto, hdata, (calldataSelector_iff hlen hdata).mp hselector⟩

theorem hexDecode_trimmed (hlen : selector.length = 4)
    (h : IsMailboxCall abi mailboxAddress selector node data) :
    hexDecode (trimStartHex (InstanceId.asBytes (node.strField "input"))) = some data := by
  have hselector := (calldataSelector_iff hlen h.calldata_eq).mpr h.selector_eq
  rw [trimStartHex_of_selector hselector]
  exact h.calldata_eq

theorem writeCall_iff (habi : abi.Correct) (node : Value) (call : MailboxCall) :
    writeCall abi mailboxAddress localChainId node = some call ↔
      WritesMessage abi mailboxAddress localChainId node call := by
  unfold writeCall
  constructor
  · intro h
    split_ifs at h with hcalls
    obtain ⟨caller, hfrom, hdecode⟩ := Option.bind_eq_some_iff.mp h
    simp only [decodeWrite, bind, Option.bind_eq_some_iff] at hdecode
    obtain ⟨data, hdata, message, hmessage, dest, hdest, hcall⟩ := hdecode
    obtain ⟨hfits, rfl⟩ := chainIdOfWord_iff.mp hdest
    have his := isMailboxCall_of_decoded habi.writeSelector_length hcalls hdata
    exact ⟨data, message, his, by rw [hfrom]; rfl, hmessage, hfits, (Option.some.inj hcall).symm⟩
  · rintro ⟨data, message, his, hfrom, hmessage, hfits, rfl⟩
    obtain ⟨caller, hcaller⟩ := Option.isSome_iff_exists.mp hfrom
    have hargs := habi.write_arguments data message hmessage
    have hcalls := callsMailbox_of_isMailboxCall habi.writeSelector_length hargs his
    have hdata := hexDecode_trimmed habi.writeSelector_length his
    have hdest := chainIdOfWord_iff.mpr ⟨hfits, rfl⟩
    simp [hcalls, hcaller, decodeWrite, hdata, hmessage, hdest]

theorem readCall_iff (habi : abi.Correct) (node : Value) (call : MailboxCall) :
    readCall abi mailboxAddress localChainId node = some call ↔
      ReadsMessage abi mailboxAddress localChainId node call := by
  unfold readCall
  constructor
  · intro h
    split_ifs at h with hcalls
    simp only [decodeRead, bind, Option.bind_eq_some_iff] at h
    obtain ⟨data, hdata, header, hheader, source, hsource, hcall⟩ := h
    obtain ⟨hfits, rfl⟩ := chainIdOfWord_iff.mp hsource
    have his := isMailboxCall_of_decoded habi.readSelector_length
      (Bool.and_eq_true_iff.mp hcalls).1 hdata
    exact ⟨data, header, his, hheader, hfits, (Option.some.inj hcall).symm⟩
  · rintro ⟨data, header, his, hheader, hfits, rfl⟩
    have hargs := habi.read_arguments data header hheader
    have hcalls := callsMailbox_of_isMailboxCall habi.readSelector_length hargs his
    have hdata := hexDecode_trimmed habi.readSelector_length his
    have hsource := chainIdOfWord_iff.mpr ⟨hfits, rfl⟩
    -- a frame with the selector of reads has not that of writes
    have hnot : callsMailbox abi mailboxAddress abi.writeSelector node = false := by
      have hselector := (calldataSelector_iff habi.readSelector_length his.calldata_eq).mpr
        his.selector_eq
      simp [callsMailbox, hselector, Ne.symm habi.selectors_differ]
    simp [hcalls, hnot, decodeRead, hdata, hheader, hsource]

end Frames

/-- The loop of `parse_call_trace` ends, and what it finds are the reads and writes of the frames
at the addresses down to the depth limit, in the order of the addresses and each address once. -/
theorem call_trace_parsed_in_order {abi : Abi} (habi : abi.Correct) (mailboxAddress : Address)
    (localChainId : ChainId) (trace : Value) :
    Traversal.finishes calls maxTraceDepth trace.size [(trace, 0)] = true ∧
      ∃ frames : List (List Nat), frames.Pairwise (· < ·) ∧
        (∀ address, address ∈ frames ↔ address.length ≤ maxTraceDepth ∧
          (Traversal.nodeAt calls trace address).isSome = true) ∧
        ∃ read write : Value → Option MailboxCall,
          (∀ node call, read node = some call ↔
            ReadsMessage abi mailboxAddress localChainId node call) ∧
          (∀ node call, write node = some call ↔
            WritesMessage abi mailboxAddress localChainId node call) ∧
          parseCallTrace abi mailboxAddress localChainId trace =
            ⟨(frames.filterMap (Traversal.nodeAt calls trace)).filterMap read,
              (frames.filterMap (Traversal.nodeAt calls trace)).filterMap write⟩ := by
  refine ⟨?_, Traversal.addresses calls maxTraceDepth trace, Traversal.addresses_sorted _ _,
    Traversal.mem_addresses _ _, readCall abi mailboxAddress localChainId,
    writeCall abi mailboxAddress localChainId, readCall_iff habi, writeCall_iff habi, ?_⟩
  · exact Traversal.walk_finishes Value.size calls_size _ _ _ (by simp)
  · rw [parseCallTrace_eq, Traversal.preorder_eq_addresses]

/-- Calldata of `writeMessage` to chain 902 for a session, with an empty label and payload. -/
def writeInput (session : Nat) : String :=
  "0x85f178d0" ++ Simulation.hexWord 32 ++ Simulation.hexWord 64 ++ Simulation.hexWord 288 ++
    Simulation.hexWord 901 ++ Simulation.hexWord 902 ++ Simulation.hexWord 0x11 ++
    Simulation.hexWord 0x22 ++ Simulation.hexWord session ++ Simulation.hexWord 192 ++
    Simulation.hexWord 0 ++ Simulation.hexWord 0

/-- Calldata of `readMessage` from chain 902 for a session, with an empty label. -/
def readInput (session : Nat) : String :=
  "0x3b6b1a56" ++ Simulation.hexWord 32 ++ Simulation.hexWord 902 ++ Simulation.hexWord 901 ++
    Simulation.hexWord 0x22 ++ Simulation.hexWord 0x11 ++ Simulation.hexWord session ++
    Simulation.hexWord 192 ++ Simulation.hexWord 0

def lowAddress (last : UInt8) : Address := ⟨List.replicate 19 0 ++ [last], rfl⟩

/-- The session of one of the three calls that the bindings below know. -/
def sessionOf (input : Nat → String) (data : Bytes) : Option Nat :=
  [1, 2, 3].find? (fun session =>
    some data = hexDecode (stripStartHex (InstanceId.asBytes (input session))))

/-- The bindings as they act on the calls of `nestedTrace`. -/
def nestedAbi : Abi :=
  { writeSelector := [0x85, 0xf1, 0x78, 0xd0]
    readSelector := [0x3b, 0x6b, 0x1a, 0x56]
    decodeWriteMessage := fun data => (sessionOf writeInput data).map (fun session =>
      ⟨⟨901, 902, lowAddress 0x11, lowAddress 0x22, BitVec.ofNat 256 session, ""⟩, []⟩)
    decodeReadMessage := fun data => (sessionOf readInput data).map (fun session =>
      ⟨902, 901, lowAddress 0x22, lowAddress 0x11, BitVec.ofNat 256 session, ""⟩)
    parseAddress := fun text =>
      if text = "0x3333333333333333333333333333333333333333" then
        some (FixedBytes.repeatByte 20 0x33)
      else if text = "0x5555555555555555555555555555555555555555" then
        some (FixedBytes.repeatByte 20 0x55)
      else none }

theorem sessionOf_arguments {input : Nat → String} {data : Bytes} {session : Nat}
    (hlong : ∀ n ∈ [1, 2, 3], 10 ≤ (stripStartHex (InstanceId.asBytes (input n))).length)
    (h : sessionOf input data = some session) : 4 < data.length := by
  have hmem := List.mem_of_find?_eq_some h
  have hdata : some data = hexDecode (stripStartHex (InstanceId.asBytes (input session))) := by
    simpa using List.find?_some h
  have hlen := hexDecode_length hdata.symm
  have hten := hlong session hmem
  omega

theorem nestedAbi_correct : nestedAbi.Correct := by
  have hwrites : ∀ n ∈ [1, 2, 3],
      10 ≤ (stripStartHex (InstanceId.asBytes (writeInput n))).length := by decide +kernel
  have hreads : ∀ n ∈ [1, 2, 3],
      10 ≤ (stripStartHex (InstanceId.asBytes (readInput n))).length := by decide +kernel
  refine ⟨rfl, rfl, by decide, ?_, ?_⟩
  · intro data message h
    simp only [nestedAbi, Option.map_eq_some_iff] at h
    obtain ⟨session, hs, -⟩ := h
    exact sessionOf_arguments hwrites hs
  · intro data header h
    simp only [nestedAbi, Option.map_eq_some_iff] at h
    obtain ⟨session, hs, -⟩ := h
    exact sessionOf_arguments hreads hs

def mailboxFrame (input : String) (below : List Value) : Value :=
  .object
    [("from", .string "0x3333333333333333333333333333333333333333"),
      ("to", .string "0x5555555555555555555555555555555555555555"),
      ("input", .string input),
      ("calls", .array below)]

/-- A write with a read below it, and a second write to the right. -/
def nestedTrace : Value :=
  .object
    [("from", .string "0x3333333333333333333333333333333333333333"),
      ("to", .string "0x3333333333333333333333333333333333333333"),
      ("input", .string "0x"),
      ("calls", .array [mailboxFrame (writeInput 1) [mailboxFrame (readInput 2) []],
        mailboxFrame (writeInput 3) []])]

theorem call_trace_parsed_in_order_nested :
    nestedAbi.Correct ∧
      Traversal.finishes calls maxTraceDepth nestedTrace.size [(nestedTrace, 0)] = true ∧
      (parseCallTrace nestedAbi (FixedBytes.repeatByte 20 0x55) 901 nestedTrace).reads.map
        MailboxCall.sessionId = [2] ∧
      (parseCallTrace nestedAbi (FixedBytes.repeatByte 20 0x55) 901 nestedTrace).writes.map
        MailboxCall.sessionId = [1, 3] := by
  have hparsed := call_trace_parsed_in_order nestedAbi_correct (FixedBytes.repeatByte 20 0x55) 901
    nestedTrace
  have hsessions : (fun parsed : SimulationState =>
      (parsed.reads.map MailboxCall.sessionId, parsed.writes.map MailboxCall.sessionId))
      (parseCallTrace nestedAbi (FixedBytes.repeatByte 20 0x55) 901 nestedTrace) =
      ([2], [1, 3]) := by decide +kernel
  obtain ⟨hreads, hwrites⟩ := Prod.mk.inj hsessions
  exact ⟨nestedAbi_correct, hparsed.1, hreads, hwrites⟩

end Sidecar.Mailbox
