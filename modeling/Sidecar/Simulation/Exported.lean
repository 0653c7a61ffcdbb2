import Sidecar.Mailbox.Trace
import Sidecar.Simulation.Rpc

namespace Sidecar.Simulation

open Mailbox Traversal

/-- The message a frame is exported as, when it is a mailbox write. -/
def exportedMessage (sim : RpcSimulator) (chainId : ChainId) (frame : Value) :
    Option CrossRollupMessage :=
  match sim.mailboxAddress with
  | none => none
  | some mailboxAddr => (writeCall sim.abi mailboxAddr chainId frame).map messageOfCall

/-- No frame between the root and the write, both included, carries an error: the write
is still there in the state after the transaction. -/
def Persists (chain : List Value) : Prop := ∀ frame ∈ chain, reverted frame = false

/-- The message is written by a frame of the trace whose effects were kept. -/
def WrittenForGood (sim : RpcSimulator) (chainId : ChainId) (trace : Value)
    (msg : CrossRollupMessage) : Prop :=
  ∃ chain frame, Descent calls trace chain frame ∧
    exportedMessage sim chainId frame = some msg ∧ Persists chain

/-- Whatever a reverted part of the trace writes, within the depth the parser looks at, is
written once more by a part that did not revert. -/
def RevertedWritesRepeated (sim : RpcSimulator) (chainId : ChainId) (trace : Value) : Prop :=
  ∀ chain frame msg, Descent calls trace chain frame → chain.length ≤ maxTraceDepth + 1 →
    exportedMessage sim chainId frame = some msg → ¬Persists chain →
    WrittenForGood sim chainId trace msg

theorem outboundMessages_eq (sim : RpcSimulator) (chainId : ChainId) (trace : Value)
    (prestate : Except SimulationError PreStateFrame) :
    (resultFromTraces sim chainId trace prestate).outboundMessages =
      (preorder calls maxTraceDepth trace).filterMap (exportedMessage sim chainId) := by
  have hout : (resultFromTraces sim chainId trace prestate).outboundMessages =
      (extractMailboxData sim trace chainId).2 := rfl
  rw [hout]
  unfold extractMailboxData
  cases haddr : sim.mailboxAddress with
  | none =>
    have hnone : exportedMessage sim chainId = fun _ => none := by
      funext frame
      simp [exportedMessage, haddr]
    simp [hnone]
  | some mailboxAddr =>
    have hsome : exportedMessage sim chainId =
        fun frame => (writeCall sim.abi mailboxAddr chainId frame).map messageOfCall := by
      funext frame
      simp [exportedMessage, haddr]
    simp only [parseCallTrace_eq, hsome, List.map_filterMap]

theorem mem_outboundMessages (sim : RpcSimulator) (chainId : ChainId) (trace : Value)
    (prestate : Except SimulationError PreStateFrame) (msg : CrossRollupMessage) :
    msg ∈ (resultFromTraces sim chainId trace prestate).outboundMessages ↔
      ∃ chain frame, Descent calls trace chain frame ∧ chain.length ≤ maxTraceDepth + 1 ∧
        exportedMessage sim chainId frame = some msg := by
  rw [outboundMessages_eq, List.mem_filterMap]
  constructor
  · intro h
    obtain ⟨frame, hmem, hmsg⟩ := h
    obtain ⟨chain, hd, hlen⟩ := (mem_preorder _ _ _).mp hmem
    exact ⟨chain, frame, hd, hlen, hmsg⟩
  · intro h
    obtain ⟨chain, frame, hd, hlen, hmsg⟩ := h
    exact ⟨frame, (mem_preorder _ _ _).mpr ⟨chain, hd, hlen⟩, hmsg⟩

/-- The frame is a mailbox read that reverted. -/
def readReverts (sim : RpcSimulator) (chainId : ChainId) (frame : Value) : Bool :=
  match sim.mailboxAddress with
  | none => false
  | some mailboxAddr =>
    ((readCall sim.abi mailboxAddr chainId frame).map MailboxCall.reverted).getD false

/-- The transaction went through and every mailbox read in it found its message. -/
def RunsThrough (sim : RpcSimulator) (chainId : ChainId) (trace : Value) : Prop :=
  reverted trace = false ∧
    ∀ chain frame, Descent calls trace chain frame → chain.length ≤ maxTraceDepth + 1 →
      readReverts sim chainId frame = false

theorem dependencies_isEmpty (sim : RpcSimulator) (chainId : ChainId) (trace : Value) :
    (extractMailboxData sim trace chainId).1.isEmpty = true ↔
      ∀ frame ∈ preorder calls maxTraceDepth trace, readReverts sim chainId frame = false := by
  unfold extractMailboxData readReverts
  cases haddr : sim.mailboxAddress with
  | none => simp
  | some mailboxAddr =>
    simp only [parseCallTrace_eq, List.isEmpty_iff, List.map_eq_nil_iff, List.filter_eq_nil_iff,
      List.mem_filterMap]
    constructor
    · intro h frame hmem
      cases hread : readCall sim.abi mailboxAddr chainId frame with
      | none => rfl
      | some call => simpa using h call ⟨frame, hmem, hread⟩
    · intro h call hcall
      obtain ⟨frame, hmem, hread⟩ := hcall
      have hf := h frame hmem
      simpa [hread] using hf

theorem success_iff (sim : RpcSimulator) (chainId : ChainId) (trace : Value)
    (prestate : Except SimulationError PreStateFrame) :
    (resultFromTraces sim chainId trace prestate).success = true ↔
      RunsThrough sim chainId trace := by
  have hsuccess : (resultFromTraces sim chainId trace prestate).success =
      (!reverted trace && (extractMailboxData sim trace chainId).1.isEmpty) := by
    simp only [resultFromTraces, reverted]
    cases trace.get "error" with
    | none => rfl
    | some e => cases he : e.asStr <;> simp [he]
  rw [hsuccess, Bool.and_eq_true, dependencies_isEmpty, Bool.not_eq_true']
  refine and_congr_right (fun _ => ?_)
  constructor
  · intro h chain frame hd hlen
    exact h frame ((mem_preorder _ _ _).mpr ⟨chain, hd, hlen⟩)
  · intro h frame hmem
    obtain ⟨chain, hd, hlen⟩ := (mem_preorder _ _ _).mp hmem
    exact h chain frame hd hlen

/-- What a successful simulation exports was written for good exactly when, in a trace that
runs through, the writes of reverted parts are repeated by parts that did not revert. -/
theorem exported_writes_persist_iff (sim : RpcSimulator) (chainId : ChainId) (trace : Value)
    (prestate : Except SimulationError PreStateFrame) :
    ((resultFromTraces sim chainId trace prestate).success = true →
        ∀ msg ∈ (resultFromTraces sim chainId trace prestate).outboundMessages,
          WrittenForGood sim chainId trace msg) ↔
      (RunsThrough sim chainId trace → RevertedWritesRepeated sim chainId trace) := by
  rw [success_iff]
  refine imp_congr_right (fun _ => ?_)
  constructor
  · intro h chain frame msg hd hlen hmsg _
    exact h msg ((mem_outboundMessages ..).mpr ⟨chain, frame, hd, hlen, hmsg⟩)
  · intro h msg hmem
    obtain ⟨chain, frame, hd, hlen, hmsg⟩ := (mem_outboundMessages ..).mp hmem
    by_cases hp : Persists chain
    · exact ⟨chain, frame, hd, hmsg, hp⟩
    · exact h chain frame msg hd hlen hmsg hp

/-- A 32-byte word of calldata in hex. -/
def hexWord (n : Nat) : String := String.ofList (List.leftpad 64 '0' (Nat.toDigits 16 n))

/-- Calldata of `writeMessage` for `swallowedMessage`: offsets, header, empty label and an
empty payload. -/
def swallowedInput : String :=
  "0x85f178d0" ++ hexWord 32 ++ hexWord 64 ++ hexWord 288 ++ hexWord 0 ++ hexWord 902 ++
    hexWord 0x1111111111111111111111111111111111111111 ++
    hexWord 0x2222222222222222222222222222222222222222 ++ hexWord 7 ++ hexWord 192 ++
    hexWord 0 ++ hexWord 0

def swallowedMessage : Message :=
  { header :=
      { chainSrc := 0
        chainDest := 902
        sender := FixedBytes.repeatByte 20 0x11
        receiver := FixedBytes.repeatByte 20 0x22
        sessionId := 7
        label := "" }
    payload := [] }

/-- The bindings as they act on the texts of `swallowedTrace`. -/
def swallowedSimulator : RpcSimulator :=
  { abi :=
      { writeSelector := [0x85, 0xf1, 0x78, 0xd0]
        readSelector := [0x3b, 0x6b, 0x1a, 0x56]
        decodeWriteMessage := fun data =>
          if some data = hexDecode (trimStartHex (InstanceId.asBytes swallowedInput)) then
            some swallowedMessage
          else none
        decodeReadMessage := fun _ => none
        parseAddress := fun text =>
          if text = "0x3333333333333333333333333333333333333333" then
            some (FixedBytes.repeatByte 20 0x33)
          else if text = "0x4444444444444444444444444444444444444444" then
            some (FixedBytes.repeatByte 20 0x44)
          else if text = "0x5555555555555555555555555555555555555555" then
            some (FixedBytes.repeatByte 20 0x55)
          else none }
    mailboxAddress := some (FixedBytes.repeatByte 20 0x55) }

def swallowedWrite : Value :=
  .object
    [("from", .string "0x4444444444444444444444444444444444444444"),
      ("to", .string "0x5555555555555555555555555555555555555555"),
      ("input", .string swallowedInput)]

def swallowedBridge : Value :=
  .object
    [("from", .string "0x3333333333333333333333333333333333333333"),
      ("to", .string "0x4444444444444444444444444444444444444444"),
      ("input", .string "0x"),
      ("error", .string "execution reverted"),
      ("calls", .array [swallowedWrite])]

/-- A bridge call writes to the mailbox and then reverts; its caller catches the revert. -/
def swallowedTrace : Value :=
  .object
    [("from", .string "0x3333333333333333333333333333333333333333"),
      ("to", .string "0x3333333333333333333333333333333333333333"),
      ("input", .string "0x"),
      ("calls", .array [swallowedBridge])]

theorem swallowed_write_exported :
    (resultFromTraces swallowedSimulator 901 swallowedTrace (.ok (.diff {}))).success = true ∧
      ¬∀ msg ∈ (resultFromTraces swallowedSimulator 901 swallowedTrace
          (.ok (.diff {}))).outboundMessages,
        WrittenForGood swallowedSimulator 901 swallowedTrace msg := by
  have hroot : exportedMessage swallowedSimulator 901 swallowedTrace = none := by decide +kernel
  have hbridge : reverted swallowedBridge = true := by decide +kernel
  have hcalls : calls swallowedTrace = [swallowedBridge] := rfl
  -- every descent that leaves the root passes the reverted bridge call
  have hnever : ∀ msg, ¬WrittenForGood swallowedSimulator 901 swallowedTrace msg := by
    intro msg h
    obtain ⟨chain, frame, hd, hmsg, hp⟩ := h
    cases hd with
    | here => simp [hroot] at hmsg
    | @down _ child _ chain hc hd =>
      rw [hcalls, List.mem_singleton] at hc
      have hmem : child ∈ swallowedTrace :: chain := by
        cases hd <;> simp
      have hkept := hp child hmem
      rw [hc, hbridge] at hkept
      simp at hkept
  refine ⟨by decide +kernel, fun h => ?_⟩
  have hlen : (resultFromTraces swallowedSimulator 901 swallowedTrace
      (.ok (.diff {}))).outboundMessages.length = 1 := by decide +kernel
  obtain ⟨msg, hmsg⟩ := List.length_eq_one_iff.mp hlen
  exact hnever msg (h msg (by simp [hmsg]))

end Sidecar.Simulation
