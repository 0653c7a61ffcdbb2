import Sidecar.Mailbox.Parser

namespace Sidecar.Mailbox

section Frame

variable (abi : Abi) (mailboxAddress : Address) (localChainId : ChainId)

/-- The frame calls the mailbox contract with this selector. -/
def callsMailbox (selector : Bytes) (node : Value) : Bool :=
  let input := InstanceId.asBytes (node.strField "input")
  abi.parseAddress (node.strField "to") == some mailboxAddress && 10 ≤ input.length &&
    calldataSelector input == some selector

/-- The mailbox write that a frame stands for, if it stands for one. -/
def writeCall (node : Value) : Option MailboxCall :=
  if callsMailbox abi mailboxAddress abi.writeSelector node then
    (abi.parseAddress (node.strField "from")).bind (fun caller =>
      decodeWrite abi localChainId (InstanceId.asBytes (node.strField "input")) caller
        (reverted node))
  else none

/-- The mailbox read that a frame stands for; a write selector is never a read. -/
def readCall (node : Value) : Option MailboxCall :=
  if callsMailbox abi mailboxAddress abi.readSelector node &&
      !callsMailbox abi mailboxAddress abi.writeSelector node then
    decodeRead abi localChainId (InstanceId.asBytes (node.strField "input")) (reverted node)
  else none

/-- Appends what one frame stands for to what was parsed before. -/
def SimulationState.push (state : SimulationState) (read write : Option MailboxCall) :
    SimulationState :=
  ⟨state.reads ++ read.toList, state.writes ++ write.toList⟩

theorem push_none (state : SimulationState) : state.push none none = state := by
  simp [SimulationState.push]

theorem visitNode_eq (node : Value) (state : SimulationState) :
    visitNode abi mailboxAddress localChainId node state =
      state.push (readCall abi mailboxAddress localChainId node)
        (writeCall abi mailboxAddress localChainId node) := by
  unfold visitNode readCall writeCall callsMailbox
  generalize InstanceId.asBytes (node.strField "input") = input
  cases abi.parseAddress (node.strField "to") with
  | none => simp [push_none]
  | some toAddr =>
    by_cases haddr : toAddr = mailboxAddress
    · by_cases hlen : input.length < 10
      · have hnot : ¬10 ≤ input.length := by omega
        simp [hlen, hnot, push_none]
      · have hge : 10 ≤ input.length := by omega
        by_cases hw : calldataSelector input = some abi.writeSelector
        · cases abi.parseAddress (node.strField "from") with
          | none => simp [haddr, hlen, hge, hw, push_none]
          | some caller =>
            cases hd : decodeWrite abi localChainId input caller (reverted node) <;>
              simp [haddr, hlen, hge, hw, hd, SimulationState.push]
        · by_cases hr : calldataSelector input = some abi.readSelector
          · have hne : ¬abi.readSelector = abi.writeSelector := by
              intro he
              exact hw (he ▸ hr)
            cases hd : decodeRead abi localChainId input (reverted node) <;>
              simp [haddr, hlen, hge, hr, hne, hd, SimulationState.push]
          · simp [haddr, hlen, hge, hw, hr, push_none]
    · simp [haddr, push_none]

end Frame

private theorem lookup_size (key : String) (fields : List (String × Value)) (value : Value)
    (h : fields.lookup key = some value) : value.size ≤ Value.sizeFields fields := by
  induction fields with
  | nil => simp at h
  | cons field fields ih =>
    obtain ⟨name, v⟩ := field
    rw [List.lookup_cons] at h
    rw [Value.sizeFields]
    split at h
    · have hv : v = value := Option.some.inj h
      rw [hv]
      omega
    · have hle := ih h
      omega

private theorem sizeItems_eq (items : List Value) :
    Value.sizeItems items = (items.map Value.size).sum := by
  induction items with
  | nil => rfl
  | cons item items ih => rw [Value.sizeItems, ih, List.map_cons, List.sum_cons]

private theorem size_pos (value : Value) : 0 < value.size := by
  cases value <;> simp only [Value.size] <;> omega

/-- The children of a frame are parts of it. -/
theorem calls_size (node : Value) : ((calls node).map Value.size).sum < node.size := by
  have hpos := size_pos node
  unfold calls
  cases hget : node.get "calls" with
  | none => simpa using hpos
  | some value =>
    cases value with
    | array items =>
      cases node with
      | object fields =>
        have hle := lookup_size "calls" fields (.array items) hget
        simp only [Value.size, sizeItems_eq] at hle ⊢
        simp only [Option.bind_some, Value.asArray, Option.getD_some]
        omega
      | null | bool _ | number _ | string _ | array _ => simp [Value.get] at hget
    | null | bool _ | number _ | string _ | object _ => simpa [Value.asArray] using hpos

variable (abi : Abi) (mailboxAddress : Address) (localChainId : ChainId)

private theorem foldl_visitNode (nodes : List Value) (state : SimulationState) :
    nodes.foldl (fun s node => visitNode abi mailboxAddress localChainId node s) state =
      ⟨state.reads ++ nodes.filterMap (readCall abi mailboxAddress localChainId),
        state.writes ++ nodes.filterMap (writeCall abi mailboxAddress localChainId)⟩ := by
  induction nodes generalizing state with
  | nil => simp
  | cons node nodes ih =>
    rw [List.foldl_cons, ih, visitNode_eq]
    cases hr : readCall abi mailboxAddress localChainId node <;>
      cases hw : writeCall abi mailboxAddress localChainId node <;>
      simp [SimulationState.push, hr, hw]

/-- The parser finds the calls of all frames down to the depth limit, in trace order. -/
theorem parseCallTrace_eq (trace : Value) :
    parseCallTrace abi mailboxAddress localChainId trace =
      ⟨(Traversal.preorder calls maxTraceDepth trace).filterMap
          (readCall abi mailboxAddress localChainId),
        (Traversal.preorder calls maxTraceDepth trace).filterMap
          (writeCall abi mailboxAddress localChainId)⟩ := by
  unfold parseCallTrace
  rw [Traversal.walk_root Value.size calls_size, foldl_visitNode]
  simp

end Sidecar.Mailbox
