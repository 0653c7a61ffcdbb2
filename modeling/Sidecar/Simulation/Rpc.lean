import Sidecar.Mailbox.Parser

namespace Sidecar.Simulation

open Mailbox

inductive SimulationError where
  | rpc (reason : String)
  | other (reason : String)
  deriving DecidableEq

/-- One account in a prestate trace; untouched fields are absent. -/
structure AccountState where
  balance : Option U256 := none
  nonce : Option Nat := none
  code : Option Bytes := none
  storage : SlotMap := ∅

structure DiffMode where
  pre : Map Address AccountState := ∅
  post : Map Address AccountState := ∅

inductive PreStateFrame where
  | default (accounts : Map Address AccountState)
  | diff (diff : DiffMode)

def zeroSlot : B256 := FixedBytes.repeatByte 32 0

/-- Slots of the pre-state that the transaction cleared are set to zero explicitly. -/
def clearedSlots (preStorage postStorage : SlotMap) : SlotMap :=
  preStorage.keys.foldl
    (fun diff slot => if slot ∈ diff then diff else diff.insert slot zeroSlot) postStorage

def accountOverride (preState : Option AccountState) (postState : AccountState) :
    AccountOverride :=
  let diff := match preState with
    | some pre => clearedSlots pre.storage postState.storage
    | none => postState.storage
  { balance := postState.balance
    nonce := postState.nonce
    code := postState.code
    stateDiff := if diff.entries.isEmpty then none else some diff }

/-- An account that is gone after the transaction. -/
def destroyedAccount : AccountOverride :=
  { balance := some 0, nonce := some 0, code := some [], state := some ∅ }

def stateOverridesFromDiff (diff : DiffMode) : Option StateOverride :=
  let (pre, overrides) := diff.post.entries.foldl
    (fun (acc : Map Address AccountState × StateOverride) entry =>
      let account := accountOverride (acc.1.lookup entry.1) entry.2
      let keep := account.balance.isSome || account.nonce.isSome || account.code.isSome ||
        account.stateDiff.isSome
      (acc.1.erase entry.1, if keep then acc.2.insert entry.1 account else acc.2))
    (diff.pre, ∅)
  let all := pre.keys.foldl (fun acc address => acc.insert address destroyedAccount) overrides
  if all.entries.isEmpty then none else some all

def traceStateOverrides : PreStateFrame → Except SimulationError (Option StateOverride)
  | .default _ => .error (.other "prestate tracer returned non-diff response")
  | .diff diff => .ok (stateOverridesFromDiff diff)

/-- A failed or malformed prestate trace is ignored. -/
def optionalTraceStateOverrides (result : Except SimulationError PreStateFrame) :
    Option StateOverride :=
  match result with
  | .error _ => none
  | .ok frame =>
    match traceStateOverrides frame with
    | .error _ => none
    | .ok overrides => overrides

/-- The simulator's settings that decide how a trace is read. -/
structure RpcSimulator where
  abi : Abi
  mailboxAddress : Option Address

def dependencyOfCall (call : MailboxCall) : CrossRollupDependency :=
  { sourceChainId := call.sourceChain
    destChainId := call.destChain
    sender := call.sender
    receiver := call.receiver
    label := InstanceId.asBytes call.label
    data := none
    sessionId := call.sessionId }

def messageOfCall (call : MailboxCall) : CrossRollupMessage :=
  { sourceChainId := call.sourceChain
    destChainId := call.destChain
    sender := call.sender
    receiver := call.receiver
    label := call.label
    data := call.data
    sessionId := call.sessionId }

/-- Only reverted reads become dependencies; every parsed write becomes a message. -/
def extractMailboxData (sim : RpcSimulator) (trace : Value) (chainId : ChainId) :
    List CrossRollupDependency × List CrossRollupMessage :=
  match sim.mailboxAddress with
  | none => ([], [])
  | some mailboxAddr =>
    let parsed := parseCallTrace sim.abi mailboxAddr chainId trace
    ((parsed.reads.filter MailboxCall.reverted).map dependencyOfCall,
      parsed.writes.map messageOfCall)

def resultFromTraces (sim : RpcSimulator) (chainId : ChainId) (trace : Value)
    (prestateTrace : Except SimulationError PreStateFrame) : SimulationResult :=
  let topLevelOk := match trace.get "error" with
    | some e => (e.asStr.getD "").isEmpty
    | none => true
  let errorMsg := (trace.get "error").bind Value.asStr
  let (dependencies, outboundMessages) := extractMailboxData sim trace chainId
  let success := topLevelOk && dependencies.isEmpty
  { success := success
    error := if !success && errorMsg.isNone then
        some (toString dependencies.length ++ " mailbox readMessage call(s) reverted inside " ++
          "an otherwise successful transaction")
      else errorMsg
    stateOverrides := optionalTraceStateOverrides prestateTrace
    dependencies := dependencies
    outboundMessages := outboundMessages }

end Sidecar.Simulation
