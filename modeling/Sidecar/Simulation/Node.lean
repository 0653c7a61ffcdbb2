import Sidecar.Mailbox.StorageRead
import Sidecar.Simulation.Exported
import Sidecar.Simulation.StateDiff

/-! The simulator as a client of a node: how a transaction becomes a call to trace, what is sent
with it, and on what state the node then runs it. -/

namespace Sidecar.Simulation

open Mailbox

section Client

/-- The fields of a signed transaction that the simulator reads. -/
structure TxEnvelope where
  gasLimit : Nat
  toAddress : Option Address
  input : Bytes
  value : U256

/-- The call object of `debug_traceCall`. -/
structure EthTransactionRequest where
  fromAddress : Address
  gas : Nat
  toAddress : Option Address := none
  data : Option Bytes := none
  value : Option U256 := none
  deriving DecidableEq

/-- The decoding of signed transactions, as the library does it. -/
structure TxCodec where
  decode : Bytes → Except String TxEnvelope
  recoverSigner : TxEnvelope → Except String Address

def decodeTx (codec : TxCodec) (txBytes : Bytes) : Except SimulationError EthTransactionRequest :=
  match codec.decode txBytes with
  | .error e => .error (.other ("failed to decode tx: " ++ e))
  | .ok signed =>
    match codec.recoverSigner signed with
    | .error e => .error (.other ("failed to recover signer: " ++ e))
    | .ok signer =>
      .ok
        { fromAddress := signer
          gas := signed.gasLimit
          toAddress := signed.toAddress
          data := if signed.input.isEmpty then none else some signed.input
          value := if signed.value = 0 then none else some signed.value }

/-- `data` is the text of the JSON value. -/
structure JsonRpcError where
  code : Int
  message : String
  data : Option String := none

def JsonRpcError.intoMessage (err : JsonRpcError) : String :=
  match err.data with
  | some data => "code " ++ toString err.code ++ ": " ++ err.message ++ " (" ++ data ++ ")"
  | none => "code " ++ toString err.code ++ ": " ++ err.message

structure JsonRpcResponse (α : Type) where
  result : Option α
  error : Option JsonRpcError

/-- The parameters of a `debug_traceCall`, without the options of the tracer. -/
structure TraceCallParams where
  txArgs : EthTransactionRequest
  block : String
  stateOverrides : Option StateOverride

/-- What the node at a URL answers to the two tracers; the errors are those of the transport. -/
structure Node where
  callTracer : String → TraceCallParams → Except String (JsonRpcResponse Value)
  prestateTracer : String → TraceCallParams → Except String (JsonRpcResponse PreStateFrame)

structure ChainRpcConfig where
  chainId : ChainId
  rpcUrl : String

/-- The simulator with its endpoints. -/
structure RpcClient extends RpcSimulator where
  chains : Map ChainId ChainRpcConfig
  codec : TxCodec
  keccak256 : Bytes → B256

/-- `new`: a later entry for a chain replaces an earlier one. -/
def chainMap (chains : List ChainRpcConfig) : Map ChainId ChainRpcConfig :=
  chains.foldl (fun (acc : Map ChainId ChainRpcConfig) c => acc.insert c.chainId c) ∅

variable (client : RpcClient) (node : Node)

def rpcUrl (chainId : ChainId) : Except SimulationError String :=
  match client.chains.lookup chainId with
  | some c => .ok c.rpcUrl
  | none => .error (.other ("no RPC configured for chain " ++ toString chainId))

def traceParams (txArgs : EthTransactionRequest) (stateOverrides : StateOverride) : TraceCallParams :=
  { txArgs := txArgs
    block := "pending"
    stateOverrides := if stateOverrides.entries.isEmpty then none else some stateOverrides }

/-- The answer of a node: an error of the transport or of the node, or the trace. -/
def traceAnswer {α : Type} (response : Except String (JsonRpcResponse α)) :
    Except SimulationError α :=
  match response with
  | .error e => .error (.rpc e)
  | .ok response =>
    match response.error with
    | some err => .error (.rpc err.intoMessage)
    | none =>
      match response.result with
      | some trace => .ok trace
      | none => .error (.rpc "missing debug_traceCall result")

def traceCall {α : Type} (tracer : String → TraceCallParams → Except String (JsonRpcResponse α))
    (chainId : ChainId) (txArgs : EthTransactionRequest) (stateOverrides : StateOverride) :
    Except SimulationError α :=
  match rpcUrl client chainId with
  | .error e => .error e
  | .ok url => traceAnswer (tracer url (traceParams txArgs stateOverrides))

/-- The two traces are taken beside each other; only a failure of the call trace counts. -/
def simulateCall (chainId : ChainId) (txArgs : EthTransactionRequest)
    (stateOverrides : StateOverride) : Except SimulationError SimulationResult :=
  match traceCall client node.callTracer chainId txArgs stateOverrides with
  | .error e => .error e
  | .ok trace =>
    .ok (resultFromTraces client.toRpcSimulator chainId trace
      (traceCall client node.prestateTracer chainId txArgs stateOverrides))

def simulate (chainId : ChainId) (tx : Bytes) (stateOverrides : StateOverride) :
    Except SimulationError SimulationResult :=
  match decodeTx client.codec tx with
  | .error e => .error e
  | .ok txArgs => simulateCall client node chainId txArgs stateOverrides

def simulateWithMailbox (chainId : ChainId) (tx : Bytes) (stateOverrides : StateOverride)
    (fulfilledDeps : List CrossRollupDependency) : Except SimulationError SimulationResult :=
  match client.mailboxAddress with
  | none => simulate client node chainId tx stateOverrides
  | some mailboxAddr =>
    if fulfilledDeps.isEmpty then simulate client node chainId tx stateOverrides
    else
      match buildMailboxStateOverrides client.keccak256 chainId mailboxAddr fulfilledDeps with
      | none => simulate client node chainId tx stateOverrides
      | some mailboxOverrides =>
        match decodeTx client.codec tx with
        | .error e => .error e
        | .ok txArgs =>
          simulateCall client node chainId txArgs
            (mergeOverridesOwned stateOverrides mailboxOverrides)

end Client

section Delivered

variable (client : RpcClient) (node : Node)

/-- The overrides that show the mailbox contract what was fulfilled. -/
def deliveredOverrides (chainId : ChainId) (deps : List CrossRollupDependency) : StateOverride :=
  (client.mailboxAddress.bind (fun addr =>
    buildMailboxStateOverrides client.keccak256 chainId addr deps)).getD ∅

/-- The overrides that a simulation with these dependencies is traced under. -/
def tracedOverrides (chainId : ChainId) (stateOverrides : StateOverride)
    (deps : List CrossRollupDependency) : StateOverride :=
  mergeOverridesOwned stateOverrides (deliveredOverrides client chainId deps)

/-- All ways out of `simulate_with_mailbox` are one: the plain simulation, under the overrides with
what was fulfilled merged in. -/
theorem simulateWithMailbox_eq (chainId : ChainId) (tx : Bytes) (stateOverrides : StateOverride)
    (deps : List CrossRollupDependency) :
    simulateWithMailbox client node chainId tx stateOverrides deps =
      simulate client node chainId tx (tracedOverrides client chainId stateOverrides deps) := by
  unfold simulateWithMailbox tracedOverrides deliveredOverrides
  cases client.mailboxAddress with
  | none => rfl
  | some addr =>
    simp only [Option.bind_some]
    cases deps with
    | nil => rfl
    | cons dep deps =>
      cases hbuild : buildMailboxStateOverrides client.keccak256 chainId addr (dep :: deps) with
      | none => rfl
      | some overrides => rfl

end Delivered

section Contents

/-- What the contents of an account set a cell to. -/
def contentsSets (account : AccountContents) : (c : Cell) → Option c.Value
  | .balance _ => account.balance
  | .nonce _ => account.nonce
  | .code _ => account.code
  | .slot _ key =>
    match account.state with
    | some slots => some ((slots key).getD zeroSlot)
    | none => account.stateDiff.bind (fun diff => diff key)

theorem contentsSets_accountContents (account : AccountOverride) (c : Cell) :
    contentsSets (accountContents account) c = accountSets account c := by
  cases c with
  | slot address key =>
    simp only [contentsSets, accountContents, accountSets, slotValue]
    cases account.state with
    | some slots => rfl
    | none => cases account.stateDiff <;> rfl
  | _ => rfl

/-- Overrides with the same contents set the same cells. -/
theorem sets_of_contents {overrides overrides' : StateOverride}
    (h : contents overrides = contents overrides') : sets overrides = sets overrides' := by
  have hsets : ∀ (o : StateOverride) (c : Cell),
      sets o c = (contents o c.address).bind (fun account => contentsSets account c) := by
    intro o c
    unfold sets contents
    cases o.lookup c.address with
    | none => rfl
    | some account => exact (contentsSets_accountContents account c).symm
  funext c
  rw [hsets, hsets, h]

theorem oneStorage_of_contents {overrides overrides' : StateOverride}
    (h : contents overrides = contents overrides') (hone : OneStorage overrides) :
    OneStorage overrides' := by
  intro address account hl
  have hcontents := congrFun h address
  simp only [contents, hl, Option.map_some] at hcontents
  obtain ⟨account', hl', heq⟩ := Option.map_eq_some_iff.mp hcontents
  have hold := hone address account' hl'
  have hstate := congrArg (fun a => a.state.isNone) heq
  have hdiff := congrArg (fun a => a.stateDiff.isNone) heq
  simp only [accountContents, Option.isNone_map] at hstate hdiff
  unfold oneStorage at hold ⊢
  rw [← hstate, ← hdiff]
  exact hold

theorem contents_owned_eq (base overlay : StateOverride) :
    contents (mergeOverridesOwned base overlay) = contents (mergeOverrides base overlay) :=
  (contents_mergeOverridesOwned base overlay).trans (contents_mergeOverrides base overlay).symm

theorem sets_mergeOverridesOwned (base overlay : StateOverride) :
    sets (mergeOverridesOwned base overlay) = (sets base).andThen (sets overlay) := by
  rw [sets_of_contents (contents_owned_eq base overlay), sets_mergeOverrides]

theorem oneStorage_mergeOverridesOwned {base overlay : StateOverride} (hbase : OneStorage base)
    (hover : OneStorage overlay) : OneStorage (mergeOverridesOwned base overlay) :=
  oneStorage_of_contents (contents_owned_eq base overlay).symm
    (oneStorage_mergeOverrides hbase hover)

end Contents

section Semantics

variable (client : RpcClient) (chainId : ChainId)

/-- A state in which the mailbox contract finds what was fulfilled. -/
def deliver (deps : List CrossRollupDependency) (s : ChainState) : ChainState :=
  applyOverrides (deliveredOverrides client chainId deps) s

theorem lookup_deliveredOverrides (deps : List CrossRollupDependency) (address : Address) :
    (deliveredOverrides client chainId deps).lookup address =
      if client.mailboxAddress = some address ∧
          (mailboxStateDiff client.keccak256 chainId deps).entries.isEmpty = false then
        some { stateDiff := some (mailboxStateDiff client.keccak256 chainId deps) }
      else none := by
  unfold deliveredOverrides
  cases client.mailboxAddress with
  | none => simp
  | some addr =>
    simp only [Option.bind_some, buildMailboxStateOverrides, Option.some.injEq]
    cases (mailboxStateDiff client.keccak256 chainId deps).entries.isEmpty with
    | true => simp
    | false =>
      simp only [Bool.false_eq_true, if_false, Option.getD_some, and_true]
      by_cases haddr : addr = address
      · rw [if_pos haddr, haddr, AList.lookup_insert]
      · rw [if_neg haddr, AList.lookup_insert_ne (Ne.symm haddr), AList.lookup_empty]

theorem sets_deliveredOverrides_slot (deps : List CrossRollupDependency) (address : Address)
    (key : B256) :
    sets (deliveredOverrides client chainId deps) (.slot address key) =
      if client.mailboxAddress = some address then
        (mailboxStateDiff client.keccak256 chainId deps).lookup key
      else none := by
  simp only [sets, Cell.address, lookup_deliveredOverrides]
  by_cases haddr : client.mailboxAddress = some address
  · cases hempty : (mailboxStateDiff client.keccak256 chainId deps).entries.isEmpty with
    | true =>
      have hnil : mailboxStateDiff client.keccak256 chainId deps = ∅ :=
        AList.ext (List.isEmpty_iff.mp hempty)
      rw [if_neg (by simp), if_pos haddr, hnil]
      rfl
    | false =>
      rw [if_pos ⟨haddr, rfl⟩, if_pos haddr]
      rfl
  · rw [if_neg (fun h => haddr h.1), if_neg haddr]
    rfl

/-- A slot is set when some dependency puts a word into it. -/
theorem sets_deliveredOverrides_none (deps : List CrossRollupDependency) {address : Address}
    {key : B256}
    (h : client.mailboxAddress = some address → ∀ dep ∈ deps,
      key ∉ derivedSlots client.keccak256 chainId dep) :
    sets (deliveredOverrides client chainId deps) (.slot address key) = none := by
  rw [sets_deliveredOverrides_slot]
  by_cases haddr : client.mailboxAddress = some address
  · rw [if_pos haddr]
    refine AList.lookup_eq_none.mpr (fun hmem => ?_)
    obtain ⟨dep, hdep, hslot⟩ := (mem_mailboxStateDiff _ _ _ _).mp hmem
    exact h haddr dep hdep hslot
  · rw [if_neg haddr]
    rfl

/-- Nothing but slots of the mailbox is touched. -/
theorem sets_deliveredOverrides_other (deps : List CrossRollupDependency) {c : Cell}
    (hc : c.isSlot = false) : sets (deliveredOverrides client chainId deps) c = none := by
  simp only [sets, lookup_deliveredOverrides]
  split_ifs
  · cases c with
    | slot => simp [Cell.isSlot] at hc
    | _ => rfl
  · rfl

theorem oneStorage_deliveredOverrides (deps : List CrossRollupDependency) :
    OneStorage (deliveredOverrides client chainId deps) := by
  intro address account hl
  rw [lookup_deliveredOverrides] at hl
  split_ifs at hl
  rw [← Option.some.inj hl]
  rfl

/-- More dependencies set more slots. -/
theorem deliveredOverrides_covers {deps deps' : List CrossRollupDependency} (h : deps ⊆ deps') :
    (sets (deliveredOverrides client chainId deps)).Covers
      (sets (deliveredOverrides client chainId deps')) := by
  intro c hc
  cases c with
  | slot address key =>
    refine sets_deliveredOverrides_none client chainId deps (fun haddr dep hdep hslot => ?_)
    rw [sets_deliveredOverrides_slot, if_pos haddr] at hc
    exact AList.lookup_eq_none.mp hc ((mem_mailboxStateDiff _ _ _ _).mpr ⟨dep, h hdep, hslot⟩)
  | _ => exact sets_deliveredOverrides_other client chainId deps rfl

/-- A simulation is traced on the state under its overrides, with what was fulfilled delivered. -/
theorem applyOverrides_traced (stateOverrides : StateOverride) (deps : List CrossRollupDependency)
    (s : ChainState) :
    applyOverrides (tracedOverrides client chainId stateOverrides deps) s =
      deliver client chainId deps (applyOverrides stateOverrides s) := by
  unfold applyOverrides tracedOverrides deliver
  rw [sets_mergeOverridesOwned, Patch.apply_andThen]
  rfl

theorem oneStorage_traced {stateOverrides : StateOverride} (h : OneStorage stateOverrides)
    (deps : List CrossRollupDependency) :
    OneStorage (tracedOverrides client chainId stateOverrides deps) :=
  oneStorage_mergeOverridesOwned h (oneStorage_deliveredOverrides client chainId deps)

/-- The storage of a contract in a state of the chain. -/
def storageOf (s : ChainState) (address : Address) : Solidity.Storage :=
  fun slot => fromBeBytes (s (.slot address (toBeBytes slot)))

theorem storageOf_deliver {addr : Address} (haddr : client.mailboxAddress = some addr)
    (deps : List CrossRollupDependency) (s : ChainState) :
    storageOf (deliver client chainId deps s) addr =
      patched (storageOf s addr) (mailboxStateDiff client.keccak256 chainId deps) := by
  funext slot
  simp only [storageOf, deliver, applyOverrides, Patch.apply, sets_deliveredOverrides_slot, haddr,
    if_true, patched]
  cases (mailboxStateDiff client.keccak256 chainId deps).lookup (toBeBytes slot) <;> rfl

variable {client chainId}

/-- Whatever the overrides say of the mailbox account, a simulation with fulfilled dependencies under
pairwise different keys, whose slots do not collide, is one on a state in which the mailbox contract
reads the payload of each of them, and in which every cell but their slots is as under the
overrides. The node accepts these overrides when it accepts the given ones. -/
theorem simulateWithMailbox_delivers {addr : Address} (haddr : client.mailboxAddress = some addr)
    {deps : List CrossRollupDependency} (hkeys : (deps.map DependencyKey.ofDependency).Nodup)
    (hsized : ∀ dep ∈ deps, MachineSized dep) (hapart : SlotsApart client.keccak256 chainId deps)
    {stateOverrides : StateOverride} (hone : OneStorage stateOverrides) (node : Node) (tx : Bytes) :
    ∃ overrides, OneStorage overrides ∧
      simulateWithMailbox client node chainId tx stateOverrides deps =
        simulate client node chainId tx overrides ∧
      ∀ pending : ChainState,
        (∀ dep ∈ deps, ∀ data, dep.destChainId = chainId → dep.data = some data →
          readInbox client.keccak256 (storageOf (applyOverrides overrides pending) addr)
              (mailboxKey client.keccak256 chainId dep) = some data ∧
            readCreated client.keccak256 (storageOf (applyOverrides overrides pending) addr)
              (mailboxKey client.keccak256 chainId dep) = true) ∧
        ∀ c : Cell, (∀ dep ∈ deps, ∀ slot ∈ derivedSlots client.keccak256 chainId dep,
            c ≠ .slot addr slot) →
          applyOverrides overrides pending c = applyOverrides stateOverrides pending c := by
  refine ⟨tracedOverrides client chainId stateOverrides deps, oneStorage_traced client chainId hone deps,
    simulateWithMailbox_eq client node chainId tx stateOverrides deps, fun pending => ⟨?_, ?_⟩⟩
  · intro dep hdep data hdest hdata
    rw [applyOverrides_traced, storageOf_deliver client chainId haddr]
    have happ : applicable chainId dep = some data := by simp [applicable, hdest, hdata]
    exact read_mailboxStateDiff hkeys hsized hapart _ hdep happ
  · intro c hc
    rw [applyOverrides_traced]
    refine Patch.apply_agreeOff _ _ c ?_
    cases c with
    | slot address key =>
      refine sets_deliveredOverrides_none client chainId deps (fun heq dep hdep hslot => ?_)
      exact hc dep hdep key hslot (by rw [Option.some.inj (haddr.symm.trans heq)])
    | _ => exact sets_deliveredOverrides_other client chainId deps rfl

/-- A simulator of chain 88888 that takes every transaction for one call. -/
def sampleClient : RpcClient :=
  { swallowedSimulator with
    mailboxAddress := some (.repeatByte 20 0x33)
    chains := chainMap [⟨88888, "http://localhost:8545"⟩]
    codec :=
      { decode := fun _ => .ok ⟨21000, some (.repeatByte 20 0x44), [], 0⟩
        recoverSigner := fun _ => .ok (.repeatByte 20 0x11) }
    keccak256 := keccakOfTable }

/-- A node that is down. -/
def deadNode : Node :=
  { callTracer := fun _ _ => .error "connection refused"
    prestateTracer := fun _ _ => .error "connection refused" }

/-- The storage of the mailbox account is replaced. -/
def replacedMailbox : StateOverride :=
  AList.singleton (FixedBytes.repeatByte 20 0x33) { state := some (oneSlot 1 1) }

/-- Two payloads are read over a mailbox account whose storage is replaced. -/
theorem simulateWithMailbox_delivers_sample :
    ∃ overrides : StateOverride,
      simulateWithMailbox sampleClient deadNode 88888 [] replacedMailbox sampleDependencies =
        simulate sampleClient deadNode 88888 [] overrides ∧
      ∀ pending : ChainState,
        readInbox keccakOfTable (storageOf (applyOverrides overrides pending) (.repeatByte 20 0x33))
            (toBeBytes smallKey) = some [1, 2, 3] ∧
          readInbox keccakOfTable
            (storageOf (applyOverrides overrides pending) (.repeatByte 20 0x33))
            (toBeBytes largeKey) = some (List.replicate 40 7) := by
  have hone : OneStorage replacedMailbox := by decide +kernel
  obtain ⟨overrides, -, hsimulate, hstate⟩ := @simulateWithMailbox_delivers sampleClient 88888
    (.repeatByte 20 0x33) rfl sampleDependencies nodup_sampleKeys machineSized_sample
    slotsApart_sample replacedMailbox hone deadNode []
  refine ⟨overrides, hsimulate, fun pending => ?_⟩
  obtain ⟨hread, -⟩ := hstate pending
  have hsmall := hread (sampleDependencies.get ⟨0, by decide⟩) (List.get_mem _ _) [1, 2, 3]
    (by decide) (by decide)
  have hlarge := hread (sampleDependencies.get ⟨1, by decide⟩) (List.get_mem _ _)
    (List.replicate 40 7) (by decide) (by decide)
  rw [← mailboxKey_small, ← mailboxKey_large]
  exact ⟨hsmall.1, hlarge.1⟩

end Semantics

section Execution

/-- The node runs traced calls: under overrides that it accepts, the prestate tracer reports what
the call changes on the pending state with the overrides applied. `exec` is the chain's transition
and `pending` the state that the block tag stands for. -/
def RunsCalls (node : Node) (pending : ChainState)
    (exec : EthTransactionRequest → ChainState → ChainState) : Prop :=
  ∀ url params, params.block = "pending" → OneStorage (params.stateOverrides.getD ∅) →
    ∃ diff before after, node.prestateTracer url params = .ok ⟨some (.diff diff), none⟩ ∧
      before.cells = applyOverrides (params.stateOverrides.getD ∅) pending ∧
      after.cells = exec params.txArgs before.cells ∧ IsDiff before after diff

variable {client : RpcClient} {node : Node} {chainId : ChainId} {pending : ChainState}
  {exec : EthTransactionRequest → ChainState → ChainState}

theorem overrides_traceParams (txArgs : EthTransactionRequest) (overrides : StateOverride) :
    (traceParams txArgs overrides).stateOverrides.getD ∅ = overrides := by
  unfold traceParams
  cases hempty : overrides.entries.isEmpty with
  | true => exact (AList.ext (List.isEmpty_iff.mp hempty)).symm
  | false => rfl

theorem simulate_ok {tx : Bytes} {overrides : StateOverride} {result : SimulationResult}
    (h : simulate client node chainId tx overrides = .ok result) :
    ∃ txArgs url trace, decodeTx client.codec tx = .ok txArgs ∧ rpcUrl client chainId = .ok url ∧
      result = resultFromTraces client.toRpcSimulator chainId trace
        (traceAnswer (node.prestateTracer url (traceParams txArgs overrides))) := by
  unfold simulate at h
  cases htx : decodeTx client.codec tx with
  | error e => simp [htx] at h
  | ok txArgs =>
    simp only [htx, simulateCall, traceCall] at h
    cases hurl : rpcUrl client chainId with
    | error e => simp [hurl] at h
    | ok url =>
      simp only [hurl] at h
      cases htrace : traceAnswer (node.callTracer url (traceParams txArgs overrides)) with
      | error e => simp [htrace] at h
      | ok trace =>
        simp only [htrace, Except.ok.injEq] at h
        exact ⟨txArgs, url, trace, rfl, rfl, h.symm⟩

theorem applyOverrides_of_isDiff {before after : Chain} {diff : DiffMode}
    (h : IsDiff before after diff) :
    applyOverrides ((stateOverridesFromDiff diff).getD ∅) before.cells = after.cells := by
  funext c
  show (sets ((stateOverridesFromDiff diff).getD ∅) c).getD (before.cells c) = after.cells c
  rw [sets_stateOverridesFromDiff]
  cases hpost : diff.post.lookup c.address with
  | some post => exact accountOverride_faithful h hpost
  | none => exact outside_post_faithful h hpost

theorem oneStorage_empty : OneStorage ∅ := by
  intro address account hl
  simp at hl

theorem oneStorage_insert {overrides : StateOverride} (h : OneStorage overrides)
    {account : AccountOverride} (haccount : oneStorage account = true) (address : Address) :
    OneStorage (overrides.insert address account) := by
  intro a x hl
  by_cases ha : a = address
  · rw [ha, AList.lookup_insert] at hl
    rw [← Option.some.inj hl]
    exact haccount
  · rw [AList.lookup_insert_ne ha] at hl
    exact h a x hl

theorem oneStorage_foldl_overrideStep (entries : List (Σ _ : Address, AccountState))
    (acc : Map Address AccountState × StateOverride) (h : OneStorage acc.2) :
    OneStorage (entries.foldl overrideStep acc).2 := by
  induction entries generalizing acc with
  | nil => exact h
  | cons e entries ih =>
    refine ih _ ?_
    unfold overrideStep
    dsimp only
    split_ifs
    · exact oneStorage_insert h rfl _
    · exact h

theorem oneStorage_foldl_destroyed (addresses : List Address) (overrides : StateOverride)
    (h : OneStorage overrides) :
    OneStorage (addresses.foldl (fun (acc : StateOverride) a => acc.insert a destroyedAccount)
      overrides) := by
  induction addresses generalizing overrides with
  | nil => exact h
  | cons a addresses ih => exact ih _ (oneStorage_insert h rfl a)

/-- A node accepts what the prestate trace is turned into. -/
theorem oneStorage_stateOverridesFromDiff (diff : DiffMode) :
    OneStorage ((stateOverridesFromDiff diff).getD ∅) := by
  have hall := oneStorage_foldl_destroyed
    (diff.post.entries.foldl overrideStep (diff.pre, ∅)).1.keys _
    (oneStorage_foldl_overrideStep diff.post.entries (diff.pre, ∅) oneStorage_empty)
  unfold stateOverridesFromDiff
  simp only
  split_ifs
  · exact oneStorage_empty
  · exact hall

/-- The result is one that the simulator makes of the node's traces. -/
def FromTraces (sim : RpcSimulator) (chainId : ChainId) (result : SimulationResult) : Prop :=
  ∃ trace prestate, result = resultFromTraces sim chainId trace prestate

theorem oneStorage_resultFromTraces (sim : RpcSimulator) (chainId : ChainId) (trace : Value)
    (prestate : Except SimulationError PreStateFrame) :
    OneStorage ((resultFromTraces sim chainId trace prestate).stateOverrides.getD ∅) := by
  show OneStorage ((optionalTraceStateOverrides prestate).getD ∅)
  cases prestate with
  | error e => exact oneStorage_empty
  | ok frame =>
    cases frame with
    | default accounts => exact oneStorage_empty
    | diff diff => exact oneStorage_stateOverridesFromDiff diff

/-- A transaction on a state of the chain, when it decodes. -/
def runTx (client : RpcClient) (exec : EthTransactionRequest → ChainState → ChainState) (tx : Bytes)
    (s : ChainState) : ChainState :=
  match decodeTx client.codec tx with
  | .ok txArgs => exec txArgs s
  | .error _ => s

/-- The overrides that a simulation comes back with lead from the state it was traced on to the one
after the transaction. -/
theorem simulate_runs (hnode : RunsCalls node pending exec) {tx : Bytes} {overrides : StateOverride}
    (hone : OneStorage overrides) {result : SimulationResult}
    (h : simulate client node chainId tx overrides = .ok result) :
    applyOverrides (result.stateOverrides.getD ∅) (applyOverrides overrides pending) =
        runTx client exec tx (applyOverrides overrides pending) ∧
      OneStorage (result.stateOverrides.getD ∅) := by
  obtain ⟨txArgs, url, trace, htx, -, rfl⟩ := simulate_ok h
  refine ⟨?_, oneStorage_resultFromTraces _ _ _ _⟩
  have hparams := overrides_traceParams txArgs overrides
  obtain ⟨diff, before, after, htrace, hbefore, hafter, hdiff⟩ :=
    hnode url (traceParams txArgs overrides) rfl (by rwa [hparams])
  rw [hparams] at hbefore
  have hresult : (resultFromTraces client.toRpcSimulator chainId trace
      (traceAnswer (node.prestateTracer url (traceParams txArgs overrides)))).stateOverrides =
      stateOverridesFromDiff diff := by
    rw [htrace]
    rfl
  have hrun : runTx client exec tx before.cells = after.cells := by
    rw [hafter, runTx, htx]
    rfl
  rw [hresult, ← hbefore, hrun]
  exact applyOverrides_of_isDiff hdiff

end Execution

end Sidecar.Simulation
