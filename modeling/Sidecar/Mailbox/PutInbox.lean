import Sidecar.Framework.SolidityAbi
import Sidecar.Mailbox.StorageRead

/-! The transactions that put the payloads of fulfilled dependencies into the mailbox, and what
a contract that keeps to the documented layout makes of them. -/

namespace Sidecar.Mailbox

open Solidity

section Calldata

/-- The arguments of `putInbox`. -/
structure PutInboxCall where
  chainMessageSender : U256
  sender : Address
  receiver : Address
  sessionId : U256
  label : String
  data : Bytes

/-- An address is the last 20 bytes of its word. -/
def addressWord (address : Address) : U256 :=
  Word.ofBytes (List.replicate 12 0 ++ address.bytes)

/-- Text that is valid UTF-8 stays as it is; `repair` is what the library makes of other text. -/
def fromUtf8Lossy (repair : Bytes → String) (bytes : Bytes) : String :=
  (String.fromUTF8? bytes.toByteArray).getD (repair bytes)

variable (keccak256 : Bytes → B256) (repair : Bytes → String)

/-- The first four bytes of the hash of the signature. -/
def selectorOf (signature : String) : Bytes :=
  (keccak256 (InstanceId.asBytes signature)).bytes.take 4

def putInboxSelector : Bytes :=
  selectorOf keccak256 "putInbox(uint256,address,address,uint256,string,bytes)"

def PutInboxCall.arguments (call : PutInboxCall) : Abi.Val :=
  .tuple [.word call.chainMessageSender, .word (addressWord call.sender),
    .word (addressWord call.receiver), .word call.sessionId,
    .bytes (InstanceId.asBytes call.label), .bytes call.data]

def PutInboxCall.abiEncode (call : PutInboxCall) : Bytes :=
  putInboxSelector keccak256 ++ Abi.encode call.arguments

def encodePutInbox (sourceChainId : ChainId) (sender receiver : Address) (sessionId : U256)
    (label data : Bytes) : Bytes :=
  PutInboxCall.abiEncode keccak256
    { chainMessageSender := BitVec.ofNat 256 sourceChainId
      sender := sender
      receiver := receiver
      sessionId := sessionId
      label := fromUtf8Lossy repair label
      data := data }

/-- The calldata of the transaction for a dependency. -/
def dependencyCalldata (dep : CrossRollupDependency) : Bytes :=
  encodePutInbox keccak256 repair dep.sourceChainId dep.sender dep.receiver dep.sessionId dep.label
    (dep.data.getD [])

end Calldata

section Builder

def putInboxGasLimit : Nat := 2000000

/-- The fields that are set before the wallet fills in the rest. -/
structure PutInboxRequest where
  fromAddress : Address
  toAddress : Address
  chainId : ChainId
  nonce : Nat
  gasLimit : Nat
  input : Bytes
  deriving DecidableEq

/-- A signed transaction: the request, the fees and the signature. -/
structure SignedTx extends PutInboxRequest where
  maxFeePerGas : Nat
  maxPriorityFeePerGas : Nat
  signature : Bytes

/-- What filling a request gives; without a signer it stays unsigned, here as its debug text. -/
inductive Filled where
  | envelope (tx : SignedTx)
  | unsigned (request : String)

structure PutInboxTxBuilder where
  chainId : ChainId
  rpcUrl : String
  mailboxAddress : Address
  signerAddress : Address

/-- The provider at a URL, with the coordinator's wallet. -/
abbrev Provider := String → PutInboxRequest → Except String Filled

/-- Filling adds what is missing and changes nothing that is set. -/
def Provider.KeepsFields (fill : Provider) : Prop :=
  ∀ url request signed, fill url request = .ok (.envelope signed) →
    signed.toPutInboxRequest = request

variable (keccak256 : Bytes → B256) (repair : Bytes → String) (encoded2718 : SignedTx → Bytes)
  (builder : PutInboxTxBuilder)

def putInboxRequest (dep : CrossRollupDependency) (nonce : Nat) : PutInboxRequest :=
  { fromAddress := builder.signerAddress
    toAddress := builder.mailboxAddress
    chainId := builder.chainId
    nonce := nonce
    gasLimit := putInboxGasLimit
    input := dependencyCalldata keccak256 repair dep }

def buildPutInboxTxWithNonce (fill : Provider) (dep : CrossRollupDependency) (nonce : Nat) :
    Except CoordinatorError Bytes :=
  match fill builder.rpcUrl (putInboxRequest keccak256 repair builder dep nonce) with
  | .error e => .error (.other ("fill putInbox tx: " ++ e))
  | .ok (.unsigned request) =>
    .error (.other ("fill putInbox tx returned unsigned transaction: " ++ request))
  | .ok (.envelope signed) => .ok (encoded2718 signed)

variable {keccak256 repair encoded2718 builder}

/-- What was built is the request for the dependency, signed. -/
theorem signed_of_built {fill : Provider} (hfill : fill.KeepsFields) {dep : CrossRollupDependency}
    {nonce : Nat} {tx : Bytes}
    (h : buildPutInboxTxWithNonce keccak256 repair encoded2718 builder fill dep nonce = .ok tx) :
    ∃ signed, tx = encoded2718 signed ∧
      signed.toPutInboxRequest = putInboxRequest keccak256 repair builder dep nonce := by
  unfold buildPutInboxTxWithNonce at h
  split at h
  · simp at h
  · simp at h
  · next signed hsigned => exact ⟨signed, (Except.ok.inj h).symm, hfill _ _ _ hsigned⟩

end Builder

section Contract

/-- The arguments of a `putInbox` call as a contract gets them: a string is its bytes there. -/
structure InboxWrite where
  chainMessageSender : U256
  sender : Address
  receiver : Address
  sessionId : U256
  label : Bytes
  data : Bytes

def InboxWrite.arguments (write : InboxWrite) : Abi.Val :=
  .tuple [.word write.chainMessageSender, .word (addressWord write.sender),
    .word (addressWord write.receiver), .word write.sessionId, .bytes write.label,
    .bytes write.data]

/-- The packed fields of a message in the layout documented at `mailbox_key`; the destination is
the chain that the contract runs on. -/
def InboxWrite.preimage (chainId : ChainId) (write : InboxWrite) : Bytes :=
  Word.bytes write.chainMessageSender ++ (Word.bytes (BitVec.ofNat 256 chainId) ++
    (write.sender.bytes ++ (write.receiver.bytes ++ (Word.bytes write.sessionId ++ write.label))))

def putInboxShape : Abi.Shape := .tuple [.word, .word, .word, .word, .bytes, .bytes]

variable (keccak256 : Bytes → B256)

/-- By the rules of the ABI the calldata is a `putInbox` call with these arguments. -/
def IsPutInbox (input : Bytes) (write : InboxWrite) : Prop :=
  input.take 4 = putInboxSelector keccak256 ∧
    Abi.decode putInboxShape (input.drop 4) = some write.arguments

/-- A mailbox contract, whatever its code: what a call makes of its state unless it reverts, and
the payloads that it holds. -/
structure MailboxContract (σ : Type) where
  call : σ → Bytes → Option σ
  inbox : σ → B256 → Option Bytes

/-- What the sidecar relies on: a `putInbox` call that does not revert puts the payload under the
hash of the packed arguments and leaves the other messages alone. -/
def MailboxContract.PutsInbox {σ : Type} (contract : MailboxContract σ) (chainId : ChainId) :
    Prop :=
  ∀ state input write state', IsPutInbox keccak256 input write →
    contract.call state input = some state' →
    contract.inbox state' = Function.update (contract.inbox state)
      (keccak256 (write.preimage chainId)) (some write.data)

end Contract

section RoundTrip

theorem fromUtf8Lossy_asBytes (repair : Bytes → String) (text : String) :
    fromUtf8Lossy repair (InstanceId.asBytes text) = text := by
  have hbytes : (InstanceId.asBytes text).toByteArray = text.toByteArray := by
    apply ByteArray.ext
    simp [InstanceId.asBytes]
  have hvalid : String.fromUTF8? text.toByteArray = some text := by
    rw [String.fromUTF8?, dif_pos text.isValidUTF8]
    rfl
  rw [fromUtf8Lossy, hbytes, hvalid]
  rfl

variable (keccak256 : Bytes → B256)

theorem length_selectorOf (signature : String) : (selectorOf keccak256 signature).length = 4 := by
  rw [selectorOf, List.length_take, FixedBytes.length_bytes]
  rfl

theorem length_arguments (call : PutInboxCall) :
    (Abi.encode call.arguments).length ≤
      (InstanceId.asBytes call.label).length + call.data.length + 446 := by
  have hroom := Abi.length_encode_le call.arguments
  simp only [PutInboxCall.arguments, Abi.Val.room, Abi.roomOf] at hroom ⊢
  omega

/-- The arguments can be read back from the calldata. -/
theorem isPutInbox_abiEncode (call : PutInboxCall)
    (h : (InstanceId.asBytes call.label).length + call.data.length + 446 < 2 ^ 256) :
    IsPutInbox keccak256 (call.abiEncode keccak256)
      { chainMessageSender := call.chainMessageSender
        sender := call.sender
        receiver := call.receiver
        sessionId := call.sessionId
        label := InstanceId.asBytes call.label
        data := call.data } := by
  have harguments : (call.abiEncode keccak256).drop 4 = Abi.encode call.arguments :=
    List.drop_left' (length_selectorOf keccak256 _)
  have hdecode := Abi.decode_encode call.arguments []
    (Nat.lt_of_le_of_lt (length_arguments call) h)
  rw [List.append_nil] at hdecode
  refine ⟨List.take_left' (length_selectorOf keccak256 _), ?_⟩
  rw [harguments]
  exact hdecode

end RoundTrip

section Agreement

variable {keccak256 : Bytes → B256} {repair : Bytes → String} {chainId : ChainId}
  {deps : List CrossRollupDependency}

/-- The label is text, and the strings are no longer than the machine's memory. -/
def Textual (dep : CrossRollupDependency) : Prop :=
  (∃ label : String, dep.label = InstanceId.asBytes label) ∧ dep.label.length ≤ u64Max

/-- The calldata for a dependency is a call for the key under which the simulation looks. -/
theorem isPutInbox_dependencyCalldata {dep : CrossRollupDependency} (htext : Textual dep)
    (hsized : MachineSized dep) :
    ∃ write, IsPutInbox keccak256 (dependencyCalldata keccak256 repair dep) write ∧
      keccak256 (write.preimage chainId) = mailboxKey keccak256 chainId dep ∧
      write.data = dep.data.getD [] := by
  obtain ⟨⟨label, hlabel⟩, hlength⟩ := htext
  have hdata : (dep.data.getD []).length ≤ u64Max := by
    cases hd : dep.data with
    | none => exact Nat.zero_le _
    | some data => exact hsized.2 data hd
  have hutf8 : fromUtf8Lossy repair dep.label = label := by
    rw [hlabel, fromUtf8Lossy_asBytes]
  have hmax : u64Max + u64Max + 446 < 2 ^ 256 := by decide
  rw [hlabel] at hlength
  have hcall := isPutInbox_abiEncode keccak256
    { chainMessageSender := BitVec.ofNat 256 dep.sourceChainId
      sender := dep.sender
      receiver := dep.receiver
      sessionId := dep.sessionId
      label := label
      data := dep.data.getD [] } (by dsimp only; omega)
  rw [dependencyCalldata, encodePutInbox, hutf8]
  refine ⟨_, hcall, ?_, rfl⟩
  rw [mailboxKey, mailboxKeyPreimage, hlabel]
  rfl

section Calls

variable {σ : Type} {contract : MailboxContract σ}

/-- What the contract does with the transaction for a dependency. -/
theorem inbox_call (hcontract : contract.PutsInbox keccak256 chainId)
    {dep : CrossRollupDependency} (htext : Textual dep) (hsized : MachineSized dep)
    {state state' : σ}
    (h : contract.call state (dependencyCalldata keccak256 repair dep) = some state') :
    contract.inbox state' = Function.update (contract.inbox state)
      (mailboxKey keccak256 chainId dep) (some (dep.data.getD [])) := by
  obtain ⟨write, hwrite, hkey, hdata⟩ := isPutInbox_dependencyCalldata htext hsized
  rw [← hkey, ← hdata]
  exact hcontract state _ write state' hwrite h

theorem inbox_calls_of_ne (hcontract : contract.PutsInbox keccak256 chainId)
    (htext : ∀ dep ∈ deps, Textual dep) (hsized : ∀ dep ∈ deps, MachineSized dep)
    {before after : σ}
    (h : (deps.map (dependencyCalldata keccak256 repair)).foldlM contract.call before = some after)
    {key : B256} (hkey : ∀ dep ∈ deps, key ≠ mailboxKey keccak256 chainId dep) :
    contract.inbox after key = contract.inbox before key := by
  induction deps generalizing before with
  | nil =>
    obtain rfl := Option.some.inj h
    rfl
  | cons dep deps ih =>
    obtain ⟨next, hnext, hrest⟩ := Option.bind_eq_some_iff.mp h
    rw [List.forall_mem_cons] at htext hsized hkey
    rw [ih htext.2 hsized.2 hrest hkey.2, inbox_call hcontract htext.1 hsized.1 hnext,
      Function.update_of_ne hkey.1]

/-- With keys of their own no payload is overwritten. -/
theorem inbox_calls (hcontract : contract.PutsInbox keccak256 chainId)
    (htext : ∀ dep ∈ deps, Textual dep) (hsized : ∀ dep ∈ deps, MachineSized dep)
    (hnodup : (deps.map (mailboxKey keccak256 chainId)).Nodup) {before after : σ}
    (h : (deps.map (dependencyCalldata keccak256 repair)).foldlM contract.call before = some after)
    {dep : CrossRollupDependency} (hdep : dep ∈ deps) :
    contract.inbox after (mailboxKey keccak256 chainId dep) = some (dep.data.getD []) := by
  induction deps generalizing before with
  | nil => exact absurd hdep List.not_mem_nil
  | cons first deps ih =>
    obtain ⟨next, hnext, hrest⟩ := Option.bind_eq_some_iff.mp h
    rw [List.forall_mem_cons] at htext hsized
    rw [List.map_cons, List.nodup_cons] at hnodup
    rcases List.mem_cons.mp hdep with rfl | hlater
    · have hkept : ∀ d ∈ deps, mailboxKey keccak256 chainId dep ≠ mailboxKey keccak256 chainId d :=
        fun d hd heq => hnodup.1 (List.mem_map.mpr ⟨d, hd, heq.symm⟩)
      rw [inbox_calls_of_ne hcontract htext.2 hsized.2 hrest hkept,
        inbox_call hcontract htext.1 hsized.1 hnext, Function.update_self]
    · exact ih htext.2 hsized.2 hnodup.2 hrest hlater

end Calls

/-- Payloads of different messages have different keys in the inbox. -/
theorem nodup_mailboxKeys (hdest : ∀ dep ∈ deps, dep.destChainId = chainId)
    (hdata : ∀ dep ∈ deps, dep.data.isSome = true)
    (hkeys : (deps.map DependencyKey.ofDependency).Nodup)
    (hsized : ∀ dep ∈ deps, MachineSized dep) (hapart : SlotsApart keccak256 chainId deps) :
    (deps.map (mailboxKey keccak256 chainId)).Nodup := by
  have hhashed : ∀ dep ∈ deps,
      mailboxKeyPreimage chainId dep ∈ deps.flatMap (hashedInputs keccak256 chainId) := by
    intro dep hdep
    obtain ⟨data, hd⟩ := Option.isSome_iff_exists.mp (hdata dep hdep)
    have happ : applicable chainId dep = some data := by
      rw [applicable, if_pos (hdest dep hdep), hd]
    refine List.mem_flatMap.mpr ⟨dep, hdep, ?_⟩
    simp [hashedInputs, happ]
  refine List.Nodup.map_on ?_ (List.Nodup.of_map _ hkeys)
  intro d hd d' hd' heq
  have hpreimage := hapart.injective _ (hhashed d hd) _ (hhashed d' hd') heq
  have hkey : DependencyKey.ofDependency d = DependencyKey.ofDependency d' :=
    (mailboxKeyPreimage_iff (hsized d hd).1 (hsized d' hd').1
      ((hdest d hd).trans (hdest d' hd').symm)).mp hpreimage
  exact List.inj_on_of_nodup_map hkeys hd hd' hkey

theorem SlotsApart.subset {released : List CrossRollupDependency}
    (h : SlotsApart keccak256 chainId deps) (hsub : released ⊆ deps) :
    SlotsApart keccak256 chainId released := by
  have hhashed : released.flatMap (hashedInputs keccak256 chainId) ⊆
      deps.flatMap (hashedInputs keccak256 chainId) := by
    intro p hp
    obtain ⟨dep, hdep, hin⟩ := List.mem_flatMap.mp hp
    exact List.mem_flatMap.mpr ⟨dep, hsub hdep, hin⟩
  constructor
  · exact fun p hp q hq => h.injective p (hhashed hp) q (hhashed hq)
  · exact fun d hd d' hd' => h.payloads d (hsub hd) d' (hsub hd')
  · exact fun d hd d' hd' => h.mapped d (hsub hd) d' (hsub hd')

/-- The transactions of a release do to the mailbox what the simulation assumed. Take fulfilled
dependencies with pairwise different keys and labels that are text, and a contract that puts into
its inbox what `putInbox` calls ask for. When it has run the calls built for those of this chain,
in order, from any state and without a revert, it holds for each of them the payload that is read
under the overrides of the simulation, on any storage; no other message of the inbox changes. -/
theorem release_puts_what_was_simulated (keccak256 : Bytes → B256) (repair : Bytes → String)
    (chainId : ChainId) (mailboxAddress : Address) {σ : Type} (contract : MailboxContract σ)
    (hcontract : contract.PutsInbox keccak256 chainId) (fulfilled : List CrossRollupDependency)
    (hdata : ∀ dep ∈ fulfilled, dep.data.isSome = true) (htext : ∀ dep ∈ fulfilled, Textual dep)
    (hkeys : (fulfilled.map DependencyKey.ofDependency).Nodup)
    (hsized : ∀ dep ∈ fulfilled, MachineSized dep) (hapart : SlotsApart keccak256 chainId fulfilled)
    {before after : σ}
    (hrun : ((fulfilled.filter (fun dep => dep.destChainId = chainId)).map
      (dependencyCalldata keccak256 repair)).foldlM contract.call before = some after) :
    let released := fulfilled.filter (fun dep => dep.destChainId = chainId)
    (∀ dep ∈ released, ∃ overrides diff data,
      buildMailboxStateOverrides keccak256 chainId mailboxAddress fulfilled = some overrides ∧
      overrides.lookup mailboxAddress = some { stateDiff := some diff } ∧ dep.data = some data ∧
      contract.inbox after (mailboxKey keccak256 chainId dep) = some data ∧
      ∀ storage, readInbox keccak256 (patched storage diff) (mailboxKey keccak256 chainId dep) =
        some data) ∧
    ∀ key, (∀ dep ∈ released, key ≠ mailboxKey keccak256 chainId dep) →
      contract.inbox after key = contract.inbox before key := by
  intro released
  have hsub : released ⊆ fulfilled := List.filter_subset_self _
  have hdest : ∀ dep ∈ released, dep.destChainId = chainId := by
    intro dep hdep
    simpa using (List.mem_filter.mp hdep).2
  have htext' : ∀ dep ∈ released, Textual dep := fun dep hdep => htext dep (hsub hdep)
  have hsized' : ∀ dep ∈ released, MachineSized dep := fun dep hdep => hsized dep (hsub hdep)
  have hnodup : (released.map (mailboxKey keccak256 chainId)).Nodup :=
    nodup_mailboxKeys hdest (fun dep hdep => hdata dep (hsub hdep))
      (hkeys.sublist (List.filter_sublist.map _)) hsized' (hapart.subset hsub)
  refine ⟨fun dep hdep => ?_, fun key hkey => inbox_calls_of_ne hcontract htext' hsized' hrun hkey⟩
  obtain ⟨data, hd⟩ := Option.isSome_iff_exists.mp (hdata dep (hsub hdep))
  have happ : applicable chainId dep = some data := by
    rw [applicable, if_pos (hdest dep hdep), hd]
  have hsome : (mailboxStateDiff keccak256 chainId fulfilled).entries.isEmpty = false := by
    rw [Bool.eq_false_iff]
    intro hempty
    have hnone := (entries_isEmpty_iff keccak256 chainId fulfilled).mp hempty dep (hsub hdep)
    simp [happ] at hnone
  let account : AccountOverride := { stateDiff := some (mailboxStateDiff keccak256 chainId fulfilled) }
  refine ⟨(∅ : StateOverride).insert mailboxAddress account, _, data, ?_,
    AList.lookup_insert _, hd, ?_, ?_⟩
  · simp only [buildMailboxStateOverrides, hsome, Bool.false_eq_true, if_false]
    rfl
  · have hput := inbox_calls hcontract htext' hsized' hnodup hrun hdep
    rw [hd] at hput
    exact hput
  · intro storage
    exact (read_mailboxStateDiff hkeys hsized hapart storage (hsub hdep) happ).1

end Agreement

section Sample

/-- Words with anything else in front are no addresses. -/
def wordAddress (word : U256) : Option Address :=
  if (Word.bytes word).take 12 = List.replicate 12 0 then
    FixedBytes.tryFrom 20 ((Word.bytes word).drop 12)
  else none

theorem wordAddress_addressWord (address : Address) :
    wordAddress (addressWord address) = some address := by
  have hlength : (List.replicate 12 (0 : UInt8) ++ address.bytes).length = 32 := by
    rw [List.length_append, List.length_replicate, address.length_bytes]
  have hbytes : Word.bytes (addressWord address) = List.replicate 12 0 ++ address.bytes :=
    Word.bytes_ofBytes hlength
  have htake : (List.replicate 12 (0 : UInt8) ++ address.bytes).take 12 = List.replicate 12 0 :=
    List.take_left' List.length_replicate
  have hdrop : (List.replicate 12 (0 : UInt8) ++ address.bytes).drop 12 = address.bytes :=
    List.drop_left' List.length_replicate
  simp only [wordAddress, hbytes, htake, hdrop, FixedBytes.tryFrom]
  rw [if_pos trivial, dif_pos address.length_bytes]

def inboxWrite : Abi.Val → Option InboxWrite
  | .tuple [.word source, .word sender, .word receiver, .word session, .bytes label,
      .bytes data] => do
    let sender ← wordAddress sender
    let receiver ← wordAddress receiver
    some
      { chainMessageSender := source
        sender := sender
        receiver := receiver
        sessionId := session
        label := label
        data := data }
  | _ => none

theorem inboxWrite_arguments (write : InboxWrite) : inboxWrite write.arguments = some write := by
  simp [InboxWrite.arguments, inboxWrite, wordAddress_addressWord]

/-- A mailbox that is nothing but its inbox and reverts on everything but `putInbox`. -/
def bareMailbox (keccak256 : Bytes → B256) (chainId : ChainId) :
    MailboxContract (Map B256 Bytes) where
  call := fun inbox input =>
    if input.take 4 = putInboxSelector keccak256 then
      ((Abi.decode putInboxShape (input.drop 4)).bind inboxWrite).map (fun write =>
        inbox.insert (keccak256 (write.preimage chainId)) write.data)
    else none
  inbox := fun inbox key => inbox.lookup key

theorem bareMailbox_putsInbox (keccak256 : Bytes → B256) (chainId : ChainId) :
    (bareMailbox keccak256 chainId).PutsInbox keccak256 chainId := by
  rintro inbox input write inbox' ⟨hselector, hdecode⟩ hcall
  simp only [bareMailbox, if_pos hselector, hdecode, Option.bind_some, inboxWrite_arguments,
    Option.map_some, Option.some.injEq] at hcall
  subst hcall
  funext key
  rw [Function.update_apply]
  exact Map.lookup_insert_eq _ _ _ _

/-- Two messages for the chain, one with a long payload, and one for another chain. -/
theorem release_puts_what_was_simulated_sample :
    ∃ after, (((sampleDependencies.take 3).filter (fun dep => dep.destChainId = 88888)).map
        (dependencyCalldata keccakOfTable (fun _ => ""))).foldlM
        (bareMailbox keccakOfTable 88888).call ∅ = some after ∧
      (bareMailbox keccakOfTable 88888).inbox after (toBeBytes smallKey) = some [1, 2, 3] ∧
      (bareMailbox keccakOfTable 88888).inbox after (toBeBytes largeKey) =
        some (List.replicate 40 7) := by
  have hruns : ((((sampleDependencies.take 3).filter (fun dep => dep.destChainId = 88888)).map
      (dependencyCalldata keccakOfTable (fun _ => ""))).foldlM
      (bareMailbox keccakOfTable 88888).call ∅).isSome = true := by decide +kernel
  obtain ⟨after, hrun⟩ := Option.isSome_iff_exists.mp hruns
  have htext : ∀ dep ∈ sampleDependencies.take 3, Textual dep := by
    have hsend : [83, 69, 78, 68] = InstanceId.asBytes "SEND" := by decide
    have hlabel : ∀ dep ∈ sampleDependencies, dep.label = [83, 69, 78, 68] := by decide
    intro dep hdep
    have hdep := hlabel dep (List.mem_of_mem_take hdep)
    exact ⟨⟨"SEND", hdep.trans hsend⟩, by rw [hdep]; decide⟩
  have hsized : ∀ dep ∈ sampleDependencies.take 3, MachineSized dep :=
    fun dep hdep => machineSized_sample dep (List.mem_of_mem_take hdep)
  have hkeys : ((sampleDependencies.take 3).map DependencyKey.ofDependency).Nodup :=
    nodup_sampleKeys.sublist ((List.take_sublist _ _).map _)
  obtain ⟨hput, -⟩ := release_puts_what_was_simulated keccakOfTable (fun _ => "") 88888
    (.repeatByte 20 0x33) (bareMailbox keccakOfTable 88888)
    (bareMailbox_putsInbox keccakOfTable 88888) (sampleDependencies.take 3) (by decide) htext hkeys
    hsized (slotsApart_sample.subset (List.take_subset _ _)) hrun
  obtain ⟨-, -, small, -, -, hsmall, hread, -⟩ := hput (sampleDependencies.get ⟨0, by decide⟩)
    (by decide +kernel)
  obtain ⟨-, -, large, -, -, hlarge, hread', -⟩ := hput (sampleDependencies.get ⟨1, by decide⟩)
    (by decide +kernel)
  rw [mailboxKey_small, ← hsmall] at hread
  rw [mailboxKey_large, ← hlarge] at hread'
  exact ⟨after, hrun, hread, hread'⟩

end Sample

end Sidecar.Mailbox
