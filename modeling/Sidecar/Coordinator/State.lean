import Sidecar.Coordinator.PendingXt
import Sidecar.Mailbox.Overrides
import Mathlib.Data.List.Sort

namespace Sidecar.Coordinator

/-- The period the publisher opened and the last sequence number admitted in it. -/
structure PublisherPeriod where
  current : Option PeriodId := none
  lastSequence : Option SequenceNumber := none
  deriving DecidableEq

namespace PublisherPeriod

def start (_ : PublisherPeriod) (periodId : PeriodId) : PublisherPeriod :=
  { current := some periodId, lastSequence := none }

def close (_ : PublisherPeriod) : PublisherPeriod := {}

/-- Only the current period is served, with strictly growing sequence numbers. -/
def acceptStartInstance (p : PublisherPeriod) (periodId : PeriodId) (seq : SequenceNumber) :
    Except CoordinatorError PublisherPeriod :=
  match p.current with
  | none => .error .periodNotInitialized
  | some current =>
    if periodId < current then .error (.stalePeriod current periodId)
    else if current < periodId then .error (.futurePeriod current periodId)
    else
      match p.lastSequence with
      | some last =>
        if seq ≤ last then .error (.staleSequence last seq)
        else .ok { p with lastSequence := some seq }
      | none => .ok { p with lastSequence := some seq }

end PublisherPeriod

/-- A caller of `submit_xt` waiting for the publisher to name its instance. -/
abbrev Waiter := Nat

/-- The state behind the coordinator's lock. Block numbers that are only ever cleared are
left out; the mailbox notification is part of the task model. -/
structure CoordinatorState where
  pending : Map InstanceId PendingXt := ∅
  publisherPeriod : PublisherPeriod := {}
  originSeq : SequenceNumber := 0
  chainOverlay : Map ChainId StateOverride := ∅
  submittedFingerprints : Map String InstanceId := ∅
  pendingSubmissions : Map String (List Waiter) := ∅
  mailboxIndex : Map Bytes InstanceId := ∅
  mailboxBuffer : Map Bytes (List MailboxMessage) := ∅

def mailboxBufferMaxKeys : Nat := 1024

def mailboxBufferMaxPerKey : Nat := 256

namespace CoordinatorState

/-- Keeps a message for an instance that is not registered yet; both caps drop silently. -/
def bufferOrphanMailbox (st : CoordinatorState) (msg : MailboxMessage) : CoordinatorState :=
  match st.mailboxBuffer.lookup msg.instanceId with
  | none =>
    if mailboxBufferMaxKeys ≤ st.mailboxBuffer.keys.length then st
    else { st with mailboxBuffer := st.mailboxBuffer.insert msg.instanceId [msg] }
  | some bucket =>
    if mailboxBufferMaxPerKey ≤ bucket.length then st
    else
      { st with
        mailboxBuffer := Map.update msg.instanceId (fun msgs => msgs ++ [msg]) st.mailboxBuffer }

/-- Takes the messages kept under a raw id out of the buffer. -/
def drainMailboxBuffer (st : CoordinatorState) (rawId : Bytes) :
    List MailboxMessage × CoordinatorState :=
  ((st.mailboxBuffer.lookup rawId).getD [],
    { st with mailboxBuffer := st.mailboxBuffer.erase rawId })

def undecidedCount (st : CoordinatorState) : Nat :=
  (Map.values st.pending).countP (fun xt => xt.decision.isNone)

/-- Rewrites one pending instance and nothing else. -/
def updateXt (st : CoordinatorState) (id : InstanceId) (f : PendingXt → PendingXt) :
    CoordinatorState :=
  { st with pending := Map.update id f st.pending }

end CoordinatorState

structure TransactionRequest where
  chainId : ChainId
  transactions : List Bytes
  deriving DecidableEq

structure XtRequest where
  transactions : List TransactionRequest
  deriving DecidableEq

/-- One request per chain that has transactions, by increasing chain id. -/
def buildXtRequest (txs : RawTxs) : XtRequest :=
  { transactions := (txs.keys.insertionSort (· ≤ ·)).filterMap (fun chainId =>
      match txs.lookup chainId with
      | none => none
      | some chainTxs => if chainTxs.isEmpty then none else some ⟨chainId, chainTxs⟩) }

/-- The publisher's message that opens an instance. -/
structure StartInstance where
  instanceId : Bytes
  periodId : PeriodId
  sequenceNumber : SequenceNumber
  xtRequest : Option XtRequest
  deriving DecidableEq

/-- A checked `StartInstance`. -/
structure SpecInstance where
  id : Bytes
  periodId : PeriodId
  sequenceNumber : SequenceNumber
  xtRequest : XtRequest
  deriving DecidableEq

/-- What never changes while a coordinator runs: its chain, which collaborators it was
given, and the library functions it calls. -/
structure Config where
  chainId : ChainId
  publisher : Bool := false
  mailboxSender : Bool := false
  mailboxQueue : Bool := false
  peerCoordinator : Bool := false
  putInboxBuilder : Bool := false
  xtBuilderClient : Bool := false
  simulator : Bool := false
  permissionEngine : Bool := false
  verification : Bool := false
  xtRequestFingerprint : XtRequest → String
  decodeSenderNonce : Bytes → Option (Address × Nat)
  tryInstance : StartInstance → Except String SpecInstance
  chainsFromRequest : XtRequest → List ChainId

/-- A coordinator without collaborators. The library functions act as the real ones do on
well-formed messages and a single request. -/
def Config.bare (chainId : ChainId) : Config :=
  { chainId := chainId
    xtRequestFingerprint := fun req => toString (req.transactions.map TransactionRequest.chainId)
    decodeSenderNonce := fun _ => none
    tryInstance := fun msg =>
      match msg.xtRequest with
      | none => .error "missing xt_request"
      | some req =>
        if msg.instanceId.length = 32 then
          .ok ⟨msg.instanceId, msg.periodId, msg.sequenceNumber, req⟩
        else .error "invalid instance id"
    chainsFromRequest := fun req => req.transactions.map TransactionRequest.chainId }

end Sidecar.Coordinator
