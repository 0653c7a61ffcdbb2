import Sidecar.Coordinator.State

namespace Sidecar.Coordinator

/-- No more undecided instances than this are admitted. -/
def maxPendingXts : Nat := 100

/-- What the locked part of `submit_xt_standalone` ends in. -/
inductive SubmitOutcome where
  | duplicate (id : InstanceId)
  | rejected (err : CoordinatorError)
  | registered (id : InstanceId) (submission : Option XtBuilderSubmission)

/-- What the locked part of `handle_forwarded_xt` ends in. -/
inductive ForwardOutcome where
  | known
  | rejected (err : CoordinatorError)
  | registered (submission : Option XtBuilderSubmission) (hasLocal : Bool)

/-- What the locked part of `handle_start_instance` ends in. A full coordinator answers with
an error, a period or sequence mismatch with an abort vote. -/
inductive StartOutcome where
  | alreadyPending (err : CoordinatorError)
  | tooMany (err : CoordinatorError)
  | refused (err : CoordinatorError)
  | registered (submission : Option XtBuilderSubmission) (includesLocal : Bool)

section Standalone

variable (cfg : Config)

def standaloneXt (seq : SequenceNumber) (txs : RawTxs) : PendingXt :=
  let id := InstanceId.standalone cfg.chainId seq
  { id := id
    instanceId := InstanceId.asBytes id
    originChain := some cfg.chainId
    originSeq := seq
    rawTxs := txs
    lockedChains := {cfg.chainId} }

def admitStandalone (st : CoordinatorState) (txs : RawTxs) (fingerprint : String) :
    CoordinatorState × SubmitOutcome :=
  if maxPendingXts ≤ st.undecidedCount then
    (st, .rejected (.tooManyPendingInstances maxPendingXts))
  else
    let seq := st.originSeq + 1
    let xt := standaloneXt cfg seq txs
    ({ st with
        originSeq := seq
        mailboxIndex := st.mailboxIndex.insert xt.instanceId xt.id
        pending := st.pending.insert xt.id xt
        submittedFingerprints := st.submittedFingerprints.insert fingerprint xt.id },
      .registered xt.id (localBuilderSubmission cfg.chainId xt))

/-- The locked part of `submit_xt_standalone`: a request whose instance is still pending is
not registered again. -/
def registerStandalone (st : CoordinatorState) (txs : RawTxs) :
    CoordinatorState × SubmitOutcome :=
  let fingerprint := cfg.xtRequestFingerprint (buildXtRequest txs)
  match st.submittedFingerprints.lookup fingerprint with
  | some existing =>
    if existing ∈ st.pending then (st, .duplicate existing)
    else
      admitStandalone cfg
        { st with submittedFingerprints := st.submittedFingerprints.erase fingerprint } txs
        fingerprint
  | none => admitStandalone cfg st txs fingerprint

/-- `submit_xt` without a publisher, up to the end of the locked part. -/
def submitXt (st : CoordinatorState) (txs : RawTxs) : CoordinatorState × SubmitOutcome :=
  if txs.keys.length = 0 then (st, .rejected .noTransactions)
  else if txs.keys.length < 2 then
    (st, .rejected (.other "cross-chain transaction must span at least 2 chains"))
  else registerStandalone cfg st txs

end Standalone

/-- Drops chains without transactions, as `handle_forwarded_xt` does. -/
def cleanTxs (txs : RawTxs) : RawTxs := Map.retain (fun _ chainTxs => !chainTxs.isEmpty) txs

section Insert

variable (cfg : Config)

def attachBuffered (xt : PendingXt) (buffered : List MailboxMessage) : PendingXt :=
  { xt with pendingMailbox := xt.pendingMailbox ++ buffered }

/-- Registers an instance together with the messages that came before it. -/
def insertXt (st : CoordinatorState) (xt : PendingXt) : CoordinatorState :=
  let (buffered, st') := st.drainMailboxBuffer xt.instanceId
  { st' with
    mailboxIndex := st.mailboxIndex.insert xt.instanceId xt.id
    pending := st.pending.insert xt.id (attachBuffered xt buffered) }

def forwardedXt (id : InstanceId) (cleaned : RawTxs) (originChain : ChainId)
    (originSeq : SequenceNumber) : PendingXt :=
  { id := id
    instanceId := InstanceId.asBytes id
    rawTxs := cleaned
    originChain := some originChain
    originSeq := originSeq
    lockedChains := if cfg.chainId ∈ cleaned then {cfg.chainId} else ∅ }

/-- The locked part of `handle_forwarded_xt`; a known instance is left alone. -/
def registerForwarded (st : CoordinatorState) (id : InstanceId) (cleaned : RawTxs)
    (originChain : ChainId) (originSeq : SequenceNumber) : CoordinatorState × ForwardOutcome :=
  if id ∈ st.pending then (st, .known)
  else if maxPendingXts ≤ st.undecidedCount then
    (st, .rejected (.tooManyPendingInstances maxPendingXts))
  else
    let xt := forwardedXt cfg id cleaned originChain originSeq
    (insertXt st xt,
      .registered (localBuilderSubmission cfg.chainId xt) (cfg.chainId ∈ cleaned))

/-- `handle_forwarded_xt` up to the end of the locked part. -/
def forwardXt (st : CoordinatorState) (id : InstanceId) (txs : RawTxs) (originChain : ChainId)
    (originSeq : SequenceNumber) : CoordinatorState × ForwardOutcome :=
  if id = "" then (st, .rejected (.other "missing instance_id for forwarded XT"))
  else if (cleanTxs txs).keys.isEmpty then (st, .rejected .noTransactions)
  else registerForwarded cfg st id (cleanTxs txs) originChain originSeq

def pushTx (txs : RawTxs) (chainId : ChainId) (tx : Bytes) : RawTxs :=
  match txs.lookup chainId with
  | some _ => Map.update chainId (fun chainTxs => chainTxs ++ [tx]) txs
  | none => txs.insert chainId [tx]

/-- The transactions per chain, in the order of the request. -/
def txsOfRequest (req : XtRequest) : RawTxs :=
  req.transactions.foldl
    (fun acc r => r.transactions.foldl (fun txs tx => pushTx txs r.chainId tx) acc) ∅

/-- The local chain is a participant and has transactions. -/
def includesLocal (inst : SpecInstance) : Bool :=
  cfg.chainId ∈ cfg.chainsFromRequest inst.xtRequest &&
    !(((txsOfRequest inst.xtRequest).lookup cfg.chainId).getD []).isEmpty

def startedXt (inst : SpecInstance) : PendingXt :=
  { id := InstanceId.fromPublisherBytes inst.id
    instanceId := inst.id
    periodId := inst.periodId
    sequenceNum := inst.sequenceNumber
    rawTxs := txsOfRequest inst.xtRequest
    lockedChains := if includesLocal cfg inst then {cfg.chainId} else ∅ }

/-- The locked part of `handle_start_instance`. -/
def registerStarted (st : CoordinatorState) (inst : SpecInstance) :
    CoordinatorState × StartOutcome :=
  let id := InstanceId.fromPublisherBytes inst.id
  if id ∈ st.pending then (st, .alreadyPending (.instanceAlreadyPending id))
  else if maxPendingXts ≤ st.undecidedCount then
    (st, .tooMany (.tooManyPendingInstances maxPendingXts))
  else
    match st.publisherPeriod.acceptStartInstance inst.periodId inst.sequenceNumber with
    | .error err => (st, .refused err)
    | .ok period =>
      let xt := startedXt cfg inst
      (insertXt { st with publisherPeriod := period } xt,
        .registered (localBuilderSubmission cfg.chainId xt) (includesLocal cfg inst))

end Insert

/-- Drops waiters whose caller is gone and fingerprints nobody waits for. -/
def pruneSubmissions (closed : Waiter → Bool) (submissions : Map String (List Waiter)) :
    Map String (List Waiter) :=
  Map.retain (fun _ waiters => !waiters.isEmpty)
    (Map.mapVals (fun _ waiters => waiters.filter (fun w => !closed w)) submissions)

theorem getD_pruneSubmissions (closed : Waiter → Bool) (submissions : Map String (List Waiter))
    (fingerprint : String) :
    ((pruneSubmissions closed submissions).lookup fingerprint).getD [] =
      ((submissions.lookup fingerprint).getD []).filter (fun waiter => !closed waiter) := by
  rw [pruneSubmissions, Map.lookup_retain, Map.lookup_mapVals]
  cases submissions.lookup fingerprint with
  | none => rfl
  | some waiters =>
    -- a fingerprint whose waiters are all gone is taken out, and is then as one nobody waits for
    by_cases hempty : waiters.filter (fun waiter => !closed waiter) = []
    · simp [Option.filter, hempty]
    · simp [Option.filter, hempty]

/-- `remove_pending_xt`, run when the builder refused the submission. -/
def removePendingXt (closed : Waiter → Bool) (st : CoordinatorState) (id : InstanceId) :
    CoordinatorState :=
  match st.pending.lookup id with
  | none => st
  | some xt =>
    { st with
      pending := st.pending.erase id
      mailboxIndex := st.mailboxIndex.erase xt.instanceId
      submittedFingerprints := Map.retain (fun _ pendingId => pendingId != id)
        st.submittedFingerprints
      pendingSubmissions := pruneSubmissions closed st.pendingSubmissions }

/-- Takes all waiters of a fingerprint; the caller answers them after the lock. -/
def takeSubmission (st : CoordinatorState) (fingerprint : String) :
    CoordinatorState × List Waiter :=
  ({ st with pendingSubmissions := st.pendingSubmissions.erase fingerprint },
    (st.pendingSubmissions.lookup fingerprint).getD [])

/-- The locked part of `submit_xt_publisher`; only the first waiter sends the request. -/
def enqueueSubmission (st : CoordinatorState) (fingerprint : String) (waiter : Waiter) :
    CoordinatorState × Bool :=
  let waiters := (st.pendingSubmissions.lookup fingerprint).getD []
  ({ st with
      pendingSubmissions := st.pendingSubmissions.insert fingerprint (waiters ++ [waiter]) },
    waiters.isEmpty)

end Sidecar.Coordinator
