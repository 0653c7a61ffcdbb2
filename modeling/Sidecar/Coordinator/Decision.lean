import Sidecar.Coordinator.Registration

namespace Sidecar.Coordinator

variable (cfg : Config)

/-- What `send_vote` carries out of its locked part. -/
structure VoteRecord where
  instanceBytes : Bytes
  decision : Option (Bool × Nat × Nat)
  command : Option XtBuilderCommand

/-- The first local vote of an instance; the vote counting runs only without a publisher. -/
def castVote (xt : PendingXt) (vote standalone : Bool) (now : Instant) :
    PendingXt × Option (Bool × Nat × Nat) :=
  let voted :=
    { xt with
      simulatedAt := some now
      voteSent := true
      localVote := some vote
      lockedChains := insert cfg.chainId xt.lockedChains }
  if standalone then maybeMakeStandaloneDecision cfg.chainId voted now else (voted, none)

/-- The command that follows a decision made by counting votes. -/
def decidedCommand (xt : PendingXt) (made : Option (Bool × Nat × Nat)) :
    Option XtBuilderCommand :=
  match made with
  | some (decision, _, _) => localBuilderCommand cfg.chainId xt decision
  | none => none

/-- The locked part of `send_vote`. Nothing comes out for an unknown instance or when a
local vote is already there. -/
def recordVote (st : CoordinatorState) (id : InstanceId) (vote standalone : Bool)
    (now : Instant) : CoordinatorState × Option VoteRecord :=
  match st.pending.lookup id with
  | none => (st, none)
  | some xt =>
    if xt.localVote.isSome then (st, none)
    else
      let (voted, made) := castVote cfg xt vote standalone now
      (st.updateXt id (fun _ => voted),
        some
          { instanceBytes := voted.instanceId
            decision := made
            command := decidedCommand cfg voted made })

/-- The locked part of `handle_peer_vote`. Votes after the decision and second votes of a
chain are ignored; the counting runs in every mode. -/
def recordPeerVote (st : CoordinatorState) (id : InstanceId) (chainId : ChainId) (vote : Bool)
    (now : Instant) : CoordinatorState × Except CoordinatorError (Option XtBuilderCommand) :=
  match st.pending.lookup id with
  | none => (st, .error (.instanceNotFound id))
  | some xt =>
    if xt.decision.isSome then (st, .ok none)
    else if chainId ∈ xt.peerVotes then (st, .ok none)
    else
      let (voted, made) := maybeMakeStandaloneDecision cfg.chainId
        { xt with peerVotes := xt.peerVotes.insert chainId vote } now
      (st.updateXt id (fun _ => voted), .ok (decidedCommand cfg voted made))

/-- The locked part of `on_decision`; an abort also drops the overlays of its chains. -/
def recordPublisherDecision (st : CoordinatorState) (id : InstanceId) (decision : Bool)
    (now : Instant) : CoordinatorState × Except CoordinatorError (Option XtBuilderCommand) :=
  match st.pending.lookup id with
  | none => (st, .error (.instanceNotFound id))
  | some xt =>
    if xt.decision.isSome then (st, .ok none)
    else
      let decided := xt.recordDecision decision now
      let overlay := if decision then st.chainOverlay
        else Map.retain (fun chainId _ => !decide (chainId ∈ xt.rawTxs)) st.chainOverlay
      ({ st.updateXt id (fun _ => decided) with chainOverlay := overlay },
        .ok (localBuilderCommand cfg.chainId decided decision))

/-- The instance belongs to an earlier period and is neither confirmed nor committed. -/
def isStale (periodId : PeriodId) (xt : PendingXt) : Bool :=
  xt.periodId ≠ 0 && xt.periodId < periodId && xt.confirmedAt.isNone &&
    xt.decision != some true

def abortUndecided (xt : PendingXt) (now : Instant) : PendingXt :=
  if xt.decision.isNone then xt.recordDecision false now else xt

/-- The local instances the builder has to drop, in iteration order. -/
def abortIds (p : PendingXt → Bool) (st : CoordinatorState) : List InstanceId :=
  ((Map.values st.pending).filter (fun xt => p xt && xt.runsOn cfg.chainId)).map PendingXt.id

/-- What the locked part of `handle_start_period` hands on: raw ids to vote abort on, and
instances to abort at the builder. -/
structure PeriodChange where
  abortedInstanceIds : List Bytes
  builderAbortIds : List InstanceId

/-- The locked part of `handle_start_period`. -/
def openPeriod (st : CoordinatorState) (periodId : PeriodId) (now : Instant) :
    CoordinatorState × PeriodChange :=
  ({ st with
      pending := Map.mapVals
        (fun _ xt => if isStale periodId xt then abortUndecided xt now else xt) st.pending
      publisherPeriod := st.publisherPeriod.start periodId
      chainOverlay := ∅ },
    { abortedInstanceIds := ((Map.values st.pending).filter
        (fun xt => isStale periodId xt && xt.decision.isNone)).map PendingXt.instanceId
      builderAbortIds := abortIds cfg (isStale periodId) st })

/-- Every pending instance ends up aborted, committed ones included. -/
def forceAbort (xt : PendingXt) (now : Instant) : PendingXt :=
  if xt.decision ≠ some false then xt.recordDecision false now else xt

/-- What the locked part of `handle_rollback` hands on. -/
structure RollbackChange where
  builderAbortIds : List InstanceId
  waiters : List (List Waiter)

/-- The locked part of `handle_rollback`. -/
def rollBack (st : CoordinatorState) (now : Instant) : CoordinatorState × RollbackChange :=
  ({ st with
      pending := Map.mapVals (fun _ xt => forceAbort xt now) st.pending
      publisherPeriod := st.publisherPeriod.close
      chainOverlay := ∅
      mailboxBuffer := ∅
      pendingSubmissions := ∅ },
    { builderAbortIds := abortIds cfg (fun _ => true) st
      waiters := Map.values st.pendingSubmissions })

/-- The locked part of `confirm_included_xts`; unknown ids are skipped. -/
def confirmIncluded (st : CoordinatorState) (ids : List InstanceId) (now : Instant) :
    CoordinatorState :=
  ids.foldl (fun st id => st.updateXt id (fun xt => { xt with confirmedAt := some now })) st

/-- The time that `cleanup` measures age from. -/
def settledAt (xt : PendingXt) : Option Instant := xt.confirmedAt.or xt.decidedAt

def keepsXt (now maxAge : Nat) (xt : PendingXt) : Bool :=
  match settledAt xt with
  | none => true
  | some t => now - t ≤ maxAge

/-- `cleanup`: old settled instances go, with everything that points at them. -/
def cleanup (closed : Waiter → Bool) (st : CoordinatorState) (now maxAge : Nat) :
    CoordinatorState :=
  let pending := Map.retain (fun _ xt => keepsXt now maxAge xt) st.pending
  let removed := ((Map.values st.pending).filter (fun xt => !keepsXt now maxAge xt)).map
    PendingXt.instanceId
  let mailboxIndex := removed.foldl (fun index rawId => index.erase rawId) st.mailboxIndex
  { st with
    pending := pending
    mailboxIndex := mailboxIndex
    submittedFingerprints := Map.retain (fun _ id => decide (id ∈ pending))
      st.submittedFingerprints
    pendingSubmissions := pruneSubmissions closed st.pendingSubmissions
    mailboxBuffer := Map.retain (fun key _ => decide (key ∈ mailboxIndex)) st.mailboxBuffer }

/-- The locked part of `handle_mailbox_message`. -/
def deliverMailbox (st : CoordinatorState) (msg : MailboxMessage) : CoordinatorState :=
  match st.mailboxIndex.lookup msg.instanceId with
  | some id => st.updateXt id (fun xt => { xt with pendingMailbox := xt.pendingMailbox ++ [msg] })
  | none => st.bufferOrphanMailbox msg

theorem mailboxIndex_deliverMailbox (st : CoordinatorState) (msg : MailboxMessage) :
    (deliverMailbox st msg).mailboxIndex = st.mailboxIndex := by
  simp only [deliverMailbox]
  cases st.mailboxIndex.lookup msg.instanceId with
  | some i => rfl
  | none =>
    simp only [CoordinatorState.bufferOrphanMailbox]
    split <;> split_ifs <;> rfl

end Sidecar.Coordinator
