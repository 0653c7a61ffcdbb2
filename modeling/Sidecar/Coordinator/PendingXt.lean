import Sidecar.Mailbox.Matching
import Mathlib.Data.Finset.Basic

namespace Sidecar.Coordinator

open Mailbox

abbrev RawTxs := Map ChainId (List Bytes)

/-- A cross-chain transaction in flight. Its creation time and the sender cache, which no
decision reads, are left out. -/
structure PendingXt where
  id : InstanceId
  instanceId : Bytes
  periodId : PeriodId := 0
  sequenceNum : SequenceNumber := 0
  rawTxs : RawTxs := ∅
  simulatedAt : Option Instant := none
  decidedAt : Option Instant := none
  confirmedAt : Option Instant := none
  decision : Option Bool := none
  voteSent : Bool := false
  localVote : Option Bool := none
  peerVotes : Map ChainId Bool := ∅
  lockedChains : Finset ChainId := ∅
  originChain : Option ChainId := none
  originSeq : SequenceNumber := 0
  pendingMailbox : List MailboxMessage := []
  sentMailboxKeys : Finset MailboxMessageKey := ∅
  dependencies : List CrossRollupDependency := []
  depKeys : Finset DependencyKey := ∅
  fulfilledDeps : List CrossRollupDependency := []
  fulfilledDepKeys : Finset DependencyKey := ∅
  outboundMessages : List CrossRollupMessage := []

namespace PendingXt

def recordDecision (xt : PendingXt) (decision : Bool) (now : Instant) : PendingXt :=
  { xt with decision := some decision, decidedAt := some now }

/-- The transactions of one chain; a chain that is not listed has none. -/
def txsOf (xt : PendingXt) (chainId : ChainId) : List Bytes := (xt.rawTxs.lookup chainId).getD []

/-- The chain has transactions to run in this instance. -/
def runsOn (xt : PendingXt) (chainId : ChainId) : Bool := !(xt.txsOf chainId).isEmpty

end PendingXt

/-- What the local builder is asked to reserve for an instance. -/
structure XtBuilderSubmission where
  instanceId : InstanceId
  periodId : PeriodId
  sequenceNumber : SequenceNumber
  transactions : List Bytes
  deriving DecidableEq

inductive XtBuilderCommand where
  | release (instanceId : InstanceId) (dependencies : List CrossRollupDependency)
  | abort (instanceId : InstanceId)
  deriving DecidableEq

def depsForChain (deps : List CrossRollupDependency) (chainId : ChainId) :
    List CrossRollupDependency :=
  deps.filter (fun dep => dep.destChainId = chainId)

/-- Instances without local transactions are not submitted. -/
def localBuilderSubmission (chainId : ChainId) (xt : PendingXt) : Option XtBuilderSubmission :=
  if xt.runsOn chainId then
    some
      { instanceId := xt.id
        periodId := xt.periodId
        sequenceNumber := if xt.sequenceNum ≠ 0 then xt.sequenceNum else xt.originSeq
        transactions := xt.txsOf chainId }
  else none

def localBuilderCommand (chainId : ChainId) (xt : PendingXt) (decision : Bool) :
    Option XtBuilderCommand :=
  if xt.runsOn chainId then
    if decision then some (.release xt.id (depsForChain xt.fulfilledDeps chainId))
    else some (.abort xt.id)
  else none

/-- The votes that count: the local one and those of other chains. A peer vote under the
local chain's own id is stored but not counted. -/
def countedVotes (chainId : ChainId) (xt : PendingXt) : List Bool :=
  xt.localVote.toList ++
    (xt.peerVotes.entries.filter (fun e => e.1 ≠ chainId)).map Sigma.snd

/-- Any abort vote decides at once; commit waits until as many votes as participant chains
have been collected. Returns the decision with the two counts. -/
def maybeMakeStandaloneDecision (chainId : ChainId) (xt : PendingXt) (now : Instant) :
    PendingXt × Option (Bool × Nat × Nat) :=
  if xt.decision.isSome then (xt, none)
  else
    let expected := xt.rawTxs.keys.length
    let votes := countedVotes chainId xt
    if false ∈ votes then
      (xt.recordDecision false now, some (false, votes.length, expected))
    else if 0 < expected ∧ expected ≤ votes.length then
      (xt.recordDecision true now, some (true, votes.length, expected))
    else (xt, none)

end Sidecar.Coordinator
