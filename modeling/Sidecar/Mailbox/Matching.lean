import Sidecar.Model.Primitives

namespace Sidecar.Mailbox

def sessionIdBytes : Nat := 32

/-- Big-endian bytes of the session id. -/
def encodeSessionId (sessionId : U256) : Bytes :=
  (List.range sessionIdBytes).map
    (fun i => UInt8.ofNat (sessionId.toNat / 256 ^ (sessionIdBytes - 1 - i)))

def decodeSessionId (bytes : Bytes) : Option U256 :=
  if bytes.length ≠ sessionIdBytes then none
  else some (BitVec.ofNat 256 (bytes.foldl (fun acc b => acc * 256 + b.toNat) 0))

/-- The six fields that the mailbox contract hashes. -/
structure DependencyKey where
  sourceChainId : ChainId
  destChainId : ChainId
  sender : Address
  receiver : Address
  sessionId : U256
  label : Bytes
  deriving DecidableEq

def DependencyKey.ofDependency (dep : CrossRollupDependency) : DependencyKey :=
  { sourceChainId := dep.sourceChainId
    destChainId := dep.destChainId
    sender := dep.sender
    receiver := dep.receiver
    sessionId := dep.sessionId
    label := dep.label }

/-- Key under which an outbound message is sent once. -/
structure MailboxMessageKey where
  instanceId : Bytes
  sourceChain : Nat
  destinationChain : Nat
  sender : Bytes
  receiver : Bytes
  sessionId : Bytes
  label : String
  deriving DecidableEq

def MailboxMessageKey.ofMessage (msg : MailboxMessage) : MailboxMessageKey :=
  { instanceId := msg.instanceId
    sourceChain := msg.sourceChain
    destinationChain := msg.destinationChain
    sender := msg.sender
    receiver := msg.receiver
    sessionId := msg.sessionId
    label := msg.label }

/-- All six key fields must agree; malformed lengths never match. -/
def matchesDependency (msg : MailboxMessage) (dep : CrossRollupDependency) : Bool :=
  msg.sourceChain == dep.sourceChainId && msg.destinationChain == dep.destChainId &&
    InstanceId.asBytes msg.label == dep.label &&
    FixedBytes.tryFrom 20 msg.sender == some dep.sender &&
    FixedBytes.tryFrom 20 msg.receiver == some dep.receiver &&
    decodeSessionId msg.sessionId == some dep.sessionId

def dependencyKeysEqual (left right : CrossRollupDependency) : Bool :=
  left.sourceChainId == right.sourceChainId && left.destChainId == right.destChainId &&
    left.sender == right.sender && left.receiver == right.receiver &&
    left.sessionId == right.sessionId && left.label == right.label

/-- The list already holds a message with the same key; payloads are not compared. -/
def containsMessage (msgs : List CrossRollupMessage) (msg : CrossRollupMessage) : Bool :=
  msgs.any (fun m =>
    m.sourceChainId == msg.sourceChainId && m.destChainId == msg.destChainId &&
      m.label == msg.label && m.sender == msg.sender && m.receiver == msg.receiver &&
      m.sessionId == msg.sessionId)

end Sidecar.Mailbox
