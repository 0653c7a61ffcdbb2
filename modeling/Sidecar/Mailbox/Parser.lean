import Sidecar.Framework.Traversal
import Sidecar.Model.Primitives

namespace Sidecar.Mailbox

/-- A JSON document. Objects are read by key only, so the first binding is the value. -/
inductive Value where
  | null
  | bool (b : Bool)
  | number (literal : String)
  | string (s : String)
  | array (items : List Value)
  | object (fields : List (String × Value))

namespace Value

def get (key : String) : Value → Option Value
  | object fields => fields.lookup key
  | _ => none

def asStr : Value → Option String
  | string s => some s
  | _ => none

def asArray : Value → Option (List Value)
  | array items => some items
  | _ => none

/-- A string field of a node, empty when absent or of another type. -/
def strField (key : String) (node : Value) : String := ((node.get key).bind asStr).getD ""

mutual

/-- Number of values inside a document, itself included. -/
def size : Value → Nat
  | array items => 1 + sizeItems items
  | object fields => 1 + sizeFields fields
  | _ => 1

def sizeItems : List Value → Nat
  | [] => 0
  | item :: items => item.size + sizeItems items

def sizeFields : List (String × Value) → Nat
  | [] => 0
  | (_, field) :: fields => field.size + sizeFields fields

end

end Value

structure MessageHeader where
  chainSrc : U256
  chainDest : U256
  sender : Address
  receiver : Address
  sessionId : U256
  label : String
  deriving DecidableEq

structure Message where
  header : MessageHeader
  payload : Bytes
  deriving DecidableEq

/-- The generated contract bindings and the address parser, which are library code. -/
structure Abi where
  writeSelector : Bytes
  readSelector : Bytes
  decodeWriteMessage : Bytes → Option Message
  decodeReadMessage : Bytes → Option MessageHeader
  parseAddress : String → Option Address

inductive MailboxCallType where
  | read
  | write
  deriving DecidableEq

/-- A mailbox call found in a trace. `reverted` is about the call's own frame only. -/
structure MailboxCall where
  callType : MailboxCallType
  sourceChain : ChainId
  destChain : ChainId
  sender : Address
  receiver : Address
  label : String
  data : Bytes
  sessionId : U256
  reverted : Bool
  deriving DecidableEq

structure SimulationState where
  reads : List MailboxCall := []
  writes : List MailboxCall := []
  deriving DecidableEq

def hexVal (b : UInt8) : Option UInt8 :=
  if 48 ≤ b ∧ b ≤ 57 then some (b - 48)
  else if 97 ≤ b ∧ b ≤ 102 then some (b - 87)
  else if 65 ≤ b ∧ b ≤ 70 then some (b - 55)
  else none

/-- Hex text to bytes; odd lengths and other characters are errors. -/
def hexDecode : Bytes → Option Bytes
  | [] => some []
  | [_] => none
  | a :: b :: rest => do
    let hi ← hexVal a
    let lo ← hexVal b
    let tail ← hexDecode rest
    some ((hi * 16 + lo) :: tail)

/-- Removes `0x` from the front as long as it is there. -/
def trimStartHex : Bytes → Bytes
  | a :: b :: rest => if a = 48 ∧ b = 120 then trimStartHex rest else a :: b :: rest
  | bs => bs

/-- Removes `0x` from the front once. -/
def stripStartHex : Bytes → Bytes
  | a :: b :: rest => if a = 48 ∧ b = 120 then rest else a :: b :: rest
  | bs => bs

def calldataSelector (input : Bytes) : Option Bytes :=
  let body := stripStartHex input
  if body.length < 8 then none else hexDecode (body.take 8)

/-- The checked conversion of a 256-bit word to a chain id. -/
def chainIdOfWord (word : U256) : Option ChainId :=
  if word.toNat ≤ u64Max then some word.toNat else none

/-- The frame itself carries an error text. -/
def reverted (node : Value) : Bool :=
  match (node.get "error").bind Value.asStr with
  | some e => !e.isEmpty
  | none => false

/-- The child frames of a call. -/
def calls (node : Value) : List Value := ((node.get "calls").bind Value.asArray).getD []

section Parse

variable (abi : Abi) (mailboxAddress : Address) (localChainId : ChainId)

/-- The caller was parsed before; only the header names the sender. -/
def decodeWrite (input : Bytes) (_caller : Address) (reverted : Bool) : Option MailboxCall := do
  let data ← hexDecode (trimStartHex input)
  let message ← abi.decodeWriteMessage data
  let dest ← chainIdOfWord message.header.chainDest
  some
    { callType := .write
      sourceChain := localChainId
      destChain := dest
      sender := message.header.sender
      receiver := message.header.receiver
      label := message.header.label
      data := message.payload
      sessionId := message.header.sessionId
      reverted := reverted }

def decodeRead (input : Bytes) (reverted : Bool) : Option MailboxCall := do
  let data ← hexDecode (trimStartHex input)
  let header ← abi.decodeReadMessage data
  let source ← chainIdOfWord header.chainSrc
  some
    { callType := .read
      sourceChain := source
      destChain := localChainId
      sender := header.sender
      receiver := header.receiver
      label := header.label
      data := []
      sessionId := header.sessionId
      reverted := reverted }

def visitNode (node : Value) (state : SimulationState) : SimulationState :=
  let input := InstanceId.asBytes (node.strField "input")
  match abi.parseAddress (node.strField "to") with
  | none => state
  | some toAddr =>
    if toAddr ≠ mailboxAddress ∨ input.length < 10 then state
    else
      let selector := calldataSelector input
      if selector = some abi.writeSelector then
        match abi.parseAddress (node.strField "from") with
        | none => state
        | some caller =>
          match decodeWrite abi localChainId input caller (reverted node) with
          | none => state
          | some call => { state with writes := state.writes ++ [call] }
      else if selector = some abi.readSelector then
        match decodeRead abi localChainId input (reverted node) with
        | none => state
        | some call => { state with reads := state.reads ++ [call] }
      else state

/-- Deeper frames are cut off. -/
def maxTraceDepth : Nat := 1024

def parseCallTrace (trace : Value) : SimulationState :=
  Traversal.walk calls maxTraceDepth (visitNode abi mailboxAddress localChainId) trace.size
    [(trace, 0)] {}

end Parse

end Sidecar.Mailbox
