import Sidecar.Framework.Map
import Mathlib.Algebra.Ring.Nat

namespace Sidecar

abbrev Bytes := List UInt8
abbrev ChainId := Nat
abbrev PeriodId := Nat
abbrev SequenceNumber := Nat
/-- Monotonic clock readings; only differences and presence are ever looked at. -/
abbrev Instant := Nat

/-- Byte strings of a fixed length, as the EVM types are. -/
structure FixedBytes (n : Nat) where
  bytes : Bytes
  length_bytes : bytes.length = n
  deriving DecidableEq

theorem FixedBytes.eq_of_bytes {n : Nat} {a b : FixedBytes n} (h : a.bytes = b.bytes) : a = b := by
  cases a with
  | mk bytes hlength =>
    cases b with
    | mk bytes' hlength' =>
      obtain rfl : bytes = bytes' := h
      rfl

/-- The checked conversion from a slice; it fails on every other length. -/
def FixedBytes.tryFrom (n : Nat) (bs : Bytes) : Option (FixedBytes n) :=
  if h : bs.length = n then some ⟨bs, h⟩ else none

def FixedBytes.repeatByte (n : Nat) (b : UInt8) : FixedBytes n := ⟨List.replicate n b, by simp⟩

abbrev Address := FixedBytes 20
abbrev B256 := FixedBytes 32
abbrev U256 := BitVec 256

/-- Largest `u64`; counters that can reach it saturate there. -/
def u64Max : Nat := 2 ^ 64 - 1

def saturatingAdd (a b : Nat) : Nat := min (a + b) u64Max

/-- Instance identifiers are printable strings; peers receive them as they are. -/
abbrev InstanceId := String

namespace InstanceId

def asBytes (id : InstanceId) : Bytes := id.toUTF8.data.toList

/-- `xt-{chain_id}-{seq}`, the identifier a sidecar without a publisher gives. -/
def standalone (chainId : ChainId) (seq : SequenceNumber) : InstanceId :=
  "xt-" ++ toString chainId ++ "-" ++ toString seq

theorem split_at_dash {l l' r r' : List Char} (hl : '-' ∉ l) (hl' : '-' ∉ l')
    (h : l ++ '-' :: r = l' ++ '-' :: r') : l = l' ∧ r = r' := by
  induction l generalizing l' with
  | nil =>
    cases l' with
    | nil => simpa using h
    | cons c l' =>
      have hc : '-' = c := (List.cons.inj h).1
      exact absurd (by rw [hc]; exact List.mem_cons_self) hl'
  | cons c l ih =>
    cases l' with
    | nil =>
      have hc : c = '-' := (List.cons.inj h).1
      exact absurd (by rw [hc]; exact List.mem_cons_self) hl
    | cons c' l' =>
      obtain ⟨hc, htail⟩ := List.cons.inj h
      obtain ⟨hl, hr⟩ := ih (fun hm => hl (List.mem_cons_of_mem c hm))
        (fun hm => hl' (List.mem_cons_of_mem c' hm)) htail
      exact ⟨by rw [hc, hl], hr⟩

theorem toDigits_inj {n m : Nat} (h : Nat.toDigits 10 n = Nat.toDigits 10 m) : n = m := by
  have hn := @Nat.ofDigitChars_ten_toDigits n
  rw [h, Nat.ofDigitChars_ten_toDigits] at hn
  exact hn.symm

/-- The identifiers of different chains, and of one chain, never collide. -/
theorem standalone_inj {chainId chainId' : ChainId} {seq seq' : SequenceNumber}
    (h : standalone chainId seq = standalone chainId' seq') : chainId = chainId' ∧ seq = seq' := by
  have hdash : ∀ n : Nat, '-' ∉ Nat.toDigits 10 n := by
    intro n hm
    have hdigit := Nat.isDigit_of_mem_toDigits (by decide) (by decide) hm
    simp at hdigit
  have hlist := congrArg String.toList h
  simp only [standalone, String.toList_append, Nat.toString_eq_ofList_toDigits,
    String.toList_ofList] at hlist
  obtain ⟨hc, hk⟩ := split_at_dash (hdash chainId) (hdash chainId') (by simpa using hlist)
  exact ⟨toDigits_inj hc, toDigits_inj hk⟩

def hexDigit (n : Nat) : Char := Nat.digitChar n

def hexEncode (bs : Bytes) : String :=
  String.ofList (bs.flatMap (fun b => [hexDigit (b.toNat / 16), hexDigit (b.toNat % 16)]))

/-- Publisher ids are 32 raw bytes; the printable form is their hex encoding. -/
def fromPublisherBytes (bs : Bytes) : InstanceId := hexEncode bs

/-- No publisher's identifier looks like one given without a publisher: `x` is no hex digit. -/
theorem standalone_ne_fromPublisherBytes (chainId : ChainId) (seq : SequenceNumber) (bs : Bytes) :
    standalone chainId seq ≠ fromPublisherBytes bs := by
  intro h
  have hdigits : ∀ n < 16, hexDigit n ≠ 'x' := by decide
  have hx : 'x' ∈ (fromPublisherBytes bs).toList := by
    rw [← h]
    simp [standalone, String.toList_append]
  have hall : ∀ c ∈ (fromPublisherBytes bs).toList, c ≠ 'x' := by
    intro c hc
    rw [fromPublisherBytes, hexEncode, String.toList_ofList, List.mem_flatMap] at hc
    obtain ⟨b, -, hb⟩ := hc
    have hbound := b.toNat_lt
    simp only [List.mem_cons, List.not_mem_nil, or_false] at hb
    rcases hb with hb | hb
    · rw [hb]
      exact hdigits _ (by omega)
    · rw [hb]
      exact hdigits _ (by omega)
  exact hall 'x' hx rfl

end InstanceId

/-- A mailbox read found in a trace; `data` is filled once a peer delivered it. -/
structure CrossRollupDependency where
  sourceChainId : ChainId
  destChainId : ChainId
  sender : Address
  receiver : Address
  label : Bytes
  data : Option Bytes
  sessionId : U256
  deriving DecidableEq

/-- A mailbox write found in a trace. -/
structure CrossRollupMessage where
  sourceChainId : ChainId
  destChainId : ChainId
  sender : Address
  receiver : Address
  label : String
  data : Bytes
  sessionId : U256
  deriving DecidableEq

/-- The wire form of a mailbox write; lengths are whatever the peer sent. -/
structure MailboxMessage where
  instanceId : Bytes
  sourceChain : Nat
  destinationChain : Nat
  sender : Bytes
  receiver : Bytes
  label : String
  payload : Bytes
  sessionId : Bytes
  deriving DecidableEq

abbrev SlotMap := Map B256 B256

structure AccountOverride where
  balance : Option U256 := none
  nonce : Option Nat := none
  code : Option Bytes := none
  state : Option SlotMap := none
  stateDiff : Option SlotMap := none

abbrev StateOverride := Map Address AccountOverride

structure SimulationResult where
  success : Bool
  error : Option String
  stateOverrides : Option StateOverride
  dependencies : List CrossRollupDependency
  outboundMessages : List CrossRollupMessage

inductive CoordinatorError where
  | instanceNotFound (id : String)
  | instanceAlreadyPending (id : String)
  | periodNotInitialized
  | stalePeriod (current received : PeriodId)
  | futurePeriod (current received : PeriodId)
  | staleSequence (last received : SequenceNumber)
  | noTransactions
  | publisherNotConnected
  | mailbox (reason : String)
  | nonce (reason : String)
  | putInboxNotConfigured
  | builderControl (reason : String)
  | tooManyPendingInstances (limit : Nat)
  | other (reason : String)
  deriving DecidableEq

/-- The text of an error, as callers that wait for a submission receive it. -/
def CoordinatorError.message : CoordinatorError → String
  | instanceNotFound id => "instance not found: " ++ id
  | instanceAlreadyPending id => "instance already pending: " ++ id
  | periodNotInitialized => "period not initialized"
  | stalePeriod current received =>
    "stale period: received " ++ toString received ++ ", current " ++ toString current
  | futurePeriod current received =>
    "future period: received " ++ toString received ++ ", current " ++ toString current
  | staleSequence last received =>
    "stale sequence number: received " ++ toString received ++ ", last accepted " ++ toString last
  | noTransactions => "no transactions provided"
  | publisherNotConnected => "publisher not connected"
  | mailbox reason => "mailbox error: " ++ reason
  | nonce reason => "nonce error: " ++ reason
  | putInboxNotConfigured => "put inbox builder not configured"
  | builderControl reason => "builder control error: " ++ reason
  | tooManyPendingInstances limit => "too many pending instances (limit: " ++ toString limit ++ ")"
  | other reason => reason

end Sidecar
