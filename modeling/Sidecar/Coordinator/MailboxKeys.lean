import Sidecar.Mailbox.Storage
import Sidecar.Coordinator.Pipeline

/-! One notion of mailbox slot: the keys of dependencies, the string that is hashed for the
contract and the match against messages from the wire tell the same messages apart. -/

namespace Sidecar.Mailbox

theorem dependencyKeysEqual_iff (d d' : CrossRollupDependency) :
    dependencyKeysEqual d d' = true ↔
      DependencyKey.ofDependency d = DependencyKey.ofDependency d' := by
  simp only [dependencyKeysEqual, DependencyKey.ofDependency, Bool.and_eq_true, beq_iff_eq,
    DependencyKey.mk.injEq, and_assoc]

theorem decodeSessionId_iff (bytes : Bytes) (sessionId : U256) :
    decodeSessionId bytes = some sessionId ↔
      bytes.length = 32 ∧ BigEndian.ofBytes bytes = sessionId.toNat := by
  by_cases hlength : bytes.length = sessionIdBytes
  · have hdecode : decodeSessionId bytes = some (Solidity.Word.ofBytes bytes) := by
      rw [decodeSessionId, if_neg (not_not.mpr hlength)]
      rfl
    have hnat := Solidity.Word.toNat_ofBytes hlength
    rw [hdecode, Option.some.injEq, ← hnat, BitVec.toNat_inj]
    exact ⟨fun h => ⟨hlength, h⟩, fun h => h.2⟩
  · have hdecode : decodeSessionId bytes = none := by
      rw [decodeSessionId, if_pos hlength]
    rw [hdecode]
    exact ⟨fun h => by simp at h, fun h => absurd h.1 hlength⟩

theorem decodeSessionId_encodeSessionId (sessionId : U256) :
    decodeSessionId (encodeSessionId sessionId) = some sessionId := by
  have hbytes : encodeSessionId sessionId = Solidity.Word.bytes sessionId := rfl
  have hnat := Solidity.Word.toNat_ofBytes (Solidity.Word.length_bytes sessionId)
  rw [Solidity.Word.ofBytes_bytes] at hnat
  rw [decodeSessionId_iff, hbytes]
  exact ⟨Solidity.Word.length_bytes sessionId, hnat.symm⟩

theorem tryFrom_iff {n : Nat} (bytes : Bytes) (fixed : FixedBytes n) :
    FixedBytes.tryFrom n bytes = some fixed ↔ bytes.length = n ∧ bytes = fixed.bytes := by
  unfold FixedBytes.tryFrom
  constructor
  · intro h
    split_ifs at h with hlength
    rw [← Option.some.inj h]
    exact ⟨hlength, rfl⟩
  · intro h
    rw [dif_pos h.1]
    exact congrArg some (FixedBytes.eq_of_bytes h.2)

theorem tryFrom_bytes {n : Nat} (fixed : FixedBytes n) :
    FixedBytes.tryFrom n fixed.bytes = some fixed :=
  (tryFrom_iff fixed.bytes fixed).mpr ⟨fixed.length_bytes, rfl⟩

/-- The six comparisons of the matcher, as equations. -/
theorem matchesDependency_iff (msg : MailboxMessage) (dep : CrossRollupDependency) :
    matchesDependency msg dep = true ↔
      msg.sourceChain = dep.sourceChainId ∧ msg.destinationChain = dep.destChainId ∧
        InstanceId.asBytes msg.label = dep.label ∧
        FixedBytes.tryFrom 20 msg.sender = some dep.sender ∧
        FixedBytes.tryFrom 20 msg.receiver = some dep.receiver ∧
        decodeSessionId msg.sessionId = some dep.sessionId := by
  simp only [matchesDependency, Bool.and_eq_true, beq_iff_eq, and_assoc]

end Sidecar.Mailbox

namespace Sidecar.Coordinator

open Mailbox

theorem matchesDependency_wireMessage (instanceId : Bytes) (w : CrossRollupMessage)
    (dep : CrossRollupDependency) :
    matchesDependency (wireMessage instanceId w) dep = true ↔
      w.sourceChainId = dep.sourceChainId ∧ w.destChainId = dep.destChainId ∧
        InstanceId.asBytes w.label = dep.label ∧ w.sender = dep.sender ∧
        w.receiver = dep.receiver ∧ w.sessionId = dep.sessionId := by
  rw [matchesDependency_iff]
  simp only [wireMessage, tryFrom_bytes, decodeSessionId_encodeSessionId, Option.some.injEq]

/-- All notions of mailbox key agree. On the dependencies of one chain, the hashable key, the
comparison without a key and the string hashed for the contract distinguish the same
dependencies; a message matches when its lengths are right and its six fields are those of the
dependency; and the wire form of an outbound message matches what the message itself agrees
with. -/
theorem mailbox_keys_agree :
    (∀ (chainId : ChainId) (d d' : CrossRollupDependency), d.destChainId = chainId →
        d'.destChainId = chainId → d.sourceChainId ≤ u64Max → d'.sourceChainId ≤ u64Max →
      (DependencyKey.ofDependency d = DependencyKey.ofDependency d' ↔
          dependencyKeysEqual d d' = true) ∧
        (dependencyKeysEqual d d' = true ↔
          mailboxKeyPreimage chainId d = mailboxKeyPreimage chainId d')) ∧
      (∀ (m : MailboxMessage) (d : CrossRollupDependency), matchesDependency m d = true ↔
        (m.sender.length = 20 ∧ m.receiver.length = 20 ∧ m.sessionId.length = 32) ∧
          m.sourceChain = d.sourceChainId ∧ m.destinationChain = d.destChainId ∧
          m.sender = d.sender.bytes ∧ m.receiver = d.receiver.bytes ∧
          BigEndian.ofBytes m.sessionId = d.sessionId.toNat ∧
          InstanceId.asBytes m.label = d.label) ∧
      ∀ (instanceId : Bytes) (w : CrossRollupMessage) (d : CrossRollupDependency),
        matchesDependency (wireMessage instanceId w) d = true ↔
          w.sourceChainId = d.sourceChainId ∧ w.destChainId = d.destChainId ∧
            w.sender = d.sender ∧ w.receiver = d.receiver ∧ w.sessionId = d.sessionId ∧
            InstanceId.asBytes w.label = d.label := by
  refine ⟨?_, ?_, ?_⟩
  · intro chainId d d' hdest hdest' hsource hsource'
    have hpre := @mailboxKeyPreimage_iff chainId d d' hsource hsource'
      (hdest.trans hdest'.symm)
    exact ⟨(dependencyKeysEqual_iff d d').symm, (dependencyKeysEqual_iff d d').trans hpre.symm⟩
  · intro m d
    rw [matchesDependency_iff, tryFrom_iff, tryFrom_iff, decodeSessionId_iff]
    tauto
  · intro instanceId w d
    rw [matchesDependency_wireMessage]
    tauto

/-- Two dependencies that differ in the session only: equal with equal sessions, and apart in
every sense with different ones. -/
theorem mailbox_keys_agree_on_sessions :
    let dep : CrossRollupDependency :=
      { sourceChainId := 901, destChainId := 902, sender := .repeatByte 20 0x11,
        receiver := .repeatByte 20 0x22, label := [83, 69, 78, 68], data := none, sessionId := 7 }
    mailboxKeyPreimage 902 dep = mailboxKeyPreimage 902 { dep with data := some [1] } ∧
      mailboxKeyPreimage 902 dep ≠ mailboxKeyPreimage 902 { dep with sessionId := 8 } := by
  intro dep
  have hsame := mailbox_keys_agree.1 902 dep { dep with data := some [1] } rfl rfl (by decide)
    (by decide)
  have hother := mailbox_keys_agree.1 902 dep { dep with sessionId := 8 } rfl rfl (by decide)
    (by decide)
  refine ⟨hsame.2.mp (by decide), fun hpre => ?_⟩
  have hequal := hother.2.mpr hpre
  revert hequal
  decide

end Sidecar.Coordinator
