import Sidecar.Coordinator.Entry
import Sidecar.Coordinator.ProcessRun
import Sidecar.Coordinator.MailboxConservation

namespace Sidecar.Coordinator

open Mailbox Simulation

/-- The result of a simulation that came back. -/
def resultOf : ProcEvent → Option SimulationResult
  | .simulated _ _ _ _ (.ok result) => some result
  | _ => none

def simulations (log : List ProcEvent) : List SimulationResult := log.filterMap resultOf

/-- The successful simulations, one for each transaction: after a success a transaction is not
simulated again. -/
def successes (log : List ProcEvent) : List SimulationResult :=
  (simulations log).filter SimulationResult.success

def sentOf : ProcEvent → Option MailboxMessage
  | .sent msg => some msg
  | _ => none

def sentMessages (log : List ProcEvent) : List MailboxMessage := log.filterMap sentOf

/-- What simulations have written, in order, as it goes over the wire. -/
def wireWrites (rawId : Bytes) (results : List SimulationResult) : List MailboxMessage :=
  results.flatMap (fun result => wireMessages rawId result.outboundMessages)

section Payloads

variable (key : MailboxMessageKey) (msgs : List MailboxMessage)

def firstPayload : Option Bytes :=
  (msgs.find? (fun msg => decide (MailboxMessageKey.ofMessage msg = key))).map
    MailboxMessage.payload

def lastPayload : Option Bytes := firstPayload key msgs.reverse

end Payloads

/-- Of every key that a successful simulation has written, a message was sent with the payload
of the last write, and none with another. -/
def SentFinal (rawId : Bytes) (log : List ProcEvent) : Prop :=
  ∀ write ∈ wireWrites rawId (successes log),
    (∃ msg ∈ sentMessages log,
      MailboxMessageKey.ofMessage msg = MailboxMessageKey.ofMessage write ∧
      some msg.payload =
        lastPayload (MailboxMessageKey.ofMessage write) (wireWrites rawId (successes log))) ∧
    ∀ msg ∈ sentMessages log,
      MailboxMessageKey.ofMessage msg = MailboxMessageKey.ofMessage write →
      some msg.payload =
        lastPayload (MailboxMessageKey.ofMessage write) (wireWrites rawId (successes log))

/-- The first write of such a key, in all simulations and so in failed ones as well, has the
payload of the last write in the successful ones. -/
def FirstIsFinal (rawId : Bytes) (log : List ProcEvent) : Prop :=
  ∀ write ∈ wireWrites rawId (successes log),
    firstPayload (MailboxMessageKey.ofMessage write) (wireWrites rawId (simulations log)) =
      lastPayload (MailboxMessageKey.ofMessage write) (wireWrites rawId (successes log))

instance (rawId : Bytes) (log : List ProcEvent) : Decidable (SentFinal rawId log) :=
  inferInstanceAs (Decidable (∀ write ∈ wireWrites rawId (successes log), _ ∧ _))

instance (rawId : Bytes) (log : List ProcEvent) : Decidable (FirstIsFinal rawId log) :=
  inferInstanceAs (Decidable (∀ write ∈ wireWrites rawId (successes log), _ = _))

/-- What has been sent, and what is about to be, is the first write of each key in the
simulations dispatched so far. -/
structure SentSoFar (rawId : Bytes) (results : List SimulationResult)
    (toSend : List MailboxMessage) (log : List ProcEvent) (keys : Finset MailboxMessageKey) :
    Prop where
  sent_eq : sentMessages log ++ toSend =
    firsts MailboxMessageKey.ofMessage ∅ (wireWrites rawId results)
  keys_eq : keys = keysSeen MailboxMessageKey.ofMessage ∅ (wireWrites rawId results)

/-- What has been sent at each point of `process_xt`, as long as the instance is pending. -/
def PcSent (rawId : Bytes) (keys : Finset MailboxMessageKey) (log : List ProcEvent) :
    ProcPc → Prop
  | .record _ result | .dispatch _ result =>
    ∃ before, simulations log = before ++ [result] ∧ SentSoFar rawId before [] log keys
  | .sending _ _ toSend => SentSoFar rawId (simulations log) toSend log keys
  | .vote false | .finished => True
  | _ => SentSoFar rawId (simulations log) [] log keys

section Append

variable {rawId : Bytes} {results : List SimulationResult} {toSend : List MailboxMessage}
  {log events : List ProcEvent} {keys : Finset MailboxMessageKey}

theorem simulations_append (log events : List ProcEvent) :
    simulations (log ++ events) = simulations log ++ simulations events :=
  List.filterMap_append

theorem sentMessages_append (log events : List ProcEvent) :
    sentMessages (log ++ events) = sentMessages log ++ sentMessages events :=
  List.filterMap_append

theorem wireWrites_append (results more : List SimulationResult) :
    wireWrites rawId (results ++ more) = wireWrites rawId results ++ wireWrites rawId more :=
  List.flatMap_append

theorem wireWrites_singleton (result : SimulationResult) :
    wireWrites rawId [result] = wireMessages rawId result.outboundMessages :=
  List.flatMap_singleton _ result

theorem SentSoFar.append (h : SentSoFar rawId results toSend log keys)
    (he : sentMessages events = []) : SentSoFar rawId results toSend (log ++ events) keys := by
  have hsent : sentMessages (log ++ events) = sentMessages log := by
    rw [sentMessages_append, he, List.append_nil]
  exact ⟨by rw [hsent]; exact h.sent_eq, h.keys_eq⟩

/-- Events that neither simulate nor send. -/
theorem SentSoFar.quiet (h : SentSoFar rawId (simulations log) toSend log keys)
    (hs : simulations events = []) (he : sentMessages events = []) :
    SentSoFar rawId (simulations (log ++ events)) toSend (log ++ events) keys := by
  rw [simulations_append, hs, List.append_nil]
  exact h.append he

/-- One message goes out. -/
theorem SentSoFar.send {msg : MailboxMessage}
    (h : SentSoFar rawId (simulations log) (msg :: toSend) log keys) :
    SentSoFar rawId (simulations (log ++ [.sent msg])) toSend (log ++ [.sent msg]) keys := by
  have hsims : simulations (log ++ [.sent msg]) = simulations log := by
    rw [simulations_append]
    exact List.append_nil _
  have hsent : sentMessages (log ++ [.sent msg]) = sentMessages log ++ [msg] :=
    sentMessages_append log [.sent msg]
  refine ⟨?_, ?_⟩
  · rw [hsims, hsent, List.append_assoc, List.singleton_append]
    exact h.sent_eq
  · rw [hsims]
    exact h.keys_eq

/-- The messages of one more simulation are claimed. -/
theorem SentSoFar.claim (h : SentSoFar rawId results [] log keys) (result : SimulationResult) :
    SentSoFar rawId (results ++ [result])
      (firsts MailboxMessageKey.ofMessage keys (wireMessages rawId result.outboundMessages)) log
      (keysSeen MailboxMessageKey.ofMessage keys
        (wireMessages rawId result.outboundMessages)) := by
  have hsent := h.sent_eq
  rw [List.append_nil] at hsent
  constructor
  · rw [wireWrites_append, wireWrites_singleton, firsts_append, hsent, h.keys_eq]
  · rw [wireWrites_append, wireWrites_singleton, keysSeen_append, h.keys_eq]

/-- A simulation that writes nothing. -/
theorem SentSoFar.skip (h : SentSoFar rawId results [] log keys) {result : SimulationResult}
    (hempty : result.outboundMessages = []) : SentSoFar rawId (results ++ [result]) [] log keys := by
  have hclaim := h.claim result
  rw [hempty] at hclaim
  exact hclaim

end Append

section Step

variable {cfg : Config} {id : InstanceId} {rawId : Bytes}

/-- Only a dispatch for the instance itself touches the keys of its sent messages. -/
theorem sentKeys_entryStep {op : Op} {x x' : PendingXt} (h : EntryStep cfg op id x x')
    (hop : ∀ outbound, op ≠ .dispatch id outbound) : x'.sentMailboxKeys = x.sentMailboxKeys := by
  have hcount : ∀ (chainId : ChainId) (xt : PendingXt) (now : Instant),
      (maybeMakeStandaloneDecision chainId xt now).1.sentMailboxKeys = xt.sentMailboxKeys := by
    intro chainId xt now
    rcases standaloneDecision_cases chainId xt now with h | ⟨-, -, n, m, h⟩ | ⟨-, -, n, m, h⟩ <;>
      rw [h] <;> rfl
  cases h with
  | same | decided | confirmed | delivered | locked => rfl
  | voted _ vote standalone now _ =>
    rw [castVote_eq]
    split_ifs
    · exact hcount cfg.chainId (withLocalVote cfg x vote now) now
    · rfl
  | peerVoted _ chainId vote now _ _ => exact hcount cfg.chainId _ now
  | outdated =>
    unfold abortUndecided
    split_ifs <;> rfl
  | rolledBack =>
    unfold forceAbort
    split_ifs <;> rfl
  | recorded _ result _ _ =>
    obtain ⟨depKeys, dependencies, outbound, hframe⟩ := recordResult_frame x result
    rw [hframe]
  | fulfilled _ deps _ =>
    obtain ⟨mailbox, fulfilled, keys, hframe⟩ := fulfillXt_frame x deps
    rw [hframe]
  | dispatched _ outbound _ => exact absurd rfl (hop outbound)

theorem pcSent_afterDispatch {keys : Finset MailboxMessageKey} {log : List ProcEvent}
    {frame : SimFrame} {result : SimulationResult}
    (h : SentSoFar rawId (simulations log) [] log keys) :
    PcSent rawId keys log (afterDispatch frame result) := by
  unfold afterDispatch
  split_ifs
  · exact h
  · exact h

theorem pcSent_afterRecord {keys : Finset MailboxMessageKey} {log : List ProcEvent}
    {before : List SimulationResult} {frame : SimFrame} {result : SimulationResult}
    (hsims : simulations log = before ++ [result]) (h : SentSoFar rawId before [] log keys) :
    PcSent rawId keys log (afterRecord frame result) := by
  unfold afterRecord
  split_ifs
  · trivial
  · trivial
  · exact ⟨before, hsims, h⟩

/-- What a dispatch does to the keys of the instance's sent messages. -/
theorem sentKeys_dispatch {st : CoordinatorState} {outbound : List CrossRollupMessage}
    {x x' : PendingXt} (hx : st.pending.lookup id = some x)
    (hx' : (dispatchOutbound st id outbound).1.pending.lookup id = some x') :
    x'.sentMailboxKeys = keysSeen MailboxMessageKey.ofMessage x.sentMailboxKeys
        (wireMessages x.instanceId outbound) ∧
      (dispatchOutbound st id outbound).2 = firsts MailboxMessageKey.ofMessage x.sentMailboxKeys
        (wireMessages x.instanceId outbound) := by
  simp only [dispatchOutbound, hx, claimOutbound_eq] at hx' ⊢
  rw [lookup_updateXt, if_pos rfl, hx, Option.map_some, Option.some.injEq] at hx'
  rw [← hx']
  exact ⟨rfl, trivial⟩

/-- The entry that a step of `process_xt` finds; only the dispatch changes its sent keys. -/
theorem procStep_sentKeys {reply : Reply} {st st' : CoordinatorState} {pc pc' : ProcPc}
    {events : List ProcEvent} {x x' : PendingXt}
    (h : procStep cfg id reply st pc = some (st', pc', events))
    (hpc : ∀ frame result, pc ≠ .dispatch frame result) (hx : st.pending.lookup id = some x)
    (hx' : st'.pending.lookup id = some x') : x'.sentMailboxKeys = x.sentMailboxKeys := by
  rcases procStep_op h with ⟨-, rfl⟩ | ⟨op, hop, rfl⟩
  · rw [Option.some.inj (hx.symm.trans hx')]
  · have hreg : ∀ route, op.registers cfg st ≠ some (id, route) := by
      intro route
      simp [procOp_registers hop]
    obtain ⟨y, hy, hstep⟩ := entryStep hreg hx'
    obtain rfl := Option.some.inj (hx.symm.trans hy)
    refine sentKeys_entryStep hstep (fun outbound he => ?_)
    subst he
    unfold procOp at hop
    split at hop
    · simp at hop
    · simp at hop
    · exact hpc _ _ rfl
    · simp at hop
    · simp at hop
    · simp at hop

/-- The points at which everything that was claimed has been sent. -/
def ProcPc.allSent : ProcPc → Bool
  | .record _ _ | .dispatch _ _ | .sending _ _ _ | .vote false | .finished => false
  | _ => true

theorem PcSent.all {keys : Finset MailboxMessageKey} {log : List ProcEvent} {pc : ProcPc}
    (h : PcSent rawId keys log pc) (hpc : pc.allSent = true) :
    SentSoFar rawId (simulations log) [] log keys := by
  cases pc with
  | vote v =>
    cases v with
    | false => simp [ProcPc.allSent] at hpc
    | true => exact h
  | record | dispatch | sending | finished => simp [ProcPc.allSent] at hpc
  | start | verify | asked | permissions | permit | lock | setup | simulate | waiting | refresh =>
    exact h

theorem pcSent_step (hsender : cfg.mailboxSender = true) {reply : Reply}
    {st st' : CoordinatorState} {pc pc' : ProcPc} {log events : List ProcEvent}
    {x x' : PendingXt} (h : procStep cfg id reply st pc = some (st', pc', events))
    (hx : st.pending.lookup id = some x) (hraw : x.instanceId = rawId)
    (hx' : st'.pending.lookup id = some x')
    (hinv : PcSent rawId x.sentMailboxKeys log pc) :
    PcSent rawId x'.sentMailboxKeys (log ++ events) pc' := by
  have hkeys : (∀ frame result, pc ≠ .dispatch frame result) →
      x'.sentMailboxKeys = x.sentMailboxKeys := fun hpc => procStep_sentKeys h hpc hx hx'
  have hquiet : pc.allSent = true → ∀ es, simulations es = [] → sentMessages es = [] →
      SentSoFar rawId (simulations (log ++ es)) [] (log ++ es) x'.sentMailboxKeys := by
    intro hpc es hs he
    rw [hkeys (fun frame result hd => by simp [hd, ProcPc.allSent] at hpc)]
    exact (hinv.all hpc).quiet hs he
  cases procStep_effect h with
  | simulated frame htx =>
    have hsent := hinv.all rfl
    rw [← hkeys (by simp)] at hsent
    exact ⟨simulations log, simulations_append log _, hsent.append rfl⟩
  | recorded frame result =>
    obtain ⟨before, hsims, hsent⟩ := hinv
    rw [← hkeys (by simp), ← List.append_nil log] at hsent
    rw [← List.append_nil log] at hsims
    exact pcSent_afterRecord hsims hsent
  | nothingToSend frame result hnone hst =>
    obtain ⟨before, hsims, hsent⟩ := hinv
    simp only [hsender, Bool.not_true, Bool.or_false] at hnone
    rw [hst] at hx'
    obtain rfl := Option.some.inj (hx.symm.trans hx')
    refine pcSent_afterDispatch ?_
    rw [List.append_nil, hsims]
    exact hsent.skip (List.isEmpty_iff.mp hnone)
  | claimed frame result hsome hst =>
    obtain ⟨before, hsims, hsent⟩ := hinv
    rw [hst] at hx'
    obtain ⟨hkeys', htoSend⟩ := sentKeys_dispatch hx hx'
    show SentSoFar rawId _ _ _ _
    rw [List.append_nil, hsims, hkeys', htoSend, hraw]
    exact hsent.claim result
  | allSent frame result =>
    have hsent : SentSoFar rawId (simulations log) [] log x.sentMailboxKeys := hinv
    rw [← hkeys (by simp)] at hsent
    exact pcSent_afterDispatch (hsent.quiet rfl rfl)
  | sent frame result msg rest =>
    have hsent : SentSoFar rawId (simulations log) (msg :: rest) log x.sentMailboxKeys := hinv
    rw [← hkeys (by simp)] at hsent
    exact hsent.send
  | missing | noLocalTxs | disapproved | denied | setupGone | simulationFailed | undelivered
    | timedOut | refreshGone | voted => trivial
  | ready | asks | unverified | approved | unpermissioned | permissioned | permitted | allowed
    | locked | unsimulated | setup | allSimulated | waits | served | refreshed =>
    exact hquiet rfl _ rfl rfl

end Step

section Run

variable {cfg : Config} {id : InstanceId} {rawId : Bytes}

/-- An interleaving in which `process_xt` is the only one that sends for the instance. -/
def SoleSender (cfg : Config) (id : InstanceId) (s : ProcSystem) (move : ProcMove)
    (t : ProcSystem) : Prop :=
  ProcStep cfg id s move t ∧ ∀ outbound, move ≠ .env (.dispatch id outbound)

/-- The messages that were sent are the first writes of their keys. -/
def SentFirsts (rawId : Bytes) (log : List ProcEvent) : Prop :=
  sentMessages log = firsts MailboxMessageKey.ofMessage ∅ (wireWrites rawId (simulations log))

/-- What holds of the sent messages along every run. -/
def SendInv (id : InstanceId) (rawId : Bytes) (s : ProcSystem) : Prop :=
  GroundedRun id (fun x log pc => x.instanceId = rawId ∧ PcSent rawId x.sentMailboxKeys log pc)
    (SentFirsts rawId) s

/-- A registration leaves an instance of which nothing was sent. -/
theorem registers_unsent {st : CoordinatorState} {op : Op} {route : Route} {xt : PendingXt}
    (hreg : op.registers cfg st = some (id, route))
    (hxt : (op.apply cfg st).pending.lookup id = some xt) : xt.sentMailboxKeys = ∅ := by
  obtain ⟨-, has⟩ := registeredAs_of_lookup hreg hxt
  cases has with
  | submitted txs => rfl
  | forwarded i txs originChain originSeq hnew => rfl
  | started inst hnew => rfl

theorem sendInv_initial {st : CoordinatorState} {xt : PendingXt}
    (hxt : st.pending.lookup id = some xt) (hnew : xt.sentMailboxKeys = ∅) :
    SendInv id xt.instanceId ⟨st, .start, []⟩ := by
  refine ⟨fun x hx => ?_, by simp [casts], fun _ => rfl⟩
  obtain rfl := Option.some.inj (hxt.symm.trans hx)
  exact ⟨rfl, rfl, hnew⟩

theorem pcSent_notified {keys : Finset MailboxMessageKey} {log : List ProcEvent} {pc : ProcPc}
    (h : PcSent rawId keys log pc) : PcSent rawId keys log pc.notified := by
  cases pc <;> exact h

theorem sendInv_step (hsender : cfg.mailboxSender = true) {s t : ProcSystem} {move : ProcMove}
    (h : SoleSender cfg id s move t) (hs : SendInv id rawId s) : SendInv id rawId t := by
  obtain ⟨hstep, hsole⟩ := h
  refine groundedRun_step hstep hs ?_ ?_ ?_ ?_
  · rintro reply st' pc' events x x' hproc hx hx' hsame ⟨hraw, hsent⟩
    exact ⟨hsame.instanceId_eq.trans hraw, pcSent_step hsender hproc hx hraw hx' hsent⟩
  · rintro op x x' hmove hreg hx hx' hsame ⟨hraw, hsent⟩
    obtain ⟨y, hy, hentry⟩ := entryStep hreg hx'
    obtain rfl := Option.some.inj (hx.symm.trans hy)
    have hkeys := sentKeys_entryStep hentry (fun outbound he => hsole outbound (by rw [hmove, he]))
    refine ⟨hsame.instanceId_eq.trans hraw, ?_⟩
    rw [hkeys]
    exact hsent
  · rintro x ⟨hraw, hsent⟩
    exact ⟨hraw, pcSent_notified hsent⟩
  · rintro x ⟨-, hsent⟩
    have hall : SentSoFar rawId (simulations (s.log ++ [.cast true])) [] (s.log ++ [.cast true])
        x.sentMailboxKeys := (hsent.all rfl).quiet rfl rfl
    have heq := hall.sent_eq
    rwa [List.append_nil] at heq

/-- A sent message is the first write of its key. -/
theorem firstPayload_of_sent {rawId : Bytes} {log : List ProcEvent}
    (h : SentFirsts rawId log)
    {msg : MailboxMessage} (hmsg : msg ∈ sentMessages log) :
    firstPayload (MailboxMessageKey.ofMessage msg) (wireWrites rawId (simulations log)) =
      some msg.payload := by
  rw [h, mem_firsts_iff] at hmsg
  unfold firstPayload
  rw [hmsg.2]
  rfl

/-- Of every key that was written, a message was sent. -/
theorem sent_of_write {rawId : Bytes} {log : List ProcEvent}
    (h : SentFirsts rawId log)
    {write : MailboxMessage} (hwrite : write ∈ wireWrites rawId (simulations log)) :
    ∃ msg ∈ sentMessages log,
      MailboxMessageKey.ofMessage msg = MailboxMessageKey.ofMessage write := by
  have hsome : ((wireWrites rawId (simulations log)).find? (fun b =>
      decide (MailboxMessageKey.ofMessage b = MailboxMessageKey.ofMessage write))).isSome := by
    rw [List.find?_isSome]
    exact ⟨write, hwrite, by simp⟩
  obtain ⟨msg, hfind⟩ := Option.isSome_iff_exists.mp hsome
  have hkey : MailboxMessageKey.ofMessage msg = MailboxMessageKey.ofMessage write := by
    simpa using List.find?_some hfind
  refine ⟨msg, ?_, hkey⟩
  rw [h, mem_firsts_iff, hkey]
  exact ⟨by simp, hfind⟩

theorem mem_wireWrites_of_success {rawId : Bytes} {log : List ProcEvent} {write : MailboxMessage}
    (h : write ∈ wireWrites rawId (successes log)) :
    write ∈ wireWrites rawId (simulations log) := by
  obtain ⟨result, hresult, hwrite⟩ := List.mem_flatMap.mp h
  exact List.mem_flatMap.mpr ⟨result, (List.mem_filter.mp hresult).1, hwrite⟩

/-- After a commit vote the peers have what was finally simulated exactly when of every key
the first write that was simulated has the payload of the last one that counts. -/
theorem sent_final_iff (cfg : Config) (hsender : cfg.mailboxSender = true) (id : InstanceId)
    {st : CoordinatorState} {op : Op} {route : Route} {xt : PendingXt}
    (hreg : op.registers cfg st = some (id, route))
    (hxt : (op.apply cfg st).pending.lookup id = some xt) {moves : List ProcMove} {t : ProcSystem}
    (hrun : Run (SoleSender cfg id) ⟨op.apply cfg st, .start, []⟩ moves t)
    (hcommit : true ∈ casts t.log) :
    SentFinal xt.instanceId t.log ↔ FirstIsFinal xt.instanceId t.log := by
  have hinv : SendInv id xt.instanceId t :=
    hrun.invariant (I := SendInv id xt.instanceId)
      (fun _ _ _ hs hstep => sendInv_step hsender hstep hs)
      (sendInv_initial hxt (registers_unsent hreg hxt))
  have hsent := hinv.grounds hcommit
  constructor
  · intro hfinal write hwrite
    obtain ⟨⟨msg, hmsg, hkey, hpayload⟩, -⟩ := hfinal write hwrite
    rw [← hpayload, ← hkey]
    exact firstPayload_of_sent hsent hmsg
  · intro hfirst write hwrite
    have hall : ∀ msg ∈ sentMessages t.log,
        MailboxMessageKey.ofMessage msg = MailboxMessageKey.ofMessage write →
        some msg.payload = lastPayload (MailboxMessageKey.ofMessage write)
          (wireWrites xt.instanceId (successes t.log)) := by
      intro msg hmsg hkey
      rw [← hfirst write hwrite, ← hkey]
      exact (firstPayload_of_sent hsent hmsg).symm
    obtain ⟨msg, hmsg, hkey⟩ := sent_of_write hsent (mem_wireWrites_of_success hwrite)
    exact ⟨⟨msg, hmsg, hkey, hall msg hmsg hkey⟩, hall⟩

/-- `process_xt` alone is the only sender. -/
theorem soleSender_procExec {replies : List Reply} {s t : ProcSystem}
    (h : procExec cfg id replies s = some t) :
    Run (SoleSender cfg id) s (replies.map ProcMove.proc) t := by
  refine (run_procExec h).mono_of_labels (P := fun move => ∃ reply, move = .proc reply) ?_ ?_
  · intro s move t hmove hstep
    obtain ⟨reply, rfl⟩ := hmove
    exact ⟨hstep, by simp⟩
  · intro move hmem
    obtain ⟨reply, -, rfl⟩ := List.mem_map.mp hmem
    exact ⟨reply, rfl⟩

/-- A sidecar of chain 2 that simulates and sends. -/
def sendingConfig : Config := { Config.bare 2 with simulator := true, mailboxSender := true }

/-- The message that the instance waits for is there before it. -/
def earlyMessageState : CoordinatorState :=
  (Op.mailbox (sampleMessage (InstanceId.asBytes "xt-1-1") [7])).apply sendingConfig {}

def registersSample : Op := .forwardXt "xt-1-1" sampleTxs 1 1

/-- A write of chain 2 for chain 1. -/
def sampleWrite (payload : Bytes) : CrossRollupMessage :=
  { sourceChainId := 2
    destChainId := 1
    sender := FixedBytes.repeatByte 20 2
    receiver := FixedBytes.repeatByte 20 1
    label := "reply"
    data := payload
    sessionId := 7 }

/-- A simulation that reads the message and writes one of its own. -/
def writingReply (success : Bool) (payload : Bytes) : Reply :=
  { simulation := .ok
      { success := success
        error := none
        stateOverrides := none
        dependencies := [sampleDependency]
        outboundMessages := [sampleWrite payload] } }

/-- The first simulation waits for the message, the second one has it. -/
def writingReplies (first second : Bytes) : List Reply :=
  List.replicate 13 (writingReply false first) ++ List.replicate 6 (writingReply true second)

theorem sent_final_iff_same_payload :
    ∃ (t : ProcSystem) (xt : PendingXt),
      (registersSample.apply sendingConfig earlyMessageState).pending.lookup "xt-1-1" = some xt ∧
      true ∈ casts t.log ∧ sentMessages t.log ≠ [] ∧ SentFinal xt.instanceId t.log := by
  have hexec : (procExec sendingConfig "xt-1-1" (writingReplies [1] [1])
      ⟨registersSample.apply sendingConfig earlyMessageState, .start, []⟩).map
        (fun t => (casts t.log, (sentMessages t.log).length,
          decide (FirstIsFinal (InstanceId.asBytes "xt-1-1") t.log))) =
      some ([true], 1, true) := by decide +kernel
  obtain ⟨t, ht, hfacts⟩ := Option.map_eq_some_iff.mp hexec
  obtain ⟨hcast, hrest⟩ := Prod.mk.inj hfacts
  obtain ⟨hlen, hfirst⟩ := Prod.mk.inj hrest
  have hcommit : true ∈ casts t.log := by simp [hcast]
  have hsent : sentMessages t.log ≠ [] := by
    intro hnil
    simp [hnil] at hlen
  have hreg : registersSample.registers sendingConfig earlyMessageState =
      some ("xt-1-1", .forwarded) := by decide
  have hiff := sent_final_iff sendingConfig rfl "xt-1-1" hreg rfl (soleSender_procExec ht) hcommit
  exact ⟨t, _, rfl, hcommit, hsent, hiff.mpr (of_decide_eq_true hfirst)⟩

/-- The failed attempt writes payload 1, which is sent; the attempt that counts writes payload 2
under the same key, which is not. -/
theorem stale_payload_sent :
    ∃ (moves : List ProcMove) (t : ProcSystem) (xt : PendingXt),
      registersSample.registers sendingConfig earlyMessageState = some ("xt-1-1", .forwarded) ∧
      (registersSample.apply sendingConfig earlyMessageState).pending.lookup "xt-1-1" = some xt ∧
      Run (SoleSender sendingConfig "xt-1-1")
        ⟨registersSample.apply sendingConfig earlyMessageState, .start, []⟩ moves t ∧
      true ∈ casts t.log ∧
      (sentMessages t.log).map MailboxMessage.payload = [[1]] ∧
      (wireWrites xt.instanceId (successes t.log)).map MailboxMessage.payload = [[2]] ∧
      ¬SentFinal xt.instanceId t.log := by
  have hexec : (procExec sendingConfig "xt-1-1" (writingReplies [1] [2])
      ⟨registersSample.apply sendingConfig earlyMessageState, .start, []⟩).map
        (fun t => (casts t.log, (sentMessages t.log).map MailboxMessage.payload,
          (wireWrites (InstanceId.asBytes "xt-1-1") (successes t.log)).map MailboxMessage.payload,
          decide (SentFinal (InstanceId.asBytes "xt-1-1") t.log))) =
      some ([true], [[1]], [[2]], false) := by decide +kernel
  obtain ⟨t, ht, hfacts⟩ := Option.map_eq_some_iff.mp hexec
  obtain ⟨hcast, hrest⟩ := Prod.mk.inj hfacts
  obtain ⟨hsent, hrest⟩ := Prod.mk.inj hrest
  obtain ⟨hwrites, hfinal⟩ := Prod.mk.inj hrest
  exact ⟨_, t, _, by decide, rfl, soleSender_procExec ht, by simp [hcast], hsent, hwrites,
    of_decide_eq_false hfinal⟩

end Run

end Sidecar.Coordinator
