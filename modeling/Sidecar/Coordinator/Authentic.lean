import Sidecar.Coordinator.Agreement
import Sidecar.Coordinator.MailboxConservation
import Sidecar.Coordinator.MailboxKeys
import Sidecar.Coordinator.StandaloneVote
import Sidecar.Simulation.Node

namespace Sidecar.Coordinator

open Mailbox Simulation TaskSystem

section Points

/-- The points of `process_xt` that tasks stand at. -/
def Task.pcs : Task → List (InstanceId × ProcPc)
  | .process id pc => [(id, pc)]
  | _ => []

variable {cfg : Config} {reply : TaskReply} {sh sh' : Shared} {t : Task} {next : List Task}
  {es : List Event}

/-- A point after a step is the beginning or where a step of `process_xt` has led. -/
theorem pcs_step (h : taskStep cfg reply sh t = some (sh', next, es)) {id : InstanceId}
    {pc' : ProcPc} (hin : (id, pc') ∈ next.flatMap Task.pcs) :
    pc' = .start ∨ ∃ pc st' events, t = .process id pc ∧ sh' = { sh with st := st' } ∧
      procStep cfg id reply.proc sh.st pc = some (st', pc', events) ∧
      es = events.map (Event.processed id) := by
  obtain ⟨u, hu, hpc⟩ := List.mem_flatMap.mp hin
  rcases handsOn_or_drops (taskStep_effect h) with hand | hdrop
  · cases hand with
    | processed i pc pc'' =>
      obtain rfl := List.mem_singleton.mp hu
      obtain ⟨rfl, rfl⟩ := Prod.mk.inj (List.mem_singleton.mp hpc)
      rcases processStep_cases h with ⟨v, -, -, hnext, -⟩ | ⟨-, -, hnext, -⟩ |
        ⟨st', p, events, hstep, -, hsh, hnext, hes⟩
      · simp at hnext
      · simp at hnext
      · obtain rfl : pc' = p := by simpa using hnext
        exact Or.inr ⟨pc, st', events, rfl, hsh, hstep, hes⟩
    | resolved fingerprint result i =>
      obtain rfl := List.mem_singleton.mp hu
      exact Or.inl (Prod.mk.inj (List.mem_singleton.mp hpc)).2
    | proceeded registrar =>
      rcases mem_registrarNext hu with rfl | ⟨j, txs, -, rfl⟩ | ⟨fingerprint, after, rfl⟩
      · exact Or.inl (Prod.mk.inj (List.mem_singleton.mp hpc)).2
      · exact absurd hpc List.not_mem_nil
      · exact absurd hpc List.not_mem_nil
    | registered =>
      rw [flatMap_submitFirst (fun _ => rfl) rfl] at hin
      exact absurd hin List.not_mem_nil
    | _ => exact absurd hin List.not_mem_nil
  · have hoff := hdrop u hu
    cases u with
    | process => simp [Task.carries] at hoff
    | _ => exact absurd hpc List.not_mem_nil

/-- What `process_xt` shows, it shows at one of its own steps. -/
theorem processed_step (h : taskStep cfg reply sh t = some (sh', next, es)) {id : InstanceId}
    {event : ProcEvent} (hin : .processed id event ∈ es) :
    ∃ pc pc' st' events, t = .process id pc ∧ next = [.process id pc'] ∧
      sh' = { sh with st := st' } ∧
      procStep cfg id reply.proc sh.st pc = some (st', pc', events) ∧ event ∈ events ∧
      es = events.map (Event.processed id) := by
  have heffect := taskStep_effect h
  cases heffect with
  | processed i pc pc'' events hproc =>
    rcases processStep_cases h with ⟨v, -, -, -, hes⟩ | ⟨-, -, hnext, -⟩ |
      ⟨st', p, events', hstep, -, hsh, hnext, hes⟩
    · rw [hes] at hin
      exact absurd hin List.not_mem_nil
    · simp at hnext
    · rw [hes] at hin
      obtain ⟨e, he, heq⟩ := List.mem_map.mp hin
      obtain ⟨rfl, rfl⟩ := Event.processed.inj heq
      exact ⟨pc, p, st', events', rfl, hnext, hsh, hstep, he, hes⟩
  | resolved | noncesReset => simp [answers] at hin
  | _ => simp at hin

end Points

section Sender

/-- A simulation for the instance gave this result. -/
def SimulatedIn (log : List Event) (id : InstanceId) (result : SimulationResult) : Prop :=
  ∃ index tx overrides fulfilled,
    .processed id (.simulated index tx overrides fulfilled (.ok result)) ∈ log

/-- The message is the wire form of what a simulation for the instance wrote, under a raw id of the
instance. -/
def WrittenBy (log : List Event) (id : InstanceId) (msg : MailboxMessage) : Prop :=
  ∃ rawId result m, .registered id rawId ∈ log ∧ SimulatedIn log id result ∧
    m ∈ result.outboundMessages ∧ msg = wireMessage rawId m

/-- What `process_xt` is about to record and to send was written by a simulation. -/
def PcWritten (log : List Event) (id : InstanceId) : ProcPc → Prop
  | .record _ result | .dispatch _ result => SimulatedIn log id result
  | .sending _ result toSend => SimulatedIn log id result ∧ ∀ msg ∈ toSend, WrittenBy log id msg
  | _ => True

variable {log log' : List Event} {id : InstanceId}

theorem SimulatedIn.mono {result : SimulationResult} (hsub : log ⊆ log')
    (h : SimulatedIn log id result) : SimulatedIn log' id result := by
  obtain ⟨index, tx, overrides, fulfilled, he⟩ := h
  exact ⟨index, tx, overrides, fulfilled, hsub he⟩

theorem WrittenBy.mono {msg : MailboxMessage} (hsub : log ⊆ log') (h : WrittenBy log id msg) :
    WrittenBy log' id msg := by
  obtain ⟨rawId, result, m, hreg, hsim, hm, rfl⟩ := h
  exact ⟨rawId, result, m, hsub hreg, hsim.mono hsub, hm, rfl⟩

theorem PcWritten.mono {pc : ProcPc} (hsub : log ⊆ log') (h : PcWritten log id pc) :
    PcWritten log' id pc := by
  cases pc with
  | record | dispatch => exact SimulatedIn.mono hsub h
  | sending => exact ⟨h.1.mono hsub, fun msg hmsg => (h.2 msg hmsg).mono hsub⟩
  | _ => trivial

theorem pcWritten_afterRecord {frame : SimFrame} {result : SimulationResult}
    (h : SimulatedIn log id result) : PcWritten log id (afterRecord frame result) := by
  unfold afterRecord
  split_ifs
  · trivial
  · trivial
  · exact h

theorem pcWritten_afterDispatch (frame : SimFrame) (result : SimulationResult) :
    PcWritten log id (afterDispatch frame result) := by
  unfold afterDispatch
  split_ifs <;> trivial

/-- Claimed messages carry the raw id of the pending instance. -/
theorem claimed_written {st : CoordinatorState} {result : SimulationResult}
    (hknown : ∀ xt, st.pending.lookup id = some xt → .registered id xt.instanceId ∈ log)
    (hsim : SimulatedIn log id result) {msg : MailboxMessage}
    (hmsg : msg ∈ (dispatchOutbound st id result.outboundMessages).2) : WrittenBy log id msg := by
  unfold dispatchOutbound at hmsg
  cases hl : st.pending.lookup id with
  | none =>
    rw [hl] at hmsg
    exact absurd hmsg List.not_mem_nil
  | some xt =>
    simp only [hl, claimOutbound_eq] at hmsg
    have hwire : msg ∈ wireMessages xt.instanceId result.outboundMessages :=
      List.mem_of_find?_eq_some ((mem_firsts_iff _ _ _ _).mp hmsg).2
    obtain ⟨m, hm, rfl⟩ := List.mem_map.mp hwire
    exact ⟨xt.instanceId, result, m, hknown xt hl, hsim, hm, rfl⟩

/-- A step of `process_xt` sends and leaves to be sent only what simulations wrote. -/
theorem pcWritten_step {cfg : Config} {reply : Reply} {st st' : CoordinatorState} {pc pc' : ProcPc}
    {events : List ProcEvent} (h : procStep cfg id reply st pc = some (st', pc', events))
    (hknown : ∀ xt, st.pending.lookup id = some xt → .registered id xt.instanceId ∈ log)
    (hpc : PcWritten log id pc) :
    PcWritten (log ++ events.map (Event.processed id)) id pc' ∧
      ∀ msg, .sent msg ∈ events → WrittenBy log id msg := by
  have heffect := procStep_effect h
  cases heffect with
  | simulated frame htx =>
    refine ⟨⟨_, _, _, _, List.mem_append_right _ (List.mem_singleton_self _)⟩, ?_⟩
    intro msg hmsg
    simp at hmsg
  | recorded frame result =>
    refine ⟨?_, fun msg hmsg => absurd hmsg List.not_mem_nil⟩
    exact pcWritten_afterRecord (SimulatedIn.mono (List.subset_append_left _ _) hpc)
  | nothingToSend frame result =>
    exact ⟨pcWritten_afterDispatch frame result, fun msg hmsg => absurd hmsg List.not_mem_nil⟩
  | claimed frame result =>
    refine ⟨⟨SimulatedIn.mono (List.subset_append_left _ _) hpc, fun msg hmsg => ?_⟩,
      fun msg hmsg => absurd hmsg List.not_mem_nil⟩
    exact (claimed_written hknown hpc hmsg).mono (List.subset_append_left _ _)
  | allSent frame result =>
    exact ⟨pcWritten_afterDispatch frame result, fun msg hmsg => absurd hmsg List.not_mem_nil⟩
  | sent frame result msg rest =>
    refine ⟨⟨hpc.1.mono (List.subset_append_left _ _), fun m hm => ?_⟩, fun m hm => ?_⟩
    · exact (hpc.2 m (List.mem_cons_of_mem _ hm)).mono (List.subset_append_left _ _)
    · obtain rfl := ProcEvent.sent.inj (List.mem_singleton.mp hm)
      exact hpc.2 m List.mem_cons_self
  | voted vote =>
    refine ⟨trivial, fun msg hmsg => ?_⟩
    split_ifs at hmsg <;> simp at hmsg
  | _ => exact ⟨trivial, fun msg hmsg => by simp at hmsg⟩

end Sender

section Receiver

/-- The message was sent to chain `n` by the sidecar of some chain. -/
def FromPeer (n : ChainId) (logs : ChainId → List Event) (msg : MailboxMessage) : Prop :=
  msg.destinationChain = n ∧ ∃ o id, .processed id (.sent msg) ∈ logs o

/-- The payload of the dependency is that of such a message, for an instance of this name here. -/
def InboxBacked (n : ChainId) (logs : ChainId → List Event) (log : List Event) (id : InstanceId)
    (dep : CrossRollupDependency) : Prop :=
  ∃ rawId msg, .registered id rawId ∈ log ∧ FromPeer n logs msg ∧ msg.instanceId = rawId ∧
    ServedBy dep msg

/-- The dependencies that a task gives to the simulator, or to the builder as `putInbox`
transactions, with their instance. -/
def Task.inbox : Task → List (InstanceId × CrossRollupDependency)
  | .process id pc => pc.fulfilled.map (fun dep => (id, dep))
  | .command (.release id deps) _ => deps.map (fun dep => (id, dep))
  | .buildPutInbox id deps _ _ _ => deps.map (fun dep => (id, dep))
  | _ => []

theorem lasting_inbox : Lasting Task.inbox where
  notified := fun t => by
    cases t with
    | process id pc => cases pc <;> rfl
    | _ => rfl
  request := fun _ => rfl
  notifyWaiters := rfl

variable {cfg : Config} {reply : TaskReply} {sh sh' : Shared} {t : Task} {next : List Task}
  {es : List Event}

theorem mem_inbox {deps : List CrossRollupDependency} {i id : InstanceId}
    {dep : CrossRollupDependency} (h : (id, dep) ∈ deps.map (fun dep => (i, dep))) :
    id = i ∧ dep ∈ deps := by
  obtain ⟨d, hd, heq⟩ := List.mem_map.mp h
  obtain ⟨rfl, rfl⟩ := Prod.mk.inj heq
  exact ⟨rfl, hd⟩

/-- What a task gives away it had before, or it has read it from the instance: at the setup of a
transaction, after a wait, or at the decision. -/
theorem inbox_step (hk : KeyedById sh.st) (h : taskStep cfg reply sh t = some (sh', next, es))
    {id : InstanceId} {dep : CrossRollupDependency} (hin : (id, dep) ∈ next.flatMap Task.inbox) :
    (id, dep) ∈ t.inbox ∨ ∃ st xt, (st = sh.st ∨ st = sh'.st) ∧
      st.pending.lookup id = some xt ∧ dep ∈ xt.fulfilledDeps := by
  rcases goesOn_or_not h with hgo | hoff
  · cases hgo with
    | ordered resume hop hc =>
      obtain ⟨rfl, hdep⟩ := mem_inbox (by simpa [Task.inbox] using hin)
      obtain ⟨xt, hl, rfl⟩ := released_deps hk hc
      rw [← taskStep_apply h hop] at hl
      exact Or.inr ⟨sh'.st, xt, Or.inr rfl, hl, List.mem_of_mem_filter hdep⟩
    | reserved => exact Or.inl (by simpa [Task.inbox] using hin)
    | signed =>
      exact Or.inl (List.mem_cons_of_mem _ (by simpa [Task.inbox] using hin))
    | empty | complete => exact absurd hin List.not_mem_nil
  · obtain ⟨u, hu, hmem⟩ := List.mem_flatMap.mp hin
    have hon := hoff u hu
    cases u with
    | process i pc' =>
      obtain ⟨rfl, hdep⟩ := mem_inbox hmem
      rcases pcs_step h (List.mem_flatMap.mpr ⟨_, hu, List.mem_singleton_self _⟩) with
        rfl | ⟨pc, st', events, rfl, -, hstep, -⟩
      · exact absurd hdep List.not_mem_nil
      · rcases fulfilled_step hstep with hsame | hnone | ⟨xt, hl, hread⟩
        · rw [hsame] at hdep
          exact Or.inl (List.mem_map_of_mem hdep)
        · rw [hnone] at hdep
          exact absurd hdep List.not_mem_nil
        · rw [hread] at hdep
          exact Or.inr ⟨sh.st, xt, Or.inl rfl, hl, hdep⟩
    | command command => cases command <;> simp_all [Task.onRelease, Task.inbox]
    | buildPutInbox => simp [Task.onRelease] at hon
    | _ => exact absurd hmem List.not_mem_nil

/-- Messages are delivered by the handler of the mailbox alone. -/
theorem request_of_delivers {op : Op} (h : taskOp cfg reply t = some op) {msg : MailboxMessage}
    (hmsg : msg ∈ op.delivers) : t = .request (.mailboxMessage msg) := by
  have hruns := runsOp_of_taskOp h
  cases hruns with
  | mailed m =>
    obtain rfl := List.mem_singleton.mp hmsg
    rfl
  | _ => exact absurd hmsg List.not_mem_nil

/-- The books of the mailboxes are right, and the messages in them, like those about to be
delivered, have a certain origin. -/
structure MailFrom (origin : MailboxMessage → Prop) (w : World) : Prop where
  arriving : ∀ msg, .request (.mailboxMessage msg) ∈ w.tasks → origin msg
  ledger : ∃ history, LedgerInv (w.shared.st, history) ∧ ∀ msg ∈ history.delivered, origin msg

theorem MailFrom.mono {origin origin' : MailboxMessage → Prop} {w : World}
    (h : MailFrom origin w) (hsub : ∀ msg, origin msg → origin' msg) : MailFrom origin' w := by
  obtain ⟨history, hledger, hfrom⟩ := h.ledger
  exact ⟨fun msg hmsg => hsub msg (h.arriving msg hmsg), history, hledger,
    fun msg hmsg => hsub msg (hfrom msg hmsg)⟩

theorem mailFrom_initial (origin : MailboxMessage → Prop) : MailFrom origin World.initial :=
  ⟨fun _ hmsg => absurd hmsg List.not_mem_nil, {}, ledgerInv_initial,
    fun _ hmsg => absurd hmsg List.not_mem_nil⟩

/-- A task delivers what it was called with, and makes no call. -/
theorem mailFrom_run {origin : MailboxMessage → Prop} {w : World} {before after : List Task}
    (htasks : w.tasks = before ++ t :: after)
    (h : taskStep cfg reply w.shared t = some (sh', next, es)) (hi : MailFrom origin w) :
    MailFrom origin ⟨sh', before ++ next ++ after, w.log ++ es⟩ where
  arriving := by
    intro msg hmsg
    rcases mem_tasks_of_split htasks hmsg with hnew | hold
    · exact absurd hnew (request_not_next (taskStep_effect h) _)
    · exact hi.arriving msg hold
  ledger := by
    obtain ⟨history, hledger, hfrom⟩ := hi.ledger
    rcases taskStep_op h with ⟨-, hst⟩ | ⟨op, hop, hst⟩
    · rw [hst]
      exact ⟨history, hledger, hfrom⟩
    · rw [hst]
      refine ⟨history.write cfg w.shared.st op, ledgerInv_step hledger op, fun msg hmsg => ?_⟩
      rcases List.mem_append.mp hmsg with hold | hnew
      · exact hfrom msg hold
      · refine hi.arriving msg ?_
        rw [← request_of_delivers hop hnew]
        exact mem_of_split htasks

theorem mailFrom_step {origin : MailboxMessage → Prop} {w w' : World} {m : Move}
    (h : WorldStep cfg w m w') (harrive : ∀ msg, m = .arrive (.mailboxMessage msg) → origin msg)
    (hi : MailFrom origin w) : MailFrom origin w' := by
  rcases worldStep_tasks h with ⟨hquiet, htasks⟩ |
    ⟨t, reply, before, after, next, sh', es, rfl, htasks, hstep, rfl⟩
  · refine ⟨fun msg hmsg => ?_, by rw [hquiet.st_eq]; exact hi.ledger⟩
    rcases htasks _ hmsg with ⟨t, ht, rfl | hwoken⟩ | ⟨request, rfl, hrequest⟩
    · exact hi.arriving msg ht
    · cases t with
      | request r =>
        obtain rfl := Task.request.inj hwoken
        exact hi.arriving msg ht
      | _ => simp [Task.notified] at hwoken
    · exact harrive msg (by rw [Task.request.inj hrequest])
  · exact mailFrom_run htasks hstep hi

end Receiver

section Network

inductive MailMove where
  | node (n : ChainId) (move : Move)
  | mail (o : ChainId) (msg : MailboxMessage)

/-- The sidecars run beside each other, each with whatever calls it gets. Only their mailboxes are
closed to others: what one of them has sent arrives at its destination at any later time, in any
order, never or more than once. -/
inductive MailStep (cfg : ChainId → Config) : Net → MailMove → Net → Prop
  | node {net : Net} {n : ChainId} {move : Move} {w' : World}
      (h : WorldStep (cfg n) (net n) move w')
      (hno : ∀ msg, move ≠ .arrive (.mailboxMessage msg)) :
      MailStep cfg net (.node n move) (Function.update net n w')
  | mail {net : Net} {o : ChainId} {id : InstanceId} {msg : MailboxMessage}
      (hsent : .processed id (.sent msg) ∈ (net o).log) :
      MailStep cfg net (.mail o msg)
        (Function.update net msg.destinationChain { net msg.destinationChain with
          tasks := (net msg.destinationChain).tasks ++ [.request (.mailboxMessage msg)] })

/-- Simulations of each sidecar are answered by its own simulator. -/
def MailMove.simulatesWith (sims : ChainId → RpcSimulator) (cfg : ChainId → Config) :
    MailMove → Prop
  | .node n (.run (.process _ (.simulate _)) reply) =>
    ∀ result, reply.proc.simulation = .ok result → FromTraces (sims n) (cfg n).chainId result
  | _ => True

/-- What a sidecar sends it has taken from its own simulations. -/
structure SenderInv (sim : RpcSimulator) (chainId : ChainId) (w : World) : Prop where
  known : ∀ id xt, w.shared.st.pending.lookup id = some xt → .registered id xt.instanceId ∈ w.log
  points : ∀ id pc, .process id pc ∈ w.tasks → PcWritten w.log id pc
  sent : ∀ id msg, .processed id (.sent msg) ∈ w.log → WrittenBy w.log id msg
  answers : ∀ id result, SimulatedIn w.log id result → FromTraces sim chainId result

/-- What a sidecar gives to its simulator and its builder it has from its peers. -/
structure ReceiverInv (n : ChainId) (logs : ChainId → List Event) (w : World) : Prop where
  keyed : KeyedById w.shared.st
  mail : MailFrom (FromPeer n logs) w
  given : ∀ id dep, (id, dep) ∈ w.held Task.inbox → InboxBacked n logs w.log id dep
  simulated : ∀ id index tx overrides fulfilled outcome,
    .processed id (.simulated index tx overrides fulfilled outcome) ∈ w.log →
    ∀ dep ∈ fulfilled, InboxBacked n logs w.log id dep

variable {cfg : Config} {w w' : World} {n : ChainId} {logs logs' : ChainId → List Event}

theorem FromPeer.mono {msg : MailboxMessage} (hsub : ∀ k, logs k ⊆ logs' k)
    (h : FromPeer n logs msg) : FromPeer n logs' msg := by
  obtain ⟨hdest, o, id, he⟩ := h
  exact ⟨hdest, o, id, hsub o he⟩

theorem InboxBacked.mono {log log' : List Event} {id : InstanceId} {dep : CrossRollupDependency}
    (hsub : ∀ k, logs k ⊆ logs' k) (hlog : log ⊆ log') (h : InboxBacked n logs log id dep) :
    InboxBacked n logs' log' id dep := by
  obtain ⟨rawId, msg, hreg, hfrom, hraw, hserved⟩ := h
  exact ⟨rawId, msg, hlog hreg, hfrom.mono hsub, hraw, hserved⟩

theorem ReceiverInv.mono (hsub : ∀ k, logs k ⊆ logs' k) (h : ReceiverInv n logs w) :
    ReceiverInv n logs' w where
  keyed := h.keyed
  mail := h.mail.mono (fun _ hfrom => hfrom.mono hsub)
  given := fun id dep hdep => (h.given id dep hdep).mono hsub (List.Subset.refl _)
  simulated := fun id index tx overrides fulfilled outcome he dep hdep =>
    (h.simulated id index tx overrides fulfilled outcome he dep hdep).mono hsub
      (List.Subset.refl _)

theorem known_taskStep {reply : TaskReply} {sh sh' : Shared} {t : Task} {next : List Task}
    {es log : List Event} (h : taskStep cfg reply sh t = some (sh', next, es))
    (hknown : ∀ id xt, sh.st.pending.lookup id = some xt → .registered id xt.instanceId ∈ log)
    (id : InstanceId) (xt : PendingXt) (hl : sh'.st.pending.lookup id = some xt) :
    .registered id xt.instanceId ∈ log ++ es := by
  rcases entry_step h hl with ⟨x, hx, hsame, -⟩ | hnew
  · rw [hsame.instanceId_eq]
    exact List.mem_append_left _ (hknown id x hx)
  · rw [hnew.events]
    exact List.mem_append_right _ (List.mem_singleton_self _)

theorem pcWritten_notified {log : List Event} {id : InstanceId} {pc : ProcPc}
    (h : PcWritten log id pc) : PcWritten log id pc.notified := by
  cases pc with
  | waiting => trivial
  | _ => exact h

theorem senderInv_run {sim : RpcSimulator} {chainId : ChainId} {reply : TaskReply} {t : Task}
    {before after next : List Task} {sh' : Shared} {es : List Event}
    (htasks : w.tasks = before ++ t :: after)
    (h : taskStep cfg reply w.shared t = some (sh', next, es))
    (hsim : ∀ id frame, t = .process id (.simulate frame) → ∀ result,
      reply.proc.simulation = .ok result → FromTraces sim chainId result)
    (hi : SenderInv sim chainId w) :
    SenderInv sim chainId ⟨sh', before ++ next ++ after, w.log ++ es⟩ where
  known := known_taskStep h hi.known
  points := by
    intro id pc' hpc
    rcases mem_tasks_of_split htasks hpc with hnew | hold
    · rcases pcs_step h (List.mem_flatMap.mpr ⟨_, hnew, List.mem_singleton_self _⟩) with
        rfl | ⟨pc, st', events, rfl, -, hstep, rfl⟩
      · trivial
      · exact (pcWritten_step hstep (hi.known id) (hi.points id pc (mem_of_split htasks))).1
    · exact (hi.points id pc' hold).mono (List.subset_append_left _ _)
  sent := by
    intro id msg he
    refine WrittenBy.mono (List.subset_append_left _ _) ?_
    rcases List.mem_append.mp he with hold | hnew
    · exact hi.sent id msg hold
    · obtain ⟨pc, pc', st', events, rfl, -, -, hstep, hmem, -⟩ := processed_step h hnew
      exact (pcWritten_step hstep (hi.known id) (hi.points id pc (mem_of_split htasks))).2 msg hmem
  answers := by
    rintro id result ⟨index, tx, overrides, fulfilled, he⟩
    rcases List.mem_append.mp he with hold | hnew
    · exact hi.answers id result ⟨index, tx, overrides, fulfilled, hold⟩
    · obtain ⟨pc, pc', st', events, rfl, -, -, hstep, hmem, -⟩ := processed_step h hnew
      obtain ⟨frame, rfl, -, -, -, -, hanswer⟩ := simulated_step hstep hmem
      exact hsim id frame rfl result hanswer.symm

theorem senderInv_step {sim : RpcSimulator} {chainId : ChainId} {m : Move}
    (h : WorldStep cfg w m w')
    (hsim : ∀ id frame reply, m = .run (.process id (.simulate frame)) reply → ∀ result,
      reply.proc.simulation = .ok result → FromTraces sim chainId result)
    (hi : SenderInv sim chainId w) : SenderInv sim chainId w' := by
  rcases worldStep_tasks h with ⟨hquiet, htasks⟩ |
    ⟨t, reply, before, after, next, sh', es, rfl, htasks, hstep, rfl⟩
  · refine ⟨fun id xt hl => ?_, fun id pc hpc => ?_, ?_, ?_⟩
    · rw [hquiet.log_eq]
      exact hi.known id xt (by rwa [hquiet.st_eq] at hl)
    · rw [hquiet.log_eq]
      rcases htasks _ hpc with ⟨t, ht, rfl | hwoken⟩ | ⟨request, -, hrequest⟩
      · exact hi.points id pc ht
      · cases t with
        | process i p =>
          obtain ⟨rfl, rfl⟩ := Task.process.inj hwoken
          exact pcWritten_notified (hi.points id p ht)
        | _ => simp [Task.notified] at hwoken
      · simp at hrequest
    · rw [hquiet.log_eq]
      exact hi.sent
    · rw [hquiet.log_eq]
      exact hi.answers
  · exact senderInv_run htasks hstep (fun id frame ht => hsim id frame reply (by rw [ht])) hi

/-- The dependencies of a pending instance carry payloads that peers have sent. -/
theorem inboxBacked_of_ledger {st : CoordinatorState} {history : MailHistory} {log : List Event}
    (hledger : LedgerInv (st, history)) (hfrom : ∀ msg ∈ history.delivered, FromPeer n logs msg)
    (hknown : ∀ id xt, st.pending.lookup id = some xt → .registered id xt.instanceId ∈ log)
    {id : InstanceId} {xt : PendingXt} (hl : st.pending.lookup id = some xt)
    {dep : CrossRollupDependency} (hdep : dep ∈ xt.fulfilledDeps) :
    InboxBacked n logs log id dep := by
  have hbooks := hledger.entries id xt hl
  obtain ⟨msg, hmsg, hserved⟩ := served_of_mem hbooks.balanced.served hdep
  have hattached : msg ∈ (history.accounts id).attached :=
    hbooks.balanced.attached_perm.mem_iff.mpr (List.mem_append_right _ hmsg)
  obtain ⟨hdelivered, hraw⟩ := hbooks.delivered_raw msg hattached
  exact ⟨xt.instanceId, msg, hknown id xt hl, hfrom msg hdelivered, hraw, hserved⟩

theorem receiverInv_run {reply : TaskReply} {t : Task} {before after next : List Task}
    {sh' : Shared} {es : List Event} (htasks : w.tasks = before ++ t :: after)
    (h : taskStep cfg reply w.shared t = some (sh', next, es))
    (hknown : ∀ id xt, w.shared.st.pending.lookup id = some xt →
      .registered id xt.instanceId ∈ w.log)
    (hi : ReceiverInv n logs w) :
    ReceiverInv n logs ⟨sh', before ++ next ++ after, w.log ++ es⟩ where
  keyed := keyedById_taskStep h hi.keyed
  mail := mailFrom_run htasks h hi.mail
  given := by
    intro id dep hgiven
    have hbefore : ∀ {d}, (id, d) ∈ w.held Task.inbox → InboxBacked n logs (w.log ++ es) id d :=
      fun hd => (hi.given id _ hd).mono (fun _ => List.Subset.refl _) (List.subset_append_left _ _)
    rcases held_of_split htasks hgiven with hnew | hold
    · rcases inbox_step hi.keyed h hnew with hin | ⟨st, xt, rfl | rfl, hl, hdep⟩
      · exact hbefore (mem_held.mpr ⟨t, mem_of_split htasks, hin⟩)
      · obtain ⟨history, hledger, hfrom⟩ := hi.mail.ledger
        exact (inboxBacked_of_ledger hledger hfrom hknown hl hdep).mono
          (fun _ => List.Subset.refl _) (List.subset_append_left _ _)
      · obtain ⟨history, hledger, hfrom⟩ := (mailFrom_run htasks h hi.mail).ledger
        exact inboxBacked_of_ledger hledger hfrom (known_taskStep h hknown) hl hdep
    · exact hbefore hold
  simulated := by
    intro id index tx overrides fulfilled outcome he dep hdep
    refine InboxBacked.mono (fun _ => List.Subset.refl _) (List.subset_append_left _ _) ?_
    rcases List.mem_append.mp he with hold | hnew
    · exact hi.simulated id index tx overrides fulfilled outcome hold dep hdep
    · obtain ⟨pc, pc', st', events, rfl, -, -, hstep, hmem, -⟩ := processed_step h hnew
      obtain ⟨frame, rfl, -, -, -, rfl, -⟩ := simulated_step hstep hmem
      refine hi.given id dep (mem_held.mpr ⟨_, mem_of_split htasks, ?_⟩)
      exact List.mem_map_of_mem hdep

theorem receiverInv_step {m : Move} (h : WorldStep cfg w m w')
    (harrive : ∀ msg, m = .arrive (.mailboxMessage msg) → FromPeer n logs msg)
    (hknown : ∀ id xt, w.shared.st.pending.lookup id = some xt →
      .registered id xt.instanceId ∈ w.log)
    (hi : ReceiverInv n logs w) : ReceiverInv n logs w' := by
  rcases worldStep_tasks h with ⟨hquiet, -⟩ |
    ⟨t, reply, before, after, next, sh', es, rfl, htasks, hstep, rfl⟩
  · refine ⟨?_, mailFrom_step h harrive hi.mail, ?_, ?_⟩
    · rw [hquiet.st_eq]
      exact hi.keyed
    · rw [hquiet.held_eq lasting_inbox, hquiet.log_eq]
      exact hi.given
    · rw [hquiet.log_eq]
      exact hi.simulated
  · exact receiverInv_run htasks hstep hknown hi

/-- What all sidecars together keep. -/
def MailInv (sims : ChainId → RpcSimulator) (cfg : ChainId → Config) (net : Net) : Prop :=
  ∀ n, SenderInv (sims n) (cfg n).chainId (net n) ∧
    ReceiverInv n (shownBy TaskSystem.log net) (net n)

theorem mailInv_initial (sims : ChainId → RpcSimulator) (cfg : ChainId → Config) :
    MailInv sims cfg Net.initial := by
  intro n
  refine ⟨⟨?_, ?_, ?_, ?_⟩, ⟨keyedById_default, mailFrom_initial _, ?_, ?_⟩⟩
  · intro id xt hl
    simp [Net.initial, World.initial] at hl
  · intro id pc hpc
    simp [Net.initial, World.initial] at hpc
  · intro id msg he
    simp [Net.initial, World.initial] at he
  · rintro id result ⟨index, tx, overrides, fulfilled, he⟩
    simp [Net.initial, World.initial] at he
  · intro id dep hdep
    simp [Net.initial, World.initial, held] at hdep
  · intro id index tx overrides fulfilled outcome he
    simp [Net.initial, World.initial] at he

theorem mailInv_step {sims : ChainId → RpcSimulator} {cfg : ChainId → Config} {net net' : Net}
    {move : MailMove} (h : MailStep cfg net move net') (hsim : move.simulatesWith sims cfg)
    (hi : MailInv sims cfg net) : MailInv sims cfg net' := by
  have hmono : ∀ {logs logs' : ChainId → List Event} {k : ChainId} {w : World},
      (∀ j, logs j ⊆ logs' j) →
      SenderInv (sims k) (cfg k).chainId w ∧ ReceiverInv k logs w →
      SenderInv (sims k) (cfg k).chainId w ∧ ReceiverInv k logs' w :=
    fun hsub hk => ⟨hk.1, hk.2.mono hsub⟩
  cases h with
  | @node n m w' h hno =>
    refine invariant_update (I := fun logs k w =>
      SenderInv (sims k) (cfg k).chainId w ∧ ReceiverInv k logs w) hmono (log_worldStep h)
      ⟨senderInv_step h ?_ (hi n).1, receiverInv_step h (fun msg he => absurd he (hno msg))
        (hi n).1.known (hi n).2⟩ hi
    rintro id frame reply rfl
    exact hsim
  | @mail o id msg hsent =>
    have harrive := @WorldStep.arrive (cfg msg.destinationChain) (net msg.destinationChain)
      (.mailboxMessage msg)
    refine invariant_update (I := fun logs k w =>
      SenderInv (sims k) (cfg k).chainId w ∧ ReceiverInv k logs w) hmono (List.Subset.refl _)
      ⟨senderInv_step harrive ?_ (hi _).1, ?_⟩ hi
    · intro id frame reply hrun
      simp at hrun
    · refine receiverInv_step harrive (fun m hm => ?_) (hi _).1.known (hi _).2
      obtain rfl : msg = m := by simpa using hm
      exact ⟨rfl, o, id, hsent⟩

/-- An instance has the dependency, with its payload: it is on record as fulfilled, or it is or
was given to the simulator, or it is given to the builder. -/
def Holds (w : World) (id : InstanceId) (dep : CrossRollupDependency) : Prop :=
  (∃ xt, w.shared.st.pending.lookup id = some xt ∧ dep ∈ xt.fulfilledDeps) ∨
  (id, dep) ∈ w.held Task.inbox ∨
  ∃ index tx overrides fulfilled outcome,
    .processed id (.simulated index tx overrides fulfilled outcome) ∈ w.log ∧ dep ∈ fulfilled

/-- The frame writes the message that the dependency waits for, with the payload it carries. -/
def WritesFor (sim : RpcSimulator) (chainId : ChainId) (frame : Value)
    (dep : CrossRollupDependency) : Prop :=
  ∃ m, exportedMessage sim chainId frame = some m ∧ m.sourceChainId = dep.sourceChainId ∧
    m.destChainId = dep.destChainId ∧ m.sender = dep.sender ∧ m.receiver = dep.receiver ∧
    InstanceId.asBytes m.label = dep.label ∧ m.sessionId = dep.sessionId ∧ dep.data = some m.data

theorem source_of_exported {sim : RpcSimulator} {chainId : ChainId} {frame : Value}
    {m : CrossRollupMessage} (h : exportedMessage sim chainId frame = some m) :
    m.sourceChainId = chainId := by
  unfold exportedMessage at h
  cases hm : sim.mailboxAddress with
  | none => simp [hm] at h
  | some addr =>
    simp only [hm] at h
    obtain ⟨call, hcall, rfl⟩ := Option.map_eq_some_iff.mp h
    simp only [writeCall] at hcall
    split_ifs at hcall
    obtain ⟨caller, -, hdecode⟩ := Option.bind_eq_some_iff.mp hcall
    simp only [decodeWrite, Option.bind_eq_bind, Option.bind_eq_some_iff, Option.some.injEq]
      at hdecode
    obtain ⟨data, -, message, -, dest, -, rfl⟩ := hdecode
    rfl

/-- No payload is made up or mixed up on the way. Whatever the sidecars are asked, in whatever order
they run and however often a message arrives: a payload that an instance of a chain is simulated
with, or that goes to the builder, was written to the mailbox contract under the same key by a call
in a trace of an instance on the source chain, and both instances have the same raw id. -/
theorem mailbox_payloads_authentic {cfg : ChainId → Config} {sims : ChainId → RpcSimulator}
    (hcfg : ∀ n, (cfg n).chainId = n) {moves : List MailMove} {net : Net}
    (hrun : Run (fun net move net' => MailStep cfg net move net' ∧ move.simulatesWith sims cfg)
      Net.initial moves net)
    {n : ChainId} {id : InstanceId} {dep : CrossRollupDependency} (hholds : Holds (net n) id dep) :
    dep.destChainId = n ∧
    ∃ rawId id' index tx overrides fulfilled trace prestate frame,
      .registered id rawId ∈ (net n).log ∧
      .registered id' rawId ∈ (net dep.sourceChainId).log ∧
      .processed id' (.simulated index tx overrides fulfilled (.ok (resultFromTraces
        (sims dep.sourceChainId) dep.sourceChainId trace prestate))) ∈
          (net dep.sourceChainId).log ∧
      frame ∈ Traversal.preorder calls maxTraceDepth trace ∧
      WritesFor (sims dep.sourceChainId) dep.sourceChainId frame dep := by
  have hinv : MailInv sims cfg net :=
    hrun.invariant (I := MailInv sims cfg) (fun _ _ _ hi h => mailInv_step h.1 h.2 hi)
      (mailInv_initial sims cfg)
  have hbacked : InboxBacked n (shownBy TaskSystem.log net) (net n).log id dep := by
    rcases hholds with ⟨xt, hl, hdep⟩ | hgiven | ⟨index, tx, overrides, fulfilled, outcome, he, hdep⟩
    · obtain ⟨history, hledger, hfrom⟩ := (hinv n).2.mail.ledger
      exact inboxBacked_of_ledger hledger hfrom (hinv n).1.known hl hdep
    · exact (hinv n).2.given id dep hgiven
    · exact (hinv n).2.simulated id index tx overrides fulfilled outcome he dep hdep
  obtain ⟨rawId, msg, hreg, ⟨hdest, o, id', hsent⟩, hraw, hdata, hmatch⟩ := hbacked
  obtain ⟨rawId', result, m, hreg', ⟨index, tx, overrides, fulfilled, he⟩, hm, rfl⟩ :=
    (hinv o).1.sent id' msg hsent
  obtain ⟨trace, prestate, rfl⟩ := (hinv o).1.answers id' result ⟨index, tx, overrides, fulfilled, he⟩
  rw [hcfg o] at he hm
  rw [outboundMessages_eq, List.mem_filterMap] at hm
  obtain ⟨frame, hframe, hexported⟩ := hm
  obtain ⟨hsource, hdestKey, hlabel, hsender, hreceiver, hsession⟩ :=
    (matchesDependency_wireMessage _ _ _).mp hmatch
  obtain rfl : dep.sourceChainId = o := hsource.symm.trans (source_of_exported hexported)
  refine ⟨hdestKey.symm.trans hdest, rawId, id', index, tx, overrides, fulfilled, trace, prestate,
    frame, hreg, ?_, he, hframe, m, hexported, hsource, hdestKey, hsender, hreceiver, hlabel,
    hsession, hdata⟩
  rwa [← hraw]

end Network

section Exec

/-- A move of the network, with the task or the sent message named by its position. A simulation is
given by the trace that the node answers. -/
inductive MailPick where
  | node (n : ChainId) (pick : Pick)
  | simulate (n : ChainId) (i : Nat) (trace : Value)
  | mail (o : ChainId) (i : Nat)

def Move.givesNoResult : Move → Bool
  | .arrive (.mailboxMessage _) => false
  | .run _ reply => !reply.proc.simulation.isOk
  | _ => true

def sentMessage : Event → Option MailboxMessage
  | .processed _ (.sent msg) => some msg
  | _ => none

def mailPickStep (sims : ChainId → RpcSimulator) (cfg : ChainId → Config) (net : Net) :
    MailPick → Option (MailMove × Net)
  | .node n pick =>
    (pickStep (cfg n) (net n) pick).bind (fun r =>
      if r.1.givesNoResult then some (.node n r.1, Function.update net n r.2) else none)
  | .simulate n i trace =>
    let result := resultFromTraces (sims n) (cfg n).chainId trace (.ok (.diff {}))
    (pickStep (cfg n) (net n) (.run i { proc := { simulation := .ok result } })).map
      (fun r => (.node n r.1, Function.update net n r.2))
  | .mail o i =>
    ((net o).log[i]?.bind sentMessage).map (fun msg => (.mail o msg,
      Function.update net msg.destinationChain { net msg.destinationChain with
        tasks := (net msg.destinationChain).tasks ++ [.request (.mailboxMessage msg)] }))

theorem mailStep_of_pick {sims : ChainId → RpcSimulator} {cfg : ChainId → Config} (net : Net)
    (p : MailPick) (m : MailMove) (net' : Net) (h : mailPickStep sims cfg net p = some (m, net')) :
    MailStep cfg net m net' ∧ m.simulatesWith sims cfg := by
  cases p with
  | node n pick =>
    obtain ⟨r, hr, hif⟩ := Option.bind_eq_some_iff.mp h
    split_ifs at hif with hno
    obtain ⟨rfl, rfl⟩ := Prod.mk.inj (Option.some.inj hif)
    refine ⟨.node (worldStep_of_pick _ _ _ _ hr) (fun msg hmsg => ?_), ?_⟩
    · simp [hmsg, Move.givesNoResult] at hno
    · cases hmove : r.1 with
      | run t reply =>
        cases t with
        | process id pc =>
          cases pc with
          | simulate frame =>
            intro result hresult
            simp [hmove, Move.givesNoResult, hresult, Except.isOk, Except.toBool] at hno
          | _ => trivial
        | _ => trivial
      | _ => trivial
  | simulate n i trace =>
    obtain ⟨r, hr, heq⟩ := Option.map_eq_some_iff.mp h
    obtain ⟨rfl, rfl⟩ := Prod.mk.inj heq
    obtain ⟨q, hq, hrun⟩ := Option.map_eq_some_iff.mp hr
    have hmove : r.1 = .run q.1 { proc := { simulation := .ok (resultFromTraces (sims n)
        (cfg n).chainId trace (.ok (.diff {}))) } } := (congrArg Prod.fst hrun).symm
    refine ⟨.node (worldStep_of_pick _ _ _ _ hr) (fun msg hmsg => ?_), ?_⟩
    · simp [hmove] at hmsg
    · rw [hmove]
      cases q.1 with
      | process id pc =>
        cases pc with
        | simulate frame =>
          intro result hresult
          exact ⟨trace, .ok (.diff {}), (Except.ok.inj hresult).symm⟩
        | _ => trivial
      | _ => trivial
  | mail o i =>
    obtain ⟨msg, hmsg, heq⟩ := Option.map_eq_some_iff.mp h
    obtain ⟨rfl, rfl⟩ := Prod.mk.inj heq
    obtain ⟨e, he, hsent⟩ := Option.bind_eq_some_iff.mp hmsg
    have hlog := List.mem_of_getElem? he
    refine ⟨?_, trivial⟩
    cases e with
    | processed id event =>
      cases event with
      | sent sentMsg =>
        obtain rfl := Option.some.inj hsent
        exact .mail hlog
      | _ => simp [sentMessage] at hsent
    | _ => simp [sentMessage] at hsent

/-- Sidecars that simulate and send mailbox messages. -/
def mailConfig (n : ChainId) : Config :=
  { Config.bare n with simulator := true, mailboxSender := true }

/-- Chain 902 reads what chain 901 writes in `swallowedWrite`. -/
def readingSimulator : RpcSimulator :=
  { swallowedSimulator with
    abi := { swallowedSimulator.abi with
      decodeReadMessage := fun _ => some { swallowedMessage.header with chainSrc := 901 } } }

def mailSims (n : ChainId) : RpcSimulator :=
  if n = 901 then swallowedSimulator else readingSimulator

/-- The read finds nothing and reverts. -/
def revertedRead : Value :=
  .object
    [("from", .string "0x4444444444444444444444444444444444444444"),
      ("to", .string "0x5555555555555555555555555555555555555555"),
      ("input", .string "0x3b6b1a56"),
      ("error", .string "execution reverted")]

def crossingTxs : RawTxs := pushTx (pushTx ∅ 901 [1]) 902 [2]

def mailRuns (n : ChainId) (k : Nat) : List MailPick := List.replicate k (.node n (.run 0 {}))

/-- Chain 901 writes a message in its transaction; chain 902 waits for it and gets it. -/
def crossingPicks : List MailPick :=
  [.node 901 (.arrive (.submitXt crossingTxs 0))] ++ mailRuns 901 9 ++
    [.simulate 901 0 swallowedTrace] ++ mailRuns 901 3 ++
    [.node 902 (.arrive (.forwardedXt "xt-901-1" crossingTxs 901 1))] ++ mailRuns 902 8 ++
    [.simulate 902 0 revertedRead] ++ [.mail 901 2, .node 902 (.run 1 {})] ++ mailRuns 902 5

theorem mailbox_payloads_authentic_crossing : ∃ moves net dep,
    Run (fun net move net' => MailStep mailConfig net move net' ∧
      move.simulatesWith mailSims mailConfig) Net.initial moves net ∧
    Holds (net 902) "xt-901-1" dep ∧ dep.destChainId = 902 ∧
    ∃ frame, WritesFor (mailSims dep.sourceChainId) dep.sourceChainId frame dep := by
  have hexec : (execAll (mailPickStep mailSims mailConfig) (fun _ _ => true) crossingPicks
      Net.initial).map (fun net => ((net 902).shared.st.pending.lookup "xt-901-1").map
        (fun xt => xt.fulfilledDeps.length)) = some (some 1) := by
    decide +kernel
  obtain ⟨net, hnet, hentry⟩ := Option.map_eq_some_iff.mp hexec
  obtain ⟨xt, hl, hlength⟩ := Option.map_eq_some_iff.mp hentry
  obtain ⟨dep, hdeps⟩ := List.length_eq_one_iff.mp hlength
  obtain ⟨moves, hrun⟩ := run_execAll_free mailStep_of_pick hnet
  have hholds : Holds (net 902) "xt-901-1" dep := Or.inl ⟨xt, hl, by simp [hdeps]⟩
  obtain ⟨hdest, -, -, -, -, -, -, -, -, frame, -, -, -, -, hwrites⟩ :=
    mailbox_payloads_authentic (fun _ => rfl) hrun hholds
  exact ⟨moves, net, dep, hrun, hholds, hdest, frame, hwrites⟩

end Exec

end Sidecar.Coordinator
