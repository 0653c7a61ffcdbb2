import Sidecar.Coordinator.Entry
import Mathlib.Data.List.Perm.Basic

namespace Sidecar.Coordinator

open Mailbox

/-- The part of an instance that mailbox messages and dependencies are kept in. -/
structure XtMail where
  instanceId : Bytes
  pendingMailbox : List MailboxMessage
  dependencies : List CrossRollupDependency
  depKeys : Finset DependencyKey
  fulfilledDeps : List CrossRollupDependency
  fulfilledDepKeys : Finset DependencyKey

def PendingXt.mail (xt : PendingXt) : XtMail :=
  { instanceId := xt.instanceId
    pendingMailbox := xt.pendingMailbox
    dependencies := xt.dependencies
    depKeys := xt.depKeys
    fulfilledDeps := xt.fulfilledDeps
    fulfilledDepKeys := xt.fulfilledDepKeys }

/-- The list and the key set beside it are in step: one entry per key. -/
structure KeyedBy (deps : List CrossRollupDependency) (keys : Finset DependencyKey) : Prop where
  nodup : (deps.map DependencyKey.ofDependency).Nodup
  mem_iff : ∀ key, key ∈ keys ↔ key ∈ deps.map DependencyKey.ofDependency

theorem KeyedBy.nil : KeyedBy [] ∅ := ⟨List.nodup_nil, fun key => by simp⟩

theorem KeyedBy.snoc {deps : List CrossRollupDependency} {keys : Finset DependencyKey}
    (h : KeyedBy deps keys) {dep : CrossRollupDependency}
    (hnew : DependencyKey.ofDependency dep ∉ keys) :
    KeyedBy (deps ++ [dep]) (insert (DependencyKey.ofDependency dep) keys) := by
  have hnot : DependencyKey.ofDependency dep ∉ deps.map DependencyKey.ofDependency :=
    fun hm => hnew ((h.mem_iff _).mpr hm)
  constructor
  · rw [List.map_append, List.map_singleton]
    exact List.nodup_append.mpr ⟨h.nodup, List.nodup_singleton _, fun a ha b hb => by
      rw [List.mem_singleton.mp hb]
      exact fun heq => hnot (heq ▸ ha)⟩
  · intro key
    rw [Finset.mem_insert, h.mem_iff, List.map_append, List.mem_append, List.map_singleton,
      List.mem_singleton]
    exact or_comm

section Fulfill

theorem swapRemove_perm {α : Type} {l : List α} {i : Nat} (h : i < l.length) :
    (l[i] :: swapRemove l i).Perm l := by
  have hne : l ≠ [] := List.ne_nil_of_length_pos (by omega)
  obtain ⟨last, hlast⟩ : ∃ last, l.getLast? = some last :=
    ⟨l.getLast hne, List.getLast?_eq_some_getLast hne⟩
  have hswap : swapRemove l i = (l.set i last).dropLast := by
    rw [swapRemove, hlast]
  have hend : (l.set i last).getLast? = some last := by
    rw [List.getLast?_eq_getElem?] at hlast ⊢
    rw [List.length_set, List.getElem?_set]
    split_ifs with hi
    · rfl
    · exact hlast
  -- the list with the replaced element is the result with the last element at its end
  have hsplit : swapRemove l i ++ [last] = l.set i last := by
    rw [hswap]
    exact List.dropLast_append_getLast? last hend
  have hset := List.set_perm_cons_eraseIdx h last
  rw [← hsplit] at hset
  have herase : (swapRemove l i).Perm (l.eraseIdx i) :=
    (List.perm_cons last).mp ((List.perm_append_singleton _ _).symm.trans hset)
  exact (herase.cons l[i]).trans (List.getElem_cons_eraseIdx_perm h)

/-- The message that serves a dependency, if there is one to take. -/
def consumedOne (xt : PendingXt) (dep : CrossRollupDependency) : Option MailboxMessage :=
  if DependencyKey.ofDependency dep ∈ xt.fulfilledDepKeys then none
  else (xt.pendingMailbox.findIdx? (fun msg => matchesDependency msg dep)).bind
    (fun idx => xt.pendingMailbox[idx]?)

/-- The messages that leave the mailbox, in the order of the dependencies they serve. -/
def consumedBy : PendingXt → List CrossRollupDependency → List MailboxMessage
  | _, [] => []
  | xt, dep :: deps => (consumedOne xt dep).toList ++ consumedBy (fulfillOne xt dep).1 deps

/-- The message answers the dependency, and the dependency carries its payload. -/
def ServedBy (dep : CrossRollupDependency) (msg : MailboxMessage) : Prop :=
  dep.data = some msg.payload ∧ matchesDependency msg dep = true

theorem served_of_mem {deps : List CrossRollupDependency} {consumed : List MailboxMessage}
    (h : List.Forall₂ ServedBy deps consumed) {dep : CrossRollupDependency} (hdep : dep ∈ deps) :
    ∃ msg ∈ consumed, ServedBy dep msg := by
  induction h with
  | nil => exact absurd hdep List.not_mem_nil
  | @cons d m deps consumed hserved _ ih =>
    rcases List.mem_cons.mp hdep with rfl | hrest
    · exact ⟨m, List.mem_cons_self, hserved⟩
    · obtain ⟨msg, hmsg, hdm⟩ := ih hrest
      exact ⟨msg, List.mem_cons_of_mem _ hmsg, hdm⟩

/-- The books of one instance: what was attached is still there or was consumed, each
consumed message serves its own dependency, and the key sets are in step. -/
structure Balanced (mail : XtMail) (attached consumed : List MailboxMessage) : Prop where
  attached_perm : attached.Perm (mail.pendingMailbox ++ consumed)
  served : List.Forall₂ ServedBy mail.fulfilledDeps consumed
  fulfilled_keys : KeyedBy mail.fulfilledDeps mail.fulfilledDepKeys
  dependency_keys : KeyedBy mail.dependencies mail.depKeys

theorem fulfillOne_none {xt : PendingXt} {dep : CrossRollupDependency}
    (h : consumedOne xt dep = none) : (fulfillOne xt dep).1 = xt := by
  unfold consumedOne at h
  unfold fulfillOne
  dsimp only
  split_ifs at h ⊢ with hkey
  · rfl
  · cases hidx : xt.pendingMailbox.findIdx? (fun msg => matchesDependency msg dep) with
    | none => rfl
    | some idx =>
      obtain ⟨hlt, -⟩ := List.findIdx?_eq_some_iff_getElem.mp hidx
      rw [hidx, Option.bind_some, List.getElem?_eq_getElem hlt] at h
      simp at h

/-- One message leaves the mailbox for a new fulfilled dependency. -/
theorem fulfillOne_some {xt : PendingXt} {dep : CrossRollupDependency} {msg : MailboxMessage}
    (h : consumedOne xt dep = some msg) :
    matchesDependency msg dep = true ∧ DependencyKey.ofDependency dep ∉ xt.fulfilledDepKeys ∧
      ∃ rest, (msg :: rest).Perm xt.pendingMailbox ∧
        (fulfillOne xt dep).1 =
          { xt with
            pendingMailbox := rest
            fulfilledDepKeys := insert (DependencyKey.ofDependency dep) xt.fulfilledDepKeys
            fulfilledDeps := xt.fulfilledDeps ++ [{ dep with data := some msg.payload }] } := by
  unfold consumedOne at h
  split_ifs at h with hkey
  obtain ⟨idx, hidx, hmsg⟩ := Option.bind_eq_some_iff.mp h
  obtain ⟨hlt, hmatch, -⟩ := List.findIdx?_eq_some_iff_getElem.mp hidx
  have hget : xt.pendingMailbox[idx] = msg := by
    rw [List.getElem?_eq_getElem hlt] at hmsg
    exact Option.some.inj hmsg
  rw [hget] at hmatch
  refine ⟨hmatch, hkey, swapRemove xt.pendingMailbox idx, ?_, ?_⟩
  · rw [← hget]
    exact swapRemove_perm hlt
  · unfold fulfillOne
    dsimp only
    rw [if_neg hkey, hidx]
    dsimp only
    rw [hmsg]
    rfl

theorem fulfillOne_found (xt : PendingXt) (dep : CrossRollupDependency) :
    (fulfillOne xt dep).2 = (consumedOne xt dep).isSome := by
  simp only [fulfillOne, consumedOne]
  split_ifs with hkey
  · rfl
  · cases hidx : xt.pendingMailbox.findIdx? (fun msg => matchesDependency msg dep) with
    | none => rfl
    | some idx =>
      obtain ⟨hlt, -⟩ := List.findIdx?_eq_some_iff_getElem.mp hidx
      rw [Option.bind_some, List.getElem?_eq_getElem hlt]
      rfl

theorem keyedBy_fulfillOne {xt : PendingXt} (h : KeyedBy xt.fulfilledDeps xt.fulfilledDepKeys)
    (dep : CrossRollupDependency) :
    KeyedBy (fulfillOne xt dep).1.fulfilledDeps (fulfillOne xt dep).1.fulfilledDepKeys := by
  cases hone : consumedOne xt dep with
  | none =>
    rw [fulfillOne_none hone]
    exact h
  | some msg =>
    obtain ⟨-, hkey, rest, -, hxt⟩ := fulfillOne_some hone
    have hdata : DependencyKey.ofDependency { dep with data := some msg.payload } =
        DependencyKey.ofDependency dep := rfl
    rw [hxt]
    exact h.snoc (hdata ▸ hkey)

theorem balanced_fulfillOne {xt : PendingXt} {attached consumed : List MailboxMessage}
    (h : Balanced xt.mail attached consumed) (dep : CrossRollupDependency) :
    Balanced (fulfillOne xt dep).1.mail attached (consumed ++ (consumedOne xt dep).toList) := by
  have hkeyed := keyedBy_fulfillOne h.fulfilled_keys dep
  cases hone : consumedOne xt dep with
  | none =>
    rw [fulfillOne_none hone, Option.toList_none, List.append_nil]
    exact h
  | some msg =>
    obtain ⟨hmatch, -, rest, hrest, hxt⟩ := fulfillOne_some hone
    rw [hxt] at hkeyed
    rw [hxt, Option.toList_some]
    constructor
    · have hmoved : (xt.pendingMailbox ++ consumed).Perm (rest ++ (consumed ++ [msg])) := by
        have hfront := hrest.symm.append_right consumed
        have hback : (msg :: rest ++ consumed).Perm (rest ++ consumed ++ [msg]) :=
          (List.perm_append_singleton msg (rest ++ consumed)).symm
        rw [← List.append_assoc]
        exact hfront.trans hback
      exact h.attached_perm.trans hmoved
    · have hlast : List.Forall₂ ServedBy [{ dep with data := some msg.payload }] [msg] :=
        .cons ⟨rfl, hmatch⟩ .nil
      exact List.rel_append h.served hlast
    · exact hkeyed
    · exact h.dependency_keys

/-- The loop over the dependencies keeps the books. -/
theorem balanced_fulfillXt {xt : PendingXt} {attached consumed : List MailboxMessage}
    (h : Balanced xt.mail attached consumed) (deps : List CrossRollupDependency) :
    Balanced (fulfillXt xt deps).1.mail attached (consumed ++ consumedBy xt deps) := by
  induction deps generalizing xt consumed with
  | nil =>
    rw [consumedBy, List.append_nil]
    exact h
  | cons dep deps ih =>
    have hone := balanced_fulfillOne h dep
    have hrest := ih hone
    rw [fulfillXt_cons, consumedBy, ← List.append_assoc]
    exact hrest

end Fulfill

section Record

/-- Recording a simulation adds each new dependency once and leaves the mailbox alone. -/
theorem balanced_recordResult {xt : PendingXt} {attached consumed : List MailboxMessage}
    (h : Balanced xt.mail attached consumed) (result : SimulationResult) :
    Balanced (recordResult xt result).mail attached consumed := by
  have hdeps : ∀ (deps : List CrossRollupDependency) (x : PendingXt),
      Balanced x.mail attached consumed →
      Balanced (deps.foldl (fun (xt : PendingXt) dep =>
        if DependencyKey.ofDependency dep ∈ xt.depKeys then xt
        else { xt with
          depKeys := insert (DependencyKey.ofDependency dep) xt.depKeys
          dependencies := xt.dependencies ++ [dep] }) x).mail attached consumed := by
    intro deps
    induction deps with
    | nil =>
      intro x hx
      exact hx
    | cons dep deps ih =>
      intro x hx
      rw [List.foldl_cons]
      apply ih
      split_ifs with hkey
      · exact hx
      · exact ⟨hx.attached_perm, hx.served, hx.fulfilled_keys, hx.dependency_keys.snoc hkey⟩
  have hmsgs : ∀ (msgs : List CrossRollupMessage) (x : PendingXt),
      (msgs.foldl (fun (xt : PendingXt) msg =>
        if containsMessage xt.outboundMessages msg then xt
        else { xt with outboundMessages := xt.outboundMessages ++ [msg] }) x).mail = x.mail := by
    intro msgs
    induction msgs with
    | nil =>
      intro x
      rfl
    | cons msg msgs ih =>
      intro x
      rw [List.foldl_cons, ih]
      split_ifs <;> rfl
  unfold recordResult
  rw [hmsgs]
  exact hdeps result.dependencies xt h

end Record

section History

variable (cfg : Config) (st : CoordinatorState)

/-- The messages that a locked part puts into the mailbox of an instance: those a new instance
starts with, and those delivered to a pending one. -/
def Op.attaches (id : InstanceId) (op : Op) : List MailboxMessage :=
  if (op.registers cfg st).map Prod.fst = some id then
    ((op.apply cfg st).pending.lookup id).elim [] PendingXt.pendingMailbox
  else
    match op with
    | .mailbox msg =>
      if st.mailboxIndex.lookup msg.instanceId = some id ∧ id ∈ st.pending then [msg] else []
    | _ => []

/-- The messages of an instance that a locked part uses up. -/
def Op.consumes (id : InstanceId) : Op → List MailboxMessage
  | .fulfill target deps =>
    if target = id then (st.pending.lookup id).elim [] (fun xt => consumedBy xt deps) else []
  | _ => []

def Op.delivers : Op → List MailboxMessage
  | .mailbox msg => [msg]
  | _ => []

/-- What was attached to the instance now registered under an id, and what it used up. -/
structure MailAccount where
  attached : List MailboxMessage := []
  consumed : List MailboxMessage := []

/-- Everything that was delivered, and the account of every instance. -/
structure MailHistory where
  delivered : List MailboxMessage := []
  accounts : InstanceId → MailAccount := fun _ => {}

/-- A registration opens a new account. -/
def MailHistory.write (st : CoordinatorState) (op : Op) (history : MailHistory) : MailHistory :=
  { delivered := history.delivered ++ op.delivers
    accounts := fun id =>
      if (op.registers cfg st).map Prod.fst = some id then ⟨op.attaches cfg st id, []⟩
      else
        ⟨(history.accounts id).attached ++ op.attaches cfg st id,
          (history.accounts id).consumed ++ op.consumes st id⟩ }

end History

section Effect

variable {cfg : Config} {st : CoordinatorState}

/-- Everything a locked part can do to the mailbox of one instance. -/
inductive MailEffect (cfg : Config) (st : CoordinatorState) (op : Op) (id : InstanceId) :
    Option PendingXt → Option PendingXt → Prop
  | absent (o : Option PendingXt) : MailEffect cfg st op id o none
  | registered (o : Option PendingXt) {xt' : PendingXt}
      (hreg : (op.registers cfg st).map Prod.fst = some id)
      (h : xt'.mail = ⟨xt'.instanceId, xt'.pendingMailbox, [], ∅, [], ∅⟩) :
      MailEffect cfg st op id o (some xt')
  | kept {xt xt' : PendingXt} (hreg : (op.registers cfg st).map Prod.fst ≠ some id)
      (hattach : op.attaches cfg st id = []) (hconsume : op.consumes st id = [])
      (h : xt'.mail = xt.mail) : MailEffect cfg st op id (some xt) (some xt')
  | delivered {xt : PendingXt} (msg : MailboxMessage) (hop : op = .mailbox msg)
      (hindex : st.mailboxIndex.lookup msg.instanceId = some id) :
      MailEffect cfg st op id (some xt)
        (some { xt with pendingMailbox := xt.pendingMailbox ++ [msg] })
  | recorded {xt : PendingXt} (result : SimulationResult) (base : StateOverride)
      (hop : op = .recordSimulation id result base) :
      MailEffect cfg st op id (some xt) (some (recordResult xt result))
  | fulfilled {xt : PendingXt} (deps : List CrossRollupDependency) (hop : op = .fulfill id deps) :
      MailEffect cfg st op id (some xt) (some (fulfillXt xt deps).1)

theorem mail_standaloneDecision (chainId : ChainId) (xt : PendingXt) (now : Instant) :
    (maybeMakeStandaloneDecision chainId xt now).1.mail = xt.mail := by
  rcases standaloneDecision_cases chainId xt now with h | ⟨-, -, n, m, h⟩ | ⟨-, -, n, m, h⟩ <;>
    rw [h] <;> rfl

theorem mail_castVote (cfg : Config) (xt : PendingXt) (vote standalone : Bool) (now : Instant) :
    (castVote cfg xt vote standalone now).1.mail = xt.mail := by
  rw [castVote_eq]
  cases standalone with
  | false => rfl
  | true => exact mail_standaloneDecision cfg.chainId (withLocalVote cfg xt vote now) now

theorem mail_claimOutbound (xt : PendingXt) (outbound : List CrossRollupMessage) :
    (claimOutbound xt outbound).1.mail = xt.mail := by
  rw [claimOutbound_eq]
  rfl

/-- The locked parts that do not deal with mailboxes. -/
def Op.leavesMail : Op → Bool
  | .submitXt _ | .forwardXt _ _ _ _ | .startInstance _ | .mailbox _ | .recordSimulation _ _ _
  | .fulfill _ _ => false
  | _ => true

theorem mail_entryStep {op : Op} {id : InstanceId} {xt xt' : PendingXt}
    (h : EntryStep cfg op id xt xt') (hop : op.leavesMail = true) : xt'.mail = xt.mail := by
  cases h with
  | same | decided | confirmed | locked => rfl
  | voted _ vote standalone now _ => exact mail_castVote cfg xt vote standalone now
  | peerVoted _ chainId vote now _ _ =>
    exact mail_standaloneDecision cfg.chainId
      { xt with peerVotes := xt.peerVotes.insert chainId vote } now
  | outdated =>
    unfold abortUndecided
    split_ifs <;> rfl
  | rolledBack =>
    unfold forceAbort
    split_ifs <;> rfl
  | dispatched _ outbound _ => exact mail_claimOutbound xt outbound
  | delivered | recorded | fulfilled => simp [Op.leavesMail] at hop

theorem mailEffect_of_leavesMail (op : Op) (h : op.leavesMail = true) (id : InstanceId) :
    MailEffect cfg st op id (st.pending.lookup id) ((op.apply cfg st).pending.lookup id) := by
  have hquiet : op.registers cfg st = none ∧ op.attaches cfg st id = [] ∧
      op.consumes st id = [] := by
    cases op <;>
      first
      | exact ⟨rfl, rfl, rfl⟩
      | simp [Op.leavesMail] at h
  cases hx : (op.apply cfg st).pending.lookup id with
  | none => exact .absent _
  | some xt' =>
    obtain ⟨xt, hxt, hstep⟩ := entryStep (fun route => by simp [hquiet.1]) hx
    rw [hxt]
    exact .kept (by simp [hquiet.1]) hquiet.2.1 hquiet.2.2 (mail_entryStep hstep h)

end Effect

section Routing

variable (cfg : Config) (st : CoordinatorState)

/-- What a registration does to the pending instances, the index and the buffer. Only the two
handlers of foreign instances take the buffered messages over. -/
inductive Admission (cfg : Config) (st st' : CoordinatorState) (op : Op) : PendingXt → Prop
  | submitted (xt : PendingXt) (txs : RawTxs) (hop : op = .submitXt txs)
      (hreg : op.registers cfg st = some (xt.id, .submitted))
      (hxt : xt = standaloneXt cfg (st.originSeq + 1) txs)
      (hpending : st'.pending = st.pending.insert xt.id xt)
      (hindex : st'.mailboxIndex = st.mailboxIndex.insert xt.instanceId xt.id)
      (hbuffer : st'.mailboxBuffer = st.mailboxBuffer) : Admission cfg st st' op xt
  | drained (xt : PendingXt) (route : Route) (hop : ∀ txs, op ≠ .submitXt txs)
      (hreg : op.registers cfg st = some (xt.id, route)) (hnew : xt.id ∉ st.pending)
      (hraw : xt.instanceId = InstanceId.asBytes xt.id ∨
        xt.id = InstanceId.fromPublisherBytes xt.instanceId)
      (hfresh : xt.mail = ⟨xt.instanceId, [], [], ∅, [], ∅⟩)
      (hpending : st'.pending = st.pending.insert xt.id
        (attachBuffered xt ((st.mailboxBuffer.lookup xt.instanceId).getD [])))
      (hindex : st'.mailboxIndex = st.mailboxIndex.insert xt.instanceId xt.id)
      (hbuffer : st'.mailboxBuffer = st.mailboxBuffer.erase xt.instanceId) :
      Admission cfg st st' op xt

/-- A registration that did not happen leaves all three alone. -/
def Refused (st st' : CoordinatorState) : Prop :=
  st'.pending = st.pending ∧ st'.mailboxIndex = st.mailboxIndex ∧
    st'.mailboxBuffer = st.mailboxBuffer

theorem submitXt_admission (txs : RawTxs) :
    ((Op.submitXt txs).registers cfg st = none ∧
        Refused st ((Op.submitXt txs).apply cfg st)) ∨
      ∃ xt, Admission cfg st ((Op.submitXt txs).apply cfg st) (.submitXt txs) xt := by
  have h := submitXt_effect cfg st txs
  cases hr : submitXt cfg st txs with
  | mk st' outcome =>
    rw [hr] at h
    have happly : (Op.submitXt txs).apply cfg st = st' := congrArg Prod.fst hr
    rw [happly]
    cases h with
    | rejected | duplicate | full =>
      exact Or.inl ⟨by simp only [Op.registers, hr], rfl, rfl, rfl⟩
    | @registered xt hxt hstale hroom =>
      exact Or.inr ⟨xt, .submitted _ txs rfl (by simp only [Op.registers, hr]) hxt rfl rfl rfl⟩

/-- The three handlers that register, said once. -/
theorem admission (op : Op)
    (hop : (∃ txs, op = .submitXt txs) ∨ (∃ id txs origin seq, op = .forwardXt id txs origin seq) ∨
      ∃ inst, op = .startInstance inst) :
    (op.registers cfg st = none ∧ Refused st (op.apply cfg st)) ∨
      ∃ xt, Admission cfg st (op.apply cfg st) op xt := by
  rcases hop with ⟨txs, rfl⟩ | ⟨id, txs, origin, seq, rfl⟩ | ⟨inst, rfl⟩
  · exact submitXt_admission cfg st txs
  · rcases forwardXt_cases cfg st id txs origin seq with ⟨hno, hs⟩ | ⟨hnew, ho, hs⟩
    · left
      refine ⟨?_, ?_⟩
      · simp only [Op.registers]
      · rw [Op.apply, hs]
        exact ⟨rfl, rfl, rfl⟩
    · right
      refine ⟨forwardedXt cfg id (cleanTxs txs) origin seq, ?_⟩
      rw [Op.apply, hs]
      exact .drained _ .forwarded (by simp) (by simp only [Op.registers, ho]; rfl) hnew
        (Or.inl rfl) rfl rfl rfl rfl
  · rcases registerStarted_cases cfg st inst with ⟨hno, hs⟩ | ⟨period, hnew, ho, hs⟩
    · left
      refine ⟨?_, ?_⟩
      · simp only [Op.registers]
      · rw [Op.apply, hs]
        exact ⟨rfl, rfl, rfl⟩
    · right
      refine ⟨startedXt cfg inst, ?_⟩
      rw [Op.apply, hs]
      exact .drained _ .started (by simp) (by simp only [Op.registers, ho]; rfl) hnew
        (Or.inr rfl) rfl rfl rfl rfl

/-- The locked parts of the three handlers that register. -/
def Op.admits : Op → Bool
  | .submitXt _ | .forwardXt _ _ _ _ | .startInstance _ => true
  | _ => false

/-- The locked parts that do not change how messages find their instance. -/
def Op.leavesRoutes : Op → Bool
  | .sendVote _ _ _ _ | .peerVote _ _ _ _ | .onDecision _ _ _ | .startPeriod _ _ | .confirm _ _
  | .enqueue _ _ | .resolve _ | .lockChain _ | .recordSimulation _ _ _ | .fulfill _ _
  | .dispatch _ _ => true
  | _ => false

theorem routes_of_leavesRoutes (op : Op) (h : op.leavesRoutes = true) :
    (op.apply cfg st).mailboxIndex = st.mailboxIndex ∧
      (op.apply cfg st).mailboxBuffer = st.mailboxBuffer := by
  have hregistry : op.keepsRegistry = true →
      (op.apply cfg st).mailboxIndex = st.mailboxIndex ∧
        (op.apply cfg st).mailboxBuffer = st.mailboxBuffer := by
    intro hkeeps
    have hsame := registry_apply cfg st hkeeps
    exact ⟨congrArg Registry.mailboxIndex hsame, congrArg Registry.mailboxBuffer hsame⟩
  cases op with
  | submitXt | forwardXt | startInstance | removePending | rollback | cleanup | mailbox =>
    simp [Op.leavesRoutes] at h
  | startPeriod periodId now => exact ⟨rfl, rfl⟩
  | sendVote | peerVote | onDecision | confirm | enqueue | resolve | lockChain | recordSimulation
    | fulfill | dispatch => exact hregistry rfl

end Routing

section MailEffect

variable (cfg : Config) (st : CoordinatorState)

theorem attaches_of_admits {op : Op} (h : op.admits = true) {id : InstanceId}
    (hreg : (op.registers cfg st).map Prod.fst ≠ some id) : op.attaches cfg st id = [] := by
  unfold Op.attaches
  rw [if_neg hreg]
  cases op <;> first | rfl | simp [Op.admits] at h

theorem consumes_of_admits {op : Op} (h : op.admits = true) (id : InstanceId) :
    op.consumes st id = [] := by
  cases op <;> first | rfl | simp [Op.admits] at h

theorem admission_of_admits {op : Op} (h : op.admits = true) :
    (op.registers cfg st = none ∧ Refused st (op.apply cfg st)) ∨
      ∃ xt, Admission cfg st (op.apply cfg st) op xt := by
  apply admission
  cases op with
  | submitXt txs => exact Or.inl ⟨txs, rfl⟩
  | forwardXt id txs origin seq => exact Or.inr (Or.inl ⟨id, txs, origin, seq, rfl⟩)
  | startInstance inst => exact Or.inr (Or.inr ⟨inst, rfl⟩)
  | _ => simp [Op.admits] at h

/-- The entry that a registration leaves, with its fresh mailbox. -/
theorem Admission.entry {cfg : Config} {st st' : CoordinatorState} {op : Op} {xt : PendingXt}
    (h : Admission cfg st st' op xt) :
    ∃ xt', st'.pending = st.pending.insert xt.id xt' ∧ xt'.instanceId = xt.instanceId ∧
      xt'.mail = ⟨xt'.instanceId, xt'.pendingMailbox, [], ∅, [], ∅⟩ ∧
      ∀ msg ∈ xt'.pendingMailbox,
        msg ∈ (st.mailboxBuffer.lookup xt.instanceId).getD [] := by
  cases h with
  | submitted txs hop hreg hxt hpending hindex hbuffer =>
    refine ⟨xt, hpending, rfl, ?_, ?_⟩
    · rw [hxt]
      rfl
    · rw [hxt]
      intro msg hmsg
      simp [standaloneXt] at hmsg
  | drained route hop hreg hnew hraw hfresh hpending hindex hbuffer =>
    have hempty : xt.pendingMailbox = [] := congrArg XtMail.pendingMailbox hfresh
    refine ⟨attachBuffered xt _, hpending, rfl, ?_, ?_⟩
    · have hmail : (attachBuffered xt ((st.mailboxBuffer.lookup xt.instanceId).getD [])).mail =
          { xt.mail with
            pendingMailbox := xt.pendingMailbox ++
              (st.mailboxBuffer.lookup xt.instanceId).getD [] } := rfl
      rw [hmail, hfresh]
      rfl
    · intro msg hmsg
      simpa [attachBuffered, hempty] using hmsg

theorem Admission.registers {cfg : Config} {st st' : CoordinatorState} {op : Op} {xt : PendingXt}
    (h : Admission cfg st st' op xt) : (op.registers cfg st).map Prod.fst = some xt.id := by
  cases h with
  | submitted txs hop hreg hxt hpending hindex hbuffer =>
    rw [hreg]
    rfl
  | drained route hop hreg hnew hraw hfresh hpending hindex hbuffer =>
    rw [hreg]
    rfl

theorem mailEffect_of_admits {op : Op} (h : op.admits = true) (id : InstanceId) :
    MailEffect cfg st op id (st.pending.lookup id) ((op.apply cfg st).pending.lookup id) := by
  have hother : (op.registers cfg st).map Prod.fst ≠ some id →
      MailEffect cfg st op id (st.pending.lookup id) (st.pending.lookup id) := by
    intro hreg
    cases hl : st.pending.lookup id with
    | none => exact .absent _
    | some xt =>
      exact .kept hreg (attaches_of_admits cfg st h hreg) (consumes_of_admits st h id) rfl
  rcases admission_of_admits cfg st h with ⟨hreg, hsame⟩ | ⟨xt, hadm⟩
  · rw [hsame.1]
    exact hother (by simp [hreg])
  · obtain ⟨xt', hpending, -, hmail, -⟩ := hadm.entry
    rw [hpending, Map.lookup_insert_eq]
    by_cases hid : id = xt.id
    · rw [if_pos hid]
      exact .registered _ (hid ▸ hadm.registers) hmail
    · rw [if_neg hid]
      refine hother (fun hreg => hid ?_)
      rw [hadm.registers] at hreg
      exact (Option.some.inj hreg).symm

/-- A change of one entry covers all instances when it covers its own. -/
theorem mailEffect_updateXt {op : Op} {i id : InstanceId} {f : PendingXt → PendingXt}
    (hreg : op.registers cfg st = none)
    (hself : ∀ xt, st.pending.lookup i = some xt →
      MailEffect cfg st op i (some xt) (some (f xt)))
    (hother : i ≠ id → op.attaches cfg st id = [] ∧ op.consumes st id = []) :
    MailEffect cfg st op id (st.pending.lookup id) ((st.updateXt i f).pending.lookup id) := by
  rw [lookup_updateXt]
  by_cases hid : id = i
  · rw [if_pos hid]
    subst hid
    cases hl : st.pending.lookup id with
    | none => exact .absent _
    | some xt => exact hself xt hl
  · rw [if_neg hid]
    cases hl : st.pending.lookup id with
    | none => exact .absent _
    | some xt =>
      have hquiet := hother (Ne.symm hid)
      exact .kept (by simp [hreg]) hquiet.1 hquiet.2 rfl

theorem mailEffect_same {op : Op} {id : InstanceId} (hreg : op.registers cfg st = none)
    (hquiet : op.attaches cfg st id = [] ∧ op.consumes st id = []) :
    MailEffect cfg st op id (st.pending.lookup id) (st.pending.lookup id) := by
  cases hl : st.pending.lookup id with
  | none => exact .absent _
  | some xt => exact .kept (by simp [hreg]) hquiet.1 hquiet.2 rfl

theorem pending_bufferOrphanMailbox (msg : MailboxMessage) :
    (st.bufferOrphanMailbox msg).pending = st.pending := by
  unfold CoordinatorState.bufferOrphanMailbox
  split <;> split_ifs <;> rfl

theorem attaches_mailbox (msg : MailboxMessage) (id : InstanceId) :
    (Op.mailbox msg).attaches cfg st id =
      if st.mailboxIndex.lookup msg.instanceId = some id ∧ id ∈ st.pending then [msg] else [] :=
  rfl

/-- What a locked part can do to the mailbox of an instance, said once for all parts. -/
theorem mailEffect (op : Op) (id : InstanceId) :
    MailEffect cfg st op id (st.pending.lookup id) ((op.apply cfg st).pending.lookup id) := by
  cases op with
  | submitXt | forwardXt | startInstance => exact mailEffect_of_admits cfg st rfl id
  | mailbox msg =>
    simp only [Op.apply, deliverMailbox]
    cases hindex : st.mailboxIndex.lookup msg.instanceId with
    | some i =>
      refine mailEffect_updateXt cfg st rfl (fun xt hl => .delivered msg rfl hindex) (fun hne => ?_)
      refine ⟨?_, rfl⟩
      rw [attaches_mailbox, hindex, if_neg]
      exact fun hc => hne (Option.some.inj hc.1)
    | none =>
      rw [pending_bufferOrphanMailbox]
      refine mailEffect_same cfg st rfl ⟨?_, rfl⟩
      rw [attaches_mailbox, hindex, if_neg]
      simp
  | recordSimulation i result base =>
    simp only [Op.apply, recordSimulationState]
    have hquiet : ∀ j, (Op.recordSimulation i result base).attaches cfg st j = [] ∧
        (Op.recordSimulation i result base).consumes st j = [] := fun j => ⟨rfl, rfl⟩
    split_ifs with hm
    · cases keptOverrides result <;>
        exact mailEffect_updateXt cfg st rfl (fun xt _ => .recorded result base rfl)
          (fun _ => hquiet id)
    · exact mailEffect_same cfg st rfl (hquiet id)
  | fulfill i deps =>
    simp only [Op.apply, fulfillDependenciesFromMailbox]
    cases hl : st.pending.lookup i with
    | none =>
      refine mailEffect_same cfg st rfl ⟨rfl, ?_⟩
      simp only [Op.consumes]
      split_ifs with hid
      · rw [← hid, hl]
        rfl
      · rfl
    | some xt =>
      refine mailEffect_updateXt cfg st rfl (fun x hx => ?_) (fun hne => ⟨rfl, ?_⟩)
      · rw [Option.some.inj (hx.symm.trans hl)]
        exact .fulfilled deps rfl
      · exact if_neg hne
  | removePending | sendVote | peerVote | onDecision | startPeriod | rollback | confirm | cleanup
    | enqueue | resolve | lockChain | dispatch => exact mailEffect_of_leavesMail _ rfl id

end MailEffect

end Sidecar.Coordinator
