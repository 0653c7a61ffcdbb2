import Sidecar.Coordinator.Agreement
import Sidecar.Coordinator.StandaloneVote

namespace Sidecar.Coordinator

open TaskSystem

section Network

/-- The sidecar of chain `n`, without a publisher and with the others as its peers. -/
structure IsPeer (n : ChainId) (cfg : Config) : Prop where
  chainId_eq : cfg.chainId = n
  alone : cfg.publisher = false
  peers : cfg.peerCoordinator = true

/-- The calls that the sidecar of chain `o` has sent; every peer gets each of them. -/
def sentBy (o : ChainId) (w : World) : List Request := w.log.filterMap (peerRequest o)

/-- The calls that each sidecar has got from each other one so far. -/
abbrev Deliveries := ChainId → Inbox

def Deliveries.initial : Deliveries := fun _ _ => []

def writeDelivered (_ : Net) (move : NetMove) (delivered : Deliveries) : Deliveries :=
  match move with
  | .deliver o n request => recordDelivery delivered o n request
  | .node _ _ => delivered

/-- No call is delivered twice, no builder fails, and forwards of the instance are accepted. -/
def reliable (cfg : ChainId → Config) (id : InstanceId) (s : Net × Deliveries) : NetMove → Bool
  | .deliver o n request => decide (request ∈ inFlight (sentBy o (s.1 o)) (s.2 n o))
  | .node n (.run t reply) =>
    builderServes (cfg n) reply t && acceptsForward (cfg n) (s.1 n).shared.st id t
  | .node _ _ => true

/-- A vote on the instance is handled where the instance is registered already. -/
def voteAwaited (id : InstanceId) (net : Net) : NetMove → Bool
  | .node n (.run t _) => awaitsVote (net n).shared.st id t
  | _ => true

/-- The task has no call of a peer to handle, brings no instance to its vote and has nothing to
send. -/
def Task.resting : Task → Bool
  | .request (.forwardedXt _ _ _ _) => false
  | .request (.peerVote _ _ _) => false
  | t => t.owned.isEmpty && t.forwards.isEmpty && t.ballots.isEmpty

/-- No call is in flight between the members, and every `process_xt` has finished. -/
def Quiescent (members : Finset ChainId) (s : Net × Deliveries) : Prop :=
  (∀ o ∈ members, ∀ n ∈ members, o ≠ n → inFlight (sentBy o (s.1 o)) (s.2 n o) = []) ∧
    ∀ n ∈ members, ∀ t ∈ (s.1 n).tasks, t.resting = true

instance (members : Finset ChainId) (s : Net × Deliveries) : Decidable (Quiescent members s) :=
  inferInstanceAs (Decidable (_ ∧ _))

/-- Every chain that takes part in the instance has recorded a decision for it. -/
def DecidedEverywhere (net : Net) (id : InstanceId) (xt : PendingXt) : Prop :=
  ∀ c, xt.runsOn c = true → ∃ d, decisionOf (net c).shared.st id = some d

end Network

section Invariant

variable {cfg : ChainId → Config} {members : Finset ChainId} {id : InstanceId} {net : Net}
  {delivered : Deliveries}

/-- What every sidecar knows of the instance, with the logs of all of them. -/
def NetInstanceInv (id : InstanceId) (s : Net × Deliveries) : Prop :=
  ∀ n, InstanceInv n id (shownBy TaskSystem.log s.1) (s.1 n, s.2 n)

theorem given_of_forward (hi : NetInstanceInv id (net, delivered)) {c : ChainId} {txs : RawTxs}
    {seq : SequenceNumber} (h : .forwardXt id txs seq ∈ (net c).log) :
    GivenBy c id ∧ txsAt (net c).shared.st id = some txs :=
  (hi c).submitted txs (Or.inr (mem_dealt_of_log h rfl))

theorem tracked_notified {t : Task} (h : Tracked id t) : Tracked id t.notified := by
  cases t with
  | process i pc =>
    have hrunning : Task.process i pc.notified ≠ .process id .finished := by
      intro he
      obtain ⟨rfl, hpc⟩ : i = id ∧ pc.notified = .finished := by simpa using he
      cases pc with
      | finished => exact h.running rfl
      | _ => simp [ProcPc.notified] at hpc
    exact ⟨h.standalone, h.kept, hrunning⟩
  | _ => exact h

/-- A call comes in and is noted, if a peer has sent it. -/
theorem instanceInv_arrive {n : ChainId} {logs : ChainId → List Event} {w : World}
    {inbox inbox' : Inbox} {request : Request} (hr : request.standalone = true)
    (hcall : ∀ i txs c seq, request = .forwardedXt i txs c seq →
      c ≠ n ∧ .forwardXt i txs seq ∈ logs c)
    (hinbox : ∀ c, ∀ r ∈ inbox' c, r ∈ inbox c ∨ r = request)
    (hi : InstanceInv n id logs (w, inbox)) :
    InstanceInv n id logs ({ w with tasks := w.tasks ++ [.request request] }, inbox') := by
  refine instanceInv_quiet (quietMove_arrive w request) ?_ ?_ ?_ ?_ hi
  · intro t ht
    rcases List.mem_append.mp ht with hold | hnew
    · exact hi.tasks t hold
    · obtain rfl := List.mem_singleton.mp hnew
      exact ⟨hr, by simp [Task.removing], by simp⟩
  · intro i txs c seq ht
    rcases List.mem_append.mp ht with hold | hnew
    · exact hi.calls i txs c seq hold
    · have he : Request.forwardedXt i txs c seq = request := by simpa using hnew
      exact hcall i txs c seq he.symm
  · intro r ht
    exact List.mem_append_left _ ht
  · intro c r hmem
    rcases hinbox c r hmem with hold | rfl
    · exact Or.inl hold
    · exact Or.inr (List.mem_append_right _ (List.mem_singleton.mpr rfl))

theorem instanceInv_notify {n : ChainId} {logs : ChainId → List Event} {w : World} {inbox : Inbox}
    {before after : List Task} (htasks : w.tasks = before ++ .notifyWaiters :: after)
    (hi : InstanceInv n id logs (w, inbox)) :
    InstanceInv n id logs ({ w with tasks := (before ++ after).map Task.notified }, inbox) := by
  have hmem : ∀ t ∈ before ++ after, t ∈ w.tasks := by
    intro t ht
    rw [htasks]
    simp only [List.mem_append, List.mem_cons] at ht ⊢
    tauto
  refine instanceInv_quiet (quietMove_notify htasks) ?_ ?_ ?_ (fun _ _ h => Or.inl h) hi
  · intro t ht
    obtain ⟨u, hu, rfl⟩ := List.mem_map.mp ht
    exact tracked_notified (hi.tasks u (hmem u hu))
  · intro i txs c seq ht
    obtain ⟨u, hu, he⟩ := List.mem_map.mp ht
    have hcall : u = .request (.forwardedXt i txs c seq) := by
      cases u with
      | process => exact absurd he (by simp [Task.notified])
      | _ => exact he
    exact hi.calls i txs c seq (hcall ▸ hmem u hu)
  · intro request ht
    have hrest : Task.request request ∈ before ++ after := by
      have ht' : Task.request request ∈ before ++ .notifyWaiters :: after := htasks ▸ ht
      simp only [List.mem_append, List.mem_cons] at ht' ⊢
      simpa using ht'
    exact List.mem_map.mpr ⟨_, hrest, rfl⟩

theorem instanceInv_move {n : ChainId} {move : Move} {w' : World} (hc : IsPeer n (cfg n))
    (h : WorldStep (cfg n) (net n) move w') (halone : move.standalone = true)
    (hr : reliable cfg id (net, delivered) (.node n move) = true)
    (ha : voteAwaited id net (.node n move) = true) (hi : NetInstanceInv id (net, delivered)) :
    InstanceInv n id (shownBy TaskSystem.log net) (w', delivered n) := by
  cases h with
  | arrive request =>
    refine instanceInv_arrive ?_ ?_ (fun _ _ h => Or.inl h) (hi n)
    · cases request <;> first | rfl | simp [Move.standalone, Request.fromOutside] at halone
    · intro i txs c seq he
      simp [he, Move.standalone, Request.fromOutside] at halone
  | connection up =>
    exact instanceInv_quiet (quietMove_connection (net n) up) (hi n).tasks (hi n).calls
      (fun _ h => h) (fun _ _ h => Or.inl h) (hi n)
  | @run _ task reply hrun =>
    cases hrun with
    | intro htasks hstep =>
      have hsafe : builderServes (cfg n) reply task = true ∧
          acceptsForward (cfg n) (net n).shared.st id task = true := by
        simpa [reliable] using hr
      exact InstanceStep.instanceInv ⟨hc.chainId_eq, hc.alone, hc.peers, htasks, hstep, hsafe.1,
        hsafe.2, ha, hi n, fun c txs seq hlog => (given_of_forward hi hlog).1⟩
  | notify htasks => exact instanceInv_notify htasks (hi n)

theorem instanceInv_deliver {o n : ChainId} {e : Event} {request : Request} (hne : o ≠ n)
    (he : e ∈ (net o).log) (hr : peerRequest o e = some request)
    (hi : NetInstanceInv id (net, delivered)) :
    InstanceInv n id (shownBy TaskSystem.log net)
      ({ net n with tasks := (net n).tasks ++ [.request request] },
        recordDelivery delivered o n request n) := by
  refine instanceInv_arrive ?_ ?_ (fun c r h => mem_recordDelivery h) (hi n)
  · cases e with
    | forwardXt | peerVote =>
      obtain rfl := Option.some.inj hr
      rfl
    | _ => simp [peerRequest] at hr
  · intro i txs c seq hreq
    cases e with
    | forwardXt i' txs' seq' =>
      rw [hreq] at hr
      obtain ⟨rfl, rfl, rfl, rfl⟩ : i' = i ∧ txs' = txs ∧ o = c ∧ seq' = seq := by
        simpa [peerRequest] using hr
      exact ⟨hne, he⟩
    | peerVote =>
      rw [hreq] at hr
      simp [peerRequest] at hr
    | _ => simp [peerRequest] at hr

theorem netInstanceInv_step (hcfg : ∀ n ∈ members, IsPeer n (cfg n)) {s s' : Net × Deliveries}
    {move : NetMove} (h : Recorded (NetStep cfg members) writeDelivered s move s')
    (hr : reliable cfg id s move = true) (ha : voteAwaited id s.1 move = true)
    (hi : NetInstanceInv id s) : NetInstanceInv id s' := by
  obtain ⟨net, delivered⟩ := s
  obtain ⟨net', delivered'⟩ := s'
  obtain ⟨hstep, hwrite⟩ := h
  -- one node moves, and the calls it has got stay or are one more
  have hmove : ∀ {n : ChainId} {w' : World} {inbox : Inbox}, (net n).log ⊆ w'.log →
      InstanceInv n id (shownBy TaskSystem.log net) (w', inbox) →
      NetInstanceInv id (Function.update net n w', Function.update delivered n inbox) := by
    intro n w' inbox hgrow hnode k
    have hall := @invariant_update ChainId (World × Inbox) Event _ (fun p => p.1.log)
      (fun logs n p => InstanceInv n id logs p) instanceInv_mono (fun k => (net k, delivered k)) n
      (w', inbox) hgrow hnode hi k
    rw [← update_pair] at hall
    exact hall
  cases hstep with
  | @node n move w' hn hw halone =>
    have hkeep : delivered' = Function.update delivered n (delivered n) := by
      rw [Function.update_eq_self]
      exact hwrite
    rw [hkeep]
    exact hmove (log_worldStep hw) (instanceInv_move (hcfg n hn) hw halone hr ha hi)
  | @deliver o n e request ho hn hne he hreq =>
    have hnoted : delivered' = Function.update delivered n (recordDelivery delivered o n request n) := by
      simp only [recordDelivery, Function.update_self]
      exact hwrite
    rw [hnoted]
    exact hmove (List.Subset.refl _) (instanceInv_deliver hne he hreq hi)

end Invariant

section Settled

variable {members : Finset ChainId} {id : InstanceId} {net : Net} {delivered : Deliveries}

theorem resting_holds {t : Task} (h : t.resting = true) :
    t.owned = [] ∧ t.forwards = [] ∧ t.ballots = [] := by
  cases t with
  | request request => exact ⟨rfl, rfl, rfl⟩
  | _ => simpa [Task.resting, and_assoc] using h

/-- What resting tasks would have had in their hands has been shown. -/
theorem shown_of_dealt {β : Type} {f : Task → List β} {g : Event → Option β} {w : World} {b : β}
    (hrest : ∀ t ∈ w.tasks, f t = []) (h : b ∈ dealt f g w) : ∃ e ∈ w.log, g e = some b := by
  rcases List.mem_append.mp h with hheld | hlog
  · obtain ⟨t, ht, hb⟩ := mem_held.mp hheld
    simp [hrest t ht] at hb
  · exact List.mem_filterMap.mp hlog

theorem not_owned (hq : Quiescent members (net, delivered)) {n : ChainId} (hn : n ∈ members) :
    id ∉ (net n).held Task.owned := by
  intro h
  obtain ⟨t, ht, ho⟩ := mem_held.mp h
  simp [(resting_holds (hq.2 n hn t ht)).1] at ho

/-- In a quiescent state a call that has been sent is handled. -/
theorem handled_of_sent (hi : NetInstanceInv id (net, delivered)) (hq : Quiescent members (net, delivered))
    {o n : ChainId} (ho : o ∈ members) (hn : n ∈ members) (hne : o ≠ n) {e : Event}
    (he : e ∈ (net o).log) {request : Request} (hr : peerRequest o e = some request) :
    Handled id (net n).shared.st request := by
  have hsent : request ∈ sentBy o (net o) := List.mem_filterMap.mpr ⟨e, he, hr⟩
  have harrived := delivered_of_sent (hq.1 o ho n hn hne) hsent
  rcases (hi n).received o request harrived with hwaits | hdone
  · have hrest := hq.2 n hn _ hwaits
    cases e with
    | forwardXt | peerVote =>
      obtain rfl := Option.some.inj hr
      simp [Task.resting] at hrest
    | _ => simp [peerRequest] at hr
  · exact hdone

/-- The origin has forwarded the instance. -/
theorem forward_sent (hi : NetInstanceInv id (net, delivered)) (hq : Quiescent members (net, delivered))
    {o : ChainId} (ho : o ∈ members) (hgiven : GivenBy o id) {xt : PendingXt}
    (hl : (net o).shared.st.pending.lookup id = some xt) :
    ∃ seq, .forwardXt id xt.rawTxs seq ∈ (net o).log := by
  rcases (hi o).forwarding hgiven xt.rawTxs (by rw [txsAt, hl]; rfl) with hreg | hforward
  · exact absurd (owned_of_registrar hreg) (not_owned hq ho)
  · obtain ⟨e, he, hshown⟩ := shown_of_dealt
      (fun t ht => (resting_holds (hq.2 o ho t ht)).2.1) hforward
    cases e with
    | forwardXt i txs seq =>
      obtain ⟨rfl, rfl⟩ : i = id ∧ txs = xt.rawTxs := by simpa [forwardEvent] using hshown
      exact ⟨seq, he⟩
    | _ => simp [forwardEvent] at hshown

/-- A sidecar with transactions of the instance has voted, and has sent its vote. -/
theorem vote_sent (hi : NetInstanceInv id (net, delivered)) (hq : Quiescent members (net, delivered))
    {n : ChainId} (hn : n ∈ members) {xt : PendingXt}
    (hl : (net n).shared.st.pending.lookup id = some xt) (hruns : xt.runsOn n = true) :
    ∃ vote, xt.localVote = some vote ∧ .peerVote id vote ∈ (net n).log := by
  cases hv : xt.localVote with
  | none =>
    obtain ⟨t, ht, hvoter⟩ := mem_held.mp ((hi n).voting xt hl hruns hv)
    exact absurd (mem_held.mpr ⟨t, ht, owned_of_voter hvoter⟩) (not_owned hq hn)
  | some vote =>
    obtain ⟨e, he, hshown⟩ := shown_of_dealt
      (fun t ht => (resting_holds (hq.2 n hn t ht)).2.2) ((hi n).cast xt vote hl hv)
    cases e with
    | peerVote i v =>
      obtain ⟨rfl, rfl⟩ : i = id ∧ v = vote := by simpa [ballotEvent] using hshown
      exact ⟨v, rfl, he⟩
    | _ => simp [ballotEvent] at hshown

/-- The transactions of an entry are those of the origin's, without empty chains. -/
theorem txs_of_origin (hi : NetInstanceInv id (net, delivered)) {o n : ChainId} (hgiven : GivenBy o id)
    {xt x : PendingXt} (hl : (net o).shared.st.pending.lookup id = some xt)
    (hx : (net n).shared.st.pending.lookup id = some x) :
    x.rawTxs = xt.rawTxs ∨ x.rawTxs = cleanTxs xt.rawTxs := by
  have horigin : ∀ c, GivenBy c id → c = o := by
    intro c hc
    obtain ⟨k, hk⟩ := hgiven
    obtain ⟨k', hk'⟩ := hc
    exact (InstanceId.standalone_inj (hk'.symm.trans hk)).1
  rcases (hi n).origins x hx with hn | ⟨c, txs, seq, hlog, htxs⟩
  · have hxt : xt = x := by
      rw [horigin n hn, hl] at hx
      exact Option.some.inj hx
    exact Or.inl (by rw [hxt])
  · obtain ⟨hc, hat⟩ := given_of_forward hi hlog
    rw [horigin c hc, txsAt, hl] at hat
    rw [htxs, ← Option.some.inj hat]
    exact Or.inr rfl

/-- Every member has an entry, for the same chains with transactions and no others. -/
theorem entry_everywhere (hi : NetInstanceInv id (net, delivered))
    (hq : Quiescent members (net, delivered)) {o n : ChainId} (ho : o ∈ members) (hn : n ∈ members)
    (hgiven : GivenBy o id) {xt : PendingXt}
    (hl : (net o).shared.st.pending.lookup id = some xt) :
    ∃ x, (net n).shared.st.pending.lookup id = some x ∧
      ∀ c, x.runsOn c = xt.runsOn c ∧ (c ∈ x.rawTxs → c ∈ xt.rawTxs) := by
  have hentry : ∃ x, (net n).shared.st.pending.lookup id = some x := by
    by_cases hne : o = n
    · exact ⟨xt, hne ▸ hl⟩
    · obtain ⟨seq, hlog⟩ := forward_sent hi hq ho hgiven hl
      exact handled_of_sent hi hq ho hn hne hlog rfl rfl
  obtain ⟨x, hx⟩ := hentry
  refine ⟨x, hx, fun c => ?_⟩
  rcases txs_of_origin hi hgiven hl hx with htxs | htxs
  · exact ⟨runsOn_of_rawTxs htxs c, fun hc => by rwa [htxs] at hc⟩
  · have hruns : x.runsOn c = xt.runsOn c := by
      rw [PendingXt.runsOn, PendingXt.runsOn, PendingXt.txsOf, PendingXt.txsOf, htxs, txs_cleanTxs]
    refine ⟨hruns, fun hc => ?_⟩
    rw [htxs] at hc
    have hhas : xt.runsOn c = true := hasTxs_of_mem_cleanTxs hc
    exact mem_rawTxs_of_runsOn hhas

/-- Every member that takes part has the vote of every chain of the instance. -/
theorem voted_by_all (hi : NetInstanceInv id (net, delivered)) (hq : Quiescent members (net, delivered))
    {o m c : ChainId} (ho : o ∈ members) (hm : m ∈ members) (hc : c ∈ members)
    (hgiven : GivenBy o id) {xt x : PendingXt}
    (hl : (net o).shared.st.pending.lookup id = some xt) (hruns : xt.runsOn c = true)
    (hx : (net m).shared.st.pending.lookup id = some x) (hnone : x.decision = none) :
    voteOf m x c ≠ none := by
  obtain ⟨y, hy, hsame⟩ := entry_everywhere hi hq ho hc hgiven hl
  obtain ⟨vote, hv, hlog⟩ := vote_sent hi hq hc hy ((hsame c).1.trans hruns)
  unfold voteOf
  split_ifs with hcm
  · subst hcm
    obtain rfl := Option.some.inj (hy.symm.trans hx)
    simp [hv]
  · obtain ⟨x', hx', hheard⟩ := handled_of_sent hi hq hc hm hcm hlog rfl rfl
    obtain rfl := Option.some.inj (hx.symm.trans hx')
    rcases hheard with hdecided | hmem
    · exact absurd hnone hdecided
    · exact Option.isSome_iff_ne_none.mp (AList.lookup_isSome.mpr hmem)

theorem decided_of_quiescent (hi : NetInstanceInv id (net, delivered))
    (hq : Quiescent members (net, delivered)) {o : ChainId} (hgiven : GivenBy o id)
    {xt : PendingXt} (hl : (net o).shared.st.pending.lookup id = some xt)
    (horigin : xt.runsOn o = true) (hmembers : ∀ c, xt.runsOn c = true → c ∈ members)
    (hlisted : ∀ c ∈ xt.rawTxs, xt.runsOn c = true) : DecidedEverywhere net id xt := by
  intro m hm
  have ho := hmembers o horigin
  obtain ⟨x, hx, hsame⟩ := entry_everywhere hi hq ho (hmembers m hm) hgiven hl
  cases hd : x.decision with
  | some d => exact ⟨d, by simp [decisionOf, hx, hd]⟩
  | none =>
    exfalso
    have hkeys : ∀ c ∈ x.rawTxs.keys, voteOf m x c ≠ none := by
      intro c hc
      have hruns := hlisted c ((hsame c).2 (AList.mem_keys.mpr hc))
      exact voted_by_all hi hq ho (hmembers m hm) (hmembers c hruns) hgiven hl hruns hx hd
    have hmem : m ∈ x.rawTxs.keys :=
      AList.mem_keys.mp (mem_rawTxs_of_runsOn ((hsame m).1.trans hm))
    exact (hi m).counted x hx hd ⟨List.length_pos_of_mem hmem, enough_votes hkeys⟩

/-- No vote is lost between sidecars without a publisher as long as every vote on the instance
is handled where it is registered: when all calls have been delivered and handled, and every
`process_xt` has finished, every chain that takes part has recorded a decision. The chains
without transactions that a submission may list are dropped before `submit_xt` is called. -/
theorem votes_decide_everywhere (members : Finset ChainId) (cfg : ChainId → Config)
    (hcfg : ∀ n ∈ members, IsPeer n (cfg n)) (o : ChainId) (k : SequenceNumber)
    {moves : List NetMove} {net : Net} {delivered : Deliveries}
    (hrun : Run (fun s move s' => Recorded (NetStep cfg members) writeDelivered s move s' ∧
      reliable cfg (InstanceId.standalone o k) s move = true ∧
      voteAwaited (InstanceId.standalone o k) s.1 move = true)
      (Net.initial, Deliveries.initial) moves (net, delivered))
    (hq : Quiescent members (net, delivered)) {xt : PendingXt}
    (hl : (net o).shared.st.pending.lookup (InstanceId.standalone o k) = some xt)
    (horigin : xt.runsOn o = true) (hmembers : ∀ c, xt.runsOn c = true → c ∈ members)
    (hlisted : ∀ c ∈ xt.rawTxs, xt.runsOn c = true) :
    DecidedEverywhere net (InstanceId.standalone o k) xt := by
  have hinv := hrun.invariant (I := NetInstanceInv (InstanceId.standalone o k))
    (fun _ _ _ hi hstep => netInstanceInv_step hcfg hstep.1 hstep.2.1 hstep.2.2 hi)
    (fun _ => instanceInv_initial)
  exact decided_of_quiescent hinv hq ⟨k, rfl⟩ hl horigin hmembers hlisted

end Settled

section Exec

/-- Transactions for chains 1, 2 and 3. -/
def threeChainTxs : RawTxs := [⟨1, [[0x01]]⟩, ⟨2, [[0x02]]⟩, ⟨3, [[0x03]]⟩].toAList

/-- Chain 1 submits the instance, forwards it and votes; chain 2 takes part in it. -/
def threeChainPicks : List NetPick :=
  [.node 1 (.arrive (.submitXt threeChainTxs 0))] ++ nodeRuns 1 0 4 ++ nodeRuns 1 1 2 ++
    nodeRuns 1 0 8 ++ participantPicks 1 2

/-- The vote of chain 2 arrives at chain 3 and is handled. -/
def secondVotePicks : List NetPick := [.deliver 2 3 1, .node 3 (.run 0 {})]

/-- The other votes arrive and are handled. -/
def otherVotePicks : List NetPick :=
  [.deliver 1 3 2, .node 3 (.run 0 {}), .deliver 1 2 2, .node 2 (.run 0 {}),
    .deliver 2 1 1, .node 1 (.run 0 {}), .deliver 3 1 1, .node 1 (.run 0 {}),
    .deliver 3 2 1, .node 2 (.run 0 {})]

/-- What the runs of the three chains are judged by. -/
def threeChainView (s : Net × Deliveries) : List (Option Bool) × Bool × Bool :=
  ([1, 2, 3].map (fun n => decisionOf (s.1 n).shared.st "xt-1-1"),
    decide (Quiescent {1, 2, 3} s),
    decide (txsAt (s.1 1).shared.st "xt-1-1" = some threeChainTxs))

/-- The entry at the origin, from its transactions. -/
theorem threeChain_entry {st : CoordinatorState}
    (h : txsAt st "xt-1-1" = some threeChainTxs) :
    ∃ xt, st.pending.lookup "xt-1-1" = some xt ∧ xt.runsOn 1 = true ∧ xt.runsOn 3 = true ∧
      (∀ c, xt.runsOn c = true → c ∈ ({1, 2, 3} : Finset ChainId)) ∧
      ∀ c ∈ xt.rawTxs, xt.runsOn c = true := by
  obtain ⟨xt, hl, htxs⟩ := Option.map_eq_some_iff.mp h
  have hruns : ∀ c, xt.runsOn c = hasTxs threeChainTxs c := by
    intro c
    rw [← htxs]
    rfl
  have hkeys : ∀ c ∈ xt.rawTxs, c = 1 ∨ c = 2 ∨ c = 3 := by
    intro c hc
    have hlist : threeChainTxs.keys = [1, 2, 3] := by decide
    rw [htxs, AList.mem_keys, hlist] at hc
    simpa using hc
  refine ⟨xt, hl, ?_, ?_, ?_, ?_⟩
  · rw [hruns]
    decide
  · rw [hruns]
    decide
  · intro c hc
    simpa using hkeys c (mem_rawTxs_of_runsOn hc)
  · intro c hc
    rw [hruns]
    rcases hkeys c hc with rfl | rfl | rfl <;> decide

/-- The forward reaches chain 3 before the vote of chain 2: all three commit. -/
theorem votes_decide_everywhere_in_order : ∃ moves net delivered xt,
    Run (fun s move s' => Recorded (NetStep peerConfig {1, 2, 3}) writeDelivered s move s' ∧
      reliable peerConfig (InstanceId.standalone 1 1) s move = true ∧
      voteAwaited (InstanceId.standalone 1 1) s.1 move = true)
      (Net.initial, Deliveries.initial) moves (net, delivered) ∧
    Quiescent {1, 2, 3} (net, delivered) ∧
    (net 1).shared.st.pending.lookup (InstanceId.standalone 1 1) = some xt ∧
    DecidedEverywhere net (InstanceId.standalone 1 1) xt := by
  have hexec : (execAll (recordPick (netPickStep peerConfig {1, 2, 3}) writeDelivered)
      (fun s move => decide (reliable peerConfig "xt-1-1" s move = true ∧
        voteAwaited "xt-1-1" s.1 move = true))
      (threeChainPicks ++ participantPicks 1 3 ++ secondVotePicks ++ otherVotePicks)
      (Net.initial, Deliveries.initial)).map threeChainView =
        some ([some true, some true, some true], true, true) := by
    decide +kernel
  obtain ⟨s, hs, hview⟩ := Option.map_eq_some_iff.mp hexec
  obtain ⟨-, hq, htxs⟩ : _ ∧ Quiescent {1, 2, 3} s ∧
      txsAt (s.1 1).shared.st "xt-1-1" = some threeChainTxs := by
    simpa [threeChainView] using hview
  obtain ⟨xt, hl, horigin, -, hmembers, hlisted⟩ := threeChain_entry htxs
  obtain ⟨moves, hrun⟩ := run_execAll (recorded_of_recordPick netStep_of_pick) hs
  exact ⟨moves, s.1, s.2, xt, hrun, hq, hl,
    votes_decide_everywhere {1, 2, 3} peerConfig (fun _ _ => ⟨rfl, rfl, rfl⟩) 1 1 hrun hq hl horigin
      hmembers hlisted⟩

/-- The vote of chain 2 reaches chain 3 before the forward does. It is turned away as a vote on
an unknown instance and not sent again; chain 3 never decides. -/
theorem overtaking_vote_lost : ∃ moves net delivered xt,
    Run (fun s move s' => Recorded (NetStep peerConfig {1, 2, 3}) writeDelivered s move s' ∧
      reliable peerConfig (InstanceId.standalone 1 1) s move = true)
      (Net.initial, Deliveries.initial) moves (net, delivered) ∧
    Quiescent {1, 2, 3} (net, delivered) ∧
    (net 1).shared.st.pending.lookup (InstanceId.standalone 1 1) = some xt ∧
    xt.runsOn 1 = true ∧ (∀ c, xt.runsOn c = true → c ∈ ({1, 2, 3} : Finset ChainId)) ∧
    (∀ c ∈ xt.rawTxs, xt.runsOn c = true) ∧
    decisionOf (net 1).shared.st (InstanceId.standalone 1 1) = some true ∧
    ¬DecidedEverywhere net (InstanceId.standalone 1 1) xt := by
  have hexec : (execAll (recordPick (netPickStep peerConfig {1, 2, 3}) writeDelivered)
      (fun s move => decide (reliable peerConfig "xt-1-1" s move = true))
      (threeChainPicks ++ secondVotePicks ++ participantPicks 1 3 ++ otherVotePicks)
      (Net.initial, Deliveries.initial)).map threeChainView =
        some ([some true, some true, none], true, true) := by
    decide +kernel
  obtain ⟨s, hs, hview⟩ := Option.map_eq_some_iff.mp hexec
  obtain ⟨⟨hd1, -, hd3⟩, hq, htxs⟩ :
      (decisionOf (s.1 1).shared.st "xt-1-1" = some true ∧ _ ∧
        decisionOf (s.1 3).shared.st "xt-1-1" = none) ∧
      Quiescent {1, 2, 3} s ∧
      txsAt (s.1 1).shared.st "xt-1-1" = some threeChainTxs := by
    simpa [threeChainView] using hview
  obtain ⟨xt, hl, horigin, hthird, hmembers, hlisted⟩ := threeChain_entry htxs
  obtain ⟨moves, hrun⟩ := run_execAll (recorded_of_recordPick netStep_of_pick) hs
  have hundecided : ¬DecidedEverywhere s.1 (InstanceId.standalone 1 1) xt := by
    intro hall
    obtain ⟨d, hd⟩ := hall 3 hthird
    exact absurd (hd3.symm.trans hd) (by simp)
  exact ⟨moves, s.1, s.2, xt, hrun, hq, hl, horigin, hmembers, hlisted, hd1,
    hundecided⟩

end Exec

end Sidecar.Coordinator
