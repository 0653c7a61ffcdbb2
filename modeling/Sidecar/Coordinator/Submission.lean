import Sidecar.Coordinator.Entry
import Sidecar.Coordinator.WorldRun

namespace Sidecar.Coordinator

open TaskSystem

/-- The submission of a caller that a handler goes on with. -/
def Registrar.submission : Registrar → List (InstanceId × RawTxs)
  | .submitted id txs => [(id, txs)]
  | _ => []

/-- The submission that a task has still to read the counter for. -/
def Task.unread : Task → List (InstanceId × RawTxs)
  | .submit _ registrar => registrar.submission
  | .submitting registrar => registrar.submission
  | .registered registrar => registrar.submission
  | .forwardXt id txs => [(id, txs)]
  | _ => []

/-- The forward that a task has put together. -/
def Task.sending : Task → List (InstanceId × RawTxs × SequenceNumber)
  | .forwarding id txs originSeq => [(id, txs, originSeq)]
  | _ => []

def sentForward : Event → Option (InstanceId × RawTxs × SequenceNumber)
  | .forwardXt id txs originSeq => some (id, txs, originSeq)
  | _ => none

theorem lasting_unread : Lasting Task.unread := ⟨fun t => by cases t <;> rfl, fun _ => rfl, rfl⟩

theorem lasting_sending : Lasting Task.sending := ⟨fun t => by cases t <;> rfl, fun _ => rfl, rfl⟩

theorem unread_carries (t : Task) (h : t.carries = false) : t.unread = [] := by
  cases t <;> first | rfl | simp [Task.carries] at h

theorem sending_carries (t : Task) (h : t.carries = false) : t.sending = [] := by
  cases t <;> first | rfl | simp [Task.carries] at h

theorem unread_submitFirst (submission : Option XtBuilderSubmission) (registrar : Registrar) :
    (submitFirst submission registrar).unread = registrar.submission := by
  cases submission <;> rfl

theorem sending_submitFirst (submission : Option XtBuilderSubmission) (registrar : Registrar) :
    (submitFirst submission registrar).sending = [] := by
  cases submission <;> rfl

section Step

variable {cfg : Config} {reply : TaskReply} {sh sh' : Shared} {t : Task} {next : List Task}
  {es : List Event}

/-- The step registers a submission under the next number. -/
structure SubmitsOne (cfg : Config) (sh sh' : Shared) (t : Task) (next : List Task)
    (txs : RawTxs) : Prop where
  task_eq : t = .submitStandalone txs
  registers : (Op.submitXt txs).registers cfg sh.st =
    some (InstanceId.standalone cfg.chainId (sh.st.originSeq + 1), .submitted)
  counted : sh'.st.originSeq = sh.st.originSeq + 1
  entry : sh'.st.pending.lookup (InstanceId.standalone cfg.chainId (sh.st.originSeq + 1)) =
    some (standaloneXt cfg (sh.st.originSeq + 1) txs)
  next_eq : next =
    [submitFirst (localBuilderSubmission cfg.chainId (standaloneXt cfg (sh.st.originSeq + 1) txs))
      (.submitted (InstanceId.standalone cfg.chainId (sh.st.originSeq + 1)) txs)]

/-- No locked part of the step registers a submission. -/
def SubmitsNothing (cfg : Config) (reply : TaskReply) (sh : Shared) (t : Task) : Prop :=
  ∀ op id, taskOp cfg reply t = some op → op.registers cfg sh.st ≠ some (id, .submitted)

theorem submitsOne_of_registers (h : taskStep cfg reply sh t = some (sh', next, es)) {op : Op}
    {id : InstanceId} (hop : taskOp cfg reply t = some op)
    (hr : op.registers cfg sh.st = some (id, .submitted)) :
    ∃ txs, SubmitsOne cfg sh sh' t next txs := by
  obtain ⟨xt, hl, hnew⟩ := newEntry_of_registers h hop hr
  obtain ⟨registrar, hreg, hnext⟩ := hnew.registrar
  have hst : sh'.st = op.apply cfg sh.st := by
    rw [taskStep_state cfg reply sh h, hop]
    rfl
  cases runsOp_of_taskOp hop with
  | submitted txs =>
    cases hreg with
    | submitted txs =>
      obtain ⟨-, sub, ho⟩ := registers_submitXt cfg sh.st hr
      obtain ⟨x, hid, has, -⟩ := registeredAs hr
      cases has with
      | submitted txs =>
        obtain rfl : InstanceId.standalone cfg.chainId (sh.st.originSeq + 1) = id := hid
        refine ⟨txs, rfl, hr, ?_, hl, hnext⟩
        rw [hst]
        exact (originSeq_submitXt cfg sh.st txs).2 _ sub ho
  | forwarded i txs originChain originSeq =>
    obtain ⟨-, hroute, -⟩ := registers_forwardXt cfg sh.st hr
    exact absurd hroute (by decide)
  | started msg htry =>
    obtain ⟨-, hroute, -⟩ := registers_startInstance cfg sh.st hr
    exact absurd hroute (by decide)
  | _ => simp [Op.registers] at hr

/-- A step registers a submission under the next number or leaves the counter alone. -/
theorem submission_cases (h : taskStep cfg reply sh t = some (sh', next, es)) :
    (∃ txs, SubmitsOne cfg sh sh' t next txs) ∨
      (sh'.st.originSeq = sh.st.originSeq ∧ SubmitsNothing cfg reply sh t) := by
  by_cases hreg : ∃ op id, taskOp cfg reply t = some op ∧
      op.registers cfg sh.st = some (id, .submitted)
  · obtain ⟨op, id, hop, hr⟩ := hreg
    exact Or.inl (submitsOne_of_registers h hop hr)
  · refine Or.inr ⟨?_, fun op id hop hr => hreg ⟨op, id, hop, hr⟩⟩
    rw [taskStep_state cfg reply sh h]
    cases hop : taskOp cfg reply t with
    | none => rfl
    | some op =>
      by_cases hsubmit : ∃ txs, op = .submitXt txs
      · obtain ⟨txs, rfl⟩ := hsubmit
        refine originSeq_unregistered cfg sh.st txs (fun id sub ho => hreg ⟨_, id, hop, ?_⟩)
        simp only [Op.registers, ho]
      · exact originSeq_apply cfg sh.st op (fun txs he => hsubmit ⟨txs, he⟩)

theorem SubmitsOne.not_nothing {txs : RawTxs} (h : SubmitsOne cfg sh sh' t next txs) :
    ¬SubmitsNothing cfg reply sh t := by
  intro hno
  exact hno _ _ (by rw [h.task_eq]; rfl) h.registers

/-- A submission that has not read the counter is handed on or has just been registered. -/
theorem unread_step (h : taskStep cfg reply sh t = some (sh', next, es)) {p : InstanceId × RawTxs}
    (hp : p ∈ next.flatMap Task.unread) :
    p ∈ t.unread ∨ ∃ txs, SubmitsOne cfg sh sh' t next txs ∧
      p = (InstanceId.standalone cfg.chainId (sh.st.originSeq + 1), txs) := by
  rcases handsOn_or_drops (taskStep_effect h) with hand | hdrop
  · cases hand with
    | @registered _ xt registrar op route hreg hop hr hl =>
      rw [List.flatMap_singleton, unread_submitFirst] at hp
      cases hreg with
      | submitted txs =>
        obtain rfl : Op.submitXt txs = op := Option.some.inj hop
        obtain ⟨rfl, -⟩ := registers_submitXt cfg sh.st hr
        obtain ⟨txs', hone⟩ := submitsOne_of_registers h rfl hr
        obtain rfl : txs = txs' := Task.submitStandalone.inj hone.task_eq
        exact Or.inr ⟨txs, hone, List.mem_singleton.mp hp⟩
      | forwarded => exact absurd hp List.not_mem_nil
      | started => exact absurd hp List.not_mem_nil
    | proceeded registrar =>
      obtain ⟨u, hu, hmem⟩ := List.mem_flatMap.mp hp
      rcases mem_registrarNext hu with rfl | ⟨_, _, rfl, rfl⟩ | ⟨_, _, rfl⟩
      · exact absurd hmem List.not_mem_nil
      · exact Or.inl hmem
      · exact absurd hmem List.not_mem_nil
    | submitted | notSubmitted | accepted => exact Or.inl (by simpa [Task.unread] using hp)
    | declined | modeChosen | forwardStarted | resolved | processed | processVoted | modeRead =>
      simp [Task.unread] at hp
  · simp [flatMap_of_drops unread_carries hdrop] at hp

/-- A forward is put together from what the counter shows at that moment. -/
theorem sending_step (h : TaskEffect cfg reply sh sh' t next es)
    {p : InstanceId × RawTxs × SequenceNumber} (hp : p ∈ next.flatMap Task.sending) :
    ∃ id txs, t = .forwardXt id txs ∧ p = (id, txs, sh.st.originSeq) := by
  rcases handsOn_or_drops h with hand | hdrop
  · cases hand with
    | forwardStarted id txs => exact ⟨id, txs, rfl, by simpa [Task.sending] using hp⟩
    | registered => simp [sending_submitFirst] at hp
    | proceeded registrar =>
      rw [flatMap_registrarNext cfg (fun _ _ => rfl) (fun _ _ => rfl) (fun _ _ _ => rfl)] at hp
      exact absurd hp List.not_mem_nil
    | submitted | notSubmitted | accepted | declined | modeChosen | resolved | processed
      | processVoted | modeRead => simp [Task.sending] at hp
  · simp [flatMap_of_drops sending_carries hdrop] at hp

theorem sentForward_shown (h : TaskEffect cfg reply sh sh' t next es)
    (p : InstanceId × RawTxs × SequenceNumber) (hp : p ∈ es.filterMap sentForward) :
    p ∈ t.sending := by
  cases h with
  | forwarded id txs originSeq => simpa [sentForward, Task.sending] using hp
  | processed | resolved | noncesReset =>
    obtain ⟨e, he, hs⟩ := List.mem_filterMap.mp hp
    obtain ⟨x, -, rfl⟩ := List.mem_map.mp he
    exact absurd hs (by simp [sentForward])
  | _ => exact absurd hp List.not_mem_nil

end Step

section History

variable (cfg : Config)

/-- The instance that a move registers for a caller, as it is stored. -/
def submittedBy (w : World) : Move → Option PendingXt
  | .run (.submitStandalone txs) _ =>
    match (Op.submitXt txs).registers cfg w.shared.st with
    | some (id, _) => ((Op.submitXt txs).apply cfg w.shared.st).pending.lookup id
    | none => none
  | _ => none

/-- The instances registered for callers so far, as they were stored. -/
def recordSubmitted (w : World) (m : Move) (submitted : List PendingXt) : List PendingXt :=
  submitted ++ (submittedBy cfg w m).toList

/-- A submission is registered only when every earlier one has read the counter for its
forward, or was declined by the builder. -/
def ReadsFirst (w : World) (m : Move) : Prop :=
  (submittedBy cfg w m).isSome = true → w.held Task.unread = []

instance (w : World) (m : Move) : Decidable (ReadsFirst cfg w m) := by
  unfold ReadsFirst
  infer_instance

variable {cfg} {w : World} {reply : TaskReply} {t : Task} {sh' : Shared} {next : List Task}
  {es : List Event}

theorem submittedBy_run (h : taskStep cfg reply w.shared t = some (sh', next, es)) {txs : RawTxs}
    (hone : SubmitsOne cfg w.shared sh' t next txs) :
    submittedBy cfg w (.run t reply) = some (standaloneXt cfg (w.shared.st.originSeq + 1) txs) := by
  have hst := taskStep_state cfg reply w.shared h
  rw [hone.task_eq] at hst ⊢
  simp only [submittedBy, hone.registers]
  rw [← hone.entry, hst]
  rfl

theorem submittedBy_nothing (h : SubmitsNothing cfg reply w.shared t) :
    submittedBy cfg w (.run t reply) = none := by
  cases t with
  | submitStandalone txs =>
    simp only [submittedBy]
    cases hr : (Op.submitXt txs).registers cfg w.shared.st with
    | none => rfl
    | some r =>
      obtain ⟨id, route⟩ := r
      obtain ⟨rfl, -⟩ := registers_submitXt cfg w.shared.st hr
      exact absurd hr (h _ id rfl)
  | _ => rfl

/-- The submission under a number, as it was registered. -/
def Numbered (cfg : Config) (submitted : List PendingXt) (id : InstanceId) (txs : RawTxs)
    (seq : SequenceNumber) : Prop :=
  ∃ xt ∈ submitted, xt.id = id ∧ xt.rawTxs = txs ∧ xt.originSeq = seq ∧
    id = InstanceId.standalone cfg.chainId seq

theorem Numbered.mono {submitted : List PendingXt} {id : InstanceId} {txs : RawTxs}
    {seq : SequenceNumber} (h : Numbered cfg submitted id txs seq) (more : List PendingXt) :
    Numbered cfg (submitted ++ more) id txs seq := by
  obtain ⟨xt, hxt, hrest⟩ := h
  exact ⟨xt, List.mem_append_left more hxt, hrest⟩

/-- Submissions that have still to read the counter find their own number there. -/
structure ForwardInv (cfg : Config) (s : World × List PendingXt) : Prop where
  current : ∀ id txs, (id, txs) ∈ s.1.held Task.unread →
    Numbered cfg s.2 id txs s.1.shared.st.originSeq
  sent : ∀ id txs seq, (id, txs, seq) ∈ s.1.dealt Task.sending sentForward →
    Numbered cfg s.2 id txs seq
  bounded : ∀ xt ∈ s.2, xt.originSeq ≤ s.1.shared.st.originSeq
  increasing : s.2.Pairwise (fun xt xt' => xt.originSeq < xt'.originSeq)

theorem forwardInv_initial : ForwardInv cfg (World.initial, []) := by
  constructor <;> simp [World.initial, held, dealt]

theorem forwardInv_quiet {w' : World} {submitted : List PendingXt} (h : QuietMove w w')
    (hi : ForwardInv cfg (w, submitted)) : ForwardInv cfg (w', submitted) := by
  constructor
  · simp only [h.held_eq lasting_unread, h.st_eq]
    exact hi.current
  · simp only [h.dealt_eq lasting_sending]
    exact hi.sent
  · simp only [h.st_eq]
    exact hi.bounded
  · exact hi.increasing

variable {before after : List Task} {submitted : List PendingXt}

/-- A registration finds no other submission on the way, and its number is new. -/
theorem forwardInv_submits (htasks : w.tasks = before ++ t :: after)
    (h : taskStep cfg reply w.shared t = some (sh', next, es)) {txs : RawTxs}
    (hone : SubmitsOne cfg w.shared sh' t next txs) (hfree : w.held Task.unread = [])
    (hi : ForwardInv cfg (w, submitted)) :
    ForwardInv cfg (⟨sh', before ++ next ++ after, w.log ++ es⟩,
      submitted ++ [standaloneXt cfg (w.shared.st.originSeq + 1) txs]) := by
  have heffect := taskStep_effect h
  constructor
  · intro id txs' hp
    rcases held_of_split htasks hp with hnext | hw
    · have hp' : (id, txs') = (InstanceId.standalone cfg.chainId (w.shared.st.originSeq + 1), txs) := by
        rw [hone.next_eq, List.flatMap_singleton, unread_submitFirst] at hnext
        exact List.mem_singleton.mp hnext
      obtain ⟨rfl, rfl⟩ := Prod.mk.inj hp'
      refine ⟨_, List.mem_append_right _ (List.mem_singleton_self _), rfl, rfl, ?_, ?_⟩
      · exact hone.counted.symm
      · rw [hone.counted]
    · rw [hfree] at hw
      exact absurd hw List.not_mem_nil
  · intro id txs' seq hp
    rcases dealt_of_split htasks (sentForward_shown heffect) hp with hw | hnext
    · exact (hi.sent id txs' seq hw).mono _
    · obtain ⟨_, _, ht, -⟩ := sending_step heffect hnext
      rw [hone.task_eq] at ht
      simp at ht
  · intro xt hxt
    rw [hone.counted]
    rcases List.mem_append.mp hxt with hold | hnew
    · exact (hi.bounded xt hold).trans (Nat.le_succ _)
    · rw [List.mem_singleton.mp hnew]
      exact le_rfl
  · refine List.pairwise_append.mpr ⟨hi.increasing, List.pairwise_singleton _ _, ?_⟩
    intro xt hxt xt' hxt'
    rw [List.mem_singleton.mp hxt']
    exact Nat.lt_succ_of_le (hi.bounded xt hxt)

theorem forwardInv_other (htasks : w.tasks = before ++ t :: after)
    (h : taskStep cfg reply w.shared t = some (sh', next, es))
    (hseq : sh'.st.originSeq = w.shared.st.originSeq) (hno : SubmitsNothing cfg reply w.shared t)
    (hi : ForwardInv cfg (w, submitted)) :
    ForwardInv cfg (⟨sh', before ++ next ++ after, w.log ++ es⟩, submitted) := by
  have heffect := taskStep_effect h
  constructor
  · intro id txs hp
    simp only [hseq]
    apply hi.current id txs
    rcases held_of_split htasks hp with hnext | hw
    · rcases unread_step h hnext with ht | ⟨txs', hone, -⟩
      · exact mem_held.mpr ⟨t, mem_of_split htasks, ht⟩
      · exact absurd hno hone.not_nothing
    · exact hw
  · intro id txs seq hp
    rcases dealt_of_split htasks (sentForward_shown heffect) hp with hw | hnext
    · exact hi.sent id txs seq hw
    · obtain ⟨id', txs', rfl, hp'⟩ := sending_step heffect hnext
      obtain ⟨rfl, rfl, rfl⟩ : id = id' ∧ txs = txs' ∧ seq = w.shared.st.originSeq := by
        simpa using hp'
      exact hi.current id txs (mem_held.mpr ⟨_, mem_of_split htasks, List.mem_singleton_self _⟩)
  · simp only [hseq]
    exact hi.bounded
  · exact hi.increasing

theorem forwardInv_step {s s' : World × List PendingXt} {m : Move}
    (h : Recorded (WorldStep cfg) (recordSubmitted cfg) s m s') (hreads : ReadsFirst cfg s.1 m)
    (hi : ForwardInv cfg s) : ForwardInv cfg s' := by
  obtain ⟨w, submitted⟩ := s
  obtain ⟨w', submitted'⟩ := s'
  obtain ⟨hstep, hrecord⟩ := h
  simp only [recordSubmitted] at hstep hrecord hreads
  cases hstep with
  | arrive request =>
    simp only [submittedBy, Option.toList_none, List.append_nil] at hrecord
    rw [hrecord]
    exact forwardInv_quiet (quietMove_arrive w request) hi
  | connection up =>
    simp only [submittedBy, Option.toList_none, List.append_nil] at hrecord
    rw [hrecord]
    exact forwardInv_quiet (quietMove_connection w up) hi
  | notify htasks =>
    simp only [submittedBy, Option.toList_none, List.append_nil] at hrecord
    rw [hrecord]
    exact forwardInv_quiet (quietMove_notify htasks) hi
  | run hr =>
    cases hr with
    | intro htasks htask =>
      rw [hrecord]
      rcases submission_cases htask with ⟨txs, hone⟩ | ⟨hseq, hno⟩
      · have hby := submittedBy_run htask hone
        rw [hby]
        exact forwardInv_submits htasks htask hone (hreads (by rw [hby]; rfl)) hi
      · rw [submittedBy_nothing hno, Option.toList_none, List.append_nil]
        exact forwardInv_other htasks htask hseq hno hi

end History

/-- What the peers are told of the submissions: each under its own number, and no two under one
number. -/
structure ForwardedOwn (cfg : Config) (submitted : List PendingXt) (log : List Event) : Prop where
  own : ∀ id txs seq, .forwardXt id txs seq ∈ log → Numbered cfg submitted id txs seq
  distinct : ∀ id txs id' txs' seq, .forwardXt id txs seq ∈ log →
    .forwardXt id' txs' seq ∈ log → id = id' ∧ txs = txs'

/-- As long as no submission is registered between the registration of another and its read of
the counter, every forward carries the number of its own instance. -/
theorem forwards_carry_own_number {cfg : Config} {moves : List Move} {w : World}
    {submitted : List PendingXt}
    (h : Run (fun s m s' => Recorded (WorldStep cfg) (recordSubmitted cfg) s m s' ∧
      ReadsFirst cfg s.1 m) (World.initial, []) moves (w, submitted)) :
    ForwardedOwn cfg submitted w.log := by
  have hi : ForwardInv cfg (w, submitted) :=
    h.invariant (I := ForwardInv cfg) (fun s m s' hs hstep => forwardInv_step hstep.1 hstep.2 hs)
      forwardInv_initial
  have hown : ∀ id txs seq, .forwardXt id txs seq ∈ w.log → Numbered cfg submitted id txs seq := by
    intro id txs seq he
    exact hi.sent id txs seq (mem_dealt_of_log he rfl)
  refine ⟨hown, ?_⟩
  intro id txs id' txs' seq he he'
  obtain ⟨xt, hxt, rfl, rfl, hseq, -⟩ := hown id txs seq he
  obtain ⟨xt', hxt', rfl, rfl, hseq', -⟩ := hown id' txs' seq he'
  have hnodup : (submitted.map PendingXt.originSeq).Nodup :=
    List.pairwise_map.mpr (hi.increasing.imp (fun hlt => Nat.ne_of_lt hlt))
  have hsame : xt = xt' := List.inj_on_of_nodup_map hnodup hxt hxt' (hseq.trans hseq'.symm)
  rw [hsame]
  exact ⟨rfl, rfl⟩

def forwardingConfig : Config := { Config.bare 1 with peerCoordinator := true }

/-- The instances forwarded so far, with the numbers they were sent under. -/
def sentNumbers (log : List Event) : List (InstanceId × SequenceNumber) :=
  (log.filterMap sentForward).map (fun p => (p.1, p.2.2))

theorem forward_of_sentNumbers {log : List Event} {id : InstanceId} {seq : SequenceNumber}
    (h : (id, seq) ∈ sentNumbers log) : ∃ txs, .forwardXt id txs seq ∈ log := by
  obtain ⟨p, hp, he⟩ := List.mem_map.mp h
  obtain ⟨e, hmem, hs⟩ := List.mem_filterMap.mp hp
  cases e with
  | forwardXt id' txs seq' =>
    obtain rfl := Option.some.inj hs
    obtain ⟨rfl, rfl⟩ := Prod.mk.inj he
    exact ⟨txs, hmem⟩
  | _ => simp [sentForward] at hs

/-- Two submissions, the second registered when the first has read the counter. -/
def submitInTurn : List Pick :=
  [.arrive (.submitXt twoChainTxs 0), .arrive (.submitXt laterTxs 1), .run 0 {}, .run 1 {},
    .run 0 {}, .run 0 {}, .run 0 {}, .run 1 {}, .run 2 {}, .run 2 {}, .run 2 {}, .run 3 {},
    .run 3 {}, .run 1 {}]

theorem forwards_carry_own_number_in_turn :
    ∃ moves w submitted,
      Run (fun s m s' => Recorded (WorldStep forwardingConfig) (recordSubmitted forwardingConfig)
        s m s' ∧ ReadsFirst forwardingConfig s.1 m) (World.initial, []) moves (w, submitted) ∧
      sentNumbers w.log = [("xt-1-2", 2), ("xt-1-1", 1)] ∧
      ForwardedOwn forwardingConfig submitted w.log := by
  have hexec : (execAll (recordPick (pickStep forwardingConfig) (recordSubmitted forwardingConfig))
      (fun s m => decide (ReadsFirst forwardingConfig s.1 m)) submitInTurn
      (World.initial, [])).map (fun s => sentNumbers s.1.log) =
        some [("xt-1-2", 2), ("xt-1-1", 1)] := by decide +kernel
  obtain ⟨s, hs, hlog⟩ := Option.map_eq_some_iff.mp hexec
  obtain ⟨moves, hrun⟩ := run_execAll
    (recorded_of_recordPick worldStep_of_pick) hs
  exact ⟨moves, s.1, s.2, hrun, hlog, forwards_carry_own_number hrun⟩

/-- Both submissions are registered before the first has read the counter. -/
def submitTogether : List Pick :=
  [.arrive (.submitXt twoChainTxs 0), .arrive (.submitXt laterTxs 1), .run 0 {}, .run 1 {},
    .run 0 {}, .run 1 {}, .run 0 {}, .run 0 {}, .run 1 {}, .run 1 {}, .run 1 {}, .run 1 {},
    .run 2 {}, .run 2 {}]

/-- The first of two submissions that run together is forwarded under the number of the second,
and so is the second. -/
theorem forward_carries_later_number :
    ∃ moves w submitted,
      Run (Recorded (WorldStep forwardingConfig) (recordSubmitted forwardingConfig))
        (World.initial, []) moves (w, submitted) ∧
      submitted.map PendingXt.originSeq = [1, 2] ∧
      sentNumbers w.log = [("xt-1-1", 2), ("xt-1-2", 2)] ∧
      ¬ForwardedOwn forwardingConfig submitted w.log := by
  have hexec : (execAll (recordPick (pickStep forwardingConfig) (recordSubmitted forwardingConfig))
      (fun _ _ => true) submitTogether (World.initial, [])).map
        (fun s => (s.2.map PendingXt.originSeq, sentNumbers s.1.log)) =
      some ([1, 2], [("xt-1-1", 2), ("xt-1-2", 2)]) := by decide +kernel
  obtain ⟨s, hs, hshown⟩ := Option.map_eq_some_iff.mp hexec
  obtain ⟨hsubmitted, hlog⟩ := Prod.mk.inj hshown
  obtain ⟨moves, hrun⟩ := run_execAll_free
    (recorded_of_recordPick worldStep_of_pick) hs
  refine ⟨moves, s.1, s.2, hrun, hsubmitted, hlog, fun hown => ?_⟩
  obtain ⟨txs, hfirst⟩ : ∃ txs, .forwardXt "xt-1-1" txs 2 ∈ s.1.log :=
    forward_of_sentNumbers (by rw [hlog]; simp)
  obtain ⟨txs', hsecond⟩ : ∃ txs, .forwardXt "xt-1-2" txs 2 ∈ s.1.log :=
    forward_of_sentNumbers (by rw [hlog]; simp)
  have hsame := hown.distinct "xt-1-1" txs "xt-1-2" txs' 2 hfirst hsecond
  exact absurd hsame.1 (by decide)

end Sidecar.Coordinator
