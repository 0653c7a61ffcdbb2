import Sidecar.Coordinator.FingerprintBook
import Sidecar.Coordinator.Lineage
import Sidecar.Coordinator.Submission

namespace Sidecar.Coordinator

open TaskSystem

section Views

/-- The submission that a handler goes on with, by its id. -/
def Registrar.submittedId (registrar : Registrar) : List InstanceId :=
  registrar.submission.map Prod.fst

theorem Registrar.id_of_submittedId {registrar : Registrar} {id : InstanceId}
    (h : id ∈ registrar.submittedId) : registrar.id = id := by
  cases registrar with
  | submitted i txs => exact (List.mem_singleton.mp h).symm
  | forwarded | started => exact absurd h List.not_mem_nil

/-- The submission that waits for the builder's answer. -/
def Task.waits : Task → List InstanceId
  | .submit _ registrar => registrar.submittedId
  | .submitting registrar => registrar.submittedId
  | _ => []

/-- The submission that the builder has not accepted, or not yet. -/
def Task.atBuilder : Task → List InstanceId
  | .submit _ registrar => registrar.submittedId
  | .submitting registrar => registrar.submittedId
  | .removePending registrar _ => registrar.submittedId
  | _ => []

/-- The submission that the builder has accepted or was not asked about, before its call
returns. -/
def Task.passed : Task → List InstanceId
  | .registered registrar => registrar.submittedId
  | .forwardXt id _ => [id]
  | _ => []

theorem lasting_waits : Lasting Task.waits := ⟨fun t => by cases t <;> rfl, fun _ => rfl, rfl⟩

theorem lasting_atBuilder : Lasting Task.atBuilder :=
  ⟨fun t => by cases t <;> rfl, fun _ => rfl, rfl⟩

theorem lasting_passed : Lasting Task.passed := ⟨fun t => by cases t <;> rfl, fun _ => rfl, rfl⟩

theorem waits_carries (t : Task) (h : t.carries = false) : t.waits = [] := by
  cases t <;> first | rfl | simp [Task.carries] at h

theorem atBuilder_carries (t : Task) (h : t.carries = false) : t.atBuilder = [] := by
  cases t <;> first | rfl | simp [Task.carries] at h

theorem passed_carries (t : Task) (h : t.carries = false) : t.passed = [] := by
  cases t <;> first | rfl | simp [Task.carries] at h

theorem waits_atBuilder {l : List Task} {id : InstanceId} (h : id ∈ l.flatMap Task.waits) :
    id ∈ l.flatMap Task.atBuilder := by
  obtain ⟨t, ht, hid⟩ := List.mem_flatMap.mp h
  refine List.mem_flatMap.mpr ⟨t, ht, ?_⟩
  cases t with
  | submit | submitting => exact hid
  | _ => exact absurd hid List.not_mem_nil

variable {cfg : Config} {reply : TaskReply} {sh sh' : Shared} {t : Task} {next : List Task}
  {es : List Event}

theorem submittedId_of_registers {xt : PendingXt} {registrar : Registrar} {op : Op} {route : Route}
    (h : taskStep cfg reply sh t = some (sh', next, es)) (hreg : Registers cfg sh.st t xt registrar)
    (hop : taskOp cfg reply t = some op) (hr : op.registers cfg sh.st = some (xt.id, route)) :
    registrar.submittedId = [] ∨ ∃ txs, SubmitsOne cfg sh sh' t next txs := by
  cases hreg with
  | submitted txs =>
    obtain rfl : Op.submitXt txs = op := Option.some.inj hop
    obtain ⟨rfl, -⟩ := registers_submitXt cfg sh.st hr
    exact Or.inr (submitsOne_of_registers h rfl hr)
  | forwarded => exact Or.inl rfl
  | started => exact Or.inl rfl

/-- A submission stays with the builder in one pair of hands, or has just been registered. -/
theorem atBuilder_step (h : taskStep cfg reply sh t = some (sh', next, es)) :
    List.Sublist (next.flatMap Task.atBuilder) t.atBuilder ∨
      ∃ txs, SubmitsOne cfg sh sh' t next txs := by
  rcases handsOn_or_drops (taskStep_effect h) with hand | hdrop
  · cases hand with
    | @registered _ xt registrar op route hreg hop hr hl =>
      rcases submittedId_of_registers h hreg hop hr with hnone | hone
      · left
        rw [flatMap_submitFirst (fun _ => hnone) rfl]
        exact List.nil_sublist _
      · exact Or.inr hone
    | proceeded registrar =>
      left
      rw [flatMap_registrarNext cfg (fun _ _ => rfl) (fun _ _ => rfl) (fun _ _ _ => rfl) registrar]
      exact List.nil_sublist _
    | submitted | declined => exact Or.inl (by simp [Task.atBuilder])
    | notSubmitted | accepted | modeChosen | forwardStarted | resolved | processed | processVoted
      | modeRead => exact Or.inl (List.nil_sublist _)
  · rw [flatMap_of_drops atBuilder_carries hdrop]
    exact Or.inl (List.nil_sublist _)

theorem waits_step (h : taskStep cfg reply sh t = some (sh', next, es)) {id : InstanceId}
    (hid : id ∈ next.flatMap Task.waits) :
    id ∈ t.waits ∨ ∃ txs, SubmitsOne cfg sh sh' t next txs := by
  rcases handsOn_or_drops (taskStep_effect h) with hand | hdrop
  · cases hand with
    | @registered _ xt registrar op route hreg hop hr hl =>
      rcases submittedId_of_registers h hreg hop hr with hnone | hone
      · rw [flatMap_submitFirst (fun _ => hnone) rfl] at hid
        exact absurd hid List.not_mem_nil
      · exact Or.inr hone
    | proceeded registrar =>
      rw [flatMap_registrarNext cfg (fun _ _ => rfl) (fun _ _ => rfl) (fun _ _ _ => rfl) registrar]
        at hid
      exact absurd hid List.not_mem_nil
    | submitted => exact Or.inl (by simpa [Task.waits] using hid)
    | notSubmitted | accepted | declined | modeChosen | forwardStarted | resolved | processed
      | processVoted | modeRead => simp [Task.waits] at hid
  · rw [flatMap_of_drops waits_carries hdrop] at hid
    exact absurd hid List.not_mem_nil

/-- The builder accepts a submission, or there is no builder to ask. -/
structure Accepts (cfg : Config) (t : Task) (next : List Task) (es : List Event)
    (id : InstanceId) : Prop where
  waited : id ∈ t.waits
  gone : next.flatMap Task.atBuilder = []
  shown : cfg.xtBuilderClient = true → .submitReturned id true ∈ es

theorem passed_step (h : taskStep cfg reply sh t = some (sh', next, es)) {id : InstanceId}
    (hid : id ∈ next.flatMap Task.passed) :
    id ∈ t.passed ∨ Accepts cfg t next es id ∨ ∃ txs, SubmitsOne cfg sh sh' t next txs := by
  rcases handsOn_or_drops (taskStep_effect h) with hand | hdrop
  · cases hand with
    | @registered _ xt registrar op route hreg hop hr hl =>
      rcases submittedId_of_registers h hreg hop hr with hnone | hone
      · rw [flatMap_submitFirst (fun _ => rfl) hnone] at hid
        exact absurd hid List.not_mem_nil
      · exact Or.inr (Or.inr hone)
    | notSubmitted submission registrar =>
      rw [List.flatMap_singleton] at hid
      have hclient : cfg.xtBuilderClient = false := by
        cases hc : cfg.xtBuilderClient with
        | false => rfl
        | true => simp [taskStep, hc] at h
      exact Or.inr (Or.inl ⟨hid, rfl, fun hc => by simp [hclient] at hc⟩)
    | accepted registrar =>
      rw [List.flatMap_singleton] at hid
      have hshown : .submitReturned id true ∈ es := by
        simp only [taskStep, submitReturns, Option.some.injEq] at h
        split at h
        · simp only [Prod.mk.injEq] at h
          simp [← h.2.2, Registrar.id_of_submittedId hid]
        · simp at h
      exact Or.inr (Or.inl ⟨hid, rfl, fun _ => hshown⟩)
    | proceeded registrar =>
      obtain ⟨u, hu, hmem⟩ := List.mem_flatMap.mp hid
      rcases mem_registrarNext hu with rfl | ⟨_, _, rfl, rfl⟩ | ⟨_, _, rfl⟩
      · exact absurd hmem List.not_mem_nil
      · exact Or.inl hmem
      · exact absurd hmem List.not_mem_nil
    | submitted | declined | modeChosen | forwardStarted | resolved | processed | processVoted
      | modeRead => simp [Task.passed] at hid
  · rw [flatMap_of_drops passed_carries hdrop] at hid
    exact absurd hid List.not_mem_nil

/-- A submission with the builder stays there, is accepted, or is being taken back. -/
theorem atBuilder_cases (h : taskStep cfg reply sh t = some (sh', next, es)) {id : InstanceId}
    (hid : id ∈ t.atBuilder) :
    id ∈ next.flatMap Task.atBuilder ∨ Accepts cfg t next es id ∨ id ∈ t.removing := by
  cases t with
  | submit submission registrar =>
    simp only [taskStep] at h
    split_ifs at h with hc
    · simp only [Option.some.injEq, Prod.mk.injEq] at h
      rw [← h.2.1]
      exact Or.inl (by simpa [Task.atBuilder] using hid)
    · simp only [Option.some.injEq, Prod.mk.injEq] at h
      rw [← h.2.1]
      exact Or.inr (Or.inl ⟨hid, rfl, fun hclient => absurd hclient hc⟩)
  | submitting registrar =>
    simp only [taskStep, submitReturns, Option.some.injEq] at h
    split at h
    · simp only [Prod.mk.injEq] at h
      rw [← h.2.1, ← h.2.2]
      exact Or.inr (Or.inl ⟨hid, rfl, fun _ => by simp [Registrar.id_of_submittedId hid]⟩)
    · simp only [Prod.mk.injEq] at h
      rw [← h.2.1]
      exact Or.inl (by simpa [Task.atBuilder] using hid)
  | removePending registrar err =>
    exact Or.inr (Or.inr (List.mem_singleton.mpr (Registrar.id_of_submittedId hid).symm))
  | _ => exact absurd hid List.not_mem_nil

end Views

section History

variable (cfg : Config)

/-- What has become of the submissions: the instances as they were stored, the ids that calls of
`submit_xt_standalone` have returned, and the decided instances that `cleanup` has dropped. -/
structure Submissions where
  submitted : List PendingXt := []
  returned : List InstanceId := []
  agedOut : List InstanceId := []

/-- The id that a call of `submit_xt_standalone` returns at a move. -/
def returnedBy (w : World) : Move → Option InstanceId
  | .run (.submitStandalone txs) _ =>
    match (submitXt cfg w.shared.st txs).2 with
    | .duplicate id => some id
    | _ => none
  | .run (.registered (.submitted id _)) _ => if cfg.peerCoordinator then none else some id
  | .run (.forwardXt id _) _ => some id
  | _ => none

/-- The decided instances that are too old for a run of `cleanup`. -/
def agedOutBy (w : World) : Move → List InstanceId
  | .run (.request (.cleanup maxAge)) reply =>
    w.shared.st.pending.keys.filter (fun id =>
      (w.shared.st.pending.lookup id).any (fun xt =>
        xt.decision.isSome && !keepsXt reply.now maxAge xt))
  | _ => []

def recordSubmissions (w : World) (m : Move) (hist : Submissions) : Submissions :=
  { submitted := recordSubmitted cfg w m hist.submitted
    returned := hist.returned ++ (returnedBy cfg w m).toList
    agedOut := hist.agedOut ++ agedOutBy w m }

/-- The builder has accepted the instance, if it has local transactions and there is a builder. -/
def AcceptedXt (log : List Event) (xt : PendingXt) : Prop :=
  xt.runsOn cfg.chainId = true → cfg.xtBuilderClient = true → .submitReturned xt.id true ∈ log

/-- The instance was accepted, and is pending unless it was decided and has aged out. -/
structure LiveXt (w : World) (hist : Submissions) (id : InstanceId) : Prop where
  accepted : ∃ xt ∈ hist.submitted, xt.id = id ∧ AcceptedXt cfg w.log xt
  stays : id ∈ w.shared.st.pending ∨ id ∈ hist.agedOut

/-- No repeated submission is answered while the builder has still to accept the first, and
`FromOutside` holds of what other calls do. -/
structure AnswersSettled (w : World) (m : Move) : Prop where
  duplicate : ∀ txs reply id, m = .run (.submitStandalone txs) reply →
    (submitXt cfg w.shared.st txs).2 = .duplicate id → id ∉ w.held Task.atBuilder
  outside : ∀ t reply op, m = .run t reply → taskOp cfg reply t = some op →
    FromOutside cfg w.shared.st op

structure LiveInv (w : World) (hist : Submissions) : Prop where
  book : BookInv cfg w.shared.st
  registrars : ∀ registrar ∈ w.held Task.registrars, ∀ seq,
    registrar.id = InstanceId.standalone cfg.chainId seq → registrar.submittedId = [registrar.id]
  given : ∀ xt ∈ hist.submitted, ∃ seq ≤ w.shared.st.originSeq,
    xt.id = InstanceId.standalone cfg.chainId seq
  recorded : ∀ id ∈ w.held Task.atBuilder, ∃ xt ∈ hist.submitted, xt.id = id
  once : (w.held Task.atBuilder).Nodup
  waiting : ∀ id ∈ w.held Task.waits, id ∈ w.shared.st.pending ∨ id ∈ hist.agedOut
  passed : ∀ id ∈ w.held Task.passed, id ∉ w.held Task.atBuilder ∧ LiveXt cfg w hist id
  returned : ∀ id ∈ hist.returned, id ∉ w.held Task.atBuilder ∧ LiveXt cfg w hist id
  own : ∀ seq, InstanceId.standalone cfg.chainId seq ∈ w.shared.st.pending →
    InstanceId.standalone cfg.chainId seq ∈ w.held Task.atBuilder ∨
      ∃ xt ∈ hist.submitted, xt.id = InstanceId.standalone cfg.chainId seq ∧
        AcceptedXt cfg w.log xt

variable {cfg}

theorem liveInv_initial : LiveInv cfg World.initial {} := by
  refine ⟨bookInv_initial, ?_, ?_, ?_, ?_, ?_, ?_, ?_, ?_⟩
  all_goals simp [World.initial, held]

theorem mem_agedOutBy {w : World} {reply : TaskReply} {maxAge : Nat} {id : InstanceId}
    {xt : PendingXt} (hl : w.shared.st.pending.lookup id = some xt)
    (hd : xt.decision.isSome = true) (hold : keepsXt reply.now maxAge xt = false) :
    id ∈ agedOutBy w (.run (.request (.cleanup maxAge)) reply) := by
  refine List.mem_filter.mpr ⟨AList.mem_keys.mp (Map.mem_of_lookup hl), ?_⟩
  simp [hl, hd, hold]

theorem liveInv_quiet {w w' : World} {hist : Submissions} (h : QuietMove w w')
    (hi : LiveInv cfg w hist) : LiveInv cfg w' hist := by
  have hlive : ∀ id, LiveXt cfg w hist id → LiveXt cfg w' hist id := by
    intro id hl
    constructor
    · rw [h.log_eq]
      exact hl.accepted
    · rw [h.st_eq]
      exact hl.stays
  have hbuilder := h.held_eq lasting_atBuilder
  constructor
  · rw [h.st_eq]
    exact hi.book
  · rw [h.held_eq lasting_registrars]
    exact hi.registrars
  · rw [h.st_eq]
    exact hi.given
  · rw [hbuilder]
    exact hi.recorded
  · rw [hbuilder]
    exact hi.once
  · rw [h.held_eq lasting_waits, h.st_eq]
    exact hi.waiting
  · rw [h.held_eq lasting_passed, hbuilder]
    exact fun id hid => (hi.passed id hid).imp_right (hlive id)
  · rw [hbuilder]
    exact fun id hid => (hi.returned id hid).imp_right (hlive id)
  · rw [hbuilder, h.st_eq, h.log_eq]
    exact hi.own

end History

section Step

variable {cfg : Config} {w : World} {hist : Submissions} {t : Task} {reply : TaskReply}
  {before after next : List Task} {sh' : Shared} {es : List Event}

theorem submitted_kept {m : Move} {xt : PendingXt} (hxt : xt ∈ hist.submitted) :
    xt ∈ (recordSubmissions cfg w m hist).submitted :=
  List.mem_append_left _ hxt

theorem AcceptedXt.mono {log : List Event} {xt : PendingXt} (h : AcceptedXt cfg log xt)
    (more : List Event) : AcceptedXt cfg (log ++ more) xt :=
  fun hlocal hclient => List.mem_append_left more (h hlocal hclient)

/-- The builder is asked first about a new submission with local transactions. -/
theorem SubmitsOne.next_cases {sh : Shared} {txs : RawTxs}
    (h : SubmitsOne cfg sh sh' t next txs) :
    (next.flatMap Task.atBuilder = [InstanceId.standalone cfg.chainId (sh.st.originSeq + 1)] ∧
        next.flatMap Task.passed = []) ∨
      (next.flatMap Task.atBuilder = [] ∧
        next.flatMap Task.passed = [InstanceId.standalone cfg.chainId (sh.st.originSeq + 1)] ∧
        (standaloneXt cfg (sh.st.originSeq + 1) txs).runsOn cfg.chainId = false) := by
  rw [h.next_eq, List.flatMap_singleton, List.flatMap_singleton]
  unfold localBuilderSubmission
  cases hruns : (standaloneXt cfg (sh.st.originSeq + 1) txs).runsOn cfg.chainId with
  | true => exact Or.inl ⟨rfl, rfl⟩
  | false => exact Or.inr ⟨rfl, rfl, rfl⟩

/-- A repeated submission is answered with the pending instance of its fingerprint. -/
theorem duplicate_found {st : CoordinatorState} {txs : RawTxs} {id : InstanceId}
    (h : (submitXt cfg st txs).2 = .duplicate id) :
    id ∈ st.pending ∧
      st.submittedFingerprints.lookup (cfg.xtRequestFingerprint (buildXtRequest txs)) = some id := by
  have heffect := submitXt_effect cfg st txs
  generalize submitXt cfg st txs = r at h heffect
  cases heffect with
  | rejected | full | registered => simp at h
  | duplicate hl hmem =>
    obtain rfl := SubmitOutcome.duplicate.inj h
    exact ⟨hmem, hl⟩

/-- A step of one task under the invariant. -/
structure LiveStep (cfg : Config) (w : World) (hist : Submissions) (t : Task) (reply : TaskReply)
    (before after next : List Task) (sh' : Shared) (es : List Event) : Prop where
  inv : LiveInv cfg w hist
  tasks : w.tasks = before ++ t :: after
  step : taskStep cfg reply w.shared t = some (sh', next, es)
  settled : AnswersSettled cfg w (.run t reply)

namespace LiveStep

/-- The world after the step, with its history. -/
abbrev world (w : World) (before after next : List Task) (sh' : Shared) (es : List Event) : World :=
  ⟨sh', before ++ next ++ after, w.log ++ es⟩

variable (hs : LiveStep cfg w hist t reply before after next sh' es)

include hs

theorem book : BookInv cfg sh'.st := by
  rw [taskStep_state cfg reply w.shared hs.step]
  cases hop : taskOp cfg reply t with
  | none => exact hs.inv.book
  | some op => exact bookInv_apply hs.inv.book (hs.settled.outside t reply op rfl hop)

theorem originSeq_le : w.shared.st.originSeq ≤ sh'.st.originSeq := by
  rcases submission_cases hs.step with ⟨txs, hone⟩ | ⟨hseq, -⟩
  · rw [hone.counted]
    exact Nat.le_succ _
  · exact hseq.ge

theorem not_new {xt : PendingXt} (hxt : xt ∈ hist.submitted) :
    xt.id ≠ InstanceId.standalone cfg.chainId (w.shared.st.originSeq + 1) := by
  intro he
  obtain ⟨seq, hle, hid⟩ := hs.inv.given xt hxt
  have hseq : seq = w.shared.st.originSeq + 1 := (InstanceId.standalone_inj (hid.symm.trans he)).2
  rw [hseq] at hle
  exact absurd hle (Nat.not_succ_le_self _)

theorem submitted_new {txs : RawTxs} (hone : SubmitsOne cfg w.shared sh' t next txs) :
    standaloneXt cfg (w.shared.st.originSeq + 1) txs ∈
      (recordSubmissions cfg w (.run t reply) hist).submitted := by
  refine List.mem_append_right _ ?_
  rw [submittedBy_run hs.step hone]
  exact List.mem_singleton_self _

theorem submitted_cases {xt : PendingXt}
    (hxt : xt ∈ (recordSubmissions cfg w (.run t reply) hist).submitted) :
    xt ∈ hist.submitted ∨ ∃ txs, SubmitsOne cfg w.shared sh' t next txs ∧
      xt = standaloneXt cfg (w.shared.st.originSeq + 1) txs := by
  rcases List.mem_append.mp hxt with hold | hnew
  · exact Or.inl hold
  · rcases submission_cases hs.step with ⟨txs, hone⟩ | ⟨-, hno⟩
    · rw [submittedBy_run hs.step hone] at hnew
      exact Or.inr ⟨txs, hone, List.mem_singleton.mp hnew⟩
    · rw [submittedBy_nothing hno] at hnew
      exact absurd hnew List.not_mem_nil

/-- A pending instance that is not being taken back stays until it has aged out. -/
theorem stays {id : InstanceId} (hrem : id ∉ t.removing)
    (h : id ∈ w.shared.st.pending ∨ id ∈ hist.agedOut) :
    id ∈ sh'.st.pending ∨ id ∈ (recordSubmissions cfg w (.run t reply) hist).agedOut := by
  rcases h with hpending | hold
  · obtain ⟨xt, hl⟩ := Map.lookup_of_mem hpending
    rw [taskStep_state cfg reply w.shared hs.step]
    cases hop : taskOp cfg reply t with
    | none => exact Or.inl hpending
    | some op =>
      cases hr : op.removes id with
      | false =>
        have hpresent : ∃ xt', (op.apply cfg w.shared.st).pending.lookup id = some xt' :=
          present_apply hl hr
        obtain ⟨xt', hl'⟩ := hpresent
        exact Or.inl (Map.mem_of_lookup hl')
      | true =>
        cases runsOp_of_taskOp hop with
        | removed registrar err =>
          have hid : registrar.id = id := of_decide_eq_true hr
          exact absurd (List.mem_singleton.mpr hid.symm) hrem
        | cleanedUp maxAge =>
          cases hk : keepsXt reply.now maxAge xt with
          | true =>
            left
            refine Map.mem_of_lookup (v := xt) ?_
            simp [stateAfterOp, Op.apply, cleanup, Map.lookup_retain, hl, hk]
          | false =>
            right
            have hsettled : (settledAt xt).isSome = true := by
              cases hat : settledAt xt with
              | none => simp [keepsXt, hat] at hk
              | some time => rfl
            have hd := hs.inv.book.settled id xt hl hsettled
            exact List.mem_append_right _ (mem_agedOutBy hl hd hk)
        | _ => simp [Op.removes] at hr
  · exact Or.inr (List.mem_append_left _ hold)

theorem atBuilder_after {id : InstanceId}
    (hid : id ∈ (before ++ next ++ after).flatMap Task.atBuilder) :
    id ∈ w.held Task.atBuilder ∨ ∃ txs, SubmitsOne cfg w.shared sh' t next txs ∧
      id = InstanceId.standalone cfg.chainId (w.shared.st.originSeq + 1) := by
  rcases held_of_split hs.tasks hid with hnext | hw
  · rcases atBuilder_step hs.step with hsub | ⟨txs, hone⟩
    · exact Or.inl (mem_held.mpr ⟨t, mem_of_split hs.tasks, hsub.subset hnext⟩)
    · rcases hone.next_cases with ⟨hb, -⟩ | ⟨hb, -, -⟩
      · rw [hb] at hnext
        exact Or.inr ⟨txs, hone, List.mem_singleton.mp hnext⟩
      · rw [hb] at hnext
        exact absurd hnext List.not_mem_nil
  · exact Or.inl hw

/-- A submission that is taken back is one that the builder has not accepted. -/
theorem removing_own {id : InstanceId} (hxt : ∃ xt ∈ hist.submitted, xt.id = id)
    (hrem : id ∈ t.removing) : id ∈ t.atBuilder := by
  cases t with
  | removePending registrar err =>
    obtain rfl : id = registrar.id := List.mem_singleton.mp hrem
    obtain ⟨xt, hmem, hxid⟩ := hxt
    obtain ⟨seq, -, hseq⟩ := hs.inv.given xt hmem
    have hheld : registrar ∈ w.held Task.registrars :=
      mem_held.mpr ⟨_, mem_of_split hs.tasks, List.mem_singleton_self _⟩
    have hsubmitted := hs.inv.registrars registrar hheld seq (hxid.symm.trans hseq)
    simp only [Task.atBuilder, hsubmitted, List.mem_singleton]
  | _ => exact absurd hrem List.not_mem_nil

/-- Live instances stay live. -/
theorem live {id : InstanceId}
    (h : id ∉ w.held Task.atBuilder ∧ LiveXt cfg w hist id) :
    id ∉ held Task.atBuilder (world w before after next sh' es) ∧
      LiveXt cfg (world w before after next sh' es)
        (recordSubmissions cfg w (.run t reply) hist) id := by
  obtain ⟨hid, hlive⟩ := h
  obtain ⟨xt, hxt, hxid, haccepted⟩ := hlive.accepted
  refine ⟨fun hheld => ?_, ⟨xt, submitted_kept hxt, hxid, haccepted.mono es⟩, ?_⟩
  · rcases hs.atBuilder_after hheld with hw | ⟨txs, -, hnew⟩
    · exact hid hw
    · exact hs.not_new hxt (hxid.trans hnew)
  · refine hs.stays (fun hrem => hid ?_) hlive.stays
    exact mem_held.mpr ⟨t, mem_of_split hs.tasks, hs.removing_own ⟨xt, hxt, hxid⟩ hrem⟩

theorem new_free : InstanceId.standalone cfg.chainId (w.shared.st.originSeq + 1) ∉
    w.held Task.atBuilder := by
  intro hheld
  obtain ⟨xt, hxt, hid⟩ := hs.inv.recorded _ hheld
  exact hs.not_new hxt hid

theorem registrars (registrar : Registrar)
    (hr : registrar ∈ held Task.registrars (world w before after next sh' es)) (seq : SequenceNumber)
    (hid : registrar.id = InstanceId.standalone cfg.chainId seq) :
    registrar.submittedId = [registrar.id] := by
  rcases held_of_split hs.tasks hr with hnext | hw
  · rcases registrars_step (taskStep_effect hs.step) hnext with ht |
      ⟨xt, r, op, route, hreg, hop, ho, -, rfl⟩
    · exact hs.inv.registrars registrar (mem_held.mpr ⟨t, mem_of_split hs.tasks, ht⟩) seq hid
    · rw [registrars_submitFirst, List.mem_singleton] at hnext
      rw [hnext] at hid ⊢
      rw [← hreg.id_eq, hid] at ho
      have hroute := (hs.settled.outside t reply op rfl hop).route ho
      cases hreg with
      | submitted txs => rfl
      | forwarded i txs originChain originSeq buffered hnew =>
        obtain rfl : Op.forwardXt i txs originChain originSeq = op := Option.some.inj hop
        exact absurd ((registers_forwardXt cfg _ ho).2.1.symm.trans hroute) (by decide)
      | started msg inst fingerprint buffered htry hnew =>
        exact absurd hid.symm (InstanceId.standalone_ne_fromPublisherBytes _ _ _)
  · exact hs.inv.registrars registrar hw seq hid

theorem given (xt : PendingXt)
    (hxt : xt ∈ (recordSubmissions cfg w (.run t reply) hist).submitted) :
    ∃ seq ≤ sh'.st.originSeq, xt.id = InstanceId.standalone cfg.chainId seq := by
  rcases hs.submitted_cases hxt with hold | ⟨txs, hone, rfl⟩
  · obtain ⟨seq, hle, hid⟩ := hs.inv.given xt hold
    exact ⟨seq, hle.trans hs.originSeq_le, hid⟩
  · exact ⟨w.shared.st.originSeq + 1, hone.counted.ge, rfl⟩

theorem recorded (id : InstanceId)
    (hid : id ∈ held Task.atBuilder (world w before after next sh' es)) :
    ∃ xt ∈ (recordSubmissions cfg w (.run t reply) hist).submitted, xt.id = id := by
  rcases hs.atBuilder_after hid with hw | ⟨txs, hone, rfl⟩
  · obtain ⟨xt, hxt, hxid⟩ := hs.inv.recorded id hw
    exact ⟨xt, submitted_kept hxt, hxid⟩
  · exact ⟨_, hs.submitted_new hone, rfl⟩

theorem once : (held Task.atBuilder (world w before after next sh' es)).Nodup := by
  rcases atBuilder_step hs.step with hsub | ⟨txs, hone⟩
  · exact nodup_of_split hs.tasks hs.inv.once hsub
  · rcases hone.next_cases with ⟨hb, -⟩ | ⟨hb, -, -⟩
    · exact nodup_of_new hs.tasks hs.inv.once hb hs.new_free
    · exact nodup_of_split hs.tasks hs.inv.once (by rw [hb]; exact List.nil_sublist _)

theorem waiting (id : InstanceId) (hid : id ∈ held Task.waits (world w before after next sh' es)) :
    id ∈ sh'.st.pending ∨ id ∈ (recordSubmissions cfg w (.run t reply) hist).agedOut := by
  rcases held_split hid with hnext | hrest
  · rcases waits_step hs.step hnext with ht | ⟨txs, hone⟩
    · have hrem : id ∉ t.removing := by
        cases t with
        | submit | submitting => exact List.not_mem_nil
        | _ => exact absurd ht List.not_mem_nil
      exact hs.stays hrem (hs.inv.waiting id (mem_held.mpr ⟨t, mem_of_split hs.tasks, ht⟩))
    · rcases hone.next_cases with ⟨hb, -⟩ | ⟨hb, -, -⟩
      · have hnew := waits_atBuilder hnext
        rw [hb] at hnew
        rw [List.mem_singleton.mp hnew]
        exact Or.inl (Map.mem_of_lookup hone.entry)
      · have hnew := waits_atBuilder hnext
        rw [hb] at hnew
        exact absurd hnew List.not_mem_nil
  · have hw : id ∈ w.held Task.waits := held_rest hs.tasks hrest
    have hfree := held_once hs.tasks hs.inv.once (waits_atBuilder hrest)
    have hrecorded := hs.inv.recorded id (waits_atBuilder hw)
    exact hs.stays (fun hrem => hfree (hs.removing_own hrecorded hrem)) (hs.inv.waiting id hw)

/-- A submission that the builder accepts is live. -/
theorem accepted {id : InstanceId} (h : Accepts cfg t next es id) :
    id ∉ held Task.atBuilder (world w before after next sh' es) ∧
      LiveXt cfg (world w before after next sh' es)
        (recordSubmissions cfg w (.run t reply) hist) id := by
  have ht : id ∈ t.atBuilder := by
    have hone : id ∈ [t].flatMap Task.waits := by simpa using h.waited
    simpa using waits_atBuilder hone
  have hw : id ∈ w.held Task.atBuilder := mem_held.mpr ⟨t, mem_of_split hs.tasks, ht⟩
  obtain ⟨xt, hxt, hxid⟩ := hs.inv.recorded id hw
  refine ⟨fun hheld => ?_, ⟨xt, submitted_kept hxt, hxid, fun _ hclient => ?_⟩, ?_⟩
  · rcases held_split hheld with hnext | hrest
    · rw [h.gone] at hnext
      exact absurd hnext List.not_mem_nil
    · exact held_once hs.tasks hs.inv.once hrest ht
  · rw [hxid]
    exact List.mem_append_right _ (h.shown hclient)
  · have hrem : id ∉ t.removing := by
      have hwaits := h.waited
      cases t with
      | submit | submitting => exact List.not_mem_nil
      | _ => exact absurd hwaits List.not_mem_nil
    exact hs.stays hrem
      (hs.inv.waiting id (mem_held.mpr ⟨t, mem_of_split hs.tasks, h.waited⟩))

theorem passed (id : InstanceId)
    (hid : id ∈ held Task.passed (world w before after next sh' es)) :
    id ∉ held Task.atBuilder (world w before after next sh' es) ∧
      LiveXt cfg (world w before after next sh' es)
        (recordSubmissions cfg w (.run t reply) hist) id := by
  rcases held_split hid with hnext | hrest
  · rcases passed_step hs.step hnext with ht | haccepts | ⟨txs, hone⟩
    · exact hs.live (hs.inv.passed id (mem_held.mpr ⟨t, mem_of_split hs.tasks, ht⟩))
    · exact hs.accepted haccepts
    · rcases hone.next_cases with ⟨-, hp⟩ | ⟨hb, hp, hlocal⟩
      · rw [hp] at hnext
        exact absurd hnext List.not_mem_nil
      · rw [hp] at hnext
        obtain rfl := List.mem_singleton.mp hnext
        refine ⟨fun hheld => ?_, ⟨_, hs.submitted_new hone, rfl, fun hruns => ?_⟩,
          Or.inl (Map.mem_of_lookup hone.entry)⟩
        · rcases held_split hheld with hnew | hrest
          · rw [hb] at hnew
            exact absurd hnew List.not_mem_nil
          · exact hs.new_free (held_rest hs.tasks hrest)
        · rw [hlocal] at hruns
          exact absurd hruns Bool.false_ne_true
  · exact hs.live (hs.inv.passed id (held_rest hs.tasks hrest))

/-- What a call returns is live. -/
theorem returned_live {id : InstanceId} (h : returnedBy cfg w (.run t reply) = some id) :
    id ∉ w.held Task.atBuilder ∧ LiveXt cfg w hist id := by
  have hpassed : id ∈ t.passed → id ∉ w.held Task.atBuilder ∧ LiveXt cfg w hist id :=
    fun ht => hs.inv.passed id (mem_held.mpr ⟨t, mem_of_split hs.tasks, ht⟩)
  cases t with
  | submitStandalone txs =>
    simp only [returnedBy] at h
    split at h
    · next i hdup =>
      obtain rfl := Option.some.inj h
      obtain ⟨hmem, hprint⟩ := duplicate_found hdup
      obtain ⟨seq, -, rfl⟩ := hs.inv.book.fingerprint.numbered _ _ hprint
      have hfree := hs.settled.duplicate txs reply _ rfl hdup
      rcases hs.inv.own seq hmem with hheld | haccepted
      · exact absurd hheld hfree
      · exact ⟨hfree, haccepted, Or.inl hmem⟩
    · simp at h
  | registered registrar =>
    cases registrar with
    | submitted i txs =>
      simp only [returnedBy] at h
      split_ifs at h
      exact hpassed (List.mem_singleton.mpr (Option.some.inj h).symm)
    | forwarded | started => simp [returnedBy] at h
  | forwardXt i txs => exact hpassed (List.mem_singleton.mpr (Option.some.inj h).symm)
  | _ => simp [returnedBy] at h

theorem returned (id : InstanceId)
    (hid : id ∈ (recordSubmissions cfg w (.run t reply) hist).returned) :
    id ∉ held Task.atBuilder (world w before after next sh' es) ∧
      LiveXt cfg (world w before after next sh' es)
        (recordSubmissions cfg w (.run t reply) hist) id := by
  rcases List.mem_append.mp hid with hold | hnew
  · exact hs.live (hs.inv.returned id hold)
  · exact hs.live (hs.returned_live (Option.mem_toList.mp hnew))

theorem removed_gone {id : InstanceId} (hrem : id ∈ t.removing) : id ∉ sh'.st.pending := by
  rw [taskStep_state cfg reply w.shared hs.step]
  cases t with
  | removePending registrar err =>
    obtain rfl : id = registrar.id := List.mem_singleton.mp hrem
    simp only [taskOp, stateAfterOp, Option.elim_some, Op.apply, removePendingXt]
    split
    · next hl => exact AList.lookup_eq_none.mp hl
    · simp [AList.mem_erase]
  | _ => exact absurd hrem List.not_mem_nil

theorem own (seq : SequenceNumber)
    (hmem : InstanceId.standalone cfg.chainId seq ∈ sh'.st.pending) :
    InstanceId.standalone cfg.chainId seq ∈ held Task.atBuilder (world w before after next sh' es) ∨
      ∃ xt ∈ (recordSubmissions cfg w (.run t reply) hist).submitted,
        xt.id = InstanceId.standalone cfg.chainId seq ∧ AcceptedXt cfg (w.log ++ es) xt := by
  obtain ⟨xt', hl'⟩ := Map.lookup_of_mem hmem
  by_cases hreg : ∃ op route, taskOp cfg reply t = some op ∧
      op.registers cfg w.shared.st = some (InstanceId.standalone cfg.chainId seq, route)
  · obtain ⟨op, route, hop, hr⟩ := hreg
    obtain rfl := (hs.settled.outside t reply op rfl hop).route hr
    obtain ⟨txs, hone⟩ := submitsOne_of_registers hs.step hop hr
    have hseq : InstanceId.standalone cfg.chainId seq =
        InstanceId.standalone cfg.chainId (w.shared.st.originSeq + 1) := by
      have hsame : taskOp cfg reply t = some (.submitXt txs) := by
        rw [hone.task_eq]
        rfl
      obtain rfl := Option.some.inj (hop.symm.trans hsame)
      exact (Prod.mk.inj (Option.some.inj (hr.symm.trans hone.registers))).1
    rw [hseq]
    rcases hone.next_cases with ⟨hb, -⟩ | ⟨-, -, hlocal⟩
    · exact Or.inl (held_next before after (by rw [hb]; exact List.mem_singleton_self _))
    · refine Or.inr ⟨_, hs.submitted_new hone, rfl, fun hruns => ?_⟩
      rw [hlocal] at hruns
      exact absurd hruns Bool.false_ne_true
  · obtain ⟨xt, hl, -⟩ := entry_of_not_registered hs.step
      (fun op route hop hr => hreg ⟨op, route, hop, hr⟩) hl'
    rcases hs.inv.own seq (Map.mem_of_lookup hl) with hheld | ⟨x, hx, hxid, haccepted⟩
    · rcases held_kept next hs.tasks hheld with ht | hrest
      · rcases atBuilder_cases hs.step ht with hnext | haccepts | hrem
        · exact Or.inl (held_next before after hnext)
        · exact Or.inr (hs.accepted haccepts).2.accepted
        · exact absurd hmem (hs.removed_gone hrem)
      · exact Or.inl hrest
    · exact Or.inr ⟨x, submitted_kept hx, hxid, haccepted.mono es⟩

theorem liveInv : LiveInv cfg (world w before after next sh' es)
    (recordSubmissions cfg w (.run t reply) hist) :=
  ⟨hs.book, hs.registrars, hs.given, hs.recorded, hs.once, hs.waiting, hs.passed, hs.returned,
    hs.own⟩

end LiveStep

theorem liveInv_step {s s' : World × Submissions} {m : Move}
    (h : Recorded (WorldStep cfg) (recordSubmissions cfg) s m s')
    (hsettled : AnswersSettled cfg s.1 m) (hi : LiveInv cfg s.1 s.2) : LiveInv cfg s'.1 s'.2 := by
  obtain ⟨w, hist⟩ := s
  obtain ⟨w', hist'⟩ := s'
  obtain ⟨hstep, hrecord⟩ := h
  have hquiet : ∀ m, submittedBy cfg w m = none → returnedBy cfg w m = none → agedOutBy w m = [] →
      recordSubmissions cfg w m hist = hist := by
    intro m hsubmitted hreturned haged
    simp [recordSubmissions, recordSubmitted, hsubmitted, hreturned, haged]
  dsimp only at hstep hrecord hsettled hi ⊢
  rw [hrecord]
  cases hstep with
  | arrive request =>
    rw [hquiet _ rfl rfl rfl]
    exact liveInv_quiet (quietMove_arrive w request) hi
  | connection up =>
    rw [hquiet _ rfl rfl rfl]
    exact liveInv_quiet (quietMove_connection w up) hi
  | notify htasks =>
    rw [hquiet _ rfl rfl rfl]
    exact liveInv_quiet (quietMove_notify htasks) hi
  | run hr =>
    cases hr with
    | intro htasks htask => exact LiveStep.liveInv ⟨hi, htasks, htask, hsettled⟩

end Step

/-- What the callers rely on: a returned instance was accepted and is pending until it was decided
and has aged out, and no fingerprint has two pending submissions. -/
structure SubmissionsLive (cfg : Config) (w : World) (hist : Submissions) : Prop where
  live : ∀ id ∈ hist.returned, LiveXt cfg w hist id
  one : ∀ seq seq' xt xt',
    w.shared.st.pending.lookup (InstanceId.standalone cfg.chainId seq) = some xt →
    w.shared.st.pending.lookup (InstanceId.standalone cfg.chainId seq') = some xt' →
    fingerprintOf cfg xt = fingerprintOf cfg xt' → seq = seq'

/-- As long as no repeated submission is answered before the builder has accepted the first, every
returned instance is live. -/
theorem returned_submissions_live {cfg : Config} {moves : List Move} {w : World}
    {hist : Submissions}
    (h : Run (fun s m s' => Recorded (WorldStep cfg) (recordSubmissions cfg) s m s' ∧
      AnswersSettled cfg s.1 m) (World.initial, {}) moves (w, hist)) :
    SubmissionsLive cfg w hist := by
  have hi : LiveInv cfg w hist :=
    h.invariant (I := fun s => LiveInv cfg s.1 s.2)
      (fun s m s' hs hstep => liveInv_step hstep.1 hstep.2 hs) liveInv_initial
  refine ⟨fun id hid => (hi.returned id hid).2, ?_⟩
  intro seq seq' xt xt' hl hl' hprint
  exact (InstanceId.standalone_inj (hi.book.one_per_fingerprint hl hl' hprint)).2

/-- Calls of `submit_xt` and what follows from them, each answered when the builder has accepted. -/
def settledCall (cfg : Config) (w : World) : Move → Bool
  | .run (.submitStandalone txs) _ =>
    match (submitXt cfg w.shared.st txs).2 with
    | .duplicate id => decide (id ∉ w.held Task.atBuilder)
    | _ => true
  | .run (.request (.submitXt _ _)) _ => true
  | .run (.request _) _ => false
  | _ => true

theorem answersSettled_of_call {cfg : Config} {w : World} {m : Move}
    (h : settledCall cfg w m = true) : AnswersSettled cfg w m := by
  constructor
  · rintro txs reply id rfl hdup
    simp only [settledCall, hdup] at h
    exact of_decide_eq_true h
  · rintro t reply op rfl hop
    cases runsOp_of_taskOp hop with
    | submitted txs =>
      refine ⟨fun seq hr => ?_, fun ids now he => by simp at he⟩
      exact absurd (registers_submitXt cfg _ hr).1 (by decide)
    | forwarded | started | peerVoted | decided | periodStarted | rolledBack | confirmed | cleanedUp
      | mailed => simp [settledCall] at h
    | _ => exact ⟨fun seq hr => by simp [Op.registers] at hr, fun ids now he => by simp at he⟩

/-- The same transactions are submitted again after the builder has accepted them. -/
def resubmitAccepted : List Pick :=
  [.arrive (.submitXt twoChainTxs 0), .run 0 {}, .run 0 {}, .run 0 {}, .run 0 {}, .run 0 {},
    .arrive (.submitXt twoChainTxs 1), .run 1 {}, .run 1 {}]

theorem returned_submissions_live_twice :
    ∃ moves w hist,
      Run (fun s m s' => Recorded (WorldStep builderConfig) (recordSubmissions builderConfig)
        s m s' ∧ AnswersSettled builderConfig s.1 m) (World.initial, {}) moves (w, hist) ∧
      hist.returned = ["xt-1-1", "xt-1-1"] ∧ SubmissionsLive builderConfig w hist := by
  have hexec : (execAll (recordPick (pickStep builderConfig) (recordSubmissions builderConfig))
      (fun s m => decide (settledCall builderConfig s.1 m = true)) resubmitAccepted
      (World.initial, {})).map (fun s => s.2.returned) = some ["xt-1-1", "xt-1-1"] := by
    decide +kernel
  obtain ⟨s, hs, hreturned⟩ := Option.map_eq_some_iff.mp hexec
  obtain ⟨moves, hrun⟩ := run_execAll (recorded_of_recordPick worldStep_of_pick) hs
  have hrun' : Run (fun s m s' => Recorded (WorldStep builderConfig)
      (recordSubmissions builderConfig) s m s' ∧ AnswersSettled builderConfig s.1 m)
      (World.initial, {}) moves s :=
    hrun.mono (fun _ _ _ hstep => ⟨hstep.1, answersSettled_of_call hstep.2⟩)
  exact ⟨moves, s.1, s.2, hrun', hreturned, returned_submissions_live hrun'⟩

/-- The same transactions are submitted again while the builder has the first call, which it then
declines. -/
def resubmitDeclined : List Pick :=
  [.arrive (.submitXt twoChainTxs 0), .run 0 {}, .run 0 {}, .arrive (.submitXt twoChainTxs 1),
    .run 1 {}, .run 1 {}, .run 0 {}, .run 0 { outcome := .error (.builderControl "full") }, .run 0 {}]

/-- The second caller has been given an instance that the builder declined and that is gone. -/
theorem returned_submission_declined :
    ∃ moves w hist,
      Run (Recorded (WorldStep builderConfig) (recordSubmissions builderConfig)) (World.initial, {})
        moves (w, hist) ∧
      hist.returned = ["xt-1-1"] ∧ hist.agedOut = [] ∧ "xt-1-1" ∉ w.shared.st.pending ∧
      ¬SubmissionsLive builderConfig w hist := by
  have hexec : (execAll (recordPick (pickStep builderConfig) (recordSubmissions builderConfig))
      (fun _ _ => true) resubmitDeclined (World.initial, {})).map
        (fun s => (s.2.returned, s.2.agedOut, s.1.shared.st.pending.keys)) =
      some (["xt-1-1"], [], []) := by decide +kernel
  obtain ⟨s, hs, hshown⟩ := Option.map_eq_some_iff.mp hexec
  obtain ⟨hreturned, hrest⟩ := Prod.mk.inj hshown
  obtain ⟨haged, hkeys⟩ := Prod.mk.inj hrest
  obtain ⟨moves, hrun⟩ := run_execAll_free (recorded_of_recordPick worldStep_of_pick) hs
  have hgone : "xt-1-1" ∉ s.1.shared.st.pending := by
    intro hmem
    have hkey := AList.mem_keys.mp hmem
    rw [hkeys] at hkey
    exact absurd hkey List.not_mem_nil
  refine ⟨moves, s.1, s.2, hrun, hreturned, haged, hgone, fun hlive => ?_⟩
  rcases (hlive.live "xt-1-1" (by rw [hreturned]; simp)).stays with hpending | haged'
  · exact hgone hpending
  · rw [haged] at haged'
    exact absurd haged' List.not_mem_nil

end Sidecar.Coordinator
