import Sidecar.Coordinator.Entry

namespace Sidecar.Coordinator

section Period

variable (cfg : Config) (st : CoordinatorState)

/-- The locked parts that open, close or advance the publisher's period. -/
def Op.movesPeriod : Op → Bool
  | .startInstance _ | .startPeriod _ _ | .rollback _ => true
  | _ => false

theorem period_submitXt (txs : RawTxs) :
    (submitXt cfg st txs).1.publisherPeriod = st.publisherPeriod := by
  have h := submitXt_effect cfg st txs
  generalize submitXt cfg st txs = r at h ⊢
  cases h <;> rfl

/-- The other locked parts leave the period alone. -/
theorem period_apply (op : Op) (h : op.movesPeriod = false) :
    (op.apply cfg st).publisherPeriod = st.publisherPeriod := by
  have hregistry : op.keepsRegistry = true →
      (op.apply cfg st).publisherPeriod = st.publisherPeriod :=
    fun hkeeps => congrArg Registry.publisherPeriod (registry_apply cfg st hkeeps)
  cases op with
  | startInstance | startPeriod | rollback => simp [Op.movesPeriod] at h
  | submitXt txs => exact period_submitXt cfg st txs
  | forwardXt id txs originChain originSeq =>
    rcases forwardXt_cases cfg st id txs originChain originSeq with ⟨-, hs⟩ | ⟨-, -, hs⟩
    · rw [Op.apply, hs]
    · rw [Op.apply, hs]
      rfl
  | removePending closed id =>
    simp only [Op.apply, removePendingXt]
    split <;> rfl
  | mailbox msg => exact congrArg Registry.publisherPeriod (registry_deliverMailbox st msg)
  | cleanup closed now maxAge => rfl
  | sendVote | peerVote | onDecision | confirm | enqueue | resolve | lockChain | recordSimulation
    | fulfill | dispatch => exact hregistry rfl

end Period

/-- Period and sequence number of an admitted instance. -/
abbrev Slot := PeriodId × SequenceNumber

/-- The order of admission: by period, then by sequence number. -/
def Slot.Before (a b : Slot) : Prop := a.1 < b.1 ∨ a.1 = b.1 ∧ a.2 < b.2

instance (a b : Slot) : Decidable (a.Before b) := inferInstanceAs (Decidable (_ ∨ _))

section Admitted

variable (cfg : Config)

/-- The pairs that `accept_start_instance` admitted since the last rollback, in order. -/
def sinceRollback (st : CoordinatorState) (op : Op) (admitted : List Slot) : List Slot :=
  match op with
  | .rollback _ => []
  | .startInstance inst =>
    if (op.registers cfg st).isSome then admitted ++ [(inst.periodId, inst.sequenceNumber)]
    else admitted
  | _ => admitted

/-- A period is opened only past every admitted instance. -/
def opensLater (admitted : List Slot) : Op → Bool
  | .startPeriod periodId _ => admitted.all (fun a => a.1 < periodId)
  | _ => true

/-- The current period has passed an admitted pair, or the last accepted number has. -/
def Passed (period : PublisherPeriod) (a : Slot) : Prop :=
  ∃ current, period.current = some current ∧
    (a.1 < current ∨ a.1 = current ∧ ∃ last, period.lastSequence = some last ∧ a.2 ≤ last)

/-- What the admitted pairs have to do with the period now open. -/
structure AdmittedInv (s : CoordinatorState × List Slot) : Prop where
  increasing : s.2.Pairwise Slot.Before
  passed : ∀ a ∈ s.2, Passed s.1.publisherPeriod a

theorem accept_ok {p p' : PublisherPeriod} {periodId : PeriodId} {seq : SequenceNumber}
    (h : p.acceptStartInstance periodId seq = .ok p') :
    p.current = some periodId ∧ p' = { p with lastSequence := some seq } ∧
      ∀ last, p.lastSequence = some last → last < seq := by
  unfold PublisherPeriod.acceptStartInstance at h
  cases hc : p.current with
  | none => simp [hc] at h
  | some current =>
    rw [hc] at h
    dsimp only at h
    split_ifs at h with hstale hfuture
    have hperiod : current = periodId :=
      Nat.le_antisymm (Nat.le_of_not_lt hstale) (Nat.le_of_not_lt hfuture)
    cases hl : p.lastSequence with
    | none =>
      rw [hl] at h
      exact ⟨by rw [hperiod], (Except.ok.inj h).symm, by simp⟩
    | some last =>
      rw [hl] at h
      dsimp only at h
      split_ifs at h with hseq
      refine ⟨by rw [hperiod], (Except.ok.inj h).symm, ?_⟩
      intro l hl'
      rw [← Option.some.inj hl']
      exact Nat.lt_of_not_le hseq

/-- An admission accepts the period and the number, and nothing else touches the period. -/
theorem startInstance_period (st : CoordinatorState) (inst : SpecInstance) :
    ((Op.startInstance inst).registers cfg st = none ∧
        ((Op.startInstance inst).apply cfg st).publisherPeriod = st.publisherPeriod) ∨
      ((Op.startInstance inst).registers cfg st).isSome ∧
        st.publisherPeriod.acceptStartInstance inst.periodId inst.sequenceNumber =
          .ok ((Op.startInstance inst).apply cfg st).publisherPeriod := by
  simp only [Op.registers, Op.apply, registerStarted]
  split_ifs with hknown hfull
  · exact Or.inl ⟨rfl, rfl⟩
  · exact Or.inl ⟨rfl, rfl⟩
  · cases st.publisherPeriod.acceptStartInstance inst.periodId inst.sequenceNumber with
    | error err => exact Or.inl ⟨rfl, rfl⟩
    | ok period => exact Or.inr ⟨rfl, rfl⟩

variable {cfg} {st : CoordinatorState} {admitted : List Slot}

/-- Every pair admitted so far comes before the one that is accepted now. -/
theorem before_of_accept {p p' : PublisherPeriod} {periodId : PeriodId} {seq : SequenceNumber}
    (h : p.acceptStartInstance periodId seq = .ok p') {a : Slot} (ha : Passed p a) :
    a.Before (periodId, seq) := by
  obtain ⟨hcurrent, -, hlast⟩ := accept_ok h
  obtain ⟨current, hc, hpassed⟩ := ha
  obtain rfl := Option.some.inj (hc.symm.trans hcurrent)
  rcases hpassed with hperiod | ⟨hperiod, last, hl, hseq⟩
  · exact Or.inl hperiod
  · exact Or.inr ⟨hperiod, hseq.trans_lt (hlast last hl)⟩

theorem admittedInv_startInstance (h : AdmittedInv (st, admitted)) (inst : SpecInstance) :
    AdmittedInv ((Op.startInstance inst).apply cfg st,
      sinceRollback cfg st (.startInstance inst) admitted) := by
  rcases startInstance_period cfg st inst with ⟨hnone, hsame⟩ | ⟨hsome, haccept⟩
  · simp only [sinceRollback, hnone, Option.isSome_none, Bool.false_eq_true, if_false]
    exact ⟨h.increasing, fun a ha => hsame ▸ h.passed a ha⟩
  · obtain ⟨hcurrent, hnext, hlast⟩ := accept_ok haccept
    simp only [sinceRollback, hsome, if_true]
    constructor
    · rw [List.pairwise_append]
      refine ⟨h.increasing, List.pairwise_singleton _ _, ?_⟩
      intro a ha b hb
      rw [List.mem_singleton.mp hb]
      exact before_of_accept haccept (h.passed a ha)
    · intro a ha
      refine ⟨inst.periodId, by rw [hnext]; exact hcurrent, ?_⟩
      rcases List.mem_append.mp ha with hold | hnew
      · rcases before_of_accept haccept (h.passed a hold) with hperiod | ⟨hperiod, hseq⟩
        · exact Or.inl hperiod
        · exact Or.inr ⟨hperiod, inst.sequenceNumber, by rw [hnext], hseq.le⟩
      · rw [List.mem_singleton.mp hnew]
        exact Or.inr ⟨rfl, inst.sequenceNumber, by rw [hnext], le_refl _⟩

theorem admittedInv_step (h : AdmittedInv (st, admitted)) (op : Op)
    (hopens : opensLater admitted op = true) :
    AdmittedInv (op.apply cfg st, sinceRollback cfg st op admitted) := by
  cases hmoves : op.movesPeriod with
  | false =>
    have hsame : sinceRollback cfg st op admitted = admitted := by
      cases op with
      | startInstance | startPeriod | rollback => simp [Op.movesPeriod] at hmoves
      | _ => rfl
    rw [hsame]
    exact ⟨h.increasing, fun a ha => (period_apply cfg st op hmoves).symm ▸ h.passed a ha⟩
  | true =>
    cases op with
    | startInstance inst => exact admittedInv_startInstance h inst
    | startPeriod periodId now =>
      refine ⟨h.increasing, fun a ha => ?_⟩
      have hlater : a.1 < periodId := by simpa using List.all_eq_true.mp hopens a ha
      exact ⟨periodId, rfl, Or.inl hlater⟩
    | rollback now => exact ⟨List.Pairwise.nil, fun _ ha => absurd ha List.not_mem_nil⟩
    | _ => simp [Op.movesPeriod] at hmoves

theorem admittedInv_initial : AdmittedInv ({}, []) :=
  ⟨List.Pairwise.nil, fun _ ha => absurd ha List.not_mem_nil⟩

end Admitted

/-- When every period is opened past the instances admitted since the last rollback, these are
admitted in strictly increasing order, so no pair twice. -/
theorem admitted_increasing {cfg : Config} {ops : List Op} {st : CoordinatorState}
    {admitted : List Slot}
    (h : Run (fun s op t => Recorded (Step cfg) (sinceRollback cfg) s op t ∧
      opensLater s.2 op = true) ({}, []) ops (st, admitted)) :
    admitted.Pairwise Slot.Before ∧ admitted.Nodup := by
  have hinv : AdmittedInv (st, admitted) := by
    refine h.invariant (I := AdmittedInv) (fun s op t hs hstep => ?_) admittedInv_initial
    obtain ⟨⟨hst, hadmitted⟩, hopens⟩ := hstep
    have ht : t = (op.apply cfg s.1, sinceRollback cfg s.1 op s.2) := Prod.ext hst hadmitted
    rw [ht]
    exact admittedInv_step hs op hopens
  refine ⟨hinv.increasing, hinv.increasing.imp ?_⟩
  intro a b hab hsame
  rw [hsame] at hab
  rcases hab with hlt | ⟨-, hlt⟩
  · exact Nat.lt_irrefl _ hlt
  · exact Nat.lt_irrefl _ hlt

/-- An instance of chains 1 and 2 under the raw id of 32 equal bytes. -/
def slotInstance (byte : UInt8) (periodId : PeriodId) (seq : SequenceNumber) : SpecInstance :=
  { id := List.replicate 32 byte
    periodId := periodId
    sequenceNumber := seq
    xtRequest := ⟨[⟨1, [[1]]⟩, ⟨2, [[2]]⟩]⟩ }

/-- Two instances of period 7 with a gap between them, then one of period 8. -/
def advancingCalls : List Op :=
  [.startPeriod 7 0, .startInstance (slotInstance 1 7 3), .startInstance (slotInstance 2 7 9),
    .startPeriod 8 1, .startInstance (slotInstance 3 8 1)]

theorem admitted_increasing_over_periods :
    ∃ ops st, Run (fun s op t => Recorded (Step (.bare 1)) (sinceRollback (.bare 1)) s op t ∧
        opensLater s.2 op = true) ({}, []) ops (st, [(7, 3), (7, 9), (8, 1)]) ∧
      List.Pairwise Slot.Before [(7, 3), (7, 9), (8, 1)] := by
  have hexec : ((execAll (recordNext (Op.apply (.bare 1)) (sinceRollback (.bare 1)))
      (fun s op => decide (opensLater s.2 op = true)) advancingCalls ({}, [])).map Prod.snd) =
      some [(7, 3), (7, 9), (8, 1)] := by decide
  obtain ⟨s, hs, hadmitted⟩ := Option.map_eq_some_iff.mp hexec
  obtain ⟨ops, hrun⟩ := run_execAll recorded_of_recordNext hs
  have hrun' : Run (fun s op t => Recorded (Step (.bare 1)) (sinceRollback (.bare 1)) s op t ∧
      opensLater s.2 op = true) ({}, []) ops (s.1, [(7, 3), (7, 9), (8, 1)]) := by
    rw [← hadmitted]
    exact hrun
  exact ⟨ops, s.1, hrun', (admitted_increasing hrun').1⟩

/-- Period 7 is opened a second time after an instance of it was admitted. -/
def reopeningCalls : List Op :=
  [.startPeriod 7 0, .startInstance (slotInstance 1 7 3), .startPeriod 7 1,
    .startInstance (slotInstance 2 7 3)]

/-- A repeated `StartPeriod` forgets the last sequence number, and the same pair is admitted
again. -/
theorem reopened_period_admits_twice :
    ∃ st, Run (Recorded (Step (.bare 1)) (sinceRollback (.bare 1))) ({}, []) reopeningCalls
        (st, [(7, 3), (7, 3)]) ∧
      ¬List.Pairwise Slot.Before [(7, 3), (7, 3)] ∧ ¬List.Nodup [((7, 3) : Slot), (7, 3)] := by
  have hrun := Run.record_foldl (f := fun st op => Op.apply (.bare 1) st op)
    (sinceRollback (.bare 1)) reopeningCalls ({}, [])
  generalize hs : reopeningCalls.foldl (fun s op => (Op.apply (.bare 1) s.1 op,
    sinceRollback (.bare 1) s.1 op s.2)) (({}, []) : CoordinatorState × List Slot) = s at hrun
  have hadmitted : s.2 = [(7, 3), (7, 3)] := by
    rw [← hs]
    decide
  refine ⟨s.1, ?_, by decide, by decide⟩
  rw [← hadmitted]
  exact hrun

end Sidecar.Coordinator
