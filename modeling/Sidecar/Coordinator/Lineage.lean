import Sidecar.Coordinator.WorldRun

namespace Sidecar.Coordinator

open TaskSystem

/-- The handler that has registered an instance and has not gone on from the builder yet. -/
def Task.registrars : Task → List Registrar
  | .submit _ registrar => [registrar]
  | .submitting registrar => [registrar]
  | .removePending registrar _ => [registrar]
  | .registered registrar => [registrar]
  | _ => []

/-- The instance that a task brings to its local vote. Registration, `process_xt` and
`send_vote` hand it on to each other. -/
def Task.owned : Task → List InstanceId
  | .submit _ registrar => [registrar.id]
  | .submitting registrar => [registrar.id]
  | .removePending registrar _ => [registrar.id]
  | .registered registrar => [registrar.id]
  | .resolve _ _ (.process id) => [id]
  | .process id _ => [id]
  | .sendVote id _ => [id]
  | .recordVote id _ _ => [id]
  | _ => []

theorem owned_of_registrar {registrar : Registrar} {l : List Task}
    (h : registrar ∈ l.flatMap Task.registrars) : registrar.id ∈ l.flatMap Task.owned := by
  obtain ⟨t, ht, hr⟩ := List.mem_flatMap.mp h
  refine List.mem_flatMap.mpr ⟨t, ht, ?_⟩
  cases t with
  | submit | submitting | removePending | registered =>
    rw [List.mem_singleton.mp hr]
    exact List.mem_singleton.mpr rfl
  | _ => exact absurd hr List.not_mem_nil

/-- The instances that are being taken back because the builder declined them. -/
def Task.removing : Task → List InstanceId
  | .removePending registrar _ => [registrar.id]
  | _ => []

theorem removing_owned {l : List Task} {id : InstanceId} (h : id ∈ l.flatMap Task.removing) :
    id ∈ l.flatMap Task.owned := by
  obtain ⟨t, ht, hr⟩ := List.mem_flatMap.mp h
  refine List.mem_flatMap.mpr ⟨t, ht, ?_⟩
  cases t with
  | removePending => exact hr
  | _ => exact absurd hr List.not_mem_nil

section Successors

variable {cfg : Config} {reply : TaskReply} {sh sh' : Shared} {t : Task} {next : List Task}
  {es : List Event}

theorem owned_carries (t : Task) (h : t.carries = false) : t.owned = [] := by
  cases t with
  | resolve fingerprint result after => cases after <;> simp_all [Task.carries, Task.owned]
  | _ => first | rfl | simp [Task.carries] at h

theorem registrars_carries (t : Task) (h : t.carries = false) : t.registrars = [] := by
  cases t <;> first | rfl | simp [Task.carries] at h

theorem owned_submitFirst (submission : Option XtBuilderSubmission) (registrar : Registrar) :
    [submitFirst submission registrar].flatMap Task.owned = [registrar.id] := by
  cases submission <;> rfl

theorem registrars_submitFirst (submission : Option XtBuilderSubmission) (registrar : Registrar) :
    [submitFirst submission registrar].flatMap Task.registrars = [registrar] :=
  flatMap_submitFirst (fun _ => rfl) rfl

theorem registrars_registrarNext (registrar : Registrar) :
    (registrar.next cfg).flatMap Task.registrars = [] :=
  flatMap_registrarNext cfg (fun _ _ => rfl) (fun _ _ => rfl) (fun _ _ _ => rfl) registrar

/-- The step registers an instance. -/
def RegistersOne (cfg : Config) (reply : TaskReply) (sh sh' : Shared) (t : Task)
    (next : List Task) : Prop :=
  ∃ xt registrar op route, Registers cfg sh.st t xt registrar ∧ taskOp cfg reply t = some op ∧
    op.registers cfg sh.st = some (xt.id, route) ∧ sh'.st.pending.lookup xt.id = some xt ∧
    next = [submitFirst (localBuilderSubmission cfg.chainId xt) registrar]

/-- A task hands an instance on to at most one other, or takes on a registered one. -/
theorem owned_step (h : TaskEffect cfg reply sh sh' t next es) :
    List.Sublist (next.flatMap Task.owned) t.owned ∨ RegistersOne cfg reply sh sh' t next := by
  rcases handsOn_or_drops h with hand | hdrop
  · cases hand with
    | registered hreg hop hr hl => exact Or.inr ⟨_, _, _, _, hreg, hop, hr, hl, rfl⟩
    | proceeded registrar =>
      left
      cases registrar with
      | submitted id txs =>
        simp only [Registrar.next]
        split_ifs <;> exact List.Sublist.refl _
      | forwarded id hasLocal => cases hasLocal <;> simp [Registrar.next, Task.owned, Registrar.id]
      | started id rawId fingerprint includesLocal =>
        cases includesLocal <;> simp [Registrar.next, Task.owned, Registrar.id]
    | modeChosen | forwardStarted => exact Or.inl (List.nil_sublist _)
    | submitted | notSubmitted | accepted | declined | resolved | processed | processVoted
      | modeRead => exact Or.inl (List.Sublist.refl _)
  · rw [flatMap_of_drops owned_carries hdrop]
    exact Or.inl (List.nil_sublist _)

/-- A handler that is still with the builder was so before the step, or has just registered. -/
theorem registrars_step (h : TaskEffect cfg reply sh sh' t next es) {registrar : Registrar}
    (hr : registrar ∈ next.flatMap Task.registrars) :
    registrar ∈ t.registrars ∨ RegistersOne cfg reply sh sh' t next := by
  rcases handsOn_or_drops h with hand | hdrop
  · cases hand with
    | registered hreg hop ho hl => exact Or.inr ⟨_, _, _, _, hreg, hop, ho, hl, rfl⟩
    | proceeded => simp [registrars_registrarNext] at hr
    | submitted | notSubmitted | accepted | declined =>
      exact Or.inl (by simpa [Task.registrars] using hr)
    | modeChosen | forwardStarted | resolved | processed | processVoted | modeRead =>
      simp [Task.registrars] at hr
  · simp [flatMap_of_drops registrars_carries hdrop] at hr

end Successors

section Votes

variable {cfg : Config} {reply : TaskReply} {sh sh' : Shared} {t : Task} {next : List Task}
  {es : List Event}

/-- Only the local vote of the instance itself writes a local vote. -/
theorem localVote_apply {st : CoordinatorState} {op : Op} {id : InstanceId} {xt xt' : PendingXt}
    (hl : st.pending.lookup id = some xt) (hl' : (op.apply cfg st).pending.lookup id = some xt')
    (hreg : ∀ route, op.registers cfg st ≠ some (id, route)) (hv : xt.localVote = none) :
    xt'.localVote = none ∨ ∃ vote standalone now, op = .sendVote id vote standalone now ∧
      xt'.localVote = some vote := by
  have he := xtEffect cfg st op id
  rw [hl, hl'] at he
  cases he with
  | same => exact Or.inl hv
  | touched _ _ hc => exact Or.inl ((congrArg XtCore.localVote hc).trans hv)
  | registered _ _ route _ hr _ => exact absurd hr (hreg route)
  | voted _ vote standalone now _ =>
    exact Or.inr ⟨vote, standalone, now, rfl,
      congrArg XtCore.localVote (castVote_frame cfg xt vote standalone now)⟩
  | peerVoted _ chainId vote now _ _ =>
    exact Or.inl ((congrArg XtCore.localVote (standaloneDecision_frame cfg.chainId
      { xt with peerVotes := xt.peerVotes.insert chainId vote } now)).trans hv)
  | decided => exact Or.inl hv
  | outdated =>
    unfold abortUndecided
    split_ifs <;> exact Or.inl hv
  | rolledBack =>
    unfold forceAbort
    split_ifs <;> exact Or.inl hv

theorem taskOp_sendVote {id : InstanceId} {vote standalone : Bool} {now : Instant}
    (h : taskOp cfg reply t = some (.sendVote id vote standalone now)) :
    t = .recordVote id vote standalone := by
  cases runsOp_of_taskOp h with
  | voted => rfl

/-- A step that leaves an instance unvoted is no `send_vote` of it. -/
theorem localVote_taskStep (h : taskStep cfg reply sh t = some (sh', next, es)) {id : InstanceId}
    {xt xt' : PendingXt} (hl : sh.st.pending.lookup id = some xt)
    (hl' : sh'.st.pending.lookup id = some xt')
    (hreg : ∀ op route, taskOp cfg reply t = some op → op.registers cfg sh.st ≠ some (id, route))
    (hv : xt.localVote = none) :
    xt'.localVote = none ∨ ∃ vote standalone, t = .recordVote id vote standalone ∧
      xt'.localVote = some vote := by
  rcases taskStep_op h with ⟨-, hst⟩ | ⟨op, hop, hst⟩
  · rw [hst] at hl'
    obtain rfl := Option.some.inj (hl.symm.trans hl')
    exact Or.inl hv
  · rw [hst] at hl'
    rcases localVote_apply hl hl' (fun route => hreg op route hop) hv with hn |
      ⟨vote, standalone, now, rfl, hvote⟩
    · exact Or.inl hn
    · exact Or.inr ⟨vote, standalone, taskOp_sendVote hop, hvote⟩

/-- The vote of an instance that `send_vote` has just recorded. -/
theorem recorded_localVote {id : InstanceId} {vote standalone : Bool}
    (h : taskStep cfg reply sh (.recordVote id vote standalone) = some (sh', next, es))
    {xt xt' : PendingXt} (hl : sh.st.pending.lookup id = some xt) (hv : xt.localVote = none)
    (hl' : sh'.st.pending.lookup id = some xt') : xt'.localVote = some vote := by
  rw [taskStep_state cfg reply sh h] at hl'
  simp only [taskOp, stateAfterOp, Option.elim_some, Op.apply, recordVote, hl, hv,
    Option.isSome_none, Bool.false_eq_true, if_false, lookup_updateXt, if_true,
    Option.map_some, Option.some.injEq] at hl'
  rw [← hl']
  exact congrArg XtCore.localVote (castVote_frame cfg xt vote standalone reply.now)

end Votes

section Invariant

variable {cfg : Config} {reply : TaskReply} {w : World} {t : Task} {before after next : List Task}
  {sh' : Shared} {es : List Event}

/-- Each instance is in the hands of one task at most, and has no local vote before
`process_xt` runs on it. -/
structure LineageInv (w : World) : Prop where
  owners : (w.held Task.owned).Nodup
  young : ∀ registrar ∈ w.held Task.registrars, ∀ xt,
    w.shared.st.pending.lookup registrar.id = some xt → xt.localVote = none

theorem lineageInv_initial : LineageInv World.initial := by
  constructor <;> simp [World.initial, held]

theorem lasting_owned : Lasting Task.owned := ⟨fun t => by cases t <;> rfl, fun _ => rfl, rfl⟩

theorem lasting_removing : Lasting Task.removing := ⟨fun t => by cases t <;> rfl, fun _ => rfl, rfl⟩

theorem lasting_registrars : Lasting Task.registrars :=
  ⟨fun t => by cases t <;> rfl, fun _ => rfl, rfl⟩

theorem lineageInv_quiet {w' : World} (h : QuietMove w w') (hi : LineageInv w) : LineageInv w' := by
  constructor
  · rw [h.held_eq lasting_owned]
    exact hi.owners
  · rw [h.held_eq lasting_registrars, h.st_eq]
    exact hi.young

/-- An instance in the hands of a task after a step was so before, or the step registers it. -/
theorem owned_after (htasks : w.tasks = before ++ t :: after)
    (h : taskStep cfg reply w.shared t = some (sh', next, es)) {id : InstanceId}
    (ho : id ∈ (before ++ next ++ after).flatMap Task.owned) :
    id ∈ w.held Task.owned ∨ ∃ op route, taskOp cfg reply t = some op ∧
      op.registers cfg w.shared.st = some (id, route) := by
  rcases held_of_split htasks ho with hnext | hw
  · rcases owned_step (taskStep_effect h) with hsub | ⟨xt, registrar, op, route, hreg, hop, hr, -, rfl⟩
    · exact Or.inl (mem_held.mpr ⟨t, mem_of_split htasks, hsub.subset hnext⟩)
    · rw [owned_submitFirst, List.mem_singleton, hreg.id_eq] at hnext
      rw [hnext]
      exact Or.inr ⟨op, route, hop, hr⟩
  · exact Or.inl hw

theorem registeredIds_of_registers (h : taskStep cfg reply w.shared t = some (sh', next, es))
    {op : Op} {id : InstanceId} {route : Route} (hop : taskOp cfg reply t = some op)
    (hr : op.registers cfg w.shared.st = some (id, route)) : id ∈ registeredIds es := by
  obtain ⟨xt, -, hnew⟩ := newEntry_of_registers h hop hr
  simp [hnew.events, registeredIds, registeredId]

/-- Every instance in the hands of a task was registered. -/
theorem ownedKnown_step (htasks : w.tasks = before ++ t :: after)
    (h : taskStep cfg reply w.shared t = some (sh', next, es))
    (hknown : ∀ id ∈ w.held Task.owned, id ∈ registeredIds w.log) (id : InstanceId)
    (ho : id ∈ (before ++ next ++ after).flatMap Task.owned) : id ∈ registeredIds (w.log ++ es) := by
  rw [registeredIds_append, List.mem_append]
  rcases owned_after htasks h ho with hw | ⟨op, route, hop, hr⟩
  · exact Or.inl (hknown id hw)
  · exact Or.inr (registeredIds_of_registers h hop hr)

/-- What a step registers belongs to no task yet. -/
def RegistersUnowned (cfg : Config) (w : World) (t : Task) (reply : TaskReply) : Prop :=
  ∀ op id route, taskOp cfg reply t = some op → op.registers cfg w.shared.st = some (id, route) →
    id ∉ w.held Task.owned

/-- A handler that is with the builder after a step, for an instance the step did not
register: it was so before, and the step is not the vote of that instance. -/
theorem registrar_before (htasks : w.tasks = before ++ t :: after)
    (h : taskStep cfg reply w.shared t = some (sh', next, es)) (hi : LineageInv w)
    {registrar : Registrar} (hr : registrar ∈ (before ++ next ++ after).flatMap Task.registrars)
    (hno : ∀ op route, taskOp cfg reply t = some op →
      op.registers cfg w.shared.st ≠ some (registrar.id, route)) :
    registrar ∈ w.held Task.registrars ∧
      ∀ vote standalone, t ≠ .recordVote registrar.id vote standalone := by
  rcases held_split hr with hnext | hrest
  · rcases registrars_step (taskStep_effect h) hnext with ht | ⟨x, r, op, route, hx, hop, ho, -, rfl⟩
    · have hvote : ∀ vote standalone, t ≠ .recordVote registrar.id vote standalone := by
        intro vote standalone he
        simp [he, Task.registrars] at ht
      exact ⟨mem_held.mpr ⟨t, mem_of_split htasks, ht⟩, hvote⟩
    · rw [registrars_submitFirst, List.mem_singleton] at hnext
      rw [hnext, hx.id_eq] at hno
      exact absurd ho (hno op route hop)
  · have hfree := held_once htasks hi.owners (owned_of_registrar hrest)
    have hvote : ∀ vote standalone, t ≠ .recordVote registrar.id vote standalone := by
      intro vote standalone he
      exact hfree (by simp [he, Task.owned])
    exact ⟨held_rest htasks hrest, hvote⟩

theorem lineageInv_run (htasks : w.tasks = before ++ t :: after)
    (h : taskStep cfg reply w.shared t = some (sh', next, es))
    (hnew : RegistersUnowned cfg w t reply) (hi : LineageInv w) :
    LineageInv ⟨sh', before ++ next ++ after, w.log ++ es⟩ := by
  constructor
  · rcases owned_step (taskStep_effect h) with hsub | ⟨xt, registrar, op, route, hreg, hop, hr, -, rfl⟩
    · exact nodup_of_split htasks hi.owners hsub
    · refine nodup_of_new htasks hi.owners (owned_submitFirst _ _) ?_
      rw [hreg.id_eq]
      exact hnew op xt.id route hop hr
  · intro registrar hr xt' hl'
    by_cases hreg : ∃ op route, taskOp cfg reply t = some op ∧
        op.registers cfg w.shared.st = some (registrar.id, route)
    · obtain ⟨op, route, hop, ho⟩ := hreg
      obtain ⟨xt, hx, hentry⟩ := newEntry_of_registers h hop ho
      obtain rfl := Option.some.inj (hx.symm.trans hl')
      obtain ⟨route', hfresh⟩ := hentry.fresh
      exact hfresh.localVote_eq
    · have hno : ∀ op route, taskOp cfg reply t = some op →
          op.registers cfg w.shared.st ≠ some (registrar.id, route) :=
        fun op route hop ho => hreg ⟨op, route, hop, ho⟩
      obtain ⟨hbefore, hvote⟩ := registrar_before htasks h hi hr hno
      obtain ⟨xt, hx, -⟩ := entry_of_not_registered h hno hl'
      rcases localVote_taskStep h hx hl' hno (hi.young registrar hbefore xt hx) with hn |
        ⟨vote, standalone, ht, -⟩
      · exact hn
      · exact absurd ht (hvote vote standalone)

end Invariant

end Sidecar.Coordinator
