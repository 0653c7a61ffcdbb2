import Sidecar.Coordinator.BuilderOrder
import Sidecar.Coordinator.RegistrationRoutes
import Sidecar.Coordinator.Rest
import Sidecar.Coordinator.StandaloneVote

namespace Sidecar.Coordinator

open TaskSystem

section Voting

/-- The instance that a task is bringing to its local vote, or is taking back. -/
def Task.voting : Task → List InstanceId
  | .submit _ registrar | .submitting registrar | .registered registrar
  | .removePending registrar _ => registrar.voter
  | .resolve _ _ (.process id) => [id]
  | .process _ .finished => []
  | .process id _ => [id]
  | .sendVote id _ | .recordVote id _ _ => [id]
  | _ => []

variable {cfg : Config} {reply : TaskReply} {sh sh' : Shared} {t : Task} {next : List Task}
  {es : List Event}

end Voting

section Orders

/-- A command that the builder got. -/
def orderEvent : Event → Option (InstanceId × Bool)
  | .releaseXt id _ => some (id, true)
  | .abortXt id => some (id, false)
  | _ => none

/-- The commands that the builder got or is about to get. -/
def World.commands (w : World) : List (InstanceId × Bool) := w.dealt Task.orders orderEvent

/-- Nothing fails on a command's way to the builder: the nonces are reserved, the transactions are
built and the builder answers. -/
def CommandsServed (cfg : Config) : Move → Prop
  | .run t reply => t.orders ≠ [] → builderServes cfg reply t = true
  | _ => True

instance (cfg : Config) : DecidablePred (CommandsServed cfg)
  | .run _ _ => inferInstanceAs (Decidable (_ → _))
  | .arrive _ | .connection _ | .notify => inferInstanceAs (Decidable True)

variable {cfg : Config} {reply : TaskReply} {sh sh' : Shared} {t : Task} {next : List Task}
  {es : List Event} {w : World}

theorem orders_commandOr (command : Option XtBuilderCommand) (resume : Resume) :
    (commandOr cfg command resume).flatMap Task.orders =
      command.toList.map XtBuilderCommand.order ++ resume.orders := by
  cases command with
  | none => exact orders_next cfg resume
  | some command => exact List.append_nil _

/-- The commands that a locked part decides on are in the hands of what the step leaves. -/
theorem commands_handed (h : taskStep cfg reply sh t = some (sh', next, es)) {op : Op}
    (hop : taskOp cfg reply t = some op) {c : XtBuilderCommand} (hc : c ∈ op.commands cfg sh.st) :
    c.order ∈ next.flatMap Task.orders := by
  have horder : ∀ {command : Option XtBuilderCommand} {resume : Resume}, c ∈ command.toList →
      c.order ∈ (commandOr cfg command resume).flatMap Task.orders := by
    intro command resume hmem
    rw [orders_commandOr]
    exact List.mem_append_left _ (List.mem_map_of_mem hmem)
  have habort : ∀ {ids : List InstanceId} {resume : Resume},
      resume.orders = ids.map (fun id => (id, false)) → c ∈ ids.map XtBuilderCommand.abort →
      c.order ∈ (resume.next cfg).flatMap Task.orders := by
    intro ids resume hresume hmem
    obtain ⟨id, hid, rfl⟩ := List.mem_map.mp hmem
    rw [orders_next, hresume]
    exact List.mem_map_of_mem hid
  have hnext : ∀ {o : TaskOutcome}, some o = some (sh', next, es) → next = o.2.1 := by
    intro o ho
    rw [Option.some.inj ho]
  have hruns := runsOp_of_taskOp hop
  cases hruns with
  | peerVoted id chainId vote =>
    rw [hnext h]
    simp only [Op.commands] at hc
    simp only [handleRequest, handlePeerVote]
    rcases hrecord : recordPeerVote cfg sh.st id chainId vote reply.now with ⟨st', command | err⟩
    · rw [hrecord] at hc
      exact absurd hc List.not_mem_nil
    · rw [hrecord] at hc
      exact horder hc
  | decided id decision =>
    rw [hnext h]
    simp only [Op.commands] at hc
    simp only [handleRequest, onDecision]
    rcases hrecord : recordPublisherDecision cfg sh.st id decision reply.now with
      ⟨st', command | err⟩
    · rw [hrecord] at hc
      exact absurd hc List.not_mem_nil
    · rw [hrecord] at hc
      exact horder hc
  | periodStarted periodId =>
    rw [hnext h]
    exact habort rfl hc
  | rolledBack =>
    rw [hnext h]
    exact habort rfl hc
  | voted id vote standalone =>
    rw [hnext h]
    simp only [Op.commands] at hc
    simp only [recordLocalVote]
    rcases hrecord : recordVote cfg sh.st id vote standalone reply.now with ⟨st', record | record⟩
    · rw [hrecord] at hc
      exact absurd hc List.not_mem_nil
    · rw [hrecord] at hc
      exact horder hc
  | _ => exact absurd hc List.not_mem_nil

theorem localBuilderCommand_order {chainId : ChainId} {xt : PendingXt} {id : InstanceId}
    (hr : xt.runsOn chainId = true) (hid : xt.id = id) (d : Bool) :
    ∃ c, localBuilderCommand chainId xt d = some c ∧ c.order = (id, d) := by
  subst hid
  unfold localBuilderCommand
  rw [if_pos hr]
  cases d with
  | true => exact ⟨_, rfl, rfl⟩
  | false => exact ⟨_, rfl, rfl⟩

/-- A count that decides comes with its command. -/
theorem counted_order {xt : PendingXt} {now : Instant} {d : Bool} {id : InstanceId}
    (hd : xt.decision ≠ some d) (hr : xt.runsOn cfg.chainId = true) (hid : xt.id = id)
    (hd' : (maybeMakeStandaloneDecision cfg.chainId xt now).1.decision = some d) :
    ∃ c, decidedCommand cfg (maybeMakeStandaloneDecision cfg.chainId xt now).1
      (maybeMakeStandaloneDecision cfg.chainId xt now).2 = some c ∧ c.order = (id, d) := by
  rcases standaloneDecision_cases cfg.chainId xt now with hmade | ⟨-, -, n, m, hmade⟩ |
    ⟨-, -, n, m, hmade⟩
  · rw [hmade] at hd'
    exact absurd hd' hd
  · rw [hmade] at hd' ⊢
    obtain rfl : false = d := Option.some.inj hd'
    exact localBuilderCommand_order hr hid false
  · rw [hmade] at hd' ⊢
    obtain rfl : true = d := Option.some.inj hd'
    exact localBuilderCommand_order hr hid true

/-- A decision that a locked part makes or changes comes with its command. -/
theorem command_of_decided {st : CoordinatorState} (hk : KeyedById st) {op : Op} {id : InstanceId}
    {xt xt' : PendingXt} {d : Bool} (hl : st.pending.lookup id = some xt)
    (hl' : (op.apply cfg st).pending.lookup id = some xt')
    (hreg : ∀ route, op.registers cfg st ≠ some (id, route))
    (hr : xt.runsOn cfg.chainId = true) (hd' : xt'.decision = some d)
    (hd : xt.decision ≠ some d) : ∃ c ∈ op.commands cfg st, c.order = (id, d) := by
  have hid := hk id xt hl
  have heffect := xtEffect cfg st op id
  rw [hl, hl'] at heffect
  cases heffect with
  | same => exact absurd hd' hd
  | touched _ _ hcore =>
    have hsame : xt'.decision = xt.decision := congrArg XtCore.decision hcore
    exact absurd (hsame.symm.trans hd') hd
  | registered _ _ route _ hregisters => exact absurd hregisters (hreg route)
  | voted _ vote standalone now hv =>
    simp only [Op.commands, recordVote, hl]
    rw [if_neg (by simp [hv]), castVote_eq]
    rw [castVote_eq] at hd'
    cases standalone with
    | false => exact absurd hd' hd
    | true =>
      obtain ⟨c, hc, horder⟩ := @counted_order cfg (withLocalVote cfg xt vote now) now d id hd hr
        hid hd'
      exact ⟨c, by simp [hc], horder⟩
  | peerVoted _ chainId vote now hnone hnew =>
    simp only [Op.commands, recordPeerVote, hl]
    rw [if_neg (by simp [hnone]), if_neg hnew]
    obtain ⟨c, hc, horder⟩ := @counted_order cfg
      { xt with peerVotes := xt.peerVotes.insert chainId vote } now d id hd hr hid hd'
    exact ⟨c, by simp [hc], horder⟩
  | decided _ decision now hnone =>
    simp only [Op.commands, recordPublisherDecision, hl]
    rw [if_neg (by simp [hnone])]
    obtain rfl : decision = d := Option.some.inj hd'
    obtain ⟨c, hc, horder⟩ := @localBuilderCommand_order cfg.chainId
      (xt.recordDecision decision now) id hr hid decision
    exact ⟨c, by simp [hc], horder⟩
  | outdated _ periodId now hstale =>
    have hfalse := @abortUndecided_decision xt now (isStale_decision hstale)
    obtain rfl : false = d := Option.some.inj (hfalse.symm.trans hd')
    refine ⟨.abort id, List.mem_map_of_mem ?_, rfl⟩
    exact (mem_abortIds cfg st hk _ id).mpr ⟨xt, hl, hstale, hr⟩
  | rolledBack _ now =>
    obtain rfl : false = d := Option.some.inj ((forceAbort_decision xt now).symm.trans hd')
    refine ⟨.abort id, List.mem_map_of_mem ?_, rfl⟩
    exact (mem_abortIds cfg st hk _ id).mpr ⟨xt, hl, rfl, hr⟩

/-- When nothing fails, a command in the hands of a task is handed on or given to the builder. -/
theorem order_handed (hclient : cfg.xtBuilderClient = true)
    (hserved : CommandsServed cfg (.run t reply))
    (h : taskStep cfg reply sh t = some (sh', next, es)) {o : InstanceId × Bool}
    (ho : o ∈ t.orders) : o ∈ next.flatMap Task.orders ∨ o ∈ es.filterMap orderEvent := by
  have hok := hserved (List.ne_nil_of_mem ho)
  have hheld : ∀ {resume : Resume}, o ∈ resume.orders →
      o ∈ (resume.next cfg).flatMap Task.orders := by
    intro resume hresume
    rwa [orders_next]
  cases t with
  | command command resume =>
    cases command with
    | release id deps =>
      left
      simp only [builderServes, hclient, Bool.not_true, Bool.false_or] at hok
      simp only [taskStep, applyBuilderCommand, hclient, Bool.not_true, Bool.false_eq_true,
        if_false] at h
      split_ifs at h with hdeps hbuilder
      · simp only [Option.some.injEq, Prod.mk.injEq] at h
        rw [← h.2.1]
        simpa [Task.orders] using ho
      · simp_all
      · cases hcanonical : reply.canonical with
        | error err => simp_all [Except.isOk, Except.toBool]
        | ok canonical =>
          simp only [hcanonical, Nonce.reserve, Option.some.injEq, Prod.mk.injEq] at h
          rw [← h.2.1]
          simpa [Task.orders] using ho
    | abort id =>
      simp only [builderServes, hclient, Bool.not_true, Bool.false_or] at hok
      simp only [taskStep, applyBuilderCommand, hclient, outcome_of_succeeds hok, Bool.not_true,
        Bool.false_eq_true, if_false, Option.some.injEq, Prod.mk.injEq] at h
      rw [← h.2.1, ← h.2.2]
      rcases List.mem_cons.mp ho with rfl | hresume
      · exact Or.inr (by simp [orderEvent])
      · exact Or.inl (by simpa [Task.orders] using hresume)
  | buildPutInbox id deps nonce txs resume =>
    left
    cases deps with
    | nil =>
      simp only [taskStep, buildPutInbox, Option.some.injEq, Prod.mk.injEq] at h
      rw [← h.2.1]
      simpa [Task.orders] using ho
    | cons dep rest =>
      cases hbuilt : reply.built with
      | error err => simp [builderServes, hbuilt, Except.isOk, Except.toBool] at hok
      | ok tx =>
        simp only [taskStep, buildPutInbox, hbuilt, Option.some.injEq, Prod.mk.injEq] at h
        rw [← h.2.1]
        simpa [Task.orders] using ho
  | release id txs resume =>
    simp only [taskStep, releaseXt, outcome_of_succeeds hok, Option.some.injEq,
      Prod.mk.injEq] at h
    rw [← h.2.1, ← h.2.2]
    rcases List.mem_cons.mp ho with rfl | hresume
    · exact Or.inr (by simp [orderEvent])
    · exact Or.inl (hheld hresume)
  | recycle id resume =>
    simp only [taskStep, Option.some.injEq, Prod.mk.injEq] at h
    rw [← h.2.1]
    cases resume with
    | none => exact absurd ho List.not_mem_nil
    | some resume => exact Or.inl (hheld ho)
  | _ => exact absurd ho List.not_mem_nil

/-- Every decided instance with local transactions has its command given or on its way. -/
structure OrdersOwed (cfg : Config) (w : World) : Prop where
  keyed : KeyedById w.shared.st
  owed : ∀ id xt d, w.shared.st.pending.lookup id = some xt → xt.runsOn cfg.chainId = true →
    xt.decision = some d → (id, d) ∈ w.commands

theorem ordersOwed_run {before after : List Task} (hclient : cfg.xtBuilderClient = true)
    (hserved : CommandsServed cfg (.run t reply))
    (htasks : w.tasks = before ++ t :: after)
    (h : taskStep cfg reply w.shared t = some (sh', next, es)) (hi : OrdersOwed cfg w) :
    OrdersOwed cfg ⟨sh', before ++ next ++ after, w.log ++ es⟩ where
  keyed := keyedById_taskStep h hi.keyed
  owed := by
    intro id xt' d hl' hr hd'
    rcases entry_step h hl' with ⟨xt, hl, hsame, hreg⟩ | hnew
    · have hruns : xt.runsOn cfg.chainId = true :=
        (runsOn_of_rawTxs hsame.rawTxs_eq _).symm.trans hr
      by_cases hd : xt.decision = some d
      · exact dealt_kept htasks (order_handed hclient hserved h) (hi.owed id xt d hl hruns hd)
      · rcases taskStep_op h with ⟨-, hst⟩ | ⟨op, hop, hst⟩
        · rw [hst] at hl'
          obtain rfl := Option.some.inj (hl.symm.trans hl')
          exact absurd hd' hd
        · rw [hst] at hl'
          obtain ⟨c, hc, horder⟩ := command_of_decided hi.keyed hl hl'
            (fun route => hreg op route hop) hruns hd' hd
          rw [← horder]
          exact List.mem_append_left _ (held_next before after (commands_handed h hop hc))
    · obtain ⟨route, hfresh⟩ := hnew.fresh
      simp [hfresh.decision_eq] at hd'

theorem ordersOwed_step {w' : World} {m : Move} (hclient : cfg.xtBuilderClient = true)
    (hserved : CommandsServed cfg m) (h : WorldStep cfg w m w') (hi : OrdersOwed cfg w) : OrdersOwed cfg w' := by
  rcases worldStep_cases h with hquiet | ⟨t, reply, before, after, next, sh', es, rfl, htasks, hstep,
    rfl⟩
  · refine ⟨fun id xt hl => hi.keyed id xt (hquiet.st_eq ▸ hl), fun id xt d hl hr hd => ?_⟩
    rw [World.commands, hquiet.dealt_eq lasting_orders]
    exact hi.owed id xt d (hquiet.st_eq ▸ hl) hr hd
  · exact ordersOwed_run hclient hserved htasks hstep hi

/-- No decision is kept from the builder: when the builder and the signer of `putInbox` do not fail
on a command, in every reachable state each decided pending instance with local transactions has
been released or aborted at the builder, as it was decided, or a task is about to do so. -/
theorem every_decision_reaches_the_builder {cfg : Config} (hclient : cfg.xtBuilderClient = true)
    {moves : List Move} {w : World}
    (hrun : Run (fun w m w' => WorldStep cfg w m w' ∧ CommandsServed cfg m) World.initial moves w)
    {id : InstanceId} {xt : PendingXt} (hl : w.shared.st.pending.lookup id = some xt)
    (hr : xt.runsOn cfg.chainId = true) {d : Bool} (hd : xt.decision = some d) :
    (∃ t ∈ w.tasks, (id, d) ∈ t.orders) ∨
      (if d then BuilderCall.releaseXt id else .abortXt id) ∈ builderCalls w.log := by
  have hinv : OrdersOwed cfg w := by
    refine hrun.invariant (I := OrdersOwed cfg)
      (fun _ _ _ hi h => ordersOwed_step hclient h.2 h.1 hi) ⟨keyedById_default, ?_⟩
    intro id xt d hl
    simp [World.initial] at hl
  rcases List.mem_append.mp (hinv.owed id xt d hl hr hd) with hheld | hlog
  · exact Or.inl (mem_held.mp hheld)
  · obtain ⟨e, he, horder⟩ := List.mem_filterMap.mp hlog
    refine Or.inr (List.mem_filterMap.mpr ⟨e, he, ?_⟩)
    cases e with
    | releaseXt i txs =>
      obtain ⟨rfl, rfl⟩ := Prod.mk.inj (Option.some.inj horder)
      rfl
    | abortXt i =>
      obtain ⟨rfl, rfl⟩ := Prod.mk.inj (Option.some.inj horder)
      rfl
    | _ => simp [orderEvent] at horder

theorem every_decision_reaches_the_builder_released : ∃ moves w,
    Run (fun w m w' => WorldStep builderConfig w m w' ∧ CommandsServed builderConfig m)
      World.initial moves w ∧ w.held Task.orders = [] ∧
    (∃ xt, w.shared.st.pending.lookup startMessageId = some xt ∧
      xt.runsOn builderConfig.chainId = true ∧ xt.decision = some true) ∧
    BuilderCall.releaseXt startMessageId ∈ builderCalls w.log := by
  have hexec : (execAll (pickStep builderConfig)
      (fun _ m => decide (CommandsServed builderConfig m)) releasedPicks World.initial).map
      (fun w => (w.held Task.orders, (w.shared.st.pending.lookup startMessageId).map
        (fun xt => (xt.runsOn builderConfig.chainId, xt.decision)))) =
        some ([], some (true, some true)) := by
    decide
  obtain ⟨w, hw, hstate⟩ := Option.map_eq_some_iff.mp hexec
  obtain ⟨horders, hentry⟩ := Prod.mk.inj hstate
  obtain ⟨xt, hl, hxt⟩ := Option.map_eq_some_iff.mp hentry
  obtain ⟨hr, hd⟩ := Prod.mk.inj hxt
  obtain ⟨moves, hrun⟩ := run_execAll worldStep_of_pick hw
  refine ⟨moves, w, hrun, horders, ⟨xt, hl, hr, hd⟩, ?_⟩
  rcases every_decision_reaches_the_builder rfl hrun hl hr hd with ⟨t, ht, hheld⟩ | hcall
  · have hmem : (startMessageId, true) ∈ w.held Task.orders := mem_held.mpr ⟨t, ht, hheld⟩
    simp [horders] at hmem
  · exact hcall

end Orders

end Sidecar.Coordinator
