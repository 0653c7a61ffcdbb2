import Sidecar.Coordinator.Authentic
import Sidecar.Coordinator.LaneUse
import Sidecar.Mailbox.PutInbox

/-! What the builder gets with a release: one signed transaction for every dependency fulfilled on
this chain, with nonces of the instance's own. -/

namespace Sidecar.Coordinator

open Mailbox TaskSystem

section Content

/-- The message came in along the moves. -/
def Arrived (moves : List Move) (msg : MailboxMessage) : Prop :=
  .arrive (.mailboxMessage msg) ∈ moves

theorem Arrived.later {moves : List Move} {msg : MailboxMessage} (h : Arrived moves msg)
    (m : Move) : Arrived (moves ++ [m]) msg :=
  List.mem_append_left _ h

/-- Dependencies of one chain under keys of their own, each with the payload of a message that
came in and answers it. -/
structure FulfilledHere (chainId : ChainId) (moves : List Move)
    (deps : List CrossRollupDependency) : Prop where
  keys : (deps.map DependencyKey.ofDependency).Nodup
  here : ∀ dep ∈ deps, dep.destChainId = chainId
  served : ∀ dep ∈ deps, ∃ msg, Arrived moves msg ∧ ServedBy dep msg

theorem FulfilledHere.later {chainId : ChainId} {moves : List Move}
    {deps : List CrossRollupDependency} (h : FulfilledHere chainId moves deps) (m : Move) :
    FulfilledHere chainId (moves ++ [m]) deps := by
  refine ⟨h.keys, h.here, fun dep hdep => ?_⟩
  obtain ⟨msg, harrived, hserved⟩ := h.served dep hdep
  exact ⟨msg, harrived.later m, hserved⟩

theorem fulfilledHere_of_mail {moves : List Move} {w : World} (h : MailFrom (Arrived moves) w)
    {id : InstanceId} {xt : PendingXt} (hl : w.shared.st.pending.lookup id = some xt)
    (chainId : ChainId) : FulfilledHere chainId moves (depsForChain xt.fulfilledDeps chainId) := by
  obtain ⟨history, hledger, harrived⟩ := h.ledger
  have hbooks := hledger.entries id xt hl
  constructor
  · exact hbooks.balanced.fulfilled_keys.nodup.sublist (List.filter_sublist.map _)
  · intro dep hdep
    simpa using (List.mem_filter.mp hdep).2
  · intro dep hdep
    obtain ⟨msg, hmsg, hserved⟩ :=
      served_of_mem hbooks.balanced.served (List.mem_of_mem_filter hdep)
    -- a consumed message was attached, so it was delivered
    have hattached : msg ∈ (history.accounts id).attached :=
      hbooks.balanced.attached_perm.mem_iff.mpr (List.mem_append_right _ hmsg)
    exact ⟨msg, harrived msg (hbooks.delivered_raw msg hattached).1, hserved⟩

/-- The lane has issued a run of nonces to the instance. -/
def IssuedTo (calls : List Nonce.Call) (id : InstanceId) (start count : Nat) : Prop :=
  ∃ earlier later fetched, calls = earlier ++ .reserve id count fetched :: later ∧
    (Nonce.Call.reserve id count fetched).returned (Nonce.exec {} earlier) =
      some ⟨start, start + count⟩

theorem IssuedTo.later {calls : List Nonce.Call} {id : InstanceId} {start count : Nat}
    (h : IssuedTo calls id start count) (more : List Nonce.Call) :
    IssuedTo (calls ++ more) id start count := by
  obtain ⟨earlier, later, fetched, rfl, hreturned⟩ := h
  exact ⟨earlier, later ++ more, fetched, by simp, hreturned⟩

variable (keccak256 : Bytes → B256) (repair : Bytes → String) (encoded2718 : SignedTx → Bytes)
  (builder : PutInboxTxBuilder)

/-- The transactions for the dependencies, in order, with consecutive nonces. -/
def SignedFor (start : Nat) (deps : List CrossRollupDependency) (txs : List Bytes) : Prop :=
  ∃ signed : List SignedTx, txs = signed.map encoded2718 ∧
    signed.map SignedTx.toPutInboxRequest =
      deps.mapIdx (fun i dep => putInboxRequest keccak256 repair builder dep (start + i))

theorem signedFor_nil (start : Nat) :
    SignedFor keccak256 repair encoded2718 builder start [] [] :=
  ⟨[], rfl, rfl⟩

variable {keccak256 repair encoded2718 builder} in
theorem SignedFor.snoc {start : Nat} {deps : List CrossRollupDependency} {txs : List Bytes}
    (h : SignedFor keccak256 repair encoded2718 builder start deps txs)
    {dep : CrossRollupDependency} {tx : Bytes} {fill : Provider} (hfill : fill.KeepsFields)
    (hbuilt : buildPutInboxTxWithNonce keccak256 repair encoded2718 builder fill dep
      (start + deps.length) = .ok tx) :
    SignedFor keccak256 repair encoded2718 builder start (deps ++ [dep]) (txs ++ [tx]) := by
  obtain ⟨signed, rfl, hrequests⟩ := h
  obtain ⟨last, rfl, hlast⟩ := signed_of_built hfill hbuilt
  refine ⟨signed ++ [last], by simp, ?_⟩
  rw [List.map_append, hrequests, List.mapIdx_concat, List.map_singleton, hlast]

end Content

section Run

variable (cfg : Config) (keccak256 : Bytes → B256) (repair : Bytes → String)
  (encoded2718 : SignedTx → Bytes) (builder : PutInboxTxBuilder)

/-- The transactions of a release: they were ordered, for dependencies fulfilled here, and carry
nonces that were issued to the instance. -/
def Delivers (moves : List Move) (id : InstanceId) (txs : List Bytes) : Prop :=
  ∃ deps start, FulfilledHere cfg.chainId moves deps ∧
    (∃ resume reply, .run (.command (.release id deps) resume) reply ∈ moves) ∧
    (deps ≠ [] → IssuedTo (laneCalls cfg moves) id start deps.length) ∧
    SignedFor keccak256 repair encoded2718 builder start deps txs

/-- What is known of a task that brings a release to the builder. -/
def Task.backed (moves : List Move) : Task → Prop
  | .command (.release _ deps) _ => FulfilledHere cfg.chainId moves deps
  | .buildPutInbox id rest nonce txs _ =>
    ∃ done start, FulfilledHere cfg.chainId moves (done ++ rest) ∧
      (∃ resume reply, .run (.command (.release id (done ++ rest)) resume) reply ∈ moves) ∧
      IssuedTo (laneCalls cfg moves) id start (done ++ rest).length ∧
      start + (done ++ rest).length < 2 ^ 64 ∧ nonce = start + done.length ∧
      SignedFor keccak256 repair encoded2718 builder start done txs
  | .release id txs _ => Delivers cfg keccak256 repair encoded2718 builder moves id txs
  | _ => True

/-- The builder of the transactions answers, each time perhaps with other fees. -/
def BuiltBy : Move → Prop
  | .run (.buildPutInbox _ (dep :: _) nonce _ _) reply =>
    ∃ fill : Provider, fill.KeepsFields ∧
      reply.built = buildPutInboxTxWithNonce keccak256 repair encoded2718 builder fill dep nonce
  | _ => True

/-- The books are right, and so is every release under way or sent. -/
structure ReleasesBacked (moves : List Move) (w : World) : Prop where
  lane : LaneRun cfg moves w
  mail : MailFrom (Arrived moves) w
  tasks : ∀ t ∈ w.tasks, t.backed cfg keccak256 repair encoded2718 builder moves
  sent : ∀ id txs, .releaseXt id txs ∈ w.log →
    Delivers cfg keccak256 repair encoded2718 builder moves id txs

variable {cfg keccak256 repair encoded2718 builder}

theorem Delivers.later {moves : List Move} {id : InstanceId} {txs : List Bytes}
    (h : Delivers cfg keccak256 repair encoded2718 builder moves id txs) (m : Move) :
    Delivers cfg keccak256 repair encoded2718 builder (moves ++ [m]) id txs := by
  obtain ⟨deps, start, hdeps, ⟨resume, reply, hordered⟩, hissued, hsigned⟩ := h
  refine ⟨deps, start, hdeps.later m, ⟨resume, reply, List.mem_append_left _ hordered⟩, ?_,
    hsigned⟩
  intro hne
  rw [laneCalls_snoc]
  exact (hissued hne).later _

theorem backed_of_not_onRelease {moves : List Move} {t : Task} (h : t.onRelease = false) :
    t.backed cfg keccak256 repair encoded2718 builder moves := by
  unfold Task.backed
  split <;> simp_all [Task.onRelease]

theorem backed_later {moves : List Move} {t : Task}
    (h : t.backed cfg keccak256 repair encoded2718 builder moves) (m : Move) :
    t.backed cfg keccak256 repair encoded2718 builder (moves ++ [m]) := by
  unfold Task.backed at h ⊢
  split
  · exact h.later m
  · obtain ⟨done, start, hdeps, ⟨resume, reply, hordered⟩, hissued, hfit, hnonce, hsigned⟩ := h
    refine ⟨done, start, hdeps.later m, ⟨resume, reply, List.mem_append_left _ hordered⟩, ?_, hfit,
      hnonce, hsigned⟩
    rw [laneCalls_snoc]
    exact hissued.later _
  · exact Delivers.later h m
  · trivial

theorem backed_notified {moves : List Move} {t : Task}
    (h : t.backed cfg keccak256 repair encoded2718 builder moves) :
    t.notified.backed cfg keccak256 repair encoded2718 builder moves := by
  cases t <;> exact h

theorem sent_of_taskStep {reply : TaskReply} {sh sh' : Shared} {t : Task} {next : List Task}
    {es : List Event} (h : taskStep cfg reply sh t = some (sh', next, es)) {id : InstanceId}
    {txs : List Bytes} (he : .releaseXt id txs ∈ es) : ∃ resume, t = .release id txs resume := by
  cases taskStep_effect h with
  | releaseSent id' txs' resume =>
    obtain ⟨rfl, rfl⟩ : id = id' ∧ txs = txs' := by simpa using he
    exact ⟨resume, rfl⟩
  | resolved | noncesReset => simp [answers] at he
  | _ => simp at he

section Step

variable {moves : List Move} {w : World} {t : Task} {reply : TaskReply}
  {before after next : List Task} {sh' : Shared} {es : List Event}

/-- The nonces of a release are issued by the call that its step makes. -/
theorem issued_of_reserve (hlane : LaneRun cfg moves w) {id : InstanceId}
    {deps : List CrossRollupDependency} {resume : Resume} {start : Nat}
    (hcall : laneCall cfg reply (.command (.release id deps) resume) =
      some (.reserve id deps.length reply.canonical))
    (hstart : (Nonce.reserve w.shared.nonces id deps.length reply.canonical).1 = .ok start) :
    IssuedTo (laneCalls cfg (moves ++ [.run (.command (.release id deps) resume) reply])) id start
      deps.length := by
  refine ⟨laneCalls cfg moves, [], reply.canonical, ?_, ?_⟩
  · rw [laneCalls_snoc, Move.laneCalls, hcall]
    rfl
  · rw [← Nonce.run_exec hlane.calls, Nonce.Call.returned, hstart]

/-- A step hands a release on as it should be. -/
theorem backed_goesOn (hi : ReleasesBacked cfg keccak256 repair encoded2718 builder moves w)
    (htasks : w.tasks = before ++ t :: after)
    (h : taskStep cfg reply w.shared t = some (sh', next, es))
    (hkept : LaneKept cfg w (.run t reply))
    (hbuilt : BuiltBy keccak256 repair encoded2718 builder (.run t reply))
    (hgo : GoesOn cfg reply w.shared t next) :
    ∀ u ∈ next, u.backed cfg keccak256 repair encoded2718 builder (moves ++ [.run t reply]) := by
  have ht := hi.tasks t (mem_of_split htasks)
  cases hgo with
  | @ordered _ op id deps resume hop hc =>
    refine List.forall_mem_singleton.mpr ?_
    obtain ⟨xt, hl, rfl⟩ := released_deps hi.lane.inv.keyed hc
    rw [← taskStep_apply h hop] at hl
    exact (fulfilledHere_of_mail (mailFrom_run htasks h hi.mail) hl cfg.chainId).later _
  | empty id resume =>
    refine List.forall_mem_singleton.mpr ?_
    exact ⟨[], 0, ht.later _, ⟨resume, reply, by simp⟩, fun hne => absurd rfl hne,
      signedFor_nil keccak256 repair encoded2718 builder 0⟩
  | @reserved id deps resume start hclient hne hbuilder hstart =>
    have hcall : laneCall cfg reply (.command (.release id deps) resume) =
        some (.reserve id deps.length reply.canonical) := by
      simp [laneCall, hclient, hne, hbuilder]
    have hlawful := lawful_of_laneInv htasks hi.lane.inv hkept hcall
    refine List.forall_mem_singleton.mpr ⟨[], start, ht.later _, ⟨resume, reply, by simp⟩,
      issued_of_reserve hi.lane hcall hstart, ?_, rfl,
      signedFor_nil keccak256 repair encoded2718 builder start⟩
    cases hfetched : reply.canonical with
    | error err => simp [hfetched, Nonce.reserve] at hstart
    | ok canonical =>
      rw [hfetched] at hlawful hstart
      obtain rfl := Except.ok.inj hstart
      exact hlawful.2.2
  | @signed id dep rest nonce txs resume tx htx =>
    obtain ⟨done, start, hdeps, hordered, hissued, hfit, hnonce, hsigned⟩ :=
      backed_later ht (.run _ reply)
    obtain ⟨fill, hfill, hanswer⟩ := hbuilt
    rw [htx, hnonce] at hanswer
    have hlength : (done ++ dep :: rest).length = done.length + 1 + rest.length := by
      simp only [List.length_append, List.length_cons]
      omega
    rw [hlength] at hfit
    have hall : done ++ dep :: rest = done ++ [dep] ++ rest := by simp
    rw [hall] at hdeps hordered hissued
    refine List.forall_mem_singleton.mpr ⟨done ++ [dep], start, hdeps, hordered, hissued, ?_, ?_,
      hsigned.snoc hfill hanswer.symm⟩
    · rw [← hall, hlength]
      exact hfit
    · rw [Nonce.saturatingAdd_of_lt (by omega), hnonce, List.length_append, List.length_singleton,
        Nat.add_assoc]
  | complete id nonce txs resume =>
    obtain ⟨done, start, hdeps, hordered, hissued, -, -, hsigned⟩ := backed_later ht (.run _ reply)
    rw [List.append_nil] at hdeps hordered hissued
    exact List.forall_mem_singleton.mpr
      ⟨done, start, hdeps, hordered, fun _ => hissued, hsigned⟩

theorem releasesBacked_run (hi : ReleasesBacked cfg keccak256 repair encoded2718 builder moves w)
    (htasks : w.tasks = before ++ t :: after)
    (h : taskStep cfg reply w.shared t = some (sh', next, es))
    (hlane : LaneRun cfg (moves ++ [.run t reply]) ⟨sh', before ++ next ++ after, w.log ++ es⟩)
    (hmail : MailFrom (Arrived (moves ++ [.run t reply]))
      ⟨sh', before ++ next ++ after, w.log ++ es⟩)
    (hkept : LaneKept cfg w (.run t reply))
    (hbuilt : BuiltBy keccak256 repair encoded2718 builder (.run t reply)) :
    ReleasesBacked cfg keccak256 repair encoded2718 builder (moves ++ [.run t reply])
      ⟨sh', before ++ next ++ after, w.log ++ es⟩ where
  lane := hlane
  mail := hmail
  tasks := by
    intro u hu
    rcases mem_tasks_of_split htasks hu with hnext | hold
    · rcases goesOn_or_not h with hgo | hoff
      · exact backed_goesOn hi htasks h hkept hbuilt hgo u hnext
      · exact backed_of_not_onRelease (hoff u hnext)
    · exact backed_later (hi.tasks u hold) _
  sent := by
    intro id txs hlog
    rcases List.mem_append.mp hlog with hold | hnew
    · exact (hi.sent id txs hold).later _
    · obtain ⟨resume, rfl⟩ := sent_of_taskStep h hnew
      exact Delivers.later (hi.tasks _ (mem_of_split htasks)) _

theorem releasesBacked_step {m : Move} {w' : World}
    (hi : ReleasesBacked cfg keccak256 repair encoded2718 builder moves w)
    (h : WorldStep cfg w m w') (hkept : LaneKept cfg w m)
    (hbuilt : BuiltBy keccak256 repair encoded2718 builder m) :
    ReleasesBacked cfg keccak256 repair encoded2718 builder (moves ++ [m]) w' := by
  have hlane := laneRun_step hi.lane h hkept
  have hmail : MailFrom (Arrived (moves ++ [m])) w' := by
    refine mailFrom_step h (fun msg he => ?_) (hi.mail.mono (fun _ harrived => harrived.later m))
    exact List.mem_append_right _ (List.mem_singleton.mpr he.symm)
  rcases worldStep_tasks h with ⟨hquiet, htasks⟩ |
    ⟨t, reply, before, after, next, sh', es, rfl, htasks, hstep, rfl⟩
  · refine ⟨hlane, hmail, fun u hu => ?_, fun id txs hlog => ?_⟩
    · rcases htasks u hu with ⟨t, ht, rfl | rfl⟩ | ⟨request, -, rfl⟩
      · exact backed_later (hi.tasks u ht) m
      · exact backed_notified (backed_later (hi.tasks t ht) m)
      · trivial
    · rw [hquiet.log_eq] at hlog
      exact (hi.sent id txs hlog).later m
  · exact releasesBacked_run hi htasks hstep hlane hmail hkept hbuilt

end Step

theorem releasesBacked_initial :
    ReleasesBacked cfg keccak256 repair encoded2718 builder [] World.initial where
  lane := ⟨laneInv_initial, .nil _⟩
  mail := mailFrom_initial _
  tasks := fun _ ht => absurd ht List.not_mem_nil
  sent := fun _ _ hlog => absurd hlog List.not_mem_nil

end Run

/-- A release carries the inbox. However the coordinator's tasks interleave and whatever fails on
the way: when the local builder is told to release an instance, the transactions that come with it
are one signed `putInbox` for each dependency that the order was given for, in order. Each of these
dependencies is one of this chain, with the payload of a message that came in along the run and
answers it and a key of its own, and the nonces are consecutive and were issued to the instance. -/
theorem release_carries_the_inbox (cfg : Config) (keccak256 : Bytes → B256)
    (repair : Bytes → String) (encoded2718 : SignedTx → Bytes) (builder : PutInboxTxBuilder)
    {moves : List Move} {w : World}
    (hrun : Run (fun w m w' => WorldStep cfg w m w' ∧ LaneKept cfg w m ∧
      BuiltBy keccak256 repair encoded2718 builder m) World.initial moves w)
    {id : InstanceId} {txs : List Bytes} (hsent : .releaseXt id txs ∈ w.log) :
    ∃ deps start, FulfilledHere cfg.chainId moves deps ∧
      (∃ resume reply, .run (.command (.release id deps) resume) reply ∈ moves) ∧
      (deps ≠ [] → IssuedTo (laneCalls cfg moves) id start deps.length) ∧
      SignedFor keccak256 repair encoded2718 builder start deps txs :=
  (hrun.invariant_along
    (I := fun moves w => ReleasesBacked cfg keccak256 repair encoded2718 builder moves w)
    (fun _ _ _ _ hi hs => releasesBacked_step hi hs.1 hs.2.1 hs.2.2)
    releasesBacked_initial).sent id txs hsent

section Sample

def sampleBuilder : PutInboxTxBuilder :=
  { chainId := 2
    rpcUrl := ""
    mailboxAddress := .repeatByte 20 3
    signerAddress := .repeatByte 20 4 }

/-- Signs everything, without fees. -/
def sampleFill : Provider := fun _ request =>
  .ok (.envelope
    { toPutInboxRequest := request
      maxFeePerGas := 0
      maxPriorityFeePerGas := 0
      signature := [] })

/-- The nonce stands for the transaction. -/
def nonceByte (tx : SignedTx) : Bytes := [UInt8.ofNat tx.nonce]

/-- The builder of transactions answers in this way. -/
def builtAlike : Move → Bool
  | .run (.buildPutInbox _ (dep :: _) nonce _ _) reply =>
    reply.built = buildPutInboxTxWithNonce (fun _ => .repeatByte 32 0) (fun _ => "") nonceByte
      sampleBuilder sampleFill dep nonce
  | _ => true

theorem builtBy_of_builtAlike {m : Move} (h : builtAlike m = true) :
    BuiltBy (fun _ => .repeatByte 32 0) (fun _ => "") nonceByte sampleBuilder m := by
  unfold BuiltBy
  split
  · refine ⟨sampleFill, ?_, by simpa [builtAlike] using h⟩
    intro url request signed hfilled
    obtain rfl : _ = signed := by simpa [sampleFill] using hfilled
    rfl
  · trivial

def releasedTxs : Event → Option (InstanceId × List Bytes)
  | .releaseXt id txs => some (id, txs)
  | _ => none

theorem release_carries_the_inbox_delivered : ∃ moves w deps start,
    Run (fun w m w' => WorldStep deliveringConfig w m w' ∧ LaneKept deliveringConfig w m ∧
      BuiltBy (fun _ => .repeatByte 32 0) (fun _ => "") nonceByte sampleBuilder m)
      World.initial moves w ∧
    .releaseXt "xt-1-1" [[7]] ∈ w.log ∧ FulfilledHere 2 moves deps ∧
    SignedFor (fun _ => .repeatByte 32 0) (fun _ => "") nonceByte sampleBuilder start deps [[7]] := by
  have hexec : (execAll (pickStep deliveringConfig)
      (fun w m => decide (LaneKept deliveringConfig w m ∧ builtAlike m = true)) deliveringPicks
      World.initial).map (fun w => w.log.filterMap releasedTxs) = some [("xt-1-1", [[7]])] := by
    decide +kernel
  obtain ⟨w, hw, hreleased⟩ := Option.map_eq_some_iff.mp hexec
  obtain ⟨moves, hrun⟩ := run_execAll worldStep_of_pick hw
  have hmem : .releaseXt "xt-1-1" [[7]] ∈ w.log := by
    have hin : ("xt-1-1", [[7]]) ∈ w.log.filterMap releasedTxs := by
      rw [hreleased]
      exact List.mem_singleton.mpr rfl
    obtain ⟨e, he, heq⟩ := List.mem_filterMap.mp hin
    cases e <;> simp_all [releasedTxs]
  have hrun' : Run (fun w m w' => WorldStep deliveringConfig w m w' ∧
      LaneKept deliveringConfig w m ∧
      BuiltBy (fun _ => .repeatByte 32 0) (fun _ => "") nonceByte sampleBuilder m)
      World.initial moves w :=
    hrun.mono (fun _ _ _ hs => ⟨hs.1, hs.2.1, builtBy_of_builtAlike hs.2.2⟩)
  obtain ⟨deps, start, hdeps, -, -, hsigned⟩ := release_carries_the_inbox deliveringConfig
    (fun _ => .repeatByte 32 0) (fun _ => "") nonceByte sampleBuilder hrun' hmem
  exact ⟨moves, w, deps, start, hrun', hmem, hdeps, hsigned⟩

end Sample

end Sidecar.Coordinator
