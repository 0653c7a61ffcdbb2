import Sidecar.Coordinator.Entry
import Sidecar.Coordinator.Stability

namespace Sidecar.Coordinator

section Numbers

variable (cfg : Config)

/-- No peer's instance is registered under a number that this sidecar has yet to give. -/
def LeavesNumbers (st : CoordinatorState) (op : Op) : Prop :=
  ∀ seq, op.registers cfg st = some (InstanceId.standalone cfg.chainId seq, .forwarded) →
    seq ≤ st.originSeq

/-- The instances under the names of this sidecar have numbers it has given. -/
def NumbersGiven (st : CoordinatorState) : Prop :=
  ∀ seq, InstanceId.standalone cfg.chainId seq ∈ st.pending → seq ≤ st.originSeq

variable {cfg} {st : CoordinatorState}

theorem numbersGiven_apply {op : Op} (h : NumbersGiven cfg st) (hop : LeavesNumbers cfg st op) :
    NumbersGiven cfg (op.apply cfg st) := by
  intro seq hmem
  by_cases hreg : ∃ route, op.registers cfg st = some (InstanceId.standalone cfg.chainId seq, route)
  · obtain ⟨route, hr⟩ := hreg
    obtain ⟨xt, hid, has, -⟩ := registeredAs hr
    cases has with
    | submitted txs =>
      have hseq : st.originSeq + 1 = seq := (InstanceId.standalone_inj hid).2
      obtain ⟨-, sub, ho⟩ := registers_submitXt cfg st hr
      have hcount := (originSeq_submitXt cfg st txs).2 _ sub ho
      rw [← hseq]
      exact hcount.ge
    | forwarded i txs originChain originSeq hnew =>
      obtain ⟨-, rfl, -⟩ := registers_forwardXt cfg st hr
      exact (hop seq hr).trans (originSeq_mono cfg st _)
    | started inst hnew =>
      exact absurd hid.symm (InstanceId.standalone_ne_fromPublisherBytes cfg.chainId seq inst.id)
  · obtain ⟨xt', hl'⟩ := Map.lookup_of_mem hmem
    obtain ⟨xt, hl, -⟩ := entry_kept (fun route hr => hreg ⟨route, hr⟩) hl'
    exact (h seq (Map.mem_of_lookup hl)).trans (originSeq_mono cfg st op)

/-- Two of the three handlers look for the id before they register it; the third counts past
every number in use. -/
theorem registered_new {op : Op} {id : InstanceId} {route : Route} (h : NumbersGiven cfg st)
    (hreg : op.registers cfg st = some (id, route)) : id ∉ st.pending := by
  obtain ⟨xt, hid, has, -⟩ := registeredAs hreg
  rw [← hid]
  cases has with
  | submitted txs =>
    intro hmem
    exact absurd (h (st.originSeq + 1) hmem) (Nat.not_succ_le_self st.originSeq)
  | forwarded i txs originChain originSeq hnew => exact hnew
  | started inst hnew => exact hnew

end Numbers

/-- As long as peers leave the numbers of this sidecar to it, no registration by any of the three
handlers changes an instance that is already pending. -/
theorem registration_replaces_nothing {cfg : Config} {ops : List Op} {st : CoordinatorState}
    (hrun : Run (fun s op t => Step cfg s op t ∧ LeavesNumbers cfg s op) {} ops st) {op : Op}
    {id : InstanceId} {route : Route} (hreg : op.registers cfg st = some (id, route)) :
    ∀ i xt, st.pending.lookup i = some xt → (op.apply cfg st).pending.lookup i = some xt := by
  have hgiven : NumbersGiven cfg st := by
    refine hrun.invariant (I := NumbersGiven cfg) (fun s op t hs hstep => ?_) (fun seq h => ?_)
    · rw [hstep.1]
      exact numbersGiven_apply hs hstep.2
    · exact absurd h (AList.notMem_empty _)
  intro i xt hl
  obtain ⟨new, -, -, hp⟩ := registeredAs hreg
  have hne : i ≠ id := by
    rintro rfl
    exact registered_new hgiven hreg (Map.mem_of_lookup hl)
  rw [hp, Map.lookup_insert_eq, if_neg hne]
  exact hl

/-- Chain 1 takes part in an instance of chain 2 and has voted on it. -/
def votedForward (id : InstanceId) : List Op :=
  [.forwardXt id twoChainTxs 2 1, .sendVote id true true 5]

/-- A submission beside a peer's instance leaves it with its vote. -/
theorem registration_replaces_nothing_voted :
    (Op.submitXt twoChainTxs).registers (.bare 1) (exec (.bare 1) {} (votedForward "xt-2-1")) =
        some ("xt-1-1", .submitted) ∧
      ∃ xt, xt.localVote = some true ∧
        ((Op.submitXt twoChainTxs).apply (.bare 1)
          (exec (.bare 1) {} (votedForward "xt-2-1"))).pending.lookup "xt-2-1" = some xt := by
  have hleaves : ∀ op ∈ votedForward "xt-2-1", ∀ s, LeavesNumbers (.bare 1) s op := by
    intro op hop s seq hr
    have hid : InstanceId.standalone 1 seq = InstanceId.standalone 2 1 := by
      simp only [votedForward, List.mem_cons, List.not_mem_nil, or_false] at hop
      rcases hop with rfl | rfl
      · exact (registers_forwardXt _ s hr).1
      · simp [Op.registers] at hr
    exact absurd (InstanceId.standalone_inj hid).1 (by decide)
  have hrun : Run (fun s op t => Step (.bare 1) s op t ∧ LeavesNumbers (.bare 1) s op) {}
      (votedForward "xt-2-1") (exec (.bare 1) {} (votedForward "xt-2-1")) :=
    (exec_run (.bare 1) _ {}).mono_of_labels
      (P := fun op => ∀ s, LeavesNumbers (.bare 1) s op) (fun s _ _ hop hstep => ⟨hstep, hop s⟩)
      hleaves
  have hreg : (Op.submitXt twoChainTxs).registers (.bare 1)
      (exec (.bare 1) {} (votedForward "xt-2-1")) = some ("xt-1-1", .submitted) := by decide
  obtain ⟨xt, hl, hvote⟩ := Option.map_eq_some_iff.mp (show
    ((exec (.bare 1) {} (votedForward "xt-2-1")).pending.lookup "xt-2-1").map PendingXt.localVote =
      some (some true) by decide)
  exact ⟨hreg, xt, hvote, registration_replaces_nothing hrun hreg "xt-2-1" xt hl⟩

/-- A peer has forwarded an instance under this sidecar's first name; the first submission
takes its place, and transactions and vote are gone. -/
theorem submission_replaces_forwarded :
    ∃ st xt xt', Run (Step (.bare 1)) {} (votedForward "xt-1-1") st ∧
      (Op.submitXt laterTxs).registers (.bare 1) st = some ("xt-1-1", .submitted) ∧
      st.pending.lookup "xt-1-1" = some xt ∧ xt.localVote = some true ∧
      ((Op.submitXt laterTxs).apply (.bare 1) st).pending.lookup "xt-1-1" = some xt' ∧
      xt'.localVote = none ∧ xt'.rawTxs ≠ xt.rawTxs := by
  obtain ⟨xt, hl, hxt⟩ := Option.map_eq_some_iff.mp (show
    ((exec (.bare 1) {} (votedForward "xt-1-1")).pending.lookup "xt-1-1").map
      (fun xt => (xt.localVote, xt.rawTxs)) = some (some true, twoChainTxs) by decide)
  obtain ⟨hvote, hraw⟩ := Prod.mk.inj hxt
  refine ⟨_, xt, standaloneXt (.bare 1) 1 laterTxs, exec_run (.bare 1) _ {}, by decide, hl, hvote,
    rfl, rfl, ?_⟩
  rw [hraw]
  decide

end Sidecar.Coordinator
