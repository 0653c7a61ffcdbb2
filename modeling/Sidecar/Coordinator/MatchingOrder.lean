import Sidecar.Coordinator.MailboxKeys
import Sidecar.Coordinator.MailboxLedger
import Sidecar.Coordinator.Representation

/-! Serving dependencies from the mailbox does not depend on the order in which its messages
stand. -/

namespace Sidecar.Coordinator

open Mailbox

/-- The six key fields of a message, as they came over the wire. -/
structure KeyFields where
  sourceChain : Nat
  destinationChain : Nat
  sender : Bytes
  receiver : Bytes
  sessionId : Bytes
  label : String
  deriving DecidableEq

def keyFields (msg : MailboxMessage) : KeyFields :=
  { sourceChain := msg.sourceChain
    destinationChain := msg.destinationChain
    sender := msg.sender
    receiver := msg.receiver
    sessionId := msg.sessionId
    label := msg.label }

/-- A dependency fixes all six fields of the messages that serve it. -/
theorem keyFields_of_matches {msg msg' : MailboxMessage} {dep : CrossRollupDependency}
    (h : matchesDependency msg dep = true) (h' : matchesDependency msg' dep = true) :
    keyFields msg = keyFields msg' := by
  obtain ⟨hsource, hdest, hlabel, hsender, hreceiver, hsession⟩ := (matchesDependency_iff msg dep).mp h
  obtain ⟨hsource', hdest', hlabel', hsender', hreceiver', hsession'⟩ :=
    (matchesDependency_iff msg' dep).mp h'
  have hname : msg.label = msg'.label := asBytes_inj (hlabel.trans hlabel'.symm)
  rw [tryFrom_iff] at hsender hsender' hreceiver hreceiver'
  rw [decodeSessionId_iff] at hsession hsession'
  have hid : msg.sessionId = msg'.sessionId :=
    BigEndian.ofBytes_inj (hsession.1.trans hsession'.1.symm) (hsession.2.trans hsession'.2.symm)
  unfold keyFields
  rw [hsource, hsource', hdest, hdest', hname, hid, hsender.2, hsender'.2, hreceiver.2,
    hreceiver'.2]

section Order

/-- Two instances that differ only in the order of their mailbox, which holds no two messages
with the same key fields. -/
structure SameButOrder (xt xt' : PendingXt) : Prop where
  mailbox : xt.pendingMailbox.Perm xt'.pendingMailbox
  keys : (xt.pendingMailbox.map keyFields).Nodup
  rest : xt' = { xt with pendingMailbox := xt'.pendingMailbox }

variable {xt xt' : PendingXt}

theorem consumedOne_eq_find (xt : PendingXt) (dep : CrossRollupDependency) :
    consumedOne xt dep = if DependencyKey.ofDependency dep ∈ xt.fulfilledDepKeys then none
      else xt.pendingMailbox.find? (fun msg => matchesDependency msg dep) := by
  rw [consumedOne, List.find?_eq_bind_findIdx?_getElem?]

/-- Both orders serve a dependency with the same message. -/
theorem SameButOrder.consumedOne_eq (h : SameButOrder xt xt') (dep : CrossRollupDependency) :
    consumedOne xt dep = consumedOne xt' dep := by
  have honce : ∀ a ∈ xt.pendingMailbox, ∀ b ∈ xt.pendingMailbox,
      matchesDependency a dep = true → matchesDependency b dep = true → a = b := by
    intro a ha b hb hma hmb
    exact List.inj_on_of_nodup_map h.keys ha hb (keyFields_of_matches hma hmb)
  have hfulfilled : xt'.fulfilledDepKeys = xt.fulfilledDepKeys := by rw [h.rest]
  rw [consumedOne_eq_find, consumedOne_eq_find, hfulfilled, find?_eq_of_perm h.mailbox honce]

/-- What is left after a message was taken out stands in another order again. -/
theorem SameButOrder.fulfillOne (h : SameButOrder xt xt') (dep : CrossRollupDependency) :
    SameButOrder (fulfillOne xt dep).1 (fulfillOne xt' dep).1 := by
  have hsame := h.consumedOne_eq dep
  cases hmsg : consumedOne xt dep with
  | none =>
    rw [hmsg] at hsame
    rw [fulfillOne_none hmsg, fulfillOne_none hsame.symm]
    exact h
  | some msg =>
    rw [hmsg] at hsame
    obtain ⟨-, -, left, hleft, hserved⟩ := fulfillOne_some hmsg
    obtain ⟨-, -, left', hleft', hserved'⟩ := fulfillOne_some hsame.symm
    rw [hserved, hserved']
    have hperm : left.Perm left' :=
      (List.perm_cons msg).mp (hleft.trans (h.mailbox.trans hleft'.symm))
    have hkeys : ((msg :: left).map keyFields).Nodup := (hleft.map keyFields).nodup_iff.mpr h.keys
    refine ⟨hperm, (List.nodup_cons.mp hkeys).2, ?_⟩
    rw [h.rest]

theorem SameButOrder.fulfillXt (h : SameButOrder xt xt') (deps : List CrossRollupDependency) :
    SameButOrder (fulfillXt xt deps).1 (fulfillXt xt' deps).1 ∧
      (fulfillXt xt deps).2 = (fulfillXt xt' deps).2 := by
  induction deps generalizing xt xt' with
  | nil => exact ⟨h, rfl⟩
  | cons dep deps ih =>
    obtain ⟨hxt, hcount⟩ := ih (h.fulfillOne dep)
    rw [fulfillXt_cons, fulfillXt_cons]
    refine ⟨hxt, ?_⟩
    rw [hcount, fulfillOne_found, fulfillOne_found, h.consumedOne_eq dep]

end Order

/-- The state with another mailbox for one instance. -/
def CoordinatorState.withMailbox (st : CoordinatorState) (id : InstanceId)
    (mailbox : List MailboxMessage) : CoordinatorState :=
  st.updateXt id (fun xt => { xt with pendingMailbox := mailbox })

theorem updateXt_updateXt (st : CoordinatorState) (id : InstanceId) (f g : PendingXt → PendingXt) :
    (st.updateXt id g).updateXt id f = st.updateXt id (f ∘ g) := by
  simp only [CoordinatorState.updateXt, Map.update_update]

/-- Serving from a given mailbox rewrites the instance as a whole. -/
theorem fulfill_withMailbox {st : CoordinatorState} {id : InstanceId} {xt : PendingXt}
    (h : st.pending.lookup id = some xt) (mailbox : List MailboxMessage)
    (deps : List CrossRollupDependency) :
    fulfillDependenciesFromMailbox (st.withMailbox id mailbox) id deps =
      (st.updateXt id (fun _ => (fulfillXt { xt with pendingMailbox := mailbox } deps).1),
        (fulfillXt { xt with pendingMailbox := mailbox } deps).2) := by
  have hlookup : (st.withMailbox id mailbox).pending.lookup id =
      some { xt with pendingMailbox := mailbox } := by
    rw [CoordinatorState.withMailbox, lookup_updateXt, if_pos rfl, h, Option.map_some]
  simp only [fulfillDependenciesFromMailbox, hlookup]
  rw [CoordinatorState.withMailbox, updateXt_updateXt]
  rfl

/-- Serving dependencies from the mailbox does not depend on the order of its messages, as long
as no two of them agree in all six key fields: the count, the dependencies served, their payloads
and their order are the same, and the messages left over are the same up to order. -/
theorem fulfill_order_independent (st : CoordinatorState) (id : InstanceId)
    (deps : List CrossRollupDependency) {mailbox mailbox' : List MailboxMessage}
    (hperm : mailbox.Perm mailbox') (hkeys : (mailbox.map keyFields).Nodup) :
    let served := fulfillDependenciesFromMailbox (st.withMailbox id mailbox) id deps
    let served' := fulfillDependenciesFromMailbox (st.withMailbox id mailbox') id deps
    served.2 = served'.2 ∧
      (served.1.pending.lookup id).map PendingXt.fulfilledDeps =
        (served'.1.pending.lookup id).map PendingXt.fulfilledDeps ∧
      ∃ (after : CoordinatorState) (left left' : List MailboxMessage), left.Perm left' ∧
        served.1 = after.withMailbox id left ∧ served'.1 = after.withMailbox id left' := by
  intro served served'
  cases hl : st.pending.lookup id with
  | none =>
    have hnone : ∀ mailbox, fulfillDependenciesFromMailbox (st.withMailbox id mailbox) id deps =
        (st.withMailbox id mailbox, 0) := by
      intro mailbox
      have hlookup : (st.withMailbox id mailbox).pending.lookup id = none := by
        rw [CoordinatorState.withMailbox, lookup_updateXt, if_pos rfl, hl, Option.map_none]
      simp only [fulfillDependenciesFromMailbox, hlookup]
    have hs : served = _ := hnone mailbox
    have hs' : served' = _ := hnone mailbox'
    rw [hs, hs']
    refine ⟨rfl, ?_, st, mailbox, mailbox', hperm, rfl, rfl⟩
    simp only [CoordinatorState.withMailbox, lookup_updateXt, hl, if_pos, Option.map_none]
  | some xt =>
    have hsame : SameButOrder { xt with pendingMailbox := mailbox }
        { xt with pendingMailbox := mailbox' } := ⟨hperm, hkeys, rfl⟩
    obtain ⟨hafter, hcount⟩ := hsame.fulfillXt deps
    have hs : served = _ := fulfill_withMailbox hl mailbox deps
    have hs' : served' = _ := fulfill_withMailbox hl mailbox' deps
    rw [hs, hs']
    refine ⟨hcount, ?_, st.updateXt id (fun _ => (fulfillXt { xt with pendingMailbox := mailbox } deps).1),
      _, _, hafter.mailbox, ?_, ?_⟩
    · simp only [lookup_updateXt, if_pos, hl, Option.map_some]
      rw [hafter.rest]
    · rw [CoordinatorState.withMailbox, updateXt_updateXt]
      rfl
    · rw [CoordinatorState.withMailbox, updateXt_updateXt]
      exact congrArg (fun x => st.updateXt id (fun _ => x)) hafter.rest

section Example

/-- A dependency of a session, and the message that serves it. -/
def sessionDependency (sessionId : U256) : CrossRollupDependency :=
  { sourceChainId := 2
    destChainId := 1
    sender := FixedBytes.repeatByte 20 0x11
    receiver := FixedBytes.repeatByte 20 0x22
    label := []
    data := none
    sessionId := sessionId }

def sessionMessage (sessionId : U256) (payload : Bytes) : MailboxMessage :=
  { instanceId := InstanceId.asBytes "xt-2-1"
    sourceChain := 2
    destinationChain := 1
    sender := List.replicate 20 0x11
    receiver := List.replicate 20 0x22
    label := ""
    payload := payload
    sessionId := encodeSessionId sessionId }

/-- One pending instance. -/
def onePending : CoordinatorState :=
  { pending := AList.singleton "xt-2-1"
      { id := "xt-2-1", instanceId := InstanceId.asBytes "xt-2-1" } }

/-- Two of three messages are asked for, one of them twice. -/
theorem fulfill_order_independent_reversed :
    let deps := [sessionDependency 3, sessionDependency 1, sessionDependency 3]
    let mailbox := [sessionMessage 1 [10], sessionMessage 2 [20], sessionMessage 3 [30]]
    let served := fulfillDependenciesFromMailbox (onePending.withMailbox "xt-2-1" mailbox)
      "xt-2-1" deps
    let served' := fulfillDependenciesFromMailbox (onePending.withMailbox "xt-2-1" mailbox.reverse)
      "xt-2-1" deps
    served.2 = 2 ∧ served'.2 = 2 ∧
      (served'.1.pending.lookup "xt-2-1").map (fun xt => xt.fulfilledDeps.map
        CrossRollupDependency.data) = some [some [30], some [10]] := by
  intro deps mailbox served served'
  obtain ⟨hcount, hdeps, -⟩ := fulfill_order_independent onePending "xt-2-1" deps
    (List.reverse_perm mailbox).symm (by decide +kernel)
  have htwo : served.2 = 2 := by decide +kernel
  have hdata : (served.1.pending.lookup "xt-2-1").map (fun xt => xt.fulfilledDeps.map
      CrossRollupDependency.data) = some [some [30], some [10]] := by decide +kernel
  refine ⟨htwo, hcount.symm.trans htwo, ?_⟩
  have hmapped := congrArg (Option.map (List.map CrossRollupDependency.data)) hdeps
  rw [Option.map_map, Option.map_map] at hmapped
  exact hmapped.symm.trans hdata

end Example

end Sidecar.Coordinator
