import Sidecar.Net.Forward
import Sidecar.Coordinator.Entry

/-! The transactions of an instance on its three ways into a coordinator: the request of the
publisher, the forward of a peer and the submission of a user. -/

namespace Sidecar.Coordinator

open Net

/-- Two maps hold the same lists of transactions. -/
def SameTxs (txs txs' : RawTxs) : Prop := ∀ chainId, txs.lookup chainId = txs'.lookup chainId

/-- Every chain that is named has transactions. -/
def NoEmptyChain (txs : RawTxs) : Prop :=
  ∀ chainId chainTxs, txs.lookup chainId = some chainTxs → chainTxs ≠ []

section Request

/-- The request of one chain. -/
def chainRequest (txs : RawTxs) (chainId : ChainId) : Option TransactionRequest :=
  match txs.lookup chainId with
  | none => none
  | some chainTxs => if chainTxs.isEmpty then none else some ⟨chainId, chainTxs⟩

theorem chainRequest_eq_some {txs : RawTxs} {chainId : ChainId} {req : TransactionRequest} :
    chainRequest txs chainId = some req ↔
      req.chainId = chainId ∧ txs.lookup chainId = some req.transactions ∧
        req.transactions ≠ [] := by
  unfold chainRequest
  cases hl : txs.lookup chainId with
  | none => simp
  | some chainTxs =>
    simp only
    split_ifs with hempty
    · rw [List.isEmpty_iff.mp hempty]
      constructor
      · intro h
        simp at h
      · intro h
        exact absurd (Option.some.inj h.2.1).symm h.2.2
    · rw [List.isEmpty_iff] at hempty
      constructor
      · intro h
        rw [← Option.some.inj h]
        exact ⟨rfl, rfl, hempty⟩
      · intro h
        obtain ⟨hid, htxs, -⟩ := h
        rw [← hid, Option.some.inj htxs]

theorem buildXtRequest_eq (txs : RawTxs) :
    (buildXtRequest txs).transactions =
      (txs.keys.insertionSort (· ≤ ·)).filterMap (chainRequest txs) := rfl

theorem mem_buildXtRequest {txs : RawTxs} {req : TransactionRequest} :
    req ∈ (buildXtRequest txs).transactions ↔
      txs.lookup req.chainId = some req.transactions ∧ req.transactions ≠ [] := by
  rw [buildXtRequest_eq, List.mem_filterMap]
  constructor
  · intro h
    obtain ⟨chainId, -, hreq⟩ := h
    obtain ⟨rfl, hrest⟩ := chainRequest_eq_some.mp hreq
    exact hrest
  · intro h
    refine ⟨req.chainId, ?_, chainRequest_eq_some.mpr ⟨rfl, h⟩⟩
    rw [List.mem_insertionSort]
    exact AList.mem_keys.mp (Map.mem_of_lookup h.1)

theorem sortedKeys_pairwise (txs : RawTxs) :
    (txs.keys.insertionSort (· ≤ ·)).Pairwise (· < ·) := by
  have hle := List.pairwise_insertionSort (· ≤ ·) txs.keys
  have hnodup : (txs.keys.insertionSort (· ≤ ·)).Nodup :=
    (List.perm_insertionSort (· ≤ ·) txs.keys).nodup_iff.mpr txs.keys_nodup
  exact (hle.and hnodup).imp (fun h => Nat.lt_of_le_of_ne h.1 h.2)

/-- Every chain has one request, and the requests are in the order of the chain ids. -/
theorem buildXtRequest_pairwise (txs : RawTxs) :
    ((buildXtRequest txs).transactions.map TransactionRequest.chainId).Pairwise (· < ·) := by
  rw [List.pairwise_map, buildXtRequest_eq, List.pairwise_filterMap]
  refine (sortedKeys_pairwise txs).imp ?_
  intro chainId chainId' hlt req hreq req' hreq'
  rw [(chainRequest_eq_some.mp hreq).1, (chainRequest_eq_some.mp hreq').1]
  exact hlt

/-- The request depends on the contents of the map only, not on its iteration order. -/
theorem buildXtRequest_congr {txs txs' : RawTxs} (h : SameTxs txs txs') :
    buildXtRequest txs = buildXtRequest txs' := by
  have hkeys : txs.keys.insertionSort (· ≤ ·) = txs'.keys.insertionSort (· ≤ ·) := by
    have hmem : ∀ chainId, chainId ∈ txs.keys ↔ chainId ∈ txs'.keys := by
      intro chainId
      rw [← AList.mem_keys, ← AList.mem_keys, ← AList.lookup_isSome, ← AList.lookup_isSome, h]
    have hkeysPerm : List.Perm txs.keys txs'.keys :=
      (List.perm_ext_iff_of_nodup txs.keys_nodup txs'.keys_nodup).mpr hmem
    have hperm := (List.perm_insertionSort (· ≤ ·) txs.keys).trans
      (hkeysPerm.trans (List.perm_insertionSort (· ≤ ·) txs'.keys).symm)
    exact hperm.eq_of_pairwise' (List.pairwise_insertionSort (· ≤ ·) txs.keys)
      (List.pairwise_insertionSort (· ≤ ·) txs'.keys)
  have hrequest : chainRequest txs = chainRequest txs' := by
    funext chainId
    unfold chainRequest
    rw [h]
  have hlists : (buildXtRequest txs).transactions = (buildXtRequest txs').transactions := by
    rw [buildXtRequest_eq, buildXtRequest_eq, hkeys, hrequest]
  exact congrArg XtRequest.mk hlists

end Request

section Rebuild

theorem lookup_pushTx (txs : RawTxs) (chainId k : ChainId) (tx : Bytes) :
    (pushTx txs chainId tx).lookup k =
      if k = chainId then some ((txs.lookup k).getD [] ++ [tx]) else txs.lookup k := by
  unfold pushTx
  cases hl : txs.lookup chainId with
  | none =>
    dsimp only
    rw [Map.lookup_insert_eq]
    split_ifs with hk
    · rw [hk, hl]
      rfl
    · rfl
  | some chainTxs =>
    dsimp only
    rw [Map.lookup_update]
    split_ifs with hk
    · rw [hk, hl]
      rfl
    · rfl

/-- The inner loop appends the transactions of one request. -/
theorem lookup_pushAll (chainTxs : List Bytes) (txs : RawTxs) (chainId k : ChainId) :
    (chainTxs.foldl (fun acc tx => pushTx acc chainId tx) txs).lookup k =
      if k = chainId ∧ chainTxs ≠ [] then some ((txs.lookup k).getD [] ++ chainTxs)
      else txs.lookup k := by
  induction chainTxs generalizing txs with
  | nil => simp
  | cons tx chainTxs ih =>
    rw [List.foldl_cons, ih, lookup_pushTx]
    by_cases hk : k = chainId
    · cases chainTxs with
      | nil => simp [hk]
      | cons tx' chainTxs => simp [hk]
    · simp [hk]

/-- A request for a chain that is not listed yet lists it. -/
theorem lookup_pushRequest {req : TransactionRequest} (hreq : req.transactions ≠ []) {txs : RawTxs}
    (hnone : txs.lookup req.chainId = none) (c : ChainId) :
    (req.transactions.foldl (fun acc tx => pushTx acc req.chainId tx) txs).lookup c =
      if c = req.chainId then some req.transactions else txs.lookup c := by
  rw [lookup_pushAll]
  by_cases hc : c = req.chainId
  · rw [if_pos ⟨hc, hreq⟩, if_pos hc, hc, hnone]
    rfl
  · rw [if_neg (fun h => hc h.1), if_neg hc]

/-- The outer loop over requests of different chains. -/
theorem lookup_rebuild {requests : List TransactionRequest}
    (hsorted : (requests.map TransactionRequest.chainId).Pairwise (· < ·))
    (hfull : ∀ req ∈ requests, req.transactions ≠ []) (txs : RawTxs)
    (hnew : ∀ req ∈ requests, txs.lookup req.chainId = none) (k : ChainId)
    (chainTxs : List Bytes) :
    (requests.foldl (fun acc r =>
      r.transactions.foldl (fun acc tx => pushTx acc r.chainId tx) acc) txs).lookup k =
        some chainTxs ↔ txs.lookup k = some chainTxs ∨ ⟨k, chainTxs⟩ ∈ requests := by
  induction requests generalizing txs with
  | nil => simp
  | cons req requests ih =>
    rw [List.map_cons, List.pairwise_cons] at hsorted
    have hothers : ∀ r ∈ requests, r.chainId ≠ req.chainId := by
      intro r hr heq
      have hlt := hsorted.1 r.chainId (List.mem_map.mpr ⟨r, hr, rfl⟩)
      rw [heq] at hlt
      exact Nat.lt_irrefl _ hlt
    have hnone := hnew req List.mem_cons_self
    have hpush := lookup_pushRequest (hfull req List.mem_cons_self) hnone
    rw [List.foldl_cons, ih hsorted.2 (fun r hr => hfull r (List.mem_cons_of_mem _ hr)), hpush]
    · by_cases hk : k = req.chainId
      · rw [if_pos hk]
        constructor
        · intro h
          rcases h with hhead | htail
          · have heq : (⟨k, chainTxs⟩ : TransactionRequest) = req := by
              rw [hk, ← Option.some.inj hhead]
            exact Or.inr (by rw [heq]; exact List.mem_cons_self)
          · exact Or.inr (List.mem_cons_of_mem _ htail)
        · intro h
          rcases h with hold | hmem
          · rw [hk, hnone] at hold
            simp at hold
          · rcases List.mem_cons.mp hmem with heq | htail
            · exact Or.inl (by rw [← heq])
            · exact Or.inr htail
      · rw [if_neg hk, List.mem_cons]
        have hne : (⟨k, chainTxs⟩ : TransactionRequest) ≠ req := fun h => hk (by rw [← h])
        tauto
    · intro r hr
      rw [hpush, if_neg (hothers r hr)]
      exact hnew r (List.mem_cons_of_mem _ hr)

/-- What `handle_start_instance` rebuilds from a request is what the request was built from. -/
theorem txsOfRequest_buildXtRequest {txs : RawTxs} (hfull : NoEmptyChain txs) :
    SameTxs (txsOfRequest (buildXtRequest txs)) txs := by
  intro chainId
  apply Option.ext
  intro chainTxs
  have hrebuild := lookup_rebuild (buildXtRequest_pairwise txs)
    (fun req hreq => (mem_buildXtRequest.mp hreq).2) ∅ (fun _ _ => AList.lookup_empty _) chainId
    chainTxs
  rw [AList.lookup_empty] at hrebuild
  refine hrebuild.trans ?_
  rw [mem_buildXtRequest]
  constructor
  · intro h
    rcases h with hnone | hmem
    · simp at hnone
    · exact hmem.1
  · intro h
    exact Or.inr ⟨h, hfull chainId chainTxs h⟩

end Rebuild

theorem cleanTxs_sameTxs {txs : RawTxs} (hfull : NoEmptyChain txs) : SameTxs (cleanTxs txs) txs := by
  intro chainId
  rw [cleanTxs, Map.lookup_retain]
  cases hl : txs.lookup chainId with
  | none => rfl
  | some chainTxs =>
    have hne := hfull chainId chainTxs hl
    simp [Option.filter, hne]

/-- The registrations by which the transactions come into a coordinator: the submission
itself, a forward whose request was made from them, and the publisher's instance of their
request. The received request is the sent one as a map; its iteration order is not. -/
inductive Carries (txs : RawTxs) : Op → Prop
  | submitted : Carries txs (.submitXt txs)
  | forwarded (id : InstanceId) (originChain : ChainId) (originSeq : SequenceNumber)
      (req : XtForwardRequest) (decoded : RawTxs)
      (hsent : ∀ chainId, req.transactions.lookup chainId =
        (XtForwardRequest.new id txs originChain originSeq).transactions.lookup chainId)
      (hdecoded : req.decodeTransactions = .ok decoded) :
      Carries txs (.forwardXt id decoded originChain originSeq)
  | started (inst : SpecInstance) (hrequest : inst.xtRequest = buildXtRequest txs) :
      Carries txs (.startInstance inst)

theorem decoded_sameTxs {txs decoded : RawTxs} {id : InstanceId} {originChain : ChainId}
    {originSeq : SequenceNumber} {req : XtForwardRequest}
    (hsent : ∀ chainId, req.transactions.lookup chainId =
      (XtForwardRequest.new id txs originChain originSeq).transactions.lookup chainId)
    (hdecoded : req.decodeTransactions = .ok decoded) : SameTxs decoded txs := by
  obtain ⟨decoded', hok, hsame⟩ := @XtForwardRequest.decodeTransactions_of_lookup req txs
    (fun chainId => (hsent chainId).trans (XtForwardRequest.lookup_new ..))
  obtain rfl := Except.ok.inj (hdecoded.symm.trans hok)
  exact hsame

/-- All routes agree on the transactions. The request is sorted by chain and does not depend on
the iteration order of the map, a forwarded request is always decoded, and whichever route
registers the instance, the transactions stored under it are those of the map, chain by chain
and in their order. -/
theorem registration_routes_agree (cfg : Config) (txs : RawTxs) (hfull : NoEmptyChain txs) :
    (∀ txs', SameTxs txs' txs → buildXtRequest txs' = buildXtRequest txs) ∧
      ((buildXtRequest txs).transactions.map TransactionRequest.chainId).Pairwise (· < ·) ∧
      SameTxs (txsOfRequest (buildXtRequest txs)) txs ∧
      (∀ id originChain originSeq, ∃ decoded,
        (XtForwardRequest.new id txs originChain originSeq).decodeTransactions = .ok decoded ∧
          SameTxs (cleanTxs decoded) txs) ∧
      ∀ st op id route, Carries txs op → op.registers cfg st = some (id, route) →
        ∃ xt, (op.apply cfg st).pending.lookup id = some xt ∧ SameTxs xt.rawTxs txs := by
  refine ⟨fun txs' h => buildXtRequest_congr h, buildXtRequest_pairwise txs,
    txsOfRequest_buildXtRequest hfull, ?_, ?_⟩
  · intro id originChain originSeq
    obtain ⟨decoded, hok, hsame⟩ := XtForwardRequest.decodeTransactions_of_lookup
      (fun chainId => XtForwardRequest.lookup_new id txs originChain originSeq chainId)
    have hfull' : NoEmptyChain decoded :=
      fun chainId chainTxs h => hfull chainId chainTxs ((hsame chainId).symm.trans h)
    exact ⟨decoded, hok, fun chainId => (cleanTxs_sameTxs hfull' chainId).trans (hsame chainId)⟩
  · intro st op id route hcarries hreg
    obtain ⟨xt, -, has, hpending⟩ := registeredAs hreg
    refine ⟨xt, by rw [hpending, AList.lookup_insert], ?_⟩
    cases hcarries with
    | submitted =>
      cases has with
      | submitted => exact fun chainId => rfl
    | forwarded i originChain originSeq req decoded hsent hdecoded =>
      have hsame := decoded_sameTxs hsent hdecoded
      have hfull' : NoEmptyChain decoded :=
        fun chainId chainTxs h => hfull chainId chainTxs ((hsame chainId).symm.trans h)
      cases has with
      | forwarded _ _ _ _ hnew =>
        exact fun chainId => (cleanTxs_sameTxs hfull' chainId).trans (hsame chainId)
    | started inst hrequest =>
      cases has with
      | started _ hnew =>
        intro chainId
        have hstored := txsOfRequest_buildXtRequest hfull chainId
        rw [← hrequest] at hstored
        exact hstored

/-- Two transactions of chain 2 and, entered after them, one of chain 1. -/
def routedTxs : RawTxs := pushTx (pushTx (pushTx ∅ 2 [2]) 2 [3]) 1 [0xab]

theorem noEmptyChain_routedTxs : NoEmptyChain routedTxs := by
  have hentries : ∀ e ∈ routedTxs.entries, e.2 ≠ [] := by decide
  intro chainId chainTxs h
  exact hentries ⟨chainId, chainTxs⟩ ((List.mem_dlookup_iff routedTxs.nodupKeys).mp h)

def routedInstance : SpecInstance :=
  { id := List.replicate 32 1
    periodId := 7
    sequenceNumber := 1
    xtRequest := ⟨[⟨1, [[0xab]]⟩, ⟨2, [[2], [3]]⟩]⟩ }

/-- The three routes of one map into the coordinator of chain 1. -/
theorem registration_routes_agree_on_two_chains :
    buildXtRequest routedTxs = ⟨[⟨1, [[0xab]]⟩, ⟨2, [[2], [3]]⟩]⟩ ∧
      (∃ xt, ((Op.submitXt routedTxs).apply (.bare 1) {}).pending.lookup "xt-1-1" = some xt ∧
        SameTxs xt.rawTxs routedTxs) ∧
      (∃ decoded xt, (XtForwardRequest.new "xt-2-1" routedTxs 2 1).decodeTransactions =
          .ok decoded ∧
        ((Op.forwardXt "xt-2-1" decoded 2 1).apply (.bare 1) {}).pending.lookup "xt-2-1" =
          some xt ∧ SameTxs xt.rawTxs routedTxs) ∧
      ∃ st xt, ((Op.startInstance routedInstance).apply (.bare 1) st).pending.lookup
          (InstanceId.fromPublisherBytes routedInstance.id) = some xt ∧
        SameTxs xt.rawTxs routedTxs := by
  have hagree := registration_routes_agree (.bare 1) routedTxs noEmptyChain_routedTxs
  have hrequest : buildXtRequest routedTxs = ⟨[⟨1, [[0xab]]⟩, ⟨2, [[2], [3]]⟩]⟩ := by decide
  have hcarried := hagree.2.2.2.2
  refine ⟨hrequest, hcarried {} _ "xt-1-1" .submitted .submitted (by decide), ?_, ?_⟩
  · obtain ⟨decoded, hok, -⟩ := hagree.2.2.2.1 "xt-2-1" 2 1
    have hlookups : decoded = pushTx (pushTx (pushTx ∅ 2 [2]) 2 [3]) 1 [0xab] := by
      have hvalue : (XtForwardRequest.new "xt-2-1" routedTxs 2 1).decodeTransactions =
          .ok (pushTx (pushTx (pushTx ∅ 2 [2]) 2 [3]) 1 [0xab]) := by decide
      exact Except.ok.inj (hok.symm.trans hvalue)
    obtain ⟨xt, hl, hsame⟩ := hcarried {} (.forwardXt "xt-2-1" decoded 2 1) "xt-2-1" .forwarded
      (.forwarded "xt-2-1" 2 1 _ decoded (fun _ => rfl) hok) (by rw [hlookups]; decide)
    exact ⟨decoded, xt, hok, hl, hsame⟩
  · have hstarted := hcarried ((Op.startPeriod 7 0).apply (.bare 1) {})
      (.startInstance routedInstance) (InstanceId.fromPublisherBytes routedInstance.id) .started
      (.started routedInstance hrequest.symm) (by decide)
    exact ⟨_, hstarted⟩

end Sidecar.Coordinator
