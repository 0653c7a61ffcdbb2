import Sidecar.Coordinator.Handler

namespace Sidecar.Nonce

/-- Every number of the lane is a `u64`. -/
structure MachineLane (inner : Inner) : Prop where
  floor : inner.canonicalFloor ≤ u64Max
  live : ∀ id range, inner.live.lookup id = some range → range.stop ≤ u64Max
  recycled : ∀ n ∈ inner.recycled, n ≤ u64Max

theorem machineLane_default : MachineLane {} :=
  ⟨Nat.zero_le _, by simp, by simp⟩

theorem liveEnd_le {inner : Inner} {bound : Nat} (hfloor : inner.canonicalFloor ≤ bound)
    (hlive : ∀ id range, inner.live.lookup id = some range → range.stop ≤ bound) :
    liveEnd inner ≤ bound := by
  have hstops : ∀ x ∈ (Map.values inner.live).map ReservedRange.stop, x ≤ bound := by
    intro x hx
    obtain ⟨range, hrange, rfl⟩ := List.mem_map.mp hx
    obtain ⟨id, hid⟩ := (Map.mem_values _ _).mp hrange
    exact hlive id range hid
  unfold liveEnd
  generalize (Map.values inner.live).map ReservedRange.stop = stops at hstops
  induction stops with
  | nil => exact hfloor
  | cons stop stops ih =>
    rw [List.foldr_cons]
    exact max_le (hstops stop (by simp)) (ih (fun x hx => hstops x (by simp [hx])))

/-- A reservation is made only with the canonical nonce at hand. -/
theorem reserve_ok {inner : Inner} {id : InstanceId} {count start : Nat}
    {fetched : Except CoordinatorError Nat} (h : (reserve inner id count fetched).1 = .ok start) :
    ∃ canonical, fetched = .ok canonical ∧
      start = pickStart (mergeCanonical inner canonical) count := by
  cases fetched with
  | ok canonical => exact ⟨canonical, rfl, (Except.ok.inj h).symm⟩
  | error err => simp [reserve] at h

theorem reserve_error {inner : Inner} {id : InstanceId} {count : Nat} {err : CoordinatorError}
    {fetched : Except CoordinatorError Nat} (h : (reserve inner id count fetched).1 = .error err) :
    (reserve inner id count fetched).2 = inner := by
  cases fetched with
  | ok canonical => simp [reserve] at h
  | error _ => rfl

theorem pickStart_le {inner : Inner} (h : MachineLane inner) {canonical : Nat}
    (hcanonical : canonical ≤ u64Max) (count : Nat) :
    pickStart (mergeCanonical inner canonical) count ≤ u64Max := by
  rcases pickStart_cases (mergeCanonical inner canonical) count with ⟨-, hrecycled⟩ | hend
  · exact h.recycled _ ((mem_recycled_mergeCanonical ..).mp hrecycled).1
  · rw [hend]
    refine liveEnd_le (max_le h.floor hcanonical) ?_
    intro id range hrange
    exact h.live id range ((lookup_mergeCanonical ..).mp hrange).1

end Sidecar.Nonce

namespace Sidecar.Coordinator

open Handler

/-- The builder got one transaction for each dependency, in their order, the `i`-th signed
for the nonce `i` above `start`, and the instance owns the nonces from `start` on. -/
structure HoldsNonces (outside : Outside) (id : InstanceId) (deps : List CrossRollupDependency)
    (start : Nat) (nonces : Nonce.Inner) (events : List Event) : Prop where
  received : ∃ txs, events = [.releaseXt id txs] ∧ txs.length = deps.length ∧
    ∀ i dep, deps[i]? = some dep →
      ∃ tx, txs[i]? = some tx ∧ outside.built i dep (saturatingAdd start i) = .ok tx
  live : nonces.live.lookup id =
    if deps.isEmpty then none else some ⟨start, saturatingAdd start deps.length⟩

/-- Nothing of the reservation is left, and nobody else lost theirs. -/
structure GaveBack (cfg : Config) (outside : Outside) (id : InstanceId)
    (deps : List CrossRollupDependency) (before after : Nonce.Inner) : Prop where
  free : after.live.lookup id = none
  others : ∀ id' range, id' ≠ id → before.live.lookup id' = some range →
    after.canonicalFloor < range.stop → after.live.lookup id' = some range
  recycled : deps ≠ [] → cfg.putInboxBuilder = true → ∀ range n,
    (Nonce.reserve before id deps.length outside.canonical).2.live.lookup id = some range →
    range.start ≤ n → n < range.stop → after.canonicalFloor ≤ n → n ∈ after.recycled

section Lemmas

variable {cfg : Config} {outside : Outside} {id : InstanceId} {deps : List CrossRollupDependency}
  {nonces : Nonce.Inner}

/-- A release that reserved nothing has nothing to give back. -/
theorem gaveBack_of_unreserved (hfree : nonces.live.lookup id = none)
    (hnone : deps ≠ [] → cfg.putInboxBuilder = true →
      (Nonce.reserve nonces id deps.length outside.canonical).2.live.lookup id = none) :
    GaveBack cfg outside id deps nonces nonces := by
  refine ⟨hfree, fun _ _ _ hrange _ => hrange, ?_⟩
  intro hdeps hbuilder range n hrange
  rw [hnone hdeps hbuilder] at hrange
  simp at hrange

/-- The abort of a reservation just made gives back all of it. -/
theorem gaveBack_of_reserved (cfg : Config) {start : Nat}
    (hstart : (Nonce.reserve nonces id deps.length outside.canonical).1 = .ok start) :
    GaveBack cfg outside id deps nonces
      (Nonce.releaseAborted (Nonce.reserve nonces id deps.length outside.canonical).2 id) := by
  obtain ⟨canonical, hcanonical, -⟩ := Nonce.reserve_ok hstart
  constructor
  · simp
  · intro id' range hne hrange hstop
    rw [Nonce.floor_releaseAborted] at hstop
    rw [Nonce.lookup_releaseAborted, if_neg hne]
    rw [hcanonical] at hstop ⊢
    simp only [Nonce.reserve, Nonce.lookup_claim, if_neg hne]
    exact (Nonce.lookup_mergeCanonical ..).mpr ⟨hrange, hstop⟩
  · intro _ _ range n hrange hlow hhigh hfloor
    rw [Nonce.floor_releaseAborted] at hfloor
    exact (Nonce.mem_recycled_releaseAborted ..).mpr
      (Or.inr ⟨⟨range, hrange, hlow, hhigh⟩, hfloor⟩)

theorem saturatingAdd_succ (a i : Nat) :
    saturatingAdd (saturatingAdd a 1) i = saturatingAdd a (i + 1) := by
  unfold saturatingAdd
  omega

/-- The loop signs every dependency for the nonce at its place, or gives the reservation
back. -/
theorem completes_signDependencies (nonce : Nat) (hnonce : nonce ≤ u64Max) (txs : List Bytes)
    (s : Shared × List Event) :
    Completes (signDependencies outside id deps nonce txs) s
      (fun built s' => s' = s ∧ ∃ signed, built = txs ++ signed ∧ signed.length = deps.length ∧
        ∀ i dep, deps[i]? = some dep → ∃ tx, signed[i]? = some tx ∧
          outside.built (txs.length + i) dep (saturatingAdd nonce i) = .ok tx)
      (fun _ s' =>
        s' = ({ s.1 with nonces := Nonce.releaseAborted s.1.nonces id }, s.2)) := by
  induction deps generalizing nonce txs with
  | nil => exact ⟨rfl, [], by simp, rfl, by simp⟩
  | cons dep deps ih =>
    unfold signDependencies
    cases hbuilt : outside.built txs.length dep nonce with
    | error err => simp
    | ok tx =>
      refine (ih (saturatingAdd nonce 1) (min_le_right _ _) (txs ++ [tx])).mono ?_
        (fun _ _ he => he)
      -- the rest was signed from the next nonce on, with this transaction before it
      rintro built s' ⟨rfl, signed, rfl, hlength, hsigned⟩
      refine ⟨rfl, tx :: signed, by simp, by simp [hlength], ?_⟩
      intro i d hd
      cases i with
      | zero =>
        obtain rfl : dep = d := by simpa using hd
        have hfirst : saturatingAdd nonce 0 = nonce := min_eq_left hnonce
        exact ⟨tx, rfl, by simpa [hfirst] using hbuilt⟩
      | succ i =>
        obtain ⟨tx', htx', hb⟩ := hsigned i d (by simpa using hd)
        refine ⟨tx', by simpa using htx', ?_⟩
        rw [saturatingAdd_succ, List.length_append, List.length_singleton] at hb
        rwa [Nat.add_assoc, Nat.add_comm 1 i] at hb

/-- The transactions are signed and their nonces reserved, and an abort gives all back; or the
reservation was given back already. -/
theorem completes_buildPutInboxTransactions (sh : Shared) (hfree : sh.nonces.live.lookup id = none)
    (hlane : Nonce.MachineLane sh.nonces)
    (hcanonical : ∀ canonical, outside.canonical = .ok canonical → canonical ≤ u64Max) :
    Completes (buildPutInboxTransactions cfg outside id deps) (sh, [])
      (fun txs s =>
        (∃ start, HoldsNonces outside id deps start s.1.nonces (s.2 ++ [.releaseXt id txs])) ∧
          GaveBack cfg outside id deps sh.nonces (Nonce.releaseAborted s.1.nonces id))
      (fun _ s => GaveBack cfg outside id deps sh.nonces s.1.nonces) := by
  unfold buildPutInboxTransactions
  split_ifs with hempty hbuilder
  · obtain rfl : deps = [] := by simpa using hempty
    have hsame : Nonce.releaseAborted sh.nonces id = sh.nonces := by
      simp [Nonce.releaseAborted, hfree]
    refine ⟨⟨0, ⟨[], rfl, rfl, by simp⟩, by simpa using hfree⟩, ?_⟩
    rw [hsame]
    exact gaveBack_of_unreserved hfree (fun hne => absurd rfl hne)
  · refine gaveBack_of_unreserved hfree ?_
    intro _ hset
    simp [hset] at hbuilder
  · simp only [Completes.bind_iff, completes_withNonces, Completes.ofExcept_iff]
    constructor
    · intro start hstart
      -- from here on an abort gives all of it back, whoever makes it
      have hback := gaveBack_of_reserved cfg hstart
      obtain ⟨canonical, hc, hpick⟩ := Nonce.reserve_ok hstart
      have hle : start ≤ u64Max := hpick ▸ Nonce.pickStart_le hlane (hcanonical canonical hc) _
      refine (completes_signDependencies start hle [] _).mono ?_ ?_
      · rintro built s ⟨rfl, signed, hbuilt, hlength, hsigned⟩
        rw [List.nil_append] at hbuilt
        subst hbuilt
        refine ⟨⟨start, ⟨built, rfl, hlength, by simpa using hsigned⟩, ?_⟩, hback⟩
        simp [hempty, hc, Nonce.reserve, Nonce.lookup_claim, hpick]
      · rintro err s rfl
        exact hback
    · intro err herr
      have hsame := Nonce.reserve_error herr
      rw [hsame]
      refine gaveBack_of_unreserved hfree (fun _ _ => ?_)
      rw [hsame]
      exact hfree

end Lemmas

/-- A release that succeeds has handed the builder its transactions and holds their nonces; one
that fails at any point holds none and has given back what it took. -/
theorem release_holds_or_gives_back (cfg : Config) (outside : Outside) (sh : Shared)
    (id : InstanceId) (deps : List CrossRollupDependency) (hclient : cfg.xtBuilderClient = true)
    (hfree : sh.nonces.live.lookup id = none) (hlane : Nonce.MachineLane sh.nonces)
    (hcanonical : ∀ canonical, outside.canonical = .ok canonical → canonical ≤ u64Max) :
    Completes (Handler.applyBuilderCommand cfg outside (.release id deps)) (sh, [])
      (fun _ s => ∃ start, HoldsNonces outside id deps start s.1.nonces s.2)
      (fun _ s => GaveBack cfg outside id deps sh.nonces s.1.nonces) := by
  simp only [Handler.applyBuilderCommand, hclient, Bool.not_true, Bool.false_eq_true, if_false,
    Completes.bind_iff, completes_emit]
  refine (completes_buildPutInboxTransactions sh hfree hlane hcanonical).mono ?_ (fun _ _ he => he)
  rintro txs s ⟨hholds, hback⟩
  cases outside.released with
  | ok u => exact hholds
  | error err => exact hback

def releaseConfig : Config :=
  { Config.bare 1 with
    putInboxBuilder := true
    xtBuilderClient := true }

/-- The signer has used the nonces below `canonical`; its transactions show theirs. -/
def signerAt (canonical : Nat) : Outside :=
  { canonical := .ok canonical
    built := fun _ _ nonce => .ok [UInt8.ofNat nonce] }

def incomingDependency (sessionId : U256) : CrossRollupDependency :=
  { sourceChainId := 2
    destChainId := 1
    sender := FixedBytes.repeatByte 20 0x11
    receiver := FixedBytes.repeatByte 20 0x22
    label := []
    data := some []
    sessionId := sessionId }

theorem release_holds_or_gives_back_two :
    releaseConfig.xtBuilderClient = true ∧ ({} : Nonce.Inner).live.lookup "xt-1-1" = none ∧
      Nonce.MachineLane {} ∧ 7 ≤ u64Max ∧
      Completes (Handler.applyBuilderCommand releaseConfig (signerAt 7)
          (.release "xt-1-1" [incomingDependency 1, incomingDependency 2])) ({}, [])
        (fun _ s => ∃ start, HoldsNonces (signerAt 7) "xt-1-1"
          [incomingDependency 1, incomingDependency 2] start s.1.nonces s.2)
        (fun _ s => GaveBack releaseConfig (signerAt 7) "xt-1-1"
          [incomingDependency 1, incomingDependency 2] {} s.1.nonces) := by
  have hcanonical : ∀ canonical, (signerAt 7).canonical = .ok canonical → canonical ≤ u64Max := by
    intro canonical hok
    obtain rfl := Except.ok.inj hok
    decide
  refine ⟨rfl, rfl, Nonce.machineLane_default, by decide, ?_⟩
  exact release_holds_or_gives_back releaseConfig (signerAt 7) {} "xt-1-1" _ rfl rfl
    Nonce.machineLane_default hcanonical

/-- Past the largest `u64` the addition saturates: the release succeeds and the instance holds
no nonce, not one. -/
theorem saturated_release_holds_nothing :
    Completes (Handler.applyBuilderCommand releaseConfig (signerAt u64Max)
        (.release "xt-1-1" [incomingDependency 1])) ({}, [])
      (fun _ s => s.1.nonces.live.lookup "xt-1-1" = some ⟨u64Max, u64Max⟩ ∧
        ∀ start, s.1.nonces.live.lookup "xt-1-1" ≠ some ⟨start, start + 1⟩)
      (fun _ _ => False) := by
  have hrun : Completes (Handler.applyBuilderCommand releaseConfig (signerAt u64Max)
        (.release "xt-1-1" [incomingDependency 1])) ({}, [])
      (fun _ s => s.1.nonces.live.lookup "xt-1-1" = some ⟨u64Max, u64Max⟩)
      (fun _ _ => False) := by
    show _ = _
    decide
  refine hrun.mono ?_ (fun _ _ hf => hf)
  intro _ s hlive
  refine ⟨hlive, ?_⟩
  intro start hclaimed
  rw [hlive] at hclaimed
  obtain ⟨hstart, hstop⟩ := Nonce.ReservedRange.mk.inj (Option.some.inj hclaimed)
  omega

end Sidecar.Coordinator
