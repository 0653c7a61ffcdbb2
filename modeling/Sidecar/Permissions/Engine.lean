import Sidecar.Model.Primitives
import Mathlib.Data.Finset.Basic

namespace Sidecar.Permissions

inductive DenyReason where
  | configUnavailable
  | entityInactive
  | nativeSendBlocked
  | contractDeployBlocked
  | peerChainNotWhitelisted
  deriving DecidableEq

inductive Decision where
  | allow
  | deny (reason : DenyReason)
  deriving DecidableEq

inductive NetworkScope where
  | all
  | restricted
  deriving DecidableEq

structure RuleGroup where
  sendNative : Bool
  canDeployContract : Bool
  networkScope : NetworkScope
  allowedPeers : Finset ChainId
  deriving DecidableEq

structure WalletPolicy where
  entityActive : Bool
  group : Option RuleGroup
  deriving DecidableEq

/-- An indexed policy; the time of receipt is only shown to operators. -/
structure PolicySnapshot where
  version : Nat
  wallets : Map Address WalletPolicy

structure PermissionEngine where
  enabled : Bool
  connected : Bool := false
  snapshot : Option PolicySnapshot := none

namespace PermissionEngine

/-- A stored snapshot counts only while the policy stream is connected. -/
def fresh (engine : PermissionEngine) : Option PolicySnapshot :=
  if engine.connected then engine.snapshot else none

/-- The rule group of an address; `none` when no policy applies to it. -/
def resolveGroup (engine : PermissionEngine) (address : Address) :
    Except DenyReason (Option RuleGroup) :=
  if !engine.enabled then .ok none
  else
    match engine.fresh with
    | none => .error .configUnavailable
    | some snapshot =>
      match snapshot.wallets.lookup address with
      | none => .ok none
      | some wallet => if wallet.entityActive then .ok wallet.group else .error .entityInactive

/-- An enabled engine with a fresh snapshot goes by the policy of the wallet. -/
theorem resolveGroup_of_fresh {engine : PermissionEngine} (henabled : engine.enabled = true)
    {snapshot : PolicySnapshot} (hfresh : engine.fresh = some snapshot) (address : Address) :
    engine.resolveGroup address =
      (snapshot.wallets.lookup address).elim (.ok none)
        (fun wallet => if wallet.entityActive then .ok wallet.group else .error .entityInactive) := by
  simp only [resolveGroup, henabled, hfresh]
  cases snapshot.wallets.lookup address <;> rfl

/-- The check of a single transaction. -/
def evaluateTx (engine : PermissionEngine) (sender : Address) (isCreate hasValue : Bool) :
    Decision :=
  match engine.resolveGroup sender with
  | .error reason => .deny reason
  | .ok none => .allow
  | .ok (some group) =>
    if hasValue && !group.sendNative then .deny .nativeSendBlocked
    else if isCreate && !group.canDeployContract then .deny .contractDeployBlocked
    else .allow

/-- Whether `sender` may take part in an instance over the `involved` chains. -/
def evaluateXt (engine : PermissionEngine) (sender : Address) (localChain : ChainId)
    (involved : List ChainId) : Decision :=
  match engine.resolveGroup sender with
  | .error reason => .deny reason
  | .ok none => .allow
  | .ok (some group) =>
    if group.networkScope = .restricted ∧
        ∃ chain ∈ involved, chain ≠ localChain ∧ chain ∉ group.allowedPeers then
      .deny .peerChainNotWhitelisted
    else .allow

end PermissionEngine

end Sidecar.Permissions
