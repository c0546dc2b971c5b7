import Mathlib.Logic.Function.Basic
import EthereumSettlement.PastaPoseidon

/-!
# Inherited contracts

Both contracts inherit `AccessControl` from OpenZeppelin, and the bridge inherits
`Pausable`. The library is not part of the repository, so its functions are
parameters with the behaviour that its documentation promises to a contract that
never calls `_setRoleAdmin`. The storage of the library is what its views answer:
the holders of each role, and the pause flag.
-/

namespace EthereumSettlement.OpenZeppelin

open CheckedCalls PastaPoseidon

/-- What `hasRole` answers, by role and account. -/
abbrev Roles := Bytes32 → Address → Bool

/-- `DEFAULT_ADMIN_ROLE`, the admin of every role for which no other one is set. -/
def defaultAdminRole : Bytes32 := 0

/-- Write one entry of a role table. -/
def setRole (roles : Roles) (role : Bytes32) (account : Address) (held : Bool) : Roles :=
  Function.update roles role (Function.update (roles role) account held)

/-- The reverts of `AccessControl`. -/
inductive AccessControlError
  /-- `AccessControlUnauthorizedAccount`: the account lacks the needed role. -/
  | unauthorizedAccount (account : Address) (neededRole : Bytes32)
  /-- `AccessControlBadConfirmation`: a role is renounced for somebody else. -/
  | badConfirmation
  deriving DecidableEq

/-- `AccessControl`: its functions over the table of roles, and what they promise. -/
structure AccessControl where
  /-- `_checkRole`, the body of the `onlyRole` modifier. -/
  checkRole : Roles → Bytes32 → Address → Except AccessControlError Unit
  /-- `grantRole`, by the sender, to an account. -/
  grantRole : Roles → Address → Bytes32 → Address → Except AccessControlError Roles
  /-- `revokeRole`, by the sender, from an account. -/
  revokeRole : Roles → Address → Bytes32 → Address → Except AccessControlError Roles
  /-- `renounceRole`, by the sender, with the confirmed account. -/
  renounceRole : Roles → Address → Bytes32 → Address → Except AccessControlError Roles
  /-- `_grantRole`, without access restriction. -/
  internalGrantRole : Roles → Bytes32 → Address → Roles
  /-- `_revokeRole`, without access restriction. -/
  internalRevokeRole : Roles → Bytes32 → Address → Roles
  /-- A check passes for the holders of the role. -/
  checkRole_ok : ∀ {roles role account},
    checkRole roles role account = .ok () ↔ roles role account = true
  /-- An unrestricted grant makes the account a holder, and changes nothing else. -/
  internalGrantRole_eq : ∀ {roles role account},
    internalGrantRole roles role account = setRole roles role account true
  /-- An unrestricted revocation makes the account no holder, and changes nothing else. -/
  internalRevokeRole_eq : ∀ {roles role account},
    internalRevokeRole roles role account = setRole roles role account false
  /-- Only an admin of the role grants it. -/
  grantRole_ok : ∀ {roles sender role account next}, grantRole roles sender role account = .ok next ↔
    roles defaultAdminRole sender = true ∧ internalGrantRole roles role account = next
  /-- Only an admin of the role revokes it. -/
  revokeRole_ok : ∀ {roles sender role account next},
    revokeRole roles sender role account = .ok next ↔
      roles defaultAdminRole sender = true ∧ internalRevokeRole roles role account = next
  /-- An account renounces roles for itself only. -/
  renounceRole_ok : ∀ {roles sender role confirmation next},
    renounceRole roles sender role confirmation = .ok next ↔
      confirmation = sender ∧ internalRevokeRole roles role sender = next

/-- The reverts of `Pausable`. -/
inductive PausableError
  /-- `EnforcedPause`: the contract is paused. -/
  | enforcedPause
  /-- `ExpectedPause`: the contract is not paused. -/
  | expectedPause
  deriving DecidableEq

/-- `Pausable`: its functions over the flag, and what they promise. -/
structure Pausable where
  /-- `_requireNotPaused`, the body of the `whenNotPaused` modifier. -/
  requireNotPaused : Bool → Except PausableError Unit
  /-- `_pause`. -/
  pause : Bool → Except PausableError Bool
  /-- `_unpause`. -/
  unpause : Bool → Except PausableError Bool
  /-- The check passes while the contract is not paused. -/
  requireNotPaused_ok : ∀ {paused}, requireNotPaused paused = .ok () ↔ paused = false
  /-- A contract that is not paused can be paused. -/
  pause_ok : ∀ {paused next}, pause paused = .ok next ↔ paused = false ∧ true = next
  /-- A paused contract can be unpaused. -/
  unpause_ok : ∀ {paused next}, unpause paused = .ok next ↔ paused = true ∧ false = next

/-- An `AccessControl` that writes the table. -/
def tableAccessControl : AccessControl where
  checkRole := fun roles role account =>
    require (roles role account = true) (.unauthorizedAccount account role)
  grantRole := fun roles sender role account => do
    require (roles defaultAdminRole sender = true) (.unauthorizedAccount sender defaultAdminRole)
    pure (setRole roles role account true)
  revokeRole := fun roles sender role account => do
    require (roles defaultAdminRole sender = true) (.unauthorizedAccount sender defaultAdminRole)
    pure (setRole roles role account false)
  renounceRole := fun roles sender role confirmation => do
    require (confirmation = sender) .badConfirmation
    pure (setRole roles role sender false)
  internalGrantRole := fun roles role account => setRole roles role account true
  internalRevokeRole := fun roles role account => setRole roles role account false
  checkRole_ok := require_eq_ok
  internalGrantRole_eq := rfl
  internalRevokeRole_eq := rfl
  grantRole_ok := by
    intro roles sender role account next
    rw [require_bind_eq_ok, pure_eq_ok]
  revokeRole_ok := by
    intro roles sender role account next
    rw [require_bind_eq_ok, pure_eq_ok]
  renounceRole_ok := by
    intro roles sender role confirmation next
    rw [require_bind_eq_ok, pure_eq_ok]

/-- A `Pausable` that writes the flag. -/
def flagPausable : Pausable where
  requireNotPaused := fun paused => require (paused = false) .enforcedPause
  pause := fun paused => do
    require (paused = false) .enforcedPause
    pure true
  unpause := fun paused => do
    require (paused = true) .expectedPause
    pure false
  requireNotPaused_ok := require_eq_ok
  pause_ok := by
    intro paused next
    rw [require_bind_eq_ok, pure_eq_ok]
  unpause_ok := by
    intro paused next
    rw [require_bind_eq_ok, pure_eq_ok]

/-- An entry set in a table is the only one that may become held. -/
theorem held_of_setRole {roles : Roles} {role other : Bytes32} {account holder : Address}
    {held : Bool} (h : setRole roles role account held other holder = true) :
    roles other holder = true ∨ (held = true ∧ other = role ∧ holder = account) := by
  unfold setRole at h
  by_cases hrole : other = role
  · rw [hrole, Function.update_self] at h
    by_cases haccount : holder = account
    · rw [haccount, Function.update_self] at h
      exact .inr ⟨h, hrole, haccount⟩
    · rw [Function.update_of_ne haccount] at h
      rw [hrole]
      exact .inl h
  · rw [Function.update_of_ne hrole] at h
    exact .inl h

/-- Setting an entry to what it is changes nothing. -/
theorem setRole_self {roles : Roles} {role : Bytes32} {account : Address} {held : Bool}
    (h : roles role account = held) : setRole roles role account held = roles := by
  rw [setRole, ← h, Function.update_eq_self, Function.update_eq_self]

/-- An entry taken out of a table makes nobody a holder. -/
theorem held_of_removal {roles : Roles} {role other : Bytes32} {account holder : Address}
    (h : setRole roles role account false other holder = true) : roles other holder = true := by
  cases held_of_setRole h with
  | inl hbefore => exact hbefore
  | inr hnew => cases hnew.1

end EthereumSettlement.OpenZeppelin
