import BtSniffer.Dht.Lookup
import BtSniffer.Dht.RoutingRefresh
import BtSniffer.Dht.SamplerOps

/-!
# Routing maintenance

Reference model of `MaintenanceState` in `src/dht/dispatcher/maintenance.rs`: when a lookup begins and
what its end schedules.

* The random bytes of a refresh target are an argument.
* `mark_refreshed` would panic without a bucket for the target; a table with a bucket for every Node
  ID (`RoutingTable.Shape`) has one.
-/

set_option autoImplicit false

namespace BtSniffer

/-- `MaintenanceConfig`; what a lookup reads of it is the base. -/
structure MaintenanceSettings extends MaintenanceConfig where
  enabled : Bool
  refreshAfter : Nat
  retryInitial : Nat
  retryMax : Nat
  interLookupDelay : Nat
  reservedUserTransactions : Nat
  deriving DecidableEq, Repr

/-- The maintenance settings that `with_config` refuses. -/
def MaintenanceSettings.Invalid (c : MaintenanceSettings) : Prop :=
  c.enabled = true ∧ (c.refreshAfter = 0 ∨ c.lookupParallelism = 0 ∨ c.shortlistSize = 0 ∨
    c.maxQueries < c.shortlistSize ∨ c.retryInitial = 0 ∨ c.retryMax < c.retryInitial)

instance (c : MaintenanceSettings) : Decidable c.Invalid := inferInstanceAs (Decidable (_ ∧ _))

/-- The transactions that are kept for the user. -/
def MaintenanceSettings.reserve (c : MaintenanceSettings) : Nat := max c.reservedUserTransactions 1

/-- `MaintenanceState`. -/
structure MaintenanceState where
  config : MaintenanceSettings
  lookup : Option IterativeLookup
  startupComplete : Bool
  notBefore : Nat
  retryDelay : Nat

namespace MaintenanceState

/-- `MaintenanceState::new`. -/
def new (config : MaintenanceSettings) (now : Nat) : MaintenanceState :=
  ⟨config, none, false, now, config.retryInitial⟩

/-- `deadline`. -/
def deadline (m : MaintenanceState) (routing : RoutingTable) : Option Nat :=
  if !m.config.enabled || m.lookup.isSome || routing.isEmpty then none
  else if !m.startupComplete then some m.notBefore
  else (routing.nextRefreshDeadline m.config.refreshAfter).map (fun at_ => max at_ m.notBefore)

/-- `schedule_retry`. -/
def scheduleRetry (m : MaintenanceState) (now : Nat) : MaintenanceState :=
  { m with
    notBefore := now + m.retryDelay
    retryDelay := min (min (m.retryDelay * 2) Sampler.DURATION_MAX) m.config.retryMax }

/-- The kind and the target of the next lookup. -/
def nextTarget (m : MaintenanceState) (routing : RoutingTable) (now : Nat) (random : NodeId) :
    Option (LookupKind × NodeId) :=
  if !m.startupComplete then some (.startup, routing.localId)
  else (routing.staleRefreshTarget now m.config.refreshAfter random).map
    (fun target => (.refresh, target))

/-- `begin_if_due`. -/
def beginIfDue (m : MaintenanceState) (routing : RoutingTable) (now : Nat) (random : NodeId) :
    MaintenanceState :=
  if m.lookup.isSome || (m.deadline routing).all (fun at_ => decide (now < at_)) then m
  else
    match m.nextTarget routing now random with
    | none => m
    | some (kind, target) =>
      let seeds := routing.closestUsable target 256 now
      if seeds = [] then m.scheduleRetry now
      else { m with lookup := some (.new kind target seeds) }

/-- `finish_if_complete` once the lookup is complete. -/
def finish (m : MaintenanceState) (lookup : IterativeLookup) (routing : RoutingTable) (now : Nat) :
    MaintenanceState × RoutingTable :=
  let m := { m with lookup := none }
  if lookup.succeeded then
    ({ m with
        startupComplete := m.startupComplete || decide (lookup.kind = .startup)
        retryDelay := m.config.retryInitial
        notBefore := now + m.config.interLookupDelay },
      match lookup.kind with
      | .startup => routing
      | .refresh => (routing.markRefreshed lookup.target now).getD routing)
  else (m.scheduleRetry now, routing)

/-- `finish_if_complete`. -/
def finishIfComplete (m : MaintenanceState) (routing : RoutingTable) (now : Nat) :
    MaintenanceState × RoutingTable :=
  match m.lookup with
  | none => (m, routing)
  | some lookup =>
    if lookup.isComplete m.config.toMaintenanceConfig then m.finish lookup routing now
    else (m, routing)

/-- `clear`. -/
def clear (m : MaintenanceState) : MaintenanceState := { m with lookup := none }

/-- An operation on the lookup, if there is one. -/
def mapLookup (m : MaintenanceState) (f : IterativeLookup → IterativeLookup) : MaintenanceState :=
  { m with lookup := m.lookup.map f }

/-! ## Settings -/

@[simp] theorem beginIfDue_config (m : MaintenanceState) (routing : RoutingTable) (now : Nat)
    (random : NodeId) : (m.beginIfDue routing now random).config = m.config := by
  unfold beginIfDue
  split
  · rfl
  · split
    · rfl
    · simp only
      split <;> rfl

@[simp] theorem finishIfComplete_config (m : MaintenanceState) (routing : RoutingTable) (now : Nat) :
    (m.finishIfComplete routing now).1.config = m.config := by
  unfold finishIfComplete
  split
  · rfl
  · split
    · unfold finish
      simp only
      split <;> rfl
    · rfl

end MaintenanceState

end BtSniffer
