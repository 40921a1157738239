/-
EventFanout.Metrics — the counters of a hub. They have 64 bits and wrap.
-/

namespace EventFanout

structure Metrics where
  installs : UInt64 := 0
  uninstalls : UInt64 := 0
  rejected : UInt64 := 0
  eventsReceived : UInt64 := 0
  notificationsDelivered : UInt64 := 0
  transientErrors : UInt64 := 0
  topicsRegistered : UInt64 := 0
  topicsReleased : UInt64 := 0
  filtersExpired : UInt64 := 0
  deriving DecidableEq, Repr, Inhabited

namespace Metrics

inductive Tally where
  | install
  | uninstall
  | rejected
  | event
  | delivered (n : UInt64)
  | transientErrors (n : UInt64)
  | topicRegistered
  | topicReleased
  | filtersExpired (n : UInt64)

def record (m : Metrics) : Tally → Metrics
  | .install => { m with installs := m.installs + 1 }
  | .uninstall => { m with uninstalls := m.uninstalls + 1 }
  | .rejected => { m with rejected := m.rejected + 1 }
  | .event => { m with eventsReceived := m.eventsReceived + 1 }
  | .delivered n => { m with notificationsDelivered := m.notificationsDelivered + n }
  | .transientErrors n => { m with transientErrors := m.transientErrors + n }
  | .topicRegistered => { m with topicsRegistered := m.topicsRegistered + 1 }
  | .topicReleased => { m with topicsReleased := m.topicsReleased + 1 }
  | .filtersExpired n => { m with filtersExpired := m.filtersExpired + n }

/-- Subscriptions installed now: never below zero. -/
def activeSubscriptions (m : Metrics) : Nat := m.installs.toNat - m.uninstalls.toNat

/-- Topics registered now: never below zero. -/
def activeTopics (m : Metrics) : Nat := m.topicsRegistered.toNat - m.topicsReleased.toNat

end Metrics

end EventFanout
