/-
EventFanout.Config — the limits a hub of subscriptions works under.
-/
import EventFanout.Criteria.Basic

namespace EventFanout

structure Config where
  /-- Turn away subscriptions that need the data of a full node. -/
  lightMode : Bool := false
  /-- Entries a delivery buffer keeps. -/
  deliveryBuffer : UInt64 := 64
  /-- Topic positions that criteria may have. -/
  maxTopics : UInt64 := 4
  /-- Emitters that criteria may list. -/
  maxAddresses : UInt64 := 1000
  /-- Seconds after which a polling filter that nobody polls is removed. -/
  timeoutSecs : UInt64 := 300
  /-- Seconds between two sweeps of expired filters. -/
  sweepIntervalSecs : UInt64 := 60
  /-- Polling filters there may be at a time. -/
  maxFilters : UInt64 := 10000
  deriving DecidableEq, Inhabited

namespace Config

/-- The configuration of a node without log data. -/
def light : Config := { lightMode := true }

def fault? (c : Config) : Option ConfigFault :=
  if c.deliveryBuffer = 0 then some .noDeliveryBuffer
  else if c.maxTopics = 0 ∨ maxTopicSlots < c.maxTopics.toNat then
    some (.topicLimit c.maxTopics.toNat)
  else if c.maxAddresses = 0 then some .noAddresses
  else if c.timeoutSecs = 0 then some .noTimeout
  else if c.sweepIntervalSecs = 0 then some .noSweepInterval
  else if c.maxFilters = 0 then some .noFilters
  else none

def validate (c : Config) : Except FilterError Unit :=
  match c.fault? with
  | some fault => .error (.invalidConfig fault)
  | none => .ok ()

def toJson (c : Config) : Json := .object
  [("delivery_buffer", .ofWord c.deliveryBuffer),
   ("filter_sweep_interval_secs", .ofWord c.sweepIntervalSecs),
   ("filter_timeout_secs", .ofWord c.timeoutSecs),
   ("light_mode", .bool c.lightMode),
   ("max_addresses_per_filter", .ofWord c.maxAddresses),
   ("max_filters", .ofWord c.maxFilters),
   ("max_topics_per_filter", .ofWord c.maxTopics)]

/-- Decodes a configuration from its members, each of which has a default. -/
def ofMembers (m : Json.Members) : Decoded Config := do
  let d : Config := {}
  let deliveryBuffer ← m.field? "delivery_buffer" Json.toWord
  let sweepIntervalSecs ← m.field? "filter_sweep_interval_secs" Json.toWord
  let timeoutSecs ← m.field? "filter_timeout_secs" Json.toWord
  let lightMode ← m.field? "light_mode" Json.toBool
  let maxAddresses ← m.field? "max_addresses_per_filter" Json.toWord
  let maxFilters ← m.field? "max_filters" Json.toWord
  let maxTopics ← m.field? "max_topics_per_filter" Json.toWord
  return {
    lightMode := lightMode.getD d.lightMode
    deliveryBuffer := deliveryBuffer.getD d.deliveryBuffer
    maxTopics := maxTopics.getD d.maxTopics
    maxAddresses := maxAddresses.getD d.maxAddresses
    timeoutSecs := timeoutSecs.getD d.timeoutSecs
    sweepIntervalSecs := sweepIntervalSecs.getD d.sweepIntervalSecs
    maxFilters := maxFilters.getD d.maxFilters }

def ofItems : Json.Items Config := do
  let d : Config := {}
  return {
    lightMode := ← Json.Items.nextOr d.lightMode Json.toBool
    deliveryBuffer := ← Json.Items.nextOr d.deliveryBuffer Json.toWord
    maxTopics := ← Json.Items.nextOr d.maxTopics Json.toWord
    maxAddresses := ← Json.Items.nextOr d.maxAddresses Json.toWord
    timeoutSecs := ← Json.Items.nextOr d.timeoutSecs Json.toWord
    sweepIntervalSecs := ← Json.Items.nextOr d.sweepIntervalSecs Json.toWord
    maxFilters := ← Json.Items.nextOr d.maxFilters Json.toWord }

def ofJson : Json → Decoded Config
  | .object members => ofMembers members
  | .array items => ofItems.finish items
  | _ => .error .shape

end Config

end EventFanout
