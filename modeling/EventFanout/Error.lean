/-
EventFanout.Error — what can go wrong, and the words for it.

Errors are causes; `message` gives each its text. A `FilterError` answers a call, a
`SubscriptionError` ends a subscription, an `EventError` concerns one event only,
and a `BusError` refuses a registration on the bus.
-/
import EventFanout.Criteria.BlockSpec
import EventFanout.Kind
import EventFanout.Text.Quoted

namespace EventFanout

/-- The identity of a subscription: issued in order, or a text that a client made up. -/
inductive SubscriptionId where
  | issued (serial : Nat)
  | named (text : String)
  deriving DecidableEq, Repr, Inhabited

/-- The text of an identity; an issued one is `0x` and 32 hexadecimal digits. -/
def SubscriptionId.text : SubscriptionId → String
  | .issued serial =>
    let digits := Nat.toDigits 16 serial
    String.ofList ('0' :: 'x' :: List.replicate (32 - digits.length) '0' ++ digits)
  | .named text => text

/-- Why the bus refuses a registration. -/
inductive BusError where
  | invalidTopic (topic : Topic)
  | closed
  deriving DecidableEq, Repr

def BusError.message : BusError → String
  | .invalidTopic topic => "Invalid topic: " ++ Text.quoted topic
  | .closed => "Event bus closed"

/-- The words for a kind that light mode cannot serve. -/
def lightModeMessage (kind : Kind) : String :=
  kind.name ++ " subscriptions are not supported in light mode"

/-- Why a subscription is turned away. -/
inductive Rejection where
  | lightMode (kind : Kind)
  | duplicateId (id : SubscriptionId)
  deriving DecidableEq, Repr

def Rejection.message : Rejection → String
  | .lightMode kind => lightModeMessage kind
  | .duplicateId id => "duplicate subscription id " ++ id.text

/-- Why a subscription has ended. -/
inductive SubscriptionError where
  | rejected (cause : Rejection)
  | topicClosed (topic : Topic)
  | registrationFailed (cause : BusError)
  | unsubscribed
  | shutdown
  | closed
  deriving DecidableEq, Repr

def SubscriptionError.message : SubscriptionError → String
  | .rejected cause => "Subscription rejected: " ++ cause.message
  | .topicClosed topic => "Upstream topic closed: " ++ topic
  | .registrationFailed cause => "Upstream registration failed: " ++ cause.message
  | .unsubscribed => "Unsubscribed"
  | .shutdown => "Filter system shut down"
  | .closed => "Subscription closed"

inductive ConfigFault where
  | noDeliveryBuffer
  | topicLimit (limit : Nat)
  | noAddresses
  | noTimeout
  | noSweepInterval
  | noFilters
  deriving DecidableEq, Repr

def ConfigFault.message : ConfigFault → String
  | .noDeliveryBuffer => "delivery_buffer cannot be 0"
  | .topicLimit limit => "max_topics_per_filter must be in 1..=4, got " ++ toString limit
  | .noAddresses => "max_addresses_per_filter cannot be 0"
  | .noTimeout => "filter_timeout_secs cannot be 0"
  | .noSweepInterval => "filter_sweep_interval_secs cannot be 0"
  | .noFilters => "max_filters cannot be 0"

/-- Why a call fails. -/
inductive FilterError where
  | tooManyAddresses (count limit : Nat)
  | emptyTopic
  | criteriaNotAllowed (kind : Kind)
  | tooManyTopics (count limit : Nat)
  | pendingLogsUnsupported
  | invalidBlockRange (lower upper : BlockSpec)
  | lightModeUnsupported (kind : Kind)
  | unknownKind (name : String)
  | systemStopped
  | filterNotFound (id : SubscriptionId)
  | tooManyFilters (limit : Nat)
  | invalidConfig (fault : ConfigFault)
  | subscription (cause : SubscriptionError)
  deriving DecidableEq

def FilterError.message : FilterError → String
  | .tooManyAddresses count limit =>
    "Invalid filter criteria: too many addresses: " ++ toString count ++ " > " ++ toString limit
  | .emptyTopic => "Invalid filter criteria: empty topic"
  | .criteriaNotAllowed kind => "Criteria not allowed for " ++ kind.name ++ " subscriptions"
  | .tooManyTopics count limit =>
    "Too many topics in filter: " ++ toString count ++ " > " ++ toString limit
  | .pendingLogsUnsupported => "Pending logs are not supported"
  | .invalidBlockRange lower upper =>
    "Invalid from and to block combination: from > to (" ++ lower.text ++ " > " ++ upper.text ++ ")"
  | .lightModeUnsupported kind => lightModeMessage kind
  | .unknownKind name => "Unknown subscription kind: " ++ name
  | .systemStopped => "Filter system stopped"
  | .filterNotFound id => "Filter not found: " ++ id.text
  | .tooManyFilters limit => "Too many filters: limit is " ++ toString limit
  | .invalidConfig fault => "Invalid configuration: " ++ fault.message
  | .subscription cause => "Subscription failed: " ++ cause.message

/-- Why one event cannot be given to one subscription. -/
inductive EventError where
  | payloadMismatch (kind : Kind) (payload : String)
  | decode (fault : Fault)
  deriving DecidableEq, Repr

/-- The words of an event error, where it has any of its own. -/
def EventError.message? : EventError → Option String
  | .payloadMismatch kind payload =>
    some ("Unexpected " ++ payload ++ " payload for " ++ kind.name ++ " subscription")
  | .decode fault => fault.report?.map ("Payload decode failed: " ++ ·)

end EventFanout
