/-
EventFanout.Criteria.Basic — which logs a client wants.

Criteria bound the block number, list the accepted emitters, and give a set of
accepted values for each position of a log's topics. An empty list of emitters and
an empty set of values accept everything; positions are joined by "and", values of
one position by "or".

Criteria are built by calls on empty criteria (`withAddress` to `toBlock`), checked
against limits (`validate`), and applied to logs (`matchesLog`, `filterLogs`).
-/
import EventFanout.Criteria.BlockSpec
import EventFanout.Chain.Log
import EventFanout.Error

namespace EventFanout

/-- The number of topic positions a log can have. -/
def maxTopicSlots : Nat := 4

structure Criteria where
  fromBlock : Option BlockSpec := none
  toBlock : Option BlockSpec := none
  addresses : List Address := []
  topics : List (List Hash) := []
  deriving DecidableEq, Inhabited

namespace Criteria

/-! ## Building -/

def withAddress (c : Criteria) (a : Address) : Criteria :=
  { c with addresses := c.addresses ++ [a] }

def withAddresses (c : Criteria) (as : List Address) : Criteria := { c with addresses := as }

/--
Sets the accepted values of one position; positions before it that were not there yet accept
everything. All positions out of range count as the first one out of range, which `validate`
refuses.
-/
def withTopic (c : Criteria) (position : Nat) (values : List Hash) : Criteria :=
  let p := min position maxTopicSlots
  let padded := c.topics ++ List.replicate (p + 1 - c.topics.length) []
  { c with topics := padded.set p values }

def withTopics (c : Criteria) (topics : List (List Hash)) : Criteria := { c with topics }

def withFromBlock (c : Criteria) (b : BlockSpec) : Criteria := { c with fromBlock := some b }

def withToBlock (c : Criteria) (b : BlockSpec) : Criteria := { c with toBlock := some b }

inductive Build where
  | address (a : Address)
  | addresses (as : List Address)
  | topic (position : Nat) (values : List Hash)
  | topics (slots : List (List Hash))
  | fromBlock (b : BlockSpec)
  | toBlock (b : BlockSpec)

def apply (c : Criteria) : Build → Criteria
  | .address a => c.withAddress a
  | .addresses as => c.withAddresses as
  | .topic position values => c.withTopic position values
  | .topics slots => c.withTopics slots
  | .fromBlock b => c.withFromBlock b
  | .toBlock b => c.withToBlock b

/-- The criteria that a sequence of calls builds from empty ones. -/
def build (calls : List Build) : Criteria := calls.foldl apply {}

/-- Whether the criteria constrain nothing. -/
def isEmpty (c : Criteria) : Bool :=
  c.fromBlock.isNone && c.toBlock.isNone && c.addresses.isEmpty && c.topics.all List.isEmpty

/-! ## Checking -/

/-- The lower bound that counts: a missing one is `latest`. -/
def lower (c : Criteria) : BlockSpec := c.fromBlock.getD (.tag .latest)

/-- The upper bound that counts: a missing one is `latest`. -/
def upper (c : Criteria) : BlockSpec := c.toBlock.getD (.tag .latest)

/--
Whether the range can hold a new block: an open end always can, a fixed end needs a fixed start
that is not above it.
-/
def rangeOk (lower upper : BlockSpec) : Bool :=
  match lower.height, upper.height with
  | none, some _ => false
  | some l, some u => l ≤ u
  | _, none => true

/-- Checks the criteria against limits on the number of topic positions and of emitters. -/
def validate (c : Criteria) (maxTopics maxAddresses : Nat) : Except FilterError Unit :=
  if maxTopics < c.topics.length then
    .error (.tooManyTopics c.topics.length maxTopics)
  else if maxAddresses < c.addresses.length then
    .error (.tooManyAddresses c.addresses.length maxAddresses)
  else if c.lower.isPending || c.upper.isPending then
    .error .pendingLogsUnsupported
  else if rangeOk c.lower c.upper then .ok ()
  else .error (.invalidBlockRange c.lower c.upper)

/-! ## Matching -/

/-- Whether a height is not below the bound. -/
def reaches (bound : Option BlockSpec) (n : UInt64) : Bool :=
  match bound.bind BlockSpec.height with
  | some h => h ≤ n
  | none => true

/-- Whether a height is not above the bound. -/
def within (bound : Option BlockSpec) (n : UInt64) : Bool :=
  match bound.bind BlockSpec.height with
  | some h => n ≤ h
  | none => true

def acceptsAddress (accepted : List Address) (a : Address) : Bool :=
  accepted.isEmpty || accepted.contains a

/-- Whether the topics of a log are accepted: every position needs a topic of the log. -/
def acceptsTopics (slots : List (List Hash)) (topics : List Hash) : Bool :=
  slots.length ≤ topics.length &&
    (slots.zip topics).all fun (slot, topic) => slot.isEmpty || slot.contains topic

/--
Whether the criteria want a log. Criteria with more positions than the log has topics do not,
whatever the positions accept.
-/
def matchesLog (c : Criteria) (log : Log) : Bool :=
  reaches c.fromBlock log.blockNumber && within c.toBlock log.blockNumber &&
    acceptsAddress c.addresses log.address && acceptsTopics c.topics log.topics

/-- The logs that the criteria want, in order. -/
def filterLogs (c : Criteria) (logs : List Log) : List Log := logs.filter c.matchesLog

end Criteria

end EventFanout
