/-
EventFanout.Proofs.Codec — records that are written as JSON and read back.

Headers, logs, transactions, payloads, events and configurations read back as what was written,
whatever they hold: an absent base fee stays absent, a transaction keeps its logs in order, and raw
JSON comes back as it was. The readers are lenient, in that members they do not know are ignored;
yet no written transaction reads as a header, nor a written header as a transaction, because each
lacks a member that the other has to have.

Main statement: `decoding_undoes_encoding`, for every form that travels.
-/
import EventFanout.Config
import EventFanout.Event

namespace EventFanout

namespace Json.Members

variable {α : Type} {decode : Json → Decoded α}

@[simp] theorem field?_nil (key : String) :
    field? ([] : Members) key decode = .ok none := rfl

/-- A member is looked for one by one. -/
theorem field?_cons (k : String) (v : Json) (m : Members) (key : String) :
    field? ((k, v) :: m) key decode =
      if k = key then (decode v).map some else m.field? key decode := by
  by_cases h : k = key
  · simp [field?, get?, h]
  · simp [field?, get?, h]

end Json.Members

/-- A number that may be absent, and is there. -/
theorem Json.toOption_ofWord (n : UInt64) :
    Json.toOption Json.toWord (Json.ofWord n) = .ok (some n) :=
  congrArg (Except.map some) (Json.toWord_ofWord n)

theorem Header.ofJson_toJson (h : Header) : Header.ofJson h.toJson = .ok h := by
  obtain ⟨hash, parentHash, number, timestamp, miner, stateRoot, transactionsRoot, receiptsRoot,
    gasLimit, gasUsed, fee⟩ := h
  cases fee <;>
    simp [Header.ofJson, Header.toJson, Header.ofMembers, Json.Members.field?_cons, Except.map,
      bind, Except.bind, pure, Except.pure, Json.required, Json.toOption_ofWord]

theorem Log.ofJson_toJson (l : Log) : Log.ofJson l.toJson = .ok l := by
  have htopics : (Json.ofList Word.toJson l.topics).toList Word.ofJson = .ok l.topics :=
    Json.toList_ofList l.topics fun w _ => Word.ofJson_toJson w
  simp [Log.ofJson, Log.toJson, Log.ofMembers, Json.Members.field?_cons, Except.map,
    bind, Except.bind, pure, Except.pure, Json.required, htopics]

theorem Transaction.ofJson_toJson (t : Transaction) : Transaction.ofJson t.toJson = .ok t := by
  have hlogs : (Json.ofList Log.toJson t.logs).toList Log.ofJson = .ok t.logs :=
    Json.toList_ofList t.logs fun l _ => Log.ofJson_toJson l
  simp [Transaction.ofJson, Transaction.toJson, Transaction.ofMembers, Json.Members.field?_cons,
    Except.map, bind, Except.bind, pure, Except.pure, Json.required, hlogs]

/-- A payload is told by the name of its one member, and keeps its form. -/
theorem Payload.ofJson_toJson (p : Payload) : Payload.ofJson p.toJson = .ok p := by
  cases p with
  | header h =>
    simp only [toJson, ofJson, if_true, Header.ofJson_toJson]
    rfl
  | transaction t =>
    simp only [toJson, ofJson, String.reduceEq, if_false, if_true, Transaction.ofJson_toJson]
    rfl
  | raw value => simp only [toJson, ofJson, String.reduceEq, if_false, if_true]

theorem Event.ofJson_toJson (e : Event) : Event.ofJson e.toJson = .ok e := by
  simp [Event.ofJson, Event.toJson, Json.Members.field?_cons, Payload.ofJson_toJson, Except.map,
    bind, Except.bind, pure, Except.pure, Json.required]

theorem Config.ofJson_toJson (c : Config) : Config.ofJson c.toJson = .ok c := by
  simp [Config.ofJson, Config.toJson, Config.ofMembers, Json.Members.field?_cons, Except.map,
    bind, Except.bind, pure, Except.pure]

/--
**Decoding undoes encoding.** Whatever is written as JSON reads back as the same value: bytes of any
number, headers, logs, transactions, payloads of every form, events and configurations.
-/
theorem decoding_undoes_encoding :
    (∀ b : Bytes, Bytes.ofJson b.toJson = .ok b) ∧
    (∀ h : Header, Header.ofJson h.toJson = .ok h) ∧
    (∀ l : Log, Log.ofJson l.toJson = .ok l) ∧
    (∀ t : Transaction, Transaction.ofJson t.toJson = .ok t) ∧
    (∀ p : Payload, Payload.ofJson p.toJson = .ok p) ∧
    (∀ e : Event, Event.ofJson e.toJson = .ok e) ∧
    (∀ c : Config, Config.ofJson c.toJson = .ok c) :=
  ⟨Bytes.ofJson_toJson, Header.ofJson_toJson, Log.ofJson_toJson, Transaction.ofJson_toJson,
    Payload.ofJson_toJson, Event.ofJson_toJson, Config.ofJson_toJson⟩

/-- A written header has no height, which a transaction has to have. -/
theorem Transaction.ofJson_header (h : Header) : Transaction.ofJson h.toJson = .error .shape := by
  cases hfee : h.baseFeePerGas <;>
    simp [Transaction.ofJson, Header.toJson, hfee, Transaction.ofMembers,
      Json.Members.field?_cons, Except.map, bind, Except.bind, Json.required]

/-- A written transaction has no parent, which a header has to have. -/
theorem Header.ofJson_transaction (t : Transaction) :
    Header.ofJson t.toJson = .error .shape := by
  simp [Header.ofJson, Transaction.toJson, Header.ofMembers, Json.Members.field?_cons, Except.map,
    bind, Except.bind, Json.required]

end EventFanout
