/-
EventFanout.Proofs.Verdict — the error a client is told is final, and does not jump the queue.

The two halves of a line are used side by side: the hub's half sends, gives the installation
signal, and at last is closed for a reason or given up; the client asks for its installation, for
its error and for notifications, in any order. Operations are taken one at a time, and a call that
waits counts when it is answered or given up. Using the hub's half up leaves nobody to use it
again, so of the deeds that end a line only the first is done.

`verdict` is how a line has ended, read off from the operations alone. Three calls tell a client of
it, each in its own way, and what carries the proof is that all three remember the error that they
tell, and tell none that they do not remember (`terminal_asked`).

Main statement: `verdict_is_final`. The error that any of the calls tells is the verdict; once told
it is told by every later call; and while none has been told, receiving gives everything that is
held, in order, before it fails.
-/
import EventFanout.Proofs.Line

namespace EventFanout

namespace Line

/-! ## Operations on both halves -/

inductive Deed where
  | send (n : Notification)
  | markInstalled
  | close (reason : SubscriptionError)
  | abandon

inductive Call where
  | installed
  | error
  | receive

inductive Op where
  | deed (d : Deed)
  | call (c : Call)

def perform (l : Line) : Deed → Line
  | .send n =>
    match l.send n with
    | .stored l' => l'
    | _ => l
  | .markInstalled => l.markInstalled
  | .close reason => l.close reason
  | .abandon => l.abandon

/-- The line after a deed by whoever has the hub's half, which is nobody once it is used up. -/
def done (l : Line) (d : Deed) : Line := if l.isClosed then l else l.perform d

/-- The receiver after a call. -/
def asked (l : Line) (r : Receiver) : Call → Receiver
  | .installed => (l.askInstalled r).2
  | .error => (l.tryError r).2
  | .receive => (l.receive r).2

def error? (l : Line) (r : Receiver) : Call → Option SubscriptionError
  | .installed =>
    match (l.askInstalled r).1 with
    | .failed e => some e
    | _ => none
  | .error => (l.tryError r).1
  | .receive =>
    match (l.receive r).1 with
    | .failed e => some e
    | _ => none

def step (l : Line) : Op → Line
  | .deed d => l.done d
  | .call c => { l with receiver := l.receiver.map fun r => l.asked r c }

def after (l : Line) (ops : List Op) : Line := ops.foldl step l

/-- The error that the client of the line would be told by a call. -/
def told? (l : Line) (c : Call) : Option SubscriptionError := l.receiver.bind fun r => l.error? r c

/-- What the client of the line would be given by receiving. -/
def delivery? (l : Line) : Option Delivery := l.receiver.map fun r => (l.receive r).1

def unread (l : Line) : List Notification := l.receiver.elim [] fun r => l.buffer.held r.next

def given (l : Line) : Op → List Notification
  | .call .receive =>
    match l.delivery? with
    | some (.notification n) => [n]
    | _ => []
  | _ => []

def received (l : Line) : List Op → List Notification
  | [] => []
  | op :: rest => l.given op ++ (l.step op).received rest

/-- The error that an operation ends a line with. -/
def Op.ending? : Op → Option SubscriptionError
  | .deed (.close reason) => some reason
  | .deed .abandon => some .closed
  | _ => none

/-- How some operations have ended a line, if they have. -/
def verdict (ops : List Op) : Option SubscriptionError := ops.findSome? Op.ending?

/-- No call among the operations has told an error. -/
def Silent (l : Line) (ops : List Op) : Prop :=
  ∀ earlier c, earlier ++ [.call c] <+: ops → (l.after earlier).told? c = none

variable {l : Line} {r : Receiver} {ops : List Op} {e : SubscriptionError}

theorem told?_eq (h : l.receiver = some r) (c : Call) : l.told? c = l.error? r c := by
  rw [told?, h, Option.bind_some]

theorem unread_eq (h : l.receiver = some r) : l.unread = l.buffer.held r.next := by
  rw [unread, h, Option.elim]

theorem after_append (l : Line) (ops ops' : List Op) :
    l.after (ops ++ ops') = (l.after ops).after ops' := List.foldl_append

theorem after_concat (l : Line) (ops : List Op) (op : Op) :
    l.after (ops ++ [op]) = (l.after ops).step op := by
  rw [after_append]
  rfl

theorem verdict_concat (ops : List Op) (op : Op) :
    verdict (ops ++ [op]) = (verdict ops).or op.ending? := by
  rw [verdict, List.findSome?_append, List.findSome?_singleton]
  rfl

/-! ## One call -/

def outcome (l : Line) : Option SubscriptionError := if l.isClosed then some l.ending else none

/-- A receiver that has been told an error tells it by every call, and stays as it is. -/
theorem asked_of_terminal (h : r.terminal = some e) (l : Line) (c : Call) :
    l.error? r c = some e ∧ l.asked r c = r := by
  cases c with
  | installed => simp [error?, asked, askInstalled, h]
  | error => simp [error?, asked, tryError, h]
  | receive => simp [error?, asked, Line.receive, h]

/-- To be told an error is to remember it, and what is remembered has been told. -/
theorem terminal_asked (l : Line) (r : Receiver) (c : Call) :
    (l.asked r c).terminal = l.error? r c := by
  cases ht : r.terminal with
  | some e =>
    obtain ⟨herror, hsame⟩ := asked_of_terminal ht l c
    rw [herror, hsame, ht]
  | none =>
    cases c with
    | installed =>
      simp only [asked, error?, askInstalled, takeError, tryError, ht]
      cases r.asked <;> cases l.installed <;> cases l.isClosed <;> simp [ht]
    | error =>
      simp only [asked, error?, tryError, ht]
      cases l.isClosed <;> simp [ht]
    | receive =>
      rcases l.buffer.receive_cases r.next with ⟨n, -, he⟩ | ⟨-, he⟩
      · simp [asked, error?, Line.receive, ht, he]
      · cases hc : l.buffer.closed with
        | true => simp [asked, error?, Line.receive, ht, he, takeError, tryError, isClosed, hc]
        | false => simp [asked, error?, Line.receive, ht, he, hc]

/-- A receiver that has been told no error is told the outcome by asking for it. -/
theorem error?_error (h : r.terminal = none) : l.error? r .error = l.outcome := by
  simp only [error?, tryError, h, outcome]
  split <;> rfl

/-- An error that is told is the outcome of the line. -/
theorem Trusts.outcome (h : l.Trusts r) {c : Call} (he : l.error? r c = some e) :
    l.outcome = some e := by
  have hended : l.isClosed = true ∧ e = l.ending := by
    cases c with
    | installed =>
      refine h.askInstalled.2 e ?_
      simp only [error?] at he
      split at he
      · rename_i e' h'
        rw [h', Option.some.inj he]
      · cases he
    | error => exact h.tryError.2 e he
    | receive =>
      refine h.receive.2 e ?_
      simp only [error?] at he
      split at he
      · rename_i e' h'
        rw [h', Option.some.inj he]
      · cases he
  rw [Line.outcome, if_pos hended.1, hended.2]

theorem Trusts.asked (h : l.Trusts r) (c : Call) : l.Trusts (l.asked r c) := by
  cases c with
  | installed => exact h.askInstalled.1
  | error => exact h.tryError.1
  | receive => exact h.receive.1

/-- Who has been told no error receives the first notification that is left, and is told the
outcome where there is none. -/
theorem receive_of_silent (h : r.terminal = none) :
    (l.receive r).1 =
      match l.buffer.held r.next with
      | n :: _ => .notification n
      | [] => l.outcome.elim .pending .failed := by
  have hfst := l.buffer.receive_fst r.next
  simp only [Line.receive, h]
  generalize l.buffer.receive r.next = received at hfst ⊢
  obtain ⟨answer, next⟩ := received
  cases hheld : l.buffer.held r.next with
  | cons n rest =>
    rw [hheld] at hfst
    cases hfst
    rfl
  | nil =>
    rw [hheld] at hfst
    cases hc : l.buffer.closed with
    | true =>
      rw [hc] at hfst
      cases hfst
      simp [takeError, tryError, outcome, isClosed, hc]
    | false =>
      rw [hc] at hfst
      cases hfst
      simp [outcome, isClosed, hc]

/-- Receiving leaves the reader where reading the buffer leaves it. -/
theorem next_of_silent (h : r.terminal = none) :
    (l.receive r).2.next = (l.buffer.receive r.next).2 := by
  simp only [Line.receive, h]
  split <;> rename_i he <;> rw [he]
  simp only [takeError, tryError]
  split <;> rfl

/-! ## One operation -/

/-- To send is to store, where the form is right and somebody listens. -/
theorem perform_send (l : Line) (n : Notification) : l.perform (.send n) =
    if n.kind = l.kind ∧ l.isListening then { l with buffer := l.buffer.push n } else l := by
  simp only [perform, send]
  by_cases hk : n.kind = l.kind
  · by_cases hlisten : l.isListening = true <;> simp [hk, hlisten]
  · simp [hk]

theorem done_of_closed (h : l.isClosed = true) (d : Deed) : l.done d = l := if_pos h

theorem done_of_open (h : l.isClosed = false) (d : Deed) : l.done d = l.perform d :=
  if_neg (Bool.eq_false_iff.mp h)

/-- A deed leaves the client's half alone. -/
theorem done_receiver (l : Line) (d : Deed) : (l.done d).receiver = l.receiver := by
  unfold done
  split
  · rfl
  · cases d with
    | send n =>
      rw [perform_send]
      split <;> rfl
    | _ => rfl

/-- A line that has ended stays so. -/
theorem isClosed_step (h : l.isClosed = true) (op : Op) : (l.step op).isClosed = true := by
  cases op with
  | deed d => rw [step, done_of_closed h]; exact h
  | call c => exact h

/-- What a call gives is the first of what was unread, and the rest stays. -/
theorem given_call (l : Line) (c : Call) :
    l.given (.call c) ++ (l.step (.call c)).unread = l.unread := by
  cases hr : l.receiver with
  | none =>
    have hnothing : l.given (.call c) = [] := by
      cases c <;> simp [given, delivery?, hr]
    rw [hnothing]
    simp [unread, step, hr]
  | some r =>
    have hleft : (l.step (.call c)).unread = l.buffer.held (l.asked r c).next :=
      unread_eq (by simp only [step, hr, Option.map_some])
    rw [unread_eq hr, hleft]
    cases c with
    | installed =>
      obtain ⟨_, _, he, -⟩ := askInstalled_receiver l r
      rw [asked, he]
      rfl
    | error =>
      obtain ⟨_, he, -⟩ := tryError_receiver l r
      rw [asked, he]
      rfl
    | receive =>
      cases ht : r.terminal with
      | some e =>
        have hnothing : l.given (.call .receive) = [] := by
          simp [given, delivery?, hr, Line.receive, ht]
        rw [hnothing, (asked_of_terminal ht l .receive).2]
        rfl
      | none =>
        rw [asked, next_of_silent ht, Channel.held_receive]
        simp only [given, delivery?, hr, Option.map_some, receive_of_silent ht]
        cases l.buffer.held r.next with
        | cons n rest => rfl
        | nil => cases l.outcome <;> rfl

/-- Nothing but sending adds to what is unread, and nothing is sent on a line that has ended. -/
theorem given_append_unread {op : Op} (h : l.isClosed = true ∨ ∀ n, op ≠ .deed (.send n)) :
    l.given op ++ (l.step op).unread = l.unread := by
  cases op with
  | call c => exact given_call l c
  | deed d =>
    cases hc : l.isClosed with
    | true =>
      rw [step, done_of_closed hc]
      rfl
    | false =>
      rw [step, done_of_open hc]
      cases d with
      | send n => exact absurd rfl (h.resolve_left (Bool.eq_false_iff.mp hc) n)
      | _ => rfl

theorem received_append_unread {more : List Op}
    (h : l.isClosed = true ∨ ∀ n, Op.deed (.send n) ∉ more) :
    l.received more ++ (l.after more).unread = l.unread := by
  induction more generalizing l with
  | nil => rfl
  | cons op rest ih =>
    have hrest : (l.step op).isClosed = true ∨ ∀ n, Op.deed (.send n) ∉ rest :=
      h.imp (isClosed_step · op) fun h n hn => h n (List.mem_cons_of_mem _ hn)
    have hop : l.isClosed = true ∨ ∀ n, op ≠ .deed (.send n) :=
      h.imp_right fun h n hn => h n (hn ▸ List.mem_cons_self)
    rw [received, List.append_assoc]
    exact (congrArg _ (ih hrest)).trans (given_append_unread hop)

/-! ## A new line and the operations on it -/

/-- How a line stands with its client after some operations. -/
structure Kept (kind : Kind) (room : Nat) (l : Line) (r : Receiver) (ops : List Op) : Prop where
  receiver : l.receiver = some r
  outcome : l.outcome = verdict ops
  /-- A line that goes on has no reason to end. -/
  reason : l.isClosed = false → l.reason = none
  trusts : l.Trusts r
  kind : l.kind = kind
  capacity : l.buffer.capacity = room
  within : r.next ≤ l.buffer.size

variable {kind : Kind} {room : Nat}

theorem kept_new (kind : Kind) (buffer : Nat) (attached : Bool) :
    Kept kind (ringSize buffer) (new kind buffer attached) { attached } [] where
  receiver := rfl
  outcome := rfl
  reason := fun _ => rfl
  trusts := by
    intro e he
    cases he
  kind := rfl
  capacity := rfl
  within := Nat.le_refl _

namespace Kept

theorem verdict_of_closed (h : Kept kind room l r ops) (hc : l.isClosed = true) :
    verdict ops = some l.ending := by
  rw [← h.outcome, Line.outcome, if_pos hc]

theorem verdict_of_open (h : Kept kind room l r ops) (hc : l.isClosed = false) :
    verdict ops = none := by
  rw [← h.outcome, Line.outcome, if_neg (Bool.eq_false_iff.mp hc)]

/-- On a line that goes on, no error has been told. -/
theorem terminal_of_open (h : Kept kind room l r ops) (hc : l.isClosed = false) :
    r.terminal = none := by
  cases ht : r.terminal with
  | none => rfl
  | some e =>
    rw [(h.trusts e ht).1] at hc
    cases hc

theorem call (h : Kept kind room l r ops) (c : Call) :
    Kept kind room (l.step (.call c)) (l.asked r c) (ops ++ [.call c]) where
  receiver := by simp only [step, h.receiver, Option.map_some]
  outcome := by
    have hgoing : (Op.call c).ending? = none := rfl
    rw [verdict_concat, ← h.outcome, hgoing, Option.or_none]
    rfl
  reason := h.reason
  trusts := h.trusts.asked c
  kind := h.kind
  capacity := h.capacity
  within := by
    cases c with
    | installed =>
      obtain ⟨_, _, he, -⟩ := askInstalled_receiver l r
      rw [asked, he]
      exact h.within
    | error =>
      obtain ⟨_, he, -⟩ := tryError_receiver l r
      rw [asked, he]
      exact h.within
    | receive =>
      have hreads : Channel.Reads (fun _ => True) _ _ _ _ := .start h.within
      exact (hreads.move (l.receive_moves r) fun _ _ _ => trivial).next_le

theorem deed (h : Kept kind room l r ops) (d : Deed) :
    Kept kind room (l.step (.deed d)) r (ops ++ [.deed d]) := by
  cases hc : l.isClosed with
  | true =>
    -- the first deed that ended the line stays the one that did
    have hverdict : verdict (ops ++ [.deed d]) = verdict ops := by
      rw [verdict_concat, h.verdict_of_closed hc, Option.some_or]
    rw [step, done_of_closed hc]
    exact { h with outcome := h.outcome.trans hverdict.symm }
  | false =>
    have hverdict : verdict (ops ++ [.deed d]) = (Op.deed d).ending? := by
      rw [verdict_concat, h.verdict_of_open hc, Option.none_or]
    have htrusts (l' : Line) : l'.Trusts r := by
      intro e he
      rw [h.terminal_of_open hc] at he
      cases he
    have hopen (l' : Line) (hc' : l'.isClosed = false) : l'.outcome = none :=
      if_neg (Bool.eq_false_iff.mp hc')
    rw [step, done_of_open hc]
    cases d with
    | send n =>
      rw [perform_send]
      split
      · exact ⟨h.receiver, (hopen _ hc).trans hverdict.symm, h.reason, htrusts _, h.kind,
          h.capacity, Nat.le_succ_of_le h.within⟩
      · exact { h with outcome := (hopen _ hc).trans hverdict.symm }
    | markInstalled =>
      exact ⟨h.receiver, (hopen _ hc).trans hverdict.symm, h.reason, htrusts _, h.kind, h.capacity,
        h.within⟩
    | close reason =>
      exact ⟨h.receiver, hverdict.symm, nofun, htrusts _, h.kind, h.capacity, h.within⟩
    | abandon =>
      have hending : l.abandon.outcome = some .closed := by
        simp only [Line.outcome, abandon, isClosed, Channel.close, ending, h.reason hc, if_true,
          Option.getD_none]
      exact ⟨h.receiver, hending.trans hverdict.symm, nofun, htrusts _, h.kind, h.capacity,
        h.within⟩

theorem step (h : Kept kind room l r ops) (op : Op) :
    ∃ r', Kept kind room (l.step op) r' (ops ++ [op]) := by
  cases op with
  | deed d => exact ⟨r, h.deed d⟩
  | call c => exact ⟨_, h.call c⟩

end Kept

theorem kept_after (kind : Kind) (buffer : Nat) (attached : Bool) (ops : List Op) :
    ∃ r, Kept kind (ringSize buffer) ((new kind buffer attached).after ops) r ops := by
  induction ops using List.reverseRecOn with
  | nil => exact ⟨_, kept_new kind buffer attached⟩
  | append_singleton ops op ih =>
    obtain ⟨r, h⟩ := ih
    rw [after_concat]
    exact h.step op

/-- What a receiver has been told it remembers, whatever happens. -/
theorem after_of_terminal (hr : l.receiver = some r) (ht : r.terminal = some e) (ops : List Op) :
    (l.after ops).receiver = some r := by
  induction ops using List.reverseRecOn with
  | nil => exact hr
  | append_singleton ops op ih =>
    rw [after_concat]
    cases op with
    | deed d => exact (done_receiver _ d).trans ih
    | call c => simp only [step, ih, Option.map_some, (asked_of_terminal ht _ c).2]

/-- Where no call has told an error, the receiver remembers none. -/
theorem terminal_of_silent {l : Line} (hnew : ∀ r, l.receiver = some r → r.terminal = none)
    (h : l.Silent ops) (hr : (l.after ops).receiver = some r) : r.terminal = none := by
  induction ops using List.reverseRecOn generalizing r with
  | nil => exact hnew r hr
  | append_singleton ops op ih =>
    have hbefore : l.Silent ops := fun earlier c hp =>
      h earlier c (hp.trans (List.prefix_append _ _))
    rw [after_concat] at hr
    cases op with
    | deed d => exact ih hbefore ((done_receiver _ d).symm.trans hr)
    | call c =>
      obtain ⟨r₀, hr₀, rfl⟩ := Option.map_eq_some_iff.mp hr
      rw [terminal_asked, ← told?_eq hr₀]
      exact h ops c List.prefix_rfl

/-- What is unread after sending: one more, of which the newest stay that there is room for. -/
theorem unread_send (h : Kept kind room l r ops) (hc : l.isClosed = false) {n : Notification}
    (hn : n.kind = kind) :
    (l.step (.deed (.send n))).unread = (l.unread ++ [n]).rtake room := by
  have hlisten : l.isListening = true := by simp [isListening, h.receiver]
  rw [step, done_of_open hc, perform_send, if_pos ⟨hn.trans h.kind.symm, hlisten⟩]
  have hpushed : ({ l with buffer := l.buffer.push n } : Line).unread =
      (l.buffer.push n).held r.next := unread_eq h.receiver
  rw [hpushed, unread_eq h.receiver, (Channel.Extends.push l.buffer n).held h.within, h.capacity]

/-! ## The verdict -/

/--
**A receiver's error is final and does not jump the queue.** After any operations on the two halves
of a new line: an error that a call tells is told by every call from then on; it is how the line has
ended, the reason it was closed for or `closed` where it was given up; asking for the error tells
exactly that, and nothing while the line goes on. As long as no error has been told, receiving gives
the first notification that is unread and fails only where none is. What is unread is what was sent,
as far as there is room, less what was received.
-/
theorem verdict_is_final (kind : Kind) (buffer : Nat) (attached : Bool) :
    let l := new kind buffer attached
    (∀ before between c c' e, (l.after before).told? c = some e →
      (l.after (before ++ .call c :: between)).told? c' = some e) ∧
    (∀ ops c e, (l.after ops).told? c = some e → verdict ops = some e) ∧
    (∀ ops, (l.after ops).told? .error = verdict ops) ∧
    (∀ ops, l.Silent ops → (l.after ops).delivery? =
      some (match (l.after ops).unread with
        | n :: _ => .notification n
        | [] => (verdict ops).elim .pending .failed)) ∧
    (∀ ops more, verdict ops ≠ none ∨ (∀ n, .deed (.send n) ∉ more) →
      (l.after ops).received more ++ (l.after (ops ++ more)).unread = (l.after ops).unread) ∧
    ∀ ops n, verdict ops = none → n.kind = kind →
      (l.after (ops ++ [.deed (.send n)])).unread =
        ((l.after ops).unread ++ [n]).rtake (ringSize buffer) := by
  intro l
  have hkept (ops : List Op) : ∃ r, Kept kind (ringSize buffer) (l.after ops) r ops :=
    kept_after kind buffer attached ops
  refine ⟨?final, ?reason, ?asking, ?queue, ?rest, ?sent⟩
  case final =>
    intro before between c c' e he
    obtain ⟨r, h⟩ := hkept before
    rw [told?_eq h.receiver] at he
    have hremembered : ((l.after before).asked r c).terminal = some e :=
      (terminal_asked _ r c).trans he
    have hlater := after_of_terminal (h.call c).receiver hremembered between
    rw [after_append]
    exact (told?_eq hlater c').trans (asked_of_terminal hremembered _ c').1
  case reason =>
    intro ops c e he
    obtain ⟨r, h⟩ := hkept ops
    rw [told?_eq h.receiver] at he
    exact h.outcome.symm.trans (h.trusts.outcome he)
  case asking =>
    intro ops
    obtain ⟨r, h⟩ := hkept ops
    rw [told?_eq h.receiver, ← h.outcome]
    cases ht : r.terminal with
    | none => exact error?_error ht
    | some e =>
      have he := (asked_of_terminal ht (l.after ops) .error).1
      rw [he, h.trusts.outcome he]
  case queue =>
    intro ops hsilent
    obtain ⟨r, h⟩ := hkept ops
    have ht : r.terminal = none := by
      refine terminal_of_silent (fun r₀ hr₀ => ?_) hsilent h.receiver
      cases hr₀
      rfl
    rw [delivery?, h.receiver, Option.map_some, receive_of_silent ht, unread_eq h.receiver,
      h.outcome]
  case rest =>
    intro ops more hmore
    obtain ⟨r, h⟩ := hkept ops
    rw [after_append]
    refine received_append_unread (hmore.imp_left fun hended => ?_)
    cases hc : (l.after ops).isClosed with
    | true => rfl
    | false => exact absurd (h.verdict_of_open hc) hended
  case sent =>
    intro ops n hgoing hn
    obtain ⟨r, h⟩ := hkept ops
    have hc : (l.after ops).isClosed = false := by
      cases hc : (l.after ops).isClosed with
      | false => rfl
      | true =>
        rw [h.verdict_of_closed hc] at hgoing
        cases hgoing
    rw [after_concat]
    exact unread_send h hc hn

/-- One notification is sent, and the line is closed. Who receives first gets the notification; who
asks for the installation first is told the error, and by receiving then too. -/
theorem verdict_is_final_closed :
    let l := new .pendingTransactions 2 false
    let n : Notification := .hashes []
    let ops : List Op := [.deed (.send n), .deed (.close .unsubscribed)]
    (l.after ops).told? .installed = some .unsubscribed ∧
      (l.after (ops ++ .call .installed :: [.deed .abandon])).told? .receive =
        some .unsubscribed ∧
      verdict ops = some .unsubscribed ∧ (l.after ops).told? .error = verdict ops ∧
      l.Silent ops ∧ (l.after ops).delivery? = some (.notification n) ∧
      (l.after ops).received [.call .receive] ++
        (l.after (ops ++ [.call .receive])).unread = [n] ∧
      (l.after [.deed (.send n)]).unread = [n] := by
  intro l n ops
  obtain ⟨hfinal, hreason, hasking, hqueue, hrest, hsent⟩ :=
    verdict_is_final .pendingTransactions 2 false
  have htold : (l.after ops).told? .installed = some .unsubscribed := by decide
  have hsilent : l.Silent ops := by
    intro earlier c hp
    have hcall : Op.call c ∈ ops := hp.subset (List.mem_append_right _ List.mem_cons_self)
    simp [ops] at hcall
  exact ⟨htold, hfinal ops _ _ _ _ htold, hreason ops _ _ htold, hasking ops, hsilent,
    hqueue ops hsilent, hrest ops _ (.inl (by decide)), hsent [] n rfl rfl⟩

end Line

end EventFanout
