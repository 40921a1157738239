/-
EventFanout.Proofs.Delivery.EndToEnd — events from their publishers to the clients.

An event passes two channels on its way, that of its topic and the line of a
subscription, and either may overwrite what is read too late. Nothing else is lost, and
nothing is repeated, reordered or delivered to the wrong client: the hub's reads are an
account of the topic's channel (`Dispatched`), the line carries what the dispatched
events come to, and the client's reads are an account of the line (`Delivered`). So a
client for which nothing was overwritten receives what was published, in order and
without gaps (`Received`).

Main statement: `delivery`, over every run of a new hub on a new bus.
-/
import EventFanout.Proofs.Delivery.Client
import Mathlib.Data.List.Infix

namespace EventFanout.World

variable {w w₁ : World} {s : Subscription} {h : Handle}

/-! ## What is delivered -/

def backlog (w : World) (h : Handle) : List Event :=
  match w.bus.position? h with
  | some (ch, next) => ch.log.sent.drop next
  | none => []

/-- How the line `l` of a subscription stands after a run that began when the subscription was
made; its client is at `next`, or was there last. -/
structure Delivered (w : World) (s : Subscription) (run : List Action) (l : Line) (next : Nat) :
    Prop where
  line : (w.after run).lines.get? s.id = some l
  /-- What has been put on the line is what the events heard come to, one after the other. -/
  sent : l.buffer.sent = (along (heard s) w run).filterMap s.notice?
  /-- The client receives it in order, each notification once; what it has left behind had been
  overwritten, at some moment of the run, before it got there. -/
  reads : Channel.Reads (fun i => ∃ earlier, earlier <+: run ∧ (w.after earlier).Missed s.id i)
    l.buffer 0 next (along (received s.id) w run)
  /-- A client that has been told no error, and receives no more, has received what it did not
  miss. -/
  caughtUp : ∀ r, l.receiver = some r → r.terminal = none →
    (∀ n, (l.receive r).1 ≠ .notification n) → ∀ i n, l.buffer.sent[i]? = some n →
      (i, n) ∈ along (received s.id) w run ∨
        ∃ earlier, earlier <+: run ∧ (w.after earlier).Missed s.id i

/-- What the hub has read of the channel `ch` of a registration after a run that began at position
`first` of the channel; it goes on at `next`, or was there last. -/
structure Dispatched (w : World) (h : Handle) (run : List Action) (ch : TopicChannel)
    (first next : Nat) : Prop where
  channel : (w.after run).bus.channels[h.channel]? = some ch
  sent : ch.log.sent.drop first = w.backlog h ++ along (published h.channel) w run
  /-- The hub dispatches it in order, each event once; what it has left behind had been overwritten,
  at some moment of the run, before it was read. -/
  reads : Channel.Reads (fun i => ∃ earlier, earlier <+: run ∧ (w.after earlier).Overrun h i)
    ch.log first next (along (dispatched h) w run)

/-- Nothing is in the way of a subscription and its client, who listens: neither the hub, which
reads the topic through `h`, nor the client has been overrun. -/
structure Untroubled (w : World) (s : Subscription) (h : Handle) : Prop where
  installed : s ∈ w.hub.index.values
  listening : w.listens s.id = true
  kept : ∀ i, ¬ w.Overrun h i
  heeded : ∀ i, ¬ w.Missed s.id i

/-- What a client receives in a run, where nothing is in the way. -/
structure Received (w : World) (s : Subscription) (h : Handle) (run : List Action) : Prop where
  /-- It receives what the events come to that the hub had yet to read and those published since. -/
  inOrder : (along (received s.id) w run).map (·.2) <+:
    (w.backlog h ++ along (published h.channel) w run).filterMap s.notice?
  /-- It has received all of it when nobody has anything left to read. -/
  all : (∀ e, (w.after run).item? s.topic ≠ some (.entry e)) →
    (∀ n w', (w.after run).receive s.id ≠ some (.notification n, w')) →
    (along (received s.id) w run).map (·.2) =
      (w.backlog h ++ along (published h.channel) w run).filterMap s.notice?

/-! ## Worlds in order -/

structure Orderly (w : World) : Prop where
  sound : w.hub.Sound
  roster : w.Roster
  fits : w.AllFit
  fed : w.Fed

theorem Orderly.act (h : w.Orderly) (a : Action) : (w.act a).Orderly where
  sound := (act_evolves w a).sound h.sound
  roster := act_roster h.roster a
  fits := act_allFit h.roster h.fits a
  fed := act_fed h.fed h.sound.consistent a

theorem Orderly.after (h : w.Orderly) (run : List Action) : (w.after run).Orderly where
  sound := after_sound h.sound run
  roster := after_roster h.roster run
  fits := after_allFit h.roster h.fits run
  fed := after_fed h.fed h.sound run

theorem start_orderly (capacity : Nat) (config : Config) (governor : Governor) :
    (start (Bus.sized capacity) config governor).Orderly where
  sound := start_sound _ config governor
  roster := start_roster _ config governor
  fits := start_allFit _ config governor
  fed := start_fed capacity config governor

/-! ## The line of a subscription -/

/-- A client that has been told no error, and receives no more, has nothing left to read that is
still held. -/
theorem Statement.caughtUp {l₁ l : Line} {first next : Nat} {run : List Action} {p : Place}
    (hst : Statement w s l₁ first run p l next) {r : Receiver} (hr : l.receiver = some r)
    (ht : r.terminal = none) (hn : ∀ n, (l.receive r).1 ≠ .notification n) {i : Nat}
    {n : Notification} (hi : l.buffer.sent[i]? = some n) (hle : first ≤ i) :
    (i, n) ∈ along (received s.id) w run ∨
      ∃ earlier, earlier <+: run ∧ (w.after earlier).Missed s.id i := by
  have hsize := Line.le_of_receive ht hn
  rw [hst.reader r hr] at hsize
  obtain ⟨hlt, -⟩ := List.getElem?_eq_some_iff.mp hi
  rw [Channel.length_sent] at hlt
  by_cases hnext : i < next
  · by_cases hm : i ∈ (along (received s.id) w run).map (·.1)
    · obtain ⟨⟨j, m⟩, hjm, rfl⟩ := List.mem_map.mp hm
      obtain ⟨-, -, hj⟩ := hst.reads.sent j m hjm
      rw [hi] at hj
      cases hj
      exact .inl hjm
    · exact .inr (hst.reads.lost i hle hnext hm)
  · refine .inr ⟨run, List.prefix_refl _, l, r, receiver?_eq_some.mpr ⟨hst.line, hr⟩, ?_, ?_⟩
    · rw [hst.reader r hr]
      omega
    · omega

theorem delivered_of_held (hw : w.Orderly) (hs : s ∈ w.held.values) (run : List Action) :
    ∃ l next, Delivered w s run l next := by
  obtain ⟨l₁, hl₁, hf₁⟩ := hw.fits s .held (by simp) hs
  obtain ⟨-, hempty, hfirst⟩ := hf₁.waiting (.inl rfl)
  obtain ⟨p, l, next, hst⟩ :=
    after_statement (p := .held) hw.roster hw.fed hw.sound hs hl₁ hf₁ hfirst (Nat.zero_le _) run
  refine ⟨l, next, hst.line, ?_, hst.reads, ?_⟩
  · rw [hst.sent, hempty, List.nil_append]
  · intro r hr ht hn i n hi
    exact hst.caughtUp hr ht hn hi (Nat.zero_le _)

/-! ## The channel of a registration -/

/-- A handle that the hub has just got has everything before it. -/
theorem attached_position (hw : w.Orderly) {t : Topic} (hnone : w.hub.feeds.get? t = none)
    (ht : (w.act (.turn .install)).hub.feeds.get? t = some h) :
    ∃ ch, (w.act (.turn .install)).bus.position? h = some (ch, ch.log.size) := by
  by_cases hr : w.hub.running = true
  · have he : w.act (.turn .install) = w.perform .install := by simp only [World.act, if_pos hr]
    rw [he] at ht ⊢
    rcases install_feeds hw.sound.consistent with ⟨-, hx⟩ | ⟨t₀, hd, bus, -, hsub, hb, hx⟩
    · rw [hx, hnone] at ht
      cases ht
    · rw [hx, Table.get?_set] at ht
      split at ht
      · cases ht
        obtain ⟨-, -, -, -, ch, hch, -, hreader⟩ := Bus.subscribe_reader hw.fed.wired hsub
        rw [hb]
        exact ⟨ch, Bus.position?_eq_some.mpr ⟨hch, hreader⟩⟩
      · rw [hnone] at ht
        cases ht
  · have he : w.act (.turn .install) = w := by simp only [World.act, if_neg hr]
    rw [he, hnone] at ht
    cases ht

theorem dispatched_of_feed (hw : w.Orderly) {t : Topic} (ht : w.hub.feeds.get? t = some h)
    (run : List Action) :
    ∃ ch first next, Dispatched w h run ch first next ∧ (w.after run).Tracked h ch next := by
  obtain ⟨ch₁, first, hpos, hle⟩ := (hw.fed.serves t h ht).position
  obtain ⟨ch, next, hacc⟩ := after_account hw.fed hw.sound ht hpos run
  refine ⟨ch, first, next, ⟨hacc.tracked.channel, ?_, hacc.reads⟩, hacc.tracked⟩
  rw [hacc.sent, List.drop_append_of_le_length, backlog, hpos]
  rw [Channel.length_sent]
  exact hle

/-! ## From end to end -/

variable {run : List Action}

/-- The line of a subscription that has just been installed carries what it hears from then on. -/
theorem installed_statement (hw : w.Orderly) (hq : s ∈ w.hub.installs)
    (hx : s ∈ (w.act (.turn .install)).hub.index.values) (run : List Action) :
    ∃ p l₁ l next, Statement (w.act (.turn .install)) s l₁ 0 run p l next ∧
      l.buffer.sent = (along (heard s) (w.act (.turn .install)) run).filterMap s.notice? := by
  obtain ⟨l₀, hl₀, hf₀⟩ := hw.fits s .queued (by simp) hq
  obtain ⟨-, hempty, hfirst⟩ := hf₀.waiting (.inr rfl)
  obtain ⟨hp, hl, hf⟩ := act_fits (p := .queued) hw.roster hq hl₀ hf₀ (.turn .install)
  have hord := hw.act (.turn .install)
  have hplace : (w.change s (.turn .install)).place .queued = .indexed :=
    hord.roster.place_unique (q := .indexed) hp hx
  have hc : w.change s (.turn .install) = .installed := by
    cases hc : w.change s (.turn .install) with
    | installed => rfl
    | _ =>
      rw [hc] at hplace
      cases hplace
  rw [hc] at hp hl hf
  obtain ⟨p, l, next, hst⟩ :=
    after_statement hord.roster hord.fed hord.sound hp hl hf hfirst (Nat.zero_le _) run
  have hnew : (((Change.installed).line s l₀).called s.id (.turn .install)).buffer.sent = [] :=
    hempty
  refine ⟨p, _, l, next, hst, ?_⟩
  rw [hst.sent, hnew, List.nil_append]

/-- The hub reads the topic of a subscription through one handle while the subscription is
installed. -/
theorem feed_kept (hw : w.Orderly) (ht : w.hub.feeds.get? s.topic = some h)
    (hx : ∀ earlier, earlier <+: run → s ∈ (w.after earlier).hub.index.values) :
    ∀ earlier, earlier <+: run → (w.after earlier).hub.feeds.get? s.topic = some h := by
  intro earlier
  induction earlier using List.reverseRecOn with
  | nil => exact fun _ => ht
  | append_singleton earlier a ih =>
    intro hpre
    have hbefore := ih ((List.prefix_append earlier [a]).trans hpre)
    have hord := hw.after earlier
    have hlast := hx _ hpre
    rw [after_concat] at hlast ⊢
    exact act_feed hord.fed hord.sound a hbefore hlast

/-- A subscription that stays installed, and whose client listens, hears what the hub dispatches. -/
theorem heard_eq_dispatched (hw : w.Orderly) (ht : w.hub.feeds.get? s.topic = some h)
    (hrun : ∀ earlier, earlier <+: run → (w.after earlier).Untroubled s h) :
    along (heard s) w run = (along (dispatched h) w run).map (·.2) := by
  rw [← along_map]
  refine along_congr fun earlier a hpre => ?_
  have hpre' := (List.prefix_append earlier [a]).trans hpre
  have hu := hrun earlier hpre'
  have hfeed := feed_kept hw ht (fun e he => (hrun e he).installed) earlier hpre'
  rw [heard, if_pos ⟨hu.installed, hu.listening⟩, hfeed, Option.bind_some]

/-- A hub that has no event to read, and has not been overrun, has read all there is. -/
theorem Tracked.size_le {ch : TopicChannel} {next : Nat} (ht : w.Tracked h ch next)
    (hx : w.hub.feeds.get? h.topic = some h) (hkept : ∀ i, ¬ w.Overrun h i)
    (hi : ∀ e, w.item? h.topic ≠ some (.entry e)) : ch.log.size ≤ next := by
  have hpos := ht.position hx
  refine Channel.size_le_of_read? ?_ fun e next' hread => hi e ?_
  · by_contra hlt
    exact hkept next ⟨ch, next, hpos, Nat.le_refl _, Nat.lt_of_not_le hlt⟩
  · simp [item?, hx, Bus.read?, hpos, hread]

/-- A client that receives no more, and has not been overrun, has received all there is. -/
theorem Statement.size_le {l₁ l : Line} {first next : Nat} {p : Place}
    (hst : Statement w s l₁ first run p l next) (hp : p ≠ .gone)
    (hlisten : (w.after run).listens s.id = true) (hheeded : ∀ i, ¬ (w.after run).Missed s.id i)
    (hn : ∀ n w', (w.after run).receive s.id ≠ some (.notification n, w')) :
    l.buffer.size ≤ next := by
  obtain ⟨⟨l', r⟩, hrecv⟩ := Option.isSome_iff_exists.mp hlisten
  obtain ⟨hl, hr⟩ := receiver?_eq_some.mp hrecv
  rw [hst.line] at hl
  cases hl
  have hterminal : r.terminal = none := by
    cases ht : r.terminal with
    | none => rfl
    | some e =>
      have hclosed := (hst.fits.honest r hr e ht).1
      rw [(hst.fits.unclosed hp).1] at hclosed
      cases hclosed
  have hsize : l.buffer.size ≤ max r.next l.buffer.oldest := by
    refine Line.le_of_receive hterminal fun n he => ?_
    refine hn n ((w.after run).setReceiver s.id (l.receive r).2) ?_
    simp [receive, hrecv, ← he]
  have hold : ¬ r.next < l.buffer.oldest :=
    fun hlt => hheeded r.next ⟨l, r, hrecv, Nat.le_refl _, hlt⟩
  rw [← hst.reader r hr]
  omega

/-- The two accounts together: neither of the channels that an event passes has lost any entry. -/
theorem received_of_untroubled (hw : w.Orderly) (hq : s ∈ w.hub.installs)
    (ht : (w.act (.turn .install)).hub.feeds.get? s.topic = some h)
    (hrun : ∀ earlier, earlier <+: run →
      ((w.act (.turn .install)).after earlier).Untroubled s h) :
    Received (w.act (.turn .install)) s h run := by
  have hord := hw.act (.turn .install)
  generalize hw₁ : w.act (.turn .install) = w₁ at ht hrun hord
  have hend := hrun run (List.prefix_refl _)
  obtain ⟨p, l₁, l, nextₗ, hst, hsent⟩ :=
    installed_statement hw hq (hw₁ ▸ (hrun [] List.nil_prefix).installed) run
  rw [hw₁] at hst hsent
  obtain ⟨ch, first, next, hdis, htrack⟩ := dispatched_of_feed hord ht run
  have hlost : ∀ i, ¬ ∃ earlier, earlier <+: run ∧ (w₁.after earlier).Overrun h i := by
    rintro i ⟨earlier, hpre, ho⟩
    exact (hrun earlier hpre).kept i ho
  have hmissed : ∀ i, ¬ ∃ earlier, earlier <+: run ∧ (w₁.after earlier).Missed s.id i := by
    rintro i ⟨earlier, hpre, hm⟩
    exact (hrun earlier hpre).heeded i hm
  -- both queues in turn: the line has what was dispatched, and the client takes it from there
  have hline : l.buffer.sent = ((w₁.backlog h ++ along (published h.channel) w₁ run).take
      (next - first)).filterMap s.notice? := by
    rw [hsent, heard_eq_dispatched hord ht hrun, hdis.reads.eq_take hlost, hdis.sent]
  have hclient : (along (received s.id) w₁ run).map (·.2) = l.buffer.sent.take nextₗ :=
    hst.reads.eq_take hmissed
  constructor
  · rw [hclient, hline]
    exact (List.take_prefix _ _).trans ((List.take_prefix _ _).filterMap s.notice?)
  · intro hitem hnothing
    have hplace : p ≠ .gone := by
      rintro rfl
      have hx := (hord.after run).roster.place_unique (q := .indexed) hst.place hend.installed
      cases hx
    have hfeed := feed_kept hord ht (fun e he => (hrun e he).installed) run (List.prefix_refl _)
    have htopic := ((hord.after run).fed.serves _ h hfeed).topic
    rw [← htopic] at hfeed hitem
    have hhub := htrack.size_le hfeed hend.kept hitem
    have hcl := hst.size_le hplace hend.listening hend.heeded hnothing
    rw [hclient, List.take_of_length_le (by rwa [Channel.length_sent]), hline,
      List.take_of_length_le]
    rw [← hdis.sent, List.length_drop, Channel.length_sent]
    omega

/--
**Delivery from end to end.** In every run of a new hub on a new bus: what is put on the line of a
subscription is what the events come to that the hub dispatches on its topic while it is installed
and its client listens, and the client receives it but for what was overwritten before it got
there; what the hub dispatches during a registration is what was published on the channel since,
but for what was overwritten before it was read; and where nothing is overwritten, the client
receives it all.
-/
theorem delivery (capacity : Nat) (config : Config) (governor : Governor)
    (before run : List Action) :
    let w := (start (Bus.sized capacity) config governor).after before
    let w₁ := w.act (.turn .install)
    (∀ s, s ∈ w.held.values → ∃ l next, Delivered w s run l next) ∧
    (∀ t h, w.hub.feeds.get? t = none → w₁.hub.feeds.get? t = some h →
      w₁.backlog h = [] ∧ ∃ ch first next, Dispatched w₁ h run ch first next) ∧
    (∀ s h, s ∈ w.hub.installs → w₁.hub.feeds.get? s.topic = some h →
      (∀ earlier, earlier <+: run → (w₁.after earlier).Untroubled s h) →
      Received w₁ s h run) := by
  intro w w₁
  have hw : w.Orderly := (start_orderly capacity config governor).after before
  refine ⟨fun s hs => delivered_of_held hw hs run, ?_, ?_⟩
  · intro t h hnone ht
    obtain ⟨ch₁, hpos⟩ := attached_position hw hnone ht
    obtain ⟨ch, first, next, hdis, -⟩ := dispatched_of_feed (hw.act _) ht run
    refine ⟨?_, ch, first, next, hdis⟩
    rw [backlog, hpos]
    exact List.drop_of_length_le (Nat.le_of_eq (Channel.length_sent _))
  · intro s h hq ht hrun
    exact received_of_untroubled hw hq ht hrun

/-- A client receives the transaction that was published after its subscription was installed. -/
theorem delivery_relayed :
    let s : Subscription := ⟨.issued 0, .pendingTransactions, transactionTopic, none⟩
    let e : Event := ⟨transactionTopic, .transaction {}⟩
    let w := (start (Bus.sized 4) {} .absent).after
      [.makeWithin .pendingTransactions none, .submit s.id]
    let run : List Action := [.publish e, .turn (.read transactionTopic), .receive s.id]
    (along (received s.id) (w.act (.turn .install)) run).map (·.2) =
      [.hashes [.zero]] := by
  intro s e w run
  let h : Handle := ⟨transactionTopic, 1, 0, 0⟩
  have hheld : ∀ earlier ∈ run.inits,
      ((w.act (.turn .install)).after earlier).hub.index.values = [s] ∧
      (((w.act (.turn .install)).after earlier).bus.position? h).map (·.1.log.oldest) = some 0 ∧
      (((w.act (.turn .install)).after earlier).receiver? s.id).map (·.1.buffer.oldest) =
        some 0 := by
    decide
  have hrun : ∀ earlier, earlier <+: run →
      ((w.act (.turn .install)).after earlier).Untroubled s h := by
    intro earlier hpre
    obtain ⟨hx, hhub, hclient⟩ := hheld earlier ((List.mem_inits _ _).mpr hpre)
    refine ⟨?_, ?_, ?_, ?_⟩
    · rw [hx]
      exact List.mem_singleton_self s
    · cases hr : ((w.act (.turn .install)).after earlier).receiver? s.id with
      | none => simp [hr] at hclient
      | some pair => simp [listens, hr]
    · rintro i ⟨ch, next, hpos, -, hlt⟩
      simp [hpos] at hhub
      omega
    · rintro i ⟨l, r, hrecv, -, hlt⟩
      simp [hrecv] at hclient
      omega
  obtain ⟨-, -, hreceived⟩ := delivery 4 {} .absent
    [.makeWithin .pendingTransactions none, .submit s.id] run
  have hall := (hreceived s h (by decide) (by decide) hrun).all
  have hread : (((w.act (.turn .install)).after run).item? s.topic).isNone = true := by decide
  have hrest : (((w.act (.turn .install)).after run).receive s.id).map (·.1) = some .pending := by
    decide
  refine (hall ?_ ?_).trans rfl
  · intro e he
    rw [show ((w.act (.turn .install)).after run).item? s.topic = _ from he] at hread
    cases hread
  · intro n w' he
    rw [show ((w.act (.turn .install)).after run).receive s.id = _ from he] at hrest
    cases hrest

end EventFanout.World
