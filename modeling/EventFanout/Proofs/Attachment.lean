/-
EventFanout.Proofs.Attachment — what an installation attaches a subscription to.

A hub registers on a topic once, for the first subscription there; those that follow are
filed under the registration on record. That registration is current as long as nobody else
unsubscribes the topic or closes the bus. When somebody does, the hub learns of it only by
reading the end of the channel, and it installs before it reads: a subscription that is
installed meanwhile is told that it is, but its topic has ended and no event published from
then on can reach it (`installation_attaches_ended`).

Main statement: `installation_attaches`. A subscription that is told it is installed is on
the registration that the bus holds, and what is published next lies ahead of the hub's
reader; or else others had ended the channel since the hub registered.
-/
import EventFanout.Proofs.Bus.Register
import EventFanout.Proofs.Delivery.EndToEnd
import EventFanout.Proofs.Hub.Endings
import EventFanout.Proofs.Order

namespace EventFanout

namespace World

variable {w w' : World} {t : Topic} {h : Handle} {run : List Action}

/-! ## Registrations on record -/

/-- The hub knows its topics by the registrations of the channels that it reads. -/
structure Numbered (w : World) : Prop where
  roomy : w.bus.Roomy
  current : ∀ t r h ch, w.hub.topics.get? t = some r → w.hub.feeds.get? t = some h →
    w.bus.channels[h.channel]? = some ch → ch.registration = r.number

/-- It stays so where registrations and feeds are kept or given up, whatever ends on the bus. -/
theorem Numbered.leaves (hn : w.Numbered) (hf : w.Fed) {ended : Topic → Prop}
    (hl : w.bus.Leaves w'.bus ended)
    (hkept : ∀ t r', w'.hub.topics.get? t = some r' →
      ∃ r, w.hub.topics.get? t = some r ∧ r'.number = r.number)
    (hfeeds : ∀ t h, w'.hub.feeds.get? t = some h → w.hub.feeds.get? t = some h) :
    w'.Numbered where
  roomy := hl.roomy hn.roomy
  current := by
    intro t r' h ch' hr' hh' hch'
    obtain ⟨r, hr, hnumber⟩ := hkept t r' hr'
    have hh := hfeeds t h hh'
    obtain ⟨ch, -, hch, -⟩ := (hf.serves t h hh).channel
    obtain ⟨ch₁, hch₁, -, hreg, -⟩ := hl.channel _ ch hch
    rw [hch'] at hch₁
    cases hch₁
    rw [hreg, hnumber]
    exact hn.current t r h ch hr hh hch

/-- Only installing brings feeds. -/
theorem perform_feeds (hf : w.Fed) {turn : Turn} (hne : turn ≠ .install) :
    (w.perform turn).hub.feeds.get? t = w.hub.feeds.get? t ∨
      (w.perform turn).hub.feeds.get? t = none := by
  cases turn with
  | stop => exact (shutdown_quits hf).feeds t
  | install => exact absurd rfl hne
  | remove => exact (remove_quits hf).feeds t
  | read topic =>
    rcases read_feeds hf topic with
      ⟨_, he⟩ | ⟨h₀, ch, next, next', item, ht₀, hch, _, hle, hread, he⟩
    · rw [he]
      exact .inl rfl
    · rw [he]
      exact (dispatch_quits hf ht₀ hch hle hread).feeds t

theorem perform_spares (hf : w.Fed) (hs : w.hub.Consistent) {turn : Turn} (hne : turn ≠ .install) :
    Spares w (w.perform turn) := by
  cases turn with
  | stop => exact shutdown_spares hf.wired
  | install => exact absurd rfl hne
  | remove => exact remove_spares hf.wired
  | read topic => exact (read_spares hf hs topic).1

/-- A topic that is registered is filed under the number of the channel that the bus has granted. -/
theorem install_numbered (hn : w.Numbered) (hf : w.Fed) : (w.perform .install).Numbered := by
  have hsame : ∀ {w' : World}, w'.bus = w.bus → w'.hub.topics = w.hub.topics →
      w'.hub.feeds = w.hub.feeds → w'.Numbered := by
    intro w' hb ht hx
    constructor
    · rw [hb]
      exact hn.roomy
    · rw [hb, ht, hx]
      exact hn.current
  cases hq : w.hub.installs with
  | nil =>
    have hw : w.perform .install = w := by simp only [perform, hq]
    rw [hw]
    exact hn
  | cons s rest =>
    have hp : w.perform .install = { w with hub.installs := rest }.install s := by
      simp only [perform, hq]
    rw [hp]
    rcases install_cases { w with hub.installs := rest } s with
      ⟨_, _, he⟩ | ⟨_, he⟩ | ⟨e, _, _, _, he⟩ | ⟨w', _, hreg, he⟩ <;> rw [he]
    · exact hsame rfl rfl rfl
    · exact hsame rfl rfl rfl
    · exact hsame rfl rfl rfl
    · rcases register_cases hreg with ⟨_, rfl⟩ | ⟨_, hd, bus, hsub, rfl⟩
      · have hl : w.bus.Leaves w.bus fun _ => False := .refl _
        refine hn.leaves hf hl ?_ fun t h ht => ht
        intro t r' hr'
        rw [file_hub, Table.get?_update] at hr'
        split at hr'
        · obtain ⟨r, hr, rfl⟩ := Option.map_eq_some_iff.mp hr'
          rename_i he
          exact ⟨r, he ▸ hr, rfl⟩
        · exact ⟨r', hr', rfl⟩
      · have hsub' : w.bus.subscribe s.topic = (.ok hd, bus) := hsub
        have hl : w.bus.Leaves bus fun _ => False := by
          have hl : w.bus.Leaves (w.bus.subscribe s.topic).2 fun _ => False :=
            Bus.subscribe_leaves w.bus s.topic
          rwa [hsub'] at hl
        refine ⟨hl.roomy hn.roomy, ?_⟩
        intro t r' h ch' hr' hh' hch'
        simp only [file_hub, registered_hub, Table.get?_update, Table.get?_set] at hr' hh'
        by_cases he : s.topic = t
        · rw [if_pos he, if_pos he] at hr'
          rw [if_pos he] at hh'
          cases hr'
          cases hh'
          exact Bus.subscribe_registration hsub' hch'
        · rw [if_neg he, if_neg he] at hr'
          rw [if_neg he] at hh'
          obtain ⟨ch, -, hch, -⟩ := (hf.serves t h hh').channel
          obtain ⟨ch₁, hch₁, -, hsame', -⟩ := hl.channel _ ch hch
          rw [show bus.channels[h.channel]? = some ch' from hch'] at hch₁
          cases hch₁
          rw [hsame']
          exact hn.current t r' h ch hr' hh' hch

theorem act_numbered (hn : w.Numbered) (hf : w.Fed) (hs : w.hub.Sound) (a : Action) :
    (w.act a).Numbered := by
  by_cases ha : ∃ turn, a = .turn turn
  · obtain ⟨turn, rfl⟩ := ha
    simp only [act]
    split
    · by_cases hne : turn = .install
      · subst hne
        exact install_numbered hn hf
      · have hspares := perform_spares hf hs.consistent hne
        refine hn.leaves hf hspares.leaves hspares.kept fun t h ht => ?_
        rcases perform_feeds hf hne with he | he
        · rw [← he, ht]
        · rw [he] at ht
          cases ht
    · exact hn
  · have hloop := act_sameLoop w fun turn he => ha ⟨turn, he⟩
    refine hn.leaves hf (act_leaves hf hs a) ?_ ?_
    · rw [hloop.topics]
      exact fun t r hr => ⟨r, hr, rfl⟩
    · rw [hloop.feeds]
      exact fun t h ht => ht

theorem after_numbered (hw : w.Orderly) (hn : w.Numbered) (run : List Action) :
    (w.after run).Numbered := by
  induction run generalizing w with
  | nil => exact hn
  | cons a rest ih => exact ih (hw.act a) (act_numbered hn hw.fed hw.sound a)

theorem start_numbered (capacity : Nat) (config : Config) (governor : Governor) :
    (start (Bus.sized capacity) config governor).Numbered where
  roomy := by simp [start, Bus.sized, Bus.Roomy]
  current := by simp [start]

/-! ## Attached or cut off -/

/-- The hub is attached to a topic. -/
structure Attached (w : World) (t : Topic) : Prop where
  /-- What it has on record is the registration that the bus holds. -/
  current : ∃ r, w.hub.topics.get? t = some r ∧ w.bus.registration? t = some r.number
  /-- An event that is published next is there for the hub to read, not before the place where it
  goes on reading. -/
  reached : ∀ e : Event, e.topic = t → ∃ h ch next i, w.hub.feeds.get? t = some h ∧
    (w.act (.publish e)).bus.position? h = some (ch, next) ∧
    next ≤ i ∧ ch.log.oldest ≤ i ∧ ch.log.sent[i]? = some e

/-- The hub reads a topic through a handle whose channel others have ended, in the course of the run
and after the hub had got the handle. -/
def CutOff (w : World) (run : List Action) (t : Topic) : Prop :=
  ∃ h, (w.after run).hub.feeds.get? t = some h ∧ (w.after run).bus.hasEnded h = true ∧
    ∃ earlier a, earlier ++ [a] <+: run ∧ (w.after earlier).hub.feeds.get? t = some h ∧
      (w.after earlier).bus.hasEnded h = false ∧ (a = .busUnsubscribe t ∨ a = .busClose)

/-- A hub whose feed is on the channel that the topic is routed to is attached to the topic. -/
theorem attached_of_routed (hn : w.Numbered) (hf : w.Fed) {r : Registration}
    (hr : w.hub.topics.get? t = some r) (hh : w.hub.feeds.get? t = some h)
    (hroute : w.bus.routes.get? t = some h.channel) : w.Attached t where
  current := by
    obtain ⟨ch, -, hch, -⟩ := (hf.serves t h hh).channel
    refine ⟨r, hr, ?_⟩
    simp only [Bus.registration?, Bus.channel?, hroute, bind, Option.bind, hch, Option.map_some,
      hn.current t r h ch hr hh hch]
  reached := by
    rintro e rfl
    have hserves := hf.serves e.topic h hh
    obtain ⟨ch, next, hch, -, hnext, hle, -⟩ := hserves.channel
    have hkept : w.bus.kept e h.channel = [e] := by
      rw [kept_eq_published hf (.inl ⟨_, h, hh, rfl⟩), published, if_pos hroute]
      rfl
    obtain ⟨ch', hch', -, hlog, hsame⟩ := (Bus.publish_goes hf.wired e).channel _ ch hch
    have hreader := (hsame h.reader hserves.known id).trans hnext
    rw [hkept] at hlog
    have hroom : 0 < ch'.log.capacity := hlog.capacity ▸ hn.roomy _ ch hch
    refine ⟨h, ch', next, ch.log.size, hh, Bus.position?_eq_some.mpr ⟨hch', hreader⟩, hle, ?_, ?_⟩
    · rw [Channel.oldest, hlog.size, List.length_singleton]
      omega
    · rw [hlog.sent, ← Channel.length_sent]
      exact List.getElem?_concat_length

/-- A feed that is there after an action was there before, or is on the channel its topic is
routed to. -/
theorem act_feed_new (hf : w.Fed) (hs : w.hub.Consistent) {a : Action}
    (hh : (w.act a).hub.feeds.get? t = some h) :
    w.hub.feeds.get? t = some h ∨ (w.act a).bus.routes.get? t = some h.channel := by
  by_cases ha : ∃ turn, a = .turn turn
  · obtain ⟨turn, rfl⟩ := ha
    simp only [act] at hh ⊢
    split at hh
    · rename_i hr
      rw [if_pos hr]
      by_cases hne : turn = .install
      · subst hne
        rcases install_feeds hs with ⟨_, hx⟩ | ⟨t₀, hd, bus, _, hsub, hb, hx⟩
        · rw [hx] at hh
          exact .inl hh
        · rw [hx, Table.get?_set] at hh
          split at hh
          · rename_i he
            subst he
            cases hh
            rw [hb]
            exact .inr (Bus.subscribe_ok hsub).2.2.2
          · exact .inl hh
      · left
        rcases perform_feeds (t := t) hf hne with he | he
        · rw [← he, hh]
        · rw [he] at hh
          cases hh
    · exact .inl hh
  · rw [(act_sameLoop w fun turn he => ha ⟨turn, he⟩).feeds] at hh
    exact .inl hh

/-- A hub that gives a topic up does not read it any more. -/
theorem feeds_of_givesUp (hs : w.hub.Sound) {turn : Turn} (hr : w.hub.running = true)
    (hg : w.givesUp t turn) : (w.perform turn).hub.feeds.get? t = none := by
  have hs' := ((perform_evolves hr turn).sound hs).consistent
  have hempty : (w.perform turn).hub.listeners t = [] := by
    cases turn with
    | stop =>
      obtain ⟨m, h⟩ := shutdown_hub w
      show w.shutdown.hub.listeners t = []
      rw [h]
      rfl
    | install => exact hg.elim
    | remove => exact hg.2
    | read t' => exact hg.2.2
  rw [hs'.feed_eq_none_iff, ← Bool.not_eq_true, hs'.registered_iff, Hub.exists_listener_iff, hempty]
  exact Nat.lt_irrefl 0

/-- A channel that the hub still reads has been ended by others, if it has ended. -/
theorem cutOff_of_hasEnded (hw : w.Orderly) (hnone : w.hub.feeds = {})
    (hh : (w.after run).hub.feeds.get? t = some h) (hend : (w.after run).bus.hasEnded h = true) :
    w.CutOff run t := by
  refine ⟨h, hh, hend, ?_⟩
  induction run using List.reverseRecOn with
  | nil =>
    rw [after_nil, hnone] at hh
    cases hh
  | append_singleton run a ih =>
    have hv := hw.after run
    rw [after_concat] at hh hend
    rcases act_feed_new hv.fed hv.sound.consistent hh with hold | hroute
    · cases hopen : (w.after run).bus.hasEnded h with
      | true =>
        obtain ⟨earlier, b, hpre, hcause⟩ := ih hold hopen
        exact ⟨earlier, b, hpre.trans (List.prefix_append _ _), hcause⟩
      | false =>
        obtain ⟨ch, -, hch, htopic, -⟩ := (hv.fed.serves t h hold).channel
        have hcut := (act_leaves hv.fed hv.sound a).cut hch hopen hend
        rw [htopic] at hcut
        refine ⟨run, a, List.prefix_refl _, hold, hopen, ?_⟩
        cases a with
        | busUnsubscribe t' =>
          obtain rfl : t = t' := hcut
          exact .inl rfl
        | busClose => exact .inr rfl
        | turn turn =>
          obtain ⟨hr, hg⟩ := hcut
          rw [act, if_pos hr, feeds_of_givesUp hv.sound hr hg] at hh
          cases hh
        | _ => exact hcut.elim
    · -- a channel that is routed to is open
      obtain ⟨ch, hch, -, hopen⟩ := (hv.act a).fed.wired t _ hroute
      rw [Bus.hasEnded_eq hch, hopen] at hend
      cases hend

/-- The first subscription that waits is installed, or the bus refuses its topic. -/
theorem installChange_cases {s : Subscription} {rest : List Subscription}
    (hq : w.hub.installs = s :: rest) :
    ((w.hub.topics.contains s.topic = true ∨ ∃ hd, (w.bus.subscribe s.topic).1 = .ok hd) ∧
      w.turnChange s .install = .installed) ∨
    ∃ e, w.hub.topics.contains s.topic = false ∧ (w.bus.subscribe s.topic).1 = .error e ∧
      w.turnChange s .install = .ended (.registrationFailed e) := by
  have hhead : w.hub.installs.head? = some s := by rw [hq, List.head?_cons]
  simp only [turnChange, if_pos hhead]
  cases w.hub.topics.contains s.topic with
  | true => exact .inl ⟨.inl rfl, rfl⟩
  | false =>
    cases (w.bus.subscribe s.topic).1 with
    | ok hd => exact .inl ⟨.inr ⟨hd, rfl⟩, rfl⟩
    | error e => exact .inr ⟨e, rfl, rfl, rfl⟩

/--
**What an installation attaches to.** After any run of a new hub on a new bus, whatever others do on
the bus, the hub installs the subscription that is first in its queue. If it has not been registered
on the topic and the bus refuses it, the subscription ends with that error and is not told that it
is installed. If the subscription is told so, the hub is attached to its topic, or it had been cut
off by others who unsubscribed the topic or closed the bus since it registered.
-/
theorem installation_attaches {capacity : Nat} {config : Config} {governor : Governor}
    {before : List Action} {s : Subscription} {rest : List Subscription}
    (hr : ((start (Bus.sized capacity) config governor).after before).hub.running = true)
    (hq : ((start (Bus.sized capacity) config governor).after before).hub.installs = s :: rest) :
    let w := start (Bus.sized capacity) config governor
    let run := before ++ [.turn .install]
    ∃ l, (w.after run).lines.get? s.id = some l ∧
      (∀ e, (w.after before).hub.topics.contains s.topic = false →
        ((w.after before).bus.subscribe s.topic).1 = .error e →
        l.installed = false ∧ l.reason = some (.registrationFailed e)) ∧
      (l.installed = true → (w.after run).Attached s.topic ∨ w.CutOff run s.topic) := by
  intro w run
  have hw := start_orderly capacity config governor
  have hv := hw.after before
  have hv' : (w.after run).Orderly := hw.after run
  have hmem : s ∈ (w.after before).hub.installs := hq ▸ List.mem_cons_self
  obtain ⟨l, hl, hfits⟩ := hv.fits s .queued (by simp) hmem
  have hshows := install_own hv.roster hq hl
  have hstep : w.after run = (w.after before).perform .install := by
    rw [after_concat, act, if_pos hr]
  obtain ⟨hfresh, -⟩ := hfits.waiting (.inr rfl)
  rw [← hstep] at hshows
  rcases installChange_cases hq with ⟨hgranted, hchange⟩ | ⟨e, -, hrefused, hchange⟩ <;>
    rw [hchange] at hshows
  · refine ⟨_, hshows.line, fun e hnot hrefused => ?_, fun _ => ?_⟩
    · rcases hgranted with ht | ⟨hd, hok⟩
      · rw [show (w.after before).hub.topics.contains s.topic = true from ht] at hnot
        cases hnot
      · rw [show ((w.after before).bus.subscribe s.topic).1 = .ok hd from hok] at hrefused
        cases hrefused
    have hin : s ∈ (w.after run).hub.index.values := hshows.place
    obtain ⟨r, hreg, -⟩ := hv'.sound.consistent.get?_topic hin
    obtain ⟨h, hfeed⟩ : ∃ h, (w.after run).hub.feeds.get? s.topic = some h := by
      rw [← Option.ne_none_iff_exists', ne_eq, Table.get?_eq_none_iff,
        hv'.sound.consistent.feeds_eq, not_not, ← Table.contains_iff_mem_keys, Table.contains, hreg]
      rfl
    obtain ⟨ch, -, hch, -, -, -, hroute | hclosed⟩ := (hv'.fed.serves s.topic h hfeed).channel
    · exact .inl (attached_of_routed
        (after_numbered hw (start_numbered capacity config governor) run) hv'.fed hreg hfeed hroute)
    · exact .inr (cutOff_of_hasEnded hw rfl hfeed ((Bus.hasEnded_eq hch).trans hclosed))
  · refine ⟨_, hshows.line, fun e' _ hrefused' => ?_, fun hfired => ?_⟩
    · rw [show ((w.after before).bus.subscribe s.topic).1 = .error e from hrefused] at hrefused'
      cases hrefused'
      exact ⟨hfresh, rfl⟩
    · rw [show (Change.line s l (.ended (.registrationFailed e))).installed = l.installed from rfl,
        hfresh] at hfired
      cases hfired

/-- A second subscription on a topic is told that it is installed, and the hub is attached to the
topic. -/
theorem installation_attaches_second :
    let w := start (Bus.sized 4) {} .absent
    let before := [.makeWithin .newHeads none, .submit (.issued 0), .turn .install,
      .makeWithin .newHeads none, .submit (.issued 1)]
    let run := before ++ [.turn .install]
    ((w.after run).lines.get? (.issued 1)).any Line.installed = true ∧
      ((w.after run).Attached headerTopic ∨ w.CutOff run headerTopic) := by
  intro w before run
  have hfired : ((w.after run).lines.get? (.issued 1)).any Line.installed = true := by decide
  obtain ⟨l, hl, -, h⟩ := @installation_attaches 4 {} .absent before
    ⟨.issued 1, .newHeads, headerTopic, none⟩ [] (by decide) (by decide)
  rw [show (w.after run).lines.get? (.issued 1) = some l from hl, Option.any_some] at hfired
  exact ⟨by decide, h hfired⟩

/-- In this run, in which the hub works in its order, the bus is closed while the hub has a
subscription on a topic. The next one on the topic is told that it is installed though the bus holds
no registration and would refuse one; the hub then reads that the topic was closed, and ends it. -/
theorem installation_attaches_ended :
    let w := start (Bus.sized 4) {} .absent
    let run := [.makeWithin .newHeads none, .submit (.issued 0), .turn .install, .busClose,
      .makeWithin .newHeads none, .submit (.issued 1), .turn .install]
    let last := w.after (run ++ [.turn (.read headerTopic)])
    w.InOrder (run ++ [.turn (.read headerTopic)]) ∧
      ((w.after run).lines.get? (.issued 1)).map (fun l => (l.installed, l.reason)) =
        some (true, none) ∧
      (w.after run).bus.registration? headerTopic = none ∧
      ((w.after run).bus.subscribe headerTopic).1 = .error .closed ∧
      (last.lines.get? (.issued 1)).map Line.reason = some (some (.topicClosed headerTopic)) := by
  decide

end World

end EventFanout
