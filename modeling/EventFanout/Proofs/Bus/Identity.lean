/-
EventFanout.Proofs.Bus.Identity — what a registration number says about a channel.

Who subscribes to a topic gets a handle with the number of the channel that the topic is routed to.
That is the same channel for everybody, also for those who come when nobody else is left, until the
topic is unsubscribed or the bus is closed; the channel has then ended for good, and the next
subscription creates another, under a number that no channel has had.

Main statement: `registrations_identify`, over every run of a new bus on which fewer than 2^64
channels are created.
-/
import EventFanout.Proofs.Bus.Receiving
import EventFanout.Proofs.Bus.Usage

namespace EventFanout

namespace Bus

variable {b b' : Bus} {t : Topic}

/-- The registration numbers given out, in the order in which the channels were created. -/
def registrations (b : Bus) : List UInt64 := b.channels.map TopicChannel.registration

theorem Registered.registrations_eq (hr : b.Registered) :
    b.registrations = (List.range b.channels.length).map fun place => .ofNat (place + 1) := by
  refine List.ext_getElem? fun place => ?_
  rw [registrations, List.getElem?_map, List.getElem?_map]
  cases hch : b.channels[place]? with
  | none =>
    rw [List.getElem?_eq_none_iff] at hch
    rw [List.getElem?_eq_none (by simpa using hch)]
    rfl
  | some ch =>
    obtain ⟨hlt, -⟩ := List.getElem?_eq_some_iff.mp hch
    rw [List.getElem?_range hlt, Option.map_some, Option.map_some, hr.numbered place ch hch]

/-- The numbers given out later come after those given out before. -/
theorem Registered.registrations_prefix (hr : b.Registered) (hr' : b'.Registered)
    (hle : b.channels.length ≤ b'.channels.length) : b.registrations <+: b'.registrations := by
  have hrange : List.range b.channels.length <+: List.range b'.channels.length := by
    obtain ⟨extra, he⟩ := Nat.exists_eq_add_of_le hle
    rw [he, List.range_add]
    exact List.prefix_append _ _
  rw [hr.registrations_eq, hr'.registrations_eq]
  exact hrange.map _

theorem Registered.registrations_increasing (hr : b.Registered)
    (hfew : b.channels.length < 2 ^ 64) : b.registrations.Pairwise (· < ·) := by
  rw [List.pairwise_iff_getElem]
  intro i j hi hj hlt
  simp only [registrations, List.getElem_map, List.length_map] at hi hj ⊢
  exact hr.registration_lt hfew (List.getElem?_eq_getElem hi) (List.getElem?_eq_getElem hj) hlt

/-- The bus grants a subscription just where the topic is not blank and the bus has not been
closed. -/
theorem subscribe_refused_iff (b : Bus) (t : Topic) :
    (∃ e, (b.subscribe t).1 = .error e) ↔ Text.isBlank t = true ∨ b.closed = true := by
  unfold subscribe
  by_cases hblank : Text.isBlank t = true
  · simp [hblank]
  · by_cases hc : b.closed = true <;> simp [hblank, hc]

end Bus

namespace Usage

open Bus (Call)

variable {u : Usage} {h : Handle} {t : Topic} {run : List Call}

/-- The moment of a run at which a subscription to a topic is granted: `before` comes before it. -/
def Grants (u : Usage) (run before : List Call) (t : Topic) (h : Handle) : Prop :=
  before ++ [.subscribe t] <+: run ∧ ((u.after before).bus.subscribe t).1 = .ok h

/-- What registration numbers say about the channels of a bus after a run. -/
structure Identified (u : Usage) (run : List Call) : Prop where
  /-- A handle is on a channel of its topic that has its number, and reads there while it is held. -/
  attached : ∀ before t h, u.Grants run before t h →
    ∃ ch, (u.after run).bus.channels[h.channel]? = some ch ∧ ch.topic = t ∧
      ch.registration = h.registration ∧
      (h ∈ (u.after run).handles → ch.readers.contains h.reader = true)
  /-- Two handles have one number just when they are on one channel, and that is so just when they
  were obtained for one topic, which nobody unsubscribed in between nor closed the bus. -/
  same : ∀ before t h between t' h', u.Grants run before t h →
    u.Grants run (before ++ .subscribe t :: between) t' h' →
    (h.registration = h'.registration ↔ h.channel = h'.channel) ∧
    (h.channel = h'.channel ↔ t = t' ∧ .close ∉ between ∧ .unsubscribe t ∉ between)
  /-- Each new channel gets a greater number than all before it. -/
  increasing : (u.after run).bus.registrations.Pairwise (· < ·)
  /-- The numbers given out before are those of the first channels: none is given again. -/
  lasting : ∀ earlier, earlier <+: run →
    (u.after earlier).bus.registrations <+: (u.after run).bus.registrations
  /-- The registration of a topic is that of the channel to which its events go, and they go to no
  other. -/
  current : ∀ t number, (u.after run).bus.registration? t = some number →
    ∃ (place : Nat) (ch : TopicChannel), (u.after run).bus.channels[place]? = some ch ∧
      ch.topic = t ∧ ch.registration = number ∧ ∀ e : Event, e.topic = t →
        ((u.after run).bus.publish e).1 = ch.readers.size ∧
        ∀ i, ((u.after run).bus.publish e).2.channels[i]? =
          if i = place ∧ ch.readers.size ≠ 0 then some (ch.push e)
          else (u.after run).bus.channels[i]?
  /-- A subscription fails on a blank topic and on a closed bus, and then nothing is changed. -/
  refused : ∀ t, ((∃ e, ((u.after run).bus.subscribe t).1 = .error e) ↔
      Text.isBlank t = true ∨ (u.after run).bus.closed = true) ∧
    ∀ e, ((u.after run).bus.subscribe t).1 = .error e →
      (u.after run).serve (.subscribe t) = u.after run
  /-- Once the bus has been closed every subscription fails, no topic has a channel, and every
  handle gives out what is held for it and then tells of the end. -/
  shut : .close ∈ run → (∀ t, ∃ e, ((u.after run).bus.subscribe t).1 = .error e) ∧
    (u.after run).bus.topicCount = 0 ∧
    ∀ h ∈ (u.after run).handles, ∀ n, (u.after run).bus.receptions h n =
      (((u.after run).bus.heldFor h).map Received.entry ++
        List.replicate n Received.ended).take n

/-! ## Channels over a run -/

theorem length_channels_le (hs : u.Sound) (run : List Call) :
    u.bus.channels.length ≤ (u.after run).bus.channels.length := by
  induction run generalizing u with
  | nil => exact Nat.le_refl _
  | cons c rest ih => exact Nat.le_trans (serve_goes hs c).length_le (ih (serve_sound hs c))

/-- A bus that was closed stays closed. -/
theorem serve_closed (c : Call) (hc : u.bus.closed = true) : (u.serve c).bus.closed = true := by
  cases c with
  | subscribe t =>
    rcases serve_subscribe u t with ⟨h, bus, hsub, -⟩ | ⟨e, -, he⟩
    · rw [(Bus.subscribe_ok hsub).2.1] at hc
      cases hc
    · rwa [he]
  | unsubscribe t =>
    simp only [serve, Bus.unsubscribe]
    split <;> exact hc
  | close => rfl
  | publish e => exact (Bus.publish_sameRegister _ e).closed.trans hc
  | receive h =>
    simp only [serve]
    split
    · exact (Bus.receive_sameRegister _ h).closed.trans hc
    · exact hc
  | drop h =>
    simp only [serve]
    split <;> exact hc

theorem closed_after {run : List Call} (hrun : .close ∈ run) : (u.after run).bus.closed = true := by
  obtain ⟨before, later, rfl⟩ := List.append_of_mem hrun
  have hstays : ∀ (run : List Call) (u : Usage), u.bus.closed = true →
      (u.after run).bus.closed = true := by
    intro run
    induction run with
    | nil => exact fun _ hc => hc
    | cons c rest ih => exact fun u hc => ih (u.serve c) (serve_closed c hc)
  rw [after_append, after_cons]
  exact hstays later _ rfl

/-- A handle that was granted is on record ever after. -/
theorem Grants.channel (hs : u.Sound) {before : List Call} (hg : u.Grants run before t h) :
    ∃ ch, (u.after run).bus.channels[h.channel]? = some ch ∧ ch.topic = t ∧
      ch.registration = h.registration := by
  obtain ⟨⟨later, rfl⟩, hsub⟩ := hg
  have hb := after_sound hs before
  obtain ⟨-, -, ch, hch, ht, hreg, -⟩ := granted_channel hb hsub
  obtain ⟨ch', hch', ht', hreg', -⟩ := after_channel (serve_sound hb (.subscribe t)) hch later
  rw [after_append, after_concat]
  exact ⟨ch', hch', ht'.trans ht, hreg'.trans hreg⟩

/-- Two handles are on one channel just when they were obtained for one topic that had not ended in
between. -/
theorem Grants.channel_eq_iff (hs : u.Sound) {before between : List Call} {t' : Topic} {h' : Handle}
    (hg : u.Grants run before t h) (hg' : u.Grants run (before ++ .subscribe t :: between) t' h') :
    h.channel = h'.channel ↔ t = t' ∧ between.any (Call.ends t) = false := by
  have hb := after_sound hs before
  obtain ⟨-, -, ch, hch, ht, -, hopen, -⟩ := granted_channel hb hg.2
  have hb₁ := serve_sound hb (.subscribe t)
  -- the channel of the first handle when the second is granted, and right after
  obtain ⟨ch₂, hch₂, ht₂, -, hc₂⟩ := after_channel hb₁ hch between
  rw [hopen, ht, Bool.false_or] at hc₂
  have hmoment : u.after (before ++ .subscribe t :: between) =
      ((u.after before).serve (.subscribe t)).after between := by
    rw [after_append, after_cons]
  have hsub' := hg'.2
  rw [hmoment] at hsub'
  have hb₂ := after_sound hb₁ between
  obtain ⟨-, -, ch', hch', ht', -, hopen', -⟩ := granted_channel hb₂ hsub'
  obtain ⟨ch₃, hch₃, ht₃, -, -, hc₃⟩ := serve_channel hb₂ hch₂ (.subscribe t')
  rw [hc₂] at hc₃
  constructor
  · intro he
    rw [← he, hch₃] at hch'
    cases hch'
    refine ⟨(ht.symm.trans (ht₂.symm.trans ht₃.symm)).trans ht', ?_⟩
    rw [hopen', eq_comm, Bool.or_eq_false_iff] at hc₃
    exact hc₃.1
  · rintro ⟨rfl, hnone⟩
    have hreg := (serve_sound hb₂ (.subscribe t)).registered
    have hroute := hreg.routed _ ch₃ hch₃ (by rw [hc₃, hnone]; rfl)
    have hroute' := hreg.routed _ ch' hch' hopen'
    rw [ht₃, ht₂, ht] at hroute
    rw [ht', hroute] at hroute'
    exact Option.some.inj hroute'

/-- Every handle of a bus that was closed gives out what is held for it, and then tells of the end. -/
theorem receptions_of_closed (hs : u.Sound) (hc : u.bus.closed = true) (hh : h ∈ u.handles)
    (n : Nat) :
    u.bus.receptions h n =
      ((u.bus.heldFor h).map Received.entry ++ List.replicate n Received.ended).take n := by
  obtain ⟨ch, next, hch, -, hr, -, hend⟩ := (hs.serves h hh).channel
  refine Bus.receptions_of_ended (Bus.position?_eq_some.mpr ⟨hch, hr⟩) ?_ n
  rcases hend with hroute | hclosed
  · rw [hs.registered.shut hc] at hroute
    cases hroute
  · exact hclosed

/--
**Registrations tell channels apart.** Over every run of a new bus on which fewer than 2^64 channels
are created: two handles have one registration number just when they are on one channel, and they
are just when they were obtained for one topic with no end of it in between; numbers increase with
every channel and are never given again; the registration of a topic is that of the channel its
events go to; a subscription that fails changes nothing; and a bus that has been closed grants
nothing, has no topics, and its handles end once what is held for them is read.
-/
theorem registrations_identify (capacity : Nat) {run : List Call}
    (hfew : ((start capacity).after run).bus.channels.length < 2 ^ 64) :
    (start capacity).Identified run := by
  have hs := start_sound capacity
  have hrun := after_sound hs run
  constructor
  · intro before t h hg
    obtain ⟨ch, hch, ht, hreg⟩ := hg.channel hs
    refine ⟨ch, hch, ht, hreg, fun hh => ?_⟩
    rw [Table.contains_iff_mem_keys, ← Bus.readersAt_eq hch]
    exact hrun.mem_readersAt hh
  · intro before t h between t' h' hg hg'
    obtain ⟨ch, hch, -, hreg⟩ := hg.channel hs
    obtain ⟨ch', hch', -, hreg'⟩ := hg'.channel hs
    rw [← hreg, ← hreg', ← not_or, ← any_ends_iff, Bool.not_eq_true]
    exact ⟨hrun.registered.registration_inj hfew hch hch', hg.channel_eq_iff hs hg'⟩
  · exact hrun.registered.registrations_increasing hfew
  · rintro earlier ⟨later, rfl⟩
    have he := after_sound hs earlier
    rw [after_append] at hrun ⊢
    exact he.registered.registrations_prefix hrun.registered (length_channels_le he later)
  · intro t number hreg
    cases hroute : ((start capacity).after run).bus.routes.get? t with
    | none => simp [Bus.registration?, Bus.channel?, hroute, bind, Option.bind] at hreg
    | some place =>
      obtain ⟨ch, hch, ht, -⟩ := hrun.registered.wired t place hroute
      rw [Bus.Registered.registration?_eq hroute hch] at hreg
      refine ⟨place, ch, hch, ht, Option.some.inj hreg, ?_⟩
      rintro e rfl
      exact Bus.publish_channels e hroute hch
  · intro t
    refine ⟨Bus.subscribe_refused_iff _ t, fun e he => ?_⟩
    rcases serve_subscribe ((start capacity).after run) t with ⟨h, bus, hsub, -⟩ | ⟨_, -, hsame⟩
    · rw [hsub] at he
      cases he
    · exact hsame
  · intro hclose
    have hc := closed_after (u := start capacity) hclose
    refine ⟨fun t => (Bus.subscribe_refused_iff _ t).mpr (.inr hc), ?_,
      fun h hh => receptions_of_closed hrun hc hh⟩
    rw [Bus.topicCount, hrun.registered.shut hc]
    rfl

/-- Two users subscribe to a topic and both give their handles up; a third is on the same channel
nevertheless. When the topic has been unsubscribed the fourth is on another. -/
theorem registrations_identify_kept :
    let run : List Call := [.subscribe "a", .subscribe "a", .drop ⟨"a", 1, 0, 0⟩,
      .drop ⟨"a", 1, 0, 1⟩, .subscribe "a", .unsubscribe "a", .subscribe "a"]
    ((start 4).after run).bus.channels.length < 2 ^ 64 ∧ (start 4).Identified run ∧
      ((start 4).after run).handles = [⟨"a", 1, 0, 2⟩, ⟨"a", 2, 1, 3⟩] := by
  intro run
  have hfew : ((start 4).after run).bus.channels.length < 2 ^ 64 := by decide
  exact ⟨hfew, registrations_identify 4 hfew, by decide⟩

end Usage

end EventFanout
