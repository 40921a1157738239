/-
EventFanout.Proofs.Bus.Register — the channels that a bus has on record, and their numbers.

A channel is entered on record with the next registration number when its topic is routed to
it, and it stays there. `Bus.Registered` says what is true of the record at every moment: the
channels are numbered in the order they came, a channel is open just as long as its topic is
routed to it, and a topic is routed to none but the latest of its channels. The numbers have 64
bits, so they tell channels apart as long as there are fewer than 2^64 of them
(`Registered.registration_lt`).

Main statement: `Evolves.registered`. Every operation of the bus keeps its record in order; most of
them do not touch what a channel is known by (`TopicChannel.plate`).
-/
import EventFanout.Proofs.Bus
import Mathlib.Logic.Relation

namespace EventFanout

/-- What a channel is known by: its topic, its number, its room and whether it has ended. -/
def TopicChannel.plate (ch : TopicChannel) : Topic × UInt64 × Nat × Bool :=
  (ch.topic, ch.registration, ch.log.capacity, ch.log.closed)

namespace Bus

variable {b b' b'' : Bus}

/-- The record of a bus is in order. -/
structure Registered (b : Bus) : Prop where
  wired : b.Wired
  /-- The topic of an open channel is routed to it. -/
  routed : ∀ (place : Nat) ch, b.channels[place]? = some ch → ch.log.closed = false →
    b.routes.get? ch.topic = some place
  /-- The channel that a topic is routed to is the latest of the topic. -/
  latest : ∀ t (place place' : Nat) ch, b.routes.get? t = some place →
    b.channels[place']? = some ch → ch.topic = t → place' ≤ place
  numbered : ∀ (place : Nat) ch, b.channels[place]? = some ch → ch.registration = .ofNat (place + 1)
  next : b.nextRegistration = .ofNat (b.channels.length + 1)
  /-- Every channel holds as many entries as the bus was asked for, rounded up. -/
  room : ∀ (place : Nat) ch, b.channels[place]? = some ch → ch.log.capacity = ringSize b.capacity
  /-- A bus that was closed has no channel open. -/
  shut : b.closed = true → b.routes = {}

namespace Registered

/-- Fewer than 2^64 channels are numbered from one. -/
theorem registration_toNat (hr : b.Registered) (hfew : b.channels.length < 2 ^ 64) {place : Nat}
    {ch : TopicChannel} (hch : b.channels[place]? = some ch) :
    ch.registration.toNat = place + 1 := by
  obtain ⟨hlt, -⟩ := List.getElem?_eq_some_iff.mp hch
  rw [hr.numbered place ch hch, UInt64.toNat_ofNat', Nat.mod_eq_of_lt]
  omega

/-- A channel that came later has a greater number. -/
theorem registration_lt (hr : b.Registered) (hfew : b.channels.length < 2 ^ 64)
    {place place' : Nat} {ch ch' : TopicChannel} (hch : b.channels[place]? = some ch)
    (hch' : b.channels[place']? = some ch') (hlt : place < place') :
    ch.registration < ch'.registration := by
  rw [UInt64.lt_iff_toNat_lt, hr.registration_toNat hfew hch, hr.registration_toNat hfew hch']
  exact Nat.succ_lt_succ hlt

/-- Fewer than 2^64 channels have different numbers. -/
theorem registration_inj (hr : b.Registered) (hfew : b.channels.length < 2 ^ 64)
    {place place' : Nat} {ch ch' : TopicChannel} (hch : b.channels[place]? = some ch)
    (hch' : b.channels[place']? = some ch') :
    ch.registration = ch'.registration ↔ place = place' := by
  refine ⟨fun he => ?_, ?_⟩
  · have hn := hr.registration_toNat hfew hch
    rw [he, hr.registration_toNat hfew hch'] at hn
    exact Nat.succ.inj hn.symm
  · rintro rfl
    rw [hch] at hch'
    cases hch'
    rfl

/-- A bus is registered on a topic with the number of the channel that the topic is routed to. -/
theorem registration?_eq {t : Topic} {place : Nat} {ch : TopicChannel}
    (hroute : b.routes.get? t = some place) (hch : b.channels[place]? = some ch) :
    b.registration? t = some ch.registration := by
  simp only [registration?, channel?, hroute, bind, Option.bind, hch, Option.map_some]

end Registered

/-! ## Operations that leave the record alone -/

/-- Nothing that the record is about has changed. -/
structure SameRegister (b b' : Bus) : Prop where
  plates : b'.channels.map TopicChannel.plate = b.channels.map TopicChannel.plate
  routes : b'.routes = b.routes
  next : b'.nextRegistration = b.nextRegistration
  closed : b'.closed = b.closed
  capacity : b'.capacity = b.capacity

namespace SameRegister

theorem refl (b : Bus) : b.SameRegister b := ⟨rfl, rfl, rfl, rfl, rfl⟩

theorem symm (h : b.SameRegister b') : b'.SameRegister b :=
  ⟨h.plates.symm, h.routes.symm, h.next.symm, h.closed.symm, h.capacity.symm⟩

theorem length (h : b.SameRegister b') : b'.channels.length = b.channels.length := by
  have hl := congrArg List.length h.plates
  rwa [List.length_map, List.length_map] at hl

theorem channel (h : b.SameRegister b') {place : Nat} {ch' : TopicChannel}
    (hch' : b'.channels[place]? = some ch') :
    ∃ ch, b.channels[place]? = some ch ∧ ch.plate = ch'.plate := by
  have hp := congrArg (·[place]?) h.plates
  simp only [List.getElem?_map, hch', Option.map_some] at hp
  exact Option.map_eq_some_iff.mp hp.symm

theorem registered (h : b.SameRegister b') (hr : b.Registered) : b'.Registered where
  wired := by
    intro t place hroute
    rw [h.routes] at hroute
    obtain ⟨ch, hch, rfl, hopen⟩ := hr.wired t place hroute
    obtain ⟨ch', hch', hp⟩ := h.symm.channel hch
    simp only [TopicChannel.plate, Prod.mk.injEq] at hp
    exact ⟨ch', hch', hp.1, hp.2.2.2.trans hopen⟩
  routed := by
    intro place ch' hch' hopen
    obtain ⟨ch, hch, hp⟩ := h.channel hch'
    simp only [TopicChannel.plate, Prod.mk.injEq] at hp
    rw [h.routes, ← hp.1]
    exact hr.routed place ch hch (hp.2.2.2.trans hopen)
  latest := by
    intro t place place' ch' hroute hch' ht
    rw [h.routes] at hroute
    obtain ⟨ch, hch, hp⟩ := h.channel hch'
    simp only [TopicChannel.plate, Prod.mk.injEq] at hp
    exact hr.latest t place place' ch hroute hch (hp.1.trans ht)
  numbered := by
    intro place ch' hch'
    obtain ⟨ch, hch, hp⟩ := h.channel hch'
    simp only [TopicChannel.plate, Prod.mk.injEq] at hp
    rw [← hp.2.1, hr.numbered place ch hch]
  next := by rw [h.next, h.length, hr.next]
  room := by
    intro place ch' hch'
    obtain ⟨ch, hch, hp⟩ := h.channel hch'
    simp only [TopicChannel.plate, Prod.mk.injEq] at hp
    rw [← hp.2.2.1, h.capacity, hr.room place ch hch]
  shut := by
    intro hc
    rw [h.closed] at hc
    rw [h.routes, hr.shut hc]

end SameRegister

theorem plates_modify {f : TopicChannel → TopicChannel} (hf : ∀ ch, (f ch).plate = ch.plate)
    (chs : List TopicChannel) (place : Nat) :
    (chs.modify place f).map TopicChannel.plate = chs.map TopicChannel.plate := by
  refine List.ext_getElem? fun i => ?_
  rw [List.getElem?_map, List.getElem?_map, List.getElem?_modify]
  cases chs[i]? with
  | none => rfl
  | some ch =>
    split
    · exact congrArg some (hf ch)
    · rfl

theorem modify_sameRegister (b : Bus) (place : Nat) {f : TopicChannel → TopicChannel}
    (hf : ∀ ch, (f ch).plate = ch.plate) : b.SameRegister (b.modify place f) :=
  ⟨plates_modify hf b.channels place, rfl, rfl, rfl, rfl⟩

theorem attach_sameRegister (b : Bus) (t : Topic) (place : Nat) :
    b.SameRegister (b.attach t place).2 :=
  ⟨plates_modify (f := fun ch => ch.enter b.nextReader) (fun _ => rfl) b.channels place,
    rfl, rfl, rfl, rfl⟩

theorem publish_sameRegister (b : Bus) (e : Event) : b.SameRegister (b.publish e).2 := by
  unfold publish
  simp only
  split
  · exact ⟨rfl, rfl, rfl, rfl, rfl⟩
  · split
    · exact ⟨rfl, rfl, rfl, rfl, rfl⟩
    · exact ⟨plates_modify (f := fun ch => ch.push e) (fun _ => rfl) b.channels _, rfl, rfl, rfl, rfl⟩

theorem receive_sameRegister (b : Bus) (h : Handle) : b.SameRegister (b.receive h).2 := by
  unfold receive
  split
  · exact .refl b
  · exact modify_sameRegister b h.channel fun _ => rfl

theorem drop_sameRegister (b : Bus) (h : Handle) : b.SameRegister (b.drop h) :=
  modify_sameRegister b h.channel fun _ => rfl

theorem read?_sameRegister {h : Handle} {item : Item Event} (hread : b.read? h = some (item, b')) :
    b.SameRegister b' := by
  obtain ⟨ch, next, next', -, -, -, rfl⟩ := read?_eq_some hread
  exact modify_sameRegister b h.channel fun _ => rfl

/-! ## Operations that write on the record -/

/-- A new channel has a number above all others, and its topic is routed to it. -/
theorem create_registered (hr : b.Registered) (hopen : b.closed = false) {t : Topic}
    (ht : b.routes.get? t = none) : (b.create t).Registered := by
  have hnew : ∀ (place : Nat) ch, (b.create t).channels[place]? = some ch →
      b.channels[place]? = some ch ∨ place = b.channels.length ∧
        ch = ⟨t, b.nextRegistration, .sized b.capacity, {}⟩ := by
    intro place ch hch
    simp only [create, List.getElem?_append] at hch
    split at hch
    · exact .inl hch
    · obtain ⟨hlt, he⟩ := List.getElem?_eq_some_iff.mp hch
      simp only [List.length_singleton, List.getElem_singleton] at hlt he
      exact .inr ⟨by omega, he.symm⟩
  have hroutes : ∀ t', (b.create t).routes.get? t' =
      if t = t' then some b.channels.length else b.routes.get? t' :=
    fun t' => Table.get?_set _ _ _ _
  constructor
  · exact (create_goes hr.wired ht).wired
  · intro place ch hch hc
    rcases hnew place ch hch with hold | ⟨rfl, rfl⟩
    · rw [hroutes, if_neg]
      · exact hr.routed place ch hold hc
      · intro he
        rw [he, hr.routed place ch hold hc] at ht
        cases ht
    · rw [hroutes, if_pos rfl]
  · intro t' place place' ch hroute hch hct
    rw [hroutes] at hroute
    obtain ⟨hlt, -⟩ := List.getElem?_eq_some_iff.mp hch
    have hlen : (b.create t).channels.length = b.channels.length + 1 := List.length_append
    split at hroute
    · cases hroute
      omega
    · rename_i hne
      rcases hnew place' ch hch with hold | ⟨-, rfl⟩
      · exact hr.latest t' place place' ch hroute hold hct
      · exact absurd hct hne
  · intro place ch hch
    rcases hnew place ch hch with hold | ⟨rfl, rfl⟩
    · exact hr.numbered place ch hold
    · exact hr.next
  · have hlen : (b.create t).channels.length = b.channels.length + 1 := List.length_append
    rw [hlen, UInt64.ofNat_add, ← hr.next]
    rfl
  · intro place ch hch
    rcases hnew place ch hch with hold | ⟨-, rfl⟩
    · exact hr.room place ch hold
    · rfl
  · intro hc
    rw [show (b.create t).closed = b.closed from rfl, hopen] at hc
    cases hc

theorem subscribe_registered (hr : b.Registered) (t : Topic) : (b.subscribe t).2.Registered := by
  unfold subscribe
  split
  · exact hr
  · split
    · exact hr
    · rename_i hopen
      have hroute : (b.route t).2.Registered := by
        unfold route
        split
        · exact hr
        · rename_i ht
          exact create_registered hr (by simpa using hopen) ht
      exact (attach_sameRegister _ t _).registered hroute

/-- Channels are as they were but for those that have ended. -/
theorem plate_endChannels (places : List Nat) (b : Bus) (i : Nat) :
    ((places.foldl endChannel b).channels[i]?).map TopicChannel.plate =
      (b.channels[i]?).map fun ch => (ch.topic, ch.registration, ch.log.capacity,
        ch.log.closed || decide (i ∈ places)) := by
  induction places generalizing b with
  | nil =>
    rw [List.foldl_nil]
    cases b.channels[i]? with
    | none => rfl
    | some ch => simp [TopicChannel.plate]
  | cons place rest ih =>
    rw [List.foldl_cons, ih, endChannel, channels_modify]
    cases b.channels[i]? with
    | none => simp
    | some ch =>
      by_cases hi : place = i
      · simp [hi, TopicChannel.close, Channel.close]
      · have hi' : ¬ i = place := fun e => hi e.symm
        simp [hi, hi']

/-- Ending channels keeps the record in order, if their routes go, and no others. -/
theorem ended_registered (hr : b.Registered) (places : List Nat)
    (hb : b'.channels = (places.foldl endChannel b).channels)
    (hroutes : ∀ t place, b'.routes.get? t = some place ↔
      b.routes.get? t = some place ∧ place ∉ places)
    (hnext : b'.nextRegistration = b.nextRegistration) (hcap : b'.capacity = b.capacity)
    (hshut : b'.closed = true → b'.routes = {}) : b'.Registered := by
  have hold : ∀ (place : Nat) ch', b'.channels[place]? = some ch' →
      ∃ ch, b.channels[place]? = some ch ∧ ch'.plate = (ch.topic, ch.registration,
        ch.log.capacity, ch.log.closed || decide (place ∈ places)) := by
    intro place ch' hch'
    have hp := plate_endChannels places b place
    rw [← hb, hch'] at hp
    obtain ⟨ch, hch, he⟩ := Option.map_eq_some_iff.mp hp.symm
    exact ⟨ch, hch, he.symm⟩
  constructor
  · intro t place hroute
    obtain ⟨hroute, hkept⟩ := (hroutes t place).mp hroute
    obtain ⟨ch, hch, ht, hopen⟩ := hr.wired t place hroute
    have hp := plate_endChannels places b place
    rw [← hb, hch] at hp
    obtain ⟨ch', hch', he⟩ := Option.map_eq_some_iff.mp hp
    simp only [TopicChannel.plate, Prod.mk.injEq] at he
    refine ⟨ch', hch', he.1.trans ht, ?_⟩
    rw [he.2.2.2, hopen]
    simpa using hkept
  · intro place ch' hch' hopen
    obtain ⟨ch, hch, he⟩ := hold place ch' hch'
    simp only [TopicChannel.plate, Prod.mk.injEq] at he
    rw [he.2.2.2, Bool.or_eq_false_iff, decide_eq_false_iff_not] at hopen
    rw [he.1]
    exact (hroutes _ place).mpr ⟨hr.routed place ch hch hopen.1, hopen.2⟩
  · intro t place place' ch' hroute hch' ht
    obtain ⟨hroute, -⟩ := (hroutes t place).mp hroute
    obtain ⟨ch, hch, he⟩ := hold place' ch' hch'
    simp only [TopicChannel.plate, Prod.mk.injEq] at he
    exact hr.latest t place place' ch hroute hch (he.1.symm.trans ht)
  · intro place ch' hch'
    obtain ⟨ch, hch, he⟩ := hold place ch' hch'
    simp only [TopicChannel.plate, Prod.mk.injEq] at he
    rw [he.2.1, hr.numbered place ch hch]
  · have hlen : b'.channels.length = b.channels.length := by
      have hmap : b'.channels.map TopicChannel.topic = b.channels.map TopicChannel.topic := by
        refine List.ext_getElem? fun i => ?_
        have hp := congrArg (Option.map Prod.fst) (plate_endChannels places b i)
        rw [← hb, Option.map_map, Option.map_map] at hp
        rw [List.getElem?_map, List.getElem?_map]
        exact hp
      have hl := congrArg List.length hmap
      rwa [List.length_map, List.length_map] at hl
    rw [hnext, hlen, hr.next]
  · intro place ch' hch'
    obtain ⟨ch, hch, he⟩ := hold place ch' hch'
    simp only [TopicChannel.plate, Prod.mk.injEq] at he
    rw [he.2.2.1, hcap, hr.room place ch hch]
  · exact hshut

theorem unsubscribe_registered (hr : b.Registered) (t : Topic) :
    (b.unsubscribe t).2.Registered := by
  unfold unsubscribe
  split
  · rename_i place hp
    refine ended_registered hr [place] rfl ?_ rfl rfl ?_
    · intro t' place'
      simp only [Table.get?_erase, List.mem_singleton]
      by_cases ht : t = t'
      · subst ht
        rw [if_pos rfl, hp]
        simp only [reduceCtorEq, Option.some.injEq, false_iff, not_and, not_not]
        exact Eq.symm
      · rw [if_neg ht]
        refine ⟨fun h => ⟨h, ?_⟩, And.left⟩
        rintro rfl
        exact ht (hr.wired.unique hp h)
    · intro hc
      have hnone := hr.shut hc
      rw [hnone] at hp
      cases hp
  · exact hr

/-- Ending channels takes no number and no room. -/
theorem foldl_endChannel_numbers (places : List Nat) (b : Bus) :
    (places.foldl endChannel b).nextRegistration = b.nextRegistration ∧
      (places.foldl endChannel b).capacity = b.capacity := by
  induction places generalizing b with
  | nil => exact ⟨rfl, rfl⟩
  | cons place rest ih => exact ih (b.endChannel place)

theorem close_registered (hr : b.Registered) : b.close.Registered := by
  have hfold := foldl_endChannel_numbers b.routes.values b
  refine ended_registered hr b.routes.values rfl ?_ hfold.1 hfold.2 fun _ => rfl
  intro t place
  simp only [close, Table.get?_empty, reduceCtorEq, false_iff, not_and, not_not]
  intro hroute
  exact Table.mem_values_of_get? hroute

/-- Who subscribes is shown the registration of the channel. -/
theorem subscribe_registration {t : Topic} {hd : Handle} {ch : TopicChannel}
    (h : b.subscribe t = (.ok hd, b')) (hch : b'.channels[hd.channel]? = some ch) :
    ch.registration = hd.registration := by
  unfold subscribe at h
  split at h
  · cases h
  · split at h
    · cases h
    · simp only [Prod.mk.injEq, Except.ok.injEq] at h
      obtain ⟨rfl, rfl⟩ := h
      have hmod := channels_modify (b.route t).2 (b.route t).1 (b.route t).1
        fun ch => ch.enter (b.route t).2.nextReader
      rw [if_pos rfl] at hmod
      obtain ⟨ch₀, hch₀, rfl⟩ := Option.map_eq_some_iff.mp (hmod ▸ hch)
      simp only [attach, registrationAt, hch₀, TopicChannel.enter]

/-! ## Whatever is asked of the bus -/

/-- One operation of a bus. -/
inductive Step : Bus → Bus → Prop
  | subscribe {b : Bus} (t : Topic) : Step b (b.subscribe t).2
  | unsubscribe {b : Bus} (t : Topic) : Step b (b.unsubscribe t).2
  | close {b : Bus} : Step b b.close
  | publish {b : Bus} (e : Event) : Step b (b.publish e).2
  | receive {b : Bus} (h : Handle) : Step b (b.receive h).2
  | read {b b' : Bus} {h : Handle} {item : Item Event} : b.read? h = some (item, b') → Step b b'
  | drop {b : Bus} (h : Handle) : Step b (b.drop h)

def Evolves : Bus → Bus → Prop := Relation.ReflTransGen Step

theorem Step.registered (h : Step b b') (hr : b.Registered) : b'.Registered := by
  cases h with
  | subscribe t => exact subscribe_registered hr t
  | unsubscribe t => exact unsubscribe_registered hr t
  | close => exact close_registered hr
  | publish e => exact (publish_sameRegister b e).registered hr
  | receive h => exact (receive_sameRegister b h).registered hr
  | read hread => exact (read?_sameRegister hread).registered hr
  | drop h => exact (drop_sameRegister b h).registered hr

/-- No channel is ever given other room than the bus was made for. -/
theorem Step.capacity (h : Step b b') : b'.capacity = b.capacity := by
  cases h with
  | subscribe t =>
    have hroute : (b.route t).2.capacity = b.capacity := by
      unfold route
      split <;> rfl
    unfold Bus.subscribe
    split
    · rfl
    · split
      · rfl
      · exact hroute
  | unsubscribe t =>
    unfold Bus.unsubscribe
    split <;> rfl
  | close => exact (foldl_endChannel_numbers b.routes.values b).2
  | publish e => exact (publish_sameRegister b e).capacity
  | receive h => exact (receive_sameRegister b h).capacity
  | read hread => exact (read?_sameRegister hread).capacity
  | drop h => exact (drop_sameRegister b h).capacity

/-- The record of a bus stays in order, whatever is asked of the bus. -/
theorem Evolves.registered (h : Evolves b b') (hr : b.Registered) : b'.Registered := by
  induction h with
  | refl => exact hr
  | tail _ hstep ih => exact hstep.registered ih

/-- Nothing is on record on a new bus. -/
theorem sized_registered (capacity : Nat) : (sized capacity).Registered := by
  constructor <;> simp [sized, Wired]

end Bus

end EventFanout
