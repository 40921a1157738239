/-
EventFanout.Proofs.Bus — what the operations of the bus do to the channels on record.

Whatever is asked of a bus, its channels grow, its readers stay where they are but for
the one that reads or leaves, and a channel that a topic is no longer routed to has been
closed and is never routed to again. `Bus.Goes` says all of this about one operation; it
composes (`Goes.trans`), and every operation has a lemma to that effect.

Events reach a channel only by being published on the topic that is routed to it, while
somebody is there to read them (`Bus.kept`).
-/
import EventFanout.Bus
import EventFanout.Proofs.Channel
import EventFanout.Proofs.Table

namespace EventFanout.Bus

variable {b b' b'' : Bus}

/-- Every route leads to an open channel of its topic. -/
def Wired (b : Bus) : Prop :=
  ∀ t place, b.routes.get? t = some place →
    ∃ ch, b.channels[place]? = some ch ∧ ch.topic = t ∧ ch.log.closed = false

/-- Two topics are not routed to one channel. -/
theorem Wired.unique (h : b.Wired) {t t' : Topic} {place : Nat}
    (ht : b.routes.get? t = some place) (ht' : b.routes.get? t' = some place) : t = t' := by
  obtain ⟨ch, hch, rfl, -⟩ := h t place ht
  obtain ⟨ch', hch', rfl, -⟩ := h t' place ht'
  rw [hch] at hch'
  cases hch'
  rfl

/--
What an operation does to the bus: `new` is what has been sent on the channel at each place, and
`moved` says which readers of which channels may be elsewhere or gone.
-/
structure Goes (b b' : Bus) (new : Nat → List Event) (moved : Nat → Nat → Prop) : Prop where
  readers_le : b.nextReader ≤ b'.nextReader
  channel : ∀ place ch, b.channels[place]? = some ch → ∃ ch', b'.channels[place]? = some ch' ∧
    ch'.topic = ch.topic ∧ ch.log.Extends ch'.log (new place) ∧
    ∀ r, r < b.nextReader → ¬ moved place r → ch'.readers.get? r = ch.readers.get? r
  /-- New routes lead to new channels. -/
  routed : ∀ t place, b'.routes.get? t = some place →
    b.routes.get? t = some place ∨ b.channels.length ≤ place
  /-- A channel loses its route only by being closed. -/
  unrouted : ∀ t place, b.routes.get? t = some place → b'.routes.get? t = some place ∨
    ∃ ch', b'.channels[place]? = some ch' ∧ ch'.log.closed = true
  wired : b'.Wired

def nobody : Nat → Nat → Prop := fun _ _ => False

def silence : Nat → List Event := fun _ => []

def mover (h : Handle) : Nat → Nat → Prop := fun place r => place = h.channel ∧ r = h.reader

namespace Goes

variable {new new' : Nat → List Event} {moved moved' : Nat → Nat → Prop}

theorem refl (h : b.Wired) : b.Goes b silence moved where
  readers_le := Nat.le_refl _
  channel := fun _ ch hch => ⟨ch, hch, rfl, .refl _, fun _ _ _ => rfl⟩
  routed := fun _ _ h => .inl h
  unrouted := fun _ _ h => .inl h
  wired := h

theorem length_le (h : b.Goes b' new moved) : b.channels.length ≤ b'.channels.length := by
  refine Nat.le_of_not_lt fun hlt => ?_
  obtain ⟨ch, hch⟩ : ∃ ch, b.channels[b'.channels.length]? = some ch :=
    ⟨_, List.getElem?_eq_getElem hlt⟩
  obtain ⟨ch', hch', -⟩ := h.channel _ ch hch
  rw [List.getElem?_eq_none (Nat.le_refl _)] at hch'
  cases hch'

theorem trans (h : b.Goes b' new moved) (h' : b'.Goes b'' new' moved') :
    b.Goes b'' (fun place => new place ++ new' place)
      (fun place r => moved place r ∨ moved' place r) where
  readers_le := Nat.le_trans h.readers_le h'.readers_le
  channel := by
    intro place ch hch
    obtain ⟨ch', hch', ht, hlog, hr⟩ := h.channel place ch hch
    obtain ⟨ch'', hch'', ht', hlog', hr'⟩ := h'.channel place ch' hch'
    refine ⟨ch'', hch'', ht'.trans ht, hlog.trans hlog', ?_⟩
    intro r hlt hm
    rw [not_or] at hm
    rw [hr' r (Nat.lt_of_lt_of_le hlt h.readers_le) hm.2, hr r hlt hm.1]
  routed := by
    intro t place hp
    rcases h'.routed t place hp with hp | hp
    · exact h.routed t place hp
    · exact .inr (Nat.le_trans h.length_le hp)
  unrouted := by
    intro t place hp
    have hclosed : ∀ ch', b'.channels[place]? = some ch' → ch'.log.closed = true →
        ∃ ch'', b''.channels[place]? = some ch'' ∧ ch''.log.closed = true := by
      intro ch' hch' hc
      obtain ⟨ch'', hch'', -, hlog, -⟩ := h'.channel place ch' hch'
      exact ⟨ch'', hch'', hlog.closed hc⟩
    rcases h.unrouted t place hp with hp | ⟨ch', hch', hc⟩
    · exact h'.unrouted t place hp
    · exact .inr (hclosed ch' hch' hc)
  wired := h'.wired

/-- More readers may be said to have moved than have. -/
theorem imp (h : b.Goes b' new moved) (hm : ∀ place r, moved place r → moved' place r) :
    b.Goes b' new moved' where
  readers_le := h.readers_le
  channel := by
    intro place ch hch
    obtain ⟨ch', hch', ht, hlog, hr⟩ := h.channel place ch hch
    exact ⟨ch', hch', ht, hlog, fun r hlt hnot => hr r hlt fun hmv => hnot (hm place r hmv)⟩
  routed := h.routed
  unrouted := h.unrouted
  wired := h.wired

/-- Operations that send nothing send nothing together. -/
theorem quiet (h : b.Goes b' silence moved) (h' : b'.Goes b'' silence moved) :
    b.Goes b'' silence moved :=
  (h.trans h').imp fun _ _ hm => hm.elim id id

/-- What is not on a channel, a route or the readers' number is of no account. -/
theorem of_eq (h : b.Goes b' new moved) (hc : b''.channels = b'.channels)
    (hr : b''.routes = b'.routes) (hn : b'.nextReader ≤ b''.nextReader) :
    b.Goes b'' new moved where
  readers_le := Nat.le_trans h.readers_le hn
  channel := by
    rw [hc]
    exact h.channel
  routed := by
    rw [hr]
    exact h.routed
  unrouted := by
    rw [hr, hc]
    exact h.unrouted
  wired := by
    intro t place
    rw [hr, hc]
    exact h.wired t place

end Goes

/-! ## Changing one channel -/

theorem channels_modify (b : Bus) (place i : Nat) (f : TopicChannel → TopicChannel) :
    (b.modify place f).channels[i]? =
      if place = i then (b.channels[i]?).map f else b.channels[i]? := by
  simp only [modify, List.getElem?_modify]
  split
  · rfl
  · simp

/-- A channel is changed in place, and none is closed. -/
theorem modify_goes (hw : b.Wired) {place : Nat} {f : TopicChannel → TopicChannel}
    {new : Nat → List Event} {moved : Nat → Nat → Prop} (ht : ∀ ch, (f ch).topic = ch.topic)
    (hopen : ∀ ch, (f ch).log.closed = ch.log.closed)
    (hlog : ∀ ch : TopicChannel, ch.log.Extends (f ch).log (new place))
    (hnew : ∀ i, i ≠ place → new i = [])
    (hr : ∀ ch r, r < b.nextReader → ¬ moved place r → (f ch).readers.get? r = ch.readers.get? r) :
    b.Goes (b.modify place f) new moved where
  readers_le := Nat.le_refl _
  channel := by
    intro i ch hch
    rw [channels_modify, hch]
    by_cases hi : place = i
    · subst hi
      rw [if_pos rfl]
      exact ⟨f ch, rfl, ht ch, hlog ch, hr ch⟩
    · rw [if_neg hi, hnew i fun e => hi e.symm]
      exact ⟨ch, rfl, rfl, .refl _, fun _ _ _ => rfl⟩
  routed := fun _ _ h => .inl h
  unrouted := fun _ _ h => .inl h
  wired := by
    intro t i hi
    obtain ⟨ch, hch, htopic, hc⟩ := hw t i hi
    rw [channels_modify, hch]
    split
    · exact ⟨f ch, rfl, (ht ch).trans htopic, (hopen ch).trans hc⟩
    · exact ⟨ch, rfl, htopic, hc⟩

/-! ## Publishing -/

/-- What publishing an event sends on each channel: the event, if the channel has its topic
and somebody reads it. -/
def kept (b : Bus) (e : Event) (place : Nat) : List Event :=
  if b.routes.get? e.topic = some place ∧ b.receiverCount e.topic ≠ 0 then [e] else []

theorem publish_goes (hw : b.Wired) (e : Event) : b.Goes (b.publish e).2 (b.kept e) nobody := by
  have hsame : (∀ place, b.kept e place = []) →
      b.Goes { b with published := b.published + 1 } (b.kept e) nobody := by
    intro hk
    rw [show b.kept e = silence from funext hk]
    exact (Goes.refl hw).of_eq rfl rfl (Nat.le_refl _)
  unfold publish
  simp only
  split
  · rename_i hr
    refine hsame fun place => if_neg ?_
    rintro ⟨hp, -⟩
    rw [show b.routes.get? e.topic = none from hr] at hp
    cases hp
  · rename_i place hr
    split
    · rename_i hz
      refine hsame fun place => if_neg ?_
      exact fun hk => hk.2 hz
    · rename_i hz
      have hwp : Wired { b with published := b.published + 1 } := hw
      have hkept : b.kept e place = [e] := if_pos ⟨hr, hz⟩
      have hgo : Goes { b with published := b.published + 1 }
          (modify { b with published := b.published + 1 } place fun ch => ch.push e)
          (b.kept e) nobody := by
        refine modify_goes hwp (fun _ => rfl) (fun _ => rfl) ?_ ?_ (fun _ _ _ _ => rfl)
        · intro ch
          rw [hkept]
          exact .push ch.log e
        · intro i hi
          refine if_neg ?_
          rintro ⟨hp, -⟩
          rw [show b.routes.get? e.topic = some place from hr] at hp
          exact hi (Option.some.inj hp).symm
      exact ⟨hgo.readers_le, hgo.channel, hgo.routed, hgo.unrouted, hgo.wired⟩

/-! ## Subscribing -/

/-- A new channel has nothing on it and nobody reads it. -/
theorem create_goes (hw : b.Wired) {t : Topic} (ht : b.routes.get? t = none) :
    b.Goes (b.create t) silence nobody where
  readers_le := Nat.le_refl _
  channel := by
    intro place ch hch
    obtain ⟨hlt, -⟩ := List.getElem?_eq_some_iff.mp hch
    refine ⟨ch, ?_, rfl, .refl _, fun _ _ _ => rfl⟩
    simp only [create]
    rw [List.getElem?_append_left hlt, hch]
  routed := by
    intro t' place hp
    simp only [create, Table.get?_set] at hp
    split at hp
    · exact .inr (Nat.le_of_eq (Option.some.inj hp))
    · exact .inl hp
  unrouted := by
    intro t' place hp
    left
    simp only [create, Table.get?_set]
    rw [if_neg, hp]
    rintro rfl
    rw [ht] at hp
    cases hp
  wired := by
    intro t' place hp
    simp only [create, Table.get?_set] at hp ⊢
    split at hp
    · rename_i he
      subst he
      cases hp
      refine ⟨_, List.getElem?_concat_length, rfl, rfl⟩
    · obtain ⟨ch, hch, htopic, hc⟩ := hw t' place hp
      obtain ⟨hlt, -⟩ := List.getElem?_eq_some_iff.mp hch
      exact ⟨ch, by rw [List.getElem?_append_left hlt, hch], htopic, hc⟩

theorem attach_goes (hw : b.Wired) (t : Topic) (place : Nat) :
    b.Goes (b.attach t place).2 silence nobody := by
  have hgo : b.Goes (b.modify place fun ch => ch.enter b.nextReader) silence nobody := by
    refine modify_goes hw (fun _ => rfl) (fun _ => rfl) (fun ch => .refl _) (fun _ _ => rfl) ?_
    intro ch r hlt _
    simp only [TopicChannel.enter, Table.get?_set]
    rw [if_neg (Nat.ne_of_gt hlt)]
  exact hgo.of_eq rfl rfl (Nat.le_succ _)

theorem route_goes (hw : b.Wired) (t : Topic) : b.Goes (b.route t).2 silence nobody := by
  unfold route
  split
  · exact .refl hw
  · rename_i ht
    exact create_goes hw ht

theorem subscribe_goes (hw : b.Wired) (t : Topic) : b.Goes (b.subscribe t).2 silence nobody := by
  unfold subscribe
  split
  · exact .refl hw
  · split
    · exact .refl hw
    · have h := route_goes hw t
      exact h.quiet (attach_goes h.wired t _)

/-- Who subscribes gets the next reader, at the end of the channel that the topic is routed to. -/
theorem subscribe_reader (hw : b.Wired) {t : Topic} {hd : Handle}
    (h : b.subscribe t = (.ok hd, b')) :
    hd.topic = t ∧ hd.reader = b.nextReader ∧ b'.nextReader = b.nextReader + 1 ∧
      b'.routes.get? t = some hd.channel ∧
      ∃ ch, b'.channels[hd.channel]? = some ch ∧ ch.topic = t ∧
        ch.readers.get? hd.reader = some ch.log.size := by
  obtain ⟨-, -, htopic, hroute⟩ := subscribe_ok h
  have hgo := subscribe_goes hw t
  rw [h] at hgo
  obtain ⟨ch, hch, hct, -⟩ := hgo.wired t _ hroute
  unfold subscribe at h
  split at h
  · cases h
  · split at h
    · cases h
    · have hnext : (b.route t).2.nextReader = b.nextReader := by
        unfold route
        split <;> rfl
      simp only [Prod.mk.injEq, Except.ok.injEq] at h
      obtain ⟨rfl, rfl⟩ := h
      refine ⟨rfl, hnext, by rw [← hnext]; rfl, hroute, ch, hch, hct, ?_⟩
      have hmod := channels_modify (b.route t).2 (b.route t).1 (b.route t).1
        fun ch => ch.enter (b.route t).2.nextReader
      rw [if_pos rfl] at hmod
      have hch' : ((b.route t).2.channels[(b.route t).1]?).map
          (fun ch => ch.enter (b.route t).2.nextReader) = some ch := hmod ▸ hch
      obtain ⟨ch₀, -, rfl⟩ := Option.map_eq_some_iff.mp hch'
      show (ch₀.readers.set _ ch₀.log.tail).get? _ = _
      rw [Table.get?_set]
      exact if_pos rfl

/-! ## Ending channels -/

theorem endChannel_channel (b : Bus) (place i : Nat) {ch : TopicChannel}
    (h : b.channels[i]? = some ch) :
    ∃ ch', (b.endChannel place).channels[i]? = some ch' ∧ ch'.topic = ch.topic ∧
      ch.log.Extends ch'.log [] ∧ ch'.readers = ch.readers ∧
      (place = i → ch'.log.closed = true) := by
  rw [endChannel, channels_modify, h]
  by_cases hi : place = i
  · rw [if_pos hi]
    exact ⟨ch.close, rfl, rfl, .close ch.log, rfl, fun _ => rfl⟩
  · rw [if_neg hi]
    exact ⟨ch, rfl, rfl, .refl _, rfl, fun e => absurd e hi⟩

/-- Ending a topic sends nothing and moves no reader; it closes the channel and takes the route. -/
theorem unsubscribe_goes (hw : b.Wired) (t : Topic) :
    b.Goes (b.unsubscribe t).2 silence nobody := by
  unfold unsubscribe
  split
  · rename_i place hp
    constructor
    · exact Nat.le_refl _
    · intro i ch hch
      obtain ⟨ch', hch', ht, hlog, hr, -⟩ := endChannel_channel b place i hch
      exact ⟨ch', hch', ht, hlog, fun _ _ _ => by rw [hr]⟩
    · intro t' i hi
      simp only [Table.get?_erase] at hi
      split at hi
      · cases hi
      · exact .inl hi
    · intro t' i hi
      by_cases ht : t = t'
      · subst ht
        obtain ⟨ch, hch, -⟩ := hw t i hi
        obtain ⟨ch', hch', -, -, -, hc⟩ := endChannel_channel b place i hch
        rw [hp] at hi
        exact .inr ⟨ch', hch', hc (Option.some.inj hi)⟩
      · left
        simp only [Table.get?_erase]
        rw [if_neg ht, hi]
    · intro t' i hi
      simp only [Table.get?_erase] at hi
      split at hi
      · cases hi
      · rename_i ht
        obtain ⟨ch, hch, htopic, hc⟩ := hw t' i hi
        have hne : place ≠ i := by
          rintro rfl
          exact ht (hw.unique hp hi)
        refine ⟨ch, ?_, htopic, hc⟩
        show (b.endChannel place).channels[i]? = some ch
        rw [endChannel, channels_modify, if_neg hne, hch]
  · exact .refl hw

theorem foldl_endChannel (places : List Nat) (b : Bus) {i : Nat} {ch : TopicChannel}
    (h : b.channels[i]? = some ch) :
    ∃ ch', (places.foldl endChannel b).channels[i]? = some ch' ∧ ch'.topic = ch.topic ∧
      ch.log.Extends ch'.log [] ∧ ch'.readers = ch.readers ∧
      (i ∈ places → ch'.log.closed = true) := by
  induction places generalizing b ch with
  | nil => exact ⟨ch, h, rfl, .refl _, rfl, by simp⟩
  | cons place rest ih =>
    obtain ⟨ch₁, h₁, ht₁, hlog₁, hr₁, hc₁⟩ := endChannel_channel b place i h
    obtain ⟨ch₂, h₂, ht₂, hlog₂, hr₂, hc₂⟩ := ih (b.endChannel place) h₁
    refine ⟨ch₂, h₂, ht₂.trans ht₁, hlog₁.trans hlog₂, hr₂.trans hr₁, fun hm => ?_⟩
    rcases List.mem_cons.mp hm with rfl | hm
    · exact hlog₂.closed (hc₁ rfl)
    · exact hc₂ hm

theorem foldl_endChannel_reader (places : List Nat) (b : Bus) :
    (places.foldl endChannel b).nextReader = b.nextReader := by
  induction places generalizing b with
  | nil => rfl
  | cons place rest ih => exact ih (b.endChannel place)

theorem close_goes (hw : b.Wired) : b.Goes b.close silence nobody where
  readers_le := Nat.le_of_eq (foldl_endChannel_reader _ b).symm
  channel := by
    intro i ch hch
    obtain ⟨ch', hch', ht, hlog, hr, -⟩ := foldl_endChannel b.routes.values b hch
    exact ⟨ch', hch', ht, hlog, fun _ _ _ => by rw [hr]⟩
  routed := by simp [close]
  unrouted := by
    intro t i hi
    obtain ⟨ch, hch, -⟩ := hw t i hi
    obtain ⟨ch', hch', -, -, -, hc⟩ := foldl_endChannel b.routes.values b hch
    exact .inr ⟨ch', hch', hc (Table.mem_values_of_get? hi)⟩
  wired := by simp [Wired, close]

/-! ## Reading and leaving -/

theorem advance_goes (hw : b.Wired) (h : Handle) (next : Nat) :
    b.Goes (b.advance h next) silence (mover h) := by
  refine modify_goes hw (fun _ => rfl) (fun _ => rfl) (fun ch => .refl _) (fun _ _ => rfl) ?_
  intro ch r _ hm
  simp only [TopicChannel.move, Table.get?_set]
  rw [if_neg fun e => hm ⟨rfl, e.symm⟩]

theorem drop_goes (hw : b.Wired) (h : Handle) : b.Goes (b.drop h) silence (mover h) := by
  refine modify_goes hw (fun _ => rfl) (fun _ => rfl) (fun ch => .refl _) (fun _ _ => rfl) ?_
  intro ch r _ hm
  simp only [TopicChannel.leave, Table.get?_erase]
  rw [if_neg fun e => hm ⟨rfl, e.symm⟩]

theorem receive_goes (hw : b.Wired) (h : Handle) :
    b.Goes (b.receive h).2 silence (mover h) := by
  unfold receive
  split
  · exact .refl hw
  · exact advance_goes hw h _

theorem position?_eq_some {h : Handle} {ch : TopicChannel} {next : Nat} :
    b.position? h = some (ch, next) ↔
      b.channels[h.channel]? = some ch ∧ ch.readers.get? h.reader = some next := by
  unfold position?
  cases hc : b.channels[h.channel]? with
  | none => simp [bind, Option.bind]
  | some ch' =>
    cases hr : ch'.readers.get? h.reader with
    | none =>
      simp only [bind, Option.bind, hr, reduceCtorEq, Option.some.injEq, false_iff, not_and]
      rintro rfl
      simp [hr]
    | some next' =>
      simp only [bind, Option.bind, hr, pure, Option.some.injEq, Prod.mk.injEq]
      constructor
      · rintro ⟨rfl, rfl⟩
        exact ⟨rfl, hr⟩
      · rintro ⟨rfl, h'⟩
        rw [hr] at h'
        exact ⟨rfl, Option.some.inj h'⟩

/-- Reading through a handle is reading the channel where the reader is, and moving the reader. -/
theorem read?_eq_some {h : Handle} {item : Item Event} (hr : b.read? h = some (item, b')) :
    ∃ ch next next', b.channels[h.channel]? = some ch ∧ ch.readers.get? h.reader = some next ∧
      ch.log.read? next = some (item, next') ∧ b' = b.advance h next' := by
  unfold read? at hr
  cases hp : b.position? h with
  | none => simp [hp, bind, Option.bind] at hr
  | some pair =>
    obtain ⟨ch, next⟩ := pair
    obtain ⟨hch, hnext⟩ := position?_eq_some.mp hp
    simp only [hp, bind, Option.bind] at hr
    cases hread : ch.log.read? next with
    | none => simp [hread] at hr
    | some answer =>
      obtain ⟨item', next'⟩ := answer
      simp only [hread, pure, Option.some.injEq, Prod.mk.injEq] at hr
      obtain ⟨rfl, rfl⟩ := hr
      exact ⟨ch, next, next', hch, hnext, hread, rfl⟩

/-- The reader of a handle has been moved, and its channel is as it was. -/
theorem advance_channel {h : Handle} {ch : TopicChannel} (next : Nat)
    (hch : b.channels[h.channel]? = some ch) :
    (b.advance h next).channels[h.channel]? = some (ch.move h.reader next) ∧
      (ch.move h.reader next).readers.get? h.reader = some next := by
  refine ⟨?_, ?_⟩
  · rw [advance, channels_modify, if_pos rfl, hch]
    rfl
  · simp only [TopicChannel.move, Table.get?_set, if_pos]

end EventFanout.Bus
