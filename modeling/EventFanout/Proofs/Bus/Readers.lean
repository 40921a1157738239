/-
EventFanout.Proofs.Bus.Readers — who reads the channels on record.

`Bus.readersAt` is the table of the readers at a place on record. Sending and ending channels
leaves it alone; a subscription adds the next reader, a handle that is dropped takes its reader
away, and receiving moves a reader that is there.
-/
import EventFanout.Proofs.Bus.Register
import EventFanout.Proofs.Hub.Feeds

namespace EventFanout

def Bus.readersAt (b : Bus) (place : Nat) : Table Nat Nat :=
  match b.channels[place]? with
  | some ch => ch.readers
  | none => {}

namespace Bus

variable {b : Bus} {h : Handle}

theorem readersAt_eq {place : Nat} {ch : TopicChannel} (hch : b.channels[place]? = some ch) :
    b.readersAt place = ch.readers := by simp only [readersAt, hch]

theorem readersAt_modify (b : Bus) (place i : Nat) {f : TopicChannel → TopicChannel} :
    (b.modify place f).readersAt i =
      if place = i then ((b.channels[i]?).map fun ch => (f ch).readers).getD {}
      else b.readersAt i := by
  simp only [readersAt, channels_modify]
  by_cases hi : place = i
  · simp only [hi, if_true]
    cases b.channels[i]? <;> rfl
  · simp only [if_neg hi]

/-- A change that keeps the readers of a channel keeps all of them. -/
theorem readersAt_modify_same (b : Bus) (place i : Nat) {f : TopicChannel → TopicChannel}
    (hf : ∀ ch, (f ch).readers = ch.readers) :
    (b.modify place f).readersAt i = b.readersAt i := by
  rw [readersAt_modify, readersAt]
  split
  · simp only [hf]
    cases b.channels[i]? <;> rfl
  · rfl

/-- An event that is published goes to the channel its topic is routed to, if anybody reads that,
and to no other. -/
theorem publish_channels (e : Event) {place : Nat} {ch : TopicChannel}
    (hroute : b.routes.get? e.topic = some place) (hch : b.channels[place]? = some ch) :
    (b.publish e).1 = ch.readers.size ∧ ∀ i, (b.publish e).2.channels[i]? =
      if i = place ∧ ch.readers.size ≠ 0 then some (ch.push e) else b.channels[i]? := by
  have hcount : receiverCount { b with published := b.published + 1 } e.topic =
      ch.readers.size := by
    simp only [receiverCount, channel?, hroute, bind, Option.bind, hch]
  unfold publish
  simp only [hroute, hcount]
  by_cases hz : ch.readers.size = 0
  · simp [hz]
  · simp only [if_neg hz, true_and]
    intro i
    refine (channels_modify { b with published := b.published + 1 } place i _).trans ?_
    by_cases hi : i = place
    · subst hi
      simp [hz, hch]
    · have hi' : ¬ place = i := fun he => hi he.symm
      simp [hi, hi']

theorem readersAt_publish (b : Bus) (e : Event) (i : Nat) :
    (b.publish e).2.readersAt i = b.readersAt i := by
  unfold publish
  simp only
  split
  · rfl
  · split
    · rfl
    · exact readersAt_modify_same { b with published := b.published + 1 } _ i
        (f := fun ch => ch.push e) fun _ => rfl

theorem readersAt_endChannel (b : Bus) (place i : Nat) :
    (b.endChannel place).readersAt i = b.readersAt i :=
  readersAt_modify_same b place i fun _ => rfl

theorem readersAt_unsubscribe (b : Bus) (t : Topic) (i : Nat) :
    (b.unsubscribe t).2.readersAt i = b.readersAt i := by
  unfold unsubscribe
  split
  · exact readersAt_endChannel b _ i
  · rfl

theorem readersAt_close (b : Bus) (i : Nat) : b.close.readersAt i = b.readersAt i := by
  have hfold : ∀ (places : List Nat) (b : Bus),
      (places.foldl endChannel b).readersAt i = b.readersAt i := by
    intro places
    induction places with
    | nil => exact fun _ => rfl
    | cons place rest ih => exact fun b => (ih _).trans (readersAt_endChannel b place i)
  exact hfold b.routes.values b

theorem readersAt_drop (b : Bus) (h : Handle) (i : Nat) :
    (b.drop h).readersAt i =
      if h.channel = i then (b.readersAt i).erase h.reader else b.readersAt i := by
  rw [drop, readersAt_modify, readersAt]
  split
  · cases b.channels[i]? <;> rfl
  · rfl

/-- Receiving moves a reader that is there. -/
theorem keys_readersAt_receive (b : Bus) (h : Handle) (i : Nat) :
    ((b.receive h).2.readersAt i).keys = (b.readersAt i).keys := by
  unfold receive
  split
  · rfl
  · rename_i ch position hp
    obtain ⟨hch, hr⟩ := position?_eq_some.mp hp
    show ((b.advance h _).readersAt i).keys = _
    rw [advance, readersAt_modify]
    split
    · rename_i hi
      subst hi
      simp only [hch, Option.map_some, Option.getD_some, readersAt_eq hch, TopicChannel.move]
      exact Table.keys_set_of_mem _ (Table.mem_keys_of_get? hr)
    · rfl

theorem channel_route (hw : b.Wired) (t : Topic) :
    ∃ ch, (b.route t).2.channels[(b.route t).1]? = some ch := by
  unfold route
  split
  · rename_i place hp
    obtain ⟨ch, hch, -⟩ := hw t place hp
    exact ⟨ch, hch⟩
  · exact ⟨_, List.getElem?_concat_length⟩

theorem readersAt_route (b : Bus) (t : Topic) (i : Nat) :
    (b.route t).2.readersAt i = b.readersAt i := by
  unfold route
  split
  · rfl
  · by_cases hi : i < b.channels.length
    · simp only [readersAt, create, List.getElem?_append_left hi]
    · have hge := Nat.le_of_not_lt hi
      simp only [readersAt, create, List.getElem?_append_right hge, List.getElem?_eq_none hge]
      cases i - b.channels.length <;> rfl

theorem readersAt_attach (t : Topic) {place : Nat} {ch : TopicChannel}
    (hch : b.channels[place]? = some ch) (i : Nat) :
    (b.attach t place).2.readersAt i =
      if place = i then (b.readersAt i).set b.nextReader ch.log.tail else b.readersAt i := by
  refine (readersAt_modify b place i (f := fun ch => ch.enter b.nextReader)).trans ?_
  split
  · rename_i hi
    subst hi
    rw [hch, readersAt_eq hch]
    rfl
  · rfl

/-- Who subscribes is a new reader of its channel, after those that were there. -/
theorem readersAt_subscribe {b' : Bus} {t : Topic} (hw : b.Wired)
    (hs : b.subscribe t = (.ok h, b')) :
    ∃ next, ∀ i, b'.readersAt i =
      if h.channel = i then (b.readersAt i).set h.reader next else b.readersAt i := by
  obtain ⟨-, hreader, -⟩ := subscribe_reader hw hs
  unfold subscribe at hs
  split at hs
  · cases hs
  · split at hs
    · cases hs
    · obtain ⟨ch, hch⟩ := channel_route hw t
      simp only [Prod.mk.injEq, Except.ok.injEq] at hs
      obtain ⟨rfl, rfl⟩ := hs
      refine ⟨ch.log.tail, fun i => (readersAt_attach t hch i).trans ?_⟩
      rw [readersAt_route]
      rfl

/-- Receiving leaves a reader within what has been sent. -/
theorem receive_serves {t : Topic} (hs : b.Serves t h) :
    (b.receive h).2.Serves t h := by
  obtain ⟨htopic, hknown, ch, next, hch, ht, hr, hle, hroute⟩ := hs
  have hp : b.position? h = some (ch, next) := position?_eq_some.mpr ⟨hch, hr⟩
  have hle' : (ch.log.receive next).2 ≤ ch.log.size := by
    have hold := ch.log.oldest_le_tail
    rcases ch.log.receive_cases next with ⟨a, ha, he⟩ | ⟨-, he⟩
    · obtain ⟨hlt, -⟩ := List.getElem?_eq_some_iff.mp ha
      rw [Channel.length_sent] at hlt
      rw [he]
      exact hlt
    · rw [he]
      exact Nat.max_le.mpr ⟨hle, hold⟩
  have he : (b.receive h).2 = b.advance h (ch.log.receive next).2 := by simp only [receive, hp]
  obtain ⟨hch', hr'⟩ := advance_channel (ch.log.receive next).2 hch
  rw [he]
  exact ⟨htopic, hknown, _, _, hch', ht, hr', hle', hroute⟩

end Bus

end EventFanout
