/-
EventFanout.Proofs.Bus.Commuting — giving topics up in either order.

To give a handle up takes its reader off a channel, to unsubscribe a topic closes the channel of the
topic and takes its route away. Neither looks at what the other changes, so what results on the bus
does not depend on which comes first (`drop_comm`, `unsubscribe_drop`, `unsubscribe_comm`).
-/
import EventFanout.Proofs.Bus

namespace EventFanout.Bus

variable {b : Bus}

/-- Changes of two channels, or two changes that can be made in either order on one. -/
theorem modify_comm (b : Bus) (i j : Nat) {f g : TopicChannel → TopicChannel}
    (h : i = j → ∀ ch, g (f ch) = f (g ch)) :
    (b.modify i f).modify j g = (b.modify j g).modify i f := by
  have hchannels : ((b.modify i f).modify j g).channels = ((b.modify j g).modify i f).channels := by
    refine List.ext_getElem? fun place => ?_
    rw [channels_modify, channels_modify, channels_modify, channels_modify]
    cases b.channels[place]? with
    | none => simp
    | some ch =>
      by_cases hi : i = place <;> by_cases hj : j = place
      · simp [hi, hj, h (hi.trans hj.symm) ch]
      · simp [hi, hj]
      · simp [hi, hj]
      · simp [hi, hj]
  show { b with channels := ((b.modify i f).modify j g).channels } =
    { b with channels := ((b.modify j g).modify i f).channels }
  rw [hchannels]

theorem drop_comm (b : Bus) (h h' : Handle) : (b.drop h).drop h' = (b.drop h').drop h := by
  refine modify_comm b h.channel h'.channel fun _ ch => ?_
  simp only [TopicChannel.leave, Table.erase_comm ch.readers h.reader]

theorem endChannel_drop (b : Bus) (place : Nat) (h : Handle) :
    (b.endChannel place).drop h = (b.drop h).endChannel place :=
  modify_comm b place h.channel fun _ _ => rfl

theorem unsubscribe_eq (b : Bus) (t : Topic) :
    (b.unsubscribe t).2 =
      match b.routes.get? t with
      | some place => { b.endChannel place with routes := b.routes.erase t }
      | none => b := by
  unfold unsubscribe
  cases b.routes.get? t <;> rfl

theorem unsubscribe_drop (b : Bus) (t : Topic) (h : Handle) :
    (b.unsubscribe t).2.drop h = ((b.drop h).unsubscribe t).2 := by
  rw [unsubscribe_eq, unsubscribe_eq, show (b.drop h).routes = b.routes from rfl]
  cases b.routes.get? t with
  | none => rfl
  | some place =>
    show { (b.endChannel place).drop h with routes := b.routes.erase t } =
      { (b.drop h).endChannel place with routes := b.routes.erase t }
    rw [endChannel_drop]

/-- Ending two topics: each has its own route and its own channel. -/
theorem unsubscribe_comm (b : Bus) {t t' : Topic} (hne : t ≠ t') :
    ((b.unsubscribe t).2.unsubscribe t').2 = ((b.unsubscribe t').2.unsubscribe t).2 := by
  have hroute : ∀ {t t' : Topic}, t ≠ t' →
      (b.unsubscribe t).2.routes.get? t' = b.routes.get? t' := by
    intro t t' hne
    rw [unsubscribe_eq]
    cases b.routes.get? t with
    | none => rfl
    | some place => exact (Table.get?_erase _ _ _).trans (if_neg hne)
  rw [unsubscribe_eq (b.unsubscribe t).2, hroute hne, unsubscribe_eq (b.unsubscribe t').2,
    hroute hne.symm, unsubscribe_eq b t, unsubscribe_eq b t']
  cases b.routes.get? t with
  | none => cases b.routes.get? t' <;> rfl
  | some place =>
    cases b.routes.get? t' with
    | none => rfl
    | some place' =>
      have hends : (b.endChannel place).endChannel place' = (b.endChannel place').endChannel place :=
        modify_comm b place place' fun _ _ => rfl
      show { (b.endChannel place).endChannel place' with
          routes := (b.routes.erase t).erase t' } =
        { (b.endChannel place').endChannel place with routes := (b.routes.erase t').erase t }
      rw [hends, Table.erase_comm]

def dropped (b : Bus) : Option Handle → Bus
  | some h => b.drop h
  | none => b

theorem dropped_comm (b : Bus) (h h' : Option Handle) :
    (b.dropped h).dropped h' = (b.dropped h').dropped h := by
  cases h <;> cases h'
  case some.some h h' => exact drop_comm b h h'
  all_goals rfl

theorem unsubscribe_dropped (b : Bus) (t : Topic) (h : Option Handle) :
    (b.unsubscribe t).2.dropped h = ((b.dropped h).unsubscribe t).2 := by
  cases h with
  | some h => exact unsubscribe_drop b t h
  | none => rfl

end EventFanout.Bus
