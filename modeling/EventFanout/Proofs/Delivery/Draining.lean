/-
EventFanout.Proofs.Delivery.Draining — what is left on a channel that has ended.

Anybody who uses the bus can end a topic at any time, and a hub that reads the topic may be far
behind by then. Nothing is added to a channel that has ended: what the hub dispatches through its
handle from then on, and what the channel still holds for it, make up at any time what was held
when the channel ended (`after_drains`). The end is there to be read when nothing is held any more
(`heldFor_of_ended`).

A hub that does not have the handle any more has either read the end, or has given the topic up
before it came to that: the last subscription there was removed, or the hub stopped (`act_lost`).

Main statement: `drained_of_ended`, for every run that begins with a channel that has ended.
-/
import EventFanout.Proofs.Bus.Receiving
import EventFanout.Proofs.Delivery.EndToEnd
import EventFanout.Proofs.Hub.Progress

namespace EventFanout

namespace World

variable {w : World} {t : Topic} {h : Handle} {ch : TopicChannel} {next : Nat} {run : List Action}

/-! ## Topics that are read -/

/-- What is next to be read from a topic is read through a handle, and handed on. -/
theorem reading_of_item {item : Item Event} (hitem : w.item? t = some item) :
    ∃ h ch next next', w.hub.feeds.get? t = some h ∧ w.bus.position? h = some (ch, next) ∧
      ch.log.read? next = some (item, next') ∧
      w.perform (.read t) = { w with bus := w.bus.advance h next' }.dispatch t item := by
  obtain ⟨⟨item', bus⟩, hread, rfl⟩ := Option.map_eq_some_iff.mp hitem
  obtain ⟨h, ht, hr⟩ := Option.bind_eq_some_iff.mp hread
  obtain ⟨ch, next, next', hch, hnext, hitem', rfl⟩ := Bus.read?_eq_some hr
  refine ⟨h, ch, next, next', ht, Bus.position?_eq_some.mpr ⟨hch, hnext⟩, hitem', ?_⟩
  simp only [perform, hread]

theorem perform_of_no_item (hno : w.item? t = none) : w.perform (.read t) = w := by
  simp only [perform, Option.map_eq_none_iff.mp hno]

/-- The end of a channel is next when nothing is held any more. -/
theorem heldFor_of_ended (ht : w.hub.feeds.get? t = some h) (hitem : w.item? t = some .ended) :
    w.bus.heldFor h = [] := by
  obtain ⟨h', ch, next, next', ht', hp, hread, -⟩ := reading_of_item hitem
  obtain rfl : h' = h := Option.some.inj (ht'.symm.trans ht)
  rw [Bus.heldFor_eq hp]
  rw [Channel.read?_eq] at hread
  split at hread
  · cases hread
  · split at hread
    · cases hread
    · assumption

/-! ## Nothing is added -/

/-- Nothing is published on a channel that has ended. -/
theorem published_of_ended (hf : w.Fed) (hch : w.bus.channels[h.channel]? = some ch)
    (hend : ch.log.closed = true) (a : Action) : published h.channel w a = none := by
  cases a with
  | publish e =>
    refine if_neg fun hroute => ?_
    obtain ⟨ch', hch', -, hopen⟩ := hf.wired e.topic h.channel hroute
    obtain rfl : ch = ch' := Option.some.inj (hch.symm.trans hch')
    rw [hend] at hopen
    cases hopen
  | _ => rfl

/-- Every action keeps what has been dispatched and what is held together. -/
theorem act_drains (hw : w.Orderly) (ht : w.Tracked h ch next) (hend : ch.log.closed = true)
    (a : Action) : ∃ ch' next', (w.act a).Tracked h ch' next' ∧ ch'.log.closed = true ∧
      ((dispatched h w a).map (·.2)).toList ++ ch'.log.held next' = ch.log.held next := by
  obtain ⟨ch', next', ht', hlog, hmove⟩ := act_tracked hw.fed hw.sound.consistent ht a
  rw [published_of_ended hw.fed ht.channel hend, Option.toList_none] at hlog
  refine ⟨ch', next', ht', hlog.closed hend, ?_⟩
  rw [hlog.held_eq]
  rcases hmove with ⟨rfl, hnone⟩ | ⟨-, hmove⟩
  · rw [hnone]
    rfl
  · exact hmove.held

def eventsThrough (h : Handle) (w : World) (run : List Action) : List Event :=
  (along (dispatched h) w run).map (·.2)

/-- So does a run. -/
theorem after_drains (hw : w.Orderly) (ht : w.Tracked h ch next) (hend : ch.log.closed = true)
    (run : List Action) : ∃ ch' next', (w.after run).Tracked h ch' next' ∧ ch'.log.closed = true ∧
      eventsThrough h w run ++ ch'.log.held next' = ch.log.held next := by
  induction run generalizing w ch next with
  | nil => exact ⟨ch, next, ht, hend, rfl⟩
  | cons a rest ih =>
    obtain ⟨ch₁, next₁, ht₁, hend₁, hone⟩ := act_drains hw ht hend a
    obtain ⟨ch', next', ht', hend', hrest⟩ := ih (hw.act a) ht₁ hend₁
    refine ⟨ch', next', ht', hend', ?_⟩
    rw [eventsThrough, along, List.map_append, List.append_assoc, ← hone, ← hrest,
      Option.toList_map]
    rfl

/-- A handle that the hub reads a topic through is followed from there. -/
theorem tracked_of_feed (hf : w.Fed) (ht : w.hub.feeds.get? t = some h) :
    ∃ ch next, w.Tracked h ch next := by
  have hserves := hf.serves t h ht
  obtain rfl := hserves.topic
  obtain ⟨ch, next, hch, -, hnext, -⟩ := hserves.channel
  exact ⟨ch, next, hch, hserves.known, fun _ => hnext, fun hno => absurd ht hno⟩

/-! ## Leaving off -/

/-- The hub takes note in a step that a topic has ended, or gives the topic up. -/
def LeavesOff (w : World) (t : Topic) (turn : Turn) : Prop :=
  turn = .read t ∧ w.item? t = some .ended ∨ w.givesUp t turn

/-- Only so does the hub lose the handle that it reads a topic through. -/
theorem act_lost (hw : w.Orderly) (ht : w.hub.feeds.get? t = some h) {a : Action}
    (hlost : (w.act a).hub.feeds.get? t ≠ some h) :
    ∃ turn, a = .turn turn ∧ w.LeavesOff t turn := by
  by_cases ha : ∃ turn, a = .turn turn
  · obtain ⟨turn, rfl⟩ := ha
    refine ⟨turn, rfl, ?_⟩
    have hs := hw.sound.consistent
    have hin := hs.contains_of_feed ht
    have hr := hw.sound.running hin
    rw [act, if_pos hr] at hlost
    have hnone := (perform_feed hw.fed hs turn ht).resolve_left hlost
    have hs' := ((perform_evolves hr turn).sound hw.sound).consistent
    have hlast := listeners_of_contains hs hs' ⟨hin, hs'.feed_eq_none_iff.mp hnone⟩
    cases turn with
    | stop => exact .inr hlast.1
    | install =>
      -- installing gives no handle up
      rcases install_feeds hs with ⟨-, hx⟩ | ⟨t₀, hd, bus, -, -, -, hx⟩
      · rw [hx, ht] at hnone
        cases hnone
      · rw [hx, Table.get?_set] at hnone
        split at hnone
        · cases hnone
        · rw [ht] at hnone
          cases hnone
    | remove => exact .inr hlast
    | read t' =>
      cases hitem : w.item? t' with
      | none =>
        rw [perform_of_no_item hitem, ht] at hnone
        cases hnone
      | some item =>
        obtain ⟨h', ch, next, next', -, -, -, hread⟩ := reading_of_item hitem
        rw [hread] at hnone
        cases item with
        | entry e => exact .inr ⟨⟨e, hitem⟩, hlast⟩
        | lagged n => exact absurd (ht.symm.trans hnone) (by simp)
        | ended =>
          by_cases he : t' = t
          · subst he
            exact .inl ⟨rfl, hitem⟩
          · rcases closeTopic_cases (w := { w with bus := w.bus.advance h' next' })
              hs.ids_once t' with ⟨-, hsame⟩ | ⟨-, m, hhub⟩
            · rw [dispatch, hsame, ht] at hnone
              cases hnone
            · rw [dispatch, hhub, Table.get?_erase, if_neg he, ht] at hnone
              cases hnone
  · rw [(act_sameLoop w fun turn he => ha ⟨turn, he⟩).feeds] at hlost
    exact absurd ht hlost

/-- A handle that the hub has had and has no more was lost at some step. -/
theorem after_lost (hw : w.Orderly) (ht : w.hub.feeds.get? t = some h)
    (hlost : (w.after run).hub.feeds.get? t ≠ some h) :
    ∃ earlier turn, earlier ++ [.turn turn] <+: run ∧
      (w.after earlier).hub.feeds.get? t = some h ∧ (w.after earlier).LeavesOff t turn := by
  induction run using List.reverseRecOn with
  | nil => exact absurd ht hlost
  | append_singleton run a ih =>
    by_cases hkept : (w.after run).hub.feeds.get? t = some h
    · rw [after_concat] at hlost
      obtain ⟨turn, rfl, hleaves⟩ := act_lost (hw.after run) hkept hlost
      exact ⟨run, turn, List.prefix_refl _, hkept, hleaves⟩
    · obtain ⟨earlier, turn, hpre, hrest⟩ := ih hkept
      exact ⟨earlier, turn, hpre.trans (List.prefix_append _ _), hrest⟩

/-! ## The whole -/

/-- What has come, after a run, of a topic whose channel had ended when the run began. -/
structure Drained (w : World) (t : Topic) (h : Handle) (run : List Action) : Prop where
  /-- As long as the hub has the handle, it has dispatched what is not held any more, in order, and
  there is something for it to read. -/
  going : (w.after run).hub.feeds.get? t = some h →
    eventsThrough h w run ++ (w.after run).bus.heldFor h = w.bus.heldFor h ∧
      (w.after run).isReady t = true
  /-- When the end is next, it has dispatched everything. -/
  ended : (w.after run).hub.feeds.get? t = some h → (w.after run).item? t = some .ended →
    eventsThrough h w run = w.bus.heldFor h
  /-- Otherwise it has read the end, or has given the topic up before. -/
  lost : (w.after run).hub.feeds.get? t ≠ some h →
    ∃ earlier turn, earlier ++ [.turn turn] <+: run ∧
      (w.after earlier).hub.feeds.get? t = some h ∧ (w.after earlier).LeavesOff t turn

/-- On a channel that has ended there is always something to read. -/
theorem isReady_of_ended (ht : w.hub.feeds.get? t = some h)
    (hp : w.bus.position? h = some (ch, next)) (hend : ch.log.closed = true) : w.isReady t = true := by
  rw [isReady, ht, Option.bind_some, Bus.read?_eq hp, Option.isSome_map, Channel.read?_eq]
  split
  · rfl
  · split <;> rfl

/-- **Everything that is held on a channel that has ended is dispatched before its end.** -/
theorem drained_of_ended (hw : w.Orderly) (ht : w.hub.feeds.get? t = some h)
    (hend : w.bus.hasEnded h = true) (run : List Action) : Drained w t h run := by
  have htopic := (hw.fed.serves t h ht).topic
  obtain ⟨ch, next, htrack⟩ := tracked_of_feed hw.fed ht
  rw [Bus.hasEnded_eq htrack.channel] at hend
  have hheld := Bus.heldFor_eq (htrack.position (htopic ▸ ht))
  obtain ⟨ch', next', htrack', hend', hsum⟩ := after_drains hw htrack hend run
  have hgoing : (w.after run).hub.feeds.get? t = some h →
      eventsThrough h w run ++ (w.after run).bus.heldFor h = w.bus.heldFor h ∧
        (w.after run).isReady t = true := by
    intro hkept
    have hp := htrack'.position (htopic ▸ hkept)
    rw [Bus.heldFor_eq hp, hheld, hsum]
    exact ⟨rfl, isReady_of_ended hkept hp hend'⟩
  refine ⟨hgoing, fun hkept hitem => ?_, after_lost hw ht⟩
  rw [← (hgoing hkept).1, heldFor_of_ended hkept hitem, List.append_nil]

/-- A hub that works until it rests does not keep a handle on a channel that has ended. -/
theorem lost_at_rest (hw : w.Orderly) (ht : w.hub.feeds.get? t = some h)
    (hend : w.bus.hasEnded h = true) : w.runHub.hub.feeds.get? t ≠ some h := by
  intro hkept
  have hrests := runHub_rests hw.fed hw.sound
  obtain ⟨run, hrun⟩ := runHub_after w
  rw [hrun] at hkept hrests
  have hready := ((drained_of_ended hw ht hend run).going hkept).2
  have hs := (hw.after run).sound
  have hr := hs.running (hs.consistent.contains_of_feed hkept)
  have hkey := Table.mem_keys_of_get? hkept
  simp only [turn?, hr, Bool.not_true, Bool.false_eq_true, if_false] at hrests
  split at hrests
  · cases hrests
  · split at hrests
    · cases hrests
    · split at hrests
      · cases hrests
      · rw [Option.map_eq_none_iff, List.find?_eq_none] at hrests
        exact hrests t hkey hready

end World

end EventFanout
