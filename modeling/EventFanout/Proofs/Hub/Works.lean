/-
EventFanout.Proofs.Hub.Works — what the hub's work may change.

The hub at work changes the bus, itself and the lines to its clients, never its configuration, and
nothing else of the world (`World.Works`): not what clients hold, not the clock, and not the books
of the polling filters.

Main statement: `perform_works`, for every turn of the loop.
-/
import EventFanout.Hub.Turn
import EventFanout.Proofs.Hub.Lines

namespace EventFanout.World

/-- The bus, the hub but for its configuration and the lines may have changed, and nothing else. -/
def Works (w w' : World) : Prop :=
  ∃ bus hub lines, w' = { w with bus := bus, hub := hub, lines := lines } ∧
    hub.config = w.hub.config

variable {w w' : World}

namespace Works

theorem refl (w : World) : w.Works w := ⟨w.bus, w.hub, w.lines, rfl, rfl⟩

theorem trans {w'' : World} (h : w.Works w') (h' : w'.Works w'') : w.Works w'' := by
  obtain ⟨bus, hub, lines, rfl, hconfig⟩ := h
  obtain ⟨bus', hub', lines', rfl, hconfig'⟩ := h'
  exact ⟨bus', hub', lines', rfl, hconfig'.trans hconfig⟩

theorem config (h : w.Works w') : w'.hub.config = w.hub.config := by
  obtain ⟨bus, hub, lines, rfl, hconfig⟩ := h
  exact hconfig

theorem polling (h : w.Works w') : w'.polling = w.polling := by
  obtain ⟨bus, hub, lines, rfl, -⟩ := h
  rfl

theorem now (h : w.Works w') : w'.now = w.now := by
  obtain ⟨bus, hub, lines, rfl, -⟩ := h
  rfl

theorem foldl {α : Type} {f : World → α → World} (hf : ∀ w a, Works w (f w a)) (l : List α)
    (w : World) : w.Works (l.foldl f w) := by
  induction l generalizing w with
  | nil => exact .refl w
  | cons a rest ih => exact (hf w a).trans (ih (f w a))

end Works

theorem dropFeed_works (w : World) (t : Topic) : w.Works (w.dropFeed t) := by
  unfold dropFeed
  split
  · exact ⟨_, _, _, rfl, rfl⟩
  · exact .refl w

theorem releaseOnBus_works (w : World) (t : Topic) : w.Works (w.releaseOnBus t) :=
  (dropFeed_works w t).trans ⟨_, _, _, rfl, rfl⟩

theorem releaseTopic_works (w : World) (t : Topic) : w.Works (w.releaseTopic t) := by
  rcases releaseTopic_cases w t with ⟨_, h⟩ | ⟨_, _, _, h⟩ | ⟨_, _, _, h⟩ <;> rw [h]
  · exact .refl w
  · exact ⟨_, _, _, rfl, rfl⟩
  · exact Works.trans ⟨_, _, _, rfl, rfl⟩ (releaseOnBus_works _ t)

theorem install_works (w : World) (s : Subscription) : w.Works (w.install s) := by
  rcases install_cases w s with ⟨_, _, h⟩ | ⟨_, h⟩ | ⟨e, _, _, _, h⟩ | ⟨w', _, hreg, h⟩ <;> rw [h]
  · exact ⟨_, _, _, rfl, rfl⟩
  · exact ⟨_, _, _, rfl, rfl⟩
  · exact ⟨_, _, _, rfl, rfl⟩
  · rcases register_cases hreg with ⟨_, rfl⟩ | ⟨_, hd, bus, _, rfl⟩ <;> exact ⟨_, _, _, rfl, rfl⟩

theorem uninstall_works (w : World) (id : SubscriptionId) (r : SubscriptionError) :
    w.Works (w.uninstall id r) := by
  rcases uninstall_cases w id r with ⟨_, h⟩ | ⟨k, s, _, h⟩ <;> rw [h]
  · exact .refl w
  · have hrelease := releaseTopic_works { w with hub.index := w.hub.index.erase (k, id) } s.topic
    exact (Works.trans ⟨_, _, _, rfl, rfl⟩ hrelease).trans ⟨_, _, _, rfl, rfl⟩

theorem closeTopic_works (w : World) (t : Topic) : w.Works (w.closeTopic t) := by
  unfold closeTopic
  split
  · have hdrop := dropFeed_works { w with hub.topics := w.hub.topics.erase t } t
    have hend := Works.foldl (f := endWithTopic t) (fun w s => by
      unfold endWithTopic
      split
      · exact .refl w
      · exact ⟨_, _, _, rfl, rfl⟩) (w.hub.listeners t)
      ({ w with hub.topics := w.hub.topics.erase t }.dropFeed t)
    exact ((Works.trans ⟨_, _, _, rfl, rfl⟩ hdrop).trans hend).trans ⟨_, _, _, rfl, rfl⟩
  · exact .refl w

theorem dispatch_works (w : World) (t : Topic) (item : Item Event) :
    w.Works (w.dispatch t item) := by
  cases item with
  | entry e =>
    show w.Works (w.fanOut t e.payload)
    rw [fanOut_eq]
    have hdelivered : w.Works (w.delivered t e.payload) :=
      ⟨_, _, _, rfl, (delivered_sameIntake w t e.payload).config⟩
    exact hdelivered.trans (Works.foldl (f := fun w id => w.uninstall id .closed)
      (fun w id => uninstall_works w id .closed) _ _)
  | lagged n => exact .refl w
  | ended => exact closeTopic_works w t

theorem shutdown_works (w : World) : w.Works w.shutdown := by
  have hrefuse : w.Works w.refuseAll := (Works.trans ⟨_, _, _, rfl, rfl⟩
    (Works.foldl (f := refuseWaiting) (fun _ _ => ⟨_, _, _, rfl, rfl⟩) w.hub.installs
      { w with hub.installs := [] })).trans ⟨_, _, _, rfl, rfl⟩
  have hend : ∀ w : World, w.Works w.endAll := fun w => Works.trans ⟨_, _, _, rfl, rfl⟩
    (Works.foldl (f := endInstalled) (fun _ _ => ⟨_, _, _, rfl, rfl⟩) w.hub.index.values
      { w with hub.index := {} })
  have hrelease : ∀ w : World, w.Works w.releaseAll := fun w => Works.trans ⟨_, _, _, rfl, rfl⟩
    (Works.foldl (f := releaseOnBus) releaseOnBus_works w.hub.topics.keys
      { w with hub.topics := {} })
  rw [shutdown_eq]
  exact ((hrefuse.trans (hend _)).trans (hrelease _)).trans ⟨_, _, _, rfl, rfl⟩

/-- A turn of the loop works. -/
theorem perform_works (w : World) (t : Turn) : w.Works (w.perform t) := by
  cases t with
  | stop => exact shutdown_works w
  | install =>
    simp only [perform]
    split
    · exact .refl w
    · rename_i s rest _
      exact Works.trans ⟨_, _, _, rfl, rfl⟩ (install_works { w with hub.installs := rest } s)
  | remove =>
    simp only [perform]
    split
    · exact .refl w
    · rename_i id rest _
      exact Works.trans ⟨_, _, _, rfl, rfl⟩
        (uninstall_works { w with hub.removals := rest } id .unsubscribed)
  | read topic =>
    simp only [perform]
    split
    · exact .refl w
    · rename_i item bus _
      exact Works.trans ⟨_, _, _, rfl, rfl⟩ (dispatch_works { w with bus } topic item)

end EventFanout.World
