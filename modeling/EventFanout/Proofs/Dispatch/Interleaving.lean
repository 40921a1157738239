/-
EventFanout.Proofs.Dispatch.Interleaving — it does not matter how the topics are interleaved.

The hub reads from several topics, and which of those with something to read comes next is not up to
it. Nor is the order in which its index goes through the subscriptions of a topic while some of them
are removed, nor the order in which it gives its topics up when it shuts down. `World.Handles` leaves
all of that open: the items are handled one after the other, and before each of them the index may be
put into any other order.

Main statement: `interleavings_agree`. Whatever is read from each topic, in whatever order the topics
take turns and in whatever orders the index is gone through, the hub ends in the same state, and so
it does when it shuts down afterwards.

## How the proof goes

Where two sequences agree topic by topic, the first item of the one is the first item of its topic in
the other. It can be moved to the front, past items of other topics (`handle_past`), as these commute
with it; and then the rest agrees topic by topic again (`handle_agrees_of_sameByTopic`). Orders of the
index are left out of this: what comes of the items agrees at every moment with what comes of them
where the index stays as it is (`Handles.agrees`).
-/
import EventFanout.Proofs.Dispatch.Commuting
import EventFanout.Proofs.Run

namespace EventFanout

/-- Two sequences have the same items of each topic, in the same order. -/
def SameByTopic (items items' : List (Topic × Item Event)) : Prop :=
  ∀ t, items.filter (fun x => x.1 = t) = items'.filter fun x => x.1 = t

/-- Where the first item of a sequence stands in one that agrees with it topic by topic. -/
theorem SameByTopic.split {t : Topic} {item : Item Event} {rest items' : List (Topic × Item Event)}
    (h : SameByTopic ((t, item) :: rest) items') :
    ∃ before after, items' = before ++ (t, item) :: after ∧ (∀ x ∈ before, x.1 ≠ t) ∧
      SameByTopic rest (before ++ after) := by
  have ht := h t
  rw [List.filter_cons_of_pos (by simp)] at ht
  obtain ⟨before, after, rfl, hbefore, -, hafter⟩ := List.filter_eq_cons_iff.mp ht.symm
  have hothers : ∀ x ∈ before, x.1 ≠ t := fun x hx => by simpa using hbefore x hx
  refine ⟨before, after, rfl, hothers, fun t' => ?_⟩
  rw [List.filter_append]
  by_cases he : t = t'
  · subst he
    rw [List.filter_eq_nil_iff.mpr hbefore, List.nil_append]
    exact hafter.symm
  · have ht' := h t'
    rw [List.filter_append, List.filter_cons_of_neg (by simpa using he),
      List.filter_cons_of_neg (by simpa using he)] at ht'
    exact ht'

namespace World

variable {w w' : World}

/-- A hub that has not stopped, with everything in its place. -/
structure Active (w : World) : Prop where
  sound : w.hub.Sound
  running : w.hub.running = true

theorem Active.dispatch (h : w.Active) (t : Topic) (item : Item Event) : (w.dispatch t item).Active where
  sound := dispatch_sound h.sound h.running t item
  running := by
    rw [dispatch_eq h.sound h.running]
    exact h.running

/-! ## In order -/

def handle (w : World) (items : List (Topic × Item Event)) : World :=
  items.foldl (fun w x => w.dispatch x.1 x.2) w

theorem handle_agrees (ha : w.Active) (ha' : w'.Active) (h : w.Agrees w')
    (items : List (Topic × Item Event)) : (w.handle items).Agrees (w'.handle items) := by
  induction items generalizing w w' with
  | nil => exact h
  | cons x rest ih =>
    exact ih (ha.dispatch x.1 x.2) (ha'.dispatch x.1 x.2)
      (dispatch_agrees h ha.sound ha'.sound ha.running x.1 x.2)

/-- An item can be handled before items of other topics just as well as after them. -/
theorem handle_past (ha : w.Active) {t : Topic} (item : Item Event)
    {before : List (Topic × Item Event)} (hothers : ∀ x ∈ before, x.1 ≠ t)
    (after : List (Topic × Item Event)) :
    (w.handle (before ++ (t, item) :: after)).Agrees ((w.dispatch t item).handle (before ++ after)) := by
  induction before generalizing w with
  | nil => exact .refl _
  | cons x rest ih =>
    have hx := hothers x List.mem_cons_self
    have hlater := ih (ha.dispatch x.1 x.2) fun y hy => hothers y (List.mem_cons_of_mem _ hy)
    have hswap := dispatch_comm ha.sound ha.running hx x.2 item
    exact hlater.trans (handle_agrees ((ha.dispatch x.1 x.2).dispatch t item)
      ((ha.dispatch t item).dispatch x.1 x.2) hswap (rest ++ after))

/-- What agrees topic by topic comes to the same. -/
theorem handle_agrees_of_sameByTopic (ha : w.Active) {items items' : List (Topic × Item Event)}
    (h : SameByTopic items items') : (w.handle items).Agrees (w.handle items') := by
  induction items generalizing w items' with
  | nil =>
    cases items' with
    | nil => exact .refl _
    | cons x rest =>
      have hx := h x.1
      rw [List.filter_nil, List.filter_cons_of_pos (by simp)] at hx
      cases hx
  | cons x rest ih =>
    obtain ⟨t, item⟩ := x
    obtain ⟨before, after, rfl, hothers, hrest⟩ := h.split
    exact (ih (ha.dispatch t item) hrest).trans (handle_past ha item hothers after).symm

/-! ## Out of order -/

/-- The index keeps the same subscriptions in another order. -/
def Reindexed (w v : World) : Prop :=
  ∃ entries, w.hub.index.entries.Perm entries ∧ v = { w with hub.index := ⟨entries⟩ }

theorem Reindexed.reverse (w : World) :
    w.Reindexed { w with hub.index := ⟨w.hub.index.entries.reverse⟩ } :=
  ⟨_, (List.reverse_perm _).symm, rfl⟩

theorem Reindexed.agrees {v : World} (h : w.Reindexed v) : w.Agrees v := by
  obtain ⟨entries, hi, rfl⟩ := h
  exact ⟨entries, _, hi, .rfl, rfl⟩

theorem Reindexed.active {v : World} (h : w.Reindexed v) (ha : w.Active) : v.Active := by
  obtain ⟨entries, hi, rfl⟩ := h
  have hc := ha.sound.consistent
  have hvalues : w.hub.index.values.Perm (Table.values ⟨entries⟩) := hi.map _
  refine ⟨⟨?_, ha.sound.accounts, fun hstopped => ?_⟩, ha.running⟩
  · refine ⟨fun t => ?_, fun t r hr => ?_, hc.feeds_eq, hc.topics_once, fun key s hs => ?_, ?_,
      hc.view_eq⟩
    · rw [hc.registered_iff t]
      simp only [hvalues.mem_iff]
    · rw [hc.subscribers_eq t r hr]
      exact (hvalues.filter _).length_eq
    · exact hc.filed key s (hi.mem_iff.mpr hs)
    · exact ((hi.map _).map _).nodup_iff.mp hc.ids_once
  · cases ha.running.symm.trans hstopped

/-- Some items are handled one after the other, and for each the index is gone through in an order
of its own. -/
inductive Handles : World → List (Topic × Item Event) → World → Prop
  | nil (w : World) : Handles w [] w
  | cons {w v w' : World} {t : Topic} {item : Item Event} {rest : List (Topic × Item Event)} :
      w.Reindexed v → Handles (v.dispatch t item) rest w' → Handles w ((t, item) :: rest) w'

/-- One way is to leave the index as it is. -/
theorem handles_handle (w : World) (items : List (Topic × Item Event)) :
    Handles w items (w.handle items) := by
  induction items generalizing w with
  | nil => exact .nil w
  | cons x rest ih => exact .cons ⟨_, .rfl, rfl⟩ (ih (w.dispatch x.1 x.2))

theorem Reindexed.handles {v : World} (h : w.Reindexed v) (x : Topic × Item Event)
    (rest : List (Topic × Item Event)) : Handles w (x :: rest) (v.handle (x :: rest)) :=
  .cons h (handles_handle (v.dispatch x.1 x.2) rest)

/-- Whatever the orders of the index, it comes to the same. -/
theorem Handles.agrees {u : World} {items : List (Topic × Item Event)} (h : Handles w items w')
    (hu : u.Active) (ha : w.Active) (hagree : u.Agrees w) :
    w'.Active ∧ (u.handle items).Agrees w' := by
  induction h generalizing u with
  | nil w => exact ⟨ha, hagree⟩
  | @cons w v w' t item rest hv _ ih =>
    have hav := hv.active ha
    exact ih (hu.dispatch t item) (hav.dispatch t item)
      (dispatch_agrees (hagree.trans hv.agrees) hu.sound hav.sound hu.running t item)

/-! ## Shutting down -/

theorem releaseOnBus_agrees (h : w.Agrees w') (t : Topic) :
    (w.releaseOnBus t).Agrees (w'.releaseOnBus t) := by
  obtain ⟨entries, ledger, hi, hl, rfl⟩ := h
  rw [releaseOnBus_eq, releaseOnBus_eq]
  exact ⟨entries, ledger ++ [.released t], hi, hl.append_right _, rfl⟩

theorem releaseOnBus_comm (w : World) {t t' : Topic} (hne : t ≠ t') :
    ((w.releaseOnBus t).releaseOnBus t').Agrees ((w.releaseOnBus t').releaseOnBus t) := by
  have hfeed : (w.hub.feeds.erase t).get? t' = w.hub.feeds.get? t' := by
    rw [Table.get?_erase, if_neg hne]
  have hfeed' : (w.hub.feeds.erase t').get? t = w.hub.feeds.get? t := by
    rw [Table.get?_erase, if_neg hne.symm]
  refine ⟨_, w.hub.ledger ++ [.released t'] ++ [.released t], .rfl, ?_, ?_⟩
  · simp only [releaseOnBus_eq, List.append_assoc]
    exact List.perm_append_comm.append_left _
  · simp only [releaseOnBus_eq, hfeed, hfeed', Bus.unsubscribe_dropped, Bus.unsubscribe_comm _ hne,
      Bus.dropped_comm _ (w.hub.feeds.get? t), Table.erase_comm _ t]

theorem foldl_releaseOnBus_agrees (h : w.Agrees w') (ts : List Topic) :
    (ts.foldl releaseOnBus w).Agrees (ts.foldl releaseOnBus w') := by
  induction ts generalizing w w' with
  | nil => exact h
  | cons t rest ih => exact ih (releaseOnBus_agrees h t)

/-- Topics can be given up in any order. -/
theorem foldl_releaseOnBus_perm {ts ts' : List Topic} (hp : ts.Perm ts') (hn : ts.Nodup)
    (w : World) : (ts.foldl releaseOnBus w).Agrees (ts'.foldl releaseOnBus w) := by
  induction hp generalizing w with
  | nil => exact .refl w
  | cons t _ ih => exact ih (List.nodup_cons.mp hn).2 (w.releaseOnBus t)
  | swap t t' rest =>
    have hne : t' ≠ t := fun e => (List.nodup_cons.mp hn).1 (e ▸ List.mem_cons_self)
    exact foldl_releaseOnBus_agrees (releaseOnBus_comm w hne) rest
  | trans hp₁ _ ih₁ ih₂ => exact (ih₁ hn w).trans (ih₂ (hp₁.nodup hn) w)

/-- To end subscriptions one by one, and to count them, is to close their lines. -/
theorem foldl_end_eq {f : World → Subscription → World} {tally : Metrics.Tally}
    {reason : SubscriptionError} (hf : ∀ w s, f w s = (w.record tally).closeLine s.id reason)
    (l : List Subscription) (w : World) :
    l.foldl f w = { w with
      lines := w.lines.updateAll ((l.map Subscription.id).map fun id => (id, (·.close reason)))
      hub.metrics := w.hub.metrics.recordAll (l.map fun _ => tally) } := by
  induction l generalizing w with
  | nil => rfl
  | cons s rest ih =>
    rw [List.foldl_cons, ih, hf]
    rfl

/-- What waits is refused and what is installed is ended; the topics have still to be given up. -/
def emptied (w : World) : World :=
  let refused := w.hub.installs.map Subscription.id
  let ended := w.hub.index.values.map Subscription.id
  { w with
    lines := (w.lines.updateAll (refused.map fun id => (id, (·.close .shutdown)))).updateAll
      (ended.map fun id => (id, (·.close .shutdown)))
    hub := { w.hub with
      installs := []
      removals := []
      index := {}
      topics := {}
      metrics := (w.hub.metrics.recordAll (w.hub.installs.map fun _ => .rejected)).recordAll
        (w.hub.index.values.map fun _ => .uninstall) } }

theorem shutdown_eq_emptied (w : World) :
    w.shutdown = { (w.hub.topics.keys.foldl releaseOnBus w.emptied).publishView with
      hub.running := false } := by
  have hrefuse := foldl_end_eq (f := refuseWaiting) (fun _ _ => rfl) w.hub.installs
    { w with hub.installs := [] }
  rw [shutdown_eq, refuseAll, hrefuse, endAll, foldl_end_eq (f := endInstalled) (fun _ _ => rfl)]
  rfl

/-- How the index and the topics are ordered makes no difference to a hub that shuts down. -/
theorem shutdown_agrees (hc : w.hub.Consistent)
    {entries : List ((Kind × SubscriptionId) × Subscription)} {topics : List (Topic × Registration)}
    {ledger : List Entry} (hi : w.hub.index.entries.Perm entries)
    (ht : w.hub.topics.entries.Perm topics) (hl : w.hub.ledger.Perm ledger) :
    w.shutdown.Agrees
      (World.shutdown { w with hub := { w.hub with index := ⟨entries⟩, topics := ⟨topics⟩, ledger } }) := by
  have hvalues : w.hub.index.values.Perm (Table.values ⟨entries⟩) := hi.map _
  have hkeys : w.hub.topics.keys.Perm (Table.keys ⟨topics⟩) := ht.map _
  have hn : (w.hub.index.values.map Subscription.id).Nodup := by
    rw [hc.values_ids]
    exact hc.ids_once
  have hemptied : w.emptied.Agrees
      (World.emptied { w with hub := { w.hub with index := ⟨entries⟩, topics := ⟨topics⟩, ledger } }) := by
    refine ⟨[], ledger, .rfl, hl, ?_⟩
    simp only [emptied, updateAll_close_perm (hvalues.map _) hn, List.map_const',
      hvalues.length_eq]
  rw [shutdown_eq_emptied, shutdown_eq_emptied]
  obtain ⟨entries', ledger', hi', hl', h⟩ :=
    (foldl_releaseOnBus_perm hkeys hc.topics_once w.emptied).trans
      (foldl_releaseOnBus_agrees hemptied _)
  exact ⟨entries', ledger', hi', hl', by rw [h]; rfl⟩

/-! ## The main statement -/

/-- The index and the topics keep what is in them in another order. -/
def Rearranged (w v : World) : Prop :=
  ∃ entries topics, w.hub.index.entries.Perm entries ∧ w.hub.topics.entries.Perm topics ∧
    v = { w with hub := { w.hub with index := ⟨entries⟩, topics := ⟨topics⟩ } }

theorem Rearranged.refl (w : World) : w.Rearranged w := ⟨_, _, .rfl, .rfl, rfl⟩

/--
**It does not matter how the topics are interleaved.** Take a hub in any state that it can get into
while it runs, and two sequences of items that have the same items of each topic in the same order.
Whatever the order in which the index is gone through for each item, the two end in the same state:
the same subscriptions are installed, the topics, the feeds, the view, the counters, the lines and
the bus are the same, and the ledger has the same entries. If the hub shuts down then, whatever the
orders in which it goes through its index and its topics, the two end in the same state again.
-/
theorem interleavings_agree {bus : Bus} {config : Config} {governor : Governor} {w : World}
    (hrun : Evolves (start bus config governor) w) (hr : w.hub.running = true)
    {items items' : List (Topic × Item Event)} (h : SameByTopic items items') {w₁ w₂ : World}
    (h₁ : Handles w items w₁) (h₂ : Handles w items' w₂) :
    w₁.Agrees w₂ ∧ ∀ v₁ v₂, w₁.Rearranged v₁ → w₂.Rearranged v₂ → v₁.shutdown.Agrees v₂.shutdown := by
  have ha : w.Active := ⟨hrun.sound (start_sound bus config governor), hr⟩
  obtain ⟨ha₁, hagree₁⟩ := h₁.agrees ha ha (.refl w)
  obtain ⟨-, hagree₂⟩ := h₂.agrees ha ha (.refl w)
  have hagree : w₁.Agrees w₂ :=
    hagree₁.symm.trans ((handle_agrees_of_sameByTopic ha h).trans hagree₂)
  refine ⟨hagree, fun v₁ v₂ hv₁ hv₂ => ?_⟩
  have hc := ha₁.sound.consistent
  obtain ⟨entries, ledger, hi, hl, rfl⟩ := hagree
  obtain ⟨entries₁, topics₁, hi₁, ht₁, rfl⟩ := hv₁
  obtain ⟨entries₂, topics₂, hi₂, ht₂, rfl⟩ := hv₂
  exact (shutdown_agrees hc hi₁ ht₁ .rfl).symm.trans (shutdown_agrees hc (hi.trans hi₂) ht₂ hl)

/-- One of two subscriptions on the topic of transactions has lost its client; an event there may be
handled before or after an event on the topic of headers, which ends then. The second time the index
is gone through from its other end. -/
theorem interleavings_agree_removal :
    let w := (start (Bus.sized 4) {} .absent).after [
      .makeWithin .newHeads none, .submit (.issued 0), .turn .install,
      .makeWithin .logs none, .submit (.issued 1), .turn .install,
      .makeWithin .pendingTransactions none, .submit (.issued 2), .turn .install,
      .dropReceiver (.issued 1)]
    let header : Topic × Item Event := (headerTopic, .entry ⟨headerTopic, .header {}⟩)
    let transaction : Topic × Item Event :=
      (transactionTopic, .entry ⟨transactionTopic, .transaction {}⟩)
    let ended : Topic × Item Event := (headerTopic, .ended)
    let first := w.handle [header, transaction, ended]
    let reversed := { w with hub.index := ⟨w.hub.index.entries.reverse⟩ }
    let second := reversed.handle [transaction, header, ended]
    first.hub.ids = [.issued 2] ∧ first.hub.topics.keys = [transactionTopic] ∧
      first.Agrees second ∧ first.shutdown.Agrees second.shutdown := by
  intro w header transaction ended first reversed second
  have hsame : SameByTopic [header, transaction, ended] [transaction, header, ended] := by
    intro t
    by_cases ht : headerTopic = t
    · subst ht
      rfl
    · simp [header, transaction, ended, List.filter_cons, ht]
  have hsecond : Handles w [transaction, header, ended] second :=
    (Reindexed.reverse w).handles transaction [header, ended]
  obtain ⟨hagree, hshutdown⟩ := interleavings_agree (after_evolves (start (Bus.sized 4) {} .absent) _)
    (by decide) hsame (handles_handle w _) hsecond
  exact ⟨by decide +kernel, by decide +kernel, hagree, hshutdown _ _ (.refl _) (.refl _)⟩

end World

end EventFanout
