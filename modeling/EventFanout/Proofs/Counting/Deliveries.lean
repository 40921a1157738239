/-
EventFanout.Proofs.Counting.Deliveries — what is put on the lines is counted.

The record of a line has everything that was ever put on it, and lines are not taken down; so the
sizes of all records add up to the number of notifications ever put on lines (`World.put`). Almost
nothing changes any of these sizes, or the counter of deliveries (`shipped`): only giving an event
to the subscriptions of its topic does, and making a subscription adds an empty line.

Main statements: the counter of deliveries is `put`, modulo 2^64 (`after_put`), and what is put on a
line in some action is one notification, on a line whose client listens (`act_grows`).
-/
import EventFanout.Proofs.Lifecycle.Roster

namespace EventFanout

namespace World

def put (w : World) : Nat := (w.lines.values.map fun l => l.buffer.size).sum

/-- The counter of deliveries, the lines with how much was put on each, and how many subscriptions
were made. -/
def shipped (w : World) : UInt64 × List (SubscriptionId × Nat) × Nat :=
  (w.hub.metrics.notificationsDelivered, w.lines.sketch fun l => l.buffer.size, w.issued)

variable {w w' : World}

/-! ## What changes nothing of it -/

-- stated once, as comparing the two worlds field by field is slow
theorem shipped_ext (hm : w'.hub.metrics.notificationsDelivered = w.hub.metrics.notificationsDelivered)
    (hl : w'.lines = w.lines) (hi : w'.issued = w.issued) : w'.shipped = w.shipped := by
  rw [shipped, shipped, hm, hl, hi]

theorem note_shipped (w : World) (e : Entry) : (w.note e).shipped = w.shipped := rfl
theorem publishView_shipped (w : World) : w.publishView.shipped = w.shipped := rfl

/-- To count something else is not to count a delivery. -/
theorem record_shipped (w : World) {t : Metrics.Tally} (ht : ∀ n, t ≠ .delivered n) :
    (w.record t).shipped = w.shipped := by
  cases t with
  | delivered n => exact absurd rfl (ht n)
  | _ => rfl

theorem update_shipped (w : World) {f : Line → Line} (hf : ∀ l, (f l).buffer.size = l.buffer.size)
    (id : SubscriptionId) : { w with lines := w.lines.update id f }.shipped = w.shipped := by
  simp only [shipped, Table.sketch_update (fun l : Line => l.buffer.size) hf]

theorem closeLine_shipped (w : World) (id : SubscriptionId) (r : SubscriptionError) :
    (w.closeLine id r).shipped = w.shipped :=
  update_shipped w (f := fun l => l.close r) (fun _ => rfl) id

theorem dropFeed_shipped (w : World) (t : Topic) : (w.dropFeed t).shipped = w.shipped := by
  unfold dropFeed
  split <;> rfl

theorem releaseOnBus_shipped (w : World) (t : Topic) :
    (w.releaseOnBus t).shipped = w.shipped := by
  rw [releaseOnBus, record_shipped _ (by simp), note_shipped]
  exact (shipped_ext rfl rfl rfl).trans (dropFeed_shipped w t)

theorem uninstall_shipped (w : World) (id : SubscriptionId) (r : SubscriptionError) :
    (w.uninstall id r).shipped = w.shipped := by
  rcases uninstall_cases w id r with ⟨_, h⟩ | ⟨k, s, _, h⟩ <;> rw [h]
  have hrelease : ∀ w : World, (w.releaseTopic s.topic).shipped = w.shipped := by
    intro w
    rcases releaseTopic_cases w s.topic with ⟨_, h⟩ | ⟨_, _, _, h⟩ | ⟨_, _, _, h⟩ <;> rw [h]
    · exact shipped_ext rfl rfl rfl
    · exact (releaseOnBus_shipped _ _).trans (shipped_ext rfl rfl rfl)
  rw [removed, closeLine_shipped, publishView_shipped, record_shipped _ (by simp), hrelease]
  exact shipped_ext rfl rfl rfl

theorem install_shipped (w : World) (s : Subscription) : (w.install s).shipped = w.shipped := by
  rcases install_cases w s with ⟨_, _, h⟩ | ⟨_, h⟩ | ⟨e, _, _, _, h⟩ | ⟨w', _, hreg, h⟩ <;> rw [h]
  · rw [reject, closeLine_shipped, record_shipped _ (by simp)]
  · rw [reject, closeLine_shipped, record_shipped _ (by simp)]
  · rw [refused, closeLine_shipped, record_shipped _ (by simp), note_shipped]
  · have hfile : ∀ w : World, (w.file s).shipped = w.shipped := by
      intro w
      refine (update_shipped _ (f := Line.markInstalled) (fun _ => rfl) s.id).trans ?_
      rw [publishView_shipped, record_shipped _ (by simp)]
      exact shipped_ext rfl rfl rfl
    rcases register_cases hreg with ⟨_, rfl⟩ | ⟨_, hd, bus, _, rfl⟩
    · exact hfile w'
    · rw [hfile, registered, record_shipped _ (by simp), note_shipped]
      exact shipped_ext rfl rfl rfl

theorem closeTopic_shipped (w : World) (t : Topic) : (w.closeTopic t).shipped = w.shipped := by
  have hend : ∀ (l : List Subscription) (w : World),
      (l.foldl (endWithTopic t) w).shipped = w.shipped := by
    refine foldl_kept (g := shipped) fun w s => ?_
    unfold endWithTopic
    split
    · rfl
    · rw [closeLine_shipped, record_shipped _ (by simp)]
      exact shipped_ext rfl rfl rfl
  unfold closeTopic
  split
  · rw [publishView_shipped, record_shipped _ (by simp), note_shipped, hend, dropFeed_shipped]
    exact shipped_ext rfl rfl rfl
  · rfl

theorem shutdown_shipped (w : World) : w.shutdown.shipped = w.shipped := by
  have hrefuse : w.refuseAll.shipped = w.shipped := by
    refine (shipped_ext rfl rfl rfl).trans ((foldl_kept (f := refuseWaiting) (g := shipped)
      (fun w s => ?_) w.hub.installs { w with hub.installs := [] }).trans (shipped_ext rfl rfl rfl))
    rw [refuseWaiting, closeLine_shipped, record_shipped _ (by simp)]
  have hend : ∀ w : World, w.endAll.shipped = w.shipped := by
    intro w
    refine (foldl_kept (f := endInstalled) (g := shipped) (fun w s => ?_) w.hub.index.values
      { w with hub.index := {} }).trans (shipped_ext rfl rfl rfl)
    rw [endInstalled, closeLine_shipped, record_shipped _ (by simp)]
  have hrelease : ∀ w : World, w.releaseAll.shipped = w.shipped := fun w =>
    (foldl_kept (f := releaseOnBus) (g := shipped) releaseOnBus_shipped w.hub.topics.keys
      { w with hub.topics := {} }).trans (shipped_ext rfl rfl rfl)
  have hstop : w.shutdown.shipped = w.refuseAll.endAll.releaseAll.shipped := by
    rw [shutdown_eq, ← publishView_shipped w.refuseAll.endAll.releaseAll]
    exact shipped_ext rfl rfl rfl
  rw [hstop, hrelease, hend, hrefuse]

theorem requestRemoval_shipped (w : World) (id : SubscriptionId) :
    (w.requestRemoval id).shipped = w.shipped := by
  unfold requestRemoval
  split <;> rfl

theorem dropReceiver_shipped (w : World) (id : SubscriptionId) :
    (w.dropReceiver id).shipped = w.shipped := by
  unfold dropReceiver
  split
  · rfl
  · split
    · exact (requestRemoval_shipped _ id).trans
        (update_shipped w (f := Line.dropReceiver) (fun _ => rfl) id)
    · exact update_shipped w (f := Line.dropReceiver) (fun _ => rfl) id

theorem setReceiver_shipped (w : World) (id : SubscriptionId) (r : Receiver) :
    (w.setReceiver id r).shipped = w.shipped :=
  update_shipped w (f := fun l => { l with receiver := some r }) (fun _ => rfl) id

theorem submit_shipped (w : World) (s : Subscription) : (w.submit s).2.shipped = w.shipped := by
  rcases submit_cases w s with ⟨_, _, h⟩ | ⟨_, h⟩ | ⟨_, _, h⟩ <;> rw [h]
  · exact shipped_ext rfl rfl rfl
  · rw [closeLine_shipped, record_shipped _ (by simp)]
    exact shipped_ext rfl rfl rfl
  · rw [closeLine_shipped]
    exact shipped_ext rfl rfl rfl

end World

def Action.ships : Action → Bool
  | .make .. | .makeWithin .. | .turn (.read _) => true
  | _ => false

namespace World

variable {w w' : World}

/-- An action that ships nothing leaves the counter, and every line with as much as was put on it. -/
theorem act_shipped (w : World) {a : Action} (ha : a.ships = false) :
    (w.act a).shipped = w.shipped := by
  cases a with
  | make kind criteria topic buffer => cases ha
  | makeWithin kind criteria => cases ha
  | submit id =>
    simp only [act]
    split
    · exact submit_shipped w _
    · rfl
  | discard id =>
    rcases discard_cases w id with ⟨_, h⟩ | ⟨_, h⟩ <;> simp only [act, h]
    exact update_shipped w (f := Line.abandon) (fun _ => rfl) id
  | requestRemoval id => exact requestRemoval_shipped w id
  | askInstalled id =>
    simp only [act, askInstalled]
    cases w.receiver? id with
    | none => rfl
    | some pair => exact setReceiver_shipped w id _
  | tryError id =>
    simp only [act, tryError]
    cases w.receiver? id with
    | none => rfl
    | some pair => exact setReceiver_shipped w id _
  | receive id =>
    simp only [act, receive]
    cases w.receiver? id with
    | none => rfl
    | some pair => exact setReceiver_shipped w id _
  | dropReceiver id => exact dropReceiver_shipped w id
  | signal cancelled =>
    simp only [act, signal]
    split <;> rfl
  | busReceive h =>
    simp only [act]
    split <;> rfl
  | busDrop h =>
    simp only [act]
    split <;> rfl
  | turn t =>
    simp only [act]
    split
    · cases t with
      | stop => exact shutdown_shipped w
      | install =>
        simp only [perform]
        split
        · rfl
        · exact install_shipped _ _
      | remove =>
        simp only [perform]
        split
        · rfl
        · exact uninstall_shipped _ _ _
      | read topic => cases ha
    · rfl
  | _ => rfl

/-! ## Giving an event out -/

/-- The results of an event, each for another subscription, add one to the lines of those that they
are delivered to. -/
theorem foldl_apply_put {results : List (SubscriptionId × Outcome)}
    (hn : (results.map (·.1)).Nodup) {lines : Lines}
    (hgrow : ∀ id l', (id, Outcome.delivered l') ∈ results →
      ∃ l, lines.get? id = some l ∧ l'.buffer.size = l.buffer.size + 1) :
    ((results.foldl Outcome.apply lines).values.map fun l => l.buffer.size).sum =
      (lines.values.map fun l => l.buffer.size).sum +
        results.countP (fun r => r.2.isDelivered) ∧
      (results.foldl Outcome.apply lines).keys = lines.keys := by
  induction results generalizing lines with
  | nil => exact ⟨rfl, rfl⟩
  | cons r rest ih =>
    obtain ⟨id, o⟩ := r
    obtain ⟨hnot, hrest⟩ := List.nodup_cons.mp hn
    have hlater : ∀ id' l', (id', Outcome.delivered l') ∈ rest →
        ∃ l, (Outcome.apply lines (id, o)).get? id' = some l ∧
          l'.buffer.size = l.buffer.size + 1 := by
      intro id' l' hm
      obtain ⟨l, hl, hsize⟩ := hgrow id' l' (List.mem_cons_of_mem _ hm)
      have hne : ¬ id = id' := by
        rintro rfl
        exact hnot (List.mem_map.mpr ⟨_, hm, rfl⟩)
      refine ⟨l, ?_, hsize⟩
      cases o <;> simp [Outcome.apply, Table.get?_set, hne, hl]
    obtain ⟨hsum, hkeys⟩ := ih hrest hlater
    rw [List.foldl_cons, hsum, hkeys, List.countP_cons]
    cases o with
    | delivered l' =>
      obtain ⟨l, hl, hsize⟩ := hgrow id l' List.mem_cons_self
      have hset := Table.sum_values_set (fun l : Line => l.buffer.size) hl l'
      simp only [Outcome.apply, Outcome.isDelivered]
      refine ⟨?_, Table.keys_set_of_mem _ (Table.mem_keys_of_get? hl)⟩
      simp only [if_true]
      omega
    | _ => simp [Outcome.apply, Outcome.isDelivered]

theorem delivered_put (hc : w.hub.Consistent) (t : Topic) (p : Payload) :
    (w.delivered t p).put = w.put + (w.outcomes t p).countP (fun r => r.2.isDelivered) ∧
      (w.delivered t p).lines.keys = w.lines.keys := by
  have hn : ((w.outcomes t p).map (·.1)).Nodup := by
    rw [outcomes, List.map_map]
    exact hc.listeners_ids_once t
  rw [put, delivered_lines]
  refine foldl_apply_put hn fun id l' hm => ?_
  obtain ⟨s, _, hs⟩ := List.mem_map.mp hm
  obtain ⟨rfl, ho⟩ := Prod.mk.inj hs
  obtain ⟨l, n, hl, -, hbuffer⟩ := outcome_delivered ho
  exact ⟨l, hl, by rw [hbuffer]; rfl⟩

/-! ## One action -/

/-- How the lines go on: one with a listening client may have one notification more, and the others
have as many as before. -/
def Grows (w w' : World) : Prop :=
  ∀ id l, w.lines.get? id = some l → ∃ l', w'.lines.get? id = some l' ∧
    (l'.buffer.size = l.buffer.size ∨
      l.isListening = true ∧ l'.buffer.size = l.buffer.size + 1)

/-- The counter of deliveries says how much was put on lines, and the lines are those of
subscriptions that were made. -/
structure Tallied (w : World) : Prop where
  counted : w.hub.metrics.notificationsDelivered = .ofNat w.put
  made : ∀ id ∈ w.lines.keys, w.Issued id

theorem lines_of_shipped (h : w'.shipped = w.shipped) :
    w'.put = w.put ∧ w'.lines.keys = w.lines.keys ∧ ∀ id,
      (w'.lines.get? id).map (fun l => l.buffer.size) =
        (w.lines.get? id).map fun l => l.buffer.size := by
  have hs : w'.lines.sketch (fun l => l.buffer.size) = w.lines.sketch fun l => l.buffer.size :=
    congrArg (fun r : UInt64 × List (SubscriptionId × Nat) × Nat => r.2.1) h
  exact ⟨congrArg List.sum (Table.values_of_sketch hs), Table.keys_of_sketch hs,
    Table.get?_of_sketch hs⟩

theorem Tallied.of_shipped (hw : w.Tallied) (h : w'.shipped = w.shipped) : w'.Tallied := by
  obtain ⟨hput, hkeys, -⟩ := lines_of_shipped h
  have hcount : w'.hub.metrics.notificationsDelivered = w.hub.metrics.notificationsDelivered :=
    congrArg (fun r : UInt64 × List (SubscriptionId × Nat) × Nat => r.1) h
  have hissued : w'.issued = w.issued :=
    congrArg (fun r : UInt64 × List (SubscriptionId × Nat) × Nat => r.2.2) h
  constructor
  · rw [hcount, hput, hw.counted]
  · intro id hid
    obtain ⟨n, hn, hlt⟩ := hw.made id (hkeys ▸ hid)
    exact ⟨n, hn, hissued ▸ hlt⟩

theorem Grows.of_shipped (h : w'.shipped = w.shipped) : w.Grows w' := by
  intro id l hl
  have hsize := (lines_of_shipped h).2.2 id
  rw [hl, Option.map_some, Option.map_eq_some_iff] at hsize
  obtain ⟨l', hl', he⟩ := hsize
  exact ⟨l', hl', .inl he⟩

theorem Grows.tail {w'' : World} (h : w.Grows w') (h' : w''.shipped = w'.shipped) :
    w.Grows w'' := by
  intro id l hl
  obtain ⟨l', hl', hcase⟩ := h id l hl
  have hsize := (lines_of_shipped h').2.2 id
  rw [hl', Option.map_some, Option.map_eq_some_iff] at hsize
  obtain ⟨l'', hl'', he⟩ := hsize
  exact ⟨l'', hl'', by rwa [he]⟩

/-- A new subscription has a line of its own, with nothing on it. -/
theorem Tallied.made_new (hw : w.Tallied) {s : Subscription} (hid : s.id = .issued w.issued)
    (buffer : Nat) (attached : Bool) :
    (w.made s buffer attached).Tallied ∧ w.Grows (w.made s buffer attached) := by
  have hnew : s.id ∉ w.lines.keys := by
    intro hm
    obtain ⟨n, hn, hlt⟩ := hw.made _ hm
    rw [hid, SubscriptionId.issued.injEq] at hn
    omega
  have hentries := Table.entries_set_of_not_mem (Line.new s.kind buffer attached) hnew
  refine ⟨⟨?_, ?_⟩, ?_⟩
  · have hput : (w.made s buffer attached).put = w.put := by
      simp only [put, World.made, Table.values, hentries, List.map_append, List.sum_append]
      rfl
    rw [hput]
    exact hw.counted
  · intro id hm
    rw [World.made, Table.keys, hentries, List.map_append, List.mem_append] at hm
    rcases hm with hm | hm
    · obtain ⟨n, hn, hlt⟩ := hw.made id hm
      exact ⟨n, hn, Nat.lt_succ_of_lt hlt⟩
    · rw [List.mem_singleton.mp hm]
      exact ⟨w.issued, hid, Nat.lt_succ_self _⟩
  · intro id l hl
    have hne : ¬ s.id = id := by
      rintro rfl
      exact hnew (Table.mem_keys_of_get? hl)
    exact ⟨l, by rw [World.made, Table.get?_set, if_neg hne, hl], .inl rfl⟩

/-- Giving an event out adds to the counter as many as there are lines that get it. -/
theorem fanOut_grows (hw : w.Roster) (ha : w.Tallied) (t : Topic) (p : Payload) :
    (w.fanOut t p).Tallied ∧ w.Grows (w.fanOut t p) := by
  have hc := hw.sound.consistent
  have hrest : (w.fanOut t p).shipped = (w.delivered t p).shipped := by
    rw [fanOut_eq]
    exact foldl_kept (f := fun w id => w.uninstall id .closed) (g := shipped)
      (fun w id => uninstall_shipped w id .closed) _ _
  obtain ⟨hput, hkeys⟩ := delivered_put hc t p
  have hdelivered : (w.delivered t p).Tallied := by
    constructor
    · rw [hput, UInt64.ofNat_add, ← ha.counted]
      simp only [delivered, record_hub, Metrics.record]
    · intro id hid
      have hissued : (w.delivered t p).issued = w.issued := by
        simp only [delivered, record_issued]
      obtain ⟨n, hn, hlt⟩ := ha.made id (hkeys ▸ hid)
      exact ⟨n, hn, hissued ▸ hlt⟩
  have hgrows : w.Grows (w.delivered t p) := by
    intro id l hl
    by_cases hid : id ∈ (w.hub.listeners t).map Subscription.id
    · obtain ⟨s, hs, rfl⟩ := List.mem_map.mp hid
      have hline := delivered_lines_of_mem hc p hs
      cases ho : outcome w.lines p s with
      | delivered l' =>
        obtain ⟨l₀, n, hl₀, hlisten, hbuffer⟩ := outcome_delivered ho
        rw [hl, Option.some.injEq] at hl₀
        subst hl₀
        rw [ho] at hline
        exact ⟨l', hline, .inr ⟨hlisten, by rw [hbuffer]; rfl⟩⟩
      | _ => exact ⟨l, by rw [hline, ho, hl]; rfl, .inl rfl⟩
    · exact ⟨l, by rw [delivered_lines_of_not_mem p hid, hl], .inl rfl⟩
  exact ⟨hdelivered.of_shipped hrest, hgrows.tail hrest⟩

theorem act_grows (hw : w.Roster) (ha : w.Tallied) (a : Action) :
    (w.act a).Tallied ∧ w.Grows (w.act a) := by
  have hkept : ∀ {w'}, w'.shipped = w.shipped → w'.Tallied ∧ w.Grows w' :=
    fun h => ⟨ha.of_shipped h, .of_shipped h⟩
  cases hships : a.ships with
  | false => exact hkept (act_shipped w hships)
  | true =>
    cases a with
    | make kind criteria topic buffer =>
      rcases make_cases w kind criteria topic buffer with h | ⟨s, hid, h⟩ <;> rw [h]
      · exact hkept rfl
      · exact ha.made_new hid _ _
    | makeWithin kind criteria =>
      rcases makeWithin_cases w kind criteria with h | ⟨s, buffer, hid, h⟩ <;> rw [h]
      · exact hkept rfl
      · exact ha.made_new hid _ _
    | turn t =>
      cases t with
      | read topic =>
        simp only [act, perform]
        split
        · split
          · exact hkept rfl
          · rename_i item bus _
            have hroster : Roster { w with bus } := hw.of_same (.refl _) ⟨rfl, rfl, rfl, rfl⟩
            cases item with
            | entry e =>
              exact fanOut_grows (w := { w with bus }) hroster (ha.of_shipped rfl) topic e.payload
            | lagged n => exact hkept rfl
            | ended => exact hkept (closeTopic_shipped { w with bus } topic)
        · exact hkept rfl
      | _ => cases hships
    | _ => cases hships

/-! ## Runs -/

/-- After every run of a new hub the counter of deliveries says how much was put on lines. -/
theorem after_put (bus : Bus) (config : Config) (governor : Governor) (run : List Action) :
    ((start bus config governor).after run).Tallied := by
  have hstart : (start bus config governor).Tallied :=
    ⟨rfl, fun id hid => absurd hid (List.not_mem_nil)⟩
  have hroster := start_roster bus config governor
  generalize start bus config governor = w at hstart hroster
  induction run generalizing w with
  | nil => exact hstart
  | cons a rest ih => exact ih (w.act a) (act_grows hroster hstart a).1 (act_roster hroster a)

end World

end EventFanout
