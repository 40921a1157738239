/-
EventFanout.Proofs.Polling.Termination — a system that is left alone comes to rest.

When nobody calls and no time passes, what goes on is the work of the hub, the steps of the tasks of
filters, creations that get their answer, and a sweep that is due (`World.Settles`). Each of these
makes work for the others: what the hub delivers is for the tasks to read, a subscription that has
ended ends its task, a task that ends and a creation that fails give up their receivers and with
them ask for removals, a sweep asks for more of them, and a removal may release a topic.

Main statement: `settling_ends`. From any state of any run no such steps go on for ever, whichever
is taken next, and where none is left the system is at rest (`World.Settled`).

## How the proof goes

Three numbers are compared one after the other (`World.rank`). A step that makes new requests is one
of those that can happen only so often (`World.endings`): the hub stops once, a sweep is due once as
long as the clock stands still, a creation is finished once, and leaves one task at most, and a task
ends once. Any other step of the hub takes from what the hub has left to do
(`perform_workLeft`), though it may deliver to any number of tasks; and a task that goes on reads
what has been delivered to it, and makes work for nobody.
-/
import EventFanout.Proofs.Hub.Progress
import EventFanout.Proofs.Polling.Expiry
import EventFanout.Proofs.Polling.Inbox
import Mathlib.Algebra.Order.BigOperators.Group.List
import Mathlib.Data.Prod.Lex

namespace EventFanout

/-- Whoever is told to wait has read everything, and the channel is open. -/
theorem Line.held_of_pending {l : Line} {r : Receiver} (h : (l.receive r).1 = .pending) :
    l.buffer.held r.next = [] ∧ l.buffer.closed = false := by
  have hfirst := Channel.receive_fst l.buffer r.next
  unfold receive at h
  split at h
  · cases h
  · split at h
    · cases h
    · rename_i he
      rw [he] at hfirst
      split at hfirst
      · cases hfirst
      · rename_i hheld
        split at hfirst
        · cases hfirst
        · rename_i hc
          exact ⟨hheld, by simpa using hc⟩
    · cases h

namespace World

variable {w w' : World} {id : SubscriptionId} {s : Subscription}

/-! ## A system that is left alone -/

/-- A step that a system takes when nobody calls it and no time passes. -/
inductive Settles (w : World) : World → Prop
  /-- The hub takes any step that is due. -/
  | turn {t : Turn} : w.Due t → Settles w (w.perform t)
  /-- The task of a filter reads, or ends. -/
  | task {id : SubscriptionId} {w' : World} : w.drainStep id = some w' → Settles w w'
  /-- A creation is entered, or fails. -/
  | finish {c : Creation} {result : Except FilterError Unit} {w' : World} :
      c ∈ w.polling.creations → w.finishFilter c = (some result, w') → Settles w w'
  /-- A sweep that is due takes place. -/
  | sweep : w.polling.live = true → w.polling.sweepDue ≤ w.now → Settles w w.runSweeper

/-- What a system does when it is left alone are moves. -/
theorem Settles.move (hw : w.Managed) (h : w.Settles w') : ∃ m, w' = w.move m := by
  cases h with
  | @turn t hdue =>
    exact ⟨.act (.turn t), (if_pos hdue.running).symm⟩
  | @task id w' hstep =>
    exact ⟨.drain id, by simp only [World.move, hstep, Option.getD_some]⟩
  | @finish c result w' hc hfinish =>
    have hfound := find?_of_mem hw.tidy.creations_once hc
    exact ⟨.finish c.id, by simp only [World.move, hfound, hfinish]⟩
  | sweep hlive hdue => exact ⟨.tick, rfl⟩

/-! ## What holds at all times -/

/-- What holds of a system with polling filters at all times, and lets it come to rest. -/
structure Steady (w : World) : Prop where
  managed : w.Managed
  fed : w.Fed
  /-- A sweep makes the next one due later. -/
  interval : 5 < w.sweepInterval
  /-- Creations and tasks have the receivers of their subscriptions. -/
  reading : ∀ id ∈ w.polling.ids, ∃ s l r, s.id = id ∧ w.Reading s l r

theorem Steady.move (h : w.Steady) (m : Move) : (w.move m).Steady where
  managed := h.managed.move m
  fed := by
    have hs := h.managed.roster.sound
    rcases move_cases h.managed m with ⟨-, hd⟩ | ⟨request, s, -, -, hb⟩
    · obtain ⟨run, he⟩ := hd.after
      rw [he]
      exact after_fed h.fed hs run
    · rw [hb.after]
      exact after_fed h.fed hs _
  interval := by
    rw [sweepInterval_move h.managed m]
    exact h.interval
  reading := by
    intro id hid
    by_cases hold : id ∈ w.polling.ids
    · obtain ⟨s, l, r, rfl, hr⟩ := h.reading id hold
      obtain ⟨l', r', hr', -⟩ := hr.move h.managed hold hid
      exact ⟨s, l', r', rfl, hr'⟩
    · rcases move_cases h.managed m with ⟨-, hd⟩ | ⟨request, s, -, -, hb⟩
      · exact absurd (hd.shrinks.ids id hid) hold
      · rw [hb.polling, (Polling.ids_begun _ _).mem_iff, List.mem_cons] at hid
        obtain rfl := hid.resolve_right hold
        obtain ⟨l, r, hr, -⟩ := hb.reading h.managed
        exact ⟨s, l, r, rfl, hr⟩

theorem Steady.through (h : w.Steady) (moves : List Move) : (w.through moves).Steady := by
  induction moves generalizing w with
  | nil => exact h
  | cons m rest ih => exact ih (h.move m)

theorem Steady.settles (h : w.Steady) (hs : w.Settles w') : w'.Steady := by
  obtain ⟨m, rfl⟩ := hs.move h.managed
  exact h.move m

theorem Steady.reaches (h : w.Steady) (hs : Relation.ReflTransGen Settles w w') : w'.Steady := by
  induction hs with
  | refl => exact h
  | tail _ hs ih => exact ih.settles hs

/-- A registry that has just been opened, for a valid configuration, in any state of a hub. -/
theorem openPolling_steady (capacity : Nat) {config : Config} (governor : Governor)
    (hvalid : config.validate = .ok ()) (before : List Action) :
    (((start (Bus.sized capacity) config governor).after before).openPolling).Steady where
  managed := openPolling_managed _ config governor before
  fed := by
    have hfed := after_fed (start_fed capacity config governor)
      (start_roster (Bus.sized capacity) config governor).sound before
    exact hfed.of_eq rfl rfl
  interval := by
    refine sweepInterval_of_valid ?_
    show ((start (Bus.sized capacity) config governor).after before).hub.config.validate = _
    rw [after_config]
    exact hvalid
  reading := nofun

/-! ## What there is left to do -/

def sweepsNow (w : World) : Bool := w.polling.live && w.polling.sweepDue ≤ w.now

/-- What can happen only so often: that the hub stops, that the sweep that is due takes place, that
a creation is finished, which may leave a task, and that a task ends. -/
def endings (w : World) : Nat :=
  w.hub.running.toNat + w.sweepsNow.toNat + 2 * w.polling.creations.length +
    w.polling.drains.length

def inbox (w : World) (id : SubscriptionId) : Nat :=
  match w.receiver? id with
  | some (l, r) => (l.buffer.held r.next).length
  | none => 0

def inboxes (w : World) : Nat := (w.polling.drains.map fun d => w.inbox d.id).sum

def rank (w : World) : ℕ ×ₗ ℕ ×ₗ ℕ := toLex (w.endings, toLex (w.workLeft, w.inboxes))

theorem rank_lt_of_endings (h : w'.endings < w.endings) : w'.rank < w.rank :=
  Prod.Lex.lt_iff.mpr (.inl h)

theorem rank_lt_of_workLeft (he : w'.endings ≤ w.endings) (h : w'.workLeft < w.workLeft) :
    w'.rank < w.rank := by
  rcases Nat.lt_or_eq_of_le he with hlt | heq
  · exact rank_lt_of_endings hlt
  · exact Prod.Lex.lt_iff.mpr (.inr ⟨heq, Prod.Lex.lt_iff.mpr (.inl h)⟩)

theorem rank_lt_of_inboxes (he : w'.endings ≤ w.endings) (hl : w'.workLeft = w.workLeft)
    (h : w'.inboxes < w.inboxes) : w'.rank < w.rank := by
  rcases Nat.lt_or_eq_of_le he with hlt | heq
  · exact rank_lt_of_endings hlt
  · exact Prod.Lex.lt_iff.mpr (.inr ⟨heq, Prod.Lex.lt_iff.mpr (.inr ⟨hl, h⟩)⟩)

/-- The hub does not begin to run again. -/
theorem Settles.running (hw : w.Managed) (h : w.Settles w') :
    w'.hub.running.toNat ≤ w.hub.running.toNat := by
  obtain ⟨m, rfl⟩ := h.move hw
  have hback : (w.move m).hub.running = true → w.hub.running = true := by
    rcases move_cases hw m with ⟨-, hd⟩ | ⟨request, s, -, -, hb⟩
    · obtain ⟨run, he⟩ := hd.after
      rw [he]
      exact running_of_after
    · rw [hb.after]
      exact running_of_after
  cases hr : (w.move m).hub.running with
  | false => exact Nat.zero_le _
  | true => rw [hback hr]

/-- While the registry is held and the clock stands still, what counts are creations and tasks. -/
theorem endings_eq (hlive : w'.polling.live = w.polling.live)
    (hstanding : w'.now = w.now ∧ w'.polling.sweepDue = w.polling.sweepDue) :
    w'.endings = w'.hub.running.toNat + w.sweepsNow.toNat + 2 * w'.polling.creations.length +
      w'.polling.drains.length := by
  have hsweeps : w'.sweepsNow = w.sweepsNow := by
    rw [sweepsNow, sweepsNow, hlive, hstanding.1, hstanding.2]
  rw [endings, hsweeps]

/-! ### Steps of the hub -/

theorem turn_rank_lt (h : w.Steady) {t : Turn} (hdue : w.Due t) : (w.perform t).rank < w.rank := by
  have hpolling := (perform_works w t).polling
  have hendings := endings_eq (w := w) (by rw [hpolling])
    ⟨(perform_works w t).now, by rw [hpolling]⟩
  have hrunning := (Settles.turn hdue).running h.managed
  rw [hpolling] at hendings
  by_cases hstop : t = .stop
  · subst hstop
    have hstopped : (w.perform .stop).hub.running = false := rfl
    refine rank_lt_of_endings ?_
    rw [hendings, endings, hstopped, hdue.running, Bool.toNat_false, Bool.toNat_true]
    omega
  · refine rank_lt_of_workLeft ?_ (perform_workLeft h.fed h.managed.roster.sound hdue hstop)
    rw [hendings, endings]
    omega

/-! ### Steps of the tasks -/

/-- A task that ends is one fewer. -/
theorem length_left (hw : w.Managed) {d : Drain} (hd : d ∈ w.polling.drains) :
    (w.polling.left d.id).drains.length + 1 = w.polling.drains.length :=
  (perm_filter_ne hw.tidy.drains_once hd).length_eq.symm

/-- To read is to change a receiver. -/
theorem act_receive_eq {delivery : Delivery} (h : w.receive id = some (delivery, w')) :
    ∃ r, w' = w.setReceiver id r := by
  unfold World.receive at h
  cases hr : w.receiver? id with
  | none => simp [hr, bind, Option.bind] at h
  | some pair =>
    simp only [hr, bind, Option.bind, pure, Option.some.injEq, Prod.mk.injEq] at h
    exact ⟨_, h.2.symm⟩

/-- What waits for the others stays. -/
theorem inbox_setReceiver {id' : SubscriptionId} (hne : id ≠ id') (r : Receiver) :
    (w.setReceiver id r).inbox id' = w.inbox id' := by
  simp only [inbox, receiver?, setReceiver, Table.get?_update, if_neg hne]

theorem Reading.inbox_eq {l : Line} {r : Receiver} (h : w.Reading s l r) :
    w.inbox s.id = (l.buffer.held r.next).length := by rw [inbox, h.receiver?]

/-- A task that goes on has less to read, and no other task has more. -/
theorem inboxes_lt (h : w.Steady) {n : Notification} (hd : ⟨id, false⟩ ∈ w.polling.drains)
    (hr : w.receive id = some (.notification n, w.act (.receive id))) :
    ((w.act (.receive id)).collect id n).inboxes < w.inboxes := by
  obtain ⟨s, l, r, rfl, hread⟩ := h.reading id (Polling.mem_ids.mpr (.inr (List.mem_map_of_mem hd)))
  have hfind := drain?_of_mem h.managed.tidy hd
  have hmove : w.move (.drain s.id) = (w.act (.receive s.id)).collect s.id n := by
    simp [World.move, drainStep, hfind, hr, bind, Option.bind]
  obtain ⟨r₁, hact⟩ := act_receive_eq hr
  rcases hread.drain_cases h.managed hd with
    ⟨n', l', r', -, hbuffer, hheld, hread', hdrains⟩ | ⟨hnone, -⟩
  · have hown : (w.move (.drain s.id)).inbox s.id < w.inbox s.id := by
      rw [hread.inbox_eq, hread'.inbox_eq, hbuffer, hheld]
      exact Nat.lt_succ_self _
    have hothers : ∀ id', s.id ≠ id' → (w.move (.drain s.id)).inbox id' = w.inbox id' := by
      intro id' hne
      rw [hmove, hact]
      exact inbox_setReceiver hne r₁
    rw [← hmove, inboxes, inboxes, hdrains]
    refine List.sum_lt_sum _ _ (fun d _ => ?_) ⟨_, hd, hown⟩
    by_cases he : s.id = d.id
    · exact he ▸ hown.le
    · exact (hothers d.id he).le
  · simp [drained, hd, hr] at hnone

theorem collect_books (w : World) (id : SubscriptionId) (n : Notification) :
    (w.collect id n).polling.live = w.polling.live ∧
      (w.collect id n).polling.creations = w.polling.creations ∧
      (w.collect id n).polling.drains = w.polling.drains := ⟨rfl, rfl, rfl⟩

theorem expireDrain_books (w : World) (id : SubscriptionId) :
    (w.expireDrain id).polling.live = w.polling.live ∧
      (w.expireDrain id).polling.creations = w.polling.creations ∧
      (w.expireDrain id).polling.drains = (w.polling.left id).drains := by
  unfold expireDrain
  rw [endDrain_polling]
  split <;> exact ⟨rfl, rfl, rfl⟩

/-- A task that runs reads an entry, or ends. -/
theorem task_rank_lt (h : w.Steady) (hstep : w.drainStep id = some w') : w'.rank < w.rank := by
  have hrunning := (Settles.task hstep).running h.managed
  have hstanding := (drainStep_runs hstep).standing
  have hread := act_polling w (a := .receive id) rfl
  rcases drainStep_cases w id with he | ⟨hd, he⟩ | ⟨hd, n, hr, he⟩ | ⟨hd, e, -, he⟩ <;>
    rw [hstep] at he <;> cases he
  · -- it has been told to stop, and ends
    have hpolling := endDrain_polling w id
    have hcreations : (w.polling.left id).creations = w.polling.creations := rfl
    have hlen : (w.polling.left id).drains.length + 1 = _ := length_left h.managed hd
    refine rank_lt_of_endings ?_
    rw [endings_eq (by rw [hpolling]; rfl) hstanding, endings, hpolling, hcreations]
    omega
  · -- it reads a notification
    obtain ⟨hlive, hcreations, hdrains⟩ := collect_books (w.act (.receive id)) id n
    rw [hread] at hlive hcreations hdrains
    obtain ⟨r, hact⟩ := act_receive_eq hr
    refine rank_lt_of_inboxes ?_ ?_ (inboxes_lt h hd hr)
    · rw [endings_eq hlive hstanding, endings, hcreations, hdrains]
      omega
    · rw [hact]
      rfl
  · -- its subscription has ended, and so does it
    obtain ⟨hlive, hcreations, hdrains⟩ := expireDrain_books (w.act (.receive id)) id
    rw [hread] at hlive hcreations hdrains
    have hlen : (w.polling.left id).drains.length + 1 = _ := length_left h.managed hd
    refine rank_lt_of_endings ?_
    rw [endings_eq hlive hstanding, endings, hcreations, hdrains]
    omega

/-! ### Creations and sweeps -/

/-- A creation that is finished counts for more than the task that it may leave. -/
theorem finish_rank_lt (h : w.Steady) {c : Creation} {result : Except FilterError Unit}
    (hc : c ∈ w.polling.creations) (hfinish : w.finishFilter c = (some result, w')) :
    w'.rank < w.rank := by
  have hrunning := (Settles.finish hc hfinish).running h.managed
  have hstanding := (finishFilter_runs hfinish).standing
  have hask := act_polling w (a := .askInstalled c.id) rfl
  have hlen := (h.managed.tidy.creations_perm hc).length_eq
  rw [List.length_cons] at hlen
  refine rank_lt_of_endings ?_
  rcases finishFilter_cases w c with ⟨-, he⟩ | ⟨e, -, he⟩ | he
  · rw [hfinish, Prod.mk.injEq] at he
    obtain ⟨-, rfl⟩ := he
    obtain ⟨f, hpolling⟩ : ∃ f, (((w.act (.askInstalled c.id)).endCreation c.id).enterFilter c.id
        c.request).polling = w.polling.entered c.id f := by
      rw [← hask]
      exact ⟨_, rfl⟩
    rw [endings_eq (by rw [hpolling]; rfl) hstanding, endings, hpolling]
    simp only [Polling.entered, List.length_append, List.length_singleton]
    omega
  · rw [hfinish, Prod.mk.injEq] at he
    obtain ⟨-, rfl⟩ := he
    have hpolling : ((((w.act (.askInstalled c.id)).endCreation c.id).releaseSlot).dropReceiver
        c.id).polling = w.polling.failed c.id := by
      rw [dropReceiver_polling, ← hask]
      rfl
    rw [endings_eq (by rw [hpolling]; rfl) hstanding, endings, hpolling]
    simp only [Polling.failed]
    omega
  · rw [hfinish] at he
    cases he

theorem sweep_rank_lt (h : w.Steady) (hlive : w.polling.live = true)
    (hdue : w.polling.sweepDue ≤ w.now) : w.runSweeper.rank < w.rank := by
  have hrunning := (Settles.sweep hlive hdue).running h.managed
  have hbefore : w.sweepsNow = true := by simp [sweepsNow, hlive, hdue]
  have hswept : w.runSweeper = { w with polling.sweepDue := w.nextSweep }.sweep.2 := if_pos hbefore
  have hafter : w.runSweeper.sweepsNow = false := by
    have hwaits := (nextSweep_bounds hdue h.interval).1
    rw [hswept, sweep, foldl_removeFilter_eq]
    simp [sweepsNow, record, hwaits]
  have hcreations : w.runSweeper.polling.creations = w.polling.creations := by
    rw [hswept, sweep, foldl_removeFilter_eq]
    rfl
  have hdrains : w.runSweeper.polling.drains.length = w.polling.drains.length := by
    rw [hswept, sweep, foldl_removeFilter_eq]
    exact List.length_map _
  refine rank_lt_of_endings ?_
  rw [endings, endings, hcreations, hdrains, hbefore, hafter]
  simp only [Bool.toNat_false, Bool.toNat_true]
  omega

/-- Every step leaves less to do. -/
theorem Settles.rank_lt (h : w.Steady) (hs : w.Settles w') : w'.rank < w.rank := by
  cases hs with
  | turn hdue => exact turn_rank_lt h hdue
  | task hstep => exact task_rank_lt h hstep
  | finish hc hfinish => exact finish_rank_lt h hc hfinish
  | sweep hlive hdue => exact sweep_rank_lt h hlive hdue

/-- No steps go on for ever. -/
theorem Steady.settles_ends (h : w.Steady) {f : ℕ → World} (hf : f 0 = w) :
    ∃ n, ¬ (f n).Settles (f (n + 1)) := by
  by_contra hno
  have hforever : ∀ n, (f n).Settles (f (n + 1)) := by simpa using hno
  have hsteady : ∀ n, (f n).Steady := by
    intro n
    induction n with
    | zero => exact hf ▸ h
    | succ n ih => exact ih.settles (hforever n)
  obtain ⟨n, hn⟩ := WellFounded.not_rel_apply_succ (r := (· < ·)) fun n => (f n).rank
  exact hn ((hforever n).rank_lt (hsteady n))

/-! ## Where nothing is left to do -/

/-- The hub has nothing left to do. -/
structure Idle (w : World) : Prop where
  installs : w.hub.installs = []
  removals : w.hub.removals = []
  /-- It has read everything on the channels that it reads, and none of them has ended. -/
  feeds : ∀ t h, w.hub.feeds.get? t = some h → ∃ ch next, w.bus.position? h = some (ch, next) ∧
    ch.log.held next = [] ∧ ch.log.closed = false

/-- The task of a filter has read everything, and its subscription has not ended. -/
def Waits (w : World) (id : SubscriptionId) : Prop :=
  ∃ l r, w.receiver? id = some (l, r) ∧ l.buffer.held r.next = [] ∧ l.buffer.closed = false

structure Settled (w : World) : Prop where
  hub : w.hub.running = false ∨ w.Idle
  tasks : ∀ d ∈ w.polling.drains, w.Waits d.id

/-- A hub that runs and has no step to take has nothing left to do. -/
theorem idle_of_turn? (hf : w.Fed) (h : w.turn? = none) (hr : w.hub.running = true) : w.Idle := by
  have hnone := turn?_eq_none_iff.mp h
  have hstop : w.hub.stops = false := by
    by_contra hstop
    exact hnone .stop ⟨hr, Bool.not_eq_false _ ▸ hstop⟩
  have hinstalls : w.hub.installs = [] := by
    by_contra hne
    exact hnone .install ⟨hr, hstop, hne⟩
  have hremovals := removals_of_turn? h hr
  refine ⟨hinstalls, hremovals, fun t hd ht => ?_⟩
  have hready : ¬ w.isReady t = true := fun hready =>
    hnone (.read t) ⟨hr, hstop, hinstalls, hremovals, hready⟩
  obtain ⟨ch, next, hpos, -⟩ := (hf.serves t hd ht).position
  refine ⟨ch, next, hpos, Channel.held_of_read?_eq_none ?_⟩
  rw [isReady, ht, Option.bind_some, Bus.read?, hpos] at hready
  cases hread : ch.log.read? next with
  | none => rfl
  | some answer => simp [hread, bind, Option.bind] at hready

/-- A task that has no step to take waits for more. -/
theorem Steady.waits (h : w.Steady) {d : Drain} (hd : d ∈ w.polling.drains)
    (hnone : w.drainStep d.id = none) : w.Waits d.id := by
  obtain ⟨s, l, r, hid, hread⟩ :=
    h.reading d.id (Polling.mem_ids.mpr (.inr (List.mem_map_of_mem hd)))
  have hreceive := hread.receive_eq
  rw [hid] at hreceive
  refine ⟨l, r, hid ▸ hread.receiver?, Line.held_of_pending ?_⟩
  simp only [drainStep, drain?_of_mem h.managed.tidy hd, hreceive, bind, Option.bind] at hnone
  split at hnone
  · cases hnone
  · cases hdelivery : (l.receive r).1 with
    | pending => rfl
    | notification n => simp [hdelivery] at hnone
    | failed e => simp [hdelivery] at hnone

/-- Where no step is left the system is at rest. -/
theorem Steady.settled (h : w.Steady) (hnone : ∀ w', ¬ w.Settles w') : w.Settled where
  hub := by
    cases hr : w.hub.running with
    | false => exact .inl rfl
    | true =>
      have hrests : w.turn? = none := turn?_eq_none_iff.mpr fun t ht => hnone _ (.turn ht)
      exact .inr (idle_of_turn? h.fed hrests hr)
  tasks := by
    intro d hd
    refine h.waits hd ?_
    cases hstep : w.drainStep d.id with
    | none => rfl
    | some w' => exact absurd (.task hstep) (hnone w')

/--
**Settling ends.** Let a registry of polling filters be opened in any state of any run of a hub, and
let any moves follow. From then on no sequence of steps that the system takes by itself goes on for
ever, whichever step is taken next; and one that cannot be continued has led to a state of rest.
-/
theorem settling_ends {capacity : Nat} {config : Config} {governor : Governor}
    (hvalid : config.validate = .ok ()) (before : List Action) (moves : List Move) {w : World}
    (hw : w = (((start (Bus.sized capacity) config governor).after before).openPolling).through
      moves) :
    (∀ f : ℕ → World, f 0 = w → ∃ n, ¬ (f n).Settles (f (n + 1))) ∧
      ∀ w', Relation.ReflTransGen Settles w w' → (∀ w'', ¬ w'.Settles w'') → w'.Settled := by
  have hsteady : w.Steady :=
    hw ▸ (openPolling_steady capacity governor hvalid before).through moves
  refine ⟨fun f hf => hsteady.settles_ends hf, fun w' hreach hnone => ?_⟩
  exact (hsteady.reaches hreach).settled hnone

/-- An event waits for a filter, its topic has ended, a second filter is under way and a sweep is
due: whatever of this comes first, all of it comes to an end. -/
theorem settling_ends_busy :
    let config : Config := { timeoutSecs := 5, sweepIntervalSecs := 5 }
    let moves : List Move := [.create .blocks, .act (.turn .install), .finish (.issued 0),
      .act (.publish ⟨headerTopic, .header {}⟩), .act (.busUnsubscribe headerTopic),
      .create .pendingTransactions, .advance 6000]
    let w := (((start (Bus.sized 4) config .absent).after []).openPolling).through moves
    config.validate = .ok () ∧ w.endings = 5 ∧ w.workLeft = 4 ∧
      (∀ f : ℕ → World, f 0 = w → ∃ n, ¬ (f n).Settles (f (n + 1))) ∧
      ∀ w', Relation.ReflTransGen Settles w w' → (∀ w'', ¬ w'.Settles w'') → w'.Settled := by
  intro config moves w
  have hvalid : config.validate = .ok () := by decide
  exact ⟨hvalid, by decide +kernel, by decide +kernel,
    @settling_ends 4 config .absent hvalid [] moves w rfl⟩

end World

end EventFanout
