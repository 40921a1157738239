/-
EventFanout.Proofs.Order — the order that a hub works in.

A hub stops before it installs, installs before it removes, and removes before it reads.
`World.Due` says which step may be next by that rule; where several topics have something to
read, it may be any of them. A run is in order (`World.InOrder`) if every step of the hub was
due when it was taken. Clients and the other users of the bus act whenever they like.

Main statements: what a hub does until it rests is in order (`runHub_inOrder`), and in a run
in order the requests for removal are handled one at a time, first come, first served
(`after_removals`).
-/
import EventFanout.Proofs.Run
import Mathlib.Data.List.Induction

namespace EventFanout

/-- Whether an action is the hub's handling of one request for removal. -/
def Action.takesRemoval : Action → Bool
  | .turn .remove => true
  | _ => false

namespace World

/-! ## Steps that are due -/

/-- The hub has ground for a step, and for none that it would take before that one. -/
def Due (w : World) : Turn → Prop
  | .stop => w.hub.running = true ∧ w.hub.stops = true
  | .install => w.hub.running = true ∧ w.hub.stops = false ∧ w.hub.installs ≠ []
  | .remove =>
    w.hub.running = true ∧ w.hub.stops = false ∧ w.hub.installs = [] ∧ w.hub.removals ≠ []
  | .read t =>
    w.hub.running = true ∧ w.hub.stops = false ∧ w.hub.installs = [] ∧ w.hub.removals = [] ∧
      w.isReady t = true

instance decidableDue (w : World) : (t : Turn) → Decidable (w.Due t)
  | .stop => inferInstanceAs (Decidable (_ ∧ _))
  | .install => inferInstanceAs (Decidable (_ ∧ _))
  | .remove => inferInstanceAs (Decidable (_ ∧ _))
  | .read _ => inferInstanceAs (Decidable (_ ∧ _))

/-- An action may come next: the hub keeps to its order, everyone else is free. -/
def Permits (w : World) : Action → Prop
  | .turn t => w.Due t
  | _ => True

instance decidablePermits (w : World) : (a : Action) → Decidable (w.Permits a)
  | .turn t => w.decidableDue t
  | .publish _ | .busSubscribe _ | .busUnsubscribe _ | .busClose | .busReceive _ | .busDrop _
  | .make .. | .makeWithin .. | .submit _ | .discard _ | .requestRemoval _ | .askInstalled _
  | .tryError _ | .receive _ | .dropReceiver _ | .requestStop | .signal _ | .dropSignal
  | .keepBooks .. | .setClock _ | .rest => .isTrue trivial

/-- Every step of the hub was due when it was taken. -/
def InOrder (w : World) : List Action → Prop
  | [] => True
  | a :: run => w.Permits a ∧ (w.act a).InOrder run

instance decidableInOrder (w : World) : (run : List Action) → Decidable (w.InOrder run)
  | [] => .isTrue trivial
  | a :: run => @instDecidableAnd _ _ (w.decidablePermits a) ((w.act a).decidableInOrder run)

theorem inOrder_append {w : World} {run run' : List Action} :
    w.InOrder (run ++ run') ↔ w.InOrder run ∧ (w.after run).InOrder run' := by
  induction run generalizing w with
  | nil => exact ⟨fun h => ⟨trivial, h⟩, And.right⟩
  | cons a rest ih =>
    rw [List.cons_append, InOrder, InOrder, ih, and_assoc, after_cons]

theorem inOrder_concat {w : World} {run : List Action} {a : Action} :
    w.InOrder (run ++ [a]) ↔ w.InOrder run ∧ (w.after run).Permits a := by
  rw [inOrder_append, InOrder, InOrder, and_true]

theorem InOrder.of_prefix {w : World} {run earlier : List Action} (h : w.InOrder run)
    (hpre : earlier <+: run) : w.InOrder earlier := by
  obtain ⟨later, rfl⟩ := hpre
  exact (inOrder_append.mp h).1

/-- In a run in order, a step of the hub was due. -/
theorem InOrder.due {w : World} {run earlier : List Action} {t : Turn} (h : w.InOrder run)
    (hpre : earlier ++ [.turn t] <+: run) : (w.after earlier).Due t :=
  (inOrder_concat.mp (h.of_prefix hpre)).2

theorem Due.running {w : World} {t : Turn} (h : w.Due t) : w.hub.running = true := by
  cases t <;> exact h.1

/-! ## What a hub does by itself -/

/-- The step that a hub chooses is due. -/
theorem due_of_turn? {w : World} {t : Turn} (h : w.turn? = some t) : w.Due t := by
  have hr := running_of_turn? h
  simp only [turn?, hr, Bool.not_true, Bool.false_eq_true, if_false] at h
  split at h
  · rename_i hstop
    cases h
    exact ⟨hr, hstop⟩
  · rename_i hstop
    have hstop' : w.hub.stops = false := by simpa using hstop
    split at h
    · rename_i hi
      cases h
      exact ⟨hr, hstop', by simpa using hi⟩
    · rename_i hi
      have hi' : w.hub.installs = [] := by simpa using hi
      split at h
      · rename_i hm
        cases h
        exact ⟨hr, hstop', hi', by simpa using hm⟩
      · rename_i hm
        obtain ⟨topic, hfind, rfl⟩ := Option.map_eq_some_iff.mp h
        exact ⟨hr, hstop', hi', by simpa using hm, List.find?_some hfind⟩

/-- A hub has nothing to choose just where no step is due. -/
theorem turn?_eq_none_iff {w : World} : w.turn? = none ↔ ∀ t, ¬ w.Due t := by
  refine ⟨fun h t hdue => ?_, fun h => ?_⟩
  · cases t with
    | stop =>
      obtain ⟨hr, hs⟩ := hdue
      simp [turn?, hr, hs] at h
    | install =>
      obtain ⟨hr, hs, hi⟩ := hdue
      simp [turn?, hr, hs, hi] at h
    | remove =>
      obtain ⟨hr, hs, hi, hm⟩ := hdue
      simp [turn?, hr, hs, hi, hm] at h
    | read topic =>
      obtain ⟨hr, hs, hi, hm, hready⟩ := hdue
      have hkey : topic ∈ w.hub.feeds.keys := by
        rw [isReady] at hready
        cases hf : w.hub.feeds.get? topic with
        | none => simp [hf] at hready
        | some hd => exact Table.mem_keys_of_get? hf
      simp only [turn?, hr, hs, hi, hm, Option.map_eq_none_iff, Bool.not_true, Bool.false_eq_true,
        if_false, List.isEmpty_nil, List.find?_eq_none] at h
      exact h topic hkey hready
  · cases ht : w.turn? with
    | none => rfl
    | some t => exact absurd (due_of_turn? ht) (h t)

theorem takeTurns_inOrder (n : Nat) (w : World) :
    ∃ run, takeTurns n w = w.after run ∧ w.InOrder run := by
  induction n generalizing w with
  | zero => exact ⟨[], rfl, trivial⟩
  | succ n ih =>
    rw [takeTurns]
    cases ht : w.turn? with
    | none => exact ⟨[], rfl, trivial⟩
    | some t =>
      obtain ⟨run, h, ho⟩ := ih (w.perform t)
      have hact : w.act (.turn t) = w.perform t := by rw [act, if_pos (running_of_turn? ht)]
      refine ⟨.turn t :: run, ?_, due_of_turn? ht, ?_⟩
      · rw [after_cons, hact]
        exact h
      · rw [hact]
        exact ho

/-- What a hub does until it rests is a run in order. -/
theorem runHub_inOrder (w : World) : ∃ run, w.runHub = w.after run ∧ w.InOrder run := by
  obtain ⟨run, h, ho⟩ := takeTurns_inOrder w.workLeft w
  have hrest : (w.after run).Permits .rest := trivial
  refine ⟨run ++ [.rest], ?_, inOrder_concat.mpr ⟨ho, hrest⟩⟩
  rw [after_concat, ← h]
  rfl

/-! ## A hub that has stopped -/

/-- A hub that runs has not stopped before. -/
theorem running_of_act {w : World} {a : Action} (h : (w.act a).hub.running = true) :
    w.hub.running = true := by
  by_cases ha : ∃ t, a = .turn t
  · obtain ⟨t, rfl⟩ := ha
    simp only [act] at h
    split at h
    · assumption
    · exact h
  · rwa [(act_sameLoop w fun t e => ha ⟨t, e⟩).running] at h

theorem running_of_after {w : World} {run : List Action} (h : (w.after run).hub.running = true) :
    w.hub.running = true := by
  induction run generalizing w with
  | nil => exact h
  | cons a rest ih => exact running_of_act (ih h)

theorem running_of_prefix {w : World} {run earlier : List Action} (hpre : earlier <+: run)
    (h : (w.after run).hub.running = true) : (w.after earlier).hub.running = true := by
  obtain ⟨later, rfl⟩ := hpre
  rw [after_append] at h
  exact running_of_after h

theorem stop_running (w : World) : (w.act (.turn .stop)).hub.running = false := by
  simp only [act]
  split
  · rfl
  · rename_i hr
    simpa using hr

/-! ## Requests -/

def queues (w : World) : List Subscription × List SubscriptionId :=
  (w.hub.installs, w.hub.removals)

theorem install_queues (w : World) (s : Subscription) : (w.install s).queues = w.queues := by
  unfold queues
  rcases install_cases w s with ⟨_, _, h⟩ | ⟨_, h⟩ | ⟨e, _, _, _, h⟩ | ⟨w', _, hreg, h⟩
  · rw [h, reject_hub]
  · rw [h, reject_hub]
  · rw [h, refused_hub]
  · rcases register_cases hreg with ⟨_, rfl⟩ | ⟨_, hd, bus, _, rfl⟩
    · rw [h, file_hub]
    · rw [h, file_hub, registered_hub]

theorem uninstall_queues (w : World) (id : SubscriptionId) (r : SubscriptionError) :
    (w.uninstall id r).queues = w.queues := by
  rcases uninstall_cases w id r with ⟨_, h⟩ | ⟨k, s, _, h⟩
  · rw [h]
  · rw [h]
    rcases releaseTopic_cases { w with hub.index := w.hub.index.erase (k, id) } s.topic with
      ⟨_, hrel⟩ | ⟨_, _, _, hrel⟩ | ⟨_, _, _, hrel⟩ <;> simp [queues, removed, hrel]

theorem closeTopic_queues (w : World) (t : Topic) : (w.closeTopic t).queues = w.queues := by
  have hend : ∀ (l : List Subscription) (w : World),
      (l.foldl (endWithTopic t) w).queues = w.queues := by
    refine foldl_kept (g := queues) fun w s => ?_
    unfold endWithTopic
    split <;> rfl
  have hdrop : ({ w with hub.topics := w.hub.topics.erase t }.dropFeed t).queues = w.queues := by
    simp only [queues, dropFeed_hub]
  unfold closeTopic
  split
  · simp only [queues, publishView_hub, record_hub, note_hub]
    exact (hend (w.hub.listeners t) _).trans hdrop
  · rfl

theorem dispatch_queues (w : World) (t : Topic) (item : Item Event) :
    (w.dispatch t item).queues = w.queues := by
  cases item with
  | entry e =>
    show (w.fanOut t e.payload).queues = _
    rw [fanOut_eq, foldl_kept (g := queues) fun w id => uninstall_queues w id .closed]
    simp only [queues, delivered, record_hub]
  | lagged n => rfl
  | ended => exact closeTopic_queues w t

/-- A step of a hub that goes on takes the first request, if it is the step for that. -/
theorem perform_queues (w : World) {t : Turn} (ht : t ≠ .stop) :
    (w.perform t).queues =
      (w.hub.installs.drop (if t = .install then 1 else 0),
        w.hub.removals.drop (if (Action.turn t).takesRemoval then 1 else 0)) := by
  cases t with
  | stop => exact absurd rfl ht
  | install =>
    simp only [perform, Action.takesRemoval, Bool.false_eq_true, if_true, if_false, List.drop_zero]
    split
    · rename_i hq
      simp only [queues, hq, List.drop_nil]
    · rename_i s rest hq
      rw [install_queues, hq]
      rfl
  | remove =>
    simp only [perform, Action.takesRemoval, reduceCtorEq, if_true, if_false, List.drop_zero]
    split
    · rename_i hq
      simp only [queues, hq, List.drop_nil]
    · rename_i id rest hq
      rw [uninstall_queues, hq]
      rfl
  | read topic =>
    simp only [perform, Action.takesRemoval, reduceCtorEq, Bool.false_eq_true, if_false,
      List.drop_zero]
    split
    · rfl
    · exact dispatch_queues _ topic _

theorem perform_installs (w : World) {t : Turn} (ht : t ≠ .stop) : (w.perform t).hub.installs =
    w.hub.installs.drop (if t = .install then 1 else 0) := congrArg Prod.fst (perform_queues w ht)

theorem perform_removals (w : World) {t : Turn} (ht : t ≠ .stop) : (w.perform t).hub.removals =
    w.hub.removals.drop (if (Action.turn t).takesRemoval then 1 else 0) :=
  congrArg Prod.snd (perform_queues w ht)

/-- Only a step of the hub takes a request. -/
theorem eq_remove_of_takesRemoval {a : Action} (h : a.takesRemoval = true) :
    a = .turn .remove := by
  cases a with
  | turn t => cases t <;> first | rfl | cases h
  | _ => cases h

/-- Requests come in at the end of the queue and leave it from the front. -/
theorem act_removals {w : World} {a : Action} (h : (w.act a).hub.running = true) :
    (w.act a).hub.removals =
      (w.hub.removals ++ (w.requested a).toList).drop (if a.takesRemoval then 1 else 0) := by
  have hr := running_of_act h
  by_cases ha : ∃ t, a = .turn t
  · obtain ⟨t, rfl⟩ := ha
    have ht : t ≠ .stop := by
      rintro rfl
      rw [stop_running] at h
      cases h
    simp only [act, if_pos hr, perform_removals w ht, requested, Option.toList_none,
      List.append_nil]
  · have hcall := act_hub w fun t he => ha ⟨t, he⟩
    have htakes : ¬ a.takesRemoval = true := fun ht => ha ⟨_, eq_remove_of_takesRemoval ht⟩
    rw [if_neg htakes, List.drop_zero]
    exact hcall.removals

/-- Only a call asks for a removal, and only a hub that runs takes the request. -/
theorem running_of_requested {w : World} {a : Action} {id : SubscriptionId}
    (h : w.requested a = some id) : w.hub.running = true ∧ ∀ t, a ≠ .turn t := by
  cases a with
  | requestRemoval id' =>
    simp only [requested] at h
    split at h
    · rename_i hr
      exact ⟨hr, by simp⟩
    · cases h
  | dropReceiver id' =>
    simp only [requested] at h
    repeat' split at h
    · rename_i hr
      exact ⟨(Bool.and_eq_true_iff.mp hr).2, by simp⟩
    · cases h
    · cases h
  | _ => cases h

/--
**Requests for removal are handled first come, first served.** After a run in order, and unless
the hub has stopped, those still wait that the hub has not taken, in the order they came; and the
hub has taken no more than there were.
-/
theorem after_removals {w : World} {run : List Action} (ho : w.InOrder run)
    (hr : (w.after run).hub.running = true) :
    run.countP Action.takesRemoval ≤ (w.hub.removals ++ along requested w run).length ∧
      (w.after run).hub.removals =
        (w.hub.removals ++ along requested w run).drop (run.countP Action.takesRemoval) := by
  induction run using List.reverseRecOn with
  | nil => simp [along]
  | append_singleton run a ih =>
    obtain ⟨horder, hpermits⟩ := inOrder_concat.mp ho
    rw [after_concat] at hr
    obtain ⟨hle, heq⟩ := ih horder (running_of_act hr)
    have hact := act_removals hr
    rw [heq] at hact
    rw [after_concat, hact, along_concat, List.countP_append, List.countP_singleton,
      ← List.append_assoc]
    -- a request that comes in is out of reach of what has been taken so far
    rw [← List.drop_append_of_le_length hle, List.drop_drop]
    refine ⟨?_, by rw [Nat.add_comm]⟩
    cases ht : a.takesRemoval with
    | false =>
      simp only [Bool.false_eq_true, if_false, List.length_append] at hle ⊢
      omega
    | true =>
      -- the step was due, so there was one to take
      have hne : (w.after run).hub.removals ≠ [] := by
        obtain rfl := eq_remove_of_takesRemoval ht
        exact hpermits.2.2.2
      rw [heq, ne_eq, List.drop_eq_nil_iff] at hne
      simp only [if_true, List.length_append] at hne ⊢
      omega

end World

end EventFanout
