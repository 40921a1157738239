/-
EventFanout.Proofs.Admission.Origin — where the subscriptions come from that a system has.

Whoever is held, waits or is installed was made in the run before, and every identity that has
been issued is that of a subscription that was made. In a system with polling filters a move makes
a subscription by an action of a client, or by beginning a creation (`World.making`); every other
move leaves alone who there is, and what the hub has asked the bus for (`World.desk`).

Main statement: `mem_of_everyone`, over any moves after a registry was opened, whatever had
happened before.
-/
import EventFanout.Proofs.Admission.Making
import EventFanout.Proofs.Polling.Clock

namespace EventFanout.World

variable {w w' : World} {s : Subscription}

/-! ## Runs -/

/-- Whoever is there after an action was there before, or has been made by it. -/
theorem brought_of_act (h : w.Roster) (a : Action) (hs : s ∈ (w.act a).everyone) :
    s ∈ w.everyone ∨ w.brought a = some s := by
  cases a with
  | make kind criteria topic buffer =>
    simp only [act, brought] at hs ⊢
    cases hc : w.create kind criteria topic buffer false with
    | error e => exact .inl (by rwa [hc] at hs)
    | ok pair =>
      obtain ⟨s₀, w'⟩ := pair
      rw [hc] at hs
      obtain ⟨hid, rfl⟩ := create_ok hc
      exact (made_everyone h hid hs).imp_right (congrArg some)
  | makeWithin kind criteria =>
    simp only [act, brought] at hs ⊢
    cases hc : w.newSubscription kind criteria with
    | error e => exact .inl (by rwa [hc] at hs)
    | ok pair =>
      obtain ⟨s₀, w'⟩ := pair
      rw [hc] at hs
      obtain ⟨hid, buffer, rfl⟩ := newSubscription_ok hc
      exact (made_everyone h hid hs).imp_right (congrArg some)
  | _ => exact .inl (kept_everyone h rfl hs)

theorem brought_of_after (h : w.Roster) (run : List Action) (hs : s ∈ (w.after run).everyone) :
    s ∈ w.everyone ∨ s ∈ along brought w run := by
  induction run generalizing w with
  | nil => exact .inl hs
  | cons a rest ih =>
    rw [along, List.mem_append, Option.mem_toList]
    rcases ih (act_roster h a) hs with hs | hs
    · exact (brought_of_act h a hs).imp_right .inl
    · exact .inr (.inr hs)

theorem wellMade_of_along {run : List Action} (hs : s ∈ along brought w run) : s.WellMade := by
  obtain ⟨_, a, _, -, ha⟩ := mem_along hs
  exact wellMade_of_brought ha

/-- Whoever is there after a run of a new hub is well made. -/
theorem wellMade_of_after {bus : Bus} {config : Config} {governor : Governor} {run : List Action}
    (hs : s ∈ ((start bus config governor).after run).everyone) : s.WellMade := by
  have hnobody : s ∉ (start bus config governor).everyone := by simp [everyone, start, Table.values]
  have hroster := start_roster bus config governor
  exact wellMade_of_along ((brought_of_after hroster run hs).resolve_left hnobody)

/-- An identity is issued for the subscription that an action makes, and for none else. -/
theorem issued_of_act (w : World) (a : Action) : (w.act a).issued = w.issued ∨
    ∃ s, w.brought a = some s ∧ (w.act a).issued = w.issued + 1 := by
  cases a with
  | make kind criteria topic buffer =>
    simp only [act, brought]
    cases hc : w.create kind criteria topic buffer false with
    | error e => exact .inl rfl
    | ok pair =>
      obtain ⟨s, w'⟩ := pair
      obtain ⟨-, rfl⟩ := create_ok hc
      exact .inr ⟨s, rfl, rfl⟩
  | makeWithin kind criteria =>
    simp only [act, brought]
    cases hc : w.newSubscription kind criteria with
    | error e => exact .inl rfl
    | ok pair =>
      obtain ⟨s, w'⟩ := pair
      obtain ⟨-, buffer, rfl⟩ := newSubscription_ok hc
      exact .inr ⟨s, rfl, rfl⟩
  | submit id =>
    left
    simp only [act]
    split
    · rename_i s _
      rcases submit_cases w s with ⟨_, _, h⟩ | ⟨_, h⟩ | ⟨_, _, h⟩ <;> rw [h] <;> rfl
    · rfl
  | discard id =>
    left
    rcases discard_cases w id with ⟨_, h⟩ | ⟨_, h⟩ <;> simp only [act, h]
  | turn t =>
    left
    simp only [act]
    split
    · obtain ⟨bus, hub, lines, hworks, -⟩ := perform_works w t
      rw [hworks]
    · rfl
  | _ => exact .inl (act_intake w rfl).issued

/-- Whoever an identity was issued for in a run was made in it. -/
theorem brought_of_issued {n : Nat} (run : List Action) (h : n < (w.after run).issued) :
    n < w.issued ∨ ∃ s ∈ along brought w run, s.id = .issued n := by
  induction run using List.reverseRecOn with
  | nil => exact .inl h
  | append_singleton run a ih =>
    rw [after_concat] at h
    rw [along_concat]
    have hearlier : n < (w.after run).issued → n < w.issued ∨
        ∃ s ∈ along brought w run ++ ((w.after run).brought a).toList, s.id = .issued n :=
      fun hlt => (ih hlt).imp_right fun ⟨s, hs, hid⟩ => ⟨s, List.mem_append_left _ hs, hid⟩
    rcases issued_of_act (w.after run) a with hsame | ⟨s, hs, hmore⟩
    · exact hearlier (hsame ▸ h)
    · rcases Nat.lt_succ_iff_lt_or_eq.mp (hmore ▸ h) with hlt | rfl
      · exact hearlier hlt
      · refine .inr ⟨s, List.mem_append_right _ ?_, id_of_brought hs⟩
        rw [hs]
        exact List.mem_singleton_self s

/-! ## Moves -/

/-- Who is held, waits or is installed, how many identities have been issued, and what the hub did
about its registrations. -/
def desk (w : World) : List Subscription × Nat × List Entry := (w.everyone, w.issued, w.hub.ledger)

theorem act_desk (w : World) {a : Action} (ha : a.movesNobody = true) : (w.act a).desk = w.desk := by
  have hloop := act_sameLoop w (a := a) (by rintro t rfl; cases ha)
  have hintake := act_intake w ha
  rw [desk, desk, everyone_of_same hintake hloop.index, hintake.issued, hloop.ledger]

theorem dropReceiver_desk (w : World) (id : SubscriptionId) : (w.dropReceiver id).desk = w.desk :=
  act_desk w (a := .dropReceiver id) rfl

theorem removeFilter_desk (w : World) (id : SubscriptionId) : (w.removeFilter id).desk = w.desk := by
  rw [removeFilter_eq]
  exact act_desk _ rfl

theorem sweep_desk (w : World) : w.sweep.2.desk = w.desk :=
  foldl_kept removeFilter_desk w.expired w

theorem finishFilter_desk (w : World) (c : Creation) {result : Except FilterError Unit}
    (h : w.finishFilter c = (some result, w')) : w'.desk = w.desk := by
  have hask : (w.act (.askInstalled c.id)).desk = w.desk := act_desk w rfl
  rcases finishFilter_cases w c with ⟨-, he⟩ | ⟨e, -, he⟩ | he
  · rw [h, Prod.mk.injEq] at he
    rw [he.2]
    exact hask
  · rw [h, Prod.mk.injEq] at he
    rw [he.2, dropReceiver_desk]
    exact hask
  · rw [h] at he
    cases he

theorem drainStep_desk {id : SubscriptionId} (h : w.drainStep id = some w') : w'.desk = w.desk := by
  have hread : (w.act (.receive id)).desk = w.desk := act_desk w rfl
  have hend : ∀ w : World, (w.endDrain id).desk = w.desk := fun w => dropReceiver_desk _ id
  rcases drainStep_cases w id with he | ⟨-, he⟩ | ⟨-, n, -, he⟩ | ⟨-, e, -, he⟩ <;>
    rw [h] at he <;> cases he
  · exact hend w
  · exact hread
  · rw [expireDrain, hend]
    split <;> exact hread

/-- The action by which a move makes a subscription, if it does. -/
def making (w : World) : Move → Option Action
  | .act a => if a.foreign w.polling then some a else none
  | .create request =>
    if w.polling.live ∧ w.polling.slots < w.hub.config.maxFilters then
      some (.makeWithin request.kind request.criteria)
    else none
  | _ => none

/-- A move that comes to a step of the hub is that step. -/
theorem eq_act_of_making {m : Move} {t : Turn} (h : w.making m = some (.turn t)) :
    m = .act (.turn t) := by
  cases m with
  | act a =>
    simp only [making] at h
    split at h <;> cases h
    rfl
  | create request =>
    simp only [making] at h
    split at h <;> cases h
  | _ => cases h

def broughtBy (w : World) (m : Move) : Option Subscription := (w.making m).bind w.brought

def offeredBy (w : World) (m : Move) : Option Subscription := (w.making m).bind w.offered

end EventFanout.World

namespace EventFanout

/-- Whether a move is the registry's own, and makes nobody. -/
def Move.keepsHouse : Move → Bool
  | .act _ | .create _ => false
  | _ => true

namespace World

variable {w w' : World} {s : Subscription}

/-- The registry makes subscriptions only when it begins creations. -/
theorem move_desk (w : World) {m : Move} (hm : m.keepsHouse = true) : (w.move m).desk = w.desk := by
  cases m with
  | act a => cases hm
  | create request => cases hm
  | finish id =>
    simp only [move]
    split
    · rfl
    · split
      · rename_i h
        exact finishFilter_desk w _ h
      · rfl
  | poll id =>
    simp only [move, poll]
    split <;> rfl
  | uninstall id =>
    simp only [move, uninstallFilter]
    split
    · exact removeFilter_desk w id
    · rfl
  | sweep =>
    simp only [move]
    split
    · exact sweep_desk w
    · rfl
  | tick =>
    simp only [move, runSweeper]
    split
    · exact sweep_desk _
    · rfl
  | drain id =>
    simp only [move]
    cases h : w.drainStep id with
    | none => rfl
    | some w' => exact drainStep_desk h
  | advance time => rfl
  | close =>
    simp only [move]
    split <;> rfl

/-- A creation that is begun, or that the hub refuses, has made its subscription; one that comes to
nothing before that leaves everything as it was. -/
theorem create_cases (w : World) (request : FilterRequest) :
    (w.move (.create request)).desk = w.desk ∨
      (w.making (.create request) = some (.makeWithin request.kind request.criteria) ∧
        ∃ run, (∀ a ∈ run, ∃ id, a = .submit id ∨ a = .dropReceiver id) ∧
          (w.move (.create request)).desk =
            (w.after (.makeWithin request.kind request.criteria :: run)).desk) := by
  simp only [move, making]
  by_cases hl : w.polling.live = true
  · rw [if_pos hl]
    rcases beginFilter_cases w request with ⟨_, h⟩ | ⟨hfree, e, w', h, -, -, hw'⟩ |
      ⟨hfree, s, w₁, hs, h⟩ <;> rw [h]
    · exact .inl rfl
    · rcases hw' with rfl | ⟨s, w₁, hs, rfl⟩
      · exact .inl rfl
      · exact .inr ⟨if_pos ⟨hl, hfree⟩, [.submit s.id, .dropReceiver s.id], by simp, rfl⟩
    · exact .inr ⟨if_pos ⟨hl, hfree⟩, [.submit s.id], by simp, rfl⟩
  · rw [if_neg hl]
    exact .inl rfl

/-- A move leaves alone who there is and what the hub has asked for, or comes to one action, after
which the registry hands in whom it has made, and may drop its receiver. -/
theorem move_desk_cases (w : World) (m : Move) : (w.move m).desk = w.desk ∨
    ∃ a run, w.making m = some a ∧ (∀ b ∈ run, ∃ id, b = .submit id ∨ b = .dropReceiver id) ∧
      (w.move m).desk = (w.after (a :: run)).desk := by
  cases hm : m.keepsHouse with
  | true => exact .inl (move_desk w hm)
  | false =>
    cases m with
    | act a =>
      simp only [move, making]
      split
      · exact .inr ⟨a, [], rfl, by simp, rfl⟩
      · exact .inl rfl
    | create request =>
      rcases create_cases w request with hd | ⟨hmaking, run, hrun, hd⟩
      · exact .inl hd
      · exact .inr ⟨_, run, hmaking, hrun, hd⟩
    | _ => cases hm

theorem along_brought_eq_nil {run : List Action} (h : ∀ a ∈ run, a.makesNobody = true) :
    along brought w run = [] := by
  induction run generalizing w with
  | nil => rfl
  | cons a rest ih =>
    have ha : w.brought a = none := by
      have hmakes := h a List.mem_cons_self
      cases a <;> first | rfl | cases hmakes
    rw [along, ha, ih fun b hb => h b (List.mem_cons_of_mem _ hb)]
    rfl

/-- Whoever is there after a move was there before, or has been made by it. -/
theorem brought_of_move (h : w.Roster) (m : Move) (hs : s ∈ (w.move m).everyone) :
    s ∈ w.everyone ∨ w.broughtBy m = some s := by
  rcases move_desk_cases w m with hd | ⟨a, run, hmaking, hrun, hd⟩
  · rw [show (w.move m).everyone = w.everyone from congrArg Prod.fst hd] at hs
    exact .inl hs
  · rw [show (w.move m).everyone = (w.after (a :: run)).everyone from congrArg Prod.fst hd] at hs
    refine (brought_of_after h _ hs).imp_right fun hb => ?_
    have hnobody : ∀ b ∈ run, b.makesNobody = true := by
      intro b hb
      obtain ⟨id, rfl | rfl⟩ := hrun b hb <;> rfl
    rw [along, along_brought_eq_nil hnobody, List.append_nil, Option.mem_toList] at hb
    rw [broughtBy, hmaking]
    exact hb

theorem brought_of_through (h : w.Managed) (moves : List Move)
    (hs : s ∈ (w.through moves).everyone) : s ∈ w.everyone ∨ s ∈ during broughtBy w moves := by
  induction moves generalizing w with
  | nil => exact .inl hs
  | cons m rest ih =>
    rw [during, List.mem_append, Option.mem_toList]
    rcases ih (h.move m) hs with hs | hs
    · exact (brought_of_move h.roster m hs).imp_right .inl
    · exact .inr (.inr hs)

/-- Whoever is there after any moves of a system with polling filters was made, before the registry
was opened or after. -/
theorem mem_of_everyone {bus : Bus} {config : Config} {governor : Governor} {before : List Action}
    {moves : List Move}
    (hs : s ∈ ((((start bus config governor).after before).openPolling).through moves).everyone) :
    s ∈ along brought (start bus config governor) before ∨
      s ∈ during broughtBy ((start bus config governor).after before).openPolling moves := by
  refine (brought_of_through (openPolling_managed bus config governor before) moves hs).imp_left ?_
  intro hs
  have hopened : s ∈ ((start bus config governor).after before).everyone := hs
  refine (brought_of_after (start_roster bus config governor) before hopened).resolve_left ?_
  simp [everyone, start, Table.values]

/-! ## Moves as runs -/

/-- Whatever moves come to is a run. -/
theorem Managed.through_after (h : w.Managed) (moves : List Move) :
    ∃ run, w.through moves = w.after run := by
  induction moves generalizing w with
  | nil => exact ⟨[], rfl⟩
  | cons m rest ih =>
    have hmove : ∃ run, w.move m = w.after run := by
      rcases move_cases h m with ⟨-, hd⟩ | ⟨request, s, -, -, hb⟩
      · exact hd.after
      · exact ⟨_, hb.after⟩
    obtain ⟨run, hrun⟩ := hmove
    obtain ⟨run', hrun'⟩ := ih (h.move m)
    exact ⟨run ++ run', by rw [through_cons, hrun', hrun, after_append]⟩

/-- A system with polling filters is in no state that a run of its hub cannot lead to. -/
theorem through_after (bus : Bus) (config : Config) (governor : Governor) (before : List Action)
    (moves : List Move) :
    ∃ run, (((start bus config governor).after before).openPolling).through moves =
      (start bus config governor).after run := by
  have hopen : ∃ a, ((start bus config governor).after before).openPolling =
      ((start bus config governor).after before).act a := ⟨.keepBooks _ 0, (act_keepBooks _ _).symm⟩
  obtain ⟨a, ha⟩ := hopen
  obtain ⟨run, hrun⟩ := (openPolling_managed bus config governor before).through_after moves
  exact ⟨before ++ a :: run, by rw [hrun, after_append, after_cons, ← ha]⟩

end World

end EventFanout
