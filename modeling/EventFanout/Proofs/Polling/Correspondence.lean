/-
EventFanout.Proofs.Polling.Correspondence — polling filters and their subscriptions.

The registry and the hub each keep their own books, and only messages keep them in step: a filter
goes because its client or the sweeper removed it, or because its subscription ended; the
subscription goes because the registry asked for that, or the hub or the bus ended it; and often
several of these happen to one filter. When all has been said and done there is a filter for every
subscription that the registry made and that is installed, and for no other.

Main statement: `correspondence`, over any moves of a system with polling filters. Nothing is
assumed about the order the hub works in.

## How the proof goes

A filter has a task, and the task has been told of the installation, so the subscription is
installed or gone; if it were gone the task would have something to do. Conversely, a subscription
that is installed and has no filter has been abandoned by creation and task (`World.Minded`), so the
request for its removal would still wait.
-/
import EventFanout.Proofs.Polling.Receivers

namespace EventFanout

/-! ## Requests -/

/-- Whatever is on the books under an identity is on them for a request. -/
structure Polling.Serves (p : Polling) (id : SubscriptionId) (request : FilterRequest) : Prop where
  creation : ∀ c ∈ p.creations, c.id = id → c.request = request
  filter : ∀ f, p.filters.get? id = some f → f.request = request

/-- A change of the books keeps whom they are for. -/
theorem Polling.Changes.serves {p p' : Polling} {id : SubscriptionId} {request : FilterRequest}
    (h : p.Changes p') (hs : p.Serves id request) : p'.Serves id request := by
  have herase : ∀ {id'} f, (p.filters.erase id').get? id = some f → f.request = request := by
    intro id' f hf
    rw [Table.get?_erase] at hf
    split at hf
    · cases hf
    · exact hs.filter f hf
  cases h with
  | same => exact hs
  | @entered c f hc hf =>
    refine ⟨fun c' hc' => hs.creation c' (List.mem_of_mem_filter hc'), fun f' hf' => ?_⟩
    simp only [Polling.entered, Table.get?_set] at hf'
    split at hf'
    · rename_i hid
      cases hf'
      exact hf.trans (hs.creation c hc hid)
    · exact hs.filter f' hf'
  | failed _ => exact ⟨fun c' hc' => hs.creation c' (List.mem_of_mem_filter hc'), hs.filter⟩
  | @changed id' f f' hf hreq =>
    refine ⟨hs.creation, fun f₁ hf₁ => ?_⟩
    simp only [Polling.changed, Table.get?_set] at hf₁
    split at hf₁
    · rename_i hid
      subst hid
      cases hf₁
      exact hreq.trans (hs.filter f hf)
    · exact hs.filter f₁ hf₁
  | removed _ => exact ⟨hs.creation, herase⟩
  | expired _ => exact ⟨hs.creation, herase⟩
  | left _ => exact ⟨hs.creation, hs.filter⟩
  | due time => exact ⟨hs.creation, hs.filter⟩
  | closed _ => exact ⟨hs.creation, fun f hf => by cases hf⟩

namespace World

variable {w w' : World} {id : SubscriptionId} {request : FilterRequest} {s : Subscription}

theorem Deeds.serves (h : Deeds w w') (hs : w.polling.Serves id request) :
    w'.polling.Serves id request :=
  h.kept (fun hc => hc.serves) hs

theorem Begins.serves {request' : FilterRequest} (h : Begins w request' s w') (hid : id ≠ s.id)
    (hs : w.polling.Serves id request) : w'.polling.Serves id request := by
  rw [h.polling]
  refine ⟨fun c hc hcid => ?_, hs.filter⟩
  rcases List.mem_append.mp hc with hc | hc
  · exact hs.creation c hc hcid
  · obtain rfl := List.mem_singleton.mp hc
    exact absurd hcid.symm hid

theorem Begins.serves_new (h : Begins w request s w') (hw : w.Managed) :
    w'.polling.Serves s.id request := by
  obtain ⟨w₁, hs⟩ := h.made
  have hnew := hw.fresh hs
  rw [h.polling]
  refine ⟨fun c hc hcid => ?_, fun f hf => ?_⟩
  · rcases List.mem_append.mp hc with hc | hc
    · exact absurd (Polling.mem_ids.mpr (.inl (hcid ▸ List.mem_map_of_mem hc))) hnew
    · rw [List.mem_singleton.mp hc]
  · have hkey := Table.mem_keys_of_get? hf
    exact absurd (Polling.mem_ids.mpr (.inr (hw.tidy.mem_drains hkey))) hnew

/-! ## Filters that were begun -/

/-- A subscription is of the kind and with the criteria that a request asks for. -/
def Answers (s : Subscription) (request : FilterRequest) : Prop :=
  s.kind = request.kind ∧ s.criteria = request.criteria

/-- The registry made the subscription of that identity for a request, and minds it. -/
def Tended (w : World) (id : SubscriptionId) : Prop :=
  ∃ s request p l, s.id = id ∧ Answers s request ∧ w.polling.Serves id request ∧ w.Minded s p l

/-- The criteria of a request are admitted as they are, if they are at all. -/
theorem admitCriteria_request {c : Option Criteria}
    (h : Subscription.admitCriteria request.kind request.criteria = .ok c) :
    c = request.criteria := by
  cases request with
  | logs criteria =>
    simp only [Subscription.admitCriteria, FilterRequest.criteria, FilterRequest.kind,
      Kind.acceptsCriteria, if_true] at h
    cases hv : criteria.validate maxTopicSlots (UInt64.size - 1) with
    | error e =>
      rw [hv] at h
      cases h
    | ok u =>
      rw [hv] at h
      cases h
      rfl
  | blocks =>
    cases h
    rfl
  | pendingTransactions =>
    cases h
    rfl

theorem answers_of_newSubscription {w₁ : World}
    (h : w.newSubscription request.kind request.criteria = .ok (s, w₁)) : Answers s request := by
  unfold newSubscription at h
  cases hl : w.checkLimits request.kind request.criteria with
  | error e => simp [hl, bind, Except.bind] at h
  | ok u =>
    simp only [hl, bind, Except.bind, create] at h
    cases hm : Subscription.make (.issued w.issued) request.kind request.criteria
        request.kind.topic with
    | error e => simp [hm] at h
    | ok s' =>
      simp only [hm, pure, Except.pure, Except.ok.injEq, Prod.mk.injEq] at h
      obtain ⟨rfl, -⟩ := h
      exact ⟨(make_eq hm).2.1, admitCriteria_request (admitCriteria_of_make hm)⟩

theorem move_tended (hw : w.Managed) (h : w.Tended id) (m : Move) : (w.move m).Tended id := by
  obtain ⟨s, request, p, l, rfl, hans, hserves, hm⟩ := h
  rcases move_cases hw m with ⟨-, hd⟩ | ⟨request', s', -, -, hb⟩
  · obtain ⟨p', l', hm'⟩ := hd.minded hw hm
    exact ⟨s, request, p', l', rfl, hans, hd.serves hserves, hm'⟩
  · obtain ⟨w₁, hs⟩ := hb.made
    obtain ⟨p', l', hm'⟩ := hb.minded hm
    exact ⟨s, request, p', l', rfl, hans, hb.serves (hm.traced.id_ne_of_new hs) hserves, hm'⟩

theorem through_tended (hw : w.Managed) (h : w.Tended id) (moves : List Move) :
    (w.through moves).Tended id := by
  induction moves generalizing w with
  | nil => exact h
  | cons m rest ih => exact ih (hw.move m) (move_tended hw h m)

/-- Whoever the registry has begun is tended. -/
theorem tended_of_created (hw : w.Managed) {moves : List Move} (hid : id ∈ w.created moves) :
    (w.through moves).Tended id := by
  induction moves generalizing w with
  | nil => cases hid
  | cons m rest ih =>
    rw [created, List.mem_append, Option.mem_toList] at hid
    rcases hid with hid | hid
    · refine through_tended (hw.move m) ?_ rest
      rcases move_cases hw m with ⟨hnone, -⟩ | ⟨request, s, -, hsome, hb⟩
      · rw [hnone] at hid
        cases hid
      · rw [hsome, Option.some.injEq] at hid
        subst hid
        obtain ⟨w₁, hs⟩ := hb.made
        obtain ⟨p, l, hm⟩ := hb.minded_new hw
        exact ⟨s, request, p, l, rfl, answers_of_newSubscription hs, hb.serves_new hw, hm⟩
    · exact ih (hw.move m) hid

/-- Whoever is on the books was on them before, or has been begun. -/
theorem created_of_mem_ids (hw : w.Managed) {moves : List Move}
    (hid : id ∈ (w.through moves).polling.ids) : id ∈ w.polling.ids ∨ id ∈ w.created moves := by
  induction moves generalizing w with
  | nil => exact .inl hid
  | cons m rest ih =>
    rw [created, List.mem_append, Option.mem_toList]
    rcases ih (hw.move m) hid with hold | hnew
    · rcases move_cases hw m with ⟨-, hd⟩ | ⟨request, s, -, hsome, hb⟩
      · exact .inl (hd.shrinks.ids id hold)
      · rw [hb.polling, (Polling.ids_begun _ _).mem_iff, List.mem_cons] at hold
        rcases hold with rfl | hold
        · exact .inr (.inl hsome)
        · exact .inl hold
    · exact .inr (.inr hnew)

/-! ## Filters that have left -/

/-- Whoever was begun is not begun again, and becomes a filter only while under way. -/
theorem through_left (hw : w.Managed) (h : w.Tended id) (moves : List Move) :
    (id ∈ (w.through moves).polling.creations.map Creation.id →
        id ∈ w.polling.creations.map Creation.id) ∧
      (id ∈ (w.through moves).polling.filters.keys →
        id ∈ w.polling.filters.keys ∨ id ∈ w.polling.creations.map Creation.id) := by
  induction moves generalizing w with
  | nil => exact ⟨fun hm => hm, .inl⟩
  | cons m rest ih =>
    obtain ⟨hcreations, hfilters⟩ := ih (hw.move m) (move_tended hw h m)
    have hmove : (id ∈ (w.move m).polling.creations.map Creation.id →
          id ∈ w.polling.creations.map Creation.id) ∧
        (id ∈ (w.move m).polling.filters.keys →
          id ∈ w.polling.filters.keys ∨ id ∈ w.polling.creations.map Creation.id) := by
      rcases move_cases hw m with ⟨-, hd⟩ | ⟨request, s, -, -, hb⟩
      · exact ⟨hd.shrinks.creations id, hd.shrinks.filters id⟩
      · obtain ⟨w₁, hs⟩ := hb.made
        obtain ⟨s', -, p, l, rfl, -, -, hm⟩ := h
        have hne := hm.traced.id_ne_of_new hs
        rw [hb.polling]
        refine ⟨fun hc => ?_, .inl⟩
        simpa [Polling.begun, hne] using hc
    exact ⟨fun hc => hmove.1 (hcreations hc),
      fun hf => (hfilters hf).elim hmove.2 fun hc => .inr (hmove.1 hc)⟩

/-! ## The registry is given up -/

theorem Deeds.shut (h : Deeds w w') (hl : w.polling.live = false) : w'.polling.live = false :=
  h.kept (fun hc => hc.shut) hl

/-- A registry that was given up is not opened again. -/
theorem through_shut (hw : w.Managed) (hl : w.polling.live = false) (moves : List Move) :
    (w.through moves).polling.live = false := by
  induction moves generalizing w with
  | nil => exact hl
  | cons m rest ih =>
    refine ih (hw.move m) ?_
    rcases move_cases hw m with ⟨-, hd⟩ | ⟨request, s, -, -, hb⟩
    · exact hd.shut hl
    · cases hl.symm.trans hb.live

/-- When the registry is given up, with no creation under way, nobody holds it any more. -/
theorem close_live (hc : w.polling.creations = []) : (w.move .close).polling.live = false := by
  cases hl : w.polling.live with
  | true => simp [move, hl, hc, cancelDrains]
  | false => simp [move, hl]

/-! ## States of rest -/

/-- Nothing is left to do: the hub has no step to take, no creation is under way, and every task
waits. -/
structure Quiet (w : World) : Prop where
  hub : w.turn? = none
  creations : w.polling.creations = []
  tasks : w.tasksReady = false

/-- A hub that runs and has no step to take has no request for removal. -/
theorem removals_of_turn? (h : w.turn? = none) (hr : w.hub.running = true) :
    w.hub.removals = [] := by
  have hnone := turn?_eq_none_iff.mp h
  have hstop : w.hub.stops = false := by
    cases hs : w.hub.stops with
    | false => rfl
    | true => exact absurd ⟨hr, hs⟩ (hnone .stop)
  have hinstalls : w.hub.installs = [] := by
    by_contra hne
    exact hnone .install ⟨hr, hstop, hne⟩
  by_contra hne
  exact hnone .remove ⟨hr, hstop, hinstalls, hne⟩

/-- What a task finds of itself. -/
theorem drain?_of_mem {limit : UInt64} (ht : w.polling.Tidy limit) {d : Drain}
    (hd : d ∈ w.polling.drains) : w.drain? d.id = some d := find?_of_mem ht.drains_once hd

theorem Quiet.drainStep (h : w.Quiet) {d : Drain} (hd : d ∈ w.polling.drains) :
    w.drainStep d.id = none := by
  have hready := h.tasks
  rw [tasksReady, List.any_eq_false] at hready
  simpa using hready d hd

/-- Nobody waits for something on a line that is closed. -/
theorem receive_of_closed {l : Line} (hc : l.isClosed = true) (r : Receiver) :
    (l.receive r).1 ≠ .pending := by
  unfold Line.receive
  split
  · simp
  · rcases Channel.receive_cases l.buffer r.next with ⟨n, -, he⟩ | ⟨-, he⟩
    · simp [he]
    · rw [show l.buffer.closed = true from hc, if_pos rfl] at he
      simp [he]

/-- In a state of rest, the subscription that a task reads from is not gone. -/
theorem Quiet.indexed (h : w.Quiet) {limit : UInt64} (ht : w.polling.Tidy limit) {p : Place}
    {l : Line} (hm : w.Minded s p l) (hd : ⟨s.id, false⟩ ∈ w.polling.drains) : p = .indexed := by
  obtain ⟨hsome, hi⟩ := hm.tasked (List.mem_map_of_mem hd)
  obtain ⟨r, hr⟩ := Option.ne_none_iff_exists'.mp hsome
  refine (hm.traced.place_of_installed hi).resolve_right ?_
  rintro rfl
  have hreceive : w.receive s.id = some ((l.receive r).1, w.setReceiver s.id (l.receive r).2) := by
    simp only [World.receive, receiver?_eq_some.mpr ⟨hm.traced.line, hr⟩, bind, Option.bind, pure]
  have hstep := h.drainStep hd
  simp only [World.drainStep, drain?_of_mem ht hd, hreceive, bind, Option.bind,
    Bool.false_eq_true, if_false] at hstep
  cases hanswer : (l.receive r).1 with
  | pending => exact receive_of_closed (hm.traced.fits.closed rfl) r hanswer
  | notification n => simp [hanswer] at hstep
  | failed e => simp [hanswer] at hstep

/-! ## Correspondence -/

/-- Filters and subscriptions correspond, where those are the filters that were ever begun. -/
structure Corresponds (w : World) (begun : List SubscriptionId) : Prop where
  /-- The filters are the installed subscriptions that the registry made. Those whose filter has
  been removed are not installed any more. -/
  listed : ∀ id, w.polling.filters.contains id = true ↔ id ∈ begun ∧ id ∈ w.hub.ids
  /-- A filter is for what its subscription is for. -/
  alike : ∀ id f, w.polling.filters.get? id = some f →
    ∃ s ∈ w.hub.index.values, s.id = id ∧ Answers s f.request

/-- Where nothing is left to do no removal is outstanding, so every subscription that the registry
made and still minds is the one of a filter. -/
theorem Quiet.corresponds (h : w.Quiet) (hw : w.Managed) {begun : List SubscriptionId}
    (htended : ∀ id ∈ begun, w.Tended id) (hbegun : ∀ id ∈ w.polling.ids, id ∈ begun) :
    w.Corresponds begun := by
  have ht := hw.tidy
  -- a filter has a task, and so an installed subscription
  have hinstalled : ∀ id, w.polling.filters.contains id = true →
      ∃ s request l, s.id = id ∧ Answers s request ∧ w.polling.Serves id request ∧
        w.Traced s .indexed l := by
    intro id hf
    have hd := (ht.drained id).mp ((Table.contains_iff_mem_keys _ _).mp hf)
    have hid : id ∈ w.polling.ids := Polling.mem_ids.mpr (.inr (List.mem_map_of_mem hd))
    obtain ⟨s, request, p, l, rfl, hans, hserves, hm⟩ := htended id (hbegun id hid)
    obtain rfl := h.indexed ht hm hd
    exact ⟨s, request, l, rfl, hans, hserves, hm.traced⟩
  refine ⟨fun id => ⟨fun hf => ?_, fun hid => ?_⟩, fun id f hf => ?_⟩
  · have hkey := (Table.contains_iff_mem_keys _ _).mp hf
    obtain ⟨s, request, l, rfl, -, -, htraced⟩ := hinstalled id hf
    exact ⟨hbegun _ (Polling.mem_ids.mpr (.inr (ht.mem_drains hkey))), htraced.mem_ids.mpr rfl⟩
  · obtain ⟨hid, hx⟩ := hid
    obtain ⟨s, request, p, l, rfl, -, -, hm⟩ := htended id hid
    obtain rfl := hm.traced.mem_ids.mp hx
    have hrun : w.hub.running = true := by
      by_contra hr
      have hempty := (hw.roster.sound.stopped (Bool.eq_false_iff.mpr hr)).1
      rw [Hub.ids, hempty] at hx
      cases hx
    -- its receiver is with its task, or else the request for its removal would still wait
    have hbooks : s.id ∈ w.polling.ids := by
      by_contra hnot
      rcases (hm.left hnot).place with hp | ⟨-, hasked⟩
      · cases hp
      · have hm := hasked hrun
        rw [removals_of_turn? h.hub hrun] at hm
        cases hm
    rw [Polling.mem_ids, h.creations] at hbooks
    obtain ⟨⟨id, cancelled⟩, hd, rfl⟩ := List.mem_map.mp (hbooks.resolve_left List.not_mem_nil)
    cases cancelled with
    | false => exact (Table.contains_iff_mem_keys _ _).mpr ((ht.drained s.id).mpr hd)
    | true =>
      have hstep := h.drainStep hd
      simp [World.drainStep, drain?_of_mem ht hd, bind, Option.bind] at hstep
  · obtain ⟨s, request, l, rfl, hans, hserves, htraced⟩ := hinstalled id (by simp [Table.contains, hf])
    exact ⟨s, htraced.place, rfl, (hserves.filter f hf) ▸ hans⟩

/-- Who is a filter at some time has been begun by then. -/
theorem mem_created_of_filter (hw : w.Managed) (hnone : w.polling.ids = []) {moves : List Move}
    (hf : (w.through moves).polling.filters.contains id = true) : id ∈ w.created moves := by
  have hkey := (Table.contains_iff_mem_keys _ _).mp hf
  have hid := Polling.mem_ids.mpr (.inr ((hw.through moves).tidy.mem_drains hkey))
  refine (created_of_mem_ids hw hid).resolve_left ?_
  rw [hnone]
  exact List.not_mem_nil

/-- A filter that has left the registry does not come back. -/
theorem filter_final (hw : w.Managed) (hnone : w.polling.ids = []) {earlier between : List Move}
    (hf : (w.through earlier).polling.filters.contains id = true)
    (hleft : (w.through (earlier ++ between)).polling.filters.contains id = false)
    (later : List Move) :
    (w.through (earlier ++ between ++ later)).polling.filters.contains id = false := by
  have hw₁ := hw.through earlier
  have hw₂ := hw₁.through between
  have htended := tended_of_created hw (mem_created_of_filter hw hnone hf)
  rw [Table.contains_eq_false_iff, through_append] at hleft
  rw [Table.contains_eq_false_iff, through_append, through_append]
  have hkey := (Table.contains_iff_mem_keys _ _).mp hf
  -- a filter is under way no more, so it never will be
  have hcreation : id ∉ ((w.through earlier).through between).polling.creations.map Creation.id :=
    fun hc => hw₁.tidy.not_filed ((through_left hw₁ htended between).1 hc) hkey
  intro hback
  rcases (through_left hw₂ (through_tended hw₁ htended between) later).2 hback with hm | hm
  · exact hleft hm
  · exact hcreation hm

/--
**Polling filters and subscriptions correspond.** Let a registry be opened in any state of any run of
a new hub, and let anything happen then. A filter that has left the registry, for whatever reason,
never comes back. Whenever nothing is left to do, the filters are exactly the installed
subscriptions that the registry made, with the kind and the criteria of these; a subscription whose
filter has left is not installed; and when the registry has been given up, none of its subscriptions
is.
-/
theorem correspondence {bus : Bus} {config : Config} {governor : Governor} (before : List Action)
    (moves : List Move) :
    let w₀ := ((start bus config governor).after before).openPolling
    let w := w₀.through moves
    (∀ earlier between later id, moves = earlier ++ between ++ later →
      (w₀.through earlier).polling.filters.contains id = true →
      (w₀.through (earlier ++ between)).polling.filters.contains id = false →
      w.polling.filters.contains id = false) ∧
    (w.Quiet →
      w.Corresponds (w₀.created moves) ∧
      (∀ earlier id, earlier <+: moves →
        (w₀.through earlier).polling.filters.contains id = true →
        w.polling.filters.contains id = false → id ∉ w.hub.ids) ∧
      ∀ earlier later, moves = earlier ++ .close :: later →
        (w₀.through earlier).polling.creations = [] → ∀ id ∈ w₀.created moves, id ∉ w.hub.ids) := by
  intro w₀ w
  have hw₀ : w₀.Managed := openPolling_managed bus config governor before
  have hnone : w₀.polling.ids = [] := rfl
  have hw : w.Managed := hw₀.through moves
  refine ⟨?_, fun hquiet => ?_⟩
  · rintro earlier between later id rfl hf hleft
    exact filter_final hw₀ hnone hf hleft later
  have hcorr : w.Corresponds (w₀.created moves) := by
    refine hquiet.corresponds hw (fun id hid => tended_of_created hw₀ hid) fun id hid => ?_
    exact (created_of_mem_ids hw₀ hid).resolve_left (by simp [hnone])
  refine ⟨hcorr, ?_, ?_⟩
  · rintro earlier id ⟨later, rfl⟩ hf hleft hx
    have hid : id ∈ w₀.created (earlier ++ later) := by
      rw [created_append]
      exact List.mem_append_left _ (mem_created_of_filter hw₀ hnone hf)
    rw [(hcorr.listed id).mpr ⟨hid, hx⟩] at hleft
    cases hleft
  · rintro earlier later rfl hc id hid hx
    have hshut : w.polling.live = false := by
      rw [show w = ((w₀.through earlier).move .close).through later from
        (through_append _ _ _).trans (through_cons _ _ _)]
      exact through_shut ((hw₀.through earlier).move .close) (close_live hc) later
    have hf := (Table.contains_iff_mem_keys _ _).mp ((hcorr.listed id).mpr ⟨hid, hx⟩)
    rw [(hw.tidy.shut hshut).2] at hf
    cases hf

/-- Of three filters beside another client, one loses its subscription to somebody who removes that,
and its own client removes another. At rest the third is left; when the registry has been given up,
the other client's subscription alone is installed. -/
theorem correspondence_removed :
    let before : List Action := [.makeWithin .newHeads none, .submit (.issued 0), .turn .install]
    let w₀ := ((start (Bus.sized 4) {} .absent).after before).openPolling
    let moves : List Move := [.create .blocks, .create .pendingTransactions, .create .blocks,
      .act (.turn .install), .act (.turn .install), .act (.turn .install), .finish (.issued 1),
      .finish (.issued 2), .finish (.issued 3), .act (.requestRemoval (.issued 1)),
      .uninstall (.issued 2), .act (.turn .remove), .act (.turn .remove), .drain (.issued 1),
      .drain (.issued 2), .act (.turn .remove), .act (.turn .remove)]
    let closing : List Move := [.close, .drain (.issued 3), .act (.turn .remove)]
    (w₀.through moves).Quiet ∧ (w₀.through moves).Corresponds (w₀.created moves) ∧
      w₀.created moves = [.issued 1, .issued 2, .issued 3] ∧
      (w₀.through moves).polling.filters.keys = [.issued 3] ∧
      (w₀.through moves).hub.ids = [.issued 0, .issued 3] ∧
      (w₀.through (moves ++ closing)).Quiet ∧
      (w₀.through (moves ++ closing)).hub.ids = [.issued 0] := by
  intro before w₀ moves closing
  have hall := @correspondence (Bus.sized 4) {} .absent before
  have hquiet : (w₀.through moves).Quiet := ⟨by decide, by decide, by decide⟩
  exact ⟨hquiet, ((hall moves).2 hquiet).1, by decide, by decide,
    by decide, ⟨by decide, by decide, by decide⟩, by decide⟩

end World

end EventFanout
