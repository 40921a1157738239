/-
EventFanout.Proofs.Bus.Receipts — what the users of a bus receive through their handles.

A handle is on one channel all its life, and that channel gets every event published on its topic
until the topic is ended (`Bus.publishedUntilEnd`): while the handle is held somebody reads there, so
nothing that is published goes unsent. What is received through the handle (`Usage.receipts`) is an
account of the channel, `Channel.Reads`: in order, each once, and with nothing left behind but what
the channel had no room for any more (`Usage.Overwritten`).

Main statement: `events_received`, over every run of a new bus.
-/
import EventFanout.Proofs.Bus.Receiving
import EventFanout.Proofs.Bus.Usage
import Mathlib.Data.List.Induction
import Mathlib.Data.List.Permutation

namespace EventFanout

namespace Bus

def Call.published (t : Topic) : Call → Option Event
  | .publish e => if e.topic = t then some e else none
  | _ => none

def publishedUntilEnd (t : Topic) (run : List Call) : List Event :=
  (run.takeWhile fun c => !c.ends t).filterMap (Call.published t)

def Call.publishes : Call → Bool
  | .publish _ => true
  | _ => false

/-- Where a topic has been ended nothing more counts. -/
theorem publishedUntilEnd_concat (t : Topic) (run : List Call) (c : Call) :
    publishedUntilEnd t (run ++ [c]) = publishedUntilEnd t run ++
      if run.any (Call.ends t) then [] else (c.published t).toList := by
  induction run with
  | nil =>
    cases c with
    | publish e => by_cases ht : e.topic = t <;> simp [publishedUntilEnd, Call.ends, Call.published, ht]
    | unsubscribe t' => by_cases ht : t' = t <;> simp [publishedUntilEnd, Call.ends, Call.published, ht]
    | _ => simp [publishedUntilEnd, Call.ends, Call.published]
  | cons c' rest ih =>
    cases hc : c'.ends t with
    | true => simp [publishedUntilEnd, hc]
    | false =>
      have hstep : ∀ rest, publishedUntilEnd t (c' :: rest) =
          (c'.published t).toList ++ publishedUntilEnd t rest := by
        intro rest
        simp only [publishedUntilEnd, List.takeWhile_cons, hc, Bool.not_false, if_true,
          List.filterMap_cons]
        cases c'.published t <;> rfl
      rw [List.cons_append, hstep, hstep, ih, List.append_assoc, List.any_cons, hc, Bool.false_or]

end Bus

namespace Usage

open Bus (Call publishedUntilEnd)

def receipt (h : Handle) (u : Usage) : Call → Option (Nat × Event)
  | .receive h' =>
    if h' = h ∧ h ∈ u.handles then
      match u.bus.position? h, (u.bus.receive h).1 with
      | some (ch, next), .entry e => some (max next ch.log.oldest, e)
      | _, _ => none
    else none
  | _ => none

def receipts (h : Handle) : Usage → List Call → List (Nat × Event)
  | _, [] => []
  | u, c :: run => (receipt h u c).toList ++ receipts h (u.serve c) run

variable {u : Usage} {h : Handle} {t : Topic} {ch : TopicChannel} {next : Nat}

theorem receipts_concat (h : Handle) (u : Usage) (run : List Call) (c : Call) :
    receipts h u (run ++ [c]) = receipts h u run ++ (receipt h (u.after run) c).toList := by
  induction run generalizing u with
  | nil => exact (List.append_nil _)
  | cons c' rest ih => rw [List.cons_append, receipts, receipts, ih, List.append_assoc, after_cons]

/-- Only through a handle that is held anything is received. -/
theorem receipt_eq_none {c : Call} (hc : c ≠ .receive h ∨ h ∉ u.handles) :
    receipt h u c = none := by
  cases c with
  | receive h' =>
    refine if_neg ?_
    rintro ⟨rfl, hh⟩
    exact hc.elim (fun hne => hne rfl) (fun hnot => hnot hh)
  | _ => rfl

/-- A call to receive reads the first entry that is left, if there is one. -/
theorem receipt_moves (hh : h ∈ u.handles) (hp : u.bus.position? h = some (ch, next)) :
    ch.log.Moves next (receipt h u (.receive h)) (ch.log.receive next).2 := by
  simp only [receipt, hh, and_self, if_true, hp, Bus.receive_eq hp]
  rcases ch.log.receive_cases next with ⟨a, ha, he⟩ | ⟨-, he⟩
  · rw [he]
    exact .reads ha
  · rw [he]
    cases ch.log.closed <;> exact .skips

/-! ## Handles over a run -/

/-- A handle that was there to be held before a call is not obtained by the call. -/
theorem mem_of_serve (hs : u.Sound) {c : Call} (hknown : h.reader < u.bus.nextReader)
    (hh : h ∈ (u.serve c).handles) : h ∈ u.handles := by
  cases c with
  | subscribe t =>
    rcases serve_subscribe u t with ⟨h', bus, hsub, he⟩ | ⟨e, -, he⟩
    · rw [he] at hh
      refine (List.mem_append.mp hh).resolve_right fun hm => ?_
      obtain rfl := List.mem_singleton.mp hm
      obtain ⟨-, hreader, -⟩ := Bus.subscribe_reader hs.registered.wired hsub
      omega
    · rwa [he] at hh
  | receive h' =>
    simp only [serve] at hh
    split at hh <;> exact hh
  | drop h' =>
    simp only [serve] at hh
    split at hh
    · exact List.mem_of_mem_erase hh
    · exact hh
  | _ => exact hh

theorem nextReader_le (hs : u.Sound) (run : List Call) :
    u.bus.nextReader ≤ (u.after run).bus.nextReader := by
  induction run generalizing u with
  | nil => exact Nat.le_refl _
  | cons c rest ih => exact Nat.le_trans (serve_goes hs c).readers_le (ih (serve_sound hs c))

theorem mem_of_after (hs : u.Sound) {run : List Call} (hknown : h.reader < u.bus.nextReader)
    (hh : h ∈ (u.after run).handles) : h ∈ u.handles := by
  induction run generalizing u with
  | nil => exact hh
  | cons c rest ih =>
    have hknown' := Nat.lt_of_lt_of_le hknown (serve_goes hs c).readers_le
    exact mem_of_serve hs hknown (ih (serve_sound hs c) hknown' hh)

theorem not_mem_dropped (hs : u.Sound) : h ∉ (u.serve (.drop h)).handles := by
  have hn : u.handles.Nodup := hs.once.of_map
  simp only [serve]
  split
  · exact fun hh => (hn.mem_erase_iff.mp hh).1 rfl
  · assumption

/-- While a handle is held its channel gets what is published on its topic, until it has ended. -/
theorem kept_eq (hs : u.Sound) (hp : u.bus.position? h = some (ch, next)) (c : Call) :
    u.kept c h.channel = if ch.log.closed then [] else (c.published ch.topic).toList := by
  have hw := hs.registered.wired
  obtain ⟨hch, hr⟩ := Bus.position?_eq_some.mp hp
  cases c with
  | publish e =>
    simp only [kept, Bus.kept, Call.published]
    cases hc : ch.log.closed with
    | true =>
      rw [if_neg, if_pos rfl]
      rintro ⟨hroute, -⟩
      obtain ⟨ch', hch', -, hopen⟩ := hw _ _ hroute
      rw [hch] at hch'
      cases hch'
      rw [hc] at hopen
      cases hopen
    | false =>
      have hroute := hs.registered.routed _ ch hch hc
      by_cases ht : e.topic = ch.topic
      · have hcount : u.bus.receiverCount ch.topic ≠ 0 := by
          have hmem := Table.mem_entries_of_get? hr
          simp only [Bus.receiverCount, Bus.channel?, hroute, bind, Option.bind, hch, Table.size]
          exact List.length_pos_iff.mpr (List.ne_nil_of_mem hmem) |>.ne'
        simp [ht, hroute, hcount]
      · rw [if_neg, if_neg (by simp), if_neg ht, Option.toList_none]
        rintro ⟨hroute', -⟩
        exact ht (hw.unique hroute' hroute)
  | _ => simp [kept, Bus.silence, Call.published]

/-- A call leaves a handle where it is, or moves it on by an attempt to receive. -/
theorem serve_position (hs : u.Sound) (hh : h ∈ u.handles)
    (hp : u.bus.position? h = some (ch, next)) (c : Call) (hh' : h ∈ (u.serve c).handles) :
    ∃ ch' next', (u.serve c).bus.position? h = some (ch', next') ∧ ch'.topic = ch.topic ∧
      ch.log.Extends ch'.log (u.kept c h.channel) ∧
      ch'.log.closed = (ch.log.closed || c.ends ch.topic) ∧
      ch.log.Moves next (receipt h u c) next' := by
  obtain ⟨hch, hr⟩ := Bus.position?_eq_some.mp hp
  obtain ⟨ch', hch', ht, -, hlog, hc⟩ := serve_channel hs hch c
  by_cases hrec : c = .receive h
  · subst hrec
    have hmove := Bus.position?_receive hp
    have hserve : (u.serve (.receive h)).bus = (u.bus.receive h).2 := by
      simp only [serve, if_pos hh]
    rw [← hserve] at hmove
    rw [(Bus.position?_eq_some.mp hmove).1] at hch'
    cases hch'
    exact ⟨_, _, hmove, ht, hlog, hc, receipt_moves hh hp⟩
  · have hdrop : c ≠ .drop h := by
      rintro rfl
      exact not_mem_dropped hs hh'
    obtain ⟨ch₁, hch₁, -, -, hstay⟩ := (serve_goes hs c).channel _ ch hch
    rw [hch'] at hch₁
    cases hch₁
    have hr' := (hstay _ (hs.serves h hh).known (hs.not_moved hh hrec hdrop)).trans hr
    refine ⟨ch', next, Bus.position?_eq_some.mpr ⟨hch', hr'⟩, ht, hlog, hc, ?_⟩
    rw [receipt_eq_none (.inl hrec)]
    exact .stays

/-! ## The account of a handle -/

/-- At some moment of a run so many newer events had been published on a topic that a channel with
`room` for that many held the event at an index no more, and nothing from there on had been received:
`first` is where the events of the run begin on the channel. -/
def Overwritten (u : Usage) (h : Handle) (t : Topic) (room first : Nat) (run : List Call)
    (index : Nat) : Prop :=
  ∃ earlier, earlier <+: run ∧ (∀ x ∈ receipts h u earlier, x.1 < first + index) ∧
    room ≤ ((publishedUntilEnd t earlier).drop (index + 1)).length

/-- How the channel of a handle stands after a run through which the handle is held; `first` is where
the handle began, and `next` where it is. -/
structure Follows (u : Usage) (h : Handle) (t : Topic) (room first : Nat) (run : List Call)
    (ch : TopicChannel) (next : Nat) : Prop where
  position : (u.after run).bus.position? h = some (ch, next)
  topic : ch.topic = t
  capacity : ch.log.capacity = room
  ended : ch.log.closed = run.any (Call.ends t)
  sent : ch.log.sent.drop first = publishedUntilEnd t run
  reads : Channel.Reads (fun i => u.Overwritten h t room first run (i - first)) ch.log first next
    (receipts h u run)

theorem Follows.overwritten {room first : Nat} {run : List Call}
    (hf : Follows u h t room first run ch next) {i : Nat} (hi : next ≤ i)
    (hold : i < ch.log.oldest) : u.Overwritten h t room first run (i - first) := by
  have hfirst := hf.reads.first_le
  refine ⟨run, List.prefix_rfl, fun x hx => ?_, ?_⟩
  · have hread := (hf.reads.sent x.1 x.2 hx).2.1
    omega
  · rw [← hf.sent, List.drop_drop, List.length_drop, Channel.length_sent, ← hf.capacity]
    unfold Channel.oldest at hold
    omega

theorem Follows.concat {room first : Nat} {run : List Call}
    (hf : Follows u h t room first run ch next) (hs : (u.after run).Sound)
    (hh : h ∈ (u.after run).handles) (c : Call) (hh' : h ∈ ((u.after run).serve c).handles) :
    ∃ ch' next', Follows u h t room first (run ++ [c]) ch' next' := by
  obtain ⟨ch', next', hp, ht, hlog, hc, hmoves⟩ := serve_position hs hh hf.position c hh'
  have hlost : ∀ i, u.Overwritten h t room first run (i - first) →
      u.Overwritten h t room first (run ++ [c]) (i - first) := by
    rintro i ⟨earlier, hpre, ho⟩
    exact ⟨earlier, hpre.trans (List.prefix_append run [c]), ho⟩
  refine ⟨ch', next', ?_, ht.trans hf.topic, hlog.capacity.trans hf.capacity, ?_, ?_, ?_⟩
  · rw [after_concat]
    exact hp
  · rw [hc, hf.ended, hf.topic, List.any_append, List.any_cons, List.any_nil, Bool.or_false]
  · have hle : first ≤ ch.log.sent.length := by
      rw [Channel.length_sent]
      exact Nat.le_trans hf.reads.first_le hf.reads.next_le
    rw [hlog.sent, List.drop_append_of_le_length hle, hf.sent, kept_eq hs hf.position, hf.topic,
      hf.ended, Bus.publishedUntilEnd_concat]
  · rw [receipts_concat]
    refine ((hf.reads.mono hlost).move hmoves ?_).extend hlog
    exact fun i hi hold => hlost i (hf.overwritten hi hold)

/-- A handle that has just been obtained is followed as long as it is held. -/
theorem after_follows (hs : u.Sound) (hh : h ∈ u.handles)
    (hp : u.bus.position? h = some (ch, ch.log.size)) (hopen : ch.log.closed = false)
    (run : List Call) (hheld : h ∈ (u.after run).handles) :
    ∃ ch' next', Follows u h ch.topic ch.log.capacity ch.log.size run ch' next' := by
  induction run using List.reverseRecOn with
  | nil =>
    refine ⟨ch, ch.log.size, hp, rfl, rfl, hopen, ?_, .start (Nat.le_refl _)⟩
    rw [List.drop_eq_nil_iff.mpr (Nat.le_of_eq ch.log.length_sent)]
    rfl
  | append_singleton run c ih =>
    have hrun := after_sound hs run
    rw [after_concat] at hheld
    have hknown := Nat.lt_of_lt_of_le (hs.serves h hh).known (nextReader_le hs run)
    have hbefore := mem_of_serve hrun hknown hheld
    obtain ⟨ch', next', hf⟩ := ih hbefore
    exact hf.concat hrun hbefore c hheld

/-- What a handle ever receives is in the order published, also if it is given up. -/
theorem receipts_sublist (hs : u.Sound) (hh : h ∈ u.handles)
    (hp : u.bus.position? h = some (ch, ch.log.size)) (hopen : ch.log.closed = false)
    (run : List Call) :
    ((receipts h u run).map (·.2)).Sublist (publishedUntilEnd ch.topic run) := by
  induction run using List.reverseRecOn with
  | nil => exact List.nil_sublist _
  | append_singleton run c ih =>
    by_cases hrec : c = .receive h ∧ h ∈ (u.after run).handles
    · obtain ⟨rfl, hheld⟩ := hrec
      have hheld' : h ∈ (u.after (run ++ [.receive h])).handles := by
        simpa only [after_concat, serve, if_pos hheld] using hheld
      obtain ⟨ch', next', hf⟩ := after_follows hs hh hp hopen _ hheld'
      rw [← hf.sent]
      exact hf.reads.sublist
    · rw [receipts_concat, receipt_eq_none (not_and_or.mp hrec), Option.toList_none,
        List.append_nil, Bus.publishedUntilEnd_concat]
      exact ih.trans (List.sublist_append_left _ _)

/-! ## The end of a handle -/

/-- A handle tells of the end just when its channel has ended and nothing is held for it. -/
theorem ended_iff (hp : u.bus.position? h = some (ch, next)) :
    (u.bus.receive h).1 = .ended ↔ ch.log.closed = true ∧ u.bus.heldFor h = [] := by
  rw [Bus.receive_fst hp]
  cases u.bus.heldFor h with
  | nil => cases ch.log.closed <;> simp
  | cons e rest => simp

/-- A handle that has told of the end tells of nothing else, as long as it is held. -/
theorem ended_forever (hs : u.Sound) (hh : h ∈ u.handles) (hend : (u.bus.receive h).1 = .ended)
    (run : List Call) (hheld : h ∈ (u.after run).handles) :
    ((u.after run).bus.receive h).1 = .ended := by
  induction run generalizing u with
  | nil => exact hend
  | cons c rest ih =>
    have hs' := serve_sound hs c
    have hknown := Nat.lt_of_lt_of_le (hs.serves h hh).known (serve_goes hs c).readers_le
    have hheld' := mem_of_after hs' hknown hheld
    obtain ⟨ch, next, hp, -⟩ := (hs.serves h hh).position
    obtain ⟨hclosed, hnone⟩ := (ended_iff hp).mp hend
    obtain ⟨ch', next', hp', -, hlog, -, hmoves⟩ := serve_position hs hh hp c hheld'
    refine ih hs' hheld' ((ended_iff hp').mpr ⟨hlog.closed hclosed, ?_⟩) hheld
    rw [kept_eq hs hp, hclosed] at hlog
    rw [Bus.heldFor_eq hp] at hnone
    rw [Bus.heldFor_eq hp', hlog.held_eq, hmoves.held_eq_nil hnone]

/-! ## What handles receive -/

/-- What has come of a handle after a run through which it is held: of what was published on its
topic until the topic ended, the first `passed` events were received or lost. On the channel they
stand from `first` on. -/
structure Receives (u : Usage) (h : Handle) (t : Topic) (room : Nat) (run : List Call)
    (first passed : Nat) : Prop where
  /-- What was received was published. -/
  read : ∀ i e, (i, e) ∈ receipts h u run →
    first ≤ i ∧ i < first + passed ∧ (publishedUntilEnd t run)[i - first]? = some e
  /-- It was received in the order published, and each event once. -/
  order : (receipts h u run).Pairwise fun x y => x.1 < y.1
  unread : (u.after run).bus.heldFor h = (publishedUntilEnd t run).drop passed
  /-- What was published is received, or still to be received, or else it was overwritten before. -/
  missing : ∀ i e, (publishedUntilEnd t run)[i]? = some e →
    (first + i, e) ∈ receipts h u run ∨ passed ≤ i ∨ u.Overwritten h t room first run i

/-- What the reader has behind it on its channel is what the handle received or lost. -/
theorem Follows.receives {room first : Nat} {run : List Call}
    (hf : Follows u h t room first run ch next) :
    u.Receives h t room run first (max next ch.log.oldest - first) := by
  have hfirst := hf.reads.first_le
  have hpassed : first + (max next ch.log.oldest - first) = max next ch.log.oldest := by omega
  constructor
  · intro i e hm
    obtain ⟨h₁, h₂, he⟩ := hf.reads.sent i e hm
    refine ⟨h₁, by omega, ?_⟩
    rwa [← hf.sent, List.getElem?_drop, Nat.add_sub_cancel' h₁]
  · exact hf.reads.order
  · rw [Bus.heldFor_eq hf.position, ← hf.sent, List.drop_drop, hpassed, Channel.held]
  · intro i e hi
    rw [← hf.sent, List.getElem?_drop] at hi
    by_cases hnext : first + i < next
    · by_cases hm : first + i ∈ (receipts h u run).map (·.1)
      · obtain ⟨⟨j, e'⟩, hm, rfl⟩ := List.mem_map.mp hm
        obtain ⟨-, -, he⟩ := hf.reads.sent _ e' hm
        rw [hi, Option.some.injEq] at he
        exact .inl (he ▸ hm)
      · have hlost := hf.reads.lost _ (Nat.le_add_right _ _) hnext hm
        rw [Nat.add_sub_cancel_left] at hlost
        exact .inr (.inr hlost)
    · by_cases hold : first + i < ch.log.oldest
      · have hlost := hf.overwritten (Nat.le_of_not_lt hnext) hold
        rw [Nat.add_sub_cancel_left] at hlost
        exact .inr (.inr hlost)
      · exact .inr (.inl (by omega))

/-- What a handle on a topic gives whoever holds it, through a run that begins when it is obtained. -/
structure Delivers (u : Usage) (h : Handle) (t : Topic) (room : Nat) (run : List Call) : Prop where
  /-- All that is ever received was published in between, and comes in that order. -/
  inOrder : ((receipts h u run).map (·.2)).Sublist (publishedUntilEnd t run)
  receives : h ∈ (u.after run).handles → ∃ first passed, u.Receives h t room run first passed
  /-- The end is told just when the topic has ended and nothing is left to receive. -/
  ended : h ∈ (u.after run).handles → (((u.after run).bus.receive h).1 = .ended ↔
    (.close ∈ run ∨ .unsubscribe t ∈ run) ∧ (u.after run).bus.heldFor h = [])
  /-- Once it is told nothing else is, whatever is called. -/
  forever : h ∈ (u.after run).handles → ((u.after run).bus.receive h).1 = .ended →
    ∀ more, h ∈ (u.after (run ++ more)).handles →
      ((u.after (run ++ more)).bus.receive h).1 = .ended

theorem granted_delivers (hs : u.Sound) (hsub : (u.bus.subscribe t).1 = .ok h) (run : List Call) :
    (u.serve (.subscribe t)).Delivers h t (ringSize u.bus.capacity) run := by
  obtain ⟨hh, -, ch, hch, ht, -, hopen, hr⟩ := granted_channel hs hsub
  have hs' := serve_sound hs (.subscribe t)
  have hp := Bus.position?_eq_some.mpr ⟨hch, hr⟩
  have hroom : ch.log.capacity = ringSize u.bus.capacity := by
    rw [hs'.registered.room _ ch hch, serve_capacity]
  have hfollows := after_follows hs' hh hp hopen run
  rw [ht, hroom] at hfollows
  constructor
  · exact ht ▸ receipts_sublist hs' hh hp hopen run
  · intro hheld
    obtain ⟨ch', next', hf⟩ := hfollows hheld
    exact ⟨_, _, hf.receives⟩
  · intro hheld
    obtain ⟨ch', next', hf⟩ := hfollows hheld
    rw [ended_iff hf.position, hf.ended, any_ends_iff]
  · intro hheld hend more hmore
    rw [after_append] at hmore ⊢
    exact ended_forever (after_sound hs' run) hheld hend more hmore

/-! ## Publishing -/

/-- An event reaches every handle that is held on the channel its topic is routed to. -/
theorem publish_reaches (hs : u.Sound) (e : Event) :
    (u.bus.publish e).1 =
      match u.bus.routes.get? e.topic with
      | some place => (u.attached place).length
      | none => 0 := by
  cases hroute : u.bus.routes.get? e.topic with
  | none => simp only [Bus.publish, hroute]
  | some place =>
    obtain ⟨ch, hch, -⟩ := hs.registered.wired _ _ hroute
    refine (Bus.publish_channels e hroute hch).1.trans ?_
    show _ = (u.attached place).length
    rw [hs.length_attached, Bus.readersAt_eq hch]

/-- Only publishing counts, and it does so in any case. -/
theorem serve_published (u : Usage) (c : Call) :
    (u.serve c).bus.published = u.bus.published + if c.publishes then 1 else 0 := by
  cases c with
  | subscribe t =>
    have hroute : (u.bus.route t).2.published = u.bus.published := by
      unfold Bus.route
      split <;> rfl
    have hsub : (u.bus.subscribe t).2.published = u.bus.published := by
      unfold Bus.subscribe
      split
      · rfl
      · split
        · rfl
        · exact hroute
    rcases serve_subscribe u t with ⟨h, bus, he, hserve⟩ | ⟨e, -, hserve⟩
    · rw [he] at hsub
      simpa [hserve, Call.publishes] using hsub
    · simp [hserve, Call.publishes]
  | unsubscribe t =>
    simp only [serve, Bus.unsubscribe, Call.publishes]
    split <;> simp [Bus.endChannel, Bus.modify]
  | close =>
    have hfold : ∀ (places : List Nat) (b : Bus),
        (places.foldl Bus.endChannel b).published = b.published := by
      intro places
      induction places with
      | nil => exact fun _ => rfl
      | cons place rest ih => exact fun b => ih (b.endChannel place)
    simpa [serve, Bus.close, Call.publishes] using hfold _ u.bus
  | publish e =>
    simp only [serve, Bus.publish, Call.publishes]
    split
    · rfl
    · split <;> rfl
  | receive h =>
    simp only [serve, Bus.receive, Call.publishes]
    split
    · split <;> simp [Bus.advance, Bus.modify]
    · simp
  | drop h =>
    simp only [serve, Call.publishes]
    split <;> simp [Bus.drop, Bus.modify]

theorem published_after (u : Usage) (run : List Call) :
    (u.after run).bus.published = u.bus.published + .ofNat (run.countP Call.publishes) := by
  induction run generalizing u with
  | nil => exact (UInt64.add_zero _).symm
  | cons c rest ih =>
    rw [after_cons, ih, serve_published, List.countP_cons, UInt64.add_assoc, UInt64.ofNat_add]
    congr 1
    cases c.publishes with
    | true => exact UInt64.add_comm _ _
    | false => exact UInt64.add_comm _ _

/--
**What is published on a topic is received through its handles.** Over every run of a new bus,
publishing reaches the handles held on the current channel of the topic and is counted in any case.
A handle that was obtained on the way gives out, in order and each at most once, what was published
on its topic from then on until the topic ended, and omits only what was overwritten before; then it
tells of the end, for good.
-/
theorem events_received (capacity : Nat) (run : List Call) :
    (∀ e, (((start capacity).after run).bus.publish e).1 =
      match ((start capacity).after run).bus.routes.get? e.topic with
      | some place => (((start capacity).after run).attached place).length
      | none => 0) ∧
    ((start capacity).after run).bus.published = .ofNat (run.countP Call.publishes) ∧
    ∀ before t h later, run = before ++ .subscribe t :: later →
      (((start capacity).after before).bus.subscribe t).1 = .ok h →
      ((start capacity).after (before ++ [.subscribe t])).Delivers h t (ringSize capacity) later := by
  have hs := start_sound capacity
  refine ⟨publish_reaches (after_sound hs run), ?_, ?_⟩
  · rw [published_after]
    exact UInt64.zero_add _
  · rintro before t h later - hsub
    have hroom : ringSize ((start capacity).after before).bus.capacity = ringSize capacity := by
      rw [after_capacity]
      exact Channel.ringSize_max_one capacity
    rw [after_concat, ← hroom]
    exact granted_delivers (after_sound hs before) hsub later

/-- On a bus with room for two, a handle that is used late receives the last two of three events; the
first has been overwritten by then. Its topic is unsubscribed, so it then tells of the end. -/
theorem events_received_late :
    let e (text : String) : Event := ⟨"a", .raw (.text text)⟩
    let h : Handle := ⟨"a", 1, 0, 0⟩
    let later : List Call := [.publish (e "1"), .publish (e "2"), .publish (e "3"),
      .unsubscribe "a", .receive h, .receive h]
    let u := (start 2).after [.subscribe "a"]
    (((start 2).after []).bus.subscribe "a").1 = .ok h ∧ u.Delivers h "a" 2 later ∧
      receipts h u later = [(1, e "2"), (2, e "3")] ∧
      ((u.after later).bus.receive h).1 = .ended := by
  intro e h later u
  have hsub : (((start 2).after []).bus.subscribe "a").1 = .ok h := rfl
  exact ⟨hsub, (events_received 2 (.subscribe "a" :: later)).2.2 [] "a" h later rfl hsub,
    by cbv, by cbv⟩

end Usage

end EventFanout
