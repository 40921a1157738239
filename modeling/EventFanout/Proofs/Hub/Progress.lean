/-
EventFanout.Proofs.Hub.Progress — a hub that works has less to do after every step.

What a hub has to do is bounded by `workLeft`: the requests in its two queues, and for every topic
the reads that are left there (`World.readsLeft`). No step of the hub puts anything into a queue,
and no step sends anything on a channel that the hub goes on reading, or closes one: the channels it
closes are those it stops reading (`World.Quits`, `World.Spares`). So a step leaves no topic more to
read than there was (`World.Wanes`), and it takes a request or a read away, its own.

Main statements: `perform_workLeft`, any step that is due and does not stop the hub leaves less to
do; and `runHub_rests`, a hub that works as many steps as `workLeft` says has nothing left to do.
-/
import EventFanout.Proofs.Hub.Endings
import EventFanout.Proofs.Order
import Mathlib.Algebra.Order.BigOperators.Group.Finset

namespace EventFanout

/-! ## How many reads are left -/

namespace Channel

variable {α : Type} {c c' : Channel α} {next next' : Nat}

/-- The end can be read again and again; any other read leaves one less. -/
theorem unread_of_read? {item : Item α} (h : c.read? next = some (item, next')) :
    (item = .ended ∧ next' = next ∧ 0 < c.unread next) ∨ c.unread next' < c.unread next := by
  rcases read?_cases h with ⟨hn, rfl, -⟩ | ⟨a, hn, ha, rfl, -⟩ | ⟨hc, rfl, rfl⟩
  · right
    have hmax : max c.oldest c.oldest = max next c.oldest := by omega
    simp only [unread, hn, if_true, Nat.lt_irrefl, if_false, hmax]
    omega
  · right
    obtain ⟨hlt, -⟩ := List.getElem?_eq_some_iff.mp ha
    rw [length_sent] at hlt
    have hbehind' : ¬ next + 1 < c.oldest := by omega
    simp only [unread, if_neg (Nat.not_lt.mpr hn), if_neg hbehind']
    omega
  · left
    exact ⟨rfl, rfl, by simp only [unread, hc, if_true]; omega⟩

/-- Where there is nothing to read, everything has been read and the channel is open. -/
theorem held_of_read?_eq_none (h : c.read? next = none) : c.held next = [] ∧ c.closed = false := by
  rw [read?_eq] at h
  split at h
  · cases h
  · split at h
    · cases h
    · rename_i hheld
      split at h
      · cases h
      · rename_i hc
        exact ⟨hheld, by simpa using hc⟩

/-- Where nothing is sent and nothing is closed there is as much to read as before. -/
theorem Extends.unread_eq (h : c.Extends c' []) (hc : c'.closed = true → c.closed = true)
    (next : Nat) : c'.unread next = c.unread next := by
  have hclosed : c'.closed = c.closed := Bool.eq_iff_iff.mpr ⟨hc, h.closed⟩
  have hsize : c'.size = c.size := h.size
  rw [unread, unread, oldest, oldest, hsize, h.capacity, hclosed]

/-- A new reader of an open channel has nothing to read. -/
theorem unread_size (hc : c.closed = false) : c.unread c.size = 0 := by
  have hold : c.oldest ≤ c.size := c.oldest_le_tail
  have hmax : max c.size c.oldest = c.size := by omega
  simp only [unread, hc, if_neg (Nat.not_lt.mpr hold), hmax, Nat.sub_self, Bool.false_eq_true,
    if_false]

end Channel

/-! ## Sums over tables -/

namespace Table

variable {κ α : Type} [DecidableEq κ] {t t' : Table κ α} {g g' : α → Nat}

/-- What the value for a key counts; without one nothing. -/
def weight (t : Table κ α) (g : α → Nat) (k : κ) : Nat := ((t.get? k).map g).getD 0

/-- The values add up key by key, over any keys that are not fewer. -/
theorem sum_values (hn : t.keys.Nodup) (g : α → Nat) {s : Finset κ} (hs : t.keys.toFinset ⊆ s) :
    (t.values.map g).sum = ∑ k ∈ s, t.weight g k := by
  have hkeys : t.values.map g = t.keys.map (t.weight g) := by
    rw [values, keys, List.map_map, List.map_map]
    refine List.map_congr_left fun e he => ?_
    rw [Function.comp_apply, Function.comp_apply, weight, get?_of_mem hn he]
    rfl
  rw [hkeys, ← List.sum_toFinset _ hn]
  refine Finset.sum_subset hs fun k _ hk => ?_
  rw [List.mem_toFinset, ← get?_eq_none_iff] at hk
  rw [weight, hk]
  rfl

theorem sum_values_le (hn : t.keys.Nodup) (hn' : t'.keys.Nodup)
    (h : ∀ k, t'.weight g' k ≤ t.weight g k) : (t'.values.map g').sum ≤ (t.values.map g).sum := by
  rw [sum_values hn' g' Finset.subset_union_right, sum_values hn g Finset.subset_union_left]
  exact Finset.sum_le_sum fun k _ => h k

theorem sum_values_lt (hn : t.keys.Nodup) (hn' : t'.keys.Nodup)
    (h : ∀ k, t'.weight g' k ≤ t.weight g k) {k : κ} (hk : t'.weight g' k < t.weight g k) :
    (t'.values.map g').sum < (t.values.map g).sum := by
  have hmem : k ∈ t.keys := by
    by_contra hno
    rw [← get?_eq_none_iff] at hno
    rw [weight, weight, hno] at hk
    exact Nat.not_lt_zero _ hk
  rw [sum_values hn' g' Finset.subset_union_right, sum_values hn g Finset.subset_union_left]
  exact Finset.sum_lt_sum (fun k _ => h k)
    ⟨k, Finset.mem_union_left _ (List.mem_toFinset.mpr hmem), hk⟩

end Table

namespace World

variable {w w' w'' : World} {t : Topic} {h : Handle}

/-! ## What is left to read -/

def readsLeft (w : World) (t : Topic) : Nat := w.hub.feeds.weight w.unread t

theorem readsLeft_of_feed (ht : w.hub.feeds.get? t = some h) : w.readsLeft t = w.unread h := by
  rw [readsLeft, Table.weight, ht]
  rfl

theorem readsLeft_of_no_feed (ht : w.hub.feeds.get? t = none) : w.readsLeft t = 0 := by
  rw [readsLeft, Table.weight, ht]
  rfl

/-- What is left to do is what waits in the queues, and what is left to read. -/
theorem workLeft_eq (w : World) : w.workLeft =
    1 + w.hub.installs.length + w.hub.removals.length + (w.hub.feeds.values.map w.unread).sum := rfl

theorem unread_of_position {ch : TopicChannel} {next : Nat}
    (hp : w.bus.position? h = some (ch, next)) : w.unread h = ch.log.unread next := by
  simp only [unread, hp]

/-- A reader that stays on a channel that is not ended has as much to read as before. -/
theorem unread_of_goes {moved : Nat → Nat → Prop} {ended : Topic → Prop}
    (hs : w.bus.Serves t h) (hg : w.bus.Goes w'.bus Bus.silence moved)
    (hm : ¬ moved h.channel h.reader) (hl : w.bus.Leaves w'.bus ended) (hopen : ¬ ended t) :
    w'.unread h = w.unread h := by
  obtain ⟨ch, next, hch, rfl, hr, -, -⟩ := hs.channel
  obtain ⟨ch', hch', -, hlog, hr'⟩ := hg.channel _ ch hch
  obtain ⟨ch'', hch'', -, -, hc⟩ := hl.channel _ ch hch
  rw [hch', Option.some.injEq] at hch''
  subst hch''
  rw [unread_of_position (Bus.position?_eq_some.mpr ⟨hch, hr⟩),
    unread_of_position (Bus.position?_eq_some.mpr ⟨hch', (hr' _ hs.known hm).trans hr⟩)]
  exact hlog.unread_eq (fun hclosed => (hc hclosed).resolve_right hopen) next

/-- No topic has more to read than before. -/
def Wanes (w w' : World) : Prop := ∀ t, w'.readsLeft t ≤ w.readsLeft t

theorem Wanes.of_eq (hb : w'.bus = w.bus) (hx : w'.hub.feeds = w.hub.feeds) : w.Wanes w' := by
  intro t
  have hunread : w'.unread = w.unread := by
    funext h
    rw [unread, unread, hb]
  rw [readsLeft, readsLeft, hx, hunread]

/-- To give feeds up, and to end only topics that are given up, leaves the others as they are. -/
theorem Quits.wanes (hq : Quits w w') (hf : w.Fed) (hs : w'.hub.Consistent) (hl : Spares w w') :
    w.Wanes w' := by
  intro t
  cases ht' : w'.hub.feeds.get? t with
  | none =>
    rw [readsLeft_of_no_feed ht']
    exact Nat.zero_le _
  | some h =>
    have ht : w.hub.feeds.get? t = some h := by
      rcases hq.feeds t with he | he
      · rw [← he, ht']
      · rw [ht'] at he
        cases he
    have hstay : ¬ forsaken w w' h.channel h.reader := by
      rintro ⟨t₀, h₀, ht₀, hnone, hc, -⟩
      rw [hf.unique ht₀ ht hc.symm, ht'] at hnone
      cases hnone
    have hregistered := hs.contains_of_feed ht'
    rw [readsLeft_of_feed ht, readsLeft_of_feed ht', unread_of_goes (hf.serves t h ht) hq.goes hstay
      hl.leaves fun hended => by rw [hregistered] at hended; cases hended.2]

/-- A hub that subscribes to a topic has nothing to read there yet. -/
theorem attach_wanes (hf : w.Fed) {hd : Handle} {bus : Bus}
    (hs : w.bus.subscribe t = (.ok hd, bus)) (hb : w'.bus = bus)
    (hx : w'.hub.feeds = w.hub.feeds.set t hd) : w.Wanes w' := by
  have hgo := Bus.subscribe_goes hf.wired t
  have hleaves : w.bus.Leaves (w.bus.subscribe t).2 fun _ => False := Bus.subscribe_leaves _ t
  obtain ⟨-, -, -, hroute, ch, hch, -, hr⟩ := Bus.subscribe_reader hf.wired hs
  rw [hs, ← hb] at hgo hleaves
  rw [← hb] at hroute hch
  intro t'
  by_cases he : t = t'
  · subst he
    obtain ⟨ch', hch', -, hopen⟩ := hgo.wired t _ hroute
    rw [hch, Option.some.injEq] at hch'
    subst hch'
    have hfeed : w'.hub.feeds.get? t = some hd := by rw [hx, Table.get?_set, if_pos rfl]
    rw [readsLeft_of_feed hfeed, unread_of_position (Bus.position?_eq_some.mpr ⟨hch, hr⟩),
      Channel.unread_size hopen]
    exact Nat.zero_le _
  · have hsame : w'.hub.feeds.get? t' = w.hub.feeds.get? t' := by
      rw [hx, Table.get?_set, if_neg he]
    cases ht' : w.hub.feeds.get? t' with
    | none =>
      rw [readsLeft_of_no_feed (hsame.trans ht')]
      exact Nat.zero_le _
    | some h =>
      rw [readsLeft_of_feed ht', readsLeft_of_feed (hsame.trans ht'),
        unread_of_goes (hf.serves t' h ht') hgo id hleaves id]

/-- To go on reading on one topic leaves the others as they are. -/
theorem advance_readsLeft (hf : w.Fed) {ch : TopicChannel} (ht : w.hub.feeds.get? t = some h)
    (hch : w.bus.channels[h.channel]? = some ch) (next : Nat) (t' : Topic) :
    { w with bus := w.bus.advance h next }.readsLeft t' =
      if t = t' then ch.log.unread next else w.readsLeft t' := by
  let v : World := { w with bus := w.bus.advance h next }
  show v.readsLeft t' = _
  by_cases he : t = t'
  · subst he
    obtain ⟨hch', hr⟩ := Bus.advance_channel next hch
    have hfeed : v.hub.feeds.get? t = some h := ht
    rw [if_pos rfl, readsLeft_of_feed hfeed,
      unread_of_position (Bus.position?_eq_some.mpr ⟨hch', hr⟩)]
    rfl
  · rw [if_neg he]
    cases ht' : w.hub.feeds.get? t' with
    | none =>
      have hfeed : v.hub.feeds.get? t' = none := ht'
      rw [readsLeft_of_no_feed ht', readsLeft_of_no_feed hfeed]
    | some h' =>
      have hfeed : v.hub.feeds.get? t' = some h' := ht'
      have hstay : ¬ Bus.mover h h'.channel h'.reader := fun hm =>
        he (hf.unique ht ht' hm.1.symm)
      have hleaves : w.bus.Leaves v.bus fun _ => False := Bus.advance_leaves _ _ _
      rw [readsLeft_of_feed ht', readsLeft_of_feed hfeed,
        unread_of_goes (hf.serves t' h' ht') (Bus.advance_goes hf.wired h next) hstay hleaves id]

/-! ## Steps -/

/-- Installing leaves no topic more to read. -/
theorem install_wanes (hf : w.Fed) (hs : w.hub.Consistent) : w.Wanes (w.perform .install) := by
  rcases install_feeds hs with ⟨hb, hx⟩ | ⟨t, hd, bus, -, hsub, hb, hx⟩
  · exact .of_eq hb hx
  · exact attach_wanes hf hsub hb hx

/-- A topic that has ended is not read any more. -/
theorem closeTopic_feed (hs : w.hub.Consistent) (ht : w.hub.feeds.get? t = some h) :
    (w.closeTopic t).hub.feeds.get? t = none := by
  rcases closeTopic_cases hs.ids_once t with ⟨hno, -⟩ | ⟨-, m, he⟩
  · rw [hs.contains_of_feed ht] at hno
    cases hno
  · rw [he, Table.get?_erase, if_pos rfl]

/-- Reading from a topic leaves no other topic more to read, and that one less. -/
theorem read_wanes (hf : w.Fed) (hs : w.hub.Sound) (hr : w.hub.running = true)
    (hready : w.isReady t = true) :
    w.Wanes (w.perform (.read t)) ∧ (w.perform (.read t)).readsLeft t < w.readsLeft t := by
  have hs' := ((perform_evolves hr (.read t)).sound hs).consistent
  rcases read_feeds hf t with ⟨hno, -⟩ | ⟨h, ch, next, next', item, ht, hch, hnext, hle, hread, he⟩
  · rw [isReady, hno] at hready
    cases hready
  · have hf' := advance_fed hf ht hch (Channel.le_of_read? hle hread)
    have hbefore : w.readsLeft t = ch.log.unread next := by
      rw [readsLeft_of_feed ht, unread_of_position (Bus.position?_eq_some.mpr ⟨hch, hnext⟩)]
    have hmoved := advance_readsLeft hf ht hch next'
    have hrest : Wanes { w with bus := w.bus.advance h next' } (w.perform (.read t)) := by
      rw [he] at hs' ⊢
      exact (dispatch_quits hf ht hch hle hread).wanes hf' hs'
        (dispatch_spares hf' hs.consistent t item)
    obtain ⟨hle', hlt⟩ : ch.log.unread next' ≤ ch.log.unread next ∧
        (w.perform (.read t)).readsLeft t < w.readsLeft t := by
      rcases Channel.unread_of_read? hread with ⟨rfl, rfl, hpos⟩ | hless
      · -- the reader stays where it is, but nobody reads there any more
        have hgone := closeTopic_feed (w := { w with bus := w.bus.advance h next' })
          hs.consistent ht
        rw [he, hbefore]
        exact ⟨Nat.le_refl _, (readsLeft_of_no_feed hgone).symm ▸ hpos⟩
      · refine ⟨Nat.le_of_lt hless, lt_of_le_of_lt (hrest t) ?_⟩
        rw [hmoved, if_pos rfl, hbefore]
        exact hless
    refine ⟨fun t' => (hrest t').trans ?_, hlt⟩
    rw [hmoved]
    split
    · rename_i h
      exact h ▸ hbefore ▸ hle'
    · exact Nat.le_refl _

/--
**Every step leaves less to do.** A step that is due, and that does not stop the hub, takes from
what is left to do, whatever comes of it.
-/
theorem perform_workLeft (hf : w.Fed) (hs : w.hub.Sound) {turn : Turn} (hdue : w.Due turn)
    (hstop : turn ≠ .stop) : (w.perform turn).workLeft < w.workLeft := by
  have hr := hdue.running
  have hs' := ((perform_evolves hr turn).sound hs).consistent
  have hn : w.hub.feeds.keys.Nodup := hs.consistent.feeds_eq ▸ hs.consistent.topics_once
  have hn' : (w.perform turn).hub.feeds.keys.Nodup := hs'.feeds_eq ▸ hs'.topics_once
  have hinstalls := perform_installs w hstop
  have hremovals := perform_removals w hstop
  rw [workLeft_eq, workLeft_eq, hinstalls, hremovals]
  cases turn with
  | stop => exact absurd rfl hstop
  | install =>
    have hreads := Table.sum_values_le hn hn' (install_wanes hf hs.consistent)
    have hone := List.length_pos_iff.mpr hdue.2.2
    simp only [if_true, List.length_drop, Action.takesRemoval, Bool.false_eq_true, if_false]
    omega
  | remove =>
    have hreads := Table.sum_values_le hn hn'
      ((remove_quits hf).wanes hf hs' (remove_spares hf.wired))
    have hone := List.length_pos_iff.mpr hdue.2.2.2
    simp only [reduceCtorEq, if_true, List.length_drop, Action.takesRemoval, if_false]
    omega
  | read t =>
    obtain ⟨hwanes, hless⟩ := read_wanes hf hs hr hdue.2.2.2.2
    have hreads := Table.sum_values_lt hn hn' hwanes hless
    simp only [reduceCtorEq, List.length_drop, Action.takesRemoval, Bool.false_eq_true, if_false]
    omega

/-! ## Coming to rest -/

theorem takeTurns_of_rest (h : w.turn? = none) (n : Nat) : takeTurns n w = w := by
  cases n with
  | zero => rfl
  | succ n => simp only [takeTurns, h]

/-- A hub that may take as many steps as it has left to do comes to rest. -/
theorem takeTurns_rests {n : Nat} (hf : w.Fed) (hs : w.hub.Sound) (hn : w.workLeft ≤ n) :
    (takeTurns n w).turn? = none := by
  induction n generalizing w with
  | zero =>
    rw [workLeft_eq] at hn
    omega
  | succ n ih =>
    rw [takeTurns]
    cases ht : w.turn? with
    | none => exact ht
    | some turn =>
      have hdue := due_of_turn? ht
      have hf' := perform_fed hf hs.consistent turn
      have hs' := (perform_evolves hdue.running turn).sound hs
      by_cases hstop : turn = .stop
      · subst hstop
        have hstopped : (w.perform .stop).turn? = none := rfl
        exact (congrArg turn? (takeTurns_of_rest hstopped n)).trans hstopped
      · have hless := perform_workLeft hf hs hdue hstop
        exact ih hf' hs' (by omega)

/-- A hub that works does so until it has nothing left to do. -/
theorem runHub_rests (hf : w.Fed) (hs : w.hub.Sound) : w.runHub.turn? = none :=
  takeTurns_rests hf hs (Nat.le_refl _)

end World

end EventFanout
