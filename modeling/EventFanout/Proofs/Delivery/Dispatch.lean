/-
EventFanout.Proofs.Delivery.Dispatch — what a hub reads during one registration.

A registration is known by the handle that the hub reads its topic through. The handle
is followed through a run (`World.Tracked`): while the hub has it, its reader is on the
channel; once the hub has given it up, nothing is published on that channel any more.

Main statement: `after_account`. Over every run, the channel has got exactly what was
published on it, and the hub's reads are an account (`Channel.Reads`) of that channel:
in order, each once, and with nothing left behind but what had been overwritten.
-/
import EventFanout.Proofs.Hub.Feeds
import Mathlib.Data.List.Induction

namespace EventFanout.World

def dispatched (h : Handle) (w : World) : Action → Option (Nat × Event)
  | .turn (.read t) =>
    if w.hub.running = true ∧ w.hub.feeds.get? t = some h then
      match w.bus.position? h with
      | some (ch, next) =>
        match ch.log.read? next with
        | some (.entry e, _) => some (next, e)
        | _ => none
      | none => none
    else none
  | _ => none

/-- The entry at a position has been overwritten before the reader of a handle got there. -/
def Overrun (w : World) (h : Handle) (i : Nat) : Prop :=
  ∃ ch next, w.bus.position? h = some (ch, next) ∧ next ≤ i ∧ i < ch.log.oldest

/-- A handle that the hub has, or has had; `next` is where its reader is, or was last. -/
structure Tracked (w : World) (h : Handle) (ch : TopicChannel) (next : Nat) : Prop where
  channel : w.bus.channels[h.channel]? = some ch
  known : h.reader < w.bus.nextReader
  attached : w.hub.feeds.get? h.topic = some h → ch.readers.get? h.reader = some next
  detached : w.hub.feeds.get? h.topic ≠ some h → ∀ t, w.bus.routes.get? t ≠ some h.channel

namespace Tracked

variable {w w' : World} {h : Handle} {ch : TopicChannel} {next : Nat}

theorem observed (ht : w.Tracked h ch next) : w.Observed h.channel := by
  by_cases hx : w.hub.feeds.get? h.topic = some h
  · exact .inl ⟨h.topic, h, hx, rfl⟩
  · exact .inr (ht.detached hx)

theorem position (ht : w.Tracked h ch next) (hx : w.hub.feeds.get? h.topic = some h) :
    w.bus.position? h = some (ch, next) :=
  Bus.position?_eq_some.mpr ⟨ht.channel, ht.attached hx⟩

/-- The channel later on, when the feed of the handle is as it was. -/
theorem goes (ht : w.Tracked h ch next) (w' : World) {new : Nat → List Event}
    {moved : Nat → Nat → Prop} (hgo : w.bus.Goes w'.bus new moved)
    (hx : w'.hub.feeds.get? h.topic = some h ↔ w.hub.feeds.get? h.topic = some h)
    (hm : w.hub.feeds.get? h.topic = some h → ¬ moved h.channel h.reader) :
    ∃ ch', w'.Tracked h ch' next ∧ ch.log.Extends ch'.log (new h.channel) := by
  obtain ⟨ch', hch', -, hlog, hr⟩ := hgo.channel _ ch ht.channel
  refine ⟨ch', ⟨hch', Nat.lt_of_lt_of_le ht.known hgo.readers_le, ?_, ?_⟩, hlog⟩
  · intro hx'
    have hold := hx.mp hx'
    rw [hr _ ht.known (hm hold)]
    exact ht.attached hold
  · intro hx' t hroute
    have hold : w.hub.feeds.get? h.topic ≠ some h := fun e => hx' (hx.mpr e)
    obtain ⟨hlt, -⟩ := List.getElem?_eq_some_iff.mp ht.channel
    rcases hgo.routed t _ hroute with hroute | hle
    · exact ht.detached hold t hroute
    · omega

/-- The channel later on, when feeds have been given up. -/
theorem quits (ht : w.Tracked h ch next) (hf : w.Fed) (hq : Quits w w') :
    ∃ ch', w'.Tracked h ch' next ∧ ch.log.Extends ch'.log [] := by
  by_cases hx : w'.hub.feeds.get? h.topic = some h
  · have hold : w.hub.feeds.get? h.topic = some h := by
      rcases hq.feeds h.topic with he | he
      · rw [← he, hx]
      · rw [he] at hx
        cases hx
    refine ht.goes w' hq.goes ⟨fun _ => hold, fun _ => hx⟩ ?_
    rintro - ⟨t₀, h₀, ht₀, hn, hc, -⟩
    rw [hf.unique hold ht₀ hc, hn] at hx
    cases hx
  · obtain ⟨ch', hch', -, hlog, -⟩ := hq.goes.channel _ ch ht.channel
    refine ⟨ch', ⟨hch', Nat.lt_of_lt_of_le ht.known hq.goes.readers_le, fun e => absurd e hx, ?_⟩,
      hlog⟩
    intro _ t hroute
    by_cases hold : w.hub.feeds.get? h.topic = some h
    · have hn : w'.hub.feeds.get? h.topic = none := by
        rcases hq.feeds h.topic with he | he
        · rw [he] at hx
          exact absurd hold hx
        · exact he
      exact hq.unrouted _ h hold hn t hroute
    · obtain ⟨hlt, -⟩ := List.getElem?_eq_some_iff.mp ht.channel
      rcases hq.goes.routed t _ hroute with hroute | hle
      · exact ht.detached hold t hroute
      · omega

/-- Attaching the hub to a topic leaves a handle it has, or has had, alone. -/
theorem attach (ht : w.Tracked h ch next) (hf : w.Fed) {t : Topic} {hd : Handle} {bus : Bus}
    (hnone : w.hub.feeds.get? t = none) (hsub : w.bus.subscribe t = (.ok hd, bus))
    (hb : w'.bus = bus) (hx : w'.hub.feeds = w.hub.feeds.set t hd) :
    ∃ ch', w'.Tracked h ch' next ∧ ch.log.Extends ch'.log [] := by
  have hgo := Bus.subscribe_goes hf.wired t
  rw [hsub, ← hb] at hgo
  obtain ⟨-, hreader, -⟩ := Bus.subscribe_reader hf.wired hsub
  refine ht.goes w' hgo ?_ fun _ => id
  rw [hx, Table.get?_set]
  split
  · rename_i he
    rw [← he, hnone]
    constructor
    · intro hhd
      have hne := ht.known
      rw [← Option.some.inj hhd, hreader] at hne
      exact absurd hne (Nat.lt_irrefl _)
    · simp
  · exact Iff.rfl

/-- The hub goes on reading through the handle. -/
theorem advance (ht : w.Tracked h ch next) (hx : w.hub.feeds.get? h.topic = some h)
    (next' : Nat) :
    Tracked { w with bus := w.bus.advance h next' } h (ch.move h.reader next') next' := by
  obtain ⟨hch, hr⟩ := Bus.advance_channel next' ht.channel
  exact ⟨hch, ht.known, fun _ => hr, fun hn => absurd hx hn⟩

end Tracked

variable {w w₁ : World} {h : Handle} {ch : TopicChannel} {next : Nat}

/-- Nothing is dispatched where there is nothing to read. -/
theorem dispatched_of_unready {t : Topic} (hno : (w.hub.feeds.get? t).bind w.bus.read? = none) :
    dispatched h w (.turn (.read t)) = none := by
  simp only [dispatched]
  split
  · rename_i hc
    rw [hc.2] at hno
    replace hno : w.bus.read? h = none := hno
    cases hp : w.bus.position? h with
    | none => rfl
    | some pair =>
      obtain ⟨ch₁, next₁⟩ := pair
      simp only [Bus.read?, hp, bind, Option.bind] at hno
      cases hread : ch₁.log.read? next₁ with
      | none => simp [hread]
      | some answer => simp [hread] at hno
  · rfl

/-- What is dispatched is what the reader of the handle reads, in one move. -/
theorem dispatched_moves {t : Topic} {next' : Nat} {item : Item Event}
    (hr : w.hub.running = true) (ht : w.hub.feeds.get? t = some h)
    (hpos : w.bus.position? h = some (ch, next)) (hread : ch.log.read? next = some (item, next')) :
    ch.log.Moves next (dispatched h w (.turn (.read t))) next' := by
  simp only [dispatched, if_pos (And.intro hr ht), hpos, hread]
  rcases Channel.read?_cases hread with
    ⟨hlt, rfl, rfl⟩ | ⟨e, hle, hsent, rfl, rfl⟩ | ⟨_, rfl, rfl⟩
  · have hmax : max next ch.log.oldest = ch.log.oldest := Nat.max_eq_right (Nat.le_of_lt hlt)
    exact hmax ▸ Channel.Moves.skips
  · have hmax : max next ch.log.oldest = next := Nat.max_eq_left hle
    have hmoves : ch.log.Moves next (some (max next ch.log.oldest, e))
        (max next ch.log.oldest + 1) := .reads (hmax.symm ▸ hsent)
    rwa [hmax] at hmoves
  · exact .stays

/-- Reading a topic is a move of the reader whose handle it is read through, and of no other. -/
theorem read_tracked (hf : w.Fed) (hr : w.hub.running = true) (ht : w.Tracked h ch next)
    (t : Topic) :
    ∃ ch' next', (w.perform (.read t)).Tracked h ch' next' ∧ ch.log.Extends ch'.log [] ∧
      ((next' = next ∧ dispatched h w (.turn (.read t)) = none) ∨
        (w.bus.position? h = some (ch, next) ∧
          ch.log.Moves next (dispatched h w (.turn (.read t))) next')) := by
  rcases read_feeds hf t with
    ⟨hno, he⟩ | ⟨h₀, ch₀, next₀, next', item, ht₀, hch₀, hn₀, hle, hread, he⟩
  · exact ⟨ch, next, he.symm ▸ ht, .refl _, .inl ⟨rfl, dispatched_of_unready hno⟩⟩
  · rw [he]
    have hq := dispatch_quits hf ht₀ hch₀ hle hread
    have hf' := advance_fed hf ht₀ hch₀ (Channel.le_of_read? hle hread)
    by_cases hh : h₀ = h
    · subst hh
      obtain rfl := (hf.serves t h₀ ht₀).topic
      have hpos := ht.position ht₀
      rw [Bus.position?_eq_some.mpr ⟨hch₀, hn₀⟩, Option.some.injEq, Prod.mk.injEq] at hpos
      obtain ⟨rfl, rfl⟩ := hpos
      obtain ⟨ch', ht', hlog⟩ := (ht.advance ht₀ next').quits hf' hq
      have hpos := ht.position ht₀
      exact ⟨ch', next', ht', hlog, .inr ⟨hpos, dispatched_moves hr ht₀ hpos hread⟩⟩
    · have hother : dispatched h w (.turn (.read t)) = none := by
        refine if_neg ?_
        rintro ⟨-, hx⟩
        rw [ht₀] at hx
        exact hh (Option.some.inj hx)
      have hm : w.hub.feeds.get? h.topic = some h → ¬ Bus.mover h₀ h.channel h.reader := by
        rintro hx ⟨hc, -⟩
        rw [hf.unique hx ht₀ hc, ht₀] at hx
        exact hh (Option.some.inj hx)
      have hgo := Bus.advance_goes hf.wired h₀ next'
      obtain ⟨ch₁, ht₁, hlog₁⟩ := ht.goes { w with bus := w.bus.advance h₀ next' } hgo Iff.rfl hm
      obtain ⟨ch', ht', hlog⟩ := ht₁.quits hf' hq
      exact ⟨ch', next, ht', hlog₁.trans hlog, .inl ⟨rfl, hother⟩⟩

/-- Every action is followed: its events come on the channel, and at most one is read. -/
theorem act_tracked (hf : w.Fed) (hs : w.hub.Consistent) (ht : w.Tracked h ch next) (a : Action) :
    ∃ ch' next', (w.act a).Tracked h ch' next' ∧
      ch.log.Extends ch'.log (published h.channel w a).toList ∧
      ((next' = next ∧ dispatched h w a = none) ∨
        (w.bus.position? h = some (ch, next) ∧ ch.log.Moves next (dispatched h w a) next')) := by
  by_cases ha : ∃ t, a = .turn t
  · obtain ⟨t, rfl⟩ := ha
    by_cases hr : w.hub.running = true
    · have he : w.act (.turn t) = w.perform t := by simp only [act, if_pos hr]
      rw [he]
      cases t with
      | stop =>
        obtain ⟨ch', ht', hlog⟩ := ht.quits hf (shutdown_quits hf)
        exact ⟨ch', next, ht', hlog, .inl ⟨rfl, rfl⟩⟩
      | install =>
        rcases install_feeds hs with ⟨hb, hx⟩ | ⟨t, hd, bus, hnone, hsub, hb, hx⟩
        · obtain ⟨ch', ht', hlog⟩ := ht.quits hf (.of_eq hf hb hx)
          exact ⟨ch', next, ht', hlog, .inl ⟨rfl, rfl⟩⟩
        · obtain ⟨ch', ht', hlog⟩ := ht.attach hf hnone hsub hb hx
          exact ⟨ch', next, ht', hlog, .inl ⟨rfl, rfl⟩⟩
      | remove =>
        obtain ⟨ch', ht', hlog⟩ := ht.quits hf (remove_quits hf)
        exact ⟨ch', next, ht', hlog, .inl ⟨rfl, rfl⟩⟩
      | read topic => exact read_tracked hf hr ht topic
    · have he : w.act (.turn t) = w := by simp only [act, if_neg hr]
      have hno : dispatched h w (.turn t) = none := by
        cases t with
        | read topic => exact if_neg fun hc => hr hc.1
        | _ => rfl
      exact ⟨ch, next, he.symm ▸ ht, .refl _, .inl ⟨rfl, hno⟩⟩
  · have ha' : ∀ t, a ≠ .turn t := fun t e => ha ⟨t, e⟩
    obtain ⟨new, moved, hgo, hm, hnew⟩ := act_goes hf ha'
    have hfeeds := (act_sameLoop w ha').feeds
    obtain ⟨ch', ht', hlog⟩ := ht.goes _ hgo (by rw [hfeeds]) (hm _ h)
    rw [hnew _ ht.observed] at hlog
    have hno : dispatched h w a = none := by
      cases a with
      | turn t => exact absurd rfl (ha' t)
      | _ => rfl
    exact ⟨ch', next, ht', hlog, .inl ⟨rfl, hno⟩⟩

/-! ## Runs -/

/-- What has come of a handle after a run: `ch₁` is its channel where the run began. -/
structure Account (w₁ : World) (h : Handle) (ch₁ : TopicChannel) (first : Nat)
    (run : List Action) (ch : TopicChannel) (next : Nat) : Prop where
  tracked : (w₁.after run).Tracked h ch next
  /-- The channel has got what was published on it since. -/
  sent : ch.log.sent = ch₁.log.sent ++ along (published h.channel) w₁ run
  /-- What was left behind had been overwritten, at some moment of the run, before it was read. -/
  reads : Channel.Reads (fun i => ∃ earlier, earlier <+: run ∧ (w₁.after earlier).Overrun h i)
    ch.log first next (along (dispatched h) w₁ run)

theorem Account.concat {ch₁ : TopicChannel} {first : Nat} {run : List Action}
    (h₁ : Account w₁ h ch₁ first run ch next) (hf : (w₁.after run).Fed)
    (hs : (w₁.after run).hub.Consistent) (a : Action) :
    ∃ ch' next', Account w₁ h ch₁ first (run ++ [a]) ch' next' := by
  obtain ⟨ch', next', ht, hlog, hmove⟩ := act_tracked hf hs h₁.tracked a
  refine ⟨ch', next', ?_, ?_, ?_⟩
  · rw [after_concat]
    exact ht
  · rw [hlog.sent, h₁.sent, along_concat, List.append_assoc]
  · rw [along_concat]
    have hreads : Channel.Reads
        (fun i => ∃ earlier, earlier <+: run ++ [a] ∧ (w₁.after earlier).Overrun h i) ch.log first
        next (along (dispatched h) w₁ run) := by
      refine h₁.reads.mono ?_
      rintro i ⟨earlier, hpre, ho⟩
      exact ⟨earlier, hpre.trans (List.prefix_append run [a]), ho⟩
    rcases hmove with ⟨rfl, hnone⟩ | ⟨hpos, hmove⟩
    · rw [hnone, Option.toList_none, List.append_nil]
      exact hreads.extend hlog
    · refine (hreads.move hmove ?_).extend hlog
      intro i h₁ h₂
      exact ⟨run, List.prefix_append run [a], ch, next, hpos, h₁, h₂⟩

/-- From where its reader is, a handle of the hub is accounted for over every run. -/
theorem after_account (hf : w.Fed) (hs : w.hub.Sound) {t : Topic}
    (ht : w.hub.feeds.get? t = some h) (hpos : w.bus.position? h = some (ch, next))
    (run : List Action) : ∃ ch' next', Account w h ch next run ch' next' := by
  induction run using List.reverseRecOn with
  | nil =>
    have hserves := hf.serves t h ht
    obtain rfl := hserves.topic
    obtain ⟨hch, hr⟩ := Bus.position?_eq_some.mp hpos
    obtain ⟨ch₀, next₀, hpos₀, hle⟩ := hserves.position
    rw [hpos, Option.some.injEq, Prod.mk.injEq] at hpos₀
    obtain ⟨rfl, rfl⟩ := hpos₀
    refine ⟨ch, next, ⟨hch, hserves.known, fun _ => hr, fun hn => absurd ht hn⟩, ?_, .start hle⟩
    rw [along, List.append_nil]
  | append_singleton run a ih =>
    obtain ⟨ch', next', hacc⟩ := ih
    exact hacc.concat (after_fed hf hs run) (after_sound hs run).consistent a

end EventFanout.World
