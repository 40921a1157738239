/-
EventFanout.Proofs.Bus.Usage — a bus in use, with the handles that its users hold.

The users of a bus subscribe, unsubscribe, publish and close as they like; they receive through the
handles they were given, and give them up. `Usage` keeps the handles beside the bus, so that nobody
receives through a handle that is not held. `Usage.after` is a run: any calls in any order.

`Usage.Sound` is what every run keeps. The record of the bus is in order, every handle has a reader
of its own on the channel it was obtained for, and nobody else reads a channel
(`serve_sound`). A channel ends when its topic is unsubscribed or the bus closed, and not before
(`serve_channel`); the readers that the bus counts are the handles held (`length_attached`).
-/
import EventFanout.Proofs.Bus.Readers
import EventFanout.Proofs.Hub.Endings

namespace EventFanout

inductive Bus.Call where
  | subscribe (topic : Topic)
  | unsubscribe (topic : Topic)
  | close
  | publish (event : Event)
  | receive (handle : Handle)
  | drop (handle : Handle)

/-- Whether a call ends the channel that a topic is routed to, if there is one. -/
def Bus.Call.ends (t : Topic) : Call → Bool
  | .unsubscribe t' => t' = t
  | .close => true
  | _ => false

/-- A bus, and the handles on it that have been obtained and not been given up. -/
structure Usage where
  bus : Bus
  handles : List Handle := []

namespace Usage

open Bus (Call)

def start (capacity : Nat) : Usage := { bus := .sized capacity }

/-- Carries a call out. A handle that is not held cannot be used. -/
def serve (u : Usage) : Call → Usage
  | .subscribe t =>
    match u.bus.subscribe t with
    | (.ok h, bus) => ⟨bus, u.handles ++ [h]⟩
    | (.error _, bus) => { u with bus }
  | .unsubscribe t => { u with bus := (u.bus.unsubscribe t).2 }
  | .close => { u with bus := u.bus.close }
  | .publish e => { u with bus := (u.bus.publish e).2 }
  | .receive h => if h ∈ u.handles then { u with bus := (u.bus.receive h).2 } else u
  | .drop h => if h ∈ u.handles then ⟨u.bus.drop h, u.handles.erase h⟩ else u

def after (u : Usage) (run : List Call) : Usage := run.foldl serve u

@[simp] theorem after_nil (u : Usage) : u.after [] = u := rfl

@[simp] theorem after_cons (u : Usage) (c : Call) (run : List Call) :
    u.after (c :: run) = (u.serve c).after run := rfl

theorem after_append (u : Usage) (run run' : List Call) :
    u.after (run ++ run') = (u.after run).after run' := List.foldl_append

theorem after_concat (u : Usage) (run : List Call) (c : Call) :
    u.after (run ++ [c]) = (u.after run).serve c := after_append u run [c]

variable {u u' : Usage} {h : Handle} {t : Topic}

/-! ## Subscribing -/

/-- The bus grants a handle, or refuses and is as it was. -/
theorem serve_subscribe (u : Usage) (t : Topic) :
    (∃ h bus, u.bus.subscribe t = (.ok h, bus) ∧
      u.serve (.subscribe t) = ⟨bus, u.handles ++ [h]⟩) ∨
    ∃ e, u.bus.subscribe t = (.error e, u.bus) ∧ u.serve (.subscribe t) = u := by
  cases hs : u.bus.subscribe t with
  | mk answer bus =>
    cases answer with
    | ok h => exact .inl ⟨h, bus, rfl, by simp only [serve, hs]⟩
    | error e =>
      obtain ⟨rfl, -⟩ := Bus.subscribe_error hs
      exact .inr ⟨e, rfl, by simp only [serve, hs]⟩

/-- A handle that has been granted is held. -/
theorem serve_granted {bus : Bus} (hs : u.bus.subscribe t = (.ok h, bus)) :
    u.serve (.subscribe t) = ⟨bus, u.handles ++ [h]⟩ := by simp only [serve, hs]

/-! ## What every run keeps -/

/-- The record of the bus is in order, and its readers are those of the handles that are held. -/
structure Sound (u : Usage) : Prop where
  registered : u.bus.Registered
  /-- A handle that is held has its reader on a channel of its topic. -/
  serves : ∀ h ∈ u.handles, u.bus.Serves h.topic h
  /-- No two handles share a reader. -/
  once : (u.handles.map Handle.reader).Nodup
  /-- Nobody reads a channel but through a handle that is held. -/
  readers : ∀ place r, r ∈ (u.bus.readersAt place).keys →
    ∃ h ∈ u.handles, h.channel = place ∧ h.reader = r
  readers_once : ∀ place, (u.bus.readersAt place).keys.Nodup

def moved (u : Usage) : Call → Nat → Nat → Prop
  | .receive h | .drop h => fun place r => h ∈ u.handles ∧ Bus.mover h place r
  | _ => Bus.nobody

/-- What a call sends on each channel. -/
def kept (u : Usage) : Call → Nat → List Event
  | .publish e => u.bus.kept e
  | _ => Bus.silence

namespace Sound

theorem mem_readersAt (hs : u.Sound) (hh : h ∈ u.handles) :
    h.reader ∈ (u.bus.readersAt h.channel).keys := by
  obtain ⟨ch, next, hch, -, hr, -⟩ := (hs.serves h hh).channel
  rw [Bus.readersAt_eq hch]
  exact Table.mem_keys_of_get? hr

/-- A handle is known by its reader. -/
theorem handle_unique (hs : u.Sound) {h' : Handle} (hh : h ∈ u.handles) (hh' : h' ∈ u.handles)
    (hr : h.reader = h'.reader) : h = h' :=
  List.inj_on_of_nodup_map hs.once hh hh' hr

/-- The number of a reader to come is not in use. -/
theorem nextReader_not_mem (hs : u.Sound) (place : Nat) :
    u.bus.nextReader ∉ (u.bus.readersAt place).keys := by
  intro hm
  obtain ⟨h, hh, -, hr⟩ := hs.readers place _ hm
  exact absurd (hs.serves h hh).known (by omega)

/-- A call leaves the readers of all handles alone but that of its own. -/
theorem not_moved (hs : u.Sound) (hh : h ∈ u.handles) {c : Call} (hreceive : c ≠ .receive h)
    (hdrop : c ≠ .drop h) : ¬ u.moved c h.channel h.reader := by
  cases c with
  | receive h' =>
    rintro ⟨hh', -, hr⟩
    exact hreceive (by rw [hs.handle_unique hh hh' hr])
  | drop h' =>
    rintro ⟨hh', -, hr⟩
    exact hdrop (by rw [hs.handle_unique hh hh' hr])
  | _ => exact id

end Sound

theorem serve_goes (hs : u.Sound) (c : Call) :
    u.bus.Goes (u.serve c).bus (u.kept c) (u.moved c) := by
  have hw := hs.registered.wired
  cases c with
  | subscribe t =>
    have hgo := Bus.subscribe_goes hw t
    rcases serve_subscribe u t with ⟨h, bus, hsub, he⟩ | ⟨e, -, he⟩
    · rw [hsub] at hgo
      rw [he]
      exact hgo
    · rw [he]
      exact .refl hw
  | unsubscribe t => exact Bus.unsubscribe_goes hw t
  | close => exact Bus.close_goes hw
  | publish e => exact Bus.publish_goes hw e
  | receive h =>
    simp only [serve]
    split
    · rename_i hh
      exact (Bus.receive_goes hw h).imp fun _ _ hm => ⟨hh, hm⟩
    · exact .refl hw
  | drop h =>
    simp only [serve]
    split
    · rename_i hh
      exact (Bus.drop_goes hw h).imp fun _ _ hm => ⟨hh, hm⟩
    · exact .refl hw

theorem serve_step (u : Usage) (c : Call) :
    (u.serve c).bus = u.bus ∨ Bus.Step u.bus (u.serve c).bus := by
  cases c with
  | subscribe t =>
    have hstep : Bus.Step u.bus (u.bus.subscribe t).2 := .subscribe t
    rcases serve_subscribe u t with ⟨h, bus, hsub, he⟩ | ⟨e, -, he⟩
    · rw [hsub] at hstep
      rw [he]
      exact .inr hstep
    · exact .inl (by rw [he])
  | unsubscribe t => exact .inr (.unsubscribe t)
  | close => exact .inr .close
  | publish e => exact .inr (.publish e)
  | receive h =>
    simp only [serve]
    split
    · exact .inr (.receive h)
    · exact .inl rfl
  | drop h =>
    simp only [serve]
    split
    · exact .inr (.drop h)
    · exact .inl rfl

theorem serve_registered (hr : u.bus.Registered) (c : Call) : (u.serve c).bus.Registered := by
  rcases serve_step u c with he | hstep
  · rw [he]
    exact hr
  · exact hstep.registered hr

theorem serve_capacity (u : Usage) (c : Call) : (u.serve c).bus.capacity = u.bus.capacity := by
  rcases serve_step u c with he | hstep
  · rw [he]
  · exact hstep.capacity

theorem after_capacity (u : Usage) (run : List Call) :
    (u.after run).bus.capacity = u.bus.capacity := by
  induction run generalizing u with
  | nil => rfl
  | cons c rest ih => exact (ih (u.serve c)).trans (serve_capacity u c)

/-- A call that comes with no handle, and gives none, keeps the usage sound. -/
theorem Sound.same (hs : u.Sound) {c : Call} (hh : (u.serve c).handles = u.handles)
    (hm : u.moved c = Bus.nobody)
    (hr : ∀ place, ((u.serve c).bus.readersAt place).keys = (u.bus.readersAt place).keys) :
    (u.serve c).Sound where
  registered := serve_registered hs.registered c
  serves := by
    intro h hmem
    rw [hh] at hmem
    refine (hs.serves h hmem).goes (serve_goes hs c) ?_
    rw [hm]
    exact id
  once := by
    rw [hh]
    exact hs.once
  readers := by
    intro place r hmem
    rw [hr] at hmem
    rw [hh]
    exact hs.readers place r hmem
  readers_once := by
    intro place
    rw [hr]
    exact hs.readers_once place

/-- The new handle is held, and its reader is the one that the channel has gained. -/
theorem granted_sound (hs : u.Sound) {bus : Bus} (hsub : u.bus.subscribe t = (.ok h, bus)) :
    (u.serve (.subscribe t)).Sound := by
  have hw := hs.registered.wired
  have hreg := serve_registered hs.registered (.subscribe t)
  have hgo := serve_goes hs (.subscribe t)
  rw [serve_granted hsub] at hreg hgo ⊢
  obtain ⟨htopic, hreader, hnext, hroute, ch, hch, hct, hr⟩ := Bus.subscribe_reader hw hsub
  obtain ⟨first, hreaders⟩ := Bus.readersAt_subscribe hw hsub
  have hfresh : ∀ place, h.reader ∉ (u.bus.readersAt place).keys := fun place => by
    rw [hreader]
    exact hs.nextReader_not_mem place
  constructor
  · exact hreg
  · intro h' hm
    rcases List.mem_append.mp hm with hm | hm
    · exact (hs.serves h' hm).goes hgo id
    · obtain rfl := List.mem_singleton.mp hm
      have hknown : h'.reader < bus.nextReader := by omega
      rw [htopic]
      exact ⟨htopic, hknown, ch, _, hch, hct, hr, Nat.le_refl _, .inl hroute⟩
  · rw [List.map_append, List.nodup_append]
    refine ⟨hs.once, List.nodup_singleton _, ?_⟩
    intro r hr' r' hr'' he
    obtain ⟨h', hm, rfl⟩ := List.mem_map.mp hr'
    obtain rfl := List.mem_singleton.mp hr''
    exact absurd (hs.serves h' hm).known (by omega)
  · intro place r hm
    rw [hreaders] at hm
    split at hm
    · rename_i hp
      rw [Table.keys_set_of_not_mem _ (hfresh place), List.mem_append, List.mem_singleton] at hm
      rcases hm with hm | rfl
      · obtain ⟨h', hm', he⟩ := hs.readers place r hm
        exact ⟨h', List.mem_append_left _ hm', he⟩
      · exact ⟨h, List.mem_append_right _ List.mem_cons_self, hp, rfl⟩
    · obtain ⟨h', hm', he⟩ := hs.readers place r hm
      exact ⟨h', List.mem_append_left _ hm', he⟩
  · intro place
    rw [hreaders]
    split
    · rw [Table.keys_set_of_not_mem _ (hfresh place)]
      refine List.Nodup.append (hs.readers_once place) (List.nodup_singleton _) ?_
      simpa using hfresh place
    · exact hs.readers_once place

theorem received_sound (hs : u.Sound) (hh : h ∈ u.handles) : (u.serve (.receive h)).Sound := by
  have hgo := serve_goes hs (.receive h)
  have hreg := serve_registered hs.registered (.receive h)
  simp only [serve, if_pos hh] at hgo hreg ⊢
  refine ⟨hreg, fun h' hh' => ?_, hs.once, ?_, ?_⟩
  · by_cases he : h' = h
    · subst he
      exact Bus.receive_serves (hs.serves h' hh)
    · refine (hs.serves h' hh').goes hgo (hs.not_moved hh' ?_ (by simp))
      simpa using fun e => he e.symm
  · intro place r hm
    rw [Bus.keys_readersAt_receive] at hm
    exact hs.readers place r hm
  · intro place
    rw [Bus.keys_readersAt_receive]
    exact hs.readers_once place

/-- A handle given up is taken from the list, and its reader from the channel. -/
theorem dropped_sound (hs : u.Sound) (hh : h ∈ u.handles) : (u.serve (.drop h)).Sound := by
  have hgo := serve_goes hs (.drop h)
  have hreg := serve_registered hs.registered (.drop h)
  simp only [serve, if_pos hh] at hgo hreg ⊢
  have hn : u.handles.Nodup := hs.once.of_map
  refine ⟨hreg, fun h' hh' => ?_,
    hs.once.sublist (List.erase_sublist.map _), ?_, ?_⟩
  · obtain ⟨hne, hh'⟩ := hn.mem_erase_iff.mp hh'
    refine (hs.serves h' hh').goes hgo (hs.not_moved hh' (by simp) ?_)
    simpa using fun e => hne e.symm
  · intro place r hm
    rw [Bus.readersAt_drop] at hm
    split at hm
    · rename_i hp
      rw [Table.keys_erase, List.mem_filter, decide_eq_true_eq] at hm
      obtain ⟨h', hh', hc, rfl⟩ := hs.readers place r hm.1
      refine ⟨h', hn.mem_erase_iff.mpr ⟨?_, hh'⟩, hc, rfl⟩
      rintro rfl
      exact hm.2 rfl
    · rename_i hp
      obtain ⟨h', hh', hc, rfl⟩ := hs.readers place r hm
      refine ⟨h', hn.mem_erase_iff.mpr ⟨?_, hh'⟩, hc, rfl⟩
      rintro rfl
      exact hp hc
  · intro place
    rw [Bus.readersAt_drop]
    split
    · exact Table.nodup_keys_erase _ (hs.readers_once place)
    · exact hs.readers_once place

theorem serve_sound (hs : u.Sound) (c : Call) : (u.serve c).Sound := by
  cases c with
  | subscribe t =>
    rcases serve_subscribe u t with ⟨h, bus, hsub, -⟩ | ⟨e, -, he⟩
    · exact granted_sound hs hsub
    · rw [he]
      exact hs
  | unsubscribe t =>
    exact hs.same rfl rfl fun place => congrArg Table.keys (Bus.readersAt_unsubscribe _ t place)
  | close => exact hs.same rfl rfl fun place => congrArg Table.keys (Bus.readersAt_close _ place)
  | publish e =>
    exact hs.same rfl rfl fun place => congrArg Table.keys (Bus.readersAt_publish _ e place)
  | receive h =>
    by_cases hh : h ∈ u.handles
    · exact received_sound hs hh
    · simpa only [serve, if_neg hh] using hs
  | drop h =>
    by_cases hh : h ∈ u.handles
    · exact dropped_sound hs hh
    · simpa only [serve, if_neg hh] using hs

theorem after_sound (hs : u.Sound) (run : List Call) : (u.after run).Sound := by
  induction run generalizing u with
  | nil => exact hs
  | cons c rest ih => exact ih (serve_sound hs c)

theorem start_sound (capacity : Nat) : (start capacity).Sound where
  registered := Bus.sized_registered capacity
  serves := by simp [start]
  once := List.nodup_nil
  readers := by simp [start, Bus.sized, Bus.readersAt, Table.keys]
  readers_once := fun _ => List.nodup_nil

/-! ## The channels of a run -/

theorem serve_leaves (hw : u.bus.Wired) (c : Call) :
    u.bus.Leaves (u.serve c).bus fun t => c.ends t = true := by
  cases c with
  | subscribe t =>
    have hl : u.bus.Leaves (u.bus.subscribe t).2 fun _ => False := Bus.subscribe_leaves _ t
    rcases serve_subscribe u t with ⟨h, bus, hsub, he⟩ | ⟨e, -, he⟩
    · rw [hsub] at hl
      rw [he]
      exact hl.imp fun _ => False.elim
    · rw [he]
      exact .refl _
  | unsubscribe t =>
    exact (Bus.unsubscribe_leaves hw t).imp fun t' ht => by simp [Call.ends, ht]
  | close => exact (Bus.close_leaves _).imp fun _ _ => rfl
  | publish e => exact Bus.publish_leaves _ e
  | receive h =>
    simp only [serve]
    split
    · exact Bus.receive_leaves _ h
    · exact .refl _
  | drop h =>
    simp only [serve]
    split
    · exact Bus.drop_leaves _ h
    · exact .refl _

/-- No topic is routed anywhere once a call has ended it. -/
theorem routes_of_ends {c : Call} (hc : c.ends t = true) :
    (u.serve c).bus.routes.get? t = none := by
  cases c with
  | unsubscribe t' =>
    obtain rfl : t' = t := of_decide_eq_true hc
    simp only [serve, Bus.unsubscribe]
    split
    · rw [Table.get?_erase, if_pos rfl]
    · assumption
  | close => rfl
  | _ => cases hc

/-- A channel stays what it is, gets what is sent on it, and ends with its topic. -/
theorem serve_channel (hs : u.Sound) {place : Nat} {ch : TopicChannel}
    (hch : u.bus.channels[place]? = some ch) (c : Call) :
    ∃ ch', (u.serve c).bus.channels[place]? = some ch' ∧ ch'.topic = ch.topic ∧
      ch'.registration = ch.registration ∧ ch.log.Extends ch'.log (u.kept c place) ∧
      ch'.log.closed = (ch.log.closed || c.ends ch.topic) := by
  have hw := hs.registered.wired
  obtain ⟨ch', hch', ht, hlog, -⟩ := (serve_goes hs c).channel place ch hch
  obtain ⟨ch'', hch'', -, hreg, hended⟩ := (serve_leaves hw c).channel place ch hch
  rw [hch'] at hch''
  cases hch''
  refine ⟨ch', hch', ht, hreg, hlog, ?_⟩
  rw [Bool.eq_iff_iff, Bool.or_eq_true]
  refine ⟨hended, ?_⟩
  rintro (hc | hc)
  · exact hlog.closed hc
  · -- an open channel would have its topic routed to it
    by_contra hopen
    have hroute := (serve_registered hs.registered c).routed place ch' hch' (by simpa using hopen)
    rw [ht, routes_of_ends hc] at hroute
    cases hroute

theorem after_channel (hs : u.Sound) {place : Nat} {ch : TopicChannel}
    (hch : u.bus.channels[place]? = some ch) (run : List Call) :
    ∃ ch', (u.after run).bus.channels[place]? = some ch' ∧ ch'.topic = ch.topic ∧
      ch'.registration = ch.registration ∧
      ch'.log.closed = (ch.log.closed || run.any (Call.ends ch.topic)) := by
  induction run generalizing u ch with
  | nil => exact ⟨ch, hch, rfl, rfl, by simp⟩
  | cons c rest ih =>
    obtain ⟨ch₁, hch₁, ht₁, hreg₁, -, hc₁⟩ := serve_channel hs hch c
    obtain ⟨ch₂, hch₂, ht₂, hreg₂, hc₂⟩ := ih (serve_sound hs c) hch₁
    refine ⟨ch₂, hch₂, ht₂.trans ht₁, hreg₂.trans hreg₁, ?_⟩
    rw [hc₂, hc₁, ht₁, List.any_cons, Bool.or_assoc]

/-- A topic is ended by whoever unsubscribes it, and by closing the bus. -/
theorem any_ends_iff {run : List Call} :
    run.any (Call.ends t) = true ↔ .close ∈ run ∨ .unsubscribe t ∈ run := by
  rw [List.any_eq_true]
  constructor
  · rintro ⟨c, hm, hc⟩
    cases c with
    | unsubscribe t' =>
      obtain rfl : t' = t := of_decide_eq_true hc
      exact .inr hm
    | close => exact .inl hm
    | _ => cases hc
  · rintro (hm | hm)
    · exact ⟨_, hm, rfl⟩
    · exact ⟨_, hm, decide_eq_true rfl⟩

/-- A handle that has been granted is on an open channel of its topic. -/
theorem granted_channel (hs : u.Sound) (hsub : (u.bus.subscribe t).1 = .ok h) :
    h ∈ (u.serve (.subscribe t)).handles ∧ h.topic = t ∧
      ∃ ch, (u.serve (.subscribe t)).bus.channels[h.channel]? = some ch ∧ ch.topic = t ∧
        ch.registration = h.registration ∧ ch.log.closed = false ∧
        ch.readers.get? h.reader = some ch.log.size := by
  have hsub' : u.bus.subscribe t = (.ok h, (u.bus.subscribe t).2) := Prod.ext hsub rfl
  obtain ⟨htopic, -, -, hroute, ch, hch, hct, hr⟩ :=
    Bus.subscribe_reader hs.registered.wired hsub'
  have hreg := serve_registered hs.registered (.subscribe t)
  rw [serve_granted hsub'] at hreg ⊢
  obtain ⟨ch', hch', -, hopen⟩ := hreg.wired t _ hroute
  rw [show (u.bus.subscribe t).2.channels[h.channel]? = some ch from hch] at hch'
  cases hch'
  exact ⟨List.mem_append_right _ List.mem_cons_self, htopic, ch, hch, hct,
    Bus.subscribe_registration hsub' hch, hopen, hr⟩

/-! ## Counting readers -/

def attached (u : Usage) (place : Nat) : List Handle :=
  u.handles.filter fun h => h.channel = place

/-- A channel has a reader for every handle that is held on it, and no other. -/
theorem Sound.length_attached (hs : u.Sound) (place : Nat) :
    (u.attached place).length = (u.bus.readersAt place).size := by
  have hperm : ((u.attached place).map Handle.reader).Perm (u.bus.readersAt place).keys := by
    refine (List.perm_ext_iff_of_nodup (hs.once.sublist (List.filter_sublist.map _))
      (hs.readers_once place)).mpr fun r => ?_
    simp only [List.mem_map, List.mem_filter, decide_eq_true_eq]
    constructor
    · rintro ⟨h, ⟨hh, rfl⟩, rfl⟩
      exact hs.mem_readersAt hh
    · intro hm
      obtain ⟨h, hh, hc, hr⟩ := hs.readers place r hm
      exact ⟨h, ⟨hh, hc⟩, hr⟩
  rw [← Table.length_keys, ← hperm.length_eq, List.length_map]

end Usage

end EventFanout
