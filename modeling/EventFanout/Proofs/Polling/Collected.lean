/-
EventFanout.Proofs.Polling.Collected — what is polled is what was received.

The task of a filter appends to the changes of the filter what it receives, and a poll takes the
changes out; so they are what was received and has not been polled yet (`Conserved`). Nothing is
ignored on the way, as a subscription is only given notifications of its kind, and the changes of its
filter have the form for these.

Main statement: `polling_conserves`, over any moves of a system with polling filters.
-/
import EventFanout.Proofs.Polling.Inbox

namespace EventFanout

/-! ## What is in changes -/

def Notification.entries : Notification → List (Log ⊕ Hash)
  | .logs ls => ls.map .inl
  | .header h => [.inr h.hash]
  | .hashes hs => hs.map .inr

namespace Changes

def entries : Changes → List (Log ⊕ Hash)
  | .logs ls => ls.map .inl
  | .hashes hs => hs.map .inr

/-- Changes have the form that those of a kind have. -/
def Suits (kind : Kind) : Changes → Prop
  | .logs _ => kind = .logs
  | .hashes _ => kind ≠ .logs

theorem empty_entries (kind : Kind) : (empty kind).entries = [] := by
  cases kind <;> rfl

theorem empty_suits (kind : Kind) : (empty kind).Suits kind := by
  cases kind <;> simp [empty, Suits]

variable {c : Changes} {n : Notification}

/-- What a notification tells is added, if it is of the kind. -/
theorem append_entries (h : c.Suits n.kind) : (c.append n).entries = c.entries ++ n.entries := by
  cases c <;> cases n <;> simp_all [Suits, Notification.kind, append, entries, Notification.entries]

theorem append_suits {kind : Kind} (h : c.Suits kind) : (c.append n).Suits kind := by
  cases c <;> cases n <;> exact h

end Changes

namespace World

variable {w w' : World} {id : SubscriptionId} {f : Filter} {n : Notification} {m : Move}

/-! ## What is received is of the kind -/

theorem drained_eq_some (h : drained id w m = some n) :
    m = .drain id ∧ ⟨id, false⟩ ∈ w.polling.drains := by
  cases m with
  | drain id' =>
    simp only [drained] at h
    split at h
    · rename_i hc
      exact ⟨by rw [hc.1], hc.2⟩
    · cases h
  | _ => cases h

/-- What is sent to the subscription of a filter is of the kind of the filter. -/
theorem kind_of_sentTo (hw : w.Managed) (hnone : w.polling.ids = []) {moves : List Move}
    (hf : (w.through moves).polling.filters.get? id = some f)
    (hn : n ∈ (w.through moves).sentTo id) : n.kind = f.request.kind := by
  have hkey := Table.mem_keys_of_get? hf
  have hid := Polling.mem_ids.mpr (.inr ((hw.through moves).tidy.mem_drains hkey))
  obtain ⟨s', request, p', l', hs', hans, hserves, hminded⟩ :=
    tended_of_created hw ((created_of_mem_ids hw hid).resolve_left (by simp [hnone]))
  obtain ⟨s, l, r, rfl, h, -⟩ := reading_of_mem_ids hw hnone hid
  obtain ⟨p, htraced⟩ := h.traced
  -- both know the same line, which has one kind
  have hkind : s.kind = f.request.kind := by
    have hline := hminded.traced.line
    rw [hs', htraced.line, Option.some.injEq] at hline
    subst hline
    rw [← htraced.fits.kind, hminded.traced.fits.kind, hans.1, hserves.filter f hf]
  rw [← hkind]
  exact h.carries n (h.sentTo_eq ▸ hn)

/-- What the task of a filter receives has been sent to the subscription of the filter. -/
theorem mem_sentTo_of_drained (hw : w.Managed) (hnone : w.polling.ids = []) {moves : List Move}
    (hn : drained id (w.through moves) m = some n) : n ∈ (w.through moves).sentTo id := by
  obtain ⟨rfl, hd⟩ := drained_eq_some hn
  obtain ⟨s, l, r, rfl, h, -⟩ := reading_of_mem_ids hw hnone
    (Polling.mem_ids.mpr (.inr (List.mem_map_of_mem hd)))
  rcases h.drain_cases (hw.through moves) hd with ⟨n', l₁, r₁, hn', -, hfirst, -⟩ | ⟨hn', -⟩ <;>
    rw [hn] at hn' <;> cases hn'
  have hmem : n ∈ l.buffer.held r.next := hfirst ▸ List.mem_cons_self
  rw [h.sentTo_eq]
  exact List.mem_of_mem_drop hmem

/-- The task of a filter receives notifications of the kind of the filter. -/
theorem kind_of_drained (hw : w.Managed) (hnone : w.polling.ids = []) {moves : List Move}
    (hf : (w.through moves).polling.filters.get? id = some f)
    (hn : drained id (w.through moves) m = some n) : n.kind = f.request.kind :=
  kind_of_sentTo hw hnone hf (mem_sentTo_of_drained hw hnone hn)

/-! ## Before it is a filter -/

/-- Who is under way has not been a filter, so nothing has come of it that comes of filters. -/
theorem during_eq_nil (hw : w.Managed) (hnone : w.polling.ids = []) {α : Type}
    {g : World → Move → Option α}
    (hg : ∀ {w : World} {m a}, w.Managed → g w m = some a → ∃ f, w.polling.filters.get? id = some f)
    {moves : List Move} (hid : id ∈ (w.through moves).polling.creations.map Creation.id) :
    during g w moves = [] := by
  rw [List.eq_nil_iff_forall_not_mem]
  intro a ha
  obtain ⟨earlier, m, later, rfl, hm⟩ := mem_during ha
  have hw₁ := hw.through earlier
  obtain ⟨f, hf⟩ := hg hw₁ hm
  have hnow : (w.through earlier).polling.filters.contains id = true := by simp [Table.contains, hf]
  have ht := tended_of_created hw (mem_created_of_filter hw hnone hnow)
  rw [through_append] at hid
  exact hw₁.tidy.not_filed ((through_left hw₁ ht (m :: later)).1 hid)
    ((Table.contains_iff_mem_keys _ _).mp hnow)

theorem filter_of_polled {c : Changes} (h : polled id w m = some c) :
    ∃ f, w.polling.filters.get? id = some f := by
  cases m with
  | poll id' =>
    simp only [polled] at h
    split at h
    · rename_i hid
      subst hid
      cases hf : w.polling.filters.get? id' with
      | none => simp [poll, hf, Except.toOption] at h
      | some f => exact ⟨f, rfl⟩
    · cases h
  | _ => cases h

/-! ## Conservation -/

/-- What was polled and what is left to poll is what was received, and has the form of the kind. -/
structure Conserved (f : Filter) (results : List Changes) (received : List Notification) : Prop where
  entries : results.flatMap Changes.entries ++ f.changes.entries =
    received.flatMap Notification.entries
  suits : f.changes.Suits f.request.kind
  results : ∀ c ∈ results, c.Suits f.request.kind

namespace Conserved

variable {results : List Changes} {received : List Notification}

theorem entered (request : FilterRequest) (now : Nat) :
    Conserved ⟨request, now, now, .empty request.kind⟩ [] [] :=
  ⟨Changes.empty_entries _, Changes.empty_suits _, nofun⟩

theorem collect (h : Conserved f results received) (hn : n.kind = f.request.kind) :
    Conserved (f.collect n) results (received ++ [n]) where
  entries := by
    have hsuits : f.changes.Suits n.kind := hn ▸ h.suits
    rw [Filter.collect, Changes.append_entries hsuits, ← List.append_assoc, h.entries,
      List.flatMap_append, List.flatMap_singleton]
  suits := Changes.append_suits h.suits
  results := h.results

theorem polled (h : Conserved f results received) (now : Nat) :
    Conserved (f.polled now) (results ++ [f.changes]) received where
  entries := by
    rw [Filter.polled, Changes.empty_entries, List.append_nil, List.flatMap_append,
      List.flatMap_singleton, h.entries]
  suits := Changes.empty_suits _
  results := by
    intro c hc
    rcases List.mem_append.mp hc with hc | hc
    · exact h.results c hc
    · rw [List.mem_singleton.mp hc]
      exact h.suits

end Conserved

/-- Whatever happens, what a filter yields is conserved. -/
theorem through_conserved (hw : w.Managed) (hnone : w.polling.ids = []) (moves : List Move)
    (hf : (w.through moves).polling.filters.get? id = some f) :
    Conserved f (during (polled id) w moves) (during (drained id) w moves) := by
  induction moves using List.reverseRecOn generalizing f with
  | nil =>
    have hkey := Table.mem_keys_of_get? hf
    have hid := Polling.mem_ids.mpr (.inr (hw.tidy.mem_drains hkey))
    rw [hnone] at hid
    cases hid
  | append_singleton moves m ih =>
    have hw₁ := hw.through moves
    have hfate := move_fate hw₁ m id
    rw [through_concat] at hf
    rw [hf] at hfate
    rw [during_concat, during_concat]
    generalize hbefore : (w.through moves).polling.filters.get? id = before at hfate
    cases hfate with
    | kept hp hd =>
      simp only [hp, hd, Option.toList_none, List.append_nil]
      exact ih hbefore
    | @collected f₀ n hp hd =>
      simp only [hp, hd, Option.toList_none, Option.toList_some, List.append_nil]
      exact (ih hbefore).collect (kind_of_drained hw hnone hbefore hd)
    | @polled f₀ hm hp hd =>
      simp only [hp, hd, Option.toList_none, Option.toList_some, List.append_nil]
      exact (ih hbefore).polled _
    | @entered c hm hc hid =>
      have hway : id ∈ (w.through moves).polling.creations.map Creation.id :=
        hid ▸ List.mem_map_of_mem hc
      subst hm
      rw [during_eq_nil hw hnone (fun _ h => filter_of_polled h) hway,
        during_eq_nil hw hnone (fun hw h => hw.filter_of_drain (drained_eq_some h).2) hway]
      exact .entered c.request _

/--
**Polling loses, repeats and reorders nothing.** Let a registry be opened in any state of any run of
a new hub, and let anything happen then. For every filter, the results of all its polls so far, and
after them what is in its changes now, are together all that its task has received, in order; and
every result has the form of the filter's kind. When the task runs it receives the newest of what has
been sent to the filter's subscription since the task waited last, as much as the delivery buffer
holds, no matter which polls or other moves come in between. The buffer holds as much as was asked
for, rounded up to a power of two.
-/
theorem polling_conserves {bus : Bus} {config : Config} {governor : Governor}
    (before : List Action) (moves : List Move) :
    let w₀ := ((start bus config governor).after before).openPolling
    let w := w₀.through moves
    let requested := config.deliveryBuffer.toNat
    IsLeast {capacity | requested ≤ capacity ∧ capacity.isPowerOfTwo} (ringSize requested) ∧
    ∀ id f, w.polling.filters.get? id = some f →
      Conserved f (during (polled id) w₀ moves) (during (drained id) w₀ moves) ∧
      ∀ seen, Seen w₀ id moves seen → ∃ since, w.sentTo id = seen ++ since ∧
        w.Drains id (since.rtake (ringSize requested)) := by
  intro w₀ w requested
  have hw₀ : w₀.Managed := openPolling_managed bus config governor before
  have hconfig : w₀.hub.config = config := after_config _ before
  have hnone : w₀.polling.ids = [] := rfl
  refine ⟨Channel.ringSize_isLeast requested, fun id f hf =>
    ⟨through_conserved hw₀ hnone moves hf, fun seen hseen => ?_⟩⟩
  have hkey := Table.mem_keys_of_get? hf
  obtain ⟨since, hsent, hdrains⟩ :=
    hseen.drains hw₀ hnone (((hw₀.through moves).tidy.drained id).mp hkey)
  rw [hconfig] at hdrains
  exact ⟨since, hsent, hdrains⟩

/-- With room for two notifications, a filter has been polled for one header when three more come.
Its task receives the last two of these, and the next poll answers with their hashes. -/
theorem polling_conserves_burst :
    let header : Nat → Header := fun n => { hash := Word.ofNat 32 n }
    let come : Nat → List Move := fun n =>
      [.act (.publish ⟨headerTopic, .header (header n)⟩), .act (.turn (.read headerTopic))]
    let id : SubscriptionId := .issued 0
    let w₀ := ((start (Bus.sized 4) { deliveryBuffer := 2 } .absent).after []).openPolling
    let earlier : List Move := [.create .blocks, .act (.turn .install), .finish id] ++ come 1 ++
      [.drain id, .poll id]
    let moves := earlier ++ (come 2 ++ come 3 ++ come 4)
    let w := w₀.through moves
    Seen w₀ id moves [.header (header 1)] ∧
      w.Drains id [.header (header 3), .header (header 4)] ∧
      during (polled id) w₀ (moves ++ w.drainRun id ++ [.poll id]) =
        [.hashes [Word.ofNat 32 1], .hashes [Word.ofNat 32 3, Word.ofNat 32 4]] := by
  intro header come id w₀ earlier moves w
  have hwaited : Seen w₀ id moves ((w₀.through earlier).sentTo id) := .waited (by decide +kernel)
    (Option.isNone_iff_eq_none.mp (by decide +kernel)) (by decide +kernel)
  have hfirst : (w₀.through earlier).sentTo id = [.header (header 1)] := by decide +kernel
  have hseen : Seen w₀ id moves [.header (header 1)] := hfirst ▸ hwaited
  obtain ⟨since, hsent, hdrains⟩ :=
    ((@polling_conserves (Bus.sized 4) { deliveryBuffer := 2 } .absent [] moves).2 id
      ⟨.blocks, 0, 0, .hashes []⟩ (by decide +kernel)).2 [.header (header 1)] hseen
  have hsince : [.header (header 2), .header (header 3), .header (header 4)] = since :=
    List.append_cancel_left (.trans (by decide +kernel) hsent)
  subst hsince
  exact ⟨hseen, hdrains, by decide +kernel⟩

end World

end EventFanout
