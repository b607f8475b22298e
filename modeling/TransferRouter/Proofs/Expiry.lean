import TransferRouter.Proofs.Coherence
import TransferRouter.Proofs.Store.Chronology

/-!
Sweeps drop what is expired from the oldest on. In a store that a session led to, the keys of the
time index below the bound of a cutoff are those of the entries submitted before it, in the order of
their times and then of their hashes; a sweep takes as many of them as it may from the front of this
queue, so repeated sweeps empty it block by block.
-/

namespace TransferRouter

open StrictOrder

/-- What entries are sorted by when they expire: their time, then the bytes of their hash. -/
def PendingEntry.rank (e : PendingEntry) : Nat × Bytes := (e.timestamp.toNat, e.hash.bytes)

namespace World

/-- All recorded entries that satisfy a condition, from the oldest on. -/
structure Queue (w : World) (p : PendingEntry → Prop) (es : List PendingEntry) : Prop where
  mem_iff : ∀ e, e ∈ es ↔ (∃ h, Pending.get? h w = .ok (some e) w) ∧ p e
  ascending : es.Pairwise fun e f => before e.rank f.rank = true

/-- Two worlds before and after some entries expired: both keys of each are gone, their expiry is
reported, and nothing else changed. -/
structure Expired (es : List PendingEntry) (w w' : World) : Prop where
  gone : ∀ e ∈ es, ∀ key ∈ [e.key, e.timeKey],
    w.disk.store.contains key = true ∧ w'.disk.store.contains key = false
  kept : ∀ key, (∀ e ∈ es, key ∉ [e.key, e.timeKey]) →
    w'.disk.store.get? key = w.disk.store.get? key
  reports : w'.books.events = w.books.events ++ es.map fun e => .pendingPayloadExpired e.hash
  rest : w' = { w with
    disk := { w.disk with store := w'.disk.store }
    books := { w.books with events := w'.books.events } }

/-- The world after both keys of some entries were deleted and their expiry was reported. -/
def expire (w : World) (es : List PendingEntry) : World :=
  { w with
    disk := { w.disk with
      store := w.disk.store.applyAll (Pending.expiry (es.map fun e => (e.timeKey, e.hash))) }
    books := { w.books with
      events := w.books.events ++ es.map fun e => .pendingPayloadExpired e.hash } }

end World

/-! ## The time index -/

section

variable {s : Store} {n : Nat} {cutoff : UInt64}

/-- The part of the time index that is below the bound of a cutoff. -/
def Store.indexBefore (s : Store) (cutoff : UInt64) : List (Bytes × Bytes) :=
  s.entries.filter fun e => before e.1 (Key.timeBound cutoff) && !before e.1 Key.timeIndex

theorem Store.range_indexBefore (s : Store) (cutoff : UInt64) (limit : Nat) :
    s.range Key.timeIndex (Key.timeBound cutoff) limit = (s.indexBefore cutoff).take limit :=
  s.range_eq ..

/-- The keys of the index below the bound of a cutoff are those of the entries submitted before. -/
theorem Coherent.mem_indexBefore (hs : Coherent s n) {key : Bytes} :
    key ∈ (s.indexBefore cutoff).map (·.1) ↔
      ∃ e, Stored s e ∧ e.timestamp.toNat < cutoff.toNat ∧ key = e.timeKey := by
  have hmem : key ∈ (s.indexBefore cutoff).map (·.1) ↔
      s.contains key = true ∧ before key (Key.timeBound cutoff) = true ∧
        before key Key.timeIndex = false := by
    rw [Store.contains_iff_mem]
    simp [Store.indexBefore]
  rw [hmem]
  constructor
  · rintro ⟨hcontains, hstop, hstart⟩
    obtain ⟨e, he, rfl⟩ := (hs.indexed (Key.head?_of_between hstop hstart)).1 hcontains
    exact ⟨e, he, Key.before_timeBound.1 hstop, rfl⟩
  · rintro ⟨e, he, htime, rfl⟩
    refine ⟨(hs.indexed e.head?_timeKey).2 ⟨e, he, rfl⟩, ?_, ?_⟩
    · exact Key.before_timeBound.2 htime
    · exact Key.not_before_timeIndex ..

theorem Store.ascending_indexBefore (s : Store) (cutoff : UInt64) :
    ((s.indexBefore cutoff).map (·.1)).Pairwise fun k l => before k l = true :=
  List.pairwise_map.2 (s.ascending.filter _)

end

/-! ## The queue of what is expired -/

namespace World.Queue

variable {w : World} {n : Nat} {p : PendingEntry → Prop} {es fs : List PendingEntry}
variable {cutoff : UInt64}

theorem unique (he : w.Queue p es) (hf : w.Queue p fs) : es = fs :=
  eq_of_ascending he.ascending hf.ascending fun e => (he.mem_iff e).trans (hf.mem_iff e).symm

theorem nodup (h : w.Queue p es) : es.Nodup :=
  h.ascending.imp fun hef heq => ne_of_before hef (congrArg PendingEntry.rank heq)

theorem exists_get?_iff (hs : Coherent w.disk.store n) (hw : w.disk.Readable) {e : PendingEntry} :
    (∃ h, Pending.get? h w = .ok (some e) w) ↔ Stored w.disk.store e := by
  simp only [get?_eq_some_iff hs hw, exists_and_left, exists_eq', and_true]

theorem stored_take (h : w.Queue p es) (hs : Coherent w.disk.store n) (hw : w.disk.Readable)
    (k : Nat) : ∀ e ∈ es.take k, Stored w.disk.store e := fun e he =>
  (exists_get?_iff hs hw).1 ((h.mem_iff e).1 (List.mem_of_mem_take he)).1

theorem congr {q : PendingEntry → Prop} (h : w.Queue p es) (hpq : ∀ e, p e ↔ q e) : w.Queue q es :=
  ⟨fun e => (h.mem_iff e).trans (and_congr_right fun _ => hpq e), h.ascending⟩

/-- There is a queue of what was submitted before a cutoff, and its keys are those of the index. -/
theorem exists_keys (hs : Coherent w.disk.store n) (hw : w.disk.Readable) (cutoff : UInt64) :
    ∃ es, w.Queue (·.isExpired cutoff) es ∧
      (w.disk.store.indexBefore cutoff).map (·.1) = es.map (·.timeKey) := by
  have hl : ∀ p ∈ w.disk.store.indexBefore cutoff,
      w.disk.store.contains p.1 = true ∧ p.1.head? = some 0x32 := by
    intro p hp
    obtain ⟨e, he, -, hkey⟩ := hs.mem_indexBefore.1 (List.mem_map_of_mem hp)
    rw [hkey]
    exact ⟨(hs.indexed e.head?_timeKey).2 ⟨e, he, rfl⟩, e.head?_timeKey⟩
  obtain ⟨es, -, hes, hkeys⟩ := readIndex_ok hs hl
  refine ⟨es, ⟨fun e => ?_, ?_⟩, hkeys⟩
  · have hmem : e.timeKey ∈ es.map (·.timeKey) ↔
        ∃ f, Stored w.disk.store f ∧ f.timestamp.toNat < cutoff.toNat ∧ e.timeKey = f.timeKey := by
      rw [← hkeys]
      exact hs.mem_indexBefore
    rw [exists_get?_iff hs hw, PendingEntry.isExpired, decide_eq_true_iff]
    constructor
    · intro he
      obtain ⟨f, hf, htime, hkey⟩ := hmem.1 (List.mem_map_of_mem he)
      obtain rfl := (hes e he).eq_of_timeKey hf hkey
      exact ⟨hf, htime⟩
    · rintro ⟨he, htime⟩
      obtain ⟨f, hf, hkey⟩ := List.mem_map.1 (hmem.2 ⟨e, he, htime, rfl⟩)
      exact he.eq_of_timeKey (hes f hf) hkey.symm ▸ hf
  · have hascending := w.disk.store.ascending_indexBefore cutoff
    rw [hkeys, List.pairwise_map] at hascending
    refine hascending.imp fun {e f} hef => ?_
    rwa [PendingEntry.timeKey, PendingEntry.timeKey, Key.before_pendingByTime] at hef

/-- What a sweep reads from the index is the front of the queue. -/
theorem readIndex_eq (h : w.Queue (·.isExpired cutoff) es) (hs : Coherent w.disk.store n)
    (hw : w.disk.Readable) (limit : Nat) :
    Pending.readIndex (w.disk.store.range Key.timeIndex (Key.timeBound cutoff) limit) =
      .ok ((es.take limit).map fun e => (e.timeKey, e.hash)) := by
  obtain ⟨fs, hf, hkeys⟩ := exists_keys hs hw cutoff
  obtain rfl := h.unique hf
  rw [Store.range_indexBefore]
  exact readIndex_of_keys (by rw [List.map_take, List.map_take, hkeys])

/-- Once its front has expired, a queue is what is left of it. -/
theorem expire (h : w.Queue p es) (hs : Coherent w.disk.store n) (hw : w.disk.Readable) (k : Nat) :
    Coherent (w.expire (es.take k)).disk.store n ∧
      (w.expire (es.take k)).Queue p (es.drop k) := by
  have hes := h.stored_take hs hw k
  have hstored : ∀ e, Stored (w.expire (es.take k)).disk.store e ↔
      Stored w.disk.store e ∧ e ∉ es.take k := by
    intro e
    rw [World.expire, expiry_eq]
    exact Coherent.stored_drop (keysOf_expiry _) hes
  have hs' : Coherent (w.expire (es.take k)).disk.store n := by
    rw [World.expire, expiry_eq]
    exact hs.drop (keysOf_expiry _) hes
  have hw' : (w.expire (es.take k)).disk.Readable := hw
  refine ⟨hs', fun e => ?_, h.ascending.sublist (List.drop_sublist k es)⟩
  have hdrop : e ∈ es.drop k ↔ e ∈ es ∧ e ∉ es.take k := by
    have hnodup := h.nodup
    rw [← List.take_append_drop k es, List.nodup_append] at hnodup
    have hsplit : e ∈ es ↔ e ∈ es.take k ∨ e ∈ es.drop k := by
      rw [← List.mem_append, List.take_append_drop]
    rw [hsplit]
    exact ⟨fun he => ⟨.inr he, fun he' => hnodup.2.2 e he' e he rfl⟩,
      fun he => he.1.resolve_left he.2⟩
  rw [hdrop, h.mem_iff, exists_get?_iff hs hw, exists_get?_iff hs' hw', hstored, and_right_comm]

end World.Queue

namespace World.Expired

variable {u v w w' : World} {es fs : List PendingEntry} {n : Nat}

theorem nothing (w : World) : Expired [] w w :=
  ⟨nofun, fun _ _ => rfl, (List.append_nil _).symm, rfl⟩

theorem trans (h : Expired es u v) (h' : Expired fs v w) : Expired (es ++ fs) u w where
  gone e he key hkey := by
    by_cases hfs : ∃ f ∈ fs, key ∈ [f.key, f.timeKey]
    · obtain ⟨f, hf, hkey'⟩ := hfs
      obtain ⟨hv, hw⟩ := h'.gone f hf key hkey'
      refine ⟨?_, hw⟩
      by_cases hes : ∃ e ∈ es, key ∈ [e.key, e.timeKey]
      · obtain ⟨e, he, hkey⟩ := hes
        exact (h.gone e he key hkey).1
      · rw [OrderedMap.contains, ← h.kept key fun e he hkey => hes ⟨e, he, hkey⟩]
        exact hv
    · have he : e ∈ es :=
        (List.mem_append.1 he).resolve_right fun he => hfs ⟨e, he, hkey⟩
      obtain ⟨hu, hv⟩ := h.gone e he key hkey
      refine ⟨hu, ?_⟩
      rw [OrderedMap.contains, h'.kept key fun f hf hkey => hfs ⟨f, hf, hkey⟩]
      exact hv
  kept key hkey :=
    (h'.kept key fun f hf => hkey f (List.mem_append_right es hf)).trans
      (h.kept key fun e he => hkey e (List.mem_append_left fs he))
  reports := by rw [h'.reports, h.reports, List.append_assoc, List.map_append]
  rest := by
    rw [h'.rest, h.rest]

theorem expire (hs : Coherent w.disk.store n) (hes : ∀ e ∈ es, Stored w.disk.store e) :
    Expired es w (w.expire es) := by
  have hget := Store.get?_applyAll_deletes w.disk.store (es.flatMap fun e => [e.timeKey, e.key])
  rw [← expiry_eq] at hget
  have hmem : ∀ key, key ∈ (es.flatMap fun e => [e.timeKey, e.key]) ↔
      ∃ e ∈ es, key ∈ [e.key, e.timeKey] := by
    intro key
    rw [keysOf_expiry es key]
    simp
  change ∀ key, (w.expire es).disk.store.get? key = _ at hget
  refine ⟨fun e he key hkey => ⟨?_, ?_⟩, fun key hkey => ?_, rfl, rfl⟩
  · rcases List.mem_cons.1 hkey with rfl | hkey
    · exact OrderedMap.contains_iff.2 ⟨_, (hes e he).get?⟩
    · obtain rfl := List.mem_singleton.1 hkey
      exact (hs.indexed e.head?_timeKey).2 ⟨e, hes e he, rfl⟩
  · rw [OrderedMap.contains, hget, if_pos ((hmem key).2 ⟨e, he, hkey⟩)]
    rfl
  · rw [hget, if_neg]
    rw [hmem]
    rintro ⟨e, he, hkey'⟩
    exact hkey e he hkey'

end World.Expired

/-! ## Sweeps -/

/-- Calls an action a number of times and keeps its answers. -/
def RouterM.repeated {α : Type} (act : RouterM α) : Nat → RouterM (List α)
  | 0 => return []
  | n + 1 => do return (← act) :: (← repeated act n)

/-- The first blocks of a list, of one size. -/
def blocks {α : Type} (size : Nat) : Nat → List α → List (List α)
  | 0, _ => []
  | n + 1, as => as.take size :: blocks size n (as.drop size)

section

variable {α : Type}

theorem flatten_blocks (size n : Nat) (as : List α) :
    (blocks size n as).flatten = as.take (n * size) := by
  induction n generalizing as with
  | zero => simp [blocks]
  | succ n ih =>
    rw [blocks, List.flatten_cons, ih, Nat.succ_mul, Nat.add_comm, List.take_add]

theorem blocks_nil (size n : Nat) : blocks size n ([] : List α) = List.replicate n [] := by
  induction n with
  | zero => rfl
  | succ n ih => rw [blocks, List.take_nil, List.drop_nil, ih, List.replicate_succ]

/-- Blocks are empty once the list is used up. -/
theorem blocks_of_exhausted {size n : Nat} {as : List α} (h : as.length ≤ n * size) (m : Nat) :
    blocks size (n + m) as = blocks size n as ++ List.replicate m [] := by
  induction n generalizing as with
  | zero =>
    obtain rfl : as = [] := List.eq_nil_of_length_eq_zero (by omega)
    rw [Nat.zero_add, blocks_nil]
    rfl
  | succ n ih =>
    have hrest : (as.drop size).length ≤ n * size := by
      rw [List.length_drop]
      rw [Nat.succ_mul] at h
      omega
    rw [Nat.succ_add, blocks, ih hrest, blocks]
    rfl

end

variable {w : World} {n : Nat} {es : List PendingEntry} {cutoff : UInt64}

/-- A sweep takes the front of the queue. -/
theorem World.Queue.sweep (h : w.Queue (·.isExpired cutoff) es) (hs : Coherent w.disk.store n)
    (hw : w.disk.Reliable) (limit : UInt64) :
    Pending.sweep limit cutoff w =
      .ok ((es.take limit.toNat).map (·.hash)) (w.expire (es.take limit.toNat)) := by
  rw [Pending.sweep_run hw (h.readIndex_eq hs hw.readable limit.toNat)]
  simp only [List.map_map, Function.comp_def]
  rfl

/-- Sweeps one after the other take the queue block by block. -/
theorem World.Queue.sweeps (h : w.Queue (·.isExpired cutoff) es) (hs : Coherent w.disk.store n)
    (hw : w.disk.Reliable) (limit : UInt64) (k : Nat) :
    ∃ w', RouterM.repeated (Pending.sweep limit cutoff) k w =
        .ok ((blocks limit.toNat k es).map (List.map (·.hash))) w' ∧
      w.Expired (es.take (k * limit.toNat)) w' := by
  induction k generalizing w es with
  | zero => exact ⟨w, rfl, by simpa using .nothing w⟩
  | succ k ih =>
    obtain ⟨hs', hqueue⟩ := h.expire hs hw.readable limit.toNat
    obtain ⟨v, hrest, hexpired⟩ := ih hqueue hs' hw
    refine ⟨v, ?_, ?_⟩
    · rw [RouterM.repeated, bind_of_ok (h.sweep hs hw limit), bind_of_ok hrest]
      rfl
    · rw [Nat.succ_mul, Nat.add_comm, List.take_add]
      exact (World.Expired.expire hs (h.stored_take hs hw.readable _)).trans hexpired

/-- An action drops the entries that satisfy a condition from the oldest on, at most so many in each
call: what one call does, what so many calls do, and that enough calls drop them all. -/
structure Drains (act : RouterM (List PayloadHash)) (limit : Nat) (p : PendingEntry → Prop)
    (w : World) (es : List PendingEntry) : Prop where
  queue : w.Queue p es
  once : ∃ w', act w = .ok ((es.take limit).map (·.hash)) w' ∧ w.Expired (es.take limit) w'
  repeatedly : ∀ k, ∃ w',
    act.repeated k w = .ok ((blocks limit k es).map (List.map (·.hash))) w' ∧
      w.Expired (es.take (k * limit)) w'
  exhausts : 0 < limit → ∃ k, (blocks limit k es).flatten = es ∧
    ∀ m, blocks limit (k + m) es = blocks limit k es ++ List.replicate m []

section

variable {act : RouterM (List PayloadHash)} {limit : Nat} {p : PendingEntry → Prop}

theorem Drains.congr {q : PendingEntry → Prop} (h : Drains act limit p w es)
    (hpq : ∀ e, p e ↔ q e) : Drains act limit q w es :=
  { h with queue := h.queue.congr hpq }

/-- A call that drops fewer entries than it may drops them all. -/
theorem Drains.map_hash_eq (h : Drains act limit p w es) {hashes : List PayloadHash}
    (hrun : act.run' w = some hashes) (hlt : hashes.length < limit) :
    es.map (·.hash) = hashes := by
  obtain ⟨w', hact, -⟩ := h.once
  obtain rfl := Option.some.inj (hrun.symm.trans (run'_of_ok hact))
  rw [List.length_map, List.length_take] at hlt
  rw [List.take_of_length_le (by omega)]

end

theorem Coherent.drains (hs : Coherent w.disk.store n) (hw : w.disk.Reliable)
    (limit cutoff : UInt64) :
    ∃ es, Drains (Pending.sweep limit cutoff) limit.toNat (·.isExpired cutoff) w es := by
  obtain ⟨es, h, -⟩ := World.Queue.exists_keys hs hw.readable cutoff
  refine ⟨es, h, ?_, h.sweeps hs hw limit, fun hlimit => ⟨es.length, ?_, fun m => ?_⟩⟩
  · exact ⟨_, h.sweep hs hw limit, .expire hs (h.stored_take hs hw.readable _)⟩
  · rw [flatten_blocks, List.take_of_length_le (Nat.le_mul_of_pos_right _ hlimit)]
  · exact blocks_of_exhausted (Nat.le_mul_of_pos_right _ hlimit) m

/-- The cutoff of a block is passed by what has outlived its lifetime, at any time and for any
lifetime. -/
theorem PendingEntry.isExpired_cutoffAt {e : PendingEntry} {now lifetime : UInt64} :
    e.isExpired (Pending.cutoffAt now lifetime) = true ↔
      e.timestamp.toNat + lifetime.toNat < now.toNat := by
  have hnow := now.toNat_lt
  have hcutoff : (Pending.cutoffAt now lifetime).toNat = now.toNat - lifetime.toNat :=
    UInt64.toNat_ofNat_of_lt' (by simp only [UInt64.size]; omega)
  rw [isExpired, decide_eq_true_iff, hcutoff]
  omega

/-- In whatever state a session left the store, sweeps drop the entries submitted before their
cutoff, and ends of blocks those that have outlived their lifetime, from the oldest on. -/
theorem sweeps_drain (r : Router) (w v : World) (calls : List (UInt64 × Call))
    (hw : w.disk.Readable) (hempty : ∀ key, Key.IsRecord key → w.disk.store.get? key = none)
    (hfits : SubmitsFit calls) (hstore : v.disk.store = (final r w calls).disk.store)
    (hv : v.disk.Reliable) :
    (∀ limit cutoff, ∃ es,
      Drains (Pending.sweep limit cutoff) limit.toNat (·.isExpired cutoff) v es) ∧
    (∀ config now, ∃ es,
      Drains (Pending.endBlock config now) config.sweepLimit.toNat
        (fun e => e.timestamp.toNat + config.lifetime.toNat < now.toNat) v es) := by
  obtain ⟨-, hs⟩ := coherent_final hfits (Coherent.empty hempty) hw
  rw [← hstore] at hs
  refine ⟨fun limit cutoff => hs.drains hv limit cutoff, fun config now => ?_⟩
  obtain ⟨es, h⟩ := hs.drains hv config.sweepLimit (Pending.cutoffAt now config.lifetime)
  exact ⟨es, h.congr fun e => PendingEntry.isExpired_cutoffAt⟩

namespace Testbed

/-- Four submissions, not in the order of their times. -/
def backlog : List (UInt64 × Call) :=
  [30, 20, 20, 90].map fun now => (now, .submit "alice" payload)

theorem submitsFit_backlog : SubmitsFit backlog := by
  intro now signer p hmem
  obtain ⟨time, -, hcall⟩ := List.mem_map.1 hmem
  obtain ⟨-, -, rfl⟩ := Call.submit.inj (Prod.mk.inj hcall).2
  exact fits_payload

/-- The world of the testbed with what the backlog left in the store. -/
def backlogged : World :=
  { world with disk := ⟨(final router world backlog).disk.store, world.disk.faults⟩ }

theorem store_backlogged : backlogged.disk.store = (final router world backlog).disk.store := by
  rw [backlogged]

theorem reliable_backlogged : backlogged.disk.Reliable := by
  intro call
  change world.disk.faults.concerns call = false
  exact reliable_world call

/-- What was submitted before time 50, in the order of the queue: of two entries of one time, the
one that was submitted last has the lower hash. -/
def overdue : List PayloadHash :=
  [⟨2, payload, 20⟩, ⟨1, payload, 20⟩, ⟨0, payload, 30⟩].map PendingEntry.hash

theorem swept_backlogged : (Pending.sweep 4 50).run' backlogged = some overdue := by decide +kernel

/-- Sweeps of two entries take the three that are overdue in two blocks and leave the fourth. -/
theorem drained_backlog :
    (∃ es, Drains (Pending.sweep 2 50) 2 (·.isExpired 50) backlogged es ∧
      es.map (·.hash) = overdue ∧ ∃ w, (Pending.sweep 2 50).repeated 3 backlogged =
        .ok [overdue.take 2, overdue.drop 2, []] w) ∧
    ∃ es, Drains (Pending.endBlock ⟨40, 2⟩ 90) 2 (fun e => e.timestamp.toNat + 40 < 90)
        backlogged es ∧
      es.map (·.hash) = overdue := by
  have hdrains := sweeps_drain router world backlogged backlog reliable_world.readable
    (fun key _ => get?_world key) submitsFit_backlog store_backlogged reliable_backlogged
  obtain ⟨es, hes⟩ := hdrains.1 2 50
  obtain ⟨fs, hfs⟩ := hdrains.1 4 50
  obtain ⟨gs, hgs⟩ := hdrains.2 ⟨40, 2⟩ 90
  -- All three have one queue: limits do not matter, and what lives 40 is expired at 90 if it was
  -- submitted before 50.
  obtain rfl := hes.queue.unique hfs.queue
  have hcutoff : Pending.cutoffAt 90 40 = 50 := rfl
  have hexpired : ∀ e : PendingEntry,
      e.timestamp.toNat + (40 : UInt64).toNat < (90 : UInt64).toNat ↔ e.isExpired 50 = true := by
    intro e
    rw [← hcutoff]
    exact PendingEntry.isExpired_cutoffAt.symm
  obtain rfl := hes.queue.unique (hgs.queue.congr hexpired)
  have hall := hfs.map_hash_eq swept_backlogged (by decide)
  have hlength : es.length = 3 := by rw [← List.length_map, hall]; rfl
  obtain ⟨w, hrun, -⟩ := hes.repeatedly 3
  refine ⟨⟨es, hes, hall, w, ?_⟩, es, hgs, hall⟩
  rw [hrun, ← hall]
  simp [blocks, hlength]

end Testbed

end TransferRouter
