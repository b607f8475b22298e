import TransferRouter.Proofs.Codec
import TransferRouter.Proofs.Effect

/-!
The three families of keys of what is recorded fit together after every session: each entry stands
under its own hash, the time index has exactly one key for each entry, and the counter is the number
of entries that were ever recorded. Submissions add to all three families, completions, removals and
sweeps take from two of them, and no call does anything else to them.
-/

namespace TransferRouter

open Codec Disk

def PendingEntry.key (e : PendingEntry) : Bytes := (Key.pending e.hash).bytes

def PendingEntry.timeKey (e : PendingEntry) : Bytes :=
  (Key.pendingByTime e.timestamp e.hash).bytes

theorem PendingEntry.head?_key (e : PendingEntry) : e.key.head? = some 0x31 := rfl

theorem PendingEntry.head?_timeKey (e : PendingEntry) : e.timeKey.head? = some 0x32 := rfl

theorem PendingEntry.isRecord_key (e : PendingEntry) : Key.IsRecord e.key :=
  Key.isRecord_bytes.2 (.inr (.inl rfl))

theorem isRecord_sequence : Key.IsRecord Key.sequence.bytes := Key.isRecord_bytes.2 (.inl rfl)

/-- A well-formed entry that is recorded under its own hash. -/
structure Stored (s : Store) (e : PendingEntry) : Prop where
  get? : s.get? e.key = some (encode e)
  fits : Fits e
  check : e.payload.check = .ok ()

/-- What is true of the keys of what is recorded after `n` submissions. -/
structure Coherent (s : Store) (n : Nat) : Prop where
  bound : n < UInt64.size
  counter : s.get? Key.sequence.bytes = if n = 0 then none else some (encode (UInt64.ofNat n))
  entry : ∀ {key}, s.contains key = true → key.head? = some 0x31 → ∃ e, Stored s e ∧ key = e.key
  early : ∀ {e}, Stored s e → e.sequence.toNat < n
  distinct : ∀ {e f}, Stored s e → Stored s f → e.sequence = f.sequence → e = f
  indexed : ∀ {key}, key.head? = some 0x32 →
    (s.contains key = true ↔ ∃ e, Stored s e ∧ key = e.timeKey)

namespace Stored

variable {s s' : Store} {e f : PendingEntry}

theorem eq_of_hash (he : Stored s e) (hf : Stored s f) (h : e.hash = f.hash) : e = f := by
  have hkey : e.key = f.key := by rw [PendingEntry.key, h, PendingEntry.key]
  have := he.get?
  rw [hkey, hf.get?] at this
  exact LawfulCodec.encode_inj he.fits hf.fits (Option.some.inj this).symm

theorem eq_of_key (he : Stored s e) (hf : Stored s f) (h : e.key = f.key) : e = f :=
  he.eq_of_hash hf (Key.pending_inj h)

theorem eq_of_timeKey (he : Stored s e) (hf : Stored s f) (h : e.timeKey = f.timeKey) : e = f :=
  he.eq_of_hash hf (Key.pendingByTime_inj h).2

theorem congr (h : ∀ key, Key.IsRecord key → s'.get? key = s.get? key) (he : Stored s e) :
    Stored s' e :=
  ⟨(h _ e.isRecord_key).trans he.get?, he.fits, he.check⟩

end Stored

namespace Coherent

variable {s s' : Store} {n : Nat}

theorem congr (h : ∀ key, Key.IsRecord key → s'.get? key = s.get? key) (hs : Coherent s n) :
    Coherent s' n := by
  have hstored : ∀ {e}, Stored s' e ↔ Stored s e :=
    ⟨Stored.congr fun key hkey => (h key hkey).symm, Stored.congr h⟩
  have hcontains : ∀ {key}, Key.IsRecord key → s'.contains key = s.contains key := by
    intro key hkey
    rw [OrderedMap.contains, h key hkey, OrderedMap.contains]
  refine ⟨hs.bound, (h _ isRecord_sequence).trans hs.counter, ?_, ?_, ?_, ?_⟩
  · intro key hkey hhead
    rw [hcontains (.inr (.inl hhead))] at hkey
    obtain ⟨e, he, rfl⟩ := hs.entry hkey hhead
    exact ⟨e, hstored.2 he, rfl⟩
  · exact fun he => hs.early (hstored.1 he)
  · exact fun he hf => hs.distinct (hstored.1 he) (hstored.1 hf)
  · intro key hhead
    rw [hcontains (.inr (.inr hhead)), hs.indexed hhead]
    simp only [hstored]

theorem empty (h : ∀ key, Key.IsRecord key → s.get? key = none) : Coherent s 0 := by
  have hnone : ∀ {e}, ¬ Stored s e := by
    intro e he
    have := he.get?
    rw [h _ e.isRecord_key] at this
    exact absurd this nofun
  have hfalse : ∀ {key}, Key.IsRecord key → s.contains key = false :=
    fun hkey => OrderedMap.contains_eq_false_iff.2 (h _ hkey)
  refine ⟨by decide, (h _ isRecord_sequence).trans (if_pos rfl).symm, ?_, ?_, ?_, ?_⟩
  · intro key hkey hhead
    rw [hfalse (.inr (.inl hhead))] at hkey
    exact Bool.noConfusion hkey
  · exact fun he => (hnone he).elim
  · exact fun he => (hnone he).elim
  · intro key hhead
    simp only [hfalse (.inr (.inr hhead)), hnone, Bool.false_eq_true, false_and, exists_false]

/-! ## A submission -/

theorem get?_recording (s : Store) (e : PendingEntry) (next : UInt64) (key : Bytes) :
    (s.applyAll (Pending.recording e next)).get? key =
      if e.timeKey = key then some [] else if e.key = key then some (encode e)
      else if Key.sequence.bytes = key then some (encode next) else s.get? key := by
  simp only [Pending.recording, Store.applyAll_cons, Store.applyAll_nil, Store.get?_apply,
    Write.key, Write.value]
  rfl

theorem ne_of_head? {k l : Bytes} {a b : UInt8} (hk : k.head? = some a) (hl : l.head? = some b)
    (hab : a ≠ b) : k ≠ l := by
  rintro rfl
  exact hab (Option.some.inj (hk.symm.trans hl))

theorem stored_recording {e f : PendingEntry} {next : UInt64} (hfits : Fits e)
    (hcheck : e.payload.check = .ok ()) (hfree : s.contains e.key = false) :
    Stored (s.applyAll (Pending.recording e next)) f ↔ f = e ∨ Stored s f := by
  have htime : f.key ≠ e.timeKey := ne_of_head? f.head?_key e.head?_timeKey (by decide)
  have hsequence : f.key ≠ Key.sequence.bytes := ne_of_head? f.head?_key rfl (by decide)
  constructor
  · intro hf
    have hget := hf.get?
    rw [get?_recording, if_neg htime.symm] at hget
    by_cases hkey : f.key = e.key
    · rw [if_pos hkey.symm] at hget
      exact .inl (LawfulCodec.encode_inj hf.fits hfits (Option.some.inj hget).symm)
    · rw [if_neg (Ne.symm hkey), if_neg hsequence.symm] at hget
      exact .inr ⟨hget, hf.fits, hf.check⟩
  · rintro (rfl | hf)
    · exact ⟨by rw [get?_recording, if_neg htime.symm, if_pos rfl], hfits, hcheck⟩
    · have hkey : f.key ≠ e.key := by
        intro h
        have := hf.get?
        rw [h, OrderedMap.contains_eq_false_iff.1 hfree] at this
        exact absurd this nofun
      refine ⟨?_, hf.fits, hf.check⟩
      rw [get?_recording, if_neg htime.symm, if_neg (Ne.symm hkey), if_neg hsequence.symm]
      exact hf.get?

theorem record (hs : Coherent s n) {e : PendingEntry} {next : UInt64} (hfits : Fits e)
    (hcheck : e.payload.check = .ok ()) (hsequence : e.sequence.toNat = n)
    (hnext : next.toNat = n + 1) (hfree : s.contains e.key = false) :
    Coherent (s.applyAll (Pending.recording e next)) (n + 1) := by
  have hstored : ∀ {f}, Stored (s.applyAll (Pending.recording e next)) f ↔ f = e ∨ Stored s f :=
    stored_recording hfits hcheck hfree
  refine ⟨hnext ▸ next.toNat_lt, ?_, ?_, ?_, ?_, ?_⟩
  · have htime : Key.sequence.bytes ≠ e.timeKey := ne_of_head? rfl e.head?_timeKey (by decide)
    have hkey : Key.sequence.bytes ≠ e.key := ne_of_head? rfl e.head?_key (by decide)
    rw [get?_recording, if_neg htime.symm, if_neg (Ne.symm hkey), if_pos rfl,
      if_neg n.succ_ne_zero, ← hnext, UInt64.ofNat_toNat]
  · intro key hkey hhead
    by_cases he : key = e.key
    · exact ⟨e, hstored.2 (.inl rfl), he⟩
    · have htime : key ≠ e.timeKey := ne_of_head? hhead e.head?_timeKey (by decide)
      have hcounter : key ≠ Key.sequence.bytes := ne_of_head? hhead rfl (by decide)
      rw [OrderedMap.contains, get?_recording, if_neg htime.symm, if_neg (Ne.symm he),
        if_neg hcounter.symm] at hkey
      obtain ⟨f, hf, rfl⟩ := hs.entry hkey hhead
      exact ⟨f, hstored.2 (.inr hf), rfl⟩
  · intro f hf
    rcases hstored.1 hf with rfl | hf
    · omega
    · exact Nat.lt_succ_of_lt (hs.early hf)
  · intro f g hf hg hfg
    rcases hstored.1 hf with rfl | hf' <;> rcases hstored.1 hg with rfl | hg'
    · rfl
    · exact absurd (hs.early hg') (by rw [← hfg]; omega)
    · exact absurd (hs.early hf') (by rw [hfg]; omega)
    · exact hs.distinct hf' hg' hfg
  · intro key hhead
    have hkey : key ≠ e.key := ne_of_head? hhead e.head?_key (by decide)
    have hcounter : key ≠ Key.sequence.bytes := ne_of_head? hhead rfl (by decide)
    rw [OrderedMap.contains, get?_recording, if_neg (Ne.symm hkey), if_neg hcounter.symm]
    by_cases htime : key = e.timeKey
    · rw [if_pos htime.symm]
      exact iff_of_true rfl ⟨e, hstored.2 (.inl rfl), htime⟩
    · rw [if_neg (Ne.symm htime)]
      refine (hs.indexed hhead).trans ⟨?_, ?_⟩
      · rintro ⟨f, hf, rfl⟩
        exact ⟨f, hstored.2 (.inr hf), rfl⟩
      · rintro ⟨f, hf, rfl⟩
        rcases hstored.1 hf with rfl | hf
        · exact absurd rfl htime
        · exact ⟨f, hf, rfl⟩

/-! ## Completions, removals and sweeps -/

/-- The keys of some entries: under each stands an entry, or it is the entry's key in the index. -/
def KeysOf (es : List PendingEntry) (keys : List Bytes) : Prop :=
  ∀ key, key ∈ keys ↔ ∃ e ∈ es, key = e.key ∨ key = e.timeKey

variable {es : List PendingEntry} {keys : List Bytes} {f : PendingEntry}

theorem key_mem_iff (hkeys : KeysOf es keys) (hes : ∀ e ∈ es, Stored s e) (hf : Stored s f) :
    f.key ∈ keys ↔ f ∈ es := by
  rw [hkeys]
  constructor
  · rintro ⟨e, he, h | h⟩
    · exact (hf.eq_of_key (hes e he) h) ▸ he
    · exact absurd h (ne_of_head? f.head?_key e.head?_timeKey (by decide))
  · exact fun h => ⟨f, h, .inl rfl⟩

theorem timeKey_mem_iff (hkeys : KeysOf es keys) (hes : ∀ e ∈ es, Stored s e) (hf : Stored s f) :
    f.timeKey ∈ keys ↔ f ∈ es := by
  rw [hkeys]
  constructor
  · rintro ⟨e, he, h | h⟩
    · exact absurd h (ne_of_head? f.head?_timeKey e.head?_key (by decide))
    · exact (hf.eq_of_timeKey (hes e he) h) ▸ he
  · exact fun h => ⟨f, h, .inr rfl⟩

theorem stored_drop (hkeys : KeysOf es keys) (hes : ∀ e ∈ es, Stored s e) :
    Stored (s.applyAll (keys.map .delete)) f ↔ Stored s f ∧ f ∉ es := by
  constructor
  · intro hf
    have hget := hf.get?
    rw [Store.get?_applyAll_deletes] at hget
    by_cases hmem : f.key ∈ keys
    · rw [if_pos hmem] at hget
      exact absurd hget nofun
    · rw [if_neg hmem] at hget
      have hs : Stored s f := ⟨hget, hf.fits, hf.check⟩
      exact ⟨hs, fun h => hmem ((key_mem_iff hkeys hes hs).2 h)⟩
  · rintro ⟨hf, hmem⟩
    refine ⟨?_, hf.fits, hf.check⟩
    rw [Store.get?_applyAll_deletes, if_neg fun h => hmem ((key_mem_iff hkeys hes hf).1 h)]
    exact hf.get?

theorem drop (hs : Coherent s n) (hkeys : KeysOf es keys) (hes : ∀ e ∈ es, Stored s e) :
    Coherent (s.applyAll (keys.map .delete)) n := by
  have hget := Store.get?_applyAll_deletes s keys
  have hstored : ∀ {f}, Stored (s.applyAll (keys.map .delete)) f ↔ Stored s f ∧ f ∉ es :=
    stored_drop hkeys hes
  refine ⟨hs.bound, ?_, ?_, ?_, ?_, ?_⟩
  · have hcounter : Key.sequence.bytes ∉ keys := by
      rw [hkeys]
      rintro ⟨e, -, h | h⟩
      · exact ne_of_head? rfl e.head?_key (by decide) h
      · exact ne_of_head? rfl e.head?_timeKey (by decide) h
    rw [hget, if_neg hcounter]
    exact hs.counter
  · intro key hcontains hhead
    rw [OrderedMap.contains, hget] at hcontains
    by_cases hmem : key ∈ keys
    · rw [if_pos hmem] at hcontains
      exact absurd hcontains Bool.false_ne_true
    · rw [if_neg hmem] at hcontains
      obtain ⟨f, hf, rfl⟩ := hs.entry hcontains hhead
      exact ⟨f, hstored.2 ⟨hf, fun h => hmem ((key_mem_iff hkeys hes hf).2 h)⟩, rfl⟩
  · exact fun hf => hs.early (hstored.1 hf).1
  · exact fun hf hg => hs.distinct (hstored.1 hf).1 (hstored.1 hg).1
  · intro key hhead
    rw [OrderedMap.contains, hget]
    by_cases hmem : key ∈ keys
    · rw [if_pos hmem]
      refine iff_of_false Bool.false_ne_true ?_
      rintro ⟨f, hf, rfl⟩
      obtain ⟨hf', hnot⟩ := hstored.1 hf
      exact hnot ((timeKey_mem_iff hkeys hes hf').1 hmem)
    · rw [if_neg hmem]
      refine (hs.indexed hhead).trans ⟨?_, ?_⟩
      · rintro ⟨f, hf, rfl⟩
        exact ⟨f, hstored.2 ⟨hf, fun h => hmem ((timeKey_mem_iff hkeys hes hf).2 h)⟩, rfl⟩
      · rintro ⟨f, hf, rfl⟩
        exact ⟨f, (hstored.1 hf).1, rfl⟩

end Coherent

/-! ## What the calls on recorded payloads read -/

section

variable {w : World} {n : Nat}

theorem decodeAt_stored {s : Store} {e : PendingEntry} (he : Stored s e) (key : Bytes) :
    decodeAt PendingEntry key (encode e) = .ok e :=
  LawfulCodec.decodeAt_encode he.fits key

/-- The entry of a hash is read when it is recorded, and only then. -/
theorem get?_eq_some_iff (hs : Coherent w.disk.store n) (hw : w.disk.Readable) {h : PayloadHash}
    {e : PendingEntry} :
    Pending.get? h w = .ok (some e) w ↔ Stored w.disk.store e ∧ e.hash = h := by
  constructor
  · intro hget
    obtain ⟨⟨v, hv, hdecode⟩, -⟩ := (read_eq_ok_some hw).1 hget
    obtain ⟨f, hf, hkey⟩ := hs.entry (OrderedMap.contains_iff.2 ⟨v, hv⟩) rfl
    obtain rfl : h = f.hash := Key.pending_inj hkey
    obtain rfl : encode f = v := Option.some.inj (hf.get?.symm.trans hv)
    rw [decodeAt_stored hf] at hdecode
    obtain rfl := Except.ok.inj hdecode
    exact ⟨hf, rfl⟩
  · rintro ⟨he, rfl⟩
    exact (read_eq_ok_some hw).2 ⟨⟨_, he.get?, decodeAt_stored he _⟩, rfl⟩

theorem contains_pending_iff {s : Store} (hs : Coherent s n) {h : PayloadHash} :
    s.contains (Key.pending h).bytes = true ↔ ∃ e, Stored s e ∧ e.hash = h := by
  constructor
  · intro hc
    obtain ⟨e, he, hkey⟩ := hs.entry hc rfl
    exact ⟨e, he, (Key.pending_inj hkey).symm⟩
  · rintro ⟨e, he, rfl⟩
    exact OrderedMap.contains_iff.2 ⟨_, he.get?⟩

theorem nextSequence_run (hs : Coherent w.disk.store n) (hw : w.disk.Readable) :
    Pending.nextSequence w = .ok (UInt64.ofNat n) w := by
  have hcounter := hs.counter
  by_cases hn : n = 0
  · rw [if_pos hn] at hcounter
    have hread : RouterM.read UInt64 .sequence w = .ok none w := read_of_absent hw hcounter
    rw [Pending.nextSequence, bind_of_ok hread, hn]
    rfl
  · rw [if_neg hn] at hcounter
    have hread : RouterM.read UInt64 .sequence w = .ok (some (UInt64.ofNat n)) w :=
      (read_eq_ok_some hw).2 ⟨⟨_, hcounter, LawfulCodec.decodeAt_encode trivial _⟩, rfl⟩
    rw [Pending.nextSequence, bind_of_ok hread]
    rfl

theorem toNat_of_nextSequence (hs : Coherent w.disk.store n) (hw : w.disk.Readable) {m : UInt64}
    (h : Pending.nextSequence w = .ok m w) : m.toNat = n := by
  rw [nextSequence_run hs hw] at h
  injection h with h _
  rw [← h, UInt64.toNat_ofNat_of_lt' hs.bound]

end

theorem toNat_successor {m next : UInt64} (h : successor? m = some next) :
    next.toNat = m.toNat + 1 := by
  unfold successor? at h
  split at h
  next hlt =>
    obtain rfl := Option.some.inj h
    rw [UInt64.toNat_add]
    exact Nat.mod_eq_of_lt hlt
  next => exact absurd h nofun

/-! ## What is dropped -/

theorem keysOf_removal (e : PendingEntry) : Coherent.KeysOf [e] [e.key, e.timeKey] := by
  intro key
  simp only [List.mem_cons, List.not_mem_nil, or_false, exists_eq_left]

theorem removal_eq (e : PendingEntry) :
    Pending.removal e.timestamp e.hash = [e.key, e.timeKey].map .delete := rfl

theorem keysOf_expiry (es : List PendingEntry) :
    Coherent.KeysOf es (es.flatMap fun e => [e.timeKey, e.key]) := by
  intro key
  simp only [List.mem_flatMap, List.mem_cons, List.not_mem_nil, or_false]
  exact exists_congr fun e => and_congr_right fun _ => or_comm

theorem expiry_eq (es : List PendingEntry) :
    Pending.expiry (es.map fun e => (e.timeKey, e.hash)) =
      (es.flatMap fun e => [e.timeKey, e.key]).map .delete := by
  rw [Pending.expiry, List.flatMap_map, List.map_flatMap]
  rfl

/-- Keys of the time index are read as the hashes of what they stand for. -/
theorem readIndex_of_keys {l : List (Bytes × Bytes)} {es : List PendingEntry}
    (h : l.map (·.1) = es.map (·.timeKey)) :
    Pending.readIndex l = .ok (es.map fun e => (e.timeKey, e.hash)) := by
  induction l generalizing es with
  | nil =>
    obtain rfl := List.map_eq_nil_iff.1 h.symm
    rfl
  | cons p l ih =>
    cases es with
    | nil => exact absurd h nofun
    | cons e es =>
      obtain ⟨hkey, hrest⟩ := List.cons.inj h
      have hkey : p.1 = e.timeKey := hkey
      have hread := ih hrest
      have hparse : Key.readTimeKey e.timeKey = .ok (e.timestamp, e.hash) :=
        Key.readTimeKey_bytes e.timestamp e.hash
      rw [Pending.readIndex] at hread ⊢
      rw [List.mapM_cons, hread, hkey, hparse]
      rfl

/-- Keys of the time index that are in the store are read as entries that are recorded. -/
theorem readIndex_ok {s : Store} {n : Nat} (hs : Coherent s n) {l : List (Bytes × Bytes)}
    (hl : ∀ p ∈ l, s.contains p.1 = true ∧ p.1.head? = some 0x32) :
    ∃ es : List PendingEntry, Pending.readIndex l = .ok (es.map fun e => (e.timeKey, e.hash)) ∧
      (∀ e ∈ es, Stored s e) ∧ l.map (·.1) = es.map (·.timeKey) := by
  induction l with
  | nil => exact ⟨[], rfl, nofun, rfl⟩
  | cons p l ih =>
    obtain ⟨es, -, hes, hkeys⟩ := ih fun q hq => hl q (List.mem_cons_of_mem _ hq)
    obtain ⟨hcontains, hhead⟩ := hl p List.mem_cons_self
    obtain ⟨e, he, hkey⟩ := (hs.indexed hhead).1 hcontains
    have hkeys' : (p :: l).map (·.1) = (e :: es).map (·.timeKey) := by
      rw [List.map_cons, List.map_cons, hkey, hkeys]
    exact ⟨e :: es, readIndex_of_keys hkeys', List.forall_mem_cons.2 ⟨he, hes⟩, hkeys'⟩

/-- What a sweep reads from the index are entries that are recorded, each once. -/
theorem swept_entries {s : Store} {n : Nat} (hs : Coherent s n) {limit : Nat} {cutoff : UInt64} :
    ∃ es : List PendingEntry,
      Pending.readIndex (s.range Key.timeIndex (Key.timeBound cutoff) limit) =
        .ok (es.map fun e => (e.timeKey, e.hash)) ∧
      (∀ e ∈ es, Stored s e) ∧ (es.map (·.hash)).Nodup := by
  have hl : ∀ p ∈ s.range Key.timeIndex (Key.timeBound cutoff) limit,
      s.contains p.1 = true ∧ p.1.head? = some 0x32 := by
    intro p hp
    rw [Store.range_eq] at hp
    obtain ⟨hmem, hbounds⟩ := List.mem_filter.1 (List.mem_of_mem_take hp)
    rw [Bool.and_eq_true, Bool.not_eq_true'] at hbounds
    refine ⟨OrderedMap.contains_iff.2 ⟨p.2, OrderedMap.get?_eq_some_iff.2 hmem⟩, ?_⟩
    exact Key.head?_of_between hbounds.1 hbounds.2
  obtain ⟨es, hread, hes, hkeys⟩ := readIndex_ok hs hl
  refine ⟨es, hread, hes, ?_⟩
  have hnodup : (es.map (·.timeKey)).Nodup := by
    rw [← hkeys, Store.range_eq, List.Nodup, List.pairwise_map]
    exact ((s.ascending.filter _).take).imp fun hab => StrictOrder.ne_of_before hab
  rw [List.Nodup, List.pairwise_map] at hnodup ⊢
  refine hnodup.imp_of_mem fun he hf hne hhash => hne ?_
  rw [(hes _ he).eq_of_hash (hes _ hf) hhash]

/-! ## Sessions -/

/-- A call keeps what is recorded coherent, and counts as many submissions as succeeded. -/
theorem Effect.coherent {r : Router} {w : World} {call : Call} {n : Nat}
    {outcome : Except RouterError Answer} {batch : List Write} {reports : List Event}
    (h : Effect r w call outcome batch reports) (hs : Coherent w.disk.store n)
    (hw : w.disk.Readable)
    (hfits : ∀ signer payload, call = .submit signer payload → Fits payload) :
    Coherent (w.disk.store.applyAll batch)
      (n + (Step.submits ⟨call, w, outcome, w⟩).length) := by
  cases h with
  | failed e => exact hs
  | idle hnamed hsubmits hsweeps =>
    simp only [Step.submits, hsubmits]
    exact hs
  | @recorded signer e next hcall htime hcheck hsequence hnext hfree =>
    have hfits : Fits e := ⟨trivial, hfits signer e.payload hcall, trivial⟩
    have hcount := toNat_of_nextSequence hs hw hsequence
    exact hs.record hfits hcheck hcount (hcount ▸ toNat_successor hnext) hfree
  | taken hnamed hsubmits hsweeps hget =>
    obtain ⟨he, rfl⟩ := (get?_eq_some_iff hs hw).1 hget
    simp only [Step.submits, hsubmits, removal_eq]
    exact hs.drop (keysOf_removal _) (List.forall_mem_singleton.2 he)
  | swept hnamed hindex =>
    obtain ⟨es, hread, hes, -⟩ := swept_entries hs
    obtain rfl := Except.ok.inj (hread.symm.trans hindex)
    rw [expiry_eq]
    exact hs.drop (keysOf_expiry es) hes

/-- The payloads that a host submits are short enough to be stored. -/
def SubmitsFit (calls : List (UInt64 × Call)) : Prop :=
  ∀ now signer payload, (now, Call.submit signer payload) ∈ calls → Fits payload

theorem SubmitsFit.head {now : UInt64} {call : Call} {rest : List (UInt64 × Call)}
    (h : SubmitsFit ((now, call) :: rest)) :
    ∀ signer payload, call = .submit signer payload → Fits payload := by
  rintro signer payload rfl
  exact h now signer payload List.mem_cons_self

theorem SubmitsFit.tail {c : UInt64 × Call} {rest : List (UInt64 × Call)}
    (h : SubmitsFit (c :: rest)) : SubmitsFit rest :=
  fun now signer payload hmem => h now signer payload (List.mem_cons_of_mem _ hmem)

theorem Step.coherent {r : Router} {w : World} {call : Call} {n : Nat}
    (hs : Coherent w.disk.store n) (hw : w.disk.Readable)
    (hfits : ∀ signer payload, call = .submit signer payload → Fits payload) :
    (Step.of r call w).after.disk.Readable ∧
      Coherent (Step.of r call w).after.disk.store (n + (Step.of r call w).submits.length) := by
  obtain ⟨u, batch, reports, heffect, hu, hwrote⟩ :=
    Step.affects (actionsKeep_anything r) (forwardersKeep_anything r) hw call
  refine ⟨Step.readable hw call, ?_⟩
  refine (heffect.coherent hs hw hfits).congr fun key hkey => ?_
  rw [hwrote.store]
  exact Store.get?_applyAll_congr (hu.disk.get? key hkey) batch

/-- A session keeps the disk readable and what is recorded coherent. -/
theorem coherent_final {r : Router} {calls : List (UInt64 × Call)} (hfits : SubmitsFit calls)
    {w : World} {n : Nat} (hs : Coherent w.disk.store n) (hw : w.disk.Readable) :
    (final r w calls).disk.Readable ∧ Coherent (final r w calls).disk.store
      (n + ((session r w calls).flatMap Step.submits).length) := by
  induction calls generalizing w n with
  | nil => exact ⟨hw, hs⟩
  | cons c rest ih =>
    obtain ⟨now, call⟩ := c
    obtain ⟨hw', hs'⟩ := Step.coherent (w := { w with clock := now }) hs hw hfits.head
    have hrest := ih hfits.tail hs' hw'
    rw [Nat.add_assoc, ← List.length_append] at hrest
    exact hrest

/-! ## What a host sees -/

/-- What a host reads of the recorded payloads after `n` successful submissions. -/
structure World.Recorded (w : World) (n : Nat) : Prop where
  /-- What stands under the key of a hash is a well-formed entry with that hash, recorded before the
  counter got to where it is. -/
  entries : ∀ h, w.disk.store.contains (Key.pending h).bytes = true →
    ∃ e, Pending.get? h w = .ok (some e) w ∧ e.hash = h ∧ e.payload.check = .ok () ∧
      e.sequence.toNat < n
  /-- The index has a time and a hash exactly when an entry of that time is recorded under it. -/
  index : ∀ t h, w.disk.store.contains (Key.pendingByTime t h).bytes = true ↔
    ∃ e, Pending.get? h w = .ok (some e) w ∧ e.timestamp = t
  indexKeys : ∀ key, w.disk.store.contains key = true → key.head? = some 0x32 →
    ∃ t h, Key.readTimeKey key = .ok (t, h) ∧ key = (Key.pendingByTime t h).bytes
  sequences : ∀ g h d e, Pending.get? g w = .ok (some d) w → Pending.get? h w = .ok (some e) w →
    d.sequence = e.sequence → g = h
  counter : ∃ next, Pending.nextSequence w = .ok next w ∧ next.toNat = n

theorem Coherent.recorded {w : World} {n : Nat} (hs : Coherent w.disk.store n)
    (hw : w.disk.Readable) : w.Recorded n where
  entries h hc := by
    obtain ⟨e, he, rfl⟩ := (contains_pending_iff hs).1 hc
    exact ⟨e, (get?_eq_some_iff hs hw).2 ⟨he, rfl⟩, rfl, he.check, hs.early he⟩
  index t h := by
    rw [hs.indexed rfl]
    simp only [get?_eq_some_iff hs hw]
    constructor
    · rintro ⟨e, he, hkey⟩
      obtain ⟨rfl, rfl⟩ := Key.pendingByTime_inj hkey
      exact ⟨e, ⟨he, rfl⟩, rfl⟩
    · rintro ⟨e, ⟨he, rfl⟩, rfl⟩
      exact ⟨e, he, rfl⟩
  indexKeys key hc hhead := by
    obtain ⟨e, -, rfl⟩ := (hs.indexed hhead).1 hc
    exact ⟨e.timestamp, e.hash, Key.readTimeKey_bytes _ _, rfl⟩
  sequences g h d e hd he hsequence := by
    obtain ⟨hd', rfl⟩ := (get?_eq_some_iff hs hw).1 hd
    obtain ⟨he', rfl⟩ := (get?_eq_some_iff hs hw).1 he
    rw [hs.distinct hd' he' hsequence]
  counter := ⟨UInt64.ofNat n, nextSequence_run hs hw, UInt64.toNat_ofNat_of_lt' hs.bound⟩

/-- After any session from a store without recorded payloads, entries, time index and counter fit
together, and the counter is the number of submissions that succeeded. -/
theorem recorded_of_session (r : Router) (w : World) (calls : List (UInt64 × Call))
    (hw : w.disk.Readable) (hempty : ∀ key, Key.IsRecord key → w.disk.store.get? key = none)
    (hfits : SubmitsFit calls) :
    (final r w calls).Recorded ((session r w calls).flatMap Step.submits).length := by
  obtain ⟨hw', hs'⟩ := coherent_final hfits (Coherent.empty hempty) hw
  rw [Nat.zero_add] at hs'
  exact hs'.recorded hw'

theorem Testbed.fits_payload : Fits Testbed.payload := by
  have hnone : Fits ([] : Bytes) := (by decide : 0 < 2 ^ 64)
  have haddress : Fits (List.replicate 32 7 : Bytes) := (by decide : 32 < 2 ^ 64)
  exact ⟨⟨by decide, nofun⟩, trivial, ⟨trivial, haddress, hnone⟩, hnone⟩

/-- Two submissions in the testbed, of which a sweep may drop the first. -/
def Testbed.trial : List (UInt64 × Call) :=
  [(10, .submit "alice" payload), (20, .submit "bob" payload), (30, .sweep 15)]

theorem Testbed.submitsFit_trial : SubmitsFit Testbed.trial := by
  intro now signer p h
  simp only [trial, List.mem_cons, Prod.mk.injEq, Call.submit.injEq, reduceCtorEq, and_false,
    List.not_mem_nil, or_false] at h
  rcases h with ⟨-, -, rfl⟩ | ⟨-, -, rfl⟩ <;> exact fits_payload

theorem Testbed.recorded_of_trial :
    (final router world trial).Recorded
      ((session router world trial).flatMap Step.submits).length :=
  recorded_of_session router world trial reliable_world.readable (fun key _ => get?_world key)
    submitsFit_trial

end TransferRouter
