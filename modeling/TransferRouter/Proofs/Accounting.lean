import Mathlib.Algebra.BigOperators.Finprod
import Mathlib.Data.Set.List
import TransferRouter.Proofs.Coherence

/-!
Every recorded payload is accounted for. For each hash, the reports of its submission, less those of
its removal and of its expiry, are one while an entry is recorded under it and none otherwise; and
what was recorded under it was taken by exactly one successful call or sweep, or is still there.
-/

namespace TransferRouter

open Codec Disk

/-! ## Counting reports -/

namespace Event

/-- The payload that a report says was recorded. -/
def submitted? : Event → Option PayloadHash
  | pendingPayloadSubmitted h _ => some h
  | _ => none

def removed? : Event → Option PayloadHash
  | pendingPayloadRemoved h => some h
  | _ => none

def expired? : Event → Option PayloadHash
  | pendingPayloadExpired h => some h
  | _ => none

/-- What reports say about a hash: submissions less removals and expiries. -/
def balance (events : List Event) (h : PayloadHash) : ℤ :=
  (events.filterMap submitted?).count h - (events.filterMap removed?).count h -
    (events.filterMap expired?).count h

theorem balance_append (events events' : List Event) (h : PayloadHash) :
    balance (events ++ events') h = balance events h + balance events' h := by
  simp only [balance, List.filterMap_append, List.count_append, Nat.cast_add]
  ring

theorem balance_filter (events : List Event) (h : PayloadHash) :
    balance (events.filter isPending) h = balance events h := by
  induction events with
  | nil => rfl
  | cons event events ih =>
    have hcons := balance_append [event] events h
    cases hp : event.isPending with
    | true =>
      rw [List.filter_cons_of_pos hp]
      have := balance_append [event] (events.filter isPending) h
      rw [List.singleton_append] at this hcons
      rw [this, hcons, ih]
    | false =>
      rw [List.filter_cons_of_neg (by simp [hp]), ih, ← List.singleton_append, hcons]
      have : balance [event] h = 0 := by
        cases event <;> first | rfl | exact absurd hp nofun
      rw [this, zero_add]

theorem balance_submitted (g h : PayloadHash) (sequence : UInt64) :
    balance [.pendingPayloadSubmitted g sequence] h = [g].count h := by
  change (([g].count h : ℕ) : ℤ) - (0 : ℕ) - (0 : ℕ) = _
  ring

theorem balance_removed (g h : PayloadHash) :
    balance [.pendingPayloadRemoved g] h = -([g].count h : ℤ) := by
  change ((0 : ℕ) : ℤ) - ([g].count h : ℕ) - (0 : ℕ) = _
  ring

theorem balance_expired (hs : List PayloadHash) (h : PayloadHash) :
    balance (hs.map .pendingPayloadExpired) h = -(hs.count h : ℤ) := by
  induction hs with
  | nil => rfl
  | cons g hs ih =>
    have hone : balance [.pendingPayloadExpired g] h = -([g].count h : ℤ) := by
      change ((0 : ℕ) : ℤ) - (0 : ℕ) - ([g].count h : ℕ) = _
      ring
    have hcons := balance_append [.pendingPayloadExpired g] (hs.map .pendingPayloadExpired) h
    have hcount : (g :: hs).count h = [g].count h + hs.count h := by
      rw [← List.count_append, List.singleton_append]
    rw [List.singleton_append] at hcons
    rw [List.map_cons, hcons, ih, hone, hcount]
    push_cast
    ring

end Event

/-! ## What is recorded under a hash -/

/-- One when an entry is recorded under a hash, and none otherwise. -/
def occupancy (s : Store) (h : PayloadHash) : ℕ := (s.contains (Key.pending h).bytes).toNat

section

variable {s : Store} {n : Nat} {h : PayloadHash}

theorem occupancy_of_true (hc : s.contains (Key.pending h).bytes = true) : occupancy s h = 1 := by
  rw [occupancy, hc, Bool.toNat_true]

theorem occupancy_of_false (hc : s.contains (Key.pending h).bytes = false) : occupancy s h = 0 := by
  rw [occupancy, hc, Bool.toNat_false]

theorem occupancy_recording (hs : Coherent s n) {e : PendingEntry} {next : UInt64}
    (hfits : Fits e) (hcheck : e.payload.check = .ok ()) (hsequence : e.sequence.toNat = n)
    (hnext : next.toNat = n + 1) (hfree : s.contains e.key = false) :
    occupancy (s.applyAll (Pending.recording e next)) h = occupancy s h + [e.hash].count h := by
  have hrecord := hs.record hfits hcheck hsequence hnext hfree
  have hstored : ∀ {f}, Stored (s.applyAll (Pending.recording e next)) f ↔ f = e ∨ Stored s f :=
    Coherent.stored_recording hfits hcheck hfree
  by_cases hh : e.hash = h
  · subst hh
    have hafter : (s.applyAll (Pending.recording e next)).contains (Key.pending e.hash).bytes =
        true := (contains_pending_iff hrecord).2 ⟨e, hstored.2 (.inl rfl), rfl⟩
    rw [occupancy_of_true hafter, occupancy_of_false hfree, List.count_singleton_self]
  · have hsame : (s.applyAll (Pending.recording e next)).contains (Key.pending h).bytes =
        s.contains (Key.pending h).bytes := by
      rw [Bool.eq_iff_iff, contains_pending_iff hrecord, contains_pending_iff hs]
      constructor
      · rintro ⟨f, hf, rfl⟩
        rcases hstored.1 hf with rfl | hf
        · exact absurd rfl hh
        · exact ⟨f, hf, rfl⟩
      · rintro ⟨f, hf, rfl⟩
        exact ⟨f, hstored.2 (.inr hf), rfl⟩
    have hcount : [e.hash].count h = 0 :=
      List.count_eq_zero_of_not_mem fun hin => hh (List.mem_singleton.1 hin).symm
    rw [occupancy, hsame, hcount, occupancy, Nat.add_zero]

theorem occupancy_drop (hs : Coherent s n) {es : List PendingEntry} {keys : List Bytes}
    (hkeys : Coherent.KeysOf es keys) (hes : ∀ e ∈ es, Stored s e)
    (hnodup : (es.map (·.hash)).Nodup) :
    occupancy (s.applyAll (keys.map .delete)) h + (es.map (·.hash)).count h = occupancy s h := by
  have hdrop := hs.drop hkeys hes
  by_cases hmem : h ∈ es.map (·.hash)
  · obtain ⟨e, he, rfl⟩ := List.mem_map.1 hmem
    have hbefore : s.contains (Key.pending e.hash).bytes = true :=
      (contains_pending_iff hs).2 ⟨e, hes e he, rfl⟩
    have hafter : (s.applyAll (keys.map .delete)).contains (Key.pending e.hash).bytes = false := by
      rw [Bool.eq_false_iff]
      intro hc
      obtain ⟨f, hf, hhash⟩ := (contains_pending_iff hdrop).1 hc
      obtain ⟨hf', hnot⟩ := (Coherent.stored_drop hkeys hes).1 hf
      exact hnot ((hf'.eq_of_hash (hes e he) hhash) ▸ he)
    rw [occupancy_of_true hbefore, occupancy_of_false hafter,
      List.count_eq_one_of_mem hnodup hmem]
  · have hsame : (s.applyAll (keys.map .delete)).contains (Key.pending h).bytes =
        s.contains (Key.pending h).bytes := by
      rw [Bool.eq_iff_iff, contains_pending_iff hdrop, contains_pending_iff hs]
      constructor
      · rintro ⟨f, hf, rfl⟩
        exact ⟨f, ((Coherent.stored_drop hkeys hes).1 hf).1, rfl⟩
      · rintro ⟨f, hf, rfl⟩
        have hnot : f ∉ es := fun hin => hmem (List.mem_map_of_mem hin)
        exact ⟨f, (Coherent.stored_drop hkeys hes).2 ⟨hf, hnot⟩, rfl⟩
    rw [occupancy, hsame, List.count_eq_zero_of_not_mem hmem, occupancy, Nat.add_zero]

end

/-! ## Steps -/

section

variable {r : Router} {w : World} {call : Call} {n : Nat} {outcome : Except RouterError Answer}
  {batch : List Write} {reports : List Event}

/-- What the effect of a call does to the account of one hash. -/
theorem Effect.account (h : Effect r w call outcome batch reports) (hs : Coherent w.disk.store n)
    (hw : w.disk.Readable) (hfits : ∀ signer payload, call = .submit signer payload → Fits payload)
    (g : PayloadHash) :
    Event.balance reports g =
        occupancy (w.disk.store.applyAll batch) g - occupancy w.disk.store g ∧
      (Step.submits ⟨call, w, outcome, w⟩).count g + occupancy w.disk.store g =
        (Step.consumes r ⟨call, w, outcome, w⟩).count g +
          (Step.sweeps ⟨call, w, outcome, w⟩).count g +
            occupancy (w.disk.store.applyAll batch) g := by
  cases h with
  | failed e => exact ⟨(sub_self _).symm, rfl⟩
  | idle hnamed hsubmits hsweeps =>
    refine ⟨(sub_self _).symm, ?_⟩
    simp only [Step.submits, Step.consumes, Step.sweeps, hsubmits, hnamed, hsweeps]
    rfl
  | @recorded signer e next hcall htime hcheck hsequence hnext hfree =>
    have hcount := toNat_of_nextSequence hs hw hsequence
    have hfits : Fits e := ⟨trivial, hfits signer e.payload hcall, trivial⟩
    have hafter := occupancy_recording (h := g) hs hfits hcheck hcount
      (hcount ▸ toNat_successor hnext) hfree
    subst hcall
    refine ⟨?_, ?_⟩
    · rw [hafter, Event.balance_submitted]
      push_cast
      ring
    · change [e.hash].count g + _ = 0 + 0 + _
      omega
  | @taken g' e a hnamed hsubmits hsweeps hget =>
    obtain ⟨he, rfl⟩ := (get?_eq_some_iff hs hw).1 hget
    have hafter := occupancy_drop (h := g) hs (keysOf_removal e) (List.forall_mem_singleton.2 he)
      (List.nodup_singleton _)
    rw [removal_eq]
    change _ + [e.hash].count g = _ at hafter
    refine ⟨?_, ?_⟩
    · rw [Event.balance_removed, ← hafter]
      push_cast
      ring
    · simp only [Step.submits, Step.consumes, Step.sweeps, hsubmits, hnamed, hsweeps,
        Option.toList_some, List.count_nil]
      omega
  | swept hnamed hindex =>
    obtain ⟨es, hread, hes, hnodup⟩ := swept_entries hs
    obtain rfl := Except.ok.inj (hread.symm.trans hindex)
    have hafter := occupancy_drop (h := g) hs (keysOf_expiry es) hes hnodup
    rw [expiry_eq]
    have hreports : ((es.map fun e => (e.timeKey, e.hash)).map fun p =>
        Event.pendingPayloadExpired p.2) = (es.map (·.hash)).map .pendingPayloadExpired := by
      rw [List.map_map, List.map_map]
      rfl
    refine ⟨?_, ?_⟩
    · rw [hreports, Event.balance_expired, ← hafter]
      push_cast
      ring
    · have hsweeps : ((es.map fun e => (e.timeKey, e.hash)).map (·.2)) = es.map (·.hash) := by
        rw [List.map_map]
        rfl
      simp only [Step.submits, Step.consumes, Step.sweeps, Answer.submits, Answer.sweeps, hnamed,
        hsweeps, Option.toList_none, List.count_nil]
      omega

theorem Effect.consumed (h : Effect r w call outcome batch reports) (hs : Coherent w.disk.store n)
    (hw : w.disk.Readable) {g : PayloadHash} (hg : g ∈ Step.consumes r ⟨call, w, outcome, w⟩) :
    occupancy w.disk.store g = 1 ∧ occupancy (w.disk.store.applyAll batch) g = 0 := by
  cases h with
  | failed e => exact absurd hg List.not_mem_nil
  | idle hnamed hsubmits hsweeps =>
    simp only [Step.consumes, hnamed] at hg
    exact absurd hg List.not_mem_nil
  | recorded hcall htime hcheck hsequence hnext hfree =>
    subst hcall
    exact absurd hg List.not_mem_nil
  | @taken g' e a hnamed hsubmits hsweeps hget =>
    obtain ⟨he, rfl⟩ := (get?_eq_some_iff hs hw).1 hget
    simp only [Step.consumes, hnamed, Option.toList_some, List.mem_singleton] at hg
    subst hg
    have hbefore : occupancy w.disk.store e.hash = 1 :=
      occupancy_of_true ((contains_pending_iff hs).2 ⟨e, he, rfl⟩)
    have hafter := occupancy_drop (h := e.hash) hs (keysOf_removal e)
      (List.forall_mem_singleton.2 he) (List.nodup_singleton _)
    rw [hbefore, List.map_singleton, List.count_singleton_self, Nat.add_eq_right] at hafter
    exact ⟨hbefore, hafter⟩
  | swept hnamed hindex =>
    simp only [Step.consumes, hnamed] at hg
    exact absurd hg List.not_mem_nil

end

theorem occupancy_congr {s s' : Store} (h : ∀ key, Key.IsRecord key → s'.get? key = s.get? key)
    (g : PayloadHash) : occupancy s' g = occupancy s g := by
  rw [occupancy, OrderedMap.contains, h _ (Key.isRecord_bytes.2 (.inr (.inl rfl))), occupancy,
    OrderedMap.contains]

/-- What a step does to the account of one hash. -/
structure Step.Accounts (r : Router) (s : Step) (g : PayloadHash) : Prop where
  reports : Event.balance s.after.books.events g - Event.balance s.before.books.events g =
    occupancy s.after.disk.store g - occupancy s.before.disk.store g
  passages : s.submits.count g + occupancy s.before.disk.store g =
    (s.consumes r).count g + s.sweeps.count g + occupancy s.after.disk.store g
  consumed : g ∈ s.consumes r → occupancy s.before.disk.store g = 1 ∧
    occupancy s.after.disk.store g = 0

theorem Step.accounts {r : Router} (hr : r.Discreet) {w : World} {call : Call} {n : Nat}
    (hs : Coherent w.disk.store n) (hw : w.disk.Readable)
    (hfits : ∀ signer payload, call = .submit signer payload → Fits payload) (g : PayloadHash) :
    (Step.of r call w).Accounts r g := by
  obtain ⟨u, batch, reports, heffect, hu, hwrote⟩ := Step.affects hr.actions hr.forwarders hw call
  have hstore : ∀ key, Key.IsRecord key → (Step.of r call w).after.disk.store.get? key =
      (w.disk.store.applyAll batch).get? key := by
    intro key hkey
    rw [hwrote.store]
    exact Store.get?_applyAll_congr (hu.disk.get? key hkey) batch
  have hafter := occupancy_congr hstore g
  have hevents : Event.balance (Step.of r call w).after.books.events g =
      Event.balance w.books.events g + Event.balance reports g := by
    rw [hwrote.books, Event.balance_append, ← Event.balance_filter u.books.events, hu.books,
      Event.balance_filter]
  obtain ⟨hreports, hpassages⟩ := heffect.account hs hw hfits g
  rw [Step.of_eq]
  refine ⟨?_, ?_, fun hg => ?_⟩
  · change Event.balance (Step.of r call w).after.books.events g - _ =
      (occupancy (Step.of r call w).after.disk.store g : ℤ) - _
    rw [hevents, hafter, add_sub_cancel_left, hreports]
  · change _ = _ + occupancy (Step.of r call w).after.disk.store g
    rw [hafter]
    exact hpassages
  · change _ ∧ occupancy (Step.of r call w).after.disk.store g = 0
    rw [hafter]
    exact heffect.consumed hs hw hg

/-! ## Sessions -/

theorem accounts_of_session {r : Router} (hr : r.Discreet) {calls : List (UInt64 × Call)}
    (hfits : SubmitsFit calls) {w : World} {n : Nat} (hs : Coherent w.disk.store n)
    (hw : w.disk.Readable) (g : PayloadHash) :
    (∀ s ∈ session r w calls, s.Accounts r g) ∧
      Event.balance (final r w calls).books.events g - Event.balance w.books.events g =
        occupancy (final r w calls).disk.store g - occupancy w.disk.store g ∧
      ((session r w calls).flatMap Step.submits).count g + occupancy w.disk.store g =
        ((session r w calls).flatMap (Step.consumes r)).count g +
          ((session r w calls).flatMap Step.sweeps).count g +
            occupancy (final r w calls).disk.store g := by
  induction calls generalizing w n with
  | nil =>
    exact ⟨fun _ h => absurd h List.not_mem_nil, (sub_self _).trans (sub_self _).symm, rfl⟩
  | cons c rest ih =>
    obtain ⟨now, call⟩ := c
    have hstep := Step.accounts hr (w := { w with clock := now }) hs hw hfits.head g
    obtain ⟨hw', hs'⟩ := Step.coherent (r := r) (w := { w with clock := now }) hs hw hfits.head
    obtain ⟨hall, hevents, hpassages⟩ := ih hfits.tail hs' hw'
    refine ⟨List.forall_mem_cons.2 ⟨hstep, hall⟩, ?_, ?_⟩
    · have hreports := hstep.reports
      rw [Step.before_of] at hreports
      simp only [final]
      change _ - Event.balance w.books.events g = _ - (occupancy w.disk.store g : ℤ) at hreports
      omega
    · have hpassed := hstep.passages
      rw [Step.before_of] at hpassed
      simp only [session, final, List.flatMap_cons, List.count_append]
      change _ + occupancy w.disk.store g = _ at hpassed
      omega

/-! ## The number of recorded payloads -/

/-- The hashes that entries are recorded under, each once. -/
theorem count_run {w : World} {n : Nat} (hs : Coherent w.disk.store n) (hw : w.disk.Readable) :
    ∃ hashes : List PayloadHash, hashes.Nodup ∧
      (∀ h, h ∈ hashes ↔ w.disk.store.contains (Key.pending h).bytes = true) ∧
      Pending.count w = .ok hashes.length w := by
  have hmem : ∀ key, key ∈ (w.disk.store.extensions Key.pendingEntries).map (·.1) ↔
      key.head? = some 0x31 ∧ w.disk.store.contains key = true :=
    fun _ => Store.mem_extensions.trans (and_congr_left' Bytes.isPrefixOf_singleton)
  have hnamed : ∀ key ∈ (w.disk.store.extensions Key.pendingEntries).map (·.1),
      key ∈ Set.range fun h => (Key.pending h).bytes := by
    intro key hkey
    obtain ⟨hhead, hcontains⟩ := (hmem key).1 hkey
    obtain ⟨e, -, rfl⟩ := hs.entry hcontains hhead
    exact ⟨e.hash, rfl⟩
  obtain ⟨hashes, hhashes⟩ := (Set.range_list_map _).ge hnamed
  refine ⟨hashes, ?_, fun h => ?_, ?_⟩
  · have hnodup := w.disk.store.nodup_extensions Key.pendingEntries
    rw [← hhashes] at hnodup
    exact hnodup.of_map _
  · have hkey := hmem (Key.pending h).bytes
    rw [← hhashes, List.mem_map] at hkey
    constructor
    · exact fun hh => (hkey.1 ⟨h, hh, rfl⟩).2
    · intro hc
      obtain ⟨g, hg, hgh⟩ := hkey.2 ⟨rfl, hc⟩
      exact Key.pending_inj hgh ▸ hg
  · have hlength := congrArg List.length hhashes
    rw [List.length_map, List.length_map] at hlength
    rw [Pending.count, bind_of_ok (onDisk_run (Disk.extensions_run hw _)), hlength]
    rfl

theorem finsum_occupancy {s : Store} {hashes : List PayloadHash} (hnodup : hashes.Nodup)
    (hmem : ∀ h, h ∈ hashes ↔ s.contains (Key.pending h).bytes = true) :
    ∑ᶠ h, (occupancy s h : ℤ) = hashes.length := by
  have hone : ∀ h ∈ hashes.toFinset, (occupancy s h : ℤ) = 1 := by
    intro h hh
    rw [occupancy_of_true ((hmem h).1 (List.mem_toFinset.1 hh)), Nat.cast_one]
  have hsupport : Function.support (fun h => (occupancy s h : ℤ)) ⊆ hashes.toFinset := by
    intro h hh
    by_contra hnot
    have hfalse : s.contains (Key.pending h).bytes = false := by
      rw [Bool.eq_false_iff]
      exact fun hc => hnot (List.mem_toFinset.2 ((hmem h).2 hc))
    exact hh (by simp only [occupancy_of_false hfalse, Nat.cast_zero])
  rw [finsum_eq_sum_of_support_subset _ hsupport, Finset.sum_congr rfl hone, Finset.sum_const,
    List.toFinset_card_of_nodup hnodup, nsmul_one]

/-! ## Naming what is not recorded -/

/-- A call that gets as far as to look up the payload that it names. -/
def Call.Reaches (r : Router) (h : PayloadHash) : Call → Prop
  | complete g | remove g => g = h
  | removePending signer g => signer = r.authority ∧ g = h
  | accept source raw | deliver source raw _ =>
    source.check = .ok () ∧ r.named source raw = some h
  | _ => False

/-- Naming what is not recorded fails and changes nothing. -/
theorem perform_of_absent {r : Router} {w : World} {h : PayloadHash} (hw : w.disk.Readable)
    (habsent : w.disk.store.contains (Key.pending h).bytes = false) {call : Call}
    (hcall : call.Reaches r h) :
    call.perform r w = .error (.notFound (.pendingPayload h)) w := by
  have hnone := OrderedMap.contains_eq_false_iff.1 habsent
  have htake : Pending.take h w = .error (.notFound (.pendingPayload h)) w :=
    Pending.take_of_absent hw hnone
  have hpassage : ∀ {source raw} {carry : RoutedPacket → RouterM Transfer},
      source.check = .ok () → r.named source raw = some h →
        r.passage source raw carry w = .error (.notFound (.pendingPayload h)) w := by
    intro source raw carry hsource hnamed
    rw [Router.passage, bind_of_error (Router.resolve_of_absent hw hsource hnamed hnone)]
  cases call with
  | complete g =>
    obtain rfl : g = h := hcall
    rw [Call.perform, bind_of_error htake]
  | remove g =>
    obtain rfl : g = h := hcall
    rw [Call.perform, bind_of_error htake]
  | removePending signer g =>
    obtain ⟨rfl, rfl⟩ := hcall
    have hremove : r.removePending r.authority g w = .error (.notFound (.pendingPayload g)) w := by
      rw [Router.removePending, Router.authorized_of_eq rfl, bind_of_error htake]
    rw [Call.perform, bind_of_error hremove]
  | accept source raw =>
    rw [Call.perform, Router.accept_eq, bind_of_error (hpassage hcall.1 hcall.2)]
  | deliver source raw receive =>
    rw [Call.perform, Router.deliver_eq, bind_of_error (hpassage hcall.1 hcall.2)]
  | submit | sweep | endBlock | setAction | setTraffic | updateParams | importState =>
    exact hcall.elim

/-! ## The account of a session -/

/-- The account of recorded payloads over a session. -/
structure Accounted (r : Router) (w : World) (calls : List (UInt64 × Call)) : Prop where
  /-- The reports of the session tell for each hash whether an entry is recorded under it. -/
  reports : ∀ h, Event.balance (final r w calls).books.events h - Event.balance w.books.events h =
    if (final r w calls).disk.store.contains (Key.pending h).bytes = true then 1 else 0
  /-- Over all hashes they tell how many entries are recorded. -/
  total : ∃ n : ℕ, Pending.count (final r w calls) = .ok n (final r w calls) ∧
    ∑ᶠ h, (Event.balance (final r w calls).books.events h - Event.balance w.books.events h) = n
  /-- A successful call takes the entry that it names. -/
  consumed : ∀ s ∈ session r w calls, ∀ h ∈ s.consumes r,
    s.before.disk.store.contains (Key.pending h).bytes = true ∧
      s.after.disk.store.contains (Key.pending h).bytes = false
  /-- No entry is taken twice. -/
  bounded : ∀ h, ((session r w calls).flatMap (Step.consumes r)).count h +
    ((session r w calls).flatMap Step.sweeps).count h ≤
      ((session r w calls).flatMap Step.submits).count h
  /-- At no time afterwards can an entry be taken that is not recorded. -/
  absent : ∀ now h, (final r w calls).disk.store.contains (Key.pending h).bytes = false →
    ∀ call : Call, call.Reaches r h →
      call.perform r { final r w calls with clock := now } =
        .error (.notFound (.pendingPayload h)) { final r w calls with clock := now }

theorem occupancy_eq_one_iff {s : Store} {h : PayloadHash} :
    occupancy s h = 1 ↔ s.contains (Key.pending h).bytes = true := by
  rw [occupancy]
  cases s.contains (Key.pending h).bytes <;> simp

theorem occupancy_eq_zero_iff {s : Store} {h : PayloadHash} :
    occupancy s h = 0 ↔ s.contains (Key.pending h).bytes = false := by
  rw [occupancy]
  cases s.contains (Key.pending h).bytes <;> simp

/-- Every recorded payload is accounted for after any session that starts without any. -/
theorem accounted_of_session (r : Router) (w : World) (calls : List (UInt64 × Call))
    (hr : r.Discreet) (hw : w.disk.Readable)
    (hempty : ∀ key, Key.IsRecord key → w.disk.store.get? key = none) (hfits : SubmitsFit calls) :
    Accounted r w calls := by
  have hstart : Coherent w.disk.store 0 := .empty hempty
  obtain ⟨hw', hs'⟩ := coherent_final (r := r) hfits hstart hw
  have hzero : ∀ h, occupancy w.disk.store h = 0 := by
    intro h
    rw [occupancy_eq_zero_iff, OrderedMap.contains_eq_false_iff]
    exact hempty _ (Key.isRecord_bytes.2 (.inr (.inl rfl)))
  have hevents : ∀ h, Event.balance (final r w calls).books.events h -
      Event.balance w.books.events h = occupancy (final r w calls).disk.store h := by
    intro h
    rw [(accounts_of_session hr hfits hstart hw h).2.1, hzero, Nat.cast_zero, sub_zero]
  refine ⟨fun h => ?_, ?_, fun s hsteps h hh => ?_, fun h => ?_, fun now h habsent call hcall => ?_⟩
  · rw [hevents, occupancy]
    cases (final r w calls).disk.store.contains (Key.pending h).bytes <;> rfl
  · obtain ⟨hashes, hnodup, hmem, hcount⟩ := count_run hs' hw'
    exact ⟨hashes.length, hcount, by rw [finsum_congr hevents, finsum_occupancy hnodup hmem]⟩
  · have := ((accounts_of_session hr hfits hstart hw h).1 s hsteps).consumed hh
    exact ⟨occupancy_eq_one_iff.1 this.1, occupancy_eq_zero_iff.1 this.2⟩
  · have hpassages := (accounts_of_session hr hfits hstart hw h).2.2
    have h0 := hzero h
    omega
  · exact perform_of_absent (w := { final r w calls with clock := now }) hw' habsent hcall

theorem Testbed.accounted_of_trial : Accounted router world trial :=
  accounted_of_session router world trial wired_router.faithful.discreet reliable_world.readable
    (fun key _ => get?_world key) submitsFit_trial

end TransferRouter
