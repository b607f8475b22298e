import TransferRouter.Builder
import TransferRouter.Proofs.Breaker
import TransferRouter.Proofs.Invariant
import TransferRouter.Proofs.Store.Legible

/-!
Everything that writes to the store leaves it orderly, and nothing that reads from an orderly store
fails for what it finds there. Both are said at once of each part of the router, in the order in
which it works: a reader is shown to find only what a writer leaves, so that the failures of the
store are out of the question, whatever the part does with what it reads.
-/

namespace TransferRouter

open Codec LawfulCodec
open RouterError (Blameless)

variable {founded : Prop} {α : Type}

/-! ## The disk -/

namespace Disk

/-- A question that is answered and changes nothing. -/
theorem upholds_of_run {act : DiskM α} {Q : α → Prop}
    (h : ∀ d, Sound founded d → ∃ a, act d = .ok a d ∧ Q a) :
    Upholds (Sound founded) (fun _ => False) act Q := by
  intro d hd
  obtain ⟨a, hrun, ha⟩ := h d hd
  rw [hrun]
  exact ⟨hd, ha⟩

theorem upholds_get? (key : Key) : Upholds (Sound founded) (fun _ => False) (get? key.bytes)
    fun found => ∀ value ∈ found, ∃ k : Key, k.family = key.family ∧ k.MayHold value := by
  refine upholds_of_run fun d hd => ⟨_, get?_run hd.reliable.readable _, fun value hvalue => ?_⟩
  obtain ⟨k, hfamily, -, hk⟩ := hd.orderly.family (Key.head?_bytes key) hvalue
  exact ⟨k, hfamily, hk⟩

theorem upholds_contains (key : Bytes) :
    Upholds (Sound founded) (fun _ => False) (contains key) fun _ => True :=
  upholds_of_run fun _ hd => ⟨_, contains_run hd.reliable.readable key, trivial⟩

theorem upholds_extensions (start : Bytes) :
    Upholds (Sound founded) (fun _ => False) (extensions start) fun entries =>
      ∀ e ∈ entries, start.isPrefixOf e.1 = true ∧ ∃ k : Key, k.bytes = e.1 ∧ k.MayHold e.2 := by
  refine upholds_of_run fun d hd => ⟨_, extensions_run hd.reliable.readable start, fun e he => ?_⟩
  rw [Store.extensions_eq] at he
  obtain ⟨hmem, hstart⟩ := List.mem_filter.1 he
  exact ⟨hstart, hd.orderly e.1 e.2 (OrderedMap.get?_eq_some_iff.2 hmem)⟩

theorem upholds_range (cutoff : UInt64) (limit : Nat) :
    Upholds (Sound founded) (fun _ => False) (range Key.timeIndex (Key.timeBound cutoff) limit)
      fun entries => ∀ e ∈ entries, ∃ timestamp hash, (Key.pendingByTime timestamp hash).bytes =
        e.1 := by
  refine upholds_of_run fun d hd => ⟨_, range_run hd.reliable.readable _ _ _, fun e he => ?_⟩
  rw [Store.range_eq] at he
  obtain ⟨hmem, hbetween⟩ := List.mem_filter.1 (List.mem_of_mem_take he)
  obtain ⟨hstop, hstart⟩ := (Bool.and_eq_true _ _).mp hbetween
  obtain ⟨k, hfamily, hkey, -⟩ := hd.orderly.family
    (Key.head?_of_between hstop ((Bool.not_eq_true' _).mp hstart))
    (OrderedMap.get?_eq_some_iff.2 hmem)
  cases k <;> try (simp [Key.family] at hfamily; done)
  exact ⟨_, _, hkey⟩

theorem upholds_write {batch : List Write} (h : ∀ w ∈ batch, w.Sound) :
    Upholds (Sound founded) (fun _ => False) (write batch) fun _ => True := by
  intro d hd
  rw [write_run (hd.reliable .batch)]
  exact ⟨⟨hd.reliable, hd.orderly.applyAll h,
    fun hf => Store.contains_params_applyAll h (hd.founded hf)⟩, trivial⟩

theorem upholds_put {key value : Bytes} (h : (Write.put key value).Sound) :
    Upholds (Sound founded) (fun _ => False) (put key value) fun _ => True := by
  intro d hd
  rw [put_run (hd.reliable .put)]
  exact ⟨⟨hd.reliable, hd.orderly.apply h, fun hf =>
    Store.contains_params_applyAll (List.forall_mem_singleton.2 h) (hd.founded hf)⟩, trivial⟩

theorem upholds_delete {key : Bytes} (h : (Write.delete key).Sound) :
    Upholds (Sound founded) (fun _ => False) (delete key) fun _ => True := by
  intro d hd
  rw [delete_run (hd.reliable .delete)]
  exact ⟨⟨hd.reliable, hd.orderly.apply h, fun hf =>
    Store.contains_params_applyAll (List.forall_mem_singleton.2 h) (hd.founded hf)⟩, trivial⟩

end Disk

theorem Write.sound_delete {k : Key} (h : k ≠ .params) : (Write.delete k.bytes).Sound := by
  refine Key.bytes_ne_of_family (l := .params) ?_
  cases k with
  | params => exact absurd rfl h
  | _ => exact nofun

/-! ## The world -/

/-- A world with a sound disk. -/
abbrev World.Sound (founded : Prop) (w : World) : Prop := w.disk.Sound founded

section

variable {E : RouterError → Prop} {Q : α → Prop}

theorem upholds_onDisk {act : DiskM α}
    (h : Upholds (Disk.Sound founded) (fun _ => False) act Q) :
    Upholds (World.Sound founded) E (RouterM.onDisk act) Q :=
  h.zoom (fun _ hw => hw) (fun _ _ _ hd => hd) fun _ he => he.elim

theorem upholds_onBooks {act : BooksM α} (h : Upholds (fun _ => True) E act Q) :
    Upholds (World.Sound founded) E (RouterM.onBooks act) Q :=
  h.zoom (fun _ _ => trivial) (fun _ _ hw _ => hw) fun _ he => he

theorem upholds_emit (event : Event) :
    Upholds (World.Sound founded) E (RouterM.emit event) fun _ => True :=
  upholds_onBooks (.modify fun _ _ => trivial)

theorem upholds_onLedger {act : LedgerM α} (h : Upholds (fun _ => True) E act Q) :
    Upholds (World.Sound founded) E (RouterM.onLedger act) Q :=
  upholds_onBooks (h.zoom (fun _ _ => trivial) (fun _ _ _ _ => trivial) fun _ he => he)

/-- A value is read when all that the family of its key may hold is decoded. -/
theorem upholds_read [Codec α] {key : Key} (h : ∀ (k : Key) (value : Bytes),
    k.family = key.family → k.MayHold value → ∃ a, decodeAt α key.bytes value = .ok a ∧ Q a) :
    Upholds (World.Sound founded) E (RouterM.read α key) fun found => ∀ a ∈ found, Q a := by
  refine (upholds_onDisk (Disk.upholds_get? key)).bind fun found hfound => ?_
  cases found with
  | none => exact .pure nofun
  | some value =>
    obtain ⟨k, hfamily, hk⟩ := hfound value rfl
    obtain ⟨a, ha, hQ⟩ := h k value hfamily hk
    refine Upholds.bind (Q := fun b => b = a) ?_ fun b hb => .pure fun c hc => ?_
    · rw [ha]
      exact .pure rfl
    · obtain rfl := Option.some.inj hc
      exact hb ▸ hQ

/-- A value that is there from the start when nothing was written. -/
theorem upholds_getD [Codec α] {key : Key} (default : α) (h : ∀ (k : Key) (value : Bytes),
    k.family = key.family → k.MayHold value → ∃ a, decodeAt α key.bytes value = .ok a) :
    Upholds (World.Sound founded) E (do return (← RouterM.read α key).getD default)
      fun _ => True := by
  have hread : Upholds (World.Sound founded) E (RouterM.read α key) fun found =>
      ∀ a ∈ found, True :=
    upholds_read fun k value hfamily hk => (h k value hfamily hk).imp fun _ ha => ⟨ha, trivial⟩
  exact hread.bind fun _ _ => .pure trivial

theorem upholds_isOpen (key : Key) :
    Upholds (World.Sound founded) E (Breaker.isOpen key) fun _ => True :=
  upholds_onDisk (Disk.upholds_contains _)

theorem upholds_readParams : Upholds (World.Sound founded) E (RouterM.read Params .params)
    fun found => ∀ p ∈ found, p.check = .ok () := by
  refine upholds_read fun k value hfamily hk => ?_
  cases k <;> try (simp [Key.family] at hfamily; done)
  obtain ⟨p, hcheck, rfl⟩ := hk
  exact ⟨p, decodeAt_encode trivial _, hcheck⟩

theorem upholds_loadParams :
    Upholds (World.Sound founded) E loadParams fun p => p.check = .ok () := by
  refine upholds_readParams.bind fun found hfound => .pure ?_
  cases found with
  | none => rfl
  | some p => exact hfound p rfl

end

/-! ## Breakers, parameters and imports -/

section

variable {E : RouterError → Prop}

namespace Breaker

theorem upholds_set {key : Key} (hkey : key.MayHold []) (hne : key ≠ .params)
    (paused : Bool) : Upholds (World.Sound founded) E (set key paused) fun _ => True := by
  refine upholds_onDisk ((Disk.upholds_contains _).bind fun present _ => ?_)
  match present, paused with
  | false, true => exact (Disk.upholds_put ⟨key, rfl, hkey⟩).bind fun _ _ => .pure trivial
  | true, false =>
    exact (Disk.upholds_delete (Write.sound_delete hne)).bind fun _ _ => .pure trivial
  | true, true => exact .pure trivial
  | false, false => exact .pure trivial

theorem upholds_setAction [Lenient E] (action : ActionId) (paused : Bool) :
    Upholds (World.Sound founded) E (setAction action paused) fun _ => True := by
  refine (Upholds.checked _).bind fun _ hcheck => ?_
  have hkey : (Key.pausedAction action).MayHold [] := ⟨hcheck, rfl⟩
  exact (upholds_set hkey nofun paused).bind fun _ _ =>
    .ite (fun _ => upholds_emit _) fun _ => .done

theorem upholds_setProtocol {protocol : ProtocolId} (h : protocol.check = .ok ())
    (paused : Bool) :
    Upholds (World.Sound founded) E (setProtocol protocol paused) fun _ => True := by
  have hkey : (Key.pausedProtocol protocol).MayHold [] := ⟨h, rfl⟩
  exact (upholds_set hkey nofun paused).bind fun _ _ =>
    .ite (fun _ => upholds_emit _) fun _ => .done

/-- The routes of a call may be routed and go to the counterparties that it names. -/
theorem mem_routesTo {protocol : ProtocolId} {counterparties : List String}
    {routes : List CrossChainId} (h : routesTo protocol [] counterparties = .ok routes) :
    ∀ route ∈ routes, route.check = .ok () ∧ route ∈ routesOf protocol counterparties := by
  by_cases hvalid : ∀ route ∈ routesOf protocol counterparties, route.check = .ok ()
  · rw [routesTo_of_valid hvalid] at h
    obtain rfl := Except.ok.inj h
    intro route hroute
    obtain ⟨hmem, -⟩ := List.mem_filter.1 (List.mem_eraseDups.1 hroute)
    exact ⟨hvalid route hmem, hmem⟩
  · obtain ⟨cause, hcause⟩ := routesTo_of_invalid hvalid []
    rw [hcause] at h
    exact absurd h nofun

theorem sound_routeWrite {route : CrossChainId} (h : Fits route) (paused : Bool) :
    (routeWrite paused route).Sound := by
  cases paused with
  | true => exact ⟨routeKey route, rfl, h, rfl⟩
  | false => exact Write.sound_delete (k := routeKey route) nofun

theorem upholds_setRoutes [Lenient E] {protocol : ProtocolId} {counterparties : List String}
    (hfits : ∀ counterparty ∈ counterparties, Fits counterparty) (paused : Bool) :
    Upholds (World.Sound founded) E (setRoutes protocol counterparties paused)
      fun _ => True := by
  refine (Upholds.checked _).bind fun routes hroutes => ?_
  have hall : ∀ route ∈ routes, Fits route := by
    intro route hroute
    obtain ⟨hcheck, hmem⟩ := mem_routesTo hroutes route hroute
    obtain ⟨counterparty, hcounterparty, rfl⟩ := List.mem_map.1 hmem
    exact ⟨hcheck, hfits counterparty hcounterparty⟩
  have hchanged : Upholds (Disk.Sound founded) (fun _ => False) (routesToChange paused routes)
      fun changed => ∀ route ∈ changed, Fits route := by
    refine Disk.upholds_of_run fun d hd =>
      ⟨_, routesToChange_run hd.reliable.readable paused routes, fun route hroute => ?_⟩
    exact hall route (List.mem_filter.1 hroute).1
  refine Upholds.bind (Q := fun _ => True)
    (upholds_onDisk (hchanged.bind fun changed hfits' => ?_)) fun _ _ =>
      .forM fun route _ => upholds_emit _
  have hwrite : ∀ w ∈ changed.map (routeWrite paused), w.Sound := by
    intro w hw
    obtain ⟨route, hroute, rfl⟩ := List.mem_map.1 hw
    exact sound_routeWrite (hfits' route hroute) paused
  exact .ite (fun _ => (Disk.upholds_write hwrite).bind fun _ _ => .pure trivial)
    fun _ => .pure trivial

theorem upholds_setTraffic [Lenient E] {protocol : ProtocolId} {counterparties : List String}
    (hfits : ∀ counterparty ∈ counterparties, Fits counterparty) (paused : Bool) :
    Upholds (World.Sound founded) E (setTraffic protocol counterparties paused)
      fun _ => True := by
  refine (Upholds.checked _).bind fun _ hcheck => ?_
  cases counterparties with
  | nil => exact upholds_setProtocol hcheck paused
  | cons counterparty rest => exact upholds_setRoutes hfits paused

end Breaker

theorem failsIn_checkAuthority [Lenient E] (signer authority : String) :
    FailsIn E (checkAuthority signer authority) := by
  unfold checkAuthority
  split
  · exact .ok
  · exact .error (blameless rfl)

theorem upholds_authorized [Lenient E] (r : Router) (signer : String) {act : RouterM α}
    {Q : α → Prop} (h : Upholds (World.Sound founded) E act Q) :
    Upholds (World.Sound founded) E (r.authorized signer act) Q :=
  (Upholds.settled (failsIn_checkAuthority signer r.authority)).bind fun _ _ => h

theorem Router.upholds_updateParams [Lenient E] (r : Router) (signer : String) (params : Params) :
    Upholds (World.Sound founded) E (r.updateParams signer params) fun _ => True :=
  upholds_authorized r signer <| (Upholds.checked _).bind fun _ hcheck =>
    (upholds_onDisk (Disk.upholds_put ⟨.params, rfl, params, hcheck, rfl⟩)).bind
      fun _ _ => upholds_emit _

namespace Genesis

/-- The texts of an import can be kept in the store. -/
def Short (g : Genesis) : Prop := ∀ route ∈ g.pausedRoutes, Fits route.counterparty

instance : DecidablePred Short := fun g =>
  inferInstanceAs (Decidable (∀ route ∈ g.pausedRoutes, Fits route.counterparty))

theorem sound_writes {g : Genesis} (h : g.Valid) (hshort : g.Short) : ∀ w ∈ g.writes, w.Sound := by
  intro w hw
  simp only [writes, List.mem_append, List.mem_cons, List.mem_map] at hw
  rcases hw with ((rfl | ⟨a, ha, rfl⟩) | ⟨p, hp, rfl⟩) | ⟨route, hroute, rfl⟩
  · exact ⟨.params, rfl, g.params, Params.check_eq_ok.2 h.params, rfl⟩
  · exact ⟨.pausedAction a, rfl, ActionId.check_eq_ok.2 (h.actions a ha), rfl⟩
  · exact ⟨.pausedProtocol p, rfl, ProtocolId.check_eq_ok.2 (h.protocols p hp), rfl⟩
  · obtain ⟨hprotocol, hcounterparty⟩ := h.routes route hroute
    exact ⟨Breaker.routeKey route, rfl, ⟨CrossChainId.check_eq_ok.2
      ⟨ProtocolId.check_eq_ok.2 hprotocol, hcounterparty⟩, hshort route hroute⟩, rfl⟩

theorem upholds_importState [Lenient E] {g : Genesis} (hshort : g.Short) :
    Upholds (World.Sound founded) E g.importState fun _ => True :=
  (Upholds.checked _).bind fun _ hcheck =>
    upholds_onDisk (Disk.upholds_write (sound_writes (check_eq_ok.1 hcheck) hshort))

end Genesis

/-! ## Recorded payloads -/

namespace Pending

theorem upholds_get? (hash : PayloadHash) :
    Upholds (World.Sound founded) E (get? hash) fun found => ∀ entry ∈ found, Fits entry := by
  refine upholds_read fun k value hfamily hk => ?_
  cases k <;> try (simp [Key.family] at hfamily; done)
  obtain ⟨entry, hfits, rfl⟩ := hk
  exact ⟨entry, decodeAt_encode hfits _, hfits⟩

theorem upholds_nextSequence :
    Upholds (World.Sound founded) E nextSequence fun _ => True := by
  refine upholds_getD 0 fun k value hfamily hk => ?_
  cases k <;> try (simp [Key.family] at hfamily; done)
  obtain ⟨n, rfl⟩ := hk
  exact ⟨n, decodeAt_encode trivial _⟩

theorem upholds_draft [Lenient E] (payload : Payload) :
    Upholds (World.Sound founded) E (draft payload) fun p => p.1.payload = payload := by
  refine (Upholds.checked _).bind fun _ _ => upholds_loadParams.bind fun params _ => ?_
  refine (Upholds.checked _).bind fun _ _ => Upholds.get.bind fun w _ => ?_
  refine upholds_nextSequence.bind fun sequence _ => ?_
  cases successor? sequence with
  | none => exact .throw (blameless rfl)
  | some next => exact .pure rfl

theorem sound_recording {entry : PendingEntry} (h : Fits entry) (next : UInt64) :
    ∀ w ∈ recording entry next, w.Sound := by
  simp only [recording, List.forall_mem_cons]
  exact ⟨⟨.sequence, rfl, next, rfl⟩, ⟨.pending entry.hash, rfl, entry, h, rfl⟩,
    ⟨.pendingByTime entry.timestamp entry.hash, rfl, rfl⟩, fun _ hw => absurd hw List.not_mem_nil⟩

theorem upholds_record [Lenient E] {entry : PendingEntry} (h : Fits entry) (next : UInt64) :
    Upholds (World.Sound founded) E (record entry next) fun _ => True := by
  have hwrite : Upholds (World.Sound founded) E (do
      RouterM.onDisk (Disk.write (recording entry next))
      RouterM.emit (.pendingPayloadSubmitted entry.hash entry.sequence)
      return entry.hash) fun _ => True :=
    (upholds_onDisk (Disk.upholds_write (sound_recording h next))).bind fun _ _ =>
      (upholds_emit _).bind fun _ _ => .pure trivial
  exact (upholds_onDisk (Disk.upholds_contains _)).bind fun _ _ =>
    .ite (fun _ => Upholds.bind (Q := fun _ => True) (.throw (blameless rfl)) fun _ _ => hwrite)
      fun _ => hwrite

theorem upholds_submit [Lenient E] {payload : Payload} (h : Fits payload) :
    Upholds (World.Sound founded) E (submit payload) fun _ => True := by
  rw [submit_eq]
  refine (upholds_draft payload).bind fun p hp => ?_
  have hpayload : Fits p.1.payload := hp ▸ h
  exact upholds_record ⟨trivial, hpayload, trivial⟩ p.2

theorem upholds_take [Lenient E] (hash : PayloadHash) :
    Upholds (World.Sound founded) E (take hash) fun _ => True := by
  refine (upholds_get? hash).bind fun found _ => ?_
  cases found with
  | none => exact .throw (blameless rfl)
  | some entry =>
    have hremoval : ∀ w ∈ removal entry.timestamp hash, w.Sound := by
      simp only [removal, List.forall_mem_cons]
      exact ⟨Write.sound_delete nofun, Write.sound_delete (k := .pendingByTime ..) nofun,
        fun _ hw => absurd hw List.not_mem_nil⟩
    exact (upholds_onDisk (Disk.upholds_write hremoval)).bind fun _ _ =>
      (upholds_emit _).bind fun _ _ => .pure trivial

/-- The keys of the time index are read, and they are dropped with the entries that they name. -/
theorem upholds_drop (limit cutoff : UInt64) :
    Upholds (Disk.Sound founded) (fun _ => False) (drop limit cutoff) fun _ => True := by
  refine (Disk.upholds_range cutoff limit.toNat).bind fun entries hentries => ?_
  refine Upholds.bind (Q := fun index => readIndex entries = .ok index) (.settled ?_)
    fun index hindex => ?_
  · intro fault hfault
    obtain ⟨e, he, herror⟩ := exists_of_mapM_eq_error hfault
    obtain ⟨timestamp, hash, hkey⟩ := hentries e he
    rw [← hkey, Key.readTimeKey_bytes] at herror
    exact absurd herror nofun
  · have hexpiry : ∀ w ∈ expiry index, w.Sound := by
      intro w hw
      obtain ⟨i, hi, hw⟩ := List.mem_flatMap.1 hw
      obtain ⟨e, he, hread⟩ := exists_of_mem_mapM hindex i hi
      obtain ⟨timestamp, hash, hkey⟩ := hentries e he
      rw [← hkey, Key.readTimeKey_bytes] at hread
      obtain rfl := Except.ok.inj hread
      simp only [List.mem_cons, List.not_mem_nil, or_false] at hw
      rcases hw with rfl | rfl
      · exact Write.sound_delete (k := .pendingByTime ..) nofun
      · exact Write.sound_delete nofun
    exact .ite (fun _ => (Disk.upholds_write hexpiry).bind fun _ _ => .pure trivial)
      fun _ => .pure trivial

theorem upholds_sweep (limit cutoff : UInt64) :
    Upholds (World.Sound founded) E (sweep limit cutoff) fun _ => True := by
  rw [sweep_eq]
  exact (upholds_onDisk (upholds_drop limit cutoff)).bind fun _ _ =>
    (Upholds.forM fun _ _ => upholds_emit _).bind fun _ _ => .pure trivial

end Pending

/-! ## Statistics -/

namespace Statistics

theorem upholds_traffic (source destination : CrossChainId) (denom : String) :
    Upholds (World.Sound founded) E (traffic source destination denom) fun _ => True := by
  refine upholds_getD Traffic.none fun k value hfamily hk => ?_
  cases k <;> try (simp [Key.family] at hfamily; done)
  obtain ⟨-, t, rfl⟩ := hk
  have hfits : Fits t := ⟨trivial, trivial⟩
  exact ⟨t, decodeAt_encode hfits _⟩

theorem upholds_dispatches (source destination : CrossChainId) :
    Upholds (World.Sound founded) E (dispatches source destination) fun _ => True := by
  refine upholds_getD 0 fun k value hfamily hk => ?_
  cases k <;> try (simp [Key.family] at hfamily; done)
  obtain ⟨-, n, rfl⟩ := hk
  exact ⟨n, decodeAt_encode trivial _⟩

theorem failsIn_add [Lenient E] (a b : Traffic) : FailsIn E (a.add b) := by
  unfold Traffic.add
  split
  · exact .error (blameless rfl)
  · split
    · exact .error (blameless rfl)
    · exact .ok

theorem failsIn_countDispatch [Lenient E] (n : UInt64) : FailsIn E (countDispatch n) := by
  unfold countDispatch
  split
  · exact .ok
  · exact .error (blameless rfl)

theorem upholds_additions [Lenient E] {source destination : CrossChainId} (hsource : Fits source)
    (hdestination : Fits destination) {traffics : List (String × Traffic)}
    (h : ∀ t ∈ traffics, Fits t.1) :
    Upholds (World.Sound founded) E (additions source destination traffics)
      fun writes => ∀ w ∈ writes, w.Sound := by
  induction traffics with
  | nil => exact .pure fun _ hw => absurd hw List.not_mem_nil
  | cons t rest ih =>
    obtain ⟨ht, hrest⟩ := List.forall_mem_cons.1 h
    refine (upholds_traffic source destination t.1).bind fun current _ => ?_
    refine (Upholds.settled (failsIn_add current t.2)).bind fun total _ => ?_
    refine (ih hrest).bind fun others hothers => .pure (List.forall_mem_cons.2 ⟨?_, hothers⟩)
    exact ⟨.traffic source destination t.1, rfl, ⟨hsource, hdestination, ht⟩, total, rfl⟩

end Statistics

/-- The texts of a transfer can be kept in the store. -/
structure Transfer.Short (t : Transfer) : Prop where
  sourceCounterparty : Fits t.sourceCounterparty
  sourceDenom : Fits t.sourceDenom
  destinationDenom : Fits t.destinationDenom

theorem Statistics.upholds_record [Lenient E] {transfer : Transfer} {destination : CrossChainId}
    (h : transfer.Short) (hdestination : Fits destination) :
    Upholds (World.Sound founded) E (record transfer destination) fun _ => True := by
  have hdenoms : ∀ t ∈ Traffic.ofTransfer transfer, Fits t.1 := by
    unfold Traffic.ofTransfer
    split
    · exact List.forall_mem_singleton.2 h.sourceDenom
    · exact List.forall_mem_cons.2 ⟨h.sourceDenom, List.forall_mem_singleton.2 h.destinationDenom⟩
  refine (Upholds.checked _).bind fun source hmake => ?_
  obtain ⟨hparts, hcheck⟩ := CrossChainId.make_ok hmake
  have hsource : Fits source := ⟨hcheck, hparts ▸ h.sourceCounterparty⟩
  refine (upholds_additions hsource hdestination hdenoms).bind fun writes hwrites => ?_
  refine (upholds_dispatches source destination).bind fun count _ => ?_
  refine (Upholds.settled (failsIn_countDispatch count)).bind fun next _ => ?_
  refine upholds_onDisk (Disk.upholds_write fun w hw => ?_)
  rcases List.mem_append.1 hw with hw | hw
  · exact hwrites w hw
  · obtain rfl := List.mem_singleton.1 hw
    exact ⟨.dispatchCount source destination, rfl, ⟨hsource, hdestination⟩, next, rfl⟩

end

end TransferRouter
