import Mathlib.Data.List.Basic
import TransferRouter.Proofs.Store.Legible
import TransferRouter.Proofs.Tally

/-!
The listing of the traffic over a route. Each record of a dispatch enters its denominations under
keys of its route and writes nothing else that a listing of traffic could find. So the listing has
the denominations of the dispatches that were recorded over the route, each of them once, and says
of each what a question about this one denomination answers.
-/

namespace TransferRouter

open Codec LawfulCodec
open Disk (Apart)

/-! ## Batches that take nothing away -/

namespace Store

variable {s t : Store} {batch : List Write} {key value start : Bytes}

/-- What is under a key after a batch was put there by the batch, or was there before. -/
theorem mem_or_get?_of_applyAll (h : (s.applyAll batch).get? key = some value) :
    .put key value ∈ batch ∨ s.get? key = some value := by
  induction batch generalizing s with
  | nil => exact .inr h
  | cons w batch ih =>
    rcases ih h with hmem | hget
    · exact .inl (List.mem_cons_of_mem _ hmem)
    rw [get?_apply] at hget
    split at hget
    next hkey =>
      cases w with
      | put k v =>
        obtain rfl : k = key := hkey
        obtain rfl : v = value := Option.some.inj hget
        exact .inl List.mem_cons_self
      | delete k => exact absurd hget nofun
    next => exact .inr hget

/-- After a batch without deletions there is something under the keys of the batch and under all
keys where there was something before. -/
theorem contains_applyAll (hputs : ∀ w ∈ batch, w.value.isSome = true) :
    (s.applyAll batch).contains key = true ↔
      (∃ w ∈ batch, w.key = key) ∨ s.contains key = true := by
  induction batch generalizing s with
  | nil => simp [applyAll_nil]
  | cons w batch ih =>
    obtain ⟨hvalue, hputs⟩ := List.forall_mem_cons.1 hputs
    rw [applyAll_cons, ih hputs, List.exists_mem_cons_iff, or_assoc, or_left_comm]
    refine or_congr_right ?_
    rw [OrderedMap.contains, get?_apply]
    split
    next hkey => exact iff_of_true hvalue (.inl hkey)
    next hkey => exact ⟨.inr, fun h => h.resolve_left hkey⟩

/-- Stores with the same under all keys that start as asked have the same listing. -/
theorem extensions_congr (h : ∀ key, start.isPrefixOf key = true → s.get? key = t.get? key) :
    s.extensions start = t.extensions start := by
  rw [extensions_eq, extensions_eq]
  refine eq_of_ascending (s.ascending.filter _) (t.ascending.filter _) fun e => ?_
  rw [List.mem_filter, List.mem_filter]
  refine and_congr_left fun hstart => ?_
  rw [← OrderedMap.get?_eq_some_iff (m := s), ← OrderedMap.get?_eq_some_iff (m := t), h _ hstart]

end Store

/-! ## What a record enters -/

/-- The receipt tells that something came in or went out over a route in a denomination. -/
def Receipt.Moves (rc : Receipt) (source destination : CrossChainId) (denom : String) : Prop :=
  rc.Over source destination ∧ (rc.incoming.denom = denom ∨ rc.outgoing.denom = denom)

/-- The batch that records a receipt: totals for its denominations and the count of its route. -/
structure Receipt.Entered (rc : Receipt) (batch : List Write) : Prop where
  source : Fits rc.source
  destination : Fits rc.destination
  incoming : Fits rc.incoming.denom
  outgoing : Fits rc.outgoing.denom
  puts : ∀ x ∈ batch,
    (∃ denom, rc.Moves rc.source rc.destination denom ∧ ∃ total : Traffic,
      x = .put (Key.traffic rc.source rc.destination denom).bytes (encode total)) ∨
    ∃ count : UInt64, x = .put (Key.dispatchCount rc.source rc.destination).bytes (encode count)
  covers : ∀ denom, rc.Moves rc.source rc.destination denom →
    ∃ x ∈ batch, x.key = (Key.traffic rc.source rc.destination denom).bytes

namespace Receipt

variable {rc : Receipt} {batch : List Write} {source destination : CrossChainId} {denom : String}

theorem Moves.route (h : rc.Moves source destination denom) :
    rc.source = source ∧ rc.destination = destination := h.1

namespace Entered

/-- A total that is entered may be held under its key. -/
theorem mayHold (h : rc.Entered batch) (hmoves : rc.Moves source destination denom)
    (total : Traffic) : (Key.traffic source destination denom).MayHold (encode total) := by
  obtain ⟨⟨rfl, rfl⟩, hdenom⟩ := hmoves
  refine ⟨⟨h.source, h.destination, ?_⟩, total, rfl⟩
  rcases hdenom with rfl | rfl
  · exact h.incoming
  · exact h.outgoing

theorem isSome_value (h : rc.Entered batch) : ∀ x ∈ batch, x.value.isSome = true := by
  intro x hx
  rcases h.puts x hx with ⟨denom, -, total, rfl⟩ | ⟨count, rfl⟩ <;> rfl

end Entered

end Receipt

namespace Statistics

variable {w w' : World} {source destination : CrossChainId}

/-- The writes of the additions are totals of the denominations, of each of them one. -/
theorem additions_ok {traffics : List (String × Traffic)} {writes : List Write}
    (h : additions source destination traffics w = .ok writes w') :
    (∀ x ∈ writes, ∃ p ∈ traffics, ∃ total : Traffic,
      x = .put (Key.traffic source destination p.1).bytes (encode total)) ∧
    ∀ p ∈ traffics, ∃ x ∈ writes, x.key = (Key.traffic source destination p.1).bytes := by
  induction traffics generalizing w w' writes with
  | nil =>
    obtain ⟨rfl, -⟩ := pure_eq_ok.1 h
    exact ⟨fun _ hx => absurd hx List.not_mem_nil, fun _ hp => absurd hp List.not_mem_nil⟩
  | cons p rest ih =>
    obtain ⟨_, _, -, h⟩ := bind_eq_ok.1 h
    obtain ⟨total, _, -, h⟩ := bind_eq_ok.1 h
    obtain ⟨others, _, hothers, h⟩ := bind_eq_ok.1 h
    obtain ⟨rfl, -⟩ := pure_eq_ok.1 h
    obtain ⟨hputs, hcovers⟩ := ih hothers
    constructor
    · refine List.forall_mem_cons.2 ⟨⟨p, List.mem_cons_self, total, rfl⟩, fun x hx => ?_⟩
      obtain ⟨q, hq, hput⟩ := hputs x hx
      exact ⟨q, List.mem_cons_of_mem _ hq, hput⟩
    · refine List.forall_mem_cons.2 ⟨⟨_, List.mem_cons_self, rfl⟩, fun q hq => ?_⟩
      obtain ⟨x, hx, hkey⟩ := hcovers q hq
      exact ⟨x, List.mem_cons_of_mem _ hx, hkey⟩

/-- All of a record but its write. -/
def preparation (transfer : Transfer) (destination : CrossChainId) : RouterM (List Write) := do
  let source ← checked transfer.source
  let writes ← additions source destination (Traffic.ofTransfer transfer)
  let count ← dispatches source destination
  let next ← settle id (countDispatch count)
  return writes ++ [.put (Key.dispatchCount source destination).bytes (encode next)]

theorem record_eq_preparation (transfer : Transfer) (destination : CrossChainId) :
    record transfer destination =
      preparation transfer destination >>= fun batch => RouterM.onDisk (Disk.write batch) := by
  simp only [record, preparation, bind_assoc, pure_bind]

/-- Nothing is changed before the write. -/
theorem keeps_preparation (transfer : Transfer) (destination : CrossChainId) :
    Keeps (World.Within (Apart fun _ => True) Eq) (preparation transfer destination) :=
  (Keeps.checked _).bind fun _ => (keeps_additions _ _ _).bind fun _ =>
    (keeps_dispatches _ _).bind fun _ => (Keeps.settle _ _).bind fun _ => Keeps.pure _

variable {transfer : Transfer} {batch : List Write}

/-- The batch of a record enters a receipt. -/
theorem preparation_ok (hsource : transfer.source = .ok source)
    (hdestination : destination.check = .ok ())
    (hshort : (receipt source destination transfer).Short)
    (h : preparation transfer destination w = .ok batch w') :
    (receipt source destination transfer).Entered batch := by
  obtain ⟨-, hvalid⟩ := CrossChainId.make_ok hsource
  obtain ⟨_, _, hchecked, h⟩ := bind_eq_ok.1 h
  rw [checked_run hsource] at hchecked
  cases hchecked
  obtain ⟨writes, _, hadditions, h⟩ := bind_eq_ok.1 h
  obtain ⟨_, _, -, h⟩ := bind_eq_ok.1 h
  obtain ⟨next, _, -, h⟩ := bind_eq_ok.1 h
  obtain ⟨rfl, -⟩ := pure_eq_ok.1 h
  obtain ⟨hputs, hcovers⟩ := additions_ok hadditions
  rw [Traffic.ofTransfer_eq] at hputs hcovers
  refine ⟨⟨hvalid, hshort.source⟩, ⟨hdestination, hshort.destination⟩, hshort.incoming,
    hshort.outgoing, fun x hx => ?_, fun denom hmoves => ?_⟩
  · rcases List.mem_append.1 hx with hx | hx
    · obtain ⟨p, hp, total, rfl⟩ := hputs x hx
      obtain ⟨denom, hdenom, rfl⟩ := List.mem_map.1 hp
      exact .inl ⟨denom, ⟨⟨rfl, rfl⟩, Traffic.mem_denoms.1 hdenom⟩, total, rfl⟩
    · exact .inr ⟨next, List.mem_singleton.1 hx⟩
  · obtain ⟨x, hx, hkey⟩ := hcovers _ (List.mem_map_of_mem (Traffic.mem_denoms.2 hmoves.2))
    exact ⟨x, List.mem_append_left _ hx, hkey⟩

/-- A record that succeeds has written the batch of its receipt. -/
theorem record_ok (hsource : transfer.source = .ok source)
    (hdestination : destination.check = .ok ())
    (hshort : (receipt source destination transfer).Short)
    (h : record transfer destination w = .ok () w') :
    ∃ batch, (receipt source destination transfer).Entered batch ∧
      ∀ key, w'.disk.store.get? key = (w.disk.store.applyAll batch).get? key := by
  rw [record_eq_preparation] at h
  obtain ⟨batch, u, hprepared, h⟩ := bind_eq_ok.1 h
  obtain ⟨d, hwrite, rfl⟩ := onDisk_eq_ok.1 h
  have hread := ((keeps_preparation transfer destination).ok hprepared).disk.get?
  refine ⟨batch, preparation_ok hsource hdestination hshort hprepared, fun key => ?_⟩
  rw [(Disk.write_ok hwrite).1]
  exact Store.get?_applyAll_congr (hread key trivial) batch

/-- A record that fails has written nothing. -/
theorem record_error {e : RouterError} (h : record transfer destination w = .error e w') :
    Apart (fun _ => True) w.disk w'.disk := by
  rw [record_eq_preparation] at h
  rcases bind_eq_error.1 h with h | ⟨batch, u, hprepared, h⟩
  · exact ((keeps_preparation transfer destination).error h).disk
  refine trans_of (Apart _) ((keeps_preparation transfer destination).ok hprepared).disk ?_
  obtain ⟨fault, d, hwrite, -, rfl⟩ := onDisk_eq_error.1 h
  obtain ⟨hstore, hlater⟩ := Disk.write_error hwrite
  exact ⟨hlater, fun key _ => congrArg (OrderedMap.get? · key) hstore⟩

end Statistics

/-! ## Dispatches that are recorded -/

namespace Errand

/-- The receipt for a dispatch, if it gets into the statistics. -/
def recorded? (e : Errand) (w : World) : Option Receipt :=
  match carryOut e.execute e.forward e.payload ⟨w, e.transfer⟩ with
  | .ok (transfer, destination) s =>
    match Statistics.record transfer destination s.world with
    | .ok .. => some ⟨e.source, e.destination, e.transfer.sourceCoin, transfer.destinationCoin⟩
    | .error .. => none
  | .error .. => none

/-- The receipts for the dispatches of a sequence that get into the statistics. -/
def recordings : World → List Errand → List Receipt
  | _, [] => []
  | w, e :: es => (e.recorded? w).toList ++ recordings (after w e) es

/-- What a dispatch leaves under the keys of the statistics: what was there when it is not recorded,
and else what it enters besides. -/
def Enters (e : Errand) (w : World) : Prop :=
  match e.recorded? w with
  | none => Apart Statistics.IsTotal w.disk (after w e).disk
  | some rc => rc.Over e.source e.destination ∧ ∃ batch, rc.Entered batch ∧
      ∀ key, Statistics.IsTotal key →
        (after w e).disk.store.get? key = (w.disk.store.applyAll batch).get? key

variable {e : Errand} {w : World}

theorem Honest.enters (he : e.Honest) (hw : w.disk.Readable) :
    e.Enters w ∧ (after w e).disk.Readable := by
  cases hrun : carryOut e.execute e.forward e.payload ⟨w, e.transfer⟩ with
  | error error s =>
    have hfails : e.run w = .error error s := by
      rw [run, dispatch_eq_carryOut, bind_of_error hrun]
    have hkept := he.keeps_carryOut.error hrun
    simp only [Enters, recorded?, hrun, after, hfails]
    exact ⟨hkept.disk, hkept.disk.readable hw⟩
  | ok p s =>
    obtain ⟨transfer, destination⟩ := p
    obtain ⟨rfl, rfl, hsource, hdestination, hreceipt, hshort⟩ := he.brings hrun
    have hkept := he.keeps_carryOut.ok hrun
    have hs := hkept.disk.readable hw
    cases hrecord : Statistics.record s.transfer e.destination s.world with
    | error error v =>
      have hend := run_of_carryOut hrun (attempt_eq_ok.2 (.inr ⟨error, hrecord⟩))
      have hfailed := Statistics.record_error hrecord
      simp only [Enters, recorded?, hrun, hrecord, after, hend]
      refine ⟨trans_of (Apart Statistics.IsTotal) hkept.disk ?_, hfailed.readable hs⟩
      exact ⟨hfailed.later, fun key _ => hfailed.get? key trivial⟩
    | ok _ v =>
      have hend := run_of_carryOut hrun (attempt_eq_ok.2 (.inl hrecord))
      have hlater := (Statistics.keeps_record (B := Eq) Statistics.aside_others s.transfer
        e.destination).ok hrecord
      obtain ⟨batch, hentered, hbatch⟩ :=
        Statistics.record_ok hsource hdestination hshort hrecord
      simp only [Enters, recorded?, hrun, hrecord, after, hend, ← hreceipt]
      refine ⟨⟨⟨rfl, rfl⟩, batch, hentered, fun key hkey => ?_⟩, hlater.disk.readable hs⟩
      exact (hbatch key).trans (Store.get?_applyAll_congr (hkept.disk.get? key hkey) batch)

end Errand

/-! ## The receipts behind the entries -/

/-- The store has traffic for what was recorded and for nothing else: a key for each denomination
that a receipt tells of, and a receipt behind each key. -/
structure Store.Itemizes (store : Store) (rcs : List Receipt) : Prop where
  held : ∀ rc ∈ rcs, ∀ source destination denom, rc.Moves source destination denom →
    Fits (Key.traffic source destination denom) ∧
      store.contains (Key.traffic source destination denom).bytes = true
  named : ∀ key value, key.head? = some 0x40 → store.get? key = some value →
    ∃ source destination denom, key = (Key.traffic source destination denom).bytes ∧
      (Key.traffic source destination denom).MayHold value ∧
      ∃ rc ∈ rcs, rc.Moves source destination denom

namespace Store.Itemizes

variable {store store' : Store} {rcs : List Receipt}

theorem empty (h : ∀ key, Statistics.IsTotal key → store.get? key = none) :
    store.Itemizes [] where
  held _ hrc := absurd hrc List.not_mem_nil
  named key value hkey hvalue := by
    rw [h key (.inl hkey)] at hvalue
    exact absurd hvalue nofun

theorem of_same (h : store.Itemizes rcs)
    (hsame : ∀ key, Statistics.IsTotal key → store'.get? key = store.get? key) :
    store'.Itemizes rcs where
  held rc hrc source destination denom hmoves := by
    obtain ⟨hfits, hheld⟩ := h.held rc hrc source destination denom hmoves
    refine ⟨hfits, ?_⟩
    rwa [OrderedMap.contains, hsame _ (.inl rfl)]
  named key value hkey hvalue := h.named key value hkey (hsame key (.inl hkey) ▸ hvalue)

/-- A batch that enters a receipt adds it to the receipts behind the entries. -/
theorem applyAll (h : store.Itemizes rcs) {rc : Receipt} {batch : List Write}
    (hentered : rc.Entered batch) : (store.applyAll batch).Itemizes (rcs ++ [rc]) where
  held rc' hrc source destination denom hmoves := by
    rw [contains_applyAll hentered.isSome_value]
    rcases List.mem_append.1 hrc with hrc | hrc
    · obtain ⟨hfits, hheld⟩ := h.held rc' hrc source destination denom hmoves
      exact ⟨hfits, .inr hheld⟩
    · obtain rfl := List.mem_singleton.1 hrc
      refine ⟨(hentered.mayHold hmoves .none).fits, .inl ?_⟩
      obtain ⟨rfl, rfl⟩ := hmoves.route
      exact hentered.covers denom hmoves
  named key value hkey hvalue := by
    rcases mem_or_get?_of_applyAll hvalue with hput | hbefore
    · rcases hentered.puts _ hput with ⟨denom, hmoves, total, hwrite⟩ | ⟨count, hwrite⟩
      · obtain ⟨rfl, rfl⟩ := Write.put.inj hwrite
        exact ⟨rc.source, rc.destination, denom, rfl, hentered.mayHold hmoves total, rc,
          List.mem_append_right _ List.mem_cons_self, hmoves⟩
      · -- The count of a route is no traffic.
        obtain ⟨rfl, rfl⟩ := Write.put.inj hwrite
        rw [Key.head?_bytes] at hkey
        exact absurd hkey (by simp [Key.family])
    · obtain ⟨source, destination, denom, hbytes, hmay, rc', hrc, hmoves⟩ :=
        h.named key value hkey hbefore
      exact ⟨source, destination, denom, hbytes, hmay, rc', List.mem_append_left _ hrc, hmoves⟩

end Store.Itemizes

namespace Errand

variable {e : Errand} {w : World} {rcs : List Receipt}

/-- After a dispatch there is its receipt besides the others, if it is recorded. -/
theorem Enters.itemizes (h : e.Enters w) (hstore : w.disk.store.Itemizes rcs) :
    (after w e).disk.store.Itemizes (rcs ++ (e.recorded? w).toList) := by
  unfold Enters at h
  cases hrecorded : e.recorded? w with
  | none =>
    simp only [hrecorded] at h
    rw [Option.toList_none, List.append_nil]
    exact hstore.of_same h.get?
  | some rc =>
    simp only [hrecorded] at h
    obtain ⟨-, batch, hentered, hbatch⟩ := h
    exact (hstore.applyAll hentered).of_same hbatch

theorem itemizes_run {es : List Errand} (hes : ∀ e ∈ es, e.Honest) (hw : w.disk.Readable)
    (hstore : w.disk.store.Itemizes rcs) :
    (es.foldl after w).disk.store.Itemizes (rcs ++ recordings w es) ∧
      (es.foldl after w).disk.Readable := by
  induction es generalizing w rcs with
  | nil =>
    rw [recordings, List.append_nil]
    exact ⟨hstore, hw⟩
  | cons e es ih =>
    obtain ⟨he, hes⟩ := List.forall_mem_cons.1 hes
    obtain ⟨henters, hreadable⟩ := he.enters hw
    rw [recordings, List.foldl_cons, ← List.append_assoc]
    exact ih hes hreadable (henters.itemizes hstore)

end Errand

/-! ## Listings -/

namespace Statistics

variable {w : World} {source destination : CrossChainId} {denom : String}

/-- The entry for a denomination in the store. -/
def entry (source destination : CrossChainId) (p : String × Traffic) : Bytes × Bytes :=
  ((Key.traffic source destination p.1).bytes, encode p.2)

theorem decodeEntry_entry {p : String × Traffic}
    (h : (Key.traffic source destination p.1).MayHold (encode p.2)) :
    decodeEntry (entry source destination p) = .ok p := by
  have hvalue : decodeAt Traffic (Key.traffic source destination p.1).bytes (encode p.2) =
      .ok p.2 := decodeAt_encode (show Fits p.2 from ⟨trivial, trivial⟩) _
  exact except_bind_eq_ok.2 ⟨_, h.readsAs.suffix, except_bind_eq_ok.2 ⟨p.2, hvalue, rfl⟩⟩

theorem trafficOver_eq_ok (hw : w.disk.Readable) {listing : List (String × Traffic)} :
    trafficOver source destination w = .ok listing w ↔
      (w.disk.store.extensions (Key.trafficOver source destination)).mapM decodeEntry =
        .ok listing := by
  rw [trafficOver, onDisk_eq_ok, bind_of_ok (Disk.extensions_run hw _)]
  constructor
  · rintro ⟨d, hsettled, -⟩
    exact (settle_eq_ok.1 hsettled).1
  · intro hmade
    exact ⟨w.disk, settle_eq_ok.2 ⟨hmade, rfl⟩, rfl⟩

/-- What a listing of the traffic over a route says. It agrees with what is answered about single
denominations. -/
structure Lists (w : World) (source destination : CrossChainId) (listing : List (String × Traffic))
    (moved : String → Prop) : Prop where
  answered : trafficOver source destination w = .ok listing w
  ascending : listing.Pairwise fun p q => StrictOrder.before
    (Key.traffic source destination p.1).bytes (Key.traffic source destination q.1).bytes = true
  once : (listing.map (·.1)).Nodup
  mem_iff : ∀ denom, denom ∈ listing.map (·.1) ↔ moved denom
  listed : ∀ denom sum, (denom, sum) ∈ listing → traffic source destination denom w = .ok sum w
  others : ∀ denom, Fits denom → denom ∉ listing.map (·.1) →
    traffic source destination denom w = .ok .none w

theorem Lists.congr {listing : List (String × Traffic)} {moved moved' : String → Prop}
    (h : Lists w source destination listing moved) (hmoved : ∀ denom, moved denom ↔ moved' denom) :
    Lists w source destination listing moved' :=
  { h with mem_iff := fun denom => (h.mem_iff denom).trans (hmoved denom) }

/-- An entry that is found for a route is of this route, and some receipt is behind it. -/
theorem entry_of_mem_extensions {rcs : List Receipt} (h : w.disk.store.Itemizes rcs)
    (hsource : Fits source.counterparty) (hdestination : Fits destination.counterparty)
    {e : Bytes × Bytes}
    (he : e ∈ w.disk.store.extensions (Key.trafficOver source destination)) :
    ∃ p, entry source destination p = e ∧
      (Key.traffic source destination p.1).MayHold (encode p.2) ∧
      ∃ rc ∈ rcs, rc.Moves source destination p.1 := by
  obtain ⟨key, value⟩ := e
  rw [Store.extensions_eq, List.mem_filter, ← OrderedMap.get?_eq_some_iff] at he
  obtain ⟨hvalue, hstart⟩ := he
  obtain ⟨source', destination', denom, rfl, hmay, hreceipt⟩ :=
    h.named key value (Bytes.head?_of_isPrefixOf hstart) hvalue
  obtain ⟨hsource', hdestination', -⟩ := hmay.fits
  obtain ⟨rfl, rfl⟩ := (Key.trafficOver_isPrefixOf hsource' hdestination' hsource
    hdestination).1 hstart
  obtain ⟨-, total, rfl⟩ := id hmay
  exact ⟨(denom, total), rfl, hmay, hreceipt⟩

theorem exists_listing {rcs : List Receipt} (hw : w.disk.Readable)
    (h : w.disk.store.Itemizes rcs) (hsource : Fits source.counterparty)
    (hdestination : Fits destination.counterparty) :
    ∃ listing, trafficOver source destination w = .ok listing w ∧
      listing.map (entry source destination) =
        w.disk.store.extensions (Key.trafficOver source destination) ∧
      ∀ p ∈ listing, (Key.traffic source destination p.1).MayHold (encode p.2) ∧
        ∃ rc ∈ rcs, rc.Moves source destination p.1 := by
  have hentry := fun e => entry_of_mem_extensions (e := e) h hsource hdestination
  obtain ⟨listing, hmade, hlisting⟩ := exists_mapM_eq_ok (f := decodeEntry)
    (g := entry source destination) fun e he => by
      obtain ⟨p, rfl, hmay, -⟩ := hentry e he
      exact ⟨p, decodeEntry_entry hmay, rfl⟩
  refine ⟨listing, (trafficOver_eq_ok hw).2 hmade, hlisting, fun p hp => ?_⟩
  obtain ⟨e, he, hread⟩ := exists_of_mem_mapM hmade p hp
  obtain ⟨q, rfl, hmay, hreceipt⟩ := hentry e he
  obtain rfl := Except.ok.inj ((decodeEntry_entry hmay).symm.trans hread)
  exact ⟨hmay, hreceipt⟩

variable {listing : List (String × Traffic)}
  (hentries : listing.map (entry source destination) =
    w.disk.store.extensions (Key.trafficOver source destination))

include hentries

/-- The listing is as ascending as the store. -/
theorem ascending_of_entries : listing.Pairwise fun p q => StrictOrder.before
    (Key.traffic source destination p.1).bytes (Key.traffic source destination q.1).bytes =
      true := by
  rw [Store.extensions_eq] at hentries
  have hstore := w.disk.store.ascending.filter fun e =>
    (Key.trafficOver source destination).isPrefixOf e.1
  rw [← hentries] at hstore
  exact List.pairwise_map.1 hstore

/-- What the store has for the route is what is listed. -/
theorem get?_eq_some_iff_mem {denom : String} {value : Bytes} :
    w.disk.store.get? (Key.traffic source destination denom).bytes = some value ↔
      ∃ p ∈ listing, entry source destination p =
        ((Key.traffic source destination denom).bytes, value) := by
  have hstart : (Key.trafficOver source destination).isPrefixOf
      (Key.traffic source destination denom).bytes = true := by
    rw [List.isPrefixOf_iff_prefix, Key.bytes_traffic]
    exact List.prefix_append ..
  rw [← List.mem_map, hentries, Store.extensions_eq, List.mem_filter,
    ← OrderedMap.get?_eq_some_iff]
  exact (and_iff_left hstart).symm

/-- A short denomination is listed when the store has something for it. -/
theorem mem_of_contains (hfits : ∀ p ∈ listing, Fits (Key.traffic source destination p.1))
    (hdenom : Fits (Key.traffic source destination denom))
    (h : w.disk.store.contains (Key.traffic source destination denom).bytes = true) :
    denom ∈ listing.map (·.1) := by
  obtain ⟨value, hvalue⟩ := OrderedMap.contains_iff.1 h
  obtain ⟨p, hp, hentry⟩ := (get?_eq_some_iff_mem hentries).1 hvalue
  obtain ⟨-, -, rfl⟩ := Key.traffic_inj (hfits p hp) hdenom (congrArg (·.1) hentry)
  exact List.mem_map_of_mem hp

omit hentries

/-- A route has a listing, of the denominations of the receipts for it. -/
theorem exists_lists {rcs : List Receipt} (hw : w.disk.Readable)
    (h : w.disk.store.Itemizes rcs) (hsource : Fits source.counterparty)
    (hdestination : Fits destination.counterparty) :
    ∃ listing, Lists w source destination listing fun denom =>
      ∃ rc ∈ rcs, rc.Moves source destination denom := by
  obtain ⟨listing, hanswer, hentries, hbehind⟩ := exists_listing hw h hsource hdestination
  have hfits : ∀ p ∈ listing, Fits (Key.traffic source destination p.1) :=
    fun p hp => (hbehind p hp).1.fits
  have hascending := ascending_of_entries hentries
  refine ⟨listing, hanswer, hascending, ?once, fun denom => ⟨?behind, ?found⟩, ?listed, ?others⟩
  case once =>
    refine List.pairwise_map.2 (hascending.imp fun hbefore hdenom => ?_)
    rw [hdenom] at hbefore
    exact StrictOrder.ne_of_before hbefore rfl
  case behind =>
    intro hmem
    obtain ⟨p, hp, rfl⟩ := List.mem_map.1 hmem
    exact (hbehind p hp).2
  case found =>
    rintro ⟨rc, hrc, hmoves⟩
    obtain ⟨hdenom, hheld⟩ := h.held rc hrc source destination denom hmoves
    exact mem_of_contains hentries hfits hdenom hheld
  case listed =>
    intro denom sum hlisted
    have hvalue := (get?_eq_some_iff_mem hentries).2 ⟨_, hlisted, rfl⟩
    exact traffic_run hw (stored_of_get? (show Fits sum from ⟨trivial, trivial⟩) hvalue)
  case others =>
    intro denom hdenom hmissing
    have habsent : w.disk.store.get? (Key.traffic source destination denom).bytes = none := by
      rw [← OrderedMap.contains_eq_false_iff, Bool.eq_false_iff]
      exact fun hheld => hmissing
        (mem_of_contains hentries hfits ⟨hsource, hdestination, hdenom⟩ hheld)
    refine traffic_run hw ?_
    rw [Store.stored, habsent]

end Statistics

namespace Errand

variable {e : Errand} {w : World} {source destination : CrossChainId}

/-- A dispatch over one route leaves the listings of the others alone. -/
theorem Enters.extensions_trafficOver (h : e.Enters w)
    (hfits : Fits source.counterparty ∧ Fits destination.counterparty)
    (hother : ¬ (e.source = source ∧ e.destination = destination)) :
    (after w e).disk.store.extensions (Key.trafficOver source destination) =
      w.disk.store.extensions (Key.trafficOver source destination) := by
  refine Store.extensions_congr fun key hstart => ?_
  have hfront : key.head? = some 0x40 := Bytes.head?_of_isPrefixOf hstart
  unfold Enters at h
  cases hrecorded : e.recorded? w with
  | none =>
    simp only [hrecorded] at h
    exact h.get? key (.inl hfront)
  | some rc =>
    simp only [hrecorded] at h
    obtain ⟨⟨hsource, hdestination⟩, batch, hentered, hbatch⟩ := h
    rw [hbatch key (.inl hfront)]
    refine Store.get?_applyAll_of_forall_ne fun x hx hkey => hother ?_
    rcases hentered.puts x hx with ⟨denom, -, total, rfl⟩ | ⟨count, rfl⟩
    · rw [← hsource, ← hdestination, ← Key.trafficOver_isPrefixOf hentered.source.2
        hentered.destination.2 hfits.1 hfits.2]
      exact hkey ▸ hstart
    · -- The count of a route is no traffic.
      obtain rfl : (Key.dispatchCount rc.source rc.destination).bytes = key := hkey
      rw [Key.head?_bytes] at hfront
      exact absurd hfront (by simp [Key.family])

/-- What gets into the statistics was dispatched. -/
theorem receipt?_of_recorded? {rc : Receipt} (h : e.recorded? w = some rc) :
    e.receipt? w = some rc := by
  unfold recorded? at h
  cases hrun : carryOut e.execute e.forward e.payload ⟨w, e.transfer⟩ with
  | error error s => simp [hrun] at h
  | ok p s =>
    obtain ⟨-, -, hleft⟩ := carryOut_ok hrun
    cases hrecord : Statistics.record p.1 p.2 s.world with
    | error error v => simp [hrun, hrecord] at h
    | ok _ v =>
      have hend := run_of_carryOut hrun (attempt_eq_ok.2 (.inl hrecord))
      simp only [receipt?, hend, hleft]
      simpa only [hrun, hrecord] using h

theorem recordings_sublist (w : World) (es : List Errand) :
    (recordings w es).Sublist (receipts w es) := by
  induction es generalizing w with
  | nil => exact .slnil
  | cons e es ih =>
    refine List.Sublist.append ?_ (ih (after w e))
    cases hrecorded : e.recorded? w with
    | none => exact List.nil_sublist _
    | some rc =>
      rw [receipt?_of_recorded? hrecorded]

end Errand

/-- After dispatches from a store without statistics the traffic over a route is listed with just
the denominations that came in or went out in a dispatch recorded over this route, each of them once
and in the order of keys. A listing and a question about one denomination tell the same totals, and
a dispatch over another route does not change the listing. What is recorded is some of what was
dispatched. -/
theorem listed_of_errands {w : World} (hw : w.disk.Readable)
    (hnone : ∀ key, Statistics.IsTotal key → w.disk.store.get? key = none) {es : List Errand}
    (hes : ∀ e ∈ es, e.Honest) {source destination : CrossChainId}
    (hsource : Fits source.counterparty) (hdestination : Fits destination.counterparty) :
    let w' := es.foldl Errand.after w
    (Errand.recordings w es).Sublist (Errand.receipts w es) ∧
    ∃ listing, Statistics.Lists w' source destination listing (fun denom =>
        ∃ rc ∈ Errand.recordings w es, rc.Moves source destination denom) ∧
      ∀ e : Errand, e.Honest → ¬ (e.source = source ∧ e.destination = destination) →
        Statistics.trafficOver source destination (Errand.after w' e) =
          .ok listing (Errand.after w' e) := by
  intro w'
  obtain ⟨hstore, hw'⟩ := Errand.itemizes_run hes hw (.empty hnone)
  obtain ⟨listing, hlists⟩ := Statistics.exists_lists hw' hstore hsource hdestination
  refine ⟨Errand.recordings_sublist w es, listing, hlists, fun e he hother => ?_⟩
  obtain ⟨henters, hreadable⟩ := he.enters hw'
  rw [Statistics.trafficOver_eq_ok hreadable,
    henters.extensions_trafficOver ⟨hsource, hdestination⟩ hother]
  exact (Statistics.trafficOver_eq_ok hw').1 hlists.answered

namespace Testbed

/-- The dispatch of a coin that is swapped. -/
def barter : Errand where
  transfer := .fresh origin coin
  payload :=
    { payload with preActions := [.ofAttributes (.swap ⟨poolCoin.denom, ⟨30, by decide⟩, none⟩)] }
  execute := router.execute
  forward := router.forward

theorem honest_barter : barter.Honest := by
  refine Errand.honest_of_fitted fitted_router ?_ ?_ ?_ ?_ fun action haction denom hdenom => ?_
  case refine_5 =>
    obtain rfl := List.mem_singleton.1 haction
    obtain rfl : denom = poolCoin.denom := hdenom
    decide +kernel
  all_goals decide +kernel

/-- The second of two dispatches finds nothing in the holding account. -/
theorem recordings_barter : Errand.recordings stocked [barter, errand] =
    [⟨origin, ⟨.cctp, "6"⟩, ⟨"uusdc", ⟨100, by decide⟩⟩, ⟨"uatom", ⟨50, by decide⟩⟩⟩] := by
  decide +kernel

theorem listed_barter : ∃ listing, Statistics.Lists ([barter, errand].foldl Errand.after stocked)
    origin ⟨.cctp, "6"⟩ listing fun denom => denom = "uusdc" ∨ denom = "uatom" := by
  have hnone : ∀ key, Statistics.IsTotal key → stocked.disk.store.get? key = none :=
    fun key _ => get?_world key
  have hes : ∀ e ∈ [barter, errand], e.Honest := by
    simpa using ⟨honest_barter, honest_errand⟩
  have hsource : Fits origin.counterparty := by decide +kernel
  have hdestination : Fits (CrossChainId.mk .cctp "6").counterparty := by decide +kernel
  obtain ⟨-, listing, hlists, -⟩ :=
    listed_of_errands (w := stocked) (fun _ _ => rfl) hnone hes hsource hdestination
  refine ⟨listing, hlists.congr fun denom => ?_⟩
  rw [recordings_barter]
  simp [Receipt.Moves, Receipt.Over, eq_comm]

end Testbed

end TransferRouter
