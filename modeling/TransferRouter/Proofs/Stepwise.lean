import TransferRouter.Proofs.Heedless
import TransferRouter.Proofs.Interruption

/-!
A delivery step by step. A host may accept a packet, bring its funds and process its payload by
calls of its own. The recorded payload that a packet names is then completed when the packet is
accepted, while a delivery completes it at the end. Apart from this, both come to the same.
-/

namespace TransferRouter

open Disk (Apart)

/-- The steps of a delivery, each made after the one before it succeeded. -/
def Router.stepwise (r : Router) (source : CrossChainId) (raw : Bytes)
    (receive : RoutedPacket → LedgerM Unit) : RouterM RoutedPacket := do
  let packet ← r.accept source raw
  r.beforeArrival packet
  RouterM.onLedger (receive packet)
  r.afterArrival packet
  let ((), transfer) ← RouterM.staged packet.transfer (r.process packet.payload)
  return ⟨transfer, packet.payload⟩

/-- The same as a passage of a packet that is completed first. -/
theorem Router.stepwise_eq (r : Router) (source : CrossChainId) (raw : Bytes)
    (receive : RoutedPacket → LedgerM Unit) :
    r.stepwise source raw receive = (do
      let p ← r.resolve source raw
      Router.complete p.2
      let transfer ← r.carry p.1 receive
      return ⟨transfer, p.1.payload⟩) := by
  unfold Router.stepwise Router.accept Router.carry Router.arrive
  simp only [bind_assoc, pure_bind]

/-! ## Completion -/

/-- The world with a recorded payload completed. -/
def World.completed (w : World) (h : PayloadHash) (entry : PendingEntry) : World where
  disk := { w.disk with store := w.disk.store.applyAll (Pending.removal entry.timestamp h) }
  books := { w.books with events := w.books.events ++ [.pendingPayloadRemoved h] }
  clock := w.clock

/-- The keys that a recorded payload stands under. -/
def PendingEntry.keysAt (entry : PendingEntry) (h : PayloadHash) : List Bytes :=
  [(Key.pending h).bytes, (Key.pendingByTime entry.timestamp h).bytes]

section

variable {w u v : World} {h : PayloadHash} {entry : PendingEntry}

theorem isRecord_of_mem_keysAt {key : Bytes} (hkey : key ∈ entry.keysAt h) : Key.IsRecord key := by
  rcases List.mem_cons.1 hkey with rfl | hkey
  · exact Key.isRecord_bytes.2 (.inr (.inl rfl))
  · obtain rfl := List.mem_singleton.1 hkey
    exact Key.isRecord_bytes.2 (.inr (.inr rfl))

theorem World.get?_completed (w : World) (h : PayloadHash) (entry : PendingEntry) (key : Bytes) :
    (w.completed h entry).disk.store.get? key =
      if key ∈ entry.keysAt h then none else w.disk.store.get? key :=
  Store.get?_applyAll_deletes w.disk.store (entry.keysAt h) key

theorem Router.complete_run (hw : w.disk.Reliable)
    (hget : Pending.get? h w = .ok (some entry) w) :
    complete (some h) w = .ok () (w.completed h entry) := by
  have htake := Pending.take_of_present hget
  rw [Disk.write_run (hw .batch)] at htake
  exact bind_of_ok htake

theorem World.rid_completed (hw : w.disk.Reliable) (h : PayloadHash) (entry : PendingEntry) :
    w.Rid (entry.keysAt h) w.books.events (w.books.events ++ [.pendingPayloadRemoved h])
      (w.completed h entry) where
  disk := ⟨hw, rfl, w.get?_completed h entry⟩
  books := ⟨rfl, rfl, [], (List.append_nil _).symm, (List.append_nil _).symm⟩
  clock := rfl

/-! ## What comes of it -/

/-- Two worlds that came of `w`: in `v` a recorded payload was completed before anything else was
done, in `u` it was left in the store. -/
structure World.Sooner (w : World) (h : PayloadHash) (entry : PendingEntry) (u v : World) :
    Prop where
  kept : ∀ key ∈ entry.keysAt h, u.disk.store.get? key = w.disk.store.get? key
  disk : v.disk = (u.completed h entry).disk
  totals : ∀ key, Statistics.IsTotal key → v.disk.store.get? key = u.disk.store.get? key
  ledger : v.books.ledger = u.books.ledger
  outbox : v.books.outbox = u.books.outbox
  clock : v.clock = u.clock
  events : ∃ later, u.books.events = w.books.events ++ later ∧
    v.books.events = w.books.events ++ .pendingPayloadRemoved h :: later

/-- The result of the steps of a delivery and the result of the delivery in one, for a packet that
names a recorded payload. -/
inductive Anticipates (h : PayloadHash) (w : World) :
    EStateM.Result RouterError World RoutedPacket → EStateM.Result RouterError World RoutedPacket →
      Prop where
  /-- The packet was not accepted. -/
  | refused (e : RouterError) : Anticipates h w (.error e w) (.error e w)
  /-- A later step failed, with the payload completed by the steps only. -/
  | failed (e : RouterError) {entry : PendingEntry} {u v : World}
    (hget : Pending.get? h w = .ok (some entry) w) (hsooner : w.Sooner h entry u v) :
    Anticipates h w (.error e v) (.error e u)
  /-- The packet was processed, and the delivery completed the payload after that. -/
  | processed (packet : RoutedPacket) {entry : PendingEntry} {u v : World}
    (hget : Pending.get? h w = .ok (some entry) w) (hsooner : w.Sooner h entry u v) :
    Anticipates h w (.ok packet v) (.ok packet (u.completed h entry))

/-- What is completed first and what is completed last, once the same has happened to both. -/
theorem World.sooner_of_rid
    (hrid : u.Rid (entry.keysAt h) w.books.events
      (w.books.events ++ [.pendingPayloadRemoved h]) v)
    (hapart : Apart Key.IsRecord w.disk u.disk) : w.Sooner h entry u v where
  kept key hkey := hapart.get? key (isRecord_of_mem_keysAt hkey)
  disk := by
    have hstore : v.disk.store = (u.completed h entry).disk.store :=
      OrderedMap.ext_get? fun key => (hrid.disk.get? key).trans (u.get?_completed h entry key).symm
    obtain ⟨⟨store, faults⟩, books, clock⟩ := v
    obtain rfl : faults = u.disk.faults := hrid.disk.faults
    obtain rfl : store = _ := hstore
    rfl
  totals key hkey := by
    rw [hrid.disk.get? key, if_neg fun hmem => hkey.not_isRecord (isRecord_of_mem_keysAt hmem)]
  ledger := hrid.books.ledger
  outbox := hrid.books.outbox
  clock := hrid.clock
  events := by
    obtain ⟨later, hevents, hevents'⟩ := hrid.books.events
    refine ⟨later, hevents, hevents'.trans ?_⟩
    rw [List.append_assoc]
    rfl

end

/-! ## The steps and the delivery -/

section

variable {r : Router} {source : CrossChainId} {raw : Bytes} {w : World}

/-- The way of a packet leaves what is recorded alone. -/
theorem Router.apart_carry (r : Router) (packet : RoutedPacket)
    (receive : RoutedPacket → LedgerM Unit) :
    Keeps (World.Within (Apart Key.IsRecord) Anything) (r.carry packet receive) :=
  keeps_carry (actionsKeep_anything r) (forwardersKeep_anything r)
    (Statistics.keeps_record statistics_aside) (fun _ _ _ _ _ => trivial) packet receive

/-- A packet that brings its payload goes the same way in either case. -/
theorem Router.stepwise_inline (receive : RoutedPacket → LedgerM Unit) (hw : w.disk.Readable)
    (hnamed : r.named source raw = none) :
    r.stepwise source raw receive w = r.deliver source raw receive w := by
  rw [stepwise_eq, deliver_eq, passage]
  cases hresolve : r.resolve source raw w with
  | error e u => rw [bind_of_error hresolve, bind_of_error hresolve]
  | ok p u =>
    obtain ⟨packet, pending⟩ := p
    obtain ⟨-, hresolved⟩ := resolve_ok hw hresolve
    obtain rfl : pending = none := hresolved.named.symm.trans hnamed
    rw [bind_of_ok hresolve, bind_of_ok hresolve]
    rfl

theorem Router.anticipates_carry (hr : r.Heedless) (receive : RoutedPacket → LedgerM Unit)
    (hw : w.disk.Reliable) {packet : RoutedPacket} {h : PayloadHash} {entry : PendingEntry}
    (hget : Pending.get? h w = .ok (some entry) w) :
    Anticipates h w
      ((do
        let transfer ← r.carry packet receive
        return RoutedPacket.mk transfer packet.payload) (w.completed h entry))
      ((do
        let transfer ← r.carry packet receive
        complete (some h)
        return RoutedPacket.mk transfer packet.payload) w) := by
  have hparallel := rid_carry (fun _ => isRecord_of_mem_keysAt) hr packet receive w
    (w.completed h entry) (w.rid_completed hw h entry)
  generalize hu : r.carry packet receive w = x at hparallel
  generalize hv : r.carry packet receive (w.completed h entry) = y at hparallel
  cases hparallel with
  | @error u v e hrid =>
    rw [bind_of_error hu, bind_of_error hv]
    exact .failed e hget (World.sooner_of_rid hrid ((r.apart_carry packet receive).error hu).disk)
  | @ok u v transfer hrid =>
    have hapart := ((r.apart_carry packet receive).ok hu).disk
    have hcomplete := complete_run (hapart.reliable hw) ((get?_of_apart hapart hw.readable).2 hget)
    rw [bind_of_ok hu, bind_of_ok hv, bind_of_ok hcomplete]
    exact .processed _ hget (World.sooner_of_rid hrid hapart)

theorem Router.anticipates_deliver (hr : r.Heedless) (receive : RoutedPacket → LedgerM Unit)
    (hw : w.disk.Reliable) {h : PayloadHash} (hnamed : r.named source raw = some h) :
    Anticipates h w (r.stepwise source raw receive w) (r.deliver source raw receive w) := by
  rw [stepwise_eq, deliver_eq, passage]
  cases hresolve : r.resolve source raw w with
  | error e u =>
    obtain rfl : u = w :=
      ((keeps_resolve (D := Disk.Still) (B := Eq) r source raw).error hresolve).eq hw.readable
    rw [bind_of_error hresolve, bind_of_error hresolve]
    exact .refused e
  | ok p u =>
    obtain ⟨packet, pending⟩ := p
    obtain ⟨rfl, hresolved⟩ := resolve_ok hw.readable hresolve
    obtain rfl : pending = some h := hresolved.named.symm.trans hnamed
    obtain ⟨entry, hget, -⟩ := hresolved.recorded h rfl
    rw [bind_of_ok hresolve, bind_of_ok hresolve, bind_of_ok (complete_run hw hget)]
    exact anticipates_carry hr receive hw hget

end

/-- The steps of a delivery come to the same as the delivery in one: exactly for a packet that
brings its payload, and but for the time of the completion for one that names it. -/
theorem Router.stepwise_agrees (r : Router) (hr : r.Heedless) (source : CrossChainId) (raw : Bytes)
    (receive : RoutedPacket → LedgerM Unit) (w : World) (hw : w.disk.Reliable) :
    (r.named source raw = none →
      r.stepwise source raw receive w = r.deliver source raw receive w) ∧
    ∀ h, r.named source raw = some h →
      Anticipates h w (r.stepwise source raw receive w) (r.deliver source raw receive w) :=
  ⟨stepwise_inline receive hw.readable, fun _ => anticipates_deliver hr receive hw⟩

namespace Testbed

/-- The testbed with the payload recorded. -/
def recorded : World :=
  { world with disk :=
      { world.disk with store := world.disk.store.applyAll (Pending.recording entry 1) } }

/-- Where the funds do not arrive, the steps have completed the payload and the delivery has not. -/
theorem stepwise_unfunded :
    (redeemer.Heedless ∧ recorded.disk.Reliable ∧ redeemer.named origin [] = some entry.hash) ∧
    Anticipates entry.hash recorded (redeemer.stepwise origin [] (fun _ => pure ()) recorded)
      (redeemer.deliver origin [] (fun _ => pure ()) recorded) ∧
    (leaves (redeemer.stepwise origin [] fun _ => pure ()) recorded).disk.store.contains
      (Key.pending entry.hash).bytes = false ∧
    (leaves (redeemer.deliver origin [] fun _ => pure ()) recorded).disk.store.contains
      (Key.pending entry.hash).bytes = true := by
  have hr : redeemer.Heedless := (wired_carrier _).heedless
  have hw : recorded.disk.Reliable := fun _ => rfl
  refine ⟨⟨hr, hw, rfl⟩, ?_, ?_, ?_⟩
  · exact (redeemer.stepwise_agrees hr origin [] (fun _ => pure ()) recorded hw).2 _ rfl
  · decide +kernel
  · decide +kernel

end Testbed

end TransferRouter
