import TransferRouter.Proofs.Effect

/-!
What the answer to a delivery tells. A packet that is answered for went out exactly once, was
reported, and what it named is completed. A packet that is refused leaves no trace, with one
exception: where the medium refuses the completing batch, the packet is out already.
-/

namespace TransferRouter

open Books (Quiet)
open Disk (Apart Still)
open Transfer (SameSource)

def RoutedPacket.shipment (p : RoutedPacket) : Shipment :=
  ⟨p.payload.forwarding.protocol, ⟨p.transfer, p.payload.forwarding⟩⟩

section

variable {r : Router} {payload : Payload}

/-! ## Forwarding -/

/-- A world after something was sent. -/
structure World.Sent (shipment : Shipment) (w w' : World) : Prop where
  disk : Apart Key.IsRecord w.disk w'.disk
  outbox : w'.books.outbox = w.books.outbox ++ [shipment]
  reports : w.books.SameReports Event.isOutcome w'.books

theorem Router.forward_ok (hr : r.Faithful) {packet : ForwardingPacket} {w w' : World}
    (hw : w.disk.Readable) (hs : r.forward packet w = .ok () w') :
    w.Sent ⟨packet.forwarding.protocol, packet⟩ w' := by
  rw [forward_eq] at hs
  obtain ⟨c, u, hprepare, hs₁⟩ := bind_eq_ok.1 hs
  obtain rfl := ((keeps_prepare (D := Still) (B := Eq) r packet).ok hprepare).eq hw
  obtain ⟨b, hsend, rfl⟩ := zoom_eq_ok.1 hs₁
  obtain ⟨hreports, houtbox⟩ := hr.sent _ c (prepare_ok hprepare).routed packet _ b hsend
  exact ⟨refl_of (Apart Key.IsRecord) _, houtbox, hreports⟩

theorem Router.forward_error (hr : r.Faithful) {packet : ForwardingPacket} {w w' : World}
    {e : RouterError} (hw : w.disk.Readable) (hs : r.forward packet w = .error e w') :
    World.Within Still (Quiet Event.isOutcome) w w' := by
  rw [forward_eq] at hs
  rcases bind_eq_error.1 hs with hprepare | ⟨c, u, hprepare, hs₁⟩
  · exact (keeps_prepare r packet).error hprepare
  · obtain rfl := ((keeps_prepare (D := Still) (B := Eq) r packet).ok hprepare).eq hw
    obtain ⟨_, b, hsend, -, rfl⟩ := zoom_eq_error.1 hs₁
    exact ⟨refl_of Still _, hr.refused _ c (prepare_ok hprepare).routed packet _ _ b hsend, rfl⟩

/-! ## Dispatch -/

/-- All that comes before the forwarding of a payload. -/
def Router.ready (r : Router) (payload : Payload) : StageM CrossChainId := do
  checked (← get).transfer.check
  checked payload.check
  let destination ← checked payload.forwarding.destination
  executeAll r.execute payload.preActions
  return destination

def Router.release (r : Router) (payload : Payload) (destination : CrossChainId) :
    StageM Unit := do
  let transfer := (← get).transfer
  wrapping (.forwardingFailed payload.forwarding.protocol)
    (StageM.onWorld (r.forward ⟨transfer, payload.forwarding⟩))
  StageM.onWorld (RouterM.attempt (Statistics.record transfer destination))

theorem Router.dispatch_eq (r : Router) (payload : Payload) :
    r.dispatch payload = r.ready payload >>= r.release payload := by
  unfold Router.dispatch TransferRouter.dispatch Router.ready Router.release
  simp only [bind_assoc, pure_bind]

theorem Router.keeps_ready (hr : r.Faithful) (payload : Payload) :
    Keeps (Stage.Within Still (Quiet Event.isOutcome) SameSource) (r.ready payload) :=
  Keeps.get.bind fun _ => (Keeps.checked _).bind fun _ => (Keeps.checked _).bind fun _ =>
    (Keeps.checked _).bind fun _ => (keeps_executeAll hr.actions _).bind fun _ => Keeps.pure _

/-- What is in order is ready when its pre-actions are. -/
theorem Router.ready_run {s : Stage} {destination : CrossChainId}
    (htransfer : s.transfer.check = .ok ()) (hpayload : payload.check = .ok ())
    (hdestination : payload.forwarding.destination = .ok destination) :
    r.ready payload s =
      (executeAll r.execute payload.preActions >>= fun _ => pure destination) s := by
  refine (bind_of_ok rfl).trans ((bind_of_ok (checked_run htransfer s)).trans ?_)
  exact (bind_of_ok (checked_run hpayload s)).trans (bind_of_ok (checked_run hdestination s))

theorem Router.ready_eq_ok {s s' : Stage} {destination : CrossChainId} :
    r.ready payload s = .ok destination s' ↔
      s.transfer.check = .ok () ∧ payload.check = .ok () ∧
        payload.forwarding.destination = .ok destination ∧
          executeAll r.execute payload.preActions s = .ok () s' := by
  constructor
  · intro h
    obtain ⟨_, u, hget, h₁⟩ := bind_eq_ok.1 h
    obtain ⟨rfl, rfl⟩ := get_eq_ok.1 hget
    obtain ⟨_, u, htransfer, h₂⟩ := bind_eq_ok.1 h₁
    obtain ⟨htransfer', rfl⟩ := settle_eq_ok.1 htransfer
    obtain ⟨_, u, hpayload, h₃⟩ := bind_eq_ok.1 h₂
    obtain ⟨hpayload', rfl⟩ := settle_eq_ok.1 hpayload
    obtain ⟨_, u, hdestination, h₄⟩ := bind_eq_ok.1 h₃
    obtain ⟨hdestination', rfl⟩ := settle_eq_ok.1 hdestination
    obtain ⟨_, u, hactions, h₅⟩ := bind_eq_ok.1 h₄
    obtain ⟨rfl, rfl⟩ := pure_eq_ok.1 h₅
    exact ⟨htransfer', hpayload', hdestination', hactions⟩
  · rintro ⟨htransfer, hpayload, hdestination, hactions⟩
    rw [ready_run htransfer hpayload hdestination]
    exact bind_eq_ok.2 ⟨(), s', hactions, rfl⟩

theorem Router.release_eq_ok {s s' : Stage} {destination : CrossChainId} :
    r.release payload destination s = .ok () s' ↔
      ∃ w₁ w₂, r.forward ⟨s.transfer, payload.forwarding⟩ s.world = .ok () w₁ ∧
        RouterM.attempt (Statistics.record s.transfer destination) w₁ = .ok () w₂ ∧
          s' = ⟨w₂, s.transfer⟩ := by
  constructor
  · intro h
    obtain ⟨_, u, hget, h₁⟩ := bind_eq_ok.1 h
    obtain ⟨rfl, rfl⟩ := get_eq_ok.1 hget
    obtain ⟨_, u, hwrapped, h₂⟩ := bind_eq_ok.1 h₁
    obtain ⟨_, hworld, rfl⟩ := zoom_eq_ok.1 hwrapped
    obtain ⟨w₁, hforward, rfl⟩ := zoom_eq_ok.1 hworld
    obtain ⟨w₂, hattempt, rfl⟩ := zoom_eq_ok.1 h₂
    exact ⟨w₁, w₂, hforward, hattempt, rfl⟩
  · rintro ⟨w₁, w₂, hforward, hattempt, rfl⟩
    refine bind_eq_ok.2 ⟨s, s, rfl, bind_eq_ok.2 ⟨(), ⟨w₁, s.transfer⟩, ?_, ?_⟩⟩
    · exact zoom_eq_ok.2 ⟨_, zoom_eq_ok.2 ⟨w₁, hforward, rfl⟩, rfl⟩
    · exact zoom_eq_ok.2 ⟨w₂, hattempt, rfl⟩

/-- Once the packet is out, nothing fails. -/
theorem Router.release_error {s s' : Stage} {destination : CrossChainId} {e : RouterError}
    (h : r.release payload destination s = .error e s') :
    ∃ e', r.forward ⟨s.transfer, payload.forwarding⟩ s.world = .error e' s'.world := by
  rcases bind_eq_error.1 h with hget | ⟨_, u, hget, h₁⟩
  · exact (get_ne_error hget).elim
  obtain ⟨rfl, rfl⟩ := get_eq_ok.1 hget
  rcases bind_eq_error.1 h₁ with hwrapped | ⟨_, v, -, h₂⟩
  · obtain ⟨_, _, hworld, -, rfl⟩ := zoom_eq_error.1 hwrapped
    obtain ⟨e', w, hforward, -, rfl⟩ := zoom_eq_error.1 hworld
    exact ⟨e', hforward⟩
  · obtain ⟨_, w, hattempt, -, -⟩ := zoom_eq_error.1 h₂
    exact (attempt_ne_error hattempt).elim

/-- The statistics of a dispatch are kept or not; either way the books and the recorded payloads
stay as they are. -/
theorem attempt_record {transfer : Transfer} {destination : CrossChainId} {w w' : World}
    (hs : RouterM.attempt (Statistics.record transfer destination) w = .ok () w') :
    World.Within (Apart Key.IsRecord) Eq w w' :=
  (Keeps.attempt (Statistics.keeps_record statistics_aside transfer destination)).ok hs

/-- A dispatch that succeeds leaves the source of its transfer alone and has a destination. -/
theorem Router.dispatch_endpoints (hr : r.Faithful) {s s' : Stage}
    (h : r.dispatch payload s = .ok () s') :
    SameSource s.transfer s'.transfer ∧
      ∃ destination, payload.forwarding.destination = .ok destination := by
  rw [dispatch_eq] at h
  obtain ⟨destination, u, hready, h₁⟩ := bind_eq_ok.1 h
  obtain ⟨-, -, hdestination, -⟩ := ready_eq_ok.1 hready
  obtain ⟨_, _, -, -, rfl⟩ := release_eq_ok.1 h₁
  exact ⟨((keeps_ready hr payload).ok hready).transfer, destination, hdestination⟩

/-- A dispatch that succeeds sends one packet, with the transfer that it leaves. -/
theorem Router.dispatch_ok (hr : r.Faithful) {s s' : Stage} (hs : s.world.disk.Readable)
    (h : r.dispatch payload s = .ok () s') :
    s.world.Sent (RoutedPacket.shipment ⟨s'.transfer, payload⟩) s'.world := by
  rw [dispatch_eq] at h
  obtain ⟨destination, u, hready, h₁⟩ := bind_eq_ok.1 h
  have hworld := ((keeps_ready hr payload).ok hready).world
  have hdisk : u.world.disk = s.world.disk := hworld.disk hs
  obtain ⟨w₁, w₂, hforward, hattempt, rfl⟩ := release_eq_ok.1 h₁
  have hsent : u.world.Sent (RoutedPacket.shipment ⟨u.transfer, payload⟩) w₁ :=
    forward_ok hr (hdisk ▸ hs) hforward
  have hkept := attempt_record hattempt
  refine ⟨?_, ?_, ?_⟩
  · exact trans_of (Apart Key.IsRecord) (hdisk ▸ hsent.disk) hkept.disk
  · rw [← hkept.books, hsent.outbox, hworld.books.outbox]
  · have hreports := trans_of (Books.SameReports Event.isOutcome) hworld.books.events hsent.reports
    exact hkept.books ▸ hreports

theorem Router.dispatch_error (hr : r.Faithful) {s s' : Stage} (hs : s.world.disk.Readable)
    {e : RouterError} (h : r.dispatch payload s = .error e s') :
    World.Within Still (Quiet Event.isOutcome) s.world s'.world := by
  rw [dispatch_eq] at h
  rcases bind_eq_error.1 h with hready | ⟨destination, u, hready, h₁⟩
  · exact ((keeps_ready hr payload).error hready).world
  have hworld := ((keeps_ready hr payload).ok hready).world
  have hdisk : u.world.disk = s.world.disk := hworld.disk hs
  obtain ⟨e', hforward⟩ := release_error h₁
  exact trans_of (World.Within Still (Quiet Event.isOutcome)) hworld
    (forward_error hr (hdisk ▸ hs) hforward)

/-! ## The way to the report of a dispatch -/

/-- A world after a packet from an endpoint was sent and its dispatch reported. -/
structure World.Dispatched (source : CrossChainId) (packet : RoutedPacket) (w w' : World) :
    Prop where
  disk : Apart Key.IsRecord w.disk w'.disk
  outbox : w'.books.outbox = w.books.outbox ++ [packet.shipment]
  reports : ∃ destination, packet.payload.forwarding.destination = .ok destination ∧
    w'.books.events.filter Event.isOutcome = w.books.events.filter Event.isOutcome ++
      [.payloadProcessed source destination packet.transfer.sourceCoin
        packet.transfer.destinationCoin]

theorem Router.process_eq_ok {s s' : Stage} :
    r.process payload s = .ok () s' ↔
      ∃ u source destination, r.dispatch payload s = .ok () u ∧ u.transfer.source = .ok source ∧
        payload.forwarding.destination = .ok destination ∧
          s' = ⟨{ u.world with books := { u.world.books with events := u.world.books.events ++
            [.payloadProcessed source destination s.transfer.sourceCoin
              u.transfer.destinationCoin] } }, u.transfer⟩ := by
  constructor
  · intro h
    obtain ⟨_, u, hget, h₁⟩ := bind_eq_ok.1 h
    obtain ⟨rfl, rfl⟩ := get_eq_ok.1 hget
    obtain ⟨_, u, hdispatch, h₂⟩ := bind_eq_ok.1 h₁
    obtain ⟨_, v, hget', h₃⟩ := bind_eq_ok.1 h₂
    obtain ⟨rfl, rfl⟩ := get_eq_ok.1 hget'
    obtain ⟨source, v, hchecked, h₄⟩ := bind_eq_ok.1 h₃
    obtain ⟨hsource, rfl⟩ := settle_eq_ok.1 hchecked
    obtain ⟨destination, v, hchecked', h₅⟩ := bind_eq_ok.1 h₄
    obtain ⟨hdestination, rfl⟩ := settle_eq_ok.1 hchecked'
    obtain ⟨w₁, hemit, rfl⟩ := zoom_eq_ok.1 h₅
    rw [emit_run] at hemit
    obtain ⟨-, rfl⟩ := EStateM.Result.ok.inj hemit
    exact ⟨u, source, destination, hdispatch, hsource, hdestination, rfl⟩
  · rintro ⟨u, source, destination, hdispatch, hsource, hdestination, rfl⟩
    exact bind_eq_ok.2 ⟨s, s, rfl, bind_eq_ok.2 ⟨(), u, hdispatch, bind_eq_ok.2 ⟨u, u, rfl,
      bind_eq_ok.2 ⟨source, u, checked_run hsource u,
        bind_eq_ok.2 ⟨destination, u, checked_run hdestination u, rfl⟩⟩⟩⟩⟩

theorem Router.process_ok (hr : r.Faithful) {s s' : Stage} (hs : s.world.disk.Readable)
    {source : CrossChainId} (hsource : s.transfer.source = .ok source)
    (h : r.process payload s = .ok () s') :
    s.world.Dispatched source ⟨s'.transfer, payload⟩ s'.world := by
  obtain ⟨u, source', destination, hdispatch, hsource', hdestination, rfl⟩ := process_eq_ok.1 h
  obtain ⟨htransfer, -⟩ := dispatch_endpoints hr hdispatch
  have hsent := dispatch_ok hr hs hdispatch
  obtain rfl : source' = source :=
    Except.ok.inj (hsource'.symm.trans (htransfer.endpoint.trans hsource))
  refine ⟨hsent.disk, hsent.outbox, destination, hdestination, ?_⟩
  rw [List.filter_append, hsent.reports, ← htransfer.coin]
  rfl

/-- A packet whose dispatch succeeds is reported. -/
theorem Router.dispatch_of_process_error (hr : r.Faithful) {s s' : Stage} {source : CrossChainId}
    (hsource : s.transfer.source = .ok source) {e : RouterError}
    (h : r.process payload s = .error e s') : r.dispatch payload s = .error e s' := by
  rcases bind_eq_error.1 h with hget | ⟨_, u, hget, h₁⟩
  · exact (get_ne_error hget).elim
  obtain ⟨rfl, rfl⟩ := get_eq_ok.1 hget
  rcases bind_eq_error.1 h₁ with hdispatch | ⟨_, u, hdispatch, h₂⟩
  · exact hdispatch
  -- Once the packet is out, both endpoints are known to be in order and the report cannot fail.
  obtain ⟨htransfer, destination, hdestination⟩ := dispatch_endpoints hr hdispatch
  rcases bind_eq_error.1 h₂ with hget' | ⟨_, v, hget', h₃⟩
  · exact (get_ne_error hget').elim
  obtain ⟨rfl, rfl⟩ := get_eq_ok.1 hget'
  rw [bind_of_ok (checked_run (htransfer.endpoint.trans hsource) _),
    bind_of_ok (checked_run hdestination _)] at h₃
  obtain ⟨_, w₁, hemit, -, -⟩ := zoom_eq_error.1 h₃
  exact (emit_ne_error hemit).elim

theorem Router.process_error (hr : r.Faithful) {s s' : Stage} (hs : s.world.disk.Readable)
    {source : CrossChainId} (hsource : s.transfer.source = .ok source) {e : RouterError}
    (h : r.process payload s = .error e s') :
    World.Within Still (Quiet Event.isOutcome) s.world s'.world :=
  dispatch_error hr hs (dispatch_of_process_error hr hsource h)

theorem World.Dispatched.of_within {source : CrossChainId} {packet : RoutedPacket} {w u w' : World}
    (hu : World.Within Still (Quiet Event.isOutcome) w u) (hw : w.disk.Readable)
    (h : u.Dispatched source packet w') : w.Dispatched source packet w' := by
  obtain ⟨destination, hdestination, hreports⟩ := h.reports
  refine ⟨hu.disk hw ▸ h.disk, ?_, destination, hdestination, ?_⟩
  · rw [h.outbox, hu.books.outbox]
  · rw [hreports, hu.books.events]

theorem Router.carry_eq_ok {packet : RoutedPacket} {receive : RoutedPacket → LedgerM Unit}
    {transfer : Transfer} {w w' : World} :
    r.carry packet receive w = .ok transfer w' ↔ ∃ u, r.arrive packet receive w = .ok () u ∧
      r.process packet.payload ⟨u, packet.transfer⟩ = .ok () ⟨w', transfer⟩ := by
  constructor
  · intro h
    obtain ⟨_, u, harrive, h₁⟩ := bind_eq_ok.1 h
    obtain ⟨p, v, hstaged, h₂⟩ := bind_eq_ok.1 h₁
    obtain ⟨rfl, rfl⟩ := pure_eq_ok.1 h₂
    exact ⟨u, harrive, staged_eq_ok.1 hstaged⟩
  · rintro ⟨u, harrive, hprocess⟩
    have hstaged : RouterM.staged packet.transfer (r.process packet.payload) u =
        .ok ((), transfer) w' :=
      staged_eq_ok.2 hprocess
    exact bind_eq_ok.2 ⟨(), u, harrive, bind_eq_ok.2 ⟨_, w', hstaged, rfl⟩⟩

theorem Router.carry_ok (hr : r.Faithful) {packet : RoutedPacket}
    {receive : RoutedPacket → LedgerM Unit} {transfer : Transfer} {w w' : World}
    (hw : w.disk.Readable) {source : CrossChainId} (hsource : packet.transfer.source = .ok source)
    (h : r.carry packet receive w = .ok transfer w') :
    w.Dispatched source ⟨transfer, packet.payload⟩ w' := by
  obtain ⟨u, harrive, hprocess⟩ := carry_eq_ok.1 h
  have hu := (keeps_arrive (D := Still) (B := Quiet Event.isOutcome) r packet receive).ok harrive
  have hdispatched := process_ok (s := ⟨u, packet.transfer⟩) hr ((hu.disk hw) ▸ hw) hsource hprocess
  exact hdispatched.of_within hu hw

theorem Router.carry_error (hr : r.Faithful) {packet : RoutedPacket}
    {receive : RoutedPacket → LedgerM Unit} {w w' : World} (hw : w.disk.Readable)
    {source : CrossChainId} (hsource : packet.transfer.source = .ok source) {e : RouterError}
    (h : r.carry packet receive w = .error e w') :
    World.Within Still (Quiet Event.isOutcome) w w' := by
  rcases bind_eq_error.1 h with harrive | ⟨_, u, harrive, h₁⟩
  · exact (keeps_arrive r packet receive).error harrive
  have hu := (keeps_arrive (D := Still) (B := Quiet Event.isOutcome) r packet receive).ok harrive
  rcases bind_eq_error.1 h₁ with hstaged | ⟨p, v, -, h₂⟩
  · obtain ⟨transfer, hprocess⟩ := staged_eq_error.1 hstaged
    have hkept := process_error (s := ⟨u, packet.transfer⟩) hr ((hu.disk hw) ▸ hw) hsource hprocess
    exact trans_of (World.Within Still (Quiet Event.isOutcome)) hu hkept
  · exact (pure_ne_error h₂).elim

/-! ## How a delivery ends -/

/-- The ways in which a delivery can end on a medium that refuses nothing but batches. -/
inductive Router.Ending (r : Router) (source : CrossChainId) (raw : Bytes) (w : World) :
    Except RouterError RoutedPacket → World → Prop
  | refused {e : RouterError} {w' : World} (h : World.Within Still (Quiet Event.isOutcome) w w') :
    Ending r source raw w (.error e) w'
  | carried {packet : RoutedPacket} {w' : World} (hnamed : r.named source raw = none)
    (hsent : w.Dispatched source packet w') : Ending r source raw w (.ok packet) w'
  | completed {packet : RoutedPacket} {h : PayloadHash} {entry : PendingEntry} {u : World}
    {d : Disk} (hnamed : r.named source raw = some h) (hsent : w.Dispatched source packet u)
    (hget : Pending.get? h w = .ok (some entry) w)
    (hwrite : Disk.write (Pending.removal entry.timestamp h) u.disk = .ok () d) :
    Ending r source raw w (.ok packet) { u with
      disk := d
      books := { u.books with events := u.books.events ++ [.pendingPayloadRemoved h] } }
  | interrupted {e : RouterError} {packet : RoutedPacket} {h : PayloadHash} {entry : PendingEntry}
    {u : World} {d : Disk} {fault : StoreFault} (hnamed : r.named source raw = some h)
    (hsent : w.Dispatched source packet u) (hget : Pending.get? h w = .ok (some entry) w)
    (hwrite : Disk.write (Pending.removal entry.timestamp h) u.disk = .error fault d) :
    Ending r source raw w (.error e) { u with disk := d }

/-- What a delivery has read of a recorded payload is still there when the packet is out. -/
theorem World.Dispatched.get? {source : CrossChainId} {packet : RoutedPacket} {w u : World}
    (hsent : w.Dispatched source packet u) (hw : w.disk.Readable) {h : PayloadHash}
    {entry : PendingEntry} (hget : Pending.get? h w = .ok (some entry) w) :
    Pending.get? h u = .ok (some entry) u :=
  (get?_of_apart hsent.disk hw).2 hget

/-- On a medium that never fails, what a packet names is completed once the packet is out. -/
theorem Router.Resolved.complete_run {source source' : CrossChainId} {raw : Bytes}
    {parsed packet : RoutedPacket} {pending : Option PayloadHash} {w u : World}
    (h : r.Resolved source raw w parsed pending) (hw : w.disk.Reliable)
    (hsent : w.Dispatched source' packet u) : ∃ w', complete pending u = .ok () w' := by
  cases pending with
  | none => exact ⟨u, rfl⟩
  | some g =>
    obtain ⟨entry, hget, -⟩ := h.recorded g rfl
    have htake := Pending.take_of_present (hsent.get? hw.readable hget)
    rw [Disk.write_run (hsent.disk.reliable hw .batch)] at htake
    exact ⟨_, bind_eq_ok.2 ⟨entry, _, htake, rfl⟩⟩

theorem Router.ending_of_ok (hr : r.Faithful) {source : CrossChainId} {raw : Bytes}
    {receive : RoutedPacket → LedgerM Unit} {packet : RoutedPacket} {w w' : World}
    (hw : w.disk.Readable) (h : r.deliver source raw receive w = .ok packet w') :
    r.Ending source raw w (.ok packet) w' := by
  rw [deliver_eq] at h
  obtain ⟨parsed, pending, transfer, u, hresolved, hcarry, hcomplete, rfl⟩ := passage_ok hw h
  have hsent := carry_ok hr hw hresolved.source hcarry
  rcases complete_ok hcomplete with ⟨rfl, rfl⟩ | ⟨g, taken, rfl, htake⟩
  · exact .carried hresolved.named hsent
  obtain ⟨entry, hget, -⟩ := hresolved.recorded g rfl
  rw [Pending.take_of_present (hsent.get? hw hget)] at htake
  cases hwrite : Disk.write (Pending.removal entry.timestamp g) u.disk with
  | ok _ d =>
    rw [hwrite] at htake
    obtain ⟨rfl, rfl⟩ := EStateM.Result.ok.inj htake
    exact .completed hresolved.named hsent hget hwrite
  | error fault d =>
    rw [hwrite] at htake
    exact absurd htake nofun

/-- A delivery that fails did so before anything was sent, or when the recorded payload was to be
completed. -/
theorem Router.ending_of_error (hr : r.Faithful) {source : CrossChainId} {raw : Bytes}
    {receive : RoutedPacket → LedgerM Unit} {e : RouterError} {w w' : World}
    (hw : w.disk.Readable) (h : r.deliver source raw receive w = .error e w') :
    r.Ending source raw w (.error e) w' := by
  rw [deliver_eq] at h
  rcases passage_error hw h with
    rfl | ⟨parsed, pending, hresolve, hcarry⟩
  · exact .refused (refl_of (World.Within Still (Quiet Event.isOutcome)) w')
  obtain ⟨-, hresolved⟩ := resolve_ok hw hresolve
  rcases hcarry with hcarry | ⟨transfer, u, hcarry, hcomplete⟩
  · exact .refused (carry_error hr hw hresolved.source hcarry)
  have hsent := carry_ok hr hw hresolved.source hcarry
  obtain ⟨g, rfl, htake⟩ := complete_error hcomplete
  obtain ⟨entry, hget, -⟩ := hresolved.recorded g rfl
  rw [Pending.take_of_present (hsent.get? hw hget)] at htake
  cases hwrite : Disk.write (Pending.removal entry.timestamp g) u.disk with
  | ok _ d =>
    rw [hwrite] at htake
    exact absurd htake nofun
  | error fault d =>
    rw [hwrite] at htake
    obtain ⟨rfl, rfl⟩ := EStateM.Result.error.inj htake
    exact .interrupted hresolved.named hsent hget hwrite

end

/-! ## What the answer tells -/

/-- A world after a packet was answered for: it went out once and its dispatch was reported once,
and the recorded payload that it names was there before and is gone. -/
structure Router.Delivered (r : Router) (source : CrossChainId) (raw : Bytes)
    (packet : RoutedPacket) (w w' : World) : Prop where
  outbox : w'.books.outbox = w.books.outbox ++ [packet.shipment]
  reports : ∃ destination, packet.payload.forwarding.destination = .ok destination ∧
    w'.books.events.filter Event.isOutcome = w.books.events.filter Event.isOutcome ++
      .payloadProcessed source destination packet.transfer.sourceCoin
        packet.transfer.destinationCoin ::
          (r.named source raw).toList.map .pendingPayloadRemoved
  completed : ∀ h ∈ r.named source raw, ∃ entry, Pending.get? h w = .ok (some entry) w ∧
    w'.disk.store.contains (Key.pending h).bytes = false ∧
      w'.disk.store.contains (Key.pendingByTime entry.timestamp h).bytes = false

/-- A world after a packet was refused: nothing was written, sent or reported, apart from reports on
the way of the funds. -/
structure World.Untouched (w w' : World) : Prop where
  disk : w'.disk = w.disk
  outbox : w'.books.outbox = w.books.outbox
  reports : w'.books.events.filter Event.isOutcome = w.books.events.filter Event.isOutcome

theorem contains_removal (s : Store) (timestamp : UInt64) (h : PayloadHash) {key : Bytes}
    (hkey : key ∈ [(Key.pending h).bytes, (Key.pendingByTime timestamp h).bytes]) :
    (s.applyAll (Pending.removal timestamp h)).contains key = false := by
  have hremoval : Pending.removal timestamp h =
    [(Key.pending h).bytes, (Key.pendingByTime timestamp h).bytes].map .delete := rfl
  rw [OrderedMap.contains_eq_false_iff, hremoval, Store.get?_applyAll_deletes, if_pos hkey]

/-- The answer to a delivery tells the truth: a packet that is answered for was delivered, and one
that is refused leaves the store, the outbox and the reports of outcomes as they were. -/
theorem outcome_of_deliver (r : Router) (w : World) (source : CrossChainId) (raw : Bytes)
    (receive : RoutedPacket → LedgerM Unit) (hr : r.Wired) (hw : w.disk.Reliable) :
    match r.deliver source raw receive w with
    | .ok packet w' => r.Delivered source raw packet w w'
    | .error _ w' => w.Untouched w' := by
  cases hrun : r.deliver source raw receive w with
  | ok packet w' =>
    cases Router.ending_of_ok hr.faithful hw.readable hrun with
    | carried hnamed hsent =>
      refine ⟨hsent.outbox, ?_, fun h hh => ?_⟩
      · rw [hnamed]
        exact hsent.reports
      · rw [hnamed] at hh
        exact absurd hh nofun
    | @completed _ g entry u d hnamed hsent hget hwrite =>
      obtain ⟨destination, hdestination, hreports⟩ := hsent.reports
      refine ⟨hsent.outbox, ⟨destination, hdestination, ?_⟩, fun h hh => ?_⟩
      · rw [List.filter_append, hreports, hnamed, List.append_assoc]
        rfl
      · obtain rfl : g = h := Option.some.inj (hnamed.symm.trans hh)
        have hstore : d.store = _ := (Disk.write_ok hwrite).1
        refine ⟨entry, hget, ?_, ?_⟩
        · exact hstore ▸ contains_removal _ _ g List.mem_cons_self
        · exact hstore ▸ contains_removal _ _ g (List.mem_cons_of_mem _ List.mem_cons_self)
  | error e w' =>
    cases Router.ending_of_error hr.faithful hw.readable hrun with
    | refused h => exact ⟨h.disk hw.readable, h.books.outbox, h.books.events⟩
    | interrupted hnamed hsent hget hwrite =>
      rw [Disk.write_run (hsent.disk.reliable hw .batch)] at hwrite
      exact absurd hwrite nofun

theorem Testbed.delivered_parcel : ∃ packet w',
    (carrier ⟨coin, .inline payload⟩).deliver origin [] receive world = .ok packet w' ∧
      (carrier ⟨coin, .inline payload⟩).Delivered origin [] packet world w' := by
  have h := outcome_of_deliver (carrier ⟨coin, .inline payload⟩) world origin [] receive
    (wired_carrier _) reliable_world
  have hok : ∃ packet w', (carrier ⟨coin, .inline payload⟩).deliver origin [] receive world =
      .ok packet w' := ⟨_, _, rfl⟩
  obtain ⟨packet, w', hrun⟩ := hok
  rw [hrun] at h
  exact ⟨packet, w', hrun, h⟩

end TransferRouter
