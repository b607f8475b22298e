import TransferRouter.Proofs.Effect
import TransferRouter.Proofs.Parallel

/-!
What the way of a packet takes no heed of. From the clearing of the holding account to the report of
the dispatch, nothing looks at what is recorded or at the reports made before. So it goes the same
way when what it names was removed and reported beforehand.
-/

namespace TransferRouter

/-! ## What may differ -/

/-- Media that never fail, the second without some keys of recorded payloads. -/
structure Disk.Without (gone : List Bytes) (d d' : Disk) : Prop where
  reliable : d.Reliable
  faults : d'.faults = d.faults
  get? : ∀ key, d'.store.get? key = if key ∈ gone then none else d.store.get? key

/-- Books with the same balances and shipments and the same reports since those made before. -/
structure Books.Since (past past' : List Event) (b b' : Books) : Prop where
  ledger : b'.ledger = b.ledger
  outbox : b'.outbox = b.outbox
  events : ∃ later, b.events = past ++ later ∧ b'.events = past' ++ later

theorem Disk.Without.reliable' {gone : List Bytes} {d d' : Disk} (h : d.Without gone d') :
    d'.Reliable :=
  fun call => h.faults ▸ h.reliable call

/-! ## Parts of the state -/

section

variable {D : Disk → Disk → Prop} {B : Books → Books → Prop} {α : Type}

namespace Respects

theorem onDisk {act : DiskM α} (h : Respects D act) :
    Respects (World.Within D B) (RouterM.onDisk act) := by
  apply h.zoom
  · exact fun _ _ h => h.disk
  · exact fun _ _ _ _ h hd => ⟨hd, h.books, h.clock⟩

theorem onBooks {act : BooksM α} (h : Respects B act) :
    Respects (World.Within D B) (RouterM.onBooks act) := by
  apply h.zoom
  · exact fun _ _ h => h.books
  · exact fun _ _ _ _ h hb => ⟨h.disk, hb, h.clock⟩

theorem onWorkbench {act : WorkbenchM α}
    (h : Respects (Workbench.Beside (fun _ => True) B) act) :
    Respects (Stage.Within D B Eq) (StageM.onWorkbench act) := by
  apply h.zoom
  · exact fun _ _ h => ⟨h.world.books, h.transfer.symm, trivial⟩
  · exact fun _ _ _ _ h hs => ⟨⟨h.world.disk, hs.books, h.world.clock⟩, hs.transfer.symm⟩

end Respects

end

/-! ## Books -/

section

variable {past past' : List Event}

theorem since_onLedger {α : Type} (act : LedgerM α) :
    Respects (Books.Since past past') (BooksM.onLedger act) := by
  apply (Respects.of_eq act).zoom
  · exact fun _ _ h => h.ledger.symm
  · exact fun _ _ _ _ h hl => ⟨hl.symm, h.outbox, h.events⟩

theorem since_emit (event : Event) : Respects (Books.Since past past') (BooksM.emit event) := by
  refine Respects.modify fun b b' h => ⟨h.ledger, h.outbox, ?_⟩
  obtain ⟨later, hevents, hevents'⟩ := h.events
  refine ⟨later ++ [event], ?_, ?_⟩
  · rw [hevents, List.append_assoc]
  · rw [hevents', List.append_assoc]

theorem respected_since :
    Books.Respected (fun _ => True) (fun _ => True) (Books.Since past past') where
  held h := by rw [h.ledger]
  pay _ _ _ := since_onLedger _
  draw _ _ := since_onLedger _
  report := since_emit
  ship _ h := ⟨h.ledger, by rw [h.outbox], h.events⟩

end

/-- A controller that treats what takes its reports as what it is, a port that is written to and
never read: the reports made before it ran make no difference to what it does. -/
def ActionController.Heedless (c : ActionController) : Prop :=
  ∀ past past' action,
    Respects (Workbench.Beside (fun _ => True) (Books.Since past past')) (c.run action)

@[inherit_doc ActionController.Heedless]
def ForwardingController.Heedless (c : ForwardingController) : Prop :=
  ∀ past past' packet, Respects (Books.Since past past') (c.send packet)

/-- A router all of whose controllers are heedless of the reports made before. -/
structure Router.Heedless (r : Router) : Prop where
  actions : ∀ id c, r.actions.route? id = some c → c.Heedless
  forwarders : ∀ id c, r.forwarders.route? id = some c → c.Heedless

theorem Fee.heedless_controller (payer : String) : (controller payer).Heedless := by
  rintro past past' ⟨id, attributes⟩
  cases attributes with
  | fee attributes => exact respects_charge (fun _ _ _ => since_onLedger _) since_emit attributes
  | swap attributes => exact Respects.throw _

theorem Testbed.heedless_swap : swapController.Heedless := by
  rintro past past' ⟨id, attributes⟩
  cases attributes with
  | fee attributes => exact Respects.throw _
  | swap attributes => exact respects_swap respected_since attributes trivial trivial

/-- Fees, swaps and escrows only ever add to the reports. -/
theorem Router.Wired.heedless {r : Router} (h : r.Wired) : r.Heedless where
  actions id c hc := by
    rcases h.actions id c hc with ⟨payer, rfl⟩ | rfl
    · exact Fee.heedless_controller payer
    · exact Testbed.heedless_swap
  forwarders id c hc past past' packet := by
    obtain rfl := h.forwarders id c hc
    exact Testbed.respects_escrow respected_since id trivial

/-! ## The disk -/

section

open Disk (Without)

variable {gone : List Bytes} {past past' : List Event}

theorem without_get? {key : Bytes} (hkey : key ∉ gone) :
    Respects (Without gone) (Disk.get? key) := by
  intro d d' h
  rw [Disk.get?_run h.reliable.readable, Disk.get?_run h.reliable'.readable, h.get? key,
    if_neg hkey]
  exact .ok _ h

theorem without_contains {key : Bytes} (hkey : key ∉ gone) :
    Respects (Without gone) (Disk.contains key) := by
  intro d d' h
  have hsame : d'.store.contains key = d.store.contains key := by
    rw [OrderedMap.contains, OrderedMap.contains, h.get? key, if_neg hkey]
  rw [Disk.contains_run h.reliable.readable, Disk.contains_run h.reliable'.readable, hsame]
  exact .ok _ h

theorem without_write {batch : List Write} (hbatch : ∀ x ∈ batch, x.key ∉ gone) :
    Respects (Without gone) (Disk.write batch) := by
  intro d d' h
  rw [Disk.write_run (h.reliable .batch), Disk.write_run (h.reliable' .batch)]
  refine .ok _ ⟨h.reliable, h.faults, fun key => ?_⟩
  change (d'.store.applyAll batch).get? key = if key ∈ gone then none else _
  by_cases hkey : key ∈ gone
  · rw [if_pos hkey, Store.get?_applyAll_of_forall_ne, h.get? key, if_pos hkey]
    exact fun x hx hx' => hbatch x hx (hx' ▸ hkey)
  · rw [if_neg hkey]
    apply Store.get?_applyAll_congr
    rw [h.get? key, if_neg hkey]

end

/-! ## From the arrival to the report -/

theorem Statistics.IsTotal.not_isRecord {key : Bytes} (h : IsTotal key) : ¬ Key.IsRecord key := by
  rintro (h' | h' | h') <;> rcases h with h | h <;> rw [h'] at h <;>
    exact absurd (Option.some.inj h) (by decide)

section

variable {gone : List Bytes} {past past' : List Event} {r : Router}

/-- The relation between a world and the same world where some keys of recorded payloads are gone
and other reports were made before. -/
abbrev World.Rid (gone : List Bytes) (past past' : List Event) (w w' : World) : Prop :=
  w.Within (Disk.Without gone) (Books.Since past past') w'

abbrev Stage.Rid (gone : List Bytes) (past past' : List Event) (s s' : Stage) : Prop :=
  s.Within (Disk.Without gone) (Books.Since past past') Eq s'

theorem Stage.Rid.over :
    Stage.Over (World.Rid gone past past') (Stage.Rid gone past past') where
  world h := h.world
  transfer h := h.transfer.symm
  withWorld h hw := ⟨hw, h.transfer⟩

variable (hgone : ∀ key ∈ gone, Key.IsRecord key)

include hgone

theorem rid_isOpen {key : Key} (hkey : ¬ Key.IsRecord key.bytes) :
    Respects (World.Rid gone past past') (Breaker.isOpen key) :=
  (without_contains fun h => hkey (hgone _ h)).onDisk

theorem rid_read {α : Type} [Codec α] {key : Key} (hkey : ¬ Key.IsRecord key.bytes) :
    Respects (World.Rid gone past past') (RouterM.read α key) := by
  refine Respects.bind (without_get? fun h => hkey (hgone _ h)).onDisk fun found => ?_
  cases found with
  | none => exact Respects.pure none
  | some s => exact (Respects.settle _ _).bind fun _ => Respects.pure _

theorem rid_arrive (packet : RoutedPacket) (receive : RoutedPacket → LedgerM Unit) :
    Respects (World.Rid gone past past') (r.arrive packet receive) := by
  have hscreen : Respects (World.Rid gone past past') (Router.screen packet.payload) :=
    Respects.bind ((rid_read hgone params_aside).bind fun _ => Respects.pure _)
      fun _ => Respects.checked _
  have hclear : Respects (World.Rid gone past past')
      (r.clear packet.transfer.destinationDenom) := by
    refine Respects.get_bind fun w w' h => ?_
    rw [h.books.ledger]
    refine Respects.ite ?_ (Respects.pure _) w w' h
    exact (since_onLedger _).onBooks.bind fun _ => (since_emit _).onBooks
  have hafter : Respects (World.Rid gone past past') (r.afterArrival packet) := by
    refine Respects.get_bind fun w w' h => ?_
    rw [h.books.ledger]
    exact Respects.ite (Respects.throw _) (Respects.pure _) w w' h
  rw [Router.arrive_eq]
  exact hscreen.bind fun _ => hclear.bind fun _ => (since_onLedger _).onBooks.bind fun _ => hafter

theorem rid_write {batch : List Write} (hbatch : ∀ x ∈ batch, ¬ Key.IsRecord x.key) :
    Respects (World.Rid gone past past') (RouterM.onDisk (Disk.write batch)) :=
  (without_write fun x hx hmem => hbatch x hx (hgone _ hmem)).onDisk

theorem rid_process (hr : r.Heedless) (payload : Payload) :
    Respects (Stage.Rid gone past past') (r.process payload) := by
  refine Respects.process Stage.Rid.over ?_ fun _ => (since_emit _).onBooks
  refine Respects.dispatch Stage.Rid.over (fun action _ => ?_) (fun s _ _ => ?_)
    fun transfer destination => (Respects.record ?_ ?_ transfer destination).attempt
  · exact Respects.execute Stage.Rid.over (rid_isOpen hgone (pausedAction_aside _)) fun c hc =>
      (hr.actions _ c hc past past' action).onWorkbench
  · refine Respects.forward (rid_isOpen hgone (pausedProtocol_aside _))
      (fun _ => rid_isOpen hgone (routeKey_aside ⟨_, _⟩)) (fun w w' h => ?_) fun c hc => ?_
    · rw [h.books.ledger]
    · exact (hr.forwarders _ c hc past past' _).onBooks
  · exact fun hkey => rid_read hgone hkey.not_isRecord
  · exact fun batch hbatch => rid_write hgone fun x hx => (hbatch x hx).not_isRecord

/-- Recorded payloads that are gone and reports made before make no difference to the way of a
packet. -/
theorem rid_carry (hr : r.Heedless) (packet : RoutedPacket)
    (receive : RoutedPacket → LedgerM Unit) :
    Respects (World.Rid gone past past') (r.carry packet receive) :=
  (rid_arrive hgone packet receive).bind fun _ =>
    Respects.bind ((rid_process hgone hr packet.payload).staged Stage.Rid.over
      fun _ _ hw => ⟨hw, rfl⟩) fun _ => Respects.pure _

end

end TransferRouter
