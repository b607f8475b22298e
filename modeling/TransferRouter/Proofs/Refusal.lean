import TransferRouter.Proofs.Arrival
import TransferRouter.Proofs.Delivery
import TransferRouter.Proofs.Movement

/-!
What a refused packet leaves in the ledger. A refusal before the funds arrive leaves the books as
they were. Later a packet is refused by one of its pre-actions or where it is to be forwarded: what
came with the arrival and what the pre-actions moved stays where it is, and nothing else changes.
-/

namespace TransferRouter

open Testbed (holding)

/-- The same medium with the same content. -/
abbrev Disk.Same : Disk → Disk → Prop := Disk.Apart fun _ => True

section

variable {r : Router} {w w' : World} {e : RouterError}

/-! ## Dispatch -/

/-- A forwarding that fails leaves the books as they were. -/
theorem Router.forward_leaves (hr : r.Fitted) {packet : ForwardingPacket}
    (h : r.forward packet w = .error e w') : w'.books = w.books := by
  rw [forward_eq] at h
  rcases bind_eq_error.1 h with hprepare | ⟨c, u, hprepare, hsend⟩
  · exact ((keeps_prepare (D := Disk.Still) (B := Eq) r packet).error hprepare).books.symm
  · have hprepared := prepare_ok hprepare
    obtain ⟨_, b, hb, -, rfl⟩ := zoom_eq_error.1 hsend
    obtain rfl := hr.forwarders _ c hprepared.routed
    exact (Testbed.escrow_error hb).trans hprepared.books

/-- A dispatch that fails leaves the books as its pre-actions leave them, however they end. -/
theorem Router.dispatch_leaves (hr : r.Fitted) {payload : Payload} {s s' : Stage}
    (htransfer : s.transfer.check = .ok ()) (hpayload : payload.check = .ok ())
    (h : r.dispatch payload s = .error e s') :
    s'.world.books = (leaves (executeAll r.execute payload.preActions) s).world.books := by
  have hdestination := Forwarding.destination_of_check (Payload.check_eq_ok.1 hpayload).1
  rw [dispatch_eq] at h
  rcases bind_eq_error.1 h with hready | ⟨destination, u, hready, hrelease⟩
  · rw [ready_run htransfer hpayload hdestination] at hready
    rcases bind_eq_error.1 hready with hactions | ⟨_, _, -, hpure⟩
    · rw [leaves_of_error hactions]
    · exact (pure_ne_error hpure).elim
  · obtain ⟨-, -, -, hactions⟩ := ready_eq_ok.1 hready
    obtain ⟨e', hforward⟩ := release_error hrelease
    rw [leaves_of_ok hactions]
    exact forward_leaves hr hforward

/-! ## Delivery -/

/-- A world after the funds of a packet arrived and its pre-actions moved coins among the accounts
that they are about. -/
def Router.Spends (r : Router) (packet : RoutedPacket) (w w' : World) : Prop :=
  ∃ a : World, Disk.Same w.disk a.disk ∧
    w.books.ledger.Arrived packet.transfer.sourceCoin a.books.ledger ∧
    w'.books.ledger = (leaves (executeAll r.execute packet.payload.preActions)
      ⟨a, packet.transfer⟩).world.books.ledger ∧
    a.books.ledger.Among (fun account => account = holding ∨
      ∃ action ∈ packet.payload.preActions, action.Reaches account) w'.books.ledger

/-- Without pre-actions the funds stay where they arrived. -/
theorem Router.Spends.arrived {packet : RoutedPacket} (h : r.Spends packet w w')
    (hactions : packet.payload.preActions = []) :
    w.books.ledger.Arrived packet.transfer.sourceCoin w'.books.ledger := by
  obtain ⟨a, -, harrived, hspent, -⟩ := h
  rw [hactions] at hspent
  have hleft : w'.books.ledger = a.books.ledger := hspent
  rw [hleft]
  exact harrived

/-- A world after a packet was refused: nothing was sent, and where its funds arrived, its
pre-actions are all that may have moved them. -/
structure Router.Withholds (r : Router) (packet : RoutedPacket) (w w' : World) : Prop where
  outbox : w'.books.outbox = w.books.outbox
  ledger : w'.books.ledger = w.books.ledger ∨ r.Spends packet w w'
  plain : packet.payload.preActions = [] → w'.books.ledger = w.books.ledger ∨
    w.books.ledger.Arrived packet.transfer.sourceCoin w'.books.ledger

namespace Router.Withholds

variable {packet : RoutedPacket}

theorem of_ledger (houtbox : w'.books.outbox = w.books.outbox)
    (hledger : w'.books.ledger = w.books.ledger ∨ r.Spends packet w w') :
    r.Withholds packet w w' where
  outbox := houtbox
  ledger := hledger
  plain hactions := hledger.imp_right fun h => h.arrived hactions

/-- What was only read before makes no difference. -/
theorem of_within {u : World} (hu : w.Within Disk.Same Eq u) (h : r.Withholds packet u w') :
    r.Withholds packet w w' := by
  obtain ⟨houtbox, hledger, -⟩ := h
  rw [← hu.books] at houtbox hledger
  refine .of_ledger houtbox (hledger.imp_right ?_)
  rintro ⟨a, hdisk, harrived, hspent⟩
  rw [← hu.books] at harrived
  exact ⟨a, trans_of Disk.Same hu.disk hdisk, harrived, hspent⟩

end Router.Withholds

/-- Wherever a packet is refused on its way, all that changed in the ledger is what came with the
arrival of its funds and what its pre-actions did. -/
theorem Router.carry_leaves (hr : r.Fitted) {packet : RoutedPacket} {source : CrossChainId}
    (hcheck : packet.check = .ok ()) (hsource : packet.transfer.source = .ok source)
    (hsame : packet.transfer.destinationCoin = packet.transfer.sourceCoin)
    (h : r.carry packet Testbed.receive w = .error e w') : r.Withholds packet w w' := by
  obtain ⟨htransfer, hpayload⟩ := RoutedPacket.check_eq_ok.1 hcheck
  obtain ⟨-, -, hdenom, -⟩ := Transfer.check_eq_ok.1 htransfer
  rcases bind_eq_error.1 h with harrive | ⟨_, a, harrive, h₁⟩
  · have hbooks := arrive_error hr hsame hdenom harrive
    exact .of_ledger (congrArg Books.outbox hbooks) (.inl (congrArg Books.ledger hbooks))
  obtain ⟨u, hu, hsettled, harrived⟩ := arrive_ok hr hsame harrive
  have hkept := (keeps_arrive (D := Disk.Same) (B := Anything) r packet Testbed.receive).ok harrive
  rcases bind_eq_error.1 h₁ with hstaged | ⟨_, _, -, hpure⟩
  · obtain ⟨transfer, hprocess⟩ := staged_eq_error.1 hstaged
    have hbooks := dispatch_leaves (s := ⟨a, packet.transfer⟩) hr htransfer hpayload
      (dispatch_of_process_error hr.wired.faithful hsource hprocess)
    have hamong := among_executeAll (D := Disk.Still) (P := fun account => account = holding ∨
      ∃ action ∈ packet.payload.preActions, action.Reaches account) hr (.inl rfl)
      (fun action haction a ha => .inr ⟨action, haction, ha⟩) ⟨a, packet.transfer⟩
    have hquiet := keeps_executeAll (D := Disk.Still) hr.wired.faithful.actions
      packet.payload.preActions ⟨a, packet.transfer⟩
    refine .of_ledger ?_ (.inr ⟨a, hkept.disk, harrived, congrArg Books.ledger hbooks, ?_⟩)
    · rw [hbooks, hquiet.world.books.outbox, hsettled.outbox, ← hu.books]
    · rw [hbooks]
      exact hamong.world.books
  · exact (pure_ne_error hpure).elim

/-- A refusal on a medium that never fails: the packet could not be read, or it was refused on its
way, because what it names can be completed once it is out. -/
theorem Router.withholds_of_refused (hr : r.Fitted) (hw : w.disk.Reliable) {source : CrossChainId}
    {raw : Bytes} (h : Testbed.deliver r source raw w = .error e w') :
    w' = w ∨ ∃ packet pending, r.resolve source raw w = .ok (packet, pending) w ∧
      r.Withholds packet w w' := by
  rw [Testbed.deliver, deliver_eq] at h
  rcases passage_error hw.readable h with
    rfl | ⟨packet, pending, hresolve, hcarry⟩
  · exact .inl rfl
  obtain ⟨-, hresolved⟩ := resolve_ok hw.readable hresolve
  rcases hcarry with hcarry | ⟨transfer, u, hcarry, hcomplete⟩
  · exact .inr ⟨packet, pending, hresolve,
      carry_leaves hr hresolved.check hresolved.source hresolved.untouched hcarry⟩
  · have hsent := carry_ok hr.wired.faithful hw.readable hresolved.source hcarry
    obtain ⟨v, hrun⟩ := hresolved.complete_run hw hsent
    rw [hrun] at hcomplete
    exact absurd hcomplete nofun

end

end TransferRouter
