import TransferRouter.Proofs.Arrival
import TransferRouter.Proofs.Delivery
import TransferRouter.Proofs.Fee

/-!
A delivery that succeeds leaves nothing behind and creates nothing. Its funds arrive, the
pre-actions pass them from hand to hand, and what is forwarded is all that the holding account then
has: whatever else it held would have stopped the forwarding.
-/

namespace TransferRouter

open Testbed (holding escrow)

/-! ## Forwarding -/

/-- An account passes exactly when its only coin is the expected one. -/
theorem checkHeld_eq_ok {l : Ledger} {account : String} {coin : Coin} :
    checkHeld (l.balances account) coin = .ok () ↔ l.balances account = [coin] := by
  have hall : (l.balances account).filter (fun c => !c.isZero) = l.balances account := by
    apply List.filter_eq_self.2
    intro c hc
    rw [(Ledger.mem_balances.1 hc).2]
    rfl
  rw [checkHeld, hall]
  match l.balances account with
  | [] => exact iff_of_false nofun nofun
  | [c] =>
    change (if c = coin then Except.ok () else _) = _ ↔ _
    by_cases h : c = coin <;> simp [h]
  | c :: c' :: rest => exact iff_of_false nofun (by simp)

theorem Testbed.holding_ne_escrow (id : ProtocolId) : holding ≠ escrow id := by
  cases id <;> decide

/-- A world after a packet took all that the holding account had to the escrow account. -/
structure World.Forwarded (packet : ForwardingPacket) (w w' : World) : Prop where
  held : w.books.ledger.balances holding = [packet.transfer.destinationCoin]
  moved : w.books.ledger.Moved holding (escrow packet.forwarding.protocol)
    packet.transfer.destinationCoin w'.books.ledger
  events : w'.books.events = w.books.events
  outbox : w'.books.outbox = w.books.outbox ++ [⟨packet.forwarding.protocol, packet⟩]

namespace World.Forwarded

variable {packet : ForwardingPacket} {w w' : World}

theorem positive (h : w.Forwarded packet w') :
    packet.transfer.destinationCoin.isZero = false :=
  (Ledger.balances_eq_singleton_iff.1 h.held).1

theorem emptied (h : w.Forwarded packet w') (denom : String) :
    w'.books.ledger.funds holding denom = 0 := by
  have hheld := (Ledger.balances_eq_singleton_iff.1 h.held).2 denom
  have hfunds := h.moved.funds holding denom
  simp only [Testbed.holding_ne_escrow, false_and, if_false, true_and, hheld] at hfunds
  omega

end World.Forwarded

section

variable {r : Router} {w w' : World} {payload : Payload} {s s' : Stage}

theorem Router.forward_settles (hr : r.Fitted) {packet : ForwardingPacket}
    (h : r.forward packet w = .ok () w') : w.Forwarded packet w' := by
  rw [forward_eq] at h
  obtain ⟨c, ⟨disk, books, clock⟩, hprepare, hsend⟩ := bind_eq_ok.1 h
  have hprepared := prepare_ok hprepare
  have hheld := hprepared.held
  rw [hr.holding] at hheld
  obtain ⟨b, hbooks, rfl⟩ := zoom_eq_ok.1 hsend
  obtain rfl := hr.forwarders _ c hprepared.routed
  obtain rfl : books = w.books := hprepared.books
  obtain ⟨l, hmoved, rfl⟩ := Testbed.escrow_eq_ok.1 hbooks
  exact ⟨checkHeld_eq_ok.1 hheld, Ledger.send_ok hmoved, rfl, rfl⟩

/-- A dispatch that succeeds forwards the transfer that the pre-actions left. -/
theorem Router.dispatch_settles (hr : r.Fitted) (h : r.dispatch payload s = .ok () s') :
    ∃ u v, executeAll r.execute payload.preActions s = .ok () u ∧ s'.transfer = u.transfer ∧
      u.world.Forwarded ⟨u.transfer, payload.forwarding⟩ v ∧ s'.world.books = v.books := by
  rw [dispatch_eq] at h
  obtain ⟨destination, u, hready, hrelease⟩ := bind_eq_ok.1 h
  obtain ⟨-, -, -, hactions⟩ := ready_eq_ok.1 hready
  obtain ⟨v, w, hforward, hattempt, rfl⟩ := release_eq_ok.1 hrelease
  exact ⟨u, v, hactions, rfl, forward_settles hr hforward, (attempt_record hattempt).books.symm⟩

/-! ## Pre-actions -/

/-- Pre-actions of a kind that pass their check are that kind with its attributes. -/
theorem exists_fees {actions : List Action} (hcheck : ∀ a ∈ actions, a.check = .ok ())
    (hfee : ∀ a ∈ actions, a.id = .fee) :
    ∃ fees : List FeeAttributes, actions = fees.map Action.fee := by
  induction actions with
  | nil => exact ⟨[], rfl⟩
  | cons action rest ih =>
    obtain ⟨fees, rfl⟩ := ih (fun a ha => hcheck a (List.mem_cons_of_mem _ ha))
      (fun a ha => hfee a (List.mem_cons_of_mem _ ha))
    obtain ⟨id, attributes⟩ := action
    obtain rfl : id = .fee := hfee _ List.mem_cons_self
    obtain ⟨-, hid, -⟩ := Action.check_eq_ok.1 (hcheck _ List.mem_cons_self)
    cases attributes with
    | fee a => exact ⟨a :: fees, rfl⟩
    | swap a => exact absurd hid nofun

/-! ## The whole way -/

theorem Pending.take_books {h : PayloadHash} {entry : PendingEntry}
    (htake : take h w = .ok entry w') :
    w'.books = { w.books with events := w.books.events ++ [.pendingPayloadRemoved h] } := by
  obtain ⟨found, u, hget, h₁⟩ := bind_eq_ok.1 htake
  have hbooks : w.books = u.books := ((get?_keeps (D := Disk.Still) h).ok hget).books
  cases found with
  | none => exact (throw_ne_ok h₁).elim
  | some entry =>
    obtain ⟨_, v, hwrite, h₂⟩ := bind_eq_ok.1 h₁
    obtain ⟨d, -, rfl⟩ := onDisk_eq_ok.1 hwrite
    obtain ⟨_, v, hemit, h₃⟩ := bind_eq_ok.1 h₂
    rw [emit_run] at hemit
    obtain ⟨-, rfl⟩ := EStateM.Result.ok.inj hemit
    obtain ⟨-, rfl⟩ := pure_eq_ok.1 h₃
    rw [hbooks]

theorem Router.complete_books {pending : Option PayloadHash}
    (h : complete pending w = .ok () w') :
    w'.books = { w.books with events :=
      w.books.events ++ pending.toList.map .pendingPayloadRemoved } := by
  rcases complete_ok h with ⟨rfl, rfl⟩ | ⟨g, entry, rfl, htake⟩
  · rw [Option.toList_none, List.map_nil, List.append_nil]
  · exact Pending.take_books htake

/-- A delivery in its stages: the funds of the packet arrive in the world `a`, the pre-actions leave
the stage `s`, and what is forwarded is gone in the world `v`. -/
structure Router.Stages (r : Router) (source : CrossChainId) (raw : Bytes) (w : World)
    (parsed : RoutedPacket) (a : World) (s : Stage) (v : World) (packet : RoutedPacket)
    (w' : World) : Prop where
  resolved : ∃ pending u, r.resolve source raw w = .ok (parsed, pending) u
  check : parsed.check = .ok ()
  untouched : parsed.transfer.destinationCoin = parsed.transfer.sourceCoin
  arrived : w.books.ledger.Arrived parsed.transfer.sourceCoin a.books.ledger
  before : a.books.outbox = w.books.outbox ∧
    ∃ coins : List Coin, a.books.events = w.books.events ++ coins.map .dustCleared
  executed : executeAll r.execute parsed.payload.preActions ⟨a, parsed.transfer⟩ = .ok () s
  forwarded : s.world.Forwarded ⟨s.transfer, parsed.payload.forwarding⟩ v
  packet : packet = ⟨s.transfer, parsed.payload⟩
  after : w'.books.ledger = v.books.ledger ∧ w'.books.outbox = v.books.outbox ∧
    ∃ reports, w'.books.events = v.books.events ++ reports ∧ charges reports = 0

theorem Testbed.stages_of_deliver (hr : r.Fitted) {source : CrossChainId} {raw : Bytes}
    {packet : RoutedPacket} (h : Testbed.deliver r source raw w = .ok packet w') :
    ∃ parsed a s v, r.Stages source raw w parsed a s v packet w' := by
  rw [deliver, Router.deliver_eq] at h
  obtain ⟨parsed, pending, u, transfer, x, hresolve, hcarry, hcomplete, hpacket⟩ :=
    Router.passage_eq_ok.1 h
  obtain ⟨t, payload⟩ := parsed
  have hbooks : w.books = u.books :=
    ((keeps_resolve (D := Disk.Still) (B := Eq) r source raw).ok hresolve).books
  obtain ⟨-, parser, inbound, -, -, -, harriving, hcheck⟩ := Router.resolve_eq_ok.1 hresolve
  obtain ⟨-, huntouched⟩ := Transfer.arriving_ok harriving
  obtain ⟨a, harrive, hprocess⟩ := Router.carry_eq_ok.1 hcarry
  obtain ⟨b, hb, hsettled, harrived⟩ := Router.arrive_ok hr huntouched harrive
  have hbooks' : w.books = b.books := hbooks.trans hb.books
  obtain ⟨y, origin, destination, hdispatch, -, -, hdone⟩ := Router.process_eq_ok.1 hprocess
  obtain ⟨s, v, hactions, htransfer, hforwarded, hlast⟩ := Router.dispatch_settles hr hdispatch
  obtain ⟨rfl, rfl⟩ := Stage.mk.inj hdone
  have hcompleted := Router.complete_books hcomplete
  refine ⟨⟨t, payload⟩, a, s, v, ?_⟩
  refine ⟨⟨pending, u, hresolve⟩, hcheck, huntouched, hbooks ▸ harrived, ?_, hactions, hforwarded,
    ?_, ?_⟩
  · rw [hbooks']
    exact ⟨hsettled.outbox, hsettled.reports⟩
  · rw [hpacket, htransfer]
  · rw [hcompleted, hlast]
    refine ⟨rfl, rfl, _ :: pending.toList.map .pendingPayloadRemoved, List.append_assoc .., ?_⟩
    cases pending <;> rfl

end

/-! ## Conservation -/

/-- A delivery that leaves nothing in the holding account and creates nothing: all that the account
had, which is the coin that the packet goes on with, is forwarded, and the supplies grew by exactly
what arrived. -/
structure Router.Conserves (r : Router) (source : CrossChainId) (raw : Bytes) (w : World)
    (packet : RoutedPacket) (w' : World) : Prop where
  arrived : ∃ parsed pending u, r.resolve source raw w = .ok (parsed, pending) u ∧
    packet.payload = parsed.payload ∧ packet.transfer.sourceCoin = parsed.transfer.sourceCoin
  emptied : ∀ denom, w'.books.ledger.balance holding denom = .zero
  positive : packet.transfer.destinationCoin.isZero = false
  forwarded : w'.books.outbox = w.books.outbox ++ [packet.shipment] ∧
    ∃ l : Ledger, l.balances holding = [packet.transfer.destinationCoin] ∧
      l.Moved holding (escrow packet.payload.forwarding.protocol)
        packet.transfer.destinationCoin w'.books.ledger
  supply : ∀ denom, w'.books.ledger.supply denom = w.books.ledger.supply denom +
    if denom = packet.transfer.sourceDenom then packet.transfer.sourceAmount.toNat else 0
  fees : (∀ action ∈ packet.payload.preActions, action.id = .fee) →
    ∃ reports, w'.books.events = w.books.events ++ reports ∧
      packet.transfer.sourceAmount.toNat =
        packet.transfer.destinationAmount.toNat + charges reports

theorem charges_dust (coins : List Coin) : charges (coins.map .dustCleared) = 0 := by
  induction coins with
  | nil => rfl
  | cons coin rest ih =>
    change 0 + charges (rest.map .dustCleared) = 0
    rw [ih]

/-- What the fees of a payload come to is what the forwarded amount lacks. -/
theorem Router.Stages.fees {r : Router} (hr : r.Fitted) {source : CrossChainId} {raw : Bytes}
    {w a v w' : World} {parsed packet : RoutedPacket} {s : Stage}
    (h : r.Stages source raw w parsed a s v packet w')
    (hfee : ∀ action ∈ parsed.payload.preActions, action.id = .fee) :
    ∃ reports, w'.books.events = w.books.events ++ reports ∧
      parsed.transfer.sourceAmount.toNat =
        packet.transfer.destinationAmount.toNat + charges reports := by
  obtain ⟨-, hpayload⟩ := RoutedPacket.check_eq_ok.1 h.check
  obtain ⟨fees, hfees⟩ := exists_fees (Payload.check_eq_ok.1 hpayload).2 hfee
  obtain ⟨events, hevents, hcharges⟩ := (charged_of_executeAll hr (hfees ▸ h.executed)).reports
  obtain ⟨coins, hdust⟩ := h.before.2
  obtain ⟨reports, hreports, hnone⟩ := h.after.2.2
  have hamount : parsed.transfer.destinationAmount = parsed.transfer.sourceAmount :=
    congrArg Coin.amount h.untouched
  refine ⟨coins.map .dustCleared ++ events ++ reports, ?_, ?_⟩
  · have hevents' : s.world.books.events = a.books.events ++ events := hevents
    rw [hreports, h.forwarded.events, hevents', hdust]
    simp only [List.append_assoc]
  · rw [charges_append, charges_append, charges_dust, hnone, h.packet, ← hamount]
    change charges events + s.transfer.destinationAmount.toNat =
      parsed.transfer.destinationAmount.toNat at hcharges
    change parsed.transfer.destinationAmount.toNat = s.transfer.destinationAmount.toNat + _
    omega

/-- A delivery that succeeds leaves nothing behind and creates nothing, whatever was in the accounts
and in the store. -/
theorem conserved_of_deliver (r : Router) (source : CrossChainId) (raw : Bytes) (w w' : World)
    (packet : RoutedPacket) (hr : r.Fitted)
    (h : Testbed.deliver r source raw w = .ok packet w') :
    r.Conserves source raw w packet w' := by
  obtain ⟨parsed, a, s, v, hstages⟩ := Testbed.stages_of_deliver hr h
  obtain ⟨pending, u, hresolve⟩ := hstages.resolved
  obtain ⟨hledger, houtbox, -⟩ := hstages.after
  have hactions := (keeps_executeAll (D := Disk.Still) hr.wired.faithful.actions _).ok
    hstages.executed
  have hamong := (among_executeAll (D := Disk.Still) (P := fun _ => True) hr trivial
    fun _ _ _ _ => trivial).ok hstages.executed
  have hcoin : packet.transfer.sourceCoin = parsed.transfer.sourceCoin := by
    rw [hstages.packet]
    exact hactions.transfer.coin
  have hsettled := hstages.forwarded
  constructor
  · refine ⟨parsed, pending, u, hresolve, ?_, hcoin⟩
    rw [hstages.packet]
  · intro denom
    apply Amount.ext
    exact (congrArg (·.funds holding denom) hledger).trans (hsettled.emptied denom)
  · rw [hstages.packet]
    exact hsettled.positive
  · rw [houtbox, hledger, hsettled.outbox, hactions.world.books.outbox, hstages.before.1,
      hstages.packet]
    exact ⟨rfl, s.world.books.ledger, hsettled.held, hsettled.moved⟩
  · intro denom
    rw [hledger, hsettled.moved.supply, hamong.world.books.supply, hstages.arrived.supply, ← hcoin]
    rfl
  · intro hfee
    have hamount := congrArg Coin.amount hcoin
    rw [hstages.packet] at hfee
    obtain ⟨reports, hreports, hsum⟩ := hstages.fees hr hfee
    refine ⟨reports, hreports, ?_⟩
    rw [← hsum]
    exact congrArg Amount.toNat hamount

namespace Testbed

/-- A payload that takes a fee of five in a hundred and forwards over CCTP. -/
def taxed : Payload := { payload with preActions := [.fee ⟨[⟨"treasury", 500⟩]⟩] }

/-- The testbed with something left in the holding account. -/
def littered : World :=
  { world with books := { world.books with
      ledger := world.books.ledger.set holding "uusdc" ⟨7, by decide⟩ } }

theorem succeeds_littered :
    succeeds (Testbed.deliver (carrier ⟨coin, .inline taxed⟩) origin []) littered = true := by
  decide +kernel

theorem conserved_littered : ∃ packet w',
    Testbed.deliver (carrier ⟨coin, .inline taxed⟩) origin [] littered = .ok packet w' ∧
      (carrier ⟨coin, .inline taxed⟩).Conserves origin [] littered packet w' := by
  obtain ⟨packet, w', hrun⟩ := exists_of_succeeds succeeds_littered
  exact ⟨packet, w', hrun, conserved_of_deliver _ _ _ _ _ _ (fitted_carrier _) hrun⟩

end Testbed

end TransferRouter
