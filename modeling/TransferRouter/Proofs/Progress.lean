import TransferRouter.Proofs.Conservation

/-!
Packets that get through. A packet in order whose payload takes fees and forwards what is left is
delivered when nothing that it needs is paused or missing, the holding account has nothing but dust
of its denomination, and no number leaves its range. Afterwards the dust, the fees and the rest are
each where they belong.
-/

namespace TransferRouter

open Testbed (holding dust escrow)

section

variable {r : Router} {source : CrossChainId} {raw : Bytes} {w : World} {coin : Coin}
variable {payload : Payload} {fees : List FeeAttributes}

/-! ## What is asked of a packet -/

/-- A packet in order from an endpoint with a parser. Its payload is carried along or was recorded
and is named. -/
structure Router.Bears (r : Router) (source : CrossChainId) (raw : Bytes) (w : World) (coin : Coin)
    (payload : Payload) : Prop where
  endpoint : source.check = .ok ()
  parsed : ∃ parser content, r.parsers.route? source.protocol = some parser ∧
    parser.parse raw = .ok ⟨coin, content⟩ ∧ (content = .inline payload ∨
      ∃ h entry, content = .pending h ∧ Pending.get? h w = .ok (some entry) w ∧
        entry.payload = payload)
  coin : coin.check = .ok ()
  payload : payload.check = .ok ()

/-- What lets a payload through that takes fees and forwards what is left of a coin. -/
structure Router.Permits (r : Router) (w : World) (coin : Coin) (payload : Payload)
    (fees : List FeeAttributes) : Prop where
  preActions : payload.preActions = fees.map Action.fee
  passthrough : ∃ params, loadParams w = .ok params w ∧
    payload.forwarding.passthrough.length ≤ params.passthroughLimit.toNat
  actionActive : fees ≠ [] → w.disk.store.contains (Key.pausedAction .fee).bytes = false
  protocolActive : w.disk.store.contains
    (Key.pausedProtocol payload.forwarding.protocol).bytes = false
  routeActive : w.disk.store.contains (Key.pausedRoute payload.forwarding.protocol
    payload.forwarding.attributes.counterparty).bytes = false
  routed : (r.forwarders.route? payload.forwarding.protocol).isSome = true
  recipients : ∀ a ∈ fees, ∀ f ∈ a.fees, f.recipient ≠ holding
  alone : ∀ denom, denom ≠ coin.denom → w.books.ledger.balance holding denom = .zero
  supply : w.books.ledger.supply coin.denom + coin.amount.toNat < Amount.size
  amount : coin.amount.toNat * basisPointsOfWhole < Amount.size
  left : Fee.left coin.amount.toNat fees ≠ 0

theorem Router.Bears.check (h : r.Bears source raw w coin payload) :
    RoutedPacket.check ⟨.fresh source coin, payload⟩ = .ok () := by
  obtain ⟨hprotocol, hcounterparty⟩ := CrossChainId.check_eq_ok.1 h.endpoint
  have hdenom := Coin.check_eq_ok.1 h.coin
  exact RoutedPacket.check_eq_ok.2
    ⟨Transfer.check_eq_ok.2 ⟨hprotocol, hcounterparty, hdenom, hdenom⟩, h.payload⟩

theorem Router.Bears.resolve (h : r.Bears source raw w coin payload) :
    ∃ pending, r.resolve source raw w = .ok (⟨.fresh source coin, payload⟩, pending) w := by
  obtain ⟨parser, content, hroute, hparse, hcontent⟩ := h.parsed
  have hlook : ∃ pending, lookUp content w = .ok (payload, pending) w := by
    rcases hcontent with rfl | ⟨g, entry, rfl, hget, rfl⟩
    · exact ⟨none, rfl⟩
    · exact ⟨some g, bind_eq_ok.2 ⟨_, w, hget, rfl⟩⟩
  obtain ⟨pending, hlook⟩ := hlook
  exact ⟨pending, resolve_eq_ok.2 ⟨h.endpoint, parser, _, hroute, hparse, hlook,
    Transfer.arriving_run h.endpoint h.coin, h.check⟩⟩

/-! ## Runs of the parts -/

theorem Router.prepare_run {packet : ForwardingPacket} {c : ForwardingController}
    (hw : w.disk.Readable) (hcheck : packet.check = .ok ())
    (hprotocol : w.disk.store.contains
      (Key.pausedProtocol packet.forwarding.protocol).bytes = false)
    (hroute : w.disk.store.contains (Key.pausedRoute packet.forwarding.protocol
      packet.forwarding.attributes.counterparty).bytes = false)
    (hheld : w.books.ledger.balances r.config.accounts.holding =
      [packet.transfer.destinationCoin])
    (hrouted : r.forwarders.route? packet.forwarding.protocol = some c) :
    r.prepare packet w = .ok c w := by
  have hdestination := Forwarding.destination_of_check (check_then_eq_ok.1 hcheck).2
  exact bind_eq_ok.2 ⟨(), w, checked_run hcheck w,
    bind_eq_ok.2 ⟨_, w, checked_run hdestination w,
    bind_eq_ok.2 ⟨false, w, hprotocol ▸ contains_run hw _,
    bind_eq_ok.2 ⟨false, w, hroute ▸ contains_run hw _, bind_eq_ok.2 ⟨w, w, rfl,
    bind_eq_ok.2 ⟨(), w, checked_run (checkHeld_eq_ok.2 hheld) w,
    settle_eq_ok.2 ⟨Registry.require_eq_ok.2 hrouted, rfl⟩⟩⟩⟩⟩⟩⟩

theorem attempt_run (act : RouterM Unit) (w : World) : ∃ w', RouterM.attempt act w = .ok () w' := by
  cases hrun : RouterM.attempt act w with
  | ok _ w' => exact ⟨w', rfl⟩
  | error e w' => exact (attempt_ne_error hrun).elim

theorem Router.forward_run {packet : ForwardingPacket} (hr : r.Fitted)
    (hprepare : ∃ c, r.prepare packet w = .ok c w)
    (hsupply : w.books.ledger.supply packet.transfer.destinationDenom < Amount.size) :
    ∃ w', r.forward packet w = .ok () w' := by
  obtain ⟨c, hprepare⟩ := hprepare
  have hprepared := prepare_ok hprepare
  have hheld := hprepared.held
  rw [hr.holding] at hheld
  obtain ⟨-, hfunds⟩ := Ledger.balances_eq_singleton_iff.1 (checkHeld_eq_ok.1 hheld)
  obtain ⟨htransfer, -⟩ := check_then_eq_ok.1 hprepared.check
  obtain ⟨-, -, -, hdenom⟩ := Transfer.check_eq_ok.1 htransfer
  have henough : packet.transfer.destinationCoin.amount.toNat ≤
      w.books.ledger.funds holding packet.transfer.destinationDenom :=
    Nat.le_of_eq ((hfunds _).trans (if_pos rfl)).symm
  obtain ⟨l, hsend, -⟩ : ∃ l, w.books.ledger.send holding (escrow packet.forwarding.protocol)
      [packet.transfer.destinationCoin] = .ok l ∧ _ :=
    Ledger.send_run hdenom henough hsupply
  obtain rfl := hr.forwarders _ c hprepared.routed
  have hbooks : RouterM.onBooks ((Testbed.escrowController packet.forwarding.protocol).send packet)
      w = .ok () _ :=
    zoom_eq_ok.2 ⟨_, Testbed.escrow_eq_ok.2 ⟨l, hsend, rfl⟩, rfl⟩
  exact ⟨_, by rw [forward_eq, bind_of_ok hprepare, hbooks]⟩

/-! ## The dispatch -/

namespace Router.Permits

variable {a : World} {s : Workbench}

/-- The funds that arrived cover the transfer. -/
theorem covered (hraw : r.Bears source raw w coin payload) (h : r.Permits w coin payload fees)
    (harrived : w.books.ledger.Arrived coin a.books.ledger) :
    Workbench.Covered ⟨a.books, .fresh source coin⟩ where
  check := (RoutedPacket.check_eq_ok.1 hraw.check).1
  funds := by
    rw [harrived.funds_holding]
    exact Nat.le_of_eq (if_pos rfl).symm
  supply := by
    change a.books.ledger.supply coin.denom < Amount.size
    rw [harrived.supply, if_pos rfl]
    exact h.supply
  amount := h.amount

/-- What is left after fees is all that the holding account has. -/
theorem held (h : r.Permits w coin payload fees)
    (harrived : w.books.ledger.Arrived coin a.books.ledger)
    (hcharged : Workbench.Charged fees ⟨a.books, .fresh source coin⟩ s) :
    s.books.ledger.balances holding = [s.transfer.destinationCoin] := by
  have hleft : s.transfer.destinationAmount.toNat = Fee.left coin.amount.toNat fees :=
    hcharged.left
  have hdenom : s.transfer.destinationDenom = coin.denom := hcharged.denom
  have hless : s.transfer.destinationAmount.toNat ≤ coin.amount.toNat := hcharged.amount_le
  apply Ledger.balances_eq_singleton_iff.2
  constructor
  · exact Amount.isZero_eq_false_iff.2 (hleft ▸ h.left)
  · intro denom
    have hpaid := hcharged.paid.funds holding denom
    have hcame := harrived.funds_holding denom
    change _ + (if holding = holding ∧ denom = coin.denom then
      coin.amount.toNat - s.transfer.destinationAmount.toNat else 0) =
        a.books.ledger.funds holding denom + (if denom = coin.denom then
          Fee.gain holding coin.amount.toNat fees else 0) at hpaid
    rw [Fee.gain_eq_zero h.recipients] at hpaid
    change _ = if denom = s.transfer.destinationDenom then s.transfer.destinationAmount.toNat else 0
    by_cases hd : denom = coin.denom
    · rw [if_pos hd] at hpaid hcame
      rw [if_pos ⟨rfl, hd⟩] at hpaid
      rw [if_pos (hd.trans hdenom.symm)]
      omega
    · have hnone : w.books.ledger.funds holding denom = 0 :=
        congrArg Amount.toNat (h.alone denom hd)
      rw [if_neg hd] at hpaid hcame
      rw [if_neg fun h => hd h.2] at hpaid
      rw [if_neg fun h => hd (h.trans hdenom)]
      omega

theorem dispatch (hr : r.Fitted) (hw : w.disk.Readable)
    (hraw : r.Bears source raw w coin payload) (h : r.Permits w coin payload fees)
    (hdisk : a.disk = w.disk) (harrived : w.books.ledger.Arrived coin a.books.ledger) :
    ∃ s, r.dispatch payload ⟨a, .fresh source coin⟩ = .ok () s := by
  obtain ⟨hforwarding, hactions⟩ := Payload.check_eq_ok.1 hraw.payload
  have hfees : ∀ a ∈ fees, a.check = .ok () := by
    intro a ha
    have hmem : Action.fee a ∈ payload.preActions := h.preActions ▸ List.mem_map_of_mem ha
    exact (Action.check_eq_ok.1 (hactions _ hmem)).2.2
  have hcovered := h.covered hraw harrived
  obtain ⟨s, hexecuted⟩ : ∃ s,
      executeAll r.execute (fees.map Action.fee) ⟨a, .fresh source coin⟩ = .ok () s :=
    executeAll_run hr (hdisk ▸ hw) (hdisk ▸ h.actionActive) hfees hcovered
  have hcharged := charged_of_executeAll hr hexecuted
  have hstill : s.world.disk = w.disk := by
    have hkept := (among_executeAll (D := Disk.Still) (P := fun _ => True) hr trivial
      fun _ _ _ _ => trivial).ok hexecuted
    exact (hkept.world.disk (hdisk ▸ hw)).trans hdisk
  obtain ⟨c, hc⟩ := Option.isSome_iff_exists.1 h.routed
  have hpacket : ForwardingPacket.check ⟨s.transfer, payload.forwarding⟩ = .ok () :=
    check_then_eq_ok.2 ⟨(hcharged.covered hcovered).check, hforwarding⟩
  have hprepare : r.prepare ⟨s.transfer, payload.forwarding⟩ s.world = .ok c s.world := by
    apply prepare_run (hstill ▸ hw) hpacket
    · exact hstill ▸ h.protocolActive
    · exact hstill ▸ h.routeActive
    · rw [hr.holding]
      exact h.held harrived hcharged
    · exact hc
  obtain ⟨w₁, hforward⟩ := forward_run hr ⟨c, hprepare⟩ (hcharged.covered hcovered).supply
  obtain ⟨w₂, hattempt⟩ := attempt_run (Statistics.record s.transfer
    ⟨payload.forwarding.protocol, payload.forwarding.attributes.counterparty⟩) w₁
  refine ⟨⟨w₂, s.transfer⟩, ?_⟩
  rw [dispatch_eq]
  refine bind_eq_ok.2 ⟨_, s, ready_eq_ok.2 ⟨hcovered.check, hraw.payload,
    Forwarding.destination_of_check hforwarding, h.preActions ▸ hexecuted⟩, ?_⟩
  exact release_eq_ok.2 ⟨w₁, w₂, hforward, hattempt, rfl⟩

end Router.Permits

/-! ## The delivery -/

/-- Recorded payloads that a packet names are completed once the packet is out. -/
theorem Router.deliver_run (hr : r.Fitted) (hw : w.disk.Reliable)
    (hraw : r.Bears source raw w coin payload) (h : r.Permits w coin payload fees) :
    ∃ packet w', Testbed.deliver r source raw w = .ok packet w' := by
  obtain ⟨pending, hresolve⟩ := hraw.resolve
  obtain ⟨-, hresolved⟩ := resolve_ok hw.readable hresolve
  obtain ⟨params, hparams, hlength⟩ := h.passthrough
  have hsupply : w.books.ledger.supply coin.denom < Amount.size :=
    Nat.lt_of_le_of_lt (Nat.le_add_right _ _) h.supply
  obtain ⟨a, harrive⟩ : ∃ a, r.arrive ⟨.fresh source coin, payload⟩ Testbed.receive w = .ok () a :=
    arrive_run hr rfl (Coin.check_eq_ok.1 hraw.coin) hsupply hparams hlength
  obtain ⟨u, hu, hsettled, harrived⟩ := arrive_ok hr rfl harrive
  have hdisk : a.disk = w.disk := hsettled.disk.trans (hu.disk hw.readable)
  obtain ⟨s, hdispatch⟩ := h.dispatch hr hw.readable hraw hdisk harrived
  have hsource : s.transfer.source = .ok source := by
    obtain ⟨hkept, -⟩ := dispatch_endpoints hr.wired.faithful hdispatch
    exact hkept.endpoint.trans hresolved.source
  have hdestination := Forwarding.destination_of_check (Payload.check_eq_ok.1 hraw.payload).1
  obtain ⟨x, hcarry⟩ : ∃ x, r.carry ⟨.fresh source coin, payload⟩ Testbed.receive w =
      .ok s.transfer x :=
    ⟨_, carry_eq_ok.2 ⟨a, harrive, process_eq_ok.2
      ⟨s, source, _, hdispatch, hsource, hdestination, rfl⟩⟩⟩
  have hdispatched := carry_ok hr.wired.faithful hw.readable hresolved.source hcarry
  obtain ⟨w', hcomplete⟩ := hresolved.complete_run hw hdispatched
  refine ⟨⟨s.transfer, payload⟩, w', ?_⟩
  rw [Testbed.deliver, deliver_eq]
  exact passage_eq_ok.2 ⟨_, pending, w, s.transfer, x, hresolve, hcarry, hcomplete, rfl⟩

/-- A payload that takes fees and forwards the rest is delivered. The dust account has what was left
in the holding account, every recipient its fees and the escrow account the rest, also where these
are the same account; nothing else changes. -/
theorem delivered_with_fees (r : Router) (source : CrossChainId) (raw : Bytes) (w : World)
    (coin : Coin) (payload : Payload) (fees : List FeeAttributes) (hr : r.Fitted)
    (hw : w.disk.Reliable) (hraw : r.Bears source raw w coin payload)
    (h : r.Permits w coin payload fees) :
    ∃ packet w', Testbed.deliver r source raw w = .ok packet w' ∧
      packet.transfer.destinationAmount.toNat = Fee.left coin.amount.toNat fees ∧
        ∀ account denom, w'.books.ledger.funds account denom =
          if account = holding then 0
          else w.books.ledger.funds account denom +
            if denom = coin.denom then
              (if account = dust then w.books.ledger.funds holding denom else 0) +
                Fee.gain account coin.amount.toNat fees +
                  (if account = escrow payload.forwarding.protocol then
                    Fee.left coin.amount.toNat fees else 0)
            else 0 := by
  obtain ⟨packet, w', hrun⟩ := Router.deliver_run hr hw hraw h
  obtain ⟨parsed, a, s, v, hstages⟩ := Testbed.stages_of_deliver hr hrun
  obtain ⟨pending, u, hresolve⟩ := hstages.resolved
  obtain ⟨pending', hresolve'⟩ := hraw.resolve
  obtain rfl : parsed = ⟨.fresh source coin, payload⟩ := by
    rw [hresolve'] at hresolve
    exact (congrArg Prod.fst (EStateM.Result.ok.inj hresolve).1).symm
  have hcharged := charged_of_executeAll hr (h.preActions ▸ hstages.executed)
  have hleft : s.transfer.destinationAmount.toNat = Fee.left coin.amount.toNat fees :=
    hcharged.left
  refine ⟨packet, w', hrun, ?_, fun account denom => ?_⟩
  · rw [hstages.packet]
    exact hleft
  rw [hstages.after.1]
  by_cases haccount : account = holding
  · rw [if_pos haccount, haccount]
    exact hstages.forwarded.emptied denom
  · have hcame := hstages.arrived.funds_of_ne haccount denom
    have hpaid := hcharged.paid.funds account denom
    have hsent := hstages.forwarded.moved.funds account denom
    have hdenom : s.transfer.destinationCoin.denom = coin.denom := hcharged.denom
    have hamount : s.transfer.destinationCoin.amount.toNat = Fee.left coin.amount.toNat fees :=
      hleft
    rw [if_neg fun h => haccount h.1, Nat.add_zero] at hpaid hsent
    rw [hdenom, hamount] at hsent
    change s.world.books.ledger.funds account denom = a.books.ledger.funds account denom +
      (if denom = coin.denom then Fee.gain account coin.amount.toNat fees else 0) at hpaid
    change a.books.ledger.funds account denom = w.books.ledger.funds account denom +
      (if account = dust ∧ denom = coin.denom then w.books.ledger.funds holding coin.denom
        else 0) at hcame
    rw [if_neg haccount, hsent, hpaid, hcame]
    by_cases hd : denom = coin.denom
    · subst hd
      simp only [and_true, if_true, Nat.add_assoc]
    · simp only [hd, and_false, if_false, Nat.add_zero]

end

namespace Testbed

theorem bears_taxed :
    (carrier ⟨coin, .inline taxed⟩).Bears origin [] littered coin taxed where
  endpoint := rfl
  parsed := ⟨_, _, rfl, rfl, .inl rfl⟩
  coin := rfl
  payload := rfl

theorem permits_taxed : (carrier ⟨coin, .inline taxed⟩).Permits littered coin taxed
    [⟨[⟨"treasury", 500⟩]⟩] where
  preActions := rfl
  passthrough := ⟨.initial, rfl, by decide⟩
  actionActive _ := rfl
  protocolActive := rfl
  routeActive := rfl
  routed := rfl
  recipients := by decide
  alone denom hdenom := by
    change ((Ledger.empty.set swapPool _ _).set holding _ _).balance holding denom = .zero
    rw [Ledger.balance_set, if_neg fun h => hdenom h.2.symm, Ledger.balance_set,
      if_neg fun h => absurd h.1 (by decide)]
    rfl
  supply := by decide +kernel
  amount := by decide +kernel
  left := by decide +kernel

theorem delivered_taxed : ∃ packet w',
    Testbed.deliver (carrier ⟨coin, .inline taxed⟩) origin [] littered = .ok packet w' ∧
      packet.transfer.destinationAmount.toNat = 95 ∧
        w'.books.ledger.funds "treasury" "uusdc" = 5 ∧ w'.books.ledger.funds dust "uusdc" = 7 ∧
          w'.books.ledger.funds (escrow .cctp) "uusdc" = 95 := by
  have hreliable : littered.disk.Reliable := reliable_world
  obtain ⟨packet, w', hrun, hleft, hfunds⟩ := delivered_with_fees _ _ _ _ _ _ _
    (fitted_carrier _) hreliable bears_taxed permits_taxed
  refine ⟨packet, w', hrun, hleft, ?_, ?_, ?_⟩
  · rw [hfunds]
    decide +kernel
  · rw [hfunds]
    decide +kernel
  · rw [hfunds]
    decide +kernel

end Testbed

end TransferRouter
