import TransferRouter.Proofs.Conservation
import TransferRouter.Proofs.Refusal

/-!
Deliveries to a paused destination. The breaker of the destination is asked after the pre-actions,
and what these moved stays moved: the delivery fails, nothing is sent, and of the ledger nothing
changes but what came with the arrival and what the pre-actions did. Without pre-actions the funds
are in the holding account.
-/

namespace TransferRouter

/-- The protocol of a forwarding is paused, or its route. -/
def World.Paused (w : World) (f : Forwarding) : Prop :=
  w.disk.store.contains (Key.pausedProtocol f.protocol).bytes = true ∨
    w.disk.store.contains (Key.pausedRoute f.protocol f.attributes.counterparty).bytes = true

section

variable {r : Router} {w w' : World} {e : RouterError}

theorem World.Paused.of_same {f : Forwarding} (h : Disk.Same w.disk w'.disk) (hw : w.Paused f) :
    w'.Paused f := by
  have hcontains : ∀ key, w'.disk.store.contains key = w.disk.store.contains key :=
    fun key => congrArg Option.isSome (h.get? key trivial)
  unfold World.Paused
  rw [hcontains, hcontains]
  exact hw

/-! ## The way to the breaker -/

/-- Nothing is forwarded to where it is paused. -/
theorem Router.prepare_of_paused {packet : ForwardingPacket} (hw : w.Paused packet.forwarding) :
    ∃ e w', r.prepare packet w = .error e w' := by
  cases hrun : r.prepare packet w with
  | error e w' => exact ⟨e, w', rfl⟩
  | ok c w' =>
    have hprepared := prepare_ok hrun
    have hdestination := Forwarding.destination_of_check (check_then_eq_ok.1 hprepared.check).2
    rcases hw with hprotocol | hroute
    · rw [hprepared.protocolActive] at hprotocol
      exact absurd hprotocol nofun
    · rw [hprepared.routeActive _ hdestination] at hroute
      exact absurd hroute nofun

/-- Pre-actions do not reach the breakers, so a dispatch to where it is paused does not succeed. -/
theorem Router.dispatch_ne_ok_of_paused (hr : r.Fitted) {payload : Payload} {s s' : Stage}
    (hs : s.world.Paused payload.forwarding) : r.dispatch payload s ≠ .ok () s' := by
  intro h
  rw [dispatch_eq] at h
  obtain ⟨destination, u, hready, hrelease⟩ := bind_eq_ok.1 h
  obtain ⟨-, -, -, hactions⟩ := ready_eq_ok.1 hready
  have hkept := (among_executeAll (D := Disk.Same) (P := fun _ => True) hr trivial
    fun _ _ _ _ => trivial).ok hactions
  obtain ⟨_, _, hforward, -, -⟩ := release_eq_ok.1 hrelease
  obtain ⟨e, v, hprepare⟩ : ∃ e v,
      r.prepare ⟨u.transfer, payload.forwarding⟩ u.world = .error e v :=
    prepare_of_paused (hs.of_same hkept.world.disk)
  rw [forward_eq, bind_of_error hprepare] at hforward
  exact absurd hforward nofun

theorem Router.carry_of_paused (hr : r.Fitted) {packet : RoutedPacket}
    (hw : w.Paused packet.payload.forwarding) :
    ∃ e w', r.carry packet Testbed.receive w = .error e w' := by
  cases hrun : r.carry packet Testbed.receive w with
  | error e w' => exact ⟨e, w', rfl⟩
  | ok transfer w' =>
    obtain ⟨a, harrive, hprocess⟩ := carry_eq_ok.1 hrun
    have hkept :=
      (keeps_arrive (D := Disk.Same) (B := Anything) r packet Testbed.receive).ok harrive
    obtain ⟨s, -, -, hdispatch, -, -, -⟩ := process_eq_ok.1 hprocess
    exact (dispatch_ne_ok_of_paused hr (hw.of_same hkept.disk) hdispatch).elim

/-! ## Delivery -/

/-- A packet whose destination is paused is refused and nothing of it is sent. The ledger afterwards
is as it was, or as the arrival and then the pre-actions of the packet left it. -/
theorem withheld_of_paused (r : Router) (source : CrossChainId) (raw : Bytes) (w : World)
    (hr : r.Fitted) (hw : ∀ packet pending u, r.resolve source raw w = .ok (packet, pending) u →
      w.Paused packet.payload.forwarding) :
    ∃ e w', Testbed.deliver r source raw w = .error e w' ∧
      match r.resolve source raw w with
      | .ok (packet, _) _ => r.Withholds packet w w'
      | .error .. => w'.books = w.books := by
  rw [Testbed.deliver, Router.deliver_eq]
  cases hresolve : r.resolve source raw w with
  | error e u =>
    have hbooks := ((keeps_resolve (D := Disk.Still) (B := Eq) r source raw).error hresolve).books
    exact ⟨e, u, bind_of_error hresolve, hbooks.symm⟩
  | ok p u =>
    obtain ⟨⟨transfer, payload⟩, pending⟩ := p
    have hkept := (keeps_resolve (D := Disk.Same) (B := Eq) r source raw).ok hresolve
    have hpaused := (hw _ _ _ hresolve).of_same hkept.disk
    obtain ⟨-, parser, inbound, -, -, -, harriving, hcheck⟩ := Router.resolve_eq_ok.1 hresolve
    obtain ⟨hsource, hsame⟩ := Transfer.arriving_ok harriving
    obtain ⟨e, w', hcarry⟩ := Router.carry_of_paused hr hpaused
    have hwithheld := Router.carry_leaves hr hcheck hsource hsame hcarry
    exact ⟨e, w', (bind_of_ok hresolve).trans (bind_of_error hcarry), hwithheld.of_within hkept⟩

end

namespace Testbed

/-- The testbed after the authority paused CCTP. -/
def paused : World := leaves (router.setTraffic "gov" .cctp [] true) built

theorem paused_taxed : paused.Paused taxed.forwarding := .inl (by decide +kernel)

theorem resolve_taxed : (carrier ⟨coin, .inline taxed⟩).resolve origin [] paused =
    .ok (⟨.fresh origin coin, taxed⟩, none) paused :=
  Router.resolve_eq_ok.2 ⟨rfl, _, _, rfl, rfl, rfl, rfl, rfl⟩

theorem withheld_taxed : ∃ e w',
    Testbed.deliver (carrier ⟨coin, .inline taxed⟩) origin [] paused = .error e w' ∧
      (carrier ⟨coin, .inline taxed⟩).Withholds ⟨.fresh origin coin, taxed⟩ paused w' := by
  obtain ⟨e, w', hrun, hwithheld⟩ := withheld_of_paused (carrier ⟨coin, .inline taxed⟩) origin []
    paused (fitted_carrier _) fun packet pending u h => by
      rw [resolve_taxed] at h
      obtain ⟨heq, -⟩ := EStateM.Result.ok.inj h
      exact (congrArg (·.1.payload.forwarding) heq) ▸ paused_taxed
  rw [resolve_taxed] at hwithheld
  exact ⟨e, w', hrun, hwithheld⟩

/-- The fee of a payload is taken before the breaker of its destination is asked: of the coin that
came, the holding account does not have all. -/
theorem charged_though_paused : paused.Paused taxed.forwarding ∧ ∃ e w',
    Testbed.deliver (carrier ⟨coin, .inline taxed⟩) origin [] paused = .error e w' ∧
      w'.books.ledger.funds "treasury" "uusdc" = 5 ∧
        w'.books.ledger ≠ paused.books.ledger ∧
          ¬ paused.books.ledger.Arrived coin w'.books.ledger := by
  have hfails : succeeds (Testbed.deliver (carrier ⟨coin, .inline taxed⟩) origin []) paused =
      false := by
    decide +kernel
  have hfee : (leaves (Testbed.deliver (carrier ⟨coin, .inline taxed⟩) origin [])
      paused).books.ledger.funds "treasury" "uusdc" = 5 := by
    decide +kernel
  have hbefore : paused.books.ledger.funds "treasury" "uusdc" = 0 := by
    decide +kernel
  obtain ⟨e, w', hrun⟩ := exists_of_fails hfails
  rw [leaves_of_error hrun] at hfee
  refine ⟨paused_taxed, e, w', hrun, hfee, fun heq => ?_, fun harrived => ?_⟩
  · rw [heq, hbefore] at hfee
    exact absurd hfee nofun
  · rw [harrived.funds_of_ne (by decide), hbefore] at hfee
    exact absurd hfee (by decide)

end Testbed

end TransferRouter
