import TransferRouter.Proofs.Conservation
import TransferRouter.Proofs.Isolation

/-!
What an earlier packet left in the holding account never stands in for what a packet should bring.
Under any configuration that passes its check, the account has nothing of a packet's denomination
when the funds of the packet are received, and at least its amount when it is dispatched. In the
testbed the residue cannot be told from the answer, from what is sent or from what is reported and
stored: all of it ends up in the dust account.
-/

namespace TransferRouter

open Testbed (holding swapPool dust)

/-! ## Around the arrival of the funds -/

/-- True for all reports but those about cleared dust. -/
def Event.isLasting : Event → Bool
  | dustCleared _ => false
  | _ => true

instance : Books.AllowsArrival (Books.Quiet Event.isLasting) where
  ledger _ _ := ⟨rfl, rfl⟩
  dust _ _ := ⟨Books.sameReports_append rfl, rfl⟩

namespace Router

section

variable (r : Router) (source : CrossChainId) (raw : Bytes) (receive : RoutedPacket → LedgerM Unit)
variable (w : World)

/-- A packet whose funds were received, with the worlds right before and right after. -/
structure Receives (packet : RoutedPacket) (pending : Option PayloadHash) (u v : World) : Prop where
  cleared : ∃ t, r.resolve source raw w = .ok (packet, pending) t ∧
    r.beforeArrival packet t = .ok () u
  received : RouterM.onLedger (receive packet) u = .ok () v

/-- A packet that is to be dispatched: its funds were received, and that was confirmed. -/
structure Reaches (packet : RoutedPacket) (pending : Option PayloadHash) (u v : World) : Prop
    extends r.Receives source raw receive w packet pending u v where
  confirmed : r.afterArrival packet v = .ok () v

/-- The way of a packet whose funds arrived: it is dispatched, and what it names is completed. -/
def conclude (packet : RoutedPacket) (pending : Option PayloadHash) : RouterM RoutedPacket := do
  let p ← RouterM.staged packet.transfer (r.process packet.payload)
  complete pending
  return ⟨p.2, packet.payload⟩

/-- A delivery that ends before the dispatch. Other handlers would make no difference to it, so none
was asked. -/
structure Undispatched (e : RouterError) (w' : World) : Prop where
  answer : ∀ actions forwarders, { r with actions := actions, forwarders := forwarders }.deliver
    source raw receive w = .error e w'
  unchanged : w.Within Disk.Still (Books.Quiet Event.isLasting) w'

end

variable {r : Router} {source : CrossChainId} {raw : Bytes} {receive : RoutedPacket → LedgerM Unit}
variable {w u v : World} {packet : RoutedPacket} {pending : Option PayloadHash}

/-- What becomes of a packet that is to be dispatched is what its dispatch makes of it. -/
theorem Reaches.deliver_eq (h : r.Reaches source raw receive w packet pending u v) :
    r.deliver source raw receive w = r.conclude packet pending v := by
  obtain ⟨t, hresolve, hbefore⟩ := h.cleared
  have harrive : r.arrive packet receive t = .ok () v :=
    bind_eq_ok.2 ⟨(), u, hbefore, bind_eq_ok.2 ⟨(), v, h.received, h.confirmed⟩⟩
  rw [Router.deliver_eq, passage, bind_of_ok hresolve, carry, bind_assoc, bind_of_ok harrive,
    conclude]
  simp only [bind_assoc, pure_bind]

/-- A delivery either comes to the dispatch or ends before it. -/
theorem reaches_or_undispatched (r : Router) (source : CrossChainId) (raw : Bytes)
    (receive : RoutedPacket → LedgerM Unit) (w : World) :
    (∃ packet pending u v, r.Reaches source raw receive w packet pending u v) ∨
      ∃ e w', r.Undispatched source raw receive w e w' := by
  have harrives : ∀ packet, Keeps (World.Within Disk.Still (Books.Quiet Event.isLasting))
      (r.arrive packet receive) := fun packet => keeps_arrive r packet receive
  cases hresolve : r.resolve source raw w with
  | error e t =>
    exact .inr ⟨e, t, fun _ _ => bind_of_error hresolve,
      (keeps_resolve r source raw).error hresolve⟩
  | ok p t =>
    have hread : w.Within Disk.Still (Books.Quiet Event.isLasting) t :=
      (keeps_resolve r source raw).ok hresolve
    cases harrive : r.arrive p.1 receive t with
    | error e w' =>
      refine .inr ⟨e, w', fun _ _ => ?_, trans_of _ hread ((harrives p.1).error harrive)⟩
      rw [deliver_eq]
      exact (bind_of_ok hresolve).trans (bind_of_error (bind_of_error harrive))
    | ok _ v =>
      obtain ⟨_, u, hbefore, h⟩ := bind_eq_ok.1 harrive
      obtain ⟨_, v', hreceive, hafter⟩ := bind_eq_ok.1 h
      obtain rfl := afterArrival_ok hafter
      exact .inl ⟨p.1, p.2, u, v, ⟨⟨t, hresolve, hbefore⟩, hreceive⟩, hafter⟩

/-- The funds of a packet are received by an account that has nothing of their denomination. -/
theorem Receives.funds_cleared (hr : r.config.check = .ok ())
    (h : r.Receives source raw receive w packet pending u v) :
    u.books.ledger.funds r.config.accounts.holding packet.transfer.sourceDenom = 0 := by
  obtain ⟨t, hresolve, hbefore⟩ := h.cleared
  obtain ⟨-, -, -, hne, -, -⟩ := Config.check_eq_ok.1 hr
  have hdenom : packet.transfer.destinationDenom = packet.transfer.sourceDenom :=
    congrArg Coin.denom (resolve_check hresolve).2
  rw [beforeArrival_eq] at hbefore
  obtain ⟨_, t', -, hclear⟩ := bind_eq_ok.1 hbefore
  obtain ⟨-, hmoved⟩ := clear_moved hclear
  exact hdenom ▸ hmoved.funds_emptied hne

/-- A packet whose funds do not come is not dispatched, whatever the holding account had. -/
theorem undispatched_of_unfunded (hr : r.config.check = .ok ())
    (hreceive : ∀ packet pending u v, r.Receives source raw receive w packet pending u v →
      packet.transfer.sourceAmount.toNat ≠ 0 ∧
        v.books.ledger.funds r.config.accounts.holding packet.transfer.sourceDenom =
          u.books.ledger.funds r.config.accounts.holding packet.transfer.sourceDenom) :
    ∃ e w', r.Undispatched source raw receive w e w' := by
  rcases reaches_or_undispatched r source raw receive w with ⟨packet, pending, u, v, h⟩ | h
  · obtain ⟨hamount, hsame⟩ := hreceive packet pending u v h.toReceives
    have hcleared := h.toReceives.funds_cleared hr
    obtain ⟨-, hheld⟩ := afterArrival_held h.confirmed
    omega
  · exact h

end Router

/-! ## Two ledgers -/

/-- Ledgers that differ in one balance at most. -/
def Ledger.OffAt (account denom : String) (l l' : Ledger) : Prop :=
  ∀ a d, ¬ (a = account ∧ d = denom) → l'.funds a d = l.funds a d

/-- Books after a residue of `m` in one and of `n` in the other went to the dust account, where it
can overflow nothing: they differ only there, and by the difference of the residues. -/
structure Books.Swept (denom : String) (m n : Nat) (b b' : Books) : Prop where
  elsewhere : b.ledger.OffAt dust denom b'.ledger
  shifted : b'.ledger.funds dust denom + m = b.ledger.funds dust denom + n
  room : b.ledger.supply denom < Amount.size ∧ b'.ledger.supply denom < Amount.size
  reports : b.SameReports Event.isLasting b'
  outbox : b'.outbox = b.outbox

/-- Books that differ in what the holding account has of a denomination. -/
structure Books.Littered (denom : String) (b b' : Books) : Prop where
  ledger : b.ledger.OffAt holding denom b'.ledger
  reports : b'.events = b.events
  outbox : b'.outbox = b.outbox

section

variable {denom : String} {m n : Nat}

theorem Books.Swept.alike {b b' : Books} (h : b.Swept denom m n b') :
    b.ledger.Alike (fun _ => True) (fun _ => True) b'.ledger where
  held d := h.elsewhere holding d fun hd => Testbed.holding_ne_dust hd.1
  pool d _ := h.elsewhere swapPool d fun hd => absurd hd.1 (by decide)
  room d _ := by
    by_cases hd : d = denom
    · exact .inr (hd ▸ h.room)
    · exact .inl fun a => h.elsewhere a d fun ha => hd ha.2

theorem Books.Swept.moved {b b' : Books} {l l' : Ledger} {sender receiver : String} {coin : Coin}
    (h : b.Swept denom m n b') (hl : b.ledger.Moved sender receiver coin l)
    (hl' : b'.ledger.Moved sender receiver coin l') :
    Books.Swept denom m n { b with ledger := l } { b' with ledger := l' } where
  elsewhere a d hne := hl.congr hl' (h.elsewhere a d hne)
  shifted := by
    have hfunds := hl.funds dust denom
    have hfunds' := hl'.funds dust denom
    have hshifted := h.shifted
    change l'.funds dust denom + m = l.funds dust denom + n
    omega
  room := by
    change l.supply denom < _ ∧ l'.supply denom < _
    rw [hl.supply, hl'.supply]
    exact h.room
  reports := h.reports
  outbox := h.outbox

theorem Books.Swept.reported {b b' : Books} (h : b.Swept denom m n b') (event : Event) :
    Books.Swept denom m n { b with events := b.events ++ [event] }
      { b' with events := b'.events ++ [event] } := by
  refine ⟨h.elsewhere, h.shifted, h.room, ?_, h.outbox⟩
  change (b'.events ++ [event]).filter _ = (b.events ++ [event]).filter _
  rw [List.filter_append, List.filter_append, h.reports]

theorem respected_swept :
    Books.Respected (fun _ => True) (fun _ => True) (Books.Swept denom m n) := by
  apply respected_of_moved _ _ fun _ h => h
  · exact fun event => Respects.modify fun _ _ h => h.reported event
  · exact fun shipment h => ⟨h.elsewhere, h.shifted, h.room, h.reports,
      congrArg (· ++ [shipment]) h.outbox⟩
  · exact fun h => h.alike
  · exact fun h hl hl' => h.moved hl hl'

/-- Once the funds of a packet arrived, only the dust account tells what was left behind. -/
theorem Ledger.OffAt.arrived {coin : Coin} {l l' k k' : Ledger}
    (h : l.OffAt holding coin.denom l') (hk : l.Arrived coin k) (hk' : l'.Arrived coin k') :
    k.OffAt dust coin.denom k' ∧
      k'.funds dust coin.denom + l.funds holding coin.denom =
        k.funds dust coin.denom + l'.funds holding coin.denom := by
  have hdust : dust ≠ holding := Testbed.holding_ne_dust.symm
  constructor
  · intro a d hne
    by_cases ha : a = holding
    · rw [ha, hk.funds_holding, hk'.funds_holding]
      split
      · rfl
      next hd => exact h holding d fun heq => hd heq.2
    · rw [hk.funds_of_ne ha, hk'.funds_of_ne ha, if_neg hne, if_neg hne]
      exact h a d fun heq => ha heq.1
  · rw [hk.funds_of_ne hdust, hk'.funds_of_ne hdust, if_pos ⟨rfl, rfl⟩, if_pos ⟨rfl, rfl⟩,
      h dust coin.denom fun heq => hdust heq.1]
    omega

end

/-! ## Two deliveries -/

/-- The same answers in worlds that differ in what the holding account had of a denomination: all of
it ended up in the dust account, or the packet was refused and nothing was moved. -/
inductive World.Unswayed (denom : String) (w w' : World) :
    EStateM.Result RouterError World RoutedPacket →
      EStateM.Result RouterError World RoutedPacket → Prop
  | swept {x y : EStateM.Result RouterError World RoutedPacket}
      (h : Parallel (World.Beside (Books.Swept denom (w.books.ledger.funds holding denom)
        (w'.books.ledger.funds holding denom))) x y) : Unswayed denom w w' x y
  | unswept (e : RouterError) {u u' : World}
      (h : u.Beside (fun b b' => b = w.books ∧ b' = w'.books) u') :
      Unswayed denom w w' (.error e u) (.error e u')

namespace Router

/-- Reads a packet and refuses a passthrough payload that is too long. -/
def survey (r : Router) (source : CrossChainId) (raw : Bytes) :
    RouterM (RoutedPacket × Option PayloadHash) := do
  let p ← r.resolve source raw
  screen p.1.payload
  return p

theorem deliver_eq_survey (r : Router) (source : CrossChainId) (raw : Bytes)
    (receive : RoutedPacket → LedgerM Unit) :
    r.deliver source raw receive = r.survey source raw >>= fun p =>
      r.land p.1 receive >>= fun _ => r.conclude p.1 p.2 := by
  rw [deliver_eq]
  unfold passage survey carry conclude
  simp only [arrive_eq, bind_assoc, pure_bind]

theorem respects_survey {B : Books → Books → Prop} (r : Router) (source : CrossChainId)
    (raw : Bytes) : Respects (World.Beside B) (r.survey source raw) :=
  (respects_resolve r source raw).bind fun _ => (respects_screen _).bind fun _ => Respects.pure _

theorem respects_conclude {r : Router} (hr : r.Fitted) {B : Books → Books → Prop}
    (hB : Books.Respected (fun _ => True) (fun _ => True) B) (packet : RoutedPacket)
    (pending : Option PayloadHash) : Respects (World.Beside B) (r.conclude packet pending) := by
  have hprocess : Respects (Stage.Beside (fun _ => True) B) (r.process packet.payload) :=
    respects_process hr hB fun _ _ _ _ => ⟨trivial, trivial⟩
  exact (respects_staged trivial hprocess).bind fun _ =>
    (respects_complete hB.report pending).bind fun _ => Respects.pure _

variable {r : Router} {source : CrossChainId} {raw : Bytes} {w w' u : World}
variable {packet : RoutedPacket} {pending : Option PayloadHash}

theorem survey_ok (h : r.survey source raw w = .ok (packet, pending) u) :
    (∃ t, r.resolve source raw w = .ok (packet, pending) t) ∧ packet.check = .ok () ∧
      packet.transfer.destinationCoin = packet.transfer.sourceCoin := by
  obtain ⟨p, t, hresolve, h⟩ := bind_eq_ok.1 h
  obtain ⟨_, t', -, h⟩ := bind_eq_ok.1 h
  obtain ⟨rfl, -⟩ := pure_eq_ok.1 h
  exact ⟨⟨t, hresolve⟩, resolve_check hresolve⟩

theorem sameReports_of_settled (h : w.Settled w') :
    w.books.SameReports Event.isLasting w'.books := by
  obtain ⟨coins, hreports⟩ := h.reports
  have hdust : (coins.map Event.dustCleared).filter Event.isLasting = [] := by
    simp [Event.isLasting]
  change w'.books.events.filter _ = w.books.events.filter _
  rw [hreports, List.filter_append, hdust, List.append_nil]

/-- The funds of a packet arrive beside any residue, and only the dust account tells it then. -/
theorem land_swept (hr : r.Fitted) (hcheck : packet.check = .ok ())
    (hsame : packet.transfer.destinationCoin = packet.transfer.sourceCoin)
    (hw : w.Beside (Books.Littered packet.transfer.sourceDenom) w')
    (hroom : w.books.ledger.supply packet.transfer.sourceDenom +
      packet.transfer.sourceAmount.toNat < Amount.size)
    (hroom' : w'.books.ledger.supply packet.transfer.sourceDenom +
      packet.transfer.sourceAmount.toNat < Amount.size) :
    ∃ u u', r.land packet Testbed.receive w = .ok () u ∧
      r.land packet Testbed.receive w' = .ok () u' ∧
      u.Beside (Books.Swept packet.transfer.sourceDenom
        (w.books.ledger.funds holding packet.transfer.sourceDenom)
        (w'.books.ledger.funds holding packet.transfer.sourceDenom)) u' := by
  obtain ⟨htransfer, -⟩ := RoutedPacket.check_eq_ok.1 hcheck
  obtain ⟨-, -, hdenom, -⟩ := Transfer.check_eq_ok.1 htransfer
  obtain ⟨u, hu⟩ := land_run hr hsame hdenom (Nat.lt_of_le_of_lt (Nat.le_add_right ..) hroom)
  obtain ⟨u', hu'⟩ := land_run hr hsame hdenom (Nat.lt_of_le_of_lt (Nat.le_add_right ..) hroom')
  obtain ⟨hsettled, harrived⟩ := land_ok hr hsame hu
  obtain ⟨hsettled', harrived'⟩ := land_ok hr hsame hu'
  obtain ⟨helsewhere, hshifted⟩ := hw.books.ledger.arrived harrived harrived'
  refine ⟨u, u', hu, hu', ?_, helsewhere, hshifted, ⟨?_, ?_⟩, ?_, ?_⟩
  · rw [hsettled.disk, hsettled'.disk, hw.disk]
  · exact Nat.lt_of_le_of_lt (Nat.le_of_eq harrived.supply_self) hroom
  · exact Nat.lt_of_le_of_lt (Nat.le_of_eq harrived'.supply_self) hroom'
  · change u'.books.events.filter _ = u.books.events.filter _
    rw [sameReports_of_settled hsettled, sameReports_of_settled hsettled', hw.books.reports]
  · rw [hsettled.outbox, hsettled'.outbox, hw.books.outbox]

theorem unswayed_of_littered (hr : r.Fitted) {denom : String}
    (hdiffers : w.Beside (Books.Littered denom) w')
    (hresolve : ∀ packet pending u, r.resolve source raw w = .ok (packet, pending) u →
      packet.transfer.sourceDenom = denom ∧
        w.books.ledger.supply denom + packet.transfer.sourceAmount.toNat < Amount.size ∧
        w'.books.ledger.supply denom + packet.transfer.sourceAmount.toNat < Amount.size) :
    World.Unswayed denom w w' (Testbed.deliver r source raw w)
      (Testbed.deliver r source raw w') := by
  -- Nothing is moved before the packet is surveyed in both worlds.
  have hsurvey : Parallel (World.Beside fun b b' => b = w.books ∧ b' = w'.books)
      (r.survey source raw w) (r.survey source raw w') :=
    respects_survey r source raw w w' ⟨hdiffers.disk, rfl, rfl⟩
  rw [Testbed.deliver, deliver_eq_survey]
  generalize hs : r.survey source raw w = x at hsurvey
  generalize hs' : r.survey source raw w' = x' at hsurvey
  cases hsurvey with
  | error e h =>
    rw [bind_of_error hs, bind_of_error hs']
    exact .unswept e h
  | @ok u u' p h =>
    obtain ⟨packet, pending⟩ := p
    obtain ⟨⟨t, ht⟩, hcheck, hsame⟩ := survey_ok hs
    obtain ⟨rfl, hroom, hroom'⟩ := hresolve packet pending t ht
    obtain ⟨hdisk, hbooks, hbooks'⟩ := h
    rw [bind_of_ok hs, bind_of_ok hs']
    rw [← hbooks] at hroom
    rw [← hbooks'] at hroom'
    have hlittered : u.Beside (Books.Littered packet.transfer.sourceDenom) u' :=
      ⟨hdisk, hbooks ▸ hbooks' ▸ hdiffers.books⟩
    obtain ⟨v, v', hv, hv', hswept⟩ := land_swept hr hcheck hsame hlittered hroom hroom'
    rw [bind_of_ok hv, bind_of_ok hv']
    rw [hbooks, hbooks'] at hswept
    exact .swept (respects_conclude hr respected_swept packet pending v v' hswept)

end Router

/-- What the holding account has left never stands in for what a packet should bring. However the
funds are received, a packet is dispatched only if the account has nothing of their denomination
before and at least their amount after, hence never if the balance does not change. In the testbed,
ledgers that differ in the residue only lead to the same answers, and only the dust account tells
them apart if the packet was not refused before anything was moved. -/
theorem unswayed_of_residue (r : Router) (source : CrossChainId) (raw : Bytes) (w : World)
    (hr : r.config.check = .ok ()) :
    (∀ receive packet pending u v, r.Reaches source raw receive w packet pending u v →
      r.deliver source raw receive w = r.conclude packet pending v ∧
      u.books.ledger.funds r.config.accounts.holding packet.transfer.sourceDenom = 0 ∧
      packet.transfer.sourceAmount.toNat ≤
        v.books.ledger.funds r.config.accounts.holding packet.transfer.sourceDenom) ∧
    (∀ receive, (∀ packet pending u v, r.Receives source raw receive w packet pending u v →
      packet.transfer.sourceAmount.toNat ≠ 0 ∧
        v.books.ledger.funds r.config.accounts.holding packet.transfer.sourceDenom =
          u.books.ledger.funds r.config.accounts.holding packet.transfer.sourceDenom) →
      ∃ e w', r.Undispatched source raw receive w e w') ∧
    (r.Fitted → ∀ denom w', w.Beside (Books.Littered denom) w' →
      (∀ packet pending u, r.resolve source raw w = .ok (packet, pending) u →
        packet.transfer.sourceDenom = denom ∧
          w.books.ledger.supply denom + packet.transfer.sourceAmount.toNat < Amount.size ∧
          w'.books.ledger.supply denom + packet.transfer.sourceAmount.toNat < Amount.size) →
      World.Unswayed denom w w' (Testbed.deliver r source raw w)
        (Testbed.deliver r source raw w')) := by
  refine ⟨fun receive packet pending u v h => ?_, fun receive h => ?_, fun hfits denom w' h => ?_⟩
  · obtain ⟨-, hheld⟩ := Router.afterArrival_held h.confirmed
    exact ⟨h.deliver_eq, h.toReceives.funds_cleared hr, hheld⟩
  · exact Router.undispatched_of_unfunded hr h
  · exact Router.unswayed_of_littered hfits h

namespace Testbed

/-- A payload with a fee that goes to the dust account. -/
def dusty : Payload := { payload with preActions := [.fee ⟨[⟨dust, 500⟩]⟩] }

theorem littered_world : littered.Beside (Books.Littered coin.denom) world := by
  refine ⟨rfl, fun a d hne => ?_, rfl, rfl⟩
  change world.books.ledger.funds a d = (world.books.ledger.set holding coin.denom _).funds a d
  rw [Ledger.funds_set, if_neg fun h => hne ⟨h.1.symm, h.2.symm⟩]

/-- A packet that brings nothing is refused although there is a residue of its denomination. One
that brings its funds is dispatched, with a residue and without one, and only dust tells. -/
theorem unswayed_littered :
    (∃ e w', (carrier ⟨coin, .inline dusty⟩).Undispatched origin [] (fun _ => pure ()) littered
      e w') ∧
    ∃ packet u u', Testbed.deliver (carrier ⟨coin, .inline dusty⟩) origin [] littered =
        .ok packet u ∧
      Testbed.deliver (carrier ⟨coin, .inline dusty⟩) origin [] world = .ok packet u' ∧
      u.Beside (Books.Swept coin.denom 7 0) u' := by
  have hresolve : (carrier ⟨coin, .inline dusty⟩).resolve origin [] littered =
      .ok (⟨.fresh origin coin, dusty⟩, none) littered :=
    Router.resolve_eq_ok.2 ⟨rfl, _, _, rfl, rfl, rfl, rfl, rfl⟩
  have hread : ∀ packet pending u, (carrier ⟨coin, .inline dusty⟩).resolve origin [] littered =
      .ok (packet, pending) u → packet = ⟨.fresh origin coin, dusty⟩ := by
    intro packet pending u h
    obtain ⟨heq, -⟩ := EStateM.Result.ok.inj (h.symm.trans hresolve)
    exact (Prod.mk.inj heq).1
  obtain ⟨-, hunfunded, hresidue⟩ := unswayed_of_residue (carrier ⟨coin, .inline dusty⟩) origin []
    littered rfl
  constructor
  · refine hunfunded (fun _ => pure ()) fun packet pending u v h => ?_
    obtain ⟨t, ht, -⟩ := h.cleared
    obtain rfl := hread packet pending t ht
    obtain ⟨-, rfl⟩ := EStateM.Result.ok.inj h.received
    exact ⟨by decide, rfl⟩
  · have hsucceeds : succeeds (Testbed.deliver (carrier ⟨coin, .inline dusty⟩) origin [])
        littered = true := by decide +kernel
    obtain ⟨packet, u, hrun⟩ := exists_of_succeeds hsucceeds
    have hboth := hresidue (fitted_carrier _) coin.denom world littered_world
      fun packet pending u h => by
        obtain rfl := hread packet pending u h
        exact ⟨rfl, by decide +kernel, by decide +kernel⟩
    rw [hrun] at hboth
    generalize hrun' : Testbed.deliver (carrier ⟨coin, .inline dusty⟩) origin [] world = y at hboth
    cases hboth with
    | swept h =>
      cases h with
      | @ok _ u' _ h => exact ⟨packet, u, u', hrun, rfl, h⟩

end Testbed

end TransferRouter
