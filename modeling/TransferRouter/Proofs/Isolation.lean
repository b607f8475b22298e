import TransferRouter.Proofs.Fee
import TransferRouter.Proofs.Parallel
import TransferRouter.Proofs.Refusal

/-!
What a refused packet leaves for the next one. A refusal leaves the store and the outbox as they
were, but funds that arrived may stay behind. The next packet does not see them in its own
denomination, which is cleared before its funds arrive. It sees them in every other denomination,
because the holding account must have nothing else when a packet is forwarded, and where it swaps,
because the pool must have what it trades for.
-/

namespace TransferRouter

open Testbed (holding swapPool dust)

/-! ## Ledgers that handlers cannot tell apart -/

/-- Ledgers with the same in the holding account and, of what satisfies `P`, in the swap pool. Of
what satisfies `Q` they have the same everywhere, or no move can overflow a balance. -/
structure Ledger.Alike (P Q : String → Prop) (l l' : Ledger) : Prop where
  held : ∀ d, l'.funds holding d = l.funds holding d
  pool : ∀ d, P d → l'.funds swapPool d = l.funds swapPool d
  room : ∀ d, Q d → (∀ a, l'.funds a d = l.funds a d) ∨
    l.supply d < Amount.size ∧ l'.supply d < Amount.size

/-- Books with such ledgers and the same outbox. -/
structure Books.Alike (P Q : String → Prop) (b b' : Books) : Prop where
  ledger : b.ledger.Alike P Q b'.ledger
  outbox : b'.outbox = b.outbox

section

variable {P Q : String → Prop} {l l' m m' : Ledger} {sender receiver : String} {coin : Coin}

theorem Ledger.Moved.congr (h : l.Moved sender receiver coin m)
    (h' : l'.Moved sender receiver coin m') {a d : String} (hsame : l'.funds a d = l.funds a d) :
    m'.funds a d = m.funds a d := by
  have hfunds := h.funds a d
  have hfunds' := h'.funds a d
  omega

theorem Ledger.Alike.moved (h : l.Alike P Q l') (hm : l.Moved sender receiver coin m)
    (hm' : l'.Moved sender receiver coin m') : m.Alike P Q m' where
  held d := hm.congr hm' (h.held d)
  pool d hd := hm.congr hm' (h.pool d hd)
  room d hd := by
    rcases h.room d hd with hagree | hroom
    · exact .inl fun a => hm.congr hm' (hagree a)
    · rw [hm.supply, hm'.supply]
      exact .inr hroom

/-- A sender with the same in both ledgers can send the same. -/
theorem Ledger.Alike.send (h : l.Alike P Q l') (hdeals : Q coin.denom)
    (hsender : l'.funds sender coin.denom = l.funds sender coin.denom) :
    (∃ m m', l.send sender receiver [coin] = .ok m ∧ l'.send sender receiver [coin] = .ok m') ∨
      ∃ e, l.send sender receiver [coin] = .error e ∧
        l'.send sender receiver [coin] = .error e := by
  rcases h.room _ hdeals with hagree | ⟨hroom, hroom'⟩
  · exact send_congr sender receiver hagree
  by_cases hdenom : coin.denom = ""
  · exact .inr ⟨_, send_of_unnamed l sender receiver hdenom,
      send_of_unnamed l' sender receiver hdenom⟩
  by_cases henough : coin.amount.toNat ≤ l.funds sender coin.denom
  · obtain ⟨m, hm, -⟩ : ∃ m, l.send sender receiver [coin] = .ok m ∧ _ :=
      send_run hdenom henough hroom
    obtain ⟨m', hm', -⟩ : ∃ m', l'.send sender receiver [coin] = .ok m' ∧ _ :=
      send_run hdenom (hsender ▸ henough) hroom'
    exact .inl ⟨m, m', hm, hm'⟩
  · have hlt := Nat.lt_of_not_le henough
    have hbalance : l'.balance sender coin.denom = l.balance sender coin.denom := Amount.ext hsender
    have hlt' : l'.funds sender coin.denom < coin.amount.toNat := hsender ▸ hlt
    exact .inr ⟨_, send_of_lt hdenom hlt, hbalance ▸ send_of_lt hdenom hlt'⟩

section

variable {B : Books → Books → Prop} (halike : ∀ {b b'}, B b b' → b.ledger.Alike P Q b'.ledger)
variable (hmoved : ∀ {b b' m m' sender receiver coin}, B b b' →
  b.ledger.Moved sender receiver coin m → b'.ledger.Moved sender receiver coin m' →
    B { b with ledger := m } { b' with ledger := m' })

include halike hmoved

/-- A relation between books that moves preserve is respected by moves out of an account that has
the same in both. -/
theorem respects_send (hdeals : Q coin.denom) (hsender : ∀ l l' : Ledger, l.Alike P Q l' →
    l'.funds sender coin.denom = l.funds sender coin.denom) :
    Respects B (BooksM.onLedger (LedgerM.send sender receiver [coin])) := by
  intro b b' h
  rcases (halike h).send hdeals (hsender _ _ (halike h)) with ⟨m, m', hm, hm'⟩ | ⟨e, he, he'⟩
  · rw [BooksM.onLedger_eq_ok.2 ⟨m, LedgerM.send_eq_ok.2 hm, rfl⟩,
      BooksM.onLedger_eq_ok.2 ⟨m', LedgerM.send_eq_ok.2 hm', rfl⟩]
    exact .ok () (hmoved h (Ledger.send_ok hm) (Ledger.send_ok hm'))
  · rw [BooksM.onLedger_eq_error.2 ⟨_, LedgerM.send_eq_error.2 ⟨he, rfl⟩, rfl⟩,
      BooksM.onLedger_eq_error.2 ⟨_, LedgerM.send_eq_error.2 ⟨he', rfl⟩, rfl⟩]
    exact .error e h

theorem respected_of_moved (hPQ : ∀ d, P d → Q d)
    (hreport : ∀ event, Respects B (BooksM.emit event))
    (hship : ∀ {b b' : Books} (shipment : Shipment), B b b' →
      B { b with outbox := b.outbox ++ [shipment] }
        { b' with outbox := b'.outbox ++ [shipment] }) : Books.Respected P Q B where
  held h := Ledger.balances_congr fun d => Amount.ext ((halike h).held d)
  pay _ coin hdeals := respects_send halike hmoved hdeals fun _ _ h => h.held coin.denom
  draw coin hdraw := respects_send halike hmoved (hPQ _ hdraw) fun _ _ h => h.pool coin.denom hdraw
  report := hreport
  ship := hship

end

theorem respected_alike (hPQ : ∀ d, P d → Q d) : Books.Respected P Q (Books.Alike P Q) := by
  apply respected_of_moved _ _ hPQ
  · exact fun event => Respects.modify fun _ _ h => ⟨h.ledger, h.outbox⟩
  · exact fun shipment h => ⟨h.ledger, congrArg (· ++ [shipment]) h.outbox⟩
  · exact fun h => h.ledger
  · exact fun h hm hm' => ⟨h.ledger.moved hm hm', h.outbox⟩

end

/-! ## Ledgers that a packet cannot tell apart -/

namespace RoutedPacket

variable (packet : RoutedPacket)

def SwapsInto (denom : String) : Prop :=
  ∃ action ∈ packet.payload.preActions, action.SwapsInto denom

/-- What comes with a packet or is traded for. -/
def DealsIn (denom : String) : Prop :=
  denom = packet.transfer.sourceDenom ∨ packet.SwapsInto denom

/-- What comes with a packet of a denomination. -/
def incoming (denom : String) : Nat :=
  if denom = packet.transfer.sourceDenom then packet.transfer.sourceAmount.toNat else 0

/-- Ledgers that make no difference to a packet that is about to arrive. -/
structure Spared (l l' : Ledger) : Prop where
  /-- Of its own denomination the holding account will be cleared. -/
  held : ∀ d, d ≠ packet.transfer.sourceDenom → l'.funds holding d = l.funds holding d
  /-- What it trades for comes out of the pool. -/
  pool : ∀ d, packet.SwapsInto d → l'.funds swapPool d = l.funds swapPool d
  /-- Where they differ in what it deals in, no balance can overflow. -/
  room : ∀ d, packet.DealsIn d → (∀ a, l'.funds a d = l.funds a d) ∨
    l.supply d + packet.incoming d < Amount.size ∧ l'.supply d + packet.incoming d < Amount.size

end RoutedPacket

section

variable {r : Router} {packet : RoutedPacket} {l l' m m' : Ledger} {w w' : World}

/-- Once its funds arrived, the handlers cannot tell the ledgers apart either. -/
theorem RoutedPacket.Spared.arrived (h : packet.Spared l l')
    (hm : l.Arrived packet.transfer.sourceCoin m) (hm' : l'.Arrived packet.transfer.sourceCoin m') :
    m.Alike packet.SwapsInto packet.DealsIn m' where
  held d := by
    rw [hm.funds_holding, hm'.funds_holding]
    split
    · rfl
    next hd => exact h.held d hd
  pool d hd := by
    have hholding : swapPool ≠ holding := by decide
    have hdust : swapPool ≠ dust := by decide
    rw [hm.funds_of_ne hholding, hm'.funds_of_ne hholding, if_neg fun h => hdust h.1,
      if_neg fun h => hdust h.1, h.pool d hd]
  room d hd := by
    rw [hm.supply, hm'.supply]
    refine (h.room d hd).imp_left fun hagree a => ?_
    by_cases ha : a = holding
    · rw [ha, hm.funds_holding, hm'.funds_holding, hagree]
    · rw [hm.funds_of_ne ha, hm'.funds_of_ne ha, hagree]
      by_cases hcase : a = dust ∧ d = packet.transfer.sourceCoin.denom
      · rw [if_pos hcase, if_pos hcase, ← hcase.2, hagree]
      · rw [if_neg hcase, if_neg hcase]

/-- What another packet of the same denomination brought makes no difference: it will be cleared. -/
theorem RoutedPacket.Spared.of_arrived {coin : Coin} (h : l.Arrived coin l')
    (hdenom : coin.denom = packet.transfer.sourceDenom)
    (hroom : l'.supply coin.denom + packet.transfer.sourceAmount.toNat < Amount.size) :
    packet.Spared l l' where
  held d hd := by rw [h.funds_holding, if_neg fun heq => hd (heq.trans hdenom)]
  pool d _ := by
    have hdust : swapPool ≠ dust := by decide
    rw [h.funds_of_ne (by decide), if_neg fun heq => hdust heq.1, Nat.add_zero]
  room d _ := by
    by_cases hd : d = coin.denom
    · have hsupply := h.supply coin.denom
      rw [if_pos rfl] at hsupply
      rw [incoming, if_pos (hd.trans hdenom), hd]
      exact .inr ⟨by omega, hroom⟩
    · refine .inl fun a => ?_
      by_cases ha : a = holding
      · rw [ha, h.funds_holding, if_neg hd]
      · rw [h.funds_of_ne ha, if_neg fun heq => hd heq.2, Nat.add_zero]

theorem RoutedPacket.spared_self (packet : RoutedPacket) (l : Ledger) : packet.Spared l l where
  held _ _ := rfl
  pool _ _ := rfl
  room _ _ := .inl fun _ => rfl

/-- The holding account is cleared in both worlds, or in none. -/
theorem Router.clear_congr (hr : r.Fitted) {denom : String}
    (h : ∀ a, w'.books.ledger.funds a denom = w.books.ledger.funds a denom) :
    (∃ u u', r.clear denom w = .ok () u ∧ r.clear denom w' = .ok () u') ∨
      ∃ e, r.clear denom w = .error e w ∧ r.clear denom w' = .error e w' := by
  have hleftover : w'.books.ledger.balance holding denom = w.books.ledger.balance holding denom :=
    Amount.ext (h holding)
  rw [clear_eq hr, clear_eq hr, hleftover]
  split
  · exact .inl ⟨w, w', rfl, rfl⟩
  · have hcoin : ∀ a, w'.books.ledger.funds a
        (Coin.mk denom (w.books.ledger.balance holding denom)).denom =
          w.books.ledger.funds a denom := h
    rcases Ledger.send_congr holding dust hcoin with ⟨m, m', hm, hm'⟩ | ⟨e, he, he'⟩
    · rw [bind_of_ok (RouterM.onLedger_eq_ok.2 ⟨m, LedgerM.send_eq_ok.2 hm, rfl⟩),
        bind_of_ok (RouterM.onLedger_eq_ok.2 ⟨m', LedgerM.send_eq_ok.2 hm', rfl⟩)]
      exact .inl ⟨_, _, rfl, rfl⟩
    · rw [bind_of_error (RouterM.onLedger_eq_error.2 ⟨_, LedgerM.send_eq_error.2 ⟨he, rfl⟩, rfl⟩),
        bind_of_error (RouterM.onLedger_eq_error.2 ⟨_, LedgerM.send_eq_error.2 ⟨he', rfl⟩, rfl⟩)]
      exact .inr ⟨e, rfl, rfl⟩

/-- The funds of a packet arrive in both worlds, or in none. -/
theorem Router.land_both (hr : r.Fitted)
    (hsame : packet.transfer.destinationCoin = packet.transfer.sourceCoin)
    (hdenom : packet.transfer.sourceDenom ≠ "")
    (h : packet.Spared w.books.ledger w'.books.ledger) :
    (∃ u u', r.land packet Testbed.receive w = .ok () u ∧
      r.land packet Testbed.receive w' = .ok () u') ∨
    ∃ e, r.land packet Testbed.receive w = .error e w ∧
      r.land packet Testbed.receive w' = .error e w' := by
  have hdest : packet.transfer.destinationDenom = packet.transfer.sourceDenom :=
    congrArg Coin.denom hsame
  rcases h.room _ (.inl rfl) with hagree | ⟨hroom, hroom'⟩
  · rcases clear_congr hr (hdest ▸ hagree) with ⟨u, u', hu, hu'⟩ | ⟨e, he, he'⟩
    · obtain ⟨v, hv⟩ := receive_of_clear hr hsame hdenom hu
      obtain ⟨v', hv'⟩ := receive_of_clear hr hsame hdenom hu'
      exact .inl ⟨v, v', hv, hv'⟩
    · exact .inr ⟨e, bind_of_error he, bind_of_error he'⟩
  · obtain ⟨u, hu⟩ := land_run hr hsame hdenom (Nat.lt_of_le_of_lt (Nat.le_add_right ..) hroom)
    obtain ⟨u', hu'⟩ := land_run hr hsame hdenom (Nat.lt_of_le_of_lt (Nat.le_add_right ..) hroom')
    exact .inl ⟨u, u', hu, hu'⟩

/-- The same outbox. -/
def Books.SameOutbox (b b' : Books) : Prop := b'.outbox = b.outbox

/-- Books with the same outbox and ledgers that make no difference to a packet. -/
structure Books.Spared (packet : RoutedPacket) (b b' : Books) : Prop where
  ledger : packet.Spared b.ledger b'.ledger
  outbox : b'.outbox = b.outbox

/-- From the clearing of the holding account to the report. -/
theorem Router.land_process_both (hr : r.Fitted) (hcheck : packet.check = .ok ())
    (hsame : packet.transfer.destinationCoin = packet.transfer.sourceCoin)
    (hw : w.Beside (Books.Spared packet) w') :
    Parallel (World.Beside Books.SameOutbox)
      ((r.land packet Testbed.receive >>= fun _ =>
        RouterM.staged packet.transfer (r.process packet.payload)) w)
      ((r.land packet Testbed.receive >>= fun _ =>
        RouterM.staged packet.transfer (r.process packet.payload)) w') := by
  obtain ⟨htransfer, -⟩ := RoutedPacket.check_eq_ok.1 hcheck
  obtain ⟨-, -, hdenom, -⟩ := Transfer.check_eq_ok.1 htransfer
  rcases land_both hr hsame hdenom hw.books.ledger with ⟨v, v', hv, hv'⟩ | ⟨e, he, he'⟩
  · obtain ⟨hsettled, harrived⟩ := land_ok hr hsame hv
    obtain ⟨hsettled', harrived'⟩ := land_ok hr hsame hv'
    have halike : v.Beside (Books.Alike packet.SwapsInto packet.DealsIn) v' := by
      refine ⟨?_, hw.books.ledger.arrived harrived harrived', ?_⟩
      · rw [hsettled.disk, hsettled'.disk, hw.disk]
      · rw [hsettled.outbox, hsettled'.outbox, hw.books.outbox]
    have hdeals : packet.DealsIn packet.transfer.destinationDenom :=
      .inl (congrArg Coin.denom hsame)
    have hB : Books.Respected packet.SwapsInto packet.DealsIn (Books.Alike _ _) :=
      respected_alike fun _ => .inr
    have hprocess := respects_process hr hB fun action haction d hd =>
      ⟨⟨action, haction, hd⟩, .inr ⟨action, haction, hd⟩⟩
    rw [bind_of_ok hv, bind_of_ok hv']
    exact (respects_staged hdeals hprocess v v' halike).mono fun _ _ h => ⟨h.disk, h.books.outbox⟩
  · rw [bind_of_error he, bind_of_error he']
    exact .error e ⟨hw.disk, hw.books.outbox⟩

theorem Router.carry_both (hr : r.Fitted) (hcheck : packet.check = .ok ())
    (hsame : packet.transfer.destinationCoin = packet.transfer.sourceCoin)
    (hw : w.Beside (Books.Spared packet) w') :
    Parallel (World.Beside Books.SameOutbox) (r.carry packet Testbed.receive w)
      (r.carry packet Testbed.receive w') := by
  have hcarry : r.carry packet Testbed.receive = screen packet.payload >>= fun _ =>
      (r.land packet Testbed.receive >>= fun _ =>
        RouterM.staged packet.transfer (r.process packet.payload)) >>= fun p => pure p.2 := by
    rw [carry, arrive_eq]
    simp only [bind_assoc]
  rw [hcarry]
  apply (respects_screen packet.payload w w' hw).bind_of
  · exact fun _ _ h => ⟨h.disk, h.books.outbox⟩
  · exact fun _ u u' _ h => (land_process_both hr hcheck hsame h).bind fun _ => Respects.pure _

/-! ## After a refusal -/

/-- A refusal on a medium that never fails leaves the store and the outbox as they were. -/
theorem Router.beside_of_refused (hr : r.Fitted) {source : CrossChainId} {raw : Bytes}
    {e : RouterError} (hw : w.disk.Reliable)
    (h : Testbed.deliver r source raw w = .error e w') : w.Beside Books.SameOutbox w' := by
  cases ending_of_error hr.wired.faithful hw.readable h with
  | refused h => exact ⟨h.disk hw.readable, h.books.outbox⟩
  | interrupted hnamed hsent hget hwrite =>
    rw [Disk.write_run (hsent.disk.reliable hw .batch)] at hwrite
    exact absurd hwrite nofun

/-- A refused packet without pre-actions makes no difference to one of the same denomination, while
there is room for both. -/
theorem RoutedPacket.Spared.of_refused (hr : r.Fitted) (hw : w.disk.Reliable)
    {source : CrossChainId} {raw : Bytes} {e : RouterError}
    (h : Testbed.deliver r source raw w = .error e w')
    (hplain : ∀ refused pending, r.resolve source raw w = .ok (refused, pending) w →
      refused.payload.preActions = [] ∧
        refused.transfer.sourceDenom = packet.transfer.sourceDenom)
    (hroom : w'.books.ledger.supply packet.transfer.sourceDenom +
      packet.transfer.sourceAmount.toNat < Amount.size) :
    packet.Spared w.books.ledger w'.books.ledger := by
  rcases Router.withholds_of_refused hr hw h with rfl | ⟨refused, pending, hresolve, hwithheld⟩
  · exact packet.spared_self _
  obtain ⟨hactions, hdenom⟩ := hplain refused pending hresolve
  rcases hwithheld.plain hactions with hledger | harrived
  · rw [hledger]
    exact packet.spared_self _
  · rw [← hdenom] at hroom
    exact .of_arrived harrived hdenom hroom

/-- A packet that was refused makes no difference to the next one, provided that the ledger as the
refusal left it makes no difference to that one: it is answered with the same packet or the same
error, the same is sent, and the store is the same afterwards. -/
theorem isolated_of_refused (r : Router) (w w' : World) (p q : CrossChainId × Bytes)
    (e : RouterError) (hr : r.Fitted) (hw : w.disk.Reliable)
    (hp : Testbed.deliver r p.1 p.2 w = .error e w')
    (hq : ∀ packet pending u, r.resolve q.1 q.2 w = .ok (packet, pending) u →
      packet.Spared w.books.ledger w'.books.ledger) :
    Parallel (World.Beside Books.SameOutbox) (Testbed.deliver r q.1 q.2 w)
      (Testbed.deliver r q.1 q.2 w') := by
  have hbeside := Router.beside_of_refused hr hw hp
  -- Reading the packet changes nothing in either world.
  have hresolve : Parallel (World.Beside fun b b' => b = w.books ∧ b' = w'.books)
      (r.resolve q.1 q.2 w) (r.resolve q.1 q.2 w') :=
    respects_resolve r q.1 q.2 w w' ⟨hbeside.disk, rfl, rfl⟩
  rw [Testbed.deliver, Router.deliver_eq]
  apply hresolve.bind_of
  · rintro u u' ⟨hdisk, hu, hu'⟩
    exact ⟨hdisk, hu ▸ hu' ▸ hbeside.books⟩
  · rintro ⟨packet, pending⟩ u u' hrun ⟨hdisk, hu, hu'⟩
    obtain ⟨-, hresolved⟩ := Router.resolve_ok hw.readable hrun
    have hspared : Books.Spared packet w.books w'.books := ⟨hq packet pending u hrun, hbeside.books⟩
    have hcarry := Router.carry_both hr hresolved.check hresolved.untouched
      ⟨hdisk, hu ▸ hu' ▸ hspared⟩
    refine hcarry.bind fun transfer => ?_
    refine (respects_complete (fun event => ?_) pending).bind fun _ => Respects.pure _
    exact Respects.modify fun _ _ h => h

end

namespace Testbed

/-- A payload that forwards over IBC, which the testbed has no way out for. -/
def stranded : Payload := .forwardOnly (.ofAttributes (.ibc ⟨"channel-1", "bob", 0⟩) [])

/-- A payload that trades for what the swap pool has, before other pre-actions. -/
def traded (actions : List Action) : Payload :=
  { payload with
    preActions := .ofAttributes (.swap ⟨"uatom", ⟨1, by decide⟩, none⟩) :: actions }

/-- Packets that are stranded, have fees that leave nothing, or are in order. -/
def parcel : Bytes → InboundPacket
  | [] => ⟨coin, .inline stranded⟩
  | [0] => ⟨⟨"uusdc", ⟨2000000, by decide⟩⟩, .inline (traded [.fee ⟨[⟨"treasury", 10000⟩]⟩])⟩
  | [1] => ⟨⟨"uusdc", ⟨Amount.size - 1, by decide⟩⟩, .inline stranded⟩
  | [2] => ⟨coin, .inline payload⟩
  | [3] => ⟨coin, .inline (traded [])⟩
  | _ => ⟨⟨"uatom", ⟨50, by decide⟩⟩, .inline payload⟩

/-- The router of the testbed for these packets. -/
def sorter : Router :=
  { router with parsers := ⟨[(.ibc, ⟨.ibc, fun raw => .ok (parcel raw)⟩)], true⟩ }

theorem fitted_sorter : sorter.Fitted := fitted_router.withParsers _

/-- The testbed after a packet was stranded. -/
def burdened : World := leaves (Testbed.deliver sorter origin []) built

theorem deliver_stranded : ∃ e, Testbed.deliver sorter origin [] built = .error e burdened := by
  have hfails : succeeds (Testbed.deliver sorter origin []) built = false := by decide +kernel
  obtain ⟨e, w', hrun⟩ := exists_of_fails hfails
  exact ⟨e, hrun.trans (congrArg _ (leaves_of_error hrun).symm)⟩

/-- A packet of the same denomination does not see the stranded one. -/
theorem isolated_parcel : ∃ packet u u', Testbed.deliver sorter origin [2] built = .ok packet u ∧
    Testbed.deliver sorter origin [2] burdened = .ok packet u' ∧
      u.Beside Books.SameOutbox u' := by
  obtain ⟨e, hp⟩ := deliver_stranded
  have hstranded : sorter.resolve origin [] built =
      .ok (⟨.fresh origin coin, stranded⟩, none) built :=
    Router.resolve_eq_ok.2 ⟨rfl, _, _, rfl, rfl, rfl, rfl, rfl⟩
  have hsucceeds : succeeds (Testbed.deliver sorter origin [2]) built = true := by decide +kernel
  obtain ⟨packet, u, hrun⟩ := exists_of_succeeds hsucceeds
  have hresolve : sorter.resolve origin [2] built =
      .ok (⟨.fresh origin coin, payload⟩, none) built :=
    Router.resolve_eq_ok.2 ⟨rfl, _, _, rfl, rfl, rfl, rfl, rfl⟩
  have hboth := isolated_of_refused sorter built burdened ⟨origin, []⟩ ⟨origin, [2]⟩ e
    fitted_sorter reliable_built hp fun packet pending u h => by
      obtain ⟨heq, -⟩ := EStateM.Result.ok.inj (hresolve.symm.trans h)
      obtain ⟨rfl, -⟩ := Prod.mk.inj heq
      refine .of_refused fitted_sorter reliable_built hp (fun refused _ h => ?_) (by decide +kernel)
      obtain ⟨heq, -⟩ := EStateM.Result.ok.inj (hstranded.symm.trans h)
      obtain ⟨rfl, -⟩ := Prod.mk.inj heq
      exact ⟨rfl, rfl⟩
  rw [hrun] at hboth
  generalize hrun' : Testbed.deliver sorter origin [2] burdened = y at hboth
  cases hboth with
  | @ok _ u' _ hbeside => exact ⟨packet, u, u', hrun, rfl, hbeside⟩

/-- A packet that gets through is refused when another one was refused before it. -/
def Blocks (w : World) (p q : Bytes) : Prop :=
  ∃ e w', Testbed.deliver sorter origin p w = .error e w' ∧
    (∃ packet u, Testbed.deliver sorter origin q w = .ok packet u) ∧
      ∃ e' u, Testbed.deliver sorter origin q w' = .error e' u

theorem blocks_of {w : World} {p q : Bytes}
    (hp : succeeds (Testbed.deliver sorter origin p) w = false)
    (hq : succeeds (Testbed.deliver sorter origin q) w = true)
    (hq' : succeeds (Testbed.deliver sorter origin q)
      (leaves (Testbed.deliver sorter origin p) w) = false) : Blocks w p q := by
  obtain ⟨e, w', hrun⟩ := exists_of_fails hp
  rw [leaves_of_error hrun] at hq'
  exact ⟨e, w', hrun, exists_of_succeeds hq, exists_of_fails hq'⟩

/-- A refused packet blocks one of another denomination by what it left in the holding account, one
that trades by what it took out of the pool, and one of its own denomination where the dust account
has no room left. -/
theorem blocked_parcels : Blocks built [] [4] ∧ Blocks built [0] [3] ∧
    Blocks (leaves (Testbed.deliver sorter origin [1]) built) [] [2] := by
  refine ⟨blocks_of ?_ ?_ ?_, blocks_of ?_ ?_ ?_, blocks_of ?_ ?_ ?_⟩ <;> decide +kernel

end Testbed

end TransferRouter
