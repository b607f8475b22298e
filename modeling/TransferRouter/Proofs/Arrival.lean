import TransferRouter.Proofs.Check
import TransferRouter.Proofs.Ledger
import TransferRouter.Proofs.Wiring

/-!
The arrival of the funds of a packet. What the holding account had of the denomination goes to the
dust account, then the coin is added to the holding account. Nothing can fail between the two, so an
arrival that fails leaves everything as it was.
-/

namespace TransferRouter

open Testbed (holding dust)

/-! ## The ledger -/

/-- A ledger after the holding account was cleared of a denomination and a coin of it arrived. -/
def Ledger.Arrived (l : Ledger) (coin : Coin) (l' : Ledger) : Prop :=
  ∃ m : Ledger, l.Moved holding dust ⟨coin.denom, l.balance holding coin.denom⟩ m ∧
    m.Gained holding coin l'

theorem Testbed.holding_ne_dust : holding ≠ dust := by decide

namespace Ledger.Arrived

variable {l l' : Ledger} {coin : Coin}

/-- What arrives is new; the rest is only elsewhere. -/
theorem supply (h : l.Arrived coin l') (d : String) :
    l'.supply d = l.supply d + if d = coin.denom then coin.amount.toNat else 0 := by
  obtain ⟨m, hmoved, hgained⟩ := h
  rw [hgained.supply, hmoved.supply]

theorem supply_self (h : l.Arrived coin l') :
    l'.supply coin.denom = l.supply coin.denom + coin.amount.toNat := by
  rw [h.supply, if_pos rfl]

/-- Of the denomination, the holding account has nothing but what arrived. -/
theorem funds_holding (h : l.Arrived coin l') (d : String) :
    l'.funds holding d = if d = coin.denom then coin.amount.toNat else l.funds holding d := by
  obtain ⟨m, hmoved, hgained⟩ := h
  by_cases hd : d = coin.denom
  · subst hd
    rw [if_pos rfl, hgained.funds_self, hmoved.funds_emptied Testbed.holding_ne_dust, Nat.zero_add]
  · have hm := hmoved.funds holding d
    simp only [hd, and_false, if_false, Nat.add_zero] at hm
    rw [if_neg hd, hgained.funds_of_ne fun h => hd h.2, hm]

theorem funds_of_ne (h : l.Arrived coin l') {a : String} (ha : a ≠ holding) (d : String) :
    l'.funds a d = l.funds a d +
      if a = dust ∧ d = coin.denom then l.funds holding coin.denom else 0 := by
  obtain ⟨m, hmoved, hgained⟩ := h
  have hm := hmoved.funds a d
  rw [if_neg fun h => ha h.1, Nat.add_zero] at hm
  rw [hgained.funds_of_ne fun h => ha h.1, hm]
  rfl

end Ledger.Arrived

/-! ## The arrival as a whole -/

/-- A world in which only the ledger changed and dust was reported. -/
structure World.Settled (w w' : World) : Prop where
  disk : w'.disk = w.disk
  clock : w'.clock = w.clock
  outbox : w'.books.outbox = w.books.outbox
  reports : ∃ coins : List Coin, w'.books.events = w.books.events ++ coins.map .dustCleared

theorem World.Settled.trans {w u v : World} (h : w.Settled u) (h' : u.Settled v) :
    w.Settled v := by
  obtain ⟨coins, hreports⟩ := h.reports
  obtain ⟨coins', hreports'⟩ := h'.reports
  refine ⟨h'.disk.trans h.disk, h'.clock.trans h.clock, h'.outbox.trans h.outbox, ?_⟩
  refine ⟨coins ++ coins', ?_⟩
  rw [hreports', hreports, List.map_append, List.append_assoc]

namespace Router

/-- Refuses a passthrough payload that is too long. -/
def screen (payload : Payload) : RouterM Unit := do
  let params ← loadParams
  checked (checkPassthrough payload.forwarding.passthrough.length params.passthroughLimit)

/-- Moves what the holding account has of a denomination to the dust account. -/
def clear (r : Router) (denom : String) : RouterM Unit := do
  let accounts := r.config.accounts
  let leftover := (← get).books.ledger.balance accounts.holding denom
  if !leftover.isZero then
    RouterM.onLedger (LedgerM.send accounts.holding accounts.dust [⟨denom, leftover⟩])
    RouterM.emit (.dustCleared ⟨denom, leftover⟩)

/-- Clears the holding account and brings the funds of a packet there. -/
def land (r : Router) (packet : RoutedPacket) (receive : RoutedPacket → LedgerM Unit) :
    RouterM Unit := do
  r.clear packet.transfer.destinationDenom
  RouterM.onLedger (receive packet)
  r.afterArrival packet

theorem beforeArrival_eq (r : Router) (packet : RoutedPacket) :
    r.beforeArrival packet =
      screen packet.payload >>= fun _ => r.clear packet.transfer.destinationDenom := by
  unfold beforeArrival screen clear
  simp only [bind_assoc]

theorem arrive_eq (r : Router) (packet : RoutedPacket) (receive : RoutedPacket → LedgerM Unit) :
    r.arrive packet receive = screen packet.payload >>= fun _ => r.land packet receive := by
  unfold arrive land
  simp only [beforeArrival_eq, bind_assoc]

variable {r : Router} {w w' : World} {e : RouterError} {denom : String}

theorem clear_eq (hr : r.Fitted) (w : World) (denom : String) :
    r.clear denom w =
      if (w.books.ledger.balance holding denom).isZero then .ok () w
      else (do
        RouterM.onLedger (LedgerM.send holding dust [⟨denom, w.books.ledger.balance holding denom⟩])
        RouterM.emit (.dustCleared ⟨denom, w.books.ledger.balance holding denom⟩)) w := by
  rw [clear, hr.accounts]
  change (if !(w.books.ledger.balance holding denom).isZero then _ else _ : RouterM Unit) w = _
  cases hzero : (w.books.ledger.balance holding denom).isZero with
  | true => rfl
  | false => rfl

/-- Under any configuration, what the holding account had goes to the dust account. -/
theorem clear_moved (h : r.clear denom w = .ok () w') :
    w.Settled w' ∧ w.books.ledger.Moved r.config.accounts.holding r.config.accounts.dust
      ⟨denom, w.books.ledger.balance r.config.accounts.holding denom⟩ w'.books.ledger := by
  obtain ⟨_, u, hget, h⟩ := bind_eq_ok.1 h
  obtain ⟨rfl, rfl⟩ := get_eq_ok.1 hget
  split at h
  next =>
    obtain ⟨_, v, hledger, hemit⟩ := bind_eq_ok.1 h
    obtain ⟨l, hsend, rfl⟩ := RouterM.onLedger_eq_ok.1 hledger
    rw [emit_run] at hemit
    obtain ⟨-, rfl⟩ := EStateM.Result.ok.inj hemit
    exact ⟨⟨rfl, rfl, rfl, [_], rfl⟩, Ledger.send_ok (LedgerM.send_eq_ok.1 hsend)⟩
  next hzero =>
    obtain ⟨-, rfl⟩ := pure_eq_ok.1 h
    rw [Bool.not_eq_true, Bool.not_eq_false'] at hzero
    refine ⟨⟨rfl, rfl, rfl, [], ?_⟩, .nothing _ _ _ hzero⟩
    exact (List.append_nil _).symm

theorem clear_ok (hr : r.Fitted) (h : r.clear denom w = .ok () w') :
    w.Settled w' ∧ w.books.ledger.Moved holding dust ⟨denom, w.books.ledger.balance holding denom⟩
      w'.books.ledger := by
  have hmoved := clear_moved h
  rwa [hr.accounts] at hmoved

/-- Where the clearing fails, nothing was moved. -/
theorem clear_error (hr : r.Fitted) (h : r.clear denom w = .error e w') : w' = w := by
  rw [clear_eq hr] at h
  split at h
  next => exact absurd h nofun
  next =>
    rcases bind_eq_error.1 h with hledger | ⟨_, u, -, hemit⟩
    · obtain ⟨l, hsend, rfl⟩ := RouterM.onLedger_eq_error.1 hledger
      obtain ⟨-, rfl⟩ := LedgerM.send_eq_error.1 hsend
      rfl
    · exact (emit_ne_error hemit).elim

theorem clear_run (hr : r.Fitted) (hdenom : denom ≠ "")
    (hsupply : w.books.ledger.supply denom < Amount.size) :
    ∃ w', r.clear denom w = .ok () w' := by
  cases hrun : r.clear denom w with
  | ok _ w' => exact ⟨w', rfl⟩
  | error e w' =>
    rw [clear_eq hr] at hrun
    split at hrun
    next => exact absurd hrun nofun
    next =>
      obtain ⟨l, hsend, -⟩ : ∃ l, w.books.ledger.send holding dust
          [⟨denom, w.books.ledger.balance holding denom⟩] = .ok l ∧ _ :=
        Ledger.send_run hdenom (Nat.le_refl _) hsupply
      rw [bind_of_ok (RouterM.onLedger_eq_ok.2 ⟨l, LedgerM.send_eq_ok.2 hsend, rfl⟩)] at hrun
      exact (emit_ne_error hrun).elim

/-! ### The funds -/

variable {packet : RoutedPacket}

/-- An arrival that is confirmed is seen in the holding account. -/
theorem afterArrival_held (h : r.afterArrival packet w = .ok () w') :
    w' = w ∧ packet.transfer.sourceAmount.toNat ≤
      w.books.ledger.funds r.config.accounts.holding packet.transfer.sourceDenom := by
  obtain ⟨_, u, hget, h₁⟩ := bind_eq_ok.1 h
  obtain ⟨rfl, rfl⟩ := get_eq_ok.1 hget
  split at h₁
  next => exact (throw_ne_ok h₁).elim
  next henough => exact ⟨(pure_eq_ok.1 h₁).2.symm, Nat.le_of_not_lt henough⟩

theorem afterArrival_ok (h : r.afterArrival packet w = .ok () w') : w' = w :=
  (afterArrival_held h).1

theorem afterArrival_run (hr : r.Fitted)
    (h : packet.transfer.sourceAmount.toNat ≤
      w.books.ledger.funds holding packet.transfer.sourceDenom) :
    r.afterArrival packet w = .ok () w := by
  have henough : ¬ (w.books.ledger.balance holding packet.transfer.sourceDenom).toNat <
      packet.transfer.sourceAmount.toNat := Nat.not_lt.2 h
  rw [afterArrival, hr.accounts]
  exact congrFun (if_neg henough) w

/-- A holding account that has nothing of a denomination has room for any coin of it. -/
theorem receive_run (hr : r.Fitted) (hdenom : packet.transfer.sourceDenom ≠ "")
    (hnone : w.books.ledger.funds holding packet.transfer.sourceDenom = 0) :
    ∃ w', (RouterM.onLedger (Testbed.receive packet) >>= fun _ => r.afterArrival packet) w =
      .ok () w' := by
  have hfits : w.books.ledger.funds holding packet.transfer.sourceCoin.denom +
      packet.transfer.sourceCoin.amount.toNat < Amount.size := by
    have hlt := packet.transfer.sourceAmount.isLt
    change w.books.ledger.funds holding packet.transfer.sourceDenom +
      packet.transfer.sourceAmount.toNat < Amount.size
    omega
  obtain ⟨l, hmint, hgained⟩ := Ledger.mint_run hdenom hfits
  have hreceive : RouterM.onLedger (Testbed.receive packet) w =
      .ok () { w with books := { w.books with ledger := l } } :=
    RouterM.onLedger_eq_ok.2 ⟨l, LedgerM.mint_eq_ok.2 hmint, rfl⟩
  refine ⟨_, (bind_of_ok hreceive).trans (afterArrival_run hr ?_)⟩
  have hself := hgained.funds_self
  exact hself ▸ Nat.le_add_left _ _

theorem receive_ok (h : (RouterM.onLedger (Testbed.receive packet) >>= fun _ =>
    r.afterArrival packet) w = .ok () w') :
    w.Settled w' ∧ w.books.ledger.Gained holding packet.transfer.sourceCoin w'.books.ledger := by
  obtain ⟨_, u, hledger, h₁⟩ := bind_eq_ok.1 h
  obtain rfl := afterArrival_ok h₁
  obtain ⟨l, hmint, rfl⟩ := RouterM.onLedger_eq_ok.1 hledger
  refine ⟨⟨rfl, rfl, rfl, [], ?_⟩, Ledger.mint_ok (LedgerM.mint_eq_ok.1 hmint)⟩
  exact (List.append_nil _).symm

/-! ### The way to the dispatch -/

theorem land_ok (hr : r.Fitted)
    (hsame : packet.transfer.destinationCoin = packet.transfer.sourceCoin)
    (h : r.land packet Testbed.receive w = .ok () w') :
    w.Settled w' ∧ w.books.ledger.Arrived packet.transfer.sourceCoin w'.books.ledger := by
  obtain ⟨_, u, hclear, hreceive⟩ := bind_eq_ok.1 h
  obtain ⟨hsettled, hmoved⟩ := clear_ok hr hclear
  obtain ⟨hsettled', hgained⟩ := receive_ok hreceive
  have hdenom : packet.transfer.destinationDenom = packet.transfer.sourceDenom :=
    congrArg Coin.denom hsame
  rw [hdenom] at hmoved
  exact ⟨hsettled.trans hsettled', _, hmoved, hgained⟩

/-- Once the holding account is cleared, the funds of a packet in order arrive. -/
theorem receive_of_clear (hr : r.Fitted)
    (hsame : packet.transfer.destinationCoin = packet.transfer.sourceCoin)
    (hdenom : packet.transfer.sourceDenom ≠ "")
    (h : r.clear packet.transfer.destinationDenom w = .ok () w') :
    ∃ w'', r.land packet Testbed.receive w = .ok () w'' := by
  obtain ⟨-, hmoved⟩ := clear_ok hr h
  have hdest : packet.transfer.destinationDenom = packet.transfer.sourceDenom :=
    congrArg Coin.denom hsame
  have hnone : w'.books.ledger.funds holding packet.transfer.sourceDenom = 0 :=
    hdest ▸ hmoved.funds_emptied Testbed.holding_ne_dust
  obtain ⟨w'', hreceive⟩ := receive_run hr hdenom hnone
  exact ⟨w'', (bind_of_ok h).trans hreceive⟩

/-- An arrival that fails leaves everything as it was. -/
theorem land_error (hr : r.Fitted)
    (hsame : packet.transfer.destinationCoin = packet.transfer.sourceCoin)
    (hdenom : packet.transfer.sourceDenom ≠ "")
    (h : r.land packet Testbed.receive w = .error e w') : w' = w := by
  cases hclear : r.clear packet.transfer.destinationDenom w with
  | ok _ u =>
    obtain ⟨v, hland⟩ := receive_of_clear hr hsame hdenom hclear
    rw [hland] at h
    exact absurd h nofun
  | error e' u =>
    have hland : r.land packet Testbed.receive w = .error e' u := bind_of_error hclear
    rw [hland] at h
    obtain ⟨-, rfl⟩ := EStateM.Result.error.inj h
    exact clear_error hr hclear

/-- The funds of a packet arrive while the supply of their denomination is an amount. -/
theorem land_run (hr : r.Fitted)
    (hsame : packet.transfer.destinationCoin = packet.transfer.sourceCoin)
    (hdenom : packet.transfer.sourceDenom ≠ "")
    (hsupply : w.books.ledger.supply packet.transfer.sourceDenom < Amount.size) :
    ∃ w', r.land packet Testbed.receive w = .ok () w' := by
  have hdest : packet.transfer.destinationDenom = packet.transfer.sourceDenom :=
    congrArg Coin.denom hsame
  obtain ⟨u, hclear⟩ := clear_run hr (hdest ▸ hdenom) (hdest ▸ hsupply)
  exact receive_of_clear hr hsame hdenom hclear

/-! ### With the screening -/

theorem keeps_screen {D : Disk → Disk → Prop} [Disk.AllowsReads D] (payload : Payload) :
    Keeps (World.Within D Eq) (screen payload) :=
  keeps_loadParams.bind fun _ => Keeps.checked _

theorem arrive_ok (hr : r.Fitted)
    (hsame : packet.transfer.destinationCoin = packet.transfer.sourceCoin)
    (h : r.arrive packet Testbed.receive w = .ok () w') :
    ∃ u, w.Within Disk.Still Eq u ∧ u.Settled w' ∧
      w.books.ledger.Arrived packet.transfer.sourceCoin w'.books.ledger := by
  rw [arrive_eq] at h
  obtain ⟨_, u, hscreen, hland⟩ := bind_eq_ok.1 h
  have hu := (keeps_screen (D := Disk.Still) packet.payload).ok hscreen
  obtain ⟨hsettled, harrived⟩ := land_ok hr hsame hland
  exact ⟨u, hu, hsettled, hu.books ▸ harrived⟩

/-- The books are as they were where the funds of a packet did not arrive. -/
theorem arrive_error (hr : r.Fitted)
    (hsame : packet.transfer.destinationCoin = packet.transfer.sourceCoin)
    (hdenom : packet.transfer.sourceDenom ≠ "")
    (h : r.arrive packet Testbed.receive w = .error e w') : w'.books = w.books := by
  rw [arrive_eq] at h
  rcases bind_eq_error.1 h with hscreen | ⟨_, u, hscreen, hland⟩
  · exact ((keeps_screen (D := Disk.Still) packet.payload).error hscreen).books.symm
  · obtain rfl := land_error hr hsame hdenom hland
    exact ((keeps_screen (D := Disk.Still) packet.payload).ok hscreen).books.symm

theorem arrive_run (hr : r.Fitted)
    (hsame : packet.transfer.destinationCoin = packet.transfer.sourceCoin)
    (hdenom : packet.transfer.sourceDenom ≠ "")
    (hsupply : w.books.ledger.supply packet.transfer.sourceDenom < Amount.size) {params : Params}
    (hparams : loadParams w = .ok params w)
    (hlength : packet.payload.forwarding.passthrough.length ≤ params.passthroughLimit.toNat) :
    ∃ w', r.arrive packet Testbed.receive w = .ok () w' := by
  obtain ⟨w', hland⟩ := land_run hr hsame hdenom hsupply
  have hcheck : checkPassthrough packet.payload.forwarding.passthrough.length
      params.passthroughLimit = .ok () :=
    if_neg (Nat.not_lt.2 hlength)
  refine ⟨w', ?_⟩
  rw [arrive_eq]
  exact bind_eq_ok.2 ⟨(), w, bind_eq_ok.2 ⟨params, w, hparams, checked_run hcheck w⟩, hland⟩

end Router

end TransferRouter
