import TransferRouter.Inbound
import TransferRouter.Proofs.Check
import TransferRouter.Proofs.Pending
import TransferRouter.Proofs.Registry

/-!
The way of a packet. Reading a packet ends in the packet and the hash that it names, and changes
nothing; of what follows, only the handlers, the statistics and the completion change what is under
the keys of the store or in the outbox.
-/

namespace TransferRouter

open Books (AllowsArrival)
open Disk (AllowsReads)

/-! ## Reading a packet -/

def Router.lookUp : PacketPayload → RouterM (Payload × Option PayloadHash)
  | .inline payload => pure (payload, none)
  | .pending hash => do
    match ← Pending.get? hash with
    | some entry => pure (entry.payload, some hash)
    | none => throw (.notFound (.pendingPayload hash))

theorem Router.resolve_eq (r : Router) (source : CrossChainId) (raw : Bytes) :
    r.resolve source raw = do
      checked source.check
      let parser ← settle id (r.parsers.require source.protocol)
      let inbound ← settle id (parser.parse raw)
      let found ← lookUp inbound.payload
      let transfer ← checked (Transfer.arriving source inbound.coin)
      checked (RoutedPacket.check ⟨transfer, found.1⟩)
      return (⟨transfer, found.1⟩, found.2) := by
  unfold Router.resolve
  congr 1; funext _
  congr 1; funext parser
  congr 1; funext inbound
  cases inbound.payload with
  | inline payload => rfl
  | pending h =>
    simp only [lookUp, bind_assoc]
    congr 1; funext found
    cases found <;> rfl

section

variable {D : Disk → Disk → Prop} {B : Books → Books → Prop} [AllowsReads D]

theorem keeps_lookUp [IsPreorder Books B] (payload : PacketPayload) :
    Keeps (World.Within D B) (Router.lookUp payload) := by
  cases payload with
  | inline payload => exact Keeps.pure _
  | pending h =>
    refine (keeps_read _).bind fun found => ?_
    cases found with
    | none => exact Keeps.throw _
    | some entry => exact Keeps.pure _

theorem keeps_resolve [IsPreorder Books B] (r : Router) (source : CrossChainId) (raw : Bytes) :
    Keeps (World.Within D B) (r.resolve source raw) := by
  rw [Router.resolve_eq]
  exact (Keeps.checked _).bind fun _ => (Keeps.settle _ _).bind fun _ =>
    (Keeps.settle _ _).bind fun _ => (keeps_lookUp _).bind fun _ =>
      (Keeps.checked _).bind fun _ => (Keeps.checked _).bind fun _ => Keeps.pure _

end

/-- The recorded payload that a raw packet names. -/
def Router.named (r : Router) (source : CrossChainId) (raw : Bytes) : Option PayloadHash :=
  match r.parsers.require source.protocol with
  | .error _ => none
  | .ok parser =>
    match parser.parse raw with
    | .ok ⟨_, .pending h⟩ => some h
    | _ => none

/-- What a packet is made of. -/
structure Router.Resolved (r : Router) (source : CrossChainId) (raw : Bytes) (w : World)
    (packet : RoutedPacket) (pending : Option PayloadHash) : Prop where
  named : r.named source raw = pending
  check : packet.check = .ok ()
  source : packet.transfer.source = .ok source
  untouched : packet.transfer.destinationCoin = packet.transfer.sourceCoin
  recorded : ∀ h ∈ pending, ∃ entry, Pending.get? h w = .ok (some entry) w ∧
    entry.payload = packet.payload

theorem Transfer.arriving_ok {source : CrossChainId} {coin : Coin} {t : Transfer}
    (h : Transfer.arriving source coin = .ok t) :
    t.source = .ok source ∧ t.destinationCoin = t.sourceCoin := by
  obtain ⟨_, hsource, h⟩ := except_bind_eq_ok.1 h
  obtain ⟨_, -, h⟩ := except_bind_eq_ok.1 h
  obtain rfl := Except.ok.inj h
  exact ⟨CrossChainId.make_eq_ok hsource, rfl⟩

/-- The transfer of a coin from an endpoint before anything was done about it. -/
def Transfer.fresh (source : CrossChainId) (coin : Coin) : Transfer :=
  ⟨source.protocol, source.counterparty, coin.denom, coin.amount, coin.denom, coin.amount⟩

theorem Transfer.arriving_run {source : CrossChainId} {coin : Coin}
    (hsource : source.check = .ok ()) (hcoin : coin.check = .ok ()) :
    Transfer.arriving source coin = .ok (.fresh source coin) := by
  rw [arriving, hsource, hcoin]
  rfl

theorem Router.lookUp_ok {payload : PacketPayload} {w w' : World}
    {found : Payload × Option PayloadHash} (hw : w.disk.Readable)
    (hs : lookUp payload w = .ok found w') :
    (payload = .inline found.1 ∧ found.2 = none) ∨
      ∃ h entry, payload = .pending h ∧ found = (entry.payload, some h) ∧
        Pending.get? h w = .ok (some entry) w := by
  cases payload with
  | inline payload =>
    obtain ⟨rfl, -⟩ := pure_eq_ok.1 hs
    exact .inl ⟨rfl, rfl⟩
  | pending h =>
    obtain ⟨entry, u, hget, hs₁⟩ := bind_eq_ok.1 hs
    obtain rfl := ((Pending.get?_keeps h).ok hget).eq hw
    cases entry with
    | none => exact (throw_ne_ok hs₁).elim
    | some entry =>
      obtain ⟨rfl, -⟩ := pure_eq_ok.1 hs₁
      exact .inr ⟨h, entry, rfl, rfl, hget⟩

theorem Router.resolve_eq_ok {r : Router} {source : CrossChainId} {raw : Bytes} {w w' : World}
    {transfer : Transfer} {payload : Payload} {pending : Option PayloadHash} :
    r.resolve source raw w = .ok (⟨transfer, payload⟩, pending) w' ↔
      source.check = .ok () ∧ ∃ parser inbound, r.parsers.route? source.protocol = some parser ∧
        parser.parse raw = .ok inbound ∧ lookUp inbound.payload w = .ok (payload, pending) w' ∧
          Transfer.arriving source inbound.coin = .ok transfer ∧
            RoutedPacket.check ⟨transfer, payload⟩ = .ok () := by
  rw [resolve_eq]
  constructor
  · intro h
    obtain ⟨_, u, hsource, h₁⟩ := bind_eq_ok.1 h
    obtain ⟨hsource', rfl⟩ := settle_eq_ok.1 hsource
    obtain ⟨parser, u, hparser, h₂⟩ := bind_eq_ok.1 h₁
    obtain ⟨hparser', rfl⟩ := settle_eq_ok.1 hparser
    obtain ⟨inbound, u, hinbound, h₃⟩ := bind_eq_ok.1 h₂
    obtain ⟨hinbound', rfl⟩ := settle_eq_ok.1 hinbound
    obtain ⟨found, u', hfound, h₄⟩ := bind_eq_ok.1 h₃
    obtain ⟨transfer, v, htransfer, h₅⟩ := bind_eq_ok.1 h₄
    obtain ⟨htransfer', rfl⟩ := settle_eq_ok.1 htransfer
    obtain ⟨_, v, hcheck, h₆⟩ := bind_eq_ok.1 h₅
    obtain ⟨hcheck', rfl⟩ := settle_eq_ok.1 hcheck
    obtain ⟨heq, rfl⟩ := pure_eq_ok.1 h₆
    obtain ⟨⟨rfl, rfl⟩, rfl⟩ := heq
    exact ⟨hsource', parser, inbound, Registry.require_eq_ok.1 hparser', hinbound', hfound,
      htransfer', hcheck'⟩
  · rintro ⟨hsource, parser, inbound, hparser, hinbound, hfound, htransfer, hcheck⟩
    have hrequire : settle id (r.parsers.require source.protocol) w = .ok parser w :=
      settle_eq_ok.2 ⟨Registry.require_eq_ok.2 hparser, rfl⟩
    exact bind_eq_ok.2 ⟨(), w, checked_run hsource w, bind_eq_ok.2 ⟨parser, w, hrequire,
      bind_eq_ok.2 ⟨inbound, w, settle_eq_ok.2 ⟨hinbound, rfl⟩, bind_eq_ok.2 ⟨_, w', hfound,
        bind_eq_ok.2 ⟨_, w', checked_run htransfer w', bind_eq_ok.2 ⟨(), w', checked_run hcheck w',
          rfl⟩⟩⟩⟩⟩⟩

/-- A packet that was read is in order, and nothing was done about its coin. -/
theorem Router.resolve_check {r : Router} {source : CrossChainId} {raw : Bytes} {w w' : World}
    {p : RoutedPacket × Option PayloadHash} (hs : r.resolve source raw w = .ok p w') :
    p.1.check = .ok () ∧ p.1.transfer.destinationCoin = p.1.transfer.sourceCoin := by
  obtain ⟨⟨transfer, payload⟩, pending⟩ := p
  obtain ⟨-, _, _, -, -, -, htransfer, hcheck⟩ := resolve_eq_ok.1 hs
  exact ⟨hcheck, (Transfer.arriving_ok htransfer).2⟩

/-- Reading a packet changes nothing. -/
theorem Router.resolve_ok {r : Router} {source : CrossChainId} {raw : Bytes} {w w' : World}
    {p : RoutedPacket × Option PayloadHash} (hw : w.disk.Readable)
    (hs : r.resolve source raw w = .ok p w') : w' = w ∧ r.Resolved source raw w p.1 p.2 := by
  have heq : w' = w := ((keeps_resolve (D := Disk.Still) (B := Eq) r source raw).ok hs).eq hw
  obtain ⟨⟨transfer, payload⟩, pending⟩ := p
  obtain ⟨-, parser, ⟨coin, content⟩, hparser, hinbound, hfound, htransfer, hcheck⟩ :=
    resolve_eq_ok.1 hs
  obtain ⟨harrived, hcoin⟩ := Transfer.arriving_ok htransfer
  have hrequire := Registry.require_eq_ok.2 hparser
  refine ⟨heq, ⟨?_, hcheck, harrived, hcoin, ?_⟩⟩
  · rcases lookUp_ok hw hfound with ⟨hpayload, hnone⟩ | ⟨h, entry, hpayload, hpending, -⟩
    · obtain rfl : pending = none := hnone
      obtain rfl : content = _ := hpayload
      simp only [named, hrequire, hinbound]
    · obtain ⟨rfl, rfl⟩ := Prod.mk.inj hpending
      obtain rfl : content = _ := hpayload
      simp only [named, hrequire, hinbound]
  · intro h hh
    rcases lookUp_ok hw hfound with ⟨-, hnone⟩ | ⟨h', entry, -, hpending, hget⟩
    · obtain rfl : pending = none := hnone
      exact absurd hh nofun
    · obtain ⟨rfl, rfl⟩ := Prod.mk.inj hpending
      obtain rfl := Option.some.inj hh
      exact ⟨entry, hget, rfl⟩

/-- A packet that names what is not recorded is refused before anything is changed. -/
theorem Router.resolve_of_absent {r : Router} {source : CrossChainId} {raw : Bytes} {w : World}
    {h : PayloadHash} (hw : w.disk.Readable) (hsource : source.check = .ok ())
    (hnamed : r.named source raw = some h)
    (habsent : w.disk.store.get? (Key.pending h).bytes = none) :
    r.resolve source raw w = .error (.notFound (.pendingPayload h)) w := by
  rw [resolve_eq, bind_of_ok (checked_run hsource w)]
  unfold named at hnamed
  cases hparser : r.parsers.require source.protocol with
  | error e => simp [hparser] at hnamed
  | ok parser =>
    rw [bind_of_ok (settle_run _ w)]
    cases hinbound : parser.parse raw with
    | error e => simp [hparser, hinbound] at hnamed
    | ok inbound =>
      obtain ⟨coin, payload⟩ := inbound
      rw [bind_of_ok (settle_run _ w)]
      cases payload with
      | inline payload => simp [hparser, hinbound] at hnamed
      | pending h' =>
        obtain rfl : h' = h := by simpa [hparser, hinbound] using hnamed
        have hget : Pending.get? h' w = .ok none w := read_of_absent hw habsent
        have hlook : lookUp (.pending h') w = .error (.notFound (.pendingPayload h')) w := by
          rw [lookUp, bind_of_ok hget]
          rfl
        rw [bind_of_error hlook]

/-! ## Parts of the way -/

/-- All that comes before the sending of a packet. -/
def Router.prepare (r : Router) (packet : ForwardingPacket) : RouterM ForwardingController := do
  checked packet.check
  let destination ← checked packet.forwarding.destination
  if ← Breaker.isOpen (.pausedProtocol packet.forwarding.protocol) then
    throw (.paused (.protocol packet.forwarding.protocol))
  if ← Breaker.isOpen (.pausedRoute packet.forwarding.protocol destination.counterparty) then
    throw (.paused (.route destination))
  let held := (← get).books.ledger.balances r.config.accounts.holding
  checked (checkHeld held packet.transfer.destinationCoin)
  settle id (r.forwarders.require packet.forwarding.protocol)

theorem Router.forward_eq (r : Router) (packet : ForwardingPacket) :
    r.forward packet = r.prepare packet >>= fun c => RouterM.onBooks (c.send packet) := by
  unfold Router.forward Router.prepare
  simp only [bind_assoc]
  congr 1
  funext _
  congr 1
  funext destination
  congr 1
  funext protocolPaused
  cases protocolPaused with
  | true => rfl
  | false =>
    simp only [Bool.false_eq_true, if_false, bind_assoc]
    congr 1
    funext routePaused
    cases routePaused with
    | true => rfl
    | false => simp only [Bool.false_eq_true, if_false, bind_assoc]

/-- What a forwarding needs before anything is sent. -/
structure Router.Prepared (r : Router) (packet : ForwardingPacket) (w w' : World)
    (c : ForwardingController) : Prop where
  check : packet.check = .ok ()
  protocolActive : w.disk.store.contains
    (Key.pausedProtocol packet.forwarding.protocol).bytes = false
  routeActive : ∀ destination, packet.forwarding.destination = .ok destination →
    w.disk.store.contains
      (Key.pausedRoute packet.forwarding.protocol destination.counterparty).bytes = false
  held : checkHeld (w.books.ledger.balances r.config.accounts.holding)
    packet.transfer.destinationCoin = .ok ()
  routed : r.forwarders.route? packet.forwarding.protocol = some c
  books : w'.books = w.books

theorem Router.prepare_ok {r : Router} {packet : ForwardingPacket} {w w' : World}
    {c : ForwardingController} (h : r.prepare packet w = .ok c w') : r.Prepared packet w w' c := by
  obtain ⟨_, u, hcheck, h⟩ := bind_eq_ok.1 h
  obtain ⟨hcheck', rfl⟩ := settle_eq_ok.1 hcheck
  obtain ⟨destination, u, hchecked, h⟩ := bind_eq_ok.1 h
  obtain ⟨hdestination, rfl⟩ := settle_eq_ok.1 hchecked
  obtain ⟨protocolPaused, u, hprotocol, h⟩ := bind_eq_ok.1 h
  obtain ⟨hprotocol', hstore, hbooks⟩ := isOpen_ok hprotocol
  cases protocolPaused with
  | true =>
    obtain ⟨_, _, h, -⟩ := bind_eq_ok.1 h
    exact (throw_ne_ok h).elim
  | false =>
    obtain ⟨routePaused, v, hroute, h⟩ := bind_eq_ok.1 h
    obtain ⟨hroute', hstore', hbooks'⟩ := isOpen_ok hroute
    cases routePaused with
    | true =>
      obtain ⟨_, _, h, -⟩ := bind_eq_ok.1 h
      exact (throw_ne_ok h).elim
    | false =>
      obtain ⟨_, u', hget, h⟩ := bind_eq_ok.1 h
      obtain ⟨rfl, rfl⟩ := get_eq_ok.1 hget
      obtain ⟨_, u', hheld, h⟩ := bind_eq_ok.1 h
      obtain ⟨hheld', rfl⟩ := settle_eq_ok.1 hheld
      obtain ⟨hrouted, rfl⟩ := settle_eq_ok.1 h
      have hsame : v.books = w.books := hbooks'.trans hbooks
      refine ⟨hcheck', hprotocol'.symm, fun d hd => ?_, hsame ▸ hheld',
        Registry.require_eq_ok.1 hrouted, hsame⟩
      obtain rfl : destination = d := Except.ok.inj (hdestination.symm.trans hd)
      exact hstore ▸ hroute'.symm

def Router.arrive (r : Router) (packet : RoutedPacket) (receive : RoutedPacket → LedgerM Unit) :
    RouterM Unit := do
  r.beforeArrival packet
  RouterM.onLedger (receive packet)
  r.afterArrival packet

/-- The way of a packet from the clearing of the holding account to the report of its dispatch. -/
def Router.carry (r : Router) (packet : RoutedPacket) (receive : RoutedPacket → LedgerM Unit) :
    RouterM Transfer := do
  r.arrive packet receive
  let p ← RouterM.staged packet.transfer (r.process packet.payload)
  return p.2

/-- The way of a packet with something done about it before what it names is completed. -/
def Router.passage (r : Router) (source : CrossChainId) (raw : Bytes)
    (carry : RoutedPacket → RouterM Transfer) : RouterM RoutedPacket := do
  let p ← r.resolve source raw
  let transfer ← carry p.1
  Router.complete p.2
  return ⟨transfer, p.1.payload⟩

theorem Router.accept_eq (r : Router) (source : CrossChainId) (raw : Bytes) :
    r.accept source raw = r.passage source raw fun packet => pure packet.transfer := by
  unfold Router.accept Router.passage
  simp only [pure_bind]

theorem Router.deliver_eq (r : Router) (source : CrossChainId) (raw : Bytes)
    (receive : RoutedPacket → LedgerM Unit) :
    r.deliver source raw receive =
      r.passage source raw fun packet => r.carry packet receive := by
  unfold Router.deliver Router.passage Router.carry Router.arrive
  simp only [bind_assoc, pure_bind]

/-! ## Inversion of a passage -/

section

variable {r : Router} {source : CrossChainId} {raw : Bytes} {w w' : World} {e : RouterError}

theorem Router.complete_ok {pending : Option PayloadHash} (h : complete pending w = .ok () w') :
    (pending = none ∧ w' = w) ∨
      ∃ g entry, pending = some g ∧ Pending.take g w = .ok entry w' := by
  cases pending with
  | none =>
    obtain ⟨-, rfl⟩ := pure_eq_ok.1 h
    exact .inl ⟨rfl, rfl⟩
  | some g =>
    obtain ⟨entry, u, htake, hdone⟩ := bind_eq_ok.1 h
    obtain ⟨-, rfl⟩ := pure_eq_ok.1 hdone
    exact .inr ⟨g, entry, rfl, htake⟩

theorem Router.complete_error {pending : Option PayloadHash}
    (h : complete pending w = .error e w') :
    ∃ g, pending = some g ∧ Pending.take g w = .error e w' := by
  cases pending with
  | none => exact (pure_ne_error h).elim
  | some g =>
    rcases bind_eq_error.1 h with htake | ⟨_, _, -, hdone⟩
    · exact ⟨g, rfl, htake⟩
    · exact (pure_ne_error hdone).elim

theorem Router.passage_eq_ok {carry : RoutedPacket → RouterM Transfer} {packet : RoutedPacket} :
    r.passage source raw carry w = .ok packet w' ↔
      ∃ parsed pending u transfer v, r.resolve source raw w = .ok (parsed, pending) u ∧
        carry parsed u = .ok transfer v ∧ complete pending v = .ok () w' ∧
          packet = ⟨transfer, parsed.payload⟩ := by
  constructor
  · intro h
    obtain ⟨⟨parsed, pending⟩, u, hresolve, h₁⟩ := bind_eq_ok.1 h
    obtain ⟨transfer, v, hcarry, h₂⟩ := bind_eq_ok.1 h₁
    obtain ⟨_, v', hcomplete, h₃⟩ := bind_eq_ok.1 h₂
    obtain ⟨rfl, rfl⟩ := pure_eq_ok.1 h₃
    exact ⟨parsed, pending, u, transfer, v, hresolve, hcarry, hcomplete, rfl⟩
  · rintro ⟨parsed, pending, u, transfer, v, hresolve, hcarry, hcomplete, rfl⟩
    exact bind_eq_ok.2 ⟨_, u, hresolve, bind_eq_ok.2 ⟨transfer, v, hcarry,
      bind_eq_ok.2 ⟨(), w', hcomplete, rfl⟩⟩⟩

theorem Router.passage_ok {carry : RoutedPacket → RouterM Transfer} {packet : RoutedPacket}
    (hw : w.disk.Readable) (h : r.passage source raw carry w = .ok packet w') :
    ∃ parsed pending transfer u, r.Resolved source raw w parsed pending ∧
      carry parsed w = .ok transfer u ∧ complete pending u = .ok () w' ∧
      packet = ⟨transfer, parsed.payload⟩ := by
  obtain ⟨parsed, pending, u, transfer, v, hresolve, hcarry, hcomplete, heq⟩ := passage_eq_ok.1 h
  obtain ⟨rfl, hresolved⟩ := resolve_ok hw hresolve
  exact ⟨parsed, pending, transfer, v, hresolved, hcarry, hcomplete, heq⟩

/-- A passage fails when the packet is read, when something is done about it, or at the end. -/
theorem Router.passage_error {carry : RoutedPacket → RouterM Transfer} (hw : w.disk.Readable)
    (h : r.passage source raw carry w = .error e w') :
    w' = w ∨ ∃ parsed pending, r.resolve source raw w = .ok (parsed, pending) w ∧
      (carry parsed w = .error e w' ∨
        ∃ transfer u, carry parsed w = .ok transfer u ∧ complete pending u = .error e w') := by
  rcases bind_eq_error.1 h with hresolve | ⟨⟨parsed, pending⟩, u, hresolve, h₁⟩
  · exact .inl (((keeps_resolve (D := Disk.Still) (B := Eq) r source raw).error hresolve).eq hw)
  obtain ⟨rfl, -⟩ := resolve_ok hw hresolve
  refine .inr ⟨parsed, pending, hresolve, ?_⟩
  rcases bind_eq_error.1 h₁ with hcarry | ⟨transfer, v, hcarry, h₂⟩
  · exact .inl hcarry
  rcases bind_eq_error.1 h₂ with hcomplete | ⟨_, v', -, h₃⟩
  · exact .inr ⟨transfer, v, hcarry, hcomplete⟩
  · exact (pure_ne_error h₃).elim

end

/-! ## What the way of a packet changes at most -/

section

variable {D : Disk → Disk → Prop} {B : Books → Books → Prop} {T : Transfer → Transfer → Prop}
variable [AllowsReads D]

theorem keeps_beforeArrival [AllowsArrival B] (r : Router) (packet : RoutedPacket) :
    Keeps (World.Within D B) (r.beforeArrival packet) := by
  refine keeps_loadParams.bind fun _ => (Keeps.checked _).bind fun _ => Keeps.get.bind fun w => ?_
  refine Keeps.ite ?_ (Keeps.pure _)
  exact (keeps_onLedger _).bind fun _ => keeps_emit fun b => AllowsArrival.dust b _

theorem keeps_afterArrival [IsPreorder Books B] (r : Router) (packet : RoutedPacket) :
    Keeps (World.Within D B) (r.afterArrival packet) :=
  Keeps.get.bind fun _ => Keeps.ite (Keeps.throw _) (Keeps.pure _)

theorem keeps_arrive [AllowsArrival B] (r : Router) (packet : RoutedPacket)
    (receive : RoutedPacket → LedgerM Unit) : Keeps (World.Within D B) (r.arrive packet receive) :=
  (keeps_beforeArrival r packet).bind fun _ => (keeps_onLedger _).bind fun _ =>
    keeps_afterArrival r packet

/-- Every pre-action of a router changes the books and the transfer within the relations. -/
def Router.ActionsKeep (r : Router) (B : Books → Books → Prop) (T : Transfer → Transfer → Prop) :
    Prop :=
  ∀ id c, r.actions.route? id = some c → ∀ action, Keeps (Workbench.Within B T) (c.run action)

def Router.ForwardersKeep (r : Router) (B : Books → Books → Prop) : Prop :=
  ∀ id c, r.forwarders.route? id = some c → ∀ packet, Keeps B (c.send packet)

variable [IsPreorder Transfer T]

theorem keeps_execute [IsPreorder Books B] {r : Router} {action : Action}
    (h : ∀ c, r.actions.route? action.id = some c → Keeps (Workbench.Within B T) (c.run action)) :
    Keeps (Stage.Within D B T) (r.execute action) := by
  refine Keeps.get.bind fun s => (Keeps.checked _).bind fun _ =>
    (keeps_onWorld (keeps_isOpen _)).bind fun paused => Keeps.ite (Keeps.throw _) ?_
  cases hc : r.actions.require action.id with
  | error e => exact Keeps.throw _
  | ok c => exact keeps_onWorkbench (h c (Registry.require_eq_ok.1 hc))

theorem keeps_executeAll_in {R : Stage → Stage → Prop} [IsPreorder Stage R]
    (hback : ∀ s t, R s t → R s { t with transfer := s.transfer })
    {execute : Action → StageM Unit} {actions : List Action}
    (h : ∀ action ∈ actions, Keeps R (execute action)) : Keeps R (executeAll execute actions) := by
  induction actions with
  | nil => exact Keeps.pure _
  | cons action rest ih =>
    refine Keeps.bind (Keeps.wrapping (Keeps.tentatively (h action List.mem_cons_self) hback)) ?_
    exact fun _ => ih fun a ha => h a (List.mem_cons_of_mem _ ha)

theorem keeps_executeAll_of [IsPreorder Books B] {execute : Action → StageM Unit}
    {actions : List Action} (h : ∀ action ∈ actions, Keeps (Stage.Within D B T) (execute action)) :
    Keeps (Stage.Within D B T) (executeAll execute actions) :=
  keeps_executeAll_in (fun s _ h => ⟨h.world, refl_of T s.transfer⟩) h

theorem keeps_executeAll [IsPreorder Books B] {r : Router} (hr : r.ActionsKeep B T)
    (actions : List Action) : Keeps (Stage.Within D B T) (executeAll r.execute actions) :=
  keeps_executeAll_of fun action _ => keeps_execute fun c hc => hr action.id c hc action

theorem keeps_prepare [IsPreorder Books B] (r : Router) (packet : ForwardingPacket) :
    Keeps (World.Within D B) (r.prepare packet) := by
  refine (Keeps.checked _).bind fun _ => (Keeps.checked _).bind fun _ =>
    (keeps_isOpen _).bind fun _ => Keeps.ite (Keeps.throw _) ?_
  refine (keeps_isOpen _).bind fun _ => Keeps.ite (Keeps.throw _) ?_
  exact Keeps.get.bind fun _ => (Keeps.checked _).bind fun _ => Keeps.settle _ _

theorem keeps_forward [IsPreorder Books B] {r : Router} (hr : r.ForwardersKeep B)
    (packet : ForwardingPacket) : Keeps (World.Within D B) (r.forward packet) := by
  rw [Router.forward_eq]
  refine Keeps.bind_of (keeps_prepare r packet) (fun _ _ _ h => (Router.prepare_ok h).routed)
    fun c hc => ?_
  exact keeps_onBooks (hr _ c hc packet)

/-- Relations between books that hold when a dispatch is reported. -/
def Books.AllowsDispatch (B : Books → Books → Prop) : Prop :=
  ∀ (b : Books) source destination incoming outgoing, B b { b with
    events := b.events ++ [.payloadProcessed source destination incoming outgoing] }

theorem keeps_dispatch [IsPreorder Books B] {r : Router} (hactions : r.ActionsKeep B T)
    (hforwarders : r.ForwardersKeep B)
    (hrecord : ∀ transfer destination,
      Keeps (World.Within D B) (Statistics.record transfer destination))
    (payload : Payload) : Keeps (Stage.Within D B T) (r.dispatch payload) := by
  refine Keeps.get.bind fun _ => (Keeps.checked _).bind fun _ => (Keeps.checked _).bind fun _ =>
    (Keeps.checked _).bind fun destination => (keeps_executeAll hactions _).bind fun _ =>
      Keeps.get.bind fun s => Keeps.bind ?_ fun _ => ?_
  · exact Keeps.wrapping (keeps_onWorld (keeps_forward hforwarders _))
  · exact keeps_onWorld (Keeps.attempt (hrecord s.transfer destination))

theorem keeps_carry [AllowsArrival B] {r : Router} (hactions : r.ActionsKeep B T)
    (hforwarders : r.ForwardersKeep B)
    (hrecord : ∀ transfer destination,
      Keeps (World.Within D B) (Statistics.record transfer destination))
    (hreport : Books.AllowsDispatch B) (packet : RoutedPacket)
    (receive : RoutedPacket → LedgerM Unit) :
    Keeps (World.Within D B) (r.carry packet receive) := by
  have hprocess : Keeps (Stage.Within D B T) (r.process packet.payload) :=
    Keeps.get.bind fun _ => (keeps_dispatch hactions hforwarders hrecord packet.payload).bind
      fun _ => Keeps.get.bind fun _ => (Keeps.checked _).bind fun _ => (Keeps.checked _).bind
        fun _ => keeps_onWorld (keeps_emit fun b => hreport b _ _ _ _)
  exact (keeps_arrive r packet receive).bind fun _ =>
    (Keeps.staged (hprocess.mono fun _ _ h => h.world)).bind fun _ => Keeps.pure _

end

end TransferRouter
