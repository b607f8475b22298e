import TransferRouter.Proofs.Inbound
import TransferRouter.Proofs.Ledger
import TransferRouter.Proofs.Registry
import TransferRouter.Testbed.Setup

/-!
Routers that are wired to the handlers of the testbed. Fees and swaps move coins and change the
destination of a transfer, and send nothing; the escrow controllers put exactly what they are given
into the outbox, or nothing if they fail. None of them reports the end of a packet's way.
-/

namespace TransferRouter

/-- True for reports about recorded payloads. -/
def Event.isPending : Event → Bool
  | pendingPayloadSubmitted .. | pendingPayloadRemoved _ | pendingPayloadExpired _ => true
  | _ => false

/-- True for reports about recorded payloads and about dispatches. -/
def Event.isOutcome : Event → Bool
  | payloadProcessed .. => true
  | event => event.isPending

namespace Books

def SameReports (p : Event → Bool) (b b' : Books) : Prop := b'.events.filter p = b.events.filter p

/-- The reports of a kind and the outbox are the same. -/
structure Quiet (p : Event → Bool) (b b' : Books) : Prop where
  events : SameReports p b b'
  outbox : b'.outbox = b.outbox

variable {p : Event → Bool}

instance : IsPreorder Books (SameReports p) where
  refl _ := rfl
  trans _ _ _ h h' := Eq.trans h' h

instance : IsPreorder Books (Quiet p) where
  refl _ := ⟨rfl, rfl⟩
  trans _ _ _ h h' := ⟨h'.events.trans h.events, h'.outbox.trans h.outbox⟩

theorem sameReports_append {b : Books} {event : Event} (h : p event = false) :
    SameReports p b { b with events := b.events ++ [event] } := by
  change (b.events ++ [event]).filter p = b.events.filter p
  rw [List.filter_append, List.filter_cons_of_neg (by simp [h]), List.filter_nil, List.append_nil]

theorem SameReports.mono {q : Event → Bool} (h : ∀ event, q event = true → p event = true)
    {b b' : Books} (hp : SameReports p b b') : SameReports q b b' := by
  have hfilter : ∀ events : List Event, events.filter q = (events.filter p).filter q := by
    intro events
    rw [List.filter_filter]
    congr 1
    funext event
    cases hq : q event with
    | false => rfl
    | true => simp [h event hq]
  change b'.events.filter q = b.events.filter q
  rw [hfilter, hp, ← hfilter]

instance : AllowsArrival (Quiet Event.isOutcome) where
  ledger _ _ := ⟨rfl, rfl⟩
  dust _ _ := ⟨sameReports_append rfl, rfl⟩

end Books

/-- The same coin from the same endpoint. -/
structure Transfer.SameSource (t t' : Transfer) : Prop where
  endpoint : t'.source = t.source
  coin : t'.sourceCoin = t.sourceCoin

instance : IsPreorder Transfer Transfer.SameSource where
  refl _ := ⟨rfl, rfl⟩
  trans _ _ _ h h' := ⟨h'.endpoint.trans h.endpoint, h'.coin.trans h.coin⟩

/-- Relations between transfers that hold when the destination coin changes. -/
class Transfer.AllowsTrade (T : Transfer → Transfer → Prop) : Prop extends
    IsPreorder Transfer T where
  amount (t : Transfer) (amount : Amount) : T t (t.withDestinationAmount amount)
  denom (t : Transfer) (denom : String) : T t { t with destinationDenom := denom }

open Transfer (AllowsTrade)

instance : AllowsTrade Transfer.SameSource where
  amount _ _ := ⟨rfl, rfl⟩
  denom _ _ := ⟨rfl, rfl⟩

instance : AllowsTrade Anything where
  amount _ _ := trivial
  denom _ _ := trivial

/-! ## Controllers of pre-actions -/

section

variable {B : Books → Books → Prop} {T : Transfer → Transfer → Prop} {α : Type}

theorem keeps_workbench_onBooks [IsPreorder Transfer T] {act : BooksM α} (h : Keeps B act) :
    Keeps (Workbench.Within B T) (WorkbenchM.onBooks act) :=
  h.zoom fun s _ hb => ⟨hb, refl_of T s.transfer⟩

variable [IsPreorder Books B]

theorem keeps_setAmount [AllowsTrade T] (amount : Amount) :
    Keeps (Workbench.Within B T) (WorkbenchM.setAmount amount) :=
  Keeps.modify fun s => ⟨refl_of B s.books, AllowsTrade.amount s.transfer amount⟩

theorem Transfer.withDestinationDenom_ok {t t' : Transfer} {denom : String}
    (h : t.withDestinationDenom denom = .ok t') :
    denom ≠ "" ∧ t' = { t with destinationDenom := denom } := by
  unfold withDestinationDenom at h
  split at h
  next => exact absurd h nofun
  next hdenom => exact ⟨hdenom, (Except.ok.inj h).symm⟩

theorem setDenom_ok {denom : String} {s s' : Workbench}
    (h : WorkbenchM.setDenom denom s = .ok () s') :
    denom ≠ "" ∧ s' = { s with transfer := { s.transfer with destinationDenom := denom } } := by
  obtain ⟨v, u, hget, h₁⟩ := bind_eq_ok.1 h
  obtain ⟨rfl, rfl⟩ := get_eq_ok.1 hget
  obtain ⟨transfer, u, hchecked, h₂⟩ := bind_eq_ok.1 h₁
  obtain ⟨htransfer, rfl⟩ := settle_eq_ok.1 hchecked
  obtain rfl := modify_eq_ok.1 h₂
  obtain ⟨hdenom, rfl⟩ := Transfer.withDestinationDenom_ok htransfer
  exact ⟨hdenom, rfl⟩

theorem setDenom_error {denom : String} {s s' : Workbench} {e : RouterError}
    (h : WorkbenchM.setDenom denom s = .error e s') : s' = s := by
  rcases bind_eq_error.1 h with hget | ⟨v, u, hget, h₁⟩
  · exact (get_ne_error hget).elim
  obtain ⟨rfl, rfl⟩ := get_eq_ok.1 hget
  rcases bind_eq_error.1 h₁ with hchecked | ⟨_, _, -, h₂⟩
  · exact (settle_eq_error.1 hchecked).2.symm
  · exact (modify_ne_error h₂).elim

theorem keeps_setDenom [AllowsTrade T] (denom : String) :
    Keeps (Workbench.Within B T) (WorkbenchM.setDenom denom) := by
  apply Keeps.intro
  · intro s _ s' h
    obtain ⟨-, rfl⟩ := setDenom_ok h
    exact ⟨refl_of B s.books, AllowsTrade.denom s.transfer denom⟩
  · intro s e s' h
    obtain rfl := setDenom_error h
    exact refl_of (Workbench.Within B T) s'

/-- Relations between books that hold when a fee is reported. -/
def Books.AllowsCharge (B : Books → Books → Prop) : Prop :=
  ∀ (b : Books) recipient coin, B b { b with events := b.events ++ [.feeCharged recipient coin] }

theorem Fee.keeps_pay {holding denom : String} {total : Amount} {shares : List (String × Amount)}
    (hcharge : Books.AllowsCharge B)
    (hsend : ∀ s ∈ shares, ∀ coin, Keeps B (BooksM.onLedger (LedgerM.send holding s.1 [coin]))) :
    Keeps B (Fee.pay holding denom total shares) := by
  induction shares generalizing total with
  | nil => exact Keeps.pure total
  | cons s rest ih =>
    refine (hsend s List.mem_cons_self _).bind fun _ => ?_
    cases total.add? s.2 with
    | none => exact Keeps.throw _
    | some total =>
      refine Keeps.bind (Keeps.modify fun b => hcharge b s.1 _) fun _ => ?_
      exact ih fun t ht => hsend t (List.mem_cons_of_mem _ ht)

/-- Who is paid is a recipient of a share. -/
theorem Fee.mem_compute {amount : Amount} {fees : List FeeShare} {shares : List (String × Amount)}
    (h : compute amount fees = .ok shares) {s : String × Amount} (hs : s ∈ shares) :
    ∃ f ∈ fees, f.recipient = s.1 := by
  induction fees generalizing shares with
  | nil =>
    obtain rfl := Except.ok.inj h
    exact absurd hs List.not_mem_nil
  | cons f rest ih =>
    obtain ⟨fee, -, h₁⟩ := except_bind_eq_ok.1 h
    obtain ⟨others, hothers, h₂⟩ := except_bind_eq_ok.1 h₁
    obtain rfl := Except.ok.inj h₂
    have hcase : s = (f.recipient, fee) ∨ s ∈ others := by
      split at hs
      · exact .inr hs
      · exact List.mem_cons.1 hs
    rcases hcase with rfl | hs
    · exact ⟨f, List.mem_cons_self, rfl⟩
    · obtain ⟨g, hg, hrecipient⟩ := ih hothers hs
      exact ⟨g, List.mem_cons_of_mem _ hg, hrecipient⟩

/-- The accounts that a pre-action pays or trades with. -/
def Action.Reaches (action : Action) (account : String) : Prop :=
  match action.attributes with
  | .fee attributes => ∃ f ∈ attributes.fees, f.recipient = account
  | .swap _ => account = Testbed.swapPool

theorem Fee.keeps_run [AllowsTrade T] {holding : String} {action : Action}
    (hcharge : Books.AllowsCharge B) (hsend : ∀ recipient, action.Reaches recipient → ∀ coin,
      Keeps B (BooksM.onLedger (LedgerM.send holding recipient [coin]))) :
    Keeps (Workbench.Within B T) ((Fee.controller holding).run action) := by
  obtain ⟨id, attributes⟩ := action
  cases attributes with
  | swap attributes => exact Keeps.throw _
  | fee attributes =>
    refine (Keeps.checked _).bind fun _ => Keeps.get.bind fun s => ?_
    refine Keeps.bind_of (Keeps.settle _ _) (fun _ _ _ h => (settle_eq_ok.1 h).1)
      fun shares hshares => ?_
    have hpay : ∀ share ∈ shares, ∀ coin,
        Keeps B (BooksM.onLedger (LedgerM.send holding share.1 [coin])) :=
      fun share hshare => hsend share.1 (Fee.mem_compute hshares hshare)
    refine (keeps_workbench_onBooks (Fee.keeps_pay hcharge hpay)).bind fun total => ?_
    cases s.transfer.destinationAmount.sub? total with
    | none => exact Keeps.throw _
    | some rest => exact keeps_setAmount rest

theorem Testbed.keeps_swap [AllowsTrade T] {action : Action}
    (hsend : ∀ account, action.Reaches account → ∀ coin,
      Keeps B (BooksM.onLedger (LedgerM.send Testbed.holding account [coin])) ∧
        Keeps B (BooksM.onLedger (LedgerM.send account Testbed.holding [coin]))) :
    Keeps (Workbench.Within B T) (Testbed.swapController.run action) := by
  obtain ⟨id, attributes⟩ := action
  cases attributes with
  | fee attributes => exact Keeps.throw _
  | swap attributes =>
    refine Keeps.get.bind fun s => Keeps.ite (Keeps.throw _) ?_
    exact (keeps_workbench_onBooks (hsend Testbed.swapPool rfl _).1).bind fun _ =>
      (keeps_workbench_onBooks (hsend Testbed.swapPool rfl _).2).bind fun _ =>
        (keeps_setDenom _).bind fun _ => keeps_setAmount _

end

theorem quiet_onLedger {p : Event → Bool} {α : Type} (act : LedgerM α) :
    Keeps (Books.Quiet p) (BooksM.onLedger act) :=
  Keeps.zoom (S := Anything) (fun _ => trivial) fun _ _ _ => ⟨rfl, rfl⟩

/-! ## Controllers of forwardings -/

theorem Testbed.escrow_eq_ok {id : ProtocolId} {packet : ForwardingPacket} {b b' : Books} :
    (Testbed.escrowController id).send packet b = .ok () b' ↔
      ∃ l, b.ledger.send holding (escrow id) [packet.transfer.destinationCoin] = .ok l ∧
        b' = ⟨l, b.events, b.outbox ++ [⟨id, packet⟩]⟩ := by
  constructor
  · intro h
    obtain ⟨_, u, hledger, h₁⟩ := bind_eq_ok.1 h
    obtain ⟨l, hsend, rfl⟩ := BooksM.onLedger_eq_ok.1 hledger
    obtain rfl := modify_eq_ok.1 h₁
    exact ⟨l, LedgerM.send_eq_ok.1 hsend, rfl⟩
  · rintro ⟨l, hsend, rfl⟩
    have hledger : BooksM.onLedger (LedgerM.send holding (escrow id)
        [packet.transfer.destinationCoin]) b = .ok () { b with ledger := l } :=
      BooksM.onLedger_eq_ok.2 ⟨l, LedgerM.send_eq_ok.2 hsend, rfl⟩
    exact bind_eq_ok.2 ⟨(), _, hledger, rfl⟩

theorem Testbed.escrow_error {id : ProtocolId} {packet : ForwardingPacket} {b b' : Books}
    {e : RouterError} (h : (Testbed.escrowController id).send packet b = .error e b') :
    b' = b := by
  rcases bind_eq_error.1 h with hmoved | ⟨_, _, -, h₁⟩
  · obtain ⟨_, l, hsend, -, rfl⟩ := zoom_eq_error.1 hmoved
    obtain ⟨-, rfl⟩ := LedgerM.send_eq_error.1 hsend
    rfl
  · exact (modify_ne_error h₁).elim

/-! ## Routers -/

/-- A router whose handlers make no reports about recorded payloads. -/
structure Router.Discreet (r : Router) : Prop where
  actions : r.ActionsKeep (Books.SameReports Event.isPending) Anything
  forwarders : r.ForwardersKeep (Books.SameReports Event.isPending)

/-- A router whose pre-actions send nothing and leave the source of a transfer alone, and whose
forwardings send exactly one packet or fail. -/
structure Router.Faithful (r : Router) : Prop where
  actions : r.ActionsKeep (Books.Quiet Event.isOutcome) Transfer.SameSource
  sent : ∀ id c, r.forwarders.route? id = some c → ∀ packet b b', c.send packet b = .ok () b' →
    b.SameReports Event.isOutcome b' ∧ b'.outbox = b.outbox ++ [⟨id, packet⟩]
  refused : ∀ id c, r.forwarders.route? id = some c → ∀ packet b e b',
    c.send packet b = .error e b' → b.Quiet Event.isOutcome b'

/-- A router that charges fees, swaps at a fixed rate and forwards into escrow. -/
structure Router.Wired (r : Router) : Prop where
  actions : ∀ id c, r.actions.route? id = some c →
    (∃ holding, c = Fee.controller holding) ∨ c = Testbed.swapController
  forwarders : ∀ id c, r.forwarders.route? id = some c → c = Testbed.escrowController id

/-- A router with the accounts, the fees, the swaps and the escrow of the testbed. -/
structure Router.Fitted (r : Router) : Prop where
  accounts : r.config.accounts = Testbed.config.accounts
  fee : r.actions.route? .fee = some (Fee.controller Testbed.holding)
  swap : r.actions.route? .swap = some Testbed.swapController
  reserved : r.actions.route? .unsupported = none
  forwarders : ∀ id c, r.forwarders.route? id = some c → c = Testbed.escrowController id

theorem Router.Fitted.holding {r : Router} (h : r.Fitted) :
    r.config.accounts.holding = Testbed.holding := by
  rw [h.accounts]
  rfl

/-- How packets are read does not matter. -/
theorem Router.Fitted.withParsers {r : Router} (h : r.Fitted)
    (parsers : Registry ProtocolId PacketParser) : { r with parsers := parsers }.Fitted :=
  ⟨h.accounts, h.fee, h.swap, h.reserved, h.forwarders⟩

theorem Router.Fitted.wired {r : Router} (h : r.Fitted) : r.Wired where
  actions id c hc := by
    cases id with
    | unsupported => exact absurd (h.reserved.symm.trans hc) nofun
    | fee => exact .inl ⟨Testbed.holding, Option.some.inj (hc.symm.trans h.fee)⟩
    | swap => exact .inr (Option.some.inj (hc.symm.trans h.swap))
  forwarders := h.forwarders

theorem Event.isOutcome_of_isPending {event : Event} (h : event.isPending = true) :
    event.isOutcome = true := by
  cases event <;> first | rfl | exact absurd h nofun

theorem Router.Wired.faithful {r : Router} (h : r.Wired) : r.Faithful where
  actions id c hc action := by
    rcases h.actions id c hc with ⟨holding, rfl⟩ | rfl
    · apply Fee.keeps_run
      · exact fun _ _ _ => ⟨Books.sameReports_append rfl, rfl⟩
      · exact fun _ _ _ => quiet_onLedger _
    · exact Testbed.keeps_swap fun _ _ _ => ⟨quiet_onLedger _, quiet_onLedger _⟩
  sent id c hc packet b b' hsend := by
    obtain rfl := h.forwarders id c hc
    obtain ⟨l, -, rfl⟩ := Testbed.escrow_eq_ok.1 hsend
    exact ⟨rfl, rfl⟩
  refused id c hc packet b e b' hsend := by
    obtain rfl := h.forwarders id c hc
    obtain rfl := Testbed.escrow_error hsend
    exact refl_of (Books.Quiet Event.isOutcome) b'

theorem Router.Faithful.discreet {r : Router} (h : r.Faithful) : r.Discreet where
  actions id c hc action := (h.actions id c hc action).mono fun _ _ hs =>
    ⟨hs.books.events.mono fun _ => Event.isOutcome_of_isPending, trivial⟩
  forwarders id c hc packet := by
    refine Keeps.intro (fun b _ b' hs => ?_) fun b e b' hs => ?_
    · exact (h.sent id c hc packet b b' hs).1.mono fun _ => Event.isOutcome_of_isPending
    · exact (h.refused id c hc packet b e b' hs).events.mono
        fun _ => Event.isOutcome_of_isPending

/-! ## Routers that are built -/

/-- What a built router is made of. -/
structure Router.MadeOf (r : Router) (b : Blueprint) : Prop where
  accounts : r.config.accounts = b.config.accounts
  actions : Registry.ofList ActionController.id b.allActions = .ok r.actions
  forwarders : Registry.ofList ForwardingController.id b.forwarders = .ok r.forwarders
  parsers : Registry.ofList PacketParser.id b.parsers = .ok r.parsers

theorem Blueprint.madeOf_of_build {b : Blueprint} {r : Router} {w w' : World}
    (h : b.build w = .ok r w') : r.MadeOf b := by
  obtain ⟨_, u₁, -, h⟩ := bind_eq_ok.1 h
  obtain ⟨_, u₂, -, h⟩ := bind_eq_ok.1 h
  obtain ⟨actions, u₃, hactions, h⟩ := bind_eq_ok.1 h
  obtain ⟨forwarders, u₄, hforwarders, h⟩ := bind_eq_ok.1 h
  obtain ⟨parsers, u₅, hparsers, h⟩ := bind_eq_ok.1 h
  obtain ⟨rfl, -⟩ := pure_eq_ok.1 h
  exact ⟨rfl, (settle_eq_ok.1 hactions).1, (settle_eq_ok.1 hforwarders).1,
    (settle_eq_ok.1 hparsers).1⟩

/-- A built router runs the pre-actions of its blueprint, and charges fees itself if it should. -/
theorem Router.MadeOf.action {r : Router} {b : Blueprint} (h : r.MadeOf b) {id : ActionId}
    {c : ActionController} (hc : r.actions.route? id = some c) :
    c = Fee.controller b.config.accounts.holding ∨ c ∈ b.actions := by
  obtain ⟨hmem, -⟩ := Registry.route?_ofList h.actions hc
  unfold Blueprint.allActions at hmem
  split at hmem
  · exact List.mem_cons.1 hmem
  · exact .inr hmem

/-- A router that is built of fee, swap and escrow controllers is wired to them. -/
theorem Blueprint.wired_of_build {b : Blueprint} {r : Router} {w w' : World}
    (hactions : ∀ c ∈ b.actions,
      (∃ holding, c = Fee.controller holding) ∨ c = Testbed.swapController)
    (hforwarders : ∀ c ∈ b.forwarders, c = Testbed.escrowController c.id)
    (h : b.build w = .ok r w') : r.Wired := by
  have hmade := madeOf_of_build h
  constructor
  · intro id c hc
    rcases hmade.action hc with rfl | hmem
    · exact .inl ⟨_, rfl⟩
    · exact hactions c hmem
  · intro id c hc
    obtain ⟨hmem, hid⟩ := Registry.route?_ofList hmade.forwarders hc
    exact hid ▸ hforwarders c hmem

namespace Testbed

/-- The account for what was left behind. -/
abbrev dust : String := config.accounts.dust

/-- The parts of the testbed under any configuration with its accounts make a router that fits. -/
theorem fitted_of_build {c : Config} {r : Router} {w w' : World}
    (haccounts : c.accounts = config.accounts) (h : (blueprint c).build w = .ok r w') :
    r.Fitted := by
  have hmade := Blueprint.madeOf_of_build h
  have hholding : (blueprint c).config.accounts.holding = holding := by
    rw [show (blueprint c).config.accounts = config.accounts from haccounts]
    rfl
  have hactions : r.actions =
      ⟨[(.fee, Fee.controller holding), (.swap, swapController)], true⟩ := by
    rw [← hholding]
    exact (Except.ok.inj hmade.actions).symm
  refine ⟨hmade.accounts.trans haccounts, ?_, ?_, ?_, fun id c hc => ?_⟩
  · rw [hactions]; rfl
  · rw [hactions]; rfl
  · rw [hactions]; rfl
  · obtain ⟨hmem, rfl⟩ := Registry.route?_ofList hmade.forwarders hc
    rcases List.mem_cons.1 hmem with rfl | hmem
    · rfl
    · obtain rfl := List.mem_singleton.1 hmem
      rfl

def router : Router where
  config := config
  authority := "gov"
  parsers := ⟨[(.ibc, jsonParser .ibc)], true⟩
  actions := ⟨[(.fee, Fee.controller holding), (.swap, swapController)], true⟩
  forwarders := ⟨[(.cctp, escrowController .cctp), (.hyperlane, escrowController .hyperlane)], true⟩

theorem build_router : ∃ w, (blueprint config).build world = .ok router w := ⟨_, rfl⟩

/-- The state of the testbed once its router is built. -/
def built : World := leaves (blueprint config).build world

theorem wired_router : router.Wired := by
  obtain ⟨w, hbuild⟩ := build_router
  refine Blueprint.wired_of_build (fun c hc => ?_) (fun c hc => ?_) hbuild
  · exact .inr (List.mem_singleton.1 hc)
  · rcases List.mem_cons.1 hc with rfl | hc
    · rfl
    · obtain rfl := List.mem_singleton.1 hc
      rfl

theorem fitted_router : router.Fitted := by
  obtain ⟨w, hbuild⟩ := build_router
  exact fitted_of_build rfl hbuild

theorem reliable_world : world.disk.Reliable := fun _ => rfl

theorem reliable_built : built.disk.Reliable := fun _ => rfl

theorem get?_world (key : Bytes) : world.disk.store.get? key = none := rfl

/-- The router of the testbed with a parser that takes every packet for the same one. -/
def carrier (inbound : InboundPacket) : Router :=
  { router with parsers := ⟨[(.ibc, ⟨.ibc, fun _ => .ok inbound⟩)], true⟩ }

theorem wired_carrier (inbound : InboundPacket) : (carrier inbound).Wired :=
  ⟨wired_router.actions, wired_router.forwarders⟩

theorem fitted_carrier (inbound : InboundPacket) : (carrier inbound).Fitted :=
  fitted_router.withParsers _

def origin : CrossChainId := ⟨.ibc, "channel-0"⟩

def coin : Coin := ⟨"uusdc", ⟨100, by decide⟩⟩

/-- A payload that forwards over CCTP without pre-actions. -/
def payload : Payload := .forwardOnly (.ofAttributes (.cctp ⟨6, List.replicate 32 7, []⟩) [])

end Testbed

end TransferRouter
