import TransferRouter.Proofs.Inbound
import TransferRouter.Proofs.Soundness
import TransferRouter.Proofs.Wiring

/-!
Deliveries keep a store orderly and do not fail for what is in it, when the handlers are candid:
they fail only in ways that are allowed, and what a pre-action puts into a transfer can be kept in
the store. What a packet carries must be short enough for that, too; the statistics are all that a
dispatch writes.
-/

namespace TransferRouter

open RouterError (Blameless)

variable {founded : Prop} {E : RouterError → Prop} {α : Type} {Q : α → Prop}

/-! ## Handlers -/

def PacketParser.Candid (E : RouterError → Prop) (p : PacketParser) : Prop :=
  ∀ raw e, p.parse raw = .error e → E e

def ActionController.Candid (E : RouterError → Prop) (c : ActionController) : Prop :=
  ∀ action : Action, Fits action →
    Upholds (fun b : Workbench => b.transfer.Short) E (c.run action) fun _ => True

def ForwardingController.Candid (E : RouterError → Prop) (c : ForwardingController) : Prop :=
  ∀ packet, Upholds (fun _ : Books => True) E (c.send packet) fun _ => True

/-- A router all of whose handlers are candid. -/
structure Router.Candid (E : RouterError → Prop) (r : Router) : Prop where
  parsers : ∀ id p, r.parsers.route? id = some p → p.Candid E
  actions : ∀ id c, r.actions.route? id = some c → c.Candid E
  forwarders : ∀ id c, r.forwarders.route? id = some c → c.Candid E

/-- The texts of an inbound packet can be kept in the store. -/
structure InboundPacket.Short (p : InboundPacket) : Prop where
  denom : Fits p.coin.denom
  payload : ∀ payload, p.payload = .inline payload → Fits payload

/-- Raw bytes are read as a packet whose texts can be kept in the store, if they are read. -/
def Router.Brief (r : Router) (source : CrossChainId) (raw : Bytes) : Prop :=
  ∀ parser inbound, r.parsers.route? source.protocol = some parser →
    parser.parse raw = .ok inbound → inbound.Short

/-- A domain's numeral is short. -/
theorem Decimal.fits_print (n : UInt32) : Fits (print n.toNat) := by
  have hdigits : (Nat.toDigits 10 n.toNat).length ≤ 10 :=
    (Nat.length_toDigits_le_iff (by decide) (by decide)).2 (Nat.lt_trans n.toNat_lt (by decide))
  have hbytes := Utf8.length_encodeChars_le (Nat.toDigits 10 n.toNat)
  change (Utf8.encode (print n.toNat)).length < 2 ^ 64
  rw [Utf8.encode, print, String.toList_ofList]
  omega

theorem ForwardingAttributes.fits_counterparty {a : ForwardingAttributes} (h : Fits a) :
    Fits a.counterparty := by
  cases a with
  | ibc attributes => exact h.1
  | cctp attributes => exact Decimal.fits_print _
  | hyperlane attributes => exact Decimal.fits_print _

/-! ## Stages -/

/-- A stage with a sound disk and a transfer whose texts can be kept in the store. -/
structure Stage.Sound (founded : Prop) (s : Stage) : Prop where
  world : s.world.Sound founded
  transfer : s.transfer.Short

theorem upholds_onWorld {act : RouterM α} (h : Upholds (World.Sound founded) E act Q) :
    Upholds (Stage.Sound founded) E (StageM.onWorld act) Q :=
  h.zoom (fun _ hs => hs.world) (fun _ _ hs hw => ⟨hw, hs.transfer⟩) fun _ he => he

theorem upholds_onWorkbench {act : WorkbenchM α}
    (h : Upholds (fun b : Workbench => b.transfer.Short) E act Q) :
    Upholds (Stage.Sound founded) E (StageM.onWorkbench act) Q :=
  h.zoom (fun _ hs => hs.transfer) (fun _ _ hs hb => ⟨hs.world, hb⟩) fun _ he => he

theorem upholds_staged {act : StageM α} (h : Upholds (Stage.Sound founded) E act Q)
    {transfer : Transfer} (htransfer : transfer.Short) :
    Upholds (World.Sound founded) E (RouterM.staged transfer act) fun _ => True := by
  refine .intro (fun w p w' hw hact => ?_) fun w e w' hw hact => ?_
  · exact ⟨(h.ok ⟨hw, htransfer⟩ (staged_eq_ok.1 hact)).1.world, trivial⟩
  · obtain ⟨transfer', hact⟩ := staged_eq_error.1 hact
    obtain ⟨hsound, he⟩ := h.error ⟨hw, htransfer⟩ hact
    exact ⟨hsound.world, he⟩

namespace Router

variable {r : Router} [Lenient E]

/-! ## Dispatch -/

theorem upholds_execute (hr : r.Candid E) {action : Action} (h : Fits action) :
    Upholds (Stage.Sound founded) E (r.execute action) fun _ => True := by
  refine Upholds.get.bind fun s _ => (Upholds.checked _).bind fun _ _ => ?_
  refine (upholds_onWorld (upholds_isOpen _)).bind fun _ _ => ?_
  refine .ite (fun _ => .throw (blameless rfl)) fun _ => ?_
  refine (Upholds.require _ _).bind fun c hc => upholds_onWorkbench ?_
  exact hr.actions _ c (Registry.require_eq_ok.1 hc) action h

theorem upholds_executeAll (hr : r.Candid E) {actions : List Action}
    (h : ∀ action ∈ actions, Fits action) :
    Upholds (Stage.Sound founded) E (executeAll r.execute actions) fun _ => True := by
  induction actions with
  | nil => exact .done
  | cons action rest ih =>
    obtain ⟨haction, hrest⟩ := List.forall_mem_cons.1 h
    have htentatively : Upholds (Stage.Sound founded) E
        (StageM.tentatively (r.execute action)) fun _ => True :=
      (upholds_execute hr haction).tentatively fun _ _ hs ht => ⟨ht.world, hs.transfer⟩
    have hwrapping : Upholds (Stage.Sound founded) E
        (wrapping (.actionFailed action.id) (StageM.tentatively (r.execute action)))
        fun _ => True :=
      htentatively.wrapping fun _ => Lenient.action
    exact hwrapping.bind fun _ _ => ih hrest

theorem upholds_prepare (r : Router) (packet : ForwardingPacket) :
    Upholds (World.Sound founded) E (r.prepare packet) fun c =>
      r.forwarders.route? packet.forwarding.protocol = some c := by
  refine (Upholds.checked _).bind fun _ _ => (Upholds.checked _).bind fun destination _ => ?_
  refine (upholds_isOpen _).bind fun _ _ => .ite (fun _ => .throw (blameless rfl)) fun _ => ?_
  refine (upholds_isOpen _).bind fun _ _ => .ite (fun _ => .throw (blameless rfl)) fun _ => ?_
  refine Upholds.get.bind fun _ _ => (Upholds.checked _).bind fun _ _ => ?_
  exact (Upholds.require _ _).weaken fun _ => Registry.require_eq_ok.1

theorem upholds_forward (hr : r.Candid E) (packet : ForwardingPacket) :
    Upholds (World.Sound founded) E (r.forward packet) fun _ => True := by
  rw [forward_eq]
  exact (upholds_prepare r packet).bind fun c hc => upholds_onBooks (hr.forwarders _ c hc packet)

theorem upholds_dispatch (hr : r.Candid E) {payload : Payload} (h : Fits payload) :
    Upholds (Stage.Sound founded) E (r.dispatch payload) fun _ => True := by
  refine Upholds.get.bind fun _ _ => (Upholds.checked _).bind fun _ _ => ?_
  refine (Upholds.checked _).bind fun _ _ => (Upholds.checked _).bind fun destination hmake => ?_
  obtain ⟨hparts, hcheck⟩ := CrossChainId.make_ok hmake
  obtain ⟨⟨-, hactions⟩, -, hattributes, -⟩ := h
  have hdestination : Fits destination := by
    refine ⟨hcheck, ?_⟩
    rw [hparts]
    exact ForwardingAttributes.fits_counterparty hattributes
  refine (upholds_executeAll hr hactions).bind fun _ _ => Upholds.get.bind fun s hs => ?_
  refine Upholds.bind
    ((upholds_onWorld (upholds_forward hr _)).wrapping fun _ => Lenient.forwarding) fun _ _ => ?_
  have hrecord : Upholds (World.Sound founded) E (Statistics.record s.transfer destination)
      fun _ => True :=
    Statistics.upholds_record hs.transfer hdestination
  exact upholds_onWorld hrecord.attempt

theorem upholds_process (hr : r.Candid E) {payload : Payload} (h : Fits payload) :
    Upholds (Stage.Sound founded) E (r.process payload) fun _ => True := by
  refine Upholds.get.bind fun _ _ => (upholds_dispatch hr h).bind fun _ _ => ?_
  refine Upholds.get.bind fun _ _ => (Upholds.checked _).bind fun _ _ => ?_
  exact (Upholds.checked _).bind fun _ _ => upholds_onWorld (upholds_emit _)

/-! ## Reading a packet -/

theorem upholds_lookUp {payload : PacketPayload} (h : ∀ p, payload = .inline p → Fits p) :
    Upholds (World.Sound founded) E (lookUp payload) fun found => Fits found.1 := by
  cases payload with
  | inline p => exact .pure (h p rfl)
  | pending hash =>
    refine (Pending.upholds_get? hash).bind fun found hfound => ?_
    cases found with
    | none => exact .throw (blameless rfl)
    | some entry =>
      obtain ⟨-, hpayload, -⟩ := hfound entry rfl
      exact .pure hpayload

theorem upholds_resolve (hr : r.Candid E) {source : CrossChainId} {raw : Bytes}
    (hsource : Fits source.counterparty) (hraw : r.Brief source raw) :
    Upholds (World.Sound founded) E (r.resolve source raw) fun p =>
      p.1.transfer.Short ∧ Fits p.1.payload := by
  rw [resolve_eq]
  refine (Upholds.checked _).bind fun _ _ => (Upholds.require _ _).bind fun parser hparser => ?_
  have hroute := Registry.require_eq_ok.1 hparser
  refine (Upholds.settled (hr.parsers _ parser hroute raw)).bind fun inbound hinbound => ?_
  have hshort := hraw parser inbound hroute hinbound
  refine (upholds_lookUp hshort.payload).bind fun found hfound => ?_
  refine (Upholds.checked _).bind fun transfer harriving => ?_
  refine (Upholds.checked _).bind fun _ _ => .pure ⟨?_, hfound⟩
  obtain ⟨_, -, harriving⟩ := except_bind_eq_ok.1 harriving
  obtain ⟨_, -, harriving⟩ := except_bind_eq_ok.1 harriving
  obtain rfl := Except.ok.inj harriving
  exact ⟨hsource, hshort.denom, hshort.denom⟩

theorem upholds_complete (pending : Option PayloadHash) :
    Upholds (World.Sound founded) E (complete pending) fun _ => True := by
  cases pending with
  | none => exact .done
  | some hash => exact (Pending.upholds_take hash).bind fun _ _ => .done

theorem upholds_accept (hr : r.Candid E) {source : CrossChainId} {raw : Bytes}
    (hsource : Fits source.counterparty) (hraw : r.Brief source raw) :
    Upholds (World.Sound founded) E (r.accept source raw) fun _ => True :=
  (upholds_resolve hr hsource hraw).bind fun p _ =>
    (upholds_complete p.2).bind fun _ _ => .pure trivial

/-! ## Delivery -/

theorem upholds_beforeArrival (r : Router) (packet : RoutedPacket) :
    Upholds (World.Sound founded) E (r.beforeArrival packet) fun _ => True := by
  refine upholds_loadParams.bind fun _ _ => (Upholds.checked _).bind fun _ _ => ?_
  refine Upholds.get.bind fun _ _ => .ite (fun _ => ?_) fun _ => .done
  exact (upholds_onLedger (upholds_send _ _ _)).bind fun _ _ => upholds_emit _

theorem upholds_afterArrival (r : Router) (packet : RoutedPacket) :
    Upholds (World.Sound founded) E (r.afterArrival packet) fun _ => True :=
  Upholds.get.bind fun _ _ => .ite (fun _ => .throw (blameless rfl)) fun _ => .done

theorem upholds_deliver (hr : r.Candid E) {source : CrossChainId} {raw : Bytes}
    {receive : RoutedPacket → LedgerM Unit} (hsource : Fits source.counterparty)
    (hraw : r.Brief source raw)
    (hreceive : ∀ packet, Upholds (fun _ => True) E (receive packet) fun _ => True) :
    Upholds (World.Sound founded) E (r.deliver source raw receive) fun _ => True := by
  refine (upholds_resolve hr hsource hraw).bind fun p ⟨htransfer, hpayload⟩ => ?_
  refine (upholds_beforeArrival r p.1).bind fun _ _ => ?_
  refine (upholds_onLedger (hreceive p.1)).bind fun _ _ => ?_
  refine (upholds_afterArrival r p.1).bind fun _ _ => ?_
  refine (upholds_staged (upholds_process hr hpayload) htransfer).bind fun _ _ => ?_
  exact (upholds_complete p.2).bind fun _ _ => .pure trivial

end Router

/-! ## The handlers at hand -/

variable [Lenient E]

theorem upholds_bookSend (sender receiver : String) (coins : List Coin) :
    Upholds (fun _ => True) E (BooksM.onLedger (LedgerM.send sender receiver coins))
      fun _ => True := by
  have hsend : Upholds (fun _ => True) E (LedgerM.send sender receiver coins) fun _ => True :=
    upholds_send _ _ _
  exact hsend.zoom (fun _ _ => trivial) (fun _ _ _ _ => trivial) fun _ he => he

omit [Lenient E] in
theorem upholds_benchBooks {act : BooksM α} (h : Upholds (fun _ => True) E act Q) :
    Upholds (fun b : Workbench => b.transfer.Short) E (WorkbenchM.onBooks act) Q :=
  h.zoom (fun _ _ => trivial) (fun _ _ hb _ => hb) fun _ he => he

omit [Lenient E] in
theorem upholds_setAmount (amount : Amount) :
    Upholds (fun b : Workbench => b.transfer.Short) E (WorkbenchM.setAmount amount)
      fun _ => True :=
  .modify fun _ hb => ⟨hb.sourceCounterparty, hb.sourceDenom, hb.destinationDenom⟩

theorem upholds_setDenom {denom : String} (h : Fits denom) :
    Upholds (fun b : Workbench => b.transfer.Short) E (WorkbenchM.setDenom denom)
      fun _ => True := by
  refine Upholds.get.bind fun b hb => (Upholds.checked _).bind fun transfer htransfer => ?_
  obtain ⟨-, rfl⟩ := Transfer.withDestinationDenom_ok htransfer
  exact .modify fun _ _ => ⟨hb.sourceCounterparty, hb.sourceDenom, h⟩

namespace Fee

theorem failsIn_share (amount : Amount) (basisPoints : UInt32) :
    FailsIn E (share amount basisPoints) := by
  unfold share
  split
  · exact .ok
  · exact .error (blameless rfl)

theorem failsIn_compute (amount : Amount) (fees : List FeeShare) :
    FailsIn E (compute amount fees) := by
  induction fees with
  | nil => exact .ok
  | cons f rest ih =>
    exact (failsIn_share amount f.basisPoints).bind fun _ => ih.bind fun _ => .ok

theorem upholds_pay (holding denom : String) (total : Amount) (shares : List (String × Amount)) :
    Upholds (fun _ => True) E (pay holding denom total shares) fun _ => True := by
  induction shares generalizing total with
  | nil => exact .pure trivial
  | cons s rest ih =>
    refine (upholds_bookSend _ _ _).bind fun _ _ => ?_
    cases total.add? s.2 with
    | none => exact .throw (blameless rfl)
    | some total => exact (Upholds.modify fun _ _ => trivial).bind fun _ _ => ih total

theorem candid_controller (holding : String) : (controller holding).Candid E := by
  rintro ⟨id, attributes⟩ -
  cases attributes with
  | swap attributes => exact .throw (blameless rfl)
  | fee attributes =>
    refine (Upholds.checked _).bind fun _ _ => Upholds.get.bind fun b _ => ?_
    refine (Upholds.settled (failsIn_compute _ _)).bind fun shares _ => ?_
    refine (upholds_benchBooks (upholds_pay _ _ _ _)).bind fun total _ => ?_
    cases b.transfer.destinationAmount.sub? total with
    | none => exact .throw (blameless rfl)
    | some rest => exact upholds_setAmount rest

end Fee

/-- A router of candid parts is candid, whether it charges fees itself or not. -/
theorem Router.MadeOf.candid {r : Router} {b : Blueprint} (h : r.MadeOf b)
    (hparsers : ∀ p ∈ b.parsers, p.Candid E) (hactions : ∀ c ∈ b.actions, c.Candid E)
    (hforwarders : ∀ c ∈ b.forwarders, c.Candid E) : r.Candid E where
  parsers id p hp := hparsers p (Registry.route?_ofList h.parsers hp).1
  actions id c hc := by
    rcases h.action hc with rfl | hmem
    · exact Fee.candid_controller _
    · exact hactions c hmem
  forwarders id c hc := hforwarders c (Registry.route?_ofList h.forwarders hc).1

namespace Testbed

theorem candid_jsonParser (id : ProtocolId) : (jsonParser id).Candid E := by
  intro raw
  change FailsIn E _
  simp only [jsonParser]
  split
  · exact .ok
  · exact .error (blameless rfl)

theorem candid_swapController : swapController.Candid E := by
  rintro ⟨id, attributes⟩ hfits
  cases attributes with
  | fee attributes => exact .throw (blameless rfl)
  | swap attributes =>
    have hdenom : Fits attributes.outputDenom := hfits.2.1
    refine Upholds.get.bind fun b _ => .ite (fun _ => .throw (blameless rfl)) fun _ => ?_
    refine (upholds_benchBooks (upholds_bookSend _ _ _)).bind fun _ _ => ?_
    refine (upholds_benchBooks (upholds_bookSend _ _ _)).bind fun _ _ => ?_
    exact (upholds_setDenom hdenom).bind fun _ _ => upholds_setAmount _

theorem candid_escrowController (id : ProtocolId) : (escrowController id).Candid E := fun _ =>
  (upholds_bookSend _ _ _).bind fun _ _ => .modify fun _ _ => trivial

theorem candid_router : router.Candid E := by
  obtain ⟨w, hbuild⟩ := build_router
  refine (Blueprint.madeOf_of_build hbuild).candid ?_ ?_ ?_
  · exact List.forall_mem_singleton.2 (candid_jsonParser _)
  · exact List.forall_mem_singleton.2 candid_swapController
  · exact List.forall_mem_cons.2
      ⟨candid_escrowController _, List.forall_mem_singleton.2 (candid_escrowController _)⟩

theorem candid_carrier (inbound : InboundPacket) : (carrier inbound).Candid E := by
  refine ⟨fun id p hp => ?_, candid_router.actions, candid_router.forwarders⟩
  obtain ⟨_, hfound, rfl⟩ := Option.map_eq_some_iff.1 hp
  obtain rfl := List.mem_singleton.1 (List.mem_of_find?_eq_some hfound)
  exact nofun

end Testbed

end TransferRouter
