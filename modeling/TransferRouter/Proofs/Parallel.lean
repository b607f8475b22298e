import TransferRouter.Proofs.Arrival
import TransferRouter.Proofs.Statistics

/-!
Two runs of one action. From related states they go in parallel when they give the same answer or
the same error and end in related states again (`Respects`). The way of a packet through a router is
followed once, for any relation that breakers, totals and handlers respect. This is every relation
between worlds with the same disk, as long as the relation between their books is respected by the
few moves of coins that the handlers make.
-/

namespace TransferRouter

open Testbed (holding swapPool escrow)

section

variable {ε ε' σ τ α β : Type}

/-- The same answer or the same error, in related states. -/
inductive Parallel (R : σ → σ → Prop) : EStateM.Result ε σ α → EStateM.Result ε σ α → Prop
  | ok {s t : σ} (a : α) (h : R s t) : Parallel R (.ok a s) (.ok a t)
  | error {s t : σ} (e : ε) (h : R s t) : Parallel R (.error e s) (.error e t)

/-- Runs of an action from related states go in parallel. -/
def Respects (R : σ → σ → Prop) (act : EStateM ε σ α) : Prop :=
  ∀ s t, R s t → Parallel R (act s) (act t)

variable {R : σ → σ → Prop} {act : EStateM ε σ α}

theorem Parallel.mono {R' : σ → σ → Prop} {x y : EStateM.Result ε σ α} (h : Parallel R x y)
    (hR : ∀ s t, R s t → R' s t) : Parallel R' x y := by
  cases h with
  | ok a h => exact .ok a (hR _ _ h)
  | error e h => exact .error e (hR _ _ h)

theorem Parallel.succeeds_eq {s t : σ} (h : Parallel R (act s) (act t)) :
    succeeds act s = succeeds act t := by
  unfold succeeds
  generalize act s = x at h ⊢
  generalize act t = y at h ⊢
  cases h <;> rfl

theorem Respects.leaves (h : Respects R act) {s t : σ} (hst : R s t) :
    R (leaves act s) (leaves act t) := by
  have hact := h s t hst
  unfold TransferRouter.leaves
  generalize act s = x at hact ⊢
  generalize act t = y at hact ⊢
  cases hact with
  | ok a h => exact h
  | error e h => exact h

/-- A step that ends in states that are related in some other way, from which the rest goes on. -/
theorem Parallel.bind_of {S : σ → σ → Prop} {f : α → EStateM ε σ β} {s t : σ}
    (h : Parallel S (act s) (act t)) (herror : ∀ u v, S u v → R u v)
    (hf : ∀ a u v, act s = .ok a u → S u v → Parallel R (f a u) (f a v)) :
    Parallel R ((act >>= f) s) ((act >>= f) t) := by
  generalize hs : act s = x at h
  generalize ht : act t = y at h
  cases h with
  | @ok u v a h =>
    rw [bind_of_ok hs, bind_of_ok ht]
    exact hf a u v hs h
  | error e h =>
    rw [bind_of_error hs, bind_of_error ht]
    exact .error e (herror _ _ h)

theorem Parallel.bind {f : α → EStateM ε σ β} {s t : σ} (h : Parallel R (act s) (act t))
    (hf : ∀ a, Respects R (f a)) : Parallel R ((act >>= f) s) ((act >>= f) t) :=
  h.bind_of (fun _ _ h => h) fun a u v _ => hf a u v

namespace Respects

theorem pure (a : α) : Respects R (Pure.pure a : EStateM ε σ α) := fun _ _ h => .ok a h

theorem throw (e : ε) : Respects R (MonadExcept.throw e : EStateM ε σ α) := fun _ _ h => .error e h

theorem settle (wrap : ε' → ε) (x : Except ε' α) :
    Respects R (TransferRouter.settle wrap x : EStateM ε σ α) := by
  cases x with
  | ok a => exact pure a
  | error e => exact throw _

theorem checked (x : Except Invalid α) :
    Respects R (TransferRouter.checked x : EStateM RouterError σ α) :=
  settle _ x

/-- Every action respects equality. -/
theorem of_eq (act : EStateM ε σ α) : Respects Eq act := by
  rintro s t rfl
  cases act s with
  | ok a u => exact .ok a rfl
  | error e u => exact .error e rfl

theorem bind {f : α → EStateM ε σ β} (h : Respects R act) (hf : ∀ a, Respects R (f a)) :
    Respects R (act >>= f) :=
  fun s t hst => (h s t hst).bind hf

/-- What is done with the state is done with two states at once. -/
theorem get_bind {f : σ → EStateM ε σ β} (h : ∀ s t, R s t → Parallel R (f s s) (f t t)) :
    Respects R (get >>= f) := h

theorem modify {f : σ → σ} (h : ∀ s t, R s t → R (f s) (f t)) :
    Respects R (modifyGet (fun s => (PUnit.unit, f s)) : EStateM ε σ PUnit) :=
  fun s t hst => .ok _ (h s t hst)

theorem ite {act' : EStateM ε σ α} {p : Prop} [Decidable p] (h : Respects R act)
    (h' : Respects R act') : Respects R (if p then act else act') := by
  split
  · exact h
  · exact h'

theorem zoom {view : σ → τ} {update : σ → τ → σ} {wrap : ε → ε'} {S : τ → τ → Prop}
    {act : EStateM ε τ α} (h : Respects S act) (hview : ∀ s t, R s t → S (view s) (view t))
    (hupdate : ∀ s t u v, R s t → S u v → R (update s u) (update t v)) :
    Respects R (TransferRouter.zoom view update wrap act) := by
  intro s t hst
  have hact := h _ _ (hview s t hst)
  unfold TransferRouter.zoom
  generalize act (view s) = x at hact ⊢
  generalize act (view t) = y at hact ⊢
  cases hact with
  | ok a huv => exact .ok a (hupdate _ _ _ _ hst huv)
  | error e huv => exact .error _ (hupdate _ _ _ _ hst huv)

theorem wrapping {wrap : ε → ε'} (h : Respects R act) :
    Respects R (TransferRouter.wrapping wrap act) :=
  h.zoom (fun _ _ h => h) fun _ _ _ _ _ h => h

theorem attempt {R : World → World → Prop} {act : RouterM Unit} (h : Respects R act) :
    Respects R (RouterM.attempt act) := by
  intro s t hst
  have hact := h s t hst
  unfold RouterM.attempt
  generalize act s = x at hact ⊢
  generalize act t = y at hact ⊢
  cases hact with
  | ok a h => exact .ok () h
  | error e h => exact .ok () h

end Respects

end

/-! ## The way through a router -/

/-- A relation between stages that have the same transfer and worlds that are related by `W`. It may
say more about the transfer, but nothing more about the worlds. -/
structure Stage.Over (W : World → World → Prop) (S : Stage → Stage → Prop) : Prop where
  world : ∀ {s t}, S s t → W s.world t.world
  transfer : ∀ {s t}, S s t → t.transfer = s.transfer
  withWorld : ∀ {s t w w'}, S s t → W w w' → S { s with world := w } { t with world := w' }

namespace Respects

variable {W : World → World → Prop} {S : Stage → Stage → Prop} {α : Type} {r : Router}

/-- The record of a dispatch reads and writes totals only. -/
theorem record
    (hread : ∀ {α : Type} [Codec α] {key : Key}, Statistics.IsTotal key.bytes →
      Respects W (RouterM.read α key))
    (hwrite : ∀ batch : List Write, (∀ x ∈ batch, Statistics.IsTotal x.key) →
      Respects W (RouterM.onDisk (Disk.write batch)))
    (transfer : Transfer) (destination : CrossChainId) :
    Respects W (Statistics.record transfer destination) := by
  have htraffic : ∀ source denom,
      Statistics.IsTotal (Key.traffic source destination denom).bytes :=
    fun _ _ => Statistics.isTotal_bytes.2 (.inl rfl)
  have hcount : ∀ source, Statistics.IsTotal (Key.dispatchCount source destination).bytes :=
    fun _ => Statistics.isTotal_bytes.2 (.inr rfl)
  have hadditions : ∀ source entries,
      Respects W (Statistics.additions source destination entries) := by
    intro source entries
    induction entries with
    | nil => exact Respects.pure _
    | cons entry rest ih =>
      refine Respects.bind ((hread (htraffic _ _)).bind fun _ => Respects.pure _) fun _ => ?_
      exact (Respects.settle _ _).bind fun _ => ih.bind fun _ => Respects.pure _
  refine (Respects.checked _).bind fun source => fun w w' h => ?_
  -- Which keys are written is known from the first of the two runs.
  refine (hadditions source _ w w' h).bind_of (fun _ _ h => h) fun writes u v hwrites => ?_
  refine Respects.bind ((hread (hcount source)).bind fun _ => Respects.pure _) (fun _ => ?_) u v
  refine (Respects.settle _ _).bind fun _ => hwrite _ fun x hx => ?_
  rcases List.mem_append.1 hx with hx | hx
  · obtain ⟨denom, hkey⟩ := Statistics.key_of_mem_additions hwrites hx
    exact hkey ▸ htraffic source denom
  · obtain rfl := List.mem_singleton.1 hx
    exact hcount source

theorem forward {packet : ForwardingPacket}
    (hprotocol : Respects W (Breaker.isOpen (.pausedProtocol packet.forwarding.protocol)))
    (hroute : ∀ counterparty,
      Respects W (Breaker.isOpen (.pausedRoute packet.forwarding.protocol counterparty)))
    (hheld : ∀ w w', W w w' → w'.books.ledger.balances r.config.accounts.holding =
      w.books.ledger.balances r.config.accounts.holding)
    (hsend : ∀ c, r.forwarders.route? packet.forwarding.protocol = some c →
      Respects W (RouterM.onBooks (c.send packet))) :
    Respects W (r.forward packet) := by
  refine (Respects.checked _).bind fun _ => (Respects.checked _).bind fun destination => ?_
  refine hprotocol.bind fun _ => Respects.ite (Respects.throw _) ?_
  refine (hroute destination.counterparty).bind fun _ => Respects.ite (Respects.throw _) ?_
  refine Respects.get_bind fun w w' h => ?_
  rw [hheld w w' h]
  refine Respects.bind (Respects.checked _) (fun _ => ?_) w w' h
  cases hc : r.forwarders.require packet.forwarding.protocol with
  | error e => exact Respects.throw _
  | ok c => exact hsend c (Registry.require_eq_ok.1 hc)

variable (hS : Stage.Over W S)

include hS

theorem onWorld {act : RouterM α} (h : Respects W act) : Respects S (StageM.onWorld act) :=
  h.zoom (fun _ _ => hS.world) fun _ _ _ _ => hS.withWorld

theorem tentatively {act : StageM α} (h : Respects S act) :
    Respects S (StageM.tentatively act) := by
  intro s t hst
  have hact := h s t hst
  unfold StageM.tentatively
  generalize act s = x at hact ⊢
  generalize act t = y at hact ⊢
  cases hact with
  | ok a h => exact .ok a h
  | error e h => exact .error e (hS.withWorld hst (hS.world h))

theorem staged {act : StageM α} {transfer : Transfer}
    (hstart : ∀ w w', W w w' → S ⟨w, transfer⟩ ⟨w', transfer⟩) (h : Respects S act) :
    Respects W (RouterM.staged transfer act) := by
  intro w w' hw
  have hact := h _ _ (hstart w w' hw)
  unfold RouterM.staged
  generalize act ⟨w, transfer⟩ = x at hact ⊢
  generalize act ⟨w', transfer⟩ = y at hact ⊢
  cases hact with
  | @ok u v a h =>
    change Parallel _ (.ok (a, u.transfer) u.world) (.ok (a, v.transfer) v.world)
    rw [hS.transfer h]
    exact .ok _ (hS.world h)
  | error e h => exact .error e (hS.world h)

theorem execute {action : Action} (hopen : Respects W (Breaker.isOpen (.pausedAction action.id)))
    (hrun : ∀ c, r.actions.route? action.id = some c →
      Respects S (StageM.onWorkbench (c.run action))) :
    Respects S (r.execute action) := by
  refine Respects.get_bind fun s t hst => ?_
  rw [hS.transfer hst]
  refine Parallel.bind (Respects.checked _ s t hst) fun _ => ?_
  refine (hopen.onWorld hS).bind fun _ => Respects.ite (Respects.throw _) ?_
  cases hc : r.actions.require action.id with
  | error e => exact Respects.throw _
  | ok c => exact hrun c (Registry.require_eq_ok.1 hc)

theorem executeAll {execute : Action → StageM Unit} {actions : List Action}
    (h : ∀ action ∈ actions, Respects S (execute action)) :
    Respects S (executeAll execute actions) := by
  induction actions with
  | nil => exact Respects.pure _
  | cons action rest ih =>
    refine Respects.bind ((h action List.mem_cons_self).tentatively hS).wrapping fun _ => ?_
    exact ih fun a ha => h a (List.mem_cons_of_mem _ ha)

theorem dispatch {payload : Payload}
    (hexecute : ∀ action ∈ payload.preActions, Respects S (r.execute action))
    (hforward : ∀ s t, S s t → Respects W (r.forward ⟨s.transfer, payload.forwarding⟩))
    (hrecord : ∀ transfer destination,
      Respects W (RouterM.attempt (Statistics.record transfer destination))) :
    Respects S (r.dispatch payload) := by
  refine Respects.get_bind fun s t hst => ?_
  rw [hS.transfer hst]
  refine Parallel.bind (Respects.checked _ s t hst) fun _ => (Respects.checked _).bind fun _ =>
    (Respects.checked _).bind fun destination => (executeAll hS hexecute).bind fun _ =>
      Respects.get_bind fun u v huv => ?_
  rw [hS.transfer huv]
  refine Parallel.bind (Respects.wrapping ((hforward u v huv).onWorld hS) u v huv) fun _ => ?_
  exact (hrecord _ _).onWorld hS

theorem process {payload : Payload} (hdispatch : Respects S (r.dispatch payload))
    (hreport : ∀ event, Respects W (RouterM.emit event)) : Respects S (r.process payload) := by
  refine Respects.get_bind fun s t hst => ?_
  rw [hS.transfer hst]
  refine Parallel.bind (hdispatch s t hst) fun _ => Respects.get_bind fun u v huv => ?_
  rw [hS.transfer huv]
  refine Parallel.bind (Respects.checked _ u v huv) fun _ => (Respects.checked _).bind fun _ => ?_
  exact (hreport _).onWorld hS

end Respects

/-! ## Parts of the state -/

/-- Worlds with the same disk and related books. -/
structure World.Beside (B : Books → Books → Prop) (w w' : World) : Prop where
  disk : w'.disk = w.disk
  books : B w.books w'.books

/-- The same transfer of a denomination that satisfies `Q`, in worlds with the same disk and related
books. -/
structure Stage.Beside (Q : String → Prop) (B : Books → Books → Prop) (s s' : Stage) : Prop where
  world : s.world.Beside B s'.world
  transfer : s'.transfer = s.transfer
  deals : Q s.transfer.destinationDenom

structure Workbench.Beside (Q : String → Prop) (B : Books → Books → Prop) (s s' : Workbench) :
    Prop where
  books : B s.books s'.books
  transfer : s'.transfer = s.transfer
  deals : Q s.transfer.destinationDenom

section

variable {Q : String → Prop} {B : Books → Books → Prop} {α : Type}

theorem respects_onDisk (act : DiskM α) : Respects (World.Beside B) (RouterM.onDisk act) := by
  apply (Respects.of_eq act).zoom
  · exact fun _ _ h => h.disk.symm
  · exact fun _ _ _ _ h hd => ⟨hd.symm, h.books⟩

theorem respects_onBooks {act : BooksM α} (h : Respects B act) :
    Respects (World.Beside B) (RouterM.onBooks act) := by
  apply h.zoom
  · exact fun _ _ h => h.books
  · exact fun _ _ _ _ h hb => ⟨h.disk, hb⟩

theorem Stage.Beside.over : Stage.Over (World.Beside B) (Stage.Beside Q B) where
  world h := h.world
  transfer h := h.transfer
  withWorld h hw := ⟨hw, h.transfer, h.deals⟩

theorem respects_onWorkbench {act : WorkbenchM α} (h : Respects (Workbench.Beside Q B) act) :
    Respects (Stage.Beside Q B) (StageM.onWorkbench act) := by
  apply h.zoom
  · exact fun _ _ h => ⟨h.world.books, h.transfer, h.deals⟩
  · exact fun _ _ _ _ h hs => ⟨⟨h.world.disk, hs.books⟩, hs.transfer, hs.deals⟩

theorem respects_workbench_onBooks {act : BooksM α} (h : Respects B act) :
    Respects (Workbench.Beside Q B) (WorkbenchM.onBooks act) := by
  apply h.zoom
  · exact fun _ _ h => h.books
  · exact fun _ _ _ _ h hb => ⟨hb, h.transfer, h.deals⟩

theorem respects_staged {act : StageM α} {transfer : Transfer}
    (hdeals : Q transfer.destinationDenom) (h : Respects (Stage.Beside Q B) act) :
    Respects (World.Beside B) (RouterM.staged transfer act) :=
  h.staged Stage.Beside.over fun _ _ hw => ⟨hw, rfl, hdeals⟩

/-! ### The disk -/

theorem respects_read [Codec α] (key : Key) :
    Respects (World.Beside B) (RouterM.read α key) := by
  refine (respects_onDisk _).bind fun found => ?_
  cases found with
  | none => exact Respects.pure none
  | some s => exact (Respects.settle _ _).bind fun _ => Respects.pure _

theorem respects_loadParams : Respects (World.Beside B) loadParams :=
  (respects_read .params).bind fun _ => Respects.pure _

theorem respects_resolve (r : Router) (source : CrossChainId) (raw : Bytes) :
    Respects (World.Beside B) (r.resolve source raw) := by
  have hlook : ∀ payload, Respects (World.Beside B) (Router.lookUp payload) := by
    intro payload
    cases payload with
    | inline payload => exact Respects.pure _
    | pending h =>
      refine (respects_read _).bind fun found => ?_
      cases found with
      | none => exact Respects.throw _
      | some entry => exact Respects.pure _
  rw [Router.resolve_eq]
  exact (Respects.checked _).bind fun _ => (Respects.settle _ _).bind fun _ =>
    (Respects.settle _ _).bind fun _ => (hlook _).bind fun _ => (Respects.checked _).bind fun _ =>
      (Respects.checked _).bind fun _ => Respects.pure _

theorem respects_screen (payload : Payload) :
    Respects (World.Beside B) (Router.screen payload) :=
  respects_loadParams.bind fun _ => Respects.checked _

end

/-! ## Handlers -/

/-- A relation between books that is respected by moves out of the holding account in denominations
that satisfy `Q`, by moves out of the swap pool in those that satisfy `P`, and by what is reported
and sent. -/
structure Books.Respected (P Q : String → Prop) (B : Books → Books → Prop) : Prop where
  held : ∀ {b b' : Books}, B b b' → b'.ledger.balances holding = b.ledger.balances holding
  pay : ∀ account (coin : Coin), Q coin.denom →
    Respects B (BooksM.onLedger (LedgerM.send holding account [coin]))
  draw : ∀ coin : Coin, P coin.denom →
    Respects B (BooksM.onLedger (LedgerM.send swapPool holding [coin]))
  report : ∀ event, Respects B (BooksM.emit event)
  ship : ∀ {b b' : Books} (shipment : Shipment), B b b' →
    B { b with outbox := b.outbox ++ [shipment] } { b' with outbox := b'.outbox ++ [shipment] }

/-- A pre-action that trades for a denomination. -/
def Action.SwapsInto (action : Action) (denom : String) : Prop :=
  match action.attributes with
  | .fee _ => False
  | .swap attributes => denom = attributes.outputDenom

section

variable {P Q : String → Prop} {B : Books → Books → Prop}

theorem respects_setAmount (amount : Amount) :
    Respects (Workbench.Beside Q B) (WorkbenchM.setAmount amount) :=
  Respects.modify fun _ _ h =>
    ⟨h.books, congrArg (·.withDestinationAmount amount) h.transfer, h.deals⟩

theorem respects_setDenom {denom : String} (hdenom : Q denom) :
    Respects (Workbench.Beside Q B) (WorkbenchM.setDenom denom) := by
  apply Respects.get_bind
  intro s t hst
  rw [hst.transfer]
  cases htransfer : s.transfer.withDestinationDenom denom with
  | error cause => exact .error _ hst
  | ok transfer =>
    obtain ⟨-, rfl⟩ := Transfer.withDestinationDenom_ok htransfer
    exact .ok _ ⟨hst.books, rfl, hdenom⟩

theorem Fee.respects_pay {payer : String}
    (hpay : ∀ account (coin : Coin), Q coin.denom →
      Respects B (BooksM.onLedger (LedgerM.send payer account [coin])))
    (hreport : ∀ event, Respects B (BooksM.emit event)) {denom : String} (hdenom : Q denom)
    (total : Amount) (shares : List (String × Amount)) :
    Respects B (pay payer denom total shares) := by
  induction shares generalizing total with
  | nil => exact Respects.pure total
  | cons share rest ih =>
    refine (hpay share.1 _ hdenom).bind fun _ => ?_
    cases total.add? share.2 with
    | none => exact Respects.throw _
    | some total => exact (hreport _).bind fun _ => ih total

theorem Fee.respects_charge {payer : String}
    (hpay : ∀ account (coin : Coin), Q coin.denom →
      Respects B (BooksM.onLedger (LedgerM.send payer account [coin])))
    (hreport : ∀ event, Respects B (BooksM.emit event)) (attributes : FeeAttributes) :
    Respects (Workbench.Beside Q B) (charge payer attributes) := by
  refine (Respects.checked _).bind fun _ => Respects.get_bind fun s t hst => ?_
  rw [hst.transfer]
  refine Parallel.bind (Respects.settle _ _ s t hst) fun shares => ?_
  refine (respects_workbench_onBooks (respects_pay hpay hreport hst.deals _ shares)).bind
    fun total => ?_
  cases s.transfer.destinationAmount.sub? total with
  | none => exact Respects.throw _
  | some rest => exact respects_setAmount rest

theorem Testbed.respects_swap (hB : Books.Respected P Q B) (attributes : SwapAttributes)
    (hdraw : P attributes.outputDenom) (hdeals : Q attributes.outputDenom) :
    Respects (Workbench.Beside Q B) (swap attributes) := by
  refine Respects.get_bind fun s t hst => ?_
  rw [hst.transfer]
  refine Respects.ite (Respects.throw _) ?_ s t hst
  refine (respects_workbench_onBooks (hB.pay swapPool _ hst.deals)).bind fun _ => ?_
  refine (respects_workbench_onBooks (hB.draw _ hdraw)).bind fun _ => ?_
  exact (respects_setDenom hdeals).bind fun _ => respects_setAmount _

theorem Testbed.respects_escrow (hB : Books.Respected P Q B) (id : ProtocolId)
    {packet : ForwardingPacket} (hdeals : Q packet.transfer.destinationDenom) :
    Respects B ((escrowController id).send packet) :=
  (hB.pay (escrow id) packet.transfer.destinationCoin hdeals).bind fun _ =>
    Respects.modify fun _ _ h => hB.ship ⟨id, packet⟩ h

/-! ## From the pre-actions to the report -/

variable {r : Router}

theorem respects_emit {event : Event} (hB : Respects B (BooksM.emit event)) :
    Respects (World.Beside B) (RouterM.emit event) :=
  respects_onBooks hB

theorem respects_execute (hr : r.Fitted) (hB : Books.Respected P Q B) {action : Action}
    (haction : ∀ denom, action.SwapsInto denom → P denom ∧ Q denom) :
    Respects (Stage.Beside Q B) (r.execute action) := by
  refine Respects.execute Stage.Beside.over (respects_onDisk _) fun c hc => respects_onWorkbench ?_
  obtain ⟨id, attributes⟩ := action
  cases id with
  | unsupported => exact absurd (hr.reserved.symm.trans hc) nofun
  | fee =>
    obtain rfl := Option.some.inj (hr.fee.symm.trans hc)
    cases attributes with
    | fee attributes => exact Fee.respects_charge hB.pay hB.report attributes
    | swap attributes => exact Respects.throw _
  | swap =>
    obtain rfl := Option.some.inj (hr.swap.symm.trans hc)
    cases attributes with
    | fee attributes => exact Respects.throw _
    | swap attributes =>
      obtain ⟨hdraw, hdeals⟩ := haction attributes.outputDenom rfl
      exact Testbed.respects_swap hB attributes hdraw hdeals

theorem respects_forward (hr : r.Fitted) (hB : Books.Respected P Q B) {packet : ForwardingPacket}
    (hdeals : Q packet.transfer.destinationDenom) :
    Respects (World.Beside B) (r.forward packet) := by
  refine Respects.forward (respects_onDisk _) (fun _ => respects_onDisk _) (fun w w' h => ?_)
    fun c hc => respects_onBooks ?_
  · rw [hr.holding, hB.held h.books]
  · obtain rfl := hr.forwarders _ c hc
    exact Testbed.respects_escrow hB _ hdeals

theorem respects_process (hr : r.Fitted) (hB : Books.Respected P Q B) {payload : Payload}
    (hpayload : ∀ action ∈ payload.preActions, ∀ denom, action.SwapsInto denom →
      P denom ∧ Q denom) : Respects (Stage.Beside Q B) (r.process payload) := by
  refine Respects.process Stage.Beside.over ?_ fun _ => respects_emit (hB.report _)
  apply Respects.dispatch Stage.Beside.over
  · exact fun action haction => respects_execute hr hB (hpayload action haction)
  · exact fun s _ hst => respects_forward hr hB hst.deals
  · intro transfer destination
    exact (Respects.record (fun _ => respects_read _) (fun _ _ => respects_onDisk _) transfer
      destination).attempt

theorem respects_complete (hB : ∀ event, Respects B (BooksM.emit event))
    (pending : Option PayloadHash) :
    Respects (World.Beside B) (Router.complete pending) := by
  cases pending with
  | none => exact Respects.pure _
  | some h =>
    refine Respects.bind ((respects_read _).bind fun found => ?_) fun _ => Respects.pure _
    cases found with
    | none => exact Respects.throw _
    | some entry =>
      exact (respects_onDisk _).bind fun _ => (respects_emit (hB _)).bind fun _ => Respects.pure _

end

end TransferRouter
