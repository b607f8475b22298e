import Mathlib.Algebra.Order.BigOperators.Group.List
import Mathlib.Algebra.Order.Group.Nat
import TransferRouter.Proofs.Conservation
import TransferRouter.Proofs.Course

/-!
What the holding account has against what a transfer owes. A pre-action changes both, the ledger and
the transfer, one after the other; where they start out in step they stay in step, whatever fees and
swaps come in between, as long as no fee goes to the holding account itself. Such a fee is no longer
owed but still there when the packet is to be forwarded, and stops it.
-/

namespace TransferRouter

open Testbed (holding swapPool)

/-! ## What a pre-action does -/

/-- A transfer and its books after the destination coin was traded with the pool. -/
structure Workbench.Swapped (a : SwapAttributes) (s s' : Workbench) : Prop where
  traded : s'.transfer = { s.transfer with
    destinationDenom := a.outputDenom
    destinationAmount := s.transfer.destinationAmount.divide 2 }
  moved : ∃ l : Ledger, s.books.ledger.Moved holding swapPool s.transfer.destinationCoin l ∧
    l.Moved swapPool holding s'.transfer.destinationCoin s'.books.ledger

theorem Testbed.swap_ok {a : SwapAttributes} {s s' : Workbench} (h : Testbed.swap a s = .ok () s') :
    s.Swapped a s' := by
  obtain ⟨_, u, hget, h₁⟩ := bind_eq_ok.1 h
  obtain ⟨rfl, rfl⟩ := get_eq_ok.1 hget
  split at h₁
  next =>
    obtain ⟨_, _, hthrow, -⟩ := bind_eq_ok.1 h₁
    exact (throw_ne_ok hthrow).elim
  next =>
    obtain ⟨_, u, hpaid, h₂⟩ := bind_eq_ok.1 h₁
    obtain ⟨b, hledger, rfl⟩ := zoom_eq_ok.1 hpaid
    obtain ⟨l, hl, rfl⟩ := BooksM.onLedger_eq_ok.1 hledger
    obtain ⟨_, u, hgot, h₃⟩ := bind_eq_ok.1 h₂
    obtain ⟨b, hledger, rfl⟩ := zoom_eq_ok.1 hgot
    obtain ⟨m, hm, rfl⟩ := BooksM.onLedger_eq_ok.1 hledger
    obtain ⟨_, u, hdenom, hamount⟩ := bind_eq_ok.1 h₃
    obtain ⟨-, rfl⟩ := setDenom_ok hdenom
    obtain rfl := modify_eq_ok.1 hamount
    exact ⟨rfl, l, Ledger.send_ok (LedgerM.send_eq_ok.1 hl),
      Ledger.send_ok (LedgerM.send_eq_ok.1 hm)⟩

/-- What the attributes of a pre-action that succeeds did. -/
def Workbench.Changed (s s' : Workbench) : ActionAttributes → Prop
  | .fee a => s.Charged [a] s'
  | .swap a => s.Swapped a s'

theorem Router.execute_changes {r : Router} (hr : r.Fitted) {action : Action} {s s' : Stage}
    (h : r.execute action s = .ok () s') : s.bench.Changed s'.bench action.attributes := by
  obtain ⟨c, hroute, hrun⟩ := execute_ok h
  obtain ⟨id, attributes⟩ := action
  cases id with
  | unsupported => exact absurd (hr.reserved.symm.trans hroute) nofun
  | fee =>
    obtain rfl := Option.some.inj (hr.fee.symm.trans hroute)
    cases attributes with
    | fee a => exact Fee.charge_ok hrun
    | swap a => exact (throw_ne_ok hrun).elim
  | swap =>
    obtain rfl := Option.some.inj (hr.swap.symm.trans hroute)
    cases attributes with
    | fee a => exact (throw_ne_ok hrun).elim
    | swap a => exact Testbed.swap_ok hrun

/-! ## What is held and what is owed -/

/-- What a transfer owes of a denomination. -/
def Transfer.owed (t : Transfer) (denom : String) : Nat :=
  if denom = t.destinationDenom then t.destinationAmount.toNat else 0

/-- What a pre-action takes from the transfer and leaves in the holding account: the fees that go
there. -/
def ActionPacket.kept (p : ActionPacket) (denom : String) : Nat :=
  match p.action.attributes with
  | .fee a =>
    if denom = p.transfer.destinationDenom then
      a.gain holding p.transfer.destinationAmount.toNat
    else 0
  | .swap _ => 0

/-- The holding account has, of each denomination, what the transfer owes and a surplus. -/
def Workbench.Holds (s : Workbench) (surplus : String → Nat) : Prop :=
  ∀ denom, s.books.ledger.funds holding denom = s.transfer.owed denom + surplus denom

/-- The holding account has what the transfer owes and nothing else. -/
def Stage.Backed (s : Stage) : Prop :=
  ∀ denom, s.world.books.ledger.funds holding denom = s.transfer.owed denom

/-- Transfers that differ in nothing but the destination coin. -/
def Transfer.Traded (t t' : Transfer) : Prop :=
  t' = { t with
    destinationDenom := t'.destinationDenom, destinationAmount := t'.destinationAmount }

instance : IsPreorder Transfer Transfer.Traded where
  refl _ := rfl
  trans _ _ _ h h' := by rw [Transfer.Traded, h', h]

section

variable {surplus : String → Nat} {s s' : Workbench}

/-- What fees take from the holding account is no longer owed, except what comes back to it. -/
theorem Workbench.Charged.holds {a : FeeAttributes} (h : s.Charged [a] s') (hs : s.Holds surplus) :
    s'.Holds fun denom => surplus denom +
      if denom = s.transfer.destinationDenom then
        a.gain holding s.transfer.destinationAmount.toNat
      else 0 := by
  intro denom
  have hheld := hs denom
  have hpaid := h.paid.funds holding denom
  have hgain : Fee.gain holding s.transfer.destinationAmount.toNat [a] =
      a.gain holding s.transfer.destinationAmount.toNat := rfl
  have hless := h.amount_le
  rw [Transfer.owed] at hheld ⊢
  rw [hgain] at hpaid
  rw [h.denom]
  by_cases hd : denom = s.transfer.destinationDenom
  · simp only [hd, and_self, if_true] at hheld hpaid ⊢
    omega
  · simp only [hd, and_false, if_false] at hheld hpaid ⊢
    omega

/-- All that is owed goes to the pool, and what comes back is owed from then on. -/
theorem Workbench.Swapped.holds {a : SwapAttributes} (h : s.Swapped a s') (hs : s.Holds surplus) :
    s'.Holds surplus := by
  obtain ⟨l, hpaid, hgot⟩ := h.moved
  have hne : holding ≠ swapPool := by decide
  intro denom
  have hheld := hs denom
  have hpaid := hpaid.funds holding denom
  have hgot := hgot.funds holding denom
  simp only [hne, false_and, if_false, true_and] at hpaid hgot
  change l.funds holding denom + s.transfer.owed denom = _ at hpaid
  change _ = _ + s'.transfer.owed denom at hgot
  omega

/-- What a pre-action that succeeds does to what is held and to what is owed. -/
theorem Workbench.Changed.holds {action : Action} (h : s.Changed s' action.attributes)
    (hs : s.Holds surplus) :
    s'.Holds fun denom => surplus denom + ActionPacket.kept ⟨s.transfer, action⟩ denom := by
  obtain ⟨id, attributes⟩ := action
  cases attributes with
  | fee a => exact Charged.holds h hs
  | swap a => exact Swapped.holds h hs

theorem Workbench.Changed.traded {attributes : ActionAttributes} (h : s.Changed s' attributes) :
    s.transfer.Traded s'.transfer := by
  cases attributes with
  | fee a =>
    have hrest := Charged.rest h
    rw [Transfer.Traded, hrest]
    rfl
  | swap a =>
    have htraded := Swapped.traded h
    rw [Transfer.Traded, htraded]

end

/-! ## Pre-actions in order -/

/-- What a handover takes from the transfer and leaves in the holding account. -/
def Handover.kept : Handover → String → Nat
  | .action packet => packet.kept
  | .forwarding _ => fun _ => 0

/-- What handovers take from the transfer and leave in the holding account. -/
def keptOf (calls : List Handover) (denom : String) : Nat := (calls.map (·.kept denom)).sum

theorem keptOf_cons (packet : ActionPacket) (calls : List Handover) (denom : String) :
    keptOf (.action packet :: calls) denom = packet.kept denom + keptOf calls denom := by
  rw [keptOf, List.map_cons, List.sum_cons]
  rfl

section

variable {r : Router} {actions : List Action} {s t : Stage} {calls : List Handover}

theorem Executed.traded (hr : r.Fitted) (h : Executed r.execute actions s calls t) :
    s.transfer.Traded t.transfer := by
  induction h with
  | nil s => exact refl_of Transfer.Traded s.transfer
  | cons hrun _ ih => exact trans_of Transfer.Traded (Router.execute_changes hr hrun).traded ih

theorem Executed.holds (hr : r.Fitted) (h : Executed r.execute actions s calls t)
    {surplus : String → Nat} (hs : s.bench.Holds surplus) :
    t.bench.Holds fun denom => surplus denom + keptOf calls denom := by
  induction h generalizing surplus with
  | nil s => exact hs
  | cons hrun _ ih =>
    simp only [keptOf_cons, ← Nat.add_assoc]
    exact ih ((Router.execute_changes hr hrun).holds hs)

/-- Pre-actions that pay nothing to the holding account leave nothing there. -/
theorem Executed.kept_eq_zero (h : Executed r.execute actions s calls t)
    (hnone : ∀ action ∈ actions, ¬ action.Reaches holding) (denom : String) :
    keptOf calls denom = 0 := by
  induction h with
  | nil s => rfl
  | @cons action rest s _ _ _ _ _ ih =>
    have hrest := ih fun a ha => hnone a (List.mem_cons_of_mem _ ha)
    have hkept : ActionPacket.kept ⟨s.transfer, action⟩ denom = 0 := by
      have haction := hnone action List.mem_cons_self
      obtain ⟨id, attributes⟩ := action
      cases attributes with
      | swap a => rfl
      | fee a =>
        have hgain : Fee.gain holding s.transfer.destinationAmount.toNat [a] = 0 := by
          refine Fee.gain_eq_zero (fun b hb f hf hrecipient => haction ⟨f, ?_, hrecipient⟩) _
          exact List.mem_singleton.1 hb ▸ hf
        exact (if_congr Iff.rfl hgain rfl).trans (ite_self 0)
    rw [keptOf_cons, hkept, hrest]

/-- What is kept at one handover is kept at the end. -/
theorem kept_le_keptOf {packet : ActionPacket} (h : .action packet ∈ calls) (denom : String) :
    packet.kept denom ≤ keptOf calls denom :=
  List.le_sum_of_mem (List.mem_map_of_mem (f := (Handover.kept · denom)) h)

end

/-! ## What the forwarding finds -/

/-- A fee of a pre-action that is not nothing goes to the holding account. -/
def ActionPacket.PaysBack (p : ActionPacket) : Prop :=
  ∃ a, p.action.attributes = .fee a ∧
    ∃ f ∈ a.fees, f.recipient = holding ∧ f.of p.transfer.destinationAmount.toNat ≠ 0

theorem ActionPacket.PaysBack.kept_ne_zero {p : ActionPacket} (h : p.PaysBack) :
    p.kept p.transfer.destinationDenom ≠ 0 := by
  obtain ⟨a, hattributes, f, hf, hrecipient, hshare⟩ := h
  have hmem : f ∈ a.fees.filter fun f => f.recipient == holding :=
    List.mem_filter.2 ⟨hf, beq_iff_eq.2 hrecipient⟩
  have hgain : f.of p.transfer.destinationAmount.toNat ≤
      a.gain holding p.transfer.destinationAmount.toNat :=
    List.le_sum_of_mem (List.mem_map_of_mem hmem)
  have hkept : p.kept p.transfer.destinationDenom =
      a.gain holding p.transfer.destinationAmount.toNat := by
    rw [kept, hattributes]
    exact if_pos rfl
  omega

/-- The initial condition of a forwarding holds when exactly the coin of the transfer is held. -/
def Router.Admits (r : Router) (s : Stage) : Prop :=
  checkHeld (s.world.books.ledger.balances r.config.accounts.holding)
    s.transfer.destinationCoin = .ok ()

section

variable {r : Router} {s : Stage}

theorem Router.admits_iff (hr : r.Fitted) :
    r.Admits s ↔ s.transfer.destinationAmount ≠ .zero ∧ s.Backed := by
  rw [Admits, hr.holding, checkHeld_eq_ok, Ledger.balances_eq_singleton_iff]
  refine and_congr ?_ Iff.rfl
  rw [Coin.isZero, Amount.isZero_eq_false_iff, ne_eq, ne_eq, Amount.ext_iff]
  rfl

/-- What the initial condition refuses is not forwarded. -/
theorem Router.forward_ne_ok {forwarding : Forwarding} {w : World} (h : ¬ r.Admits s) :
    r.forward ⟨s.transfer, forwarding⟩ s.world ≠ .ok () w := by
  intro hforward
  rw [forward_eq] at hforward
  obtain ⟨c, u, hprepare, -⟩ := bind_eq_ok.1 hforward
  exact h (prepare_ok hprepare).held

end

/-- Pre-actions that keep the books: what is held and what is owed differ by the fees that went to
the holding account itself. -/
structure Router.KeepsBooks (r : Router) (actions : List Action) (calls : List Handover)
    (s t : Stage) : Prop where
  source : s.transfer.Traded t.transfer
  held : ∀ denom, t.world.books.ledger.funds holding denom =
    t.transfer.owed denom + keptOf calls denom
  backed : (∀ action ∈ actions, ¬ action.Reaches holding) →
    t.Backed ∧ (r.Admits t ↔ t.transfer.destinationAmount ≠ .zero)
  refused : (∃ packet, .action packet ∈ calls ∧ packet.PaysBack) →
    ¬ r.Admits t ∧ ∀ forwarding w, r.forward ⟨t.transfer, forwarding⟩ t.world ≠ .ok () w

/-- After each pre-action of a list that succeeds, what the holding account has is what the transfer
owes, so that a forwarding would be admitted unless nothing is left. A fee that goes to the holding
account itself stays there, and the forwarding is refused. -/
theorem keepsBooks_of_executed (r : Router) (actions done : List Action) (calls : List Handover)
    (s t : Stage) (hr : r.Fitted) (hs : s.Backed) (hdone : done <+: actions)
    (h : Executed r.execute done s calls t) : r.KeepsBooks actions calls s t := by
  have hheld : ∀ denom, t.world.books.ledger.funds holding denom =
      t.transfer.owed denom + keptOf calls denom := by
    intro denom
    have hholds : t.bench.Holds fun denom => 0 + keptOf calls denom := h.holds hr hs
    exact (hholds denom).trans (congrArg (_ + ·) (Nat.zero_add _))
  refine ⟨h.traded hr, hheld, fun hnone => ?_, ?_⟩
  · have hspared : ∀ action ∈ done, ¬ action.Reaches holding :=
      fun action haction => hnone action (hdone.subset haction)
    have hbacked : t.Backed := by
      intro denom
      rw [hheld denom, h.kept_eq_zero hspared, Nat.add_zero]
    refine ⟨hbacked, ?_⟩
    rw [Router.admits_iff hr]
    exact and_iff_left hbacked
  · rintro ⟨packet, hcall, hback⟩
    have hkept := kept_le_keptOf hcall packet.transfer.destinationDenom
    have hpositive := hback.kept_ne_zero
    have hrefused : ¬ r.Admits t := by
      intro hadmits
      have hbacked := ((Router.admits_iff hr).1 hadmits).2 packet.transfer.destinationDenom
      have hsurplus := hheld packet.transfer.destinationDenom
      omega
    exact ⟨hrefused, fun forwarding w => Router.forward_ne_ok hrefused⟩

namespace Testbed

/-- The testbed with a coin in the holding account. -/
def funded : World :=
  { world with books := { world.books with
      ledger := world.books.ledger.set holding coin.denom coin.amount } }

theorem backed_funded : Stage.Backed ⟨funded, .fresh origin coin⟩ := by
  intro denom
  have hempty : world.books.ledger.funds holding denom = 0 := by
    change (Ledger.set .empty swapPool poolCoin.denom poolCoin.amount).funds holding denom = 0
    rw [Ledger.funds_set, if_neg fun h => absurd h.1 (by decide)]
    rfl
  change (world.books.ledger.set holding coin.denom coin.amount).funds holding denom = _
  rw [Ledger.funds_set, hempty]
  exact if_congr ⟨fun h => h.2.symm, fun h => ⟨rfl, h.symm⟩⟩ rfl rfl

/-- A fee of five in a hundred, paid to an account, and then a swap. -/
def trade (recipient : String) : List Action :=
  [.fee ⟨[⟨recipient, 500⟩]⟩, .ofAttributes (.swap ⟨poolCoin.denom, ⟨40, by decide⟩, none⟩)]

theorem succeeds_trade :
    succeeds (executeAll router.execute (trade "treasury"))
      ⟨funded, .fresh origin coin⟩ = true := by
  decide +kernel

theorem keepsBooks_trade : ∃ calls t,
    Executed router.execute (trade "treasury") ⟨funded, .fresh origin coin⟩ calls t ∧
      router.KeepsBooks (trade "treasury") calls ⟨funded, .fresh origin coin⟩ t := by
  obtain ⟨_, t, hrun⟩ := exists_of_succeeds succeeds_trade
  obtain ⟨calls, hcalls⟩ := exists_executed hrun
  exact ⟨calls, t, hcalls, keepsBooks_of_executed _ _ _ _ _ _ fitted_router backed_funded
    List.prefix_rfl hcalls⟩

-- The same fee stops the forwarding when it goes to the holding account.
example : succeeds (router.dispatch { payload with preActions := trade "treasury" })
    ⟨funded, .fresh origin coin⟩ = true ∧
  succeeds (executeAll router.execute (trade holding)) ⟨funded, .fresh origin coin⟩ = true ∧
  succeeds (router.dispatch { payload with preActions := trade holding })
    ⟨funded, .fresh origin coin⟩ = false := by
  decide +kernel

end Testbed

end TransferRouter
