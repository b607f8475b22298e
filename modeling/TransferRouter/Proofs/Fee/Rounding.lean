import Mathlib.Algebra.Order.BigOperators.Group.List
import Mathlib.Algebra.Order.Ring.Nat
import TransferRouter.Proofs.Fee

/-!
Fees to the last unit. A share is the product of the amount and the basis points, which must be an
amount itself, divided by the whole and rounded down. So the shares never come to more than what all
basis points together give, and each recipient but one makes them fall short of that by less than
one unit. What is taken off a transfer is therefore always there to be taken.
-/

namespace TransferRouter

/-! ## Rounding -/

namespace FeeAttributes

theorem loss_le (a : FeeAttributes) (n : Nat) :
    a.loss n ≤ a.fees.length * (basisPointsOfWhole - 1) := by
  have hparts : ∀ m ∈ a.fees.map fun f => n * f.basisPoints.toNat % basisPointsOfWhole,
      m ≤ basisPointsOfWhole - 1 := by
    intro m hm
    obtain ⟨f, -, rfl⟩ := List.mem_map.1 hm
    exact Nat.le_pred_of_lt (Nat.mod_lt _ (by decide))
  have hsum := List.sum_le_card_nsmul _ _ hparts
  rw [List.length_map] at hsum
  exact hsum

/-- Rounding takes off less than one unit for each recipient, which makes no difference for one. -/
theorem div_le_sum_add {a : FeeAttributes} (h : a.fees ≠ []) (n : Nat) :
    n * a.total / basisPointsOfWhole ≤ a.sum n + (a.fees.length - 1) := by
  have hlength : 0 < a.fees.length := List.length_pos_iff.2 h
  have hloss := a.loss_le n
  have hexact := a.sum_add_loss n
  have hlt : n * a.total < (a.sum n + a.fees.length) * basisPointsOfWhole := by
    unfold basisPointsOfWhole at hloss hexact ⊢
    omega
  have hdiv := (Nat.div_lt_iff_lt_mul (by decide)).2 hlt
  omega

end FeeAttributes

/-! ## Shares -/

namespace Fee

variable {amount : Amount} {f : FeeShare} {fees : List FeeShare} {e : RouterError}
variable {shares : List (String × Amount)}

/-- The product of an amount and a share is no amount. -/
def Overflows (amount : Amount) (f : FeeShare) : Prop :=
  Amount.size ≤ amount.toNat * f.basisPoints.toNat

theorem share_eq_error :
    share amount f.basisPoints = .error e ↔ e = .overflow .fee ∧ Overflows amount f := by
  unfold share Amount.times? Amount.ofNat? Overflows
  by_cases h : amount.toNat * f.basisPoints.toNat < Amount.size
  · rw [dif_pos h]
    exact iff_of_false nofun fun hoverflow => Nat.not_le_of_lt h hoverflow.2
  · rw [dif_neg h]
    simp [Nat.not_lt.1 h, eq_comm]

/-- Shares cannot be reckoned exactly when one of them overflows. -/
theorem compute_eq_error :
    compute amount fees = .error e ↔ e = .overflow .fee ∧ ∃ f ∈ fees, Overflows amount f := by
  induction fees with
  | nil => exact iff_of_false nofun fun ⟨_, _, hf, _⟩ => absurd hf List.not_mem_nil
  | cons f rest ih =>
    rw [compute]
    simp only [List.mem_cons, exists_eq_or_imp]
    cases hshare : share amount f.basisPoints with
    | error e' =>
      obtain ⟨rfl, hoverflow⟩ := share_eq_error.1 hshare
      change Except.error _ = _ ↔ _
      simp [hoverflow, eq_comm]
    | ok fee =>
      have hfits : ¬ Overflows amount f := by
        intro hoverflow
        rw [share_eq_error.2 ⟨rfl, hoverflow⟩] at hshare
        exact absurd hshare nofun
      simp only [hfits, false_or]
      rw [← ih]
      cases compute amount rest with
      | error e' => exact Iff.rfl
      | ok others => exact iff_of_false nofun nofun

/-- Shares are what is left of the exact ones when those of nothing are left out. -/
theorem compute_exact (h : compute amount fees = .ok shares) :
    (shares.map fun s => (s.1, s.2.toNat)) =
      (fees.map fun f => (f.recipient, f.of amount.toNat)).filter fun s => s.2 ≠ 0 := by
  induction fees generalizing shares with
  | nil =>
    obtain rfl := Except.ok.inj h
    rfl
  | cons f rest ih =>
    obtain ⟨fee, hshare, h₁⟩ := except_bind_eq_ok.1 h
    obtain ⟨others, hothers, h₂⟩ := except_bind_eq_ok.1 h₁
    obtain rfl := Except.ok.inj h₂
    rw [List.map_cons, List.filter_cons, ← ih hothers, ← share_ok hshare]
    cases hzero : fee.isZero with
    | true => simp [Amount.isZero_iff.1 hzero]
    | false =>
      have hne : fee.toNat ≠ 0 := by
        rw [ne_eq, ← Amount.isZero_iff, hzero]
        nofun
      simp [hne]

end Fee

/-! ## Overflow -/

namespace Ledger

variable {l l' : Ledger} {sender receiver account : String} {coin : Coin} {quantity : Quantity}

theorem debit_ne_overflow : l.debit account coin ≠ .error (.overflow quantity) := by
  rw [debit_eq]
  cases (l.balance account coin.denom).sub? coin.amount <;> simp

theorem balance_of_credit (h : l.credit account coin = .error (.overflow quantity)) :
    quantity = .balance account := by
  unfold credit at h
  cases hsum : (l.balance account coin.denom).add? coin.amount with
  | none =>
    rw [hsum] at h
    exact (RouterError.overflow.inj (Except.error.inj h)).symm
  | some sum =>
    rw [hsum] at h
    cases h

/-- When sending a coin overflows, it is the receiver who cannot take it. -/
theorem balance_of_send
    (h : l.send sender receiver [coin] = .error (.overflow quantity)) :
    quantity = .balance receiver := by
  by_cases hdenom : coin.denom = ""
  · rw [send_of_unnamed l sender receiver hdenom] at h
    cases h
  rw [send_eq l sender receiver hdenom] at h
  cases hzero : coin.isZero with
  | true =>
    rw [hzero] at h
    cases h
  | false =>
    rw [hzero, if_neg nofun, move] at h
    cases hdebit : l.debit sender coin with
    | error e =>
      rw [hdebit] at h
      obtain rfl := Except.error.inj h
      exact absurd hdebit debit_ne_overflow
    | ok u =>
      rw [hdebit] at h
      exact balance_of_credit h

end Ledger

/-! ## Fees that passed their check -/

/-- What fees on an amount come to. -/
structure FeeAttributes.Exact (a : FeeAttributes) (amount : Amount) : Prop where
  /-- They cannot be reckoned exactly when the product of a share is no amount. -/
  fails : ∀ e, Fee.compute amount a.fees = .error e ↔
    e = .overflow .fee ∧ ∃ f ∈ a.fees, Fee.Overflows amount f
  /-- Otherwise every recipient gets its share, rounded down, unless that is nothing, and together
  they get what all basis points give but for less than one unit each. -/
  returns : (∀ f ∈ a.fees, ¬ Fee.Overflows amount f) → ∃ shares,
    Fee.compute amount a.fees = .ok shares ∧
      (shares.map fun s => (s.1, s.2.toNat)) =
        ((a.fees.map fun f => (f.recipient, f.of amount.toNat)).filter fun s => s.2 ≠ 0) ∧
      Fee.worth shares ≤ amount.toNat * a.total / basisPointsOfWhole ∧
      amount.toNat * a.total / basisPointsOfWhole ≤ Fee.worth shares + (a.fees.length - 1)
  /-- All basis points give no more than the amount. -/
  whole : amount.toNat * a.total / basisPointsOfWhole ≤ amount.toNat

namespace Fee

variable {payer : String} {a : FeeAttributes} {action : Action} {s s' : Workbench} {e : RouterError}

/-- Which guards of the controller can stop a pre-action, and what it takes off a transfer. -/
structure Guarded (payer : String) (action : Action) (s : Workbench) : Prop where
  /-- The sum of the fees is always an amount. -/
  total : ∀ s', (controller payer).run action s ≠ .error (.overflow .feeTotal) s'
  /-- The transfer always has that amount. -/
  remainder : ∀ s', (controller payer).run action s ≠ .error (.overflow .remainder) s'
  /-- A share that cannot be reckoned is refused before anything is moved. -/
  early : ∀ s', (controller payer).run action s = .error (.overflow .fee) s' → s' = s
  /-- The shares are reported, and the transfer goes on with what the reports leave of it. -/
  charged : ∀ s', (controller payer).run action s = .ok () s' → ∃ a shares,
    action.attributes = .fee a ∧ compute s.transfer.destinationAmount a.fees = .ok shares ∧
      s'.books.events = s.books.events ++ reports s.transfer.destinationDenom shares ∧
      s'.transfer.destinationAmount.toNat + charges (reports s.transfer.destinationDenom shares) =
        s.transfer.destinationAmount.toNat

theorem exact_of_check (hcheck : a.check = .ok ()) (amount : Amount) : a.Exact amount where
  fails _ := compute_eq_error
  returns hfits := by
    obtain ⟨hfees, -, -⟩ := FeeAttributes.check_eq_ok.1 hcheck
    cases hshares : compute amount a.fees with
    | error e =>
      obtain ⟨-, f, hf, hoverflow⟩ := compute_eq_error.1 hshares
      exact absurd hoverflow (hfits f hf)
    | ok shares =>
      refine ⟨shares, rfl, compute_exact hshares, ?_, ?_⟩
      · rw [worth_compute hshares]
        exact a.sum_le_div _
      · rw [worth_compute hshares]
        exact FeeAttributes.div_le_sum_add hfees _
  whole := FeeAttributes.div_le (FeeAttributes.check_eq_ok.1 hcheck).2.2 _

/-- The only overflows while fees are charged are that of a share, with everything as it was, and
that of what a recipient has. -/
theorem charge_overflow {quantity : Quantity}
    (h : charge payer a s = .error (.overflow quantity) s') :
    (quantity = .fee ∧ s' = s) ∨ ∃ account, quantity = .balance account := by
  rcases exists_of_charge_error h with ⟨hsame, hcause | hshares⟩ | ⟨_, share, _, _, -, -, hsend, -⟩
  · obtain ⟨_, hcause⟩ := hcause
    exact absurd hcause nofun
  · obtain ⟨hquantity, -⟩ := compute_eq_error.1 hshares
    exact .inl ⟨RouterError.overflow.inj hquantity, hsame⟩
  · exact .inr ⟨share.1, Ledger.balance_of_send hsend⟩

theorem guarded_charge (action : Action) (hattributes : action.attributes = .fee a)
    (s : Workbench) : Guarded payer action s := by
  have hrun : (controller payer).run action = charge payer a := by
    simp only [controller, hattributes]
  constructor
  · intro s' h
    rw [hrun] at h
    rcases charge_overflow h with ⟨h, -⟩ | ⟨_, h⟩ <;> exact absurd h nofun
  · intro s' h
    rw [hrun] at h
    rcases charge_overflow h with ⟨h, -⟩ | ⟨_, h⟩ <;> exact absurd h nofun
  · intro s' h
    rw [hrun] at h
    rcases charge_overflow h with ⟨-, h⟩ | ⟨_, h⟩
    · exact h
    · exact absurd h nofun
  · intro s' h
    rw [hrun] at h
    obtain ⟨shares, total, b, rest, hshares, hpay, hsub, rfl⟩ := exists_of_charge_ok h
    obtain ⟨htotal, -, hevents, -⟩ := pay_ok hpay
    obtain ⟨hle, hrest⟩ := Amount.sub?_eq_some.1 hsub
    refine ⟨a, shares, hattributes, hshares, hevents, ?_⟩
    rw [charges_reports]
    change rest.toNat + worth shares = s.transfer.destinationAmount.toNat
    rw [Amount.toNat_zero, Nat.zero_add] at htotal
    omega

theorem guarded_run (payer : String) (action : Action) (s : Workbench) :
    Guarded payer action s := by
  cases hattributes : action.attributes with
  | fee a => exact guarded_charge action hattributes s
  | swap _ =>
    have hrun : (controller payer).run action s =
        .error (.validation (.notFeeAttributes .swap)) s := by
      simp only [controller, hattributes]
      rfl
    constructor <;> intro s' h <;> rw [hrun] at h <;> exact absurd h nofun

/-- Fees that pass their check are reckoned exactly and never overcharge. -/
theorem reckoned_exactly (a : FeeAttributes) (hcheck : a.check = .ok ()) :
    (∀ amount, a.Exact amount) ∧ ∀ payer action s, Guarded payer action s :=
  ⟨exact_of_check hcheck, guarded_run⟩

/-- Shares of the whole, which come to 97 of 99 units: the first is nothing, the others lose nearly
a unit each. -/
def thirds : FeeAttributes := ⟨[⟨"a", 1⟩, ⟨"b", 3333⟩, ⟨"c", 6666⟩]⟩

theorem thirds_reckoned : thirds.check = .ok () ∧
    ((∀ amount, thirds.Exact amount) ∧ ∀ payer action s, Guarded payer action s) ∧
    ∃ shares, compute ⟨99, by decide⟩ thirds.fees = .ok shares ∧
      worth shares + 2 = 99 * thirds.total / basisPointsOfWhole :=
  ⟨by decide, reckoned_exactly thirds (by decide), _, rfl, rfl⟩

end Fee

end TransferRouter
