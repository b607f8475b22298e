import TransferRouter.Proofs.Check
import TransferRouter.Proofs.Movement

/-!
What fees cost. Every recipient gets its share of the amount before any fee of the same action was
taken, rounded down; the next action works on what is left. Shares that pass their check never come
to more than the whole, so fees in order can be paid out of a holding account that has the amount.
-/

namespace TransferRouter

open Testbed (holding)

/-- The share of a number in basis points, rounded down. -/
def FeeShare.of (f : FeeShare) (n : Nat) : Nat := n * f.basisPoints.toNat / basisPointsOfWhole

namespace FeeAttributes

/-- What the fees on a number come to. -/
def sum (a : FeeAttributes) (n : Nat) : Nat := (a.fees.map (·.of n)).sum

/-- What the fees on a number bring to an account. -/
def gain (a : FeeAttributes) (account : String) (n : Nat) : Nat :=
  ((a.fees.filter fun f => f.recipient == account).map (·.of n)).sum

/-- What rounding takes off the fees on a number, in basis points. -/
def loss (a : FeeAttributes) (n : Nat) : Nat :=
  (a.fees.map fun f => n * f.basisPoints.toNat % basisPointsOfWhole).sum

/-- Nothing but rounding parts the fees from the share that they have together. -/
theorem sum_add_loss (a : FeeAttributes) (n : Nat) :
    basisPointsOfWhole * a.sum n + a.loss n = n * a.total := by
  obtain ⟨fees⟩ := a
  induction fees with
  | nil => rfl
  | cons f rest ih =>
    have hf := Nat.div_add_mod (n * f.basisPoints.toNat) basisPointsOfWhole
    change basisPointsOfWhole * (f.of n + sum ⟨rest⟩ n) +
      (n * f.basisPoints.toNat % basisPointsOfWhole + loss ⟨rest⟩ n) =
        n * (f.basisPoints.toNat + total ⟨rest⟩)
    rw [Nat.mul_add, Nat.mul_add, ← ih, FeeShare.of]
    omega

theorem sum_le_div (a : FeeAttributes) (n : Nat) : a.sum n ≤ n * a.total / basisPointsOfWhole := by
  rw [Nat.le_div_iff_mul_le (by decide), Nat.mul_comm, ← a.sum_add_loss]
  exact Nat.le_add_right ..

/-- Shares that do not exceed the whole do not come to more than the number. -/
theorem div_le {a : FeeAttributes} (h : a.total ≤ basisPointsOfWhole) (n : Nat) :
    n * a.total / basisPointsOfWhole ≤ n :=
  calc n * a.total / basisPointsOfWhole ≤ n * basisPointsOfWhole / basisPointsOfWhole :=
        Nat.div_le_div_right (Nat.mul_le_mul_left n h)
    _ = n := Nat.mul_div_cancel n (by decide)

theorem sum_le {a : FeeAttributes} (h : a.total ≤ basisPointsOfWhole) (n : Nat) : a.sum n ≤ n :=
  Nat.le_trans (a.sum_le_div n) (div_le h n)

end FeeAttributes

namespace Fee

/-- What is left of a number when fees were taken one action after the other. -/
def left (n : Nat) : List FeeAttributes → Nat
  | [] => n
  | a :: rest => left (n - a.sum n) rest

/-- What fees, taken one action after the other, bring to an account. -/
def gain (account : String) (n : Nat) : List FeeAttributes → Nat
  | [] => 0
  | a :: rest => a.gain account n + gain account (n - a.sum n) rest

theorem left_le (n : Nat) (fees : List FeeAttributes) : left n fees ≤ n := by
  induction fees generalizing n with
  | nil => exact Nat.le_refl n
  | cons a rest ih => exact Nat.le_trans (ih _) (Nat.sub_le ..)

/-- Who is no recipient gains nothing. -/
theorem gain_eq_zero {account : String} {fees : List FeeAttributes}
    (h : ∀ a ∈ fees, ∀ f ∈ a.fees, f.recipient ≠ account) (n : Nat) : gain account n fees = 0 := by
  induction fees generalizing n with
  | nil => rfl
  | cons a rest ih =>
    have hnone : a.fees.filter (fun f => f.recipient == account) = [] := by
      apply List.filter_eq_nil_iff.2
      intro f hf
      simpa using h a List.mem_cons_self f hf
    rw [gain, ih fun b hb => h b (List.mem_cons_of_mem _ hb), FeeAttributes.gain, hnone]
    rfl

end Fee

/-! ## The ledger -/

/-- A ledger after the holding account paid a total of a denomination, of which each account gained
its part. -/
structure Ledger.Paid (l : Ledger) (denom : String) (gain : String → Nat) (total : Nat)
    (l' : Ledger) : Prop where
  supply : ∀ d, l'.supply d = l.supply d
  funds : ∀ a d, l'.funds a d + (if a = holding ∧ d = denom then total else 0) =
    l.funds a d + if d = denom then gain a else 0

namespace Ledger.Paid

variable {l u v : Ledger} {denom : String} {gain gain' : String → Nat} {total total' : Nat}

theorem nothing (l : Ledger) (denom : String) : l.Paid denom (fun _ => 0) 0 l :=
  ⟨fun _ => rfl, fun _ _ => by simp⟩

theorem trans (h : l.Paid denom gain total u) (h' : u.Paid denom gain' total' v) :
    l.Paid denom (fun a => gain a + gain' a) (total + total') v where
  supply d := (h'.supply d).trans (h.supply d)
  funds a d := by
    have hfunds := h.funds a d
    have hfunds' := h'.funds a d
    by_cases hd : d = denom <;> by_cases ha : a = holding <;> simp [hd, ha] at hfunds hfunds' ⊢ <;>
      omega

end Ledger.Paid

/-! ## Shares -/

namespace Fee

/-- What a list of payments comes to. -/
def worth (shares : List (String × Amount)) : Nat := (shares.map fun s => s.2.toNat).sum

/-- What a list of payments brings to an account. -/
def worthTo (account : String) (shares : List (String × Amount)) : Nat :=
  worth (shares.filter fun s => s.1 == account)

variable {amount fee : Amount} {f : FeeShare} {fees : List FeeShare}
variable {shares : List (String × Amount)}

theorem share_ok (h : share amount f.basisPoints = .ok fee) : fee.toNat = f.of amount.toNat := by
  unfold share at h
  split at h
  next product hproduct =>
    obtain rfl := Except.ok.inj h
    have hvalue : product.toNat = amount.toNat * f.basisPoints.toNat :=
      Amount.ofNat?_eq_some.1 hproduct
    exact congrArg (· / basisPointsOfWhole) hvalue
  next => exact absurd h nofun

theorem share_run (hf : f.basisPoints.toNat ≤ basisPointsOfWhole)
    (hamount : amount.toNat * basisPointsOfWhole < Amount.size) :
    ∃ fee, share amount f.basisPoints = .ok fee := by
  have hproduct : amount.toNat * f.basisPoints.toNat < Amount.size :=
    Nat.lt_of_le_of_lt (Nat.mul_le_mul_left _ hf) hamount
  refine ⟨Amount.divide ⟨_, hproduct⟩ basisPointsOfWhole, ?_⟩
  rw [share, Amount.times?, Amount.ofNat?_of_lt hproduct]

/-- Recipients are paid their shares of the amount; shares of nothing are left out. -/
theorem compute_ok (h : compute amount fees = .ok shares) (P : String → Bool) :
    worth (shares.filter fun s => P s.1) =
      ((fees.filter fun f => P f.recipient).map (·.of amount.toNat)).sum := by
  induction fees generalizing shares with
  | nil =>
    obtain rfl := Except.ok.inj h
    rfl
  | cons f rest ih =>
    obtain ⟨fee, hshare, h₁⟩ := except_bind_eq_ok.1 h
    obtain ⟨others, hothers, h₂⟩ := except_bind_eq_ok.1 h₁
    obtain rfl := Except.ok.inj h₂
    have hrest := ih hothers
    cases hP : P f.recipient with
    | false =>
      rw [List.filter_cons_of_neg (by simp [hP]), ← hrest]
      split
      next => rfl
      next => rw [List.filter_cons_of_neg (by simp [hP])]
    | true =>
      rw [List.filter_cons_of_pos (a := f) (by simp [hP]), List.map_cons, List.sum_cons, ← hrest,
        ← share_ok hshare]
      split
      next hzero => rw [Amount.isZero_iff.1 hzero, Nat.zero_add]
      next =>
        rw [List.filter_cons_of_pos (by simp [hP])]
        rfl

theorem worth_compute {a : FeeAttributes} (h : compute amount a.fees = .ok shares) :
    worth shares = a.sum amount.toNat := by
  have hall := compute_ok h fun _ => true
  rwa [List.filter_eq_self.2 fun _ _ => rfl, List.filter_eq_self.2 fun _ _ => rfl] at hall

theorem worthTo_compute {a : FeeAttributes} (h : compute amount a.fees = .ok shares)
    (account : String) : worthTo account shares = a.gain account amount.toNat :=
  compute_ok h (· == account)

theorem compute_run (hfees : ∀ f ∈ fees, f.basisPoints.toNat ≤ basisPointsOfWhole)
    (hamount : amount.toNat * basisPointsOfWhole < Amount.size) :
    ∃ shares, compute amount fees = .ok shares := by
  induction fees with
  | nil => exact ⟨[], rfl⟩
  | cons f rest ih =>
    obtain ⟨fee, hshare⟩ := share_run (hfees f List.mem_cons_self) hamount
    obtain ⟨others, hothers⟩ := ih fun g hg => hfees g (List.mem_cons_of_mem _ hg)
    exact ⟨_, except_bind_eq_ok.2 ⟨fee, hshare, except_bind_eq_ok.2 ⟨others, hothers, rfl⟩⟩⟩

end Fee

/-! ## Payments -/

/-- What a report tells of a fee. -/
def Event.charge : Event → Nat
  | feeCharged _ coin => coin.amount.toNat
  | _ => 0

/-- The sum of all reported fees. -/
def charges (events : List Event) : Nat := (events.map Event.charge).sum

theorem charges_append (events events' : List Event) :
    charges (events ++ events') = charges events + charges events' := by
  rw [charges, List.map_append, List.sum_append]
  rfl

namespace Fee

/-- The reports of a list of payments. -/
def reports (denom : String) (shares : List (String × Amount)) : List Event :=
  shares.map fun s => .feeCharged s.1 ⟨denom, s.2⟩

theorem charges_reports (denom : String) (shares : List (String × Amount)) :
    charges (reports denom shares) = worth shares := by
  rw [charges, reports, List.map_map]
  rfl

theorem worth_cons (recipient : String) (fee : Amount) (rest : List (String × Amount)) :
    worth ((recipient, fee) :: rest) = fee.toNat + worth rest := rfl

theorem worthTo_cons (account recipient : String) (fee : Amount)
    (rest : List (String × Amount)) :
    worthTo account ((recipient, fee) :: rest) =
      (if recipient = account then fee.toNat else 0) + worthTo account rest := by
  unfold worthTo worth
  rw [List.filter_cons]
  by_cases h : recipient = account <;> simp [h]

end Fee

/-- A ledger after an account paid shares in a denomination. -/
structure Ledger.Disbursed (l : Ledger) (payer denom : String) (shares : List (String × Amount))
    (l' : Ledger) : Prop where
  supply : ∀ d, l'.supply d = l.supply d
  funds : ∀ a d, l'.funds a d + (if a = payer ∧ d = denom then Fee.worth shares else 0) =
    l.funds a d + if d = denom then Fee.worthTo a shares else 0

namespace Ledger.Disbursed

variable {l u v : Ledger} {payer denom : String} {shares : List (String × Amount)}

theorem nothing (l : Ledger) (payer denom : String) : l.Disbursed payer denom [] l :=
  ⟨fun _ => rfl, fun _ _ => by simp [Fee.worth, Fee.worthTo]⟩

theorem cons {recipient : String} {fee : Amount} (h : l.Moved payer recipient ⟨denom, fee⟩ u)
    (h' : u.Disbursed payer denom shares v) :
    l.Disbursed payer denom ((recipient, fee) :: shares) v where
  supply d := (h'.supply d).trans (h.supply d)
  funds a d := by
    have hfunds := h.funds a d
    have hfunds' := h'.funds a d
    rw [Fee.worth_cons, Fee.worthTo_cons]
    by_cases hd : d = denom <;> by_cases hpayer : a = payer <;>
      by_cases hrecipient : recipient = a <;> simp_all [eq_comm] <;> omega

theorem paid (h : l.Disbursed holding denom shares u) :
    l.Paid denom (Fee.worthTo · shares) (Fee.worth shares) u :=
  ⟨h.supply, h.funds⟩

end Ledger.Disbursed

namespace Fee

variable {payer denom : String} {total total' : Amount} {shares : List (String × Amount)}
variable {b b' : Books} {e : RouterError}

/-- A payment of several starts with the first, which is moved before it is counted and
reported. -/
theorem pay_cons (payer denom : String) (total : Amount) (recipient : String) (fee : Amount)
    (rest : List (String × Amount)) (b : Books) :
    pay payer denom total ((recipient, fee) :: rest) b =
      match b.ledger.send payer recipient [⟨denom, fee⟩], total.add? fee with
      | .error e, _ => .error e b
      | .ok l, none => .error (.overflow .feeTotal) { b with ledger := l }
      | .ok l, some sum => pay payer denom sum rest
        ⟨l, b.events ++ [.feeCharged recipient ⟨denom, fee⟩], b.outbox⟩ := by
  rw [pay]
  cases hsend : b.ledger.send payer recipient [⟨denom, fee⟩] with
  | error e =>
    exact bind_of_error (BooksM.onLedger_eq_error.2 ⟨_, LedgerM.send_eq_error.2 ⟨hsend, rfl⟩, rfl⟩)
  | ok l =>
    refine (bind_of_ok (BooksM.onLedger_eq_ok.2 ⟨l, LedgerM.send_eq_ok.2 hsend, rfl⟩)).trans ?_
    cases total.add? fee <;> rfl

theorem pay_cons_ok {recipient : String} {fee : Amount}
    (h : pay payer denom total ((recipient, fee) :: shares) b = .ok total' b') :
    ∃ l sum, b.ledger.send payer recipient [⟨denom, fee⟩] = .ok l ∧ total.add? fee = some sum ∧
      pay payer denom sum shares
        ⟨l, b.events ++ [.feeCharged recipient ⟨denom, fee⟩], b.outbox⟩ = .ok total' b' := by
  rw [pay_cons] at h
  split at h
  next => exact absurd h nofun
  next => exact absurd h nofun
  next l sum hsend hadd => exact ⟨l, sum, hsend, hadd, h⟩

/-- Fees that are paid are moved, counted and reported, every one of them. -/
theorem pay_ok (h : pay payer denom total shares b = .ok total' b') :
    total'.toNat = total.toNat + worth shares ∧
      b.ledger.Disbursed payer denom shares b'.ledger ∧
      b'.events = b.events ++ reports denom shares ∧ b'.outbox = b.outbox := by
  induction shares generalizing total b with
  | nil =>
    obtain ⟨rfl, rfl⟩ := pure_eq_ok.1 h
    exact ⟨rfl, .nothing b.ledger payer denom, (List.append_nil _).symm, rfl⟩
  | cons s rest ih =>
    obtain ⟨recipient, fee⟩ := s
    obtain ⟨l, sum, hsend, hadd, hrest⟩ := pay_cons_ok h
    obtain ⟨htotal, hpaid, hevents, houtbox⟩ := ih hrest
    have hsum : sum.toNat = total.toNat + fee.toNat := Amount.add?_eq_some.1 hadd
    refine ⟨?_, .cons (Ledger.send_ok hsend) hpaid, ?_, houtbox⟩
    · rw [htotal, hsum, Nat.add_assoc]
      rfl
    · rw [hevents]
      exact List.append_assoc ..

/-- Payments whose sum is an amount are refused only because one of them cannot be sent, after all
before it were paid. -/
theorem pay_error (htotal : total.toNat + worth shares < Amount.size)
    (h : pay payer denom total shares b = .error e b') :
    ∃ paid share rest total', shares = paid ++ share :: rest ∧
      pay payer denom total paid b = .ok total' b' ∧
      b'.ledger.send payer share.1 [⟨denom, share.2⟩] = .error e := by
  induction shares generalizing total b with
  | nil => exact (pure_ne_error h).elim
  | cons s rest ih =>
    obtain ⟨recipient, fee⟩ := s
    rw [worth_cons] at htotal
    have hlt : total.toNat + fee.toNat < Amount.size := by omega
    have hadd : total.add? fee = some ⟨_, hlt⟩ := Amount.ofNat?_of_lt hlt
    rw [pay_cons, hadd] at h
    split at h
    next e' hsend =>
      obtain ⟨rfl, rfl⟩ := EStateM.Result.error.inj h
      exact ⟨[], (recipient, fee), rest, total, rfl, rfl, hsend⟩
    next hnone => exact absurd hnone nofun
    next l sum hsend hsum =>
      obtain rfl := Option.some.inj hsum
      obtain ⟨paid, share, rest', total', rfl, hpaid, hshare⟩ :=
        ih (by rwa [Nat.add_assoc]) h
      refine ⟨(recipient, fee) :: paid, share, rest', total', rfl, ?_, hshare⟩
      rw [pay_cons, hsend, hadd]
      exact hpaid

/-- What comes to no more than the payer has can be paid while the supply is an amount. -/
theorem pay_run (hdenom : denom ≠ "") (hfunds : worth shares ≤ b.ledger.funds payer denom)
    (hsupply : b.ledger.supply denom < Amount.size)
    (htotal : total.toNat + worth shares < Amount.size) :
    ∃ total' b', pay payer denom total shares b = .ok total' b' := by
  induction shares generalizing total b with
  | nil => exact ⟨total, b, rfl⟩
  | cons s rest ih =>
    obtain ⟨recipient, fee⟩ := s
    rw [worth_cons] at hfunds htotal
    have hfee : fee.toNat ≤ b.ledger.funds payer denom := by omega
    obtain ⟨l, hsend, hmoved⟩ : ∃ l, b.ledger.send payer recipient [⟨denom, fee⟩] = .ok l ∧
        b.ledger.Moved payer recipient ⟨denom, fee⟩ l :=
      Ledger.send_run hdenom hfee hsupply
    have hlt : total.toNat + fee.toNat < Amount.size := by omega
    have hadd : total.add? fee = some ⟨_, hlt⟩ := Amount.ofNat?_of_lt hlt
    have hfunds' : worth rest ≤ l.funds payer denom := by
      have hleft := hmoved.funds payer denom
      rw [if_pos ⟨rfl, rfl⟩] at hleft
      change l.funds payer denom + fee.toNat = b.ledger.funds payer denom + _ at hleft
      omega
    have hsupply' : l.supply denom < Amount.size := hmoved.supply denom ▸ hsupply
    have htotal' : total.toNat + fee.toNat + worth rest < Amount.size := by omega
    rw [pay_cons, hsend, hadd]
    exact ih hfunds' hsupply' htotal'

end Fee

/-! ## Fees of an action -/

/-- A transfer and its books after fees were taken one action after the other. -/
structure Workbench.Charged (fees : List FeeAttributes) (s s' : Workbench) : Prop where
  paid : s.books.ledger.Paid s.transfer.destinationDenom
    (Fee.gain · s.transfer.destinationAmount.toNat fees)
    (s.transfer.destinationAmount.toNat - s'.transfer.destinationAmount.toNat) s'.books.ledger
  left : s'.transfer.destinationAmount.toNat = Fee.left s.transfer.destinationAmount.toNat fees
  rest : s'.transfer = s.transfer.withDestinationAmount s'.transfer.destinationAmount
  outbox : s'.books.outbox = s.books.outbox
  reports : ∃ events, s'.books.events = s.books.events ++ events ∧
    charges events + s'.transfer.destinationAmount.toNat = s.transfer.destinationAmount.toNat

/-- A transfer in order whose coin the holding account has, with amounts small enough to reckon
with. -/
structure Workbench.Covered (s : Workbench) : Prop where
  check : s.transfer.check = .ok ()
  funds : s.transfer.destinationAmount.toNat ≤
    s.books.ledger.funds holding s.transfer.destinationDenom
  supply : s.books.ledger.supply s.transfer.destinationDenom < Amount.size
  amount : s.transfer.destinationAmount.toNat * basisPointsOfWhole < Amount.size

namespace Workbench.Charged

variable {s u s' : Workbench} {a : FeeAttributes} {fees : List FeeAttributes}

theorem nothing (s : Workbench) : s.Charged [] s where
  paid := by
    rw [Nat.sub_self]
    exact .nothing s.books.ledger _
  left := rfl
  rest := rfl
  outbox := rfl
  reports := ⟨[], (List.append_nil _).symm, Nat.zero_add _⟩

theorem denom (h : s.Charged fees s') :
    s'.transfer.destinationDenom = s.transfer.destinationDenom := by
  rw [h.rest]
  rfl

theorem amount_le (h : s.Charged fees s') :
    s'.transfer.destinationAmount.toNat ≤ s.transfer.destinationAmount.toNat :=
  h.left ▸ Fee.left_le _ _

theorem cons (h : s.Charged [a] u) (h' : u.Charged fees s') : s.Charged (a :: fees) s' := by
  have hleft : u.transfer.destinationAmount.toNat =
      s.transfer.destinationAmount.toNat - a.sum s.transfer.destinationAmount.toNat := h.left
  have hdenom := h.denom
  have hless := h'.amount_le
  obtain ⟨events, hevents, hcharges⟩ := h.reports
  obtain ⟨events', hevents', hcharges'⟩ := h'.reports
  refine ⟨?_, ?_, ?_, h'.outbox.trans h.outbox, events ++ events', ?_, ?_⟩
  · have hpaid := h.paid.trans (hdenom ▸ h'.paid)
    have hgain : ∀ account, Fee.gain account s.transfer.destinationAmount.toNat (a :: fees) =
        Fee.gain account s.transfer.destinationAmount.toNat [a] +
          Fee.gain account u.transfer.destinationAmount.toNat fees := by
      intro account
      rw [hleft]
      rfl
    simp only [hgain]
    have htotal : s.transfer.destinationAmount.toNat - s'.transfer.destinationAmount.toNat =
        s.transfer.destinationAmount.toNat - u.transfer.destinationAmount.toNat +
          (u.transfer.destinationAmount.toNat - s'.transfer.destinationAmount.toNat) := by
      omega
    rw [htotal]
    exact hpaid
  · rw [h'.left, hleft]
    rfl
  · rw [h'.rest, h.rest]
    rfl
  · rw [hevents', hevents, List.append_assoc]
  · rw [charges_append]
    omega

/-- What is left after fees is covered as the whole was. -/
theorem covered (h : s.Charged fees s') (hs : s.Covered) : s'.Covered := by
  obtain ⟨hcheck, hfunds, hsupply, hamount⟩ := hs
  have hless := h.amount_le
  refine ⟨?_, ?_, ?_, Nat.lt_of_le_of_lt (Nat.mul_le_mul_right _ hless) hamount⟩
  · rw [h.rest]
    exact hcheck
  · have hpaid := h.paid.funds holding s.transfer.destinationDenom
    rw [if_pos ⟨rfl, rfl⟩, if_pos rfl] at hpaid
    rw [h.denom]
    omega
  · rw [h.denom, h.paid.supply]
    exact hsupply

end Workbench.Charged

namespace Fee

variable {payer : String} {a : FeeAttributes} {s s' : Workbench} {shares : List (String × Amount)}
variable {e : RouterError} {cause : Invalid}

/-! What `charge` does once the shares are known, and why it may not come to that. -/

theorem charge_of_invalid (payer : String) (hcheck : a.check = .error cause) (s : Workbench) :
    charge payer a s = .error (.validation cause) s := by
  rw [charge, bind_of_error (checked_error hcheck s)]

theorem charge_of_overflow (payer : String) (hcheck : a.check = .ok ())
    (hshares : compute s.transfer.destinationAmount a.fees = .error e) :
    charge payer a s = .error e s := by
  rw [charge, bind_of_ok (checked_run hcheck s)]
  refine (bind_of_ok rfl).trans ?_
  rw [hshares]
  rfl

theorem charge_of_shares (payer : String) (hcheck : a.check = .ok ())
    (hshares : compute s.transfer.destinationAmount a.fees = .ok shares) :
    charge payer a s =
      match pay payer s.transfer.destinationDenom .zero shares s.books with
      | .error e b => .error e { s with books := b }
      | .ok total b =>
        match s.transfer.destinationAmount.sub? total with
        | none => .error (.overflow .remainder) { s with books := b }
        | some rest => .ok () ⟨b, s.transfer.withDestinationAmount rest⟩ := by
  rw [charge, bind_of_ok (checked_run hcheck s)]
  refine (bind_of_ok rfl).trans ?_
  rw [hshares]
  refine (bind_of_ok rfl).trans ?_
  cases hpay : pay payer s.transfer.destinationDenom .zero shares s.books with
  | error e b => exact bind_of_error (zoom_eq_error.2 ⟨e, b, hpay, rfl, rfl⟩)
  | ok total b =>
    refine (bind_of_ok (zoom_eq_ok.2 ⟨b, hpay, rfl⟩)).trans ?_
    cases hsub : s.transfer.destinationAmount.sub? total <;> simp only [hsub] <;> rfl

/-- Fees that were charged were reckoned, paid, and taken off the transfer. -/
theorem exists_of_charge_ok (h : charge payer a s = .ok () s') :
    ∃ shares total b rest, compute s.transfer.destinationAmount a.fees = .ok shares ∧
      pay payer s.transfer.destinationDenom .zero shares s.books = .ok total b ∧
      s.transfer.destinationAmount.sub? total = some rest ∧
      s' = ⟨b, s.transfer.withDestinationAmount rest⟩ := by
  cases hcheck : a.check with
  | error cause =>
    rw [charge_of_invalid payer hcheck] at h
    exact absurd h nofun
  | ok _ =>
    cases hshares : compute s.transfer.destinationAmount a.fees with
    | error e =>
      rw [charge_of_overflow payer hcheck hshares] at h
      exact absurd h nofun
    | ok shares =>
      rw [charge_of_shares payer hcheck hshares] at h
      split at h
      next => exact absurd h nofun
      next total b hpay =>
        split at h
        next => exact absurd h nofun
        next rest hrest => exact ⟨shares, total, b, rest, rfl, hpay, hrest, by cases h; rfl⟩

/-- What checked shares of an amount come to is never more than the amount. -/
theorem worth_le (hcheck : a.check = .ok ())
    (hshares : compute s.transfer.destinationAmount a.fees = .ok shares) :
    worth shares ≤ s.transfer.destinationAmount.toNat := by
  obtain ⟨-, -, hwhole⟩ := FeeAttributes.check_eq_ok.1 hcheck
  rw [worth_compute hshares]
  exact FeeAttributes.sum_le hwhole _

/-- Fees are refused with everything as it was, or because one of them could not be sent after all
before it were paid. -/
theorem exists_of_charge_error (h : charge payer a s = .error e s') :
    (s' = s ∧ ((∃ cause, e = .validation cause) ∨
        compute s.transfer.destinationAmount a.fees = .error e)) ∨
      ∃ paid share rest total,
        compute s.transfer.destinationAmount a.fees = .ok (paid ++ share :: rest) ∧
          pay payer s.transfer.destinationDenom .zero paid s.books = .ok total s'.books ∧
            s'.books.ledger.send payer share.1 [⟨s.transfer.destinationDenom, share.2⟩] = .error e ∧
              s'.transfer = s.transfer := by
  cases hcheck : a.check with
  | error cause =>
    rw [charge_of_invalid payer hcheck] at h
    cases h
    exact .inl ⟨rfl, .inl ⟨cause, rfl⟩⟩
  | ok _ =>
    cases hshares : compute s.transfer.destinationAmount a.fees with
    | error e' =>
      rw [charge_of_overflow payer hcheck hshares] at h
      cases h
      exact .inl ⟨rfl, .inr rfl⟩
    | ok shares =>
      have hworth := worth_le hcheck hshares
      rw [charge_of_shares payer hcheck hshares] at h
      split at h
      next e' b hpay =>
        cases h
        obtain ⟨paid, share, rest, total, rfl, hpaid, hsend⟩ := pay_error (by
          rw [Amount.toNat_zero, Nat.zero_add]
          exact Nat.lt_of_le_of_lt hworth s.transfer.destinationAmount.isLt) hpay
        exact .inr ⟨paid, share, rest, total, rfl, hpaid, hsend, rfl⟩
      next total b hpay =>
        -- What was paid is what the shares come to, which the transfer has.
        obtain ⟨htotal, -⟩ := pay_ok hpay
        rw [Amount.toNat_zero, Nat.zero_add] at htotal
        obtain ⟨rest, hrest⟩ := Amount.sub?_of_le (htotal ▸ hworth)
        rw [hrest] at h
        exact absurd h nofun

theorem charge_ok (h : charge holding a s = .ok () s') : s.Charged [a] s' := by
  obtain ⟨shares, total, b, rest, hshares, hpay, hsub, rfl⟩ := exists_of_charge_ok h
  obtain ⟨htotal, hpaid, hevents, houtbox⟩ := pay_ok hpay
  have hworth : worth shares = a.sum s.transfer.destinationAmount.toNat := worth_compute hshares
  obtain ⟨hle, hrest⟩ := Amount.sub?_eq_some.1 hsub
  rw [Amount.toNat_zero, Nat.zero_add] at htotal
  have hleft : rest.toNat = Fee.left s.transfer.destinationAmount.toNat [a] := by
    rw [hrest, htotal, hworth]
    rfl
  refine ⟨?_, hleft, rfl, houtbox, reports _ shares, hevents, ?_⟩
  · have hgain : (worthTo · shares) = (Fee.gain · s.transfer.destinationAmount.toNat [a]) :=
      funext fun account => worthTo_compute hshares account
    have hpart : worth shares = s.transfer.destinationAmount.toNat - rest.toNat := by omega
    have hpaid := hpaid.paid
    rw [hgain, hpart] at hpaid
    exact hpaid
  · rw [charges_reports]
    change worth shares + rest.toNat = s.transfer.destinationAmount.toNat
    omega

/-- Fees that pass their check can be taken from a transfer that is covered. -/
theorem charge_run (hcheck : a.check = .ok ()) (hs : s.Covered) :
    ∃ s', charge holding a s = .ok () s' := by
  obtain ⟨-, hfees, -⟩ := FeeAttributes.check_eq_ok.1 hcheck
  obtain ⟨shares, hshares⟩ :=
    compute_run (fun f hf => (FeeAttributes.checkShare_eq_ok.1 (hfees f hf)).2.2) hs.amount
  have hworth := worth_le hcheck hshares
  obtain ⟨-, -, -, hdenom⟩ := Transfer.check_eq_ok.1 hs.check
  have htotal : Amount.zero.toNat + worth shares < Amount.size := by
    rw [Amount.toNat_zero, Nat.zero_add]
    exact Nat.lt_of_le_of_lt hworth s.transfer.destinationAmount.isLt
  obtain ⟨total, b, hpay⟩ : ∃ total b, pay holding s.transfer.destinationDenom .zero shares
      s.books = .ok total b :=
    pay_run hdenom (Nat.le_trans hworth hs.funds) hs.supply htotal
  obtain ⟨htotal, -⟩ := pay_ok hpay
  rw [Amount.toNat_zero, Nat.zero_add] at htotal
  obtain ⟨rest, hrest⟩ := Amount.sub?_of_le (htotal ▸ hworth)
  refine ⟨⟨b, s.transfer.withDestinationAmount rest⟩, ?_⟩
  rw [charge_of_shares holding hcheck hshares]
  simp only [hpay, hrest]

end Fee

/-! ## Fees of a payload -/

/-- A pre-action that takes fees. -/
def Action.fee (a : FeeAttributes) : Action := .ofAttributes (.fee a)

/-- What a controller sees. -/
def Stage.bench (s : Stage) : Workbench := ⟨s.world.books, s.transfer⟩

section

variable {r : Router} {action : Action} {a : FeeAttributes} {fees : List FeeAttributes}
variable {s s' : Stage}

theorem executeAll_cons_ok {execute : Action → StageM Unit} {rest : List Action} :
    executeAll execute (action :: rest) s = .ok () s' ↔
      ∃ u, execute action s = .ok () u ∧ executeAll execute rest u = .ok () s' := by
  rw [executeAll, bind_eq_ok]
  constructor
  · rintro ⟨_, u, h, hrest⟩
    exact ⟨u, tentatively_eq_ok.1 (wrapping_eq_ok.1 h), hrest⟩
  · rintro ⟨u, h, hrest⟩
    exact ⟨(), u, wrapping_eq_ok.2 (tentatively_eq_ok.2 h), hrest⟩

theorem Router.execute_ok (h : r.execute action s = .ok () s') :
    ∃ c, r.actions.route? action.id = some c ∧ c.run action s.bench = .ok () s'.bench := by
  obtain ⟨v, u, hget, h₁⟩ := bind_eq_ok.1 h
  obtain ⟨rfl, rfl⟩ := get_eq_ok.1 hget
  obtain ⟨_, u, hcheck, h₂⟩ := bind_eq_ok.1 h₁
  obtain ⟨-, rfl⟩ := settle_eq_ok.1 hcheck
  obtain ⟨paused, u, hworld, h₃⟩ := bind_eq_ok.1 h₂
  obtain ⟨w, hopen, rfl⟩ := zoom_eq_ok.1 hworld
  obtain ⟨-, -, hbooks⟩ := isOpen_ok hopen
  cases paused with
  | true =>
    obtain ⟨_, _, hthrow, -⟩ := bind_eq_ok.1 h₃
    exact (throw_ne_ok hthrow).elim
  | false =>
    obtain ⟨c, u, hsettle, h₄⟩ := bind_eq_ok.1 h₃
    obtain ⟨hroute, rfl⟩ := settle_eq_ok.1 hsettle
    obtain ⟨t, hrun, rfl⟩ := zoom_eq_ok.1 h₄
    refine ⟨c, Registry.require_eq_ok.1 hroute, ?_⟩
    rw [Stage.bench, ← hbooks]
    exact hrun

/-- What pre-actions that take fees have done when all of them succeeded. -/
theorem charged_of_executeAll (hr : r.Fitted)
    (h : executeAll r.execute (fees.map Action.fee) s = .ok () s') :
    s.bench.Charged fees s'.bench := by
  induction fees generalizing s with
  | nil =>
    obtain ⟨-, rfl⟩ := pure_eq_ok.1 h
    exact .nothing s.bench
  | cons a rest ih =>
    obtain ⟨u, hexecute, hrest⟩ := executeAll_cons_ok.1 h
    obtain ⟨c, hroute, hrun⟩ := Router.execute_ok hexecute
    obtain rfl := Option.some.inj (hr.fee.symm.trans hroute)
    exact (Fee.charge_ok hrun).cons (ih hrest)

theorem Router.execute_run (hr : r.Fitted) (hdisk : s.world.disk.Readable)
    (hopen : s.world.disk.store.contains (Key.pausedAction .fee).bytes = false)
    (hcheck : a.check = .ok ()) (hs : s.bench.Covered) :
    ∃ s', r.execute (.fee a) s = .ok () s' := by
  obtain ⟨t, hcharge⟩ := Fee.charge_run hcheck hs
  have haction : ActionPacket.check ⟨s.transfer, .fee a⟩ = .ok () :=
    check_then_eq_ok.2 ⟨hs.check, Action.check_eq_ok.2 ⟨rfl, rfl, hcheck⟩⟩
  have hpaused : StageM.onWorld (Breaker.isOpen (.pausedAction .fee)) s = .ok false s :=
    zoom_eq_ok.2 ⟨s.world, hopen ▸ contains_run hdisk _, rfl⟩
  have hrun : StageM.onWorkbench ((Fee.controller holding).run (.fee a)) s =
      .ok () ⟨{ s.world with books := t.books }, t.transfer⟩ :=
    zoom_eq_ok.2 ⟨t, hcharge, rfl⟩
  have hroute : settle id (r.actions.require .fee) s = .ok (Fee.controller holding) s :=
    settle_eq_ok.2 ⟨Registry.require_eq_ok.2 hr.fee, rfl⟩
  exact ⟨_, bind_eq_ok.2 ⟨s, s, rfl, bind_eq_ok.2 ⟨(), s, checked_run haction s,
    bind_eq_ok.2 ⟨false, s, hpaused, bind_eq_ok.2 ⟨_, s, hroute, hrun⟩⟩⟩⟩⟩

/-- Pre-actions that take fees succeed on a transfer that is covered. -/
theorem executeAll_run (hr : r.Fitted) (hdisk : s.world.disk.Readable)
    (hopen : fees ≠ [] → s.world.disk.store.contains (Key.pausedAction .fee).bytes = false)
    (hfees : ∀ a ∈ fees, a.check = .ok ()) (hs : s.bench.Covered) :
    ∃ s', executeAll r.execute (fees.map Action.fee) s = .ok () s' := by
  induction fees generalizing s with
  | nil => exact ⟨s, rfl⟩
  | cons a rest ih =>
    have hopen' := hopen (List.cons_ne_nil a rest)
    obtain ⟨u, hexecute⟩ := Router.execute_run hr hdisk hopen' (hfees a List.mem_cons_self) hs
    have hcharged : s.bench.Charged [a] u.bench :=
      charged_of_executeAll hr (executeAll_cons_ok.2 ⟨u, hexecute, rfl⟩)
    have hstill : u.world.disk = s.world.disk :=
      ((among_execute (D := Disk.Still) (P := fun _ => True) hr trivial
        fun _ _ => trivial).ok hexecute).world.disk hdisk
    obtain ⟨s', hrest⟩ := ih (hstill ▸ hdisk) (fun _ => hstill ▸ hopen')
      (fun b hb => hfees b (List.mem_cons_of_mem _ hb)) (hcharged.covered hs)
    exact ⟨s', executeAll_cons_ok.2 ⟨u, hexecute, hrest⟩⟩

end

end TransferRouter
