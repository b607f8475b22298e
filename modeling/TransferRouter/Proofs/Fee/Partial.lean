import TransferRouter.Proofs.Fee

/-!
Fees that are paid in part. Recipients are paid one after the other, and a payment that cannot be
made stops the pre-action: the ones before it stand and stay reported. Only the transfer is left as
it was, since it is changed last.
-/

namespace TransferRouter

namespace Fee

variable {payer : String} {action : Action} {e : RouterError} {s s' : Workbench}

/-- What a pre-action on fees that failed has done. -/
inductive Stopped (payer : String) (action : Action) (e : RouterError) (s s' : Workbench) :
    Prop where
  /-- It stopped before anything was paid. -/
  | early (unchanged : s' = s)
  /-- It stopped at a payment that could not be made, with the ones before it made and reported. -/
  | midway (a : FeeAttributes) (paid : List (String × Amount)) (share : String × Amount)
      (rest : List (String × Amount)) (attributes : action.attributes = .fee a)
      (shares : compute s.transfer.destinationAmount a.fees = .ok (paid ++ share :: rest))
      (begun : paid ≠ [])
      (moved : s.books.ledger.Disbursed payer s.transfer.destinationDenom paid s'.books.ledger)
      (reported : s'.books.events = s.books.events ++ reports s.transfer.destinationDenom paid)
      (outbox : s'.books.outbox = s.books.outbox)
      (transfer : s'.transfer = s.transfer)
      (refused : LedgerM.send payer share.1 [⟨s.transfer.destinationDenom, share.2⟩]
        s'.books.ledger = .error e s'.books.ledger)

theorem Stopped.transfer_eq (h : Stopped payer action e s s') : s'.transfer = s.transfer := by
  cases h with
  | early unchanged => rw [unchanged]
  | midway _ _ _ _ _ _ _ _ _ _ transfer => exact transfer

/-- With no more than one recipient to pay, nothing is done by halves. -/
theorem Stopped.eq_of_length_le_one (h : Stopped payer action e s s')
    (hshares : ∀ a shares, action.attributes = .fee a →
      compute s.transfer.destinationAmount a.fees = .ok shares → shares.length ≤ 1) : s' = s := by
  cases h with
  | early unchanged => exact unchanged
  | midway a paid share rest attributes shares begun =>
    have hlength := hshares a _ attributes shares
    have hpaid := List.length_pos_iff.2 begun
    rw [List.length_append, List.length_cons] at hlength
    omega

theorem stopped_of_charge {a : FeeAttributes} (hattributes : action.attributes = .fee a)
    (h : charge payer a s = .error e s') : Stopped payer action e s s' := by
  rcases exists_of_charge_error h with ⟨hsame, -⟩ | ⟨paid, share, rest, _, hshares, hpay, hsend, ht⟩
  · exact .early hsame
  obtain ⟨-, hmoved, hreported, houtbox⟩ := pay_ok hpay
  cases paid with
  | nil =>
    obtain ⟨-, hbooks⟩ := pure_eq_ok.1 hpay
    obtain ⟨books, transfer⟩ := s'
    cases hbooks
    cases ht
    exact .early rfl
  | cons first paid =>
    exact .midway a _ share rest hattributes hshares (List.cons_ne_nil first paid) hmoved hreported
      houtbox ht (LedgerM.send_eq_error.2 ⟨hsend, rfl⟩)

theorem stopped_of_run (h : (controller payer).run action s = .error e s') :
    Stopped payer action e s s' := by
  cases hattributes : action.attributes with
  | fee a =>
    simp only [controller, hattributes] at h
    exact stopped_of_charge hattributes h
  | swap _ =>
    simp only [controller, hattributes] at h
    exact .early (throw_eq_error.1 h).2.symm

/-- Fees that cannot all be paid are paid up to the first that cannot, and the transfer is left as
it was. So is everything else where there is at most one recipient to pay. -/
theorem stopped_of_error (h : (controller payer).run action s = .error e s') :
    Stopped payer action e s s' ∧ s'.transfer = s.transfer ∧
      ((∀ a shares, action.attributes = .fee a →
        compute s.transfer.destinationAmount a.fees = .ok shares → shares.length ≤ 1) → s' = s) :=
  ⟨stopped_of_run h, (stopped_of_run h).transfer_eq, (stopped_of_run h).eq_of_length_le_one⟩

/-! ## A payer that runs short -/

/-- Two recipients who get half each. -/
def halves : FeeAttributes := ⟨[⟨"a", 5000⟩, ⟨"b", 5000⟩]⟩

/-- A transfer of 100 units of which the payer has 60. -/
def short : Workbench where
  books := ⟨Ledger.empty.set "hold" Testbed.coin.denom ⟨60, by decide⟩, [], []⟩
  transfer := .fresh Testbed.origin Testbed.coin

/-- The first half is paid and reported although the second cannot be. -/
theorem halves_paid_in_part :
    let run := (controller "hold").run (.fee halves)
    succeeds run short = false ∧
      (leaves run short).books.ledger.funds "a" "uusdc" = 50 ∧
        short.books.ledger.funds "a" "uusdc" = 0 ∧
      (leaves run short).books.events = [.feeCharged "a" ⟨"uusdc", ⟨50, by decide⟩⟩] ∧
        short.books.events = [] := by
  decide +kernel

theorem stopped_halves :
    ∃ e s', (controller "hold").run (.fee halves) short = .error e s' ∧
      Stopped "hold" (.fee halves) e short s' ∧ s'.transfer = short.transfer ∧
        s'.books.ledger.funds "a" "uusdc" = short.books.ledger.funds "a" "uusdc" + 50 := by
  obtain ⟨e, s', h⟩ : ∃ e s', (controller "hold").run (.fee halves) short = .error e s' :=
    exists_of_fails (by decide +kernel)
  obtain ⟨hstopped, htransfer, -⟩ := stopped_of_error h
  refine ⟨e, s', h, hstopped, htransfer, ?_⟩
  rw [← leaves_of_error h]
  decide +kernel

end Fee

end TransferRouter
