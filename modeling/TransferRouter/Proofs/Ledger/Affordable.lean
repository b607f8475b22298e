import TransferRouter.Proofs.Check
import TransferRouter.Proofs.Ledger.Posting

/-!
When coins can be sent. Coins are moved one after the other, and yet only what they come to in each
denomination matters: the sender must have it and the receiver must have room for it. An account
that sends to itself has every coin back before the next one is moved, so it needs only to have each
of them.
-/

namespace TransferRouter

namespace Coin

theorem total_perm {denom : String} {coins coins' : List Coin} (h : coins.Perm coins') :
    total denom coins = total denom coins' :=
  ((h.filter _).map _).sum_nat

/-- A coin without a denomination is refused, wherever it stands. -/
theorem forM_check_of_unnamed {coins : List Coin} (h : ∃ c ∈ coins, c.denom = "") :
    coins.forM check = .error .emptyCoinDenom := by
  induction coins with
  | nil =>
    obtain ⟨c, hc, -⟩ := h
    exact absurd hc List.not_mem_nil
  | cons coin coins ih =>
    change (coin.check >>= fun _ => coins.forM check) = _
    rw [check]
    split
    next => rfl
    next hnamed =>
      obtain ⟨c, hc, hdenom⟩ := h
      rcases List.mem_cons.1 hc with rfl | hc
      · exact absurd hdenom hnamed
      · exact ih ⟨c, hc, hdenom⟩

end Coin

namespace Ledger

variable {l l' u : Ledger} {sender receiver account : String} {coin : Coin}
variable {coins coins' : List Coin}

/-- The sender has what the coins come to, and the receiver has room for it. -/
structure Affords (l : Ledger) (sender receiver : String) (coins : List Coin) : Prop where
  covered : ∀ denom, Coin.total denom coins ≤ l.funds sender denom
  room : ∀ denom, l.funds receiver denom + Coin.total denom coins < Amount.size

/-- An account has every single one of some coins. -/
def AffordsEach (l : Ledger) (account : String) (coins : List Coin) : Prop :=
  ∀ c ∈ coins, c.amount.toNat ≤ l.funds account c.denom

/-! ## One coin -/

theorem Affords.head (h : l.Affords sender receiver (coin :: coins)) :
    coin.amount.toNat ≤ l.funds sender coin.denom ∧
      l.funds receiver coin.denom + coin.amount.toNat < Amount.size := by
  have hcovered := h.covered coin.denom
  have hroom := h.room coin.denom
  rw [Coin.total_cons, if_pos rfl] at hcovered hroom
  constructor <;> omega

/-- A coin that was moved counts towards what all of them come to, before and after. -/
theorem Moved.affords_iff (h : l.Moved sender receiver coin u) (hne : sender ≠ receiver) :
    u.Affords sender receiver coins ↔ l.Affords sender receiver (coin :: coins) := by
  have hsender : ∀ d, u.funds sender d + (if d = coin.denom then coin.amount.toNat else 0) =
      l.funds sender d := by
    intro d
    have hfunds := h.funds sender d
    simpa only [true_and, hne, false_and, if_false, Nat.add_zero] using hfunds
  have hreceiver : ∀ d, u.funds receiver d =
      l.funds receiver d + if d = coin.denom then coin.amount.toNat else 0 := by
    intro d
    have hfunds := h.funds receiver d
    simpa only [true_and, hne.symm, false_and, if_false, Nat.add_zero] using hfunds
  constructor
  · intro hu
    constructor
    · intro d
      have hcovered := hu.covered d
      rw [Coin.total_cons, ← hsender d]
      omega
    · intro d
      have hroom := hu.room d
      rw [hreceiver] at hroom
      rw [Coin.total_cons]
      omega
  · intro hl
    constructor
    · intro d
      have hcovered := hl.covered d
      rw [Coin.total_cons, ← hsender d] at hcovered
      omega
    · intro d
      have hroom := hl.room d
      rw [Coin.total_cons] at hroom
      rw [hreceiver]
      omega

theorem funds_of_debit (h : l.debit sender coin = .ok u) :
    coin.amount.toNat ≤ l.funds sender coin.denom := by
  have hfunds := (debit_ok h).funds_self
  omega

theorem exists_move (hfunds : coin.amount.toNat ≤ l.funds sender coin.denom)
    (hroom : l.funds receiver coin.denom + coin.amount.toNat < Amount.size) :
    ∃ u, l.move sender receiver coin = .ok u := by
  obtain ⟨u, hdebit, hu⟩ := debit_run hfunds
  -- The debit does not add to what the receiver has, whoever the receiver is.
  have hless : u.funds receiver coin.denom ≤ l.funds receiver coin.denom := by
    rw [hu receiver coin.denom]
    exact Nat.le_add_right ..
  obtain ⟨v, hcredit, -⟩ := credit_run (Nat.lt_of_le_of_lt (Nat.add_le_add_right hless _) hroom)
  exact ⟨v, by rw [move, hdebit]; exact hcredit⟩

/-- A coin that an account has can be moved from it to itself. -/
theorem exists_move_self (hfunds : coin.amount.toNat ≤ l.funds account coin.denom) :
    ∃ u, l.move account account coin = .ok u := by
  obtain ⟨u, hdebit, hu⟩ := debit_run hfunds
  have hback : u.funds account coin.denom + coin.amount.toNat < Amount.size :=
    hu.funds_self ▸ (l.balance account coin.denom).isLt
  obtain ⟨v, hcredit, -⟩ := credit_run hback
  exact ⟨v, by rw [move, hdebit]; exact hcredit⟩

/-- A move to oneself is no move. -/
theorem Moved.eq_self (h : l.Moved account account coin u) : u = l :=
  ext_balance fun a d => Amount.ext (Nat.add_right_cancel (h.funds a d))

/-! ## All coins -/

theorem exists_moves_cons_iff :
    (∃ l', (coin :: coins).foldlM (move sender receiver) l = .ok l') ↔
      ∃ u, l.move sender receiver coin = .ok u ∧
        ∃ l', coins.foldlM (move sender receiver) u = .ok l' := by
  simp only [List.foldlM_cons, except_bind_eq_ok]
  exact ⟨fun ⟨l', u, hmove, hrest⟩ => ⟨u, hmove, l', hrest⟩,
    fun ⟨u, hmove, l', hrest⟩ => ⟨l', u, hmove, hrest⟩⟩

/-- Moves to another account succeed together when the sum of the coins can be moved. -/
theorem exists_moves_iff (hne : sender ≠ receiver) :
    (∃ l', coins.foldlM (move sender receiver) l = .ok l') ↔ l.Affords sender receiver coins := by
  induction coins generalizing l with
  | nil =>
    refine iff_of_true ⟨l, rfl⟩ ⟨fun d => Nat.zero_le _, fun d => ?_⟩
    exact (l.balance receiver d).isLt
  | cons coin coins ih =>
    rw [exists_moves_cons_iff]
    constructor
    · rintro ⟨u, hmove, hrest⟩
      exact ((move_ok hmove).affords_iff hne).1 (ih.1 hrest)
    · intro h
      obtain ⟨u, hmove⟩ := exists_move h.head.1 h.head.2
      exact ⟨u, hmove, ih.2 (((move_ok hmove).affords_iff hne).2 h)⟩

/-- Moves of an account to itself succeed together when each does. -/
theorem exists_moves_self_iff :
    (∃ l', coins.foldlM (move account account) l = .ok l') ↔ l.AffordsEach account coins := by
  induction coins with
  | nil => exact iff_of_true ⟨l, rfl⟩ fun _ hc => absurd hc List.not_mem_nil
  | cons coin coins ih =>
    rw [exists_moves_cons_iff, AffordsEach, List.forall_mem_cons]
    constructor
    · rintro ⟨u, hmove, hrest⟩
      obtain ⟨v, hdebit, -⟩ := except_bind_eq_ok.1 hmove
      obtain rfl := (move_ok hmove).eq_self
      exact ⟨funds_of_debit hdebit, ih.1 hrest⟩
    · rintro ⟨hcoin, hcoins⟩
      obtain ⟨u, hmove⟩ := exists_move_self hcoin
      obtain rfl := (move_ok hmove).eq_self
      exact ⟨_, hmove, ih.2 hcoins⟩

theorem affords_filter :
    l.Affords sender receiver (coins.filter fun c => !c.isZero) ↔
      l.Affords sender receiver coins := by
  have htotal : ∀ d, Coin.total d (coins.filter fun c => !c.isZero) = Coin.total d coins :=
    fun d => Coin.total_filter coins
  constructor
  · exact fun h => ⟨fun d => htotal d ▸ h.covered d, fun d => htotal d ▸ h.room d⟩
  · exact fun h => ⟨fun d => htotal d ▸ h.covered d, fun d => htotal d ▸ h.room d⟩

theorem affordsEach_filter :
    l.AffordsEach account (coins.filter fun c => !c.isZero) ↔ l.AffordsEach account coins := by
  constructor
  · intro h c hc
    cases hzero : c.isZero with
    | true =>
      rw [Amount.isZero_iff.1 hzero]
      exact Nat.zero_le _
    | false => exact h c (List.mem_filter.2 ⟨hc, by rw [hzero]; rfl⟩)
  · exact fun h c hc => h c (List.mem_filter.1 hc).1

/-- Coins that all have a denomination are moved one after the other. -/
theorem send_of_named (l : Ledger) (sender receiver : String)
    (h : ∀ c ∈ coins, c.denom ≠ "") :
    l.send sender receiver coins =
      (coins.filter fun c => !c.isZero).foldlM (move sender receiver) l := by
  have hcheck : coins.forM Coin.check = .ok () :=
    forM_eq_ok.2 fun c hc => Coin.check_eq_ok.2 (h c hc)
  rw [send, hcheck]

theorem send_eq_error_of_unnamed (l : Ledger) (sender receiver : String)
    (h : ∃ c ∈ coins, c.denom = "") :
    l.send sender receiver coins = .error (.validation .emptyCoinDenom) := by
  rw [send, Coin.forM_check_of_unnamed h]

/-- What a transfer of coins leaves is told by the coins, in any order. -/
theorem Sent.unique (h : l.Sent sender receiver coins u) (h' : l.Sent sender receiver coins' l')
    (hcoins : coins.Perm coins') : u = l' := by
  refine ext_balance fun a d => Amount.ext ?_
  have hfunds := h.funds a d
  have hfunds' := h'.funds a d
  rw [Coin.total_perm hcoins] at hfunds
  exact Nat.add_right_cancel (hfunds.trans hfunds'.symm)

/-! ## Transfers -/

theorem exists_send_iff (hnamed : ∀ c ∈ coins, c.denom ≠ "") (hne : sender ≠ receiver) :
    (∃ l', l.send sender receiver coins = .ok l') ↔ l.Affords sender receiver coins := by
  rw [send_of_named l sender receiver hnamed, exists_moves_iff hne, affords_filter]

theorem exists_send_self_iff (hnamed : ∀ c ∈ coins, c.denom ≠ "") :
    (∃ l', l.send account account coins = .ok l') ↔ l.AffordsEach account coins := by
  rw [send_of_named l account account hnamed, exists_moves_self_iff, affordsEach_filter]

/-- Whether coins can be sent does not depend on their order. -/
theorem exists_send_perm (hcoins : coins.Perm coins') :
    (∃ l', l.send sender receiver coins = .ok l') ↔
      ∃ l', l.send sender receiver coins' = .ok l' := by
  by_cases hunnamed : ∃ c ∈ coins, c.denom = ""
  · obtain ⟨c, hc, hdenom⟩ := hunnamed
    rw [send_eq_error_of_unnamed l sender receiver ⟨c, hc, hdenom⟩,
      send_eq_error_of_unnamed l sender receiver ⟨c, hcoins.mem_iff.1 hc, hdenom⟩]
  have hnamed : ∀ c ∈ coins, c.denom ≠ "" := fun c hc hdenom => hunnamed ⟨c, hc, hdenom⟩
  have hnamed' : ∀ c ∈ coins', c.denom ≠ "" := fun c hc => hnamed c (hcoins.mem_iff.2 hc)
  by_cases hne : sender = receiver
  · subst hne
    rw [exists_send_self_iff hnamed, exists_send_self_iff hnamed']
    exact ⟨fun h c hc => h c (hcoins.mem_iff.2 hc), fun h c hc => h c (hcoins.mem_iff.1 hc)⟩
  · rw [exists_send_iff hnamed hne, exists_send_iff hnamed' hne]
    have htotal : ∀ d, Coin.total d coins = Coin.total d coins' := fun d => Coin.total_perm hcoins
    constructor
    · exact fun h => ⟨fun d => htotal d ▸ h.covered d, fun d => htotal d ▸ h.room d⟩
    · exact fun h => ⟨fun d => htotal d ▸ h.covered d, fun d => htotal d ▸ h.room d⟩

/-- How a transfer of coins ends. -/
structure Remits (l : Ledger) (sender receiver : String) (coins : List Coin) : Prop where
  /-- A coin without a denomination is refused before anything else is looked at. -/
  unnamed : (∃ c ∈ coins, c.denom = "") →
    LedgerM.send sender receiver coins l = .error (.validation .emptyCoinDenom) l
  /-- Coins are sent to another account exactly when their sum in each denomination can be. -/
  affordable : (∀ c ∈ coins, c.denom ≠ "") → sender ≠ receiver →
    (succeeds (LedgerM.send sender receiver coins) l = true ↔
      ∀ denom, Coin.total denom coins ≤ l.funds sender denom ∧
        l.funds receiver denom + Coin.total denom coins < Amount.size)
  /-- These sums change hands and nothing else does. -/
  moved : sender ≠ receiver → ∀ l', LedgerM.send sender receiver coins l = .ok () l' →
    (∀ denom, l'.funds sender denom + Coin.total denom coins = l.funds sender denom) ∧
    (∀ denom, l'.funds receiver denom = l.funds receiver denom + Coin.total denom coins) ∧
    ∀ account, account ≠ sender → account ≠ receiver →
      ∀ denom, l'.balance account denom = l.balance account denom
  /-- The coins may stand in any order, on which only what a refusal tells can depend. -/
  unordered : ∀ coins', coins.Perm coins' →
    succeeds (LedgerM.send sender receiver coins') l =
        succeeds (LedgerM.send sender receiver coins) l ∧
      leaves (LedgerM.send sender receiver coins') l =
        leaves (LedgerM.send sender receiver coins) l
  /-- An account sends to itself what it has, coin by coin, and keeps it. -/
  kept : (∀ c ∈ coins, c.denom ≠ "") → sender = receiver →
    (succeeds (LedgerM.send sender receiver coins) l = true ↔
      ∀ c ∈ coins, c.amount.toNat ≤ l.funds sender c.denom) ∧
    ∀ l', LedgerM.send sender receiver coins l = .ok () l' →
      ∀ account denom, l'.balance account denom = l.balance account denom
  /-- What is refused changes no balance. -/
  refused : ∀ e l', LedgerM.send sender receiver coins l = .error e l' →
    ∀ account denom, l'.balance account denom = l.balance account denom

theorem succeeds_send_iff :
    succeeds (LedgerM.send sender receiver coins) l = true ↔
      ∃ l', l.send sender receiver coins = .ok l' := by
  unfold succeeds LedgerM.send
  cases l.send sender receiver coins <;> simp

/-- Coins are sent exactly when they are affordable together, whatever list they come in. -/
theorem remits_when_affordable (l : Ledger) (sender receiver : String) (coins : List Coin) :
    l.Remits sender receiver coins where
  unnamed h := by rw [LedgerM.send, send_eq_error_of_unnamed l sender receiver h]
  affordable hnamed hne := by
    rw [succeeds_send_iff, exists_send_iff hnamed hne]
    exact ⟨fun h denom => ⟨h.covered denom, h.room denom⟩,
      fun h => ⟨fun denom => (h denom).1, fun denom => (h denom).2⟩⟩
  moved hne l' h := by
    have hsent := sent_of_send (LedgerM.send_eq_ok.1 h)
    refine ⟨fun denom => ?_, fun denom => ?_, fun account hs hr denom => Amount.ext ?_⟩
    · have hfunds := hsent.funds sender denom
      rwa [if_pos rfl, if_neg hne, Nat.add_zero] at hfunds
    · have hfunds := hsent.funds receiver denom
      rwa [if_pos rfl, if_neg hne.symm, Nat.add_zero] at hfunds
    · have hfunds := hsent.funds account denom
      rwa [if_neg hs, if_neg hr, Nat.add_zero, Nat.add_zero] at hfunds
  unordered coins' hcoins := by
    have hiff : succeeds (LedgerM.send sender receiver coins') l =
        succeeds (LedgerM.send sender receiver coins) l := by
      rw [Bool.eq_iff_iff, succeeds_send_iff, succeeds_send_iff]
      exact (exists_send_perm hcoins).symm
    refine ⟨hiff, ?_⟩
    cases hrun : LedgerM.send sender receiver coins l with
    | ok _ u =>
      obtain ⟨_, u', hrun'⟩ := exists_of_succeeds (hiff.trans (by simp only [succeeds, hrun]))
      rw [leaves_of_ok hrun, leaves_of_ok hrun']
      exact (sent_of_send (LedgerM.send_eq_ok.1 hrun')).unique
        (sent_of_send (LedgerM.send_eq_ok.1 hrun)) hcoins.symm
    | error e u =>
      obtain ⟨e', u', hrun'⟩ := exists_of_fails (hiff.trans (by simp only [succeeds, hrun]))
      rw [leaves_of_error hrun, leaves_of_error hrun', ← (LedgerM.send_eq_error.1 hrun).2,
        ← (LedgerM.send_eq_error.1 hrun').2]
  kept hnamed hsame := by
    subst hsame
    refine ⟨by rw [succeeds_send_iff]; exact exists_send_self_iff hnamed, fun l' h a d => ?_⟩
    exact Amount.ext (Nat.add_right_cancel ((sent_of_send (LedgerM.send_eq_ok.1 h)).funds a d))
  refused e l' h account denom := by rw [(LedgerM.send_eq_error.1 h).2]

/-- Two halves of what an account has and a bit more are too much for another account, not for
itself. -/
example :
    let coin (amount : Nat) (h : amount < Amount.size) : Coin := ⟨"uusdc", amount, h⟩
    let l := empty.set "alice" "uusdc" ⟨100, by decide⟩
    let coins := [coin 60 (by decide), coin 60 (by decide)]
    succeeds (LedgerM.send "alice" "bob" coins) l = false ∧
      succeeds (LedgerM.send "alice" "alice" coins) l = true := by
  decide +kernel

end Ledger

end TransferRouter
