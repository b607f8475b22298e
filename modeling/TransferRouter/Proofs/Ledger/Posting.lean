import Mathlib.Algebra.BigOperators.Finprod
import TransferRouter.Proofs.Ledger

/-!
Bookkeeping. Mints and moves are posted to a ledger one after the other. A move gives to one account
what it takes from another, coin by coin, so all accounts together have what mints brought in. What
is refused leaves every balance alone.
-/

namespace TransferRouter

open StrictOrder

/-- What coins have of a denomination. Each counts as often as it is listed. -/
def Coin.total (denom : String) (coins : List Coin) : Nat :=
  ((coins.filter fun c => c.denom == denom).map fun c => c.amount.toNat).sum

namespace Coin

variable {denom : String}

theorem total_append (coins coins' : List Coin) :
    total denom (coins ++ coins') = total denom coins + total denom coins' := by
  simp only [total, List.filter_append, List.map_append, List.sum_append]

theorem total_cons (coin : Coin) (coins : List Coin) : total denom (coin :: coins) =
    (if denom = coin.denom then coin.amount.toNat else 0) + total denom coins := by
  unfold total
  rw [List.filter_cons]
  by_cases h : denom = coin.denom
  · simp [h]
  · simp [h, Ne.symm h]

/-- Coins of nothing do not count. -/
theorem total_filter (coins : List Coin) :
    total denom (coins.filter fun c => !c.isZero) = total denom coins := by
  induction coins with
  | nil => rfl
  | cons coin coins ih =>
    cases hzero : coin.isZero with
    | true =>
      have hnothing : coin.amount.toNat = 0 := Amount.isZero_iff.1 hzero
      rw [List.filter_cons_of_neg (by simp [hzero]), ih, total_cons, hnothing, ite_self, zero_add]
    | false => rw [List.filter_cons_of_pos (by simp [hzero]), total_cons, total_cons, ih]

end Coin

namespace Ledger

variable {l l' u : Ledger} {sender receiver : String}

/-! ## Moves of many coins -/

/-- A ledger after coins went from one account to another, which may be the same. -/
structure Sent (l : Ledger) (sender receiver : String) (coins : List Coin) (l' : Ledger) :
    Prop where
  funds : ∀ a d, l'.funds a d + (if a = sender then Coin.total d coins else 0) =
    l.funds a d + if a = receiver then Coin.total d coins else 0
  supply : ∀ d, l'.supply d = l.supply d

theorem Sent.nil (l : Ledger) (sender receiver : String) : l.Sent sender receiver [] l where
  funds a d := by rw [Coin.total, List.filter_nil, List.map_nil, List.sum_nil, ite_self, ite_self]
  supply _ := rfl

theorem Sent.cons {coin : Coin} {coins : List Coin} (h : l.Moved sender receiver coin u)
    (h' : u.Sent sender receiver coins l') : l.Sent sender receiver (coin :: coins) l' where
  funds a d := by
    have hsplit : ∀ account, (if a = account then Coin.total d (coin :: coins) else 0) =
        (if a = account ∧ d = coin.denom then coin.amount.toNat else 0) +
          if a = account then Coin.total d coins else 0 := by
      intro account
      rw [Coin.total_cons]
      by_cases ha : a = account <;> simp [ha]
    have hfirst := h.funds a d
    have hrest := h'.funds a d
    rw [hsplit, hsplit]
    omega
  supply d := (h'.supply d).trans (h.supply d)

theorem sent_of_moves {coins : List Coin}
    (h : coins.foldlM (move sender receiver) l = .ok l') : l.Sent sender receiver coins l' := by
  induction coins generalizing l with
  | nil =>
    obtain rfl := Except.ok.inj h
    exact .nil l sender receiver
  | cons coin coins ih =>
    rw [List.foldlM_cons] at h
    obtain ⟨u, hmove, hrest⟩ := except_bind_eq_ok.1 h
    exact .cons (move_ok hmove) (ih hrest)

theorem sent_of_send {coins : List Coin} (h : l.send sender receiver coins = .ok l') :
    l.Sent sender receiver coins l' := by
  unfold send at h
  split at h
  · exact absurd h nofun
  · have hsent := sent_of_moves h
    constructor
    · intro a d
      have hfunds := hsent.funds a d
      rwa [Coin.total_filter] at hfunds
    · exact hsent.supply

/-! ## Sums over all accounts -/

/-- Two places of one denomination are of two accounts. -/
theorem nodup_holders (l : Ledger) (denom : String) :
    ((l.slots.entries.filter fun e => e.1.denom == denom).map fun e => e.1.account).Nodup := by
  refine List.pairwise_map.2 (List.Pairwise.imp_of_mem ?_ (l.slots.ascending.filter _))
  rintro ⟨⟨a, d⟩, x⟩ ⟨⟨a', d'⟩, x'⟩ he he' hlt haccount
  obtain rfl : d = denom := eq_of_beq (List.mem_filter.1 he).2
  obtain rfl : d' = d := eq_of_beq (List.mem_filter.1 he').2
  exact ne_of_before hlt (congrArg (Slot.mk · d') haccount)

theorem support_funds (l : Ledger) (denom : String) :
    (Function.support fun account => l.funds account denom) ⊆
      ((l.slots.entries.filter fun e => e.1.denom == denom).map fun e => e.1.account).toFinset := by
  intro account hfunds
  have hentry : (⟨account, denom⟩, l.balance account denom) ∈ l.slots.entries :=
    mem_entries_iff.2 ⟨rfl, Amount.isZero_eq_false_iff.2 hfunds⟩
  refine List.mem_toFinset.2 (List.mem_map.2 ⟨_, List.mem_filter.2 ⟨hentry, ?_⟩, rfl⟩)
  exact beq_self_eq_true denom

theorem finite_funds (l : Ledger) (denom : String) :
    (Function.support fun account => l.funds account denom).Finite :=
  (Finset.finite_toSet _).subset (l.support_funds denom)

/-- The supply is the sum of the balances of all accounts. -/
theorem finsum_funds (l : Ledger) (denom : String) :
    ∑ᶠ account, l.funds account denom = l.supply denom := by
  rw [finsum_eq_sum_of_support_subset _ (l.support_funds denom),
    List.sum_toFinset _ (l.nodup_holders denom), List.map_map, supply, worth]
  congr 1
  refine List.map_congr_left fun e he => ?_
  obtain ⟨⟨a, d⟩, amount⟩ := e
  obtain ⟨hentry, hdenom⟩ := List.mem_filter.1 he
  obtain rfl : d = denom := eq_of_beq hdenom
  exact congrArg Amount.toNat (mem_entries_iff.1 hentry).1

end Ledger

/-! ## Postings -/

/-- What can be asked of a ledger. -/
inductive Posting where
  | mint (account : String) (coin : Coin)
  | send (sender receiver : String) (coins : List Coin)

namespace Posting

def perform : Posting → LedgerM Unit
  | mint account coin => LedgerM.mint account coin
  | send sender receiver coins => LedgerM.send sender receiver coins

/-- The coins that a posting makes out of nothing. -/
def minted : Posting → List Coin
  | mint _ coin => [coin]
  | send .. => []

variable {p : Posting} {l l' : Ledger}

/-- An accepted posting adds to the supply what it makes. -/
theorem supply_of_ok (h : p.perform l = .ok () l') (denom : String) :
    l'.supply denom = l.supply denom + Coin.total denom p.minted := by
  cases p with
  | mint account coin =>
    rw [(Ledger.mint_ok (LedgerM.mint_eq_ok.1 h)).supply, minted, Coin.total_cons]
    rfl
  | send sender receiver coins =>
    exact (Ledger.sent_of_send (LedgerM.send_eq_ok.1 h)).supply denom

/-- A refused posting changes nothing. -/
theorem eq_of_error {e : RouterError} (h : p.perform l = .error e l') : l' = l := by
  cases p with
  | mint account coin => exact (LedgerM.mint_eq_error.1 h).2.symm
  | send sender receiver coins => exact (LedgerM.send_eq_error.1 h).2.symm

end Posting

namespace Ledger

/-- The ledger after postings, accepted or not. -/
def posted (l : Ledger) (postings : List Posting) : Ledger :=
  postings.foldl (fun l p => leaves p.perform l) l

/-- The coins that accepted postings make out of nothing. -/
def minted (l : Ledger) : List Posting → List Coin
  | [] => []
  | p :: postings =>
    (if succeeds p.perform l then p.minted else []) ++ (leaves p.perform l).minted postings

theorem supply_leaves (l : Ledger) (p : Posting) (denom : String) :
    (leaves p.perform l).supply denom =
      l.supply denom + Coin.total denom (if succeeds p.perform l then p.minted else []) := by
  cases hrun : p.perform l with
  | ok _ l' =>
    rw [leaves_of_ok hrun, Posting.supply_of_ok hrun, if_pos (by simp only [succeeds, hrun])]
  | error e l' =>
    rw [leaves_of_error hrun, Posting.eq_of_error hrun,
      if_neg (by simp only [succeeds, hrun, Bool.false_eq_true, not_false_iff])]
    rfl

theorem supply_posted (l : Ledger) (postings : List Posting) (denom : String) :
    (l.posted postings).supply denom = l.supply denom + Coin.total denom (l.minted postings) := by
  induction postings generalizing l with
  | nil => rfl
  | cons p postings ih =>
    rw [posted, List.foldl_cons]
    rw [← posted, ih, supply_leaves, minted, Coin.total_append, Nat.add_assoc]

/-- The books of a ledger that was empty before some postings are in order. -/
structure Balanced (postings : List Posting) (l : Ledger) : Prop where
  /-- Only finitely many accounts have something of a denomination. -/
  finite : ∀ denom, (Function.support fun account => l.funds account denom).Finite
  /-- Together they have what accepted mints brought in. -/
  conserved : ∀ denom,
    ∑ᶠ account, l.funds account denom = Coin.total denom (empty.minted postings)
  /-- What is refused next leaves every balance as it is. -/
  refused : ∀ p e l', Posting.perform p l = .error e l' →
    ∀ account denom, l'.balance account denom = l.balance account denom
  /-- The coins of an account are listed by denomination, each once. -/
  ascending : ∀ account, (l.balances account).Pairwise fun c c' => c.denom < c'.denom
  /-- They are its balances that are not nothing. -/
  listed : ∀ account denom amount, ⟨denom, amount⟩ ∈ l.balances account ↔
    l.balance account denom = amount ∧ amount ≠ .zero

/-- Whatever is posted to an empty ledger, its books are in order. -/
theorem balanced_of_posted (postings : List Posting) :
    Balanced postings (empty.posted postings) where
  finite denom := finite_funds _ denom
  conserved denom := by
    have hempty : empty.supply denom = 0 := rfl
    rw [finsum_funds, supply_posted, hempty, Nat.zero_add]
  refused p e l' h account denom := by rw [Posting.eq_of_error h]
  ascending account := (ascending_balances _ account).imp before_string.1
  listed account denom amount := by
    refine mem_balances.trans (and_congr_right fun _ => ?_)
    rw [Coin.isZero, Amount.isZero_eq_false_iff, ne_eq, ne_eq, Amount.ext_iff, Amount.toNat_zero]

/-- Two coins that are too much together are refused, a move to oneself is not. -/
example :
    let coin (amount : Nat) (h : amount < Amount.size) : Coin := ⟨"uusdc", amount, h⟩
    let postings : List Posting :=
      [.mint "alice" (coin 100 (by decide)), .mint "bob" (coin 0 (by decide)),
        .send "alice" "bob" [coin 60 (by decide), coin 60 (by decide)],
        .send "alice" "alice" [coin 100 (by decide)],
        .send "alice" "bob" [coin 30 (by decide), coin 10 (by decide)]]
    let l := empty.posted postings
    l.balances "alice" = [coin 60 (by decide)] ∧ l.balances "bob" = [coin 40 (by decide)] := by
  decide +kernel

end Ledger

end TransferRouter
