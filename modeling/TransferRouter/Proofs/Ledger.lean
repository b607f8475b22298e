import Mathlib.Algebra.GroupWithZero.Nat
import TransferRouter.Ledger
import TransferRouter.Proofs.Action
import TransferRouter.Proofs.Order
import TransferRouter.Proofs.Store

/-!
Balances as numbers: what an account has, and what all accounts have together. A move of coins takes
from one place what it adds to another, so it changes no supply. It fails only when the sender has
too little or when a balance would no longer be an amount.
-/

namespace TransferRouter

open StrictOrder

/-! ## Amounts as numbers -/

namespace Amount

variable {a b c : Amount}

theorem isZero_iff : a.isZero = true ↔ a.toNat = 0 := beq_iff_eq

theorem isZero_eq_false_iff : a.isZero = false ↔ a.toNat ≠ 0 := by
  rw [← Bool.not_eq_true, isZero_iff]

@[simp] theorem toNat_zero : zero.toNat = 0 := rfl

theorem ofNat?_of_lt {n : Nat} (h : n < size) : ofNat? n = some ⟨n, h⟩ := dif_pos h

theorem ofNat?_eq_some {n : Nat} : ofNat? n = some a ↔ a.toNat = n := by
  constructor
  · intro h
    by_cases hn : n < size
    · rw [ofNat?_of_lt hn] at h
      exact Option.some.inj h ▸ rfl
    · rw [ofNat?, dif_neg hn] at h
      exact absurd h nofun
  · rintro rfl
    exact ofNat?_of_lt a.isLt

theorem add?_eq_some : a.add? b = some c ↔ c.toNat = a.toNat + b.toNat := ofNat?_eq_some

theorem sub?_of_lt (h : a.toNat < b.toNat) : a.sub? b = none := if_neg (Nat.not_le.2 h)

theorem sub?_eq_some :
    a.sub? b = some c ↔ b.toNat ≤ a.toNat ∧ c.toNat = a.toNat - b.toNat := by
  unfold sub?
  split
  next h =>
    rw [Option.some.injEq, Amount.ext_iff]
    exact ⟨fun hc => ⟨h, hc.symm⟩, fun hc => hc.2.symm⟩
  next h => simp [h]

theorem sub?_of_le (h : b.toNat ≤ a.toNat) : ∃ c, a.sub? b = some c := ⟨_, if_pos h⟩

end Amount

/-! ## Entries of a map -/

namespace OrderedMap

variable {κ ν : Type} [StrictOrder κ]

theorem ext_get? {m n : OrderedMap κ ν} (h : ∀ k, m.get? k = n.get? k) : m = n := by
  refine ext (eq_of_ascending m.ascending n.ascending fun e => ?_)
  rw [← get?_eq_some_iff, ← get?_eq_some_iff, h]

/-- The entries of a map are what is under a key and the rest. -/
theorem perm_erase (m : OrderedMap κ ν) (k : κ) :
    m.entries.Perm (((m.get? k).map (Prod.mk k)).toList ++ (m.erase k).entries) := by
  obtain ⟨es, hes⟩ := m
  simp only [get?, erase]
  induction es with
  | nil => exact .nil
  | cons e es ih =>
    obtain ⟨hlt, hes⟩ := List.pairwise_cons.1 hes
    cases he : sameKey e.1 k with
    | true =>
      obtain rfl : e.1 = k := sameKey_iff.1 he
      have hrest : es.filter (fun d => !sameKey d.1 e.1) = es := by
        refine List.filter_eq_self.2 fun d hd => ?_
        rw [Bool.not_eq_true', Bool.eq_false_iff]
        exact fun h => ne_of_before (hlt d hd) (sameKey_iff.1 h).symm
      simp [he, hrest]
    | false =>
      simp only [List.find?_cons, List.filter_cons, he, Bool.not_false, if_true]
      exact ((ih hes).cons e).trans List.perm_middle.symm

/-- An insertion puts one entry beside what is under other keys. -/
theorem perm_insert (m : OrderedMap κ ν) (k : κ) (v : ν) :
    (m.insert k v).entries.Perm ((k, v) :: (m.erase k).entries) := by
  have herase : (m.insert k v).erase k = m.erase k := by
    refine ext_get? fun l => ?_
    by_cases h : k = l
    · rw [h, get?_erase_self, get?_erase_self]
    · rw [get?_erase_ne h, get?_erase_ne h, get?_insert_ne h]
  have hperm := perm_erase (m.insert k v) k
  rwa [get?_insert_self, herase] at hperm

end OrderedMap

theorem Slot.before_mk (account d d' : String) :
    before (⟨account, d⟩ : Slot) ⟨account, d'⟩ = before d d' := by
  change (before account account || (!before account account && before d d')) = before d d'
  rw [StrictOrder.irrefl]
  rfl

namespace Ledger

variable {l l' : Ledger} {account denom : String}

/-! ## What an account has -/

/-- The balance of an account as a number. -/
def funds (l : Ledger) (account denom : String) : Nat := (l.balance account denom).toNat

theorem balance_eq_iff {amount : Amount} :
    l.balance account denom = amount ↔ l.funds account denom = amount.toNat :=
  Amount.ext_iff

theorem balance_set (l : Ledger) (account denom : String) (amount : Amount) (a d : String) :
    (l.set account denom amount).balance a d =
      if account = a ∧ denom = d then amount else l.balance a d := by
  have hslot : (⟨account, denom⟩ : Slot) = ⟨a, d⟩ → account = a ∧ denom = d := Slot.mk.inj
  unfold set balance
  split
  next hzero =>
    by_cases h : account = a ∧ denom = d
    · obtain ⟨rfl, rfl⟩ := h
      rw [if_pos ⟨rfl, rfl⟩, OrderedMap.get?_erase_self]
      exact Amount.ext (Amount.isZero_iff.1 hzero).symm
    · rw [if_neg h, OrderedMap.get?_erase_ne (mt hslot h)]
  next =>
    by_cases h : account = a ∧ denom = d
    · obtain ⟨rfl, rfl⟩ := h
      rw [if_pos ⟨rfl, rfl⟩, OrderedMap.get?_insert_self]
      rfl
    · rw [if_neg h, OrderedMap.get?_insert_ne (mt hslot h)]

theorem funds_set (l : Ledger) (account denom : String) (amount : Amount) (a d : String) :
    (l.set account denom amount).funds a d =
      if account = a ∧ denom = d then amount.toNat else l.funds a d := by
  unfold funds
  rw [balance_set]
  split <;> rfl

theorem mem_entries_iff {a : Amount} :
    (⟨account, denom⟩, a) ∈ l.slots.entries ↔ l.balance account denom = a ∧ a.isZero = false := by
  rw [← OrderedMap.get?_eq_some_iff, balance]
  cases h : l.slots.get? ⟨account, denom⟩ with
  | none =>
    refine iff_of_false nofun ?_
    rintro ⟨rfl, hzero⟩
    exact absurd hzero (by decide)
  | some b =>
    have hb : b.isZero = false := l.positive _ (OrderedMap.get?_eq_some_iff.1 h)
    rw [Option.some.injEq, Option.getD_some]
    exact ⟨fun heq => ⟨heq, heq ▸ hb⟩, fun heq => heq.1⟩

/-- Ledgers with the same balances are the same ledger. -/
theorem ext_balance (h : ∀ a d, l.balance a d = l'.balance a d) : l = l' := by
  have hentries : l.slots.entries = l'.slots.entries := by
    refine eq_of_ascending l.slots.ascending l'.slots.ascending fun e => ?_
    obtain ⟨⟨a, d⟩, amount⟩ := e
    rw [mem_entries_iff, mem_entries_iff, h]
  have hslots : l.slots = l'.slots := OrderedMap.ext hentries
  cases l
  cases l'
  congr

theorem mem_balances {c : Coin} :
    c ∈ l.balances account ↔ l.balance account c.denom = c.amount ∧ c.isZero = false := by
  rw [balances, List.mem_map]
  constructor
  · rintro ⟨⟨⟨a, d⟩, b⟩, he, rfl⟩
    obtain ⟨hmem, ha⟩ := List.mem_filter.1 he
    obtain rfl : a = account := eq_of_beq ha
    exact mem_entries_iff.1 hmem
  · intro h
    refine ⟨(⟨account, c.denom⟩, c.amount), List.mem_filter.2 ⟨mem_entries_iff.2 h, ?_⟩, rfl⟩
    exact beq_self_eq_true account

theorem ascending_balances (l : Ledger) (account : String) :
    (l.balances account).Pairwise fun c c' => before c.denom c'.denom = true := by
  refine List.pairwise_map.2 (List.Pairwise.imp_of_mem ?_ (l.slots.ascending.filter _))
  rintro ⟨⟨a, d⟩, x⟩ ⟨⟨a', d'⟩, x'⟩ he he' h
  obtain rfl : a = account := eq_of_beq (List.mem_filter.1 he).2
  obtain rfl : a' = a := eq_of_beq (List.mem_filter.1 he').2
  exact (Slot.before_mk a' d d').symm.trans h

/-- The coins of an account are told by its balances. -/
theorem balances_congr (h : ∀ denom, l.balance account denom = l'.balance account denom) :
    l.balances account = l'.balances account := by
  refine eq_of_ascending (l.ascending_balances account) (l'.ascending_balances account) fun c => ?_
  rw [mem_balances, mem_balances, h]

theorem balances_eq_singleton_iff {c : Coin} : l.balances account = [c] ↔
    c.isZero = false ∧
      ∀ denom, l.funds account denom = if denom = c.denom then c.amount.toNat else 0 := by
  constructor
  · intro h
    obtain ⟨hbalance, hzero⟩ := mem_balances.1 (h ▸ List.mem_singleton_self c)
    refine ⟨hzero, fun denom => ?_⟩
    split
    next hd => rw [hd, funds, hbalance]
    next hd =>
      -- Another balance that is not nothing would be another coin of the list.
      refine Classical.byContradiction fun hne => ?_
      have hmem : ⟨denom, l.balance account denom⟩ ∈ l.balances account :=
        mem_balances.2 ⟨rfl, Amount.isZero_eq_false_iff.2 hne⟩
      rw [h, List.mem_singleton] at hmem
      exact hd (congrArg Coin.denom hmem)
  · rintro ⟨hzero, hfunds⟩
    have hsingle : [c].Pairwise fun c c' => before c.denom c'.denom = true :=
      List.pairwise_singleton ..
    refine eq_of_ascending (l.ascending_balances account) hsingle fun c' => ?_
    rw [mem_balances, List.mem_singleton, balance_eq_iff, hfunds]
    constructor
    · rintro ⟨hamount, hzero'⟩
      split at hamount
      next hd =>
        cases c; cases c'
        exact Coin.mk.injEq .. ▸ ⟨hd, Amount.ext hamount.symm⟩
      next => exact absurd hamount.symm (Amount.isZero_eq_false_iff.1 hzero')
    · rintro rfl
      exact ⟨if_pos rfl, hzero⟩

/-! ## What all accounts have -/

/-- What the entries of a ledger have of a denomination. -/
def worth (denom : String) (entries : List (Slot × Amount)) : Nat :=
  ((entries.filter fun e => e.1.denom == denom).map fun e => e.2.toNat).sum

/-- What all accounts together have of a denomination. -/
def supply (l : Ledger) (denom : String) : Nat := worth denom l.slots.entries

theorem worth_perm {es es' : List (Slot × Amount)} (h : es.Perm es') :
    worth denom es = worth denom es' :=
  ((h.filter _).map _).sum_nat

theorem worth_cons (account d denom : String) (amount : Amount) (es : List (Slot × Amount)) :
    worth denom ((⟨account, d⟩, amount) :: es) =
      (if d = denom then amount.toNat else 0) + worth denom es := by
  unfold worth
  rw [List.filter_cons]
  by_cases h : d = denom <;> simp [h]

theorem supply_eq_add_erase (l : Ledger) (account d denom : String) :
    l.supply denom = (if d = denom then l.funds account d else 0) +
      worth denom (l.slots.erase ⟨account, d⟩).entries := by
  rw [supply, worth_perm (OrderedMap.perm_erase _ ⟨account, d⟩), funds, balance]
  cases l.slots.get? ⟨account, d⟩ with
  | none => simp
  | some amount => exact worth_cons ..

/-- A new balance changes the supply by what is new less what was there. -/
theorem supply_set (l : Ledger) (account d : String) (amount : Amount) (denom : String) :
    (l.set account d amount).supply denom + (if d = denom then l.funds account d else 0) =
      l.supply denom + if d = denom then amount.toNat else 0 := by
  have hset : (l.set account d amount).supply denom =
      (if d = denom then amount.toNat else 0) +
        worth denom (l.slots.erase ⟨account, d⟩).entries := by
    unfold set supply
    split
    next h => simp [Amount.isZero_iff.1 h]
    next => rw [worth_perm (OrderedMap.perm_insert _ _ _), worth_cons]
  rw [hset, supply_eq_add_erase l account d denom]
  omega

theorem funds_le_supply (l : Ledger) (account denom : String) :
    l.funds account denom ≤ l.supply denom := by
  have h := l.supply_eq_add_erase account denom denom
  rw [if_pos rfl] at h
  omega

/-! ## Credits, debits and moves -/

/-- A ledger after a coin was added to an account. -/
def Gained (l : Ledger) (account : String) (coin : Coin) (l' : Ledger) : Prop :=
  ∀ a d, l'.funds a d =
    l.funds a d + if a = account ∧ d = coin.denom then coin.amount.toNat else 0

/-- A ledger after a coin went from one account to another. -/
def Moved (l : Ledger) (sender receiver : String) (coin : Coin) (l' : Ledger) : Prop :=
  ∃ u : Ledger, u.Gained sender coin l ∧ u.Gained receiver coin l'

variable {sender receiver : String} {coin : Coin}

theorem Gained.nothing (l : Ledger) (account : String) (h : coin.isZero = true) :
    l.Gained account coin l := by
  have hzero : coin.amount.toNat = 0 := Amount.isZero_iff.1 h
  intro a d
  simp [hzero]

theorem Gained.funds_self (h : l.Gained account coin l') :
    l'.funds account coin.denom = l.funds account coin.denom + coin.amount.toNat := by
  rw [h, if_pos ⟨rfl, rfl⟩]

theorem Gained.funds_of_ne (h : l.Gained account coin l') {a d : String}
    (hne : ¬ (a = account ∧ d = coin.denom)) : l'.funds a d = l.funds a d := by
  rw [h, if_neg hne, Nat.add_zero]

/-- What an account gains is new. -/
theorem Gained.supply (h : l.Gained account coin l') (d : String) :
    l'.supply d = l.supply d + if d = coin.denom then coin.amount.toNat else 0 := by
  -- The ledger is the old one with a single balance replaced.
  have hset : l' = l.set account coin.denom (l'.balance account coin.denom) := by
    refine ext_balance fun a d => ?_
    rw [balance_set]
    split
    next hplace => rw [hplace.1, hplace.2]
    next hplace =>
      exact Amount.ext (h.funds_of_ne fun hsame => hplace ⟨hsame.1.symm, hsame.2.symm⟩)
  have hsupply := l.supply_set account coin.denom (l'.balance account coin.denom) d
  rw [← hset] at hsupply
  have hself : (l'.balance account coin.denom).toNat = _ := h.funds_self
  by_cases hd : coin.denom = d
  · rw [if_pos hd, if_pos hd, hself] at hsupply
    rw [if_pos hd.symm]
    omega
  · rw [if_neg hd, if_neg hd] at hsupply
    rw [if_neg (Ne.symm hd)]
    exact hsupply

theorem credit_ok (h : l.credit account coin = .ok l') : l.Gained account coin l' := by
  unfold credit at h
  split at h
  next sum hsum =>
    obtain rfl := Except.ok.inj h
    have hsum : sum.toNat = l.funds account coin.denom + _ := Amount.add?_eq_some.1 hsum
    intro a d
    rw [funds_set]
    by_cases hplace : a = account ∧ d = coin.denom
    · obtain ⟨rfl, rfl⟩ := hplace
      simp [hsum]
    · rw [if_neg fun hsame => hplace ⟨hsame.1.symm, hsame.2.symm⟩, if_neg hplace, Nat.add_zero]
  next => exact absurd h nofun

theorem debit_eq (l : Ledger) (account : String) (coin : Coin) :
    l.debit account coin =
      match (l.balance account coin.denom).sub? coin.amount with
      | some rest => .ok (l.set account coin.denom rest)
      | none => .error (.insufficientFunds account coin.write
          (Coin.write ⟨coin.denom, l.balance account coin.denom⟩)) := rfl

theorem debit_ok (h : l.debit account coin = .ok l') : l'.Gained account coin l := by
  rw [debit_eq] at h
  split at h
  next rest hrest =>
    obtain rfl := Except.ok.inj h
    obtain ⟨hle, hrest⟩ := Amount.sub?_eq_some.1 hrest
    intro a d
    rw [funds_set]
    by_cases hplace : a = account ∧ d = coin.denom
    · obtain ⟨rfl, rfl⟩ := hplace
      simp only [and_self, if_true, hrest]
      exact (Nat.sub_add_cancel hle).symm
    · rw [if_neg fun hsame => hplace ⟨hsame.1.symm, hsame.2.symm⟩, if_neg hplace, Nat.add_zero]
  next => exact absurd h nofun

theorem credit_run (h : l.funds account coin.denom + coin.amount.toNat < Amount.size) :
    ∃ l', l.credit account coin = .ok l' ∧ l.Gained account coin l' := by
  have hadd : (l.balance account coin.denom).add? coin.amount = some ⟨_, h⟩ := Amount.ofNat?_of_lt h
  have hrun : l.credit account coin = .ok (l.set account coin.denom ⟨_, h⟩) := by
    simp only [credit, hadd]
  exact ⟨_, hrun, credit_ok hrun⟩

theorem debit_run (h : coin.amount.toNat ≤ l.funds account coin.denom) :
    ∃ l', l.debit account coin = .ok l' ∧ l'.Gained account coin l := by
  obtain ⟨rest, hrest⟩ := Amount.sub?_of_le h
  have hrun : l.debit account coin = .ok (l.set account coin.denom rest) := by
    rw [debit_eq, hrest]
  exact ⟨_, hrun, debit_ok hrun⟩

/-- An account that has too little is told what it has. -/
theorem debit_of_lt (h : l.funds account coin.denom < coin.amount.toNat) :
    l.debit account coin = .error (.insufficientFunds account coin.write
      (Coin.write ⟨coin.denom, l.balance account coin.denom⟩)) := by
  rw [debit_eq, Amount.sub?_of_lt h]

/-! ## Moves -/

theorem Moved.nothing (l : Ledger) (sender receiver : String) (h : coin.isZero = true) :
    l.Moved sender receiver coin l :=
  ⟨l, .nothing l sender h, .nothing l receiver h⟩

theorem Moved.funds (h : l.Moved sender receiver coin l') (a d : String) :
    l'.funds a d + (if a = sender ∧ d = coin.denom then coin.amount.toNat else 0) =
      l.funds a d + if a = receiver ∧ d = coin.denom then coin.amount.toNat else 0 := by
  obtain ⟨u, hsender, hreceiver⟩ := h
  rw [hsender a d, hreceiver a d]
  omega

theorem Moved.supply (h : l.Moved sender receiver coin l') (d : String) :
    l'.supply d = l.supply d := by
  obtain ⟨u, hsender, hreceiver⟩ := h
  rw [hsender.supply, hreceiver.supply]

/-- A move is seen only by the two accounts. -/
theorem Moved.funds_of_ne (h : l.Moved sender receiver coin l') {a : String} (hs : a ≠ sender)
    (hr : a ≠ receiver) (d : String) : l'.funds a d = l.funds a d := by
  have hfunds := h.funds a d
  rwa [if_neg fun h => hs h.1, if_neg fun h => hr h.1] at hfunds

theorem Moved.funds_sender (h : l.Moved sender receiver coin l') (hne : sender ≠ receiver) :
    l'.funds sender coin.denom + coin.amount.toNat = l.funds sender coin.denom := by
  have hfunds := h.funds sender coin.denom
  rwa [if_pos ⟨rfl, rfl⟩, if_neg fun h => hne h.1] at hfunds

/-- An account that gives all it has of a denomination has nothing of it. -/
theorem Moved.funds_emptied {denom : String} (hne : sender ≠ receiver)
    (h : l.Moved sender receiver ⟨denom, l.balance sender denom⟩ l') :
    l'.funds sender denom = 0 := by
  have hfunds := h.funds_sender hne
  change l'.funds sender denom + l.funds sender denom = l.funds sender denom at hfunds
  omega

theorem move_ok (h : l.move sender receiver coin = .ok l') : l.Moved sender receiver coin l' := by
  obtain ⟨u, hdebit, hcredit⟩ := except_bind_eq_ok.1 h
  exact ⟨u, debit_ok hdebit, credit_ok hcredit⟩

/-- No balance overflows while the supply is an amount. -/
theorem move_run (hfunds : coin.amount.toNat ≤ l.funds sender coin.denom)
    (hsupply : l.supply coin.denom < Amount.size) : ∃ l', l.move sender receiver coin = .ok l' := by
  obtain ⟨u, hdebit, hu⟩ := debit_run hfunds
  have hless := hu.supply coin.denom
  rw [if_pos rfl] at hless
  have hroom := u.funds_le_supply receiver coin.denom
  have hfits : u.funds receiver coin.denom + coin.amount.toNat < Amount.size := by omega
  obtain ⟨l', hcredit, -⟩ := credit_run hfits
  exact ⟨l', by rw [move, hdebit]; exact hcredit⟩

theorem forM_check (coin : Coin) : [coin].forM Coin.check = coin.check := by
  change (coin.check >>= fun _ => Except.ok ()) = _
  cases coin.check <;> rfl

theorem send_eq (l : Ledger) (sender receiver : String) (h : coin.denom ≠ "") :
    l.send sender receiver [coin] =
      if coin.isZero then .ok l else l.move sender receiver coin := by
  rw [send, forM_check, Coin.check, if_neg h]
  cases hzero : coin.isZero with
  | true => simp [hzero, pure, Except.pure]
  | false =>
    simp only [List.filter_cons, hzero, Bool.not_false, if_true, List.filter_nil, List.foldlM_cons,
      List.foldlM_nil, Bool.false_eq_true, if_false]
    exact bind_pure _

theorem send_of_unnamed (l : Ledger) (sender receiver : String) (h : coin.denom = "") :
    l.send sender receiver [coin] = .error (.validation .emptyCoinDenom) := by
  rw [send, forM_check, Coin.check, if_pos h]

theorem send_denom (h : l.send sender receiver [coin] = .ok l') : coin.denom ≠ "" := by
  intro hdenom
  rw [send_of_unnamed l sender receiver hdenom] at h
  exact absurd h nofun

theorem send_ok (h : l.send sender receiver [coin] = .ok l') :
    l.Moved sender receiver coin l' := by
  rw [send_eq l sender receiver (send_denom h)] at h
  split at h
  next hzero => exact (Except.ok.inj h) ▸ .nothing l sender receiver hzero
  next => exact move_ok h

theorem send_run (hdenom : coin.denom ≠ "")
    (hfunds : coin.amount.toNat ≤ l.funds sender coin.denom)
    (hsupply : l.supply coin.denom < Amount.size) :
    ∃ l', l.send sender receiver [coin] = .ok l' ∧ l.Moved sender receiver coin l' := by
  have hrun : ∃ l', l.send sender receiver [coin] = .ok l' := by
    rw [send_eq l sender receiver hdenom]
    split
    · exact ⟨l, rfl⟩
    · exact move_run hfunds hsupply
  obtain ⟨l', hrun⟩ := hrun
  exact ⟨l', hrun, send_ok hrun⟩

theorem send_of_lt (hdenom : coin.denom ≠ "")
    (hfunds : l.funds sender coin.denom < coin.amount.toNat) :
    l.send sender receiver [coin] = .error (.insufficientFunds sender coin.write
      (Coin.write ⟨coin.denom, l.balance sender coin.denom⟩)) := by
  rw [send_eq l sender receiver hdenom, if_neg, move, debit_of_lt hfunds]
  · rfl
  · rw [Coin.isZero, Amount.isZero_iff]
    omega

/-- A move asks only for balances of its denomination. -/
theorem send_congr (sender receiver : String)
    (h : ∀ a, l'.funds a coin.denom = l.funds a coin.denom) :
    (∃ m m', l.send sender receiver [coin] = .ok m ∧ l'.send sender receiver [coin] = .ok m') ∨
      ∃ e, l.send sender receiver [coin] = .error e ∧
        l'.send sender receiver [coin] = .error e := by
  have hbalance : ∀ a, l'.balance a coin.denom = l.balance a coin.denom := fun a => Amount.ext (h a)
  by_cases hdenom : coin.denom = ""
  · exact .inr ⟨_, send_of_unnamed l sender receiver hdenom,
      send_of_unnamed l' sender receiver hdenom⟩
  rw [send_eq l sender receiver hdenom, send_eq l' sender receiver hdenom]
  cases coin.isZero with
  | true => exact .inl ⟨l, l', rfl, rfl⟩
  | false =>
    rw [if_neg nofun, if_neg nofun, move, move, debit_eq, debit_eq, hbalance]
    cases (l.balance sender coin.denom).sub? coin.amount with
    | none => exact .inr ⟨_, rfl, rfl⟩
    | some rest =>
      have hreceiver : (l'.set sender coin.denom rest).balance receiver coin.denom =
          (l.set sender coin.denom rest).balance receiver coin.denom := by
        rw [balance_set, balance_set, hbalance]
      change (∃ m m', credit _ _ _ = .ok m ∧ credit _ _ _ = .ok m') ∨
        ∃ e, credit _ _ _ = .error e ∧ credit _ _ _ = .error e
      unfold credit
      rw [hreceiver]
      cases ((l.set sender coin.denom rest).balance receiver coin.denom).add? coin.amount with
      | none => exact .inr ⟨_, rfl, rfl⟩
      | some sum => exact .inl ⟨_, _, rfl, rfl⟩

theorem mint_ok (h : l.mint account coin = .ok l') : l.Gained account coin l' := by
  unfold mint at h
  split at h
  · exact absurd h nofun
  · exact credit_ok h

theorem mint_run (hdenom : coin.denom ≠ "")
    (h : l.funds account coin.denom + coin.amount.toNat < Amount.size) :
    ∃ l', l.mint account coin = .ok l' ∧ l.Gained account coin l' := by
  obtain ⟨l', hrun, hgained⟩ := credit_run h
  refine ⟨l', ?_, hgained⟩
  rw [mint, Coin.check, if_neg hdenom]
  exact hrun

end Ledger

/-! ## Actions on the ledger -/

section

variable {l l' : Ledger} {sender receiver account : String} {coins : List Coin} {coin : Coin}
variable {e : RouterError} {α : Type}

theorem LedgerM.send_eq_ok :
    LedgerM.send sender receiver coins l = .ok () l' ↔ l.send sender receiver coins = .ok l' := by
  unfold LedgerM.send
  cases l.send sender receiver coins <;> simp

/-- A move that fails changes nothing. -/
theorem LedgerM.send_eq_error : LedgerM.send sender receiver coins l = .error e l' ↔
    l.send sender receiver coins = .error e ∧ l = l' := by
  unfold LedgerM.send
  cases l.send sender receiver coins <;> simp

theorem LedgerM.mint_eq_ok :
    LedgerM.mint account coin l = .ok () l' ↔ l.mint account coin = .ok l' := by
  unfold LedgerM.mint
  cases l.mint account coin <;> simp

theorem LedgerM.mint_eq_error : LedgerM.mint account coin l = .error e l' ↔
    l.mint account coin = .error e ∧ l = l' := by
  unfold LedgerM.mint
  cases l.mint account coin <;> simp

variable {act : LedgerM α} {a : α}

theorem BooksM.onLedger_eq_ok {b b' : Books} : BooksM.onLedger act b = .ok a b' ↔
    ∃ l, act b.ledger = .ok a l ∧ { b with ledger := l } = b' :=
  zoom_eq_ok

theorem BooksM.onLedger_eq_error {b b' : Books} : BooksM.onLedger act b = .error e b' ↔
    ∃ l, act b.ledger = .error e l ∧ { b with ledger := l } = b' := by
  refine zoom_eq_error.trans ⟨?_, ?_⟩
  · rintro ⟨_, l, h, rfl, rfl⟩
    exact ⟨l, h, rfl⟩
  · rintro ⟨l, h, rfl⟩
    exact ⟨e, l, h, rfl, rfl⟩

theorem RouterM.onLedger_eq_ok {w w' : World} : RouterM.onLedger act w = .ok a w' ↔
    ∃ l, act w.books.ledger = .ok a l ∧
      { w with books := { w.books with ledger := l } } = w' := by
  rw [RouterM.onLedger, RouterM.onBooks]
  constructor
  · intro h
    obtain ⟨b, hbooks, rfl⟩ := zoom_eq_ok.1 h
    obtain ⟨l, hledger, rfl⟩ := BooksM.onLedger_eq_ok.1 hbooks
    exact ⟨l, hledger, rfl⟩
  · rintro ⟨l, h, rfl⟩
    exact zoom_eq_ok.2 ⟨_, BooksM.onLedger_eq_ok.2 ⟨l, h, rfl⟩, rfl⟩

theorem RouterM.onLedger_eq_error {w w' : World} : RouterM.onLedger act w = .error e w' ↔
    ∃ l, act w.books.ledger = .error e l ∧
      { w with books := { w.books with ledger := l } } = w' := by
  rw [RouterM.onLedger, RouterM.onBooks]
  constructor
  · intro h
    obtain ⟨_, b, hbooks, rfl, rfl⟩ := zoom_eq_error.1 h
    obtain ⟨l, hledger, rfl⟩ := BooksM.onLedger_eq_error.1 hbooks
    exact ⟨l, hledger, rfl⟩
  · rintro ⟨l, h, rfl⟩
    exact zoom_eq_error.2 ⟨e, _, BooksM.onLedger_eq_error.2 ⟨l, h, rfl⟩, rfl, rfl⟩

end

end TransferRouter
