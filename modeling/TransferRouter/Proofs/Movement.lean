import TransferRouter.Proofs.Ledger
import TransferRouter.Proofs.Wiring

/-!
Where pre-actions move coins. Fees and swaps only pass coins from hand to hand: no supply changes,
and an account sees nothing of it unless it is the holding account, the recipient of a fee or, where
something is swapped, the pool. This holds whether they succeed or fail.
-/

namespace TransferRouter

open Testbed (holding)

variable {P : String → Prop}

/-- Coins went from hand to hand among the accounts that satisfy `P`. -/
structure Ledger.Among (P : String → Prop) (l l' : Ledger) : Prop where
  supply : ∀ d, l'.supply d = l.supply d
  funds : ∀ a, ¬ P a → ∀ d, l'.funds a d = l.funds a d

def Books.Among (P : String → Prop) (b b' : Books) : Prop := b.ledger.Among P b'.ledger

instance : IsPreorder Ledger (Ledger.Among P) where
  refl _ := ⟨fun _ => rfl, fun _ _ _ => rfl⟩
  trans _ _ _ h h' :=
    ⟨fun d => (h'.supply d).trans (h.supply d),
      fun a ha d => (h'.funds a ha d).trans (h.funds a ha d)⟩

instance : IsPreorder Books (Books.Among P) where
  refl b := refl_of (Ledger.Among P) b.ledger
  trans _ _ _ h h' := trans_of (Ledger.Among P) h h'

theorem Ledger.Moved.among {l l' : Ledger} {sender receiver : String} {coin : Coin}
    (h : l.Moved sender receiver coin l') (hsender : P sender) (hreceiver : P receiver) :
    l.Among P l' where
  supply := h.supply
  funds a ha d := by
    apply h.funds_of_ne
    · rintro rfl
      exact ha hsender
    · rintro rfl
      exact ha hreceiver

theorem among_send {sender receiver : String} (hsender : P sender) (hreceiver : P receiver)
    (coin : Coin) :
    Keeps (Books.Among P) (BooksM.onLedger (LedgerM.send sender receiver [coin])) := by
  apply Keeps.intro
  · intro b _ b' h
    obtain ⟨l, hsend, rfl⟩ := BooksM.onLedger_eq_ok.1 h
    exact (Ledger.send_ok (LedgerM.send_eq_ok.1 hsend)).among hsender hreceiver
  · intro b e b' h
    obtain ⟨l, hsend, rfl⟩ := BooksM.onLedger_eq_error.1 h
    obtain ⟨-, rfl⟩ := LedgerM.send_eq_error.1 hsend
    exact refl_of (Ledger.Among P) b.ledger

theorem among_charge : Books.AllowsCharge (Books.Among P) :=
  fun b _ _ => refl_of (Ledger.Among P) b.ledger

theorem among_execute {D : Disk → Disk → Prop} [Disk.AllowsReads D] {r : Router} (hr : r.Fitted)
    (hholding : P holding) {action : Action} (haction : ∀ a, action.Reaches a → P a) :
    Keeps (Stage.Within D (Books.Among P) Anything) (r.execute action) := by
  apply keeps_execute
  intro c hc
  cases hid : action.id with
  | unsupported =>
    rw [hid, hr.reserved] at hc
    exact absurd hc nofun
  | fee =>
    rw [hid, hr.fee] at hc
    obtain rfl := Option.some.inj hc
    exact Fee.keeps_run among_charge fun a ha => among_send hholding (haction a ha)
  | swap =>
    rw [hid, hr.swap] at hc
    obtain rfl := Option.some.inj hc
    exact Testbed.keeps_swap fun a ha coin =>
      ⟨among_send hholding (haction a ha) coin, among_send (haction a ha) hholding coin⟩

/-- However the pre-actions of a payload end, coins moved only among those that they are about. -/
theorem among_executeAll {D : Disk → Disk → Prop} [Disk.AllowsReads D] {r : Router}
    (hr : r.Fitted) (hholding : P holding) {actions : List Action}
    (hactions : ∀ action ∈ actions, ∀ a, action.Reaches a → P a) :
    Keeps (Stage.Within D (Books.Among P) Anything) (executeAll r.execute actions) :=
  keeps_executeAll_of fun action haction => among_execute hr hholding (hactions action haction)

end TransferRouter
