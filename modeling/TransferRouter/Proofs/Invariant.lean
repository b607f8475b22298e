import TransferRouter.Proofs.World
import TransferRouter.Registry

/-!
Invariants. An action upholds a predicate of the state when it leaves it true wherever it finds it
true, whether the action succeeds or fails; along with it go what is known of the result and what is
known of the error. There is one lemma for each way to build an action, so that an action is gone
through in the order of its steps, and what a step makes known is there for those after it. For what
does not touch the state, there is only the error to speak of.
-/

namespace TransferRouter

variable {ε ε' σ τ α β : Type}

/-- A computation does not fail, or else with an error that satisfies `E`. -/
def FailsIn (E : ε → Prop) (x : Except ε α) : Prop := ∀ e, x = .error e → E e

namespace FailsIn

variable {E : ε → Prop}

theorem ok {a : α} : FailsIn E (.ok a) := nofun

theorem error {e : ε} (h : E e) : FailsIn E (.error e : Except ε α) := fun _ he =>
  Except.error.inj he ▸ h

theorem bind {x : Except ε α} {f : α → Except ε β} (h : FailsIn E x)
    (hf : ∀ a, FailsIn E (f a)) : FailsIn E (x >>= f) := by
  cases x with
  | error e => exact error (h e rfl)
  | ok a => exact hf a

theorem map {x : Except ε α} {f : α → β} (h : FailsIn E x) : FailsIn E (x.map f) := by
  cases x with
  | error e => exact error (h e rfl)
  | ok a => exact ok

theorem foldlM {f : β → α → Except ε β} (h : ∀ b a, FailsIn E (f b a)) (as : List α) (b : β) :
    FailsIn E (as.foldlM f b) := by
  induction as generalizing b with
  | nil => exact ok
  | cons a as ih =>
    rw [List.foldlM_cons]
    exact (h b a).bind ih

end FailsIn

/-- From a state that satisfies `P` an action leaves one that does. Its result satisfies `Q`, its
error `E`. -/
def Upholds (P : σ → Prop) (E : ε → Prop) (act : EStateM ε σ α) (Q : α → Prop) : Prop :=
  ∀ s, P s → match act s with
    | .ok a t => P t ∧ Q a
    | .error e t => P t ∧ E e

namespace Upholds

variable {P : σ → Prop} {E : ε → Prop} {Q Q' : α → Prop} {R : β → Prop} {act : EStateM ε σ α}

theorem ok (h : Upholds P E act Q) {s t : σ} {a : α} (hs : P s) (hact : act s = .ok a t) :
    P t ∧ Q a := by
  have hrun := h s hs
  rwa [hact] at hrun

theorem error (h : Upholds P E act Q) {s t : σ} {e : ε} (hs : P s) (hact : act s = .error e t) :
    P t ∧ E e := by
  have hrun := h s hs
  rwa [hact] at hrun

theorem intro (hok : ∀ s a t, P s → act s = .ok a t → P t ∧ Q a)
    (herror : ∀ s e t, P s → act s = .error e t → P t ∧ E e) : Upholds P E act Q := by
  intro s hs
  cases hact : act s with
  | ok a t => exact hok s a t hs hact
  | error e t => exact herror s e t hs hact

theorem leaves (h : Upholds P E act Q) {s : σ} (hs : P s) : P (leaves act s) := by
  cases hact : act s with
  | ok a t => exact leaves_of_ok hact ▸ (h.ok hs hact).1
  | error e t => exact leaves_of_error hact ▸ (h.error hs hact).1

theorem weaken (h : Upholds P E act Q) (hQ : ∀ a, Q a → Q' a) : Upholds P E act Q' :=
  intro (fun _ a _ hs hact => ⟨(h.ok hs hact).1, hQ a (h.ok hs hact).2⟩)
    fun _ _ _ hs hact => h.error hs hact

/-- An action whose result is of no consequence. -/
theorem any (h : Upholds P E act Q) : Upholds P E act fun _ => True := h.weaken fun _ _ => trivial

theorem pure {a : α} (h : Q a) : Upholds P E (Pure.pure a : EStateM ε σ α) Q := fun _ hs => ⟨hs, h⟩

theorem done : Upholds P E (Pure.pure () : EStateM ε σ Unit) fun _ => True := pure trivial

theorem throw {e : ε} (h : E e) : Upholds P E (MonadExcept.throw e : EStateM ε σ α) Q :=
  fun _ hs => ⟨hs, h⟩

theorem get : Upholds P E (MonadState.get : EStateM ε σ σ) P := fun _ hs => ⟨hs, hs⟩

theorem modify {f : σ → σ} (h : ∀ s, P s → P (f s)) :
    Upholds P E (modifyGet (fun s => (PUnit.unit, f s)) : EStateM ε σ PUnit) fun _ => True :=
  fun s hs => ⟨h s hs, trivial⟩

theorem settle {wrap : ε' → ε} {x : Except ε' α} (h : FailsIn (fun e => E (wrap e)) x) :
    Upholds P E (TransferRouter.settle wrap x : EStateM ε σ α) fun a => x = .ok a := by
  cases x with
  | ok a => exact pure rfl
  | error e => exact throw (h e rfl)

theorem settled {x : Except ε α} (h : FailsIn E x) :
    Upholds P E (TransferRouter.settle id x : EStateM ε σ α) fun a => x = .ok a := settle h

theorem bind {f : α → EStateM ε σ β} (h : Upholds P E act Q)
    (hf : ∀ a, Q a → Upholds P E (f a) R) : Upholds P E (act >>= f) R := by
  refine intro (fun s b t hs hact => ?_) fun s e t hs hact => ?_
  · obtain ⟨a, u, h₁, h₂⟩ := bind_eq_ok.1 hact
    obtain ⟨hu, ha⟩ := h.ok hs h₁
    exact (hf a ha).ok hu h₂
  · rcases bind_eq_error.1 hact with h₁ | ⟨a, u, h₁, h₂⟩
    · exact h.error hs h₁
    · obtain ⟨hu, ha⟩ := h.ok hs h₁
      exact (hf a ha).error hu h₂

theorem ite {p : Prop} [Decidable p] {act' : EStateM ε σ α} (h : p → Upholds P E act Q)
    (h' : ¬ p → Upholds P E act' Q) : Upholds P E (if p then act else act') Q := by
  split
  next hp => exact h hp
  next hp => exact h' hp

theorem forM {f : β → EStateM ε σ PUnit} {bs : List β}
    (h : ∀ b ∈ bs, Upholds P E (f b) fun _ => True) :
    Upholds P E (bs.forM f) fun _ => True := by
  induction bs with
  | nil => exact pure trivial
  | cons b bs ih =>
    exact bind (h b List.mem_cons_self) fun _ _ => ih fun c hc => h c (List.mem_cons_of_mem _ hc)

theorem zoom {view : σ → τ} {update : σ → τ → σ} {wrap : ε' → ε} {P' : τ → Prop} {E' : ε' → Prop}
    {act : EStateM ε' τ α} (h : Upholds P' E' act Q) (hview : ∀ s, P s → P' (view s))
    (hupdate : ∀ s t, P s → P' t → P (update s t)) (hwrap : ∀ e, E' e → E (wrap e)) :
    Upholds P E (TransferRouter.zoom view update wrap act) Q := by
  refine intro (fun s a s' hs hact => ?_) fun s e s' hs hact => ?_
  · obtain ⟨t, ht, rfl⟩ := zoom_eq_ok.1 hact
    obtain ⟨hP, hQ⟩ := h.ok (hview s hs) ht
    exact ⟨hupdate s t hs hP, hQ⟩
  · obtain ⟨cause, t, ht, rfl, rfl⟩ := zoom_eq_error.1 hact
    obtain ⟨hP, hE⟩ := h.error (hview s hs) ht
    exact ⟨hupdate s t hs hP, hwrap cause hE⟩

theorem wrapping {wrap : ε' → ε} {E' : ε' → Prop} {act : EStateM ε' σ α} (h : Upholds P E' act Q)
    (hwrap : ∀ e, E' e → E (wrap e)) : Upholds P E (TransferRouter.wrapping wrap act) Q :=
  h.zoom (fun _ hs => hs) (fun _ _ _ ht => ht) hwrap

theorem attempt {P : World → Prop} {E E' : RouterError → Prop} {act : RouterM Unit}
    (h : Upholds P E' act fun _ => True) :
    Upholds P E (RouterM.attempt act) fun _ => True := by
  refine intro (fun w a w' hw hact => ?_) fun w e w' _ hact => (attempt_ne_error hact).elim
  rcases attempt_eq_ok.1 hact with hact | ⟨e, hact⟩
  · exact ⟨(h.ok hw hact).1, trivial⟩
  · exact ⟨(h.error hw hact).1, trivial⟩

theorem tentatively {P : Stage → Prop} {E : RouterError → Prop} {act : StageM α}
    (h : Upholds P E act Q) (hP : ∀ s t, P s → P t → P { t with transfer := s.transfer }) :
    Upholds P E (StageM.tentatively act) Q := by
  refine intro (fun s a t hs hact => h.ok hs (tentatively_eq_ok.1 hact)) fun s e t hs hact => ?_
  obtain ⟨u, hu, rfl⟩ := tentatively_eq_error.1 hact
  obtain ⟨hu', he⟩ := h.error hs hu
  exact ⟨hP s u hs hu', he⟩

end Upholds

/-! ## Errors -/

/-- True when a failure, or what it wraps, is one of the store. -/
def RouterError.blamesStore : RouterError → Bool
  | storage _ => true
  | actionFailed _ cause | forwardingFailed _ cause => cause.blamesStore
  | _ => false

/-- Failures that have nothing to do with the store. -/
abbrev RouterError.Blameless (e : RouterError) : Prop := e.blamesStore = false

/-- Kinds of failures to which all belong that have nothing to do with the store, and with a failure
all that wrap it. -/
class Lenient (E : RouterError → Prop) : Prop where
  blameless : ∀ {e : RouterError}, e.Blameless → E e
  action : ∀ {id : ActionId} {e : RouterError}, E e → E (.actionFailed id e)
  forwarding : ∀ {id : ProtocolId} {e : RouterError}, E e → E (.forwardingFailed id e)

instance : Lenient RouterError.Blameless := ⟨id, id, id⟩

instance : Lenient fun _ => True := ⟨fun _ => trivial, id, id⟩

export Lenient (blameless)

section

variable {P : σ → Prop} {E : RouterError → Prop} [Lenient E]

theorem Upholds.checked (x : Except Invalid α) :
    Upholds P E (TransferRouter.checked x) fun a => x = .ok a :=
  .settle fun _ _ => blameless rfl

theorem Registry.failsIn_require {κ ρ : Type} [DecidableEq κ] [RouteKey κ] (r : Registry κ ρ)
    (key : κ) : FailsIn E (r.require key) := by
  unfold require
  split
  · exact .ok
  · exact .error (blameless rfl)

theorem Upholds.require {κ ρ : Type} [DecidableEq κ] [RouteKey κ] (r : Registry κ ρ) (key : κ) :
    Upholds P E (TransferRouter.settle id (r.require key) : EStateM _ σ ρ)
      fun handler => r.require key = .ok handler :=
  .settled (r.failsIn_require key)

namespace Ledger

theorem failsIn_credit (l : Ledger) (account : String) (coin : Coin) :
    FailsIn E (l.credit account coin) := by
  unfold credit
  split
  · exact .ok
  · exact .error (blameless rfl)

theorem failsIn_debit (l : Ledger) (account : String) (coin : Coin) :
    FailsIn E (l.debit account coin) := by
  simp only [debit]
  split
  · exact .ok
  · exact .error (blameless rfl)

theorem failsIn_mint (l : Ledger) (account : String) (coin : Coin) :
    FailsIn E (l.mint account coin) := by
  unfold mint
  split
  · exact .error (blameless rfl)
  · exact l.failsIn_credit account coin

theorem failsIn_send (l : Ledger) (sender receiver : String) (coins : List Coin) :
    FailsIn E (l.send sender receiver coins) := by
  unfold send
  split
  · exact .error (blameless rfl)
  · exact .foldlM (fun l coin => (l.failsIn_debit sender coin).bind fun l' =>
      l'.failsIn_credit receiver coin) _ l

end Ledger

theorem upholds_send (sender receiver : String) (coins : List Coin) :
    Upholds (fun _ => True) E (LedgerM.send sender receiver coins) fun _ => True := by
  intro l _
  unfold LedgerM.send
  cases h : l.send sender receiver coins with
  | ok l' => exact ⟨trivial, trivial⟩
  | error e => exact ⟨trivial, l.failsIn_send sender receiver coins e h⟩

theorem upholds_mint (account : String) (coin : Coin) :
    Upholds (fun _ => True) E (LedgerM.mint account coin) fun _ => True := by
  intro l _
  unfold LedgerM.mint
  cases h : l.mint account coin with
  | ok l' => exact ⟨trivial, trivial⟩
  | error e => exact ⟨trivial, l.failsIn_mint account coin e h⟩

end

end TransferRouter
