import TransferRouter.Genesis
import TransferRouter.Proofs.Action

/-!
What a check that passes tells. Each check is said to pass exactly when what it refuses is not the
case; a forwarding that passes names an endpoint.
-/

namespace TransferRouter

section

variable {ε α : Type} {p : Prop} [Decidable p] {e : ε}

theorem check_then_eq_ok {x : Except ε PUnit} {f : PUnit → Except ε α} {a : α} :
    (x >>= f) = .ok a ↔ x = .ok ⟨⟩ ∧ f ⟨⟩ = .ok a := by
  rw [except_bind_eq_ok]
  exact ⟨fun ⟨_, h⟩ => h, fun h => ⟨⟨⟩, h⟩⟩

theorem refuse_eq_ok : (if p then throw e else pure () : Except ε Unit) = .ok () ↔ ¬ p := by
  by_cases h : p
  · rw [if_pos h]
    exact iff_of_false nofun fun hp => hp h
  · rw [if_neg h]
    exact iff_of_true rfl h

theorem refuse_then_eq_ok {f : PUnit → Except ε α} {a : α} :
    (if p then throw e >>= f else f ⟨⟩) = .ok a ↔ ¬ p ∧ f ⟨⟩ = .ok a := by
  by_cases h : p
  · rw [if_pos h]
    exact iff_of_false nofun fun hp => hp.1 h
  · rw [if_neg h]
    exact ⟨fun hf => ⟨h, hf⟩, fun hf => hf.2⟩

theorem forM_eq_ok {f : α → Except ε Unit} {as : List α} :
    as.forM f = .ok () ↔ ∀ a ∈ as, f a = .ok () := by
  induction as with
  | nil => exact ⟨fun _ _ h => absurd h List.not_mem_nil, fun _ => rfl⟩
  | cons a as ih =>
    rw [List.forall_mem_cons, ← ih]
    exact check_then_eq_ok

end

/-! ## Identifiers -/

theorem ProtocolId.check_eq_ok {p : ProtocolId} : p.check = .ok () ↔ p ≠ .unsupported := by
  cases p <;> simp [check]

theorem ActionId.check_eq_ok {a : ActionId} : a.check = .ok () ↔ a ≠ .unsupported := by
  cases a <;> simp [check]

theorem CrossChainId.check_eq_ok {id : CrossChainId} :
    id.check = .ok () ↔ id.protocol.check = .ok () ∧ id.counterparty ≠ "" := by
  unfold check
  simp only [check_then_eq_ok, refuse_eq_ok]

theorem CrossChainId.make_eq_ok {id : CrossChainId} (h : id.check = .ok ()) :
    CrossChainId.make id.protocol id.counterparty = .ok id := by
  change (id.check >>= fun _ => .ok id) = _
  rw [h]
  rfl

theorem CrossChainId.make_ok {protocol : ProtocolId} {counterparty : String} {id : CrossChainId}
    (h : CrossChainId.make protocol counterparty = .ok id) :
    id = ⟨protocol, counterparty⟩ ∧ id.check = .ok () := by
  obtain ⟨_, hcheck, hid⟩ := except_bind_eq_ok.1 h
  obtain rfl := Except.ok.inj hid
  exact ⟨rfl, hcheck⟩

/-! ## Transfers -/

theorem Coin.check_eq_ok {c : Coin} : c.check = .ok () ↔ c.denom ≠ "" := by
  unfold check
  by_cases h : c.denom = "" <;> simp [h]

theorem Transfer.check_eq_ok {t : Transfer} :
    t.check = .ok () ↔ t.sourceProtocol.check = .ok () ∧ t.sourceCounterparty ≠ "" ∧
      t.sourceDenom ≠ "" ∧ t.destinationDenom ≠ "" := by
  unfold check
  simp only [check_then_eq_ok, refuse_then_eq_ok, refuse_eq_ok]

theorem Config.check_eq_ok {c : Config} :
    c.check = .ok () ↔ c.authority ≠ "" ∧ c.accounts.holding ≠ "" ∧ c.accounts.dust ≠ "" ∧
      c.accounts.holding ≠ c.accounts.dust ∧ c.params.passthroughLimit ≠ 0 ∧
        c.pending.sweepLimit ≠ 0 := by
  unfold check
  simp only [refuse_then_eq_ok, refuse_eq_ok, ne_eq]

/-! ## Pre-actions -/

theorem FeeAttributes.checkShare_eq_ok {f : FeeShare} : checkShare f = .ok () ↔
    f.recipient ≠ "" ∧ f.basisPoints.toNat ≠ 0 ∧ f.basisPoints.toNat ≤ basisPointsOfWhole := by
  unfold checkShare
  simp only [refuse_then_eq_ok, refuse_eq_ok, not_or, Nat.not_lt]

theorem FeeAttributes.check_eq_ok {a : FeeAttributes} :
    a.check = .ok () ↔ a.fees ≠ [] ∧ (∀ f ∈ a.fees, checkShare f = .ok ()) ∧
      a.total ≤ basisPointsOfWhole := by
  unfold check
  rw [← Nat.not_lt, ← forM_eq_ok]
  simp only [refuse_then_eq_ok, check_then_eq_ok, refuse_eq_ok, ne_eq]

theorem Action.check_eq_ok {a : Action} :
    a.check = .ok () ↔ a.id.check = .ok () ∧ a.attributes.id = a.id ∧
      a.attributes.check = .ok () := by
  unfold check
  simp only [check_then_eq_ok, refuse_then_eq_ok, ne_eq, Decidable.not_not]

/-! ## Payloads and packets -/

theorem Forwarding.check_eq_ok {f : Forwarding} :
    f.check = .ok () ↔ f.protocol.check = .ok () ∧ f.attributes.protocol = f.protocol ∧
      f.attributes.check = .ok () := by
  unfold check
  simp only [check_then_eq_ok, refuse_then_eq_ok, ne_eq, Decidable.not_not]

theorem Payload.checkActions_eq_ok {actions : List Action} (index : Nat) :
    checkActions index actions = .ok () ↔ ∀ a ∈ actions, a.check = .ok () := by
  induction actions generalizing index with
  | nil => exact ⟨fun _ _ h => absurd h List.not_mem_nil, fun _ => rfl⟩
  | cons a rest ih =>
    rw [checkActions, List.forall_mem_cons]
    cases a.check with
    | ok _ => simp [ih]
    | error cause => simp

theorem Payload.check_eq_ok {p : Payload} :
    p.check = .ok () ↔ p.forwarding.check = .ok () ∧ ∀ a ∈ p.preActions, a.check = .ok () := by
  unfold check
  rw [check_then_eq_ok, checkActions_eq_ok]

theorem RoutedPacket.check_eq_ok {p : RoutedPacket} :
    p.check = .ok () ↔ p.transfer.check = .ok () ∧ p.payload.check = .ok () := by
  unfold check
  rw [check_then_eq_ok]

theorem Decimal.print_ne_empty (n : Nat) : Decimal.print n ≠ "" := by
  simp [print]

theorem ForwardingAttributes.counterparty_ne_empty {a : ForwardingAttributes}
    (h : a.check = .ok ()) : a.counterparty ≠ "" := by
  cases a with
  | ibc attributes =>
    unfold check at h
    simp only [refuse_then_eq_ok] at h
    exact h.1
  | cctp attributes => exact Decimal.print_ne_empty _
  | hyperlane attributes => exact Decimal.print_ne_empty _

/-- A forwarding that is in order names its endpoint. -/
theorem Forwarding.destination_of_check {f : Forwarding} (h : f.check = .ok ()) :
    f.destination = .ok ⟨f.protocol, f.attributes.counterparty⟩ := by
  obtain ⟨hprotocol, -, hattributes⟩ := check_eq_ok.1 h
  have hendpoint : CrossChainId.check ⟨f.protocol, f.attributes.counterparty⟩ = .ok () :=
    CrossChainId.check_eq_ok.2
      ⟨hprotocol, ForwardingAttributes.counterparty_ne_empty hattributes⟩
  exact check_then_eq_ok.2 ⟨hendpoint, rfl⟩

/-! ## Imports -/

theorem Params.check_eq_ok {p : Params} : p.check = .ok () ↔ p.passthroughLimit ≠ 0 := by
  unfold check
  by_cases h : p.passthroughLimit = 0 <;> simp [h]

theorem Genesis.checkDistinct_eq_ok {α : Type} [DecidableEq α] {check : α → Except Invalid Unit}
    {repeated : α → Invalid} {seen as : List α} :
    checkDistinct check repeated seen as = .ok () ↔
      (∀ a ∈ as, check a = .ok () ∧ a ∉ seen) ∧ as.Nodup := by
  induction as generalizing seen with
  | nil => exact iff_of_true rfl ⟨fun _ h => absurd h List.not_mem_nil, List.nodup_nil⟩
  | cons a as ih =>
    rw [checkDistinct, check_then_eq_ok, refuse_then_eq_ok, ih, List.forall_mem_cons,
      List.nodup_cons]
    constructor
    · rintro ⟨ha, hfresh, has, hnodup⟩
      refine ⟨⟨⟨ha, hfresh⟩, fun b hb => ⟨(has b hb).1, fun h => ?_⟩⟩, fun h => ?_, hnodup⟩
      · exact (has b hb).2 (List.mem_cons_of_mem a h)
      · exact (has a h).2 List.mem_cons_self
    · rintro ⟨⟨⟨ha, hfresh⟩, has⟩, hnew, hnodup⟩
      refine ⟨ha, hfresh, fun b hb => ⟨(has b hb).1, fun h => ?_⟩, hnodup⟩
      rcases List.mem_cons.1 h with rfl | h
      · exact hnew hb
      · exact (has b hb).2 h

/-- The parameters are positive, nothing that is paused has a reserved or malformed name, and
nothing is paused twice. -/
structure Genesis.Valid (g : Genesis) : Prop where
  params : g.params.passthroughLimit ≠ 0
  actions : ∀ a ∈ g.pausedActions, a ≠ .unsupported
  protocols : ∀ p ∈ g.pausedProtocols, p ≠ .unsupported
  routes : ∀ route ∈ g.pausedRoutes, route.protocol ≠ .unsupported ∧ route.counterparty ≠ ""
  nodup_actions : g.pausedActions.Nodup
  nodup_protocols : g.pausedProtocols.Nodup
  nodup_routes : g.pausedRoutes.Nodup

theorem Genesis.check_eq_ok {g : Genesis} : g.check = .ok () ↔ g.Valid := by
  unfold check
  simp only [check_then_eq_ok, checkDistinct_eq_ok, Params.check_eq_ok, ActionId.check_eq_ok,
    ProtocolId.check_eq_ok, CrossChainId.check_eq_ok, List.not_mem_nil, not_false_eq_true, and_true]
  constructor
  · rintro ⟨hparams, ⟨ha, hna⟩, ⟨hp, hnp⟩, hr, hnr⟩
    exact ⟨hparams, ha, hp, hr, hna, hnp, hnr⟩
  · rintro ⟨hparams, ha, hp, hr, hna, hnp, hnr⟩
    exact ⟨hparams, ⟨ha, hna⟩, ⟨hp, hnp⟩, hr, hnr⟩

end TransferRouter
