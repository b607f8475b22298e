import TransferRouter.Proofs.Breaker
import TransferRouter.Proofs.Conservation
import TransferRouter.Proofs.Trace

/-!
Who is let through. A packet reaches the handler that it is routed to exactly when it passes a row
of conditions, and else it fails with the kind of the first that does not hold and nothing is
changed. What the conditions say of the breakers is said with the three sets that the calls on the
breakers make, for texts of any length: the names of routes are looked up as they were written.
-/

namespace TransferRouter

/-! ## Conditions in a row -/

/-- Conditions in the order in which they are checked, each with the kind of the failure when it
does not hold. -/
abbrev Conditions := List (Prop × ErrorKind)

namespace Conditions

def Hold (cs : Conditions) : Prop := ∀ c ∈ cs, c.1

/-- There is a first condition that does not hold, and its failure is of the given kind. -/
def Break : Conditions → ErrorKind → Prop
  | [], _ => False
  | c :: cs, kind => ¬ c.1 ∧ c.2 = kind ∨ c.1 ∧ Break cs kind

theorem hold_or_break (cs : Conditions) : cs.Hold ∨ ∃ kind, cs.Break kind := by
  induction cs with
  | nil => exact .inl fun _ h => absurd h List.not_mem_nil
  | cons c cs ih =>
    by_cases hc : c.1
    · rcases ih with hold | ⟨kind, hbreak⟩
      · exact .inl (List.forall_mem_cons.2 ⟨hc, hold⟩)
      · exact .inr ⟨kind, .inr ⟨hc, hbreak⟩⟩
    · exact .inr ⟨c.2, .inl ⟨hc, rfl⟩⟩

end Conditions

variable {σ α β : Type}

/-- An action that does nothing but check conditions in a row. -/
structure Screens (cs : Conditions) (act : EStateM RouterError σ α) (s : σ) : Prop where
  pass : cs.Hold → ∃ a, act s = .ok a s
  refuse : ∀ kind, cs.Break kind → ∃ e, act s = .error e s ∧ e.kind = kind

namespace Screens

variable {cs : Conditions} {c : Prop} {kind : ErrorKind} {s : σ}

theorem done {act : EStateM RouterError σ α} {a : α} (h : act s = .ok a s) : Screens [] act s :=
  ⟨fun _ => ⟨a, h⟩, fun _ => False.elim⟩

theorem cons {act : EStateM RouterError σ α} (hpass : c → Screens cs act s)
    (hrefuse : ¬ c → ∃ e, act s = .error e s ∧ e.kind = kind) :
    Screens ((c, kind) :: cs) act s where
  pass h := (hpass (h _ List.mem_cons_self)).pass fun d hd => h d (List.mem_cons_of_mem _ hd)
  refuse := by
    rintro kind' (⟨hc, rfl⟩ | ⟨hc, hbreak⟩)
    · exact hrefuse hc
    · exact (hpass hc).refuse kind' hbreak

theorem skip {act : EStateM RouterError σ α} {f : α → EStateM RouterError σ β} {a : α}
    (h : act s = .ok a s) (hf : Screens cs (f a) s) : Screens cs (act >>= f) s := by
  refine ⟨?_, ?_⟩
  · rw [bind_of_ok h]
    exact hf.pass
  · rw [bind_of_ok h]
    exact hf.refuse

theorem check {x : Except Invalid Unit} {f : Unit → EStateM RouterError σ α} (hc : x = .ok () ↔ c)
    (hf : c → Screens cs (f ()) s) : Screens ((c, .validation) :: cs) (checked x >>= f) s := by
  refine cons (fun h => skip (checked_run (hc.2 h) s) (hf h)) fun h => ?_
  cases x with
  | ok _ => exact absurd (hc.1 rfl) h
  | error cause => exact ⟨.validation cause, rfl, rfl⟩

/-- A breaker that is open ends the action. -/
theorem gate {ask : EStateM RouterError σ Bool} {open? : Prop} [Decidable open?] {gate : Gate}
    {rest : EStateM RouterError σ α} (hask : ask s = .ok (decide open?) s)
    (hrest : Screens cs rest s) :
    Screens ((¬ open?, .paused) :: cs) (do
      if ← ask then
        throw (.paused gate)
      rest) s := by
  refine cons (fun h => ?_) fun h => ⟨.paused gate, ?_, rfl⟩
  · rw [decide_eq_false h] at hask
    exact skip hask hrest
  · rw [decide_eq_true (Decidable.not_not.1 h)] at hask
    exact bind_of_ok hask

theorem routed {κ ρ : Type} [DecidableEq κ] [RouteKey κ] (r : Registry κ ρ) (key : κ) :
    Screens [(∃ handler, r.route? key = some handler, .notFound)]
      (settle id (r.require key) : EStateM RouterError σ ρ) s := by
  refine cons (fun ⟨handler, h⟩ => done (a := handler) ?_) fun h => ?_
  · exact settle_eq_ok.2 ⟨Registry.require_eq_ok.2 h, rfl⟩
  · have hnone : r.route? key = none :=
      Option.eq_none_iff_forall_ne_some.2 fun handler hr => h ⟨handler, hr⟩
    refine ⟨.notFound (.route (RouteKey.number key)), ?_, rfl⟩
    rw [Registry.require, hnone]
    rfl

end Screens

/-! ## The sets behind the breakers -/

namespace Panel

/-- Different things of a family are kept under different keys. -/
def Separates {α : Type} (panel : Panel α) : Prop :=
  ∀ a b, (panel.key a).bytes = (panel.key b).bytes → a = b

theorem separates_actions : actions.Separates := fun _ _ => Key.pausedAction_inj

theorem separates_protocols : protocols.Separates := fun _ _ => Key.pausedProtocol_inj

theorem separates_routes : routes.Separates := by
  rintro ⟨p, c⟩ ⟨q, d⟩ h
  obtain ⟨rfl, rfl⟩ := Key.pausedRoute_inj_of_any h
  rfl

/-- The set tells which breakers of a family are open. -/
def Opens {α : Type} [DecidableEq α] (panel : Panel α) (s : Finset α) (store : Store) : Prop :=
  ∀ a, store.contains (panel.key a).bytes = decide (a ∈ s)

namespace Opens

variable {α : Type} [DecidableEq α] {panel : Panel α} {s : Finset α} {store : Store}

theorem empty (h : ∀ key, key.head? = some panel.front → store.get? key = none) :
    panel.Opens ∅ store := by
  intro a
  simp [OrderedMap.contains, h _ (panel.head?_key a)]

theorem turnAll (h : panel.Opens s store) (hpanel : panel.Separates) (paused : Bool)
    (named : List α) :
    panel.Opens (turned paused named s) (panel.turnAll paused named store) := by
  intro a
  have hnamed : (∃ b ∈ named, (panel.key b).bytes = (panel.key a).bytes) ↔ a ∈ named := by
    refine ⟨?_, fun ha => ⟨a, ha, rfl⟩⟩
    rintro ⟨b, hb, hkey⟩
    exact hpanel b a hkey ▸ hb
  rw [contains_turnAll, h a]
  by_cases ha : a ∈ named
  · rw [if_pos (hnamed.2 ha), Bool.eq_iff_iff, decide_eq_true_iff, mem_turned, if_pos ha]
  · rw [if_neg (mt hnamed.1 ha), Bool.eq_iff_iff, decide_eq_true_iff, decide_eq_true_iff,
      mem_turned, if_neg ha]

/-- A turn in one family is not seen in another. -/
theorem aside {β : Type} [DecidableEq β] {other : Panel β} {t : Finset β}
    (h : other.Opens t store) (hfront : other.front ≠ panel.front) (paused : Bool)
    (named : List α) : other.Opens t (panel.turnAll paused named store) := by
  intro b
  rw [contains_turnAll, if_neg, h b]
  rintro ⟨a, -, hkey⟩
  have hhead := congrArg List.head? hkey
  rw [head?_key, head?_key] at hhead
  exact hfront (Option.some.inj hhead).symm

end Opens

end Panel

/-- The three sets tell which breakers are open. -/
structure World.Opens (w : World) (p : Pauses) : Prop where
  reliable : w.disk.Reliable
  actions : Panel.actions.Opens p.actions w.disk.store
  protocols : Panel.protocols.Opens p.protocols w.disk.store
  routes : Panel.routes.Opens p.routes w.disk.store

namespace World.Opens

variable {w : World} {p : Pauses}

theorem empty (hw : w.disk.Reliable)
    (h : ∀ key, Key.IsBreaker key → w.disk.store.get? key = none) : w.Opens ⟨∅, ∅, ∅⟩ where
  reliable := hw
  actions := .empty fun key hkey => h key (.inl hkey)
  protocols := .empty fun key hkey => h key (.inr (.inl hkey))
  routes := .empty fun key hkey => h key (.inr (.inr hkey))

theorem turn (h : w.Opens p) (call : Toggle) : (call.turn w).Opens (p.after call) := by
  have hfront : Panel.actions.front ≠ Panel.protocols.front ∧
      Panel.actions.front ≠ Panel.routes.front ∧
      Panel.protocols.front ≠ Panel.routes.front := by
    decide
  obtain ⟨hap, har, hpr⟩ := hfront
  match call with
  | .action id paused =>
    exact ⟨h.reliable, h.actions.turnAll Panel.separates_actions paused [id],
      h.protocols.aside hap.symm _ _, h.routes.aside har.symm _ _⟩
  | .traffic protocol [] paused =>
    exact ⟨h.reliable, h.actions.aside hap _ _,
      h.protocols.turnAll Panel.separates_protocols paused [protocol], h.routes.aside hpr.symm _ _⟩
  | .traffic protocol (counterparty :: rest) paused =>
    exact ⟨h.reliable, h.actions.aside har _ _, h.protocols.aside hpr _ _,
      h.routes.turnAll Panel.separates_routes paused _⟩

/-- A call keeps the store and the sets together, whether it succeeds or fails. -/
theorem step (h : w.Opens p) (call : Toggle) :
    (Toggle.step (w, p) call).1.Opens (Toggle.step (w, p) call).2 := by
  by_cases hvalid : call.Valid
  · rw [Toggle.step_of_valid h.reliable hvalid]
    exact h.turn call
  · rw [Toggle.step_of_invalid hvalid]
    exact h

theorem run (h : w.Opens p) (calls : List Toggle) :
    (calls.foldl Toggle.step (w, p)).1.Opens (calls.foldl Toggle.step (w, p)).2 := by
  induction calls generalizing w p with
  | nil => exact h
  | cons call calls ih => exact ih (h.step call)

theorem isOpen_run {α : Type} [DecidableEq α] {panel : Panel α} {s : Finset α}
    (h : panel.Opens s w.disk.store) (hw : w.disk.Readable) (a : α) :
    Breaker.isOpen (panel.key a) w = .ok (decide (a ∈ s)) w :=
  h a ▸ contains_run hw (panel.key a).bytes

end World.Opens

/-! ## The conditions of a forwarding and of a pre-action -/

/-- An account holds a coin, which is not nothing, and no other. -/
structure Ledger.HoldsOnly (l : Ledger) (account : String) (coin : Coin) : Prop where
  some : coin.amount.toNat ≠ 0
  balance : ∀ denom, (l.balance account denom).toNat =
    if denom = coin.denom then coin.amount.toNat else 0

theorem checkHeld_eq_ok_iff {l : Ledger} {account : String} {coin : Coin} :
    checkHeld (l.balances account) coin = .ok () ↔ l.HoldsOnly account coin := by
  rw [checkHeld_eq_ok, Ledger.balances_eq_singleton_iff]
  exact ⟨fun h => ⟨Amount.isZero_eq_false_iff.1 h.1, h.2⟩,
    fun h => ⟨Amount.isZero_eq_false_iff.2 h.some, h.balance⟩⟩

namespace Router

/-- What a packet must meet to be handed to a forwarding controller. -/
def forwardConditions (r : Router) (p : Pauses) (l : Ledger) (packet : ForwardingPacket) :
    Conditions :=
  let f := packet.forwarding
  [(packet.check = .ok (), .validation), (f.protocol ∉ p.protocols, .paused),
    (⟨f.protocol, f.attributes.counterparty⟩ ∉ p.routes, .paused),
    (l.HoldsOnly r.config.accounts.holding packet.transfer.destinationCoin, .validation),
    (∃ c, r.forwarders.route? f.protocol = some c, .notFound)]

/-- What a packet must meet to be handed to an action controller. -/
def executeConditions (r : Router) (p : Pauses) (packet : ActionPacket) : Conditions :=
  [(packet.check = .ok (), .validation), (packet.action.id ∉ p.actions, .paused),
    (∃ c, r.actions.route? packet.action.id = some c, .notFound)]

/-- All that the execution of a pre-action does before it hands the transfer over. -/
def enable (r : Router) (action : Action) : StageM ActionController := do
  checked (ActionPacket.check ⟨(← get).transfer, action⟩)
  if ← StageM.onWorld (Breaker.isOpen (.pausedAction action.id)) then
    throw (.paused (.action action.id))
  settle id (r.actions.require action.id)

theorem execute_eq (r : Router) (action : Action) :
    r.execute action = r.enable action >>= fun c => StageM.onWorkbench (c.run action) := by
  unfold execute enable
  simp only [bind_assoc]
  congr 1
  funext s
  congr 1
  funext _
  congr 1
  funext paused
  cases paused with
  | true => rfl
  | false => simp only [Bool.false_eq_true, if_false]

variable {r : Router} {p : Pauses}

theorem screens_prepare {w : World} (h : w.Opens p) (packet : ForwardingPacket) :
    Screens (r.forwardConditions p w.books.ledger packet) (r.prepare packet) w := by
  refine .check Iff.rfl fun hcheck => ?_
  have hdestination := Forwarding.destination_of_check (check_then_eq_ok.1 hcheck).2
  refine .skip (checked_run hdestination w) ?_
  refine .gate (World.Opens.isOpen_run h.protocols h.reliable.readable _) ?_
  refine .gate (World.Opens.isOpen_run h.routes h.reliable.readable
    (⟨packet.forwarding.protocol, packet.forwarding.attributes.counterparty⟩ : CrossChainId)) ?_
  refine .skip (get_eq_ok.2 ⟨rfl, rfl⟩) ?_
  exact .check checkHeld_eq_ok_iff fun _ => .routed ..

theorem screens_enable {s : Stage} (h : s.world.Opens p) (action : Action) :
    Screens (r.executeConditions p ⟨s.transfer, action⟩) (r.enable action) s := by
  refine .skip (get_eq_ok.2 ⟨rfl, rfl⟩) ?_
  refine .check Iff.rfl fun _ => ?_
  have hask : StageM.onWorld (Breaker.isOpen (.pausedAction action.id)) s =
      .ok (decide (action.id ∈ p.actions)) s :=
    zoom_eq_ok.2 ⟨s.world, World.Opens.isOpen_run h.actions h.reliable.readable _, rfl⟩
  exact .gate hask (.routed ..)

end Router

/-! ## Handovers -/

theorem onWorld_bind (act : RouterM α) (f : α → RouterM β) :
    StageM.onWorld (act >>= f) = StageM.onWorld act >>= fun a => StageM.onWorld (f a) := by
  funext s
  cases hact : act s.world with
  | error e w =>
    have hrun : StageM.onWorld act s = .error e { s with world := w } :=
      zoom_eq_error.2 ⟨e, w, hact, rfl, rfl⟩
    rw [bind_of_error hrun]
    exact zoom_eq_error.2 ⟨e, w, bind_of_error hact, rfl, rfl⟩
  | ok a w =>
    have hrun : StageM.onWorld act s = .ok a { s with world := w } :=
      zoom_eq_ok.2 ⟨w, hact, rfl⟩
    rw [bind_of_ok hrun]
    unfold StageM.onWorld zoom
    rw [bind_of_ok hact]

theorem Screens.onWorld {cs : Conditions} {act : RouterM α} {s : Stage}
    (h : Screens cs act s.world) : Screens cs (StageM.onWorld act) s where
  pass hold := by
    obtain ⟨a, ha⟩ := h.pass hold
    exact ⟨a, zoom_eq_ok.2 ⟨s.world, ha, rfl⟩⟩
  refuse kind hbreak := by
    obtain ⟨e, he, hkind⟩ := h.refuse kind hbreak
    exact ⟨e, zoom_eq_error.2 ⟨e, s.world, he, rfl, rfl⟩, hkind⟩

namespace Traced

/-- An action hands something over exactly when all of some conditions hold, and then does what one
of some handlers does. Else it fails with the kind of the first condition that does not hold, and
nothing is handed over and nothing changed. -/
structure Guarded (x : Traced Unit) (act : StageM Unit) (cs : Conditions) (handover : Handover)
    (handler : StageM Unit → Prop) (s : Stage) : Prop where
  /-- Without the handovers noted it is the action. -/
  erase : x.erase = act
  handed : (x s).1 = [handover] ↔ cs.Hold
  outcome : cs.Hold → ∃ run, handler run ∧ act s = run s
  refusal : ∀ kind, cs.Break kind → (x s).1 = [] ∧ ∃ e, act s = .error e s ∧ e.kind = kind

theorem guarded_of_screens {γ : Type} {prepare : StageM γ} {run : γ → StageM Unit}
    {cs : Conditions} {handover : Transfer → Handover} {handler : StageM Unit → Prop} {s : Stage}
    (hscreens : Screens cs prepare s) (hhandler : ∀ c, prepare s = .ok c s → handler (run c)) :
    ((Traced.silent prepare).andThen fun c => .handing handover (run c)).Guarded
      (prepare >>= run) cs (handover s.transfer) handler s := by
  have hpass : cs.Hold → ∃ c, prepare s = .ok c s ∧
      ((Traced.silent prepare).andThen fun c => .handing handover (run c)) s =
        ([handover s.transfer], run c s) := by
    intro hold
    obtain ⟨c, hc⟩ := hscreens.pass hold
    exact ⟨c, hc, by simp only [andThen, silent, handing, hc, List.nil_append]⟩
  have hrefuse : ∀ kind, cs.Break kind → ∃ e, prepare s = .error e s ∧ e.kind = kind ∧
      ((Traced.silent prepare).andThen fun c => .handing handover (run c)) s =
        ([], .error e s) := by
    intro kind hbreak
    obtain ⟨e, he, hkind⟩ := hscreens.refuse kind hbreak
    exact ⟨e, he, hkind, by simp only [andThen, silent, he]⟩
  refine ⟨erase_andThen _ _, ⟨fun hhanded => ?_, fun hold => ?_⟩, fun hold => ?_, ?_⟩
  · rcases cs.hold_or_break with hold | ⟨kind, hbreak⟩
    · exact hold
    · obtain ⟨e, -, -, hrun⟩ := hrefuse kind hbreak
      rw [hrun] at hhanded
      exact (List.cons_ne_nil _ _ hhanded.symm).elim
  · obtain ⟨c, -, hrun⟩ := hpass hold
    rw [hrun]
  · obtain ⟨c, hc, -⟩ := hpass hold
    exact ⟨run c, hhandler c hc, bind_of_ok hc⟩
  · intro kind hbreak
    obtain ⟨e, he, hkind, hrun⟩ := hrefuse kind hbreak
    exact ⟨congrArg Prod.fst hrun, e, bind_of_error he, hkind⟩

end Traced

namespace Router

variable (r : Router)

/-- A forwarding with the packet that it hands to a controller. -/
def traceForward (packet : ForwardingPacket) : Traced Unit :=
  (Traced.silent (StageM.onWorld (r.prepare packet))).andThen fun c =>
    .handing (fun _ => .forwarding packet) (StageM.onWorld (RouterM.onBooks (c.send packet)))

/-- The execution of a pre-action with the packet that it hands to a controller. -/
def traceExecute (action : Action) : Traced Unit :=
  (Traced.silent (r.enable action)).andThen fun c =>
    .handing (fun transfer => .action ⟨transfer, action⟩) (StageM.onWorkbench (c.run action))

variable {r} {p : Pauses} {s : Stage}

theorem guarded_forward (h : s.world.Opens p) (packet : ForwardingPacket) :
    (r.traceForward packet).Guarded (StageM.onWorld (r.forward packet))
      (r.forwardConditions p s.world.books.ledger packet) (.forwarding packet)
      (fun run => ∃ c, r.forwarders.route? packet.forwarding.protocol = some c ∧
        run = StageM.onWorld (RouterM.onBooks (c.send packet))) s := by
  rw [forward_eq, onWorld_bind]
  refine Traced.guarded_of_screens (screens_prepare h packet).onWorld fun c hc => ⟨c, ?_, rfl⟩
  obtain ⟨w, hprepare, -⟩ := zoom_eq_ok.1 hc
  exact (prepare_ok hprepare).routed

theorem enable_ok {action : Action} {c : ActionController} {s' : Stage}
    (h : r.enable action s = .ok c s') : r.actions.route? action.id = some c := by
  obtain ⟨_, _, -, h⟩ := bind_eq_ok.1 h
  obtain ⟨_, _, -, h⟩ := bind_eq_ok.1 h
  obtain ⟨paused, _, -, h⟩ := bind_eq_ok.1 h
  cases paused with
  | true =>
    obtain ⟨_, _, h, -⟩ := bind_eq_ok.1 h
    exact (throw_ne_ok h).elim
  | false => exact Registry.require_eq_ok.1 (settle_eq_ok.1 h).1

theorem guarded_execute (h : s.world.Opens p) (action : Action) :
    (r.traceExecute action).Guarded (r.execute action)
      (r.executeConditions p ⟨s.transfer, action⟩) (.action ⟨s.transfer, action⟩)
      (fun run => ∃ c, r.actions.route? action.id = some c ∧
        run = StageM.onWorkbench (c.run action)) s := by
  rw [execute_eq]
  exact Traced.guarded_of_screens (screens_enable h action) fun c hc => ⟨c, enable_ok hc, rfl⟩

end Router

/-! ## Domains -/

/-- The domain that a forwarding goes to, where endpoints are numbered. -/
def ForwardingAttributes.domain? : ForwardingAttributes → Option UInt32
  | ibc _ => none
  | cctp a => some a.domain
  | hyperlane a => some a.domain

theorem ForwardingAttributes.counterparty_of_domain {a : ForwardingAttributes} {m : UInt32}
    (h : a.domain? = some m) : a.counterparty = Decimal.print m.toNat := by
  cases a with
  | ibc attributes => exact absurd h nofun
  | cctp attributes => exact congrArg (fun m : UInt32 => Decimal.print m.toNat) (Option.some.inj h)
  | hyperlane attributes =>
    exact congrArg (fun m : UInt32 => Decimal.print m.toNat) (Option.some.inj h)

/-- Two numbers do not have one numeral. -/
theorem Decimal.print_inj {m n : Nat} (h : print m = print n) : m = n := by
  have hdigits : Nat.toDigits 10 m = Nat.toDigits 10 n := String.ofList_injective h
  rw [← Nat.ofDigitChars_ten_toDigits (n := m), hdigits, Nat.ofDigitChars_ten_toDigits]

/-- Of the domains of a protocol, a pause of the text of one adds that one to the paused routes. -/
theorem mem_routes_of_pause {w : World} (hw : w.disk.Reliable) (p : Pauses)
    {a : ForwardingAttributes} {m : UInt32} (ha : a.domain? = some m) (n : UInt32) :
    ⟨a.protocol, a.counterparty⟩ ∈ (Toggle.step (w, p)
      (.traffic a.protocol [Decimal.print n.toNat] true)).2.routes ↔
        m = n ∨ ⟨a.protocol, a.counterparty⟩ ∈ p.routes := by
  have hprotocol : a.protocol ≠ .unsupported := by
    cases a <;> exact nofun
  have hvalid : (Toggle.traffic a.protocol [Decimal.print n.toNat] true).Valid :=
    ⟨ProtocolId.check_eq_ok.2 hprotocol, List.forall_mem_singleton.2 (CrossChainId.check_eq_ok.2
      ⟨ProtocolId.check_eq_ok.2 hprotocol, Decimal.print_ne_empty _⟩)⟩
  have hnamed : (⟨a.protocol, a.counterparty⟩ : CrossChainId) ∈
      routesOf a.protocol [Decimal.print n.toNat] ↔ m = n := by
    rw [ForwardingAttributes.counterparty_of_domain ha, routesOf, List.map_singleton,
      List.mem_singleton, CrossChainId.mk.injEq, and_iff_right rfl]
    exact ⟨fun h => UInt32.toNat_inj.1 (Decimal.print_inj h), fun h => h ▸ rfl⟩
  rw [Toggle.step_of_valid hw hvalid]
  change _ ∈ turned true (routesOf a.protocol [Decimal.print n.toNat]) p.routes ↔ _
  rw [mem_turned]
  split
  next hmem => exact iff_of_true rfl (.inl (hnamed.1 hmem))
  next hmem => exact (or_iff_right (mt hnamed.2 hmem)).symm

/-! ## After any calls on the breakers -/

/-- When nothing was paused before and only the breakers were turned since, whatever is in the
ledger: a packet is handed to the forwarding controller of its protocol exactly when it passes its
check, neither its protocol nor its route is in the sets that the calls make, the holding account
holds what is to be sent and nothing else, and the protocol is routed; the same goes for a
pre-action, which must pass its check, not be paused and be routed. The route of a domain is that of
its decimal numeral, and to pause the numeral of one domain pauses that domain and no other. -/
theorem guarded_of_toggles {w : World} (hw : w.disk.Reliable)
    (hclosed : ∀ key, Key.IsBreaker key → w.disk.store.get? key = none) (calls : List Toggle)
    (r : Router) {s : Stage} (hs : s.world.disk = (Toggle.run w calls).1.disk) :
    let p := (Toggle.run w calls).2
    (∀ packet, (r.traceForward packet).Guarded (StageM.onWorld (r.forward packet))
      (r.forwardConditions p s.world.books.ledger packet) (.forwarding packet)
      (fun run => ∃ c, r.forwarders.route? packet.forwarding.protocol = some c ∧
        run = StageM.onWorld (RouterM.onBooks (c.send packet))) s) ∧
    (∀ action, (r.traceExecute action).Guarded (r.execute action)
      (r.executeConditions p ⟨s.transfer, action⟩) (.action ⟨s.transfer, action⟩)
      (fun run => ∃ c, r.actions.route? action.id = some c ∧
        run = StageM.onWorkbench (c.run action)) s) ∧
    ∀ (a : ForwardingAttributes) (m n : UInt32), a.domain? = some m →
      a.counterparty = Decimal.print m.toNat ∧
      (⟨a.protocol, a.counterparty⟩ ∈ (Toggle.run w
        (calls ++ [.traffic a.protocol [Decimal.print n.toNat] true])).2.routes ↔
          m = n ∨ ⟨a.protocol, a.counterparty⟩ ∈ p.routes) := by
  have hrun := (World.Opens.empty hw hclosed).run calls
  have hopens : s.world.Opens (Toggle.run w calls).2 := by
    obtain ⟨hreliable, hactions, hprotocols, hroutes⟩ := hrun
    exact ⟨hs ▸ hreliable, hs ▸ hactions, hs ▸ hprotocols, hs ▸ hroutes⟩
  refine ⟨Router.guarded_forward hopens, Router.guarded_execute hopens, fun a m n ha => ?_⟩
  refine ⟨ForwardingAttributes.counterparty_of_domain ha, ?_⟩
  rw [Toggle.run, List.foldl_append]
  exact mem_routes_of_pause hrun.reliable _ ha n

namespace Testbed

/-- A forwarding over Hyperlane to domain 7. -/
def hyperlaneAttributes : ForwardingAttributes :=
  .hyperlane ⟨[1], 7, List.replicate 32 7, none, .zero, .zero⟩

/-- A packet of the coin that is held, for CCTP or for Hyperlane. -/
def outbound (a : ForwardingAttributes) : ForwardingPacket :=
  ⟨.fresh origin coin, .ofAttributes a []⟩

/-- The state after the calls of `toggles` with the coin in the holding account. -/
def guardedStage : Stage where
  world := { (Toggle.run world toggles).1 with
    books := ⟨Ledger.empty.set holding coin.denom coin.amount, [], []⟩ }
  transfer := .fresh origin coin

theorem holdsOnly_guardedStage :
    guardedStage.world.books.ledger.HoldsOnly holding coin := by
  refine ⟨by decide, fun denom => ?_⟩
  change ((Ledger.empty.set holding coin.denom coin.amount).balance holding denom).toNat = _
  rw [Ledger.balance_set]
  by_cases h : denom = coin.denom
  · simp [h]
  · rw [if_neg fun hsame => h hsame.2.symm, if_neg h]
    rfl

/-- CCTP is paused and Hyperlane is not, and the fee is paused. -/
theorem guarded_toggles :
    (∃ e, StageM.onWorld (router.forward (outbound payload.forwarding.attributes)) guardedStage =
      .error e guardedStage ∧ e.kind = .paused) ∧
    (router.traceForward (outbound hyperlaneAttributes) guardedStage).1 =
      [.forwarding (outbound hyperlaneAttributes)] ∧
    (∃ e, router.execute (.fee ⟨[⟨"treasury", 500⟩]⟩) guardedStage = .error e guardedStage ∧
      e.kind = .paused) := by
  obtain ⟨hforward, hexecute, -⟩ := guarded_of_toggles (s := guardedStage) reliable_world
    (fun key _ => get?_world key) toggles router rfl
  rw [run_toggles] at hforward hexecute
  refine ⟨?_, ?_, ?_⟩
  · exact ((hforward (outbound payload.forwarding.attributes)).refusal .paused
      (.inr ⟨by decide, .inl ⟨by decide, rfl⟩⟩)).2
  · refine (hforward (outbound hyperlaneAttributes)).handed.2 ?_
    simp only [Conditions.Hold, Router.forwardConditions, List.forall_mem_cons]
    exact ⟨by decide, by decide, by decide, holdsOnly_guardedStage, ⟨_, rfl⟩,
      fun _ h => absurd h List.not_mem_nil⟩
  · exact ((hexecute (.fee ⟨[⟨"treasury", 500⟩]⟩)).refusal .paused
      (.inr ⟨by decide, .inl ⟨by decide, rfl⟩⟩)).2

end Testbed

end TransferRouter
