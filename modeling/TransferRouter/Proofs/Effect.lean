import TransferRouter.Proofs.Administration
import TransferRouter.Proofs.Session
import TransferRouter.Proofs.Statistics
import TransferRouter.Proofs.Wiring

/-!
What a call does to what is recorded. Every call writes at most one batch to the keys of what is
recorded and makes the reports about it; all else that it does leaves those keys alone. The batch
and the reports are told by the call and its outcome.
-/

namespace TransferRouter

open Disk (Apart)

/-- Relations between books that hold when the ledger changes or something is reported that is not
about recorded payloads. -/
class Books.AllowsUnrelated (B : Books → Books → Prop) : Prop extends IsPreorder Books B where
  ledger (b : Books) (l : Ledger) : B b { b with ledger := l }
  report (b : Books) {event : Event} : event.isPending = false →
    B b { b with events := b.events ++ [event] }

open Books (AllowsUnrelated)

instance {B : Books → Books → Prop} [AllowsUnrelated B] : Books.AllowsArrival B where
  ledger := AllowsUnrelated.ledger
  dust b _ := AllowsUnrelated.report b rfl

instance : AllowsUnrelated Anything where
  ledger _ _ := trivial
  report _ _ _ := trivial

instance : AllowsUnrelated (Books.SameReports Event.isPending) where
  ledger _ _ := rfl
  report _ _ h := Books.sameReports_append h

/-- What a call does to what is recorded, by its outcome: the batch that it writes, and what it
reports about recorded payloads. -/
inductive Effect (r : Router) (w : World) (call : Call) :
    Except RouterError Answer → List Write → List Event → Prop
  | failed (e : RouterError) : Effect r w call (.error e) [] []
  | idle {a : Answer} (hnamed : call.named r = none) (hsubmits : a.submits = [])
    (hsweeps : a.sweeps = []) : Effect r w call (.ok a) [] []
  | recorded {signer : String} {entry : PendingEntry} {next : UInt64}
    (hcall : call = .submit signer entry.payload) (htime : entry.timestamp = w.clock)
    (hcheck : entry.payload.check = .ok ())
    (hsequence : Pending.nextSequence w = .ok entry.sequence w)
    (hnext : successor? entry.sequence = some next)
    (hfree : w.disk.store.contains (Key.pending entry.hash).bytes = false) :
    Effect r w call (.ok (.hash entry.hash)) (Pending.recording entry next)
      [.pendingPayloadSubmitted entry.hash entry.sequence]
  | taken {h : PayloadHash} {entry : PendingEntry} {a : Answer} (hnamed : call.named r = some h)
    (hsubmits : a.submits = []) (hsweeps : a.sweeps = [])
    (hget : Pending.get? h w = .ok (some entry) w) :
    Effect r w call (.ok a) (Pending.removal entry.timestamp h) [.pendingPayloadRemoved h]
  | swept {index : List (Bytes × PayloadHash)} {limit cutoff : UInt64}
    (hnamed : call.named r = none)
    (hindex : Pending.readIndex
      (w.disk.store.range Key.timeIndex (Key.timeBound cutoff) limit.toNat) = .ok index) :
    Effect r w call (.ok (.hashes (index.map (·.2)))) (Pending.expiry index)
      (index.map fun e => .pendingPayloadExpired e.2)

/-- A call first leaves the keys of what is recorded alone, then has its effect on them. -/
def Affects (r : Router) (B : Books → Books → Prop) (w : World) (call : Call)
    (outcome : Except RouterError Answer) (w' : World) : Prop :=
  ∃ u batch reports, Effect r w call outcome batch reports ∧
    World.Within (Apart Key.IsRecord) B w u ∧ u.Wrote batch reports w'

section

variable {r : Router} {B : Books → Books → Prop} {w w' : World} {call : Call} {α : Type}

theorem Affects.failed {u : World} {e : RouterError}
    (h : World.Within (Apart Key.IsRecord) B w u) (hwrote : u.Wrote [] [] w') :
    Affects r B w call (.error e) w' :=
  ⟨u, [], [], .failed e, h, hwrote⟩

theorem affects_intro
    (hok : ∀ a w', call.perform r w = .ok a w' → Affects r B w call (.ok a) w')
    (herror : ∀ e w', call.perform r w = .error e w' → Affects r B w call (.error e) w') :
    Affects r B w call (Step.of r call w).outcome (Step.of r call w).after := by
  cases hrun : call.perform r w with
  | ok a w' =>
    rw [Step.of_ok hrun]
    exact hok a w' hrun
  | error e w' =>
    rw [Step.of_error hrun]
    exact herror e w' hrun

theorem answered_ok {act : RouterM α} {f : α → Answer} {a : Answer} :
    (act >>= fun x => pure (f x)) w = .ok a w' ↔ ∃ x, act w = .ok x w' ∧ f x = a := by
  simp only [bind_eq_ok, pure_eq_ok]
  constructor
  · rintro ⟨x, u, hx, rfl, rfl⟩
    exact ⟨x, hx, rfl⟩
  · rintro ⟨x, hx, rfl⟩
    exact ⟨x, w', hx, rfl, rfl⟩

theorem answered_error {act : RouterM α} {f : α → Answer} {e : RouterError} :
    (act >>= fun x => pure (f x)) w = .error e w' ↔ act w = .error e w' := by
  simp only [bind_eq_error, pure_ne_error, and_false, exists_false, or_false]

/-! ## Calls of each kind -/

theorem affects_of_keeps [IsPreorder Books B] {act : RouterM α}
    (hperform : call.perform r = act >>= fun _ => pure .done) (hnamed : call.named r = none)
    (h : Keeps (World.Within (Apart Key.IsRecord) B) act) :
    Affects r B w call (Step.of r call w).outcome (Step.of r call w).after := by
  refine affects_intro (fun a w' hrun => ?_) fun e w' hrun => ?_
  · rw [hperform] at hrun
    obtain ⟨x, hx, rfl⟩ := answered_ok.1 hrun
    exact ⟨w', [], [], .idle hnamed rfl rfl, h.ok hx, .nothing w'⟩
  · rw [hperform] at hrun
    exact .failed (h.error (answered_error.1 hrun)) (.nothing w')

/-- What is recorded is read the same after keys of other things were written. -/
theorem get?_of_apart {u : World} (hu : Apart Key.IsRecord w.disk u.disk) (hw : w.disk.Readable)
    {h : PayloadHash} {entry : PendingEntry} :
    Pending.get? h u = .ok (some entry) u ↔ Pending.get? h w = .ok (some entry) w := by
  refine (read_eq_ok_some (hu.readable hw)).trans (Iff.trans ?_ (read_eq_ok_some hw).symm)
  rw [hu.get? _ (Key.isRecord_bytes.2 (.inr (.inl rfl)))]
  exact and_congr_right fun _ => iff_of_true rfl rfl

variable [IsPreorder Books B]

theorem within_refl (w : World) : World.Within (Apart Key.IsRecord) B w w :=
  refl_of (World.Within (Apart Key.IsRecord) B) w

theorem affects_submit (hw : w.disk.Readable) (signer : String) (payload : Payload) :
    Affects r B w (.submit signer payload) (Step.of r (.submit signer payload) w).outcome
      (Step.of r (.submit signer payload) w).after := by
  refine affects_intro (fun a w' hrun => ?_) fun e w' hrun => ?_
  · obtain ⟨h, hsubmit, rfl⟩ := answered_ok.1 hrun
    obtain ⟨entry, next, rfl, rfl, htime, hcheck, hsequence, hnext, hfree, hwrote⟩ :=
      Pending.submit_ok hw hsubmit
    exact ⟨w, _, _, .recorded rfl htime hcheck hsequence hnext hfree, within_refl w, hwrote⟩
  · exact .failed (within_refl w) (Pending.submit_error hw (answered_error.1 hrun))

theorem affects_of_take {h : PayloadHash} {act : RouterM α} {f : α → Answer}
    (hperform : call.perform r = act >>= fun x => pure (f x)) (hnamed : call.named r = some h)
    (hf : ∀ x, (f x).submits = [] ∧ (f x).sweeps = []) (hw : w.disk.Readable)
    (hok : ∀ x w', act w = .ok x w' → ∃ entry, Pending.take h w = .ok entry w')
    (herror : ∀ e w', act w = .error e w' → w.Wrote [] [] w') :
    Affects r B w call (Step.of r call w).outcome (Step.of r call w).after := by
  refine affects_intro (fun a w' hrun => ?_) fun e w' hrun => ?_
  · rw [hperform] at hrun
    obtain ⟨x, hx, rfl⟩ := answered_ok.1 hrun
    obtain ⟨entry, htake⟩ := hok x w' hx
    obtain ⟨hget, hwrote⟩ := Pending.take_ok hw htake
    exact ⟨w, _, _, .taken hnamed (hf x).1 (hf x).2 hget, within_refl w, hwrote⟩
  · rw [hperform] at hrun
    exact .failed (within_refl w) (herror e w' (answered_error.1 hrun))

theorem affects_of_sweep {limit cutoff : UInt64}
    (hperform : call.perform r = Pending.sweep limit cutoff >>= fun hs => pure (.hashes hs))
    (hnamed : call.named r = none) (hw : w.disk.Readable) :
    Affects r B w call (Step.of r call w).outcome (Step.of r call w).after := by
  refine affects_intro (fun a w' hrun => ?_) fun e w' hrun => ?_
  · rw [hperform] at hrun
    obtain ⟨hs, hsweep, rfl⟩ := answered_ok.1 hrun
    obtain ⟨index, hindex, rfl, hwrote⟩ := Pending.sweep_ok hw hsweep
    rw [List.map_map] at hwrote
    exact ⟨w, _, _, .swept hnamed hindex, within_refl w, hwrote⟩
  · rw [hperform] at hrun
    exact .failed (within_refl w) (Pending.sweep_error hw (answered_error.1 hrun))

/-! ## Packets -/

theorem affects_of_passage {source : CrossChainId} {raw : Bytes}
    {carry : RoutedPacket → RouterM Transfer}
    (hperform : call.perform r = r.passage source raw carry >>= fun p => pure (.packet p))
    (hnamed : call.named r = r.named source raw) (hw : w.disk.Readable)
    (hcarry : ∀ packet, Keeps (World.Within (Apart Key.IsRecord) B) (carry packet)) :
    Affects r B w call (Step.of r call w).outcome (Step.of r call w).after := by
  refine affects_intro (fun a w' hrun => ?_) fun e w' hrun => ?_
  · rw [hperform] at hrun
    obtain ⟨packet, hpassage, rfl⟩ := answered_ok.1 hrun
    obtain ⟨parsed, pending, transfer, u, hresolved, hcarried, hcomplete, -⟩ :=
      Router.passage_ok hw hpassage
    have hu := (hcarry parsed).ok hcarried
    have hname := hnamed.trans hresolved.named
    rcases Router.complete_ok hcomplete with ⟨rfl, rfl⟩ | ⟨h, entry, rfl, htake⟩
    · exact ⟨w', [], [], .idle hname rfl rfl, hu, .nothing w'⟩
    · obtain ⟨hget, hwrote⟩ := Pending.take_ok (hu.disk.readable hw) htake
      exact ⟨u, _, _, .taken hname rfl rfl ((get?_of_apart hu.disk hw).1 hget), hu, hwrote⟩
  · rw [hperform] at hrun
    rcases Router.passage_error hw (answered_error.1 hrun) with
      rfl | ⟨parsed, pending, -, hcarried | ⟨transfer, u, hcarried, hcomplete⟩⟩
    · exact .failed (within_refl w') (.nothing w')
    · exact .failed ((hcarry parsed).error hcarried) (.nothing w')
    · obtain ⟨h, -, htake⟩ := Router.complete_error hcomplete
      have hu := (hcarry parsed).ok hcarried
      exact .failed hu (Pending.take_error (hu.disk.readable hw) htake)

end

/-! ## All calls -/

theorem Key.not_isRecord {k : Key} (f : UInt8) (hf : k.family = f)
    (h : f ≠ 0x30 ∧ f ≠ 0x31 ∧ f ≠ 0x32) : ¬ IsRecord k.bytes := by
  subst hf
  rw [isRecord_bytes]
  rintro (h' | h' | h')
  · exact h.1 h'
  · exact h.2.1 h'
  · exact h.2.2 h'

theorem params_aside : ¬ Key.IsRecord Key.params.bytes := Key.not_isRecord 0x01 rfl (by decide)

theorem pausedAction_aside (a : ActionId) : ¬ Key.IsRecord (Key.pausedAction a).bytes :=
  Key.not_isRecord 0x10 rfl (by decide)

theorem pausedProtocol_aside (p : ProtocolId) : ¬ Key.IsRecord (Key.pausedProtocol p).bytes :=
  Key.not_isRecord 0x20 rfl (by decide)

theorem routeKey_aside (route : CrossChainId) : ¬ Key.IsRecord (Breaker.routeKey route).bytes :=
  Key.not_isRecord 0x21 rfl (by decide)

theorem statistics_aside : Statistics.Aside Key.IsRecord :=
  ⟨fun _ _ _ => Key.not_isRecord 0x40 rfl (by decide),
    fun _ _ => Key.not_isRecord 0x41 rfl (by decide)⟩

/-- Every call of a session affects what is recorded as its outcome tells. -/
theorem Step.affects {r : Router} {B : Books → Books → Prop} [AllowsUnrelated B]
    (hactions : r.ActionsKeep B Anything) (hforwarders : r.ForwardersKeep B) {w : World}
    (hw : w.disk.Readable) (call : Call) :
    Affects r B w call (Step.of r call w).outcome (Step.of r call w).after := by
  cases call with
  | submit signer payload => exact affects_submit hw signer payload
  | complete h =>
    refine affects_of_take rfl rfl (fun _ => ⟨rfl, rfl⟩) hw (fun entry w' hx => ⟨entry, hx⟩) ?_
    exact fun e w' => Pending.take_error hw
  | remove h =>
    refine affects_of_take (f := fun _ => Answer.done) rfl rfl (fun _ => ⟨rfl, rfl⟩) hw
      (fun entry w' hx => ⟨entry, hx⟩) ?_
    exact fun e w' => Pending.take_error hw
  | removePending signer h =>
    refine affects_of_take (f := fun _ => Answer.done) rfl rfl (fun _ => ⟨rfl, rfl⟩) hw
      (fun _ w' hx => ?_) fun e w' hx => ?_
    · obtain ⟨_, u, hsigner, h₁⟩ := bind_eq_ok.1 hx
      obtain ⟨-, rfl⟩ := settle_eq_ok.1 hsigner
      obtain ⟨entry, v, htake, hdone⟩ := bind_eq_ok.1 h₁
      obtain ⟨-, rfl⟩ := pure_eq_ok.1 hdone
      exact ⟨entry, htake⟩
    · rcases bind_eq_error.1 hx with hsigner | ⟨_, u, hsigner, h₁⟩
      · obtain ⟨-, rfl⟩ := settle_eq_error.1 hsigner
        exact .nothing _
      · obtain ⟨-, rfl⟩ := settle_eq_ok.1 hsigner
        rcases bind_eq_error.1 h₁ with htake | ⟨_, _, -, hdone⟩
        · exact Pending.take_error hw htake
        · exact (pure_ne_error hdone).elim
  | sweep cutoff => exact affects_of_sweep rfl rfl hw
  | endBlock now => exact affects_of_sweep rfl rfl hw
  | accept source raw =>
    refine affects_of_passage ?_ rfl hw fun packet => Keeps.pure packet.transfer
    rw [← Router.accept_eq]
    rfl
  | deliver source raw receive =>
    have hrecord : ∀ transfer destination, Keeps (World.Within (Apart Key.IsRecord) B)
        (Statistics.record transfer destination) := Statistics.keeps_record statistics_aside
    refine affects_of_passage ?_ rfl hw fun packet =>
      keeps_carry hactions hforwarders hrecord (fun b _ _ _ _ => AllowsUnrelated.report b rfl)
        packet receive
    rw [← Router.deliver_eq]
    rfl
  | setAction signer action paused =>
    refine affects_of_keeps rfl rfl (keeps_authorized ?_ r signer)
    refine Breaker.keeps_setAction (pausedAction_aside action) fun b => ?_
    cases paused <;> exact AllowsUnrelated.report b rfl
  | setTraffic signer protocol counterparties paused =>
    refine affects_of_keeps rfl rfl (keeps_authorized ?_ r signer)
    refine Breaker.keeps_setTraffic (pausedProtocol_aside protocol) routeKey_aside ?_
    rintro b event (rfl | ⟨route, rfl⟩) <;> cases paused <;> exact AllowsUnrelated.report b rfl
  | updateParams signer params =>
    exact affects_of_keeps rfl rfl (keeps_updateParams r signer params params_aside
      fun b => AllowsUnrelated.report b rfl)
  | importState genesis =>
    exact affects_of_keeps rfl rfl (genesis.keeps_importState params_aside pausedAction_aside
      pausedProtocol_aside routeKey_aside)

theorem actionsKeep_anything (r : Router) : r.ActionsKeep Anything Anything :=
  fun _ _ _ _ _ => ⟨trivial, trivial⟩

theorem forwardersKeep_anything (r : Router) : r.ForwardersKeep Anything :=
  fun _ _ _ _ _ => trivial

/-- A call keeps the plan of the medium, and does not take back what was counted. -/
theorem Step.later {r : Router} {w : World} (hw : w.disk.Readable) (call : Call) :
    Disk.Later w.disk.faults (Step.of r call w).after.disk.faults := by
  obtain ⟨u, batch, reports, -, hu, hwrote⟩ :=
    Step.affects (actionsKeep_anything r) (forwardersKeep_anything r) hw call
  exact hu.disk.later.trans hwrote.later

theorem Step.readable {r : Router} {w : World} (hw : w.disk.Readable) (call : Call) :
    (Step.of r call w).after.disk.Readable :=
  fun c hc => (Step.later hw call).concerns ▸ hw c hc

end TransferRouter
