import TransferRouter.Proofs.Effect
import TransferRouter.Proofs.Indifference

/-!
The courses that a dispatch can take. Pre-actions are handed out strictly in order, each with the
transfer that the one before left, up to the first one that fails; the forwarding is handed out
once, after all of them, and the statistics are written once, after the forwarding. Handlers are
arbitrary here: all that is asked of them is that they leave the totals of the statistics alone.
-/

namespace TransferRouter

/-- Worlds with the same totals of the statistics. -/
def World.SameTotals (w w' : World) : Prop :=
  ∀ key, Statistics.IsTotal key → w'.disk.store.get? key = w.disk.store.get? key

instance : IsPreorder World World.SameTotals where
  refl _ _ _ := rfl
  trans _ _ _ h h' key hkey := (h' key hkey).trans (h key hkey)

def Stage.SameTotals (s s' : Stage) : Prop := s.world.SameTotals s'.world

instance : IsPreorder Stage Stage.SameTotals where
  refl s := refl_of World.SameTotals s.world
  trans _ _ _ h h' := trans_of World.SameTotals h h'

section

variable (execute : Action → StageM Unit) (forward : ForwardingPacket → RouterM Unit)

/-- Pre-actions that all succeed, with their handovers: each is handed the transfer that the one
before left. -/
inductive Executed : List Action → Stage → List Handover → Stage → Prop
  | nil (s : Stage) : Executed [] s [] s
  | cons {action : Action} {rest : List Action} {s t u : Stage} {calls : List Handover} :
    execute action s = .ok () t → Executed rest t calls u →
      Executed (action :: rest) s (.action ⟨s.transfer, action⟩ :: calls) u

/-- How the execution of pre-actions can end, with its handovers: after all of them, or at the first
one that fails. -/
inductive Progress (actions : List Action) (s : Stage) :
    List Handover → EStateM.Result RouterError Stage Unit → Prop
  | completed {calls : List Handover} {t : Stage} :
    Executed execute actions s calls t → Progress actions s calls (.ok () t)
  | stopped {done rest : List Action} {action : Action} {calls : List Handover} {t u : Stage}
    {cause : RouterError} :
    actions = done ++ action :: rest → Executed execute done s calls t →
      execute action t = .error cause u →
      Progress actions s (calls ++ [.action ⟨t.transfer, action⟩])
        (.error (.actionFailed action.id cause) { u with transfer := t.transfer })

/-- The courses of a dispatch, each with its handovers and its result. -/
inductive Course (payload : Payload) (s : Stage) :
    List Handover → EStateM.Result RouterError Stage Unit → Prop
  /-- The transfer or a part of the payload is invalid: nothing is handed out or changed. -/
  | refused {cause : Invalid} :
    s.transfer.check = .error cause ∨ s.transfer.check = .ok () ∧ payload.check = .error cause →
      Course payload s [] (.error (.validation cause) s)
  /-- A pre-action is the first to fail: nothing is handed out after it, the transfer is as the
  pre-actions before it left it, and no total changed. -/
  | stopped {done rest : List Action} {action : Action} {calls : List Handover} {t u : Stage}
    {cause : RouterError} :
    s.transfer.check = .ok () → payload.check = .ok () →
      payload.preActions = done ++ action :: rest → Executed execute done s calls t →
      execute action t = .error cause u → s.world.SameTotals u.world →
      (RouterError.actionFailed action.id cause).kind = cause.kind →
      Course payload s (calls ++ [.action ⟨t.transfer, action⟩])
        (.error (.actionFailed action.id cause) ⟨u.world, t.transfer⟩)
  /-- The forwarding fails, and no total changed. -/
  | unsent {calls : List Handover} {t : Stage} {w : World} {cause : RouterError} :
    s.transfer.check = .ok () → payload.check = .ok () →
      Executed execute payload.preActions s calls t →
      forward ⟨t.transfer, payload.forwarding⟩ t.world = .error cause w →
      s.world.SameTotals w →
      (RouterError.forwardingFailed payload.forwarding.protocol cause).kind = cause.kind →
      Course payload s (calls ++ [.forwarding ⟨t.transfer, payload.forwarding⟩])
        (.error (.forwardingFailed payload.forwarding.protocol cause) ⟨w, t.transfer⟩)
  /-- The packet is out, and only then are the statistics written. -/
  | sent {calls : List Handover} {t : Stage} {w w' : World} {destination : CrossChainId} :
    s.transfer.check = .ok () → payload.check = .ok () →
      Executed execute payload.preActions s calls t →
      forward ⟨t.transfer, payload.forwarding⟩ t.world = .ok () w → s.world.SameTotals w →
      payload.forwarding.destination = .ok destination →
      RouterM.attempt (Statistics.record t.transfer destination) w = .ok () w' →
      Course payload s (calls ++ [.forwarding ⟨t.transfer, payload.forwarding⟩])
        (.ok () ⟨w', t.transfer⟩)

end

section

variable {execute : Action → StageM Unit} {forward : ForwardingPacket → RouterM Unit}
variable {payload : Payload} {actions : List Action} {s t u : Stage} {calls : List Handover}

/-! ## Pre-actions -/

theorem Executed.sameTotals (hexecute : ∀ action, Keeps Stage.SameTotals (execute action))
    (h : Executed execute actions s calls t) : s.SameTotals t := by
  induction h with
  | nil s => exact refl_of Stage.SameTotals s
  | cons hrun _ ih => exact trans_of Stage.SameTotals ((hexecute _).ok hrun) ih

theorem executing_ok {action : Action} (h : execute action s = .ok () t) :
    executing execute action s = .ok () t :=
  wrapping_eq_ok.2 (tentatively_eq_ok.2 h)

theorem executing_error {action : Action} {cause : RouterError}
    (h : execute action s = .error cause t) :
    executing execute action s =
      .error (.actionFailed action.id cause) { t with transfer := s.transfer } :=
  wrapping_eq_error.2 ⟨cause, tentatively_eq_error.2 ⟨t, h, rfl⟩, rfl⟩

/-- Pre-actions are executed in order, up to the first one that fails. -/
theorem traceAll_progress (execute : Action → StageM Unit) (actions : List Action) (s : Stage) :
    Progress execute actions s (traceAll execute actions s).1 (traceAll execute actions s).2 := by
  induction actions generalizing s with
  | nil => exact .completed (.nil s)
  | cons action rest ih =>
    rw [traceAll]
    cases hrun : execute action s with
    | error cause t =>
      rw [Traced.andThen_of_error (Traced.handing_run (executing_error hrun))]
      have hactions : action :: rest = [] ++ action :: rest := rfl
      exact .stopped hactions (.nil s) hrun
    | ok a t =>
      rw [Traced.andThen_of_ok (Traced.handing_run (executing_ok hrun))]
      have hprogress := ih t
      generalize traceAll execute rest t = r at hprogress
      obtain ⟨calls, result⟩ := r
      cases hprogress with
      | completed hdone => exact .completed (.cons hrun hdone)
      | stopped hactions hdone hfails =>
        exact .stopped (congrArg (action :: ·) hactions) (.cons hrun hdone) hfails

theorem exists_executed (h : executeAll execute actions s = .ok () t) :
    ∃ calls, Executed execute actions s calls t := by
  have hprogress := traceAll_progress execute actions s
  have herase : (traceAll execute actions s).2 = executeAll execute actions s :=
    congrFun (erase_traceAll execute actions) s
  rw [herase, h] at hprogress
  generalize (traceAll execute actions s).1 = calls at hprogress
  cases hprogress with
  | completed hdone => exact ⟨_, hdone⟩

/-! ## Dispatches -/

/-- The checks let through exactly what is valid, and change nothing. -/
theorem screening_run (payload : Payload) (s : Stage) :
    (∃ cause, (s.transfer.check = .error cause ∨
        s.transfer.check = .ok () ∧ payload.check = .error cause) ∧
      screening payload s = .error (.validation cause) s) ∨
    (∃ destination, s.transfer.check = .ok () ∧ payload.check = .ok () ∧
      payload.forwarding.destination = .ok destination ∧
      screening payload s = .ok destination s) := by
  have hget : (get : StageM Stage) s = .ok s s := rfl
  rw [screening, bind_of_ok hget]
  cases htransfer : s.transfer.check with
  | error cause =>
    exact .inl ⟨cause, .inl rfl, bind_of_error (checked_error rfl s)⟩
  | ok _ =>
    cases hpayload : payload.check with
    | error cause =>
      refine .inl ⟨cause, .inr ⟨rfl, rfl⟩, ?_⟩
      rw [bind_of_ok (checked_run rfl s)]
      exact bind_of_error (checked_error rfl s)
    | ok _ =>
      have hdestination := Forwarding.destination_of_check (Payload.check_eq_ok.1 hpayload).1
      refine .inr ⟨_, rfl, rfl, hdestination, ?_⟩
      rw [bind_of_ok (checked_run rfl s), bind_of_ok (checked_run rfl s)]
      exact checked_run hdestination s

theorem forwarding_ok {w : World}
    (h : forward ⟨s.transfer, payload.forwarding⟩ s.world = .ok () w) :
    forwarding forward payload s = .ok s.transfer ⟨w, s.transfer⟩ := by
  have hget : (get : StageM Stage) s = .ok s s := rfl
  have hsend : StageM.onWorld (forward ⟨s.transfer, payload.forwarding⟩) s =
      .ok () ⟨w, s.transfer⟩ := zoom_eq_ok.2 ⟨w, h, rfl⟩
  rw [forwarding, bind_of_ok hget, bind_of_ok (wrapping_eq_ok.2 hsend)]
  rfl

theorem forwarding_error {w : World} {cause : RouterError}
    (h : forward ⟨s.transfer, payload.forwarding⟩ s.world = .error cause w) :
    forwarding forward payload s =
      .error (.forwardingFailed payload.forwarding.protocol cause) ⟨w, s.transfer⟩ := by
  have hget : (get : StageM Stage) s = .ok s s := rfl
  have hsend : StageM.onWorld (forward ⟨s.transfer, payload.forwarding⟩) s =
      .error cause ⟨w, s.transfer⟩ := zoom_eq_error.2 ⟨cause, w, h, rfl, rfl⟩
  rw [forwarding, bind_of_ok hget, bind_of_error (wrapping_eq_error.2 ⟨cause, hsend, rfl⟩)]

/-- Every dispatch takes one of the courses. -/
theorem dispatch_course (hexecute : ∀ action, Keeps Stage.SameTotals (execute action))
    (hforward : ∀ packet, Keeps World.SameTotals (forward packet)) (payload : Payload)
    (s : Stage) :
    (trace execute forward payload s).2 = dispatch execute forward payload s ∧
      Course execute forward payload s (trace execute forward payload s).1
        (dispatch execute forward payload s) := by
  have herase : (trace execute forward payload s).2 = dispatch execute forward payload s :=
    congrFun (erase_trace execute forward payload) s
  refine ⟨herase, ?_⟩
  rw [← herase, trace]
  rcases screening_run payload s with ⟨cause, hinvalid, hscreening⟩ |
    ⟨destination, htransfer, hpayload, hdestination, hscreening⟩
  · rw [Traced.andThen_of_error (Traced.silent_run hscreening)]
    exact .refused hinvalid
  rw [Traced.andThen_of_ok (Traced.silent_run hscreening)]
  have hprogress := traceAll_progress execute payload.preActions s
  generalize hall : traceAll execute payload.preActions s = r at hprogress
  obtain ⟨calls, result⟩ := r
  cases hprogress with
  | stopped hactions hdone hfails =>
    rw [Traced.andThen_of_error hall]
    exact .stopped htransfer hpayload hactions hdone hfails
      (trans_of Stage.SameTotals (hdone.sameTotals hexecute) ((hexecute _).error hfails)) rfl
  | @completed _ t hdone =>
    have htotals := hdone.sameTotals hexecute
    rw [Traced.andThen_of_ok hall]
    cases hsend : forward ⟨t.transfer, payload.forwarding⟩ t.world with
    | error cause w =>
      rw [Traced.andThen_of_error (Traced.handing_run (forwarding_error hsend))]
      exact .unsent htransfer hpayload hdone hsend
        (trans_of World.SameTotals htotals ((hforward _).error hsend)) rfl
    | ok _ w =>
      rw [Traced.andThen_of_ok (Traced.handing_run (forwarding_ok hsend))]
      cases hrecord : RouterM.attempt (Statistics.record t.transfer destination) w with
      | error e w' => exact (attempt_ne_error hrecord).elim
      | ok _ w' =>
        have hlast : StageM.onWorld (RouterM.attempt (Statistics.record t.transfer destination))
            ⟨w, t.transfer⟩ = .ok () ⟨w', t.transfer⟩ := zoom_eq_ok.2 ⟨w', hrecord, rfl⟩
        rw [Traced.silent_run hlast]
        exact .sent htransfer hpayload hdone hsend
          (trans_of World.SameTotals htotals ((hforward _).ok hsend)) hdestination hrecord

end

/-! ## Routers -/

/-- No router leaves its controllers a way to the totals. -/
theorem sameTotals_execute (r : Router) (action : Action) :
    Keeps Stage.SameTotals (r.execute action) := by
  have hkept : Keeps (Stage.Within (Disk.Apart Statistics.IsTotal) Anything Anything)
      (r.execute action) :=
    keeps_execute fun c hc => actionsKeep_anything r action.id c hc action
  exact hkept.mono fun _ _ h => h.world.disk.get?

theorem sameTotals_forward (r : Router) (packet : ForwardingPacket) :
    Keeps World.SameTotals (r.forward packet) := by
  have hkept : Keeps (World.Within (Disk.Apart Statistics.IsTotal) Anything) (r.forward packet) :=
    keeps_forward (forwardersKeep_anything r) packet
  exact hkept.mono fun _ _ h => h.disk.get?

namespace Testbed

theorem course_taxed :
    (trace router.execute router.forward taxed ⟨stocked, .fresh origin coin⟩).2 =
      dispatch router.execute router.forward taxed ⟨stocked, .fresh origin coin⟩ ∧
    Course router.execute router.forward taxed ⟨stocked, .fresh origin coin⟩
      (trace router.execute router.forward taxed ⟨stocked, .fresh origin coin⟩).1
      (dispatch router.execute router.forward taxed ⟨stocked, .fresh origin coin⟩) :=
  dispatch_course (sameTotals_execute router) (sameTotals_forward router) taxed _

end Testbed

end TransferRouter
