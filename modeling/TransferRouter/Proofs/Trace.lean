import TransferRouter.Dispatch
import TransferRouter.Proofs.Parallel

/-!
What a dispatch hands to its handlers, in order. The trace is computed along with the result by a
dispatch that notes each handover before it is made; without the notes it is the dispatch itself.
-/

namespace TransferRouter

/-- What is handed to the handler of a pre-action or of a forwarding. -/
inductive Handover where
  | action (packet : ActionPacket)
  | forwarding (packet : ForwardingPacket)
  deriving DecidableEq

/-- An action on a transfer with the handovers that it makes. -/
abbrev Traced (α : Type) := Stage → List Handover × EStateM.Result RouterError Stage α

namespace Traced

variable {α β : Type}

/-- An action that hands nothing over. -/
def silent (act : StageM α) : Traced α := fun s => ([], act s)

/-- An action that is one handover. -/
def handing (handover : Transfer → Handover) (act : StageM α) : Traced α :=
  fun s => ([handover s.transfer], act s)

/-- One action after another. -/
def andThen (x : Traced α) (f : α → Traced β) : Traced β := fun s =>
  match x s with
  | (calls, .ok a s') => (calls ++ (f a s').1, (f a s').2)
  | (calls, .error e s') => (calls, .error e s')

theorem silent_run {act : StageM α} {s : Stage} {r : EStateM.Result RouterError Stage α}
    (h : act s = r) : silent act s = ([], r) := congrArg (Prod.mk []) h

theorem handing_run {handover : Transfer → Handover} {act : StageM α} {s : Stage}
    {r : EStateM.Result RouterError Stage α} (h : act s = r) :
    handing handover act s = ([handover s.transfer], r) := congrArg (Prod.mk _) h

theorem andThen_of_ok {x : Traced α} {f : α → Traced β} {s t : Stage} {a : α}
    {calls : List Handover} (h : x s = (calls, .ok a t)) :
    x.andThen f s = (calls ++ (f a t).1, (f a t).2) := by
  simp only [andThen, h]

theorem andThen_of_error {x : Traced α} {f : α → Traced β} {s t : Stage} {e : RouterError}
    {calls : List Handover} (h : x s = (calls, .error e t)) :
    x.andThen f s = (calls, .error e t) := by
  simp only [andThen, h]

/-- The action without its handovers. -/
def erase (x : Traced α) : StageM α := fun s => (x s).2

theorem erase_andThen (x : Traced α) (f : α → Traced β) :
    (x.andThen f).erase = x.erase >>= fun a => (f a).erase := by
  funext s
  change (x.andThen f s).2 = _
  unfold andThen
  cases hx : x s with
  | mk calls result =>
    have herase : x.erase s = result := congrArg Prod.snd hx
    cases result with
    | ok a s' =>
      rw [bind_of_ok herase]
      rfl
    | error e s' =>
      rw [bind_of_error herase]

/-- Runs from related states make the same handovers and go in parallel. -/
def Respects (R : Stage → Stage → Prop) (x : Traced α) : Prop :=
  ∀ s t, R s t → (x s).1 = (x t).1 ∧ Parallel R (x s).2 (x t).2

variable {R : Stage → Stage → Prop}

theorem Respects.silent {act : StageM α} (h : TransferRouter.Respects R act) :
    Respects R (Traced.silent act) :=
  fun s t hst => ⟨rfl, h s t hst⟩

theorem Respects.handing {act : StageM α} {handover : Transfer → Handover}
    (hR : ∀ s t, R s t → s.transfer = t.transfer) (h : TransferRouter.Respects R act) :
    Respects R (Traced.handing handover act) :=
  fun s t hst => ⟨congrArg (fun transfer => [handover transfer]) (hR s t hst), h s t hst⟩

theorem Respects.andThen {x : Traced α} {f : α → Traced β} (hx : Respects R x)
    (hf : ∀ a, Respects R (f a)) : Respects R (x.andThen f) := by
  intro s t hst
  have hst := hx s t hst
  unfold Traced.andThen
  generalize x s = y at hst ⊢
  generalize x t = z at hst ⊢
  obtain ⟨calls, result⟩ := y
  obtain ⟨calls', result'⟩ := z
  obtain ⟨rfl : calls = calls', hresult⟩ := hst
  cases hresult with
  | ok a h =>
    obtain ⟨hmore, hrest⟩ := hf a _ _ h
    exact ⟨congrArg (calls ++ ·) hmore, hrest⟩
  | error e h => exact ⟨rfl, .error e h⟩

end Traced

/-! ## Dispatches -/

section

variable (execute : Action → StageM Unit) (forward : ForwardingPacket → RouterM Unit)
variable (payload : Payload)

/-- The checks that come before the first handover. -/
def screening : StageM CrossChainId := do
  checked (← get).transfer.check
  checked payload.check
  checked payload.forwarding.destination

/-- The execution of one pre-action. -/
def executing (action : Action) : StageM Unit :=
  wrapping (.actionFailed action.id) (StageM.tentatively (execute action))

/-- The forwarding, which returns the transfer that was forwarded. -/
def forwarding : StageM Transfer := do
  let transfer := (← get).transfer
  wrapping (.forwardingFailed payload.forwarding.protocol)
    (StageM.onWorld (forward ⟨transfer, payload.forwarding⟩))
  return transfer

/-- The execution of pre-actions with the handovers. -/
def traceAll : List Action → Traced Unit
  | [] => .silent (pure ())
  | action :: rest =>
    (Traced.handing (fun transfer => .action ⟨transfer, action⟩) (executing execute action)).andThen
      fun _ => traceAll rest

/-- A dispatch with the handovers. -/
def trace : Traced Unit :=
  (Traced.silent (screening payload)).andThen fun destination =>
    (traceAll execute payload.preActions).andThen fun _ =>
      (Traced.handing (fun transfer => .forwarding ⟨transfer, payload.forwarding⟩)
        (forwarding forward payload)).andThen fun transfer =>
          .silent (StageM.onWorld (RouterM.attempt (Statistics.record transfer destination)))

theorem erase_traceAll (actions : List Action) :
    (traceAll execute actions).erase = executeAll execute actions := by
  induction actions with
  | nil => rfl
  | cons action rest ih =>
    rw [traceAll, Traced.erase_andThen, ih]
    rfl

/-- Without the handovers noted, a traced dispatch is the dispatch. -/
theorem erase_trace : (trace execute forward payload).erase = dispatch execute forward payload := by
  have hsilent : ∀ {α : Type} (act : StageM α), (Traced.silent act).erase = act := fun _ => rfl
  have hhanding : ∀ {α : Type} (handover : Transfer → Handover) (act : StageM α),
      (Traced.handing handover act).erase = act := fun _ _ => rfl
  unfold trace dispatch screening forwarding
  simp only [Traced.erase_andThen, erase_traceAll, hsilent, hhanding, bind_assoc, pure_bind]

end

end TransferRouter
