import TransferRouter.Proofs.Breaker
import TransferRouter.Proofs.Invariant
import TransferRouter.Proofs.Pending
import TransferRouter.Proofs.Session

/-!
Calls that are signed by anyone but the authority, where only the authority may sign, leave no
trace: they are refused before anything is looked at, and a session takes the same course as the
session without them. No other administrative call is refused for its signer, and it is of no
consequence who submits a payload.
-/

namespace TransferRouter

/-! ## Signatures -/

namespace Call

/-- The signer of a call that is open only to the authority. -/
def signer? : Call → Option String
  | removePending signer _ | setAction signer _ _ | setTraffic signer _ _ _ |
    updateParams signer _ => some signer
  | _ => none

/-- A call of the administration, be it open to anyone or not. -/
def IsAdministrative : Call → Prop
  | submit .. | removePending .. | setAction .. | setTraffic .. | updateParams .. => True
  | _ => False

/-- Nobody but the authority signs what only the authority may sign. -/
def Lawful (r : Router) (call : Call) : Prop := ∀ signer ∈ call.signer?, signer = r.authority

instance (r : Router) : DecidablePred (Lawful r) :=
  fun call => inferInstanceAs (Decidable (∀ signer ∈ call.signer?, signer = r.authority))

variable {r : Router} {call : Call} {signer : String}

theorem exists_signer_of_not_lawful (h : ¬ call.Lawful r) :
    ∃ signer, call.signer? = some signer ∧ signer ≠ r.authority := by
  refine Classical.byContradiction fun hnone => h fun signer hsigner => ?_
  exact Classical.byContradiction fun hne => hnone ⟨signer, hsigner, hne⟩

/-- The signature is checked before anything else that the call brings. -/
theorem perform_of_intruder (hsigner : call.signer? = some signer) (hne : signer ≠ r.authority)
    (w : World) : call.perform r w = .error (.unauthorized r.authority signer) w := by
  cases call with
  | removePending | setAction | setTraffic | updateParams =>
    obtain rfl := Option.some.inj hsigner
    exact bind_of_error (Router.authorized_of_ne hne _ w)
  | submit | complete | remove | sweep | endBlock | accept | deliver | importState =>
    exact absurd hsigner nofun

end Call

/-! ## What is asked for by those who may -/

section

variable {α : Type}

/-- An action that does not fail for want of a signature. -/
abbrev Admits (act : RouterM α) : Prop :=
  Upholds (fun _ => True) (fun e => e.kind ≠ .unauthorized) act fun _ => True

theorem admits_onDisk (act : DiskM α) : Admits (RouterM.onDisk act) := by
  refine Upholds.intro (fun _ _ _ _ _ => ⟨trivial, trivial⟩) fun w e w' _ h => ⟨trivial, ?_⟩
  obtain ⟨cause, d, -, rfl, -⟩ := zoom_eq_error.1 h
  exact nofun

theorem admits_emit (event : Event) : Admits (RouterM.emit event) :=
  .intro (fun _ _ _ _ _ => ⟨trivial, trivial⟩) fun _ _ _ _ h => (emit_ne_error h).elim

theorem admits_checked (x : Except Invalid α) : Admits (checked x) :=
  (Upholds.settle fun _ _ => nofun).any

theorem admits_read (α : Type) [Codec α] (key : Key) : Admits (RouterM.read α key) := by
  refine (admits_onDisk _).bind fun found _ => ?_
  cases found with
  | none => exact .pure trivial
  | some value =>
    refine Upholds.bind (Upholds.settle fun _ _ => ?_) fun _ _ => .pure trivial
    exact nofun

namespace Pending

theorem admits_take (hash : PayloadHash) : Admits (take hash) := by
  refine (admits_read PendingEntry _).bind fun found _ => ?_
  cases found with
  | none => exact .throw nofun
  | some entry =>
    exact (admits_onDisk _).bind fun _ _ => (admits_emit _).bind fun _ _ => .pure trivial

theorem admits_draft (payload : Payload) : Admits (draft payload) := by
  have hparams : Admits loadParams := (admits_read Params _).bind fun _ _ => .pure trivial
  have hsequence : Admits nextSequence := (admits_read UInt64 _).bind fun _ _ => .pure trivial
  refine (admits_checked _).bind fun _ _ => hparams.bind fun params _ => ?_
  refine (admits_checked _).bind fun _ _ => Upholds.get.bind fun w _ => ?_
  refine hsequence.bind fun sequence _ => ?_
  cases successor? sequence with
  | none => exact .throw nofun
  | some next => exact .pure trivial

theorem admits_record (entry : PendingEntry) (next : UInt64) : Admits (record entry next) := by
  have hwrite : Admits (do
      RouterM.onDisk (Disk.write (recording entry next))
      RouterM.emit (.pendingPayloadSubmitted entry.hash entry.sequence)
      return entry.hash) :=
    (admits_onDisk _).bind fun _ _ => (admits_emit _).bind fun _ _ => .pure trivial
  refine (admits_onDisk _).bind fun taken _ => ?_
  exact .ite (fun _ => Upholds.bind (Q := fun _ => True) (.throw nofun) fun _ _ => hwrite)
    fun _ => hwrite

theorem admits_submit (payload : Payload) : Admits (submit payload) := by
  rw [submit_eq]
  exact (admits_draft payload).bind fun p _ => admits_record p.1 p.2

end Pending

theorem Toggle.admits_perform (call : Toggle) : Admits call.perform := by
  have hset : ∀ key paused event,
      Admits (do if ← Breaker.set key paused then RouterM.emit event) := fun key paused event =>
    (admits_onDisk _).bind fun _ _ => .ite (fun _ => admits_emit event) fun _ => .done
  match call with
  | action id paused => exact (admits_checked _).bind fun _ _ => hset _ paused _
  | traffic protocol [] paused => exact (admits_checked _).bind fun _ _ => hset _ paused _
  | traffic protocol (counterparty :: rest) paused =>
    refine (admits_checked _).bind fun _ _ => (admits_checked _).bind fun routes _ => ?_
    exact (admits_onDisk _).bind fun changed _ => .forM fun _ _ => admits_emit _

/-- The authority is never refused as such, nor is anyone who submits a payload. -/
theorem Call.admits_perform {r : Router} {call : Call} (h : call.IsAdministrative)
    (hlawful : call.Lawful r) : Admits (call.perform r) := by
  have hanswer : ∀ {γ : Type} {act : RouterM γ} (f : γ → Answer), Admits act →
      Admits (act >>= fun c => pure (f c)) :=
    fun _ hact => hact.bind fun _ _ => .pure trivial
  have hauthorized : ∀ {γ : Type} {act : RouterM γ} {signer : String}, call.signer? = some signer →
      Admits act → Admits (r.authorized signer act) := by
    intro γ act signer hsigner hact
    rwa [Router.authorized_of_eq (hlawful signer hsigner)]
  cases call with
  | submit signer payload => exact hanswer .hash (Pending.admits_submit payload)
  | removePending signer hash =>
    exact hanswer (fun _ => .done) (hauthorized rfl
      ((Pending.admits_take hash).bind fun _ _ => .pure trivial))
  | setAction signer action paused =>
    exact hanswer (fun _ => .done)
      (hauthorized rfl (Toggle.action action paused).admits_perform)
  | setTraffic signer protocol counterparties paused =>
    exact hanswer (fun _ => .done)
      (hauthorized rfl (Toggle.traffic protocol counterparties paused).admits_perform)
  | updateParams signer params =>
    exact hanswer (fun _ => .done) (hauthorized rfl ((admits_checked _).bind fun _ _ =>
      (admits_onDisk _).bind fun _ _ => admits_emit _))
  | complete | remove | sweep | endBlock | accept | deliver | importState => exact h.elim

end

/-! ## Sessions -/

variable {r : Router} {call : Call} {w w' : World}

/-- An unlawful step ends where it started. -/
theorem Step.of_not_lawful (h : ¬ call.Lawful r) (w : World) :
    ∃ signer, call.signer? = some signer ∧
      Step.of r call w = ⟨call, w, .error (.unauthorized r.authority signer), w⟩ := by
  obtain ⟨signer, hsigner, hne⟩ := Call.exists_signer_of_not_lawful h
  exact ⟨signer, hsigner, Step.of_error (Call.perform_of_intruder hsigner hne w)⟩

theorem exists_of_mem_session {calls : List (UInt64 × Call)} {s : Step}
    (h : s ∈ session r w calls) : ∃ u, s = Step.of r s.call u := by
  induction calls generalizing w with
  | nil => exact absurd h List.not_mem_nil
  | cons c calls ih =>
    rcases List.mem_cons.1 h with rfl | h
    · exact ⟨{ w with clock := c.1 }, by rw [Step.call_of]⟩
    · exact ih h

/-- Each call comes with its own time, so the time before the first does not matter. -/
theorem session_at (now : UInt64) (calls : List (UInt64 × Call)) :
    session r { w with clock := now } calls = session r w calls := by
  cases calls <;> rfl

/-- Without its unlawful steps a session is the session of the lawful calls. -/
theorem filter_session (r : Router) (w : World) (calls : List (UInt64 × Call)) :
    (session r w calls).filter (fun s => s.call.Lawful r) =
      session r w (calls.filter fun c => c.2.Lawful r) := by
  induction calls generalizing w with
  | nil => rfl
  | cons c calls ih =>
    obtain ⟨now, call⟩ := c
    rw [session, List.filter_cons, List.filter_cons, Step.call_of, ih]
    by_cases h : call.Lawful r
    · simp only [h, decide_true, if_true]
      rfl
    · -- The step left the state as it was but for the time.
      obtain ⟨signer, -, hstep⟩ := Step.of_not_lawful h { w with clock := now }
      simp only [h, decide_false, Bool.false_eq_true, if_false, hstep]
      exact session_at now _

/-- The same content of the store and the same books, be it at another time. -/
structure World.Alike (w w' : World) : Prop where
  disk : w.disk = w'.disk
  books : w.books = w'.books

theorem World.Alike.trans {u : World} (h : w.Alike w') (h' : w'.Alike u) : w.Alike u :=
  ⟨h.disk.trans h'.disk, h.books.trans h'.books⟩

theorem World.Alike.final (h : w.Alike w') (calls : List (UInt64 × Call)) :
    (final r w calls).Alike (final r w' calls) := by
  cases calls with
  | nil => exact h
  | cons c calls =>
    have hclock : { w with clock := c.1 } = { w' with clock := c.1 } := by rw [h.disk, h.books]
    rw [TransferRouter.final, TransferRouter.final, hclock]
    exact ⟨rfl, rfl⟩

/-- Lawful calls alone lead to the same state. -/
theorem alike_final_lawful (r : Router) (w : World) (calls : List (UInt64 × Call)) :
    (final r w calls).Alike (final r w (calls.filter fun c => c.2.Lawful r)) := by
  induction calls generalizing w with
  | nil => exact ⟨rfl, rfl⟩
  | cons c calls ih =>
    obtain ⟨now, call⟩ := c
    rw [final, List.filter_cons]
    by_cases h : call.Lawful r
    · simp only [h, decide_true, if_true]
      exact ih _
    · obtain ⟨signer, -, hstep⟩ := Step.of_not_lawful h { w with clock := now }
      have hsame : World.Alike { w with clock := now } w := ⟨rfl, rfl⟩
      simp only [h, decide_false, Bool.false_eq_true, if_false, hstep]
      exact (ih _).trans (hsame.final _)

/-- What unlawful calls are to a session: nothing but refusals. -/
structure Undisturbed (r : Router) (w : World) (calls : List (UInt64 × Call)) : Prop where
  /-- The other steps, their outcomes among them, are those of the session without them. -/
  steps : (session r w calls).filter (fun s => s.call.Lawful r) =
    session r w (calls.filter fun c => c.2.Lawful r)
  disk : (final r w calls).disk = (final r w (calls.filter fun c => c.2.Lawful r)).disk
  books : (final r w calls).books = (final r w (calls.filter fun c => c.2.Lawful r)).books
  /-- Each is refused for its signer, whatever else it brings. -/
  refused : ∀ s ∈ session r w calls, ¬ s.call.Lawful r → ∃ signer, s.call.signer? = some signer ∧
    s.outcome = .error (.unauthorized r.authority signer) ∧ s.after = s.before
  /-- No other call of the administration is. -/
  admitted : ∀ s ∈ session r w calls, s.call.IsAdministrative → s.call.Lawful r →
    ∀ e, s.outcome = .error e → e.kind ≠ .unauthorized
  /-- Who submits a payload is of no consequence. -/
  submitted : ∀ signer signer' payload,
    (Call.submit signer payload).perform r = (Call.submit signer' payload).perform r

/-- Whatever the authority, the state and the calls, a session takes the course that it would take
without the calls that only the authority may make and that others sign. -/
theorem undisturbed_of_session (r : Router) (w : World) (calls : List (UInt64 × Call)) :
    Undisturbed r w calls where
  steps := filter_session r w calls
  disk := (alike_final_lawful r w calls).disk
  books := (alike_final_lawful r w calls).books
  refused := by
    intro s hs h
    obtain ⟨u, hu⟩ := exists_of_mem_session hs
    obtain ⟨signer, hsigner, hstep⟩ := Step.of_not_lawful h u
    exact ⟨signer, hsigner, by rw [hu, hstep], by rw [hu, hstep]⟩
  admitted := by
    intro s hs hadministrative hlawful e he
    obtain ⟨u, hu⟩ := exists_of_mem_session hs
    cases hrun : s.call.perform r u with
    | ok a u' =>
      rw [hu, Step.of_ok hrun] at he
      exact absurd he nofun
    | error e' u' =>
      rw [hu, Step.of_error hrun] at he
      obtain rfl := Except.error.inj he
      exact ((Call.admits_perform hadministrative hlawful).error trivial hrun).2
  submitted _ _ _ := rfl

/-- Somebody tries to pause fees, the authority does, and the first records a payload and then tries
to allow no passthrough at all. -/
example :
    (session Testbed.router Testbed.world
      [(10, .setAction "mallory" .fee true), (20, .setAction "gov" .fee true),
        (30, .submit "mallory" Testbed.payload), (40, .updateParams "mallory" ⟨0⟩)]).map
      (fun s => match s.outcome with
        | .ok _ => none
        | .error e => some e.kind) =
    [some .unauthorized, none, none, some .unauthorized] := by decide +kernel

end TransferRouter
