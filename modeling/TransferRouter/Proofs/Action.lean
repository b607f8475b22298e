import Mathlib.Order.Defs.Unbundled
import TransferRouter.World

/-!
How actions end. A chain of actions succeeds when every link does and fails at the first link that
fails; the same is said of every other way to build an action. What an action changes at most is a
relation between the state that it finds and the state that it leaves (`Keeps`), whether it succeeds
or fails.
-/

namespace TransferRouter

variable {ε ε' σ τ α β : Type}

/-! ## Success and failure of a chain -/

theorem bind_eq_ok {act : EStateM ε σ α} {f : α → EStateM ε σ β} {s t : σ} {b : β} :
    (act >>= f) s = .ok b t ↔ ∃ a u, act s = .ok a u ∧ f a u = .ok b t := by
  change EStateM.bind act f s = _ ↔ _
  unfold EStateM.bind
  cases act s with
  | ok a u => simp [and_assoc]
  | error e u => simp

theorem bind_eq_error {act : EStateM ε σ α} {f : α → EStateM ε σ β} {s t : σ} {e : ε} :
    (act >>= f) s = .error e t ↔
      act s = .error e t ∨ ∃ a u, act s = .ok a u ∧ f a u = .error e t := by
  change EStateM.bind act f s = _ ↔ _
  unfold EStateM.bind
  cases act s with
  | ok a u => simp [and_assoc]
  | error e' u => simp

theorem bind_of_ok {act : EStateM ε σ α} {f : α → EStateM ε σ β} {s u : σ} {a : α}
    (h : act s = .ok a u) : (act >>= f) s = f a u := by
  change EStateM.bind act f s = _
  simp only [EStateM.bind, h]

theorem bind_of_error {act : EStateM ε σ α} {f : α → EStateM ε σ β} {s u : σ} {e : ε}
    (h : act s = .error e u) : (act >>= f) s = .error e u := by
  change EStateM.bind act f s = _
  simp only [EStateM.bind, h]

theorem except_bind_eq_ok {x : Except ε α} {f : α → Except ε β} {b : β} :
    (x >>= f) = .ok b ↔ ∃ a, x = .ok a ∧ f a = .ok b := by
  cases x with
  | ok a => simp [bind, Except.bind]
  | error e => simp [bind, Except.bind]

/-- What is made of a list is made of each of its members. -/
theorem exists_of_mapM_eq_ok {f : α → Except ε β} {as : List α} {bs : List β}
    (h : as.mapM f = .ok bs) : ∀ a ∈ as, ∃ b, f a = .ok b := by
  induction as generalizing bs with
  | nil => exact fun _ ha => absurd ha List.not_mem_nil
  | cons a as ih =>
    rw [List.mapM_cons] at h
    obtain ⟨b, hb, h⟩ := except_bind_eq_ok.1 h
    obtain ⟨bs, hbs, -⟩ := except_bind_eq_ok.1 h
    exact List.forall_mem_cons.2 ⟨⟨b, hb⟩, ih hbs⟩

theorem exists_of_mem_mapM {f : α → Except ε β} {as : List α} {bs : List β}
    (h : as.mapM f = .ok bs) : ∀ b ∈ bs, ∃ a ∈ as, f a = .ok b := by
  induction as generalizing bs with
  | nil =>
    obtain rfl := Except.ok.inj h
    exact fun _ hb => absurd hb List.not_mem_nil
  | cons a as ih =>
    rw [List.mapM_cons] at h
    obtain ⟨b, hb, h⟩ := except_bind_eq_ok.1 h
    obtain ⟨bs', hbs, h⟩ := except_bind_eq_ok.1 h
    obtain rfl := Except.ok.inj h
    refine List.forall_mem_cons.2 ⟨⟨a, List.mem_cons_self, hb⟩, fun c hc => ?_⟩
    obtain ⟨d, hd, hdc⟩ := ih hbs c hc
    exact ⟨d, List.mem_cons_of_mem _ hd, hdc⟩

/-- A list is made member by member, and what is made tells what it was made of. -/
theorem exists_mapM_eq_ok {f : α → Except ε β} {g : β → α} {as : List α}
    (h : ∀ a ∈ as, ∃ b, f a = .ok b ∧ g b = a) : ∃ bs, as.mapM f = .ok bs ∧ bs.map g = as := by
  induction as with
  | nil => exact ⟨[], rfl, rfl⟩
  | cons a as ih =>
    obtain ⟨⟨b, hb, hg⟩, has⟩ := List.forall_mem_cons.1 h
    obtain ⟨bs, hbs, hgs⟩ := ih has
    refine ⟨b :: bs, ?_, by rw [List.map_cons, hg, hgs]⟩
    rw [List.mapM_cons, hb, hbs]
    rfl

/-- A list is not made when one of its members is not. -/
theorem exists_of_mapM_eq_error {f : α → Except ε β} {as : List α} {e : ε}
    (h : as.mapM f = .error e) : ∃ a ∈ as, f a = .error e := by
  induction as with
  | nil => exact absurd h nofun
  | cons a as ih =>
    rw [List.mapM_cons] at h
    cases ha : f a with
    | error e' =>
      rw [ha] at h
      obtain rfl : e' = e := Except.error.inj h
      exact ⟨a, List.mem_cons_self, ha⟩
    | ok b =>
      rw [ha] at h
      cases has : as.mapM f with
      | error e' =>
        rw [has] at h
        obtain rfl : e' = e := Except.error.inj h
        obtain ⟨c, hc, hce⟩ := ih has
        exact ⟨c, List.mem_cons_of_mem _ hc, hce⟩
      | ok bs =>
        rw [has] at h
        exact absurd h nofun

theorem pure_eq_ok {s t : σ} {a b : α} :
    (pure a : EStateM ε σ α) s = .ok b t ↔ a = b ∧ s = t := by
  change EStateM.Result.ok a s = _ ↔ _
  simp

theorem pure_ne_error {s t : σ} {a : α} {e : ε} :
    ¬ (pure a : EStateM ε σ α) s = .error e t := by
  change ¬ EStateM.Result.ok a s = _
  simp

theorem throw_ne_ok {s t : σ} {e : ε} {a : α} : ¬ (throw e : EStateM ε σ α) s = .ok a t := by
  change ¬ EStateM.Result.error e s = _
  simp

theorem throw_eq_error {s t : σ} {e e' : ε} :
    (throw e : EStateM ε σ α) s = .error e' t ↔ e = e' ∧ s = t := by
  change EStateM.Result.error e s = _ ↔ _
  simp

theorem get_eq_ok {s t u : σ} : (get : EStateM ε σ σ) s = .ok t u ↔ s = t ∧ s = u := by
  change EStateM.Result.ok s s = _ ↔ _
  simp

theorem get_ne_error {s t : σ} {e : ε} : ¬ (get : EStateM ε σ σ) s = .error e t := by
  change ¬ EStateM.Result.ok s s = _
  simp

theorem modify_eq_ok {f : σ → σ} {s t : σ} {a : PUnit} :
    (modify f : EStateM ε σ PUnit) s = .ok a t ↔ f s = t := by
  change EStateM.Result.ok PUnit.unit (f s) = _ ↔ _
  simp

theorem modify_ne_error {f : σ → σ} {s t : σ} {e : ε} :
    ¬ (modify f : EStateM ε σ PUnit) s = .error e t := by
  change ¬ EStateM.Result.ok PUnit.unit (f s) = _
  simp

theorem settle_eq_ok {wrap : ε → ε'} {x : Except ε α} {s t : σ} {a : α} :
    settle wrap x s = .ok a t ↔ x = .ok a ∧ s = t := by
  cases x with
  | ok b => simp [settle, pure_eq_ok]
  | error e => simp [settle, throw_ne_ok]

theorem settle_eq_error {wrap : ε → ε'} {x : Except ε α} {s t : σ} {e : ε'} :
    settle wrap x s = .error e t ↔ (∃ cause, x = .error cause ∧ wrap cause = e) ∧ s = t := by
  cases x with
  | ok b => simp [settle, pure_ne_error]
  | error e' => simp [settle, throw_eq_error]

theorem settle_run {wrap : ε → ε'} (a : α) (s : σ) : settle wrap (.ok a) s = .ok a s := rfl

theorem checked_run {x : Except Invalid α} {a : α} (h : x = .ok a) (s : σ) :
    checked x s = .ok a s := by
  rw [checked, h, settle_run]

theorem checked_error {x : Except Invalid α} {cause : Invalid} (h : x = .error cause) (s : σ) :
    checked x s = .error (.validation cause) s := by
  rw [h]
  rfl

theorem zoom_eq_ok {view : σ → τ} {update : σ → τ → σ} {wrap : ε → ε'} {act : EStateM ε τ α}
    {s s' : σ} {a : α} : zoom view update wrap act s = .ok a s' ↔
      ∃ t, act (view s) = .ok a t ∧ update s t = s' := by
  unfold zoom
  cases act (view s) with
  | ok b t => simp [and_assoc]
  | error e t => simp

theorem zoom_eq_error {view : σ → τ} {update : σ → τ → σ} {wrap : ε → ε'} {act : EStateM ε τ α}
    {s s' : σ} {e : ε'} : zoom view update wrap act s = .error e s' ↔
      ∃ cause t, act (view s) = .error cause t ∧ wrap cause = e ∧ update s t = s' := by
  unfold zoom
  cases act (view s) with
  | ok b t => simp
  | error e' t => simp [and_assoc]

theorem wrapping_eq_ok {wrap : ε → ε'} {act : EStateM ε σ α} {s t : σ} {a : α} :
    wrapping wrap act s = .ok a t ↔ act s = .ok a t := by
  rw [wrapping, zoom_eq_ok]
  exact exists_eq_right

theorem wrapping_eq_error {wrap : ε → ε'} {act : EStateM ε σ α} {s t : σ} {e : ε'} :
    wrapping wrap act s = .error e t ↔ ∃ cause, act s = .error cause t ∧ wrap cause = e := by
  rw [wrapping, zoom_eq_error]
  refine exists_congr fun cause => ⟨?_, fun ⟨h, hwrap⟩ => ⟨t, h, hwrap, rfl⟩⟩
  rintro ⟨_, h, hwrap, rfl⟩
  exact ⟨h, hwrap⟩

theorem staged_eq_ok {transfer : Transfer} {act : StageM α} {w w' : World} {p : α × Transfer} :
    RouterM.staged transfer act w = .ok p w' ↔ act ⟨w, transfer⟩ = .ok p.1 ⟨w', p.2⟩ := by
  unfold RouterM.staged
  obtain ⟨a, transfer'⟩ := p
  cases act ⟨w, transfer⟩ with
  | ok b s => obtain ⟨v, t⟩ := s; simp [and_assoc, and_comm]
  | error e s => simp

theorem staged_eq_error {transfer : Transfer} {act : StageM α} {w w' : World} {e : RouterError} :
    RouterM.staged transfer act w = .error e w' ↔
      ∃ transfer', act ⟨w, transfer⟩ = .error e ⟨w', transfer'⟩ := by
  unfold RouterM.staged
  cases act ⟨w, transfer⟩ with
  | ok b s => simp
  | error e' s => obtain ⟨v, t⟩ := s; simp

theorem tentatively_eq_ok {act : StageM α} {s s' : Stage} {a : α} :
    StageM.tentatively act s = .ok a s' ↔ act s = .ok a s' := by
  unfold StageM.tentatively
  cases act s <;> simp

theorem tentatively_eq_error {act : StageM α} {s s' : Stage} {e : RouterError} :
    StageM.tentatively act s = .error e s' ↔
      ∃ t, act s = .error e t ∧ { t with transfer := s.transfer } = s' := by
  unfold StageM.tentatively
  cases act s <;> simp [and_assoc]

/-- An attempt always succeeds, with the state that the action left. -/
theorem attempt_eq_ok {act : RouterM Unit} {w w' : World} :
    RouterM.attempt act w = .ok () w' ↔ act w = .ok () w' ∨ ∃ e, act w = .error e w' := by
  unfold RouterM.attempt
  cases act w <;> simp

theorem attempt_ne_error {act : RouterM Unit} {w w' : World} {e : RouterError} :
    ¬ RouterM.attempt act w = .error e w' := by
  unfold RouterM.attempt
  cases act w <;> simp

/-- True when an action succeeds. -/
def succeeds (act : EStateM ε σ α) (s : σ) : Bool :=
  match act s with
  | .ok .. => true
  | .error .. => false

theorem exists_of_succeeds {act : EStateM ε σ α} {s : σ} (h : succeeds act s = true) :
    ∃ a t, act s = .ok a t := by
  unfold succeeds at h
  split at h
  next a t hs => exact ⟨a, t, hs⟩
  next => exact absurd h nofun

theorem exists_of_fails {act : EStateM ε σ α} {s : σ} (h : succeeds act s = false) :
    ∃ e t, act s = .error e t := by
  unfold succeeds at h
  split at h
  next => exact absurd h nofun
  next e t hs => exact ⟨e, t, hs⟩

theorem run'_of_ok {act : EStateM ε σ α} {s t : σ} {a : α} (h : act s = .ok a t) :
    act.run' s = some a := by
  have hrun : act.run s = .ok a t := h
  change (match act.run s with | .ok a _ => some a | .error .. => none) = _
  rw [hrun]

/-! ## What an action changes at most -/

/-- The state that an action leaves, whether it succeeds or fails. -/
def leaves (act : EStateM ε σ α) (s : σ) : σ :=
  match act s with
  | .ok _ t | .error _ t => t

theorem leaves_of_ok {act : EStateM ε σ α} {s t : σ} {a : α} (h : act s = .ok a t) :
    leaves act s = t := by
  simp only [leaves, h]

theorem leaves_of_error {act : EStateM ε σ α} {s t : σ} {e : ε} (h : act s = .error e t) :
    leaves act s = t := by
  simp only [leaves, h]

/-- The state that an action leaves is always related to the one that it found. -/
def Keeps (R : σ → σ → Prop) (act : EStateM ε σ α) : Prop := ∀ s, R s (leaves act s)

namespace Keeps

variable {R R' : σ → σ → Prop} {act : EStateM ε σ α}

theorem ok (h : Keeps R act) {s t : σ} {a : α} (hs : act s = .ok a t) : R s t :=
  leaves_of_ok hs ▸ h s

theorem error (h : Keeps R act) {s t : σ} {e : ε} (hs : act s = .error e t) : R s t :=
  leaves_of_error hs ▸ h s

theorem intro (hok : ∀ s a t, act s = .ok a t → R s t)
    (herror : ∀ s e t, act s = .error e t → R s t) : Keeps R act := by
  intro s
  unfold leaves
  cases hs : act s with
  | ok a t => exact hok s a t hs
  | error e t => exact herror s e t hs

theorem mono (h : Keeps R act) (hR : ∀ s t, R s t → R' s t) : Keeps R' act :=
  fun s => hR _ _ (h s)

theorem pure [IsPreorder σ R] (a : α) : Keeps R (Pure.pure a : EStateM ε σ α) :=
  fun s => refl_of R s

theorem throw [IsPreorder σ R] (e : ε) : Keeps R (MonadExcept.throw e : EStateM ε σ α) :=
  fun s => refl_of R s

theorem get [IsPreorder σ R] : Keeps R (MonadState.get : EStateM ε σ σ) :=
  fun s => refl_of R s

theorem settle [IsPreorder σ R] (wrap : ε' → ε) (x : Except ε' α) :
    Keeps R (TransferRouter.settle wrap x : EStateM ε σ α) := by
  cases x with
  | ok a => exact pure a
  | error e => exact throw _

theorem checked [IsPreorder σ R] (x : Except Invalid α) :
    Keeps R (TransferRouter.checked x : EStateM RouterError σ α) :=
  settle _ x

/-- What is done with a result is related when the result is one that the action can have. -/
theorem bind_of [IsPreorder σ R] {f : α → EStateM ε σ β} {Q : α → Prop} (h : Keeps R act)
    (hQ : ∀ s a t, act s = .ok a t → Q a) (hf : ∀ a, Q a → Keeps R (f a)) :
    Keeps R (act >>= f) := by
  refine intro (fun s b t hs => ?_) fun s e t hs => ?_
  · obtain ⟨a, u, h1, h2⟩ := bind_eq_ok.1 hs
    exact trans_of R (h.ok h1) ((hf a (hQ s a u h1)).ok h2)
  · rcases bind_eq_error.1 hs with h1 | ⟨a, u, h1, h2⟩
    · exact h.error h1
    · exact trans_of R (h.ok h1) ((hf a (hQ s a u h1)).error h2)

theorem bind [IsPreorder σ R] {f : α → EStateM ε σ β} (h : Keeps R act)
    (hf : ∀ a, Keeps R (f a)) : Keeps R (act >>= f) :=
  bind_of (Q := fun _ => True) h (fun _ _ _ _ => trivial) fun a _ => hf a

theorem modify {f : σ → σ} (h : ∀ s, R s (f s)) :
    Keeps R (modifyGet (fun s => (PUnit.unit, f s)) : EStateM ε σ PUnit) := h

theorem forM [IsPreorder σ R] {f : β → EStateM ε σ PUnit} {bs : List β}
    (h : ∀ b ∈ bs, Keeps R (f b)) : Keeps R (bs.forM f) := by
  induction bs with
  | nil => exact pure _
  | cons b bs ih =>
    exact bind (h b List.mem_cons_self) fun _ => ih fun c hc => h c (List.mem_cons_of_mem _ hc)

theorem ite {act' : EStateM ε σ α} {p : Prop} [Decidable p] (h : Keeps R act)
    (h' : Keeps R act') : Keeps R (if p then act else act') := by
  split
  · exact h
  · exact h'

theorem zoom {view : σ → τ} {update : σ → τ → σ} {wrap : ε → ε'} {S : τ → τ → Prop}
    {act : EStateM ε τ α} (h : Keeps S act) (hR : ∀ s t, S (view s) t → R s (update s t)) :
    Keeps R (TransferRouter.zoom view update wrap act) := by
  refine intro (fun s a s' hs => ?_) fun s e s' hs => ?_
  · obtain ⟨t, ht, rfl⟩ := zoom_eq_ok.1 hs
    exact hR s t (h.ok ht)
  · obtain ⟨_, t, ht, _, rfl⟩ := zoom_eq_error.1 hs
    exact hR s t (h.error ht)

theorem wrapping {wrap : ε → ε'} (h : Keeps R act) : Keeps R (TransferRouter.wrapping wrap act) :=
  h.zoom fun _ _ h => h

theorem staged {R : World → World → Prop} {act : StageM α} {transfer : Transfer}
    (h : Keeps (fun s t => R s.world t.world) act) : Keeps R (RouterM.staged transfer act) := by
  refine intro (fun w p w' hw => ?_) fun w e w' hw => ?_
  · exact h.ok (staged_eq_ok.1 hw)
  · obtain ⟨_, hw⟩ := staged_eq_error.1 hw
    exact h.error hw

theorem attempt {R : World → World → Prop} {act : RouterM Unit} (h : Keeps R act) :
    Keeps R (RouterM.attempt act) := by
  refine intro (fun w a w' hw => ?_) fun w e w' hw => (attempt_ne_error hw).elim
  rcases attempt_eq_ok.1 hw with hw | ⟨e, hw⟩
  · exact h.ok hw
  · exact h.error hw

/-- Taking a transfer back is no change of what a relation between worlds sees. -/
theorem tentatively {R : Stage → Stage → Prop} {act : StageM α} (h : Keeps R act)
    (hR : ∀ s t, R s t → R s { t with transfer := s.transfer }) :
    Keeps R (StageM.tentatively act) := by
  refine intro (fun s a t hs => h.ok (tentatively_eq_ok.1 hs)) fun s e t hs => ?_
  obtain ⟨u, hu, rfl⟩ := tentatively_eq_error.1 hs
  exact hR s u (h.error hu)

end Keeps

end TransferRouter
