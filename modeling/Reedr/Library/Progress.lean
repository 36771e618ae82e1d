import Mathlib.Data.Set.Finite.Lemmas
import Reedr.Library.Serial

/-!
# Calls that go through, and what they can bring about

`Returns` is the precondition under which a call returns when it runs alone and
nothing is refused, `Reaches` the one under which it leaves a given world behind,
returning or throwing. A state of the world can be attained from a pool when some
calls of a given kind, served one after another, lead there; the calls that are
already running stay where they are.
-/

namespace Interleaving
variable {σ : Signature} {ε S Inv α β : Type}

/-- There is always another name to draw. -/
theorem exists_unused (l : List String) : ∃ x, x ∉ l := by
  have : Infinite String := .of_injective String.ofList fun _ _ h => String.ofList_injective h
  obtain ⟨x, hx⟩ := Infinite.exists_notMem_finset l.toFinset
  exact ⟨x, fun h => hx (List.mem_toFinset.mpr h)⟩

namespace Call
variable (sys : System σ ε S Inv) (n : Nat) (i : Inv)

/-- Alone and without refusals the call returns a result and leaves a world
that satisfy `Q`. A statement that fails of itself may be handled by the call. -/
def Returns (Q : α → World σ S Inv → Prop) : Call σ ε α → World σ S Inv → Prop
  | .done a, w => Q a w
  | .fail _, _ => False
  | .step o k, w =>
      match sys.exec o w.shared with
      | .ok (b, s) => Returns Q (k (.ok b)) (w.commit n i o s)
      | .error e => Returns Q (k (.error e)) w

variable {sys n i}

/-- A step to which nothing is refused. -/
private theorem eval_nil_step {o : σ.Op} {k : Except ε (σ.Res o) → Call σ ε α}
    {w : World σ S Inv} :
    (Call.step o k).eval sys n i [] w =
      match sys.exec o w.shared with
      | .ok (b, s) => (k (.ok b)).eval sys n i [] (w.commit n i o s)
      | .error e => (k (.error e)).eval sys n i [] w := by
  rw [eval]
  rfl

/-- A call that returns does so when it is run. -/
theorem Returns.eval {Q : α → World σ S Inv → Prop} {c : Call σ ε α} {w : World σ S Inv}
    (h : c.Returns sys n i Q w) :
    ∃ a w', c.eval sys n i [] w = (.ok a, w') ∧ Q a w' := by
  induction c generalizing w with
  | done a => exact ⟨a, w, rfl, h⟩
  | fail e => exact h.elim
  | step o k ih =>
      unfold Returns at h
      rw [eval_nil_step]
      cases hx : sys.exec o w.shared with
      | ok r =>
          rw [hx] at h
          exact ih (.ok r.1) h
      | error e =>
          rw [hx] at h
          exact ih (.error e) h

namespace Returns
variable {w : World σ S Inv}

theorem mono {Q Q' : α → World σ S Inv → Prop} (hQ : ∀ a w, Q a w → Q' a w) {c : Call σ ε α}
    (h : c.Returns sys n i Q w) : c.Returns sys n i Q' w := by
  induction c generalizing w with
  | done a => exact hQ _ _ h
  | fail e => exact h.elim
  | step o k ih =>
      unfold Returns at h ⊢
      split at h
      · exact ih _ h
      · exact ih _ h

theorem bind {Q : β → World σ S Inv → Prop} {c : Call σ ε α} {f : α → Call σ ε β}
    (h : c.Returns sys n i (fun a w' => (f a).Returns sys n i Q w') w) :
    (c >>= f).Returns sys n i Q w := by
  induction c generalizing w with
  | done a => exact h
  | fail e => exact h.elim
  | step o k ih =>
      rw [step_bind]
      unfold Returns at h ⊢
      split at h
      · exact ih _ h
      · exact ih _ h

theorem done {Q : α → World σ S Inv → Prop} {a : α} (h : Q a w) :
    (Pure.pure a : Call σ ε α).Returns sys n i Q w := h

theorem perform {o : σ.Op} {Q : σ.Res o → World σ S Inv → Prop} {b : σ.Res o} {s : S}
    (hx : sys.exec o w.shared = .ok (b, s)) (h : Q b (w.commit n i o s)) :
    (Call.perform o : Call σ ε (σ.Res o)).Returns sys n i Q w := by
  show Returns sys n i Q (.step o _) w
  unfold Returns
  rw [hx]
  exact h

theorem perform_bind {o : σ.Op} {Q : β → World σ S Inv → Prop} {f : σ.Res o → Call σ ε β}
    {b : σ.Res o} {s : S} (hx : sys.exec o w.shared = .ok (b, s))
    (h : (f b).Returns sys n i Q (w.commit n i o s)) :
    (Call.perform o >>= f).Returns sys n i Q w :=
  bind (perform hx h)

/-- A statement with a handler goes through, or the handler takes its place. -/
theorem recover_perform {o : σ.Op} {Q : σ.Res o → World σ S Inv → Prop}
    {g : ε → Call σ ε (σ.Res o)}
    (hok : ∀ b s, sys.exec o w.shared = .ok (b, s) → Q b (w.commit n i o s))
    (herr : ∀ e, (g e).Returns sys n i Q w) :
    ((Call.perform o).recover g).Returns sys n i Q w := by
  show Returns sys n i Q (.step o _) w
  unfold Returns
  split
  · next b s hx => exact hok b s hx
  · next e hx => exact herr e

/-- A call that returns is followed by the other one. -/
theorem both {Q : Unit → World σ S Inv → Prop} {c : Call σ ε α} {d : Call σ ε Unit}
    (h : c.Returns sys n i (fun _ w' => d.Returns sys n i Q w') w) :
    (c.both d).Returns sys n i Q w := by
  induction c generalizing w with
  | done a => exact h
  | fail e => exact h.elim
  | step o k ih =>
      rw [Call.both]
      unfold Returns at h ⊢
      split at h
      · exact ih _ h
      · exact ih _ h

/-- Each entry's call returns from what the one before has left. -/
theorem all {K : World σ S Inv → Prop} {l : List α} {f : α → Call σ ε Unit}
    (hf : ∀ a ∈ l, ∀ w, K w → (f a).Returns sys n i (fun _ w' => K w') w) (h : K w) :
    (Call.all l f).Returns sys n i (fun _ w' => K w') w := by
  induction l generalizing w with
  | nil => exact h
  | cons a rest ih =>
      refine both ((hf a List.mem_cons_self w h).mono fun _ w' h => ?_)
      exact ih (fun b hb => hf b (List.mem_cons_of_mem a hb)) h

theorem required {Q : α → World σ S Inv → Prop} {x : Option α} {a : α} {e : ε}
    (hx : x = some a) (h : Q a w) : (Call.required x e : Call σ ε α).Returns sys n i Q w := by
  subst hx
  exact h

theorem required_bind {Q : β → World σ S Inv → Prop} {x : Option α} {a : α} {e : ε}
    {f : α → Call σ ε β} (hx : x = some a) (h : (f a).Returns sys n i Q w) :
    (Call.required x e >>= f).Returns sys n i Q w := by
  subst hx
  exact h

theorem ensure {Q : Unit → World σ S Inv → Prop} {p : Prop} [Decidable p] {e : ε} (hp : p)
    (h : Q () w) : (Call.ensure p e : Call σ ε Unit).Returns sys n i Q w := by
  rw [Call.ensure, if_pos hp]
  exact h

theorem ensure_bind {Q : β → World σ S Inv → Prop} {p : Prop} [Decidable p] {e : ε}
    {f : Unit → Call σ ε β} (hp : p) (h : (f ()).Returns sys n i Q w) :
    (Call.ensure p e >>= f).Returns sys n i Q w := by
  rw [Call.ensure, if_pos hp]
  exact h

theorem void {Q : World σ S Inv → Prop} {c : Call σ ε α}
    (h : c.Returns sys n i (fun _ w' => Q w') w) :
    c.void.Returns sys n i (fun _ w' => Q w') w :=
  bind h

end Returns

variable (sys n i) in
/-- Alone and without refusals the call leaves a world that satisfies `Q`, whether it
returns or throws. -/
def Reaches (Q : World σ S Inv → Prop) (c : Call σ ε α) (w : World σ S Inv) : Prop :=
  Q (c.eval sys n i [] w).2

theorem Returns.reaches {Q : World σ S Inv → Prop} {c : Call σ ε α} {w : World σ S Inv}
    (h : c.Returns sys n i (fun _ w' => Q w') w) : c.Reaches sys n i Q w := by
  obtain ⟨a, w', he, hQ⟩ := h.eval
  unfold Reaches
  rwa [he]

namespace Reaches
variable {w : World σ S Inv} {Q : World σ S Inv → Prop}

/-- What a call returns with is where the rest goes on from. -/
theorem bind {c : Call σ ε α} {f : α → Call σ ε β}
    (h : c.Returns sys n i (fun a w' => (f a).Reaches sys n i Q w') w) :
    (c >>= f).Reaches sys n i Q w := by
  induction c generalizing w with
  | done a => exact h
  | fail e => exact h.elim
  | step o k ih =>
      rw [step_bind]
      unfold Returns at h
      unfold Reaches
      rw [eval_nil_step]
      cases hx : sys.exec o w.shared with
      | ok r =>
          rw [hx] at h
          exact ih (.ok r.1) h
      | error e =>
          rw [hx] at h
          exact ih (.error e) h

theorem perform_bind {o : σ.Op} {f : σ.Res o → Call σ ε β} {b : σ.Res o} {s : S}
    (hx : sys.exec o w.shared = .ok (b, s)) (h : (f b).Reaches sys n i Q (w.commit n i o s)) :
    (Call.perform o >>= f).Reaches sys n i Q w :=
  bind (.perform hx h)

theorem required_bind {x : Option α} {a : α} {e : ε} {f : α → Call σ ε β} (hx : x = some a)
    (h : (f a).Reaches sys n i Q w) : (Call.required x e >>= f).Reaches sys n i Q w :=
  bind (.required hx h)

theorem ensure_bind {p : Prop} [Decidable p] {e : ε} {f : Unit → Call σ ε β} (hp : p)
    (h : (f ()).Reaches sys n i Q w) : (Call.ensure p e >>= f).Reaches sys n i Q w :=
  bind (.ensure hp h)

/-- A finished call leaves the world as it is. -/
theorem ofExcept {r : Except ε α} (h : Q w) :
    (Call.ofExcept r : Call σ ε α).Reaches sys n i Q w := by
  cases r <;> exact h

theorem void {c : Call σ ε α} (h : c.Reaches sys n i Q w) : c.void.Reaches sys n i Q w := by
  induction c generalizing w with
  | done a => exact h
  | fail e => exact h
  | step o k ih =>
      rw [void_eq, step_bind]
      unfold Reaches at h ⊢
      rw [eval_nil_step] at h ⊢
      cases hx : sys.exec o w.shared with
      | ok r =>
          rw [hx] at h
          exact ih (.ok r.1) h
      | error e =>
          rw [hx] at h
          exact ih (.error e) h

end Reaches

end Call

namespace Pool
variable (sys : System σ ε S Inv)

/-- Calls out of `L`, served one after another, lead to a world with `Q`. -/
def Attains (L : Inv → Prop) (Q : World σ S Inv → Prop) (p : Pool σ ε S Inv) : Prop :=
  ∃ calls : List Inv, (∀ i ∈ calls, L i) ∧
    Q (p.serveAll sys (calls.map fun i => (i, []))).world

variable {sys} {L : Inv → Prop} {Q R : World σ S Inv → Prop} {p : Pool σ ε S Inv}

theorem Attains.now (h : Q p.world) : p.Attains sys L Q := ⟨[], nofun, h⟩

/-- A call that returns has led to what it returns with. -/
theorem serve_of_returns {i : Inv}
    (h : (sys.code i).Returns sys p.running.length i (fun _ w => R w) p.world) :
    R (p.serve sys (i, [])).world :=
  h.reaches

theorem running_of_returns {i : Inv}
    (h : (sys.code i).Returns sys p.running.length i (fun _ w => R w) p.world) :
    (p.serve sys (i, [])).running = p.running ++ [(i, .done ())] := by
  obtain ⟨a, w, he, -⟩ := h.eval
  show p.running ++ [(i, Call.ofExcept ((sys.code i).eval sys p.running.length i [] p.world).1)] = _
  rw [he]
  rfl

theorem Attains.mono {L' : Inv → Prop} {Q' : World σ S Inv → Prop} (h : p.Attains sys L Q)
    (hL : ∀ i, L i → L' i) (hQ : ∀ w, Q w → Q' w) : p.Attains sys L' Q' := by
  obtain ⟨calls, hcalls, hw⟩ := h
  exact ⟨calls, fun i hi => hL i (hcalls i hi), hQ _ hw⟩

/-- What a call has reached may bring closer what can be attained after it. -/
theorem Attains.after {i : Inv} (hi : L i)
    (h : (sys.code i).Reaches sys p.running.length i R p.world)
    (hnext : R (p.serve sys (i, [])).world → (p.serve sys (i, [])).Attains sys L Q) :
    p.Attains sys L Q := by
  obtain ⟨calls, hcalls, hQ⟩ := hnext h
  refine ⟨i :: calls, ?_, hQ⟩
  rintro j (_ | ⟨_, hj⟩)
  · exact hi
  · exact hcalls j hj

theorem Attains.next {i : Inv} (hi : L i)
    (h : (sys.code i).Returns sys p.running.length i (fun _ w => R w) p.world)
    (hnext : R (p.serve sys (i, [])).world → (p.serve sys (i, [])).Attains sys L Q) :
    p.Attains sys L Q :=
  .after hi h.reaches hnext

end Pool

/-- Serving a call keeps a pool sound, with the calls in flight. -/
theorem Discipline.sound_serve {sys : System σ ε S Inv} {I : World σ S Inv → Prop}
    {Rely : World σ S Inv → World σ S Inv → Prop} {J : World σ S Inv → Inv → σ.Op → Prop}
    (D : Discipline sys I Rely J) {p : Pool σ ε S Inv} (hp : p.Sound sys I Rely J)
    (q : Inv × List Bool) : (p.serve sys q).Sound sys I Rely J := by
  obtain ⟨ms, hms⟩ := Pool.exists_run_eq_serve p q
  exact hms ▸ D.sound_run hp ms

end Interleaving
