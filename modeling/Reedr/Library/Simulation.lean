import Reedr.Library.Pool

/-!
# One pool run as another

A pool simulates another one when each of its moves is some moves of the other.
A move is one of five things, so a simulation is a case analysis over these.
-/

namespace Interleaving
variable {σ τ : Signature} {ε S S' Inv Inv' α : Type}

theorem Call.embed_recover {m : Signature.Embedding σ τ} (c : Call σ ε α) (h : ε → Call σ ε α) :
    (c.recover h).embed m = (c.embed m).recover fun e => (h e).embed m := by
  induction c with
  | done a => rfl
  | fail e => rfl
  | step o k ih => exact congrArg (Call.step (m.op o)) (funext fun r => ih (r.map (m.res o)))

namespace Pool

/-- What a move makes of a pool. -/
inductive Stepped (sys : System σ ε S Inv) (p : Pool σ ε S Inv) :
    Move Inv → Pool σ ε S Inv → Prop where
  | idle (m : Move Inv) : Stepped sys p m p
  | invoked (i : Inv) :
      Stepped sys p (.invoke i) { p with running := p.running ++ [(i, sys.code i)] }
  | executed {n : Nat} {i : Inv} {o : σ.Op} {k : Except ε (σ.Res o) → Call σ ε Unit} {b : σ.Res o}
      {s : S} (hr : p.running[n]? = some (i, .step o k))
      (hx : sys.exec o p.world.shared = .ok (b, s)) :
      Stepped sys p (.advance n) { p.resume n i (k (.ok b)) with world := p.world.commit n i o s }
  | failed {n : Nat} {i : Inv} {o : σ.Op} {k : Except ε (σ.Res o) → Call σ ε Unit} {e : ε}
      (hr : p.running[n]? = some (i, .step o k)) (hx : sys.exec o p.world.shared = .error e) :
      Stepped sys p (.advance n) (p.resume n i (k (.error e)))
  | refused {n : Nat} {i : Inv} {o : σ.Op} {k : Except ε (σ.Res o) → Call σ ε Unit}
      (hr : p.running[n]? = some (i, .step o k)) (hx : sys.external o = true) :
      Stepped sys p (.refuse n) (p.resume n i (k (.error sys.outage)))

variable {sys : System σ ε S Inv} {p : Pool σ ε S Inv}

theorem Stepped.of_step (m : Move Inv) : Stepped sys p m (p.step sys m) := by
  cases m with
  | invoke i => exact .invoked i
  | advance n =>
      simp only [step]
      split
      · next hr =>
          split
          · next hx => exact .executed hr hx
          · next hx => exact .failed hr hx
      · exact .idle _
  | refuse n =>
      simp only [step]
      split
      · next hr =>
          split
          · next hx => exact .refused hr hx
          · exact .idle _
      · exact .idle _

theorem getElem?_resume {n : Nat} {x : Inv × Call σ ε Unit} {i : Inv} {c : Call σ ε Unit}
    (hr : p.running[n]? = some x) : (p.resume n i c).running[n]? = some (i, c) :=
  List.getElem?_set_self (List.getElem?_eq_some_iff.mp hr).1

theorem getElem?_resume_of_ne {n j : Nat} {i : Inv} {c : Call σ ε Unit} (hj : j ≠ n) :
    (p.resume n i c).running[j]? = p.running[j]? :=
  List.getElem?_set_ne hj.symm

section Step
variable {n : Nat} {i : Inv} {o : σ.Op} {k : Except ε (σ.Res o) → Call σ ε Unit}
  (hr : p.running[n]? = some (i, .step o k))
include hr

theorem step_executed {b : σ.Res o} {s : S} (hx : sys.exec o p.world.shared = .ok (b, s)) :
    p.step sys (.advance n) =
      { p.resume n i (k (.ok b)) with world := p.world.commit n i o s } := by
  simp [step, hr, hx]

theorem step_failed {e : ε} (hx : sys.exec o p.world.shared = .error e) :
    p.step sys (.advance n) = p.resume n i (k (.error e)) := by
  simp [step, hr, hx]

theorem step_refused (hx : sys.external o = true) :
    p.step sys (.refuse n) = p.resume n i (k (.error sys.outage)) := by
  simp [step, hr, hx]

end Step

/-- Invoke a call and have it execute its first statement. -/
theorem run_enter {i : Inv} {o : σ.Op} {k : Except ε (σ.Res o) → Call σ ε Unit} {b : σ.Res o}
    {s : S} (hcode : sys.code i = .step o k) (hx : sys.exec o p.world.shared = .ok (b, s)) :
    p.run sys [.invoke i, .advance p.running.length] =
      ⟨p.world.commit p.running.length i o s, p.running ++ [(i, k (.ok b))]⟩ := by
  simp [step, hcode, hx, resume]

/-- Every run of a pool is a run of another one if every move of it is. -/
theorem run_simulates {sys' : System τ ε S' Inv'}
    {R : Pool σ ε S Inv → Pool τ ε S' Inv' → Prop}
    (hstep : ∀ p p' m, R p p' → ∃ ms', R (p.step sys m) (p'.run sys' ms'))
    {p' : Pool τ ε S' Inv'} (h : R p p') (ms : List (Move Inv)) :
    ∃ ms', R (p.run sys ms) (p'.run sys' ms') := by
  induction ms generalizing p p' with
  | nil => exact ⟨[], h⟩
  | cons m ms ih =>
      obtain ⟨first, hfirst⟩ := hstep p p' m h
      obtain ⟨rest, hrest⟩ := ih hfirst
      refine ⟨first ++ rest, ?_⟩
      rw [run_append]
      exact hrest

end Pool

end Interleaving
