import Reedr.Library.History
import Reedr.Library.Serial

/-!
# Calls that break off and are tried again

A call served alone may stop after any of its statements and is then never resumed.
`Passes` is the corresponding precondition: the property holds wherever the call may
stop. An invocation can be retried when each of its attempts leaves what is observed
either alone or as a whole attempt would, and a second whole attempt changes no more.
-/

namespace Interleaving
variable {σ : Signature} {ε S Inv α β : Type}

namespace Call
variable (sys : System σ ε S Inv) (n : Nat) (i : Inv)

/-- Run call `n` alone for `steps` statements: what is left of it, and the world. -/
def breakOff : Nat → Call σ ε α → World σ S Inv → Call σ ε α × World σ S Inv
  | steps + 1, .step o k, w =>
      match sys.exec o w.shared with
      | .ok (b, s) => breakOff steps (k (.ok b)) (w.commit n i o s)
      | .error e => breakOff steps (k (.error e)) w
  | _, c, w => (c, w)

/-- Run alone from `w`, the call passes only through worlds with `K`. -/
def Passes (K : World σ S Inv → Prop) : Call σ ε α → World σ S Inv → Prop
  | .done _, w => K w
  | .fail _, w => K w
  | .step o k, w => K w ∧
      (∀ b s, sys.exec o w.shared = .ok (b, s) → Passes K (k (.ok b)) (w.commit n i o s)) ∧
      ∀ e, sys.exec o w.shared = .error e → Passes K (k (.error e)) w

variable {sys n i}

namespace Passes
variable {K : World σ S Inv → Prop} {w : World σ S Inv}

theorem now {c : Call σ ε α} (h : c.Passes sys n i K w) : K w := by
  cases c with
  | done a => exact h
  | fail e => exact h
  | step o k => exact h.1

/-- The precondition is sound wherever the call breaks off. -/
theorem breakOff {c : Call σ ε α} (h : c.Passes sys n i K w) (steps : Nat) :
    K (c.breakOff sys n i steps w).2 := by
  induction steps generalizing c w with
  | zero =>
      cases c <;> exact h.now
  | succ steps ih =>
      cases c with
      | done a => exact h
      | fail e => exact h
      | step o k =>
          unfold Call.breakOff
          split
          · next b s hx => exact ih (h.2.1 b s hx)
          · next e hx => exact ih (h.2.2 e hx)

theorem perform {o : σ.Op} (hnow : K w)
    (hok : ∀ b s, sys.exec o w.shared = .ok (b, s) → K (w.commit n i o s)) :
    (Call.perform o : Call σ ε (σ.Res o)).Passes sys n i K w :=
  ⟨hnow, hok, fun _ _ => hnow⟩

theorem perform_bind {o : σ.Op} {f : σ.Res o → Call σ ε β} (hnow : K w)
    (hok : ∀ b s, sys.exec o w.shared = .ok (b, s) →
      (f b).Passes sys n i K (w.commit n i o s)) :
    (Call.perform o >>= f).Passes sys n i K w :=
  ⟨hnow, hok, fun _ _ => hnow⟩

/-- A property of worlds kept by every statement a call uses holds wherever it stops. -/
theorem of_uses {P : σ.Op → Prop}
    (hK : ∀ w o b s, P o → K w → sys.exec o w.shared = .ok (b, s) → K (w.commit n i o s))
    {c : Call σ ε α} (hc : c.Uses P) (h : K w) : c.Passes sys n i K w := by
  induction c generalizing w with
  | done a => exact h
  | fail e => exact h
  | step o k ih =>
      exact ⟨h, fun b s hx => ih _ (hc.2 _) (hK w o b s hc.1 h hx), fun _ _ => ih _ (hc.2 _) h⟩

/-- So does an invariant that each statement keeps when it is issued with its fact. -/
theorem of_justified {Rely : World σ S Inv → World σ S Inv → Prop}
    {J : World σ S Inv → Inv → σ.Op → Prop} (hrefl : ∀ w, Rely w w)
    (keep : ∀ {w o b s}, K w → J w i o → sys.exec o w.shared = .ok (b, s) →
      K (w.commit n i o s)) {c : Call σ ε α} (hc : Justified sys K Rely J i c w) (h : K w) :
    c.Passes sys n i K w := by
  induction c generalizing w with
  | done a => exact h
  | fail e => exact h
  | step o k ih =>
      obtain ⟨hJ, hok, herr⟩ := hc w h (hrefl w)
      exact ⟨h, fun b s hx => ih _ (hok b s hx n) (keep h hJ hx), fun e _ => ih _ (herr e) h⟩

end Passes

end Call

namespace Pool
variable (sys : System σ ε S Inv) (i : Inv)

/-- Attempt an invocation alone and break off after `steps` statements. -/
def attempt (p : Pool σ ε S Inv) (steps : Nat) : Pool σ ε S Inv :=
  let r := (sys.code i).breakOff sys p.running.length i steps p.world
  ⟨r.2, p.running ++ [(i, r.1)]⟩

/-- What happens next to an invocation that is being retried: another attempt at it,
or a whole call of one of the others. -/
inductive Turn (Inv : Type) (others : Inv → Bool) where
  | attempt (steps : Nat)
  | call (j : Inv) (other : others j = true) (refusals : List Bool)

variable {others : Inv → Bool}

def turn (p : Pool σ ε S Inv) : Turn Inv others → Pool σ ε S Inv
  | .attempt steps => p.attempt sys i steps
  | .call j _ refusals => p.serve sys (j, refusals)

/-- The pool after a list of turns. -/
def turns (p : Pool σ ε S Inv) (ts : List (Turn Inv others)) : Pool σ ε S Inv :=
  ts.foldl (turn sys i) p

@[simp] theorem turns_nil (p : Pool σ ε S Inv) : p.turns sys i ([] : List (Turn Inv others)) = p :=
  rfl

@[simp] theorem turns_cons (p : Pool σ ε S Inv) (t : Turn Inv others)
    (ts : List (Turn Inv others)) :
    p.turns sys i (t :: ts) = (p.turn sys i t).turns sys i ts := rfl

variable {sys i}

/-- What every attempt keeps wherever it breaks off, and every other call keeps as a
whole, holds after any turns. -/
theorem turns_invariant {K : World σ S Inv → Prop}
    (hattempt : ∀ w n, K w → (sys.code i).Passes sys n i K w)
    (hcall : ∀ j, others j = true → ∀ w n, K w →
      (sys.code j).Ends sys n j (fun _ w' => K w') w)
    {p : Pool σ ε S Inv} (hp : K p.world) (ts : List (Turn Inv others)) :
    K (p.turns sys i ts).world := by
  induction ts generalizing p with
  | nil => exact hp
  | cons t ts ih =>
      apply ih
      cases t with
      | attempt steps => exact (hattempt p.world p.running.length hp).breakOff steps
      | call j other refusals => exact (hcall j other p.world p.running.length hp).eval refusals

end Pool

section Retryable
variable {T : Type} (sys : System σ ε S Inv) (i : Inv) (obs : S → T) (f : T → T)

/-- A whole attempt applies `f` to what is observed, a broken-off one does so or
nothing, and applying `f` twice is applying it once. -/
structure Retryable : Prop where
  idempotent : ∀ x, f (f x) = f x
  broken : ∀ w n, (sys.code i).Passes sys n i
    (fun w' => obs w'.shared = obs w.shared ∨ obs w'.shared = f (obs w.shared)) w
  whole : ∀ w n, obs ((sys.code i).eval sys n i [] w).2.shared = f (obs w.shared)

variable {sys i obs f}

/-- Whatever attempts broke off before, a whole attempt ends as it would have at once. -/
theorem Retryable.serve_attempts (h : Retryable sys i obs f) {others : Inv → Bool}
    (p : Pool σ ε S Inv) (stops : List Nat) :
    obs ((p.turns sys i (stops.map fun steps =>
        (.attempt steps : Pool.Turn Inv others))).serve sys (i, [])).world.shared =
      obs (p.serve sys (i, [])).world.shared := by
  have hwhole (p : Pool σ ε S Inv) :
      obs (p.serve sys (i, [])).world.shared = f (obs p.world.shared) :=
    h.whole p.world p.running.length
  induction stops generalizing p with
  | nil => rfl
  | cons steps stops ih =>
      rw [List.map_cons, Pool.turns_cons, ih, hwhole, hwhole]
      rcases (h.broken p.world p.running.length).breakOff steps with hsame | hdone
      · exact congrArg f hsame
      · exact (congrArg f hdone).trans (h.idempotent _)

end Retryable

end Interleaving
