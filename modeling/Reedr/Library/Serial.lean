import Reedr.Library.Pool

/-!
# Whole calls, one at a time

A served call runs from its first statement to its outcome with no other call
in between. Its refusals say which of its external statements fail. `Ends` is
the corresponding precondition: from this world, however the outside refuses
statements, the call ends in an outcome and a world satisfying `Q`.

Serving calls one after another is one of the interleavings of a pool.
-/

namespace Interleaving
variable {σ : Signature} {ε S Inv α β : Type}

namespace Call
variable (sys : System σ ε S Inv) (n : Nat) (i : Inv)

/-- Run call `n` alone to its outcome; `refusals` decides, statement by
statement, whether an external one fails. -/
def eval : List Bool → Call σ ε α → World σ S Inv → Except ε α × World σ S Inv
  | _, .done a, w => (.ok a, w)
  | _, .fail e, w => (.error e, w)
  | refusals, .step o k, w =>
      if refusals.headD false && sys.external o then
        eval refusals.tail (k (.error sys.outage)) w
      else
        match sys.exec o w.shared with
        | .ok (b, s) => eval refusals.tail (k (.ok b)) (w.commit n i o s)
        | .error e => eval refusals.tail (k (.error e)) w

/-- Run alone from `w`, the call ends in an outcome and a world satisfying `Q`. -/
def Ends (Q : Except ε α → World σ S Inv → Prop) : Call σ ε α → World σ S Inv → Prop
  | .done a, w => Q (.ok a) w
  | .fail e, w => Q (.error e) w
  | .step o k, w =>
      (sys.external o = true → Ends Q (k (.error sys.outage)) w) ∧
      (∀ b s, sys.exec o w.shared = .ok (b, s) → Ends Q (k (.ok b)) (w.commit n i o s)) ∧
      (∀ e, sys.exec o w.shared = .error e → Ends Q (k (.error e)) w)

variable {sys n i}

/-- The precondition is sound for every pattern of refusals. -/
theorem Ends.eval {Q : Except ε α → World σ S Inv → Prop} {c : Call σ ε α}
    {w : World σ S Inv} (h : c.Ends sys n i Q w) (refusals : List Bool) :
    Q (c.eval sys n i refusals w).1 (c.eval sys n i refusals w).2 := by
  induction c generalizing w refusals with
  | done a => exact h
  | fail e => exact h
  | step o k ih =>
      obtain ⟨hout, hok, herr⟩ := h
      unfold Call.eval
      split
      · next hr => exact ih _ (hout (Bool.and_eq_true_iff.mp hr).2) refusals.tail
      · split
        · next b s he => exact ih _ (hok b s he) refusals.tail
        · next e he => exact ih _ (herr e he) refusals.tail

namespace Ends
variable {w : World σ S Inv}

theorem mono {Q Q' : Except ε α → World σ S Inv → Prop} (hQ : ∀ r w, Q r w → Q' r w)
    {c : Call σ ε α} (h : c.Ends sys n i Q w) : c.Ends sys n i Q' w := by
  induction c generalizing w with
  | done a => exact hQ _ _ h
  | fail e => exact hQ _ _ h
  | step o k ih =>
      exact ⟨fun hx => ih _ (h.1 hx), fun b s he => ih _ (h.2.1 b s he),
        fun e he => ih _ (h.2.2 e he)⟩

/-- Sequencing composes preconditions; a thrown error ends the whole call. -/
theorem bind {Q : Except ε β → World σ S Inv → Prop} {c : Call σ ε α} {f : α → Call σ ε β}
    (h : c.Ends sys n i (fun r w' => match r with
      | .ok a => (f a).Ends sys n i Q w'
      | .error e => Q (.error e) w') w) : (c >>= f).Ends sys n i Q w := by
  induction c generalizing w with
  | done a => exact h
  | fail e => exact h
  | step o k ih =>
      exact ⟨fun hx => ih _ (h.1 hx), fun b s he => ih _ (h.2.1 b s he),
        fun e he => ih _ (h.2.2 e he)⟩

theorem perform {Q : Except ε (σ.Res o) → World σ S Inv → Prop}
    (hout : sys.external o = true → Q (.error sys.outage) w)
    (hok : ∀ b s, sys.exec o w.shared = .ok (b, s) → Q (.ok b) (w.commit n i o s))
    (herr : ∀ e, sys.exec o w.shared = .error e → Q (.error e) w) :
    (Call.perform o : Call σ ε (σ.Res o)).Ends sys n i Q w :=
  ⟨hout, hok, herr⟩

theorem perform_bind {Q : Except ε β → World σ S Inv → Prop} {f : σ.Res o → Call σ ε β}
    (hout : sys.external o = true → Q (.error sys.outage) w)
    (hok : ∀ b s, sys.exec o w.shared = .ok (b, s) → (f b).Ends sys n i Q (w.commit n i o s))
    (herr : ∀ e, sys.exec o w.shared = .error e → Q (.error e) w) :
    (Call.perform o >>= f).Ends sys n i Q w :=
  ⟨hout, hok, herr⟩

theorem required_bind {Q : Except ε β → World σ S Inv → Prop} {x : Option α} {e : ε}
    {f : α → Call σ ε β} (hsome : ∀ a, x = some a → (f a).Ends sys n i Q w)
    (hnone : x = none → Q (.error e) w) : (Call.required x e >>= f).Ends sys n i Q w := by
  cases x with
  | none => exact hnone rfl
  | some a => exact hsome a rfl

theorem ensure_bind {Q : Except ε β → World σ S Inv → Prop} {p : Prop} [Decidable p] {e : ε}
    {f : Unit → Call σ ε β} (hpos : p → (f ()).Ends sys n i Q w)
    (hneg : ¬ p → Q (.error e) w) : (Call.ensure p e >>= f).Ends sys n i Q w := by
  unfold Call.ensure
  split
  · exact hpos ‹p›
  · exact hneg ‹¬ p›

theorem recover {Q : Except ε α → World σ S Inv → Prop} {c : Call σ ε α}
    {h : ε → Call σ ε α}
    (hc : c.Ends sys n i (fun r w' => match r with
      | .ok a => Q (.ok a) w'
      | .error e => (h e).Ends sys n i Q w') w) : (c.recover h).Ends sys n i Q w := by
  induction c generalizing w with
  | done a => exact hc
  | fail e => exact hc
  | step o k ih =>
      exact ⟨fun hx => ih _ (hc.1 hx), fun b s he => ih _ (hc.2.1 b s he),
        fun e he => ih _ (hc.2.2 e he)⟩

/-- What does not depend on the outcome holds of a call whose result is dropped. -/
theorem void {K : World σ S Inv → Prop} {c : Call σ ε α}
    (h : c.Ends sys n i (fun _ w' => K w') w) : c.void.Ends sys n i (fun _ w' => K w') w :=
  bind (h.mono fun r _ hK => by cases r <;> exact hK)

/-- A property of worlds that each entry's call keeps, whether it throws or not. -/
theorem forEach {K : World σ S Inv → Prop} {l : List α} {f : α → Call σ ε Unit}
    (hf : ∀ a ∈ l, ∀ w, K w → (f a).Ends sys n i (fun _ w' => K w') w) (h : K w) :
    (Call.forEach l f).Ends sys n i (fun _ w' => K w') w := by
  induction l generalizing w with
  | nil => exact h
  | cons a rest ih =>
      refine bind ((hf a List.mem_cons_self w h).mono ?_)
      rintro (e | _) w' h
      · exact h
      · exact ih (fun b hb => hf b (List.mem_cons_of_mem a hb)) h

/-- A call after another one; the second runs whatever the first has ended with. -/
theorem both {Q : Except ε Unit → World σ S Inv → Prop} {c : Call σ ε α} {d : Call σ ε Unit}
    (h : c.Ends sys n i (fun r w' => match r with
      | .ok _ => d.Ends sys n i Q w'
      | .error e => d.Ends sys n i (fun _ w'' => Q (.error e) w'') w') w) :
    (c.both d).Ends sys n i Q w := by
  induction c generalizing w with
  | done a => exact h
  | fail e =>
      have hd : d.Ends sys n i (fun _ w' => Q (.error e) w') w := h
      refine bind (recover (hd.mono ?_))
      rintro (e' | _) w' hQ <;> exact hQ
  | step o k ih =>
      exact ⟨fun hx => ih _ (h.1 hx), fun b s he => ih _ (h.2.1 b s he),
        fun e he => ih _ (h.2.2 e he)⟩

/-- A property of worlds that each entry's call keeps, all of them being run. -/
theorem all {K : World σ S Inv → Prop} {l : List α} {f : α → Call σ ε Unit}
    (hf : ∀ a ∈ l, ∀ w, K w → (f a).Ends sys n i (fun _ w' => K w') w) (h : K w) :
    (Call.all l f).Ends sys n i (fun _ w' => K w') w := by
  induction l generalizing w with
  | nil => exact h
  | cons a rest ih =>
      refine both ((hf a List.mem_cons_self w h).mono ?_)
      rintro (e | _) w' h <;> exact ih (fun b hb => hf b (List.mem_cons_of_mem a hb)) h

/-- A finished call ends where it is. -/
theorem ofExcept {Q : Except ε α → World σ S Inv → Prop} {r : Except ε α} (h : Q r w) :
    (Call.ofExcept r : Call σ ε α).Ends sys n i Q w := by
  cases r <;> exact h

/-- A property of worlds kept by every statement a call uses holds at its end. -/
theorem of_uses {K : World σ S Inv → Prop} {P : σ.Op → Prop}
    (hK : ∀ w o b s, P o → K w → sys.exec o w.shared = .ok (b, s) → K (w.commit n i o s))
    {c : Call σ ε α} (hc : c.Uses P) (h : K w) :
    c.Ends sys n i (fun _ w' => K w') w := by
  induction c generalizing w with
  | done a => exact h
  | fail e => exact h
  | step o k ih =>
      exact ⟨fun _ => ih _ (hc.2 _) h,
        fun b s he => ih _ (hc.2 _) (hK w o b s hc.1 h he), fun _ _ => ih _ (hc.2 _) h⟩

end Ends

section Reliable

/-- A statement that stays in reach, and whose effect is known. -/
theorem Ends.step {Q : Except ε β → World σ S Inv → Prop} {w : World σ S Inv}
    {f : σ.Res o → Call σ ε β} (hout : sys.external o = false) {b : σ.Res o} {s : S}
    (hx : sys.exec o w.shared = .ok (b, s)) (h : (f b).Ends sys n i Q (w.commit n i o s)) :
    (Call.perform o >>= f).Ends sys n i Q w := by
  apply Ends.perform_bind
  · intro hexternal
    cases hout.symm.trans hexternal
  · intro b' s' hx'
    cases hx.symm.trans hx'
    exact h
  · intro e hx'
    cases hx.symm.trans hx'

/-- With everything in reach a statement fails only for a reason of its own. -/
theorem Ends.reliable {Q : Except ε (σ.Res o) → World σ S Inv → Prop} {w : World σ S Inv}
    (hok : ∀ b s, sys.exec o w.shared = .ok (b, s) → Q (.ok b) (w.commit n i o s))
    (herr : ∀ e, sys.exec o w.shared = .error e → Q (.error e) w) :
    (Call.perform o : Call σ ε (σ.Res o)).Ends sys.reliable n i Q w :=
  ⟨nofun, hok, herr⟩

theorem Ends.reliable_bind {Q : Except ε β → World σ S Inv → Prop} {w : World σ S Inv}
    {f : σ.Res o → Call σ ε β}
    (hok : ∀ b s, sys.exec o w.shared = .ok (b, s) →
      (f b).Ends sys.reliable n i Q (w.commit n i o s))
    (herr : ∀ e, sys.exec o w.shared = .error e → Q (.error e) w) :
    (Call.perform o >>= f).Ends sys.reliable n i Q w :=
  ⟨nofun, hok, herr⟩

theorem Ends.reliable_of_uses {K : World σ S Inv → Prop} {P : σ.Op → Prop}
    (hK : ∀ w o b s, P o → K w → sys.exec o w.shared = .ok (b, s) → K (w.commit n i o s))
    {c : Call σ ε α} (hc : c.Uses P) {w : World σ S Inv} (h : K w) :
    c.Ends sys.reliable n i (fun _ w' => K w') w := by
  refine Ends.of_uses ?_ hc h
  exact hK

end Reliable

section Justified
variable {I : World σ S Inv → Prop} {Rely : World σ S Inv → World σ S Inv → Prop}
variable {J : World σ S Inv → Inv → σ.Op → Prop}

/-- Alone, a justified call meets the facts of its statements in the worlds it
passes through itself, so an invariant kept under those facts holds at its end. -/
theorem Ends.of_justified (hrefl : ∀ w, Rely w w)
    (keep : ∀ {w o b s}, I w → J w i o → sys.exec o w.shared = .ok (b, s) →
      I (w.commit n i o s)) {c : Call σ ε α} {w : World σ S Inv}
    (hc : Justified sys I Rely J i c w) (hI : I w) :
    c.Ends sys n i (fun _ w' => I w') w := by
  induction c generalizing w with
  | done a => exact hI
  | fail e => exact hI
  | step o k ih =>
      obtain ⟨hJ, hok, herr⟩ := hc w hI (hrefl w)
      exact ⟨fun _ => ih _ (herr _) hI,
        fun b s he => ih _ (hok b s he n) (keep hI hJ he), fun e _ => ih _ (herr e) hI⟩

end Justified

/-- Of the statements to come, one that is marked is refused. -/
def Refused : List Bool → List Bool → Prop
  | [], _ => False
  | marked :: marks, refusals =>
      marked = true ∧ refusals.headD false = true ∨ Refused marks refusals.tail

instance Refused.decidable : (marks refusals : List Bool) → Decidable (Refused marks refusals)
  | [], _ => inferInstanceAs (Decidable False)
  | _ :: marks, refusals =>
      have := Refused.decidable marks refusals.tail
      inferInstanceAs (Decidable (_ ∨ _))

@[simp] theorem not_refused_nil (refusals : List Bool) : ¬ Refused [] refusals := nofun

@[simp] theorem refused_cons (marked : Bool) (marks refusals : List Bool) :
    Refused (marked :: marks) refusals ↔
      marked = true ∧ refusals.headD false = true ∨ Refused marks refusals.tail := Iff.rfl

theorem not_refused_cons {marked : Bool} {marks refusals : List Bool}
    (hr : refusals.headD false = false) (h : ¬ Refused marks refusals.tail) :
    ¬ Refused (marked :: marks) refusals := by
  rintro (⟨-, hrefused⟩ | hlater)
  · exact nomatch hr.symm.trans hrefused
  · exact h hlater

/-- A refused statement is answered with the outage. -/
theorem eval_refused {o : σ.Op} {k : Except ε (σ.Res o) → Call σ ε α} {refusals : List Bool}
    {w : World σ S Inv} (hr : refusals.headD false = true) (hext : sys.external o = true) :
    (Call.step o k).eval sys n i refusals w =
      (k (.error sys.outage)).eval sys n i refusals.tail w := by
  rw [eval, hr, hext]
  rfl

/-- A statement that is not refused, and whose effect is known, is answered with its result. -/
theorem eval_answered {o : σ.Op} {b : σ.Res o} {s : S} {k : Except ε (σ.Res o) → Call σ ε α}
    {refusals : List Bool} {w : World σ S Inv}
    (hgo : (refusals.headD false && sys.external o) = false)
    (hx : sys.exec o w.shared = .ok (b, s)) :
    (Call.step o k).eval sys n i refusals w =
      (k (.ok b)).eval sys n i refusals.tail (w.commit n i o s) := by
  rw [eval, hgo, if_neg (by simp), hx]

theorem eval_step {o : σ.Op} {b : σ.Res o} {s : S} {refusals : List Bool} {w : World σ S Inv}
    (hgo : (refusals.headD false && sys.external o) = false)
    (hx : sys.exec o w.shared = .ok (b, s)) (f : σ.Res o → Call σ ε β) :
    (Call.perform o >>= f).eval sys n i refusals w =
      (f b).eval sys n i refusals.tail (w.commit n i o s) :=
  eval_answered hgo hx

/-- An external statement is refused, goes through, or fails. -/
theorem eval_perform_bind {P : Except ε β × World σ S Inv → Prop} {o : σ.Op}
    {f : σ.Res o → Call σ ε β} {refusals : List Bool} {w : World σ S Inv}
    (hext : sys.external o = true)
    (hout : refusals.headD false = true → P (.error sys.outage, w))
    (hok : refusals.headD false = false → ∀ b s, sys.exec o w.shared = .ok (b, s) →
      P ((f b).eval sys n i refusals.tail (w.commit n i o s)))
    (herr : ∀ e, sys.exec o w.shared = .error e → P (.error e, w)) :
    P ((Call.perform o >>= f).eval sys n i refusals w) := by
  show P ((Call.step o _).eval sys n i refusals w)
  unfold eval
  cases hr : refusals.headD false with
  | true =>
      rw [hext]
      exact hout hr
  | false =>
      simp only [Bool.false_and, Bool.false_eq_true, if_false]
      cases hx : sys.exec o w.shared with
      | ok r => exact hok hr r.1 r.2 hx
      | error e => exact herr e hx

theorem eval_required_bind {P : Except ε β × World σ S Inv → Prop} {x : Option α} {e : ε}
    {f : α → Call σ ε β} {refusals : List Bool} {w : World σ S Inv}
    (hsome : ∀ a, x = some a → P ((f a).eval sys n i refusals w))
    (hnone : x = none → P (.error e, w)) :
    P ((Call.required x e >>= f).eval sys n i refusals w) := by
  cases x with
  | none => exact hnone rfl
  | some a => exact hsome a rfl

theorem eval_ensure_bind {P : Except ε β × World σ S Inv → Prop} {p : Prop} [Decidable p] {e : ε}
    {f : Unit → Call σ ε β} {refusals : List Bool} {w : World σ S Inv}
    (hpos : p → P ((f ()).eval sys n i refusals w)) (hneg : ¬ p → P (.error e, w)) :
    P ((Call.ensure p e >>= f).eval sys n i refusals w) := by
  unfold Call.ensure
  split
  · exact hpos ‹p›
  · exact hneg ‹¬ p›

/-- The handler of an external statement takes its place when it is refused or fails. -/
theorem eval_handled_bind {P : Except ε β × World σ S Inv → Prop} {o : σ.Op}
    {g : ε → Call σ ε (σ.Res o)} {f : σ.Res o → Call σ ε β} {refusals : List Bool}
    {w : World σ S Inv}
    (hout : refusals.headD false = true →
      P ((g sys.outage >>= f).eval sys n i refusals.tail w))
    (hok : ∀ b s, sys.exec o w.shared = .ok (b, s) →
      P ((f b).eval sys n i refusals.tail (w.commit n i o s)))
    (herr : ∀ e, sys.exec o w.shared = .error e →
      P ((g e >>= f).eval sys n i refusals.tail w)) :
    P (((Call.perform o).recover g >>= f).eval sys n i refusals w) := by
  show P ((Call.step o _).eval sys n i refusals w)
  unfold eval
  split
  · next hr => exact hout (Bool.and_eq_true_iff.mp hr).1
  · split
    · next b s hx => exact hok b s hx
    · next e hx => exact herr e hx

/-- A statement with a handler goes through, or the handler takes its place. -/
theorem eval_recover_bind {P : Except ε β × World σ S Inv → Prop} {o : σ.Op}
    {g : ε → Call σ ε (σ.Res o)} {f : σ.Res o → Call σ ε β} {refusals : List Bool}
    {w : World σ S Inv}
    (hok : ∀ b s, sys.exec o w.shared = .ok (b, s) →
      P ((f b).eval sys n i refusals.tail (w.commit n i o s)))
    (herr : ∀ e, P ((g e >>= f).eval sys n i refusals.tail w)) :
    P (((Call.perform o).recover g >>= f).eval sys n i refusals w) := by
  show P ((Call.step o _).eval sys n i refusals w)
  unfold eval
  split
  · exact herr sys.outage
  · split
    · next b s hx => exact hok b s hx
    · next e _ => exact herr e

end Call

namespace Pool
variable (sys : System σ ε S Inv)

/-- Serve one whole call and keep its outcome. -/
def serve (p : Pool σ ε S Inv) (q : Inv × List Bool) : Pool σ ε S Inv :=
  let r := (sys.code q.1).eval sys p.running.length q.1 q.2 p.world
  ⟨r.2, p.running ++ [(q.1, .ofExcept r.1)]⟩

/-- The outcome of a call served next. -/
def reply (p : Pool σ ε S Inv) (q : Inv × List Bool) : Except ε Unit :=
  ((sys.code q.1).eval sys p.running.length q.1 q.2 p.world).1

/-- Serve a list of calls, each after the previous one has ended. -/
def serveAll (p : Pool σ ε S Inv) (qs : List (Inv × List Bool)) : Pool σ ε S Inv :=
  qs.foldl (serve sys) p

@[simp] theorem serveAll_nil (p : Pool σ ε S Inv) : p.serveAll sys [] = p := rfl

@[simp] theorem serveAll_cons (p : Pool σ ε S Inv) (q : Inv × List Bool)
    (qs : List (Inv × List Bool)) :
    p.serveAll sys (q :: qs) = (p.serve sys q).serveAll sys qs := rfl

variable {sys}

/-- What each of the calls keeps holds after all of them. -/
theorem serveAll_invariant_of {K : World σ S Inv → Prop} {qs : List (Inv × List Bool)}
    (h : ∀ q ∈ qs, ∀ w n, K w → (sys.code q.1).Ends sys n q.1 (fun _ w' => K w') w)
    {p : Pool σ ε S Inv} (hp : K p.world) : K (p.serveAll sys qs).world := by
  induction qs generalizing p with
  | nil => exact hp
  | cons q qs ih =>
      have hq := (h q List.mem_cons_self p.world p.running.length hp).eval q.2
      exact ih (fun q' hq' => h q' (List.mem_cons_of_mem q hq')) hq

/-- What every whole call keeps holds after any number of them. -/
theorem serveAll_invariant {K : World σ S Inv → Prop}
    (h : ∀ w n i, K w → (sys.code i).Ends sys n i (fun _ w' => K w') w)
    {p : Pool σ ε S Inv} (hp : K p.world) (qs : List (Inv × List Bool)) :
    K (p.serveAll sys qs).world :=
  serveAll_invariant_of (fun q _ w n hw => h w n q.1 hw) hp

/-- A property of states that each statement keeps exactly when it meets `Q`
holds throughout a run if and only if all its statements meet `Q`. -/
theorem serveAll_always_iff {I K : World σ S Inv → Prop}
    {Rely : World σ S Inv → World σ S Inv → Prop} {J : World σ S Inv → Inv → σ.Op → Prop}
    {Q : World σ S Inv → Inv → σ.Op → Prop} (hrefl : ∀ w, Rely w w)
    (hcode : ∀ i w, I w → Justified sys I Rely J i (sys.code i) w)
    (hI : ∀ {w n i o b s}, I w → J w i o → sys.exec o w.shared = .ok (b, s) →
      I (w.commit n i o s))
    (hK : ∀ {w n i o b s}, I w → J w i o → K w → sys.exec o w.shared = .ok (b, s) →
      (K (w.commit n i o s) ↔ Q w i o))
    {s : S} (hI₀ : I (.init s)) (hK₀ : K (.init s)) (qs : List (Inv × List Bool)) :
    ((init s : Pool σ ε S Inv).serveAll sys qs).world.Always K ↔
      ((init s : Pool σ ε S Inv).serveAll sys qs).world.AllExecuted Q := by
  let L : World σ S Inv → Prop := fun w => I w ∧ (w.Always K ↔ w.AllExecuted Q)
  refine And.right (serveAll_invariant (K := L) (fun w n i hw => ?_)
    (p := init s) ⟨hI₀, ?_⟩ qs)
  · refine Call.Ends.of_justified hrefl (fun {w o b s} hw hJ hx => ⟨hI hw.1 hJ hx, ?_⟩)
      ((hcode i w hw.1).strengthen fun w hw => hw.1) hw
    rw [World.always_commit, World.allExecuted_commit, hw.2]
    refine and_congr_right fun hall => ?_
    exact hK hw.1 hJ (hw.2.mpr hall).now hx
  · exact iff_of_true (World.always_init hK₀) (World.allExecuted_init s Q)

/-- What a call executes is added to what was executed before it. -/
theorem ends_allExecuted_before (Q : World σ S Inv → Inv → σ.Op → Prop) {n : Nat} {i : Inv}
    (c : Call σ ε α) (w : World σ S Inv) :
    c.Ends sys n i (fun _ w' => w'.AllExecuted Q → w.AllExecuted Q) w := by
  apply Call.Ends.of_uses _ (Call.Uses.any c) id
  intro w' o b s _ hw' _ hall
  exact hw' (World.allExecuted_commit.mp hall).1

/-- A property that each whole call keeps exactly when its statements meet `Q`
holds after every call of a run if and only if all the statements of the run meet
`Q`. -/
theorem serveAll_points_iff {I K : World σ S Inv → Prop} {Q : World σ S Inv → Inv → σ.Op → Prop}
    (hI : ∀ w n i, I w → (sys.code i).Ends sys n i (fun _ w' => I w') w)
    (hcall : ∀ w n i, I w → K w → w.AllExecuted Q →
      (sys.code i).Ends sys n i (fun _ w' => K w' ↔ w'.AllExecuted Q) w)
    {p : Pool σ ε S Inv} (hp : I p.world) (hK : K p.world) (hQ : p.world.AllExecuted Q)
    (qs : List (Inv × List Bool)) :
    (∀ k, K (p.serveAll sys (qs.take k)).world) ↔ (p.serveAll sys qs).world.AllExecuted Q := by
  induction qs generalizing p with
  | nil =>
      constructor
      · exact fun _ => hQ
      · intro _ k
        rw [List.take_nil]
        exact hK
  | cons q qs ih =>
      have hserved : I (p.serve sys q).world := (hI _ p.running.length q.1 hp).eval q.2
      have hiff : K (p.serve sys q).world ↔ (p.serve sys q).world.AllExecuted Q :=
        (hcall _ p.running.length q.1 hp hK hQ).eval q.2
      constructor
      · intro h
        have hfirst : K (p.serve sys q).world := h 1
        exact (ih hserved hfirst (hiff.mp hfirst)).mp fun k => h (k + 1)
      · intro h k
        have hfirst : (p.serve sys q).world.AllExecuted Q := by
          let L : World σ S Inv → Prop := fun w =>
            w.AllExecuted Q → (p.serve sys q).world.AllExecuted Q
          have hL : L ((p.serve sys q).serveAll sys qs).world := by
            apply serveAll_invariant (K := L) _ id
            intro w n i hw
            apply (ends_allExecuted_before Q (sys.code i) w).mono
            intro _ w' hbefore hall
            exact hw (hbefore hall)
          exact hL h
        cases k with
        | zero => exact hK
        | succ k => exact (ih hserved (hiff.mpr hfirst) hfirst).mpr h k

/-- What each statement meets when it is issued with its fact and succeeds, all
the statements of a run meet. -/
theorem serveAll_allExecuted {I : World σ S Inv → Prop}
    {Rely : World σ S Inv → World σ S Inv → Prop} {J : World σ S Inv → Inv → σ.Op → Prop}
    {Q : World σ S Inv → Inv → σ.Op → Prop} (hrefl : ∀ w, Rely w w)
    (hcode : ∀ i w, I w → Justified sys I Rely J i (sys.code i) w)
    (hI : ∀ {w n i o b s}, I w → J w i o → sys.exec o w.shared = .ok (b, s) →
      I (w.commit n i o s))
    (hQ : ∀ {w i o b s}, I w → J w i o → sys.exec o w.shared = .ok (b, s) → Q w i o)
    {s : S} (hI₀ : I (.init s)) (qs : List (Inv × List Bool)) :
    ((init s : Pool σ ε S Inv).serveAll sys qs).world.AllExecuted Q := by
  let L : World σ S Inv → Prop := fun w => I w ∧ w.AllExecuted Q
  refine And.right (serveAll_invariant (K := L) (fun w n i hw => ?_) (p := init s)
    ⟨hI₀, World.allExecuted_init s Q⟩ qs)
  refine Call.Ends.of_justified hrefl (fun {w o b s} hw hJ hx => ⟨hI hw.1 hJ hx, ?_⟩)
    ((hcode i w hw.1).strengthen fun w hw => hw.1) hw
  rw [World.allExecuted_commit]
  exact ⟨hw.2, hQ hw.1 hJ hx⟩

/-- Every outcome a running call can be driven to alone is reached by moves of
that call only. -/
private theorem drive (sys : System σ ε S Inv) (refusals : List Bool) (i : Inv)
    (c : Call σ ε Unit) (w : World σ S Inv) (l : List (Inv × Call σ ε Unit)) :
    ∃ ms, (Pool.mk w (l ++ [(i, c)])).run sys ms =
      ⟨(c.eval sys l.length i refusals w).2,
        l ++ [(i, .ofExcept (c.eval sys l.length i refusals w).1)]⟩ := by
  induction c generalizing w refusals with
  | done a => exact ⟨[], rfl⟩
  | fail e => exact ⟨[], rfl⟩
  | step o k ih =>
      unfold Call.eval
      split
      · next hr =>
          obtain ⟨ms, hms⟩ := ih (.error sys.outage) refusals.tail w
          refine ⟨.refuse l.length :: ms, ?_⟩
          rw [run_cons, ← hms]
          simp [step, resume, (Bool.and_eq_true_iff.mp hr).2]
      · split
        · next b s he =>
            obtain ⟨ms, hms⟩ := ih (.ok b) refusals.tail (w.commit l.length i o s)
            refine ⟨.advance l.length :: ms, ?_⟩
            rw [run_cons, ← hms]
            simp [step, resume, he]
        · next e he =>
            obtain ⟨ms, hms⟩ := ih (.error e) refusals.tail w
            refine ⟨.advance l.length :: ms, ?_⟩
            rw [run_cons, ← hms]
            simp [step, resume, he]

/-- Serving a call is one of the interleavings of the pool. -/
theorem exists_run_eq_serve (p : Pool σ ε S Inv) (q : Inv × List Bool) :
    ∃ ms, p.run sys ms = p.serve sys q := by
  obtain ⟨ms, hms⟩ := drive sys q.2 q.1 (sys.code q.1) p.world p.running
  exact ⟨.invoke q.1 :: ms, hms⟩

end Pool

end Interleaving
