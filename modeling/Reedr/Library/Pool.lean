import Reedr.Library.Call
import Mathlib.Data.List.Basic

/-!
# Interleaved calls

A pool holds the shared state, its history and every call invoked so far. A
move invokes a new call, lets one call execute its next statement, or refuses
that statement from outside. Moves come in any order, so a run of moves is an
arbitrary interleaving; a call that is never advanced again has stopped.

## Implementation notes

The invariant rule separates what a call knows from what a statement does.
`Justified` says that a call issues each statement with a fact `J` established
from its own earlier reads, and that this survives the steps of other calls.
`Discipline` asks of every statement issued with its fact that it keeps the
invariant. Programs are thus walked once, and each property of the shared
state is then a case analysis over statements.
-/

namespace Interleaving
variable {σ : Signature} {ε S Inv : Type}

/-- The shared world and the calls invoked so far, with what is left of each. -/
structure Pool (σ : Signature) (ε S Inv : Type) where
  world : World σ S Inv
  running : List (Inv × Call σ ε Unit)

/-- One scheduling decision. -/
inductive Move (Inv : Type) where
  | invoke (i : Inv)
  | advance (n : Nat)
  | refuse (n : Nat)
  deriving Repr

namespace Pool

/-- No call has been invoked yet. -/
def init (s : S) : Pool σ ε S Inv := ⟨.init s, []⟩

/-- Replace what is left of call `n`. -/
def resume (p : Pool σ ε S Inv) (n : Nat) (i : Inv) (c : Call σ ε Unit) : Pool σ ε S Inv :=
  { p with running := p.running.set n (i, c) }

variable (sys : System σ ε S Inv)

/-- The effect of one move; a move that is not possible changes nothing. -/
def step (p : Pool σ ε S Inv) : Move Inv → Pool σ ε S Inv
  | .invoke i => { p with running := p.running ++ [(i, sys.code i)] }
  | .advance n =>
      match p.running[n]? with
      | some (i, .step o k) =>
          match sys.exec o p.world.shared with
          | .ok (b, s) => { p.resume n i (k (.ok b)) with world := p.world.commit n i o s }
          | .error e => p.resume n i (k (.error e))
      | _ => p
  | .refuse n =>
      match p.running[n]? with
      | some (i, .step o k) =>
          if sys.external o then p.resume n i (k (.error sys.outage)) else p
      | _ => p

/-- The pool after a list of moves. -/
def run (p : Pool σ ε S Inv) (ms : List (Move Inv)) : Pool σ ε S Inv := ms.foldl (step sys) p

@[simp] theorem run_nil (p : Pool σ ε S Inv) : p.run sys [] = p := rfl

@[simp] theorem run_cons (p : Pool σ ε S Inv) (m : Move Inv) (ms : List (Move Inv)) :
    p.run sys (m :: ms) = (p.step sys m).run sys ms := rfl

theorem run_append (p : Pool σ ε S Inv) (ms ms' : List (Move Inv)) :
    p.run sys (ms ++ ms') = (p.run sys ms).run sys ms' := by
  simp [run, List.foldl_append]

/-- Move `m` makes call `n`, invoked as `i`, execute `o` successfully. -/
structure Commits (p : Pool σ ε S Inv) (m : Move Inv) (n : Nat) (i : Inv) (o : σ.Op)
    (b : σ.Res o) (s : S) : Prop where
  move : m = .advance n
  issued : ∃ k, p.running[n]? = some (i, .step o k)
  effect : sys.exec o p.world.shared = .ok (b, s)

/-- A move either executes a statement or leaves the world as it is. -/
theorem step_world (p : Pool σ ε S Inv) (m : Move Inv) :
    (∃ n i o b s, p.Commits sys m n i o b s ∧
        (p.step sys m).world = p.world.commit n i o s) ∨
      ((p.step sys m).world = p.world ∧ ∀ n i o b s, ¬ p.Commits sys m n i o b s) := by
  cases m with
  | invoke i => exact Or.inr ⟨rfl, fun _ _ _ _ _ h => nomatch h.move⟩
  | refuse n =>
      refine Or.inr ⟨?_, fun _ _ _ _ _ h => nomatch h.move⟩
      simp only [step]
      split
      · split <;> rfl
      · rfl
  | advance n =>
      cases hr : p.running[n]? with
      | none =>
          refine Or.inr ⟨by simp [step, hr], fun n' i o b s h => ?_⟩
          cases h.move
          obtain ⟨k, hk⟩ := h.issued
          simp [hr] at hk
      | some c =>
          obtain ⟨i, c⟩ := c
          cases c with
          | done a =>
              refine Or.inr ⟨by simp [step, hr], fun n' i' o b s h => ?_⟩
              cases h.move
              obtain ⟨k, hk⟩ := h.issued
              simp [hr] at hk
          | fail e =>
              refine Or.inr ⟨by simp [step, hr], fun n' i' o b s h => ?_⟩
              cases h.move
              obtain ⟨k, hk⟩ := h.issued
              simp [hr] at hk
          | step o k =>
              cases he : sys.exec o p.world.shared with
              | error e =>
                  refine Or.inr ⟨by simp [step, hr, he, resume], fun n' i' o' b s h => ?_⟩
                  cases h.move
                  obtain ⟨k', hk⟩ := h.issued
                  simp only [hr, Option.some.injEq, Prod.mk.injEq, Call.step.injEq] at hk
                  obtain ⟨_, rfl, _⟩ := hk
                  have := h.effect
                  simp [he] at this
              | ok r =>
                  obtain ⟨b, s⟩ := r
                  exact Or.inl ⟨n, i, o, b, s, ⟨rfl, ⟨k, hr⟩, he⟩, by simp [step, hr, he]⟩

/-- The statement that a move executes, with the call that issued it. -/
def commit? (p : Pool σ ε S Inv) : Move Inv → Option (Nat × Inv × σ.Op)
  | .advance n =>
      match p.running[n]? with
      | some (i, .step o _) =>
          match sys.exec o p.world.shared with
          | .ok _ => some (n, i, o)
          | .error _ => none
      | _ => none
  | _ => none

variable {sys}

theorem commit?_eq_some {p : Pool σ ε S Inv} {m : Move Inv} {n : Nat} {i : Inv} {o : σ.Op} :
    p.commit? sys m = some (n, i, o) ↔ ∃ b s, p.Commits sys m n i o b s := by
  constructor
  · intro h
    cases m with
    | invoke j => exact nomatch h
    | refuse x => exact nomatch h
    | advance x =>
        simp only [commit?] at h
        split at h
        · next hr =>
            split at h
            · next r hx =>
                cases h
                exact ⟨r.1, r.2, rfl, ⟨_, hr⟩, hx⟩
            · cases h
        · cases h
  · rintro ⟨b, s, rfl, ⟨k, hr⟩, hx⟩
    simp [commit?, hr, hx]

instance {p : Pool σ ε S Inv} {m : Move Inv} {Q : Nat → Inv → σ.Op → Prop}
    [∀ n i o, Decidable (Q n i o)] :
    Decidable (∀ n i o b s, p.Commits sys m n i o b s → Q n i o) :=
  decidable_of_iff (∀ x ∈ p.commit? sys m, Q x.1 x.2.1 x.2.2) <| by
    constructor
    · intro h n i o b s hc
      exact h (n, i, o) (commit?_eq_some.mpr ⟨b, s, hc⟩)
    · rintro h ⟨n, i, o⟩ hx
      obtain ⟨b, s, hc⟩ := commit?_eq_some.mp hx
      exact h n i o b s hc

end Pool

/-- Some world satisfying the invariant, no later than `w`, had `P`. -/
def Earlier (I : World σ S Inv → Prop) (Rely : World σ S Inv → World σ S Inv → Prop)
    (w : World σ S Inv) (P : World σ S Inv → Prop) : Prop :=
  ∃ w₀, I w₀ ∧ Rely w₀ w ∧ P w₀

section Justified
variable (sys : System σ ε S Inv)
variable (I : World σ S Inv → Prop) (Rely : World σ S Inv → World σ S Inv → Prop)
variable (J : World σ S Inv → Inv → σ.Op → Prop)

/-- From world `w` on, whatever the other calls do within `Rely`, the call issues
each of its statements in a world where the fact `J` about it holds. -/
def Justified {α : Type} (i : Inv) : Call σ ε α → World σ S Inv → Prop
  | .done _, _ => True
  | .fail _, _ => True
  | .step o k, w => ∀ w', I w' → Rely w w' → J w' i o ∧
      (∀ b s, sys.exec o w'.shared = .ok (b, s) →
        ∀ n, Justified i (k (.ok b)) (w'.commit n i o s)) ∧
      ∀ e, Justified i (k (.error e)) w'

/-- What the statements of a service guarantee when each is issued with its fact. -/
structure Discipline : Prop where
  refl : ∀ w, Rely w w
  trans : ∀ {w₁ w₂ w₃}, Rely w₁ w₂ → Rely w₂ w₃ → Rely w₁ w₃
  start : ∀ i w, I w → Justified sys I Rely J i (sys.code i) w
  keep : ∀ {w n i o b s}, I w → J w i o → sys.exec o w.shared = .ok (b, s) →
    I (w.commit n i o s) ∧ Rely w (w.commit n i o s)

variable {sys I Rely J}

namespace Justified
variable {α β : Type} {i : Inv} {w : World σ S Inv}

/-- What a call knows survives the steps of the other calls. -/
theorem mono {c : Call σ ε α} {w' : World σ S Inv} (h : Justified sys I Rely J i c w)
    (hw : Rely w w') (htrans : ∀ {w₁ w₂ w₃}, Rely w₁ w₂ → Rely w₂ w₃ → Rely w₁ w₃) :
    Justified sys I Rely J i c w' := by
  cases c with
  | done a => trivial
  | fail e => trivial
  | step o k => exact fun w'' hI hw' => h w'' hI (htrans hw hw')

/-- A call relies on no more of the invariant than it was justified with. -/
theorem strengthen {I' : World σ S Inv → Prop} {c : Call σ ε α}
    (h : Justified sys I Rely J i c w) (hI : ∀ w, I' w → I w) : Justified sys I' Rely J i c w := by
  induction c generalizing w with
  | done a => trivial
  | fail e => trivial
  | step o k ih =>
      intro w' hI' hw
      obtain ⟨hJ, hok, herr⟩ := h w' (hI w' hI') hw
      exact ⟨hJ, fun b s hb n => ih _ (hok b s hb n), fun e => ih _ (herr e)⟩

/-- A call that may rely on less may rely on more. -/
theorem rely {Rely' : World σ S Inv → World σ S Inv → Prop} {c : Call σ ε α}
    (h : Justified sys I Rely J i c w) (hrely : ∀ w w', Rely' w w' → Rely w w') :
    Justified sys I Rely' J i c w := by
  induction c generalizing w with
  | done a => trivial
  | fail e => trivial
  | step o k ih =>
      intro w' hI hw
      obtain ⟨hJ, hok, herr⟩ := h w' hI (hrely w w' hw)
      exact ⟨hJ, fun b s hb n => ih _ (hok b s hb n), fun e => ih _ (herr e)⟩

/-- Two facts that are each available for every statement are available together. -/
theorem and {J' : World σ S Inv → Inv → σ.Op → Prop} {c : Call σ ε α}
    (h : Justified sys I Rely J i c w) (h' : Justified sys I Rely J' i c w) :
    Justified sys I Rely (fun w i o => J w i o ∧ J' w i o) i c w := by
  induction c generalizing w with
  | done a => trivial
  | fail e => trivial
  | step o k ih =>
      intro w' hI hw
      obtain ⟨hJ, hok, herr⟩ := h w' hI hw
      obtain ⟨hJ', hok', herr'⟩ := h' w' hI hw
      exact ⟨⟨hJ, hJ'⟩, fun b s hb n => ih _ (hok b s hb n) (hok' b s hb n),
        fun e => ih _ (herr e) (herr' e)⟩

theorem perform_bind {o : σ.Op} {f : σ.Res o → Call σ ε β}
    (h : ∀ w', I w' → Rely w w' → J w' i o ∧
      ∀ b s, sys.exec o w'.shared = .ok (b, s) →
        ∀ n, Justified sys I Rely J i (f b) (w'.commit n i o s)) :
    Justified sys I Rely J i (Call.perform o >>= f) w := by
  intro w' hI hw
  exact ⟨(h w' hI hw).1, (h w' hI hw).2, fun _ => trivial⟩

theorem required_bind {x : Option α} {e : ε} {f : α → Call σ ε β}
    (h : ∀ a, x = some a → Justified sys I Rely J i (f a) w) :
    Justified sys I Rely J i (Call.required x e >>= f) w := by
  cases x with
  | none => trivial
  | some a => exact h a rfl

theorem ensure_bind {p : Prop} [Decidable p] {e : ε} {f : Unit → Call σ ε β}
    (h : p → Justified sys I Rely J i (f ()) w) :
    Justified sys I Rely J i (Call.ensure p e >>= f) w := by
  unfold Call.ensure
  split
  · exact h ‹p›
  · trivial

/-- Statements whose fact is always available need no knowledge of the call. -/
theorem of_uses {P : σ.Op → Prop} (hJ : ∀ w o, P o → J w i o) {c : Call σ ε α}
    (h : c.Uses P) : Justified sys I Rely J i c w := by
  induction c generalizing w with
  | done a => trivial
  | fail e => trivial
  | step o k ih =>
      exact fun w' _ _ => ⟨hJ w' o h.1, fun b s _ n => ih (.ok b) (h.2 _),
        fun e => ih (.error e) (h.2 _)⟩

/-- Statements whose fact is available in `K`, which none of them leaves. -/
theorem of_uses_within {K : World σ S Inv → Prop} {P : σ.Op → Prop}
    (hrely : ∀ {w w'}, K w → Rely w w' → K w') (hJ : ∀ {w o}, K w → P o → J w i o)
    (hkeep : ∀ {w n o b s}, K w → P o → sys.exec o w.shared = .ok (b, s) → K (w.commit n i o s))
    {c : Call σ ε α} (h : c.Uses P) (hw : K w) : Justified sys I Rely J i c w := by
  induction c generalizing w with
  | done a => trivial
  | fail e => trivial
  | step o k ih =>
      intro w' _ hw'
      have hK := hrely hw hw'
      exact ⟨hJ hK h.1, fun b s hx n => ih _ (h.2 _) (hkeep hK h.1 hx),
        fun e => ih _ (h.2 _) hK⟩

/-- A continuation that needs no knowledge may follow any justified call. -/
theorem bind {c : Call σ ε α} {f : α → Call σ ε β} (hc : Justified sys I Rely J i c w)
    (hf : ∀ a w', Justified sys I Rely J i (f a) w') :
    Justified sys I Rely J i (c >>= f) w := by
  induction c generalizing w with
  | done a => exact hf a w
  | fail e => trivial
  | step o k ih =>
      intro w' hI hw
      obtain ⟨h₁, h₂, h₃⟩ := hc w' hI hw
      exact ⟨h₁, fun b s hb n => ih _ (h₂ b s hb n), fun e => ih _ (h₃ e)⟩

theorem void {c : Call σ ε α} (hc : Justified sys I Rely J i c w) :
    Justified sys I Rely J i c.void w :=
  bind hc fun _ _ => trivial

theorem recover {c : Call σ ε α} {h : ε → Call σ ε α} (hc : Justified sys I Rely J i c w)
    (hh : ∀ e w', Justified sys I Rely J i (h e) w') :
    Justified sys I Rely J i (c.recover h) w := by
  induction c generalizing w with
  | done a => trivial
  | fail e => exact hh e w
  | step o k ih =>
      intro w' hI hw
      obtain ⟨h₁, h₂, h₃⟩ := hc w' hI hw
      exact ⟨h₁, fun b s hb n => ih _ (h₂ b s hb n), fun e => ih _ (h₃ e)⟩

end Justified

/-- A pool in which the invariant holds and every call in flight is justified. -/
def Pool.Sound (sys : System σ ε S Inv) (I : World σ S Inv → Prop)
    (Rely : World σ S Inv → World σ S Inv → Prop) (J : World σ S Inv → Inv → σ.Op → Prop)
    (p : Pool σ ε S Inv) : Prop :=
  I p.world ∧ ∀ c ∈ p.running, Justified sys I Rely J c.1 c.2 p.world

namespace Discipline

theorem sound_init (s : S) (hI : I (.init s)) :
    (Pool.init s : Pool σ ε S Inv).Sound sys I Rely J :=
  ⟨hI, fun _ hc => nomatch hc⟩

variable (D : Discipline sys I Rely J)
include D

/-- In a sound pool every statement that is executed is issued with its fact. -/
theorem justified_of_commits {p : Pool σ ε S Inv} (hp : p.Sound sys I Rely J)
    {m : Move Inv} {n : Nat} {i : Inv} {o : σ.Op} {b : σ.Res o} {s : S}
    (h : p.Commits sys m n i o b s) : J p.world i o := by
  obtain ⟨k, hk⟩ := h.issued
  have hj := hp.2 _ (List.mem_of_getElem? hk)
  exact (hj p.world hp.1 (D.refl _)).1

private theorem sound_resume {p : Pool σ ε S Inv} (hp : p.Sound sys I Rely J)
    {w : World σ S Inv} (hI : I w) (hw : Rely p.world w) (n : Nat) {i : Inv}
    {c : Call σ ε Unit} (hc : Justified sys I Rely J i c w) :
    Pool.Sound sys I Rely J { p.resume n i c with world := w } := by
  refine ⟨hI, ?_⟩
  intro d hd
  rcases List.mem_or_eq_of_mem_set hd with hd | rfl
  · exact (hp.2 d hd).mono hw D.trans
  · exact hc

/-- One move keeps a pool sound. -/
theorem sound_step {p : Pool σ ε S Inv} (hp : p.Sound sys I Rely J) (m : Move Inv) :
    (p.step sys m).Sound sys I Rely J := by
  cases m with
  | invoke i =>
      refine ⟨hp.1, ?_⟩
      intro d hd
      rcases List.mem_append.mp hd with hd | hd
      · exact hp.2 d hd
      · cases List.mem_singleton.mp hd
        exact D.start i p.world hp.1
  | advance n =>
      simp only [Pool.step]
      split
      · next i o k hr =>
          have hj := hp.2 _ (List.mem_of_getElem? hr) p.world hp.1 (D.refl _)
          split
          · next b s he =>
              obtain ⟨hI, hw⟩ := D.keep (n := n) hp.1 hj.1 he
              exact D.sound_resume hp hI hw n (hj.2.1 b s he n)
          · next e he => exact D.sound_resume hp hp.1 (D.refl _) n (hj.2.2 e)
      · exact hp
  | refuse n =>
      simp only [Pool.step]
      split
      · next i o k hr =>
          have hj := hp.2 _ (List.mem_of_getElem? hr) p.world hp.1 (D.refl _)
          split
          · exact D.sound_resume hp hp.1 (D.refl _) n (hj.2.2 sys.outage)
          · exact hp
      · exact hp

/-- Every interleaving keeps a pool sound. -/
theorem sound_run {p : Pool σ ε S Inv} (hp : p.Sound sys I Rely J) (ms : List (Move Inv)) :
    (p.run sys ms).Sound sys I Rely J := by
  induction ms generalizing p with
  | nil => exact hp
  | cons m ms ih => exact ih (D.sound_step hp m)

/-- One move stays within the relation every call relies on. -/
theorem rely_step {p : Pool σ ε S Inv} (hp : p.Sound sys I Rely J) (m : Move Inv) :
    Rely p.world (p.step sys m).world := by
  rcases p.step_world sys m with ⟨n, i, o, b, s, hc, hw⟩ | ⟨hw, _⟩
  · rw [hw]
    exact (D.keep hp.1 (D.justified_of_commits hp hc) hc.effect).2
  · rw [hw]
    exact D.refl _

/-- Any two worlds of a run, the later one after the earlier, are related. -/
theorem rely_run {p : Pool σ ε S Inv} (hp : p.Sound sys I Rely J) (ms : List (Move Inv)) :
    Rely p.world (p.run sys ms).world := by
  induction ms generalizing p with
  | nil => exact D.refl _
  | cons m ms ih => exact D.trans (D.rely_step hp m) (ih (D.sound_step hp m))

omit D in
/-- What every statement issued with its fact keeps joins the invariant. -/
theorem also (D : Discipline sys I Rely J) {K : World σ S Inv → Prop}
    (hK : ∀ {w n i o b s}, I w → K w → J w i o → sys.exec o w.shared = .ok (b, s) →
      K (w.commit n i o s)) : Discipline sys (fun w => I w ∧ K w) Rely J where
  refl := D.refl
  trans := D.trans
  start i w hw := (D.start i w hw.1).strengthen fun _ hI => hI.1
  keep hI hJ hx := ⟨⟨(D.keep hI.1 hJ hx).1, hK hI.1 hI.2 hJ hx⟩, (D.keep hI.1 hJ hx).2⟩

end Discipline

end Justified

section Along
variable (sys : System σ ε S Inv)

/-- `P` holds of every move of a run, together with the pool the move is made in. -/
def Along (P : Pool σ ε S Inv → Move Inv → Prop) : Pool σ ε S Inv → List (Move Inv) → Prop
  | _, [] => True
  | p, m :: ms => P p m ∧ Along P (p.step sys m) ms

instance Along.decidable {P : Pool σ ε S Inv → Move Inv → Prop} [∀ p m, Decidable (P p m)] :
    (p : Pool σ ε S Inv) → (ms : List (Move Inv)) → Decidable (Along sys P p ms)
  | _, [] => inferInstanceAs (Decidable True)
  | p, m :: ms =>
      have := Along.decidable (P := P) (p.step sys m) ms
      inferInstanceAs (Decidable (P p m ∧ Along sys P (p.step sys m) ms))

/-- What follows from an invariant of the steps holds of every move of a run. -/
theorem Along.of_invariant {sys : System σ ε S Inv} {G : Pool σ ε S Inv → Prop}
    {P : Pool σ ε S Inv → Move Inv → Prop} (hstep : ∀ p m, G p → G (p.step sys m))
    (h : ∀ p m, G p → P p m) {p : Pool σ ε S Inv} (hp : G p) (ms : List (Move Inv)) :
    Along sys P p ms := by
  induction ms generalizing p with
  | nil => trivial
  | cons m ms ih => exact ⟨h p m hp, ih (hstep p m hp)⟩

/-- `Q` holds of every statement executed in a run, in the world it is executed in. -/
def AllCommits (Q : World σ S Inv → Inv → σ.Op → Prop) :
    Pool σ ε S Inv → List (Move Inv) → Prop :=
  Along sys fun p m => ∀ n i o b s, p.Commits sys m n i o b s → Q p.world i o

/-- What is kept by every statement that meets `Q` holds after a run in which all
of them do. -/
theorem AllCommits.invariant {sys : System σ ε S Inv} {Q : World σ S Inv → Inv → σ.Op → Prop}
    {K : World σ S Inv → Prop}
    (hkeep : ∀ {w n i o b s}, K w → Q w i o → sys.exec o w.shared = .ok (b, s) →
      K (w.commit n i o s))
    {p : Pool σ ε S Inv} {ms : List (Move Inv)} (h : AllCommits sys Q p ms) (hp : K p.world) :
    K (p.run sys ms).world := by
  induction ms generalizing p with
  | nil => exact hp
  | cons m ms ih =>
      apply ih h.2
      rcases p.step_world sys m with ⟨n, i, o, b, s, hc, hw⟩ | ⟨hw, -⟩
      · rw [hw]
        exact hkeep hp (h.1 n i o b s hc) hc.effect
      · rwa [hw]

/-- `P` relates the worlds before and after every move of a run. -/
def AllSteps (P : World σ S Inv → World σ S Inv → Prop) :
    Pool σ ε S Inv → List (Move Inv) → Prop :=
  Along sys fun p m => P p.world (p.step sys m).world

variable {sys} {I : World σ S Inv → Prop} {Rely : World σ S Inv → World σ S Inv → Prop}
variable {J : World σ S Inv → Inv → σ.Op → Prop}

/-- A property of the later world of every step holds in every world reached. -/
theorem allSteps_reached_iff {K : World σ S Inv → Prop} {p : Pool σ ε S Inv} (hp : K p.world)
    (ms : List (Move Inv)) :
    AllSteps sys (fun _ w => K w) p ms ↔ ∀ k, K (p.run sys (ms.take k)).world := by
  induction ms generalizing p with
  | nil => exact ⟨fun _ k => by simpa using hp, fun _ => trivial⟩
  | cons m ms ih =>
      constructor
      · rintro ⟨hK, hrest⟩ k
        cases k with
        | zero => exact hp
        | succ k => exact (ih hK).mp hrest k
      · intro h
        exact ⟨h 1, (ih (h 1)).mpr fun k => h (k + 1)⟩

/-- A step property of a whole run is decided by its executed statements: when
`Q` is exactly what a statement needs for the step to have property `P`, the
steps of a run all have `P` if and only if its statements all meet `Q`. -/
theorem Discipline.allSteps_iff (D : Discipline sys I Rely J)
    {K : World σ S Inv → Prop} {P : World σ S Inv → World σ S Inv → Prop}
    {Q : World σ S Inv → Inv → σ.Op → Prop} (hrefl : ∀ w, K w → P w w)
    (hK : ∀ {w w'}, P w w' → K w')
    (h : ∀ {w n i o b s}, I w → J w i o → K w → sys.exec o w.shared = .ok (b, s) →
      (P w (w.commit n i o s) ↔ Q w i o))
    {p : Pool σ ε S Inv} (hp : p.Sound sys I Rely J) (hKp : K p.world) (ms : List (Move Inv)) :
    AllSteps sys P p ms ↔ AllCommits sys Q p ms := by
  induction ms generalizing p with
  | nil => exact Iff.rfl
  | cons m ms ih =>
      have hstep : P p.world (p.step sys m).world ↔
          ∀ n i o b s, p.Commits sys m n i o b s → Q p.world i o := by
        rcases p.step_world sys m with ⟨n, i, o, b, s, hc, hw⟩ | ⟨hw, hnone⟩
        · rw [hw, h hp.1 (D.justified_of_commits hp hc) hKp hc.effect]
          refine ⟨fun hq n' i' o' b' s' hc' => ?_, fun hall => hall n i o b s hc⟩
          cases hc.move.symm.trans hc'.move
          obtain ⟨k, hk⟩ := hc.issued
          obtain ⟨k', hk'⟩ := hc'.issued
          cases hk.symm.trans hk'
          exact hq
        · rw [hw]
          exact ⟨fun _ n i o b s hc => absurd hc (hnone n i o b s), fun _ => hrefl _ hKp⟩
      constructor
      · rintro ⟨hP, hrest⟩
        exact ⟨hstep.mp hP, (ih (D.sound_step hp m) (hK hP)).mp hrest⟩
      · rintro ⟨hQ, hrest⟩
        have hP := hstep.mpr hQ
        exact ⟨hP, (ih (D.sound_step hp m) (hK hP)).mpr hrest⟩

end Along

end Interleaving
