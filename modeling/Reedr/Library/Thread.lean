import Reedr.Library.Pool

/-!
# One call among others

What a call has executed so far, and what is left of it, depend on the replies
it got, not on who else ran in between. A property of the two that every reply
keeps therefore holds of each call of a pool at any time.
-/

namespace Interleaving
variable {σ : Signature} {ε S Inv α β : Type}

/-- The statement may be refused with this error, in some state or by an outage. -/
def System.MayFail (sys : System σ ε S Inv) (o : σ.Op) (e : ε) : Prop :=
  (∃ s, sys.exec o s = .error e) ∨ (sys.external o = true ∧ e = sys.outage)

/-- The statements call `n` has executed in a history, in order. -/
def executed (n : Nat) (trace : List (Commit σ S Inv)) : List σ.Op :=
  (trace.filter fun c => c.call = n).map fun c => c.op

theorem mem_executed {n : Nat} {trace : List (Commit σ S Inv)} {o : σ.Op} :
    o ∈ executed n trace ↔ ∃ c ∈ trace, c.call = n ∧ c.op = o := by
  simp [executed, and_assoc]

/-- A longer history knows of at least the same statements. -/
theorem executed_mono {n : Nat} {trace trace' : List (Commit σ S Inv)} {o : σ.Op}
    (h : o ∈ executed n trace) (hsub : trace <+: trace') : o ∈ executed n trace' := by
  obtain ⟨c, hc, hrest⟩ := mem_executed.mp h
  exact mem_executed.mpr ⟨c, hsub.subset hc, hrest⟩

theorem mem_executed_commit (w : World σ S Inv) (n : Nat) (i : Inv) (o : σ.Op) (s : S) :
    o ∈ executed n (w.commit n i o s).trace :=
  mem_executed.mpr ⟨⟨n, i, o, w.shared⟩, by simp, rfl, rfl⟩

/-- The same statements, each with the shared state it was executed in. -/
def memory (n : Nat) (trace : List (Commit σ S Inv)) : List (σ.Op × S) :=
  (trace.filter fun c => c.call = n).map fun c => (c.op, c.before)

theorem mem_memory {n : Nat} {trace : List (Commit σ S Inv)} {x : σ.Op × S} :
    x ∈ memory n trace ↔ ∃ c ∈ trace, c.call = n ∧ (c.op, c.before) = x := by
  simp [memory, and_assoc]

theorem memory_fst (n : Nat) (trace : List (Commit σ S Inv)) :
    (memory n trace).map Prod.fst = executed n trace := by
  simp [memory, executed]

theorem memory_commit_self (w : World σ S Inv) (n : Nat) (i : Inv) (o : σ.Op) (s : S) :
    memory n (w.commit n i o s).trace = memory n w.trace ++ [(o, w.shared)] := by
  simp [memory]

theorem memory_commit_ne (w : World σ S Inv) {m n : Nat} (h : m ≠ n) (i : Inv) (o : σ.Op)
    (s : S) : memory m (w.commit n i o s).trace = memory m w.trace := by
  simp [memory, Ne.symm h]

section Latest
variable {Op : Type} (p : Op → Bool) (l l' : List (Op × S)) (x : Op × S)

/-- The last statement with `p` that a memory holds. -/
def latest : Option (Op × S) := l.reverse.find? fun x => p x.1

@[simp] theorem latest_nil : latest p ([] : List (Op × S)) = none := rfl

@[simp] theorem latest_append : latest p (l ++ l') = (latest p l').or (latest p l) := by
  simp [latest, List.find?_append]

@[simp] theorem latest_cons :
    latest p (x :: l) = (latest p l).or (if p x.1 then some x else none) := by
  cases h : p x.1 <;> simp [latest, List.find?_append, h]

variable {p l x}

/-- Whatever comes after it does not have `p`. -/
theorem latest_eq_some (hx : p x.1 = true) (hafter : ∀ y ∈ l, p y.1 = false) :
    latest p (l' ++ x :: l) = some x := by
  have hnone : latest p l = none := by
    apply List.find?_eq_none.mpr
    intro y hy
    simp [hafter y (List.mem_reverse.mp hy)]
  simp [hnone, hx]

theorem mem_of_latest (h : latest p l = some x) : x ∈ l ∧ p x.1 = true := by
  unfold latest at h
  have hp := List.find?_some h
  exact ⟨List.mem_reverse.mp (List.mem_of_find?_eq_some h), hp⟩

end Latest

theorem memory_append (n : Nat) (l₁ l₂ : List (Commit σ S Inv)) :
    memory n (l₁ ++ l₂) = memory n l₁ ++ memory n l₂ := by
  simp [memory]

/-- The statement may be refused with this error, in a state in `V` or by an outage. -/
def System.FailsIn (sys : System σ ε S Inv) (V : S → Prop) (o : σ.Op) (e : ε) : Prop :=
  (∃ s, V s ∧ sys.exec o s = .error e) ∨ (sys.external o = true ∧ e = sys.outage)

theorem System.FailsIn.mayFail {sys : System σ ε S Inv} {V : S → Prop} {o : σ.Op} {e : ε}
    (h : sys.FailsIn V o e) : sys.MayFail o e :=
  h.imp (fun ⟨s, _, hs⟩ => ⟨s, hs⟩) id

/-- A property of what a call remembers and of what is left of it, as long as the
shared state stays in `V`, which no statement leaves. -/
structure MemoryInvariant (sys : System σ ε S Inv) (V : S → Prop)
    (T : Inv → List (σ.Op × S) → Call σ ε Unit → Prop) : Prop where
  keep : ∀ {o s b s'}, V s → sys.exec o s = .ok (b, s') → V s'
  start : ∀ i, T i [] (sys.code i)
  ok : ∀ {i l o k}, T i l (.step o k) → ∀ {s b s'}, V s → sys.exec o s = .ok (b, s') →
    T i (l ++ [(o, s)]) (k (.ok b))
  error : ∀ {i l o k}, T i l (.step o k) → ∀ e, sys.FailsIn V o e → T i l (k (.error e))

namespace MemoryInvariant
variable {sys : System σ ε S Inv} {V : S → Prop}
variable {T : Inv → List (σ.Op × S) → Call σ ε Unit → Prop}

/-- The invariant of every call, and that the history knows no other calls. -/
structure Holds (V : S → Prop) (T : Inv → List (σ.Op × S) → Call σ ε Unit → Prop)
    (p : Pool σ ε S Inv) : Prop where
  shared : V p.world.shared
  known : ∀ c ∈ p.world.trace, c.call < p.running.length
  thread : ∀ {n i c}, p.running[n]? = some (i, c) → T i (memory n p.world.trace) c

private theorem holds_resume {p : Pool σ ε S Inv} (hp : Holds V T p) {n : Nat} {i : Inv}
    {c : Call σ ε Unit} (hT : T i (memory n p.world.trace) c) : Holds V T (p.resume n i c) := by
  refine ⟨hp.shared, fun x hx => by simpa [Pool.resume] using hp.known x hx, ?_⟩
  intro m j d hd
  simp only [Pool.resume, List.getElem?_set] at hd
  split at hd
  · next hnm =>
      split at hd
      · cases hd
        exact hnm ▸ hT
      · cases hd
  · exact hp.thread hd

/-- A call just invoked is new to the history. -/
private theorem holds_invoke (H : MemoryInvariant sys V T) {p : Pool σ ε S Inv}
    (hp : Holds V T p) (i : Inv) : Holds V T (p.step sys (.invoke i)) := by
  refine ⟨hp.shared, ?_, ?_⟩
  · intro c hc
    have := hp.known c hc
    simp only [Pool.step, List.length_append, List.length_singleton]
    omega
  · intro n j c hc
    simp only [Pool.step, List.getElem?_append] at hc
    split at hc
    · exact hp.thread hc
    · next hlt =>
      obtain rfl : n = p.running.length := by
        obtain ⟨hl, -⟩ := List.getElem?_eq_some_iff.mp hc
        simp only [List.length_singleton] at hl
        omega
      simp only [Nat.sub_self, List.getElem?_cons_zero, Option.some.injEq, Prod.mk.injEq] at hc
      obtain ⟨rfl, rfl⟩ := hc
      have hnone : memory p.running.length p.world.trace = [] := by
        rw [List.eq_nil_iff_forall_not_mem]
        intro x hx
        obtain ⟨c, hc, hcn, -⟩ := mem_memory.mp hx
        exact absurd (hp.known c hc) (by omega)
      show T i (memory p.running.length p.world.trace) (sys.code i)
      rw [hnone]
      exact H.start i

theorem holds_step (H : MemoryInvariant sys V T) {p : Pool σ ε S Inv} (hp : Holds V T p)
    (m : Move Inv) : Holds V T (p.step sys m) := by
  cases m with
  | invoke i => exact holds_invoke H hp i
  | advance n =>
      simp only [Pool.step]
      split
      · next i o k hr =>
          have hT := hp.thread hr
          split
          · next b s he =>
              have hlen : n < p.running.length := (List.getElem?_eq_some_iff.mp hr).1
              refine ⟨H.keep hp.shared he, ?_, ?_⟩
              · intro c hc
                simp only [World.commit_trace, List.mem_append, List.mem_singleton] at hc
                rcases hc with hc | rfl
                · simpa [Pool.resume] using hp.known c hc
                · simpa [Pool.resume] using hlen
              · intro m j c hc
                simp only [Pool.resume, List.getElem?_set] at hc
                split at hc
                · next hnm =>
                    subst hnm
                    cases hc
                    rw [memory_commit_self]
                    exact H.ok hT hp.shared he
                · next hnm =>
                    rw [memory_commit_ne _ fun h => hnm h.symm]
                    exact hp.thread hc
          · next e he => exact holds_resume hp (H.error hT e (Or.inl ⟨_, hp.shared, he⟩))
      · exact hp
  | refuse n =>
      simp only [Pool.step]
      split
      · next i o k hr =>
          split
          · next hx => exact holds_resume hp (H.error (hp.thread hr) _ (Or.inr ⟨hx, rfl⟩))
          · exact hp
      · exact hp

theorem holds_init {s : S} (h : V s) : Holds V T (Pool.init s : Pool σ ε S Inv) :=
  ⟨h, nofun, nofun⟩

theorem holds_run (H : MemoryInvariant sys V T) {p : Pool σ ε S Inv} (hp : Holds V T p)
    (ms : List (Move Inv)) : Holds V T (p.run sys ms) := by
  induction ms generalizing p with
  | nil => exact hp
  | cons m ms ih => exact ih (holds_step H hp m)

/-- What each statement keeps if its call remembers so and it meets `Q`, all the
statements of a run keep. -/
theorem always_run (H : MemoryInvariant sys V T) {K : World σ S Inv → Prop}
    {Q : World σ S Inv → Nat → σ.Op → Prop}
    (hkeep : ∀ {w n i o k b s}, w.Always K → T i (memory n w.trace) (.step o k) → Q w n o →
      sys.exec o w.shared = .ok (b, s) → K (w.commit n i o s))
    {p : Pool σ ε S Inv} (hp : Holds V T p) (hK : p.world.Always K) (ms : List (Move Inv))
    (hQ : Along sys (fun p m => ∀ n i o b s, p.Commits sys m n i o b s → Q p.world n o) p ms) :
    (p.run sys ms).world.Always K := by
  induction ms generalizing p with
  | nil => exact hK
  | cons m ms ih =>
      obtain ⟨hnow, hrest⟩ := hQ
      apply ih (holds_step H hp m) _ hrest
      rcases p.step_world sys m with ⟨n, i, o, b, s, hc, hw⟩ | ⟨hw, -⟩
      · obtain ⟨k, hk⟩ := hc.issued
        rw [hw, World.always_commit]
        exact ⟨hK, hkeep hK (hp.thread hk) (hnow n i o b s hc) hc.effect⟩
      · rwa [hw]

end MemoryInvariant

/-- What a move invokes. -/
def Move.invoked? : Move Inv → Option Inv
  | .invoke i => some i
  | .advance _ | .refuse _ => none

namespace Pool
variable {sys : System σ ε S Inv} {p : Pool σ ε S Inv}

/-- What each call was invoked as, in order. -/
def invoked (p : Pool σ ε S Inv) : List Inv := p.running.map Prod.fst

private theorem invoked_resume {n : Nat} {i : Inv} {c d : Call σ ε Unit}
    (h : p.running[n]? = some (i, c)) : (p.resume n i d).invoked = p.invoked := by
  obtain ⟨hlt, hget⟩ := List.getElem?_eq_some_iff.mp h
  have hlt' : n < (p.running.map Prod.fst).length := by simpa using hlt
  have hi : i = (p.running.map Prod.fst)[n] := by simp [hget]
  unfold invoked resume
  rw [List.map_set, hi, List.set_getElem_self hlt']

theorem invoked_step (sys : System σ ε S Inv) (p : Pool σ ε S Inv) (m : Move Inv) :
    (p.step sys m).invoked = p.invoked ++ m.invoked?.toList := by
  cases m with
  | invoke i => simp [step, invoked, Move.invoked?]
  | advance n =>
      simp only [step, Move.invoked?, Option.toList_none, List.append_nil]
      split
      · next i o k hr =>
          split
          · exact invoked_resume hr
          · exact invoked_resume hr
      · rfl
  | refuse n =>
      simp only [step, Move.invoked?, Option.toList_none, List.append_nil]
      split
      · next i o k hr =>
          split
          · exact invoked_resume hr
          · rfl
      · rfl

theorem invoked_run (p : Pool σ ε S Inv) (ms : List (Move Inv)) :
    (p.run sys ms).invoked = p.invoked ++ ms.filterMap Move.invoked? := by
  induction ms generalizing p with
  | nil => simp
  | cons m ms ih =>
      rw [run_cons, ih, invoked_step, List.append_assoc]
      cases hm : m.invoked? with
      | none => simp [hm]
      | some i => simp [hm]

/-- The history names each call with what it was invoked as. -/
def Attributed (p : Pool σ ε S Inv) : Prop :=
  ∀ c ∈ p.world.trace, p.invoked[c.call]? = some c.inv

theorem attributed_init (s : S) : (Pool.init s : Pool σ ε S Inv).Attributed :=
  nofun

theorem Attributed.step (h : p.Attributed) (m : Move Inv) : (p.step sys m).Attributed := by
  have hold (c : Commit σ S Inv) (hc : p.invoked[c.call]? = some c.inv) :
      (p.step sys m).invoked[c.call]? = some c.inv := by
    rw [invoked_step, List.getElem?_append_left (List.getElem?_eq_some_iff.mp hc).1]
    exact hc
  intro c hc
  rcases p.step_world sys m with ⟨n, i, o, b, s, hcommit, hw⟩ | ⟨hw, -⟩
  · rw [hw, World.commit_trace, List.mem_append, List.mem_singleton] at hc
    rcases hc with hc | rfl
    · exact hold c (h c hc)
    · obtain ⟨k, hk⟩ := hcommit.issued
      apply hold
      simp [invoked, hk]
  · rw [hw] at hc
    exact hold c (h c hc)

theorem attributed_run {sys : System σ ε S Inv} (h : p.Attributed) (ms : List (Move Inv)) :
    (p.run sys ms).Attributed := by
  induction ms generalizing p with
  | nil => exact h
  | cons m ms ih => exact ih (h.step m)

/-- A call invoked now is numbered by how many there are already. -/
theorem invoked_run_invoke (p : Pool σ ε S Inv) (i : Inv) (ms : List (Move Inv)) :
    (p.run sys (.invoke i :: ms)).invoked[p.running.length]? = some i := by
  have hlength : p.running.length = p.invoked.length := by simp [invoked]
  rw [invoked_run, hlength]
  simp [Move.invoked?]

end Pool

/-- Calls are told apart by what they were invoked with. -/
def ToldApart {K : Type} (key : Inv → K) (trace : List (Commit σ S Inv)) : Prop :=
  ∀ c ∈ trace, ∀ d ∈ trace,
    (key c.inv = key d.inv → c.call = d.call) ∧ (c.call = d.call → c.inv = d.inv)

theorem toldApart_run (sys : System σ ε S Inv) {K : Type} {key : Inv → K} (s : S)
    {ms : List (Move Inv)} (h : ((ms.filterMap Move.invoked?).map key).Nodup) :
    ToldApart key ((Pool.init s : Pool σ ε S Inv).run sys ms).world.trace := by
  have hinvoked : ((Pool.init s : Pool σ ε S Inv).run sys ms).invoked =
      ms.filterMap Move.invoked? :=
    Pool.invoked_run (Pool.init s) ms
  have hnamed : ((Pool.init s : Pool σ ε S Inv).run sys ms).Attributed :=
    Pool.attributed_run (Pool.attributed_init s) ms
  intro c hc d hd
  have hc := hnamed c hc
  have hd := hnamed d hd
  rw [hinvoked] at hc hd
  constructor
  · intro hkey
    have hck : ((ms.filterMap Move.invoked?).map key)[c.call]? = some (key c.inv) := by simp [hc]
    have hdk : ((ms.filterMap Move.invoked?).map key)[d.call]? = some (key d.inv) := by simp [hd]
    exact (List.getElem?_inj (List.getElem?_eq_some_iff.mp hck).1 h).mp
      (hck.trans (hkey ▸ hdk.symm))
  · intro hcall
    rw [hcall] at hc
    exact Option.some.inj (hc.symm.trans hd)

theorem ToldApart.mono {K : Type} {key : Inv → K} {trace trace' : List (Commit σ S Inv)}
    (h : ToldApart key trace') (hsub : ∀ c ∈ trace, c ∈ trace') : ToldApart key trace :=
  fun c hc d hd => h c (hsub c hc) d (hsub d hd)

/-- A property of what a call has executed and of what is left of it. -/
structure ThreadInvariant (sys : System σ ε S Inv)
    (T : Inv → List σ.Op → Call σ ε Unit → Prop) : Prop where
  start : ∀ i, T i [] (sys.code i)
  ok : ∀ {i l o k}, T i l (.step o k) → ∀ b, T i (l ++ [o]) (k (.ok b))
  error : ∀ {i l o k}, T i l (.step o k) → ∀ e, sys.MayFail o e → T i l (k (.error e))

namespace ThreadInvariant
variable {sys : System σ ε S Inv} {T : Inv → List σ.Op → Call σ ε Unit → Prop}

/-- Without the states, a memory is the list of executed statements. -/
theorem memoryInvariant (H : ThreadInvariant sys T) :
    MemoryInvariant sys (fun _ => True) fun i l c => T i (l.map Prod.fst) c where
  keep _ _ := trivial
  start := H.start
  ok h _ b _ _ _ := by
    rw [List.map_append]
    exact H.ok h b
  error h e he := H.error h e he.mayFail

/-- In every interleaving from the initial pool, the invariant holds of each call. -/
theorem of_run (H : ThreadInvariant sys T) (s : S) (ms : List (Move Inv)) {n : Nat} {i : Inv}
    {c : Call σ ε Unit} (h : ((Pool.init s).run sys ms).running[n]? = some (i, c)) :
    T i (executed n ((Pool.init s).run sys ms).world.trace) c := by
  rw [← memory_fst]
  exact (H.memoryInvariant.holds_run (MemoryInvariant.holds_init trivial) ms).thread h

end ThreadInvariant

namespace Call
variable (sys : System σ ε S Inv) (W : σ.Op → Bool) (F : ε → Prop)

/-- Once a statement in `W` has been executed, the call throws only errors in `F`. -/
def ThrowsAfter : Bool → Call σ ε α → Prop
  | _, .done _ => True
  | written, .fail e => written = true → F e
  | written, .step o k =>
      (∀ b, ThrowsAfter (written || W o) (k (.ok b))) ∧
        ∀ e, sys.MayFail o e → ThrowsAfter written (k (.error e))

variable {sys W F}

namespace ThrowsAfter

theorem perform_bind {written : Bool} {o : σ.Op} {f : σ.Res o → Call σ ε β}
    (hok : ∀ b, (f b).ThrowsAfter sys W F (written || W o))
    (herr : written = true → ∀ e, sys.MayFail o e → F e) :
    (Call.perform o >>= f).ThrowsAfter sys W F written :=
  ⟨hok, fun e he hw => herr hw e he⟩

theorem required_bind {written : Bool} {x : Option α} {e : ε} {f : α → Call σ ε β}
    (hsome : ∀ a, (f a).ThrowsAfter sys W F written) (herr : written = true → F e) :
    (Call.required x e >>= f).ThrowsAfter sys W F written := by
  cases x with
  | none => exact herr
  | some a => exact hsome a

theorem ensure_bind {written : Bool} {p : Prop} [Decidable p] {e : ε} {f : Unit → Call σ ε β}
    (hpos : (f ()).ThrowsAfter sys W F written) (herr : written = true → F e) :
    (Call.ensure p e >>= f).ThrowsAfter sys W F written := by
  unfold Call.ensure
  split
  · exact hpos
  · exact herr

/-- After the write there is no way back, so calls compose. -/
theorem bind {c : Call σ ε α} {f : α → Call σ ε β} (hc : c.ThrowsAfter sys W F true)
    (hf : ∀ a, (f a).ThrowsAfter sys W F true) : (c >>= f).ThrowsAfter sys W F true := by
  induction c with
  | done a => exact hf a
  | fail e => exact hc
  | step o k ih => exact ⟨fun b => ih _ (hc.1 b), fun e he => ih _ (hc.2 e he)⟩

theorem perform {o : σ.Op} (h : ∀ e, sys.MayFail o e → F e) :
    (Call.perform o : Call σ ε (σ.Res o)).ThrowsAfter sys W F true :=
  ⟨fun _ => trivial, fun e he _ => h e he⟩

/-- A call that throws no other error at all may also be the first to write. -/
theorem weaken {written : Bool} {c : Call σ ε α} (h : c.ThrowsAfter sys W F true) :
    c.ThrowsAfter sys W F written := by
  induction c generalizing written with
  | done a => trivial
  | fail e => exact fun _ => h rfl
  | step o k ih => exact ⟨fun b => ih _ (h.1 b), fun e he => ih _ (h.2 e he)⟩

/-- What the handled call throws does not matter. -/
theorem recover {c : Call σ ε α} {g : ε → Call σ ε α}
    (hg : ∀ e, (g e).ThrowsAfter sys W F true) : (c.recover g).ThrowsAfter sys W F true := by
  induction c with
  | done a => trivial
  | fail e => exact hg e
  | step o k ih => exact ⟨fun b => ih _, fun e _ => ih _⟩

/-- A handler that only returns swallows every error. -/
theorem perform_recover {o : σ.Op} (g : ε → σ.Res o) :
    ((Call.perform o).recover fun e => .done (g e) : Call σ ε (σ.Res o)).ThrowsAfter
      sys W F true :=
  ⟨fun _ => trivial, fun _ _ => trivial⟩

/-- The error of the first call is thrown once the second has run as well. -/
theorem both {c : Call σ ε α} {d : Call σ ε Unit} (hc : c.ThrowsAfter sys W F true)
    (hd : d.ThrowsAfter sys W F true) : (c.both d).ThrowsAfter sys W F true := by
  induction c with
  | done a => exact hd
  | fail e => exact bind (recover fun _ => trivial) fun _ => hc
  | step o k ih => exact ⟨fun b => ih _ (hc.1 b), fun e he => ih _ (hc.2 e he)⟩

theorem all {l : List α} {f : α → Call σ ε Unit}
    (hf : ∀ a, (f a).ThrowsAfter sys W F true) : (Call.all l f).ThrowsAfter sys W F true := by
  induction l with
  | nil => trivial
  | cons a rest ih => exact both (hf a) ih

end ThrowsAfter

/-- A call that has thrown another error than those has executed nothing in `W`. -/
theorem ThrowsAfter.of_run {P : Inv → Prop}
    (hcode : ∀ i, P i → (sys.code i).ThrowsAfter sys W F false) (s : S) (ms : List (Move Inv))
    {n : Nat} {i : Inv} {e : ε} (hi : P i)
    (h : ((Pool.init s).run sys ms).running[n]? = some (i, .fail e)) (he : ¬ F e) :
    ∀ o ∈ executed n ((Pool.init s).run sys ms).world.trace, W o = false := by
  have H : ThreadInvariant sys fun i l c => P i → c.ThrowsAfter sys W F (l.any W) := by
    refine ⟨hcode, fun h b hi => ?_, fun h e he hi => (h hi).2 e he⟩
    simpa using (h hi).1 b
  have hT := H.of_run s ms h hi
  intro o ho
  by_contra hW
  exact he (hT (List.any_eq_true.mpr ⟨o, ho, by simpa using hW⟩))

end Call

end Interleaving
