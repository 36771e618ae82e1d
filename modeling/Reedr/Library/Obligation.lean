import Reedr.Library.Thread

/-!
# Calls that still owe a statement

A call that writes in several steps leaves the shared state unfinished in
between: it owes the steps to come. As long as everything unfinished is owed by
some call in flight, nothing is unfinished once no call is.

## Implementation notes

What a call owes is read off its own memory, so the steps of other calls do not
change it. `Recalls` walks through a program once and determines what the call
remembers when it issues a statement and when it has ended.
-/

namespace Interleaving
variable {σ : Signature} {ε S Inv α β : Type}

namespace Call
variable (sys : System σ ε S Inv) (V : S → Prop) (J : List (σ.Op × S) → σ.Op → Prop)
variable (post : List (σ.Op × S) → Except ε α → Prop)

/-- From the memory `l` on, in states in `V`, the call issues each statement with
the fact `J` about it and its memory, and ends with the fact `post` about its
memory and its outcome. -/
def Recalls : List (σ.Op × S) → Call σ ε α → Prop
  | l, .done a => post l (.ok a)
  | l, .fail e => post l (.error e)
  | l, .step o k => J l o ∧
      (∀ s b s', V s → sys.exec o s = .ok (b, s') → Recalls (l ++ [(o, s)]) (k (.ok b))) ∧
      ∀ e, sys.FailsIn V o e → Recalls l (k (.error e))

variable {sys V J post}

namespace Recalls
variable {l : List (σ.Op × S)}

theorem mono {post' : List (σ.Op × S) → Except ε α → Prop} {c : Call σ ε α}
    (h : c.Recalls sys V J post l) (hpost : ∀ l r, post l r → post' l r) :
    c.Recalls sys V J post' l := by
  induction c generalizing l with
  | done a => exact hpost _ _ h
  | fail e => exact hpost _ _ h
  | step o k ih =>
      exact ⟨h.1, fun s b s' hs he => ih _ (h.2.1 s b s' hs he), fun e he => ih _ (h.2.2 e he)⟩

theorem bind {post : List (σ.Op × S) → Except ε β → Prop} {c : Call σ ε α}
    {f : α → Call σ ε β} (h : c.Recalls sys V J (fun l r => match r with
      | .ok a => (f a).Recalls sys V J post l
      | .error e => post l (.error e)) l) : (c >>= f).Recalls sys V J post l := by
  induction c generalizing l with
  | done a => exact h
  | fail e => exact h
  | step o k ih =>
      exact ⟨h.1, fun s b s' hs he => ih _ (h.2.1 s b s' hs he), fun e he => ih _ (h.2.2 e he)⟩

theorem perform_bind {post : List (σ.Op × S) → Except ε β → Prop} {o : σ.Op}
    {f : σ.Res o → Call σ ε β} (hJ : J l o)
    (hok : ∀ s b s', V s → sys.exec o s = .ok (b, s') →
      (f b).Recalls sys V J post (l ++ [(o, s)]))
    (herr : ∀ e, sys.FailsIn V o e → post l (.error e)) :
    (Call.perform o >>= f).Recalls sys V J post l :=
  ⟨hJ, hok, herr⟩

theorem required_bind {post : List (σ.Op × S) → Except ε β → Prop} {x : Option α} {e : ε}
    {f : α → Call σ ε β} (hsome : ∀ a, x = some a → (f a).Recalls sys V J post l)
    (hnone : x = none → post l (.error e)) :
    (Call.required x e >>= f).Recalls sys V J post l := by
  cases x with
  | none => exact hnone rfl
  | some a => exact hsome a rfl

theorem ensure_bind {post : List (σ.Op × S) → Except ε β → Prop} {p : Prop} [Decidable p]
    {e : ε} {f : Unit → Call σ ε β} (hpos : p → (f ()).Recalls sys V J post l)
    (hneg : ¬ p → post l (.error e)) : (Call.ensure p e >>= f).Recalls sys V J post l := by
  unfold Call.ensure
  split
  · exact hpos ‹p›
  · exact hneg ‹¬ p›

theorem recover {c : Call σ ε α} {g : ε → Call σ ε α}
    (h : c.Recalls sys V J (fun l r => match r with
      | .ok a => post l (.ok a)
      | .error e => (g e).Recalls sys V J post l) l) : (c.recover g).Recalls sys V J post l := by
  induction c generalizing l with
  | done a => exact h
  | fail e => exact h
  | step o k ih =>
      exact ⟨h.1, fun s b s' hs he => ih _ (h.2.1 s b s' hs he), fun e he => ih _ (h.2.2 e he)⟩

/-- What a call ends with may be what the next one starts from. -/
theorem andThen {Q : List (σ.Op × S) → Prop} {c : Call σ ε α} {f : α → Call σ ε β}
    (h : c.Recalls sys V J (fun l _ => Q l) l)
    (hf : ∀ a l, Q l → (f a).Recalls sys V J (fun l _ => Q l) l) :
    (c >>= f).Recalls sys V J (fun l _ => Q l) l := by
  apply Recalls.bind
  apply h.mono
  intro l r hl
  cases r with
  | ok a => exact hf a l hl
  | error e => exact hl

theorem orElse {Q : List (σ.Op × S) → Prop} {c : Call σ ε α} {g : ε → Call σ ε α}
    (h : c.Recalls sys V J (fun l _ => Q l) l)
    (hg : ∀ e l, Q l → (g e).Recalls sys V J (fun l _ => Q l) l) :
    (c.recover g).Recalls sys V J (fun l _ => Q l) l := by
  apply Recalls.recover
  apply h.mono
  intro l r hl
  cases r with
  | ok a => exact hl
  | error e => exact hg e l hl

/-- A call that only executes statements in `P` remembers only such statements. -/
theorem of_uses {P : σ.Op → Prop} {Q : List (σ.Op × S) → Prop} {c : Call σ ε α}
    (h : c.Uses P) (hJ : ∀ l o, Q l → P o → J l o)
    (hQ : ∀ l o s, Q l → P o → Q (l ++ [(o, s)])) (hpost : ∀ l r, Q l → post l r) (hl : Q l) :
    c.Recalls sys V J post l := by
  induction c generalizing l with
  | done a => exact hpost _ _ hl
  | fail e => exact hpost _ _ hl
  | step o k ih =>
      exact ⟨hJ l o hl h.1, fun s b s' _ _ => ih _ (h.2 _) (hQ l o s hl h.1),
        fun e _ => ih _ (h.2 _) hl⟩

end Recalls

end Call

/-- What is left of a call is the rest of a program that recalls `J`. -/
theorem MemoryInvariant.of_recalls {sys : System σ ε S Inv} {V : S → Prop}
    {J : Inv → List (σ.Op × S) → σ.Op → Prop}
    {post : Inv → List (σ.Op × S) → Except ε Unit → Prop}
    (hkeep : ∀ {o s b s'}, V s → sys.exec o s = .ok (b, s') → V s')
    (h : ∀ i, (sys.code i).Recalls sys V (J i) (post i) []) :
    MemoryInvariant sys V fun i l c => c.Recalls sys V (J i) (post i) l where
  keep := hkeep
  start := h
  ok hT _ _ _ hs he := hT.2.1 _ _ _ hs he
  error hT e he := hT.2.2 e he

namespace Pool
variable {sys : System σ ε S Inv} {K : Type}
variable (due : World σ S Inv → Nat → K → Prop) (Exposed : World σ S Inv → K → Prop)

/-- Call `n` is in flight. -/
def InFlight (p : Pool σ ε S Inv) (n : Nat) : Prop :=
  ∃ i o f, p.running[n]? = some (i, .step o f)

/-- Call `n` is in flight with something to be done about `k`. -/
def Owes (p : Pool σ ε S Inv) (n : Nat) (k : K) : Prop := p.InFlight n ∧ due p.world n k

/-- Every key that is exposed has a call that owes something about it. -/
def Covered (p : Pool σ ε S Inv) : Prop :=
  ∀ k, Exposed p.world k → ∃ n, p.Owes due n k

variable (sys) in
/-- Move `m` makes call `n` throw. -/
def Throws (p : Pool σ ε S Inv) (m : Move Inv) (n : Nat) : Prop :=
  p.InFlight n ∧ ∃ i e, (p.step sys m).running[n]? = some (i, .fail e)

section Decidable
variable {p : Pool σ ε S Inv}

instance {n : Nat} : Decidable (p.InFlight n) :=
  match h : p.running[n]? with
  | some (i, .step o f) => isTrue ⟨i, o, f, h⟩
  | some (_, .done _) => isFalse fun ⟨_, _, _, hr⟩ => nomatch h.symm.trans hr
  | some (_, .fail _) => isFalse fun ⟨_, _, _, hr⟩ => nomatch h.symm.trans hr
  | none => isFalse fun ⟨_, _, _, hr⟩ => nomatch h.symm.trans hr

theorem InFlight.lt {n : Nat} (h : p.InFlight n) : n < p.running.length := by
  obtain ⟨i, o, f, hr⟩ := h
  exact (List.getElem?_eq_some_iff.mp hr).1

instance {due : World σ S Inv → Nat → K → Prop} [∀ w n k, Decidable (due w n k)] {n : Nat}
    {k : K} : Decidable (∃ n', n' ≠ n ∧ p.Owes due n' k) :=
  decidable_of_iff (∃ n' < p.running.length, n' ≠ n ∧ p.InFlight n' ∧ due p.world n' k)
    ⟨fun ⟨n', _, hne, ho⟩ => ⟨n', hne, ho⟩, fun ⟨n', hne, ho⟩ => ⟨n', ho.1.lt, hne, ho⟩⟩

instance {m : Move Inv} {n : Nat} : Decidable (p.Throws sys m n) :=
  have : Decidable (∃ i e, (p.step sys m).running[n]? = some (i, .fail e)) :=
    match (p.step sys m).running[n]? with
    | some (i, .fail e) => isTrue ⟨i, e, rfl⟩
    | some (_, .done _) => isFalse nofun
    | some (_, .step _ _) => isFalse nofun
    | none => isFalse nofun
  inferInstanceAs (Decidable (_ ∧ _))

instance {m : Move Inv} {Q : Nat → Prop} [DecidablePred Q] :
    Decidable (∀ n, p.Throws sys m n → Q n) :=
  decidable_of_iff (∀ n < p.running.length, p.Throws sys m n → Q n)
    ⟨fun h n ht => h n ht.1.lt ht, fun h n _ ht => h n ht⟩

end Decidable

variable {due Exposed}

/-- A call is still there after a move; unless the move is its own, unchanged. -/
theorem getElem?_step (sys : System σ ε S Inv) (p : Pool σ ε S Inv) (m : Move Inv) {n : Nat}
    {i : Inv} {c : Call σ ε Unit} (h : p.running[n]? = some (i, c)) :
    ∃ c', (p.step sys m).running[n]? = some (i, c') ∧
      (m ≠ .advance n → m ≠ .refuse n → c' = c) := by
  have hlen := (List.getElem?_eq_some_iff.mp h).1
  have hset (x : Nat) (j : Inv) (d : Call σ ε Unit) (hx : p.running[x]? = some (j, d))
      (d' : Call σ ε Unit) : ∃ c', (p.resume x j d').running[n]? = some (i, c') ∧
      (x ≠ n → c' = c) := by
    simp only [resume, List.getElem?_set]
    by_cases hxn : x = n
    · subst hxn
      cases h.symm.trans hx
      exact ⟨d', by simp [hlen], fun hne => absurd rfl hne⟩
    · exact ⟨c, by simp [hxn, h], fun _ => rfl⟩
  cases m with
  | invoke j => exact ⟨c, by simp [step, List.getElem?_append_left hlen, h], fun _ _ => rfl⟩
  | advance x =>
      simp only [step]
      split
      · next j o k hx =>
          split
          · next b s he =>
              obtain ⟨c', hc, hne⟩ := hset x j _ hx (k (.ok b))
              exact ⟨c', hc, fun hm _ => hne fun hxn => hm (hxn ▸ rfl)⟩
          · next e he =>
              obtain ⟨c', hc, hne⟩ := hset x j _ hx (k (.error e))
              exact ⟨c', hc, fun hm _ => hne fun hxn => hm (hxn ▸ rfl)⟩
      · exact ⟨c, h, fun _ _ => rfl⟩
  | refuse x =>
      simp only [step]
      split
      · next j o k hx =>
          split
          · obtain ⟨c', hc, hne⟩ := hset x j _ hx (k (.error sys.outage))
            exact ⟨c', hc, fun _ hm => hne fun hxn => hm (hxn ▸ rfl)⟩
          · exact ⟨c, h, fun _ _ => rfl⟩
      · exact ⟨c, h, fun _ _ => rfl⟩

/-- A call that a move throws out is the one that moves. -/
theorem Throws.moves {p : Pool σ ε S Inv} {m : Move Inv} {n : Nat} (h : p.Throws sys m n) :
    m = .advance n ∨ m = .refuse n := by
  obtain ⟨⟨i, o, f, hr⟩, j, e, hr'⟩ := h
  obtain ⟨c, hc, hsame⟩ := p.getElem?_step sys m hr
  by_contra hm
  rw [not_or] at hm
  obtain rfl := hsame hm.1 hm.2
  exact nomatch hc.symm.trans hr'

/-- What a call owes is not affected by the moves of the others. -/
theorem Owes.step_of_ne
    (hother : ∀ {w n i o s m k}, m ≠ n → due w m k → due (World.commit w n i o s) m k)
    {p : Pool σ ε S Inv} {m : Move Inv} {n : Nat} {k : K} (h : p.Owes due n k)
    (ha : m ≠ .advance n) (hr : m ≠ .refuse n) : (p.step sys m).Owes due n k := by
  obtain ⟨⟨i, o, f, hrun⟩, hdue⟩ := h
  obtain ⟨c, hc, hsame⟩ := p.getElem?_step sys m hrun
  obtain rfl := hsame ha hr
  refine ⟨⟨i, o, f, hc⟩, ?_⟩
  rcases p.step_world sys m with ⟨n', i', o', b, s, hcommit, hw⟩ | ⟨hw, -⟩
  · rw [hw]
    apply hother _ hdue
    rintro rfl
    exact ha hcommit.move
  · rwa [hw]

/-- A move keeps everything exposed covered if
* a call that has returned owes nothing that is exposed,
* the call that executes a statement owes what this exposes, unless another does, and
* a call that throws leaves nothing exposed that only it owed. -/
theorem Covered.step
    (hother : ∀ {w n i o s m k}, m ≠ n → due w m k → due (World.commit w n i o s) m k)
    {p : Pool σ ε S Inv} (hp : p.Covered due Exposed) (m : Move Inv)
    (hdone : ∀ n i a, (p.step sys m).running[n]? = some (i, .done a) →
      ∀ k, Exposed (p.step sys m).world k → ¬ due (p.step sys m).world n k)
    (hcommit : ∀ n i o b s, p.Commits sys m n i o b s →
      ∀ k, Exposed (p.world.commit n i o s) k →
        due (p.world.commit n i o s) n k ∨ ∃ n', n' ≠ n ∧ p.Owes due n' k)
    (hthrow : ∀ n, p.Throws sys m n → ∀ k, Exposed (p.step sys m).world k →
      due (p.step sys m).world n k → ∃ n', n' ≠ n ∧ p.Owes due n' k) :
    (p.step sys m).Covered due Exposed := by
  intro k hk
  have others {n n' : Nat} (hm : m = .advance n ∨ m = .refuse n) (hne : n' ≠ n)
      (ho : p.Owes due n' k) : ∃ n, (p.step sys m).Owes due n k := by
    refine ⟨n', ho.step_of_ne hother ?_ ?_⟩
    all_goals
      rintro rfl
      simp only [Move.advance.injEq, Move.refuse.injEq, reduceCtorEq, or_false, false_or] at hm
      exact hne hm
  -- A call in flight that has something to do either still is, or this move ends it.
  have survives {n : Nat} (hn : p.InFlight n) (hdue : due (p.step sys m).world n k) :
      ∃ n, (p.step sys m).Owes due n k := by
    obtain ⟨i, o, f, hr⟩ := hn
    obtain ⟨c, hc, -⟩ := p.getElem?_step sys m hr
    cases c with
    | done a => exact absurd hdue (hdone n i a hc k hk)
    | fail e =>
        have hthrows : p.Throws sys m n := ⟨⟨i, o, f, hr⟩, i, e, hc⟩
        obtain ⟨n', hne, ho⟩ := hthrow n hthrows k hk hdue
        exact others hthrows.moves hne ho
    | step o' f' => exact ⟨n, ⟨i, o', f', hc⟩, hdue⟩
  rcases p.step_world sys m with ⟨n, i, o, b, s, hc, hw⟩ | ⟨hw, -⟩
  · rcases hcommit n i o b s hc k (hw ▸ hk) with hdue | ⟨n', hne, ho⟩
    · obtain ⟨f, hf⟩ := hc.issued
      exact survives ⟨i, o, f, hf⟩ (hw.symm ▸ hdue)
    · exact others (Or.inl hc.move) hne ho
  · obtain ⟨n, hn, hdue⟩ := hp k (hw ▸ hk)
    exact survives hn (hw.symm ▸ hdue)

end Pool

end Interleaving
