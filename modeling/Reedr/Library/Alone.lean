import Reedr.Library.Serial
import Reedr.Library.Thread

/-!
# Calls served alone

What a call that is served alone adds to the history is its own, and its outcome
is a function of the shared state and of what is refused. Two such calls are
alike when they end with the same outcome in related states; calls that only
move between related states can then be left out of a list of calls without any
other noticing.
-/

namespace Interleaving
variable {σ : Signature} {ε S Inv α β : Type}

theorem executed_commit_self (w : World σ S Inv) (n : Nat) (i : Inv) (o : σ.Op) (s : S) :
    executed n (w.commit n i o s).trace = executed n w.trace ++ [o] := by
  simp [executed]

/-- A call that is not in the history remembers nothing. -/
theorem memory_eq_nil {n : Nat} {trace : List (Commit σ S Inv)}
    (h : ∀ x ∈ trace, x.call < n) : memory n trace = [] := by
  apply List.eq_nil_iff_forall_not_mem.mpr
  intro y hy
  obtain ⟨x, hx, hcall, -⟩ := mem_memory.mp hy
  exact absurd hcall (Nat.ne_of_lt (h x hx))

/-- A call that is not in the history has executed nothing. -/
theorem executed_eq_nil {n : Nat} {trace : List (Commit σ S Inv)}
    (h : ∀ x ∈ trace, x.call < n) : executed n trace = [] := by
  rw [← memory_fst, memory_eq_nil h, List.map_nil]

namespace Call
variable (sys : System σ ε S Inv) {n : Nat} {i : Inv}

/-- Every other call remembers what it did. -/
theorem eval_memory_ne {m : Nat} (h : m ≠ n) (refusals : List Bool) (c : Call σ ε α)
    (w : World σ S Inv) :
    memory m (c.eval sys n i refusals w).2.trace = memory m w.trace := by
  have hends : c.Ends sys n i (fun _ w' => memory m w'.trace = memory m w.trace) w := by
    apply Ends.of_uses (K := fun w' => memory m w'.trace = memory m w.trace) _ (Uses.any c) rfl
    intro w' o b s _ hw' _
    rw [memory_commit_ne w' h, hw']
  exact hends.eval refusals

/-- The history of every other call is as it was. -/
theorem eval_executed_ne {m : Nat} (h : m ≠ n) (refusals : List Bool) (c : Call σ ε α)
    (w : World σ S Inv) :
    executed m (c.eval sys n i refusals w).2.trace = executed m w.trace := by
  rw [← memory_fst, eval_memory_ne sys h, memory_fst]

/-- Nothing but the call is added to the history. -/
theorem eval_trace (refusals : List Bool) (c : Call σ ε α) (w : World σ S Inv) :
    ∀ x ∈ (c.eval sys n i refusals w).2.trace, x ∈ w.trace ∨ x.call = n := by
  have hends : c.Ends sys n i (fun _ w' => ∀ x ∈ w'.trace, x ∈ w.trace ∨ x.call = n) w := by
    apply Ends.of_uses _ (Uses.any c) fun x hx => Or.inl hx
    intro w' o b s _ hw' _ x hx
    rw [World.commit_trace, List.mem_append, List.mem_singleton] at hx
    rcases hx with hx | rfl
    · exact hw' x hx
    · exact Or.inr rfl
  exact hends.eval refusals

/-- Outcome and final state of a call on its own; nothing is said of its history. -/
def alone : List Bool → Call σ ε α → S → Except ε α × S
  | _, .done a, s => (.ok a, s)
  | _, .fail e, s => (.error e, s)
  | refusals, .step o k, s =>
      if refusals.headD false && sys.external o then
        alone refusals.tail (k (.error sys.outage)) s
      else
        match sys.exec o s with
        | .ok (b, s') => alone refusals.tail (k (.ok b)) s'
        | .error e => alone refusals.tail (k (.error e)) s

theorem eval_alone (refusals : List Bool) (c : Call σ ε α) (w : World σ S Inv) :
    (c.eval sys n i refusals w).1 = (c.alone sys refusals w.shared).1 ∧
      (c.eval sys n i refusals w).2.shared = (c.alone sys refusals w.shared).2 := by
  induction c generalizing refusals w with
  | done a => exact ⟨rfl, rfl⟩
  | fail e => exact ⟨rfl, rfl⟩
  | step o k ih =>
      unfold eval alone
      split
      · exact ih _ refusals.tail w
      · cases sys.exec o w.shared with
        | error e => exact ih (.error e) refusals.tail w
        | ok r => exact ih (.ok r.1) refusals.tail (w.commit n i o r.2)

variable {sys}

/-- A statement that stays in reach, and whose effect is known. -/
theorem alone_step {o : σ.Op} {b : σ.Res o} {s s' : S} (hout : sys.external o = false)
    (hx : sys.exec o s = .ok (b, s')) (f : σ.Res o → Call σ ε α) (refusals : List Bool) :
    (Call.perform o >>= f).alone sys refusals s = (f b).alone sys refusals.tail s' := by
  show (Call.step o _).alone sys refusals s = _
  simp only [alone, hout, Bool.and_false, Bool.false_eq_true, if_false, hx]
  rfl

section Alike
variable (sys) (R : S → S → Prop)

/-- From `s` and from `t`, the two calls end with the same outcome in related states. -/
def Alike (c : Call σ ε α) (s : S) (d : Call σ ε α) (t : S) : Prop :=
  ∀ refusals, (c.alone sys refusals s).1 = (d.alone sys refusals t).1 ∧
    R (c.alone sys refusals s).2 (d.alone sys refusals t).2

/-- In related states the statement has the same reply and keeps them related. -/
def Agrees (o : σ.Op) : Prop :=
  ∀ s t, R s t →
    (∀ b s', sys.exec o s = .ok (b, s') → ∃ t', sys.exec o t = .ok (b, t') ∧ R s' t') ∧
      ∀ e, sys.exec o s = .error e → sys.exec o t = .error e

variable {sys R}

namespace Alike
variable {s t s' t' : S} {o : σ.Op}

theorem perform_bind {b b' : σ.Res o} {f g : σ.Res o → Call σ ε α}
    (hout : sys.external o = false) (hs : sys.exec o s = .ok (b, s'))
    (ht : sys.exec o t = .ok (b', t')) (h : Alike sys R (f b) s' (g b') t') :
    Alike sys R (Call.perform o >>= f) s (Call.perform o >>= g) t := by
  intro refusals
  rw [alone_step hout hs, alone_step hout ht]
  exact h refusals.tail

/-- A call whose statements all agree is alike in related states. -/
theorem of_uses {c : Call σ ε α} (hc : c.Uses (Agrees sys R)) (h : R s t) :
    Alike sys R c s c t := by
  induction c generalizing s t with
  | done a => exact fun _ => ⟨rfl, h⟩
  | fail e => exact fun _ => ⟨rfl, h⟩
  | step o k ih =>
      obtain ⟨hok, herr⟩ := hc.1 s t h
      intro refusals
      unfold alone
      split
      · exact ih _ (hc.2 _) h refusals.tail
      · cases hx : sys.exec o s with
        | error e =>
            rw [herr e hx]
            exact ih (.error e) (hc.2 _) h refusals.tail
        | ok r =>
            obtain ⟨t', ht, hrel⟩ := hok r.1 r.2 hx
            rw [ht]
            exact ih (.ok r.1) (hc.2 _) hrel refusals.tail

end Alike

end Alike

section Simulates
variable {τ : Signature} {S' Inv' : Type} (sys) (sys' : System τ ε S' Inv') (R : S → S' → Prop)

/-- Calls of two services end with the same outcome in related states, whatever is
refused. -/
def Simulates (c : Call σ ε α) (s : S) (d : Call τ ε α) (t : S') : Prop :=
  ∀ refusals, (c.alone sys refusals s).1 = (d.alone sys' refusals t).1 ∧
    R (c.alone sys refusals s).2 (d.alone sys' refusals t).2

variable {sys sys' R} {s s' : S} {t t' : S'}

theorem Simulates.done (h : R s t) (a : α) :
    Simulates sys sys' R (.done a) s (.done a) t :=
  fun _ => ⟨rfl, h⟩

/-- A statement that both execute, or that both are refused. -/
theorem Simulates.perform_bind {o : σ.Op} {o' : τ.Op} {b : σ.Res o} {b' : τ.Res o'}
    {f : σ.Res o → Call σ ε α} {g : τ.Res o' → Call τ ε α} (houtage : sys.outage = sys'.outage)
    (hout : sys.external o = sys'.external o') (h : R s t) (hs : sys.exec o s = .ok (b, s'))
    (ht : sys'.exec o' t = .ok (b', t')) (hrest : Simulates sys sys' R (f b) s' (g b') t') :
    Simulates sys sys' R (Call.perform o >>= f) s (Call.perform o' >>= g) t := by
  intro refusals
  show (alone sys refusals (.step o _) s).1 = (alone sys' refusals (.step o' _) t).1 ∧
    R (alone sys refusals (.step o _) s).2 (alone sys' refusals (.step o' _) t).2
  simp only [alone, hs, ht, hout, houtage]
  split
  · exact ⟨rfl, h⟩
  · exact hrest refusals.tail

end Simulates

end Call

namespace Pool
variable {sys : System σ ε S Inv}

/-- What each served call keeps holds after all of them. -/
theorem serveAll_keeps {G : Pool σ ε S Inv → Prop} (h : ∀ p q, G p → G (p.serve sys q))
    {p : Pool σ ε S Inv} (hp : G p) (qs : List (Inv × List Bool)) : G (p.serveAll sys qs) := by
  induction qs generalizing p with
  | nil => exact hp
  | cons q qs ih => exact ih (h p q hp)

/-- The history mentions only calls that have been served. -/
theorem serve_trace {p : Pool σ ε S Inv} (h : ∀ x ∈ p.world.trace, x.call < p.running.length)
    (q : Inv × List Bool) :
    ∀ x ∈ (p.serve sys q).world.trace, x.call < (p.serve sys q).running.length := by
  intro x hx
  have hlength : (p.serve sys q).running.length = p.running.length + 1 := by simp [serve]
  rw [hlength]
  rcases Call.eval_trace sys q.2 (sys.code q.1) p.world x hx with hold | hcall
  · exact Nat.lt_succ_of_lt (h x hold)
  · exact Nat.lt_succ_of_le (Nat.le_of_eq hcall)

/-- The served call `k` has the property `P` of an invocation, its outcome and what
it remembers. -/
def ServedAs (p : Pool σ ε S Inv) (P : Inv → Except ε Unit → List (σ.Op × S) → Prop)
    (k : Nat) : Prop :=
  ∃ i r, p.running[k]? = some (i, .ofExcept r) ∧ P i r (memory k p.world.trace)

section ServedAs
variable {p : Pool σ ε S Inv} {P Q : Inv → Except ε Unit → List (σ.Op × S) → Prop} {k : Nat}
variable {q : Inv × List Bool}

theorem ServedAs.lt (h : p.ServedAs P k) : k < p.running.length := by
  obtain ⟨i, r, hk, -⟩ := h
  exact (List.getElem?_eq_some_iff.mp hk).1

theorem serve_running_of_ne (hk : k ≠ p.running.length) :
    (p.serve sys q).running[k]? = p.running[k]? := by
  rcases Nat.lt_or_gt_of_ne hk with hlt | hgt
  · exact List.getElem?_append_left hlt
  · rw [List.getElem?_eq_none (Nat.le_of_lt hgt), List.getElem?_eq_none]
    simpa [serve] using Nat.succ_le_of_lt hgt

theorem serve_running_self : (p.serve sys q).running[p.running.length]? =
    some (q.1, .ofExcept (p.reply sys q)) :=
  List.getElem?_concat_length

/-- Of the calls served before, nothing more can be said afterwards. -/
theorem servedAs_serve_of_ne (hk : k ≠ p.running.length) :
    (p.serve sys q).ServedAs P k ↔ p.ServedAs P k := by
  have hmemory : memory k (p.serve sys q).world.trace = memory k p.world.trace :=
    Call.eval_memory_ne sys hk q.2 _ p.world
  unfold ServedAs
  rw [hmemory, serve_running_of_ne hk]

theorem servedAs_serve_self : (p.serve sys q).ServedAs P p.running.length ↔
    P q.1 (p.reply sys q) (memory p.running.length (p.serve sys q).world.trace) := by
  unfold ServedAs
  rw [serve_running_self]
  constructor
  · rintro ⟨i, r, hcall, h⟩
    obtain ⟨rfl, hr⟩ := Prod.mk.inj (Option.some.inj hcall)
    exact Call.ofExcept_injective hr ▸ h
  · intro h
    exact ⟨_, _, rfl, h⟩

/-- A call with `P` has been served, and none with `Q` since. -/
theorem exists_since_serve :
    (∃ j, (p.serve sys q).ServedAs P j ∧ ∀ k, j < k → ¬ (p.serve sys q).ServedAs Q k) ↔
      (∃ j, p.ServedAs P j ∧ ∀ k, j < k → ¬ p.ServedAs Q k) ∧
          ¬ (p.serve sys q).ServedAs Q p.running.length ∨
        (p.serve sys q).ServedAs P p.running.length := by
  constructor
  · rintro ⟨j, hj, hsince⟩
    by_cases hlast : j = p.running.length
    · exact Or.inr (hlast ▸ hj)
    · have hold := (servedAs_serve_of_ne hlast).mp hj
      refine Or.inl ⟨⟨j, hold, fun k hk hQ => ?_⟩, hsince _ hold.lt⟩
      exact hsince k hk ((servedAs_serve_of_ne (Nat.ne_of_lt hQ.lt)).mpr hQ)
  · rintro (⟨⟨j, hold, hsince⟩, hnow⟩ | hlast)
    · refine ⟨j, (servedAs_serve_of_ne (Nat.ne_of_lt hold.lt)).mpr hold, fun k hk hQ => ?_⟩
      by_cases hlast : k = p.running.length
      · exact hnow (hlast ▸ hQ)
      · exact hsince k hk ((servedAs_serve_of_ne hlast).mp hQ)
    · refine ⟨_, hlast, fun k hk hQ => ?_⟩
      have hlength := hQ.lt
      simp only [serve, List.length_append, List.length_singleton] at hlength
      omega

end ServedAs

variable {R : S → S → Prop} {hidden : Inv → Bool}

/-- The calls of a pool that are not hidden, each with its outcome. -/
def visible (hidden : Inv → Bool) (p : Pool σ ε S Inv) : List (Inv × Call σ ε Unit) :=
  p.running.filter fun c => !hidden c.1

private theorem serve_running (p : Pool σ ε S Inv) (q : Inv × List Bool) :
    (p.serve sys q).running = p.running ++
      [(q.1, .ofExcept ((sys.code q.1).alone sys q.2 p.world.shared).1)] := by
  rw [← (Call.eval_alone sys (n := p.running.length) (i := q.1) q.2 (sys.code q.1) p.world).1]
  rfl

private theorem serve_shared (p : Pool σ ε S Inv) (q : Inv × List Bool) :
    (p.serve sys q).world.shared = ((sys.code q.1).alone sys q.2 p.world.shared).2 :=
  (Call.eval_alone sys q.2 (sys.code q.1) p.world).2

/-- Hidden calls can be left out if they stay within related states, in which all
other calls are alike. -/
theorem serveAll_hidden
    (hcode : ∀ i, hidden i = false → ∀ {s t}, R s t →
      Call.Alike sys R (sys.code i) s (sys.code i) t)
    (hhidden : ∀ i, hidden i = true → ∀ {s t}, R s t →
      ∀ refusals, R ((sys.code i).alone sys refusals s).2 t)
    {p p' : Pool σ ε S Inv} (hR : R p.world.shared p'.world.shared)
    (hp : p.visible hidden = p'.visible hidden) (qs : List (Inv × List Bool)) :
    R (p.serveAll sys qs).world.shared
        (p'.serveAll sys (qs.filter fun q => !hidden q.1)).world.shared ∧
      (p.serveAll sys qs).visible hidden =
        (p'.serveAll sys (qs.filter fun q => !hidden q.1)).visible hidden := by
  induction qs generalizing p p' with
  | nil => exact ⟨hR, hp⟩
  | cons q qs ih =>
      cases hq : hidden q.1 with
      | true =>
          rw [List.filter_cons_of_neg (by simp [hq])]
          apply ih
          · rw [serve_shared]
            exact hhidden q.1 hq hR q.2
          · simpa [visible, serve, hq] using hp
      | false =>
          rw [List.filter_cons_of_pos (by simp [hq])]
          obtain ⟨hsame, hrel⟩ := hcode q.1 hq hR q.2
          apply ih
          · rwa [serve_shared, serve_shared]
          · unfold visible at hp ⊢
            rw [serve_running, serve_running, List.filter_append, List.filter_append, hp, hsame]

end Pool

end Interleaving
