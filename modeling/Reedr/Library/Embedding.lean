import Reedr.Library.Obligation
import Reedr.Library.Serial
import Mathlib.Data.List.Forall2

/-!
# Calls of one service made by another

A service that calls another one executes its statements on the part of the
state that the other service knows. What is proved about the inner call carries
over, with the outer state seen through that part.
-/

namespace Interleaving
variable {σ τ : Signature} {ε S S' Inv Inv' α : Type}

/-- Through `m`, the outer system executes the statements of the inner one on
the part `proj` of its state, and fails where the inner one does. -/
structure Signature.Embedding.Lifts (m : Signature.Embedding σ τ) (sys : System σ ε S Inv)
    (sys' : System τ ε S' Inv') (proj : S' → S) : Prop where
  ok : ∀ {o s b s'}, sys'.exec (m.op o) s = .ok (b, s') →
    sys.exec o (proj s) = .ok (m.res o b, proj s')
  error : ∀ {o s e}, sys'.exec (m.op o) s = .error e → sys.exec o (proj s) = .error e
  external : ∀ {o}, sys'.external (m.op o) = true → sys.external o = true
  outage : sys'.outage = sys.outage

variable {m : Signature.Embedding σ τ} {sys : System σ ε S Inv} {sys' : System τ ε S' Inv'}
variable {proj : S' → S}

theorem Signature.Embedding.Lifts.failsIn (L : m.Lifts sys sys' proj) {V : S → Prop}
    {V' : S' → Prop} (hV : ∀ s, V' s → V (proj s)) {o : σ.Op} {e : ε}
    (h : sys'.FailsIn V' (m.op o) e) : sys.FailsIn V o e := by
  rcases h with ⟨s, hs, hx⟩ | ⟨hx, rfl⟩
  · exact Or.inl ⟨proj s, hV s hs, L.error hx⟩
  · exact Or.inr ⟨L.external hx, L.outage⟩

section Justified
variable {I : World σ S Inv → Prop} {I' : World τ S' Inv' → Prop}
variable {Rely : World σ S Inv → World σ S Inv → Prop}
variable {Rely' : World τ S' Inv' → World τ S' Inv' → Prop}
variable {J : World σ S Inv → Inv → σ.Op → Prop} {J' : World τ S' Inv' → Inv' → τ.Op → Prop}
variable {i : Inv} {i' : Inv'}

/-- An inner call is justified by what it knows of its part of the state, in a
world of its own that has no history. -/
theorem Justified.embed (L : m.Lifts sys sys' proj)
    (hI : ∀ w, I' w → I (.init (proj w.shared)))
    (hRely : ∀ {v w w'}, v.shared = proj w.shared → Rely' w w' → Rely v (.init (proj w'.shared)))
    (hJ : ∀ w o, J (.init (proj w.shared)) i o → J' w i' (m.op o)) {c : Call σ ε α}
    {v : World σ S Inv} (h : Justified sys I Rely J i c v) {w : World τ S' Inv'}
    (hv : v.shared = proj w.shared) : Justified sys' I' Rely' J' i' (c.embed m) w := by
  induction c generalizing v w with
  | done a => trivial
  | fail e => trivial
  | step o k ih =>
      intro w' hI' hR
      obtain ⟨h₁, h₂, h₃⟩ := h _ (hI w' hI') (hRely hv hR)
      exact ⟨hJ w' o h₁, fun b s hx n => ih _ (h₂ _ _ (L.ok hx) n) rfl,
        fun e => ih _ (h₃ e) rfl⟩

end Justified

/-- The inner memory of an outer one. -/
def Recalled (m : Signature.Embedding σ τ) (proj : S' → S) :
    List (τ.Op × S') → List (σ.Op × S) → Prop :=
  List.Forall₂ fun x y => x.1 = m.op y.1 ∧ proj x.2 = y.2

namespace Recalled
variable {l' : List (τ.Op × S')} {l : List (σ.Op × S)}

theorem mem_outer (h : Recalled m proj l' l) {y : σ.Op × S} (hy : y ∈ l) :
    ∃ s, (m.op y.1, s) ∈ l' ∧ proj s = y.2 := by
  induction h with
  | nil => exact nomatch hy
  | @cons x z _ _ hxz _ ih =>
      rcases List.mem_cons.mp hy with rfl | hy
      · exact ⟨x.2, by simp [← hxz.1], hxz.2⟩
      · obtain ⟨s, hs, hsy⟩ := ih hy
        exact ⟨s, List.mem_cons_of_mem _ hs, hsy⟩

theorem mem_inner (h : Recalled m proj l' l) {x : τ.Op × S'} (hx : x ∈ l') :
    ∃ o, x.1 = m.op o ∧ (o, proj x.2) ∈ l := by
  induction h with
  | nil => exact nomatch hx
  | @cons z y _ _ hzy _ ih =>
      rcases List.mem_cons.mp hx with rfl | hx
      · exact ⟨y.1, hzy.1, by simp [hzy.2]⟩
      · obtain ⟨o, ho, hmem⟩ := ih hx
        exact ⟨o, ho, List.mem_cons_of_mem _ hmem⟩

end Recalled

/-- An inner call recalls, on top of what the outer one did before it, its own
statements. -/
theorem Call.Recalls.embed (L : m.Lifts sys sys' proj) (before : List (τ.Op × S'))
    {V : S → Prop} {V' : S' → Prop} (hV : ∀ s, V' s → V (proj s))
    {J : List (σ.Op × S) → σ.Op → Prop}
    {J' : List (τ.Op × S') → τ.Op → Prop}
    {post : List (σ.Op × S) → Except ε α → Prop} {post' : List (τ.Op × S') → Except ε α → Prop}
    (hJ : ∀ l l' o, Recalled m proj l' l → J l o → J' (before ++ l') (m.op o))
    (hpost : ∀ l l' r, Recalled m proj l' l → post l r → post' (before ++ l') r)
    {c : Call σ ε α} {l : List (σ.Op × S)} {l' : List (τ.Op × S')}
    (h : c.Recalls sys V J post l) (hl : Recalled m proj l' l) :
    (c.embed m).Recalls sys' V' J' post' (before ++ l') := by
  induction c generalizing l l' with
  | done a => exact hpost l l' _ hl h
  | fail e => exact hpost l l' _ hl h
  | step o k ih =>
      refine ⟨hJ l l' o hl h.1, fun s b s' hs hx => ?_,
        fun e he => ih _ (h.2.2 e (L.failsIn hV he)) hl⟩
      rw [List.append_assoc]
      exact ih _ (h.2.1 _ _ _ (hV s hs) (L.ok hx)) (List.rel_append hl (.cons ⟨rfl, rfl⟩ .nil))

section Ends
variable {β : Type}

theorem Call.embed_bind (c : Call σ ε α) (f : α → Call σ ε β) :
    (c >>= f).embed m = c.embed m >>= fun a => (f a).embed m := by
  induction c with
  | done a => rfl
  | fail e => rfl
  | step o k ih => exact congrArg (Call.step (m.op o)) (funext fun r => ih (r.map (m.res o)))

theorem Call.embed_void (c : Call σ ε α) : c.void.embed m = (c.embed m).void :=
  Call.embed_bind c _

variable {n : Nat} {i' : Inv'} {Q : Except ε α → World τ S' Inv' → Prop} {w : World τ S' Inv'}

theorem Call.Ends.embed_perform_bind {o : σ.Op} {f : σ.Res o → Call σ ε α}
    (hout : sys'.external (m.op o) = true → Q (.error sys'.outage) w)
    (hok : ∀ b s, sys'.exec (m.op o) w.shared = .ok (b, s) →
      ((f (m.res o b)).embed m).Ends sys' n i' Q (w.commit n i' (m.op o) s))
    (herr : ∀ e, sys'.exec (m.op o) w.shared = .error e → Q (.error e) w) :
    ((Call.perform o >>= f).embed m).Ends sys' n i' Q w :=
  ⟨hout, hok, herr⟩

theorem Call.Ends.embed_required_bind {x : Option β} {e : ε} {f : β → Call σ ε α}
    (hsome : ∀ a, x = some a → ((f a).embed m).Ends sys' n i' Q w)
    (hnone : x = none → Q (.error e) w) :
    ((Call.required x e >>= f).embed m).Ends sys' n i' Q w := by
  cases x with
  | none => exact hnone rfl
  | some a => exact hsome a rfl

end Ends

end Interleaving
