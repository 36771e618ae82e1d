import Mathlib.Data.Set.Subsingleton
import Mathlib.Logic.Relation

/-!
# One ask, the bids on it, and the deal it may end in

An asker receives bids, each bidder holding one at most. Bids are raised,
lowered and withdrawn until one of them is accepted, which closes the others.
The deal is then carried out, or called off before it has begun.

## Implementation notes

Bidders and prices are arbitrary. Nothing is said about who takes a step or
when: `Step` is the order of events that every party can rely on.
-/

namespace Bargaining
variable {Bidder Price : Type}

/-- How far a bargain has come, with the bids that stand or the deal struck. -/
inductive Stage (Bidder Price : Type) where
  | bidding (bids : Set (Bidder × Price))
  | agreed (deal : Bidder × Price)
  | underWay (deal : Bidder × Price)
  | settled (deal : Bidder × Price)
  | calledOff (deal : Option (Bidder × Price))

/-- The bids after one bidder's bid has replaced whatever that bidder had bid before. -/
def rebid (bids : Set (Bidder × Price)) (b : Bidder) (p : Price) : Set (Bidder × Price) :=
  {x | x = (b, p) ∨ x ∈ bids ∧ x.1 ≠ b}

namespace Stage

/-- The bids that can still be accepted. -/
def bids : Stage Bidder Price → Set (Bidder × Price)
  | .bidding bids => bids
  | _ => ∅

/-- The deal that was struck, if there was one. -/
def deals : Stage Bidder Price → Set (Bidder × Price)
  | .bidding _ => ∅
  | .agreed d | .underWay d | .settled d => {d}
  | .calledOff d => {x | d = some x}

/-- Nothing can happen any more. -/
def Ended : Stage Bidder Price → Prop
  | .settled _ | .calledOff _ => True
  | _ => False

/-- No bidder has two bids standing. -/
def OneBidEach (s : Stage Bidder Price) : Prop :=
  ∀ b p q, (b, p) ∈ s.bids → (b, q) ∈ s.bids → p = q

inductive Step : Stage Bidder Price → Stage Bidder Price → Prop where
  | bid {bids} (b : Bidder) (p : Price) : Step (.bidding bids) (.bidding (rebid bids b p))
  /-- Some bids are withdrawn or run out. -/
  | lapse {bids bids'} (h : bids' ⊆ bids) : Step (.bidding bids) (.bidding bids')
  | accept {bids d} (h : d ∈ bids) : Step (.bidding bids) (.agreed d)
  | begin (d : Bidder × Price) : Step (.agreed d) (.underWay d)
  | finish (d : Bidder × Price) : Step (.underWay d) (.settled d)
  | withdraw {bids} : Step (.bidding bids) (.calledOff none)
  | callOff (d : Bidder × Price) : Step (.agreed d) (.calledOff (some d))

variable {s s' : Stage Bidder Price}

theorem deals_subsingleton (s : Stage Bidder Price) : s.deals.Subsingleton := by
  cases s with
  | bidding bids => exact Set.subsingleton_empty
  | calledOff d =>
      intro x hx y hy
      exact Option.some.inj (hx.symm.trans hy)
  | _ => exact Set.subsingleton_singleton

namespace Step

/-- A deal is a bid that stood when it was struck, and is never struck again. -/
theorem deals_eq (h : Step s s') :
    s'.deals = s.deals ∨ s.deals = ∅ ∧ ∃ d ∈ s.bids, s'.deals = {d} := by
  cases h with
  | accept hd => exact Or.inr ⟨rfl, _, hd, rfl⟩
  | withdraw =>
      left
      ext x
      simp [deals]
  | callOff d =>
      left
      ext x
      simp [deals, eq_comm]
  | _ => exact Or.inl rfl

theorem deals_kept (h : Step s s') : s.deals ⊆ s'.deals := by
  rcases h.deals_eq with heq | ⟨hnone, -⟩
  · rw [heq]
  · rw [hnone]
    exact Set.empty_subset _

theorem not_ended (h : Step s s') : ¬ s.Ended := by
  cases h <;> exact id

theorem oneBidEach (h : Step s s') (hs : s.OneBidEach) : s'.OneBidEach := by
  cases h with
  | bid b p =>
      rintro c q r (hq | ⟨hq, hqb⟩) (hr | ⟨hr, hrb⟩)
      · exact (Prod.mk.inj hq).2.trans (Prod.mk.inj hr).2.symm
      · exact absurd (Prod.mk.inj hq).1 hrb
      · exact absurd (Prod.mk.inj hr).1 hqb
      · exact hs c q r hq hr
  | lapse hsub => exact fun b p q hp hq => hs b p q (hsub hp) (hsub hq)
  | _ => exact fun _ _ _ hp => absurd hp (Set.notMem_empty _)

end Step

/-- A stage reached from another by any number of steps. -/
abbrev Leads : Stage Bidder Price → Stage Bidder Price → Prop := Relation.ReflTransGen Step

namespace Leads

theorem deals_kept (h : Leads s s') : s.deals ⊆ s'.deals := by
  induction h with
  | refl => exact Set.Subset.rfl
  | tail _ hstep ih => exact ih.trans hstep.deals_kept

/-- A stage with a deal keeps that deal through every later stage. -/
theorem deals_eq (h : Leads s s') (hs : s.deals.Nonempty) : s'.deals = s.deals := by
  obtain ⟨d, hd⟩ := hs
  refine (h.deals_kept.antisymm fun x hx => ?_).symm
  rwa [s'.deals_subsingleton hx (h.deals_kept hd)]

/-- An ended bargain stays as it is. -/
theorem eq_of_ended (h : Leads s s') (hs : s.Ended) : s' = s := by
  rcases Relation.ReflTransGen.cases_head h with rfl | ⟨t, hstep, -⟩
  · rfl
  · exact absurd hs hstep.not_ended

theorem oneBidEach (h : Leads s s') (hs : s.OneBidEach) : s'.OneBidEach := by
  induction h with
  | refl => exact hs
  | tail _ hstep ih => exact hstep.oneBidEach ih

end Leads

/-- Without bids every stage is reached with at most one bid a bidder. -/
theorem oneBidEach_of_leads (h : Leads (.bidding ∅) s) : s.OneBidEach :=
  h.oneBidEach fun _ _ _ hp => absurd hp (Set.notMem_empty _)

end Stage

end Bargaining
