import Reedr.Ride.Consistency
import Reedr.Ride.History

/-!
# Ride calls that take turns

When no other call runs in between, a call finds at its write the rows it has
read, and everything the history records. A property of worlds that each write
keeps under these two holds after any number of whole calls.
-/

namespace Reedr
open Relational Interleaving

/-- Nothing was written between two worlds of the same run. -/
structure Undisturbed (w w' : RideWorld) : Prop where
  tables : SameTables w w'
  trace : w.trace <+: w'.trace

theorem undisturbed_reads : Reads Undisturbed where
  refl _ := ⟨rfl, List.prefix_rfl⟩
  trans h₁ h₂ := ⟨h₂.tables.trans h₁.tables, h₁.trace.trans h₂.trace⟩
  silent _ hs := ⟨hs, List.prefix_append _ _⟩

theorem Undisturbed.evolves {w w' : RideWorld} (h : Undisturbed w w') : Evolves w w' := by
  refine ⟨?_, h.trace⟩
  rw [h.tables]
  exact .refl _

section Mono
variable {I I' : RideWorld → Prop} {R R' : RideWorld → RideWorld → Prop} {w : RideWorld}
variable (hI : ∀ w, I w → I' w) (hR : ∀ w w', R w w' → R' w w')
include hI hR

theorem Seen.mono {P : RideTables → Prop} (h : Seen I R w P) : Seen I' R' w P := by
  obtain ⟨w₀, hw₀, hrely, hP⟩ := h
  exact ⟨w₀, hI w₀ hw₀, hR w₀ w hrely, hP⟩

/-- Whoever relies on less has read no less. -/
theorem Issued.mono {i : Invocation} {o : Stmt} (h : Issued I R w i o) : Issued I' R' w i o := by
  cases o with
  | upsertOffer => exact ⟨Seen.mono hI hR h.1, Seen.mono hI hR h.2⟩
  | createRideRequest => exact h
  | acceptBatch | cancelBatch | startBatch | completeBatch | expireOffer | expireDriverOffers =>
      obtain ⟨w₀, hw₀, hrely, hP⟩ := h
      exact ⟨w₀, hI w₀ hw₀, hR w₀ w hrely, hP⟩
  | _ => trivial

end Mono

/-- What a statement of a call that runs alone is issued with. -/
abbrev IssuedInTurn : RideWorld → Invocation → Stmt → Prop := Issued Recorded Undisturbed

section Turn
variable {w : RideWorld} {i : Invocation} {o : Stmt}

theorem Issued.evolves (h : IssuedInTurn w i o) : Issued Recorded Evolves w i o :=
  h.mono (fun _ hw => hw) fun _ _ hR => hR.evolves

theorem Issued.sameTables (h : IssuedInTurn w i o) : Issued Recorded SameTables w i o :=
  h.mono (fun _ hw => hw) fun _ _ hR => hR.tables

theorem Seen.inTurn {P : RideTables → Prop} (h : Seen Recorded Undisturbed w P) :
    P (tablesOf w) :=
  (h.mono (fun _ hw => hw) fun _ _ hR => hR.tables : Seen Recorded SameTables w P).now

end Turn

section Served
variable {cfg : Config} {K : RideWorld → Prop} {J : RideWorld → Invocation → Stmt → Prop}

/-- What each statement keeps when it is issued in turn and with its fact `J`,
each whole call keeps. Alone, a call finds the very world it has left. -/
theorem turn_call
    (hcode : ∀ i w, Justified (rideSystem cfg) Recorded Eq J i (i.code cfg) w)
    (keep : ∀ {w n i o b s}, Recorded w → K w → IssuedInTurn w i o → J w i o →
      Backend.exec cfg o w.shared = .ok (b, s) → K (w.commit n i o s))
    (i : Invocation) (n : Nat) {w : RideWorld} (hR : Recorded w) (hK : K w) :
    (i.code cfg).Ends (rideSystem cfg) n i (fun _ w' => Recorded w' ∧ K w') w := by
  have hissued : Justified (rideSystem cfg) Recorded Eq IssuedInTurn i (i.code cfg) w :=
    (code_issued undisturbed_reads i w).rely fun w w' hw => hw ▸ undisturbed_reads.refl w
  refine Call.Ends.of_justified (I := fun w => Recorded w ∧ K w)
    (fun w => Eq.refl w) (fun hw hJ hx => ?_)
    ((hissued.and (hcode i w)).strengthen fun _ hw => hw.1) ⟨hR, hK⟩
  exact ⟨recorded_commit hw.1 hJ.1.evolves hx, keep hw.1 hw.2 hJ.1 hJ.2 hx⟩

/-- So do any number of them. -/
theorem turn_served
    (hcode : ∀ i w, Justified (rideSystem cfg) Recorded Eq J i (i.code cfg) w)
    (keep : ∀ {w n i o b s}, Recorded w → K w → IssuedInTurn w i o → J w i o →
      Backend.exec cfg o w.shared = .ok (b, s) → K (w.commit n i o s))
    {p : RidePool} (hR : Recorded p.world) (hK : K p.world)
    (calls : List (Invocation × List Bool)) :
    Recorded (p.serveAll (rideSystem cfg) calls).world ∧
      K (p.serveAll (rideSystem cfg) calls).world :=
  Pool.serveAll_invariant (K := fun w => Recorded w ∧ K w)
    (fun _ n i hw => turn_call hcode keep i n hw.1 hw.2) ⟨hR, hK⟩ calls

/-- The same where nothing more has to be known of the statements. -/
theorem inTurn_served
    (keep : ∀ {w n i o b s}, Recorded w → K w → IssuedInTurn w i o →
      Backend.exec cfg o w.shared = .ok (b, s) → K (w.commit n i o s))
    {p : RidePool} (hR : Recorded p.world) (hK : K p.world)
    (calls : List (Invocation × List Bool)) :
    Recorded (p.serveAll (rideSystem cfg) calls).world ∧
      K (p.serveAll (rideSystem cfg) calls).world :=
  turn_served (J := fun _ _ _ => True)
    (fun _ _ => Justified.of_uses (fun _ _ _ => trivial) (Call.Uses.any _))
    (fun hw hK hJ _ hx => keep hw hK hJ hx) hR hK calls

end Served

end Reedr
