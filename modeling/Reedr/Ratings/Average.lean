import Reedr.Library.History
import Reedr.Ratings.Services

/-!
# A user's rating as the average of all ratings received

Recomputing the average reads the ratings and writes the user in two steps. A
rating inserted in between is not in the average that is written, and the call
that inserted it may have written already: the older average then replaces the
newer one. This module proves that to be the only way a rating goes wrong.
-/

namespace Reedr
open Relational Interleaving

/-- The mean of the scores a user has received, and 5 without any. -/
def RatedRegistry.meanRating (s : RatedRegistry) (userId : Id) : Rat :=
  if s.ratingsOf userId = [] then 5
  else ((s.ratingsOf userId).map fun r => (r.score : Rat)).sum / (s.ratingsOf userId).length

/-- Every user's rating is the mean of the scores they have received. -/
def RatedRegistry.RatingsExact (s : RatedRegistry) : Prop :=
  ∀ u ∈ s.registry.users, s.userRatings u.id = s.meanRating u.id

instance (s : RatedRegistry) : Decidable s.RatingsExact :=
  inferInstanceAs (Decidable (∀ u ∈ s.registry.users, s.userRatings u.id = s.meanRating u.id))

theorem averageScore_getD (s : RatedRegistry) (userId : Id) :
    (averageScore (s.ratingsOf userId)).getD 5 = s.meanRating userId := by
  unfold averageScore RatedRegistry.meanRating
  split <;> rfl

namespace RatingStmt

/-- Inserts a rating of the user. -/
def rates (userId : Id) : RatingStmt → Bool
  | .createRating r => r.toUserId = userId
  | _ => false

/-- Reads the average of the user's ratings. -/
def aggregates (userId : Id) : RatingStmt → Bool
  | .aggregateRatings toUserId => toUserId = userId
  | _ => false

/-- Writes the user's rating. -/
def updates (userId : Id) : RatingStmt → Bool
  | .updateUserRating id _ => id = userId
  | _ => false

end RatingStmt

def RatingInvocation.isRateTrip : RatingInvocation → Bool
  | .rateTrip _ _ _ _ => true
  | _ => false

/-- The call has rated the user and not yet written the new average. -/
def UpdateDue (w : RatingWorld) (n : Nat) (userId : Id) : Prop :=
  (∃ x ∈ memory n w.trace, x.1.rates userId = true) ∧
    ∀ x ∈ memory n w.trace, x.1.updates userId = false

instance (w : RatingWorld) (n : Nat) (userId : Id) : Decidable (UpdateDue w n userId) :=
  inferInstanceAs (Decidable ((∃ x ∈ memory n w.trace, x.1.rates userId = true) ∧
    ∀ x ∈ memory n w.trace, x.1.updates userId = false))

/-- The rating of a registered user is not the mean. -/
def RatingStale (w : RatingWorld) (userId : Id) : Prop :=
  (∃ u ∈ w.shared.registry.users, u.id = userId) ∧
    w.shared.userRatings userId ≠ w.shared.meanRating userId

/-- Nobody has rated the user since call `n` read their average. -/
def AverageCurrent (w : RatingWorld) (n : Nat) (userId : Id) : Prop :=
  ∀ c ∈ w.since fun c => c.call = n && c.op.aggregates userId, c.op.rates userId = false

instance (w : RatingWorld) (n : Nat) (userId : Id) : Decidable (AverageCurrent w n userId) :=
  inferInstanceAs (Decidable (∀ c ∈ w.since fun c => c.call = n && c.op.aggregates userId,
    c.op.rates userId = false))

/-- An average is written while it is current, or while another call has yet to
write a newer one. -/
def WritesCurrent (p : RatingPool) (n : Nat) : RatingStmt → Prop
  | .updateUserRating userId _ =>
      AverageCurrent p.world n userId ∨ ∃ n', n' ≠ n ∧ p.Owes UpdateDue n' userId
  | _ => True

/-- What a call remembers when it issues a statement. -/
def RatingFact (i : RatingInvocation) (l : List (RatingStmt × RatedRegistry)) :
    RatingStmt → Prop
  | .onboarding _ => ∀ x ∈ l, ∀ u, x.1.rates u = false
  | .createRating _ => i.isRateTrip = true ∧
      ∀ x ∈ l, ∀ u, x.1.rates u = false ∧ x.1.updates u = false
  | .aggregateRatings userId => i.isRateTrip = true ∧ ∀ x ∈ l, ∀ u, x.1.rates u = true → u = userId
  | .updateUserRating userId rating => i.isRateTrip = true ∧
      (∀ x ∈ l, ∀ u, x.1.rates u = true → u = userId) ∧
      (∃ x ∈ l, x.1.aggregates userId = true) ∧
      ∀ x ∈ l, x.1.aggregates userId = true → rating = x.2.meanRating userId

/-- The users `ids` are registered, and nobody else. -/
def Registered (ids : Id → Prop) (s : RatedRegistry) : Prop :=
  ∀ id, ids id ↔ ∃ u ∈ s.registry.users, u.id = id

/-- The average of every user rated has been written. -/
def NothingDue (ids : Id → Prop) (l : List (RatingStmt × RatedRegistry)) : Prop :=
  ∀ u, ids u → (∃ x ∈ l, x.1.rates u = true) → ∃ x ∈ l, x.1.updates u = true

section Calls
variable {cfg : Config} {ids : Id → Prop} {i : RatingInvocation}
  {l : List (RatingStmt × RatedRegistry)}

/-- A call of statements on other tables rates nobody. -/
private theorem recalls_of_onboarding {c : RatingCall Unit}
    (h : c.Uses fun o : RatingStmt => ∃ o', o = .onboarding o') :
    c.Recalls (ratingSystem cfg).reliable (Registered ids) (RatingFact i)
      (fun l _ => NothingDue ids l) [] := by
  apply Call.Recalls.of_uses (Q := fun l : List (RatingStmt × RatedRegistry) =>
    ∀ x ∈ l, ∀ u, x.1.rates u = false) h
  · rintro l o hl ⟨o', rfl⟩
    exact hl
  · rintro l o s hl ⟨o', rfl⟩ x hx u
    rcases List.mem_append.mp hx with hx | hx
    · exact hl x hx u
    · rw [List.mem_singleton.mp hx]
      rfl
  · rintro l r hl u - ⟨x, hx, hrates⟩
    rw [hl x hx u] at hrates
    exact nomatch hrates
  · exact fun x hx => nomatch hx

/-- The user whose average is recomputed is the one who was rated. -/
theorem recalculateRating_recalls {userId : Id} (hi : i.isRateTrip = true)
    (hrated : ∀ x ∈ l, ∀ u, x.1.rates u = true → u = userId)
    (hnew : ∀ x ∈ l, x.1.aggregates userId = false) :
    (UsersService.recalculateRating userId).Recalls (ratingSystem cfg).reliable (Registered ids)
      (RatingFact i) (fun l _ => NothingDue ids l) l := by
  refine Call.Recalls.perform_bind ⟨hi, hrated⟩ ?_ ?_
  · rintro s average s' - ⟨⟩
    have hrated' : ∀ x ∈ l ++ [(.aggregateRatings userId, s)], ∀ u,
        x.1.rates u = true → u = userId := by
      intro x hx u hu
      rcases List.mem_append.mp hx with hx | hx
      · exact hrated x hx u hu
      · rw [List.mem_singleton.mp hx] at hu
        cases hu
    refine ⟨⟨hi, hrated', ?_, ?_⟩, fun s₂ _ _ _ _ u _ hu => ?_, fun e he u hu hx => ?_⟩
    · exact ⟨_, List.mem_append_right _ (List.mem_singleton_self _), decide_eq_true rfl⟩
    · intro x hx ha
      rcases List.mem_append.mp hx with hx | hx
      · rw [hnew x hx] at ha
        cases ha
      · rw [List.mem_singleton.mp hx]
        exact averageScore_getD s userId
    · obtain ⟨x, hx, hxu⟩ := hu
      refine ⟨_, List.mem_append_right _ (List.mem_singleton_self _), ?_⟩
      rcases List.mem_append.mp hx with hx | hx
      · exact decide_eq_true (hrated' x hx u hxu).symm
      · rw [List.mem_singleton.mp hx] at hxu
        cases hxu
    · -- The update is only refused for a user who is not registered.
      obtain ⟨x, hx, hxu⟩ := hx
      obtain rfl := hrated' x hx u hxu
      rcases he with ⟨s₂, hs₂, hfail⟩ | ⟨hout, -⟩
      · have hreg := (hs₂ u).mp hu
        simp [System.reliable, ratingSystem, RatedRegistry.exec, hreg] at hfail
      · cases hout
  · rintro e (⟨s, -, hfail⟩ | ⟨hout, -⟩)
    · cases hfail
    · cases hout

theorem rateTrip_recalls (tripId fromUserId : Id) (dto : RateTripDto) (uuid : Id) :
    (RatingsService.rateTrip tripId fromUserId dto uuid).void.Recalls
      (ratingSystem cfg).reliable (Registered ids)
      (RatingFact (.rateTrip tripId fromUserId dto uuid)) (fun l _ => NothingDue ids l) [] := by
  refine Call.Recalls.andThen ?_ fun _ _ h => h
  apply Call.Recalls.perform_bind
  · exact fun x hx => nomatch hx
  · intro s₁ trip s₁' _ _
    have hnone : NothingDue ids
        [((.onboarding (.ride (.findTrip tripId)) : RatingStmt), s₁)] := by
      simp [NothingDue, RatingStmt.rates]
    apply Call.Recalls.required_bind
    · intro t _
      apply Call.Recalls.ensure_bind
      · intro _
        apply Call.Recalls.required_bind
        · intro toUserId _
          apply Call.Recalls.orElse
          · apply Call.Recalls.perform_bind
            · refine ⟨rfl, ?_⟩
              simp [RatingStmt.rates, RatingStmt.updates]
            · intro s₂ rating s₂' _ _
              refine Call.Recalls.andThen (recalculateRating_recalls rfl ?_ ?_) fun _ _ h => h
              · simp [RatingStmt.rates]
              · simp [RatingStmt.aggregates]
            · exact fun _ _ => hnone
          · intro e l h
            split
            · exact h
            · exact h
        · exact fun _ => hnone
      · exact fun _ => hnone
    · exact fun _ => hnone
  · intro e _ u _ hx
    simp at hx

theorem rating_recalls (i : RatingInvocation) :
    (i.code cfg).Recalls (ratingSystem cfg).reliable (Registered ids) (RatingFact i)
      (fun l _ => NothingDue ids l) [] := by
  cases i with
  | onboarding i =>
      exact recalls_of_onboarding (Call.Uses.embed (fun o _ => ⟨o, rfl⟩) (Call.Uses.any _))
  | ride i =>
      exact recalls_of_onboarding (Call.Uses.embed (fun o _ => ⟨.ride o, rfl⟩) (Call.Uses.any _))
  | rateTrip tripId fromUserId dto uuid => exact rateTrip_recalls tripId fromUserId dto uuid

end Calls

section Commit
variable {cfg : Config} {w : RatingWorld} {n : Nat} {i : RatingInvocation} {o : RatingStmt}
  {b : o.Res} {s s' : RatedRegistry} {userId : Id}

theorem registered_exec {ids : Id → Prop} (h : Registered ids s)
    (hx : RatedRegistry.exec cfg o s = .ok (b, s')) : Registered ids s' := by
  cases RatedRegistry.exec_wrote hx with
  | onboarding hr => exact fun id => (h id).trans (Registry.exec_users hr id).symm
  | createRating hc => exact h
  | aggregateRatings => exact h
  | updateUserRating hu => exact h

/-- The mean of a user's ratings changes only when the user is rated. -/
theorem meanRating_exec (ho : o.rates userId = false)
    (hx : RatedRegistry.exec cfg o s = .ok (b, s')) :
    s'.meanRating userId = s.meanRating userId := by
  cases RatedRegistry.exec_wrote hx with
  | onboarding hr => rfl
  | @createRating r _ ratings hc =>
      have hne : r.toUserId ≠ userId := of_decide_eq_false ho
      have hsame : { s with ratings }.ratingsOf userId = s.ratingsOf userId := by
        rw [RatedRegistry.ratingsOf, Table.findMany, Table.rows_create hc, List.filter_append]
        simp [RatedRegistry.ratingsOf, Table.findMany, hne]
      unfold RatedRegistry.meanRating
      rw [hsame]
  | aggregateRatings => rfl
  | updateUserRating hu => rfl

/-- A call goes on owing an average until it writes it. -/
private theorem updateDue_commit_self (h : UpdateDue w n userId) (ho : o.updates userId = false) :
    UpdateDue (w.commit n i o s) n userId := by
  obtain ⟨⟨x, hx, hrates⟩, hnone⟩ := h
  rw [UpdateDue, memory_commit_self]
  refine ⟨⟨x, List.mem_append_left _ hx, hrates⟩, fun y hy => ?_⟩
  rcases List.mem_append.mp hy with hy | hy
  · exact hnone y hy
  · rw [List.mem_singleton.mp hy]
    exact ho

private theorem updateDue_commit_ne {m : Nat} (hne : m ≠ n) (h : UpdateDue w m userId) :
    UpdateDue (w.commit n i o s) m userId := by
  rwa [UpdateDue, memory_commit_ne _ hne]

/-- An average that is current when it is written is the mean at that moment. -/
private theorem written_eq_mean {rating : Rat}
    (hJ : RatingFact i (memory n w.trace) (.updateUserRating userId rating))
    (hcurrent : AverageCurrent w n userId)
    (htraced : w.Traced (fun s => s.meanRating userId) (RatingStmt.rates userId)) :
    rating = w.shared.meanRating userId := by
  obtain ⟨-, -, ⟨x, hx, hxa⟩, hread⟩ := hJ
  obtain ⟨c, hc, hcn, rfl⟩ := mem_memory.mp hx
  obtain ⟨before, d, htrace, hd⟩ :=
    World.exists_since (w := w) (p := fun c => c.call = n && c.op.aggregates userId)
      ⟨c, hc, by simp [hcn, hxa]⟩
  simp only [Bool.and_eq_true, decide_eq_true_eq] at hd
  have hmem : (d.op, d.before) ∈ memory n w.trace :=
    mem_memory.mpr ⟨d, by rw [htrace]; simp, hd.1, rfl⟩
  rw [hread _ hmem hd.2]
  apply htraced before d _ htrace
  intro e he
  rcases List.mem_cons.mp he with rfl | he
  · obtain ⟨_, _, op, _⟩ := e
    cases op with
    | aggregateRatings toUserId => rfl
    | _ => exact nomatch hd.2
  · exact hcurrent e he

end Commit

/-- Every average written in the run is current, or another one is yet to come. -/
def AveragesCurrent (cfg : Config) : RatingPool → List RatingMove → Prop :=
  Along (ratingSystem cfg).reliable fun p m => ∀ n i o b s,
    p.Commits (ratingSystem cfg).reliable m n i o b s → WritesCurrent p n o

def NoRatingInFlight (p : RatingPool) : Prop :=
  ∀ c ∈ p.running, c.2.ended = true ∨ c.1.isRateTrip = false

instance (p : RatingPool) (n : Nat) (o : RatingStmt) : Decidable (WritesCurrent p n o) := by
  cases o <;> unfold WritesCurrent <;> infer_instance

instance (cfg : Config) (p : RatingPool) (ms : List RatingMove) :
    Decidable (AveragesCurrent cfg p ms) :=
  inferInstanceAs (Decidable (Along _ _ _ _))

instance (p : RatingPool) : Decidable (NoRatingInFlight p) :=
  inferInstanceAs (Decidable (∀ c ∈ p.running, c.2.ended = true ∨ c.1.isRateTrip = false))

section Runs
variable {cfg : Config} {ids : Id → Prop} {p : RatingPool}

/-- The registered users, and what each call remembers. -/
abbrev RatingsRecalled (cfg : Config) (ids : Id → Prop) : RatingPool → Prop :=
  MemoryInvariant.Holds (Registered ids) fun i l c =>
    c.Recalls (ratingSystem cfg).reliable (Registered ids) (RatingFact i)
      (fun l _ => NothingDue ids l) l

theorem ratings_recalled (cfg : Config) (ids : Id → Prop) :
    MemoryInvariant (ratingSystem cfg).reliable (Registered ids) fun i l c =>
      c.Recalls (ratingSystem cfg).reliable (Registered ids) (RatingFact i)
        (fun l _ => NothingDue ids l) l :=
  .of_recalls registered_exec rating_recalls

/-- A statement leaves no registered user's rating stale that nobody has to write. -/
private theorem covered_commit (hp : RatingsRecalled cfg ids p)
    (hcovered : p.Covered UpdateDue RatingStale)
    (htraced : ∀ u, p.world.Traced (fun s => s.meanRating u) (RatingStmt.rates u))
    {m : RatingMove} {n : Nat} {i : RatingInvocation} {o : RatingStmt} {b : o.Res}
    {s : RatedRegistry} (hc : p.Commits (ratingSystem cfg).reliable m n i o b s)
    (hwrites : WritesCurrent p n o) {u : Id} (hstale : RatingStale (p.world.commit n i o s) u) :
    UpdateDue (p.world.commit n i o s) n u ∨ ∃ n', n' ≠ n ∧ p.Owes UpdateDue n' u := by
  obtain ⟨k, hrun⟩ := hc.issued
  have hJ := (hp.thread hrun).1
  have stays (ho : o.updates u = false) (h : RatingStale p.world u) :
      UpdateDue (p.world.commit n i o s) n u ∨ ∃ n', n' ≠ n ∧ p.Owes UpdateDue n' u := by
    obtain ⟨n', howes⟩ := hcovered u h
    by_cases hn : n' = n
    · exact Or.inl (updateDue_commit_self (hn ▸ howes.2) ho)
    · exact Or.inr ⟨n', hn, howes⟩
  have hmean (ho : o.rates u = false) : s.meanRating u = p.world.shared.meanRating u :=
    meanRating_exec ho hc.effect
  have hwrote := RatedRegistry.exec_wrote hc.effect
  generalize hsh : p.world.shared = s₀ at hwrote hmean
  cases hwrote with
  | @onboarding o _ _ registry hr =>
      apply stays rfl
      rw [RatingStale, hsh]
      exact ⟨(Registry.exec_users hr u).mp hstale.1, hstale.2⟩
  | @createRating r _ ratings hcreate =>
      by_cases hto : r.toUserId = u
      · left
        rw [UpdateDue, memory_commit_self]
        constructor
        · exact ⟨_, List.mem_append_right _ (List.mem_singleton_self _), decide_eq_true hto⟩
        · intro x hx
          rcases List.mem_append.mp hx with hx | hx
          · exact (hJ.2 x hx u).2
          · rw [List.mem_singleton.mp hx]
            rfl
      · apply stays rfl
        rw [RatingStale, hsh]
        exact ⟨hstale.1, hmean (decide_eq_false hto) ▸ hstale.2⟩
  | aggregateRatings =>
      apply stays rfl
      rw [RatingStale, hsh]
      exact hstale
  | @updateUserRating userId rating _ hu =>
      by_cases hid : userId = u
      · subst hid
        right
        rcases hwrites with hcurrent | hother
        · have hwritten := written_eq_mean hJ hcurrent (htraced userId)
          rw [hsh] at hwritten
          refine absurd ?_ hstale.2
          rw [World.commit_shared, hmean rfl, ← hwritten]
          exact Function.update_self ..
        · exact hother
      · right
        obtain ⟨n', howes⟩ := hcovered u (by
          rw [RatingStale, hsh]
          refine ⟨hstale.1, fun hexact => hstale.2 ?_⟩
          rw [World.commit_shared, hmean rfl, ← hexact]
          exact Function.update_of_ne (Ne.symm hid) ..)
        refine ⟨n', ?_, howes⟩
        -- The writing call itself has only rated the user it writes.
        rintro rfl
        obtain ⟨x, hx, hrates⟩ := howes.2.1
        exact hid (hJ.2.1 x hx u hrates).symm

/-- A call in flight that owes an average is rating a trip. -/
private theorem isRateTrip_of_owes (hp : RatingsRecalled cfg ids p) {n : Nat} {u : Id}
    (h : p.Owes UpdateDue n u) : ∃ i o k, p.running[n]? = some (i, .step o k) ∧
      i.isRateTrip = true := by
  obtain ⟨⟨i, o, k, hrun⟩, ⟨x, hx, hrates⟩, -⟩ := h
  refine ⟨i, o, k, hrun, ?_⟩
  have hJ := (hp.thread hrun).1
  cases o with
  | onboarding o => exact nomatch (hJ x hx u).symm.trans hrates
  | createRating r => exact hJ.1
  | aggregateRatings toUserId => exact hJ.1
  | updateUserRating userId rating => exact hJ.1

/-- One move keeps every stale rating of a registered user owed by some call. -/
private theorem covered_step (hp : RatingsRecalled cfg ids p)
    (hcovered : p.Covered UpdateDue RatingStale)
    (htraced : ∀ u, p.world.Traced (fun s => s.meanRating u) (RatingStmt.rates u))
    (m : RatingMove) (hwrites : ∀ n i o b s,
      p.Commits (ratingSystem cfg).reliable m n i o b s → WritesCurrent p n o) :
    (p.step (ratingSystem cfg).reliable m).Covered UpdateDue RatingStale := by
  have hp' := (ratings_recalled cfg ids).holds_step hp m
  -- Whatever way a call has ended, it owes nothing to a registered user.
  have settled {n : Nat} {u : Id}
      (hdue : NothingDue ids (memory n (p.step (ratingSystem cfg).reliable m).world.trace))
      (hstale : RatingStale (p.step (ratingSystem cfg).reliable m).world u) :
      ¬ UpdateDue (p.step (ratingSystem cfg).reliable m).world n u := by
    rintro ⟨hrated, hnone⟩
    obtain ⟨x, hx, hupdates⟩ := hdue u ((hp'.shared u).mpr hstale.1) hrated
    exact nomatch (hnone x hx).symm.trans hupdates
  apply hcovered.step updateDue_commit_ne
  · intro n i a hrun u hstale
    exact settled (hp'.thread hrun) hstale
  · intro n i o b s hc u hstale
    exact covered_commit hp hcovered htraced hc (hwrites n i o b s hc) hstale
  · intro n hthrows u hstale hdue
    obtain ⟨i, e, hrun⟩ := hthrows.2
    exact absurd hdue (settled (hp'.thread hrun) hstale)

private theorem covered_run (hp : RatingsRecalled cfg ids p)
    (hcovered : p.Covered UpdateDue RatingStale)
    (htraced : ∀ u, p.world.Traced (fun s => s.meanRating u) (RatingStmt.rates u))
    (ms : List RatingMove) (hcurrent : AveragesCurrent cfg p ms) :
    (p.run (ratingSystem cfg).reliable ms).Covered UpdateDue RatingStale := by
  induction ms generalizing p with
  | nil => exact hcovered
  | cons m ms ih =>
      obtain ⟨hwrites, hrest⟩ := hcurrent
      apply ih
      · exact (ratings_recalled cfg ids).holds_step hp m
      · exact covered_step hp hcovered htraced m hwrites
      · exact fun u => traced_run meanRating_exec (htraced u) [m]
      · exact hrest

end Runs

/-- However ratings of the same user overlap, every rating is the mean of all
scores whenever no call that rates is in flight, provided that each average is
written while it is current or while another call has yet to write a newer one. -/
theorem ratings_exact (cfg : Config) (registry : Registry) (ms : List RatingMove)
    (hcurrent : AveragesCurrent cfg (Pool.init (.unrated registry)) ms)
    (hended : NoRatingInFlight
      ((Pool.init (.unrated registry)).run (ratingSystem cfg).reliable ms)) :
    ((Pool.init (.unrated registry)).run
      (ratingSystem cfg).reliable ms).world.shared.RatingsExact := by
  let ids : Id → Prop := fun id => ∃ u ∈ registry.users, u.id = id
  have hp : RatingsRecalled cfg ids (Pool.init (.unrated registry)) :=
    MemoryInvariant.holds_init fun id => Iff.rfl
  have hcovered := covered_run hp (fun u hstale => absurd rfl hstale.2)
    (fun u => World.traced_init _ _ _) ms hcurrent
  have hrecalled := (ratings_recalled cfg ids).holds_run hp ms
  intro u hu
  by_contra hne
  obtain ⟨n, howes⟩ := hcovered u.id ⟨⟨u, hu, rfl⟩, hne⟩
  obtain ⟨i, o, k, hrun, hi⟩ := isRateTrip_of_owes hrecalled howes
  rcases hended _ (List.mem_of_getElem? hrun) with hdone | hnot
  · exact nomatch hdone
  · exact nomatch hnot.symm.trans hi

/-- Two riders have each finished a ride with the same driver. -/
def twoRides : Registry where
  users := ⟨[{ id := "driver", activeProfile := .driver }, { id := "rider" },
    { id := "other rider" }], by decide⟩
  driverApplications := .empty
  driverDocuments := .empty
  files _ := none
  ride :=
    { Backend.empty with
      tables :=
        { RideTables.empty with
          trips := ⟨[
              { id := "trip"
                rideRequestId := "request"
                driverId := "driver"
                riderId := "rider"
                agreedFare := 1500
                status := .completed },
              { id := "other trip"
                rideRequestId := "other request"
                driverId := "driver"
                riderId := "other rider"
                agreedFare := 2000
                status := .completed }], by decide⟩ } }

/-- The riders rate the driver 1 and 5. The first call reads the average before
the second rating is inserted, and writes it last. -/
def staleAverage : List RatingMove :=
  [.invoke (.rateTrip "trip" "rider" ⟨1, none⟩ "rating"),
    .invoke (.rateTrip "other trip" "other rider" ⟨5, none⟩ "other rating"),
    .advance 0, .advance 0, .advance 0, .advance 1, .advance 1, .advance 1, .advance 1,
    .advance 0]

/-- Both calls have then returned, and the driver is rated 1. -/
theorem not_ratingsExact_staleAverage :
    NoRatingInFlight ((Pool.init (.unrated twoRides)).run
        (ratingSystem .default).reliable staleAverage) ∧
      ¬ ((Pool.init (.unrated twoRides)).run
        (ratingSystem .default).reliable staleAverage).world.shared.RatingsExact := by
  decide +kernel

/-- The same two calls overlap, and the older average is written first. -/
theorem ratings_exact_twoRides :
    ((Pool.init (.unrated twoRides)).run (ratingSystem .default).reliable
      [.invoke (.rateTrip "trip" "rider" ⟨1, none⟩ "rating"),
        .invoke (.rateTrip "other trip" "other rider" ⟨5, none⟩ "other rating"),
        .advance 0, .advance 0, .advance 0, .advance 1, .advance 1, .advance 0, .advance 1,
        .advance 1]).world.shared.RatingsExact := by
  apply ratings_exact
  · decide +kernel
  · decide +kernel

end Reedr
