import Reedr.App.Requests

/-!
# What the statements of the application do to its parts
-/

namespace Reedr
open Relational Interleaving
variable {cfg : Config}

/-- Nothing that was sent is taken back. -/
theorem Backend.exec_sent {o : Stmt} {b : o.Res} {s s' : Backend}
    (h : exec cfg o s = .ok (b, s')) : ∃ more, s'.gateway.sent = s.gateway.sent ++ more := by
  by_cases ho : o.writesGateway = true
  · cases o with
    | emit ev =>
        cases h
        exact Gateway.handle_sent _ _ _
    | consumeLocationUpdate userId =>
        cases h
        exact ⟨[], (List.append_nil _).symm⟩
    | send userId m =>
        cases h
        exact ⟨[(userId, m)], rfl⟩
    | _ => cases ho
  · rw [(exec_frame h).gateway (Bool.eq_false_iff.mpr ho)]
    exact ⟨[], (List.append_nil _).symm⟩

namespace AppState
variable {s s' : AppState}

abbrev clock (s : AppState) : Millis := s.registry.ride.clock

abbrev gateway (s : AppState) : Gateway := s.registry.ride.gateway

theorem exec_onboarding {o : OnboardingStmt} {b : o.Res}
    (h : exec cfg (.onboarding o) s = .ok (b, s')) :
    Registry.exec cfg o s.registry = .ok (b, s'.registry) :=
  (onboardingInApp_lifts cfg).ok h

theorem exec_ride {o : Stmt} {b : o.Res} (h : exec cfg (.ride o) s = .ok (b, s')) :
    Backend.exec cfg o s.registry.ride = .ok (b, s'.registry.ride) :=
  (rideInApp_lifts cfg).ok h

/-- The services know nothing of the sockets. -/
theorem exec_rating {o : RatingStmt} {b : o.Res} (h : exec cfg (.rating o) s = .ok (b, s')) :
    s' = { s with rated := s'.rated } := by
  simp only [exec] at h
  split at h
  · cases h
    rfl
  · cases h

/-- Next to the ride statements, the services leave clock and gateway alone. -/
theorem exec_rating_ride {o : RatingStmt} {b : o.Res}
    (h : exec cfg (.rating o) s = .ok (b, s')) (ho : ∀ r, o ≠ .onboarding (.ride r)) :
    s'.clock = s.clock ∧ s'.gateway = s.gateway := by
  have hwrote := RatedRegistry.exec_wrote ((ratingsInApp_lifts cfg).ok h)
  generalize hr : s.rated = r at hwrote
  generalize hr' : s'.rated = r' at hwrote
  unfold clock gateway
  rw [registry, registry, hr, hr']
  cases hwrote with
  | onboarding hx =>
      rcases Registry.exec_rideState hx fun r h => ho r (by rw [h]) with
        hsame | ⟨p, tables, -, hsame⟩
      · exact ⟨congrArg Backend.clock hsame, congrArg Backend.gateway hsame⟩
      · constructor
        · exact (congrArg Backend.clock hsame :)
        · exact (congrArg Backend.gateway hsame :)
  | createRating hc => exact ⟨rfl, rfl⟩
  | aggregateRatings => exact ⟨rfl, rfl⟩
  | updateUserRating hu => exact ⟨rfl, rfl⟩

theorem exec_sent {o : AppStmt} {b : o.Res} (h : exec cfg o s = .ok (b, s')) :
    ∃ more, s'.gateway.sent = s.gateway.sent ++ more := by
  have same (hs : s'.gateway.sent = s.gateway.sent) :
      ∃ more, s'.gateway.sent = s.gateway.sent ++ more :=
    ⟨[], hs.trans (List.append_nil _).symm⟩
  cases o with
  | rating r =>
      by_cases hr : ∃ o, r = .onboarding (.ride o)
      · obtain ⟨o, rfl⟩ := hr
        exact Backend.exec_sent (exec_ride h)
      · exact same (congrArg Gateway.sent (exec_rating_ride h fun o ho => hr ⟨o, ho⟩).2)
  | _ =>
      cases h
      exact same rfl

end AppState

end Reedr
