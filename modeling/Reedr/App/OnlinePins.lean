import Reedr.App.DriverPool
import Reedr.Realtime.LiveMap

/-!
# Pins of drivers who are online

A subscribed rider is told about a driver only by events within their viewport,
each judged by the driver's position at that moment. A pin goes when the driver
goes offline inside the viewport, and one is put for a driver who reports a
position without being online.
-/

namespace Reedr
open Relational Interleaving

/-- What moves the pins of the nearby-drivers map. The last two are the expiry of
a cache entry and the passing of time. -/
inductive MapInvocation where
  | setOnlineStatus (userId : Id) (isOnline : Bool)
  | updateLocation (userId : Id) (lat lng : Coord)
  | goOffline (userId : Id)
  | trackSubscribe (matchRadiusKm : Rat) (userId : Id) (lat lng : Coord) (radiusKm : Option Rat)
  | trackUnsubscribe (userId : Id)
  | evictIdentity (userId : Id)
  | elapse (duration : Millis)

/-- The call behind each invocation. -/
def MapInvocation.code (cfg : Config) : MapInvocation → AppCall Unit
  | .setOnlineStatus userId isOnline =>
      (DriversService.setOnlineStatus userId isOnline).void.embed rideInApp
  | .updateLocation userId lat lng =>
      (DriversService.updateLocation userId lat lng).void.embed rideInApp
  | .goOffline userId => (DriversService.goOffline cfg userId).embed rideInApp
  | .trackSubscribe matchRadiusKm userId lat lng radiusKm =>
      RealtimeGateway.onTrackSubscribe matchRadiusKm userId lat lng radiusKm
  | .trackUnsubscribe userId => issue (.deleteTrackSubscription userId)
  | .evictIdentity userId => issue (.ride (.evictIdentity userId))
  | .elapse duration => issue (.ride (.elapse duration))

/-- The services and the gateway, asked only for these. -/
def mapSystem (cfg : Config) : System appSignature ServiceError AppState MapInvocation where
  code := MapInvocation.code cfg
  exec := AppState.exec cfg
  external := AppStmt.external
  outage := .outage

abbrev MapWorld := World appSignature AppState MapInvocation

/-- Any drivers, and nobody subscribed to the map yet. -/
structure MapStart where
  state : AppState
  unsubscribed : state.registry.ride.gateway.riderTrackSubscriptions = []

/-- Subscribes the rider, or moves their viewport. -/
def AppStmt.subscribes (riderId : Id) : AppStmt → Bool
  | .setTrackSubscription userId _ => userId = riderId
  | _ => false

/-- How much had been sent when a rider subscribed last. -/
def sentBefore (w : MapWorld) (riderId : Id) : Nat :=
  ((w.trace.reverse.find? fun c => c.op.subscribes riderId).map fun c =>
    c.before.gateway.sent.length).getD 0

/-- The map of a rider, read since they subscribed last. -/
def riderMap (w : MapWorld) (riderId : Id) : LiveMap :=
  LiveMap.read riderId (w.shared.gateway.sent.drop (sentBefore w riderId))

/-- Every pin on the map of a subscribed rider is of a driver who is online. -/
def PinsOnline (w : MapWorld) : Prop :=
  ∀ riderId, w.shared.gateway.Tracks riderId →
    ∀ d, (riderMap w riderId).Shows d → w.shared.tables.Online d

/-- A driver goes offline where every rider whose map shows them can see it, and
nobody sees the position of a driver who is not online. -/
def SeenOnline (cfg : Config) (w : MapWorld) (_ : MapInvocation) : AppStmt → Prop
  | .ride (.setOnline d false) =>
      ∀ riderId, w.shared.gateway.Tracks riderId → (riderMap w riderId).Shows d →
        ∃ p ∈ w.shared.tables.driverProfiles, p.userId = d ∧
          riderId ∈ w.shared.gateway.ridersSeeing cfg.haversineMeters p.currentLat p.currentLng
  | .ride (.setLocation d lat lng _) =>
      w.shared.gateway.ridersTracking cfg.haversineMeters lat lng ≠ [] → w.shared.tables.Online d
  | _ => True

section Steps
variable {cfg : Config} {w : MapWorld} {n : Nat} {i : MapInvocation} {o : AppStmt} {s : AppState}

theorem sentBefore_commit (riderId : Id) : sentBefore (w.commit n i o s) riderId =
    if o.subscribes riderId then w.shared.gateway.sent.length else sentBefore w riderId := by
  simp only [sentBefore, World.commit_trace, List.reverse_append, List.reverse_singleton,
    List.singleton_append, List.find?_cons]
  cases o.subscribes riderId <;> simp

/-- What is counted as sent before a subscription has been sent. -/
private def Counted (w : MapWorld) : Prop :=
  ∀ riderId, sentBefore w riderId ≤ w.shared.gateway.sent.length

/-- Statements that may write profiles, subscriptions or messages. -/
private def AppStmt.moves : AppStmt → Bool
  | .ride o => o.writesTables || o.writesGateway
  | .consume _ _ | .emitError _ _ => false
  | _ => true

private theorem Counted.commit (h : Counted w) {b : o.Res}
    (hx : AppState.exec cfg o w.shared = .ok (b, s)) : Counted (w.commit n i o s) := by
  obtain ⟨more, hmore⟩ := AppState.exec_sent hx
  intro riderId
  have hold := h riderId
  rw [sentBefore_commit, World.commit_shared, hmore, List.length_append]
  split <;> omega

private theorem exec_unmoved (ho : o.moves = false) {b : o.Res}
    (hx : AppState.exec cfg o w.shared = .ok (b, s)) :
    s.tables = w.shared.tables ∧ s.gateway = w.shared.gateway := by
  unfold AppStmt.moves at ho
  split at ho
  · obtain ⟨htables, hgateway⟩ := Bool.or_eq_false_iff.mp ho
    have hframe := Backend.exec_frame (AppState.exec_ride hx)
    exact ⟨hframe.tables htables, hframe.gateway hgateway⟩
  · cases hx
    exact ⟨rfl, rfl⟩
  · cases hx
    exact ⟨rfl, rfl⟩
  · cases ho

/-- The pins were online exactly as long as the statements met their condition. -/
private def MapDecided (cfg : Config) (w : MapWorld) : Prop :=
  PinsOnline w ↔ w.AllExecuted (SeenOnline cfg)

/-- Before the call, the pins were online and the statements met their condition. -/
private def Settled (cfg : Config) (w : MapWorld) : Prop :=
  Counted w ∧ PinsOnline w ∧ w.AllExecuted (SeenOnline cfg)

private theorem Settled.decided (h : Settled cfg w) : MapDecided cfg w :=
  iff_of_true h.2.1 h.2.2

/-- A statement that moves nothing decides nothing. -/
private theorem unmoved_commit (ho : o.moves = false) {b : o.Res}
    (hx : AppState.exec cfg o w.shared = .ok (b, s)) :
    (PinsOnline (w.commit n i o s) ↔ PinsOnline w) ∧
      ((w.commit n i o s).AllExecuted (SeenOnline cfg) ↔ w.AllExecuted (SeenOnline cfg)) := by
  obtain ⟨htables, hgateway⟩ := exec_unmoved ho hx
  constructor
  · have hsubscribes (riderId : Id) : o.subscribes riderId = false := by
      cases o with
      | setTrackSubscription userId viewport => cases ho
      | _ => rfl
    simp only [PinsOnline, riderMap, sentBefore_commit, hsubscribes, World.commit_shared,
      htables, hgateway, Bool.false_eq_true, if_false]
  · have hseen : SeenOnline cfg w i o := by
      unfold SeenOnline
      split
      · cases ho
      · cases ho
      · trivial
    rw [World.allExecuted_commit]
    exact and_iff_left hseen

private theorem MapDecided.commit (h : MapDecided cfg w) (ho : o.moves = false) {b : o.Res}
    (hx : AppState.exec cfg o w.shared = .ok (b, s)) : MapDecided cfg (w.commit n i o s) := by
  obtain ⟨hpins, hall⟩ := unmoved_commit (n := n) (i := i) ho hx
  unfold MapDecided at h ⊢
  rw [hpins, hall, h]

private theorem Settled.commit (h : Settled cfg w) (ho : o.moves = false) {b : o.Res}
    (hx : AppState.exec cfg o w.shared = .ok (b, s)) : Settled cfg (w.commit n i o s) := by
  obtain ⟨hpins, hall⟩ := unmoved_commit (n := n) (i := i) ho hx
  exact ⟨h.1.commit hx, hpins.mpr h.2.1, hall.mpr h.2.2⟩

/-- What reaches the map of a rider by one more statement. -/
private theorem riderMap_commit {riderId : Id} (h : Counted w)
    (ho : o.subscribes riderId = false) {userIds : List Id} {m : Message}
    (hsent : s.gateway.sent = w.shared.gateway.sent ++ userIds.map fun userId => (userId, m)) :
    riderMap (w.commit n i o s) riderId =
      if riderId ∈ userIds then (riderMap w riderId).receive m else riderMap w riderId := by
  unfold riderMap
  rw [sentBefore_commit, ho, World.commit_shared, hsent]
  rw [if_neg Bool.false_ne_true, List.drop_append_of_le_length (h riderId)]
  exact LiveMap.read_sendAll userIds m

private theorem riderMap_commit_of_sent {riderId : Id} (ho : o.subscribes riderId = false)
    (hsent : s.gateway.sent = w.shared.gateway.sent) :
    riderMap (w.commit n i o s) riderId = riderMap w riderId := by
  unfold riderMap
  rw [sentBefore_commit, ho, World.commit_shared, hsent, if_neg Bool.false_ne_true]

theorem RideTables.setOnline_online {db db' : RideTables} {d : Id} {isOnline : Bool}
    {p : DriverProfile} (h : db.setOnline d isOnline = .ok (p, db')) (x : Id) :
    db'.Online x ↔ if x = d then isOnline = true else db.Online x := by
  obtain ⟨he, p₀, hp₀, hd, -⟩ := RideTables.setOnline_effect h
  constructor
  · rintro ⟨q', hq', rfl, hon⟩
    obtain ⟨q, hq, rfl⟩ := (he.profiles q').mp hq'
    by_cases hqd : q.userId = d
    · simpa [setOnlineRow, hqd] using hon
    · simp only [setOnlineRow, if_neg hqd] at hon ⊢
      exact ⟨q, hq, rfl, hon⟩
  · intro hx
    split at hx
    · next hxd =>
        refine ⟨_, he.profiles.mem hp₀, ?_, ?_⟩
        · simp [setOnlineRow, hd, hxd]
        · simp [setOnlineRow, hd, hx]
    · next hxd =>
        obtain ⟨q, hq, rfl, hon⟩ := hx
        refine ⟨_, he.profiles.mem hq, ?_, ?_⟩
        · simp [setOnlineRow, hxd]
        · simpa [setOnlineRow, hxd] using hon

/-- What a driver's profile was before the call is what the event tells of it. -/
private theorem seenOnline_setOffline {d : Id} {p : DriverProfile}
    (hp : p ∈ w.shared.tables.driverProfiles) (hd : p.userId = d) :
    SeenOnline cfg w i (.ride (.setOnline d false)) ↔
      ∀ riderId, w.shared.gateway.Tracks riderId → (riderMap w riderId).Shows d →
        riderId ∈ w.shared.gateway.ridersSeeing cfg.haversineMeters p.currentLat p.currentLng := by
  constructor
  · intro h riderId htracks hshows
    obtain ⟨q, hq, hqd, hsees⟩ := h riderId htracks hshows
    rwa [← DriverProfile.eq_of_userId hq hp (hqd.trans hd.symm)]
  · intro h riderId htracks hshows
    exact ⟨p, hp, hd, h riderId htracks hshows⟩

/-- A change of availability and the event that tells of it. -/
private theorem Settled.setOnline (h : Settled cfg w) {d : Id} {isOnline : Bool}
    {p : DriverProfile} {s₁ s₂ : AppState} {u : Unit}
    (hx : AppState.exec cfg (.ride (.setOnline d isOnline)) w.shared = .ok (p, s₁))
    (hemit : AppState.exec cfg (.ride (.emit
      (.driverOnlineStatusChanged d isOnline p.currentLat p.currentLng))) s₁ = .ok (u, s₂)) :
    MapDecided cfg ((w.commit n i (.ride (.setOnline d isOnline)) s₁).commit n i
      (.ride (.emit (.driverOnlineStatusChanged d isOnline p.currentLat p.currentLng))) s₂) := by
  obtain ⟨hcounted, hpins, hall⟩ := h
  have hset := AppState.exec_ride hx
  obtain ⟨ht, hs₁⟩ := Backend.onTables_ok (fun db => db.setOnline d isOnline) hset
  have hg₁ : s₁.gateway = w.shared.gateway := (congrArg Backend.gateway hs₁ :)
  have hs₂ := (Except.ok.inj (AppState.exec_ride hemit)).symm
  have ht₂ : s₂.tables = s₁.tables := congrArg (fun r : _ × Backend => r.2.tables) hs₂
  have hg₂ : s₂.gateway = if isOnline then w.shared.gateway else w.shared.gateway.sendAll
      (w.shared.gateway.ridersSeeing cfg.haversineMeters p.currentLat p.currentLng)
      (.driverOffline d) := by
    rw [← hg₁, ← Gateway.handle_onlineStatusChanged]
    exact congrArg (fun r : _ × Backend => r.2.gateway) hs₂
  have honline (x : Id) :
      s₂.tables.Online x ↔ if x = d then isOnline = true else w.shared.tables.Online x := by
    rw [ht₂]
    exact RideTables.setOnline_online ht x
  have hcounted₁ : Counted (w.commit n i (.ride (.setOnline d isOnline)) s₁) :=
    hcounted.commit hx
  have hmap₁ (riderId : Id) :
      riderMap (w.commit n i (.ride (.setOnline d isOnline)) s₁) riderId = riderMap w riderId :=
    riderMap_commit_of_sent rfl (congrArg Gateway.sent hg₁)
  obtain ⟨-, p₀, hp₀, hd, hp⟩ := RideTables.setOnline_effect ht
  unfold MapDecided
  rw [World.allExecuted_commit, World.allExecuted_commit]
  cases isOnline with
  | true =>
      rw [if_pos rfl] at hg₂
      have hsent : s₂.gateway.sent = s₁.gateway.sent := by rw [hg₂, hg₁]
      refine iff_of_true ?_ ⟨⟨hall, trivial⟩, trivial⟩
      intro riderId htracks x hshows
      rw [riderMap_commit_of_sent rfl hsent, hmap₁] at hshows
      rw [World.commit_shared, hg₂] at htracks
      rw [World.commit_shared, honline]
      split
      · rfl
      · exact hpins riderId htracks x hshows
  | false =>
      have hsent : s₂.gateway.sent = s₁.gateway.sent ++
          (w.shared.gateway.ridersSeeing cfg.haversineMeters p.currentLat p.currentLng).map
            fun userId => (userId, .driverOffline d) := by
        rw [hg₂, hg₁, if_neg Bool.false_ne_true, Gateway.sendAll_eq]
      have htracks₂ (riderId : Id) :
          s₂.gateway.Tracks riderId ↔ w.shared.gateway.Tracks riderId := by
        rw [hg₂, if_neg Bool.false_ne_true, Gateway.sendAll_eq]
        exact Iff.rfl
      have hsees : SeenOnline cfg w i (.ride (.setOnline d false)) ↔
          ∀ riderId, w.shared.gateway.Tracks riderId → (riderMap w riderId).Shows d →
            riderId ∈ w.shared.gateway.ridersSeeing cfg.haversineMeters p.currentLat
              p.currentLng := by
        have hposition : p.currentLat = p₀.currentLat ∧ p.currentLng = p₀.currentLng := by
          rw [hp]
          exact ⟨rfl, rfl⟩
        rw [hposition.1, hposition.2]
        exact seenOnline_setOffline hp₀ hd
      rw [hsees]
      constructor
      · intro hnow
        refine ⟨⟨hall, fun riderId htracks hshows => ?_⟩, trivial⟩
        by_contra hunseen
        have hstill := hnow riderId ((htracks₂ riderId).mpr htracks) d <| by
          rw [riderMap_commit hcounted₁ rfl hsent, if_neg hunseen, hmap₁]
          exact hshows
        rw [World.commit_shared, honline, if_pos rfl] at hstill
        cases hstill
      · rintro ⟨⟨-, hseen⟩, -⟩ riderId htracks x hshows
        have htracked := (htracks₂ riderId).mp htracks
        rw [riderMap_commit hcounted₁ rfl hsent, hmap₁] at hshows
        rw [World.commit_shared, honline]
        split at hshows
        · obtain ⟨hne, hshows⟩ := LiveMap.shows_receive_offline.mp hshows
          rw [if_neg hne]
          exact hpins riderId htracked x hshows
        · next hunseen =>
            by_cases hxd : x = d
            · subst hxd
              exact absurd (hseen riderId htracked hshows) hunseen
            · rw [if_neg hxd]
              exact hpins riderId htracked x hshows

theorem RideTables.setLocation_online {db db' : RideTables} {d : Id} {lat lng : Coord}
    {now : Millis} {p : DriverProfile} (h : db.setLocation d lat lng now = .ok (p, db')) (x : Id) :
    db'.Online x ↔ db.Online x := by
  have he := RideTables.setLocation_effect h
  have hsame (q : DriverProfile) : (setLocationRow d lat lng now q).userId = q.userId ∧
      (setLocationRow d lat lng now q).isOnline = q.isOnline := by
    unfold setLocationRow
    split <;> exact ⟨rfl, rfl⟩
  constructor
  · rintro ⟨q', hq', rfl, hon⟩
    obtain ⟨q, hq, rfl⟩ := (he.profiles q').mp hq'
    exact ⟨q, hq, (hsame q).1.symm, (hsame q).2.symm.trans hon⟩
  · rintro ⟨q, hq, rfl, hon⟩
    exact ⟨_, he.profiles.mem hq, (hsame q).1, (hsame q).2.trans hon⟩

/-- A position that is written and the event that tells of it. -/
private theorem Settled.setLocation (h : Settled cfg w) {d : Id} {lat lng : Coord} {now : Millis}
    {p : DriverProfile} {s₁ s₂ : AppState} {u : Unit}
    (hx : AppState.exec cfg (.ride (.setLocation d lat lng now)) w.shared = .ok (p, s₁))
    (hemit : AppState.exec cfg (.ride (.emit (.driverLocationUpdated d lat lng))) s₁ =
      .ok (u, s₂)) :
    MapDecided cfg ((w.commit n i (.ride (.setLocation d lat lng now)) s₁).commit n i
      (.ride (.emit (.driverLocationUpdated d lat lng))) s₂) := by
  obtain ⟨hcounted, hpins, hall⟩ := h
  have hset := AppState.exec_ride hx
  obtain ⟨ht, hs₁⟩ := Backend.onTables_ok (fun db => db.setLocation d lat lng now) hset
  have hg₁ : s₁.gateway = w.shared.gateway := (congrArg Backend.gateway hs₁ :)
  have hs₂ := (Except.ok.inj (AppState.exec_ride hemit)).symm
  have ht₂ : s₂.tables = s₁.tables := congrArg (fun r : _ × Backend => r.2.tables) hs₂
  have hg₂ : s₂.gateway = w.shared.gateway.sendAll
      (w.shared.gateway.ridersTracking cfg.haversineMeters lat lng)
      (.driverLocation d lat lng) := by
    rw [← hg₁]
    exact congrArg (fun r : _ × Backend => r.2.gateway) hs₂
  have honline (x : Id) : s₂.tables.Online x ↔ w.shared.tables.Online x := by
    rw [ht₂]
    exact RideTables.setLocation_online ht x
  have hcounted₁ : Counted (w.commit n i (.ride (.setLocation d lat lng now)) s₁) :=
    hcounted.commit hx
  have hmap₁ (riderId : Id) :
      riderMap (w.commit n i (.ride (.setLocation d lat lng now)) s₁) riderId =
        riderMap w riderId :=
    riderMap_commit_of_sent rfl (congrArg Gateway.sent hg₁)
  have hsent : s₂.gateway.sent = s₁.gateway.sent ++
      (w.shared.gateway.ridersTracking cfg.haversineMeters lat lng).map
        fun userId => (userId, .driverLocation d lat lng) := by
    rw [hg₂, hg₁, Gateway.sendAll_eq]
  have htracks₂ (riderId : Id) : s₂.gateway.Tracks riderId ↔ w.shared.gateway.Tracks riderId := by
    rw [hg₂, Gateway.sendAll_eq]
    exact Iff.rfl
  unfold MapDecided
  rw [World.allExecuted_commit, World.allExecuted_commit]
  constructor
  · intro hnow
    refine ⟨⟨hall, fun hseen => ?_⟩, trivial⟩
    obtain ⟨riderId, hrider⟩ := List.exists_mem_of_ne_nil _ hseen
    have htracks : w.shared.gateway.Tracks riderId :=
      Gateway.tracks_of_mem_ridersTracking _ _ hrider
    rw [← honline]
    apply hnow riderId ((htracks₂ riderId).mpr htracks) d
    rw [riderMap_commit hcounted₁ rfl hsent, if_pos hrider]
    exact LiveMap.shows_receive_location.mpr (Or.inl rfl)
  · rintro ⟨⟨-, hseen⟩, -⟩ riderId htracks x hshows
    have htracked := (htracks₂ riderId).mp htracks
    rw [riderMap_commit hcounted₁ rfl hsent, hmap₁] at hshows
    rw [World.commit_shared, honline]
    split at hshows
    · next hrider =>
        rcases LiveMap.shows_receive_location.mp hshows with rfl | hshows
        · exact hseen (List.ne_nil_of_mem hrider)
        · exact hpins riderId htracked x hshows
    · exact hpins riderId htracked x hshows

/-- A new viewport starts from an empty map. -/
private theorem Settled.subscribe (h : Settled cfg w) {userId : Id} {viewport : Viewport}
    {u : Unit}
    (hx : AppState.exec cfg (.setTrackSubscription userId viewport) w.shared = .ok (u, s)) :
    MapDecided cfg (w.commit n i (.setTrackSubscription userId viewport) s) := by
  obtain ⟨hcounted, hpins, hall⟩ := h
  have hs := (Except.ok.inj hx).symm
  have htables : s.tables = w.shared.tables := congrArg (fun r : _ × AppState => r.2.tables) hs
  have hgateway : s.gateway = w.shared.gateway.setTrackSubscription userId viewport :=
    congrArg (fun r : _ × AppState => r.2.gateway) hs
  have hsent : s.gateway.sent = w.shared.gateway.sent := by rw [hgateway]; rfl
  refine iff_of_true ?_ (World.allExecuted_commit.mpr ⟨hall, trivial⟩)
  intro riderId htracks d hshows
  by_cases hr : riderId = userId
  · have hsub : (AppStmt.setTrackSubscription userId viewport).subscribes riderId = true :=
      decide_eq_true hr.symm
    unfold riderMap at hshows
    rw [sentBefore_commit, if_pos hsub, World.commit_shared, hsent, List.drop_length] at hshows
    exact absurd hshows (LiveMap.not_shows_empty d)
  · have hsub : (AppStmt.setTrackSubscription userId viewport).subscribes riderId = false :=
      decide_eq_false fun h => hr h.symm
    rw [riderMap_commit_of_sent hsub hsent] at hshows
    rw [World.commit_shared, hgateway, Gateway.tracks_setTrackSubscription] at htracks
    rw [World.commit_shared, htables]
    exact hpins riderId (htracks.resolve_left hr) d hshows

private theorem Settled.unsubscribe (h : Settled cfg w) {userId : Id} {u : Unit}
    (hx : AppState.exec cfg (.deleteTrackSubscription userId) w.shared = .ok (u, s)) :
    MapDecided cfg (w.commit n i (.deleteTrackSubscription userId) s) := by
  obtain ⟨hcounted, hpins, hall⟩ := h
  have hs := (Except.ok.inj hx).symm
  have htables : s.tables = w.shared.tables := congrArg (fun r : _ × AppState => r.2.tables) hs
  have hgateway : s.gateway = w.shared.gateway.deleteTrackSubscription userId :=
    congrArg (fun r : _ × AppState => r.2.gateway) hs
  have hsent : s.gateway.sent = w.shared.gateway.sent := by rw [hgateway]; rfl
  refine iff_of_true ?_ (World.allExecuted_commit.mpr ⟨hall, trivial⟩)
  intro riderId htracks d hshows
  rw [riderMap_commit_of_sent rfl hsent] at hshows
  rw [World.commit_shared, hgateway] at htracks
  rw [World.commit_shared, htables]
  exact hpins riderId (Gateway.Tracks.of_deleteTrackSubscription _ htracks) d hshows

end Steps

section Calls
variable {cfg : Config} {w : MapWorld} {n : Nat} {i : MapInvocation}

/-- A call that ends early, or goes on to move nothing, decides nothing. -/
private theorem mapDecided_of_uses {α : Type} {c : AppCall α}
    (hc : c.Uses fun o : AppStmt => o.moves = false)
    (h : MapDecided cfg w) :
    c.Ends (mapSystem cfg) n i (fun _ w' => MapDecided cfg w') w :=
  Call.Ends.of_uses (fun _ _ _ _ ho hw hx => hw.commit ho hx) hc h

private theorem settled_findIdentity (h : Settled cfg w) (userId : Id) :
    ((DriversService.findIdentityByUserId userId).embed rideInApp).Ends (mapSystem cfg) n i
      (fun _ w' => Settled cfg w') w := by
  refine Call.Ends.of_uses (P := fun o : AppStmt => o.moves = false)
    (fun _ _ _ _ ho hw hx => hw.commit ho hx) ?_ h
  exact Call.Uses.embed (fun o ho => ho) (DriversService.findIdentityByUserId_uses
    (P := fun o => AppStmt.moves (.ride o) = false) (fun _ => rfl) (fun _ => rfl)
    (fun _ _ => rfl) userId)

/-- The two statements that change a driver's availability, and what follows. -/
private theorem decided_setOnline {α : Type} (h : Settled cfg w) (d : Id) (isOnline : Bool)
    {f : DriverProfile → RideCall α}
    (hf : ∀ p, (f p).Uses fun o => AppStmt.moves (.ride o) = false) :
    ((do
      let updated ← perform (.setOnline d isOnline)
      perform (.emit (.driverOnlineStatusChanged d isOnline updated.currentLat
        updated.currentLng))
      f updated : RideCall α).embed rideInApp).Ends (mapSystem cfg) n i
        (fun _ w' => MapDecided cfg w') w := by
  apply Call.Ends.embed_perform_bind
  · exact fun _ => h.decided
  · intro p s₁ hx
    apply Call.Ends.embed_perform_bind
    · exact nofun
    · intro u s₂ hemit
      exact mapDecided_of_uses (Call.Uses.embed (fun o ho => ho) (hf p)) (h.setOnline hx hemit)
    · exact nofun
  · exact fun _ _ => h.decided

private theorem code_mapDecided (h : Settled cfg w) :
    (i.code cfg).Ends (mapSystem cfg) n i (fun _ w' => MapDecided cfg w') w := by
  cases i with
  | setOnlineStatus userId isOnline =>
      rw [MapInvocation.code, Call.embed_void]
      apply Call.Ends.void
      unfold DriversService.setOnlineStatus
      rw [Call.embed_bind]
      apply Call.Ends.bind
      apply (settled_findIdentity h userId).mono
      rintro (e | identity) w' hw'
      · exact hw'.decided
      · apply Call.Ends.embed_required_bind
        · intro profile _
          exact decided_setOnline hw' userId isOnline fun p => trivial
        · exact fun _ => hw'.decided
  | updateLocation userId lat lng =>
      rw [MapInvocation.code, Call.embed_void]
      apply Call.Ends.void
      unfold DriversService.updateLocation
      rw [Call.embed_bind]
      apply Call.Ends.bind
      apply (settled_findIdentity h userId).mono
      rintro (e | identity) w' hw'
      · exact hw'.decided
      apply Call.Ends.embed_required_bind
      · intro profile _
        apply Call.Ends.embed_perform_bind
        · exact nofun
        · intro now s hnow
          have hw : Settled cfg (w'.commit n (.updateLocation userId lat lng) (.ride .now) s) :=
            hw'.commit rfl hnow
          apply Call.Ends.embed_perform_bind
          · exact fun _ => hw.decided
          · intro p s₁ hx
            apply Call.Ends.embed_perform_bind
            · exact nofun
            · exact fun u s₂ hemit => hw.setLocation hx hemit
            · exact nofun
          · exact fun _ _ => hw.decided
        · exact nofun
      · exact fun _ => hw'.decided
  | goOffline userId =>
      rw [MapInvocation.code, DriversService.goOffline, Call.embed_bind]
      apply Call.Ends.bind
      apply (settled_findIdentity h userId).mono
      rintro (e | identity) w' hw'
      · exact hw'.decided
      · cases identity with
        | none => exact hw'.decided
        | some profile =>
            exact decided_setOnline hw' userId false fun p => Call.Uses.perform rfl
  | trackSubscribe matchRadiusKm userId lat lng radiusKm =>
      apply Call.Ends.perform_bind
      · exact nofun
      · intro allowed s hx
        have hw : Settled cfg (w.commit n (.trackSubscribe matchRadiusKm userId lat lng radiusKm)
            (.consume .trackSubscribeLimiter userId) s) :=
          h.commit rfl hx
        cases allowed with
        | false => exact mapDecided_of_uses (Call.Uses.perform rfl) hw.decided
        | true =>
            apply Call.Ends.perform
            · exact nofun
            · exact fun u s₂ hx₂ => hw.subscribe hx₂
            · exact nofun
      · exact nofun
  | trackUnsubscribe userId =>
      apply Call.Ends.perform
      · exact fun _ => h.decided
      · exact fun u s hx => h.unsubscribe hx
      · exact fun _ _ => h.decided
  | evictIdentity userId => exact mapDecided_of_uses (Call.Uses.perform rfl) h.decided
  | elapse duration => exact mapDecided_of_uses (Call.Uses.perform rfl) h.decided

end Calls

/-- After every call the pins on all maps are of drivers who are online, if and only
if drivers go offline only where every rider whose map shows them can see it, and
report positions that somebody can see only while they are online. -/
theorem pins_online_iff (cfg : Config) (start : MapStart)
    (calls : List (MapInvocation × List Bool)) :
    (∀ k, PinsOnline ((Pool.init start.state).serveAll (mapSystem cfg) (calls.take k)).world) ↔
      ((Pool.init start.state).serveAll (mapSystem cfg) calls).world.AllExecuted
        (SeenOnline cfg) := by
  apply Pool.serveAll_points_iff (I := Counted)
  · intro w n i hw
    exact Call.Ends.of_uses (fun _ _ _ _ _ hw hx => Counted.commit hw hx) (Call.Uses.any _) hw
  · intro w n i hcounted hpins hall
    exact code_mapDecided ⟨hcounted, hpins, hall⟩
  · exact fun _ => Nat.zero_le _
  · rintro riderId ⟨s, hs, -⟩
    rw [Pool.init, World.init_shared, start.unsubscribed] at hs
    cases hs
  · exact World.allExecuted_init _ _

/-- Any two positions are ten kilometres apart. -/
def Config.apart : Config :=
  { Config.default with haversineMeters := fun a b c d => if a = c ∧ b = d then 0 else 10000 }

private theorem parkedDriver_users_distinct :
    [({ id := "driver", activeProfile := .driver } : User), { id := "rider" }].Pairwise
      fun a b => ¬ Clash a b := by
  decide

private theorem parkedDriver_profiles_distinct :
    [({ id := "profile", userId := "driver", driverApplicationId := "application" } :
      DriverProfile)].Pairwise fun a b => ¬ Clash a b := by
  decide

/-- A verified driver, and nobody subscribed. -/
def parkedDriver : MapStart where
  state :=
    { rated := .unrated
        { users := ⟨[{ id := "driver", activeProfile := .driver }, { id := "rider" }],
            parkedDriver_users_distinct⟩
          driverApplications := .empty
          driverDocuments := .empty
          files := fun _ => none
          ride :=
            { Backend.empty with
              tables :=
                { RideTables.empty with
                  driverProfiles := ⟨[
                    { id := "profile"
                      userId := "driver"
                      driverApplicationId := "application" }],
                    parkedDriver_profiles_distinct⟩ } } } }
  unsubscribed := rfl

/-- A driver shows up on a rider's map, drives out of it and goes offline there. -/
def drivenAway : List (MapInvocation × List Bool) :=
  [(.trackSubscribe 5 "rider" 6 3 none, []), (.setOnlineStatus "driver" true, []),
    (.updateLocation "driver" 6 3, []), (.updateLocation "driver" 7 4, []),
    (.goOffline "driver", [])]

/-- Their pin stays where it was seen last. -/
theorem not_pinsOnline_drivenAway :
    ¬ ∀ k, PinsOnline ((Pool.init parkedDriver.state).serveAll (mapSystem .apart)
      (drivenAway.take k)).world := by
  intro h
  have honline := h 5 "rider" (by decide +kernel) "driver" (by decide +kernel)
  revert honline
  decide +kernel

end Reedr
