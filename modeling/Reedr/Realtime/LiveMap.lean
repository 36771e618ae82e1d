import Reedr.Realtime.Gateway

/-!
# The nearby-drivers map of a rider

What a rider's client makes of the messages to their room: `driver:location` puts
or moves a driver's pin and `driver:offline` takes it away.
-/

namespace Reedr

/-- The position of each driver's pin, if there is one. -/
abbrev LiveMap := Id → Option (Coord × Coord)

namespace LiveMap

def empty : LiveMap := fun _ => none

/-- The map after one more message. -/
def receive (pins : LiveMap) : Message → LiveMap
  | .driverLocation driverId lat lng => Function.update pins driverId (some (lat, lng))
  | .driverOffline driverId => Function.update pins driverId none
  | _ => pins

/-- The map of a rider, read off everything that was sent. -/
def read (riderId : Id) (sent : List (Id × Message)) : LiveMap :=
  sent.foldl (fun pins m => if m.1 = riderId then pins.receive m.2 else pins) empty

/-- The map shows a driver. -/
def Shows (pins : LiveMap) (driverId : Id) : Prop := (pins driverId).isSome

instance (pins : LiveMap) (driverId : Id) : Decidable (pins.Shows driverId) :=
  inferInstanceAs (Decidable (_ = true))

variable {riderId : Id} {sent : List (Id × Message)}

/-- What is sent to several rooms reaches the map of a rider among them. -/
theorem read_sendAll (userIds : List Id) (m : Message) :
    read riderId (sent ++ userIds.map fun userId => (userId, m)) =
      if riderId ∈ userIds then (read riderId sent).receive m else read riderId sent := by
  have hagain (pins : LiveMap) : (pins.receive m).receive m = pins.receive m := by
    cases m with
    | driverLocation d lat lng => exact Function.update_idem _ _ _
    | driverOffline d => exact Function.update_idem _ _ _
    | _ => rfl
  induction userIds generalizing sent with
  | nil => simp
  | cons u us ih =>
      have hone : read riderId (sent ++ [(u, m)]) =
          if u = riderId then (read riderId sent).receive m else read riderId sent := by
        simp [read]
      rw [List.map_cons, List.append_cons, ih, hone]
      by_cases hu : u = riderId
      · by_cases hus : riderId ∈ us
        · simp [hu, hus, hagain]
        · simp [hu, hus]
      · have hne : riderId ≠ u := fun h => hu h.symm
        simp [hu, hne]

theorem shows_receive_location {pins : LiveMap} {driverId d : Id} {lat lng : Coord} :
    (pins.receive (.driverLocation driverId lat lng)).Shows d ↔ d = driverId ∨ pins.Shows d := by
  by_cases hd : d = driverId
  · subst hd
    simp [receive, Shows]
  · simp [receive, Shows, hd]

theorem shows_receive_offline {pins : LiveMap} {driverId d : Id} :
    (pins.receive (.driverOffline driverId)).Shows d ↔ d ≠ driverId ∧ pins.Shows d := by
  by_cases hd : d = driverId
  · subst hd
    simp [receive, Shows]
  · simp [receive, Shows, hd]

theorem not_shows_empty (d : Id) : ¬ empty.Shows d := by
  simp [empty, Shows]

end LiveMap

namespace Gateway
variable (haversineMeters : Coord → Coord → Coord → Coord → Rat) (g : Gateway)

/-- The rider is subscribed to the map. -/
def Tracks (riderId : Id) : Prop := ∃ s ∈ g.riderTrackSubscriptions, s.1 = riderId

instance (riderId : Id) : Decidable (g.Tracks riderId) :=
  inferInstanceAs (Decidable (∃ s ∈ g.riderTrackSubscriptions, _))

/-- The riders whose viewport contains a position that may not be known. -/
def ridersSeeing : Option Coord → Option Coord → List Id
  | some lat, some lng => g.ridersTracking haversineMeters lat lng
  | _, _ => []

/-- Going offline takes the pin off the maps the driver is within, and coming
online changes none. -/
theorem handle_onlineStatusChanged (d : Id) (isOnline : Bool) (lat lng : Option Coord) :
    g.handle haversineMeters (.driverOnlineStatusChanged d isOnline lat lng) =
      if isOnline then g else g.sendAll (g.ridersSeeing haversineMeters lat lng) (.driverOffline d)
    := by
  cases isOnline <;> cases lat <;> cases lng <;> rfl

theorem tracks_of_mem_ridersTracking {riderId : Id} {lat lng : Coord}
    (h : riderId ∈ g.ridersTracking haversineMeters lat lng) : g.Tracks riderId := by
  obtain ⟨s, hs, rfl⟩ := List.mem_map.mp h
  exact ⟨s, (List.mem_filter.mp hs).1, rfl⟩

/-- Whoever subscribes is subscribed, next to those who were. -/
theorem tracks_setTrackSubscription {riderId other : Id} {viewport : Viewport} :
    (g.setTrackSubscription riderId viewport).Tracks other ↔ other = riderId ∨ g.Tracks other := by
  unfold Tracks setTrackSubscription
  by_cases hin : ∃ s ∈ g.riderTrackSubscriptions, s.1 = riderId
  · simp only [if_pos hin, List.mem_map]
    constructor
    · rintro ⟨_, ⟨s, hs, rfl⟩, hother⟩
      split at hother
      · exact Or.inl hother.symm
      · exact Or.inr ⟨s, hs, hother⟩
    · intro h
      have hold : ∃ s ∈ g.riderTrackSubscriptions, s.1 = other := by
        rcases h with rfl | h
        · exact hin
        · exact h
      obtain ⟨s, hs, rfl⟩ := hold
      refine ⟨_, ⟨s, hs, rfl⟩, ?_⟩
      split
      · next hid => exact hid.symm
      · rfl
  · simp only [if_neg hin, List.mem_append, List.mem_singleton]
    constructor
    · rintro ⟨s, hs | rfl, rfl⟩
      · exact Or.inr ⟨s, hs, rfl⟩
      · exact Or.inl rfl
    · rintro (rfl | ⟨s, hs, rfl⟩)
      · exact ⟨_, Or.inr rfl, rfl⟩
      · exact ⟨s, Or.inl hs, rfl⟩

theorem Tracks.of_deleteTrackSubscription {riderId other : Id}
    (h : (g.deleteTrackSubscription riderId).Tracks other) : g.Tracks other := by
  obtain ⟨s, hs, rfl⟩ := h
  exact ⟨s, (List.mem_filter.mp hs).1, rfl⟩

end Gateway

end Reedr
