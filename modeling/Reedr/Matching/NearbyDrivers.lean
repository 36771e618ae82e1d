import Mathlib.Data.Rat.Defs
import Mathlib.Algebra.Order.Ring.Unbundled.Rat
import Reedr.Matching.Migrations
import Reedr.Ride.Backend

/-!
# Nearby drivers

The two radius queries of `MatchingService` over the migrated tables, and the
ride services' query for nearby drivers as an instance of the first.

## Implementation notes

PostGIS is a structure of arbitrary functions over an arbitrary ordered type of
numbers. Which of two drivers at the same distance comes first is not fixed by
the database; `Query.answers_unique` shows that nothing else is left open.
-/

namespace Reedr
open Relational Sql

/-- The PostGIS functions of the queries; `knnDistance` is the operator `<->`. -/
structure PostGIS (Double : Type) where
  Geometry : Type
  Geography : Type
  makePoint : Double → Double → Geometry
  setSRID : Geometry → Nat → Geometry
  toGeography : Geometry → Geography
  distance : Geography → Geography → Double
  dWithin : Geography → Geography → Double → Bool
  knnDistance : Geography → Geography → Double

/-- `ST_SetSRID(ST_MakePoint(lng, lat), 4326)::geography` -/
def PostGIS.point {Double : Type} (gis : PostGIS Double) (lng lat : Double) : gis.Geography :=
  gis.toGeography (gis.setSRID (gis.makePoint lng lat) 4326)

/-- What the trigger `sync_driver_location` stores in `location`. -/
def PostGIS.syncDriverLocation {Double : Type} (gis : PostGIS Double) :
    Option Double → Option Double → Option gis.Geography
  | some lat, some lng => some (gis.point lng lat)
  | _, _ => none

/-- The values a column of each type holds. -/
abbrev PostGIS.Cell {Double : Type} (gis : PostGIS Double) : SqlType → Type
  | .text => String
  | .boolean => Bool
  | .integer => Int
  | .doublePrecision => Double
  | .decimal => Rat
  | .timestamp => Millis
  | .date => Millis
  | .geography => gis.Geography
  | .enum _ => String

/-- The service with its configuration and the database's geometry. -/
structure MatchingService (Double : Type) where
  gis : PostGIS Double
  rideMatchRadiusKm : Option Double

namespace MatchingService
variable {Double : Type} (m : MatchingService Double)

/-- A column of `driver_profiles dp`. -/
def dp (name : String) (τ : SqlType) : Expr m.gis.Cell τ := .column "dp" name τ

/-- The point of the search as a parameter of the query. -/
def point (lat lng : Double) : Expr m.gis.Cell .geography := .value (m.gis.point lng lat)

/-- `ST_Distance(dp.location, point)` -/
def distanceMeters (lat lng : Double) : Expr m.gis.Cell .doublePrecision :=
  .call₂ m.gis.distance (m.dp "location" .geography) (m.point lat lng)

/-- `ST_DWithin(dp.location, point, radiusMeters)` -/
def dWithin (lat lng radiusMeters : Double) : Expr m.gis.Cell .boolean :=
  .call₃ m.gis.dWithin (m.dp "location" .geography) (m.point lat lng)
    (.value radiusMeters : Expr m.gis.Cell .doublePrecision)

/-- `dp.location <-> point` -/
def knnDistance (lat lng : Double) : Expr m.gis.Cell .doublePrecision :=
  .call₂ m.gis.knnDistance (m.dp "location" .geography) (m.point lat lng)

/-- The select list of `findNearbyDrivers`. -/
def driverItems (lat lng : Double) : List (Item m.gis.Cell) :=
  [⟨"driverId", .text, m.dp "id" .text⟩,
   ⟨"userId", .text, m.dp "user_id" .text⟩,
   ⟨"distanceMeters", .doublePrecision, m.distanceMeters lat lng⟩]

/-- The select list of `findNearbyDriverLocations`. -/
def locationItems (lat lng : Double) : List (Item m.gis.Cell) :=
  [⟨"driverId", .text, m.dp "id" .text⟩,
   ⟨"userId", .text, m.dp "user_id" .text⟩,
   ⟨"lat", .doublePrecision, m.dp "current_lat" .doublePrecision⟩,
   ⟨"lng", .doublePrecision, m.dp "current_lng" .doublePrecision⟩,
   ⟨"vehicleMake", .text, m.dp "vehicle_make" .text⟩,
   ⟨"vehicleModel", .text, m.dp "vehicle_model" .text⟩,
   ⟨"distanceMeters", .doublePrecision, m.distanceMeters lat lng⟩]

/-- The distance of a profile from the point of the search. -/
def distanceOf (lat lng : Double) (r : Row m.gis.Cell) : Option Double :=
  (r "location" .geography).map fun location => m.gis.distance location (m.gis.point lng lat)

/-- A `NearbyDriver` for the profile. -/
def nearbyDriver (lat lng : Double) (r : Row m.gis.Cell) : Output m.gis.Cell :=
  [("driverId", ⟨.text, r "id" .text⟩),
   ("userId", ⟨.text, r "user_id" .text⟩),
   ("distanceMeters", ⟨.doublePrecision, m.distanceOf lat lng r⟩)]

/-- A `NearbyDriverLocation` for the profile, with the vehicle taken from `vehicle`. -/
def nearbyDriverLocation (vehicle : Row m.gis.Cell → Option (Row m.gis.Cell)) (lat lng : Double)
    (r : Row m.gis.Cell) : Output m.gis.Cell :=
  [("driverId", ⟨.text, r "id" .text⟩),
   ("userId", ⟨.text, r "user_id" .text⟩),
   ("lat", ⟨.doublePrecision, r "current_lat" .doublePrecision⟩),
   ("lng", ⟨.doublePrecision, r "current_lng" .doublePrecision⟩),
   ("vehicleMake", ⟨.text, (vehicle r).bind fun v => v "vehicle_make" .text⟩),
   ("vehicleModel", ⟨.text, (vehicle r).bind fun v => v "vehicle_model" .text⟩),
   ("distanceMeters", ⟨.doublePrecision, m.distanceOf lat lng r⟩)]

/-- The application that `driver_application_id` refers to. -/
def applicationOf (db : Contents m.gis.Cell) (r : Row m.gis.Cell) : Option (Row m.gis.Cell) :=
  (r "driver_application_id" .text).bind fun id =>
    (db "driver_applications").find? fun a => a "id" .text == some id

@[simp] theorem eval_distanceMeters (lat lng : Double) (r : Row m.gis.Cell) :
    (m.distanceMeters lat lng).eval r = m.distanceOf lat lng r := by
  unfold distanceMeters distanceOf
  cases h : r "location" .geography <;> simp [Expr.eval, dp, point, h]

variable [LinearOrder Double]

/-- The clauses after the select list, which the two queries write alike. -/
def radiusQuery (items : List (Item m.gis.Cell)) (lat lng : Double) (radiusMeters : Double) :
    Query m.gis.Cell where
  items := items
  table := "driver_profiles"
  tableAlias := "dp"
  condition :=
    .and
      (.and (.holds (fun isOnline => isOnline == true) (m.dp "is_online" .boolean))
        (.isNotNull (m.dp "location" .geography)))
      (.holds (fun within => within)
        (m.dWithin lat lng radiusMeters))
  orderBy := ⟨.doublePrecision, inferInstance, m.knnDistance lat lng⟩
  limit := 50

section Clauses
variable (items : List (Item m.gis.Cell)) (lat lng radius : Double)

/-- A profile is in range when its driver is online at a known place within the radius. -/
theorem condition_radiusQuery (r : Row m.gis.Cell) :
    (m.radiusQuery items lat lng radius).condition.eval r = true ↔
      r "is_online" .boolean = some true ∧
      ∃ p, r "location" .geography = some p ∧
        m.gis.dWithin p (m.gis.point lng lat) radius = true := by
  simp only [radiusQuery, Condition.eval, Bool.and_eq_true]
  cases honline : r "is_online" .boolean <;> cases hlocation : r "location" .geography <;>
    simp [dWithin, dp, point, Expr.eval, honline, hlocation]

/-- The columns that matching reads. -/
def matchColumns : List (Column SqlType) :=
  [⟨"id", .text⟩, ⟨"user_id", .text⟩, ⟨"is_online", .boolean⟩, ⟨"location", .geography⟩]

/-- The further columns that the map reads. -/
def pinColumns : List (Column SqlType) :=
  [⟨"current_lat", .doublePrecision⟩, ⟨"current_lng", .doublePrecision⟩,
    ⟨"vehicle_make", .text⟩, ⟨"vehicle_model", .text⟩]

theorem columns_matching :
    ∀ ref ∈ (m.radiusQuery (m.driverItems lat lng) lat lng radius).columns,
      ref.table = "dp" ∧ ref.column ∈ matchColumns := by
  have hcols : (m.radiusQuery (m.driverItems lat lng) lat lng radius).columns =
      [⟨"dp", "id", .text⟩, ⟨"dp", "user_id", .text⟩, ⟨"dp", "location", .geography⟩,
        ⟨"dp", "is_online", .boolean⟩, ⟨"dp", "location", .geography⟩,
        ⟨"dp", "location", .geography⟩, ⟨"dp", "location", .geography⟩] := rfl
  rw [hcols]
  decide

private theorem resolve_matching {s : Schema SqlType} {t : TableDef SqlType} (ht : t ∈ s)
    (hname : t.name = "driver_profiles") (hcols : ∀ c ∈ matchColumns, c ∈ t.columns) :
    (m.radiusQuery (m.driverItems lat lng) lat lng radius).resolve s = .ok () := by
  apply (Query.resolve_eq_ok ht hname).mpr
  intro ref hr
  obtain ⟨halias, hc⟩ := m.columns_matching lat lng radius ref hr
  exact ⟨halias, hcols _ hc⟩

private theorem columns_pins_eq :
    (m.radiusQuery (m.locationItems lat lng) lat lng radius).columns =
      [⟨"dp", "id", .text⟩, ⟨"dp", "user_id", .text⟩, ⟨"dp", "current_lat", .doublePrecision⟩,
        ⟨"dp", "current_lng", .doublePrecision⟩] ++
      ⟨"dp", "vehicle_make", .text⟩ ::
      [⟨"dp", "vehicle_model", .text⟩, ⟨"dp", "location", .geography⟩,
        ⟨"dp", "is_online", .boolean⟩, ⟨"dp", "location", .geography⟩,
        ⟨"dp", "location", .geography⟩, ⟨"dp", "location", .geography⟩] := rfl

theorem columns_pins :
    ∀ ref ∈ (m.radiusQuery (m.locationItems lat lng) lat lng radius).columns,
      ref.table = "dp" ∧ ref.column ∈ matchColumns ++ pinColumns := by
  rw [columns_pins_eq]
  decide

end Clauses

variable [Mul Double] [OfNat Double 5] [OfNat Double 1000]

/-- `(radiusKm ?? RIDE_MATCH_RADIUS_KM) * 1000` -/
def radiusMeters (radiusKm : Option Double) : Double :=
  radiusKm.getD (m.rideMatchRadiusKm.getD 5) * 1000

/-- Online drivers within `radiusKm` of `(lat, lng)`, nearest first. -/
def findNearbyDrivers (s : Schema SqlType) (db : Contents m.gis.Cell) (lat lng : Double)
    (radiusKm : Option Double) : Except SqlError (List (Output m.gis.Cell)) :=
  (m.radiusQuery (m.driverItems lat lng) lat lng (m.radiusMeters radiusKm)).run s db

/-- Same radius query, with coordinates and vehicle for the pins of the map. -/
def findNearbyDriverLocations (s : Schema SqlType) (db : Contents m.gis.Cell) (lat lng : Double)
    (radiusKm : Option Double) : Except SqlError (List (Output m.gis.Cell)) :=
  (m.radiusQuery (m.locationItems lat lng) lat lng (m.radiusMeters radiusKm)).run s db

/-- The profiles in range, nearest first: what both queries answer with. -/
def profilesNear (db : Contents m.gis.Cell) (lat lng : Double) (radiusKm : Option Double) :
    List (Row m.gis.Cell) :=
  (m.radiusQuery [] lat lng (m.radiusMeters radiusKm)).answers (db "driver_profiles")

/-- The map shows the drivers that matching finds: one list of profiles, nearest first, stands
behind both answers, and the map's answer adds each one's coordinates and vehicle. -/
def MapShowsMatches (s : Schema SqlType) (db : Contents m.gis.Cell) (lat lng : Double)
    (radiusKm : Option Double) : Prop :=
  ∃ profiles : List (Row m.gis.Cell),
    profiles ⊆ db "driver_profiles" ∧
    profiles.Pairwise (m.radiusQuery [] lat lng (m.radiusMeters radiusKm)).Precedes ∧
    m.findNearbyDrivers s db lat lng radiusKm = .ok (profiles.map (m.nearbyDriver lat lng)) ∧
    m.findNearbyDriverLocations s db lat lng radiusKm =
      .ok (profiles.map (m.nearbyDriverLocation (m.applicationOf db) lat lng))

section Answers
variable {s : Schema SqlType} {t : TableDef SqlType}
variable (db : Contents m.gis.Cell) (lat lng : Double) (radiusKm : Option Double)

/-- When no two drivers in range are equally far, the database has no choice of an order. -/
theorem profilesNear_unique {sorted : List (Row m.gis.Cell)}
    (hperm : sorted.Perm
      ((m.radiusQuery [] lat lng (m.radiusMeters radiusKm)).matching (db "driver_profiles")))
    (hsorted : sorted.Pairwise (m.radiusQuery [] lat lng (m.radiusMeters radiusKm)).Precedes)
    (hdistinct : ∀ a ∈ sorted, ∀ b ∈ sorted,
      (m.knnDistance lat lng).eval a = (m.knnDistance lat lng).eval b → a = b) :
    m.profilesNear db lat lng radiusKm = sorted.take 50 := by
  apply Query.answers_unique _ hperm hsorted
  intro a ha b hb hkey
  exact hdistinct a (hperm.mem_iff.mpr ha) b (hperm.mem_iff.mpr hb) hkey

/-- With its columns in place, matching answers on every contents of the tables. -/
theorem findNearbyDrivers_eq (ht : t ∈ s) (hname : t.name = "driver_profiles")
    (hcols : ∀ c ∈ matchColumns, c ∈ t.columns) :
    m.findNearbyDrivers s db lat lng radiusKm =
      .ok ((m.profilesNear db lat lng radiusKm).map (m.nearbyDriver lat lng)) := by
  rw [findNearbyDrivers, Query.run_of_resolve (m.resolve_matching lat lng _ ht hname hcols)]
  congr 1
  apply List.map_congr_left
  intro r _
  simp [Query.output, radiusQuery, driverItems, nearbyDriver, dp, Expr.eval]

/-- With the vehicle in the profile table, the map answers with the profiles of matching. -/
theorem findNearbyDriverLocations_eq (ht : t ∈ s) (hname : t.name = "driver_profiles")
    (hcols : ∀ c ∈ matchColumns ++ pinColumns, c ∈ t.columns) :
    m.findNearbyDriverLocations s db lat lng radiusKm =
      .ok ((m.profilesNear db lat lng radiusKm).map (m.nearbyDriverLocation some lat lng)) := by
  have hres : (m.radiusQuery (m.locationItems lat lng) lat lng (m.radiusMeters radiusKm)).resolve s
      = .ok () := by
    apply (Query.resolve_eq_ok ht hname).mpr
    intro ref hr
    obtain ⟨halias, hc⟩ := m.columns_pins lat lng (m.radiusMeters radiusKm) ref hr
    exact ⟨halias, hcols _ hc⟩
  rw [findNearbyDriverLocations, Query.run_of_resolve hres]
  congr 1
  apply List.map_congr_left
  intro r _
  simp [Query.output, radiusQuery, locationItems, nearbyDriverLocation, dp, Expr.eval]

/-- Before the last migration the map shows the drivers of matching with their own vehicles. -/
theorem map_shows_matches_singleProfile :
    m.findNearbyDrivers singleProfileSchema db lat lng radiusKm =
        .ok ((m.profilesNear db lat lng radiusKm).map (m.nearbyDriver lat lng)) ∧
      m.findNearbyDriverLocations singleProfileSchema db lat lng radiusKm =
        .ok ((m.profilesNear db lat lng radiusKm).map (m.nearbyDriverLocation some lat lng)) := by
  obtain ⟨t, ht, hname, hrows⟩ := Migrations.driver_profiles_singleProfile
  have hcols : ∀ c ∈ matchColumns ++ pinColumns, c ∈ t.columns := by
    simp only [Table.mem_def, hrows]
    decide
  constructor
  · apply m.findNearbyDrivers_eq db lat lng radiusKm ht hname
    intro c hc
    exact hcols c (List.mem_append_left _ hc)
  · exact m.findNearbyDriverLocations_eq db lat lng radiusKm ht hname hcols

private theorem profiles_declared :
    ∃ t ∈ schema, t.name = "driver_profiles" ∧ (∀ c ∈ matchColumns, c ∈ t.columns) ∧
      (⟨"current_lat", .doublePrecision⟩ : Column SqlType) ∈ t.columns ∧
      (⟨"current_lng", .doublePrecision⟩ : Column SqlType) ∈ t.columns := by
  obtain ⟨t, ht, hname, hrows⟩ := Migrations.driver_profiles_schema
  refine ⟨t, ht, hname, ?_⟩
  simp only [Table.mem_def, hrows]
  decide

theorem findNearbyDrivers_ok :
    m.findNearbyDrivers schema db lat lng radiusKm =
      .ok ((m.profilesNear db lat lng radiusKm).map (m.nearbyDriver lat lng)) := by
  obtain ⟨t, ht, hname, hcols, -⟩ := profiles_declared
  exact m.findNearbyDrivers_eq db lat lng radiusKm ht hname hcols

end Answers

end MatchingService

section RideTables

/-- A profile of the ride services as a row of `driver_profiles`. -/
def PostGIS.profileRow (gis : PostGIS Coord) (d : DriverProfile) : Row gis.Cell
  | "id", .text => some d.id
  | "user_id", .text => some d.userId
  | "driver_application_id", .text => some d.driverApplicationId
  | "is_online", .boolean => some d.isOnline
  | "current_lat", .doublePrecision => d.currentLat
  | "current_lng", .doublePrecision => d.currentLng
  | "location_updated_at", .timestamp => d.locationUpdatedAt
  | "location", .geography => gis.syncDriverLocation d.currentLat d.currentLng
  | _, _ => none

namespace MatchingService
variable (m : MatchingService Coord)

/-- What the ride services are told: the profiles in range, nearest first. -/
def nearbyProfiles (t : Table DriverProfile) (lat lng : Coord) : List DriverProfile :=
  let q := m.radiusQuery [] lat lng (m.radiusMeters none)
  ((t.rows.filter fun d => q.condition.eval (m.gis.profileRow d)).mergeSort fun a b =>
    q.Precedes (m.gis.profileRow a) (m.gis.profileRow b)).take q.limit

/-- On tables that show the ride services' profiles, the query returns `nearbyProfiles`. -/
theorem findNearbyDrivers_of_table {t : Table DriverProfile} {db : Contents m.gis.Cell}
    (hdb : db "driver_profiles" = t.rows.map m.gis.profileRow) (lat lng : Coord) :
    m.findNearbyDrivers schema db lat lng none =
      .ok ((m.nearbyProfiles t lat lng).map fun d =>
        m.nearbyDriver lat lng (m.gis.profileRow d)) := by
  have hnear : m.profilesNear db lat lng none =
      (m.nearbyProfiles t lat lng).map m.gis.profileRow := by
    rw [profilesNear, hdb]
    exact Query.answers_map _ _ _
  rw [findNearbyDrivers_ok, hnear, List.map_map]
  rfl

end MatchingService

end RideTables

section Map

namespace MatchingService
variable {Double : Type} [LinearOrder Double] [Mul Double] [OfNat Double 5] [OfNat Double 1000]
variable (m : MatchingService Double)
variable (db : Contents m.gis.Cell) (lat lng : Double) (radiusKm : Option Double)

/-- The map's query still names the columns that moved to the applications. -/
theorem findNearbyDriverLocations_undefined :
    m.findNearbyDriverLocations schema db lat lng radiusKm =
      .error (.undefinedColumn "dp" "vehicle_make") := by
  obtain ⟨t, ht, hname, hcols, hlat, hlng⟩ := profiles_declared
  have hid : ⟨"id", .text⟩ ∈ t.columns := hcols _ (by decide)
  have huser : ⟨"user_id", .text⟩ ∈ t.columns := hcols _ (by decide)
  apply Query.run_of_error
  apply Query.resolve_undefined ht hname (m.columns_pins_eq lat lng (m.radiusMeters radiusKm))
  · intro ref hr
    simp only [List.mem_cons, List.not_mem_nil, or_false] at hr
    rcases hr with rfl | rfl | rfl | rfl
    · exact ⟨rfl, hid⟩
    · exact ⟨rfl, huser⟩
    · exact ⟨rfl, hlat⟩
    · exact ⟨rfl, hlng⟩
  · rfl
  · intro c hc (hmake : c.name = "vehicle_make")
    have hhas : schema.Has "driver_profiles" ⟨"vehicle_make", c.type⟩ := by
      refine ⟨t, ht, hname, ?_⟩
      rw [← hmake]
      exact hc
    have htable := ((Migrations.has_vehicle_iff (.inl rfl) _ _).mp hhas).1
    exact absurd htable (by decide)

/-- Whatever the tables hold, the map's query fails, and so it shows no driver of matching. -/
theorem map_never_shows_matches :
    m.findNearbyDriverLocations schema db lat lng radiusKm =
        .error (.undefinedColumn "dp" "vehicle_make") ∧
      ¬ m.MapShowsMatches schema db lat lng radiusKm := by
  constructor
  · exact m.findNearbyDriverLocations_undefined db lat lng radiusKm
  · rintro ⟨profiles, -, -, -, hmap⟩
    rw [findNearbyDriverLocations_undefined] at hmap
    cases hmap

end MatchingService

/-- A plane whose distance is the sum of the differences of the coordinates. -/
def PostGIS.plane : PostGIS Rat where
  Geometry := Rat × Rat
  Geography := Rat × Rat
  makePoint lng lat := (lng, lat)
  setSRID p _ := p
  toGeography p := p
  distance p q := |p.1 - q.1| + |p.2 - q.2|
  dWithin p q r := |p.1 - q.1| + |p.2 - q.2| ≤ r
  knnDistance p q := |p.1 - q.1| + |p.2 - q.2|

def MatchingService.plane : MatchingService Rat := ⟨.plane, none⟩

/-- A driver online at `(6, 3)`. -/
def onlineDriver : DriverProfile :=
  { id := "profile", userId := "driver", driverApplicationId := "application", isOnline := true,
    currentLat := some 6, currentLng := some 3 }

/-- The tables with that driver, whose application names the vehicle. -/
def oneDriver : Contents MatchingService.plane.gis.Cell
  | "driver_profiles" => [MatchingService.plane.gis.profileRow onlineDriver]
  | "driver_applications" =>
      [fun name τ => match name, τ with
        | "id", .text => some "application"
        | "vehicle_make", .text => some "Toyota"
        | "vehicle_model", .text => some "Corolla"
        | _, _ => none]
  | _ => []

/-- Matching finds the driver who stands at the rider's place, and the map fails. -/
theorem map_fails_oneDriver :
    MatchingService.plane.findNearbyDrivers schema oneDriver 6 3 none =
        .ok [[("driverId", ⟨.text, some "profile"⟩), ("userId", ⟨.text, some "driver"⟩),
          ("distanceMeters", ⟨.doublePrecision, some (0 : Rat)⟩)]] ∧
      ¬ MatchingService.plane.MapShowsMatches schema oneDriver 6 3 none := by
  constructor
  · have hrange : (MatchingService.plane.radiusQuery [] 6 3
        (MatchingService.plane.radiusMeters none)).condition.eval
          (MatchingService.plane.gis.profileRow onlineDriver) = true := by
      apply (MatchingService.plane.condition_radiusQuery _ _ _ _ _).mpr
      exact ⟨rfl, _, rfl, by decide +kernel⟩
    have hnear : MatchingService.plane.profilesNear oneDriver 6 3 none =
        [MatchingService.plane.gis.profileRow onlineDriver] := by
      simp only [MatchingService.profilesNear, Query.answers, Query.matching, oneDriver,
        List.filter_cons, hrange, List.filter_nil, if_true, List.mergeSort_singleton]
      rfl
    have hdistance : MatchingService.plane.distanceOf 6 3
        (MatchingService.plane.gis.profileRow onlineDriver) = some (0 : Rat) := by
      have hzero : |(3 : Rat) - 3| + |(6 : Rat) - 6| = 0 := by simp
      exact congrArg some hzero
    rw [MatchingService.findNearbyDrivers_ok, hnear, List.map_singleton,
      MatchingService.nearbyDriver, hdistance]
    rfl
  · rintro ⟨profiles, -, -, -, hmap⟩
    rw [MatchingService.findNearbyDriverLocations_undefined] at hmap
    cases hmap

end Map

end Reedr
