import Reedr.Library.Sql

/-!
# The tables that the migrations leave behind

The statements of the six migrations that decide which columns a table has, in
the order they are applied.

## Implementation notes

Constraints, indexes, enum values, defaults and nullability do not change which
columns a table has and are left out. The second migration only creates
triggers and indexes; what its trigger stores in `location` is
`PostGIS.syncDriverLocation`.
-/

namespace Reedr
open Relational Sql

/-- The column types of the database. -/
inductive SqlType where
  | text
  | boolean
  | integer
  | doublePrecision
  | decimal
  | timestamp
  | date
  | geography
  | enum (name : String)
  deriving DecidableEq, Repr

namespace Migrations

/-- `20260912234415_init` -/
def init : List (Ddl SqlType) :=
  [.createTable "users"
    [⟨"id", .text⟩, ⟨"name", .text⟩, ⟨"phone", .text⟩, ⟨"password", .text⟩,
      ⟨"role", .enum "Role"⟩, ⟨"rating", .doublePrecision⟩, ⟨"created_at", .timestamp⟩],
   .createTable "driver_profiles"
    [⟨"id", .text⟩, ⟨"user_id", .text⟩, ⟨"vehicle_make", .text⟩, ⟨"vehicle_model", .text⟩,
      ⟨"plate_number", .text⟩, ⟨"is_online", .boolean⟩, ⟨"is_verified", .boolean⟩,
      ⟨"current_lat", .doublePrecision⟩, ⟨"current_lng", .doublePrecision⟩,
      ⟨"location_updated_at", .timestamp⟩, ⟨"location", .geography⟩],
   .createTable "ride_requests"
    [⟨"id", .text⟩, ⟨"rider_id", .text⟩, ⟨"pickup_lat", .doublePrecision⟩,
      ⟨"pickup_lng", .doublePrecision⟩, ⟨"dropoff_lat", .doublePrecision⟩,
      ⟨"dropoff_lng", .doublePrecision⟩, ⟨"pickup_location", .geography⟩,
      ⟨"suggested_fare", .decimal⟩, ⟨"status", .enum "RideRequestStatus"⟩,
      ⟨"cancel_reason", .text⟩, ⟨"cancelled_at", .timestamp⟩, ⟨"created_at", .timestamp⟩],
   .createTable "ride_offers"
    [⟨"id", .text⟩, ⟨"ride_request_id", .text⟩, ⟨"driver_id", .text⟩,
      ⟨"offered_fare", .decimal⟩, ⟨"status", .enum "OfferStatus"⟩, ⟨"created_at", .timestamp⟩,
      ⟨"expires_at", .timestamp⟩],
   .createTable "trips"
    [⟨"id", .text⟩, ⟨"ride_request_id", .text⟩, ⟨"driver_id", .text⟩, ⟨"rider_id", .text⟩,
      ⟨"agreed_fare", .decimal⟩, ⟨"status", .enum "TripStatus"⟩, ⟨"route_polyline", .text⟩,
      ⟨"started_at", .timestamp⟩, ⟨"ended_at", .timestamp⟩, ⟨"cancel_reason", .text⟩,
      ⟨"created_at", .timestamp⟩],
   .createTable "ratings"
    [⟨"id", .text⟩, ⟨"trip_id", .text⟩, ⟨"from_user_id", .text⟩, ⟨"to_user_id", .text⟩,
      ⟨"score", .integer⟩, ⟨"comment", .text⟩, ⟨"created_at", .timestamp⟩]]

/-- `20260912234500_postgis_geo_sync` -/
def postgisGeoSync : List (Ddl SqlType) := []

/-- `20260912235043_trip_status_and_refresh_tokens` -/
def tripStatusAndRefreshTokens : List (Ddl SqlType) :=
  [.createTable "refresh_tokens"
    [⟨"id", .text⟩, ⟨"user_id", .text⟩, ⟨"token_hash", .text⟩, ⟨"expires_at", .timestamp⟩,
      ⟨"revoked_at", .timestamp⟩, ⟨"created_at", .timestamp⟩]]

/-- `20260913022408_driver_onboarding` -/
def driverOnboarding : List (Ddl SqlType) :=
  [.createTable "driver_documents"
    [⟨"id", .text⟩, ⟨"driver_profile_id", .text⟩, ⟨"type", .enum "DriverDocumentType"⟩,
      ⟨"storage_key", .text⟩, ⟨"original_filename", .text⟩, ⟨"mime_type", .text⟩,
      ⟨"size_bytes", .integer⟩, ⟨"uploaded_at", .timestamp⟩]]

/-- `20260913140535_password_reset_tokens` -/
def passwordResetTokens : List (Ddl SqlType) :=
  [.createTable "password_reset_tokens"
    [⟨"id", .text⟩, ⟨"user_id", .text⟩, ⟨"code_hash", .text⟩, ⟨"expires_at", .timestamp⟩,
      ⟨"used_at", .timestamp⟩, ⟨"created_at", .timestamp⟩]]

/-- `20260914154548_dual_profile_driver_application` -/
def dualProfileDriverApplication : List (Ddl SqlType) :=
  [.alterTable "driver_documents"
    [.dropColumn "driver_profile_id", .addColumn ⟨"driver_application_id", .text⟩],
   .alterTable "driver_profiles"
    [.dropColumn "is_verified", .dropColumn "plate_number", .dropColumn "vehicle_make",
      .dropColumn "vehicle_model", .addColumn ⟨"driver_application_id", .text⟩],
   .alterTable "users" [.addColumn ⟨"active_profile", .enum "ActiveProfile"⟩],
   .createTable "driver_applications"
    [⟨"id", .text⟩, ⟨"user_id", .text⟩, ⟨"status", .enum "DriverApplicationStatus"⟩,
      ⟨"full_legal_name", .text⟩, ⟨"date_of_birth", .date⟩, ⟨"residential_address", .text⟩,
      ⟨"license_number", .text⟩, ⟨"license_expiry_date", .date⟩, ⟨"vehicle_make", .text⟩,
      ⟨"vehicle_model", .text⟩, ⟨"vehicle_year", .integer⟩, ⟨"vehicle_color", .text⟩,
      ⟨"plate_number", .text⟩, ⟨"registration_expiry_date", .date⟩,
      ⟨"rejection_reason", .text⟩, ⟨"submitted_at", .timestamp⟩, ⟨"reviewed_at", .timestamp⟩,
      ⟨"created_at", .timestamp⟩, ⟨"updated_at", .timestamp⟩]]

/-- The migrations before the driver application became a table of its own. -/
def singleProfile : List (List (Ddl SqlType)) :=
  [init, postgisGeoSync, tripStatusAndRefreshTokens, driverOnboarding, passwordResetTokens]

/-- All migrations. -/
def all : List (List (Ddl SqlType)) := singleProfile ++ [dualProfileDriverApplication]

/-- What the migrations leave behind on an empty database; nothing when one of them fails. -/
def schemaOf (migrations : List (List (Ddl SqlType))) : Schema SqlType :=
  match migrate Table.empty migrations with
  | .ok s => s
  | .error _ => Table.empty

end Migrations

/-- The tables before the last migration. -/
def singleProfileSchema : Schema SqlType := Migrations.schemaOf Migrations.singleProfile

/-- The tables the services run against. -/
def schema : Schema SqlType := Migrations.schemaOf Migrations.all

namespace Migrations

/-- The profile table up to the last migration still carries the vehicle. -/
theorem driver_profiles_singleProfile :
    ∃ t ∈ singleProfileSchema, t.name = "driver_profiles" ∧ t.columns.rows =
      [⟨"id", .text⟩, ⟨"user_id", .text⟩, ⟨"vehicle_make", .text⟩, ⟨"vehicle_model", .text⟩,
        ⟨"plate_number", .text⟩, ⟨"is_online", .boolean⟩, ⟨"is_verified", .boolean⟩,
        ⟨"current_lat", .doublePrecision⟩, ⟨"current_lng", .doublePrecision⟩,
        ⟨"location_updated_at", .timestamp⟩, ⟨"location", .geography⟩] := by
  decide +kernel

theorem driver_profiles_schema :
    ∃ t ∈ schema, t.name = "driver_profiles" ∧ t.columns.rows =
      [⟨"id", .text⟩, ⟨"user_id", .text⟩, ⟨"is_online", .boolean⟩,
        ⟨"current_lat", .doublePrecision⟩, ⟨"current_lng", .doublePrecision⟩,
        ⟨"location_updated_at", .timestamp⟩, ⟨"location", .geography⟩,
        ⟨"driver_application_id", .text⟩] := by
  decide +kernel

private theorem vehicle_declared :
    (∃ t ∈ schema, t.name = "driver_applications" ∧
      (⟨"vehicle_make", .text⟩ : Column SqlType) ∈ t.columns ∧
      (⟨"vehicle_model", .text⟩ : Column SqlType) ∈ t.columns) ∧
    ∀ t ∈ schema, ∀ c ∈ t.columns, c.name = "vehicle_make" ∨ c.name = "vehicle_model" →
      t.name = "driver_applications" ∧ c.type = .text := by
  decide +kernel

/-- The last migration moves the vehicle: only an application has a make and a model. -/
theorem has_vehicle_iff {name : String} (hname : name = "vehicle_make" ∨ name = "vehicle_model")
    (table : String) (τ : SqlType) :
    schema.Has table ⟨name, τ⟩ ↔ table = "driver_applications" ∧ τ = .text := by
  obtain ⟨⟨t, ht, htable, hmake, hmodel⟩, honly⟩ := vehicle_declared
  constructor
  · rintro ⟨x, hx, rfl, hc⟩
    exact honly x hx ⟨name, τ⟩ hc hname
  · rintro ⟨rfl, rfl⟩
    rcases hname with rfl | rfl
    · exact ⟨t, ht, htable, hmake⟩
    · exact ⟨t, ht, htable, hmodel⟩

end Migrations

end Reedr
