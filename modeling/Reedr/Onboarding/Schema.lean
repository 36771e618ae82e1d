import Reedr.Schema

/-!
# Users, driver applications and their documents

The rows of the driver onboarding. A driver's profile itself is a row of the
ride tables, where the negotiation reads it.
-/

namespace Reedr
open Relational

inductive DriverApplicationStatus where
  | notStarted
  | personalInfoSubmitted
  | licenseSubmitted
  | vehicleSubmitted
  | underReview
  | verified
  | rejected
  deriving DecidableEq, Repr

inductive DriverDocumentType where
  | driversLicense
  | vehicleRegistration
  | vehiclePhoto
  | proofOfInsurance
  | profilePhoto
  deriving DecidableEq, Repr

/-- The status as the API writes it. -/
def DriverApplicationStatus.text : DriverApplicationStatus → String
  | .notStarted => "NOT_STARTED"
  | .personalInfoSubmitted => "PERSONAL_INFO_SUBMITTED"
  | .licenseSubmitted => "LICENSE_SUBMITTED"
  | .vehicleSubmitted => "VEHICLE_SUBMITTED"
  | .underReview => "UNDER_REVIEW"
  | .verified => "VERIFIED"
  | .rejected => "REJECTED"

/-- The type as the API and the storage keys write it. -/
def DriverDocumentType.text : DriverDocumentType → String
  | .driversLicense => "DRIVERS_LICENSE"
  | .vehicleRegistration => "VEHICLE_REGISTRATION"
  | .vehiclePhoto => "VEHICLE_PHOTO"
  | .proofOfInsurance => "PROOF_OF_INSURANCE"
  | .profilePhoto => "PROFILE_PHOTO"

/-- The account class and the credentials are not read by these services. -/
structure User where
  id : Id
  activeProfile : ActiveProfile := .rider
  deriving DecidableEq, Repr

/-- A date as requests carry it: milliseconds since the epoch, negative before it. -/
abbrev Date := Int

/-- What a `@db.Date` column keeps of a date: the midnight of its day. -/
def Date.day (d : Date) : Date := d - d % 86400000

/-- Built up over three steps, so every step field is nullable. -/
structure DriverApplication where
  id : Id
  userId : Id
  status : DriverApplicationStatus := .notStarted
  fullLegalName : Option String := none
  dateOfBirth : Option Date := none
  residentialAddress : Option String := none
  licenseNumber : Option String := none
  licenseExpiryDate : Option Date := none
  vehicleMake : Option String := none
  vehicleModel : Option String := none
  vehicleYear : Option Nat := none
  vehicleColor : Option String := none
  plateNumber : Option String := none
  registrationExpiryDate : Option Date := none
  rejectionReason : Option String := none
  submittedAt : Option Millis := none
  reviewedAt : Option Millis := none
  deriving DecidableEq, Repr

structure DriverDocument where
  id : Id
  driverApplicationId : Id
  type : DriverDocumentType
  storageKey : String
  originalFilename : String
  mimeType : String
  sizeBytes : Nat
  deriving DecidableEq, Repr

instance : Keyed User where
  Key := Id
  decEq := inferInstance
  keys u := [u.id]

inductive DriverApplicationKey where
  | id (id : Id)
  | userId (id : Id)
  | plateNumber (plate : String)
  deriving DecidableEq

/-- Any number of applications may leave the plate number empty. -/
instance : Keyed DriverApplication where
  Key := DriverApplicationKey
  decEq := inferInstance
  keys a := .id a.id :: .userId a.userId ::
    (a.plateNumber.map DriverApplicationKey.plateNumber).toList

inductive DriverDocumentKey where
  | id (id : Id)
  | driverApplicationIdType (id : Id) (type : DriverDocumentType)
  deriving DecidableEq

instance : Keyed DriverDocument where
  Key := DriverDocumentKey
  decEq := inferInstance
  keys d := [.id d.id, .driverApplicationIdType d.driverApplicationId d.type]

/-- Two applications clash in their id, their user or their plate number. -/
theorem DriverApplication.clash_iff {a b : DriverApplication} :
    Clash a b ↔ a.id = b.id ∨ a.userId = b.userId ∨
      ∃ plate, a.plateNumber = some plate ∧ b.plateNumber = some plate := by
  show (∃ k : DriverApplicationKey,
    k ∈ DriverApplicationKey.id a.id :: .userId a.userId ::
      (a.plateNumber.map DriverApplicationKey.plateNumber).toList ∧
    k ∈ DriverApplicationKey.id b.id :: .userId b.userId ::
      (b.plateNumber.map DriverApplicationKey.plateNumber).toList) ↔ _
  simp [or_and_right, exists_or, eq_comm]

theorem DriverDocument.clash_iff {d e : DriverDocument} :
    Clash d e ↔ d.id = e.id ∨
      d.driverApplicationId = e.driverApplicationId ∧ d.type = e.type := by
  show (∃ k : DriverDocumentKey,
    k ∈ [.id d.id, .driverApplicationIdType d.driverApplicationId d.type] ∧
    k ∈ [.id e.id, .driverApplicationIdType e.driverApplicationId e.type]) ↔ _
  simp

theorem DriverApplication.eq_of_id {t : Table DriverApplication} {a b : DriverApplication}
    (ha : a ∈ t) (hb : b ∈ t) (h : a.id = b.id) : a = b :=
  Table.eq_of_key (DriverApplicationKey.id a.id) ha hb (by simp [Keyed.keys])
    (by simp [Keyed.keys, h])

theorem DriverProfile.eq_of_driverApplicationId {t : Table DriverProfile} {p q : DriverProfile}
    (hp : p ∈ t) (hq : q ∈ t) (h : p.driverApplicationId = q.driverApplicationId) : p = q :=
  Table.eq_of_key (DriverProfileKey.driverApplicationId p.driverApplicationId) hp hq
    (by simp [Keyed.keys]) (by simp [Keyed.keys, h])

end Reedr
