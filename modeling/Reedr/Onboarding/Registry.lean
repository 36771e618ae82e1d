import Reedr.Onboarding.Schema
import Reedr.Ride.Backend

/-!
# The shared state of the onboarding services and their statements

The registry adds users, applications, documents and stored files to the state
of the ride services, which keeps the driver profiles.

## Implementation notes

Storage maps a key to the bytes saved under it. Foreign keys are not enforced:
the callers are authenticated users, and no row is ever deleted.
-/

namespace Reedr
open Relational Interleaving

structure Registry where
  users : Table User
  driverApplications : Table DriverApplication
  driverDocuments : Table DriverDocument
  files : String → Option String
  ride : Backend

/-- The columns of a document row that an upload writes. -/
structure StoredDocument where
  storageKey : String
  originalFilename : String
  mimeType : String
  sizeBytes : Nat
  deriving DecidableEq, Repr

structure SubmitPersonalInfoDto where
  fullLegalName : String
  dateOfBirth : Date
  residentialAddress : String
  deriving DecidableEq, Repr

structure SubmitLicenseDto where
  licenseNumber : String
  licenseExpiryDate : Date
  deriving DecidableEq, Repr

structure SubmitVehicleDto where
  vehicleMake : String
  vehicleModel : String
  vehicleYear : Nat
  vehicleColor : String
  plateNumber : String
  registrationExpiryDate : Date
  deriving DecidableEq, Repr

/-- What a single statement writes to an application row. -/
inductive ApplicationWrite where
  | restart
  | personalInfo (dto : SubmitPersonalInfoDto)
  | license (dto : SubmitLicenseDto)
  | vehicle (dto : SubmitVehicleDto) (now : Millis)
  | reject (rejectionReason : Option String) (now : Millis)
  | verify (now : Millis)
  deriving DecidableEq, Repr

/-- The row after the write. An absent rejection reason leaves the column alone, and the
dates lose their time of day. -/
def ApplicationWrite.apply : ApplicationWrite → DriverApplication → DriverApplication
  | .restart, a =>
      { a with
        status := .notStarted
        rejectionReason := none
        submittedAt := none
        reviewedAt := none }
  | .personalInfo dto, a =>
      { a with
        fullLegalName := some dto.fullLegalName
        dateOfBirth := some dto.dateOfBirth.day
        residentialAddress := some dto.residentialAddress
        status := .personalInfoSubmitted }
  | .license dto, a =>
      { a with
        licenseNumber := some dto.licenseNumber
        licenseExpiryDate := some dto.licenseExpiryDate.day
        status := .licenseSubmitted }
  | .vehicle dto now, a =>
      { a with
        vehicleMake := some dto.vehicleMake
        vehicleModel := some dto.vehicleModel
        vehicleYear := some dto.vehicleYear
        vehicleColor := some dto.vehicleColor
        plateNumber := some dto.plateNumber
        registrationExpiryDate := some dto.registrationExpiryDate.day
        status := .underReview
        submittedAt := some now }
  | .reject rejectionReason now, a =>
      { a with
        status := .rejected
        rejectionReason := rejectionReason <|> a.rejectionReason
        reviewedAt := some now }
  | .verify now, a =>
      { a with
        status := .verified
        rejectionReason := none
        reviewedAt := some now }

inductive OnboardingStmt where
  | findApplicationByUser (userId : Id)
  | findApplication (id : Id)
  | findApplicationByPlate (plateNumber : String)
  | createApplication (userId uuid : Id)
  /-- The single-statement updates of `start`, the steps and a rejection. -/
  | updateApplication (id : Id) (write : ApplicationWrite)
  /-- The batch of an approval. -/
  | approveBatch (id userId uuid : Id) (now : Millis)
  | findDocument (driverApplicationId : Id) (type : DriverDocumentType)
  | findDocuments (driverApplicationId : Id)
  | upsertDocument (driverApplicationId : Id) (type : DriverDocumentType)
      (document : StoredDocument) (uuid : Id)
  | saveFile (key buffer : String)
  | deleteFile (key : String)
  | findDriverProfileByUser (userId : Id)
  | setActiveProfile (userId : Id) (profile : ActiveProfile)
  | ride (o : Stmt)

namespace OnboardingStmt

abbrev Res : OnboardingStmt → Type
  | findApplicationByUser _ => Option DriverApplication
  | findApplication _ => Option DriverApplication
  | findApplicationByPlate _ => Option DriverApplication
  | createApplication _ _ => DriverApplication
  | updateApplication _ _ => DriverApplication
  | approveBatch _ _ _ _ => DriverApplication
  | findDocument _ _ => Option DriverDocument
  | findDocuments _ => List DriverDocument
  | upsertDocument _ _ _ _ => DriverDocument
  | saveFile _ _ => Unit
  | deleteFile _ => Unit
  | findDriverProfileByUser _ => Option DriverProfile
  | setActiveProfile _ _ => User
  | ride o => o.Res

/-- Every statement of its own leaves the process. -/
def external : OnboardingStmt → Bool
  | ride o => o.external
  | _ => true

end OnboardingStmt

abbrev onboardingSignature : Signature := ⟨OnboardingStmt, OnboardingStmt.Res⟩

/-- A call of an onboarding service. -/
abbrev OnboardingCall (α : Type) := Call onboardingSignature ServiceError α

/-- Ride statements as statements of the onboarding services. -/
def rideStatements : Signature.Embedding rideSignature onboardingSignature where
  op := .ride
  res _ r := r

namespace Registry
variable (s : Registry)

def createApplication (a : DriverApplication) :
    Except Violation (DriverApplication × Registry) := do
  let driverApplications ← s.driverApplications.create a
  return (a, { s with driverApplications })

def updateApplication (id : Id) (write : ApplicationWrite) :
    Except Violation (DriverApplication × Registry) := do
  let (updated, driverApplications) ← s.driverApplications.update (fun a => a.id = id) write.apply
  return (updated, { s with driverApplications })

/-- The approved application and its new profile, or neither. -/
def approveBatch (id userId uuid : Id) (now : Millis) :
    Except Violation (DriverApplication × Registry) := do
  let (verified, driverApplications) ←
    s.driverApplications.update (fun a => a.id = id) (ApplicationWrite.verify now).apply
  let (_, tables) ← s.ride.tables.createDriverProfile
    { id := uuid, userId, driverApplicationId := id }
  return (verified, { s with driverApplications, ride := { s.ride with tables } })

/-- Insert the document of a type, or replace the file it points to. -/
def upsertDocument (driverApplicationId : Id) (type : DriverDocumentType)
    (document : StoredDocument) (uuid : Id) : Except Violation (DriverDocument × Registry) := do
  let (row, driverDocuments) ← s.driverDocuments.upsert
    (fun d => d.driverApplicationId = driverApplicationId ∧ d.type = type)
    { id := uuid
      driverApplicationId
      type
      storageKey := document.storageKey
      originalFilename := document.originalFilename
      mimeType := document.mimeType
      sizeBytes := document.sizeBytes }
    fun d =>
      { d with
        storageKey := document.storageKey
        originalFilename := document.originalFilename
        mimeType := document.mimeType
        sizeBytes := document.sizeBytes }
  return (row, { s with driverDocuments })

def setActiveProfile (userId : Id) (activeProfile : ActiveProfile) :
    Except Violation (User × Registry) := do
  let (user, users) ← s.users.update (fun u => u.id = userId) fun u => { u with activeProfile }
  return (user, { s with users })

/-- A violation is thrown and leaves the registry as it was. -/
def thrown {α : Type} : Except Violation (α × Registry) → Except ServiceError (α × Registry)
  | .ok r => .ok r
  | .error v => .error (.constraint v)

theorem thrown_ok {α : Type} {x : Except Violation (α × Registry)} {r : α × Registry}
    (h : thrown x = .ok r) : x = .ok r := by
  cases x with
  | ok r' =>
      cases h
      rfl
  | error v => cases h

/-- What each statement does to the registry and what it returns. -/
def exec (cfg : Config) : (o : OnboardingStmt) → Registry → Except ServiceError (o.Res × Registry)
  | .findApplicationByUser userId, s =>
      .ok (s.driverApplications.find? fun a => a.userId = userId, s)
  | .findApplication id, s => .ok (s.driverApplications.find? fun a => a.id = id, s)
  | .findApplicationByPlate plateNumber, s =>
      .ok (s.driverApplications.find? fun a => a.plateNumber = some plateNumber, s)
  | .createApplication userId uuid, s => thrown (s.createApplication { id := uuid, userId })
  | .updateApplication id write, s => thrown (s.updateApplication id write)
  | .approveBatch id userId uuid now, s => thrown (s.approveBatch id userId uuid now)
  | .findDocument driverApplicationId type, s =>
      .ok (s.driverDocuments.find? fun d =>
        d.driverApplicationId = driverApplicationId ∧ d.type = type, s)
  | .findDocuments driverApplicationId, s =>
      .ok (s.driverDocuments.findMany fun d => d.driverApplicationId = driverApplicationId, s)
  | .upsertDocument driverApplicationId type document uuid, s =>
      thrown (s.upsertDocument driverApplicationId type document uuid)
  | .saveFile key buffer, s =>
      .ok ((), { s with files := Function.update s.files key (some buffer) })
  | .deleteFile key, s => .ok ((), { s with files := Function.update s.files key none })
  | .findDriverProfileByUser userId, s => .ok (s.ride.tables.findDriverProfileByUser userId, s)
  | .setActiveProfile userId profile, s => thrown (s.setActiveProfile userId profile)
  | .ride o, s =>
      match Backend.exec cfg o s.ride with
      | .ok (b, ride) => .ok (b, { s with ride })
      | .error e => .error e

end Registry

end Reedr
