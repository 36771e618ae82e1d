import Reedr.Library.Serial
import Reedr.Onboarding.Registry
import Reedr.Ride.Services

/-!
# The onboarding services as calls

`DriverApplicationService`, `DriverDocumentsService.upload` and
`UsersService.setActiveProfile`, cut at their statements. Going offline is the
call of the ride services.

## Implementation notes

`uuid` arguments are the values that schema defaults and `randomUUID` draw.
Request bodies have passed the validation of their DTOs; nothing below depends
on it beyond the columns being non-null.
-/

namespace Reedr
open Interleaving

/-- Execute one statement of the onboarding services. -/
abbrev execute (o : OnboardingStmt) : OnboardingCall o.Res :=
  Call.perform (σ := onboardingSignature) o

structure UploadableFile where
  buffer : String
  mimetype : String
  originalname : String
  size : Nat

/-- A file to be uploaded with the values drawn for its key and its row. -/
structure Upload where
  type : DriverDocumentType
  file : UploadableFile
  keyUuid : Id
  rowUuid : Id

namespace DriverDocumentsService

def allowedMimeTypes : List String := ["image/jpeg", "image/png", "application/pdf"]

/-- `path.extname`: from the last dot of the last segment on, unless that dot
begins the segment or the segment is `..`. -/
def extname (path : String) : String :=
  let segment := (path.toList.reverse.dropWhile (· = '/')).takeWhile (· ≠ '/')
  let extension := segment.takeWhile (· ≠ '.')
  match segment.drop extension.length with
  | _ :: [] | [] => ""
  | _ :: _ => if segment = ['.', '.'] then "" else String.ofList ('.' :: extension.reverse)

example : extname "license.front.png" = ".png" := by decide
example : extname ".profile" = "" := by decide

def storageKey (driverApplicationId : Id) (u : Upload) : String :=
  "driver-documents/" ++ driverApplicationId ++ "/" ++ u.type.text ++ "-" ++ u.keyUuid ++
    extname u.file.originalname

def upload (driverApplicationId : Id) (u : Upload) : OnboardingCall DriverDocument := do
  Call.ensure (u.file.mimetype ∈ allowedMimeTypes)
    (.badRequest "Unsupported file type — use JPEG, PNG, or PDF")
  let existing ← execute (.findDocument driverApplicationId u.type)
  let key := storageKey driverApplicationId u
  execute (.saveFile key u.file.buffer)
  let document ← execute (.upsertDocument driverApplicationId u.type
    { storageKey := key
      originalFilename := u.file.originalname
      mimeType := u.file.mimetype
      sizeBytes := u.file.size } u.rowUuid)
  match existing with
  | some previous =>
      -- Best-effort removal of the replaced file.
      if previous.storageKey ≠ key then
        Call.recover (execute (.deleteFile previous.storageKey)) fun _ => .done ()
      return document
  | none => return document

/-- The types of which the application has a document. -/
def uploadedTypes (driverApplicationId : Id) : OnboardingCall (List DriverDocumentType) := do
  let documents ← execute (.findDocuments driverApplicationId)
  return documents.map fun d => d.type

end DriverDocumentsService

namespace DriverApplicationService

def requiredDocumentTypes : List DriverDocumentType :=
  [.driversLicense, .vehicleRegistration, .vehiclePhoto]

def optionalDocumentTypes : List DriverDocumentType := [.proofOfInsurance, .profilePhoto]

def findByUserId (userId : Id) : OnboardingCall DriverApplication := do
  Call.required (← execute (.findApplicationByUser userId))
    (.notFound "No driver application started")

def findById (id : Id) : OnboardingCall DriverApplication := do
  Call.required (← execute (.findApplication id)) (.notFound "Driver application not found")

/-- An application accepts no step once it has been sent for review. -/
def loadEditable (userId : Id) : OnboardingCall DriverApplication := do
  let application ← findByUserId userId
  Call.ensure (application.status ≠ .underReview ∧ application.status ≠ .verified)
    (.conflict "Your driver application has already been submitted")
  Call.ensure (application.status ≠ .rejected)
    (.conflict "Your application was rejected — restart it before resubmitting")
  return application

def assertPlateNumberAvailable (plateNumber ownApplicationId : Id) : OnboardingCall Unit := do
  match ← execute (.findApplicationByPlate plateNumber) with
  | some existing =>
      Call.ensure (existing.id = ownApplicationId) (.conflict "Plate number already registered")
  | none => return ()

def start (userId uuid : Id) : OnboardingCall DriverApplication := do
  match ← execute (.findApplicationByUser userId) with
  | none => execute (.createApplication userId uuid)
  | some existing =>
      Call.ensure (existing.status ≠ .underReview ∧ existing.status ≠ .verified)
        (.conflict "Your driver application has already been submitted")
      if existing.status = .rejected then
        execute (.updateApplication existing.id .restart)
      else return existing

def submitPersonalInfo (userId : Id) (dto : SubmitPersonalInfoDto) :
    OnboardingCall DriverApplication := do
  let application ← loadEditable userId
  execute (.updateApplication application.id (.personalInfo dto))

def submitLicense (userId : Id) (dto : SubmitLicenseDto) (licenseImage : UploadableFile)
    (keyUuid rowUuid : Id) : OnboardingCall DriverApplication := do
  let application ← loadEditable userId
  let _ ← DriverDocumentsService.upload application.id
    { type := .driversLicense, file := licenseImage, keyUuid, rowUuid }
  execute (.updateApplication application.id (.license dto))

/-- `files` are the entries of the record, one for each type that was sent. -/
def submitVehicle (userId : Id) (dto : SubmitVehicleDto) (files : List Upload) :
    OnboardingCall DriverApplication := do
  let application ← loadEditable userId
  assertPlateNumberAvailable dto.plateNumber application.id
  Call.forEach files fun u => (DriverDocumentsService.upload application.id u).void
  let uploaded ← DriverDocumentsService.uploadedTypes application.id
  let missing := requiredDocumentTypes.filter fun t => t ∉ uploaded
  Call.ensure (missing = [])
    (.badRequest ("Missing required document(s): " ++
      ", ".intercalate (missing.map DriverDocumentType.text)))
  let now ← execute (.ride .now)
  execute (.updateApplication application.id (.vehicle dto now))

def uploadOptionalDocument (userId : Id) (u : Upload) : OnboardingCall DriverDocument := do
  Call.ensure (u.type ∈ optionalDocumentTypes)
    (.badRequest (u.type.text ++ " is submitted as part of the application steps, not here"))
  let application ← findByUserId userId
  DriverDocumentsService.upload application.id u

/-- Approving is what brings a driver profile into existence. -/
def review (applicationId : Id) (decision : DriverApplicationStatus)
    (rejectionReason : Option String) (uuid : Id) : OnboardingCall DriverApplication := do
  let application ← findById applicationId
  Call.ensure (application.status = .underReview)
    (.conflict ("Only applications under review can be reviewed (this one is " ++
      application.status.text ++ ")"))
  let now ← execute (.ride .now)
  if decision = .rejected then
    execute (.updateApplication application.id (.reject rejectionReason now))
  else
    execute (.approveBatch application.id application.userId uuid now)

end DriverApplicationService

namespace UsersService

/-- Driver mode requires a profile; leaving it takes the driver offline. -/
def setActiveProfile (cfg : Config) (userId : Id) (profile : ActiveProfile) :
    OnboardingCall User := do
  if profile = .driver then
    let _ ← Call.required (← execute (.findDriverProfileByUser userId))
      (.forbidden "Complete driver verification before switching to driver mode")
  let user ← execute (.setActiveProfile userId profile)
  if profile = .rider then
    (DriversService.goOffline cfg userId).embed rideStatements
  return user

end UsersService

/-- Everything that can be asked of the onboarding services. -/
inductive OnboardingInvocation where
  | start (userId uuid : Id)
  | submitPersonalInfo (userId : Id) (dto : SubmitPersonalInfoDto)
  | submitLicense (userId : Id) (dto : SubmitLicenseDto) (licenseImage : UploadableFile)
      (keyUuid rowUuid : Id)
  | submitVehicle (userId : Id) (dto : SubmitVehicleDto) (files : List Upload)
  | uploadOptionalDocument (userId : Id) (u : Upload)
  | review (applicationId : Id) (decision : DriverApplicationStatus)
      (rejectionReason : Option String) (uuid : Id)
  | setActiveProfile (userId : Id) (profile : ActiveProfile)
  | elapse (duration : Millis)

/-- The call behind each invocation. -/
def OnboardingInvocation.code (cfg : Config) : OnboardingInvocation → OnboardingCall Unit
  | .start userId uuid => (DriverApplicationService.start userId uuid).void
  | .submitPersonalInfo userId dto =>
      (DriverApplicationService.submitPersonalInfo userId dto).void
  | .submitLicense userId dto licenseImage keyUuid rowUuid =>
      (DriverApplicationService.submitLicense userId dto licenseImage keyUuid rowUuid).void
  | .submitVehicle userId dto files =>
      (DriverApplicationService.submitVehicle userId dto files).void
  | .uploadOptionalDocument userId u =>
      (DriverApplicationService.uploadOptionalDocument userId u).void
  | .review applicationId decision rejectionReason uuid =>
      (DriverApplicationService.review applicationId decision rejectionReason uuid).void
  | .setActiveProfile userId profile => (UsersService.setActiveProfile cfg userId profile).void
  | .elapse duration => execute (.ride (.elapse duration))

/-- The onboarding services over a database and a storage that may be out of reach. -/
def onboardingSystem (cfg : Config) :
    System onboardingSignature ServiceError Registry OnboardingInvocation where
  code := OnboardingInvocation.code cfg
  exec := Registry.exec cfg
  external := OnboardingStmt.external
  outage := .outage

abbrev OnboardingWorld := World onboardingSignature Registry OnboardingInvocation
abbrev OnboardingPool := Pool onboardingSignature ServiceError Registry OnboardingInvocation
abbrev OnboardingMove := Move OnboardingInvocation

/-- Users who have signed up and done nothing else. -/
structure FreshUsers where
  users : Relational.Table User
  rider : ∀ u ∈ users, u.activeProfile = .rider

/-- No call yet, on a database that holds nothing but fresh users. -/
def onboardingPool (fresh : FreshUsers) : OnboardingPool :=
  Pool.init
    { users := fresh.users
      driverApplications := .empty
      driverDocuments := .empty
      files := fun _ => none
      ride := Backend.empty }

end Reedr
