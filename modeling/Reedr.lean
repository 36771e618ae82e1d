import Reedr.Library.Serial
import Reedr.Ride.Issued
import Reedr.Library.Thread
import Reedr.Ride.AcceptedOffer
import Reedr.Ride.Agreement
import Reedr.Ride.Consistency
import Reedr.Ride.Finality
import Reedr.Ride.SingleAcceptance
import Reedr.Onboarding.Completeness
import Reedr.Onboarding.Verification
import Reedr.Ride.DisconnectGrace
import Reedr.Ride.ExpiryTiming
import Reedr.Ride.LocationRelay
import Reedr.Ride.OfferDeadline
import Reedr.App.DriverMode
import Reedr.App.DriverPool
import Reedr.Auth.Acceptance
import Reedr.Auth.Memory
import Reedr.Auth.Reset
import Reedr.Auth.Rotation
import Reedr.Onboarding.Submission
import Reedr.Ratings.Average
import Reedr.Ratings.Participants
import Reedr.Ride.Authority
import Reedr.Ride.DriverTrips
import Reedr.App.OnlinePins
import Reedr.App.Throttling
import Reedr.Auth.ResetCodes
import Reedr.Library.PosixPath
import Reedr.Library.Sql
import Reedr.Matching.Migrations
import Reedr.Matching.NearbyDrivers
import Reedr.Onboarding.LocalDiskStorage
import Reedr.Onboarding.Record
import Reedr.Onboarding.StoredDocuments
import Reedr.Ride.Announcements
import Reedr.Ride.CancelNotice
import Reedr.Ride.IdentityCache
import Reedr.Library.Retry
import Reedr.Realtime.LimiterHistory
import Reedr.Ride.ExpiryRetries
import Reedr.Library.Bargain
import Reedr.Ride.Turns
import Reedr.Ride.Refinement
import Reedr.Ride.Visibility
import Reedr.Ride.Confidentiality
import Reedr.Ride.Timeline
import Reedr.Onboarding.Progress
import Reedr.Ride.Progress
import Reedr.Auth.Privileges
import Reedr.Auth.Recovery
import Reedr.Ride.OfferDrain
import Reedr.Matching.Broadcast
import Reedr.Onboarding.DocumentStore
import Reedr.Onboarding.Guidance
import Reedr.Library.Simulation
import Reedr.App.Connections
import Reedr.Ride.Responses
