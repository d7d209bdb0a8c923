import LandCap.Library.Runs
import LandCap.Library.PathTree
import LandCap.Library.Calendar
import LandCap.Library.Url
import LandCap.Library.Pieces
import LandCap.Library.Spans
import LandCap.Database
import LandCap.CapDatabase.ImageName
import LandCap.CapDatabase.Basic
import LandCap.CapDatabase.Quota
import LandCap.CapDatabase.Range
import LandCap.CapDatabase.Isolation
import LandCap.CapDatabase.Provisioning
import LandCap.CapDatabase.Uploads
import LandCap.CapDatabase.Objects
import LandCap.CapDatabase.Album
import LandCap.Login.Basic
import LandCap.Login.Session
import LandCap.Login.Provisioned
import LandCap.Login.Schedules
import LandCap.Login.Account
import LandCap.Login.Failure
import LandCap.Login.Navigation
import LandCap.Login.Guest
import LandCap.Profile.Grid
import LandCap.Profile.Photo
import LandCap.Profile.Cells
import LandCap.Profile.Thumbnail
import LandCap.Profile.Detail
import LandCap.Wiki.Basic
import LandCap.Wiki.Query
import LandCap.Wiki.Sentences
import LandCap.Wiki.Cuts
import LandCap.Wiki.Answer
import LandCap.Info.Basic
import LandCap.Info.GuestSession
import LandCap.Info.Detected
import LandCap.Info.Selection
import LandCap.Info.Outcome
import LandCap.Library.StaleCounter
import LandCap.CapDatabase.Overspend
import LandCap.CapDatabase.Delivered
import LandCap.Profile.Gallery
import LandCap.Info.Quotation
import LandCap.Library.Presentation
import LandCap.Screens.Basic
import LandCap.Screens.Window
import LandCap.Screens.Steps
import LandCap.Screens.Linked
import LandCap.Screens.Leaving
import LandCap.Screens.Session
import LandCap.Screens.Profiles
import LandCap.Screens.Answers
import LandCap.Screens.Camera
