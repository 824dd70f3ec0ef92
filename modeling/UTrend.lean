import UTrend.Lib.Machine
import UTrend.Lib.DocStore
import UTrend.Lib.Net
import UTrend.Lib.Decimal
import UTrend.Lib.Regex
import UTrend.Lib.Board
import UTrend.Lib.Turns
import UTrend.Model.Firestore
import UTrend.Model.Loader
import UTrend.Model.SocialMore
import UTrend.Model.Phone
import UTrend.Model.World
import UTrend.Model.ListView
import UTrend.Model.Session
import UTrend.Model.Signup
import UTrend.Model.AddImage
import UTrend.Model.PostFeed
import UTrend.Model.ProfileTabs
import UTrend.Model.Cells
import UTrend.Model.OutfitGenerator
import UTrend.Proofs.Steps
import UTrend.Proofs.Provenance
import UTrend.Proofs.Submission
import UTrend.Proofs.Deletion
import UTrend.Proofs.Feeds
import UTrend.Proofs.Likes
import UTrend.Proofs.Copies
import UTrend.Proofs.Profiles
import UTrend.Proofs.Images
import UTrend.Proofs.Heart
import UTrend.Proofs.Taps
import UTrend.Proofs.ReadBack
import UTrend.Proofs.Lists
import UTrend.Proofs.PostFeed
import UTrend.Proofs.ProfileTabs
import UTrend.Proofs.Closet
import UTrend.Proofs.Session
import UTrend.Proofs.Signup
import UTrend.Proofs.Integrity
import UTrend.Proofs.Documents
import UTrend.Proofs.Cells
import UTrend.Proofs.Screens
import UTrend.Proofs.Counts
import UTrend.Proofs.Settling
import UTrend.Proofs.Progress
import UTrend.Proofs.Authorship
import UTrend.Proofs.OutfitGenerator
import UTrend.Proofs.Header
import UTrend.Proofs.Convergence
import UTrend.Proofs.Credentials
import UTrend.Proofs.Mirror
import UTrend.Proofs.Refinement
import UTrend.Proofs.Turns
import UTrend.Proofs.Scripts
import UTrend.Proofs.Tasks
