import Pledge.Isolation
import Pledge.Confirmed
import Pledge.RetriedWrites
import Pledge.Charges
import Pledge.HowMuchRaised
import Pledge.SearchLoads
import Pledge.AuthForms
import Pledge.Documents
import Pledge.OrganisationDocument
import Pledge.Validator
import Pledge.Answering
import Pledge.DonateConfirmation
import Pledge.BucketScreen
import Pledge.OneTimeCheckout
import Pledge.Retry
import Pledge.NetworkManager
import Pledge.PaymentManager
import Pledge.BucketRows
import Pledge.Fetching
import Pledge.Loading
import Pledge.DonateFlow
import Pledge.Settlement
import Pledge.Receipt
import Pledge.FanOut
import Pledge.BucketTable
import Pledge.BucketDrags
import Pledge.Authentication
import Pledge.SharedPledges
import Pledge.RecordMirror
import Pledge.SavedBucket
import Pledge.Subscription
import Pledge.Reopening
import Pledge.PledgeFetch
import Pledge.FilterNames
import Pledge.Search
import Pledge.DonateTipsPopup
import Pledge.BucketCell
import Pledge.AmountPickers
import Pledge.OrganisationDetails
import Pledge.UIColor
import Pledge.RowOrigins
import Pledge.PledgeWrites
import Pledge.PledgeLedger
import Pledge.StoredBucket
import Pledge.UniquePledges
import Pledge.ActivityViews
import Pledge.FreshSessions
