import Vadum.Theory.QueueRequests
import Vadum.Theory.Locked
import Vadum.Theory.Resubmission
import Vadum.Theory.Concurrent
import Vadum.Theory.Nested
import Vadum.Theory.Base45
import Vadum.Core.Validate
import Vadum.Theory.Reference
import Vadum.Theory.SignStep
import Vadum.Theory.Binding
import Vadum.Theory.MintBlock
import Vadum.Theory.OwnOutcome
import Vadum.Theory.Finality
import Vadum.Theory.Reconciling
import Vadum.Theory.Closed
import Vadum.Theory.Marks
import Vadum.Theory.Settlement
import Vadum.Theory.Reopening
import Vadum.Theory.Fees
import Vadum.Theory.Withdrawn
import Vadum.Theory.Accepting
import Vadum.Theory.Allowance
import Vadum.Theory.Verdict
import Vadum.Theory.Uncapped
import Vadum.Theory.Capacity
import Vadum.Theory.Recovering
import Vadum.Theory.Returning
import Vadum.Theory.Undoing
import Vadum.Theory.BackDating
import Vadum.Theory.Amounts
import Vadum.Theory.Explanation
import Vadum.Theory.Projecting
import Vadum.Theory.Ranges
import Vadum.Client.Transport
import Vadum.Async.Counting
import Vadum.Theory.Transport
import Vadum.Theory.Truth
import Vadum.Theory.Consent
import Vadum.Theory.TillRuns
import Vadum.Apps.Till
import Vadum.Async.Upholds
import Vadum.Theory.EndToEnd
import Vadum.Theory.ReturnTrip
import Vadum.Theory.Stolen
