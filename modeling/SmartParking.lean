import SmartParking.Agreement.Theorems
import SmartParking.Release.Theorems
import SmartParking.Admission.Theorems
import SmartParking.Eligibility.Theorems
import SmartParking.Handout.Theorems
import SmartParking.Leak.Theorems
import SmartParking.Redelivery.Theorems
import SmartParking.Retry.Theorems
import SmartParking.Exclusivity.Theorems
import SmartParking.Suggestion.Theorems
import SmartParking.Resilience.FailFast.Theorems
import SmartParking.Resilience.Probe.Theorems
import SmartParking.Resilience.Sequential.Theorems
import SmartParking.Messaging.Attentive.Theorems
import SmartParking.Messaging.Subscription.Theorems
import SmartParking.Realtime.Isolation.Theorems
import SmartParking.Realtime.Consumers.Theorems
import SmartParking.Auth.Enrolment.Theorems
import SmartParking.Auth.Replay.Theorems
import SmartParking.Auth.Gate.Theorems
import SmartParking.Auth.Base32.Theorems
import SmartParking.Auth.Spelling.Theorems
import SmartParking.Payments.Ledger.Theorems
import SmartParking.Payments.Charging.Theorems
import SmartParking.ClosedPeriod.Theorems
import SmartParking.Revenue.Theorems
import SmartParking.Settlement.Theorems
import SmartParking.Barrier.Theorems
import SmartParking.Nearest.Theorems
import SmartParking.Wear.Theorems
import SmartParking.Clearance.Theorems
import SmartParking.Reentry.Theorems
import SmartParking.EntryWindow.Theorems
import SmartParking.Blocking.Theorems
import SmartParking.Expiry.Theorems
import SmartParking.Queue.Codec.Theorems
import SmartParking.Queue.Refinement
import SmartParking.Queue.Settling.Theorems
import SmartParking.Frontend.Delivery.Theorems
import SmartParking.Audit.Progress.Theorems
import SmartParking.Chronology.Theorems
import SmartParking.Occupancy.Theorems
import SmartParking.Rpc.Theorems
import SmartParking.Gateway.Privileges.Theorems
import SmartParking.Auth.SecretCipher.Theorems
import SmartParking.Notifications.Mailing.Theorems
import SmartParking.Confirmation.Theorems
import SmartParking.Trail.Theorems
import SmartParking.Live.Theorems
import SmartParking.Reply.Theorems
