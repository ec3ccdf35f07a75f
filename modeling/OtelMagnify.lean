import OtelMagnify.Approval.SinglePush
import OtelMagnify.Rollback.KnownGood
import OtelMagnify.Audit.Backoff
import OtelMagnify.Audit.TokenLifecycle
import OtelMagnify.Server.LostUpdate
import OtelMagnify.Server.Noninterference
import OtelMagnify.Server.RegistryMaps
import OtelMagnify.Canary.FailedTarget
import OtelMagnify.Canary.Terminal
import OtelMagnify.Server.Retention
import OtelMagnify.Server.Stop
import OtelMagnify.Rollback.Agreement
import OtelMagnify.Approval.Preview
import OtelMagnify.Alerts.Uniqueness
import OtelMagnify.Rollback.Status
import OtelMagnify.Diff.Accepted
import OtelMagnify.Diff.Encoding
import OtelMagnify.Diff.Duality
import OtelMagnify.Login.Throttle
import OtelMagnify.Users.Bootstrap
import OtelMagnify.Users.GroupSync
import OtelMagnify.Reports.Evidence
import OtelMagnify.Reports.FormatInt
import OtelMagnify.Rollback.Causes
import OtelMagnify.Rollback.ErrorFlow
import OtelMagnify.Policy.Exactness
import OtelMagnify.Validator.Soundness
import OtelMagnify.Rollback.PathRoundTrip
import OtelMagnify.Rollback.HashCoherence
import OtelMagnify.Push.RowError
import OtelMagnify.Server.Identity
import OtelMagnify.Version.Precedence
import OtelMagnify.Canary.Selection
import OtelMagnify.Gitops.SourceMarker
