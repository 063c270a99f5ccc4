import CaManager.Accounts.ApiKeys
import CaManager.Accounts.Lockout
import CaManager.Accounts.SessionLifetime
import CaManager.Accounts.TwoFactorEnrolment
import CaManager.Accounts.WebAuthnCeremonies
import CaManager.Acme.Authentication
import CaManager.Acme.Authority
import CaManager.Acme.ChallengeCoverage
import CaManager.Acme.Contents
import CaManager.Acme.DnsValidation
import CaManager.Acme.Download
import CaManager.Acme.Nonces
import CaManager.Acme.ProxyAttribution
import CaManager.Acme.ProxyChallenges
import CaManager.Acme.Renewal
import CaManager.Acme.Superseded
import CaManager.Audit.Syslog
import CaManager.Audit.Tampering
import CaManager.Backup.References
import CaManager.Backup.Restored
import CaManager.Backup.Routes
import CaManager.Deletions.Requests
import CaManager.Deletions.Runs
import CaManager.Discovery.Reach
import CaManager.Discovery.Scans
import CaManager.Discovery.Scheduling
import CaManager.Hsm.Synchronization
import CaManager.Keys.Coverage
import CaManager.Keys.Disclosure
import CaManager.Keys.DownloadOnly
import CaManager.Keys.KeyLaws
import CaManager.Keys.StoredSecrets
import CaManager.Keys.SwitchSafety
import CaManager.Keys.Transparency
import CaManager.Migrations.Runs
import CaManager.Msca.Requests
import CaManager.Mtls.Identity
import CaManager.Mtls.PrivateKeys
import CaManager.Notifications.Suppression
import CaManager.Ocsp.Responder
import CaManager.Policies.Approvals
import CaManager.Rbac.Effective
import CaManager.Reports.Schedules
import CaManager.Scep.Padding
import CaManager.Security.BucketKeys
import CaManager.Security.Csrf
import CaManager.Security.RetryAfter
import CaManager.Settings.AutoRenewal
import CaManager.Settings.General
import CaManager.Settings.Webhooks
import CaManager.SmartImport.ChainBuilder
import CaManager.SmartImport.Deduplication
import CaManager.SmartImport.KeyMatcher
import CaManager.SmartImport.PemBundles
import CaManager.Sso.RoleMapping
import CaManager.Store.BulkAgreement
import CaManager.Store.CertificateFiles
import CaManager.Store.ChainStatus
import CaManager.Store.ConsistentRuns
import CaManager.Store.CrlPermanence
import CaManager.Store.CrlScheduler
import CaManager.Store.CsrScope
import CaManager.Store.DeltaCompleteness
import CaManager.Store.Duplicates
import CaManager.Store.Listings
import CaManager.Store.Reasons
import CaManager.Store.SanColumns
import CaManager.Store.SanNames
import CaManager.Store.SigningRuns
import CaManager.Store.StatusClasses
import CaManager.Store.SubjectFields
import CaManager.Templates.Rendering
import CaManager.Tools.ConversionAgreement
import CaManager.Tools.Hostnames
import CaManager.TrustStore.Profiles
import CaManager.Updates.Releases
import CaManager.ValidityNesting
