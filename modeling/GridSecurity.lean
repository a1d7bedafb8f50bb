import GridSecurity.Config.Reader
import GridSecurity.Peer.Info
import GridSecurity.Scope.Task
import GridSecurity.Service
import GridSecurity.TrustStore.Upkeep
import GridSecurity.Proofs.Der.Framing
import GridSecurity.Proofs.Der.Faithful
import GridSecurity.Proofs.Der.Values
import GridSecurity.Proofs.Der.Fields
import GridSecurity.Proofs.Der.Names
import GridSecurity.Proofs.AttributeCertificate.Faithful
import GridSecurity.Proofs.AttributeCertificate.Signed
import GridSecurity.Proofs.Chain.Order
import GridSecurity.Proofs.Text.Utf8
import GridSecurity.Proofs.Validation.Trust
import GridSecurity.Proofs.Identity
import GridSecurity.Proofs.Authorization
import GridSecurity.Proofs.Chain.Extension
import GridSecurity.Proofs.Identity.Extension
import GridSecurity.Proofs.Context
import GridSecurity.Proofs.Service.Consent
import GridSecurity.Proofs.Validation.Modes
import GridSecurity.Proofs.Identity.Location
import GridSecurity.Proofs.Validation.Delegation
import GridSecurity.Proofs.Chain.InOrder
import GridSecurity.Proofs.Identity.Prefix
import GridSecurity.Proofs.Identity.Choice
import GridSecurity.Proofs.TrustStore.Upkeep
import GridSecurity.Proofs.Interception.Accounts
import GridSecurity.Proofs.Scope.Requests
import GridSecurity.Proofs.Interception.Uses
import GridSecurity.Proofs.Chain.Arrangement
import GridSecurity.Proofs.Chain.Completeness
import GridSecurity.Proofs.Chain.Circle
import GridSecurity.Proofs.Chain.Presentation
import GridSecurity.Proofs.Der.Tolerant
import GridSecurity.Proofs.Name.Agreement
import GridSecurity.Proofs.AttributeCertificate.Located
import GridSecurity.Proofs.Validation.Reasons
import GridSecurity.Proofs.AttributeCertificate.Names
import GridSecurity.Proofs.Scope.Visits
import GridSecurity.Proofs.Scope.Nesting
import GridSecurity.Proofs.Scope.Isolation
import GridSecurity.Proofs.Identity.LegacyProxies
import GridSecurity.Proofs.Identity.Strategies
import GridSecurity.Proofs.Validation.Diagnostics
import GridSecurity.Proofs.Text.Occurrence
import GridSecurity.Proofs.Text.Replacement
import GridSecurity.Proofs.Membership.AllOrNothing
import GridSecurity.Proofs.Octets
import GridSecurity.Proofs.Validation.Records
import GridSecurity.Proofs.Validation.Serials
import GridSecurity.Proofs.Validation.OverTime
import GridSecurity.Proofs.Name.Types
import GridSecurity.Proofs.Name.Encoded
import GridSecurity.Proofs.Name.Readable
import GridSecurity.Proofs.Fqan.Qualified
import GridSecurity.Proofs.Name.Slashed
import GridSecurity.Proofs.Fqan.Group
import GridSecurity.Proofs.FileTree
import GridSecurity.Proofs.TrustStore.Contents
import GridSecurity.Proofs.TrustStore.Loading
import GridSecurity.Proofs.TrustStore.Mishaps
import GridSecurity.Proofs.Metrics
import GridSecurity.Proofs.Chain.Stages
import GridSecurity.Proofs.Chain.Refusal
import GridSecurity.Proofs.Calendar
import GridSecurity.Proofs.Der.Times
import GridSecurity.Proofs.Validation.Window
