import NolagCore.Access.Model
import NolagCore.AccessScope.BindingAlone
import NolagCore.AccessScope.BindingInterleaving
import NolagCore.AccessScope.BindingSafety
import NolagCore.AccessScope.Facade
import NolagCore.ActorToken.Cluster
import NolagCore.ActorToken.Facade
import NolagCore.ActorToken.History
import NolagCore.ActorToken.Service
import NolagCore.Authz.AccessQuery
import NolagCore.Authz.Addresses
import NolagCore.Authz.Admission
import NolagCore.Authz.Agreement
import NolagCore.Authz.ClientTokens
import NolagCore.Authz.Drift
import NolagCore.Authz.Dto
import NolagCore.Authz.Expiry
import NolagCore.Authz.Gates
import NolagCore.Authz.Isolation
import NolagCore.Authz.Justified
import NolagCore.Authz.Lapsed
import NolagCore.Authz.LobbyVisibility
import NolagCore.Authz.MintedCredentials
import NolagCore.Authz.ParseBack
import NolagCore.Authz.PatternMeaning
import NolagCore.Authz.Resolution
import NolagCore.Authz.ResolutionSpec
import NolagCore.Authz.Resolved
import NolagCore.Authz.Restored
import NolagCore.Authz.ScanFree
import NolagCore.Authz.ScanNeeds
import NolagCore.Authz.Service
import NolagCore.Authz.Shadowed
import NolagCore.Authz.SubscriptionInterleaving
import NolagCore.Authz.SubscriptionMap
import NolagCore.Authz.SubscriptionSerial
import NolagCore.Authz.Subscriptions
import NolagCore.Authz.Tenancy
import NolagCore.Authz.TokenRefusal
import NolagCore.Authz.Withdrawal
import NolagCore.Common.Credential
import NolagCore.Common.Errors
import NolagCore.Common.GeneratedSlug
import NolagCore.Common.ListQueries
import NolagCore.Common.Pages
import NolagCore.Common.Pagination
import NolagCore.Common.SecretCipher
import NolagCore.Common.SecretEnvelope
import NolagCore.Common.SecretHash
import NolagCore.Common.Slug
import NolagCore.Common.SlugPattern
import NolagCore.Common.SortOrder
import NolagCore.Common.StoredHash
import NolagCore.Common.TtlCache
import NolagCore.Common.TtlRefinement
import NolagCore.Common.Validators
import NolagCore.Common.Writes
import NolagCore.Facade.Addressed
import NolagCore.Facade.Backup
import NolagCore.Facade.Effect
import NolagCore.Facade.Frame
import NolagCore.Facade.History
import NolagCore.Facade.Linked
import NolagCore.Facade.Neighbours
import NolagCore.Facade.Operation
import NolagCore.Facade.Origin
import NolagCore.Facade.Purge
import NolagCore.Facade.RowUpdates
import NolagCore.Facade.Sessions
import NolagCore.Facade.Validation
import NolagCore.Lib.Base64
import NolagCore.Lib.Binary64
import NolagCore.Lib.Calls
import NolagCore.Lib.Capped
import NolagCore.Lib.Checked
import NolagCore.Lib.EventLog
import NolagCore.Lib.ExpiringMap
import NolagCore.Lib.Indexed
import NolagCore.Lib.IsoDate
import NolagCore.Lib.JoinTable
import NolagCore.Lib.Lexicographic
import NolagCore.Lib.Numeral
import NolagCore.Lib.OrderedMap
import NolagCore.Lib.Pattern
import NolagCore.Lib.ReadCommitted
import NolagCore.Lib.ReadThrough
import NolagCore.Lib.Rounding
import NolagCore.Lib.ShareUpdate
import NolagCore.Lib.SoftTable
import NolagCore.Lib.Sorting
import NolagCore.Lib.Text
import NolagCore.Lib.Transition
import NolagCore.Lib.Utf8
import NolagCore.Lobby.Capacity
import NolagCore.Lobby.Cluster
import NolagCore.Lobby.Coherence
import NolagCore.Lobby.Facade
import NolagCore.Lobby.MemberCap
import NolagCore.Lobby.MemberInterleaving
import NolagCore.Lobby.Presence
import NolagCore.Model.Constraints
import NolagCore.Model.Database
import NolagCore.Model.Entities
import NolagCore.Model.Fragment
import NolagCore.Model.Reorder
import NolagCore.Model.Types
import NolagCore.Model.Uuid
import NolagCore.PlatformApp.Facade
import NolagCore.Project.Facade
import NolagCore.Project.Limits
import NolagCore.ProjectConfig.Acceptance
import NolagCore.ProjectConfig.CarriedGrants
import NolagCore.ProjectConfig.Created
import NolagCore.ProjectConfig.Document
import NolagCore.ProjectConfig.Export
import NolagCore.ProjectConfig.ExportSpec
import NolagCore.ProjectConfig.Facade
import NolagCore.ProjectConfig.FreshDraws
import NolagCore.ProjectConfig.Import
import NolagCore.ProjectConfig.ImportExport
import NolagCore.ProjectConfig.ImportSpec
import NolagCore.ProjectConfig.Normalise
import NolagCore.ProjectConfig.Privacy
import NolagCore.ProjectConfig.References
import NolagCore.ProjectConfig.Restorable
import NolagCore.ProjectConfig.RoundTrip
import NolagCore.ProjectConfig.Secrecy
import NolagCore.ProjectConfig.Terms
import NolagCore.ProjectConfig.WellFormed
import NolagCore.Room.EnsureCap
import NolagCore.Room.EnsureInterleaving
import NolagCore.Room.EnsureOnce
import NolagCore.Room.Facade
import NolagCore.Room.GrantFacade
import NolagCore.Room.GrantInterleaving
import NolagCore.Room.GrantSerial
import NolagCore.Room.GrantTargets
import NolagCore.SigningKey.Cluster
import NolagCore.SigningKey.Facade
import NolagCore.SigningKey.History
import NolagCore.SigningKey.Lifetime
import NolagCore.SigningKey.Revocation
import NolagCore.SigningKey.RevocationEffect
import NolagCore.SigningKey.Service
import NolagCore.SigningKey.Signed
