import RegistryCache.Text.Decimal
import RegistryCache.Text.Base64
import RegistryCache.Policy
import RegistryCache.Cache.Codec
import RegistryCache.Sync.World
import RegistryCache.Sync.StopSignal
import RegistryCache.Config.Codec
import RegistryCache.Config.Environment
import RegistryCache.Http.Client
import RegistryCache.CommandLine.Usage
import RegistryCache.Program.Run
import RegistryCache.Main
import RegistryCache.Proofs.Interleaving.Basic
import RegistryCache.Proofs.Interleaving.Effects
import RegistryCache.Proofs.Interleaving.Loops
import RegistryCache.Proofs.Interleaving.Waiting
import RegistryCache.Proofs.Interleaving.Stopping
import RegistryCache.Proofs.Interleaving.Worlds
import RegistryCache.Proofs.Interleaving.Traces
import RegistryCache.Proofs.Quiescence
import RegistryCache.Proofs.CatalogHistory
import RegistryCache.Proofs.TagHistory
import RegistryCache.Proofs.Deletions
import RegistryCache.Proofs.Pagination.Listing
import RegistryCache.Proofs.Pagination.Replies
import RegistryCache.Proofs.Pagination.Walks
import RegistryCache.Proofs.Pagination.Refreshes
import RegistryCache.Proofs.Negotiation.Basic
import RegistryCache.Proofs.Negotiation.Runs
import RegistryCache.Proofs.Negotiation.Calls
import RegistryCache.Proofs.Negotiation.Exchange
import RegistryCache.Proofs.Negotiation.Tokens
import RegistryCache.Proofs.Negotiation.UnfitTokens
import RegistryCache.Proofs.Negotiation.BasicChallenges
import RegistryCache.Proofs.Negotiation.Destinations
import RegistryCache.Proofs.Negotiation.Resources
import RegistryCache.Proofs.Texts
import RegistryCache.Proofs.Addresses.Authorities
import RegistryCache.Proofs.Addresses.Extension
import RegistryCache.Proofs.Addresses.References
import RegistryCache.Proofs.Addresses.Below
import RegistryCache.Proofs.Addresses.PlainPaths
import RegistryCache.Proofs.Scheduling.Rounds
import RegistryCache.Proofs.Scheduling.Answers
import RegistryCache.Proofs.Scheduling.LifeCycle
import RegistryCache.Proofs.Scheduling.Timetable
import RegistryCache.Proofs.Scheduling.Punctuality
import RegistryCache.Proofs.Browsing.ByteOrder
import RegistryCache.Proofs.Browsing.Paths
import RegistryCache.Proofs.Browsing.Children
import RegistryCache.Proofs.Browsing.Counts
import RegistryCache.Proofs.Programs.CatalogReading
import RegistryCache.Proofs.Programs.Foreground
import RegistryCache.Proofs.Programs.Steps
import RegistryCache.Proofs.Programs.ExitStatus
import RegistryCache.Proofs.Addresses.AbsolutePaths
import RegistryCache.Proofs.Pagination.PageContents
import RegistryCache.Proofs.Headers.Challenges
import RegistryCache.Proofs.Headers.Links
import RegistryCache.Proofs.Repetitions
import RegistryCache.Proofs.TagOrder
import RegistryCache.Proofs.Logging
import RegistryCache.Proofs.Pagination.TagWalks
import RegistryCache.Proofs.DeletionCourse
import RegistryCache.Proofs.ListingCourse
import RegistryCache.Proofs.Pagination.DividedTargets
import RegistryCache.Proofs.Json.RoundTrip
import RegistryCache.Proofs.PassCourse
import RegistryCache.Proofs.Configuration
import RegistryCache.Proofs.Browsing.Subtrees
import RegistryCache.Proofs.LargestRepositories
import RegistryCache.Proofs.RefreshNotes
import RegistryCache.Proofs.StopSignals
import RegistryCache.Proofs.Precedence
import RegistryCache.Proofs.Negotiation.Passwords
import RegistryCache.Proofs.Negotiation.FaultForms
import RegistryCache.Proofs.CommandLine.Placements
import RegistryCache.Proofs.Durations.Readings
