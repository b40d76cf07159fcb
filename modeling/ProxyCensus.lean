import ProxyCensus.Main
import ProxyCensus.Proofs.Rpc.Sharing
import ProxyCensus.Proofs.Detection.Exact
import ProxyCensus.Proofs.Rpc.Rounds
import ProxyCensus.Proofs.Job.ScanInterruption
import ProxyCensus.Proofs.Job.TwoPasses
import ProxyCensus.Proofs.Resolution.Outcomes
import ProxyCensus.Proofs.Resolution.Requests
import ProxyCensus.Proofs.Tally.Balance
import ProxyCensus.Proofs.Checkpoint.Flush
import ProxyCensus.Proofs.Job.FirstFailure
import ProxyCensus.Proofs.Job.ScanCoverage
import ProxyCensus.Proofs.Job.Accounts
import ProxyCensus.Proofs.Job.InertCandidates
import ProxyCensus.Proofs.Job.ScanOrder
import ProxyCensus.Proofs.Job.ResolveOrder
import ProxyCensus.Proofs.Job.ResolveInterruption
import ProxyCensus.Proofs.Detection.Shows
import ProxyCensus.Proofs.Job.Offline
import ProxyCensus.Proofs.Job.ResolveSessions
import ProxyCensus.Proofs.Rpc.Spacing
import ProxyCensus.Proofs.Tally.Conservation
import ProxyCensus.Proofs.Job.ScanBooks
import ProxyCensus.Proofs.Job.ResolveRegister
import ProxyCensus.Proofs.Command.Run
import ProxyCensus.Proofs.Detection.Clones
import ProxyCensus.Proofs.Analysis.Outcomes
import ProxyCensus.Proofs.Resolution.Answers
import ProxyCensus.Proofs.Job.ResolveSpellings
import ProxyCensus.Proofs.Job.UnaskableCandidates
import ProxyCensus.Proofs.Resolution.Reports
import ProxyCensus.Proofs.Job.Reruns
import ProxyCensus.Proofs.Detection.Catalogs
import ProxyCensus.Proofs.Job.CheckedChains
import ProxyCensus.Proofs.Tally.Labels
import ProxyCensus.Proofs.Job.ScanSpellings
import ProxyCensus.Proofs.Resolution.Slots
