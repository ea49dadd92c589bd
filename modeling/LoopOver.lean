import LoopOver.Approval.Eligibility
import LoopOver.Approval.Once
import LoopOver.Benchmark.Score
import LoopOver.Contract.Canonical
import LoopOver.Discovery.SoftClaims
import LoopOver.Duplicates.Advisory
import LoopOver.Executor.Soundness
import LoopOver.Federation.Shadowing
import LoopOver.Federation.Trust
import LoopOver.Gate.Engine
import LoopOver.Governor.FileOverlap
import LoopOver.Governor.Gate
import LoopOver.Ledger.Retention
import LoopOver.Ledger.Revisions
import LoopOver.Ledger.Tamper
import LoopOver.Ledger.Waivers
import LoopOver.Locks.Ownership
import LoopOver.Miner.AllocatorAnswers
import LoopOver.Miner.ClaimLedger
import LoopOver.Miner.CloneLock
import LoopOver.Miner.IterateSafety
import LoopOver.Miner.ReentryBounds
import LoopOver.Miner.Worktree
import LoopOver.Plan.Export
import LoopOver.Plan.Harness
import LoopOver.Planner.Breaker
import LoopOver.Planner.Gating
import LoopOver.Planner.HoldCause
import LoopOver.Portfolio.Manager
import LoopOver.Postgres.Exclusion
import LoopOver.Postgres.Placeholders
import LoopOver.Postgres.Replace
import LoopOver.Queue.Delay
import LoopOver.Queue.Fairness
import LoopOver.Relay.Delivery
import LoopOver.Relay.Drain
import LoopOver.Retention.FleetCount
import LoopOver.Review.Calibration
import LoopOver.Review.DiffBudget
import LoopOver.Review.LoosestFloor
import LoopOver.Review.OldestFirst
import LoopOver.Review.PriorityEligibility
import LoopOver.Review.ReputationSignal
import LoopOver.Review.SafeUrlSound
import LoopOver.Review.SecretExactness
import LoopOver.Review.VerdictFlip
import LoopOver.Scoring.Scenarios
import LoopOver.Settings.CommandOverride
import LoopOver.Signals.GlobComplexity
import LoopOver.Tenants.TornDown
import LoopOver.Tuning.Expiry
