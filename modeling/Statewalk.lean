import Statewalk.Journal.Diagnostic
import Statewalk.Probe
import Statewalk.Session
import Statewalk.Proofs.ChoiceStack
import Statewalk.Proofs.Ledger
import Statewalk.Proofs.Attainment
import Statewalk.Proofs.QuietRuns
import Statewalk.Proofs.DepthFirstSteps
import Statewalk.Proofs.GraphRuns
import Statewalk.Proofs.Frontiers
import Statewalk.Proofs.DepthFirstRuns
import Statewalk.Proofs.BestFirstSteps
import Statewalk.Proofs.BestFirstRuns
import Statewalk.Proofs.Detection
import Statewalk.Proofs.DepthSurvey
import Statewalk.Proofs.LeastDepth
import Statewalk.Proofs.Coverage
import Statewalk.Proofs.BreadthFirstLevels
import Statewalk.Proofs.Assurance
import Statewalk.Proofs.Restraint
import Statewalk.Proofs.DepthTracking
import Statewalk.Proofs.DepthAgreement
import Statewalk.Proofs.StaticProperties
import Statewalk.Proofs.ViolationAccounts
import Statewalk.Proofs.BestFirstAccounts
import Statewalk.Proofs.Conservation
import Statewalk.Proofs.Metering
import Statewalk.Proofs.AnnouncedViolations
import Statewalk.Proofs.ContinuedRuns
import Statewalk.Proofs.ViolationReports
import Statewalk.Proofs.RecursiveTours
import Statewalk.Proofs.RecordedSearches
import Statewalk.Proofs.Telling
import Statewalk.Proofs.EventGrammar
import Statewalk.Proofs.Recital
import Statewalk.Proofs.AnnouncementOrder
import Statewalk.Proofs.DepthFirstOutline
import Statewalk.Proofs.Newness
import Statewalk.Proofs.DepthRecords
import Statewalk.Proofs.DepthFirstBudgets
import Statewalk.Proofs.DepthFirstTermination
import Statewalk.Proofs.BestFirstRecords
import Statewalk.Proofs.Trails
import Statewalk.Proofs.Disciplines
import Statewalk.Proofs.Minutes
import Statewalk.Proofs.Broadcasts
import Statewalk.Proofs.Cancellation
import Statewalk.Proofs.FrozenViolations
import Statewalk.Proofs.DepthLimits
import Statewalk.Proofs.BestFirstLimits
import Statewalk.Proofs.EngineHistories
import Statewalk.Proofs.Bookkeeping
import Statewalk.Proofs.Reports
import Statewalk.Proofs.Tandem
import Statewalk.Proofs.Impartiality
import Statewalk.Proofs.Bystanders
import Statewalk.Proofs.Noninterference
import Statewalk.Proofs.EngineDiscoveries
import Statewalk.Proofs.BestEntries
import Statewalk.Proofs.QueueTrails
import Statewalk.Proofs.BoundedQueue
import Statewalk.Proofs.Conduct
import Statewalk.Proofs.RecordKeeping
import Statewalk.Proofs.JournalBlindness
import Statewalk.Proofs.SingleWalks
import Statewalk.Proofs.JsonTexts
import Statewalk.Proofs.JsonRecords
import Statewalk.Proofs.GraphRecords
import Statewalk.Proofs.SizeTexts
import Statewalk.Proofs.ConfigRecords
import Statewalk.Proofs.ReportRecords
import Statewalk.Proofs.Monitors
import Statewalk.Proofs.DepthFirstLimits
import Statewalk.Proofs.PromptAnnouncements
import Statewalk.Proofs.JournalWalks
import Statewalk.Proofs.LoneSearches
import Statewalk.Proofs.RandomWalks
import Statewalk.Proofs.DepthTableHistories
import Statewalk.Proofs.GraphBuilding
import Statewalk.Proofs.NestedExploration
