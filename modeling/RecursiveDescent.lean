import RecursiveDescent.Deferred
import RecursiveDescent.Session
import RecursiveDescent.Proofs.Contract
import RecursiveDescent.Proofs.Shielding
import RecursiveDescent.Proofs.Roots
import RecursiveDescent.Proofs.Safety
import RecursiveDescent.Proofs.Upkeep
import RecursiveDescent.Proofs.Building
import RecursiveDescent.Proofs.RulesBuilt
import RecursiveDescent.Proofs.Apart
import RecursiveDescent.Proofs.LifeCycle
import RecursiveDescent.Proofs.Quotations
import RecursiveDescent.Proofs.Nesting
import RecursiveDescent.Proofs.Transparency
import RecursiveDescent.Proofs.Tracing
import RecursiveDescent.Proofs.LineTracking
import RecursiveDescent.Proofs.TextAhead
import RecursiveDescent.Proofs.Yielding
import RecursiveDescent.Proofs.YieldingLoops
import RecursiveDescent.Proofs.Places
import RecursiveDescent.Proofs.TextKept
import RecursiveDescent.Proofs.Termination
import RecursiveDescent.Proofs.Lines
import RecursiveDescent.Proofs.Causes
import RecursiveDescent.Proofs.Caret
import RecursiveDescent.Proofs.Tokens
import RecursiveDescent.Proofs.Arithmetic
import RecursiveDescent.Proofs.Misuse
import RecursiveDescent.Proofs.LineIndex
import RecursiveDescent.Proofs.Settling
import RecursiveDescent.Proofs.Dependable
import RecursiveDescent.Proofs.Rounds
import RecursiveDescent.Proofs.Chains
import RecursiveDescent.Proofs.OperatorRounds
import RecursiveDescent.Proofs.GuardedItems
import RecursiveDescent.Proofs.DelimitedItems
import RecursiveDescent.Proofs.ChainedItems
import RecursiveDescent.Proofs.LoopBounds
import RecursiveDescent.Proofs.Symbols
import RecursiveDescent.Proofs.Literals
import RecursiveDescent.Proofs.LongestRun
import RecursiveDescent.Proofs.OrderedChoice
import RecursiveDescent.Proofs.InSequence
import RecursiveDescent.Proofs.RepeatedItems
import RecursiveDescent.Proofs.Conjunction
import RecursiveDescent.Proofs.IgnoringCase
import RecursiveDescent.Proofs.AsciiCase
import RecursiveDescent.Proofs.FinalSigma
import RecursiveDescent.Proofs.Spelling
import RecursiveDescent.Proofs.HandedOn
