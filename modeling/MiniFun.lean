import MiniFun.Expr.Induction
import MiniFun.Main
import MiniFun.Proofs.FrameReachability
import MiniFun.Proofs.LexicalScoping
import MiniFun.Proofs.RoundTrip
import MiniFun.Proofs.ScopeSafety
import MiniFun.Proofs.ViablePrefix
import MiniFun.Value.Chain
import MiniFun.Value.Equality
import MiniFun.Proofs.BoundNames
import MiniFun.Proofs.CodeProvenance
import MiniFun.Proofs.Renumbering
import MiniFun.Proofs.IndependentRuns
import MiniFun.Proofs.OneLineTexts
import MiniFun.Proofs.SessionTrace
import MiniFun.Proofs.LongestMatch
import MiniFun.Proofs.FinishedRuns
import MiniFun.Proofs.ParserTermination
import MiniFun.Proofs.PrintedFunctions
import MiniFun.Proofs.SeparateLines
import MiniFun.Proofs.LetAsApplication
import MiniFun.Proofs.DelimitedContexts
import MiniFun.Proofs.Dialogues
import MiniFun.Proofs.LayoutIndependence
import MiniFun.Proofs.TokenDelivery
import MiniFun.Proofs.EvaluationOrder
import MiniFun.Proofs.ListLiterals
import MiniFun.Proofs.MultipleParameters
import MiniFun.Proofs.PrintedData
import MiniFun.Proofs.RecursiveFunctions
import MiniFun.Proofs.RefusedTokens
import MiniFun.Proofs.EndlessRuns
import MiniFun.Proofs.ChainsOfPairs
import MiniFun.Proofs.ComparedValues
import MiniFun.Proofs.ProgramFiles
import MiniFun.Proofs.OneWordAhead
import MiniFun.Proofs.AssociationLists
import MiniFun.Proofs.CommandModes
