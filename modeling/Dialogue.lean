import Dialogue.Files.Memory
import Dialogue.Main
import Dialogue.Proofs.Results
import Dialogue.Proofs.Words
import Dialogue.Proofs.CodePoints
import Dialogue.Proofs.GuardedDecode
import Dialogue.Proofs.ModuleRoundTrip
import Dialogue.Proofs.StepEffects
import Dialogue.Proofs.CodeEntries
import Dialogue.Proofs.ReadInstructions
import Dialogue.Proofs.AssembledPrograms
import Dialogue.Proofs.CompiledModules
import Dialogue.Proofs.CodeFrames
import Dialogue.Proofs.DataReferences
import Dialogue.Proofs.KeptInstructions
import Dialogue.Proofs.CanonicalModules
import Dialogue.Proofs.Relocation
import Dialogue.Proofs.UnitScan
import Dialogue.Proofs.UnitPlaces
import Dialogue.Proofs.JoinedUnits
import Dialogue.Proofs.ParamGroups
import Dialogue.Proofs.GivenTexts
import Dialogue.Proofs.ErrorPlaces
import Dialogue.Proofs.GuardedTexts
import Dialogue.Proofs.GuardedReading
import Dialogue.Proofs.GuardedCompile
import Dialogue.Proofs.CompileErrors
import Dialogue.Proofs.EncodableScripts
import Dialogue.Proofs.LookAhead
import Dialogue.Proofs.JoinedScripts
import Dialogue.Proofs.WrittenTexts
import Dialogue.Proofs.ParamTrees
import Dialogue.Proofs.Configurations
import Dialogue.Proofs.CleanTexts
import Dialogue.Proofs.Snippets
import Dialogue.Proofs.SourcePlaces
import Dialogue.Proofs.SpokenTexts
import Dialogue.Proofs.ListedInstructions
import Dialogue.Proofs.SourceLines
import Dialogue.Proofs.NameHashes
import Dialogue.Proofs.AtomicWrites
import Dialogue.Proofs.ReadableOrders
import Dialogue.Proofs.TomlTables
import Dialogue.Proofs.DumpedConfigs
import Dialogue.Proofs.Carets
import Dialogue.Proofs.OuterCuts
import Dialogue.Proofs.OpenTexts
import Dialogue.Proofs.PackComments
