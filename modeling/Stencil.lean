import Stencil.Builder
import Stencil.Calendar
import Stencil.Derivation
import Stencil.Proofs.AcceptedItems
import Stencil.Proofs.AlikeData
import Stencil.Proofs.Balance
import Stencil.Proofs.BalancedSources
import Stencil.Proofs.BlankLines
import Stencil.Proofs.ByteOrder
import Stencil.Proofs.Chains
import Stencil.Proofs.CheckedMaps
import Stencil.Proofs.CompileCache
import Stencil.Proofs.CompileInduction
import Stencil.Proofs.Concatenation
import Stencil.Proofs.ContingentText
import Stencil.Proofs.CounterFree
import Stencil.Proofs.Cutting
import Stencil.Proofs.DataSections
import Stencil.Proofs.Delivery
import Stencil.Proofs.DottedName
import Stencil.Proofs.Enclosed
import Stencil.Proofs.Entering
import Stencil.Proofs.ErrorSites
import Stencil.Proofs.Escaping
import Stencil.Proofs.FieldNames
import Stencil.Proofs.FirstFault
import Stencil.Proofs.FormlessSteps
import Stencil.Proofs.Forms
import Stencil.Proofs.Fragments
import Stencil.Proofs.GrowingArena
import Stencil.Proofs.Heads
import Stencil.Proofs.Introspection
import Stencil.Proofs.Invocations
import Stencil.Proofs.JoinedTexts
import Stencil.Proofs.Layout
import Stencil.Proofs.Levels
import Stencil.Proofs.Likeness
import Stencil.Proofs.Links
import Stencil.Proofs.MissingReferences
import Stencil.Proofs.MovedArena
import Stencil.Proofs.Nesting
import Stencil.Proofs.NormalPaths
import Stencil.Proofs.OwnTemplates
import Stencil.Proofs.Pieces
import Stencil.Proofs.PlainSources
import Stencil.Proofs.Regions
import Stencil.Proofs.Relocation
import Stencil.Proofs.Resemblance
import Stencil.Proofs.Retexting
import Stencil.Proofs.RootLiterals
import Stencil.Proofs.ScopeChains
import Stencil.Proofs.ScopeNames
import Stencil.Proofs.SelectedFiles
import Stencil.Proofs.SequenceJoining
import Stencil.Proofs.SessionEffects
import Stencil.Proofs.SingleValue
import Stencil.Proofs.SourceMap
import Stencil.Proofs.StandaloneLines
import Stencil.Proofs.TemplatePlaces
import Stencil.Proofs.TemplateSupply
import Stencil.Proofs.Termination
import Stencil.Proofs.Transparency
import Stencil.Proofs.Uses
import Stencil.Proofs.Vocabulary
import Stencil.Proofs.WellFormedArena
import Stencil.Proofs.WrittenDirective
import Stencil.Session
import Stencil.Trace
