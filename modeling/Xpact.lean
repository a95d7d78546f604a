import Xpact.Library.Program
import Xpact.Library.Table
import Xpact.Text.Characters
import Xpact.Text.Scanning
import Xpact.Text.Utf8
import Xpact.Entities.Context
import Xpact.Parser.Event
import Xpact.Parser.State
import Xpact.Parser.Commands
import Xpact.Parser.Scan
import Xpact.Parser.Input
import Xpact.Parser.Misc
import Xpact.Parser.References
import Xpact.Parser.ContentModels
import Xpact.Parser.Declarations
import Xpact.Parser.Subset
import Xpact.Parser.Doctype
import Xpact.Parser.Namespaces
import Xpact.Parser.AttributeNames
import Xpact.Parser.Elements
import Xpact.Parser.Entry
import Xpact.Entities.Merge
import Xpact.Parser.Frames
import Xpact.Parser.Replay
import Xpact.Parser.FirstDeclaration
import Xpact.Library.Nesting
import Xpact.Parser.Log
import Xpact.Parser.Brackets
import Xpact.Parser.ElementSteps
import Xpact.Parser.WellNested
import Xpact.Parser.ElementStacks
import Xpact.Native.ParsingStatus
import Xpact.Library.Law
import Xpact.Parser.PlainRoutines
import Xpact.Parser.EntityNesting
import Xpact.Parser.EntityRoutines
import Xpact.Parser.EntityStack
import Xpact.Library.Monitor
import Xpact.Parser.StopLaw
import Xpact.Parser.StopRoutines
import Xpact.Parser.StopMarkup
import Xpact.Parser.StopHonoured
import Xpact.Library.Reader
import Xpact.Sessions.Markup
import Xpact.Sessions.Incremental
import Xpact.Sessions.ExpatPort
import Xpact.Sessions.ExpatPortPieces
import Xpact.Parser.AttributeUniqueness
import Xpact.Parser.Names
import Xpact.Parser.DeclaredNames
import Xpact.Parser.NameErrors
import Xpact.Library.Parts
import Xpact.Parser.NeutralRoutines
import Xpact.Parser.ContentLaws
import Xpact.Parser.DisabledDeclarations
import Xpact.Parser.SkippedReferences
import Xpact.Library.BreadthFirst
import Xpact.Native.ContentModelArray
import Xpact.Parser.Positions
import Xpact.Grammar.Productions
import Xpact.Library.Delimiters
import Xpact.Grammar.Coverage
import Xpact.Parser.DoctypeEnd
import Xpact.Library.Resume
import Xpact.Native.DoctypePrefix
import Xpact.Native.DeferredToken
import Xpact.Grammar.Names
import Xpact.Library.Judge
import Xpact.Parser.Recognizers
import Xpact.Parser.XmlDeclaration
import Xpact.Library.Unicode
import Xpact.Native.Decoding
import Xpact.Native.Utf8
import Xpact.Parser.CharacterReferences
import Xpact.Native.Utf16
import Xpact.Native.Utf16Documents
import Xpact.Parser.Normalization
import Xpact.Native.DeclaredEncoding
import Xpact.Native.Utf8Input
import Xpact.Native.DecodedPrefixes
import Xpact.Library.CMemory
import Xpact.Native.UnknownEncoding
import Xpact.Native.InputBuffer
import Xpact.Library.OpenAddressing
import Xpact.Parser.AttributeNameSets
import Xpact.Parser.DuplicateAttributes
import Xpact.Library.Splicing
import Xpact.Parser.SubsetPositions
import Xpact.Library.Contracts
import Xpact.Text.Contracts
import Xpact.Sessions.Contracts
import Xpact.Sessions.ContractRuns
import Xpact.Library.Attempts
import Xpact.Parser.ContentRounds
import Xpact.Parser.ContentContracts
import Xpact.Grammar.ContentText
import Xpact.Grammar.ContentSpecs
import Xpact.Grammar.MixedContents
import Xpact.Grammar.GroupedSpecs
import Xpact.Parser.ElementContracts
import Xpact.Parser.ElementDeclarations
import Xpact.Library.Redelivery
import Xpact.Native.CallbackDelivery
import Xpact.Parser.Reuse
import Xpact.Library.Lockstep
import Xpact.Parser.Interruptions
import Xpact.Native.ResumedParse
import Xpact.Entities.LocalResolver
import Xpact.Library.Coupling
import Xpact.Parser.Twins
import Xpact.Parser.TwinElements
import Xpact.Parser.TwinAttributes
import Xpact.Parser.TwinTags
import Xpact.Parser.TwinReferences
import Xpact.Parser.TwinText
import Xpact.Parser.TwinPlainText
import Xpact.Parser.TwinDocuments
import Xpact.Parser.Limits
import Xpact.Library.Approximation
import Xpact.Parser.Bounds
