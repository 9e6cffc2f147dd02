import Lexicolor.Highlight
import Lexicolor.Format.Registry
import Lexicolor.Settings.Loader
import Lexicolor.CommandLine
import Lexicolor.Main
import Lexicolor.Proofs.Places
import Lexicolor.Proofs.Searching
import Lexicolor.Proofs.BodyRuns
import Lexicolor.Proofs.Endings
import Lexicolor.Proofs.Nesting
import Lexicolor.Proofs.Steps
import Lexicolor.Proofs.Headers
import Lexicolor.Proofs.Titles
import Lexicolor.Proofs.PiyathonHeaders
import Lexicolor.Proofs.Glossary
import Lexicolor.Proofs.CutWays
import Lexicolor.Proofs.CutWords
import Lexicolor.Proofs.Identifiers
import Lexicolor.Proofs.Passages
import Lexicolor.Proofs.PiyathonWords
import Lexicolor.Proofs.Registrations
import Lexicolor.Proofs.Declarations
import Lexicolor.Proofs.WordClasses
import Lexicolor.Proofs.Splitting
import Lexicolor.Proofs.Precedence
import Lexicolor.Proofs.OffsetScan
import Lexicolor.Proofs.QuotedStrings
import Lexicolor.Proofs.PiyathonStrings
import Lexicolor.Proofs.PiyathonStream
import Lexicolor.Proofs.FaithfulGrammars
import Lexicolor.Proofs.GrammarRoundTrip
import Lexicolor.Proofs.Faultless
import Lexicolor.Proofs.Labels
import Lexicolor.Proofs.ValidLanguages
import Lexicolor.Proofs.GrammarPaths
import Lexicolor.Proofs.SettingSources
import Lexicolor.Proofs.Openings
import Lexicolor.Proofs.TreeLines
import Lexicolor.Proofs.PiyathonLexemes
import Lexicolor.Proofs.ProducedWords
import Lexicolor.Proofs.WordTables
import Lexicolor.Proofs.FormatNames
import Lexicolor.Proofs.TypedVariables
import Lexicolor.Proofs.RegistrationOrder
import Lexicolor.Proofs.ConsultedTables
import Lexicolor.Proofs.BlockHeaders
import Lexicolor.Proofs.Restarts
import Lexicolor.Proofs.WalkOrder
