import SchemaLint.Main
import SchemaLint.Session
import SchemaLint.Proofs.RuleIsolation
import SchemaLint.Proofs.Composition
import SchemaLint.Proofs.Layout
import SchemaLint.Proofs.StatementOrder
import SchemaLint.Proofs.BuildFaults
import SchemaLint.Proofs.EventBlocks
import SchemaLint.Proofs.SessionHistory
import SchemaLint.Proofs.ConsoleLines
import SchemaLint.Proofs.Text.Utf8
import SchemaLint.Proofs.CommandLineContract
import SchemaLint.Proofs.PhraseOccurrence
import SchemaLint.Proofs.ClauseParts
import SchemaLint.Proofs.DroppedTables
import SchemaLint.Proofs.ClauseWords
import SchemaLint.Proofs.Declaration
import SchemaLint.Proofs.DeclaredNames
import SchemaLint.Proofs.Text.AsciiCase
import SchemaLint.Proofs.Text.Respacing
import SchemaLint.Proofs.PhraseLayout
import SchemaLint.Proofs.KeywordLayout
import SchemaLint.Proofs.ClauseLayout
import SchemaLint.Proofs.NamingLayout
import SchemaLint.Proofs.CheckConditions
import SchemaLint.Proofs.Alteration
import SchemaLint.Proofs.AlteredClauses
import SchemaLint.Proofs.AlteredNames
import SchemaLint.Proofs.Text.Tokens
import SchemaLint.Proofs.FollowingWord
import SchemaLint.Proofs.KeywordAgreement
import SchemaLint.Proofs.TablespaceTokens
import SchemaLint.Proofs.ScriptDecomposition
import SchemaLint.Proofs.PrefixedNames
import SchemaLint.Proofs.ConsoleColors
import SchemaLint.Proofs.StatementLine
