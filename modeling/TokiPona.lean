import TokiPona.Aliases.Basic
import TokiPona.Aliases.Configure
import TokiPona.Aliases.Load
import TokiPona.Batch
import TokiPona.Command.Arguments
import TokiPona.Command.Flag
import TokiPona.Command.Run
import TokiPona.Entries
import TokiPona.Files
import TokiPona.Host
import TokiPona.Json.Basic
import TokiPona.Json.Display
import TokiPona.Json.Printer
import TokiPona.Json.Reader
import TokiPona.Line
import TokiPona.Logging
import TokiPona.Main
import TokiPona.Note
import TokiPona.Number.Binary64
import TokiPona.Number.Shortest
import TokiPona.ParseError
import TokiPona.Phrase.Basic
import TokiPona.Phrase.Canonical
import TokiPona.Phrase.Document
import TokiPona.Phrase.Outline
import TokiPona.Phrase.Outliner
import TokiPona.Phrase.Parser
import TokiPona.Phrase.Reading
import TokiPona.Proofs.Phrase.WellFormed
import TokiPona.Proofs.Phrase.Words
import TokiPona.Proofs.Split
import TokiPona.Render
import TokiPona.Session
import TokiPona.Split
import TokiPona.Text.Blank
import TokiPona.Text.Casing
import TokiPona.Text.CodePoint
import TokiPona.Text.Cut
import TokiPona.Text.Digit
import TokiPona.Text.Lines
import TokiPona.Text.Lower
import TokiPona.Text.Printable
import TokiPona.Text.Quoted
import TokiPona.Text.Ranges
import TokiPona.Token
import TokiPona.Traced
import TokiPona.Word
import TokiPona.Word.Lemmas
import TokiPona.Proofs.Phrase.Group
import TokiPona.Proofs.Phrase.Predicate
import TokiPona.Proofs.Phrase.Clause
import TokiPona.Proofs.Phrase.Sentence
import TokiPona.Proofs.Phrase.RoundTrip
import TokiPona.Proofs.Text.Chunks
import TokiPona.Proofs.Token
import TokiPona.Proofs.Phrase.Canonical
import TokiPona.Proofs.Phrase.Unambiguous
import TokiPona.Proofs.Phrase.Errors
import TokiPona.Proofs.Phrase.Outliner
import TokiPona.Proofs.Phrase.Segments
import TokiPona.Proofs.Phrase.Grammar
import TokiPona.Proofs.Phrase.Acceptance
import TokiPona.Proofs.Aliases.Configure
import TokiPona.Proofs.Aliases.Reachable
import TokiPona.Proofs.Text.Lines
import TokiPona.Proofs.Files
import TokiPona.Proofs.Render
import TokiPona.Proofs.Aliases.Conservative
import TokiPona.Proofs.Aliases.Order
import TokiPona.Proofs.Batch
import TokiPona.Proofs.Session
import TokiPona.Proofs.Renderer
import TokiPona.Proofs.Text.Cut
import TokiPona.Proofs.Text.Plain
import TokiPona.Proofs.Phrase.Outline
import TokiPona.Proofs.Json.RoundTrip
import TokiPona.Proofs.Phrase.Document
import TokiPona.Proofs.Failure
import TokiPona.Proofs.Batch.Source
import TokiPona.Proofs.Phrase.Attachment
import TokiPona.Proofs.Phrase.Abbreviation
import TokiPona.Proofs.Phrase.Refusal
import TokiPona.Proofs.Text.Letter
import TokiPona.Proofs.Phrase.Group.Outcome
import TokiPona.Proofs.Text.LetterForm
import TokiPona.Proofs.Token.Chunk
import TokiPona.Proofs.Token.Language
import TokiPona.Proofs.Aliases.Effect
import TokiPona.Proofs.Aliases.Conflicts
import TokiPona.Proofs.Aliases.Target
import TokiPona.Proofs.Aliases.Outcome
import TokiPona.Proofs.Phrase.Balance
import TokiPona.Proofs.Json.Members
import TokiPona.Proofs.Aliases.Contradiction
import TokiPona.Proofs.Aliases.Spelling
import TokiPona.Proofs.Session.AddAlias
import TokiPona.Proofs.Session.Breaks
import TokiPona.Proofs.Text.Loose
import TokiPona.Text.Loose
