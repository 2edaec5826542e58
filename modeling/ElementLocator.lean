import ElementLocator.Document.Snapshot
import ElementLocator.Document.Outline
import ElementLocator.Text.Quoted
import ElementLocator.XPath.Literal
import ElementLocator.XPath.Query
import ElementLocator.Css.Query
import ElementLocator.Css.Escape
import ElementLocator.Config.File
import ElementLocator.Main
import ElementLocator.Scope
import ElementLocator.Document.Html
import ElementLocator.Locator.Picking
import ElementLocator.Proofs.Forest.Order
import ElementLocator.Proofs.Forest.Edits
import ElementLocator.Proofs.Forest.Subtree
import ElementLocator.Proofs.Forest.Moves
import ElementLocator.Proofs.Text.LetterCase
import ElementLocator.Proofs.Document.Built
import ElementLocator.Proofs.Document.Navigation
import ElementLocator.Proofs.Document.Descent
import ElementLocator.Proofs.Locator.Chain
import ElementLocator.Proofs.Locator.Run
import ElementLocator.Proofs.Locator.Layout
import ElementLocator.Proofs.Locator.Coherence
import ElementLocator.Proofs.Text.PlainName
import ElementLocator.Proofs.Text.Words
import ElementLocator.Proofs.XPath.Lexing
import ElementLocator.Proofs.XPath.Derivation
import ElementLocator.Proofs.XPath.Acceptance
import ElementLocator.Proofs.XPath.Literal
import ElementLocator.Proofs.XPath.Writing
import ElementLocator.Proofs.XPath.Selection
import ElementLocator.Proofs.XPath.Semantics
import ElementLocator.Proofs.XPath.Detached
import ElementLocator.Proofs.Document.Positions
import ElementLocator.Proofs.Css.Escape
import ElementLocator.Proofs.Css.Lexing
import ElementLocator.Proofs.Css.Matching
import ElementLocator.Proofs.Css.Reading
import ElementLocator.Proofs.Css.Writing
import ElementLocator.Proofs.Css.Joined
import ElementLocator.Proofs.Locator.Refinement
import ElementLocator.Proofs.Locator.WrittenPath
import ElementLocator.Proofs.Locator.WrittenSelector
import ElementLocator.Proofs.Locator.PathMeaning
import ElementLocator.Proofs.Locator.SelectorMeaning
import ElementLocator.Proofs.Locator.PathReading
import ElementLocator.Proofs.Locator.Resolvable
import ElementLocator.Proofs.Locator.RoundTrip
import ElementLocator.Proofs.Document.Markup
import ElementLocator.Proofs.Locator.Narrowing
import ElementLocator.Proofs.Locator.TagChain
import ElementLocator.Proofs.Locator.SelectorReading
import ElementLocator.Proofs.Document.History
import ElementLocator.Proofs.Document.ElementsAbove
import ElementLocator.Proofs.Css.Confined
import ElementLocator.Proofs.Locator.Clicks
import ElementLocator.Proofs.Locator.Toggling
import ElementLocator.Proofs.Css.Widening
import ElementLocator.Proofs.Locator.Anchor
import ElementLocator.Proofs.Locator.Offers
import ElementLocator.Proofs.Locator.Frame
import ElementLocator.Proofs.Locator.Tree
import ElementLocator.Proofs.Document.Order
import ElementLocator.Proofs.Css.Agreement
import ElementLocator.Proofs.XPath.Quoting
import ElementLocator.Proofs.XPath.Truth
import ElementLocator.Proofs.Document.Traversal
import ElementLocator.Proofs.XPath.Joining
import ElementLocator.Proofs.XPath.ErrorPlace
import ElementLocator.Proofs.XPath.Abbreviation
import ElementLocator.Proofs.Locator.SiblingPlaces
import ElementLocator.Proofs.Locator.Numbering
import ElementLocator.Proofs.CommandLine.Arguments
import ElementLocator.Proofs.Document.Snapshot
import ElementLocator.Proofs.Json.Grammar
import ElementLocator.Proofs.Json.Reading
import ElementLocator.Proofs.Json.Skipping
import ElementLocator.Proofs.Config.Contents
import ElementLocator.Proofs.CommandLine.Settings
