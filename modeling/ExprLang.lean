import ExprLang.CommandLine.Folder
import ExprLang.Main
import ExprLang.Proofs.Account.Source
import ExprLang.Proofs.Blame.Source
import ExprLang.Proofs.Building.Gaps
import ExprLang.Proofs.Chain.Reading
import ExprLang.Proofs.Cursor
import ExprLang.Proofs.Grammar.Accepts
import ExprLang.Proofs.Hollow.Complete
import ExprLang.Proofs.Hollow.Source
import ExprLang.Proofs.JsonText.Tree
import ExprLang.Proofs.Legibility.Unique
import ExprLang.Proofs.LongestMatch
import ExprLang.Proofs.Nesting.Complete
import ExprLang.Proofs.Nesting.Reported
import ExprLang.Proofs.Recovery.Deep
import ExprLang.Proofs.Recovery.Line
import ExprLang.Proofs.Relocation.Joined
import ExprLang.Proofs.Relocation.Spacing
import ExprLang.Proofs.RoundTrip.Again
import ExprLang.Proofs.Separators
import ExprLang.Proofs.Session.Agreement
import ExprLang.Proofs.Session.Overflow
import ExprLang.Proofs.Session.Reader
import ExprLang.Proofs.Settings
import ExprLang.Proofs.Nesting.Raised
