import XoLang.Main
import XoLang.Token.Session
import XoLang.Tree.Session
import XoLang.Proofs.Runs
import XoLang.Proofs.Places
import XoLang.Proofs.Lexical
import XoLang.Proofs.Grammar
import XoLang.Proofs.Relocation
import XoLang.Proofs.Rendering
import XoLang.Proofs.Lines
import XoLang.Proofs.Standing
import XoLang.Proofs.Shape
import XoLang.Proofs.Spreading
import XoLang.Proofs.ReadBack
import XoLang.Proofs.Reports
import XoLang.Proofs.Parts
import XoLang.Proofs.Weaving
import XoLang.Proofs.Scanning
import XoLang.Proofs.Comments
import XoLang.Proofs.Uncommented
import XoLang.Proofs.Spacing
import XoLang.Proofs.Entries
import XoLang.Proofs.Walking
import XoLang.Proofs.Placing
import XoLang.Proofs.Replacing
import XoLang.Proofs.Outcomes
import XoLang.Proofs.Searching
import XoLang.Proofs.Rebuilding
import XoLang.Proofs.LexicalFaults
import XoLang.Proofs.Fallback
import XoLang.Proofs.SyntaxFaults
import XoLang.Proofs.Viability
import XoLang.Proofs.Documents
import XoLang.Proofs.Agreement
import XoLang.Proofs.Calls
import XoLang.Proofs.CursorSessions
import XoLang.Proofs.ReaderSessions
import XoLang.Proofs.Listing
import XoLang.Proofs.LineFeeds
import XoLang.Proofs.Renaming
import XoLang.Proofs.Separators
import XoLang.Proofs.StringLiterals
import XoLang.Proofs.Numerals
import XoLang.Proofs.Nearest
import XoLang.Proofs.Reformatting
import XoLang.Proofs.Dumps
import XoLang.Proofs.Limits
import XoLang.Proofs.SameValues
import XoLang.Proofs.Twins
import XoLang.Proofs.Overriding
import XoLang.Proofs.Colours
import XoLang.Proofs.TreeJson
