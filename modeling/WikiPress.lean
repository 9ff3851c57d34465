import WikiPress.Files.Tree
import WikiPress.Main
import WikiPress.Proofs.Block.Anchors
import WikiPress.Proofs.Block.Documents
import WikiPress.Proofs.Block.EscapedBrackets
import WikiPress.Proofs.Block.Links
import WikiPress.Proofs.Block.ParagraphSource
import WikiPress.Proofs.Block.Tables
import WikiPress.Proofs.Call.Interpretation
import WikiPress.Proofs.Call.Recording
import WikiPress.Proofs.Compilation.CallOrder
import WikiPress.Proofs.Compilation.FileNames
import WikiPress.Proofs.Compilation.LinkTargets
import WikiPress.Proofs.Compilation.OutputFiles
import WikiPress.Proofs.Compilation.PageClashes
import WikiPress.Proofs.Compilation.PageIsolation
import WikiPress.Proofs.Compilation.Titles
import WikiPress.Proofs.Files.PathParts
import WikiPress.Proofs.Files.TreeFiles
import WikiPress.Proofs.Files.TreeWalk
import WikiPress.Proofs.Glob.SourceListing
import WikiPress.Proofs.HeadingIds.Candidates
import WikiPress.Proofs.Html.ReadingBack
import WikiPress.Proofs.Include.Arguments
import WikiPress.Proofs.Include.Budget
import WikiPress.Proofs.Include.Evaluation
import WikiPress.Proofs.Include.LoadedOnce
import WikiPress.Proofs.Inline.Cursor
import WikiPress.Proofs.Inline.PlainText
import WikiPress.Proofs.Inline.Progress
import WikiPress.Proofs.Inline.TokenOrigin
import WikiPress.Proofs.Inline.UnitLayout
import WikiPress.Proofs.Pipe.Separators
import WikiPress.Proofs.Pragma
import WikiPress.Proofs.Site.OutputPlace
import WikiPress.Proofs.Site.OutputWrites
import WikiPress.Proofs.Site.Rebuilding
import WikiPress.Proofs.Slug.Words
import WikiPress.Proofs.TableOfContents.Completeness
import WikiPress.Proofs.TableOfContents.Depths
import WikiPress.Proofs.TableOfContents.Replacement
