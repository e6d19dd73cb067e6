import TexToc.Text.Blank
import TexToc.Text.Letter
import TexToc.Text.Case
import TexToc.Text.LineIndex
import TexToc.Markup.Node
import TexToc.Markup.Signature
import TexToc.Markup.Scan
import TexToc.Markup.Parser
import TexToc.Markup.Render
import TexToc.Text.Digit
import TexToc.Text.Printable
import TexToc.Value
import TexToc.Text.Numeral
import TexToc.Binary64
import TexToc.Text.Quoted
import TexToc.Check
import TexToc.Failure
import TexToc.Settings.Basic
import TexToc.Settings.Environment
import TexToc.Outline.Config
import TexToc.Outline.Entry
import TexToc.Outline.Splice
import TexToc.Outline.Nesting
import TexToc.Outline.Numbering
import TexToc.Path
import TexToc.Text.Utf8
import TexToc.Disk
import TexToc.Include
import TexToc.Outline.Report
import TexToc.Outline.Arrange
import TexToc.DocCache
import TexToc.Outline.Gather
import TexToc.Session
import TexToc.MainFile
import TexToc.Cli.Args
import TexToc.Cli.Program
import TexToc.Main
import TexToc.Proofs.OutlineFailures
import TexToc.Proofs.Placement
import TexToc.Proofs.OpenerMemory
import TexToc.Proofs.EndMarkers
import TexToc.Proofs.DocumentOrder
import TexToc.Proofs.SectionNumbers
import TexToc.Proofs.CacheReuse
import TexToc.Proofs.ReachableFiles
import TexToc.Proofs.SplicedFiles
import TexToc.Proofs.SectionLabels
import TexToc.Proofs.ForcedReads
import TexToc.Proofs.ReadingBudget
import TexToc.Proofs.LevelNesting
import TexToc.Proofs.RankPlacement
import TexToc.Proofs.CacheHistory
import TexToc.Proofs.WalkOrder
import TexToc.Proofs.FileOutline
import TexToc.Proofs.LineCounting
import TexToc.Proofs.RankGroups
import TexToc.Proofs.RepeatedSplicing
import TexToc.Proofs.OutlineLines
