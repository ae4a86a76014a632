import Velacritty.EventLoopRead
import Velacritty.EventLoopWrite
import Velacritty.GridResize
import Velacritty.GridViewport
import Velacritty.TermOp
import Velacritty.PendingWrap
import Velacritty.ViCursor
import Velacritty.ScrollRegion
import Velacritty.AltScreen
import Velacritty.KeyboardModes
import Velacritty.AutoScroll
import Velacritty.StorageRows
import Velacritty.TouchGestures
import Velacritty.RowReset
import Velacritty.Migrate
import Velacritty.SpacerRuns
import Velacritty.TypedText
import Velacritty.DamageRuns
import Velacritty.Overrides
import Velacritty.CursorMotions
import Velacritty.LineEditing
import Velacritty.DamageBounds
import Velacritty.PinnedLines
import Velacritty.ViewportClear
import Velacritty.LineCount
import Velacritty.ConfigAgree
import Velacritty.ReflowCursor
import Velacritty.Erasing
import Velacritty.ViMotionTotal
import Velacritty.SelectionScroll
import Velacritty.SelectionRange
import Velacritty.SelectionBounds
import Velacritty.ScanBounds
import Velacritty.RegexIterator
import Velacritty.WidePairs
import Velacritty.AtlasLoading
import Velacritty.HintHighlights
import Velacritty.SelectionDamage
import Velacritty.DamageRects
import Velacritty.HintTyping
import Velacritty.SearchBar
import Velacritty.MessageFits
import Velacritty.SemanticWords
import Velacritty.YamlNulls
import Velacritty.ConfigImports
import Velacritty.RejectedOverrides
import Velacritty.WindowsCmdline
import Velacritty.SearchHistory
import Velacritty.SearchPreview
import Velacritty.SeededSearch
import Velacritty.HintDrawing
import Velacritty.RedrawRuns
import Velacritty.FairMutex
import Velacritty.EventLoopSpin
import Velacritty.KeyInput
import Velacritty.Bindings
import Velacritty.Pasting
import Velacritty.InlineSearch
import Velacritty.TabStops
import Velacritty.ModeReports
import Velacritty.TextDrawing
import Velacritty.EnvironmentBlock
import Velacritty.Windows
