import SonarPlugin.Library.System
import SonarPlugin.Library.Pointer
import SonarPlugin.Library.Ledger
import SonarPlugin.Config
import SonarPlugin.ViewState
import SonarPlugin.Machine
import SonarPlugin.Render
import SonarPlugin.Effects
import SonarPlugin.Opening
import SonarPlugin.Transitions
import SonarPlugin.WellFormed
import SonarPlugin.SingleFrame
import SonarPlugin.Requests
import SonarPlugin.HalfBuilt
import SonarPlugin.FrameLife
import SonarPlugin.Viewing
import SonarPlugin.Repaint
import SonarPlugin.Rescale
import SonarPlugin.RescaleHistory
import SonarPlugin.Toolbar
import SonarPlugin.Library.Holders
import SonarPlugin.Ownership
import SonarPlugin.Expected
import SonarPlugin.Matching
import SonarPlugin.SettingsKept
import SonarPlugin.Feeds
import SonarPlugin.PositionFixes
import SonarPlugin.RedundantFixes
import SonarPlugin.Library.Custody
import SonarPlugin.Targets
import SonarPlugin.Library.Grip
import SonarPlugin.Dragging
import SonarPlugin.GrabbedPoint
import SonarPlugin.Pointing
import SonarPlugin.Library.Abstraction
import SonarPlugin.Lifecycle
import SonarPlugin.LifecycleLaws
import SonarPlugin.Windows
import SonarPlugin.WindowLaws
import SonarPlugin.Library.Purge
import SonarPlugin.Views
import SonarPlugin.ViewLaws
import SonarPlugin.ViewSteps
import SonarPlugin.FeedsUnseen
import SonarPlugin.PictureUnseen
import SonarPlugin.Recovery
import SonarPlugin.OwnEvents
import SonarPlugin.Bearings
import SonarPlugin.Ticking
import SonarPlugin.Slideshow
import SonarPlugin.Library.Board
import SonarPlugin.CrossDrags
import SonarPlugin.CallOrder
import SonarPlugin.Stationary
import SonarPlugin.Library.Registry
import SonarPlugin.StrayTools
import SonarPlugin.Memory
import SonarPlugin.Builds
