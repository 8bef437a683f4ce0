import SonarPlugin.Types

namespace SonarPlugin

/-- A `wxFileName`, as its directories and its full name. -/
structure FileName where
  dirs : List String
  fullName : String
deriving DecidableEq, Repr

namespace FileName

def empty : FileName := ⟨[], ""⟩

def setPath (path : String) (f : FileName) : FileName := { f with dirs := [path] }

def appendDir (dir : String) (f : FileName) : FileName := { f with dirs := f.dirs ++ [dir] }

def setFullName (name : String) (f : FileName) : FileName := { f with fullName := name }

def getFullPath (f : FileName) : String := f.dirs.foldr (fun d p => d ++ "/" ++ p) f.fullName

end FileName

structure ToolIcons where
  normal : String
  rollover : String
  toggled : String
deriving DecidableEq, Repr

/-- The globals `_svg_sonar`, `_svg_sonar_rollover` and `_svg_sonar_toggled`. -/
structure SvgImages where
  sonar : String
  rollover : String
  toggled : String
deriving DecidableEq, Repr

def initializeImages (pluginDataDir : String) : SvgImages :=
  let fn := FileName.empty.setPath pluginDataDir |>.appendDir "data" |>.setFullName "sonar.svg"
  let fnToggled := FileName.empty.setPath pluginDataDir |>.appendDir "data"
    |>.setFullName "sonar_toggled.svg"
  let svgToggled := fnToggled.getFullPath
  -- the third block sets up `fn_toggled` a second time, so `fn_rollover` stays as constructed
  let fnRollover := FileName.empty
  let _fnToggled := fnToggled.setPath pluginDataDir |>.appendDir "data"
    |>.setFullName "sonar_rollover.svg"
  { sonar := fn.getFullPath, rollover := fnRollover.getFullPath, toggled := svgToggled }

/-- The icons `Init` hands to `InsertPlugInToolSVG`. -/
def initIcons (svg : SvgImages) : ToolIcons := ⟨svg.sonar, svg.toggled, svg.toggled⟩

/-- The icons `ShowPreferencesDialog` hands to `InsertPlugInToolSVG`. -/
def preferencesIcons (svg : SvgImages) : ToolIcons := ⟨svg.sonar, svg.rollover, svg.toggled⟩

theorem initializeImages_rollover (dir : String) : (initializeImages dir).rollover = "" := rfl

theorem initializeImages_toggled (dir : String) : (initializeImages dir).toggled ≠ "" := by
  simp [initializeImages, FileName.getFullPath, FileName.setPath, FileName.appendDir,
    FileName.setFullName]

theorem preferencesIcons_ne_initIcons (dir : String) :
    preferencesIcons (initializeImages dir) ≠ initIcons (initializeImages dir) := by
  intro h
  have hr : (initializeImages dir).rollover = (initializeImages dir).toggled :=
    congrArg ToolIcons.rollover h
  rw [initializeImages_rollover] at hr
  exact initializeImages_toggled dir hr.symm

end SonarPlugin
