import SonarPlugin.Types

namespace SonarPlugin

/-- The eight members of `sonar_pi` that are kept between sessions. -/
structure Settings where
  sonarShowIcon : Bool
  sonarUseSonar : Bool
  sonarNorthUp : Bool
  sonarFrameSx : Int32
  sonarFrameSy : Int32
  sonarFrameX : Int32
  sonarFrameY : Int32
  sonarRange : Int32
deriving DecidableEq, Repr

/-- What a config file says: the entries that read as a number under their
full path. -/
abbrev ConfigFile := String → Option Int

/-- A `wxFileConfig`, which holds its entries in memory, at its current path. -/
structure FileConfig where
  path : String
  entries : ConfigFile

namespace FileConfig

def setPath (path : String) (c : FileConfig) : FileConfig := { c with path }

def fullPath (c : FileConfig) (key : String) : String := c.path ++ "/" ++ key

def readLong (c : FileConfig) (key : String) (default : Int) : Int :=
  (c.entries (c.fullPath key)).getD default

/-- A flag is stored as a number, and any number but zero reads as true. -/
def readBool (c : FileConfig) (key : String) (default : Bool) : Bool :=
  ((c.entries (c.fullPath key)).map (fun v => decide (v ≠ 0))).getD default

def writeLong (key : String) (value : Int) (c : FileConfig) : FileConfig :=
  { c with entries := fun k => if k = c.fullPath key then some value else c.entries k }

def writeBool (key : String) (value : Bool) (c : FileConfig) : FileConfig :=
  c.writeLong key (if value then 1 else 0)

variable {c : FileConfig} {path key key' : String} {value default : Int}

theorem fullPath_inj : c.fullPath key = c.fullPath key' ↔ key = key' := by
  simp [fullPath]

theorem fullPath_writeLong : (c.writeLong key' value).fullPath key = c.fullPath key := rfl

theorem readLong_writeLong :
    (c.writeLong key' value).readLong key default =
      if key = key' then value else c.readLong key default := by
  unfold readLong
  rw [fullPath_writeLong]
  simp only [writeLong, fullPath_inj]
  split <;> rfl

theorem readBool_writeLong {default : Bool} :
    (c.writeLong key' value).readBool key default =
      if key = key' then decide (value ≠ 0) else c.readBool key default := by
  unfold readBool
  rw [fullPath_writeLong]
  simp only [writeLong, fullPath_inj]
  split <;> rfl

theorem readBool_writeBool {b default : Bool} :
    (c.writeBool key' b).readBool key default =
      if key = key' then b else c.readBool key default := by
  rw [writeBool, readBool_writeLong]
  cases b <;> rfl

end FileConfig

/-- The reads of `LoadConfig`, with the conversion from `long` to `int`. -/
def readSettings (c : FileConfig) : Settings where
  sonarShowIcon := c.readBool "ShowRADARIcon" true
  sonarUseSonar := c.readBool "UseSonarRadar" true
  sonarNorthUp := c.readBool "NorthUp" false
  sonarFrameSx := Int32.ofInt (c.readLong "RADARDialogSizeX" 300)
  sonarFrameSy := Int32.ofInt (c.readLong "RADARDialogSizeY" 300)
  sonarFrameX := Int32.ofInt (c.readLong "RADARDialogPosX" 50)
  sonarFrameY := Int32.ofInt (c.readLong "RADARDialogPosY" 170)
  sonarRange := Int32.ofInt (c.readLong "RADARRange" 4)

def writeSettings (s : Settings) (c : FileConfig) : FileConfig :=
  c |>.writeBool "ShowRADARIcon" s.sonarShowIcon
    |>.writeBool "UseSonarRadar" s.sonarUseSonar
    |>.writeBool "NorthUp" s.sonarNorthUp
    |>.writeLong "RADARDialogSizeX" s.sonarFrameSx.toInt
    |>.writeLong "RADARDialogSizeY" s.sonarFrameSy.toInt
    |>.writeLong "RADARDialogPosX" s.sonarFrameX.toInt
    |>.writeLong "RADARDialogPosY" s.sonarFrameY.toInt
    |>.writeLong "RADARRange" s.sonarRange.toInt

def configPath : String := "/Plugins/Sonar"

def storedSettings (c : FileConfig) : Settings := readSettings (c.setPath configPath)

theorem readSettings_writeSettings (s : Settings) (c : FileConfig) :
    readSettings (writeSettings s c) = s := by
  simp [readSettings, writeSettings, FileConfig.readLong_writeLong,
    FileConfig.readBool_writeLong, FileConfig.readBool_writeBool]

theorem storedSettings_setPath (c : FileConfig) (path : String) :
    storedSettings (c.setPath path) = storedSettings c := rfl

theorem storedSettings_writeSettings (s : Settings) (c : FileConfig) :
    storedSettings (writeSettings s (c.setPath configPath)) = s := by
  have h : (writeSettings s (c.setPath configPath)).setPath configPath =
      writeSettings s (c.setPath configPath) := rfl
  rw [storedSettings, h, readSettings_writeSettings]

end SonarPlugin
