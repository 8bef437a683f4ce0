import SonarPlugin.Library.Rounding

namespace SonarPlugin

open Library

abbrev FrameId := Nat

structure Point (α : Type) where
  x : α
  y : α
deriving DecidableEq, Repr

structure Size (α : Type) where
  width : α
  height : α
deriving DecidableEq, Repr

def defaultSize : Size Int32 := ⟨-1, -1⟩

structure Colour where
  red : UInt8
  green : UInt8
  blue : UInt8
deriving DecidableEq, Repr

/-- A C++ `double`. Its two zeros, which nothing here tells apart, are one. -/
inductive Double
  | num (q : ℚ)
  | inf (negative : Bool)
  | nan
deriving DecidableEq

namespace Double

def zero : Double := .num 0

def ne : Double → Double → Bool
  | .num a, .num b => a ≠ b
  | .inf s, .inf t => s ≠ t
  | _, _ => true

def nonneg : Double → Bool
  | .num a => 0 ≤ a
  | .inf negative => !negative
  | .nan => false

def neg : Double → Double
  | .num a => .num (-a)
  | .inf negative => .inf (!negative)
  | .nan => .nan

def rounded (q : ℚ) : Double :=
  if Format.double.overflows q then .inf (decide (q < 0)) else .num (Format.double.round q)

def add : Double → Double → Double
  | .num a, .num b => rounded (a + b)
  | .inf s, .inf t => if s = t then .inf s else .nan
  | .inf s, .num _ | .num _, .inf s => .inf s
  | _, _ => .nan

def sub (a b : Double) : Double := a.add b.neg

end Double

inductive ColorScheme
  | rgb
  | day
  | dusk
  | night
deriving DecidableEq, Repr

inductive Key
  | one
  | up
  | down
  | other (code : Nat)
deriving DecidableEq, Repr

/-- A `wxBitmap` or `wxImage`, as far as its size goes. One that failed to
load or to be rescaled has size zero. -/
structure Bitmap where
  width : Nat
  height : Nat
deriving DecidableEq, Repr

namespace Bitmap

def invalid : Bitmap := ⟨0, 0⟩

def dims (b : Bitmap) : Int × Int := (b.width, b.height)

def isOk (b : Bitmap) : Bool := 0 < b.width && 0 < b.height

/-- `wxImage::Rescale` needs a valid image and positive sides. -/
def rescale (b : Bitmap) (width height : Int) : Bitmap :=
  if b.isOk && 0 < width && 0 < height then ⟨width.toNat, height.toNat⟩ else invalid

end Bitmap

/-- The platform the plug-in is compiled for: `WIN32` is defined or not. -/
inductive Platform
  | win32
  | other
deriving DecidableEq, Repr

/-- How the plug-in is compiled: for which platform, and with which arithmetic
for its zoom factors. These never grow too large for a `float`. -/
structure Build where
  platform : Platform
  rounding : Rounding

namespace Build

variable (build : Build)

/-- `size += 0.1` for a `float`, computed with doubles. -/
def grown (size : ℚ) : ℚ :=
  build.rounding.toFloat (build.rounding.toDouble (size + build.rounding.toDouble (1 / 10)))

def shrunk (size : ℚ) : ℚ :=
  build.rounding.toFloat (build.rounding.toDouble (size - build.rounding.toDouble (1 / 10)))

/-- `int(side * size)` for an `int` and a `float`. -/
def scaled (side : Int) (size : ℚ) : Int :=
  truncate (build.rounding.toFloat (build.rounding.toFloat side * size))

/-- The same build if the zoom factors were exact numbers. -/
def exact : Build := { build with rounding := .exact }

theorem grown_exact (size : ℚ) : build.exact.grown size = size + 1 / 10 := rfl

theorem shrunk_exact (size : ℚ) : build.exact.shrunk size = size - 1 / 10 := rfl

theorem scaled_exact (side : Int) (size : ℚ) :
    build.exact.scaled side size = truncate (side * size) := rfl

end Build

structure Env where
  build : Build
  /-- Whether `wxDialog::Create` succeeds for the n-th frame. -/
  dialogOk : FrameId → Bool
  /-- Whether the host has a config object. -/
  configObject : Bool
  pluginDataDir : String
  /-- What loading `test.png` gives. -/
  testPng : Bitmap

def Env.exact (env : Env) : Env := { env with build := env.build.exact }

inductive Member
  | timer
  | canvas
  | viewState
  | northUp
  | imgData
deriving DecidableEq, Repr

inductive Site
  | create
  | onClose
  | onNorthUp
  | onMove
  | onSize
  | paintEvent
  | render
deriving DecidableEq, Repr

end SonarPlugin
